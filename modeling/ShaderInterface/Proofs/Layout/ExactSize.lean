import ShaderInterface.Proofs.Layout.Measure
import ShaderInterface.Proofs.Layout.Nodes

/-!
# Exact sizes

The sizes of declared types over the natural numbers, where nothing is cut off and nothing
overflows. A size that can be computed in words is the exact one, cut off at the largest word.
-/

namespace ShaderInterface

namespace Shape

/-- Exact bytes of a single value that is not a struct. -/
def exactLeafBytes (matricesAsVectors : Bool) (shape : Shape) : Nat :=
  match matricesAsVectors, shape.variableClass with
  | true, .matrixRows => shape.rows.toNat * slotBytes
  | true, .matrixColumns => shape.columns.toNat * slotBytes
  | _, _ => shape.columns.toNat * shape.rows.toNat * 4

/-- Exact bytes of all elements, if one takes `size` bytes. -/
def exactExtent (size : Nat) (shape : Shape) : Nat :=
  strideOf size * (shape.elements.toNat - 1) + size

theorem componentBytes_eq_ok {packed : Nat} {shape : Shape}
    (computed : shape.componentBytes = .ok packed) :
    packed = shape.columns.toNat * shape.rows.toNat * 4 ∧ packed ≤ Word.last := by
  obtain ⟨product, multiplied, quadrupled⟩ := bind_eq_ok_iff.mp computed
  obtain ⟨-, rfl⟩ := Word.multiply_eq_ok_iff.mp multiplied
  obtain ⟨fits, rfl⟩ := Word.multiply_eq_ok_iff.mp quadrupled
  exact ⟨rfl, fits⟩

/-- The size of a value without members is never cut off. -/
theorem leafBytes_eq_ok {matricesAsVectors : Bool} {packed size : Nat} {shape : Shape}
    (computed : shape.componentBytes = .ok packed)
    (sized : shape.leafBytes matricesAsVectors packed = .ok size) :
    size = shape.exactLeafBytes matricesAsVectors ∧ size ≤ Word.last := by
  have packed_eq := componentBytes_eq_ok computed
  unfold leafBytes at sized
  unfold exactLeafBytes
  cases matricesAsVectors with
  | false =>
      obtain rfl := Except.ok.inj sized
      exact packed_eq
  | true =>
      cases variableClass : shape.variableClass <;> rw [variableClass] at sized
      case matrixRows | matrixColumns =>
        obtain ⟨fits, rfl⟩ := Word.multiply_eq_ok_iff.mp sized
        exact ⟨rfl, fits⟩
      all_goals
        obtain rfl := Except.ok.inj sized
        exact packed_eq

end Shape

namespace LayoutTree

variable {Label : Type}

mutual

/-- Exact bytes of one element of a type. -/
def exactSize (matricesAsVectors : Bool) : LayoutTree Label → Nat
  | node shape _ members =>
      if shape.variableClass = .struct then exactEnd matricesAsVectors members
      else shape.exactLeafBytes matricesAsVectors

/-- Exact bytes from the start of a struct to the end of its last member. -/
def exactEnd (matricesAsVectors : Bool) : List (LayoutTree Label) → Nat
  | [] => 0
  | [last] =>
      last.shape.offset.toNat + last.shape.exactExtent (exactSize matricesAsVectors last)
  | _ :: next :: rest => exactEnd matricesAsVectors (next :: rest)

end

variable {matricesAsVectors : Bool} {tree : LayoutTree Label}

theorem exactSize_eq (matricesAsVectors : Bool) (tree : LayoutTree Label) :
    tree.exactSize matricesAsVectors =
      if tree.shape.variableClass = .struct then exactEnd matricesAsVectors tree.members
      else tree.shape.exactLeafBytes matricesAsVectors := by
  cases tree
  rw [exactSize]
  rfl

theorem exactEnd_concat (matricesAsVectors : Bool) (front : List (LayoutTree Label))
    (last : LayoutTree Label) :
    exactEnd matricesAsVectors (front ++ [last]) =
      last.shape.offset.toNat + last.shape.exactExtent (last.exactSize matricesAsVectors) := by
  induction front with
  | nil => rw [List.nil_append, exactEnd]
  | cons first front induction =>
      cases front with
      | nil => rw [List.singleton_append, exactEnd, ← induction, List.nil_append]
      | cons next front => rw [List.cons_append, List.cons_append, exactEnd, ← induction,
          List.cons_append]

/-- If the size of an element is the exact one up to the largest word, so is the whole size. -/
theorem wholeSize_eq_min {whole : Nat}
    (exact : ∀ size, tree.elementSize matricesAsVectors = .ok size →
      size = min (tree.exactSize matricesAsVectors) Word.last)
    (computed : tree.wholeSize matricesAsVectors = .ok whole) :
    whole = min (tree.shape.exactExtent (tree.exactSize matricesAsVectors)) Word.last := by
  obtain ⟨size, sized, extended⟩ := bind_eq_ok_iff.mp computed
  have size_eq := exact size sized
  unfold Shape.exactExtent
  cases array : tree.shape.isArray with
  | false =>
      rw [Shape.arrayBytes, array] at extended
      obtain rfl := Except.ok.inj extended
      have single : tree.shape.elements.toNat - 1 = 0 := by
        have := Shape.elements_le_one array
        omega
      rw [single, Nat.mul_zero, Nat.zero_add, size_eq]
  | true =>
      rw [Shape.arrayBytes, array, if_pos rfl] at extended
      obtain ⟨stride, rounded, finished⟩ := bind_eq_ok_iff.mp extended
      obtain rfl := Except.ok.inj finished
      -- Rounding succeeded, so the size of an element has not been cut off.
      have uncut : tree.exactSize matricesAsVectors = size := by
        have := lt_last_of_roundToSlot rounded
        omega
      obtain ⟨-, rfl⟩ := roundToSlot_eq_ok_iff.mp rounded
      rw [uncut, Shape.arrayExtent_eq_min, strideOf]

/-- The size of an element is the exact one, cut off at the largest word. -/
theorem elementSize_eq_min {size : Nat} (sized : tree.elementSize matricesAsVectors = .ok size) :
    size = min (tree.exactSize matricesAsVectors) Word.last := by
  induction tree using inheritance generalizing size with
  | step tree induction =>
      rw [exactSize_eq]
      by_cases struct : tree.shape.variableClass = .struct
      · have ended := structSize_of_elementSize struct sized
        rw [if_pos struct]
        rcases List.eq_nil_or_concat tree.members with split | ⟨front, last, split⟩
        · rw [split, structSize] at ended
          obtain rfl := Except.ok.inj ended
          rw [split, exactEnd, Nat.zero_min]
        · rw [List.concat_eq_append] at split
          rw [split, structSize_concat] at ended
          obtain ⟨whole, computed, rfl⟩ := map_eq_ok_iff.mp ended
          have isLast : last ∈ tree.members := split ▸ List.mem_concat_self
          have whole_eq := wholeSize_eq_min (fun _ => induction last isLast) computed
          rw [split, exactEnd_concat, whole_eq, Word.saturatingAdd]
          omega
      · rw [elementSize_eq] at sized
        obtain ⟨packed, computed, chosen⟩ := bind_eq_ok_iff.mp sized
        rw [if_neg struct] at chosen
        obtain ⟨size_eq, fits⟩ := Shape.leafBytes_eq_ok computed chosen
        rw [if_neg struct, ← size_eq, Nat.min_eq_left fits]

/-- The size of a measured type is exact. -/
theorem Measured.exactSize_eq {size stride : Nat}
    (measured : Measured matricesAsVectors tree size stride) :
    tree.exactSize matricesAsVectors = size := by
  have size_eq := elementSize_eq_min measured.size_eq
  have uncut := measured.size_lt_last
  omega

/-- The extent of a measured type is the exact one, cut off at the largest word. -/
theorem Measured.arrayExtent_eq {size stride : Nat}
    (measured : Measured matricesAsVectors tree size stride) :
    tree.shape.arrayExtent size stride =
      min (tree.shape.exactExtent (tree.exactSize matricesAsVectors)) Word.last := by
  rw [Shape.arrayExtent_eq_min, Shape.exactExtent, measured.exactSize_eq,
    measured.stride_eq_strideOf]

end LayoutTree
end ShaderInterface
