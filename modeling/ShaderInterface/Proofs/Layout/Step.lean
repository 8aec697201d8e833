import ShaderInterface.Layout.Search
import ShaderInterface.Proofs.Layout.Measure

/-!
# One step of a search

What a search does at one type, once the type is measured: it turns the byte down, it stops at a
leaf, or it asks the members of a struct for the byte folded back into the first element.
-/

namespace ShaderInterface

theorem Shape.distance?_eq (size stride start target : Nat) (shape : Shape) :
    shape.distance? size stride start target =
      .ok (if Covers start (shape.arrayExtent size stride) target then some (target - start)
        else none) := by
  unfold Shape.distance?
  by_cases early : target < start
  · have outside : ¬ Covers start (shape.arrayExtent size stride) target :=
      fun covers => Nat.not_le_of_lt early covers.1
    rw [if_pos early, if_neg outside]
    rfl
  · have reached : start ≤ target := Nat.le_of_not_lt early
    rw [if_neg early, Word.subtract_eq_ok_iff.mpr ⟨reached, rfl⟩]
    change (if target - start < shape.arrayExtent size stride then _ else _) = _
    by_cases inside : target - start < shape.arrayExtent size stride
    · rw [if_pos inside, if_pos ⟨reached, inside⟩]
      rfl
    · rw [if_neg inside, if_neg fun covers => inside covers.2]
      rfl

/-- The array index that a struct reports for byte `distance` of its elements of `size` bytes. -/
def Shape.structLevel (size distance : Nat) (shape : Shape) : List Nat :=
  if shape.isArray then [distance / size] else []

theorem Shape.structIndices_eq {size : Nat} (size_pos : 0 < size) (distance : Nat)
    (shape : Shape) :
    shape.structIndices size distance = .ok (shape.structLevel size distance) := by
  unfold Shape.structIndices Shape.structLevel
  cases shape.isArray with
  | false => rfl
  | true =>
      have divided : Word.divide distance size = .ok (distance / size) :=
        Word.divide_eq_ok_iff.mpr ⟨Nat.ne_of_gt size_pos, rfl⟩
      rw [if_pos rfl, if_pos rfl, divided]
      rfl

namespace LayoutTree

variable {Label : Type} {matricesAsVectors : Bool} {base target : Nat}
  {tree : LayoutTree Label}

/-- The location found in a struct that was entered through `outer`: the one of a member, or the
padding of the struct itself. -/
def enclose (outer : List Nat) (inner : Option (Location Label)) (tree : LayoutTree Label) :
    Location Label :=
  match inner with
  | some location => location.within outer
  | none => ⟨tree, false, outer, 0⟩

theorem leafLocation_leaf (start distance : Nat) (tree : LayoutTree Label) :
    (tree.leafLocation start distance).leaf = tree := by
  unfold leafLocation
  split <;> (try split) <;> rfl

theorem search_eq (matricesAsVectors : Bool) (base target : Nat) (tree : LayoutTree Label) :
    search matricesAsVectors base target tree = (do
      let size ← tree.elementSize matricesAsVectors
      let stride ← roundToSlot size
      let start := Word.saturatingAdd base tree.shape.offset.toNat
      match ← tree.shape.distance? size stride start target with
      | none => return none
      | some distance =>
          if tree.shape.variableClass = .struct then
            let outer ← tree.shape.structIndices size distance
            let folded ← Word.add start (← Word.remainder distance stride)
            return some
              (tree.enclose outer (← searchMembers matricesAsVectors start folded tree.members))
          else
            return some (tree.leafLocation start distance)) := by
  cases tree with
  | node shape label members =>
      rw [search]
      refine bind_congr fun size => bind_congr fun stride => bind_congr fun found => ?_
      cases found with
      | none => rfl
      | some distance =>
          by_cases struct : shape.variableClass = .struct
          · simp only [shape_node, members_node, struct, ↓reduceIte]
            refine bind_congr fun outer => ?_
            refine bind_congr fun rest => ?_
            refine bind_congr fun folded => ?_
            refine bind_congr fun inner => ?_
            cases inner <;> rfl
          · simp only [shape_node, struct, ↓reduceIte]

/-- A search enters measured types only. -/
theorem exists_measured_of_search {answer : Option (Location Label)}
    (found : search matricesAsVectors base target tree = .ok answer) :
    ∃ size stride, Measured matricesAsVectors tree size stride := by
  rw [search_eq] at found
  obtain ⟨size, sized, rest⟩ := bind_eq_ok_iff.mp found
  obtain ⟨stride, rounded, -⟩ := bind_eq_ok_iff.mp rest
  exact ⟨size, stride, sized, rounded⟩

/-- Folding a byte back into the first element does not move it past itself. -/
theorem folded_le {start extent : Nat} (covers : Covers start extent target) (stride : Nat) :
    start + (target - start) % stride ≤ target := by
  have := Nat.mod_le (target - start) stride
  have := covers.1
  omega

section Measured

variable {size stride : Nat}

theorem search_measured (measured : Measured matricesAsVectors tree size stride) :
    search matricesAsVectors base target tree =
      let start := Word.saturatingAdd base tree.shape.offset.toNat
      if Covers start (tree.shape.arrayExtent size stride) target then
        if tree.shape.variableClass = .struct then do
          let outer ← tree.shape.structIndices size (target - start)
          let folded ← Word.add start (← Word.remainder (target - start) stride)
          return some
            (tree.enclose outer (← searchMembers matricesAsVectors start folded tree.members))
        else
          .ok (some (tree.leafLocation start (target - start)))
      else
        .ok none := by
  rw [search_eq]
  simp only [measured.size_eq, measured.stride_eq, Shape.distance?_eq, ok_bind]
  by_cases covers : Covers (Word.saturatingAdd base tree.shape.offset.toNat)
      (tree.shape.arrayExtent size stride) target
  · simp only [if_pos covers]
    rfl
  · simp only [if_neg covers]
    rfl

/-- A search turns down a byte outside the type. -/
theorem search_outside (measured : Measured matricesAsVectors tree size stride)
    (outside : ¬ Covers (Word.saturatingAdd base tree.shape.offset.toNat)
      (tree.shape.arrayExtent size stride) target) :
    search matricesAsVectors base target tree = .ok none := by
  rw [search_measured measured]
  exact if_neg outside

/-- A search that reaches a type without members stops there. -/
theorem search_leaf (measured : Measured matricesAsVectors tree size stride)
    (covers : Covers (Word.saturatingAdd base tree.shape.offset.toNat)
      (tree.shape.arrayExtent size stride) target)
    (leaf : tree.shape.variableClass ≠ .struct) :
    search matricesAsVectors base target tree =
      .ok (some (tree.leafLocation (Word.saturatingAdd base tree.shape.offset.toNat)
        (target - Word.saturatingAdd base tree.shape.offset.toNat))) := by
  rw [search_measured measured]
  exact (if_pos covers).trans (if_neg leaf)

/-- A search that reaches a struct asks the members for the byte of the first element, and no
operation on the way can fail. -/
theorem search_struct (measured : Measured matricesAsVectors tree size stride)
    {start : Nat} (start_eq : Word.saturatingAdd base tree.shape.offset.toNat = start)
    (covers : Covers start (tree.shape.arrayExtent size stride) target)
    (struct : tree.shape.variableClass = .struct) (target_le : target ≤ Word.last) :
    search matricesAsVectors base target tree =
      (searchMembers matricesAsVectors start (start + (target - start) % stride)
        tree.members).map fun inner =>
          some (tree.enclose (tree.shape.structLevel size (target - start)) inner) := by
  have size_pos := measured.size_pos covers
  have stride_pos : stride ≠ 0 := by
    have := measured.size_le_stride
    omega
  have remains : Word.remainder (target - start) stride = .ok ((target - start) % stride) :=
    Word.remainder_eq_ok_iff.mpr ⟨stride_pos, rfl⟩
  have folded : Word.add start ((target - start) % stride) =
      .ok (start + (target - start) % stride) :=
    Word.add_eq_ok_iff.mpr ⟨Nat.le_trans (folded_le covers stride) target_le, rfl⟩
  rw [search_measured measured, start_eq]
  refine (if_pos covers).trans ((if_pos struct).trans ?_)
  simp only [Shape.structIndices_eq size_pos, remains, folded, ok_bind]
  cases searchMembers matricesAsVectors start (start + (target - start) % stride)
    tree.members <;> rfl

end Measured

/-- The three ways in which a search ends at a type. -/
theorem search_cases {answer : Option (Location Label)}
    (found : search matricesAsVectors base target tree = .ok answer)
    (target_le : target ≤ Word.last) :
    ∃ size stride, Measured matricesAsVectors tree size stride ∧
      let start := Word.saturatingAdd base tree.shape.offset.toNat
      let extent := tree.shape.arrayExtent size stride
      (¬ Covers start extent target ∧ answer = none) ∨
      (Covers start extent target ∧ tree.shape.variableClass ≠ .struct ∧
        answer = some (tree.leafLocation start (target - start))) ∨
      (Covers start extent target ∧ tree.shape.variableClass = .struct ∧
        ∃ inner, searchMembers matricesAsVectors start (start + (target - start) % stride)
            tree.members = .ok inner ∧
          answer = some (tree.enclose (tree.shape.structLevel size (target - start)) inner)) := by
  obtain ⟨size, stride, measured⟩ := exists_measured_of_search found
  refine ⟨size, stride, measured, ?_⟩
  by_cases covers : Covers (Word.saturatingAdd base tree.shape.offset.toNat)
      (tree.shape.arrayExtent size stride) target
  · by_cases struct : tree.shape.variableClass = .struct
    · rw [search_struct measured rfl covers struct target_le] at found
      obtain ⟨inner, asked, enclosed⟩ := map_eq_ok_iff.mp found
      exact Or.inr (Or.inr ⟨covers, struct, inner, asked, enclosed.symm⟩)
    · rw [search_leaf measured covers struct] at found
      exact Or.inr (Or.inl ⟨covers, struct, (Except.ok.inj found).symm⟩)
  · rw [search_outside measured covers] at found
    exact Or.inl ⟨covers, (Except.ok.inj found).symm⟩

/-! ## The members of a struct -/

theorem searchMembers_cons (matricesAsVectors : Bool) (base target : Nat)
    (member : LayoutTree Label) (rest : List (LayoutTree Label)) :
    searchMembers matricesAsVectors base target (member :: rest) = (do
      match ← search matricesAsVectors base target member with
      | some location => return some location
      | none => searchMembers matricesAsVectors base target rest) := rfl

/-- The members are asked in declaration order until one has the byte. -/
theorem searchMembers_cases {members : List (LayoutTree Label)}
    {answer : Option (Location Label)}
    (found : searchMembers matricesAsVectors base target members = .ok answer) :
    (answer = none ∧
      ∀ member ∈ members, search matricesAsVectors base target member = .ok none) ∨
    ∃ before member after location, members = before ++ member :: after ∧
      (∀ earlier ∈ before, search matricesAsVectors base target earlier = .ok none) ∧
      search matricesAsVectors base target member = .ok (some location) ∧
      answer = some location := by
  induction members with
  | nil =>
      rw [searchMembers] at found
      exact Or.inl ⟨(Except.ok.inj found).symm, nofun⟩
  | cons member rest induction =>
      rw [searchMembers_cons] at found
      obtain ⟨first, asked, next⟩ := bind_eq_ok_iff.mp found
      cases first with
      | some location =>
          exact Or.inr ⟨[], member, rest, location, rfl, nofun, asked, (Except.ok.inj next).symm⟩
      | none =>
          rcases induction next with ⟨rfl, turnedDown⟩ |
            ⟨before, holder, after, location, rfl, turnedDown, located, rfl⟩
          · exact Or.inl ⟨rfl, List.forall_mem_cons.mpr ⟨asked, turnedDown⟩⟩
          · exact Or.inr ⟨member :: before, holder, after, location, rfl,
              List.forall_mem_cons.mpr ⟨asked, turnedDown⟩, located, rfl⟩

theorem searchMembers_append {before : List (LayoutTree Label)}
    (turnedDown : ∀ earlier ∈ before, search matricesAsVectors base target earlier = .ok none)
    (rest : List (LayoutTree Label)) :
    searchMembers matricesAsVectors base target (before ++ rest) =
      searchMembers matricesAsVectors base target rest := by
  induction before with
  | nil => rfl
  | cons member before induction =>
      obtain ⟨asked, turnedDown⟩ := List.forall_mem_cons.mp turnedDown
      rw [List.cons_append, searchMembers_cons, asked, ← induction turnedDown]
      rfl

theorem searchMembers_of_first {before : List (LayoutTree Label)} {member : LayoutTree Label}
    {location : Location Label}
    (turnedDown : ∀ earlier ∈ before, search matricesAsVectors base target earlier = .ok none)
    (located : search matricesAsVectors base target member = .ok (some location))
    (after : List (LayoutTree Label)) :
    searchMembers matricesAsVectors base target (before ++ member :: after) =
      .ok (some location) := by
  rw [searchMembers_append turnedDown, searchMembers_cons, located]
  rfl

end LayoutTree
end ShaderInterface
