import ShaderInterface.Proofs.Layout.ExactSize
import ShaderInterface.Proofs.Layout.Visits

/-!
# Indices of struct arrays

An array of structs is folded by the stride of its elements, but its index counts unpadded elements.
The index is therefore too large by the whole elements that fit in the padding passed, and the array
has bytes whose index lies outside of it exactly if its elements are padded.
-/

namespace ShaderInterface

open LayoutTree

/-- A number up to the largest word is one. -/
theorem Word.exists_toNat_eq {value : Nat} (fits : value ≤ Word.last) :
    ∃ word : UInt32, word.toNat = value :=
  ⟨.ofNat value, UInt32.toNat_ofNat_of_lt (Nat.lt_succ_of_le fits)⟩

/-! ## Counting unpadded elements -/

section Counting

variable {size stride elements distance : Nat}

/-- The count of unpadded elements runs ahead of the element number by the unpadded elements that
fit in the padding passed and the part of the element. -/
theorem div_unpadded (size_pos : 0 < size) (size_le : size ≤ stride) (distance : Nat) :
    distance / size = distance / stride +
      (distance / stride * (stride - size) + distance % stride) / size := by
  let element := distance / stride
  have split : distance = element * stride + distance % stride :=
    (Nat.div_add_mod' distance stride).symm
  have padded : element * stride = element * (stride - size) + element * size := by
    rw [← Nat.mul_add, Nat.sub_add_cancel size_le]
  calc distance / size
      = (element * (stride - size) + distance % stride + element * size) / size := by
        congr 1
        omega
    _ = element + (element * (stride - size) + distance % stride) / size := by
        rw [Nat.add_mul_div_right _ _ size_pos, Nat.add_comm]

theorem le_div_unpadded (size_pos : 0 < size) (size_le : size ≤ stride) :
    distance / stride ≤ distance / size := by
  rw [div_unpadded size_pos size_le]
  exact Nat.le_add_right _ _

theorem div_unpadded_eq_iff (size_pos : 0 < size) (size_le : size ≤ stride) :
    distance / size = distance / stride ↔
      distance / stride * (stride - size) + distance % stride < size := by
  rw [div_unpadded size_pos size_le, Nat.add_eq_left, Nat.div_eq_zero_iff_lt size_pos]

/-- The last byte of a padded array counts as one beyond its elements. -/
theorem le_div_last (array : 1 < elements) (padded : size < stride) (size_pos : 0 < size)
    (last : distance + 1 = stride * (elements - 1) + size) : elements ≤ distance / size := by
  rw [Nat.le_div_iff_mul_le size_pos]
  have further : (elements - 1) * (size + 1) ≤ (elements - 1) * stride :=
    Nat.mul_le_mul_left _ padded
  have whole : elements * size = (elements - 1) * size + size := by
    rw [← Nat.succ_mul, Nat.succ_eq_add_one, Nat.sub_add_cancel (by omega)]
  rw [Nat.mul_succ] at further
  rw [Nat.mul_comm] at last
  omega

/-- Every byte of an array that is not padded counts as one of its elements. -/
theorem div_lt_elements (elements_pos : 0 < elements)
    (inside : distance < size * (elements - 1) + size) : distance / size < elements := by
  apply Nat.div_lt_of_lt_mul
  rwa [← Nat.mul_succ, Nat.succ_eq_add_one, Nat.sub_add_cancel elements_pos] at inside

theorem strideOf_eq_self_iff : strideOf size = size ↔ slotBytes ∣ size :=
  ⟨fun same => same ▸ slotBytes_dvd_strideOf size, strideOf_of_dvd⟩

end Counting

namespace LayoutTree

variable {Label : Type} {matricesAsVectors : Bool} {base target size stride : Nat}
  {tree : LayoutTree Label}

/-- What is found in a struct does not depend on the index that the struct was entered through. -/
theorem exists_enclose_singleton (inner : Option (Location Label)) (tree : LayoutTree Label) :
    ∃ leaf isArray rest rebase, ∀ index,
      tree.enclose [index] inner = ⟨leaf, isArray, index :: rest, rebase⟩ := by
  cases inner with
  | none => exact ⟨tree, false, [], 0, fun _ => rfl⟩
  | some location =>
      exact ⟨location.leaf, location.isArray, location.indices, location.rebase, fun _ => rfl⟩

/-- In an array of structs, a byte is found where the byte folded into the first element is, with
an index that counts unpadded elements. -/
theorem exists_location_of_array (measured : Measured matricesAsVectors tree size stride)
    (struct : tree.shape.variableClass = .struct) (array : tree.shape.isArray) {start : Nat}
    (start_eq : Word.saturatingAdd base tree.shape.offset.toNat = start)
    (covers : Covers start (tree.shape.arrayExtent size stride) target)
    (target_le : target ≤ Word.last) {answer : Option (Location Label)}
    (found : search matricesAsVectors base target tree = .ok answer) :
    ∃ leaf isArray rest rebase,
      answer = some ⟨leaf, isArray, (target - start) / size :: rest, rebase⟩ ∧
      search matricesAsVectors base (start + (target - start) % stride) tree =
        .ok (some ⟨leaf, isArray, (target - start) % stride / size :: rest, rebase⟩) := by
  have folded_le := folded_le covers stride
  have foldedCovers : Covers start (tree.shape.arrayExtent size stride)
      (start + (target - start) % stride) := by
    have inside := covers.2
    exact ⟨Nat.le_add_right _ _, by omega⟩
  rw [search_struct measured start_eq covers struct target_le] at found
  obtain ⟨inner, asked, rfl⟩ := map_eq_ok_iff.mp found
  obtain ⟨leaf, isArray, rest, rebase, enclosed⟩ := exists_enclose_singleton inner tree
  refine ⟨leaf, isArray, rest, rebase, ?_, ?_⟩
  · rw [Shape.structLevel, if_pos array, enclosed]
  · rw [search_struct measured start_eq foldedCovers struct (by omega), Nat.add_sub_cancel_left,
      Nat.mod_mod, asked, Shape.structLevel, if_pos array]
    exact congrArg (Except.ok ∘ some) (enclosed _)

end LayoutTree

namespace PlacedType

variable {flags : LayoutFlags} {type : PlacedType} {base target : UInt32} {size start : Nat}

/-- Locating a byte of an array of structs, and its place in the first element. -/
theorem exists_locate_of_array (struct : type.shape.variableClass = .struct)
    (array : type.shape.isArray) (sized : type.elementSize flags.matricesAsVectors = .ok size)
    (start_eq : Word.saturatingAdd base.toNat type.shape.offset.toNat = start)
    (covers : Covers start (type.shape.arrayExtent size (strideOf size)) target.toNat)
    {answer : Option (Location Placement)}
    (located : (type.locate flags base target).run.value = .ok answer) :
    ∃ leaf isArray rest rebase,
      answer = some ⟨leaf, isArray, (target.toNat - start) / size :: rest, rebase⟩ ∧
      ∃ folded : UInt32,
        folded.toNat = start + (target.toNat - start) % strideOf size ∧
        (type.locate flags base folded).run.value =
          .ok (some ⟨leaf, isArray, (target.toNat - start) % strideOf size / size :: rest,
            rebase⟩) := by
  have target_le : target.toNat ≤ Word.last := Nat.le_of_lt_succ target.toNat_lt
  rw [value_locate] at located
  obtain ⟨size', stride, measured⟩ := exists_measured_of_search located
  obtain rfl := Except.ok.inj (sized.symm.trans measured.size_eq)
  obtain rfl := measured.stride_eq_strideOf
  obtain ⟨leaf, isArray, rest, rebase, same, foldedFound⟩ :=
    exists_location_of_array measured struct array start_eq covers target_le located
  obtain ⟨folded, folded_eq⟩ :=
    Word.exists_toNat_eq (Nat.le_trans (folded_le covers (strideOf size)) target_le)
  refine ⟨leaf, isArray, rest, rebase, same, folded, folded_eq, ?_⟩
  rw [value_locate, folded_eq]
  exact foldedFound

/-- A byte is located with an outermost index that no element of the array has. -/
def IndexBeyond (flags : LayoutFlags) (base target : UInt32) (type : PlacedType) : Prop :=
  ∃ leaf isArray first rest rebase,
    (type.locate flags base target).run.value =
      .ok (some ⟨leaf, isArray, first :: rest, rebase⟩) ∧
    type.shape.elements.toNat ≤ first

/-- In an array of structs that fill whole slots no index is beyond the elements. -/
theorem not_indexBeyond_of_dvd (struct : type.shape.variableClass = .struct)
    (array : type.shape.isArray) (sized : type.elementSize flags.matricesAsVectors = .ok size)
    (aligned : slotBytes ∣ size)
    (covers : Covers (Word.saturatingAdd base.toNat type.shape.offset.toNat)
      (type.shape.arrayExtent size (strideOf size)) target.toNat) :
    ¬ type.IndexBeyond flags base target := by
  rintro ⟨leaf, isArray, first, rest, rebase, located, first_ge⟩
  obtain ⟨_, _, _, _, same, -⟩ := exists_locate_of_array struct array sized rfl covers located
  obtain ⟨rfl, -⟩ := List.cons.inj (congrArg Location.indices (Option.some.inj same))
  have elements_gt := Shape.isArray_iff.mp array
  have inside := covers.2
  rw [strideOf_of_dvd aligned, Shape.arrayExtent_eq_min] at inside
  exact Nat.not_le_of_lt (div_lt_elements (by omega) (by omega)) first_ge

/-- In an array of padded structs the index of the last byte is beyond the elements. -/
theorem indexBeyond_last (struct : type.shape.variableClass = .struct)
    (array : type.shape.isArray) (size_pos : 1 ≤ size)
    (sized : type.elementSize flags.matricesAsVectors = .ok size) (padded : ¬ slotBytes ∣ size)
    (start_eq : Word.saturatingAdd base.toNat type.shape.offset.toNat = start)
    (covers : Covers start (type.shape.arrayExtent size (strideOf size)) target.toNat)
    (last : target.toNat + 1 =
      start + (strideOf size * (type.shape.elements.toNat - 1) + size))
    {answer : Option (Location Placement)}
    (located : (type.locate flags base target).run.value = .ok answer) :
    type.IndexBeyond flags base target := by
  obtain ⟨leaf, isArray, rest, rebase, rfl, -⟩ :=
    exists_locate_of_array struct array sized start_eq covers located
  have size_lt : size < strideOf size :=
    Nat.lt_of_le_of_ne (le_slotCount_mul size) fun same =>
      padded (strideOf_eq_self_iff.mp same.symm)
  exact ⟨leaf, isArray, _, rest, rebase, located,
    le_div_last (Shape.isArray_iff.mp array) size_lt size_pos (by omega)⟩

end PlacedType

/-- The index of a struct array is at least the number of the element, and it is that number
exactly while the padding passed and the place in the element take less than an unpadded element.
Apart from it, a byte is found where its place in the first element is. In an array that ends below
the largest word and can be searched throughout, a byte is found with an index beyond the elements
exactly if the elements are padded, and then the last byte is one. -/
theorem structIndex_unpadded (flags : LayoutFlags) (type : PlacedType) (base : UInt32)
    (size : Nat) (struct : type.shape.variableClass = .struct) (array : type.shape.isArray)
    (size_pos : 1 ≤ size) (sized : type.elementSize flags.matricesAsVectors = .ok size) :
    let stride := strideOf size
    let start := Word.saturatingAdd base.toNat type.shape.offset.toNat
    let exactEnd := start + (stride * (type.shape.elements.toNat - 1) + size)
    let locate := fun target : UInt32 => (type.locate flags base target).run.value
    let inside := fun target : UInt32 =>
      Covers start (type.shape.arrayExtent size stride) target.toNat
    (∀ target answer, inside target → locate target = .ok answer →
      let element := (target.toNat - start) / stride
      let place := (target.toNat - start) % stride
      ∃ leaf isArray first rest rebase,
        answer = some ⟨leaf, isArray, first :: rest, rebase⟩ ∧ element ≤ first ∧
        (first = element ↔ element * (stride - size) + place < size) ∧
        ∃ (folded : UInt32) (foldedFirst : Nat), folded.toNat = start + place ∧
          locate folded = .ok (some ⟨leaf, isArray, foldedFirst :: rest, rebase⟩)) ∧
    ((∀ target, inside target → ∃ answer, locate target = .ok answer) →
      exactEnd ≤ Word.last →
        ((∃ target, inside target ∧ type.IndexBeyond flags base target) ↔ ¬ 16 ∣ size) ∧
        (¬ 16 ∣ size → ∃ last : UInt32, last.toNat + 1 = exactEnd ∧ inside last ∧
          type.IndexBeyond flags base last)) := by
  intro stride start exactEnd locate inside
  have size_le : size ≤ stride := le_slotCount_mul size
  constructor
  · intro target answer covers located element place
    obtain ⟨leaf, isArray, rest, rebase, same, folded, folded_eq, foldedLocated⟩ :=
      PlacedType.exists_locate_of_array struct array sized rfl covers located
    exact ⟨leaf, isArray, _, rest, rebase, same, le_div_unpadded size_pos size_le,
      div_unpadded_eq_iff size_pos size_le, folded, _, folded_eq, foldedLocated⟩
  · intro answers fits
    have lastBeyond : ¬ 16 ∣ size → ∃ last : UInt32, last.toNat + 1 = exactEnd ∧ inside last ∧
        type.IndexBeyond flags base last := by
      intro padded
      obtain ⟨last, last_eq⟩ := Word.exists_toNat_eq (Nat.le_trans (Nat.sub_le exactEnd 1) fits)
      -- The extent is not cut off, since the array ends below the largest word.
      have covers : Covers start (type.shape.arrayExtent size stride) last.toNat := by
        rw [covers_iff, Shape.arrayExtent_eq_min, Nat.min_eq_left (by omega)]
        omega
      have end_eq : last.toNat + 1 = exactEnd := by omega
      obtain ⟨answer, located⟩ := answers last covers
      exact ⟨last, end_eq, covers, PlacedType.indexBeyond_last struct array size_pos sized padded
        rfl covers end_eq located⟩
    refine ⟨⟨?_, fun padded => ?_⟩, lastBeyond⟩
    · rintro ⟨target, covers, beyond⟩ aligned
      exact PlacedType.not_indexBeyond_of_dvd struct array sized aligned covers beyond
    · obtain ⟨last, -, covers, beyond⟩ := lastBeyond padded
      exact ⟨last, covers, beyond⟩

/-- Four structs of 12 bytes: byte 37 is in element 2 and has index 3, and byte 59 has index 4. -/
theorem structIndex_unpadded_paddedRows :
    let rows : PlacedType :=
      TypeDescription.place none 0 (.array 4 (.struct "rows" 0 [.vector "axis" 0 3]))
    let locate := fun target : UInt32 => (rows.locate ⟨0⟩ 0 target).run.value
    rows.shape.variableClass = .struct ∧ rows.shape.isArray ∧ 1 ≤ 12 ∧
    rows.elementSize false = .ok 12 ∧ Covers 0 60 37 ∧
    (∃ leaf isArray first rest rebase,
      locate 37 = .ok (some ⟨leaf, isArray, first :: rest, rebase⟩) ∧ 2 ≤ first ∧
      (first = 2 ↔ 2 * (16 - 12) + 5 < 12) ∧
      ∃ (folded : UInt32) (foldedFirst : Nat), folded.toNat = 0 + 5 ∧
        locate folded = .ok (some ⟨leaf, isArray, foldedFirst :: rest, rebase⟩)) ∧
    (∀ target : UInt32, Covers 0 60 target.toNat → ∃ answer, locate target = .ok answer) ∧
    0 + (16 * (4 - 1) + 12) ≤ Word.last ∧ ¬ 16 ∣ 12 ∧
    (∃ target : UInt32, Covers 0 60 target.toNat ∧ rows.IndexBeyond ⟨0⟩ 0 target) ∧
    ∃ last : UInt32, last.toNat + 1 = 60 ∧ rows.IndexBeyond ⟨0⟩ 0 last := by
  intro rows locate
  have sized : rows.elementSize false = .ok 12 := rfl
  have covers : Covers 0 60 37 := by decide
  have fits : 0 + (16 * (4 - 1) + 12) ≤ Word.last := by decide
  have padded : ¬ 16 ∣ 12 := by decide
  have measured : ∀ node ∈ rows.nodes, ∃ size stride, Measured false node size stride := by
    decide
  have answers : ∀ target : UInt32, Covers 0 60 target.toNat →
      ∃ answer, locate target = .ok answer := by
    intro target _
    obtain ⟨answer, found⟩ := exists_search measured (Nat.le_of_lt_succ target.toNat_lt)
    exact ⟨answer, (PlacedType.value_locate ⟨0⟩ 0 target rows).trans found⟩
  obtain ⟨indices, bounds⟩ := structIndex_unpadded ⟨0⟩ rows 0 12 rfl rfl (by decide) sized
  obtain ⟨answer, located⟩ := answers 37 covers
  have element_eq : ((37 : UInt32).toNat - Word.saturatingAdd (0 : UInt32).toNat
      rows.shape.offset.toNat) / strideOf 12 = 2 := by decide
  have place_eq : ((37 : UInt32).toNat - Word.saturatingAdd (0 : UInt32).toNat
      rows.shape.offset.toNat) % strideOf 12 = 5 := by decide
  have found := indices 37 answer covers located
  simp only [element_eq, place_eq] at found
  obtain ⟨leaf, isArray, first, rest, rebase, rfl, first_ge, first_iff, folded⟩ := found
  obtain ⟨beyond_iff, lastBeyond⟩ := bounds answers fits
  obtain ⟨last, last_eq, -, beyond⟩ := lastBeyond padded
  exact ⟨rfl, rfl, by decide, sized, covers,
    ⟨leaf, isArray, first, rest, rebase, located, first_ge, first_iff, folded⟩, answers, fits,
    padded, beyond_iff.mpr padded, last, last_eq, beyond⟩

end ShaderInterface
