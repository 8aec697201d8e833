import Mathlib.Tactic.ByContra
import ShaderInterface.Layout.Size

/-!
# Measured types

A search can enter a type only if the size of its elements and the distance between them can be
computed. Such a type is measured, and then its whole size can be computed as well.
-/

namespace ShaderInterface

theorem ok_bind {Failure First Value : Type} (first : First)
    (next : First → Except Failure Value) : (Except.ok first >>= next) = next first := rfl

/-- A computation in two parts succeeds if both parts do. -/
theorem bind_eq_ok_iff {Failure First Value : Type} {first : Except Failure First}
    {next : First → Except Failure Value} {value : Value} :
    first >>= next = .ok value ↔ ∃ middle, first = .ok middle ∧ next middle = .ok value := by
  cases first with
  | error failure => exact ⟨nofun, nofun⟩
  | ok middle => exact ⟨fun second => ⟨middle, rfl, second⟩, fun ⟨_, rfl, second⟩ => second⟩

theorem map_eq_ok_iff {Failure First Value : Type} {first : Except Failure First}
    {convert : First → Value} {value : Value} :
    first.map convert = .ok value ↔ ∃ middle, first = .ok middle ∧ convert middle = value := by
  cases first with
  | error failure => exact ⟨nofun, nofun⟩
  | ok middle =>
      exact ⟨fun same => ⟨middle, rfl, Except.ok.inj same⟩,
        fun ⟨_, rfl, same⟩ => congrArg Except.ok same⟩

theorem map_eq_error_iff {Failure First Value : Type} {first : Except Failure First}
    {convert : First → Value} {failure : Failure} :
    first.map convert = .error failure ↔ first = .error failure := by
  cases first <;> simp [Except.map]

theorem map_bind_eq {Failure First Middle Value : Type} (first : Except Failure First)
    (next : First → Except Failure Middle) (convert : Middle → Value) :
    (first >>= next).map convert = first >>= fun middle => (next middle).map convert := by
  cases first <;> rfl

instance decidableExistsOk {Failure Value : Type} {holds : Value → Prop} [DecidablePred holds]
    (computed : Except Failure Value) :
    Decidable (∃ value, computed = .ok value ∧ holds value) :=
  match computed with
  | .ok value => decidable_of_iff (holds value)
      ⟨fun held => ⟨value, rfl, held⟩, fun ⟨_, same, held⟩ => Except.ok.inj same ▸ held⟩
  | .error _ => isFalse nofun

instance decidableForallOk {Failure Value : Type} {holds : Value → Prop} [DecidablePred holds]
    (computed : Except Failure Value) :
    Decidable (∀ value, computed = .ok value → holds value) :=
  match computed with
  | .ok value => decidable_of_iff (holds value)
      ⟨fun held _ same => Except.ok.inj same ▸ held, fun held => held value rfl⟩
  | .error _ => isTrue nofun

/-- Distance between the starts of array elements of `size` bytes. -/
def strideOf (size : Nat) : Nat := slotCount size * slotBytes

theorem slotBytes_dvd_strideOf (size : Nat) : slotBytes ∣ strideOf size :=
  Nat.dvd_mul_left _ _

theorem strideOf_of_dvd {size : Nat} (aligned : slotBytes ∣ size) : strideOf size = size := by
  obtain ⟨slots, rfl⟩ := aligned
  unfold strideOf slotCount slotBytes
  omega

theorem strideOf_of_le {size : Nat} (size_pos : 1 ≤ size) (narrow : size ≤ slotBytes) :
    strideOf size = slotBytes := by
  unfold slotBytes at narrow
  unfold strideOf slotCount slotBytes
  omega

theorem slotCount_pos {size : Nat} (size_pos : 0 < size) : 0 < slotCount size := by
  unfold slotCount slotBytes
  omega

/-- A size that can be rounded is below the largest word. -/
theorem lt_last_of_roundToSlot {size stride : Nat} (rounded : roundToSlot size = .ok stride) :
    size < Word.last := by
  have fits := (roundToSlot_eq_ok_iff.mp rounded).1
  rw [slotBytes, Word.last] at fits
  rw [Word.last]
  omega

/-- Byte `target` is one of the `extent` bytes from `start` on. -/
def Covers (start extent target : Nat) : Prop := start ≤ target ∧ target - start < extent

instance (start extent target : Nat) : Decidable (Covers start extent target) :=
  inferInstanceAs (Decidable (_ ∧ _))

theorem covers_iff {start extent target : Nat} :
    Covers start extent target ↔ start ≤ target ∧ target < start + extent := by
  unfold Covers
  omega

/-- No byte is covered both before and after an end. -/
theorem not_covers_of_end_le {first second whole extent : Nat} (end_le : first + whole ≤ second)
    (byte : Nat) : ¬ (Covers first whole byte ∧ Covers second extent byte) := by
  unfold Covers
  omega

theorem Covers.extent_pos {start extent target : Nat} (covers : Covers start extent target) :
    0 < extent :=
  Nat.zero_lt_of_lt covers.2

namespace Shape

theorem isArray_iff {shape : Shape} : shape.isArray = true ↔ 1 < shape.elements.toNat := by
  simp [isArray, UInt32.lt_iff_toNat_lt]

theorem elements_le_one {shape : Shape} (single : shape.isArray = false) :
    shape.elements.toNat ≤ 1 := by
  by_contra many
  rw [isArray_iff.mpr (Nat.lt_of_not_le many)] at single
  contradiction

/-- The extent of an array is its exact extent, cut off at the largest word. -/
theorem arrayExtent_eq_min (size stride : Nat) (shape : Shape) :
    shape.arrayExtent size stride =
      min (stride * (shape.elements.toNat - 1) + size) Word.last := by
  rw [arrayExtent, Word.saturatingAdd, Word.saturatingMultiply]
  omega

theorem arrayExtent_single {size stride : Nat} {shape : Shape} (single : shape.isArray = false)
    (fits : size ≤ Word.last) : shape.arrayExtent size stride = size := by
  have elements : shape.elements.toNat - 1 = 0 := by
    have := elements_le_one single
    omega
  rw [arrayExtent_eq_min, elements, Nat.mul_zero, Nat.zero_add, Nat.min_eq_left fits]

theorem arrayExtent_zero (shape : Shape) : shape.arrayExtent 0 0 = 0 := by
  rw [arrayExtent_eq_min, Nat.zero_mul, Nat.zero_add, Nat.zero_min]

theorem size_le_arrayExtent {size stride : Nat} {shape : Shape} (fits : size ≤ Word.last) :
    size ≤ shape.arrayExtent size stride := by
  rw [arrayExtent_eq_min]
  omega

end Shape

namespace LayoutTree

variable {Label : Type} {matricesAsVectors : Bool} {tree : LayoutTree Label}

/-- An element of the type takes `size` bytes, and elements start `stride` bytes apart. -/
structure Measured (matricesAsVectors : Bool) (tree : LayoutTree Label) (size stride : Nat) :
    Prop where
  /-- The size of an element. -/
  size_eq : tree.elementSize matricesAsVectors = .ok size
  /-- The size of the slots that an element fills. -/
  stride_eq : roundToSlot size = .ok stride

namespace Measured

variable {size stride : Nat}

theorem stride_eq_strideOf (measured : Measured matricesAsVectors tree size stride) :
    stride = strideOf size :=
  (roundToSlot_eq_ok_iff.mp measured.stride_eq).2.symm

theorem size_lt_last (measured : Measured matricesAsVectors tree size stride) :
    size < Word.last :=
  lt_last_of_roundToSlot measured.stride_eq

theorem size_le_stride (measured : Measured matricesAsVectors tree size stride) :
    size ≤ stride := by
  rw [measured.stride_eq_strideOf]
  exact le_slotCount_mul size

/-- A type of which some byte is covered has elements of at least one byte. -/
theorem size_pos {start target : Nat} (measured : Measured matricesAsVectors tree size stride)
    (covers : Covers start (tree.shape.arrayExtent size stride) target) : 0 < size := by
  by_contra empty
  obtain rfl : size = 0 := by omega
  have stride_zero : stride = 0 := by
    rw [measured.stride_eq_strideOf]
    rfl
  have nothing := covers.extent_pos
  rw [stride_zero, Shape.arrayExtent_zero] at nothing
  exact Nat.lt_irrefl 0 nothing

/-- A measured type has a whole size, which is the extent that a search looks for bytes in. -/
theorem wholeSize_eq (measured : Measured matricesAsVectors tree size stride) :
    tree.wholeSize matricesAsVectors = .ok (tree.shape.arrayExtent size stride) := by
  rw [wholeSize, measured.size_eq]
  change tree.shape.arrayBytes size = _
  rw [Shape.arrayBytes]
  cases array : tree.shape.isArray with
  | true =>
      rw [if_pos rfl, measured.stride_eq]
      rfl
  | false =>
      have uncut := Nat.le_of_lt measured.size_lt_last
      rw [if_neg Bool.false_ne_true, Shape.arrayExtent_single array uncut]
      rfl

theorem whole_eq {whole : Nat} (measured : Measured matricesAsVectors tree size stride)
    (computed : tree.wholeSize matricesAsVectors = .ok whole) :
    whole = tree.shape.arrayExtent size stride :=
  Except.ok.inj (computed.symm.trans measured.wholeSize_eq)

end Measured

/-- An array whose whole size is known is measured. -/
theorem measured_of_wholeSize {size whole : Nat} (array : tree.shape.isArray)
    (sized : tree.elementSize matricesAsVectors = .ok size)
    (computed : tree.wholeSize matricesAsVectors = .ok whole) :
    Measured matricesAsVectors tree size (strideOf size) := by
  rw [wholeSize, sized, ok_bind, Shape.arrayBytes, if_pos array] at computed
  obtain ⟨stride, rounded, -⟩ := bind_eq_ok_iff.mp computed
  obtain ⟨-, rfl⟩ := roundToSlot_eq_ok_iff.mp rounded
  exact ⟨sized, rounded⟩

theorem exists_measured_iff :
    (∃ size stride, Measured matricesAsVectors tree size stride) ↔
      ∃ size, tree.elementSize matricesAsVectors = .ok size ∧
        size ≤ Word.last + 1 - slotBytes := by
  constructor
  · rintro ⟨size, stride, sized, rounded⟩
    exact ⟨size, sized, (roundToSlot_eq_ok_iff.mp rounded).1⟩
  · rintro ⟨size, sized, fits⟩
    exact ⟨size, _, sized, roundToSlot_eq_ok_iff.mpr ⟨fits, rfl⟩⟩

instance : Decidable (∃ size stride, Measured matricesAsVectors tree size stride) :=
  decidable_of_iff' _ exists_measured_iff

theorem elementSize_eq (matricesAsVectors : Bool) (tree : LayoutTree Label) :
    tree.elementSize matricesAsVectors = (do
      let packed ← tree.shape.componentBytes
      if tree.shape.variableClass = .struct then
        structSize matricesAsVectors tree.members
      else
        tree.shape.leafBytes matricesAsVectors packed) := by
  cases tree
  rw [elementSize]
  rfl

/-- The elements of a struct end where its members end. -/
theorem structSize_of_elementSize {size : Nat} (struct : tree.shape.variableClass = .struct)
    (sized : tree.elementSize matricesAsVectors = .ok size) :
    structSize matricesAsVectors tree.members = .ok size := by
  rw [elementSize_eq] at sized
  obtain ⟨packed, -, chosen⟩ := bind_eq_ok_iff.mp sized
  rwa [if_pos struct] at chosen

/-- The elements of a struct end with the last element of its last member. -/
theorem structSize_concat (matricesAsVectors : Bool) (front : List (LayoutTree Label))
    (last : LayoutTree Label) :
    structSize matricesAsVectors (front ++ [last]) =
      (last.wholeSize matricesAsVectors).map (Word.saturatingAdd last.shape.offset.toNat) := by
  rw [structSize_eq, List.getLast?_concat]
  change (do return Word.saturatingAdd _ (← last.wholeSize matricesAsVectors)) = _
  cases last.wholeSize matricesAsVectors <;> rfl

end LayoutTree
end ShaderInterface
