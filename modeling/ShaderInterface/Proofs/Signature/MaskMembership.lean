import ShaderInterface.Signature.ComponentMask

/-!
# Masks as sets of bits

The operations and tests on component masks in terms of the bits that are set, those without a name
included, and the masks of a single bit that a mask is made of.
-/

namespace ShaderInterface
namespace ComponentMask

/-- The bits of a mask. -/
instance : Membership Nat ComponentMask := ⟨fun mask bit => mask.bits.toNat.testBit bit⟩

variable {bit : Nat} {mask part left right : ComponentMask}

theorem mem_iff : bit ∈ mask ↔ mask.bits.toNat.testBit bit := Iff.rfl

instance : Decidable (bit ∈ mask) := decidable_of_iff _ mem_iff.symm

@[simp] theorem mem_union : bit ∈ left.union right ↔ bit ∈ left ∨ bit ∈ right := by
  simp [mem_iff, union]

@[simp] theorem mem_intersection : bit ∈ left.intersection right ↔ bit ∈ left ∧ bit ∈ right := by
  simp [mem_iff, intersection]

theorem lt_eight_of_mem (isBit : bit ∈ mask) : bit < 8 := by
  rw [mem_iff] at isBit
  refine Nat.lt_of_not_le fun beyond => ?_
  have small : mask.bits.toNat < 2 ^ bit :=
    Nat.lt_of_lt_of_le mask.bits.toNat_lt (Nat.pow_le_pow_right (by decide) beyond)
  rw [Nat.testBit_lt_two_pow small] at isBit
  exact Bool.false_ne_true isBit

/-- A mask is known by its bits. -/
theorem ext (same : ∀ bit, bit ∈ left ↔ bit ∈ right) : left = right := by
  have bits : left.bits.toNat = right.bits.toNat :=
    Nat.eq_of_testBit_eq fun bit => Bool.eq_iff_iff.mpr (same bit)
  cases left
  cases right
  exact congrArg mk (UInt8.toNat_inj.mp bits)

theorem isEmpty_iff : mask.isEmpty ↔ ∀ bit, bit ∉ mask := by
  have nothing : ∀ bit, bit ∉ (⟨0⟩ : ComponentMask) := by simp [mem_iff]
  rw [isEmpty, decide_eq_true_iff]
  constructor
  · rintro zero bit
    obtain ⟨bits⟩ := mask
    obtain rfl : bits = 0 := zero
    exact nothing bit
  · intro none
    have same : mask = ⟨0⟩ := ext fun bit => iff_of_false (none bit) (nothing bit)
    exact congrArg bits same

theorem contains_iff : mask.contains part ↔ ∀ bit ∈ part, bit ∈ mask := by
  rw [contains, decide_eq_true_iff]
  constructor
  · intro same bit isBit
    rw [← same, mem_intersection] at isBit
    exact isBit.1
  · intro included
    refine ext fun bit => ?_
    rw [mem_intersection]
    exact and_iff_right_of_imp (included bit)

theorem intersects_iff : left.intersects right ↔ ∃ bit, bit ∈ left ∧ bit ∈ right := by
  rw [intersects, Bool.not_eq_true', ← Bool.not_eq_true, isEmpty_iff]
  simp

theorem contains_union :
    mask.contains (left.union right) ↔ mask.contains left ∧ mask.contains right := by
  simp only [contains_iff, mem_union, or_imp, forall_and]

theorem intersects_union :
    mask.intersects (left.union right) ↔ mask.intersects left ∨ mask.intersects right := by
  simp only [intersects_iff, mem_union, and_or_left, exists_or]

theorem isEmpty_union : (left.union right).isEmpty ↔ left.isEmpty ∧ right.isEmpty := by
  simp only [isEmpty_iff, mem_union, not_or, forall_and]

/-- A mask shares bits with each of its parts that is not empty. -/
theorem intersects_of_contains (included : mask.contains part) (some_bit : ¬part.isEmpty) :
    mask.intersects part := by
  rw [isEmpty_iff, Classical.not_forall] at some_bit
  obtain ⟨bit, isBit⟩ := some_bit
  have isBit := Classical.not_not.mp isBit
  exact intersects_iff.mpr ⟨bit, contains_iff.mp included bit isBit, isBit⟩

theorem contains_of_isEmpty (empty : part.isEmpty) (mask : ComponentMask) : mask.contains part :=
  contains_iff.mpr fun bit isBit => absurd isBit (isEmpty_iff.mp empty bit)

/-- The masks of a single bit. -/
def singles : List ComponentMask :=
  [⟨1⟩, ⟨2⟩, ⟨4⟩, ⟨8⟩, ⟨16⟩, ⟨32⟩, ⟨64⟩, ⟨128⟩]

/-- The single bits that a mask is made of. -/
def components (mask : ComponentMask) : List ComponentMask := singles.filter mask.contains

theorem not_isEmpty_of_mem_components {component : ComponentMask}
    (isComponent : component ∈ mask.components) : ¬component.isEmpty := by
  have some_bit : ∀ single ∈ singles, ¬single.isEmpty := by decide
  exact some_bit component (List.mem_filter.mp isComponent).1

theorem exists_single (bit_lt : bit < 8) :
    ∃ single ∈ singles, ∀ other, other ∈ single ↔ other = bit := by
  have known : ∀ bit < 8, ∃ single ∈ singles, ∀ other < 8, other ∈ single ↔ other = bit := by
    decide
  obtain ⟨single, isSingle, same⟩ := known bit bit_lt
  refine ⟨single, isSingle, fun other => ?_⟩
  by_cases other_lt : other < 8
  · exact same other other_lt
  · exact iff_of_false (mt lt_eight_of_mem other_lt) (by omega)

/-- What shares bits with a mask shares one of its single bits. -/
theorem intersects_iff_components :
    mask.intersects part ↔ ∃ component ∈ part.components, mask.intersects component := by
  constructor
  · intro shared
    obtain ⟨bit, inMask, inPart⟩ := intersects_iff.mp shared
    obtain ⟨single, isSingle, same⟩ := exists_single (lt_eight_of_mem inPart)
    have included : part.contains single :=
      contains_iff.mpr fun other isOther => (same other).mp isOther ▸ inPart
    exact ⟨single, List.mem_filter.mpr ⟨isSingle, included⟩,
      intersects_iff.mpr ⟨bit, inMask, (same bit).mpr rfl⟩⟩
  · rintro ⟨component, isComponent, shared⟩
    obtain ⟨bit, inMask, inComponent⟩ := intersects_iff.mp shared
    have included := contains_iff.mp (List.mem_filter.mp isComponent).2
    exact intersects_iff.mpr ⟨bit, inMask, included bit inComponent⟩

end ComponentMask
end ShaderInterface
