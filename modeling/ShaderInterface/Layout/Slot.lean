import ShaderInterface.Layout.Word

/-!
# Constant slots

A constant buffer is read in slots of four 32-bit lanes. Array elements start on slot boundaries,
so their size is rounded up to whole slots.
-/

namespace ShaderInterface

/-- Bytes of one constant slot. -/
def slotBytes : Nat := 16

/-- Number of slots that hold `size` bytes. -/
def slotCount (size : Nat) : Nat := (size + (slotBytes - 1)) / slotBytes

/-- Bytes of the whole slots that hold `size` bytes, if a word can count them. -/
def roundToSlot (size : Nat) : Except ArithmeticError Nat :=
  Word.multiply (slotCount size) slotBytes

theorem le_slotCount_mul (size : Nat) : size ≤ slotCount size * slotBytes := by
  unfold slotCount slotBytes
  omega

theorem roundToSlot_eq_ok_iff {size stride : Nat} :
    roundToSlot size = .ok stride ↔
      size ≤ Word.last + 1 - slotBytes ∧ slotCount size * slotBytes = stride := by
  unfold roundToSlot
  rw [Word.multiply_eq_ok_iff]
  unfold slotCount slotBytes Word.last
  omega

/-- The four lanes that an operand selects; lanes 0 to 3 are `x`, `y`, `z`, `w`. -/
structure Swizzle where
  /-- Lane read by the first component. -/
  first : UInt8
  /-- Lane read by the second component. -/
  second : UInt8
  /-- Lane read by the third component. -/
  third : UInt8
  /-- Lane read by the fourth component. -/
  fourth : UInt8
deriving DecidableEq, Repr

namespace Swizzle

/-- The swizzle that reads one lane four times. -/
def splat (lane : UInt8) : Swizzle := ⟨lane, lane, lane, lane⟩

/-- The swizzle that keeps all lanes in place. -/
def identity : Swizzle := ⟨0, 1, 2, 3⟩

/-- Byte offset in a slot of the first selected lane; a lane beyond `w` counts as `x`. -/
def firstByte (swizzle : Swizzle) : UInt32 :=
  match swizzle.first with
  | 1 => 4
  | 2 => 8
  | 3 => 12
  | _ => 0

/-- The swizzle of a name made of lane letters, for the names that operands are written with. -/
def ofName? : String → Option Swizzle
  | "xyzw" => some identity
  | "xxxx" => some (splat 0)
  | "yyyy" => some (splat 1)
  | "zzzz" => some (splat 2)
  | "wwww" => some (splat 3)
  | _ => none

/-- Byte that `swizzle` selects first in slot number `slot`, unless the slot lies beyond the last
byte offset that a word can hold. -/
def byteOffset? (slot : UInt32) (swizzle : Swizzle) : Option UInt32 :=
  if slot.toNat < 0x10000000 then some (16 * slot + swizzle.firstByte) else none

theorem firstByte_le (swizzle : Swizzle) : swizzle.firstByte.toNat ≤ 12 := by
  unfold firstByte
  split <;> decide

theorem toNat_of_byteOffset? {slot offset : UInt32} {swizzle : Swizzle}
    (selected : byteOffset? slot swizzle = some offset) :
    offset.toNat = 16 * slot.toNat + swizzle.firstByte.toNat := by
  unfold byteOffset? at selected
  split at selected
  · obtain rfl := Option.some.inj selected
    have := swizzle.firstByte_le
    simp only [UInt32.toNat_add, UInt32.toNat_mul, UInt32.reduceToNat]
    omega
  · contradiction

theorem lt_last_of_byteOffset? {slot offset : UInt32} {swizzle : Swizzle}
    (selected : byteOffset? slot swizzle = some offset) : offset.toNat < Word.last := by
  have offset_eq := toNat_of_byteOffset? selected
  have lane_le := swizzle.firstByte_le
  unfold byteOffset? at selected
  split at selected
  · unfold Word.last
    omega
  · contradiction

theorem byteOffset?_of_lt {slot : UInt32} (inside : slot.toNat < 0x10000000)
    (swizzle : Swizzle) : byteOffset? slot swizzle = some (16 * slot + swizzle.firstByte) :=
  if_pos inside

theorem byteOffset?_eq_none_iff {slot : UInt32} {swizzle : Swizzle} :
    byteOffset? slot swizzle = none ↔ 0x10000000 ≤ slot.toNat := by
  simp [byteOffset?]

end Swizzle
end ShaderInterface
