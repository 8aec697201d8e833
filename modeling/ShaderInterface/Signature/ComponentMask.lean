import ShaderInterface.FlagText

/-!
# Component masks

Which components of a register are declared or accessed. The lowest four bits stand for the
components; other bits are kept and take part in the set operations, except where noted.
-/

namespace ShaderInterface

/-- A set of register components. -/
structure ComponentMask where
  /-- Bits 0 to 3 are the components `x`, `y`, `z`, `w`. -/
  bits : UInt8
deriving DecidableEq, Repr

namespace ComponentMask

/-- The four components. -/
def known : ComponentMask := ⟨0b1111⟩

/-- No bit is set. -/
def isEmpty (mask : ComponentMask) : Bool := mask.bits = 0

/-- The bits of both masks together. -/
def union (left right : ComponentMask) : ComponentMask := ⟨left.bits ||| right.bits⟩

/-- The bits that both masks share. -/
def intersection (left right : ComponentMask) : ComponentMask := ⟨left.bits &&& right.bits⟩

/-- The bits of `left` that `right` lacks. -/
def difference (left right : ComponentMask) : ComponentMask := ⟨left.bits &&& ~~~right.bits⟩

/-- The bits of exactly one of the masks. -/
def symmetricDifference (left right : ComponentMask) : ComponentMask :=
  ⟨left.bits ^^^ right.bits⟩

/-- The mask restricted to the four components. -/
def truncated (mask : ComponentMask) : ComponentMask := mask.intersection known

/-- The components that are not in the mask. -/
def complement (mask : ComponentMask) : ComponentMask := known.difference mask

/-- Every bit of `part` is in the mask. -/
def contains (mask part : ComponentMask) : Bool := mask.intersection part = part

/-- The masks share a bit. -/
def intersects (left right : ComponentMask) : Bool := !(left.intersection right).isEmpty

/-- All four components are in the mask. -/
def isAll (mask : ComponentMask) : Bool := mask.contains known

/-- The mask with the given bits, if they all stand for components. -/
def ofBits? (bits : UInt8) : Option ComponentMask :=
  if known.contains ⟨bits⟩ then some ⟨bits⟩ else none

/-- The text of a mask. -/
def text (mask : ComponentMask) : String :=
  flagText "ComponentMask" ["X", "Y", "Z", "W"] mask.bits.toNat

end ComponentMask
end ShaderInterface
