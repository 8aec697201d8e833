import ShaderInterface.FlagText

/-!
# Layout flags

Choices of the emitted code that change where the bytes of a constant buffer lie.
-/

namespace ShaderInterface

/-- A set of layout choices; bits without a meaning are kept. -/
structure LayoutFlags where
  /-- Bit 0 asks for matrices as arrays of vectors. -/
  bits : UInt32
deriving DecidableEq, Repr

namespace LayoutFlags

/-- Matrices are emitted as arrays of row or column vectors. -/
def matricesAsVectors (flags : LayoutFlags) : Bool := flags.bits &&& 1 = 1

/-- The flags that have a meaning. -/
def truncated (flags : LayoutFlags) : LayoutFlags := ⟨flags.bits &&& 1⟩

/-- The flags with the given bits, if they all have a meaning. -/
def ofBits? (bits : UInt32) : Option LayoutFlags :=
  if bits &&& 1 = bits then some ⟨bits⟩ else none

/-- The text of a set of flags. -/
def text (flags : LayoutFlags) : String :=
  flagText "TranslateFlags" ["TRANSLATE_MATRICES"] flags.bits.toNat

end LayoutFlags
end ShaderInterface
