import ShaderInterface.Named

/-!
# Precision

The precision with which a texture or sampler is read.
-/

namespace ShaderInterface

/-- A requested precision. -/
inductive Precision where
  | unknown
  | low
  | medium
  | high
deriving DecidableEq, Repr

instance : Named Precision where
  values := [.unknown, .low, .medium, .high]
  name
    | .unknown => "Unknown"
    | .low => "Low"
    | .medium => "Medium"
    | .high => "High"

/-- The qualifier that shader source writes for a precision. -/
def Precision.qualifier? : Precision → Option String
  | .unknown => none
  | .low => some "lowp"
  | .medium => some "mediump"
  | .high => some "highp"

end ShaderInterface
