import ShaderInterface.Named

/-!
# Scalar types

The component types that shader source can name.
-/

namespace ShaderInterface

/-- The type of one component. -/
inductive ScalarType where
  | bool
  | int
  | uint
  | float
  | double
deriving DecidableEq, Repr

instance : Named ScalarType where
  values := [.bool, .int, .uint, .float, .double]
  name
    | .bool => "Bool"
    | .int => "Int"
    | .uint => "Uint"
    | .float => "Float"
    | .double => "Double"

end ShaderInterface
