/-!
# Named values

Finite types whose values have a name of their own in inputs and reports.
-/

namespace ShaderInterface

/-- A finite type whose values are known by name. -/
class Named (Value : Type) where
  /-- Every value, in the order of the declarations. -/
  values : List Value
  /-- The name of a value. -/
  name : Value → String

/-- The value with a name. -/
def Named.ofName? {Value : Type} [Named Value] (name : String) : Option Value :=
  Named.values.find? (Named.name · = name)

end ShaderInterface
