import ShaderInterface.Declared
import ShaderInterface.Resource.Binding
import ShaderInterface.Resource.PrecisionHints

/-!
# Binding tables

The bindings of a shader in declaration order, and which of them serves a register.
-/

namespace ShaderInterface

/-- The bindings of a shader, all of kinds that belong to a register group. -/
structure BindingTable where
  /-- The bindings in declaration order. -/
  bindings : List Binding
deriving DecidableEq, Repr

namespace BindingTable

/-- The table of a list of bindings; fails with the first one that belongs to no group. -/
def ofList (bindings : List Binding) : Except QueryError BindingTable :=
  match bindings.find? (·.kind.group?.isNone) with
  | some ungrouped => .error (.unsupportedResourceKind ungrouped.kind)
  | none => .ok ⟨bindings⟩

/-- The first binding of a group that covers a register. -/
def find? (group : ResourceGroup) (register : UInt32) (table : BindingTable) :
    Option (Declared Binding) :=
  Declared.first? (·.serves group register) table.bindings

/-- The component type of the texture at a register that is known to be read. -/
def textureDataType (register : UInt32) (table : BindingTable) :
    Except QueryError ScalarType :=
  match table.find? .texture register with
  | some texture => .ok texture.entry.dataType
  | none => .error (.missingTextureBinding register)

/-- The binding with the precision that the hints give it. -/
def annotateBinding (hints : PrecisionHints) (binding : Binding) : Logged Binding := do
  if binding.kind.takesPrecision then
    match ← hints.lookup binding.name with
    | none => return binding
    | some precision =>
        Logged.report [.hintApplied binding.name precision]
        return { binding with precision }
  else
    return binding

/-- The table after the hints are applied to every texture and sampler. -/
def annotate (hints : PrecisionHints) (table : BindingTable) : Logged BindingTable := do
  if hints.isEmpty then
    return table
  else
    return ⟨← table.bindings.mapM (annotateBinding hints)⟩

end BindingTable
end ShaderInterface
