import ShaderInterface.QueryError
import ShaderInterface.Resource.Precision
import ShaderInterface.ScalarType

/-!
# Bindings

A binding gives a resource a run of consecutive registers.
-/

namespace ShaderInterface

/-- The register group of a kind, or the failure that it has none. -/
def ResourceKind.group (kind : ResourceKind) : Except QueryError ResourceGroup :=
  match kind.group? with
  | some group => .ok group
  | none => .error (.unsupportedResourceKind kind)

/-- The component type that reads with a return type have. -/
def ReturnType.dataType : ReturnType → ScalarType
  | .sint => .int
  | .uint => .uint
  | .double => .double
  | _ => .float

/-- A bound resource. -/
structure Binding where
  /-- Declared name. -/
  name : String
  /-- What is bound. -/
  kind : ResourceKind
  /-- First register. -/
  bindPoint : UInt32
  /-- Number of registers. -/
  bindCount : UInt32
  /-- What reads return. -/
  returnType : ReturnType
  /-- Requested precision. -/
  precision : Precision
deriving DecidableEq, Repr

namespace Binding

/-- The register is one of the binding's; the run may reach past the last word. -/
def covers (register : UInt32) (binding : Binding) : Bool :=
  binding.bindPoint ≤ register
    && register.toNat < binding.bindPoint.toNat + binding.bindCount.toNat

/-- The component type of reads from the resource. -/
def dataType (binding : Binding) : ScalarType := binding.returnType.dataType

/-- The binding serves a register of a group. -/
def serves (group : ResourceGroup) (register : UInt32) (binding : Binding) : Bool :=
  binding.kind.group? = some group && binding.covers register

theorem covers_iff {register : UInt32} {binding : Binding} :
    binding.covers register ↔
      binding.bindPoint.toNat ≤ register.toNat
        ∧ register.toNat < binding.bindPoint.toNat + binding.bindCount.toNat := by
  simp [covers, UInt32.le_iff_toNat_le]

end Binding
end ShaderInterface
