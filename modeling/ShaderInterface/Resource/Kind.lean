import ShaderInterface.Named

/-!
# Resource kinds

What a shader can bind, and the register groups that the bindings live in.
-/

namespace ShaderInterface

/-- The kinds of bound resources. -/
inductive ResourceKind where
  | cbuffer
  | tbuffer
  | texture
  | sampler
  | uavRwTyped
  | structured
  | uavRwStructured
  | byteAddress
  | uavRwByteAddress
  | uavAppendStructured
  | uavConsumeStructured
  | uavRwStructuredWithCounter
deriving DecidableEq, Repr

instance : Named ResourceKind where
  values :=
    [.cbuffer, .tbuffer, .texture, .sampler, .uavRwTyped, .structured, .uavRwStructured,
      .byteAddress, .uavRwByteAddress, .uavAppendStructured, .uavConsumeStructured,
      .uavRwStructuredWithCounter]
  name
    | .cbuffer => "CBuffer"
    | .tbuffer => "TBuffer"
    | .texture => "Texture"
    | .sampler => "Sampler"
    | .uavRwTyped => "UavRwTyped"
    | .structured => "Structured"
    | .uavRwStructured => "UavRwStructured"
    | .byteAddress => "ByteAddress"
    | .uavRwByteAddress => "UavRwByteAddress"
    | .uavAppendStructured => "UavAppendStructured"
    | .uavConsumeStructured => "UavConsumeStructured"
    | .uavRwStructuredWithCounter => "UavRwStructuredWithCounter"

/-- The register groups: `b`, `s`, `t` and `u` registers. -/
inductive ResourceGroup where
  | cbuffer
  | sampler
  | texture
  | uav
deriving DecidableEq, Repr

instance : Named ResourceGroup where
  values := [.cbuffer, .sampler, .texture, .uav]
  name
    | .cbuffer => "CBuffer"
    | .sampler => "Sampler"
    | .texture => "Texture"
    | .uav => "Uav"

namespace ResourceKind

/-- The kind with a number in a bytecode container. -/
def ofCode? (code : UInt32) : Option ResourceKind :=
  (Named.values : List ResourceKind)[code.toNat]?

/-- The register group of a kind; texture buffers belong to none. -/
def group? : ResourceKind → Option ResourceGroup
  | cbuffer => some .cbuffer
  | tbuffer => none
  | sampler => some .sampler
  | texture | byteAddress | structured => some .texture
  | uavRwTyped | uavRwStructured | uavRwByteAddress | uavAppendStructured
  | uavConsumeStructured | uavRwStructuredWithCounter => some .uav

/-- Precision hints apply to resources of this kind. -/
def takesPrecision : ResourceKind → Bool
  | sampler | texture => true
  | _ => false

theorem group?_eq_none_iff {kind : ResourceKind} : kind.group? = none ↔ kind = tbuffer := by
  cases kind <;> simp [group?]

end ResourceKind

/-- What a read from a typed resource returns. -/
inductive ReturnType where
  | unorm
  | snorm
  | sint
  | uint
  | float
  | mixed
  | double
  | continued
deriving DecidableEq, Repr

instance : Named ReturnType where
  values := [.unorm, .snorm, .sint, .uint, .float, .mixed, .double, .continued]
  name
    | .unorm => "Unorm"
    | .snorm => "Snorm"
    | .sint => "Sint"
    | .uint => "Uint"
    | .float => "Float"
    | .mixed => "Mixed"
    | .double => "Double"
    | .continued => "Continued"

/-- The return type with a number in a bytecode container; the numbers start at 1. -/
def ReturnType.ofCode? (code : UInt32) : Option ReturnType :=
  if code = 0 then none else (Named.values : List ReturnType)[code.toNat - 1]?

end ShaderInterface
