import ShaderInterface.Buffer.Resolution
import ShaderInterface.Resource.BindingTable
import ShaderInterface.Signature.Signatures

/-!
# Shaders

The declared interface of one shader: its bindings, signatures and constant buffers. After it is
built only the precisions of its bindings and its `this` buffer change.
-/

namespace ShaderInterface

/-- Version of the instruction set that a shader is written for. -/
structure ShaderModel where
  /-- Major version. -/
  major : UInt32
  /-- Minor version. -/
  minor : UInt32
deriving DecidableEq, Repr

namespace ShaderModel

/-- Shaders of this model declare their constant buffers one by one. -/
def hasConstantBuffers (model : ShaderModel) : Bool := 3 < model.major

/-- The text of a version. -/
def text (model : ShaderModel) : String := model.major.toNat.repr ++ "_" ++ model.minor.toNat.repr

/-- Versions are ordered by their major version, then by their minor version. -/
def order (left right : ShaderModel) : Ordering :=
  (compare left.major right.major).then (compare left.minor right.minor)

end ShaderModel

/-- Which constant buffer is bound where. -/
abbrev SlotTable := Std.HashMap UInt32 Nat

namespace SlotTable

/-- The table with a buffer entered; a buffer that takes over a register is reported. -/
def enter (slots : SlotTable) (buffer : Declared ConstantBuffer) : Logged SlotTable := do
  if slots.contains buffer.entry.bindPoint then
    Logged.report [.bufferRedeclared buffer.entry.bindPoint buffer.entry.name]
  return slots.insert buffer.entry.bindPoint buffer.position

/-- The table of a list of buffers, entered in declaration order. -/
def ofBuffers (buffers : List ConstantBuffer) : Logged SlotTable :=
  (Declared.all buffers).foldlM enter ∅

end SlotTable

/-- The declared interface of a shader. -/
structure Shader where
  /-- Version of the shader. -/
  model : ShaderModel
  /-- The bound resources. -/
  bindings : BindingTable
  /-- The inputs, outputs and patch constants. -/
  signatures : Signatures
  /-- The constant buffers in declaration order. -/
  buffers : List ConstantBuffer
  /-- Position in `buffers` of the buffer bound at each register. -/
  slots : SlotTable
  /-- The buffer behind the `this` pointers of class instances. -/
  thisBuffer : Option ConstantBuffer

namespace Shader

/-- The interface made of the given declarations. -/
def build (model : ShaderModel) (bindings : List Binding) (signatures : Signatures)
    (buffers : List ConstantBuffer) : Except QueryError (Logged Shader) := do
  let table ← BindingTable.ofList bindings
  return do
    let slots ← SlotTable.ofBuffers buffers
    return ⟨model, table, signatures, buffers, slots, none⟩

/-- The shader with another `this` buffer. -/
def withThisBuffer (buffer : ConstantBuffer) (shader : Shader) : Shader :=
  { shader with thisBuffer := some buffer }

/-- The constant buffer bound at a register. -/
def constantBufferAt (bindPoint : UInt32) (shader : Shader) :
    Except QueryError (Declared ConstantBuffer) :=
  if shader.model.hasConstantBuffers then
    match shader.slots[bindPoint]?.bind (Declared.at? shader.buffers) with
    | some buffer => .ok buffer
    | none => .error (.missingConstantBuffer bindPoint)
  else
    .error (.constantBuffersUnavailable shader.model.major shader.model.minor)

/-- What an access to a slot of the constant buffer at a register reads. -/
def resolveConstant (bindPoint slot : UInt32) (swizzle : Swizzle) (flags : LayoutFlags)
    (shader : Shader) : Except QueryError (LayoutQuery (Option Resolution)) := do
  let buffer ← shader.constantBufferAt bindPoint
  return buffer.entry.resolve slot swizzle flags

/-- The variable of the `this` buffer whose declared range contains a byte. -/
def interfaceVariableAt? (offset : UInt32) (shader : Shader) : Option (Declared BufferVariable) :=
  shader.thisBuffer.bind (·.variableAt? offset)

/-- The shader after precision hints are applied to its textures and samplers. -/
def annotate (hints : PrecisionHints) (shader : Shader) : Logged Shader := do
  return { shader with bindings := ← shader.bindings.annotate hints }

end Shader
end ShaderInterface
