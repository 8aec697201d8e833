import ShaderInterface.Resource.Kind
import ShaderInterface.Signature.ComponentMask
import ShaderInterface.Signature.SystemValue

/-!
# Failed queries

A query fails when the declarations of a shader contradict what is asked of them. Things that may
be absent are reported as absent instead.
-/

namespace ShaderInterface

/-- The reasons why a query fails. -/
inductive QueryError where
  /-- Resources of this kind belong to no register group. -/
  | unsupportedResourceKind (kind : ResourceKind)
  /-- No texture is bound at the register. -/
  | missingTextureBinding (register : UInt32)
  /-- No constant buffer is bound at the register. -/
  | missingConstantBuffer (bindPoint : UInt32)
  /-- The shader model does not describe its constant buffers one by one. -/
  | constantBuffersUnavailable (major minor : UInt32)
  /-- No input declares the components. -/
  | missingInput (register : UInt32) (mask : ComponentMask)
  /-- No output on the stream declares any of the components. -/
  | missingOutput (register : UInt32) (mask : ComponentMask) (stream : UInt32)
  /-- An output was asked for without components. -/
  | emptyOutputMask (register : UInt32)
  /-- No output has the system value and semantic index. -/
  | missingSystemValueOutput (systemValue : SystemValue) (semanticIndex : UInt32)
  /-- No patch constant serves the components. -/
  | missingPatchConstant (register : UInt32) (mask : ComponentMask)
deriving DecidableEq, Repr

/-- The sentence that reports a failed query. -/
def QueryError.message : QueryError → String
  | unsupportedResourceKind kind =>
      "resource kind " ++ Named.name kind ++ " has no binding group"
  | missingTextureBinding register =>
      "no texture binding covers t" ++ register.toNat.repr
  | missingConstantBuffer bindPoint =>
      "no constant buffer is bound at b" ++ bindPoint.toNat.repr
  | constantBuffersUnavailable major minor =>
      "shader model " ++ major.toNat.repr ++ "." ++ minor.toNat.repr
        ++ " carries no per-buffer constant buffer reflection"
  | missingInput register mask =>
      "input signature does not declare v" ++ register.toNat.repr
        ++ " with components " ++ mask.text
  | missingOutput register mask stream =>
      "output signature does not declare o" ++ register.toNat.repr
        ++ " with components " ++ mask.text ++ " on stream " ++ stream.toNat.repr
  | emptyOutputMask register =>
      "output signature lookup for o" ++ register.toNat.repr ++ " used an empty component mask"
  | missingSystemValueOutput systemValue semanticIndex =>
      "output signature has no " ++ Named.name systemValue
        ++ " with semantic index " ++ semanticIndex.toNat.repr
  | missingPatchConstant register mask =>
      "patch constant signature does not declare register " ++ register.toNat.repr
        ++ " (components " ++ mask.text ++ ")"

end ShaderInterface
