import ShaderInterface.Signature.ComponentMask
import ShaderInterface.Signature.SystemValue

/-!
# Signature elements

One declared input, output or patch constant of a shader.
-/

namespace ShaderInterface

/-- A declared interface value. -/
structure SignatureElement where
  /-- Name of the semantic. -/
  semantic : String
  /-- Index of the semantic. -/
  semanticIndex : UInt32
  /-- What the pipeline uses the element for. -/
  systemValue : SystemValue
  /-- Register that holds the element. -/
  register : UInt32
  /-- Components that the element declares. -/
  mask : ComponentMask
  /-- Output stream of a geometry shader, 0 elsewhere. -/
  stream : UInt32
deriving DecidableEq, Repr

namespace SignatureElement

/-- The element declares all components of a mask at a register. -/
def covers (register : UInt32) (mask : ComponentMask) (element : SignatureElement) : Bool :=
  element.register = register && element.mask.contains mask

/-- The element declares some component of a mask at a register of a stream. -/
def overlaps (register : UInt32) (mask : ComponentMask) (stream : UInt32)
    (element : SignatureElement) : Bool :=
  element.register = register && element.mask.intersects mask && element.stream = stream

variable {register stream : UInt32} {mask : ComponentMask} {element : SignatureElement}

theorem covers_iff :
    element.covers register mask ↔ element.register = register ∧ element.mask.contains mask := by
  simp [covers]

theorem overlaps_iff :
    element.overlaps register mask stream ↔
      element.mask.intersects mask ∧ element.register = register ∧ element.stream = stream := by
  simp only [overlaps, Bool.and_eq_true, decide_eq_true_eq]
  exact ⟨fun ⟨⟨held, shared⟩, onStream⟩ => ⟨shared, held, onStream⟩,
    fun ⟨shared, held, onStream⟩ => ⟨⟨held, shared⟩, onStream⟩⟩

end SignatureElement
end ShaderInterface
