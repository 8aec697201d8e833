import ShaderInterface.Declared
import ShaderInterface.QueryError
import ShaderInterface.Signature.Element
import ShaderInterface.Trace.Logged

/-!
# Signatures

The declared inputs, outputs and patch constants of a shader, and which of them a register access
refers to.
-/

namespace ShaderInterface

/-- The signatures of a shader, each in declaration order. -/
structure Signatures where
  /-- The declared inputs. -/
  inputs : List SignatureElement
  /-- The declared outputs. -/
  outputs : List SignatureElement
  /-- The declared patch constants. -/
  patchConstants : List SignatureElement
deriving DecidableEq, Repr

/-- What a look-up answers if it finds nothing: absence where that is allowed, a failure
otherwise. -/
def orMissing {Found : Type} (allowMissing : Bool) (failure : QueryError) (found : Option Found) :
    Except QueryError (Option Found) :=
  if found.isSome || allowMissing then .ok found else .error failure

section Missing

variable {Found : Type} {allowMissing : Bool} {failure : QueryError}

@[simp] theorem orMissing_some (allowMissing : Bool) (failure : QueryError) (found : Found) :
    orMissing allowMissing failure (some found) = .ok (some found) := rfl

theorem orMissing_none (allowMissing : Bool) (failure : QueryError) :
    orMissing allowMissing failure (none : Option Found) =
      if allowMissing then .ok none else .error failure := by
  cases allowMissing <;> rfl

@[simp] theorem orMissing_true (failure : QueryError) (answer : Option Found) :
    orMissing true failure answer = .ok answer := by
  cases answer <;> rfl

theorem orMissing_eq_ok_some_iff {answer : Option Found} {found : Found} :
    orMissing allowMissing failure answer = .ok (some found) ↔ answer = some found := by
  cases answer with
  | none => cases allowMissing <;> simp [orMissing_none]
  | some other => simp

end Missing

namespace Signatures

/-- The first input that covers the components at a register. -/
def findInput (register : UInt32) (mask : ComponentMask) (allowMissing : Bool)
    (signatures : Signatures) : Except QueryError (Option (Declared SignatureElement)) :=
  orMissing allowMissing (.missingInput register mask)
    (Declared.first? (·.covers register mask) signatures.inputs)

theorem findInput_eq_ok_some_iff {register : UInt32} {mask : ComponentMask} {allowMissing : Bool}
    {signatures : Signatures} {declared : Declared SignatureElement} :
    signatures.findInput register mask allowMissing = .ok (some declared) ↔
      Declared.first? (·.covers register mask) signatures.inputs = some declared :=
  orMissing_eq_ok_some_iff

/-- The first output that declares one of the components at a register of a stream. Outputs may be
written a few components at a time, so an overlap is enough. -/
def findOutput (register : UInt32) (mask : ComponentMask) (stream : UInt32)
    (allowMissing : Bool) (signatures : Signatures) :
    Except QueryError (Option (Declared SignatureElement)) :=
  if mask.isEmpty then
    .error (.emptyOutputMask register)
  else
    orMissing allowMissing (.missingOutput register mask stream)
      (Declared.first? (·.overlaps register mask stream) signatures.outputs)

/-- The first output with a system value and a semantic index. -/
def findSystemValueOutput (systemValue : SystemValue) (semanticIndex : UInt32)
    (signatures : Signatures) : Except QueryError (Declared SignatureElement) :=
  let matchesQuery (element : SignatureElement) : Bool :=
    element.systemValue = systemValue && element.semanticIndex = semanticIndex
  match Declared.first? matchesQuery signatures.outputs with
  | some output => .ok output
  | none => .error (.missingSystemValueOutput systemValue semanticIndex)

/-- The entry that stands in when no patch constant covers the components: the last one at the
register, not counting the final entry of the signature. -/
def patchConstantFallback? (register : UInt32) (signatures : Signatures) :
    Option (Declared SignatureElement) :=
  Declared.last? (·.register = register) signatures.patchConstants.dropLast

/-- The first patch constant that covers the components at a register, or else the entry that
stands in for it. Indexed writes can reach components outside the declared masks. -/
def findPatchConstant (register : UInt32) (mask : ComponentMask) (allowMissing : Bool)
    (signatures : Signatures) :
    Logged (Except QueryError (Option (Declared SignatureElement))) := do
  match Declared.first? (·.covers register mask) signatures.patchConstants with
  | some covering => return .ok (some covering)
  | none =>
      match signatures.patchConstantFallback? register with
      | some widened =>
          Logged.report
            [.patchConstantWidened register mask widened.entry.mask widened.entry.semantic]
          return .ok (some widened)
      | none => return orMissing allowMissing (.missingPatchConstant register mask) none

end Signatures
end ShaderInterface
