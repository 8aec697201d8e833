import ShaderInterface.Resource.Precision
import ShaderInterface.Signature.ComponentMask

/-!
# Events

What queries report besides their answers.
-/

namespace ShaderInterface

/-- How much attention an event deserves. -/
inductive EventLevel where
  | debug
  | trace
deriving DecidableEq, Repr

/-- The name of a level in reports. -/
def EventLevel.name : EventLevel → String
  | .debug => "DEBUG"
  | .trace => "TRACE"

/-- One reported observation. -/
inductive Event where
  /-- A constant buffer took over the register of an earlier one. -/
  | bufferRedeclared (bindPoint : UInt32) (bufferName : String)
  /-- A lone vector was found that does not start on a slot boundary. -/
  | vectorMidSlot (typeName : String) (rebase : Nat)
  /-- A byte of a constant buffer was found to belong to a variable. -/
  | offsetResolved (bufferName : String) (byteOffset : UInt32) (variableName leafName : String)
      (indices : List Nat)
  /-- A byte of a constant buffer belongs to no variable. -/
  | offsetUncovered (bufferName : String) (byteOffset : UInt32)
  /-- A precision hint was found under a name without its sampler marking. -/
  | hintUnderBareName (name bareName : String)
  /-- A precision hint was given to a binding. -/
  | hintApplied (name : String) (precision : Precision)
  /-- A patch constant was taken although its declared mask lacks requested components. -/
  | patchConstantWidened (register : UInt32) (mask declared : ComponentMask) (semantic : String)
deriving DecidableEq, Repr

/-- The value of an event's field. -/
inductive FieldValue where
  | number (value : Nat)
  | text (value : String)
deriving DecidableEq, Repr

namespace Event

/-- The level of an event. -/
def level : Event → EventLevel
  | offsetResolved .. | offsetUncovered .. => .trace
  | _ => .debug

/-- The sentence that states an event. -/
def message : Event → String
  | bufferRedeclared .. => "constant buffer slot declared twice; keeping the later one"
  | vectorMidSlot .. => "vector starts mid-slot"
  | offsetResolved .. => "resolved constant buffer offset"
  | offsetUncovered .. => "no variable covers constant buffer offset"
  | hintUnderBareName .. => "matched precision hint after stripping sampler prefix"
  | hintApplied .. => "applying precision hint"
  | patchConstantWidened .. =>
      "patch constant write exceeds declared mask; using last entry at register"

/-- Indices between brackets, separated by commas. -/
def indexListText (indices : List Nat) : String :=
  "[" ++ ", ".intercalate (indices.map Nat.repr) ++ "]"

/-- The named values of an event. -/
def fields : Event → List (String × FieldValue)
  | bufferRedeclared bindPoint bufferName =>
      [("bind_point", .number bindPoint.toNat), ("name", .text bufferName)]
  | vectorMidSlot typeName rebase => [("name", .text typeName), ("rebase", .number rebase)]
  | offsetResolved bufferName byteOffset variableName leafName indices =>
      [("cbuffer", .text bufferName), ("byte_offset", .number byteOffset.toNat),
        ("var", .text variableName), ("leaf", .text leafName),
        ("indices", .text (indexListText indices))]
  | offsetUncovered bufferName byteOffset =>
      [("cbuffer", .text bufferName), ("byte_offset", .number byteOffset.toNat)]
  | hintUnderBareName name bareName => [("name", .text name), ("stripped", .text bareName)]
  | hintApplied name precision =>
      [("name", .text name), ("precision", .text (Named.name precision))]
  | patchConstantWidened register mask declared semantic =>
      [("register", .number register.toNat), ("mask", .text mask.text),
        ("declared", .text declared.text), ("semantic", .text semantic)]

end Event
end ShaderInterface
