import ShaderInterface.Buffer.IndexedName
import ShaderInterface.Layout.Search
import ShaderInterface.Layout.Flags
import ShaderInterface.Trace.Logged

/-!
# Resolving constant accesses

An access names a slot of a constant buffer and a swizzle. It is resolved to the first variable
that covers the selected byte and to the innermost type there.
-/

namespace ShaderInterface

/-- A layout query: it may stop at an overflow, and it reports events. -/
abbrev LayoutQuery := ExceptT ArithmeticError Logged

/-- The event that a location gives rise to, if its leaf starts in the middle of a slot. -/
def Location.midSlotEvents (location : Location Placement) : List Event :=
  if location.rebase = 0 then []
  else [.vectorMidSlot location.leaf.label.fullName location.rebase]

/-- The location of byte `target` in a type whose enclosing struct starts at byte `base`. -/
def PlacedType.locate (flags : LayoutFlags) (base target : UInt32) (type : PlacedType) :
    LayoutQuery (Option (Location Placement)) := do
  let found ← type.search flags.matricesAsVectors base.toNat target.toNat
  match found with
  | none => return none
  | some location =>
      Logged.report location.midSlotEvents
      return some location

/-- Reporting does not change what a search finds. -/
theorem PlacedType.value_locate (flags : LayoutFlags) (base target : UInt32)
    (type : PlacedType) :
    (type.locate flags base target).run.value =
      type.search flags.matricesAsVectors base.toNat target.toNat := by
  unfold PlacedType.locate
  cases found : type.search flags.matricesAsVectors base.toNat target.toNat with
  | error error => rfl
  | ok location => cases location <;> rfl

/-- Only a lone vector that is found in the middle of a slot is reported. -/
theorem PlacedType.events_locate (flags : LayoutFlags) (base target : UInt32)
    (type : PlacedType) :
    (type.locate flags base target).run.events =
      match type.search flags.matricesAsVectors base.toNat target.toNat with
      | .ok (some location) => location.midSlotEvents
      | _ => [] := by
  unfold PlacedType.locate
  cases found : type.search flags.matricesAsVectors base.toNat target.toNat with
  | error error => rfl
  | ok location =>
      cases location with
      | none => rfl
      | some location =>
          change (location.midSlotEvents ++ []) ++ [] = location.midSlotEvents
          simp

/-- What a constant access reads. -/
structure Resolution where
  /-- The variable, with its position in the buffer. -/
  holder : Declared BufferVariable
  /-- The place inside the variable. -/
  location : Location Placement
deriving Repr

/-- The first of the variables that covers a byte. -/
def resolveAmong (flags : LayoutFlags) (byteOffset : UInt32) :
    List (Declared BufferVariable) → LayoutQuery (Option Resolution)
  | [] => return none
  | holder :: rest => do
      match ← holder.entry.type.locate flags holder.entry.start byteOffset with
      | some location => return some ⟨holder, location⟩
      | none => resolveAmong flags byteOffset rest

namespace ConstantBuffer

/-- The event that closes the search for a byte. -/
def resolutionEvent (byteOffset : UInt32) (found : Option Resolution)
    (buffer : ConstantBuffer) : Event :=
  match found with
  | none => .offsetUncovered buffer.name byteOffset
  | some resolution =>
      .offsetResolved buffer.name byteOffset resolution.holder.entry.name
        resolution.location.leaf.label.fullName resolution.location.indices

/-- What an access to slot number `slot` reads; nothing lies beyond the last byte offset. -/
def resolve (slot : UInt32) (swizzle : Swizzle) (flags : LayoutFlags)
    (buffer : ConstantBuffer) : LayoutQuery (Option Resolution) := do
  match Swizzle.byteOffset? slot swizzle with
  | none => return none
  | some byteOffset =>
      let found ← resolveAmong flags byteOffset (Declared.all buffer.entries)
      Logged.report [buffer.resolutionEvent byteOffset found]
      return found

/-- The source name of what an access reads. -/
def resolvedName (resolution : Resolution) (dynamic : DynamicIndex) (flags : LayoutFlags)
    (buffer : ConstantBuffer) : Except ArithmeticError String :=
  buffer.indexedName resolution.location.leaf resolution.location.indices dynamic
    flags.matricesAsVectors

end ConstantBuffer
end ShaderInterface
