import ShaderInterface.Buffer.Resolution
import ShaderInterface.Proofs.Layout.Step

/-!
# The scan over the variables

An access is resolved to the first variable in which the search for its byte succeeds. The events
on the way play no part in the answer.
-/

namespace ShaderInterface

open LayoutTree

/-- The answer of two queries in a row does not depend on their events. -/
theorem value_run_bind {First Value : Type} (first : LayoutQuery First)
    (next : First → LayoutQuery Value) :
    (first >>= next).run.value = first.run.value >>= fun middle => (next middle).run.value := by
  rw [ExceptT.run_bind, Logged.value_bind]
  cases first.run.value <;> rfl

theorem run_bind_of_ok {First Value : Type} {query : LayoutQuery First} {first : First}
    {events : List Event} (runs : query.run = ⟨.ok first, events⟩)
    (next : First → LayoutQuery Value) :
    (query >>= next).run =
      ⟨(next first).run.value, events ++ (next first).run.events⟩ := by
  rw [ExceptT.run_bind, runs]
  rfl

variable {flags : LayoutFlags} {byteOffset : UInt32}

/-- The search for a byte in one variable. -/
def BufferVariable.find (flags : LayoutFlags) (byteOffset : UInt32) (declared : BufferVariable) :
    Except ArithmeticError (Option (Location Placement)) :=
  declared.type.search flags.matricesAsVectors declared.start.toNat byteOffset.toNat

theorem value_resolveAmong_cons (flags : LayoutFlags) (byteOffset : UInt32)
    (holder : Declared BufferVariable) (rest : List (Declared BufferVariable)) :
    (resolveAmong flags byteOffset (holder :: rest)).run.value = (do
      match ← holder.entry.find flags byteOffset with
      | some location => return some ⟨holder, location⟩
      | none => (resolveAmong flags byteOffset rest).run.value) := by
  rw [resolveAmong, value_run_bind, PlacedType.value_locate]
  refine bind_congr fun found => ?_
  cases found <;> rfl

/-- The variables are asked in declaration order until one has the byte. -/
theorem resolveAmong_cases {holders : List (Declared BufferVariable)}
    {answer : Option Resolution}
    (resolved : (resolveAmong flags byteOffset holders).run.value = .ok answer) :
    (answer = none ∧ ∀ holder ∈ holders, holder.entry.find flags byteOffset = .ok none) ∨
    ∃ before holder after location, holders = before ++ holder :: after ∧
      (∀ earlier ∈ before, earlier.entry.find flags byteOffset = .ok none) ∧
      holder.entry.find flags byteOffset = .ok (some location) ∧
      answer = some ⟨holder, location⟩ := by
  induction holders with
  | nil => exact Or.inl ⟨(Except.ok.inj resolved).symm, nofun⟩
  | cons holder rest induction =>
      rw [value_resolveAmong_cons] at resolved
      obtain ⟨first, asked, next⟩ := bind_eq_ok_iff.mp resolved
      cases first with
      | some location =>
          exact Or.inr ⟨[], holder, rest, location, rfl, nofun, asked, (Except.ok.inj next).symm⟩
      | none =>
          rcases induction next with ⟨rfl, turnedDown⟩ |
            ⟨before, found, after, location, rfl, turnedDown, located, rfl⟩
          · exact Or.inl ⟨rfl, List.forall_mem_cons.mpr ⟨asked, turnedDown⟩⟩
          · exact Or.inr ⟨holder :: before, found, after, location, rfl,
              List.forall_mem_cons.mpr ⟨asked, turnedDown⟩, located, rfl⟩

theorem resolveAmong_of_first {before : List (Declared BufferVariable)}
    {holder : Declared BufferVariable} {location : Location Placement}
    (turnedDown : ∀ earlier ∈ before, earlier.entry.find flags byteOffset = .ok none)
    (located : holder.entry.find flags byteOffset = .ok (some location))
    (after : List (Declared BufferVariable)) :
    (resolveAmong flags byteOffset (before ++ holder :: after)).run.value =
      .ok (some ⟨holder, location⟩) := by
  induction before with
  | nil =>
      rw [List.nil_append, value_resolveAmong_cons, located]
      rfl
  | cons earlier before induction =>
      obtain ⟨asked, turnedDown⟩ := List.forall_mem_cons.mp turnedDown
      rw [List.cons_append, value_resolveAmong_cons, asked, ok_bind]
      exact induction turnedDown

namespace ConstantBuffer

theorem value_resolve (slot : UInt32) (swizzle : Swizzle) (flags : LayoutFlags)
    (buffer : ConstantBuffer) :
    (buffer.resolve slot swizzle flags).run.value =
      match Swizzle.byteOffset? slot swizzle with
      | none => .ok none
      | some byteOffset =>
          (resolveAmong flags byteOffset (Declared.all buffer.entries)).run.value := by
  unfold resolve
  cases Swizzle.byteOffset? slot swizzle with
  | none => rfl
  | some byteOffset =>
      change (_ >>= _ : LayoutQuery _).run.value = _
      rw [value_run_bind]
      exact bind_pure _

/-- An access beyond the last slot finds nothing and reports nothing. -/
theorem run_resolve_of_beyond {slot : UInt32} {swizzle : Swizzle} {buffer : ConstantBuffer}
    (beyond : 0x10000000 ≤ slot.toNat) :
    (buffer.resolve slot swizzle flags).run = ⟨.ok none, []⟩ := by
  rw [resolve, Swizzle.byteOffset?_eq_none_iff.mpr beyond]
  rfl

/-- A resolved access is found in one of the variables. -/
theorem find_of_resolve {slot : UInt32} {swizzle : Swizzle} {buffer : ConstantBuffer}
    {resolution : Resolution}
    (resolved : (buffer.resolve slot swizzle flags).run.value = .ok (some resolution)) :
    resolution.holder.entry ∈ buffer.entries ∧
    ∃ byteOffset, Swizzle.byteOffset? slot swizzle = some byteOffset ∧
      resolution.holder.entry.find flags byteOffset = .ok (some resolution.location) := by
  rw [value_resolve] at resolved
  cases selected : Swizzle.byteOffset? slot swizzle with
  | none =>
      rw [selected] at resolved
      cases resolved
  | some byteOffset =>
      rw [selected] at resolved
      rcases resolveAmong_cases resolved with ⟨nothing, -⟩ |
        ⟨before, holder, after, location, split, -, located, same⟩
      · contradiction
      · obtain rfl := Option.some.inj same
        have isHolder : holder ∈ Declared.all buffer.entries := split ▸ List.mem_append_cons_self
        exact ⟨Declared.entry_mem isHolder, byteOffset, rfl, located⟩

end ConstantBuffer
end ShaderInterface
