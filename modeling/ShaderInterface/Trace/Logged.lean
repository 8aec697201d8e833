import ShaderInterface.Trace.Event

/-!
# Logged values

A value together with the events that led to it, in the order in which they happened.
-/

namespace ShaderInterface

/-- A value with the events reported on the way to it. -/
structure Logged (Value : Type) where
  /-- The value reached. -/
  value : Value
  /-- The events, earliest first. -/
  events : List Event
deriving DecidableEq, Repr

namespace Logged

variable {Value Next : Type}

instance : Monad Logged where
  pure value := ⟨value, []⟩
  bind before next :=
    let after := next before.value
    ⟨after.value, before.events ++ after.events⟩

/-- Reports events in order. -/
def report (events : List Event) : Logged Unit := ⟨(), events⟩

@[simp] theorem value_pure (value : Value) : (pure value : Logged Value).value = value := rfl

@[simp] theorem events_pure (value : Value) : (pure value : Logged Value).events = [] := rfl

@[simp] theorem value_bind (before : Logged Value) (next : Value → Logged Next) :
    (before >>= next).value = (next before.value).value := rfl

@[simp] theorem events_bind (before : Logged Value) (next : Value → Logged Next) :
    (before >>= next).events = before.events ++ (next before.value).events := rfl

@[simp] theorem value_map (change : Value → Next) (logged : Logged Value) :
    (change <$> logged).value = change logged.value := rfl

@[simp] theorem events_map (change : Value → Next) (logged : Logged Value) :
    (change <$> logged).events = logged.events := List.append_nil logged.events

@[ext] theorem ext {left right : Logged Value} (value : left.value = right.value)
    (events : left.events = right.events) : left = right := by
  cases left
  cases right
  simp_all

instance : LawfulMonad Logged := LawfulMonad.mk'
  Logged
  (fun _ => by ext1 <;> simp [Functor.map])
  (fun _ _ => by ext1 <;> simp)
  (fun _ _ _ => by ext1 <;> simp)

theorem value_mapM {Entry : Type} (visit : Entry → Logged Value) (entries : List Entry) :
    (entries.mapM visit).value = entries.map (visit · |>.value) := by
  induction entries with
  | nil => rfl
  | cons entry rest induction =>
      rw [List.mapM_cons, value_bind, value_bind, value_pure, induction, List.map_cons]

theorem events_mapM {Entry : Type} (visit : Entry → Logged Value) (entries : List Entry) :
    (entries.mapM visit).events = entries.flatMap (visit · |>.events) := by
  induction entries with
  | nil => rfl
  | cons entry rest induction =>
      rw [List.mapM_cons, events_bind, events_bind, events_pure, List.append_nil, induction,
        List.flatMap_cons]

end Logged
end ShaderInterface
