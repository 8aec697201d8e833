import Mathlib.Data.List.Forall2
import ShaderInterface.Proofs.Resource.HintHistory
import ShaderInterface.Resource.BindingTable

/-!
# Runs of annotation passes

Each pass gives samplers and textures the precision that its hints ask for. Of several passes the
last one with a hint for a binding decides, and nothing but precisions ever changes, so the passes
find and report the same however many went before.
-/

namespace ShaderInterface

theorem ResourceKind.takesPrecision_iff {kind : ResourceKind} :
    kind.takesPrecision ↔ kind = .sampler ∨ kind = .texture := by
  cases kind <;> simp [takesPrecision]

/-- The precision that the last of several passes with a hint for a name asks for. -/
def lastHint? (passes : List PrecisionHints) (name : String) : Option Precision :=
  passes.reverse.findSome? fun hints => (hints.lookup name).value

theorem lastHint?_singleton (hints : PrecisionHints) (name : String) :
    lastHint? [hints] name = (hints.lookup name).value := by
  simp [lastHint?]

theorem lastHint?_append (before after : List PrecisionHints) (name : String) :
    lastHint? (before ++ after) name = (lastHint? after name).or (lastHint? before name) := by
  rw [lastHint?, List.reverse_append, List.findSome?_append]
  rfl

namespace Binding

variable {passes : List PrecisionHints} {hints : PrecisionHints} {binding : Binding}

/-- A sampler or texture with the last precision that it was given, any other binding as it is. -/
def hinted (passes : List PrecisionHints) (binding : Binding) : Binding :=
  if binding.kind = .sampler ∨ binding.kind = .texture then
    { binding with precision := (lastHint? passes binding.name).getD binding.precision }
  else
    binding

theorem hinted_eq (passes : List PrecisionHints) (binding : Binding) :
    binding.hinted passes = { binding with precision := (binding.hinted passes).precision } := by
  rw [hinted]
  split <;> rfl

@[simp] theorem name_hinted : (binding.hinted passes).name = binding.name := by
  rw [hinted_eq]

@[simp] theorem kind_hinted : (binding.hinted passes).kind = binding.kind := by
  rw [hinted_eq]

theorem serves_hinted (group : ResourceGroup) (register : UInt32) :
    (binding.hinted passes).serves group register = binding.serves group register := by
  rw [hinted_eq]
  rfl

theorem dataType_hinted : (binding.hinted passes).dataType = binding.dataType := by
  rw [hinted_eq]
  rfl

theorem hinted_nil : binding.hinted [] = binding := by
  rw [hinted]
  split <;> rfl

/-- Passes that follow one another act one after the other. -/
theorem hinted_append (before after : List PrecisionHints) (binding : Binding) :
    binding.hinted (before ++ after) = (binding.hinted before).hinted after := by
  by_cases affected : binding.kind = .sampler ∨ binding.kind = .texture
  · rw [hinted, hinted, kind_hinted, if_pos affected, if_pos affected, hinted, if_pos affected,
      lastHint?_append]
    cases lastHint? after binding.name <;> simp
  · simp [hinted, affected]

theorem hinted_twice (hints : PrecisionHints) (binding : Binding) :
    binding.hinted [hints, hints] = binding.hinted [hints] := by
  have same : lastHint? [hints, hints] binding.name = lastHint? [hints] binding.name := by
    rw [← List.singleton_append, lastHint?_append, Option.or_self]
  rw [hinted, hinted, same]

/-- What a pass reports on a binding: how it finds a hint, and that it applies it. -/
def reports (hints : PrecisionHints) (binding : Binding) : List Event :=
  if binding.kind = .sampler ∨ binding.kind = .texture then
    let found := hints.lookup binding.name
    found.events ++ (found.value.map (.hintApplied binding.name)).toList
  else
    []

theorem reports_hinted : (binding.hinted passes).reports hints = binding.reports hints := by
  rw [reports, reports, kind_hinted, name_hinted]

/-- What one pass makes of a binding, and what it reports on it. -/
inductive Annotated (hints : PrecisionHints) (binding : Binding) : Logged Binding → Prop where
  /-- Hints are for samplers and textures only. -/
  | unaffected (other : ¬(binding.kind = .sampler ∨ binding.kind = .texture)) :
      Annotated hints binding ⟨binding, []⟩
  /-- There is no hint for the name, nor for the bare name behind a marking. -/
  | unhinted (affected : binding.kind = .sampler ∨ binding.kind = .texture)
      (absent : hints.find? binding.name = none)
      (nowhere : ∀ bareName, binding.name = samplerMark ++ bareName →
        hints.find? bareName = none) :
      Annotated hints binding ⟨binding, []⟩
  /-- There is a hint for the name itself. -/
  | exact (affected : binding.kind = .sampler ∨ binding.kind = .texture) (precision : Precision)
      (found : hints.find? binding.name = some precision) :
      Annotated hints binding
        ⟨{ binding with precision }, [.hintApplied binding.name precision]⟩
  /-- There is a hint for the bare name only. -/
  | bare (affected : binding.kind = .sampler ∨ binding.kind = .texture) (bareName : String)
      (precision : Precision) (marked : binding.name = samplerMark ++ bareName)
      (absent : hints.find? binding.name = none) (found : hints.find? bareName = some precision) :
      Annotated hints binding
        ⟨{ binding with precision },
          [.hintUnderBareName binding.name bareName, .hintApplied binding.name precision]⟩

theorem annotated (hints : PrecisionHints) (binding : Binding) :
    Annotated hints binding ⟨binding.hinted [hints], binding.reports hints⟩ := by
  rw [hinted, reports, lastHint?_singleton]
  by_cases affected : binding.kind = .sampler ∨ binding.kind = .texture
  · rw [if_pos affected, if_pos affected]
    rcases hints.lookup_cases binding.name with
      ⟨precision, found⟩ | ⟨bareName, precision, marked, absent, found⟩ | ⟨absent, nowhere⟩
    · rw [PrecisionHints.lookup_of_found found]
      exact .exact affected precision found
    · have looked := PrecisionHints.lookup_of_bare (marked ▸ absent) found
      rw [← marked] at looked
      rw [looked]
      exact .bare affected bareName precision marked absent found
    · rw [PrecisionHints.lookup_of_missed absent nowhere]
      exact .unhinted affected absent nowhere
  · rw [if_neg affected, if_neg affected]
    exact .unaffected affected

end Binding

namespace BindingTable

open Binding

theorem annotateBinding_eq (hints : PrecisionHints) (binding : Binding) :
    annotateBinding hints binding = ⟨binding.hinted [hints], binding.reports hints⟩ := by
  rw [annotateBinding, hinted, reports, lastHint?_singleton]
  by_cases affected : binding.kind = .sampler ∨ binding.kind = .texture
  · rw [if_pos affected, if_pos affected, if_pos (ResourceKind.takesPrecision_iff.mpr affected)]
    obtain ⟨found, events⟩ := hints.lookup binding.name
    cases found <;> rfl
  · rw [if_neg affected, if_neg affected, if_neg (mt ResourceKind.takesPrecision_iff.mp affected)]
    rfl

/-- A pass goes through the bindings in order, and without any hint it has nothing to do. -/
theorem annotate_eq (hints : PrecisionHints) (table : BindingTable) :
    table.annotate hints =
      ⟨⟨table.bindings.map (hinted [hints])⟩, table.bindings.flatMap (reports hints)⟩ := by
  rw [annotate]
  by_cases empty : hints.isEmpty
  -- Nothing would be found, so it makes no difference that the bindings are not looked at.
  · have unchanged : table.bindings.map (hinted [hints]) = table.bindings := by
      refine (List.map_congr_left fun binding _ => ?_).trans (List.map_id _)
      simp [hinted, lastHint?_singleton, PrecisionHints.lookup_of_isEmpty empty]
    have silent : table.bindings.flatMap (reports hints) = [] := by
      simp [reports, PrecisionHints.lookup_of_isEmpty empty]
    rw [if_pos empty, unchanged, silent]
    rfl
  · rw [if_neg empty]
    ext1
    · simp [Logged.value_mapM, annotateBinding_eq]
    · simp [Logged.events_mapM, annotateBinding_eq]

/-- The table after several passes, with all that they report. -/
def annotateAll (passes : List PrecisionHints) (table : BindingTable) : Logged BindingTable :=
  passes.foldlM (fun table hints => table.annotate hints) table

/-- A run of passes leaves each binding with its last hint, and each pass reports what it would
report if it were the first. -/
theorem annotateAll_eq (passes : List PrecisionHints) (table : BindingTable) :
    table.annotateAll passes =
      ⟨⟨table.bindings.map (hinted passes)⟩,
        passes.flatMap fun hints => (table.annotate hints).events⟩ := by
  induction passes generalizing table with
  | nil =>
      have unchanged : table.bindings.map (hinted []) = table.bindings :=
        (List.map_congr_left fun _ _ => hinted_nil).trans (List.map_id _)
      rw [unchanged]
      rfl
  | cons hints rest induction =>
      ext1
      · have stepwise : hinted (hints :: rest) = hinted rest ∘ hinted [hints] :=
          funext (hinted_append [hints] rest)
        rw [annotateAll, List.foldlM_cons, Logged.value_bind, ← annotateAll, induction, annotate_eq,
          List.map_map, stepwise]
      · rw [annotateAll, List.foldlM_cons, Logged.events_bind, ← annotateAll, induction,
          List.flatMap_cons]
        simp only [annotate_eq, List.flatMap_map, reports_hinted]

/-- A run finds the same bindings as before, at the same positions. -/
theorem find?_annotateAll (passes : List PrecisionHints) (group : ResourceGroup)
    (register : UInt32) (table : BindingTable) :
    (table.annotateAll passes).value.find? group register =
      (table.find? group register).map fun found =>
        ⟨found.position, found.entry.hinted passes⟩ := by
  rw [annotateAll_eq, find?, Declared.first?_map]
  simp only [serves_hinted]
  rfl

theorem textureDataType_annotateAll (passes : List PrecisionHints) (register : UInt32)
    (table : BindingTable) :
    (table.annotateAll passes).value.textureDataType register =
      table.textureDataType register := by
  rw [textureDataType, textureDataType, find?_annotateAll]
  cases table.find? .texture register with
  | none => rfl
  | some texture => exact congrArg Except.ok dataType_hinted

/-- A pass that follows on itself finds everything done. -/
theorem value_annotateAll_twice (before : List PrecisionHints) (hints : PrecisionHints)
    (after : List PrecisionHints) (table : BindingTable) :
    (table.annotateAll (before ++ hints :: hints :: after)).value =
      (table.annotateAll (before ++ hints :: after)).value := by
  have repeated : hinted (before ++ hints :: hints :: after) = hinted (before ++ hints :: after) :=
    funext fun binding => calc
      binding.hinted (before ++ ([hints, hints] ++ after)) =
          ((binding.hinted before).hinted [hints, hints]).hinted after := by
        rw [hinted_append, hinted_append]
      _ = ((binding.hinted before).hinted [hints]).hinted after := by rw [hinted_twice]
      _ = binding.hinted (before ++ ([hints] ++ after)) := by rw [hinted_append, hinted_append]
  simp only [annotateAll_eq, repeated]

theorem exists_annotated (hints : PrecisionHints) (table : BindingTable) :
    ∃ steps, List.Forall₂ (Annotated hints) table.bindings steps ∧
      table.annotate hints = ⟨⟨steps.map Logged.value⟩, steps.flatMap Logged.events⟩ := by
  refine ⟨table.bindings.map (annotateBinding hints), ?_, ?_⟩
  · rw [List.forall₂_map_right_iff, List.forall₂_same]
    intro binding _
    rw [annotateBinding_eq]
    exact annotated hints binding
  · rw [annotate_eq, List.map_map, List.flatMap_map]
    simp only [Function.comp_def, annotateBinding_eq]

/-- After a run each sampler and texture has the precision of the last pass with a hint for it, and
nothing else has changed, so a pass that is repeated adds nothing and the same bindings are found.
Each pass reports, binding by binding, how it finds its hints and that it applies them. -/
theorem annotateAll_lastHint (passes : List PrecisionHints) (table : BindingTable) :
    let final := (table.annotateAll passes).value
    final.bindings = table.bindings.map (hinted passes) ∧
    (∀ group register, final.find? group register =
      (table.find? group register).map fun found =>
        ⟨found.position, found.entry.hinted passes⟩) ∧
    (∀ register, final.textureDataType register = table.textureDataType register) ∧
    (∀ before hints after, (table.annotateAll (before ++ hints :: hints :: after)).value =
      (table.annotateAll (before ++ hints :: after)).value) ∧
    (table.annotateAll passes).events =
      passes.flatMap (fun hints => (table.annotate hints).events) ∧
    ∀ hints, ∃ steps, List.Forall₂ (Annotated hints) table.bindings steps ∧
      table.annotate hints = ⟨⟨steps.map Logged.value⟩, steps.flatMap Logged.events⟩ := by
  intro final
  refine ⟨?_, fun group register => find?_annotateAll passes group register table,
    fun register => textureDataType_annotateAll passes register table,
    fun before hints after => value_annotateAll_twice before hints after table, ?_,
    fun hints => exists_annotated hints table⟩
  · simp only [final, annotateAll_eq]
  · rw [annotateAll_eq]

end BindingTable
end ShaderInterface
