import ShaderInterface.Proofs.Selection
import ShaderInterface.Resource.PrecisionHints

/-!
# History of precision hints

A hint replaces the earlier one of its name, and besides its own resource it serves the sampler
named after it as long as that has no hint itself. So a look-up is decided by the last hint put in
under the name and the last one put in under its bare name.
-/

namespace ShaderInterface

open Declared

theorem bareName?_eq_some_iff {name bareName : String} :
    bareName? name = some bareName ↔ name = samplerMark ++ bareName := by
  rw [bareName?]
  by_cases marked : samplerMark.toList.isPrefixOf name.toList
  · obtain ⟨rest, split⟩ := List.isPrefixOf_iff_prefix.mp marked
    obtain rfl : name = samplerMark ++ String.ofList rest := by
      apply String.toList_injective
      rw [String.toList_append, String.toList_ofList, split]
    have dropped : (samplerMark ++ String.ofList rest).toList.drop samplerMark.length = rest := by
      rw [← split, ← String.length_toList, List.drop_left]
    rw [if_pos marked, dropped, Option.some.injEq, String.append_right_inj]
  · have unmarked : name ≠ samplerMark ++ bareName := by
      rintro rfl
      rw [String.toList_append] at marked
      exact marked (List.isPrefixOf_iff_prefix.mpr (List.prefix_append _ _))
    simp [marked, unmarked]

theorem ne_samplerMark_append (name : String) : name ≠ samplerMark ++ name := by
  intro same
  have lengths := congrArg String.length same
  rw [String.length_append] at lengths
  have : samplerMark.length = 7 := rfl
  omega

/-- One more hint, put in for its own sake or in exchange for the one that it replaces. -/
inductive HintStep where
  | insert (name : String) (precision : Precision)
  | replace (name : String) (precision : Precision)
deriving DecidableEq, Repr

/-- The name and the precision that a step puts in. -/
def HintStep.entry : HintStep → String × Precision
  | insert name precision => (name, precision)
  | replace name precision => (name, precision)

namespace PrecisionHints

/-- The precision put in last under a name. -/
def latest? (name : String) (history : List (String × Precision)) : Option Precision :=
  (last? (·.1 = name) history).map (·.entry.2)

theorem latest?_concat (name : String) (history : List (String × Precision))
    (final : String × Precision) :
    latest? name (history ++ [final]) =
      if final.1 = name then some final.2 else latest? name history := by
  rw [latest?, last?_concat]
  by_cases same : final.1 = name <;> simp [same, latest?]

theorem latest?_eq_none_iff {name : String} {history : List (String × Precision)} :
    latest? name history = none ↔ name ∉ history.map Prod.fst := by
  rw [latest?, Option.map_eq_none_iff, last?_eq_none_iff, List.mem_map]
  simp only [decide_eq_true_eq, not_exists, not_and]

variable {name bareName : String} {precision : Precision} {hints left right : PrecisionHints}
  {history : List (String × Precision)}

theorem lookup_of_found (found : hints.find? name = some precision) :
    hints.lookup name = ⟨some precision, []⟩ := by
  rw [lookup, found]
  rfl

theorem lookup_of_bare (absent : hints.find? (samplerMark ++ bareName) = none)
    (found : hints.find? bareName = some precision) :
    hints.lookup (samplerMark ++ bareName) =
      ⟨some precision, [.hintUnderBareName (samplerMark ++ bareName) bareName]⟩ := by
  have stripped : bareName? (samplerMark ++ bareName) = some bareName :=
    bareName?_eq_some_iff.mpr rfl
  simp only [lookup, absent, stripped, found]
  rfl

theorem lookup_of_missed (absent : hints.find? name = none)
    (nowhere : ∀ bareName, name = samplerMark ++ bareName → hints.find? bareName = none) :
    hints.lookup name = ⟨none, []⟩ := by
  rw [lookup, absent]
  cases stripped : bareName? name with
  | none => rfl
  | some bareName =>
      simp only [nowhere bareName (bareName?_eq_some_iff.mp stripped)]
      rfl

theorem lookup_of_isEmpty (empty : hints.isEmpty) (name : String) :
    hints.lookup name = ⟨none, []⟩ :=
  lookup_of_missed (Std.HashMap.getElem?_of_isEmpty empty) fun _ _ =>
    Std.HashMap.getElem?_of_isEmpty empty

/-- A name has a hint of its own, or the hint of its bare name, or none. -/
theorem lookup_cases (name : String) (hints : PrecisionHints) :
    (∃ precision, hints.find? name = some precision) ∨
    (∃ bareName precision, name = samplerMark ++ bareName ∧ hints.find? name = none ∧
      hints.find? bareName = some precision) ∨
    hints.find? name = none ∧
      ∀ bareName, name = samplerMark ++ bareName → hints.find? bareName = none := by
  cases own : hints.find? name with
  | some precision => exact .inl ⟨precision, rfl⟩
  | none =>
      refine .inr ?_
      by_cases marked : ∃ bareName precision, name = samplerMark ++ bareName ∧
          hints.find? bareName = some precision
      · obtain ⟨bareName, precision, same, found⟩ := marked
        exact .inl ⟨bareName, precision, same, rfl, found⟩
      · refine .inr ⟨rfl, fun bareName same => ?_⟩
        cases found : hints.find? bareName with
        | none => rfl
        | some precision => exact absurd ⟨bareName, precision, same, found⟩ marked

/-- A look-up reads the hint of the name and, if there is none, the hint of the bare name. -/
theorem lookup_congr (own : left.find? name = right.find? name)
    (bare : right.find? name = none → ∀ bareName, name = samplerMark ++ bareName →
      left.find? bareName = right.find? bareName) :
    left.lookup name = right.lookup name := by
  rw [lookup, lookup, own]
  cases absent : right.find? name with
  | some precision => rfl
  | none =>
      cases stripped : bareName? name with
      | none => rfl
      | some bareName =>
          simp only [bare absent bareName (bareName?_eq_some_iff.mp stripped)]

/-- A new hint is found under its own name. -/
theorem lookup_insert_self (name : String) (precision : Precision) (hints : PrecisionHints) :
    (hints.insert name precision).lookup name = ⟨some precision, []⟩ :=
  lookup_of_found (by rw [find?_insert, if_pos rfl])

/-- A new hint serves the sampler named after it if that has no hint itself. -/
theorem lookup_insert_marked (absent : hints.find? (samplerMark ++ name) = none)
    (precision : Precision) :
    (hints.insert name precision).lookup (samplerMark ++ name) =
      ⟨some precision, [.hintUnderBareName (samplerMark ++ name) name]⟩ := by
  apply lookup_of_bare
  · rw [find?_insert, if_neg (ne_samplerMark_append name), absent]
  · rw [find?_insert, if_pos rfl]

/-- A new hint serves nothing else. -/
theorem lookup_insert_of_ne {other : String} (elsewhere : other ≠ name)
    (unserved : other = samplerMark ++ name → hints.find? other ≠ none) (precision : Precision) :
    (hints.insert name precision).lookup other = hints.lookup other := by
  apply lookup_congr
  · rw [find?_insert, if_neg elsewhere.symm]
  · rintro absent bareName rfl
    -- Without a hint of its own the name is not the new one with a marking.
    have further : name ≠ bareName := by
      rintro rfl
      exact unserved rfl absent
    rw [find?_insert, if_neg further]

/-- The hints are those that a history of hints leaves behind. -/
structure Records (history : List (String × Precision)) (hints : PrecisionHints) : Prop where
  /-- The hint of a name is the last one put in under it. -/
  find?_eq : ∀ name, hints.find? name = latest? name history
  /-- There is one hint for each name put in. -/
  size_eq : hints.size = (history.map Prod.fst).toFinset.card

theorem records_empty : Records [] empty := by
  refine ⟨fun name => ?_, ?_⟩
  · rw [find?_empty]
    rfl
  · simp [size, empty]

theorem Records.mem_iff (records : Records history hints) (name : String) :
    name ∈ hints.byName ↔ name ∈ history.map Prod.fst := by
  have absent : hints.find? name = none ↔ name ∉ history.map Prod.fst := by
    rw [records.find?_eq, latest?_eq_none_iff]
  rw [Std.HashMap.mem_iff_isSome_getElem?, ← not_iff_not, ← absent]
  simp [find?]

theorem Records.insert (records : Records history hints) (name : String) (precision : Precision) :
    Records (history ++ [(name, precision)]) (hints.insert name precision) := by
  refine ⟨fun other => ?_, ?_⟩
  · rw [find?_insert, latest?_concat, records.find?_eq]
  · have grown : (hints.insert name precision).size =
        if name ∈ hints.byName then hints.size else hints.size + 1 :=
      Std.HashMap.size_insert
    simp only [grown, List.map_append, List.map_singleton, card_toFinset_concat, records.mem_iff,
      records.size_eq]

theorem Records.foldl_insert (records : Records history hints)
    (further : List (String × Precision)) :
    Records (history ++ further)
      (further.foldl (fun hints (name, precision) => hints.insert name precision) hints) := by
  induction further generalizing history hints with
  | nil => rwa [List.append_nil]
  | cons entry rest induction =>
      have grown := induction (records.insert entry.1 entry.2)
      rwa [List.append_assoc] at grown

/-- The hints after one more step. -/
def after (hints : PrecisionHints) : HintStep → PrecisionHints
  | .insert name precision => hints.insert name precision
  | .replace name precision => (hints.replace name precision).2

/-- The hints after a list of them is collected and more are put in step by step. -/
def ofHistory (collected : List (String × Precision)) (steps : List HintStep) : PrecisionHints :=
  steps.foldl after (ofList collected)

theorem records_ofHistory (collected : List (String × Precision)) (steps : List HintStep) :
    Records (collected ++ steps.map HintStep.entry) (ofHistory collected steps) := by
  have stepwise : ofHistory collected steps = (steps.map HintStep.entry).foldl
      (fun hints (name, precision) => hints.insert name precision) (ofList collected) := by
    rw [ofHistory, List.foldl_map]
    congr
    funext hints step
    cases step <;> rfl
  rw [stepwise]
  exact (records_empty.foldl_insert collected).foldl_insert _

/-- A look-up answers with the last hint of the name and, if there never was one, with the last hint
of the name without its one leading marking. A new hint is told what it replaces and changes what is
found under two names at most. -/
theorem lookup_ofHistory (collected : List (String × Precision)) (steps : List HintStep) :
    let history := collected ++ steps.map HintStep.entry
    let hints := ofHistory collected steps
    (∀ name precision, latest? name history = some precision →
      (hints.lookup name).value = some precision) ∧
    (∀ bareName, latest? ("sampler" ++ bareName) history = none →
      (hints.lookup ("sampler" ++ bareName)).value = latest? bareName history) ∧
    (∀ name, latest? name history = none → (∀ bareName, name ≠ "sampler" ++ bareName) →
      (hints.lookup name).value = none) ∧
    hints.size = (history.map Prod.fst).toFinset.card ∧
    ∀ name precision,
      hints.replace name precision = (latest? name history, hints.insert name precision) ∧
      ((hints.insert name precision).lookup name).value = some precision ∧
      (latest? ("sampler" ++ name) history = none →
        ((hints.insert name precision).lookup ("sampler" ++ name)).value = some precision) ∧
      ∀ other, other ≠ name → (other = "sampler" ++ name → latest? other history ≠ none) →
        (hints.insert name precision).lookup other = hints.lookup other := by
  intro history hints
  obtain ⟨find?_eq, size_eq⟩ : Records history hints := records_ofHistory collected steps
  simp only [← find?_eq]
  refine ⟨fun name precision found => ?_, fun bareName absent => ?_, fun name absent unmarked => ?_,
    size_eq, fun name precision => ⟨rfl, ?_, fun absent => ?_, fun other elsewhere unserved => ?_⟩⟩
  · rw [lookup_of_found found]
  · cases found : hints.find? bareName with
    | some precision => exact congrArg Logged.value (lookup_of_bare absent found)
    | none =>
        refine congrArg Logged.value (lookup_of_missed absent fun other same => ?_)
        rwa [← (String.append_right_inj samplerMark).mp same]
  · rw [lookup_of_missed absent fun bareName marked => absurd marked (unmarked bareName)]
  · rw [lookup_insert_self]
  · exact congrArg Logged.value (lookup_insert_marked absent precision)
  · exact lookup_insert_of_ne elsewhere unserved precision

/-- Hints for a texture, put in twice, for its sampler and for no name at all. -/
def albedoHints : List (String × Precision) :=
  [("Albedo", .low), ("samplerAlbedo", .high), ("Albedo", .medium), ("", .low)]

/-- Hints for another sampler and, after it, for its texture. -/
def shadowSteps : List HintStep := [.replace "samplerShadow" .high, .insert "Shadow" .low]

theorem lookup_ofHistory_albedoHints :
    let history := albedoHints ++ shadowSteps.map HintStep.entry
    let hints := ofHistory albedoHints shadowSteps
    (latest? "Albedo" history = some .medium ∧
      (hints.lookup "Albedo").value = some .medium) ∧
    (latest? ("sampler" ++ "samplerAlbedo") history = none ∧
      (hints.lookup ("sampler" ++ "samplerAlbedo")).value = some .high) ∧
    (latest? ("sampler" ++ "") history = none ∧
      (hints.lookup ("sampler" ++ "")).value = some .low) ∧
    (latest? "SamplerShadow" history = none ∧
      (∀ bareName, "SamplerShadow" ≠ "sampler" ++ bareName) ∧
      (hints.lookup "SamplerShadow").value = none) ∧
    hints.size = 5 ∧
    hints.replace "Shadow" .medium = (some .low, hints.insert "Shadow" .medium) ∧
    (latest? ("sampler" ++ "Normal") history = none ∧
      ((hints.insert "Normal" .high).lookup ("sampler" ++ "Normal")).value = some .high) ∧
    "samplerShadow" ≠ "Shadow" ∧ latest? "samplerShadow" history ≠ none ∧
    (hints.insert "Shadow" .medium).lookup "samplerShadow" = hints.lookup "samplerShadow" := by
  intro history hints
  have own : latest? "Albedo" history = some .medium := by decide
  have twice : latest? ("sampler" ++ "samplerAlbedo") history = none := by decide
  have bare : latest? ("sampler" ++ "") history = none := by decide
  have capital : latest? "SamplerShadow" history = none := by decide
  have unmarked : ∀ bareName, "SamplerShadow" ≠ "sampler" ++ bareName := by
    intro bareName marked
    have stripped := bareName?_eq_some_iff.mpr marked
    exact absurd stripped (by simp [bareName?, samplerMark])
  have new : latest? ("sampler" ++ "Normal") history = none := by decide
  have other : "samplerShadow" ≠ "Shadow" := by decide
  have hinted : latest? "samplerShadow" history ≠ none := by decide
  obtain ⟨named, marked, unknown, size, inserted⟩ := lookup_ofHistory albedoHints shadowSteps
  obtain ⟨replaced, -, -, elsewhere⟩ := inserted "Shadow" .medium
  obtain ⟨-, -, served, -⟩ := inserted "Normal" .high
  exact ⟨⟨own, named _ _ own⟩, ⟨twice, marked _ twice⟩, ⟨bare, marked _ bare⟩,
    ⟨capital, unmarked, unknown _ capital unmarked⟩, size, replaced, ⟨new, served new⟩, other,
    hinted, elsewhere _ other fun _ => hinted⟩

end PrecisionHints
end ShaderInterface
