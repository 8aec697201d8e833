import ShaderInterface.Proofs.Signature.PatchConstant

/-!
# Locality of signature look-ups

A look-up reads the entries at its register, and for outputs on its stream, in their order. Entries
elsewhere matter in one way only: the final entry of the patch constants never stands in, so it
counts whether that entry is held by the register.
-/

namespace ShaderInterface

open Declared

/-- The entries at a register. -/
def heldBy (register : UInt32) (entries : List SignatureElement) : List SignatureElement :=
  entries.filter (·.register = register)

/-- The entries at a register on a stream. -/
def heldOn (register stream : UInt32) (entries : List SignatureElement) : List SignatureElement :=
  entries.filter fun element => element.register = register && element.stream = stream

/-- The final entry is held by the register. -/
def EndsAt (register : UInt32) (entries : List SignatureElement) : Prop :=
  ∃ final, entries.getLast? = some final ∧ final.register = register

/-- The entry that an answer names, wherever it is declared. -/
def answered (answer : Except QueryError (Option (Declared SignatureElement))) :
    Except QueryError (Option SignatureElement) :=
  answer.map (Option.map Declared.entry)

section EndsAt

variable {register : UInt32} {left right front extra back : List SignatureElement}

theorem not_endsAt_nil : ¬EndsAt register [] := nofun

theorem endsAt_concat {final : SignatureElement} :
    EndsAt register (front ++ [final]) ↔ final.register = register := by
  simp [EndsAt]

/-- Without the final entry the register holds one entry less if it holds that one. -/
theorem heldBy_dropLast (register : UInt32) (entries : List SignatureElement) :
    (EndsAt register entries → heldBy register entries.dropLast =
      (heldBy register entries).dropLast) ∧
    (¬EndsAt register entries → heldBy register entries.dropLast = heldBy register entries) := by
  rcases List.eq_nil_or_concat entries with rfl | ⟨front, final, rfl⟩
  · exact ⟨fun ends => absurd ends not_endsAt_nil, fun _ => rfl⟩
  · rw [List.concat_eq_append, endsAt_concat, heldBy, heldBy, List.dropLast_concat,
      List.filter_append]
    exact ⟨fun held => by simp [held], fun other => by simp [other]⟩

theorem heldBy_dropLast_congr (same : heldBy register left = heldBy register right)
    (ends : EndsAt register left ↔ EndsAt register right) :
    heldBy register left.dropLast = heldBy register right.dropLast := by
  by_cases leftEnds : EndsAt register left
  · rw [(heldBy_dropLast register left).1 leftEnds,
      (heldBy_dropLast register right).1 (ends.mp leftEnds), same]
  · rw [(heldBy_dropLast register left).2 leftEnds,
      (heldBy_dropLast register right).2 (mt ends.mpr leftEnds), same]

theorem heldBy_middle (elsewhere : ∀ element ∈ extra, element.register ≠ register)
    (front back : List SignatureElement) :
    heldBy register (front ++ extra ++ back) = heldBy register (front ++ back) := by
  have nothing : extra.filter (·.register = register) = [] :=
    List.filter_eq_nil_iff.mpr fun element isExtra => by simp [elsewhere element isExtra]
  simp [heldBy, nothing]

theorem heldOn_middle {stream : UInt32}
    (elsewhere : ∀ element ∈ extra, element.register ≠ register ∨ element.stream ≠ stream)
    (front back : List SignatureElement) :
    heldOn register stream (front ++ extra ++ back) = heldOn register stream (front ++ back) := by
  have nothing : extra.filter (fun element =>
      element.register = register && element.stream = stream) = [] :=
    List.filter_eq_nil_iff.mpr fun element isExtra => by
      rcases elsewhere element isExtra with other | other <;> simp [other]
  simp [heldOn, nothing]

/-- Entries elsewhere change whether a list ends at a register only if they are put at its end. -/
theorem endsAt_middle (elsewhere : ∀ element ∈ extra, element.register ≠ register)
    (inside : ¬(back = [] ∧ extra ≠ [] ∧ EndsAt register front)) :
    EndsAt register (front ++ extra ++ back) ↔ EndsAt register (front ++ back) := by
  rcases List.eq_nil_or_concat back with rfl | ⟨back, final, rfl⟩
  · rcases List.eq_nil_or_concat extra with rfl | ⟨extra, final, rfl⟩
    · simp
    · have front_ends : ¬EndsAt register front := fun ends => inside ⟨rfl, by simp, ends⟩
      have final_elsewhere : final.register ≠ register := elsewhere final (by simp)
      rw [List.append_nil, List.append_nil, List.concat_eq_append, ← List.append_assoc,
        endsAt_concat]
      exact iff_of_false final_elsewhere front_ends
  · rw [List.concat_eq_append, ← List.append_assoc, ← List.append_assoc, endsAt_concat,
      endsAt_concat]

end EndsAt

/-- Only entries at a register cover components there. -/
theorem entry_covering_congr {register : UInt32} {mask : ComponentMask}
    {left right : List SignatureElement} (same : heldBy register left = heldBy register right) :
    (first? (·.covers register mask) left).map Declared.entry =
      (first? (·.covers register mask) right).map Declared.entry :=
  entry_first?_congr
    (fun _ covers => decide_eq_true (SignatureElement.covers_iff.mp covers).1) same

theorem answered_orMissing (allowMissing : Bool) (failure : QueryError)
    (found : Option (Declared SignatureElement)) :
    answered (orMissing allowMissing failure found) =
      orMissing allowMissing failure (found.map Declared.entry) := by
  cases found <;> cases allowMissing <;> rfl

namespace Signatures

variable {left right : Signatures} {register stream : UInt32} {mask : ComponentMask}
  {allowMissing : Bool}

theorem answered_findInput_congr
    (same : heldBy register left.inputs = heldBy register right.inputs) :
    answered (left.findInput register mask allowMissing) =
      answered (right.findInput register mask allowMissing) := by
  rw [findInput, findInput, answered_orMissing, answered_orMissing, entry_covering_congr same]

theorem answered_findOutput_congr
    (same : heldOn register stream left.outputs = heldOn register stream right.outputs) :
    answered (left.findOutput register mask stream allowMissing) =
      answered (right.findOutput register mask stream allowMissing) := by
  have kept : ∀ element : SignatureElement, element.overlaps register mask stream →
      element.register = register && element.stream = stream := by
    intro element overlaps
    simpa using (SignatureElement.overlaps_iff.mp overlaps).2
  rw [findOutput, findOutput]
  by_cases empty : mask.isEmpty
  · rw [if_pos empty, if_pos empty]
  · rw [if_neg empty, if_neg empty, answered_orMissing, answered_orMissing,
      entry_first?_congr kept same]

/-- The answer that names the entry which covers the components or the one which stands in. -/
def patchConstantAnswer (register : UInt32) (mask : ComponentMask) (allowMissing : Bool) :
    Option SignatureElement → Option SignatureElement →
      Logged (Except QueryError (Option SignatureElement))
  | some covering, _ => ⟨.ok (some covering), []⟩
  | none, some widened =>
      ⟨.ok (some widened), [.patchConstantWidened register mask widened.mask widened.semantic]⟩
  | none, none => ⟨orMissing allowMissing (.missingPatchConstant register mask) none, []⟩

theorem answered_findPatchConstant (register : UInt32) (mask : ComponentMask)
    (allowMissing : Bool) (signatures : Signatures) :
    answered <$> signatures.findPatchConstant register mask allowMissing =
      patchConstantAnswer register mask allowMissing
        ((first? (·.covers register mask) signatures.patchConstants).map Declared.entry)
        ((signatures.patchConstantFallback? register).map Declared.entry) := by
  rw [findPatchConstant]
  cases first? (·.covers register mask) signatures.patchConstants with
  | some covering => rfl
  | none =>
      cases signatures.patchConstantFallback? register with
      | some widened => rfl
      | none => exact congrArg (Logged.mk · []) (answered_orMissing allowMissing _ none)

theorem answered_findPatchConstant_congr
    (same : heldBy register left.patchConstants = heldBy register right.patchConstants)
    (ends : EndsAt register left.patchConstants ↔ EndsAt register right.patchConstants) :
    answered <$> left.findPatchConstant register mask allowMissing =
      answered <$> right.findPatchConstant register mask allowMissing := by
  have fallback : (left.patchConstantFallback? register).map Declared.entry =
      (right.patchConstantFallback? register).map Declared.entry :=
    entry_last?_congr (heldBy_dropLast_congr same ends)
  rw [answered_findPatchConstant, answered_findPatchConstant, entry_covering_congr same, fallback]

/-- Look-ups in two signatures with the same entries at a register, and on a stream, give the same
entries, and the same reports, if for patch constants the final entries are both held by the
register or both not. Entries elsewhere therefore change the answer for a patch constant only if
they are put behind a final entry at its register, and no other answer at all. -/
theorem lookups_local (left right : Signatures) (register : UInt32) (mask : ComponentMask)
    (allowMissing : Bool) :
    (heldBy register left.inputs = heldBy register right.inputs →
      answered (left.findInput register mask allowMissing) =
        answered (right.findInput register mask allowMissing)) ∧
    (∀ stream, heldOn register stream left.outputs = heldOn register stream right.outputs →
      answered (left.findOutput register mask stream allowMissing) =
        answered (right.findOutput register mask stream allowMissing)) ∧
    (heldBy register left.patchConstants = heldBy register right.patchConstants →
      (EndsAt register left.patchConstants ↔ EndsAt register right.patchConstants) →
      answered <$> left.findPatchConstant register mask allowMissing =
        answered <$> right.findPatchConstant register mask allowMissing) ∧
    ∀ front extra back : List SignatureElement,
      ((∀ element ∈ extra, element.register ≠ register) →
        answered ({ left with inputs := front ++ extra ++ back }.findInput register mask
            allowMissing) =
          answered ({ left with inputs := front ++ back }.findInput register mask allowMissing)) ∧
      (∀ stream, (∀ element ∈ extra, element.register ≠ register ∨ element.stream ≠ stream) →
        answered ({ left with outputs := front ++ extra ++ back }.findOutput register mask stream
            allowMissing) =
          answered ({ left with outputs := front ++ back }.findOutput register mask stream
            allowMissing)) ∧
      ((∀ element ∈ extra, element.register ≠ register) →
        answered <$> { left with patchConstants := front ++ extra ++ back }.findPatchConstant
            register mask allowMissing ≠
          answered <$> { left with patchConstants := front ++ back }.findPatchConstant register mask
            allowMissing →
        back = [] ∧ extra ≠ [] ∧ EndsAt register front) := by
  refine ⟨answered_findInput_congr, fun stream => answered_findOutput_congr,
    answered_findPatchConstant_congr, fun front extra back => ⟨?_, ?_, ?_⟩⟩
  · exact fun elsewhere => answered_findInput_congr (heldBy_middle elsewhere front back)
  · exact fun stream elsewhere => answered_findOutput_congr (heldOn_middle elsewhere front back)
  · intro elsewhere changed
    apply Classical.byContradiction
    intro inside
    exact changed (answered_findPatchConstant_congr (heldBy_middle elsewhere front back)
      (endsAt_middle elsewhere inside))

/-- An element that is nothing special for the pipeline. -/
def plainElement (semantic : String) (register : UInt32) (components : UInt8) (stream : UInt32) :
    SignatureElement := ⟨semantic, 0, .undefined, register, ⟨components⟩, stream⟩

/-- Signatures with one register in use on two streams. -/
def streamSignatures : Signatures :=
  ⟨[plainElement "POSITION" 0 0b0111 0, plainElement "COLOR" 1 0b1111 0],
    [plainElement "COLOR" 1 0b0011 0, plainElement "COLOR" 1 0b0011 1],
    [plainElement "EDGE" 0 0b0001 0, plainElement "INSIDE" 0 0b0010 0]⟩

/-- The same signatures with entries at other registers and on other streams among them. -/
def crowdedSignatures : Signatures :=
  ⟨[plainElement "NORMAL" 2 0b1111 0, plainElement "COLOR" 1 0b1111 0],
    [plainElement "COLOR" 1 0b1100 2, plainElement "COLOR" 1 0b0011 1,
      plainElement "FOG" 3 0b0001 1],
    [plainElement "PATCH" 1 0b1111 0, plainElement "EDGE" 0 0b0001 0,
      plainElement "INSIDE" 0 0b0010 0]⟩

theorem lookups_local_streamSignatures :
    let final := [plainElement "PATCH" 1 0b1111 0]
    let entries := streamSignatures.patchConstants
    (heldBy 1 streamSignatures.inputs = heldBy 1 crowdedSignatures.inputs ∧
      answered (streamSignatures.findInput 1 ⟨0b0011⟩ false) =
        answered (crowdedSignatures.findInput 1 ⟨0b0011⟩ false)) ∧
    (heldOn 1 1 streamSignatures.outputs = heldOn 1 1 crowdedSignatures.outputs ∧
      answered (streamSignatures.findOutput 1 ⟨0b0110⟩ 1 false) =
        answered (crowdedSignatures.findOutput 1 ⟨0b0110⟩ 1 false)) ∧
    (heldBy 0 streamSignatures.patchConstants = heldBy 0 crowdedSignatures.patchConstants ∧
      EndsAt 0 streamSignatures.patchConstants ∧ EndsAt 0 crowdedSignatures.patchConstants ∧
      answered <$> streamSignatures.findPatchConstant 0 ⟨0b0100⟩ false =
        answered <$> crowdedSignatures.findPatchConstant 0 ⟨0b0100⟩ false) ∧
    ((∀ element ∈ final, element.register ≠ 0) ∧
      answered ({ streamSignatures with inputs := entries ++ final ++ [] }.findInput 0 ⟨0b0010⟩
          false) =
        answered ({ streamSignatures with inputs := entries ++ [] }.findInput 0 ⟨0b0010⟩ false)) ∧
    ((∀ element ∈ final, element.register ≠ 0 ∨ element.stream ≠ 0) ∧
      answered ({ streamSignatures with outputs := entries ++ final ++ [] }.findOutput 0 ⟨0b0010⟩ 0
          false) =
        answered ({ streamSignatures with outputs := entries ++ [] }.findOutput 0 ⟨0b0010⟩ 0
          false)) ∧
    (answered <$>
        { streamSignatures with patchConstants := entries ++ final ++ [] }.findPatchConstant 0
          ⟨0b0100⟩ false) ≠
      answered <$> { streamSignatures with patchConstants := entries ++ [] }.findPatchConstant 0
        ⟨0b0100⟩ false ∧
    EndsAt 0 entries := by
  intro final entries
  have inputs : heldBy 1 streamSignatures.inputs = heldBy 1 crowdedSignatures.inputs := rfl
  have outputs : heldOn 1 1 streamSignatures.outputs = heldOn 1 1 crowdedSignatures.outputs := rfl
  have patches : heldBy 0 streamSignatures.patchConstants =
      heldBy 0 crowdedSignatures.patchConstants := rfl
  have ends : EndsAt 0 streamSignatures.patchConstants := ⟨_, rfl, rfl⟩
  have crowded_ends : EndsAt 0 crowdedSignatures.patchConstants := ⟨_, rfl, rfl⟩
  have elsewhere : ∀ element ∈ final, element.register ≠ 0 := by decide
  have otherStream : ∀ element ∈ final, element.register ≠ 0 ∨ element.stream ≠ 0 := by decide
  have changed : answered <$>
        { streamSignatures with patchConstants := entries ++ final ++ [] }.findPatchConstant 0
          ⟨0b0100⟩ false ≠
      answered <$> { streamSignatures with patchConstants := entries ++ [] }.findPatchConstant 0
        ⟨0b0100⟩ false := by
    intro same
    have semantics := congrArg (·.events.map Event.fields) same
    exact absurd semantics (by decide)
  obtain ⟨input, -, -, -⟩ := lookups_local streamSignatures crowdedSignatures 1 ⟨0b0011⟩ false
  obtain ⟨-, output, -, -⟩ := lookups_local streamSignatures crowdedSignatures 1 ⟨0b0110⟩ false
  obtain ⟨-, -, patch, added⟩ := lookups_local streamSignatures crowdedSignatures 0 ⟨0b0100⟩ false
  obtain ⟨-, -, -, further⟩ := lookups_local streamSignatures crowdedSignatures 0 ⟨0b0010⟩ false
  exact ⟨⟨inputs, input inputs⟩, ⟨outputs, output 1 outputs⟩,
    ⟨patches, ends, crowded_ends, patch patches (iff_of_true ends crowded_ends)⟩,
    ⟨elsewhere, (further entries final []).1 elsewhere⟩,
    ⟨otherStream, (further entries final []).2.1 0 otherStream⟩, changed,
    ((added entries final []).2.2 elsewhere changed).2.2⟩

end Signatures
end ShaderInterface
