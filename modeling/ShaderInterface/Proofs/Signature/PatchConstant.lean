import ShaderInterface.Proofs.Selection
import ShaderInterface.Signature.Signatures

/-!
# Patch constants

A patch constant is looked up like an input first. If no entry declares all requested components,
the latest entry at the register stands in, but never the final entry of the signature. Which entry
that is does not depend on the requested components.
-/

namespace ShaderInterface

open Declared

/-- The report that an entry is taken for more components than it declares. -/
def wideningEvent (register : UInt32) (mask : ComponentMask)
    (declared : Declared SignatureElement) : Event :=
  .patchConstantWidened register mask declared.entry.mask declared.entry.semantic

/-- No entry declares all the components at a register. -/
def Uncovered (register : UInt32) (mask : ComponentMask) (entries : List SignatureElement) : Prop :=
  ∀ element ∈ entries, ¬element.covers register mask

instance (register : UInt32) (mask : ComponentMask) (entries : List SignatureElement) :
    Decidable (Uncovered register mask entries) := List.decidableBAll _ entries

/-- The latest entry at a register that another entry of the list follows. -/
structure StandsIn (register : UInt32) (entries : List SignatureElement)
    (declared : Declared SignatureElement) : Prop where
  /-- The entry is declared at its position. -/
  isDeclared : declared ∈ all entries
  /-- The entry is not the final one. -/
  followed : declared.position + 1 < entries.length
  /-- The entry is held by the register. -/
  register_eq : declared.entry.register = register
  /-- All other such entries come before it. -/
  latest : ∀ other ∈ all entries, other.position + 1 < entries.length →
    other.entry.register = register → other.position ≤ declared.position

/-- The possible outcomes of a look-up of patch constants. -/
inductive PatchConstantOutcome (register : UInt32) (mask : ComponentMask) (allowMissing : Bool)
    (entries : List SignatureElement) :
    Logged (Except QueryError (Option (Declared SignatureElement))) → Prop where
  /-- The earliest entry that declares all the components is taken. -/
  | covering (declared : Declared SignatureElement)
      (isFirst : IsFirst (·.covers register mask) entries declared) :
      PatchConstantOutcome register mask allowMissing entries ⟨.ok (some declared), []⟩
  /-- Another entry at the register is taken and reported. -/
  | widened (uncovered : Uncovered register mask entries)
      (declared : Declared SignatureElement) (standsIn : StandsIn register entries declared) :
      PatchConstantOutcome register mask allowMissing entries
        ⟨.ok (some declared), [wideningEvent register mask declared]⟩
  /-- Nothing is taken. -/
  | absent (uncovered : Uncovered register mask entries)
      (unheld : ∀ element ∈ entries.dropLast, element.register ≠ register) :
      PatchConstantOutcome register mask allowMissing entries
        ⟨if allowMissing then .ok none else .error (.missingPatchConstant register mask), []⟩

section StandsIn

variable {register : UInt32} {mask : ComponentMask} {entries further : List SignatureElement}
  {declared other : Declared SignatureElement}

theorem standsIn_iff :
    StandsIn register entries declared ↔
      IsLast (·.register = register) entries.dropLast declared := by
  constructor
  · rintro ⟨isDeclared, followed, register_eq, latest⟩
    refine ⟨mem_all_dropLast_iff.mpr ⟨isDeclared, followed⟩, by simpa using register_eq, ?_⟩
    intro other isOther held
    rw [mem_all_dropLast_iff] at isOther
    exact latest other isOther.1 isOther.2 (by simpa using held)
  · rintro ⟨isDeclared, held, latest⟩
    rw [mem_all_dropLast_iff] at isDeclared
    refine ⟨isDeclared.1, isDeclared.2, by simpa using held, ?_⟩
    intro other isOther followed register_eq
    exact latest other (mem_all_dropLast_iff.mpr ⟨isOther, followed⟩) (by simpa using register_eq)

theorem StandsIn.unique (first : StandsIn register entries declared)
    (second : StandsIn register entries other) : declared = other :=
  (standsIn_iff.mp first).unique (standsIn_iff.mp second)

/-- Behind further entries the entry is not the final one either. -/
theorem StandsIn.mem_dropLast_append (standsIn : StandsIn register entries declared)
    (further : List SignatureElement) : declared.entry ∈ (entries ++ further).dropLast := by
  refine entry_mem (mem_all_dropLast_iff.mpr ⟨mem_all_append_left standsIn.isDeclared, ?_⟩)
  rw [List.length_append]
  exact Nat.lt_add_right _ standsIn.followed

theorem StandsIn.mem_dropLast (standsIn : StandsIn register entries declared) :
    declared.entry ∈ entries.dropLast := by
  simpa using standsIn.mem_dropLast_append []

theorem not_uncovered_of_isFirst (isFirst : IsFirst (·.covers register mask) entries declared) :
    ¬Uncovered register mask entries :=
  fun uncovered => uncovered _ (entry_mem isFirst.isDeclared) isFirst.accepted

end StandsIn

/-- The entries of a signature leave a look-up one outcome. -/
theorem PatchConstantOutcome.unique {register : UInt32} {mask : ComponentMask}
    {allowMissing : Bool} {entries : List SignatureElement}
    {first second : Logged (Except QueryError (Option (Declared SignatureElement)))}
    (isFirst : PatchConstantOutcome register mask allowMissing entries first)
    (isSecond : PatchConstantOutcome register mask allowMissing entries second) :
    first = second := by
  cases isFirst with
  | covering declared covers =>
      cases isSecond with
      | covering other furtherCovers => rw [covers.unique furtherCovers]
      | widened uncovered => exact absurd uncovered (not_uncovered_of_isFirst covers)
      | absent uncovered => exact absurd uncovered (not_uncovered_of_isFirst covers)
  | widened uncovered declared standsIn =>
      cases isSecond with
      | covering other covers => exact absurd uncovered (not_uncovered_of_isFirst covers)
      | widened _ other furtherStandsIn => rw [standsIn.unique furtherStandsIn]
      | absent _ unheld => exact absurd standsIn.register_eq (unheld _ standsIn.mem_dropLast)
  | absent uncovered unheld =>
      cases isSecond with
      | covering other covers => exact absurd uncovered (not_uncovered_of_isFirst covers)
      | widened _ other standsIn =>
          exact absurd standsIn.register_eq (unheld _ standsIn.mem_dropLast)
      | absent => rfl

namespace Signatures

variable {register : UInt32} {mask : ComponentMask} {allowMissing : Bool}
  {signatures : Signatures} {declared : Declared SignatureElement}

theorem patchConstantFallback?_eq_some_iff :
    signatures.patchConstantFallback? register = some declared ↔
      StandsIn register signatures.patchConstants declared :=
  last?_eq_some_iff.trans standsIn_iff.symm

theorem patchConstantFallback?_eq_none_iff :
    signatures.patchConstantFallback? register = none ↔
      ∀ element ∈ signatures.patchConstants.dropLast, element.register ≠ register := by
  rw [patchConstantFallback?, last?_eq_none_iff]
  simp only [decide_eq_true_eq, ne_eq]

/-- A look-up of patch constants has one of the three outcomes. -/
theorem outcome_findPatchConstant (register : UInt32) (mask : ComponentMask) (allowMissing : Bool)
    (signatures : Signatures) :
    PatchConstantOutcome register mask allowMissing signatures.patchConstants
      (signatures.findPatchConstant register mask allowMissing) := by
  rw [findPatchConstant]
  cases covering : first? (·.covers register mask) signatures.patchConstants with
  | some declared => exact .covering declared (isFirst_of_first? covering)
  | none =>
      have uncovered : Uncovered register mask signatures.patchConstants :=
        first?_eq_none_iff.mp covering
      cases fallback : signatures.patchConstantFallback? register with
      | some declared =>
          exact .widened uncovered declared (patchConstantFallback?_eq_some_iff.mp fallback)
      | none =>
          dsimp only
          rw [orMissing_none]
          exact .absent uncovered (patchConstantFallback?_eq_none_iff.mp fallback)

theorem findPatchConstant_eq
    {answer : Logged (Except QueryError (Option (Declared SignatureElement)))}
    (outcome : PatchConstantOutcome register mask allowMissing signatures.patchConstants answer) :
    signatures.findPatchConstant register mask allowMissing = answer :=
  (outcome_findPatchConstant register mask allowMissing signatures).unique outcome

/-- What is found declares all the components or stands in. -/
theorem isFirst_or_standsIn_of_findPatchConstant
    (found : (signatures.findPatchConstant register mask allowMissing).value =
      .ok (some declared)) :
    IsFirst (·.covers register mask) signatures.patchConstants declared ∨
      Uncovered register mask signatures.patchConstants ∧
        StandsIn register signatures.patchConstants declared := by
  have outcome := outcome_findPatchConstant register mask allowMissing signatures
  generalize signatures.findPatchConstant register mask allowMissing = answer at found outcome
  cases outcome with
  | covering other isFirst =>
      obtain rfl := Option.some.inj (Except.ok.inj found)
      exact .inl isFirst
  | widened uncovered other standsIn =>
      obtain rfl := Option.some.inj (Except.ok.inj found)
      exact .inr ⟨uncovered, standsIn⟩
  | absent => cases allowMissing <;> cases found

/-- A look-up finds nothing only if no entry covers the components and no entry but the final one
is held by the register. -/
theorem value_findPatchConstant_iff (register : UInt32) (mask : ComponentMask)
    (allowMissing : Bool) (signatures : Signatures) :
    let value := (signatures.findPatchConstant register mask allowMissing).value
    let nothing := Uncovered register mask signatures.patchConstants ∧
      ∀ element ∈ signatures.patchConstants.dropLast, element.register ≠ register
    (value = .ok none ↔ allowMissing ∧ nothing) ∧
      ∀ failure, value = .error failure ↔
        ¬allowMissing ∧ nothing ∧ failure = .missingPatchConstant register mask := by
  intro value nothing
  have outcome := outcome_findPatchConstant register mask allowMissing signatures
  simp only [value]
  generalize signatures.findPatchConstant register mask allowMissing = answer at outcome
  cases outcome with
  | covering declared isFirst =>
      have something : ¬nothing := fun ⟨uncovered, _⟩ => not_uncovered_of_isFirst isFirst uncovered
      simp [something]
  | widened uncovered declared standsIn =>
      have something : ¬nothing :=
        fun ⟨_, unheld⟩ => unheld _ standsIn.mem_dropLast standsIn.register_eq
      simp [something]
  | absent uncovered unheld =>
      have isNothing : nothing := ⟨uncovered, unheld⟩
      cases allowMissing <;> simp [isNothing, eq_comm]

/-- The signatures with further patch constants behind the declared ones. -/
def withPatchConstants (further : List SignatureElement) (signatures : Signatures) : Signatures :=
  { signatures with patchConstants := signatures.patchConstants ++ further }

/-- An entry that covers the components is found in any longer signature, too. -/
theorem findPatchConstant_append_of_isFirst
    (isFirst : IsFirst (·.covers register mask) signatures.patchConstants declared)
    (further : List SignatureElement) :
    (signatures.withPatchConstants further).findPatchConstant register mask allowMissing =
      signatures.findPatchConstant register mask allowMissing := by
  rw [findPatchConstant_eq (.covering declared isFirst)]
  exact findPatchConstant_eq (.covering declared (isFirst.append further))

/-- Once something is found, something is found in any longer signature. -/
theorem exists_findPatchConstant_append
    (found : (signatures.findPatchConstant register mask allowMissing).value =
      .ok (some declared)) (further : List SignatureElement) :
    ∃ later, ((signatures.withPatchConstants further).findPatchConstant register mask
      allowMissing).value = .ok (some later) := by
  rcases isFirst_or_standsIn_of_findPatchConstant found with isFirst | ⟨-, standsIn⟩
  · rw [findPatchConstant_append_of_isFirst isFirst, found]
    exact ⟨declared, rfl⟩
  · have outcome := outcome_findPatchConstant register mask allowMissing
      (signatures.withPatchConstants further)
    generalize (signatures.withPatchConstants further).findPatchConstant register mask allowMissing
      = answer at outcome
    cases outcome with
    | covering later => exact ⟨later, rfl⟩
    | widened _ later => exact ⟨later, rfl⟩
    | absent _ unheld =>
        exact absurd standsIn.register_eq (unheld _ (standsIn.mem_dropLast_append further))

/-- Patch constants are found like inputs, and silently, where an entry covers the components.
Otherwise one entry stands in, whatever the components are, and is reported. Nothing is found only
where there is neither, and further entries never make an answer an absence. -/
theorem findPatchConstant_laws (signatures : Signatures) (register : UInt32) :
    let entries := signatures.patchConstants
    let asInputs := { signatures with inputs := entries }
    let find := fun mask allowMissing => signatures.findPatchConstant register mask allowMissing
    (∀ mask allowMissing covering,
      (∃ inputsMayMiss, asInputs.findInput register mask inputsMayMiss = .ok (some covering)) →
        find mask allowMissing = ⟨.ok (some covering), []⟩) ∧
    (∃ fallback : Option (Declared SignatureElement),
      (∀ declared, fallback = some declared ↔ StandsIn register entries declared) ∧
      ∀ mask, Uncovered register mask entries → ∀ allowMissing,
        (∀ declared, fallback = some declared →
          find mask allowMissing = ⟨.ok (some declared), [wideningEvent register mask declared]⟩ ∧
          (wideningEvent register mask declared).level = .debug) ∧
        (fallback = none → find mask allowMissing =
          ⟨if allowMissing then .ok none else .error (.missingPatchConstant register mask), []⟩)) ∧
    (∀ mask allowMissing declared, (find mask allowMissing).value = .ok (some declared) →
      declared.position + 1 = entries.length → declared.entry.covers register mask) ∧
    (∀ mask (allowMissing : Bool),
      let nothing := Uncovered register mask entries ∧
        ∀ element ∈ entries.dropLast, element.register ≠ register
      ((find mask allowMissing).value = .ok none ↔ allowMissing ∧ nothing) ∧
      ∀ failure, (find mask allowMissing).value = .error failure ↔
        ¬allowMissing ∧ nothing ∧ failure = .missingPatchConstant register mask) ∧
    (∀ mask allowMissing further declared,
      let extended := signatures.withPatchConstants further
      (find mask allowMissing).value = .ok (some declared) →
        (∃ later,
          (extended.findPatchConstant register mask allowMissing).value = .ok (some later)) ∧
        (declared.entry.covers register mask →
          extended.findPatchConstant register mask allowMissing = find mask allowMissing)) := by
  intro entries asInputs find
  refine ⟨?_, ⟨signatures.patchConstantFallback? register,
    fun _ => patchConstantFallback?_eq_some_iff, ?_⟩, ?_, ?_, ?_⟩
  · rintro mask allowMissing covering ⟨inputsMayMiss, found⟩
    rw [findInput_eq_ok_some_iff] at found
    exact findPatchConstant_eq (.covering covering (isFirst_of_first? found))
  · intro mask uncovered allowMissing
    refine ⟨fun declared fallback => ⟨?_, rfl⟩, fun fallback => ?_⟩
    · rw [patchConstantFallback?_eq_some_iff] at fallback
      exact findPatchConstant_eq (.widened uncovered declared fallback)
    · rw [patchConstantFallback?_eq_none_iff] at fallback
      exact findPatchConstant_eq (.absent uncovered fallback)
  · intro mask allowMissing declared found isFinal
    rcases isFirst_or_standsIn_of_findPatchConstant found with isFirst | ⟨-, standsIn⟩
    · exact isFirst.accepted
    · exact absurd isFinal (Nat.ne_of_lt standsIn.followed)
  · exact fun mask allowMissing =>
      value_findPatchConstant_iff register mask allowMissing signatures
  · intro mask allowMissing further declared extended found
    refine ⟨exists_findPatchConstant_append found further, fun covers => ?_⟩
    rcases isFirst_or_standsIn_of_findPatchConstant found with isFirst | ⟨uncovered, standsIn⟩
    · exact findPatchConstant_append_of_isFirst isFirst further
    · exact absurd covers (uncovered _ (entry_mem standsIn.isDeclared))

/-- Signatures with three tessellation factors in one register before another patch constant. -/
def quadSignatures : Signatures :=
  let factor (index : UInt32) (components : UInt8) : SignatureElement :=
    ⟨"SV_TessFactor", index, .finalQuadEdgeTessFactor, 0, ⟨components⟩, 0⟩
  ⟨[], [], [factor 0 0b0001, factor 1 0b0010, factor 2 0b0100,
    ⟨"PATCH", 0, .undefined, 1, ⟨0b0111⟩, 0⟩]⟩

theorem findPatchConstant_laws_quadSignatures :
    let entries := quadSignatures.patchConstants
    let asInputs := { quadSignatures with inputs := entries }
    let covering : Declared SignatureElement := ⟨1, entries[1]⟩
    let widened : Declared SignatureElement := ⟨2, entries[2]⟩
    let final : Declared SignatureElement := ⟨3, entries[3]⟩
    let extended := quadSignatures.withPatchConstants [⟨"WIDE", 0, .undefined, 0, ⟨0b1111⟩, 0⟩]
    (asInputs.findInput 0 ⟨0b0010⟩ false = .ok (some covering) ∧
      quadSignatures.findPatchConstant 0 ⟨0b0010⟩ true = ⟨.ok (some covering), []⟩) ∧
    (Uncovered 0 ⟨0b1111⟩ entries ∧ StandsIn 0 entries widened ∧
      quadSignatures.findPatchConstant 0 ⟨0b1111⟩ false =
        ⟨.ok (some widened), [.patchConstantWidened 0 ⟨0b1111⟩ ⟨0b0100⟩ "SV_TessFactor"]⟩) ∧
    ((quadSignatures.findPatchConstant 1 ⟨0b0001⟩ false).value = .ok (some final) ∧
      final.position + 1 = entries.length ∧ final.entry.covers 1 ⟨0b0001⟩) ∧
    (Uncovered 1 ⟨0b1111⟩ entries ∧ (∀ element ∈ entries.dropLast, element.register ≠ 1) ∧
      (quadSignatures.findPatchConstant 1 ⟨0b1111⟩ true).value = .ok none ∧
      (quadSignatures.findPatchConstant 1 ⟨0b1111⟩ false).value =
        .error (.missingPatchConstant 1 ⟨0b1111⟩)) ∧
    (∃ later, (extended.findPatchConstant 0 ⟨0b1111⟩ false).value = .ok (some later)) ∧
    covering.entry.covers 0 ⟨0b0010⟩ ∧
    extended.findPatchConstant 0 ⟨0b0010⟩ true =
      quadSignatures.findPatchConstant 0 ⟨0b0010⟩ true := by
  intro entries asInputs covering widened final extended
  have uncovered : Uncovered 0 ⟨0b1111⟩ entries := by decide
  have patch_uncovered : Uncovered 1 ⟨0b1111⟩ entries := by decide
  have unheld : ∀ element ∈ entries.dropLast, element.register ≠ 1 := by decide
  have standsIn : StandsIn 0 entries widened := patchConstantFallback?_eq_some_iff.mp (by decide)
  have found : asInputs.findInput 0 ⟨0b0010⟩ false = .ok (some covering) := rfl
  have final_found : (quadSignatures.findPatchConstant 1 ⟨0b0001⟩ false).value =
      .ok (some final) := rfl
  have covers : covering.entry.covers 0 ⟨0b0010⟩ := by decide
  obtain ⟨silent, ⟨fallback, isFallback, reported⟩, -, -, longer⟩ :=
    findPatchConstant_laws quadSignatures 0
  obtain ⟨-, -, final_covers, absence, -⟩ := findPatchConstant_laws quadSignatures 1
  have taken := silent ⟨0b0010⟩ true covering ⟨false, found⟩
  have substituted := ((reported ⟨0b1111⟩ uncovered false).1 widened
    ((isFallback widened).mpr standsIn)).1
  exact ⟨⟨found, taken⟩, ⟨uncovered, standsIn, substituted⟩,
    ⟨final_found, rfl, final_covers _ _ _ final_found rfl⟩,
    ⟨patch_uncovered, unheld, (absence _ true).1.mpr ⟨rfl, patch_uncovered, unheld⟩,
      ((absence _ false).2 _).mpr ⟨by decide, ⟨patch_uncovered, unheld⟩, rfl⟩⟩,
    (longer _ _ _ _ (congrArg Logged.value substituted)).1, covers,
    (longer _ _ _ _ (congrArg Logged.value taken)).2 covers⟩

end Signatures
end ShaderInterface
