import ShaderInterface.Proofs.Selection
import ShaderInterface.Proofs.Signature.MaskMembership
import ShaderInterface.Signature.Signatures

/-!
# Look-ups under larger and smaller masks

An output is found through any of the requested components and an input only through all of them.
The more components are requested, the earlier an output is found and the later an input.
-/

namespace ShaderInterface

open Declared

/-- A look-up that, where nothing is found, answers with absence if that is allowed and with one
failure otherwise. -/
def FailsOnlyMissing (failure : QueryError)
    (look : Bool → Except QueryError (Option (Declared SignatureElement))) : Prop :=
  (∃ declared, ∀ allowMissing, look allowMissing = .ok (some declared)) ∨
    look true = .ok none ∧ look false = .error failure

theorem failsOnlyMissing_orMissing (failure : QueryError)
    (answer : Option (Declared SignatureElement)) :
    FailsOnlyMissing failure (orMissing · failure answer) := by
  cases answer with
  | none => exact .inr ⟨rfl, rfl⟩
  | some declared => exact .inl ⟨declared, fun allowMissing => orMissing_some allowMissing _ _⟩

namespace SignatureElement

variable {register stream : UInt32} {mask left right : ComponentMask} {element : SignatureElement}

theorem covers_of_isEmpty (empty : mask.isEmpty) (register : UInt32) (element : SignatureElement) :
    element.covers register mask = decide (element.register = register) := by
  simp [covers, ComponentMask.contains_of_isEmpty empty]

theorem covers_union :
    element.covers register (left.union right) ↔
      element.covers register left ∧ element.covers register right := by
  rw [covers_iff, covers_iff, covers_iff, ComponentMask.contains_union, and_and_left]

theorem overlaps_union (register stream : UInt32) (left right : ComponentMask)
    (element : SignatureElement) :
    element.overlaps register (left.union right) stream =
      (element.overlaps register left stream || element.overlaps register right stream) := by
  rw [Bool.eq_iff_iff, Bool.or_eq_true]
  simp only [overlaps_iff, ComponentMask.intersects_union, or_and_right]

theorem overlaps_iff_components :
    element.overlaps register mask stream ↔
      ∃ component ∈ mask.components, element.overlaps register component stream := by
  rw [overlaps_iff, ComponentMask.intersects_iff_components]
  simp only [overlaps_iff, ← and_assoc, exists_and_right]

/-- To declare all of some components is more than to declare some of them. -/
theorem overlaps_of_covers (some_bit : ¬mask.isEmpty) (onStream : element.stream = stream)
    (covers : element.covers register mask) : element.overlaps register mask stream := by
  obtain ⟨held, contained⟩ := covers_iff.mp covers
  exact overlaps_iff.mpr
    ⟨ComponentMask.intersects_of_contains contained some_bit, held, onStream⟩

end SignatureElement

namespace Signatures

variable {signatures : Signatures} {register stream : UInt32} {mask left right : ComponentMask}
  {allowMissing : Bool} {declared : Declared SignatureElement}

/-- A look-up of some component of an output is a search with a fixed failure. -/
theorem findOutput_of_not_isEmpty (some_bit : ¬mask.isEmpty) (register stream : UInt32)
    (allowMissing : Bool) (signatures : Signatures) :
    signatures.findOutput register mask stream allowMissing =
      orMissing allowMissing (.missingOutput register mask stream)
        (first? (·.overlaps register mask stream) signatures.outputs) := by
  rw [findOutput, if_neg some_bit]

theorem findOutput_eq_ok_some_iff :
    signatures.findOutput register mask stream allowMissing = .ok (some declared) ↔
      ¬mask.isEmpty ∧
        first? (·.overlaps register mask stream) signatures.outputs = some declared := by
  by_cases empty : mask.isEmpty
  · simp [findOutput, empty]
  · rw [findOutput_of_not_isEmpty empty, orMissing_eq_ok_some_iff]
    simp [empty]

/-- An output that is found through either of two masks is the earlier of what they find. -/
theorem findOutput_union (left_bit : ¬left.isEmpty) (right_bit : ¬right.isEmpty)
    (register stream : UInt32) (signatures : Signatures) :
    ∃ inLeft inRight, ∀ allowMissing,
      signatures.findOutput register left stream allowMissing =
        orMissing allowMissing (.missingOutput register left stream) inLeft ∧
      signatures.findOutput register right stream allowMissing =
        orMissing allowMissing (.missingOutput register right stream) inRight ∧
      signatures.findOutput register (left.union right) stream allowMissing =
        orMissing allowMissing (.missingOutput register (left.union right) stream)
          (inLeft.merge earlier inRight) := by
  have union_bit : ¬(left.union right).isEmpty :=
    fun empty => left_bit (ComponentMask.isEmpty_union.mp empty).1
  refine ⟨first? (·.overlaps register left stream) signatures.outputs,
    first? (·.overlaps register right stream) signatures.outputs, fun allowMissing => ⟨?_, ?_, ?_⟩⟩
  · exact findOutput_of_not_isEmpty left_bit register stream allowMissing signatures
  · exact findOutput_of_not_isEmpty right_bit register stream allowMissing signatures
  · rw [findOutput_of_not_isEmpty union_bit, ← first?_or]
    simp only [SignatureElement.overlaps_union]

/-- An output is found where the first of the single components is found. -/
theorem findOutput_iff_components (some_bit : ¬mask.isEmpty) (register stream : UInt32)
    (allowMissing : Bool) (signatures : Signatures) (declared : Declared SignatureElement) :
    let find := fun mask => signatures.findOutput register mask stream allowMissing
    find mask = .ok (some declared) ↔
      (∃ component ∈ mask.components, find component = .ok (some declared)) ∧
        ∀ component ∈ mask.components, ∀ other, find component = .ok (some other) →
          declared.position ≤ other.position := by
  intro find
  have single : ∀ component ∈ mask.components, ∀ found, find component = .ok (some found) ↔
      first? (·.overlaps register component stream) signatures.outputs = some found := by
    intro component isComponent found
    exact findOutput_eq_ok_some_iff.trans
      (and_iff_right (ComponentMask.not_isEmpty_of_mem_components isComponent))
  have hit : (∃ component ∈ mask.components, find component = .ok (some declared)) ↔
      ∃ component ∈ mask.components,
        first? (·.overlaps register component stream) signatures.outputs = some declared :=
    exists_congr fun component =>
      and_congr_right fun isComponent => single component isComponent declared
  rw [findOutput_eq_ok_some_iff, and_iff_right some_bit, hit,
    first?_eq_some_iff_choices fun _ => SignatureElement.overlaps_iff_components]
  simp +contextual only [single]

/-- An output is missing where it is missing for each single component. -/
theorem findOutput_eq_none_iff_components (some_bit : ¬mask.isEmpty) (register stream : UInt32)
    (signatures : Signatures) :
    signatures.findOutput register mask stream true = .ok none ↔
      ∀ component ∈ mask.components,
        signatures.findOutput register component stream true = .ok none := by
  have searched : ∀ mask : ComponentMask, ¬mask.isEmpty →
      (signatures.findOutput register mask stream true = .ok none ↔
        first? (·.overlaps register mask stream) signatures.outputs = none) := by
    intro mask some_bit
    rw [findOutput_of_not_isEmpty some_bit, orMissing_true, Except.ok.injEq]
  rw [searched mask some_bit,
    first?_eq_none_iff_choices fun _ => SignatureElement.overlaps_iff_components]
  refine forall_congr' fun component => forall_congr' fun isComponent => ?_
  exact (searched component (ComponentMask.not_isEmpty_of_mem_components isComponent)).symm

/-- An input that is found through two masks together is found through each of them, no later. -/
theorem exists_findInput_of_union
    (found : signatures.findInput register (left.union right) allowMissing = .ok (some declared)) :
    (∃ inLeft, signatures.findInput register left allowMissing = .ok (some inLeft) ∧
      inLeft.position ≤ declared.position) ∧
    ∃ inRight, signatures.findInput register right allowMissing = .ok (some inRight) ∧
      inRight.position ≤ declared.position := by
  simp only [findInput_eq_ok_some_iff] at found ⊢
  exact ⟨exists_first?_of_imp (fun _ _ covers => (SignatureElement.covers_union.mp covers).1) found,
    exists_first?_of_imp (fun _ _ covers => (SignatureElement.covers_union.mp covers).2) found⟩

/-- Where inputs and outputs are the same entries of one stream, some of the components are found no
later than all of them. -/
theorem exists_findOutput_of_findInput (same : signatures.inputs = signatures.outputs)
    (onStream : ∀ element ∈ signatures.outputs, element.stream = stream) (some_bit : ¬mask.isEmpty)
    (found : signatures.findInput register mask allowMissing = .ok (some declared)) :
    ∃ before, signatures.findOutput register mask stream allowMissing = .ok (some before) ∧
      before.position ≤ declared.position := by
  rw [findInput_eq_ok_some_iff, same] at found
  have weaker : ∀ element ∈ signatures.outputs,
      element.covers register mask → element.overlaps register mask stream :=
    fun element isElement =>
      SignatureElement.overlaps_of_covers some_bit (onStream element isElement)
  obtain ⟨before, hit, not_after⟩ := exists_first?_of_imp weaker found
  exact ⟨before, findOutput_eq_ok_some_iff.mpr ⟨some_bit, hit⟩, not_after⟩

/-- Without any component requested, the first input at the register is found. -/
theorem findInput_of_isEmpty (empty : mask.isEmpty) (register : UInt32) (allowMissing : Bool)
    (signatures : Signatures) :
    (∃ declared, IsFirst (·.register = register) signatures.inputs declared ∧
      signatures.findInput register mask allowMissing = .ok (some declared)) ∨
    (∀ element ∈ signatures.inputs, element.register ≠ register) ∧
      signatures.findInput register mask allowMissing =
        if allowMissing then .ok none else .error (.missingInput register mask) := by
  simp only [findInput, SignatureElement.covers_of_isEmpty empty]
  cases found : first? (fun element => decide (element.register = register)) signatures.inputs with
  | none =>
      refine .inr ⟨fun element isElement => ?_, orMissing_none allowMissing _⟩
      simpa using first?_eq_none_iff.mp found element isElement
  | some declared => exact .inl ⟨declared, isFirst_of_first? found, rfl⟩

/-- An output is found under a mask where it is found first under one of its components. An input is
found no earlier than under a part of the mask and, where both signatures are the same, no earlier
than an output. The empty mask is an error for outputs, whatever may be missing, and is met by any
input at the register. Otherwise only a missing entry can be allowed. -/
theorem masked_lookups (signatures : Signatures) (register stream : UInt32) :
    let findInput := fun mask allowMissing => signatures.findInput register mask allowMissing
    let findOutput := fun mask allowMissing =>
      signatures.findOutput register mask stream allowMissing
    let missing := fun mask => QueryError.missingOutput register mask stream
    (∀ left right : ComponentMask, ¬left.isEmpty → ¬right.isEmpty →
      ∃ inLeft inRight, ∀ allowMissing,
        findOutput left allowMissing = orMissing allowMissing (missing left) inLeft ∧
        findOutput right allowMissing = orMissing allowMissing (missing right) inRight ∧
        findOutput (left.union right) allowMissing =
          orMissing allowMissing (missing (left.union right)) (inLeft.merge earlier inRight)) ∧
    (∀ mask : ComponentMask, ¬mask.isEmpty →
      (∀ allowMissing declared, findOutput mask allowMissing = .ok (some declared) ↔
        (∃ component ∈ mask.components,
          findOutput component allowMissing = .ok (some declared)) ∧
        ∀ component ∈ mask.components, ∀ other,
          findOutput component allowMissing = .ok (some other) →
            declared.position ≤ other.position) ∧
      (findOutput mask true = .ok none ↔
        ∀ component ∈ mask.components, findOutput component true = .ok none)) ∧
    (∀ (left right : ComponentMask) (allowMissing : Bool) (declared : Declared SignatureElement),
      findInput (left.union right) allowMissing = .ok (some declared) →
        (∃ inLeft, findInput left allowMissing = .ok (some inLeft) ∧
          inLeft.position ≤ declared.position) ∧
        ∃ inRight, findInput right allowMissing = .ok (some inRight) ∧
          inRight.position ≤ declared.position) ∧
    (signatures.inputs = signatures.outputs →
      (∀ element ∈ signatures.outputs, element.stream = stream) →
      ∀ (mask : ComponentMask) (allowMissing : Bool) (declared : Declared SignatureElement),
        ¬mask.isEmpty → findInput mask allowMissing = .ok (some declared) →
          ∃ before, findOutput mask allowMissing = .ok (some before) ∧
            before.position ≤ declared.position) ∧
    (∀ (mask : ComponentMask) (allowMissing : Bool), mask.isEmpty →
      findOutput mask allowMissing = .error (.emptyOutputMask register) ∧
      ((∃ declared, IsFirst (·.register = register) signatures.inputs declared ∧
          findInput mask allowMissing = .ok (some declared)) ∨
        (∀ element ∈ signatures.inputs, element.register ≠ register) ∧
          findInput mask allowMissing =
            if allowMissing then .ok none else .error (.missingInput register mask))) ∧
    ∀ mask : ComponentMask,
      FailsOnlyMissing (.missingInput register mask) (findInput mask) ∧
      (¬mask.isEmpty → FailsOnlyMissing (missing mask) (findOutput mask)) := by
  intro findInput findOutput missing
  refine ⟨fun left right left_bit right_bit => ?_, fun mask some_bit => ?_, ?_, ?_, ?_, ?_⟩
  · exact findOutput_union left_bit right_bit register stream signatures
  · exact ⟨fun allowMissing =>
      findOutput_iff_components some_bit register stream allowMissing signatures,
      findOutput_eq_none_iff_components some_bit register stream signatures⟩
  · exact fun left right allowMissing declared => exists_findInput_of_union
  · intro same onStream mask allowMissing declared some_bit
    exact exists_findOutput_of_findInput same onStream some_bit
  · intro mask allowMissing empty
    exact ⟨if_pos empty, findInput_of_isEmpty empty register allowMissing signatures⟩
  · intro mask
    refine ⟨failsOnlyMissing_orMissing _ _, fun some_bit => ?_⟩
    simp only [findOutput, findOutput_of_not_isEmpty some_bit]
    exact failsOnlyMissing_orMissing _ _

/-- Signatures of a stage that passes three elements in one register on. A bit that two of them
declare stands for no component. -/
def passedSignatures : Signatures :=
  let element (index : UInt32) (components : UInt8) : SignatureElement :=
    ⟨"TEXCOORD", index, .undefined, 1, ⟨components⟩, 0⟩
  let elements := [element 0 0b00000011, element 1 0b10000100, element 2 0b10000111]
  ⟨elements, elements, []⟩

theorem masked_lookups_passedSignatures :
    let elements := passedSignatures.outputs
    let first : Declared SignatureElement := ⟨0, elements[0]⟩
    let last : Declared SignatureElement := ⟨2, elements[2]⟩
    let known : ComponentMask := ⟨0b00000001⟩
    let unknown : ComponentMask := ⟨0b10000000⟩
    let both := known.union unknown
    let missing : QueryError := .missingOutput 1 ⟨0b1000⟩ 0
    ¬known.isEmpty ∧ ¬unknown.isEmpty ∧ ¬both.isEmpty ∧ both.components = [known, unknown] ∧
    passedSignatures.inputs = elements ∧ (∀ element ∈ elements, element.stream = 0) ∧
    (∃ inKnown inUnknown, ∀ allowMissing,
      passedSignatures.findOutput 1 known 0 allowMissing =
        orMissing allowMissing (.missingOutput 1 known 0) inKnown ∧
      passedSignatures.findOutput 1 unknown 0 allowMissing =
        orMissing allowMissing (.missingOutput 1 unknown 0) inUnknown ∧
      passedSignatures.findOutput 1 both 0 allowMissing =
        orMissing allowMissing (.missingOutput 1 both 0) (inKnown.merge earlier inUnknown)) ∧
    passedSignatures.findOutput 1 both 0 false = .ok (some first) ∧
    (∃ component ∈ both.components,
      passedSignatures.findOutput 1 component 0 false = .ok (some first)) ∧
    passedSignatures.findInput 1 both false = .ok (some last) ∧
    (∃ inUnknown, passedSignatures.findInput 1 unknown false = .ok (some inUnknown) ∧
      inUnknown.position ≤ last.position) ∧
    (∃ before, passedSignatures.findOutput 1 both 0 false = .ok (some before) ∧
      before.position ≤ last.position) ∧
    (⟨0⟩ : ComponentMask).isEmpty ∧
    passedSignatures.findOutput 1 ⟨0⟩ 0 true = .error (.emptyOutputMask 1) ∧
    passedSignatures.findInput 1 ⟨0⟩ false = .ok (some first) ∧
    ¬(⟨0b1000⟩ : ComponentMask).isEmpty ∧
    FailsOnlyMissing missing (passedSignatures.findOutput 1 ⟨0b1000⟩ 0 ·) ∧
    passedSignatures.findOutput 1 ⟨0b1000⟩ 0 false = .error missing := by
  intro elements first last known unknown both missing
  have known_bit : ¬known.isEmpty := by decide
  have unknown_bit : ¬unknown.isEmpty := by decide
  have both_bit : ¬both.isEmpty := by decide
  have same : passedSignatures.inputs = elements := rfl
  have onStream : ∀ element ∈ elements, element.stream = 0 := by decide
  have output_found : passedSignatures.findOutput 1 both 0 false = .ok (some first) :=
    findOutput_eq_ok_some_iff.mpr ⟨both_bit, by decide⟩
  have input_found : passedSignatures.findInput 1 both false = .ok (some last) :=
    findInput_eq_ok_some_iff.mpr (by decide)
  obtain ⟨union, components, narrower, shared, empty, failing⟩ :=
    masked_lookups passedSignatures 1 0
  exact ⟨known_bit, unknown_bit, both_bit, by decide, same, onStream,
    union known unknown known_bit unknown_bit, output_found,
    (((components both both_bit).1 false first).mp output_found).1, input_found,
    (narrower known unknown false last input_found).2,
    shared same onStream both false last both_bit input_found, by decide,
    (empty ⟨0⟩ true (by decide)).1, rfl, by decide, (failing ⟨0b1000⟩).2 (by decide), rfl⟩

end Signatures
end ShaderInterface
