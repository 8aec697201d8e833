import ShaderInterface.Buffer.IndexedName

/-!
# Templates of dotted paths

The full name of a type is the dotted path to it with an empty bracket pair after each array. As
long as the names on the path contain no opening bracket, the brackets of the template are those of
the arrays, and filling them puts the text for each array after its name.
-/

namespace ShaderInterface

variable {filler : Nat → String}

/-- Number of bracket pairs with nothing between them. -/
def emptyPairs : List Char → Nat
  | '[' :: ']' :: rest => emptyPairs rest + 1
  | _ :: rest => emptyPairs rest
  | [] => 0

/-- Number of bracket pairs of a text with nothing between them. -/
def emptyBrackets (text : String) : Nat := emptyPairs text.toList

/-- The name of a type, at an array with bracketed text. -/
def PlacedType.segment (index : String) (type : PlacedType) : String :=
  if type.shape.isArray then type.label.name ++ "[" ++ index ++ "]" else type.label.name

/-- The names along a path with the text for each array, from level `level` on. -/
def segments (filler : Nat → String) (level : Nat) : List PlacedType → List String
  | [] => []
  | type :: rest =>
      type.segment (filler level) :: segments filler (level + type.shape.isArray.toNat) rest

/-- The names along a path joined by dots, with the text for each array in brackets. -/
def dottedPath (filler : Nat → String) (path : List PlacedType) : String :=
  ".".intercalate (segments filler 0 path)

/-- Number of arrays on a path. -/
def arrayLevels (path : List PlacedType) : Nat := path.countP (·.shape.isArray)

theorem arrayLevels_cons (type : PlacedType) (path : List PlacedType) :
    arrayLevels (type :: path) = type.shape.isArray.toNat + arrayLevels path := by
  rw [arrayLevels, arrayLevels, List.countP_cons, Nat.add_comm]
  cases type.shape.isArray <;> rfl

/-- The characters of a path with a dot before each name. -/
def dotted (texts : List String) : List Char := texts.flatMap fun text => '.' :: text.toList

theorem dotted_eq (first : String) (rest : List String) :
    dotted (first :: rest) = '.' :: (".".intercalate (first :: rest)).toList := by
  induction rest generalizing first with
  | nil => simp [dotted]
  | cons next rest induction =>
      have tail : dotted (first :: next :: rest) =
          '.' :: first.toList ++ dotted (next :: rest) := List.flatMap_cons
      rw [tail, induction, String.intercalate_cons_cons, String.toList_append,
        String.toList_append]
      simp

theorem segments_append (filler : Nat → String) (level : Nat) (front : List PlacedType)
    (type : PlacedType) :
    segments filler level (front ++ [type]) =
      segments filler level front ++ [type.segment (filler (level + arrayLevels front))] := by
  induction front generalizing level with
  | nil => rfl
  | cons first front induction =>
      rw [List.cons_append, segments, induction, arrayLevels_cons, Nat.add_assoc, segments,
        List.cons_append]

/-- A path goes on after a dot. -/
theorem dottedPath_append (filler : Nat → String) {front : List PlacedType} (started : front ≠ [])
    (type : PlacedType) :
    dottedPath filler (front ++ [type]) =
      dottedPath filler front ++ "." ++ type.segment (filler (arrayLevels front)) := by
  have named : segments filler 0 front ≠ [] := by
    cases front with
    | nil => exact absurd rfl started
    | cons first front => exact List.cons_ne_nil _ _
  rw [dottedPath, dottedPath, segments_append,
    String.intercalate_append_of_ne_nil named (List.cons_ne_nil _ _),
    String.intercalate_singleton, Nat.zero_add]

/-- Placing a type puts an empty bracket pair after the name of an array. -/
theorem pathName_eq (outer : Option String) (type : PlacedType) :
    pathName outer type.shape type.label.name =
      match outer with
      | some owner => owner ++ "." ++ type.segment ""
      | none => type.segment "" := by
  unfold pathName PlacedType.segment
  cases outer <;> cases type.shape.isArray <;> simp [String.append_assoc]

/-! ## Filling -/

theorem fillBrackets_append_plain {text : List Char} (plain : '[' ∉ text) (level : Nat)
    (rest : List Char) :
    fillBrackets filler level (text ++ rest) = text ++ fillBrackets filler level rest := by
  induction text with
  | nil => rfl
  | cons letter text induction =>
      rw [List.mem_cons, not_or] at plain
      rw [List.cons_append, fillBrackets, if_neg (Ne.symm plain.1), induction plain.2,
        List.cons_append]

/-- Filling the template of one type uses the text for its level if the type is an array. -/
theorem fillBrackets_segment {type : PlacedType} (plain : '[' ∉ type.label.name.toList)
    (level : Nat) (rest : List Char) :
    fillBrackets filler level ((type.segment "").toList ++ rest) =
      (type.segment (filler level)).toList ++
        fillBrackets filler (level + type.shape.isArray.toNat) rest := by
  unfold PlacedType.segment
  cases type.shape.isArray with
  | false => exact fillBrackets_append_plain plain level rest
  | true =>
      have closing : fillBrackets filler (level + 1) (']' :: rest) =
          ']' :: fillBrackets filler (level + 1) rest := if_neg (by decide)
      simp only [↓reduceIte, String.toList_append, List.append_assoc]
      rw [fillBrackets_append_plain plain]
      change _ ++ fillBrackets filler level ('[' :: ']' :: rest) = _
      rw [fillBrackets, if_pos rfl, closing]
      simp

theorem fillBrackets_dotted (path : List PlacedType)
    (plain : ∀ type ∈ path, '[' ∉ type.label.name.toList) (level : Nat) :
    fillBrackets filler level (dotted (segments (fun _ => "") level path)) =
      dotted (segments filler level path) := by
  induction path generalizing level with
  | nil => rfl
  | cons type path induction =>
      obtain ⟨first, later⟩ := List.forall_mem_cons.mp plain
      have dot : ∀ text, fillBrackets filler level ('.' :: text) =
          '.' :: fillBrackets filler level text := fun _ => if_neg (by decide)
      simp only [segments, dotted, List.flatMap_cons, List.cons_append] at induction ⊢
      rw [dot, fillBrackets_segment first, induction later]

/-- Filling the template of a path puts the texts after the arrays of the path. -/
theorem fillTemplate_dottedPath (path : List PlacedType)
    (plain : ∀ type ∈ path, '[' ∉ type.label.name.toList) :
    fillTemplate filler (dottedPath (fun _ => "") path) = dottedPath filler path := by
  cases path with
  | nil => rfl
  | cons type path =>
      have filled : fillBrackets filler 0 (dotted (segments (fun _ => "") 0 (type :: path))) =
          dotted (segments filler 0 (type :: path)) := fillBrackets_dotted (type :: path) plain 0
      simp only [segments, dotted_eq] at filled
      rw [fillBrackets, if_neg (by decide)] at filled
      exact String.toList_injective (String.toList_ofList.trans (List.cons.inj filled).2)

/-- Without a dynamic index the name is the filled template. -/
theorem ConstantBuffer.indexedName_static (type : PlacedType) (indices : List Nat)
    (countsSlots matricesAsVectors : Bool) (buffer : ConstantBuffer) :
    buffer.indexedName type indices ⟨"", countsSlots⟩ matricesAsVectors =
      .ok (fillTemplate (staticFiller indices) type.label.fullName) := by
  rw [indexedName]
  exact if_pos (Or.inl rfl)

/-! ## Empty brackets -/

theorem emptyPairs_cons {letter : Char} (other : letter ≠ '[') (rest : List Char) :
    emptyPairs (letter :: rest) = emptyPairs rest := by
  rw [emptyPairs]
  exact fun _ opening _ => other opening

theorem emptyPairs_append_plain {text : List Char} (plain : '[' ∉ text) (rest : List Char) :
    emptyPairs (text ++ rest) = emptyPairs rest := by
  induction text with
  | nil => rfl
  | cons letter text induction =>
      rw [List.mem_cons, not_or] at plain
      rw [List.cons_append, emptyPairs_cons (Ne.symm plain.1), induction plain.2]

/-- Text between brackets leaves them empty only if there is none. -/
theorem emptyPairs_bracketed {text : List Char} (plain : '[' ∉ text) (unclosed : ']' ∉ text)
    (rest : List Char) :
    emptyPairs ('[' :: (text ++ ']' :: rest)) =
      (decide (text = [])).toNat + emptyPairs rest := by
  cases text with
  | nil =>
      rw [List.nil_append, emptyPairs]
      exact Nat.add_comm _ _
  | cons letter text =>
      rw [List.mem_cons, not_or] at unclosed
      have passed : emptyPairs ('[' :: (letter :: text ++ ']' :: rest)) =
          emptyPairs (letter :: text ++ ']' :: rest) := by
        rw [List.cons_append, emptyPairs]
        rintro _ - same
        exact unclosed.1 (List.cons.inj same).1.symm
      rw [passed, emptyPairs_append_plain plain, emptyPairs_cons (by decide)]
      simp

theorem emptyPairs_segment {type : PlacedType} (plain : '[' ∉ type.label.name.toList)
    {index : String} (unopened : '[' ∉ index.toList) (unclosed : ']' ∉ index.toList)
    (rest : List Char) :
    emptyPairs ((type.segment index).toList ++ rest) =
      (type.shape.isArray && decide (index = "")).toNat + emptyPairs rest := by
  unfold PlacedType.segment
  cases type.shape.isArray with
  | false =>
      rw [if_neg (by decide), emptyPairs_append_plain plain, Bool.false_and, Bool.toNat_false,
        Nat.zero_add]
  | true =>
      have split : (type.label.name ++ "[" ++ index ++ "]").toList ++ rest =
          type.label.name.toList ++ '[' :: (index.toList ++ ']' :: rest) := by simp
      rw [if_pos rfl, split, emptyPairs_append_plain plain,
        emptyPairs_bracketed unopened unclosed, Bool.true_and]
      simp only [String.toList_eq_nil_iff]

/-- Decimal texts contain no brackets. -/
theorem not_mem_staticFiller {letter : Char} (other : letter.isDigit = false)
    (indices : List Nat) (level : Nat) : letter ∉ (staticFiller indices level).toList := by
  intro isLetter
  unfold staticFiller at isLetter
  cases found : indices[level]? with
  | none => simp [found] at isLetter
  | some index =>
      simp only [found, Nat.toList_repr] at isLetter
      have isDigit := Nat.isDigit_of_mem_toDigits (by decide) (by decide) isLetter
      exact absurd isDigit (by simp [other])

theorem staticFiller_eq_empty_iff {indices : List Nat} {level : Nat} :
    staticFiller indices level = "" ↔ indices.length ≤ level := by
  unfold staticFiller
  cases found : indices[level]? with
  | none => exact iff_of_true rfl (List.getElem?_eq_none_iff.mp found)
  | some index =>
      obtain ⟨inside, -⟩ := List.getElem?_eq_some_iff.mp found
      exact iff_of_false Nat.repr_ne_empty (Nat.not_le_of_lt inside)

theorem emptyPairs_dotted (indices : List Nat) (path : List PlacedType)
    (plain : ∀ type ∈ path, '[' ∉ type.label.name.toList) (level : Nat) :
    emptyPairs (dotted (segments (staticFiller indices) level path)) =
      level + arrayLevels path - max level indices.length := by
  induction path generalizing level with
  | nil =>
      have none : arrayLevels [] = 0 := rfl
      rw [none, Nat.add_zero, Nat.sub_eq_zero_of_le (Nat.le_max_left _ _)]
      rfl
  | cons type path induction =>
      obtain ⟨first, later⟩ := List.forall_mem_cons.mp plain
      have opening : '[' ∉ (staticFiller indices level).toList :=
        not_mem_staticFiller (by decide) indices level
      have closing : ']' ∉ (staticFiller indices level).toList :=
        not_mem_staticFiller (by decide) indices level
      have missing : staticFiller indices level = "" ↔ indices.length ≤ level :=
        staticFiller_eq_empty_iff
      simp only [segments, dotted, List.flatMap_cons, List.cons_append] at induction ⊢
      rw [emptyPairs_cons (by decide), emptyPairs_segment first opening closing, induction later,
        arrayLevels_cons]
      cases type.shape.isArray with
      | false => simp
      | true =>
        by_cases beyond : indices.length ≤ level
        · simp [missing.mpr beyond]
          omega
        · simp [mt missing.mp beyond]
          omega

/-- Filling a path leaves a bracket pair empty for each array beyond the last index. -/
theorem emptyBrackets_dottedPath (indices : List Nat) (path : List PlacedType)
    (plain : ∀ type ∈ path, '[' ∉ type.label.name.toList) :
    emptyBrackets (dottedPath (staticFiller indices) path) =
      arrayLevels path - indices.length := by
  cases path with
  | nil => exact (Nat.zero_sub _).symm
  | cons type path =>
      have counted := emptyPairs_dotted indices (type :: path) plain 0
      simp only [segments, dotted_eq] at counted
      rw [emptyPairs_cons (by decide), Nat.zero_max] at counted
      rwa [Nat.zero_add (arrayLevels _)] at counted

end ShaderInterface
