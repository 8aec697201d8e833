import ShaderInterface.Proofs.Buffer.DynamicIndex

/-!
# Substitution in templates

A full name is a template whose opening brackets cut it into pieces. A filled name consists of the
same pieces with the text for each level behind the bracket of that level, whatever brackets the
declared names and the inserted texts contain themselves.
-/

namespace ShaderInterface

open LayoutTree

/-- The texts that the opening brackets of a template separate. -/
def templatePieces (template : String) : List String :=
  (template.toList.splitOn '[').map String.ofList

/-- Number of texts to be inserted into a template. -/
def templateLevels (template : String) : Nat := template.toList.count '['

/-- The pieces joined by opening brackets, each bracket with the text for its level behind it. -/
def interleave (filler : Nat → String) (level : Nat) : List String → String
  | [] => ""
  | [last] => last
  | piece :: next :: rest =>
      piece ++ "[" ++ filler level ++ interleave filler (level + 1) (next :: rest)

/-- What is added to a dynamic index on account of the static index at its level. -/
def offsetText : List Nat → String
  | [] => ""
  | first :: _ => if first = 0 then "" else " + " ++ Nat.repr first

/-- The text that belongs behind the bracket of a level, where one element of the variable has
a certain size. -/
inductive PlaceholderText (dynamic : DynamicIndex) (indices : List Nat)
    (size : Except ArithmeticError Nat) : Nat → String → Prop where
  /-- Static indices are written in decimal, and nothing is written where there is none. -/
  | static {level : Nat} (isStatic : level ≠ 0 ∨ dynamic.text = "") :
      PlaceholderText dynamic indices size level ((indices[level]?.map Nat.repr).getD "")
  /-- A dynamic index that counts elements stands for itself. -/
  | elements (isDynamic : dynamic.text ≠ "") (countsElements : ¬dynamic.countsSlots) :
      PlaceholderText dynamic indices size 0 (dynamic.text ++ offsetText indices)
  /-- A dynamic index that counts slots is divided by the slots of an element. -/
  | slots (isDynamic : dynamic.text ≠ "") (countsSlots : dynamic.countsSlots) {bytes : Nat}
      (sized : size = .ok bytes) :
      PlaceholderText dynamic indices size 0
        (dynamic.text ++ " / " ++ Nat.repr (slotCount bytes) ++ offsetText indices)

section Template

variable {filler further : Nat → String}

theorem interleave_cons (filler : Nat → String) (level : Nat) (piece : String)
    {rest : List String} (more : rest ≠ []) :
    interleave filler level (piece :: rest) =
      piece ++ "[" ++ filler level ++ interleave filler (level + 1) rest := by
  cases rest with
  | nil => exact absurd rfl more
  | cons next rest => rfl

/-- Text in front of the first piece stays in front. -/
theorem interleave_modifyHead (filler : Nat → String) (level : Nat) (letter : Char)
    (pieces : List (List Char)) (started : pieces ≠ []) :
    (interleave filler level ((pieces.modifyHead (letter :: ·)).map String.ofList)).toList =
      letter :: (interleave filler level (pieces.map String.ofList)).toList := by
  match pieces with
  | [] => exact absurd rfl started
  | [last] => simp [interleave]
  | piece :: next :: rest => simp [interleave]

theorem fillBrackets_eq_interleave (filler : Nat → String) (level : Nat) (letters : List Char) :
    fillBrackets filler level letters =
      (interleave filler level ((letters.splitOn '[').map String.ofList)).toList := by
  induction letters generalizing level with
  | nil => simp [fillBrackets, interleave]
  | cons letter rest induction =>
      rw [List.splitOn_cons_eq_if_modifyHead, fillBrackets, induction, induction]
      by_cases opening : letter = '['
      · have more : (rest.splitOn '[').map String.ofList ≠ [] := by simp
        simp [opening, interleave_cons _ _ _ more]
      · simp [opening, interleave_modifyHead _ _ _ _ (List.splitOn_ne_nil '[' rest)]

/-- A filled template is its pieces with the texts between them. -/
theorem fillTemplate_eq_interleave (filler : Nat → String) (template : String) :
    fillTemplate filler template = interleave filler 0 (templatePieces template) := by
  rw [fillTemplate, fillBrackets_eq_interleave, String.ofList_toList, templatePieces]

theorem length_splitOn (letters : List Char) :
    (letters.splitOn '[').length = letters.count '[' + 1 := by
  induction letters with
  | nil => rfl
  | cons letter rest induction =>
      rw [List.splitOn_cons_eq_if_modifyHead, List.count_cons]
      by_cases opening : letter = '[' <;> simp [opening, induction]

theorem length_templatePieces (template : String) :
    (templatePieces template).length = templateLevels template + 1 := by
  rw [templatePieces, List.length_map, length_splitOn, templateLevels]

theorem templateLevels_pos_iff {template : String} :
    0 < templateLevels template ↔ '[' ∈ template.toList := List.count_pos_iff

theorem fillBrackets_congr {level : Nat} {letters : List Char}
    (same : ∀ inner, level ≤ inner → inner < level + letters.count '[' →
      filler inner = further inner) :
    fillBrackets filler level letters = fillBrackets further level letters := by
  induction letters generalizing level with
  | nil => rfl
  | cons letter rest induction =>
      rw [fillBrackets, fillBrackets]
      rw [List.count_cons] at same
      by_cases opening : letter = '['
      · simp only [opening, beq_self_eq_true, ↓reduceIte] at same ⊢
        rw [same level (Nat.le_refl level) (by omega), induction]
        intro inner reached inside
        exact same inner (by omega) (by omega)
      · simp only [opening, beq_iff_eq, ↓reduceIte, Nat.add_zero] at same ⊢
        rw [induction same]

/-- A filled template reads the texts for its own levels only. -/
theorem fillTemplate_congr {template : String}
    (same : ∀ level < templateLevels template, filler level = further level) :
    fillTemplate filler template = fillTemplate further template := by
  refine congrArg String.ofList (fillBrackets_congr fun level _ inside => ?_)
  exact same level (by rwa [Nat.zero_add] at inside)

/-- A template without brackets is not filled. -/
theorem fillTemplate_of_no_levels {template : String} (plain : templateLevels template = 0)
    (filler : Nat → String) : fillTemplate filler template = template := by
  rw [fillTemplate_eq_interleave, templatePieces,
    List.splitOn_eq_singleton (List.count_eq_zero.mp plain)]
  exact String.ofList_toList

end Template

theorem dynamicFiller_eq (text : String) (slots : Option Nat) (indices : List Nat) :
    dynamicFiller text slots indices =
      text ++ (slots.map fun count => " / " ++ Nat.repr count).getD "" ++ offsetText indices := by
  cases slots <;> rcases indices with _ | ⟨_ | first, rest⟩ <;>
    simp [dynamicFiller, offsetText, String.append_assoc]

/-- The number that a dynamic index is divided by, where one element of the variable has a certain
size. -/
def DynamicIndex.divisor (dynamic : DynamicIndex) (size : Except ArithmeticError Nat) :
    Except ArithmeticError (Option Nat) :=
  if dynamic.countsSlots then size.map fun bytes => some (slotCount bytes) else .ok none

/-- The texts for the levels of a name whose outermost index is dynamic. -/
def dynamicTexts (text : String) (slots : Option Nat) (indices : List Nat) : Nat → String
  | 0 => dynamicFiller text slots indices
  | level + 1 => staticFiller indices (level + 1)

section Texts

variable {indices furtherIndices : List Nat} {dynamic : DynamicIndex}
  {size : Except ArithmeticError Nat} {slots : Option Nat}

theorem DynamicIndex.divisor_eq_error_iff {failure : ArithmeticError} :
    dynamic.divisor size = .error failure ↔ dynamic.countsSlots ∧ size = .error failure := by
  cases counts : dynamic.countsSlots <;> cases size <;> simp [divisor, counts, Except.map]

theorem staticFiller_eq (indices : List Nat) (level : Nat) :
    staticFiller indices level = (indices[level]?.map Nat.repr).getD "" := by
  cases found : indices[level]? <;> simp [staticFiller, found]

theorem placeholderText_staticFiller {level : Nat} (isStatic : level ≠ 0 ∨ dynamic.text = "") :
    PlaceholderText dynamic indices size level (staticFiller indices level) := by
  rw [staticFiller_eq]
  exact .static isStatic

theorem placeholderText_dynamicTexts (isDynamic : dynamic.text ≠ "")
    (divided : dynamic.divisor size = .ok slots) (level : Nat) :
    PlaceholderText dynamic indices size level (dynamicTexts dynamic.text slots indices level) := by
  cases level with
  | succ level => exact placeholderText_staticFiller (.inl (Nat.succ_ne_zero level))
  | zero =>
      rw [dynamicTexts, dynamicFiller_eq]
      rw [DynamicIndex.divisor] at divided
      by_cases countsSlots : dynamic.countsSlots
      · rw [if_pos countsSlots, map_eq_ok_iff] at divided
        obtain ⟨bytes, sized, rfl⟩ := divided
        have filled : PlaceholderText dynamic indices (.ok bytes) 0 _ :=
          .slots isDynamic countsSlots rfl
        simpa [sized, String.append_assoc] using filled
      · rw [if_neg countsSlots] at divided
        obtain rfl := Except.ok.inj divided
        have filled : PlaceholderText dynamic indices size 0 _ := .elements isDynamic countsSlots
        simpa using filled

theorem staticFiller_congr {levels level : Nat} (inside : level < levels)
    (same : furtherIndices.take levels = indices.take levels) :
    staticFiller furtherIndices level = staticFiller indices level := by
  have there := congrArg (·[level]?) same
  simp only [List.getElem?_take, if_pos inside] at there
  rw [staticFiller, staticFiller, there]

theorem offsetText_congr {levels : Nat} (inside : 0 < levels)
    (same : furtherIndices.take levels = indices.take levels) :
    offsetText furtherIndices = offsetText indices := by
  obtain ⟨inner, rfl⟩ := Nat.exists_eq_succ_of_ne_zero (Nat.ne_of_gt inside)
  cases indices <;> cases furtherIndices <;> simp_all [offsetText]

theorem dynamicTexts_congr {levels level : Nat} (inside : level < levels)
    (same : furtherIndices.take levels = indices.take levels) :
    dynamicTexts dynamic.text slots furtherIndices level =
      dynamicTexts dynamic.text slots indices level := by
  cases level with
  | succ level => exact staticFiller_congr inside same
  | zero =>
      rw [dynamicTexts, dynamicTexts, dynamicFiller_eq, dynamicFiller_eq,
        offsetText_congr inside same]

end Texts

namespace ConstantBuffer

variable {buffer : ConstantBuffer} {declared : BufferVariable} {type : PlacedType}
  {indices furtherIndices : List Nat} {dynamic : DynamicIndex} {matricesAsVectors : Bool}

/-- A name without a place for a dynamic index is filled with the static ones. -/
theorem indexedName_of_static
    (isStatic : dynamic.text = "" ∨ templateLevels type.label.fullName = 0) :
    buffer.indexedName type indices dynamic matricesAsVectors =
      .ok (fillTemplate (staticFiller indices) type.label.fullName) := by
  rw [templateLevels, List.count_eq_zero] at isStatic
  rw [indexedName]
  exact if_pos isStatic

namespace Linked

/-- A dynamic index goes behind the outermost bracket, once its divisor is known. -/
theorem indexedName_of_dynamic (linked : buffer.Linked) (isEntry : declared ∈ buffer.entries)
    (isNode : type ∈ declared.type.nodes) (isDynamic : dynamic.text ≠ "")
    (bracketed : 0 < templateLevels type.label.fullName) (indices : List Nat) :
    buffer.indexedName type indices dynamic matricesAsVectors =
      (dynamic.divisor (declared.type.elementSize matricesAsVectors)).map fun slots =>
        fillTemplate (dynamicTexts dynamic.text slots indices) type.label.fullName := by
  rw [templateLevels_pos_iff] at bracketed
  rw [indexedName, rootSlots, linked.type?_rootOf isEntry isNode, Option.getD_some,
    DynamicIndex.divisor]
  simp only [isDynamic, bracketed, not_true_eq_false, or_self, ↓reduceIte]
  by_cases countsSlots : dynamic.countsSlots
  · simp only [countsSlots, ↓reduceIte]
    cases declared.type.elementSize matricesAsVectors with
    | error failure => rfl
    | ok bytes =>
        refine congrArg (fun texts => Except.ok (fillTemplate texts _)) (funext fun level => ?_)
        cases level <;> rfl
  · simp only [countsSlots]
    refine congrArg (fun texts => Except.ok (fillTemplate texts _)) (funext fun level => ?_)
    cases level <;> rfl

/-- A name consists of the pieces of its template and the text for each level. -/
theorem exists_texts_of_indexedName (linked : buffer.Linked) (isEntry : declared ∈ buffer.entries)
    (isNode : type ∈ declared.type.nodes) {output : String}
    (named : buffer.indexedName type indices dynamic matricesAsVectors = .ok output) :
    ∃ texts, output = interleave texts 0 (templatePieces type.label.fullName) ∧
      ∀ level < templateLevels type.label.fullName, PlaceholderText dynamic indices
        (declared.type.elementSize matricesAsVectors) level (texts level) := by
  by_cases isStatic : dynamic.text = "" ∨ templateLevels type.label.fullName = 0
  · rw [indexedName_of_static isStatic] at named
    obtain rfl := Except.ok.inj named
    refine ⟨_, fillTemplate_eq_interleave _ _, fun level inside => ?_⟩
    refine placeholderText_staticFiller (.inr ?_)
    exact isStatic.resolve_right (Nat.ne_of_gt (Nat.zero_lt_of_lt inside))
  · obtain ⟨isDynamic, bracketed⟩ := not_or.mp isStatic
    rw [linked.indexedName_of_dynamic isEntry isNode isDynamic (Nat.pos_of_ne_zero bracketed),
      map_eq_ok_iff] at named
    obtain ⟨slots, divided, rfl⟩ := named
    exact ⟨_, fillTemplate_eq_interleave _ _,
      fun level _ => placeholderText_dynamicTexts isDynamic divided level⟩

/-- Only a divisor that cannot be computed keeps a type from having a name. -/
theorem indexedName_eq_error_iff (linked : buffer.Linked) (isEntry : declared ∈ buffer.entries)
    (isNode : type ∈ declared.type.nodes) {failure : ArithmeticError} :
    buffer.indexedName type indices dynamic matricesAsVectors = .error failure ↔
      0 < templateLevels type.label.fullName ∧ dynamic.text ≠ "" ∧ dynamic.countsSlots ∧
        declared.type.elementSize matricesAsVectors = .error failure := by
  by_cases isStatic : dynamic.text = "" ∨ templateLevels type.label.fullName = 0
  · rw [indexedName_of_static isStatic]
    refine iff_of_false nofun ?_
    rintro ⟨bracketed, isDynamic, -⟩
    exact isStatic.elim isDynamic (Nat.ne_of_gt bracketed)
  · obtain ⟨isDynamic, bracketed⟩ := not_or.mp isStatic
    have bracketed := Nat.pos_of_ne_zero bracketed
    rw [linked.indexedName_of_dynamic isEntry isNode isDynamic bracketed,
      map_eq_error_iff, DynamicIndex.divisor_eq_error_iff]
    simp [bracketed, isDynamic]

/-- A name reads as many indices as its template has levels. -/
theorem indexedName_congr_take (linked : buffer.Linked) (isEntry : declared ∈ buffer.entries)
    (isNode : type ∈ declared.type.nodes)
    (same : furtherIndices.take (templateLevels type.label.fullName) =
      indices.take (templateLevels type.label.fullName)) :
    buffer.indexedName type furtherIndices dynamic matricesAsVectors =
      buffer.indexedName type indices dynamic matricesAsVectors := by
  by_cases isStatic : dynamic.text = "" ∨ templateLevels type.label.fullName = 0
  · rw [indexedName_of_static isStatic, indexedName_of_static isStatic]
    exact congrArg Except.ok (fillTemplate_congr fun _ inside => staticFiller_congr inside same)
  · obtain ⟨isDynamic, bracketed⟩ := not_or.mp isStatic
    have bracketed := Nat.pos_of_ne_zero bracketed
    rw [linked.indexedName_of_dynamic isEntry isNode isDynamic bracketed,
      linked.indexedName_of_dynamic isEntry isNode isDynamic bracketed]
    refine congrArg (Except.map · _) (funext fun slots => ?_)
    exact fillTemplate_congr fun _ inside => dynamicTexts_congr inside same

/-- The text of a dynamic index is copied into the name and decides nothing else there. -/
theorem exists_around_text (linked : buffer.Linked) (isEntry : declared ∈ buffer.entries)
    (isNode : type ∈ declared.type.nodes)
    (bracketed : 0 < templateLevels type.label.fullName) (indices : List Nat) (countsSlots : Bool)
    (sized : countsSlots → ∃ bytes, declared.type.elementSize matricesAsVectors = .ok bytes) :
    ∃ before after, ∀ text, text ≠ "" →
      buffer.indexedName type indices ⟨text, countsSlots⟩ matricesAsVectors =
        .ok (before ++ text ++ after) := by
  obtain ⟨slots, divided⟩ : ∃ slots, ∀ text, DynamicIndex.divisor ⟨text, countsSlots⟩
      (declared.type.elementSize matricesAsVectors) = .ok slots := by
    cases countsSlots with
    | false => exact ⟨none, fun _ => rfl⟩
    | true =>
        obtain ⟨bytes, size_eq⟩ := sized rfl
        exact ⟨some (slotCount bytes), fun _ => by rw [size_eq]; rfl⟩
  obtain ⟨before, after, split, plain⟩ := exists_first_bracket (templateLevels_pos_iff.mp bracketed)
  refine ⟨before ++ "[", (slots.map fun count => " / " ++ Nat.repr count).getD "" ++
    offsetText indices ++ fillTemplate (fun level => staticFiller indices (level + 1)) after, ?_⟩
  intro text isDynamic
  rw [linked.indexedName_of_dynamic isEntry isNode isDynamic bracketed, divided, Except.map, split,
    fillTemplate_bracket _ plain, dynamicTexts, dynamicFiller_eq]
  simp only [dynamicTexts, String.append_assoc]

end Linked

/-- A name is its template with one text behind each opening bracket. The texts are those of the
indices, whatever the names in the template and the dynamic index contain, and only the division of
a dynamic index can fail. -/
theorem indexedName_substitutes (name : String) (bindPoint : UInt32)
    (declarations : List VariableDeclaration) :
    let buffer := ofDeclarations name bindPoint declarations
    ∀ declared ∈ buffer.entries, ∀ type ∈ declared.type.nodes,
    ∀ (indices : List Nat) (dynamic : DynamicIndex) (matricesAsVectors : Bool),
      let template := type.label.fullName
      let levels := templateLevels template
      let size := declared.type.packedSize matricesAsVectors false
      let named := buffer.indexedName type indices dynamic matricesAsVectors
      buffer.type? (buffer.rootOf type.label.id) = some declared.type ∧
      (templatePieces template).length = levels + 1 ∧
      (∀ output, named = .ok output →
        ∃ texts, output = interleave texts 0 (templatePieces template) ∧
          ∀ level < levels, PlaceholderText dynamic indices size level (texts level)) ∧
      (∀ failure, named = .error failure ↔
        0 < levels ∧ dynamic.text ≠ "" ∧ dynamic.countsSlots ∧ size = .error failure) ∧
      (0 < levels → ∀ countsSlots : Bool, (countsSlots → ∃ bytes, size = .ok bytes) →
        ∃ before after, ∀ text, text ≠ "" →
          buffer.indexedName type indices ⟨text, countsSlots⟩ matricesAsVectors =
            .ok (before ++ text ++ after)) ∧
      (∀ furtherIndices, furtherIndices.take levels = indices.take levels →
        buffer.indexedName type furtherIndices dynamic matricesAsVectors = named) ∧
      (levels = 0 → named = .ok template) ∧
      (dynamic.text = "" → ∀ countsSlots furtherMatrices,
        buffer.indexedName type indices ⟨"", countsSlots⟩ furtherMatrices = named) := by
  intro buffer declared isEntry type isNode indices dynamic matricesAsVectors template levels size
    named
  have linked : buffer.Linked := linked_ofDeclarations name bindPoint declarations
  refine ⟨linked.type?_rootOf isEntry isNode, length_templatePieces template, ?_, ?_, ?_, ?_, ?_,
    ?_⟩
  · exact fun output => linked.exists_texts_of_indexedName isEntry isNode
  · exact fun failure => linked.indexedName_eq_error_iff isEntry isNode
  · exact fun bracketed => linked.exists_around_text isEntry isNode bracketed indices
  · exact fun furtherIndices => linked.indexedName_congr_take isEntry isNode
  · intro plain
    rw [← fillTemplate_of_no_levels plain (staticFiller indices)]
    exact indexedName_of_static (.inr plain)
  · intro isStatic countsSlots furtherMatrices
    rw [indexedName_static]
    exact (indexedName_of_static (.inl isStatic)).symm

/-- A buffer with a bracket in the name of an array, a type whose size overflows, and a type without
levels. -/
def glyphBuffer : ConstantBuffer :=
  .ofDeclarations "Glyphs" 0
    [⟨0, 0, .array 3 (.struct "gl[ÿ" 0 [.array 2 (.vector "uv" 0 2), .scalar "w" 32])⟩,
      ⟨128, 0, .array 2 (.vector "huge" 0 0x40000000)⟩, ⟨144, 0, .scalar "fade" 0⟩]

theorem indexedName_substitutes_glyphBuffer :
    let glyphs := glyphBuffer.entries[0]
    let huge := glyphBuffer.entries[1]
    let fade := glyphBuffer.entries[2]
    let uv := glyphs.type.members[0]
    let dynamic : DynamicIndex := ⟨"r[0]", true⟩
    glyphs ∈ glyphBuffer.entries ∧ uv ∈ glyphs.type.nodes ∧
    glyphs.type.packedSize false false = .ok 36 ∧
    0 < templateLevels uv.label.fullName ∧
    [2, 7, 5].take (templateLevels uv.label.fullName) =
      [2, 7, 5, 9].take (templateLevels uv.label.fullName) ∧
    glyphBuffer.indexedName uv [2, 7, 5, 9] dynamic false = .ok "gl[r[0] / 3 + 2ÿ[7].uv[5]" ∧
    glyphBuffer.indexedName uv [2, 7, 5] dynamic false = .ok "gl[r[0] / 3 + 2ÿ[7].uv[5]" ∧
    (∃ texts, "gl[r[0] / 3 + 2ÿ[7].uv[5]" = interleave texts 0 ["gl", "ÿ", "].uv", "]"] ∧
      ∀ level < 3, PlaceholderText dynamic [2, 7, 5, 9] (.ok 36) level (texts level)) ∧
    (∃ before after, ∀ text, text ≠ "" →
      glyphBuffer.indexedName uv [2, 7, 5, 9] ⟨text, true⟩ false = .ok (before ++ text ++ after)) ∧
    (∃ failure, huge.type.packedSize false false = .error failure ∧
      glyphBuffer.indexedName huge.type [] dynamic false = .error failure) ∧
    templateLevels fade.type.label.fullName = 0 ∧
    glyphBuffer.indexedName fade.type [2] dynamic false = .ok "fade" ∧
    glyphBuffer.indexedName huge.type [] ⟨"", true⟩ true =
      glyphBuffer.indexedName huge.type [] ⟨"", false⟩ false := by
  intro glyphs huge fade uv dynamic
  have isEntry : glyphs ∈ glyphBuffer.entries := List.getElem_mem _
  have huge_isEntry : huge ∈ glyphBuffer.entries := List.getElem_mem _
  have fade_isEntry : fade ∈ glyphBuffer.entries := List.getElem_mem _
  have isNode : uv ∈ glyphs.type.nodes :=
    mem_nodes_of_mem_members uv.self_mem_nodes (List.getElem_mem _)
  have sized : glyphs.type.packedSize false false = .ok 36 := rfl
  have levels : templateLevels uv.label.fullName = 3 := by decide
  have bracketed : 0 < templateLevels uv.label.fullName := by rw [levels]; decide
  have plain : templateLevels fade.type.label.fullName = 0 := by decide
  have pieces : templatePieces uv.label.fullName = ["gl", "ÿ", "].uv", "]"] := by cbv
  have same : [2, 7, 5].take (templateLevels uv.label.fullName) =
      [2, 7, 5, 9].take (templateLevels uv.label.fullName) := by decide
  have named : glyphBuffer.indexedName uv [2, 7, 5, 9] dynamic false =
      .ok "gl[r[0] / 3 + 2ÿ[7].uv[5]" := by cbv
  have overflow : huge.type.packedSize false false = .error .productOverflow := rfl
  obtain ⟨-, -, substituted, -, around, front, -⟩ := indexedName_substitutes "Glyphs" 0 _ glyphs
    isEntry uv isNode [2, 7, 5, 9] dynamic false
  obtain ⟨-, -, -, fails, -⟩ := indexedName_substitutes "Glyphs" 0 _ huge huge_isEntry huge.type
    huge.type.self_mem_nodes [] dynamic false
  obtain ⟨-, -, -, -, -, -, -, static⟩ := indexedName_substitutes "Glyphs" 0 _ huge huge_isEntry
    huge.type huge.type.self_mem_nodes [] ⟨"", false⟩ false
  obtain ⟨-, -, -, -, -, -, unfilled, -⟩ := indexedName_substitutes "Glyphs" 0 _ fade fade_isEntry
    fade.type fade.type.self_mem_nodes [2] dynamic false
  obtain ⟨texts, output_eq, filled⟩ := substituted _ named
  rw [levels, sized] at filled
  refine ⟨isEntry, isNode, sized, bracketed, same, named, (front _ same).trans named,
    ⟨texts, pieces ▸ output_eq, filled⟩, around bracketed true fun _ => ⟨36, sized⟩,
    ⟨_, overflow, (fails _).mpr ⟨by decide, by decide, rfl, overflow⟩⟩, plain, unfilled plain,
    static rfl true true⟩

end ConstantBuffer
end ShaderInterface
