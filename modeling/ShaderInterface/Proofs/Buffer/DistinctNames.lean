import Mathlib.Data.List.Nodup
import ShaderInterface.Proofs.Buffer.Numbering
import ShaderInterface.Proofs.Buffer.ResolvedName

/-!
# Distinct names

A filled name can be read back: dots separate the names on the path, brackets hold the indices, and
the names lead from the variable to the type as long as no two variables and no two members of one
type share a name.
-/

namespace ShaderInterface

open LayoutTree Probe

/-! ## Reading a name back -/

/-- The name contains neither a dot nor an opening bracket. -/
def PlainName (name : String) : Prop := '.' ∉ name.toList ∧ '[' ∉ name.toList

instance (name : String) : Decidable (PlainName name) := inferInstanceAs (Decidable (_ ∧ _))

theorem not_mem_segment {letter : Char} {type : PlacedType} {index : String}
    (inName : letter ∉ type.label.name.toList) (inIndex : letter ∉ index.toList)
    (opening : letter ≠ '[') (closing : letter ≠ ']') :
    letter ∉ (type.segment index).toList := by
  unfold PlacedType.segment
  cases type.shape.isArray with
  | false => exact inName
  | true => simp [inName, inIndex, opening, closing]

/-- The text for a type determines its name, whether it is an array, and the index of an array. -/
theorem PlacedType.segment_inj {first second : PlacedType} {index further : String}
    (firstPlain : '[' ∉ first.label.name.toList) (secondPlain : '[' ∉ second.label.name.toList)
    (unopened : '[' ∉ index.toList) (same : first.segment index = second.segment further) :
    first.label.name = second.label.name ∧ first.shape.isArray = second.shape.isArray ∧
      (first.shape.isArray → index = further) := by
  unfold segment at same
  cases firstArray : first.shape.isArray <;> cases secondArray : second.shape.isArray <;>
    simp only [firstArray, secondArray, Bool.false_eq_true, ↓reduceIte] at same
  case false.false => exact ⟨same, rfl, nofun⟩
  case false.true => simp [same] at firstPlain
  case true.false => simp [← same] at secondPlain
  case true.true =>
    have letters := congrArg String.toList same
    simp only [String.toList_append, List.append_assoc] at letters
    have inside : '[' ∉ index.toList ++ "]".toList := by simp [unopened]
    obtain ⟨names, -, indices⟩ :=
      (List.append_cons_inj_of_notMem firstPlain inside).mp letters
    refine ⟨String.toList_injective names, rfl, fun _ => ?_⟩
    exact String.toList_injective (List.append_cancel_right indices)

theorem staticFiller_inj {indices furtherIndices : List Nat} {level : Nat}
    (same : staticFiller indices level = staticFiller furtherIndices level) :
    indices[level]? = furtherIndices[level]? := by
  unfold staticFiller at same
  cases first : indices[level]? <;> cases second : furtherIndices[level]? <;>
    simp only [first, second] at same
  case none.none => rfl
  case none.some => exact absurd same.symm Nat.repr_ne_empty
  case some.none => exact absurd same Nat.repr_ne_empty
  case some.some =>
    -- The digits of an index read back as the index.
    have digits := congrArg (Nat.ofDigitChars 10 ·.toList 0) same
    simp only [Nat.toList_repr, Nat.ofDigitChars_ten_toDigits] at digits
    exact congrArg some digits

variable {indices furtherIndices : List Nat} {path furtherPath : List PlacedType}

theorem not_mem_of_mem_segments {letter : Char} (opening : letter ≠ '[') (closing : letter ≠ ']')
    (other : letter.isDigit = false) {level : Nat}
    (plain : ∀ type ∈ path, letter ∉ type.label.name.toList) :
    ∀ text ∈ segments (staticFiller indices) level path, letter ∉ text.toList := by
  induction path generalizing level with
  | nil => exact nofun
  | cons type path induction =>
      obtain ⟨first, later⟩ := List.forall_mem_cons.mp plain
      have inSegment := not_mem_segment first (not_mem_staticFiller other indices level) opening
        closing
      exact List.forall_mem_cons.mpr ⟨inSegment, induction later⟩

/-- Split at its dots, a filled path gives the texts of its types. -/
theorem splitOn_dottedPath (started : path ≠ [])
    (plain : ∀ type ∈ path, '.' ∉ type.label.name.toList) :
    (dottedPath (staticFiller indices) path).toList.splitOn '.' =
      (segments (staticFiller indices) 0 path).map String.toList := by
  have undotted : ∀ text ∈ (segments (staticFiller indices) 0 path).map String.toList,
      '.' ∉ text := by
    intro letters isText
    obtain ⟨text, isSegment, rfl⟩ := List.mem_map.mp isText
    exact not_mem_of_mem_segments (by decide) (by decide) (by decide) plain text isSegment
  have some_text : (segments (staticFiller indices) 0 path).map String.toList ≠ [] := by
    cases path with
    | nil => exact absurd rfl started
    | cons type path => exact List.cons_ne_nil _ _
  rw [dottedPath, String.toList_intercalate]
  exact List.splitOn_intercalate '.' undotted some_text

/-- The texts of a path determine its names and the indices at its arrays. -/
theorem names_eq_of_segments_eq {level : Nat}
    (plain : ∀ type ∈ path, '[' ∉ type.label.name.toList)
    (furtherPlain : ∀ type ∈ furtherPath, '[' ∉ type.label.name.toList)
    (same : segments (staticFiller indices) level path =
      segments (staticFiller furtherIndices) level furtherPath) :
    path.map (·.label.name) = furtherPath.map (·.label.name) ∧
      ∀ position, level ≤ position → position < level + arrayLevels path →
        indices[position]? = furtherIndices[position]? := by
  induction path generalizing furtherPath level with
  | nil =>
      cases furtherPath with
      | nil => exact ⟨rfl, fun _ reached inside => absurd inside (Nat.not_lt_of_le reached)⟩
      | cons => cases same
  | cons type path induction =>
      cases furtherPath with
      | nil => cases same
      | cons further furtherPath =>
          obtain ⟨first, later⟩ := List.forall_mem_cons.mp plain
          obtain ⟨furtherFirst, furtherLater⟩ := List.forall_mem_cons.mp furtherPlain
          obtain ⟨head, tail⟩ := List.cons.inj same
          obtain ⟨name, array, index⟩ := PlacedType.segment_inj first furtherFirst
            (not_mem_staticFiller (by decide) indices level) head
          rw [← array] at tail
          obtain ⟨names, positions⟩ := induction later furtherLater tail
          refine ⟨List.cons_eq_cons.mpr ⟨name, names⟩, fun position reached inside => ?_⟩
          rw [arrayLevels_cons] at inside
          cases isArray : type.shape.isArray with
          | false =>
              rw [isArray, Bool.toNat_false] at positions inside
              exact positions position reached (by omega)
          | true =>
              rw [isArray, Bool.toNat_true] at positions inside
              rcases Nat.eq_or_lt_of_le reached with rfl | beyond
              · exact staticFiller_inj (index isArray)
              · exact positions position beyond (by omega)

/-- The text of a path reads the indices at its arrays only. -/
theorem segments_congr {filler further : Nat → String} {level : Nat}
    (same : ∀ position, level ≤ position → position < level + arrayLevels path →
      filler position = further position) :
    segments filler level path = segments further level path := by
  induction path generalizing level with
  | nil => rfl
  | cons type path induction =>
      rw [arrayLevels_cons] at same
      have head : type.segment (filler level) = type.segment (further level) := by
        unfold PlacedType.segment
        cases isArray : type.shape.isArray with
        | false => rfl
        | true =>
            rw [isArray, Bool.toNat_true] at same
            rw [same level (Nat.le_refl level) (by omega)]
      rw [segments, segments, head]
      apply congrArg
      apply induction
      intro position reached inside
      exact same position (by omega) (by omega)

/-- A filled path determines its names and the indices at its arrays. -/
theorem names_eq_of_dottedPath_eq (started : path ≠ []) (furtherStarted : furtherPath ≠ [])
    (plain : ∀ type ∈ path, PlainName type.label.name)
    (furtherPlain : ∀ type ∈ furtherPath, PlainName type.label.name)
    (same : dottedPath (staticFiller indices) path =
      dottedPath (staticFiller furtherIndices) furtherPath) :
    path.map (·.label.name) = furtherPath.map (·.label.name) ∧
      indices.take (arrayLevels path) = furtherIndices.take (arrayLevels path) := by
  have split := congrArg (·.toList.splitOn '.') same
  simp only [splitOn_dottedPath started fun type onPath => (plain type onPath).1,
    splitOn_dottedPath furtherStarted fun type onPath => (furtherPlain type onPath).1] at split
  have texts := List.map_injective_iff.mpr (fun _ _ => String.toList_injective) split
  obtain ⟨names, positions⟩ := names_eq_of_segments_eq
    (fun type onPath => (plain type onPath).2)
    (fun type onPath => (furtherPlain type onPath).2) texts
  refine ⟨names, List.ext_getElem? fun position => ?_⟩
  rw [List.getElem?_take, List.getElem?_take]
  by_cases inside : position < arrayLevels path
  · rw [if_pos inside, if_pos inside, positions position (Nat.zero_le _) (by omega)]
  · rw [if_neg inside, if_neg inside]

theorem dottedPath_congr
    (same : indices.take (arrayLevels path) = furtherIndices.take (arrayLevels path)) :
    dottedPath (staticFiller indices) path = dottedPath (staticFiller furtherIndices) path := by
  apply congrArg (".".intercalate ·)
  apply segments_congr
  intro position _ inside
  rw [Nat.zero_add] at inside
  have there := congrArg (·[position]?) same
  simp only [List.getElem?_take, if_pos inside] at there
  rw [staticFiller, staticFiller, there]

/-! ## Following the names -/

/-- No two members of the type share a name. -/
def PlacedType.DistinctMembers (type : PlacedType) : Prop :=
  (type.members.map (·.label.name)).Nodup

instance (type : PlacedType) : Decidable type.DistinctMembers :=
  inferInstanceAs (Decidable (List.Nodup _))

namespace ConstantBuffer

namespace Linked

variable {buffer : ConstantBuffer} {first second : PlacedType}

/-- The path to the type of a variable is shorter than the one to a member. -/
theorem names_outermost_ne (linked : buffer.Linked) {declared : BufferVariable}
    (isEntry : declared ∈ buffer.entries) {owner member : PlacedType}
    (isOwner : owner ∈ buffer.types) (isMember : member ∈ owner.members) :
    (buffer.enclosing declared.type).map (·.label.name) ≠
      (buffer.enclosing member).map (·.label.name) := by
  intro names
  have started := List.length_pos_of_ne_nil (linked.enclosing_ne_nil isOwner)
  have lengths := congrArg List.length names
  rw [linked.enclosing_outermost isEntry, linked.enclosing_member isOwner isMember] at lengths
  simp only [List.length_map, List.length_append, List.length_singleton] at lengths
  omega

/-- The names on the way to a type lead to no other type. -/
theorem eq_of_names_eq (linked : buffer.Linked)
    (outermost : (buffer.entries.map (·.type.label.name)).Nodup) (isFirst : first ∈ buffer.types)
    (isSecond : second ∈ buffer.types)
    (distinct : ∀ owner ∈ (buffer.enclosing first).dropLast, PlacedType.DistinctMembers owner)
    (names : (buffer.enclosing first).map (·.label.name) =
      (buffer.enclosing second).map (·.label.name)) : first = second := by
  obtain ⟨declared, isEntry, isNode⟩ := List.mem_flatMap.mp isFirst
  -- The induction goes down the variable of the first type; the second one may be any type.
  refine forall_mem_nodes (motive := fun node => ∀ other ∈ buffer.types,
    (∀ owner ∈ (buffer.enclosing node).dropLast, PlacedType.DistinctMembers owner) →
    (buffer.enclosing node).map (·.label.name) = (buffer.enclosing other).map (·.label.name) →
      node = other) ?_ ?_ first isNode second isSecond distinct names
  · intro other isOther _ names
    rcases mem_types_cases isOther with ⟨further, isFurther, rfl⟩ | ⟨owner, isOwner, isMember⟩
    · rw [linked.enclosing_outermost isEntry, linked.enclosing_outermost isFurther] at names
      have same := List.inj_on_of_nodup_map outermost isEntry isFurther (List.cons.inj names).1
      rw [same]
    · exact absurd names (linked.names_outermost_ne isEntry isOwner isMember)
  · intro owner isNode induction member isMember other isOther distinct names
    have isOwner := mem_types_of_mem_nodes isEntry isNode
    rcases mem_types_cases isOther with ⟨further, isFurther, rfl⟩ |
      ⟨furtherOwner, isFurtherOwner, isFurtherMember⟩
    · exact absurd names.symm (linked.names_outermost_ne isFurther isOwner isMember)
    · rw [linked.enclosing_member isOwner isMember] at distinct names
      rw [linked.enclosing_member isFurtherOwner isFurtherMember, List.map_append,
        List.map_append] at names
      rw [List.dropLast_concat] at distinct
      obtain ⟨outer, last⟩ := List.append_inj' names rfl
      -- The owners agree by induction, so both types are members of the same one.
      obtain rfl := induction furtherOwner isFurtherOwner
        (fun _ encloses => distinct _ (List.dropLast_subset _ encloses)) outer
      exact List.inj_on_of_nodup_map (distinct owner (linked.self_mem_enclosing isOwner)) isMember
        isFurtherMember (List.cons.inj last).1

/-- Without a dynamic index the name of a type is the path to it with the indices filled in. -/
theorem indexedName_eq_dottedPath (linked : buffer.Linked)
    (plain : ∀ type ∈ buffer.types, PlainName type.label.name) (isType : first ∈ buffer.types)
    (indices : List Nat) (countsSlots matricesAsVectors : Bool) :
    buffer.indexedName first indices ⟨"", countsSlots⟩ matricesAsVectors =
      .ok (dottedPath (staticFiller indices) (buffer.enclosing first)) := by
  have plainPath : ∀ type ∈ buffer.enclosing first, '[' ∉ type.label.name.toList :=
    fun type onPath => (plain type (mem_of_mem_enclosingFrom onPath)).2
  rw [indexedName_static, linked.fullName_eq isType, fillTemplate_dottedPath _ plainPath]

/-- The template of a type has an empty bracket pair for each array on the path to it. -/
theorem emptyBrackets_fullName (linked : buffer.Linked)
    (plain : ∀ type ∈ buffer.types, PlainName type.label.name) (isType : first ∈ buffer.types) :
    emptyBrackets first.label.fullName = arrayLevels (buffer.enclosing first) := by
  rw [linked.fullName_eq isType]
  exact emptyBrackets_dottedPath [] _
    fun type onPath => (plain type (mem_of_mem_enclosingFrom onPath)).2

/-- A static name determines its type and the indices at the arrays on the path to it. -/
theorem eq_of_indexedName_eq (linked : buffer.Linked)
    (plain : ∀ type ∈ buffer.types, PlainName type.label.name)
    (outermost : (buffer.entries.map (·.type.label.name)).Nodup) (isFirst : first ∈ buffer.types)
    (isSecond : second ∈ buffer.types)
    (distinct : ∀ owner ∈ (buffer.enclosing first).dropLast, PlacedType.DistinctMembers owner)
    {indices furtherIndices : List Nat} {countsSlots matricesAsVectors : Bool}
    (same : buffer.indexedName first indices ⟨"", countsSlots⟩ matricesAsVectors =
      buffer.indexedName second furtherIndices ⟨"", countsSlots⟩ matricesAsVectors) :
    first = second ∧ indices.take (arrayLevels (buffer.enclosing first)) =
      furtherIndices.take (arrayLevels (buffer.enclosing first)) := by
  rw [linked.indexedName_eq_dottedPath plain isFirst,
    linked.indexedName_eq_dottedPath plain isSecond] at same
  have plainPath : ∀ {outer : PlacedType}, ∀ type ∈ buffer.enclosing outer,
      PlainName type.label.name := fun type onPath => plain type (mem_of_mem_enclosingFrom onPath)
  obtain ⟨names, taken⟩ := names_eq_of_dottedPath_eq (linked.enclosing_ne_nil isFirst)
    (linked.enclosing_ne_nil isSecond) plainPath plainPath (Except.ok.inj same)
  exact ⟨linked.eq_of_names_eq outermost isFirst isSecond distinct names, taken⟩

end Linked

/-- A resolved access leads through structs only. -/
theorem struct_of_encloses_resolved {name : String} {bindPoint : UInt32}
    {declarations : List VariableDeclaration} {slot : UInt32} {swizzle : Swizzle}
    {flags : LayoutFlags} {resolution : Resolution}
    (resolved : ((ofDeclarations name bindPoint declarations).resolve slot swizzle
      flags).run.value = .ok (some resolution)) :
    let buffer := ofDeclarations name bindPoint declarations
    resolution.location.leaf ∈ buffer.types ∧
      ∀ owner ∈ (buffer.enclosing resolution.location.leaf).dropLast,
        owner.shape.variableClass = .struct := by
  intro buffer
  have linked : buffer.Linked := linked_ofDeclarations name bindPoint declarations
  obtain ⟨isEntry, byteOffset, rest, innermost, -, trail, leaf_eq, -⟩ :=
    exists_trail_of_resolve resolved
  obtain ⟨isType, encloses⟩ := linked.enclosing_trail trail
    (Linked.mem_types_of_mem_nodes isEntry (self_mem_nodes _))
  have path_eq : buffer.enclosing resolution.location.leaf =
      (below resolution.holder.entry.start.toNat byteOffset.toNat
        resolution.holder.entry.type :: rest).map (·.type) := by
    rw [← leaf_eq, encloses, List.map_cons]
    exact congrArg (· ++ rest.map (·.type)) (linked.enclosing_outermost isEntry)
  refine ⟨leaf_eq ▸ isType, fun owner isOwner => ?_⟩
  rw [path_eq, ← List.map_dropLast] at isOwner
  obtain ⟨probe, onTrail, rfl⟩ := List.mem_map.mp isOwner
  exact trail.struct_of_mem_dropLast probe onTrail

/-! ## Names of types and of accesses -/

/-- If no two variables share a name, and no two members of one type do, two static names are equal
exactly for the same type with the same indices at its brackets. The names of resolved accesses
depend on the members of structs only: they are equal only for the same type and the same index at
every array around it. -/
theorem indexedName_eq_iff (name : String) (bindPoint : UInt32)
    (declarations : List VariableDeclaration)
    (plain : ∀ type ∈ (ofDeclarations name bindPoint declarations).types,
      PlainName type.label.name)
    (outermost : ((ofDeclarations name bindPoint declarations).entries.map (·.name)).Nodup) :
    let buffer := ofDeclarations name bindPoint declarations
    ((∀ type ∈ buffer.types, PlacedType.DistinctMembers type) →
      ∀ first ∈ buffer.types, ∀ second ∈ buffer.types,
      ∀ (indices furtherIndices : List Nat) (countsSlots matricesAsVectors : Bool),
        let brackets := emptyBrackets first.label.fullName
        buffer.indexedName first indices ⟨"", countsSlots⟩ matricesAsVectors =
            buffer.indexedName second furtherIndices ⟨"", countsSlots⟩ matricesAsVectors ↔
          first = second ∧ indices.take brackets = furtherIndices.take brackets) ∧
    ((∀ type ∈ buffer.types, type.shape.variableClass = .struct →
        PlacedType.DistinctMembers type) →
      ∀ (slot furtherSlot : UInt32) (swizzle furtherSwizzle : Swizzle) (flags : LayoutFlags)
        (countsSlots : Bool) (near far : Resolution),
        (buffer.resolve slot swizzle flags).run.value = .ok (some near) →
        (buffer.resolve furtherSlot furtherSwizzle flags).run.value = .ok (some far) →
        buffer.resolvedName near ⟨"", countsSlots⟩ flags =
          buffer.resolvedName far ⟨"", countsSlots⟩ flags →
        near.location.leaf = far.location.leaf ∧
          ∀ level < arrayLevels (buffer.enclosing near.location.leaf),
            near.location.indices[level]? = far.location.indices[level]?) := by
  intro buffer
  have linked : buffer.Linked := linked_ofDeclarations name bindPoint declarations
  have typeNames : (buffer.entries.map (·.type.label.name)).Nodup := by
    rwa [← List.map_congr_left name_of_mem_entries]
  constructor
  · intro distinct first isFirst second isSecond indices furtherIndices countsSlots
      matricesAsVectors brackets
    have brackets_eq : brackets = arrayLevels (buffer.enclosing first) :=
      linked.emptyBrackets_fullName plain isFirst
    rw [brackets_eq]
    constructor
    · apply linked.eq_of_indexedName_eq plain typeNames isFirst isSecond
      exact fun owner encloses =>
        distinct owner (mem_of_mem_enclosingFrom (List.dropLast_subset _ encloses))
    · rintro ⟨rfl, same⟩
      rw [linked.indexedName_eq_dottedPath plain isFirst,
        linked.indexedName_eq_dottedPath plain isFirst, dottedPath_congr same]
  · intro distinct slot furtherSlot swizzle furtherSwizzle flags countsSlots near far resolved
      furtherResolved same
    obtain ⟨isNear, structs⟩ := struct_of_encloses_resolved resolved
    obtain ⟨isFar, -⟩ := struct_of_encloses_resolved furtherResolved
    obtain ⟨leaf_eq, taken⟩ := linked.eq_of_indexedName_eq plain typeNames isNear isFar
      (fun owner encloses => distinct owner
        (mem_of_mem_enclosingFrom (List.dropLast_subset _ encloses)) (structs owner encloses))
      same
    refine ⟨leaf_eq, fun level inside => ?_⟩
    have there := congrArg (·[level]?) taken
    simpa only [List.getElem?_take, if_pos inside] using there

theorem indexedName_eq_iff_skinBuffer :
    (∀ type ∈ skinBuffer.types, PlainName type.label.name) ∧
    (skinBuffer.entries.map (·.name)).Nodup ∧
    (∀ type ∈ skinBuffer.types, PlacedType.DistinctMembers type) ∧
    (∃ tail ∈ skinBuffer.types, tail.label.fullName = "bones[].tail[]" ∧
      ∀ indices furtherIndices : List Nat,
        skinBuffer.indexedName tail indices ⟨"", false⟩ false =
            skinBuffer.indexedName tail furtherIndices ⟨"", false⟩ false ↔
          indices.take 2 = furtherIndices.take 2) ∧
    ∃ near far, (skinBuffer.resolve 7 (.splat 0) ⟨0⟩).run.value = .ok (some near) ∧
      (skinBuffer.resolve 6 (.splat 0) ⟨0⟩).run.value = .ok (some far) ∧
      skinBuffer.resolvedName near ⟨"", false⟩ ⟨0⟩ =
        skinBuffer.resolvedName far ⟨"", false⟩ ⟨0⟩ ∧
      near.location.indices ≠ far.location.indices ∧
      near.location.leaf = far.location.leaf ∧
      ∀ level < arrayLevels (skinBuffer.enclosing near.location.leaf),
        near.location.indices[level]? = far.location.indices[level]? := by
  have plain : ∀ type ∈ skinBuffer.types, PlainName type.label.name := by decide
  have outermost : (skinBuffer.entries.map (·.name)).Nodup := by decide
  have distinct : ∀ type ∈ skinBuffer.types, PlacedType.DistinctMembers type := by decide
  obtain ⟨types, accesses⟩ := indexedName_eq_iff "Skin" 0 _ plain outermost
  refine ⟨plain, outermost, distinct, ?_, ?_⟩
  · have isType : skinBuffer.types[3] ∈ skinBuffer.types := List.getElem_mem _
    refine ⟨skinBuffer.types[3], isType, by decide, fun indices furtherIndices => ?_⟩
    have same := types distinct _ isType _ isType indices furtherIndices false false
    exact same.trans (and_iff_right rfl)
  · let bones : Declared BufferVariable := ⟨1, skinBuffer.entries[1]⟩
    let pose : PlacedType := bones.entry.type.members[0]
    let near : Resolution := ⟨bones, ⟨pose, true, [1, 1], 0⟩⟩
    let far : Resolution := ⟨bones, ⟨pose, true, [1, 0], 0⟩⟩
    have resolved : (skinBuffer.resolve 7 (.splat 0) ⟨0⟩).run.value = .ok (some near) := rfl
    have furtherResolved : (skinBuffer.resolve 6 (.splat 0) ⟨0⟩).run.value = .ok (some far) := rfl
    have named : skinBuffer.resolvedName near ⟨"", false⟩ ⟨0⟩ = .ok "bones[1].pose" := by cbv
    have furtherNamed : skinBuffer.resolvedName far ⟨"", false⟩ ⟨0⟩ = .ok "bones[1].pose" := by
      cbv
    have same := named.trans furtherNamed.symm
    have located := accesses (fun type isType _ => distinct type isType) 7 6 (.splat 0) (.splat 0)
      ⟨0⟩ false near far resolved furtherResolved same
    exact ⟨near, far, resolved, furtherResolved, same, by decide, located⟩

/-- A buffer with two members of one name in a type that is no struct. -/
def twinBuffer : ConstantBuffer :=
  .ofDeclarations "Twins" 0
    [⟨0, 0, .untyped "o" .object 0 1 4 [.scalar "x" 0, .scalar "x" 4]⟩]

/-- Distinct names of the members of structs do not keep the names of all types apart. -/
theorem indexedName_collides_twinBuffer :
    (∀ type ∈ twinBuffer.types, '.' ∉ type.label.name.toList ∧ '[' ∉ type.label.name.toList ∧
      ']' ∉ type.label.name.toList) ∧
    (twinBuffer.entries.map (·.name)).Nodup ∧
    (∀ type ∈ twinBuffer.types, type.shape.variableClass = .struct →
      PlacedType.DistinctMembers type) ∧
    ∃ first ∈ twinBuffer.types, ∃ second ∈ twinBuffer.types,
      first.label.id ≠ second.label.id ∧
      emptyBrackets first.label.fullName ≤ ([] : List Nat).length ∧
      emptyBrackets second.label.fullName ≤ ([] : List Nat).length ∧
      twinBuffer.indexedName first [] ⟨"", false⟩ false = .ok "o.x" ∧
      twinBuffer.indexedName second [] ⟨"", false⟩ false = .ok "o.x" := by
  refine ⟨by decide, by decide, by decide, ?_⟩
  exact ⟨twinBuffer.types[1], List.getElem_mem _, twinBuffer.types[2], List.getElem_mem _,
    by decide, by decide, by decide, by cbv, by cbv⟩

end ConstantBuffer
end ShaderInterface
