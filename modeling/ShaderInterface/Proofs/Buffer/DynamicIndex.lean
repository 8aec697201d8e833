import ShaderInterface.Proofs.Buffer.ResolvedName
import ShaderInterface.Proofs.Buffer.RoundTrip
import ShaderInterface.Proofs.Layout.ExactSearch
import ShaderInterface.Proofs.Layout.Stride
import ShaderInterface.Proofs.Layout.Visits

/-!
# Dynamic indices

A run-time index that counts slots is divided by the slots of one element of the variable, the
stride by which a search counts its elements. In a regular array an access that many slots further
on is therefore found in the next element, at the same place, under the same name but for the
outermost index. Only an overflow inside the array can keep the search from finding it, and it stops
both accesses.
-/

namespace ShaderInterface

open LayoutTree Probe

/-- The text of the element number that is `first` more than `text`, which counts slots. -/
def scaledIndex (text : String) (slots first : Nat) : String :=
  text ++ " / " ++ Nat.repr slots ++ (if first = 0 then "" else " + " ++ Nat.repr first)

theorem dynamicFiller_some (text : String) (slots : Nat) (indices : List Nat) :
    dynamicFiller text (some slots) indices =
      scaledIndex text slots (indices.head?.getD 0) := by
  unfold dynamicFiller scaledIndex
  cases indices with
  | nil => exact String.append_empty.symm
  | cons first rest =>
      cases first with
      | zero => exact String.append_empty.symm
      | succ first => simp [String.append_assoc]

/-! ## The outermost bracket pair -/

theorem fillBrackets_succ (filler : Nat → String) (level : Nat) (text : List Char) :
    fillBrackets filler (level + 1) text =
      fillBrackets (fun inner => filler (inner + 1)) level text := by
  induction text generalizing level with
  | nil => rfl
  | cons letter text induction => simp only [fillBrackets, induction]

theorem fillTemplate_append_plain (filler : Nat → String) {before : String}
    (plain : '[' ∉ before.toList) (after : String) :
    fillTemplate filler (before ++ after) = before ++ fillTemplate filler after := by
  rw [fillTemplate, String.toList_append, fillBrackets_append_plain plain, String.ofList_append,
    String.ofList_toList, fillTemplate]

/-- The first bracket of a template takes the text for the outermost level. -/
theorem fillTemplate_bracket (filler : Nat → String) {before : String}
    (plain : '[' ∉ before.toList) (after : String) :
    fillTemplate filler (before ++ "[" ++ after) =
      before ++ "[" ++ filler 0 ++ fillTemplate (fun level => filler (level + 1)) after := by
  have opened : fillTemplate filler ("[" ++ after) =
      "[" ++ filler 0 ++ fillTemplate (fun level => filler (level + 1)) after := by
    apply String.toList_injective
    simp [fillTemplate, fillBrackets, fillBrackets_succ]
  rw [String.append_assoc, fillTemplate_append_plain filler plain, opened]
  simp only [String.append_assoc]

theorem exists_first_bracket {template : String} (bracketed : '[' ∈ template.toList) :
    ∃ before after, template = before ++ "[" ++ after ∧ '[' ∉ before.toList := by
  obtain ⟨before, after, split, plain⟩ := List.eq_append_cons_of_mem bracketed
  refine ⟨String.ofList before, String.ofList after, ?_, ?_⟩
  · apply String.toList_injective
    simp [split]
  · rwa [String.toList_ofList]

namespace ConstantBuffer

variable {buffer : ConstantBuffer} {type : PlacedType} {before after : String}
  {matricesAsVectors : Bool}

/-- The static name of a type has the outermost index in its first bracket. -/
theorem indexedName_static_eq (split : type.label.fullName = before ++ "[" ++ after)
    (plain : '[' ∉ before.toList) (first : Nat) (rest : List Nat) (countsSlots : Bool) :
    buffer.indexedName type (first :: rest) ⟨"", countsSlots⟩ matricesAsVectors =
      .ok (before ++ "[" ++ Nat.repr first ++ fillTemplate (staticFiller rest) after) := by
  rw [indexedName_static, split, fillTemplate_bracket _ plain]
  rfl

/-- The dynamic name of a type has the scaled index in its first bracket. -/
theorem indexedName_dynamic_eq (split : type.label.fullName = before ++ "[" ++ after)
    (plain : '[' ∉ before.toList) {slots : Nat}
    (counted : buffer.rootSlots matricesAsVectors type = .ok slots) {text : String}
    (dynamic : text ≠ "") (indices : List Nat) :
    buffer.indexedName type indices ⟨text, true⟩ matricesAsVectors =
      .ok (before ++ "[" ++ scaledIndex text slots (indices.head?.getD 0) ++
        fillTemplate (staticFiller indices.tail) after) := by
  have bracketed : '[' ∈ type.label.fullName.toList := by simp [split]
  have inner : (fun level => staticFiller indices (level + 1)) = staticFiller indices.tail := by
    funext level
    rw [staticFiller, staticFiller, List.getElem?_tail]
  rw [indexedName]
  simp only [dynamic, bracketed, not_true_eq_false, or_self, ↓reduceIte, counted]
  change Except.ok (fillTemplate _ type.label.fullName) = _
  rw [split, fillTemplate_bracket _ plain]
  simp only [dynamicFiller_some, inner]

namespace Linked

variable {declared : BufferVariable}

/-- The root of every type of a variable is the type that the variable was declared with. -/
theorem type?_rootOf (linked : buffer.Linked) (isEntry : declared ∈ buffer.entries)
    (isNode : type ∈ declared.type.nodes) :
    buffer.type? (buffer.rootOf type.label.id) = some declared.type := by
  rw [linked.rootOf_eq isEntry type isNode, type?]
  exact linked.numbered _ (mem_types_of_mem_nodes isEntry declared.type.self_mem_nodes)

/-- The divisor of a dynamic index counts the slots of one element of the variable. -/
theorem rootSlots_eq (linked : buffer.Linked) (isEntry : declared ∈ buffer.entries)
    (isNode : type ∈ declared.type.nodes) {size : Nat}
    (sized : declared.type.elementSize matricesAsVectors = .ok size) :
    buffer.rootSlots matricesAsVectors type = .ok (slotCount size) := by
  rw [rootSlots, linked.type?_rootOf isEntry isNode, Option.getD_some, sized]
  rfl

/-- In an array variable, the names of a type differ in the text for the outermost index only. -/
theorem exists_arrayNames (linked : buffer.Linked) (isEntry : declared ∈ buffer.entries)
    (array : declared.type.shape.isArray) (plain : '[' ∉ declared.type.label.name.toList)
    {size : Nat} (sized : declared.type.elementSize matricesAsVectors = .ok size)
    (isNode : type ∈ declared.type.nodes) (rest : List Nat) :
    ∃ inner, ∀ first,
      let named := fun index =>
        Except.ok (declared.type.label.name ++ "[" ++ index ++ "]" ++ inner)
      buffer.indexedName type (first :: rest) ⟨"", true⟩ matricesAsVectors =
        named (Nat.repr first) ∧
      ∀ text, text ≠ "" →
        buffer.indexedName type (first :: rest) ⟨text, true⟩ matricesAsVectors =
          named (scaledIndex text (slotCount size) first) := by
  obtain ⟨after, fullName⟩ := linked.exists_fullName_eq isEntry type isNode
  have split : type.label.fullName = declared.type.label.name ++ "[" ++ ("]" ++ after) := by
    rw [fullName, PlacedType.segment, if_pos array]
    apply String.toList_injective
    simp
  have closing := fillTemplate_append_plain (staticFiller rest)
    (show '[' ∉ "]".toList by decide) after
  refine ⟨fillTemplate (staticFiller rest) after, fun first => ⟨?_, fun text dynamic => ?_⟩⟩
  · rw [indexedName_static_eq split plain, closing, ← String.append_assoc]
  · rw [indexedName_dynamic_eq split plain (linked.rootSlots_eq isEntry isNode sized) dynamic,
      List.tail_cons, closing, ← String.append_assoc]
    rfl

end Linked
end ConstantBuffer

namespace BufferVariable

variable {flags : LayoutFlags} {byteOffset : UInt32} {declared : BufferVariable}

theorem mem_nodes_of_find {location : Location Placement}
    (found : declared.find flags byteOffset = .ok (some location)) :
    location.leaf ∈ declared.type.nodes := by
  have target_le : byteOffset.toNat ≤ Word.last := Nat.le_of_lt_succ byteOffset.toNat_lt
  obtain ⟨rest, innermost, trail, leaf_eq, -⟩ := exists_trail found target_le
  exact leaf_eq ▸ trail.mem_nodes

/-- A variable in which a byte is found has elements of at least one byte. -/
theorem exists_measured_of_find {location : Location Placement}
    (found : declared.find flags byteOffset = .ok (some location)) :
    ∃ size stride, Measured flags.matricesAsVectors declared.type size stride ∧ 0 < size := by
  have target_le : byteOffset.toNat ≤ Word.last := Nat.le_of_lt_succ byteOffset.toNat_lt
  obtain ⟨size, stride, measured, ends⟩ := search_cases found target_le
  refine ⟨size, stride, measured, ?_⟩
  rcases ends with ⟨-, impossible⟩ | ⟨covers, -⟩ | ⟨covers, -⟩
  · contradiction
  · exact measured.size_pos covers
  · exact measured.size_pos covers

/-- A byte below the largest word that a measured variable occupies is covered by the search. -/
theorem Occupies.covers {size stride : Nat}
    (measured : Measured flags.matricesAsVectors declared.type size stride)
    (below : byteOffset.toNat < Word.last)
    (occupied : declared.Occupies flags.matricesAsVectors byteOffset.toNat) :
    Covers (Word.saturatingAdd declared.start.toNat declared.type.shape.offset.toNat)
      (declared.type.shape.arrayExtent size stride) byteOffset.toNat := by
  obtain ⟨whole, sized, covers⟩ := occupied
  obtain rfl := measured.whole_eq sized
  have extent_le := Shape.arrayExtent_eq_min size stride declared.type.shape
  rw [covers_iff] at covers
  rwa [Word.saturatingAdd_of_le (by omega), covers_iff]

/-- A search for an occupied byte does not turn it down. -/
theorem Occupies.find_ne_none {size stride : Nat}
    (measured : Measured flags.matricesAsVectors declared.type size stride)
    (below : byteOffset.toNat < Word.last)
    (occupied : declared.Occupies flags.matricesAsVectors byteOffset.toNat) :
    declared.find flags byteOffset ≠ .ok none := by
  intro turnedDown
  have claimed := claims_of_search turnedDown (Nat.le_of_lt below)
  obtain ⟨whole, sized, same⟩ := claims_eq_ok_iff.mp claimed
  obtain rfl := measured.whole_eq sized
  exact Bool.false_ne_true (same.mpr (occupied.covers measured below))

/-- A regular array finds a byte some elements further on at the same place in the later element,
unless the search comes to a type whose size cannot be rounded, where it stops at both bytes. -/
theorem find_apart {size count : Nat} {furtherOffset : UInt32}
    (array : declared.type.shape.isArray) (regular : declared.type.shape.Regular size)
    (measured : Measured flags.matricesAsVectors declared.type size (strideOf size))
    (further : furtherOffset.toNat = byteOffset.toNat + count * strideOf size)
    (below : furtherOffset.toNat < Word.last)
    (occupied : declared.Occupies flags.matricesAsVectors byteOffset.toNat)
    (furtherOccupied : declared.Occupies flags.matricesAsVectors furtherOffset.toNat) :
    (∃ node ∈ declared.type.nodes, node.Unroundable flags.matricesAsVectors ∧
      ∃ failure, declared.find flags byteOffset = .error failure ∧
        declared.find flags furtherOffset = .error failure) ∨
    ∃ leaf isArray first rest rebase,
      declared.find flags byteOffset = .ok (some ⟨leaf, isArray, first :: rest, rebase⟩) ∧
      declared.find flags furtherOffset =
        .ok (some ⟨leaf, isArray, (first + count) :: rest, rebase⟩) := by
  have moved : declared.find flags furtherOffset =
      (declared.find flags byteOffset).map (Option.map (Location.advance count)) := by
    have covers := occupied.covers measured (by omega)
    have furtherCovers := furtherOccupied.covers measured below
    rw [further] at furtherCovers
    rw [find, find, further]
    exact search_add_strides measured array regular covers furtherCovers (by omega)
  rw [moved]
  cases found : declared.find flags byteOffset with
  | error failure =>
      obtain ⟨node, isNode, unroundable⟩ := exists_unroundable_of_search found (by omega)
      exact Or.inl ⟨node, isNode, unroundable, failure, rfl, rfl⟩
  | ok answer =>
      cases answer with
      | none => exact absurd found (occupied.find_ne_none measured (by omega))
      | some location =>
          obtain ⟨first, rest, indices⟩ := exists_first_index found (by omega) array
            regular.indexed
          obtain ⟨leaf, isArray, _, rebase⟩ := location
          obtain rfl : _ = first :: rest := indices
          exact Or.inr ⟨leaf, isArray, first, rest, rebase, rfl, rfl⟩

end BufferVariable

/-- A dynamic index is divided by the stride of the variable's elements, and accesses that are
whole elements of a regular array apart differ in the outermost index only, both in what they are
located at and in their names. The search may come to a type inside the array whose size cannot be
rounded, and then it stops at both with the same overflow. -/
theorem dynamicIndex_agrees (name : String) (bindPoint : UInt32)
    (declarations : List VariableDeclaration) (flags : LayoutFlags) :
    let buffer := ConstantBuffer.ofDeclarations name bindPoint declarations
    let matricesAsVectors := flags.matricesAsVectors
    (∀ slot swizzle resolution text,
      (buffer.resolve slot swizzle flags).run.value = .ok (some resolution) → text ≠ "" →
      let leaf := resolution.location.leaf
      let indices := resolution.location.indices
      '[' ∈ leaf.label.fullName.toList →
        ∃ root size slots before after,
          buffer.type? (buffer.rootOf leaf.label.id) = some root ∧
          Measured matricesAsVectors root size (16 * slots) ∧ 1 ≤ slots ∧
          leaf.label.fullName = before ++ "[" ++ after ∧ '[' ∉ before.toList ∧
          buffer.resolvedName resolution ⟨text, true⟩ flags =
            .ok (before ++ "[" ++ scaledIndex text slots (indices.head?.getD 0) ++
              fillTemplate (staticFiller indices.tail) after)) ∧
    ∀ declared ∈ buffer.entries, declared.type.shape.isArray →
      ∀ size, declared.type.elementSize matricesAsVectors = .ok size →
      declared.type.shape.Regular size →
      let slots := slotCount size
      let variableName := declared.type.label.name
      let locate := fun target => (declared.type.locate flags declared.start target).run.value
      ∀ (slot furtherSlot : UInt32) (swizzle : Swizzle) (count : Nat) (byte furtherByte : UInt32),
        furtherSlot.toNat = slot.toNat + count * slots →
        Swizzle.byteOffset? slot swizzle = some byte →
        Swizzle.byteOffset? furtherSlot swizzle = some furtherByte →
        declared.Occupies matricesAsVectors byte.toNat →
        declared.Occupies matricesAsVectors furtherByte.toNat →
          (∃ node ∈ declared.type.nodes, node.Unroundable matricesAsVectors ∧
            ∃ failure, locate byte = .error failure ∧ locate furtherByte = .error failure) ∨
          ∃ leaf isArray first rest rebase,
            locate byte = .ok (some ⟨leaf, isArray, first :: rest, rebase⟩) ∧
            locate furtherByte =
              .ok (some ⟨leaf, isArray, (first + count) :: rest, rebase⟩) ∧
            ('[' ∉ variableName.toList → ∃ inner,
              let named := fun index =>
                Except.ok (variableName ++ "[" ++ index ++ "]" ++ inner)
              buffer.indexedName leaf (first :: rest) ⟨"", true⟩ matricesAsVectors =
                named (Nat.repr first) ∧
              buffer.indexedName leaf ((first + count) :: rest) ⟨"", true⟩ matricesAsVectors =
                named (Nat.repr (first + count)) ∧
              ∀ text, text ≠ "" →
                buffer.indexedName leaf (first :: rest) ⟨text, true⟩ matricesAsVectors =
                  named (scaledIndex text slots first)) := by
  intro buffer matricesAsVectors
  have linked : buffer.Linked := ConstantBuffer.linked_ofDeclarations name bindPoint declarations
  constructor
  · intro slot swizzle resolution text resolved dynamic leaf indices bracketed
    obtain ⟨isEntry, byteOffset, selected, located⟩ := ConstantBuffer.find_of_resolve resolved
    have isNode := BufferVariable.mem_nodes_of_find located
    obtain ⟨size, stride, measured, size_pos⟩ := BufferVariable.exists_measured_of_find located
    obtain ⟨before, after, split, plain⟩ := exists_first_bracket bracketed
    have stride_eq : stride = 16 * slotCount size :=
      measured.stride_eq_strideOf.trans (Nat.mul_comm _ _)
    refine ⟨_, size, slotCount size, before, after, linked.type?_rootOf isEntry isNode,
      stride_eq ▸ measured, slotCount_pos size_pos, split, plain, ?_⟩
    exact ConstantBuffer.indexedName_dynamic_eq split plain
      (linked.rootSlots_eq isEntry isNode measured.size_eq) dynamic indices
  · intro declared isEntry array size sized regular slots variableName locate slot furtherSlot
      swizzle count byte furtherByte apart selected furtherSelected occupied furtherOccupied
    have located : ∀ target, locate target = declared.find flags target :=
      fun target => PlacedType.value_locate flags declared.start target declared.type
    obtain ⟨whole, extended, -⟩ := id occupied
    have measured := measured_of_wholeSize array sized extended
    have below := Swizzle.lt_last_of_byteOffset? furtherSelected
    have further : furtherByte.toNat = byte.toNat + count * strideOf size :=
      Swizzle.byteOffset_add apart selected furtherSelected
    simp only [located]
    rcases BufferVariable.find_apart array regular measured further below occupied
      furtherOccupied with stopped | ⟨leaf, isArray, first, rest, rebase, near, far⟩
    · exact Or.inl stopped
    · refine Or.inr ⟨leaf, isArray, first, rest, rebase, near, far, fun plain => ?_⟩
      obtain ⟨inner, names⟩ := linked.exists_arrayNames isEntry array plain sized
        (BufferVariable.mem_nodes_of_find near) rest
      exact ⟨inner, (names first).1, (names (first + count)).1, (names first).2⟩

/-- A buffer with an array of structs of two slots. -/
def lightBuffer : ConstantBuffer :=
  .ofDeclarations "Lighting" 0
    [⟨16, 0, .array 4 (.struct "lights" 0 [.vector "position" 0 4, .vector "color" 16 4])⟩]

theorem dynamicIndex_agrees_lightBuffer :
    let lights := lightBuffer.entries[0]
    let locate := fun target => (lights.type.locate ⟨0⟩ lights.start target).run.value
    (∃ resolution, (lightBuffer.resolve 6 .identity ⟨0⟩).run.value = .ok (some resolution) ∧
      '[' ∈ resolution.location.leaf.label.fullName.toList ∧
      (∃ slots, Measured false lights.type 32 (16 * slots) ∧ 1 ≤ slots) ∧
      lightBuffer.resolvedName resolution ⟨"r0.x", true⟩ ⟨0⟩ =
        .ok "lights[r0.x / 2 + 2].color") ∧
    lights.type.shape.isArray ∧ lights.type.elementSize false = .ok 32 ∧
    lights.type.shape.Regular 32 ∧
    (6 : UInt32).toNat = (2 : UInt32).toNat + 2 * slotCount 32 ∧
    Swizzle.byteOffset? 2 .identity = some 32 ∧ Swizzle.byteOffset? 6 .identity = some 96 ∧
    lights.Occupies false (32 : UInt32).toNat ∧ lights.Occupies false (96 : UInt32).toNat ∧
    '[' ∉ lights.type.label.name.toList ∧
    ∃ leaf isArray first rest rebase inner,
      locate 32 = .ok (some ⟨leaf, isArray, first :: rest, rebase⟩) ∧
      locate 96 = .ok (some ⟨leaf, isArray, (first + 2) :: rest, rebase⟩) ∧
      lightBuffer.indexedName leaf (first :: rest) ⟨"", true⟩ false =
        .ok ("lights[" ++ Nat.repr first ++ "]" ++ inner) ∧
      lightBuffer.indexedName leaf ((first + 2) :: rest) ⟨"", true⟩ false =
        .ok ("lights[" ++ Nat.repr (first + 2) ++ "]" ++ inner) := by
  intro lights locate
  have array : lights.type.shape.isArray := by decide
  have sized : lights.type.elementSize false = .ok 32 := rfl
  have whole : lights.type.wholeSize false = .ok 128 := rfl
  have regular : lights.type.shape.Regular 32 := Or.inl (by decide)
  have occupied : lights.Occupies false (32 : UInt32).toNat := ⟨128, whole, by decide⟩
  have furtherOccupied : lights.Occupies false (96 : UInt32).toNat := ⟨128, whole, by decide⟩
  have plain : '[' ∉ lights.type.label.name.toList := by decide
  let resolution : Resolution := ⟨⟨0, lights⟩, ⟨lights.type.members[1], false, [2], 0⟩⟩
  have found : (lightBuffer.resolve 6 .identity ⟨0⟩).run.value = .ok (some resolution) := rfl
  have bracketed : '[' ∈ resolution.location.leaf.label.fullName.toList := by decide
  have root_eq : lightBuffer.type? (lightBuffer.rootOf resolution.location.leaf.label.id) =
      some lights.type := by cbv
  have named : lightBuffer.resolvedName resolution ⟨"r0.x", true⟩ ⟨0⟩ =
      .ok "lights[r0.x / 2 + 2].color" := by cbv
  obtain ⟨printed, apart⟩ := dynamicIndex_agrees "Lighting" 0
    [⟨16, 0, .array 4 (.struct "lights" 0 [.vector "position" 0 4, .vector "color" 16 4])⟩] ⟨0⟩
  obtain ⟨root, size, slots, -, -, isRoot, measured, slots_pos, -⟩ :=
    printed 6 .identity resolution "r0.x" found (by decide) bracketed
  obtain rfl := Option.some.inj (root_eq.symm.trans isRoot)
  obtain rfl := Except.ok.inj (sized.symm.trans measured.size_eq)
  refine ⟨⟨resolution, found, bracketed, ⟨slots, measured, slots_pos⟩, named⟩, array, sized,
    regular, rfl, rfl, rfl, occupied, furtherOccupied, plain, ?_⟩
  rcases apart lights (List.getElem_mem _) array 32 sized regular 2 6 .identity 2 32 96 rfl rfl rfl
    occupied furtherOccupied with ⟨-, -, -, failure, stopped, -⟩ |
      ⟨leaf, isArray, first, rest, rebase, near, far, names⟩
  · have located : ∃ location, locate 32 = .ok location := ⟨_, rfl⟩
    obtain ⟨location, ends⟩ := located
    cases stopped.symm.trans ends
  · obtain ⟨inner, static, furtherStatic, -⟩ := names plain
    exact ⟨leaf, isArray, first, rest, rebase, inner, near, far, static, furtherStatic⟩

/-- A buffer with an array of structs in which one member is too large for a word, though the last
member alone decides how far the elements are apart. -/
def tileBuffer : ConstantBuffer :=
  .ofDeclarations "Tiles" 0
    [⟨0, 64, .array 2 (.struct "tiles" 0 [.vector "texels" 0 0x40000000, .vector "tint" 16 4])⟩]

/-- Whole elements apart in a regular array, two accesses may both find nothing but an overflow. -/
theorem dynamicIndex_stops_tileBuffer :
    let tiles := tileBuffer.entries[0]
    let locate := fun target => (tiles.type.locate ⟨0⟩ tiles.start target).run.value
    tiles.type.shape.isArray ∧ tiles.type.elementSize false = .ok 32 ∧
    tiles.type.shape.Regular 32 ∧
    (2 : UInt32).toNat = (0 : UInt32).toNat + 1 * slotCount 32 ∧
    Swizzle.byteOffset? 0 .identity = some 0 ∧ Swizzle.byteOffset? 2 .identity = some 32 ∧
    tiles.Occupies false (0 : UInt32).toNat ∧ tiles.Occupies false (32 : UInt32).toNat ∧
    locate 0 = .error .productOverflow ∧ locate 32 = .error .productOverflow ∧
    ¬∃ leaf isArray first rest rebase,
      locate 0 = .ok (some ⟨leaf, isArray, first :: rest, rebase⟩) ∧
      locate 32 = .ok (some ⟨leaf, isArray, (first + 1) :: rest, rebase⟩) := by
  intro tiles locate
  have whole : tiles.type.wholeSize false = .ok 64 := rfl
  have stopped : (tiles.type.locate ⟨0⟩ tiles.start 0).run.value = .error .productOverflow := by
    cbv
  have furtherStopped :
      (tiles.type.locate ⟨0⟩ tiles.start 32).run.value = .error .productOverflow := by
    cbv
  refine ⟨by decide, rfl, Or.inl (by decide), rfl, rfl, rfl, ⟨64, whole, by decide⟩,
    ⟨64, whole, by decide⟩, stopped, furtherStopped, ?_⟩
  rintro ⟨_, _, _, _, _, found, -⟩
  cases stopped.symm.trans found

end ShaderInterface
