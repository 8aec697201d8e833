import ShaderInterface.Buffer.Resolution
import ShaderInterface.Proofs.Layout.Nodes
import ShaderInterface.Proofs.Layout.Step

/-!
# Trails of a search

A type claims the bytes of its packed extent. A search that finds a byte leaves a trail: it goes
from a struct to the first member that claims the byte folded into the first element, until it
reaches a type without members or the padding of a struct. The indices that it reports are computed
along the trail, outermost level first.
-/

namespace ShaderInterface

open LayoutTree

variable {Label : Type} {matricesAsVectors : Bool}

/-- A type that is asked for a byte. -/
structure Probe (Label : Type) where
  /-- The type asked. -/
  type : LayoutTree Label
  /-- Byte at which the type starts. -/
  start : Nat
  /-- The byte asked for. -/
  target : Nat

namespace Probe

/-- A type whose enclosing struct starts at byte `base`, asked for a byte. -/
def below (base target : Nat) (type : LayoutTree Label) : Probe Label :=
  ⟨type, Word.saturatingAdd base type.shape.offset.toNat, target⟩

/-- The byte lies in the packed extent of the type. -/
def claims (matricesAsVectors : Bool) (probe : Probe Label) : Except ArithmeticError Bool := do
  return decide (Covers probe.start (← probe.type.wholeSize matricesAsVectors) probe.target)

/-- The byte folded back into the first element of the type. -/
def folded (matricesAsVectors : Bool) (probe : Probe Label) : Except ArithmeticError Nat := do
  let stride ← roundToSlot (← probe.type.elementSize matricesAsVectors)
  return probe.start + (probe.target - probe.start) % stride

/-- The array index of the byte at the type: a struct counts unpadded elements, every other type
counts slots. -/
def index (matricesAsVectors : Bool) (probe : Probe Label) : Except ArithmeticError Nat := do
  if probe.type.shape.variableClass = .struct then
    Word.divide (probe.target - probe.start) (← probe.type.elementSize matricesAsVectors)
  else
    return (probe.target - probe.start) / slotBytes

/-- The inner probe asks the first member of the outer one's struct that claims the folded
byte. -/
structure Descends (matricesAsVectors : Bool) (outer inner : Probe Label) : Prop where
  /-- Only structs have members to ask. -/
  struct : outer.type.shape.variableClass = .struct
  /-- The member is the first one that claims the folded byte. -/
  first : ∃ folded before after, outer.folded matricesAsVectors = .ok folded ∧
    inner = below outer.start folded inner.type ∧
    outer.type.members = before ++ inner.type :: after ∧
    ∀ earlier ∈ before, (below outer.start folded earlier).claims matricesAsVectors = .ok false
  /-- The member claims it. -/
  claimed : inner.claims matricesAsVectors = .ok true

/-- No member of the type can be asked, or none claims the folded byte. -/
def Settles (matricesAsVectors : Bool) (probe : Probe Label) : Prop :=
  probe.type.shape.variableClass = .struct →
    ∃ folded, probe.folded matricesAsVectors = .ok folded ∧
      ∀ member ∈ probe.type.members,
        (below probe.start folded member).claims matricesAsVectors = .ok false

/-- The probes after the outermost one, down to the innermost one. -/
inductive Trail (matricesAsVectors : Bool) :
    Probe Label → List (Probe Label) → Probe Label → Prop
  | settle {probe : Probe Label} :
      Settles matricesAsVectors probe → Trail matricesAsVectors probe [] probe
  | descend {outer inner leaf : Probe Label} {rest : List (Probe Label)} :
      Descends matricesAsVectors outer inner → Trail matricesAsVectors inner rest leaf →
        Trail matricesAsVectors outer (inner :: rest) leaf

theorem claims_eq_ok_iff {probe : Probe Label} {claimed : Bool} :
    probe.claims matricesAsVectors = .ok claimed ↔
      ∃ whole, probe.type.wholeSize matricesAsVectors = .ok whole ∧
        (claimed = true ↔ Covers probe.start whole probe.target) := by
  constructor
  · intro asked
    obtain ⟨whole, sized, decided⟩ := bind_eq_ok_iff.mp asked
    obtain rfl := Except.ok.inj decided
    exact ⟨whole, sized, decide_eq_true_iff⟩
  · rintro ⟨whole, sized, same⟩
    rw [claims, sized, ok_bind]
    exact congrArg Except.ok (Bool.eq_iff_iff.mpr (decide_eq_true_iff.trans same.symm))

/-- A search succeeds at a type exactly if the type claims the byte. -/
theorem claims_of_search {base target : Nat} {tree : LayoutTree Label}
    {answer : Option (Location Label)}
    (found : search matricesAsVectors base target tree = .ok answer)
    (target_le : target ≤ Word.last) :
    (below base target tree).claims matricesAsVectors = .ok answer.isSome := by
  obtain ⟨size, stride, measured, ends⟩ := search_cases found target_le
  refine claims_eq_ok_iff.mpr ⟨_, measured.wholeSize_eq, ?_⟩
  rcases ends with ⟨outside, rfl⟩ | ⟨covers, -, rfl⟩ | ⟨covers, -, inner, -, rfl⟩
  · exact ⟨nofun, fun covers => absurd covers outside⟩
  · exact ⟨fun _ => covers, fun _ => rfl⟩
  · exact ⟨fun _ => covers, fun _ => rfl⟩

theorem folded_of_measured {probe : Probe Label} {size stride : Nat}
    (measured : Measured matricesAsVectors probe.type size stride) :
    probe.folded matricesAsVectors =
      .ok (probe.start + (probe.target - probe.start) % stride) := by
  simp only [folded, measured.size_eq, measured.stride_eq, ok_bind]
  rfl

theorem measured_of_folded {probe : Probe Label} {folded : Nat}
    (folds : probe.folded matricesAsVectors = .ok folded) :
    ∃ size stride, Measured matricesAsVectors probe.type size stride ∧
      folded = probe.start + (probe.target - probe.start) % stride := by
  obtain ⟨size, sized, rest⟩ := bind_eq_ok_iff.mp folds
  obtain ⟨stride, rounded, finished⟩ := bind_eq_ok_iff.mp rest
  exact ⟨size, stride, ⟨sized, rounded⟩, (Except.ok.inj finished).symm⟩

theorem exists_covers_of_claims {probe : Probe Label}
    (claimed : probe.claims matricesAsVectors = .ok true) :
    ∃ whole, probe.type.wholeSize matricesAsVectors = .ok whole ∧
      Covers probe.start whole probe.target := by
  obtain ⟨whole, sized, same⟩ := claims_eq_ok_iff.mp claimed
  exact ⟨whole, sized, same.mp rfl⟩

theorem covers_of_claims {probe : Probe Label} {size stride : Nat}
    (measured : Measured matricesAsVectors probe.type size stride)
    (claimed : probe.claims matricesAsVectors = .ok true) :
    Covers probe.start (probe.type.shape.arrayExtent size stride) probe.target := by
  obtain ⟨whole, sized, covers⟩ := exists_covers_of_claims claimed
  exact measured.whole_eq sized ▸ covers

theorem Descends.isMember {outer inner : Probe Label}
    (step : Descends matricesAsVectors outer inner) : inner.type ∈ outer.type.members := by
  obtain ⟨_, _, _, _, _, split, _⟩ := step.first
  exact split ▸ List.mem_append_cons_self

/-- A trail ends in a node of the type that it starts from. -/
theorem Trail.mem_nodes {outer leaf : Probe Label} {rest : List (Probe Label)}
    (trail : Trail matricesAsVectors outer rest leaf) : leaf.type ∈ outer.type.nodes := by
  induction trail with
  | settle => exact self_mem_nodes _
  | descend step _ induction => exact mem_nodes_of_mem_members induction step.isMember

/-- All types of a trail but the innermost one are structs. -/
theorem Trail.struct_of_mem_dropLast {outer leaf : Probe Label} {rest : List (Probe Label)}
    (trail : Trail matricesAsVectors outer rest leaf) :
    ∀ probe ∈ (outer :: rest).dropLast, probe.type.shape.variableClass = .struct := by
  induction trail with
  | settle => exact nofun
  | descend step _ induction => exact List.forall_mem_cons.mpr ⟨step.struct, induction⟩

/-- Every probe of a trail claims its byte if the outermost one does. -/
theorem Trail.claims {outer leaf : Probe Label} {rest : List (Probe Label)}
    (trail : Trail matricesAsVectors outer rest leaf)
    (claimed : outer.claims matricesAsVectors = .ok true) :
    ∀ probe ∈ outer :: rest, probe.claims matricesAsVectors = .ok true := by
  induction trail with
  | settle => exact List.forall_mem_singleton.mpr claimed
  | descend step _ induction => exact List.forall_mem_cons.mpr ⟨claimed, induction step.claimed⟩

/-! ## The indices along a trail -/

/-- A search that passes the type reports an index for it. -/
def isLevel (probe : Probe Label) : Bool :=
  match probe.type.shape.variableClass with
  | .matrixRows | .matrixColumns => true
  | .struct | .scalar | .vector => probe.type.shape.isArray
  | _ => false

theorem index_of_leaf {probe : Probe Label} (leaf : probe.type.shape.variableClass ≠ .struct) :
    probe.index matricesAsVectors = .ok ((probe.target - probe.start) / slotBytes) :=
  if_neg leaf

theorem isLevel_of_isMatrix {probe : Probe Label}
    (isMatrix : probe.type.shape.variableClass.isMatrix) : probe.isLevel := by
  unfold VariableClass.isMatrix at isMatrix
  unfold isLevel
  split at isMatrix
  · simp [*]
  · simp [*]
  · contradiction

theorem isLevel_eq {probe : Probe Label}
    (numeric : probe.type.shape.variableClass ∈ [VariableClass.scalar, .vector, .struct] ∨
      probe.type.shape.variableClass.isMatrix ∧ probe.type.shape.isArray) :
    probe.isLevel = probe.type.shape.isArray := by
  rcases numeric with single | ⟨isMatrix, array⟩
  · simp only [List.mem_cons, List.not_mem_nil, or_false] at single
    unfold isLevel
    rcases single with same | same | same <;> rw [same]
  · rw [isLevel_of_isMatrix isMatrix, array]

/-- On the way of a trail the levels are the arrays, but for the innermost type. -/
theorem Trail.levels {outer leaf : Probe Label} {rest : List (Probe Label)}
    (trail : Trail matricesAsVectors outer rest leaf) :
    ∃ passed, (outer :: rest).filter isLevel = passed ++ [leaf].filter isLevel ∧
      (outer :: rest).filter (·.type.shape.isArray) =
        passed ++ [leaf].filter (·.type.shape.isArray) := by
  induction trail with
  | settle => exact ⟨[], rfl, rfl⟩
  | @descend outer inner leaf rest step trail induction =>
      obtain ⟨passed, levels, arrays⟩ := induction
      have level : isLevel outer = outer.type.shape.isArray :=
        isLevel_eq (Or.inl (by simp [step.struct]))
      have same : [outer].filter isLevel = [outer].filter (·.type.shape.isArray) := by
        simp only [List.filter, level]
      refine ⟨[outer].filter isLevel ++ passed, ?_, ?_⟩
      · rw [← List.singleton_append, List.filter_append, levels, List.append_assoc]
      · rw [← List.singleton_append, List.filter_append, arrays, List.append_assoc,
          same]

/-- The indices are those computed at the levels of a trail, outermost first. -/
def Indexes (matricesAsVectors : Bool) (probes : List (Probe Label)) (indices : List Nat) :
    Prop :=
  (probes.filter isLevel).map (index matricesAsVectors) = indices.map .ok

theorem indexes_iff {probes : List (Probe Label)} {indices : List Nat} :
    Indexes matricesAsVectors probes indices ↔
      (probes.filter isLevel).map (index matricesAsVectors) = indices.map .ok := Iff.rfl

theorem Indexes.cons {probe : Probe Label} {probes : List (Probe Label)}
    {outer indices : List Nat} (first : Indexes matricesAsVectors [probe] outer)
    (rest : Indexes matricesAsVectors probes indices) :
    Indexes matricesAsVectors (probe :: probes) (outer ++ indices) := by
  unfold Indexes at *
  rw [← List.singleton_append, List.filter_append, List.map_append, first, rest, List.map_append]

theorem indexes_leaf {probe : Probe Label} (leaf : probe.type.shape.variableClass ≠ .struct) :
    Indexes matricesAsVectors [probe]
      (probe.type.leafLocation probe.start (probe.target - probe.start)).indices := by
  have computed : probe.index matricesAsVectors = _ := index_of_leaf leaf
  unfold Indexes isLevel leafLocation
  cases variableClass : probe.type.shape.variableClass <;>
    cases array : probe.type.shape.isArray <;>
    simp_all

theorem indexes_struct {probe : Probe Label} {size stride : Nat}
    (measured : Measured matricesAsVectors probe.type size stride)
    (covers : Covers probe.start (probe.type.shape.arrayExtent size stride) probe.target)
    (struct : probe.type.shape.variableClass = .struct) :
    Indexes matricesAsVectors [probe]
      (probe.type.shape.structLevel size (probe.target - probe.start)) := by
  have divided : Word.divide (probe.target - probe.start) size =
      .ok ((probe.target - probe.start) / size) :=
    Word.divide_eq_ok_iff.mpr ⟨Nat.ne_of_gt (measured.size_pos covers), rfl⟩
  have computed : probe.index matricesAsVectors =
      .ok ((probe.target - probe.start) / size) := by
    rw [index, if_pos struct, measured.size_eq, ok_bind, divided]
  unfold Indexes isLevel Shape.structLevel
  cases array : probe.type.shape.isArray <;> simp_all

section Indexed

variable {outer leaf : Probe Label} {rest : List (Probe Label)} {indices : List Nat}

/-- An index belongs to the array at the same position on the way. -/
theorem Indexes.index_eq (indexed : Indexes matricesAsVectors (outer :: rest) indices)
    (trail : Trail matricesAsVectors outer rest leaf) {position value : Nat}
    {probe : Probe Label}
    (isArray : ((outer :: rest).filter (·.type.shape.isArray))[position]? = some probe)
    (isIndex : indices[position]? = some value) :
    probe.index matricesAsVectors = .ok value := by
  obtain ⟨passed, levels, arrays⟩ := trail.levels
  have there := congrArg (·[position]?) (indexes_iff.mp indexed)
  simp only [List.getElem?_map, isIndex, Option.map_some, Option.map_eq_some_iff] at there
  obtain ⟨level, isLevel, level_index⟩ := there
  rw [levels] at isLevel
  rw [arrays] at isArray
  have innermost {accepts : Probe Label → Bool} {found : Probe Label} {place : Nat}
      (isFound : ([leaf].filter accepts)[place]? = some found) : found = leaf :=
    List.mem_singleton.mp (List.mem_filter.mp (List.mem_of_getElem? isFound)).1
  rcases Nat.lt_or_ge position passed.length with inside | beyond
  · rw [List.getElem?_append_left inside] at isLevel isArray
    obtain rfl := Option.some.inj (isArray.symm.trans isLevel)
    exact level_index
  · rw [List.getElem?_append_right beyond] at isLevel isArray
    obtain rfl := (innermost isLevel).trans (innermost isArray).symm
    exact level_index

/-- There is one index for each array, but for what the innermost type adds or leaves out. -/
theorem Indexes.length_eq (indexed : Indexes matricesAsVectors (outer :: rest) indices)
    (trail : Trail matricesAsVectors outer rest leaf) :
    indices.length + leaf.type.shape.isArray.toNat =
      ((outer :: rest).filter (·.type.shape.isArray)).length + leaf.isLevel.toNat := by
  obtain ⟨passed, levels, arrays⟩ := trail.levels
  have lengths : ((outer :: rest).filter isLevel).length = indices.length := by
    rw [← List.length_map, indexes_iff.mp indexed, List.length_map]
  rw [← lengths, levels, arrays, List.length_append, List.length_append]
  cases isLevel : leaf.isLevel <;> cases isArray : leaf.type.shape.isArray <;>
    simp [isLevel, isArray]

/-- The last index in a matrix counts the slots before the byte. -/
theorem Indexes.getLast?_eq (indexed : Indexes matricesAsVectors (outer :: rest) indices)
    (trail : Trail matricesAsVectors outer rest leaf)
    (isMatrix : leaf.type.shape.variableClass.isMatrix) :
    indices.getLast? = some ((leaf.target - leaf.start) / slotBytes) := by
  obtain ⟨passed, levels, -⟩ := trail.levels
  have notStruct : leaf.type.shape.variableClass ≠ .struct := by
    intro struct
    rw [struct] at isMatrix
    contradiction
  have last := congrArg List.getLast? (indexes_iff.mp indexed)
  rw [levels, List.filter_cons_of_pos (isLevel_of_isMatrix isMatrix), List.filter_nil,
    List.map_append, List.map_singleton, List.getLast?_concat, index_of_leaf notStruct,
    List.getLast?_map] at last
  obtain ⟨value, isLast, same⟩ := Option.map_eq_some_iff.mp last.symm
  rw [isLast, Except.ok.inj same]

end Indexed

/-- Byte at which a lone vector starts inside its slot, and 0 for any other type. -/
def rebase (probe : Probe Label) : Nat :=
  if probe.type.shape.variableClass = .vector ∧ probe.type.shape.isArray = false then
    probe.start % slotBytes
  else 0

theorem rebase_leaf (probe : Probe Label) (distance : Nat) :
    (probe.type.leafLocation probe.start distance).rebase = probe.rebase := by
  unfold rebase leafLocation
  cases probe.type.shape.variableClass <;> cases probe.type.shape.isArray <;> simp

theorem rebase_struct {probe : Probe Label}
    (struct : probe.type.shape.variableClass = .struct) : probe.rebase = 0 := by
  simp [rebase, struct]

/-- A search that finds a byte leaves a trail to the leaf. The indices are computed along the trail,
the rebase where it ends. -/
theorem exists_trail {base target : Nat} {tree : LayoutTree Label} {location : Location Label}
    (found : search matricesAsVectors base target tree = .ok (some location))
    (target_le : target ≤ Word.last) :
    ∃ rest leaf, Trail matricesAsVectors (below base target tree) rest leaf ∧
      leaf.type = location.leaf ∧
      Indexes matricesAsVectors (below base target tree :: rest) location.indices ∧
      location.rebase = leaf.rebase := by
  induction tree using inheritance generalizing base target location with
  | step tree induction =>
      obtain ⟨size, stride, measured, ends⟩ := search_cases found target_le
      rcases ends with ⟨-, impossible⟩ | ⟨-, leaf, same⟩ | ⟨covers, struct, inner, asked, same⟩
      · contradiction
      · obtain rfl := Option.some.inj same
        exact ⟨[], _, .settle fun struct => absurd struct leaf, (leafLocation_leaf ..).symm,
          indexes_leaf leaf, rebase_leaf (below base target tree) _⟩
      · obtain rfl := Option.some.inj same
        have folded : (below base target tree).folded matricesAsVectors = .ok _ :=
          folded_of_measured measured
        have level : Indexes matricesAsVectors [below base target tree] _ :=
          indexes_struct measured covers struct
        have folded_le := Nat.le_trans (folded_le covers stride) target_le
        rcases searchMembers_cases asked with ⟨rfl, turnedDown⟩ |
          ⟨before, member, after, location, split, turnedDown, located, rfl⟩
        · exact ⟨[], _, .settle fun _ => ⟨_, folded, fun member isMember =>
            claims_of_search (turnedDown member isMember) folded_le⟩, rfl, level,
            (rebase_struct struct).symm⟩
        · have isMember : member ∈ tree.members := split ▸ List.mem_append_cons_self
          obtain ⟨rest, leaf, trail, leaf_eq, indexed, rebased⟩ :=
            induction member isMember located folded_le
          refine ⟨below _ _ member :: rest, leaf, .descend ⟨struct, ?_, ?_⟩ trail, leaf_eq,
            level.cons indexed, rebased⟩
          · exact ⟨_, before, after, folded, rfl, split, fun earlier isEarlier =>
              claims_of_search (turnedDown earlier isEarlier) folded_le⟩
          · exact claims_of_search located folded_le

end Probe

open Probe

/-- Locating a byte that does not stop at an overflow succeeds exactly inside the packed extent of
the type, and then a trail of first claimants leads to the leaf. -/
theorem locate_firstClaimants (flags : LayoutFlags) (base target : UInt32) (type : PlacedType)
    (answer : Option (Location Placement))
    (located : (type.locate flags base target).run.value = .ok answer) :
    let start := Word.saturatingAdd base.toNat type.shape.offset.toNat
    let outermost := below base.toNat target.toNat type
    (∃ whole, type.wholeSize flags.matricesAsVectors = .ok whole ∧
      (answer.isSome ↔ start ≤ target.toNat ∧ target.toNat - start < whole)) ∧
    ∀ location, answer = some location → ∃ rest innermost,
      Trail flags.matricesAsVectors outermost rest innermost ∧
      innermost.type = location.leaf ∧
      ∀ probe ∈ outermost :: rest, probe.claims flags.matricesAsVectors = .ok true := by
  rw [PlacedType.value_locate] at located
  have target_le : target.toNat ≤ Word.last := Nat.le_of_lt_succ target.toNat_lt
  have claimed := claims_of_search located target_le
  refine ⟨claims_eq_ok_iff.mp claimed, ?_⟩
  rintro location rfl
  obtain ⟨rest, innermost, trail, leaf_eq, -⟩ := exists_trail located target_le
  exact ⟨rest, innermost, trail, leaf_eq, trail.claims claimed⟩

theorem locate_firstClaimants_nestedArrays :
    let bones : PlacedType := TypeDescription.place none 0
      (.array 3 (.struct "bones" 16 [.scalar "weight" 0, .array 2 (.vector "axis" 16 3)]))
    ∃ location, (bones.locate ⟨0⟩ 4 105).run.value = .ok (some location) ∧
      location.indices = [1, 1] ∧
      (∃ whole, bones.wholeSize false = .ok whole ∧ (true ↔ 20 ≤ 105 ∧ 105 - 20 < whole)) ∧
      ∃ rest innermost, Trail false (below 4 105 bones) rest innermost ∧
        innermost.type = location.leaf ∧
        ∀ probe ∈ below 4 105 bones :: rest, probe.claims false = .ok true := by
  intro bones
  have located : ∃ location, (bones.locate ⟨0⟩ 4 105).run.value = .ok (some location) ∧
      location.indices = [1, 1] := by
    cbv
    exact ⟨_, rfl, rfl⟩
  obtain ⟨location, found, indices⟩ := located
  obtain ⟨inside, trail⟩ := locate_firstClaimants ⟨0⟩ 4 105 bones (some location) found
  exact ⟨location, found, indices, inside, trail location rfl⟩

end ShaderInterface
