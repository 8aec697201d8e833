import ShaderInterface.Proofs.Buffer.Numbering
import ShaderInterface.Proofs.Buffer.Scan
import ShaderInterface.Proofs.Layout.ExactSearch
import ShaderInterface.Proofs.Layout.Visits

/-!
# Declaration order

The order of the declarations decides which of several variables an access is resolved to and how
the types are numbered. If no two variables share a byte, nothing else depends on it.
-/

namespace ShaderInterface

open LayoutTree

/-- What an access reads, apart from the position of the variable in its buffer. -/
structure Reading where
  /-- Name of the variable. -/
  name : String
  /-- Byte offset of the variable. -/
  start : UInt32
  /-- Declared size of the variable. -/
  size : UInt32
  /-- Number of the leaf counted from the type of the variable. -/
  leafDistance : Nat
  /-- Full name of the leaf. -/
  fullName : String
  /-- The byte selects one slot of the leaf. -/
  isArray : Bool
  /-- Array indices, outermost level first. -/
  indices : List Nat
  /-- Byte at which a lone vector starts inside its slot. -/
  rebase : Nat
deriving DecidableEq, Repr

/-- The reading of a resolved access. -/
def Resolution.reading (resolution : Resolution) : Reading :=
  let holder := resolution.holder.entry
  let location := resolution.location
  { name := holder.name
    start := holder.start
    size := holder.size
    leafDistance := location.leaf.label.id - holder.type.label.id
    fullName := location.leaf.label.fullName
    isArray := location.isArray
    indices := location.indices
    rebase := location.rebase }

theorem findSome?_eq_of_perm {Entry Value : Type} {read : Entry → Option Value}
    {entries reordered : List Entry} (perm : entries.Perm reordered)
    (exclusive : entries.Pairwise fun first second => read first = none ∨ read second = none) :
    entries.findSome? read = reordered.findSome? read := by
  induction perm with
  | nil => rfl
  | cons entry _ induction =>
      rw [List.findSome?_cons, List.findSome?_cons,
        induction (List.pairwise_cons.mp exclusive).2]
  | swap first second rest =>
      have apart := (List.pairwise_cons.mp exclusive).1 first List.mem_cons_self
      simp only [List.findSome?_cons]
      rcases apart with absent | absent <;> rw [absent]
  | trans before _ earlier later =>
      have symmetric := (before.pairwise_iff fun {_ _} => Or.symm).mp exclusive
      exact (earlier exclusive).trans (later symmetric)

namespace VariableDeclaration

variable {flags : LayoutFlags} {byteOffset : UInt32} {declaration : VariableDeclaration}

/-- The byte lies in the packed extent of the declared type, counted without a largest word. -/
def Occupies (matricesAsVectors : Bool) (declaration : VariableDeclaration) (byte : Nat) : Prop :=
  ∃ whole, declaration.type.wholeSize matricesAsVectors = .ok whole ∧
    Covers (declaration.start.toNat + declaration.type.shape.offset.toNat) whole byte

/-- A variable shares no byte with one that starts after its end. -/
theorem not_occupies_of_end_le {matricesAsVectors : Bool} {first second : VariableDeclaration}
    {whole : Nat} (sized : first.type.wholeSize matricesAsVectors = .ok whole)
    (end_le : first.start.toNat + first.type.shape.offset.toNat + whole ≤
      second.start.toNat + second.type.shape.offset.toNat) (byte : Nat) :
    ¬ (second.Occupies matricesAsVectors byte ∧ first.Occupies matricesAsVectors byte) := by
  rintro ⟨⟨_, -, furtherCovers⟩, ⟨_, sized', covers⟩⟩
  obtain rfl := Except.ok.inj (sized.symm.trans sized')
  exact not_covers_of_end_le end_le byte ⟨covers, furtherCovers⟩

/-- Placing a variable elsewhere relabels the location found in it. -/
theorem find_placeAt (flags : LayoutFlags) (byteOffset : UInt32) (id : Nat)
    (declaration : VariableDeclaration) :
    (declaration.placeAt id).find flags byteOffset =
      ((declaration.placeAt 0).find flags byteOffset).map
        (Option.map (Location.relabel (Placement.shift id))) := by
  have placed := TypeDescription.place_add none 0 id declaration.type
  rw [Option.map_none, Nat.zero_add] at placed
  rw [BufferVariable.find, BufferVariable.find, placeAt, placeAt, placed, search_relabel]

/-- What reading a byte of the variable gives, if the byte belongs to it. -/
def reading? (flags : LayoutFlags) (byteOffset : UInt32) (declaration : VariableDeclaration) :
    Option Reading :=
  match (declaration.placeAt 0).find flags byteOffset with
  | .ok (some location) => some (Resolution.reading ⟨⟨0, declaration.placeAt 0⟩, location⟩)
  | _ => none

/-- A variable has a reading only for the bytes that it occupies. -/
theorem occupies_of_reading? {reading : Reading} (below : byteOffset.toNat < Word.last)
    (read : declaration.reading? flags byteOffset = some reading) :
    declaration.Occupies flags.matricesAsVectors byteOffset.toNat := by
  rw [reading?] at read
  split at read
  · rename_i location located
    obtain ⟨size, stride, measured, ends⟩ := search_cases located (Nat.le_of_lt below)
    rcases ends with ⟨-, impossible⟩ | ends
    · contradiction
    · have covers : Covers _ _ byteOffset.toNat := ends.elim (·.1) (·.1)
      rw [saturatingAdd_of_covers below covers, placeAt, TypeDescription.shape_place] at covers
      have sized := measured.wholeSize_eq
      rw [placeAt, TypeDescription.wholeSize_place, TypeDescription.shape_place] at sized
      exact ⟨_, sized, covers⟩
  · contradiction

/-- A variable whose types can all be measured answers for every byte. -/
theorem exists_find
    (measured : ∀ node ∈ declaration.type.nodes, ∃ size stride,
      Measured flags.matricesAsVectors node size stride) (byteOffset : UInt32) :
    ∃ answer, (declaration.placeAt 0).find flags byteOffset = .ok answer := by
  apply exists_search _ (Nat.le_of_lt_succ byteOffset.toNat_lt)
  intro node isNode
  have isDeclared : node.relabel Placement.toDeclaration ∈ declaration.type.nodes := by
    rw [← TypeDescription.description_place none 0 declaration.type, PlacedType.description,
      nodes_relabel]
    exact List.mem_map_of_mem isNode
  obtain ⟨size, stride, sized⟩ := measured _ isDeclared
  exact ⟨size, stride, measured_relabel_iff.mp sized⟩

end VariableDeclaration

/-- The variables of a buffer are read in the order of their declarations, wherever their types
are placed. -/
theorem reading_resolveAmong {flags : LayoutFlags} {byteOffset : UInt32}
    {declarations : List VariableDeclaration} {holders : List (Declared BufferVariable)} {id : Nat}
    (placed : holders.map (·.entry) = placeVariables id declarations)
    (answers : ∀ declaration ∈ declarations, ∃ answer,
      (declaration.placeAt 0).find flags byteOffset = .ok answer) :
    ∃ answer, (resolveAmong flags byteOffset holders).run.value = .ok answer ∧
      answer.map Resolution.reading =
        declarations.findSome? (VariableDeclaration.reading? flags byteOffset) := by
  induction declarations generalizing holders id with
  | nil =>
      obtain rfl := List.map_eq_nil_iff.mp placed
      exact ⟨none, rfl, rfl⟩
  | cons declaration rest induction =>
      obtain ⟨holder, holders, rfl, same, placedRest⟩ := List.map_eq_cons_iff.mp placed
      obtain ⟨⟨first, found⟩, later⟩ := List.forall_mem_cons.mp answers
      rw [value_resolveAmong_cons, same, VariableDeclaration.find_placeAt, found,
        List.findSome?_cons, VariableDeclaration.reading?, found]
      cases first with
      | none => exact induction placedRest later
      | some location =>
          refine ⟨_, rfl, ?_⟩
          simp [Resolution.reading, same, Location.relabel, VariableDeclaration.placeAt,
            TypeDescription.id_place, Placement.shift]

/-- If no two of the declared variables share a byte and all their types can be measured, an access
is resolved, and what it reads does not depend on the order of the declarations. -/
theorem reading_resolve_of_perm (name : String) (bindPoint : UInt32) (flags : LayoutFlags)
    (declarations reordered : List VariableDeclaration) (perm : declarations.Perm reordered)
    (measured : ∀ declaration ∈ declarations, ∀ node ∈ declaration.type.nodes, ∃ size stride,
      Measured flags.matricesAsVectors node size stride)
    (disjoint : declarations.Pairwise fun first second => ∀ byte,
      ¬ (first.Occupies flags.matricesAsVectors byte ∧
        second.Occupies flags.matricesAsVectors byte))
    (slot : UInt32) (swizzle : Swizzle) :
    let resolve := fun declared : List VariableDeclaration =>
      ((ConstantBuffer.ofDeclarations name bindPoint declared).resolve slot swizzle
        flags).run.value
    ∃ first second, resolve declarations = .ok first ∧ resolve reordered = .ok second ∧
      first.map Resolution.reading = second.map Resolution.reading := by
  intro resolve
  have answers : ∀ declared : List VariableDeclaration, declarations.Perm declared →
      ∀ byteOffset, ∃ answer, (resolveAmong flags byteOffset (Declared.all
          (ConstantBuffer.ofDeclarations name bindPoint declared).entries)).run.value =
            .ok answer ∧
        answer.map Resolution.reading =
          declared.findSome? (VariableDeclaration.reading? flags byteOffset) := by
    intro declared same byteOffset
    apply reading_resolveAmong
    · rw [Declared.map_entry_all, ConstantBuffer.entries_ofDeclarations]
    · intro declaration isDeclaration
      exact VariableDeclaration.exists_find
        (measured declaration (same.mem_iff.mpr isDeclaration)) byteOffset
  simp only [resolve, ConstantBuffer.value_resolve]
  cases selected : Swizzle.byteOffset? slot swizzle with
  | none => exact ⟨none, none, rfl, rfl, rfl⟩
  | some byteOffset =>
      obtain ⟨first, resolved, read⟩ := answers declarations (.refl _) byteOffset
      obtain ⟨second, resolved', read'⟩ := answers reordered perm byteOffset
      refine ⟨first, second, resolved, resolved', ?_⟩
      rw [read, read']
      apply findSome?_eq_of_perm perm
      refine disjoint.imp fun {left right} apart => ?_
      cases leftRead : left.reading? flags byteOffset with
      | none => exact Or.inl rfl
      | some _ =>
          cases rightRead : right.reading? flags byteOffset with
          | none => exact Or.inr rfl
          | some _ =>
              have below := Swizzle.lt_last_of_byteOffset? selected
              exact absurd ⟨VariableDeclaration.occupies_of_reading? below leftRead,
                VariableDeclaration.occupies_of_reading? below rightRead⟩ (apart _)

/-- An array of structs that starts after a vector, but is declared before it. -/
def boneDeclarations : List VariableDeclaration :=
  [⟨16, 0, .array 2 (.struct "bones" 0 [.scalar "weight" 0, .array 2 (.vector "tail" 16 4)])⟩,
    ⟨0, 0, .vector "axis" 4 3⟩]

theorem reading_resolve_of_perm_boneDeclarations :
    boneDeclarations.Perm boneDeclarations.reverse ∧
    (∀ declaration ∈ boneDeclarations, ∀ node ∈ declaration.type.nodes, ∃ size stride,
      Measured false node size stride) ∧
    (boneDeclarations.Pairwise fun first second => ∀ byte,
      ¬ (first.Occupies false byte ∧ second.Occupies false byte)) ∧
    let resolve := fun declared : List VariableDeclaration =>
      ((ConstantBuffer.ofDeclarations "Skin" 0 declared).resolve 6 (.splat 1) ⟨0⟩).run.value
    ∃ first second, resolve boneDeclarations = .ok first ∧
      resolve boneDeclarations.reverse = .ok second ∧
      first.map Resolution.reading =
        some ⟨"bones", 16, 0, 2, "bones[].tail[]", true, [1, 1], 0⟩ ∧
      first.map Resolution.reading = second.map Resolution.reading := by
  have perm : boneDeclarations.Perm boneDeclarations.reverse :=
    (List.reverse_perm boneDeclarations).symm
  have measured : ∀ declaration ∈ boneDeclarations, ∀ node ∈ declaration.type.nodes,
      ∃ size stride, Measured false node size stride := by
    decide
  have disjoint : boneDeclarations.Pairwise fun first second => ∀ byte,
      ¬ (first.Occupies false byte ∧ second.Occupies false byte) := by
    have sized : boneDeclarations[1].type.wholeSize false = .ok 12 := rfl
    exact List.pairwise_pair.mpr (VariableDeclaration.not_occupies_of_end_le sized (by decide))
  refine ⟨perm, measured, disjoint, ?_⟩
  obtain ⟨first, second, resolved, resolved', same⟩ := reading_resolve_of_perm "Skin" 0 ⟨0⟩
    boneDeclarations boneDeclarations.reverse perm measured disjoint 6 (.splat 1)
  have found : ∃ answer, ((ConstantBuffer.ofDeclarations "Skin" 0 boneDeclarations).resolve 6
      (.splat 1) ⟨0⟩).run.value = .ok answer ∧ answer.map Resolution.reading =
        some ⟨"bones", 16, 0, 2, "bones[].tail[]", true, [1, 1], 0⟩ := by
    cbv
    exact ⟨_, rfl, rfl⟩
  obtain ⟨answer, resolved'', read⟩ := found
  obtain rfl := Except.ok.inj (resolved.symm.trans resolved'')
  exact ⟨_, _, resolved, resolved', read, same⟩

end ShaderInterface
