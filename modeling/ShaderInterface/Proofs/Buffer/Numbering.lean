import Mathlib.Algebra.Ring.Nat
import ShaderInterface.Proofs.Buffer.Enclosing
import ShaderInterface.Proofs.Layout.Relabel

/-!
# Numbering

The types of a buffer are numbered by placing one description after the other. The numbers inside a
placed description are those from its own number on, and placing it elsewhere shifts them all by
the same distance.
-/

namespace ShaderInterface

open LayoutTree

/-- The placement with its numbers moved up by `distance`. -/
def Placement.shift (distance : Nat) (placement : Placement) : Placement :=
  { placement with
    id := placement.id + distance
    parent := placement.parent.map (· + distance) }

/-- The description that a placed type was made of. -/
def PlacedType.description (type : PlacedType) : TypeDescription :=
  type.relabel Placement.toDeclaration

namespace TypeDescription

mutual

/-- A placed description is still the same description. -/
theorem description_place (owner : Option Placement) (id : Nat) (description : TypeDescription) :
    (place owner id description).description = description := by
  cases description with
  | node shape declaration members =>
      rw [place, PlacedType.description, relabel, relabelAll_placeMembers]
      rfl

theorem relabelAll_placeMembers (owner : Placement) (id : Nat)
    (members : List TypeDescription) :
    relabelAll Placement.toDeclaration (placeMembers owner id members) = members := by
  cases members with
  | nil => rfl
  | cons member rest =>
      have first := description_place (some owner) id member
      rw [PlacedType.description] at first
      rw [placeMembers, relabelAll, first, relabelAll_placeMembers owner _ rest]

end

@[simp] theorem nodeCount_place (owner : Option Placement) (id : Nat)
    (description : TypeDescription) :
    (place owner id description).nodeCount = description.nodeCount := by
  conv => rhs; rw [← description_place owner id description, PlacedType.description]
  rw [nodeCount_relabel]

@[simp] theorem wholeSize_place (matricesAsVectors : Bool) (owner : Option Placement) (id : Nat)
    (description : TypeDescription) :
    (place owner id description).wholeSize matricesAsVectors =
      description.wholeSize matricesAsVectors := by
  conv => rhs; rw [← description_place owner id description, PlacedType.description]
  rw [wholeSize_relabel]

theorem id_place (owner : Option Placement) (id : Nat) (description : TypeDescription) :
    (place owner id description).label.id = id := by
  rw [label_place]
  rfl

mutual

/-- Placing a description further on shifts the numbers of all its nodes. -/
theorem place_add (owner : Option Placement) (id distance : Nat) (description : TypeDescription) :
    place (owner.map (Placement.shift distance)) (id + distance) description =
      (place owner id description).relabel (Placement.shift distance) := by
  cases description with
  | node shape declaration members =>
      have placed : declaration.placeAt (owner.map (Placement.shift distance)) (id + distance)
          shape = (declaration.placeAt owner id shape).shift distance := by
        cases owner <;> rfl
      rw [place, place, relabel, placed, Nat.add_right_comm, placeMembers_add]

theorem placeMembers_add (owner : Placement) (id distance : Nat)
    (members : List TypeDescription) :
    placeMembers (owner.shift distance) (id + distance) members =
      relabelAll (Placement.shift distance) (placeMembers owner id members) := by
  cases members with
  | nil => rfl
  | cons member rest =>
      rw [placeMembers, placeMembers, relabelAll, ← place_add (some owner) id distance member,
        Nat.add_right_comm, placeMembers_add owner _ distance rest]
      rfl

end

/-- Every node of a placed description is a placed description. -/
theorem exists_place_of_mem_nodes {owner : Option Placement} {id : Nat}
    {description : TypeDescription} :
    ∀ node ∈ (place owner id description).nodes,
      ∃ outer number inner, node = place outer number inner := by
  refine forall_mem_nodes ⟨owner, id, description, rfl⟩ ?_
  rintro _ - ⟨outer, number, inner, rfl⟩ member isMember
  rw [members_place] at isMember
  obtain ⟨declared, -, later, -, rfl⟩ := exists_of_mem_placeMembers isMember
  exact ⟨_, later, declared, rfl⟩

/-- Placed members are numbered in the order of their declarations. -/
theorem pairwise_placeMembers (owner : Placement) (id : Nat) (members : List TypeDescription) :
    ((placeMembers owner id members).map (·.label.id)).Pairwise (· < ·) := by
  induction members generalizing id with
  | nil => exact List.Pairwise.nil
  | cons member rest induction =>
      rw [placeMembers, List.map_cons, id_place]
      refine List.Pairwise.cons ?_ (induction _)
      intro number isNumber
      obtain ⟨placed, isPlaced, rfl⟩ := List.mem_map.mp isNumber
      obtain ⟨declared, -, later, after, rfl⟩ := exists_of_mem_placeMembers isPlaced
      have counted := LayoutTree.nodeCount_pos member
      rw [id_place]
      omega

end TypeDescription

/-! ## The variables of a buffer -/

/-- The variable with its types numbered from `id` on. -/
def VariableDeclaration.placeAt (id : Nat) (declaration : VariableDeclaration) :
    BufferVariable :=
  { name := declaration.type.label.name
    start := declaration.start
    size := declaration.size
    type := declaration.type.place none id }

/-- Variables with their types numbered one variable after the other, from `id` on. -/
def placeVariables (id : Nat) : List VariableDeclaration → List BufferVariable
  | [] => []
  | declaration :: rest =>
      declaration.placeAt id :: placeVariables (id + declaration.type.nodeCount) rest

theorem exists_of_mem_placeVariables {declarations : List VariableDeclaration} {id : Nat}
    {declared : BufferVariable} (isPlaced : declared ∈ placeVariables id declarations) :
    ∃ declaration ∈ declarations, ∃ later, id ≤ later ∧ declared = declaration.placeAt later := by
  induction declarations generalizing id with
  | nil => exact absurd isPlaced List.not_mem_nil
  | cons first rest induction =>
      rcases List.mem_cons.mp isPlaced with rfl | isLater
      · exact ⟨first, List.mem_cons_self, id, Nat.le_refl id, rfl⟩
      · obtain ⟨declaration, isDeclaration, later, after, same⟩ := induction isLater
        exact ⟨declaration, List.mem_cons_of_mem first isDeclaration, later, by omega, same⟩

/-- The types of a variable are numbered before those of the next one. -/
theorem pairwise_placeVariables (id : Nat) (declarations : List VariableDeclaration) :
    (placeVariables id declarations).Pairwise fun earlier later =>
      earlier.type.label.id + earlier.type.nodeCount ≤ later.type.label.id := by
  induction declarations generalizing id with
  | nil => exact List.Pairwise.nil
  | cons first rest induction =>
      refine List.Pairwise.cons ?_ (induction _)
      intro declared isPlaced
      obtain ⟨declaration, -, later, after, rfl⟩ := exists_of_mem_placeVariables isPlaced
      simpa [VariableDeclaration.placeAt, TypeDescription.id_place] using after

/-- The type of a variable is numbered by the nodes of the variables before it. -/
theorem getElem?_placeVariables (id : Nat) (declarations : List VariableDeclaration)
    (position : Nat) :
    (placeVariables id declarations)[position]? =
      declarations[position]?.map (VariableDeclaration.placeAt
        (id + ((declarations.take position).map (·.type.nodeCount)).sum)) := by
  induction declarations generalizing id position with
  | nil => rfl
  | cons first rest induction =>
      cases position with
      | zero => rfl
      | succ position => simp [placeVariables, induction, Nat.add_assoc]

namespace ConstantBuffer

theorem typeCount_push (declaration : VariableDeclaration) (buffer : ConstantBuffer) :
    (buffer.push declaration).typeCount = buffer.typeCount + declaration.type.nodeCount := by
  rw [typeCount, types_push, List.length_append, ← nodeCount, TypeDescription.nodeCount_place,
    typeCount]

/-- The variables of a buffer made of declarations, with their numbers. -/
theorem entries_ofDeclarations (name : String) (bindPoint : UInt32)
    (declarations : List VariableDeclaration) :
    (ofDeclarations name bindPoint declarations).entries = placeVariables 0 declarations := by
  suffices grown : ∀ buffer : ConstantBuffer,
      (declarations.foldl (fun buffer declaration => buffer.push declaration) buffer).entries =
        buffer.entries ++ placeVariables buffer.typeCount declarations from
    grown (empty name bindPoint)
  induction declarations with
  | nil => exact fun buffer => (List.append_nil _).symm
  | cons declaration rest induction =>
      intro buffer
      rw [List.foldl_cons, induction, typeCount_push, placeVariables]
      simp [push, nextVariable, VariableDeclaration.placeAt]

/-- A variable is called as its type is. -/
theorem name_of_mem_entries {name : String} {bindPoint : UInt32}
    {declarations : List VariableDeclaration} :
    ∀ declared ∈ (ofDeclarations name bindPoint declarations).entries,
      declared.name = declared.type.label.name := by
  intro declared isEntry
  rw [entries_ofDeclarations] at isEntry
  obtain ⟨declaration, -, id, -, rfl⟩ := exists_of_mem_placeVariables isEntry
  rw [VariableDeclaration.placeAt, TypeDescription.label_place]
  rfl

/-- Every type of a buffer made of declarations is a placed description. -/
theorem exists_place_of_mem_types {name : String} {bindPoint : UInt32}
    {declarations : List VariableDeclaration} {type : PlacedType}
    (isType : type ∈ (ofDeclarations name bindPoint declarations).types) :
    ∃ owner description, type = TypeDescription.place owner type.label.id description := by
  obtain ⟨declared, isEntry, isNode⟩ := List.mem_flatMap.mp isType
  obtain ⟨id, description, placed⟩ := exists_place_of_mem_entries declared isEntry
  rw [placed] at isNode
  obtain ⟨owner, number, inner, rfl⟩ := TypeDescription.exists_place_of_mem_nodes type isNode
  exact ⟨owner, inner, by rw [TypeDescription.id_place]⟩

end ConstantBuffer
end ShaderInterface
