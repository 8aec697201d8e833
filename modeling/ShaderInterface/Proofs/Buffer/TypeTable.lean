import Mathlib.Order.Bounds.Defs
import ShaderInterface.Proofs.Buffer.Numbering

/-!
# Type tables

The types of a buffer as a table in which members and parents are numbers of rows. The table grows
by appending a row for each node of a description and noting the number of each member in the row
of its owner. It keeps parents before members, and following the member numbers from the row of a
variable gives back the description that was appended.
-/

namespace ShaderInterface

open LayoutTree

/-- What a type table says about one type. -/
structure TypeRow where
  /-- The declared numbers. -/
  shape : Shape
  /-- The declared name and component type. -/
  declaration : Declaration
  /-- The name template. -/
  fullName : String
  /-- Numbers of the members in declaration order. -/
  members : List Nat
  /-- Number of the enclosing type. -/
  parent : Option Nat
deriving DecidableEq, Repr

/-- The row of a placed type. -/
def PlacedType.row (type : PlacedType) : TypeRow :=
  { shape := type.shape
    declaration := type.label.toDeclaration
    fullName := type.label.fullName
    members := type.members.map (·.label.id)
    parent := type.label.parent }

/-- The row with one more member. -/
def TypeRow.addMember (member : Nat) (row : TypeRow) : TypeRow :=
  { row with members := row.members ++ [member] }

/-- The table of the types of a buffer. -/
def ConstantBuffer.table (buffer : ConstantBuffer) : List TypeRow :=
  buffer.types.map PlacedType.row

namespace TypeTable

mutual

/-- The table with a description appended below row `owner`: its own row first, still without
members, and then its members. -/
def insert (owner : Option Nat) (rows : List TypeRow) : TypeDescription → List TypeRow
  | .node shape declaration members =>
      let outer := owner.bind fun number => rows[number]?.map (·.fullName)
      let fullName := pathName outer shape declaration.name
      insertMembers rows.length (rows ++ [⟨shape, declaration, fullName, [], owner⟩]) members

/-- The table with descriptions appended below row `owner`; each of them is noted there as a member
once its own nodes are in the table. -/
def insertMembers (owner : Nat) (rows : List TypeRow) : List TypeDescription → List TypeRow
  | [] => rows
  | member :: rest =>
      let grown := insert (some owner) rows member
      insertMembers owner (grown.modify owner (TypeRow.addMember rows.length)) rest

end

/-- The type at a number, read back from the table by following member numbers upwards. -/
def read (rows : List TypeRow) (id : Nat) : Option PlacedType :=
  match _found : rows[id]? with
  | none => none
  | some row => do
      let members ← row.members.mapM fun member =>
        if id < member then read rows member else none
      return .node row.shape ⟨row.declaration, id, row.parent, row.fullName⟩ members
termination_by rows.length - id
decreasing_by
  obtain ⟨inside, -⟩ := List.getElem?_eq_some_iff.mp ‹_›
  omega

/-! ## Growth -/

theorem modify_middle (front back : List TypeRow) (row : TypeRow) (change : TypeRow → TypeRow) :
    (front ++ row :: back).modify front.length change = front ++ change row :: back := by
  induction front with
  | nil => rfl
  | cons first front induction =>
      rw [List.cons_append, List.length_cons, List.modify_succ_cons, induction, List.cons_append]

mutual

/-- Appending a description appends the rows of the placed description. -/
theorem insert_eq (owner : Option Placement) (rows : List TypeRow) (description : TypeDescription)
    (named : ∀ placement ∈ owner,
      rows[placement.id]?.map (·.fullName) = some placement.fullName) :
    insert (owner.map (·.id)) rows description =
      rows ++ (description.place owner rows.length).nodes.map PlacedType.row := by
  cases description with
  | node shape declaration members =>
      have outer : (owner.map (·.id)).bind (fun number => rows[number]?.map (·.fullName)) =
          owner.map (·.fullName) := by
        cases owner with
        | none => rfl
        | some placement => exact named placement rfl
      have appended := insertMembers_eq (declaration.placeAt owner rows.length shape) rows []
        ⟨shape, declaration, pathName (owner.map (·.fullName)) shape declaration.name, [],
          owner.map (·.id)⟩ members rfl rfl
      rw [insert, outer, TypeDescription.place, nodes_eq_cons]
      simpa [PlacedType.row, Declaration.placeAt] using appended

/-- Appending members appends the rows of the placed members and notes their numbers. -/
theorem insertMembers_eq (owner : Placement) (front back : List TypeRow) (row : TypeRow)
    (members : List TypeDescription) (id_eq : owner.id = front.length)
    (fullName_eq : row.fullName = owner.fullName) :
    let placed := TypeDescription.placeMembers owner (front ++ row :: back).length members
    insertMembers front.length (front ++ row :: back) members =
      front ++ { row with members := row.members ++ placed.map (·.label.id) } ::
        (back ++ (forestNodes placed).map PlacedType.row) := by
  cases members with
  | nil => simp [TypeDescription.placeMembers, insertMembers, forestNodes]
  | cons member rest =>
      have first := insert_eq (some owner) (front ++ row :: back) member (by
        rintro _ ⟨⟩
        simp [id_eq, fullName_eq])
      rw [Option.map_some, id_eq, List.append_assoc, List.cons_append] at first
      let nodes := (member.place (some owner) (front ++ row :: back).length).nodes
      let noted := row.addMember (front ++ row :: back).length
      have later := insertMembers_eq owner front (back ++ nodes.map PlacedType.row) noted rest
        id_eq fullName_eq
      have nodes_length : nodes.length = member.nodeCount :=
        TypeDescription.nodeCount_place (some owner) _ member
      have count : (front ++ noted :: (back ++ nodes.map PlacedType.row)).length =
          (front ++ row :: back).length + member.nodeCount := by
        simp only [List.length_append, List.length_cons, List.length_map, nodes_length]
        omega
      rw [insertMembers, first, modify_middle]
      simp only [TypeDescription.placeMembers, forestNodes]
      rw [later, count]
      simp [noted, nodes, TypeRow.addMember, TypeDescription.id_place]

end

/-! ## Reading back -/

theorem mapM_members {members : List PlacedType} {read : Nat → Option PlacedType}
    (known : ∀ member ∈ members, read member.label.id = some member) :
    (members.map (·.label.id)).mapM read = some members := by
  induction members with
  | nil => rfl
  | cons member rest induction =>
      obtain ⟨first, later⟩ := List.forall_mem_cons.mp known
      rw [List.map_cons, List.mapM_cons, first, induction later]
      rfl

/-- Following the member numbers of a table gives back the type with a number. -/
theorem read_table {buffer : ConstantBuffer} (linked : buffer.Linked) :
    ∀ type ∈ buffer.types, read buffer.table type.label.id = some type := by
  intro type
  induction type using inheritance with
  | step type induction =>
      intro isType
      have found : buffer.table[type.label.id]? = some (PlacedType.row type) := by
        rw [ConstantBuffer.table, List.getElem?_map, linked.numbered type isType]
        rfl
      have members : (PlacedType.row type).members.mapM (fun member =>
          if type.label.id < member then read buffer.table member else none) =
            some type.members := by
        refine mapM_members fun member isMember => ?_
        rw [if_pos (linked.owns type isType member isMember).id_lt]
        exact induction member isMember (ConstantBuffer.Linked.member_mem_types isType isMember)
      rw [read]
      split
      · simp_all
      · rename_i row isRow
        obtain rfl := Option.some.inj (found.symm.trans isRow)
        rw [members]
        cases type
        rfl

end TypeTable

namespace ConstantBuffer

theorem table_push (declaration : VariableDeclaration) (buffer : ConstantBuffer) :
    (buffer.push declaration).table = TypeTable.insert none buffer.table declaration.type := by
  have appended := TypeTable.insert_eq none buffer.table declaration.type nofun
  rw [table, List.length_map, ← typeCount] at appended
  rw [table, types_push, List.map_append]
  exact appended.symm

/-- Each variable that is pushed has its type inserted into the table. -/
theorem table_foldl_push (declarations : List VariableDeclaration) (buffer : ConstantBuffer) :
    (declarations.foldl (fun buffer declaration => buffer.push declaration) buffer).table =
      (declarations.map (·.type)).foldl (TypeTable.insert none) buffer.table := by
  induction declarations generalizing buffer with
  | nil => rfl
  | cons declaration rest induction =>
      rw [List.foldl_cons, induction, table_push, List.map_cons, List.foldl_cons]

/-- The table of a buffer made of declarations is the one that their types build up. -/
theorem table_ofDeclarations (name : String) (bindPoint : UInt32)
    (declarations : List VariableDeclaration) :
    (ofDeclarations name bindPoint declarations).table =
      (declarations.map (·.type)).foldl (TypeTable.insert none) [] :=
  table_foldl_push declarations (empty name bindPoint)

/-- The number of the type of each variable. -/
def roots (buffer : ConstantBuffer) : List Nat := buffer.entries.map (·.type.label.id)

/-- The laws of the type table of a buffer whose variables have certain types. -/
structure Tabulates (descriptions : List TypeDescription) (buffer : ConstantBuffer) : Prop where
  /-- The table grows by appending the descriptions. -/
  table_eq : buffer.table = descriptions.foldl (TypeTable.insert none) []
  /-- The type of a variable has as its number the count of the nodes appended before. -/
  roots_eq : ∀ position, buffer.roots[position]? =
    descriptions[position]?.map fun _ =>
      ((descriptions.take position).map LayoutTree.nodeCount).sum
  /-- Reading from the number of a variable's type gives back its description. -/
  read_root : ∀ (position root : Nat), buffer.roots[position]? = some root →
    (TypeTable.read buffer.table root).map PlacedType.description = descriptions[position]?
  /-- The types that are read from a number on are numbered without gaps. -/
  read_ids : ∀ id < buffer.table.length, ∃ type, TypeTable.read buffer.table id = some type ∧
    type.nodes.map (·.label.id) = List.range' id (PlacedType.description type).nodeCount
  /-- Members and parents name each other. -/
  mem_members_iff : ∀ owner member : Nat,
    (∃ row : TypeRow, buffer.table[owner]? = some row ∧ member ∈ row.members) ↔
      ∃ row : TypeRow, buffer.table[member]? = some row ∧ row.parent = some owner
  /-- The members of a type follow it in the order of their numbers. -/
  increasing : ∀ (id : Nat) (row : TypeRow), buffer.table[id]? = some row →
    (id :: row.members).Pairwise (· < ·)
  /-- The type of a variable has no parent. -/
  parent_root : ∀ root ∈ buffer.roots,
    ∃ row : TypeRow, buffer.table[root]? = some row ∧ row.parent = none
  /-- Following parents leads to the type of the last variable that is not numbered later. -/
  isGreatest_rootOf : ∀ id < buffer.table.length,
    IsGreatest {root | root ∈ buffer.roots ∧ root ≤ id} (buffer.rootOf id)

theorem getElem?_table {buffer : ConstantBuffer} {id : Nat} {row : TypeRow} :
    buffer.table[id]? = some row ↔
      ∃ type, buffer.types[id]? = some type ∧ PlacedType.row type = row := by
  rw [table, List.getElem?_map, Option.map_eq_some_iff]

theorem getElem?_roots {buffer : ConstantBuffer} {position root : Nat} :
    buffer.roots[position]? = some root ↔
      ∃ declared, buffer.entries[position]? = some declared ∧ declared.type.label.id = root := by
  rw [roots, List.getElem?_map, Option.map_eq_some_iff]

/-- A type that names a parent is one of its members. -/
theorem Linked.exists_owner {buffer : ConstantBuffer} (linked : buffer.Linked)
    {type : PlacedType} (isType : type ∈ buffer.types) {parent : Nat}
    (named : type.label.parent = some parent) :
    ∃ owner ∈ buffer.types, owner.label.id = parent ∧ type ∈ owner.members := by
  rcases Linked.mem_types_cases isType with ⟨declared, isEntry, rfl⟩ | ⟨owner, isOwner, isMember⟩
  · rw [(linked.outermost declared isEntry).1] at named
    contradiction
  · rw [(linked.owns owner isOwner type isMember).parent_eq] at named
    exact ⟨owner, isOwner, Option.some.inj named, isMember⟩

section Declarations

variable {name : String} {bindPoint : UInt32} {declarations : List VariableDeclaration}

theorem getElem?_roots_ofDeclarations (position : Nat) :
    (ofDeclarations name bindPoint declarations).roots[position]? =
      declarations[position]?.map fun _ =>
        ((declarations.take position).map (·.type.nodeCount)).sum := by
  rw [roots, entries_ofDeclarations, List.getElem?_map, getElem?_placeVariables, Option.map_map]
  simp [Function.comp_def, VariableDeclaration.placeAt, TypeDescription.id_place]

/-- The numbers of a type and its members increase. -/
theorem pairwise_members {type : PlacedType}
    (isType : type ∈ (ofDeclarations name bindPoint declarations).types) :
    (type.label.id :: type.members.map (·.label.id)).Pairwise (· < ·) := by
  have linked := linked_ofDeclarations name bindPoint declarations
  constructor
  · intro number isNumber
    obtain ⟨member, isMember, rfl⟩ := List.mem_map.mp isNumber
    exact (linked.owns type isType member isMember).id_lt
  · obtain ⟨owner, description, placed⟩ := exists_place_of_mem_types isType
    rw [placed, TypeDescription.members_place]
    exact TypeDescription.pairwise_placeMembers ..

/-- The nodes of a type are numbered one by one from its own number on. -/
theorem ids_nodes {type : PlacedType}
    (isType : type ∈ (ofDeclarations name bindPoint declarations).types) :
    type.nodes.map (·.label.id) = List.range' type.label.id type.nodeCount := by
  obtain ⟨owner, description, placed⟩ := exists_place_of_mem_types isType
  conv => lhs; rw [placed, TypeDescription.ids_place]
  rw [placed, TypeDescription.nodeCount_place, TypeDescription.id_place]

theorem isGreatest_root {id : Nat}
    (inside : id < (ofDeclarations name bindPoint declarations).table.length) :
    let buffer := ofDeclarations name bindPoint declarations
    IsGreatest {root | root ∈ buffer.roots ∧ root ≤ id} (buffer.rootOf id) := by
  intro buffer
  have linked : buffer.Linked := linked_ofDeclarations name bindPoint declarations
  rw [table, List.length_map] at inside
  obtain ⟨type, found⟩ : ∃ type, buffer.types[id]? = some type :=
    ⟨_, List.getElem?_eq_getElem inside⟩
  obtain ⟨declared, isEntry, isNode⟩ := List.mem_flatMap.mp (List.mem_of_getElem? found)
  have isType := Linked.mem_types_of_mem_nodes isEntry declared.type.self_mem_nodes
  have numbered : type.label.id ∈
      List.range' declared.type.label.id declared.type.nodeCount := by
    rw [← ids_nodes isType]
    exact List.mem_map_of_mem isNode
  obtain rfl := id_of_getElem? found
  rw [linked.rootOf_eq isEntry type isNode]
  obtain ⟨first_le, lt_last⟩ := List.mem_range'_1.mp numbered
  constructor
  · exact ⟨List.mem_map_of_mem isEntry, first_le⟩
  · rintro root ⟨isRoot, root_le⟩
    obtain ⟨other, isOther, rfl⟩ := List.mem_map.mp isRoot
    have ordered := pairwise_placeVariables 0 declarations
    rw [← entries_ofDeclarations name bindPoint declarations] at ordered
    obtain ⟨before, after, split⟩ := List.append_of_mem isEntry
    rw [split] at ordered isOther
    obtain ⟨-, later, earlier⟩ := List.pairwise_append.mp ordered
    rcases List.mem_append.mp isOther with isEarlier | isOther
    · have := earlier other isEarlier declared List.mem_cons_self
      omega
    · rcases List.mem_cons.mp isOther with rfl | isLater
      · exact Nat.le_refl _
      · have := List.rel_of_pairwise_cons later isLater
        omega

/-- The types of a buffer made of declarations form a table in which parents precede members,
members and parents name each other, and every description can be read back. -/
theorem tabulates_ofDeclarations (name : String) (bindPoint : UInt32)
    (declarations : List VariableDeclaration) :
    (ofDeclarations name bindPoint declarations).Tabulates (declarations.map (·.type)) where
  table_eq := table_ofDeclarations name bindPoint declarations
  roots_eq position := by
    rw [getElem?_roots_ofDeclarations]
    simp [Function.comp_def]
  read_root position root isRoot := by
    obtain ⟨declared, isEntry, rfl⟩ := getElem?_roots.mp isRoot
    have isType := Linked.mem_types_of_mem_nodes (List.mem_of_getElem? isEntry)
      declared.type.self_mem_nodes
    rw [TypeTable.read_table (linked_ofDeclarations name bindPoint declarations) _ isType]
    rw [entries_ofDeclarations, getElem?_placeVariables] at isEntry
    obtain ⟨declaration, isDeclaration, rfl⟩ := Option.map_eq_some_iff.mp isEntry
    rw [List.getElem?_map, isDeclaration]
    exact congrArg some (TypeDescription.description_place ..)
  read_ids id inside := by
    rw [table, List.length_map] at inside
    have found := List.getElem?_eq_getElem inside
    have isType := List.getElem_mem inside
    have id_eq := id_of_getElem? found
    have read := TypeTable.read_table (linked_ofDeclarations name bindPoint declarations) _ isType
    have numbered := ids_nodes isType
    rw [id_eq] at read numbered
    exact ⟨_, read, numbered.trans (by rw [PlacedType.description, nodeCount_relabel])⟩
  mem_members_iff owner member := by
    have linked := linked_ofDeclarations name bindPoint declarations
    constructor
    · rintro ⟨_, isRow, isNumber⟩
      obtain ⟨type, found, rfl⟩ := getElem?_table.mp isRow
      obtain ⟨inner, isMember, rfl⟩ := List.mem_map.mp isNumber
      have isType := List.mem_of_getElem? found
      have owned := linked.owns type isType inner isMember
      refine ⟨_, getElem?_table.mpr
        ⟨inner, linked.numbered inner (Linked.member_mem_types isType isMember), rfl⟩, ?_⟩
      rw [← id_of_getElem? found]
      exact owned.parent_eq
    · rintro ⟨_, isRow, named⟩
      obtain ⟨type, found, rfl⟩ := getElem?_table.mp isRow
      obtain ⟨outer, isType, rfl, isMember⟩ :=
        linked.exists_owner (List.mem_of_getElem? found) named
      refine ⟨_, getElem?_table.mpr ⟨outer, linked.numbered outer isType, rfl⟩, ?_⟩
      rw [← id_of_getElem? found]
      exact List.mem_map_of_mem isMember
  increasing id row isRow := by
    obtain ⟨type, found, rfl⟩ := getElem?_table.mp isRow
    rw [← id_of_getElem? found]
    exact pairwise_members (List.mem_of_getElem? found)
  parent_root root isRoot := by
    obtain ⟨declared, isEntry, rfl⟩ := List.mem_map.mp isRoot
    have linked := linked_ofDeclarations name bindPoint declarations
    have isType := Linked.mem_types_of_mem_nodes isEntry declared.type.self_mem_nodes
    exact ⟨_, getElem?_table.mpr ⟨_, linked.numbered _ isType, rfl⟩,
      (linked.outermost declared isEntry).1⟩
  isGreatest_rootOf id inside := isGreatest_root inside

end Declarations

end ConstantBuffer
end ShaderInterface
