import ShaderInterface.Proofs.Buffer.NameTemplate
import ShaderInterface.Proofs.Layout.Nodes

/-!
# Enclosing types

In a buffer made of declarations the parent numbers lead from every type through the structs around
it to the type of its variable, and the full name of a type is the template of the path that they
give.
-/

namespace ShaderInterface

open LayoutTree

/-- What the placement of a member says about the struct that declares it. -/
structure Owns (owner member : PlacedType) : Prop where
  /-- The member knows the number of the struct. -/
  parent_eq : member.label.parent = some owner.label.id
  /-- The member is numbered after the struct. -/
  id_lt : owner.label.id < member.label.id
  /-- The full name of the member goes on from the one of the struct. -/
  fullName_eq : member.label.fullName =
    pathName (some owner.label.fullName) member.shape member.label.name

namespace TypeDescription

theorem label_place (owner : Option Placement) (id : Nat) (description : TypeDescription) :
    (place owner id description).label =
      description.label.placeAt owner id description.shape := by
  cases description
  rw [place]
  rfl

theorem shape_place (owner : Option Placement) (id : Nat) (description : TypeDescription) :
    (place owner id description).shape = description.shape := by
  cases description
  rw [place]
  rfl

theorem members_place (owner : Option Placement) (id : Nat) (description : TypeDescription) :
    (place owner id description).members =
      placeMembers (place owner id description).label (id + 1) description.members := by
  cases description
  rw [place]
  rfl

/-- A placed member is a placed description, numbered after its owner. -/
theorem exists_of_mem_placeMembers {owner : Placement} {members : List TypeDescription} {id : Nat}
    {placed : PlacedType} (isPlaced : placed ∈ placeMembers owner id members) :
    ∃ description ∈ members, ∃ later, id ≤ later ∧
      placed = place (some owner) later description := by
  induction members generalizing id with
  | nil =>
      rw [placeMembers] at isPlaced
      exact absurd isPlaced List.not_mem_nil
  | cons first rest induction =>
      rw [placeMembers] at isPlaced
      rcases List.mem_cons.mp isPlaced with rfl | isLater
      · exact ⟨first, List.mem_cons_self, id, Nat.le_refl id, rfl⟩
      · obtain ⟨description, isMember, later, after, same⟩ := induction isLater
        exact ⟨description, List.mem_cons_of_mem first isMember, later, by omega, same⟩

/-- Inside a placed description every struct owns its members. -/
theorem owns_of_mem_nodes_place (owner : Option Placement) (id : Nat)
    (description : TypeDescription) :
    ∀ node ∈ (place owner id description).nodes, ∀ member ∈ node.members,
      Owns node member := by
  induction description using inheritance generalizing owner id with
  | step description induction =>
      intro node isNode member isMember
      rcases mem_nodes_iff.mp isNode with rfl | ⟨inner, isInner, below⟩
      · rw [members_place] at isMember
        obtain ⟨declared, -, later, after, rfl⟩ := exists_of_mem_placeMembers isMember
        have owner_id : (place owner id description).label.id = id := by
          rw [label_place]
          rfl
        have member_eq := label_place (some (place owner id description).label) later declared
        refine ⟨?_, ?_, ?_⟩
        · rw [member_eq]
          rfl
        · rw [member_eq, owner_id]
          exact after
        · rw [member_eq, shape_place]
          rfl
      · rw [members_place] at isInner
        obtain ⟨declared, isDeclared, later, -, rfl⟩ := exists_of_mem_placeMembers isInner
        exact induction declared isDeclared _ later node below member isMember

end TypeDescription

namespace ConstantBuffer

/-- The types on the way to the one with a number, outermost first, as far as parents were numbered
earlier. -/
def enclosingFrom (types : List PlacedType) (id : Nat) : List PlacedType :=
  match types[id]? with
  | none => []
  | some type =>
      match type.label.parent with
      | none => [type]
      | some parent => if parent < id then enclosingFrom types parent ++ [type] else [type]
termination_by id

theorem mem_of_mem_enclosingFrom {types : List PlacedType} {outer : PlacedType} {id : Nat}
    (encloses : outer ∈ enclosingFrom types id) : outer ∈ types := by
  fun_induction enclosingFrom types id with
  | case1 => exact absurd encloses List.not_mem_nil
  | case2 id type found _ =>
      obtain rfl := List.mem_singleton.mp encloses
      exact List.mem_of_getElem? found
  | case3 id type found parent _ _ induction =>
      rcases List.mem_append.mp encloses with further | self
      · exact induction further
      · obtain rfl := List.mem_singleton.mp self
        exact List.mem_of_getElem? found
  | case4 id type found parent _ _ =>
      obtain rfl := List.mem_singleton.mp encloses
      exact List.mem_of_getElem? found

/-- The types around a type of the buffer, outermost first, and the type itself. -/
def enclosing (type : PlacedType) (buffer : ConstantBuffer) : List PlacedType :=
  enclosingFrom buffer.types type.label.id

/-- A property of the empty buffer that every new variable keeps holds of all buffers. -/
theorem ofDeclarations_induction {motive : ConstantBuffer → Prop} (name : String)
    (bindPoint : UInt32) (declarations : List VariableDeclaration)
    (start : motive (empty name bindPoint))
    (grow : ∀ declaration buffer, motive buffer → motive (buffer.push declaration)) :
    motive (ofDeclarations name bindPoint declarations) :=
  List.foldlRecOn declarations _ start fun buffer holds declaration _ =>
    grow declaration buffer holds

/-- The parent numbers of a buffer lead through all its types. -/
structure Linked (buffer : ConstantBuffer) : Prop where
  /-- A type is found under its number. -/
  numbered : ∀ type ∈ buffer.types, buffer.types[type.label.id]? = some type
  /-- The type of a variable is not declared in another type. -/
  outermost : ∀ declared ∈ buffer.entries, declared.type.label.parent = none ∧
    declared.type.label.fullName =
      pathName none declared.type.shape declared.type.label.name
  /-- Every struct owns its members. -/
  owns : ∀ type ∈ buffer.types, ∀ member ∈ type.members, Owns type member

theorem exists_place_of_mem_entries {name : String} {bindPoint : UInt32}
    {declarations : List VariableDeclaration} :
    ∀ declared ∈ (ofDeclarations name bindPoint declarations).entries,
      ∃ id description, declared.type = TypeDescription.place none id description := by
  refine ofDeclarations_induction (motive := fun buffer => ∀ declared ∈ buffer.entries,
    ∃ id description, declared.type = TypeDescription.place none id description)
    name bindPoint declarations nofun ?_
  intro declaration buffer placed declared isEntry
  rcases List.mem_append.mp isEntry with earlier | new
  · exact placed declared earlier
  · obtain rfl := List.mem_singleton.mp new
    exact ⟨buffer.typeCount, declaration.type, rfl⟩

theorem id_of_getElem? {name : String} {bindPoint : UInt32}
    {declarations : List VariableDeclaration} {position : Nat} {type : PlacedType}
    (found : (ofDeclarations name bindPoint declarations).types[position]? = some type) :
    type.label.id = position := by
  obtain ⟨inside, rfl⟩ := List.getElem?_eq_some_iff.mp found
  have ids := congrArg (·[position]?) (ids_ofDeclarations name bindPoint declarations)
  simpa [inside, List.getElem?_range, typeCount] using ids

theorem linked_ofDeclarations (name : String) (bindPoint : UInt32)
    (declarations : List VariableDeclaration) :
    (ofDeclarations name bindPoint declarations).Linked where
  numbered type isType := by
    obtain ⟨position, found⟩ := List.mem_iff_getElem?.mp isType
    rw [id_of_getElem? found, found]
  outermost declared isEntry := by
    obtain ⟨id, description, placed⟩ := exists_place_of_mem_entries declared isEntry
    rw [placed, TypeDescription.label_place, TypeDescription.shape_place]
    exact ⟨rfl, rfl⟩
  owns type isType member isMember := by
    obtain ⟨declared, isEntry, isNode⟩ := List.mem_flatMap.mp isType
    obtain ⟨id, description, placed⟩ := exists_place_of_mem_entries declared isEntry
    rw [placed] at isNode
    exact TypeDescription.owns_of_mem_nodes_place none id description type isNode member isMember

namespace Linked

variable {buffer : ConstantBuffer}

theorem member_mem_types {owner member : PlacedType} (isType : owner ∈ buffer.types)
    (isMember : member ∈ owner.members) : member ∈ buffer.types := by
  obtain ⟨declared, isEntry, isNode⟩ := List.mem_flatMap.mp isType
  have below := mem_nodes_of_mem_members member.self_mem_nodes isMember
  exact List.mem_flatMap.mpr ⟨declared, isEntry, mem_nodes_trans below isNode⟩

/-- The type of a variable is not enclosed in another one. -/
theorem enclosing_outermost (linked : buffer.Linked) {declared : BufferVariable}
    (isEntry : declared ∈ buffer.entries) :
    buffer.enclosing declared.type = [declared.type] := by
  have isType : declared.type ∈ buffer.types :=
    List.mem_flatMap.mpr ⟨declared, isEntry, declared.type.self_mem_nodes⟩
  rw [enclosing, enclosingFrom]
  simp only [linked.numbered _ isType, (linked.outermost declared isEntry).1]

/-- A member is enclosed in its struct and what encloses that. -/
theorem enclosing_member (linked : buffer.Linked) {owner member : PlacedType}
    (isType : owner ∈ buffer.types) (isMember : member ∈ owner.members) :
    buffer.enclosing member = buffer.enclosing owner ++ [member] := by
  have owned := linked.owns owner isType member isMember
  rw [enclosing, enclosingFrom]
  simp only [linked.numbered _ (member_mem_types isType isMember), owned.parent_eq,
    if_pos owned.id_lt]
  rfl

theorem self_mem_enclosing (linked : buffer.Linked) {type : PlacedType}
    (isType : type ∈ buffer.types) : type ∈ buffer.enclosing type := by
  rw [enclosing, enclosingFrom]
  simp only [linked.numbered type isType]
  split
  · exact List.mem_singleton_self type
  · split
    · exact List.mem_concat_self
    · exact List.mem_singleton_self type

theorem enclosing_ne_nil (linked : buffer.Linked) {type : PlacedType}
    (isType : type ∈ buffer.types) : buffer.enclosing type ≠ [] :=
  List.ne_nil_of_mem (linked.self_mem_enclosing isType)

theorem mem_types_of_mem_nodes {declared : BufferVariable} (isEntry : declared ∈ buffer.entries)
    {node : PlacedType} (isNode : node ∈ declared.type.nodes) : node ∈ buffer.types :=
  List.mem_flatMap.mpr ⟨declared, isEntry, isNode⟩

/-- A type is declared for a variable or in another type. -/
theorem mem_types_cases {type : PlacedType} (isType : type ∈ buffer.types) :
    (∃ declared ∈ buffer.entries, type = declared.type) ∨
      ∃ owner ∈ buffer.types, type ∈ owner.members := by
  obtain ⟨declared, isEntry, isNode⟩ := List.mem_flatMap.mp isType
  rcases exists_owner_of_mem_nodes type isNode with same | ⟨owner, isOwner, isMember⟩
  · exact Or.inl ⟨declared, isEntry, same⟩
  · exact Or.inr ⟨owner, mem_types_of_mem_nodes isEntry isOwner, isMember⟩

/-- The full name of a type is the template of the path to it. -/
theorem fullName_eq (linked : buffer.Linked) {type : PlacedType} (isType : type ∈ buffer.types) :
    type.label.fullName = dottedPath (fun _ => "") (buffer.enclosing type) := by
  obtain ⟨declared, isEntry, isNode⟩ := List.mem_flatMap.mp isType
  refine forall_mem_nodes (motive := fun node => node.label.fullName =
    dottedPath (fun _ => "") (buffer.enclosing node)) ?_ ?_ type isNode
  · rw [(linked.outermost declared isEntry).2, pathName_eq, linked.enclosing_outermost isEntry]
    exact String.intercalate_singleton.symm
  · intro owner isNode named member isMember
    have isOwner := mem_types_of_mem_nodes isEntry isNode
    rw [(linked.owns owner isOwner member isMember).fullName_eq, pathName_eq, named,
      linked.enclosing_member isOwner isMember,
      dottedPath_append _ (linked.enclosing_ne_nil isOwner)]

/-- The parent numbers lead from every type of a variable to the type that it was declared with. -/
theorem rootOf_eq (linked : buffer.Linked) {declared : BufferVariable}
    (isEntry : declared ∈ buffer.entries) :
    ∀ node ∈ declared.type.nodes, buffer.rootOf node.label.id = declared.type.label.id := by
  refine forall_mem_nodes ?_ ?_
  · have isType := mem_types_of_mem_nodes isEntry declared.type.self_mem_nodes
    rw [rootOf, rootFrom]
    simp only [linked.numbered _ isType, (linked.outermost declared isEntry).1]
  · intro owner isNode known member isMember
    have isOwner := mem_types_of_mem_nodes isEntry isNode
    have owned := linked.owns owner isOwner member isMember
    rw [rootOf, rootFrom]
    simp only [linked.numbered _ (member_mem_types isOwner isMember), owned.parent_eq,
      if_pos owned.id_lt]
    exact known

/-- The full names of the types of a variable start with the name of the variable, and with a
bracket pair if it is an array. -/
theorem exists_fullName_eq (linked : buffer.Linked) {declared : BufferVariable}
    (isEntry : declared ∈ buffer.entries) :
    ∀ node ∈ declared.type.nodes, ∃ inner,
      node.label.fullName = declared.type.segment "" ++ inner := by
  apply forall_mem_nodes
  · refine ⟨"", ?_⟩
    rw [(linked.outermost declared isEntry).2, pathName_eq, String.append_empty]
  · rintro owner isNode ⟨inner, named⟩ member isMember
    have isOwner := mem_types_of_mem_nodes isEntry isNode
    rw [(linked.owns owner isOwner member isMember).fullName_eq, pathName_eq, named]
    exact ⟨inner ++ "." ++ PlacedType.segment "" member, by simp only [String.append_assoc]⟩

end Linked
end ConstantBuffer
end ShaderInterface
