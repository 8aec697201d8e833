import ShaderInterface.Buffer.Description

/-!
# Placed types

A type that belongs to a constant buffer. Its nodes are numbered parents before members, and each
node knows its parent and its path from the variable.
-/

namespace ShaderInterface

/-- What a node of a placed type carries. -/
structure Placement extends Declaration where
  /-- Number of the node in its buffer. -/
  id : Nat
  /-- Number of the enclosing type; a variable's own type has none. -/
  parent : Option Nat
  /-- Names from the variable to the node joined by dots, `[]` after each array level. -/
  fullName : String
deriving DecidableEq, Repr

/-- A declared type with its place in a buffer. -/
abbrev PlacedType := LayoutTree Placement

/-- The name of an occurrence of `shape` called `name` inside a type whose full name is given. -/
def pathName (outer : Option String) (shape : Shape) (name : String) : String :=
  let path := match outer with
    | some owner => owner ++ "." ++ name
    | none => name
  if shape.isArray then path ++ "[]" else path

/-- The placement of an occurrence of `shape` as number `id` below `owner`. -/
def Declaration.placeAt (owner : Option Placement) (id : Nat) (shape : Shape)
    (declaration : Declaration) : Placement :=
  { declaration with
    id
    parent := owner.map (·.id)
    fullName := pathName (owner.map (·.fullName)) shape declaration.name }

namespace TypeDescription

mutual

/-- The description with its nodes numbered from `id` on, below `owner` if there is one. -/
def place (owner : Option Placement) (id : Nat) : TypeDescription → PlacedType
  | .node shape declaration members =>
      let placement := declaration.placeAt owner id shape
      .node shape placement (placeMembers placement (id + 1) members)

/-- The members of `owner` with their nodes numbered from `id` on. -/
def placeMembers (owner : Placement) (id : Nat) : List TypeDescription → List PlacedType
  | [] => []
  | member :: rest =>
      place (some owner) id member :: placeMembers owner (id + member.nodeCount) rest

end

mutual

/-- The nodes of a placed description are numbered one by one from `id` on. -/
theorem ids_place (owner : Option Placement) (id : Nat) (description : TypeDescription) :
    (place owner id description).nodes.map (·.label.id) =
      List.range' id description.nodeCount := by
  cases description with
  | node shape declaration members =>
      rw [place, LayoutTree.nodes, List.map_cons,
        ids_placeMembers (declaration.placeAt owner id shape) (id + 1) members,
        LayoutTree.nodeCount_node, List.range'_succ]
      rfl

/-- The nodes of placed members are numbered one by one from `id` on. -/
theorem ids_placeMembers (owner : Placement) (id : Nat) (members : List TypeDescription) :
    (LayoutTree.forestNodes (placeMembers owner id members)).map (·.label.id) =
      List.range' id (LayoutTree.forestNodes members).length := by
  cases members with
  | nil => rfl
  | cons member rest =>
      rw [placeMembers, LayoutTree.forestNodes, List.map_append, ids_place (some owner) id member,
        ids_placeMembers owner (id + member.nodeCount) rest, LayoutTree.forestNodes,
        List.length_append, ← LayoutTree.nodeCount, List.range'_append_1]

end

end TypeDescription
end ShaderInterface
