import ShaderInterface.Named

/-!
# Trees of declared types

A declared type is a tree: a struct has members, every other type is a leaf. Each node carries the
numbers that decide where its bytes lie, its `Shape`, and a label that plays no part in the layout.
-/

namespace ShaderInterface

/-- The classes that a declared type can have. -/
inductive VariableClass where
  | scalar
  | vector
  | matrixRows
  | matrixColumns
  | object
  | struct
  | interfaceClass
  | interfacePointer
deriving DecidableEq, Repr

instance : Named VariableClass where
  values :=
    [.scalar, .vector, .matrixRows, .matrixColumns, .object, .struct, .interfaceClass,
      .interfacePointer]
  name
    | .scalar => "Scalar"
    | .vector => "Vector"
    | .matrixRows => "MatrixRows"
    | .matrixColumns => "MatrixColumns"
    | .object => "Object"
    | .struct => "Struct"
    | .interfaceClass => "InterfaceClass"
    | .interfacePointer => "InterfacePointer"

namespace VariableClass

/-- The class with a number in a bytecode container. -/
def ofCode? (code : UInt32) : Option VariableClass :=
  (Named.values : List VariableClass)[code.toNat]?

/-- The class is one of the two matrix orders. -/
def isMatrix : VariableClass → Bool
  | matrixRows | matrixColumns => true
  | _ => false

end VariableClass

/-- The declared numbers of one type occurrence. -/
structure Shape where
  /-- What kind of type this is. -/
  variableClass : VariableClass
  /-- Number of matrix rows, 1 for a scalar or a vector. -/
  rows : UInt32
  /-- Number of matrix columns or vector components. -/
  columns : UInt32
  /-- Array length; 0 and 1 both mean a single value. -/
  elements : UInt32
  /-- Byte offset from the start of the enclosing struct. -/
  offset : UInt32
deriving DecidableEq, Repr

/-- The occurrence is an array of at least two elements. -/
def Shape.isArray (shape : Shape) : Bool := 1 < shape.elements

/-- A declared type with its members in declaration order. -/
inductive LayoutTree (Label : Type) where
  | node (shape : Shape) (label : Label) (members : List (LayoutTree Label))
deriving Repr

namespace LayoutTree

variable {Label : Type}

/-- The numbers at the root. -/
def shape : LayoutTree Label → Shape
  | node shape _ _ => shape

/-- The label at the root. -/
def label : LayoutTree Label → Label
  | node _ label _ => label

/-- The trees directly below the root. -/
def members : LayoutTree Label → List (LayoutTree Label)
  | node _ _ members => members

@[simp] theorem shape_node (shape : Shape) (label : Label) (members : List (LayoutTree Label)) :
    (node shape label members).shape = shape := rfl

@[simp] theorem label_node (shape : Shape) (label : Label) (members : List (LayoutTree Label)) :
    (node shape label members).label = label := rfl

@[simp] theorem members_node (shape : Shape) (label : Label)
    (members : List (LayoutTree Label)) : (node shape label members).members = members := rfl

/-- The member that ends a struct. -/
def lastMember? (tree : LayoutTree Label) : Option (LayoutTree Label) :=
  tree.members.getLast?

mutual

/-- Every node of a tree, parents before members. -/
def nodes : LayoutTree Label → List (LayoutTree Label)
  | node shape label members => node shape label members :: forestNodes members

/-- Every node of a list of trees, tree after tree. -/
def forestNodes : List (LayoutTree Label) → List (LayoutTree Label)
  | [] => []
  | tree :: trees => tree.nodes ++ forestNodes trees

end

/-- Number of nodes of a tree. -/
def nodeCount (tree : LayoutTree Label) : Nat := tree.nodes.length

theorem nodes_eq_cons (tree : LayoutTree Label) :
    tree.nodes = tree :: forestNodes tree.members := by
  cases tree
  simp [nodes]

theorem forestNodes_eq_flatMap (trees : List (LayoutTree Label)) :
    forestNodes trees = trees.flatMap nodes := by
  induction trees with
  | nil => simp [forestNodes]
  | cons tree trees induction => simp [forestNodes, induction]

theorem nodeCount_node (shape : Shape) (label : Label) (members : List (LayoutTree Label)) :
    (node shape label members).nodeCount = (forestNodes members).length + 1 := by
  rw [nodeCount, nodes, List.length_cons]

end LayoutTree
end ShaderInterface
