import ShaderInterface.Layout.Tree
import ShaderInterface.ScalarType

/-!
# Type descriptions

The declared types of a constant buffer before they are placed in it.
-/

namespace ShaderInterface

/-- What a declaration says about a type besides its shape. -/
structure Declaration where
  /-- Name of the variable or member. -/
  name : String
  /-- Type of the components; a struct has none. -/
  scalarType : Option ScalarType
deriving DecidableEq, Repr

/-- A declared type as it is handed over for a buffer. -/
abbrev TypeDescription := LayoutTree Declaration

namespace TypeDescription

/-- A single value without members whose components are floats. -/
def numeric (name : String) (variableClass : VariableClass) (offset rows columns : UInt32) :
    TypeDescription :=
  .node ⟨variableClass, rows, columns, 0, offset⟩ ⟨name, some .float⟩ []

/-- A scalar at a byte offset. -/
def scalar (name : String) (offset : UInt32) : TypeDescription :=
  numeric name .scalar offset 1 1

/-- A vector at a byte offset. -/
def vector (name : String) (offset columns : UInt32) : TypeDescription :=
  numeric name .vector offset 1 columns

/-- A matrix stored row by row. -/
def matrixRows (name : String) (offset rows columns : UInt32) : TypeDescription :=
  numeric name .matrixRows offset rows columns

/-- A matrix stored column by column. -/
def matrixColumns (name : String) (offset rows columns : UInt32) : TypeDescription :=
  numeric name .matrixColumns offset rows columns

/-- A struct whose members come in the order of their offsets. -/
def struct (name : String) (offset : UInt32) (members : List TypeDescription) :
    TypeDescription :=
  .node ⟨.struct, 1, 0, 0, offset⟩ ⟨name, none⟩ members

/-- A single value of any class, without a component type. -/
def untyped (name : String) (variableClass : VariableClass) (offset rows columns : UInt32)
    (members : List TypeDescription) : TypeDescription :=
  .node ⟨variableClass, rows, columns, 0, offset⟩ ⟨name, none⟩ members

/-- The same type as an array of `elements`. -/
def array (elements : UInt32) : TypeDescription → TypeDescription
  | .node shape declaration members => .node { shape with elements } declaration members

/-- The same type with components of `scalarType`. -/
def withScalarType (scalarType : ScalarType) : TypeDescription → TypeDescription
  | .node shape declaration members =>
      .node shape { declaration with scalarType := some scalarType } members

end TypeDescription
end ShaderInterface
