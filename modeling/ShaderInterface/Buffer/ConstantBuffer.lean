import ShaderInterface.Buffer.Placement
import ShaderInterface.Declared

/-!
# Constant buffers

A constant buffer is a list of variables. Its types are numbered in the order of the variables,
parents before members, so a number is a position in the list of all its types.
-/

namespace ShaderInterface

/-- A variable as it is handed over for a buffer. -/
structure VariableDeclaration where
  /-- Byte offset in the buffer. -/
  start : UInt32
  /-- Declared size in bytes. -/
  size : UInt32
  /-- The type, which also names the variable. -/
  type : TypeDescription
deriving Repr

/-- A variable with its place in a buffer. -/
structure BufferVariable where
  /-- Declared name. -/
  name : String
  /-- Byte offset in the buffer. -/
  start : UInt32
  /-- Declared size in bytes. -/
  size : UInt32
  /-- The variable's type. -/
  type : PlacedType
deriving Repr

/-- The byte lies in the declared range of the variable; the range may reach past the last word. -/
def BufferVariable.contains (offset : UInt32) (declared : BufferVariable) : Bool :=
  declared.start ≤ offset && offset.toNat < declared.start.toNat + declared.size.toNat

/-- A constant buffer with its variables in declaration order. -/
structure ConstantBuffer where
  /-- Declared name. -/
  name : String
  /-- Number of the register that the buffer is bound to. -/
  bindPoint : UInt32
  /-- The declared variables. -/
  entries : List BufferVariable
deriving Repr

namespace ConstantBuffer

/-- A buffer without variables. -/
def empty (name : String) (bindPoint : UInt32) : ConstantBuffer := ⟨name, bindPoint, []⟩

/-- All types of the buffer; the type numbered `i` is at position `i`. -/
def types (buffer : ConstantBuffer) : List PlacedType :=
  buffer.entries.flatMap (·.type.nodes)

/-- Number of types in the buffer. -/
def typeCount (buffer : ConstantBuffer) : Nat := buffer.types.length

/-- The type with a number. -/
def type? (buffer : ConstantBuffer) (id : Nat) : Option PlacedType := buffer.types[id]?

/-- The declared variable as the next one of the buffer; its type gets the number `typeCount`. -/
def nextVariable (declaration : VariableDeclaration) (buffer : ConstantBuffer) : BufferVariable :=
  { name := declaration.type.label.name
    start := declaration.start
    size := declaration.size
    type := declaration.type.place none buffer.typeCount }

/-- The buffer with one more variable. -/
def push (declaration : VariableDeclaration) (buffer : ConstantBuffer) : ConstantBuffer :=
  { buffer with entries := buffer.entries ++ [buffer.nextVariable declaration] }

/-- A buffer with the declared variables. -/
def ofDeclarations (name : String) (bindPoint : UInt32)
    (declarations : List VariableDeclaration) : ConstantBuffer :=
  declarations.foldl (fun buffer declaration => buffer.push declaration) (empty name bindPoint)

@[simp] theorem types_push (declaration : VariableDeclaration) (buffer : ConstantBuffer) :
    (buffer.push declaration).types =
      buffer.types ++ (declaration.type.place none buffer.typeCount).nodes := by
  simp [types, push, nextVariable]

/-- In a buffer made of declarations, the type numbered `i` is at position `i`. -/
theorem ids_ofDeclarations (name : String) (bindPoint : UInt32)
    (declarations : List VariableDeclaration) :
    (ofDeclarations name bindPoint declarations).types.map (·.label.id) =
      List.range (ofDeclarations name bindPoint declarations).typeCount := by
  suffices step : ∀ buffer : ConstantBuffer,
      buffer.types.map (·.label.id) = List.range buffer.typeCount →
        let grown := declarations.foldl (fun buffer declaration => buffer.push declaration) buffer
        grown.types.map (·.label.id) = List.range grown.typeCount by
    exact step (empty name bindPoint) rfl
  induction declarations with
  | nil => exact fun _ numbered => numbered
  | cons declaration declarations induction =>
      intro buffer numbered
      apply induction (buffer.push declaration)
      have placed := TypeDescription.ids_place none buffer.typeCount declaration.type
      have count := congrArg List.length placed
      simp only [List.length_map, List.length_range'] at count
      rw [typeCount, types_push, List.map_append, numbered, placed, List.length_append, count,
        List.range_eq_range', List.range_eq_range', ← typeCount, ← List.range'_append_1,
        Nat.zero_add]

/-- The first variable with a name. -/
def variableNamed? (name : String) (buffer : ConstantBuffer) : Option (Declared BufferVariable) :=
  Declared.first? (·.name = name) buffer.entries

/-- The first variable whose declared range contains a byte. -/
def variableAt? (offset : UInt32) (buffer : ConstantBuffer) : Option (Declared BufferVariable) :=
  Declared.first? (·.contains offset) buffer.entries

/-- The number reached from `id` by following parents in a list of types, as long as they were
numbered earlier. -/
def rootFrom (types : List PlacedType) (id : Nat) : Nat :=
  match types[id]? with
  | none => id
  | some type =>
      match type.label.parent with
      | none => id
      | some parent => if parent < id then rootFrom types parent else id
termination_by id

/-- The number of the outermost type that encloses the type with a number. -/
def rootOf (buffer : ConstantBuffer) (id : Nat) : Nat := rootFrom buffer.types id

end ConstantBuffer
end ShaderInterface
