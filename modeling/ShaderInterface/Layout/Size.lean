import ShaderInterface.Layout.Slot
import ShaderInterface.Layout.Tree

/-!
# Packed sizes

The size of a declared type in bytes. A struct ends where its last member ends, every array element
but the last fills whole slots, and a matrix that is emitted as an array of vectors takes one slot
for each of its rows or columns.
-/

namespace ShaderInterface

namespace Shape

/-- Bytes of the components, packed without gaps. -/
def componentBytes (shape : Shape) : Except ArithmeticError Nat := do
  Word.multiply (← Word.multiply shape.columns.toNat shape.rows.toNat) 4

/-- Bytes of a single value that is not a struct and whose components take `packed` bytes. -/
def leafBytes (matricesAsVectors : Bool) (packed : Nat) (shape : Shape) :
    Except ArithmeticError Nat :=
  match matricesAsVectors, shape.variableClass with
  | true, .matrixRows => Word.multiply shape.rows.toNat slotBytes
  | true, .matrixColumns => Word.multiply shape.columns.toNat slotBytes
  | _, _ => .ok packed

/-- Bytes of all elements, if one takes `size` bytes and the next one starts `stride` bytes later;
cut off at the largest word. -/
def arrayExtent (size stride : Nat) (shape : Shape) : Nat :=
  Word.saturatingAdd (Word.saturatingMultiply stride (shape.elements.toNat - 1)) size

/-- Bytes of the declared array whose elements take `size` bytes. -/
def arrayBytes (size : Nat) (shape : Shape) : Except ArithmeticError Nat := do
  if shape.isArray then
    return shape.arrayExtent size (← roundToSlot size)
  else
    return size

end Shape

namespace LayoutTree

variable {Label : Type}

mutual

/-- Bytes of one element of a type. -/
def elementSize (matricesAsVectors : Bool) :
    LayoutTree Label → Except ArithmeticError Nat
  | node shape _ members => do
      let packed ← shape.componentBytes
      if shape.variableClass = .struct then
        structSize matricesAsVectors members
      else
        shape.leafBytes matricesAsVectors packed

/-- Bytes from the start of a struct to the end of its last member. -/
def structSize (matricesAsVectors : Bool) :
    List (LayoutTree Label) → Except ArithmeticError Nat
  | [] => .ok 0
  | [last] => do
      let size ← last.shape.arrayBytes (← elementSize matricesAsVectors last)
      return Word.saturatingAdd last.shape.offset.toNat size
  | _ :: next :: rest => structSize matricesAsVectors (next :: rest)

end

/-- Bytes of a type with all its elements. -/
def wholeSize (matricesAsVectors : Bool) (tree : LayoutTree Label) :
    Except ArithmeticError Nat := do
  tree.shape.arrayBytes (← tree.elementSize matricesAsVectors)

/-- Bytes of a type, of all its elements or of one. -/
def packedSize (matricesAsVectors whole : Bool) (tree : LayoutTree Label) :
    Except ArithmeticError Nat :=
  if whole then tree.wholeSize matricesAsVectors else tree.elementSize matricesAsVectors

theorem structSize_eq (matricesAsVectors : Bool) (members : List (LayoutTree Label)) :
    structSize matricesAsVectors members =
      match members.getLast? with
      | none => .ok 0
      | some last => do
          return Word.saturatingAdd last.shape.offset.toNat
            (← last.wholeSize matricesAsVectors) := by
  induction members with
  | nil => rw [structSize]; rfl
  | cons first rest induction =>
      cases rest with
      | nil => simp [structSize, wholeSize]
      | cons next rest => rw [structSize, induction, List.getLast?_cons_cons]

end LayoutTree
end ShaderInterface
