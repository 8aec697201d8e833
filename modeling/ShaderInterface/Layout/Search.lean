import ShaderInterface.Layout.Size

/-!
# Finding the type at a byte

A search walks from a type down to the innermost node whose elements cover a byte. In a struct the
first member that covers the byte is taken; padding between members belongs to the struct.
-/

namespace ShaderInterface

/-- What a byte of a constant buffer belongs to. -/
structure Location (Label : Type) where
  /-- The innermost type that covers the byte. -/
  leaf : LayoutTree Label
  /-- The byte selects one slot of the leaf, an array element or a row or column of a matrix. -/
  isArray : Bool
  /-- Array indices, outermost level first. -/
  indices : List Nat
  /-- Byte at which the leaf starts inside its slot, if the leaf is a lone vector; 0 otherwise. -/
  rebase : Nat
deriving Repr

/-- The same location seen from an enclosing type that was entered through `outer`. -/
def Location.within {Label : Type} (outer : List Nat) (location : Location Label) :
    Location Label :=
  { location with indices := outer ++ location.indices }

namespace Shape

/-- Distance of byte `target` from the start of the type, if the type covers it. -/
def distance? (size stride start target : Nat) (shape : Shape) :
    Except ArithmeticError (Option Nat) := do
  if target < start then
    return none
  else
    let distance ← Word.subtract target start
    if distance < shape.arrayExtent size stride then return some distance else return none

/-- Array index that a struct contributes: the distance in units of the unpadded element. -/
def structIndices (size distance : Nat) (shape : Shape) :
    Except ArithmeticError (List Nat) := do
  if shape.isArray then
    return [← Word.divide distance size]
  else
    return []

end Shape

namespace LayoutTree

variable {Label : Type}

/-- The location at `distance` bytes into a type without members that starts at byte `start`. -/
def leafLocation (start distance : Nat) (tree : LayoutTree Label) : Location Label :=
  match tree.shape.variableClass with
  | .matrixRows | .matrixColumns => ⟨tree, true, [distance / slotBytes], 0⟩
  | .scalar =>
      if tree.shape.isArray then ⟨tree, true, [distance / slotBytes], 0⟩ else ⟨tree, false, [], 0⟩
  | .vector =>
      if tree.shape.isArray then ⟨tree, true, [distance / slotBytes], 0⟩
      else ⟨tree, false, [], start % slotBytes⟩
  | _ => ⟨tree, false, [], 0⟩

mutual

/-- The location of byte `target` in a type whose enclosing struct starts at byte `base`. -/
def search (matricesAsVectors : Bool) (base target : Nat) :
    LayoutTree Label → Except ArithmeticError (Option (Location Label))
  | node shape label members => do
      let tree := node shape label members
      let size ← tree.elementSize matricesAsVectors
      let stride ← roundToSlot size
      let start := Word.saturatingAdd base shape.offset.toNat
      match ← shape.distance? size stride start target with
      | none => return none
      | some distance =>
          if shape.variableClass = .struct then
            let outer ← shape.structIndices size distance
            let folded ← Word.add start (← Word.remainder distance stride)
            match ← searchMembers matricesAsVectors start folded members with
            | some location => return some (location.within outer)
            | none => return some ⟨tree, false, outer, 0⟩
          else
            return some (tree.leafLocation start distance)

/-- The location of byte `target` in the first member that covers it. -/
def searchMembers (matricesAsVectors : Bool) (base target : Nat) :
    List (LayoutTree Label) → Except ArithmeticError (Option (Location Label))
  | [] => .ok none
  | member :: rest => do
      match ← search matricesAsVectors base target member with
      | some location => return some location
      | none => searchMembers matricesAsVectors base target rest

end

end LayoutTree
end ShaderInterface
