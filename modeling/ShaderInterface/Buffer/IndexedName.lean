import ShaderInterface.Buffer.ConstantBuffer
import ShaderInterface.Layout.Size

/-!
# Indexed names

The full name of a type is a template: text inserted after each opening bracket makes it an
expression of the shader source. A run-time index goes into the outermost bracket pair.
-/

namespace ShaderInterface

/-- An index that is known only when the shader runs. -/
structure DynamicIndex where
  /-- Source text of the index; without text there is no dynamic index. -/
  text : String
  /-- The index counts slots and has to be divided to count elements. -/
  countsSlots : Bool
deriving DecidableEq, Repr

/-- No dynamic index. -/
def DynamicIndex.absent : DynamicIndex := ⟨"", false⟩

/-- Decimal text of the index at an array level, empty if there is none. -/
def staticFiller (indices : List Nat) (level : Nat) : String :=
  match indices[level]? with
  | some index => Nat.repr index
  | none => ""

/-- Text of a dynamic index at the outermost level. It is divided by `slots` if a count is given,
and the static index at that level is added unless it is zero. -/
def dynamicFiller (text : String) (slots : Option Nat) (indices : List Nat) : String :=
  let scaled := match slots with
    | some count => text ++ " / " ++ Nat.repr count
    | none => text
  match indices.head? with
  | none | some 0 => scaled
  | some index => scaled ++ " + " ++ Nat.repr index

/-- The characters of a template with the text for each level, from `level` on, inserted after the
opening bracket of that level. Inserted text is not read again. -/
def fillBrackets (filler : Nat → String) (level : Nat) : List Char → List Char
  | [] => []
  | letter :: rest =>
      if letter = '[' then
        letter :: ((filler level).toList ++ fillBrackets filler (level + 1) rest)
      else
        letter :: fillBrackets filler level rest

/-- The template with text inserted after each opening bracket, outermost level first. -/
def fillTemplate (filler : Nat → String) (template : String) : String :=
  String.ofList (fillBrackets filler 0 template.toList)

namespace ConstantBuffer

/-- Slots that one element of the variable around `type` takes. -/
def rootSlots (matricesAsVectors : Bool) (type : PlacedType) (buffer : ConstantBuffer) :
    Except ArithmeticError Nat := do
  let root := (buffer.type? (buffer.rootOf type.label.id)).getD type
  return slotCount (← root.elementSize matricesAsVectors)

/-- The full name of `type` with its brackets filled from `indices`. Surplus indices are dropped,
missing ones leave brackets empty, and a dynamic index takes the outermost pair. -/
def indexedName (type : PlacedType) (indices : List Nat) (dynamic : DynamicIndex)
    (matricesAsVectors : Bool) (buffer : ConstantBuffer) : Except ArithmeticError String := do
  let template := type.label.fullName
  if dynamic.text = "" ∨ '[' ∉ template.toList then
    return fillTemplate (staticFiller indices) template
  else
    let slots ← if dynamic.countsSlots then
        some <$> buffer.rootSlots matricesAsVectors type
      else
        pure none
    let filler := fun
      | 0 => dynamicFiller dynamic.text slots indices
      | level + 1 => staticFiller indices (level + 1)
    return fillTemplate filler template

end ConstantBuffer
end ShaderInterface
