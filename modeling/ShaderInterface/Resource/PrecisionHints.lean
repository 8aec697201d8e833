import Std.Data.HashMap
import ShaderInterface.Trace.Logged

/-!
# Precision hints

Hints ask for the precision of textures and samplers by name. A sampler named after its texture
takes the hint of the texture.
-/

namespace ShaderInterface

/-- The marking before the texture's name in the name of a sampler. -/
def samplerMark : String := "sampler"

/-- The name without its sampler marking, if it has one. -/
def bareName? (name : String) : Option String :=
  if samplerMark.toList.isPrefixOf name.toList then
    some (String.ofList (name.toList.drop samplerMark.length))
  else
    none

/-- Requested precisions by resource name. -/
structure PrecisionHints where
  /-- The hint for each name. -/
  byName : Std.HashMap String Precision

namespace PrecisionHints

/-- No hints. -/
def empty : PrecisionHints := ⟨∅⟩

/-- The hints with one more, which replaces an earlier one of the same name. -/
def insert (name : String) (precision : Precision) (hints : PrecisionHints) : PrecisionHints :=
  ⟨hints.byName.insert name precision⟩

/-- The hint with exactly this name. -/
def find? (name : String) (hints : PrecisionHints) : Option Precision := hints.byName[name]?

/-- The hint that a new one of the same name replaces, and the hints with the new one. -/
def replace (name : String) (precision : Precision) (hints : PrecisionHints) :
    Option Precision × PrecisionHints :=
  (hints.find? name, hints.insert name precision)

/-- Hints collected in order. -/
def ofList (entries : List (String × Precision)) : PrecisionHints :=
  entries.foldl (fun hints (name, precision) => hints.insert name precision) empty

/-- Number of names with a hint. -/
def size (hints : PrecisionHints) : Nat := hints.byName.size

/-- There is no hint. -/
def isEmpty (hints : PrecisionHints) : Bool := hints.byName.isEmpty

/-- The hint for a resource: the one of its own name, or else the one of its bare name. -/
def lookup (name : String) (hints : PrecisionHints) : Logged (Option Precision) :=
  match hints.find? name with
  | some precision => pure (some precision)
  | none =>
      match bareName? name with
      | none => pure none
      | some bareName =>
          match hints.find? bareName with
          | none => pure none
          | some precision => do
              Logged.report [.hintUnderBareName name bareName]
              return some precision

@[simp] theorem find?_empty (name : String) : empty.find? name = none := by
  simp [find?, empty]

theorem find?_insert (inserted name : String) (precision : Precision) (hints : PrecisionHints) :
    (hints.insert inserted precision).find? name =
      if inserted = name then some precision else hints.find? name := by
  simp [find?, insert, Std.HashMap.getElem?_insert]

end PrecisionHints
end ShaderInterface
