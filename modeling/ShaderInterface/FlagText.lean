/-!
# Text of flag sets

A set of flags is written as its type's name around the names of its members. Bits that have no
name follow as one hexadecimal number.
-/

namespace ShaderInterface

/-- Names of the set bits among the named ones, which are the lowest. -/
def namedBits (names : List String) (bits : Nat) : List String :=
  names.zipIdx.filterMap fun (name, position) => if bits.testBit position then some name else none

/-- The bits without a name, as a hexadecimal number if any is set. -/
def unnamedBits (names : List String) (bits : Nat) : List String :=
  let rest := bits >>> names.length <<< names.length
  if rest = 0 then [] else ["0x" ++ String.ofList (Nat.toDigits 16 rest)]

/-- The text of a flag set whose lowest bits have the given names. -/
def flagText (typeName : String) (names : List String) (bits : Nat) : String :=
  let members := match namedBits names bits ++ unnamedBits names bits with
    | [] => ["0x0"]
    | parts => parts
  typeName ++ "(" ++ " | ".intercalate members ++ ")"

end ShaderInterface
