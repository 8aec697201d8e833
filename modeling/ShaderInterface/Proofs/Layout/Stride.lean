import ShaderInterface.Proofs.Layout.Step

/-!
# Searches a stride apart

An array of structs that fill whole slots, or of scalars or vectors that fit one, looks the same
from each of its elements: a search that starts any number of strides further on finds the same
place in a later element.
-/

namespace ShaderInterface

/-- A struct fills whole slots, a scalar or a vector fits one. -/
def Shape.Regular (size : Nat) (shape : Shape) : Prop :=
  shape.variableClass = .struct ∧ slotBytes ∣ size ∨
    shape.variableClass ∈ [VariableClass.scalar, .vector] ∧ 1 ≤ size ∧ size ≤ slotBytes

theorem Shape.Regular.indexed {size : Nat} {shape : Shape} (regular : shape.Regular size) :
    shape.variableClass ∈ [VariableClass.struct, .scalar, .vector] :=
  List.mem_cons.mpr (regular.imp And.left And.left)

/-- The same location `count` elements further on in the outermost array. -/
def Location.advance {Label : Type} (count : Nat) (location : Location Label) : Location Label :=
  { location with indices := location.indices.modifyHead (· + count) }

/-- A byte of a later element has the same distance from the start of its element. -/
theorem Covers.distance_add {start extent target : Nat} (covers : Covers start extent target)
    (moved : Nat) : target + moved - start = target - start + moved :=
  Nat.sub_add_comm covers.1

/-- Slots that are whole elements apart select bytes that are whole strides apart. -/
theorem Swizzle.byteOffset_add {slot further byteOffset furtherOffset : UInt32}
    {swizzle : Swizzle} {size count : Nat}
    (apart : further.toNat = slot.toNat + count * slotCount size)
    (selected : byteOffset? slot swizzle = some byteOffset)
    (furtherSelected : byteOffset? further swizzle = some furtherOffset) :
    furtherOffset.toNat = byteOffset.toNat + count * strideOf size := by
  rw [toNat_of_byteOffset? selected, toNat_of_byteOffset? furtherSelected, apart, strideOf,
    ← Nat.mul_assoc, slotBytes]
  omega

namespace LayoutTree

variable {Label : Type} {matricesAsVectors : Bool} {base target count size stride : Nat}
  {tree : LayoutTree Label}

/-- An array of scalars or vectors has one index, which counts slots. -/
theorem leafLocation_array (start distance : Nat)
    (components : tree.shape.variableClass ∈ [VariableClass.scalar, .vector])
    (array : tree.shape.isArray) :
    tree.leafLocation start distance = ⟨tree, true, [distance / slotBytes], 0⟩ := by
  unfold leafLocation
  simp only [List.mem_cons, List.not_mem_nil, or_false] at components
  rcases components with same | same <;> rw [same] <;> exact if_pos array

theorem enclose_advance (first : Nat) (rest : List Nat) (inner : Option (Location Label))
    (tree : LayoutTree Label) :
    tree.enclose ((first + count) :: rest) inner =
      (tree.enclose (first :: rest) inner).advance count := by
  cases inner <;> rfl

/-- What is found in an array has an index for it. -/
theorem exists_first_index {location : Location Label}
    (found : search matricesAsVectors base target tree = .ok (some location))
    (target_le : target ≤ Word.last) (array : tree.shape.isArray)
    (indexed : tree.shape.variableClass ∈ [VariableClass.struct, .scalar, .vector]) :
    ∃ first rest, location.indices = first :: rest := by
  obtain ⟨size, stride, -, ends⟩ := search_cases found target_le
  rcases ends with ⟨-, impossible⟩ | ⟨-, leaf, same⟩ | ⟨-, -, inner, -, same⟩
  · contradiction
  · obtain rfl := Option.some.inj same
    rw [leafLocation_array _ _ ((List.mem_cons.mp indexed).resolve_left leaf) array]
    exact ⟨_, [], rfl⟩
  · obtain rfl := Option.some.inj same
    rw [Shape.structLevel, if_pos array]
    cases inner <;> exact ⟨_, _, rfl⟩

/-- Moving the byte by whole strides inside a regular array moves the outermost index and nothing
else; an overflow on the way stays the same as well. -/
theorem search_add_strides (measured : Measured matricesAsVectors tree size stride)
    (array : tree.shape.isArray) (regular : tree.shape.Regular size)
    (covers : Covers (Word.saturatingAdd base tree.shape.offset.toNat)
      (tree.shape.arrayExtent size stride) target)
    (moved : Covers (Word.saturatingAdd base tree.shape.offset.toNat)
      (tree.shape.arrayExtent size stride) (target + count * stride))
    (target_le : target + count * stride ≤ Word.last) :
    search matricesAsVectors base (target + count * stride) tree =
      (search matricesAsVectors base target tree).map (Option.map (Location.advance count)) := by
  have distance_eq := covers.distance_add (count * stride)
  have size_pos := measured.size_pos covers
  rcases regular with ⟨struct, aligned⟩ | ⟨components, -, narrow⟩
  · have stride_eq : stride = size := measured.stride_eq_strideOf.trans (strideOf_of_dvd aligned)
    rw [search_struct measured rfl moved struct target_le,
      search_struct measured rfl covers struct (by omega), distance_eq, Nat.add_mul_mod_self_right,
      Shape.structLevel, Shape.structLevel, if_pos array, if_pos array, stride_eq,
      Nat.add_mul_div_right _ _ size_pos]
    cases searchMembers matricesAsVectors _ _ tree.members with
    | error failure => rfl
    | ok inner => exact congrArg (Except.ok ∘ some) (enclose_advance _ [] inner tree)
  · have stride_eq : stride = slotBytes :=
      measured.stride_eq_strideOf.trans (strideOf_of_le size_pos narrow)
    have leaf : tree.shape.variableClass ≠ .struct := by
      intro struct
      rw [struct] at components
      contradiction
    rw [search_leaf measured moved leaf, search_leaf measured covers leaf,
      leafLocation_array _ _ components array, leafLocation_array _ _ components array,
      distance_eq, stride_eq, Nat.add_mul_div_right _ _ (by decide)]
    rfl

end LayoutTree
end ShaderInterface
