import ShaderInterface.Proofs.Buffer.Scan
import ShaderInterface.Proofs.Layout.Trail

/-!
# Declared ranges

The variable of a byte can be found by the declared ranges or by searching the types. If every
variable is declared with the packed size of its type, both ways lead to the same variable.
-/

namespace ShaderInterface

open LayoutTree

variable {flags : LayoutFlags} {byteOffset : UInt32}

namespace BufferVariable

theorem contains_iff {offset : UInt32} {declared : BufferVariable} :
    declared.contains offset = true ↔
      Covers declared.start.toNat declared.size.toNat offset.toNat := by
  rw [contains, Bool.and_eq_true, decide_eq_true_iff, decide_eq_true_iff, covers_iff,
    UInt32.le_iff_toNat_le]

/-- The type of the variable starts with the variable and has the declared size. -/
structure SizedAsDeclared (matricesAsVectors : Bool) (declared : BufferVariable) : Prop where
  /-- Nothing lies before the type. -/
  offset_eq : declared.type.shape.offset = 0
  /-- The packed size is the declared one. -/
  wholeSize_eq : declared.type.wholeSize matricesAsVectors = .ok declared.size.toNat

/-- A search finds the bytes of the declared range and no other ones. -/
theorem SizedAsDeclared.contains_eq {declared : BufferVariable}
    {answer : Option (Location Placement)}
    (sized : declared.SizedAsDeclared flags.matricesAsVectors)
    (found : declared.find flags byteOffset = .ok answer) :
    declared.contains byteOffset = answer.isSome := by
  have target_le : byteOffset.toNat ≤ Word.last := Nat.le_of_lt_succ byteOffset.toNat_lt
  have start_le : declared.start.toNat + 0 ≤ Word.last :=
    Nat.le_of_lt_succ declared.start.toNat_lt
  obtain ⟨whole, computed, claimed⟩ :=
    Probe.claims_eq_ok_iff.mp (Probe.claims_of_search found target_le)
  obtain rfl := Except.ok.inj (computed.symm.trans sized.wholeSize_eq)
  rw [Bool.eq_iff_iff, contains_iff, claimed, Probe.below, sized.offset_eq, UInt32.toNat_zero,
    Word.saturatingAdd_of_le start_le, Nat.add_zero]

end BufferVariable

/-- The scan stops at the first variable whose declared range contains the byte. -/
theorem holder_of_resolveAmong {holders : List (Declared BufferVariable)}
    {answer : Option Resolution}
    (sized : ∀ holder ∈ holders, holder.entry.SizedAsDeclared flags.matricesAsVectors)
    (resolved : (resolveAmong flags byteOffset holders).run.value = .ok answer) :
    answer.map (·.holder) = holders.find? (·.entry.contains byteOffset) := by
  rcases resolveAmong_cases resolved with ⟨rfl, turnedDown⟩ |
    ⟨before, holder, after, location, rfl, turnedDown, located, rfl⟩
  · refine (List.find?_eq_none.mpr fun holder isHolder => ?_).symm
    rw [(sized holder isHolder).contains_eq (turnedDown holder isHolder)]
    exact Bool.false_ne_true
  · refine (List.find?_eq_some_iff_append.mpr ⟨?_, before, after, rfl, ?_⟩).symm
    · exact (sized holder List.mem_append_cons_self).contains_eq located
    · intro earlier isEarlier
      rw [(sized earlier (List.mem_append_left _ isEarlier)).contains_eq
        (turnedDown earlier isEarlier)]
      rfl

/-- If all variables have the sizes of their types, an access is resolved to the first variable
whose declared range contains the byte, and to nothing if there is none. -/
theorem holder_resolve_eq_variableAt (buffer : ConstantBuffer) (flags : LayoutFlags)
    (sized : ∀ declared ∈ buffer.entries, declared.SizedAsDeclared flags.matricesAsVectors)
    (slot : UInt32) (swizzle : Swizzle) (inside : slot.toNat < 0x10000000)
    (answer : Option Resolution)
    (resolved : (buffer.resolve slot swizzle flags).run.value = .ok answer) :
    let byteOffset := 16 * slot + swizzle.firstByte
    byteOffset.toNat = 16 * slot.toNat + swizzle.firstByte.toNat ∧
      answer.map (·.holder) = buffer.variableAt? byteOffset := by
  intro byteOffset
  have selected : Swizzle.byteOffset? slot swizzle = some byteOffset :=
    Swizzle.byteOffset?_of_lt inside swizzle
  rw [ConstantBuffer.value_resolve, selected] at resolved
  exact ⟨Swizzle.toNat_of_byteOffset? selected,
    holder_of_resolveAmong (fun holder isHolder => sized _ (Declared.entry_mem isHolder)) resolved⟩

/-- A buffer with a range that ends past the last word, a size that is cut off, and a variable that
lies inside another one. -/
def overlapBuffer : ConstantBuffer :=
  .ofDeclarations "Overlap" 0
    [⟨0xFFFFFFF0, 64, .array 4 (.vector "tail" 0 4)⟩,
      ⟨16, 0xFFFFFFFF, .array 0x10000001 (.vector "rows" 0 4)⟩,
      ⟨32, 16, .struct "axis" 0 [.vector "direction" 0 4]⟩]

theorem holder_resolve_eq_variableAt_overlapBuffer :
    (∀ declared ∈ overlapBuffer.entries, declared.SizedAsDeclared false) ∧
    (0x0FFFFFFF : UInt32).toNat < 0x10000000 ∧ (2 : UInt32).toNat < 0x10000000 ∧
    (∃ answer, (overlapBuffer.resolve 0x0FFFFFFF (.splat 3) ⟨0⟩).run.value = .ok answer ∧
      answer.map (·.holder.position) = some 0 ∧
      answer.map (·.holder) = overlapBuffer.variableAt? 0xFFFFFFFC) ∧
    (∃ answer, (overlapBuffer.resolve 2 (.splat 1) ⟨0⟩).run.value = .ok answer ∧
      answer.map (·.holder.position) = some 1 ∧
      answer.map (·.holder) = overlapBuffer.variableAt? 36) ∧
    ∃ answer, (overlapBuffer.resolve 0 (.splat 1) ⟨0⟩).run.value = .ok answer ∧
      answer.map (·.holder.position) = none ∧
      answer.map (·.holder) = overlapBuffer.variableAt? 4 := by
  have sized : ∀ declared ∈ overlapBuffer.entries, declared.SizedAsDeclared false :=
    List.forall_mem_cons.mpr ⟨⟨rfl, rfl⟩, List.forall_mem_cons.mpr ⟨⟨rfl, rfl⟩,
      List.forall_mem_singleton.mpr ⟨rfl, rfl⟩⟩⟩
  have resolved (slot : UInt32) (swizzle : Swizzle) (inside : slot.toNat < 0x10000000)
      (answer : Option Resolution)
      (found : (overlapBuffer.resolve slot swizzle ⟨0⟩).run.value = .ok answer) :
      answer.map (·.holder) = overlapBuffer.variableAt? (16 * slot + swizzle.firstByte) :=
    (holder_resolve_eq_variableAt overlapBuffer ⟨0⟩ sized slot swizzle inside answer found).2
  have high : (0x0FFFFFFF : UInt32).toNat < 0x10000000 := by decide
  have low : (2 : UInt32).toNat < 0x10000000 := by decide
  exact ⟨sized, high, low, ⟨_, rfl, rfl, resolved 0x0FFFFFFF (.splat 3) high _ rfl⟩,
    ⟨_, rfl, rfl, resolved 2 (.splat 1) low _ rfl⟩,
    ⟨_, rfl, rfl, resolved 0 (.splat 1) (by decide) _ rfl⟩⟩

end ShaderInterface
