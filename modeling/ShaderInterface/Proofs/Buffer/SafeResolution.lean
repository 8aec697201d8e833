import ShaderInterface.Proofs.Buffer.Scan
import ShaderInterface.Proofs.Layout.Visits

/-!
# Resolutions that cannot fail

Locating a byte overflows exactly if the search visits a type whose size cannot be rounded to slots,
and it fails in no other way: it never divides by zero, and it never leaves the range of words. In
types whose sizes can be rounded every byte has an answer, and so has every access.
-/

namespace ShaderInterface

open LayoutTree Probe

variable {flags : LayoutFlags} {byteOffset : UInt32}

theorem exists_resolveAmong {holders : List (Declared BufferVariable)}
    (answers : ∀ holder ∈ holders, ∃ answer, holder.entry.find flags byteOffset = .ok answer) :
    ∃ answer, (resolveAmong flags byteOffset holders).run.value = .ok answer := by
  induction holders with
  | nil => exact ⟨none, rfl⟩
  | cons holder rest induction =>
      obtain ⟨⟨first, asked⟩, later⟩ := List.forall_mem_cons.mp answers
      rw [value_resolveAmong_cons, asked, ok_bind]
      cases first with
      | none => exact induction later
      | some location => exact ⟨some ⟨holder, location⟩, rfl⟩

/-- An access to a buffer whose types can all be measured has an answer. -/
theorem ConstantBuffer.exists_resolve {buffer : ConstantBuffer}
    (measured : ∀ declared ∈ buffer.entries, ∀ node ∈ declared.type.nodes, ∃ size stride,
      Measured flags.matricesAsVectors node size stride) (slot : UInt32) (swizzle : Swizzle) :
    ∃ answer, (buffer.resolve slot swizzle flags).run.value = .ok answer := by
  rw [value_resolve]
  cases Swizzle.byteOffset? slot swizzle with
  | none => exact ⟨none, rfl⟩
  | some byteOffset =>
      apply exists_resolveAmong
      intro holder isHolder
      exact exists_search (measured holder.entry (Declared.entry_mem isHolder))
        (Nat.le_of_lt_succ byteOffset.toNat_lt)

/-- Locating a byte overflows exactly if the search visits a type whose size cannot be rounded.
Otherwise its divisors are positive, and folding moves the byte down, but not below the start of
the type. Where all sizes can be rounded, locating and resolving always have an answer. -/
theorem locate_overflowsExactly (flags : LayoutFlags) :
    let matricesAsVectors := flags.matricesAsVectors
    (∀ (type : PlacedType) (base target : UInt32),
      let outermost := below base.toNat target.toNat type
      let located := (type.locate flags base target).run.value
      OverflowsExactly
        (∃ probe, Visits matricesAsVectors outermost probe ∧
          probe.type.Unroundable matricesAsVectors) located ∧
      (∀ probe size stride, Visits matricesAsVectors outermost probe →
        probe.claims matricesAsVectors = .ok true →
        Measured matricesAsVectors probe.type size stride →
          size ≠ 0 ∧ stride ≠ 0 ∧ probe.start ≤ probe.target ∧
          probe.start + (probe.target - probe.start) % stride ≤ probe.target ∧
          probe.target ≤ target.toNat) ∧
      ((∀ node ∈ type.nodes, ∃ size, node.elementSize matricesAsVectors = .ok size ∧
          size ≤ 0xFFFFFFF0) →
        ∃ answer, located = .ok answer)) ∧
    ∀ buffer : ConstantBuffer,
      (∀ declared ∈ buffer.entries, ∀ node ∈ declared.type.nodes, ∃ size,
        node.elementSize matricesAsVectors = .ok size ∧ size ≤ 0xFFFFFFF0) →
      ∀ slot swizzle, ∃ answer, (buffer.resolve slot swizzle flags).run.value = .ok answer := by
  intro matricesAsVectors
  constructor
  · intro type base target outermost located
    have target_le : target.toNat ≤ Word.last := Nat.le_of_lt_succ target.toNat_lt
    have located_eq : located = type.search matricesAsVectors base.toNat target.toNat :=
      PlacedType.value_locate flags base target type
    rw [located_eq]
    refine ⟨overflowsExactly_search type target_le, ?_, fun sized => ?_⟩
    · intro probe size stride visits claimed measured
      obtain ⟨size_ne, stride_ne, reached, folded_le⟩ := arithmetic_of_claims measured claimed
      exact ⟨size_ne, stride_ne, reached, folded_le, visits.target_le⟩
    · exact exists_search (fun node isNode => exists_measured_iff.mpr (sized node isNode)) target_le
  · intro buffer sized
    apply ConstantBuffer.exists_resolve
    exact fun declared isEntry node isNode =>
      exists_measured_iff.mpr (sized declared isEntry node isNode)

/-- A struct with a member that is too large for a word, and a buffer without one. -/
theorem locate_overflowsExactly_blockBuffer :
    let block : PlacedType := TypeDescription.place none 0 (.struct "block" 0
      [.scalar "head" 0, .untyped "blob" .object 4 0x10000 0x10000 [], .scalar "tail" 8])
    let rows : ConstantBuffer := .ofDeclarations "Rows" 0
      [⟨16, 0, .array 0xFFFFFFFF (.struct "rows" 0 [.scalar "weight" 0, .vector "axis" 4 2])⟩]
    (∃ location, (block.locate ⟨0⟩ 0 3).run.value = .ok (some location)) ∧
    (block.locate ⟨0⟩ 0 8).run.value = .error .productOverflow ∧
    (∃ probe, Visits false (below 0 8 block) probe ∧ probe.type.Unroundable false) ∧
    (below 0 8 block).claims false = .ok true ∧ Measured false block 12 16 ∧
    (12 ≠ 0 ∧ 16 ≠ 0 ∧ 0 ≤ 8 ∧ 0 + (8 - 0) % 16 ≤ 8 ∧ 8 ≤ (8 : UInt32).toNat) ∧
    (∀ declared ∈ rows.entries, ∀ node ∈ declared.type.nodes, ∃ size,
      node.elementSize false = .ok size ∧ size ≤ 0xFFFFFFF0) ∧
    ∃ answer, (rows.resolve 0x0FFFFFFF .identity ⟨0⟩).run.value = .ok answer := by
  intro block rows
  have found : ∃ location, (block.locate ⟨0⟩ 0 3).run.value = .ok (some location) := by
    cbv
    exact ⟨_, rfl⟩
  have stopped : (block.locate ⟨0⟩ 0 8).run.value = .error .productOverflow := by cbv
  have claimed : (below 0 8 block).claims false = .ok true := by cbv
  have measured : Measured false block 12 16 := ⟨by cbv, rfl⟩
  have sized : ∀ declared ∈ rows.entries, ∀ node ∈ declared.type.nodes, ∃ size,
      node.elementSize false = .ok size ∧ size ≤ 0xFFFFFFF0 := by
    decide
  obtain ⟨locates, resolves⟩ := locate_overflowsExactly ⟨0⟩
  obtain ⟨exactly, arithmetic, -⟩ := locates block 0 8
  exact ⟨found, stopped, ((exactly _).mp stopped).1, claimed, measured,
    arithmetic (below 0 8 block) 12 16 .start claimed measured, sized,
    resolves rows sized 0x0FFFFFFF .identity⟩

end ShaderInterface
