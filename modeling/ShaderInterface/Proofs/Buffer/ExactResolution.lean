import ShaderInterface.Proofs.Buffer.Scan
import ShaderInterface.Proofs.Layout.ExactSearch

/-!
# Exact resolution

An access that is resolved without an overflow is resolved to what the exact search finds: the
words in which sizes and offsets are kept neither hide a variable nor make one up.
-/

namespace ShaderInterface

open LayoutTree

/-- The exact location of a byte in the first variable that covers it. -/
def ConstantBuffer.exactResolution (matricesAsVectors : Bool) (byteOffset : Nat)
    (buffer : ConstantBuffer) : Option Resolution :=
  (Declared.all buffer.entries).findSome? fun holder =>
    (holder.entry.type.exactSearch matricesAsVectors holder.entry.start.toNat byteOffset).map
      (Resolution.mk holder)

theorem exact_of_resolveAmong {flags : LayoutFlags} {byteOffset : UInt32}
    {holders : List (Declared BufferVariable)} {answer : Option Resolution}
    (below : byteOffset.toNat < Word.last)
    (resolved : (resolveAmong flags byteOffset holders).run.value = .ok answer) :
    (holders.findSome? fun holder =>
      (holder.entry.type.exactSearch flags.matricesAsVectors holder.entry.start.toNat
        byteOffset.toNat).map (Resolution.mk holder)) = answer := by
  rcases resolveAmong_cases resolved with ⟨rfl, turnedDown⟩ |
    ⟨before, holder, after, location, rfl, turnedDown, located, rfl⟩
  · refine List.findSome?_eq_none_iff.mpr fun holder isHolder => ?_
    rw [exactSearch_of_search (turnedDown holder isHolder) below]
    rfl
  · refine List.findSome?_eq_some_iff.mpr ⟨before, holder, after, rfl, ?_, ?_⟩
    · rw [exactSearch_of_search located below]
      rfl
    · intro earlier isEarlier
      rw [exactSearch_of_search (turnedDown earlier isEarlier) below]
      rfl

/-- Resolving an access and locating a byte below the largest word give the exact answers whenever
they do not stop at an overflow; beyond the last slot nothing is found. -/
theorem resolve_eq_exact (buffer : ConstantBuffer) (slot : UInt32) (swizzle : Swizzle)
    (flags : LayoutFlags) :
    (0x10000000 ≤ slot.toNat → (buffer.resolve slot swizzle flags).run.value = .ok none) ∧
    (∀ answer, slot.toNat < 0x10000000 →
      (buffer.resolve slot swizzle flags).run.value = .ok answer →
        answer = buffer.exactResolution flags.matricesAsVectors
          (16 * slot.toNat + swizzle.firstByte.toNat)) ∧
    ∀ (type : PlacedType) (base target : UInt32) answer, target.toNat < Word.last →
      (type.locate flags base target).run.value = .ok answer →
        answer = type.exactSearch flags.matricesAsVectors base.toNat target.toNat := by
  refine ⟨fun beyond => ?_, fun answer inside resolved => ?_,
    fun type base target answer below located => ?_⟩
  · rw [ConstantBuffer.value_resolve, Swizzle.byteOffset?_eq_none_iff.mpr beyond]
  · rw [ConstantBuffer.value_resolve] at resolved
    cases selected : Swizzle.byteOffset? slot swizzle with
    | none =>
        have beyond := Swizzle.byteOffset?_eq_none_iff.mp selected
        exact absurd inside (Nat.not_lt_of_le beyond)
    | some byteOffset =>
        rw [selected] at resolved
        have byteOffset_eq := Swizzle.toNat_of_byteOffset? selected
        have below : byteOffset.toNat < Word.last := by
          have := swizzle.firstByte_le
          unfold Word.last
          omega
        rw [ConstantBuffer.exactResolution, ← byteOffset_eq]
        exact (exact_of_resolveAmong below resolved).symm
  · rw [PlacedType.value_locate] at located
    exact (exactSearch_of_search located below).symm

/-- A buffer with a variable that starts past the last word and one that ends past it. -/
def wideBuffer : ConstantBuffer :=
  .ofDeclarations "Wide" 0
    [⟨16, 0, .scalar "tail" 0xFFFFFFFF⟩,
      ⟨0, 0, .array 0x20000000 (.struct "rows" 0 [.scalar "weight" 0, .vector "axis" 4 2])⟩]

theorem resolve_eq_exact_wideBuffer :
    (0x10000000 ≤ (0x10000000 : UInt32).toNat ∧
      (wideBuffer.resolve 0x10000000 (.splat 1) ⟨0⟩).run.value = .ok none) ∧
    (∃ answer, (0x0FFFFFFF : UInt32).toNat < 0x10000000 ∧
      (wideBuffer.resolve 0x0FFFFFFF (.splat 1) ⟨0⟩).run.value = .ok answer ∧
      answer.map (·.location.indices) = some [357913940] ∧
      answer = wideBuffer.exactResolution false (16 * 0x0FFFFFFF + 4)) ∧
    let tail : PlacedType := TypeDescription.place none 0 (.scalar "tail" 0xFFFFFFFF)
    (0xFFFFFFFE : UInt32).toNat < Word.last ∧
      (tail.locate ⟨0⟩ 16 0xFFFFFFFE).run.value = .ok none ∧
      none = tail.exactSearch false 16 0xFFFFFFFE := by
  have beyond : 0x10000000 ≤ (0x10000000 : UInt32).toNat := by decide
  have inside : (0x0FFFFFFF : UInt32).toNat < 0x10000000 := by decide
  have below : (0xFFFFFFFE : UInt32).toNat < Word.last := by decide
  have resolved : ∃ answer, (wideBuffer.resolve 0x0FFFFFFF (.splat 1) ⟨0⟩).run.value =
      .ok answer ∧ answer.map (·.location.indices) = some [357913940] := by
    cbv
    exact ⟨_, rfl, rfl⟩
  have missed : (PlacedType.locate ⟨0⟩ 16 0xFFFFFFFE
      (TypeDescription.place none 0 (.scalar "tail" 0xFFFFFFFF))).run.value = .ok none := by
    cbv
  obtain ⟨answer, found, indices⟩ := resolved
  obtain ⟨nothing, -, -⟩ := resolve_eq_exact wideBuffer 0x10000000 (.splat 1) ⟨0⟩
  obtain ⟨-, exact_resolve, exact_locate⟩ :=
    resolve_eq_exact wideBuffer 0x0FFFFFFF (.splat 1) ⟨0⟩
  exact ⟨⟨beyond, nothing beyond⟩,
    ⟨answer, inside, found, indices, exact_resolve answer inside found⟩,
    below, missed, exact_locate _ 16 0xFFFFFFFE none below missed⟩

end ShaderInterface
