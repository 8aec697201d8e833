import ShaderInterface.Proofs.Layout.ExactSearch
import ShaderInterface.Proofs.Layout.Visits

/-!
# Addresses of leaves

A search folds the byte back into the first element of every struct that it enters, and so it loses
sight of where the leaf lies. The exact address of the leaf counts the elements that were skipped on
the way. They fill whole slots, so a leaf has the same place in its slot at both addresses.
-/

namespace ShaderInterface

open LayoutTree

variable {Label : Type} {matricesAsVectors : Bool}

namespace Probe

/-! ## The trail is the only one -/

theorem Descends.exists_asked {outer inner : Probe Label}
    (step : Descends matricesAsVectors outer inner) :
    ∃ folded, outer.folded matricesAsVectors = .ok folded ∧
      inner = below outer.start folded inner.type ∧
      Asked matricesAsVectors outer.start folded outer.type.members inner.type := by
  obtain ⟨folded, before, after, folds, inner_eq, split, turnedDown⟩ := step.first
  exact ⟨folded, folds, inner_eq, before, after, split, turnedDown⟩

theorem Descends.unique {outer inner other : Probe Label}
    (step : Descends matricesAsVectors outer inner)
    (otherStep : Descends matricesAsVectors outer other) : other = inner := by
  obtain ⟨folded, folds, inner_eq, asked⟩ := step.exists_asked
  obtain ⟨_, otherFolds, other_eq, otherAsked⟩ := otherStep.exists_asked
  obtain rfl := Except.ok.inj (folds.symm.trans otherFolds)
  have same := otherAsked.unique (other_eq ▸ otherStep.claimed) asked (inner_eq ▸ step.claimed)
  rw [other_eq, same, ← inner_eq]

/-- A search that settles does not descend. -/
theorem Settles.not_descends {outer inner : Probe Label}
    (settles : Settles matricesAsVectors outer) : ¬ Descends matricesAsVectors outer inner := by
  intro step
  obtain ⟨folded, folds, inner_eq, -⟩ := step.exists_asked
  obtain ⟨_, settledFolds, turnedDown⟩ := settles step.struct
  obtain rfl := Except.ok.inj (folds.symm.trans settledFolds)
  have claimed := step.claimed
  rw [inner_eq, turnedDown inner.type step.isMember] at claimed
  cases claimed

theorem Trail.unique {outer leaf otherLeaf : Probe Label} {rest otherRest : List (Probe Label)}
    (trail : Trail matricesAsVectors outer rest leaf)
    (other : Trail matricesAsVectors outer otherRest otherLeaf) :
    otherRest = rest ∧ otherLeaf = leaf := by
  induction trail generalizing otherRest otherLeaf with
  | settle settles =>
      cases other with
      | settle => exact ⟨rfl, rfl⟩
      | descend otherStep => exact absurd otherStep settles.not_descends
  | descend step _ induction =>
      cases other with
      | settle settles => exact absurd step settles.not_descends
      | descend otherStep otherTrail =>
          obtain rfl := step.unique otherStep
          obtain ⟨rfl, rfl⟩ := induction otherTrail
          exact ⟨rfl, rfl⟩

/-! ## The exact address -/

/-- Bytes from the start of the type to the element that the byte lies in. -/
def skipped (matricesAsVectors : Bool) (probe : Probe Label) : Except ArithmeticError Nat := do
  let stride ← roundToSlot (← probe.type.elementSize matricesAsVectors)
  return (probe.target - probe.start) / stride * stride

/-- Byte at which the innermost type of a trail starts, if the struct around the outermost one
starts at byte `base`: the offsets of all types on the way and the bytes skipped before the last
one are added up. -/
def address (matricesAsVectors : Bool) (base : Nat) (probe : Probe Label) :
    List (Probe Label) → Except ArithmeticError Nat
  | [] => .ok (base + probe.type.shape.offset.toNat)
  | inner :: rest => do
      let skipped ← probe.skipped matricesAsVectors
      inner.address matricesAsVectors (base + probe.type.shape.offset.toNat + skipped) rest

theorem skipped_of_measured {probe : Probe Label} {size stride : Nat}
    (measured : Measured matricesAsVectors probe.type size stride) :
    probe.skipped matricesAsVectors =
      .ok ((probe.target - probe.start) / stride * stride) := by
  simp only [skipped, measured.size_eq, measured.stride_eq, ok_bind]
  rfl

/-- A type that claims a byte below the largest word has its exact start. -/
theorem start_eq_of_claims {base target : Nat} {type : LayoutTree Label}
    (claimed : (below base target type).claims matricesAsVectors = .ok true)
    (target_lt : target < Word.last) :
    (below base target type).start = base + type.shape.offset.toNat := by
  obtain ⟨whole, -, covers⟩ := exists_covers_of_claims claimed
  exact saturatingAdd_of_covers target_lt covers

/-- Along a trail the skipped elements take the folded byte back to the byte asked for, and they
fill whole slots. Here `slots` bytes have been skipped before the outermost type. -/
theorem Trail.exists_address {outer leaf : Probe Label} {rest : List (Probe Label)}
    (trail : Trail matricesAsVectors outer rest leaf) {base slots : Nat}
    (start_eq : outer.start = base + outer.type.shape.offset.toNat)
    (claimed : outer.claims matricesAsVectors = .ok true) (target_lt : outer.target < Word.last)
    (aligned : slotBytes ∣ slots) :
    leaf.claims matricesAsVectors = .ok true ∧
    ∃ address, outer.address matricesAsVectors (base + slots) rest = .ok address ∧
      address + (leaf.target - leaf.start) = outer.target + slots ∧
      address % slotBytes = leaf.start % slotBytes := by
  induction trail generalizing base slots with
  | @settle probe =>
      obtain ⟨whole, -, reached, -⟩ := exists_covers_of_claims claimed
      obtain ⟨count, rfl⟩ := aligned
      refine ⟨claimed, _, rfl, by omega, ?_⟩
      rw [Nat.add_right_comm, ← start_eq, Nat.add_mul_mod_self_left]
  | @descend outer inner leaf rest step trail induction =>
      obtain ⟨folded, folds, inner_eq, -⟩ := step.exists_asked
      obtain ⟨size, stride, measured, rfl⟩ := measured_of_folded folds
      have covers := covers_of_claims measured claimed
      have reached := covers.1
      let moved := (outer.target - outer.start) / stride * stride
      have moved_eq : moved + (outer.target - outer.start) % stride =
          outer.target - outer.start := Nat.div_add_mod' _ stride
      have folded_lt := Nat.lt_of_le_of_lt (folded_le covers stride) target_lt
      have inner_start : inner.start = outer.start + inner.type.shape.offset.toNat := by
        have innerClaimed := step.claimed
        rw [inner_eq] at innerClaimed ⊢
        exact start_eq_of_claims innerClaimed folded_lt
      have inner_target : inner.target =
          outer.start + (outer.target - outer.start) % stride :=
        congrArg Probe.target inner_eq
      -- For the inner type, the elements skipped here are skipped before it.
      have further : slotBytes ∣ slots + moved := by
        have stride_aligned := measured.stride_eq_strideOf ▸ slotBytes_dvd_strideOf size
        exact Nat.dvd_add aligned (Nat.dvd_mul_left_of_dvd stride_aligned _)
      obtain ⟨leafClaimed, found, located, distance, place⟩ :=
        induction inner_start step.claimed (inner_target ▸ folded_lt) further
      refine ⟨leafClaimed, found, ?_, by omega, place⟩
      have origin : base + slots + outer.type.shape.offset.toNat + moved =
          outer.start + (slots + moved) := by omega
      rw [address, skipped_of_measured measured, ok_bind, origin, located]

/-- The trail of a search for byte `target` ends in `leaf`, which starts at byte `address`. -/
def LeafStarts (matricesAsVectors : Bool) (base target : Nat) (tree leaf : LayoutTree Label)
    (address : Nat) : Prop :=
  ∃ rest innermost, Trail matricesAsVectors (below base target tree) rest innermost ∧
    innermost.type = leaf ∧
    (below base target tree).address matricesAsVectors base rest = .ok address

theorem LeafStarts.unique {base target address other : Nat} {tree leaf : LayoutTree Label}
    (starts : LeafStarts matricesAsVectors base target tree leaf address)
    (otherStarts : LeafStarts matricesAsVectors base target tree leaf other) :
    other = address := by
  obtain ⟨rest, innermost, trail, -, located⟩ := starts
  obtain ⟨otherRest, _, otherTrail, -, otherLocated⟩ := otherStarts
  obtain ⟨rfl, -⟩ := trail.unique otherTrail
  exact Except.ok.inj (otherLocated.symm.trans located)

end Probe

open Probe

/-- The leaf of a located byte has one exact address, from which the byte lies in the whole extent
of the leaf, and a lone vector is rebased to the place of that address in its slot. -/
theorem exists_leafAddress {base target : Nat} {tree : LayoutTree Label}
    {location : Location Label}
    (found : search matricesAsVectors base target tree = .ok (some location))
    (target_lt : target < Word.last) :
    ∃ address whole,
      (∀ other, LeafStarts matricesAsVectors base target tree location.leaf other ↔
        other = address) ∧
      location.leaf.wholeSize matricesAsVectors = .ok whole ∧
      address ≤ target ∧ target - address < whole ∧
      location.rebase =
        if location.leaf.shape.variableClass = .vector ∧ location.leaf.shape.isArray = false then
          address % slotBytes
        else 0 := by
  have target_le := Nat.le_of_lt target_lt
  obtain ⟨rest, innermost, trail, leaf_eq, -, rebased⟩ := exists_trail found target_le
  have claimed : (below base target tree).claims matricesAsVectors = .ok true :=
    claims_of_search found target_le
  obtain ⟨leafClaimed, address, located, distance, place⟩ :=
    trail.exists_address (start_eq_of_claims claimed target_lt) claimed target_lt (Nat.dvd_zero _)
  have starts : LeafStarts matricesAsVectors base target tree location.leaf address :=
    ⟨rest, innermost, trail, leaf_eq, located⟩
  obtain ⟨whole, sized, -, inside⟩ := exists_covers_of_claims leafClaimed
  have target_eq : address + (innermost.target - innermost.start) = target := distance
  refine ⟨address, whole, fun other => ⟨starts.unique, fun same => same ▸ starts⟩,
    leaf_eq ▸ sized, by omega, by omega, ?_⟩
  rw [rebased, Probe.rebase, leaf_eq, place]

end ShaderInterface
