import ShaderInterface.Proofs.Buffer.Scan
import ShaderInterface.Proofs.Layout.LeafAddress

/-!
# Rebased vectors

The rebase of a lone vector is the place of its exact address in its slot, although the search sees
the address folded into first elements only. If the vector ends in the slot where it starts, the
byte of the selected lane less the rebase is the distance into the vector.
-/

namespace ShaderInterface

open LayoutTree Probe

/-- In the slot where a vector of `size` bytes starts and ends, a byte of the vector is as far from
its start as their places in the slot are apart. -/
theorem lane_sub_place {address byte size : Nat} (reached : address ≤ byte)
    (inside : byte - address < size) (fits : address % slotBytes + size ≤ slotBytes) :
    address % slotBytes ≤ byte % slotBytes ∧
      byte % slotBytes - address % slotBytes = byte - address := by
  unfold slotBytes at *
  omega

theorem wholeSize_of_single {Label : Type} {matricesAsVectors : Bool} {tree : LayoutTree Label}
    {whole : Nat} (single : tree.shape.isArray = false)
    (sized : tree.wholeSize matricesAsVectors = .ok whole) :
    tree.elementSize matricesAsVectors = .ok whole := by
  obtain ⟨size, computed, extended⟩ := bind_eq_ok_iff.mp sized
  rw [Shape.arrayBytes, single] at extended
  exact Except.ok.inj extended ▸ computed

/-- A located byte lies in its leaf counted from the exact address of the leaf, and the rebase is
the place of that address in its slot for a lone vector, and 0 for every other leaf. For a resolved
vector that does not straddle slots, the lane's byte less the rebase is the distance into it. -/
theorem rebase_eq_address_mod (flags : LayoutFlags) :
    let matricesAsVectors := flags.matricesAsVectors
    (∀ (type : PlacedType) (base target : UInt32) location, target.toNat < Word.last →
      (type.locate flags base target).run.value = .ok (some location) →
      let leaf := location.leaf
      ∃ address whole,
        (∀ other, LeafStarts matricesAsVectors base.toNat target.toNat type leaf other ↔
          other = address) ∧
        leaf.wholeSize matricesAsVectors = .ok whole ∧
        address ≤ target.toNat ∧ target.toNat - address < whole ∧
        location.rebase =
          if leaf.shape.variableClass = .vector ∧ leaf.shape.isArray = false then address % 16
          else 0) ∧
    ∀ (buffer : ConstantBuffer) (slot : UInt32) (swizzle : Swizzle) resolution,
      (buffer.resolve slot swizzle flags).run.value = .ok (some resolution) →
      let holder := resolution.holder.entry
      let leaf := resolution.location.leaf
      let rebase := resolution.location.rebase
      let lane := swizzle.firstByte.toNat
      let byte := 16 * slot.toNat + lane
      leaf.shape.variableClass = .vector → leaf.shape.isArray = false →
      ∃ address size,
        (∀ other, LeafStarts matricesAsVectors holder.start.toNat byte holder.type leaf other ↔
          other = address) ∧
        leaf.elementSize matricesAsVectors = .ok size ∧ rebase = address % 16 ∧
        (address % 16 + size ≤ 16 →
          address ≤ byte ∧ rebase ≤ lane ∧ lane - rebase = byte - address ∧
            lane - rebase < size) := by
  intro matricesAsVectors
  constructor
  · intro type base target location target_lt located
    rw [PlacedType.value_locate] at located
    exact exists_leafAddress located target_lt
  · intro buffer slot swizzle resolution resolved holder leaf rebase lane byte vector single
    obtain ⟨-, byteOffset, selected, located⟩ := ConstantBuffer.find_of_resolve resolved
    have byte_eq : byteOffset.toNat = byte := Swizzle.toNat_of_byteOffset? selected
    have byte_lt := Swizzle.lt_last_of_byteOffset? selected
    obtain ⟨address, whole, starts, sized, reached, inside, rebased⟩ :=
      exists_leafAddress located byte_lt
    rw [byte_eq] at starts reached inside
    rw [if_pos ⟨vector, single⟩] at rebased
    refine ⟨address, whole, starts, wholeSize_of_single single sized, rebased, fun fits => ?_⟩
    have lane_eq : byte % slotBytes = lane := by
      have := swizzle.firstByte_le
      unfold slotBytes
      omega
    obtain ⟨place_le, distance⟩ := lane_sub_place reached inside fits
    rw [lane_eq, ← rebased] at place_le distance
    exact ⟨reached, place_le, distance, distance ▸ inside⟩

/-- A buffer with an array of structs in which a vector follows a scalar. -/
def rowBuffer : ConstantBuffer :=
  .ofDeclarations "Rows" 0
    [⟨16, 0, .array 3 (.struct "rows" 0 [.scalar "weight" 0, .vector "axis" 4 2])⟩]

/-- The vector of the second row starts at byte 36, so lane 2 of slot 2 is 4 bytes into it. -/
theorem rebase_eq_address_mod_rowBuffer :
    let rows := rowBuffer.entries[0]
    let axis := rows.type.members[1]
    let location : Location Placement := ⟨axis, false, [2], 4⟩
    (40 : UInt32).toNat < Word.last ∧
    (rows.type.locate ⟨0⟩ 16 40).run.value = .ok (some location) ∧
    (rowBuffer.resolve 2 (.splat 2) ⟨0⟩).run.value = .ok (some ⟨⟨0, rows⟩, location⟩) ∧
    axis.shape.variableClass = .vector ∧ axis.shape.isArray = false ∧
    (∃ address whole,
      (∀ other, LeafStarts false 16 40 rows.type axis other ↔ other = address) ∧
      axis.wholeSize false = .ok whole ∧ address ≤ 40 ∧ 40 - address < whole ∧
      4 = address % 16) ∧
    ∃ address size, (∀ other, LeafStarts false 16 40 rows.type axis other ↔ other = address) ∧
      axis.elementSize false = .ok size ∧ address = 36 ∧ size = 8 ∧
      address % 16 + size ≤ 16 := by
  intro rows axis location
  have below : (40 : UInt32).toNat < Word.last := by decide
  have located : (rows.type.locate ⟨0⟩ 16 40).run.value = .ok (some location) := rfl
  have resolved : (rowBuffer.resolve 2 (.splat 2) ⟨0⟩).run.value =
      .ok (some ⟨⟨0, rows⟩, location⟩) := rfl
  have sized : axis.elementSize false = .ok 8 := rfl
  obtain ⟨located_at, resolved_at⟩ := rebase_eq_address_mod ⟨0⟩
  obtain ⟨address, size, starts, sized', place, distance⟩ :=
    resolved_at rowBuffer 2 (.splat 2) _ resolved rfl rfl
  obtain rfl := Except.ok.inj (sized'.symm.trans sized)
  have place_eq : 4 = address % 16 := place
  have fits : address % 16 + 8 ≤ 16 := by omega
  obtain ⟨-, -, lane_eq, -⟩ := distance fits
  have address_eq : address = 36 := by
    have distance_eq : 8 - 4 = 40 - address := lane_eq
    omega
  exact ⟨below, located, resolved, rfl, rfl, located_at rows.type 16 40 location below located,
    address, 8, starts, sized, address_eq, rfl, fits⟩

end ShaderInterface
