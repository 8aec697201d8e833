import ShaderInterface.Proofs.Buffer.Scan
import ShaderInterface.Proofs.Layout.SourcePath

/-!
# From source paths to bytes and back

In a buffer that is laid out well, an access to the byte at the address of a source path is
resolved to the variable, the type and the element numbers that the path names.
-/

namespace ShaderInterface

open LayoutTree

variable {matricesAsVectors : Bool}

/-- The byte lies in the packed extent of the variable's type, counted without a largest word. -/
def BufferVariable.Occupies (matricesAsVectors : Bool) (declared : BufferVariable) (byte : Nat) :
    Prop :=
  ∃ whole, declared.type.wholeSize matricesAsVectors = .ok whole ∧
    Covers (declared.start.toNat + declared.type.shape.offset.toNat) whole byte

/-- A variable shares no byte with one that starts after its end. -/
theorem BufferVariable.not_occupies_of_end_le {first second : BufferVariable} {whole : Nat}
    (sized : first.type.wholeSize matricesAsVectors = .ok whole)
    (end_le : first.start.toNat + first.type.shape.offset.toNat + whole ≤
      second.start.toNat + second.type.shape.offset.toNat) (byte : Nat) :
    ¬ (first.Occupies matricesAsVectors byte ∧ second.Occupies matricesAsVectors byte) := by
  rintro ⟨⟨_, sized', covers⟩, ⟨_, -, furtherCovers⟩⟩
  obtain rfl := Except.ok.inj (sized.symm.trans sized')
  exact not_covers_of_end_le end_le byte ⟨covers, furtherCovers⟩

namespace ConstantBuffer

/-- The demands on a buffer that is laid out well. -/
structure WellLaidOut (matricesAsVectors : Bool) (buffer : ConstantBuffer) : Prop where
  /-- Every type is laid out well. -/
  types : ∀ type ∈ buffer.types, type.WellLaidOut matricesAsVectors
  /-- Every variable ends below the largest word. -/
  bounded : ∀ declared ∈ buffer.entries, ∃ whole,
    declared.type.wholeSize matricesAsVectors = .ok whole ∧
      declared.start.toNat + declared.type.shape.offset.toNat + whole < Word.last
  /-- No two variables share a byte. -/
  disjoint : buffer.entries.Pairwise fun first second =>
    ∀ byte, ¬ (first.Occupies matricesAsVectors byte ∧ second.Occupies matricesAsVectors byte)

namespace WellLaidOut

variable {buffer : ConstantBuffer} {declared : BufferVariable}

theorem nodes_wellLaidOut (laidOut : buffer.WellLaidOut matricesAsVectors)
    (isEntry : declared ∈ buffer.entries) :
    ∀ node ∈ declared.type.nodes, node.WellLaidOut matricesAsVectors :=
  fun node isNode => laidOut.types node (List.mem_flatMap.mpr ⟨declared, isEntry, isNode⟩)

/-- A variable turns down a byte that it does not occupy. -/
theorem find_outside (laidOut : buffer.WellLaidOut matricesAsVectors)
    (isEntry : declared ∈ buffer.entries) {byteOffset : UInt32}
    (outside : ¬ declared.Occupies matricesAsVectors byteOffset.toNat) :
    declared.type.search matricesAsVectors declared.start.toNat byteOffset.toNat = .ok none := by
  have node := laidOut.nodes_wellLaidOut isEntry declared.type declared.type.self_mem_nodes
  obtain ⟨size, sized, -⟩ := node.sized
  obtain ⟨whole, computed, fits⟩ := laidOut.bounded declared isEntry
  have measured := node.measured sized
  obtain rfl := measured.whole_eq computed
  have start_eq : Word.saturatingAdd declared.start.toNat declared.type.shape.offset.toNat =
      declared.start.toNat + declared.type.shape.offset.toNat :=
    Word.saturatingAdd_of_le (by omega)
  refine search_outside measured fun covers => outside ⟨_, measured.wholeSize_eq, ?_⟩
  rwa [← start_eq]

/-- The bytes of a path are occupied by the variable. -/
theorem occupies_path (laidOut : buffer.WellLaidOut matricesAsVectors)
    (isEntry : declared ∈ buffer.entries) (path : SourcePath matricesAsVectors declared.type) :
    declared.start.toNat + path.address + path.byte < Word.last ∧
      declared.Occupies matricesAsVectors (declared.start.toNat + path.address + path.byte) := by
  obtain ⟨whole, sized, fits⟩ := laidOut.bounded declared isEntry
  obtain ⟨lower, upper⟩ :=
    path.address_bounds (laidOut.nodes_wellLaidOut isEntry) sized (by omega)
  exact ⟨by omega, whole, sized, covers_iff.mpr (by omega)⟩

/-- The variables before the one that a path starts in turn down the byte of the path. -/
theorem resolveAmong_path {flags : LayoutFlags}
    (laidOut : buffer.WellLaidOut flags.matricesAsVectors)
    {holder : Declared BufferVariable} (isHolder : holder ∈ Declared.all buffer.entries)
    (path : SourcePath flags.matricesAsVectors holder.entry.type) {byteOffset : UInt32}
    (selected : byteOffset.toNat = holder.entry.start.toNat + path.address + path.byte) :
    (holder.entry.type.locate flags holder.entry.start byteOffset).run.value =
        .ok (some (path.location holder.entry.start.toNat)) ∧
      (resolveAmong flags byteOffset (Declared.all buffer.entries)).run.value =
        .ok (some ⟨holder, path.location holder.entry.start.toNat⟩) := by
  have isEntry := Declared.entry_mem isHolder
  obtain ⟨-, occupied⟩ := laidOut.occupies_path isEntry path
  obtain ⟨whole, sized, fits⟩ := laidOut.bounded holder.entry isEntry
  have located : holder.entry.find flags byteOffset =
      .ok (some (path.location holder.entry.start.toNat)) := by
    rw [BufferVariable.find, selected]
    exact path.search_path (laidOut.nodes_wellLaidOut isEntry) sized fits
  refine ⟨(PlacedType.value_locate ..).trans located, ?_⟩
  obtain ⟨before, after, split⟩ := List.append_of_mem isHolder
  have disjoint := laidOut.disjoint
  rw [← Declared.map_entry_all buffer.entries, List.pairwise_map, split] at disjoint
  have turnedDown : ∀ earlier ∈ before, earlier.entry.find flags byteOffset = .ok none := by
    intro earlier isEarlier
    have apart := (List.pairwise_append.mp disjoint).2.2 earlier isEarlier holder
      List.mem_cons_self byteOffset.toNat
    refine laidOut.find_outside
      (Declared.entry_mem (split ▸ List.mem_append_left _ isEarlier)) ?_
    exact fun occupies => apart ⟨occupies, selected ▸ occupied⟩
  rw [split]
  exact resolveAmong_of_first turnedDown located after

end WellLaidOut
end ConstantBuffer

namespace Swizzle

/-- A byte offset is selected if the slot and the lane add up to it. -/
theorem exists_byteOffset {slot : UInt32} {swizzle : Swizzle} {byte : Nat}
    (same : 16 * slot.toNat + swizzle.firstByte.toNat = byte) (fits : byte ≤ Word.last) :
    ∃ byteOffset, byteOffset? slot swizzle = some byteOffset ∧ byteOffset.toNat = byte := by
  cases selected : byteOffset? slot swizzle with
  | none =>
      have beyond := byteOffset?_eq_none_iff.mp selected
      unfold Word.last at fits
      omega
  | some byteOffset => exact ⟨byteOffset, rfl, (toNat_of_byteOffset? selected).trans same⟩

/-- Every multiple of four below the largest word is the first byte of a lane. -/
theorem exists_selecting {byte : Nat} (aligned : 4 ∣ byte) (fits : byte ≤ Word.last) :
    ∃ (slot : UInt32) (lane : UInt8),
      16 * slot.toNat + (splat lane).firstByte.toNat = byte := by
  obtain ⟨count, rfl⟩ := aligned
  unfold Word.last at fits
  have slot_eq : (UInt32.ofNat (count / 4)).toNat = count / 4 :=
    UInt32.toNat_ofNat_of_lt (by unfold UInt32.size; omega)
  refine ⟨UInt32.ofNat (count / 4), UInt8.ofNat (count % 4), ?_⟩
  have lane_lt : count % 4 < 4 := Nat.mod_lt _ (by decide)
  have lane_eq : ∀ lane < 4, (splat (UInt8.ofNat lane)).firstByte.toNat = 4 * lane := by decide
  rw [slot_eq, lane_eq _ lane_lt]
  omega

end Swizzle

/-- In a buffer that is laid out well, the byte of every source path lies below the largest word,
its variable locates it as the path says, and so does every access that selects it; if it starts a
lane, such an access exists. -/
theorem resolve_path (flags : LayoutFlags) (buffer : ConstantBuffer)
    (laidOut : buffer.WellLaidOut flags.matricesAsVectors) (holder : Declared BufferVariable)
    (isHolder : holder ∈ Declared.all buffer.entries)
    (path : SourcePath flags.matricesAsVectors holder.entry.type) :
    let start := holder.entry.start
    let byte := start.toNat + path.address + path.byte
    let location := path.location start.toNat
    byte < Word.last ∧
    (∀ byteOffset : UInt32, byteOffset.toNat = byte →
      (holder.entry.type.locate flags start byteOffset).run.value = .ok (some location) ∧
      (resolveAmong flags byteOffset (Declared.all buffer.entries)).run.value =
        .ok (some ⟨holder, location⟩)) ∧
    (∀ (slot : UInt32) (swizzle : Swizzle), 16 * slot.toNat + swizzle.firstByte.toNat = byte →
      (buffer.resolve slot swizzle flags).run.value = .ok (some ⟨holder, location⟩)) ∧
    (4 ∣ byte → ∃ (slot : UInt32) (lane : UInt8),
      16 * slot.toNat + (Swizzle.splat lane).firstByte.toNat = byte) := by
  intro start byte location
  obtain ⟨byte_lt, -⟩ := laidOut.occupies_path (Declared.entry_mem isHolder) path
  have byte_le := Nat.le_of_lt byte_lt
  refine ⟨byte_lt, fun byteOffset selected => laidOut.resolveAmong_path isHolder path selected,
    fun slot swizzle same => ?_, fun aligned => Swizzle.exists_selecting aligned byte_le⟩
  obtain ⟨byteOffset, selected, selected_eq⟩ := Swizzle.exists_byteOffset same byte_le
  rw [ConstantBuffer.value_resolve, selected]
  exact (laidOut.resolveAmong_path isHolder path selected_eq).2

/-- A vector after a gap, and an array of structs with an array in them. -/
def boneBuffer : ConstantBuffer :=
  .ofDeclarations "Skin" 0
    [⟨0, 0, .vector "axis" 4 3⟩,
      ⟨16, 0, .array 2 (.struct "bones" 0 [.scalar "weight" 0, .array 2 (.vector "tail" 16 4)])⟩]

theorem wellLaidOut_boneBuffer : boneBuffer.WellLaidOut false where
  types := by decide
  bounded := by decide
  disjoint := by
    have axisSized : boneBuffer.entries[0].type.wholeSize false = .ok 12 := rfl
    exact List.pairwise_pair.mpr (BufferVariable.not_occupies_of_end_le axisSized (by decide))

theorem resolve_path_boneBuffer :
    boneBuffer.WellLaidOut false ∧
    ∃ bones tail, ∃ path : SourcePath false bones.entry.type,
      bones ∈ Declared.all boneBuffer.entries ∧ tail ∈ bones.entry.type.members ∧
      path.location 16 = ⟨tail, true, [1, 1], 0⟩ ∧
      16 * (6 : UInt32).toNat + (Swizzle.splat 1).firstByte.toNat =
        16 + path.address + path.byte ∧
      (boneBuffer.resolve 6 (.splat 1) ⟨0⟩).run.value =
        .ok (some ⟨bones, path.location 16⟩) := by
  let bones : Declared BufferVariable := ⟨1, boneBuffer.entries[1]⟩
  let tail : PlacedType := bones.entry.type.members[1]
  let inTail : SourcePath false tail :=
    .leaf 16 1 4 (by decide) rfl (by decide) (by decide)
  let path : SourcePath false bones.entry.type :=
    .member 48 1 rfl rfl (by decide) (List.getElem_mem _) inTail
  have isHolder : bones ∈ Declared.all boneBuffer.entries := Declared.mem_all_iff.mpr rfl
  have selects : 16 * (6 : UInt32).toNat + (Swizzle.splat 1).firstByte.toNat =
      16 + path.address + path.byte := by decide
  obtain ⟨-, -, resolved, -⟩ :=
    resolve_path ⟨0⟩ boneBuffer wellLaidOut_boneBuffer bones isHolder path
  exact ⟨wellLaidOut_boneBuffer, bones, tail, path, isHolder, List.getElem_mem _, rfl, selects,
    resolved 6 (.splat 1) selects⟩

end ShaderInterface
