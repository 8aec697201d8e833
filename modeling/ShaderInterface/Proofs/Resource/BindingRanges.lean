import ShaderInterface.Proofs.Selection
import ShaderInterface.Resource.BindingTable

/-!
# Bindings in disjoint ranges

Each register group has registers of its own. Where no two bindings of a group share a register, the
binding of a register is a matter of the declared set alone: there is at most one, and the order of
the declarations and the bindings elsewhere do not count.
-/

namespace ShaderInterface

open Declared

namespace Binding

variable {first second binding : Binding} {group : ResourceGroup} {register : UInt32}

/-- The register is in the range of the binding, counted without a largest word. -/
def Occupies (binding : Binding) (register : Nat) : Prop :=
  binding.bindPoint.toNat ≤ register ∧
    register < binding.bindPoint.toNat + binding.bindCount.toNat

/-- Two bindings share no register of the same group. -/
def Apart (first second : Binding) : Prop :=
  first.kind.group? = second.kind.group? →
    ∀ register, ¬(first.Occupies register ∧ second.Occupies register)

theorem Apart.symm (apart : first.Apart second) : second.Apart first :=
  fun same register both => apart same.symm register both.symm

/-- Ranges share no register if one is empty or ends before the other starts. -/
theorem apart_iff :
    first.Apart second ↔ first.kind.group? = second.kind.group? →
      first.bindCount.toNat = 0 ∨ second.bindCount.toNat = 0 ∨
        first.bindPoint.toNat + first.bindCount.toNat ≤ second.bindPoint.toNat ∨
        second.bindPoint.toNat + second.bindCount.toNat ≤ first.bindPoint.toNat := by
  refine forall_congr' fun _ => ?_
  constructor
  · intro apart
    have := apart (max first.bindPoint.toNat second.bindPoint.toNat)
    simp only [Occupies] at this
    omega
  · rintro ends register ⟨⟨_, _⟩, ⟨_, _⟩⟩
    omega

instance : DecidableRel Apart := fun _ _ => decidable_of_iff _ apart_iff.symm

theorem serves_iff :
    binding.serves group register ↔
      binding.kind.group? = some group ∧ binding.Occupies register.toNat := by
  simp only [serves, Bool.and_eq_true, decide_eq_true_eq, covers_iff, Occupies]

/-- The binding is of a group and has registers there. -/
def livesIn (group : ResourceGroup) (binding : Binding) : Bool :=
  binding.kind.group? = some group && binding.bindCount ≠ 0

theorem livesIn_of_serves (serves : binding.serves group register) : binding.livesIn group := by
  obtain ⟨held, below, above⟩ := serves_iff.mp serves
  have some_register : binding.bindCount ≠ 0 := by
    intro none
    rw [none, UInt32.toNat_zero] at above
    omega
  simp [livesIn, held, some_register]

end Binding

namespace BindingTable

open Binding

variable {bindings others : List Binding} {group : ResourceGroup} {register : UInt32}

/-- A list is refused for its texture buffers and for nothing else. -/
theorem ofList_eq (bindings : List Binding) :
    ofList bindings =
      if ∃ binding ∈ bindings, binding.kind = .tbuffer then
        .error (.unsupportedResourceKind .tbuffer)
      else
        .ok ⟨bindings⟩ := by
  rw [ofList]
  cases ungrouped : bindings.find? (·.kind.group?.isNone) with
  | some binding =>
      have isNone : binding.kind.group?.isNone := by simpa using List.find?_some ungrouped
      have tbuffer : binding.kind = .tbuffer :=
        ResourceKind.group?_eq_none_iff.mp (Option.isNone_iff_eq_none.mp isNone)
      rw [if_pos ⟨binding, List.mem_of_find?_eq_some ungrouped, tbuffer⟩, ← tbuffer]
  | none =>
      have grouped : ¬∃ binding ∈ bindings, binding.kind = .tbuffer := by
        rintro ⟨binding, isBinding, tbuffer⟩
        exact List.find?_eq_none.mp ungrouped binding isBinding (by rw [tbuffer]; rfl)
      rw [if_neg grouped]

theorem ofList_eq_ok_iff {table : BindingTable} :
    ofList bindings = .ok table ↔
      (∀ binding ∈ bindings, binding.kind ≠ .tbuffer) ∧ table = ⟨bindings⟩ := by
  rw [ofList_eq]
  by_cases tbuffer : ∃ binding ∈ bindings, binding.kind = .tbuffer
  · obtain ⟨binding, isBinding, kind⟩ := tbuffer
    rw [if_pos ⟨binding, isBinding, kind⟩]
    exact iff_of_false nofun fun accepted => accepted.1 binding isBinding kind
  · rw [if_neg tbuffer, Except.ok.injEq, eq_comm]
    simp only [not_exists, not_and] at tbuffer
    exact (and_iff_right tbuffer).symm

/-- No register is in the range of two bindings of one group. -/
theorem eq_of_serves (apart : bindings.Pairwise Apart) {found other : Declared Binding}
    (isDeclared : found ∈ all bindings) (isOther : other ∈ all bindings)
    (serves : found.entry.serves group register) (also : other.entry.serves group register) :
    found = other := by
  obtain ⟨held, occupies⟩ := serves_iff.mp serves
  obtain ⟨held', occupies'⟩ := serves_iff.mp also
  rcases Nat.lt_trichotomy found.position other.position with before | same | after
  · have := related_of_pairwise apart isDeclared isOther before
    exact absurd ⟨occupies, occupies'⟩ (this (held.trans held'.symm) _)
  · exact eq_of_position_eq isDeclared isOther same
  · have := related_of_pairwise apart isOther isDeclared after
    exact absurd ⟨occupies', occupies⟩ (this (held'.trans held.symm) _)

theorem find?_eq_some_iff (apart : bindings.Pairwise Apart) {found : Declared Binding} :
    find? group register ⟨bindings⟩ = some found ↔
      found ∈ all bindings ∧ found.entry.serves group register := by
  rw [find?, first?_eq_some_iff]
  constructor
  · exact fun isFirst => ⟨isFirst.isDeclared, isFirst.accepted⟩
  · rintro ⟨isDeclared, serves⟩
    refine ⟨isDeclared, serves, fun other isOther also => ?_⟩
    exact Nat.le_of_eq (congrArg position (eq_of_serves apart isDeclared isOther serves also))

theorem entry_find?_eq_some_iff (apart : bindings.Pairwise Apart) {binding : Binding} :
    (find? group register ⟨bindings⟩).map entry = some binding ↔
      binding ∈ bindings ∧ binding.serves group register := by
  simp only [Option.map_eq_some_iff, find?_eq_some_iff apart]
  constructor
  · rintro ⟨found, ⟨isDeclared, serves⟩, rfl⟩
    exact ⟨entry_mem isDeclared, serves⟩
  · rintro ⟨isBinding, serves⟩
    obtain ⟨found, isDeclared, rfl⟩ := exists_mem_all isBinding
    exact ⟨found, ⟨isDeclared, serves⟩, rfl⟩

/-- Where no two bindings share a register, their order does not count. -/
theorem entry_find?_of_perm (apart : bindings.Pairwise Apart) (perm : bindings.Perm others) :
    (find? group register ⟨others⟩).map entry = (find? group register ⟨bindings⟩).map entry := by
  have others_apart : others.Pairwise Apart :=
    (perm.pairwise_iff fun {_ _} => Apart.symm).mp apart
  refine Option.ext fun binding => ?_
  rw [entry_find?_eq_some_iff apart, entry_find?_eq_some_iff others_apart, perm.mem_iff]

/-- Only bindings of the group that have registers count. -/
theorem entry_find?_of_livesIn
    (same : others.filter (livesIn group) = bindings.filter (livesIn group)) :
    (find? group register ⟨others⟩).map entry = (find? group register ⟨bindings⟩).map entry :=
  entry_first?_congr (fun _ => livesIn_of_serves) same

theorem textureDataType_cases (register : UInt32) (table : BindingTable) :
    (∃ texture, table.find? .texture register = some texture ∧
      table.textureDataType register = .ok texture.entry.dataType) ∨
    table.find? .texture register = none ∧
      table.textureDataType register = .error (.missingTextureBinding register) := by
  rw [textureDataType]
  cases table.find? .texture register with
  | some texture => exact .inl ⟨texture, rfl, rfl⟩
  | none => exact .inr ⟨rfl, rfl⟩

theorem textureDataType_congr {left right : BindingTable}
    (same : (left.find? .texture register).map entry = (right.find? .texture register).map entry) :
    left.textureDataType register = right.textureDataType register := by
  rcases left.textureDataType_cases register with ⟨texture, found, read⟩ | ⟨absent, failed⟩
  · rw [found, Option.map_some, eq_comm, Option.map_eq_some_iff] at same
    obtain ⟨other, also, same⟩ := same
    rw [read, textureDataType, also]
    exact congrArg (Except.ok ·.dataType) same.symm
  · rw [absent, Option.map_none, eq_comm, Option.map_eq_none_iff] at same
    rw [failed, textureDataType, same]

/-- A list of bindings is refused exactly for a texture buffer. In an accepted list of which no two
bindings share a register, the binding of a register is the only one of its group whose range
contains it, in whatever order they are declared. A texture is read as what its binding says.
Bindings of other groups and bindings without registers never count. -/
theorem find?_ofList (bindings : List Binding) :
    (ofList bindings =
      if ∃ binding ∈ bindings, binding.kind = .tbuffer then
        .error (.unsupportedResourceKind .tbuffer)
      else
        .ok ⟨bindings⟩) ∧
    ∀ table, ofList bindings = .ok table →
      (bindings.Pairwise Apart → ∀ group register,
        (∀ found, table.find? group register = some found ↔
          found ∈ all bindings ∧ found.entry.kind.group? = some group ∧
            found.entry.Occupies register.toNat) ∧
        (∀ first ∈ all bindings, ∀ second ∈ all bindings,
          first.entry.kind.group? = some group ∧ first.entry.Occupies register.toNat →
          second.entry.kind.group? = some group ∧ second.entry.Occupies register.toNat →
            first = second) ∧
        ∀ reordered, bindings.Perm reordered → ∃ other, ofList reordered = .ok other ∧
          (other.find? group register).map entry = (table.find? group register).map entry ∧
          other.textureDataType register = table.textureDataType register) ∧
      (∀ register,
        (∃ texture, table.find? .texture register = some texture ∧
          table.textureDataType register = .ok texture.entry.dataType) ∨
        table.find? .texture register = none ∧
          table.textureDataType register = .error (.missingTextureBinding register)) ∧
      ∀ others other, ofList others = .ok other →
        ∀ group, others.filter (livesIn group) = bindings.filter (livesIn group) →
          ∀ register,
            (other.find? group register).map entry = (table.find? group register).map entry ∧
            (group = .texture →
              other.textureDataType register = table.textureDataType register) := by
  refine ⟨ofList_eq bindings, fun table accepted => ?_⟩
  obtain ⟨grouped, rfl⟩ := ofList_eq_ok_iff.mp accepted
  refine ⟨fun apart group register => ⟨?_, ?_, ?_⟩,
    fun register => textureDataType_cases register _, ?_⟩
  · intro found
    rw [find?_eq_some_iff apart, serves_iff]
  · intro first isFirst second isSecond
    rw [← serves_iff, ← serves_iff]
    exact eq_of_serves apart isFirst isSecond
  · intro reordered perm
    have regrouped : ∀ binding ∈ reordered, binding.kind ≠ .tbuffer :=
      fun binding isBinding => grouped binding (perm.mem_iff.mpr isBinding)
    exact ⟨⟨reordered⟩, ofList_eq_ok_iff.mpr ⟨regrouped, rfl⟩, entry_find?_of_perm apart perm,
      textureDataType_congr (entry_find?_of_perm apart perm)⟩
  · intro others other also group same register
    obtain ⟨-, rfl⟩ := ofList_eq_ok_iff.mp also
    refine ⟨entry_find?_of_livesIn same, ?_⟩
    rintro rfl
    exact textureDataType_congr (entry_find?_of_livesIn same)

/-- A texture array with an empty binding inside its range, a buffer whose range passes the last
register, and bindings of other groups at the same registers. -/
def terrainBindings : List Binding :=
  [⟨"PerFrame", .cbuffer, 2, 1, .float, .unknown⟩,
    ⟨"shadowMaps", .texture, 2, 3, .float, .unknown⟩,
    ⟨"unbound", .texture, 3, 0, .sint, .unknown⟩,
    ⟨"ids", .structured, 0xFFFFFFFE, 4, .uint, .unknown⟩,
    ⟨"samplerShadow", .sampler, 2, 2, .float, .unknown⟩]

theorem find?_ofList_terrainBindings :
    let table : BindingTable := ⟨terrainBindings⟩
    let ids : Declared Binding := ⟨3, terrainBindings[3]⟩
    let textures := [terrainBindings[1], terrainBindings[3]]
    ofList terrainBindings = .ok table ∧
    terrainBindings.Pairwise Apart ∧
    (ids ∈ all terrainBindings ∧ ids.entry.kind.group? = some .texture ∧
      ids.entry.Occupies (0xFFFFFFFF : UInt32).toNat ∧
      table.find? .texture 0xFFFFFFFF = some ids) ∧
    (terrainBindings.Perm terrainBindings.reverse ∧
      ∃ other, ofList terrainBindings.reverse = .ok other ∧
        (other.find? .texture 3).map entry = (table.find? .texture 3).map entry ∧
        other.textureDataType 3 = table.textureDataType 3) ∧
    table.textureDataType 5 = .error (.missingTextureBinding 5) ∧
    ofList textures = .ok ⟨textures⟩ ∧
    textures.filter (livesIn .texture) = terrainBindings.filter (livesIn .texture) ∧
    (find? .texture 3 ⟨textures⟩).map entry = (table.find? .texture 3).map entry := by
  intro table ids textures
  have accepted : ofList terrainBindings = .ok table := rfl
  have apart : terrainBindings.Pairwise Apart := by decide
  have declared : ids ∈ all terrainBindings := mem_all_iff.mpr rfl
  have occupied : ids.entry.Occupies (0xFFFFFFFF : UInt32).toNat := by constructor <;> decide
  have perm : terrainBindings.Perm terrainBindings.reverse :=
    (List.reverse_perm terrainBindings).symm
  have alone : ofList textures = .ok ⟨textures⟩ := rfl
  have same : textures.filter (livesIn .texture) = terrainBindings.filter (livesIn .texture) := rfl
  obtain ⟨-, lookups⟩ := find?_ofList terrainBindings
  obtain ⟨exclusive, -, related⟩ := lookups table accepted
  have covered := ((exclusive apart .texture 0xFFFFFFFF).1 ids).mpr ⟨declared, rfl, occupied⟩
  exact ⟨accepted, apart, ⟨declared, rfl, occupied, covered⟩,
    ⟨perm, (exclusive apart .texture 3).2.2 _ perm⟩, rfl, alone, same,
    (related textures ⟨textures⟩ alone .texture same 3).1⟩

end BindingTable
end ShaderInterface
