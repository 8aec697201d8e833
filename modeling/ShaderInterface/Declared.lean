/-!
# Declaration order

Entries of a declaration list together with their positions. Look-ups report both, because the
position tells apart entries that read the same.
-/

namespace ShaderInterface

/-- An entry of a declaration list. -/
structure Declared (Entry : Type) where
  /-- Number of entries declared before it. -/
  position : Nat
  /-- The declared entry. -/
  entry : Entry
deriving DecidableEq, Repr

namespace Declared

variable {Entry : Type}

/-- All entries with their positions. -/
def all (entries : List Entry) : List (Declared Entry) :=
  entries.zipIdx.map fun (entry, position) => ⟨position, entry⟩

/-- The earliest entry that satisfies `accepts`. -/
def first? (accepts : Entry → Bool) (entries : List Entry) : Option (Declared Entry) :=
  (all entries).find? (accepts ·.entry)

/-- The latest entry that satisfies `accepts`. -/
def last? (accepts : Entry → Bool) (entries : List Entry) : Option (Declared Entry) :=
  (all entries).reverse.find? (accepts ·.entry)

/-- The entry at a position. -/
def at? (entries : List Entry) (position : Nat) : Option (Declared Entry) :=
  entries[position]?.map (⟨position, ·⟩)

@[simp] theorem map_entry_all (entries : List Entry) : (all entries).map entry = entries := by
  simp [all, Function.comp_def]

theorem mem_all_iff {entries : List Entry} {declared : Declared Entry} :
    declared ∈ all entries ↔ entries[declared.position]? = some declared.entry := by
  obtain ⟨position, entry⟩ := declared
  simp only [all, List.mem_map, Prod.exists, List.mem_zipIdx_iff_getElem?, mk.injEq]
  constructor
  · rintro ⟨_, _, found, rfl, rfl⟩
    exact found
  · intro found
    exact ⟨_, _, found, rfl, rfl⟩

theorem entry_mem {entries : List Entry} {declared : Declared Entry}
    (isDeclared : declared ∈ all entries) : declared.entry ∈ entries :=
  List.mem_of_getElem? (mem_all_iff.mp isDeclared)

theorem map_entry_first? (accepts : Entry → Bool) (entries : List Entry) :
    (first? accepts entries).map entry = entries.find? accepts := by
  conv => rhs; rw [← map_entry_all entries, List.find?_map]
  rfl

theorem map_entry_last? (accepts : Entry → Bool) (entries : List Entry) :
    (last? accepts entries).map entry = entries.reverse.find? accepts := by
  conv => rhs; rw [← map_entry_all entries, ← List.map_reverse, List.find?_map]
  rfl

theorem at?_eq_some_iff {entries : List Entry} {position : Nat} {declared : Declared Entry} :
    at? entries position = some declared ↔
      declared ∈ all entries ∧ declared.position = position := by
  rw [mem_all_iff]
  cases declared
  simp only [at?, Option.map_eq_some_iff, mk.injEq]
  constructor
  · rintro ⟨entry, found, rfl, rfl⟩
    exact ⟨found, rfl⟩
  · rintro ⟨found, rfl⟩
    exact ⟨_, found, rfl, rfl⟩

end Declared
end ShaderInterface
