import Mathlib.Data.Finset.Card
import Mathlib.Data.Finset.Lattice.Lemmas
import ShaderInterface.Declared

/-!
# Selecting declared entries

A look-up in declaration order answers with the earliest or the latest entry of a kind. Positions
tell which of two entries that is.
-/

namespace ShaderInterface

/-- In an ordered list, what a search finds comes before everything else that it accepts. -/
theorem eq_or_ordered_of_find? {Item : Type} {ordered : Item → Item → Prop}
    {accepts : Item → Bool} {items : List Item} {first other : Item}
    (sorted : items.Pairwise ordered) (found : items.find? accepts = some first)
    (isItem : other ∈ items) (accepted : accepts other) : first = other ∨ ordered first other := by
  obtain ⟨-, before, after, rfl, rejected⟩ := List.find?_eq_some_iff_append.mp found
  rw [List.pairwise_append, List.pairwise_cons] at sorted
  obtain ⟨-, ⟨later, -⟩, -⟩ := sorted
  rcases List.mem_append.mp isItem with isEarlier | isLater
  · have := rejected other isEarlier
    simp [accepted] at this
  · rcases List.mem_cons.mp isLater with rfl | isLater
    · exact .inl rfl
    · exact .inr (later other isLater)

theorem find?_filter_of_imp {Item : Type} {keeps accepts : Item → Bool}
    (kept : ∀ item, accepts item → keeps item) (items : List Item) :
    (items.filter keeps).find? accepts = items.find? accepts := by
  rw [List.find?_filter]
  refine congrArg (List.find? · items) (funext fun item => ?_)
  cases accepted : accepts item with
  | false => simp
  | true => simp [kept item accepted]

/-- A further item is a new one unless the list has it. -/
theorem card_toFinset_concat {Item : Type} [DecidableEq Item] (items : List Item) (final : Item) :
    (items ++ [final]).toFinset.card =
      if final ∈ items then items.toFinset.card else items.toFinset.card + 1 := by
  have grown : (items ++ [final]).toFinset = insert final items.toFinset := by
    rw [List.toFinset_append, Finset.union_comm]
    rfl
  simp only [grown, Finset.card_insert_eq_ite, List.mem_toFinset]

namespace Declared

variable {Entry : Type} {accepts further : Entry → Bool} {entries front back : List Entry}
  {declared other : Declared Entry}

theorem pairwise_position_all (entries : List Entry) :
    (all entries).Pairwise (·.position < ·.position) := by
  have positions : (all entries).map position = List.range' 0 entries.length := by
    rw [all, List.map_map]
    exact List.zipIdx_map_snd 0 entries
  have ordered : List.Pairwise (· < ·) ((all entries).map position) :=
    positions ▸ List.pairwise_lt_range' 1
  exact List.pairwise_map.mp ordered

theorem position_lt_length (isDeclared : declared ∈ all entries) :
    declared.position < entries.length :=
  (List.getElem?_eq_some_iff.mp (mem_all_iff.mp isDeclared)).1

/-- An entry is known by its position. -/
theorem eq_of_position_eq (isDeclared : declared ∈ all entries) (isOther : other ∈ all entries)
    (same : declared.position = other.position) : declared = other := by
  rw [mem_all_iff] at isDeclared isOther
  rw [same, isOther, Option.some.injEq] at isDeclared
  cases declared
  cases other
  simp_all

theorem exists_mem_all {entry : Entry} (isEntry : entry ∈ entries) :
    ∃ declared ∈ all entries, declared.entry = entry := by
  obtain ⟨position, found⟩ := List.mem_iff_getElem?.mp isEntry
  exact ⟨⟨position, entry⟩, mem_all_iff.mpr found, rfl⟩

/-- What holds between all entries in their order holds between entries at different positions. -/
theorem related_of_pairwise {related : Entry → Entry → Prop} (pairwise : entries.Pairwise related)
    (isDeclared : declared ∈ all entries) (isOther : other ∈ all entries)
    (before : declared.position < other.position) : related declared.entry other.entry := by
  obtain ⟨inside, found⟩ := List.getElem?_eq_some_iff.mp (mem_all_iff.mp isDeclared)
  obtain ⟨further, also⟩ := List.getElem?_eq_some_iff.mp (mem_all_iff.mp isOther)
  rw [← found, ← also]
  exact List.pairwise_iff_getElem.mp pairwise _ _ inside further before

theorem mem_all_append_left (isDeclared : declared ∈ all front) :
    declared ∈ all (front ++ back) := by
  rw [mem_all_iff] at isDeclared ⊢
  obtain ⟨inside, -⟩ := List.getElem?_eq_some_iff.mp isDeclared
  rw [List.getElem?_append_left inside, isDeclared]

/-- All but the final entry are those that another one follows. -/
theorem mem_all_dropLast_iff :
    declared ∈ all entries.dropLast ↔
      declared ∈ all entries ∧ declared.position + 1 < entries.length := by
  rw [mem_all_iff, mem_all_iff, List.getElem?_dropLast]
  by_cases followed : declared.position + 1 < entries.length
  · simp [followed, Nat.lt_sub_of_add_lt followed]
  · have final : ¬declared.position < entries.length - 1 := by omega
    simp [followed, final]

/-- The earliest entry that satisfies `accepts`. -/
structure IsFirst (accepts : Entry → Bool) (entries : List Entry) (declared : Declared Entry) :
    Prop where
  /-- The entry is declared at its position. -/
  isDeclared : declared ∈ all entries
  /-- The entry is accepted. -/
  accepted : accepts declared.entry
  /-- No accepted entry comes before it. -/
  earliest : ∀ other ∈ all entries, accepts other.entry → declared.position ≤ other.position

/-- The latest entry that satisfies `accepts`. -/
structure IsLast (accepts : Entry → Bool) (entries : List Entry) (declared : Declared Entry) :
    Prop where
  /-- The entry is declared at its position. -/
  isDeclared : declared ∈ all entries
  /-- The entry is accepted. -/
  accepted : accepts declared.entry
  /-- No accepted entry comes after it. -/
  latest : ∀ other ∈ all entries, accepts other.entry → other.position ≤ declared.position

theorem IsFirst.unique (first : IsFirst accepts entries declared)
    (second : IsFirst accepts entries other) : declared = other :=
  eq_of_position_eq first.isDeclared second.isDeclared <|
    Nat.le_antisymm (first.earliest other second.isDeclared second.accepted)
      (second.earliest declared first.isDeclared first.accepted)

theorem IsLast.unique (first : IsLast accepts entries declared)
    (second : IsLast accepts entries other) : declared = other :=
  eq_of_position_eq first.isDeclared second.isDeclared <|
    Nat.le_antisymm (second.latest declared first.isDeclared first.accepted)
      (first.latest other second.isDeclared second.accepted)

theorem isFirst_of_first? (found : first? accepts entries = some declared) :
    IsFirst accepts entries declared := by
  have accepted := List.find?_some found
  refine ⟨List.mem_of_find?_eq_some found, accepted, ?_⟩
  intro other isOther accepted
  rcases eq_or_ordered_of_find? (pairwise_position_all entries) found isOther accepted with
    rfl | later
  · exact Nat.le_refl _
  · exact Nat.le_of_lt later

theorem isLast_of_last? (found : last? accepts entries = some declared) :
    IsLast accepts entries declared := by
  have accepted := List.find?_some found
  refine ⟨List.mem_reverse.mp (List.mem_of_find?_eq_some found), accepted, ?_⟩
  intro other isOther accepted
  have ordered := List.pairwise_reverse.mpr (pairwise_position_all entries)
  rcases eq_or_ordered_of_find? ordered found (List.mem_reverse.mpr isOther) accepted with
    rfl | earlier
  · exact Nat.le_refl _
  · exact Nat.le_of_lt earlier

theorem first?_eq_none_iff :
    first? accepts entries = none ↔ ∀ entry ∈ entries, ¬accepts entry := by
  rw [← Option.map_eq_none_iff (f := entry), map_entry_first?, List.find?_eq_none]

theorem last?_eq_none_iff :
    last? accepts entries = none ↔ ∀ entry ∈ entries, ¬accepts entry := by
  rw [← Option.map_eq_none_iff (f := entry), map_entry_last?, List.find?_eq_none]
  simp only [List.mem_reverse]

/-- A look-up in declaration order finds the earliest accepted entry. -/
theorem first?_eq_some_iff :
    first? accepts entries = some declared ↔ IsFirst accepts entries declared := by
  refine ⟨isFirst_of_first?, fun isFirst => ?_⟩
  cases found : first? accepts entries with
  | none =>
      have rejected := first?_eq_none_iff.mp found _ (entry_mem isFirst.isDeclared)
      exact absurd isFirst.accepted rejected
  | some other => rw [(isFirst_of_first? found).unique isFirst]

/-- A look-up against declaration order finds the latest accepted entry. -/
theorem last?_eq_some_iff :
    last? accepts entries = some declared ↔ IsLast accepts entries declared := by
  refine ⟨isLast_of_last?, fun isLast => ?_⟩
  cases found : last? accepts entries with
  | none =>
      have rejected := last?_eq_none_iff.mp found _ (entry_mem isLast.isDeclared)
      exact absurd isLast.accepted rejected
  | some other => rw [(isLast_of_last? found).unique isLast]

theorem all_concat (front : List Entry) (final : Entry) :
    all (front ++ [final]) = all front ++ [⟨front.length, final⟩] := by
  simp [all, List.zipIdx_append]

/-- What is declared last is found before everything else, if it is accepted at all. -/
theorem last?_concat (accepts : Entry → Bool) (front : List Entry) (final : Entry) :
    last? accepts (front ++ [final]) =
      if accepts final then some ⟨front.length, final⟩ else last? accepts front := by
  rw [last?, all_concat, List.reverse_append, List.reverse_singleton, List.singleton_append,
    List.find?_cons]
  cases accepts final <;> rfl

/-- A search among rewritten entries finds the rewritten form of what it finds among the entries. -/
theorem first?_map {Rewritten : Type} (rewrite : Entry → Rewritten) (accepts : Rewritten → Bool)
    (entries : List Entry) :
    first? accepts (entries.map rewrite) =
      (first? (fun entry => accepts (rewrite entry)) entries).map fun found =>
        ⟨found.position, rewrite found.entry⟩ := by
  have rewritten : all (entries.map rewrite) =
      (all entries).map fun declared => ⟨declared.position, rewrite declared.entry⟩ := by
    simp [all, List.zipIdx_map, Function.comp_def]
  rw [first?, rewritten, List.find?_map]
  rfl

/-- An entry behind which another one is accepted is not the last. -/
theorem entry_last?_of_shadowed {shadowed : Entry}
    (later : accepts shadowed → ∃ entry ∈ back, accepts entry) :
    (last? accepts (front ++ shadowed :: back)).map entry =
      (last? accepts (front ++ back)).map entry := by
  rw [map_entry_last?, map_entry_last?]
  simp only [List.reverse_append, List.reverse_cons, List.append_assoc, List.find?_append]
  cases found : back.reverse.find? accepts with
  | some entry => rfl
  | none =>
      have rejected : ¬accepts shadowed := fun accepted => by
        obtain ⟨entry, isLater, passes⟩ := later accepted
        exact List.find?_eq_none.mp found entry (List.mem_reverse.mpr isLater) passes
      rw [List.find?_cons_of_neg rejected, List.find?_nil, Option.none_or]

section Candidates

variable {keeps : Entry → Bool} {left right : List Entry}

/-- The earliest accepted entry is the same in lists with the same candidates. -/
theorem entry_first?_congr (kept : ∀ entry, accepts entry → keeps entry)
    (same : left.filter keeps = right.filter keeps) :
    (first? accepts left).map entry = (first? accepts right).map entry := by
  rw [map_entry_first?, map_entry_first?, ← find?_filter_of_imp kept left, same,
    find?_filter_of_imp kept right]

theorem entry_last?_congr (same : left.filter accepts = right.filter accepts) :
    (last? accepts left).map entry = (last? accepts right).map entry := by
  have reversed := congrArg List.reverse same
  rw [← List.filter_reverse, ← List.filter_reverse] at reversed
  have kept : ∀ entry, accepts entry → accepts entry := fun _ accepted => accepted
  rw [map_entry_last?, map_entry_last?, ← find?_filter_of_imp kept left.reverse, reversed,
    find?_filter_of_imp kept right.reverse]

end Candidates

/-- Whatever is declared later, the earliest entry stays the earliest. -/
theorem IsFirst.append (isFirst : IsFirst accepts front declared) (back : List Entry) :
    IsFirst accepts (front ++ back) declared := by
  refine ⟨mem_all_append_left isFirst.isDeclared, isFirst.accepted, ?_⟩
  intro other isOther accepted
  by_cases inFront : other.position < front.length
  · refine isFirst.earliest other (mem_all_iff.mpr ?_) accepted
    rw [← mem_all_iff.mp isOther, List.getElem?_append_left inFront]
  · have := position_lt_length isFirst.isDeclared
    omega

/-- Something is found no later than at an entry that is accepted. -/
theorem exists_first?_of_mem (isDeclared : declared ∈ all entries)
    (accepted : accepts declared.entry) :
    ∃ found, first? accepts entries = some found ∧ found.position ≤ declared.position := by
  cases answer : first? accepts entries with
  | none => exact absurd accepted (first?_eq_none_iff.mp answer _ (entry_mem isDeclared))
  | some found =>
      exact ⟨found, rfl, (isFirst_of_first? answer).earliest declared isDeclared accepted⟩

/-- A weaker test is passed no later than a stronger one. -/
theorem exists_first?_of_imp (weaker : ∀ entry ∈ entries, accepts entry → further entry)
    (found : first? accepts entries = some declared) :
    ∃ before, first? further entries = some before ∧ before.position ≤ declared.position := by
  have isFirst := isFirst_of_first? found
  exact exists_first?_of_mem isFirst.isDeclared
    (weaker _ (entry_mem isFirst.isDeclared) isFirst.accepted)

theorem IsFirst.congr (same : ∀ entry ∈ entries, accepts entry = further entry)
    (isFirst : IsFirst accepts entries declared) : IsFirst further entries declared := by
  refine ⟨isFirst.isDeclared, ?_, fun other isOther accepted => ?_⟩
  · rw [← same _ (entry_mem isFirst.isDeclared)]
    exact isFirst.accepted
  · rw [← same _ (entry_mem isOther)] at accepted
    exact isFirst.earliest other isOther accepted

theorem first?_congr (same : ∀ entry ∈ entries, accepts entry = further entry) :
    first? accepts entries = first? further entries := by
  refine Option.ext fun declared => ?_
  rw [first?_eq_some_iff, first?_eq_some_iff]
  exact ⟨.congr same, .congr fun entry isEntry => (same entry isEntry).symm⟩

/-- The entry of two that is declared first. -/
def earlier (left right : Declared Entry) : Declared Entry :=
  if left.position ≤ right.position then left else right

/-- The earlier of the first hits of two tests is the first hit of either test. -/
theorem IsFirst.earlier (isFirst : IsFirst accepts entries declared)
    (further_isFirst : IsFirst further entries other) :
    IsFirst (fun entry => accepts entry || further entry) entries
      (declared.earlier other) := by
  rw [Declared.earlier]
  split
  · refine ⟨isFirst.isDeclared, by simp [isFirst.accepted], fun candidate isCandidate passes => ?_⟩
    rcases (Bool.or_eq_true _ _).mp passes with accepted | accepted
    · exact isFirst.earliest candidate isCandidate accepted
    · have := further_isFirst.earliest candidate isCandidate accepted
      omega
  · refine ⟨further_isFirst.isDeclared, by simp [further_isFirst.accepted],
      fun candidate isCandidate passes => ?_⟩
    rcases (Bool.or_eq_true _ _).mp passes with accepted | accepted
    · have := isFirst.earliest candidate isCandidate accepted
      omega
    · exact further_isFirst.earliest candidate isCandidate accepted

/-- Of two tests, the one with the earlier hit decides what passes either of them first. -/
theorem first?_or (accepts further : Entry → Bool) (entries : List Entry) :
    first? (fun entry => accepts entry || further entry) entries =
      (first? accepts entries).merge earlier (first? further entries) := by
  cases left : first? accepts entries with
  | none =>
      rw [Option.merge_none_left]
      exact first?_congr fun entry isEntry => by simp [first?_eq_none_iff.mp left entry isEntry]
  | some declared =>
      cases right : first? further entries with
      | none =>
          rw [Option.merge_none_right, ← left]
          exact first?_congr fun entry isEntry => by
            simp [first?_eq_none_iff.mp right entry isEntry]
      | some other =>
          exact first?_eq_some_iff.mpr
            ((isFirst_of_first? left).earlier (isFirst_of_first? right))

section Choices

variable {Choice : Type} {choices : List Choice} {passes : Choice → Entry → Bool}

/-- What passes one of several tests first is the first hit of the test that hits first. -/
theorem first?_eq_some_iff_choices
    (some_choice : ∀ entry, accepts entry ↔ ∃ choice ∈ choices, passes choice entry) :
    first? accepts entries = some declared ↔
      (∃ choice ∈ choices, first? (passes choice) entries = some declared) ∧
        ∀ choice ∈ choices, ∀ other, first? (passes choice) entries = some other →
          declared.position ≤ other.position := by
  constructor
  · intro found
    have isFirst := isFirst_of_first? found
    obtain ⟨choice, isChoice, passed⟩ := (some_choice _).mp isFirst.accepted
    refine ⟨⟨choice, isChoice, first?_eq_some_iff.mpr ⟨isFirst.isDeclared, passed, ?_⟩⟩, ?_⟩
    · intro other isOther passed
      exact isFirst.earliest other isOther ((some_choice _).mpr ⟨choice, isChoice, passed⟩)
    · intro choice isChoice other found
      have isOther := isFirst_of_first? found
      exact isFirst.earliest other isOther.isDeclared
        ((some_choice _).mpr ⟨choice, isChoice, isOther.accepted⟩)
  · rintro ⟨⟨choice, isChoice, found⟩, earliest⟩
    have isFirst := isFirst_of_first? found
    refine first?_eq_some_iff.mpr ⟨isFirst.isDeclared,
      (some_choice _).mpr ⟨choice, isChoice, isFirst.accepted⟩, ?_⟩
    intro other isOther accepted
    obtain ⟨choice, isChoice, passed⟩ := (some_choice _).mp accepted
    obtain ⟨hit, found, not_after⟩ := exists_first?_of_mem isOther passed
    exact Nat.le_trans (earliest choice isChoice hit found) not_after

theorem first?_eq_none_iff_choices
    (some_choice : ∀ entry, accepts entry ↔ ∃ choice ∈ choices, passes choice entry) :
    first? accepts entries = none ↔
      ∀ choice ∈ choices, first? (passes choice) entries = none := by
  simp only [first?_eq_none_iff, some_choice, not_exists, not_and]
  exact ⟨fun rejected choice isChoice entry isEntry => rejected entry isEntry choice isChoice,
    fun rejected entry isEntry choice isChoice => rejected choice isChoice entry isEntry⟩

end Choices

end Declared
end ShaderInterface
