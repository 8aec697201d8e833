import ShaderInterface.Proofs.Layout.Overflow
import ShaderInterface.Proofs.Layout.Trail

/-!
# Types that a search visits

A search visits the type that it starts from and, in each struct that it enters, the members up to
the first one that claims the folded byte. It overflows exactly if it visits a type whose size
cannot be rounded to slots; no other operation of it can fail.
-/

namespace ShaderInterface

open LayoutTree

variable {Label : Type} {matricesAsVectors : Bool}

namespace LayoutTree

/-- The size of an element overflows, or it is too large to be rounded to slots. -/
def Unroundable (matricesAsVectors : Bool) (tree : LayoutTree Label) : Prop :=
  ∀ size, tree.elementSize matricesAsVectors = .ok size → 0xFFFFFFF0 < size

instance (tree : LayoutTree Label) : Decidable (tree.Unroundable matricesAsVectors) :=
  inferInstanceAs (Decidable (∀ size, _ = Except.ok size → _))

theorem unroundable_iff {tree : LayoutTree Label} :
    tree.Unroundable matricesAsVectors ↔
      ¬ ∃ size stride, Measured matricesAsVectors tree size stride := by
  rw [exists_measured_iff]
  simp only [Unroundable, not_exists, not_and, Nat.not_le]
  rfl

/-- A search cannot enter a type whose size cannot be rounded. -/
theorem search_of_unroundable {base target : Nat} {tree : LayoutTree Label}
    (unroundable : tree.Unroundable matricesAsVectors) :
    search matricesAsVectors base target tree = .error .productOverflow := by
  rw [search_eq]
  cases sized : tree.elementSize matricesAsVectors with
  | error failure =>
      obtain ⟨-, rfl⟩ := (overflowsExactly_elementSize matricesAsVectors tree failure).mp sized
      rfl
  | ok size =>
      rw [ok_bind, (overflowsExactly_roundToSlot size).error_of (unroundable size sized)]
      rfl

end LayoutTree

namespace Probe

/-- The members before this one are asked for the byte and do not claim it. -/
def Asked (matricesAsVectors : Bool) (base target : Nat) (members : List (LayoutTree Label))
    (member : LayoutTree Label) : Prop :=
  ∃ before after, members = before ++ member :: after ∧
    ∀ earlier ∈ before, (below base target earlier).claims matricesAsVectors = .ok false

theorem Asked.isMember {base target : Nat} {members : List (LayoutTree Label)}
    {member : LayoutTree Label} (asked : Asked matricesAsVectors base target members member) :
    member ∈ members := by
  obtain ⟨before, after, rfl, -⟩ := asked
  exact List.mem_append_cons_self

theorem asked_cons_iff {base target : Nat} {first member : LayoutTree Label}
    {rest : List (LayoutTree Label)} :
    Asked matricesAsVectors base target (first :: rest) member ↔ member = first ∨
      (below base target first).claims matricesAsVectors = .ok false ∧
        Asked matricesAsVectors base target rest member := by
  constructor
  · rintro ⟨before, after, split, turnedDown⟩
    cases before with
    | nil => exact Or.inl (List.cons.inj split).1.symm
    | cons earlier before =>
        obtain ⟨rfl, rest_eq⟩ := List.cons.inj split
        obtain ⟨asked, turnedDown⟩ := List.forall_mem_cons.mp turnedDown
        exact Or.inr ⟨asked, before, after, rest_eq, turnedDown⟩
  · rintro (rfl | ⟨asked, before, after, rfl, turnedDown⟩)
    · exact ⟨[], rest, rfl, nofun⟩
    · exact ⟨first :: before, after, rfl, List.forall_mem_cons.mpr ⟨asked, turnedDown⟩⟩

/-- Only one member is asked and claims the byte: the first that does. -/
theorem Asked.unique {base target : Nat} {members : List (LayoutTree Label)}
    {first second : LayoutTree Label} (asked : Asked matricesAsVectors base target members first)
    (claimed : (below base target first).claims matricesAsVectors = .ok true)
    (otherAsked : Asked matricesAsVectors base target members second)
    (otherClaimed : (below base target second).claims matricesAsVectors = .ok true) :
    first = second := by
  induction members with
  | nil => exact absurd asked.isMember List.not_mem_nil
  | cons head rest induction =>
      rcases asked_cons_iff.mp asked with rfl | ⟨turnedDown, asked⟩
      · rcases asked_cons_iff.mp otherAsked with rfl | ⟨turnedDown, -⟩
        · rfl
        · cases claimed.symm.trans turnedDown
      · rcases asked_cons_iff.mp otherAsked with rfl | ⟨-, otherAsked⟩
        · cases otherClaimed.symm.trans turnedDown
        · exact induction asked otherAsked

/-- The second probe is made on the way of a search that starts with the first one. -/
inductive Visits (matricesAsVectors : Bool) : Probe Label → Probe Label → Prop
  /-- The type that the search starts from is visited. -/
  | start {probe : Probe Label} : Visits matricesAsVectors probe probe
  /-- In a struct that claims the byte, the members are asked for the folded byte. -/
  | member {outer inner : Probe Label} {folded : Nat} {member : LayoutTree Label}
      (struct : outer.type.shape.variableClass = .struct)
      (claimed : outer.claims matricesAsVectors = .ok true)
      (folds : outer.folded matricesAsVectors = .ok folded)
      (asked : Asked matricesAsVectors outer.start folded outer.type.members member)
      (visits : Visits matricesAsVectors (below outer.start folded member) inner) :
      Visits matricesAsVectors outer inner

theorem Visits.mem_nodes {outer inner : Probe Label}
    (visits : Visits matricesAsVectors outer inner) : inner.type ∈ outer.type.nodes := by
  induction visits with
  | start => exact self_mem_nodes _
  | member _ _ _ asked _ induction => exact mem_nodes_of_mem_members induction asked.isMember

/-- The byte asked for never moves up on the way of a search. -/
theorem Visits.target_le {outer inner : Probe Label}
    (visits : Visits matricesAsVectors outer inner) : inner.target ≤ outer.target := by
  induction visits with
  | start => exact Nat.le_refl _
  | member _ claimed folds _ _ induction =>
      obtain ⟨size, stride, measured, rfl⟩ := measured_of_folded folds
      exact Nat.le_trans induction (folded_le (covers_of_claims measured claimed) stride)

/-- A search that does not enter its first type visits no other. -/
theorem Visits.eq_of_not_entered {outer inner : Probe Label}
    (visits : Visits matricesAsVectors outer inner)
    (stays : outer.type.shape.variableClass = .struct →
      outer.claims matricesAsVectors ≠ .ok true) : inner = outer := by
  cases visits with
  | start => rfl
  | member struct claimed => exact absurd claimed (stays struct)

/-- After its first type a search visits what the searches in the members asked do. -/
theorem Visits.eq_or_asked {outer inner : Probe Label} {folded : Nat}
    (visits : Visits matricesAsVectors outer inner)
    (folds : outer.folded matricesAsVectors = .ok folded) :
    inner = outer ∨ ∃ member,
      Asked matricesAsVectors outer.start folded outer.type.members member ∧
        Visits matricesAsVectors (Probe.below outer.start folded member) inner := by
  cases visits with
  | start => exact Or.inl rfl
  | member _ _ otherFolds asked visits =>
      obtain rfl := Except.ok.inj (otherFolds.symm.trans folds)
      exact Or.inr ⟨_, asked, visits⟩

/-- At a type that claims the byte, no divisor is zero, and the folded byte lies between the start
of the type and the byte. -/
theorem arithmetic_of_claims {probe : Probe Label} {size stride : Nat}
    (measured : Measured matricesAsVectors probe.type size stride)
    (claimed : probe.claims matricesAsVectors = .ok true) :
    size ≠ 0 ∧ stride ≠ 0 ∧ probe.start ≤ probe.target ∧
      probe.start + (probe.target - probe.start) % stride ≤ probe.target := by
  have covers := covers_of_claims measured claimed
  have size_pos := measured.size_pos covers
  have size_le := measured.size_le_stride
  exact ⟨by omega, by omega, covers.1, folded_le covers stride⟩

/-- A search among members overflows if it does at a member that is asked. -/
theorem overflowsExactly_searchMembers {base target : Nat} {members : List (LayoutTree Label)}
    {fails : LayoutTree Label → Prop} (target_le : target ≤ Word.last)
    (exactly : ∀ member ∈ members,
      OverflowsExactly (fails member) (search matricesAsVectors base target member)) :
    OverflowsExactly
      (∃ member, Asked matricesAsVectors base target members member ∧ fails member)
      (searchMembers matricesAsVectors base target members) := by
  induction members with
  | nil => exact (OverflowsExactly.of_ok none).congr (by simp [Asked])
  | cons first rest induction =>
      obtain ⟨exactlyFirst, exactlyRest⟩ := List.forall_mem_cons.mp exactly
      rw [searchMembers_cons]
      refine (exactlyFirst.bind fun found answered => (?next : OverflowsExactly
        ((below base target first).claims matricesAsVectors = .ok false ∧
          ∃ member, Asked matricesAsVectors base target rest member ∧ fails member) _)).congr ?_
      case next =>
        have claimed := claims_of_search answered target_le
        rw [claimed]
        cases found with
        | some location => exact (OverflowsExactly.of_ok _).congr (by simp)
        | none => exact (induction exactlyRest).congr (by simp)
      simp only [asked_cons_iff, or_and_right, exists_or, exists_eq_left, and_assoc,
        exists_and_left]

/-- A search overflows exactly if it visits a type whose size cannot be rounded. -/
theorem overflowsExactly_search {base target : Nat} (tree : LayoutTree Label)
    (target_le : target ≤ Word.last) :
    OverflowsExactly
      (∃ probe, Visits matricesAsVectors (below base target tree) probe ∧
        probe.type.Unroundable matricesAsVectors)
      (search matricesAsVectors base target tree) := by
  induction tree using inheritance generalizing base target with
  | step tree induction =>
      by_cases unroundable : tree.Unroundable matricesAsVectors
      · rw [search_of_unroundable unroundable]
        exact OverflowsExactly.of_error.congr (iff_of_true trivial ⟨_, .start, unroundable⟩)
      -- From here on the start is no obstacle, so an overflow can only come from a member.
      obtain ⟨size, stride, measured⟩ := not_not.mp (unroundable_iff.not.mp unroundable)
      by_cases covers : Covers (Word.saturatingAdd base tree.shape.offset.toNat)
          (tree.shape.arrayExtent size stride) target
      · by_cases struct : tree.shape.variableClass = .struct
        · have folded_le := Nat.le_trans (folded_le covers stride) target_le
          have claimed : (below base target tree).claims matricesAsVectors = .ok true :=
            claims_eq_ok_iff.mpr ⟨_, measured.wholeSize_eq, iff_of_true rfl covers⟩
          have folds : (below base target tree).folded matricesAsVectors = .ok _ :=
            folded_of_measured measured
          rw [search_struct measured rfl covers struct target_le]
          refine ((overflowsExactly_searchMembers folded_le fun member isMember =>
            induction member isMember folded_le).map _).congr ?_
          constructor
          · rintro ⟨member, asked, probe, visits, bad⟩
            exact ⟨probe, .member struct claimed folds asked visits, bad⟩
          · rintro ⟨probe, visits, bad⟩
            rcases visits.eq_or_asked folds with rfl | ⟨member, asked, visits⟩
            · exact absurd bad unroundable
            · exact ⟨member, asked, probe, visits, bad⟩
        · rw [search_leaf measured covers struct]
          refine (OverflowsExactly.of_ok _).congr (iff_of_false id ?_)
          rintro ⟨probe, visits, bad⟩
          obtain rfl := visits.eq_of_not_entered fun entered => absurd entered struct
          exact unroundable bad
      · rw [search_outside measured covers]
        refine (OverflowsExactly.of_ok _).congr (iff_of_false id ?_)
        rintro ⟨probe, visits, bad⟩
        obtain rfl := visits.eq_of_not_entered fun _ claimed =>
          covers (covers_of_claims measured claimed)
        exact unroundable bad

end Probe

/-- A search that overflows comes to a type whose size cannot be rounded. -/
theorem LayoutTree.exists_unroundable_of_search {base target : Nat} {tree : LayoutTree Label}
    {failure : ArithmeticError}
    (stopped : search matricesAsVectors base target tree = .error failure)
    (target_le : target ≤ Word.last) : ∃ node ∈ tree.nodes, node.Unroundable matricesAsVectors := by
  obtain ⟨⟨probe, visits, unroundable⟩, -⟩ :=
    (Probe.overflowsExactly_search tree target_le failure).mp stopped
  exact ⟨probe.type, visits.mem_nodes, unroundable⟩

/-- A search in a type whose nodes can all be measured has an answer. -/
theorem LayoutTree.exists_search {base target : Nat} {tree : LayoutTree Label}
    (measured : ∀ node ∈ tree.nodes, ∃ size stride,
      Measured matricesAsVectors node size stride) (target_le : target ≤ Word.last) :
    ∃ answer, search matricesAsVectors base target tree = .ok answer := by
  cases searched : search matricesAsVectors base target tree with
  | ok answer => exact ⟨answer, rfl⟩
  | error failure =>
      obtain ⟨node, isNode, unroundable⟩ := exists_unroundable_of_search searched target_le
      exact absurd (measured node isNode) (unroundable_iff.mp unroundable)

end ShaderInterface
