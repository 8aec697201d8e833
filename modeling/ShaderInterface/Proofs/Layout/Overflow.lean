import ShaderInterface.Proofs.Layout.ExactSize
import ShaderInterface.Proofs.Layout.Relabel

/-!
# Sizes that overflow

The size of a type depends on the chain from the type to its last member, the last member of that
one, and so on. It overflows exactly if a product at a type of the chain does; otherwise it is the
exact size, cut off at the largest word.
-/

namespace ShaderInterface

/-- A computation overflows in a product if the condition holds, and otherwise has a value. -/
def OverflowsExactly {Value : Type} (condition : Prop)
    (computed : Except ArithmeticError Value) : Prop :=
  ∀ failure, computed = .error failure ↔ condition ∧ failure = .productOverflow

namespace OverflowsExactly

variable {First Value : Type} {condition further : Prop} {first : Except ArithmeticError First}
  {computed : Except ArithmeticError Value}

theorem of_ok (value : Value) :
    OverflowsExactly False (.ok value : Except ArithmeticError Value) :=
  fun _ => ⟨nofun, fun ⟨impossible, _⟩ => impossible.elim⟩

theorem of_error : OverflowsExactly True
    (.error .productOverflow : Except ArithmeticError Value) := by
  intro failure
  rw [Except.error.injEq, eq_comm, true_and]

theorem congr (exactly : OverflowsExactly condition computed) (same : condition ↔ further) :
    OverflowsExactly further computed :=
  propext same ▸ exactly

theorem error_of (exactly : OverflowsExactly condition computed) (holds : condition) :
    computed = .error .productOverflow :=
  (exactly _).mpr ⟨holds, rfl⟩

theorem exists_ok (exactly : OverflowsExactly condition computed) (absent : ¬ condition) :
    ∃ value, computed = .ok value := by
  cases result : computed with
  | error failure => exact absurd ((exactly failure).mp result).1 absent
  | ok value => exact ⟨value, rfl⟩

theorem not_of_ok {value : Value}
    (exactly : OverflowsExactly condition (.ok value : Except ArithmeticError Value)) :
    ¬ condition :=
  fun holds => nomatch exactly.error_of holds

/-- A computation in two parts overflows if one of the parts does. -/
theorem bind (exactly : OverflowsExactly condition first)
    {next : First → Except ArithmeticError Value}
    (second : ∀ middle, first = .ok middle → OverflowsExactly further (next middle)) :
    OverflowsExactly (condition ∨ further) (first >>= next) := by
  cases first with
  | error failure =>
      obtain ⟨holds, rfl⟩ := (exactly failure).mp rfl
      exact of_error.congr (iff_of_true trivial (Or.inl holds))
  | ok middle => exact (second middle rfl).congr (or_iff_right exactly.not_of_ok).symm

theorem map (exactly : OverflowsExactly condition first) (convert : First → Value) :
    OverflowsExactly condition (first.map convert) := by
  cases first with
  | error failure =>
      obtain ⟨holds, rfl⟩ := (exactly failure).mp rfl
      exact of_error.congr (iff_of_true trivial holds)
  | ok middle => exact (of_ok _).congr (iff_of_false id exactly.not_of_ok)

end OverflowsExactly

theorem overflowsExactly_multiply (left right : Nat) :
    OverflowsExactly (Word.last < left * right) (Word.multiply left right) :=
  fun _ => Word.multiply_eq_error_iff

theorem overflowsExactly_roundToSlot (size : Nat) :
    OverflowsExactly (0xFFFFFFF0 < size) (roundToSlot size) := by
  refine (overflowsExactly_multiply _ _).congr ?_
  unfold slotCount slotBytes Word.last
  omega

namespace Shape

/-- The rows or columns of a matrix that is emitted as an array of vectors fill more slots than a
word can count the bytes of. -/
def VectorsOverflow (matricesAsVectors : Bool) (shape : Shape) : Prop :=
  matricesAsVectors ∧
    (shape.variableClass = .matrixRows ∧ Word.last < 16 * shape.rows.toNat ∨
      shape.variableClass = .matrixColumns ∧ Word.last < 16 * shape.columns.toNat)

instance (matricesAsVectors : Bool) (shape : Shape) :
    Decidable (shape.VectorsOverflow matricesAsVectors) :=
  inferInstanceAs (Decidable (_ ∧ _))

theorem overflowsExactly_componentBytes (shape : Shape) :
    OverflowsExactly (Word.last < shape.columns.toNat * shape.rows.toNat * 4)
      shape.componentBytes := by
  have quadrupled : ∀ product,
      Word.multiply shape.columns.toNat shape.rows.toNat = .ok product →
        OverflowsExactly (Word.last < shape.columns.toNat * shape.rows.toNat * 4)
          (Word.multiply product 4) := by
    intro product multiplied
    obtain ⟨-, rfl⟩ := Word.multiply_eq_ok_iff.mp multiplied
    exact overflowsExactly_multiply _ 4
  refine ((overflowsExactly_multiply _ _).bind quadrupled).congr ?_
  omega

theorem overflowsExactly_leafBytes (matricesAsVectors : Bool) (packed : Nat) (shape : Shape) :
    OverflowsExactly (shape.VectorsOverflow matricesAsVectors)
      (shape.leafBytes matricesAsVectors packed) := by
  unfold VectorsOverflow leafBytes
  cases matricesAsVectors with
  | false => exact (OverflowsExactly.of_ok packed).congr (by simp)
  | true =>
      cases variableClass : shape.variableClass
      case matrixRows | matrixColumns =>
        exact (overflowsExactly_multiply _ slotBytes).congr (by simp [slotBytes, Nat.mul_comm])
      all_goals exact (OverflowsExactly.of_ok packed).congr (by simp)

theorem overflowsExactly_arrayBytes (size : Nat) (shape : Shape) :
    OverflowsExactly (shape.isArray ∧ 0xFFFFFFF0 < size) (shape.arrayBytes size) := by
  unfold arrayBytes
  cases shape.isArray with
  | false => exact (OverflowsExactly.of_ok size).congr (by simp)
  | true =>
      refine ((overflowsExactly_roundToSlot size).bind fun stride _ =>
        OverflowsExactly.of_ok (shape.arrayExtent size stride)).congr ?_
      simp

end Shape

namespace LayoutTree

variable {Label : Type} {matricesAsVectors : Bool}

mutual

/-- The type, its last member if it is a struct, the last member of that one, and so on. -/
def lastChain : LayoutTree Label → List (LayoutTree Label)
  | node shape label members =>
      node shape label members ::
        if shape.variableClass = .struct then lastChainAmong members else []

/-- The chain that starts from the last one of the members. -/
def lastChainAmong : List (LayoutTree Label) → List (LayoutTree Label)
  | [] => []
  | [last] => last.lastChain
  | _ :: next :: rest => lastChainAmong (next :: rest)

end

theorem lastChainAmong_eq (members : List (LayoutTree Label)) :
    lastChainAmong members = members.getLast?.elim [] lastChain := by
  induction members with
  | nil => rw [lastChainAmong, List.getLast?_nil, Option.elim_none]
  | cons first rest induction =>
      cases rest with
      | nil => rw [lastChainAmong, List.getLast?_singleton, Option.elim_some]
      | cons next rest => rw [lastChainAmong, induction, List.getLast?_cons_cons]

theorem lastChain_eq (tree : LayoutTree Label) :
    tree.lastChain = tree ::
      if tree.shape.variableClass = .struct then tree.lastMember?.elim [] lastChain else [] := by
  cases tree
  rw [lastChain, lastChainAmong_eq]
  rfl

/-- A product in the size of the type itself, of an element or of all of them, does not fit a
word. -/
def OwnOverflow (matricesAsVectors whole : Bool) (tree : LayoutTree Label) : Prop :=
  Word.last < tree.shape.columns.toNat * tree.shape.rows.toNat * 4 ∨
    tree.shape.VectorsOverflow matricesAsVectors ∨
      whole ∧ tree.shape.isArray ∧ 0xFFFFFFF0 < min (tree.exactSize matricesAsVectors) Word.last

/-- A product in the size of the type or in the whole size of a later type of its chain does not
fit a word. -/
def Overflows (matricesAsVectors whole : Bool) (tree : LayoutTree Label) : Prop :=
  tree.OwnOverflow matricesAsVectors whole ∨
    ∃ node ∈ tree.lastChain.tail, node.OwnOverflow matricesAsVectors true

/-- Exact bytes of a type, of all its elements or of one. -/
def exactPackedSize (matricesAsVectors whole : Bool) (tree : LayoutTree Label) : Nat :=
  if whole then tree.shape.exactExtent (tree.exactSize matricesAsVectors)
  else tree.exactSize matricesAsVectors

instance (whole : Bool) (tree : LayoutTree Label) :
    Decidable (tree.OwnOverflow matricesAsVectors whole) :=
  inferInstanceAs (Decidable (_ ∨ _))

instance (whole : Bool) (tree : LayoutTree Label) :
    Decidable (tree.Overflows matricesAsVectors whole) :=
  inferInstanceAs (Decidable (_ ∨ _))

theorem overflows_whole_iff {tree : LayoutTree Label} :
    tree.Overflows matricesAsVectors true ↔ tree.Overflows matricesAsVectors false ∨
      tree.shape.isArray ∧ 0xFFFFFFF0 < min (tree.exactSize matricesAsVectors) Word.last := by
  have own : tree.OwnOverflow matricesAsVectors true ↔
      tree.OwnOverflow matricesAsVectors false ∨
        tree.shape.isArray ∧ 0xFFFFFFF0 < min (tree.exactSize matricesAsVectors) Word.last := by
    simp [OwnOverflow, or_assoc]
  rw [Overflows, Overflows, own, or_right_comm]

theorem overflows_whole_iff_lastChain {tree : LayoutTree Label} :
    tree.Overflows matricesAsVectors true ↔
      ∃ node ∈ tree.lastChain, node.OwnOverflow matricesAsVectors true := by
  rw [Overflows, lastChain_eq, List.tail_cons, List.exists_mem_cons_iff]

theorem overflows_element_iff {tree : LayoutTree Label} :
    tree.Overflows matricesAsVectors false ↔
      Word.last < tree.shape.columns.toNat * tree.shape.rows.toNat * 4 ∨
        tree.shape.VectorsOverflow matricesAsVectors ∨
          tree.shape.variableClass = .struct ∧
            ∃ last, tree.lastMember? = some last ∧ last.Overflows matricesAsVectors true := by
  simp only [overflows_whole_iff_lastChain]
  rw [Overflows, OwnOverflow, lastChain_eq, List.tail_cons]
  by_cases struct : tree.shape.variableClass = .struct
  · cases tree.lastMember? <;> simp [struct, or_assoc]
  · simp [struct]

/-- Whether a size overflows is decided along the chain of last members. -/
theorem overflowsExactly_wholeSize_of {tree : LayoutTree Label}
    (element : OverflowsExactly (tree.Overflows matricesAsVectors false)
      (tree.elementSize matricesAsVectors)) :
    OverflowsExactly (tree.Overflows matricesAsVectors true)
      (tree.wholeSize matricesAsVectors) := by
  refine (element.bind fun size sized => ?_).congr overflows_whole_iff.symm
  rw [← elementSize_eq_min sized]
  exact tree.shape.overflowsExactly_arrayBytes size

theorem overflowsExactly_structSize {members : List (LayoutTree Label)}
    (whole : ∀ member ∈ members, OverflowsExactly (member.Overflows matricesAsVectors true)
      (member.wholeSize matricesAsVectors)) :
    OverflowsExactly (∃ last, members.getLast? = some last ∧ last.Overflows matricesAsVectors true)
      (structSize matricesAsVectors members) := by
  rcases List.eq_nil_or_concat members with rfl | ⟨front, last, rfl⟩
  · rw [structSize]
    exact (OverflowsExactly.of_ok 0).congr (by simp)
  · rw [List.concat_eq_append, structSize_concat]
    refine ((whole last ?_).map _).congr ?_
    · simp
    · simp

theorem overflowsExactly_elementSize (matricesAsVectors : Bool) (tree : LayoutTree Label) :
    OverflowsExactly (tree.Overflows matricesAsVectors false)
      (tree.elementSize matricesAsVectors) := by
  induction tree using inheritance with
  | step tree induction =>
      rw [elementSize_eq]
      refine ((tree.shape.overflowsExactly_componentBytes).bind fun packed _ => ?_).congr
        overflows_element_iff.symm
      by_cases struct : tree.shape.variableClass = .struct
      · rw [if_pos struct]
        refine (overflowsExactly_structSize fun member isMember =>
          overflowsExactly_wholeSize_of (induction member isMember)).congr ?_
        simp [Shape.VectorsOverflow, struct, lastMember?]
      · rw [if_neg struct]
        refine (tree.shape.overflowsExactly_leafBytes matricesAsVectors packed).congr ?_
        simp [struct]

theorem overflowsExactly_packedSize (matricesAsVectors whole : Bool) (tree : LayoutTree Label) :
    OverflowsExactly (tree.Overflows matricesAsVectors whole)
      (tree.packedSize matricesAsVectors whole) := by
  have element := overflowsExactly_elementSize matricesAsVectors tree
  cases whole with
  | false => exact element
  | true => exact overflowsExactly_wholeSize_of element

/-- A packed size that can be computed is the exact one, cut off at the largest word. -/
theorem packedSize_eq_min {whole : Bool} {tree : LayoutTree Label} {size : Nat}
    (sized : tree.packedSize matricesAsVectors whole = .ok size) :
    size = min (tree.exactPackedSize matricesAsVectors whole) Word.last := by
  cases whole with
  | false => exact elementSize_eq_min sized
  | true => exact wholeSize_eq_min (fun _ => elementSize_eq_min) sized

/-! ## Types beside the chain -/

theorem lastChainAmong_concat (front : List (LayoutTree Label)) (last : LayoutTree Label) :
    lastChainAmong (front ++ [last]) = last.lastChain := by
  rw [lastChainAmong_eq, List.getLast?_concat, Option.elim_some]

theorem lastChain_ne_nil (tree : LayoutTree Label) : tree.lastChain ≠ [] := by
  rw [lastChain_eq]
  exact List.cons_ne_nil _ _

theorem shape_eq_of_lastChain {tree other : LayoutTree Label}
    (same : other.lastChain.map shape = tree.lastChain.map shape) : other.shape = tree.shape := by
  rw [lastChain_eq, lastChain_eq] at same
  exact (List.cons.inj same).1

theorem structSize_congr_lastChain {members others : List (LayoutTree Label)}
    (element : ∀ member ∈ members, ∀ other : LayoutTree Label,
      other.lastChain.map shape = member.lastChain.map shape →
        other.elementSize matricesAsVectors = member.elementSize matricesAsVectors)
    (same : (lastChainAmong others).map shape = (lastChainAmong members).map shape) :
    structSize matricesAsVectors others = structSize matricesAsVectors members := by
  rcases List.eq_nil_or_concat members with rfl | ⟨front, last, rfl⟩ <;>
    rcases List.eq_nil_or_concat others with rfl | ⟨otherFront, otherLast, rfl⟩
  · rfl
  · rw [List.concat_eq_append, lastChainAmong_concat] at same
    exact absurd (List.map_eq_nil_iff.mp same) otherLast.lastChain_ne_nil
  · rw [List.concat_eq_append, lastChainAmong_concat] at same
    exact absurd (List.map_eq_nil_iff.mp same.symm) last.lastChain_ne_nil
  · simp only [List.concat_eq_append] at same element ⊢
    rw [lastChainAmong_concat, lastChainAmong_concat] at same
    have shape_eq := shape_eq_of_lastChain same
    rw [structSize_concat, structSize_concat, shape_eq,
      wholeSize_congr shape_eq (element last List.mem_concat_self otherLast same)]

/-- The size of an element depends on the shapes along the chain of last members only. -/
theorem elementSize_congr_lastChain {tree other : LayoutTree Label}
    (same : other.lastChain.map shape = tree.lastChain.map shape) :
    other.elementSize matricesAsVectors = tree.elementSize matricesAsVectors := by
  induction tree using inheritance generalizing other with
  | step tree induction =>
      have shape_eq := shape_eq_of_lastChain same
      rw [elementSize_eq, elementSize_eq, shape_eq]
      by_cases struct : tree.shape.variableClass = .struct
      · have rest := congrArg List.tail same
        simp only [lastChain_eq, shape_eq, if_pos struct, List.map_cons, List.tail_cons,
          lastMember?, ← lastChainAmong_eq] at rest
        rw [structSize_congr_lastChain (fun member isMember _ => induction member isMember) rest]
      · simp only [if_neg struct]

/-- A packed size overflows exactly where the chain of last members says, and otherwise it is the
exact size cut off at the largest word; types beside the chain play no part in it. -/
theorem packedSize_eq_saturated (matricesAsVectors whole : Bool) (tree : LayoutTree Label) :
    (tree.packedSize matricesAsVectors whole =
      if tree.Overflows matricesAsVectors whole then .error .productOverflow
      else .ok (min (tree.exactPackedSize matricesAsVectors whole) Word.last)) ∧
    ∀ other : LayoutTree Label, other.lastChain.map shape = tree.lastChain.map shape →
      other.packedSize matricesAsVectors whole = tree.packedSize matricesAsVectors whole := by
  have exactly := overflowsExactly_packedSize matricesAsVectors whole tree
  constructor
  · by_cases overflows : tree.Overflows matricesAsVectors whole
    · rw [if_pos overflows, exactly.error_of overflows]
    · obtain ⟨size, sized⟩ := exactly.exists_ok overflows
      rw [if_neg overflows, sized, packedSize_eq_min sized]
  · intro other same
    have size_eq : other.elementSize matricesAsVectors = tree.elementSize matricesAsVectors :=
      elementSize_congr_lastChain same
    rw [packedSize, packedSize, wholeSize_congr (shape_eq_of_lastChain same) size_eq, size_eq]

/-- The size of this struct is cut off, and the array of two such structs overflows, whatever else
the struct holds. -/
theorem packedSize_eq_saturated_cutOff :
    let rows : LayoutTree Unit := .node ⟨.vector, 1, 4, 0x10000001, 0⟩ () []
    let block : LayoutTree Unit := .node ⟨.struct, 1, 0, 2, 0⟩ () [rows]
    let wider : LayoutTree Unit :=
      .node ⟨.struct, 1, 0, 2, 0⟩ () [.node ⟨.matrixRows, 4, 4, 0, 0⟩ () [], rows]
    wider.lastChain.map shape = block.lastChain.map shape ∧
      ¬ block.Overflows false false ∧ block.Overflows false true ∧
      block.exactPackedSize false false = 0x100000010 ∧
      block.packedSize false false = .ok Word.last ∧
      block.packedSize false true = .error .productOverflow ∧
      wider.packedSize false true = .error .productOverflow := by
  intro rows block wider
  have same : wider.lastChain.map shape = block.lastChain.map shape := rfl
  have fits : ¬ block.Overflows false false := by decide
  have overflows : block.Overflows false true := by decide
  obtain ⟨element, -⟩ := packedSize_eq_saturated false false block
  obtain ⟨all, beside⟩ := packedSize_eq_saturated false true block
  have exact_eq : block.exactPackedSize false false = 0x100000010 := by cbv
  rw [if_neg fits, exact_eq] at element
  rw [if_pos overflows] at all
  exact ⟨same, fits, overflows, exact_eq, element, all, (beside wider same).trans all⟩

end LayoutTree
end ShaderInterface
