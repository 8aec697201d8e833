import ShaderInterface.Proofs.Layout.Redraw
import ShaderInterface.Proofs.Layout.Visits

/-!
# Matrices as arrays of vectors

Emitting matrices as arrays of vectors gives each row or column a slot of its own. Types without
matrices stay as they are. A matrix whose vectors fit a slot does not get smaller, and then nor does
any type around it, so that a search loses no byte.
-/

namespace ShaderInterface

theorem strideOf_mono {size larger : Nat} (size_le : size ≤ larger) :
    strideOf size ≤ strideOf larger := by
  unfold strideOf slotCount slotBytes
  omega

namespace Shape

/-- The vectors that a matrix is emitted as fit a slot each. -/
def VectorsFit (shape : Shape) : Prop :=
  (shape.variableClass = .matrixRows → shape.columns ≤ 4) ∧
    (shape.variableClass = .matrixColumns → shape.rows ≤ 4)

instance (shape : Shape) : Decidable shape.VectorsFit := inferInstanceAs (Decidable (_ ∧ _))

theorem leafBytes_of_not_isMatrix {shape : Shape}
    (plain : shape.variableClass.isMatrix = false) (matricesAsVectors : Bool) (packed : Nat) :
    shape.leafBytes matricesAsVectors packed = .ok packed := by
  unfold leafBytes
  cases variableClass : shape.variableClass
  case matrixRows | matrixColumns =>
    rw [variableClass] at plain
    contradiction
  all_goals cases matricesAsVectors <;> rfl

theorem exactLeafBytes_le {shape : Shape} (fit : shape.VectorsFit) :
    shape.exactLeafBytes false ≤ shape.exactLeafBytes true := by
  unfold exactLeafBytes
  cases variableClass : shape.variableClass
  case matrixRows =>
    have narrow : shape.columns.toNat ≤ 4 := UInt32.le_iff_toNat_le.mp (fit.1 variableClass)
    have components := Nat.mul_le_mul_right shape.rows.toNat narrow
    simp only [slotBytes]
    omega
  case matrixColumns =>
    have narrow : shape.rows.toNat ≤ 4 := UInt32.le_iff_toNat_le.mp (fit.2 variableClass)
    have components := Nat.mul_le_mul_left shape.columns.toNat narrow
    simp only [slotBytes]
    omega
  all_goals exact Nat.le_refl _

theorem exactExtent_mono {size larger : Nat} (size_le : size ≤ larger) (shape : Shape) :
    shape.exactExtent size ≤ shape.exactExtent larger :=
  Nat.add_le_add (Nat.mul_le_mul_right _ (strideOf_mono size_le)) size_le

end Shape

namespace LayoutTree

variable {Label : Type} {matricesAsVectors matricesOtherwise : Bool} {tree : LayoutTree Label}

/-! ## Types without matrices -/

theorem elementSize_of_no_matrix
    (plain : ∀ node ∈ tree.nodes, node.shape.variableClass.isMatrix = false) :
    tree.elementSize matricesOtherwise = tree.elementSize matricesAsVectors := by
  induction tree using inheritance with
  | step tree induction =>
      have ends : structSize matricesOtherwise tree.members =
          structSize matricesAsVectors tree.members := by
        rw [structSize_eq, structSize_eq]
        cases found : tree.members.getLast? with
        | none => rfl
        | some last =>
            have isMember : last ∈ tree.members := List.mem_of_getLast? found
            have size_eq := induction last isMember fun node isNode =>
              plain node (mem_nodes_of_mem_members isNode isMember)
            simp only [wholeSize, size_eq]
      rw [elementSize_eq, elementSize_eq, ends]
      simp only [Shape.leafBytes_of_not_isMatrix (plain tree tree.self_mem_nodes)]

theorem packedSize_of_no_matrix
    (plain : ∀ node ∈ tree.nodes, node.shape.variableClass.isMatrix = false) (whole : Bool) :
    tree.packedSize matricesOtherwise whole = tree.packedSize matricesAsVectors whole := by
  have size_eq : tree.elementSize matricesOtherwise = tree.elementSize matricesAsVectors :=
    elementSize_of_no_matrix plain
  rw [packedSize, packedSize, wholeSize, wholeSize, size_eq]

/-- If every node has the same size either way, so has every search the same answer. -/
theorem search_congr_sizes
    (sizes : ∀ node ∈ tree.nodes,
      node.elementSize matricesOtherwise = node.elementSize matricesAsVectors)
    (base target : Nat) :
    search matricesOtherwise base target tree = search matricesAsVectors base target tree := by
  have agrees : ∀ shape : Shape, (id shape).Agrees shape := Shape.Agrees.refl
  have found := search_redraw_of_sizes agrees tree
    (fun node isNode => (congrArg _ (redraw_id node)).trans (sizes node isNode)) base target
  have location_eq : Location.redraw id id = (id : Location Label → Location Label) := by
    funext location
    rw [Location.redraw, redraw_id]
    rfl
  rw [redraw_id, location_eq, Option.map_id] at found
  rw [found]
  cases search matricesAsVectors base target tree <;> rfl

theorem search_of_no_matrix
    (plain : ∀ node ∈ tree.nodes, node.shape.variableClass.isMatrix = false)
    (base target : Nat) :
    search matricesOtherwise base target tree = search matricesAsVectors base target tree := by
  refine search_congr_sizes (fun node isNode => elementSize_of_no_matrix ?_) base target
  exact fun inner within => plain inner (mem_nodes_trans within isNode)

/-! ## Types with matrices -/

/-- Emitting matrices as arrays of vectors makes no type smaller. -/
theorem exactSize_le (fit : ∀ node ∈ tree.nodes, node.shape.VectorsFit) :
    tree.exactSize false ≤ tree.exactSize true := by
  induction tree using inheritance with
  | step tree induction =>
      rw [exactSize_eq, exactSize_eq]
      by_cases struct : tree.shape.variableClass = .struct
      · rw [if_pos struct, if_pos struct]
        rcases List.eq_nil_or_concat tree.members with split | ⟨front, last, split⟩
        · rw [split]
          exact Nat.le_refl 0
        · rw [List.concat_eq_append] at split
          have isMember : last ∈ tree.members := split ▸ List.mem_concat_self
          have size_le := induction last isMember fun node isNode =>
            fit node (mem_nodes_of_mem_members isNode isMember)
          rw [split, exactEnd_concat, exactEnd_concat]
          exact Nat.add_le_add_left (Shape.exactExtent_mono size_le last.shape) _
      · rw [if_neg struct, if_neg struct]
        exact Shape.exactLeafBytes_le (fit tree tree.self_mem_nodes)

theorem exactPackedSize_le (fit : ∀ node ∈ tree.nodes, node.shape.VectorsFit) (whole : Bool) :
    tree.exactPackedSize false whole ≤ tree.exactPackedSize true whole := by
  cases whole with
  | false => exact exactSize_le fit
  | true => exact Shape.exactExtent_mono (exactSize_le fit) tree.shape

theorem packedSize_le {whole : Bool} {size larger : Nat}
    (fit : ∀ node ∈ tree.nodes, node.shape.VectorsFit)
    (sized : tree.packedSize false whole = .ok size)
    (sizedVectors : tree.packedSize true whole = .ok larger) : size ≤ larger := by
  rw [packedSize_eq_min sized, packedSize_eq_min sizedVectors]
  have := exactPackedSize_le fit whole
  omega

theorem Measured.exists_packedSize {size stride : Nat}
    (measured : Measured matricesAsVectors tree size stride) (whole : Bool) :
    ∃ packed, tree.packedSize matricesAsVectors whole = .ok packed := by
  cases whole with
  | false => exact ⟨size, measured.size_eq⟩
  | true => exact ⟨_, measured.wholeSize_eq⟩

/-- A byte that belongs to a type still belongs to it when matrices are emitted as arrays of
vectors. -/
theorem exists_search_vectors {base target : Nat} {location : Location Label}
    (fit : ∀ node ∈ tree.nodes, node.shape.VectorsFit)
    (measured : ∀ node ∈ tree.nodes, ∃ size stride, Measured true node size stride)
    (found : search false base target tree = .ok (some location)) (target_le : target ≤ Word.last) :
    ∃ further, search true base target tree = .ok (some further) := by
  have answers : ∃ answer, search true base target tree = .ok answer :=
    exists_search measured target_le
  obtain ⟨answer, answered⟩ := answers
  obtain ⟨whole, sized, covers⟩ :=
    Probe.exists_covers_of_claims (Probe.claims_of_search found target_le)
  obtain ⟨larger, sizedVectors, claimed⟩ :=
    Probe.claims_eq_ok_iff.mp (Probe.claims_of_search answered target_le)
  have packed : tree.packedSize false true = .ok whole := sized
  have whole_le : whole ≤ larger := packedSize_le fit packed sizedVectors
  have isSome := claimed.mpr ⟨covers.1, Nat.lt_of_lt_of_le covers.2 whole_le⟩
  obtain ⟨further, rfl⟩ := Option.isSome_iff_exists.mp isSome
  exact ⟨further, answered⟩

end LayoutTree
end ShaderInterface
