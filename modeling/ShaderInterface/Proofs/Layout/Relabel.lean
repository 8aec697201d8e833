import ShaderInterface.Proofs.Layout.Redraw

/-!
# Relabelled types

The same type with other labels. Sizes and searches read the shapes of a type and never its labels,
so a search in a relabelled type finds the relabelled location.
-/

namespace ShaderInterface
namespace LayoutTree

variable {Label Other : Type}

mutual

/-- The same type with every label changed. -/
def relabel (change : Label → Other) : LayoutTree Label → LayoutTree Other
  | node shape label members => node shape (change label) (relabelAll change members)

/-- The same types with every label changed. -/
def relabelAll (change : Label → Other) : List (LayoutTree Label) → List (LayoutTree Other)
  | [] => []
  | tree :: trees => tree.relabel change :: relabelAll change trees

end

variable {change : Label → Other} {matricesAsVectors : Bool}

theorem relabelAll_eq_map (change : Label → Other) (trees : List (LayoutTree Label)) :
    relabelAll change trees = trees.map (relabel change) := by
  induction trees with
  | nil => rfl
  | cons tree trees induction => rw [relabelAll, induction, List.map_cons]

/-- A relabelled type is redrawn with the same shapes. -/
theorem relabel_eq_redraw (change : Label → Other) (tree : LayoutTree Label) :
    tree.relabel change = tree.redraw id change := by
  induction tree using inheritance with
  | step tree induction =>
      cases tree with
      | node shape label members =>
          rw [members_node] at induction
          rw [relabel, relabelAll_eq_map, redraw, redrawAll_eq_map, List.map_congr_left induction]
          rfl

@[simp] theorem shape_relabel (change : Label → Other) (tree : LayoutTree Label) :
    (tree.relabel change).shape = tree.shape := by
  cases tree
  rfl

@[simp] theorem label_relabel (change : Label → Other) (tree : LayoutTree Label) :
    (tree.relabel change).label = change tree.label := by
  cases tree
  rfl

/-- The nodes of a relabelled type are the relabelled nodes. -/
theorem nodes_relabel (change : Label → Other) (tree : LayoutTree Label) :
    (tree.relabel change).nodes = tree.nodes.map (relabel change) := by
  rw [relabel_eq_redraw, nodes_redraw]
  exact List.map_congr_left fun node _ => (relabel_eq_redraw change node).symm

@[simp] theorem nodeCount_relabel (change : Label → Other) (tree : LayoutTree Label) :
    (tree.relabel change).nodeCount = tree.nodeCount := by
  rw [nodeCount, nodes_relabel, List.length_map, nodeCount]

theorem wholeSize_congr {tree : LayoutTree Label} {other : LayoutTree Other}
    (shape_eq : other.shape = tree.shape)
    (size_eq : other.elementSize matricesAsVectors = tree.elementSize matricesAsVectors) :
    other.wholeSize matricesAsVectors = tree.wholeSize matricesAsVectors :=
  wholeSize_congr_agrees (shape_eq ▸ .refl _) size_eq

@[simp] theorem elementSize_relabel (change : Label → Other) (tree : LayoutTree Label) :
    (tree.relabel change).elementSize matricesAsVectors =
      tree.elementSize matricesAsVectors := by
  rw [relabel_eq_redraw]
  exact elementSize_redraw Shape.Agrees.refl tree

@[simp] theorem wholeSize_relabel (change : Label → Other) (tree : LayoutTree Label) :
    (tree.relabel change).wholeSize matricesAsVectors = tree.wholeSize matricesAsVectors :=
  wholeSize_congr (shape_relabel change tree) (elementSize_relabel change tree)

theorem measured_relabel_iff {tree : LayoutTree Label} {size stride : Nat} :
    Measured matricesAsVectors (tree.relabel change) size stride ↔
      Measured matricesAsVectors tree size stride := by
  constructor
  · rintro ⟨size_eq, stride_eq⟩
    exact ⟨elementSize_relabel change tree ▸ size_eq, stride_eq⟩
  · rintro ⟨size_eq, stride_eq⟩
    exact ⟨(elementSize_relabel change tree).trans size_eq, stride_eq⟩

end LayoutTree

/-- The same location with the leaf relabelled. -/
def Location.relabel {Label Other : Type} (change : Label → Other) (location : Location Label) :
    Location Other :=
  { leaf := location.leaf.relabel change
    isArray := location.isArray
    indices := location.indices
    rebase := location.rebase }

namespace LayoutTree

variable {Label Other : Type} {matricesAsVectors : Bool}

/-- A search in a relabelled type finds the relabelled location or stops at the same overflow. -/
theorem search_relabel (change : Label → Other) (base target : Nat) (tree : LayoutTree Label) :
    search matricesAsVectors base target (tree.relabel change) =
      (search matricesAsVectors base target tree).map
        (Option.map (Location.relabel change)) := by
  have same : Location.redraw id change = Location.relabel change := by
    funext location
    rw [Location.redraw, Location.relabel, relabel_eq_redraw]
  have agrees : ∀ shape : Shape, (id shape).Agrees shape := Shape.Agrees.refl
  rw [relabel_eq_redraw, search_redraw agrees, same]

end LayoutTree
end ShaderInterface
