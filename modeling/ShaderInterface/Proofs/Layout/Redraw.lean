import Mathlib.Data.List.Basic
import ShaderInterface.Proofs.Layout.Nodes
import ShaderInterface.Proofs.Layout.Step

/-!
# Redrawn types

The same type with other labels, and with array lengths 0 and 1 written in another way. Sizes and
searches do not read labels, and they do not tell the two array lengths apart, so a search in a
redrawn type finds the redrawn location.
-/

namespace ShaderInterface

namespace Shape

/-- The shapes have the same numbers, but an array length of 0 stands for 1. -/
structure Agrees (shape other : Shape) : Prop where
  /-- The kind of type. -/
  variableClass_eq : shape.variableClass = other.variableClass
  /-- The number of rows. -/
  rows_eq : shape.rows = other.rows
  /-- The number of columns. -/
  columns_eq : shape.columns = other.columns
  /-- The number of further elements. -/
  elements_eq : shape.elements.toNat - 1 = other.elements.toNat - 1
  /-- The offset in the enclosing struct. -/
  offset_eq : shape.offset = other.offset

namespace Agrees

variable {shape other : Shape}

protected theorem refl (shape : Shape) : shape.Agrees shape := ⟨rfl, rfl, rfl, rfl, rfl⟩

theorem isArray_eq (agrees : shape.Agrees other) : shape.isArray = other.isArray := by
  have same := agrees.elements_eq
  rw [Bool.eq_iff_iff, isArray_iff, isArray_iff]
  omega

theorem arrayExtent_eq (agrees : shape.Agrees other) (size stride : Nat) :
    shape.arrayExtent size stride = other.arrayExtent size stride := by
  rw [arrayExtent, arrayExtent, agrees.elements_eq]

theorem arrayBytes_eq (agrees : shape.Agrees other) (size : Nat) :
    shape.arrayBytes size = other.arrayBytes size := by
  simp only [arrayBytes, agrees.isArray_eq, agrees.arrayExtent_eq]

theorem componentBytes_eq (agrees : shape.Agrees other) :
    shape.componentBytes = other.componentBytes := by
  rw [componentBytes, componentBytes, agrees.rows_eq, agrees.columns_eq]

theorem leafBytes_eq (agrees : shape.Agrees other) (matricesAsVectors : Bool) (packed : Nat) :
    shape.leafBytes matricesAsVectors packed = other.leafBytes matricesAsVectors packed := by
  unfold leafBytes
  rw [agrees.variableClass_eq, agrees.rows_eq, agrees.columns_eq]

theorem distance?_eq (agrees : shape.Agrees other) (size stride start target : Nat) :
    shape.distance? size stride start target = other.distance? size stride start target := by
  rw [Shape.distance?_eq, Shape.distance?_eq, agrees.arrayExtent_eq]

theorem structIndices_eq (agrees : shape.Agrees other) (size distance : Nat) :
    shape.structIndices size distance = other.structIndices size distance := by
  rw [structIndices, structIndices, agrees.isArray_eq]

end Agrees
end Shape

namespace LayoutTree

variable {Label Other : Type}

mutual

/-- The same type with every shape and label changed. -/
def redraw (reshape : Shape → Shape) (change : Label → Other) :
    LayoutTree Label → LayoutTree Other
  | node shape label members =>
      node (reshape shape) (change label) (redrawAll reshape change members)

/-- The same types with every shape and label changed. -/
def redrawAll (reshape : Shape → Shape) (change : Label → Other) :
    List (LayoutTree Label) → List (LayoutTree Other)
  | [] => []
  | tree :: trees => tree.redraw reshape change :: redrawAll reshape change trees

end

section Views

variable (reshape : Shape → Shape) (change : Label → Other)

theorem redrawAll_eq_map (trees : List (LayoutTree Label)) :
    redrawAll reshape change trees = trees.map (redraw reshape change) := by
  induction trees with
  | nil => rfl
  | cons tree trees induction => rw [redrawAll, induction, List.map_cons]

@[simp] theorem shape_redraw (tree : LayoutTree Label) :
    (tree.redraw reshape change).shape = reshape tree.shape := by
  cases tree
  rfl

@[simp] theorem members_redraw (tree : LayoutTree Label) :
    (tree.redraw reshape change).members = tree.members.map (redraw reshape change) := by
  cases tree
  rw [redraw, redrawAll_eq_map]
  rfl

/-- The nodes of a redrawn type are the redrawn nodes. -/
theorem nodes_redraw (tree : LayoutTree Label) :
    (tree.redraw reshape change).nodes = tree.nodes.map (redraw reshape change) := by
  induction tree using inheritance with
  | step tree induction =>
      have below : tree.members.flatMap (fun member => (member.redraw reshape change).nodes) =
          tree.members.flatMap fun member => member.nodes.map (redraw reshape change) :=
        List.flatMap_congr induction
      rw [nodes_eq_cons, nodes_eq_cons, forestNodes_eq_flatMap, forestNodes_eq_flatMap,
        members_redraw, List.flatMap_map, List.map_cons, List.map_flatMap, below]

theorem redraw_id (tree : LayoutTree Label) : tree.redraw id id = tree := by
  induction tree using inheritance with
  | step tree induction =>
      cases tree with
      | node shape label members =>
          rw [members_node] at induction
          rw [redraw, redrawAll_eq_map, List.map_congr_left induction, List.map_id']
          rfl

/-- Redrawing twice is redrawing once. -/
theorem redraw_redraw {Third : Type} (furtherReshape : Shape → Shape)
    (furtherChange : Other → Third) (tree : LayoutTree Label) :
    (tree.redraw reshape change).redraw furtherReshape furtherChange =
      tree.redraw (furtherReshape ∘ reshape) (furtherChange ∘ change) := by
  induction tree using inheritance with
  | step tree induction =>
      cases tree with
      | node shape label members =>
          rw [members_node] at induction
          rw [redraw, redraw, redraw, redrawAll_eq_map, redrawAll_eq_map, redrawAll_eq_map,
            List.map_map, ← List.map_congr_left induction]
          rfl

end Views

/-! ## Sizes -/

section Sizes

variable {matricesAsVectors : Bool} {reshape : Shape → Shape} {change : Label → Other}

theorem wholeSize_congr_agrees {tree : LayoutTree Label} {other : LayoutTree Other}
    (agrees : other.shape.Agrees tree.shape)
    (size_eq : other.elementSize matricesAsVectors = tree.elementSize matricesAsVectors) :
    other.wholeSize matricesAsVectors = tree.wholeSize matricesAsVectors := by
  rw [wholeSize, wholeSize, size_eq]
  exact bind_congr agrees.arrayBytes_eq

theorem elementSize_redraw (agrees : ∀ shape, (reshape shape).Agrees shape)
    (tree : LayoutTree Label) :
    (tree.redraw reshape change).elementSize matricesAsVectors =
      tree.elementSize matricesAsVectors := by
  induction tree using inheritance with
  | step tree induction =>
      have ends : structSize matricesAsVectors (tree.redraw reshape change).members =
          structSize matricesAsVectors tree.members := by
        rw [structSize_eq, structSize_eq, members_redraw, List.getLast?_map]
        cases found : tree.members.getLast? with
        | none => rfl
        | some last =>
            have isMember : last ∈ tree.members := List.mem_of_getLast? found
            have last_agrees : (last.redraw reshape change).shape.Agrees last.shape :=
              shape_redraw reshape change last ▸ agrees last.shape
            simp only [Option.map_some]
            rw [wholeSize_congr_agrees last_agrees (induction last isMember),
              last_agrees.offset_eq]
      rw [elementSize_eq, elementSize_eq, shape_redraw, ends, (agrees tree.shape).componentBytes_eq,
        (agrees tree.shape).variableClass_eq]
      simp only [(agrees tree.shape).leafBytes_eq]

theorem wholeSize_redraw (agrees : ∀ shape, (reshape shape).Agrees shape)
    (tree : LayoutTree Label) :
    (tree.redraw reshape change).wholeSize matricesAsVectors =
      tree.wholeSize matricesAsVectors :=
  wholeSize_congr_agrees (shape_redraw reshape change tree ▸ agrees tree.shape)
    (elementSize_redraw agrees tree)

end Sizes

end LayoutTree

/-! ## Searches -/

/-- The same location with the leaf redrawn. -/
def Location.redraw {Label Other : Type} (reshape : Shape → Shape) (change : Label → Other)
    (location : Location Label) : Location Other :=
  { leaf := location.leaf.redraw reshape change
    isArray := location.isArray
    indices := location.indices
    rebase := location.rebase }

namespace LayoutTree

variable {Label Other : Type} {reshape : Shape → Shape} {change : Label → Other}
  {matricesAsVectors otherwise : Bool}

theorem leafLocation_redraw (agrees : ∀ shape, (reshape shape).Agrees shape)
    (start distance : Nat) (tree : LayoutTree Label) :
    (tree.redraw reshape change).leafLocation start distance =
      (tree.leafLocation start distance).redraw reshape change := by
  unfold leafLocation
  rw [shape_redraw, (agrees tree.shape).variableClass_eq, (agrees tree.shape).isArray_eq]
  split <;> (try split) <;> rfl

theorem enclose_redraw (outer : List Nat) (inner : Option (Location Label))
    (tree : LayoutTree Label) :
    (tree.redraw reshape change).enclose outer (inner.map (Location.redraw reshape change)) =
      (tree.enclose outer inner).redraw reshape change := by
  cases inner <;> rfl

theorem searchMembers_redraw {base target : Nat} {members : List (LayoutTree Label)}
    (same : ∀ member ∈ members, search otherwise base target (member.redraw reshape change) =
      (search matricesAsVectors base target member).map
        (Option.map (Location.redraw reshape change))) :
    searchMembers otherwise base target (members.map (redraw reshape change)) =
      (searchMembers matricesAsVectors base target members).map
        (Option.map (Location.redraw reshape change)) := by
  induction members with
  | nil => rfl
  | cons member rest induction =>
      obtain ⟨first, later⟩ := List.forall_mem_cons.mp same
      rw [List.map_cons, searchMembers_cons, searchMembers_cons, first, induction later]
      cases search matricesAsVectors base target member with
      | error failure => rfl
      | ok found => cases found <;> rfl

/-- If every node keeps its size, a search in the redrawn type finds the redrawn location or stops
at the same overflow, even if matrices are laid out otherwise. -/
theorem search_redraw_of_sizes (agrees : ∀ shape, (reshape shape).Agrees shape)
    (tree : LayoutTree Label)
    (sizes : ∀ node ∈ tree.nodes,
      (node.redraw reshape change).elementSize otherwise = node.elementSize matricesAsVectors)
    (base target : Nat) :
    search otherwise base target (tree.redraw reshape change) =
      (search matricesAsVectors base target tree).map
        (Option.map (Location.redraw reshape change)) := by
  induction tree using inheritance generalizing base target with
  | step tree induction =>
      have below (base target : Nat) := searchMembers_redraw fun member isMember =>
        induction member isMember
          (fun node isNode => sizes node (mem_nodes_of_mem_members isNode isMember)) base target
      have agreed := agrees tree.shape
      rw [search_eq, search_eq, sizes tree tree.self_mem_nodes, shape_redraw, members_redraw]
      simp only [map_bind_eq, agreed.distance?_eq, agreed.offset_eq, agreed.variableClass_eq,
        agreed.structIndices_eq]
      refine bind_congr fun size => bind_congr fun stride => bind_congr fun found => ?_
      cases found with
      | none => rfl
      | some distance =>
          by_cases struct : tree.shape.variableClass = .struct
          · simp only [if_pos struct, map_bind_eq]
            refine bind_congr fun outer => bind_congr fun rest => bind_congr fun folded => ?_
            rw [below]
            cases searchMembers matricesAsVectors _ folded tree.members with
            | error failure => rfl
            | ok inner =>
                change Except.ok (some ((tree.redraw reshape change).enclose outer _)) = _
                rw [enclose_redraw]
                rfl
          · simp only [if_neg struct, leafLocation_redraw agrees]
            rfl

/-- A search in a redrawn type finds the redrawn location or stops at the same overflow. -/
theorem search_redraw (agrees : ∀ shape, (reshape shape).Agrees shape) (base target : Nat)
    (tree : LayoutTree Label) :
    search matricesAsVectors base target (tree.redraw reshape change) =
      (search matricesAsVectors base target tree).map
        (Option.map (Location.redraw reshape change)) :=
  search_redraw_of_sizes agrees tree (fun node _ => elementSize_redraw agrees node) base target

end LayoutTree
end ShaderInterface
