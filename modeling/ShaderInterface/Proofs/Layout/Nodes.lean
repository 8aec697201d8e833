import ShaderInterface.Layout.Tree

/-!
# Nodes of a type

Induction over declared types, and the order between a type and the nodes inside it.
-/

namespace ShaderInterface
namespace LayoutTree

variable {Label : Type}

/-- What every type inherits from its members holds of all types. -/
@[elab_as_elim]
theorem inheritance {motive : LayoutTree Label → Prop}
    (step : ∀ tree : LayoutTree Label, (∀ member ∈ tree.members, motive member) → motive tree)
    (tree : LayoutTree Label) : motive tree := by
  refine @LayoutTree.rec Label motive (fun members => ∀ member ∈ members, motive member)
    (fun shape label members => step (.node shape label members)) ?_ ?_ tree
  · exact fun _ absent => absurd absent List.not_mem_nil
  · intro first rest firstHolds restHold member isMember
    rcases List.mem_cons.mp isMember with rfl | later
    · exact firstHolds
    · exact restHold member later

theorem mem_nodes_iff {node tree : LayoutTree Label} :
    node ∈ tree.nodes ↔ node = tree ∨ ∃ member ∈ tree.members, node ∈ member.nodes := by
  rw [nodes_eq_cons, List.mem_cons, forestNodes_eq_flatMap, List.mem_flatMap]

theorem nodeCount_pos (tree : LayoutTree Label) : 0 < tree.nodeCount := by
  rw [nodeCount, nodes_eq_cons]
  exact Nat.succ_pos _

theorem self_mem_nodes (tree : LayoutTree Label) : tree ∈ tree.nodes :=
  mem_nodes_iff.mpr (Or.inl rfl)

theorem mem_nodes_of_mem_members {node member tree : LayoutTree Label}
    (below : node ∈ member.nodes) (isMember : member ∈ tree.members) : node ∈ tree.nodes :=
  mem_nodes_iff.mpr (Or.inr ⟨member, isMember, below⟩)

/-- What holds of a type and passes from every node to its members holds of all nodes. -/
theorem forall_mem_nodes {motive : LayoutTree Label → Prop} {tree : LayoutTree Label}
    (root : motive tree)
    (step : ∀ owner ∈ tree.nodes, motive owner → ∀ member ∈ owner.members, motive member) :
    ∀ node ∈ tree.nodes, motive node := by
  induction tree using inheritance with
  | step tree induction =>
      intro node isNode
      rcases mem_nodes_iff.mp isNode with rfl | ⟨member, isMember, below⟩
      · exact root
      · apply induction member isMember (step tree tree.self_mem_nodes root member isMember) _ node
          below
        exact fun owner isOwner => step owner (mem_nodes_of_mem_members isOwner isMember)

/-- A node other than the type itself is a member of a node. -/
theorem exists_owner_of_mem_nodes {tree : LayoutTree Label} :
    ∀ node ∈ tree.nodes, node = tree ∨ ∃ owner ∈ tree.nodes, node ∈ owner.members := by
  apply forall_mem_nodes
  · exact Or.inl rfl
  · intro owner isOwner _ member isMember
    exact Or.inr ⟨owner, isOwner, isMember⟩

/-- A node inside a node of a type is a node of that type. -/
theorem mem_nodes_trans {inner outer tree : LayoutTree Label}
    (within : inner ∈ outer.nodes) (below : outer ∈ tree.nodes) : inner ∈ tree.nodes := by
  induction tree using inheritance with
  | step tree induction =>
      rcases mem_nodes_iff.mp below with rfl | ⟨member, isMember, deeper⟩
      · exact within
      · exact mem_nodes_of_mem_members (induction member isMember deeper) isMember

end LayoutTree
end ShaderInterface
