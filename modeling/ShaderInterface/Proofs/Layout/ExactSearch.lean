import ShaderInterface.Proofs.Layout.ExactSize
import ShaderInterface.Proofs.Layout.Step

/-!
# Exact searches

The search for the type at a byte over the natural numbers. Below the largest word, a search in
words that ends without an overflow gives the exact answer: a start that is cut off lies past the
byte, an extent that is cut off still covers it, and a size that is cut off cannot be rounded.
-/

namespace ShaderInterface
namespace LayoutTree

variable {Label : Type}

mutual

/-- The exact location of byte `target` in a type whose enclosing struct starts at byte `base`. -/
def exactSearch (matricesAsVectors : Bool) (base target : Nat) :
    LayoutTree Label → Option (Location Label)
  | node shape label members =>
      let tree := node shape label members
      let size := tree.exactSize matricesAsVectors
      let start := base + shape.offset.toNat
      let distance := target - start
      if Covers start (shape.exactExtent size) target then
        if shape.variableClass = .struct then
          let folded := start + distance % strideOf size
          some (tree.enclose (shape.structLevel size distance)
            (exactSearchMembers matricesAsVectors start folded members))
        else
          some (tree.leafLocation start distance)
      else
        none

/-- The exact location of byte `target` in the first member that covers it. -/
def exactSearchMembers (matricesAsVectors : Bool) (base target : Nat) :
    List (LayoutTree Label) → Option (Location Label)
  | [] => none
  | member :: rest =>
      (exactSearch matricesAsVectors base target member).or
        (exactSearchMembers matricesAsVectors base target rest)

end

variable {matricesAsVectors : Bool} {base target : Nat}

theorem exactSearch_eq (matricesAsVectors : Bool) (base target : Nat)
    (tree : LayoutTree Label) :
    tree.exactSearch matricesAsVectors base target =
      let size := tree.exactSize matricesAsVectors
      let start := base + tree.shape.offset.toNat
      if Covers start (tree.shape.exactExtent size) target then
        if tree.shape.variableClass = .struct then
          some (tree.enclose (tree.shape.structLevel size (target - start))
            (exactSearchMembers matricesAsVectors start
              (start + (target - start) % strideOf size) tree.members))
        else
          some (tree.leafLocation start (target - start))
      else
        none := by
  cases tree
  rw [exactSearch]
  rfl

/-- Below the largest word, cutting off the start and the extent of a type does not change
whether a byte is covered. -/
theorem covers_saturated_iff {offset extent : Nat} (below : target < Word.last) :
    Covers (Word.saturatingAdd base offset) (min extent Word.last) target ↔
      Covers (base + offset) extent target := by
  unfold Covers Word.saturatingAdd
  omega

theorem saturatingAdd_of_covers {offset extent : Nat} (below : target < Word.last)
    (covers : Covers (Word.saturatingAdd base offset) extent target) :
    Word.saturatingAdd base offset = base + offset := by
  have reached := covers.1
  unfold Word.saturatingAdd at reached ⊢
  omega

theorem exactSearchMembers_of_searchMembers {members : List (LayoutTree Label)}
    (exact : ∀ member ∈ members, ∀ answer,
      search matricesAsVectors base target member = .ok answer →
        member.exactSearch matricesAsVectors base target = answer)
    {answer : Option (Location Label)}
    (found : searchMembers matricesAsVectors base target members = .ok answer) :
    exactSearchMembers matricesAsVectors base target members = answer := by
  induction members with
  | nil =>
      rw [searchMembers] at found
      rw [exactSearchMembers]
      exact Except.ok.inj found
  | cons member rest induction =>
      obtain ⟨exactFirst, exactRest⟩ := List.forall_mem_cons.mp exact
      rw [searchMembers_cons] at found
      obtain ⟨first, asked, next⟩ := bind_eq_ok_iff.mp found
      rw [exactSearchMembers, exactFirst first asked]
      cases first with
      | some location => exact Except.ok.inj next
      | none => exact induction exactRest next

/-- A search that ends without an overflow gives the exact answer, for every byte below the
largest word. -/
theorem exactSearch_of_search {tree : LayoutTree Label} {answer : Option (Location Label)}
    (found : search matricesAsVectors base target tree = .ok answer)
    (below : target < Word.last) : tree.exactSearch matricesAsVectors base target = answer := by
  induction tree using inheritance generalizing base target answer with
  | step tree induction =>
      obtain ⟨size, stride, measured, ends⟩ := search_cases found (Nat.le_of_lt below)
      simp only [measured.arrayExtent_eq, covers_saturated_iff below] at ends
      have exact_start : Covers (base + tree.shape.offset.toNat)
          (tree.shape.exactExtent (tree.exactSize matricesAsVectors)) target →
          Word.saturatingAdd base tree.shape.offset.toNat = base + tree.shape.offset.toNat :=
        fun covers => saturatingAdd_of_covers below ((covers_saturated_iff below).mpr covers)
      rw [exactSearch_eq]
      rcases ends with ⟨outside, rfl⟩ | ⟨covers, leaf, rfl⟩ | ⟨covers, struct, inner, asked, rfl⟩
      · exact if_neg outside
      · rw [exact_start covers]
        exact (if_pos covers).trans (if_neg leaf)
      · rw [exact_start covers] at asked ⊢
        refine (if_pos covers).trans ((if_pos struct).trans ?_)
        have folded_lt : base + tree.shape.offset.toNat +
            (target - (base + tree.shape.offset.toNat)) % stride < Word.last :=
          Nat.lt_of_le_of_lt (folded_le covers stride) below
        have exactInner := exactSearchMembers_of_searchMembers
          (fun member isMember _ located => induction member isMember located folded_lt) asked
        rw [measured.exactSize_eq, ← measured.stride_eq_strideOf]
        exact congrArg (fun inner => some (tree.enclose _ inner)) exactInner

/-- The bound is sharp: at the largest word, a start that is cut off is found. -/
example :
    let tail : LayoutTree Unit := .node ⟨.scalar, 1, 1, 0, 0xFFFFFFFF⟩ () []
    search false 16 Word.last tail = .ok (some ⟨tail, false, [], 0⟩) ∧
      tail.exactSearch false 16 Word.last = none :=
  ⟨rfl, rfl⟩

end LayoutTree
end ShaderInterface
