import ShaderInterface.Proofs.Buffer.Enclosing
import ShaderInterface.Proofs.Buffer.Scan
import ShaderInterface.Proofs.Layout.Trail

/-!
# Names of resolved accesses

The indices of a resolved access belong to the arrays on the path to its type, outermost first, so
they fill the bracket pairs of the full name in order. A matrix that is no array adds the number of
a row or column, for which the name has no brackets.
-/

namespace ShaderInterface

open LayoutTree Probe

variable {matricesAsVectors : Bool}

/-- A trail follows the enclosing types of the innermost one. -/
theorem ConstantBuffer.Linked.enclosing_trail {buffer : ConstantBuffer} (linked : buffer.Linked)
    {outer leaf : Probe Placement} {rest : List (Probe Placement)}
    (trail : Trail matricesAsVectors outer rest leaf) (isType : outer.type ∈ buffer.types) :
    leaf.type ∈ buffer.types ∧
      buffer.enclosing leaf.type = buffer.enclosing outer.type ++ rest.map (·.type) := by
  induction trail with
  | settle => exact ⟨isType, (List.append_nil _).symm⟩
  | @descend outer inner leaf rest step trail induction =>
      obtain ⟨leaf_isType, encloses⟩ :=
        induction (ConstantBuffer.Linked.member_mem_types isType step.isMember)
      refine ⟨leaf_isType, ?_⟩
      rw [encloses, linked.enclosing_member isType step.isMember, List.append_assoc]
      rfl

/-- A resolved access has a trail from the type of its variable. -/
theorem exists_trail_of_resolve {slot : UInt32} {swizzle : Swizzle} {flags : LayoutFlags}
    {buffer : ConstantBuffer} {resolution : Resolution}
    (resolved : (buffer.resolve slot swizzle flags).run.value = .ok (some resolution)) :
    resolution.holder.entry ∈ buffer.entries ∧
    ∃ byteOffset rest innermost, Swizzle.byteOffset? slot swizzle = some byteOffset ∧
      let outermost := below resolution.holder.entry.start.toNat byteOffset.toNat
        resolution.holder.entry.type
      Trail flags.matricesAsVectors outermost rest innermost ∧
      innermost.type = resolution.location.leaf ∧
      Indexes flags.matricesAsVectors (outermost :: rest) resolution.location.indices := by
  obtain ⟨isEntry, byteOffset, selected, located⟩ := ConstantBuffer.find_of_resolve resolved
  have target_le : byteOffset.toNat ≤ Word.last := Nat.le_of_lt_succ byteOffset.toNat_lt
  obtain ⟨rest, innermost, trail, leaf_eq, indexed, -⟩ := exists_trail located target_le
  exact ⟨isEntry, byteOffset, rest, innermost, selected, trail, leaf_eq, indexed⟩

/-- What ties the indices of a resolved access to the path that leads to its type. -/
structure IndexesPath (matricesAsVectors : Bool) (byteOffset : Nat) (resolution : Resolution)
    (path : List PlacedType) : Prop where
  /-- A trail from the type of the variable follows the path, and an index belongs to the array at
  the same position on it. -/
  trail : ∃ rest innermost,
    let outermost := below resolution.holder.entry.start.toNat byteOffset
      resolution.holder.entry.type
    Trail matricesAsVectors outermost rest innermost ∧
    (outermost :: rest).map (·.type) = path ∧
    (∀ (position index : Nat) probe,
      ((outermost :: rest).filter (·.type.shape.isArray))[position]? = some probe →
      resolution.location.indices[position]? = some index →
        probe.index matricesAsVectors = .ok index) ∧
    (innermost.type.shape.variableClass.isMatrix → resolution.location.indices.getLast? =
      some ((innermost.target - innermost.start) / slotBytes))
  /-- Scalars, vectors, structs and arrays of matrices have one index for each array. -/
  length_eq : let shape := resolution.location.leaf.shape
    shape.variableClass ∈ [VariableClass.scalar, .vector, .struct] ∨
      shape.variableClass.isMatrix ∧ shape.isArray →
        resolution.location.indices.length = arrayLevels path
  /-- A matrix that is no array has one more. -/
  length_eq_succ : let shape := resolution.location.leaf.shape
    shape.variableClass.isMatrix → shape.isArray = false →
      resolution.location.indices.length = arrayLevels path + 1

theorem arrayLevels_map_type (probes : List (Probe Placement)) :
    arrayLevels (probes.map (·.type)) = (probes.filter (·.type.shape.isArray)).length := by
  rw [arrayLevels, List.countP_map, List.countP_eq_length_filter]
  rfl

theorem indexesPath_of_trail {byteOffset : Nat} {resolution : Resolution}
    {rest : List (Probe Placement)} {innermost : Probe Placement}
    (trail : Trail matricesAsVectors (below resolution.holder.entry.start.toNat byteOffset
      resolution.holder.entry.type) rest innermost)
    (leaf_eq : innermost.type = resolution.location.leaf)
    (indexed : Indexes matricesAsVectors (below resolution.holder.entry.start.toNat byteOffset
      resolution.holder.entry.type :: rest) resolution.location.indices) :
    IndexesPath matricesAsVectors byteOffset resolution
      (resolution.holder.entry.type :: rest.map (·.type)) := by
  have lengths := indexed.length_eq trail
  rw [← arrayLevels_map_type, List.map_cons] at lengths
  refine ⟨⟨rest, innermost, trail, rfl, fun _ _ _ => indexed.index_eq trail,
    indexed.getLast?_eq trail⟩, ?_, ?_⟩
  · intro shape numeric
    rw [isLevel_eq (leaf_eq ▸ numeric)] at lengths
    exact Nat.add_right_cancel lengths
  · intro shape isMatrix single
    have level : innermost.isLevel = true := isLevel_of_isMatrix (leaf_eq ▸ isMatrix)
    have array : innermost.type.shape.isArray = false := leaf_eq ▸ single
    rw [level, array] at lengths
    exact lengths

/-- Every type that is not an object or a reference has an index for each array around it. -/
theorem IndexesPath.arrayLevels_le {byteOffset : Nat} {resolution : Resolution}
    {path : List PlacedType}
    (indexes : IndexesPath matricesAsVectors byteOffset resolution path)
    (numeric : resolution.location.leaf.shape.variableClass ∈
      [VariableClass.scalar, .vector, .struct, .matrixRows, .matrixColumns]) :
    arrayLevels path ≤ resolution.location.indices.length := by
  by_cases isMatrix : resolution.location.leaf.shape.variableClass.isMatrix
  · cases array : resolution.location.leaf.shape.isArray with
    | true => exact Nat.le_of_eq (indexes.length_eq (Or.inr ⟨isMatrix, array⟩)).symm
    | false =>
        rw [indexes.length_eq_succ isMatrix array]
        exact Nat.le_succ _
  · refine Nat.le_of_eq (indexes.length_eq (Or.inl ?_)).symm
    cases variableClass : resolution.location.leaf.shape.variableClass <;>
      simp_all [VariableClass.isMatrix]

/-- In a buffer whose names contain no opening bracket, a resolved access has one index for each
empty bracket pair of the full name, and its name is the dotted path with these indices. -/
theorem resolvedName_eq_dottedPath (name : String) (bindPoint : UInt32)
    (declarations : List VariableDeclaration) (slot : UInt32) (swizzle : Swizzle)
    (flags : LayoutFlags) (resolution : Resolution)
    (plain : ∀ type ∈ (ConstantBuffer.ofDeclarations name bindPoint declarations).types,
      '[' ∉ type.label.name.toList)
    (resolved : ((ConstantBuffer.ofDeclarations name bindPoint declarations).resolve slot swizzle
      flags).run.value = .ok (some resolution)) :
    let buffer := ConstantBuffer.ofDeclarations name bindPoint declarations
    let leaf := resolution.location.leaf
    let indices := resolution.location.indices
    let path := buffer.enclosing leaf
    emptyBrackets leaf.label.fullName = arrayLevels path ∧
    (∃ byteOffset, Swizzle.byteOffset? slot swizzle = some byteOffset ∧
      IndexesPath flags.matricesAsVectors byteOffset.toNat resolution path) ∧
    (∀ countsSlots, buffer.resolvedName resolution ⟨"", countsSlots⟩ flags =
      .ok (dottedPath (staticFiller indices) path)) ∧
    (leaf.shape.variableClass ∈
        [VariableClass.scalar, .vector, .struct, .matrixRows, .matrixColumns] →
      emptyBrackets (dottedPath (staticFiller indices) path) = 0) := by
  intro buffer leaf indices path
  have linked : buffer.Linked := ConstantBuffer.linked_ofDeclarations name bindPoint declarations
  obtain ⟨isEntry, byteOffset, rest, innermost, selected, trail, leaf_eq, indexed⟩ :=
    exists_trail_of_resolve resolved
  have isType : resolution.holder.entry.type ∈ buffer.types :=
    List.mem_flatMap.mpr ⟨_, isEntry, self_mem_nodes _⟩
  obtain ⟨leaf_isType, encloses⟩ := linked.enclosing_trail trail isType
  rw [leaf_eq] at leaf_isType encloses
  have path_eq : path = resolution.holder.entry.type :: rest.map (·.type) :=
    encloses.trans (congrArg (· ++ rest.map (·.type)) (linked.enclosing_outermost isEntry))
  have indexes : IndexesPath flags.matricesAsVectors byteOffset.toNat resolution path :=
    path_eq ▸ indexesPath_of_trail trail leaf_eq indexed
  have plainPath : ∀ type ∈ path, '[' ∉ type.label.name.toList :=
    fun type onPath => plain type (ConstantBuffer.mem_of_mem_enclosingFrom onPath)
  have template : leaf.label.fullName = dottedPath (fun _ => "") path :=
    linked.fullName_eq leaf_isType
  refine ⟨?_, ⟨byteOffset, selected, indexes⟩, fun countsSlots => ?_, fun numeric => ?_⟩
  · exact template ▸ emptyBrackets_dottedPath [] path plainPath
  · rw [ConstantBuffer.resolvedName, ConstantBuffer.indexedName_static, template,
      fillTemplate_dottedPath path plainPath]
  · rw [emptyBrackets_dottedPath indices path plainPath]
    exact Nat.sub_eq_zero_of_le (indexes.arrayLevels_le numeric)

/-- A buffer with a matrix and an array in an array of structs. -/
def skinBuffer : ConstantBuffer :=
  .ofDeclarations "Skin" 0
    [⟨0, 0, .scalar "weight" 0⟩,
      ⟨16, 0, .array 2 (.struct "bones" 0
        [.matrixRows "pose" 0 3 4, .array 2 (.vector "tail" 48 4)])⟩]

theorem resolvedName_eq_dottedPath_skinBuffer :
    (∀ type ∈ skinBuffer.types, '[' ∉ type.label.name.toList) ∧
    ∃ resolution path, (skinBuffer.resolve 7 (.splat 0) ⟨0⟩).run.value = .ok (some resolution) ∧
      path = skinBuffer.enclosing resolution.location.leaf ∧
      resolution.location.leaf.shape.variableClass = .matrixRows ∧
      resolution.location.indices = [1, 1] ∧
      emptyBrackets resolution.location.leaf.label.fullName = arrayLevels path ∧
      resolution.location.indices.length = arrayLevels path + 1 ∧
      skinBuffer.resolvedName resolution ⟨"", true⟩ ⟨0⟩ =
        .ok (dottedPath (staticFiller resolution.location.indices) path) ∧
      emptyBrackets (dottedPath (staticFiller resolution.location.indices) path) = 0 ∧
      skinBuffer.resolvedName resolution ⟨"", true⟩ ⟨0⟩ = .ok "bones[1].pose" := by
  have plain : ∀ type ∈ skinBuffer.types, '[' ∉ type.label.name.toList := by decide
  have resolved : ∃ resolution,
      (skinBuffer.resolve 7 (.splat 0) ⟨0⟩).run.value = .ok (some resolution) ∧
      resolution.location.leaf.shape.variableClass = .matrixRows ∧
      resolution.location.leaf.shape.isArray = false ∧
      resolution.location.indices = [1, 1] ∧
      skinBuffer.resolvedName resolution ⟨"", true⟩ ⟨0⟩ = .ok "bones[1].pose" := by
    cbv
    exact ⟨_, rfl, rfl, rfl, rfl, rfl⟩
  obtain ⟨resolution, found, variableClass, single, indices, named⟩ := resolved
  obtain ⟨brackets, ⟨_, _, indexes⟩, name, filled⟩ :=
    resolvedName_eq_dottedPath "Skin" 0 _ 7 (.splat 0) ⟨0⟩ resolution plain found
  have isMatrix : resolution.location.leaf.shape.variableClass.isMatrix := by
    rw [variableClass]
    rfl
  have numeric : resolution.location.leaf.shape.variableClass ∈
      [VariableClass.scalar, .vector, .struct, .matrixRows, .matrixColumns] := by
    rw [variableClass]
    decide
  exact ⟨plain, resolution, _, found, rfl, variableClass, indices, brackets,
    indexes.length_eq_succ isMatrix single, name true, filled numeric, named⟩

end ShaderInterface
