import ShaderInterface.Proofs.Buffer.Numbering
import ShaderInterface.Proofs.Buffer.Scan
import ShaderInterface.Proofs.Layout.MatrixVectors

/-!
# What a layout depends on

The layout of a type depends on its outline, the numbers at its nodes, and on the one flag that asks
for matrices as arrays of vectors. Names, component types and declared sizes of variables play no
part in it, and array lengths 0 and 1 mean the same. The flag matters only where there is a matrix,
and it only ever adds bytes to a type whose vectors fit a slot.
-/

namespace ShaderInterface

open LayoutTree

/-- The same shape with a single value counted as an array of one element. -/
def Shape.counted (shape : Shape) : Shape :=
  if shape.isArray then shape else { shape with elements := 1 }

theorem Shape.agrees_counted (shape : Shape) : shape.counted.Agrees shape := by
  unfold Shape.counted
  cases array : shape.isArray with
  | true => exact .refl shape
  | false =>
      have single := Shape.elements_le_one array
      have elements_eq : (1 : UInt32).toNat - 1 = shape.elements.toNat - 1 := by
        simp only [UInt32.reduceToNat]
        omega
      exact ⟨rfl, rfl, rfl, elements_eq, rfl⟩

namespace LayoutTree

variable {Label Other : Type}

/-- The shapes of the nodes of a type, where array lengths 0 and 1 are not told apart. -/
def shapes (tree : LayoutTree Label) : LayoutTree Unit := tree.redraw Shape.counted fun _ => ()

theorem shapes_relabel (change : Label → Other) (tree : LayoutTree Label) :
    (tree.relabel change).shapes = tree.shapes := by
  rw [shapes, relabel_eq_redraw, redraw_redraw]
  rfl

theorem nodeCount_shapes (tree : LayoutTree Label) : tree.shapes.nodeCount = tree.nodeCount := by
  rw [nodeCount, shapes, nodes_redraw, List.length_map, nodeCount]

mutual

/-- The same type with its nodes numbered from `id` on, parents before members. -/
def numbered (id : Nat) : LayoutTree Label → LayoutTree Nat
  | .node shape _ members => .node shape id (numberedAll (id + 1) members)

/-- The same types with their nodes numbered from `id` on. -/
def numberedAll (id : Nat) : List (LayoutTree Label) → List (LayoutTree Nat)
  | [] => []
  | tree :: trees => tree.numbered id :: numberedAll (id + tree.nodeCount) trees

end

end LayoutTree

/-- The number of a node counted from the number of a type around it. -/
def Placement.numberFrom (root : Nat) (placement : Placement) : Nat := placement.id - root

/-- The shapes of the nodes of a type with their numbers, counted from the type on. -/
def PlacedType.outline (type : PlacedType) : LayoutTree Nat :=
  type.redraw Shape.counted (Placement.numberFrom type.label.id)

/-- A location with the outline of its leaf, which is numbered from `root` on. -/
def Location.outline (root : Nat) (location : Location Placement) : Location Nat :=
  location.redraw Shape.counted (Placement.numberFrom root)

/-- The variable that a resolved access reads, by its position, and the place inside it. -/
def Resolution.outline (resolution : Resolution) : Nat × Location Nat :=
  (resolution.holder.position, resolution.location.outline resolution.holder.entry.type.label.id)

/-- The start and the shapes of a declared variable. -/
def VariableDeclaration.shapes (declaration : VariableDeclaration) : UInt32 × LayoutTree Unit :=
  (declaration.start, declaration.type.shapes)

/-- The starts and the outlines of the variables. -/
def ConstantBuffer.outline (buffer : ConstantBuffer) : List (UInt32 × LayoutTree Nat) :=
  buffer.entries.map fun declared => (declared.start, declared.type.outline)

namespace TypeDescription

mutual

/-- The numbers inside a placed description are given by its shapes. -/
theorem redraw_place (owner : Option Placement) (root id : Nat) (description : TypeDescription) :
    (place owner (root + id) description).redraw Shape.counted (Placement.numberFrom root) =
      description.shapes.numbered id := by
  cases description with
  | node shape declaration members =>
      have number : Placement.numberFrom root (declaration.placeAt owner (root + id) shape) = id :=
        Nat.add_sub_cancel_left root id
      rw [place, redraw, number, Nat.add_assoc, redrawAll_placeMembers, shapes, redraw, numbered]

theorem redrawAll_placeMembers (owner : Placement) (root id : Nat)
    (members : List TypeDescription) :
    redrawAll Shape.counted (Placement.numberFrom root) (placeMembers owner (root + id) members) =
      numberedAll id (redrawAll Shape.counted (fun _ => ()) members) := by
  cases members with
  | nil => rfl
  | cons member rest =>
      have count : (member.redraw Shape.counted fun _ => ()).nodeCount = member.nodeCount :=
        nodeCount_shapes member
      rw [placeMembers, redrawAll, redraw_place, Nat.add_assoc, redrawAll_placeMembers, redrawAll,
        numberedAll, count]
      rfl

end

theorem outline_place (owner : Option Placement) (id : Nat) (description : TypeDescription) :
    (place owner id description).outline = description.shapes.numbered 0 := by
  rw [PlacedType.outline, id_place]
  exact redraw_place owner id 0 description

theorem shapes_place (owner : Option Placement) (id : Nat) (description : TypeDescription) :
    (place owner id description).shapes = description.shapes := by
  conv => rhs; rw [← description_place owner id description, PlacedType.description]
  rw [shapes_relabel]

end TypeDescription

namespace ConstantBuffer

variable {name : String} {bindPoint : UInt32} {declarations : List VariableDeclaration}

/-- The types of a buffer are numbered as their shapes say. -/
theorem outline_of_mem_types {type : PlacedType}
    (isType : type ∈ (ofDeclarations name bindPoint declarations).types) :
    type.outline = type.shapes.numbered 0 := by
  obtain ⟨owner, description, placed⟩ := exists_place_of_mem_types isType
  generalize type.label.id = id at placed
  rw [placed, TypeDescription.outline_place, TypeDescription.shapes_place]

theorem outline_ofDeclarations :
    (ofDeclarations name bindPoint declarations).outline =
      (declarations.map VariableDeclaration.shapes).map fun (start, shapes) =>
        (start, shapes.numbered 0) := by
  have placed (id : Nat) : (placeVariables id declarations).map
      (fun declared => (declared.start, declared.type.outline)) =
        (declarations.map VariableDeclaration.shapes).map fun (start, shapes) =>
          (start, shapes.numbered 0) := by
    induction declarations generalizing id with
    | nil => rfl
    | cons declaration rest induction =>
        have first : (declaration.placeAt id).type.outline =
            declaration.type.shapes.numbered 0 :=
          TypeDescription.outline_place none id declaration.type
        rw [placeVariables, List.map_cons, induction, first]
        rfl
  rw [outline, entries_ofDeclarations, placed 0]

end ConstantBuffer

namespace LayoutFlags

variable {flags otherFlags : LayoutFlags}

theorem matricesAsVectors_truncated (flags : LayoutFlags) :
    flags.truncated.matricesAsVectors = flags.matricesAsVectors := by
  rw [matricesAsVectors, matricesAsVectors, truncated, UInt32.and_assoc, UInt32.and_self]

/-- Flags that agree on the bit with a meaning ask for the same layout. -/
theorem matricesAsVectors_congr (same : flags.truncated = otherFlags.truncated) :
    flags.matricesAsVectors = otherFlags.matricesAsVectors := by
  rw [← matricesAsVectors_truncated flags, same, matricesAsVectors_truncated]

end LayoutFlags

/-- The entries of a list with a view of each, in the order of their positions. -/
theorem Declared.map_position_all {Entry Value : Type} (view : Entry → Value)
    (entries : List Entry) :
    (Declared.all entries).map (fun declared => (declared.position, view declared.entry)) =
      (entries.map view).zipIdx.map Prod.swap := by
  simp [Declared.all, List.zipIdx_map, Function.comp_def]

section Outlines

variable {type other : PlacedType} {matricesAsVectors : Bool} {flags otherFlags : LayoutFlags}

/-- Types of the same shapes have the same sizes, whatever their labels are. -/
theorem packedSize_shapes {Label : Type} (whole : Bool) (tree : LayoutTree Label) :
    tree.shapes.packedSize matricesAsVectors whole = tree.packedSize matricesAsVectors whole := by
  rw [packedSize, packedSize, shapes, wholeSize_redraw Shape.agrees_counted,
    elementSize_redraw Shape.agrees_counted]

theorem search_outline (base target : Nat) (type : PlacedType) :
    type.outline.search matricesAsVectors base target =
      (type.search matricesAsVectors base target).map
        (Option.map (Location.outline type.label.id)) :=
  search_redraw Shape.agrees_counted base target type

theorem search_congr_outline (same : type.outline = other.outline) (base target : Nat) :
    (type.search matricesAsVectors base target).map
        (Option.map (Location.outline type.label.id)) =
      (other.search matricesAsVectors base target).map
        (Option.map (Location.outline other.label.id)) := by
  rw [← search_outline, same, search_outline]

theorem outline_resolveAmong_cons (flags : LayoutFlags) (byteOffset : UInt32)
    (holder : Declared BufferVariable) (rest : List (Declared BufferVariable)) :
    (resolveAmong flags byteOffset (holder :: rest)).run.value.map
        (Option.map Resolution.outline) = (do
      match ← (holder.entry.find flags byteOffset).map
        (Option.map (Location.outline holder.entry.type.label.id)) with
      | some location => return some (holder.position, location)
      | none =>
          (resolveAmong flags byteOffset rest).run.value.map (Option.map Resolution.outline)) := by
  rw [value_resolveAmong_cons]
  cases holder.entry.find flags byteOffset with
  | error failure => rfl
  | ok found => cases found <;> rfl

/-- Variables that agree in positions, starts and outlines are scanned alike. -/
theorem resolveAmong_congr_outline {byteOffset : UInt32}
    (asked : flags.matricesAsVectors = otherFlags.matricesAsVectors)
    {holders others : List (Declared BufferVariable)}
    (same : holders.map (fun holder =>
        (holder.position, holder.entry.start, holder.entry.type.outline)) =
      others.map fun holder =>
        (holder.position, holder.entry.start, holder.entry.type.outline)) :
    (resolveAmong flags byteOffset holders).run.value.map (Option.map Resolution.outline) =
      (resolveAmong otherFlags byteOffset others).run.value.map
        (Option.map Resolution.outline) := by
  induction holders generalizing others with
  | nil =>
      obtain rfl := List.map_eq_nil_iff.mp same.symm
      rfl
  | cons holder rest induction =>
      obtain ⟨otherHolder, otherRest, rfl, agree, agreeRest⟩ := List.map_eq_cons_iff.mp same.symm
      obtain ⟨position_eq, placed⟩ := Prod.mk.inj agree
      obtain ⟨start_eq, outline_eq⟩ := Prod.mk.inj placed
      have found : (otherHolder.entry.find otherFlags byteOffset).map
          (Option.map (Location.outline otherHolder.entry.type.label.id)) =
            (holder.entry.find flags byteOffset).map
              (Option.map (Location.outline holder.entry.type.label.id)) := by
        rw [BufferVariable.find, BufferVariable.find, start_eq, asked]
        exact search_congr_outline outline_eq _ _
      rw [outline_resolveAmong_cons, outline_resolveAmong_cons, found, position_eq,
        induction agreeRest.symm]

/-- An access to a buffer depends on the starts and the outlines of the variables. -/
theorem ConstantBuffer.resolve_congr_outline {buffer other : ConstantBuffer}
    (asked : flags.matricesAsVectors = otherFlags.matricesAsVectors)
    (same : buffer.outline = other.outline) (slot : UInt32) (swizzle : Swizzle) :
    (buffer.resolve slot swizzle flags).run.value.map (Option.map Resolution.outline) =
      (other.resolve slot swizzle otherFlags).run.value.map (Option.map Resolution.outline) := by
  rw [value_resolve, value_resolve]
  cases Swizzle.byteOffset? slot swizzle with
  | none => rfl
  | some byteOffset =>
      have views := Declared.map_position_all fun declared : BufferVariable =>
        (declared.start, declared.type.outline)
      apply resolveAmong_congr_outline asked
      rw [views, views]
      exact congrArg (fun outline => outline.zipIdx.map Prod.swap) same

end Outlines

/-- Sizes, locations and resolved accesses depend on shapes and on the flag for matrices only, and
on that flag only where there is a matrix. If all vectors of the matrices fit a slot and all sizes
can be rounded, the flag makes no size smaller and loses no byte. -/
theorem layout_reads_shapes :
    (∀ flags otherFlags : LayoutFlags, flags.truncated = otherFlags.truncated →
      ∀ (name otherName : String) (bindPoint otherBindPoint : UInt32)
        (declarations otherDeclarations : List VariableDeclaration),
        let buffer := ConstantBuffer.ofDeclarations name bindPoint declarations
        let other := ConstantBuffer.ofDeclarations otherName otherBindPoint otherDeclarations
        (∀ type ∈ buffer.types, ∀ otherType ∈ other.types, type.shapes = otherType.shapes →
          (∀ whole, type.packedSize flags.matricesAsVectors whole =
            otherType.packedSize otherFlags.matricesAsVectors whole) ∧
          ∀ base target, (type.locate flags base target).run.value.map
              (Option.map (Location.outline type.label.id)) =
            (otherType.locate otherFlags base target).run.value.map
              (Option.map (Location.outline otherType.label.id))) ∧
        (declarations.map VariableDeclaration.shapes =
            otherDeclarations.map VariableDeclaration.shapes →
          ∀ slot swizzle,
            (buffer.resolve slot swizzle flags).run.value.map (Option.map Resolution.outline) =
              (other.resolve slot swizzle otherFlags).run.value.map
                (Option.map Resolution.outline))) ∧
    (∀ type : PlacedType,
      (∀ node ∈ type.nodes, node.shape.variableClass.isMatrix = false) →
      ∀ flags otherFlags : LayoutFlags,
        (∀ whole, type.packedSize flags.matricesAsVectors whole =
          type.packedSize otherFlags.matricesAsVectors whole) ∧
        ∀ base target, type.locate flags base target = type.locate otherFlags base target) ∧
    ∀ type : PlacedType,
      (∀ node ∈ type.nodes, node.shape.VectorsFit ∧
        ∀ matricesAsVectors, ∃ size stride, Measured matricesAsVectors node size stride) →
      ∀ packed vectors : LayoutFlags,
        packed.matricesAsVectors = false → vectors.matricesAsVectors = true →
        (∀ whole, ∃ size larger, type.packedSize packed.matricesAsVectors whole = .ok size ∧
          type.packedSize vectors.matricesAsVectors whole = .ok larger ∧ size ≤ larger) ∧
        ∀ base target location,
          (type.locate packed base target).run.value = .ok (some location) →
            ∃ further, (type.locate vectors base target).run.value = .ok (some further) := by
  refine ⟨?_, fun type plain flags otherFlags => ⟨?_, ?_⟩,
    fun type fits packed vectors packed_eq vectors_eq => ⟨?_, ?_⟩⟩
  · intro flags otherFlags same name otherName bindPoint otherBindPoint declarations
      otherDeclarations buffer other
    have asked := LayoutFlags.matricesAsVectors_congr same
    refine ⟨fun type isType otherType isOther alike => ⟨fun whole => ?_, fun base target => ?_⟩,
      fun alike => ?_⟩
    · rw [asked, ← packedSize_shapes, alike, packedSize_shapes]
    · rw [PlacedType.value_locate, PlacedType.value_locate, asked]
      apply search_congr_outline
      rw [ConstantBuffer.outline_of_mem_types isType, alike,
        ← ConstantBuffer.outline_of_mem_types isOther]
    · apply ConstantBuffer.resolve_congr_outline asked
      rw [ConstantBuffer.outline_ofDeclarations, alike, ← ConstantBuffer.outline_ofDeclarations]
  · exact packedSize_of_no_matrix plain
  · intro base target
    rw [PlacedType.locate, PlacedType.locate, search_of_no_matrix plain]
  · intro whole
    obtain ⟨size, stride, measured⟩ := (fits type type.self_mem_nodes).2 false
    obtain ⟨_, _, measuredVectors⟩ := (fits type type.self_mem_nodes).2 true
    obtain ⟨bytes, sized⟩ := measured.exists_packedSize whole
    obtain ⟨larger, sizedVectors⟩ := measuredVectors.exists_packedSize whole
    rw [packed_eq, vectors_eq]
    exact ⟨bytes, larger, sized, sizedVectors,
      packedSize_le (fun node isNode => (fits node isNode).1) sized sizedVectors⟩
  · intro base target location found
    rw [PlacedType.value_locate, packed_eq] at found
    rw [PlacedType.value_locate, vectors_eq]
    exact exists_search_vectors (fun node isNode => (fits node isNode).1)
      (fun node isNode => (fits node isNode).2 true) found (Nat.le_of_lt_succ target.toNat_lt)

/-- A struct that ends with a matrix. -/
def basisBlock : TypeDescription :=
  .struct "block" 0 [.scalar "weight" 0, .matrixRows "basis" 16 3 3]

/-- The same struct under other names, with lengths of 1 and another component type. -/
def frameBlock : TypeDescription :=
  .array 1 (.struct "frame" 0
    [.array 1 (.withScalarType .int (.scalar "count" 0)), .matrixRows "axes" 16 3 3])

theorem layout_reads_shapes_basisBlock :
    let blocks := [VariableDeclaration.mk 16 52 basisBlock]
    let frames := [VariableDeclaration.mk 16 0 frameBlock]
    let buffer := ConstantBuffer.ofDeclarations "Blocks" 0 blocks
    let other := ConstantBuffer.ofDeclarations "Frames" 1 (⟨0, 4, .scalar "time" 0⟩ :: frames)
    let block : PlacedType := basisBlock.place none 0
    let frame : PlacedType := frameBlock.place none 1
    let axes : PlacedType := TypeDescription.place none 0 (.array 2 (.vector "axis" 0 3))
    (⟨2⟩ : LayoutFlags).truncated = (⟨0⟩ : LayoutFlags).truncated ∧
    (block ∈ buffer.types ∧ frame ∈ other.types ∧ block.shapes = frame.shapes ∧
      block.packedSize false true = frame.packedSize false true ∧
      (∃ location, (block.locate ⟨2⟩ 0 36).run.value = .ok (some location) ∧
        location.indices = [1]) ∧
      (block.locate ⟨2⟩ 0 36).run.value.map (Option.map (Location.outline 0)) =
        (frame.locate ⟨0⟩ 0 36).run.value.map (Option.map (Location.outline 1))) ∧
    (blocks.map VariableDeclaration.shapes = frames.map VariableDeclaration.shapes ∧
      (buffer.resolve 3 (.splat 1) ⟨2⟩).run.value.map (Option.map Resolution.outline) =
        ((ConstantBuffer.ofDeclarations "Frames" 1 frames).resolve 3 (.splat 1)
          ⟨0⟩).run.value.map (Option.map Resolution.outline)) ∧
    ((∀ node ∈ axes.nodes, node.shape.variableClass.isMatrix = false) ∧
      axes.packedSize false true = axes.packedSize true true ∧
      axes.locate ⟨0⟩ 0 20 = axes.locate ⟨1⟩ 0 20) ∧
    (∀ node ∈ block.nodes, node.shape.VectorsFit ∧
      ∀ matricesAsVectors, ∃ size stride, Measured matricesAsVectors node size stride) ∧
    block.packedSize false true = .ok 52 ∧ block.packedSize true true = .ok 64 ∧
    (∃ size larger, block.packedSize false true = .ok size ∧
      block.packedSize true true = .ok larger ∧ size ≤ larger) ∧
    ∃ further, (block.locate ⟨1⟩ 0 36).run.value = .ok (some further) := by
  intro blocks frames buffer other block frame axes
  have same : (⟨2⟩ : LayoutFlags).truncated = (⟨0⟩ : LayoutFlags).truncated := rfl
  have isBlock : block ∈ buffer.types := List.mem_of_getElem? (show buffer.types[0]? = _ from rfl)
  have isFrame : frame ∈ other.types := List.mem_of_getElem? (show other.types[1]? = _ from rfl)
  have alike : block.shapes = frame.shapes := rfl
  have declaredAlike : blocks.map VariableDeclaration.shapes =
      frames.map VariableDeclaration.shapes := rfl
  have plain : ∀ node ∈ axes.nodes, node.shape.variableClass.isMatrix = false := by decide
  have fits : ∀ node ∈ block.nodes, node.shape.VectorsFit ∧
      ∀ matricesAsVectors, ∃ size stride, Measured matricesAsVectors node size stride := by
    decide
  have located : ∃ location, (block.locate ⟨2⟩ 0 36).run.value = .ok (some location) ∧
      location.indices = [1] := ⟨_, rfl, rfl⟩
  obtain ⟨location, found, indices⟩ := located
  obtain ⟨reads, withoutMatrix, withMatrix⟩ := layout_reads_shapes
  obtain ⟨typesRead, -⟩ := reads ⟨2⟩ ⟨0⟩ same "Blocks" "Frames" 0 1 blocks
    (⟨0, 4, .scalar "time" 0⟩ :: frames)
  obtain ⟨-, buffersRead⟩ := reads ⟨2⟩ ⟨0⟩ same "Blocks" "Frames" 0 1 blocks frames
  obtain ⟨sizes, locations⟩ := typesRead block isBlock frame isFrame alike
  obtain ⟨flagSizes, flagLocations⟩ := withoutMatrix axes plain ⟨0⟩ ⟨1⟩
  obtain ⟨larger, kept⟩ := withMatrix block fits ⟨2⟩ ⟨1⟩ rfl rfl
  exact ⟨same,
    ⟨isBlock, isFrame, alike, sizes true, ⟨location, found, indices⟩, locations 0 36⟩,
    ⟨declaredAlike, buffersRead declaredAlike 3 (.splat 1)⟩,
    ⟨plain, flagSizes true, flagLocations 0 20⟩, fits, rfl, rfl, larger true,
    kept 0 36 location found⟩

end ShaderInterface
