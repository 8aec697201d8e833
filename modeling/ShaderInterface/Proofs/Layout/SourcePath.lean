import Mathlib.Data.List.Chain
import ShaderInterface.Proofs.Layout.Nodes
import ShaderInterface.Proofs.Layout.Step

/-!
# Source paths

A path through a declared type picks an element and a member at each struct, and an element and a
byte of it at the type without members where it ends. Its address follows from the offsets and
strides on the way. In a type that is laid out well, the search for the byte at that address gives
the path back.
-/

namespace ShaderInterface

open LayoutTree

variable {Label : Type} {matricesAsVectors : Bool}

/-- A choice of one byte of a type. -/
inductive SourcePath (matricesAsVectors : Bool) : LayoutTree Label → Type
  /-- Byte `byte` of element `element` of a type without members. -/
  | leaf {tree : LayoutTree Label} (size element byte : Nat)
      (notStruct : tree.shape.variableClass ≠ .struct)
      (sized : tree.elementSize matricesAsVectors = .ok size)
      (element_lt : element < max 1 tree.shape.elements.toNat) (byte_lt : byte < size) :
      SourcePath matricesAsVectors tree
  /-- A byte of a member of element `element` of a struct. -/
  | member {tree member : LayoutTree Label} (size element : Nat)
      (struct : tree.shape.variableClass = .struct)
      (sized : tree.elementSize matricesAsVectors = .ok size)
      (element_lt : element < max 1 tree.shape.elements.toNat)
      (isMember : member ∈ tree.members) (rest : SourcePath matricesAsVectors member) :
      SourcePath matricesAsVectors tree

namespace SourcePath

/-- Distance from the start of the enclosing struct to the element that the path ends in. -/
def address {tree : LayoutTree Label} : SourcePath matricesAsVectors tree → Nat
  | leaf size element .. => tree.shape.offset.toNat + element * strideOf size
  | member size element _ _ _ _ rest =>
      tree.shape.offset.toNat + element * strideOf size + rest.address

/-- Distance from the start of that element to the byte. -/
def byte {tree : LayoutTree Label} : SourcePath matricesAsVectors tree → Nat
  | leaf _ _ byte .. => byte
  | member _ _ _ _ _ _ rest => rest.byte

/-- The type that the path ends in. -/
def innermost {tree : LayoutTree Label} : SourcePath matricesAsVectors tree → LayoutTree Label
  | leaf .. => tree
  | member _ _ _ _ _ _ rest => rest.innermost

/-- The element number, at an array. -/
def elementLevel (element : Nat) (shape : Shape) : List Nat :=
  if shape.isArray then [element] else []

/-- The element numbers at the arrays of a path, outermost first. At a matrix the rows or columns
are counted through all its elements. -/
def indices {tree : LayoutTree Label} : SourcePath matricesAsVectors tree → List Nat
  | leaf size element byte .. =>
      if tree.shape.variableClass.isMatrix then [element * slotCount size + byte / slotBytes]
      else elementLevel element tree.shape
  | member _ element _ _ _ _ rest => elementLevel element tree.shape ++ rest.indices

/-- The location of the byte, if the enclosing struct starts at byte `origin`. -/
def location (origin : Nat) {tree : LayoutTree Label}
    (path : SourcePath matricesAsVectors tree) : Location Label :=
  let shape := path.innermost.shape
  { leaf := path.innermost
    isArray := shape.variableClass.isMatrix || shape.isArray
    indices := path.indices
    rebase :=
      if shape.variableClass = .vector ∧ shape.isArray = false then
        (origin + path.address) % slotBytes
      else 0 }

end SourcePath

namespace LayoutTree

/-- The member ends before the next one starts. -/
def Precedes (matricesAsVectors : Bool) (member next : LayoutTree Label) : Prop :=
  ∃ whole, member.wholeSize matricesAsVectors = .ok whole ∧
    member.shape.offset.toNat + whole ≤ next.shape.offset.toNat

/-- The demands on one node of a type that is laid out well. -/
structure WellLaidOut (matricesAsVectors : Bool) (tree : LayoutTree Label) : Prop where
  /-- The node is a scalar, a vector, a matrix or a struct. -/
  numeric : tree.shape.variableClass ∈
    [VariableClass.scalar, .vector, .matrixRows, .matrixColumns, .struct]
  /-- An element has a size, and the size can be rounded to slots. -/
  sized : ∃ size, tree.elementSize matricesAsVectors = .ok size ∧ 1 ≤ size ∧ size ≤ 0xFFFFFFF0
  /-- An element of an array of scalars or vectors fits a slot. -/
  narrow : ∀ size, tree.elementSize matricesAsVectors = .ok size →
    tree.shape.variableClass ∈ [VariableClass.scalar, .vector] → tree.shape.isArray →
      size ≤ slotBytes
  /-- The members of a struct follow each other. -/
  ordered : tree.shape.variableClass = .struct →
    tree.members.IsChain (Precedes matricesAsVectors)
  /-- An element of an array of structs fills whole slots. -/
  aligned : ∀ size, tree.elementSize matricesAsVectors = .ok size →
    tree.shape.variableClass = .struct → tree.shape.isArray → slotBytes ∣ size

instance (member next : LayoutTree Label) : Decidable (Precedes matricesAsVectors member next) :=
  inferInstanceAs (Decidable (∃ whole, _ = Except.ok whole ∧ _))

instance (tree : LayoutTree Label) : Decidable (WellLaidOut matricesAsVectors tree) :=
  decidable_of_iff (_ ∧ _ ∧ _ ∧ _ ∧ _)
    ⟨fun ⟨numeric, sized, narrow, ordered, aligned⟩ =>
      ⟨numeric, sized, narrow, ordered, aligned⟩,
    fun ⟨numeric, sized, narrow, ordered, aligned⟩ =>
      ⟨numeric, sized, narrow, ordered, aligned⟩⟩

instance : Trans (@Precedes Label matricesAsVectors) (Precedes matricesAsVectors)
    (Precedes matricesAsVectors) where
  trans := by
    rintro first second third ⟨whole, sized, before⟩ ⟨_, _, after⟩
    exact ⟨whole, sized, by omega⟩

namespace WellLaidOut

variable {tree : LayoutTree Label} {size : Nat}

theorem measured (laidOut : WellLaidOut matricesAsVectors tree)
    (sized : tree.elementSize matricesAsVectors = .ok size) :
    Measured matricesAsVectors tree size (strideOf size) := by
  obtain ⟨size', sized', -, fits⟩ := laidOut.sized
  obtain rfl := Except.ok.inj (sized.symm.trans sized')
  exact ⟨sized, roundToSlot_eq_ok_iff.mpr ⟨fits, rfl⟩⟩

theorem pairwise_precedes (laidOut : WellLaidOut matricesAsVectors tree)
    (struct : tree.shape.variableClass = .struct) :
    tree.members.Pairwise (Precedes matricesAsVectors) :=
  (laidOut.ordered struct).pairwise

/-- The members of a struct end inside its first element. -/
theorem member_end_le (laidOut : WellLaidOut matricesAsVectors tree)
    (struct : tree.shape.variableClass = .struct)
    (sized : tree.elementSize matricesAsVectors = .ok size) {member : LayoutTree Label}
    (isMember : member ∈ tree.members) :
    ∃ whole, member.wholeSize matricesAsVectors = .ok whole ∧
      member.shape.offset.toNat + whole ≤ size := by
  have uncut := (laidOut.measured sized).size_lt_last
  have ended := structSize_of_elementSize struct sized
  have ordered := laidOut.pairwise_precedes struct
  rcases List.eq_nil_or_concat tree.members with split | ⟨front, last, split⟩
  · rw [split] at isMember
    exact absurd isMember List.not_mem_nil
  rw [List.concat_eq_append] at split
  rw [split] at isMember ordered ended
  rw [structSize_concat] at ended
  obtain ⟨whole, computed, size_eq⟩ := map_eq_ok_iff.mp ended
  have last_end : last.shape.offset.toNat + whole = size := by
    rw [Word.saturatingAdd] at size_eq
    omega
  rcases List.mem_append.mp isMember with isEarlier | isLast
  · obtain ⟨whole', computed', before⟩ :=
      (List.pairwise_append.mp ordered).2.2 member isEarlier last List.mem_cons_self
    exact ⟨whole', computed', by omega⟩
  · obtain rfl := List.mem_singleton.mp isLast
    exact ⟨whole, computed, Nat.le_of_eq last_end⟩

end WellLaidOut

/-- An element of an array whose extent is not cut off lies inside the extent. -/
theorem element_lt_arrayExtent {shape : Shape} {size element inner : Nat} (stride : Nat)
    (uncut : shape.arrayExtent size stride < Word.last)
    (element_lt : element < max 1 shape.elements.toNat) (inner_lt : inner < size) :
    element * stride + inner < shape.arrayExtent size stride := by
  have earlier : element * stride ≤ stride * (shape.elements.toNat - 1) := by
    rw [Nat.mul_comm]
    exact Nat.mul_le_mul_left stride (by omega)
  rw [Shape.arrayExtent_eq_min] at uncut ⊢
  omega

/-- A value that is no array has only its first element. -/
theorem element_eq_zero {shape : Shape} {element : Nat} (single : shape.isArray = false)
    (element_lt : element < max 1 shape.elements.toNat) : element = 0 := by
  have := Shape.elements_le_one single
  omega

end LayoutTree

namespace SourcePath

variable {tree : LayoutTree Label}

/-- The byte of a path lies inside the extent of the type. -/
theorem address_bounds (path : SourcePath matricesAsVectors tree)
    (laidOut : ∀ node ∈ tree.nodes, WellLaidOut matricesAsVectors node) {whole : Nat}
    (sized : tree.wholeSize matricesAsVectors = .ok whole) (uncut : whole < Word.last) :
    tree.shape.offset.toNat ≤ path.address ∧
      path.address + path.byte < tree.shape.offset.toNat + whole := by
  induction path generalizing whole with
  | @leaf tree size element byte notStruct elementSized element_lt byte_lt =>
      have measured := (laidOut tree tree.self_mem_nodes).measured elementSized
      obtain rfl := measured.whole_eq sized
      have inside := element_lt_arrayExtent _ uncut element_lt byte_lt
      simp only [address, SourcePath.byte]
      omega
  | @member tree member size element struct elementSized element_lt isMember rest induction =>
      have node := laidOut tree tree.self_mem_nodes
      have measured := node.measured elementSized
      obtain rfl := measured.whole_eq sized
      obtain ⟨memberWhole, memberSized, member_end⟩ :=
        node.member_end_le struct elementSized isMember
      have fits := measured.size_lt_last
      obtain ⟨lower, upper⟩ := induction
        (fun _ below => laidOut _ (mem_nodes_of_mem_members below isMember)) memberSized (by omega)
      have inside := element_lt_arrayExtent _ uncut element_lt
        (Nat.lt_of_lt_of_le upper member_end)
      simp only [address, SourcePath.byte]
      omega

/-- Moving the origin by whole slots does not change a location. -/
theorem location_add_slots (origin : Nat) {slots : Nat} (aligned : slotBytes ∣ slots)
    (path : SourcePath matricesAsVectors tree) :
    path.location (origin + slots) = path.location origin := by
  obtain ⟨count, rfl⟩ := aligned
  have moved : (origin + slotBytes * count + path.address) % slotBytes =
      (origin + path.address) % slotBytes := by
    rw [Nat.add_right_comm, Nat.add_mul_mod_self_left]
  rw [location, location, moved]

/-- A type without members reports for a byte of one of its elements what the path to it says. -/
theorem leafLocation_eq (laidOut : WellLaidOut matricesAsVectors tree) {size element byte : Nat}
    (notStruct : tree.shape.variableClass ≠ .struct)
    (sized : tree.elementSize matricesAsVectors = .ok size)
    (element_lt : element < max 1 tree.shape.elements.toNat) (byte_lt : byte < size)
    (origin : Nat) :
    tree.leafLocation (origin + tree.shape.offset.toNat) (element * strideOf size + byte) =
      (leaf size element byte notStruct sized element_lt byte_lt).location origin := by
  have slots : (element * strideOf size + byte) / slotBytes =
      element * slotCount size + byte / slotBytes := by
    rw [strideOf, ← Nat.mul_assoc, Nat.add_comm, Nat.add_mul_div_right _ _ (by decide),
      Nat.add_comm]
  have slots_narrow (isNarrow : tree.shape.variableClass ∈ [VariableClass.scalar, .vector])
      (array : tree.shape.isArray) : (element * strideOf size + byte) / slotBytes = element := by
    have fits := laidOut.narrow size sized isNarrow array
    have one : slotCount size = 1 := by
      unfold slotCount slotBytes at *
      omega
    rw [slots, one, Nat.div_eq_of_lt (by omega), Nat.mul_one, Nat.add_zero]
  have numeric := laidOut.numeric
  unfold leafLocation location innermost indices address elementLevel VariableClass.isMatrix
  cases variableClass : tree.shape.variableClass <;> rw [variableClass] at numeric slots_narrow
  case struct => exact absurd variableClass notStruct
  case matrixRows | matrixColumns => simp [variableClass, slots]
  case scalar =>
    cases array : tree.shape.isArray with
    | true => simp [variableClass, array, slots_narrow _ array]
    | false => simp [variableClass, array]
  case vector =>
    cases array : tree.shape.isArray with
    | true => simp [variableClass, array, slots_narrow _ array]
    | false =>
        obtain rfl := element_eq_zero array element_lt
        simp [variableClass, array]
  all_goals contradiction

/-- A member turns down the bytes from the start of a later member on. -/
theorem search_of_precedes {earlier member : LayoutTree Label}
    (laidOut : WellLaidOut matricesAsVectors earlier)
    (precedes : Precedes matricesAsVectors earlier member) {start target : Nat}
    (reached : start + member.shape.offset.toNat ≤ target) :
    search matricesAsVectors start target earlier = .ok none := by
  obtain ⟨size, sized, -⟩ := laidOut.sized
  obtain ⟨whole, computed, before⟩ := precedes
  have measured := laidOut.measured sized
  obtain rfl := measured.whole_eq computed
  refine search_outside measured ?_
  rw [covers_iff, Word.saturatingAdd]
  omega

/-- If one member of a struct has a byte, the members before it do not. -/
theorem searchMembers_of_mem (laidOut : WellLaidOut matricesAsVectors tree)
    (members : ∀ member ∈ tree.members, WellLaidOut matricesAsVectors member)
    (struct : tree.shape.variableClass = .struct) {member : LayoutTree Label}
    (isMember : member ∈ tree.members) {start target : Nat} {found : Location Label}
    (reached : start + member.shape.offset.toNat ≤ target)
    (located : search matricesAsVectors start target member = .ok (some found)) :
    searchMembers matricesAsVectors start target tree.members = .ok (some found) := by
  obtain ⟨before, after, split⟩ := List.append_of_mem isMember
  have precedes := laidOut.pairwise_precedes struct
  rw [split] at precedes members ⊢
  refine searchMembers_of_first (fun earlier isEarlier => ?_) located after
  have ahead : Precedes matricesAsVectors earlier member :=
    (List.pairwise_append.mp precedes).2.2 earlier isEarlier member List.mem_cons_self
  exact search_of_precedes (members earlier (List.mem_append_left _ isEarlier)) ahead reached

/-- The element number and the byte of an element can be read off a distance. -/
theorem divide_distance {size inner : Nat} (inner_lt : inner < size) (element : Nat) :
    (element * strideOf size + inner) % strideOf size = inner := by
  have fits : inner < strideOf size := Nat.lt_of_lt_of_le inner_lt (le_slotCount_mul size)
  rw [Nat.mul_comm, Nat.mul_add_mod, Nat.mod_eq_of_lt fits]

/-- A struct that is laid out well reports the number of the element. -/
theorem structLevel_eq (laidOut : WellLaidOut matricesAsVectors tree) {size element inner : Nat}
    (struct : tree.shape.variableClass = .struct)
    (sized : tree.elementSize matricesAsVectors = .ok size) (inner_lt : inner < size) :
    tree.shape.structLevel size (element * strideOf size + inner) =
      elementLevel element tree.shape := by
  unfold Shape.structLevel elementLevel
  cases array : tree.shape.isArray with
  | false => rfl
  | true =>
      rw [strideOf_of_dvd (laidOut.aligned size sized struct array), Nat.mul_comm,
        Nat.mul_add_div (Nat.zero_lt_of_lt inner_lt), Nat.div_eq_of_lt inner_lt, Nat.add_zero]

/-- The search for the byte of a path gives the location of the path. -/
theorem search_path (path : SourcePath matricesAsVectors tree)
    (laidOut : ∀ node ∈ tree.nodes, WellLaidOut matricesAsVectors node) {base whole : Nat}
    (sized : tree.wholeSize matricesAsVectors = .ok whole)
    (fits : base + tree.shape.offset.toNat + whole < Word.last) :
    search matricesAsVectors base (base + path.address + path.byte) tree =
      .ok (some (path.location base)) := by
  induction path generalizing base whole with
  | @leaf tree size element byte notStruct elementSized element_lt byte_lt =>
      have node := laidOut tree tree.self_mem_nodes
      have measured := node.measured elementSized
      obtain rfl := measured.whole_eq sized
      have inside := element_lt_arrayExtent (strideOf size) (by omega) element_lt byte_lt
      have start_eq : Word.saturatingAdd base tree.shape.offset.toNat =
          base + tree.shape.offset.toNat := Word.saturatingAdd_of_le (by omega)
      have target_eq : base + (tree.shape.offset.toNat + element * strideOf size) + byte =
          base + tree.shape.offset.toNat + (element * strideOf size + byte) := by omega
      simp only [address, SourcePath.byte, target_eq]
      rw [search_leaf measured (by rw [start_eq, covers_iff]; omega) notStruct, start_eq,
        Nat.add_sub_cancel_left, leafLocation_eq node notStruct elementSized element_lt byte_lt]
  | @member tree member size element struct elementSized element_lt isMember rest induction =>
      have node := laidOut tree tree.self_mem_nodes
      have measured := node.measured elementSized
      obtain rfl := measured.whole_eq sized
      have below : ∀ inner ∈ member.nodes, WellLaidOut matricesAsVectors inner :=
        fun _ below => laidOut _ (mem_nodes_of_mem_members below isMember)
      have uncut := measured.size_lt_last
      obtain ⟨memberWhole, memberSized, member_end⟩ :=
        node.member_end_le struct elementSized isMember
      obtain ⟨lower, upper⟩ := rest.address_bounds below memberSized (by omega)
      have inner_lt : rest.address + rest.byte < size := by omega
      have inside := element_lt_arrayExtent (strideOf size) (by omega) element_lt inner_lt
      have size_le : size ≤ tree.shape.arrayExtent size (strideOf size) :=
        Shape.size_le_arrayExtent (Nat.le_of_lt uncut)
      have start_eq : Word.saturatingAdd base tree.shape.offset.toNat =
          base + tree.shape.offset.toNat := Word.saturatingAdd_of_le (by omega)
      -- The member is found at the byte folded into the first element.
      have located : search matricesAsVectors (base + tree.shape.offset.toNat)
          (base + tree.shape.offset.toNat + rest.address + rest.byte) member =
            .ok (some (rest.location (base + tree.shape.offset.toNat))) :=
        induction below memberSized (by omega)
      have inner := searchMembers_of_mem node
        (fun member isMember => laidOut _ (mem_nodes_of_mem_members member.self_mem_nodes isMember))
        struct isMember (by omega) located
      have target_eq : base + (tree.shape.offset.toNat + element * strideOf size + rest.address) +
          rest.byte = base + tree.shape.offset.toNat +
            (element * strideOf size + (rest.address + rest.byte)) := by omega
      have covers : Covers (base + tree.shape.offset.toNat)
          (tree.shape.arrayExtent size (strideOf size)) (base + tree.shape.offset.toNat +
            (element * strideOf size + (rest.address + rest.byte))) := by
        rw [covers_iff]
        omega
      simp only [address, SourcePath.byte, target_eq]
      rw [search_struct measured start_eq covers struct (by omega), Nat.add_sub_cancel_left,
        divide_distance inner_lt, structLevel_eq node struct elementSized inner_lt,
        ← Nat.add_assoc, inner]
      have moved := rest.location_add_slots (base + tree.shape.offset.toNat)
        (Nat.dvd_mul_left_of_dvd (slotBytes_dvd_strideOf size) element)
      rw [← moved]
      simp only [location, innermost, indices, address, enclose, Location.within,
        ← Nat.add_assoc]
      rfl

end SourcePath
end ShaderInterface
