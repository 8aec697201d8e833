import ShaderInterface.Proofs.Buffer.Scan
import ShaderInterface.Proofs.Buffer.TypeTable

/-!
# Growing buffers

Another variable puts its types behind all types that a buffer already has, and no row of the type
table that was there before is touched. What the numbers in use stand for stays the same, and the
new variable is asked only for the bytes in which nothing was found before.
-/

namespace ShaderInterface

open LayoutTree

/-- The scan goes on to further variables only if none of the first ones has the byte. -/
theorem resolveAmong_append (flags : LayoutFlags) (byteOffset : UInt32)
    (front back : List (Declared BufferVariable)) :
    resolveAmong flags byteOffset (front ++ back) = (do
      match ← resolveAmong flags byteOffset front with
      | some resolution => return some resolution
      | none => resolveAmong flags byteOffset back) := by
  induction front with
  | nil => rfl
  | cons holder rest induction =>
      rw [List.cons_append, resolveAmong, resolveAmong, bind_assoc]
      refine bind_congr fun found => ?_
      cases found with
      | none => exact induction
      | some location => rfl

theorem value_resolveAmong_singleton (flags : LayoutFlags) (byteOffset : UInt32)
    (holder : Declared BufferVariable) :
    (resolveAmong flags byteOffset [holder]).run.value =
      Option.map (Resolution.mk holder) <$>
        (holder.entry.type.locate flags holder.entry.start byteOffset).run.value := by
  rw [value_resolveAmong_cons, PlacedType.value_locate, BufferVariable.find, map_eq_pure_bind]
  refine bind_congr fun found => ?_
  cases found <;> rfl

/-- What would follow if nothing was found plays no part once a query has found something or has
stopped. -/
theorem bind_congr_of_settled {Found Value : Type} {query : LayoutQuery (Option Found)}
    {next other : Option Found → LayoutQuery Value} (settled : query.run.value ≠ .ok none)
    (same : ∀ found, next (some found) = other (some found)) :
    query >>= next = query >>= other := by
  apply ExceptT.ext
  rw [ExceptT.run_bind, ExceptT.run_bind]
  cases answered : query.run with
  | mk value events =>
      rw [answered] at settled
      cases value with
      | error failure => rfl
      | ok found =>
          cases found with
          | none => exact absurd rfl settled
          | some found => exact congrArg (_ >>= fun _ => ·) (same found)

namespace ConstantBuffer

/-- The buffer with further variables, pushed one after the other. -/
def pushAll (further : List VariableDeclaration) (buffer : ConstantBuffer) : ConstantBuffer :=
  further.foldl (fun buffer declaration => buffer.push declaration) buffer

theorem pushAll_ofDeclarations (name : String) (bindPoint : UInt32)
    (declarations further : List VariableDeclaration) :
    (ofDeclarations name bindPoint declarations).pushAll further =
      ofDeclarations name bindPoint (declarations ++ further) :=
  (List.foldl_append).symm

/-- A buffer that begins with the variables of another one. -/
structure Extends (buffer grown : ConstantBuffer) : Prop where
  /-- The name stays. -/
  name_eq : grown.name = buffer.name
  /-- The variables stay in front. -/
  entries_prefix : buffer.entries <+: grown.entries

theorem extends_push (declaration : VariableDeclaration) (buffer : ConstantBuffer) :
    buffer.Extends (buffer.push declaration) :=
  ⟨rfl, List.prefix_append ..⟩

theorem extends_pushAll (further : List VariableDeclaration) (buffer : ConstantBuffer) :
    buffer.Extends (buffer.pushAll further) := by
  induction further generalizing buffer with
  | nil => exact ⟨rfl, List.prefix_rfl⟩
  | cons declaration rest induction =>
      have step := extends_push declaration buffer
      have later := induction (buffer.push declaration)
      exact ⟨later.name_eq.trans step.name_eq, step.entries_prefix.trans later.entries_prefix⟩

theorem rootFrom_le (types : List PlacedType) (id : Nat) : rootFrom types id ≤ id := by
  fun_induction rootFrom types id with
  | case1 => exact Nat.le_refl _
  | case2 => exact Nat.le_refl _
  | case3 _ _ _ _ _ before induction => exact Nat.le_trans induction (Nat.le_of_lt before)
  | case4 => exact Nat.le_refl _

/-- Following parents stays among the types with smaller numbers. -/
theorem rootFrom_of_prefix {types grown : List PlacedType} (kept : types <+: grown) {id : Nat}
    (inside : id < types.length) : rootFrom grown id = rootFrom types id := by
  induction id using Nat.strong_induction_on with
  | _ id induction =>
      have same : grown[id]? = types[id]? := by
        rw [List.prefix_iff_getElem?.mp kept id inside, List.getElem?_eq_getElem inside]
      rw [rootFrom, rootFrom.eq_1 types, same]
      cases types[id]? with
      | none => rfl
      | some type =>
          dsimp only
          cases type.label.parent with
          | none => rfl
          | some parent =>
              refine ite_congr rfl (fun before => ?_) fun _ => rfl
              exact induction parent before (Nat.lt_trans before inside)

/-- The variables of a grown buffer that were not in the first one. -/
def newcomers (buffer grown : ConstantBuffer) : List (Declared BufferVariable) :=
  (Declared.all grown.entries).drop buffer.entries.length

namespace Extends

variable {buffer grown : ConstantBuffer} {flags : LayoutFlags} {slot : UInt32} {swizzle : Swizzle}

theorem types_prefix (kept : buffer.Extends grown) : buffer.types <+: grown.types := by
  obtain ⟨further, split⟩ := kept.entries_prefix
  rw [types, types, ← split, List.flatMap_append]
  exact List.prefix_append ..

theorem type?_eq (kept : buffer.Extends grown) {id : Nat} (inside : id < buffer.typeCount) :
    grown.type? id = buffer.type? id := by
  rw [type?, type?, List.prefix_iff_getElem?.mp kept.types_prefix id inside,
    List.getElem?_eq_getElem inside]

theorem rootOf_eq (kept : buffer.Extends grown) {id : Nat} (inside : id < buffer.typeCount) :
    grown.rootOf id = buffer.rootOf id :=
  rootFrom_of_prefix kept.types_prefix inside

/-- A dynamic index counts the slots of the same variable as before. -/
theorem indexedName_eq (kept : buffer.Extends grown) {type : PlacedType}
    (inside : type.label.id < buffer.typeCount) (indices : List Nat) (dynamic : DynamicIndex)
    (matricesAsVectors : Bool) :
    grown.indexedName type indices dynamic matricesAsVectors =
      buffer.indexedName type indices dynamic matricesAsVectors := by
  have slots : grown.rootSlots matricesAsVectors type =
      buffer.rootSlots matricesAsVectors type := by
    have root_lt : buffer.rootOf type.label.id < buffer.typeCount :=
      Nat.lt_of_le_of_lt (rootFrom_le buffer.types type.label.id) inside
    rw [rootSlots, rootSlots, kept.rootOf_eq inside, kept.type?_eq root_lt]
  rw [indexedName, indexedName, slots]

theorem all_entries_eq (kept : buffer.Extends grown) :
    Declared.all grown.entries = Declared.all buffer.entries ++ newcomers buffer grown := by
  obtain ⟨further, split⟩ := kept.entries_prefix
  simp [newcomers, Declared.all, ← split, List.zipIdx_append]

theorem resolve_eq (kept : buffer.Extends grown)
    (settled : (buffer.resolve slot swizzle flags).run.value ≠ .ok none) :
    grown.resolve slot swizzle flags = buffer.resolve slot swizzle flags := by
  rw [value_resolve] at settled
  rw [resolve, resolve]
  cases selected : Swizzle.byteOffset? slot swizzle with
  | none => rfl
  | some byteOffset =>
      simp only [selected] at settled
      dsimp only
      rw [kept.all_entries_eq, resolveAmong_append, bind_assoc]
      refine bind_congr_of_settled settled fun resolution => ?_
      rw [pure_bind, resolutionEvent, resolutionEvent, kept.name_eq]

theorem value_resolve_of_missed (kept : buffer.Extends grown) {byteOffset : UInt32}
    (selected : Swizzle.byteOffset? slot swizzle = some byteOffset)
    (missed : (buffer.resolve slot swizzle flags).run.value = .ok none) :
    (grown.resolve slot swizzle flags).run.value =
      (resolveAmong flags byteOffset (newcomers buffer grown)).run.value := by
  simp only [value_resolve, selected] at missed ⊢
  rw [kept.all_entries_eq, resolveAmong_append, value_run_bind, missed]
  rfl

end Extends

theorem newcomers_push (declaration : VariableDeclaration) (buffer : ConstantBuffer) :
    newcomers buffer (buffer.push declaration) =
      [⟨buffer.entries.length, buffer.nextVariable declaration⟩] := by
  simp [newcomers, push, Declared.all, List.zipIdx_append]

theorem read_of_type? {name : String} {bindPoint : UInt32}
    {declarations : List VariableDeclaration} {id : Nat} {type : PlacedType}
    (found : (ofDeclarations name bindPoint declarations).type? id = some type) :
    type.label.id = id ∧
      TypeTable.read (ofDeclarations name bindPoint declarations).table id = some type := by
  have linked := linked_ofDeclarations name bindPoint declarations
  obtain rfl := id_of_getElem? found
  exact ⟨rfl, TypeTable.read_table linked type (List.mem_of_getElem? found)⟩

/-- The type of a pushed variable is read from the first new row. -/
theorem read_push (name : String) (bindPoint : UInt32) (declarations : List VariableDeclaration)
    (declaration : VariableDeclaration) :
    let buffer := ofDeclarations name bindPoint declarations
    TypeTable.read (buffer.push declaration).table buffer.typeCount =
      some (declaration.type.place none buffer.typeCount) := by
  intro buffer
  have pushed : buffer.push declaration =
      ofDeclarations name bindPoint (declarations ++ [declaration]) :=
    pushAll_ofDeclarations name bindPoint declarations [declaration]
  have found : (buffer.push declaration).type? buffer.typeCount =
      some (declaration.type.place none buffer.typeCount) := by
    rw [type?, types_push, nodes_eq_cons, typeCount, List.getElem?_append_right (Nat.le_refl _),
      Nat.sub_self]
    rfl
  rw [pushed] at found ⊢
  exact (read_of_type? found).2

/-- The answer to a question about the type with a number, as it is read from the type table. -/
def ask {Answer : Type} (question : PlacedType → Answer) (id : Nat) (buffer : ConstantBuffer) :
    Option Answer :=
  (TypeTable.read buffer.table id).map question

/-- What is known about a buffer and its types stays known when the buffer grows. -/
structure Keeps (buffer grown : ConstantBuffer) : Prop where
  /-- No row of the type table changes. -/
  row_eq : ∀ id < buffer.typeCount, grown.table[id]? = buffer.table[id]?
  /-- Each number in use is answered for by the same type. -/
  read_eq : ∀ id < buffer.typeCount, ∃ type : PlacedType, type.label.id = id ∧
    buffer.type? id = some type ∧ TypeTable.read buffer.table id = some type ∧
    grown.type? id = some type ∧ TypeTable.read grown.table id = some type
  packedSize_eq : ∀ id < buffer.typeCount, ∀ matricesAsVectors whole,
    grown.ask (·.packedSize matricesAsVectors whole) id =
      buffer.ask (·.packedSize matricesAsVectors whole) id
  locate_eq : ∀ id < buffer.typeCount, ∀ flags base target,
    grown.ask (·.locate flags base target) id = buffer.ask (·.locate flags base target) id
  rootOf_eq : ∀ id < buffer.typeCount, grown.rootOf id = buffer.rootOf id
  fullName_eq : ∀ id < buffer.typeCount,
    grown.ask (·.label.fullName) id = buffer.ask (·.label.fullName) id
  indexedName_eq : ∀ id < buffer.typeCount, ∀ indices dynamic matricesAsVectors,
    grown.ask (grown.indexedName · indices dynamic matricesAsVectors) id =
      buffer.ask (buffer.indexedName · indices dynamic matricesAsVectors) id
  /-- An access that was resolved, or that stopped at an overflow, still ends in the same way. -/
  resolve_eq : ∀ slot swizzle flags, (buffer.resolve slot swizzle flags).run.value ≠ .ok none →
    grown.resolve slot swizzle flags = buffer.resolve slot swizzle flags

/-- Following the member numbers from a number in use gives the same type before and after. -/
theorem exists_read_pushAll (name : String) (bindPoint : UInt32)
    (declarations further : List VariableDeclaration) {id : Nat}
    (inside : id < (ofDeclarations name bindPoint declarations).typeCount) :
    let buffer := ofDeclarations name bindPoint declarations
    let grown := buffer.pushAll further
    ∃ type : PlacedType, type.label.id = id ∧
      buffer.type? id = some type ∧ TypeTable.read buffer.table id = some type ∧
      grown.type? id = some type ∧ TypeTable.read grown.table id = some type := by
  intro buffer grown
  have found : buffer.type? id = some buffer.types[id] := List.getElem?_eq_getElem inside
  have still : grown.type? id = some buffer.types[id] :=
    ((extends_pushAll further buffer).type?_eq inside).trans found
  obtain ⟨numbered, read⟩ := read_of_type? found
  refine ⟨_, numbered, found, read, still, ?_⟩
  have regrown : grown = ofDeclarations name bindPoint (declarations ++ further) :=
    pushAll_ofDeclarations name bindPoint declarations further
  rw [regrown] at still ⊢
  exact (read_of_type? still).2

theorem keeps_pushAll (name : String) (bindPoint : UInt32)
    (declarations further : List VariableDeclaration) :
    let buffer := ofDeclarations name bindPoint declarations
    buffer.Keeps (buffer.pushAll further) := by
  intro buffer
  have kept := extends_pushAll further buffer
  have answered {Answer : Type} (question : PlacedType → Answer) (id : Nat)
      (inside : id < buffer.typeCount) :
      (buffer.pushAll further).ask question id = buffer.ask question id := by
    obtain ⟨type, -, -, read, -, reread⟩ :=
      exists_read_pushAll name bindPoint declarations further inside
    rw [ask, ask, read, reread]
  exact {
    row_eq := fun id inside => by
      rw [table, table, List.getElem?_map, List.getElem?_map]
      exact congrArg (Option.map PlacedType.row) (kept.type?_eq inside)
    read_eq := fun id inside => exists_read_pushAll name bindPoint declarations further inside
    packedSize_eq := fun id inside _ _ => answered _ id inside
    locate_eq := fun id inside _ _ _ => answered _ id inside
    rootOf_eq := fun id inside => kept.rootOf_eq inside
    fullName_eq := fun id inside => answered _ id inside
    indexedName_eq := fun id inside indices dynamic matricesAsVectors => by
      obtain ⟨type, numbered, -, read, -, reread⟩ :=
        exists_read_pushAll name bindPoint declarations further inside
      rw [ask, ask, read, reread, Option.map_some, Option.map_some,
        kept.indexedName_eq (numbered ▸ inside)]
    resolve_eq := fun _ _ _ settled => kept.resolve_eq settled }

/-- Pushing variables inserts their types behind those in the table and changes nothing that is
known about a buffer. Only an access to which nothing was found is resolved anew, in the pushed
variables alone, and a single one of them is searched as it would be searched by itself. -/
theorem pushAll_conservative (name : String) (bindPoint : UInt32)
    (declarations further : List VariableDeclaration) :
    let buffer := ofDeclarations name bindPoint declarations
    let grown := buffer.pushAll further
    grown.table = (further.map (·.type)).foldl (TypeTable.insert none) buffer.table ∧
    buffer.Keeps grown ∧
    (∀ (slot : UInt32) (swizzle : Swizzle) (flags : LayoutFlags), 0x10000000 ≤ slot.toNat →
      (grown.resolve slot swizzle flags).run = ⟨.ok none, []⟩) ∧
    (∀ (slot : UInt32) (swizzle : Swizzle) (flags : LayoutFlags), slot.toNat < 0x10000000 →
      (buffer.resolve slot swizzle flags).run.value = .ok none →
        ∃ byteOffset : UInt32, byteOffset.toNat = 16 * slot.toNat + swizzle.firstByte.toNat ∧
          (grown.resolve slot swizzle flags).run.value =
            (resolveAmong flags byteOffset (newcomers buffer grown)).run.value) ∧
    ∀ (declaration : VariableDeclaration) (slot : UInt32) (swizzle : Swizzle)
      (flags : LayoutFlags), slot.toNat < 0x10000000 →
      (buffer.resolve slot swizzle flags).run.value = .ok none →
        ∃ (byteOffset : UInt32) (type : PlacedType),
          byteOffset.toNat = 16 * slot.toNat + swizzle.firstByte.toNat ∧
          TypeTable.read (buffer.push declaration).table buffer.typeCount = some type ∧
          type.description = declaration.type ∧
          ((buffer.push declaration).resolve slot swizzle flags).run.value =
            Option.map (Resolution.mk ⟨buffer.entries.length,
              ⟨declaration.type.label.name, declaration.start, declaration.size, type⟩⟩) <$>
                (type.locate flags declaration.start byteOffset).run.value := by
  intro buffer grown
  have kept : buffer.Extends grown := extends_pushAll further buffer
  refine ⟨table_foldl_push further buffer, keeps_pushAll name bindPoint declarations further,
    fun _ _ _ => run_resolve_of_beyond, ?_, ?_⟩
  · intro slot swizzle flags inside missed
    have selected := Swizzle.byteOffset?_of_lt inside swizzle
    exact ⟨_, Swizzle.toNat_of_byteOffset? selected, kept.value_resolve_of_missed selected missed⟩
  · intro declaration slot swizzle flags inside missed
    have step := extends_push declaration buffer
    have selected := Swizzle.byteOffset?_of_lt inside swizzle
    refine ⟨_, _, Swizzle.toNat_of_byteOffset? selected,
      read_push name bindPoint declarations declaration,
      TypeDescription.description_place none buffer.typeCount declaration.type, ?_⟩
    rw [step.value_resolve_of_missed selected missed, newcomers_push,
      value_resolveAmong_singleton]
    rfl

/-- A struct with a member whose size overflows, and an array behind it. -/
def fogDeclarations : List VariableDeclaration :=
  [⟨16, 32, .struct "fog" 0 [.vector "density" 0 0x40000000, .vector "colour" 16 3]⟩,
    ⟨64, 32, .array 2 (.vector "rows" 0 4)⟩]

/-- A vector in the middle of a slot, and an array that covers all bytes of `fogDeclarations`. -/
def laterDeclarations : List VariableDeclaration :=
  [⟨0, 16, .vector "axis" 4 2⟩, ⟨0, 128, .array 8 (.vector "every" 0 4)⟩]

theorem pushAll_conservative_fogDeclarations :
    let buffer := ofDeclarations "Fog" 0 fogDeclarations
    let grown := buffer.pushAll laterDeclarations
    let axis : VariableDeclaration := ⟨0, 16, .vector "axis" 4 2⟩
    (2 < buffer.typeCount ∧ grown.table[2]? = buffer.table[2]? ∧
      grown.ask (·.packedSize false true) 2 = buffer.ask (·.packedSize false true) 2 ∧
      grown.rootOf 2 = buffer.rootOf 2) ∧
    (0x10000000 ≤ (0x10000000 : UInt32).toNat ∧
      (grown.resolve 0x10000000 .identity ⟨0⟩).run = ⟨.ok none, []⟩) ∧
    (∃ failure, (buffer.resolve 1 .identity ⟨0⟩).run.value = .error failure ∧
      grown.resolve 1 .identity ⟨0⟩ = buffer.resolve 1 .identity ⟨0⟩) ∧
    (∃ answer, (buffer.resolve 5 .identity ⟨0⟩).run.value = .ok answer ∧
      answer.map (·.holder.position) = some 1 ∧
      grown.resolve 5 .identity ⟨0⟩ = buffer.resolve 5 .identity ⟨0⟩) ∧
    (0 : UInt32).toNat < 0x10000000 ∧
    (buffer.resolve 0 (.splat 1) ⟨0⟩).run.value = .ok none ∧
    (∃ byteOffset : UInt32, byteOffset.toNat = 4 ∧
      (grown.resolve 0 (.splat 1) ⟨0⟩).run.value =
        (resolveAmong ⟨0⟩ byteOffset (newcomers buffer grown)).run.value) ∧
    ∃ (byteOffset : UInt32) (type : PlacedType), byteOffset.toNat = 4 ∧
      TypeTable.read (buffer.push axis).table 4 = some type ∧
      type.description = .vector "axis" 4 2 ∧
      ((buffer.push axis).resolve 0 (.splat 1) ⟨0⟩).run.value =
        Option.map (Resolution.mk ⟨2, ⟨"axis", 0, 16, type⟩⟩) <$>
          (type.locate ⟨0⟩ 0 byteOffset).run.value := by
  intro buffer grown axis
  have inside : 2 < buffer.typeCount := by decide
  have beyond : 0x10000000 ≤ (0x10000000 : UInt32).toNat := by decide
  have low : (0 : UInt32).toNat < 0x10000000 := by decide
  have stopped : ∃ failure, (buffer.resolve 1 .identity ⟨0⟩).run.value = .error failure := by
    cbv
    exact ⟨_, rfl⟩
  have resolved : ∃ answer, (buffer.resolve 5 .identity ⟨0⟩).run.value = .ok (some answer) ∧
      answer.holder.position = 1 := by
    cbv
    exact ⟨_, rfl, rfl⟩
  have missed : (buffer.resolve 0 (.splat 1) ⟨0⟩).run.value = .ok none := by
    cbv
  obtain ⟨failure, stopped⟩ := stopped
  obtain ⟨answer, resolved, position⟩ := resolved
  obtain ⟨-, keeps, nowhere, further, single⟩ :=
    pushAll_conservative "Fog" 0 fogDeclarations laterDeclarations
  have stops : grown.resolve 1 .identity ⟨0⟩ = buffer.resolve 1 .identity ⟨0⟩ := by
    apply keeps.resolve_eq
    rw [stopped]
    rintro ⟨⟩
  have resolves : grown.resolve 5 .identity ⟨0⟩ = buffer.resolve 5 .identity ⟨0⟩ := by
    apply keeps.resolve_eq
    rw [resolved]
    rintro ⟨⟩
  exact ⟨⟨inside, keeps.row_eq 2 inside, keeps.packedSize_eq 2 inside false true,
      keeps.rootOf_eq 2 inside⟩, ⟨beyond, nowhere _ _ _ beyond⟩, ⟨failure, stopped, stops⟩,
    ⟨some answer, resolved, congrArg some position, resolves⟩, low, missed,
    further 0 (.splat 1) ⟨0⟩ low missed, single axis 0 (.splat 1) ⟨0⟩ low missed⟩

end ConstantBuffer
end ShaderInterface
