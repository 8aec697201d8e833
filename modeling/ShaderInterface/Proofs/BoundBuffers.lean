import Mathlib.Data.List.Induction
import ShaderInterface.Proofs.Selection
import ShaderInterface.Shader

/-!
# Bound constant buffers

Several constant buffers may be declared for one register, and the last of them is bound there. The
slot table is filled once, buffer by buffer, and nothing that happens to a shader later reaches it.
-/

namespace ShaderInterface

open Declared

/-- An earlier buffer is declared for the register of the buffer. -/
def takesOver (buffers : List ConstantBuffer) (buffer : Declared ConstantBuffer) : Bool :=
  (buffers.take buffer.position).any (·.bindPoint = buffer.entry.bindPoint)

/-- The buffers that take over a register, in declaration order. -/
def takeovers (buffers : List ConstantBuffer) : List (Declared ConstantBuffer) :=
  (all buffers).filter (takesOver buffers)

/-- The report that a buffer takes over a register. -/
def takeoverEvent (buffer : Declared ConstantBuffer) : Event :=
  .bufferRedeclared buffer.entry.bindPoint buffer.entry.name

/-- A further buffer takes over its own register at most. -/
theorem takeovers_concat (front : List ConstantBuffer) (final : ConstantBuffer) :
    takeovers (front ++ [final]) =
      takeovers front ++
        if final.bindPoint ∈ front.map (·.bindPoint) then [⟨front.length, final⟩] else [] := by
  have earlier : ∀ buffer ∈ all front,
      takesOver (front ++ [final]) buffer = takesOver front buffer := by
    intro buffer isDeclared
    have inside := Nat.le_of_lt (position_lt_length isDeclared)
    rw [takesOver, takesOver, List.take_append_of_le_length inside]
  have taken : takesOver (front ++ [final]) ⟨front.length, final⟩ =
      decide (final.bindPoint ∈ front.map (·.bindPoint)) := by
    simp [takesOver, List.any_eq]
  rw [takeovers, all_concat, List.filter_append, List.filter_congr earlier, List.filter_singleton,
    taken]
  by_cases inUse : final.bindPoint ∈ front.map (·.bindPoint) <;> simp [inUse, takeovers]

/-- Every buffer takes over a register or is the first one there. -/
theorem length_takeovers (buffers : List ConstantBuffer) :
    (takeovers buffers).length + (buffers.map (·.bindPoint)).toFinset.card = buffers.length := by
  induction buffers using List.reverseRecOn with
  | nil => rfl
  | append_singleton front final induction =>
      rw [takeovers_concat, List.map_append, List.map_singleton, card_toFinset_concat,
        List.length_append, List.length_append, List.length_singleton, ← induction]
      split <;> simp <;> omega

namespace SlotTable

/-- The table leads to the last buffer of each register, and each takeover is reported. -/
structure Holds (buffers : List ConstantBuffer) (filled : Logged SlotTable) : Prop where
  /-- A register in use has the position of the last buffer declared for it. -/
  slot_eq : ∀ bindPoint : UInt32, filled.value[bindPoint]? =
    (last? (·.bindPoint = bindPoint) buffers).map position
  /-- The takeovers are reported in declaration order. -/
  events_eq : filled.events = (takeovers buffers).map takeoverEvent

theorem value_enter (slots : SlotTable) (buffer : Declared ConstantBuffer) :
    (slots.enter buffer).value = slots.insert buffer.entry.bindPoint buffer.position := by
  rw [enter]
  split <;> rfl

theorem events_enter (slots : SlotTable) (buffer : Declared ConstantBuffer) :
    (slots.enter buffer).events =
      if slots.contains buffer.entry.bindPoint then [takeoverEvent buffer] else [] := by
  rw [enter]
  split <;> rfl

theorem Holds.contains_iff {buffers : List ConstantBuffer} {filled : Logged SlotTable}
    (holds : Holds buffers filled) (bindPoint : UInt32) :
    filled.value.contains bindPoint ↔ bindPoint ∈ buffers.map (·.bindPoint) := by
  have free : filled.value[bindPoint]? = none ↔ bindPoint ∉ buffers.map (·.bindPoint) := by
    rw [holds.slot_eq, Option.map_eq_none_iff, last?_eq_none_iff]
    simp
  rw [Std.HashMap.contains_eq_isSome_getElem?, ← not_iff_not, ← free, Bool.not_eq_true,
    Option.isSome_eq_false_iff, Option.isNone_iff_eq_none]

theorem Holds.enter {front : List ConstantBuffer} {filled : Logged SlotTable}
    (holds : Holds front filled) (final : ConstantBuffer) :
    Holds (front ++ [final]) (filled >>= (SlotTable.enter · ⟨front.length, final⟩)) := by
  refine ⟨fun bindPoint => ?_, ?_⟩
  · rw [Logged.value_bind, value_enter, Std.HashMap.getElem?_insert, holds.slot_eq, last?_concat]
    by_cases same : final.bindPoint = bindPoint <;> simp [same]
  · rw [Logged.events_bind, events_enter, holds.events_eq, takeovers_concat, List.map_append]
    simp only [holds.contains_iff]
    split <;> rfl

/-- The slot table is filled as its list of buffers says. -/
theorem holds_ofBuffers (buffers : List ConstantBuffer) : Holds buffers (ofBuffers buffers) := by
  -- The buffer that is entered last replaces earlier ones, so it is the one to take off the list.
  induction buffers using List.reverseRecOn with
  | nil => exact ⟨fun bindPoint => Std.HashMap.getElem?_empty, rfl⟩
  | append_singleton front final induction =>
      have filled : ofBuffers (front ++ [final]) =
          ofBuffers front >>= (SlotTable.enter · ⟨front.length, final⟩) := by
        rw [ofBuffers, all_concat, List.foldlM_append]
        exact bind_congr fun slots => bind_pure _
      rw [filled]
      exact induction.enter final

/-- Going through the slot table gives the last buffer declared for a register. -/
theorem Holds.bind_at? {buffers : List ConstantBuffer} {filled : Logged SlotTable}
    (holds : Holds buffers filled) (bindPoint : UInt32) :
    filled.value[bindPoint]?.bind (at? buffers) = last? (·.bindPoint = bindPoint) buffers := by
  rw [holds.slot_eq]
  cases found : last? (·.bindPoint = bindPoint) buffers with
  | none => rfl
  | some buffer => exact at?_eq_some_iff.mpr ⟨(isLast_of_last? found).isDeclared, rfl⟩

end SlotTable

/-- What may happen to a shader after it is built. -/
inductive ShaderStep where
  | setThisBuffer (buffer : ConstantBuffer)
  | annotate (hints : PrecisionHints)

namespace Shader

variable {model : ShaderModel} {bindings : List Binding} {signatures : Signatures}
  {buffers : List ConstantBuffer} {built : Logged Shader} {bindPoint : UInt32}

/-- The shader after one more step. -/
def after (shader : Shader) : ShaderStep → Logged Shader
  | .setThisBuffer buffer => return shader.withThisBuffer buffer
  | .annotate hints => shader.annotate hints

/-- The shader after several steps. -/
def afterAll (steps : List ShaderStep) (shader : Shader) : Logged Shader :=
  steps.foldlM after shader

/-- A shader of a model whose constant buffers are declared and bound as in a list. -/
structure Binds (model : ShaderModel) (buffers : List ConstantBuffer) (shader : Shader) :
    Prop where
  model_eq : shader.model = model
  buffers_eq : shader.buffers = buffers
  slots_eq : shader.slots = (SlotTable.ofBuffers buffers).value

theorem Binds.after {shader : Shader} (binds : Binds model buffers shader) (step : ShaderStep) :
    Binds model buffers (shader.after step).value := by
  cases step with
  | setThisBuffer buffer => exact ⟨binds.model_eq, binds.buffers_eq, binds.slots_eq⟩
  | annotate hints => exact ⟨binds.model_eq, binds.buffers_eq, binds.slots_eq⟩

theorem Binds.afterAll {shader : Shader} (binds : Binds model buffers shader)
    (steps : List ShaderStep) : Binds model buffers (shader.afterAll steps).value := by
  induction steps generalizing shader with
  | nil => exact binds
  | cons step rest induction =>
      rw [Shader.afterAll, List.foldlM_cons, Logged.value_bind]
      exact induction (binds.after step)

/-- Only the bindings can stand in the way of a shader. -/
theorem build_eq_ok_iff :
    build model bindings signatures buffers = .ok built ↔
      ∃ table, BindingTable.ofList bindings = .ok table ∧
        built = ⟨⟨model, table, signatures, buffers, (SlotTable.ofBuffers buffers).value, none⟩,
          (SlotTable.ofBuffers buffers).events⟩ := by
  rw [build]
  cases BindingTable.ofList bindings with
  | error failure =>
      refine iff_of_false ?_ ?_
      · rintro ⟨⟩
      · rintro ⟨_, ⟨⟩, _⟩
  | ok table =>
      have filled : (do
          let slots ← SlotTable.ofBuffers buffers
          return (⟨model, table, signatures, buffers, slots, none⟩ : Shader)) =
          ⟨⟨model, table, signatures, buffers, (SlotTable.ofBuffers buffers).value, none⟩,
            (SlotTable.ofBuffers buffers).events⟩ :=
        Logged.ext rfl (List.append_nil _)
      constructor
      · intro accepted
        exact ⟨table, rfl, (Except.ok.inj accepted).symm.trans filled⟩
      · rintro ⟨_, ⟨⟩, rfl⟩
        exact congrArg Except.ok filled

theorem binds_of_build (accepted : build model bindings signatures buffers = .ok built) :
    Binds model buffers built.value := by
  obtain ⟨table, -, rfl⟩ := build_eq_ok_iff.mp accepted
  exact ⟨rfl, rfl, rfl⟩

theorem exists_build (accepted : build model bindings signatures buffers = .ok built)
    (others : List ConstantBuffer) :
    ∃ other, build model bindings signatures others = .ok other := by
  obtain ⟨table, listed, -⟩ := build_eq_ok_iff.mp accepted
  exact ⟨_, build_eq_ok_iff.mpr ⟨table, listed, rfl⟩⟩

section Queries

variable {slot : UInt32} {swizzle : Swizzle} {flags : LayoutFlags} {shader : Shader}

theorem resolveConstant_of_ok {buffer : Declared ConstantBuffer}
    (found : shader.constantBufferAt bindPoint = .ok buffer) :
    shader.resolveConstant bindPoint slot swizzle flags =
      .ok (buffer.entry.resolve slot swizzle flags) := by
  rw [resolveConstant, found]
  rfl

theorem resolveConstant_of_error {failure : QueryError}
    (failed : shader.constantBufferAt bindPoint = .error failure) :
    shader.resolveConstant bindPoint slot swizzle flags = .error failure := by
  rw [resolveConstant, failed]
  rfl

theorem Binds.constantBufferAt_of_some (binds : Binds model buffers shader)
    (available : 3 < model.major) {buffer : Declared ConstantBuffer}
    (found : last? (·.bindPoint = bindPoint) buffers = some buffer) :
    shader.constantBufferAt bindPoint = .ok buffer := by
  have declared : shader.model.hasConstantBuffers :=
    binds.model_eq ▸ decide_eq_true available
  rw [constantBufferAt, if_pos declared, binds.slots_eq, binds.buffers_eq,
    (SlotTable.holds_ofBuffers buffers).bind_at?, found]

theorem Binds.constantBufferAt_of_none (binds : Binds model buffers shader)
    (available : 3 < model.major) (absent : last? (·.bindPoint = bindPoint) buffers = none) :
    shader.constantBufferAt bindPoint = .error (.missingConstantBuffer bindPoint) := by
  have declared : shader.model.hasConstantBuffers :=
    binds.model_eq ▸ decide_eq_true available
  rw [constantBufferAt, if_pos declared, binds.slots_eq, binds.buffers_eq,
    (SlotTable.holds_ofBuffers buffers).bind_at?, absent]

theorem Binds.constantBufferAt_of_le (binds : Binds model buffers shader)
    (unavailable : model.major ≤ 3) (bindPoint : UInt32) :
    shader.constantBufferAt bindPoint =
      .error (.constantBuffersUnavailable model.major model.minor) := by
  have undeclared : ¬shader.model.hasConstantBuffers := by
    rw [binds.model_eq, ShaderModel.hasConstantBuffers, decide_eq_true_eq, UInt32.not_lt]
    exact unavailable
  rw [constantBufferAt, if_neg undeclared, binds.model_eq]

/-- An access to a register reads the buffer that was declared last for it and no other. -/
theorem Binds.resolveConstant_congr {others : List ConstantBuffer} {other : Shader}
    (binds : Binds model buffers shader) (binds' : Binds model others other)
    (same : (last? (·.bindPoint = bindPoint) buffers).map entry =
      (last? (·.bindPoint = bindPoint) others).map entry) :
    shader.resolveConstant bindPoint slot swizzle flags =
      other.resolveConstant bindPoint slot swizzle flags := by
  by_cases available : 3 < model.major
  · cases found : last? (·.bindPoint = bindPoint) buffers with
    | some buffer =>
        rw [found, Option.map_some, eq_comm, Option.map_eq_some_iff] at same
        obtain ⟨_, found', same⟩ := same
        rw [resolveConstant_of_ok (binds.constantBufferAt_of_some available found),
          resolveConstant_of_ok (binds'.constantBufferAt_of_some available found'), same]
    | none =>
        rw [found, Option.map_none, eq_comm, Option.map_eq_none_iff] at same
        rw [resolveConstant_of_error (binds.constantBufferAt_of_none available found),
          resolveConstant_of_error (binds'.constantBufferAt_of_none available same)]
  · have unavailable := UInt32.not_lt.mp available
    rw [resolveConstant_of_error (binds.constantBufferAt_of_le unavailable bindPoint),
      resolveConstant_of_error (binds'.constantBufferAt_of_le unavailable bindPoint)]

end Queries

/-- A shader that declares its constant buffers one by one binds the last one of each register there,
whatever happens to it later, and reads accesses from it alone. A buffer that is shadowed by a later
one is never read and might as well not be declared. Each buffer that takes over a register is
reported when the shader is built. -/
theorem constantBuffers_of_build
    (accepted : build model bindings signatures buffers = .ok built) :
    built.events = (takeovers buffers).map takeoverEvent ∧
    built.events.length + (buffers.map (·.bindPoint)).toFinset.card = buffers.length ∧
    (∀ steps : List ShaderStep,
      let shader := (built.value.afterAll steps).value
      (3 < model.major → ∀ bindPoint,
        (∃ buffer, IsLast (·.bindPoint = bindPoint) buffers buffer ∧
          shader.constantBufferAt bindPoint = .ok buffer ∧
          ∀ slot swizzle flags, shader.resolveConstant bindPoint slot swizzle flags =
            .ok (buffer.entry.resolve slot swizzle flags)) ∨
        (∀ buffer ∈ buffers, buffer.bindPoint ≠ bindPoint) ∧
          shader.constantBufferAt bindPoint = .error (.missingConstantBuffer bindPoint) ∧
          ∀ slot swizzle flags, shader.resolveConstant bindPoint slot swizzle flags =
            .error (.missingConstantBuffer bindPoint)) ∧
      (model.major ≤ 3 → ∀ bindPoint,
        shader.constantBufferAt bindPoint =
          .error (.constantBuffersUnavailable model.major model.minor) ∧
        ∀ slot swizzle flags, shader.resolveConstant bindPoint slot swizzle flags =
          .error (.constantBuffersUnavailable model.major model.minor))) ∧
    ∀ front shadowed back, buffers = front ++ shadowed :: back →
      (∃ later ∈ back, later.bindPoint = shadowed.bindPoint) →
        ∃ unshadowed, build model bindings signatures (front ++ back) = .ok unshadowed ∧
          ∀ steps otherSteps bindPoint slot swizzle flags,
            (built.value.afterAll steps).value.resolveConstant bindPoint slot swizzle flags =
              (unshadowed.value.afterAll otherSteps).value.resolveConstant bindPoint slot swizzle
                flags := by
  have reported : built.events = (takeovers buffers).map takeoverEvent := by
    obtain ⟨table, -, rfl⟩ := build_eq_ok_iff.mp accepted
    exact (SlotTable.holds_ofBuffers buffers).events_eq
  refine ⟨reported, ?_, fun steps => ⟨fun available bindPoint => ?_,
    fun unavailable bindPoint => ?_⟩, ?_⟩
  · rw [reported, List.length_map, length_takeovers]
  · have binds := (binds_of_build accepted).afterAll steps
    cases found : last? (·.bindPoint = bindPoint) buffers with
    | some buffer =>
        have bound := binds.constantBufferAt_of_some available found
        exact .inl ⟨buffer, isLast_of_last? found, bound, fun _ _ _ => resolveConstant_of_ok bound⟩
    | none =>
        have free : ∀ buffer ∈ buffers, buffer.bindPoint ≠ bindPoint := by
          simpa using last?_eq_none_iff.mp found
        have missing := binds.constantBufferAt_of_none available found
        exact .inr ⟨free, missing, fun _ _ _ => resolveConstant_of_error missing⟩
  · have failed := ((binds_of_build accepted).afterAll steps).constantBufferAt_of_le unavailable
      bindPoint
    exact ⟨failed, fun _ _ _ => resolveConstant_of_error failed⟩
  · rintro front shadowed back rfl ⟨later, isLater, sameRegister⟩
    obtain ⟨unshadowed, accepted'⟩ := exists_build accepted (front ++ back)
    refine ⟨unshadowed, accepted', fun steps otherSteps bindPoint _ _ _ => ?_⟩
    refine ((binds_of_build accepted).afterAll steps).resolveConstant_congr
      ((binds_of_build accepted').afterAll otherSteps) (entry_last?_of_shadowed fun requested => ?_)
    exact ⟨later, isLater, by simpa [sameRegister] using requested⟩

/-- Two buffers for one register with another one between them. -/
def sceneBuffers : List ConstantBuffer :=
  [.ofDeclarations "Scene" 2 [⟨0, 16, .vector "fog" 0 4⟩],
    .ofDeclarations "Object" 0 [⟨0, 16, .vector "tint" 0 4⟩],
    .ofDeclarations "Weather" 2 [⟨0, 16, .vector "rain" 0 3⟩]]

/-- A shader with the buffers of a scene, and the reports of its construction. -/
def sceneShader (model : ShaderModel) : Logged Shader :=
  let filled := SlotTable.ofBuffers sceneBuffers
  ⟨⟨model, ⟨[]⟩, ⟨[], [], []⟩, sceneBuffers, filled.value, none⟩, filled.events⟩

theorem constantBuffers_of_build_sceneBuffers :
    let weather : Declared ConstantBuffer := ⟨2, sceneBuffers[2]⟩
    let steps : List ShaderStep :=
      [.setThisBuffer sceneBuffers[0], .annotate (.ofList [("Albedo", .low)])]
    let shader := ((sceneShader ⟨5, 0⟩).value.afterAll steps).value
    let legacy := ((sceneShader ⟨3, 0⟩).value.afterAll steps).value
    (build ⟨5, 0⟩ [] ⟨[], [], []⟩ sceneBuffers = .ok (sceneShader ⟨5, 0⟩) ∧
      (sceneShader ⟨5, 0⟩).events = [.bufferRedeclared 2 "Weather"] ∧
      (3 : UInt32) < 5 ∧ shader.constantBufferAt 2 = .ok weather ∧
      shader.resolveConstant 2 0 .identity ⟨0⟩ =
        .ok (weather.entry.resolve 0 .identity ⟨0⟩) ∧
      shader.constantBufferAt 7 = .error (.missingConstantBuffer 7)) ∧
    (build ⟨3, 0⟩ [] ⟨[], [], []⟩ sceneBuffers = .ok (sceneShader ⟨3, 0⟩) ∧
      (3 : UInt32) ≤ 3 ∧ legacy.constantBufferAt 2 = .error (.constantBuffersUnavailable 3 0)) ∧
    sceneBuffers = [] ++ sceneBuffers[0] :: sceneBuffers.tail ∧
    (∃ later ∈ sceneBuffers.tail, later.bindPoint = sceneBuffers[0].bindPoint) ∧
    ∃ unshadowed, build ⟨5, 0⟩ [] ⟨[], [], []⟩ ([] ++ sceneBuffers.tail) = .ok unshadowed ∧
      shader.resolveConstant 2 0 .identity ⟨0⟩ =
        (unshadowed.value.afterAll []).value.resolveConstant 2 0 .identity ⟨0⟩ := by
  intro weather steps shader legacy
  have accepted : ∀ model, build model [] ⟨[], [], []⟩ sceneBuffers = .ok (sceneShader model) :=
    fun model => build_eq_ok_iff.mpr ⟨⟨[]⟩, rfl, rfl⟩
  have declaresBuffers : (3 : UInt32) < 5 := by decide
  have legacyModel : (3 : UInt32) ≤ 3 := by decide
  have split : sceneBuffers = [] ++ sceneBuffers[0] :: sceneBuffers.tail := rfl
  have later : ∃ later ∈ sceneBuffers.tail, later.bindPoint = sceneBuffers[0].bindPoint :=
    ⟨sceneBuffers[2], by simp [sceneBuffers], rfl⟩
  have last : IsLast (·.bindPoint = 2) sceneBuffers weather := isLast_of_last? rfl
  have free : ∀ buffer ∈ sceneBuffers, buffer.bindPoint ≠ 7 := by
    simpa using last?_eq_none_iff.mp (rfl : last? (·.bindPoint = 7) sceneBuffers = none)
  obtain ⟨reported, -, queries, shadows⟩ := constantBuffers_of_build (accepted ⟨5, 0⟩)
  obtain ⟨-, -, legacyQueries, -⟩ := constantBuffers_of_build (accepted ⟨3, 0⟩)
  obtain ⟨unshadowed, accepted', same⟩ := shadows _ _ _ split later
  have scene : shader.constantBufferAt 2 = .ok weather ∧
      shader.resolveConstant 2 0 .identity ⟨0⟩ = .ok (weather.entry.resolve 0 .identity ⟨0⟩) := by
    rcases (queries steps).1 declaresBuffers 2 with ⟨_, isLast, found, resolved⟩ | ⟨absent, -⟩
    · obtain rfl := isLast.unique last
      exact ⟨found, resolved 0 .identity ⟨0⟩⟩
    · exact absurd last.accepted (by simpa using absent _ (entry_mem last.isDeclared))
  have missing : shader.constantBufferAt 7 = .error (.missingConstantBuffer 7) := by
    rcases (queries steps).1 declaresBuffers 7 with ⟨_, isLast, -⟩ | ⟨-, missing, -⟩
    · exact absurd (of_decide_eq_true isLast.accepted) (free _ (entry_mem isLast.isDeclared))
    · exact missing
  exact ⟨⟨accepted _, reported, declaresBuffers, scene.1, scene.2, missing⟩,
    ⟨accepted _, legacyModel, ((legacyQueries steps).2 legacyModel 2).1⟩, split, later,
    unshadowed, accepted', same steps [] 2 0 .identity ⟨0⟩⟩

end Shader
end ShaderInterface
