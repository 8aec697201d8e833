import ShaderInterface.Proofs.Buffer.Scan
import ShaderInterface.Proofs.Layout.Nodes

/-!
# Events of a resolution

A search may ask many variables and members before one of them has the byte, and it may stop at an
overflow on the way. A lone vector that starts in the middle of a slot is reported where the search
stops at it, deep inside. Still only the vector that the access is resolved to is ever reported,
right before the event that closes the resolution.
-/

namespace ShaderInterface

open LayoutTree

mutual

/-- The search for byte `target` that reports a lone vector in the middle of a slot as soon as it
stops there. -/
def reportingSearch (matricesAsVectors : Bool) (base target : Nat) :
    PlacedType → LayoutQuery (Option (Location Placement))
  | .node shape placement members => do
      let type : PlacedType := .node shape placement members
      let size ← type.elementSize matricesAsVectors
      let stride ← roundToSlot size
      let start := Word.saturatingAdd base shape.offset.toNat
      match ← shape.distance? size stride start target with
      | none => return none
      | some distance =>
          if shape.variableClass = .struct then
            let outer ← shape.structIndices size distance
            let folded ← Word.add start (← Word.remainder distance stride)
            match ← reportingSearchMembers matricesAsVectors start folded members with
            | some location => return some (location.within outer)
            | none => return some ⟨type, false, outer, 0⟩
          else
            let location := type.leafLocation start distance
            Logged.report location.midSlotEvents
            return some location

/-- The members are asked in declaration order, and each of them may report. -/
def reportingSearchMembers (matricesAsVectors : Bool) (base target : Nat) :
    List PlacedType → LayoutQuery (Option (Location Placement))
  | [] => return none
  | member :: rest => do
      match ← reportingSearch matricesAsVectors base target member with
      | some location => return some location
      | none => reportingSearchMembers matricesAsVectors base target rest

end

/-- The events of a query whose findings may each be worth a report. -/
def foundEvents {Finding : Type} (events : Finding → List Event) :
    Except ArithmeticError (Option Finding) → List Event
  | .ok (some finding) => events finding
  | _ => []

/-- The query has a certain answer, and it reports what it has found and nothing else. -/
def ReportsFound {Finding : Type} (events : Finding → List Event)
    (query : LayoutQuery (Option Finding)) (answer : Except ArithmeticError (Option Finding)) :
    Prop :=
  query.run = ⟨answer, foundEvents events answer⟩

namespace ReportsFound

variable {First Finding Found : Type} {events : Finding → List Event}
  {inner : Found → List Event}

/-- A finding may be reported when it is made. -/
theorem report (finding : Finding) :
    ReportsFound events (do
      Logged.report (events finding)
      return some finding) (.ok (some finding)) :=
  congrArg (Logged.mk _) ((List.append_nil _).trans (List.append_nil _))

theorem of_silent {finding : Finding} (silent : events finding = []) :
    ReportsFound events (return some finding) (.ok (some finding)) :=
  congrArg (Logged.mk _) silent.symm

/-- A step that reports nothing does not change what is reported. -/
theorem bind_lift {first : Except ArithmeticError First}
    {next : First → LayoutQuery (Option Finding)}
    {answer : First → Except ArithmeticError (Option Finding)}
    (reports : ∀ middle, ReportsFound events (next middle) (answer middle)) :
    ReportsFound events (do next (← first)) (first >>= answer) := by
  cases first with
  | error failure => rfl
  | ok middle => exact (congrArg (Logged.mk _) (List.nil_append _)).trans (reports middle)

/-- A query that misses reports nothing before the next one; a finding that is passed on is
reported once. -/
theorem bind {query : LayoutQuery (Option Found)} {answer : Except ArithmeticError (Option Found)}
    {next : Option Found → LayoutQuery (Option Finding)}
    {nextAnswer : Option Found → Except ArithmeticError (Option Finding)}
    (reports : ReportsFound inner query answer)
    (missed : ReportsFound events (next none) (nextAnswer none))
    (passed : ∀ found, ∃ finding, events finding = inner found ∧
      next (some found) = pure (some finding) ∧ nextAnswer (some found) = .ok (some finding)) :
    ReportsFound events (query >>= next) (answer >>= nextAnswer) := by
  cases answer with
  | error failure =>
      rw [ReportsFound, ExceptT.run_bind, reports]
      rfl
  | ok answer =>
      rw [ReportsFound, run_bind_of_ok reports, ok_bind]
      cases answer with
      | none => exact (congrArg (Logged.mk _) (List.nil_append _)).trans missed
      | some found =>
          obtain ⟨finding, same, next_eq, answer_eq⟩ := passed found
          rw [next_eq, answer_eq]
          exact congrArg (Logged.mk _) ((List.append_nil _).trans same.symm)

theorem events_eq_nil {query : LayoutQuery (Option Finding)}
    {answer : Except ArithmeticError (Option Finding)} (reports : ReportsFound events query answer)
    (missed : ∀ finding, query.run.value ≠ .ok (some finding)) : query.run.events = [] := by
  rw [reports] at missed ⊢
  cases answer with
  | error failure => rfl
  | ok answer =>
      cases answer with
      | none => rfl
      | some finding => exact absurd rfl (missed finding)

end ReportsFound

theorem reportsFound_searchMembers {matricesAsVectors : Bool} {base target : Nat}
    {members : List PlacedType}
    (reports : ∀ member ∈ members,
      ReportsFound Location.midSlotEvents (reportingSearch matricesAsVectors base target member)
        (member.search matricesAsVectors base target)) :
    ReportsFound Location.midSlotEvents
      (reportingSearchMembers matricesAsVectors base target members)
      (searchMembers matricesAsVectors base target members) := by
  induction members with
  | nil => rfl
  | cons member rest induction =>
      obtain ⟨first, later⟩ := List.forall_mem_cons.mp reports
      rw [reportingSearchMembers, searchMembers_cons]
      exact first.bind (induction later) fun location => ⟨location, rfl, rfl, rfl⟩

/-- A search that reports where it stops reports the vector that it finds and nothing else: it
reports nothing in types that turn the byte down, and nothing before an overflow. -/
theorem reportsFound_search (matricesAsVectors : Bool) (base target : Nat) (type : PlacedType) :
    ReportsFound Location.midSlotEvents (reportingSearch matricesAsVectors base target type)
      (type.search matricesAsVectors base target) := by
  induction type using inheritance generalizing base target with
  | step type induction =>
      cases type with
      | node shape placement members =>
          rw [reportingSearch, search]
          refine .bind_lift fun size => .bind_lift fun stride => .bind_lift fun found => ?_
          cases found with
          | none => rfl
          | some distance =>
              by_cases struct : shape.variableClass = .struct
              · simp only [if_pos struct]
                refine .bind_lift fun outer => .bind_lift fun rest => .bind_lift fun folded => ?_
                have below := reportsFound_searchMembers fun member isMember =>
                  induction member isMember (Word.saturatingAdd base shape.offset.toNat) folded
                exact below.bind (.of_silent rfl) fun location =>
                  ⟨location.within outer, rfl, rfl, rfl⟩
              · simp only [if_neg struct]
                exact .report _

/-- Locating a byte reports what the search reports where it stops. -/
theorem PlacedType.locate_eq_reportingSearch (flags : LayoutFlags) (base target : UInt32)
    (type : PlacedType) :
    type.locate flags base target =
      reportingSearch flags.matricesAsVectors base.toNat target.toNat type := by
  have reports := reportsFound_search flags.matricesAsVectors base.toNat target.toNat type
  refine (Logged.ext ?_ ?_).trans reports.symm
  · exact type.value_locate flags base target
  · refine (type.events_locate flags base target).trans ?_
    cases type.search flags.matricesAsVectors base.toNat target.toNat with
    | error failure => rfl
    | ok found => cases found <;> rfl

/-- The scan reports the vector in the variable that it stops at and nothing else. -/
theorem reportsFound_resolveAmong (flags : LayoutFlags) (byteOffset : UInt32)
    (holders : List (Declared BufferVariable)) :
    ReportsFound (·.location.midSlotEvents) (resolveAmong flags byteOffset holders)
      (resolveAmong flags byteOffset holders).run.value := by
  induction holders with
  | nil => rfl
  | cons holder rest induction =>
      have first : ReportsFound Location.midSlotEvents
          (holder.entry.type.locate flags holder.entry.start byteOffset)
          (holder.entry.find flags byteOffset) := by
        rw [PlacedType.locate_eq_reportingSearch]
        exact reportsFound_search ..
      rw [value_resolveAmong_cons, resolveAmong]
      exact first.bind induction fun location => ⟨⟨holder, location⟩, rfl, rfl, rfl⟩

/-- What is reported with the answer to an access to byte `byteOffset` of a buffer. -/
inductive AnswerReport (bufferName : String) (byteOffset : UInt32) :
    Option Resolution → List Event → Prop where
  /-- No variable has the byte. -/
  | uncovered : AnswerReport bufferName byteOffset none [.offsetUncovered bufferName byteOffset]
  /-- The innermost type there is not a lone vector, or starts with its slot. -/
  | resolved (holder : Declared BufferVariable) (location : Location Placement)
      (aligned : location.rebase = 0) :
      AnswerReport bufferName byteOffset (some ⟨holder, location⟩)
        [.offsetResolved bufferName byteOffset holder.entry.name location.leaf.label.fullName
          location.indices]
  /-- The innermost type there is a lone vector in the middle of its slot. -/
  | midSlot (holder : Declared BufferVariable) (location : Location Placement)
      (shifted : location.rebase ≠ 0) :
      AnswerReport bufferName byteOffset (some ⟨holder, location⟩)
        [.vectorMidSlot location.leaf.label.fullName location.rebase,
          .offsetResolved bufferName byteOffset holder.entry.name location.leaf.label.fullName
            location.indices]

namespace AnswerReport

variable {bufferName : String} {byteOffset : UInt32} {answer : Option Resolution}
  {events : List Event}

/-- The one event that is always reported comes last, after at most one remark. -/
theorem exists_closing (report : AnswerReport bufferName byteOffset answer events) :
    ∃ remarks closing, events = remarks ++ [closing] ∧ remarks.length ≤ 1 ∧
      (∀ remark ∈ remarks, remark.level = .debug) ∧ closing.level = .trace := by
  cases report with
  | uncovered => exact ⟨[], _, rfl, by decide, nofun, rfl⟩
  | resolved => exact ⟨[], _, rfl, by decide, nofun, rfl⟩
  | midSlot => exact ⟨[_], _, rfl, Nat.le_refl 1, List.forall_mem_singleton.mpr rfl, rfl⟩

theorem of_answer (answer : Option Resolution) (buffer : ConstantBuffer) :
    AnswerReport buffer.name byteOffset answer
      (foundEvents (·.location.midSlotEvents) (.ok answer) ++
        [buffer.resolutionEvent byteOffset answer]) := by
  cases answer with
  | none => exact .uncovered
  | some resolution =>
      obtain ⟨holder, location⟩ := resolution
      by_cases aligned : location.rebase = 0
      · simpa [foundEvents, Location.midSlotEvents, aligned, ConstantBuffer.resolutionEvent] using
          resolved holder location aligned
      · simpa [foundEvents, Location.midSlotEvents, aligned, ConstantBuffer.resolutionEvent] using
          midSlot holder location aligned

end AnswerReport

namespace ConstantBuffer

variable {slot : UInt32} {swizzle : Swizzle} {flags : LayoutFlags} {buffer : ConstantBuffer}

theorem events_resolve_of_error {failure : ArithmeticError}
    (stopped : (buffer.resolve slot swizzle flags).run.value = .error failure) :
    (buffer.resolve slot swizzle flags).run.events = [] := by
  rw [value_resolve] at stopped
  rw [resolve]
  cases selected : Swizzle.byteOffset? slot swizzle with
  | none => rfl
  | some byteOffset =>
      simp only [selected] at stopped
      have reports := reportsFound_resolveAmong flags byteOffset (Declared.all buffer.entries)
      rw [stopped, ReportsFound] at reports
      rw [ExceptT.run_bind, reports]
      rfl

theorem answerReport_of_resolve {answer : Option Resolution} (inside : slot.toNat < 0x10000000)
    (resolved : (buffer.resolve slot swizzle flags).run.value = .ok answer) :
    ∃ byteOffset : UInt32, byteOffset.toNat = 16 * slot.toNat + swizzle.firstByte.toNat ∧
      AnswerReport buffer.name byteOffset answer
        (buffer.resolve slot swizzle flags).run.events := by
  have selected := Swizzle.byteOffset?_of_lt inside swizzle
  refine ⟨16 * slot + swizzle.firstByte, Swizzle.toNat_of_byteOffset? selected, ?_⟩
  simp only [value_resolve, selected] at resolved
  have reports := reportsFound_resolveAmong flags (16 * slot + swizzle.firstByte)
    (Declared.all buffer.entries)
  rw [resolved] at reports
  simp only [resolve, selected, run_bind_of_ok reports]
  exact AnswerReport.of_answer answer buffer

end ConstantBuffer

/-- An access beyond the last slot and one that stops at an overflow report nothing. Every other
access reports its answer. The search reports from inside of the types, but nothing is ever
reported in a type that turns the byte down or in which the search stops at an overflow. -/
theorem resolve_reports (buffer : ConstantBuffer) (slot : UInt32) (swizzle : Swizzle)
    (flags : LayoutFlags) :
    let outcome := (buffer.resolve slot swizzle flags).run
    (0x10000000 ≤ slot.toNat → outcome = ⟨.ok none, []⟩) ∧
    (∀ failure, outcome.value = .error failure → outcome.events = []) ∧
    (∀ answer, slot.toNat < 0x10000000 → outcome.value = .ok answer →
      ∃ byteOffset : UInt32, byteOffset.toNat = 16 * slot.toNat + swizzle.firstByte.toNat ∧
        AnswerReport buffer.name byteOffset answer outcome.events ∧
        ∃ remarks closing, outcome.events = remarks ++ [closing] ∧ remarks.length ≤ 1 ∧
          (∀ remark ∈ remarks, remark.level = .debug) ∧ closing.level = .trace) ∧
    (∀ (type : PlacedType) (base target : UInt32), type.locate flags base target =
      reportingSearch flags.matricesAsVectors base.toNat target.toNat type) ∧
    ∀ (type : PlacedType) (base target : Nat),
      let tried := (reportingSearch flags.matricesAsVectors base target type).run
      (∀ location, tried.value ≠ .ok (some location)) → tried.events = [] := by
  refine ⟨ConstantBuffer.run_resolve_of_beyond,
    fun failure => ConstantBuffer.events_resolve_of_error, ?_,
    fun type base target => type.locate_eq_reportingSearch flags base target, ?_⟩
  · intro answer inside resolved
    obtain ⟨byteOffset, same, report⟩ := ConstantBuffer.answerReport_of_resolve inside resolved
    exact ⟨byteOffset, same, report, report.exists_closing⟩
  · intro type base target tried missed
    exact (reportsFound_search flags.matricesAsVectors base target type).events_eq_nil missed

/-- A buffer with two vectors in the middle of one slot, between an array that ends before them and
a vector whose size overflows. -/
def pairBuffer : ConstantBuffer :=
  .ofDeclarations "Pair" 0
    [⟨0, 16, .array 1 (.vector "rows" 0 4)⟩,
      ⟨16, 16, .struct "pair" 0 [.vector "left" 4 1, .vector "right" 8 2]⟩,
      ⟨32, 16, .vector "huge" 0 0x40000000⟩]

theorem resolve_reports_pairBuffer :
    (0x10000000 ≤ (0x10000000 : UInt32).toNat ∧
      (pairBuffer.resolve 0x10000000 .identity ⟨0⟩).run = ⟨.ok none, []⟩) ∧
    (∃ failure, (pairBuffer.resolve 2 .identity ⟨0⟩).run.value = .error failure ∧
      (pairBuffer.resolve 2 .identity ⟨0⟩).run.events = []) ∧
    (∃ answer, (1 : UInt32).toNat < 0x10000000 ∧
      (pairBuffer.resolve 1 (.splat 3) ⟨0⟩).run.value = .ok answer ∧
      (pairBuffer.resolve 1 (.splat 3) ⟨0⟩).run.events =
        [.vectorMidSlot "pair.right" 8, .offsetResolved "Pair" 28 "pair" "pair.right" []] ∧
      ∃ byteOffset : UInt32, byteOffset.toNat = 28 ∧ AnswerReport "Pair" byteOffset answer
        [.vectorMidSlot "pair.right" 8, .offsetResolved "Pair" 28 "pair" "pair.right" []]) ∧
    let left : PlacedType := TypeDescription.place none 0 (.vector "left" 4 1)
    (∀ location, (reportingSearch false 16 28 left).run.value ≠ .ok (some location)) ∧
      (reportingSearch false 16 28 left).run.events = [] := by
  have beyond : 0x10000000 ≤ (0x10000000 : UInt32).toNat := by decide
  have inside : (1 : UInt32).toNat < 0x10000000 := by decide
  have stopped : ∃ failure,
      (pairBuffer.resolve 2 .identity ⟨0⟩).run.value = .error failure := by
    cbv
    exact ⟨_, rfl⟩
  have resolved : ∃ answer, (pairBuffer.resolve 1 (.splat 3) ⟨0⟩).run =
      ⟨.ok answer,
        [.vectorMidSlot "pair.right" 8, .offsetResolved "Pair" 28 "pair" "pair.right" []]⟩ := by
    cbv
    exact ⟨_, rfl⟩
  have missed : (reportingSearch false 16 28
      (TypeDescription.place none 0 (.vector "left" 4 1))).run.value = .ok none := by
    cbv
  obtain ⟨failure, stopped⟩ := stopped
  obtain ⟨answer, resolved⟩ := resolved
  obtain ⟨nowhere, -⟩ := resolve_reports pairBuffer 0x10000000 .identity ⟨0⟩
  obtain ⟨-, silent, -⟩ := resolve_reports pairBuffer 2 .identity ⟨0⟩
  obtain ⟨-, -, reported, -, rejected⟩ := resolve_reports pairBuffer 1 (.splat 3) ⟨0⟩
  obtain ⟨byteOffset, selected, report, -⟩ := reported answer inside (by rw [resolved])
  rw [resolved] at report
  refine ⟨⟨beyond, nowhere beyond⟩, ⟨failure, stopped, silent failure stopped⟩,
    ⟨answer, inside, by rw [resolved], by rw [resolved], byteOffset, selected, report⟩, ?_⟩
  have nothing : ∀ location, (reportingSearch false 16 28
      (TypeDescription.place none 0 (.vector "left" 4 1))).run.value ≠ .ok (some location) := by
    rw [missed]
    rintro location ⟨⟩
  exact ⟨nothing, rejected _ 16 28 nothing⟩

end ShaderInterface
