import Text2Image.Concurrency.Execution
import Text2Image.Services.Executions

/-! Executions of one call of the backend while nobody else writes to the table. -/

set_option autoImplicit false

namespace Text2Image

open Concurrency Concurrency.Prog

/-- The operations of one call, in order, with the world each of them met. -/
abbrev Trace := List (Op × Choice × World)

/-- Time passes, the cache and the queue may change; the table and the session are
the call's alone. -/
def alone (config : Config) (pid : Nat) : Setting interface World Choice where
  perform := perform config pid
  drift world met := met.db = world.db ∧ met.session pid = world.session pid

/-- Anything may happen between two operations of the call. -/
def amid (config : Config) (pid : Nat) : Setting interface World Choice where
  perform := perform config pid
  drift _ _ := True

variable {config : Config} {pid : Nat} {world after : World} {trace : Trace}

/-! ## Changes of the table -/

/-- The operation changes the table. -/
def Changes (moment : Op × Choice × World) : Prop :=
  ∃ s, executed moment.1 moment.2.1 = some s ∧ s.table moment.2.2.db ≠ moment.2.2.db

/-- No operation of the trace changes the table. -/
structure Untouched (trace : Trace) (world after : World) : Prop where
  same : after.db = world.db
  quiet : ∀ moment ∈ trace, ¬ Changes moment

/-- The operation writes nothing to the table. -/
def Reads : Op → Prop
  | .sql s => s.isRead = true
  | _ => True

theorem Reads.table {op : Op} (reads : Reads op) {choice : Choice} {s : Stmt}
    (executes : executed op choice = some s) (t : ImageTable) : s.table t = t := by
  obtain ⟨rfl, _⟩ := executed_eq_some.mp executes
  exact Stmt.table_of_isRead reads t

theorem untouched_of_reads {α : Type} {program : Program α} {value : α}
    (ran : Executes (alone config pid) program world trace value after)
    (only : program.Only Reads) : Untouched trace world after where
  same := by
    refine ran.keeps only (fun _ _ drifts => drifts.1) fun op choice met reads => ?_
    rcases perform_db config pid op choice met with same | ⟨s, rfl, became⟩
    · exact same
    · rw [← Stmt.table_of_isRead reads met.db]
      exact became
  quiet := by
    rintro ⟨op, choice, met⟩ member ⟨s, executes, differs⟩
    exact differs (Reads.table (ran.only only _ member) executes _)

theorem Untouched.append {middle : World} {first second : Trace} (left : Untouched first world middle)
    (right : Untouched second middle after) : Untouched (first ++ second) world after where
  same := right.same.trans left.same
  quiet := by
    intro moment member
    rcases List.mem_append.mp member with earlier | later
    · exact left.quiet moment earlier
    · exact right.quiet moment later

/-! ## Statements -/

/-- A statement is answered, refused, or committed without an answer. -/
theorem executes_sql {s : Stmt} {answer : RepoResult s.Answer}
    (ran : Executes (alone config pid) (sql s) world trace answer after) :
    ∃ choice met, met.db = world.db ∧ trace = [(.sql s, choice, met)] ∧
      ((choice.outcome = .done ∧ answer = .ok (s.answer world.db choice.pick) ∧
          after.db = s.table world.db) ∨
        (choice.outcome = .failed ∧ answer = .error choice.error ∧ after.db = world.db) ∨
        (choice.outcome = .lost ∧ answer = .error choice.error ∧ after.db = s.table world.db)) := by
  obtain ⟨choice, met, ⟨same, _⟩, rfl, rfl, rfl⟩ := Executes.of_perform ran
  refine ⟨choice, met, same, rfl, ?_⟩
  simp only [alone, perform]
  cases choice.outcome with
  | done => exact .inl ⟨rfl, by rw [same], by simp [same]⟩
  | failed => exact .inr (.inl ⟨rfl, rfl, same⟩)
  | lost => exact .inr (.inr ⟨rfl, rfl, by simp [same]⟩)

/-- A reading statement is answered or not; the table stays. -/
theorem executes_read {s : Stmt} {answer : RepoResult s.Answer}
    (ran : Executes (alone config pid) (sql s) world trace answer after) (reads : s.isRead = true) :
    ∃ choice met, met.db = world.db ∧ trace = [(.sql s, choice, met)] ∧ after.db = world.db ∧
      ((choice.succeeds = true ∧ answer = .ok (s.answer world.db choice.pick)) ∨
        (choice.succeeds = false ∧ ∃ error, answer = .error error)) := by
  have stays := Stmt.table_of_isRead reads world.db
  obtain ⟨choice, met, same, rfl, cases'⟩ := executes_sql ran
  refine ⟨choice, met, same, rfl, ?_⟩
  rcases cases' with ⟨done, answered, became⟩ | ⟨failed, refused, became⟩ | ⟨lost, refused, became⟩
  · exact ⟨became.trans stays, .inl ⟨by simp [Choice.succeeds, done], answered⟩⟩
  · exact ⟨became, .inr ⟨by simp [Choice.succeeds, failed], _, refused⟩⟩
  · exact ⟨became.trans stays, .inr ⟨by simp [Choice.succeeds, lost], _, refused⟩⟩

/-! ## Executions written out -/

/-- Nobody interferes, and each operation goes as its choice says. -/
def withChoices (choices : List Choice) : List ((World → World) × Choice) :=
  choices.map fun choice => (id, choice)

/-- The same, at these times. -/
def atTimes (choices : List (TimePoint × Choice)) : List ((World → World) × Choice) :=
  choices.map fun timed => (fun world => { world with clock := timed.1 }, timed.2)

/-- What can be observed of such an execution is found by running it. -/
theorem executes_atTimes {α β : Type} (config : Config) (pid : Nat) (program : Program α)
    (choices : List (TimePoint × Choice)) (world : World) (observe : α → World → β) (value : β)
    (ran : (program.runAmong (perform config pid) (atTimes choices) world).map
      (fun result => observe result.1 result.2) = some value) :
    ∃ reply after, Executes (alone config pid) program world
      (program.performed (perform config pid) (atTimes choices) world) reply after ∧
      observe reply after = value := by
  refine executes_of_observed (σ := alone config pid) (fun step member world => ?_) ran
  obtain ⟨timed, _, rfl⟩ := List.mem_map.mp member
  exact ⟨rfl, rfl⟩

theorem executes_withChoices {α β : Type} (config : Config) (pid : Nat) (program : Program α)
    (choices : List Choice) (world : World) (observe : α → World → β) (value : β)
    (ran : (program.runAmong (perform config pid) (withChoices choices) world).map
      (fun result => observe result.1 result.2) = some value) :
    ∃ reply after, Executes (alone config pid) program world
      (program.performed (perform config pid) (withChoices choices) world) reply after ∧
      observe reply after = value := by
  refine executes_of_observed (σ := alone config pid) (fun step member world => ?_) ran
  obtain ⟨choice, _, rfl⟩ := List.mem_map.mp member
  exact ⟨rfl, rfl⟩

end Text2Image
