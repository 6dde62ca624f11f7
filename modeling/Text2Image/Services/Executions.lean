import Text2Image.Services.Steps

/-! The statements the database has executed in a run, and what can be counted
about them.
-/

set_option autoImplicit false

namespace Text2Image

open Concurrency System TaskStatus

variable {config : Config}

/-- The statement is executed unless it is refused; its caller may still see an error. -/
def executed (op : Op) (choice : Choice) : Option Stmt :=
  match op with
  | .sql s => if choice.applies then some s else none
  | _ => none

theorem executed_eq_some {op : Op} {choice : Choice} {s : Stmt} :
    executed op choice = some s ↔ op = .sql s ∧ choice.applies = true := by
  cases op with
  | sql sent =>
    simp only [executed, Op.sql.injEq]
    split
    · rename_i applies
      simp [applies]
    · rename_i refused
      simp [refused]
  | _ => simp [executed]

theorem perform_table (config : Config) (pid : Nat) (op : Op) (choice : Choice) (world : World) :
    (perform config pid op choice world).2.db =
      match executed op choice with
      | some s => s.table world.db
      | none => world.db := by
  cases op with
  | sql s =>
    cases outcome : choice.outcome <;> simp [perform, executed, Choice.applies, outcome]
  | _ =>
    rcases perform_db config pid _ choice world with same | ⟨_, other, _⟩
    · exact same
    · cases other

/-- What a log entry says was executed: the statement, on the table it found. -/
def statementOf : (backend config).Entry → Option (ImageTable × Stmt)
  | .performed event => (executed event.op event.choice).map fun s => (event.before.db, s)
  | _ => none

/-- The statement's UPDATE matches this row. -/
def Stmt.hits (s : Stmt) (t : ImageTable) (row : Row) : Bool :=
  (s.rowUpdate t).any fun update => update.guard row

/-- How often statements of one kind have matched the row with this id. -/
def executions (kind : Stmt → Bool) (id : Int) (log : List (backend config).Entry) : Nat :=
  log.countP fun entry =>
    (statementOf entry).any fun found =>
      kind found.2 && (found.1.find id).any (found.2.hits found.1)

/-- The worker a claim is made for. -/
def Stmt.claimant : Stmt → Option String
  | .claimNextTask workerId _ _ | .claimTaskById _ workerId _ _ => some workerId
  | _ => none

/-- The worker for whom the entry claims the row with this id. -/
def taken (id : Int) (entry : (backend config).Entry) : Option String :=
  (statementOf entry).bind fun found =>
    if (found.1.find id).any (found.2.hits found.1) then found.2.claimant else none

variable {s : Stmt} {t : ImageTable} {row : Row} {id : Int} {entry : (backend config).Entry}

theorem executions_silent (kind : Stmt → Bool) (id : Int) (log : List (backend config).Entry)
    (silent : statementOf entry = none) :
    executions kind id (entry :: log) = executions kind id log := by
  simp [executions, silent]

theorem executions_cons (kind : Stmt → Bool) (id : Int) (log : List (backend config).Entry)
    (found : statementOf entry = some (t, s)) :
    executions kind id (entry :: log) =
      executions kind id log + if kind s && (t.find id).any (s.hits t) then 1 else 0 := by
  simp [executions, List.countP_cons, found]

/-- A row that is not there is not matched. -/
theorem executions_absent (kind : Stmt → Bool) (log : List (backend config).Entry)
    (found : statementOf entry = some (t, s)) (absent : t.find id = none) :
    executions kind id (entry :: log) = executions kind id log := by
  simp [executions_cons kind id log found, absent]

/-- A row that is there is matched or not. -/
theorem executions_present (kind : Stmt → Bool) (log : List (backend config).Entry)
    (found : statementOf entry = some (t, s)) (present : row ∈ t.rows) :
    executions kind row.id (entry :: log) =
      executions kind row.id log + if kind s && s.hits t row then 1 else 0 := by
  have there : t.find row.id = some row := Keyed.Table.find_eq_some.mpr ⟨present, rfl⟩
  simp [executions_cons kind row.id log found, there]

theorem statementOf_performs {view : (backend config).View} {pid : Nat} {call : Call}
    {helper : Bool} {op : Op} {choice : Choice} :
    statementOf (.performed (view.event pid call helper op choice)) =
      (executed op choice).map fun s => (view.world.db, s) := rfl

theorem performs_db_executed {view : (backend config).View} {pid : Nat} {call : Call}
    {helper : Bool} {op : Op} {choice : Choice} (found : executed op choice = some s) :
    (view.performs pid call helper op choice).world.db = s.table view.world.db := by
  rw [View.performs_world]
  exact (perform_table config pid op choice view.world).trans (by rw [found])

theorem performs_db_silent {view : (backend config).View} {pid : Nat} {call : Call}
    {helper : Bool} {op : Op} {choice : Choice} (found : executed op choice = none) :
    (view.performs pid call helper op choice).world.db = view.world.db := by
  rw [View.performs_world]
  exact (perform_table config pid op choice view.world).trans (by rw [found])

/-- A statement a process or its lease keeper executes is one issued for the call. -/
theorem Acts.issued {view : (backend config).View} {pid : Nat} {call : Call} {op : Op}
    {helper : Bool} {choice : Choice} (may : Acts config view pid call op helper)
    (owned : KeepersOwned config view) (alive : live pid view.log = some call)
    (found : executed op choice = some s) : Issued config call s := by
  obtain ⟨rfl, _⟩ := executed_eq_some.mp found
  cases helper with
  | false => exact .sent may
  | true =>
    rcases leaseKeeperMay_iff.mp may with ⟨_, _, _, other⟩ | ⟨keeper, member, own, same⟩
    · cases other
    · cases same
      rw [← own] at alive
      obtain ⟨index, _, rfl, _⟩ := (owned keeper member).turn call alive
      exact .renewed _ _ _ _ _

/-- An invariant of the table and the log only needs attention where a
statement is executed. -/
theorem Kept.of_statements {condition : Condition (backend config)}
    {inv : ImageTable → List (backend config).Entry → Prop}
    (silent : ∀ t log entry, statementOf entry = none → inv t log → inv t (entry :: log))
    (wrote : ∀ (view : (backend config).View) pid call helper op choice s,
      inv view.world.db view.log → executed op choice = some s → Issued config call s →
      condition.performs pid call op choice view →
      inv (s.table view.world.db) (.performed (view.event pid call helper op choice) :: view.log)) :
    Kept config condition fun view => inv view.world.db view.log where
  acts view pid call helper op choice _ owned holds alive may meets := by
    cases found : executed op choice with
    | none =>
      rw [performs_db_silent found]
      exact silent _ _ _ (by rw [statementOf_performs, found]; rfl) holds
    | some s =>
      rw [performs_db_executed found]
      exact wrote view pid call helper op choice s holds found (may.issued owned alive found) meets
  started _ _ _ holds _ _ := silent _ _ _ rfl holds
  quiet _ entry _ holds settles _ unperformed := by
    rw [settles.db]
    refine silent _ _ _ ?_ holds
    cases entry with
    | performed event => exact (unperformed event rfl).elim
    | _ => rfl
  passes _ _ holds settles := by
    rw [settles.db]
    exact holds

/-! ## Conditions on statements -/

/-- Every statement is executed on a table that suits it. -/
abbrev onStatements (suits : Stmt → ImageTable → Bool) : Condition (backend config) where
  starts _ _ := True
  performs _ _ op choice view := (executed op choice).all fun s => suits s view.world.db

/-- A step executes no statement, or one that the condition is about. -/
theorem step_statement (suits : Stmt → ImageTable → Bool) (state : (backend config).State)
    (label : (backend config).Label) :
    ((step state label).view.world.db = state.view.world.db ∧
      Admits (onStatements suits) state label) ∨
    ∃ s, (step state label).view.world.db = s.table state.view.world.db ∧
      (Admits (onStatements suits) state label ↔ suits s state.view.world.db = true) := by
  have performing : ∀ pid (op : Op) choice,
      ((perform config pid op choice state.view.world).2.db = state.view.world.db ∧
        (executed op choice).all (fun s => suits s state.view.world.db) = true) ∨
      ∃ s, (perform config pid op choice state.view.world).2.db = s.table state.view.world.db ∧
        ((executed op choice).all (fun s => suits s state.view.world.db) = true ↔
          suits s state.view.world.db = true) := by
    intro pid op choice
    rw [perform_table]
    cases executed op choice with
    | none => exact .inl ⟨rfl, rfl⟩
    | some s => exact .inr ⟨s, rfl, Iff.rfl⟩
  cases label with
  | start call =>
    left
    simp only [step, State.settle_world, View.push_world]
    exact ⟨trivial, trivial⟩
  | act pid choice =>
    cases running : state.process pid with
    | none => exact .inl (by simp [step, Admits, running])
    | some process =>
      obtain ⟨call, rest⟩ := process
      cases rest with
      | done reply => exact .inl (by simp [step, Admits, running])
      | call op next =>
        have asked : Admits (onStatements suits) state (.act pid choice) ↔
            (executed op choice).all (fun s => suits s state.view.world.db) = true := by
          constructor
          · exact fun all => all call op next running
          · intro met _ _ _ same
            rw [running] at same
            cases same
            exact met
        simp only [step, running, State.settle_world, View.performs_world, asked]
        exact performing pid op choice
  | background pid op choice =>
    cases running : state.process pid with
    | none => exact .inl (by simp [step, Admits, running])
    | some process =>
      by_cases permitted : leaseKeeperMay config pid op state.view.world = true
      · have asked : Admits (onStatements suits) state (.background pid op choice) ↔
            (executed op choice).all (fun s => suits s state.view.world.db) = true := by
          constructor
          · exact fun all => all process running permitted
          · exact fun met _ _ _ => met
        simp only [step, running, permitted, if_true, View.performs_world, asked]
        exact performing pid op choice
      · exact .inl (by simp [step, Admits, running, permitted])
  | crash pid =>
    left
    simp only [step]
    split <;> exact ⟨rfl, trivial⟩
  | env event => exact .inl ⟨Env.apply_db event state.view.world, trivial⟩

/-! ## Answers -/

/-- A statement that was answered was executed, on the table its event has found. -/
theorem got_genuine {event : (backend config).Event} {s : Stmt} {answer : s.Answer}
    (genuine : event.Genuine)
    (same : (⟨event.op, event.answer⟩ : Taken interface) = ⟨.sql s, .ok answer⟩) :
    statementOf (.performed event) = some (event.before.db, s) ∧
      answer = s.answer event.before.db event.choice.pick := by
  obtain ⟨pid, call, helper, op, choice, given, before, after⟩ := event
  cases same
  simp only [Event.Genuine, perform] at genuine
  cases outcome : choice.outcome with
  | done =>
    simp only [outcome] at genuine
    refine ⟨?_, Except.ok.inj (congrArg Prod.fst genuine)⟩
    simp [statementOf, executed, Choice.applies, outcome]
  | failed | lost =>
    simp only [outcome] at genuine
    cases congrArg Prod.fst genuine

/-- What a process has been answered stands in the log. -/
theorem got_mem {log : List (backend config).Entry} {pid : Nat} {s : Stmt} {answer : s.Answer}
    (genuine : AllGenuine log) (got : Past.got (history pid log) s answer) :
    ∃ event, .performed event ∈ log ∧ event.pid = pid ∧ event.helper = false ∧
      statementOf (.performed event) = some (event.before.db, s) ∧
      answer = s.answer event.before.db event.choice.pick := by
  obtain ⟨event, member, own, program, same⟩ := mem_history got
  obtain ⟨found, answered⟩ := got_genuine (genuine event member) same
  exact ⟨event, member, own, program, found, answered⟩

/-! ## Sessions -/

@[simp] theorem keeperAfter_session (pid : Nat) (statement : Stmt) (world : World) :
    (keeperAfter pid statement world).session = world.session := by
  unfold keeperAfter
  split
  · split <;> rfl
  · rfl

/-- A session's last id changes where the session inserts. -/
theorem perform_session (config : Config) (pid : Nat) (op : Op) (choice : Choice) (world : World)
    (other : Nat) :
    (perform config pid op choice world).2.session other = world.session other ∨
      ∃ values, executed op choice = some (.insert values) ∧ other = pid := by
  cases op with
  | sql s =>
    have commit : ∀ before : World, before.session = world.session →
        choice.applies = true → (before.commit pid s).session other = world.session other ∨
          ∃ values, executed (.sql s) choice = some (.insert values) ∧ other = pid := by
      intro before same applies
      cases s with
      | insert values =>
        by_cases own : other = pid
        · exact .inr ⟨values, by simp [executed, applies], own⟩
        · left
          simp [World.commit, Function.update_of_ne own, same]
      | _ => exact .inl (by simp [World.commit, same])
    simp only [perform]
    cases outcome : choice.outcome with
    | done => exact commit _ (by simp) (by simp [Choice.applies, outcome])
    | failed => exact .inl rfl
    | lost => exact commit _ rfl (by simp [Choice.applies, outcome])
  | cacheSetex | cacheDel | bumpVersion | enqueueTask | rebuildTaskQueue | dequeueTask
  | removeFromQueue | acquireLease | releaseLease | forceReleaseLease | putObject
  | deleteObject =>
    left
    simp only [perform]
    split <;> rfl
  | _ => exact .inl rfl

/-- An INSERT that is answered gives its session the id of the new row. -/
theorem perform_insert (config : Config) (pid : Nat) (values : Row) (choice : Choice) (world : World)
    (answered : (perform config pid (.sql (.insert values)) choice world).1 = .ok ()) :
    executed (.sql (.insert values)) choice = some (.insert values) ∧
      (perform config pid (.sql (.insert values)) choice world).2.session pid = world.db.next := by
  simp only [perform] at answered ⊢
  cases outcome : choice.outcome with
  | done => simp [executed, Choice.applies, outcome, World.commit, keeperAfter]
  | failed | lost =>
    simp only [outcome] at answered
    cases answered

/-! ## The cache -/

@[simp] theorem World.commit_cache (world : World) (pid : Nat) (statement : Stmt) :
    (world.commit pid statement).cache = world.cache := by
  unfold World.commit
  split <;> rfl

@[simp] theorem keeperAfter_cache (pid : Nat) (statement : Stmt) (world : World) :
    (keeperAfter pid statement world).cache = world.cache := by
  unfold keeperAfter
  split
  · split <;> rfl
  · rfl

/-- What an operation makes of a cache entry. -/
inductive CacheChange (config : Config) (op : Op) (world : World) (key : String) :
    Option CacheValue → Prop where
  | kept : CacheChange config op world key (world.cache key)
  | dropped {name : String} (deletes : op = .cacheDel name) (same : key = cacheKey config name) :
      CacheChange config op world key none
  | written {name : String} {value : CacheValue} {ttl : Int} (writes : op = .cacheSetex name value ttl)
      (same : key = cacheKey config name) : CacheChange config op world key (some value)
  | bumped {ns identifier : String} (bumps : op = .bumpVersion ns identifier)
      (same : key = versionKey config ns identifier) :
      CacheChange config op world key (some (.counter (world.version key + 1)))

theorem perform_cache (config : Config) (pid : Nat) (op : Op) (choice : Choice) (world : World)
    (key : String) :
    CacheChange config op world key ((perform config pid op choice world).2.cache key) := by
  cases op with
  | sql statement =>
    have same : (perform config pid (.sql statement) choice world).2.cache = world.cache := by
      simp only [perform]
      split <;> simp
    rw [same]
    exact .kept
  | cacheSetex name value ttl =>
    by_cases same : key = cacheKey config name
    · simp only [perform]
      split
      · simp only [World.withCache, same, Function.update_self]
        exact .written rfl rfl
      · exact .kept
    · simp only [perform]
      split
      · simp only [World.withCache, Function.update_of_ne same]
        exact .kept
      · exact .kept
  | cacheDel name =>
    by_cases same : key = cacheKey config name
    · simp only [perform]
      split
      · simp only [World.withCache, same, Function.update_self]
        exact .dropped rfl rfl
      · exact .kept
    · simp only [perform]
      split
      · simp only [World.withCache, Function.update_of_ne same]
        exact .kept
      · exact .kept
  | bumpVersion ns identifier =>
    by_cases same : key = versionKey config ns identifier
    · simp only [perform]
      split
      · simp only [World.withCache, same, Function.update_self]
        exact .bumped rfl rfl
      · exact .kept
    · simp only [perform]
      split
      · simp only [World.withCache, Function.update_of_ne same]
        exact .kept
      · exact .kept
  | enqueueTask | rebuildTaskQueue | dequeueTask | removeFromQueue | acquireLease | releaseLease
  | forceReleaseLease | putObject | deleteObject =>
    simp only [perform]
    split <;> exact .kept
  | _ => exact .kept

/-- A cached value a process was given stood in the cache when its event took place. -/
theorem cached_mem {log : List (backend config).Entry} {pid : Nat} {key : String} {value : CacheValue}
    (genuine : AllGenuine log) (read : Past.answered (history pid log) (.cacheGet key) (some value)) :
    ∃ event, .performed event ∈ log ∧ event.pid = pid ∧
      event.before.cache (cacheKey config key) = some value := by
  obtain ⟨event, member, own, _, same⟩ := mem_history read
  have truth := genuine event member
  obtain ⟨pid', call, helper, op, choice, given, before, after⟩ := event
  refine ⟨_, member, own, ?_⟩
  cases same
  have answered : (if choice.succeeds then before.cache (cacheKey config key) else none) = some value :=
    (congrArg Prod.fst truth).symm
  split at answered
  · exact answered
  · cases answered

theorem cacheKey_injective {first second : String}
    (same : cacheKey config first = cacheKey config second) : first = second := by
  have chars := congrArg String.toList same
  simp only [cacheKey, String.toList_append] at chars
  exact String.toList_injective (List.append_cancel_left chars)

end Text2Image
