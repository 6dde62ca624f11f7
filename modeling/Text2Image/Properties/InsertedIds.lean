import Text2Image.Services.Footprint
import Text2Image.Services.ThreadSession

/-! Which id the caller of `ImageRepo::insert` learns. The INSERT and the query for its
id each ask for the thread's session, and the second may get another one.
-/

set_option autoImplicit false

namespace Text2Image.DBManager

open Concurrency Concurrency.Prog

/-- The id of the row that is inserted here. -/
def insertedId (moment : SessionOp × Turn × SessionWorld) : Option Int :=
  match moment.1 with
  | .execute _ (.insert _) => if moment.2.1.choice.applies then some moment.2.2.base.db.next else none
  | _ => none

/-- From the INSERT on the session is not found dead, or the call is broken off. -/
def sessionKept : SessionTrace → Bool
  | [] => true
  | moment :: later =>
    if (insertedId moment).isSome then ! later.any pingRefused || (moment :: later).any breaks
    else sessionKept later

/-- The ids under which something is published, cached or queued. -/
def announcedId : SessionOp → Int → Prop
  | .other (.publishTaskUpdated image), id => image.id = id
  | .other (.enqueueTask taskId), id => taskId = id
  | .other (.cacheSetex key _ _), id => ∃ userId, key = ImageCache.metaKey userId id
  | _, _ => False

variable {config : Config} {pid : Nat} {world after : SessionWorld} {trace : SessionTrace}

/-! ## What a session is asked for -/

theorem sessionKept_append {first second : SessionTrace} (quiet : ∀ moment ∈ first, insertedId moment = none) :
    sessionKept (first ++ second) = sessionKept second := by
  induction first with
  | nil => rfl
  | cons moment later ih =>
    obtain ⟨none, rest⟩ := List.forall_mem_cons.mp quiet
    simp only [List.cons_append, sessionKept, none, Option.isSome_none, Bool.false_eq_true, if_false]
    exact ih rest

theorem insertedId_of_manages {moment : SessionOp × Turn × SessionWorld} (manages : Manages moment.1) :
    insertedId moment = none := by
  obtain ⟨op, turn, world⟩ := moment
  cases op with
  | execute session s => exact manages.elim
  | _ => rfl

theorem quiet_threadSession {answer : RepoResult Nat}
    (ran : Executes (amidSessions config pid) threadSession world trace answer after) :
    ∀ moment ∈ trace, insertedId moment = none :=
  fun moment member => insertedId_of_manages (ran.only manages_threadSession moment member)

/-! ## The insert -/

/-- The ids of the rows the call has inserted. -/
def insertedIds (trace : SessionTrace) : List Int := trace.filterMap insertedId

/-- The id of the one row the call has inserted. -/
def Own (trace : SessionTrace) (id : Int) : Prop := 0 < id ∧ insertedIds trace = [id]

theorem sessionKept_of_quiet (quiet : ∀ moment ∈ trace, insertedId moment = none) : sessionKept trace = true := by
  rw [← List.append_nil trace, sessionKept_append quiet, sessionKept]

theorem insertedIds_of_quiet (quiet : ∀ moment ∈ trace, insertedId moment = none) : insertedIds trace = [] :=
  List.filterMap_eq_nil_iff.mpr quiet

/-- How the insert ends. -/
inductive Insertion (trace : SessionTrace) : RepoResult Int → Prop where
  | failed {error : RepoError} (kept : sessionKept trace = true) : Insertion trace (.error error)
  | named {id : Int} (kept : sessionKept trace = true) (own : Own trace id) : Insertion trace (.ok id)
  | misnamed (lost : sessionKept trace = false) : Insertion trace (.ok 0)

theorem Insertion.prepend {first : SessionTrace} {result : RepoResult Int}
    (quiet : ∀ moment ∈ first, insertedId moment = none) (insertion : Insertion trace result) :
    Insertion (first ++ trace) result := by
  have same : insertedIds (first ++ trace) = insertedIds trace := by
    rw [insertedIds, List.filterMap_append, ← insertedIds, insertedIds_of_quiet quiet, List.nil_append, ← insertedIds]
  cases insertion with
  | failed kept => exact .failed ((sessionKept_append quiet).trans kept)
  | named kept own => exact .named ((sessionKept_append quiet).trans kept) ⟨own.1, same.trans own.2⟩
  | misnamed lost => exact .misnamed ((sessionKept_append quiet).trans lost)

/-- The query for the id, after an INSERT that was answered. -/
theorem executes_onLastInsertId {session : Nat} {result : RepoResult Int}
    (ran : Executes (amidSessions config pid) (onSession .lastInsertId) world trace result after)
    (held : (world.threads pid).session = some session) :
    (∀ moment ∈ trace, insertedId moment = none) ∧
      ((trace.any breaks = true ∧ ∃ error, result = .error error) ∨
        (trace.any breaks = false ∧ trace.any pingRefused = false ∧
          result = .ok (world.lastInsertId session)) ∨
        (trace.any breaks = false ∧ trace.any pingRefused = true ∧ result = .ok 0)) := by
  obtain ⟨first, rest, middle, answer, rfl, asks, goes⟩ := ran.of_bind
  have quiet := quiet_threadSession asks
  cases executes_threadSession asks with
  | broken throws =>
    obtain ⟨rfl, rfl, rfl⟩ := goes.of_done
    simpa [throws] using quiet
  | first absent => rw [held] at absent; cases absent
  | kept held' holds unbroken alive same =>
    rw [held] at held'
    cases held'
    obtain ⟨turn, met, drift, rfl, rfl, same'⟩ := goes.of_perform
    cases same'
    have last : met.lastInsertId session = world.lastInsertId session := (drift.2.2.1 _ holds).trans same
    refine ⟨by simpa [or_imp, forall_and, insertedId] using quiet, ?_⟩
    cases succeeds : turn.choice.succeeds <;>
      simp [amidSessions, performOn, breaks, pingRefused, unbroken, alive, succeeds, last]
  | replaced holds unbroken dead fresh =>
    obtain ⟨turn, met, drift, rfl, rfl, same'⟩ := goes.of_perform
    cases same'
    have last : met.lastInsertId _ = 0 := (drift.2.2.1 _ holds).trans fresh
    refine ⟨by simpa [or_imp, forall_and, insertedId] using quiet, ?_⟩
    cases succeeds : turn.choice.succeeds <;>
      simp [amidSessions, performOn, breaks, pingRefused, unbroken, dead, succeeds, last]

theorem answers_insert {values : Row} {session : Nat} {turn : Turn} (succeeds : turn.choice.succeeds = true) :
    ((amidSessions config pid).perform (.execute session (.insert values)) turn world).1 = .ok () := by
  simp only [Choice.succeeds, decide_eq_true_eq] at succeeds
  simp only [amidSessions, performOn, perform, succeeds]
  rfl

theorem refuses_insert {values : Row} {session : Nat} {turn : Turn} (fails : turn.choice.succeeds = false) :
    ((amidSessions config pid).perform (.execute session (.insert values)) turn world).1 =
      .error turn.choice.error := by
  simp only [Choice.succeeds, decide_eq_false_iff_not] at fails
  simp only [amidSessions, performOn, perform]
  cases outcome : turn.choice.outcome with
  | done => exact (fails outcome).elim
  | failed | lost => rfl

theorem lastInsertId_insert {values : Row} {session : Nat} {turn : Turn} (applies : turn.choice.applies = true) :
    ((amidSessions config pid).perform (.execute session (.insert values)) turn world).2.lastInsertId session =
      world.base.db.next := by
  simp [amidSessions, performOn, idAfter, applies]

theorem executes_insertOn {values : Row} {result : RepoResult Int} 
    {next : RepoResult (Stmt.insert values).Answer → Program (RepoResult Int)}
    (fails : ∀ error, next (.error error) = .done (.error error))
    (asks : next (.ok ()) = Prog.perform (I := interface) .lastInsertId)
    (ran : Executes (amidSessions config pid) ((sql (.insert values) >>= next).via onSession) world trace result
      after) : Insertion trace result := by
  rw [via_bind] at ran
  obtain ⟨first, rest, middle, answer, rfl, inserts, goes⟩ := ran.of_bind
  have sends := Executes.of_via_perform (I := interface) (.sql (.insert values)) inserts
  obtain ⟨opening, executing, between, handed, rfl, opens, executes⟩ := sends.of_bind
  have quiet := quiet_threadSession opens
  have refused : ∀ {error : RepoError}, handed = .error error → Insertion (opening ++ executing ++ rest) result := by
    rintro error rfl
    obtain ⟨rfl, rfl, rfl⟩ := executes.of_done
    rw [fails] at goes
    obtain ⟨rfl, rfl, rfl⟩ := goes.of_done
    simpa using Insertion.failed (sessionKept_of_quiet quiet)
  cases handed with
  | error error => exact refused rfl
  | ok session =>
    have holds : (between.threads pid).session = some session := by
      cases executes_threadSession opens <;> assumption
    obtain ⟨turn, met, drift, rfl, answered, rfl⟩ := executes.of_perform
    rw [List.append_assoc]
    refine Insertion.prepend quiet ?_
    -- the INSERT is answered, or the call ends with it
    cases succeeds : turn.choice.succeeds with
    | false =>
      rw [answered, refuses_insert succeeds, fails] at goes
      obtain ⟨rfl, rfl, rfl⟩ := goes.of_done
      refine .failed ?_
      cases applies : turn.choice.applies <;> simp [sessionKept, insertedId, breaks, applies, succeeds]
    | true =>
      have applies : turn.choice.applies = true := by
        simp only [Choice.succeeds, decide_eq_true_eq] at succeeds
        simp [Choice.applies, succeeds]
      rw [answered, answers_insert succeeds, asks] at goes
      have held := (congrArg ThreadSessionState.session drift.2.1).trans holds
      have seeks := Executes.of_via_perform (I := interface) .lastInsertId goes
      obtain ⟨none, ends⟩ := executes_onLastInsertId seeks held
      have own : insertedIds ((.execute session (.insert values), turn, met) :: rest) = [met.base.db.next] := by
        simp [insertedIds, insertedId, applies, List.filterMap_eq_nil_iff.mpr none]
      rcases ends with ⟨broken, error, rfl⟩ | ⟨unbroken, alive, rfl⟩ | ⟨unbroken, dead, rfl⟩
      · exact .failed (by simp [sessionKept, insertedId, applies, broken])
      · rw [lastInsertId_insert applies]
        exact .named (by simp [sessionKept, insertedId, applies, alive]) ⟨met.positive, own⟩
      · refine .misnamed ?_
        simp [sessionKept, insertedId, applies, dead, unbroken, breaks, succeeds]

/-- Operations that neither insert nor announce anything. -/
def LooksAround : Op → Prop
  | .sql s => s.isRead = true
  | .now | .random => True
  | _ => False

/-- What they come to on a session. -/
def Uneventful : SessionOp → Prop
  | .execute _ s => s.isRead = true
  | .lastInsertId _ => False
  | .other op => LooksAround op
  | _ => True

theorem Uneventful.quiet {moment : SessionOp × Turn × SessionWorld} (uneventful : Uneventful moment.1) :
    insertedId moment = none := by
  obtain ⟨op, turn, world⟩ := moment
  cases op with
  | execute session s => cases s <;> first | rfl | cases uneventful
  | _ => rfl

theorem Uneventful.silent {op : SessionOp} (uneventful : Uneventful op) (id : Int) : ¬ announcedId op id := by
  cases op with
  | other op => cases op <;> first | exact uneventful.elim | exact fun announced => announced
  | _ => exact fun announced => announced

theorem Manages.uneventful {op : SessionOp} (manages : Manages op) : Uneventful op := by
  cases op <;> first | exact manages.elim | trivial

theorem uneventful_onSession (op : Op) (looks : LooksAround op) : (onSession op).Only Uneventful := by
  cases op with
  | sql s =>
    refine (manages_threadSession.mono fun _ => Manages.uneventful).bind fun handed => ?_
    cases handed with
    | error error => trivial
    | ok session => exact ⟨looks, fun _ => trivial⟩
  | now | random => exact ⟨trivial, fun _ => trivial⟩
  | _ => exact looks.elim

theorem uneventful_of_looksAround {α : Type} {program : Program α} {value : α}
    (ran : Executes (amidSessions config pid) (program.via onSession) world trace value after)
    (only : program.Only LooksAround) : ∀ moment ∈ trace, Uneventful moment.1 :=
  ran.only (only.via uneventful_onSession)

theorem executes_insert {generation : ImageGeneration} {result : RepoResult Int}
    (ran : Executes (amidSessions config pid) ((ImageRepo.insert generation).via onSession) world trace result
      after) : Insertion trace result := by
  rw [ImageRepo.insert, via_bind] at ran
  obtain ⟨timing, rest, timed, createdAt, rfl, times, goes⟩ := ran.of_bind
  have uneventful := uneventful_of_looksAround times (only_createdAtOf trivial generation)
  refine Insertion.prepend (fun moment member => (uneventful moment member).quiet) ?_
  exact executes_insertOn (fun _ => rfl) rfl goes

theorem insert_own_iff {generation : ImageGeneration} {result : RepoResult Int}
    (ran : Executes (amidSessions config pid) ((ImageRepo.insert generation).via onSession) world trace result
      after) :
    (∀ id, result = .ok id → Own trace id) ↔ sessionKept trace = true := by
  cases executes_insert ran with
  | failed kept => exact ⟨fun _ => kept, fun _ id told => by cases told⟩
  | named kept own => exact ⟨fun _ => kept, fun _ id told => Except.ok.inj told ▸ own⟩
  | misnamed lost =>
    constructor
    · intro names
      exact (Int.lt_irrefl 0 (names 0 rfl).1).elim
    · intro kept
      rw [lost] at kept
      cases kept

/-! ## What is announced -/

/-- No id is published, cached or queued. -/
def Unannounced (op : SessionOp) : Prop := ∀ id, ¬ announcedId op id

/-- Outside the database, under this id only. -/
def Announces (id : Int) (op : SessionOp) : Prop :=
  (∃ other, op = .other other) ∧ ∀ id', announcedId op id' → id' = id

theorem Announces.quiet {id : Int} {moment : SessionOp × Turn × SessionWorld} (announces : Announces id moment.1) :
    insertedId moment = none ∧ pingRefused moment = false ∧ breaks moment = false := by
  obtain ⟨op, turn, world⟩ := moment
  obtain ⟨⟨other, rfl⟩, -⟩ := announces
  exact ⟨rfl, rfl, rfl⟩

theorem unannounced_threadSession : threadSession.Only Unannounced :=
  manages_threadSession.mono fun _ manages => manages.uneventful.silent

theorem unannounced_insert (generation : ImageGeneration) :
    ((ImageRepo.insert generation).via onSession).Only Unannounced := by
  rw [ImageRepo.insert, via_bind]
  have times : ((ImageRepo.createdAtOf generation).via onSession).Only Uneventful :=
    (only_createdAtOf trivial generation).via uneventful_onSession
  refine (times.mono fun _ => Uneventful.silent).bind fun createdAt => ?_
  refine Only.bind (unannounced_threadSession.bind fun handed => ?_) fun answer => ?_
  · cases handed with
    | error error => trivial
    | ok session => exact ⟨fun _ => id, fun _ => trivial⟩
  · cases answer with
    | error error => trivial
    | ok _ =>
      refine Only.bind (unannounced_threadSession.bind fun handed => ?_) fun _ => trivial
      cases handed with
      | error error => trivial
      | ok session => exact ⟨fun _ => id, fun _ => trivial⟩

theorem announces_announceCreated (userId : Int) (generation : ImageGeneration) :
    ((ImageService.announceCreated userId generation).via onSession).Only (Announces generation.id) := by
  have silent : ∀ op : Op, (∀ id, ¬ announcedId (.other op) id) → Announces generation.id (.other op) :=
    fun op silent => ⟨⟨op, rfl⟩, fun id announced => (silent id announced).elim⟩
  refine ⟨⟨⟨_, rfl⟩, fun _ same => same.symm⟩, fun published => ?_⟩
  cases published with
  | error what => trivial
  | ok _ =>
    refine ⟨⟨⟨_, rfl⟩, fun id keyed => ?_⟩, fun _ => ⟨silent _ fun _ => id, fun _ => ?_⟩⟩
    · obtain ⟨userId', same⟩ := keyed
      exact (ImageCache.metaKey_injective same).2.symm
    · refine ⟨silent _ fun _ => id, fun available => ?_⟩
      cases available with
      | false => trivial
      | true => exact ⟨⟨⟨_, rfl⟩, fun _ same => same.symm⟩, fun _ => trivial⟩

theorem looks_readClock : readClock.Only LooksAround := ⟨trivial, fun _ => trivial⟩

theorem sessionKept_append_right {rest : SessionTrace}
    (quiet : ∀ moment ∈ rest, insertedId moment = none ∧ pingRefused moment = false ∧ breaks moment = false) :
    sessionKept (trace ++ rest) = sessionKept trace := by
  have calm : rest.any pingRefused = false ∧ rest.any breaks = false :=
    ⟨List.any_eq_false.mpr fun moment member => by simp [(quiet moment member).2.1],
      List.any_eq_false.mpr fun moment member => by simp [(quiet moment member).2.2]⟩
  induction trace with
  | nil => exact sessionKept_of_quiet fun moment member => (quiet moment member).1
  | cons moment later ih =>
    simp only [List.cons_append, sessionKept, List.any_cons, List.any_append, calm.1, calm.2, Bool.or_false, ih]

/-- How a call of `create` goes: it does not come to an INSERT that names an id, or it announces
the id that the INSERT named. -/
inductive Announcement (trace : SessionTrace) : Prop where
  | unannounced (silent : ∀ moment ∈ trace, Unannounced moment.1) (kept : sessionKept trace = true) :
      Announcement trace
  | announced {first rest : SessionTrace} {id : Int} (split : trace = first ++ rest)
      (inserted : Insertion first (.ok id)) (silent : ∀ moment ∈ first, Unannounced moment.1)
      (announces : ∀ moment ∈ rest, Announces id moment.1)
      (announced : ∃ moment ∈ rest, announcedId moment.1 id) : Announcement trace

theorem Announcement.prepend {first : SessionTrace} (uneventful : ∀ moment ∈ first, Uneventful moment.1)
    (announcement : Announcement trace) : Announcement (first ++ trace) := by
  have quiet := fun moment member => (uneventful moment member).quiet
  have unannounced : ∀ moment ∈ first, Unannounced moment.1 := fun moment member => (uneventful moment member).silent
  cases announcement with
  | unannounced silent kept =>
    exact .unannounced (List.forall_mem_append.mpr ⟨unannounced, silent⟩) ((sessionKept_append quiet).trans kept)
  | @announced inserting rest id split inserted silent announces announced =>
    refine .announced (by rw [split, List.append_assoc]) (inserted.prepend quiet) ?_ announces announced
    exact List.forall_mem_append.mpr ⟨unannounced, silent⟩

/-- Each execution of the program goes like this. -/
def Announcing {α : Type} (config : Config) (pid : Nat) (program : Program α) : Prop :=
  ∀ {world after trace value}, Executes (amidSessions config pid) (program.via onSession) world trace value after →
    Announcement trace

theorem announcing_done {α : Type} (value : α) : Announcing config pid (.done value) := by
  intro world after trace result ran
  obtain ⟨rfl, -, -⟩ := ran.of_done
  exact .unannounced (by simp) rfl

theorem announcing_bind {α β : Type} {program : Program β} {rest : β → Program α}
    (looks : program.Only LooksAround) (goesOn : ∀ value, Announcing config pid (rest value)) :
    Announcing config pid (program >>= rest) := by
  intro world after trace result ran
  rw [via_bind] at ran
  obtain ⟨first, second, middle, value, rfl, left, right⟩ := ran.of_bind
  exact (goesOn value right).prepend (uneventful_of_looksAround left looks)

theorem announcing_announceCreated {userId : Int} {generation : ImageGeneration} {first : SessionTrace}
    {reply : ServiceResult ImageGeneration} (inserted : Insertion first (.ok generation.id))
    (silent : ∀ moment ∈ first, Unannounced moment.1)
    (ran : Executes (amidSessions config pid) ((ImageService.announceCreated userId generation).via onSession) world
      trace reply after) : Announcement (first ++ trace) := by
  refine .announced rfl inserted silent (ran.only (announces_announceCreated userId generation)) ?_
  obtain ⟨turn, met, rest, -, rfl, -⟩ := ran.of_call
  exact ⟨_, List.mem_cons_self, rfl⟩

theorem announcing_insert {userId : Int} {generation : ImageGeneration}
    {next : RepoResult Int → Program (ServiceResult ImageGeneration)}
    (fails : ∀ error, ∃ reply, next (.error error) = .done reply)
    (goesOn : ∀ id, next (.ok id) = ImageService.announceCreated userId { generation with id := id }) :
    Announcing config pid (ImageRepo.insert generation >>= next) := by
  intro world after trace reply ran
  rw [via_bind] at ran
  obtain ⟨first, rest, middle, result, rfl, inserts, goes⟩ := ran.of_bind
  have silent := inserts.only (unannounced_insert generation)
  have insertion := executes_insert inserts
  cases result with
  | ok id =>
    rw [goesOn] at goes
    exact announcing_announceCreated insertion silent goes
  | error error =>
    obtain ⟨refusal, same⟩ := fails error
    rw [same] at goes
    obtain ⟨rfl, rfl, rfl⟩ := goes.of_done
    cases insertion with
    | failed kept => exact .unannounced (by simpa using silent) (by simpa using kept)

theorem announcing_create (userId : Int) (payload : Json) (isAdmin : Bool) :
    Announcing config pid (ImageService.create config userId payload isAdmin) := by
  unfold ImageService.create
  split
  · exact announcing_done _
  · dsimp only
    split
    · exact announcing_done _
    · refine announcing_bind (only_checkActiveTasks (by rfl) isAdmin) fun refused => ?_
      split
      · exact announcing_done _
      · refine announcing_bind looks_readClock fun now => ?_
        refine announcing_bind (only_requestIdOf trivial trivial _) fun requestId => ?_
        refine announcing_bind (only_findByRequestIdAndUserId (by rfl)) fun existing => ?_
        split
        · exact announcing_done _
        · exact announcing_done _
        · exact announcing_insert (fun error => ⟨_, rfl⟩) fun id => rfl

theorem create_own_iff {userId : Int} {payload : Json} {isAdmin : Bool} {reply : ServiceResult ImageGeneration}
    (ran : Executes (amidSessions config pid) ((ImageService.create config userId payload isAdmin).via onSession) world
      trace reply after) :
    (∀ moment ∈ trace, ∀ id, announcedId moment.1 id → Own trace id) ↔ sessionKept trace = true := by
  cases announcing_create userId payload isAdmin ran with
  | unannounced silent kept =>
    exact ⟨fun _ => kept, fun _ moment member id announced => (silent moment member id announced).elim⟩
  | @announced first rest id split inserted silent announces announced =>
    have kept : sessionKept trace = sessionKept first := by
      rw [split, sessionKept_append_right fun moment member => (announces moment member).quiet]
    have same : insertedIds trace = insertedIds first := by
      have none := insertedIds_of_quiet fun moment member => (announces moment member).quiet.1
      simp only [insertedIds, split, List.filterMap_append] at none ⊢
      rw [none, List.append_nil]
    have named : ∀ moment ∈ trace, ∀ id', announcedId moment.1 id' → id' = id := by
      intro moment member id' told
      rw [split] at member
      rcases List.mem_append.mp member with earlier | later
      · exact (silent moment earlier id' told).elim
      · exact (announces moment later).2 id' told
    rw [kept]
    cases inserted with
    | named kept own =>
      refine ⟨fun _ => kept, fun _ moment member id' told => ?_⟩
      rw [named moment member id' told]
      exact ⟨own.1, same.trans own.2⟩
    | misnamed lost =>
      obtain ⟨moment, member, told⟩ := announced
      constructor
      · intro names
        have present : moment ∈ trace := split ▸ List.mem_append_right _ member
        exact (Int.lt_irrefl 0 (names moment present 0 told).1).elim
      · intro kept
        rw [lost] at kept
        cases kept

/-- `insert` returns an error or the id of its own row, and `create` announces nothing else,
exactly if no ping after the INSERT finds the session dead or the call is then broken off. -/
theorem inserted_own_iff (config : Config) (pid : Nat) (world after : SessionWorld) (trace : SessionTrace) :
    (∀ generation result, Executes (amidSessions config pid) ((ImageRepo.insert generation).via onSession) world
        trace result after →
      ((∀ id, result = .ok id → Own trace id) ↔ sessionKept trace = true)) ∧
    (∀ userId payload isAdmin reply, Executes (amidSessions config pid)
        ((ImageService.create config userId payload isAdmin).via onSession) world trace reply after →
      ((∀ moment ∈ trace, ∀ id, announcedId moment.1 id → Own trace id) ↔ sessionKept trace = true)) :=
  ⟨fun _ _ ran => insert_own_iff ran, fun _ _ _ _ ran => create_own_iff ran⟩

/-- The thread's session was verified at one second; it is half a minute later. -/
def idleSession : SessionWorld where
  base := .empty
  threads _ := { session := some 0, last_verified_at := Chrono.seconds 1 }
  lastInsertId _ := 0
  opened := 1
  steady := Chrono.seconds 30
  positive := by decide

/-- The INSERT is sent in time; the server then goes away and comes back, and the query for
the id finds the old session dead. -/
def reconnecting : List ((SessionWorld → SessionWorld) × Turn) :=
  let soon : SessionWorld → SessionWorld := id
  let later : SessionWorld → SessionWorld := fun world => { world with steady := world.steady + Chrono.seconds 2 }
  [(soon, {}), (soon, {}), (soon, {}), (later, {}), (soon, {}), (soon, { pinged := .refused }), (soon, {}),
    (soon, {}), (soon, {}), (soon, {}), (soon, {})]

theorem insert_names_none : ¬ ∀ config pid world after trace generation result,
    Executes (amidSessions config pid) ((ImageRepo.insert generation).via onSession) world trace result after →
      ∀ id, result = .ok id → Own trace id := by
  intro names
  have others : ∀ step ∈ reconnecting, ∀ world, (amidSessions defaultConfig 0).drift world (step.1 world) := by
    have soon : ∀ world, (amidSessions defaultConfig 0).drift world world := by
      exact fun world => ⟨Int.le_refl _, rfl, fun _ _ => rfl, rfl⟩
    have later : ∀ world, (amidSessions defaultConfig 0).drift world
        { world with steady := world.steady + Chrono.seconds 2 } := by
      exact fun world => ⟨Int.le_add_of_nonneg_right (by decide), rfl, fun _ _ => rfl, rfl⟩
    simp [reconnecting, soon, later]
  have runs : (((ImageRepo.insert { created_at := 1 }).via onSession).runAmong
      (amidSessions defaultConfig 0).perform reconnecting idleSession).map Prod.fst = some (.ok 0) := by
    rfl
  obtain ⟨⟨result, after⟩, ran, told⟩ := Option.map_eq_some_iff.mp runs
  have executes := executes_of_runAmong others ran
  exact Int.lt_irrefl 0 (names defaultConfig 0 idleSession after _ _ result executes 0 told).1

end Text2Image.DBManager
