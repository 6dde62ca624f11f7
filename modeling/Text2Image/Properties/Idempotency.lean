import Text2Image.Properties.Transitions
import Text2Image.Services.Executions
import Text2Image.Services.Footprint

/-! One task for each request id of a user, however often it is submitted. -/

set_option autoImplicit false

namespace Text2Image

open Concurrency System TaskStatus

variable {config : Config}

/-! ## What a creation replies -/

/-- Where a creation has the id from that it replies: from the row it found, or
from its own INSERT. -/
inductive Identified (userId : Int) (requestId : String) (past : Past) (id : Int) : Prop where
  | found {row : Row} (read : past.got (.selectByRequestIdAndUserId requestId userId) (some row))
      (same : row.id = id) : Identified userId requestId past id
  | inserted {values : Row} {older : Past} (own : values.user_id = userId)
      (named : values.request_id = requestId)
      (given : (⟨.lastInsertId, .ok id⟩ : Taken interface) :: ⟨.sql (.insert values), .ok ()⟩ :: older <:+
        past) : Identified userId requestId past id

variable {past : Past}

theorem gives_findByRequestIdAndUserId (requestId : String) (userId : Int) :
    Gives (ImageRepo.findByRequestIdAndUserId requestId userId) past fun later result =>
      ∀ image, result = .ok (some image) → ∃ row,
        later.got (.selectByRequestIdAndUserId requestId userId) (some row) ∧ row.id = image.id := by
  unfold ImageRepo.findByRequestIdAndUserId
  apply (gives_sql _).bind
  rintro later answer _ rfl
  match answer with
  | .error error =>
    refine .done ?_
    intro image same
    cases same
  | .ok (none : Option Row) =>
    refine .done ?_
    intro image same
    cases same
  | .ok (some row) =>
    refine .done ?_
    intro image same
    cases same
    exact ⟨row, List.mem_cons_self, rfl⟩

theorem gives_insert (generation : ImageGeneration) :
    Gives (ImageRepo.insert generation) past fun later result => ∀ id, result = .ok id →
      ∃ createdAt older, later = (⟨.lastInsertId, .ok id⟩ : Taken interface) ::
        ⟨.sql (.insert (ImageRepo.insertValues generation createdAt)), .ok ()⟩ :: older := by
  unfold ImageRepo.insert
  apply (Prog.follows_free _ _).bind
  intro later createdAt _ _
  apply (gives_sql _).bind
  rintro _ answer _ rfl
  match answer with
  | .error error =>
    refine .done ?_
    intro id same
    cases same
  | .ok () =>
    refine .call trivial fun answer => .done ?_
    rintro id rfl
    exact ⟨createdAt, later, rfl⟩

theorem gives_announceCreated (userId : Int) (generation : ImageGeneration) :
    Gives (ImageService.announceCreated userId generation) past fun _ result =>
      ∀ image, result = .ok image → image.id = generation.id := by
  unfold ImageService.announceCreated
  apply (Prog.follows_free _ _).bind
  intro later published _ _
  cases published with
  | error what =>
    refine .done ?_
    intro image same
    cases same
  | ok _ =>
    apply (Prog.follows_free _ _).bind
    intro _ _ _ _
    apply (Prog.follows_free _ _).bind
    intro _ _ _ _
    apply (Prog.follows_free _ _).bind
    intro _ _ _ _
    refine .done ?_
    intro image same
    cases same
    rfl

/-- A creation with a request id replies the id of a row with that request. -/
theorem gives_create (userId : Int) (payload : Json) (isAdmin : Bool) :
    Gives (ImageService.create config userId payload isAdmin) past fun later result =>
      ∀ image, result = .ok image → ∀ requestId,
        (ImageService.trimmed (.fromJson payload)).request_id = requestId → requestId ≠ "" →
        Identified userId requestId later image.id := by
  have refused : ∀ {later : Past} (error : ServiceError),
      Gives (return .error error : Program (ServiceResult ImageGeneration)) later fun later result =>
        ∀ image, result = .ok image → ∀ requestId,
          (ImageService.trimmed (.fromJson payload)).request_id = requestId → requestId ≠ "" →
          Identified userId requestId later image.id := by
    intro later error
    refine .done ?_
    intro image same
    cases same
  unfold ImageService.create
  split
  · exact refused _
  dsimp only
  split
  · exact refused _
  apply (Prog.follows_free _ _).bind
  intro checked error _ _
  cases error with
  | some error => exact refused error
  | none =>
    apply (Prog.follows_free _ _).bind
    intro clocked now _ _
    have named : Gives (ImageService.requestIdOf (ImageService.trimmed (.fromJson payload))) clocked
        fun _ given => (ImageService.trimmed (.fromJson payload)).request_id ≠ "" →
          given = (ImageService.trimmed (.fromJson payload)).request_id := by
      unfold ImageService.requestIdOf
      split
      · rename_i empty
        refine (Prog.follows_free _ _).mono fun _ _ _ _ given => ?_
        exact (given (String.isEmpty_iff.mp empty)).elim
      · exact .done fun _ => rfl
    apply named.bind
    intro later given _ same
    apply (gives_findByRequestIdAndUserId _ _).bind
    intro searched existing _ known
    match existing with
    | .error error => exact refused _
    | .ok (some image) =>
      refine .done ?_
      intro image' equal requestId own nonempty
      cases equal
      obtain ⟨row, read, id⟩ := known image rfl
      have requested := (same (own.symm ▸ nonempty)).trans own
      exact .found (requested ▸ read) id
    | .ok none =>
      apply (gives_insert _).bind
      intro inserted answer _ known
      cases answer with
      | error error => exact refused _
      | ok insertedId =>
        refine (gives_announceCreated userId _).suffix.mono ?_
        rintro later' result _ ⟨kept, suffix⟩ image equal requestId own nonempty
        obtain ⟨createdAt, older, rfl⟩ := known insertedId rfl
        have requested := (same (own.symm ▸ nonempty)).trans own
        rw [kept image equal]
        exact .inserted rfl requested suffix

/-! ## The tasks of a request -/

/-- No two rows of a user carry the same request id, as the database compares it. -/
def UniqueRequests (t : ImageTable) : Prop :=
  ∀ a ∈ t.rows, ∀ b ∈ t.rows, a.user_id = b.user_id → collates a.request_id b.request_id = true → a = b

/-- The user's own `deleteById` has deleted this row. -/
def DeletedBy (log : List (backend config).Entry) (userId id : Int) : Prop :=
  ∃ event t, .performed event ∈ log ∧ event.call = .deleteById userId id ∧
    statementOf (.performed event) = some (t, .deleteByIdAndUserId id userId) ∧
    ∃ row ∈ t.rows, deletable id userId row = true

/-- The row with this id carries the user's request, or the user has deleted it. -/
def Carried (view : (backend config).View) (userId : Int) (requestId : String) (id : Int) : Prop :=
  (∃ row ∈ view.world.db.rows, row.id = id ∧ row.user_id = userId ∧ row.request_id = requestId) ∨
    DeletedBy view.log userId id

def insertsNew (t : ImageTable) : Stmt → Bool
  | .insert values => t.rows.all fun row =>
      row.user_id ≠ values.user_id || ! collates row.request_id values.request_id
  | _ => true

/-- The session that is asked for the id it has inserted is still the same. -/
def staysConnected (op : Op) (choice : Choice) : Bool :=
  match op with
  | .lastInsertId => ! choice.freshSession
  | _ => true

/-- Every INSERT finds no row of its user with its request id, and no session is
replaced before it was asked for the id it has inserted. -/
abbrev submitsOnce : Condition (backend config) where
  starts _ _ := True
  performs _ _ op choice view :=
    (executed op choice).all (insertsNew view.world.db) = true ∧ staysConnected op choice = true

variable {view : (backend config).View} {pid : Nat} {call : Call} {op : Op} {choice : Choice}
  {helper : Bool} {userId id : Int} {requestId : String} {t : ImageTable} {s : Stmt}

theorem DeletedBy.grow {log log' : List (backend config).Entry} (deleted : DeletedBy log userId id)
    (grown : log ⊆ log') : DeletedBy log' userId id := by
  obtain ⟨event, t, member, rest⟩ := deleted
  exact ⟨event, t, grown member, rest⟩

/-- Rows keep their requests, so only an INSERT can bring a request in twice. -/
theorem UniqueRequests.table (unique : UniqueRequests t) (fresh : insertsNew t s = true) :
    UniqueRequests (s.table t) := by
  have kept : ∀ {old new : Row}, old ∈ t.rows → s.onRow t old = some new → SameInput old new := by
    intro old new member became
    have change := s.onRow_change member
    rw [became] at change
    exact change.sameInput
  intro a left b right user request
  rcases Stmt.mem_table.mp left with ⟨old, before, became⟩ | inserted <;>
    rcases Stmt.mem_table.mp right with ⟨old', before', became'⟩ | inserted'
  · have input := kept before became
    have input' := kept before' became'
    rw [input.user_id, input'.user_id] at user
    rw [input.request_id, input'.request_id] at request
    have same := unique old before old' before' user request
    rw [same, became'] at became
    exact (Option.some.inj became).symm
  · cases s with
    | insert values =>
      cases inserted'
      cases became
      have apart := List.all_eq_true.mp fresh a before
      simp [user, request] at apart
    | _ => cases inserted'
  · cases s with
    | insert values =>
      cases inserted
      cases became'
      have apart := List.all_eq_true.mp fresh b before'
      rw [collates_comm] at request
      have different : b.user_id ≠ values.user_id := by simpa [request] using apart
      exact (different user.symm).elim
    | _ => cases inserted
  · rw [inserted] at inserted'
    exact Option.some.inj inserted'

/-- A request stays with its row until the row is deleted. -/
theorem Carried.performs (carried : Carried view userId requestId id)
    (may : Acts config view pid call op helper) (owned : KeepersOwned config view)
    (alive : live pid view.log = some call) :
    Carried (view.performs pid call helper op choice) userId requestId id := by
  rcases carried with ⟨row, member, rfl, rfl, rfl⟩ | deleted
  · cases found : executed op choice with
    | none => exact .inl ⟨row, by rwa [performs_db_silent found], rfl, rfl, rfl⟩
    | some s =>
      have change := s.onRow_change member
      cases became : s.onRow view.world.db row with
      | some row' =>
        rw [became] at change
        have input := change.sameInput
        refine .inl ⟨row', ?_, Stmt.onRow_id became, input.user_id, input.request_id⟩
        rw [performs_db_executed found]
        exact Stmt.mem_table.mpr (.inl ⟨row, member, became⟩)
      | none =>
        rw [became] at change
        have issued := may.issued owned alive found
        cases change with
        | delete terminal =>
          cases issued with
          | sent sends =>
            refine .inr ⟨_, view.world.db, List.mem_cons_self, sends_delete sends, ?_, row, member,
              deletable_iff.mpr ⟨rfl, rfl, terminal⟩⟩
            rw [statementOf_performs, found]
            rfl
  · exact .inr (deleted.grow (List.subset_cons_self _ _))

theorem Carried.settles {after : World} {log : List (backend config).Entry}
    (carried : Carried view userId requestId id) (settles : view.world.Settles after)
    (grown : view.log ⊆ log) : Carried ⟨after, log⟩ userId requestId id := by
  rcases carried with ⟨row, member, same⟩ | deleted
  · exact .inl ⟨row, settles.db ▸ member, same⟩
  · exact .inr (deleted.grow grown)

/-- What is known of all requests: every row that was ever there, and every row
a process has inserted, still carries its request unless it was deleted. -/
structure Tracked (view : (backend config).View) : Prop where
  unique : UniqueRequests view.world.db
  seen : ∀ event row, .performed event ∈ view.log → row ∈ event.before.db.rows →
    Carried view row.user_id row.request_id row.id
  session : ∀ pid values older,
    history pid view.log = (⟨.sql (.insert values), .ok ()⟩ : Taken interface) :: older →
    Carried view values.user_id values.request_id (view.world.session pid)
  identified : ∀ pid values older (id : Int),
    (⟨.lastInsertId, .ok id⟩ : Taken interface) :: ⟨.sql (.insert values), .ok ()⟩ :: older <:+
      history pid view.log → Carried view values.user_id values.request_id id

/-- A process that has been answered an INSERT has its new row's id in its session. -/
theorem answered_insert {world : World} {values : Row}
    (same : (⟨op, (perform config pid op choice world).1⟩ : Taken interface) =
      ⟨.sql (.insert values), .ok ()⟩) :
    executed op choice = some (.insert values) ∧
      (perform config pid op choice world).2.session pid = world.db.next := by
  generalize answered : (perform config pid op choice world).1 = answer at same
  cases same
  exact perform_insert config pid values choice world answered

/-- The id a session is told is the one of its last INSERT, unless it was replaced. -/
theorem answered_lastInsertId {world : World} {given : Int} (stays : staysConnected op choice = true)
    (same : (⟨op, (perform config pid op choice world).1⟩ : Taken interface) =
      ⟨.lastInsertId, .ok given⟩) : given = world.session pid := by
  generalize answered : (perform config pid op choice world).1 = answer at same
  cases same
  have kept : choice.freshSession = false := by simpa [staysConnected] using stays
  have answer : (if choice.succeeds then .ok (if choice.freshSession then 0 else world.session pid)
      else .error choice.error : RepoResult Int) = .ok given := answered
  cases succeeds : choice.succeeds with
  | true =>
    simp only [succeeds, kept, if_true, Bool.false_eq_true, if_false] at answer
    exact (Except.ok.inj answer).symm
  | false =>
    simp only [succeeds, Bool.false_eq_true, if_false] at answer
    cases answer

theorem Tracked.performs (tracked : Tracked view) (may : Acts config view pid call op helper)
    (owned : KeepersOwned config view) (alive : live pid view.log = some call)
    (meets : submitsOnce.performs pid call op choice view) :
    Tracked (view.performs pid call helper op choice) := by
  have stays : ∀ {userId requestId id}, Carried view userId requestId id →
      Carried (view.performs pid call helper op choice) userId requestId id :=
    fun carried => carried.performs may owned alive
  have table : ∀ s, executed op choice = some s →
      (view.performs pid call helper op choice).world.db = s.table view.world.db :=
    fun s found => performs_db_executed found
  constructor
  · cases found : executed op choice with
    | none =>
      rw [performs_db_silent found]
      exact tracked.unique
    | some s =>
      rw [table s found]
      exact tracked.unique.table (Option.all_eq_true _ _ |>.mp meets.1 s found)
  · intro event row member present
    rcases List.mem_cons.mp member with same | old
    · cases same
      exact stays (.inl ⟨row, present, rfl, rfl, rfl⟩)
    · exact stays (tracked.seen event row old present)
  · intro other values older newest
    rcases history_performs view pid call helper op choice other
      with ⟨rfl, news⟩ | same
    · -- the process has just inserted: its session has the id of the new row
      rw [news] at newest
      obtain ⟨executes, session⟩ := answered_insert (List.cons.inj newest).1
      refine .inl ⟨{ values with id := view.world.db.next }, ?_, session.symm, rfl, rfl⟩
      rw [table _ executes]
      exact Stmt.mem_table.mpr (.inr rfl)
    · rw [same] at newest
      have before := stays (tracked.session other values older newest)
      rcases perform_session config pid op choice view.world other with
        kept | ⟨values', executes, rfl⟩
      · rw [View.performs_world]
        exact kept.symm ▸ before
      · -- only the program itself inserts, and then its history has grown
        obtain ⟨rfl, _⟩ := executed_eq_some.mp executes
        cases helper with
        | true => cases may
        | false =>
          rw [history_own] at same
          exact (List.cons_ne_self _ _ same).elim
  · intro other values older id suffix
    rcases history_performs view pid call helper op choice other
      with ⟨rfl, news⟩ | same
    · rw [news] at suffix
      rcases List.suffix_cons_iff.mp suffix with whole | within
      · obtain ⟨taken, past⟩ := List.cons.inj whole
        have own : id = view.world.session other := answered_lastInsertId meets.2 taken.symm
        rw [own]
        exact stays (tracked.session other values older past.symm)
      · exact stays (tracked.identified other values older id within)
    · rw [same] at suffix
      exact stays (tracked.identified other values older id suffix)

theorem tracked_kept : Kept config submitsOnce Tracked where
  acts _ _ _ _ _ _ _ owned tracked alive may meets := tracked.performs may owned alive meets
  started view pid call tracked _ _ := by
    have stays : ∀ {userId requestId id}, Carried view userId requestId id →
        Carried (view.push (.started pid call)) userId requestId id :=
      fun carried => carried.settles (World.Settles.refl _) (List.subset_cons_self _ _)
    refine ⟨tracked.unique, ?_, ?_, ?_⟩
    · intro event row member present
      rcases List.mem_cons.mp member with same | old
      · cases same
      · exact stays (tracked.seen event row old present)
    · intro other values older newest
      exact stays (tracked.session other values older newest)
    · intro other values older id suffix
      exact stays (tracked.identified other values older id suffix)
  quiet view entry after tracked settles _ unperformed := by
    have stays : ∀ {userId requestId id}, Carried view userId requestId id →
        Carried ⟨after, entry :: view.log⟩ userId requestId id :=
      fun carried => carried.settles settles (List.subset_cons_self _ _)
    have same : ∀ pid, history pid (entry :: view.log) = history pid view.log :=
      fun _ => history_unperformed unperformed
    refine ⟨settles.db ▸ tracked.unique, ?_, ?_, ?_⟩
    · intro event row member present
      rcases List.mem_cons.mp member with newest | old
      · exact (unperformed event newest.symm).elim
      · exact stays (tracked.seen event row old present)
    · intro other values older newest
      rw [same] at newest
      rw [settles.session]
      exact stays (tracked.session other values older newest)
    · intro other values older id suffix
      rw [same] at suffix
      exact stays (tracked.identified other values older id suffix)
  passes view after tracked settles := by
    have stays : ∀ {userId requestId id}, Carried view userId requestId id →
        Carried ⟨after, view.log⟩ userId requestId id :=
      fun carried => carried.settles settles (List.Subset.refl _)
    refine ⟨settles.db ▸ tracked.unique, ?_, ?_, ?_⟩
    · intro event row member present
      exact stays (tracked.seen event row member present)
    · intro other values older newest
      rw [settles.session]
      exact stays (tracked.session other values older newest)
    · intro other values older id suffix
      exact stays (tracked.identified other values older id suffix)

/-! ## A create that looks its request up alone -/

/-- A row is inserted only after its request was looked up and not found. -/
def Searches : Protocol interface := fun past op =>
  match op with
  | .sql (.insert values) =>
    Past.got past (.selectByRequestIdAndUserId values.request_id values.user_id) (none : Option Row)
  | _ => True

theorem searches_of_unnamed {past : Past} {op : Op} (unnamed : Unnamed op) : Searches past op := by
  unfold Searches
  split
  · exact unnamed.elim
  · trivial

theorem follows_searches {α : Type} {program : Program α} (only : program.Only Unnamed) (past : Past) :
    program.Follows Searches (fun _ _ => True) past :=
  (only.follows past).weaken fun _ _ => searches_of_unnamed

theorem searches_find (requestId : String) (userId : Int) (past : Past) :
    (ImageRepo.findByRequestIdAndUserId requestId userId).Follows Searches (fun later existing =>
      existing = .ok none →
        Past.got later (.selectByRequestIdAndUserId requestId userId) (none : Option Row)) past := by
  refine .call trivial fun answer => ?_
  match answer with
  | .error error => exact .done nofun
  | .ok (none : Option Row) => exact .done fun _ => List.mem_cons_self
  | .ok (some row) => exact .done nofun

theorem searches_create (userId : Int) (payload : Json) (isAdmin : Bool) :
    (ImageService.create config userId payload isAdmin).Follows Searches (fun _ _ => True) [] := by
  unfold ImageService.create
  split
  · exact .done trivial
  dsimp only
  split
  · exact .done trivial
  apply (follows_searches (only_checkActiveTasks trivial isAdmin) _).bind
  intro _ refused _ _
  cases refused with
  | some error => exact .done trivial
  | none =>
    refine .call trivial fun now => ?_
    apply (follows_searches (only_requestIdOf trivial trivial _) _).bind
    intro _ requestId _ _
    apply (searches_find _ _ _).bind
    intro searched existing _ absent
    match existing with
    | .error error => exact .done trivial
    | .ok (some image) => exact .done trivial
    | .ok none =>
      have inserts : (ImageRepo.insert (ImageService.prepared (ImageService.trimmed (.fromJson payload)) userId
          now requestId)).Follows Searches (fun _ _ => True) searched := by
        unfold ImageRepo.insert
        apply (follows_searches (only_createdAtOf trivial _) _).bind
        intro timed createdAt grown _
        refine .call (grown (absent rfl)) fun answer => ?_
        cases answer with
        | error error => exact .done trivial
        | ok _ => exact .call trivial fun _ => .done trivial
      apply inserts.bind
      intro _ inserted _ _
      cases inserted with
      | error error => exact .done trivial
      | ok id => exact follows_searches (unnamed_announceCreated _ _) _

theorem searches_call (call : Call) :
    ((backend config).program call).Follows Searches (fun _ _ => True) [] := by
  cases call with
  | create userId payload isAdmin =>
    exact (searches_create userId payload isAdmin).bind fun _ _ _ _ => .done trivial
  | _ =>
    -- no other call inserts
    refine (backend_obeys config _).weaken fun past op allowed => ?_
    unfold Searches
    split
    · exact (show False from allowed).elim
    · trivial

def carriesRequest (userId : Int) (requestId : String) (row : Row) : Bool :=
  collates row.request_id requestId ∧ row.user_id = userId

def Stmt.submits (userId : Int) (requestId : String) : Stmt → Bool
  | .insert values => carriesRequest userId requestId values
  | _ => false

/-- The entry is a statement that has inserted the user's request. -/
def submission (userId : Int) (requestId : String) (entry : (backend config).Entry) : Bool :=
  (statementOf entry).any fun found => found.2.submits userId requestId

theorem absent_table (absent : ∀ row ∈ t.rows, carriesRequest userId requestId row = false)
    (quiet : s.submits userId requestId = false) :
    ∀ row ∈ (s.table t).rows, carriesRequest userId requestId row = false := by
  intro row member
  rcases Stmt.mem_table.mp member with ⟨old, before, became⟩ | inserted
  · have change := s.onRow_change before
    rw [became] at change
    have input := change.sameInput
    have gone := absent old before
    rw [carriesRequest] at gone ⊢
    rwa [input.user_id, input.request_id]
  · cases s with
    | insert values =>
      cases inserted
      exact quiet
    | _ => cases inserted

/-- A request that was looked up and not found is not there, unless it has been inserted since. -/
def AbsentSince (userId : Int) (requestId : String) (t : ImageTable) (log : List (backend config).Entry) : Prop :=
  ∀ gap entry older before, log = gap ++ entry :: older →
    statementOf entry = some (before, .selectByRequestIdAndUserId requestId userId) →
    (∀ row ∈ before.rows, carriesRequest userId requestId row = false) →
    (∀ later ∈ gap, submission userId requestId later = false) →
    ∀ row ∈ t.rows, carriesRequest userId requestId row = false

theorem absentSince_kept (userId : Int) (requestId : String) : Kept config .free fun view =>
    AbsentSince userId requestId view.world.db view.log := by
  refine Kept.of_statements ?_ ?_
  · intro t log entry silent absent gap old older before split found none quiet
    cases gap with
    | nil =>
      obtain ⟨rfl, _⟩ := List.cons.inj split
      rw [silent] at found
      cases found
    | cons first gap =>
      obtain ⟨_, split⟩ := List.cons.inj split
      exact absent gap old older before split found none fun later member =>
        quiet later (List.mem_cons_of_mem _ member)
  · intro view pid call helper op choice s absent executes _ _ gap old older before split found none quiet
    have newest : statementOf (.performed (view.event pid call helper op choice)) = some (view.world.db, s) := by
      rw [statementOf_performs, executes]
      rfl
    cases gap with
    | nil =>
      obtain ⟨rfl, _⟩ := List.cons.inj split
      rw [newest] at found
      cases found
      exact absent_table none rfl
    | cons head gap =>
      obtain ⟨rfl, rest⟩ := List.cons.inj split
      refine absent_table (absent gap old older before rest found none fun later member =>
        quiet later (List.mem_cons_of_mem _ member)) ?_
      have last := quiet _ List.mem_cons_self
      simpa [submission, newest] using last

/-- Nobody has inserted the request since the process looked it up. -/
def LookedUpAlone (pid : Nat) (values : Row) (log : List (backend config).Entry) : Prop :=
  ∀ gap event older, log = gap ++ .performed event :: older → event.pid = pid →
    event.op = .sql (.selectByRequestIdAndUserId values.request_id values.user_id) →
    ∀ later ∈ gap, submission values.user_id values.request_id later = false

/-- No other create of the request inserts between a create's SELECT and its INSERT, and no session is
replaced before it was asked for the id it has inserted. -/
def submitsAlone : Condition (backend config) where
  starts _ _ := True
  performs pid _ op choice view :=
    (∀ values, executed op choice = some (.insert values) → LookedUpAlone pid values view.log) ∧
      staysConnected op choice = true

/-- Then the INSERT finds the request new. -/
theorem submitsOnce_of_alone (genuine : AllGenuine view.log)
    (absent : ∀ userId requestId, AbsentSince userId requestId view.world.db view.log)
    (may : Acts config view pid call op helper)
    (asks : helper = false → AsksFor (backend config) call (history pid view.log) op)
    (alone : submitsAlone.performs pid call op choice view) :
    submitsOnce.performs pid call op choice view := by
  refine ⟨(Option.all_eq_true _ _).mpr fun s found => ?_, alone.2⟩
  cases s with
  | insert values =>
    obtain ⟨rfl, _⟩ := executed_eq_some.mp found
    cases helper with
    | true => cases may
    | false =>
      have searched : Past.got (history pid view.log)
          (.selectByRequestIdAndUserId values.request_id values.user_id) none :=
        (asks rfl).allowed (searches_call call)
      obtain ⟨event, member, own, _, sent, answer⟩ := got_mem genuine searched
      obtain ⟨gap, older, split⟩ := List.append_of_mem member
      have reads : event.op = .sql (.selectByRequestIdAndUserId values.request_id values.user_id) := by
        obtain ⟨s, executes, same⟩ := Option.map_eq_some_iff.mp sent
        cases same
        exact (executed_eq_some.mp executes).1
      have none : ∀ row ∈ event.before.db.rows,
          carriesRequest values.user_id values.request_id row = false := by
        intro row present
        refine Bool.eq_false_iff.mpr fun carries => ?_
        have chosen := Keyed.Table.mem_select.mpr ⟨present, carries⟩
        obtain ⟨_, _, fetched⟩ := fetchOne_of_ne_nil (List.ne_nil_of_mem chosen) event.choice.pick
        cases answer.trans fetched
      have new := absent _ _ gap _ older _ split sent none (alone.1 values found gap event older split own reads)
      refine List.all_eq_true.mpr fun row present => ?_
      have other := new row present
      simp only [carriesRequest, decide_eq_false_iff_not, not_and] at other
      by_cases carried : collates row.request_id values.request_id = true
      · simp [other carried]
      · simp [carried]
  | _ => rfl

theorem tracked_upkept : Upkept config submitsAlone fun view =>
    (∀ userId requestId, AbsentSince userId requestId view.world.db view.log) ∧ Tracked view where
  acts view pid call helper op choice genuine owned holds alive may asks meets :=
    ⟨fun userId requestId => (absentSince_kept userId requestId).acts view pid call helper op choice genuine owned
        (holds.1 userId requestId) alive may trivial,
      holds.2.performs may owned alive (submitsOnce_of_alone genuine holds.1 may asks meets)⟩
  started view pid call holds unused _ :=
    ⟨fun userId requestId => (absentSince_kept userId requestId).started view pid call
        (holds.1 userId requestId) unused trivial,
      tracked_kept.started view pid call holds.2 unused trivial⟩
  returned view pid call reply holds alive leads :=
    ⟨fun userId requestId => (absentSince_kept userId requestId).upkept.returned view pid call reply
        (holds.1 userId requestId) alive leads,
      tracked_kept.upkept.returned view pid call reply holds.2 alive leads⟩
  crashed view pid holds :=
    ⟨fun userId requestId => (absentSince_kept userId requestId).upkept.crashed view pid
        (holds.1 userId requestId),
      tracked_kept.upkept.crashed view pid holds.2⟩
  passes view after holds settles :=
    ⟨fun userId requestId => (absentSince_kept userId requestId).passes view after
        (holds.1 userId requestId) settles,
      tracked_kept.passes view after holds.2 settles⟩

/-! ## Runs -/

/-- A creation for this user with this request id has replied with this task. -/
def Submitted (log : List (backend config).Entry) (userId : Int) (requestId : String) (id : Int) : Prop :=
  ∃ newer pid older payload isAdmin, ∃ image : ImageGeneration,
    log = newer ++ .returned pid (Reply.image (.ok image)) :: older ∧
    live pid older = some (Call.create userId payload isAdmin) ∧ image.id = id ∧
    (ImageService.trimmed (.fromJson payload)).request_id = requestId ∧ requestId ≠ ""

/-- What the reply of each call promises; only creations are asked. -/
def Call.replies : Call → Past → Reply → Prop
  | .create userId payload _, past, .image (.ok image) =>
    ∀ requestId, (ImageService.trimmed (.fromJson payload)).request_id = requestId → requestId ≠ "" →
      Identified userId requestId past image.id
  | _, _, _ => True

theorem replies_given (call : Call) :
    ((backend config).program call).Follows (fun _ _ => True) (call.replies) [] := by
  cases call with
  | create userId payload isAdmin =>
    apply (gives_create userId payload isAdmin).bind
    intro later result _ known
    refine .done ?_
    cases result with
    | error error => trivial
    | ok image => exact known image rfl
  | _ => exact (Prog.follows_free _ _).mono fun _ reply _ _ => by cases reply <;> trivial

/-- What is asked of requests: one row for each, and one task in all replies
to it until the user deletes that task. -/
structure Idempotent (view : (backend config).View) : Prop where
  unique : UniqueRequests view.world.db
  same : ∀ userId requestId first second, Submitted view.log userId requestId first →
    Submitted view.log userId requestId second →
    DeletedBy view.log userId first ∨ DeletedBy view.log userId second ∨
      first = second ∧ ∃ row ∈ view.world.db.rows, row.id = first ∧ row.user_id = userId ∧
        collates row.request_id requestId = true

/-- A task that was replied is there with its request, or was deleted. -/
theorem Tracked.submitted {world : World} {labels : List (backend config).Label}
    (tracked : Tracked (run (boot config world) labels).view)
    (submitted : Submitted (run (boot config world) labels).view.log userId requestId id) :
    DeletedBy (run (boot config world) labels).view.log userId id ∨
      ∃ row ∈ (run (boot config world) labels).view.world.db.rows, row.id = id ∧
        row.user_id = userId ∧ collates row.request_id requestId = true := by
  obtain ⟨newer, pid, older, payload, isAdmin, image, split, alive, rfl, own, nonempty⟩ := submitted
  have follows : (run (boot config world) labels).Follows (protocols config) := follows_run world labels
  have genuine := follows.genuine
  have suffix := history_suffix pid (newer ++ [.returned pid (Reply.image (.ok image))]) older
  rw [List.append_assoc, List.singleton_append, ← split] at suffix
  obtain ⟨call, alive', promised⟩ := (tracks_run _ labels).promised replies_given split
  rw [alive] at alive'
  cases alive'
  have carried : ∃ carriedId, collates carriedId requestId = true ∧
      Carried (run (boot config world) labels).view userId carriedId image.id := by
    have identified : Identified userId requestId (history pid older) image.id :=
      promised requestId own nonempty
    cases identified with
    | @found row read same =>
      obtain ⟨event, present, _, _, _, answer⟩ := got_mem genuine (suffix.subset read)
      obtain ⟨member, matching⟩ := List.mem_filter.mp (fetchOne_mem answer.symm)
      obtain ⟨request, rfl⟩ := of_decide_eq_true matching
      exact ⟨row.request_id, request, same ▸ tracked.seen event row present member⟩
    | @inserted values past mine named given =>
      refine ⟨values.request_id, by rw [named, collates_self], ?_⟩
      rw [← mine]
      exact tracked.identified pid values past image.id (given.trans suffix)
  obtain ⟨carriedId, matching, there | deleted⟩ := carried
  · obtain ⟨row, member, same, user, rfl⟩ := there
    exact .inr ⟨row, member, same, user, matching⟩
  · exact .inl deleted

theorem Tracked.idempotent {world : World} {labels : List (backend config).Label}
    (tracked : Tracked (run (boot config world) labels).view) : Idempotent (run (boot config world) labels).view := by
  refine ⟨tracked.unique, ?_⟩
  intro userId requestId first second one two
  rcases tracked.submitted one with deleted | ⟨row, member, same, user, request⟩
  · exact .inl deleted
  rcases tracked.submitted two with deleted | ⟨row', member', same', user', request'⟩
  · exact .inr (.inl deleted)
  rw [collates_comm] at request'
  have equal := tracked.unique row member row' member' (user.trans user'.symm)
    (collates_trans request request')
  refine .inr (.inr ⟨?_, row, member, same, user, request⟩)
  rw [← same, ← same', equal]

/-- Where every INSERT finds the request new, a request has one task. This is so if no other create of
the request inserts between a create's SELECT and its INSERT. -/
theorem submissions_idempotent (world : World) (labels : List (backend config).Label)
    (start : UniqueRequests world.db) :
    (Meets submitsOnce (boot config world) labels → Idempotent (run (boot config world) labels).view) ∧
      (Meets submitsAlone (boot config world) labels → Idempotent (run (boot config world) labels).view) := by
  have tracked : Tracked (boot config world).view := by
    refine ⟨start, ?_, ?_, ?_⟩
    · intro event row member
      cases member
    · intro pid values older newest
      cases newest
    · intro pid values older id suffix
      cases List.suffix_nil.mp suffix
  have absent : ∀ userId requestId, AbsentSince userId requestId (boot config world).view.world.db
      (boot config world).view.log := by
    intro userId requestId gap entry older before empty
    cases gap <;> cases empty
  exact ⟨fun once => (tracked_kept.run tracked labels once).idempotent,
    fun alone => (tracked_upkept.run ⟨absent, tracked⟩ labels alone).2.idempotent⟩

/-- A request is sent again after its first reply. -/
def resentRun : List (backend defaultConfig).Label :=
  .start (.create 1 (promptPayload "a") false) :: succeeds 0 11 ++
    .start (.create 1 (promptPayload "a") false) :: succeeds 1 3

/-- A request is sent again before the first one is in the table. -/
def doubledRun : List (backend defaultConfig).Label :=
  .start (.create 1 (promptPayload "a") false) :: succeeds 0 3 ++
    .start (.create 1 (promptPayload "a") false) :: succeeds 1 3 ++ succeeds 0 2 ++ succeeds 1 2

/-- The ids of the tasks that were replied, newest first. -/
def repliedIds (log : List (backend config).Entry) : List Int :=
  log.filterMap fun
    | .returned _ (.image (.ok image)) => some image.id
    | _ => none

theorem submissions_idempotent_resentRun :
    repliedIds (run (boot defaultConfig World.empty) resentRun).view.log = [1, 1] ∧
      Idempotent (run (boot defaultConfig World.empty) resentRun).view :=
  ⟨by decide +kernel, (submissions_idempotent World.empty resentRun
    fun _ absent => by cases absent).1 (by decide +kernel)⟩

/-- Two rows carry one request. -/
theorem submissions_duplicated : ¬ ∀ labels : List (backend defaultConfig).Label,
    Idempotent (run (boot defaultConfig World.empty) labels).view := by
  intro claim
  have twice : (rowsOf (run (boot defaultConfig World.empty) doubledRun)).map
      (fun row => (row.id, row.user_id, row.request_id)) = [(1, 1, "a"), (2, 1, "a")] := by
    decide +kernel
  have unique := (claim doubledRun).unique
  generalize run (boot defaultConfig World.empty) doubledRun = state at twice unique
  obtain ⟨a, rest, rows, first, others⟩ := List.map_eq_cons_iff.mp twice
  obtain ⟨b, _, rfl, second, _⟩ := List.map_eq_cons_iff.mp others
  have left : a ∈ state.view.world.db.rows := by
    rw [show state.view.world.db.rows = _ from rows]
    exact List.mem_cons_self
  have right : b ∈ state.view.world.db.rows := by
    rw [show state.view.world.db.rows = _ from rows]
    exact List.mem_cons_of_mem _ List.mem_cons_self
  injection first with id user
  injection second with id' user'
  injection user with user request
  injection user' with user' request'
  have same := unique a left b right (user.trans user'.symm)
    (by rw [request, request', collates_self])
  rw [same, id'] at id
  cases id

end Text2Image
