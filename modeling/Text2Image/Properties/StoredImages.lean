import Text2Image.Properties.Transitions
import Text2Image.Services.Executions

/-! Stored images: which objects the rows of finished tasks rely on. -/

set_option autoImplicit false

namespace Text2Image

open Concurrency System TaskStatus

variable {config : Config}

/-! ## Objects -/

/-- The key whose object the operation removes. -/
def removed (op : Op) (choice : Choice) : Option String :=
  match op with
  | .deleteObject key => if choice.applies then some key else none
  | _ => none

/-- What an operation makes of the object under a key. -/
theorem perform_object (config : Config) (pid : Nat) (op : Op) (choice : Choice) (world : World)
    (key : String) :
    (perform config pid op choice world).2.objects key = world.objects key ∨
      removed op choice = some key ∧ (perform config pid op choice world).2.objects key = none ∨
      ∃ data, op = .putObject key data ∧
        (perform config pid op choice world).2.objects key = some data := by
  cases op with
  | putObject other data =>
    simp only [perform]
    split
    · by_cases same : key = other
      · exact .inr (.inr ⟨data, by rw [same], by simp [World.withObject, same]⟩)
      · exact .inl (by simp [World.withObject, Function.update_of_ne same])
    · exact .inl rfl
  | deleteObject other =>
    simp only [perform]
    split
    · rename_i applies
      by_cases same : key = other
      · exact .inr (.inl ⟨by simp [removed, applies, same], by simp [World.withObject, same]⟩)
      · exact .inl (by simp [World.withObject, Function.update_of_ne same])
    · exact .inl rfl
  | sql s =>
    have commit : ∀ world : World, (world.commit pid s).objects = world.objects := by
      intro world
      unfold World.commit
      split <;> rfl
    have keeper : (keeperAfter pid s world).objects = world.objects := by
      unfold keeperAfter
      split
      · split <;> rfl
      · rfl
    left
    simp only [perform]
    split
    · rw [commit, keeper]
    · rfl
    · rw [commit]
  | cacheSetex | cacheDel | bumpVersion | enqueueTask | rebuildTaskQueue | dequeueTask
  | removeFromQueue | acquireLease | releaseLease | forceReleaseLease =>
    left
    simp only [perform]
    split <;> rfl
  | _ => exact .inl rfl

/-- An object survives every operation but its removal. -/
theorem perform_objects (pid : Nat) (op : Op) (choice : Choice) (world : World) {key : String}
    (kept : removed op choice ≠ some key) (stored : (world.objects key).isSome = true) :
    ((perform config pid op choice world).2.objects key).isSome = true := by
  rcases perform_object config pid op choice world key with same | ⟨gone, _⟩ | ⟨data, _, put⟩
  · rw [same]
    exact stored
  · exact (kept gone).elim
  · rw [put]
    rfl

/-- A removal that takes place leaves nothing under its key. -/
theorem perform_removed (pid : Nat) {op : Op} {choice : Choice} (world : World) {key : String}
    (gone : removed op choice = some key) :
    (perform config pid op choice world).2.objects key = none := by
  cases op with
  | deleteObject other =>
    simp only [removed] at gone
    split at gone
    · rename_i applies
      cases gone
      simp [perform, applies, World.withObject]
    · cases gone
  | _ => cases gone

/-- A store that is answered with success has taken place. -/
theorem perform_put (pid : Nat) (key data : String) (choice : Choice) (world : World)
    (answered : (perform config pid (.putObject key data) choice world).1 = .ok true) :
    ((perform config pid (.putObject key data) choice world).2.objects key).isSome = true := by
  have applies : choice.applies = true := by
    have given : choice.orFail true false = .ok true := answered
    unfold Choice.orFail at given
    split at given
    · rename_i succeeds
      have done : choice.outcome = .done := of_decide_eq_true succeeds
      exact decide_eq_true (by rw [done]; decide)
    · split at given
      · cases given
      · cases given
  simp only [perform, applies, if_true, World.withObject, Function.update_self, Option.isSome_some]

theorem justStored_performed {view : (backend config).View} {pid : Nat} {op : Op} {choice : Choice}
    {older : Past} {key : String}
    (put : justStored ((⟨op, (perform config pid op choice view.world).1⟩ : Taken interface) :: older) =
      some key) :
    ((perform config pid op choice view.world).2.objects key).isSome = true := by
  cases op with
  | putObject other data =>
    simp only [justStored] at put
    split at put
    · rename_i answered
      cases put
      exact perform_put pid _ data choice view.world answered
    · cases put
  | _ => cases put

/-! ## The invariant -/

/-- Every finished task has its object, and so has every process that has just
stored one. -/
structure Backed (view : (backend config).View) : Prop where
  rows : ∀ row ∈ view.world.db.rows, row.status = Success →
    (view.world.objects row.storage_key).isSome = true
  stored : ∀ pid call key, live pid view.log = some call →
    justStored (history pid view.log) = some key → (view.world.objects key).isSome = true

/-- No object is removed that a finished task names or that a process at work has
just stored. -/
abbrev removesUnneeded : Condition (backend config) where
  starts _ _ := True
  performs _ _ op choice view := (removed op choice).all fun key =>
    (view.world.db.rows.all fun row => row.status ≠ Success || row.storage_key ≠ key) &&
      view.log.all fun entry => (live entry.pid view.log).isNone ||
        justStored (history entry.pid view.log) ≠ some key

variable {view : (backend config).View} {pid : Nat} {call : Call} {op : Op} {choice : Choice}
  {helper : Bool}

theorem removesUnneeded_row {row : Row}
    (meets : removesUnneeded.performs pid call op choice view) (member : row ∈ view.world.db.rows)
    (success : row.status = Success) : removed op choice ≠ some row.storage_key := by
  intro gone
  have both := Option.all_eq_true _ _ |>.mp meets _ gone
  rw [Bool.and_eq_true] at both
  have apart := List.all_eq_true.mp both.1 row member
  simp [success] at apart

theorem removesUnneeded_stored (meets : removesUnneeded.performs pid call op choice view)
    {other : Nat} {otherCall : Call} (alive : live other view.log = some otherCall) {key : String}
    (put : justStored (history other view.log) = some key) : removed op choice ≠ some key := by
  intro gone
  have both := Option.all_eq_true _ _ |>.mp meets _ gone
  rw [Bool.and_eq_true] at both
  have apart := List.all_eq_true.mp both.2 _ (mem_of_live alive)
  simp [Entry.pid, alive, put] at apart

/-- A success of the table was one before, or its image is what the process has just stored. -/
theorem success_performs (may : Acts config view pid call op helper) (owned : KeepersOwned config view)
    (alive : live pid view.log = some call) {row' : Row}
    (after : row' ∈ (view.performs pid call helper op choice).world.db.rows)
    (success : row'.status = Success) :
    (∃ row ∈ view.world.db.rows, row.status = Success ∧ row.storage_key = row'.storage_key) ∨
      helper = false ∧ justStored (history pid view.log) = some row'.storage_key := by
  cases found : executed op choice with
  | none =>
    rw [performs_db_silent found] at after
    exact .inl ⟨row', after, success, rfl⟩
  | some s =>
    rw [performs_db_executed found] at after
    have issued := may.issued owned alive found
    obtain ⟨rfl, _⟩ := executed_eq_some.mp found
    rcases Stmt.mem_table.mp after with ⟨row, before, became⟩ | inserted
    · have change := s.onRow_change before
      rw [became] at change
      cases change with
      | kept => exact .inl ⟨row', before, success, rfl⟩
      | renew expiresAt running =>
        have same : row.status = Success := success
        rw [running] at same
        cases same
      | @finish _ image =>
        cases helper with
        | true => cases may
        | false =>
          obtain ⟨_, copy, _, _, concludes⟩ := sends_finish may
          obtain ⟨data, older, past⟩ := concludes.stored success
          refine .inr ⟨rfl, ?_⟩
          rw [past]
          exact justStored_put image.storage_key data older
      | claimNext | claimById | requeue | timeout | defer | cancel | retry => cases success
    · cases issued with
      | renewed => cases inserted
      | sent sends =>
        cases s with
        | insert values =>
          obtain ⟨_, _, _, _, ⟨_, _, _, rfl⟩, _⟩ := sends_insert sends
          cases inserted
          cases success
        | _ => cases inserted

theorem Backed.performs (backed : Backed view) (may : Acts config view pid call op helper)
    (owned : KeepersOwned config view) (alive : live pid view.log = some call)
    (meets : removesUnneeded.performs pid call op choice view) :
    Backed (view.performs pid call helper op choice) := by
  have survives : ∀ key, removed op choice ≠ some key → (view.world.objects key).isSome = true →
      ((view.performs pid call helper op choice).world.objects key).isSome = true :=
    fun key kept stored => perform_objects pid op choice view.world kept stored
  constructor
  · intro row' after success
    rcases success_performs may owned alive after success with ⟨row, before, was, same⟩ | ⟨_, put⟩
    · rw [← same]
      exact survives _ (removesUnneeded_row meets before was) (backed.rows row before was)
    · exact survives _ (removesUnneeded_stored meets alive put) (backed.stored pid call _ alive put)
  · intro other otherCall key alive' put
    have alive'' : live other view.log = some otherCall := alive'
    rcases history_performs view pid call helper op choice other
      with ⟨_, news⟩ | same
    · rw [news] at put
      exact justStored_performed put
    · rw [same] at put
      exact survives key (removesUnneeded_stored meets alive'' put)
        (backed.stored other otherCall key alive'' put)

theorem backed_kept : Kept config removesUnneeded Backed where
  acts _ _ _ _ _ _ _ owned backed alive may meets := backed.performs may owned alive meets
  started view pid call backed unused _ := by
    refine ⟨backed.rows, fun other otherCall key alive put => ?_⟩
    have same : history other (view.push (.started pid call)).log = history other view.log := rfl
    rw [same] at put
    rcases live_cons alive with started | before
    · injection started with own
      rw [history_of_fresh (own ▸ unused)] at put
      cases put
    · exact backed.stored other otherCall key before put
  quiet view entry after backed settles unstarted unperformed := by
    constructor
    · rw [settles.db, settles.objects]
      exact backed.rows
    · intro pid call key alive put
      rw [settles.objects]
      have same : history pid (entry :: view.log) = history pid view.log :=
        history_unperformed unperformed
      rw [same] at put
      rcases live_cons alive with started | before
      · exact (unstarted pid call started).elim
      · exact backed.stored pid call key before put
  passes view after backed settles := by
    constructor
    · rw [settles.db, settles.objects]
      exact backed.rows
    · rw [settles.objects]
      exact backed.stored

/-! ## Keys in hand -/

/-- Each key is in one hand at most, and then no finished task names it. -/
structure Apart (view : (backend config).View) : Prop where
  alone : ∀ first second firstCall secondCall key, live first view.log = some firstCall →
    live second view.log = some secondCall → keyInHand (history first view.log) = some key →
    keyInHand (history second view.log) = some key → first = second
  unnamed : ∀ pid call key, live pid view.log = some call → keyInHand (history pid view.log) = some key →
    ∀ row ∈ view.world.db.rows, row.status = Success → row.storage_key ≠ key

/-- A process takes a key in hand only where no other process at work has it in hand and no finished
task names it: a worker that has lost its claim is through with its image before another one stores
under that key, and no finish takes effect that is reported as failed. -/
abbrev keysApart : Condition (backend config) where
  starts _ _ := True
  performs pid _ op choice view :=
    (keyInHand (⟨op, (perform config pid op choice view.world).1⟩ :: history pid view.log)).all fun key =>
      (view.log.all fun entry => entry.pid = pid || (live entry.pid view.log).isNone ||
        keyInHand (history entry.pid view.log) ≠ some key) &&
      (perform config pid op choice view.world).2.db.rows.all fun row =>
        row.status ≠ Success || row.storage_key ≠ key

theorem keysApart_hand {key : String} (meets : keysApart.performs pid call op choice view)
    (hand : keyInHand (⟨op, (perform config pid op choice view.world).1⟩ :: history pid view.log) = some key) :
    (∀ other otherCall, live other view.log = some otherCall →
      keyInHand (history other view.log) = some key → other = pid) ∧
    ∀ row ∈ (perform config pid op choice view.world).2.db.rows, row.status = Success →
      row.storage_key ≠ key := by
  have both := Option.all_eq_true _ _ |>.mp meets _ hand
  rw [Bool.and_eq_true] at both
  constructor
  · intro other otherCall alive same
    have apart := List.all_eq_true.mp both.1 _ (mem_of_live alive)
    simp only [Entry.pid, alive, same, Option.isNone_some, Bool.or_false, ne_eq, not_true_eq_false,
      decide_false] at apart
    exact of_decide_eq_true apart
  · intro row member success
    have apart := List.all_eq_true.mp both.2 row member
    simpa [success] using apart

/-- It stays so while the table stays and no process gets a key. -/
theorem Apart.of_hands {after : (backend config).View} (apart : Apart view)
    (table : after.world.db = view.world.db)
    (before : ∀ pid call key, live pid after.log = some call → keyInHand (history pid after.log) = some key →
      live pid view.log = some call ∧ keyInHand (history pid view.log) = some key) : Apart after := by
  constructor
  · intro first second firstCall secondCall key alive alive' hand hand'
    obtain ⟨lives, held⟩ := before first firstCall key alive hand
    obtain ⟨lives', held'⟩ := before second secondCall key alive' hand'
    exact apart.alone first second firstCall secondCall key lives lives' held held'
  · intro pid call key alive hand
    obtain ⟨lives, held⟩ := before pid call key alive hand
    rw [table]
    exact apart.unnamed pid call key lives held

theorem Apart.performs (apart : Apart view) (may : Acts config view pid call op helper)
    (owned : KeepersOwned config view) (alive : live pid view.log = some call)
    (meets : keysApart.performs pid call op choice view) :
    Apart (view.performs pid call helper op choice) := by
  have histories := history_performs view pid call helper op choice
  constructor
  · intro first second firstCall secondCall key alive' alive'' hand hand'
    have lives : live first view.log = some firstCall := alive'
    have lives' : live second view.log = some secondCall := alive''
    rcases histories first with ⟨own, news⟩ | same
    · rcases histories second with ⟨own', _⟩ | same'
      · exact own.trans own'.symm
      · rw [news, own] at hand
        rw [same'] at hand'
        exact own.trans ((keysApart_hand meets hand).1 second secondCall lives' hand').symm
    · rw [same] at hand
      rcases histories second with ⟨own', news⟩ | same'
      · rw [news, own'] at hand'
        exact ((keysApart_hand meets hand').1 first firstCall lives hand).trans own'.symm
      · rw [same'] at hand'
        exact apart.alone first second firstCall secondCall key lives lives' hand hand'
  · intro other otherCall key alive' hand row' after success
    have lives : live other view.log = some otherCall := alive'
    rcases histories other with ⟨own, news⟩ | same
    · rw [news, own] at hand
      exact (keysApart_hand meets hand).2 row' after success
    · rw [same] at hand
      rcases success_performs may owned alive after success with ⟨row, before, was, key'⟩ | ⟨program, put⟩
      · rw [← key']
        exact apart.unnamed other otherCall key lives hand row before was
      · -- another process has just finished; its key was in its own hand
        rintro rfl
        have mine := apart.alone other pid otherCall call _ lives alive hand (keyInHand_of_justStored put)
        subst mine program
        have news := history_own other view call op choice
        rw [same] at news
        exact List.cons_ne_self _ _ news.symm

/-- Only a key in hand is removed. -/
theorem removable_of_stores {past : Past} {key : String}
    (stores : call.stores config past (.deleteObject key)) : Removable past key := by
  cases call with
  | workerTurn index => exact stores
  | deleteById userId id => exact stores.1
  | _ => exact stores.elim

/-- So what is removed is not needed. -/
theorem Apart.removesUnneeded (apart : Apart view) (may : Acts config view pid call op helper)
    (alive : live pid view.log = some call) : removesUnneeded.performs pid call op choice view := by
  refine (Option.all_eq_true _ _).mpr fun key gone => ?_
  obtain rfl : op = .deleteObject key := by
    cases op with
    | deleteObject other =>
      simp only [removed] at gone
      split at gone
      · rw [Option.some.inj gone]
      · cases gone
    | _ => cases gone
  cases helper with
  | true => cases may
  | false =>
    obtain ⟨hand, elsewhere⟩ := removable_of_stores may
    rw [Bool.and_eq_true]
    constructor
    · refine List.all_eq_true.mpr fun row member => ?_
      by_cases success : row.status = Success
      · simp [apart.unnamed pid call key alive hand row member success]
      · simp [success]
    · refine List.all_eq_true.mpr fun entry _ => ?_
      cases lives : live entry.pid view.log with
      | none => rfl
      | some other =>
        have unstored : justStored (history entry.pid view.log) ≠ some key := by
          intro put
          have own := apart.alone entry.pid pid other call key lives alive (keyInHand_of_justStored put) hand
          rw [own, elsewhere] at put
          cases put
        simp [unstored]

theorem apart_kept : Kept config keysApart fun view => Apart view ∧ Backed view where
  acts view pid call helper op choice _ owned holds alive may meets :=
    ⟨holds.1.performs may owned alive meets,
      holds.2.performs may owned alive (holds.1.removesUnneeded may alive)⟩
  started view pid call holds unused _ := by
    refine ⟨holds.1.of_hands rfl fun other otherCall key alive hand => ?_,
      backed_kept.started view pid call holds.2 unused trivial⟩
    have same : keyInHand (history other view.log) = some key := hand
    rcases live_cons alive with started | before
    · injection started with own
      rw [history_of_fresh (own ▸ unused)] at same
      cases same
    · exact ⟨before, same⟩
  quiet view entry after holds settles unstarted unperformed := by
    refine ⟨holds.1.of_hands settles.db fun other otherCall key alive hand => ?_,
      backed_kept.quiet view entry after holds.2 settles unstarted unperformed⟩
    rw [← history_unperformed unperformed]
    exact ⟨(live_cons alive).resolve_left (unstarted other otherCall), hand⟩
  passes view after holds settles :=
    ⟨holds.1.of_hands settles.db fun _ _ _ alive hand => ⟨alive, hand⟩,
      backed_kept.passes view after holds.2 settles⟩

/-- In every run in which no object is removed that a finished task names or that a
worker has just stored: every success names an object that exists, and the object
of a success stays until the task's own `deleteById`. No such object is removed if
the keys that the processes have in hand are kept apart. -/
theorem successes_backed (world : World) (first second : List (backend config).Label)
    (start : ∀ row ∈ world.db.rows, row.status = Success →
      (world.objects row.storage_key).isSome = true)
    (meets : Meets removesUnneeded (boot config world) (first ++ second) ∨
      Meets keysApart (boot config world) (first ++ second)) :
    (∀ row ∈ rowsOf (run (boot config world) (first ++ second)), row.status = Success →
      ((run (boot config world) (first ++ second)).view.world.objects row.storage_key).isSome = true) ∧
    (∀ row ∈ rowsOf (run (boot config world) first), row.status = Success →
      ¬ ActedBy (Deletes row) (run (boot config world) first) second →
      ((run (boot config world) (first ++ second)).view.world.objects row.storage_key).isSome = true) := by
  have base : Backed (boot config world).view := by
    refine ⟨start, fun pid call key alive => ?_⟩
    cases alive
  have apart : Apart (boot config world).view := by
    refine ⟨fun first second firstCall secondCall key alive => ?_, fun pid call key alive => ?_⟩ <;> cases alive
  have backed : ∀ row ∈ rowsOf (run (boot config world) (first ++ second)), row.status = Success →
      ((run (boot config world) (first ++ second)).view.world.objects row.storage_key).isSome = true := by
    rcases meets with unneeded | kept
    · exact (backed_kept.run base _ unneeded).rows
    · exact (apart_kept.run ⟨apart, base⟩ _ kept).2.rows
  refine ⟨backed, ?_⟩
  intro row member success untouched
  refine backed row ?_ success
  rw [run_append]
  refine row_of_terminal world first second member
    (by rw [success]; rfl) ?_
  intro acted
  refine untouched (acted.mono fun call op met => ?_)
  rcases met with deleted | ⟨unsuccessful, _⟩
  · exact deleted
  · exact (unsuccessful success).elim

/-- What follows a worker's claim until its image is stored. -/
def storing : List Choice := [{}, {}, {}, healthy, {}, generated, downloaded, {}, {}]

/-- A task is created, claimed and finished. -/
def finishRun : List (backend defaultConfig).Label :=
  .start (.create 1 (promptPayload "a") false) :: succeeds 0 5 ++
    .start (.workerTurn 0) :: acts 1 [refused, {}, {}, {}] ++ acts 1 storing ++
    acts 1 [{}, refused]

/-- A task is cancelled while its image is stored; the worker's finish changes nothing, and it removes
the image as an orphan. Only then is the task retried, and another worker stores and finishes it. -/
def retriedRun : List (backend defaultConfig).Label :=
  .start (.create 1 (promptPayload "a") false) :: succeeds 0 5 ++
    .start (.workerTurn 0) :: acts 1 [refused, {}, {}, {}] ++ acts 1 storing ++
    .start (.cancelById 1 1) :: succeeds 2 8 ++ acts 1 [{}, refused, {}] ++
    .start (.retryById 1 1) :: succeeds 3 8 ++
    .start (.workerTurn 1) :: acts 4 [refused, {}, {}, {}] ++ acts 4 storing ++ acts 4 [{}, refused]

/-- The objects that have been removed, each with the process that did it, newest first. -/
def removals (log : List (backend config).Entry) : List (Nat × String) :=
  log.filterMap fun
    | .performed event => (removed event.op event.choice).map fun key => (event.pid, key)
    | _ => none

/-- A worker stores its image, but its lease runs out before it finishes. Another
one claims the task, stores its image under the same key and finishes; then the
first one's finish changes nothing, and it removes the image as an orphan. -/
def lateRun : List (backend defaultConfig).Label :=
  .start (.create 1 (promptPayload "a") false) :: succeeds 0 5 ++
    .start (.workerTurn 0) :: acts 1 [refused, {}, {}, {}] ++ acts 1 storing ++
    .env (.setClock (Chrono.seconds 901)) ::
    .start (.workerTurn 1) :: acts 2 [refused, {}, {}, {}] ++ acts 2 storing ++
    acts 2 [{}] ++ acts 1 [{}, refused, {}]

theorem successes_backed_retriedRun :
    removals (run (boot defaultConfig World.empty) retriedRun).view.log = [(1, "images/1/a.png")] ∧
      (rowsOf (run (boot defaultConfig World.empty) retriedRun)).map (fun row => (row.status, row.storage_key)) =
        [(Success, "images/1/a.png")] ∧
      ∀ row ∈ rowsOf (run (boot defaultConfig World.empty) retriedRun), row.status = Success →
        ((run (boot defaultConfig World.empty) retriedRun).view.world.objects
          row.storage_key).isSome = true := by
  have meets : Meets keysApart (boot defaultConfig World.empty) ([] ++ retriedRun) := by decide +kernel
  have backed := (successes_backed World.empty [] retriedRun (fun _ member => by cases member) (.inr meets)).1
  rw [List.nil_append] at backed
  exact ⟨by decide +kernel, by decide +kernel, backed⟩

/-- A late worker removes the image that a newer attempt of its task has stored. -/
theorem successes_dangling :
    ¬ ∀ labels : List (backend defaultConfig).Label,
      ∀ row ∈ rowsOf (run (boot defaultConfig World.empty) labels), row.status = Success →
        ((run (boot defaultConfig World.empty) labels).view.world.objects
          row.storage_key).isSome = true := by
  intro claim
  have dangling : ¬ ∀ row ∈ rowsOf (run (boot defaultConfig World.empty) lateRun),
      row.status = Success → ((run (boot defaultConfig World.empty) lateRun).view.world.objects
        row.storage_key).isSome = true := by decide +kernel
  exact dangling (claim lateRun)

end Text2Image
