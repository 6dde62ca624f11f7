import Text2Image.Properties.ListFreshness
import Text2Image.Properties.Transitions

/-! How old a single task can be. -/

set_option autoImplicit false

namespace Text2Image

open Concurrency System ImageCache ImageService

variable {config : Config} {userId id : Int}

/-! ## Rows -/

/-- The row a request for this task finds. -/
def rowOf (userId id : Int) (t : ImageTable) : Option Row :=
  t.rows.find? fun row => row.id = id ∧ row.user_id = userId

theorem rowOf_eq_some {t : ImageTable} {row : Row} :
    rowOf userId id t = some row ↔ row ∈ t.rows ∧ row.id = id ∧ row.user_id = userId := by
  constructor
  · intro found
    exact ⟨List.mem_of_find?_eq_some found, by simpa using List.find?_some found⟩
  · rintro ⟨member, same, user⟩
    obtain ⟨other, found⟩ := Option.isSome_iff_exists.mp (List.find?_isSome.mpr
      ⟨row, member, by simp [same, user]⟩ : (rowOf userId id t).isSome = true)
    have met : other.id = id ∧ other.user_id = userId := by simpa using List.find?_some found
    have equal : other = row :=
      t.eq_of_key (List.mem_of_find?_eq_some found) member (met.1.trans same.symm)
    exact equal ▸ found

/-- The row is found whichever of the matching rows comes first, as there is only one. -/
theorem selected_row (t : ImageTable) (pick : Nat) :
    (Stmt.selectByIdAndUserId id userId).answer t pick = rowOf userId id t := by
  change fetchOne pick (t.select fun row => row.id = id ∧ row.user_id = userId) = _
  cases found : fetchOne pick (t.select fun row => row.id = id ∧ row.user_id = userId) with
  | none =>
    have empty : (t.select fun row => row.id = id ∧ row.user_id = userId) = [] := by
      have none := (Option.or_eq_none_iff.mp found).2
      simpa using none
    refine (List.find?_eq_none.mpr fun row member => ?_).symm
    exact List.filter_eq_nil_iff.mp empty row member
  | some row =>
    obtain ⟨member, met⟩ := Keyed.Table.mem_select.mp (fetchOne_mem found)
    exact (rowOf_eq_some.mpr ⟨member, of_decide_eq_true met⟩).symm

/-- The task has been there, and is there no longer. -/
def Gone (userId id : Int) (t : ImageTable) : Prop := rowOf userId id t = none ∧ id < t.next

theorem rowOf_eq_none {t : ImageTable} : rowOf userId id t = none ↔
    ∀ row ∈ t.rows, row.id = id → row.user_id ≠ userId := by
  unfold rowOf
  rw [List.find?_eq_none]
  simp

/-- Ids are not used again, and rows do not change hands. -/
theorem Gone.table {t : ImageTable} (gone : Gone userId id t) (s : Stmt) :
    Gone userId id (s.table t) := by
  refine ⟨rowOf_eq_none.mpr fun row member same user => ?_, ?_⟩
  · rcases Stmt.origin member with ⟨before, there, key, input⟩ | fresh
    · have own : before.user_id = userId := input.user_id.symm.trans user
      exact rowOf_eq_none.mp gone.1 before there (key.trans same) own
    · have old := gone.2
      omega
  · exact lt_of_lt_of_le gone.2 (Stmt.next_le s t)

/-- Ids are positive. -/
def Positive (t : ImageTable) : Prop := 0 < t.next ∧ ∀ row ∈ t.rows, 0 < row.id

theorem Positive.table {t : ImageTable} (positive : Positive t) (s : Stmt) : Positive (s.table t) := by
  refine ⟨lt_of_lt_of_le positive.1 (Stmt.next_le s t), fun row member => ?_⟩
  rcases Stmt.origin member with ⟨before, there, key, _⟩ | fresh
  · exact key ▸ positive.2 before there
  · exact lt_of_lt_of_le positive.1 fresh

/-- What no statement lowers, nothing lowers. -/
theorem rises_table {α : Type} [Preorder α] {measure : ImageTable → α}
    (rises : ∀ s t, measure t ≤ measure (Stmt.table s t)) :
    Rises (S := backend config) .free fun world => measure world.db := by
  have performing : ∀ pid (op : Op) choice (world : World),
      measure world.db ≤ measure (perform config pid op choice world).2.db := by
    intro pid op choice world
    rcases perform_db config pid op choice world with same | ⟨s, _, changed⟩
    · rw [same]
    · rw [changed]
      exact rises s world.db
  constructor
  · exact fun pid call op choice view _ _ => performing pid op choice view.world
  · exact fun pid call op choice view _ _ => performing pid op choice view.world
  · exact fun pid world => le_of_eq rfl
  · exact fun event view _ => le_of_eq (congrArg measure (Env.apply_db event view.world)).symm

/-! ## Mutations and what follows them -/

/-- The rows that are cached under this name. -/
def keyed (name : String) (t : ImageTable) : List Row :=
  t.rows.filter fun row => metaKey row.user_id row.id = name

/-- The event inserts, changes or deletes the row that is cached under this name. -/
def touches (name : String) (event : (backend config).Event) : Bool :=
  keyed name event.before.db ≠ keyed name event.after.db

def Op.inserts : Op → Bool
  | .sql (.insert _) => true
  | _ => false

/-- The operation drops the cache entry, or writes it where the row was inserted. -/
def Op.evicts (name : String) (inserted : Bool) : Op → Bool
  | .cacheDel key => key = name
  | .cacheSetex key _ _ => inserted ∧ key = name
  | _ => false

/-- A process that has touched the row does so. -/
def completes (name : String) (mutation event : (backend config).Event) : Bool :=
  event.pid = mutation.pid ∧ mutation.helper = false ∧ touches name mutation ∧
    event.choice.applies ∧ event.op.evicts name mutation.op.inserts

/-- Some process has done both. -/
def completed (name : String) : List (backend config).Entry → Bool
  | [] => false
  | .performed event :: older =>
    (older.any fun
      | .performed mutation => completes name mutation event
      | _ => false) || completed name older
  | _ :: older => completed name older

/-- The operations a cached task comes from. -/
def Op.isSource : Op → Bool
  | .sql (.selectByIdAndUserId ..) | .sql (.insert _) => true
  | _ => false

/-- The process reads a task, or inserts one. -/
def obtains (pid : Nat) : (backend config).Entry → Bool
  | .performed event => event.pid = pid ∧ event.helper = false ∧ event.op.isSource
  | _ => false

/-- What has happened since the process has read a task or inserted one. -/
def sinceSource (pid : Nat) (log : List (backend config).Entry) : List (backend config).Entry :=
  log.takeWhile fun entry => ! obtains pid entry

/-- No process writes a task to the cache that others have changed, and dropped from
the cache, since it was read. -/
abbrev writesCurrent : Condition (backend config) where
  starts _ _ := True
  performs pid _ op choice view :=
    (match op with
      | .cacheSetex name _ _ => ! choice.applies || ! completed name (sinceSource pid view.log)
      | _ => true) = true

/-- The row was read or inserted by an operation among these. -/
inductive ShownAmong (userId id : Int) (since : List (backend config).Entry) :
    Option ImageGeneration → Prop where
  | read {event : (backend config).Event} {t : ImageTable} (member : .performed event ∈ since)
      (reads : statementOf (.performed event) = some (t, .selectByIdAndUserId id userId)) :
      ShownAmong userId id since ((rowOf userId id t).map ImageRepo.rowToImageGeneration)
  | inserted {event : (backend config).Event} {t : ImageTable} {generation : ImageGeneration}
      {createdAt : TimePoint} (member : .performed event ∈ since)
      (inserts : statementOf (.performed event) =
        some (t, .insert (ImageRepo.insertValues generation createdAt)))
      (own : generation.user_id = userId) (new : t.next = id) :
      ShownAmong userId id since (some { generation with id := id })

/-- The process is started. -/
def begins (pid : Nat) : (backend config).Entry → Bool
  | .started other _ => other = pid
  | _ => false

/-- The oldest entry is a mutation, and is completed before the process is started. -/
def mutatedBefore (name : String) (pid : Nat) (since : List (backend config).Entry) : Bool :=
  match since.getLast? with
  | some (.performed mutation) =>
    (since.dropLast.dropWhile fun entry => ! begins pid entry).any fun
      | .performed event => completes name mutation event
      | _ => false
  | _ => false

theorem mutatedBefore_split {name : String} {pid : Nat} {since : List (backend config).Entry}
    (mutated : mutatedBefore name pid since = true) :
    ∃ later call gap event rest mutation, since = (later ++ .started pid call ::
        (gap ++ .performed event :: rest)) ++ [.performed mutation] ∧
      completes name mutation event = true := by
  unfold mutatedBefore at mutated
  split at mutated
  · rename_i mutation last
    obtain ⟨entry, member, completed⟩ := List.any_eq_true.mp mutated
    have whole : since = since.dropLast ++ [.performed mutation] :=
      (List.dropLast_append_getLast? _ last).symm
    -- the process is started where what is newer has been dropped
    cases dropped : since.dropLast.dropWhile fun entry => ! begins pid entry with
    | nil => simp [dropped] at member
    | cons first older =>
      have starts : begins pid first = true := by
        have kept := List.head?_dropWhile_not (fun entry => ! begins pid entry) since.dropLast
        rw [dropped] at kept
        simpa using kept
      cases first with
      | started other call =>
        obtain rfl : other = pid := of_decide_eq_true starts
        rw [dropped] at member
        rcases List.mem_cons.mp member with rfl | old
        · cases completed
        · obtain ⟨gap, rest, rfl⟩ := List.append_of_mem old
          cases entry with
          | performed event =>
            refine ⟨since.dropLast.takeWhile fun entry => ! begins other entry, call, gap, event,
              rest, mutation, ?_, completed⟩
            rw [← dropped, List.takeWhile_append_dropWhile]
            exact whole
          | _ => cases completed
      | _ => cases starts
  · cases mutated

/-! ## Where a written entry comes from -/

theorem isSource_of_obtains {pid : Nat} {entry : (backend config).Entry}
    (obtained : obtains pid entry = true) : ∃ event, entry = .performed event ∧ event.pid = pid ∧
      event.helper = false ∧ event.op.isSource = true := by
  cases entry with
  | performed event => exact ⟨event, rfl, by simpa [obtains] using obtained⟩
  | _ => cases obtained

theorem sinceSource_eq {pid : Nat} {between older : List (backend config).Entry}
    {source : (backend config).Event} (own : source.pid = pid) (program : source.helper = false)
    (kind : source.op.isSource = true)
    (none : ∀ taken ∈ history pid between, taken.op.isSource = false) :
    sinceSource pid (between ++ .performed source :: older) = between := by
  have stops : obtains pid (.performed source : (backend config).Entry) = true := by
    simp [obtains, own, program, kind]
  unfold sinceSource
  rw [List.takeWhile_append_of_pos, List.takeWhile_cons_of_neg (by simp [stops]), List.append_nil]
  intro entry member
  by_contra obtained
  obtain ⟨event, rfl, mine, program, kind⟩ :=
    isSource_of_obtains (by simpa using obtained : obtains pid entry = true)
  obtain ⟨newer, rest, rfl⟩ := List.append_of_mem member
  have asked := none ⟨event.op, event.answer⟩ (by simp [history_append, history, mine, program])
  rw [kind] at asked
  cases asked

theorem completed_of_split {name : String} {mutation event : (backend config).Event}
    (newer gap older : List (backend config).Entry) (done : completes name mutation event = true) :
    completed name (newer ++ .performed event :: (gap ++ .performed mutation :: older)) = true := by
  induction newer with
  | nil => simp [completed, done]
  | cons entry newer ih =>
    cases entry with
    | performed other => simp [completed, ih]
    | _ => exact ih

variable {name : String} {value : CacheValue} {mutation event writer source : (backend config).Event}

theorem completes_iff : completes name mutation event = true ↔ event.pid = mutation.pid ∧
    mutation.helper = false ∧ touches name mutation = true ∧ event.choice.applies = true ∧
      event.op.evicts name mutation.op.inserts = true := by
  simp [completes]

/-- A write that the condition admits was read, or inserted, since any mutation that was
completed before. -/
theorem source_among {newer gap between older oldest : List (backend config).Entry}
    (met : writesCurrent.performs writer.pid writer.call writer.op writer.choice
      ⟨writer.before, between ++ .performed source :: older⟩)
    (writes : Writes name value writer) (own : source.pid = writer.pid)
    (program : source.helper = false) (kind : source.op.isSource = true)
    (none : ∀ taken ∈ history writer.pid between, taken.op.isSource = false)
    (done : completes name mutation event = true)
    (within : .performed writer :: (between ++ .performed source :: older) =
      newer ++ .performed event :: (gap ++ .performed mutation :: oldest)) :
    .performed source ∈ newer ++ .performed event :: gap ∨ source = mutation := by
  obtain ⟨ttl, op, applies⟩ := writes
  have current : completed name between = false := by
    simpa [op, applies, sinceSource_eq own program kind none] using met
  -- what is between the write and the mutation
  obtain ⟨above, split, place⟩ : ∃ above, between ++ .performed source :: older =
      above ++ .performed mutation :: oldest ∧
      (newer = [] ∧ writer = event ∧ above = gap ∨
        ∃ newer', newer = .performed writer :: newer' ∧ above = newer' ++ .performed event :: gap) := by
    cases newer with
    | nil =>
      obtain ⟨same, rest⟩ := List.cons.inj within
      exact ⟨gap, rest, .inl ⟨rfl, Entry.performed.inj same, rfl⟩⟩
    | cons first newer' =>
      obtain ⟨rfl, rest⟩ := List.cons.inj within
      exact ⟨newer' ++ .performed event :: gap, by simpa using rest, .inr ⟨newer', rfl, rfl⟩⟩
  have inside : ∀ entry, entry ∈ above → entry ∈ newer ++ .performed event :: gap := by
    intro entry member
    rcases place with ⟨rfl, _, rfl⟩ | ⟨newer', rfl, rfl⟩
    · simp [member]
    · simp only [List.mem_append, List.mem_cons] at member ⊢
      tauto
  rcases compare split with ⟨lower, _, rfl⟩ | ⟨same, _, _⟩ | ⟨lower, _, rfl⟩
  · exact .inl (inside _ (by simp))
  · exact .inr (Entry.performed.inj same)
  · -- the mutation is newer than the source
    rcases place with ⟨rfl, rfl, rfl⟩ | ⟨newer', rfl, rfl⟩
    · -- the writer has inserted the row itself, since its source
      obtain ⟨mine, helper, _, _, evicts⟩ := completes_iff.mp done
      have inserts : mutation.op.isSource = true := by
        rw [op] at evicts
        have inserts : mutation.op.inserts = true := (of_decide_eq_true evicts).1
        unfold Op.inserts at inserts
        split at inserts
        · rename_i sent
          rw [sent]
          rfl
        · cases inserts
      have other := none ⟨mutation.op, mutation.answer⟩
        (by simp [history_append, history, mine, helper])
      rw [inserts] at other
      cases other
    · have both := completed_of_split newer' gap lower done
      rw [List.append_assoc, List.cons_append] at current
      rw [both] at current
      cases current

/-! ## The id of an inserted row -/

/-- The process inserts a row, of which its session keeps the id. -/
def InsertedBy (pid : Nat) (id : Int) (event : (backend config).Event) : Prop :=
  event.pid = pid ∧ (∃ values, event.op = .sql (.insert values)) ∧ event.after.session pid = id

theorem session_brought (pid : Nat) (id : Int) :
    BroughtBy (S := backend config) (fun world => world.session pid = id) (InsertedBy pid id) where
  performed event genuine now := by
    have after : event.after = (perform config event.pid event.op event.choice event.before).2 :=
      congrArg Prod.snd genuine
    rcases perform_session config event.pid event.op event.choice event.before pid with
      kept | ⟨values, found, own⟩
    · left
      rw [← kept, ← after]
      exact now
    · exact .inr ⟨own.symm, ⟨values, (executed_eq_some.mp found).1⟩, now⟩
  leave pid world now := now
  env event world now := by cases event <;> exact now

/-- The id that a process is told after its INSERT is that of the new row, or zero where
its session was replaced. -/
theorem told_id {world : World} {labels : List (backend config).Label}
    {newer between older : List (backend config).Entry} {asks inserts : (backend config).Event}
    {values : Row} {pid : Nat} (split : (System.run (boot config world) labels).view.log =
      newer ++ .performed asks :: (between ++ .performed inserts :: older))
    (own : asks.pid = pid) (own' : inserts.pid = pid)
    (told : (⟨asks.op, asks.answer⟩ : Taken interface) = ⟨.lastInsertId, .ok id⟩)
    (inserted : (⟨inserts.op, inserts.answer⟩ : Taken interface) = ⟨.sql (.insert values), .ok ()⟩)
    (quiet : history pid between = []) : id = inserts.before.db.next ∨ id = 0 := by
  have genuine := (follows_run world labels).genuine
  have session : inserts.after.session pid = inserts.before.db.next := by
    have truth := genuine inserts (by rw [split]; simp)
    obtain ⟨pid', call, helper, op, choice, given, before, after⟩ := inserts
    cases inserted
    obtain rfl : pid' = pid := own'
    have kept : after = (perform config pid' (.sql (.insert values)) choice before).2 :=
      congrArg Prod.snd truth
    rw [kept]
    exact (perform_insert config pid' values choice before (congrArg Prod.fst truth).symm).2
  have known : id = asks.before.session pid ∨ id = 0 := by
    have truth := genuine asks (by rw [split]; simp)
    obtain ⟨pid', call, helper, op, choice, given, before, after⟩ := asks
    cases told
    obtain rfl : pid' = pid := own
    have answer : (if choice.succeeds then
        .ok (if choice.freshSession then 0 else before.session pid') else .error choice.error :
          RepoResult Int) = .ok id := (congrArg Prod.fst truth).symm
    split at answer
    · split at answer
      · exact .inr (Except.ok.inj answer).symm
      · exact .inl (Except.ok.inj answer).symm
    · cases answer
  rcases known with same | none
  swap
  · exact .inr none
  left
  rcases ((session_brought pid id).run _ labels).before _ _ _ split same.symm with
    ⟨_, lasts⟩ | ⟨since, event, first, place, ⟨mine, ⟨row, op⟩, now⟩, lasts⟩
  · exact (lasts inserts (by simp)).2.symm.trans session
  · rcases compare place with ⟨gap, _, rfl⟩ | ⟨equal, _, _⟩ | ⟨gap, _, rfl⟩
    · exact (lasts inserts (by simp)).2.symm.trans session
    · -- the INSERT is the one that was answered
      cases equal
      exact now.symm.trans session
    · -- a later INSERT would have been answered in between
      have helper := silent_of_history quiet (by simp : Entry.performed event ∈ _) mine
      have renews := helpersRenew_run world labels event (by rw [split]; simp) helper
      rw [op] at renews
      cases renews

/-! ## The row that was changed -/

theorem touched_row (touched : touches name event = true) : ∃ row,
    (row ∈ event.before.db.rows ∨ row ∈ event.after.db.rows) ∧
      metaKey row.user_id row.id = name := by
  by_contra none
  have empty : ∀ t : ImageTable, (∀ row ∈ t.rows, metaKey row.user_id row.id ≠ name) →
      keyed name t = [] := by
    intro t other
    exact List.filter_eq_nil_iff.mpr fun row member => by simpa using other row member
  have before := empty event.before.db fun row member same => none ⟨row, .inl member, same⟩
  have after := empty event.after.db fun row member same => none ⟨row, .inr member, same⟩
  simp [touches, before, after] at touched

theorem event_table (genuine : event.Genuine) : event.after.db = event.before.db ∨
    ∃ s, executed event.op event.choice = some s ∧ event.after.db = s.table event.before.db := by
  have after : event.after = (perform config event.pid event.op event.choice event.before).2 :=
    congrArg Prod.snd genuine
  have changed := perform_table config event.pid event.op event.choice event.before
  rw [← after] at changed
  cases found : executed event.op event.choice with
  | none => exact .inl (by simpa [found] using changed)
  | some s => exact .inr ⟨s, rfl, by simpa [found] using changed⟩

/-- The id of a row that is changed has been given out. -/
theorem touched_id (genuine : event.Genuine) (touched : touches (metaKey userId id) event = true) :
    id < event.after.db.next ∧ (Positive event.before.db → 0 < id) := by
  obtain ⟨row, present, same⟩ := touched_row touched
  obtain ⟨_, rfl⟩ := metaKey_injective same
  have grown : event.before.db.next ≤ event.after.db.next := by
    rcases event_table genuine with same | ⟨s, _, same⟩
    · rw [same]
    · rw [same]
      exact Stmt.next_le s _
  constructor
  · rcases present with before | after
    · exact lt_of_lt_of_le (event.before.db.below row before) grown
    · exact event.after.db.below row after
  · intro positive
    rcases present with before | after
    · exact positive.2 row before
    · rcases event_table genuine with same | ⟨s, _, same⟩
      · exact positive.2 row (same ▸ after)
      · exact (positive.table s).2 row (same ▸ after)

/-- A read changes no row. -/
theorem untouched_of_read (name : String) {t : ImageTable} (genuine : event.Genuine)
    (reads : statementOf (.performed event) = some (t, .selectByIdAndUserId id userId)) :
    event.after.db = t ∧ touches name event = false := by
  obtain ⟨s, found, same⟩ := Option.map_eq_some_iff.mp reads
  cases same
  have kept : event.after.db = event.before.db := by
    rcases event_table genuine with same | ⟨s, found', same⟩
    · exact same
    · cases found.symm.trans found'
      exact same
  exact ⟨kept, by simp [touches, kept]⟩

section Runs

variable {world : World} {labels : List (backend config).Label}
  {front since oldest : List (backend config).Entry}

/-- A task that was not found since its row was changed is gone for good. -/
theorem gone_of_shown
    (log : (System.run (boot config world) labels).view.log =
      front ++ (since ++ .performed mutation :: oldest))
    (touched : touches (metaKey userId id) mutation = true)
    (shown : ShownAmong userId id (since ++ [.performed mutation]) none) :
    Gone userId id (System.run (boot config world) labels).view.world.db := by
  have genuine := (follows_run world labels).genuine
  generalize absent : (none : Option ImageGeneration) = nothing at shown
  cases shown with
  | inserted => cases absent
  | @read event t member reads =>
    have there : .performed event ∈ (System.run (boot config world) labels).view.log := by
      rw [log]
      simp only [List.mem_append, List.mem_cons] at member ⊢
      tauto
    obtain ⟨kept, quiet⟩ := untouched_of_read (metaKey userId id) (genuine event there) reads
    have newer : .performed event ∈ front ++ since := by
      rcases List.mem_append.mp member with newer | same
      · exact List.mem_append_right _ newer
      · -- the mutation is no read
        obtain rfl := Entry.performed.inj (List.mem_singleton.mp same)
        rw [touched] at quiet
        cases quiet
    have none : rowOf userId id t = none := Option.map_eq_none_iff.mp absent.symm
    have given : id < t.next := by
      have first := (touched_id (genuine mutation (by rw [log]; simp)) touched).1
      have rises : Risen (fun world : World => world.db.next) { world with keepers := [] }
          (System.run (boot config world) labels).view :=
        (rises_table Stmt.next_le).run _ labels (meets_free _ _)
      have later : mutation.after.db.next ≤ event.before.db.next :=
        rises.later (front ++ since) mutation oldest (by rw [log]; simp) event newer
      obtain ⟨_, _, same⟩ := Option.map_eq_some_iff.mp reads
      cases same
      omega
    have gone : Gone userId id event.after.db := by
      rw [kept]
      exact ⟨none, given⟩
    have stays : Risen (fun world : World => Gone userId id world.db) { world with keepers := [] }
        (System.run (boot config world) labels).view :=
      (rises_table fun s t gone => gone.table s).run _ labels (meets_free _ _)
    exact stays.now event there gone

theorem ShownAmong.mono {since since' : List (backend config).Entry} {shown : Option ImageGeneration}
    (among : ShownAmong userId id since shown) (wider : ∀ entry ∈ since, entry ∈ since') :
    ShownAmong userId id since' shown := by
  cases among with
  | read member reads => exact .read (wider _ member) reads
  | inserted member inserts own new => exact .inserted (wider _ member) inserts own new

/-- An entry that has outlasted the eviction was written by it. -/
theorem written_of_evicts (genuine : event.Genuine) (done : completes name mutation event = true)
    (now : Cached config name value event.after) : Writes name value event := by
  obtain ⟨_, _, _, applies, evicts⟩ := completes_iff.mp done
  obtain ⟨pid, call, helper, op, choice, given, before, after⟩ := event
  have kept : after = (perform config pid op choice before).2 := congrArg Prod.snd genuine
  have stands : (perform config pid op choice before).2.cache (cacheKey config name) = some value :=
    kept ▸ now
  change choice.applies = true at applies
  cases op with
  | cacheDel key =>
    obtain rfl : key = name := of_decide_eq_true evicts
    simp [perform, applies, World.withCache] at stands
  | cacheSetex key written ttl =>
    obtain ⟨_, rfl⟩ : _ ∧ key = name := of_decide_eq_true evicts
    simp only [perform, applies, if_true, World.withCache, Function.update_self] at stands
    obtain rfl := Option.some.inj stands
    exact ⟨ttl, rfl, applies⟩
  | _ => cases evicts

/-- Ids have been positive before every event. -/
theorem positive_before (positive : Positive world.db)
    (there : .performed event ∈ (System.run (boot config world) labels).view.log) :
    Positive event.before.db := by
  have stays : Risen (fun world : World => Positive world.db) { world with keepers := [] }
      (System.run (boot config world) labels).view :=
    (rises_table fun s t positive => positive.table s).run _ labels (meets_free _ _)
  exact stays.startedBefore event there positive

/-- What the cache holds of a task that is shown so. -/
inductive Encodes : CacheValue → Option ImageGeneration → Prop where
  | missing : Encodes (.text kNullMarker) none
  | task (image : ImageGeneration) : Encodes (.json (sanitized image).toJson) (some image)

/-- An entry that is written after a mutation was completed shows the row as it has been since. -/
theorem written_shown (positive : Positive world.db)
    (meets : Meets writesCurrent (boot config world) labels)
    {newer gap first : List (backend config).Entry}
    (log : (System.run (boot config world) labels).view.log = front ++ .performed writer :: first)
    (within : .performed writer :: first =
      newer ++ .performed event :: (gap ++ .performed mutation :: oldest))
    (writes : Writes (metaKey userId id) value writer)
    (done : completes (metaKey userId id) mutation event = true) :
    ∃ shown, Encodes value shown ∧
      ShownAmong userId id (newer ++ .performed event :: gap ++ [.performed mutation]) shown := by
  have genuine := (follows_run world labels).genuine
  have met := allMet_run meets front writer first log
  have inside : AllGenuine first := fun event member => genuine event (by rw [log]; simp [member])
  obtain ⟨_, source⟩ := written_source log writes
  -- a read that stands alone in what the writer was answered last
  have read : ∀ {row : Option Row} {past : Past}, history writer.pid first =
      (⟨.sql (.selectByIdAndUserId id userId), .ok row⟩ : Taken interface) :: past →
      ShownAmong userId id (newer ++ .performed event :: gap ++ [.performed mutation])
        (row.map ImageRepo.rowToImageGeneration) := by
    intro row past split
    obtain ⟨between, reads, older, rfl, own, program, same, none, _⟩ :=
      history_parts (split.trans (List.nil_append _).symm)
    obtain ⟨found, answered⟩ := got_genuine (inside reads (by simp)) same
    rw [selected_row] at answered
    have op : reads.op = .sql (.selectByIdAndUserId id userId) := congrArg Taken.op same
    have kind : reads.op.isSource = true := by
      rw [op]
      rfl
    have among := source_among met writes own program kind (by simp [none]) done within
    rw [answered]
    refine .read (?_ : Entry.performed reads ∈ _) found
    rcases among with member | rfl
    · exact List.mem_append_left _ member
    · simp
  generalize named : metaKey userId id = name at source
  generalize writer.call = call at source
  cases source with
  | url call storageKey url => exact (presignKey_ne_metaKey _ _ _ named.symm).elim
  | page =>
    exact (metaKey_notList userId _ id (named ▸ Listing.key_isListKey _ _)).elim
  | missing split =>
    obtain ⟨rfl, rfl⟩ := metaKey_injective named
    exact ⟨none, .missing, read split⟩
  | task split =>
    obtain ⟨rfl, rfl⟩ := metaKey_injective named
    exact ⟨_, .task _, read split⟩
  | @created userId' id' payload isAdmin older generation createdAt published own split =>
    obtain ⟨rfl, rfl⟩ := metaKey_injective named
    refine ⟨_, .task _, ?_⟩
    obtain ⟨between, inserts, oldest', rfl, mine, program, same, told, _⟩ :=
      history_parts (show _ = [_, _] ++ _ :: _ from split)
    have op : inserts.op = .sql (.insert (ImageRepo.insertValues generation createdAt)) :=
      congrArg Taken.op same
    have kind : inserts.op.isSource = true := by
      rw [op]
      rfl
    have among := source_among met writes mine program kind (by simp [told, Op.isSource]) done within
    obtain ⟨found, _⟩ := got_genuine (inside inserts (by simp)) same
    obtain ⟨later, asks, between, rfl, mine', _, same', _, quiet⟩ :=
      history_parts (show _ = [_] ++ _ :: [] from told)
    refine .inserted (?_ : Entry.performed inserts ∈ _) found own ?_
    · rcases among with member | rfl
      · exact List.mem_append_left _ member
      · simp
    · have place : (System.run (boot config world) labels).view.log = (front ++ .performed writer ::
          later) ++ .performed asks :: (between ++ .performed inserts :: oldest') := by
        simp [log]
      rcases told_id place mine' mine same' same quiet with new | zero
      · exact new.symm
      · -- no row has the id zero
        have touched := (completes_iff.mp done).2.2.1
        have there : .performed mutation ∈ (System.run (boot config world) labels).view.log := by
          rw [log, within]
          simp
        have known := (touched_id (genuine mutation there) touched).2 (positive_before positive there)
        omega

/-- An entry that is found after a mutation was completed shows the row as it has been since. -/
theorem found_shown (positive : Positive world.db)
    (meets : Meets writesCurrent (boot config world) labels)
    {above gap : List (backend config).Entry} {gets : (backend config).Event}
    (log : (System.run (boot config world) labels).view.log =
      front ++ .performed gets :: (above ++ .performed event :: (gap ++ .performed mutation :: oldest)))
    (got : (⟨gets.op, gets.answer⟩ : Taken interface) = ⟨.cacheGet (metaKey userId id), some value⟩)
    (done : completes (metaKey userId id) mutation event = true) :
    ∃ shown, Encodes value shown ∧
      ShownAmong userId id (above ++ .performed event :: gap ++ [.performed mutation]) shown := by
  have place : (System.run (boot config world) labels).view.log = (front ++ .performed gets :: above) ++
      .performed event :: (gap ++ .performed mutation :: oldest) := by
    rw [log]
    simp
  have genuine := (follows_run world labels).genuine event (by rw [place]; simp)
  have evicted : Writes (metaKey userId id) value event → ∃ shown, Encodes value shown ∧
      ShownAmong userId id (above ++ .performed event :: gap ++ [.performed mutation]) shown := by
    intro writes
    have within : .performed event :: (gap ++ .performed mutation :: oldest) =
      [] ++ .performed event :: (gap ++ .performed mutation :: oldest) := rfl
    obtain ⟨shown, encodes, among⟩ := written_shown positive meets place within writes done
    exact ⟨shown, encodes, among.mono fun entry member => by
      simp only [List.nil_append, List.cons_append, List.append_assoc] at member ⊢
      exact List.mem_append_right _ member⟩
  rcases cached_origin log (metaKey_isImageKey userId id) got with
    ⟨_, lasts⟩ | ⟨between, writer, first, split, writes, lasts⟩
  · exact evicted (written_of_evicts genuine done (lasts event (by simp)).2)
  · rcases compare split with ⟨lower, _, rfl⟩ | ⟨same, _, _⟩ | ⟨lower, rfl, rfl⟩
    · exact evicted (written_of_evicts genuine done (lasts event (by simp)).2)
    · exact evicted (Entry.performed.inj same ▸ writes)
    · have place : (System.run (boot config world) labels).view.log =
          (front ++ .performed gets :: between) ++ .performed writer ::
            (lower ++ .performed event :: (gap ++ .performed mutation :: oldest)) := by
        simp [log]
      have within : .performed writer ::
          (lower ++ .performed event :: (gap ++ .performed mutation :: oldest)) =
        (.performed writer :: lower) ++ .performed event :: (gap ++ .performed mutation :: oldest) := rfl
      obtain ⟨shown, encodes, among⟩ := written_shown positive meets place within writes done
      exact ⟨shown, encodes, among.mono fun entry member => by
        simp only [List.append_assoc, List.cons_append] at member ⊢
        exact List.mem_append_right _ member⟩

theorem Encodes.of_marker {shown : Option ImageGeneration} (encodes : Encodes value shown)
    (marked : isNullMarker value = true) : shown = none := by
  cases encodes with
  | missing => rfl
  | task image => cases marked

theorem Encodes.of_decoded {shown : Option ImageGeneration} {image : ImageGeneration}
    (encodes : Encodes value shown) (decoded : decodeImage value = some image) :
    some image = shown.map fun shown => (sanitized shown).reread := by
  cases encodes with
  | missing => cases decoded
  | task shown =>
    rw [← decoded]
    exact congrArg some (ImageGeneration.fromJson_toJson _)

/-- What a reply rests on was read or inserted after the mutation, or was cached after that. -/
theorem answer_shown (positive : Positive world.db)
    (meets : Meets writesCurrent (boot config world) labels) {pid : Nat} {reply : Reply} {own : Call}
    {later gap rest : List (backend config).Entry}
    (log : (System.run (boot config world) labels).view.log =
      .returned pid reply :: (later ++ .started pid own ::
        (gap ++ .performed event :: (rest ++ .performed mutation :: oldest))))
    (done : completes (metaKey userId id) mutation event = true) {shown : Option ImageGeneration}
    (answer : ImageAnswer userId id (history pid later) shown) :
    ∃ shown', ShownAmong userId id (later ++ .started pid own ::
        (gap ++ .performed event :: (rest ++ [.performed mutation]))) shown' ∧
      (shown = shown' ∨ shown = shown'.map fun image => (sanitized image).reread) := by
  have mine : AllGenuine later := fun event member =>
    (follows_run world labels).genuine event (by rw [log]; simp [member])
  -- an entry that was found is as good as a read
  have found : ∀ {newest past : Past} {value : CacheValue}, history pid later = newest ++
      (⟨.cacheGet (metaKey userId id), some value⟩ : Taken interface) :: past →
      ∃ shown', Encodes value shown' ∧ ShownAmong userId id (later ++ .started pid own ::
        (gap ++ .performed event :: (rest ++ [.performed mutation]))) shown' := by
    intro newest past value split
    obtain ⟨newer, gets, older, rfl, _, _, got, _⟩ := history_split split
    have place : (System.run (boot config world) labels).view.log =
        (.returned pid reply :: newer) ++ .performed gets :: ((older ++ .started pid own :: gap) ++
          .performed event :: (rest ++ .performed mutation :: oldest)) := by
      simp [log]
    obtain ⟨shown', encodes, among⟩ := found_shown positive meets place got done
    refine ⟨shown', encodes, among.mono fun entry member => ?_⟩
    simp only [List.append_assoc, List.cons_append] at member ⊢
    exact List.mem_append_right _ (List.mem_cons_of_mem _ member)
  cases answer with
  | read split =>
    obtain ⟨newer, reads, older, rfl, _, _, found, answered⟩ := answered_split mine split
    rw [selected_row] at answered
    rw [answered]
    exact ⟨_, .read (by simp : Entry.performed reads ∈ _) found, .inl rfl⟩
  | missing split marked =>
    obtain ⟨shown', encodes, among⟩ := found split
    exact ⟨shown', among, .inl (encodes.of_marker marked).symm⟩
  | cached split decoded =>
    obtain ⟨shown', encodes, among⟩ := found split
    exact ⟨shown', among, .inr (encodes.of_decoded decoded)⟩

end Runs

/-! ## Tasks -/

theorem sanitized_reread (image : ImageGeneration) :
    sanitized (sanitized image).reread = (sanitized image).reread := by
  simp only [sanitized, ImageGeneration.reread]

/-- A reply about a task shows it as it was read or inserted among these operations, or
in the form in which the cache gives that back. A task that is not found is not there. -/
structure FreshImage (userId id : Int) (since : List (backend config).Entry) (t : ImageTable)
    (result : ServiceResult ImageGeneration) : Prop where
  shown : ∀ image, result = .ok image → ∃ shown, ShownAmong userId id since (some shown) ∧
    (sanitized image = sanitized shown ∨ sanitized image = (sanitized shown).reread)
  missing : ∀ error, result = .error error → error.status = 404 → rowOf userId id t = none

/-- The reply that has just been given about a task, and to whom. -/
def justShown : List (backend config).Entry → Option (Nat × ServiceResult ImageGeneration)
  | .returned pid (.image result) :: _ => some (pid, result)
  | _ => none

/-- What a request shows that starts after a mutation was completed is no older than the mutation. -/
def TasksFresh (view : (backend config).View) : Prop :=
  ∀ pid result userId id includeImagePayload since oldest,
    justShown view.log = some (pid, result) →
    startedAs pid view.log = some (.getById userId id includeImagePayload) →
    view.log = since ++ oldest → mutatedBefore (metaKey userId id) pid since = true →
    FreshImage userId id since view.world.db result

theorem tasks_fresh (world : World) (labels : List (backend config).Label)
    (positive : Positive world.db) (meets : Meets writesCurrent (boot config world) labels) :
    TasksFresh (run (boot config world) labels).view := by
  intro pid result userId id includeImagePayload since oldest replied started log mutated
  obtain ⟨older, returned⟩ : ∃ older, (run (boot config world) labels).view.log =
      .returned pid (.image result) :: older := by
    unfold justShown at replied
    split at replied
    · rename_i split
      cases replied
      exact ⟨_, split⟩
    · cases replied
  obtain ⟨later, own, gap, event, rest, mutation, rfl, done⟩ := mutatedBefore_split mutated
  have genuine := (follows_run world labels).genuine
  -- the newest entry is the reply, so the call has begun before it
  obtain ⟨later, rfl, rfl⟩ : ∃ first, later = .returned pid (.image result) :: first ∧
      older = first ++ .started pid own ::
        (gap ++ .performed event :: (rest ++ .performed mutation :: oldest)) := by
    have same := returned.symm.trans log
    cases later with
    | nil => cases (List.cons.inj same).1
    | cons first rest =>
      obtain ⟨rfl, split⟩ := List.cons.inj same
      exact ⟨rest, rfl, by simpa using split⟩
  obtain ⟨result', same, ok, notFound⟩ :=
    (answered_since_start returned started).image userId id includeImagePayload rfl
  cases same
  have wider : ∀ {shown}, ShownAmong userId id (later ++ .started pid own ::
      (gap ++ .performed event :: (rest ++ [.performed mutation]))) shown →
      ShownAmong userId id (.returned pid (.image result) :: later ++ .started pid own ::
        (gap ++ .performed event :: rest) ++ [.performed mutation]) shown := by
    intro shown among
    refine among.mono fun entry member => List.mem_cons_of_mem _ ?_
    simpa using member
  refine ⟨fun image replied => ?_, fun error replied status => ?_⟩
  · obtain ⟨shown, answer, same⟩ := ok image replied
    obtain ⟨shown', among, equal | equal⟩ := answer_shown positive meets returned done answer
    · cases equal
      exact ⟨shown, wider among, .inl same⟩
    · cases shown' with
      | none => cases equal
      | some image' =>
        obtain rfl := Option.some.inj equal
        exact ⟨image', wider among, .inr (same.trans (sanitized_reread image'))⟩
  · obtain ⟨shown', among, equal⟩ :=
      answer_shown positive meets returned done (notFound error replied status)
    obtain rfl : shown' = none := by
      rcases equal with equal | equal
      · exact equal.symm
      · exact Option.map_eq_none_iff.mp equal.symm
    have place : (run (boot config world) labels).view.log = [] ++
        ((.returned pid (.image result) :: later ++ .started pid own ::
          (gap ++ .performed event :: rest)) ++ .performed mutation :: oldest) := by
      simp [log]
    exact (gone_of_shown place (completes_iff.mp done).2.2.1 (wider among)).1

/-- A task is created, cancelled and shown twice, the second time from the cache. -/
def cancelledRun : List (backend defaultConfig).Label :=
  .start (.create 1 (promptPayload "a") false) :: succeeds 0 11 ++
    .start (.cancelById 1 1) :: succeeds 1 10 ++
    .start (.getById 1 1 false) :: succeeds 2 3 ++ .start (.getById 1 1 false) :: succeeds 3 1

theorem tasks_fresh_cancelledRun :
    ∃ image, justShown (run (boot defaultConfig World.empty) cancelledRun).view.log =
        some (3, .ok image) ∧
      ∃ shown, ShownAmong 1 1 ((run (boot defaultConfig World.empty) cancelledRun).view.log.take 17)
        (some shown) ∧
        (sanitized image = sanitized shown ∨ sanitized image = (sanitized shown).reread) := by
  have fresh := tasks_fresh World.empty cancelledRun ⟨by decide, by simp [World.empty, Keyed.Table.empty]⟩
    (by decide +kernel)
  have replied : ((justShown (run (boot defaultConfig World.empty) cancelledRun).view.log).bind
      fun reply => reply.2.toOption.map fun image => (reply.1, image.status)) =
        some (3, .Cancelled) := by decide +kernel
  obtain ⟨⟨pid, result⟩, replied, shows⟩ := Option.bind_eq_some_iff.mp replied
  cases result with
  | error error => cases shows
  | ok image =>
    obtain rfl : pid = 3 := congrArg Prod.fst (Option.some.inj shows)
    refine ⟨image, replied, ?_⟩
    exact (fresh 3 _ 1 1 false _ _ replied (by rfl) (List.take_append_drop 17 _).symm
      (by decide +kernel)).shown image rfl

/-- The cache is there, and every write and every drop succeeds. -/
abbrev cacheWorks : Condition (backend config) where
  starts _ _ := True
  performs _ _ op choice _ :=
    (match op with
      | .cacheGet _ | .cacheSetex .. | .cacheDel _ => choice.succeeds
      | _ => true) = true

/-- A reader that has found no entry keeps the row while the task is cancelled. -/
def keptReadRun : List (backend defaultConfig).Label :=
  .start (.create 1 (promptPayload "a") false) :: succeeds 0 5 ++
    .start (.getById 1 1 false) :: succeeds 1 2 ++ succeeds 0 6 ++
    .start (.cancelById 1 1) :: succeeds 2 10 ++ succeeds 1 1 ++
    .start (.getById 1 1 false) :: succeeds 3 1

/-- The statuses of the rows that are read or inserted among these operations. -/
def statusesRead (since : List (backend config).Entry) : List (Option TaskStatus) :=
  since.filterMap fun entry =>
    match statementOf entry with
    | some (t, .selectByIdAndUserId id userId) => some ((rowOf userId id t).map Row.status)
    | some (_, .insert values) => some (some values.status)
    | _ => none

theorem ShownAmong.status {since : List (backend config).Entry} {shown : ImageGeneration}
    (among : ShownAmong userId id since (some shown)) : some shown.status ∈ statusesRead since := by
  generalize same : some shown = found at among
  refine List.mem_filterMap.mpr ?_
  cases among with
  | read member reads =>
    obtain ⟨row, found, rfl⟩ := Option.map_eq_some_iff.mp same.symm
    exact ⟨_, member, by rw [reads]; simp [found, ImageRepo.rowToImageGeneration]⟩
  | inserted member inserts =>
    obtain rfl := Option.some.inj same
    exact ⟨_, member, by rw [inserts]; rfl⟩

/-- A task that was cancelled, and dropped from the cache, is still shown as queued. -/
theorem tasks_stale : ¬ ∀ labels : List (backend defaultConfig).Label,
    Meets cacheWorks (boot defaultConfig World.empty) labels →
      TasksFresh (run (boot defaultConfig World.empty) labels).view := by
  intro always
  have fresh := always keptReadRun (by decide +kernel)
  have replied : ((justShown (run (boot defaultConfig World.empty) keptReadRun).view.log).bind
      fun reply => reply.2.toOption.map fun image => (reply.1, image.status)) =
        some (3, .Queued) := by decide +kernel
  obtain ⟨⟨pid, result⟩, replied, shows⟩ := Option.bind_eq_some_iff.mp replied
  cases result with
  | error error => cases shows
  | ok image =>
    obtain ⟨rfl, queued⟩ := Prod.mk.inj (Option.some.inj shows)
    obtain ⟨shown, among, same⟩ := (fresh 3 _ 1 1 false _ _ replied (by rfl)
      (List.take_append_drop 14 _).symm (by decide +kernel)).shown image rfl
    have status : image.status = shown.status := by
      have shows : (sanitized image).status = shown.status := by
        rcases same with same | same <;> rw [same] <;> rfl
      exact shows
    have read : statusesRead ((run (boot defaultConfig World.empty) keptReadRun).view.log.take 14) =
        [some .Cancelled] := by decide +kernel
    have member := among.status
    rw [read, ← status, queued] at member
    cases List.mem_singleton.mp member

end Text2Image
