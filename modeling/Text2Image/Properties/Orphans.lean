import Text2Image.Properties.StoredImages

/-! What a deletion leaves in the object store. -/

set_option autoImplicit false

namespace Text2Image

open Concurrency System TaskStatus

variable {config : Config}

/-! ## What a deletion does -/

/-- What follows the DELETE: no statement, and at most this object is removed. -/
def Cleans (storageKey : String) : Op → Prop
  | .sql _ => False
  | .deleteObject key => key = storageKey
  | _ => True

variable {past : Past} {storageKey : String} {userId id : Int}

theorem cleans_cleanUpDeleted (userId id : Int) (storageKey : String) (past : Past) :
    (ImageService.cleanUpDeleted userId id storageKey).Follows (fun _ op => Cleans storageKey op)
      (fun later _ => storageKey ≠ "" →
        ∃ answer, (⟨.deleteObject storageKey, answer⟩ : Taken interface) ∈ later) past := by
  have removes : (ImageService.removeStored storageKey).Follows (fun _ op => Cleans storageKey op)
      (fun later _ => storageKey ≠ "" →
        ∃ answer, (⟨.deleteObject storageKey, answer⟩ : Taken interface) ∈ later) past := by
    unfold ImageService.removeStored ImageStorage.remove
    cases empty : storageKey.isEmpty with
    | true => exact .done fun named => (named (String.isEmpty_iff.mp empty)).elim
    | false => exact .call rfl fun answer => .done fun _ => ⟨answer, List.mem_cons_self⟩
  have drops : ∀ later, (ImageService.dropPresigned storageKey).Follows
      (fun _ op => Cleans storageKey op) (fun _ _ => True) later := by
    intro later
    unfold ImageService.dropPresigned
    split
    · exact .done trivial
    · exact .call trivial fun _ => .done trivial
  unfold ImageService.cleanUpDeleted
  apply removes.bind
  intro removed _ _ named
  refine .call trivial fun _ => ?_
  apply (drops _).bind
  intro dropped _ grown _
  refine .call trivial fun _ => .done fun nonempty => ?_
  obtain ⟨answer, member⟩ := named nonempty
  exact ⟨answer, List.mem_cons_of_mem _ (grown (List.mem_cons_of_mem _ member))⟩

/-- All that a deletion has been answered when it succeeds, the oldest part last:
the row it found, the DELETE that met a row, and the cleaning up. -/
inductive DeletedAs (userId id : Int) (shown : Row) : Past → Prop where
  | intro {count : Nat} {added : Past} (met : 0 < count)
      (cleans : ∀ taken ∈ added, Cleans shown.storage_key taken.op)
      (removes : shown.storage_key ≠ "" →
        ∃ answer, (⟨.deleteObject shown.storage_key, answer⟩ : Taken interface) ∈ added) :
      DeletedAs userId id shown (added ++
        ((⟨.sql (.deleteByIdAndUserId id userId), .ok count⟩ : Taken interface) ::
          [⟨.sql (.selectByIdAndUserId id userId), .ok (some shown)⟩]))

theorem gives_deleteById (userId id : Int) :
    Gives (ImageService.deleteById userId id) [] fun later result =>
      result = .ok () → ∃ shown, DeletedAs userId id shown later := by
  have refused : ∀ {later : Past} (error : ServiceError),
      Gives (return .error error : Program (ServiceResult Unit)) later fun later result =>
        result = .ok () → ∃ shown, DeletedAs userId id shown later := by
    intro later error
    refine .done ?_
    intro same
    cases same
  unfold ImageService.deleteById
  split
  · exact refused _
  apply (gives_findByIdAndUserId id userId).bind
  intro found answer _ known
  match answer with
  | .error error => exact refused _
  | .ok none => exact refused _
  | .ok (some image) =>
    obtain ⟨shown, rfl, rfl⟩ := known image rfl
    dsimp only
    split
    · exact refused _
    apply (gives_deleteByIdAndUserId id userId).bind
    intro deleted answer _ known
    match answer with
    | .error error => exact refused _
    | .ok false => exact refused _
    | .ok true =>
      obtain ⟨count, met, rfl⟩ := known rfl
      have cleaning := (cleans_cleanUpDeleted userId id shown.storage_key
        [(⟨.sql (.deleteByIdAndUserId id userId), .ok count⟩ : Taken interface),
          ⟨.sql (.selectByIdAndUserId id userId), .ok (some shown)⟩]).adds
      apply (cleaning.weaken fun _ _ _ => trivial).bind
      rintro later _ _ ⟨removes, added, rfl, cleans⟩
      refine .done fun _ => ⟨shown, .intro met cleans fun nonempty => ?_⟩
      obtain ⟨answer, member⟩ := removes nonempty
      rcases List.mem_append.mp member with newer | older
      · exact ⟨answer, newer⟩
      · rcases List.mem_cons.mp older with same | last
        · cases same
        · cases List.mem_singleton.mp last

/-! ## What the log says of a deletion -/

/-- The row that this entry deletes for the process. -/
def deletes (pid : Nat) : (backend config).Entry → Option Row
  | .performed event =>
    if event.pid = pid ∧ event.helper = false then
      match statementOf (.performed event) with
      | some (t, .deleteByIdAndUserId id userId) => t.rows.find? (deletable id userId)
      | _ => none
    else none
  | _ => none

/-- The row the process has deleted last, as it was at that moment. -/
def deletedRow (pid : Nat) (log : List (backend config).Entry) : Option Row :=
  log.findSome? (deletes pid)

/-- The row an answer shows. -/
def shows : Taken interface → Option Row
  | ⟨.sql (.selectByIdAndUserId _ _), answer⟩ =>
    match (answer : RepoResult (Option Row)) with
    | .ok row => row
    | .error _ => none
  | _ => none

/-- The row the process has read last. -/
def shownRow (pid : Nat) (log : List (backend config).Entry) : Option Row :=
  (history pid log).findSome? shows

variable {log : List (backend config).Entry} {pid : Nat} {shown : Row}

theorem deletes_silent {event : (backend config).Event} (silent : ∀ s, event.op ≠ .sql s) :
    deletes pid (.performed event) = none := by
  have none : statementOf (.performed event) = none := by
    cases found : statementOf (.performed event) with
    | none => rfl
    | some both =>
      obtain ⟨s, executes, _⟩ := Option.map_eq_some_iff.mp found
      exact (silent s (executed_eq_some.mp executes).1).elim
  simp [deletes, none]

theorem Cleans.silent {storageKey : String} {op : Op} (cleans : Cleans storageKey op) (s : Stmt) :
    op ≠ .sql s := by
  rintro rfl
  exact cleans

theorem Cleans.removes {storageKey key : String} {op : Op} {choice : Choice}
    (cleans : Cleans storageKey op) (gone : removed op choice = some key) : key = storageKey := by
  cases op with
  | deleteObject other =>
    simp only [removed] at gone
    split at gone
    · cases gone
      exact cleans
    · cases gone
  | _ => cases gone

/-- An answered DELETE that met a row stands in the log with that row. -/
theorem deletedRow_of_history {added past : Past} {count : Nat} (genuine : AllGenuine log)
    (met : 0 < count) (cleans : ∀ taken ∈ added, Cleans storageKey taken.op)
    (split : history pid log = added ++
      (⟨.sql (.deleteByIdAndUserId id userId), .ok count⟩ : Taken interface) :: past) :
    ∃ row, deletedRow pid log = some row ∧ row.id = id ∧ row.user_id = userId := by
  induction log generalizing added with
  | nil => cases added <;> cases split
  | cons entry log ih =>
    have older : AllGenuine log := fun event member => genuine event (List.mem_cons_of_mem _ member)
    have pass : ∀ added : Past, (∀ taken ∈ added, Cleans storageKey taken.op) → history pid log = added ++
        (⟨.sql (.deleteByIdAndUserId id userId), .ok count⟩ : Taken interface) :: past →
        deletes pid entry = none →
        ∃ row, deletedRow pid (entry :: log) = some row ∧ row.id = id ∧ row.user_id = userId := by
      intro added cleans split silent
      obtain ⟨row, found, same⟩ := ih older cleans split
      exact ⟨row, by simpa [deletedRow, silent] using found, same⟩
    cases entry with
    | performed event =>
      by_cases own : event.pid = pid ∧ event.helper = false
      · simp only [history, own, and_self, if_true] at split
        cases added with
        | nil =>
          -- this is the DELETE itself
          obtain ⟨same, _⟩ := List.cons.inj split
          obtain ⟨found, answer⟩ := got_genuine (genuine event List.mem_cons_self) same
          have some : event.before.db.rows.filter (deletable id userId) ≠ [] := by
            intro empty
            have zero : count = (event.before.db.rows.filter (deletable id userId)).length := answer
            rw [empty] at zero
            exact absurd zero (Nat.ne_of_gt met)
          obtain ⟨first, member⟩ := List.exists_mem_of_ne_nil _ some
          obtain ⟨present, matching⟩ := List.mem_filter.mp member
          obtain ⟨row, finds⟩ := Option.isSome_iff_exists.mp
            (List.find?_isSome.mpr ⟨first, present, matching⟩)
          have deleted := deletable_iff.mp (List.find?_some finds)
          refine ⟨row, ?_, deleted.1, deleted.2.1⟩
          simp [deletedRow, deletes, own, found, finds]
        | cons newest added =>
          obtain ⟨same, rest⟩ := List.cons.inj split
          have silent : Cleans storageKey event.op := by
            have first := cleans newest List.mem_cons_self
            rwa [← same] at first
          exact pass added (fun taken member => cleans taken (List.mem_cons_of_mem _ member)) rest
            (deletes_silent silent.silent)
      · simp only [history, own, if_false] at split
        exact pass added cleans split (by simp [deletes, own])
    | _ => exact pass added cleans split rfl

/-! ## Absent objects -/

/-- Someone has stored an object under the key. -/
def StoredIn (key : String) (log : List (backend config).Entry) : Prop :=
  ∃ event data, .performed event ∈ log ∧ event.op = .putObject key data

/-- An object that is removed stays away until it is stored again. -/
def Absent (view : (backend config).View) : Prop :=
  ∀ newer event older key, view.log = newer ++ .performed event :: older →
    removed event.op event.choice = some key →
    view.world.objects key = none ∨ StoredIn key newer

theorem absent_kept : Kept config .free Absent where
  acts view pid call helper op choice _ _ absent _ _ _ := by
    intro newer event older key split gone
    cases newer with
    | nil =>
      obtain ⟨same, _⟩ := List.cons.inj split
      cases same
      exact .inl (perform_removed pid view.world gone)
    | cons newest newer =>
      obtain ⟨same, rest⟩ := List.cons.inj split
      rcases absent newer event older key rest gone with none | ⟨put, data, member, stores⟩
      · rcases perform_object config pid op choice view.world key with
          kept | ⟨_, none'⟩ | ⟨data, stores, _⟩
        · exact .inl (kept.trans none)
        · exact .inl none'
        · subst same
          exact .inr ⟨_, data, List.mem_cons_self, stores⟩
      · exact .inr ⟨put, data, List.mem_cons_of_mem _ member, stores⟩
  started view pid call absent _ _ := by
    intro newer event older key split gone
    cases newer with
    | nil => cases (List.cons.inj split).1
    | cons newest newer =>
      refine (absent newer event older key (List.cons.inj split).2 gone).imp id ?_
      rintro ⟨put, data, member, stores⟩
      exact ⟨put, data, List.mem_cons_of_mem _ member, stores⟩
  quiet view entry after absent settles _ unperformed := by
    intro newer event older key split gone
    rw [settles.objects]
    cases newer with
    | nil => exact (unperformed event (List.cons.inj split).1).elim
    | cons newest newer =>
      refine (absent newer event older key (List.cons.inj split).2 gone).imp id ?_
      rintro ⟨put, data, member, stores⟩
      exact ⟨put, data, List.mem_cons_of_mem _ member, stores⟩
  passes view after absent settles := by
    intro newer event older key split gone
    rw [settles.objects]
    exact absent newer event older key split gone

/-- Every removal from the object store succeeds. -/
abbrev removalsSucceed : Condition (backend config) where
  starts _ _ := True
  performs _ _ op choice _ :=
    (match op with
      | .deleteObject _ => choice.succeeds
      | _ => true) = true

/-- A removal that was asked for has taken place. -/
def Removals (view : (backend config).View) : Prop :=
  ∀ event key, .performed event ∈ view.log → event.op = .deleteObject key →
    removed event.op event.choice = some key

theorem removals_kept : Kept config removalsSucceed Removals where
  acts view pid call helper op choice _ _ removals _ _ meets := by
    intro event key member asked
    rcases List.mem_cons.mp member with same | old
    · cases same
      have removes : op = .deleteObject key := asked
      subst removes
      have done : choice.outcome = .done := of_decide_eq_true meets
      simp [View.event, removed, Choice.applies, done]
    · exact removals event key old asked
  started view pid call removals _ _ := by
    intro event key member
    rcases List.mem_cons.mp member with same | old
    · cases same
    · exact removals event key old
  quiet view entry after removals _ _ unperformed := by
    intro event key member
    rcases List.mem_cons.mp member with same | old
    · exact (unperformed event same.symm).elim
    · exact removals event key old
  passes view after removals _ := removals

/-! ## Deletions -/

/-- The process has removed the object after its DELETE, and it is gone unless
someone has stored it again since. -/
def Cleared (view : (backend config).View) (pid : Nat) (key : String) : Prop :=
  ∃ newer event older, view.log = newer ++ .performed event :: older ∧ event.pid = pid ∧
    event.helper = false ∧ removed event.op event.choice = some key ∧
    (deletedRow pid older).isSome = true ∧ (view.world.objects key = none ∨ StoredIn key newer)

variable {view : (backend config).View} {past : Past}

theorem DeletedAs.shownRow (deleted : DeletedAs userId id shown past)
    (split : history pid log = past) : shownRow pid log = some shown := by
  cases deleted with
  | @intro count added _ cleans _ =>
    have none : added.findSome? shows = none := by
      rw [List.findSome?_eq_none_iff]
      intro taken member
      have silent := (cleans taken member).silent
      obtain ⟨op, answer⟩ := taken
      cases op with
      | sql s => exact (silent s rfl).elim
      | _ => rfl
    rw [Text2Image.shownRow, split, List.findSome?_append, none]
    rfl

/-- Only the object of the row it has read is removed by a deletion. -/
theorem DeletedAs.removed_key (deleted : DeletedAs userId id shown past)
    (split : history pid log = past) {newer older : List (backend config).Entry}
    {event : (backend config).Event} {key : String} (within : log = newer ++ .performed event :: older)
    (own : event.pid = pid) (program : event.helper = false)
    (gone : removed event.op event.choice = some key) : key = shown.storage_key := by
  have member : (⟨event.op, event.answer⟩ : Taken interface) ∈ past := by
    have suffix := history_suffix pid newer (.performed event :: older)
    rw [← within, split] at suffix
    refine suffix.subset ?_
    simp [history, own, program]
  cases deleted with
  | @intro count added _ cleans _ =>
    rcases List.mem_append.mp member with newer | older
    · exact (cleans _ newer).removes gone
    · -- the other two are statements
      have statement : ∃ s, event.op = .sql s := by
        rcases List.mem_cons.mp older with same | last
        · exact ⟨_, congrArg Taken.op same⟩
        · exact ⟨_, congrArg Taken.op (List.mem_singleton.mp last)⟩
      obtain ⟨s, same⟩ := statement
      rw [same] at gone
      cases gone

/-- The object of the row it has read is removed. -/
theorem DeletedAs.cleared (deleted : DeletedAs userId id shown past)
    (split : history pid view.log = past) (genuine : AllGenuine view.log) (absent : Absent view)
    (asked : Removals view) (nonempty : shown.storage_key ≠ "") :
    Cleared view pid shown.storage_key := by
  cases deleted with
  | @intro count added met cleans removes =>
    obtain ⟨answer, member⟩ := removes nonempty
    obtain ⟨after, before, rfl⟩ := List.append_of_mem member
    rw [List.append_assoc, List.cons_append] at split
    obtain ⟨newer, event, older, within, own, program, same, past⟩ := history_split split
    have gone : removed event.op event.choice = some shown.storage_key :=
      asked event _ (by rw [within]; simp) (congrArg Taken.op same)
    have genuine' : AllGenuine older := by
      intro event member
      refine genuine event ?_
      rw [within]
      exact List.mem_append_right _ (List.mem_cons_of_mem _ member)
    have cleans' : ∀ taken ∈ before, Cleans shown.storage_key taken.op :=
      fun taken member => cleans taken (List.mem_append_right _ (List.mem_cons_of_mem _ member))
    obtain ⟨row, found, _⟩ := deletedRow_of_history genuine' met cleans' past
    exact ⟨newer, event, older, within, own, program, gone, by rw [found]; rfl,
      absent newer event older _ within gone⟩

/-- What a call promises of its reply; only deletions are asked. -/
def Call.deletesAs : Call → Past → Reply → Prop
  | .deleteById userId id, past, .deleted (.ok ()) => ∃ shown, DeletedAs userId id shown past
  | _, _, _ => True

theorem deletesAs_given (call : Call) :
    ((backend config).program call).Follows (fun _ _ => True) (call.deletesAs) [] := by
  cases call with
  | deleteById userId id =>
    apply (gives_deleteById userId id).bind
    intro later result _ known
    refine .done ?_
    cases result with
    | error error => trivial
    | ok => exact known rfl
  | _ => exact (Prog.follows_free _ _).mono fun _ reply _ _ => by cases reply <;> trivial

/-- The deletion whose success was the last thing to happen: its process, its user
and the task. -/
def justDeleted : List (backend config).Entry → Option (Nat × Int × Int)
  | .returned pid (.deleted (.ok ())) :: older =>
    match live pid older with
    | some (.deleteById userId id) => some (pid, userId, id)
    | _ => none
  | _ => none

theorem justDeleted_eq (just : justDeleted log = some (pid, userId, id)) :
    ∃ older, log = .returned pid (Reply.deleted (.ok ())) :: older ∧
      live pid older = some (Call.deleteById userId id) := by
  unfold justDeleted at just
  split at just
  · split at just
    · cases just
      exact ⟨_, rfl, ‹_›⟩
    · cases just
  · cases just

/-- A deletion that has just succeeded has removed the object of the deleted row
exactly if it was the object of the row it had read before. -/
theorem deletions_cleared (world : World) (labels : List (backend config).Label)
    (removals : Meets removalsSucceed (boot config world) labels)
    (just : justDeleted (run (boot config world) labels).view.log = some (pid, userId, id)) :
    ∃ gone shown, deletedRow pid (run (boot config world) labels).view.log = some gone ∧
      gone.id = id ∧ gone.user_id = userId ∧
      shownRow pid (run (boot config world) labels).view.log = some shown ∧
      (gone.storage_key = "" ∨ Cleared (run (boot config world) labels).view pid gone.storage_key ↔
        gone.storage_key = "" ∨ gone.storage_key = shown.storage_key) := by
  have follows : (run (boot config world) labels).Follows (protocols config) := follows_run world labels
  obtain ⟨older, returned, alive⟩ := justDeleted_eq just
  have absent : Absent (run (boot config world) labels).view := by
    refine absent_kept.run ?_ labels (meets_free _ _)
    intro newer event older key split
    cases newer <;> cases split
  have asked : Removals (run (boot config world) labels).view := by
    refine removals_kept.run ?_ labels removals
    intro event key member
    cases member
  obtain ⟨call, alive', promised⟩ := (tracks_run _ labels).promised deletesAs_given
    (returned.trans (List.nil_append _).symm)
  rw [alive] at alive'
  cases alive'
  obtain ⟨shown, deleted⟩ : ∃ shown, DeletedAs userId id shown (history pid older) := promised
  have told : history pid (run (boot config world) labels).view.log = history pid older := by
    rw [returned]
    rfl
  obtain ⟨gone, found, same, user⟩ : ∃ row,
      deletedRow pid (run (boot config world) labels).view.log = some row ∧ row.id = id ∧
        row.user_id = userId := by
    generalize answers : history pid older = past at deleted
    cases deleted with
    | intro met cleans _ => exact deletedRow_of_history follows.genuine met cleans (told.trans answers)
  refine ⟨gone, shown, found, same, user, deleted.shownRow told, ?_⟩
  constructor
  · rintro (empty | ⟨newer, event, older', within, own, program, removes, _⟩)
    · exact .inl empty
    · exact .inr (deleted.removed_key told within own program removes)
  · rintro (empty | equal)
    · exact .inl empty
    · by_cases empty : gone.storage_key = ""
      · exact .inl empty
      · rw [equal] at empty ⊢
        exact .inr (deleted.cleared told follows.genuine absent asked empty)

/-- A task is finished and deleted. -/
def deleteRun : List (backend defaultConfig).Label :=
  finishRun ++ .start (.deleteById 1 1) :: succeeds 2 6

/-- A cancelled task is read by its deletion, then retried and finished, then deleted. -/
def overtakenRun : List (backend defaultConfig).Label :=
  .start (.create 1 (promptPayload "a") false) :: succeeds 0 5 ++
    .start (.cancelById 1 1) :: succeeds 1 4 ++
    .start (.deleteById 1 1) :: succeeds 2 1 ++
    .start (.retryById 1 1) :: succeeds 3 4 ++
    .start (.workerTurn 0) :: acts 4 [refused, {}, {}, {}] ++ acts 4 storing ++
    acts 4 [{}, refused] ++ succeeds 2 5

/-- The keys whose objects the process has removed. -/
def removedBy (pid : Nat) (log : List (backend config).Entry) : List String :=
  log.filterMap fun
    | .performed event => if event.pid = pid then removed event.op event.choice else none
    | _ => none

theorem deletions_cleared_deleteRun :
    (run (boot defaultConfig World.empty) deleteRun).view.world.objects "images/1/a.png" = none ∧
    ∃ gone shown, deletedRow 2 (run (boot defaultConfig World.empty) deleteRun).view.log = some gone ∧
      gone.id = 1 ∧ gone.user_id = 1 ∧
      shownRow 2 (run (boot defaultConfig World.empty) deleteRun).view.log = some shown ∧
      (gone.storage_key = "" ∨
          Cleared (run (boot defaultConfig World.empty) deleteRun).view 2 gone.storage_key ↔
        gone.storage_key = "" ∨ gone.storage_key = shown.storage_key) :=
  ⟨by decide +kernel, deletions_cleared World.empty deleteRun (by decide +kernel) (by decide +kernel)⟩

/-- A deletion leaves the object of an image that was finished after it had read
the task. -/
theorem deletions_uncleared : ¬ ∀ labels : List (backend defaultConfig).Label,
    Meets removalsSucceed (boot defaultConfig World.empty) labels → ∀ pid userId id gone,
    justDeleted (run (boot defaultConfig World.empty) labels).view.log = some (pid, userId, id) →
    deletedRow pid (run (boot defaultConfig World.empty) labels).view.log = some gone →
    gone.storage_key = "" ∨
      Cleared (run (boot defaultConfig World.empty) labels).view pid gone.storage_key := by
  intro claim
  have key : (deletedRow 2 (run (boot defaultConfig World.empty) overtakenRun).view.log).map
      Row.storage_key = some "images/1/a.png" := by decide +kernel
  obtain ⟨gone, deleted, named⟩ := Option.map_eq_some_iff.mp key
  have untouched : removedBy 2 (run (boot defaultConfig World.empty) overtakenRun).view.log = [] := by
    decide +kernel
  rcases claim overtakenRun (by decide +kernel) 2 1 1 gone (by decide +kernel) deleted with
    empty | ⟨newer, event, older, within, own, _, removes, _⟩
  · rw [empty] at named
    exact absurd named (by decide)
  · have found : gone.storage_key ∈
        removedBy 2 (run (boot defaultConfig World.empty) overtakenRun).view.log := by
      rw [removedBy, List.mem_filterMap]
      exact ⟨.performed event, by rw [within]; simp, by simp [own, removes]⟩
    rw [untouched] at found
    cases found

end Text2Image
