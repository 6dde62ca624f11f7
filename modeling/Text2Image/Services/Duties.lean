import Text2Image.Services.Footprint
import Text2Image.Services.Protocol

/-! Which waiting tasks a process still has to see to: it has made a task wait
and has not put it into the task list yet, it has taken a task out of the list and
has not claimed it yet, or it is going to rebuild the list.
-/

set_option autoImplicit false

namespace Text2Image

open Concurrency

/-! ## Duties -/

/-- The result is no error, and the value is such. -/
def tells {α : Type} (result : RepoResult α) (such : α → Bool) : Bool :=
  match result with
  | .ok value => such value
  | .error _ => false

/-- With this answer the process has the task in hand. -/
def gains (id userId : Int) : Taken interface → Bool
  | ⟨.lastInsertId, answer⟩ => @tells Int answer fun given => given = id
  | ⟨.sql (.retryByIdAndUserId task user), answer⟩ =>
    @tells Nat answer fun changed => task = id ∧ user = userId ∧ 0 < changed
  | ⟨.sql (.deferClaimedTask task _ _ _ _), answer⟩ =>
    @tells Nat answer fun changed => task = id ∧ 0 < changed
  | ⟨.sql .selectQueuedIds, answer⟩ => @tells (List Int) answer fun ids => ids.contains id
  | ⟨.dequeueTask, answer⟩ => @Option.any Int (fun task => task = id) answer
  | _ => false

/-- With this answer the task is no longer in hand: it is in the list, it has
been claimed, it is gone, or it was dropped because its Redis lease is held. -/
def settles (id userId : Int) : Taken interface → Bool
  | ⟨.enqueueTask task, _⟩ => task = id
  | ⟨.rebuildTaskQueue ids, _⟩ => ids.contains id
  | ⟨.sql (.claimTaskById task _ _ _), _⟩ => task = id
  | ⟨.sql (.selectByIdAndUserId task user), answer⟩ =>
    @tells (Option Row) answer fun row => row.isNone ∧ task = id ∧ user = userId
  | ⟨.acquireLease task _, answer⟩ => task = id && !(answer : Bool)
  | _ => false

def inHand (id userId : Int) : Past → Bool
  | [] => false
  | taken :: past => gains id userId taken || (!settles id userId taken && inHand id userId past)

/-- The process has inserted a row and has not been told its id yet. -/
def inserting : Past → Bool
  | [] => false
  | ⟨.sql (.insert _), _⟩ :: _ => true
  | ⟨.lastInsertId, _⟩ :: _ => false
  | _ :: past => inserting past

def Op.isScan : Op → Bool
  | .sql .selectQueuedIds => true
  | _ => false

def Call.scans : Call → Bool
  | .leaseExpiryTurn | .recoverOrphanedTasks => true
  | _ => false

/-- The process is still going to read which tasks wait and to rebuild the list. -/
def scanning (call : Call) (past : Past) : Bool :=
  call.scans && !past.any fun taken => taken.op.isScan

/-- The operation gives nobody a duty. -/
def Idle : Op → Prop
  | .lastInsertId | .dequeueTask => False
  | .sql (.insert _) | .sql (.retryByIdAndUserId ..) | .sql (.deferClaimedTask ..)
  | .sql .selectQueuedIds | .sql (.requeueExpired _) => False
  | _ => True

/-- The answer reports no failure. -/
def fair : Taken interface → Bool
  | ⟨.sql s, answer⟩ => @tells s.Answer answer fun _ => true
  | ⟨.lastInsertId, answer⟩ => @tells Int answer fun _ => true
  | ⟨.publishTaskUpdated _, answer⟩ => @Except.isOk String Unit answer
  | ⟨.redisAvailable, answer⟩ => (answer : Bool)
  | _ => true

def Fair (past : Past) : Prop := ∀ taken ∈ past, fair taken = true

/-- Nothing in hand, and no row without its id. -/
structure Free (past : Past) : Prop where
  inserting : inserting past = false
  inHand : ∀ id userId, inHand id userId past = false

variable {past later : Past} {id userId : Int} {taken : Taken interface}

theorem gains_of_idle (idle : Idle taken.op) : gains id userId taken = false := by
  obtain ⟨op, answer⟩ := taken
  cases op with
  | sql s => cases s <;> first | rfl | exact idle.elim
  | lastInsertId => exact idle.elim
  | dequeueTask => exact idle.elim
  | _ => rfl

theorem inserting_of_idle (idle : Idle taken.op) : inserting (taken :: past) = inserting past := by
  obtain ⟨op, answer⟩ := taken
  cases op with
  | sql s => cases s <;> first | rfl | exact idle.elim
  | lastInsertId => exact idle.elim
  | _ => rfl

/-- Idle operations came on top of these answers. -/
def Added (past later : Past) : Prop :=
  ∃ added, later = added ++ past ∧ ∀ taken ∈ added, Idle taken.op

theorem Added.refl (past : Past) : Added past past := ⟨[], rfl, by simp⟩

theorem Added.trans {between : Past} (first : Added past between) (second : Added between later) :
    Added past later := by
  obtain ⟨older, rfl, idle⟩ := first
  obtain ⟨newer, rfl, idle'⟩ := second
  refine ⟨newer ++ older, by simp, ?_⟩
  intro taken member
  exact (List.mem_append.mp member).elim (idle' taken) (idle taken)

theorem Added.cons (op : Op) (answer : op.Answer) (idle : Idle op) :
    Added past ((⟨op, answer⟩ : Taken interface) :: past) := by
  refine ⟨[⟨op, answer⟩], rfl, ?_⟩
  intro taken member
  rw [List.mem_singleton.mp member]
  exact idle

theorem Added.inserting (added : Added past later) : inserting later = inserting past := by
  obtain ⟨newer, rfl, idle⟩ := added
  induction newer with
  | nil => rfl
  | cons taken newer ih =>
    rw [List.cons_append, inserting_of_idle (idle taken List.mem_cons_self)]
    exact ih fun taken member => idle taken (List.mem_cons_of_mem _ member)

/-- What idle operations leave in hand was in hand before and is not settled by them. -/
theorem inHand_added (newer : Past) (idle : ∀ taken ∈ newer, Idle taken.op)
    (held : inHand id userId (newer ++ past) = true) :
    inHand id userId past = true ∧ ∀ taken ∈ newer, settles id userId taken = false := by
  induction newer with
  | nil => exact ⟨held, by simp⟩
  | cons taken newer ih =>
    have gained : gains id userId taken = false := gains_of_idle (idle taken List.mem_cons_self)
    simp only [List.cons_append, inHand, gained, Bool.false_or, Bool.and_eq_true,
      Bool.not_eq_true'] at held
    obtain ⟨before, unsettled⟩ := ih (fun taken member => idle taken (List.mem_cons_of_mem _ member))
      held.2
    refine ⟨before, ?_⟩
    intro other member
    rcases List.mem_cons.mp member with rfl | older
    · exact held.1
    · exact unsettled other older

theorem Free.added (free : Free past) (added : Added past later) : Free later where
  inserting := added.inserting.trans free.inserting
  inHand id userId := by
    obtain ⟨newer, rfl, idle⟩ := added
    cases held : Text2Image.inHand id userId (newer ++ past) with
    | false => rfl
    | true =>
      have before := (inHand_added newer idle held).1
      rw [free.inHand] at before
      cases before

theorem Fair.of_added (fair : Fair later) (added : Added past later) : Fair past := by
  obtain ⟨newer, rfl, _⟩ := added
  exact fun taken member => fair taken (List.mem_append_right _ member)

/-! ## Programs without duties -/

variable {config : Config}

theorem idle_perform (op : Op) (idle : Idle op) : (Prog.perform (I := interface) op).Only Idle :=
  ⟨idle, fun _ => trivial⟩

theorem idle_of_evicting {α : Type} {program : Program α} (only : program.Only Evicting) :
    program.Only Idle := by
  refine only.mono fun op evicting => ?_
  cases op with
  | sql s => cases s <;> exact evicting
  | lastInsertId | dequeueTask => exact evicting
  | _ => trivial

/-! ### Requests -/

theorem idle_presignWithCache (storageKey : String) :
    (ImageService.presignWithCache config storageKey).Only Idle := by
  unfold ImageService.presignWithCache
  split
  · trivial
  split
  · exact idle_perform _ trivial
  refine (idle_perform _ (by trivial)).bind fun cached => ?_
  rcases cached with _ | (url | value | value)
  case some.text => trivial
  all_goals
    -- nothing is cached that could be used, so the url is signed
    refine (idle_perform (.presignGetUrl storageKey) trivial).bind fun url => ?_
    split
    · trivial
    split
    · trivial
    · exact ⟨trivial, fun _ => trivial⟩

theorem idle_presignInPlace (image : ImageGeneration) :
    (ImageService.presignInPlace config image).Only Idle := by
  refine (idle_presignWithCache _).bind fun url => ?_
  split <;> trivial

theorem idle_presignListImagesInPlace (images : List ImageGeneration) :
    (ImageService.presignListImagesInPlace config images).Only Idle := by
  induction images with
  | nil => trivial
  | cons image images ih =>
    have stored : (ImageService.presignStored config image).Only Idle := by
      unfold ImageService.presignStored
      split
      · trivial
      · exact idle_presignInPlace image
    exact stored.bind fun _ => ih.bind fun _ => trivial

theorem idle_listCached (key : String) (query : Program (RepoResult ImageRepo.PageResult))
    (idle : query.Only Idle) : (ImageService.listCached config key query).Only Idle := by
  have fromDb : (ImageService.listFromDb config key query).Only Idle := by
    refine idle.bind fun page => ?_
    split
    · trivial
    · have written : ∀ result, (ImageService.writeListCache key result).Only Idle :=
        fun result => ⟨trivial, fun _ => ⟨trivial, fun _ => trivial⟩⟩
      exact (written _).bind fun _ => (idle_presignListImagesInPlace _).bind fun _ => trivial
  refine (idle_perform _ (by trivial)).bind fun cached => ?_
  split
  · exact fromDb
  split
  · exact (idle_presignListImagesInPlace _).bind fun _ => trivial
  · exact (idle_perform _ (by trivial)).bind fun _ => fromDb

theorem idle_listMy (userId page size : Int) :
    (ImageService.listMy config userId page size).Only Idle := by
  unfold ImageService.listMy
  split
  · trivial
  · exact (idle_perform _ (by trivial)).bind fun _ => idle_listCached _ _ (idle_of_evicting (evicting_findPage _ _ _ _))

theorem idle_listMyByStatus (userId : Int) (status : String) (page size : Int) :
    (ImageService.listMyByStatus config userId status page size).Only Idle := by
  unfold ImageService.listMyByStatus
  split
  · trivial
  · exact (idle_perform _ (by trivial)).bind fun _ => idle_listCached _ _ (idle_of_evicting (evicting_findPage _ _ _ _))

theorem idle_presented (image : ImageGeneration) (includeImagePayload : Bool) :
    (if includeImagePayload ∧ ¬ image.storage_key.isEmpty then do
        let signed ← ImageService.presignInPlace config image
        return .ok signed
      else return .ok image : Program (ServiceResult ImageGeneration)).Only Idle := by
  split
  · exact (idle_presignInPlace image).bind fun _ => trivial
  · trivial

theorem idle_getById (userId id : Int) (includeImagePayload : Bool) :
    (ImageService.getById config userId id includeImagePayload).Only Idle := by
  have fromDb : (ImageService.getFromDb config userId id includeImagePayload).Only Idle := by
    refine (idle_of_evicting (evicting_findByIdAndUserId id userId)).bind fun found => ?_
    split
    · trivial
    · exact ⟨trivial, fun _ => trivial⟩
    · have written : ∀ key image, (ImageService.writeToCache key image).Only Idle :=
        fun _ _ => ⟨trivial, fun _ => trivial⟩
      exact (written _ _).bind fun _ => idle_presented _ _
  unfold ImageService.getById
  split
  · trivial
  refine (idle_perform _ (by trivial)).bind fun cached => ?_
  split
  · exact fromDb
  split
  · trivial
  split
  · exact idle_presented _ _
  · exact (idle_perform _ (by trivial)).bind fun _ => fromDb

/-! ## Programs with duties -/

/-- When duties may begin: a row is not inserted before the last one's id is
known, and tasks are not requeued after the scan that looks for them. -/
def Asks (past : Past) : Op → Prop
  | .sql (.insert _) => inserting past = false
  | .sql (.requeueExpired _) => (past.any fun taken => taken.op.isScan) = false
  | _ => True

theorem asks_of_idle {op : Op} (idle : Idle op) : Asks past op := by
  cases op with
  | sql s => cases s <;> trivial
  | _ => trivial

theorem follows_of_idle {α : Type} {program : Program α} (only : program.Only Idle) (past : Past) :
    program.Follows Asks (fun later _ => Added past later) past := by
  have kinds := (only.follows past).adds
  exact (kinds.mono fun _ _ _ holds => holds.2).weaken fun _ _ idle => asks_of_idle idle

theorem follows_of_evicting {α : Type} {program : Program α} (only : program.Only Evicting)
    (past : Past) : program.Follows Asks (fun later _ => Added past later) past :=
  follows_of_idle (idle_of_evicting only) past

/-- Idle operations came on top, which have seen to all such tasks if none failed. -/
def SeenTo (such : Int → Int → Prop) (past later : Past) : Prop :=
  ∃ newer, later = newer ++ past ∧ (∀ taken ∈ newer, Idle taken.op) ∧
    (Fair later → ∀ id userId, such id userId → ∃ taken ∈ newer, settles id userId taken = true)

variable {such : Int → Int → Prop}

theorem SeenTo.after {between : Past} (first : Added past between) (seen : SeenTo such between later) :
    SeenTo such past later := by
  obtain ⟨older, rfl, idle⟩ := first
  obtain ⟨newer, rfl, idle', settled⟩ := seen
  refine ⟨newer ++ older, by simp, ?_, ?_⟩
  · intro taken member
    exact (List.mem_append.mp member).elim (idle' taken) (idle taken)
  · intro fair id userId wanted
    obtain ⟨taken, member, settles⟩ := settled fair id userId wanted
    exact ⟨taken, List.mem_append_left _ member, settles⟩

theorem SeenTo.added {between : Past} (seen : SeenTo such past between) (last : Added between later) :
    SeenTo such past later := by
  obtain ⟨older, rfl, idle, settled⟩ := seen
  have before : Fair later → Fair (older ++ past) := fun fair => fair.of_added last
  obtain ⟨newer, rfl, idle'⟩ := last
  refine ⟨newer ++ older, by simp, ?_, ?_⟩
  · intro taken member
    exact (List.mem_append.mp member).elim (idle' taken) (idle taken)
  · intro fair id userId wanted
    obtain ⟨taken, member, settles⟩ := settled (before fair) id userId wanted
    exact ⟨taken, List.mem_append_right _ member, settles⟩

theorem SeenTo.unfair (added : Added past later) (failed : ¬ Fair later) : SeenTo such past later := by
  obtain ⟨newer, same, idle⟩ := added
  exact ⟨newer, same, idle, fun fair => (failed fair).elim⟩

theorem SeenTo.mono {such' : Int → Int → Prop} (seen : SeenTo such past later)
    (fewer : ∀ id userId, such' id userId → such id userId) : SeenTo such' past later := by
  obtain ⟨newer, same, idle, settled⟩ := seen
  exact ⟨newer, same, idle, fun fair id userId wanted => settled fair id userId (fewer id userId wanted)⟩

/-- One answer gave duties, and all of them were seen to. -/
theorem SeenTo.free (seen : SeenTo (fun id userId => gains id userId taken = true) (taken :: past) later)
    (before : ∀ id userId, inHand id userId past = false)
    (known : inserting (taken :: past) = false) (fair : Fair later) : Free later := by
  obtain ⟨newer, rfl, idle, settled⟩ := seen
  refine ⟨?_, ?_⟩
  · rw [Added.inserting ⟨newer, rfl, idle⟩, known]
  · intro id userId
    cases held : inHand id userId (newer ++ taken :: past) with
    | false => rfl
    | true =>
      obtain ⟨there, unsettled⟩ := inHand_added newer idle held
      simp only [inHand, before, Bool.and_false, Bool.or_false] at there
      obtain ⟨other, member, settles⟩ := settled fair id userId there
      rw [unsettled other member] at settles
      cases settles

theorem not_fair {op : Op} {answer : op.Answer} (failed : fair ⟨op, answer⟩ = false) :
    ¬ Fair ((⟨op, answer⟩ : Taken interface) :: past) := by
  intro all
  have first := all _ List.mem_cons_self
  rw [failed] at first
  cases first

theorem sees_enqueueTask (taskId : Int) (past : Past) :
    (enqueueTask taskId).Follows Asks
      (fun later _ => SeenTo (fun id _ => id = taskId) past later) past := by
  refine .call trivial fun available => ?_
  cases available with
  | false => exact .done (.unfair (.cons _ _ trivial) (not_fair rfl))
  | true =>
    refine .call trivial fun answer => .done ⟨[⟨.enqueueTask taskId, answer⟩, ⟨.redisAvailable, true⟩],
      rfl, ?_, ?_⟩
    · intro taken member
      rcases List.mem_cons.mp member with rfl | last
      · trivial
      · rw [List.mem_singleton.mp last]
        trivial
    · rintro _ id userId rfl
      exact ⟨_, List.mem_cons_self, by simp [settles]⟩

theorem sees_announceCreated (userId : Int) (generation : ImageGeneration) (past : Past) :
    (ImageService.announceCreated userId generation).Follows Asks
      (fun later _ => SeenTo (fun id _ => id = generation.id) past later) past := by
  refine .call trivial fun published => ?_
  cases published with
  | error what => exact .done (.unfair (.cons _ _ trivial) (not_fair rfl))
  | ok _ =>
    refine .call trivial fun written => .call trivial fun bumped => ?_
    apply (sees_enqueueTask generation.id _).bind
    intro later _ _ seen
    refine .done (seen.after ?_)
    exact ((Added.cons _ _ (by trivial)).trans (.cons _ _ (by trivial))).trans (.cons _ _ (by trivial))

theorem sees_insert (generation : ImageGeneration) (free : Free past) :
    (ImageRepo.insert generation).Follows Asks (fun later result =>
      (∀ error, result = .error error → ¬ Fair later) ∧
      ∀ given, result = .ok given → ∃ before : Past,
        later = (⟨.lastInsertId, .ok given⟩ : Taken interface) :: before ∧
          ∀ id userId, inHand id userId before = false) past := by
  apply (follows_of_idle (only_createdAtOf trivial generation) _).bind
  intro clocked createdAt _ added
  have free' := free.added added
  refine .call free'.inserting fun answer => ?_
  cases answer with
  | error error =>
    refine .done ⟨fun _ _ => not_fair rfl, ?_⟩
    intro given same
    cases same
  | ok _ =>
    refine .call trivial fun answer => .done ⟨?_, ?_⟩
    · rintro error rfl
      exact not_fair rfl
    · rintro given rfl
      refine ⟨_, rfl, fun id userId => ?_⟩
      simp [inHand, gains, free'.inHand]

/-- A creation sees to the task it has inserted. -/
theorem discharges_create (userId : Int) (payload : Json) (isAdmin : Bool) :
    (ImageService.create config userId payload isAdmin).Follows Asks
      (fun later _ => Fair later → Free later) [] := by
  have start : Free ([] : Past) := ⟨rfl, fun _ _ => rfl⟩
  unfold ImageService.create
  split
  · exact .done fun _ => start
  dsimp only
  split
  · exact .done fun _ => start
  apply (follows_of_idle (only_checkActiveTasks trivial isAdmin) _).bind
  intro counted error _ added
  cases error with
  | some error => exact .done fun _ => start.added added
  | none =>
    refine .call trivial fun now => ?_
    apply (follows_of_idle (only_requestIdOf trivial trivial _) _).bind
    intro requested requestId _ added'
    apply (follows_of_idle (only_findByRequestIdAndUserId trivial) _).bind
    intro searched existing _ added''
    have idle := ((added.trans (.cons _ _ (by trivial))).trans added').trans added''
    match existing with
    | .error error => exact .done fun _ => start.added idle
    | .ok (some image) => exact .done fun _ => start.added idle
    | .ok none =>
      apply (sees_insert _ (start.added idle)).bind
      rintro inserted answer _ ⟨failed, known⟩
      cases answer with
      | error error => exact .done fun fair => (failed error rfl fair).elim
      | ok insertedId =>
        obtain ⟨before, rfl, free⟩ := known insertedId rfl
        refine (sees_announceCreated userId _ _).mono fun later _ _ seen => ?_
        refine SeenTo.free (seen.mono ?_) free rfl
        intro id userId gained
        exact (of_decide_eq_true gained).symm

/-- Where nothing has failed, nothing is in hand. -/
def Clear (past : Past) : Prop := Fair past → Free past

theorem Clear.added (clear : Clear past) (added : Added past later) : Clear later :=
  fun fair => (clear (fair.of_added added)).added added

theorem clear_of_failed (failed : ¬ Fair later) : Clear later := fun fair => (failed fair).elim

theorem SeenTo.clear (taken : Taken interface)
    (seen : SeenTo (fun id userId => gains id userId taken = true) (taken :: past) later)
    (clear : Clear past) (same : inserting (taken :: past) = inserting past) : Clear later := by
  intro fair
  obtain ⟨newer, split, idle, settled⟩ := id seen
  have before : Fair past := by
    intro other member
    refine fair other ?_
    rw [split]
    exact List.mem_append_right _ (List.mem_cons_of_mem _ member)
  have free := clear before
  exact seen.free free.inHand (same.trans free.inserting) fair

theorem SeenTo.of_none (added : Added past later) (none : ∀ id userId, ¬ such id userId) :
    SeenTo such past later := by
  obtain ⟨newer, same, idle⟩ := added
  exact ⟨newer, same, idle, fun _ id userId wanted => (none id userId wanted).elim⟩

theorem updates_follows (s : Stmt) (counts : s.Answer = Nat) (asks : Asks past (.sql s)) :
    (ImageRepo.updates s counts).Follows Asks (fun later result => ∃ answer : RepoResult s.Answer,
      later = (⟨.sql s, answer⟩ : Taken interface) :: past ∧
        result = answer.map fun changed => decide ((counts ▸ changed : Nat) > 0)) past := by
  refine .call asks fun answer => ?_
  cases answer with
  | error error => exact .done ⟨.error error, rfl, rfl⟩
  | ok changed => exact .done ⟨.ok changed, rfl, rfl⟩

theorem gains_retry {id' userId' : Int} {answer : RepoResult Nat}
    (gained : gains id' userId' (⟨.sql (.retryByIdAndUserId id userId), answer⟩ : Taken interface) = true) :
    id' = id ∧ userId' = userId ∧ ∃ changed, answer = .ok changed ∧ 0 < changed := by
  match answer with
  | .error error => cases gained
  | .ok changed =>
    have both : decide (id = id' ∧ userId = userId' ∧ 0 < changed) = true := gained
    obtain ⟨rfl, rfl, positive⟩ := of_decide_eq_true both
    exact ⟨rfl, rfl, changed, rfl, positive⟩

/-- A retry that gives no task back leaves nothing in hand: nothing was changed,
or the row is gone. -/
theorem sees_retryByIdAndUserId (id userId : Int) (clear : Clear past) :
    (ImageRepo.retryByIdAndUserId id userId).Follows Asks (fun later result =>
      (∀ image, result ≠ .ok (some image)) ∧ Clear later ∨
      (∃ image, result = .ok (some image)) ∧ ∃ answer : RepoResult Nat,
        Added ((⟨.sql (.retryByIdAndUserId id userId), answer⟩ : Taken interface) :: past) later) past := by
  unfold ImageRepo.retryByIdAndUserId
  apply (updates_follows _ rfl (by trivial)).bind
  rintro later changed _ ⟨answer, rfl, rfl⟩
  match answer with
  | .error error =>
    refine .done (.inl ⟨?_, clear_of_failed (not_fair rfl)⟩)
    intro image same
    cases same
  | .ok (changed : Nat) =>
    rcases Nat.eq_zero_or_pos changed with rfl | positive
    · refine .done (.inl ⟨?_, ?_⟩)
      · intro image same
        cases same
      · refine SeenTo.clear _ (SeenTo.of_none (Added.refl _) ?_) clear rfl
        intro id' userId' gained
        obtain ⟨_, _, changed, same, positive⟩ := gains_retry gained
        cases same
        exact absurd positive (Nat.lt_irrefl 0)
    · have affected : decide (changed > 0) = true := decide_eq_true positive
      simp only [Except.map, affected]
      refine .call trivial fun read => ?_
      match read with
      | .error error =>
        refine .done (.inl ⟨?_, clear_of_failed (not_fair rfl)⟩)
        intro image same
        cases same
      | .ok (none : Option Row) =>
        refine .done (.inl ⟨?_, ?_⟩)
        · intro image same
          cases same
        · refine SeenTo.clear _ ⟨[⟨.sql (.selectByIdAndUserId id userId), .ok none⟩], rfl, ?_, ?_⟩ clear rfl
          · intro taken member
            rw [List.mem_singleton.mp member]
            trivial
          · intro _ id' userId' gained
            obtain ⟨rfl, rfl, _⟩ := gains_retry gained
            exact ⟨_, List.mem_cons_self, by simp [settles, tells]⟩
      | .ok (some row) => exact .done (.inr ⟨⟨_, rfl⟩, .ok changed, .cons _ _ (by trivial)⟩)

theorem discharges_retryById (userId id : Int) :
    (ImageService.retryById userId id).Follows Asks (fun later _ => Clear later) [] := by
  have start : Clear ([] : Past) := fun _ => ⟨rfl, fun _ _ => rfl⟩
  unfold ImageService.retryById
  split
  · exact .done start
  apply (follows_of_evicting (evicting_findByIdAndUserId id userId) _).bind
  intro found answer _ added
  have clear := start.added added
  match answer with
  | .error error => exact .done clear
  | .ok none => exact .done clear
  | .ok (some current) =>
    dsimp only
    split
    · exact .done clear
    apply (sees_retryByIdAndUserId id userId clear).bind
    intro retried result _ known
    rcases known with ⟨other, clear⟩ | ⟨⟨updated, rfl⟩, answer, added⟩
    · match result with
      | .error error => exact .done clear
      | .ok none => exact .done clear
      | .ok (some updated) => exact (other updated rfl).elim
    · refine .call trivial fun published => ?_
      cases published with
      | error what => exact .done (clear_of_failed (not_fair rfl))
      | ok _ =>
        refine .call trivial fun _ => .call trivial fun _ => ?_
        apply (sees_enqueueTask id _).bind
        intro later _ _ seen
        refine .done (SeenTo.clear ⟨.sql (.retryByIdAndUserId id userId), answer⟩
          ((seen.after ?_).mono ?_) clear rfl)
        · exact ((added.trans (.cons _ _ (by trivial))).trans (.cons _ _ (by trivial))).trans
            (.cons _ _ (by trivial))
        · intro id' userId' gained
          exact (gains_retry gained).1

theorem discharges_deferForModelHealth (task : ImageGeneration) (workerId : String)
    (decision : model_health.GateDecision) (clear : Clear past) :
    (TaskEngine.deferForModelHealth task workerId decision).Follows Asks
      (fun later _ => Clear later) past := by
  apply (updates_follows _ rfl (by trivial)).bind
  rintro deferred result _ ⟨answer, rfl, rfl⟩
  have mine : ∀ id userId, gains id userId (⟨.sql (.deferClaimedTask task.id task.user_id workerId
      decision.failure_code decision.message), answer⟩ : Taken interface) = true →
      id = task.id ∧ ∃ changed : Nat, answer = .ok changed ∧ 0 < changed := by
    intro id userId gained
    match answer with
    | .error error => cases gained
    | .ok (changed : Nat) =>
      have both : decide (task.id = id ∧ 0 < changed) = true := gained
      obtain ⟨same, positive⟩ := of_decide_eq_true both
      exact ⟨same.symm, changed, rfl, positive⟩
  apply (follows_of_evicting (evicting_releaseRedisLease _ _) _).bind
  intro released _ _ added
  have unchanged : (∀ changed : Nat, answer = .ok changed → changed = 0) → Clear released := by
    intro none
    refine SeenTo.clear _ (SeenTo.of_none added ?_) clear rfl
    intro id userId gained
    obtain ⟨_, changed, same, positive⟩ := mine id userId gained
    exact absurd positive (by rw [none changed same]; exact Nat.lt_irrefl 0)
  match answer, unchanged, mine, added with
  | .error error, unchanged, _, _ =>
    refine .done (unchanged ?_)
    intro changed same
    cases same
  | .ok (changed : Nat), unchanged, mine, added =>
    rcases Nat.eq_zero_or_pos changed with rfl | positive
    · refine .done (unchanged ?_)
      rintro changed same
      exact (Except.ok.inj same).symm
    · have affected : decide (changed > 0) = true := decide_eq_true positive
      simp only [Except.map, affected]
      apply (follows_of_evicting (evicting_invalidateAllForTask _ _) _).bind
      intro evicted _ _ added'
      have published : ∀ image, (TaskEngine.publish image).Follows Asks (fun later result =>
          Added evicted later ∧ ∀ thrown, result = .error thrown → ¬ Fair later) evicted := by
        intro image
        refine .call trivial fun answer => ?_
        cases answer with
        | error what => exact .done ⟨.cons _ _ (by trivial), fun _ _ => not_fair rfl⟩
        | ok _ =>
          refine .done ⟨.cons _ _ (by trivial), ?_⟩
          intro thrown same
          cases same
      apply (published _).bind
      rintro told outcome _ ⟨added'', failed⟩
      cases outcome with
      | error thrown => exact .done (clear_of_failed (failed thrown rfl))
      | ok _ =>
        apply (sees_enqueueTask task.id _).bind
        intro later _ _ seen
        refine .done (SeenTo.clear _ ((seen.after ((added.trans added').trans added'')).mono ?_) clear rfl)
        intro id userId gained
        exact (mine id userId gained).1

theorem discharges_recoverOrphanedTasks (clear : Clear past) :
    TaskEngine.recoverOrphanedTasks.Follows Asks (fun later _ => Clear later ∧
      (Fair later → (later.any fun taken => taken.op.isScan) = true)) past := by
  refine .call trivial fun available => ?_
  cases available with
  | false =>
    have failed : ¬ Fair ((⟨.redisAvailable, false⟩ : Taken interface) :: past) := not_fair rfl
    exact .done ⟨clear_of_failed failed, fun fair => (failed fair).elim⟩
  | true =>
    refine .call trivial fun answer => ?_
    cases answer with
    | error error =>
      refine .done ⟨clear_of_failed (not_fair rfl), fun _ => ?_⟩
      rfl
    | ok ids =>
      refine .call trivial fun rebuilt => .done ⟨?_, fun _ => ?_⟩
      · refine SeenTo.clear ⟨.sql .selectQueuedIds, .ok ids⟩ ?_
          (clear.added (.cons .redisAvailable true (by trivial))) rfl
        refine ⟨[⟨.rebuildTaskQueue ids, rebuilt⟩], rfl, ?_, ?_⟩
        · intro taken member
          rw [List.mem_singleton.mp member]
          trivial
        · intro _ id userId gained
          exact ⟨_, List.mem_cons_self, gained⟩
      · rfl

theorem Free.cons (free : Free past) (op : Op) (answer : op.Answer)
    (none : ∀ id userId, gains id userId (⟨op, answer⟩ : Taken interface) = false)
    (same : Text2Image.inserting ((⟨op, answer⟩ : Taken interface) :: past) =
      Text2Image.inserting past) :
    Free ((⟨op, answer⟩ : Taken interface) :: past) := by
  refine ⟨same.trans free.inserting, fun id userId => ?_⟩
  simp [Text2Image.inHand, none, free.inHand]

theorem discharges_expireLeases :
    ImageRepo.expireLeasesReturningExpired.Follows Asks (fun later _ => Clear later) [] := by
  have start : Free ([] : Past) := ⟨rfl, fun _ _ => rfl⟩
  have free : ∀ {past later : Past}, Free past → Added past later → Clear later :=
    fun free added _ => free.added added
  refine .call trivial fun now => .call trivial fun requeued => ?_
  have first := (.cons .now now (by trivial) : Added [] [⟨.now, now⟩]).trans
    (.cons (.sql (.selectExpired (Chrono.toDbTime now) true)) requeued (by trivial))
  cases requeued with
  | error error => exact .done (free start first)
  | ok requeued =>
    refine .call trivial fun timedOut => ?_
    have second := first.trans
      (.cons (.sql (.selectExpired (Chrono.toDbTime now) false)) timedOut (by trivial))
    cases timedOut with
    | error error => exact .done (free start second)
    | ok timedOut =>
      refine .call trivial fun later => .call rfl fun changed => ?_
      have requeues := ((start.added second).added
        (.cons .now later (by trivial))).cons (.sql (.requeueExpired (Chrono.toDbTime later))) changed
        (fun _ _ => rfl) rfl
      cases changed with
      | error error => exact .done fun _ => requeues
      | ok changed =>
        refine .call trivial fun ended => ?_
        have all := free requeues
          (.cons (.sql (.timeoutExpired (Chrono.toDbTime later))) ended (by trivial))
        cases ended with
        | error error => exact .done all
        | ok _ => exact .done all

theorem discharges_leaseExpiryTurn :
    TaskEngine.leaseExpiryTurn.Follows Asks (fun later _ => Clear later ∧
      (Fair later → (later.any fun taken => taken.op.isScan) = true)) [] := by
  apply discharges_expireLeases.bind
  intro expired answer _ clear
  cases answer with
  | error error => exact discharges_recoverOrphanedTasks clear
  | ok leases =>
    apply (follows_of_evicting (evicting_announceExpired leases) _).bind
    intro announced _ _ added
    exact discharges_recoverOrphanedTasks (clear.added added)

theorem discharges_processClaimedTask (task : ImageGeneration) (workerId : String)
    (clear : Clear past) :
    (TaskEngine.processClaimedTask config task workerId).Follows Asks (fun later _ => Clear later)
      past := by
  apply (follows_of_evicting (evicting_invalidateAllForTask _ _) _).bind
  intro evicted _ _ added
  apply (follows_of_evicting (evicting_publish _) _).bind
  intro told outcome _ added'
  have clear' := (clear.added added).added added'
  cases outcome with
  | error thrown => exact .done clear'
  | ok _ =>
    have gate : (TaskEngine.applyModelHealthGate config task workerId).Follows Asks
        (fun later _ => Clear later) told := by
      apply (follows_of_evicting evicting_checkHealth _).bind
      intro checked health _ added
      have clear'' := clear'.added added
      cases health with
      | error thrown => exact .done clear''
      | ok health =>
        dsimp only
        split
        · exact .done clear''
        · apply (follows_of_evicting (evicting_failForModelHealth _ _ _) _).bind
          intro later _ _ added
          exact .done (clear''.added added)
        · apply (discharges_deferForModelHealth task workerId _ clear'').bind
          intro later _ _ clear
          exact .done clear
    apply gate.bind
    intro gated verdict _ clear''
    match verdict with
    | .error thrown => exact .done clear''
    | .ok false => exact .done clear''
    | .ok true =>
      refine (follows_of_evicting (evicting_generateUnderLease task workerId) _).mono fun _ _ _ added => ?_
      exact clear''.added added

theorem sees_claimTaskById (taskId : Int) (workerId : String) (leaseSeconds : Int) (past : Past) :
    (ImageRepo.claimTaskById taskId workerId leaseSeconds).Follows Asks
      (fun later _ => SeenTo (fun id _ => id = taskId) past later) past := by
  refine .call trivial fun (now : TimePoint) => ?_
  apply (updates_follows _ rfl (by trivial)).bind
  rintro claimed result _ ⟨answer, rfl, rfl⟩
  have claims : SeenTo (fun id _ => id = taskId) past
      ((⟨.sql (.claimTaskById taskId workerId (Chrono.toDbTime now)
        (Chrono.toDbTime (now + leaseDuration leaseSeconds))), answer⟩ : Taken interface) ::
          ⟨.now, now⟩ :: past) := by
    refine ⟨[⟨.sql (.claimTaskById taskId workerId (Chrono.toDbTime now)
      (Chrono.toDbTime (now + leaseDuration leaseSeconds))), answer⟩, ⟨.now, now⟩], rfl, ?_, ?_⟩
    · intro taken member
      rcases List.mem_cons.mp member with rfl | last
      · trivial
      · rw [List.mem_singleton.mp last]
        trivial
    · rintro _ id userId rfl
      exact ⟨_, List.mem_cons_self, by simp [settles]⟩
  split
  · exact .done claims
  · exact .done claims
  · refine .call trivial fun answer => ?_
    have added := claims.added (.cons (.sql (.readClaimedById taskId workerId)) answer (by trivial))
    cases answer <;> exact .done added

theorem discharges_claimQueued (workerId : String) (clear : Clear past) :
    (TaskEngine.claimQueued config workerId).Follows Asks (fun later _ => Clear later) past := by
  refine .call trivial fun popped => ?_
  match popped with
  | none =>
    refine .done (SeenTo.clear _ (SeenTo.of_none (Added.refl _) ?_) clear rfl)
    intro id userId gained
    cases gained
  | some (taskId : Int) =>
    have mine : ∀ id userId, gains id userId (⟨.dequeueTask, some taskId⟩ : Taken interface) = true →
        id = taskId := fun id userId gained => (of_decide_eq_true gained).symm
    refine .call trivial fun acquired => ?_
    cases acquired with
    | false =>
      refine .done (SeenTo.clear ⟨.dequeueTask, some taskId⟩
        ⟨[⟨.acquireLease taskId workerId, false⟩], rfl, ?_, ?_⟩ clear rfl)
      · intro taken member
        rw [List.mem_singleton.mp member]
        trivial
      · intro _ id userId gained
        obtain rfl := mine id userId gained
        exact ⟨_, List.mem_cons_self, by simp [settles]⟩
    | true =>
      apply (sees_claimTaskById taskId workerId config.lease_seconds _).bind
      intro claimed task _ seen
      have settled : ∀ later, Added claimed later → Clear later := by
        intro later added
        refine Clear.added (SeenTo.clear ⟨.dequeueTask, some taskId⟩ ?_ clear rfl) added
        exact (seen.after (.cons _ _ (by trivial))).mono mine
      match task with
      | .ok (some task) => exact .done (settled _ (.refl _))
      | .ok none => exact .call trivial fun _ => .done (settled _ (.cons _ _ (by trivial)))
      | .error error => exact .call trivial fun _ => .done (settled _ (.cons _ _ (by trivial)))

theorem discharges_workerTurn (workerId : String) :
    (TaskEngine.workerTurn config workerId).Follows Asks (fun later _ => Clear later) [] := by
  have start : Clear ([] : Past) := fun _ => ⟨rfl, fun _ _ => rfl⟩
  have claims : (TaskEngine.claim config workerId).Follows Asks (fun later _ => Clear later) [] := by
    refine .call trivial fun available => ?_
    have clear := start.added (.cons .redisAvailable available (by trivial))
    cases available with
    | true => exact discharges_claimQueued workerId clear
    | false =>
      refine (follows_of_evicting (evicting_claimOldest workerId) _).mono fun _ _ _ added => ?_
      exact clear.added added
  apply claims.bind
  intro claimed task _ clear
  cases task with
  | none => exact .done clear
  | some task => exact discharges_processClaimedTask task workerId clear

/-- What a call owes when it is done: nothing, where nothing has failed. -/
def Call.Discharged (call : Call) (past : Past) : Prop :=
  Clear past ∧ (Fair past → scanning call past = false)

theorem discharges_call (call : Call) :
    (call.program config).Follows Asks (fun later _ => call.Discharged later) [] := by
  have start : Clear ([] : Past) := fun _ => ⟨rfl, fun _ _ => rfl⟩
  have replied : ∀ {α : Type} {program : Program α} (reply : α → Reply), call.scans = false →
      program.Follows Asks (fun later _ => Clear later) [] →
      (program >>= fun value => return reply value : Program Reply).Follows Asks
        (fun later _ => call.Discharged later) [] := by
    intro α program reply silent follows
    apply follows.bind
    intro later value _ clear
    exact .done ⟨clear, fun _ => by simp [scanning, silent]⟩
  have idle : ∀ {α : Type} {program : Program α} (reply : α → Reply), call.scans = false →
      program.Only Idle → (program >>= fun value => return reply value : Program Reply).Follows Asks
        (fun later _ => call.Discharged later) [] := by
    intro α program reply silent only
    exact replied reply silent ((follows_of_idle only []).mono fun _ _ _ added => start.added added)
  have scanned : ∀ {program : Program Unit}, program.Follows Asks (fun later _ => Clear later ∧
      (Fair later → (later.any fun taken => taken.op.isScan) = true)) [] →
      (program >>= fun _ => return .turn (.ok ()) : Program Reply).Follows Asks
        (fun later _ => call.Discharged later) [] := by
    intro program follows
    apply follows.bind
    rintro later _ _ ⟨clear, scans⟩
    exact .done ⟨clear, fun fair => by simp [scanning, scans fair]⟩
  cases call with
  | create userId payload isAdmin => exact replied _ rfl (discharges_create userId payload isAdmin)
  | listMy userId page size => exact idle _ rfl (idle_listMy userId page size)
  | listMyByStatus userId status page size =>
    exact idle _ rfl (idle_listMyByStatus userId status page size)
  | getById userId id includeImagePayload => exact idle _ rfl (idle_getById userId id includeImagePayload)
  | getBinaryById userId id => exact idle _ rfl (idle_of_evicting (evicting_getBinaryById userId id))
  | cancelById userId id => exact idle _ rfl (idle_of_evicting (evicting_cancelById userId id))
  | retryById userId id => exact replied _ rfl (discharges_retryById userId id)
  | deleteById userId id => exact idle _ rfl (idle_of_evicting (evicting_deleteById userId id))
  | workerTurn index => exact replied _ rfl (discharges_workerTurn _)
  | leaseExpiryTurn => exact scanned discharges_leaseExpiryTurn
  | recoverOrphanedTasks => exact scanned (discharges_recoverOrphanedTasks start)

end Text2Image
