import Text2Image.Services.Execution
import Text2Image.Services.Footprint

/-! What a failed request leaves behind in the table. -/

set_option autoImplicit false

namespace Text2Image

open Concurrency Concurrency.Prog ImageService

variable {config : Config} {pid : Nat} {world middle after : World} {trace first rest : Trace}
variable {userId id : Int}

/-! ## Clean failures -/

/-- The requests that insert, cancel or re-queue a row. -/
inductive Mutation where
  | create (payload : Json) (isAdmin : Bool)
  | cancelById (id : Int)
  | retryById (id : Int)

def Mutation.program (config : Config) (userId : Int) :
    Mutation → Program (ServiceResult ImageGeneration)
  | .create payload isAdmin => ImageService.create config userId payload isAdmin
  | .cancelById id => ImageService.cancelById userId id
  | .retryById id => ImageService.retryById userId id

/-- The request leaves a task to be worked on. -/
def Mutation.queues : Mutation → Bool
  | .cancelById _ => false
  | _ => true

def Asked (trace : Trace) (op : Op) : Prop := ∃ choice met, (op, choice, met) ∈ trace

/-- The task's cache entry and the user's pages are replaced, the subscribers are told,
and the task is pushed where Redis is there. -/
structure Announced (trace : Trace) (userId id : Int) (queues : Bool) : Prop where
  evicted : Asked trace (.cacheDel (ImageCache.metaKey userId id)) ∨
    ∃ value ttl, Asked trace (.cacheSetex (ImageCache.metaKey userId id) value ttl)
  retired : Asked trace (.bumpVersion ImageCache.kListVersionNamespace (toString userId))
  published : ∃ image : ImageGeneration, image.id = id ∧ Asked trace (.publishTaskUpdated image)
  queued : queues = true → ∃ choice met, (.redisAvailable, choice, met) ∈ trace ∧
    (choice.succeeds = true → Asked trace (.enqueueTask id))

/-- An error leaves the table as it was, and no row changes silently. -/
structure LeavesNothing (userId : Int) (queues : Bool) (before after : ImageTable) (trace : Trace)
    (reply : ServiceResult ImageGeneration) : Prop where
  unchanged : ∀ error, reply = .error error → after = before
  announced : ∀ row ∈ after.rows, row ∉ before.rows → Announced trace userId row.id queues

/-- The call learns that the operation succeeded; of its INSERT, the id that was used. -/
def Reliable (config : Config) (pid : Nat) : Op × Choice × World → Prop
  | (.lastInsertId, choice, met) =>
    (perform config pid .lastInsertId choice met).1 = .ok (met.db.next - 1)
  | (.sql _, choice, _) | (.publishTaskUpdated _, choice, _) => choice.succeeds = true
  | _ => True

/-- From the first change of the table on, every operation is reliable. -/
def Reported (config : Config) (pid : Nat) : Trace → Prop
  | [] => True
  | moment :: later =>
    (Changes moment → ∀ next ∈ moment :: later, Reliable config pid next) ∧ Reported config pid later

theorem reported_append (quiet : ∀ moment ∈ first, ¬ Changes moment) :
    Reported config pid (first ++ rest) ↔ Reported config pid rest := by
  induction first with
  | nil => rfl
  | cons moment first ih =>
    have still : ¬ Changes moment := quiet moment List.mem_cons_self
    simp only [List.cons_append, Reported, still, false_implies, true_and]
    exact ih fun other member => quiet other (List.mem_cons_of_mem _ member)

theorem reported_of_quiet (quiet : ∀ moment ∈ trace, ¬ Changes moment) : Reported config pid trace := by
  have whole : Reported config pid (trace ++ []) := (reported_append quiet).mpr trivial
  rwa [List.append_nil] at whole

def Op.isLastInsertId : Op → Bool
  | .lastInsertId => true
  | _ => false

/-- But for the id of a new row, a success that is reported is all there is to know. -/
theorem reliable_of_succeeds {moment : Op × Choice × World} (succeeds : moment.2.1.succeeds = true)
    (other : moment.1.isLastInsertId = false) : Reliable config pid moment := by
  obtain ⟨op, choice, met⟩ := moment
  cases op with
  | lastInsertId => cases other
  | sql | publishTaskUpdated => exact succeeds
  | _ => trivial

theorem reported_of_reliable (reliable : ∀ moment ∈ trace, Reliable config pid moment) :
    Reported config pid trace := by
  induction trace with
  | nil => trivial
  | cons moment later ih =>
    exact ⟨fun _ => reliable, ih fun other member => reliable other (List.mem_cons_of_mem _ member)⟩

/-- A call changes nothing, or it changes the table once and then ends cleanly exactly
if everything from there on is reliable. -/
inductive Settled (config : Config) (pid : Nat) (userId : Int) (queues : Bool) (world after : World)
    (trace : Trace) (reply : ServiceResult ImageGeneration) : Prop where
  | untouched (idle : Untouched trace world after)
  | changed {first rest : Trace} {moment : Op × Choice × World} (split : trace = first ++ moment :: rest)
      (before : ∀ other ∈ first, ¬ Changes other) (changes : Changes moment)
      (afterwards : ∀ other ∈ rest, ¬ Changes other)
      (clean : LeavesNothing userId queues world.db after.db trace reply ↔
        ∀ next ∈ moment :: rest, Reliable config pid next)

theorem Settled.leavesNothing_iff {queues : Bool} {reply : ServiceResult ImageGeneration}
    (settled : Settled config pid userId queues world after trace reply) :
    LeavesNothing userId queues world.db after.db trace reply ↔ Reported config pid trace := by
  cases settled with
  | untouched idle =>
    have nothing : LeavesNothing userId queues world.db after.db trace reply :=
      { unchanged := fun _ _ => idle.same
        announced := fun row present new => absurd (idle.same ▸ present) new }
    exact ⟨fun _ => reported_of_quiet idle.quiet, fun _ => nothing⟩
  | changed split before changes afterwards clean =>
    rw [clean, split, reported_append before]
    exact ⟨fun all => ⟨fun _ => all, reported_of_quiet afterwards⟩, fun reported => reported.1 changes⟩

/-! ## Operations that fail silently -/

/-- Nothing the caller sees depends on the operation. -/
def Silent : Op → Prop
  | .sql _ | .lastInsertId | .publishTaskUpdated _ => False
  | _ => True

theorem Silent.reads {op : Op} (silent : Silent op) : Reads op := by
  cases op <;> trivial

theorem Silent.reliable {op : Op} (silent : Silent op) (choice : Choice) (met : World) :
    Reliable config pid (op, choice, met) := by
  cases op <;> trivial

theorem reliable_of_silent {α : Type} {program : Program α} {value : α}
    (ran : Executes (alone config pid) program world trace value after) (only : program.Only Silent) :
    ∀ moment ∈ trace, Reliable config pid moment := by
  rintro ⟨op, choice, met⟩ member
  exact Silent.reliable (ran.only only _ member) choice met

theorem untouched_of_silent {α : Type} {program : Program α} {value : α}
    (ran : Executes (alone config pid) program world trace value after) (only : program.Only Silent) :
    Untouched trace world after :=
  untouched_of_reads ran (only.mono fun _ => Silent.reads)

theorem silent_perform (op : Op) (silent : Silent op) : (Prog.perform (I := interface) op).Only Silent :=
  ⟨silent, fun _ => trivial⟩

theorem silent_enqueueTask (taskId : Int) : (enqueueTask taskId).Only Silent := by
  refine (silent_perform .redisAvailable trivial).bind fun available => ?_
  split
  · exact ⟨trivial, fun _ => trivial⟩
  · trivial

theorem silent_dropFromQueue (taskId : Int) : (dropFromQueue taskId).Only Silent := by
  refine (silent_perform .redisAvailable trivial).bind fun available => ?_
  split
  · exact ⟨trivial, fun _ => ⟨trivial, fun _ => trivial⟩⟩
  · trivial

/-! ## After the change -/

theorem executes_publish {α : Type} {image : ImageGeneration} {next : Except String Unit → Program α}
    {value : α}
    (ran : Executes (alone config pid) (publishTaskUpdated image >>= next) world trace value after) :
    ∃ choice met later, trace = (.publishTaskUpdated image, choice, met) :: later ∧
      met.db = world.db ∧ Executes (alone config pid) (next (choice.orThrow ())) met later value after := by
  obtain ⟨first, second, middle, answer, rfl, published, later⟩ := ran.of_bind
  obtain ⟨choice, met, ⟨same, _⟩, rfl, rfl, left⟩ := Executes.of_perform published
  have stays : middle = met := left
  exact ⟨choice, met, second, rfl, same, stays ▸ later⟩

theorem asked_of_perform {op : Op} {answer : interface.Answer op}
    (ran : Executes (alone config pid) (Prog.perform op) world trace answer after) : Asked trace op := by
  obtain ⟨choice, met, _, rfl, _, _⟩ := Executes.of_perform ran
  exact ⟨choice, met, List.mem_singleton_self _⟩

theorem Asked.mono {trace' : Trace} {op : Op} (asked : Asked trace op) (grows : trace ⊆ trace') :
    Asked trace' op := by
  obtain ⟨choice, met, member⟩ := asked
  exact ⟨choice, met, grows member⟩

theorem queued_of_enqueueTask
    (ran : Executes (alone config pid) (enqueueTask id) world trace () after) :
    ∃ choice met, (.redisAvailable, choice, met) ∈ trace ∧
      (choice.succeeds = true → Asked trace (.enqueueTask id)) := by
  obtain ⟨first, second, middle, available, rfl, asks, later⟩ := ran.of_bind
  obtain ⟨choice, met, _, rfl, rfl, _⟩ := Executes.of_perform asks
  refine ⟨choice, met, by simp, fun succeeds => ?_⟩
  have up : (perform config pid .redisAvailable choice met).1 = true := succeeds
  simp only [alone, up, if_true] at later
  obtain ⟨pushes, _, _, _, rfl, pushed, _⟩ := later.of_bind
  exact (asked_of_perform pushed).mono (by simp)

/-- The operation replaces or drops the task's cache entry. -/
def Evicts (userId id : Int) (op : Op) : Prop :=
  op = .cacheDel (ImageCache.metaKey userId id) ∨
    ∃ value ttl, op = .cacheSetex (ImageCache.metaKey userId id) value ttl

/-- What a request does once its change is committed: the event, then the entry, the
pages and the queue. -/
structure Announces (userId : Int) (queues : Bool) (image : ImageGeneration)
    (next : Except String Unit → Program (ServiceResult ImageGeneration)) where
  evict : Op
  push : Program Unit
  evicts : Evicts userId image.id evict
  silent : push.Only Silent
  pushes : queues = true → push = enqueueTask image.id
  refuses : ∀ what, ∃ error, next (.error what) = .done (.error error)
  goesOn : next (.ok ()) = do
    let _ ← Prog.perform (I := interface) evict
    let _ ← invalidateListCacheFor userId
    push
    return .ok image

variable {queues : Bool} {image : ImageGeneration}
variable {next : Except String Unit → Program (ServiceResult ImageGeneration)}

theorem Announces.announced (announces : Announces userId queues image next)
    {reply : ServiceResult ImageGeneration} {choice : Choice} {met : World} {later whole : Trace}
    (ran : Executes (alone config pid) (next (.ok ())) world later reply after)
    (inside : (.publishTaskUpdated image, choice, met) :: later ⊆ whole) :
    reply = .ok image ∧ Announced whole userId image.id queues := by
  rw [announces.goesOn] at ran
  obtain ⟨evicting, others, _, _, rfl, evicted, ran⟩ := ran.of_bind
  obtain ⟨retiring, others, _, _, rfl, retired, ran⟩ := ran.of_bind
  obtain ⟨pushing, others, _, _, rfl, pushed, ran⟩ := ran.of_bind
  obtain ⟨rfl, rfl, rfl⟩ := ran.of_done
  refine ⟨rfl, ?_, ?_, ⟨image, rfl, choice, met, inside List.mem_cons_self⟩, ?_⟩
  · have asked : Asked whole announces.evict :=
      (asked_of_perform evicted).mono fun moment member => inside (by simp [member])
    rcases announces.evicts with same | ⟨value, ttl, same⟩
    · exact .inl (same ▸ asked)
    · exact .inr ⟨value, ttl, same ▸ asked⟩
  · exact (asked_of_perform retired).mono fun moment member => inside (by simp [member])
  · intro wanted
    rw [announces.pushes wanted] at pushed
    obtain ⟨choice, met, available, pushes⟩ := queued_of_enqueueTask pushed
    have within : pushing ⊆ whole := fun moment member => inside (by simp [member])
    exact ⟨choice, met, within available, fun succeeds => (pushes succeeds).mono within⟩

theorem Announces.silent_next (announces : Announces userId queues image next) (told : Except String Unit) :
    (next told).Only Silent := by
  cases told with
  | error what =>
    obtain ⟨error, refused⟩ := announces.refuses what
    rw [refused]
    trivial
  | ok _ =>
    rw [announces.goesOn]
    refine (silent_perform _ ?_).bind fun _ => (silent_perform _ ?_).bind fun _ =>
      announces.silent.bind fun _ => ?_
    · rcases announces.evicts with same | ⟨value, ttl, same⟩ <;> rw [same] <;> trivial
    · trivial
    · trivial

/-- The event is published and the rest done, or the reply is an error. -/
theorem Announces.executes (announces : Announces userId queues image next)
    {reply : ServiceResult ImageGeneration}
    (ran : Executes (alone config pid) (publishTaskUpdated image >>= next) world trace reply after) :
    Untouched trace world after ∧
      (((∃ error, reply = .error error) ∧ ∃ moment ∈ trace, ¬ Reliable config pid moment) ∨
        (reply = .ok image ∧ (∀ moment ∈ trace, Reliable config pid moment) ∧
          ∀ whole, trace ⊆ whole → Announced whole userId image.id queues)) := by
  have reads : (publishTaskUpdated image >>= next).Only Reads :=
    Only.bind ⟨trivial, fun _ => trivial⟩ fun told =>
      (announces.silent_next told).mono fun _ => Silent.reads
  refine ⟨untouched_of_reads ran reads, ?_⟩
  obtain ⟨choice, met, later, rfl, _, ran⟩ := executes_publish ran
  have quiet := reliable_of_silent ran (announces.silent_next _)
  cases succeeds : choice.succeeds with
  | false =>
    obtain ⟨error, refused⟩ := announces.refuses choice.what
    simp only [Choice.orThrow, succeeds, Bool.false_eq_true, if_false, refused] at ran
    obtain ⟨rfl, rfl, rfl⟩ := ran.of_done
    exact .inl ⟨⟨error, rfl⟩, _, List.mem_cons_self, by simp [Reliable, succeeds]⟩
  | true =>
    simp only [Choice.orThrow, succeeds, if_true] at ran
    obtain ⟨told, _⟩ := announces.announced ran (List.Subset.refl ((_, choice, met) :: later))
    refine .inr ⟨told, List.forall_mem_cons.mpr ⟨succeeds, quiet⟩, fun whole inside => ?_⟩
    exact (announces.announced ran inside).2

/-! ## UPDATE and read-back -/

/-- What `cancelByIdAndUserId` and `retryByIdAndUserId` share. -/
def updateAndRead (s : Stmt) (counts : s.Answer = Nat) (function : String) (id userId : Int) :
    Program (RepoResult (Option ImageGeneration)) := do
  match ← ImageRepo.updates s counts with
  | .error error => return .error error
  | .ok false => return .ok none
  | .ok true => ImageRepo.readBack function id userId

/-- The statement updates this task of this user, and tells whether it did. -/
structure UpdatesTask (s : Stmt) (counts : s.Answer = Nat) (id userId : Int) : Prop where
  answers : ∀ t pick, (counts ▸ s.answer t pick : Nat) = s.affected t
  update : ∀ t, ∃ update, s.rowUpdate t = some update ∧ ∀ row, update.guard row = true →
    row.id = id ∧ row.user_id = userId ∧ (update.change row).user_id = userId

variable {s : Stmt} {counts : s.Answer = Nat}

/-- Where the table has changed, the user's task is still there. -/
theorem UpdatesTask.present {t : ImageTable} (task : UpdatesTask s counts id userId)
    (differs : s.table t ≠ t) : ∃ row ∈ (s.table t).rows, row.id = id ∧ row.user_id = userId := by
  obtain ⟨update, found, guarded⟩ := task.update t
  rw [Stmt.table_of_rowUpdate found] at differs ⊢
  rw [Ne, Keyed.Table.update_eq_self_iff] at differs
  push Not at differs
  obtain ⟨row, member, met, _⟩ := differs
  obtain ⟨named, _, owned⟩ := guarded row met
  exact ⟨update.change row, Keyed.Table.mem_update.mpr ⟨row, member, if_pos met⟩,
    (update.keeps row).trans named, owned⟩

theorem UpdatesTask.id_of_new {t : ImageTable} (task : UpdatesTask s counts id userId) {row : Row}
    (present : row ∈ (s.table t).rows) (new : row ∉ t.rows) : row.id = id := by
  obtain ⟨update, found, guarded⟩ := task.update t
  rw [Stmt.table_of_rowUpdate found] at present
  obtain ⟨old, member, rfl⟩ := Keyed.Table.mem_update.mp present
  split at new
  · rename_i met
    rw [if_pos met, update.keeps]
    exact (guarded old met).1
  · exact absurd member new

/-- The UPDATE finds nothing to do or is refused, or the table changes and the caller is
told so or not. -/
theorem executes_updates (task : UpdatesTask s counts id userId) {result : RepoResult Bool}
    (ran : Executes (alone config pid) (ImageRepo.updates s counts) world trace result after) :
    (Untouched trace world after ∧ result ≠ .ok true) ∨
      ∃ moment, trace = [moment] ∧ Changes moment ∧ after.db = s.table world.db ∧
        s.table world.db ≠ world.db ∧ ((result = .ok true ∧ Reliable config pid moment) ∨
          ((∃ error, result = .error error) ∧ ¬ Reliable config pid moment)) := by
  obtain ⟨first, second, middle, answer, rfl, asked, later⟩ := ran.of_bind
  obtain ⟨choice, met, same, rfl, settled⟩ := executes_sql asked
  obtain ⟨update, found, _⟩ := task.update world.db
  have changes : s.table world.db ≠ world.db → choice.applies = true →
      Changes (.sql s, choice, met) :=
    fun differs applies => ⟨s, executed_eq_some.mpr ⟨rfl, applies⟩, by rwa [same]⟩
  have quiet : middle.db = world.db → s.table world.db = world.db ∨ choice.applies = false →
      Untouched [(.sql s, choice, met)] world middle := by
    refine fun stays still => ⟨stays, ?_⟩
    rintro moment member ⟨sent, executes, differs⟩
    rw [List.mem_singleton.mp member] at executes differs
    obtain ⟨named, applies⟩ := executed_eq_some.mp executes
    cases named
    rcases still with unchanged | refused
    · exact differs (by rw [same]; exact unchanged)
    · rw [refused] at applies
      cases applies
  rcases settled with ⟨done, rfl, became⟩ | ⟨failed, rfl, became⟩ | ⟨lost, rfl, became⟩
  · obtain ⟨rfl, rfl, rfl⟩ := later.of_done
    rw [task.answers]
    by_cases differs : s.table world.db = world.db
    · have none := (Stmt.affected_eq_zero found).mpr differs
      left
      rw [List.append_nil, none]
      exact ⟨quiet (became.trans differs) (.inl differs), by simp⟩
    · have some' : 0 < s.affected world.db :=
        Nat.pos_of_ne_zero fun zero => differs ((Stmt.affected_eq_zero found).mp zero)
      refine .inr ⟨_, rfl, changes differs (by simp [Choice.applies, done]), became, differs, .inl ⟨?_, ?_⟩⟩
      · rw [decide_eq_true some']
      · simp [Reliable, Choice.succeeds, done]
  · obtain ⟨rfl, rfl, rfl⟩ := later.of_done
    left
    exact ⟨quiet became (.inr (by simp [Choice.applies, failed])), by simp⟩
  · obtain ⟨rfl, rfl, rfl⟩ := later.of_done
    by_cases differs : s.table world.db = world.db
    · left
      exact ⟨quiet (became.trans differs) (.inl differs), by simp⟩
    · refine .inr ⟨_, rfl, changes differs (by simp [Choice.applies, lost]), became, differs, .inr ⟨?_, ?_⟩⟩
      · exact ⟨_, rfl⟩
      · simp [Reliable, Choice.succeeds, lost]

theorem executes_readBack {function : String} {result : RepoResult (Option ImageGeneration)}
    (present : ∃ row ∈ world.db.rows, row.id = id ∧ row.user_id = userId)
    (ran : Executes (alone config pid) (ImageRepo.readBack function id userId) world trace result after) :
    Untouched trace world after ∧
      (((∃ image : ImageGeneration, image.id = id ∧ result = .ok (some image)) ∧
          ∀ moment ∈ trace, Reliable config pid moment) ∨
        ((∃ error, result = .error error) ∧ ∃ moment ∈ trace, ¬ Reliable config pid moment)) := by
  have reads : (ImageRepo.readBack function id userId).Only Reads := by
    refine Only.bind ⟨rfl, fun _ => trivial⟩ fun answer => ?_
    split <;> trivial
  refine ⟨untouched_of_reads ran reads, ?_⟩
  obtain ⟨first, second, middle, answer, rfl, asked, later⟩ := ran.of_bind
  obtain ⟨choice, met, same, rfl, _, settled⟩ := executes_read asked rfl
  rcases settled with ⟨succeeds, rfl⟩ | ⟨fails, error, rfl⟩
  · obtain ⟨row, member, named, owned⟩ := present
    have chosen : row ∈ world.db.select fun row => row.id = id ∧ row.user_id = userId :=
      Keyed.Table.mem_select.mpr ⟨member, by simp [named, owned]⟩
    obtain ⟨found, chosen, fetched⟩ := fetchOne_of_ne_nil (List.ne_nil_of_mem chosen) choice.pick
    have same : (Stmt.selectByIdAndUserId id userId).answer world.db choice.pick = some found := fetched
    rw [same] at later
    obtain ⟨rfl, rfl, rfl⟩ := later.of_done
    have foundId : found.id = id :=
      (of_decide_eq_true (Keyed.Table.mem_select.mp chosen).2).1
    refine .inl ⟨⟨ImageRepo.rowToImageGeneration found, foundId, rfl⟩, ?_⟩
    simp [Reliable, succeeds]
  · obtain ⟨rfl, rfl, rfl⟩ := later.of_done
    exact .inr ⟨⟨_, rfl⟩, _, List.mem_cons_self, by simp [Reliable, fails]⟩

/-- The task's UPDATE and its read-back, as one step. -/
theorem executes_updateAndRead {function : String} (task : UpdatesTask s counts id userId)
    {result : RepoResult (Option ImageGeneration)}
    (ran : Executes (alone config pid) (updateAndRead s counts function id userId) world trace result
      after) :
    (Untouched trace world after ∧ ∀ image, result ≠ .ok (some image)) ∨
      ∃ moment rest, trace = moment :: rest ∧ Changes moment ∧ (∀ other ∈ rest, ¬ Changes other) ∧
        after.db = s.table world.db ∧ s.table world.db ≠ world.db ∧
        (((∃ image : ImageGeneration, image.id = id ∧ result = .ok (some image)) ∧
            ∀ moment ∈ trace, Reliable config pid moment) ∨
          ((∃ error, result = .error error) ∧ ∃ moment ∈ trace, ¬ Reliable config pid moment)) := by
  obtain ⟨first, second, middle, changed, rfl, updated, later⟩ := ran.of_bind
  rcases executes_updates task updated with ⟨idle, nothing⟩ | ⟨moment, rfl, changes, became, differs, told⟩
  · left
    match changed with
    | .error error =>
      obtain ⟨rfl, rfl, rfl⟩ := later.of_done
      exact ⟨by rwa [List.append_nil], by simp⟩
    | .ok false =>
      obtain ⟨rfl, rfl, rfl⟩ := later.of_done
      exact ⟨by rwa [List.append_nil], by simp⟩
    | .ok true => exact absurd rfl nothing
  · right
    rcases told with ⟨rfl, reliable⟩ | ⟨⟨error, rfl⟩, unreliable⟩
    · have present := task.present differs
      rw [← became] at present
      obtain ⟨idle, answered⟩ := executes_readBack present later
      refine ⟨moment, second, rfl, changes, idle.quiet, idle.same.trans became, differs, ?_⟩
      rcases answered with ⟨found, all⟩ | ⟨failed, other, member, unreliable⟩
      · exact .inl ⟨found, List.forall_mem_cons.mpr ⟨reliable, all⟩⟩
      · exact .inr ⟨failed, other, List.mem_cons_of_mem _ member, unreliable⟩
    · obtain ⟨rfl, rfl, rfl⟩ := later.of_done
      exact ⟨moment, [], rfl, changes, by simp, became, differs, .inr ⟨⟨error, rfl⟩, moment,
        List.mem_cons_self, unreliable⟩⟩

/-- What follows the UPDATE: the image is announced and returned, or the reply is an error. -/
def Ends (config : Config) (pid : Nat) (userId id : Int) (queues : Bool)
    (next : RepoResult (Option ImageGeneration) → Program (ServiceResult ImageGeneration)) : Prop :=
  (∀ result, (∀ image, result ≠ .ok (some image)) → ∃ error, next result = .done (.error error)) ∧
    ∀ image : ImageGeneration, image.id = id → ∀ {world after trace reply},
      Executes (alone config pid) (next (.ok (some image))) world trace reply after →
      Untouched trace world after ∧
        (((∃ error, reply = .error error) ∧ ∃ moment ∈ trace, ¬ Reliable config pid moment) ∨
          ((∃ image, reply = .ok image) ∧ (∀ moment ∈ trace, Reliable config pid moment) ∧
            ∀ whole, trace ⊆ whole → Announced whole userId id queues))

/-- A change of the user's task, from the UPDATE to the reply. -/
theorem settled_of_update {function : String} {queues : Bool}
    {next : RepoResult (Option ImageGeneration) → Program (ServiceResult ImageGeneration)}
    {reply : ServiceResult ImageGeneration} (task : UpdatesTask s counts id userId)
    (ends : Ends config pid userId id queues next) (before : Untouched first world middle)
    (ran : Executes (alone config pid) (updateAndRead s counts function id userId >>= next) middle rest
      reply after) :
    Settled config pid userId queues world after (first ++ rest) reply := by
  obtain ⟨refuses, announces⟩ := ends
  obtain ⟨updating, later, between, result, rfl, updated, ran⟩ := ran.of_bind
  rcases executes_updateAndRead task updated with ⟨idle, nothing⟩ |
    ⟨moment, reading, rfl, changes, quiet, became, differs, told⟩
  · obtain ⟨error, refused⟩ := refuses result nothing
    rw [refused] at ran
    obtain ⟨rfl, rfl, rfl⟩ := ran.of_done
    rw [List.append_nil]
    exact .untouched (before.append idle)
  rw [before.same] at became differs
  rcases told with ⟨⟨image, named, rfl⟩, reliable⟩ | ⟨⟨error, rfl⟩, unreliable⟩
  · obtain ⟨idle, replied⟩ := announces image named ran
    have now : after.db = s.table world.db := idle.same.trans became
    refine .changed (by rw [List.cons_append]) before.quiet changes (fun other member => ?_) ?_
    · rcases List.mem_append.mp member with reads | announces
      · exact quiet other reads
      · exact idle.quiet other announces
    rcases replied with ⟨⟨error, rfl⟩, other, member, unreliable⟩ | ⟨⟨image, rfl⟩, all, announced⟩
    · constructor
      · intro leaves
        exact absurd (now.symm.trans (leaves.unchanged error rfl)) differs
      · intro all
        exact absurd (all other (by simp [member])) unreliable
    · constructor
      · intro _ other member
        rw [← List.cons_append] at member
        rcases List.mem_append.mp member with updates | announces
        · exact reliable other updates
        · exact all other announces
      · intro _
        refine ⟨nofun, fun row present new => ?_⟩
        rw [now] at present
        rw [task.id_of_new present new]
        exact announced _ fun other member => by simp [member]
  · obtain ⟨refusal, refused⟩ := refuses (.error error) (by simp)
    rw [refused] at ran
    obtain ⟨rfl, rfl, rfl⟩ := ran.of_done
    rw [List.append_nil]
    refine .changed rfl before.quiet changes quiet ⟨fun leaves => ?_, fun all => ?_⟩
    · exact absurd (became.symm.trans (leaves.unchanged refusal rfl)) differs
    · obtain ⟨other, member, unreliable⟩ := unreliable
      exact absurd (all other member) unreliable

/-! ## The three requests -/

theorem reads_findByIdAndUserId (id userId : Int) :
    (ImageRepo.findByIdAndUserId id userId).Only Reads := by
  refine Only.bind ⟨rfl, fun _ => trivial⟩ fun answer => ?_
  split <;> trivial

theorem settled_done {queues : Bool} {error : ServiceError} {reply : ServiceResult ImageGeneration}
    (before : Untouched first world middle)
    (ran : Executes (alone config pid) (.done (.error error)) middle rest reply after) :
    Settled config pid userId queues world after (first ++ rest) reply := by
  obtain ⟨rfl, rfl, rfl⟩ := ran.of_done
  rw [List.append_nil]
  exact .untouched before

theorem untouched_nil (world : World) : Untouched [] world world := ⟨rfl, by simp⟩

/-- The part of `cancelById` after the event. -/
def cancelAnnounced (userId id : Int) (updated : ImageGeneration) :
    Except String Unit → Program (ServiceResult ImageGeneration)
  | .error _ => return .error ⟨500, "task_cancel_failed", "failed to cancel task", []⟩
  | .ok _ => do
    let _ ← cacheDel (ImageCache.metaKey userId id)
    let _ ← invalidateListCacheFor userId
    return .ok updated

/-- The part of `cancelById` after the UPDATE. -/
def afterCancel (userId id : Int) :
    RepoResult (Option ImageGeneration) → Program (ServiceResult ImageGeneration)
  | .error error => return .error (mapRepoError error)
  | .ok none => return .error ⟨409, "task_cancel_conflict", "task cannot be canceled", []⟩
  | .ok (some updated) => do
    dropFromQueue id
    let told ← publishTaskUpdated updated
    cancelAnnounced userId id updated told

theorem ends_cancelById : Ends config pid userId id false (afterCancel userId id) := by
  constructor
  · intro result nothing
    match result with
    | .error error => exact ⟨_, rfl⟩
    | .ok none => exact ⟨_, rfl⟩
    | .ok (some image) => exact absurd rfl (nothing image)
  · rintro image rfl world after trace reply ran
    obtain ⟨dropping, rest, between, _, rfl, drops, ran⟩ := ran.of_bind
    have announces : Announces userId false image (cancelAnnounced userId image.id image) :=
      { evict := .cacheDel (ImageCache.metaKey userId image.id)
        push := .done ()
        evicts := .inl rfl
        silent := trivial
        pushes := nofun
        refuses := fun what => ⟨_, rfl⟩
        goesOn := rfl }
    obtain ⟨idle, replied⟩ := announces.executes ran
    have dropped := untouched_of_silent drops (silent_dropFromQueue _)
    have quiet := reliable_of_silent drops (silent_dropFromQueue _)
    refine ⟨dropped.append idle, ?_⟩
    rcases replied with ⟨failed, other, member, unreliable⟩ | ⟨told, all, announced⟩
    · exact .inl ⟨failed, other, List.mem_append_right _ member, unreliable⟩
    · refine .inr ⟨⟨image, told⟩, List.forall_mem_append.mpr ⟨quiet, all⟩, fun whole inside => ?_⟩
      exact announced whole fun other member => inside (List.mem_append_right _ member)

theorem settled_cancelById {reply : ServiceResult ImageGeneration}
    (ran : Executes (alone config pid) (cancelById userId id) world trace reply after) :
    Settled config pid userId false world after trace reply := by
  have task : ∀ now, UpdatesTask (.cancelByIdAndUserId now id userId) rfl id userId := by
    intro now
    refine ⟨fun _ _ => rfl, fun t => ⟨_, rfl, fun row met => ?_⟩⟩
    obtain ⟨named, owned, _⟩ := of_decide_eq_true met
    exact ⟨named, owned, owned⟩
  unfold cancelById at ran
  split at ran
  · exact settled_done (untouched_nil world) ran
  obtain ⟨finding, rest, between, found, rfl, finds, ran⟩ := ran.of_bind
  have looked := untouched_of_reads finds (reads_findByIdAndUserId id userId)
  match found with
  | .error error => exact settled_done looked ran
  | .ok none => exact settled_done looked ran
  | .ok (some current) =>
    dsimp only at ran
    split at ran
    · exact settled_done looked ran
    have ran : Executes (alone config pid) (readClock >>= fun now =>
        updateAndRead (.cancelByIdAndUserId (Chrono.toDbTime now) id userId) rfl "cancelByIdAndUserId" id
          userId >>= afterCancel userId id) between rest reply after := ran
    obtain ⟨timing, rest, later, now, rfl, times, ran⟩ := ran.of_bind
    have timed := untouched_of_silent times (silent_perform _ trivial)
    rw [← List.append_assoc]
    exact settled_of_update (task _) ends_cancelById (looked.append timed) ran

/-- The part of `retryById` after the event. -/
def retryAnnounced (userId id : Int) (updated : ImageGeneration) :
    Except String Unit → Program (ServiceResult ImageGeneration)
  | .error _ => return .error ⟨500, "task_retry_failed", "failed to retry task", []⟩
  | .ok _ => do
    let _ ← cacheDel (ImageCache.metaKey userId id)
    let _ ← invalidateListCacheFor userId
    enqueueTask id
    return .ok updated

/-- The part of `retryById` after the UPDATE. -/
def afterRetry (userId id : Int) :
    RepoResult (Option ImageGeneration) → Program (ServiceResult ImageGeneration)
  | .error error => return .error (mapRepoError error)
  | .ok none => return .error ⟨409, "task_retry_conflict", "task cannot be retried", []⟩
  | .ok (some updated) => do
    let told ← publishTaskUpdated updated
    retryAnnounced userId id updated told

theorem ends_retryById : Ends config pid userId id true (afterRetry userId id) := by
  constructor
  · intro result nothing
    match result with
    | .error error => exact ⟨_, rfl⟩
    | .ok none => exact ⟨_, rfl⟩
    | .ok (some image) => exact absurd rfl (nothing image)
  · rintro image rfl world after trace reply ran
    have announces : Announces userId true image (retryAnnounced userId image.id image) :=
      { evict := .cacheDel (ImageCache.metaKey userId image.id)
        push := enqueueTask image.id
        evicts := .inl rfl
        silent := silent_enqueueTask _
        pushes := fun _ => rfl
        refuses := fun what => ⟨_, rfl⟩
        goesOn := rfl }
    obtain ⟨idle, replied⟩ := announces.executes ran
    refine ⟨idle, ?_⟩
    rcases replied with failed | ⟨told, all, announced⟩
    · exact .inl failed
    · exact .inr ⟨⟨image, told⟩, all, announced⟩

theorem settled_retryById {reply : ServiceResult ImageGeneration}
    (ran : Executes (alone config pid) (retryById userId id) world trace reply after) :
    Settled config pid userId true world after trace reply := by
  have task : UpdatesTask (.retryByIdAndUserId id userId) rfl id userId := by
    refine ⟨fun _ _ => rfl, fun t => ⟨_, rfl, fun row met => ?_⟩⟩
    obtain ⟨named, owned, _⟩ := of_decide_eq_true met
    exact ⟨named, owned, owned⟩
  unfold retryById at ran
  split at ran
  · exact settled_done (untouched_nil world) ran
  obtain ⟨finding, rest, between, found, rfl, finds, ran⟩ := ran.of_bind
  have looked := untouched_of_reads finds (reads_findByIdAndUserId id userId)
  match found with
  | .error error => exact settled_done looked ran
  | .ok none => exact settled_done looked ran
  | .ok (some current) =>
    dsimp only at ran
    split at ran
    · exact settled_done looked ran
    have ran : Executes (alone config pid) (updateAndRead (.retryByIdAndUserId id userId) rfl
        "retryByIdAndUserId" id userId >>= afterRetry userId id) between rest reply after := ran
    exact settled_of_update task ends_retryById looked ran

/-! ## Creation -/

/-- The operation neither writes to the table nor tells the subscribers. -/
def Prepares : Op → Prop
  | .sql s => s.isRead = true
  | .publishTaskUpdated _ => False
  | _ => True

theorem Prepares.reads {op : Op} (prepares : Prepares op) : Reads op := by
  cases op <;> trivial

/-- The beginning of a call, which only looks around. -/
structure Prepared (trace : Trace) (world after : World) : Prop where
  idle : Untouched trace world after
  prepares : ∀ moment ∈ trace, Prepares moment.1

theorem prepared_of_only {α : Type} {program : Program α} {value : α}
    (ran : Executes (alone config pid) program world trace value after) (only : program.Only Prepares) :
    Prepared trace world after :=
  ⟨untouched_of_reads ran (only.mono fun _ => Prepares.reads), ran.only only⟩

theorem Prepared.append (left : Prepared first world middle) (right : Prepared rest middle after) :
    Prepared (first ++ rest) world after :=
  ⟨left.idle.append right.idle, List.forall_mem_append.mpr ⟨left.prepares, right.prepares⟩⟩

theorem prepares_readClock : readClock.Only Prepares := ⟨trivial, fun _ => trivial⟩

/-- An INSERT that has happened, and what the caller learns of the new row's id. -/
inductive Inserted (config : Config) (pid : Nat) (before : ImageTable) (done : Trace) :
    RepoResult Int → Prop where
  | named (reliable : ∀ moment ∈ done, Reliable config pid moment) :
      Inserted config pid before done (.ok before.next)
  | misnamed {id : Int} (other : id ≠ before.next)
      (unreliable : ∃ moment ∈ done, ¬ Reliable config pid moment) :
      Inserted config pid before done (.ok id)
  | failed {error : RepoError} (unreliable : ∃ moment ∈ done, ¬ Reliable config pid moment) :
      Inserted config pid before done (.error error)

theorem executes_lastInsertId {values : Row} {before : ImageTable} {result : RepoResult Int}
    {moment : Op × Choice × World} (became : world.db = (Stmt.insert values).table before)
    (reliable : Reliable config pid moment)
    (ran : Executes (alone config pid) (Prog.perform (I := interface) .lastInsertId) world trace result
      after) :
    Untouched trace world after ∧ Inserted config pid before (moment :: trace) result := by
  refine ⟨untouched_of_reads ran ⟨trivial, fun _ => trivial⟩, ?_⟩
  obtain ⟨choice, met, ⟨same, _⟩, rfl, answered, _⟩ := Executes.of_perform ran
  have told : result = (perform config pid .lastInsertId choice met).1 := answered
  have next : met.db.next - 1 = before.next := by
    rw [same, became]
    exact Int.add_sub_cancel _ _
  by_cases right : result = .ok before.next
  · rw [right] at told ⊢
    refine .named fun other member => ?_
    rcases List.mem_cons.mp member with rfl | asks
    · exact reliable
    · rw [List.mem_singleton.mp asks]
      exact told.symm.trans (by rw [next])
  · have unreliable : ∃ other ∈ moment :: [(Op.lastInsertId, choice, met)],
        ¬ Reliable config pid other := by
      refine ⟨_, List.mem_cons_of_mem _ List.mem_cons_self, fun tells => right ?_⟩
      exact told.trans (tells.trans (by rw [next]))
    cases result with
    | error error => exact .failed unreliable
    | ok id => exact .misnamed (fun same => right (by rw [same])) unreliable

/-- The INSERT has happened; before and after it the call only looks around. -/
inductive InsertsRow (config : Config) (pid : Nat) (generation : ImageGeneration) (world after : World) :
    Trace → RepoResult Int → Prop where
  | inserts {timing asking : Trace} {values : Row} {choice : Choice} {met : World} {result : RepoResult Int}
      {timed between : World} (early : Prepared timing world timed)
      (changes : Changes (.sql (.insert values), choice, met))
      (late : Prepared asking between after)
      (made : ∃ createdAt, values = ImageRepo.insertValues generation createdAt)
      (became : after.db = (Stmt.insert values).table world.db)
      (told : Inserted config pid world.db ((.sql (.insert values), choice, met) :: asking) result) :
      InsertsRow config pid generation world after (timing ++ (.sql (.insert values), choice, met) :: asking) result

/-- The INSERT is refused, or there is a new row. -/
theorem executes_insert {generation : ImageGeneration} {result : RepoResult Int}
    (ran : Executes (alone config pid) (ImageRepo.insert generation) world trace result after) :
    (Untouched trace world after ∧ ∃ error, result = .error error) ∨
      InsertsRow config pid generation world after trace result := by
  obtain ⟨timing, rest, timed, createdAt, rfl, times, ran⟩ := ran.of_bind
  generalize made : ImageRepo.insertValues generation createdAt = values at ran
  have early := prepared_of_only times (only_createdAtOf trivial generation)
  obtain ⟨inserting, asking, between, answer, rfl, inserts, ran⟩ := ran.of_bind
  obtain ⟨choice, met, same, rfl, settled⟩ := executes_sql inserts
  have changes : choice.applies = true → Changes (.sql (.insert values), choice, met) := by
    refine fun applies => ⟨_, executed_eq_some.mpr ⟨rfl, applies⟩, fun same => ?_⟩
    have next := congrArg Keyed.Table.next same
    simp only [Stmt.table, Keyed.Table.insert] at next
    omega
  rw [early.idle.same] at settled
  rcases settled with ⟨done, rfl, became⟩ | ⟨failed, rfl, became⟩ | ⟨lost, rfl, became⟩
  · have reliable : Reliable config pid (.sql (.insert values), choice, met) := by
      simp [Reliable, Choice.succeeds, done]
    obtain ⟨idle, told⟩ := executes_lastInsertId became reliable ran
    have late := prepared_of_only ran ⟨trivial, fun _ => trivial⟩
    have applies : choice.applies = true := by simp [Choice.applies, done]
    exact .inr (.inserts early (changes applies) late ⟨createdAt, made.symm⟩ (idle.same.trans became)
      told)
  · obtain ⟨rfl, rfl, rfl⟩ := ran.of_done
    left
    have refused : Untouched [(.sql (.insert values), choice, met)] timed after := by
      refine ⟨became.trans early.idle.same.symm, fun moment member changed => ?_⟩
      rw [List.mem_singleton.mp member] at changed
      obtain ⟨_, executes, _⟩ := changed
      simp [executed, Choice.applies, failed] at executes
    exact ⟨early.idle.append (by rwa [List.append_nil]), _, rfl⟩
  · obtain ⟨rfl, rfl, rfl⟩ := ran.of_done
    have applies : choice.applies = true := by simp [Choice.applies, lost]
    have unreliable : ¬ Reliable config pid (.sql (.insert values), choice, met) := by
      simp [Reliable, Choice.succeeds, lost]
    have nothing : Prepared [] after after := ⟨untouched_nil after, by simp⟩
    refine .inr (.inserts early (changes applies) nothing ⟨createdAt, made.symm⟩ became (.failed ?_))
    exact ⟨_, List.mem_cons_self, unreliable⟩

/-- The part of `create` after the event. -/
def createAnnounced (userId : Int) (generation : ImageGeneration) :
    Except String Unit → Program (ServiceResult ImageGeneration)
  | .error _ => return .error ⟨500, "image_task_enqueue_failed", "failed to enqueue image task", []⟩
  | .ok _ => do
    writeToCache (ImageCache.metaKey userId generation.id) generation
    let _ ← invalidateListCacheFor userId
    enqueueTask generation.id
    return .ok generation

/-- The part of `create` after the INSERT. -/
def afterInsert (userId : Int) (generation : ImageGeneration) :
    RepoResult Int → Program (ServiceResult ImageGeneration)
  | .error error => return .error (mapRepoError error)
  | .ok insertedId => do
    let told ← publishTaskUpdated { generation with id := insertedId }
    createAnnounced userId { generation with id := insertedId } told

def createAnnounces (userId : Int) (generation : ImageGeneration) :
    Announces userId true generation (createAnnounced userId generation) where
  evict := .cacheSetex (ImageCache.metaKey userId generation.id) (.json (sanitized generation).toJson)
    (if generation.status.isTerminal then ImageCache.kMetaTerminal else ImageCache.kMetaInflight)
  push := enqueueTask generation.id
  evicts := .inr ⟨_, _, rfl⟩
  silent := silent_enqueueTask _
  pushes := fun _ => rfl
  refuses := fun _ => ⟨_, rfl⟩
  goesOn := rfl

/-- Subscribers hear of no image but the one the INSERT was said to have made. -/
theorem published_afterInsert {generation : ImageGeneration} {insertedId : Int}
    {reply : ServiceResult ImageGeneration}
    (ran : Executes (alone config pid) (afterInsert userId generation (.ok insertedId)) world trace reply
      after) {image : ImageGeneration} (published : Asked trace (.publishTaskUpdated image)) :
    image.id = insertedId := by
  obtain ⟨choice, met, later, rfl, _, ran⟩ := executes_publish ran
  obtain ⟨chosen, found, member⟩ := published
  rcases List.mem_cons.mp member with same | elsewhere
  · cases same
    rfl
  · have silent : Silent (.publishTaskUpdated image) :=
      ran.only ((createAnnounces userId _).silent_next _) _ elsewhere
    exact silent.elim

/-- The request from the INSERT to the reply. -/
theorem settled_of_insert {generation : ImageGeneration} {reply : ServiceResult ImageGeneration}
    (before : Prepared first world middle)
    (ran : Executes (alone config pid) (ImageRepo.insert generation >>= afterInsert userId generation)
      middle rest reply after) : Settled config pid userId true world after (first ++ rest) reply := by
  obtain ⟨inserting, later, between, result, rfl, inserted, ran⟩ := ran.of_bind
  rcases executes_insert inserted with ⟨idle, error, rfl⟩ | row
  · obtain ⟨rfl, rfl, rfl⟩ := ran.of_done
    rw [List.append_nil]
    exact .untouched (before.idle.append idle)
  obtain @⟨timing, asking, values, choice, met, _, timed, asked, early, changes, late, _, became, told⟩ := row
  rw [before.idle.same] at became told
  have quiet : ∀ other ∈ first ++ timing, ¬ Changes other := (before.append early).idle.quiet
  have split : first ++ ((timing ++ (.sql (.insert values), choice, met) :: asking) ++ later) =
      (first ++ timing) ++ (.sql (.insert values), choice, met) :: (asking ++ later) := by simp
  have differs : between.db ≠ world.db := by
    intro same
    have next := congrArg Keyed.Table.next (became.symm.trans same)
    simp only [Stmt.table, Keyed.Table.insert] at next
    omega
  cases told with
  | failed unreliable =>
    obtain ⟨rfl, rfl, rfl⟩ := ran.of_done
    refine .changed split quiet changes (by simpa using late.idle.quiet) ?_
    constructor
    · intro leaves
      exact absurd (leaves.unchanged _ rfl) differs
    · intro all
      obtain ⟨other, member, unreliable⟩ := unreliable
      exact absurd (all other (by simpa using member)) unreliable
  | named reliable =>
    obtain ⟨idle, replied⟩ := (createAnnounces userId _).executes ran
    refine .changed split quiet changes (List.forall_mem_append.mpr ⟨late.idle.quiet, idle.quiet⟩) ?_
    rcases replied with ⟨⟨error, rfl⟩, other, member, unreliable⟩ | ⟨rfl, all, announced⟩
    · constructor
      · intro leaves
        exact absurd (idle.same.symm.trans (leaves.unchanged error rfl)) differs
      · intro all
        exact absurd (all other (by simp [member])) unreliable
    · constructor
      · intro _
        rw [← List.cons_append]
        exact List.forall_mem_append.mpr ⟨reliable, all⟩
      · intro _
        refine ⟨fun error refused => (by cases refused), fun row present new => ?_⟩
        rw [idle.same, became] at present
        rcases Keyed.Table.mem_insert.mp present with old | rfl
        · exact absurd old new
        · exact announced _ fun other member => by simp [member]
  | @misnamed insertedId other unreliable =>
    obtain ⟨idle, _⟩ := (createAnnounces userId _).executes ran
    refine .changed split quiet changes (List.forall_mem_append.mpr ⟨late.idle.quiet, idle.quiet⟩) ⟨fun leaves => ?_, fun all => ?_⟩
    · -- the new row would have to be announced, but only another id is
      have present : { values with id := world.db.next } ∈ after.db.rows := by
        rw [idle.same, became]
        exact Keyed.Table.mem_insert.mpr (.inr rfl)
      have new : { values with id := world.db.next } ∉ world.db.rows :=
        fun old => absurd (world.db.below _ old) (Int.lt_irrefl _)
      obtain ⟨image, named, chosen, found, member⟩ := (leaves.announced _ present new).published
      have elsewhere : ∀ moment : Op × Choice × World, Prepares moment.1 →
          moment ≠ (.publishTaskUpdated image, chosen, found) := by
        rintro moment prepares rfl
        exact prepares.elim
      have within : (Op.publishTaskUpdated image, chosen, found) ∈ later := by
        simp only [List.mem_append, List.mem_cons] at member
        rcases member with early' | (timed | same | asked) | published
        · exact absurd rfl (elsewhere _ (before.prepares _ early'))
        · exact absurd rfl (elsewhere _ (early.prepares _ timed))
        · cases same
        · exact absurd rfl (elsewhere _ (late.prepares _ asked))
        · exact published
      exact absurd ((published_afterInsert ran ⟨chosen, found, within⟩).symm.trans named) other
    · obtain ⟨other, member, unreliable⟩ := unreliable
      refine absurd (all other ?_) unreliable
      rw [← List.cons_append]
      exact List.mem_append_left _ member

theorem settled_create {payload : Json} {isAdmin : Bool} {reply : ServiceResult ImageGeneration}
    (ran : Executes (alone config pid) (create config userId payload isAdmin) world trace reply after) :
    Settled config pid userId true world after trace reply := by
  unfold create at ran
  generalize trimmed (.fromJson payload) = generation at ran
  split at ran
  · exact settled_done (untouched_nil world) ran
  dsimp only at ran
  split at ran
  · exact settled_done (untouched_nil world) ran
  obtain ⟨counting, rest, counted, refused, rfl, counts, ran⟩ := ran.of_bind
  have counted' := prepared_of_only counts (only_checkActiveTasks (by rfl) isAdmin)
  cases refused with
  | some error => exact settled_done counted'.idle ran
  | none =>
    obtain ⟨timing, rest, timed, now, rfl, times, ran⟩ := ran.of_bind
    obtain ⟨naming, rest, named, requestId, rfl, names, ran⟩ := ran.of_bind
    obtain ⟨finding, rest, searched, existing, rfl, finds, ran⟩ := ran.of_bind
    have timed' := prepared_of_only times prepares_readClock
    have named' := prepared_of_only names (only_requestIdOf trivial trivial _)
    have searched' := prepared_of_only finds (only_findByRequestIdAndUserId (by rfl))
    have looked := ((counted'.append timed').append named').append searched'
    simp only [← List.append_assoc]
    match existing with
    | .error error => exact settled_done looked.idle ran
    | .ok (some image) =>
      obtain ⟨rfl, rfl, rfl⟩ := ran.of_done
      rw [List.append_nil]
      exact .untouched looked.idle
    | .ok none => exact settled_of_insert looked ran

/-! ## Failed requests -/

/-- While nobody else writes to the table, a request that fails leaves it as it was,
and no change stays unannounced, exactly if everything from the first change on is
reliable. -/
theorem failures_leave_nothing (mutation : Mutation) {reply : ServiceResult ImageGeneration}
    (ran : Executes (alone config pid) (mutation.program config userId) world trace reply after) :
    LeavesNothing userId mutation.queues world.db after.db trace reply ↔ Reported config pid trace := by
  cases mutation with
  | create payload isAdmin =>
    simp only [Mutation.program] at ran
    exact (settled_create ran).leavesNothing_iff
  | cancelById id => exact (settled_cancelById ran).leavesNothing_iff
  | retryById id => exact (settled_retryById ran).leavesNothing_iff

/-- One queued task of user 1. -/
def oneQueued : World :=
  { World.empty with
    db := Keyed.Table.empty.insert
      (fun id => { ImageRepo.insertValues { user_id := 1, prompt := "abc", status := .Queued } 0 with
        id := id }) rfl }

/-- The SELECT after the UPDATE fails. -/
def readBackFails : List Choice := [{}, {}, {}, refused]

/-- The caller is told that the cancellation failed; the task is cancelled. -/
theorem failures_leave_changes : ∃ trace reply after,
    Executes (alone defaultConfig 0) (Mutation.program defaultConfig 1 (.cancelById 1)) oneQueued trace
      reply after ∧
    (reply.isOk = false ∧ after.db.rows.map Row.status = [.Cancelled]) ∧
    ¬ LeavesNothing 1 false oneQueued.db after.db trace reply := by
  obtain ⟨reply, after, ran, observed⟩ :=
    executes_withChoices defaultConfig 0 (Mutation.program defaultConfig 1 (.cancelById 1)) readBackFails
      oneQueued (fun reply after => (reply.isOk, after.db.rows.map Row.status)) (false, [.Cancelled])
      (by decide +kernel)
  obtain ⟨failed, cancelled⟩ := Prod.mk.inj observed
  refine ⟨_, reply, after, ran, ⟨failed, cancelled⟩, fun leaves => ?_⟩
  cases reply with
  | ok image => cases failed
  | error error =>
    rw [leaves.unchanged error rfl] at cancelled
    cases cancelled

/-- With every answer in place the same request is clean. -/
theorem failures_leave_nothing_cancelled : ∃ trace reply after,
    Executes (alone defaultConfig 0) (Mutation.program defaultConfig 1 (.cancelById 1)) oneQueued trace
      reply after ∧
    (reply.isOk = true ∧ after.db.rows.map Row.status = [.Cancelled]) ∧
    LeavesNothing 1 false oneQueued.db after.db trace reply := by
  obtain ⟨reply, after, ran, observed⟩ :=
    executes_withChoices defaultConfig 0 (Mutation.program defaultConfig 1 (.cancelById 1))
      (List.replicate 10 {}) oneQueued (fun reply after => (reply.isOk, after.db.rows.map Row.status))
      (true, [.Cancelled]) (by decide +kernel)
  refine ⟨_, reply, after, ran, Prod.mk.inj observed,
    (failures_leave_nothing (.cancelById 1) ran).mpr ?_⟩
  have answered : ∀ moment ∈ (cancelById 1 1).performed (perform defaultConfig 0)
      (withChoices (List.replicate 10 {})) oneQueued,
      moment.2.1.succeeds = true ∧ moment.1.isLastInsertId = false := by decide +kernel
  refine reported_of_reliable fun moment member => ?_
  obtain ⟨succeeds, other⟩ := answered moment member
  exact reliable_of_succeeds succeeds other

end Text2Image
