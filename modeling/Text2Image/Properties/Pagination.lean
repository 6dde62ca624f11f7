import Text2Image.Services.Execution

/-! The pages of a user's history, while the table does not change. -/

set_option autoImplicit false

namespace Text2Image

open Concurrency Concurrency.Prog

variable {config : Config} {pid : Nat} {world after : World} {trace : Trace}

/-! ## Pages of a list -/

/-- Pages one after the other are the front of the list. -/
theorem flatMap_pages {α : Type} (all : List α) (size count : Nat) :
    (List.range count).flatMap (fun page => (all.drop (page * size)).take size) =
      all.take (count * size) := by
  induction count with
  | zero => simp
  | succ count ih =>
    rw [List.range_succ, List.flatMap_append, ih, List.flatMap_singleton, Nat.succ_mul, List.take_add]

/-! ## Pages of the history -/

/-- With a condition on the status, or without. -/
def findHistory (userId : Int) : Option TaskStatus → (page size : Int) →
    Program (RepoResult ImageRepo.PageResult)
  | none => ImageRepo.findByUserId userId
  | some status => ImageRepo.findByUserIdAndStatus userId status

/-- The rows of the user, and of this status, the newest first. -/
def history (t : ImageTable) (userId : Int) (status : Option TaskStatus) : List Row :=
  (t.select (ofUser userId status)).reverse

def pageRows (t : ImageTable) (userId : Int) (status : Option TaskStatus) (page size : Int) : List Row :=
  ((history t userId status).drop (ImageRepo.normalizePage page * ImageRepo.normalizeSize size).toNat).take
    (ImageRepo.normalizeSize size).toNat

/-- The page that is found in a table. -/
def historyPage (t : ImageTable) (userId : Int) (status : Option TaskStatus) (page size : Int) :
    ImageRepo.PageResult where
  content := (pageRows t userId status page size).map ImageRepo.rowToImageGeneration
  total_elements := (history t userId status).length

theorem findHistory_eq (userId : Int) (status : Option TaskStatus) (page size : Int) :
    findHistory userId status page size = ImageRepo.findPage userId status page size := by
  cases status <;> rfl

theorem history_decreasing (t : ImageTable) (userId : Int) (status : Option TaskStatus) :
    (history t userId status).Pairwise fun newer older => older.id < newer.id :=
  List.pairwise_reverse.mpr (t.increasing.filter _)

theorem mem_history {t : ImageTable} {userId : Int} {status : Option TaskStatus} {row : Row} :
    row ∈ history t userId status ↔
      row ∈ t.rows ∧ row.user_id = userId ∧ ∀ wanted, status = some wanted → row.status = wanted := by
  rw [history, List.mem_reverse, Keyed.Table.mem_select, ofUser, decide_eq_true_eq]
  cases status <;> simp

/-- The rows of a page with the count of all, as the SELECT answers. -/
theorem answer_selectPage (t : ImageTable) (userId : Int) (status : Option TaskStatus) (page size : Int)
    (pick : Nat) : (Stmt.selectPage userId status (ImageRepo.normalizeSize size)
      (ImageRepo.normalizePage page * ImageRepo.normalizeSize size)).answer t pick =
        (pageRows t userId status page size).map fun row => (row, ((history t userId status).length : Int)) := by
  rw [pageRows, history, List.length_reverse]
  rfl

theorem collect_content (rows : List Row) (total : Int) :
    (ImageRepo.collectPagedResultRows (rows.map fun row => (row, total))).content =
      rows.map ImageRepo.rowToImageGeneration := by
  simp [ImageRepo.collectPagedResultRows]

/-- The count is read off the first row, if there is one. -/
theorem collect_total {rows : List Row} {total : Int} (counted : total ≠ 0) (some_row : rows ≠ []) :
    (ImageRepo.collectPagedResultRows (rows.map fun row => (row, total))).total_elements = total := by
  obtain ⟨first, rest, rfl⟩ := List.exists_cons_of_ne_nil some_row
  simp [ImageRepo.collectPagedResultRows, counted]

theorem normalizeSize_pos (size : Int) : 0 < ImageRepo.normalizeSize size := by
  unfold ImageRepo.normalizeSize
  split <;> omega

theorem history_of_pageRows {t : ImageTable} {userId : Int} {status : Option TaskStatus} {page size : Int}
    (some_row : pageRows t userId status page size ≠ []) : history t userId status ≠ [] := by
  intro none
  rw [pageRows, none] at some_row
  simp at some_row

/-- The first page is empty only if there is nothing at all. -/
theorem history_of_first {t : ImageTable} {userId : Int} {status : Option TaskStatus} {page size : Int}
    (first : ¬ ImageRepo.normalizePage page * ImageRepo.normalizeSize size > 0)
    (empty : pageRows t userId status page size = []) : history t userId status = [] := by
  have start : (ImageRepo.normalizePage page * ImageRepo.normalizeSize size).toNat = 0 := by omega
  have positive := normalizeSize_pos size
  rw [pageRows, start, List.drop_zero, List.take_eq_nil_iff] at empty
  exact empty.resolve_left (by omega)

/-- What is left to do with the rows of a page. -/
def pageFrom (userId : Int) (status : Option TaskStatus) (offset : Int) (rows : List (Row × Int)) :
    Program (RepoResult ImageRepo.PageResult) := do
  let pageResult := ImageRepo.collectPagedResultRows rows
  if pageResult.content.isEmpty ∧ offset > 0 then
    match ← sql (.countByUser userId status) with
    | .error error => return .error error
    | .ok (total : Int) => return .ok { pageResult with total_elements := total }
  else return .ok pageResult

theorem executes_pageFrom {userId : Int} {status : Option TaskStatus} {page size : Int}
    {reply : RepoResult ImageRepo.PageResult}
    (ran : Executes (alone config pid) (pageFrom userId status
      (ImageRepo.normalizePage page * ImageRepo.normalizeSize size)
      ((pageRows world.db userId status page size).map fun row =>
        (row, ((history world.db userId status).length : Int)))) world trace reply after) :
    reply = .ok (historyPage world.db userId status page size) ∨
      (∃ error, reply = .error error) ∧ ∃ moment ∈ trace, moment.2.1.succeeds = false := by
  have content := collect_content (pageRows world.db userId status page size)
    (history world.db userId status).length
  rw [pageFrom, content] at ran
  by_cases empty : pageRows world.db userId status page size = []
  · by_cases beyond : ImageRepo.normalizePage page * ImageRepo.normalizeSize size > 0
    · rw [if_pos ⟨by rw [empty]; rfl, beyond⟩] at ran
      obtain ⟨first, second, middle, answer, rfl, counts, goes⟩ := Executes.of_bind ran
      obtain ⟨choice, met, _, rfl, _, ⟨_, rfl⟩ | ⟨fails, error, rfl⟩⟩ := executes_read counts rfl
      · obtain ⟨_, rfl, _⟩ := Executes.of_done goes
        refine .inl (congrArg Except.ok ?_)
        have total : (Stmt.countByUser userId status).answer world.db choice.pick =
            ((history world.db userId status).length : Int) := by
          rw [history, List.length_reverse]
          rfl
        rw [total]
        rfl
      · obtain ⟨_, rfl, _⟩ := Executes.of_done goes
        exact .inr ⟨⟨error, rfl⟩, _, List.mem_append_left _ List.mem_cons_self, fails⟩
    · have nothing := history_of_first beyond empty
      rw [if_neg fun counted => beyond counted.2] at ran
      obtain ⟨_, rfl, _⟩ := Executes.of_done ran
      refine .inl (congrArg Except.ok ?_)
      rw [historyPage, empty, nothing]
      rfl
  · rw [if_neg fun counted => empty (List.map_eq_nil_iff.mp (List.isEmpty_iff.mp counted.1))] at ran
    obtain ⟨_, rfl, _⟩ := Executes.of_done ran
    refine .inl (congrArg Except.ok ?_)
    have counted : ((history world.db userId status).length : Int) ≠ 0 := by
      have some_row := List.length_pos_of_ne_nil (history_of_pageRows empty)
      omega
    have total := collect_total counted empty
    exact congrArg₂ ImageRepo.PageResult.mk content total

/-- What the SELECT and, on an empty page beyond the first, the count tell. -/
theorem executes_findHistory {userId : Int} {status : Option TaskStatus} {page size : Int}
    {reply : RepoResult ImageRepo.PageResult}
    (ran : Executes (alone config pid) (findHistory userId status page size) world trace reply after) :
    reply = .ok (historyPage world.db userId status page size) ∨
      (∃ error, reply = .error error) ∧ ∃ moment ∈ trace, moment.2.1.succeeds = false := by
  rw [findHistory_eq, ImageRepo.findPage] at ran
  obtain ⟨first, second, middle, answer, rfl, selects, goes⟩ := Executes.of_bind ran
  obtain ⟨choice, met, _, rfl, same, ⟨_, rfl⟩ | ⟨fails, error, rfl⟩⟩ := executes_read selects rfl
  · rw [answer_selectPage] at goes
    rw [← same] at goes ⊢
    rcases executes_pageFrom goes with answered | ⟨refused, moment, member, fails⟩
    · exact .inl answered
    · exact .inr ⟨refused, moment, List.mem_append_right _ member, fails⟩
  · obtain ⟨_, rfl, _⟩ := Executes.of_done goes
    exact .inr ⟨⟨error, rfl⟩, _, List.mem_append_left _ List.mem_cons_self, fails⟩

/-- There is an answer for each page. -/
theorem findHistory_answered (config : Config) (pid : Nat) (world : World) (userId : Int)
    (status : Option TaskStatus) (page size : Int) : ∃ trace after,
      Executes (alone config pid) (findHistory userId status page size) world trace
        (.ok (historyPage world.db userId status page size)) after := by
  obtain ⟨trace, reply, after, ran, all⟩ := exists_executes (σ := alone config pid)
    (fun world => ⟨rfl, rfl⟩) {} (findHistory userId status page size) world
  rcases executes_findHistory ran with rfl | ⟨_, moment, member, fails⟩
  · exact ⟨trace, after, ran⟩
  · rw [all moment member] at fails
    cases fails

/-- The answers to the pages of an unchanged table: one after the other they are the user's rows, the
newest first, each once; all but the last are full, and all tell how many rows there are.
-/
theorem pages_partition (config : Config) (t : ImageTable) (userId : Int) (status : Option TaskStatus)
    (size : Nat) (pages : Int → ImageRepo.PageResult) (some_size : 1 ≤ size)
    (answered : ∀ page, ∃ pid world trace after, world.db = t ∧
      Executes (alone config pid) (findHistory userId status page size) world trace (.ok (pages page))
        after) :
    (∀ count : Nat, (history t userId status).length ≤ count * size →
      (List.range count).flatMap (fun page : Nat => (pages page).content) =
        (history t userId status).map ImageRepo.rowToImageGeneration) ∧
    ((history t userId status).Pairwise fun newer older => older.id < newer.id) ∧
    (∀ row, row ∈ history t userId status ↔
      row ∈ t.rows ∧ row.user_id = userId ∧ ∀ wanted, status = some wanted → row.status = wanted) ∧
    (∀ page : Nat, (page + 1) * size < (history t userId status).length →
      (pages page).content.length = size) ∧
    (∀ page, (pages page).total_elements = (history t userId status).length) ∧
    (∀ page other, page < 0 → findHistory userId status page other = findHistory userId status 0 other) ∧
    ∀ page other, other ≤ 0 → findHistory userId status page other = findHistory userId status page 10 := by
  have same : ∀ page, pages page = historyPage t userId status page size := by
    intro page
    obtain ⟨pid, world, trace, after, rfl, ran⟩ := answered page
    rcases executes_findHistory ran with answers | ⟨⟨error, refused⟩, _⟩
    · exact Except.ok.inj answers
    · cases refused
  have content : ∀ page : Nat, (pages page).content =
      (((history t userId status).drop (page * size)).take size).map ImageRepo.rowToImageGeneration := by
    intro page
    have first : ImageRepo.normalizePage page = page := if_neg (by omega)
    have width : ImageRepo.normalizeSize size = size := if_neg (by omega)
    rw [same, historyPage, pageRows, first, width]
    rfl
  refine ⟨fun count enough => ?_, history_decreasing t userId status, fun row => mem_history,
    fun page more => ?_, fun page => ?_, fun page other negative => ?_, fun page other none => ?_⟩
  · simp only [content]
    rw [← List.map_flatMap, flatMap_pages, List.take_of_length_le enough]
  · rw [content, List.length_map, List.length_take, List.length_drop, Nat.succ_mul] at *
    omega
  · rw [same]
    rfl
  · have start : ImageRepo.normalizePage page = ImageRepo.normalizePage 0 := if_pos negative
    rw [findHistory_eq, findHistory_eq, ImageRepo.findPage, ImageRepo.findPage, start]
  · have width : ImageRepo.normalizeSize other = ImageRepo.normalizeSize 10 := if_pos none
    rw [findHistory_eq, findHistory_eq, ImageRepo.findPage, ImageRepo.findPage, width]

/-- Three tasks, two of them of user 1. -/
def threeTasks : ImageTable :=
  let task (userId : Int) (id : Int) : Row :=
    { ImageRepo.insertValues { user_id := userId, prompt := "abc" } 0 with id := id }
  ((Keyed.Table.empty.insert (task 1) rfl).insert (task 2) rfl).insert (task 1) rfl

theorem pages_partition_three :
    (List.range 2).flatMap (fun page : Nat => (historyPage threeTasks 1 none page 1).content) =
      (history threeTasks 1 none).map ImageRepo.rowToImageGeneration := by
  refine (pages_partition defaultConfig threeTasks 1 none 1 (fun page => historyPage threeTasks 1 none page 1)
    (by decide) fun page => ?_).1 2 (by decide +kernel)
  obtain ⟨trace, after, ran⟩ := findHistory_answered defaultConfig 0 { World.empty with db := threeTasks } 1
    none page 1
  exact ⟨0, _, trace, after, rfl, ran⟩

end Text2Image
