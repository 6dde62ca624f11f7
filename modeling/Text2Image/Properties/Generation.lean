import Text2Image.Services.Execution
import Text2Image.Services.TaskEngine

/-! What a generation makes of the answers of the model service and the storage. -/

set_option autoImplicit false

namespace Text2Image

open Concurrency Concurrency.Prog TaskStatus GenerationClient

variable {config : Config} {pid : Nat} {world middle after : World} {trace first rest : Trace}
variable {task generation result : ImageGeneration}

/-! ## The answers -/

/-- The document in an answer of the model service. -/
def HttpResult.document (result : HttpResult) : Option Json :=
  match result.toExpectedBody with
  | .error _ => none
  | .ok body => if body.text.isEmpty then none else body.json

/-- What a download delivers. -/
def HttpResult.bytes (result : HttpResult) : String :=
  match result.toExpectedBody with
  | .error _ => ""
  | .ok body => body.text

def documentAt : Op × Choice × World → Option Json
  | (.postJson .., choice, _) =>
    match choice.answerHttp with
    | .error _ => none
    | .ok result => result.document
  | _ => none

def bytesAt : Op × Choice × World → Option (Except Thrown String)
  | (.httpGet .., choice, _) => some (choice.answerHttp.map HttpResult.bytes)
  | _ => none

def storedAt : Op × Choice × World → Option (String × String)
  | (.putObject key data, choice, _) => if choice.succeeds then some (key, data) else none
  | _ => none

/-- The document the model service answered with, if it did. -/
def document (trace : Trace) : Option Json := trace.findSome? documentAt

/-- The download, if there was one. -/
def download (trace : Trace) : Option (Except Thrown String) := trace.findSome? bytesAt

/-- The bytes that were downloaded. -/
def downloadedBytes (trace : Trace) : String :=
  match download trace with
  | some (.ok bytes) => bytes
  | _ => ""

/-- The object the storage took, under its key. -/
def stored (trace : Trace) : Option (String × String) := trace.findSome? storedAt

/-- The status after the answer of the model service. -/
def mergedStatus (task : ImageGeneration) (document : Option Json) : TaskStatus :=
  match document with
  | none => Failed
  | some remoteJson => remoteStatus (resultPayload remoteJson) task.status

/-- The url after the answer of the model service. -/
def mergedUrl (task : ImageGeneration) (document : Option Json) : String :=
  match document with
  | none => task.image_url
  | some remoteJson => remoteImageUrl (resultPayload remoteJson) task.image_url

/-! ## The parts of a generation -/

def Op.isPost : Op → Prop
  | .postJson .. => True
  | _ => False

def Op.isGet : Op → Prop
  | .httpGet .. => True
  | _ => False

def Op.storesOrReads : Op → Prop
  | .now | .putObject .. => True
  | _ => False

@[simp] theorem document_nil : document [] = none := rfl

theorem document_append : document (first ++ rest) = (document first).or (document rest) := by
  simp only [document, List.findSome?_append]

theorem download_append : download (first ++ rest) = (download first).or (download rest) := by
  simp only [download, List.findSome?_append]

theorem stored_append : stored (first ++ rest) = (stored first).or (stored rest) := by
  simp only [stored, List.findSome?_append]

theorem document_eq_none {kind : Op → Prop} (all : ∀ moment ∈ trace, kind moment.1)
    (other : ∀ op, kind op → ¬ op.isPost) : document trace = none := by
  refine List.findSome?_eq_none_iff.mpr ?_
  rintro ⟨op, choice, met⟩ member
  have apart := other op (all _ member)
  cases op with
  | postJson => exact absurd trivial apart
  | _ => rfl

theorem download_eq_none {kind : Op → Prop} (all : ∀ moment ∈ trace, kind moment.1)
    (other : ∀ op, kind op → ¬ op.isGet) : download trace = none := by
  refine List.findSome?_eq_none_iff.mpr ?_
  rintro ⟨op, choice, met⟩ member
  have apart := other op (all _ member)
  cases op with
  | httpGet => exact absurd trivial apart
  | _ => rfl

theorem stored_eq_none {kind : Op → Prop} (all : ∀ moment ∈ trace, kind moment.1)
    (other : ∀ op, kind op → ¬ op.storesOrReads) : stored trace = none := by
  refine List.findSome?_eq_none_iff.mpr ?_
  rintro ⟨op, choice, met⟩ member
  have apart := other op (all _ member)
  cases op with
  | putObject => exact absurd trivial apart
  | _ => rfl

theorem requestGeneration_only (config : Config) (task : ImageGeneration) :
    (requestGeneration config task).Only Op.isPost := by
  unfold requestGeneration
  cases config.python_service with
  | error what => trivial
  | ok service =>
    cases read : service.timeout_seconds with
    | error what =>
      simp only [read]
      trivial
    | ok timeout =>
      simp only [read]
      refine Only.bind ⟨trivial, fun _ => trivial⟩ fun answer => ?_
      cases answer <;> trivial

theorem downloadImageBytes_only (url : String) (timeout : Int) :
    (downloadImageBytes url timeout).Only Op.isGet := by
  refine Only.bind ⟨trivial, fun _ => trivial⟩ fun answer => ?_
  cases answer with
  | error thrown => trivial
  | ok result =>
    simp only
    cases result.toExpectedBody <;> trivial

theorem withDownload_only (generation : ImageGeneration) (serviceUrl : String) (timeout : Int) :
    (withDownload generation serviceUrl timeout).Only Op.isGet := by
  unfold withDownload
  split
  · trivial
  · refine (downloadImageBytes_only _ _).bind fun fetched => ?_
    cases fetched <;> trivial

theorem store_only (userId : Int) (requestId rawBytes contentType : String) :
    (ImageStorage.store userId requestId rawBytes contentType).Only Op.storesOrReads := by
  unfold ImageStorage.store
  split
  · trivial
  · split
    · trivial
    · refine Only.bind ⟨trivial, fun _ => trivial⟩ fun answer => ?_
      rcases answer with what | ⟨_ | _⟩ <;> trivial

theorem persistGeneratedImage_only (generation : ImageGeneration) :
    (persistGeneratedImage generation).Only Op.storesOrReads := by
  unfold persistGeneratedImage
  split
  · trivial
  · split
    · exact ⟨trivial, fun _ => trivial⟩
    · refine (store_only _ _ _ _).bind fun saved => ?_
      cases saved with
      | ok key => trivial
      | error what => exact ⟨trivial, fun _ => trivial⟩

theorem conclude_only (generation : ImageGeneration) : (conclude generation).Only Op.storesOrReads := by
  unfold conclude
  dsimp only
  split
  · exact ⟨trivial, fun _ => persistGeneratedImage_only _⟩
  · exact persistGeneratedImage_only _

/-- The task as the model service's answer leaves it: failed with a code, or merged. -/
structure Answered (task answered : ImageGeneration) (document : Option Json) : Prop where
  status : answered.status = mergedStatus task document
  image_url : answered.image_url = mergedUrl task document
  code : if document.isNone then answered.failure_code ≠ "" else
    answered.failure_code = task.failure_code
  id : answered.id = task.id
  image_bytes : answered.image_bytes = task.image_bytes
  storage_key : answered.storage_key = task.storage_key

theorem Answered.of_failed {code message : String} (named : code ≠ "") :
    Answered task (failed task code message) none :=
  ⟨rfl, rfl, named, rfl, rfl, rfl⟩

theorem Answered.of_withException (thrown : Thrown) : Answered task (withException task thrown) none := by
  cases thrown with
  | exception what => exact .of_failed (by decide)
  | other => exact .of_failed (by decide)

theorem Answered.of_withResponse (result : HttpResult) :
    Answered task (withResponse task result) result.document := by
  unfold withResponse HttpResult.document
  cases result.toExpectedBody with
  | error error => exact .of_failed (by decide)
  | ok body =>
    simp only
    split
    · exact .of_failed (by decide)
    · cases body.json with
      | none => exact .of_failed (by decide)
      | some remoteJson => exact ⟨rfl, rfl, rfl, rfl, rfl, rfl⟩

theorem executes_requestGeneration {reply : ImageGeneration × String × Int}
    (ran : Executes (amid config pid) (requestGeneration config task) world trace reply after) :
    Answered task reply.1 (document trace) := by
  unfold requestGeneration at ran
  cases read : config.python_service with
  | error what =>
    simp only [read] at ran
    obtain ⟨rfl, rfl, rfl⟩ := ran.of_done
    dsimp only [document_nil]
    exact .of_withException _
  | ok service =>
    simp only [read] at ran
    cases timed : service.timeout_seconds with
    | error what =>
      simp only [timed] at ran
      obtain ⟨rfl, rfl, rfl⟩ := ran.of_done
      dsimp only [document_nil]
      exact .of_withException _
    | ok timeout =>
      simp only [timed] at ran
      obtain ⟨asked, later, between, answer, rfl, posts, goesOn⟩ := ran.of_bind
      obtain ⟨choice, met, _, rfl, rfl, _⟩ := posts.of_perform
      simp only [amid, perform] at goesOn
      cases answers : choice.answerHttp with
      | error thrown =>
        simp only [answers] at goesOn
        obtain ⟨rfl, rfl, rfl⟩ := goesOn.of_done
        simp only [document, List.append_nil, List.findSome?_cons, documentAt, answers, List.findSome?_nil]
        exact .of_withException _
      | ok result =>
        simp only [answers] at goesOn
        obtain ⟨rfl, rfl, rfl⟩ := goesOn.of_done
        have found : document [(.postJson (service.url ++ "/generate") (timeout.getD 900)
            (modelPayload task) (requestHeaders task), choice, met)] = result.document := by
          simp only [document, List.findSome?_cons, documentAt, answers, List.findSome?_nil]
          cases result.document <;> rfl
        rw [List.append_nil, found]
        exact .of_withResponse result

theorem absoluteUrl_ne_empty {serviceUrl url : String} (given : url ≠ "") :
    absoluteUrl serviceUrl url ≠ "" := by
  unfold absoluteUrl
  split
  · simp [given]
  · exact given

theorem executes_downloadImageBytes {url : String} {timeout : Int} {reply : Except Thrown String}
    (ran : Executes (amid config pid) (downloadImageBytes url timeout) world trace reply after) :
    download trace = some reply := by
  obtain ⟨asked, later, between, answer, rfl, gets, goesOn⟩ := ran.of_bind
  obtain ⟨choice, met, _, rfl, rfl, _⟩ := gets.of_perform
  have found : download ([(.httpGet url timeout true, choice, met)] ++ later) =
      some (choice.answerHttp.map HttpResult.bytes) := rfl
  rw [found]
  simp only [amid, perform] at goesOn
  cases answers : choice.answerHttp with
  | error thrown =>
    simp only [answers] at goesOn
    obtain ⟨_, rfl, _⟩ := goesOn.of_done
    rfl
  | ok result =>
    simp only [answers] at goesOn
    simp only [Except.map, HttpResult.bytes]
    cases read : result.toExpectedBody with
    | error error =>
      simp only [read] at goesOn
      obtain ⟨_, rfl, _⟩ := goesOn.of_done
      rfl
    | ok body =>
      simp only [read] at goesOn
      obtain ⟨_, rfl, _⟩ := goesOn.of_done
      rfl

/-- Without a url nothing is downloaded; else the bytes are, or the call throws. -/
theorem executes_withDownload {serviceUrl : String} {timeout : Int}
    {reply : Except Thrown ImageGeneration}
    (ran : Executes (amid config pid) (withDownload generation serviceUrl timeout) world trace reply
      after) :
    (generation.image_url = "" ∧ download trace = none ∧ reply = .ok generation) ∨
      (generation.image_url ≠ "" ∧ ∃ url fetched, url ≠ "" ∧ download trace = some fetched ∧
        reply = fetched.map fun bytes => { generation with image_url := url, image_bytes := bytes }) := by
  unfold withDownload at ran
  split at ran
  · rename_i empty
    obtain ⟨rfl, rfl, rfl⟩ := ran.of_done
    exact .inl ⟨by simpa using empty, rfl, rfl⟩
  · rename_i given
    have given : generation.image_url ≠ "" := by simpa using given
    obtain ⟨asked, later, between, fetched, rfl, gets, goesOn⟩ := ran.of_bind
    refine .inr ⟨given, absoluteUrl serviceUrl generation.image_url, fetched, absoluteUrl_ne_empty given,
      ?_⟩
    have found := executes_downloadImageBytes gets
    rw [download_append, found]
    cases fetched with
    | error thrown =>
      obtain ⟨_, rfl, _⟩ := goesOn.of_done
      exact ⟨rfl, rfl⟩
    | ok bytes =>
      obtain ⟨_, rfl, _⟩ := goesOn.of_done
      exact ⟨rfl, rfl⟩

theorem executes_store {userId : Int} {requestId rawBytes contentType : String}
    {reply : Except String String}
    (ran : Executes (amid config pid) (ImageStorage.store userId requestId rawBytes contentType) world
      trace reply after) :
    (∃ key, reply = .ok key ∧ stored trace = some (key, rawBytes)) ∨
      (∃ what, reply = .error what ∧ stored trace = none) := by
  unfold ImageStorage.store at ran
  split at ran
  · obtain ⟨rfl, rfl, _⟩ := ran.of_done
    exact .inr ⟨_, rfl, rfl⟩
  · split at ran
    · obtain ⟨rfl, rfl, _⟩ := ran.of_done
      exact .inr ⟨_, rfl, rfl⟩
    · obtain ⟨asked, later, between, answer, rfl, puts, goesOn⟩ := ran.of_bind
      obtain ⟨choice, met, _, rfl, rfl, _⟩ := puts.of_perform
      simp only [amid, perform, Choice.orFail] at goesOn
      by_cases succeeds : choice.succeeds = true
      · simp only [succeeds, if_true] at goesOn
        obtain ⟨rfl, rfl, _⟩ := goesOn.of_done
        exact .inl ⟨_, rfl, by simp [stored, storedAt, succeeds]⟩
      · refine .inr ?_
        by_cases throws : choice.throws = true
        · simp only [succeeds, throws, if_true, if_false, Bool.false_eq_true] at goesOn
          obtain ⟨rfl, rfl, _⟩ := goesOn.of_done
          exact ⟨_, rfl, by simp [stored, storedAt, succeeds]⟩
        · simp only [succeeds, throws, if_false, Bool.false_eq_true] at goesOn
          obtain ⟨rfl, rfl, _⟩ := goesOn.of_done
          exact ⟨_, rfl, by simp [stored, storedAt, succeeds]⟩

/-! ## Settling the task -/

theorem settled_of_bytes (bytes : generation.image_bytes ≠ "") (answered : generation.status ≠ Failed) :
    settled generation =
      { generation with status := Success, failure_code := "", error_message := "" } := by
  simp [settled, accepted, ended, bytes, answered]

theorem settled_of_terminal (closed : generation.image_bytes = "" ∨ generation.status = Failed)
    (terminal : generation.status.isTerminal = true) : settled generation = generation := by
  have kept : accepted generation = generation := by
    refine if_neg ?_
    rintro ⟨bytes, answered⟩
    rcases closed with empty | failed
    · exact bytes (by simp [empty])
    · exact answered failed
  rw [settled, kept]
  refine if_neg ?_
  cases status : generation.status <;> simp_all [isTerminal]

theorem settled_of_open (empty : generation.image_bytes = "") (running : ¬ generation.status.isTerminal = true) :
    ∃ message, settled generation = failed generation failure.kMissingImagePayload message := by
  have kept : accepted generation = generation := if_neg (by simp [empty])
  have waiting : generation.status = Unknown ∨ generation.status = Pending ∨
      generation.status = Queued ∨ generation.status = Generating := by
    cases status : generation.status <;> simp_all [isTerminal]
  rw [settled, kept]
  exact ⟨_, if_pos waiting⟩

theorem settled_isTerminal (generation : ImageGeneration) : (settled generation).status.isTerminal = true := by
  by_cases closed : generation.image_bytes = "" ∨ generation.status = Failed
  · by_cases terminal : generation.status.isTerminal = true
    · rwa [settled_of_terminal closed terminal]
    · rcases closed with empty | failed
      · obtain ⟨message, same⟩ := settled_of_open empty terminal
        rw [same]
        rfl
      · exact absurd (by rw [failed]; rfl) terminal
  · obtain ⟨bytes, answered⟩ := not_or.mp closed
    rw [settled_of_bytes bytes answered]
    rfl

/-- What is made of a task after the call and the download, and of the object stored for it. -/
inductive Concluded (generation : ImageGeneration) : Option (String × String) → ImageGeneration → Prop where
  | saved {key : String} {now : TimePoint} (bytes : generation.image_bytes ≠ "")
      (answered : generation.status ≠ Failed) :
      Concluded generation (some (key, generation.image_bytes)) { generation with
        status := Success, failure_code := "", error_message := "", completed_at := some now
        storage_key := key, image_url := s!"/api/images/{generation.id}/binary", image_bytes := "" }
  | refused {message : String} {now : TimePoint} (bytes : generation.image_bytes ≠ "")
      (answered : generation.status ≠ Failed) :
      Concluded generation none { failed generation failure.kStorageWriteFailed message with
        completed_at := some now, storage_key := "", image_url := "", image_bytes := "" }
  | missing {message : String} {now : TimePoint} (empty : generation.image_bytes = "")
      (claimed : generation.status = Success ∨ ¬ generation.status.isTerminal = true) :
      Concluded generation none { failed generation failure.kMissingImagePayload message with
        completed_at := some now }
  | ended {now : TimePoint} (closed : generation.image_bytes = "" ∨ generation.status = Failed)
      (terminal : generation.status.isTerminal = true) (unsuccessful : generation.status ≠ Success) :
      Concluded generation none { generation with completed_at := some now }

theorem executes_persist_of_ne
    (ran : Executes (amid config pid) (persistGeneratedImage generation) world trace result after)
    (unsuccessful : generation.status ≠ Success) :
    stored trace = none ∧ result = generation := by
  unfold persistGeneratedImage at ran
  rw [if_pos unsuccessful] at ran
  obtain ⟨rfl, rfl, _⟩ := ran.of_done
  exact ⟨rfl, rfl⟩

theorem executes_persist_of_missing
    (ran : Executes (amid config pid) (persistGeneratedImage generation) world trace result after)
    (success : generation.status = Success) (empty : generation.image_bytes = "") :
    ∃ message now, stored trace = none ∧ result =
      { failed generation failure.kMissingImagePayload message with completed_at := some now } := by
  unfold persistGeneratedImage at ran
  rw [if_neg (not_not.mpr success), if_pos (by simp [empty])] at ran
  obtain ⟨asked, later, between, now, rfl, reads, goesOn⟩ := ran.of_bind
  obtain ⟨choice, met, _, rfl, rfl, _⟩ := reads.of_perform
  obtain ⟨rfl, rfl, _⟩ := goesOn.of_done
  exact ⟨_, _, rfl, rfl⟩

theorem executes_persist_of_bytes
    (ran : Executes (amid config pid) (persistGeneratedImage generation) world trace result after)
    (success : generation.status = Success) (bytes : generation.image_bytes ≠ "") :
    (∃ key, stored trace = some (key, generation.image_bytes) ∧ result = { generation with
        storage_key := key, image_url := s!"/api/images/{generation.id}/binary", image_bytes := "" }) ∨
      ∃ message now, stored trace = none ∧ result =
        { failed generation failure.kStorageWriteFailed message with
          completed_at := some now, storage_key := "", image_bytes := "", image_url := "" } := by
  unfold persistGeneratedImage at ran
  rw [if_neg (not_not.mpr success), if_neg (by simpa using bytes)] at ran
  obtain ⟨asked, later, between, answer, rfl, stores, goesOn⟩ := ran.of_bind
  rcases executes_store stores with ⟨key, rfl, found⟩ | ⟨what, rfl, nothing⟩
  · obtain ⟨rfl, rfl, _⟩ := goesOn.of_done
    refine .inl ⟨key, ?_, rfl⟩
    rw [List.append_nil, found]
  · obtain ⟨read, rest, met, now, rfl, reads, ends⟩ := goesOn.of_bind
    obtain ⟨choice, met, _, rfl, rfl, _⟩ := reads.of_perform
    obtain ⟨rfl, rfl, _⟩ := ends.of_done
    refine .inr ⟨_, _, ?_, rfl⟩
    rw [stored_append, nothing]
    rfl

theorem executes_conclude
    (ran : Executes (amid config pid) (conclude generation) world trace result after) :
    Concluded generation (stored trace) result := by
  unfold conclude at ran
  dsimp only at ran
  rw [if_pos (settled_isTerminal generation)] at ran
  obtain ⟨asked, later, between, now, rfl, reads, persists⟩ := ran.of_bind
  obtain ⟨choice, met, _, rfl, rfl, _⟩ := reads.of_perform
  have same : stored ([(.now, choice, met)] ++ later) = stored later := rfl
  rw [same]
  by_cases closed : generation.image_bytes = "" ∨ generation.status = Failed
  · by_cases terminal : generation.status.isTerminal = true
    · rw [settled_of_terminal closed terminal] at persists
      by_cases success : generation.status = Success
      · have empty : generation.image_bytes = "" := closed.resolve_right (by rw [success]; decide)
        obtain ⟨message, now, nothing, rfl⟩ := executes_persist_of_missing persists success empty
        rw [nothing]
        exact .missing empty (.inl success)
      · obtain ⟨nothing, rfl⟩ := executes_persist_of_ne persists success
        rw [nothing]
        exact .ended closed terminal success
    · have empty : generation.image_bytes = "" :=
        closed.resolve_right fun failed => terminal (by rw [failed]; rfl)
      obtain ⟨message, same⟩ := settled_of_open empty terminal
      rw [same] at persists
      obtain ⟨nothing, rfl⟩ := executes_persist_of_ne persists (by simp [failed])
      rw [nothing]
      exact .missing empty (.inr terminal)
  · obtain ⟨bytes, answered⟩ := not_or.mp closed
    rw [settled_of_bytes bytes answered] at persists
    rcases executes_persist_of_bytes persists rfl bytes with
      ⟨key, found, rfl⟩ | ⟨message, now, nothing, rfl⟩
    · rw [found]
      exact .saved bytes answered
    · rw [nothing]
      exact .refused bytes answered

/-! ## The call -/

/-- The outcome of a call: what the download threw, or a task concluded from the answer and
what was downloaded. -/
inductive Generated (answered : ImageGeneration) (stored : Option (String × String)) :
    Option (Except Thrown String) → Except Thrown ImageGeneration → Prop where
  | plain {result : ImageGeneration} (nowhere : answered.image_url = "")
      (concluded : Concluded answered stored result) : Generated answered stored none (.ok result)
  | fetched {result : ImageGeneration} {url bytes : String} (somewhere : answered.image_url ≠ "")
      (given : url ≠ "")
      (concluded : Concluded { answered with image_url := url, image_bytes := bytes } stored result) :
      Generated answered stored (some (.ok bytes)) (.ok result)
  | thrown {thrown : Thrown} (somewhere : answered.image_url ≠ "") :
      Generated answered stored (some (.error thrown)) (.error thrown)

theorem executes_generate {reply : Except Thrown ImageGeneration}
    (ran : Executes (amid config pid) (generate config task) world trace reply after) :
    ∃ answered, Answered task answered (document trace) ∧
      Generated answered (stored trace) (download trace) reply := by
  obtain ⟨posting, others, posted, ⟨answered, serviceUrl, timeout⟩, rfl, posts, goesOn⟩ := ran.of_bind
  obtain ⟨getting, concluding, got, fetched, rfl, gets, concludes⟩ := goesOn.of_bind
  have posts' := posts.only (requestGeneration_only config task)
  have gets' := gets.only (withDownload_only answered serviceUrl timeout)
  have concludes' : ∀ moment ∈ concluding, moment.1.storesOrReads := by
    refine concludes.only ?_
    cases fetched with
    | error thrown => trivial
    | ok generation => exact (conclude_only generation).bind fun _ => trivial
  -- each part of the trace holds operations of one kind, so the parts can be read apart
  have documents : document (posting ++ (getting ++ concluding)) = document posting := by
    have none₁ := document_eq_none gets' fun op get post => by cases op <;> trivial
    have none₂ := document_eq_none concludes' fun op stores post => by cases op <;> trivial
    rw [document_append, document_append, none₁, none₂, Option.or_none, Option.or_none]
  have downloads : download (posting ++ (getting ++ concluding)) = download getting := by
    have none₁ := download_eq_none posts' fun op post get => by cases op <;> trivial
    have none₂ := download_eq_none concludes' fun op stores get => by cases op <;> trivial
    rw [download_append, download_append, none₁, none₂, Option.or_none, Option.none_or]
  have storings : stored (posting ++ (getting ++ concluding)) = stored concluding := by
    have none₁ := stored_eq_none posts' fun op post stores => by cases op <;> trivial
    have none₂ := stored_eq_none gets' fun op get stores => by cases op <;> trivial
    rw [stored_append, stored_append, none₁, none₂, Option.none_or, Option.none_or]
  rw [documents, downloads, storings]
  refine ⟨answered, executes_requestGeneration posts, ?_⟩
  rcases executes_withDownload gets with
    ⟨nowhere, nothing, rfl⟩ | ⟨somewhere, url, bytes, given, found, rfl⟩
  · obtain ⟨first, rest, met, result, rfl, conclusion, ends⟩ := concludes.of_bind
    obtain ⟨rfl, rfl, _⟩ := ends.of_done
    rw [nothing, List.append_nil]
    exact .plain nowhere (executes_conclude conclusion)
  · rw [found]
    cases bytes with
    | error thrown =>
      obtain ⟨rfl, rfl, _⟩ := concludes.of_done
      exact .thrown somewhere
    | ok bytes =>
      obtain ⟨first, rest, met, result, rfl, conclusion, ends⟩ := concludes.of_bind
      obtain ⟨rfl, rfl, _⟩ := ends.of_done
      rw [List.append_nil]
      exact .fetched somewhere given (executes_conclude conclusion)

/-- A task that has ended, with an object and without an error if it ended well. -/
structure Sound (task result : ImageGeneration) (trace : Trace) : Prop where
  terminal : result.status.isTerminal = true
  completed : result.completed_at.isSome = true
  success : result.status = Success ↔ mergedStatus task (document trace) ≠ Failed ∧
    downloadedBytes trace ≠ "" ∧ (stored trace).isSome = true
  object : result.status = Success →
    stored trace = some (result.storage_key, downloadedBytes trace) ∧
    result.image_url = s!"/api/images/{task.id}/binary" ∧ result.failure_code = "" ∧
    result.error_message = "" ∧ result.image_bytes = ""

theorem Concluded.sound {object : Option (String × String)}
    (concluded : Concluded generation object result)
    (status : generation.status = mergedStatus task (document trace)) (id : generation.id = task.id)
    (bytes : generation.image_bytes = downloadedBytes trace) (same : stored trace = object) :
    Sound task result trace := by
  cases concluded with
  | @saved key now given answered =>
    rw [status] at answered
    rw [bytes] at given same
    exact
      { terminal := rfl
        completed := rfl
        success := by simp [answered, given, same]
        object := fun _ => ⟨same, by rw [id], rfl, rfl, rfl⟩ }
  | refused =>
    exact
      { terminal := rfl
        completed := rfl
        success := by simp [failed, same]
        object := nofun }
  | missing =>
    exact
      { terminal := rfl
        completed := rfl
        success := by simp [failed, same]
        object := nofun }
  | ended closed terminal unsuccessful =>
    exact
      { terminal := terminal
        completed := rfl
        success := by simp [unsuccessful, same]
        object := fun success => absurd success unsuccessful }

/-- If the download does not throw, a claimed task ends; it ends well exactly if the model
service did not fail it, the image was downloaded and the storage took it. -/
theorem generation_sound {row : Row} {reply : Except Thrown ImageGeneration}
    (ran : Executes (amid config pid) (generate config (ImageRepo.rowToImageGeneration row)) world
      trace reply after)
    (delivers : ∀ thrown, download trace ≠ some (.error thrown)) :
    ∃ result, reply = .ok result ∧ Sound (ImageRepo.rowToImageGeneration row) result trace := by
  obtain ⟨answered, merged, generated⟩ := executes_generate ran
  generalize fetched : download trace = got at generated delivers
  cases generated with
  | plain nowhere concluded =>
    refine ⟨_, rfl, concluded.sound merged.status merged.id ?_ rfl⟩
    rw [merged.image_bytes, downloadedBytes, fetched]
    rfl
  | fetched somewhere given concluded =>
    refine ⟨_, rfl, concluded.sound merged.status merged.id ?_ rfl⟩
    rw [downloadedBytes, fetched]
  | thrown => exact absurd rfl (delivers _)

/-! ## Failures -/

/-- The call returns, and a task that has not succeeded names its failure and nothing else. -/
def FailsCleanly (reply : Except Thrown ImageGeneration) : Prop :=
  ∃ result, reply = .ok result ∧ (result.status ≠ Success →
    result.failure_code ≠ "" ∧ result.storage_key = "" ∧ result.image_url = "" ∧ result.image_bytes = "")

/-- The statuses of an answer that end a task without its image. -/
def TaskStatus.endsWithout : TaskStatus → Bool
  | Failed | Cancelled | Timeout => true
  | _ => false

/-- The model service gave no document; or no url, and no status that ends the task (unless a
failure code is there already); or a url from which the image came, and not the status
that stands for failure. -/
def CleanAnswers (task : ImageGeneration) (trace : Trace) : Prop :=
  document trace = none ∨
  (mergedUrl task (document trace) = "" ∧
    ((mergedStatus task (document trace)).endsWithout = false ∨ task.failure_code ≠ "")) ∨
  (mergedUrl task (document trace) ≠ "" ∧ mergedStatus task (document trace) ≠ Failed ∧
    ∃ bytes, download trace = some (.ok bytes) ∧ bytes ≠ "")

theorem endsWithout_iff {status : TaskStatus} :
    status.endsWithout = true ↔ status.isTerminal = true ∧ status ≠ Success := by
  cases status <;> decide

/-- A concluded task fails cleanly exactly if its image was there, or nothing of one and a
failure is named. -/
theorem Concluded.failsCleanly_iff {object : Option (String × String)}
    (concluded : Concluded generation object result) (key : generation.storage_key = "") :
    FailsCleanly (.ok result) ↔
      (generation.image_bytes ≠ "" ∧ generation.status ≠ Failed) ∨
      (generation.image_bytes = "" ∧ generation.image_url = "" ∧
        (generation.status.endsWithout = false ∨ generation.failure_code ≠ "")) := by
  cases concluded with
  | saved bytes answered => exact ⟨fun _ => .inl ⟨bytes, answered⟩, fun _ => ⟨_, rfl, fun fails => absurd rfl fails⟩⟩
  | refused bytes answered =>
    exact ⟨fun _ => .inl ⟨bytes, answered⟩, fun _ => ⟨_, rfl, fun _ => ⟨by simp [failed, failure.kStorageWriteFailed], rfl, rfl, rfl⟩⟩⟩
  | missing empty claimed =>
    have waits : generation.status.endsWithout = false := by
      rw [← Bool.not_eq_true, endsWithout_iff]
      rintro ⟨terminal, unsuccessful⟩
      exact claimed.elim unsuccessful fun running => running terminal
    constructor
    · rintro ⟨_, same, clean⟩
      cases same
      obtain ⟨_, _, url, _⟩ := clean (by simp [failed])
      exact .inr ⟨empty, url, .inl waits⟩
    · rintro (⟨bytes, _⟩ | ⟨_, url, _⟩)
      · exact absurd empty bytes
      · exact ⟨_, rfl, fun _ => ⟨by simp [failed, failure.kMissingImagePayload], key, url, empty⟩⟩
  | ended closed terminal unsuccessful =>
    have ends : generation.status.endsWithout = true := endsWithout_iff.mpr ⟨terminal, unsuccessful⟩
    constructor
    · rintro ⟨_, same, clean⟩
      cases same
      obtain ⟨code, _, url, empty⟩ := clean unsuccessful
      exact .inr ⟨empty, url, .inr code⟩
    · rintro (⟨bytes, answered⟩ | ⟨empty, url, named⟩)
      · exact absurd closed (not_or.mpr ⟨bytes, answered⟩)
      · have code := named.resolve_left (by simp [ends])
        exact ⟨_, rfl, fun _ => ⟨code, key, url, empty⟩⟩

/-- A claimed task without key and url fails cleanly exactly if the answers are clean. -/
theorem generation_fails_cleanly {row : Row} {reply : Except Thrown ImageGeneration}
    (key : row.storage_key = "") (url : row.image_url = "")
    (ran : Executes (amid config pid) (generate config (ImageRepo.rowToImageGeneration row)) world
      trace reply after) :
    FailsCleanly reply ↔ CleanAnswers (ImageRepo.rowToImageGeneration row) trace := by
  obtain ⟨answered, merged, generated⟩ := executes_generate ran
  have code := merged.code
  have answers : document trace = none → answered.image_url = "" := by
    intro nothing
    rw [merged.image_url, nothing]
    exact url
  rw [CleanAnswers, ← merged.image_url, ← merged.status]
  generalize fetched : download trace = got at generated ⊢
  cases generated with
  | plain nowhere concluded =>
    rw [concluded.failsCleanly_iff (merged.storage_key.trans key)]
    have empty : answered.image_bytes = "" := merged.image_bytes
    cases read : document trace with
    | none =>
      have named : answered.failure_code ≠ "" := by simpa [read] using code
      simp [empty, nowhere, named]
    | some remoteJson =>
      have same : answered.failure_code = (ImageRepo.rowToImageGeneration row).failure_code := by
        simpa [read] using code
      simp [empty, nowhere, same]
  | fetched somewhere given concluded =>
    rw [concluded.failsCleanly_iff (merged.storage_key.trans key)]
    have answeredWith : document trace ≠ none := fun nothing => somewhere (answers nothing)
    simp [given, somewhere, answeredWith, and_comm]
  | thrown somewhere =>
    have answeredWith : document trace ≠ none := fun nothing => somewhere (answers nothing)
    simp [FailsCleanly, somewhere, answeredWith]

/-! ## Two generations -/

/-- A task as its claim leaves it. -/
def claimedRow : Row :=
  { ImageRepo.insertValues { user_id := 1, status := .Generating } 0 with
    id := 1, worker_id := some "backend-worker-1", lease_expires_at := some (Chrono.seconds 900) }

def answering (text : String) (json : Option Json) : Choice := { http := ⟨200, ⟨text, json⟩, none⟩ }

/-- The model service answers with success and a url, and what is downloaded there is this. -/
def urlAnswered (bytes : String) : List ((World → World) × Choice) :=
  withChoices [answering "-" (some (.object
    [("status", .string "success"), ("image_url", .string "/a.png")])), answering bytes none, {}, {}]

/-- What is seen of the outcome. -/
def outcome (reply : Except Thrown ImageGeneration) : Option (TaskStatus × String × String) :=
  reply.toOption.map fun result => (result.status, result.image_url, result.failure_code)

theorem executes_urlAnswered (bytes : String) (seen : Option (TaskStatus × String × String))
    (ran : ((generate defaultConfig (ImageRepo.rowToImageGeneration claimedRow)).runAmong
      (perform defaultConfig 0) (urlAnswered bytes) World.empty).map
        (fun result => outcome result.1) = some seen) :
    ∃ reply after, Executes (amid defaultConfig 0)
      (generate defaultConfig (ImageRepo.rowToImageGeneration claimedRow)) World.empty
      ((generate defaultConfig (ImageRepo.rowToImageGeneration claimedRow)).performed
        (perform defaultConfig 0) (urlAnswered bytes) World.empty) reply after ∧ outcome reply = seen := by
  refine Prog.executes_of_observed (fun _ _ _ => ?_) ran
  trivial

/-- The image is downloaded and stored. -/
theorem generation_sound_stored : ∃ trace result after,
    Executes (amid defaultConfig 0) (generate defaultConfig (ImageRepo.rowToImageGeneration claimedRow))
      World.empty trace (.ok result) after ∧
    Sound (ImageRepo.rowToImageGeneration claimedRow) result trace ∧ result.status = Success := by
  obtain ⟨reply, after, ran, observed⟩ := executes_urlAnswered "png"
    (some (Success, "/api/images/1/binary", "")) (by decide +kernel)
  obtain ⟨result, rfl, sound⟩ := generation_sound ran (by
    intro thrown same
    have delivered : (download ((generate defaultConfig (ImageRepo.rowToImageGeneration claimedRow)).performed
        (perform defaultConfig 0) (urlAnswered "png") World.empty)).map Except.toOption =
          some (some "png") := by decide +kernel
    rw [same] at delivered
    cases delivered)
  simp only [outcome, Except.toOption, Option.map_some, Option.some.injEq, Prod.mk.injEq] at observed
  exact ⟨_, result, after, ran, sound, observed.1⟩

/-- The same, and so nothing is left of a failure. -/
theorem generation_fails_cleanly_stored : ∃ trace reply after,
    Executes (amid defaultConfig 0) (generate defaultConfig (ImageRepo.rowToImageGeneration claimedRow))
      World.empty trace reply after ∧
    outcome reply = some (Success, "/api/images/1/binary", "") ∧
    (FailsCleanly reply ↔ CleanAnswers (ImageRepo.rowToImageGeneration claimedRow) trace) := by
  obtain ⟨reply, after, ran, observed⟩ := executes_urlAnswered "png"
    (some (Success, "/api/images/1/binary", "")) (by decide +kernel)
  exact ⟨_, reply, after, ran, observed, generation_fails_cleanly rfl rfl ran⟩

/-- Nothing can be downloaded: the failed task shows the url. -/
theorem generation_shows_url : ∃ trace reply after,
    Executes (amid defaultConfig 0) (generate defaultConfig (ImageRepo.rowToImageGeneration claimedRow))
      World.empty trace reply after ∧
    outcome reply = some (Failed, "http://127.0.0.1:8000/a.png", "missing_image_payload") ∧
    ¬ FailsCleanly reply := by
  obtain ⟨reply, after, ran, observed⟩ := executes_urlAnswered ""
    (some (Failed, "http://127.0.0.1:8000/a.png", "missing_image_payload")) (by decide +kernel)
  refine ⟨_, reply, after, ran, observed, ?_⟩
  rintro ⟨result, rfl, clean⟩
  simp only [outcome, Except.toOption, Option.map_some, Option.some.injEq, Prod.mk.injEq] at observed
  obtain ⟨failed, shown, _⟩ := observed
  obtain ⟨_, _, url, _⟩ := clean (by rw [failed]; decide)
  rw [shown] at url
  exact absurd url (by decide)

end Text2Image
