import Mathlib.Algebra.Order.Ring.Unbundled.Rat
import Text2Image.Services.ModelHealthGate

/-! The model service's record of what it is doing, and its health report. -/

set_option autoImplicit false

namespace Text2Image.ModelService

/-- Times are seconds of a monotonic clock. -/
structure GenerationState where
  is_loading : Bool := false
  active_generations : Int := 0
  active_kind : String := "none"
  last_error : String := ""
  active_generation_starts : List Rat := []

namespace GenerationState

variable (state : GenerationState)

def set_loading (value : Bool) : GenerationState := { state with is_loading := value }

def set_last_error (value : String) : GenerationState := { state with last_error := value }

def mark_generation_started (kind : String) (now : Rat) : GenerationState :=
  let starts := state.active_generation_starts ++ [now]
  { state with
    active_generation_starts := starts
    active_generations := starts.length
    active_kind := kind }

def mark_generation_finished : GenerationState :=
  let starts := state.active_generation_starts.drop 1
  { state with
    active_generation_starts := starts
    active_generations := starts.length
    active_kind := if starts.length = 0 then "none" else state.active_kind }

/-- The age of the oldest active generation, in whole seconds. -/
def active_seconds (now : Rat) : Int :=
  match state.active_generation_starts.min? with
  | some active_started_at => (max 0 (now - active_started_at)).floor
  | none => 0

def is_generating : Bool := state.active_generations > 0

end GenerationState

structure Snapshot where
  status : String
  model_loaded : Bool
  is_loading : Bool
  is_generating : Bool
  active_generations : Int
  active_kind : String
  active_seconds : Int
  busy_unhealthy_seconds : Int
  detail : String

def overdueDetail (active_kind : String) (busy_unhealthy_seconds : Int) : String :=
  s!"active {active_kind} exceeded {busy_unhealthy_seconds}s health threshold"

def GenerationState.snapshot (state : GenerationState) (model_loaded : Bool)
    (busy_unhealthy_seconds : Int) (now : Rat) : Snapshot :=
  let active_seconds := state.active_seconds now
  let overdue := model_loaded && state.is_generating && active_seconds > busy_unhealthy_seconds
  { status :=
      if ¬ model_loaded then if state.is_loading then "loading" else "unhealthy"
      else if state.is_generating then
        if active_seconds > busy_unhealthy_seconds then "unhealthy" else "busy"
      else "healthy"
    model_loaded := model_loaded
    is_loading := state.is_loading
    is_generating := state.is_generating
    active_generations := state.active_generations
    active_kind := state.active_kind
    active_seconds := active_seconds
    busy_unhealthy_seconds := busy_unhealthy_seconds
    detail :=
      if overdue ∧ state.last_error.isEmpty then
        overdueDetail state.active_kind busy_unhealthy_seconds
      else state.last_error }

/-- What the report says besides the snapshot. -/
structure Host where
  timestamp : String
  device : String
  dtype : String
  max_concurrent_generations : Int

/-- The body of `GET /health`. -/
def health_check (health : Snapshot) (host : Host) : Json :=
  .object ([("status", .string health.status), ("timestamp", .string host.timestamp),
    ("device", .string host.device), ("dtype", .string host.dtype),
    ("model_loaded", .boolean health.model_loaded), ("is_loading", .boolean health.is_loading),
    ("is_generating", .boolean health.is_generating),
    ("active_generations", .integer health.active_generations),
    ("active_kind", .string health.active_kind), ("active_seconds", .integer health.active_seconds),
    ("max_concurrent_generations", .integer host.max_concurrent_generations),
    ("busy_unhealthy_seconds", .integer health.busy_unhealthy_seconds)] ++
    if health.detail.isEmpty then [] else [("detail", .string health.detail)])

/-! ## What the service does to the record -/

inductive Event where
  | loading (value : Bool)
  | error (value : String)
  | started (now : Rat)
  | finished

/-- Every generation is marked with the kind `generate`. -/
def GenerationState.after (state : GenerationState) : Event → GenerationState
  | .loading value => state.set_loading value
  | .error value => state.set_last_error value
  | .started now => state.mark_generation_started "generate" now
  | .finished => state.mark_generation_finished

/-- The count is that of the starts, and only something active has a kind. -/
structure GenerationState.Consistent (state : GenerationState) : Prop where
  counted : state.active_generations = state.active_generation_starts.length
  kind : state.active_kind = if state.active_generation_starts.length = 0 then "none" else "generate"

theorem GenerationState.Consistent.after {state : GenerationState} (consistent : state.Consistent)
    (event : Event) : (state.after event).Consistent := by
  cases event with
  | loading value => exact ⟨consistent.counted, consistent.kind⟩
  | error value => exact ⟨consistent.counted, consistent.kind⟩
  | started now =>
    constructor
    · rfl
    · simp [GenerationState.after, mark_generation_started]
  | finished =>
    constructor
    · rfl
    · simp only [GenerationState.after, mark_generation_finished, consistent.kind, List.length_drop]
      split
      · rfl
      · rename_i busy
        have before : state.active_generation_starts.length ≠ 0 := by omega
        rw [if_neg before]

end Text2Image.ModelService
