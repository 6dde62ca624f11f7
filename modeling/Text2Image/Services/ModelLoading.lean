import Text2Image.Services.GenerationRuns

/-! How threads of the model service load the pipeline: a look without the lock, a look
under it, and one `from_pretrained` for all who wait. Each thread preloads the model or
serves a call of `generate_image`; what a call does after its check is `Service.move`.
-/

set_option autoImplicit false

namespace Text2Image.ModelService

/-- What a thread does next. -/
inductive Point where
  /-- `generate_image`: `if self.pipe is None`. -/
  | enter
  /-- `load_model`: the look without the lock. -/
  | look
  | acquire
  /-- The look under the lock. -/
  | lookAgain
  | set_loading
  /-- `set_last_error("")`. -/
  | clear_error
  | from_pretrained
  /-- The exception handler: `self.pipe = None`. -/
  | discard (what : String)
  | set_error (what : String)
  /-- `finally: set_loading(False)`. -/
  | finish (loaded : Bool)
  | release (loaded : Bool)
  /-- `generate_image`: `if not loaded or self.pipe is None`. -/
  | confirm (loaded : Bool)
  | passed
  | raised
  | returned (loaded : Bool)
  deriving DecidableEq, Repr

/-- The thread has `_load_lock`. -/
def Point.locked : Point → Bool
  | .lookAgain | .set_loading | .clear_error | .from_pretrained | .discard _ | .set_error _
  | .finish _ | .release _ => true
  | _ => false

/-- Between the two calls of `set_loading`. -/
def Point.announced : Point → Bool
  | .clear_error | .from_pretrained | .discard _ | .set_error _ | .finish _ => true
  | _ => false

/-- A call of `generate_image`, by its number, or a preload. -/
structure Thread where
  call : Option Nat := none
  force : Bool := false
  point : Point
  deriving DecidableEq, Repr

/-- `load_model` returns to the check of its call, or to whoever preloads. -/
def Thread.back (thread : Thread) (loaded : Bool) : Point :=
  if thread.call.isSome then .confirm loaded else .returned loaded

/-- How often a pipeline has been put in place is counted beside. -/
structure Loader where
  service : Service
  lock : Option Nat := none
  built : Nat := 0
  threads : List Thread := []

namespace Loader

inductive Step where
  /-- The service is initialized, at the start of the application. -/
  | preload (force : Bool)
  | generate_image
  /-- The thread's next action; the pipeline comes up, or `from_pretrained` throws. -/
  | act (thread : Nat) (result : Except String Unit)
  /-- A step of a call after its check, or of time. -/
  | goesOn (step : ModelService.Step)

/-- The steps that are not part of loading. -/
def ofGeneration : ModelService.Step → Bool
  | .acquire _ | .mark_started _ | .mark_finished _ | .release _ | .tick _ | .set_last_error _ => true
  | .call | .loaded _ | .set_loading _ | .check _ => false

variable (loader : Loader)

def goTo (index : Nat) (thread : Thread) (point : Point) : Loader :=
  { loader with threads := loader.threads.set index { thread with point := point } }

def tells (step : ModelService.Step) : Loader := { loader with service := loader.service.move step }

/-- The call is let through to the semaphore. -/
def letThrough (index : Nat) (thread : Thread) : Loader :=
  match thread.call with
  | some call => (loader.tells (.check call)).goTo index thread .passed
  | none => loader.goTo index thread .passed

def actOf (index : Nat) (thread : Thread) (result : Except String Unit) : Loader :=
  match thread.point with
  | .enter =>
    if loader.service.pipe then loader.letThrough index thread else loader.goTo index thread .look
  | .look =>
    if loader.service.pipe ∧ ¬ thread.force then loader.goTo index thread (thread.back true)
    else loader.goTo index thread .acquire
  | .acquire =>
    if loader.lock = none then { loader.goTo index thread .lookAgain with lock := some index } else loader
  | .lookAgain =>
    if loader.service.pipe ∧ ¬ thread.force then loader.goTo index thread (.release true)
    else loader.goTo index thread .set_loading
  | .set_loading => (loader.tells (.set_loading true)).goTo index thread .clear_error
  | .clear_error => (loader.tells (.set_last_error "")).goTo index thread .from_pretrained
  | .from_pretrained =>
    match result with
    | .ok _ => { (loader.tells (.loaded true)).goTo index thread (.finish true) with built := loader.built + 1 }
    | .error what => loader.goTo index thread (.discard what)
  | .discard what =>
    { loader.goTo index thread (.set_error what) with service := { loader.service with pipe := false } }
  | .set_error what => (loader.tells (.set_last_error what)).goTo index thread (.finish false)
  | .finish loaded => (loader.tells (.set_loading false)).goTo index thread (.release loaded)
  | .release loaded => { loader.goTo index thread (thread.back loaded) with lock := none }
  | .confirm loaded =>
    if loaded ∧ loader.service.pipe then loader.letThrough index thread
    else loader.goTo index thread .raised
  | .passed | .raised | .returned _ => loader

def step : Step → Loader
  | .preload force =>
    { loader with threads := loader.threads ++ [{ force := force, point := .look }] }
  | .generate_image =>
    { loader.tells .call with
      threads := loader.threads ++ [{ call := some loader.service.calls.length, point := .enter }] }
  | .act index result =>
    match loader.threads[index]? with
    | some thread => loader.actOf index thread result
    | none => loader
  | .goesOn step => if ofGeneration step then loader.tells step else loader

def start (max_concurrent_generations : Nat) : Loader :=
  { service := Service.start max_concurrent_generations }

def run (max_concurrent_generations : Nat) (steps : List Step) : Loader :=
  steps.foldl step (start max_concurrent_generations)

end Loader

end Text2Image.ModelService
