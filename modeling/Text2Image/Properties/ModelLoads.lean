import Text2Image.Services.ModelLoading

/-! The model is loaded by one thread at a time, the record says when, and unless a thread
forces it, it is loaded once and never lost.
-/

set_option autoImplicit false

namespace Text2Image.ModelService

/-- Only the loading of the pipeline says that it is loading. -/
theorem Service.move_is_loading (service : Service) (step : Step) : (service.move step).state.is_loading =
    match step with
    | .set_loading value => value
    | _ => service.state.is_loading := by
  cases step with
  | check | acquire | mark_started | release =>
    simp only [Service.move]
    split <;> rfl
  | mark_finished =>
    simp only [Service.move]
    split <;> rfl
  | _ => rfl

/-- Only a load that has come up changes the pipeline. -/
theorem Service.move_pipe (service : Service) (step : Step) : (service.move step).pipe =
    match step with
    | .loaded done => service.pipe || done
    | _ => service.pipe := by
  cases step with
  | check | acquire | mark_started | release =>
    simp only [Service.move]
    split <;> rfl
  | mark_finished =>
    simp only [Service.move]
    split <;> rfl
  | _ => rfl

namespace Loader

variable {loader after : Loader} {index : Nat} {thread : Thread} {point : Point} {limit : Nat}

/-! ## One thread at a time -/

/-- The point of the thread that has the lock. -/
def holder (loader : Loader) : Option Point :=
  loader.lock.bind fun index => loader.threads[index]?.map Thread.point

/-- Who has the lock is where the lock says, and the record says what that thread has announced. -/
structure Sound (loader : Loader) : Prop where
  locked : ∀ index thread, loader.threads[index]? = some thread →
    (thread.point.locked = true ↔ loader.lock = some index)
  held : ∀ index, loader.lock = some index → index < loader.threads.length
  recorded : loader.service.state.is_loading = loader.holder.any Point.announced

theorem Sound.not_loading (sound : loader.Sound) (free : loader.lock = none) :
    loader.service.state.is_loading = false := by
  rw [sound.recorded, holder, free]
  rfl

theorem Sound.announced (sound : loader.Sound) (found : loader.threads[index]? = some thread)
    (locked : thread.point.locked = true) : loader.service.state.is_loading = thread.point.announced := by
  have own := (sound.locked index thread found).mp locked
  rw [sound.recorded, holder, own, Option.bind_some, found]
  rfl

theorem Sound.loading_at (sound : loader.Sound) (found : loader.threads[index]? = some thread)
    (here : thread.point = point) (locked : point.locked = true) :
    loader.service.state.is_loading = point.announced := by
  subst here
  exact sound.announced found locked

theorem getElem?_set_of_ne {other : Nat} (apart : other ≠ index) (threads : List Thread) (next : Thread) :
    (threads.set index next)[other]? = threads[other]? := List.getElem?_set_ne (Ne.symm apart)

theorem getElem?_set_self (found : loader.threads[index]? = some thread) (next : Thread) :
    (loader.threads.set index next)[index]? = some next := by
  obtain ⟨inside, _⟩ := List.getElem?_eq_some_iff.mp found
  rw [List.getElem?_set_self inside]

/-- One thread comes to its next point; the others stay where they are. -/
theorem Sound.goes (sound : loader.Sound) (found : loader.threads[index]? = some thread)
    (threads : after.threads = loader.threads.set index { thread with point := point })
    (own : point.locked = true ↔ after.lock = some index)
    (others : ∀ other, other ≠ index → (after.lock = some other ↔ loader.lock = some other))
    (recorded : after.service.state.is_loading =
      if point.locked then point.announced else
        if thread.point.locked then false else loader.service.state.is_loading) : after.Sound where
  locked other next there := by
    rw [threads] at there
    by_cases same : other = index
    · subst same
      rw [getElem?_set_self found] at there
      cases there
      exact own
    · rw [getElem?_set_of_ne same] at there
      exact (sound.locked other next there).trans (others other same).symm
  held other taken := by
    rw [threads, List.length_set]
    by_cases same : other = index
    · exact same ▸ (List.getElem?_eq_some_iff.mp found).1
    · exact sound.held other ((others other same).mp taken)
  recorded := by
    rw [recorded, holder, threads]
    cases taken : after.lock with
    | none =>
      have unlocked : point.locked ≠ true := fun locked => by
        rw [own.mp locked] at taken
        cases taken
      rw [if_neg unlocked]
      split
      · rfl
      · rename_i outside
        refine sound.not_loading (Option.eq_none_iff_forall_ne_some.mpr fun other held => ?_)
        by_cases same : other = index
        · exact outside ((sound.locked index thread found).mpr (same ▸ held))
        · rw [(others other same).mpr held] at taken
          cases taken
    | some other =>
      by_cases same : other = index
      · subst same
        rw [if_pos (own.mpr taken), Option.bind_some, getElem?_set_self found]
        rfl
      · have unlocked : point.locked ≠ true := fun locked => by
          rw [own.mp locked] at taken
          exact same (Option.some.inj taken).symm
        have held := (others other same).mp taken
        have outside : thread.point.locked ≠ true := fun locked => by
          rw [(sound.locked index thread found).mp locked] at held
          exact same (Option.some.inj held).symm
        rw [if_neg unlocked, if_neg outside, Option.bind_some, getElem?_set_of_ne same, sound.recorded, holder, held]
        rfl

/-- A thread without the lock goes on without it. -/
theorem Sound.outside (sound : loader.Sound) (found : loader.threads[index]? = some thread)
    (before : thread.point.locked = false) (next : point.locked = false)
    (threads : after.threads = loader.threads.set index { thread with point := point })
    (lock : after.lock = loader.lock)
    (recorded : after.service.state.is_loading = loader.service.state.is_loading) : after.Sound := by
  refine sound.goes found threads ?_ (fun other _ => by rw [lock]) ?_
  · rw [lock, next, ← sound.locked index thread found, before]
  · rw [recorded, next, before]
    rfl

/-- The thread with the lock goes on with it, and sees to the record. -/
theorem Sound.inside (sound : loader.Sound) (found : loader.threads[index]? = some thread)
    (before : thread.point.locked = true) (next : point.locked = true)
    (threads : after.threads = loader.threads.set index { thread with point := point })
    (lock : after.lock = loader.lock) (recorded : after.service.state.is_loading = point.announced) :
    after.Sound := by
  refine sound.goes found threads ?_ (fun other _ => by rw [lock]) ?_
  · rw [lock, next, ← sound.locked index thread found, before]
  · rw [recorded, next, if_pos rfl]

theorem back_unlocked (thread : Thread) (loaded : Bool) : (thread.back loaded).locked = false := by
  unfold Thread.back
  split <;> rfl

theorem letThrough_threads (loader : Loader) (index : Nat) (thread : Thread) :
    (loader.letThrough index thread).threads = loader.threads.set index { thread with point := .passed } := by
  unfold letThrough
  split <;> rfl

theorem letThrough_lock (loader : Loader) (index : Nat) (thread : Thread) :
    (loader.letThrough index thread).lock = loader.lock := by
  unfold letThrough
  split <;> rfl

theorem letThrough_is_loading (loader : Loader) (index : Nat) (thread : Thread) :
    (loader.letThrough index thread).service.state.is_loading = loader.service.state.is_loading := by
  unfold letThrough
  split
  · exact loader.service.move_is_loading _
  · rfl

/-- What a thread does keeps the lock and the record in step, one case for each point. -/
theorem Sound.actOf (sound : loader.Sound) (found : loader.threads[index]? = some thread)
    (result : Except String Unit) : (loader.actOf index thread result).Sound := by
  unfold Loader.actOf
  split
  · -- before the lock: `enter`, `look`
    rename_i point
    split
    · exact sound.outside found (by rw [point]; rfl) rfl (letThrough_threads ..) (letThrough_lock ..)
        (letThrough_is_loading ..)
    · exact sound.outside found (by rw [point]; rfl) rfl rfl rfl rfl
  · rename_i point
    split
    · exact sound.outside found (by rw [point]; rfl) (back_unlocked thread true) rfl rfl rfl
    · exact sound.outside found (by rw [point]; rfl) rfl rfl rfl rfl
  · -- `acquire`
    rename_i point
    have before : thread.point.locked = false := by rw [point]; rfl
    split
    · rename_i free
      refine sound.goes found rfl (iff_of_true rfl rfl) (fun other apart => ?_) ?_
      · -- the lock was free, and now the thread has it
        rw [free]
        constructor
        · exact fun taken => absurd (Option.some.inj taken).symm apart
        · exact nofun
      · exact sound.not_loading free
    · exact sound
  · -- under the lock: `lookAgain`, `set_loading`, `clear_error`, `from_pretrained`
    rename_i point
    have before : thread.point.locked = true := by rw [point]; rfl
    have silent : loader.service.state.is_loading = false := sound.loading_at found point rfl
    split
    · exact sound.inside found before rfl rfl rfl silent
    · exact sound.inside found before rfl rfl rfl silent
  · rename_i point
    exact sound.inside found (by rw [point]; rfl) rfl rfl rfl (loader.service.move_is_loading _)
  · rename_i point
    have before : thread.point.locked = true := by rw [point]; rfl
    have loading : loader.service.state.is_loading = true := sound.loading_at found point rfl
    exact sound.inside found before rfl rfl rfl ((loader.service.move_is_loading _).trans loading)
  · rename_i point
    have before : thread.point.locked = true := by rw [point]; rfl
    have loading : loader.service.state.is_loading = true := sound.loading_at found point rfl
    split
    · exact sound.inside found before rfl rfl rfl ((loader.service.move_is_loading _).trans loading)
    · exact sound.inside found before rfl rfl rfl loading
  · -- the exception handler: `discard`, `set_error`
    rename_i what point
    have before : thread.point.locked = true := by rw [point]; rfl
    have loading : loader.service.state.is_loading = true := sound.loading_at found point rfl
    exact sound.inside found before rfl rfl rfl loading
  · rename_i what point
    have before : thread.point.locked = true := by rw [point]; rfl
    have loading : loader.service.state.is_loading = true := sound.loading_at found point rfl
    exact sound.inside found before rfl rfl rfl ((loader.service.move_is_loading _).trans loading)
  · -- `finish`, where the record is cleared while the lock is still held
    rename_i loaded point
    exact sound.inside found (by rw [point]; rfl) rfl rfl rfl (loader.service.move_is_loading _)
  · rename_i loaded point
    have before : thread.point.locked = true := by rw [point]; rfl
    have held := (sound.locked index thread found).mp before
    refine sound.goes found rfl ?_ (fun other apart => ?_) ?_
    · rw [back_unlocked]
      exact iff_of_false nofun nofun
    · -- nobody has the lock now, and nobody else had it
      refine iff_of_false nofun fun other' => apart ?_
      rw [held] at other'
      exact (Option.some.inj other').symm
    · rw [back_unlocked, before]
      exact sound.loading_at found point rfl
  · rename_i loaded point
    split
    · exact sound.outside found (by rw [point]; rfl) rfl (letThrough_threads ..) (letThrough_lock ..)
        (letThrough_is_loading ..)
    · exact sound.outside found (by rw [point]; rfl) rfl rfl rfl rfl
  · exact sound
  · exact sound
  · exact sound

/-- A thread that starts stands outside the lock. -/
theorem Sound.enters (sound : loader.Sound) {next : Thread} (unlocked : next.point.locked = false)
    (threads : after.threads = loader.threads ++ [next]) (lock : after.lock = loader.lock)
    (recorded : after.service.state.is_loading = loader.service.state.is_loading) : after.Sound where
  locked index thread there := by
    rw [threads] at there
    rw [lock]
    by_cases inside : index < loader.threads.length
    · rw [List.getElem?_append_left inside] at there
      exact sound.locked index thread there
    · rw [List.getElem?_append_right (Nat.not_lt.mp inside)] at there
      obtain rfl := List.mem_singleton.mp (List.mem_of_getElem? there)
      exact iff_of_false (by rw [unlocked]; nofun) fun taken => inside (sound.held index taken)
  held index taken := by
    rw [threads, List.length_append]
    exact Nat.lt_add_right _ (sound.held index (lock ▸ taken))
  recorded := by
    rw [recorded, sound.recorded, holder, holder, lock, threads]
    cases taken : loader.lock with
    | none => rfl
    | some index => rw [Option.bind_some, Option.bind_some, List.getElem?_append_left (sound.held index taken)]

theorem Sound.tells (sound : loader.Sound) {step : ModelService.Step} (generates : ofGeneration step = true) :
    (loader.tells step).Sound where
  locked := sound.locked
  held := sound.held
  recorded := by
    refine (loader.service.move_is_loading step).trans (Eq.trans ?_ sound.recorded)
    cases step <;> first | rfl | cases generates

theorem Sound.step (sound : loader.Sound) (step : Step) : (loader.step step).Sound := by
  cases step with
  | preload force => exact sound.enters rfl rfl rfl rfl
  | generate_image => exact sound.enters rfl rfl rfl (loader.service.move_is_loading _)
  | act index result =>
    simp only [Loader.step]
    split
    · rename_i thread found
      exact sound.actOf found result
    · exact sound
  | goesOn step =>
    simp only [Loader.step]
    split
    · rename_i generates
      exact sound.tells generates
    · exact sound

theorem sound_run (limit : Nat) (steps : List Step) : (run limit steps).Sound := by
  have kept : ∀ loader : Loader, loader.Sound → (steps.foldl Loader.step loader).Sound := by
    induction steps with
    | nil => exact fun _ sound => sound
    | cons step steps ih => exact fun loader sound => ih _ (sound.step step)
  exact kept _ ⟨fun _ _ => nofun, fun _ => nofun, rfl⟩

/-- At most one thread has the lock. -/
theorem Sound.alone (sound : loader.Sound) {first second : Nat} {a b : Thread}
    (left : loader.threads[first]? = some a) (right : loader.threads[second]? = some b)
    (locked : a.point.locked = true) (locked' : b.point.locked = true) : first = second := by
  have held := (sound.locked first a left).mp locked
  rw [(sound.locked second b right).mp locked'] at held
  exact (Option.some.inj held).symm

theorem Point.locked_of_announced (announced : point.announced = true) : point.locked = true := by
  cases point <;> first | rfl | cases announced

/-- The record says so exactly while a thread is loading. -/
theorem Sound.is_loading_iff (sound : loader.Sound) : loader.service.state.is_loading = true ↔
    ∃ thread ∈ loader.threads, thread.point.announced = true := by
  constructor
  · intro loading
    rw [sound.recorded] at loading
    obtain ⟨point, held, announced⟩ := (Option.any_eq_true _ _).mp loading
    obtain ⟨index, _, there⟩ := Option.bind_eq_some_iff.mp held
    obtain ⟨thread, found, rfl⟩ := Option.map_eq_some_iff.mp there
    exact ⟨thread, List.mem_of_getElem? found, announced⟩
  · rintro ⟨thread, member, announced⟩
    obtain ⟨index, found⟩ := List.mem_iff_getElem?.mp member
    rw [sound.announced found (Point.locked_of_announced announced), announced]

/-! ## Loaded once -/

/-- What a thread may rely on while nobody forces a reload. -/
def Point.Finds (pipe : Bool) : Point → Prop
  | .set_loading | .clear_error | .from_pretrained | .discard _ | .set_error _ | .finish false | .release false =>
    pipe = false
  | .finish true | .release true | .confirm true | .returned true | .passed => pipe = true
  | _ => True

/-- Without the lock nothing can be found that a load would change. -/
theorem Point.Finds.load {pipe : Bool} (finds : Point.Finds pipe point) (unlocked : point.locked = false) :
    Point.Finds true point := by
  cases point with
  | confirm loaded | returned loaded => cases loaded <;> trivial
  | enter | look | acquire | passed | raised => trivial
  | _ => cases unlocked

structure Once (limit : Nat) (loader : Loader) : Prop where
  unforced : ∀ thread ∈ loader.threads, thread.force = false
  built : loader.built = loader.service.pipe.toNat
  finds : ∀ thread ∈ loader.threads, Point.Finds loader.service.pipe thread.point
  refines : ∃ steps, loader.service = Service.run limit steps

/-- One thread comes to its next point. Another finds what it found, or a pipeline where it had not
yet looked.
-/
theorem Once.goes (once : loader.Once limit) (sound : loader.Sound)
    (found : loader.threads[index]? = some thread)
    (threads : after.threads = loader.threads.set index { thread with point := point })
    (service : after.service = loader.service ∨ ∃ step, after.service = loader.service.move step)
    (built : after.built = after.service.pipe.toNat) (own : Point.Finds after.service.pipe point)
    (pipe : after.service.pipe = loader.service.pipe ∨ after.service.pipe = true ∧ thread.point.locked = true) :
    after.Once limit where
  unforced next member := by
    rw [threads] at member
    rcases List.mem_or_eq_of_mem_set member with old | rfl
    · exact once.unforced next old
    · exact once.unforced thread (List.mem_of_getElem? found)
  built := built
  finds next member := by
    obtain ⟨other, there⟩ := List.mem_iff_getElem?.mp member
    rw [threads] at there
    by_cases same : other = index
    · subst same
      rw [getElem?_set_self found] at there
      cases there
      exact own
    · rw [getElem?_set_of_ne same] at there
      have before := once.finds next (List.mem_of_getElem? there)
      rcases pipe with kept | ⟨loaded, locked⟩
      · exact kept ▸ before
      · rw [loaded]
        exact before.load (Bool.eq_false_iff.mpr fun locked' => same (sound.alone there found locked' locked))
  refines := by
    obtain ⟨steps, run⟩ := once.refines
    rcases service with kept | ⟨step, moved⟩
    · exact ⟨steps, kept.trans run⟩
    · refine ⟨steps ++ [step], ?_⟩
      rw [moved, run, Service.run, Service.run, List.foldl_append, List.foldl_cons, List.foldl_nil]

/-- Nothing of the service changes. -/
theorem Once.turns (once : loader.Once limit) (sound : loader.Sound)
    (found : loader.threads[index]? = some thread)
    (threads : after.threads = loader.threads.set index { thread with point := point })
    (service : after.service = loader.service) (built : after.built = loader.built)
    (own : Point.Finds loader.service.pipe point) : after.Once limit :=
  once.goes sound found threads (.inl service) (by rw [built, service, once.built]) (service ▸ own)
    (.inl (by rw [service]))

/-- The service moves, but not its pipeline. -/
theorem Once.tells (once : loader.Once limit) (sound : loader.Sound)
    (found : loader.threads[index]? = some thread) (step : ModelService.Step)
    (threads : after.threads = loader.threads.set index { thread with point := point })
    (service : after.service = loader.service.move step) (built : after.built = loader.built)
    (kept : (loader.service.move step).pipe = loader.service.pipe)
    (own : Point.Finds loader.service.pipe point) : after.Once limit := by
  refine once.goes sound found threads (.inr ⟨step, service⟩) ?_ ?_ (.inl ?_)
  · rw [built, service, kept, once.built]
  · rw [service, kept]
    exact own
  · rw [service, kept]

theorem Once.letThrough (once : loader.Once limit) (sound : loader.Sound)
    (found : loader.threads[index]? = some thread) (pipe : loader.service.pipe = true) :
    (loader.letThrough index thread).Once limit := by
  unfold Loader.letThrough
  split
  · rename_i call _
    exact once.tells sound found (.check call) rfl rfl rfl (loader.service.move_pipe _) pipe
  · exact once.turns sound found rfl rfl rfl pipe

theorem Once.back (thread : Thread) {loaded : Bool} {pipe : Bool} (finds : loaded = true → pipe = true) :
    Point.Finds pipe (thread.back loaded) := by
  unfold Thread.back
  cases loaded with
  | false => split <;> trivial
  | true => split <;> exact finds rfl

/-- What a thread does loads no second pipeline, and loses none. -/
theorem Once.actOf (once : loader.Once limit) (sound : loader.Sound)
    (found : loader.threads[index]? = some thread) (result : Except String Unit) :
    (loader.actOf index thread result).Once limit := by
  have finds := once.finds thread (List.mem_of_getElem? found)
  have unforced := once.unforced thread (List.mem_of_getElem? found)
  unfold Loader.actOf
  split
  · split
    · rename_i pipe
      exact once.letThrough sound found pipe
    · exact once.turns sound found rfl rfl rfl trivial
  · split
    · rename_i loaded
      exact once.turns sound found rfl rfl rfl (Once.back thread fun _ => loaded.1)
    · exact once.turns sound found rfl rfl rfl trivial
  · split
    · exact once.turns sound found rfl rfl rfl trivial
    · exact once
  · split
    · rename_i loaded
      exact once.turns sound found rfl rfl rfl loaded.1
    · -- nobody forces: the pipeline is missing
      rename_i missing
      have empty : loader.service.pipe = false := by
        refine Bool.eq_false_iff.mpr fun pipe => missing ⟨pipe, ?_⟩
        rw [unforced]
        nofun
      exact once.turns sound found rfl rfl rfl empty
  · rename_i point
    rw [point] at finds
    exact once.tells sound found (.set_loading true) rfl rfl rfl rfl finds
  · rename_i point
    rw [point] at finds
    exact once.tells sound found (.set_last_error "") rfl rfl rfl rfl finds
  · rename_i point
    rw [point] at finds
    have missing : loader.service.pipe = false := finds
    -- the pipeline that comes up is the first
    split
    · have loaded : (loader.service.move (.loaded true)).pipe = true := Bool.or_true _
      refine once.goes sound found rfl (.inr ⟨.loaded true, rfl⟩) ?_ loaded (.inr ⟨loaded, by rw [point]; rfl⟩)
      have first : loader.built = 0 := by rw [once.built, missing]; rfl
      show loader.built + 1 = (loader.service.move (.loaded true)).pipe.toNat
      rw [first, loaded]
      rfl
    · exact once.turns sound found rfl rfl rfl finds
  · rename_i what point
    rw [point] at finds
    have missing : loader.service.pipe = false := finds
    -- a load that was not forced has no pipeline to lose
    have same : { loader.service with pipe := false } = loader.service := by rw [← missing]
    exact once.turns sound found rfl same rfl finds
  · rename_i what point
    rw [point] at finds
    exact once.tells sound found (.set_last_error what) rfl rfl rfl rfl finds
  · rename_i loaded point
    rw [point] at finds
    refine once.tells sound found (.set_loading false) rfl rfl rfl rfl ?_
    cases loaded <;> exact finds
  · rename_i loaded point
    rw [point] at finds
    refine once.turns sound found rfl rfl rfl (Once.back thread fun came => ?_)
    rw [came] at finds
    exact finds
  · split
    · rename_i loaded
      exact once.letThrough sound found loaded.2
    · exact once.turns sound found rfl rfl rfl trivial
  · exact once
  · exact once
  · exact once

/-- A thread that starts has found nothing yet. -/
theorem Once.step (once : loader.Once limit) (sound : loader.Sound) {step : Step} (plain : step ≠ .preload true) :
    (loader.step step).Once limit := by
  have refines : ∀ moved : ModelService.Step, ∃ steps, loader.service.move moved = Service.run limit steps := by
    intro moved
    obtain ⟨steps, run⟩ := once.refines
    refine ⟨steps ++ [moved], ?_⟩
    rw [run, Service.run, Service.run, List.foldl_append, List.foldl_cons, List.foldl_nil]
  cases step with
  | preload force =>
    have unforced : force = false := Bool.eq_false_iff.mpr fun same => plain (same ▸ rfl)
    refine ⟨fun thread member => ?_, once.built, fun thread member => ?_, once.refines⟩
    · rcases List.mem_append.mp member with old | new
      · exact once.unforced thread old
      · rw [List.mem_singleton.mp new]
        exact unforced
    · rcases List.mem_append.mp member with old | new
      · exact once.finds thread old
      · rw [List.mem_singleton.mp new]
        trivial
  | generate_image =>
    refine ⟨fun thread member => ?_, once.built, fun thread member => ?_, refines .call⟩
    · rcases List.mem_append.mp member with old | new
      · exact once.unforced thread old
      · rw [List.mem_singleton.mp new]
    · rcases List.mem_append.mp member with old | new
      · exact once.finds thread old
      · rw [List.mem_singleton.mp new]
        trivial
  | act index result =>
    simp only [Loader.step]
    split
    · rename_i thread found
      exact once.actOf sound found result
    · exact once
  | goesOn moved =>
    simp only [Loader.step]
    split
    · rename_i generates
      have kept : (loader.service.move moved).pipe = loader.service.pipe := by
        refine (loader.service.move_pipe moved).trans ?_
        cases moved <;> first | rfl | cases generates
      refine ⟨once.unforced, ?_, fun thread member => ?_, refines moved⟩
      · exact once.built.trans (congrArg Bool.toNat kept.symm)
      · exact kept.symm ▸ once.finds thread member
    · exact once

theorem once_run (limit : Nat) {steps : List Step} (plain : ∀ step ∈ steps, step ≠ .preload true) :
    (run limit steps).Once limit := by
  have kept : ∀ loader : Loader, loader.Sound → loader.Once limit → (steps.foldl Loader.step loader).Once limit := by
    induction steps with
    | nil => exact fun _ _ once => once
    | cons step steps ih =>
      obtain ⟨first, rest⟩ := List.forall_mem_cons.mp plain
      exact fun loader sound once => ih rest _ (sound.step step) (once.step sound first)
  refine kept _ ⟨fun _ _ => nofun, fun _ => nofun, rfl⟩ ⟨?_, rfl, ?_, [], rfl⟩
  · intro thread member
    cases member
  · intro thread member
    cases member

/-- One load at a time, as the record says; one that comes up in all, for every thread that waits;
and what becomes of the service is a run of it.
-/
structure LoadsOnce (limit : Nat) (loader : Loader) : Prop where
  alone : ∀ (first second : Nat) (a b : Thread), loader.threads[first]? = some a →
    loader.threads[second]? = some b → a.point.announced = true → b.point.announced = true → first = second
  recorded : loader.service.state.is_loading = true ↔ ∃ thread ∈ loader.threads, thread.point.announced = true
  built : loader.built = if loader.service.pipe then 1 else 0
  loaded : ∀ thread ∈ loader.threads, thread.point ∈ [.confirm true, .returned true, .passed] →
    loader.service.pipe = true
  refines : ∃ steps, loader.service = Service.run limit steps

/-- However threads that preload the model and calls of `generate_image` take turns, if no reload
is forced.
-/
theorem model_loads_once (limit : Nat) (steps : List Step) (plain : ∀ step ∈ steps, step ≠ .preload true) :
    (run limit steps).LoadsOnce limit := by
  have sound := sound_run limit steps
  have once := once_run limit plain
  refine ⟨?_, sound.is_loading_iff, ?_, ?_, once.refines⟩
  · intro first second a b left right announced announced'
    exact sound.alone left right (Point.locked_of_announced announced) (Point.locked_of_announced announced')
  · rw [once.built]
    cases (run limit steps).service.pipe <;> rfl
  · intro thread member point
    have finds := once.finds thread member
    rcases List.mem_cons.mp point with same | others
    · rw [same] at finds
      exact finds
    · rcases List.mem_cons.mp others with same | last
      · rw [same] at finds
        exact finds
      · rw [List.mem_singleton.mp last] at finds
        exact finds

/-! ## A preload that fails -/

/-- A thread acts this often, its load coming to this end. -/
def acting (thread times : Nat) (result : Except String Unit) : List Step :=
  List.replicate times (.act thread result)

/-- Two calls arrive while the model is preloaded; the preload fails, and the first call loads the
model for both.
-/
def racing : List Step :=
  [.preload false, .generate_image, .generate_image] ++ acting 0 2 (.ok ()) ++ acting 1 3 (.ok ()) ++
    acting 2 3 (.ok ()) ++ acting 0 8 (.error "no such directory") ++ acting 1 8 (.ok ()) ++ acting 2 4 (.ok ())

theorem model_loads_once_racing : (run 1 racing).threads.map Thread.point = [.returned false, .passed, .passed] ∧
    (run 1 racing).LoadsOnce 1 := by
  have plain : ∀ step ∈ racing, step ≠ .preload true := by
    intro step member same
    rw [same] at member
    simp [racing, acting] at member
  exact ⟨by decide +kernel, model_loads_once 1 racing plain⟩

/-- A reload that is forced and fails takes the pipeline from a call that has passed its check. -/
example : let loader := run 1 ([.generate_image] ++ acting 0 10 (.ok ()) ++ [.preload true] ++
      acting 1 8 (.error "no such directory"))
    (loader.service.pipe, loader.threads.map Thread.point) = (false, [.passed, .finish false]) := by
  decide +kernel

end Loader

end Text2Image.ModelService
