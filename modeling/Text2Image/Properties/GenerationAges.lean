import Text2Image.Services.GenerationRuns

/-! What the health report says of the generations in progress, whichever finishes first. -/

set_option autoImplicit false

namespace Text2Image.ModelService.Service

variable {limit : Nat} {service : Service}

/-- The report of this moment; the record is read a little before the clock. -/
def report (service : Service) (busy_unhealthy_seconds : Int) (now : Rat) : Snapshot :=
  service.state.snapshot service.pipe busy_unhealthy_seconds now

/-- The report counts the runs in progress, and has a kind if there are any. -/
structure Counted (limit : Nat) (service : Service) (report : Snapshot) : Prop where
  active_generations : report.active_generations = service.inProgress.length
  limited : service.inProgress.length ≤ limit
  active_kind : report.active_kind = "none" ↔ service.inProgress = []

/-- The report tells the age of the oldest run in progress, and is alarmed if any is too old. -/
structure Aged (service : Service) (busy_unhealthy_seconds : Int) (now : Rat) (report : Snapshot) :
    Prop where
  oldest : ∀ started ∈ service.inProgress, (∀ other ∈ service.inProgress, started ≤ other) →
    report.active_seconds = (now - started).floor
  idle : service.inProgress = [] → report.active_seconds = 0
  overdue : ∀ started ∈ service.inProgress, busy_unhealthy_seconds < (now - started).floor →
    report.status = "unhealthy"

theorem Sound.report_counted (sound : service.Sound limit) (busy_unhealthy_seconds : Int) (now : Rat) :
    Counted limit service (service.report busy_unhealthy_seconds now) where
  active_generations := by
    show service.state.active_generations = _
    rw [sound.consistent.counted, sound.counted]
  limited := sound.limited
  active_kind := by
    show service.state.active_kind = "none" ↔ _
    rw [sound.consistent.kind, sound.counted, ← List.length_eq_zero_iff]
    split
    · rename_i idle
      exact iff_of_true rfl idle
    · rename_i busy
      exact iff_of_false (by decide) busy

/-- The least start is that of the oldest run. -/
theorem Matched.least (matched : service.Matched) {started : Rat} (member : started ∈ service.inProgress)
    (oldest : ∀ other ∈ service.inProgress, started ≤ other) :
    service.state.active_generation_starts.min? = some started := by
  refine List.min?_eq_some_iff.mpr ⟨matched.perm.mem_iff.mpr member, fun other known => ?_⟩
  exact oldest other (matched.perm.mem_iff.mp known)

theorem Matched.report_oldest (sound : service.Sound limit) (matched : service.Matched) {started now : Rat}
    (passed : service.clock ≤ now) (member : started ∈ service.inProgress)
    (oldest : ∀ other ∈ service.inProgress, started ≤ other) (busy_unhealthy_seconds : Int) :
    (service.report busy_unhealthy_seconds now).active_seconds = (now - started).floor := by
  show service.state.active_seconds now = _
  rw [GenerationState.active_seconds, matched.least member oldest]
  have aged : 0 ≤ now - started := sub_nonneg.mpr (le_trans (sound.past started member) passed)
  show (max 0 (now - started)).floor = _
  rw [max_eq_right aged]

theorem Matched.report_overdue (sound : service.Sound limit) (matched : service.Matched)
    {started now : Rat} (passed : service.clock ≤ now) (member : started ∈ service.inProgress)
    {busy_unhealthy_seconds : Int} (overdue : busy_unhealthy_seconds < (now - started).floor) :
    (service.report busy_unhealthy_seconds now).status = "unhealthy" := by
  have known := matched.perm.mem_iff.mpr member
  obtain ⟨least, first⟩ := Option.isSome_iff_exists.mp (List.isSome_min?_of_mem known)
  obtain ⟨inside, lower⟩ := List.min?_eq_some_iff.mp first
  have age := matched.report_oldest sound passed (matched.perm.mem_iff.mp inside)
    (fun other there => lower other (matched.perm.mem_iff.mpr there)) busy_unhealthy_seconds
  have older : (now - started).floor ≤ (now - least).floor :=
    Rat.floor_monotone (sub_le_sub_left (lower started known) now)
  have busy : service.state.is_generating = true := by
    have some_run : service.inProgress.length ≠ 0 := fun none => by
      rw [List.length_eq_zero_iff.mp none] at member
      cases member
    rw [GenerationState.is_generating, sound.consistent.counted, sound.counted, decide_eq_true_eq]
    omega
  have pipe : service.pipe = true := by
    obtain ⟨phase, inside, starts⟩ := List.mem_filterMap.mp member
    refine sound.loaded phase inside ?_
    cases phase <;> first | rfl | cases starts
  have late : service.state.active_seconds now > busy_unhealthy_seconds := by
    have same : service.state.active_seconds now = (now - least).floor := age
    omega
  simp [report, GenerationState.snapshot, pipe, busy, late]

theorem Matched.report_aged (sound : service.Sound limit) (matched : service.Matched) {now : Rat}
    (passed : service.clock ≤ now) (busy_unhealthy_seconds : Int) :
    Aged service busy_unhealthy_seconds now (service.report busy_unhealthy_seconds now) where
  oldest _ member oldest := matched.report_oldest sound passed member oldest busy_unhealthy_seconds
  idle none := by
    have empty : service.state.active_generation_starts = [] := by
      rw [← List.length_eq_zero_iff, sound.counted, none]
      rfl
    show service.state.active_seconds now = 0
    rw [GenerationState.active_seconds, empty]
    rfl
  overdue _ member overdue := matched.report_overdue sound passed member overdue

/-- However the threads take turns, the report counts the runs in progress; and as long as every
run that finishes is the oldest, it tells the age of the oldest one in progress.
-/
theorem health_accurate (limit : Nat) (steps : List Step) (busy_unhealthy_seconds : Int) (now : Rat)
    (passed : (run limit steps).clock ≤ now) :
    Counted limit (run limit steps) ((run limit steps).report busy_unhealthy_seconds now) ∧
      (AllOldestFirst limit steps →
        Aged (run limit steps) busy_unhealthy_seconds now
          ((run limit steps).report busy_unhealthy_seconds now)) :=
  ⟨(sound_run limit steps).report_counted busy_unhealthy_seconds now, fun oldest =>
    (matched_run oldest).report_aged (sound_run limit steps) passed busy_unhealthy_seconds⟩

/-- Two runs, 50 seconds apart. -/
def overlapping : List Step :=
  [.loaded true, .call, .call, .check 0, .check 1, .acquire 0, .acquire 1, .mark_started 0, .tick 50,
    .mark_started 1, .tick 20]

/-- The older one finishes, and the younger goes on for another 80 seconds. -/
def overtaking : List Step := overlapping ++ [.mark_finished 0] ++ [.tick 80]

/-- The run that goes on is 100 seconds old, and is reported so. -/
theorem health_accurate_overlapping :
    Counted 2 (run 2 overtaking) ((run 2 overtaking).report 60 150) ∧
      Aged (run 2 overtaking) 60 150 ((run 2 overtaking).report 60 150) ∧
      (run 2 overtaking).inProgress = [50] ∧ ((run 2 overtaking).report 60 150).active_seconds = 100 := by
  obtain ⟨counted, aged⟩ := health_accurate 2 overtaking 60 150 (by decide +kernel)
  refine ⟨counted, aged ?_, by decide +kernel, by decide +kernel⟩
  have unfinished : AllOldestFirst 2 ([] ++ overlapping) :=
    AllOldestFirst.append (fun first step later split => by simp at split) (by decide +kernel)
  refine (unfinished.concat ?_).append (by decide)
  -- the finished run began at 0, the other at 50
  intro call started same found
  cases same
  have first : (run 2 overlapping).calls[0]? = some (.running 0) := by decide +kernel
  obtain rfl : 0 = started := Phase.running.inj (Option.some.inj (first.symm.trans found))
  have both : ∀ other ∈ (run 2 overlapping).inProgress, 0 ≤ other := by decide +kernel
  exact both

/-- The younger run finishes first: the older one is taken for the younger. -/
theorem health_rejuvenated :
    ¬ Aged (run 2 (overlapping ++ [.mark_finished 1])) 60 70
      ((run 2 (overlapping ++ [.mark_finished 1])).report 60 70) := by
  intro aged
  have stuck := aged.overdue 0 (by decide +kernel) (by decide +kernel)
  have busy : ((run 2 (overlapping ++ [.mark_finished 1])).report 60 70).status = "busy" := by
    decide +kernel
  rw [busy] at stuck
  exact absurd stuck (by decide)

end Text2Image.ModelService.Service
