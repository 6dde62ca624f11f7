import Text2Image.Properties.KeeperScope
import Text2Image.Services.CacheClients

/-! The cache clients do what the operations of the cache may do: whatever they remember and count, and
however their steps are interleaved, the backend with them runs as the backend does.
-/

set_option autoImplicit false

namespace Text2Image.cache

open Concurrency Concurrency.Lowering

variable {config : Config} {inner : Inner} {host : Nat → Nat}

/-! ## Steps that do not show -/

theorem silent_storeFalse {α : Type} (answer : α) :
    (stack config inner host).Silent answer (storeFalse >>= fun _ => (.done answer : ClientProgram α)) :=
  fun _ _ _ => ⟨rfl, rfl⟩

theorem silent_record {α : Type} (ns : Namespace) (counter : Counter) (answer : α) :
    (stack config inner host).Silent answer (record ns counter >>= fun _ => (.done answer : ClientProgram α)) :=
  fun _ _ _ => ⟨rfl, rfl⟩

/-- Counting does not change the answer. -/
theorem silent_count (key : String) (result : Option CacheValue) :
    (stack config inner host).Silent result (count inner key result) := by
  unfold count
  split
  · exact silent_record _ _ result
  · cases inner with
    | null => exact silent_record _ _ result
    | redis =>
      refine fun pid choice world => ⟨rfl, ?_⟩
      simp only [Prog.bind]
      split
      · exact silent_record _ _ result
      · exact silent_record _ _ result

/-! ## The methods -/

/-- A method carries out an operation that may also fail, if its command has the effect of the operation
and what it reads off the answer is the operation's.
-/
theorem carried_guarded {op : Op} {failed : op.Answer} {lower : ClientOp} {α : Type}
    {answered : lower.Answer → Except String α} {read : α → Option op.Answer}
    (refuses : ∀ pid world, Text2Image.perform config pid op refused world = (failed, world))
    (does : ∀ pid choice world, ∃ above,
      (perform config host pid lower choice world).2.base = (Text2Image.perform config pid op above world.base).2 ∧
      ((answered (perform config host pid lower choice world).1).toOption.bind read).getD failed =
        (Text2Image.perform config pid op above world.base).1) :
    (stack config inner host).Carried op (RedisCacheClient.guarded failed
      (.call lower fun answer => .done (answered answer)) read) := by
  intro pid choice world
  refine .inl ⟨rfl, ?_⟩
  simp only [Prog.bind]
  split
  · intro pid choice world
    obtain ⟨above, effect, answer⟩ := does pid choice world
    refine .inr ⟨above, effect, ?_⟩
    -- what is read is the answer, and after an exception there is one more step
    change (stack config inner host).Silent (Text2Image.perform config pid op above world.base).1 _
    rw [← answer]
    simp only [Prog.bind]
    split
    · rename_i value found
      exact (congrArg (Option.getD · failed) found).symm
    · rename_i found
      have silent : ∀ answer, answer = failed → (stack config inner host).Silent answer
          (storeFalse >>= fun _ => (.done failed : ClientProgram op.Answer)) := by
        rintro _ rfl
        exact silent_storeFalse _
      exact silent _ (congrArg (Option.getD · failed) found)
  · exact ⟨refused, refuses⟩

theorem version_of_integer (world : World) (key : String) : (integer (world.cache key)).getD 0 = world.version key := by
  unfold World.version integer
  split <;> simp_all

/-- Each operation of the cache, and each other one, is carried out. -/
theorem carried_carry (op : Op) : (stack config inner host).Carried op (carry config inner op) := by
  cases op with
  | cacheGet key =>
    refine Carried.bind ?_ fun result => silent_count key result
    cases inner with
    | null => exact ⟨refused, fun _ _ => rfl⟩
    | redis =>
      refine carried_guarded (fun _ _ => rfl) fun pid choice world => ⟨choice, rfl, ?_⟩
      cases outcome : choice.outcome <;>
        simp [perform, Text2Image.perform, Choice.orThrow, Choice.succeeds, outcome] <;> rfl
  | cacheSetex key value ttl =>
    cases inner with
    | null => exact ⟨refused, fun _ _ => rfl⟩
    | redis =>
      refine carried_guarded (fun _ _ => rfl) fun pid choice world => ⟨choice, ?_, ?_⟩
      · simp only [perform, Text2Image.perform]
        split <;> rfl
      · cases outcome : choice.outcome <;>
          simp [perform, Text2Image.perform, Choice.orThrow, Choice.succeeds, outcome] <;> rfl
  | cacheDel key =>
    cases inner with
    | null => exact ⟨refused, fun _ _ => rfl⟩
    | redis =>
      refine carried_guarded (fun _ _ => rfl) fun pid choice world => ⟨choice, ?_, ?_⟩
      · simp only [perform, Text2Image.perform]
        split <;> rfl
      · cases outcome : choice.outcome <;> cases there : (world.base.cache (cacheKey config key)).isSome <;>
          simp [perform, Text2Image.perform, Choice.orThrow, Choice.succeeds, outcome, there] <;> rfl
  | bumpVersion ns identifier =>
    cases inner with
    | null => exact ⟨refused, fun _ _ => rfl⟩
    | redis =>
      refine carried_guarded (fun _ _ => rfl) fun pid choice world => ?_
      have version := version_of_integer world.base (versionKey config ns identifier)
      cases number : integer (world.base.cache (versionKey config ns identifier)) with
      | none => exact ⟨refused, by simp only [perform, number]; rfl, by simp only [perform, number]; rfl⟩
      | some value =>
        rw [number, Option.getD_some] at version
        refine ⟨choice, ?_, ?_⟩
        · simp only [perform, Text2Image.perform, number, ← version]
          split <;> rfl
        · cases outcome : choice.outcome <;>
            simp [perform, Text2Image.perform, Choice.orThrow, Choice.succeeds, outcome, number, ← version] <;> rfl
  | getVersion ns identifier =>
    cases inner with
    | null => exact ⟨refused, fun _ _ => rfl⟩
    | redis =>
      refine carried_guarded (fun _ _ => rfl) fun pid choice world => ⟨choice, rfl, ?_⟩
      have version := version_of_integer world.base (versionKey config ns identifier)
      cases outcome : choice.outcome <;>
        simp [perform, Text2Image.perform, Choice.orThrow, Choice.succeeds, outcome, ← version] <;> rfl
  | _ => exact fun pid choice world => .inr ⟨choice, rfl, rfl⟩

theorem stack_sound : (stack config inner host).Sound where
  carried := carried_carry
  background pid op choice world permitted := by
    cases op with
    | other op => exact ⟨op, choice, permitted, rfl⟩
    | _ => cases permitted
  leave _ _ := rfl
  env _ _ := rfl

/-! ## Runs -/

/-- No process of the backend runs yet, and the clients remember what they may. -/
def bootStack (world : StackWorld) : StackWorld := { world with base := { world.base with keepers := [] } }

theorem tidy_run (world : World) (labels : List (backend config).Label) :
    (System.run (boot config world) labels).Tidy := by
  intro pid idle
  have unkept := unkept_idle world labels idle
  refine ⟨?_, fun op => unkept.not_permitted⟩
  have all := List.filter_eq_self.mpr fun keeper member => decide_eq_true (unkept keeper member)
  rw [backend_leave, World.withoutKeepers, all]

/-- In every run of the backend over its cache clients, the world and the replies are at each moment those
of a run of the backend over the operations of the cache.
-/
theorem stack_runs (world : StackWorld) (labels : List (stack config inner host).system.Label) :
    ∃ segments : List (List (backend config).Label), segments.length = labels.length ∧ ∀ n,
      (stack config inner host).Matches (System.run (System.initial (bootStack world)) (labels.take n))
        (System.run (boot config world.base) (segments.take n).flatten) :=
  matches_run stack_sound (bootStack world) (tidy_run world.base) labels

end Text2Image.cache
