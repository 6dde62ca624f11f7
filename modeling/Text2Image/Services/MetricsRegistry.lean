import Mathlib.Algebra.Order.Ring.Rat
import Mathlib.Data.String.Basic
import Text2Image.Metrics.Intervals

/-! The duration histograms of the metrics registry. Durations are rational numbers, and
the counters never overflow.
-/

set_option autoImplicit false

namespace Text2Image.metrics

/-- 0.1 is the nearest double. -/
def kDurationBuckets : List Rat :=
  [3602879701896397 / 36028797018963968, 1 / 2, 1, 2, 5, 10, 30, 60]

theorem kDurationBuckets_sorted : kDurationBuckets.Pairwise (· < ·) := by decide +kernel

/-! ## Labels -/

def escapeLabelValue (value : List Char) : List Char :=
  value.flatMap fun ch => if ch = '\\' ∨ ch = '"' then ['\\', ch] else [ch]

def statusLabel (statusCode : Int) : String := toString (if statusCode ≤ 0 then 0 else statusCode)

/-- The two labels of every histogram. -/
def labelsOf (endpoint status : List Char) : String :=
  String.ofList ("endpoint=\"".toList ++ (endpoint ++ '"' :: (",status=\"".toList ++ (status ++ ['"']))))

def requestLabels (endpoint : String) (statusCode : Int) : String :=
  labelsOf (escapeLabelValue endpoint.toList) (statusLabel statusCode).toList

def modelServiceLabels (endpoint status : String) : String :=
  labelsOf (escapeLabelValue endpoint.toList) (escapeLabelValue status.toList)

/-! ## Observations -/

structure Histogram where
  buckets : List Nat := []
  count : Nat := 0
  sum : Rat := 0
  deriving DecidableEq, Repr

/-- A map from labels, ordered by them. -/
abbrev Histograms := List (String × Histogram)

/-- The histogram of a key, changed; a key that is not there yet gets a new one. -/
def atKey (key : String) (change : Histogram → Histogram) : Histograms → Histograms
  | [] => [(key, change {})]
  | (other, histogram) :: rest =>
    if other = key then (other, change histogram) :: rest
    else if key < other then (key, change {}) :: (other, histogram) :: rest
    else (other, histogram) :: atKey key change rest

def Histogram.observe (seconds : Rat) (histogram : Histogram) : Histogram :=
  let buckets :=
    if histogram.buckets.isEmpty then List.replicate kDurationBuckets.length 0 else histogram.buckets
  let safeSeconds := max 0 seconds
  { buckets := Intervals.count buckets (Intervals.lowerBound kDurationBuckets safeSeconds)
    count := histogram.count + 1
    sum := histogram.sum + safeSeconds }

def observeHistogram (histograms : Histograms) (key : String) (seconds : Rat) : Histograms :=
  atKey key (·.observe seconds) histograms

structure MetricsRegistry where
  request_durations : Histograms := []
  model_service_durations : Histograms := []

def MetricsRegistry.observeRequest (registry : MetricsRegistry) (endpoint : String) (statusCode : Int)
    (seconds : Rat) : MetricsRegistry :=
  { registry with
    request_durations :=
      observeHistogram registry.request_durations (requestLabels endpoint statusCode) seconds }

def MetricsRegistry.observeModelServiceCall (registry : MetricsRegistry) (endpoint status : String)
    (seconds : Rat) : MetricsRegistry :=
  { registry with
    model_service_durations :=
      observeHistogram registry.model_service_durations (modelServiceLabels endpoint status) seconds }

/-! ## Rendering -/

/-- A line of the exposition format; `none` is the bound `+Inf`. -/
inductive Line where
  | bucket (name labels : String) (le : Option Rat) (value : Nat)
  | sum (name labels : String) (value : Rat)
  | count (name labels : String) (value : Nat)
  deriving DecidableEq, Repr

/-- The loop over the bounds, with what it has summed up so far. -/
def renderBuckets (name labels : String) (cumulative : Nat) : List Rat → List Nat → List Line
  | bound :: bounds, cell :: cells =>
    .bucket name labels (some bound) (cumulative + cell) ::
      renderBuckets name labels (cumulative + cell) bounds cells
  | _, _ => []

def renderEntry (name labels : String) (histogram : Histogram) : List Line :=
  renderBuckets name labels 0 kDurationBuckets histogram.buckets ++
    [.bucket name labels none histogram.count, .sum name labels histogram.sum,
      .count name labels histogram.count]

def renderHistogram (name : String) (histograms : Histograms) : List Line :=
  histograms.flatMap fun entry => renderEntry name entry.1 entry.2

/-- The histograms in what a registry renders. -/
def MetricsRegistry.renderDurations (registry : MetricsRegistry) : List Line :=
  renderHistogram "image_request_duration_seconds" registry.request_durations ++
    renderHistogram "model_service_call_duration_seconds" registry.model_service_durations

/-! ## The map -/

/-- The keys of a map stand in order. -/
def Ordered (histograms : Histograms) : Prop := (histograms.map Prod.fst).Pairwise (· < ·)

theorem mem_atKey {key : String} {change : Histogram → Histogram} {histograms : Histograms}
    {other : String} (member : other ∈ (atKey key change histograms).map Prod.fst) :
    other = key ∨ other ∈ histograms.map Prod.fst := by
  induction histograms with
  | nil => simpa [atKey] using member
  | cons entry rest ih =>
    obtain ⟨first, histogram⟩ := entry
    simp only [atKey] at member
    split at member
    · exact .inr (by simpa using member)
    · split at member
      · simpa using member
      · rcases List.mem_cons.mp member with rfl | later
        · exact .inr List.mem_cons_self
        · rcases ih later with same | there
          · exact .inl same
          · exact .inr (List.mem_cons_of_mem _ there)

theorem Ordered.atKey {histograms : Histograms} (ordered : Ordered histograms) (key : String)
    (change : Histogram → Histogram) : Ordered (atKey key change histograms) := by
  induction histograms with
  | nil => simp [Ordered, metrics.atKey]
  | cons entry rest ih =>
    obtain ⟨first, histogram⟩ := entry
    obtain ⟨above, rest'⟩ := List.pairwise_cons.mp ordered
    simp only [metrics.atKey]
    split
    · exact ordered
    · rename_i different
      split
      · rename_i before
        refine List.pairwise_cons.mpr ⟨?_, ordered⟩
        intro other member
        rcases List.mem_cons.mp member with rfl | later
        · exact before
        · exact lt_trans before (above other later)
      · rename_i behind
        refine List.pairwise_cons.mpr ⟨?_, ih rest'⟩
        intro other member
        rcases mem_atKey member with rfl | there
        · exact lt_of_le_of_ne (not_lt.mp behind) different
        · exact above other there

theorem lookup_atKey {histograms : Histograms} (ordered : Ordered histograms) (key : String)
    (change : Histogram → Histogram) (other : String) :
    (atKey key change histograms).lookup other =
      if other = key then some (change ((histograms.lookup key).getD {})) else histograms.lookup other := by
  induction histograms with
  | nil =>
    by_cases same : other = key
    · simp [atKey, same]
    · simp [atKey, List.lookup_cons, same, beq_false_of_ne same]
  | cons entry rest ih =>
    obtain ⟨first, histogram⟩ := entry
    obtain ⟨above, rest'⟩ := List.pairwise_cons.mp ordered
    simp only [atKey]
    by_cases found : first = key
    · subst found
      by_cases same : other = first
      · simp [same]
      · simp [List.lookup_cons, same, beq_false_of_ne same]
    · rw [if_neg found]
      by_cases before : key < first
      · -- a new key, before all that are there
        have absent : ((first, histogram) :: rest).lookup key = none := by
          rw [List.lookup_eq_none_iff]
          intro entry member
          have different : key ≠ entry.1 := by
            rcases List.mem_cons.mp member with rfl | later
            · exact ne_of_lt before
            · exact ne_of_lt (lt_trans before (above entry.1 (List.mem_map_of_mem later)))
          exact bne_iff_ne.mpr different
        rw [if_pos before, absent]
        by_cases same : other = key
        · simp [same]
        · rw [if_neg same, List.lookup_cons, beq_false_of_ne same]
      · rw [if_neg before, List.lookup_cons, List.lookup_cons, List.lookup_cons, ih rest']
        have different : (key == first) = false := beq_false_of_ne (Ne.symm found)
        by_cases same : other = key
        · subst same
          simp [different]
        · simp [same]

/-- What is rendered for a key stems from its entry alone. -/
theorem filter_renderHistogram {histograms : Histograms} (ordered : Ordered histograms) (name key : String)
    (isOf : Line → Bool) (only : ∀ labels histogram, ∀ line ∈ renderEntry name labels histogram,
      isOf line = decide (labels = key)) :
    (renderHistogram name histograms).filter isOf =
      ((histograms.lookup key).map (renderEntry name key)).getD [] := by
  induction histograms with
  | nil => rfl
  | cons entry rest ih =>
    obtain ⟨first, histogram⟩ := entry
    obtain ⟨above, rest'⟩ := List.pairwise_cons.mp ordered
    have split : renderHistogram name ((first, histogram) :: rest) =
        renderEntry name first histogram ++ renderHistogram name rest := rfl
    rw [split, List.filter_append, ih rest', List.lookup_cons]
    by_cases same : key = first
    · subst same
      have none : rest.lookup key = none := by
        rw [List.lookup_eq_none_iff]
        exact fun entry member => bne_iff_ne.mpr (ne_of_lt (above entry.1 (List.mem_map_of_mem member)))
      have all : (renderEntry name key histogram).filter isOf = renderEntry name key histogram :=
        List.filter_eq_self.mpr fun line member => by simp [only _ _ line member]
      simp [none, all]
    · have nothing : (renderEntry name first histogram).filter isOf = [] :=
        List.filter_eq_nil_iff.mpr fun line member => by simp [only _ _ line member, Ne.symm same]
      simp [nothing, beq_false_of_ne same]

theorem renderBuckets_eq (name labels : String) (total : Nat) (bounds : List Rat) (cells : List Nat) :
    renderBuckets name labels total bounds cells =
      List.zipWith (fun bound sum => .bucket name labels (some bound) sum) bounds
        (Intervals.running total cells) := by
  induction bounds generalizing total cells with
  | nil => rfl
  | cons bound bounds ih =>
    cases cells with
    | nil => rfl
    | cons cell cells => simp [renderBuckets, Intervals.running, ih]

end Text2Image.metrics
