import Text2Image.Services.MetricsRegistry

/-! What the duration histograms render is what has been observed. -/

set_option autoImplicit false

namespace Text2Image.metrics

/-! ## Label sets -/

inductive Metric where
  | request
  | modelServiceCall
  deriving DecidableEq, Repr

def Metric.name : Metric → String
  | .request => "image_request_duration_seconds"
  | .modelServiceCall => "model_service_call_duration_seconds"

/-- A metric with the values of its two labels. -/
structure LabelSet where
  metric : Metric
  endpoint : String
  status : String
  deriving DecidableEq, Repr

def LabelSet.labels (set : LabelSet) : String :=
  match set.metric with
  | .request => labelsOf (escapeLabelValue set.endpoint.toList) set.status.toList
  | .modelServiceCall => modelServiceLabels set.endpoint set.status

inductive Observation where
  | request (endpoint : String) (statusCode : Int) (seconds : Rat)
  | modelServiceCall (endpoint status : String) (seconds : Rat)
  deriving DecidableEq, Repr

def Observation.labelSet : Observation → LabelSet
  | .request endpoint statusCode _ => ⟨.request, endpoint, statusLabel statusCode⟩
  | .modelServiceCall endpoint status _ => ⟨.modelServiceCall, endpoint, status⟩

def Observation.seconds : Observation → Rat
  | .request _ _ seconds | .modelServiceCall _ _ seconds => seconds

/-- The registry after some observations, newest first. -/
def registryAfter : List Observation → MetricsRegistry
  | [] => {}
  | .request endpoint statusCode seconds :: older =>
    (registryAfter older).observeRequest endpoint statusCode seconds
  | .modelServiceCall endpoint status seconds :: older =>
    (registryAfter older).observeModelServiceCall endpoint status seconds

/-- The durations with this label set; negative ones count as 0. -/
def LabelSet.durations (set : LabelSet) (observations : List Observation) : List Rat :=
  (observations.filter fun observation => observation.labelSet = set).map fun observation =>
    max 0 observation.seconds

theorem escapeLabelValue_cons (ch : Char) (value : List Char) :
    escapeLabelValue (ch :: value) =
      (if ch = '\\' ∨ ch = '"' then ['\\', ch] else [ch]) ++ escapeLabelValue value := rfl

/-- An escaped value ends at the first quote that is not escaped. -/
theorem escapeLabelValue_quoted {first second left right : List Char}
    (same : escapeLabelValue first ++ '"' :: left = escapeLabelValue second ++ '"' :: right) :
    first = second ∧ left = right := by
  have opens : ∀ (ch : Char) (value rest tail : List Char),
      escapeLabelValue (ch :: value) ++ rest ≠ '"' :: tail := by
    intro ch value rest tail same
    rw [escapeLabelValue_cons] at same
    split at same
    · cases (List.cons.inj same).1
    · rename_i plain
      exact plain (.inr (List.cons.inj same).1)
  induction first generalizing second with
  | nil =>
    cases second with
    | nil => exact ⟨rfl, (List.cons.inj same).2⟩
    | cons ch second => exact (opens _ _ _ _ same.symm).elim
  | cons ch first ih =>
    cases second with
    | nil => exact (opens _ _ _ _ same).elim
    | cons other second =>
      rw [escapeLabelValue_cons, escapeLabelValue_cons] at same
      -- both are escaped, or neither is
      split at same <;> split at same
      · simp only [List.cons_append, List.nil_append, List.cons.injEq] at same
        obtain ⟨_, rfl, same⟩ := same
        obtain ⟨rfl, rest⟩ := ih same
        exact ⟨rfl, rest⟩
      · rename_i plain
        exact (plain (.inl (List.cons.inj same).1.symm)).elim
      · rename_i plain _
        exact (plain (.inl (List.cons.inj same).1)).elim
      · obtain ⟨rfl, later⟩ := List.cons.inj same
        obtain ⟨rfl, rest⟩ := ih later
        exact ⟨rfl, rest⟩

theorem between_quotes {front middle first second status status' : List Char}
    (same : front ++ (escapeLabelValue first ++ '"' :: (middle ++ (status ++ ['"']))) =
      front ++ (escapeLabelValue second ++ '"' :: (middle ++ (status' ++ ['"'])))) :
    first = second ∧ status = status' := by
  obtain ⟨rfl, rest⟩ := escapeLabelValue_quoted (List.append_cancel_left same)
  exact ⟨rfl, List.append_cancel_right (List.append_cancel_left rest)⟩

theorem labelsOf_injective {first second status status' : List Char}
    (same : labelsOf (escapeLabelValue first) status = labelsOf (escapeLabelValue second) status') :
    first = second ∧ status = status' :=
  between_quotes (String.ofList_inj.mp same)

/-- The labels of a metric tell its label sets apart. -/
theorem LabelSet.labels_injective {first second : LabelSet} (metric : first.metric = second.metric)
    (same : first.labels = second.labels) : first = second := by
  obtain ⟨metric₁, endpoint, status⟩ := first
  obtain ⟨metric₂, endpoint', status'⟩ := second
  obtain rfl : metric₁ = metric₂ := metric
  cases metric₁ with
  | request =>
    obtain ⟨left, right⟩ := labelsOf_injective same
    obtain rfl := String.toList_inj.mp left
    obtain rfl := String.toList_inj.mp right
    rfl
  | modelServiceCall =>
    obtain ⟨left, right⟩ := labelsOf_injective same
    have statuses := escapeLabelValue_quoted (congrArg (· ++ '"' :: []) right)
    obtain rfl := String.toList_inj.mp left
    obtain rfl := String.toList_inj.mp statuses.1
    rfl

/-! ## What is kept -/

/-- The histogram of some durations. -/
def histogramOf (durations : List Rat) : Histogram :=
  ⟨Intervals.cellsOf kDurationBuckets durations, durations.length, durations.sum⟩

theorem observe_histogramOf (durations : List Rat) (seconds : Rat) :
    (histogramOf durations).observe seconds = histogramOf (max 0 seconds :: durations) := by
  have some : (Intervals.cellsOf kDurationBuckets durations).isEmpty = false := by
    rw [List.isEmpty_eq_false_iff, ← List.length_pos_iff, Intervals.length_cellsOf]
    decide
  simp only [Histogram.observe, histogramOf, some, Bool.false_eq_true, if_false, List.length_cons,
    List.sum_cons, Intervals.cellsOf]
  rw [add_comm durations.sum]

theorem observe_new (seconds : Rat) : Histogram.observe seconds {} = histogramOf [max 0 seconds] :=
  observe_histogramOf [] seconds

def MetricsRegistry.histograms (registry : MetricsRegistry) : Metric → Histograms
  | .request => registry.request_durations
  | .modelServiceCall => registry.model_service_durations

theorem histograms_registryAfter (observation : Observation) (older : List Observation) (metric : Metric) :
    (registryAfter (observation :: older)).histograms metric =
      if observation.labelSet.metric = metric then
        observeHistogram ((registryAfter older).histograms metric) observation.labelSet.labels
          observation.seconds
      else (registryAfter older).histograms metric := by
  cases observation <;> cases metric <;> rfl

/-- Every label set that was observed has the histogram of its durations, and no other has any. -/
structure Counts (observations : List Observation) : Prop where
  ordered : ∀ metric, Ordered ((registryAfter observations).histograms metric)
  entries : ∀ set : LabelSet, ((registryAfter observations).histograms set.metric).lookup set.labels =
    if set.durations observations = [] then none else some (histogramOf (set.durations observations))

theorem durations_cons (set : LabelSet) (observation : Observation) (older : List Observation) :
    set.durations (observation :: older) =
      if observation.labelSet = set then max 0 observation.seconds :: set.durations older
      else set.durations older := by
  unfold LabelSet.durations
  by_cases same : observation.labelSet = set <;> simp [same]

theorem counts_nil : Counts [] where
  ordered metric := by cases metric <;> exact List.Pairwise.nil
  entries set := by
    obtain ⟨metric, endpoint, status⟩ := set
    cases metric <;> rfl

theorem Counts.step {older : List Observation} (counts : Counts older) (observation : Observation) :
    Counts (observation :: older) where
  ordered metric := by
    rw [histograms_registryAfter]
    split
    · exact (counts.ordered metric).atKey _ _
    · exact counts.ordered metric
  entries set := by
    rw [histograms_registryAfter, durations_cons]
    by_cases metric : observation.labelSet.metric = set.metric
    · rw [if_pos metric, observeHistogram, lookup_atKey (counts.ordered set.metric), ← metric]
      by_cases same : observation.labelSet = set
      · subst same
        rw [if_pos rfl, if_pos rfl, if_neg (List.cons_ne_nil _ _), counts.entries]
        -- the first observation makes the histogram
        by_cases first : observation.labelSet.durations older = []
        · rw [if_pos first, first, Option.getD_none, observe_new]
        · rw [if_neg first, Option.getD_some, observe_histogramOf]
      · have labels : set.labels ≠ observation.labelSet.labels :=
          fun equal => same (LabelSet.labels_injective metric equal.symm)
        rw [if_neg labels, if_neg same, metric, counts.entries]
    · have different : observation.labelSet ≠ set := fun same => metric (congrArg LabelSet.metric same)
      rw [if_neg metric, if_neg different, counts.entries]

theorem counts (observations : List Observation) : Counts observations := by
  induction observations with
  | nil => exact counts_nil
  | cons observation older ih => exact ih.step observation

/-! ## What is rendered -/

def Line.isOf (set : LabelSet) : Line → Bool
  | .bucket name labels _ _ | .sum name labels _ | .count name labels _ =>
    name = set.metric.name ∧ labels = set.labels

/-- The lines that tell the truth about some durations. -/
def exactLines (set : LabelSet) (durations : List Rat) : List Line :=
  (kDurationBuckets.map fun bound =>
    .bucket set.metric.name set.labels (some bound) (durations.countP (· ≤ bound))) ++
  [.bucket set.metric.name set.labels none durations.length, .sum set.metric.name set.labels durations.sum,
    .count set.metric.name set.labels durations.length]

theorem renderEntry_histogramOf (set : LabelSet) (durations : List Rat) :
    renderEntry set.metric.name set.labels (histogramOf durations) = exactLines set durations := by
  unfold renderEntry exactLines histogramOf
  dsimp only
  rw [renderBuckets_eq, Intervals.running_cellsOf kDurationBuckets_sorted, List.zipWith_map_right,
    List.zipWith_self]

theorem isOf_renderEntry {name labels : String} {histogram : Histogram} {set : LabelSet} {line : Line}
    (member : line ∈ renderEntry name labels histogram) :
    line.isOf set = decide (name = set.metric.name ∧ labels = set.labels) := by
  have bucket : ∀ {total : Nat} {bounds : List Rat} {cells : List Nat},
      line ∈ renderBuckets name labels total bounds cells → ∃ le value, line = .bucket name labels le value := by
    intro total bounds cells member
    rw [renderBuckets_eq] at member
    obtain ⟨i, within, rfl⟩ := List.mem_iff_getElem.mp member
    rw [List.getElem_zipWith]
    exact ⟨_, _, rfl⟩
  rcases List.mem_append.mp member with cells | totals
  · obtain ⟨le, value, rfl⟩ := bucket cells
    rfl
  · simp only [List.mem_cons, List.not_mem_nil, or_false] at totals
    rcases totals with rfl | rfl | rfl <;> rfl

/-- The lines of a label set are those of its observations, and the buckets never fall from one bound
to a higher one, nor exceed the number of observations. -/
theorem histogram_exact (observations : List Observation) (set : LabelSet) :
    ((registryAfter observations).renderDurations.filter (Line.isOf set) =
      if set.durations observations = [] then [] else exactLines set (set.durations observations)) ∧
    ∀ bound higher, bound ≤ higher →
      (set.durations observations).countP (· ≤ bound) ≤ (set.durations observations).countP (· ≤ higher) ∧
      (set.durations observations).countP (· ≤ bound) ≤ (set.durations observations).length := by
  have holds := counts observations
  -- each metric renders under its own name
  have own : (registryAfter observations).renderDurations.filter (Line.isOf set) =
      (renderHistogram set.metric.name ((registryAfter observations).histograms set.metric)).filter
        (Line.isOf set) := by
    have other : ∀ metric : Metric, metric ≠ set.metric →
        (renderHistogram metric.name ((registryAfter observations).histograms metric)).filter
          (Line.isOf set) = [] := by
      intro metric different
      have names : metric.name ≠ set.metric.name := by
        revert different
        cases metric <;> cases set.metric <;> decide
      refine List.filter_eq_nil_iff.mpr fun line member => ?_
      obtain ⟨entry, _, rendered⟩ := List.mem_flatMap.mp member
      rw [isOf_renderEntry rendered]
      simp [names]
    unfold MetricsRegistry.renderDurations
    rw [List.filter_append]
    cases metric : set.metric with
    | request =>
      have silent := other .modelServiceCall (by rw [metric]; decide)
      exact (congrArg _ silent).trans (List.append_nil _)
    | modelServiceCall =>
      have silent := other .request (by rw [metric]; decide)
      exact (congrArg (· ++ _) silent).trans (List.nil_append _)
  refine ⟨?_, fun bound higher le => ⟨?_, List.countP_le_length⟩⟩
  · rw [own, filter_renderHistogram (holds.ordered set.metric) set.metric.name set.labels (Line.isOf set) ?_,
      holds.entries]
    · split
      · rfl
      · exact renderEntry_histogramOf set _
    · intro labels histogram line member
      rw [isOf_renderEntry member]
      simp
  · refine List.countP_mono_left fun duration _ below => ?_
    exact decide_eq_true (le_trans (of_decide_eq_true below) le)

end Text2Image.metrics
