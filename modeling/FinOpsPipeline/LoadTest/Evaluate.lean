import FinOpsPipeline.LoadTest.Verdict

/-!
The verdict on a single run, `evaluate_run` of `scripts/run-bank-krr-test.sh`.

The success criteria are written twice: with sums and maxima in `compare`, with
one condition for each container here.

* `RunChecks`, `evaluateRun`: the checks of the here-document.
* `sumValues_le_zero_iff`: a sum of counters is at most zero exactly when each is zero.
* `evaluateRun_iff`: the two agree, for the thresholds of the criteria file.
-/

namespace FinOpsPipeline

namespace LoadTest

variable {V : Type}

/-! ### The evaluation of a run -/

/-- The checks of a single run. -/
structure RunChecks where
  metricsComplete : Bool
  systemErrorRate : Bool
  businessFailureRate : Bool
  droppedIterations : Bool
  cpuThrottlingAvg : Bool
  cpuThrottlingP95 : Bool
  oom : Bool
  restarts : Bool

/-- `all(checks.values())`. -/
def RunChecks.all (checks : RunChecks) : Bool :=
  checks.metricsComplete && checks.systemErrorRate && checks.businessFailureRate &&
    checks.droppedIterations && checks.cpuThrottlingAvg && checks.cpuThrottlingP95 &&
    checks.oom && checks.restarts

/-- `bool(values) and all(v is not None and test(v) for v in values)`. -/
def allValues (test : ℚ → Bool) (values : List (Option ℚ)) : Bool :=
  !values.isEmpty && values.all fun v => v.any test

/-- The values that each container needs. -/
def requiredPaths : List (Workload → Option ℚ) :=
  [fun item => item.cpuRequestCoresPerReplica.avg, fun item => item.memoryRequestBytesPerReplica.avg,
    Workload.oomKilledPods, Workload.restartIncrease, fun item => item.replicas.avg]

/-- The checks of a run. -/
def runChecks (source : Report V) : RunChecks :=
  let workloads := source.items
  let limited := workloads.filter fun item =>
    item.cpuLimitCoresPerReplica.avg.any fun limit => limit ≠ 0
  let throttleAvg := limited.map fun item => item.cpuThrottlingRatio.avg
  let throttleP95 := limited.map fun item => item.cpuThrottlingRatio.p95
  { metricsComplete :=
      decide (workloads.length = 11) && source.collectionWarnings.isEmpty &&
        (requiredPaths.all fun path => (workloads.map path).all Option.isSome) &&
        !limited.isEmpty && (throttleAvg ++ throttleP95).all Option.isSome
    systemErrorRate := source.http.systemErrorRate.any fun v => v < 1 / 100
    businessFailureRate := source.http.businessFailureRate.any fun v => v < 1 / 100
    droppedIterations := decide (source.http.droppedIterations.getD (-1) = 0)
    cpuThrottlingAvg := allValues (fun v => v < 5 / 100) throttleAvg
    cpuThrottlingP95 := allValues (fun v => v < 20 / 100) throttleP95
    oom := allValues (fun v => v = 0) (workloads.map Workload.oomKilledPods)
    restarts := allValues (fun v => v = 0) (workloads.map Workload.restartIncrease) }

/-- The result for a run. -/
structure RunEvaluation where
  runId : String
  phase : String
  verdict : RunVerdict
  checks : RunChecks

/-- `evaluate_run`. -/
def evaluateRun (source : Report V) : RunEvaluation where
  runId := source.runId
  phase := source.phase
  verdict := verdictOf (runChecks source).all
  checks := runChecks source

/-! ### The two implementations -/

/-- Counters add up to at most zero exactly when there is none missing and each is zero. -/
lemma sumValues_le_zero_iff {values : List (Option ℚ)} (hnonneg : ∀ v, some v ∈ values → 0 ≤ v) :
    (sumValues values).any (fun total => total ≤ 0) = true ↔
      ∀ v ∈ values, v.any (fun x => x = 0) = true := by
  rw [sumValues_nonpos_iff hnonneg]
  refine forall₂_congr fun v hv => ?_
  cases v with
  | none => rfl
  | some x =>
      have hx := hnonneg x hv
      simpa using ⟨fun hle => le_antisymm hle hx, fun heq => heq.le⟩

lemma allValues_eq_true {test : ℚ → Bool} {values : List (Option ℚ)} :
    allValues test values = true ↔ values ≠ [] ∧ ∀ v ∈ values, v.any test = true := by
  simp [allValues]

/-- The required values are there for all containers, path by path. -/
lemma all_itemComplete_iff (items : List Workload) :
    items.all itemComplete = true ↔
      (requiredPaths.all fun path => (items.map path).all Option.isSome) = true ∧
        (((items.filter cpuLimited).map fun item => item.cpuThrottlingRatio.avg) ++
          (items.filter cpuLimited).map fun item => item.cpuThrottlingRatio.p95).all
            Option.isSome = true := by
  simp only [requiredPaths, itemComplete, List.all_cons, List.all_nil, List.all_map, List.all_append,
    List.all_eq_true, List.mem_filter, Function.comp_apply, Bool.and_eq_true, Bool.or_eq_true,
    Bool.not_eq_true', and_imp]
  grind

/-- The completeness of the evaluation is the one of the comparison, with a limited
container. -/
lemma runChecks_metricsComplete (run : Report V) :
    (runChecks run).metricsComplete = true ↔
      metricsComplete run = true ∧ run.items.filter cpuLimited ≠ [] := by
  rw [metricsComplete, Bool.and_eq_true, all_itemComplete_iff, ← List.isEmpty_eq_false_iff,
    ← Bool.not_eq_true']
  simp only [runChecks, Bool.and_eq_true]
  constructor
  · rintro ⟨⟨⟨h, hreq⟩, hne⟩, hthr⟩
    exact ⟨⟨h, hreq, hthr⟩, hne⟩
  · rintro ⟨⟨h, hreq, hthr⟩, hne⟩
    exact ⟨⟨⟨h, hreq⟩, hne⟩, hthr⟩

/-- A throttling check needs a container with a limit. -/
lemma limited_of_throttling {post : Report V} (h : (runChecks post).cpuThrottlingAvg = true) :
    post.items.filter cpuLimited ≠ [] := by
  have hne := (allValues_eq_true.mp h).1
  exact fun hnil => hne (List.map_eq_nil_iff.mpr hnil)

section Agree

variable [DecidableEq V] (pre : Report V) {post : Report V}

/-- The maxima of the comparison and the conditions of the evaluation. -/
lemma throttling_agree (hlength : post.items.length = 11) :
    ((compare pre post successCriteria).checks.cpuThrottlingAvg = true ↔
        (runChecks post).cpuThrottlingAvg = true) ∧
      ((compare pre post successCriteria).checks.cpuThrottlingP95 = true ↔
        (runChecks post).cpuThrottlingP95 = true) := by
  have hagg := aggregateStability_of_length hlength
  constructor
  · show ((aggregateStability post).throttleAvgMax.any fun v => v < 5 / 100) = true ↔
      allValues _ _ = true
    rw [hagg, maxValues_lt_iff, allValues_eq_true]
    rfl
  · show ((aggregateStability post).throttleP95Max.any fun v => v < 20 / 100) = true ↔
      allValues _ _ = true
    rw [hagg, maxValues_lt_iff, allValues_eq_true]
    rfl

/-- The sums of the comparison and the conditions of the evaluation. -/
lemma counters_agree (hlength : post.items.length = 11) (hnonneg : post.CountersNonneg) :
    ((compare pre post successCriteria).checks.oom = true ↔ (runChecks post).oom = true) ∧
      ((compare pre post successCriteria).checks.restarts = true ↔
        (runChecks post).restarts = true) := by
  have hagg := aggregateStability_of_length hlength
  have hne : ∀ f : Workload → Option ℚ, post.items.map f ≠ [] := by
    intro f hnil
    rw [List.map_eq_nil_iff.mp hnil] at hlength
    cases hlength
  constructor
  · show ((aggregateStability post).oom.any fun v => v ≤ 0) = true ↔ allValues _ _ = true
    rw [hagg, allValues_eq_true, sumValues_le_zero_iff]
    · exact (and_iff_right (hne _)).symm
    · intro v hv
      obtain ⟨item, hitem, heq⟩ := List.mem_map.mp hv
      exact (hnonneg item hitem).1 v heq
  · show ((aggregateStability post).restarts.any fun v => v ≤ 0) = true ↔ allValues _ _ = true
    rw [hagg, allValues_eq_true, sumValues_le_zero_iff]
    · exact (and_iff_right (hne _)).symm
    · intro v hv
      obtain ⟨item, hitem, heq⟩ := List.mem_map.mp hv
      exact (hnonneg item hitem).2 v heq

/-- **The success criteria agree**: with the thresholds of the criteria file a run
whose counters are not negative passes its evaluation exactly when it is complete
and passes the checks of a comparison that are about it alone. -/
theorem evaluateRun_iff (hnonneg : post.CountersNonneg) :
    (evaluateRun post).verdict = .pass ↔
      metricsComplete post = true ∧
        (compare pre post successCriteria).checks.systemErrorRate = true ∧
        (compare pre post successCriteria).checks.businessFailureRate = true ∧
        (compare pre post successCriteria).checks.cpuThrottlingAvg = true ∧
        (compare pre post successCriteria).checks.cpuThrottlingP95 = true ∧
        (compare pre post successCriteria).checks.oom = true ∧
        (compare pre post successCriteria).checks.restarts = true ∧
        post.http.droppedIterations = some 0 := by
  have hdropped : (runChecks post).droppedIterations = true ↔
      post.http.droppedIterations = some 0 := by
    simp only [runChecks, decide_eq_true_eq]
    cases post.http.droppedIterations <;> simp
  have hpass : (evaluateRun post).verdict = .pass ↔ (runChecks post).all = true :=
    verdictOf_eq_pass _
  have hsystem : (compare pre post successCriteria).checks.systemErrorRate =
      (runChecks post).systemErrorRate := rfl
  have hbusiness : (compare pre post successCriteria).checks.businessFailureRate =
      (runChecks post).businessFailureRate := rfl
  rw [hpass, RunChecks.all, hsystem, hbusiness]
  simp only [Bool.and_eq_true, hdropped, runChecks_metricsComplete]
  by_cases hcomplete : metricsComplete post = true
  · have hlength := length_of_metricsComplete hcomplete
    obtain ⟨havg, hp95⟩ := throttling_agree pre hlength
    obtain ⟨hoom, hrestarts⟩ := counters_agree pre hlength hnonneg
    rw [havg, hp95, hoom, hrestarts]
    constructor
    · rintro ⟨⟨⟨⟨⟨⟨⟨⟨h, -⟩, h₁⟩, h₂⟩, h₃⟩, h₄⟩, h₅⟩, h₆⟩, h₇⟩
      exact ⟨h, h₁, h₂, h₄, h₅, h₆, h₇, h₃⟩
    · rintro ⟨h, h₁, h₂, h₄, h₅, h₆, h₇, h₃⟩
      exact ⟨⟨⟨⟨⟨⟨⟨⟨h, limited_of_throttling h₄⟩, h₁⟩, h₂⟩, h₃⟩, h₄⟩, h₅⟩, h₆⟩, h₇⟩
  · simp [hcomplete]

/-- The POST run of the collected containers passes. -/
theorem evaluateRun_collected : (evaluateRun (postRun (.value "a"))).verdict = .pass :=
  (evaluateRun_iff (preRun (.value "a")) (steadyRun_countersNonneg _ _ _ _ _)).mpr
    (by decide +kernel)

end Agree

end LoadTest

end FinOpsPipeline
