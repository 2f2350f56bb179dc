import FinOpsPipeline.Approval.Recommendation

/-!
What an analysis leaves behind: the row of the database and the entry of the cache.

The metrics dictionary of `get_workload_metrics` has four entries, and `_run_analysis`
passes three of them on to `PrometheusMetrics`. The fourth, `throttled`, takes its
default, so that the row never shows it (`throttling_not_recorded`).

* `runAnalysisStoring`: the analysis with its effects.
* `RecordAgrees`: the row and the entry agree with what was collected and returned.
* `recordAgrees_iff`: they do exactly when no throttling was collected
  (`ThrottlingUnseen`).
-/

namespace FinOpsPipeline

open PyFloat PrometheusClient

namespace Analysis

/-- `_run_analysis` with the arguments of `save_log` and the cache that it leaves
behind. -/
def runAnalysisStoring (now : ℚ) (cache : Cache) (deploymentName ns : String)
    (containerName : Option String) (krrData : Option KrrData) (answer : PromQuery → PromReply)
    (chronos : ChronosReply) : Except AnalysisError (AnalysisResponse × LogRow × Cache) := do
  let result ← runAnalysis deploymentName ns containerName krrData answer chronos
  return (result.1, result.2, storeRecommendation cache now deploymentName ns result.1)

/-- The row agrees with the response, with the figures of the engine for the same
input and with the collected metrics, and the cache has the response under the names
of the workload. -/
structure RecordAgrees (deploymentName ns : String) (krrData : Option KrrData)
    (answer : PromQuery → PromReply) (chronos : ChronosReply) (response : AnalysisResponse)
    (row : LogRow) (cache : Cache) : Prop where
  cpu : row.cpuRecommended = response.recommendations.final.cpu
  memory : row.memRecommended = response.recommendations.final.memory
  costs : ∃ data out, krrData = some data ∧
    PolicyEngine.evaluateOptimization (policyInput data answer chronos) = some out ∧
    row.costSavingsPct = out.costChangePct ∧ row.costSavingsAmount = out.costSavingsAmount ∧
    row.currentCost = out.currentCost ∧ row.finalCost = out.finalCost
  cpuUtilization :
    row.cpuUtilizationPct = (getWorkloadMetrics answer).bind WorkloadMetrics.avgCpuUsagePct
  oomKilled : row.oomKilled = (getWorkloadMetrics answer).any WorkloadMetrics.oomKilled
  throttled : row.throttled = (getWorkloadMetrics answer).any WorkloadMetrics.throttled
  cached : ∃ cachedAt, cache (cacheKey ⟨ns, deploymentName, response.containerName⟩) =
    some (response, cachedAt)

/-- No throttling is collected: its query gives no positive number, or there are no
metrics, since the number of restarts is not finite. -/
def ThrottlingUnseen (answer : PromQuery → PromReply) : Prop :=
  (∀ x, queryPrometheus (answer .throttling) = some x → lt (fin 0) x = false) ∨
    ∃ x, queryPrometheus (answer .restarts) = some x ∧ ∀ q, x ≠ fin q

/-! ### The collected metrics -/

/-- The metrics of the row are those of the dictionary, but for the throttling. -/
lemma promMetrics_fields (answer : PromQuery → PromReply) :
    (promMetrics answer).bind PrometheusMetrics.avgCpuUsagePct =
        (getWorkloadMetrics answer).bind WorkloadMetrics.avgCpuUsagePct ∧
      (promMetrics answer).any PrometheusMetrics.oomKilled =
        (getWorkloadMetrics answer).any WorkloadMetrics.oomKilled ∧
      (promMetrics answer).any PrometheusMetrics.throttled = false := by
  rw [promMetrics]
  cases getWorkloadMetrics answer with
  | none => exact ⟨rfl, rfl, rfl⟩
  | some promRaw => exact ⟨rfl, rfl, rfl⟩

/-- Throttling is collected exactly when there are metrics and its query gives a
positive number. -/
lemma getWorkloadMetrics_throttled {answer : PromQuery → PromReply} :
    (getWorkloadMetrics answer).any WorkloadMetrics.throttled = false ↔
      ThrottlingUnseen answer := by
  rw [ThrottlingUnseen, ← promMetrics_eq_none, promMetrics, Option.map_eq_none_iff]
  cases hraw : getWorkloadMetrics answer with
  | none => exact iff_of_true rfl (.inr rfl)
  | some promRaw =>
      simp only [getWorkloadMetrics, Option.bind_eq_bind, Option.bind_eq_some_iff,
        Option.pure_def, Option.some.injEq] at hraw
      obtain ⟨restartCount, -, rfl⟩ := hraw
      cases queryPrometheus (answer .throttling) with
      | none => simp
      | some x => simp

/-! ### The record -/

section Run

variable {now : ℚ} {cache cache' : Cache} {deploymentName ns : String}
  {containerName : Option String} {krrData : Option KrrData} {answer : PromQuery → PromReply}
  {chronos : ChronosReply} {response : AnalysisResponse} {row : LogRow}

/-- An analysis that returns has evaluated its input, and its response, its row and its
entry of the cache are made from the evaluation. -/
lemma runAnalysisStoring_eq_ok
    (h : runAnalysisStoring now cache deploymentName ns containerName krrData answer chronos =
      .ok (response, row, cache')) :
    ∃ data out, krrData = some data ∧
      PolicyEngine.evaluateOptimization (policyInput data answer chronos) = some out ∧
      response = responseOf deploymentName ns
        (analysedContainer deploymentName containerName data) out ∧
      row = logRowOf deploymentName ns (analysedContainer deploymentName containerName data)
        (promMetrics answer) out ∧
      cache' = storeRecommendation cache now deploymentName ns response := by
  rw [runAnalysisStoring] at h
  cases hrun : runAnalysis deploymentName ns containerName krrData answer chronos with
  | error e =>
      rw [hrun] at h
      cases h
  | ok result =>
      obtain ⟨response', row'⟩ := result
      rw [hrun] at h
      cases h
      obtain ⟨data, out, rfl, hout, rfl⟩ := runAnalysis_eq_ok hrun
      rw [runAnalysis_of_evaluate deploymentName ns containerName hout] at hrun
      cases hrun
      exact ⟨data, out, rfl, hout, rfl, rfl, rfl⟩

/-- **The stored record**: the row and the entry of the cache agree with what was
collected and returned exactly when no throttling was collected. -/
theorem recordAgrees_iff
    (h : runAnalysisStoring now cache deploymentName ns containerName krrData answer chronos =
      .ok (response, row, cache')) :
    RecordAgrees deploymentName ns krrData answer chronos response row cache' ↔
      ThrottlingUnseen answer := by
  obtain ⟨hutil, hoom, hthrottled⟩ := promMetrics_fields answer
  obtain ⟨data, out, rfl, hout, rfl, rfl, rfl⟩ := runAnalysisStoring_eq_ok h
  constructor
  · intro hagrees
    exact getWorkloadMetrics_throttled.mp (hagrees.throttled.symm.trans hthrottled)
  · intro hunseen
    exact
      { cpu := rfl
        memory := rfl
        costs := ⟨data, out, rfl, hout, rfl, rfl, rfl, rfl⟩
        cpuUtilization := hutil
        oomKilled := hoom
        throttled := hthrottled.trans (getWorkloadMetrics_throttled.mpr hunseen).symm
        cached := ⟨now, Function.update_self _ _ _⟩ }

end Run

/-- The replies of a Prometheus that has only an answer to the query of the
throttling. -/
def throttlingAnswer (throttling : String) (query : PromQuery) : PromReply :=
  match query with
  | .throttling => .response 200 (.result [some throttling])
  | _ => .response 200 (.result [])

/-- An analysis with these replies returns. -/
lemma runAnalysisStoring_throttlingAnswer (throttling : String)
    (h : (PolicyEngine.evaluateOptimization
      (policyInput smallerData (throttlingAnswer throttling) .raised)).isSome = true) :
    ∃ response row cache, runAnalysisStoring 0 (fun _ => none) "app" "prod" none
      (some smallerData) (throttlingAnswer throttling) .raised = .ok (response, row, cache) := by
  obtain ⟨out, hout⟩ := Option.isSome_iff_exists.mp h
  have hrun := runAnalysis_of_evaluate "app" "prod" none hout
  exact ⟨_, _, _, by rw [runAnalysisStoring, hrun]; exact rfl⟩

/-- Without throttled periods the record agrees. -/
theorem recordAgrees_iff_zero :
    ∃ response row cache, runAnalysisStoring 0 (fun _ => none) "app" "prod" none
        (some smallerData) (throttlingAnswer "0") .raised = .ok (response, row, cache) ∧
      RecordAgrees "app" "prod" (some smallerData) (throttlingAnswer "0") .raised response row
        cache := by
  obtain ⟨response, row, cache, hrun⟩ :=
    runAnalysisStoring_throttlingAnswer "0" (by decide +kernel)
  refine ⟨response, row, cache, hrun, (recordAgrees_iff hrun).mpr (.inl fun x hx => ?_)⟩
  have hzero : queryPrometheus (throttlingAnswer "0" .throttling) = some (fin 0) := by
    decide +kernel
  rw [hzero, Option.some.injEq] at hx
  rw [← hx]
  decide

/-- Twelve throttled periods are collected, and the row does not show them. -/
theorem throttling_not_recorded :
    (getWorkloadMetrics (throttlingAnswer "12")).any WorkloadMetrics.throttled = true ∧
      ∃ response row cache, runAnalysisStoring 0 (fun _ => none) "app" "prod" none
          (some smallerData) (throttlingAnswer "12") .raised = .ok (response, row, cache) ∧
        row.throttled = false ∧
        ¬ RecordAgrees "app" "prod" (some smallerData) (throttlingAnswer "12") .raised response
          row cache := by
  have hcollected :
      (getWorkloadMetrics (throttlingAnswer "12")).any WorkloadMetrics.throttled = true := by
    decide +kernel
  obtain ⟨response, row, cache, hrun⟩ :=
    runAnalysisStoring_throttlingAnswer "12" (by decide +kernel)
  obtain ⟨data, out, -, -, -, hrow, -⟩ := runAnalysisStoring_eq_ok hrun
  have hrecorded : row.throttled = false := by
    rw [hrow]
    exact (promMetrics_fields (throttlingAnswer "12")).2.2
  refine ⟨hcollected, response, row, cache, hrun, hrecorded, fun hagrees => ?_⟩
  rw [← hagrees.throttled, hrecorded] at hcollected
  cases hcollected

end Analysis

end FinOpsPipeline
