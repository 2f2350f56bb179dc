import FinOpsPipeline.Clients.Prometheus

/-!
`_run_analysis` of `finops/app/main.py`: from the KRR data of a workload and the
replies of Prometheus and Chronos to the response and the stored log row.

* `runAnalysis`: the analysis.
* `MetricsTrusted`: the failed queries that the analysis notices. A failed query
  counts as an empty result, so that the only one noticed is a number of restarts
  that is not finite.
* `runAnalysis_policyEvaluations`: RULE_03 and RULE_04 of a response.
* `missing_metrics_fail_closed`: they do not pass on failed queries exactly for
  these replies; `failed_oom_query_passes` is a reply for which they do.
-/

namespace FinOpsPipeline

open PyFloat PrometheusClient

namespace Analysis

/-! ### The data of an analysis -/

/-- A dictionary with optional CPU and memory strings. -/
structure Amounts where
  cpu : Option String
  memory : Option String

/-- The entry of a workload in a KRR scan; an absent dictionary is one without
entries. -/
structure KrrData where
  container : Option String
  current : Amounts
  krrRecommended : Amounts
  currentLimits : Amounts

/-- What happens to a request to Chronos: it raises, or it is answered with a
status code and a body, which may not be the dictionary of a forecast. -/
inductive ChronosReply where
  | raised
  | response (statusCode : ℕ) (body : Option ChronosForecast)

/-- `get_future_forecast`, given the reply. -/
def getFutureForecast : ChronosReply → Option ChronosForecast
  | .raised => none
  | .response statusCode body => if statusCode = 200 then body else none

/-- The arguments of `save_log`. -/
structure LogRow where
  ns : String
  containerName : String
  deploymentName : String
  cpuCurrent : String
  cpuRecommended : String
  memCurrent : String
  memRecommended : String
  costSavingsPct : PyFloat
  costSavingsAmount : PyFloat
  currentCost : PyFloat
  finalCost : PyFloat
  cpuUtilizationPct : Option PyFloat
  oomKilled : Bool
  throttled : Bool

/-- `AnalysisResponse`, without its text. -/
structure AnalysisResponse where
  deploymentName : String
  ns : String
  containerName : String
  cpuReductionPct : PyFloat
  memoryReductionPct : PyFloat
  costSavingsPct : PyFloat
  riskScore : RiskScore
  overallStatus : OverallStatus
  recommendations : RecommendationData
  policyEvaluations : List PolicyResult
  telegramSent : Bool

/-- Why there is no response: status 503 without KRR data, and status 500 for any
other exception. -/
inductive AnalysisError where
  | krrUnavailable
  | internal

/-! ### The analysis -/

/-- A text that is there and not empty. -/
def nonempty (s : Option String) : Option String := s.filter (· ≠ "")

/-- The container that is analysed. -/
def analysedContainer (deploymentName : String) (containerName : Option String)
    (krrData : KrrData) : String :=
  ((nonempty containerName).or (nonempty krrData.container)).getD deploymentName

/-- The current requests: those of Prometheus, else those of KRR. -/
def currentSpec (answer : PromQuery → PromReply) (krrData : KrrData) : ResourceSpec :=
  (getCurrentResourceSpec answer).getD
    ⟨krrData.current.cpu.getD "0m", krrData.current.memory.getD "0Mi"⟩

/-- The recommended requests; the current one where KRR has none. -/
def krrSpec (current : ResourceSpec) (krrData : KrrData) : ResourceSpec :=
  ⟨(nonempty krrData.krrRecommended.cpu).getD current.cpu,
    (nonempty krrData.krrRecommended.memory).getD current.memory⟩

/-- The metrics for the engine, with the default of the field that is not passed on. -/
def promMetrics (answer : PromQuery → PromReply) : Option PrometheusMetrics :=
  (getWorkloadMetrics answer).map fun promRaw =>
    { oomKilled := promRaw.oomKilled
      restartCount := promRaw.restartCount
      avgCpuUsagePct := promRaw.avgCpuUsagePct
      throttled := false }

/-- The arguments of `evaluate_optimization`. -/
def policyInput (krrData : KrrData) (answer : PromQuery → PromReply) (chronos : ChronosReply) :
    PolicyInput :=
  let current := currentSpec answer krrData
  { currentRes := current
    krrRes := krrSpec current krrData
    promMetrics := promMetrics answer
    chronosForecast := getFutureForecast chronos
    cpuDataInsufficient := krrData.krrRecommended.cpu.isNone
    memDataInsufficient := krrData.krrRecommended.memory.isNone
    cpuLimitStr := krrData.currentLimits.cpu
    memoryLimitStr := krrData.currentLimits.memory }

/-- The signed reduction from the current to the final value, in percent. -/
def reductionPct (curr final : PyFloat) : PyFloat :=
  if lt (fin 0) curr then (curr - final) / curr * fin 100 else fin 0

/-- The response that is built from an evaluation. -/
def responseOf (deploymentName ns container : String) (out : Evaluation) : AnalysisResponse :=
  let current := out.recommendations.current
  let final := out.recommendations.final
  { deploymentName := deploymentName
    ns := ns
    containerName := container
    cpuReductionPct := (reductionPct (parseCpu current.cpu) (parseCpu final.cpu)).round 10
    memoryReductionPct :=
      (reductionPct (parseMemory current.memory) (parseMemory final.memory)).round 10
    costSavingsPct := out.costChangePct.round 10
    riskScore := out.riskScore
    overallStatus := out.overallStatus
    recommendations := out.recommendations
    policyEvaluations := out.policyEvals
    telegramSent := false }

/-- The row that is stored in the database. -/
def logRowOf (deploymentName ns container : String) (prom : Option PrometheusMetrics)
    (out : Evaluation) : LogRow :=
  { ns := ns
    containerName := container
    deploymentName := deploymentName
    cpuCurrent := out.recommendations.current.cpu
    cpuRecommended := out.recommendations.final.cpu
    memCurrent := out.recommendations.current.memory
    memRecommended := out.recommendations.final.memory
    costSavingsPct := out.costChangePct
    costSavingsAmount := out.costSavingsAmount
    currentCost := out.currentCost
    finalCost := out.finalCost
    cpuUtilizationPct := prom.bind PrometheusMetrics.avgCpuUsagePct
    oomKilled := prom.any PrometheusMetrics.oomKilled
    throttled := prom.any PrometheusMetrics.throttled }

/-- `_run_analysis`, given the KRR data and the replies to its requests. -/
def runAnalysis (deploymentName ns : String) (containerName : Option String)
    (krrData : Option KrrData) (answer : PromQuery → PromReply) (chronos : ChronosReply) :
    Except AnalysisError (AnalysisResponse × LogRow) :=
  match krrData with
  | none => .error .krrUnavailable
  | some krrData =>
      let container := analysedContainer deploymentName containerName krrData
      match PolicyEngine.evaluateOptimization (policyInput krrData answer chronos) with
      | none => .error .internal
      | some out =>
          .ok (responseOf deploymentName ns container out,
            logRowOf deploymentName ns container (promMetrics answer) out)

/-- An analysis whose evaluation returns gives a response. -/
lemma runAnalysis_of_evaluate (deploymentName ns : String) (containerName : Option String)
    {data : KrrData} {answer : PromQuery → PromReply} {chronos : ChronosReply} {out : Evaluation}
    (h : PolicyEngine.evaluateOptimization (policyInput data answer chronos) = some out) :
    runAnalysis deploymentName ns containerName (some data) answer chronos =
      .ok (responseOf deploymentName ns (analysedContainer deploymentName containerName data) out,
        logRowOf deploymentName ns (analysedContainer deploymentName containerName data)
          (promMetrics answer) out) := by
  simp only [runAnalysis, h]

section Run

variable {deploymentName ns : String} {containerName : Option String} {krrData : Option KrrData}
  {answer : PromQuery → PromReply} {chronos : ChronosReply} {response : AnalysisResponse}
  {row : LogRow}

/-- What an analysis returns, in terms of the evaluation. -/
lemma runAnalysis_eq_ok
    (h : runAnalysis deploymentName ns containerName krrData answer chronos =
      .ok (response, row)) :
    ∃ data out, krrData = some data ∧
      PolicyEngine.evaluateOptimization (policyInput data answer chronos) = some out ∧
      response = responseOf deploymentName ns
        (analysedContainer deploymentName containerName data) out := by
  cases krrData with
  | none => cases h
  | some data =>
      cases hout : PolicyEngine.evaluateOptimization (policyInput data answer chronos) with
      | none => simp [runAnalysis, hout] at h
      | some out =>
          simp only [runAnalysis, hout, Except.ok.injEq, Prod.mk.injEq] at h
          exact ⟨data, out, rfl, hout, h.1.symm⟩

/-! ### Failed queries -/

/-- The rules about OOM kills and restarts do not pass when their query failed. -/
def FailsClosed (answer : PromQuery → PromReply) (evals : List PolicyResult) : Prop :=
  ((answer .oomKilled).Failed → ⟨.rule03, .pass⟩ ∉ evals) ∧
    ((answer .restarts).Failed → ⟨.rule04, .pass⟩ ∉ evals)

/-- The query of the restarts did not fail, and if the one of the OOM kills did, it
returned a number that is not finite. -/
def MetricsTrusted (answer : PromQuery → PromReply) : Prop :=
  ¬ (answer .restarts).Failed ∧
    ((answer .oomKilled).Failed →
      ∃ x, queryPrometheus (answer .restarts) = some x ∧ ∀ q, x ≠ fin q)

/-- The RULE_03 and RULE_04 of a response. -/
lemma runAnalysis_policyEvaluations
    (h : runAnalysis deploymentName ns containerName krrData answer chronos =
      .ok (response, row)) (s : RuleStatus) :
    (⟨.rule03, s⟩ ∈ response.policyEvaluations ↔
      s = PolicyEngine.dangerStatus (promMetrics answer) fun m => m.oomKilled) ∧
    (⟨.rule04, s⟩ ∈ response.policyEvaluations ↔
      s = PolicyEngine.dangerStatus (promMetrics answer) fun m => decide (10 ≤ m.restartCount)) := by
  obtain ⟨data, out, -, hout, rfl⟩ := runAnalysis_eq_ok h
  obtain ⟨-, -, hevals, -⟩ := PolicyEngine.evaluateOptimization_eq_some hout
  obtain ⟨s₁, s₂, s₅, s₇, s₈, hall⟩ :=
    PolicyEngine.verdict_policyEvals (policyInput data answer chronos)
  have hlist : (responseOf deploymentName ns
      (analysedContainer deploymentName containerName data) out).policyEvaluations = _ :=
    hevals.trans hall
  rw [hlist]
  constructor <;> simp [policyInput]

/-- There are no metrics exactly when the number of restarts is not finite. -/
lemma promMetrics_eq_none :
    promMetrics answer = none ↔
      ∃ x, queryPrometheus (answer .restarts) = some x ∧ ∀ q, x ≠ fin q := by
  rw [promMetrics, Option.map_eq_none_iff, getWorkloadMetrics]
  cases queryPrometheus (answer .restarts) with
  | none => simp [restartCountOf]
  | some x => cases x <;> simp [restartCountOf, truncInt]

/-- A failed query shows no danger. -/
lemma promMetrics_of_failed {m : PrometheusMetrics} (h : promMetrics answer = some m) :
    ((answer .oomKilled).Failed → m.oomKilled = false) ∧
      ((answer .restarts).Failed → m.restartCount = 0) := by
  obtain ⟨raw, hraw, rfl⟩ := Option.map_eq_some_iff.mp h
  simp only [getWorkloadMetrics, Option.bind_eq_bind, Option.bind_eq_some_iff, Option.pure_def,
    Option.some.injEq] at hraw
  obtain ⟨restartCount, hcount, rfl⟩ := hraw
  constructor
  · intro hfailed
    simp [queryPrometheus_of_failed hfailed]
  · intro hfailed
    rw [queryPrometheus_of_failed hfailed] at hcount
    cases hcount
    rfl

/-- **Missing safety metrics**: the rules about OOM kills and restarts do not pass
when their query failed exactly when the replies are trusted. -/
theorem missing_metrics_fail_closed
    (h : runAnalysis deploymentName ns containerName krrData answer chronos =
      .ok (response, row)) :
    FailsClosed answer response.policyEvaluations ↔ MetricsTrusted answer := by
  obtain ⟨hrule03, hrule04⟩ := runAnalysis_policyEvaluations h .pass
  rw [FailsClosed, MetricsTrusted, hrule03, hrule04]
  cases hprom : promMetrics answer with
  | none =>
      have hnumber := promMetrics_eq_none.mp hprom
      have hanswered : ¬ (answer .restarts).Failed := by
        intro hfailed
        obtain ⟨x, hx, -⟩ := hnumber
        rw [queryPrometheus_of_failed hfailed] at hx
        cases hx
      exact iff_of_true ⟨fun _ => nofun, fun _ => nofun⟩ ⟨hanswered, fun _ => hnumber⟩
  | some m =>
      obtain ⟨hoom, hrestarts⟩ := promMetrics_of_failed hprom
      have hfinite : ¬ ∃ x, queryPrometheus (answer .restarts) = some x ∧ ∀ q, x ≠ fin q := by
        rw [← promMetrics_eq_none, hprom]
        nofun
      constructor
      · rintro ⟨hclosed03, hclosed04⟩
        refine ⟨fun hfailed => hclosed04 hfailed ?_, fun hfailed => absurd ?_ (hclosed03 hfailed)⟩
        · simp [PolicyEngine.dangerStatus, hrestarts hfailed]
        · simp [PolicyEngine.dangerStatus, hoom hfailed]
      · rintro ⟨hanswered, himp⟩
        exact ⟨fun hfailed => absurd (himp hfailed) hfinite,
          fun hfailed => absurd hfailed hanswered⟩

end Run

/-- KRR data of a container with a recommendation below its requests. -/
def smallerData : KrrData where
  container := some "app"
  current := ⟨some "1", some "1Gi"⟩
  krrRecommended := ⟨some "600m", some "700Mi"⟩
  currentLimits := ⟨none, none⟩

/-- The replies of a Prometheus that does not answer the query of the OOM kills. -/
def oomQueryFails (restarts : String) (query : PromQuery) : PromReply :=
  match query with
  | .oomKilled => .raised
  | .restarts => .response 200 (.result [some restarts])
  | _ => .response 200 (.result [])

/-- With a number of restarts that is not finite, the failed query is noticed. -/
theorem missing_metrics_fail_closed_nan :
    ∃ response row, runAnalysis "app" "prod" none (some smallerData) (oomQueryFails "NaN") .raised =
        .ok (response, row) ∧
      FailsClosed (oomQueryFails "NaN") response.policyEvaluations := by
  have hsome : (PolicyEngine.evaluateOptimization
      (policyInput smallerData (oomQueryFails "NaN") .raised)).isSome = true := by decide +kernel
  obtain ⟨out, hout⟩ := Option.isSome_iff_exists.mp hsome
  have hrun := runAnalysis_of_evaluate "app" "prod" none hout
  have hnan : queryPrometheus (oomQueryFails "NaN" .restarts) = some nan := by decide
  exact ⟨_, _, hrun, (missing_metrics_fail_closed hrun).mpr
    ⟨by decide, fun _ => ⟨nan, hnan, nofun⟩⟩⟩

/-- When the query of the OOM kills has no answer, RULE_03 passes. -/
theorem failed_oom_query_passes :
    (oomQueryFails "0" .oomKilled).Failed ∧
      ∃ response row, runAnalysis "app" "prod" none (some smallerData) (oomQueryFails "0") .raised =
          .ok (response, row) ∧
        ⟨.rule03, .pass⟩ ∈ response.policyEvaluations := by
  have hevals : (PolicyEngine.evaluateOptimization
      (policyInput smallerData (oomQueryFails "0") .raised)).any
        (fun out => decide (⟨.rule03, .pass⟩ ∈ out.policyEvals)) = true := by decide +kernel
  obtain ⟨out, hout, hmem⟩ := (Option.any_eq_true _ _).mp hevals
  exact ⟨trivial, _, _, runAnalysis_of_evaluate "app" "prod" none hout, of_decide_eq_true hmem⟩

end Analysis

end FinOpsPipeline
