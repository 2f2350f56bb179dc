import FinOpsPipeline.Engine.Quantity

/-!
The policy engine, `PolicyEngine.evaluate_optimization` of
`finops/app/engine.py`.

* `PolicyInput`: its arguments; `Draft`: the local variables that the rules
  change, one definition for each of the rules `rule01` to `rule07`.
* `verdict`: the whole evaluation with its numbers as they are before they are
  formatted and rounded; `rule08` applies the limits.
* `evaluateOptimization`: what the function returns, `none` if a value cannot
  be formatted.

`verdict_policyEvals` lists the results with the status of each rule, and
`uncapped_mem`, `uncapped_cpu_ne_nan` say which numbers the formatters
get.
-/

namespace FinOpsPipeline

open PyFloat

/-! ### The data of an evaluation -/

/-- `ResourceSpec`. -/
structure ResourceSpec where
  cpu : String
  memory : String
  deriving DecidableEq

/-- `PrometheusMetrics`. -/
structure PrometheusMetrics where
  oomKilled : Bool
  restartCount : ℤ
  avgCpuUsagePct : Option PyFloat
  throttled : Bool

/-- `ChronosForecast`. -/
structure ChronosForecast where
  predictedMaxCpuPct : Option PyFloat
  predictedMaxMemPct : Option PyFloat
  predictedReqPerSec : Option PyFloat

/-- The identifiers of the rules. -/
inductive RuleId where
  | rule01 | rule02 | rule03 | rule04 | rule05 | rule06 | rule07 | rule08
  deriving DecidableEq

/-- The statuses of a rule: `"PASS"`, `"WARN"` and `"FAIL"`. -/
inductive RuleStatus where
  | pass | warn | fail
  deriving DecidableEq

/-- `PolicyResult`, without its texts. -/
structure PolicyResult where
  ruleId : RuleId
  status : RuleStatus
  deriving DecidableEq

/-- The risk levels: `"SAFE"`, `"MEDIUM"` and `"HIGH"`. -/
inductive RiskScore where
  | safe | medium | high
  deriving DecidableEq

/-- The overall status: `"PASS"` or `"FAIL"`. -/
inductive OverallStatus where
  | pass | fail
  deriving DecidableEq

/-- `RecommendationData`. -/
structure RecommendationData where
  current : ResourceSpec
  krr : ResourceSpec
  final : ResourceSpec
  krrCpuDataInsufficient : Bool
  krrMemoryDataInsufficient : Bool

/-- The arguments of `evaluate_optimization` that it reads. -/
structure PolicyInput where
  currentRes : ResourceSpec
  krrRes : ResourceSpec
  promMetrics : Option PrometheusMetrics
  chronosForecast : Option ChronosForecast
  cpuDataInsufficient : Bool
  memDataInsufficient : Bool
  cpuLimitStr : Option String
  memoryLimitStr : Option String

/-- The local variables that the rules change. -/
structure Draft where
  finalCpu : PyFloat
  finalMem : PyFloat
  score : ℕ
  policyEvals : List PolicyResult

/-- The results of an evaluation, the numbers before formatting and rounding. -/
structure Verdict where
  riskScore : RiskScore
  overallStatus : OverallStatus
  finalCpu : PyFloat
  finalMem : PyFloat
  policyEvals : List PolicyResult
  costChangePct : PyFloat
  costSavingsAmount : PyFloat
  currentCost : PyFloat
  finalCost : PyFloat

/-- What `evaluate_optimization` returns. -/
structure Evaluation where
  riskScore : RiskScore
  overallStatus : OverallStatus
  recommendations : RecommendationData
  policyEvals : List PolicyResult
  costChangePct : PyFloat
  costSavingsAmount : PyFloat
  currentCost : PyFloat
  finalCost : PyFloat

/-! ### The rules -/

namespace PolicyEngine

/-- A rule adds to the score and appends its result. -/
def record (d : Draft) (points : ℕ) (rule : RuleId) (status : RuleStatus) : Draft :=
  { d with score := d.score + points, policyEvals := d.policyEvals ++ [⟨rule, status⟩] }

/-- The relative reduction from `curr` to `krr`, zero without a current value. -/
def reduction (curr krr : PyFloat) : PyFloat :=
  if lt (fin 0) curr then (curr - krr) / curr else fin 0

/-- RULE_01: a CPU reduction of one half or more is softened to 70 percent of the
current value. -/
def rule01 (currCpu krrCpu : PyFloat) (d : Draft) : Draft :=
  if le (fin (1 / 2)) (reduction currCpu krrCpu) then
    { record d 25 .rule01 .warn with finalCpu := currCpu * fin (7 / 10) }
  else record d 0 .rule01 .pass

/-- RULE_02: a memory reduction of 60 percent or more is softened to 60 percent of
the current value. -/
def rule02 (currMem krrMem : PyFloat) (d : Draft) : Draft :=
  if le (fin (6 / 10)) (reduction currMem krrMem) then
    { record d 20 .rule02 .warn with finalMem := currMem * fin (6 / 10) }
  else record d 0 .rule02 .pass

/-- The status of the rules that look for a danger in the metrics. -/
def dangerStatus (prom : Option PrometheusMetrics) (danger : PrometheusMetrics → Bool) :
    RuleStatus :=
  match prom with
  | none => .warn
  | some m => if danger m then .fail else .pass

/-- A rule that keeps the current values when the metrics show a danger, and
warns without metrics. -/
def dangerRule (rule : RuleId) (points : ℕ) (danger : PrometheusMetrics → Bool)
    (prom : Option PrometheusMetrics) (currCpu currMem : PyFloat) (d : Draft) : Draft :=
  match dangerStatus prom danger with
  | .fail => { record d points rule .fail with finalCpu := currCpu, finalMem := currMem }
  | .warn => record d 15 rule .warn
  | .pass => record d 0 rule .pass

/-- RULE_03: the workload was killed for lack of memory. -/
def rule03 := dangerRule .rule03 60 fun m => m.oomKilled

/-- RULE_04: the pods were restarted ten times or more. -/
def rule04 := dangerRule .rule04 50 fun m => decide (10 ≤ m.restartCount)

/-- RULE_05: a forecast of 80 percent CPU or more keeps the current CPU, and
without a forecast at least 85 percent of it is kept. -/
def rule05 (forecast : Option ChronosForecast) (currCpu : PyFloat) (d : Draft) : Draft :=
  match forecast.bind ChronosForecast.predictedMaxCpuPct with
  | some pct =>
      if le (fin 80) pct then { record d 45 .rule05 .warn with finalCpu := currCpu }
      else record d 0 .rule05 .pass
  | none =>
      { record d 30 .rule05 .warn with finalCpu := pyMax d.finalCpu (currCpu * fin (85 / 100)) }

/-- RULE_06: a low average load without an OOM kill lowers the score. -/
def rule06 (prom : Option PrometheusMetrics) (d : Draft) : Draft :=
  match prom with
  | some m =>
      if (m.avgCpuUsagePct.any fun pct => lt pct (fin 20)) && !m.oomKilled then
        record { d with score := d.score - 15 } 0 .rule06 .pass
      else record d 0 .rule06 .pass
  | none => record d 0 .rule06 .pass

/-- RULE_07: the history was too short for a recommendation. -/
def rule07 (cpuDataInsufficient memDataInsufficient : Bool) (d : Draft) : Draft :=
  if cpuDataInsufficient || memDataInsufficient then record d 10 .rule07 .warn
  else record d 0 .rule07 .pass

/-! ### The evaluation -/

/-- A limit string that is missing or empty gives no limit. -/
def limitOf (parse : String → PyFloat) (limitStr : Option String) : Option PyFloat :=
  (limitStr.filter (· ≠ "")).map parse

/-- A value above a positive limit. -/
def exceeds (limit : Option PyFloat) (final : PyFloat) : Bool :=
  limit.any fun l => lt (fin 0) l && lt l final

/-- A value above a positive limit is replaced by the limit. -/
def capped (limit : Option PyFloat) (final : PyFloat) : PyFloat :=
  if exceeds limit final then limit.getD final else final

/-- RULE_08: the status, by the two limits and the values before they are capped. -/
def rule08 (cpuLimit memoryLimit : Option PyFloat) (finalCpu finalMem : PyFloat) : RuleStatus :=
  if exceeds cpuLimit finalCpu || exceeds memoryLimit finalMem then .warn
  else if cpuLimit.isSome || memoryLimit.isSome then .pass
  else .warn

def cpuUnitCost : ℚ := 25

def memUnitCost : ℚ := 4

/-- The monthly cost of a request. -/
def cost (cpu mem : PyFloat) : PyFloat :=
  cpu * fin cpuUnitCost + mem / fin 1024 * fin memUnitCost

/-- The variables after RULE_01 and RULE_02, which soften the KRR values. -/
def softened (inp : PolicyInput) : Draft :=
  let currCpu := parseCpu inp.currentRes.cpu
  let currMem := parseMemory inp.currentRes.memory
  let krrCpu := parseCpu inp.krrRes.cpu
  let krrMem := parseMemory inp.krrRes.memory
  rule02 currMem krrMem (rule01 currCpu krrCpu ⟨krrCpu, krrMem, 0, []⟩)

/-- The variables after RULE_03 and RULE_04, which look at the metrics. -/
def guarded (inp : PolicyInput) : Draft :=
  let currCpu := parseCpu inp.currentRes.cpu
  let currMem := parseMemory inp.currentRes.memory
  rule04 inp.promMetrics currCpu currMem (rule03 inp.promMetrics currCpu currMem (softened inp))

/-- The variables after RULE_07. -/
def draft (inp : PolicyInput) : Draft :=
  rule07 inp.cpuDataInsufficient inp.memDataInsufficient
    (rule06 inp.promMetrics
      (rule05 inp.chronosForecast (parseCpu inp.currentRes.cpu) (guarded inp)))

/-- The risk level of a score. -/
def riskScore (score : ℕ) : RiskScore :=
  if 70 ≤ score then .high else if 35 ≤ score then .medium else .safe

/-- The overall status of a score. -/
def overallStatus (score : ℕ) : OverallStatus := if 70 ≤ score then .fail else .pass

/-- The final values before the limits: a failed evaluation falls back to the
current ones. -/
def uncapped (inp : PolicyInput) : PyFloat × PyFloat :=
  match overallStatus (draft inp).score with
  | .fail => (parseCpu inp.currentRes.cpu, parseMemory inp.currentRes.memory)
  | .pass => ((draft inp).finalCpu, (draft inp).finalMem)

/-- The evaluation, up to the formatting and rounding of its numbers. -/
def verdict (inp : PolicyInput) : Verdict :=
  let currCpu := parseCpu inp.currentRes.cpu
  let currMem := parseMemory inp.currentRes.memory
  let cpuLimit := limitOf parseCpu inp.cpuLimitStr
  let memoryLimit := limitOf parseMemory inp.memoryLimitStr
  let d := draft inp
  let status := overallStatus d.score
  let final := uncapped inp
  let finalCpu := capped cpuLimit final.1
  let finalMem := capped memoryLimit final.2
  let currentCost := cost currCpu currMem
  let finalCost := cost finalCpu finalMem
  let unpriced := status = .fail ∨ le currentCost (fin 0) = true
  { riskScore := riskScore d.score
    overallStatus := status
    finalCpu := finalCpu
    finalMem := finalMem
    policyEvals := d.policyEvals ++ [⟨.rule08, rule08 cpuLimit memoryLimit final.1 final.2⟩]
    costChangePct :=
      if unpriced then fin 0 else (currentCost - finalCost) / currentCost * fin 100
    costSavingsAmount := if unpriced then fin 0 else currentCost - finalCost
    currentCost := currentCost
    finalCost := finalCost }

lemma verdict_overallStatus (inp : PolicyInput) :
    (verdict inp).overallStatus = overallStatus (draft inp).score := rfl

/-- `PolicyEngine.evaluate_optimization`; `none` when a formatter raises. -/
def evaluateOptimization (inp : PolicyInput) : Option Evaluation := do
  let v := verdict inp
  let cpu ← formatCpu v.finalCpu
  let memory ← formatMemory v.finalMem
  return {
    riskScore := v.riskScore
    overallStatus := v.overallStatus
    recommendations :=
      { current := inp.currentRes
        krr := inp.krrRes
        final := ⟨cpu, memory⟩
        krrCpuDataInsufficient := inp.cpuDataInsufficient
        krrMemoryDataInsufficient := inp.memDataInsufficient }
    policyEvals := v.policyEvals
    costChangePct := v.costChangePct.round 10
    costSavingsAmount := v.costSavingsAmount.round 100
    currentCost := v.currentCost.round 100
    finalCost := v.finalCost.round 100 }

/-- What an evaluation returns, in terms of its numbers. -/
lemma evaluateOptimization_eq_some {inp : PolicyInput} {out : Evaluation}
    (h : evaluateOptimization inp = some out) :
    formatCpu (verdict inp).finalCpu = some out.recommendations.final.cpu ∧
      formatMemory (verdict inp).finalMem = some out.recommendations.final.memory ∧
      out.policyEvals = (verdict inp).policyEvals ∧
      out.overallStatus = (verdict inp).overallStatus := by
  simp only [evaluateOptimization, Option.bind_eq_bind, Option.bind_eq_some_iff,
    Option.pure_def, Option.some.injEq] at h
  obtain ⟨cpu, hcpu, memory, hmemory, rfl⟩ := h
  exact ⟨hcpu, hmemory, rfl, rfl⟩

/-! ### The results -/

lemma dangerRule_policyEvals (rule : RuleId) (points : ℕ) (danger : PrometheusMetrics → Bool)
    (prom : Option PrometheusMetrics) (currCpu currMem : PyFloat) (d : Draft) :
    (dangerRule rule points danger prom currCpu currMem d).policyEvals =
      d.policyEvals ++ [⟨rule, dangerStatus prom danger⟩] := by
  rw [dangerRule]
  split <;> rename_i h <;> rw [h] <;> rfl

lemma rule01_policyEvals (currCpu krrCpu : PyFloat) :
    ∃ s, ∀ d, (rule01 currCpu krrCpu d).policyEvals = d.policyEvals ++ [⟨.rule01, s⟩] := by
  by_cases h : le (fin (1 / 2)) (reduction currCpu krrCpu) = true
  · exact ⟨.warn, fun d => by rw [rule01, if_pos h]; rfl⟩
  · exact ⟨.pass, fun d => by rw [rule01, if_neg h]; rfl⟩

lemma rule02_policyEvals (currMem krrMem : PyFloat) :
    ∃ s, ∀ d, (rule02 currMem krrMem d).policyEvals = d.policyEvals ++ [⟨.rule02, s⟩] := by
  by_cases h : le (fin (6 / 10)) (reduction currMem krrMem) = true
  · exact ⟨.warn, fun d => by rw [rule02, if_pos h]; rfl⟩
  · exact ⟨.pass, fun d => by rw [rule02, if_neg h]; rfl⟩

lemma rule05_policyEvals (forecast : Option ChronosForecast) (currCpu : PyFloat) :
    ∃ s, ∀ d, (rule05 forecast currCpu d).policyEvals = d.policyEvals ++ [⟨.rule05, s⟩] := by
  cases hpct : forecast.bind ChronosForecast.predictedMaxCpuPct with
  | none => exact ⟨.warn, fun d => by rw [rule05, hpct]; rfl⟩
  | some pct =>
      by_cases h : le (fin 80) pct = true
      · exact ⟨.warn, fun d => by simp only [rule05, hpct, if_pos h]; rfl⟩
      · exact ⟨.pass, fun d => by simp only [rule05, hpct, if_neg h]; rfl⟩

lemma rule06_policyEvals (prom : Option PrometheusMetrics) (d : Draft) :
    (rule06 prom d).policyEvals = d.policyEvals ++ [⟨.rule06, .pass⟩] := by
  cases prom with
  | none => rfl
  | some m =>
      simp only [rule06]
      split <;> rfl

lemma rule07_policyEvals (cpuDataInsufficient memDataInsufficient : Bool) :
    ∃ s, ∀ d, (rule07 cpuDataInsufficient memDataInsufficient d).policyEvals =
      d.policyEvals ++ [⟨.rule07, s⟩] := by
  by_cases h : (cpuDataInsufficient || memDataInsufficient) = true
  · exact ⟨.warn, fun d => by rw [rule07, if_pos h]; rfl⟩
  · exact ⟨.pass, fun d => by rw [rule07, if_neg h]; rfl⟩

/-- **The results of an evaluation**: one for each rule, in order. -/
theorem verdict_policyEvals (inp : PolicyInput) :
    ∃ s₁ s₂ s₅ s₇ s₈, (verdict inp).policyEvals =
      [⟨.rule01, s₁⟩, ⟨.rule02, s₂⟩,
        ⟨.rule03, dangerStatus inp.promMetrics fun m => m.oomKilled⟩,
        ⟨.rule04, dangerStatus inp.promMetrics fun m => decide (10 ≤ m.restartCount)⟩,
        ⟨.rule05, s₅⟩, ⟨.rule06, .pass⟩, ⟨.rule07, s₇⟩, ⟨.rule08, s₈⟩] := by
  obtain ⟨s₁, h₁⟩ := rule01_policyEvals (parseCpu inp.currentRes.cpu) (parseCpu inp.krrRes.cpu)
  obtain ⟨s₂, h₂⟩ := rule02_policyEvals (parseMemory inp.currentRes.memory)
    (parseMemory inp.krrRes.memory)
  obtain ⟨s₅, h₅⟩ := rule05_policyEvals inp.chronosForecast (parseCpu inp.currentRes.cpu)
  obtain ⟨s₇, h₇⟩ := rule07_policyEvals inp.cpuDataInsufficient inp.memDataInsufficient
  refine ⟨s₁, s₂, s₅, s₇, rule08 (limitOf parseCpu inp.cpuLimitStr)
    (limitOf parseMemory inp.memoryLimitStr) (uncapped inp).1 (uncapped inp).2, ?_⟩
  simp only [verdict, draft, h₇, rule06_policyEvals, h₅, guarded, rule03, rule04,
    dangerRule_policyEvals, softened, h₂, h₁]
  rfl

/-! ### The final values -/

/-- The candidates for the final values have the properties `P` and `Q`. -/
structure Keeps (P Q : PyFloat → Prop) (d : Draft) : Prop where
  cpu : P d.finalCpu
  mem : Q d.finalMem

section Keeps

variable {P Q : PyFloat → Prop} {d : Draft} {currCpu currMem : PyFloat}

lemma rule01_keeps (krrCpu : PyFloat) (hcpu : P (currCpu * fin (7 / 10))) (h : Keeps P Q d) :
    Keeps P Q (rule01 currCpu krrCpu d) := by
  rw [rule01]
  split
  · exact ⟨hcpu, h.mem⟩
  · exact ⟨h.cpu, h.mem⟩

lemma rule02_keeps (krrMem : PyFloat) (hmem : Q (currMem * fin (6 / 10))) (h : Keeps P Q d) :
    Keeps P Q (rule02 currMem krrMem d) := by
  rw [rule02]
  split
  · exact ⟨h.cpu, hmem⟩
  · exact ⟨h.cpu, h.mem⟩

lemma dangerRule_keeps (rule : RuleId) (points : ℕ) (danger : PrometheusMetrics → Bool)
    (prom : Option PrometheusMetrics) (hcpu : P currCpu) (hmem : Q currMem) (h : Keeps P Q d) :
    Keeps P Q (dangerRule rule points danger prom currCpu currMem d) := by
  rw [dangerRule]
  split
  · exact ⟨hcpu, hmem⟩
  · exact ⟨h.cpu, h.mem⟩
  · exact ⟨h.cpu, h.mem⟩

lemma rule05_keeps (forecast : Option ChronosForecast) (hcpu : P currCpu)
    (hmargin : P (currCpu * fin (85 / 100))) (h : Keeps P Q d) :
    Keeps P Q (rule05 forecast currCpu d) := by
  rw [rule05]
  split
  · split
    · exact ⟨hcpu, h.mem⟩
    · exact ⟨h.cpu, h.mem⟩
  · refine ⟨?_, h.mem⟩
    simp only [pyMax]
    split
    · exact hmargin
    · exact h.cpu

lemma rule06_keeps (prom : Option PrometheusMetrics) (h : Keeps P Q d) :
    Keeps P Q (rule06 prom d) := by
  cases prom with
  | none => exact ⟨h.cpu, h.mem⟩
  | some m =>
      simp only [rule06]
      split <;> exact ⟨h.cpu, h.mem⟩

lemma rule07_keeps (cpuDataInsufficient memDataInsufficient : Bool) (h : Keeps P Q d) :
    Keeps P Q (rule07 cpuDataInsufficient memDataInsufficient d) := by
  rw [rule07]
  split <;> exact ⟨h.cpu, h.mem⟩

end Keeps

/-- **The rule of the final values**: what holds of the KRR values, the current
values and the softened current values holds of the values before the limits. -/
theorem uncapped_keeps {P Q : PyFloat → Prop} (inp : PolicyInput)
    (hkrr : P (parseCpu inp.krrRes.cpu)) (hcurr : P (parseCpu inp.currentRes.cpu))
    (hsoft : P (parseCpu inp.currentRes.cpu * fin (7 / 10)))
    (hmargin : P (parseCpu inp.currentRes.cpu * fin (85 / 100)))
    (hkrr' : Q (parseMemory inp.krrRes.memory)) (hcurr' : Q (parseMemory inp.currentRes.memory))
    (hsoft' : Q (parseMemory inp.currentRes.memory * fin (6 / 10))) :
    P (uncapped inp).1 ∧ Q (uncapped inp).2 := by
  have hdraft : Keeps P Q (draft inp) :=
    rule07_keeps _ _ (rule06_keeps _ (rule05_keeps _ hcurr hmargin
      (dangerRule_keeps _ _ _ _ hcurr hcurr' (dangerRule_keeps _ _ _ _ hcurr hcurr'
        (rule02_keeps _ hsoft' (rule01_keeps _ hsoft ⟨hkrr, hkrr'⟩))))))
  rw [uncapped]
  split
  · exact ⟨hcurr, hcurr'⟩
  · exact ⟨hdraft.cpu, hdraft.mem⟩

/-- The memory before the limits is a finite number and not negative. -/
lemma uncapped_mem (inp : PolicyInput) : ∃ q : ℚ, 0 ≤ q ∧ (uncapped inp).2 = fin q := by
  obtain ⟨c, hc, hcurr⟩ := parseMemory_eq_fin inp.currentRes.memory
  refine (uncapped_keeps (P := fun _ => True) (Q := fun x => ∃ q : ℚ, 0 ≤ q ∧ x = fin q) inp
    trivial trivial trivial trivial (parseMemory_eq_fin _) (parseMemory_eq_fin _) ?_).2
  exact ⟨c * (6 / 10), by positivity, by rw [hcurr, fin_mul]⟩

lemma mul_fin_ne_nan {x : PyFloat} (hx : x ≠ nan) {q : ℚ} (hq : q ≠ 0) : x * fin q ≠ nan := by
  cases x with
  | fin p => simp
  | inf n =>
      intro h
      have heq : (inf n * fin q : PyFloat) = if q = 0 then nan else inf (n ^^ decide (q < 0)) := rfl
      rw [heq, if_neg hq] at h
      cases h
  | nan => exact absurd rfl hx

/-- The CPU before the limits is a number if the KRR and the current value are. -/
lemma uncapped_cpu_ne_nan (inp : PolicyInput) (hkrr : parseCpu inp.krrRes.cpu ≠ nan)
    (hcurr : parseCpu inp.currentRes.cpu ≠ nan) : (uncapped inp).1 ≠ nan :=
  (uncapped_keeps (P := (· ≠ nan)) (Q := fun _ => True) inp hkrr hcurr
    (mul_fin_ne_nan hcurr (by norm_num)) (mul_fin_ne_nan hcurr (by norm_num))
    trivial trivial trivial).1

end PolicyEngine

end FinOpsPipeline
