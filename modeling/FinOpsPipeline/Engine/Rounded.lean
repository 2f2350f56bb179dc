import FinOpsPipeline.Engine.Policy
import FinOpsPipeline.Foundations.Binary64

/-!
The policy engine over rounded arithmetic: the evaluation of
`finops/app/engine.py` with every result of an operation passed to a rounding `fl`.

* `Rounded.verdict`, `Rounded.evaluateOptimization`: the evaluation. With
  `PyFloat.double` it computes as the program does; without rounding it is that of
  `PolicyEngine` (`verdict_id`, `evaluateOptimization_id`).
* `Rounded.draft_score`: the score is a sum over the rules, in which the rounding
  decides about RULE_01 and RULE_02 only.
-/

namespace FinOpsPipeline

open PyFloat
open scoped PyText

namespace PolicyEngine

/-! ### The points -/

/-- The forecast of the CPU load, if there is one. -/
def forecastPct (inp : PolicyInput) : Option PyFloat :=
  inp.chronosForecast.bind ChronosForecast.predictedMaxCpuPct

/-- The points of RULE_03 and of RULE_04. -/
def dangerPoints (points : ℕ) (danger : PrometheusMetrics → Bool)
    (prom : Option PrometheusMetrics) : ℕ :=
  match dangerStatus prom danger with
  | .fail => points
  | .warn => 15
  | .pass => 0

/-- The points of RULE_05. -/
def forecastPoints (inp : PolicyInput) : ℕ :=
  match forecastPct inp with
  | some pct => if le (fin 80) pct then 45 else 0
  | none => 30

/-- What RULE_06 takes away. -/
def loadDiscount (prom : Option PrometheusMetrics) : ℕ :=
  if prom.any fun m => (m.avgCpuUsagePct.any fun pct => lt pct (fin 20)) && !m.oomKilled
  then 15 else 0

/-- The points of RULE_07. -/
def dataPoints (inp : PolicyInput) : ℕ :=
  if inp.cpuDataInsufficient || inp.memDataInsufficient then 10 else 0

section Score

variable (d : Draft) (currCpu currMem : PyFloat)

lemma dangerRule_score (rule : RuleId) (points : ℕ) (danger : PrometheusMetrics → Bool)
    (prom : Option PrometheusMetrics) :
    (dangerRule rule points danger prom currCpu currMem d).score =
      d.score + dangerPoints points danger prom := by
  rw [dangerRule, dangerPoints]
  cases dangerStatus prom danger <;> rfl

lemma rule06_score (prom : Option PrometheusMetrics) :
    (rule06 prom d).score = d.score - loadDiscount prom := by
  cases prom with
  | none => rfl
  | some m =>
      simp only [rule06, loadDiscount, Option.any_some]
      split <;> rfl

lemma rule07_score (inp : PolicyInput) :
    (rule07 inp.cpuDataInsufficient inp.memDataInsufficient d).score =
      d.score + dataPoints inp := by
  rw [rule07, dataPoints]
  split <;> rfl

end Score

namespace Rounded

variable (fl : PyFloat → PyFloat)

/-! ### Quantities -/

/-- `parse_cpu`. -/
def parseCpu (cpuStr : String) : PyFloat :=
  if cpuStr = "" then fin 0
  else
    let s := lower (strip cpuStr.toList)
    if s.getLast? = some 'm' then
      ((readFloat s.dropLast).map fun x => fl (fl x / fin 1000)).getD (fin 0)
    else ((readFloat s).map fl).getD (fin 0)

/-- The conversion to MiB that `parse_memory` chooses by the unit in lower case. -/
def memoryUnit (unit : List Char) (val : PyFloat) : PyFloat :=
  if unit = ['t', 'i'] ∨ unit = ['t'] then fl (fl (val * fin 1024) * fin 1024)
  else if unit = ['g', 'i'] ∨ unit = ['g'] then fl (val * fin 1024)
  else if unit = ['m', 'i'] ∨ unit = ['m'] then val
  else if unit = ['k', 'i'] ∨ unit = ['k'] then fl (val / fin 1024)
  else fl (val / fin (1024 * 1024))

/-- `parse_memory`. -/
def parseMemory (memStr : String) : PyFloat :=
  if memStr = "" then fin 0
  else
    match scanNumber (strip memStr.toList) with
    | none => fin 0
    | some (val, rest) =>
        let unit := rest.dropWhile isSpace
        if unit.all Char.isAlpha then memoryUnit fl (lower unit) (fl (fin val)) else fin 0

/-- `format_cpu` returns a text: less than a core has to become whole millicores. -/
def cpuFormatted (cores : PyFloat) : Bool :=
  if lt cores (fin 1) then (roundInt (fl (cores * fin 1000))).isSome else true

/-- `format_memory` returns a text. -/
def memoryFormatted (mib : PyFloat) : Bool :=
  if le (fin 1024) mib && eq (mib % fin 1024) (fin 0) then
    (truncInt (fl (mib / fin 1024))).isSome
  else (roundInt mib).isSome

/-! ### The rules -/

/-- The relative reduction from `curr` to `krr`, zero without a current value. -/
def reduction (curr krr : PyFloat) : PyFloat :=
  if lt (fin 0) curr then fl (fl (curr - krr) / curr) else fin 0

/-- RULE_01. -/
def rule01 (currCpu krrCpu : PyFloat) (d : Draft) : Draft :=
  if le (fin (1 / 2)) (reduction fl currCpu krrCpu) then
    { record d 25 .rule01 .warn with finalCpu := fl (currCpu * fl (fin (7 / 10))) }
  else record d 0 .rule01 .pass

/-- RULE_02. -/
def rule02 (currMem krrMem : PyFloat) (d : Draft) : Draft :=
  if le (fl (fin (6 / 10))) (reduction fl currMem krrMem) then
    { record d 20 .rule02 .warn with finalMem := fl (currMem * fl (fin (6 / 10))) }
  else record d 0 .rule02 .pass

/-- RULE_05. -/
def rule05 (forecast : Option ChronosForecast) (currCpu : PyFloat) (d : Draft) : Draft :=
  match forecast.bind ChronosForecast.predictedMaxCpuPct with
  | some pct =>
      if le (fin 80) pct then { record d 45 .rule05 .warn with finalCpu := currCpu }
      else record d 0 .rule05 .pass
  | none =>
      { record d 30 .rule05 .warn with
        finalCpu := pyMax d.finalCpu (fl (currCpu * fl (fin (85 / 100)))) }

/-! ### The evaluation -/

/-- The monthly cost of a request. -/
def cost (cpu mem : PyFloat) : PyFloat :=
  fl (fl (cpu * fin cpuUnitCost) + fl (fl (mem / fin 1024) * fin memUnitCost))

/-- The variables after RULE_01 and RULE_02, which soften the KRR values. -/
def softened (inp : PolicyInput) : Draft :=
  let currCpu := parseCpu fl inp.currentRes.cpu
  let currMem := parseMemory fl inp.currentRes.memory
  let krrCpu := parseCpu fl inp.krrRes.cpu
  let krrMem := parseMemory fl inp.krrRes.memory
  rule02 fl currMem krrMem (rule01 fl currCpu krrCpu ⟨krrCpu, krrMem, 0, []⟩)

/-- The variables after RULE_03 and RULE_04, which look at the metrics. -/
def guarded (inp : PolicyInput) : Draft :=
  let currCpu := parseCpu fl inp.currentRes.cpu
  let currMem := parseMemory fl inp.currentRes.memory
  rule04 inp.promMetrics currCpu currMem
    (rule03 inp.promMetrics currCpu currMem (softened fl inp))

/-- The variables after RULE_07. -/
def draft (inp : PolicyInput) : Draft :=
  rule07 inp.cpuDataInsufficient inp.memDataInsufficient
    (rule06 inp.promMetrics
      (rule05 fl inp.chronosForecast (parseCpu fl inp.currentRes.cpu) (guarded fl inp)))

/-- The final values before the limits: a failed evaluation falls back to the
current ones. -/
def uncapped (inp : PolicyInput) : PyFloat × PyFloat :=
  match overallStatus (draft fl inp).score with
  | .fail => (parseCpu fl inp.currentRes.cpu, parseMemory fl inp.currentRes.memory)
  | .pass => ((draft fl inp).finalCpu, (draft fl inp).finalMem)

/-- The evaluation, up to the formatting of its numbers and their last rounding. -/
def verdict (inp : PolicyInput) : Verdict :=
  let currCpu := parseCpu fl inp.currentRes.cpu
  let currMem := parseMemory fl inp.currentRes.memory
  let cpuLimit := limitOf (parseCpu fl) inp.cpuLimitStr
  let memoryLimit := limitOf (parseMemory fl) inp.memoryLimitStr
  let d := draft fl inp
  let status := overallStatus d.score
  let final := uncapped fl inp
  let finalCpu := capped cpuLimit final.1
  let finalMem := capped memoryLimit final.2
  let currentCost := cost fl currCpu currMem
  let finalCost := cost fl finalCpu finalMem
  let unpriced := status = .fail ∨ le currentCost (fin 0) = true
  { riskScore := riskScore d.score
    overallStatus := status
    finalCpu := finalCpu
    finalMem := finalMem
    policyEvals := d.policyEvals ++ [⟨.rule08, rule08 cpuLimit memoryLimit final.1 final.2⟩]
    costChangePct :=
      if unpriced then fin 0
      else fl (fl (fl (currentCost - finalCost) / currentCost) * fin 100)
    costSavingsAmount := if unpriced then fin 0 else fl (currentCost - finalCost)
    currentCost := currentCost
    finalCost := finalCost }

/-- `PolicyEngine.evaluate_optimization` without the texts of the two final values;
`none` when a formatter raises. -/
def evaluateOptimization (inp : PolicyInput) : Option Verdict :=
  let v := verdict fl inp
  if cpuFormatted fl v.finalCpu && memoryFormatted fl v.finalMem then some v else none

lemma evaluateOptimization_eq_some {inp : PolicyInput} {v : Verdict}
    (h : evaluateOptimization fl inp = some v) : v = verdict fl inp := by
  simp only [evaluateOptimization, Option.ite_none_right_eq_some, Option.some.injEq] at h
  exact h.2.symm

/-! ### Without rounding -/

lemma parseCpu_id (cpuStr : String) : parseCpu id cpuStr = FinOpsPipeline.parseCpu cpuStr := by
  simp only [parseCpu, FinOpsPipeline.parseCpu, id, Option.map_id_fun]

lemma parseMemory_id (memStr : String) :
    parseMemory id memStr = FinOpsPipeline.parseMemory memStr := rfl

lemma draft_id (inp : PolicyInput) : draft id inp = PolicyEngine.draft inp := by
  simp only [draft, guarded, softened, parseCpu_id, parseMemory_id]
  rfl

/-- **Without rounding** the evaluation is that of the exact arithmetic. -/
theorem verdict_id (inp : PolicyInput) : verdict id inp = PolicyEngine.verdict inp := by
  have hcpu : parseCpu id = FinOpsPipeline.parseCpu := funext parseCpu_id
  have hmemory : parseMemory id = FinOpsPipeline.parseMemory := rfl
  simp only [verdict, uncapped, draft_id, hcpu, hmemory]
  rfl

/-- Without rounding the evaluation returns when that of the exact arithmetic does. -/
theorem evaluateOptimization_id (inp : PolicyInput) :
    (evaluateOptimization id inp).isSome = (PolicyEngine.evaluateOptimization inp).isSome := by
  have hcpu : ∀ x, cpuFormatted id x = (formatCpu x).isSome := by
    intro x
    rw [cpuFormatted, formatCpu]
    split <;> simp
  have hmemory : ∀ x, memoryFormatted id x = (formatMemory x).isSome := by
    intro x
    rw [memoryFormatted, formatMemory]
    split <;> simp
  rw [evaluateOptimization, verdict_id, PolicyEngine.evaluateOptimization]
  simp only [hcpu, hmemory]
  cases formatCpu (PolicyEngine.verdict inp).finalCpu <;>
    cases formatMemory (PolicyEngine.verdict inp).finalMem <;> rfl

/-! ### The score -/

/-- The points of RULE_01. -/
def cpuPoints (inp : PolicyInput) : ℕ :=
  if le (fin (1 / 2))
    (reduction fl (parseCpu fl inp.currentRes.cpu) (parseCpu fl inp.krrRes.cpu))
  then 25 else 0

/-- The points of RULE_02. -/
def memPoints (inp : PolicyInput) : ℕ :=
  if le (fl (fin (6 / 10)))
    (reduction fl (parseMemory fl inp.currentRes.memory) (parseMemory fl inp.krrRes.memory))
  then 20 else 0

/-- The points of the signals of an input; the discount comes before the points of
RULE_07 and stops at zero. -/
def signalPoints (inp : PolicyInput) : ℕ :=
  cpuPoints fl inp + memPoints fl inp +
      dangerPoints 60 (fun m => m.oomKilled) inp.promMetrics +
      dangerPoints 50 (fun m => decide (10 ≤ m.restartCount)) inp.promMetrics +
      forecastPoints inp - loadDiscount inp.promMetrics + dataPoints inp

lemma softened_score (inp : PolicyInput) :
    (softened fl inp).score = cpuPoints fl inp + memPoints fl inp := by
  simp only [softened, rule01, rule02, cpuPoints, memPoints]
  split <;> split <;> rfl

lemma rule05_score (inp : PolicyInput) (currCpu : PyFloat) (d : Draft) :
    (rule05 fl inp.chronosForecast currCpu d).score = d.score + forecastPoints inp := by
  rw [rule05, forecastPoints, forecastPct]
  cases inp.chronosForecast.bind ChronosForecast.predictedMaxCpuPct with
  | none => rfl
  | some pct => by_cases h : le (fin 80) pct = true <;> simp [h, record]

/-- **The score**: a sum over the rules. -/
theorem draft_score (inp : PolicyInput) : (draft fl inp).score = signalPoints fl inp := by
  rw [draft, rule07_score, rule06_score, rule05_score, guarded, rule04, rule03,
    dangerRule_score, dangerRule_score, softened_score, signalPoints]

end Rounded

end PolicyEngine

end FinOpsPipeline
