import FinOpsPipeline.Engine.Rounded

/-!
The score of an evaluation and what is decided by it.

* `CutBelow`: a recommendation of at most a share of the current value, which is
  when RULE_01 and RULE_02 apply (`le_reduction_iff`).
* `signalPoints`, `draft_score`: the score as a sum over the signals of the input.
* `overallStatus_eq_fail`: the status is a threshold on the score.
* `Riskier`: an input with at least the danger signals of another one.
* `riskScore_mono`: the risk level never falls with more danger.
-/

namespace FinOpsPipeline

open PyFloat

namespace PolicyEngine

/-! ### The signals -/

/-- The recommendation is at most this share of a positive current value. -/
def CutBelow (share : ℚ) (curr krr : PyFloat) : Prop :=
  ∃ c, 0 < c ∧ curr = fin c ∧ le krr (fin (c * share)) = true

/-- A current value that is not finite has no relative reduction. -/
lemma reduction_of_not_fin {curr : PyFloat} (h : ∀ c, curr ≠ fin c) (krr : PyFloat) :
    reduction curr krr = nan ∨ reduction curr krr = fin 0 := by
  rw [reduction]
  split
  · cases curr with
    | fin c => exact absurd rfl (h c)
    | inf n => cases krr with
        | fin k => exact .inl rfl
        | inf m => cases n <;> cases m <;> exact .inl rfl
        | nan => exact .inl rfl
    | nan => exact .inl rfl
  · exact .inr rfl

/-- The relative reduction of a positive value. -/
lemma le_reduction_fin {b c : ℚ} (hc : 0 < c) (krr : PyFloat) :
    le (fin b) (reduction (fin c) krr) = true ↔ le krr (fin (c * (1 - b))) = true := by
  rw [reduction, if_pos (by simpa using hc)]
  cases krr with
  | fin k =>
      simp only [fin_sub, fin_div, le_fin, decide_eq_true_eq]
      rw [le_div_iff₀ hc]
      constructor <;> intro h <;> linarith
  | inf n =>
      have hdiv : (fin c - inf n : PyFloat) / fin c = inf ((!n) ^^ decide (c < 0)) := rfl
      rw [hdiv, decide_eq_false hc.not_gt]
      cases n <;> simp [le]
  | nan =>
      have hdiv : (fin c - nan : PyFloat) / fin c = nan := rfl
      rw [hdiv, le_nan]
      exact iff_of_false (by simp) (by simp [le])

/-- A relative reduction of `b` or more leaves at most the share `1 - b`. -/
lemma le_reduction_iff {b : ℚ} (hb : 0 < b) (curr krr : PyFloat) :
    le (fin b) (reduction curr krr) = true ↔ CutBelow (1 - b) curr krr := by
  have hzero : ¬ le (fin b) (fin 0) = true := by simpa using hb
  by_cases hpos : ∃ c, 0 < c ∧ curr = fin c
  · obtain ⟨c, hc, rfl⟩ := hpos
    rw [le_reduction_fin hc]
    exact ⟨fun hle => ⟨c, hc, rfl, hle⟩, fun ⟨_, _, heq, hle⟩ => by cases heq; exact hle⟩
  · refine iff_of_false (fun hle => ?_) fun ⟨c, hc, heq, _⟩ => hpos ⟨c, hc, heq⟩
    have hred : reduction curr krr = nan ∨ reduction curr krr = fin 0 := by
      cases curr with
      | fin c =>
          refine .inr (if_neg ?_)
          simpa using fun hc => hpos ⟨c, hc, rfl⟩
      | inf n => exact reduction_of_not_fin (fun _ h => by cases h) krr
      | nan => exact reduction_of_not_fin (fun _ h => by cases h) krr
    rcases hred with h | h <;> rw [h] at hle
    · simp at hle
    · exact hzero hle

/-- RULE_01 applies: the recommendation is at most half of the current CPU. -/
def CpuCut (inp : PolicyInput) : Prop :=
  CutBelow (1 / 2) (parseCpu inp.currentRes.cpu) (parseCpu inp.krrRes.cpu)

/-- RULE_02 applies: the recommendation is at most 40 percent of the current memory. -/
def MemCut (inp : PolicyInput) : Prop :=
  CutBelow (4 / 10) (parseMemory inp.currentRes.memory) (parseMemory inp.krrRes.memory)

/-- The forecast is 80 percent CPU or more. -/
def ForecastPeak (inp : PolicyInput) : Prop :=
  ∃ pct, forecastPct inp = some pct ∧ le (fin 80) pct = true

instance (inp : PolicyInput) : Decidable (ForecastPeak inp) :=
  decidable_of_iff (((forecastPct inp).any fun pct => le (fin 80) pct) = true)
    (Option.any_eq_true _ _)

/-- KRR had too little data for one of the two resources. -/
def Insufficient (inp : PolicyInput) : Prop :=
  inp.cpuDataInsufficient = true ∨ inp.memDataInsufficient = true

/-- The average CPU load is below 20 percent. -/
def LowLoad (m : PrometheusMetrics) : Prop :=
  ∃ pct, m.avgCpuUsagePct = some pct ∧ lt pct (fin 20) = true

/-! ### The points -/

/-- The points of RULE_01. -/
def cpuPoints (inp : PolicyInput) : ℕ :=
  if le (fin (1 / 2)) (reduction (parseCpu inp.currentRes.cpu) (parseCpu inp.krrRes.cpu))
  then 25 else 0

/-- The points of RULE_02. -/
def memPoints (inp : PolicyInput) : ℕ :=
  if le (fin (6 / 10))
    (reduction (parseMemory inp.currentRes.memory) (parseMemory inp.krrRes.memory))
  then 20 else 0

/-- The points of the signals of an input; the discount comes before the points of
RULE_07 and stops at zero. -/
def signalPoints (inp : PolicyInput) : ℕ :=
  cpuPoints inp + memPoints inp +
      dangerPoints 60 (fun m => m.oomKilled) inp.promMetrics +
      dangerPoints 50 (fun m => decide (10 ≤ m.restartCount)) inp.promMetrics +
      forecastPoints inp - loadDiscount inp.promMetrics + dataPoints inp

/-- Without rounding the points are those of the exact arithmetic. -/
lemma signalPoints_id (inp : PolicyInput) : Rounded.signalPoints id inp = signalPoints inp := by
  simp only [Rounded.signalPoints, Rounded.cpuPoints, Rounded.memPoints, Rounded.parseCpu_id,
    Rounded.parseMemory_id]
  rfl

/-- **The score**: a sum over the rules. -/
theorem draft_score (inp : PolicyInput) : (draft inp).score = signalPoints inp := by
  rw [← Rounded.draft_id, Rounded.draft_score, signalPoints_id]

/-! ### The points and the signals -/

lemma cpuCut_iff (inp : PolicyInput) :
    le (fin (1 / 2)) (reduction (parseCpu inp.currentRes.cpu) (parseCpu inp.krrRes.cpu)) = true ↔
      CpuCut inp := by
  have hiff := le_reduction_iff (b := 1 / 2) (by norm_num) (parseCpu inp.currentRes.cpu)
    (parseCpu inp.krrRes.cpu)
  rwa [show (1 : ℚ) - 1 / 2 = 1 / 2 by norm_num] at hiff

lemma memCut_iff (inp : PolicyInput) :
    le (fin (6 / 10))
        (reduction (parseMemory inp.currentRes.memory) (parseMemory inp.krrRes.memory)) = true ↔
      MemCut inp := by
  have hiff := le_reduction_iff (b := 6 / 10) (by norm_num) (parseMemory inp.currentRes.memory)
    (parseMemory inp.krrRes.memory)
  rwa [show (1 : ℚ) - 6 / 10 = 4 / 10 by norm_num] at hiff

instance (inp : PolicyInput) : Decidable (CpuCut inp) := decidable_of_iff _ (cpuCut_iff inp)

instance (inp : PolicyInput) : Decidable (MemCut inp) := decidable_of_iff _ (memCut_iff inp)

lemma cpuPoints_cases (inp : PolicyInput) :
    CpuCut inp ∧ cpuPoints inp = 25 ∨ ¬ CpuCut inp ∧ cpuPoints inp = 0 := by
  rw [← cpuCut_iff, cpuPoints]
  split
  · exact .inl ⟨‹_›, rfl⟩
  · exact .inr ⟨‹_›, rfl⟩

lemma memPoints_cases (inp : PolicyInput) :
    MemCut inp ∧ memPoints inp = 20 ∨ ¬ MemCut inp ∧ memPoints inp = 0 := by
  rw [← memCut_iff, memPoints]
  split
  · exact .inl ⟨‹_›, rfl⟩
  · exact .inr ⟨‹_›, rfl⟩

lemma forecastPoints_cases (inp : PolicyInput) :
    forecastPct inp = none ∧ ¬ ForecastPeak inp ∧ forecastPoints inp = 30 ∨
      forecastPct inp ≠ none ∧ ForecastPeak inp ∧ forecastPoints inp = 45 ∨
      forecastPct inp ≠ none ∧ ¬ ForecastPeak inp ∧ forecastPoints inp = 0 := by
  rw [ForecastPeak, forecastPoints]
  cases forecastPct inp with
  | none => simp
  | some pct => by_cases h : le (fin 80) pct = true <;> simp [h]

lemma dataPoints_cases (inp : PolicyInput) :
    Insufficient inp ∧ dataPoints inp = 10 ∨ ¬ Insufficient inp ∧ dataPoints inp = 0 := by
  rw [Insufficient, ← Bool.or_eq_true, dataPoints]
  split
  · exact .inl ⟨‹_›, rfl⟩
  · exact .inr ⟨‹_›, rfl⟩

lemma loadDiscount_cases (m : PrometheusMetrics) (hoom : m.oomKilled = false) :
    LowLoad m ∧ loadDiscount (some m) = 15 ∨ ¬ LowLoad m ∧ loadDiscount (some m) = 0 := by
  have hlow : LowLoad m ↔ (m.avgCpuUsagePct.any fun pct => lt pct (fin 20)) = true := by
    rw [LowLoad, Option.any_eq_true]
  rw [hlow, loadDiscount]
  by_cases h : (m.avgCpuUsagePct.any fun pct => lt pct (fin 20)) = true <;> simp [h, hoom]

/-- The risk level that an evaluation returns. -/
lemma evaluateOptimization_riskScore {inp : PolicyInput} {out : Evaluation}
    (hout : evaluateOptimization inp = some out) :
    out.riskScore = riskScore (signalPoints inp) := by
  rw [← draft_score]
  simp only [evaluateOptimization, Option.bind_eq_bind, Option.bind_eq_some_iff,
    Option.pure_def, Option.some.injEq] at hout
  obtain ⟨cpu, -, memory, -, rfl⟩ := hout
  rfl

/-- The metrics make RULE_03 or RULE_04 fail. -/
def Danger (inp : PolicyInput) : Prop :=
  ∃ m, inp.promMetrics = some m ∧ (m.oomKilled = true ∨ 10 ≤ m.restartCount)

instance (inp : PolicyInput) : Decidable (Danger inp) :=
  decidable_of_iff
    ((inp.promMetrics.any fun m => m.oomKilled || decide (10 ≤ m.restartCount)) = true)
    (by simp [Danger, Option.any_eq_true])

lemma overallStatus_eq_fail (score : ℕ) : overallStatus score = .fail ↔ 70 ≤ score := by
  rw [overallStatus]
  split <;> simp [*]

/-! ### Monotonicity -/

/-- The risk levels in order: `"SAFE"`, `"MEDIUM"`, `"HIGH"`. -/
def riskRank : RiskScore → ℕ
  | .safe => 0
  | .medium => 1
  | .high => 2

lemma riskRank_riskScore_mono {s s' : ℕ} (h : s ≤ s') :
    riskRank (riskScore s) ≤ riskRank (riskScore s') := by
  simp only [riskScore]
  split_ifs <;> simp only [riskRank] <;> omega

/-- Metrics that show at least the danger of other ones. -/
structure MetricsRise (m m' : PrometheusMetrics) : Prop where
  oomKilled : m.oomKilled = true → m'.oomKilled = true
  restartCount : m.restartCount ≤ m'.restartCount
  avgCpuUsagePct : Option.Rel (fun x y => le x y = true) m.avgCpuUsagePct m'.avgCpuUsagePct

/-- An input that shows at least the danger of another one with the same current
values and the same signals present. -/
structure Riskier (inp inp' : PolicyInput) : Prop where
  currentCpu : parseCpu inp'.currentRes.cpu = parseCpu inp.currentRes.cpu
  currentMemory : parseMemory inp'.currentRes.memory = parseMemory inp.currentRes.memory
  krrCpu : le (parseCpu inp'.krrRes.cpu) (parseCpu inp.krrRes.cpu) = true
  krrMemory : le (parseMemory inp'.krrRes.memory) (parseMemory inp.krrRes.memory) = true
  promMetrics : Option.Rel MetricsRise inp.promMetrics inp'.promMetrics
  forecast : Option.Rel (fun x y => le x y = true) (forecastPct inp) (forecastPct inp')
  cpuDataInsufficient : inp.cpuDataInsufficient = true → inp'.cpuDataInsufficient = true
  memDataInsufficient : inp.memDataInsufficient = true → inp'.memDataInsufficient = true

/-- A smaller recommendation is below the same share. -/
lemma CutBelow.mono {share : ℚ} {curr krr krr' : PyFloat} (h : CutBelow share curr krr)
    (hle : le krr' krr = true) : CutBelow share curr krr' := by
  obtain ⟨c, hc, hcurr, hshare⟩ := h
  exact ⟨c, hc, hcurr, le_of_le_le hle hshare⟩

section Riskier

variable {inp inp' : PolicyInput}

/-- Points that are given for a sign do not fall when the sign stays. -/
lemma points_mono {sign sign' : Prop} {points n n' : ℕ}
    (h : sign ∧ n = points ∨ ¬ sign ∧ n = 0) (h' : sign' ∧ n' = points ∨ ¬ sign' ∧ n' = 0)
    (himp : sign → sign') : n ≤ n' := by
  rcases h with ⟨hsign, rfl⟩ | ⟨-, rfl⟩
  · rcases h' with ⟨-, rfl⟩ | ⟨hnot, -⟩
    · exact le_rfl
    · exact absurd (himp hsign) hnot
  · exact Nat.zero_le n'

lemma cpuPoints_mono (h : Riskier inp inp') : cpuPoints inp ≤ cpuPoints inp' := by
  refine points_mono (cpuPoints_cases inp) (cpuPoints_cases inp') fun hcut => ?_
  rw [CpuCut, h.currentCpu]
  exact CutBelow.mono hcut h.krrCpu

lemma memPoints_mono (h : Riskier inp inp') : memPoints inp ≤ memPoints inp' := by
  refine points_mono (memPoints_cases inp) (memPoints_cases inp') fun hcut => ?_
  rw [MemCut, h.currentMemory]
  exact CutBelow.mono hcut h.krrMemory

lemma dataPoints_mono (h : Riskier inp inp') : dataPoints inp ≤ dataPoints inp' :=
  points_mono (dataPoints_cases inp) (dataPoints_cases inp')
    (Or.imp h.cpuDataInsufficient h.memDataInsufficient)

lemma dangerPoints_mono {prom prom' : Option PrometheusMetrics} (points : ℕ)
    (danger : PrometheusMetrics → Bool) (h : Option.Rel MetricsRise prom prom')
    (hdanger : ∀ m m', MetricsRise m m' → danger m = true → danger m' = true) :
    dangerPoints points danger prom ≤ dangerPoints points danger prom' := by
  cases h with
  | none => exact le_rfl
  | @some m m' hrise =>
      by_cases hm : danger m = true
      · simp [dangerPoints, dangerStatus, hm, hdanger m m' hrise hm]
      · simp [dangerPoints, dangerStatus, hm]

lemma forecastPoints_mono (h : Riskier inp inp') : forecastPoints inp ≤ forecastPoints inp' := by
  have hrel := h.forecast
  rw [forecastPoints, forecastPoints]
  generalize forecastPct inp = pct at hrel ⊢
  generalize forecastPct inp' = pct' at hrel ⊢
  cases hrel with
  | none => exact le_rfl
  | @some x y hle =>
      by_cases hpeak : le (fin 80) x = true
      · simp [hpeak, le_of_le_le hpeak hle]
      · simp [hpeak]

/-- A low load in metrics with more danger was low before. -/
lemma MetricsRise.lowLoad {m m' : PrometheusMetrics} (h : MetricsRise m m')
    (hlow : (m'.avgCpuUsagePct.any fun pct => lt pct (fin 20)) = true) :
    (m.avgCpuUsagePct.any fun pct => lt pct (fin 20)) = true := by
  have hrel := h.avgCpuUsagePct
  generalize m.avgCpuUsagePct = pct at hrel ⊢
  generalize m'.avgCpuUsagePct = pct' at hrel hlow
  cases hrel with
  | none => exact hlow
  | some hle => exact lt_of_le_lt hle hlow

/-- More danger never brings a larger discount. -/
lemma loadDiscount_anti {prom prom' : Option PrometheusMetrics}
    (h : Option.Rel MetricsRise prom prom') : loadDiscount prom' ≤ loadDiscount prom := by
  cases h with
  | none => exact le_rfl
  | @some m m' hrise =>
      have hlow := hrise.lowLoad
      have hoom := hrise.oomKilled
      simp only [loadDiscount, Option.any_some]
      split_ifs with h₁ h₂ <;> simp_all

end Riskier

/-- More danger gives at least the points. -/
lemma signalPoints_mono {inp inp' : PolicyInput} (h : Riskier inp inp') :
    signalPoints inp ≤ signalPoints inp' := by
  have hcpu := cpuPoints_mono h
  have hmem := memPoints_mono h
  have hoom := dangerPoints_mono 60 (fun m => m.oomKilled) h.promMetrics
    fun _ _ hrise => hrise.oomKilled
  have hrestart := dangerPoints_mono 50 (fun m => decide (10 ≤ m.restartCount)) h.promMetrics
    fun m m' hrise hm => by
      simp only [decide_eq_true_eq] at hm ⊢
      exact hm.trans hrise.restartCount
  have hforecast := forecastPoints_mono h
  have hdiscount := loadDiscount_anti h.promMetrics
  have hdata := dataPoints_mono h
  simp only [signalPoints]
  omega

/-- **Risk is monotone in the danger signals**: an evaluation of an input with at
least the danger of another one returns at least its risk level. -/
theorem riskScore_mono {inp inp' : PolicyInput} {out out' : Evaluation} (h : Riskier inp inp')
    (hout : evaluateOptimization inp = some out) (hout' : evaluateOptimization inp' = some out') :
    riskRank out.riskScore ≤ riskRank out'.riskScore := by
  rw [evaluateOptimization_riskScore hout, evaluateOptimization_riskScore hout']
  exact riskRank_riskScore_mono (signalPoints_mono h)

/-- A container with `500m` CPU and `512Mi` memory for which KRR recommends
`400m` and `400Mi`. -/
def modestCut (promMetrics : Option PrometheusMetrics) (predictedMaxCpuPct : Option PyFloat) :
    PolicyInput where
  currentRes := ⟨"500m", "512Mi"⟩
  krrRes := ⟨"400m", "400Mi"⟩
  promMetrics := promMetrics
  chronosForecast := some ⟨predictedMaxCpuPct, none, none⟩
  cpuDataInsufficient := false
  memDataInsufficient := false
  cpuLimitStr := none
  memoryLimitStr := none

/-- After an OOM kill the risk is at least the one without it. -/
theorem riskScore_mono_oom :
    ∃ out out',
      evaluateOptimization
        (modestCut (some ⟨false, 3, some (fin 10), false⟩) (some (fin 30))) = some out ∧
      evaluateOptimization
        (modestCut (some ⟨true, 12, some (fin 40), false⟩) (some (fin 90))) = some out' ∧
      riskRank out.riskScore ≤ riskRank out'.riskScore := by
  have hsome : (evaluateOptimization
      (modestCut (some ⟨false, 3, some (fin 10), false⟩) (some (fin 30)))).isSome = true := by
    decide +kernel
  have hsome' : (evaluateOptimization
      (modestCut (some ⟨true, 12, some (fin 40), false⟩) (some (fin 90)))).isSome = true := by
    decide +kernel
  obtain ⟨out, hout⟩ := Option.isSome_iff_exists.mp hsome
  obtain ⟨out', hout'⟩ := Option.isSome_iff_exists.mp hsome'
  refine ⟨out, out', hout, hout', riskScore_mono ?_ hout hout'⟩
  exact
    { currentCpu := rfl
      currentMemory := rfl
      krrCpu := by decide +kernel
      krrMemory := by decide +kernel
      promMetrics := .some ⟨fun _ => rfl, by decide, .some (by decide +kernel)⟩
      forecast := .some (by decide +kernel)
      cpuDataInsufficient := id
      memDataInsufficient := id }

end PolicyEngine

end FinOpsPipeline
