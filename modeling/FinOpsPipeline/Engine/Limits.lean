import FinOpsPipeline.Engine.Policy

/-!
RULE_08 and the strings that are deployed.

The rule caps the numbers at the limits of the container, but what is deployed
is the formatted number, and formatting may round up: a limit of `1006m` gives
the request `1.01` (`final_above_limit`).

* `CpuLimitExact`, `MemoryLimitExact`: formatting the limit itself does not round
  it up.
* `cpu_within_limit`, `memory_within_limit`: an evaluation keeps such a limit.
* `final_within_limits`: these are exactly the limits that no evaluation exceeds.
-/

namespace FinOpsPipeline

open PyFloat

namespace PolicyEngine

/-- Formatting the CPU limit does not round it up. -/
def CpuLimitExact (limitStr : String) : Prop :=
  ∀ q, parseCpu limitStr = fin q → cpuGrid q ≤ q

/-- Formatting the memory limit does not round it up. -/
def MemoryLimitExact (limitStr : String) : Prop :=
  ∀ q, parseMemory limitStr = fin q → memoryGrid q ≤ q

/-! ### The cap -/

/-- A positive limit is one that RULE_08 applies. -/
lemma limitOf_of_pos {parse : String → PyFloat} (hparse : parse "" = fin 0) {s : String}
    (hpos : lt (fin 0) (parse s) = true) : limitOf parse (some s) = some (parse s) := by
  have hne : s ≠ "" := by
    rintro rfl
    rw [hparse] at hpos
    simp at hpos
  simp [limitOf, Option.filter, hne]

/-- A capped number is at most the limit. -/
lemma capped_le {limit final : PyFloat} (hfinal : final ≠ nan) (hpos : lt (fin 0) limit = true) :
    le (capped (some limit) final) limit = true := by
  have hlimit : limit ≠ nan := by
    rintro rfl
    simp at hpos
  by_cases h : lt limit final = true
  · have hexceeds : exceeds (some limit) final = true := by simp [exceeds, hpos, h]
    rw [capped, if_pos hexceeds, Option.getD_some]
    cases limit with
    | fin q => simp
    | inf n => cases n <;> rfl
    | nan => exact absurd rfl hlimit
  · have hexceeds : ¬ exceeds (some limit) final = true := by simp [exceeds, hpos, h]
    rw [capped, if_neg hexceeds]
    exact le_of_not_lt hfinal hlimit (Bool.eq_false_iff.mpr h)

/-- On finite numbers the cap is the minimum. -/
lemma capped_fin {p q : ℚ} (hq : 0 < q) : capped (some (fin q)) (fin p) = fin (min p q) := by
  by_cases h : q < p
  · simp [capped, exceeds, hq, h, min_eq_right h.le]
  · simp [capped, exceeds, h, min_eq_left (not_lt.mp h)]

lemma capped_self (limit : PyFloat) : capped (some limit) limit = limit := by
  rw [capped]
  split <;> rfl

lemma capped_ne_nan {limit : Option PyFloat} {final : PyFloat} (h : final ≠ nan) :
    capped limit final ≠ nan := by
  rw [capped]
  split
  · rename_i hexceeds
    cases limit with
    | none => exact h
    | some l =>
        rintro rfl
        simp [exceeds] at hexceeds
  · exact h

/-! ### The deployed strings -/

/-- A formatted CPU number below a limit stays below it when the limit is exact. -/
lemma parseCpu_le_limit {final limit : PyFloat} {s : String} (hfinal : final ≠ nan)
    (hle : le final limit = true) (hformat : formatCpu final = some s)
    (hexact : ∀ q, limit = fin q → cpuGrid q ≤ q) : le (parseCpu s) limit = true := by
  cases final with
  | fin p =>
      obtain ⟨s', hs', hparse⟩ := parseCpu_formatCpu p
      rw [hs'] at hformat
      cases hformat
      rw [hparse]
      cases limit with
      | fin q =>
          have hpq : p ≤ q := by simpa using hle
          simpa using (cpuGrid_mono hpq).trans (hexact q rfl)
      | inf n => simpa [le] using hle
      | nan => simp at hle
  | inf n =>
      cases n with
      | false =>
          rw [parseCpu_formatCpu_inf.1] at hformat
          cases hformat
          rwa [parseCpu_formatCpu_inf.2]
      | true => cases hformat
  | nan => exact absurd rfl hfinal

/-- The same for memory, where all numbers are finite. -/
lemma parseMemory_le_limit {p q : ℚ} {s : String} (hp : 0 ≤ p) (hle : p ≤ q)
    (hformat : formatMemory (fin p) = some s) (hexact : memoryGrid q ≤ q) :
    le (parseMemory s) (fin q) = true := by
  obtain ⟨s', hs', hparse⟩ := parseMemory_formatMemory hp
  rw [hs'] at hformat
  cases hformat
  rw [hparse]
  simpa using (memoryGrid_mono hle).trans hexact

/-- An input whose current and recommended values are the limits themselves. -/
def atLimits (cpuLimit memoryLimit : String) : PolicyInput where
  currentRes := ⟨cpuLimit, memoryLimit⟩
  krrRes := ⟨cpuLimit, memoryLimit⟩
  promMetrics := none
  chronosForecast := none
  cpuDataInsufficient := false
  memDataInsufficient := false
  cpuLimitStr := some cpuLimit
  memoryLimitStr := some memoryLimit

/-- Such an input keeps its values. -/
lemma uncapped_atLimits {cpuLimit memoryLimit : String} {p q : ℚ}
    (hcpu : parseCpu cpuLimit = fin p) (hp : 0 < p) (hmem : parseMemory memoryLimit = fin q) :
    uncapped (atLimits cpuLimit memoryLimit) = (fin p, fin q) := by
  have hred : ∀ x b : ℚ, 0 < b → ¬ le (fin b) (reduction (fin x) (fin x)) = true := by
    intro x b hb
    rw [reduction]
    split <;> simp [hb]
  have hmax : max p (p * (85 / 100)) = p := max_eq_left (by linarith)
  have hdraft : (draft (atLimits cpuLimit memoryLimit)).finalCpu = fin p ∧
      (draft (atLimits cpuLimit memoryLimit)).finalMem = fin q ∧
      (draft (atLimits cpuLimit memoryLimit)).score = 60 := by
    simp only [draft, guarded, softened, atLimits, hcpu, hmem, rule01,
      if_neg (hred p _ one_half_pos), rule02, if_neg (hred q (6 / 10) (by norm_num))]
    exact ⟨by simp [rule03, rule04, dangerRule, dangerStatus, rule05, rule06, rule07, record, hmax],
      rfl, rfl⟩
  rw [uncapped, hdraft.1, hdraft.2.1, hdraft.2.2]
  rfl

/-- Its evaluation returns the formatted limits. -/
lemma evaluate_atLimits {cpuLimit memoryLimit : String} {p q : ℚ}
    (hcpu : parseCpu cpuLimit = fin p) (hp : 0 < p) (hmem : parseMemory memoryLimit = fin q)
    (hq : 0 < q) :
    ∃ out, evaluateOptimization (atLimits cpuLimit memoryLimit) = some out ∧
      parseCpu out.recommendations.final.cpu = fin (cpuGrid p) ∧
      parseMemory out.recommendations.final.memory = fin (memoryGrid q) := by
  obtain ⟨cpu, hformat, hparse⟩ := parseCpu_formatCpu p
  obtain ⟨memory, hformat', hparse'⟩ := parseMemory_formatMemory hq.le
  have hlimit : limitOf parseCpu (some cpuLimit) = some (fin p) :=
    hcpu ▸ limitOf_of_pos rfl (by simp [hcpu, hp])
  have hlimit' : limitOf parseMemory (some memoryLimit) = some (fin q) :=
    hmem ▸ limitOf_of_pos rfl (by simp [hmem, hq])
  have hfinal : (verdict (atLimits cpuLimit memoryLimit)).finalCpu = fin p ∧
      (verdict (atLimits cpuLimit memoryLimit)).finalMem = fin q := by
    simp only [verdict, uncapped_atLimits hcpu hp hmem]
    simp only [atLimits, hlimit, hlimit', capped_self, and_self]
  simp only [evaluateOptimization, hfinal.1, hfinal.2, hformat, hformat', Option.bind_eq_bind,
    Option.bind_some]
  exact ⟨_, rfl, hparse, hparse'⟩

section Within

variable {inp : PolicyInput} {out : Evaluation} {limitStr : String}

/-- **An exact CPU limit is kept** by an evaluation of values that are numbers. -/
theorem cpu_within_limit (hpos : lt (fin 0) (parseCpu limitStr) = true)
    (hexact : CpuLimitExact limitStr) (hlimit : inp.cpuLimitStr = some limitStr)
    (hkrr : parseCpu inp.krrRes.cpu ≠ nan) (hcurr : parseCpu inp.currentRes.cpu ≠ nan)
    (hout : evaluateOptimization inp = some out) :
    le (parseCpu out.recommendations.final.cpu) (parseCpu limitStr) = true := by
  obtain ⟨hformat, -⟩ := evaluateOptimization_eq_some hout
  have hne := uncapped_cpu_ne_nan inp hkrr hcurr
  have hfinal : (verdict inp).finalCpu = capped (some (parseCpu limitStr)) (uncapped inp).1 := by
    rw [← limitOf_of_pos rfl hpos, ← hlimit]
    rfl
  rw [hfinal] at hformat
  exact parseCpu_le_limit (capped_ne_nan hne) (capped_le hne hpos) hformat hexact

/-- **An exact memory limit is kept** by an evaluation. -/
theorem memory_within_limit {q : ℚ} (hq : parseMemory limitStr = fin q) (hpos : 0 < q)
    (hexact : MemoryLimitExact limitStr) (hlimit : inp.memoryLimitStr = some limitStr)
    (hout : evaluateOptimization inp = some out) :
    le (parseMemory out.recommendations.final.memory) (fin q) = true := by
  obtain ⟨-, hformat, -⟩ := evaluateOptimization_eq_some hout
  obtain ⟨p, hp, hmem⟩ := uncapped_mem inp
  have hfinal : (verdict inp).finalMem = fin (min p q) := by
    rw [← capped_fin hpos, ← hmem, ← hq, ← limitOf_of_pos rfl (by simpa [hq] using hpos), ← hlimit]
    rfl
  rw [hfinal] at hformat
  exact parseMemory_le_limit (le_min hp hpos.le) (min_le_right p q) hformat (hexact q hq)

end Within

/-- **No request above the limit**: for positive limits, every evaluation with
this CPU limit (of values that are numbers) returns a request within it exactly
when formatting does not round the limit up, and the same for memory. -/
theorem final_within_limits (cpuLimit memoryLimit : String)
    (hcpu : lt (fin 0) (parseCpu cpuLimit) = true)
    (hmem : lt (fin 0) (parseMemory memoryLimit) = true) :
    ((∀ inp out, inp.cpuLimitStr = some cpuLimit → parseCpu inp.krrRes.cpu ≠ nan →
        parseCpu inp.currentRes.cpu ≠ nan → evaluateOptimization inp = some out →
        le (parseCpu out.recommendations.final.cpu) (parseCpu cpuLimit) = true) ↔
      CpuLimitExact cpuLimit) ∧
    ((∀ inp out, inp.memoryLimitStr = some memoryLimit → evaluateOptimization inp = some out →
        le (parseMemory out.recommendations.final.memory) (parseMemory memoryLimit) = true) ↔
      MemoryLimitExact memoryLimit) := by
  obtain ⟨q, _, hq⟩ := parseMemory_eq_fin memoryLimit
  have hqpos : 0 < q := by simpa [hq] using hmem
  have hone : parseCpu "1" = fin 1 := by decide +kernel
  constructor
  · refine ⟨fun h p hp => ?_, fun hexact inp out hlimit hkrr hcurr hout =>
      cpu_within_limit hcpu hexact hlimit hkrr hcurr hout⟩
    -- the input at the limits is returned rounded
    have hppos : 0 < p := by simpa [hp] using hcpu
    obtain ⟨out, hout, hparse, -⟩ := evaluate_atLimits hp hppos hq hqpos
    have hne : parseCpu cpuLimit ≠ nan := by
      rw [hp]
      exact nofun
    simpa [hparse, hp] using h _ out rfl hne hne hout
  · rw [hq]
    refine ⟨fun h p hp => ?_, fun hexact inp out hlimit hout =>
      memory_within_limit hq hqpos hexact hlimit hout⟩
    rw [hq] at hp
    cases hp
    obtain ⟨out, hout, -, hparse⟩ := evaluate_atLimits hone one_pos hq hqpos
    simpa [hparse] using h _ out rfl hout

/-- A limit of two cores and one GiB is kept by every evaluation. -/
theorem final_within_limits_two_cores :
    (∀ inp out, inp.cpuLimitStr = some "2" → parseCpu inp.krrRes.cpu ≠ nan →
        parseCpu inp.currentRes.cpu ≠ nan → evaluateOptimization inp = some out →
        le (parseCpu out.recommendations.final.cpu) (parseCpu "2") = true) ∧
    ∀ inp out, inp.memoryLimitStr = some "1Gi" → evaluateOptimization inp = some out →
      le (parseMemory out.recommendations.final.memory) (parseMemory "1Gi") = true := by
  have hcpu : parseCpu "2" = fin 2 := by decide +kernel
  have hmem : parseMemory "1Gi" = fin 1024 := by decide +kernel
  have h := final_within_limits "2" "1Gi" (by simp [hcpu]) (by simp [hmem])
  refine ⟨h.1.mpr fun q hq => ?_, h.2.mpr fun q hq => ?_⟩
  · rw [hcpu] at hq
    cases hq
    decide +kernel
  · rw [hmem] at hq
    cases hq
    decide +kernel

/-- A container at its limits of `1006m` CPU and `1000000K` memory gets the
requests `1.01` and `977Mi`, both above the limit. -/
theorem final_above_limit :
    ∃ out, evaluateOptimization (atLimits "1006m" "1000000K") = some out ∧
      out.recommendations.final = ⟨"1.01", "977Mi"⟩ ∧
      lt (parseCpu "1006m") (parseCpu out.recommendations.final.cpu) = true ∧
      lt (parseMemory "1000000K") (parseMemory out.recommendations.final.memory) = true := by
  have h : (evaluateOptimization (atLimits "1006m" "1000000K")).map
      (fun out => out.recommendations.final) = some ⟨"1.01", "977Mi"⟩ := by decide +kernel
  obtain ⟨out, hout, hfinal⟩ := Option.map_eq_some_iff.mp h
  refine ⟨out, hout, hfinal, ?_, ?_⟩
  · rw [hfinal]
    decide +kernel
  · rw [hfinal]
    decide +kernel

end PolicyEngine

end FinOpsPipeline
