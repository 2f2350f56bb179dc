import FinOpsPipeline.Engine.Floor
import FinOpsPipeline.Engine.Limits

/-!
The cost figures of an evaluation.

The change and the saving are only computed for an evaluation that passes and
whose current requests cost something; otherwise both are reported as zero. The
final values may still differ from the current ones there: the limits cap the
current values of a failed evaluation, and a container without requests gets the
recommended ones (`unpriced_increase`).

* `FiguresAgree`: the reported figures are those of the two costs.
* `unpriced_agree_iff`: unpriced figures agree exactly when the two costs are equal.
* `askedCpu`, `askedMem`: what a passing evaluation asks for when there is no
  current value to soften.
* `NothingAsked`, `CostKept`: the inputs whose costs are equal where they are not
  computed.
* `figures_agree_iff`: exactly for these the figures agree.
-/

namespace FinOpsPipeline

open PyFloat

namespace PolicyEngine

/-- The reported figures are those of the reported costs. -/
def FiguresAgree (v : Verdict) : Prop :=
  v.costSavingsAmount = v.currentCost - v.finalCost ∧
    (lt (fin 0) v.currentCost = true →
      v.costChangePct = (v.currentCost - v.finalCost) / v.currentCost * fin 100)

/-! ### Costs -/

lemma cost_fin (x y : ℚ) :
    cost (fin x) (fin y) = fin (x * cpuUnitCost + y / 1024 * memUnitCost) := by
  simp [cost]

/-- Only a finite CPU value has a finite cost. -/
lemma cost_eq_fin {cpu : PyFloat} {y q : ℚ} (h : cost cpu (fin y) = fin q) :
    ∃ x, cpu = fin x := by
  cases cpu with
  | fin x => exact ⟨x, rfl⟩
  | inf n => cases n <;> cases h
  | nan => cases h

/-- A difference is zero exactly for equal finite values. -/
lemma sub_eq_zero_iff (x y : PyFloat) : x - y = fin 0 ↔ ∃ q, x = fin q ∧ y = fin q := by
  constructor
  · intro h
    cases x with
    | fin p =>
        cases y with
        | fin q =>
            rw [fin_sub, fin.injEq] at h
            exact ⟨p, rfl, by rw [sub_eq_zero.mp h]⟩
        | inf n => cases h
        | nan => cases h
    | inf m =>
        cases y with
        | fin q => cases h
        | inf n => cases m <;> cases n <;> cases h
        | nan => cases h
    | nan => cases h
  · rintro ⟨q, rfl, rfl⟩
    simp

/-- The evaluation fails, by the points of its signals. -/
def Fails (inp : PolicyInput) : Prop := 70 ≤ signalPoints inp

/-- The current requests cost nothing (or less). -/
def Free (inp : PolicyInput) : Prop :=
  le (cost (parseCpu inp.currentRes.cpu) (parseMemory inp.currentRes.memory)) (fin 0) = true

/-- Priced figures agree. -/
lemma priced_agree {inp : PolicyInput} (hfails : ¬ Fails inp) (hfree : ¬ Free inp) :
    FiguresAgree (verdict inp) := by
  have hunpriced : ¬ (overallStatus (draft inp).score = .fail ∨
      le (cost (parseCpu inp.currentRes.cpu) (parseMemory inp.currentRes.memory)) (fin 0) =
        true) := by
    rw [overallStatus_eq_fail, draft_score]
    exact not_or.mpr ⟨hfails, hfree⟩
  exact ⟨if_neg hunpriced, fun _ => if_neg hunpriced⟩

/-- Unpriced figures agree exactly when the two costs are equal numbers. -/
lemma unpriced_agree_iff {inp : PolicyInput} (h : Fails inp ∨ Free inp) :
    FiguresAgree (verdict inp) ↔
      ∃ q, (verdict inp).currentCost = fin q ∧ (verdict inp).finalCost = fin q := by
  have hunpriced : overallStatus (draft inp).score = .fail ∨
      le (cost (parseCpu inp.currentRes.cpu) (parseMemory inp.currentRes.memory)) (fin 0) =
        true := by
    rw [overallStatus_eq_fail, draft_score]
    exact h
  have hsavings : (verdict inp).costSavingsAmount = fin 0 := if_pos hunpriced
  have hchange : (verdict inp).costChangePct = fin 0 := if_pos hunpriced
  rw [FiguresAgree, hsavings, hchange, ← sub_eq_zero_iff, eq_comm]
  refine and_iff_left_of_imp fun hzero _ => ?_
  obtain ⟨q, hcurrent, -⟩ := (sub_eq_zero_iff _ _).mp hzero
  rw [hzero, hcurrent]
  simp

/-! ### Failed evaluations -/

/-- The capped value of a number is a number, lower exactly when a limit is below it. -/
lemma capped_fin_cases (limit : Option PyFloat) (x : ℚ) :
    (LimitAtLeast limit (fin x) ∧ capped limit (fin x) = fin x) ∨
      (¬ LimitAtLeast limit (fin x) ∧ ∃ y, 0 < y ∧ y < x ∧ capped limit (fin x) = fin y) := by
  by_cases hlimit : LimitAtLeast limit (fin x)
  · exact .inl ⟨hlimit, capped_current hlimit⟩
  · refine .inr ⟨hlimit, ?_⟩
    simp only [LimitAtLeast, not_forall] at hlimit
    obtain ⟨l, rfl, hpos, hle⟩ := hlimit
    cases l with
    | fin y =>
        have hpos' : 0 < y := by simpa using hpos
        have hlt : y < x := by simpa using hle
        exact ⟨y, hpos', hlt, by rw [capped_fin hpos', min_eq_right hlt.le]⟩
    | inf n => cases n <;> simp [lt, le] at hpos hle
    | nan => simp at hpos

/-- A failed evaluation keeps its cost exactly when no limit is below the current
values. -/
lemma failed_cost_iff {inp : PolicyInput} (hfails : Fails inp) :
    (∃ q, (verdict inp).currentCost = fin q ∧ (verdict inp).finalCost = fin q) ↔
      (∃ c, parseCpu inp.currentRes.cpu = fin c) ∧
        LimitAtLeast (limitOf parseCpu inp.cpuLimitStr) (parseCpu inp.currentRes.cpu) ∧
        LimitAtLeast (limitOf parseMemory inp.memoryLimitStr)
          (parseMemory inp.currentRes.memory) := by
  obtain ⟨m, -, hmem⟩ := parseMemory_eq_fin inp.currentRes.memory
  have huncapped : uncapped inp = (parseCpu inp.currentRes.cpu, parseMemory inp.currentRes.memory) := by
    rw [uncapped, draft_score, (overallStatus_eq_fail _).mpr hfails]
  have hcurrent : (verdict inp).currentCost =
      cost (parseCpu inp.currentRes.cpu) (parseMemory inp.currentRes.memory) := rfl
  have hfinal : (verdict inp).finalCost =
      cost (capped (limitOf parseCpu inp.cpuLimitStr) (parseCpu inp.currentRes.cpu))
        (capped (limitOf parseMemory inp.memoryLimitStr)
          (parseMemory inp.currentRes.memory)) := by
    rw [verdict, huncapped]
  rw [hcurrent, hfinal, hmem]
  constructor
  · rintro ⟨q, hq, hq'⟩
    obtain ⟨c, hc⟩ := cost_eq_fin hq
    rw [hc] at hq hq' ⊢
    -- a cap lowers the cost, since both prices are positive
    rcases capped_fin_cases (limitOf parseCpu inp.cpuLimitStr) c with
      ⟨hcpuLimit, hcap⟩ | ⟨-, c', -, hc', hcap⟩ <;>
    rcases capped_fin_cases (limitOf parseMemory inp.memoryLimitStr) m with
      ⟨hmemLimit, hcap'⟩ | ⟨-, m', -, hm', hcap'⟩
    · exact ⟨⟨c, rfl⟩, hcpuLimit, hmemLimit⟩
    all_goals
      rw [hcap, hcap', ← hq, cost_fin, cost_fin, fin.injEq, cpuUnitCost, memUnitCost] at hq'
      linarith
  · rintro ⟨⟨c, hc⟩, hcpuLimit, hmemLimit⟩
    rw [hc] at hcpuLimit ⊢
    rw [capped_current hcpuLimit, capped_current hmemLimit, cost_fin]
    exact ⟨_, rfl, rfl⟩

/-! ### Passing evaluations of free requests -/

/-- The CPU that is asked for when there is no current value to soften: the
recommendation, or the current value after a danger and at a forecast peak. -/
def askedCpu (inp : PolicyInput) : PyFloat :=
  let currCpu := parseCpu inp.currentRes.cpu
  let base := if Danger inp then currCpu else parseCpu inp.krrRes.cpu
  if ForecastPeak inp then currCpu
  else if forecastPct inp = none then pyMax base (currCpu * fin (85 / 100))
  else base

/-- The memory that is asked for. -/
def askedMem (inp : PolicyInput) : PyFloat :=
  if Danger inp then parseMemory inp.currentRes.memory
  else if MemCut inp then parseMemory inp.currentRes.memory * fin (6 / 10)
  else parseMemory inp.krrRes.memory

/-- A rule that does not fail keeps the candidates. -/
lemma dangerRule_of_ne_fail (rule : RuleId) (points : ℕ) {danger : PrometheusMetrics → Bool}
    {prom : Option PrometheusMetrics} (currCpu currMem : PyFloat) {P Q : PyFloat → Prop} {d : Draft}
    (hstatus : dangerStatus prom danger ≠ .fail) (h : Keeps P Q d) :
    Keeps P Q (dangerRule rule points danger prom currCpu currMem d) := by
  rw [dangerRule]
  split
  · contradiction
  · exact ⟨h.cpu, h.mem⟩
  · exact ⟨h.cpu, h.mem⟩

/-- Without a danger RULE_03 and RULE_04 keep the candidates. -/
lemma guarded_of_not_danger {inp : PolicyInput} (h : ¬ Danger inp) {P Q : PyFloat → Prop}
    (hsoft : Keeps P Q (softened inp)) : Keeps P Q (guarded inp) := by
  have hstatus : ∀ danger : PrometheusMetrics → Bool,
      (∀ m, danger m = true → m.oomKilled = true ∨ 10 ≤ m.restartCount) →
      dangerStatus inp.promMetrics danger ≠ .fail := by
    intro danger hdanger hfail
    cases hprom : inp.promMetrics with
    | none => simp [dangerStatus, hprom] at hfail
    | some m =>
        by_cases hm : danger m = true
        · exact h ⟨m, hprom, hdanger m hm⟩
        · simp [dangerStatus, hprom, hm] at hfail
  exact dangerRule_of_ne_fail _ _ _ _ (hstatus _ fun m hm => .inr (by simpa using hm))
    (dangerRule_of_ne_fail _ _ _ _ (hstatus _ fun m hm => .inl hm) hsoft)

/-- The candidates after RULE_04, where RULE_01 had no current value to soften. -/
lemma guarded_finalCpu {inp : PolicyInput}
    (hcurr : lt (fin 0) (parseCpu inp.currentRes.cpu) = false) :
    (guarded inp).finalCpu =
      if Danger inp then parseCpu inp.currentRes.cpu else parseCpu inp.krrRes.cpu := by
  split
  · rename_i hdanger
    obtain ⟨m, hprom, hm⟩ := hdanger
    exact (guarded_of_danger hprom hm).cpu
  · rename_i hdanger
    have hcut : ¬ le (fin (1 / 2))
        (reduction (parseCpu inp.currentRes.cpu) (parseCpu inp.krrRes.cpu)) = true := by
      rw [reduction, hcurr, if_neg (by simp)]
      simp
    have hfirst : (rule01 (parseCpu inp.currentRes.cpu) (parseCpu inp.krrRes.cpu)
        ⟨parseCpu inp.krrRes.cpu, parseMemory inp.krrRes.memory, 0, []⟩).finalCpu =
          parseCpu inp.krrRes.cpu := by
      rw [rule01, if_neg hcut]
      rfl
    exact (guarded_of_not_danger (P := (· = parseCpu inp.krrRes.cpu)) (Q := fun _ => True) hdanger
      (rule02_keeps _ trivial ⟨hfirst, trivial⟩)).cpu

/-- Without a positive current value the candidate is the CPU that is asked for. -/
lemma draft_finalCpu {inp : PolicyInput}
    (hcurr : lt (fin 0) (parseCpu inp.currentRes.cpu) = false) :
    (draft inp).finalCpu = askedCpu inp := by
  have hrule05 : (rule05 inp.chronosForecast (parseCpu inp.currentRes.cpu)
      (guarded inp)).finalCpu = askedCpu inp := by
    simp only [rule05, askedCpu, ← guarded_finalCpu hcurr, ForecastPeak, forecastPct]
    cases inp.chronosForecast.bind ChronosForecast.predictedMaxCpuPct with
    | none => simp
    | some pct => by_cases h : le (fin 80) pct = true <;> simp [h, record]
  exact (rule07_keeps (P := (· = askedCpu inp)) (Q := fun _ => True) _ _
    (rule06_keeps _ ⟨hrule05, trivial⟩)).cpu

lemma draft_finalMem (inp : PolicyInput) : (draft inp).finalMem = askedMem inp := by
  have hguarded : (guarded inp).finalMem = askedMem inp := by
    rw [askedMem]
    split
    · rename_i hdanger
      obtain ⟨m, hprom, hm⟩ := hdanger
      exact (guarded_of_danger hprom hm).mem
    · rename_i hdanger
      refine (guarded_of_not_danger (P := fun _ => True) (Q := (· = _)) hdanger ⟨trivial, ?_⟩).mem
      have hfirst : (rule01 (parseCpu inp.currentRes.cpu) (parseCpu inp.krrRes.cpu)
          ⟨parseCpu inp.krrRes.cpu, parseMemory inp.krrRes.memory, 0, []⟩).finalMem =
            parseMemory inp.krrRes.memory :=
        (rule01_keeps (P := fun _ => True) (Q := (· = parseMemory inp.krrRes.memory)) _ trivial
          ⟨trivial, rfl⟩).mem
      simp only [softened, rule02, ← memCut_iff]
      split
      · rfl
      · exact hfirst
  exact (rule07_keeps (P := fun _ => True) (Q := (· = askedMem inp)) _ _
    (rule06_keeps _ (rule05_keeps _ trivial trivial ⟨trivial, hguarded⟩))).mem

/-- A value that is not negative is capped at one that is zero only if it is. -/
lemma capped_of_nonneg {final : PyFloat} (limit : Option PyFloat) (h : le (fin 0) final = true) :
    le (fin 0) (capped limit final) = true ∧ (capped limit final = fin 0 ↔ final = fin 0) := by
  rcases capped_eq limit final with heq | ⟨l, -, hpos, hlt, heq⟩
  · rw [heq]
    exact ⟨h, Iff.rfl⟩
  · rw [heq]
    refine ⟨le_of_lt_eq_true hpos, iff_of_false ?_ ?_⟩
    · rintro rfl
      simp at hpos
    · rintro rfl
      have hloop := lt_of_lt_le hpos (le_of_lt_eq_true hlt)
      simp at hloop

/-- Only zero requests cost nothing. -/
lemma cost_eq_zero_iff {cpu mem : PyFloat} (hcpu : le (fin 0) cpu = true)
    (hmem : le (fin 0) mem = true) : cost cpu mem = fin 0 ↔ cpu = fin 0 ∧ mem = fin 0 := by
  constructor
  · intro h
    cases mem with
    | fin y =>
        obtain ⟨x, rfl⟩ := cost_eq_fin h
        have hx : 0 ≤ x := by simpa using hcpu
        have hy : 0 ≤ y := by simpa using hmem
        rw [cost_fin, fin.injEq, cpuUnitCost, memUnitCost] at h
        exact ⟨by rw [show x = 0 by linarith], by rw [show y = 0 by linarith]⟩
    | inf n =>
        have hscaled : ∃ n', (inf n : PyFloat) / fin 1024 * fin memUnitCost = inf n' := ⟨_, rfl⟩
        obtain ⟨n', hn'⟩ := hscaled
        rw [cost, hn'] at h
        cases cpu with
        | fin x => cases h
        | inf k => cases k <;> cases n' <;> cases h
        | nan => cases h
    | nan => simp at hmem
  · rintro ⟨rfl, rfl⟩
    simp [cost_fin]

/-- Nothing that costs something is asked for: over a container without requests,
after a danger, or when both values asked for are zero. Negative CPU quantities,
which no container has, may also cancel against the memory. -/
def NothingAsked (inp : PolicyInput) : Prop :=
  if le (fin 0) (parseCpu inp.currentRes.cpu) = true ∧ le (fin 0) (parseCpu inp.krrRes.cpu) = true
  then Danger inp ∨
    (ForecastPeak inp ∨ parseCpu inp.krrRes.cpu = fin 0) ∧ parseMemory inp.krrRes.memory = fin 0
  else (∃ c, parseCpu inp.currentRes.cpu = fin c) ∧
    cost (capped (limitOf parseCpu inp.cpuLimitStr) (askedCpu inp))
        (capped (limitOf parseMemory inp.memoryLimitStr) (askedMem inp)) =
      cost (parseCpu inp.currentRes.cpu) (parseMemory inp.currentRes.memory)

section Zero

variable {inp : PolicyInput}

/-- What is asked for over a container without requests. -/
lemma asked_of_zero (hcpu : parseCpu inp.currentRes.cpu = fin 0)
    (hmem : parseMemory inp.currentRes.memory = fin 0)
    (hkrr : le (fin 0) (parseCpu inp.krrRes.cpu) = true) :
    askedCpu inp = (if Danger inp ∨ ForecastPeak inp then fin 0 else parseCpu inp.krrRes.cpu) ∧
      askedMem inp = (if Danger inp then fin 0 else parseMemory inp.krrRes.memory) := by
  have hnotcut : ¬ MemCut inp := by
    rintro ⟨m, hm, heq, -⟩
    rw [hmem] at heq
    cases heq
    exact lt_irrefl _ hm
  have hlow : lt (parseCpu inp.krrRes.cpu) (fin 0) = false := by
    by_contra hlt
    have hloop := lt_of_le_lt hkrr (Bool.not_eq_false _ ▸ hlt)
    simp at hloop
  constructor
  · by_cases hdanger : Danger inp
    · simp [askedCpu, hdanger, hcpu]
    · by_cases hpeak : ForecastPeak inp
      · simp [askedCpu, hpeak, hcpu]
      · simp [askedCpu, hdanger, hpeak, hcpu, pyMax, hlow]
  · simp [askedMem, hnotcut, hmem]

/-- It is not negative. -/
lemma asked_nonneg (hcpu : parseCpu inp.currentRes.cpu = fin 0)
    (hmem : parseMemory inp.currentRes.memory = fin 0)
    (hkrr : le (fin 0) (parseCpu inp.krrRes.cpu) = true) :
    le (fin 0) (askedCpu inp) = true ∧ le (fin 0) (askedMem inp) = true := by
  obtain ⟨hasked, hasked'⟩ := asked_of_zero hcpu hmem hkrr
  rw [hasked, hasked']
  constructor
  · split
    · simp
    · exact hkrr
  · obtain ⟨k, hk, hkrrMem⟩ := parseMemory_eq_fin inp.krrRes.memory
    rw [hkrrMem]
    split
    · simp
    · simpa using hk

/-- It is nothing after a danger, or when the recommendation has no memory and the CPU is
held by a forecast or not recommended. -/
lemma asked_eq_zero_iff (hcpu : parseCpu inp.currentRes.cpu = fin 0)
    (hmem : parseMemory inp.currentRes.memory = fin 0)
    (hkrr : le (fin 0) (parseCpu inp.krrRes.cpu) = true) :
    askedCpu inp = fin 0 ∧ askedMem inp = fin 0 ↔
      Danger inp ∨ (ForecastPeak inp ∨ parseCpu inp.krrRes.cpu = fin 0) ∧
        parseMemory inp.krrRes.memory = fin 0 := by
  obtain ⟨hasked, hasked'⟩ := asked_of_zero hcpu hmem hkrr
  rw [hasked, hasked']
  by_cases hdanger : Danger inp
  · simp [hdanger]
  · by_cases hpeak : ForecastPeak inp <;> simp [hdanger, hpeak]

/-- Free requests ask for no CPU. -/
lemma lt_zero_of_free (hfree : Free inp) : lt (fin 0) (parseCpu inp.currentRes.cpu) = false := by
  obtain ⟨m, hm, hmem⟩ := parseMemory_eq_fin inp.currentRes.memory
  rw [Free, hmem] at hfree
  cases hcpu : parseCpu inp.currentRes.cpu with
  | fin c =>
      rw [hcpu, cost_fin, le_fin, decide_eq_true_eq, cpuUnitCost, memUnitCost] at hfree
      rw [lt_fin, decide_eq_false_iff_not]
      linarith
  | inf n =>
      rw [hcpu] at hfree
      cases n with
      | false => cases hfree
      | true => rfl
  | nan => rfl

/-- Requests that are not negative are free only if there are none. -/
lemma eq_zero_of_free (hfree : Free inp) (hcpu : le (fin 0) (parseCpu inp.currentRes.cpu) = true) :
    parseCpu inp.currentRes.cpu = fin 0 ∧ parseMemory inp.currentRes.memory = fin 0 := by
  obtain ⟨m, hm, hmem⟩ := parseMemory_eq_fin inp.currentRes.memory
  have hlow := lt_zero_of_free hfree
  cases hcurr : parseCpu inp.currentRes.cpu with
  | fin c =>
      rw [hcurr] at hcpu hlow
      have hc : c = 0 := le_antisymm (by simpa using hlow) (by simpa using hcpu)
      rw [Free, hcurr, hmem, cost_fin, hc, le_fin, decide_eq_true_eq, memUnitCost] at hfree
      exact ⟨by rw [hc], by rw [hmem, show m = 0 by linarith]⟩
  | inf n => cases n <;> simp [hcurr, lt, le] at hcpu hlow
  | nan => simp [hcurr] at hcpu

/-- A passing evaluation of free requests ends with what is asked for. -/
lemma uncapped_of_free (hfails : ¬ Fails inp) (hfree : Free inp) :
    uncapped inp = (askedCpu inp, askedMem inp) := by
  have hpass : overallStatus (draft inp).score = .pass := by
    rw [draft_score, overallStatus]
    exact if_neg hfails
  rw [uncapped, hpass, draft_finalCpu (lt_zero_of_free hfree), draft_finalMem]

/-- A passing evaluation of free requests keeps their cost exactly when nothing is
asked for. -/
lemma free_cost_iff (hfails : ¬ Fails inp) (hfree : Free inp) :
    (∃ q, (verdict inp).currentCost = fin q ∧ (verdict inp).finalCost = fin q) ↔
      NothingAsked inp := by
  have hcurrent : (verdict inp).currentCost =
      cost (parseCpu inp.currentRes.cpu) (parseMemory inp.currentRes.memory) := rfl
  have hfinal : (verdict inp).finalCost =
      cost (capped (limitOf parseCpu inp.cpuLimitStr) (askedCpu inp))
        (capped (limitOf parseMemory inp.memoryLimitStr) (askedMem inp)) := by
    rw [verdict, uncapped_of_free hfails hfree]
  rw [hcurrent, hfinal, NothingAsked]
  split
  · rename_i hnonneg
    obtain ⟨hcpu, hmem⟩ := eq_zero_of_free hfree hnonneg.1
    obtain ⟨hasked, hasked'⟩ := asked_nonneg hcpu hmem hnonneg.2
    obtain ⟨hcapped, hzero⟩ := capped_of_nonneg (limitOf parseCpu inp.cpuLimitStr) hasked
    obtain ⟨hcapped', hzero'⟩ := capped_of_nonneg (limitOf parseMemory inp.memoryLimitStr) hasked'
    have hcost : cost (parseCpu inp.currentRes.cpu) (parseMemory inp.currentRes.memory) = fin 0 := by
      rw [hcpu, hmem]
      simp [cost_fin]
    rw [← asked_eq_zero_iff hcpu hmem hnonneg.2, ← hzero, ← hzero',
      ← cost_eq_zero_iff hcapped hcapped', hcost]
    constructor
    · rintro ⟨q, hq, hq'⟩
      exact hq'.trans hq.symm
    · exact fun h => ⟨0, rfl, h⟩
  · constructor
    · rintro ⟨q, hq, hq'⟩
      obtain ⟨m, -, hmem⟩ := parseMemory_eq_fin inp.currentRes.memory
      exact ⟨cost_eq_fin (hmem ▸ hq), hq'.trans hq.symm⟩
    · rintro ⟨⟨c, hc⟩, heq⟩
      obtain ⟨m, -, hmem⟩ := parseMemory_eq_fin inp.currentRes.memory
      rw [heq, hc, hmem, cost_fin]
      exact ⟨_, rfl, rfl⟩

end Zero

/-! ### The figures -/

/-- The inputs whose cost figures agree: priced ones, failed ones with no limit
below the current values, and free ones for which nothing is asked for. -/
def CostKept (inp : PolicyInput) : Prop :=
  (¬ Fails inp ∧ ¬ Free inp) ∨
    (Fails inp ∧ (∃ c, parseCpu inp.currentRes.cpu = fin c) ∧
      LimitAtLeast (limitOf parseCpu inp.cpuLimitStr) (parseCpu inp.currentRes.cpu) ∧
      LimitAtLeast (limitOf parseMemory inp.memoryLimitStr)
        (parseMemory inp.currentRes.memory)) ∨
    (¬ Fails inp ∧ Free inp ∧ NothingAsked inp)

/-- A container without requests. -/
def withoutRequests : PolicyInput where
  currentRes := ⟨"0", "0"⟩
  krrRes := ⟨"100m", "100Mi"⟩
  promMetrics := some ⟨false, 0, some (fin 50), false⟩
  chronosForecast := some ⟨some (fin 30), none, none⟩
  cpuDataInsufficient := false
  memDataInsufficient := false
  cpuLimitStr := none
  memoryLimitStr := none

end PolicyEngine

end FinOpsPipeline
