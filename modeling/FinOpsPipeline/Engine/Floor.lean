import FinOpsPipeline.Engine.KeepCurrent
import FinOpsPipeline.Engine.Risk

/-!
The safety floor of the final values.

Each rule may overwrite the candidates of the rules before it, so a guarantee
of one rule has to survive the later ones. The values before the limits are
bounded rule by rule, and a limit that is not below the current value leaves
such bounds alone.

* `softened_floor`: RULE_01 and RULE_02 keep more than half of the CPU and more
  than 40 percent of the memory.
* `uncapped_floor`, `uncapped_margin`, `uncapped_of_peak`, `uncapped_ceiling`: the
  bounds of the values before the limits.
* `capped_of_bound`, `capped_current`, `capped_le_self`: what the cap keeps.
* `safety_floor`: the bounds of the numbers that are formatted.
-/

namespace FinOpsPipeline

open PyFloat

namespace PolicyEngine

/-! ### The values before the limits -/

/-- The values before the limits are the candidates or the current values. -/
lemma uncapped_of_draft {P Q : PyFloat → Prop} {inp : PolicyInput}
    (hcpu : P (parseCpu inp.currentRes.cpu)) (hmem : Q (parseMemory inp.currentRes.memory))
    (h : Keeps P Q (draft inp)) : P (uncapped inp).1 ∧ Q (uncapped inp).2 := by
  rw [uncapped]
  split
  · exact ⟨hcpu, hmem⟩
  · exact ⟨h.cpu, h.mem⟩

section Uncapped

variable {inp : PolicyInput} {c m : ℚ}

/-- A recommendation that is not softened is above the share. -/
lemma share_lt_of_not_cut {b y : ℚ} {krr : PyFloat} (hy : 0 < y) (hkrr : krr ≠ nan)
    (hcut : ¬ le (fin b) (reduction (fin y) krr) = true) :
    lt (fin (y * (1 - b))) krr = true := by
  rw [le_reduction_fin hy] at hcut
  exact lt_of_not_le hkrr (by simp) (Bool.eq_false_iff.mpr hcut)

/-- RULE_01 and RULE_02 soften the recommendations that are too low. -/
lemma softened_floor (hc : 0 < c) (hm : 0 < m) (hcpu : parseCpu inp.currentRes.cpu = fin c)
    (hmem : parseMemory inp.currentRes.memory = fin m) (hkrr : parseCpu inp.krrRes.cpu ≠ nan) :
    Keeps (fun x => lt (fin (c * (1 - 1 / 2))) x = true)
      (fun x => lt (fin (m * (1 - 6 / 10))) x = true) (softened inp) := by
  obtain ⟨k, -, hkrrMem⟩ := parseMemory_eq_fin inp.krrRes.memory
  have hfirst : ∀ d : Draft, d.finalCpu = parseCpu inp.krrRes.cpu →
      lt (fin (c * (1 - 1 / 2))) (rule01 (fin c) (parseCpu inp.krrRes.cpu) d).finalCpu = true := by
    intro d hd
    rw [rule01]
    split
    · simp only [fin_mul, lt_fin, decide_eq_true_eq]
      linarith
    · rename_i hcut
      exact hd ▸ share_lt_of_not_cut hc hkrr hcut
  have hsecond : ∀ d : Draft, d.finalMem = parseMemory inp.krrRes.memory →
      lt (fin (m * (1 - 6 / 10)))
        (rule02 (fin m) (parseMemory inp.krrRes.memory) d).finalMem = true := by
    intro d hd
    rw [rule02]
    split
    · simp only [fin_mul, lt_fin, decide_eq_true_eq]
      linarith
    · rename_i hcut
      exact hd ▸ share_lt_of_not_cut hm (by simp [hkrrMem]) hcut
  rw [softened, hcpu, hmem]
  refine ⟨?_, hsecond _ ?_⟩
  · exact (rule02_keeps (P := fun x => lt (fin (c * (1 - 1 / 2))) x = true) (Q := fun _ => True) _
      trivial ⟨hfirst _ rfl, trivial⟩).cpu
  · exact (rule01_keeps (P := fun _ => True) (Q := (· = parseMemory inp.krrRes.memory)) _
      trivial ⟨trivial, rfl⟩).mem

/-- More than half of the CPU and more than 40 percent of the memory is kept. -/
lemma uncapped_floor (hc : 0 < c) (hm : 0 < m) (hcpu : parseCpu inp.currentRes.cpu = fin c)
    (hmem : parseMemory inp.currentRes.memory = fin m) (hkrr : parseCpu inp.krrRes.cpu ≠ nan) :
    lt (fin (c * (1 - 1 / 2))) (uncapped inp).1 = true ∧
      lt (fin (m * (1 - 6 / 10))) (uncapped inp).2 = true := by
  have hcurr : lt (fin (c * (1 - 1 / 2))) (parseCpu inp.currentRes.cpu) = true := by
    rw [hcpu, lt_fin, decide_eq_true_eq]
    linarith
  have hcurr' : lt (fin (m * (1 - 6 / 10))) (parseMemory inp.currentRes.memory) = true := by
    rw [hmem, lt_fin, decide_eq_true_eq]
    linarith
  have hmargin : lt (fin (c * (1 - 1 / 2))) (parseCpu inp.currentRes.cpu * fin (85 / 100)) =
      true := by
    rw [hcpu, fin_mul, lt_fin, decide_eq_true_eq]
    linarith
  exact uncapped_of_draft hcurr hcurr' (rule07_keeps _ _ (rule06_keeps _
    (rule05_keeps _ hcurr hmargin (guarded_keeps hcurr hcurr' (softened_floor hc hm hcpu hmem hkrr)))))

/-- Without a forecast 85 percent of the CPU is kept. -/
lemma uncapped_margin (hc : 0 < c) (hcpu : parseCpu inp.currentRes.cpu = fin c)
    (hkrr : parseCpu inp.krrRes.cpu ≠ nan) (hforecast : forecastPct inp = none) :
    le (fin (c * (85 / 100))) (uncapped inp).1 = true := by
  have hcurr : le (fin (c * (85 / 100))) (parseCpu inp.currentRes.cpu) = true := by
    rw [hcpu, le_fin, decide_eq_true_eq]
    linarith
  have hne : (guarded inp).finalCpu ≠ nan := by
    have hcurr_ne : parseCpu inp.currentRes.cpu ≠ nan := by simp [hcpu]
    exact (guarded_keeps (P := (· ≠ nan)) (Q := fun _ => True) hcurr_ne trivial
      (rule02_keeps _ trivial (rule01_keeps _ (mul_fin_ne_nan hcurr_ne (by norm_num))
        ⟨hkrr, trivial⟩))).cpu
  have hmax : le (fin (c * (85 / 100)))
      (rule05 inp.chronosForecast (parseCpu inp.currentRes.cpu) (guarded inp)).finalCpu = true := by
    rw [forecastPct] at hforecast
    simp only [rule05, hforecast, hcpu, fin_mul, pyMax]
    split
    · simp
    · rename_i hlow
      exact le_of_not_lt (by simp) hne (Bool.eq_false_iff.mpr hlow)
  exact (uncapped_of_draft (P := fun x => le (fin (c * (85 / 100))) x = true)
    (Q := fun _ => True) hcurr trivial
    (rule07_keeps _ _ (rule06_keeps _ ⟨hmax, trivial⟩))).1

/-- A forecast peak keeps the current CPU. -/
lemma uncapped_of_peak (hforecast : ForecastPeak inp) :
    (uncapped inp).1 = parseCpu inp.currentRes.cpu := by
  obtain ⟨pct, hpct, hpeak⟩ := hforecast
  have hfinal : (rule05 inp.chronosForecast (parseCpu inp.currentRes.cpu) (guarded inp)).finalCpu =
      parseCpu inp.currentRes.cpu := by
    rw [forecastPct] at hpct
    simp only [rule05, hpct, if_pos hpeak]
  exact (uncapped_of_draft (P := (· = parseCpu inp.currentRes.cpu)) (Q := fun _ => True) rfl trivial
    (rule07_keeps _ _ (rule06_keeps _ ⟨hfinal, trivial⟩))).1

/-- The larger of two values is at least each of them. -/
lemma le_pyMax {x y : PyFloat} (hx : x ≠ nan) (hy : y ≠ nan) :
    le x (pyMax x y) = true ∧ le y (pyMax x y) = true := by
  rw [pyMax]
  split
  · rename_i hlt
    exact ⟨le_of_lt_eq_true hlt, le_refl_of_ne_nan hy⟩
  · rename_i hlt
    exact ⟨le_refl_of_ne_nan hx, le_of_not_lt hy hx (Bool.eq_false_iff.mpr hlt)⟩

/-- No value is above both the current value and the recommendation. -/
lemma uncapped_ceiling (hc : 0 < c) (hm : 0 < m) (hcpu : parseCpu inp.currentRes.cpu = fin c)
    (hmem : parseMemory inp.currentRes.memory = fin m) (hkrr : parseCpu inp.krrRes.cpu ≠ nan) :
    le (uncapped inp).1 (pyMax (fin c) (parseCpu inp.krrRes.cpu)) = true ∧
      le (uncapped inp).2 (pyMax (fin m) (parseMemory inp.krrRes.memory)) = true := by
  obtain ⟨k, -, hk⟩ := parseMemory_eq_fin inp.krrRes.memory
  obtain ⟨hcurr, hrec⟩ := le_pyMax (x := fin c) (by simp) hkrr
  obtain ⟨hcurr', hrec'⟩ := le_pyMax (x := fin m) (y := parseMemory inp.krrRes.memory) (by simp)
    (by simp [hk])
  -- a share of the current value is below it
  have hshare : ∀ {y s : ℚ}, 0 < y → s ≤ 1 → le (fin y * fin s) (fin y) = true := by
    intro y s hy hs
    rw [fin_mul, le_fin, decide_eq_true_eq]
    nlinarith
  refine uncapped_keeps (P := fun x => le x (pyMax (fin c) (parseCpu inp.krrRes.cpu)) = true)
    (Q := fun x => le x (pyMax (fin m) (parseMemory inp.krrRes.memory)) = true) inp hrec ?_ ?_ ?_
    hrec' ?_ ?_
  · rwa [hcpu]
  · rw [hcpu]
    exact le_of_le_le (hshare hc (by norm_num)) hcurr
  · rw [hcpu]
    exact le_of_le_le (hshare hc (by norm_num)) hcurr
  · rwa [hmem]
  · rw [hmem]
    exact le_of_le_le (hshare hm (by norm_num)) hcurr'

end Uncapped

/-! ### The limits -/

/-- A limit that is absent, not applied, or not below the current value. -/
def LimitAtLeast (limit : Option PyFloat) (curr : PyFloat) : Prop :=
  ∀ l, limit = some l → lt (fin 0) l = true → le curr l = true

section Limits

variable {limit : Option PyFloat} {curr final : PyFloat}

/-- The cap gives the value or a limit below it. -/
lemma capped_eq (limit : Option PyFloat) (final : PyFloat) :
    capped limit final = final ∨
      ∃ l, limit = some l ∧ lt (fin 0) l = true ∧ lt l final = true ∧ capped limit final = l := by
  by_cases h : exceeds limit final = true
  · obtain ⟨l, rfl, hl⟩ := (Option.any_eq_true _ _).mp h
    rw [Bool.and_eq_true] at hl
    exact .inr ⟨l, rfl, hl.1, hl.2, by rw [capped, if_pos h]; rfl⟩
  · exact .inl (if_neg h)

/-- A lower bound of the current value survives the cap. -/
lemma capped_of_bound {P : PyFloat → Prop} (hlimit : LimitAtLeast limit curr) (hfinal : P final)
    (hup : ∀ l, le curr l = true → P l) : P (capped limit final) := by
  rcases capped_eq limit final with h | ⟨l, hl, hpos, -, h⟩
  · rwa [h]
  · rw [h]
    exact hup l (hlimit l hl hpos)

/-- The current value survives the cap. -/
lemma capped_current (hlimit : LimitAtLeast limit curr) : capped limit curr = curr := by
  rcases capped_eq limit curr with h | ⟨l, hl, hpos, hlt, -⟩
  · exact h
  · have hloop := lt_of_le_lt (hlimit l hl hpos) hlt
    exact absurd hloop (by simp)

/-- The cap never raises a value. -/
lemma capped_le_self (hfinal : final ≠ nan) : le (capped limit final) final = true := by
  rcases capped_eq limit final with h | ⟨l, -, -, hlt, h⟩
  · rw [h]
    exact le_refl_of_ne_nan hfinal
  · rw [h]
    exact le_of_lt_eq_true hlt

end Limits

/-! ### The numbers that are formatted -/

/-- **The safety floor**: for positive current values and limits that are not below
them, more than half of the CPU and 40 percent of the memory is kept, 85 percent
of the CPU without a forecast, everything after a danger or a failure, all of the
CPU at a forecast peak; and no value exceeds both the current one and the
recommendation. -/
theorem safety_floor {inp : PolicyInput} {c m : ℚ} (hc : 0 < c) (hm : 0 < m)
    (hcpu : parseCpu inp.currentRes.cpu = fin c)
    (hmem : parseMemory inp.currentRes.memory = fin m)
    (hkrr : le (fin 0) (parseCpu inp.krrRes.cpu) = true)
    (hcpuLimit : LimitAtLeast (limitOf parseCpu inp.cpuLimitStr) (fin c))
    (hmemLimit : LimitAtLeast (limitOf parseMemory inp.memoryLimitStr) (fin m)) :
    lt (fin (1 / 2 * c)) (verdict inp).finalCpu = true ∧
      lt (fin (4 / 10 * m)) (verdict inp).finalMem = true ∧
      (forecastPct inp = none → le (fin (85 / 100 * c)) (verdict inp).finalCpu = true) ∧
      (Held inp → (verdict inp).finalCpu = fin c ∧ (verdict inp).finalMem = fin m) ∧
      (ForecastPeak inp → (verdict inp).finalCpu = fin c) ∧
      le (verdict inp).finalCpu (pyMax (fin c) (parseCpu inp.krrRes.cpu)) = true ∧
      le (verdict inp).finalMem (pyMax (fin m) (parseMemory inp.krrRes.memory)) = true := by
  have hkrr_ne : parseCpu inp.krrRes.cpu ≠ nan := by
    intro h
    simp [h] at hkrr
  have hne : (uncapped inp).1 ≠ nan := uncapped_cpu_ne_nan inp hkrr_ne (by simp [hcpu])
  obtain ⟨q, -, hq⟩ := uncapped_mem inp
  obtain ⟨hfloor, hfloor'⟩ := uncapped_floor hc hm hcpu hmem hkrr_ne
  obtain ⟨hceiling, hceiling'⟩ := uncapped_ceiling hc hm hcpu hmem hkrr_ne
  have hfinalCpu : (verdict inp).finalCpu =
      capped (limitOf parseCpu inp.cpuLimitStr) (uncapped inp).1 := rfl
  have hfinalMem : (verdict inp).finalMem =
      capped (limitOf parseMemory inp.memoryLimitStr) (uncapped inp).2 := rfl
  have hshare : ∀ {y s : ℚ}, 0 < y → s < 1 → ∀ l, le (fin y) l = true → lt (fin (s * y)) l = true :=
    fun hy hs l hl => lt_of_lt_le (by simpa using mul_lt_of_lt_one_left hy hs) hl
  rw [show c * (1 - 1 / 2) = 1 / 2 * c by ring] at hfloor
  rw [show m * (1 - 6 / 10) = 4 / 10 * m by ring] at hfloor'
  rw [hfinalCpu, hfinalMem]
  refine ⟨?_, ?_, ?_, ?_, ?_, ?_, ?_⟩
  · exact capped_of_bound (P := fun x => lt (fin (1 / 2 * c)) x = true) hcpuLimit hfloor
      (hshare hc (by norm_num))
  · exact capped_of_bound (P := fun x => lt (fin (4 / 10 * m)) x = true) hmemLimit hfloor'
      (hshare hm (by norm_num))
  · intro hforecast
    have hmargin := uncapped_margin hc hcpu hkrr_ne hforecast
    rw [mul_comm] at hmargin
    exact capped_of_bound (P := fun x => le (fin (85 / 100 * c)) x = true) hcpuLimit hmargin
      fun l hl => le_of_lt_eq_true (hshare hc (by norm_num) l hl)
  · intro held
    rw [uncapped_cpu_of_held hc.le hcpu (.inl held), uncapped_mem_of_held hmem (.inl held)]
    exact ⟨capped_current hcpuLimit, capped_current hmemLimit⟩
  · intro hpeak
    rw [uncapped_of_peak hpeak, hcpu]
    exact capped_current hcpuLimit
  · exact le_of_le_le (capped_le_self hne) hceiling
  · exact le_of_le_le (capped_le_self (by simp [hq])) hceiling'

/-- A container of one core and one GiB whose recommendation is a tenth of it. -/
def deepCut : PolicyInput where
  currentRes := ⟨"1", "1Gi"⟩
  krrRes := ⟨"100m", "102Mi"⟩
  promMetrics := none
  chronosForecast := none
  cpuDataInsufficient := false
  memDataInsufficient := false
  cpuLimitStr := some "2"
  memoryLimitStr := some "1Gi"

/-- More than half a core and 40 percent of the GiB is kept. -/
theorem safety_floor_deep_cut :
    lt (fin (1 / 2 * 1)) (verdict deepCut).finalCpu = true ∧
      lt (fin (4 / 10 * 1024)) (verdict deepCut).finalMem = true ∧
      le (fin (85 / 100 * 1)) (verdict deepCut).finalCpu = true := by
  have hlimit : LimitAtLeast (limitOf parseCpu deepCut.cpuLimitStr) (fin 1) := by
    intro l hl _
    rw [show limitOf parseCpu deepCut.cpuLimitStr = some (fin 2) by decide +kernel] at hl
    cases hl
    simp
  have hlimit' : LimitAtLeast (limitOf parseMemory deepCut.memoryLimitStr) (fin 1024) := by
    intro l hl _
    rw [show limitOf parseMemory deepCut.memoryLimitStr = some (fin 1024) by decide +kernel] at hl
    cases hl
    simp
  have hcpu : parseCpu deepCut.currentRes.cpu = fin 1 := by decide +kernel
  have hmem : parseMemory deepCut.currentRes.memory = fin 1024 := by decide +kernel
  have hkrr : le (fin 0) (parseCpu deepCut.krrRes.cpu) = true := by decide +kernel
  have h := safety_floor one_pos (by norm_num) hcpu hmem hkrr hlimit hlimit'
  exact ⟨h.1, h.2.1, h.2.2.1 rfl⟩

end PolicyEngine

end FinOpsPipeline
