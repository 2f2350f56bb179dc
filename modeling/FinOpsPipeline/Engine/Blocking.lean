import FinOpsPipeline.Engine.Risk

/-!
When a failed rule blocks approval.

The status of an evaluation is a threshold on a sum of points. A failed rule adds
fewer points than the threshold: an OOM kill adds 60 and frequent restarts 50 of
the 70 points of `"FAIL"`, and a low average load takes 15 away again. So a
failed rule alone does not fail the evaluation (`failed_rule_passes`).

The program computes the two reductions in doubles. Whether RULE_01 applies is not
changed by that (`half_le_nearest_div_iff`); for RULE_02 the rounded difference is
compared with a share a little below the double `0.6` (`sixTenths_le_nearest_iff`).

* `CpuCut`, `MemCut`: the inputs to which RULE_01 and RULE_02 apply.
* `FailureBlocks`: the signals that bring a failed rule to the threshold.
* `failed_rule_blocks_iff`: exactly with these a failed rule fails the evaluation.
-/

namespace FinOpsPipeline

open PyFloat Binary64
open scoped PyText

namespace PolicyEngine

namespace Rounded

/-! ### Failed rules -/

section Results

variable (fl : PyFloat → PyFloat)

/-- One of the results so far is a failure. -/
def anyFailed (d : Draft) : Bool := d.policyEvals.any fun r => r.status = .fail

@[simp] lemma anyFailed_record (d : Draft) (points : ℕ) (rule : RuleId) (status : RuleStatus) :
    anyFailed (record d points rule status) = (anyFailed d || status = .fail) := by
  simp [anyFailed, record]

/-- Changed final values leave the results as they are. -/
@[simp] lemma anyFailed_final (d : Draft) (finalCpu finalMem : PyFloat) :
    anyFailed { d with finalCpu := finalCpu, finalMem := finalMem } = anyFailed d := rfl

@[simp] lemma anyFailed_score (d : Draft) (score : ℕ) :
    anyFailed { d with score := score } = anyFailed d := rfl

lemma anyFailed_softened (inp : PolicyInput) : anyFailed (softened fl inp) = false := by
  simp only [softened, rule01, rule02]
  split <;> split <;> rfl

lemma anyFailed_dangerRule (rule : RuleId) (points : ℕ) (danger : PrometheusMetrics → Bool)
    (prom : Option PrometheusMetrics) (currCpu currMem : PyFloat) (d : Draft) :
    anyFailed (dangerRule rule points danger prom currCpu currMem d) =
      (anyFailed d || prom.any danger) := by
  cases prom with
  | none => simp [dangerRule, dangerStatus]
  | some m => by_cases h : danger m = true <;> simp [dangerRule, dangerStatus, h]

lemma anyFailed_rule05 (forecast : Option ChronosForecast) (currCpu : PyFloat) (d : Draft) :
    anyFailed (rule05 fl forecast currCpu d) = anyFailed d := by
  rw [rule05]
  split
  · split <;> simp
  · simp

lemma anyFailed_rule06 (prom : Option PrometheusMetrics) (d : Draft) :
    anyFailed (rule06 prom d) = anyFailed d := by
  cases prom with
  | none => simp [rule06]
  | some m =>
      simp only [rule06]
      split <;> simp

lemma anyFailed_rule07 (cpuDataInsufficient memDataInsufficient : Bool) (d : Draft) :
    anyFailed (rule07 cpuDataInsufficient memDataInsufficient d) = anyFailed d := by
  rw [rule07]
  split <;> simp

/-- Only the rules on the metrics fail. -/
lemma anyFailed_draft (inp : PolicyInput) : anyFailed (draft fl inp) = true ↔ Danger inp := by
  rw [draft, anyFailed_rule07, anyFailed_rule06, anyFailed_rule05, guarded, rule04, rule03,
    anyFailed_dangerRule, anyFailed_dangerRule, anyFailed_softened, Danger]
  cases inp.promMetrics with
  | none => simp
  | some m => simp

/-- A failed rule of an evaluation is one of the two. -/
lemma failed_iff (inp : PolicyInput) :
    (∃ r ∈ (verdict fl inp).policyEvals, r.status = .fail) ↔ Danger inp := by
  have hlimits : ∀ cpuLimit memoryLimit finalCpu finalMem,
      rule08 cpuLimit memoryLimit finalCpu finalMem ≠ .fail := by
    intro cpuLimit memoryLimit finalCpu finalMem h
    rw [rule08] at h
    split at h
    · cases h
    · split at h <;> cases h
  rw [← anyFailed_draft fl]
  simp [verdict, anyFailed, or_and_right, exists_or, hlimits]

end Results

/-! ### The reductions in doubles -/

section Reduction

variable {c k : ℚ}

/-- A positive double and its digits. -/
lemma exists_pos_digits (hc : IsDouble c) (hpos : 0 < c) :
    ∃ m : ℤ, 0 < m ∧ m < 2 ^ 53 ∧ c = m * 2 ^ ulpExp c := by
  obtain ⟨m, hm, hcm⟩ := hc.exists_digits
  refine ⟨m, ?_, (abs_lt.mp hm).2, hcm⟩
  rw [hcm, mul_pos_iff_of_pos_right (two_zpow_pos _)] at hpos
  exact_mod_cast hpos

/-- Multiples of a unit are compared by their factors. -/
lemma mul_zpow_le_iff {a b : ℚ} (e : ℤ) : a * 2 ^ e ≤ b * 2 ^ e ↔ a ≤ b :=
  mul_le_mul_iff_left₀ (two_zpow_pos e)

/-- A difference of at least half of a double is not rounded below the half. -/
lemma half_le_nearest_sub (hc : IsDouble c) (hk : IsDouble k) (hpos : 0 < c) (h : k ≤ c / 2) :
    c / 2 ≤ nearest (c - k) := by
  obtain ⟨m, hm, hm53, hcm⟩ := exists_pos_digits hc hpos
  rcases (scale_ulpExp c).min_le.eq_or_lt with hmin | hlt
  · -- at the least unit the half is below a double that is not above the difference
    rw [← hmin] at hcm
    obtain ⟨z, hz⟩ := hk.exists_mul (scale_ulpExp k).min_le
    have hzm : 2 * z ≤ m := by
      rw [hz, hcm, mul_div_right_comm, mul_zpow_le_iff] at h
      have h' : (2 * z : ℚ) ≤ m := by linarith
      exact_mod_cast h'
    have hup : IsDouble (((m + 1) / 2 : ℤ) * 2 ^ (-1074 : ℤ)) :=
      isDouble_mul_zpow le_rfl (abs_le.mpr ⟨by omega, by omega⟩)
    have hhalf : (m : ℚ) ≤ ((m + 1) / 2 * 2 : ℤ) := by
      have hle : m ≤ (m + 1) / 2 * 2 := by omega
      exact_mod_cast hle
    have hsub : (((m + 1) / 2 : ℤ) : ℚ) ≤ (m - z : ℤ) := by
      have hle : (m + 1) / 2 ≤ m - z := by omega
      exact_mod_cast hle
    push_cast at hhalf hsub
    calc c / 2 = m / 2 * 2 ^ (-1074 : ℤ) := by rw [hcm, mul_div_right_comm]
      _ ≤ ((m + 1) / 2 : ℤ) * 2 ^ (-1074 : ℤ) := by
          rw [mul_zpow_le_iff]
          linarith
      _ ≤ nearest (c - k) := by
          refine le_nearest hup ?_
          rw [hcm, hz, ← sub_mul, mul_zpow_le_iff]
          exact hsub
  · -- above it the half is a double
    have hhalf : c / 2 = m * 2 ^ (ulpExp c - 1) := by
      nth_rewrite 1 [hcm]
      rw [zpow_sub_one₀ two_ne_zero]
      ring
    have hdouble : IsDouble (c / 2) :=
      hhalf ▸ isDouble_mul_zpow (by omega) (abs_le.mpr ⟨by omega, hm53.le⟩)
    exact le_nearest hdouble (by linarith)

/-- More than half of a number has at least half of its unit. -/
lemma ulpExp_le_of_half_lt (hpos : 0 < c) (h : c / 2 < k) : ulpExp c - 1 ≤ ulpExp k := by
  rcases (scale_ulpExp c).le with hmin | hle
  · have hk := (scale_ulpExp k).min_le
    omega
  · have hlt := (scale_ulpExp k).lt
    rw [abs_of_pos hpos] at hle
    rw [abs_of_pos (by linarith)] at hlt
    have hpow : (2 : ℚ) ^ (ulpExp c + 52 - 1) < 2 ^ (ulpExp k + 53) := by
      rw [zpow_sub_one₀ two_ne_zero]
      linarith
    have hexp := two_zpow_lt_iff.mp hpow
    omega

/-- A difference of less than half of a double with `m` digits is at least half a
unit away from the half when it is rounded. -/
lemma nearest_sub_le {m e : ℤ} (hm : 0 < m) (hm53 : m < 2 ^ 53) (hmin : -1074 ≤ e)
    (hk : IsDouble k) (hke : e - 1 ≤ ulpExp k) (h : m * 2 ^ e / 2 < k) :
    nearest (m * 2 ^ e - k) ≤ (m - 1) / 2 * 2 ^ e := by
  rcases hmin.eq_or_lt with rfl | hlt
  · obtain ⟨z, hz⟩ := hk.exists_mul (scale_ulpExp k).min_le
    have hzm : m < 2 * z := by
      rw [hz, mul_div_right_comm, mul_lt_mul_iff_left₀ (two_zpow_pos _)] at h
      have h' : (m : ℚ) < 2 * z := by linarith
      exact_mod_cast h'
    have hdown : IsDouble (((m - 1) / 2 : ℤ) * 2 ^ (-1074 : ℤ)) :=
      isDouble_mul_zpow le_rfl (abs_le.mpr ⟨by omega, by omega⟩)
    have hsub : ((m - z : ℤ) : ℚ) ≤ ((m - 1) / 2 : ℤ) := by
      have hle : m - z ≤ (m - 1) / 2 := by omega
      exact_mod_cast hle
    have hhalf : (((m - 1) / 2 * 2 : ℤ) : ℚ) ≤ (m - 1 : ℤ) := by
      have hle : (m - 1) / 2 * 2 ≤ m - 1 := by omega
      exact_mod_cast hle
    push_cast at hhalf hsub
    calc nearest (m * 2 ^ (-1074 : ℤ) - k) ≤ ((m - 1) / 2 : ℤ) * 2 ^ (-1074 : ℤ) := by
          refine nearest_le hdown ?_
          rw [hz, ← sub_mul, mul_zpow_le_iff]
          exact hsub
      _ ≤ (m - 1) / 2 * 2 ^ (-1074 : ℤ) := by
          rw [mul_zpow_le_iff]
          linarith
  · -- the subtrahend is a multiple of half the unit
    have hunit : (2 : ℚ) ^ e = 2 * 2 ^ (e - 1) := by
      rw [zpow_sub_one₀ two_ne_zero]
      ring
    obtain ⟨z, hz⟩ := hk.exists_mul hke
    have hzm : m + 1 ≤ z := by
      have hhalf : (m : ℚ) * 2 ^ e / 2 = m * 2 ^ (e - 1) := by
        rw [hunit]
        ring
      rw [hz, hhalf, mul_lt_mul_iff_left₀ (two_zpow_pos _)] at h
      exact_mod_cast h
    have hdown : IsDouble ((m - 1 : ℤ) * 2 ^ (e - 1)) :=
      isDouble_mul_zpow (by omega) (abs_le.mpr ⟨by omega, by omega⟩)
    have hzm' : ((m + 1 : ℤ) : ℚ) ≤ z := by exact_mod_cast hzm
    push_cast at hzm'
    calc nearest (m * 2 ^ e - k) ≤ (m - 1 : ℤ) * 2 ^ (e - 1) := by
          refine nearest_le hdown ?_
          rw [hz, hunit, show (m : ℚ) * (2 * 2 ^ (e - 1)) = 2 * m * 2 ^ (e - 1) by ring, ← sub_mul,
            mul_zpow_le_iff]
          push_cast
          linarith
      _ = (m - 1) / 2 * 2 ^ e := by
          rw [hunit]
          push_cast
          ring

/-- **The rounded quotient of RULE_01** reaches one half exactly for a
recommendation of at most half of the current value. -/
theorem half_le_nearest_div_iff (hc : IsDouble c) (hk : IsDouble k) (hpos : 0 < c) :
    1 / 2 ≤ nearest (nearest (c - k) / c) ↔ k ≤ c / 2 := by
  have hhalf : IsDouble (1 / 2) := ⟨1, -1, by norm_num, by norm_num, by norm_num⟩
  have hbelow : IsDouble (1 / 2 - 1 / 2 ^ 54) :=
    ⟨2 ^ 53 - 1, -54, by norm_num, by norm_num, by norm_num⟩
  constructor
  · intro h
    by_contra hlt
    obtain ⟨m, hm, hm53, hcm⟩ := exists_pos_digits hc hpos
    have hdiff : nearest (c - k) ≤ (m - 1) / 2 * 2 ^ ulpExp c := by
      have hke := ulpExp_le_of_half_lt hpos (not_le.mp hlt)
      have hmin := (scale_ulpExp c).min_le
      rw [not_le, hcm] at hlt
      nth_rewrite 1 [hcm]
      exact nearest_sub_le hm hm53 hmin hk hke hlt
    -- the quotient is at most the double next to one half
    have hm' : (0 : ℚ) < m := by exact_mod_cast hm
    have hm53' : (m : ℚ) < 2 ^ 53 := by exact_mod_cast hm53
    have hquot : nearest (c - k) / c ≤ 1 / 2 - 1 / 2 ^ 54 := by
      rw [div_le_iff₀ hpos]
      refine hdiff.trans ?_
      nth_rewrite 2 [hcm]
      rw [← mul_assoc, mul_zpow_le_iff]
      linarith
    have hle := nearest_le hbelow hquot
    linarith
  · intro h
    refine le_nearest hhalf ?_
    rw [le_div_iff₀ hpos]
    linarith [half_le_nearest_sub hc hk hpos h]

/-- The double `0.6`. -/
def sixTenths : ℚ := 5404319552844595 / 2 ^ 53

lemma double_sixTenths : double (fin (6 / 10)) = fin sixTenths := by decide +kernel

/-- The middle between the double `0.6` and the one before it. -/
def sixTenthsMiddle : ℚ := sixTenths - 1 / 2 ^ 54

/-- **The quotients that are rounded to the double `0.6` or more.** -/
theorem sixTenths_le_nearest_iff {q : ℚ} : sixTenths ≤ nearest q ↔ sixTenthsMiddle < q := by
  have hpred : (0 : ℚ) ≤ 5404319552844594 / 2 ^ 53 := by norm_num
  have hulp : ulpExp (5404319552844594 / 2 ^ 53) = -53 := by
    refine Scale.eq ⟨by norm_num, ?_, .inr ?_⟩ <;> rw [abs_of_nonneg hpred] <;> norm_num
  have hfloor : ⌊(5404319552844594 / 2 ^ 53 : ℚ) / 2 ^ (-53 : ℤ)⌋ = 5404319552844594 := by
    norm_num
  have hbeyond : Beyond (5404319552844594 / 2 ^ 53) q ↔ sixTenthsMiddle < q := by
    rw [Beyond, hulp, BeyondAt, hfloor, or_iff_left (by norm_num), sixTenthsMiddle, sixTenths]
    norm_num
  rw [← hbeyond]
  constructor
  · intro h
    rw [← lt_nearest_iff hpred]
    refine lt_of_lt_of_le ?_ h
    norm_num [sixTenths]
  · intro h
    have hnext := next_le_nearest hpred h
    rw [hulp, hfloor] at hnext
    refine le_trans (le_of_eq ?_) hnext
    norm_num [sixTenths]

/-! ### The signals -/

/-- The comparison of a relative reduction with a threshold. -/
lemma le_reduction_fin {t : ℚ} (ht : 0 < t) (ht' : t ≤ 1) (hpos : 0 < c) :
    le (fin t) (reduction double (fin c) (fin k)) = true ↔
      2 ^ 1024 ≤ nearest (c - k) ∨ t ≤ nearest (nearest (c - k) / c) := by
  rw [reduction, if_pos (by simpa using hpos), fin_sub, double]
  split_ifs with hup hdown
  · have hdiv : (inf false / fin c : PyFloat) = inf (false ^^ decide (c < 0)) := rfl
    rw [hdiv, decide_eq_false hpos.not_gt]
    exact iff_of_true rfl (.inl hup)
  · have hdiv : (inf true / fin c : PyFloat) = inf (true ^^ decide (c < 0)) := rfl
    have hneg : nearest (c - k) ≤ 0 := hdown.trans (by norm_num)
    have hquot : nearest (nearest (c - k) / c) ≤ 0 :=
      nearest_le isDouble_zero (div_nonpos_of_nonpos_of_nonneg hneg hpos.le)
    rw [hdiv, decide_eq_false hpos.not_gt]
    refine iff_of_false (by simp [le]) ?_
    rintro (h | h)
    · exact hup h
    · linarith
  · have hrange : |t| < 2 ^ 1024 := by
      rw [abs_of_pos ht]
      exact ht'.trans_lt (one_lt_pow₀ one_lt_two (by norm_num))
    rw [fin_div, le_double_fin hrange]
    exact ⟨.inr, fun h => h.resolve_left hup⟩

/-- Only a positive finite value has a relative reduction. -/
lemma le_reduction_iff {t : ℚ} (ht : 0 < t) (curr krr : PyFloat) :
    le (fin t) (reduction double curr krr) = true ↔
      ∃ c, 0 < c ∧ curr = fin c ∧ le (fin t) (reduction double (fin c) krr) = true := by
  refine ⟨fun h => ?_, fun ⟨c, _, hcurr, h⟩ => hcurr ▸ h⟩
  have hzero : ¬ le (fin t) (fin 0) = true := by simpa using ht
  cases curr with
  | fin c =>
      by_cases hc : 0 < c
      · exact ⟨c, hc, rfl, h⟩
      · rw [reduction, if_neg (by simpa using hc)] at h
        exact absurd h hzero
  | inf n =>
      cases n with
      | true => exact absurd h hzero
      | false =>
          have hnan : reduction double (inf false) krr = nan := by
            cases krr with
            | fin k => rfl
            | inf n => cases n <;> rfl
            | nan => rfl
          rw [hnan] at h
          simp at h
  | nan => exact absurd h hzero

end Reduction

/-- The rounded difference is more than a share of a positive current value. -/
def CutAbove (share : ℚ) (curr krr : PyFloat) : Prop :=
  ∃ c, 0 < c ∧ curr = fin c ∧ lt (fin (c * share)) (double (fin c - krr)) = true

/-- RULE_01 applies: the recommendation is at most half of the current CPU. -/
def CpuCut (inp : PolicyInput) : Prop :=
  CutBelow (1 / 2) (parseCpu double inp.currentRes.cpu) (parseCpu double inp.krrRes.cpu)

/-- RULE_02 applies: the difference to the recommendation, in doubles, is more than
the current memory times the middle below the double `0.6`. -/
def MemCut (inp : PolicyInput) : Prop :=
  CutAbove sixTenthsMiddle (parseMemory double inp.currentRes.memory)
    (parseMemory double inp.krrRes.memory)

/-- A parsed CPU text is a double. -/
lemma double_parseCpu (s : String) : double (parseCpu double s) = parseCpu double s := by
  have hzero : double (fin 0) = fin 0 := by decide +kernel
  simp only [parseCpu]
  split
  · exact hzero
  · split
    · cases readFloat (lower (strip s.toList)).dropLast with
      | none => exact hzero
      | some x => exact double_double _
    · cases readFloat (lower (strip s.toList)) with
      | none => exact hzero
      | some x => exact double_double _

lemma cpuCut_iff (inp : PolicyInput) :
    le (fin (1 / 2)) (reduction double (parseCpu double inp.currentRes.cpu)
        (parseCpu double inp.krrRes.cpu)) = true ↔ CpuCut inp := by
  have hcurr := double_parseCpu inp.currentRes.cpu
  have hkrr := double_parseCpu inp.krrRes.cpu
  rw [CpuCut, le_reduction_iff (by norm_num), CutBelow]
  generalize parseCpu double inp.currentRes.cpu = curr at hcurr ⊢
  generalize parseCpu double inp.krrRes.cpu = krr at hkrr ⊢
  refine exists_congr fun c => and_congr_right fun hpos => and_congr_right fun heq => ?_
  subst heq
  obtain ⟨hc, hclt⟩ := of_double_fin hcurr
  cases krr with
  | fin k =>
      rw [le_reduction_fin (by norm_num) (by norm_num) hpos,
        half_le_nearest_div_iff hc (of_double_fin hkrr).1 hpos, le_fin, decide_eq_true_eq,
        mul_one_div]
      refine ⟨fun h => h.elim (fun hup => ?_) id, .inr⟩
      -- a difference beyond the range is more than the current value
      by_contra hlt
      have hle : nearest (c - k) ≤ c := nearest_le hc (by linarith)
      exact absurd (hup.trans hle) ((abs_lt.mp hclt).2.not_ge)
  | inf n =>
      rw [reduction, if_pos (by simpa using hpos)]
      have hdiv : (double (fin c - inf n) / fin c : PyFloat) = inf ((!n) ^^ decide (c < 0)) := rfl
      rw [hdiv, decide_eq_false hpos.not_gt]
      cases n <;> simp [le]
  | nan =>
      rw [reduction, if_pos (by simpa using hpos)]
      have hdiv : (double (fin c - nan) / fin c : PyFloat) = nan := rfl
      rw [hdiv, double_nan]
      simp [le]

lemma memCut_iff (inp : PolicyInput) :
    le (double (fin (6 / 10))) (reduction double (parseMemory double inp.currentRes.memory)
        (parseMemory double inp.krrRes.memory)) = true ↔ MemCut inp := by
  have hsix : (0 : ℚ) < sixTenths := by norm_num [sixTenths]
  rw [MemCut, double_sixTenths, le_reduction_iff hsix, CutAbove]
  refine exists_congr fun c => and_congr_right fun hpos => and_congr_right fun _ => ?_
  cases parseMemory double inp.krrRes.memory with
  | fin k =>
      rw [le_reduction_fin hsix (by norm_num [sixTenths]) hpos, sixTenths_le_nearest_iff,
        lt_div_iff₀ hpos, fin_sub, double]
      split_ifs with hup hdown
      · exact iff_of_true (.inl hup) rfl
      · refine iff_of_false ?_ (by simp [lt])
        have hneg : nearest (c - k) ≤ 0 := hdown.trans (by norm_num)
        have hmiddle : 0 < sixTenthsMiddle * c :=
          mul_pos (by norm_num [sixTenthsMiddle, sixTenths]) hpos
        rintro (h | h)
        · exact hup h
        · exact absurd (hmiddle.trans h) hneg.not_gt
      · rw [lt_fin, decide_eq_true_eq, mul_comm c]
        exact ⟨fun h => h.resolve_left hup, .inr⟩
  | inf n =>
      rw [reduction, if_pos (by simpa using hpos)]
      have hdiv : (double (fin c - inf n) / fin c : PyFloat) = inf ((!n) ^^ decide (c < 0)) := rfl
      have hsub : (double (fin c - inf n) : PyFloat) = inf !n := rfl
      rw [hdiv, hsub, decide_eq_false hpos.not_gt]
      cases n <;> simp [le, lt]
  | nan =>
      rw [reduction, if_pos (by simpa using hpos)]
      have hdiv : (double (fin c - nan) / fin c : PyFloat) = nan := rfl
      have hsub : (double (fin c - nan) : PyFloat) = nan := rfl
      rw [hdiv, hsub, double_nan]
      simp

lemma cpuPoints_cases (inp : PolicyInput) :
    CpuCut inp ∧ cpuPoints double inp = 25 ∨ ¬ CpuCut inp ∧ cpuPoints double inp = 0 := by
  rw [← cpuCut_iff, cpuPoints]
  split
  · exact .inl ⟨‹_›, rfl⟩
  · exact .inr ⟨‹_›, rfl⟩

lemma memPoints_cases (inp : PolicyInput) :
    MemCut inp ∧ memPoints double inp = 20 ∨ ¬ MemCut inp ∧ memPoints double inp = 0 := by
  rw [← memCut_iff, memPoints]
  split
  · exact .inl ⟨‹_›, rfl⟩
  · exact .inr ⟨‹_›, rfl⟩

/-- The quotient of `6.7Gi` and `2.68Gi` is `0.6`, but in doubles it is less. -/
example :
    le (fin (6 / 10)) (reduction id (parseMemory id "6.7Gi") (parseMemory id "2.68Gi")) = true ∧
      le (double (fin (6 / 10)))
        (reduction double (parseMemory double "6.7Gi") (parseMemory double "2.68Gi")) = false := by
  decide +kernel

/-! ### The failed rules that block -/

/-- A sign that the recommendation is unsafe beside the failed rule. -/
def OtherSign (inp : PolicyInput) : Prop :=
  CpuCut inp ∨ MemCut inp ∨ forecastPct inp = none ∨ ForecastPeak inp

/-- The further signs with which a failed rule reaches the threshold: one after an
OOM kill, also the lack of data; one after restarts, but under a low load a
forecast peak or a certain pair. -/
def FailureBlocks (inp : PolicyInput) : Prop :=
  ∀ m, inp.promMetrics = some m →
    (m.oomKilled = true → 10 ≤ m.restartCount ∨ OtherSign inp ∨ Insufficient inp) ∧
    (m.oomKilled = false → 10 ≤ m.restartCount →
      (¬ LowLoad m ∧ OtherSign inp) ∨ ForecastPeak inp ∨
        (forecastPct inp = none ∧ (CpuCut inp ∨ MemCut inp ∨ Insufficient inp)) ∨
        (CpuCut inp ∧ (MemCut inp ∨ Insufficient inp)))

/-- The points of an input whose metrics were collected. -/
lemma signalPoints_of_metrics {inp : PolicyInput} {m : PrometheusMetrics}
    (hprom : inp.promMetrics = some m) :
    signalPoints double inp =
      cpuPoints double inp + memPoints double inp + (if m.oomKilled then 60 else 0) +
          (if 10 ≤ m.restartCount then 50 else 0) + forecastPoints inp -
        loadDiscount (some m) + dataPoints inp := by
  have hdanger : ∀ points danger, dangerPoints points danger (some m) =
      if danger m then points else 0 := by
    intro points danger
    by_cases h : danger m = true <;> simp [dangerPoints, dangerStatus, h]
  simp only [signalPoints, hprom, hdanger, decide_eq_true_eq]

/-- **The blocking failures**: an input with a danger reaches the threshold exactly
with the further signs. -/
lemma danger_blocks_iff (inp : PolicyInput) :
    (Danger inp → 70 ≤ signalPoints double inp) ↔ FailureBlocks inp := by
  have hcpu := cpuPoints_cases inp
  have hmem := memPoints_cases inp
  have hforecast := forecastPoints_cases inp
  have hdata := dataPoints_cases inp
  rw [Danger, FailureBlocks]
  simp only [OtherSign]
  cases hprom : inp.promMetrics with
  | none => simp
  | some m =>
      simp only [Option.some.injEq, exists_eq_left', forall_eq', signalPoints_of_metrics hprom]
      cases hoom : m.oomKilled with
      | true =>
          have hdiscount : loadDiscount (some m) = 0 := by simp [loadDiscount, hoom]
          rw [hdiscount]
          grind
      | false =>
          have hdiscount := loadDiscount_cases m hoom
          grind

/-- **A failed rule blocks approval** exactly with further signs of danger. -/
theorem failed_rule_blocks_iff {inp : PolicyInput} {v : Verdict}
    (hv : evaluateOptimization double inp = some v) :
    ((∃ r ∈ v.policyEvals, r.status = .fail) → v.overallStatus = .fail) ↔
      FailureBlocks inp := by
  rw [evaluateOptimization_eq_some double hv, failed_iff]
  have hstatus : (verdict double inp).overallStatus = overallStatus (draft double inp).score := rfl
  rw [hstatus, draft_score, overallStatus_eq_fail, danger_blocks_iff]

/-- After an OOM kill a missing forecast is a further sign. -/
theorem failed_rule_blocks_without_forecast :
    ∃ v, evaluateOptimization double (modestCut (some ⟨true, 1, some (fin 50), false⟩) none) =
        some v ∧
      ((∃ r ∈ v.policyEvals, r.status = .fail) → v.overallStatus = .fail) := by
  have hsome : (evaluateOptimization double
      (modestCut (some ⟨true, 1, some (fin 50), false⟩) none)).isSome = true := by decide +kernel
  obtain ⟨v, hv⟩ := Option.isSome_iff_exists.mp hsome
  refine ⟨v, hv, (failed_rule_blocks_iff hv).mpr fun m hm => ?_⟩
  cases hm
  exact ⟨fun _ => .inr (.inl (.inr (.inr (.inl rfl)))), fun h => by cases h⟩

/-- An OOM kill alone leaves the evaluation at `"PASS"`, with 60 points. -/
theorem failed_rule_passes :
    ∃ v, evaluateOptimization double
        (modestCut (some ⟨true, 1, some (fin 50), false⟩) (some (fin 30))) = some v ∧
      (∃ r ∈ v.policyEvals, r.status = .fail) ∧ v.overallStatus = .pass := by
  have h : (evaluateOptimization double
      (modestCut (some ⟨true, 1, some (fin 50), false⟩) (some (fin 30)))).any
        (fun v => decide (∃ r ∈ v.policyEvals, r.status = .fail) &&
          decide (v.overallStatus = .pass)) = true := by decide +kernel
  obtain ⟨v, hv, hfail⟩ := (Option.any_eq_true _ _).mp h
  simp only [Bool.and_eq_true, decide_eq_true_eq] at hfail
  exact ⟨v, hv, hfail⟩

end Rounded

end PolicyEngine

end FinOpsPipeline
