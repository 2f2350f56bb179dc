import FinOpsPipeline.Foundations.PyFloat
import Mathlib.Data.Int.Log

/-!
Rounding to the doubles of IEEE 754: 53 binary digits, the least exponent `-1074`,
ties to even.

* `ulpExp`: the exponent of the unit in the last place; `Scale` is what determines
  it (`scale_ulpExp`, `Scale.eq`).
* `nearest`: the nearest double, without a bound on the size. `isDouble_nearest`
  and `nearest_of_isDouble` say that its values are the doubles,
  `nearest_mono` that it is monotone, hence `nearest_le` and `le_nearest` compare it
  with doubles, and `lt_nearest_iff` with every number: half a unit decides.
* `abs_nearest_sub_le`: the rounding is off by half a unit at most.
* `nearest_two_mul`: doubling is exact; `floor_nearest_add_half`: a half is added
  without a change of the whole part.
* `PyFloat.double`: the value that a double operation returns for an exact result,
  an infinity beyond the largest double; it is monotone (`PyFloat.double_le_double`).
-/

namespace FinOpsPipeline

namespace Binary64

lemma two_zpow_pos (e : ℤ) : (0 : ℚ) < 2 ^ e := zpow_pos two_pos e

lemma two_zpow_add (e f : ℤ) : (2 : ℚ) ^ (e + f) = 2 ^ e * 2 ^ f := zpow_add₀ two_ne_zero e f

lemma two_zpow_le_iff {e f : ℤ} : (2 : ℚ) ^ e ≤ 2 ^ f ↔ e ≤ f :=
  zpow_le_zpow_iff_right₀ one_lt_two

lemma two_zpow_lt_iff {e f : ℤ} : (2 : ℚ) ^ e < 2 ^ f ↔ e < f :=
  zpow_lt_zpow_iff_right₀ one_lt_two

/-! ### The unit in the last place -/

/-- The exponent of the unit in the last place of the doubles around a number. -/
def ulpExp (q : ℚ) : ℤ := if q = 0 then -1074 else max (Int.log 2 |q| - 52) (-1074)

/-- The number has 53 binary digits before the unit `2 ^ e`, or fewer at the least
unit. -/
structure Scale (q : ℚ) (e : ℤ) : Prop where
  min_le : -1074 ≤ e
  lt : |q| < 2 ^ (e + 53)
  le : e = -1074 ∨ 2 ^ (e + 52) ≤ |q|

lemma scale_ulpExp (q : ℚ) : Scale q (ulpExp q) := by
  by_cases hzero : q = 0
  · rw [ulpExp, if_pos hzero, hzero]
    exact ⟨le_rfl, by rw [abs_zero]; exact two_zpow_pos _, .inl rfl⟩
  · have hpos : 0 < |q| := abs_pos.mpr hzero
    have hlow : (2 : ℚ) ^ Int.log 2 |q| ≤ |q| := by
      exact_mod_cast Int.zpow_log_le_self one_lt_two hpos
    have hup : |q| < (2 : ℚ) ^ (Int.log 2 |q| + 1) := by
      exact_mod_cast Int.lt_zpow_succ_log_self (b := 2) one_lt_two |q|
    rw [ulpExp, if_neg hzero]
    refine ⟨le_max_right _ _, hup.trans_le (two_zpow_le_iff.mpr (by omega)), ?_⟩
    rcases le_total (Int.log 2 |q| - 52) (-1074) with h | h
    · exact .inl (max_eq_right h)
    · refine .inr (le_trans (two_zpow_le_iff.mpr ?_) hlow)
      omega

/-- The larger magnitude has the larger unit. -/
lemma Scale.le_of_abs_le {p q : ℚ} {e f : ℤ} (hp : Scale p e) (hq : Scale q f)
    (h : |p| ≤ |q|) : e ≤ f := by
  rcases hp.le with heq | hle
  · exact heq.le.trans hq.min_le
  · have hlt : e + 52 < f + 53 := two_zpow_lt_iff.mp (hle.trans_lt (h.trans_lt hq.lt))
    omega

/-- The scale determines the unit. -/
lemma Scale.eq {q : ℚ} {e : ℤ} (h : Scale q e) : ulpExp q = e :=
  le_antisymm ((scale_ulpExp q).le_of_abs_le h le_rfl) (h.le_of_abs_le (scale_ulpExp q) le_rfl)

@[simp] lemma ulpExp_neg (q : ℚ) : ulpExp (-q) = ulpExp q := by
  simp only [ulpExp, neg_eq_zero, abs_neg]

lemma ulpExp_mono {p q : ℚ} (h : |p| ≤ |q|) : ulpExp p ≤ ulpExp q :=
  (scale_ulpExp p).le_of_abs_le (scale_ulpExp q) h

/-! ### The multiples of a unit -/

/-- The nearest multiple of `2 ^ e`. -/
def onGrid (e : ℤ) (q : ℚ) : ℚ := roundHalfEven (q / 2 ^ e) * 2 ^ e

section OnGrid

variable {e : ℤ} {p q : ℚ}

lemma onGrid_mono (h : p ≤ q) : onGrid e p ≤ onGrid e q := by
  have hround : roundHalfEven (p / 2 ^ e) ≤ roundHalfEven (q / 2 ^ e) :=
    roundHalfEven_mono (div_le_div_of_nonneg_right h (two_zpow_pos e).le)
  exact mul_le_mul_of_nonneg_right (by exact_mod_cast hround) (two_zpow_pos e).le

/-- The multiples are fixed. -/
lemma onGrid_intCast_mul (e z : ℤ) : onGrid e (z * 2 ^ e) = z * 2 ^ e := by
  rw [onGrid, mul_div_cancel_right₀ _ (two_zpow_pos e).ne', roundHalfEven_intCast]

lemma onGrid_neg (e : ℤ) (q : ℚ) : onGrid e (-q) = -onGrid e q := by
  rw [onGrid, neg_div, roundHalfEven_neg, Int.cast_neg, neg_mul, onGrid]

lemma onGrid_le {z : ℤ} (h : q ≤ z * 2 ^ e) : onGrid e q ≤ z * 2 ^ e :=
  onGrid_intCast_mul e z ▸ onGrid_mono h

lemma le_onGrid {z : ℤ} (h : z * 2 ^ e ≤ q) : z * 2 ^ e ≤ onGrid e q :=
  onGrid_intCast_mul e z ▸ onGrid_mono h

/-- A larger power of two is a multiple. -/
lemma zpow_eq_mul {f : ℤ} (h : e ≤ f) : ∃ z : ℤ, (2 : ℚ) ^ f = z * 2 ^ e := by
  obtain ⟨n, hn⟩ := Int.eq_ofNat_of_zero_le (sub_nonneg.mpr h)
  refine ⟨2 ^ n, ?_⟩
  rw [show f = n + e by omega, two_zpow_add, zpow_natCast]
  push_cast
  rfl

lemma onGrid_le_zpow {f : ℤ} (h : e ≤ f) (hq : q ≤ 2 ^ f) : onGrid e q ≤ 2 ^ f := by
  obtain ⟨z, hz⟩ := zpow_eq_mul h
  rw [hz] at hq ⊢
  exact onGrid_le hq

lemma zpow_le_onGrid {f : ℤ} (h : e ≤ f) (hq : 2 ^ f ≤ q) : 2 ^ f ≤ onGrid e q := by
  obtain ⟨z, hz⟩ := zpow_eq_mul h
  rw [hz] at hq ⊢
  exact le_onGrid hq

end OnGrid

/-! ### The nearest double -/

/-- The nearest double, the one with an even last digit of two equally near ones. -/
def nearest (q : ℚ) : ℚ := onGrid (ulpExp q) q

/-- A number with at most 53 binary digits. -/
def IsDouble (x : ℚ) : Prop := ∃ m e : ℤ, -1074 ≤ e ∧ |m| < 2 ^ 53 ∧ x = m * 2 ^ e

section Nearest

variable {p q x : ℚ}

/-- The digits may also reach `2 ^ 53`. -/
lemma isDouble_mul_zpow {m e : ℤ} (he : -1074 ≤ e) (hm : |m| ≤ 2 ^ 53) :
    IsDouble (m * 2 ^ e) := by
  rcases hm.lt_or_eq with hlt | heq
  · exact ⟨m, e, he, hlt, rfl⟩
  · -- the digits are a power of two, which needs one digit only
    obtain ⟨k, rfl⟩ : (2 : ℤ) ∣ m := by
      rcases (abs_eq (by norm_num)).mp heq with rfl | rfl <;> norm_num
    refine ⟨k, e + 1, by omega, ?_, ?_⟩
    · rw [abs_mul] at heq
      norm_num at heq ⊢
      omega
    · rw [two_zpow_add, zpow_one]
      push_cast
      ring

/-- Integers with at most 53 digits are doubles. -/
lemma isDouble_intCast {n : ℤ} (h : |n| ≤ 2 ^ 53) : IsDouble n := by
  have hn := isDouble_mul_zpow (e := 0) (by norm_num) h
  rwa [zpow_zero, mul_one] at hn

lemma isDouble_zero : IsDouble 0 := by
  exact_mod_cast isDouble_intCast (n := 0) (by norm_num)

/-- The value is a double. -/
theorem isDouble_nearest (q : ℚ) : IsDouble (nearest q) := by
  have hscale := scale_ulpExp q
  obtain ⟨hlow, hup⟩ := abs_lt.mp hscale.lt
  have hpos := two_zpow_pos (ulpExp q)
  have hsplit : (2 : ℚ) ^ (ulpExp q + 53) = 2 ^ 53 * 2 ^ ulpExp q := by
    rw [two_zpow_add, mul_comm]
    norm_num
  rw [hsplit] at hlow hup
  refine isDouble_mul_zpow hscale.min_le (abs_le.mpr ⟨le_roundHalfEven ?_, roundHalfEven_le ?_⟩)
  · rw [le_div_iff₀ hpos]
    push_cast
    linarith
  · rw [div_le_iff₀ hpos]
    push_cast
    exact hup.le

/-- **Doubles are fixed.** -/
theorem nearest_of_isDouble (h : IsDouble x) : nearest x = x := by
  obtain ⟨m, e, he, hm, rfl⟩ := h
  have hm' : |(m : ℚ)| < 2 ^ (53 : ℤ) := by exact_mod_cast hm
  have hscale : Scale ((m : ℚ) * 2 ^ e) (ulpExp (m * 2 ^ e)) := scale_ulpExp _
  have hle : ulpExp ((m : ℚ) * 2 ^ e) ≤ e := by
    rcases hscale.le with heq | hlow
    · exact heq.le.trans he
    · have habs : |(m : ℚ) * 2 ^ e| < 2 ^ (53 + e) := by
        rw [abs_mul, abs_of_pos (two_zpow_pos e), two_zpow_add]
        exact mul_lt_mul_of_pos_right hm' (two_zpow_pos e)
      have hlt := two_zpow_lt_iff.mp (hlow.trans_lt habs)
      omega
  obtain ⟨z, hz⟩ := zpow_eq_mul hle
  rw [nearest]
  generalize ulpExp ((m : ℚ) * 2 ^ e) = f at hz
  have hgrid : (m : ℚ) * 2 ^ e = (m * z : ℤ) * 2 ^ f := by
    rw [hz]
    push_cast
    ring
  rw [hgrid, onGrid_intCast_mul]

/-- A double is a multiple of its unit. -/
lemma IsDouble.exists_digits (h : IsDouble x) :
    ∃ m : ℤ, |m| < 2 ^ 53 ∧ x = m * 2 ^ ulpExp x := by
  have hpos := two_zpow_pos (ulpExp x)
  have hdigits : x = roundHalfEven (x / 2 ^ ulpExp x) * 2 ^ ulpExp x :=
    (nearest_of_isDouble h).symm
  refine ⟨_, ?_, hdigits⟩
  have hlt := (scale_ulpExp x).lt
  rw [add_comm, two_zpow_add, ← div_lt_iff₀ hpos] at hlt
  have habs : |x| / 2 ^ ulpExp x = |(roundHalfEven (x / 2 ^ ulpExp x) : ℚ)| := by
    rw [← abs_of_pos hpos, ← abs_div, abs_of_pos hpos]
    nth_rewrite 1 [hdigits]
    rw [mul_div_cancel_right₀ _ hpos.ne']
  rw [habs] at hlt
  exact_mod_cast hlt

/-- A double is a multiple of every smaller unit. -/
lemma IsDouble.exists_mul (h : IsDouble x) {e : ℤ} (he : e ≤ ulpExp x) :
    ∃ z : ℤ, x = z * 2 ^ e := by
  obtain ⟨m, -, hm⟩ := h.exists_digits
  obtain ⟨z, hz⟩ := zpow_eq_mul he
  exact ⟨m * z, by rw [hm, hz]; push_cast; ring⟩

@[simp] lemma nearest_zero : nearest 0 = 0 := nearest_of_isDouble isDouble_zero

@[simp] lemma nearest_neg (q : ℚ) : nearest (-q) = -nearest q := by
  rw [nearest, ulpExp_neg, onGrid_neg, nearest]

lemma nearest_nonneg (h : 0 ≤ q) : 0 ≤ nearest q :=
  mul_nonneg (by exact_mod_cast roundHalfEven_nonneg (div_nonneg h (two_zpow_pos _).le))
    (two_zpow_pos _).le

/-- Monotonicity among the numbers that are not negative. -/
lemma nearest_mono_of_nonneg (hp : 0 ≤ p) (h : p ≤ q) : nearest p ≤ nearest q := by
  have habs : |p| ≤ |q| := abs_le_abs_of_nonneg hp h
  have hq : 0 ≤ q := hp.trans h
  rcases (ulpExp_mono habs).eq_or_lt with heq | hlt
  · rw [nearest, nearest, heq]
    exact onGrid_mono h
  · -- the units differ, so a power of two that is on both grids lies between the numbers
    have hmin := (scale_ulpExp p).min_le
    have hple : p ≤ 2 ^ (ulpExp q + 52) := by
      have hlow := (scale_ulpExp p).lt
      rw [abs_of_nonneg hp] at hlow
      exact hlow.le.trans (two_zpow_le_iff.mpr (by omega))
    have hqle : 2 ^ (ulpExp q + 52) ≤ q := by
      have hup := (scale_ulpExp q).le
      rw [abs_of_nonneg hq] at hup
      exact hup.resolve_left (by omega)
    exact (onGrid_le_zpow (by omega) hple).trans (zpow_le_onGrid (by omega) hqle)

/-- **Rounding to doubles is monotone.** -/
theorem nearest_mono (h : p ≤ q) : nearest p ≤ nearest q := by
  rcases le_total 0 p with hp | hp
  · exact nearest_mono_of_nonneg hp h
  · rcases le_total 0 q with hq | hq
    · have hneg := nearest_nonneg (neg_nonneg.mpr hp)
      rw [nearest_neg] at hneg
      linarith [nearest_nonneg hq]
    · have hneg := nearest_mono_of_nonneg (neg_nonneg.mpr hq) (neg_le_neg h)
      rw [nearest_neg, nearest_neg] at hneg
      linarith

/-- A double above a number is above its rounding. -/
lemma nearest_le (hx : IsDouble x) (h : q ≤ x) : nearest q ≤ x :=
  nearest_of_isDouble hx ▸ nearest_mono h

/-- A double below a number is below its rounding. -/
lemma le_nearest (hx : IsDouble x) (h : x ≤ q) : x ≤ nearest q :=
  nearest_of_isDouble hx ▸ nearest_mono h

/-! ### Comparison with any number -/

/-- A number is beyond the middle between the multiple of `2 ^ e` at or below `m`
and the next one, or in the middle with the next one even. -/
def BeyondAt (e : ℤ) (m q : ℚ) : Prop :=
  (⌊m / 2 ^ e⌋ + 1 / 2) * 2 ^ e < q ∨ (⌊m / 2 ^ e⌋ + 1 / 2) * 2 ^ e = q ∧ ¬ 2 ∣ ⌊m / 2 ^ e⌋

/-- A number is closer to the doubles above `m` than to those up to `m`. -/
def Beyond (m q : ℚ) : Prop := BeyondAt (ulpExp m) m q

instance (e : ℤ) (m q : ℚ) : Decidable (BeyondAt e m q) := inferInstanceAs (Decidable (_ ∨ _))

instance (m q : ℚ) : Decidable (Beyond m q) := inferInstanceAs (Decidable (BeyondAt _ m q))

lemma lt_onGrid_iff {e : ℤ} {m : ℚ} : m < onGrid e q ↔ BeyondAt e m q := by
  have hpos := two_zpow_pos e
  have hfloor : m < onGrid e q ↔ ⌊m / 2 ^ e⌋ < roundHalfEven (q / 2 ^ e) := by
    rw [onGrid, Int.floor_lt, div_lt_iff₀ hpos]
  rw [hfloor, lt_roundHalfEven_iff, BeyondAt, lt_div_iff₀ hpos, eq_div_iff hpos.ne']

/-- Around a number the doubles are the multiples of its unit: where the two
roundings differ, both are at most the number or both beyond its scale. -/
lemma nearest_eq_onGrid_or {m : ℚ} (hm : 0 ≤ m) (q : ℚ) :
    nearest q = onGrid (ulpExp m) q ∨ (nearest q ≤ m ∧ onGrid (ulpExp m) q ≤ m) ∨
      ((2 : ℚ) ^ (ulpExp m + 53) ≤ nearest q ∧ (2 : ℚ) ^ (ulpExp m + 53) ≤ onGrid (ulpExp m) q) := by
  have hle := (scale_ulpExp m).le
  rw [abs_of_nonneg hm] at hle
  rcases lt_or_ge q 0 with hneg | hq
  · -- a negative number is rounded to one that is not positive
    have hgrid : onGrid (ulpExp m) q ≤ 0 := by
      simpa using onGrid_le (e := ulpExp m) (z := 0) (by simpa using hneg.le)
    exact .inr (.inl ⟨(nearest_le isDouble_zero hneg.le).trans hm, hgrid.trans hm⟩)
  have hlt' := (scale_ulpExp q).lt
  have hle' := (scale_ulpExp q).le
  rw [abs_of_nonneg hq] at hlt' hle'
  rcases lt_trichotomy (ulpExp q) (ulpExp m) with hsmall | heq | hlarge
  · -- the power of two at the scale of `m` separates the two
    have hmin := (scale_ulpExp q).min_le
    have hpow : (2 : ℚ) ^ (ulpExp m + 52) ≤ m := hle.resolve_left (by omega)
    have hqpow : q ≤ 2 ^ (ulpExp m + 52) := hlt'.le.trans (two_zpow_le_iff.mpr (by omega))
    exact .inr (.inl ⟨(onGrid_le_zpow (by omega) hqpow).trans hpow,
      (onGrid_le_zpow (by omega) hqpow).trans hpow⟩)
  · exact .inl (by rw [nearest, heq])
  · have hmin := (scale_ulpExp m).min_le
    have hpow : (2 : ℚ) ^ (ulpExp q + 52) ≤ q := hle'.resolve_left (by omega)
    have hscale : (2 : ℚ) ^ (ulpExp m + 53) ≤ q := (two_zpow_le_iff.mpr (by omega)).trans hpow
    exact .inr (.inr ⟨(two_zpow_le_iff.mpr (by omega)).trans (zpow_le_onGrid (by omega) hpow),
      zpow_le_onGrid (by omega) hscale⟩)

/-- **The comparison with a rounded number**: it is a matter of the middle. -/
theorem lt_nearest_iff {m : ℚ} (hm : 0 ≤ m) : m < nearest q ↔ Beyond m q := by
  have hlt := (scale_ulpExp m).lt
  rw [abs_of_nonneg hm] at hlt
  rw [Beyond, ← lt_onGrid_iff]
  rcases nearest_eq_onGrid_or hm q with heq | ⟨hle, hle'⟩ | ⟨hge, hge'⟩
  · rw [heq]
  · exact iff_of_false hle.not_gt hle'.not_gt
  · exact iff_of_true (hlt.trans_le hge) (hlt.trans_le hge')

/-- Beyond a number a rounding reaches the next double. -/
lemma next_le_nearest {m : ℚ} (hm : 0 ≤ m) (h : Beyond m q) :
    (⌊m / 2 ^ ulpExp m⌋ + 1) * 2 ^ ulpExp m ≤ nearest q := by
  have hpos := two_zpow_pos (ulpExp m)
  have hlt := (scale_ulpExp m).lt
  rw [abs_of_nonneg hm] at hlt
  have hbelow := (lt_nearest_iff hm).mpr h
  rw [Beyond, ← lt_onGrid_iff, onGrid, ← div_lt_iff₀ hpos, ← Int.floor_lt, Int.lt_iff_add_one_le] at h
  rcases nearest_eq_onGrid_or hm q with heq | ⟨hle, -⟩ | ⟨hge, -⟩
  · rw [heq, onGrid]
    exact mul_le_mul_of_nonneg_right (by exact_mod_cast h) hpos.le
  · exact absurd hbelow hle.not_gt
  · -- the next double is at most the end of the scale
    have hfloor : ⌊m / 2 ^ ulpExp m⌋ < 2 ^ 53 := by
      rw [Int.floor_lt, div_lt_iff₀ hpos]
      rw [add_comm, two_zpow_add] at hlt
      exact_mod_cast hlt
    refine le_trans ?_ hge
    rw [add_comm (ulpExp m), two_zpow_add]
    exact mul_le_mul_of_nonneg_right (by exact_mod_cast hfloor) hpos.le

/-! ### Doubling -/

/-- **Doubling is exact** from the least normal number on. -/
theorem nearest_two_mul (h : 2 ^ (-1022 : ℤ) ≤ |q|) : nearest (2 * q) = 2 * nearest q := by
  have hscale := scale_ulpExp q
  have habs : |2 * q| = 2 ^ (1 : ℤ) * |q| := by
    rw [abs_mul, zpow_one, abs_two]
  have hdouble : Scale (2 * q) (ulpExp q + 1) := by
    refine ⟨by linarith [hscale.min_le], ?_, .inr ?_⟩
    · rw [habs, show ulpExp q + 1 + 53 = 1 + (ulpExp q + 53) by ring, two_zpow_add 1]
      exact mul_lt_mul_of_pos_left hscale.lt (two_zpow_pos 1)
    · rw [habs, show ulpExp q + 1 + 52 = 1 + (ulpExp q + 52) by ring, two_zpow_add 1]
      refine mul_le_mul_of_nonneg_left ?_ (two_zpow_pos 1).le
      rcases hscale.le with heq | hle
      · rwa [heq]
      · exact hle
  have hdiv : 2 * q / (2 ^ ulpExp q * 2) = q / 2 ^ ulpExp q := by
    rw [mul_comm, mul_div_mul_right _ _ two_ne_zero]
  rw [nearest, hdouble.eq, nearest, onGrid, onGrid, two_zpow_add, zpow_one, hdiv]
  ring

/-! ### The error of the rounding -/

/-- **Half a unit** is the most by which a number is off. -/
theorem abs_nearest_sub_le (q : ℚ) : |nearest q - q| ≤ 2 ^ ulpExp q / 2 := by
  have hpos := two_zpow_pos (ulpExp q)
  have hround := abs_sub_roundHalfEven_le (q / 2 ^ ulpExp q)
  have hsplit : nearest q - q =
      -(q / 2 ^ ulpExp q - roundHalfEven (q / 2 ^ ulpExp q)) * 2 ^ ulpExp q := by
    rw [nearest, onGrid, neg_mul, sub_mul, div_mul_cancel₀ q hpos.ne', neg_sub]
  calc |nearest q - q| = |q / 2 ^ ulpExp q - roundHalfEven (q / 2 ^ ulpExp q)| * 2 ^ ulpExp q := by
        rw [hsplit, abs_mul, abs_neg, abs_of_pos hpos]
    _ ≤ 1 / 2 * 2 ^ ulpExp q := mul_le_mul_of_nonneg_right hround hpos.le
    _ = 2 ^ ulpExp q / 2 := by ring

/-- The relative error of a normal number. -/
lemma abs_nearest_sub_le_div (h : 2 ^ (-1022 : ℤ) ≤ q) : |nearest q - q| ≤ q / 2 ^ 53 := by
  have hpos : 0 < q := (two_zpow_pos _).trans_le h
  have hle : (2 : ℚ) ^ (ulpExp q + 52) ≤ q := by
    rcases (scale_ulpExp q).le with heq | hle
    · rwa [heq]
    · rwa [abs_of_pos hpos] at hle
  have hunit : (2 : ℚ) ^ (ulpExp q + 52) = 2 ^ ulpExp q * 2 ^ 52 := by
    rw [two_zpow_add]
    norm_cast
  refine (abs_nearest_sub_le q).trans ?_
  rw [le_div_iff₀ (by positivity)]
  calc (2 : ℚ) ^ ulpExp q / 2 * 2 ^ 53 = 2 ^ ulpExp q * 2 ^ 52 := by ring
    _ ≤ q := hunit ▸ hle

/-- Numbers from one on are normal. -/
lemma normal_of_one_le (h : 1 ≤ q) : 2 ^ (-1022 : ℤ) ≤ q := by
  refine le_trans ?_ h
  rw [← zpow_zero (2 : ℚ)]
  exact two_zpow_le_iff.mpr (by norm_num)

/-- A normal number is rounded within a factor of two. -/
lemma nearest_within (h : 2 ^ (-1022 : ℤ) ≤ q) : q / 2 ≤ nearest q ∧ nearest q ≤ 2 * q := by
  have hpos : 0 < q := (two_zpow_pos _).trans_le h
  obtain ⟨hlow, hup⟩ := abs_le.mp (abs_nearest_sub_le_div h)
  exact ⟨by linarith, by linarith⟩

/-! ### Adding a half -/

lemma isDouble_add_half {n : ℤ} (h : |2 * n + 1| ≤ 2 ^ 53) : IsDouble (n + 1 / 2) := by
  have hmul := isDouble_mul_zpow (e := -1) (by norm_num) h
  have heq : ((2 * n + 1 : ℤ) : ℚ) * 2 ^ (-1 : ℤ) = n + 1 / 2 := by
    push_cast
    rw [zpow_neg_one]
    ring
  rwa [heq] at hmul

/-- The unit of the doubles between `1` and `2 ^ 52` is a part of a half. -/
lemma ulpExp_neg_of_lt (hlow : 1 ≤ q) (hup : q < 2 ^ 52) : -53 < ulpExp q ∧ ulpExp q < 0 := by
  have hscale := scale_ulpExp q
  have hlt := hscale.lt
  have hle := hscale.le
  rw [abs_of_pos (by linarith)] at hlt hle
  constructor
  · have h : (2 : ℚ) ^ (0 : ℤ) < 2 ^ (ulpExp q + 53) := hlow.trans_lt hlt
    have h' := two_zpow_lt_iff.mp h
    omega
  · rcases hle with heq | hle
    · omega
    · have h : (2 : ℚ) ^ (ulpExp q + 52) < 2 ^ (52 : ℤ) := by exact_mod_cast hle.trans_lt hup
      have h' := two_zpow_lt_iff.mp h
      omega

/-- Between a double and half more on the one side and the next whole number on the other
there is a double: the whole number less one unit. -/
lemma IsDouble.exists_between {t : ℚ} (ht : IsDouble t) (hlow : 1 ≤ t) (hup : t < 2 ^ 52) {n : ℤ}
    (hn : (n : ℚ) ≤ t) (hlt : t + 1 / 2 < n + 1) :
    ∃ d, IsDouble d ∧ t + 1 / 2 ≤ d ∧ d < n + 1 := by
  obtain ⟨m, -, htm⟩ := ht.exists_digits
  obtain ⟨he, he'⟩ := ulpExp_neg_of_lt hlow hup
  have hscale := scale_ulpExp t
  have hlt53 := hscale.lt
  rw [abs_of_pos (by linarith)] at hlt53
  generalize ulpExp t = e at hscale htm hlt53 he he'
  have hpos := two_zpow_pos e
  obtain ⟨w, hw⟩ := zpow_eq_mul (show e ≤ 0 by omega)
  obtain ⟨h, hh⟩ := zpow_eq_mul (show e ≤ -1 by omega)
  obtain ⟨z, hz⟩ := zpow_eq_mul (show 0 ≤ e + 53 by omega)
  rw [zpow_zero] at hw hz
  rw [zpow_neg_one] at hh
  -- everything in units: the sum, the whole number and the bound of the digits
  have hsum : t + 1 / 2 = (m + h : ℤ) * 2 ^ e := by
    push_cast
    rw [add_mul, ← htm, ← hh, one_div]
  have hnext : (n : ℚ) + 1 = ((n + 1) * w : ℤ) * 2 ^ e := by
    push_cast
    rw [mul_assoc, ← hw, mul_one]
  have hdigits : (n + 1) * w ≤ 2 ^ 53 := by
    have hnz : n < z := by
      have hlt' : (n : ℚ) < z := by
        rw [← mul_one (z : ℚ), ← hz]
        exact hn.trans_lt hlt53
      exact_mod_cast hlt'
    have hle : (((n + 1) * w : ℤ) : ℚ) * 2 ^ e ≤ 2 ^ 53 * 2 ^ e := by
      rw [← hnext, ← zpow_natCast 2 53, ← two_zpow_add, Nat.cast_ofNat, add_comm 53 e, hz, mul_one]
      exact_mod_cast hnz
    exact_mod_cast le_of_mul_le_mul_right hle hpos
  have hless : m + h < (n + 1) * w := by
    rw [hsum, hnext] at hlt
    exact_mod_cast lt_of_mul_lt_mul_right hlt hpos.le
  have hfirst : 0 < (n + 1) * w := by
    have h : (0 : ℚ) * 2 ^ e < ((n + 1) * w : ℤ) * 2 ^ e := by
      rw [← hnext, zero_mul]
      linarith
    exact_mod_cast lt_of_mul_lt_mul_right h hpos.le
  refine ⟨((n + 1) * w - 1 : ℤ) * 2 ^ e,
    isDouble_mul_zpow hscale.min_le (abs_le.mpr ⟨by omega, by omega⟩), ?_, ?_⟩
  · rw [hsum]
    have hle : m + h ≤ (n + 1) * w - 1 := by omega
    exact mul_le_mul_of_nonneg_right (by exact_mod_cast hle) hpos.le
  · rw [hnext]
    exact mul_lt_mul_of_pos_right (by exact_mod_cast sub_one_lt ((n + 1) * w)) hpos

/-- **A half is added** to a double without a change of the whole part. -/
theorem floor_nearest_add_half {t : ℚ} (ht : IsDouble t) (hlow : 1 ≤ t) (hup : t < 2 ^ 51) :
    ⌊nearest (t + 1 / 2)⌋ = ⌊t + 1 / 2⌋ := by
  have hfloor := Int.floor_le (t + 1 / 2)
  have hlt := Int.lt_floor_add_one (t + 1 / 2)
  generalize ⌊t + 1 / 2⌋ = n at hfloor hlt ⊢
  have hn : 0 < n := by
    have h : (0 : ℚ) < n := by linarith
    exact_mod_cast h
  have hn51 : n ≤ 2 ^ 51 := by
    have h : (n : ℚ) < (2 ^ 51 : ℤ) + 1 := by
      push_cast
      linarith
    have h' : n < 2 ^ 51 + 1 := by exact_mod_cast h
    omega
  rw [Int.floor_eq_iff]
  refine ⟨le_nearest (isDouble_intCast (abs_le.mpr ⟨by omega, by omega⟩)) hfloor, ?_⟩
  rcases lt_or_ge t n with hbelow | habove
  · have hhalf := isDouble_add_half (n := n) (abs_le.mpr ⟨by omega, by omega⟩)
    exact (nearest_le hhalf (by linarith)).trans_lt (by linarith)
  · obtain ⟨d, hd, hle, hlt'⟩ := ht.exists_between hlow (by linarith) habove hlt
    exact (nearest_le hd hle).trans_lt hlt'

/-! ### Overflow -/

/-- The largest double. -/
def largest : ℚ := (2 ^ 53 - 1) * 2 ^ (971 : ℤ)

/-- The numbers that are not rounded to a double below `2 ^ 1024`. -/
theorem le_nearest_iff_overflow : 2 ^ 1024 ≤ nearest q ↔ 2 ^ 1024 - 2 ^ 970 ≤ q := by
  have hnonneg : 0 ≤ largest := by norm_num [largest]
  have hlt : largest < 2 ^ 1024 := by decide +kernel
  have hulp : ulpExp largest = 971 := by
    refine Scale.eq ⟨by norm_num, ?_, .inr ?_⟩ <;> rw [abs_of_nonneg hnonneg]
    · exact hlt
    · decide +kernel
  have hfloor : ⌊largest / 2 ^ (971 : ℤ)⌋ = 2 ^ 53 - 1 := by
    rw [largest, mul_div_cancel_right₀ _ (two_zpow_pos 971).ne']
    norm_num
  have hmiddle : (((2 ^ 53 - 1 : ℤ) : ℚ) + 1 / 2) * 2 ^ (971 : ℤ) = 2 ^ 1024 - 2 ^ 970 := by
    decide +kernel
  have hbeyond : Beyond largest q ↔ 2 ^ 1024 - 2 ^ 970 ≤ q := by
    rw [Beyond, hulp, BeyondAt, hfloor, hmiddle, le_iff_lt_or_eq, and_iff_left (by norm_num)]
  constructor
  · intro h
    rw [← hbeyond, ← lt_nearest_iff hnonneg]
    exact hlt.trans_le h
  · intro h
    have hfix : nearest (2 ^ 1024 - 2 ^ 970) = 2 ^ 1024 := by decide +kernel
    exact hfix ▸ nearest_mono h

end Nearest

end Binary64

namespace PyFloat

open Binary64

/-- What an operation on doubles returns for an exact result. -/
def double : PyFloat → PyFloat
  | fin q =>
      if 2 ^ 1024 ≤ nearest q then inf false
      else if nearest q ≤ -2 ^ 1024 then inf true
      else fin (nearest q)
  | inf n => inf n
  | nan => nan

@[simp] lemma double_inf (n : Bool) : double (inf n) = inf n := rfl

@[simp] lemma double_nan : double nan = nan := rfl

/-- A number within the range. -/
lemma double_of_lt {q : ℚ} (h : |nearest q| < 2 ^ 1024) : double (fin q) = fin (nearest q) := by
  obtain ⟨hlow, hup⟩ := abs_lt.mp h
  rw [double, if_neg hup.not_ge, if_neg hlow.not_ge]

/-- Doubles are fixed. -/
lemma double_of_isDouble {x : ℚ} (hx : IsDouble x) (h : |x| < 2 ^ 1024) :
    double (fin x) = fin x := by
  rw [double_of_lt (by rwa [nearest_of_isDouble hx]), nearest_of_isDouble hx]

lemma le_inf_false {x : PyFloat} (hx : x ≠ nan) : le x (inf false) = true := by
  cases x <;> simp_all [le]

lemma inf_true_le {x : PyFloat} (hx : x ≠ nan) : le (inf true) x = true := by
  cases x <;> simp_all [le]

lemma double_fin_ne_nan (q : ℚ) : double (fin q) ≠ nan := by
  rw [double]
  split_ifs <;> simp

/-- A value that is a double already. -/
lemma double_double (x : PyFloat) : double (double x) = double x := by
  cases x with
  | fin q =>
      rw [double]
      split_ifs with h₁ h₂
      · rfl
      · rfl
      · exact double_of_isDouble (isDouble_nearest q)
          (abs_lt.mpr ⟨not_le.mp h₂, not_le.mp h₁⟩)
  | inf n => rfl
  | nan => rfl

/-- A number that is a double within the range. -/
lemma of_double_fin {q : ℚ} (h : double (fin q) = fin q) : IsDouble q ∧ |q| < 2 ^ 1024 := by
  rw [double] at h
  split_ifs at h with h₁ h₂
  have hq : nearest q = q := by injection h
  rw [hq] at h₁ h₂
  exact ⟨hq ▸ isDouble_nearest q, abs_lt.mpr ⟨not_le.mp h₂, not_le.mp h₁⟩⟩

/-- The comparison of a rounded value with a number in the range. -/
lemma le_double_fin {t q : ℚ} (ht : |t| < 2 ^ 1024) :
    le (fin t) (double (fin q)) = true ↔ t ≤ nearest q := by
  obtain ⟨hlow, hup⟩ := abs_lt.mp ht
  rw [double]
  split_ifs with h₁ h₂
  · exact iff_of_true rfl (hup.le.trans h₁)
  · exact iff_of_false (by simp [le]) fun h => hlow.not_ge (h.trans h₂)
  · simp

/-- **Rounding keeps the order.** -/
theorem double_le_double {x y : PyFloat} (h : le x y = true) : le (double x) (double y) = true := by
  cases x with
  | nan => simp [le] at h
  | inf m =>
      cases y with
      | nan => simp [le] at h
      | inf n => exact h
      | fin q =>
          obtain rfl : m = true := h
          exact inf_true_le (double_fin_ne_nan q)
  | fin p =>
      cases y with
      | nan => simp [le] at h
      | inf n =>
          obtain rfl : n = false := by simpa [le] using h
          exact le_inf_false (double_fin_ne_nan p)
      | fin q =>
          have hpq : nearest p ≤ nearest q := nearest_mono (by simpa using h)
          by_cases hq : 2 ^ 1024 ≤ nearest q
          · rw [double, double, if_pos hq]
            exact le_inf_false (double_fin_ne_nan p)
          · by_cases hp : nearest p ≤ -2 ^ 1024
            · have hp' : ¬ (2 : ℚ) ^ 1024 ≤ nearest p := fun h' => hq (h'.trans hpq)
              rw [double, if_neg hp', if_pos hp]
              exact inf_true_le (double_fin_ne_nan q)
            · have hp' : ¬ (2 : ℚ) ^ 1024 ≤ nearest p := fun h' => hq (h'.trans hpq)
              have hq' : ¬ nearest q ≤ -2 ^ 1024 := fun h' => hp (hpq.trans h')
              rw [double, double, if_neg hp', if_neg hp, if_neg hq, if_neg hq']
              simpa using hpq

end PyFloat

end FinOpsPipeline
