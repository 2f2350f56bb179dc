import Mathlib.Data.Rat.Floor
import Mathlib.Algebra.Order.Floor.Ring
import Mathlib.Order.Bounds.Basic
import Mathlib.Tactic.Linarith
import Mathlib.Tactic.Ring
import Mathlib.Tactic.FieldSimp
import Mathlib.Tactic.NormNum

/-!
Rounding of rational numbers to the nearest integer, ties to even, and to a
fixed number of decimal places, and clamping to two bounds.

* `roundHalfEven`: the nearest integer. `roundHalfEven_intCast` says that integers
  are fixed, `abs_sub_roundHalfEven_le` that the error is at most one half, and
  `roundHalfEven_mono` that it is monotone, hence `le_roundHalfEven` and
  `roundHalfEven_le` compare it with integers; `lt_roundHalfEven_iff` does so from the
  middle between two of them on, and `roundHalfEven_neg` says that it is odd. `RoundsUp`
  says which fractions of natural numbers go up (`roundHalfEven_natCast_div`).
* `roundTo`: the nearest multiple of a unit `1 / s`, monotone and idempotent
  (`roundTo_mono`, `roundTo_idem`), with error at most half a unit
  (`abs_sub_roundTo_le`).
* `isLeast_clamp`, `clamp_of_lt`: a need clamped to two bounds is the least value
  between them that meets it, and the upper bound when none does.
-/

namespace FinOpsPipeline

/-! ### The nearest integer -/

/-- The nearest integer, the even one of two equally near ones. -/
def roundHalfEven (q : ℚ) : ℤ :=
  if q - ⌊q⌋ < 1 / 2 then ⌊q⌋
  else if 1 / 2 < q - ⌊q⌋ then ⌊q⌋ + 1
  else if 2 ∣ ⌊q⌋ then ⌊q⌋
  else ⌊q⌋ + 1

/-- The value is the floor or the next integer. -/
lemma roundHalfEven_cases (q : ℚ) :
    (roundHalfEven q = ⌊q⌋ ∧ q - ⌊q⌋ ≤ 1 / 2) ∨
      (roundHalfEven q = ⌊q⌋ + 1 ∧ 1 / 2 ≤ q - ⌊q⌋) := by
  rw [roundHalfEven]
  split
  · exact .inl ⟨rfl, by linarith⟩
  · split
    · exact .inr ⟨rfl, by linarith⟩
    · split
      · exact .inl ⟨rfl, by linarith⟩
      · exact .inr ⟨rfl, by linarith⟩

/-- Integers are fixed. -/
@[simp] lemma roundHalfEven_intCast (n : ℤ) : roundHalfEven n = n := by
  have h : ((n : ℚ) - ⌊(n : ℚ)⌋) < 1 / 2 := by
    rw [Int.floor_intCast, sub_self]
    norm_num
  rw [roundHalfEven, if_pos h, Int.floor_intCast]

/-- The error is at most one half. -/
theorem abs_sub_roundHalfEven_le (q : ℚ) : |q - roundHalfEven q| ≤ 1 / 2 := by
  have hlow : (⌊q⌋ : ℚ) ≤ q := Int.floor_le q
  have hup : q < ⌊q⌋ + 1 := Int.lt_floor_add_one q
  rw [abs_le]
  rcases roundHalfEven_cases q with ⟨heq, hle⟩ | ⟨heq, hle⟩
  · rw [heq]
    exact ⟨by linarith, hle⟩
  · rw [heq, Int.cast_add, Int.cast_one]
    exact ⟨by linarith, by linarith⟩

/-- **Rounding is monotone.** -/
theorem roundHalfEven_mono {p q : ℚ} (h : p ≤ q) : roundHalfEven p ≤ roundHalfEven q := by
  have hfloor : ⌊p⌋ ≤ ⌊q⌋ := Int.floor_le_floor h
  rcases hfloor.lt_or_eq with hlt | heq
  · -- the floors differ, so the smaller value is at most the larger floor
    have hp : roundHalfEven p ≤ ⌊p⌋ + 1 := by
      rcases roundHalfEven_cases p with ⟨h', _⟩ | ⟨h', _⟩ <;> omega
    have hq : ⌊q⌋ ≤ roundHalfEven q := by
      rcases roundHalfEven_cases q with ⟨h', _⟩ | ⟨h', _⟩ <;> omega
    omega
  · -- the floors agree, so the fractional parts are in order
    simp only [roundHalfEven, ← heq]
    split_ifs <;> first | omega | (exfalso; linarith)

/-- An integer below a number is below its rounding. -/
lemma le_roundHalfEven {n : ℤ} {q : ℚ} (h : (n : ℚ) ≤ q) : n ≤ roundHalfEven q :=
  roundHalfEven_intCast n ▸ roundHalfEven_mono h

/-- An integer above a number is above its rounding. -/
lemma roundHalfEven_le {n : ℤ} {q : ℚ} (h : q ≤ n) : roundHalfEven q ≤ n :=
  roundHalfEven_intCast n ▸ roundHalfEven_mono h

/-- Rounding goes beyond an integer from the middle to the next one on, in the
middle itself only from an odd one. -/
theorem lt_roundHalfEven_iff {n : ℤ} {q : ℚ} :
    n < roundHalfEven q ↔ n + 1 / 2 < q ∨ n + 1 / 2 = q ∧ ¬ 2 ∣ n := by
  have hlow : (⌊q⌋ : ℚ) ≤ q := Int.floor_le q
  have hup : q < ⌊q⌋ + 1 := Int.lt_floor_add_one q
  rcases lt_trichotomy n ⌊q⌋ with hlt | rfl | hgt
  · have hn : (n : ℚ) + 1 ≤ ⌊q⌋ := by exact_mod_cast hlt
    exact iff_of_true (hlt.trans_le (le_roundHalfEven hlow)) (.inl (by linarith))
  · simp only [roundHalfEven]
    split_ifs with h₁ h₂ h₃
    · exact iff_of_false (lt_irrefl _) (by rintro (h | ⟨h, -⟩) <;> linarith)
    · exact iff_of_true (Int.lt_succ _) (.inl (by linarith))
    · refine iff_of_false (lt_irrefl _) ?_
      rintro (h | ⟨-, h⟩)
      · exact h₂ (by linarith)
      · exact h h₃
    · exact iff_of_true (Int.lt_succ _) (.inr ⟨by linarith, h₃⟩)
  · have hn : (⌊q⌋ : ℚ) + 1 ≤ n := by exact_mod_cast hgt
    have hle : roundHalfEven q ≤ n := roundHalfEven_le (hup.le.trans hn)
    exact iff_of_false hle.not_gt (by rintro (h | ⟨h, -⟩) <;> linarith)

lemma roundHalfEven_nonneg {q : ℚ} (h : 0 ≤ q) : 0 ≤ roundHalfEven q :=
  le_roundHalfEven (by exact_mod_cast h)

/-- Rounding is odd. -/
lemma roundHalfEven_neg (q : ℚ) : roundHalfEven (-q) = -roundHalfEven q := by
  by_cases hint : (⌊q⌋ : ℚ) = q
  · rw [← hint, ← Int.cast_neg, roundHalfEven_intCast, roundHalfEven_intCast]
  · have hlow : (⌊q⌋ : ℚ) < q := (Int.floor_le q).lt_of_ne hint
    have hup : q < ⌊q⌋ + 1 := Int.lt_floor_add_one q
    have hfloor : ⌊-q⌋ = -⌊q⌋ - 1 := by
      rw [Int.floor_eq_iff]
      push_cast
      constructor <;> linarith
    simp only [roundHalfEven, hfloor]
    push_cast
    -- the two fractional parts add up to one
    split_ifs <;> first | omega | (exfalso; linarith)

/-- A number less than one half below an integer is not rounded below it. -/
lemma le_roundHalfEven_sub {n : ℤ} {x : ℚ} (h : x < 1 / 2) : n ≤ roundHalfEven (n - x) := by
  obtain ⟨-, habove⟩ := abs_le.mp (abs_sub_roundHalfEven_le ((n : ℚ) - x))
  have hlt : (n : ℚ) < roundHalfEven (n - x) + 1 := by linarith
  have hlt' : n < roundHalfEven ((n : ℚ) - x) + 1 := by exact_mod_cast hlt
  omega

/-- A number more than one half below an integer is rounded below it. -/
lemma roundHalfEven_sub_lt {n : ℤ} {x : ℚ} (h : 1 / 2 < x) : roundHalfEven (n - x) < n := by
  obtain ⟨hbelow, -⟩ := abs_le.mp (abs_sub_roundHalfEven_le ((n : ℚ) - x))
  have hlt : (roundHalfEven ((n : ℚ) - x) : ℚ) < n := by linarith
  exact_mod_cast hlt

/-! ### Fractions of natural numbers -/

/-- The fraction `a / b` is rounded to the integer above it. -/
def RoundsUp (a b : ℕ) : Prop := b < 2 * (a % b) ∨ b = 2 * (a % b) ∧ a / b % 2 = 1

instance (a b : ℕ) : Decidable (RoundsUp a b) := inferInstanceAs (Decidable (_ ∨ _))

/-- Rounding a fraction is a matter of the remainder. -/
theorem roundHalfEven_natCast_div {a b : ℕ} (hb : 0 < b) :
    roundHalfEven ((a : ℚ) / b) = (a / b : ℕ) + if RoundsUp a b then 1 else 0 := by
  have hb' : (0 : ℚ) < b := by exact_mod_cast hb
  have hfloor : ⌊(a : ℚ) / b⌋ = (a / b : ℕ) := by
    rw [Rat.floor_natCast_div_natCast, Int.natCast_div]
  have hfrac : (a : ℚ) / b - (a / b : ℕ) = (a % b : ℕ) / b := by
    have hsplit : (b : ℚ) * (a / b : ℕ) + (a % b : ℕ) = a := by exact_mod_cast Nat.div_add_mod a b
    field_simp
    linarith
  have hlow : ((a % b : ℕ) : ℚ) / b < 1 / 2 ↔ 2 * (a % b) < b := by
    rw [div_lt_div_iff₀ hb' two_pos, one_mul, mul_comm]
    exact_mod_cast Iff.rfl
  have hup : 1 / 2 < ((a % b : ℕ) : ℚ) / b ↔ b < 2 * (a % b) := by
    rw [div_lt_div_iff₀ two_pos hb', one_mul, mul_comm]
    exact_mod_cast Iff.rfl
  have hdvd : (2 : ℤ) ∣ (a / b : ℕ) ↔ a / b % 2 = 0 := by omega
  simp only [roundHalfEven, hfloor, Int.cast_natCast, hfrac, hlow, hup, hdvd, RoundsUp]
  split_ifs <;> omega

/-! ### The nearest multiple of a unit -/

/-- The nearest multiple of `1 / s`. -/
def roundTo (s : ℕ) (q : ℚ) : ℚ := roundHalfEven (q * s) / s

section RoundTo

variable {s : ℕ} {p q : ℚ}

lemma roundTo_mono (s : ℕ) (h : p ≤ q) : roundTo s p ≤ roundTo s q := by
  have hs : (0 : ℚ) ≤ s := s.cast_nonneg
  have hround : roundHalfEven (p * s) ≤ roundHalfEven (q * s) :=
    roundHalfEven_mono (mul_le_mul_of_nonneg_right h hs)
  exact div_le_div_of_nonneg_right (by exact_mod_cast hround) hs

/-- The multiples of the unit are fixed. -/
lemma roundTo_intCast_div (hs : 0 < s) (n : ℤ) : roundTo s ((n : ℚ) / s) = n / s := by
  have hs' : (s : ℚ) ≠ 0 := by exact_mod_cast hs.ne'
  rw [roundTo, div_mul_cancel₀ _ hs', roundHalfEven_intCast]

lemma roundTo_idem (hs : 0 < s) (q : ℚ) : roundTo s (roundTo s q) = roundTo s q :=
  roundTo_intCast_div hs _

/-- A whole number is a multiple of every unit. -/
lemma roundTo_intCast (hs : 0 < s) (n : ℤ) : roundTo s n = n := by
  have hs' : (s : ℚ) ≠ 0 := by exact_mod_cast hs.ne'
  have h := roundTo_intCast_div hs (n * s)
  rwa [Int.cast_mul, Int.cast_natCast, mul_div_cancel_right₀ _ hs'] at h

/-- The error is at most half a unit. -/
theorem abs_sub_roundTo_le (hs : 0 < s) (q : ℚ) : |q - roundTo s q| ≤ 1 / (2 * s) := by
  have hs' : (0 : ℚ) < s := by exact_mod_cast hs
  have hsplit : q - roundTo s q = (q * s - roundHalfEven (q * s)) / s := by
    rw [roundTo]
    field_simp
  calc |q - roundTo s q| = |q * s - roundHalfEven (q * s)| / s := by
        rw [hsplit, abs_div, abs_of_pos hs']
    _ ≤ 1 / 2 / s := div_le_div_of_nonneg_right (abs_sub_roundHalfEven_le _) hs'.le
    _ = 1 / (2 * s) := by rw [div_div]

lemma roundTo_nonneg (s : ℕ) (h : 0 ≤ q) : 0 ≤ roundTo s q :=
  div_nonneg (by exact_mod_cast roundHalfEven_nonneg (mul_nonneg h s.cast_nonneg)) s.cast_nonneg

lemma le_roundTo (hs : 0 < s) {n : ℤ} (h : (n : ℚ) ≤ q) : (n : ℚ) ≤ roundTo s q :=
  roundTo_intCast hs n ▸ roundTo_mono s h

lemma roundTo_le (hs : 0 < s) {n : ℤ} (h : q ≤ n) : roundTo s q ≤ n :=
  roundTo_intCast hs n ▸ roundTo_mono s h

end RoundTo

/-! ### Clamping -/

section Clamp

variable {α : Type*} [LinearOrder α] {lo hi need : α}

/-- A number between the bounds that suffices: the least one is the need, clamped. -/
lemma isLeast_clamp (hbounds : lo ≤ hi) (hneed : need ≤ hi) :
    IsLeast {r | lo ≤ r ∧ r ≤ hi ∧ need ≤ r} (min hi (max lo need)) := by
  have hmin : min hi (max lo need) = max lo need := min_eq_right (max_le hbounds hneed)
  rw [hmin]
  refine ⟨⟨le_max_left _ _, max_le hbounds hneed, le_max_right _ _⟩, fun r hr => ?_⟩
  exact max_le hr.1 hr.2.2

/-- A need beyond the bounds is clamped to the upper one. -/
lemma clamp_of_lt (hneed : hi < need) : min hi (max lo need) = hi :=
  min_eq_left (hneed.le.trans (le_max_right _ _))

end Clamp

end FinOpsPipeline
