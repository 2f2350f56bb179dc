import FinOpsPipeline.Foundations.Rounding

/-!
Python's `float` with exact arithmetic on the finite values: a rational number,
an infinity or not a number.

* `PyFloat.lt`, `PyFloat.le` and the arithmetic instances: comparisons with `nan`
  are false, and the operations follow IEEE 754 on the special values. The
  simp lemmas `lt_fin`, `fin_add` and the like carry finite values back to `ℚ`;
  `div_le_div_right` and `add_le_add_of_nonneg` keep the order.
* `PyFloat.pyMax`: the builtin `max` of two values, which keeps the first one
  unless the second is greater.
* `PyFloat.round`, `PyFloat.roundInt`, `PyFloat.truncInt`, `PyFloat.ceilInt`:
  `round(x, n)`, `int(round(x))`, `int(x)` and `math.ceil(x)`; the last three raise on
  the special values.
-/

namespace FinOpsPipeline

/-- A value of Python's `float`. -/
inductive PyFloat where
  | fin (q : ℚ)
  | inf (negative : Bool)
  | nan
  deriving DecidableEq

namespace PyFloat

/-! ### Comparisons -/

/-- `x < y`. -/
def lt : PyFloat → PyFloat → Bool
  | fin p, fin q => p < q
  | fin _, inf n => !n
  | inf m, fin _ => m
  | inf m, inf n => m && !n
  | nan, _ | _, nan => false

/-- `x <= y`. -/
def le : PyFloat → PyFloat → Bool
  | fin p, fin q => p ≤ q
  | fin _, inf n => !n
  | inf m, fin _ => m
  | inf m, inf n => m || !n
  | nan, _ | _, nan => false

/-- `x == y`. -/
def eq (x y : PyFloat) : Bool := le x y && le y x

/-- `max(x, y)`. -/
def pyMax (x y : PyFloat) : PyFloat := if lt x y then y else x

@[simp] lemma lt_fin (p q : ℚ) : lt (fin p) (fin q) = decide (p < q) := rfl

@[simp] lemma le_fin (p q : ℚ) : le (fin p) (fin q) = decide (p ≤ q) := rfl

@[simp] lemma eq_fin (p q : ℚ) : eq (fin p) (fin q) = decide (p = q) := by
  simp [eq, le_antisymm_iff, Bool.decide_and]

@[simp] lemma lt_nan (x : PyFloat) : lt x nan = false := by cases x <;> rfl

@[simp] lemma nan_lt (x : PyFloat) : lt nan x = false := by cases x <;> rfl

@[simp] lemma le_nan (x : PyFloat) : le x nan = false := by cases x <;> rfl

@[simp] lemma lt_self (x : PyFloat) : lt x x = false := by
  cases x <;> simp [lt]

@[simp] lemma pyMax_fin (p q : ℚ) : pyMax (fin p) (fin q) = fin (max p q) := by
  rw [pyMax, lt_fin]
  by_cases h : p < q
  · simp [h, max_eq_right h.le]
  · simp [h, max_eq_left (not_lt.mp h)]

/-- Every value but `nan` is above a number it is not below. -/
lemma le_of_not_lt {x y : PyFloat} (hx : x ≠ nan) (hy : y ≠ nan) (h : lt y x = false) :
    le x y = true := by
  cases x with
  | fin p =>
      cases y with
      | fin q => simpa using h
      | inf n => simpa [lt, le] using h
      | nan => exact absurd rfl hy
  | inf m =>
      cases y with
      | fin q => simpa [lt, le] using h
      | inf n => cases m <;> cases n <;> simp_all [lt, le]
      | nan => exact absurd rfl hy
  | nan => exact absurd rfl hx

/-- Every value but `nan` is strictly below a number it is not at least. -/
lemma lt_of_not_le {x y : PyFloat} (hx : x ≠ nan) (hy : y ≠ nan) (h : le x y = false) :
    lt y x = true := by
  cases x <;> cases y <;> simp only [le, lt, decide_eq_false_iff_not, decide_eq_true_eq] at h ⊢ <;>
    grind

lemma le_refl_of_ne_nan {x : PyFloat} (hx : x ≠ nan) : le x x = true := by
  cases x <;> simp_all [le]

lemma le_of_lt_eq_true {x y : PyFloat} (h : lt x y = true) : le x y = true := by
  cases x <;> cases y <;> simp only [le, lt, decide_eq_true_eq] at h ⊢ <;> grind

/-- Comparisons of values that are not `nan` are transitive. -/
lemma le_of_le_le {x y z : PyFloat} (hxy : le x y = true) (hyz : le y z = true) :
    le x z = true := by
  cases x <;> cases y <;> cases z <;> simp only [le, decide_eq_true_eq] at hxy hyz ⊢ <;> grind

lemma lt_of_lt_le {x y z : PyFloat} (hxy : lt x y = true) (hyz : le y z = true) :
    lt x z = true := by
  cases x <;> cases y <;> cases z <;> simp only [le, lt, decide_eq_true_eq] at hxy hyz ⊢ <;> grind

lemma lt_of_le_lt {x y z : PyFloat} (hxy : le x y = true) (hyz : lt y z = true) :
    lt x z = true := by
  cases x <;> cases y <;> cases z <;> simp only [le, lt, decide_eq_true_eq] at hxy hyz ⊢ <;> grind

/-! ### Arithmetic -/

/-- `-x`. -/
instance : Neg PyFloat where
  neg
    | fin q => fin (-q)
    | inf n => inf !n
    | nan => nan

/-- `x + y`. -/
instance : Add PyFloat where
  add
    | fin p, fin q => fin (p + q)
    | fin _, inf n | inf n, fin _ => inf n
    | inf m, inf n => if m = n then inf m else nan
    | nan, _ | _, nan => nan

/-- `x - y`. -/
instance : Sub PyFloat where
  sub x y := x + -y

/-- `x * y`. -/
instance : Mul PyFloat where
  mul
    | fin p, fin q => fin (p * q)
    | fin q, inf n | inf n, fin q => if q = 0 then nan else inf (n ^^ decide (q < 0))
    | inf m, inf n => inf (m ^^ n)
    | nan, _ | _, nan => nan

/-- `x / y`, for a divisor that is not zero. -/
instance : Div PyFloat where
  div
    | fin p, fin q => fin (p / q)
    | fin _, inf _ => fin 0
    | inf n, fin q => inf (n ^^ decide (q < 0))
    | inf _, inf _ => nan
    | nan, _ | _, nan => nan

/-- `x % y`, for a divisor that is not zero. -/
instance : Mod PyFloat where
  mod
    | fin p, fin q => fin (p - q * ⌊p / q⌋)
    | fin p, inf n => if p = 0 ∨ decide (p < 0) = n then fin p else inf n
    | inf _, _ | nan, _ | _, nan => nan

instance (n : ℕ) : OfNat PyFloat n where
  ofNat := fin n

@[simp] lemma fin_neg (q : ℚ) : -fin q = fin (-q) := rfl

@[simp] lemma fin_add (p q : ℚ) : fin p + fin q = fin (p + q) := rfl

@[simp] lemma fin_sub (p q : ℚ) : fin p - fin q = fin (p - q) := by
  rw [sub_eq_add_neg]
  rfl

@[simp] lemma fin_mul (p q : ℚ) : fin p * fin q = fin (p * q) := rfl

@[simp] lemma fin_div (p q : ℚ) : fin p / fin q = fin (p / q) := rfl

lemma fin_mod (p q : ℚ) : fin p % fin q = fin (p - q * ⌊p / q⌋) := rfl

/-- The remainder vanishes exactly for the multiples of the divisor. -/
lemma fin_mod_eq_zero {p q : ℚ} (hq : q ≠ 0) :
    eq (fin p % fin q) (fin 0) = true ↔ ∃ n : ℤ, p = n * q := by
  rw [fin_mod, eq_fin, decide_eq_true_eq]
  constructor
  · intro h
    exact ⟨⌊p / q⌋, by linarith⟩
  · rintro ⟨n, rfl⟩
    rw [mul_div_cancel_right₀ _ hq, Int.floor_intCast]
    ring

/-- `abs(x)`. -/
def abs : PyFloat → PyFloat
  | fin q => fin |q|
  | inf _ => inf false
  | nan => nan

/-- Division by a positive number keeps the order. -/
lemma div_le_div_right {x y : PyFloat} {b : ℚ} (hb : 0 < b) (h : le x y = true) :
    le (x / fin b) (y / fin b) = true := by
  have hdiv : ∀ n, (inf n / fin b : PyFloat) = inf n := fun n => by
    have heq : (inf n / fin b : PyFloat) = inf (n ^^ decide (b < 0)) := rfl
    rw [heq, decide_eq_false hb.not_gt, Bool.xor_false]
  cases x with
  | nan => simp [le] at h
  | inf m =>
      cases y with
      | nan => simp [le] at h
      | inf n => rwa [hdiv, hdiv]
      | fin q =>
          rw [hdiv, fin_div]
          exact h
  | fin p =>
      cases y with
      | nan => simp [le] at h
      | inf n =>
          rw [hdiv, fin_div]
          exact h
      | fin q =>
          rw [fin_div, fin_div, le_fin, decide_eq_true_eq]
          exact div_le_div_of_nonneg_right (by simpa using h) hb.le

/-- A value that is not negative is a number or the positive infinity. -/
lemma nonneg_cases {x : PyFloat} (h : le (fin 0) x = true) :
    (∃ q, 0 ≤ q ∧ x = fin q) ∨ x = inf false := by
  cases x with
  | fin q => exact .inl ⟨q, by simpa using h, rfl⟩
  | inf n => exact .inr (by simpa [le] using h)
  | nan => simp [le] at h

/-- Addition keeps the order of values that are not negative. -/
lemma add_le_add_of_nonneg {x x' y y' : PyFloat} (hx : le (fin 0) x = true)
    (hy : le (fin 0) y = true) (h : le x x' = true) (h' : le y y' = true) :
    le (x + y) (x' + y') = true := by
  have hinf : ∀ z, le (fin 0) z = true → inf false + z = inf false ∧ z + inf false = inf false := by
    intro z hz
    obtain ⟨q, -, rfl⟩ | rfl := nonneg_cases hz <;> exact ⟨rfl, rfl⟩
  have hx' := le_of_le_le hx h
  have hy' := le_of_le_le hy h'
  obtain ⟨a', -, rfl⟩ | rfl := nonneg_cases hx'
  · obtain ⟨b', -, rfl⟩ | rfl := nonneg_cases hy'
    · obtain ⟨a, -, rfl⟩ | rfl := nonneg_cases hx
      · obtain ⟨b, -, rfl⟩ | rfl := nonneg_cases hy
        · simp only [fin_add, le_fin, decide_eq_true_eq] at h h' ⊢
          exact add_le_add h h'
        · cases h'
      · cases h
    · rw [(hinf _ hx').2]
      obtain ⟨a, -, rfl⟩ | rfl := nonneg_cases hx <;>
        obtain ⟨b, -, rfl⟩ | rfl := nonneg_cases hy <;> rfl
  · rw [(hinf _ hy').1]
    obtain ⟨a, -, rfl⟩ | rfl := nonneg_cases hx <;>
      obtain ⟨b, -, rfl⟩ | rfl := nonneg_cases hy <;> rfl

lemma add_nonneg {x y : PyFloat} (hx : le (fin 0) x = true) (hy : le (fin 0) y = true) :
    le (fin 0) (x + y) = true := by
  obtain ⟨a, ha, rfl⟩ | rfl := nonneg_cases hx <;> obtain ⟨b, hb, rfl⟩ | rfl := nonneg_cases hy
  · rw [fin_add, le_fin, decide_eq_true_eq]
    linarith
  · rfl
  · rfl
  · rfl

/-! ### Conversions to whole numbers -/

/-- `round(x, n)` for the number `s = 10 ** n`. -/
def round (s : ℕ) : PyFloat → PyFloat
  | fin q => fin (roundTo s q)
  | x => x

/-- `int(round(x))`; the special values raise. -/
def roundInt : PyFloat → Option ℤ
  | fin q => some (roundHalfEven q)
  | _ => none

/-- `int(x)`, the whole part; the special values raise. -/
def truncInt : PyFloat → Option ℤ
  | fin q => some (if 0 ≤ q then ⌊q⌋ else ⌈q⌉)
  | _ => none

/-- `math.ceil(x)`; the special values raise. -/
def ceilInt : PyFloat → Option ℤ
  | fin q => some ⌈q⌉
  | _ => none

@[simp] lemma round_fin (s : ℕ) (q : ℚ) : round s (fin q) = fin (roundTo s q) := rfl

@[simp] lemma roundInt_fin (q : ℚ) : roundInt (fin q) = some (roundHalfEven q) := rfl

end PyFloat

end FinOpsPipeline
