import FinOpsPipeline.Foundations.PyFloat
import Mathlib.Data.List.DropRight
import Mathlib.Data.List.TakeWhile
import Mathlib.Algebra.Order.Field.Power
import Mathlib.Tactic.IntervalCases

/-!
Python's text of numbers: what `int` and `float` values print, and what
`float()` and a scan for a leading number read. Text is a list of characters,
and digits are the ASCII ones.

* `append_cons_inj`, `append_cons_inj_last`: a text is split at its first, or its last,
  separator in one way.
* `readFloat`: `float(text)`, with surrounding white space, underscores between
  digits, a sign, `inf`, `nan` and an exponent.
* `scanNumber`: the longest prefix that matches
  `[0-9]+(\.[0-9]+)?([eE][+-]?[0-9]+)?`, with its value.
* `Numeral`: the unsigned decimal numerals that numbers print as;
  `readFloat_render`, `readFloat_neg_render` and `scanNumber_render` read a
  printed numeral back as its value.
* `intText`, `hundredths`: the numerals of whole numbers and of numbers with two
  decimal places.
-/

namespace FinOpsPipeline

/-! ### Separators -/

/-- A separator that the first parts do not contain splits a list in one way. -/
lemma append_cons_inj {α : Type} {x : α} {a a' r r' : List α} (ha : x ∉ a) (ha' : x ∉ a')
    (h : a ++ x :: r = a' ++ x :: r') : a = a' ∧ r = r' := by
  induction a generalizing a' with
  | nil =>
      cases a' with
      | nil => exact ⟨rfl, by simpa using h⟩
      | cons c a' =>
          obtain ⟨rfl, _⟩ := List.cons.inj h
          exact absurd List.mem_cons_self ha'
  | cons c a ih =>
      cases a' with
      | nil =>
          obtain ⟨rfl, _⟩ := List.cons.inj h
          exact absurd List.mem_cons_self ha
      | cons d a' =>
          obtain ⟨rfl, htail⟩ := List.cons.inj h
          obtain ⟨rfl, hr⟩ := ih (fun hx => ha (List.mem_cons_of_mem _ hx))
            (fun hx => ha' (List.mem_cons_of_mem _ hx)) htail
          exact ⟨rfl, hr⟩

/-- A separator that the last parts do not contain splits a list in one way. -/
lemma append_cons_inj_last {α : Type} {x : α} {a b i j : List α} (hi : x ∉ i) (hj : x ∉ j)
    (h : a ++ x :: i = b ++ x :: j) : a = b ∧ i = j := by
  have hreverse : i.reverse ++ x :: a.reverse = j.reverse ++ x :: b.reverse := by
    simpa using congrArg List.reverse h
  obtain ⟨hlast, hfirst⟩ := append_cons_inj (by simpa using hi) (by simpa using hj) hreverse
  exact ⟨List.reverse_injective hfirst, List.reverse_injective hlast⟩

/-! ### Characters -/

namespace PyText

/-- Statements about the characters of a text are decided along the text, and not
over all characters. -/
scoped instance (priority := 2000) decidableForallMem {α : Type} (p : α → Prop)
    [DecidablePred p] (l : List α) : Decidable (∀ a ∈ l, p a) :=
  List.decidableBAll p l

end PyText

open scoped PyText

/-- The characters that `str.isspace` accepts. -/
def isSpace (c : Char) : Bool :=
  let n := c.toNat
  (9 ≤ n && n ≤ 13) || (28 ≤ n && n ≤ 32) || n == 0x85 || n == 0xa0 || n == 0x1680 ||
    (0x2000 ≤ n && n ≤ 0x200a) || n == 0x2028 || n == 0x2029 || n == 0x202f || n == 0x205f ||
    n == 0x3000

/-- `text.strip()`. -/
def strip (s : List Char) : List Char := (s.dropWhile isSpace).rdropWhile isSpace

/-- `text.lower()`. -/
def lower (s : List Char) : List Char := s.map Char.toLower

/-- Text without white space is what `strip` leaves. -/
lemma strip_eq_self {s : List Char} (h : ∀ c ∈ s, isSpace c = false) : strip s = s := by
  have hdrop : s.dropWhile isSpace = s := by
    cases s with
    | nil => rfl
    | cons c s => simp [h c List.mem_cons_self]
  rw [strip, hdrop, List.rdropWhile_eq_self_iff]
  intro hne
  simp [h _ (List.getLast_mem hne)]

lemma lower_eq_self {s : List Char} (h : ∀ c ∈ s, c.toLower = c) : lower s = s :=
  (List.map_congr_left h).trans (List.map_id s)

/-- A digit is no space, and is its own lower case. -/
lemma digit_facts {c : Char} (h : c.isDigit = true) :
    isSpace c = false ∧ c.toLower = c ∧ c ≠ '.' ∧ c ≠ '_' ∧ c ≠ '-' ∧ c ≠ '+' ∧
      c.isAlpha = false := by
  have hval : 48 ≤ c.toNat ∧ c.toNat ≤ 57 := by
    simp only [Char.isDigit, Bool.and_eq_true, decide_eq_true_eq, ge_iff_le] at h
    exact ⟨UInt32.le_iff_toNat_le.mp h.1, UInt32.le_iff_toNat_le.mp h.2⟩
  obtain ⟨n, hn⟩ : ∃ n, c.toNat = n := ⟨_, rfl⟩
  have hc : c = Char.ofNat n := by rw [← hn, Char.ofNat_toNat]
  subst hc
  rw [hn] at hval
  obtain ⟨hlow, hup⟩ := hval
  interval_cases n <;> decide

/-- A letter is no digit. -/
lemma isDigit_of_isAlpha {c : Char} (h : c.isAlpha = true) : c.isDigit = false := by
  by_contra hd
  obtain ⟨-, -, -, -, -, -, halpha⟩ := digit_facts (Bool.eq_true_of_not_eq_false hd)
  rw [halpha] at h
  cases h

/-- A letter is no space. -/
lemma isSpace_of_isAlpha {c : Char} (h : c.isAlpha = true) : isSpace c = false := by
  have hval : 65 ≤ c.toNat ∧ c.toNat ≤ 122 := by
    have hcases : (decide ('A'.val ≤ c.val ∧ c.val ≤ 'Z'.val) ||
        (decide ('a'.val ≤ c.val) && decide (c.val ≤ 'z'.val))) = true := h
    simp only [Bool.or_eq_true, Bool.and_eq_true, decide_eq_true_eq,
      UInt32.le_iff_toNat_le] at hcases
    have hnat : c.toNat = c.val.toNat := rfl
    have hbounds : 'A'.val.toNat = 65 ∧ 'Z'.val.toNat = 90 ∧ 'a'.val.toNat = 97 ∧
        'z'.val.toNat = 122 := by decide
    omega
  simp only [isSpace, Bool.or_eq_false_iff, Bool.and_eq_false_iff, decide_eq_false_iff_not,
    beq_eq_false_iff_ne]
  omega

/-! ### Reading -/

/-- The number that a list of digits denotes. -/
def natOf (ds : List Char) : ℕ := Nat.ofDigitChars 10 ds 0

/-- The value of a decimal number, with its digits before and after the point. -/
def decimalValue (whole frac : List Char) (power : ℤ) : ℚ :=
  natOf (whole ++ frac) * 10 ^ (power - frac.length)

/-- An optional sign; `true` for a minus. -/
def scanSign : List Char → Bool × List Char
  | '-' :: r => (true, r)
  | '+' :: r => (false, r)
  | r => (false, r)

/-- An optional exponent `[eE][+-]?[0-9]+`; without one the power is zero. -/
def scanPower : List Char → ℤ × List Char
  | [] => (0, [])
  | c :: r =>
      let signed := scanSign r
      let ds := signed.2.takeWhile Char.isDigit
      if (c = 'e' ∨ c = 'E') ∧ ds ≠ [] then
        (if signed.1 then -(natOf ds) else natOf ds, signed.2.dropWhile Char.isDigit)
      else (0, c :: r)

/-- The fraction `\.[0-9]+`, if there is one. -/
def scanFrac : List Char → List Char × List Char
  | '.' :: r =>
      if r.takeWhile Char.isDigit = [] then ([], '.' :: r)
      else (r.takeWhile Char.isDigit, r.dropWhile Char.isDigit)
  | r => ([], r)

/-- The longest prefix that matches `[0-9]+(\.[0-9]+)?([eE][+-]?[0-9]+)?`. -/
def scanNumber (s : List Char) : Option (ℚ × List Char) :=
  let whole := s.takeWhile Char.isDigit
  if whole = [] then none
  else
    let fracRest := scanFrac (s.dropWhile Char.isDigit)
    let powerRest := scanPower fracRest.2
    some (decimalValue whole fracRest.1 powerRest.1, powerRest.2)

lemma decimalValue_nonneg (whole frac : List Char) (power : ℤ) :
    0 ≤ decimalValue whole frac power :=
  mul_nonneg (Nat.cast_nonneg _) (zpow_nonneg (by norm_num) _)

lemma scanNumber_nonneg {s rest : List Char} {val : ℚ} (h : scanNumber s = some (val, rest)) :
    0 ≤ val := by
  rw [scanNumber] at h
  split at h
  · cases h
  · cases h
    exact decimalValue_nonneg _ _ _

/-- The underscores of a number literal, which may only stand between digits,
are removed. -/
def deUnderscore (s : List Char) : Option (List Char) :=
  if ∀ p ∈ s.zip (s.tail), (p.1 = '_' → p.2.isDigit) ∧ (p.2 = '_' → p.1.isDigit) then
    if s.head? = some '_' ∨ s.getLast? = some '_' then none else some (s.filter (· ≠ '_'))
  else none

/-- A point with the digits after it, which may be missing. -/
def scanPoint : List Char → List Char × List Char
  | '.' :: r => (r.takeWhile Char.isDigit, r.dropWhile Char.isDigit)
  | r => ([], r)

/-- An unsigned decimal literal; the digits before or after the point may be missing. -/
def readDecimal (s : List Char) : Option ℚ :=
  let whole := s.takeWhile Char.isDigit
  let fracRest := scanPoint (s.dropWhile Char.isDigit)
  if whole ++ fracRest.1 = [] then none
  else
    match scanPower fracRest.2 with
    | (power, []) => some (decimalValue whole fracRest.1 power)
    | _ => none

/-- The part of a `float()` argument after its sign. -/
def readUnsigned (s : List Char) : Option PyFloat :=
  if lower s = ['i', 'n', 'f'] ∨ lower s = ['i', 'n', 'f', 'i', 'n', 'i', 't', 'y'] then
    some (.inf false)
  else if lower s = ['n', 'a', 'n'] then some .nan
  else (readDecimal s).map .fin

/-- `float(text)`; `none` when it raises `ValueError`. -/
def readFloat (s : List Char) : Option PyFloat :=
  (deUnderscore (strip s)).bind fun s =>
    let signed := scanSign s
    if signed.1 then (readUnsigned signed.2).map (- ·) else readUnsigned signed.2

/-! ### Numerals -/

/-- An unsigned decimal numeral: the digits before and after the point and those
of a positive exponent. -/
structure Numeral where
  whole : List Char
  frac : List Char
  power : List Char

namespace Numeral

/-- The text of a numeral. -/
def render (n : Numeral) : List Char :=
  n.whole ++ ((if n.frac = [] then [] else '.' :: n.frac) ++
    if n.power = [] then [] else 'e' :: '+' :: n.power)

/-- The value of a numeral. -/
def value (n : Numeral) : ℚ := decimalValue n.whole n.frac (natOf n.power)

/-- The numeral consists of digits, with at least one before the point. -/
structure Ok (n : Numeral) : Prop where
  nonempty : n.whole ≠ []
  whole : ∀ c ∈ n.whole, c.isDigit = true
  frac : ∀ c ∈ n.frac, c.isDigit = true
  power : ∀ c ∈ n.power, c.isDigit = true

end Numeral

/-- The text does not go on with a digit. -/
def NoDigit (r : List Char) : Prop := ∀ c ∈ r.head?, c.isDigit = false

section Scan

variable {ds r : List Char}

lemma takeWhile_digits (hds : ∀ c ∈ ds, c.isDigit = true) (hr : NoDigit r) :
    (ds ++ r).takeWhile Char.isDigit = ds := by
  rw [List.takeWhile_append_of_pos hds]
  cases r with
  | nil => simp
  | cons c r => simp [hr c rfl]

lemma dropWhile_digits (hds : ∀ c ∈ ds, c.isDigit = true) (hr : NoDigit r) :
    (ds ++ r).dropWhile Char.isDigit = r := by
  rw [List.dropWhile_append_of_pos hds]
  cases r with
  | nil => rfl
  | cons c r => simp [hr c rfl]

lemma scanSign_of_ne {c : Char} (hminus : c ≠ '-') (hplus : c ≠ '+') :
    scanSign (c :: r) = (false, c :: r) := by
  rw [scanSign.eq_def]
  split <;> simp_all

/-- The exponent of a numeral is read back. -/
lemma scanPower_power (hne : ds ≠ []) (hds : ∀ c ∈ ds, c.isDigit = true) (hr : NoDigit r) :
    scanPower ('e' :: '+' :: ds ++ r) = ((natOf ds : ℤ), r) := by
  simp only [List.cons_append, scanPower, scanSign, takeWhile_digits hds hr,
    dropWhile_digits hds hr]
  simp [hne]

/-- A text of letters holds no exponent. -/
lemma scanPower_letters (hr : ∀ c ∈ r, c.isAlpha = true) : scanPower r = (0, r) := by
  cases r with
  | nil => rfl
  | cons c r =>
      have hds : (scanSign r).2.takeWhile Char.isDigit = [] := by
        cases r with
        | nil => rfl
        | cons d r =>
            have hd : d.isAlpha = true := hr d (by simp)
            have hminus : d ≠ '-' := by rintro rfl; cases hd
            have hplus : d ≠ '+' := by rintro rfl; cases hd
            simp [scanSign_of_ne hminus hplus, isDigit_of_isAlpha hd]
      simp [scanPower, hds]

end Scan

namespace Numeral

variable {n : Numeral} {r : List Char}

/-- The text of the exponent. -/
def powerText (n : Numeral) : List Char := if n.power = [] then [] else 'e' :: '+' :: n.power

/-- The text of the fraction. -/
def fracText (n : Numeral) : List Char := if n.frac = [] then [] else '.' :: n.frac

lemma render_append (n : Numeral) (r : List Char) :
    n.render ++ r = n.whole ++ (n.fracText ++ (n.powerText ++ r)) := by
  simp only [render, fracText, powerText, List.append_assoc]

/-- What follows the digits before the point does not go on with a digit or a point. -/
lemma noDigit_powerText (hr : ∀ c ∈ r, c.isAlpha = true) :
    NoDigit (n.powerText ++ r) ∧ ∀ c ∈ (n.powerText ++ r).head?, c ≠ '.' := by
  rw [powerText]
  split
  · cases r with
    | nil => exact ⟨nofun, nofun⟩
    | cons c r =>
        have hc : c.isAlpha = true := hr c List.mem_cons_self
        refine ⟨?_, ?_⟩
        · rintro d ⟨⟩
          exact isDigit_of_isAlpha hc
        · rintro d ⟨⟩ rfl
          cases hc
  · refine ⟨?_, ?_⟩ <;> rintro d ⟨⟩ <;> decide

lemma noDigit_fracText (hr : ∀ c ∈ r, c.isAlpha = true) :
    NoDigit (n.fracText ++ (n.powerText ++ r)) := by
  rw [fracText]
  split
  · exact (noDigit_powerText hr).1
  · rintro d ⟨⟩
    decide

/-- The fraction of a numeral is read back, whether or not digits must follow the point. -/
lemma Ok.scanFrac (h : n.Ok) (hr : ∀ c ∈ r, c.isAlpha = true) :
    scanFrac (n.fracText ++ (n.powerText ++ r)) = (n.frac, n.powerText ++ r) ∧
      scanPoint (n.fracText ++ (n.powerText ++ r)) = (n.frac, n.powerText ++ r) := by
  obtain ⟨hdigit, hpoint⟩ := noDigit_powerText (n := n) hr
  by_cases hfrac : n.frac = []
  · have hne : ∀ s, n.powerText ++ r ≠ '.' :: s := by
      intro s heq
      rw [heq] at hpoint
      exact hpoint '.' rfl rfl
    have htext : n.fracText = [] := if_pos hfrac
    rw [htext, List.nil_append, scanFrac.eq_def, scanPoint.eq_def, hfrac]
    constructor <;> split <;> simp_all
  · have htext : n.fracText = '.' :: n.frac := if_neg hfrac
    simp only [htext, List.cons_append, FinOpsPipeline.scanFrac, scanPoint,
      takeWhile_digits h.frac hdigit, dropWhile_digits h.frac hdigit, if_neg hfrac, and_self]

lemma Ok.scanPower (h : n.Ok) (hr : ∀ c ∈ r, c.isAlpha = true) :
    scanPower (n.powerText ++ r) = ((natOf n.power : ℤ), r) := by
  have hdigit : NoDigit r := fun c hc => isDigit_of_isAlpha (hr c (List.mem_of_mem_head? hc))
  rw [powerText]
  split
  · rename_i hpower
    rw [List.nil_append, scanPower_letters hr, hpower]
    rfl
  · rename_i hpower
    exact scanPower_power hpower h.power hdigit

/-- **A numeral in front of a unit is read back as its value.** -/
theorem scanNumber_render (h : n.Ok) (hr : ∀ c ∈ r, c.isAlpha = true) :
    scanNumber (n.render ++ r) = some (n.value, r) := by
  have hwhole := noDigit_fracText (n := n) hr
  rw [render_append, scanNumber]
  simp only [takeWhile_digits h.whole hwhole, dropWhile_digits h.whole hwhole, h.scanFrac hr,
    h.scanPower hr, if_neg h.nonempty]
  rfl

lemma Ok.readDecimal (h : n.Ok) : readDecimal n.render = some n.value := by
  have hr : ∀ c ∈ ([] : List Char), c.isAlpha = true := nofun
  have hwhole := noDigit_fracText (n := n) hr
  have hne : n.whole ++ n.frac ≠ [] := by simp [h.nonempty]
  rw [← List.append_nil n.render, render_append, FinOpsPipeline.readDecimal]
  simp only [takeWhile_digits h.whole hwhole, dropWhile_digits h.whole hwhole,
    (h.scanFrac hr).2, if_neg hne, h.scanPower hr]
  rfl

/-- The characters of a numeral. -/
lemma Ok.chars (h : n.Ok) {c : Char} (hc : c ∈ n.render) :
    c.isDigit = true ∨ c = '.' ∨ c = 'e' ∨ c = '+' := by
  simp only [render, List.mem_append] at hc
  rcases hc with hwhole | hfrac | hpower
  · exact .inl (h.whole c hwhole)
  · split at hfrac
    · cases hfrac
    · rcases List.mem_cons.mp hfrac with rfl | hmem
      · exact .inr (.inl rfl)
      · exact .inl (h.frac c hmem)
  · split at hpower
    · cases hpower
    · simp only [List.mem_cons] at hpower
      rcases hpower with rfl | rfl | hmem
      · exact .inr (.inr (.inl rfl))
      · exact .inr (.inr (.inr rfl))
      · exact .inl (h.power c hmem)

/-- None of the characters of a numeral is changed or removed before it is read. -/
lemma Ok.char_facts (h : n.Ok) {c : Char} (hc : c ∈ n.render) :
    isSpace c = false ∧ c.toLower = c ∧ c ≠ '_' := by
  rcases h.chars hc with hd | rfl | rfl | rfl
  · obtain ⟨hspace, hlower, _, hne, _⟩ := digit_facts hd
    exact ⟨hspace, hlower, hne⟩
  all_goals decide

/-- A numeral begins with a digit. -/
lemma Ok.head (h : n.Ok) : ∃ c s, n.render = c :: s ∧ c.isDigit = true := by
  obtain ⟨c, ds, hwhole⟩ := List.exists_cons_of_ne_nil h.nonempty
  refine ⟨c, _, by rw [render, hwhole]; rfl, h.whole c ?_⟩
  rw [hwhole]
  exact List.mem_cons_self

lemma Ok.readUnsigned (h : n.Ok) : readUnsigned n.render = some (.fin n.value) := by
  obtain ⟨c, s, hcons, hc⟩ := h.head
  have hlower : lower n.render = n.render := lower_eq_self fun c hc => (h.char_facts hc).2.1
  have hne : ∀ d s', d.isDigit = false → n.render ≠ d :: s' := by
    rintro d s' hd heq
    rw [hcons] at heq
    obtain ⟨rfl, _⟩ := List.cons.inj heq
    rw [hc] at hd
    cases hd
  rw [FinOpsPipeline.readUnsigned, hlower, if_neg, if_neg, h.readDecimal]
  · rfl
  · exact hne 'n' _ rfl
  · exact not_or.mpr ⟨hne 'i' _ rfl, hne 'i' _ rfl⟩

end Numeral

/-- Text without underscores is left alone. -/
lemma deUnderscore_eq_self {s : List Char} (h : ∀ c ∈ s, c ≠ '_') : deUnderscore s = some s := by
  have hpairs : ∀ p ∈ s.zip s.tail, (p.1 = '_' → p.2.isDigit) ∧ (p.2 = '_' → p.1.isDigit) := by
    intro p hp
    have hmem := List.of_mem_zip hp
    exact ⟨fun hu => absurd hu (h _ hmem.1), fun hu => absurd hu (h _ (List.mem_of_mem_tail hmem.2))⟩
  have hends : ¬ (s.head? = some '_' ∨ s.getLast? = some '_') := by
    rintro (hu | hu)
    · exact h _ (List.mem_of_mem_head? hu) rfl
    · exact h _ (List.mem_of_getLast? hu) rfl
  rw [deUnderscore, if_pos hpairs, if_neg hends]
  simpa using h

/-- **`float()` reads a numeral back as its value.** -/
theorem Numeral.readFloat_render {n : Numeral} (h : n.Ok) :
    readFloat n.render = some (.fin n.value) := by
  obtain ⟨c, s, hcons, hc⟩ := h.head
  obtain ⟨_, _, _, _, hminus, hplus, _⟩ := digit_facts hc
  rw [readFloat, strip_eq_self fun c hc => (h.char_facts hc).1,
    deUnderscore_eq_self fun c hc => (h.char_facts hc).2.2, Option.bind_some, hcons,
    scanSign_of_ne hminus hplus, ← hcons]
  exact h.readUnsigned

/-- **`float()` reads a numeral with a minus back as the negated value.** -/
theorem Numeral.readFloat_neg_render {n : Numeral} (h : n.Ok) :
    readFloat ('-' :: n.render) = some (.fin (-n.value)) := by
  have hfacts : ∀ c ∈ '-' :: n.render, isSpace c = false ∧ c ≠ '_' := by
    intro c hc
    rcases List.mem_cons.mp hc with rfl | hmem
    · decide
    · obtain ⟨hspace, _, hne⟩ := h.char_facts hmem
      exact ⟨hspace, hne⟩
  rw [readFloat, strip_eq_self fun c hc => (hfacts c hc).1,
    deUnderscore_eq_self fun c hc => (hfacts c hc).2, Option.bind_some]
  simp only [scanSign, h.readUnsigned]
  rfl

/-- A numeral with letters behind it is no `float()` argument. -/
lemma Numeral.readFloat_letters {n : Numeral} (h : n.Ok) {r : List Char} (hne : r ≠ [])
    (hr : ∀ c ∈ r, c.isAlpha = true) : readFloat (n.render ++ r) = none := by
  obtain ⟨c, s, hcons, hc⟩ := h.head
  obtain ⟨_, hlower, _, _, hminus, hplus, _⟩ := digit_facts hc
  have hspace : ∀ c ∈ n.render ++ r, isSpace c = false := by
    intro c hc
    rcases List.mem_append.mp hc with hnum | hletter
    · exact (h.char_facts hnum).1
    · exact isSpace_of_isAlpha (hr c hletter)
  have hunderscore : ∀ c ∈ n.render ++ r, c ≠ '_' := by
    intro c hc
    rcases List.mem_append.mp hc with hnum | hletter
    · exact (h.char_facts hnum).2.2
    · rintro rfl
      cases hr '_' hletter
  have hword : ∀ d s', d.isDigit = false → lower (c :: (s ++ r)) ≠ d :: s' := by
    rintro d s' hd heq
    rw [lower, List.map_cons, hlower] at heq
    rw [(List.cons.inj heq).1] at hc
    rw [hc] at hd
    cases hd
  have hdecimal : FinOpsPipeline.readDecimal (n.render ++ r) = none := by
    have hwhole := noDigit_fracText (n := n) hr
    have hnonempty : n.whole ++ n.frac ≠ [] := by simp [h.nonempty]
    rw [render_append, FinOpsPipeline.readDecimal]
    simp only [takeWhile_digits h.whole hwhole, dropWhile_digits h.whole hwhole,
      (h.scanFrac hr).2, if_neg hnonempty, h.scanPower hr]
    split
    · rename_i heq
      exact absurd (Prod.mk.inj heq).2 hne
    · rfl
  rw [readFloat, strip_eq_self hspace, deUnderscore_eq_self hunderscore, Option.bind_some, hcons,
    List.cons_append, scanSign_of_ne hminus hplus]
  simp only [Bool.false_eq_true, if_false]
  rw [FinOpsPipeline.readUnsigned, if_neg (not_or.mpr ⟨hword 'i' _ rfl, hword 'i' _ rfl⟩),
    if_neg (hword 'n' _ rfl), ← List.cons_append, ← hcons, hdecimal]
  rfl

/-! ### The numerals of numbers -/

/-- The digits of a natural number. -/
def digits (n : ℕ) : List Char := Nat.toDigits 10 n

@[simp] lemma natOf_digits (n : ℕ) : natOf (digits n) = n := Nat.ofDigitChars_ten_toDigits

lemma isDigit_digits {n : ℕ} {c : Char} (h : c ∈ digits n) : c.isDigit = true :=
  Nat.isDigit_of_mem_toDigits (by norm_num) (by norm_num) h

lemma digits_ne_nil (n : ℕ) : digits n ≠ [] := Nat.toDigits_ne_nil

lemma natOf_zeros (ds : List Char) (k : ℕ) :
    natOf (ds ++ List.replicate k '0') = natOf ds * 10 ^ k := by
  rw [natOf, Nat.ofDigitChars_append, Nat.ofDigitChars_replicate_zero, mul_comm]
  rfl

lemma natOf_digitChar {d : ℕ} (h : d < 10) (ds : List Char) :
    natOf (ds ++ [d.digitChar]) = natOf ds * 10 + d := by
  rw [natOf, Nat.ofDigitChars_append, Nat.ofDigitChars_cons_digitChar_of_lt_ten h,
    Nat.ofDigitChars_nil, mul_comm]
  rfl

/-- The numeral of a natural number. -/
def Numeral.ofNat (n : ℕ) : Numeral := ⟨digits n, [], []⟩

lemma Numeral.ofNat_ok (n : ℕ) : (ofNat n).Ok :=
  ⟨digits_ne_nil n, fun _ => isDigit_digits, nofun, nofun⟩

@[simp] lemma Numeral.value_ofNat (n : ℕ) : (ofNat n).value = n := by
  have hzero : natOf [] = 0 := rfl
  simp [value, ofNat, decimalValue, hzero]

lemma Numeral.render_ofNat (n : ℕ) : (ofNat n).render = digits n := by
  simp [render, ofNat]

/-- `str(z)` of a whole number. -/
def intText (z : ℤ) : List Char :=
  if z < 0 then '-' :: digits z.natAbs else digits z.natAbs

/-- The characters of a whole number. -/
lemma intText_chars {z : ℤ} {c : Char} (h : c ∈ intText z) : c.isDigit = true ∨ c = '-' := by
  rw [intText] at h
  split at h
  · rcases List.mem_cons.mp h with rfl | hmem
    · exact .inr rfl
    · exact .inl (isDigit_digits hmem)
  · exact .inl (isDigit_digits h)

lemma intText_ne_nil (z : ℤ) : intText z ≠ [] := by
  rw [intText]
  split
  · simp
  · exact digits_ne_nil _

/-- A whole number is read back. -/
lemma readFloat_intText (z : ℤ) : readFloat (intText z) = some (.fin z) := by
  rw [intText]
  split
  · rename_i h
    have hz : z = -(z.natAbs : ℤ) := by omega
    rw [← Numeral.render_ofNat, Numeral.readFloat_neg_render (Numeral.ofNat_ok _),
      Numeral.value_ofNat]
    rw [hz]
    simp
  · rename_i h
    have hz : z = (z.natAbs : ℤ) := by omega
    rw [← Numeral.render_ofNat, Numeral.readFloat_render (Numeral.ofNat_ok _),
      Numeral.value_ofNat]
    rw [hz]
    simp

/-- The numeral that `n / 100` prints as: no superfluous zeros but one digit
after the point, and with an exponent from `10 ** 16` on. -/
def Numeral.hundredths (n : ℕ) : Numeral :=
  if n < 10 ^ 18 then
    { whole := digits (n / 100)
      frac :=
        if n % 10 = 0 then [(n / 10 % 10).digitChar]
        else [(n / 10 % 10).digitChar, (n % 10).digitChar]
      power := [] }
  else
    { whole := (digits n).take 1
      frac := ((digits n).drop 1).rdropWhile (· = '0')
      power := digits ((digits n).length - 3) }

lemma isDigit_digitChar {d : ℕ} (h : d < 10) : d.digitChar.isDigit = true := by
  interval_cases d <;> rfl

lemma Numeral.hundredths_ok (n : ℕ) : (hundredths n).Ok := by
  have hten : ∀ m : ℕ, (m % 10).digitChar.isDigit = true :=
    fun m => isDigit_digitChar (Nat.mod_lt m (by norm_num))
  rw [hundredths]
  split
  · refine ⟨digits_ne_nil _, fun _ => isDigit_digits, ?_, nofun⟩
    intro c hc
    split at hc
    · rw [List.mem_singleton.mp hc]
      exact hten _
    · rcases List.mem_cons.mp hc with rfl | hmem
      · exact hten _
      · rw [List.mem_singleton.mp hmem]
        exact hten _
  · refine ⟨?_, ?_, ?_, fun _ => isDigit_digits⟩
    · simp [digits_ne_nil]
    · exact fun c hc => isDigit_digits (List.mem_of_mem_take hc)
    · intro c hc
      exact isDigit_digits (List.mem_of_mem_drop ((List.rdropWhile_prefix _ _).subset hc))

/-- A list of digits is what remains without its last zeros, and these zeros. -/
lemma eq_rdropWhile_append (ds : List Char) :
    ∃ k, ds = ds.rdropWhile (· = '0') ++ List.replicate k '0' := by
  refine ⟨(ds.reverse.takeWhile (· = '0')).length, ?_⟩
  have hzeros : ds.reverse.takeWhile (· = '0') =
      List.replicate (ds.reverse.takeWhile (· = '0')).length '0' := by
    refine List.eq_replicate_of_mem fun c hc => ?_
    simpa using List.mem_takeWhile_imp hc
  have hsplit := List.takeWhile_append_dropWhile (p := (· = '0')) (l := ds.reverse)
  have hrev := congrArg List.reverse hsplit
  rw [List.reverse_append, List.reverse_reverse, hzeros, List.reverse_replicate] at hrev
  exact hrev.symm

/-- **The numeral of `n / 100` denotes this number.** -/
theorem Numeral.value_hundredths (n : ℕ) : (hundredths n).value = n / 100 := by
  have hlt : ∀ m : ℕ, m % 10 < 10 := fun m => Nat.mod_lt m (by norm_num)
  rw [hundredths]
  split
  · rename_i hsmall
    split
    · rename_i hzero
      have hn : n = (n / 100 * 10 + n / 10 % 10) * 10 := by omega
      have hval : natOf (digits (n / 100) ++ [(n / 10 % 10).digitChar]) =
          n / 100 * 10 + n / 10 % 10 := by
        rw [natOf_digitChar (hlt _), natOf_digits]
      have hcast : (n : ℚ) = ((n / 100 * 10 + n / 10 % 10 : ℕ) : ℚ) * 10 := by exact_mod_cast hn
      have hnil : natOf [] = 0 := rfl
      simp only [value, decimalValue, hval, hnil, List.length_singleton]
      rw [hcast]
      norm_num
      ring
    · have hn : n = (n / 100 * 10 + n / 10 % 10) * 10 + n % 10 := by omega
      have hval : natOf (digits (n / 100) ++ [(n / 10 % 10).digitChar, (n % 10).digitChar]) =
          n := by
        have hsplit : digits (n / 100) ++ [(n / 10 % 10).digitChar, (n % 10).digitChar] =
            (digits (n / 100) ++ [(n / 10 % 10).digitChar]) ++ [(n % 10).digitChar] := by simp
        rw [hsplit, natOf_digitChar (hlt _), natOf_digitChar (hlt _), natOf_digits]
        exact hn.symm
      have hnil : natOf [] = 0 := rfl
      simp only [value, decimalValue, hval, hnil, List.length_cons, List.length_nil]
      norm_num
      ring
  · rename_i hlarge
    -- the digits are the leading one, the printed fraction and the zeros left out
    obtain ⟨k, hk⟩ := eq_rdropWhile_append ((digits n).drop 1)
    have hlong : 18 < (digits n).length := by
      by_contra h
      exact hlarge ((Nat.length_toDigits_le_iff (by norm_num) (by norm_num)).mp (not_lt.mp h))
    have hsplit : digits n = ((digits n).take 1 ++ ((digits n).drop 1).rdropWhile (· = '0')) ++
        List.replicate k '0' := by
      rw [List.append_assoc, ← hk, List.take_append_drop]
    have hnat : n = natOf ((digits n).take 1 ++ ((digits n).drop 1).rdropWhile (· = '0')) *
        10 ^ k := by
      rw [← natOf_zeros, ← hsplit, natOf_digits]
    have hlen := congrArg List.length hsplit
    simp only [List.length_append, List.length_replicate, List.length_take] at hlen
    have hpower : ((digits n).length - 3 : ℕ) -
        ((((digits n).drop 1).rdropWhile (· = '0')).length : ℤ) = k - 2 := by omega
    have hcast : (n : ℚ) = (natOf ((digits n).take 1 ++
        ((digits n).drop 1).rdropWhile (· = '0')) : ℚ) * 10 ^ k := by exact_mod_cast hnat
    simp only [value, decimalValue, natOf_digits, hpower]
    rw [zpow_sub₀ (by norm_num), zpow_natCast, zpow_ofNat, ← mul_div_assoc, ← hcast]
    norm_num

/-- `str(round(x, 2))`, the sign of a negative zero aside. -/
def roundedText : PyFloat → List Char
  | .fin q =>
      let n := roundHalfEven (q * 100)
      if n < 0 then '-' :: (Numeral.hundredths n.natAbs).render
      else (Numeral.hundredths n.natAbs).render
  | .inf false => ['i', 'n', 'f']
  | .inf true => ['-', 'i', 'n', 'f']
  | .nan => ['n', 'a', 'n']

/-- The text of a rounded number that is not negative is a numeral of its value. -/
lemma roundedText_fin {q : ℚ} (h : 0 ≤ q) :
    ∃ n : Numeral, n.Ok ∧ roundedText (.fin q) = n.render ∧ n.value = roundTo 100 q := by
  have hround : 0 ≤ roundHalfEven (q * 100) := roundHalfEven_nonneg (by linarith)
  refine ⟨_, Numeral.hundredths_ok (roundHalfEven (q * 100)).natAbs, ?_, ?_⟩
  · simp only [roundedText, if_neg (not_lt.mpr hround)]
  · have habs : (((roundHalfEven (q * 100)).natAbs : ℕ) : ℚ) = roundHalfEven (q * 100) := by
      rw [← Int.cast_natCast, Int.natAbs_of_nonneg hround]
    rw [Numeral.value_hundredths, habs, roundTo]
    norm_num

end FinOpsPipeline
