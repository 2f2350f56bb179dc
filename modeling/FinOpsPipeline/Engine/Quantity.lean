import FinOpsPipeline.Foundations.PyText

/-!
The quantities of `finops/app/engine.py`: CPU in cores and memory in MiB, read
from and written to Kubernetes strings.

* `parseCpu`, `parseMemory`: text that is not understood is read as zero.
* `formatCpu`, `formatMemory`: they raise only on a special value that has to
  become a whole number.
* `cpuGrid`, `memoryGrid`: the number that a formatted value denotes;
  `parseCpu_formatCpu` and `parseMemory_formatMemory` read it back, and
  `cpuGrid_mono`, `memoryGrid_mono` say that formatting keeps the order.
-/

namespace FinOpsPipeline

open PyFloat
open scoped PyText

/-! ### Reading and writing -/

/-- `parse_cpu`. -/
def parseCpu (cpuStr : String) : PyFloat :=
  if cpuStr = "" then fin 0
  else
    let s := lower (strip cpuStr.toList)
    if s.getLast? = some 'm' then ((readFloat s.dropLast).map (· / fin 1000)).getD (fin 0)
    else (readFloat s).getD (fin 0)

/-- The conversion to MiB that `parse_memory` chooses by the unit in lower case. -/
def memoryUnit (unit : List Char) (val : PyFloat) : PyFloat :=
  if unit = ['t', 'i'] ∨ unit = ['t'] then val * fin 1024 * fin 1024
  else if unit = ['g', 'i'] ∨ unit = ['g'] then val * fin 1024
  else if unit = ['m', 'i'] ∨ unit = ['m'] then val
  else if unit = ['k', 'i'] ∨ unit = ['k'] then val / fin 1024
  else val / fin (1024 * 1024)

/-- `parse_memory`. -/
def parseMemory (memStr : String) : PyFloat :=
  if memStr = "" then fin 0
  else
    match scanNumber (strip memStr.toList) with
    | none => fin 0
    | some (val, rest) =>
        let unit := rest.dropWhile isSpace
        if unit.all Char.isAlpha then memoryUnit (lower unit) (fin val) else fin 0

/-- `format_cpu`. -/
def formatCpu (cores : PyFloat) : Option String :=
  if lt cores (fin 1) then
    (roundInt (cores * fin 1000)).map fun z => String.ofList (intText z ++ ['m'])
  else some (String.ofList (roundedText cores))

/-- `format_memory`. -/
def formatMemory (mib : PyFloat) : Option String :=
  if le (fin 1024) mib && eq (mib % fin 1024) (fin 0) then
    (truncInt (mib / fin 1024)).map fun z => String.ofList (intText z ++ ['G', 'i'])
  else (roundInt mib).map fun z => String.ofList (intText z ++ ['M', 'i'])

/-! ### Reading numerals with a unit -/

lemma ofList_ne_empty {t : List Char} (h : t ≠ []) : String.ofList t ≠ "" := by
  intro heq
  have hlist := congrArg String.toList heq
  exact h (by simpa using hlist)

/-- The reading of a CPU text that is not changed by `strip` and `lower`. -/
lemma parseCpu_ofList {t : List Char} (hne : t ≠ []) (hspace : ∀ c ∈ t, isSpace c = false)
    (hlower : ∀ c ∈ t, c.toLower = c) :
    parseCpu (String.ofList t) =
      if t.getLast? = some 'm' then ((readFloat t.dropLast).map (· / fin 1000)).getD (fin 0)
      else (readFloat t).getD (fin 0) := by
  rw [parseCpu, if_neg (ofList_ne_empty hne), String.toList_ofList, strip_eq_self hspace,
    lower_eq_self hlower]

/-- A numeral with letters behind it is not changed by `strip`, nor by `lower`
if the letters are lower case. -/
lemma numeral_letters_facts {n : Numeral} (h : n.Ok) {unit : List Char}
    (hunit : ∀ c ∈ unit, c.isAlpha = true) {c : Char} (hc : c ∈ n.render ++ unit) :
    isSpace c = false ∧ ((∀ d ∈ unit, d.toLower = d) → c.toLower = c) := by
  rcases List.mem_append.mp hc with hnum | hletter
  · exact ⟨(h.char_facts hnum).1, fun _ => (h.char_facts hnum).2.1⟩
  · exact ⟨isSpace_of_isAlpha (hunit c hletter), fun hlower => hlower c hletter⟩

lemma numeral_append_ne_nil {n : Numeral} (h : n.Ok) (unit : List Char) :
    n.render ++ unit ≠ [] := by
  obtain ⟨c, s, hcons, _⟩ := h.head
  simp [hcons]

/-- **Millicores are read exactly.** -/
lemma parseCpu_milli {n : Numeral} (h : n.Ok) :
    parseCpu (String.ofList (n.render ++ ['m'])) = fin (n.value / 1000) := by
  have hfacts : ∀ c ∈ n.render ++ ['m'],
      isSpace c = false ∧ ((∀ d ∈ ['m'], d.toLower = d) → c.toLower = c) :=
    fun c hc => numeral_letters_facts h (by decide) hc
  rw [parseCpu_ofList (numeral_append_ne_nil h _) (fun c hc => (hfacts c hc).1)
    fun c hc => (hfacts c hc).2 (by decide)]
  simp [Numeral.readFloat_render h]

/-- A numeral without a unit is a number of cores. -/
lemma parseCpu_render {n : Numeral} (h : n.Ok) :
    parseCpu (String.ofList n.render) = fin n.value := by
  have hne : n.render ≠ [] := by simpa using numeral_append_ne_nil h []
  have hlast : n.render.getLast? ≠ some 'm' := by
    intro hm
    rcases h.chars (List.mem_of_getLast? hm) with hd | hd | hd | hd <;> cases hd
  rw [parseCpu_ofList hne (fun c hc => (h.char_facts hc).1) fun c hc => (h.char_facts hc).2.1,
    if_neg hlast, Numeral.readFloat_render h, Option.getD_some]

/-- A unit that `parse_cpu` does not know makes it read zero. -/
lemma parseCpu_letters {n : Numeral} (h : n.Ok) {unit : List Char} (hne : unit ≠ [])
    (hunit : ∀ c ∈ unit, c.isAlpha = true) (hlower : ∀ c ∈ unit, c.toLower = c)
    (hlast : unit.getLast? ≠ some 'm') :
    parseCpu (String.ofList (n.render ++ unit)) = fin 0 := by
  have hfacts := fun c hc => numeral_letters_facts (c := c) h hunit hc
  have hlast' : (n.render ++ unit).getLast? ≠ some 'm' := by
    rwa [List.getLast?_append_of_ne_nil _ hne]
  rw [parseCpu_ofList (numeral_append_ne_nil h _) (fun c hc => (hfacts c hc).1)
    fun c hc => (hfacts c hc).2 hlower, if_neg hlast', Numeral.readFloat_letters h hne hunit,
    Option.getD_none]

/-- **A numeral with a unit of letters is read by its unit.** -/
lemma parseMemory_unit {n : Numeral} (h : n.Ok) {unit : List Char}
    (hunit : ∀ c ∈ unit, c.isAlpha = true) :
    parseMemory (String.ofList (n.render ++ unit)) = memoryUnit (lower unit) (fin n.value) := by
  have hfacts := fun c hc => numeral_letters_facts (c := c) h hunit hc
  have hdrop : unit.dropWhile isSpace = unit := by
    cases unit with
    | nil => rfl
    | cons c unit => simp [isSpace_of_isAlpha (hunit c List.mem_cons_self)]
  have hall : unit.all Char.isAlpha = true := List.all_eq_true.mpr hunit
  rw [parseMemory, if_neg (ofList_ne_empty (numeral_append_ne_nil h _)), String.toList_ofList,
    strip_eq_self fun c hc => (hfacts c hc).1, Numeral.scanNumber_render h hunit]
  simp only [hdrop, hall, if_true]

/-- **A memory string is read as a finite number that is not negative.** -/
lemma parseMemory_eq_fin (s : String) : ∃ q : ℚ, 0 ≤ q ∧ parseMemory s = fin q := by
  have hunit : ∀ (unit : List Char) (val : ℚ), 0 ≤ val →
      ∃ q : ℚ, 0 ≤ q ∧ memoryUnit unit (fin val) = fin q := by
    intro unit val hval
    simp only [memoryUnit, fin_mul, fin_div]
    split_ifs <;> exact ⟨_, by positivity, rfl⟩
  rw [parseMemory]
  split
  · exact ⟨0, le_rfl, rfl⟩
  · split
    · exact ⟨0, le_rfl, rfl⟩
    · rename_i val rest hscan
      by_cases hall : (rest.dropWhile isSpace).all Char.isAlpha = true
      · simp only [if_pos hall]
        exact hunit _ _ (scanNumber_nonneg hscan)
      · simp only [if_neg hall]
        exact ⟨0, le_rfl, rfl⟩

/-! ### Formatting and reading back -/

/-- The number of cores that a formatted CPU value denotes. -/
def cpuGrid (q : ℚ) : ℚ := if q < 1 then roundTo 1000 q else roundTo 100 q

/-- The number of MiB that a formatted memory value denotes. -/
def memoryGrid (q : ℚ) : ℚ := roundHalfEven q

lemma cpuGrid_of_lt {q : ℚ} (h : q < 1) : cpuGrid q = roundTo 1000 q := if_pos h

lemma cpuGrid_of_le {q : ℚ} (h : 1 ≤ q) : cpuGrid q = roundTo 100 q := if_neg (not_lt.mpr h)

/-- **Formatting keeps the order of CPU values.** -/
theorem cpuGrid_mono {p q : ℚ} (h : p ≤ q) : cpuGrid p ≤ cpuGrid q := by
  by_cases hq : q < 1
  · rw [cpuGrid_of_lt hq, cpuGrid_of_lt (h.trans_lt hq)]
    exact roundTo_mono _ h
  · rw [cpuGrid_of_le (not_lt.mp hq)]
    by_cases hp : p < 1
    · rw [cpuGrid_of_lt hp]
      have hlow : roundTo 1000 p ≤ 1 := by
        exact_mod_cast roundTo_le (n := 1) (by norm_num) (by exact_mod_cast hp.le)
      have hup : 1 ≤ roundTo 100 q := by
        exact_mod_cast le_roundTo (n := 1) (by norm_num) (by exact_mod_cast not_lt.mp hq)
      exact hlow.trans hup
    · rw [cpuGrid_of_le (not_lt.mp hp)]
      exact roundTo_mono _ h

lemma cpuGrid_nonneg {q : ℚ} (h : 0 ≤ q) : 0 ≤ cpuGrid q := by
  rw [cpuGrid]
  split <;> exact roundTo_nonneg _ h

/-- **The error of a formatted CPU value**: half a millicore below one core, and
half of a hundredth core from there on. -/
theorem abs_sub_cpuGrid_le (q : ℚ) :
    |q - cpuGrid q| ≤ if q < 1 then 1 / (2 * 1000) else 1 / (2 * 100) := by
  by_cases h : q < 1
  · rw [cpuGrid_of_lt h, if_pos h]
    exact abs_sub_roundTo_le (s := 1000) (by norm_num) q
  · rw [cpuGrid_of_le (not_lt.mp h), if_neg h]
    exact abs_sub_roundTo_le (s := 100) (by norm_num) q

/-- A formatted CPU value is formatted as itself. -/
lemma cpuGrid_idem (q : ℚ) : cpuGrid (cpuGrid q) = cpuGrid q := by
  by_cases h : q < 1
  · rw [cpuGrid_of_lt h]
    have hle : roundTo 1000 q ≤ 1 := by
      exact_mod_cast roundTo_le (n := 1) (by norm_num) (by exact_mod_cast h.le)
    rcases hle.lt_or_eq with hlt | heq
    · rw [cpuGrid_of_lt hlt, roundTo_idem (by norm_num)]
    · rw [heq, cpuGrid_of_le le_rfl]
      exact_mod_cast roundTo_intCast (s := 100) (by norm_num) 1
  · have hq : 1 ≤ q := not_lt.mp h
    have hle : 1 ≤ roundTo 100 q := by
      exact_mod_cast le_roundTo (n := 1) (by norm_num) (by exact_mod_cast hq)
    rw [cpuGrid_of_le hq, cpuGrid_of_le hle, roundTo_idem (by norm_num)]

/-- Whole MiB are formatted as themselves. -/
@[simp] lemma memoryGrid_intCast (n : ℤ) : memoryGrid n = n := by
  rw [memoryGrid, roundHalfEven_intCast]

/-- **Formatting keeps the order of memory values.** -/
theorem memoryGrid_mono {p q : ℚ} (h : p ≤ q) : memoryGrid p ≤ memoryGrid q := by
  rw [memoryGrid, memoryGrid]
  exact_mod_cast roundHalfEven_mono h

/-- Whole millicores are read back. -/
lemma parseCpu_intText (z : ℤ) :
    parseCpu (String.ofList (intText z ++ ['m'])) = fin (z / 1000) := by
  have hchars : ∀ c ∈ intText z ++ ['m'], isSpace c = false ∧ c.toLower = c := by
    intro c hc
    rcases List.mem_append.mp hc with hint | hm
    · rcases intText_chars hint with hd | rfl
      · exact ⟨(digit_facts hd).1, (digit_facts hd).2.1⟩
      · decide
    · rw [List.mem_singleton.mp hm]
      decide
  rw [parseCpu_ofList (by simp) (fun c hc => (hchars c hc).1) fun c hc => (hchars c hc).2]
  simp [readFloat_intText]

/-- Less than a core is written in millicores. -/
lemma formatCpu_of_lt {q : ℚ} (h : q < 1) :
    formatCpu (fin q) = some (String.ofList (intText (roundHalfEven (q * 1000)) ++ ['m'])) := by
  rw [formatCpu, lt_fin, if_pos (decide_eq_true h)]
  rfl

/-- A core or more is written with two decimal places. -/
lemma formatCpu_of_le {q : ℚ} (h : 1 ≤ q) :
    formatCpu (fin q) = some (String.ofList (roundedText (fin q))) := by
  rw [formatCpu, lt_fin, if_neg (by simpa using h)]

/-- **A formatted CPU value is read back on the grid.** -/
theorem parseCpu_formatCpu (q : ℚ) :
    ∃ s, formatCpu (fin q) = some s ∧ parseCpu s = fin (cpuGrid q) := by
  by_cases h : q < 1
  · refine ⟨_, formatCpu_of_lt h, ?_⟩
    rw [parseCpu_intText, cpuGrid_of_lt h, roundTo]
    norm_num
  · have hq : (1 : ℚ) ≤ q := not_lt.mp h
    obtain ⟨n, hn, htext, hvalue⟩ := roundedText_fin (q := q) (by linarith)
    refine ⟨_, formatCpu_of_le hq, ?_⟩
    rw [htext, parseCpu_render hn, hvalue, cpuGrid_of_le hq]

/-- The infinite CPU value is read back. -/
lemma parseCpu_formatCpu_inf :
    formatCpu (inf false) = some "inf" ∧ parseCpu "inf" = inf false := by
  decide

/-- Whole units of memory are read back. -/
lemma parseMemory_intText {z : ℤ} (hz : 0 ≤ z) {unit : List Char}
    (hunit : ∀ c ∈ unit, c.isAlpha = true) :
    parseMemory (String.ofList (intText z ++ unit)) = memoryUnit (lower unit) (fin z) := by
  have htext : intText z = (Numeral.ofNat z.natAbs).render := by
    rw [intText, if_neg (not_lt.mpr hz), Numeral.render_ofNat]
  have hcast : ((z.natAbs : ℕ) : ℚ) = z := by rw [← Int.cast_natCast, Int.natAbs_of_nonneg hz]
  rw [htext, parseMemory_unit (Numeral.ofNat_ok _) hunit, Numeral.value_ofNat, hcast]

/-- Negative whole units of memory are not understood. -/
lemma parseMemory_intText_neg {z : ℤ} (hz : z < 0) {unit : List Char}
    (hunit : ∀ c ∈ unit, c.isAlpha = true) :
    parseMemory (String.ofList (intText z ++ unit)) = fin 0 := by
  have hspace : ∀ c ∈ intText z ++ unit, isSpace c = false := by
    intro c hc
    rcases List.mem_append.mp hc with hint | hletter
    · rcases intText_chars hint with hd | rfl
      · exact (digit_facts hd).1
      · decide
    · exact isSpace_of_isAlpha (hunit c hletter)
  have hne : intText z ++ unit ≠ [] := by simp [intText_ne_nil]
  have hscan : scanNumber (intText z ++ unit) = none := by
    rw [intText, if_pos hz]
    rfl
  rw [parseMemory, if_neg (ofList_ne_empty hne), String.toList_ofList, strip_eq_self hspace, hscan]

/-- Whole GiB are written as such. -/
lemma formatMemory_gi {n : ℤ} (h : (1024 : ℚ) ≤ n * 1024) :
    formatMemory (fin (n * 1024)) = some (String.ofList (intText n ++ ['G', 'i'])) := by
  have hmod : eq (fin ((n : ℚ) * 1024) % fin 1024) (fin 0) = true :=
    (fin_mod_eq_zero (by norm_num)).mpr ⟨n, rfl⟩
  have hn : (0 : ℚ) ≤ n := by linarith
  have hwhole : truncInt (fin ((n : ℚ) * 1024) / fin 1024) = some n := by
    rw [fin_div, mul_div_cancel_right₀ _ (by norm_num), truncInt, if_pos hn, Int.floor_intCast]
  rw [formatMemory, hmod, le_fin, decide_eq_true h, Bool.and_self, if_pos rfl, hwhole]
  rfl

/-- Everything else is rounded to whole MiB. -/
lemma formatMemory_mi {q : ℚ} (h : ¬ (1024 ≤ q ∧ ∃ n : ℤ, q = n * 1024)) :
    formatMemory (fin q) = some (String.ofList (intText (roundHalfEven q) ++ ['M', 'i'])) := by
  have hcond : ¬ (le (fin 1024) (fin q) && eq (fin q % fin 1024) (fin 0)) = true := by
    intro hboth
    obtain ⟨hle, hmod⟩ := Bool.and_eq_true_iff.mp hboth
    exact h ⟨by simpa using hle, (fin_mod_eq_zero (by norm_num)).mp hmod⟩
  rw [formatMemory, if_neg hcond]
  rfl

/-- **A formatted memory value is read back on the grid.** -/
theorem parseMemory_formatMemory {q : ℚ} (hq : 0 ≤ q) :
    ∃ s, formatMemory (fin q) = some s ∧ parseMemory s = fin (memoryGrid q) := by
  by_cases h : 1024 ≤ q ∧ ∃ n : ℤ, q = n * 1024
  · obtain ⟨hlarge, n, rfl⟩ := h
    have hn : 0 ≤ n := by
      have : (0 : ℚ) ≤ n := by linarith
      exact_mod_cast this
    have hgrid : memoryGrid ((n : ℚ) * 1024) = n * 1024 := by
      exact_mod_cast memoryGrid_intCast (n * 1024)
    refine ⟨_, formatMemory_gi hlarge, ?_⟩
    rw [parseMemory_intText hn (by decide), hgrid]
    rfl
  · refine ⟨_, formatMemory_mi h, ?_⟩
    rw [parseMemory_intText (roundHalfEven_nonneg hq) (by decide)]
    rfl

end FinOpsPipeline
