import FinOpsPipeline.Engine.Quantity

/-!
The values of the KRR output and their Kubernetes strings.

`_format_resource_value` passes quantity strings on and writes numbers of cores or
bytes as quantities; `parse_cpu` and `parse_memory` read the result. The two sides
do not know the same units: `100M` is passed on as it is and read as `100Mi`, and
`1500000n` of CPU is read as zero (`quantity_misread`).

* `formatResourceValue`: the encoder.
* `quantityAmount`, `numberAmount`: what a quantity string and a number of cores
  or bytes denote, in cores or MiB.
* `Agrees`, `ReadBack`: the decoder returns what the value denotes, and the values
  for which it does.
* `quantity_codec_agrees`: the two are equivalent.
-/

namespace FinOpsPipeline

open PyFloat
open scoped PyText

/-- The two resources. -/
inductive Resource where
  | cpu | memory
  deriving DecidableEq

/-- A value of the KRR output: a dictionary is given by its `value` entry, and
`other` is a list. -/
inductive KrrValue where
  | null
  | bool (b : Bool)
  | number (x : PyFloat)
  | text (s : String)
  | dict (value : KrrValue)
  | other

namespace KrrClient

/-! ### The encoder -/

/-- The units of the quantity strings that are passed on: `[num]` for CPU and
`[KMGTPE]i?|m` for memory. -/
def units : Resource → List (List Char)
  | .cpu => [['n'], ['u'], ['m']]
  | .memory =>
      [['K'], ['M'], ['G'], ['T'], ['P'], ['E'], ['K', 'i'], ['M', 'i'], ['G', 'i'], ['T', 'i'],
        ['P', 'i'], ['E', 'i'], ['m']]

/-- The longest prefix that matches `[0-9]+(?:\.[0-9]+)?`, and the rest. -/
def scanPlain (s : List Char) : Option (Numeral × List Char) :=
  let whole := s.takeWhile Char.isDigit
  if whole = [] then none
  else
    let fracRest := scanFrac (s.dropWhile Char.isDigit)
    some (⟨whole, fracRest.1, []⟩, fracRest.2)

/-- The number and the unit of a text that is a quantity of the resource. -/
def quantityParts (resource : Resource) (s : List Char) : Option (Numeral × List Char) :=
  (scanPlain s).filter fun p => p.2 ∈ units resource

/-- The string of a number of cores or bytes; `none` when a special value has to
become a whole number. -/
def formatNumber (resource : Resource) (val : PyFloat) : Option String :=
  match resource with
  | .cpu =>
      if lt val (fin 1) then
        (roundInt (val * fin 1000)).map fun z => String.ofList (intText z ++ ['m'])
      else some (String.ofList (roundedText val))
  | .memory =>
      let mib := val / fin (1024 * 1024)
      if le (fin 1024) mib && eq (mib % fin 1024) (fin 0) then
        (truncInt (mib / fin 1024)).map fun z => String.ofList (intText z ++ ['G', 'i'])
      else (roundInt mib).map fun z => String.ofList (intText z ++ ['M', 'i'])

/-- The value itself, or the `value` entry of a dictionary. -/
def amount : KrrValue → KrrValue
  | .dict value => value
  | val => val

/-- `_format_resource_value`: the outer `none` when it raises, the inner one for an
unknown value. -/
def formatResourceValue (val : KrrValue) (resource : Resource) : Option (Option String) :=
  match amount val with
  | .null => some none
  | .bool b => (formatNumber resource (fin (if b then 1 else 0))).map some
  | .number x => (formatNumber resource x).map some
  | .text s =>
      let t := strip s.toList
      if t = [] ∨ t = ['?'] then some none
      else if (quantityParts resource t).isSome then some (some (String.ofList t))
      else
        match readFloat t with
        | some x => (formatNumber resource x).map some
        | none => some none
  | .dict _ | .other => none

/-! ### What a value denotes -/

/-- The factor of a Kubernetes unit. -/
def unitFactor : List Char → ℚ
  | ['n'] => 1 / 10 ^ 9
  | ['u'] => 1 / 10 ^ 6
  | ['m'] => 1 / 10 ^ 3
  | ['K'] => 10 ^ 3
  | ['M'] => 10 ^ 6
  | ['G'] => 10 ^ 9
  | ['T'] => 10 ^ 12
  | ['P'] => 10 ^ 15
  | ['E'] => 10 ^ 18
  | ['K', 'i'] => 2 ^ 10
  | ['M', 'i'] => 2 ^ 20
  | ['G', 'i'] => 2 ^ 30
  | ['T', 'i'] => 2 ^ 40
  | ['P', 'i'] => 2 ^ 50
  | ['E', 'i'] => 2 ^ 60
  | _ => 1

/-- The base units of a resource, in the units of the engine: cores are cores, and
bytes are a fraction of a MiB. -/
def baseUnit : Resource → ℚ
  | .cpu => 1
  | .memory => 1 / 2 ^ 20

/-- The text of a value, without white space around it. -/
def quantityText (val : KrrValue) : List Char :=
  match amount val with
  | .text s => strip s.toList
  | _ => []

/-- The cores or MiB that a quantity string denotes. -/
def quantityAmount (resource : Resource) (val : KrrValue) : Option ℚ :=
  (quantityParts resource (quantityText val)).map fun p =>
    p.1.value * unitFactor p.2 * baseUnit resource

/-- The number that a value is, or that its text is without a unit. -/
def numberOf (resource : Resource) (val : KrrValue) : Option PyFloat :=
  match amount val with
  | .bool b => some (fin (if b then 1 else 0))
  | .number x => some x
  | .text _ =>
      if (quantityParts resource (quantityText val)).isSome then none
      else readFloat (quantityText val)
  | _ => none

/-- The cores or MiB that a finite number of cores or bytes denotes. -/
def toAmount (resource : Resource) : PyFloat → Option ℚ
  | fin q => some (q * baseUnit resource)
  | _ => none

/-- The cores or MiB that a number, or a text of one without a unit, denotes. -/
def numberAmount (resource : Resource) (val : KrrValue) : Option ℚ :=
  (numberOf resource val).bind (toAmount resource)

/-- `parse_cpu` and `parse_memory`. -/
def parseQuantity : Resource → String → PyFloat
  | .cpu => parseCpu
  | .memory => parseMemory

/-- Half a unit of the last printed digit. -/
def halfUnit : Resource → ℚ → ℚ
  | .cpu, q => if q < 1 then 1 / (2 * 1000) else 1 / (2 * 100)
  | .memory, _ => 1 / 2

/-- The string `s` is read as what the value denotes: exactly for a quantity
string, and within half a unit of the last printed digit for a number. -/
def Agrees (resource : Resource) (val : KrrValue) (s : String) : Prop :=
  (∀ q, quantityAmount resource val = some q → parseQuantity resource s = fin q) ∧
    ∀ q, numberAmount resource val = some q →
      ∃ p, parseQuantity resource s = fin p ∧ |q - p| ≤ halfUnit resource q

/-- The units that the decoder knows by their Kubernetes meaning. -/
def readUnits : Resource → List (List Char)
  | .cpu => [['m']]
  | .memory => [['K', 'i'], ['M', 'i'], ['G', 'i'], ['T', 'i']]

/-- The values that are read back: a quantity string has a unit that the decoder
knows, or is zero, and a number of bytes is not below minus half a MiB. -/
def ReadBack (resource : Resource) (val : KrrValue) : Prop :=
  (∀ p, quantityParts resource (quantityText val) = some p →
      p.2 ∈ readUnits resource ∨ p.1.value = 0) ∧
    ∀ q, numberAmount resource val = some q → resource = .memory → -(1 / 2) ≤ q

/-! ### Reading quantities -/

/-- The text of a fraction and what follows it. -/
lemma scanFrac_append (r : List Char) :
    (∀ c ∈ (scanFrac r).1, c.isDigit = true) ∧
      (if (scanFrac r).1 = [] then [] else '.' :: (scanFrac r).1) ++ (scanFrac r).2 = r := by
  rw [scanFrac.eq_def]
  split
  · split
    · exact ⟨by simp, rfl⟩
    · rename_i hne
      refine ⟨fun c hc => List.mem_takeWhile_imp hc, ?_⟩
      simp only [List.cons_append, List.takeWhile_append_dropWhile]
  · exact ⟨by simp, rfl⟩

/-- A scanned number is a numeral at the front of the text. -/
lemma scanPlain_eq_some {s rest : List Char} {n : Numeral} (h : scanPlain s = some (n, rest)) :
    n.Ok ∧ s = n.render ++ rest := by
  rw [scanPlain] at h
  split at h
  · cases h
  · rename_i hne
    cases h
    obtain ⟨hfrac, hrest⟩ := scanFrac_append (s.dropWhile Char.isDigit)
    refine ⟨⟨hne, fun c hc => List.mem_takeWhile_imp hc, hfrac, by simp⟩, ?_⟩
    calc s = s.takeWhile Char.isDigit ++ s.dropWhile Char.isDigit :=
          List.takeWhile_append_dropWhile.symm
      _ = _ := by
          rw [Numeral.render, List.append_assoc, if_pos rfl, List.append_nil, hrest]

/-- The factor by which the decoder reads a unit. -/
def readFactor : Resource → List Char → ℚ
  | .cpu, unit => if unit = ['m'] then 1 / 1000 else 0
  | .memory, unit =>
      if unit = ['T', 'i'] ∨ unit = ['T'] then 1024 * 1024
      else if unit = ['G', 'i'] ∨ unit = ['G'] then 1024
      else if unit = ['M', 'i'] ∨ unit = ['M'] ∨ unit = ['m'] then 1
      else if unit = ['K', 'i'] ∨ unit = ['K'] then 1 / 1024
      else 1 / (1024 * 1024)

/-- The decoder reads a unit by its Kubernetes meaning exactly when it knows it. -/
lemma readFactor_eq_iff (resource : Resource) :
    ∀ unit ∈ units resource,
      readFactor resource unit = unitFactor unit * baseUnit resource ↔
        unit ∈ readUnits resource := by
  cases resource <;> decide +kernel

/-- The units of memory by their spelling in lower case. -/
lemma lower_units :
    ∀ unit ∈ units .memory,
      (∀ c ∈ unit, c.isAlpha = true) ∧
      (lower unit = ['t', 'i'] ∨ lower unit = ['t'] ↔ unit = ['T', 'i'] ∨ unit = ['T']) ∧
      (lower unit = ['g', 'i'] ∨ lower unit = ['g'] ↔ unit = ['G', 'i'] ∨ unit = ['G']) ∧
      (lower unit = ['m', 'i'] ∨ lower unit = ['m'] ↔
        unit = ['M', 'i'] ∨ unit = ['M'] ∨ unit = ['m']) ∧
      (lower unit = ['k', 'i'] ∨ lower unit = ['k'] ↔ unit = ['K', 'i'] ∨ unit = ['K']) := by
  decide

/-- **A quantity string is read by the factor of its unit.** -/
theorem parseQuantity_parts {resource : Resource} {s unit : List Char} {n : Numeral}
    (h : quantityParts resource s = some (n, unit)) :
    parseQuantity resource (String.ofList s) = fin (n.value * readFactor resource unit) := by
  obtain ⟨hscan, hmem⟩ := Option.filter_eq_some_iff.mp h
  obtain ⟨hn, rfl⟩ := scanPlain_eq_some hscan
  have hunit : unit ∈ units resource := of_decide_eq_true hmem
  cases resource with
  | cpu =>
      have hzero : ∀ unit', unit' = ['n'] ∨ unit' = ['u'] →
          parseCpu (String.ofList (n.render ++ unit')) = fin (n.value * 0) := by
        rintro _ (rfl | rfl)
        · rw [parseCpu_letters hn (by decide) (by decide) (by decide) (by decide), mul_zero]
        · rw [parseCpu_letters hn (by decide) (by decide) (by decide) (by decide), mul_zero]
      simp only [units, List.mem_cons, List.not_mem_nil, or_false] at hunit
      rcases hunit with rfl | rfl | rfl
      · exact hzero _ (.inl rfl)
      · exact hzero _ (.inr rfl)
      · rw [parseQuantity, parseCpu_milli hn, readFactor, if_pos rfl, mul_one_div]
  | memory =>
      obtain ⟨halpha, ht, hg, hm, hk⟩ := lower_units unit hunit
      rw [parseQuantity, parseMemory_unit hn halpha]
      simp only [memoryUnit, ht, hg, hm, hk, readFactor, fin_mul, fin_div]
      split_ifs <;> ring_nf

/-! ### Reading numbers -/

/-- A number of cores is written as a CPU value of the engine. -/
lemma formatNumber_cpu (val : PyFloat) : formatNumber .cpu val = formatCpu val := rfl

/-- A number of bytes is written as a memory value of the engine. -/
lemma formatNumber_memory (val : PyFloat) :
    formatNumber .memory val = formatMemory (val / fin (1024 * 1024)) := rfl

/-- **A number of cores is read back within half a unit.** -/
theorem parseCpu_formatNumber {q : ℚ} {s : String} (h : formatNumber .cpu (fin q) = some s) :
    ∃ p, parseCpu s = fin p ∧ |q - p| ≤ halfUnit .cpu q := by
  obtain ⟨s', hs', hparse⟩ := parseCpu_formatCpu q
  rw [formatNumber_cpu, hs'] at h
  cases h
  exact ⟨cpuGrid q, hparse, abs_sub_cpuGrid_le q⟩

/-- **A number of bytes is read back within half a MiB** exactly when it is not
below minus half a MiB. -/
theorem parseMemory_formatMemory_iff {q : ℚ} {s : String} (h : formatMemory (fin q) = some s) :
    (∃ p, parseMemory s = fin p ∧ |q - p| ≤ 1 / 2) ↔ -(1 / 2) ≤ q := by
  by_cases hq : 0 ≤ q
  · obtain ⟨s', hs', hparse⟩ := parseMemory_formatMemory hq
    rw [hs'] at h
    cases h
    exact iff_of_true ⟨memoryGrid q, hparse, abs_sub_roundHalfEven_le q⟩ (by linarith)
  · have hneg : q < 0 := not_le.mp hq
    rw [formatMemory_mi (fun hlarge => hq (by linarith [hlarge.1]))] at h
    cases h
    obtain ⟨hlow, hup⟩ := abs_le.mp (abs_sub_roundHalfEven_le q)
    -- a negative whole number of MiB is not understood, and zero is read back
    have hzero : parseMemory (String.ofList (intText (roundHalfEven q) ++ ['M', 'i'])) = fin 0 := by
      rcases lt_or_ge (roundHalfEven q) 0 with hz | hz
      · exact parseMemory_intText_neg hz (by decide)
      · have hle : roundHalfEven q ≤ 0 := roundHalfEven_le (by exact_mod_cast hneg.le)
        rw [parseMemory_intText hz (by decide), le_antisymm hle hz]
        rfl
    rw [hzero]
    constructor
    · rintro ⟨p, hp, hdist⟩
      cases hp
      rw [sub_zero] at hdist
      exact (abs_le.mp hdist).1
    · intro hge
      refine ⟨0, rfl, ?_⟩
      rw [sub_zero]
      exact abs_le.mpr ⟨hge, by linarith⟩

/-! ### The codec -/

/-- A returned string is a quantity string passed on, or a number that was written. -/
lemma formatResourceValue_cases {val : KrrValue} {resource : Resource} {s : String}
    (h : formatResourceValue val resource = some (some s)) :
    (∃ p, quantityParts resource (quantityText val) = some p ∧ numberOf resource val = none ∧
        s = String.ofList (quantityText val)) ∨
      quantityParts resource (quantityText val) = none ∧
        ∃ x, numberOf resource val = some x ∧ formatNumber resource x = some s := by
  have hempty : quantityParts resource [] = none := rfl
  rw [formatResourceValue] at h
  cases hval : amount val with
  | null => simp [hval] at h
  | bool b =>
      refine .inr ⟨by simp [quantityText, hval, hempty], fin (if b then 1 else 0), ?_, ?_⟩
      · simp only [numberOf, hval]
      · simpa [hval] using h
  | number x =>
      refine .inr ⟨by simp [quantityText, hval, hempty], x, ?_, ?_⟩
      · simp only [numberOf, hval]
      · simpa [hval] using h
  | dict value => simp [hval] at h
  | other => simp [hval] at h
  | text t =>
      have htext : quantityText val = strip t.toList := by simp only [quantityText, hval]
      simp only [hval, ← htext] at h
      split at h
      · cases h
      · split at h
        · rename_i hparts
          obtain ⟨p, hp⟩ := Option.isSome_iff_exists.mp hparts
          cases h
          exact .inl ⟨p, hp, by simp only [numberOf, hval, hparts, if_true], rfl⟩
        · rename_i hparts
          refine .inr ⟨Option.not_isSome_iff_eq_none.mp hparts, ?_⟩
          split at h
          · rename_i x hx
            refine ⟨x, ?_, by simpa using h⟩
            simp only [numberOf, hval, if_neg hparts, hx]
          · cases h

/-- **Encoder and decoder**: a returned string is read as what the value denotes
exactly for the values that are read back. -/
theorem quantity_codec_agrees {val : KrrValue} {resource : Resource} {s : String}
    (h : formatResourceValue val resource = some (some s)) :
    Agrees resource val s ↔ ReadBack resource val := by
  rcases formatResourceValue_cases h with ⟨⟨n, unit⟩, hparts, hnumber, rfl⟩ | ⟨hparts, x, hx, hs⟩
  · have hmem : unit ∈ units resource :=
      of_decide_eq_true (Option.filter_eq_some_iff.mp hparts).2
    have hfactor := readFactor_eq_iff resource unit hmem
    have hread : parseQuantity resource (String.ofList (quantityText val)) =
          fin (n.value * unitFactor unit * baseUnit resource) ↔
        unit ∈ readUnits resource ∨ n.value = 0 := by
      rw [parseQuantity_parts hparts, fin.injEq, mul_assoc, mul_eq_mul_left_iff, hfactor]
    simp only [Agrees, ReadBack, quantityAmount, numberAmount, hparts, hnumber, Option.map_some,
      Option.bind_none, Option.some.injEq, forall_eq', hread]
    simp
  · have hnumber : numberAmount resource val = toAmount resource x := by
      rw [numberAmount, hx, Option.bind_some]
    simp only [Agrees, ReadBack, quantityAmount, hparts, Option.map_none]
    cases x with
    | fin q =>
        cases resource with
        | cpu =>
            have hread := parseCpu_formatNumber hs
            simpa [hnumber, toAmount, baseUnit, parseQuantity] using hread
        | memory =>
            have hscale : q * baseUnit .memory = q / (1024 * 1024) := by
              rw [baseUnit]
              ring
            rw [formatNumber_memory, fin_div, ← hscale] at hs
            have hread := parseMemory_formatMemory_iff hs
            simpa [hnumber, toAmount, parseQuantity, halfUnit] using hread
    | inf b => simp [hnumber, toAmount]
    | nan => simp [hnumber, toAmount]

/-- `512Mi` of memory is passed on and read as 512 MiB. -/
theorem quantity_codec_agrees_mi : Agrees .memory (.text "512Mi") "512Mi" := by
  have h : formatResourceValue (.text "512Mi") .memory = some (some "512Mi") := by decide +kernel
  refine (quantity_codec_agrees h).mpr ⟨?_, ?_⟩
  · rintro ⟨n, unit⟩ hp
    have hparts : quantityParts .memory (quantityText (.text "512Mi")) =
        some (⟨['5', '1', '2'], [], []⟩, ['M', 'i']) := by rfl
    rw [hparts] at hp
    cases hp
    exact .inl (by decide)
  · intro q hq
    have hnone : numberAmount .memory (.text "512Mi") = none := by decide +kernel
    rw [hnone] at hq
    cases hq

/-- `100M` of memory, that is 95.4 MiB, is read as 100 MiB, and `1500000n` of CPU as
zero. -/
theorem quantity_misread :
    formatResourceValue (.text "100M") .memory = some (some "100M") ∧
      quantityAmount .memory (.text "100M") = some (100 * 10 ^ 6 / 2 ^ 20) ∧
      parseMemory "100M" = fin 100 ∧
      formatResourceValue (.text "1500000n") .cpu = some (some "1500000n") ∧
      quantityAmount .cpu (.text "1500000n") = some (15 / 10 ^ 4) ∧
      parseCpu "1500000n" = fin 0 := by
  decide +kernel

end KrrClient

end FinOpsPipeline
