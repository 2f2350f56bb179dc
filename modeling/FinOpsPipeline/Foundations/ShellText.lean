import Mathlib

/-!
Text as the shell handles it: expansions, the lines and fields that `read` returns,
and the characters that are trimmed at both ends.

* `isUpper_iff`, `isLower_iff`, `isDigit_iff`, `toNat_toLower`: the classes of
  characters, and `tr '[:upper:]' '[:lower:]'`, by their numbers.
* `beforeFirst`, `afterFirst`: `${x%%c*}` and `${x#*c}`; `beforeFirst_append`,
  `afterFirst_append` split a text at its first separator.
* `substitute`: `$(…)`, without the line breaks at the end.
* `readLines`: the lines that a `read` loop sees, with `readLines_flatMap` for a file
  that was written line by line.
* `readThree`: the three fields of a line, with `readThree_line` for a line that was
  written with two tabs.
* `trim`: a text without the characters of a class at its ends, which is what
  `Trimmed` says (`trimmed_trim`); a trimmed text is left as it is (`trim_eq_self`).
-/

namespace FinOpsPipeline

namespace Shell

/-! ### Characters -/

lemma isUpper_iff {c : Char} : c.isUpper = true ↔ 65 ≤ c.toNat ∧ c.toNat ≤ 90 := by
  simp only [Char.isUpper, decide_eq_true_eq, ge_iff_le, UInt32.le_iff_toNat_le]
  exact Iff.rfl

lemma isLower_iff {c : Char} : c.isLower = true ↔ 97 ≤ c.toNat ∧ c.toNat ≤ 122 := by
  simp only [Char.isLower, Bool.and_eq_true, decide_eq_true_eq, ge_iff_le,
    UInt32.le_iff_toNat_le]
  exact Iff.rfl

lemma isDigit_iff {c : Char} : c.isDigit = true ↔ 48 ≤ c.toNat ∧ c.toNat ≤ 57 := by
  simp only [Char.isDigit, Bool.and_eq_true, decide_eq_true_eq, ge_iff_le,
    UInt32.le_iff_toNat_le]
  exact Iff.rfl

/-- Capital letters are moved onto the small ones. -/
lemma toNat_toLower (c : Char) :
    c.toLower.toNat = if c.isUpper then c.toNat + 32 else c.toNat := by
  have hiff : (c.val ≥ 'A'.val ∧ c.val ≤ 'Z'.val) ↔ c.isUpper = true := by
    rw [isUpper_iff, ge_iff_le, UInt32.le_iff_toNat_le, UInt32.le_iff_toNat_le]
    exact Iff.rfl
  by_cases h : c.isUpper = true
  · rw [if_pos h, Char.toLower, dif_pos (hiff.mpr h)]
    have hbound := isUpper_iff.mp h
    have hval : c.toNat = c.val.toNat := rfl
    show (c.val + ('a'.val - 'A'.val)).toNat = c.toNat + 32
    rw [UInt32.toNat_add, show ('a'.val - 'A'.val).toNat = 32 from rfl]
    omega
  · rw [if_neg h, Char.toLower, dif_neg (mt hiff.mp h)]

lemma toLower_eq_self {c : Char} (h : c.isUpper = false) : c.toLower = c := by
  rw [← Char.toNat_inj, toNat_toLower, h]
  rfl

/-! ### Expansions -/

/-- `${text%%c*}`. -/
def beforeFirst (c : Char) (text : List Char) : List Char := text.takeWhile (· ≠ c)

/-- `${text#*c}`, which is the text itself without the separator. -/
def afterFirst (c : Char) (text : List Char) : List Char :=
  if c ∈ text then (text.dropWhile (· ≠ c)).tail else text

/-- `$(…)` for a command that prints the text. -/
def substitute (text : List Char) : List Char := text.rdropWhile (· = '\n')

section Expansion

variable {c : Char} {u v : List Char}

lemma takeWhile_ne_append (hu : c ∉ u) : (u ++ c :: v).takeWhile (· ≠ c) = u := by
  rw [List.takeWhile_append_of_pos fun d hd => by simpa using fun h : d = c => hu (h ▸ hd)]
  simp

lemma dropWhile_ne_append (hu : c ∉ u) : (u ++ c :: v).dropWhile (· ≠ c) = c :: v := by
  rw [List.dropWhile_append_of_pos fun d hd => by simpa using fun h : d = c => hu (h ▸ hd)]
  simp

lemma beforeFirst_append (hu : c ∉ u) : beforeFirst c (u ++ c :: v) = u := takeWhile_ne_append hu

lemma afterFirst_append (hu : c ∉ u) : afterFirst c (u ++ c :: v) = v := by
  rw [afterFirst, if_pos (by simp), dropWhile_ne_append hu, List.tail_cons]

end Expansion

/-- A text that does not end in a line break is substituted as it is. -/
lemma substitute_eq_self {text : List Char} (h : '\n' ∉ text) : substitute text = text := by
  rw [substitute, List.rdropWhile_eq_self_iff]
  intro hne hlast
  exact h (by simpa using of_decide_eq_true hlast ▸ List.getLast_mem hne)

/-! ### Lines and fields -/

/-- The lines of a file, where `line` has been read backwards. What follows the last
line break makes `read` fail, so that the loop does not see it. -/
def readLinesFrom (line : List Char) : List Char → List (List Char)
  | [] => []
  | c :: text => if c = '\n' then line.reverse :: readLinesFrom [] text
      else readLinesFrom (c :: line) text

/-- `while read -r line; do …; done <file`. -/
def readLines (text : List Char) : List (List Char) := readLinesFrom [] text

/-- A whole line is read. -/
lemma readLinesFrom_append {line : List Char} (hline : '\n' ∉ line) (acc text : List Char) :
    readLinesFrom acc (line ++ '\n' :: text) = (acc.reverse ++ line) :: readLines text := by
  induction line generalizing acc with
  | nil => simp [readLinesFrom, readLines]
  | cons c line ih =>
      obtain ⟨hc, hrest⟩ := not_or.mp (mt List.mem_cons.mpr hline)
      rw [List.cons_append, readLinesFrom, if_neg (Ne.symm hc), ih hrest]
      simp

/-- **A file is read line by line as it was written.** -/
theorem readLines_flatMap {lines : List (List Char)} (h : ∀ line ∈ lines, '\n' ∉ line) :
    readLines (lines.flatMap fun line => line ++ ['\n']) = lines := by
  induction lines with
  | nil => rfl
  | cons line lines ih =>
      have htext : ((line :: lines).flatMap fun line => line ++ ['\n']) =
          line ++ '\n' :: lines.flatMap fun line => line ++ ['\n'] := by simp
      rw [readLines, htext, readLinesFrom_append (h line List.mem_cons_self),
        ih fun l hl => h l (List.mem_cons_of_mem _ hl)]
      rfl

/-- `IFS=$'\t' read -r first second third`: tabs at both ends are dropped, a run of tabs
separates two fields, and the third is all the rest. -/
def readThree (line : List Char) : List Char × List Char × List Char :=
  let stripped := (line.dropWhile (· = '\t')).rdropWhile (· = '\t')
  let rest := (stripped.dropWhile (· ≠ '\t')).dropWhile (· = '\t')
  (stripped.takeWhile (· ≠ '\t'), rest.takeWhile (· ≠ '\t'),
    (rest.dropWhile (· ≠ '\t')).dropWhile (· = '\t'))

/-- A text without tabs is not shortened by dropping tabs in front of it. -/
lemma dropWhile_tab {u v : List Char} (hne : u ≠ []) (hu : '\t' ∉ u) :
    (u ++ v).dropWhile (· = '\t') = u ++ v := by
  cases u with
  | nil => exact absurd rfl hne
  | cons c u =>
      have hc : c ≠ '\t' := fun h => hu (h ▸ List.mem_cons_self)
      simp [hc]

/-- **A line is read into the fields that it was written from.** -/
theorem readThree_line {first second third : List Char} (h₁ : first ≠ []) (h₂ : second ≠ [])
    (h₃ : third ≠ []) (ht₁ : '\t' ∉ first) (ht₂ : '\t' ∉ second) (ht₃ : '\t' ∉ third) :
    readThree (first ++ '\t' :: second ++ '\t' :: third) = (first, second, third) := by
  have hassoc : first ++ '\t' :: second ++ '\t' :: third =
      first ++ '\t' :: (second ++ '\t' :: third) := by simp
  have hright : (first ++ '\t' :: (second ++ '\t' :: third)).rdropWhile (· = '\t') =
      first ++ '\t' :: (second ++ '\t' :: third) := by
    rw [List.rdropWhile_eq_self_iff]
    intro hne hlast
    have hmem : (first ++ '\t' :: (second ++ '\t' :: third)).getLast hne ∈ third := by
      have happend : first ++ '\t' :: (second ++ '\t' :: third) =
          (first ++ '\t' :: second ++ ['\t']) ++ third := by simp
      simp only [happend, List.getLast_append_of_ne_nil _ h₃]
      exact List.getLast_mem h₃
    exact ht₃ (by simpa using of_decide_eq_true hlast ▸ hmem)
  have htab : ∀ {u : List Char}, u ≠ [] → '\t' ∉ u → ∀ v,
      ('\t' :: (u ++ v)).dropWhile (· = '\t') = u ++ v := by
    intro u hne hu v
    rw [List.dropWhile_cons_of_pos (by simp), dropWhile_tab hne hu]
  have hthird := htab h₃ ht₃ []
  rw [List.append_nil] at hthird
  simp only [readThree, hassoc, dropWhile_tab h₁ ht₁, hright, takeWhile_ne_append ht₁,
    dropWhile_ne_append ht₁, htab h₂ ht₂, takeWhile_ne_append ht₂, dropWhile_ne_append ht₂, hthird]

/-! ### Trimming -/

/-- `text` without the characters of `p` at its ends. -/
def trim (p : Char → Bool) (text : List Char) : List Char := (text.dropWhile p).rdropWhile p

/-- `text` neither begins nor ends with a character of `p`. -/
structure Trimmed (p : Char → Bool) (text : List Char) : Prop where
  head : ∀ c ∈ text.head?, p c = false
  last : ∀ c ∈ text.getLast?, p c = false

section Trim

variable {p : Char → Bool} {text : List Char}

/-- Trimming leaves a trimmed text. -/
lemma trimmed_trim (p : Char → Bool) (text : List Char) : Trimmed p (trim p text) where
  head c hc := by
    have hprefix : trim p text <+: text.dropWhile p := List.rdropWhile_prefix p _
    have hhead : (text.dropWhile p).head? = some c := by
      cases htrim : trim p text with
      | nil => simp [htrim] at hc
      | cons d rest =>
          rw [htrim] at hc hprefix
          obtain ⟨suffix, hsuffix⟩ := hprefix
          rw [← hsuffix, List.cons_append, List.head?_cons]
          exact hc
    have hdropped := List.head?_dropWhile_not p text
    rw [hhead] at hdropped
    exact hdropped
  last c hc := by
    have hne : trim p text ≠ [] := by
      rintro hnil
      simp [hnil] at hc
    have hlast := List.rdropWhile_last_not p (text.dropWhile p) hne
    rw [Option.mem_def, List.getLast?_eq_some_getLast hne, Option.some.injEq] at hc
    rw [← hc]
    exact Bool.eq_false_iff.mpr hlast

/-- A trimmed text is left as it is. -/
lemma trim_eq_self (h : Trimmed p text) : trim p text = text := by
  have hdrop : text.dropWhile p = text := by
    cases text with
    | nil => rfl
    | cons c text => rw [List.dropWhile_cons_of_neg (by simp [h.head c rfl])]
  rw [trim, hdrop, List.rdropWhile_eq_self_iff]
  intro hne hlast
  rw [h.last _ (List.getLast?_eq_some_getLast hne)] at hlast
  cases hlast

/-- Characters may be replaced before a text is trimmed or afterwards. -/
lemma trim_map (f : Char → Char) (p : Char → Bool) (text : List Char) :
    trim p (text.map f) = (trim (p ∘ f) text).map f := by
  rw [trim, trim, List.dropWhile_map, List.rdropWhile, List.rdropWhile, ← List.map_reverse,
    List.dropWhile_map, ← List.map_reverse]

end Trim

end Shell

end FinOpsPipeline
