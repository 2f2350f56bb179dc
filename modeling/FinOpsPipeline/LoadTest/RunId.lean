import FinOpsPipeline.Foundations.PyText
import FinOpsPipeline.Foundations.ShellText

/-!
The identifier of a run as a Kubernetes name (`safe_run_id` in
`run-bank-krr-test.sh`).

* `safeRunId`: the four stages of the function on a line of ASCII text.
* `IsName`: the texts that Kubernetes takes for a label value, and for the name of
  the pod that reads the results (`isName_readerName`).
* `safeRunId_sound_iff`: the result is empty or such a name, and stays as it is when
  the function is called again, exactly when the cut does not leave a hyphen at the
  end.
-/

namespace FinOpsPipeline

open scoped PyText

namespace LoadTest

open Shell

/-- The first replacement of `sed`, on one character. -/
def nameChar (c : Char) : Char := if c.isLower ∨ c.isDigit ∨ c = '-' then c else '-'

/-- `safe_run_id`: `tr`, the three replacements of `sed`, and `cut`. -/
def safeRunId (runId : List Char) : List Char :=
  (trim (· = '-') ((runId.map Char.toLower).map nameChar)).take 32

/-- `reader`, the name of the pod that copies the results. -/
def readerName (safeId : List Char) : List Char := "bank-results-reader-".toList ++ safeId

/-- The names that Kubernetes takes, with at most `limit` characters. -/
structure IsName (limit : ℕ) (name : List Char) : Prop where
  length_le : name.length ≤ limit
  chars : ∀ c ∈ name, c.isLower = true ∨ c.isDigit = true ∨ c = '-'
  head : ∃ c ∈ name.head?, c.isLower = true ∨ c.isDigit = true
  last : ∃ c ∈ name.getLast?, c.isLower = true ∨ c.isDigit = true

/-- The identifier becomes a name, or is refused as empty, and is not changed by being
made safe again. -/
def MadeSafe (runId : List Char) : Prop :=
  (safeRunId runId = [] ∨ IsName 32 (safeRunId runId)) ∧
    safeRunId (safeRunId runId) = safeRunId runId

/-- The identifier without the punctuation at its ends is not cut behind punctuation. -/
def CutBehindWord (runId : List Char) : Prop :=
  ∀ c ∈ (trim (fun c => !c.isAlphanum) runId)[31]?, c.isAlphanum = true

/-! ### Characters -/

/-- The replaced characters are those of a name. -/
lemma nameChar_cases (c : Char) :
    (nameChar c).isLower = true ∨ (nameChar c).isDigit = true ∨ nameChar c = '-' := by
  rw [nameChar]
  split_ifs with h
  · exact h
  · exact .inr (.inr rfl)

/-- A character of a name is neither made small nor replaced. -/
lemma nameChar_toLower {c : Char} (h : c.isLower = true ∨ c.isDigit = true ∨ c = '-') :
    nameChar c.toLower = c := by
  have hupper : c.isUpper = false := by
    rw [Bool.eq_false_iff, Ne, isUpper_iff]
    obtain h | h | rfl := h
    · have := isLower_iff.mp h
      omega
    · have := isDigit_iff.mp h
      omega
    · decide
  rw [toLower_eq_self hupper, nameChar, if_pos h]

/-- A letter or digit is no hyphen. -/
lemma ne_hyphen {c : Char} (h : c.isLower = true ∨ c.isDigit = true) : c ≠ '-' := by
  rintro rfl
  exact absurd h (by decide)

/-- Letters and digits become small letters and digits. -/
lemma nameChar_toLower_of_isAlphanum {c : Char} (h : c.isAlphanum = true) :
    (nameChar c.toLower).isLower = true ∨ (nameChar c.toLower).isDigit = true := by
  have hkept : c.toLower.isLower = true ∨ c.toLower.isDigit = true := by
    by_cases hupper : c.isUpper = true
    · have hbound := isUpper_iff.mp hupper
      refine .inl (isLower_iff.mpr ?_)
      rw [toNat_toLower, if_pos hupper]
      omega
    · rw [Bool.not_eq_true] at hupper
      rw [toLower_eq_self hupper]
      simpa [Char.isAlphanum, Char.isAlpha, hupper] using h
  rw [nameChar, if_pos (by tauto)]
  exact hkept

/-- Exactly the punctuation becomes a hyphen. -/
lemma nameChar_toLower_eq_hyphen (c : Char) :
    nameChar c.toLower = '-' ↔ c.isAlphanum = false := by
  constructor
  · intro hhyphen
    by_contra halnum
    exact ne_hyphen (nameChar_toLower_of_isAlphanum (by simpa using halnum)) hhyphen
  · intro halnum
    have hparts : (c.isUpper = false ∧ c.isLower = false) ∧ c.isDigit = false := by
      simpa [Char.isAlphanum, Char.isAlpha] using halnum
    rw [toLower_eq_self hparts.1.1, nameChar, hparts.1.2, hparts.2]
    simp

/-! ### Identifiers -/

variable {runId : List Char}

/-- The cut takes the first characters of the trimmed identifier, with each character
replaced. -/
lemma safeRunId_eq (runId : List Char) :
    safeRunId runId =
      ((trim (fun c => !c.isAlphanum) runId).map (nameChar ∘ Char.toLower)).take 32 := by
  have hclass : ((fun c : Char => decide (c = '-')) ∘ (nameChar ∘ Char.toLower)) =
      fun c => !c.isAlphanum := by
    funext c
    rw [Bool.eq_iff_iff]
    simp [nameChar_toLower_eq_hyphen c]
  rw [safeRunId, List.map_map, trim_map, hclass]

/-- The identifier is made of the characters of a name. -/
lemma safeRunId_chars {c : Char} (h : c ∈ safeRunId runId) :
    c.isLower = true ∨ c.isDigit = true ∨ c = '-' := by
  rw [safeRunId_eq] at h
  obtain ⟨d, -, rfl⟩ := List.mem_map.mp (List.mem_of_mem_take h)
  exact nameChar_cases d.toLower

/-- What does not end in a hyphen is a name, and stays as it is. -/
lemma madeSafe_of_last (h : ∀ c ∈ (safeRunId runId).getLast?, c ≠ '-') : MadeSafe runId := by
  have htrimmed : Trimmed (· = '-') (safeRunId runId) := by
    constructor
    · intro c hc
      have hhead := (trimmed_trim (· = '-') ((runId.map Char.toLower).map nameChar)).head c
      rw [safeRunId, List.head?_take, if_neg (by decide)] at hc
      exact hhead hc
    · intro c hc
      exact decide_eq_false (h c hc)
  have hlength : (safeRunId runId).length ≤ 32 := List.length_take_le _ _
  have hword : ∀ c ∈ safeRunId runId, decide (c = '-') = false →
      c.isLower = true ∨ c.isDigit = true := by
    intro c hc hne
    obtain hlower | hdigit | hhyphen := safeRunId_chars hc
    · exact .inl hlower
    · exact .inr hdigit
    · exact absurd hhyphen (of_decide_eq_false hne)
  refine ⟨?_, ?_⟩
  · by_cases hnil : safeRunId runId = []
    · exact .inl hnil
    · refine .inr ⟨hlength, fun c => safeRunId_chars, ?_, ?_⟩
      · have hhead := List.head?_eq_some_head hnil
        exact ⟨_, hhead, hword _ (List.head_mem hnil) (htrimmed.head _ hhead)⟩
      · have hlast := List.getLast?_eq_some_getLast hnil
        exact ⟨_, hlast, hword _ (List.getLast_mem hnil) (htrimmed.last _ hlast)⟩
  · have hsame : ((safeRunId runId).map Char.toLower).map nameChar = safeRunId runId := by
      rw [List.map_map]
      exact (List.map_congr_left fun c hc => nameChar_toLower (safeRunId_chars hc)).trans
        (List.map_id _)
    rw [safeRunId, hsame, trim_eq_self htrimmed, List.take_of_length_le hlength]

/-- The identifier ends in the 32nd character, or in the last one of a short text. -/
lemma getLast?_safeRunId (runId : List Char) :
    (safeRunId runId).getLast? =
      ((trim (fun c => !c.isAlphanum) runId)[31]?.map (nameChar ∘ Char.toLower)).or
        (((trim (fun c => !c.isAlphanum) runId).getLast?).map (nameChar ∘ Char.toLower)) := by
  rw [safeRunId_eq, List.getLast?_take, if_neg (by decide), List.getElem?_map, List.getLast?_map]

/-- What is not cut behind punctuation ends in a letter or a digit of the text. -/
lemma CutBehindWord.last (h : CutBehindWord runId) {c : Char}
    (hc : c ∈ (safeRunId runId).getLast?) :
    ∃ d : Char, nameChar d.toLower = c ∧ d.isAlphanum = true := by
  rw [getLast?_safeRunId] at hc
  cases hcore : (trim (fun c => !c.isAlphanum) runId)[31]? with
  | some d =>
      rw [hcore, Option.map_some, Option.some_or] at hc
      exact ⟨d, Option.some.inj hc, h d hcore⟩
  | none =>
      rw [hcore, Option.map_none, Option.none_or] at hc
      obtain ⟨d, hd, hdc⟩ := Option.map_eq_some_iff.mp hc
      refine ⟨d, hdc, ?_⟩
      simpa using (trimmed_trim (fun c => !c.isAlphanum) runId).last d hd

/-- **An identifier is made safe exactly when it is not cut behind punctuation.** The
identifier is then empty or a Kubernetes name of at most 32 characters, and making it safe
again changes nothing. -/
theorem safeRunId_sound_iff (runId : List Char) : MadeSafe runId ↔ CutBehindWord runId := by
  constructor
  · rintro ⟨hname, -⟩ c hc
    have hlast := getLast?_safeRunId runId
    rw [hc, Option.map_some, Option.some_or] at hlast
    obtain hnil | hname := hname
    · simp [hnil] at hlast
    · obtain ⟨d, hd, hword⟩ := hname.last
      obtain rfl : d = (nameChar ∘ Char.toLower) c := by
        rw [hlast] at hd
        exact (Option.some.inj hd).symm
      by_contra halnum
      exact ne_hyphen hword ((nameChar_toLower_eq_hyphen c).mpr (by simpa using halnum))
  · intro hcut
    refine madeSafe_of_last fun c hc hhyphen => ?_
    obtain ⟨d, rfl, halnum⟩ := hcut.last hc
    rw [nameChar_toLower_eq_hyphen, halnum] at hhyphen
    cases hhyphen

/-- A long identifier is cut behind a hyphen. -/
theorem safeRunId_ends_in_hyphen :
    (∀ c ∈ "boa-pre-20260714-103000-replica-2".toList, c.toNat < 128 ∧ c ≠ '\n') ∧
      safeRunId "boa-pre-20260714-103000-replica-2".toList =
        "boa-pre-20260714-103000-replica-".toList ∧
      ¬ MadeSafe "boa-pre-20260714-103000-replica-2".toList := by
  have hcut : safeRunId "boa-pre-20260714-103000-replica-2".toList =
      "boa-pre-20260714-103000-replica-".toList := by decide +kernel
  refine ⟨by decide +kernel, hcut, ?_⟩
  rintro ⟨hnil | hname, -⟩
  · rw [hcut] at hnil
    exact absurd hnil (by decide +kernel)
  · obtain ⟨c, hc, hword⟩ := hname.last
    rw [hcut] at hc
    have hhyphen : "boa-pre-20260714-103000-replica-".toList.getLast? = some '-' := by
      decide +kernel
    rw [hhyphen, Option.mem_some_iff] at hc
    exact ne_hyphen hword hc.symm

/-- A longer name, behind a text that begins with a letter. -/
lemma IsName.prepend {first name : List Char} {limit : ℕ} {c : Char} (h : IsName limit name)
    (hhead : first.head? = some c) (hletter : c.isLower = true)
    (hchars : ∀ d ∈ first, d.isLower = true ∨ d.isDigit = true ∨ d = '-') :
    IsName (first.length + limit) (first ++ name) := by
  constructor
  · rw [List.length_append]
    exact Nat.add_le_add_left h.length_le _
  · intro d hd
    obtain hd | hd := List.mem_append.mp hd
    · exact hchars d hd
    · exact h.chars d hd
  · refine ⟨c, ?_, .inl hletter⟩
    rw [Option.mem_def, List.head?_append, hhead, Option.some_or]
  · obtain ⟨d, hd, hword⟩ := h.last
    refine ⟨d, ?_, hword⟩
    rw [Option.mem_def, List.getLast?_append, hd, Option.some_or]

/-- The pod that reads the results of a safe identifier has a name. -/
theorem isName_readerName {safeId : List Char} (h : IsName 32 safeId) :
    IsName 63 (readerName safeId) := by
  have hhead : "bank-results-reader-".toList.head? = some 'b' := by decide +kernel
  have hlength : "bank-results-reader-".toList.length = 20 := by decide +kernel
  have hname := h.prepend hhead (by decide) (by decide +kernel)
  rw [hlength] at hname
  exact { hname with length_le := hname.length_le.trans (by decide) }

end LoadTest

end FinOpsPipeline
