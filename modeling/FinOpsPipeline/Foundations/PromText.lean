import Mathlib.Data.List.Basic
import Mathlib.Tactic.NormNum

/-!
The layers of text in a PromQL selector: a list of matchers, the double-quoted string
literal of a matcher, and the regular expression that it may hold. All are read from
left to right by a machine, so that a text that is put together from parts is read part
by part (`List.foldlM_append`).

* `decodeLiteral`: the bytes of the text between the double quotes. A backslash
  may only start one of the escapes `\a \b \f \n \r \t \v \\ \' \"`, an octal, a
  hexadecimal or a Unicode escape.
* `decodeLiteral_eq_utf8`: a text without backslashes, quotes and line breaks is
  its own value.
* `readSelector`: a query with one list of matchers, and `readSelector_written` for a
  list that was written from literals that are well formed.
* `parsePattern`: the regular expressions that are sequences of characters, dots
  and classes, each perhaps repeated with `+`; `Pattern.Matches` says which texts
  they match as a whole.
-/

namespace FinOpsPipeline

/-! ### String literals -/

/-- The bytes of a text. -/
def utf8 (s : List Char) : List UInt8 := s.flatMap String.utf8EncodeChar

/-- Where the reader of a literal stands: in the plain text, behind a backslash, or
in the digits of an escape, of which `left + 1` are missing. -/
inductive LiteralState where
  | plain
  | escape
  | code (base left value : ℕ) (rune : Bool)

/-- The value of a digit in a base. -/
def digitValue (base : ℕ) (c : Char) : Option ℕ :=
  let value :=
    if c.isDigit then c.toNat - '0'.toNat
    else if 'a' ≤ c ∧ c ≤ 'f' then c.toNat - 'a'.toNat + 10
    else if 'A' ≤ c ∧ c ≤ 'F' then c.toNat - 'A'.toNat + 10
    else base
  if value < base then some value else none

/-- The bytes of a finished escape: one byte, or those of a character. -/
def codeBytes (value : ℕ) (rune : Bool) : Option (List UInt8) :=
  if rune then
    if value.isValidChar then some (String.utf8EncodeChar (Char.ofNat value)) else none
  else if value < 256 then some [UInt8.ofNat value] else none

/-- The byte of a simple escape. -/
def simpleEscape : Char → Option UInt8
  | 'a' => some 7
  | 'b' => some 8
  | 't' => some 9
  | 'n' => some 10
  | 'v' => some 11
  | 'f' => some 12
  | 'r' => some 13
  | '"' => some 34
  | '\'' => some 39
  | '\\' => some 92
  | _ => none

/-- One character of a literal, with the bytes read so far. -/
def literalStep : LiteralState × List UInt8 → Char → Option (LiteralState × List UInt8)
  | (.plain, out), c =>
      if c = '\\' then some (.escape, out)
      else if c = '"' ∨ c = '\n' then none
      else some (.plain, out ++ String.utf8EncodeChar c)
  | (.escape, out), c =>
      match simpleEscape c with
      | some b => some (.plain, out ++ [b])
      | none =>
          if c = 'x' then some (.code 16 1 0 false, out)
          else if c = 'u' then some (.code 16 3 0 true, out)
          else if c = 'U' then some (.code 16 7 0 true, out)
          else (digitValue 8 c).map fun d => (.code 8 1 d false, out)
  | (.code base left value rune, out), c =>
      (digitValue base c).bind fun d =>
        if left = 0 then
          (codeBytes (value * base + d) rune).map fun bytes => (.plain, out ++ bytes)
        else some (.code base (left - 1) (value * base + d) rune, out)

/-- The value of a double-quoted literal, given the text between the quotes;
`none` when it is not well formed. -/
def decodeLiteral (s : List Char) : Option (List UInt8) :=
  match s.foldlM literalStep (.plain, []) with
  | some (.plain, out) => some out
  | _ => none

/-- A text is spelled so that each of its characters is read back. -/
lemma foldlM_literalStep_spell (spell : Char → List Char) {s : List Char}
    (h : ∀ c ∈ s, ∀ out, (spell c).foldlM literalStep (.plain, out) =
      some (.plain, out ++ String.utf8EncodeChar c)) (out : List UInt8) :
    (s.flatMap spell).foldlM literalStep (.plain, out) = some (.plain, out ++ utf8 s) := by
  induction s generalizing out with
  | nil => simp [utf8]
  | cons c s ih =>
      rw [List.flatMap_cons, List.foldlM_append, h c List.mem_cons_self]
      simp only [Option.bind_eq_bind, Option.bind_some]
      rw [ih fun d hd => h d (List.mem_cons_of_mem c hd)]
      simp [utf8]

/-- A plain character is read as its bytes. -/
lemma literalStep_plain {c : Char} (h : c ≠ '\\' ∧ c ≠ '"' ∧ c ≠ '\n') (out : List UInt8) :
    literalStep (.plain, out) c = some (.plain, out ++ String.utf8EncodeChar c) := by
  obtain ⟨hbackslash, hquote, hline⟩ := h
  simp [literalStep, hbackslash, hquote, hline]

/-- A plain text is read as its bytes. -/
lemma foldlM_literalStep {s : List Char} (h : ∀ c ∈ s, c ≠ '\\' ∧ c ≠ '"' ∧ c ≠ '\n')
    (out : List UInt8) : s.foldlM literalStep (.plain, out) = some (.plain, out ++ utf8 s) := by
  have hspell := foldlM_literalStep_spell (fun c => [c])
    (s := s) (fun c hc out => by simp [literalStep_plain (h c hc)]) out
  rw [List.flatMap_singleton'] at hspell
  exact hspell

/-- A text is determined by its bytes. -/
lemma utf8_injective : Function.Injective utf8 := by
  intro s t h
  have hbytes : s.utf8Encode = t.utf8Encode := congrArg List.toByteArray h
  have hdecode := congrArg ByteArray.utf8Decode? hbytes
  rw [List.utf8Decode?_utf8Encode, List.utf8Decode?_utf8Encode, Option.some.injEq] at hdecode
  exact List.toArray_inj hdecode

/-- **A text without escapes is its own value.** -/
theorem decodeLiteral_eq_utf8 {s : List Char} (h : ∀ c ∈ s, c ≠ '\\' ∧ c ≠ '"' ∧ c ≠ '\n') :
    decodeLiteral s = some (utf8 s) := by
  rw [decodeLiteral, foldlM_literalStep h]
  rfl

/-- **An unknown escape makes a literal ill formed.** -/
theorem decodeLiteral_of_badEscape {s t : List Char} {c : Char}
    (hs : ∀ d ∈ s, d ≠ '\\' ∧ d ≠ '"' ∧ d ≠ '\n')
    (hc : ∀ out, literalStep (.escape, out) c = none) :
    decodeLiteral (s ++ '\\' :: c :: t) = none := by
  have hbackslash : ∀ out, literalStep (.plain, out) '\\' = some (.escape, out) := fun out => rfl
  rw [decodeLiteral, List.foldlM_append, foldlM_literalStep hs]
  simp [hbackslash, hc]

/-! ### Matchers -/

/-- The comparisons of a matcher. -/
inductive MatchOp where
  | equal | notEqual | matches | notMatches
  deriving DecidableEq

/-- How a comparison is written. -/
def MatchOp.text : MatchOp → List Char
  | .equal => ['=']
  | .notEqual => ['!', '=']
  | .matches => ['=', '~']
  | .notMatches => ['!', '~']

/-- The comparison that a text spells. -/
def MatchOp.read (text : List Char) : Option MatchOp :=
  if text = ['='] then some .equal
  else if text = ['!', '='] then some .notEqual
  else if text = ['=', '~'] then some .matches
  else if text = ['!', '~'] then some .notMatches
  else none

/-- A matcher, with the bytes of its value. -/
structure Matcher where
  label : List Char
  op : MatchOp
  value : List UInt8
  deriving DecidableEq

/-- The characters of a label; the first one is no digit. -/
def isLabelChar (c : Char) : Bool := c.isAlphanum || c = '_'

/-- The names of labels. -/
def IsLabel (name : List Char) : Prop :=
  (∀ c ∈ name, isLabelChar c = true) ∧ ∃ c ∈ name.head?, c.isDigit = false

/-- Where the reader of a list of matchers stands: in a label, in a comparison, in a literal,
behind a literal, or behind the brace that ends the list. -/
inductive MatcherState where
  | label (name : List Char)
  | op (name op : List Char)
  | value (name : List Char) (op : MatchOp) (state : LiteralState) (out : List UInt8)
  | next
  | ended (after : List Char)

/-- A quote ends a literal, unless it is part of an escape. -/
def LiteralState.closes : LiteralState → Char → Bool
  | .plain, c => c = '"'
  | _, _ => false

/-- One character of a list of matchers, with the matchers read so far. White space and a
comma at the end are left out. -/
def matcherStep : List Matcher × MatcherState → Char → Option (List Matcher × MatcherState)
  | (matchers, .label name), c =>
      if isLabelChar c ∧ (name ≠ [] ∨ ¬ c.isDigit) then some (matchers, .label (name ++ [c]))
      else if name ≠ [] ∧ (c = '=' ∨ c = '!') then some (matchers, .op name [c])
      else none
  | (matchers, .op name op), c =>
      if c = '"' then (MatchOp.read op).map fun op => (matchers, .value name op .plain [])
      else some (matchers, .op name (op ++ [c]))
  | (matchers, .value name op state out), c =>
      if state.closes c then some (matchers ++ [⟨name, op, out⟩], .next)
      else (literalStep (state, out) c).map fun read =>
        (matchers, .value name op read.1 read.2)
  | (matchers, .next), c =>
      if c = ',' then some (matchers, .label [])
      else if c = '\x7d' then some (matchers, .ended [])
      else none
  | (matchers, .ended after), c => some (matchers, .ended (after ++ [c]))

/-- A query with one list of matchers. -/
structure Selector where
  before : List Char
  matchers : List Matcher
  after : List Char
  deriving DecidableEq

/-- The text in front of the first brace, the matchers behind it, and the text behind them. -/
def readSelector (text : List Char) : Option Selector :=
  match text.dropWhile (· ≠ '\x7b') with
  | [] => none
  | _ :: body =>
      match body.foldlM matcherStep ([], .label []) with
      | some (matchers, .ended after) => some ⟨text.takeWhile (· ≠ '\x7b'), matchers, after⟩
      | _ => none

/-- A matcher, with the text between the quotes given. -/
def writeMatcher (label : List Char) (op : MatchOp) (literal : List Char) : List Char :=
  label ++ (op.text ++ '"' :: (literal ++ ['"']))

/-- `text` is a matcher whose literal has the value. -/
def Matcher.WrittenAs (m : Matcher) (text : List Char) : Prop :=
  ∃ literal, IsLabel m.label ∧ decodeLiteral literal = some m.value ∧
    text = writeMatcher m.label m.op literal

/-- A label is read to its end. -/
lemma foldlM_label {name : List Char} (h : ∀ c ∈ name, isLabelChar c = true)
    {acc : List Char} (hacc : acc ≠ []) (matchers : List Matcher) :
    name.foldlM matcherStep (matchers, .label acc) = some (matchers, .label (acc ++ name)) := by
  induction name generalizing acc with
  | nil => simp
  | cons c name ih =>
      have hstep : matcherStep (matchers, .label acc) c =
          some (matchers, .label (acc ++ [c])) := by
        rw [matcherStep, if_pos ⟨h c List.mem_cons_self, .inl hacc⟩]
      rw [List.foldlM_cons, hstep]
      simp only [Option.bind_eq_bind, Option.bind_some]
      rw [ih (fun d hd => h d (List.mem_cons_of_mem c hd)) (by simp)]
      simp

/-- The value of a literal is read along with it. A quote that would end the literal early
is no character of a literal. -/
lemma foldlM_value {literal : List Char} {state state' : LiteralState} {out out' : List UInt8}
    (h : literal.foldlM literalStep (state, out) = some (state', out'))
    (matchers : List Matcher) (name : List Char) (op : MatchOp) :
    literal.foldlM matcherStep (matchers, .value name op state out) =
      some (matchers, .value name op state' out') := by
  induction literal generalizing state out with
  | nil =>
      obtain ⟨rfl, rfl⟩ : state = state' ∧ out = out' := by simpa using h
      rfl
  | cons c literal ih =>
      rw [List.foldlM_cons] at h ⊢
      obtain ⟨⟨middle, read⟩, hread, hrest⟩ := Option.bind_eq_some_iff.mp h
      have hopen : state.closes c = false := by
        cases state with
        | plain =>
            rw [LiteralState.closes, decide_eq_false_iff_not]
            rintro rfl
            cases hread
        | escape => rfl
        | code base left value rune => rfl
      rw [matcherStep, hopen, if_neg Bool.false_ne_true, hread]
      exact ih hrest

/-- A comparison is read up to the quote behind it. -/
lemma foldlM_op {name : List Char} (hname : name ≠ []) (op : MatchOp) (matchers : List Matcher) :
    (op.text ++ ['"']).foldlM matcherStep (matchers, .label name) =
      some (matchers, .value name op .plain []) := by
  have hequal : isLabelChar '=' = false := by decide
  have hbang : isLabelChar '!' = false := by decide
  cases op <;> simp [MatchOp.text, MatchOp.read, matcherStep, hequal, hbang, hname]

/-- A matcher is read as it was written. -/
lemma foldlM_matcher {m : Matcher} {text : List Char} (h : m.WrittenAs text)
    (matchers : List Matcher) :
    text.foldlM matcherStep (matchers, .label []) = some (matchers ++ [m], .next) := by
  obtain ⟨literal, ⟨hchars, c, hhead, hdigit⟩, hdecode, rfl⟩ := h
  obtain ⟨label, op, value⟩ := m
  obtain ⟨name, rfl⟩ : ∃ name, label = c :: name := List.head?_eq_some_iff.mp hhead
  have hfirst : matcherStep (matchers, .label []) c = some (matchers, .label [c]) := by
    rw [matcherStep, if_pos ⟨hchars c List.mem_cons_self, .inr (by simp [hdigit])⟩]
    rfl
  have hlabel : (c :: name).foldlM matcherStep (matchers, .label []) =
      some (matchers, .label (c :: name)) := by
    rw [List.foldlM_cons, hfirst]
    exact foldlM_label (fun d hd => hchars d (List.mem_cons_of_mem c hd)) (by simp) matchers
  have hliteral : literal.foldlM literalStep (.plain, []) = some (.plain, value) := by
    rw [decodeLiteral] at hdecode
    split at hdecode
    · next out hread => rw [hread, Option.some.inj hdecode]
    · cases hdecode
  have hclose : matcherStep (matchers, .value (c :: name) op .plain value) '"' =
      some (matchers ++ [⟨c :: name, op, value⟩], .next) := rfl
  have htext : writeMatcher (c :: name) op literal =
      (c :: name) ++ ((op.text ++ ['"']) ++ (literal ++ ['"'])) := by
    simp [writeMatcher]
  rw [htext, List.foldlM_append, hlabel]
  simp only [Option.bind_eq_bind, Option.bind_some]
  rw [List.foldlM_append, foldlM_op (List.cons_ne_nil c name)]
  simp only [Option.bind_eq_bind, Option.bind_some]
  rw [List.foldlM_append, foldlM_value hliteral]
  simp [hclose]

/-- What follows the list of matchers is kept. -/
lemma foldlM_ended (matchers : List Matcher) (before after : List Char) :
    after.foldlM matcherStep (matchers, .ended before) =
      some (matchers, .ended (before ++ after)) := by
  induction after generalizing before with
  | nil => simp
  | cons c after ih =>
      rw [List.foldlM_cons, matcherStep]
      simp only [Option.bind_eq_bind, Option.bind_some]
      rw [ih]
      simp

/-- Matchers are read as they were written, with commas between them. -/
lemma foldlM_matchers {ms : List Matcher} {texts : List (List Char)}
    (h : List.Forall₂ Matcher.WrittenAs ms texts) (hne : ms ≠ []) (matchers : List Matcher) :
    (List.intercalate [','] texts).foldlM matcherStep (matchers, .label []) =
      some (matchers ++ ms, .next) := by
  induction h generalizing matchers with
  | nil => exact absurd rfl hne
  | @cons m text ms texts hfirst hrest ih =>
      cases hrest with
      | nil =>
          rw [List.intercalate_singleton]
          exact foldlM_matcher hfirst matchers
      | @cons m' text' ms' texts' hsecond hrest =>
          have hcomma : matcherStep (matchers ++ [m], .next) ',' =
              some (matchers ++ [m], .label []) := rfl
          rw [List.intercalate_cons_cons, List.append_assoc, List.foldlM_append,
            foldlM_matcher hfirst]
          simp only [List.singleton_append, List.foldlM_cons, hcomma, Option.bind_eq_bind,
            Option.bind_some]
          rw [ih (List.cons_ne_nil m' ms')]
          simp

/-- **A list of matchers is read as it was written**: no value ends its literal early. -/
theorem readSelector_written {before after : List Char} {ms : List Matcher}
    {texts : List (List Char)} (hbefore : '\x7b' ∉ before) (hne : ms ≠ [])
    (h : List.Forall₂ Matcher.WrittenAs ms texts) :
    readSelector (before ++ '\x7b' :: (List.intercalate [','] texts ++ '\x7d' :: after)) =
      some ⟨before, ms, after⟩ := by
  have hdrop : ∀ c ∈ before, decide (c ≠ '\x7b') = true := fun c hc =>
    decide_eq_true fun heq => hbefore (heq ▸ hc)
  have hend : matcherStep (ms, .next) '\x7d' = some (ms, .ended []) := rfl
  have hbody : (List.intercalate [','] texts ++ '\x7d' :: after).foldlM matcherStep
      ([], .label []) = some (ms, .ended after) := by
    rw [List.foldlM_append, foldlM_matchers h hne]
    simp only [List.nil_append, List.foldlM_cons, hend, Option.bind_eq_bind, Option.bind_some]
    rw [foldlM_ended, List.nil_append]
  rw [readSelector, List.dropWhile_append_of_pos hdrop, List.takeWhile_append_of_pos hdrop]
  simp [hbody]

/-! ### Regular expressions -/

/-- One position of a pattern: a character, any character but a line break, or a
class of ranges. -/
inductive Atom where
  | lit (c : Char)
  | any
  | cls (ranges : List (Char × Char))
  deriving DecidableEq

/-- The characters of a position. -/
def Atom.accepts : Atom → Char → Bool
  | .lit d, c => c = d
  | .any, c => c ≠ '\n'
  | .cls ranges, c => ranges.any fun r => r.1 ≤ c ∧ c ≤ r.2

/-- A sequence of positions; `true` marks a repetition with `+`. -/
abbrev Pattern := List (Atom × Bool)

/-- The texts that a pattern matches as a whole. -/
def Pattern.Matches : Pattern → List Char → Prop
  | [], s => s = []
  | (a, false) :: rest, s => ∃ c t, s = c :: t ∧ a.accepts c = true ∧ Matches rest t
  | (a, true) :: rest, s =>
      ∃ u t, s = u ++ t ∧ u ≠ [] ∧ (∀ c ∈ u, a.accepts c = true) ∧ Matches rest t

/-- Where the reader of a pattern stands, with the positions read so far, the last
one first: at the start, between positions, behind a backslash, in a class, or
behind the final `$`. -/
inductive PatternState where
  | start
  | body (acc : Pattern)
  | escape (acc : Pattern)
  | inClass (acc : Pattern) (items : List Char)
  | ended (acc : Pattern)

/-- The ranges of a class. -/
def classRanges : List Char → List (Char × Char)
  | [] => []
  | [c] => [(c, c)]
  | [c, d] => [(c, c), (d, d)]
  | c :: d :: e :: r => if d = '-' then (c, e) :: classRanges r else (c, c) :: classRanges (d :: e :: r)

/-- A character between positions. -/
def bodyStep (acc : Pattern) (c : Char) : Option PatternState :=
  if c = '\\' then some (.escape acc)
  else if c = '[' then some (.inClass acc [])
  else if c = '.' then some (.body ((.any, false) :: acc))
  else if c = '$' then some (.ended acc)
  else if c = '+' then
    match acc with
    | (a, false) :: acc => some (.body ((a, true) :: acc))
    | _ => none
  else if c ∈ ['^', '*', '?', '(', ')', '|', '\x7b', '\x7d', ']'] then none
  else some (.body ((.lit c, false) :: acc))

/-- One character of a pattern. Only punctuation may be escaped, and classes are
not negated. -/
def patternStep : PatternState → Char → Option PatternState
  | .start, c => if c = '^' then some (.body []) else bodyStep [] c
  | .body acc, c => bodyStep acc c
  | .escape acc, c => if c.isAlphanum then none else some (.body ((.lit c, false) :: acc))
  | .inClass acc items, c =>
      if c = ']' then some (.body ((.cls (classRanges items.reverse), false) :: acc))
      else if c = '^' ∨ c = '\\' ∨ c = '[' then none
      else some (.inClass acc (c :: items))
  | .ended _, _ => none

/-- The pattern that a text spells; `none` outside of this fragment. -/
def parsePattern (s : List Char) : Option Pattern :=
  match s.foldlM patternStep .start with
  | some .start => some []
  | some (.body acc) => some acc.reverse
  | some (.ended acc) => some acc.reverse
  | _ => none

/-- A text is spelled so that each of its characters stands for itself. -/
lemma foldlM_patternStep_lit {s : List Char} {spell : Char → List Char}
    (h : ∀ c ∈ s, ∀ acc,
      (spell c).foldlM patternStep (.body acc) = some (.body ((.lit c, false) :: acc)))
    (acc : Pattern) :
    (s.flatMap spell).foldlM patternStep (.body acc) =
      some (.body ((s.map fun c => (Atom.lit c, false)).reverse ++ acc)) := by
  induction s generalizing acc with
  | nil => rfl
  | cons c s ih =>
      rw [List.flatMap_cons, List.foldlM_append, h c List.mem_cons_self]
      simp only [Option.bind_eq_bind, Option.bind_some]
      rw [ih fun d hd => h d (List.mem_cons_of_mem c hd)]
      simp

/-- Characters that stand for themselves match themselves. -/
lemma Pattern.matches_lit_append (s : List Char) (p : Pattern) (t : List Char) :
    Matches (s.map (fun c => (Atom.lit c, false)) ++ p) t ↔ ∃ u, t = s ++ u ∧ Matches p u := by
  induction s generalizing t with
  | nil => simp
  | cons c s ih =>
      simp only [List.map_cons, List.cons_append, Matches, ih]
      constructor
      · rintro ⟨d, t', rfl, hd, u, rfl, hu⟩
        have hcd : d = c := by simpa [Atom.accepts] using hd
        exact ⟨u, by rw [hcd], hu⟩
      · rintro ⟨u, rfl, hu⟩
        exact ⟨c, s ++ u, rfl, by simp [Atom.accepts], u, rfl, hu⟩

end FinOpsPipeline
