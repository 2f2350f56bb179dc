import FinOpsPipeline.Clients.Prometheus
import FinOpsPipeline.Foundations.PromText

/-!
The pod selector of the Prometheus queries.

`_pod_regex` escapes the name of the workload for the regular expression, and the
result is placed between double quotes as it is. A string literal of PromQL does
not know the escapes `\-` and `\.`, so that the queries of a name with `-` or `.`
are rejected (`hyphen_not_encoded`).

* `parsePattern_podRegex`: the regular expression matches the name followed by two
  generated segments, for every name.
* `decodeLiteral_podRegex`: it is its own literal exactly without `-` and `.`.
* `pod_selector_encoded`: the two together.
-/

namespace FinOpsPipeline

open scoped PyText

namespace PrometheusClient

/-! ### Names and segments -/

/-- A lower-case letter or a digit. -/
def isNameChar (c : Char) : Bool := ('a' ≤ c ∧ c ≤ 'z') ∨ ('0' ≤ c ∧ c ≤ '9')

/-- The characters of a Kubernetes name. -/
def KubernetesName (name : String) : Prop :=
  ∀ c ∈ name.toList, isNameChar c = true ∨ c = '-' ∨ c = '.'

instance (name : String) : Decidable (KubernetesName name) :=
  inferInstanceAs (Decidable (∀ c ∈ name.toList, _))

/-- A generated segment of a pod name. -/
def Segment (s : List Char) : Prop := s ≠ [] ∧ ∀ c ∈ s, isNameChar c = true

/-- The name has neither of the two characters that are escaped. -/
def NoEscapes (name : String) : Prop := ∀ c ∈ name.toList, c ≠ '-' ∧ c ≠ '.'

instance (name : String) : Decidable (NoEscapes name) :=
  inferInstanceAs (Decidable (∀ c ∈ name.toList, _))

/-- A text stands somewhere in another one. -/
def OccursIn (t s : String) : Prop := ∃ pre post, s = pre ++ t ++ post

/-- The queries hold the regular expression of the name as a literal: each query
places it between double quotes, the literal is well formed and has it as its
value, and it matches the pod names of the workload. -/
structure Encodes (deploymentName : String) : Prop where
  query : ∀ (query : PromQuery) (ns : String) (containerName : Option String),
    OccursIn (podSelector deploymentName) (query.text deploymentName ns containerName)
  literal : decodeLiteral (podRegex deploymentName).toList =
    some (utf8 (podRegex deploymentName).toList)
  pattern : ∃ p, parsePattern (podRegex deploymentName).toList = some p ∧
    ∀ pod, p.Matches pod ↔ ∃ hash id, Segment hash ∧ Segment id ∧
      pod = deploymentName.toList ++ '-' :: (hash ++ '-' :: id)

/-! ### The queries -/

lemma OccursIn.append_left {t s : String} (h : OccursIn t s) (r : String) : OccursIn t (r ++ s) := by
  obtain ⟨pre, post, rfl⟩ := h
  exact ⟨r ++ pre, post, by simp only [String.append_assoc]⟩

lemma OccursIn.append_right {t s : String} (h : OccursIn t s) (r : String) :
    OccursIn t (s ++ r) := by
  obtain ⟨pre, post, rfl⟩ := h
  exact ⟨pre, post ++ r, by simp only [String.append_assoc]⟩

/-- Every query places the pod selector. -/
lemma podSelector_occursIn (query : PromQuery) (deploymentName ns : String)
    (containerName : Option String) :
    OccursIn (podSelector deploymentName) (query.text deploymentName ns containerName) := by
  have hself : OccursIn (podSelector deploymentName) (podSelector deploymentName) :=
    ⟨"", "", by simp⟩
  have hworkload : OccursIn (podSelector deploymentName) (workloadSelector deploymentName ns) :=
    hself.append_left _
  have hrequests : ∀ resource, OccursIn (podSelector deploymentName)
      (requestsQuery resource deploymentName ns containerName) := fun resource =>
    ((hworkload.append_left _).append_right _).append_right _
  cases query with
  | cpuRequest => exact ((hrequests "cpu").append_left _).append_right _
  | memoryRequest => exact ((hrequests "memory").append_left _).append_right _
  | oomKilled => exact ((hworkload.append_left _).append_right _).append_right _
  | restarts => exact ((hworkload.append_left _).append_right _).append_right _
  | cpuUsage => exact ((hrequests "cpu").append_left _).append_right _
  | throttling => exact (hworkload.append_left _).append_right _

/-! ### The regular expression -/

/-- The text of the regular expression. -/
lemma toList_podRegex (deploymentName : String) :
    (podRegex deploymentName).toList =
      '^' :: (reEscape deploymentName.toList ++ "-[a-z0-9]+-[a-z0-9]+$".toList) := by
  simp [podRegex]

/-- The pattern of the two generated segments. -/
def segmentsPattern : Pattern :=
  [(.lit '-', false), (.cls [('a', 'z'), ('0', '9')], true),
    (.lit '-', false), (.cls [('a', 'z'), ('0', '9')], true)]

/-- Name characters are no special characters. -/
lemma not_mem_of_isNameChar {c : Char} (h : isNameChar c = true) {l : List Char}
    (hl : ∀ d ∈ l, isNameChar d = false) : c ∉ l := by
  intro hmem
  rw [hl c hmem] at h
  cases h

lemma reEscape_of_isNameChar {c : Char} (h : isNameChar c = true) : c ∉ specialChars :=
  not_mem_of_isNameChar h (by decide)

/-- A name character stands for itself in a pattern. -/
lemma bodyStep_of_isNameChar {c : Char} (h : isNameChar c = true) (acc : Pattern) :
    bodyStep acc c = some (.body ((.lit c, false) :: acc)) := by
  have hspecial : c ∉ ['\\', '[', '.', '$', '+'] := not_mem_of_isNameChar h (by decide)
  have hother : c ∉ ['^', '*', '?', '(', ')', '|', '\x7b', '\x7d', ']'] :=
    not_mem_of_isNameChar h (by decide)
  simp only [List.mem_cons, List.not_mem_nil, or_false, not_or] at hspecial
  simp only [bodyStep, hspecial, hother, if_false]

/-- An escaped name spells its characters. -/
lemma foldlM_reEscape {name : String} (h : KubernetesName name) (acc : Pattern) :
    (reEscape name.toList).foldlM patternStep (.body acc) =
      some (.body ((name.toList.map fun c => (Atom.lit c, false)).reverse ++ acc)) := by
  refine foldlM_patternStep_lit ?_ acc
  intro c hc acc
  rcases h c hc with hname | rfl | rfl
  · rw [if_neg (reEscape_of_isNameChar hname), List.foldlM_cons]
    simp [patternStep, bodyStep_of_isNameChar hname]
  · rfl
  · rfl

/-- A hyphen and a repeated class spell the start of the pattern of the segments. -/
lemma foldlM_segment (acc : Pattern) :
    ['-', '[', 'a', '-', 'z', '0', '-', '9', ']', '+'].foldlM patternStep (.body acc) =
      some (.body ((.cls [('a', 'z'), ('0', '9')], true) :: (.lit '-', false) :: acc)) := by
  simp [patternStep, bodyStep, classRanges]

/-- **The regular expression of a name** spells the name and two segments. -/
theorem parsePattern_podRegex {name : String} (h : KubernetesName name) :
    parsePattern (podRegex name).toList =
      some (name.toList.map (fun c => (Atom.lit c, false)) ++ segmentsPattern) := by
  have htext : "-[a-z0-9]+-[a-z0-9]+$".toList =
      ['-', '[', 'a', '-', 'z', '0', '-', '9', ']', '+'] ++
        (['-', '[', 'a', '-', 'z', '0', '-', '9', ']', '+'] ++ ['$']) := by simp
  have hend : ∀ acc : Pattern, ['$'].foldlM patternStep (.body acc) = some (.ended acc) :=
    fun acc => rfl
  have hstart : patternStep .start '^' = some (.body []) := rfl
  rw [parsePattern, toList_podRegex, htext, List.foldlM_cons, hstart]
  simp only [Option.bind_eq_bind, Option.bind_some, List.foldlM_append, foldlM_reEscape h,
    foldlM_segment, hend]
  simp [segmentsPattern]

/-- The texts of the two generated segments. -/
lemma segmentsPattern_matches (s : List Char) :
    segmentsPattern.Matches s ↔
      ∃ hash id, Segment hash ∧ Segment id ∧ s = '-' :: (hash ++ '-' :: id) := by
  have hclass : ∀ c, (Atom.cls [('a', 'z'), ('0', '9')]).accepts c = isNameChar c := by
    intro c
    simp [Atom.accepts, isNameChar]
  simp only [segmentsPattern, Pattern.Matches, hclass]
  constructor
  · rintro ⟨c, t, rfl, hc, hash, u, rfl, hne, hhash, d, v, rfl, hd, id, w, rfl, hne', hid, rfl⟩
    have hc' : c = '-' := by simpa [Atom.accepts] using hc
    have hd' : d = '-' := by simpa [Atom.accepts] using hd
    exact ⟨hash, id, ⟨hne, hhash⟩, ⟨hne', hid⟩, by rw [hc', hd', List.append_nil]⟩
  · rintro ⟨hash, id, ⟨hne, hhash⟩, ⟨hne', hid⟩, rfl⟩
    exact ⟨'-', _, rfl, rfl, hash, _, rfl, hne, hhash, '-', _, rfl, rfl, id, [], by simp, hne',
      hid, rfl⟩

/-! ### The literal -/

/-- Without the two characters nothing is escaped. -/
lemma reEscape_eq_self {s : List Char} (h : ∀ c ∈ s, isNameChar c = true) : reEscape s = s := by
  induction s with
  | nil => rfl
  | cons c s ih =>
      have hc : c ∉ specialChars := reEscape_of_isNameChar (h c List.mem_cons_self)
      rw [reEscape, List.flatMap_cons, if_neg hc]
      exact congrArg (c :: ·) (ih fun d hd => h d (List.mem_cons_of_mem c hd))

/-- The other characters of a literal of a name are plain. -/
lemma plain_of_isNameChar {c : Char} (h : isNameChar c = true) : c ≠ '\\' ∧ c ≠ '"' ∧ c ≠ '\n' := by
  have hspecial : c ∉ ['\\', '"', '\n'] := not_mem_of_isNameChar h (by decide)
  simpa using hspecial

/-- A name with one of the two characters has a first one. -/
lemma exists_first_escape {name : String} (h : KubernetesName name) (hescape : ¬ NoEscapes name) :
    ∃ s c t, name.toList = s ++ c :: t ∧ (∀ d ∈ s, isNameChar d = true) ∧ (c = '-' ∨ c = '.') := by
  have hsplit := List.takeWhile_append_dropWhile (p := isNameChar) (l := name.toList)
  have hprefix : ∀ d ∈ name.toList.takeWhile isNameChar, isNameChar d = true :=
    fun d hd => List.mem_takeWhile_imp hd
  cases hrest : name.toList.dropWhile isNameChar with
  | nil =>
      -- all characters are name characters, so that none of them is escaped
      refine absurd (fun c hc => ?_) hescape
      have hname : isNameChar c = true := List.dropWhile_eq_nil_iff.mp hrest c hc
      constructor <;> rintro rfl <;> cases hname
  | cons c t =>
      have hname : ¬ isNameChar c = true := by
        have hhead := List.head?_dropWhile_not isNameChar name.toList
        rw [hrest] at hhead
        simpa using hhead
      rw [hrest] at hsplit
      have hmem : c ∈ name.toList := by
        rw [← hsplit]
        exact List.mem_append_right _ List.mem_cons_self
      exact ⟨_, c, t, hsplit.symm, hprefix, (h c hmem).resolve_left hname⟩

/-- **The literal of a name**: the regular expression is its own value between double
quotes exactly when the name has neither `-` nor `.`. -/
theorem decodeLiteral_podRegex {name : String} (h : KubernetesName name) :
    decodeLiteral (podRegex name).toList = some (utf8 (podRegex name).toList) ↔ NoEscapes name := by
  constructor
  · intro hdecode
    by_contra hescape
    obtain ⟨s, c, t, hname, hs, hc⟩ := exists_first_escape h hescape
    have hspecial : c ∈ specialChars := by
      rcases hc with rfl | rfl <;> decide
    have htext : (podRegex name).toList = ('^' :: s) ++ '\\' :: c ::
        (reEscape t ++ "-[a-z0-9]+-[a-z0-9]+$".toList) := by
      have hs' : reEscape (s ++ c :: t) = s ++ '\\' :: c :: reEscape t := by
        rw [reEscape, List.flatMap_append, List.flatMap_cons, if_pos hspecial]
        exact congrArg (· ++ _) (reEscape_eq_self hs)
      rw [toList_podRegex, hname, hs']
      simp
    have hbad : decodeLiteral (podRegex name).toList = none := by
      rw [htext]
      refine decodeLiteral_of_badEscape ?_ ?_
      · intro d hd
        rcases List.mem_cons.mp hd with rfl | hmem
        · decide
        · exact plain_of_isNameChar (hs d hmem)
      · rcases hc with rfl | rfl <;> exact fun out => rfl
    rw [hbad] at hdecode
    cases hdecode
  · intro hplain
    have hname : ∀ c ∈ name.toList, isNameChar c = true := fun c hc =>
      (h c hc).resolve_right (not_or.mpr (hplain c hc))
    refine decodeLiteral_eq_utf8 fun c hc => ?_
    rw [toList_podRegex, reEscape_eq_self hname] at hc
    rcases List.mem_cons.mp hc with rfl | hmem
    · decide
    · rcases List.mem_append.mp hmem with hmem | hmem
      · exact plain_of_isNameChar (hname c hmem)
      · have htail : ∀ d ∈ "-[a-z0-9]+-[a-z0-9]+$".toList, d ≠ '\\' ∧ d ≠ '"' ∧ d ≠ '\n' := by
          decide
        exact htail c hmem

/-! ### The selector -/

/-- The regular expression of a workload, and the names that it matches. -/
lemma podRegex_matches {name : String} (h : KubernetesName name) :
    ∃ p, parsePattern (podRegex name).toList = some p ∧
      ∀ pod, p.Matches pod ↔ ∃ hash id, Segment hash ∧ Segment id ∧
        pod = name.toList ++ '-' :: (hash ++ '-' :: id) := by
  refine ⟨_, parsePattern_podRegex h, fun pod => ?_⟩
  simp only [Pattern.matches_lit_append, segmentsPattern_matches]
  constructor
  · rintro ⟨u, rfl, hash, id, hhash, hid, rfl⟩
    exact ⟨hash, id, hhash, hid, rfl⟩
  · rintro ⟨hash, id, hhash, hid, rfl⟩
    exact ⟨_, rfl, hash, id, hhash, hid, rfl⟩

/-- **The pod selector of a workload**: the queries hold the regular expression of
the pods as a literal exactly for the names without `-` and `.`. -/
theorem pod_selector_encoded {name : String} (h : KubernetesName name) :
    Encodes name ↔ NoEscapes name := by
  refine ⟨fun hencodes => (decodeLiteral_podRegex h).mp hencodes.literal, fun hplain => ?_⟩
  exact
    { query := fun query ns containerName => podSelector_occursIn query name ns containerName
      literal := (decodeLiteral_podRegex h).mpr hplain
      pattern := podRegex_matches h }

/-- The queries of `payment` hold its regular expression. -/
theorem pod_selector_encoded_payment : Encodes "payment" :=
  (pod_selector_encoded (by decide)).mpr (by decide)

/-- The literal in the queries of `my-app` is ill formed. -/
theorem hyphen_not_encoded :
    KubernetesName "my-app" ∧ podRegex "my-app" = "^my\\-app-[a-z0-9]+-[a-z0-9]+$" ∧
      decodeLiteral (podRegex "my-app").toList = none ∧ ¬ Encodes "my-app" := by
  have hnone : decodeLiteral (podRegex "my-app").toList = none := by decide +kernel
  refine ⟨by decide, by decide, hnone, fun hencodes => ?_⟩
  have hsome := hencodes.literal
  rw [hnone] at hsome
  cases hsome

end PrometheusClient

end FinOpsPipeline
