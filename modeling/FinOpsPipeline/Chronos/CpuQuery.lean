import FinOpsPipeline.Chronos.Runtime
import FinOpsPipeline.Foundations.PromText
import FinOpsPipeline.Foundations.PyText

/-!
The query for the CPU of a target (`build_cpu_query` in `chronos_prometheus.py`), and
its reading by Prometheus.

* `escapePromql`: the two replacements, which together put a backslash in front of
  each backslash and each quote (`escapePromql_eq`). `decodeLiteral_escapePromql`: the
  escaped text is a literal of the text.
* `buildCpuQuery_read`: the query is read with exactly the intended matchers.
  `buildCpuQuery_injective`: so different targets have different queries.
-/

namespace FinOpsPipeline

open scoped PyText

namespace Chronos

/-! ### The query -/

/-- The settings of a target with what the query is built from. -/
structure QuerySettings extends ForecastSettings where
  podPattern : String
  containerName : String

/-- `text.replace(old, new)` for a single character. -/
def replaceChar (old : Char) (new : List Char) (text : List Char) : List Char :=
  text.flatMap fun c => if c = old then new else [c]

/-- `_escape_promql`. -/
def escapePromql (value : String) : List Char :=
  replaceChar '"' ['\\', '"'] (replaceChar '\\' ['\\', '\\'] value.toList)

/-- `labels`. -/
def cpuLabels (settings : QuerySettings) : List (List Char) :=
  let labels :=
    ["namespace=\"".toList ++ escapePromql settings.targetNamespace ++ "\"".toList,
      "pod=~\"".toList ++ escapePromql settings.podPattern ++ "\"".toList,
      "container!=\"POD\"".toList]
  if settings.containerName ≠ "" then
    labels.insertIdx 2
      ("container=\"".toList ++ escapePromql settings.containerName ++ "\"".toList)
  else labels

/-- `build_cpu_query`. -/
def buildCpuQuery (settings : QuerySettings) : List Char :=
  "sum(rate(container_cpu_usage_seconds_total\x7b".toList ++
    List.intercalate [','] (cpuLabels settings) ++ "\x7d[5m]))".toList

/-! ### What it says -/

/-- The values of the settings are single lines. -/
structure QuerySettings.SingleLines (settings : QuerySettings) : Prop where
  targetNamespace : '\n' ∉ settings.targetNamespace.toList
  podPattern : '\n' ∉ settings.podPattern.toList
  containerName : '\n' ∉ settings.containerName.toList

/-- The matchers that the query is meant to have. -/
def cpuMatchers (settings : QuerySettings) : List Matcher :=
  [⟨"namespace".toList, .equal, utf8 settings.targetNamespace.toList⟩,
    ⟨"pod".toList, .matches, utf8 settings.podPattern.toList⟩] ++
  (if settings.containerName ≠ "" then
    [⟨"container".toList, .equal, utf8 settings.containerName.toList⟩] else []) ++
  [⟨"container".toList, .notEqual, utf8 "POD".toList⟩]

/-- The second replacement leaves the backslashes of the first one alone. -/
lemma escapePromql_eq (value : String) :
    escapePromql value = value.toList.flatMap fun c =>
      if c = '\\' ∨ c = '"' then ['\\', c] else [c] := by
  rw [escapePromql, replaceChar, replaceChar, List.flatMap_assoc]
  refine List.flatMap_congr fun c _ => ?_
  by_cases hbackslash : c = '\\'
  · subst hbackslash
    rfl
  · by_cases hquote : c = '"'
    · subst hquote
      rfl
    · simp [hbackslash, hquote]

/-- **An escaped line is a literal of the line.** -/
theorem decodeLiteral_escapePromql {value : String} (h : '\n' ∉ value.toList) :
    decodeLiteral (escapePromql value) = some (utf8 value.toList) := by
  have hspell : ∀ c ∈ value.toList, ∀ out,
      (if c = '\\' ∨ c = '"' then ['\\', c] else [c]).foldlM literalStep (.plain, out) =
        some (.plain, out ++ String.utf8EncodeChar c) := by
    intro c hc out
    have hline : c ≠ '\n' := fun heq => h (heq ▸ hc)
    by_cases hbackslash : c = '\\'
    · subst hbackslash
      rfl
    · by_cases hquote : c = '"'
      · subst hquote
        rfl
      · rw [if_neg (by tauto), List.foldlM_cons, literalStep_plain ⟨hbackslash, hquote, hline⟩]
        rfl
  rw [decodeLiteral, escapePromql_eq, foldlM_literalStep_spell _ hspell]
  rfl

/-- A label of the query is written as its matcher. -/
lemma writtenAs_escapePromql (start : String) (op : MatchOp) {label : List Char}
    {value : String} (hlabel : IsLabel label) (hvalue : '\n' ∉ value.toList)
    (hstart : start.toList = label ++ (op.text ++ ['"'])) :
    (⟨label, op, utf8 value.toList⟩ : Matcher).WrittenAs
      (start.toList ++ escapePromql value ++ "\"".toList) := by
  have hquote : "\"".toList = ['"'] := by decide +kernel
  refine ⟨escapePromql value, hlabel, decodeLiteral_escapePromql hvalue, ?_⟩
  rw [hstart, hquote]
  simp [writeMatcher]

/-- The labels of the query are the intended matchers. -/
lemma forall₂_cpuLabels {settings : QuerySettings} (h : settings.SingleLines) :
    List.Forall₂ Matcher.WrittenAs (cpuMatchers settings) (cpuLabels settings) := by
  have hnamespace : IsLabel "namespace".toList :=
    ⟨by decide +kernel, 'n', by decide +kernel, by decide⟩
  have hpod : IsLabel "pod".toList := ⟨by decide +kernel, 'p', by decide +kernel, by decide⟩
  have hcontainer : IsLabel "container".toList :=
    ⟨by decide +kernel, 'c', by decide +kernel, by decide⟩
  have hfirst := writtenAs_escapePromql "namespace=\"" .equal hnamespace
    h.targetNamespace (by decide +kernel)
  have hsecond := writtenAs_escapePromql "pod=~\"" .matches hpod h.podPattern
    (by decide +kernel)
  have hthird := writtenAs_escapePromql "container=\"" .equal hcontainer h.containerName
    (by decide +kernel)
  have hlast : (⟨"container".toList, .notEqual, utf8 "POD".toList⟩ : Matcher).WrittenAs
      "container!=\"POD\"".toList :=
    ⟨"POD".toList, hcontainer, decodeLiteral_eq_utf8 (by decide +kernel), by decide +kernel⟩
  rw [cpuMatchers, cpuLabels]
  by_cases hempty : settings.containerName = ""
  · rw [if_neg (not_not.mpr hempty), if_neg (not_not.mpr hempty)]
    exact .cons hfirst (.cons hsecond (.cons hlast .nil))
  · rw [if_pos hempty, if_pos hempty]
    exact .cons hfirst (.cons hsecond (.cons hthird (.cons hlast .nil)))

/-- Prometheus reads the query with the intended matchers. -/
lemma readSelector_cpuQuery {settings : QuerySettings} (h : settings.SingleLines) :
    readSelector (buildCpuQuery settings) =
      some ⟨"sum(rate(container_cpu_usage_seconds_total".toList, cpuMatchers settings,
        "[5m]))".toList⟩ := by
  have hbefore : "sum(rate(container_cpu_usage_seconds_total\x7b".toList =
      "sum(rate(container_cpu_usage_seconds_total".toList ++ ['\x7b'] := by decide +kernel
  have hafter : "\x7d[5m]))".toList = '\x7d' :: "[5m]))".toList := by decide +kernel
  have hmatchers : cpuMatchers settings ≠ [] :=
    List.append_ne_nil_of_right_ne_nil _ (List.cons_ne_nil _ _)
  have hbrace : '\x7b' ∉ "sum(rate(container_cpu_usage_seconds_total".toList := by
    decide +kernel
  have hquery : buildCpuQuery settings = "sum(rate(container_cpu_usage_seconds_total".toList ++
      '\x7b' :: (List.intercalate [','] (cpuLabels settings) ++ '\x7d' :: "[5m]))".toList) := by
    unfold buildCpuQuery
    rw [hbefore, hafter, List.append_assoc, List.append_assoc, List.singleton_append]
  rw [hquery]
  exact readSelector_written hbrace hmatchers (forall₂_cpuLabels h)

/-- **The query says what the settings say.** For settings without line breaks, each escaped
value is a literal of the value, and Prometheus reads the query with exactly the matchers of
the namespace, the pods and, when there is one, the container. -/
theorem buildCpuQuery_read (settings : QuerySettings) (h : settings.SingleLines) :
    (∀ value ∈ [settings.targetNamespace, settings.podPattern, settings.containerName],
      decodeLiteral (escapePromql value) = some (utf8 value.toList)) ∧
    readSelector (buildCpuQuery settings) =
      some ⟨"sum(rate(container_cpu_usage_seconds_total".toList, cpuMatchers settings,
        "[5m]))".toList⟩ := by
  refine ⟨fun value hvalue => decodeLiteral_escapePromql ?_, readSelector_cpuQuery h⟩
  obtain rfl | rfl | rfl : value = settings.targetNamespace ∨ value = settings.podPattern ∨
      value = settings.containerName := by simpa using hvalue
  · exact h.targetNamespace
  · exact h.podPattern
  · exact h.containerName

/-- A pattern with backslashes, and a container with a quote. -/
theorem buildCpuQuery_read_quoted :
    readSelector (buildCpuQuery ⟨⟨"default", "sample-worker", .shadow, 1, 120, "amazon/chronos-2"⟩,
        "sample\\-worker\\-.*", "worker\"1"⟩) =
      some ⟨"sum(rate(container_cpu_usage_seconds_total".toList,
        [⟨"namespace".toList, .equal, utf8 "default".toList⟩,
          ⟨"pod".toList, .matches, utf8 "sample\\-worker\\-.*".toList⟩,
          ⟨"container".toList, .equal, utf8 "worker\"1".toList⟩,
          ⟨"container".toList, .notEqual, utf8 "POD".toList⟩],
        "[5m]))".toList⟩ :=
  (buildCpuQuery_read _ ⟨by decide +kernel, by decide +kernel, by decide +kernel⟩).2

/-- **Different targets have different queries.** -/
theorem buildCpuQuery_injective {settings other : QuerySettings} (h : settings.SingleLines)
    (hother : other.SingleLines) (heq : buildCpuQuery settings = buildCpuQuery other) :
    settings.targetNamespace = other.targetNamespace ∧ settings.podPattern = other.podPattern ∧
      settings.containerName = other.containerName := by
  have hmatchers : cpuMatchers settings = cpuMatchers other := by
    have hread := readSelector_cpuQuery h
    rw [heq, readSelector_cpuQuery hother] at hread
    exact (congrArg Selector.matchers (Option.some.inj hread)).symm
  have hvalue : ∀ {value value' : String},
      utf8 value.toList = utf8 value'.toList → value = value' := fun hbytes =>
    String.toList_inj.mp (utf8_injective hbytes)
  obtain ⟨hnamespace, hpods⟩ := List.cons.inj hmatchers
  obtain ⟨hpod, hcontainers⟩ := List.cons.inj hpods
  refine ⟨hvalue (congrArg Matcher.value hnamespace), hvalue (congrArg Matcher.value hpod), ?_⟩
  have hcontainer := List.append_inj_left' hcontainers rfl
  by_cases hempty : settings.containerName = "" <;>
    by_cases hother' : other.containerName = ""
  · rw [hempty, hother']
  · rw [if_neg (not_not.mpr hempty), if_pos hother'] at hcontainer
    cases hcontainer
  · rw [if_pos hempty, if_neg (not_not.mpr hother')] at hcontainer
    cases hcontainer
  · rw [if_pos hempty, if_pos hother'] at hcontainer
    exact hvalue (congrArg Matcher.value (List.cons.inj hcontainer).1)

end Chronos

end FinOpsPipeline
