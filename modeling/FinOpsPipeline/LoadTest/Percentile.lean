import FinOpsPipeline.Foundations.Interpolation
import FinOpsPipeline.Foundations.PyFloat

/-!
The statistics of a metric, `percentile` and `stats` of `k6/collect_bank_krr_run.py`.

* `percentile`, `stats`: the outer `none` stands for an index outside of the list.
* `percentile_eq`: a percentile interpolates the sorted values at its position.
* `PercentileSound`: what a percentile is; `percentile_sound` proves it, from the
  lemmas on `interpolate`.
* `StatsSound`: what the statistics are, with `stats_eq`.
-/

namespace FinOpsPipeline

namespace LoadTest

open PyFloat

/-! ### The functions -/

/-- `xs[i]`, which counts a negative index from the end; `none` is an `IndexError`. -/
def pyIndex (xs : List ℚ) (i : ℤ) : Option ℚ :=
  if 0 ≤ i then xs[i.toNat]?
  else if -(xs.length : ℤ) ≤ i then xs[(xs.length + i).toNat]?
  else none

/-- `sorted(values)`. -/
def ordered (values : List ℚ) : List ℚ := values.insertionSort (· ≤ ·)

/-- `percentile`. -/
def percentile (values : List ℚ) (fraction : ℚ) : Option (Option ℚ) :=
  if values.isEmpty then some none
  else
    let sorted := ordered values
    let position := ((sorted.length : ℚ) - 1) * fraction
    let lower := ⌊position⌋
    let upper := ⌈position⌉
    if lower = upper then (pyIndex sorted lower).map some
    else do
      let low ← pyIndex sorted lower
      let high ← pyIndex sorted upper
      return some (low + (high - low) * (position - lower))

/-- `[value for value in values if math.isfinite(value)]`. -/
def finiteValues (values : List PyFloat) : List ℚ :=
  values.filterMap fun value => match value with
    | .fin q => some q
    | .inf _ => none
    | .nan => none

/-- The statistics of a metric. -/
structure MetricStats where
  avg : Option ℚ
  p95 : Option ℚ
  max : Option ℚ
  deriving DecidableEq

/-- `stats`. -/
def stats (values : List PyFloat) : Option MetricStats :=
  let clean := finiteValues values
  if clean.isEmpty then some ⟨none, none, none⟩
  else do
    let p95 ← percentile clean (95 / 100)
    let max ← clean.max?
    return ⟨some (roundTo 1000000 (clean.sum / clean.length)), p95.map (roundTo 1000000),
      some (roundTo 1000000 max)⟩

/-! ### Sorted values -/

@[simp] lemma length_ordered (values : List ℚ) : (ordered values).length = values.length :=
  List.length_insertionSort _ _

lemma mem_ordered {values : List ℚ} {x : ℚ} : x ∈ ordered values ↔ x ∈ values :=
  List.mem_insertionSort _

/-- The order of the list does not matter. -/
lemma ordered_perm {xs ys : List ℚ} (h : xs.Perm ys) : ordered xs = ordered ys :=
  (((List.perm_insertionSort _ xs).trans h).trans (List.perm_insertionSort _ ys).symm).eq_of_sortedLE
    List.sortedLE_insertionSort List.sortedLE_insertionSort

/-- The sorted values as a sequence. -/
def orderedAt (values : List ℚ) (i : ℤ) : ℚ := (ordered values).getD i.toNat 0

/-- The indices of the list. -/
abbrev indices (values : List ℚ) : Set ℤ := Set.Icc 0 ((values.length : ℤ) - 1)

section Ordered

variable {values : List ℚ} {i : ℤ}

/-- **No index of the list is outside of it.** -/
lemma pyIndex_ordered (hi : i ∈ indices values) :
    pyIndex (ordered values) i = some (orderedAt values i) := by
  have hlt : i.toNat < (ordered values).length := by
    rw [length_ordered]
    have := hi.2
    have := hi.1
    omega
  rw [pyIndex, if_pos hi.1, orderedAt, List.getElem?_eq_getElem hlt, List.getD_eq_getElem _ _ hlt]

lemma orderedAt_mem (hi : i ∈ indices values) : orderedAt values i ∈ values := by
  have h := pyIndex_ordered hi
  rw [pyIndex, if_pos hi.1] at h
  exact mem_ordered.mp (List.mem_of_getElem? h)

lemma orderedAt_monotoneOn : MonotoneOn (orderedAt values) (indices values) := by
  intro i hi j hj hij
  have hj' : j.toNat < (ordered values).length := by
    rw [length_ordered]
    have := hj.2
    have := hj.1
    omega
  have hi' : i.toNat ≤ j.toNat := by omega
  rw [orderedAt, orderedAt, List.getD_eq_getElem _ _ hj', List.getD_eq_getElem _ _ (by omega)]
  exact List.sortedLE_insertionSort.getElem_le_getElem_of_le hi'

end Ordered

/-! ### Percentiles -/

/-- What a percentile of a list is: the same for every order of the list, between the
least and the greatest value, no smaller for a larger fraction, and either a sorted
value or on the line between its neighbours. -/
structure PercentileSound (values : List ℚ) (fraction v : ℚ) : Prop where
  perm : ∀ other : List ℚ, other.Perm values → percentile other fraction = some (some v)
  min_le : ∀ least, values.min? = some least → least ≤ v
  le_max : ∀ greatest, values.max? = some greatest → v ≤ greatest
  mono : ∀ larger, fraction ≤ larger → larger ≤ 1 →
    ∃ w, percentile values larger = some (some w) ∧ v ≤ w
  atIndex : ∀ k : ℕ, ((values.length : ℚ) - 1) * fraction = k → (ordered values)[k]? = some v
  between : ∀ k : ℕ, (k : ℚ) < ((values.length : ℚ) - 1) * fraction →
    ((values.length : ℚ) - 1) * fraction < k + 1 →
    ∃ low high, (ordered values)[k]? = some low ∧ (ordered values)[k + 1]? = some high ∧
      v = low + (high - low) * (((values.length : ℚ) - 1) * fraction - k)

section Percentile

variable {values : List ℚ} {fraction : ℚ}

/-- The position of a percentile is between the first and the last index. -/
lemma position_mem (hne : values ≠ []) (h0 : 0 ≤ fraction) (h1 : fraction ≤ 1) :
    ((values.length : ℚ) - 1) * fraction ∈
      Set.Icc ((0 : ℤ) : ℚ) (((values.length : ℤ) - 1 : ℤ) : ℚ) := by
  have hlength : (1 : ℚ) ≤ values.length := by
    exact_mod_cast List.length_pos_iff.mpr hne
  push_cast
  exact ⟨mul_nonneg (by linarith) h0, mul_le_of_le_one_right (by linarith) h1⟩

/-- **A percentile** is the sorted list interpolated at the position. -/
lemma percentile_eq (hne : values ≠ []) (h0 : 0 ≤ fraction) (h1 : fraction ≤ 1) :
    percentile values fraction =
      some (some (interpolate (orderedAt values) (((values.length : ℚ) - 1) * fraction))) := by
  obtain ⟨hfloor, hceil⟩ := floor_ceil_mem (position_mem hne h0 h1)
  have hempty : values.isEmpty = false := by simpa using hne
  simp only [percentile, hempty, length_ordered, Bool.false_eq_true, if_false,
    pyIndex_ordered hfloor, pyIndex_ordered hceil]
  split
  · rename_i heq
    rw [interpolate, ← heq]
    simp
  · rfl

lemma orderedAt_natCast {k : ℕ} (hk : (k : ℤ) ∈ indices values) :
    (ordered values)[k]? = some (orderedAt values k) := by
  have h := pyIndex_ordered hk
  rwa [pyIndex, if_pos hk.1, Int.toNat_natCast] at h

/-- The order of the list does not matter to a percentile. -/
lemma percentile_perm {other : List ℚ} (h : other.Perm values) (hne : values ≠ [])
    (h0 : 0 ≤ fraction) (h1 : fraction ≤ 1) :
    percentile other fraction = percentile values fraction := by
  have hother : other ≠ [] := fun hnil => hne (by simpa [hnil] using h.symm)
  have hsorted : orderedAt other = orderedAt values := by
    funext i
    rw [orderedAt, orderedAt, ordered_perm h]
  rw [percentile_eq hother h0 h1, percentile_eq hne h0 h1, hsorted, h.length_eq]

/-- A larger fraction has a larger position. -/
lemma position_mono {larger : ℚ} (hne : values ≠ []) (h : fraction ≤ larger) :
    ((values.length : ℚ) - 1) * fraction ≤ ((values.length : ℚ) - 1) * larger := by
  have hlength : (1 : ℚ) ≤ values.length := by
    exact_mod_cast List.length_pos_iff.mpr hne
  exact mul_le_mul_of_nonneg_left h (by linarith)

/-- **Percentiles are sound.** -/
lemma percentile_sound (hne : values ≠ []) (h0 : 0 ≤ fraction) (h1 : fraction ≤ 1) :
    ∃ v, percentile values fraction = some (some v) ∧ PercentileSound values fraction v := by
  have hposition := position_mem hne h0 h1
  have hbounds := interpolate_mem_Icc orderedAt_monotoneOn hposition
  obtain ⟨hfloor, hceil⟩ := floor_ceil_mem hposition
  refine ⟨_, percentile_eq hne h0 h1, ?_⟩
  exact
    { perm := fun other h => (percentile_perm h hne h0 h1).trans (percentile_eq hne h0 h1)
      min_le := fun least h => ((List.le_min?_iff h).mp le_rfl _ (orderedAt_mem hfloor)).trans
        hbounds.1
      le_max := fun greatest h => hbounds.2.trans
        ((List.max?_le_iff h).mp le_rfl _ (orderedAt_mem hceil))
      mono := fun larger hle hlarger => ⟨_, percentile_eq hne (h0.trans hle) hlarger,
        interpolate_monotoneOn orderedAt_monotoneOn hposition
          (position_mem hne (h0.trans hle) hlarger) (position_mono hne hle)⟩
      atIndex := fun k hk => by
        have hmem : (k : ℤ) ∈ indices values := by
          have hfloor' : ⌊((values.length : ℚ) - 1) * fraction⌋ = k := by
            rw [hk]
            exact Int.floor_natCast k
          exact hfloor' ▸ hfloor
        rw [orderedAt_natCast hmem, hk]
        exact_mod_cast (congrArg some (interpolate_intCast (k : ℤ))).symm
      between := fun k hlow hup => by
        have hmem : ((values.length : ℚ) - 1) * fraction ∈
            Set.Ioo ((k : ℤ) : ℚ) (((k : ℤ) : ℚ) + 1) :=
          ⟨by exact_mod_cast hlow, by exact_mod_cast hup⟩
        obtain ⟨hfloor', hceil'⟩ := floor_ceil_of_mem_Ioo hmem
        refine ⟨orderedAt values k, orderedAt values (k + 1), orderedAt_natCast (hfloor' ▸ hfloor),
          ?_, ?_⟩
        · exact_mod_cast orderedAt_natCast (k := k + 1) (by exact_mod_cast hceil' ▸ hceil)
        · rw [interpolate_of_mem_Ioo hmem, Int.cast_natCast] }

end Percentile

/-! ### Statistics -/

/-- The percentile is interpolated between the two largest values. -/
example : stats [fin 1, fin 2, fin 3, fin 4, fin 5] =
    some ⟨some 3, some (24 / 5), some 5⟩ := by
  decide +kernel

/-- What the statistics of a metric are: those of the finite values, missing exactly
when there are none, and otherwise with the maximum above the two others. -/
structure StatsSound (values : List PyFloat) (result : MetricStats) : Prop where
  finite : stats ((finiteValues values).map fin) = some result
  missing : result = ⟨none, none, none⟩ ↔ ∀ value ∈ values, ∀ q, value ≠ fin q
  ordered : ∀ q, fin q ∈ values →
    ∃ avg p95 max, result = ⟨some avg, some p95, some max⟩ ∧ avg ≤ max ∧ p95 ≤ max

@[simp] lemma mem_finiteValues {values : List PyFloat} {q : ℚ} :
    q ∈ finiteValues values ↔ fin q ∈ values := by
  rw [finiteValues, List.mem_filterMap]
  constructor
  · rintro ⟨value, hvalue, h⟩
    cases value with
    | fin p => cases h; exact hvalue
    | inf n => cases h
    | nan => cases h
  · exact fun h => ⟨fin q, h, rfl⟩

@[simp] lemma finiteValues_map_fin (xs : List ℚ) : finiteValues (xs.map fin) = xs := by
  induction xs with
  | nil => rfl
  | cons x xs ih => exact congrArg (x :: ·) ih

/-- The mean is at most the maximum. -/
lemma mean_le {xs : List ℚ} {greatest : ℚ} (h : xs.max? = some greatest) :
    xs.sum / xs.length ≤ greatest := by
  have hle := (List.max?_le_iff h).mp le_rfl
  have hne : xs ≠ [] := by
    rintro rfl
    cases h
  have hpos : (0 : ℚ) < xs.length := by exact_mod_cast List.length_pos_iff.mpr hne
  rw [div_le_iff₀ hpos, mul_comm, ← nsmul_eq_mul]
  exact List.sum_le_card_nsmul _ _ hle

/-- **Statistics are sound.** -/
lemma stats_sound (values : List PyFloat) :
    ∃ result, stats values = some result ∧ StatsSound values result := by
  have hsame : stats ((finiteValues values).map fin) = stats values := by
    rw [stats, stats, finiteValues_map_fin]
  by_cases hnone : finiteValues values = []
  · have hnever : ∀ q, fin q ∉ values := fun q h => by
      have hmem := mem_finiteValues.mpr h
      rw [hnone] at hmem
      cases hmem
    have hstats : stats values = some ⟨none, none, none⟩ := by
      simp [stats, hnone]
    refine ⟨_, hstats, hsame.trans hstats, iff_of_true rfl ?_, fun q h => absurd h (hnever q)⟩
    rintro _ hmem q rfl
    exact hnever q hmem
  · have h0 : (0 : ℚ) ≤ 95 / 100 := by norm_num
    have h1 : (95 / 100 : ℚ) ≤ 1 := by norm_num
    obtain ⟨v, hv, hsound⟩ := percentile_sound hnone h0 h1
    obtain ⟨greatest, hgreatest⟩ := Option.isSome_iff_exists.mp
      (List.isSome_max?_of_ne_nil hnone)
    have hempty : (finiteValues values).isEmpty = false := by simpa using hnone
    have hstats : stats values = some
        ⟨some (roundTo 1000000 ((finiteValues values).sum / (finiteValues values).length)),
          some (roundTo 1000000 v), some (roundTo 1000000 greatest)⟩ := by
      simp [stats, hempty, hv, hgreatest]
    refine ⟨_, hstats, hsame.trans hstats, iff_of_false (by simp) ?_, fun q _ => ?_⟩
    · obtain ⟨q, hq⟩ := List.exists_mem_of_ne_nil _ hnone
      exact fun h => h _ (mem_finiteValues.mp hq) q rfl
    · exact ⟨_, _, _, rfl, roundTo_mono _ (mean_le hgreatest),
        roundTo_mono _ (hsound.le_max _ hgreatest)⟩

/-- **Percentiles and statistics**: a percentile of a list of finite numbers exists and is
sound, and so are the statistics of any list. -/
theorem percentile_stats_sound {values : List ℚ} {fraction : ℚ} (hne : values ≠ [])
    (h0 : 0 ≤ fraction) (h1 : fraction ≤ 1) (entries : List PyFloat) :
    (∃ v, percentile values fraction = some (some v) ∧ PercentileSound values fraction v) ∧
      ∃ result, stats entries = some result ∧ StatsSound entries result :=
  ⟨percentile_sound hne h0 h1, stats_sound entries⟩

/-- The statistics of the numbers from 1 to 5, in some order, and a missing one. -/
theorem percentile_stats_five :
    (∃ v, percentile [4, 2, 5, 1, 3] (95 / 100) = some (some v) ∧
      PercentileSound [4, 2, 5, 1, 3] (95 / 100) v) ∧
    ∃ result, stats [fin 4, nan, fin 2, fin 5, inf true, fin 1, fin 3] = some result ∧
      StatsSound [fin 4, nan, fin 2, fin 5, inf true, fin 1, fin 3] result :=
  percentile_stats_sound (by simp) (by norm_num) (by norm_num) _

end LoadTest

end FinOpsPipeline
