import FinOpsPipeline.Chronos.Runtime
import FinOpsPipeline.Foundations.Dictionary

/-!
The series of a range query, merged by `fetch_cpu_series` of
`chronos/chronos_prometheus.py` and by `Prometheus.range_values` of
`k6/collect_bank_krr_run.py`.

* `RangePayload`: the body of a reply; `RangePayload.Successful`, a successful one whose
  values are all numbers, as Prometheus writes them.
* `Chronos.fetchCpuSeries`, `LoadTest.rangeValues`: the two functions, given the reply.
* `RangePayload.finiteSamples`, `RangePayload.sumAt`: the finite samples, and the sum of
  those of a timestamp.
* `RangePayload.Reorders`: the series and the samples of each in another order.
* `Chronos.fetchCpuSeries_merges`: the sums by increasing timestamp, in any order of the
  payload, the same list from both functions, and when the first of them raises.
-/

namespace FinOpsPipeline

open PyFloat

/-! ### Payloads -/

/-- A sample of a series: the timestamp and the text of the value. -/
structure RangeSample where
  timestamp : ℚ
  value : String
  deriving DecidableEq

/-- A series of a result; it may lack the field `values`. -/
structure RangeSeries where
  values : Option (List RangeSample)
  deriving DecidableEq

/-- The body of a reply to a range query; it may lack the field `status`, and the field
`data` or the field `result` in it. -/
structure RangePayload where
  status : Option String
  result : Option (List RangeSeries)
  deriving DecidableEq

/-- What a range query gets: it raises (no connection, an HTTP error, a body that is not
JSON), or it has a body. -/
inductive RangeReply where
  | raised (error : String)
  | json (payload : RangePayload)

/-- `float(value)`. -/
def RangeSample.number (sample : RangeSample) : Option PyFloat := readFloat sample.value.toList

/-- `result.get("values", [])`. -/
def RangeSeries.samples (series : RangeSeries) : List RangeSample := series.values.getD []

/-- The timestamp and the value of a sample with a finite value. -/
def RangeSample.finite (sample : RangeSample) : Option (ℚ × ℚ) :=
  match sample.number with
  | some (.fin q) => some (sample.timestamp, q)
  | _ => none

namespace RangePayload

variable (p : RangePayload)

/-- `payload.get("data", {}).get("result", [])`. -/
def series : List RangeSeries := p.result.getD []

/-- The samples of all series. -/
def samples : List RangeSample := p.series.flatMap RangeSeries.samples

/-- The finite samples of all series. -/
def finiteSamples : List (ℚ × ℚ) := p.samples.filterMap RangeSample.finite

/-- The sum of the finite samples of a timestamp. -/
def sumAt (t : ℚ) : ℚ := ((p.finiteSamples.filter (·.1 = t)).map Prod.snd).sum

/-- A successful payload, whose values are numbers, infinities or not a number. -/
def Successful : Prop := p.status = some "success" ∧ ∀ sample ∈ p.samples, sample.number.isSome

instance : Decidable p.Successful := inferInstanceAs (Decidable (_ ∧ _))

/-- The second payload has the same series in another order, and in each series the same
samples in another order. -/
structure Reorders (p p' : RangePayload) : Prop where
  status : p'.status = p.status
  series : ∃ l, p.series.Perm l ∧ List.Forall₂ (fun a b => a.samples.Perm b.samples) l p'.series

end RangePayload

/-! ### The two functions -/

namespace Chronos

/-- The settings of a forecast. -/
structure EngineSettings extends ForecastSettings where
  thresholdCores : ℚ
  capacityPerReplicaCores : ℚ
  lookbackHours : ℚ
  predictionLength : ℤ
  stepSeconds : ℤ
  maxReplicas : ℤ
  forecastIntervalSeconds : ℤ
  requestTimeoutSeconds : ℚ
  fakeReplicas : Option ℤ

/-- The default settings, in the given mode. -/
def EngineSettings.sampleWorker (mode : Mode) : EngineSettings where
  toForecastSettings := ForecastSettings.sampleWorker mode
  thresholdCores := 3 / 10
  capacityPerReplicaCores := 1 / 2
  lookbackHours := 2
  predictionLength := 12
  stepSeconds := 60
  maxReplicas := 3
  forecastIntervalSeconds := 60
  requestTimeoutSeconds := 10
  fakeReplicas := none

/-- What a forecast raises. -/
inductive ForecastError where
  | request (error : String)
  | queryFailed (payload : RangePayload)
  | noData (ns deployment : String)
  | notANumber (value : String)
  | notEnoughPoints (points : ℕ) (needed : ℤ)
  | model (error : String)
  | zeroDivision

/-- The text of an error, with the text of a payload given. -/
def ForecastError.text (repr : RangePayload → String) : ForecastError → String
  | request error => error
  | queryFailed payload => "Prometheus query failed: " ++ repr payload
  | noData ns deployment =>
      "Prometheus/Thanos returned no CPU data for " ++ ns ++ "/" ++ deployment
  | notANumber value => "could not convert string to float: '" ++ value ++ "'"
  | notEnoughPoints points needed =>
      "Not enough CPU data points: got " ++ String.ofList (intText points) ++
        ", need at least " ++ String.ofList (intText needed)
  | model error => error
  | zeroDivision => "float division by zero"

/-- The body of the inner loop of `fetch_cpu_series`. -/
def addSample (seriesByTimestamp : Dict ℚ ℚ) (sample : RangeSample) :
    Except ForecastError (Dict ℚ ℚ) :=
  match sample.number with
  | none => .error (.notANumber sample.value)
  | some (.fin numeric) =>
      let key := sample.timestamp
      .ok (seriesByTimestamp.insert key ((seriesByTimestamp.lookup key).getD 0 + numeric))
  | some _ => .ok seriesByTimestamp

/-- `fetch_cpu_series`, given the reply to its query. -/
def fetchCpuSeries (s : EngineSettings) : RangeReply → Except ForecastError (List ℚ)
  | .raised error => .error (.request error)
  | .json payload =>
      if payload.status ≠ some "success" then .error (.queryFailed payload)
      else if payload.series = [] then .error (.noData s.targetNamespace s.targetDeployment)
      else do
        let seriesByTimestamp ← payload.series.foldlM
          (fun seriesByTimestamp result => result.samples.foldlM addSample seriesByTimestamp) ∅
        let values := seriesByTimestamp.sortedValues
        if (values.length : ℤ) < s.predictionLength then
          .error (.notEnoughPoints values.length s.predictionLength)
        else .ok values

end Chronos

namespace LoadTest

open Chronos (ForecastError)

/-- The body of the inner loop of `Prometheus.range_values`. -/
def addRaw (totals : Dict ℚ ℚ) (sample : RangeSample) : Except ForecastError (Dict ℚ ℚ) :=
  match sample.number with
  | none => .error (.notANumber sample.value)
  | some (.fin value) =>
      .ok (totals.insert sample.timestamp ((totals.lookup sample.timestamp).getD 0 + value))
  | some _ => .ok totals

/-- `Prometheus.range_values`, given the reply to the query. -/
def rangeValues : RangeReply → Except ForecastError (List ℚ)
  | .raised error => .error (.request error)
  | .json payload =>
      if payload.status ≠ some "success" then .error (.queryFailed payload)
      else do
        let totals ← payload.series.foldlM
          (fun totals series => series.samples.foldlM addRaw totals) ∅
        return totals.sortedValues

end LoadTest

/-! ### The loops -/

namespace RangePayload

/-- The dictionary that the loops fill. -/
def totals (p : RangePayload) : Dict ℚ ℚ := Dict.addAll ∅ p.finiteSamples

end RangePayload

namespace Chronos

variable {s : EngineSettings} {p p' : RangePayload}

/-- A sample with a number is added if it is finite. -/
lemma addSample_eq {d : Dict ℚ ℚ} {sample : RangeSample} (h : sample.number.isSome) :
    addSample d sample = .ok (d.addAll sample.finite.toList) := by
  obtain ⟨x, hx⟩ := Option.isSome_iff_exists.mp h
  cases x with
  | fin q => simp [addSample, RangeSample.finite, hx, Dict.addAll]
  | inf n => simp [addSample, RangeSample.finite, hx, Dict.addAll]
  | nan => simp [addSample, RangeSample.finite, hx, Dict.addAll]

/-- The inner loop adds the finite samples of a series. -/
lemma foldlM_addSample {samples : List RangeSample} (h : ∀ x ∈ samples, x.number.isSome)
    (d : Dict ℚ ℚ) :
    samples.foldlM addSample d = .ok (d.addAll (samples.filterMap RangeSample.finite)) := by
  induction samples generalizing d with
  | nil => rfl
  | cons x samples ih =>
      have hsplit : (x :: samples).filterMap RangeSample.finite =
          x.finite.toList ++ samples.filterMap RangeSample.finite := by
        cases hx : x.finite <;> simp [hx]
      rw [List.foldlM_cons, addSample_eq (h x List.mem_cons_self), hsplit, Dict.addAll_append]
      exact ih (fun y hy => h y (List.mem_cons_of_mem x hy)) _

/-- The outer loop adds the finite samples of all series. -/
lemma foldlM_series {results : List RangeSeries}
    (h : ∀ x ∈ results.flatMap RangeSeries.samples, x.number.isSome) (d : Dict ℚ ℚ) :
    results.foldlM (fun d result => result.samples.foldlM addSample d) d =
      .ok (d.addAll ((results.flatMap RangeSeries.samples).filterMap RangeSample.finite)) := by
  induction results generalizing d with
  | nil => rfl
  | cons r results ih =>
      rw [List.flatMap_cons] at h ⊢
      have hhead := foldlM_addSample (fun x hx => h x (List.mem_append_left _ hx)) d
      rw [List.foldlM_cons, hhead, List.filterMap_append, Dict.addAll_append]
      exact ih (fun x hx => h x (List.mem_append_right _ hx)) _

/-- What `fetch_cpu_series` does with a successful payload. -/
lemma fetchCpuSeries_json (h : p.Successful) :
    fetchCpuSeries s (.json p) =
      if p.series = [] then .error (.noData s.targetNamespace s.targetDeployment)
      else if (p.totals.sortedValues.length : ℤ) < s.predictionLength then
        .error (.notEnoughPoints p.totals.sortedValues.length s.predictionLength)
      else .ok p.totals.sortedValues := by
  rw [fetchCpuSeries, if_neg (not_not.mpr h.1), foldlM_series h.2]
  rfl

/-- What `Prometheus.range_values` does with a successful payload. -/
lemma rangeValues_json (h : p.Successful) :
    LoadTest.rangeValues (.json p) = .ok p.totals.sortedValues := by
  have hbody : LoadTest.addRaw = addSample := rfl
  rw [LoadTest.rangeValues, if_neg (not_not.mpr h.1), hbody, foldlM_series h.2]
  rfl

/-! ### The order of a payload -/

/-- Series with the same samples in another order have the same samples together. -/
lemma perm_flatMap_samples {l l' : List RangeSeries}
    (h : List.Forall₂ (fun a b => a.samples.Perm b.samples) l l') :
    (l.flatMap RangeSeries.samples).Perm (l'.flatMap RangeSeries.samples) := by
  induction h with
  | nil => exact List.Perm.refl _
  | cons hab _ ih => exact hab.append ih

/-- The samples are the same. -/
lemma perm_samples (h : p.Reorders p') : p.samples.Perm p'.samples := by
  obtain ⟨l, hperm, hforall⟩ := h.series
  exact (hperm.flatMap_right RangeSeries.samples).trans (perm_flatMap_samples hforall)

/-- The number of series is the same. -/
lemma length_series (h : p.Reorders p') : p'.series.length = p.series.length := by
  obtain ⟨l, hperm, hforall⟩ := h.series
  rw [← hforall.length_eq, hperm.length_eq]

lemma successful_of_reorders (hr : p.Reorders p') (h : p.Successful) : p'.Successful :=
  ⟨hr.status.trans h.1, fun x hx => h.2 x ((perm_samples hr).mem_iff.mpr hx)⟩

/-- **The order of the payload does not matter.** -/
lemma fetchCpuSeries_reorders (hr : p.Reorders p') (h : p.Successful) :
    fetchCpuSeries s (.json p') = fetchCpuSeries s (.json p) := by
  have hvalues : p'.totals.sortedValues = p.totals.sortedValues :=
    (Dict.sortedValues_addAll_perm ((perm_samples hr).filterMap RangeSample.finite)).symm
  have hnil : p'.series = [] ↔ p.series = [] := by
    rw [← List.length_eq_zero_iff, length_series hr, List.length_eq_zero_iff]
  rw [fetchCpuSeries_json h, fetchCpuSeries_json (successful_of_reorders hr h), hvalues]
  exact if_congr hnil rfl rfl

/-! ### The merged series -/

/-- The merged values, at any strictly increasing list of the timestamps. -/
lemma sortedValues_totals {stamps : List ℚ} (hstamps : stamps.Pairwise (· < ·))
    (hmem : ∀ t, t ∈ stamps ↔ ∃ q, (t, q) ∈ p.finiteSamples) :
    p.totals.sortedValues = stamps.map p.sumAt := by
  refine Dict.sortedValues_addAll hstamps fun t => ?_
  rw [hmem, List.mem_map]
  constructor
  · rintro ⟨q, hq⟩
    exact ⟨(t, q), hq, rfl⟩
  · rintro ⟨⟨t', q⟩, hq, rfl⟩
    exact ⟨q, hq⟩

/-- The timestamps with a finite sample, in strictly increasing order. -/
lemma exists_stamps (p : RangePayload) :
    ∃ stamps : List ℚ, stamps.Pairwise (· < ·) ∧
      ∀ t, t ∈ stamps ↔ ∃ q, (t, q) ∈ p.finiteSamples := by
  refine ⟨p.totals.sortedKeys, Dict.pairwise_sortedKeys _, fun t => ?_⟩
  rw [Dict.mem_sortedKeys, RangePayload.totals, Dict.mem_addAll, List.mem_map]
  constructor
  · rintro ⟨⟨t', q⟩, hq, rfl⟩
    exact ⟨q, hq⟩
  · rintro ⟨q, hq⟩
    exact ⟨(t, q), hq, rfl⟩

/-- **The merged series of a successful payload.** With the timestamps that have a finite
sample in strictly increasing order, `fetch_cpu_series` raises exactly when there is no
series or there are fewer of them than `prediction_length`, and returns the sums of the
finite samples at each of them otherwise; `Prometheus.range_values` returns the same list.
The order of the series and of the samples in each does not matter. -/
theorem fetchCpuSeries_merges (s : EngineSettings) (p : RangePayload) (h : p.Successful) :
    (∃ stamps : List ℚ, stamps.Pairwise (· < ·) ∧
      (∀ t, t ∈ stamps ↔ ∃ q, (t, q) ∈ p.finiteSamples) ∧
      ((∃ e, fetchCpuSeries s (.json p) = .error e) ↔
        p.series = [] ∨ (stamps.length : ℤ) < s.predictionLength) ∧
      ∀ values, fetchCpuSeries s (.json p) = .ok values →
        values = stamps.map p.sumAt ∧ LoadTest.rangeValues (.json p) = .ok values) ∧
    ∀ p', p.Reorders p' → fetchCpuSeries s (.json p') = fetchCpuSeries s (.json p) := by
  obtain ⟨stamps, hstamps, hmem⟩ := exists_stamps p
  have hvalues := sortedValues_totals hstamps hmem
  refine ⟨⟨stamps, hstamps, hmem, ?_, fun values hok => ?_⟩, fun p' hr =>
    fetchCpuSeries_reorders hr h⟩
  · rw [fetchCpuSeries_json h, hvalues, List.length_map]
    split_ifs with hnil hshort
    · simp [hnil]
    · simp [hshort]
    · simp [hnil, hshort]
  · rw [fetchCpuSeries_json h] at hok
    split_ifs at hok
    have heq : p.totals.sortedValues = values := Except.ok.inj hok
    exact ⟨heq.symm.trans hvalues, by rw [rangeValues_json h, heq]⟩

/-- Two series over the same time, one with a gap and one in descending order. -/
def gapPayload : RangePayload where
  status := some "success"
  result := some [⟨some [⟨100, "0.1"⟩, ⟨160, "NaN"⟩, ⟨220, "0.3"⟩]⟩,
    ⟨some [⟨160, "+Inf"⟩, ⟨100, "0.4"⟩, ⟨100, "1"⟩]⟩]

theorem fetchCpuSeries_merges_gap :
    gapPayload.Successful ∧ ∃ stamps : List ℚ, stamps.Pairwise (· < ·) ∧
      (∀ t, t ∈ stamps ↔ ∃ q, (t, q) ∈ gapPayload.finiteSamples) ∧
      ((∃ e, fetchCpuSeries (.sampleWorker .shadow) (.json gapPayload) = .error e) ↔
        gapPayload.series = [] ∨ (stamps.length : ℤ) < 12) := by
  have hsuccess : gapPayload.Successful := by decide +kernel
  obtain ⟨stamps, hstamps, hmem, hraise, _⟩ :=
    (fetchCpuSeries_merges (.sampleWorker .shadow) gapPayload hsuccess).1
  exact ⟨hsuccess, stamps, hstamps, hmem, hraise⟩

example : gapPayload.totals.sortedValues = [3 / 2, 3 / 10] := by decide +kernel

end Chronos

end FinOpsPipeline
