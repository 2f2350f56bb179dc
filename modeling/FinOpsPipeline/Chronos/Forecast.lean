import FinOpsPipeline.Chronos.Series

/-!
`ForecastEngine.forecast` of `chronos/chronos_prometheus.py`, and the signal of the service.

* `EngineSettings.fromEnvironment`: the checks of the settings;
  `fromEnvironment_eq_ok` says which settings pass them (`EngineSettings.Valid`).
* `ForecastEngine.predict`, `ForecastEngine.forecast`: the predicted CPU demand and the
  result, given the reply to the query and the model.
  `predict_nonneg`: the demand is not negative.
* `ForecastEngine.service`, `ForecastEngine.legacy`: the configurations of the service and
  of the pipeline.
* `EngineSettings.LeastSufficient`: what the number of replicas is for. `service_signal`:
  the service returns it, it follows the demand and the capacity, and a fake number of
  replicas is returned within the bounds.
* `Runtime.runOnceFor`: a pass of the runtime with the outcome of the forecast.
-/

namespace FinOpsPipeline

namespace Chronos

/-- A computation with a continuation succeeds when both do. -/
lemma bind_eq_ok {ε α β : Type} {x : Except ε α} {f : α → Except ε β} {b : β} :
    (x >>= f) = .ok b ↔ ∃ a, x = .ok a ∧ f a = .ok b := by
  cases x with
  | error e => simp [bind, Except.bind]
  | ok a => simp [bind, Except.bind]

/-! ### Settings -/

/-- `_positive_float` and `_positive_int`, given the value of the variable. -/
def positive (name : String) (value : ℚ) : Except String Unit :=
  if value ≤ 0 then .error (name ++ " must be greater than zero") else .ok ()

namespace EngineSettings

variable (s : EngineSettings)

/-- `validate`; the mode is one of the valid ones by its type. -/
def validate : Except String Unit :=
  if s.maxReplicas < s.minReplicas then
    .error "CHRONOS_MAX_REPLICAS must be greater than or equal to CHRONOS_MIN_REPLICAS"
  else if s.forecastTtlSeconds < s.forecastIntervalSeconds then
    .error ("CHRONOS_FORECAST_TTL_SECONDS must be greater than or equal to " ++
      "CHRONOS_FORECAST_INTERVAL_SECONDS")
  else if s.fakeReplicas.any (· ≤ 0) then .error "CHRONOS_FAKE_REPLICAS must be greater than zero"
  else .ok ()

/-- `from_environment`, with the values of the variables in the fields of `s`. -/
def fromEnvironment : Except String EngineSettings := do
  positive "CHRONOS_THRESHOLD" s.thresholdCores
  positive "CHRONOS_CAPACITY_PER_REPLICA" s.capacityPerReplicaCores
  positive "CHRONOS_LOOKBACK_HOURS" s.lookbackHours
  positive "CHRONOS_PREDICTION_LENGTH" s.predictionLength
  positive "CHRONOS_STEP_SECONDS" s.stepSeconds
  positive "CHRONOS_MIN_REPLICAS" s.minReplicas
  positive "CHRONOS_MAX_REPLICAS" s.maxReplicas
  positive "CHRONOS_FORECAST_INTERVAL_SECONDS" s.forecastIntervalSeconds
  positive "CHRONOS_FORECAST_TTL_SECONDS" s.forecastTtlSeconds
  positive "CHRONOS_REQUEST_TIMEOUT_SECONDS" s.requestTimeoutSeconds
  s.validate
  return s

/-- The bounds and the capacity fit together. -/
structure Bounded : Prop where
  one_le_min : 1 ≤ s.minReplicas
  min_le_max : s.minReplicas ≤ s.maxReplicas
  capacity_pos : 0 < s.capacityPerReplicaCores

/-- The settings pass every check. -/
structure Valid : Prop extends s.Bounded where
  threshold_pos : 0 < s.thresholdCores
  lookback_pos : 0 < s.lookbackHours
  length_pos : 0 < s.predictionLength
  step_pos : 0 < s.stepSeconds
  interval_pos : 0 < s.forecastIntervalSeconds
  interval_le_ttl : s.forecastIntervalSeconds ≤ s.forecastTtlSeconds
  timeout_pos : 0 < s.requestTimeoutSeconds
  fake_pos : ∀ n ∈ s.fakeReplicas, 0 < n

variable {s}

lemma positive_eq_ok {name : String} {value : ℚ} {u : Unit} :
    positive name value = .ok u ↔ 0 < value := by
  by_cases h : value ≤ 0
  · simp [positive, h]
  · simp [positive, h, not_le.mp h]

lemma validate_eq_ok {u : Unit} :
    s.validate = .ok u ↔ s.minReplicas ≤ s.maxReplicas ∧
      s.forecastIntervalSeconds ≤ s.forecastTtlSeconds ∧ ∀ n ∈ s.fakeReplicas, 0 < n := by
  have hfake : s.fakeReplicas.any (· ≤ 0) = true ↔ ¬ ∀ n ∈ s.fakeReplicas, 0 < n := by
    cases s.fakeReplicas <;> simp
  rw [validate]
  split_ifs with hmax httl hpositive
  · simp [hmax]
  · simp [httl]
  · exact iff_of_false (by simp) fun h => hfake.mp hpositive h.2.2
  · exact iff_of_true rfl ⟨not_lt.mp hmax, not_lt.mp httl, not_not.mp (hpositive ∘ hfake.mpr)⟩

/-- **The settings that pass the checks.** -/
theorem fromEnvironment_eq_ok : s.fromEnvironment = .ok s ↔ s.Valid := by
  rw [fromEnvironment]
  simp only [bind_eq_ok, positive_eq_ok, validate_eq_ok, exists_const, Int.cast_pos]
  constructor
  · rintro ⟨hthreshold, hcap, hlook, hlength, hstep, hmin, -, hinterval, -, htimeout,
      ⟨hbounds, httl, hfake⟩, -⟩
    exact ⟨⟨hmin, hbounds, hcap⟩, hthreshold, hlook, hlength, hstep, hinterval, httl, htimeout,
      hfake⟩
  · intro h
    have hmin : 0 < s.minReplicas := h.one_le_min
    exact ⟨h.threshold_pos, h.capacity_pos, h.lookback_pos, h.length_pos, h.step_pos, hmin,
      hmin.trans_le h.min_le_max, h.interval_pos, h.interval_pos.trans_le h.interval_le_ttl,
      h.timeout_pos, ⟨h.min_le_max, h.interval_le_ttl, h.fake_pos⟩, rfl⟩

lemma valid_sampleWorker (mode : Mode) : (sampleWorker mode).Valid where
  one_le_min := le_rfl
  min_le_max := by norm_num [sampleWorker, ForecastSettings.sampleWorker]
  capacity_pos := by norm_num [sampleWorker]
  threshold_pos := by norm_num [sampleWorker]
  lookback_pos := by norm_num [sampleWorker]
  length_pos := by norm_num [sampleWorker]
  step_pos := by norm_num [sampleWorker]
  interval_pos := by norm_num [sampleWorker]
  interval_le_ttl := by norm_num [sampleWorker, ForecastSettings.sampleWorker]
  timeout_pos := by norm_num [sampleWorker]
  fake_pos := by simp [sampleWorker]

end EngineSettings

/-! ### The engine -/

/-- A result of the engine, with the fields that the runtime does not read. -/
structure EngineResult extends ForecastResult where
  ns : String
  deployment : String
  scaleOutNeeded : Bool
  currentReplicas : ℤ

/-- `predict_max` of a model: the values and the length of the prediction. -/
abbrev ForecastModel := List ℚ → ℤ → Except ForecastError ℚ

/-- `Chronos2Model.predict_max`, given the greatest value of the median forecast. -/
def chronos2Model (pipeline : ForecastModel) : ForecastModel := fun values predictionLength =>
  (pipeline values predictionLength).map (max 0)

lemma chronos2Model_nonneg {pipeline : ForecastModel} {values : List ℚ} {length : ℤ} {cpu : ℚ}
    (h : chronos2Model pipeline values length = .ok cpu) : 0 ≤ cpu := by
  rw [chronos2Model] at h
  cases hmax : pipeline values length with
  | error e =>
      rw [hmax] at h
      cases h
  | ok greatest =>
      rw [hmax] at h
      cases h
      exact le_max_left 0 greatest

/-- The engine, with what its provider of the current number of replicas returns. -/
structure ForecastEngine where
  settings : EngineSettings
  model : ForecastModel
  currentReplicasProvider : Option ℤ
  preserveCurrentWhenBelowThreshold : Bool
  clampToMaxReplicas : Bool

namespace ForecastEngine

variable (e : ForecastEngine)

/-- The values that are read and the predicted CPU demand in cores. -/
def predict (reply : RangeReply) : Except ForecastError (List ℚ × ℚ) :=
  match e.settings.fakeReplicas with
  | some n => .ok ([], n * e.settings.capacityPerReplicaCores)
  | none => do
      let values ← fetchCpuSeries e.settings reply
      let predictedCpu ← e.model values e.settings.predictionLength
      return (values, predictedCpu)

/-- `current_replicas`. -/
def currentReplicas : ℤ := e.currentReplicasProvider.getD e.settings.minReplicas

/-- `scale_out_needed`. -/
def scaleOutNeeded (predictedCpu : ℚ) : Bool := e.settings.thresholdCores < predictedCpu

/-- `predicted_replicas`. -/
def predictedReplicas (predictedCpu : ℚ) : ℤ :=
  if e.preserveCurrentWhenBelowThreshold && !e.scaleOutNeeded predictedCpu then e.currentReplicas
  else
    let replicas := max e.settings.minReplicas
      ⌈predictedCpu / e.settings.capacityPerReplicaCores⌉
    if e.clampToMaxReplicas then min e.settings.maxReplicas replicas else replicas

/-- The result for the given values and predicted demand, at the time `now`. -/
def result (now : ℚ) (values : List ℚ) (predictedCpu : ℚ) : EngineResult where
  timestamp := now
  forecastStartTime := now
  forecastEndTime := now + e.settings.predictionLength * e.settings.stepSeconds
  ns := e.settings.targetNamespace
  deployment := e.settings.targetDeployment
  predictedCpuUsage := roundTo 1000000 predictedCpu
  predictedMaxCpuPct := roundTo 1000 (predictedCpu / e.settings.capacityPerReplicaCores * 100)
  scaleOutNeeded := e.scaleOutNeeded predictedCpu
  currentReplicas := e.currentReplicas
  predictedReplicas := e.predictedReplicas predictedCpu
  sourcePoints := values.length

/-- `forecast`, at the time `now` and given the reply to the query. -/
def forecast (now : ℚ) (reply : RangeReply) : Except ForecastError EngineResult := do
  let prediction ← e.predict reply
  if e.settings.capacityPerReplicaCores = 0 then .error .zeroDivision
  else .ok (e.result now prediction.1 prediction.2)

/-- The engine of the service: it clamps and does not preserve the current number. -/
def service (s : EngineSettings) (model : ForecastModel) (provider : Option ℤ) :
    ForecastEngine := ⟨s, model, provider, false, true⟩

/-- The engine of the pipeline: it preserves the current number and does not clamp. -/
def legacy (s : EngineSettings) (model : ForecastModel) (current : ℤ) : ForecastEngine :=
  ⟨s, model, some current, true, false⟩

/-- With the given predicted demand the engine returns the given number of replicas. -/
def Signals (predictedCpu : ℚ) (r : ℤ) : Prop :=
  ∃ now reply values result, e.predict reply = .ok (values, predictedCpu) ∧
    e.forecast now reply = .ok result ∧ result.predictedReplicas = r

variable {e}

/-- A forecast with a predicted demand has a result. -/
lemma forecast_of_predict (hcap : e.settings.capacityPerReplicaCores ≠ 0) {reply : RangeReply}
    {values : List ℚ} {cpu : ℚ} (h : e.predict reply = .ok (values, cpu)) (now : ℚ) :
    e.forecast now reply = .ok (e.result now values cpu) := by
  rw [forecast, h]
  exact if_neg hcap

/-- The number of replicas depends on the demand only. -/
lemma Signals.eq_predictedReplicas (hcap : e.settings.capacityPerReplicaCores ≠ 0) {cpu : ℚ}
    {r : ℤ} (h : e.Signals cpu r) : r = e.predictedReplicas cpu := by
  obtain ⟨now, reply, values, result, hpredict, hresult, rfl⟩ := h
  rw [forecast_of_predict hcap hpredict, Except.ok.injEq] at hresult
  rw [← hresult]
  rfl

/-- **The predicted demand is not negative** with valid settings and the model of the service. -/
theorem predict_nonneg (hs : e.settings.Valid) {pipeline : ForecastModel}
    (hmodel : e.model = chronos2Model pipeline) {reply : RangeReply} {values : List ℚ} {cpu : ℚ}
    (h : e.predict reply = .ok (values, cpu)) : 0 ≤ cpu := by
  rw [predict] at h
  split at h
  · rename_i n hfake
    cases h
    have hn : (0 : ℚ) < n := by exact_mod_cast hs.fake_pos n hfake
    exact (mul_pos hn hs.capacity_pos).le
  · obtain ⟨fetched, -, h⟩ := bind_eq_ok.mp h
    obtain ⟨demand, hdemand, h⟩ := bind_eq_ok.mp h
    cases h
    rw [hmodel] at hdemand
    exact chronos2Model_nonneg hdemand

/-- A fake number of replicas needs neither the query nor the model. -/
lemma predict_of_fake {n : ℤ} (h : e.settings.fakeReplicas = some n) (reply : RangeReply) :
    e.predict reply = .ok ([], n * e.settings.capacityPerReplicaCores) := by
  rw [predict, h]

end ForecastEngine

/-! ### The signal of the service -/

namespace EngineSettings

variable (s : EngineSettings)

/-- The numbers of replicas within the bounds whose capacity covers the demand. -/
def sufficient (cpu : ℚ) : Set ℤ :=
  {r | s.minReplicas ≤ r ∧ r ≤ s.maxReplicas ∧ cpu ≤ r * s.capacityPerReplicaCores}

/-- The least sufficient number of replicas if there is one, and the greatest number that is
allowed otherwise. -/
def LeastSufficient (cpu : ℚ) (r : ℤ) : Prop :=
  IsLeast (s.sufficient cpu) r ∨ s.sufficient cpu = ∅ ∧ r = s.maxReplicas

/-- The number of replicas that the demand needs, within the bounds. -/
def signal (cpu : ℚ) : ℤ :=
  min s.maxReplicas (max s.minReplicas ⌈cpu / s.capacityPerReplicaCores⌉)

variable {s}

/-- The capacity covers the demand from the rounded quotient on. -/
lemma sufficient_eq (hcap : 0 < s.capacityPerReplicaCores) (cpu : ℚ) :
    s.sufficient cpu =
      {r | s.minReplicas ≤ r ∧ r ≤ s.maxReplicas ∧ ⌈cpu / s.capacityPerReplicaCores⌉ ≤ r} := by
  ext r
  simp only [sufficient, Set.mem_ofPred_eq, Int.ceil_le, div_le_iff₀ hcap]

/-- **The rounded and clamped quotient is the least sufficient number.** -/
lemma leastSufficient_signal (hs : s.Bounded) (cpu : ℚ) :
    s.LeastSufficient cpu (s.signal cpu) := by
  rw [LeastSufficient, sufficient_eq hs.capacity_pos]
  rcases le_or_gt ⌈cpu / s.capacityPerReplicaCores⌉ s.maxReplicas with hneed | hneed
  · exact .inl (isLeast_clamp hs.min_le_max hneed)
  · refine .inr ⟨?_, clamp_of_lt hneed⟩
    rw [Set.eq_empty_iff_forall_notMem]
    rintro r ⟨_, hmax, hr⟩
    omega

/-- The signal follows the demand, and less capacity needs more replicas. -/
lemma signal_mono {s' : EngineSettings} {cpu cpu' : ℚ} (hmin : s.minReplicas = s'.minReplicas)
    (hmax : s.maxReplicas = s'.maxReplicas) (hcap : 0 < s'.capacityPerReplicaCores)
    (hcaps : s'.capacityPerReplicaCores ≤ s.capacityPerReplicaCores) (hcpu : 0 ≤ cpu)
    (hle : cpu ≤ cpu') : s.signal cpu ≤ s'.signal cpu' := by
  have hdiv : cpu / s.capacityPerReplicaCores ≤ cpu' / s'.capacityPerReplicaCores :=
    calc cpu / s.capacityPerReplicaCores ≤ cpu / s'.capacityPerReplicaCores :=
          div_le_div_of_nonneg_left hcpu hcap hcaps
      _ ≤ cpu' / s'.capacityPerReplicaCores := div_le_div_of_nonneg_right hle hcap.le
  rw [signal, signal, hmin, hmax]
  exact min_le_min_left _ (max_le_max_left _ (Int.ceil_le_ceil hdiv))

/-- A fake number of replicas is its own need. -/
lemma signal_fake (hcap : 0 < s.capacityPerReplicaCores) (n : ℤ) :
    s.signal (n * s.capacityPerReplicaCores) = min s.maxReplicas (max s.minReplicas n) := by
  rw [signal, mul_div_cancel_right₀ _ hcap.ne', Int.ceil_intCast]

end EngineSettings

namespace ForecastEngine

variable {s s' : EngineSettings}

/-- **The signal of the service.** It is the least number of replicas within the bounds whose
capacity covers the predicted demand, and the upper bound when there is none; it does not
decrease with the demand and does not increase with the capacity; and a fake number of
replicas is returned within the bounds. -/
theorem service_signal (s : EngineSettings) (hs : s.Bounded) :
    (∀ model provider now reply values cpu, 0 ≤ cpu →
      (service s model provider).predict reply = .ok (values, cpu) →
      ∃ result, (service s model provider).forecast now reply = .ok result ∧
        s.LeastSufficient cpu result.predictedReplicas) ∧
    (∀ model provider model' provider' cpu cpu' r r', 0 ≤ cpu → cpu ≤ cpu' →
      (service s model provider).Signals cpu r →
      (service s model' provider').Signals cpu' r' → r ≤ r') ∧
    (∀ s' : EngineSettings, s'.minReplicas = s.minReplicas → s'.maxReplicas = s.maxReplicas →
      s.capacityPerReplicaCores ≤ s'.capacityPerReplicaCores →
      ∀ model provider model' provider' cpu r r', 0 ≤ cpu →
      (service s model provider).Signals cpu r →
      (service s' model' provider').Signals cpu r' → r' ≤ r) ∧
    ∀ n, s.fakeReplicas = some n → ∀ model provider now reply,
      ∃ result, (service s model provider).forecast now reply = .ok result ∧
        result.predictedReplicas = min s.maxReplicas (max s.minReplicas n) := by
  have hcap := hs.capacity_pos
  refine ⟨fun model provider now reply values cpu _ hpredict => ?_,
    fun model provider model' provider' cpu cpu' r r' hcpu hle hr hr' => ?_,
    fun s' hmin hmax hcaps model provider model' provider' cpu r r' hcpu hr hr' => ?_,
    fun n hn model provider now reply => ?_⟩
  · exact ⟨_, forecast_of_predict hcap.ne' hpredict now,
      EngineSettings.leastSufficient_signal hs cpu⟩
  · rw [hr.eq_predictedReplicas hcap.ne', hr'.eq_predictedReplicas hcap.ne']
    exact EngineSettings.signal_mono rfl rfl hcap le_rfl hcpu hle
  · have hcap' : 0 < s'.capacityPerReplicaCores := hcap.trans_le hcaps
    rw [hr.eq_predictedReplicas hcap.ne', hr'.eq_predictedReplicas hcap'.ne']
    exact EngineSettings.signal_mono hmin hmax hcap hcaps hcpu le_rfl
  · exact ⟨_, forecast_of_predict hcap.ne' (predict_of_fake hn reply) now,
      EngineSettings.signal_fake hcap n⟩

/-- The default settings with a fake number of replicas. -/
def fakeSettings (n : ℤ) : EngineSettings :=
  { EngineSettings.sampleWorker .active with fakeReplicas := some n }

theorem service_signal_nine :
    ∃ result, (service (fakeSettings 9) (fun _ _ => .ok 0) none).forecast 0 (.raised "") =
      .ok result ∧ result.predictedReplicas = min 3 (max 1 9) :=
  have hbounded := (EngineSettings.valid_sampleWorker .active).toBounded
  (service_signal (fakeSettings 9) ⟨hbounded.one_le_min, hbounded.min_le_max,
    hbounded.capacity_pos⟩).2.2.2 9 rfl _ none 0 _

end ForecastEngine

/-! ### The service in the runtime -/

namespace Runtime

/-- The step of `_run_once_for`, with what the forecast of the target returned or raised, the
text of a payload and the seconds since the start. -/
def runOnceFor (s : EngineSettings) (outcome : Except ForecastError EngineResult)
    (repr : RangePayload → String) (seconds : ℚ) : Act :=
  if s.mode = .disabled then .disable s.key
  else match outcome with
    | .error e => .recordError s.key (e.text repr) seconds
    | .ok result => .publish s.key result.toForecastResult seconds

/-- The signal of the service is within the bounds. -/
lemma signal_mem_bounds {s : EngineSettings} (hs : s.Bounded) (cpu : ℚ) :
    s.minReplicas ≤ s.signal cpu ∧ s.signal cpu ≤ s.maxReplicas :=
  ⟨le_min hs.min_le_max (le_max_left _ _), min_le_left _ _⟩

/-- **The scaling signal is off or within the bounds** after a pass of the service, which is
a step of the runtime. -/
theorem exists_stepFor_runOnceFor (rt : Runtime) {s : EngineSettings} (hs : s.Bounded)
    (model : ForecastModel) (provider : Option ℤ) (now : ℚ) (reply : RangeReply)
    (repr : RangePayload → String) (seconds : ℚ) :
    ∃ rt', rt.stepFor s.toForecastSettings (runOnceFor s
        ((ForecastEngine.service s model provider).forecast now reply) repr seconds) = some rt' ∧
      ((rt'.gauges s.key).scalingReplicas = 0 ∨ ∃ r : ℤ, (rt'.gauges s.key).scalingReplicas = r ∧
        s.minReplicas ≤ r ∧ r ≤ s.maxReplicas) := by
  by_cases hmode : s.mode = .disabled
  · refine ⟨rt.disable s.toForecastSettings, ?_, .inl ?_⟩
    · simp [runOnceFor, stepFor, hmode]
    · rw [disable, put_gauges_self]
      rfl
  · cases hpredict : (ForecastEngine.service s model provider).predict reply with
    | error e =>
        have hforecast : (ForecastEngine.service s model provider).forecast now reply =
            .error e := by rw [ForecastEngine.forecast, hpredict]; rfl
        refine ⟨rt.recordError s.toForecastSettings (e.text repr) seconds, ?_, .inl ?_⟩
        · simp [runOnceFor, stepFor, hmode, hforecast]
        · rw [recordError, put_gauges_self]
    | ok prediction =>
        have hforecast := ForecastEngine.forecast_of_predict hs.capacity_pos.ne' hpredict now
        refine ⟨_, by simp only [runOnceFor, stepFor, hmode, hforecast, if_false]; rfl, ?_⟩
        by_cases hactive : s.mode = .active
        · refine .inr ⟨s.signal prediction.2, ?_, signal_mem_bounds hs _⟩
          rw [publish, put_gauges_self]
          exact if_pos hactive
        · refine .inl ?_
          rw [publish, put_gauges_self]
          exact if_neg hactive

end Runtime

end Chronos

end FinOpsPipeline
