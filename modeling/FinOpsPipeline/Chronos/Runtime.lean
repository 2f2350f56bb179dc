import FinOpsPipeline.Foundations.PyText
import FinOpsPipeline.Foundations.Rounding
import FinOpsPipeline.Foundations.TransitionSystem

/-!
The forecast runtime of `chronos/app.py`: for each target its state and its gauges.

Times are exact instants; a time stamp of a result is the instant that its text denotes.

* `Config.targets`: the primary target and the extra targets, each key once.
* `Runtime.publish`, `Runtime.recordError`, `Runtime.disable`: what one pass of
  `_run_once_for` does under the lock, by the outcome of the forecast.
* `Runtime.refreshExpiryFor`: the lock-protected section of `_refresh_expiry_for`.
* `Runtime.readPrediction`: the second lock-protected section of `prediction_response`.
* `Runtime.step`: the lock-protected steps that change the runtime, in any order and on
  any targets; `Runtime.step_other` says that a step changes one target only.
-/

namespace FinOpsPipeline

namespace Chronos

/-! ### Targets -/

/-- The modes that `validate` accepts. -/
inductive Mode where
  | disabled | shadow | active
  deriving DecidableEq

/-- The settings of a target that the runtime reads. -/
structure ForecastSettings where
  targetNamespace : String
  targetDeployment : String
  mode : Mode
  minReplicas : ℤ
  forecastTtlSeconds : ℤ
  modelId : String
  deriving DecidableEq

/-- A target is known by its namespace and deployment. -/
abbrev Key := String × String

/-- The key of the target that the settings are for. -/
def ForecastSettings.key (s : ForecastSettings) : Key := (s.targetNamespace, s.targetDeployment)

/-- The arguments of `ForecastRuntime`: the primary target and the extra ones. -/
structure Config where
  settings : ForecastSettings
  extraTargets : List ForecastSettings

namespace Config

variable (cfg : Config)

/-- The targets in order; an extra target with a key that is taken is skipped. -/
def targets : List ForecastSettings :=
  cfg.extraTargets.foldl (fun targets s => if s.key ∈ targets.map ForecastSettings.key then targets
    else targets ++ [s]) [cfg.settings]

/-- `_settings_by_key[key]`. -/
def settingsByKey (key : Key) : Option ForecastSettings := cfg.targets.find? fun s => s.key = key

end Config

/-- The default target in the given mode. -/
def ForecastSettings.sampleWorker (mode : Mode) : ForecastSettings :=
  ⟨"sample-fastapi", "sample-worker", mode, 1, 120, "amazon/chronos-2"⟩

/-! ### Results and states -/

/-- A result of a forecast. -/
structure ForecastResult where
  timestamp : ℚ
  forecastStartTime : ℚ
  forecastEndTime : ℚ
  predictedCpuUsage : ℚ
  predictedMaxCpuPct : ℚ
  predictedReplicas : ℤ
  sourcePoints : ℕ
  deriving DecidableEq

/-- A result for two replicas, computed at the given time for the next 720 seconds. -/
def ForecastResult.twoReplicas (timestamp : ℚ) : ForecastResult :=
  ⟨timestamp, timestamp, timestamp + 720, 4 / 5, 160, 2, 120⟩

/-- The state of a target. -/
structure RuntimeState where
  latest : Option ForecastResult
  valid : Bool
  lastError : Option String
  deriving DecidableEq

/-- The state of a new runtime. -/
def RuntimeState.new : RuntimeState := ⟨none, false, none⟩

/-- The gauges of a target, and the counter of its errors. -/
structure Gauges where
  predictedCpu : ℚ
  predictedReplicas : ℚ
  scalingReplicas : ℚ
  forecastTimestamp : ℚ
  forecastStart : ℚ
  forecastEnd : ℚ
  forecastValid : ℚ
  executionSeconds : ℚ
  errors : ℕ
  deriving DecidableEq

/-- `_set_inactive_metrics`; the counter of errors stays. -/
def Gauges.setInactiveMetrics (g : Gauges) (s : ForecastSettings) : Gauges :=
  { g with
    predictedCpu := 0
    predictedReplicas := s.minReplicas
    scalingReplicas := 0
    forecastTimestamp := 0
    forecastStart := 0
    forecastEnd := 0
    forecastValid := 0
    executionSeconds := 0 }

/-- No value has been set. -/
def Gauges.unset : Gauges := ⟨0, 0, 0, 0, 0, 0, 0, 0, 0⟩

/-- A number of seconds with one decimal place, as `:.1f` prints it. -/
def tenthsText (q : ℚ) : String :=
  let n := roundHalfEven (q * 10)
  String.ofList ((if n < 0 then ['-'] else []) ++ intText (n.natAbs / 10 : ℕ) ++ '.' ::
    intText (n.natAbs % 10 : ℕ))

/-- The error of a result whose age is beyond the time to live. -/
def expiredText (age : ℚ) (ttl : ℤ) : String :=
  "forecast expired after " ++ tenthsText age ++ "s (ttl=" ++ String.ofList (intText ttl) ++ "s)"

/-! ### The runtime -/

/-- What the lock protects. -/
structure Runtime where
  states : Key → RuntimeState
  gauges : Key → Gauges

namespace Runtime

variable (rt : Runtime) (s : ForecastSettings)

/-- A runtime with a new state and gauges for one target. -/
def put (key : Key) (state : RuntimeState) (gauges : Gauges) : Runtime :=
  ⟨Function.update rt.states key state, Function.update rt.gauges key gauges⟩

/-- A new runtime. -/
def start (cfg : Config) : Runtime :=
  cfg.targets.foldl
    (fun rt s => rt.put s.key (rt.states s.key) ((rt.gauges s.key).setInactiveMetrics s))
    ⟨fun _ => .new, fun _ => .unset⟩

/-- `_run_once_for` of a disabled target. -/
def disable : Runtime :=
  rt.put s.key { rt.states s.key with valid := false, lastError := none }
    ((rt.gauges s.key).setInactiveMetrics s)

/-- `_run_once_for` after a forecast that raised an error, `seconds` after its start. -/
def recordError (message : String) (seconds : ℚ) : Runtime :=
  rt.put s.key { rt.states s.key with valid := false, lastError := some message }
    { rt.gauges s.key with
      scalingReplicas := 0
      forecastValid := 0
      executionSeconds := seconds
      errors := (rt.gauges s.key).errors + 1 }

/-- `_run_once_for` after a forecast that returned a result, `seconds` after its start. -/
def publish (result : ForecastResult) (seconds : ℚ) : Runtime :=
  rt.put s.key ⟨some result, true, none⟩
    { rt.gauges s.key with
      predictedCpu := result.predictedCpuUsage
      predictedReplicas := result.predictedReplicas
      scalingReplicas := if s.mode = .active then (result.predictedReplicas : ℚ) else 0
      forecastTimestamp := result.timestamp
      forecastStart := result.forecastStartTime
      forecastEnd := result.forecastEndTime
      forecastValid := 1
      executionSeconds := seconds }

/-- The state that `_refresh_expiry_for` leaves at the time `now`. -/
def expire (now : ℚ) (state : RuntimeState) : RuntimeState :=
  match state.latest with
  | none => { state with valid := false }
  | some latest =>
      if s.forecastTtlSeconds < now - latest.timestamp then
        { state with
          valid := false
          lastError := some (expiredText (now - latest.timestamp) s.forecastTtlSeconds) }
      else state

/-- `_refresh_expiry_for` at the time `now`; what it returns is `valid` afterwards. -/
def refreshExpiryFor (now : ℚ) : Runtime :=
  let state := expire s now (rt.states s.key)
  rt.put s.key state
    (if state.valid then rt.gauges s.key
      else { rt.gauges s.key with scalingReplicas := 0, forecastValid := 0 })

end Runtime

/-! ### Responses -/

/-- A prediction as the service returns it. -/
structure Prediction where
  predictedMaxCpuPct : ℚ
  predictedMaxMemPct : Option ℚ
  predictedReqPerSec : Option ℚ
  predictedCpuCores : ℚ
  predictedReplicas : ℤ
  forecastValid : Bool
  forecastTimestamp : ℚ
  forecastStartTime : ℚ
  forecastEndTime : ℚ
  mode : Mode
  modelId : String
  sourcePoints : ℕ

/-- An HTTP error and its detail. -/
structure HttpError where
  status : ℕ
  detail : String

namespace Runtime

/-- What the service returns for a target from its latest result. -/
def prediction (s : ForecastSettings) (result : ForecastResult) : Prediction where
  predictedMaxCpuPct := result.predictedMaxCpuPct
  predictedMaxMemPct := none
  predictedReqPerSec := none
  predictedCpuCores := result.predictedCpuUsage
  predictedReplicas := result.predictedReplicas
  forecastValid := true
  forecastTimestamp := result.timestamp
  forecastStartTime := result.forecastStartTime
  forecastEndTime := result.forecastEndTime
  mode := s.mode
  modelId := s.modelId
  sourcePoints := result.sourcePoints

/-- The second section of `prediction_response`: the latest result if it is valid. -/
def readPrediction (rt : Runtime) (s : ForecastSettings) : Except HttpError Prediction :=
  let state := rt.states s.key
  match state.latest with
  | some result =>
      if state.valid then .ok (prediction s result) else .error ⟨503, detail state.lastError⟩
  | none => .error ⟨503, detail state.lastError⟩
where
  /-- An empty error is no error. -/
  detail (lastError : Option String) : String :=
    match lastError with
    | some message => if message = "" then "forecast is not available" else message
    | none => "forecast is not available"

/-- A target is served by its latest result, which is valid, or the reply is a 503. -/
lemma readPrediction_cases (rt : Runtime) (s : ForecastSettings) :
    (∃ detail, rt.readPrediction s = .error ⟨503, detail⟩) ∨
      ∃ result, (rt.states s.key).latest = some result ∧ (rt.states s.key).valid = true ∧
        rt.readPrediction s = .ok (prediction s result) := by
  rw [readPrediction]
  cases hlatest : (rt.states s.key).latest with
  | none => exact .inl ⟨_, rfl⟩
  | some result =>
      cases hvalid : (rt.states s.key).valid with
      | false => exact .inl ⟨_, rfl⟩
      | true => exact .inr ⟨result, rfl, rfl, rfl⟩

end Runtime

/-! ### Steps -/

/-- The lock-protected steps that change the runtime, each on one target. -/
inductive Act where
  | publish (key : Key) (result : ForecastResult) (seconds : ℚ)
  | recordError (key : Key) (message : String) (seconds : ℚ)
  | disable (key : Key)
  | refresh (key : Key) (now : ℚ)

/-- The target of a step. -/
def Act.key : Act → Key
  | .publish key _ _ | .recordError key _ _ | .disable key | .refresh key _ => key

namespace Runtime

/-- What a step on the target with the settings `s` does. A disabled target makes no forecast. -/
def stepFor (s : ForecastSettings) (rt : Runtime) : Act → Option Runtime
  | .publish _ result seconds =>
      if s.mode = .disabled then none else some (rt.publish s result seconds)
  | .recordError _ message seconds =>
      if s.mode = .disabled then none else some (rt.recordError s message seconds)
  | .disable _ => if s.mode = .disabled then some (rt.disable s) else none
  | .refresh _ now => some (rt.refreshExpiryFor s now)

/-- One step, on a target of the runtime. -/
def step (cfg : Config) (rt : Runtime) (a : Act) : Option Runtime :=
  (cfg.settingsByKey a.key).bind fun s => rt.stepFor s a

end Runtime

/-- The runtime under any order of its lock-protected steps. -/
def Config.system (cfg : Config) : System Runtime Act where
  init rt := rt = Runtime.start cfg
  step := Runtime.step cfg

namespace Runtime

variable {cfg : Config} {rt rt' : Runtime} {s : ForecastSettings} {a : Act} {key : Key}
  {state : RuntimeState} {gauges : Gauges}

lemma key_of_settingsByKey (h : cfg.settingsByKey key = some s) : s.key = key := by
  have hfound := List.find?_some h
  exact of_decide_eq_true hfound

@[simp] lemma put_states_self : (rt.put key state gauges).states key = state :=
  Function.update_self ..

@[simp] lemma put_gauges_self : (rt.put key state gauges).gauges key = gauges :=
  Function.update_self ..

lemma put_states_of_ne {k : Key} (h : k ≠ key) : (rt.put key state gauges).states k = rt.states k :=
  Function.update_of_ne h ..

lemma put_gauges_of_ne {k : Key} (h : k ≠ key) : (rt.put key state gauges).gauges k = rt.gauges k :=
  Function.update_of_ne h ..

/-- The rule for a new runtime: what holds of a new state with unset gauges and is kept by
`_set_inactive_metrics` holds of every target. -/
lemma start_rule {P : RuntimeState → Gauges → Prop} (hnew : P .new .unset)
    (hset : ∀ state g s, P state g → P state (g.setInactiveMetrics s)) (cfg : Config) (key : Key) :
    P ((start cfg).states key) ((start cfg).gauges key) := by
  have hfold (targets : List ForecastSettings) : ∀ rt : Runtime,
      (∀ k, P (rt.states k) (rt.gauges k)) →
      ∀ k, P ((targets.foldl (fun rt s => rt.put s.key (rt.states s.key)
        ((rt.gauges s.key).setInactiveMetrics s)) rt).states k)
        ((targets.foldl (fun rt s => rt.put s.key (rt.states s.key)
        ((rt.gauges s.key).setInactiveMetrics s)) rt).gauges k) := by
    induction targets with
    | nil => exact fun rt h => h
    | cons s targets ih =>
        intro rt h
        refine ih _ fun k => ?_
        by_cases hk : k = s.key
        · subst hk
          rw [put_states_self, put_gauges_self]
          exact hset _ _ _ (h s.key)
        · rw [put_states_of_ne hk, put_gauges_of_ne hk]
          exact h k
  exact hfold cfg.targets _ (fun _ => hnew) key

/-- A step puts a new state and new gauges for one target. -/
lemma stepFor_put (h : rt.stepFor s a = some rt') :
    ∃ state gauges, rt' = rt.put s.key state gauges := by
  cases a with
  | publish | recordError =>
      rw [stepFor] at h
      split at h
      · cases h
      · cases h
        exact ⟨_, _, rfl⟩
  | disable =>
      rw [stepFor] at h
      split at h
      · cases h
        exact ⟨_, _, rfl⟩
      · cases h
  | refresh =>
      cases h
      exact ⟨_, _, rfl⟩

/-- **A step on one target** changes no other. -/
theorem step_other (h : step cfg rt a = some rt') {k : Key} (hk : k ≠ a.key) :
    rt'.states k = rt.states k ∧ rt'.gauges k = rt.gauges k := by
  obtain ⟨s, hs, hstep⟩ := Option.bind_eq_some_iff.mp h
  obtain ⟨state, gauges, rfl⟩ := stepFor_put hstep
  rw [key_of_settingsByKey hs]
  exact ⟨put_states_of_ne hk, put_gauges_of_ne hk⟩

end Runtime

end Chronos

end FinOpsPipeline
