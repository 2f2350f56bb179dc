import FinOpsPipeline.Chronos.Runtime
import Mathlib.Algebra.BigOperators.Group.List.Basic
import Mathlib.Algebra.Order.BigOperators.Group.List
import Mathlib.Data.List.Nodup
import Mathlib.Tactic.Linarith

/-!
How long a forecast has to live so that it stays valid between refreshes.

`_run_loop` runs the forecasts of all targets one after the other and then waits for the
interval. A result carries the time at which its forecast started, and it is replaced when
the forecast of the same target in the next cycle is done.

* `LoopState.step`: the loop with the time that its forecasts take, and calls of
  `_refresh_expiry_for` at any instant.
* `LoopSettings.loop_reachable`: the runtime of the loop is reachable in the system of the
  lock-protected steps.
* `cycleStart`, `Phase.OnTime`: when each cycle starts, and what the clock reads at each
  point of the loop.
* `run_scheduled`: the time stamp of the latest result of every target in every run.
* `stays_valid_iff`: a target is valid from its first result on if and only if no two
  consecutive cycles let a result grow older than its time to live.
-/

namespace FinOpsPipeline

namespace Chronos

/-! ### The loop -/

/-- The arguments of `ForecastRuntime` with the interval of the primary target, which
`from_env` accepts only if it is positive. -/
structure LoopSettings where
  config : Config
  forecastIntervalSeconds : ℤ
  interval_pos : 0 < forecastIntervalSeconds

/-- The time that the forecast of a target takes in each cycle. -/
structure Durations where
  seconds : ℕ → Key → ℚ
  nonneg : ∀ cycle key, 0 ≤ seconds cycle key

/-- Where the loop is: in the forecast of a target, with the targets after it, or in
`stop_event.wait`. -/
inductive Phase where
  | forecasting (cycle : ℕ) (s : ForecastSettings) (rest : List ForecastSettings) (started : ℚ)
  | waiting (cycle : ℕ) (since : ℚ)

/-- The next iteration of `for key in self.target_keys`, or the wait after the last one. -/
def Phase.enter (cycle : ℕ) (now : ℚ) : List ForecastSettings → Phase
  | s :: rest => .forecasting cycle s rest now
  | [] => .waiting cycle now

/-- The end of a forecast or of a wait. A disabled target makes no forecast. -/
def Phase.ends (L : LoopSettings) (d : Durations) : Phase → ℚ
  | .forecasting cycle s _ started =>
      if s.mode = .disabled then started else started + d.seconds cycle s.key
  | .waiting _ since => since + L.forecastIntervalSeconds

/-- The clock, what the lock protects, and the loop. -/
structure LoopState where
  now : ℚ
  runtime : Runtime
  phase : Phase

/-- What can happen: time passes in a forecast or in the wait, a forecast returns or raises,
a disabled target is skipped, the wait ends, and `_refresh_expiry_for` runs for a target. -/
inductive LoopEvent where
  | tick (dt : ℚ)
  | finish (outcome : Except String ForecastResult)
  | skip
  | wake
  | refresh (key : Key)

/-- The lock-protected section of `_run_once_for` after a forecast that started at `started`
and ends now. The time stamp of a result is read at the start of `forecast`. -/
def finishAct (s : ForecastSettings) (started now : ℚ) : Except String ForecastResult → Act
  | .ok result =>
      .publish s.key { result with timestamp := started, forecastStartTime := started }
        (now - started)
  | .error message => .recordError s.key message (now - started)

namespace LoopState

variable (L : LoopSettings) (d : Durations) (w : LoopState)

/-- One step. -/
def step : LoopEvent → Option LoopState
  | .tick dt =>
      if 0 ≤ dt ∧ w.now + dt ≤ w.phase.ends L d then some { w with now := w.now + dt } else none
  | .finish outcome =>
      match w.phase with
      | .forecasting cycle s rest started =>
          if w.now = w.phase.ends L d then
            (w.runtime.step L.config (finishAct s started w.now outcome)).map fun rt =>
              { w with runtime := rt, phase := .enter cycle w.now rest }
          else none
      | .waiting _ _ => none
  | .skip =>
      match w.phase with
      | .forecasting cycle s rest _ =>
          (w.runtime.step L.config (.disable s.key)).map fun rt =>
            { w with runtime := rt, phase := .enter cycle w.now rest }
      | .waiting _ _ => none
  | .wake =>
      match w.phase with
      | .forecasting _ _ _ _ => none
      | .waiting cycle _ =>
          if w.now = w.phase.ends L d then
            some { w with phase := .enter (cycle + 1) w.now L.config.targets }
          else none
  | .refresh key =>
      (w.runtime.step L.config (.refresh key w.now)).map fun rt => { w with runtime := rt }

/-- The guard of the runs in which every forecast succeeds. -/
def Succeeds (_ : LoopState) : LoopEvent → Prop
  | .finish (.error _) => False
  | _ => True

end LoopState

/-- The loop of a new runtime that is started at the given time. -/
def LoopSettings.loop (L : LoopSettings) (d : Durations) (start : ℚ) :
    System LoopState LoopEvent where
  init w := w = ⟨start, .start L.config, .enter 0 start L.config.targets⟩
  step := LoopState.step L d

/-- The loop and the checks change the runtime by its lock-protected steps only. -/
theorem LoopSettings.loop_reachable {L : LoopSettings} {d : Durations} {start : ℚ} {w : LoopState}
    {ok : LoopState → LoopEvent → Prop} (hrun : (L.loop d start).Run ok w) :
    L.config.system.Reachable w.runtime := by
  refine hrun.invariant (P := fun w => L.config.system.Reachable w.runtime) ?_
    fun u e v _ _ ih h => ?_
  · rintro _ rfl
    exact .init rfl
  · cases e with
    | tick dt =>
        obtain ⟨-, ⟨⟩⟩ := Option.ite_none_right_eq_some.mp h
        exact ih
    | finish outcome =>
        simp only [loop, LoopState.step] at h
        split at h
        · obtain ⟨-, hmap⟩ := Option.ite_none_right_eq_some.mp h
          obtain ⟨rt, hrt, rfl⟩ := Option.map_eq_some_iff.mp hmap
          exact ih.step trivial hrt
        · cases h
    | skip =>
        simp only [loop, LoopState.step] at h
        split at h
        · obtain ⟨rt, hrt, rfl⟩ := Option.map_eq_some_iff.mp h
          exact ih.step trivial hrt
        · cases h
    | wake =>
        simp only [loop, LoopState.step] at h
        split at h
        · cases h
        · obtain ⟨-, ⟨⟩⟩ := Option.ite_none_right_eq_some.mp h
          exact ih
    | refresh key =>
        obtain ⟨rt, hrt, rfl⟩ := Option.map_eq_some_iff.mp h
        exact ih.step trivial hrt

/-- The target is found valid by every `_refresh_expiry_for` after its first publication. -/
def StaysValid (L : LoopSettings) (d : Durations) (start : ℚ) (s : ForecastSettings) : Prop :=
  ∀ w, (L.loop d start).Run LoopState.Succeeds w → (w.runtime.states s.key).latest.isSome = true →
    ((w.runtime.refreshExpiryFor s w.now).states s.key).valid = true

/-! ### The targets -/

namespace Config

variable (cfg : Config)

/-- Each key is the key of one target. -/
lemma nodup_targets : (cfg.targets.map ForecastSettings.key).Nodup := by
  rw [targets]
  have hfold (extra : List ForecastSettings) : ∀ targets : List ForecastSettings,
      (targets.map ForecastSettings.key).Nodup →
      ((extra.foldl (fun targets s => if s.key ∈ targets.map ForecastSettings.key then targets
        else targets ++ [s]) targets).map ForecastSettings.key).Nodup := by
    induction extra with
    | nil => exact fun targets h => h
    | cons s extra ih =>
        intro targets h
        rw [List.foldl_cons]
        split
        · exact ih targets h
        · rename_i hnew
          refine ih _ ?_
          rw [List.map_append, List.map_singleton]
          exact h.append (List.nodup_singleton _) (List.disjoint_singleton.mpr hnew)
  exact hfold _ _ (List.nodup_singleton _)

variable {cfg}

lemma settingsByKey_of_mem {s : ForecastSettings} (h : s ∈ cfg.targets) :
    cfg.settingsByKey s.key = some s := by
  cases hfind : cfg.settingsByKey s.key with
  | none => simpa using List.find?_eq_none.mp hfind s h
  | some t =>
      have hkey : t.key = s.key := Runtime.key_of_settingsByKey hfind
      have hmem : t ∈ cfg.targets := List.mem_of_find?_eq_some hfind
      rw [List.inj_on_of_nodup_map cfg.nodup_targets hmem h hkey]

end Config

/-- Two ways to split a list at a member, by which member comes first. -/
lemma split_cases {targets done done' rest rest' : List ForecastSettings} {s x : ForecastSettings}
    (hnodup : targets.Nodup) (h : targets = done ++ s :: rest) (h' : targets = done' ++ x :: rest')
    (hs : s ∈ x :: rest') :
    done = done' ∧ s = x ∧ rest = rest' ∨
      s ≠ x ∧ ∃ between, done = done' ++ x :: between ∧ rest' = between ++ s :: rest := by
  rcases List.append_eq_append_iff.mp (h'.symm.trans h) with ⟨a, hdone, hrest⟩ | ⟨a, hdone, hrest⟩
  · cases a with
    | nil =>
        obtain ⟨rfl, rfl⟩ := List.cons.inj hrest
        exact .inl ⟨by rw [hdone, List.append_nil], rfl, rfl⟩
    | cons y between =>
        obtain ⟨rfl, rfl⟩ := List.cons.inj hrest
        refine .inr ⟨?_, between, hdone, rfl⟩
        rintro rfl
        rw [h, hdone] at hnodup
        exact List.disjoint_of_nodup_append hnodup (by simp) (List.mem_cons_self ..)
  · cases a with
    | nil =>
        obtain ⟨rfl, rfl⟩ := List.cons.inj hrest
        exact .inl ⟨by rw [hdone, List.append_nil], rfl, rfl⟩
    | cons y between =>
        obtain ⟨rfl, -⟩ := List.cons.inj hrest
        rw [h'] at hnodup
        exact absurd hs (List.disjoint_of_nodup_append hnodup (by simp [hdone]))

/-! ### The schedule -/

section Schedule

variable (L : LoopSettings) (d : Durations) (start : ℚ)

/-- The time that the forecasts of some targets take in a cycle. -/
def Durations.span (cycle : ℕ) (targets : List ForecastSettings) : ℚ :=
  (targets.map fun s => d.seconds cycle s.key).sum

/-- The time at which a cycle starts. -/
def cycleStart : ℕ → ℚ
  | 0 => start
  | cycle + 1 =>
      cycleStart cycle + d.span cycle L.config.targets + L.forecastIntervalSeconds

/-- What the clock can read at a point of the loop. -/
def Phase.OnTime (now : ℚ) : Phase → Prop
  | .forecasting cycle s rest started =>
      ∃ done, L.config.targets = done ++ s :: rest ∧
        started = cycleStart L d start cycle + d.span cycle done ∧
        now ≤ started + d.seconds cycle s.key
  | .waiting cycle since =>
      since = cycleStart L d start cycle + d.span cycle L.config.targets ∧
        now ≤ since + L.forecastIntervalSeconds

/-- How often a target was published. -/
def Phase.published (s : ForecastSettings) : Phase → ℕ
  | .forecasting cycle x rest _ => if s ∈ x :: rest then cycle else cycle + 1
  | .waiting cycle _ => cycle + 1

/-- The latest result of a target, with the targets `done` before it, after a number of
publications. -/
def Stamped (done : List ForecastSettings) : ℕ → Option ForecastResult → Prop
  | 0, latest => latest = none
  | cycle + 1, latest => ∃ result, latest = some result ∧
      result.timestamp = cycleStart L d start cycle + d.span cycle done

end Schedule

variable {L : LoopSettings} {d : Durations} {start now : ℚ} {w w' : LoopState}
  {cycle : ℕ} {done rest targets : List ForecastSettings} {s x : ForecastSettings}

namespace Durations

@[simp] lemma span_append (cycle : ℕ) (l l' : List ForecastSettings) :
    d.span cycle (l ++ l') = d.span cycle l + d.span cycle l' := by
  rw [span, List.map_append, List.sum_append, span, span]

@[simp] lemma span_singleton (cycle : ℕ) (s : ForecastSettings) :
    d.span cycle [s] = d.seconds cycle s.key := by
  rw [span, List.map_singleton, List.sum_singleton]

lemma span_cons (cycle : ℕ) (s : ForecastSettings) (l : List ForecastSettings) :
    d.span cycle (s :: l) = d.seconds cycle s.key + d.span cycle l := by
  rw [span, List.map_cons, List.sum_cons, span]

lemma span_nonneg (cycle : ℕ) (l : List ForecastSettings) : 0 ≤ d.span cycle l := by
  refine List.sum_nonneg fun t ht => ?_
  obtain ⟨s, -, rfl⟩ := List.mem_map.mp ht
  exact d.nonneg cycle s.key

end Durations

lemma Phase.published_enter (cycle : ℕ) (now : ℚ) (l : List ForecastSettings)
    (s : ForecastSettings) :
    (Phase.enter cycle now l).published s = if s ∈ l then cycle else cycle + 1 := by
  cases l with
  | nil => rw [enter, published, if_neg List.not_mem_nil]
  | cons x rest => rfl

/-- The loop goes on to the targets after `done`. -/
lemma Phase.onTime_enter (hsplit : L.config.targets = done ++ rest)
    (hnow : now = cycleStart L d start cycle + d.span cycle done) :
    (Phase.enter cycle now rest).OnTime L d start now := by
  cases rest with
  | nil =>
      rw [List.append_nil] at hsplit
      have hpos : (0 : ℚ) < L.forecastIntervalSeconds := Int.cast_pos.mpr L.interval_pos
      exact ⟨by rw [hnow, hsplit], by linarith⟩
  | cons x rest => exact ⟨done, hsplit, hnow, by linarith [d.nonneg cycle x.key]⟩

/-- The clock does not pass the next publication of any target. -/
lemma Phase.OnTime.le {phase : Phase} (h : phase.OnTime L d start now)
    (hs : L.config.targets = done ++ s :: rest) :
    now ≤ cycleStart L d start (phase.published s) + d.span (phase.published s) (done ++ [s]) := by
  have hpos : (0 : ℚ) < L.forecastIntervalSeconds := Int.cast_pos.mpr L.interval_pos
  have hnodup : L.config.targets.Nodup := L.config.nodup_targets.of_map _
  cases phase with
  | forecasting cycle x rest' started =>
      obtain ⟨done', hsplit, hstarted, hnow⟩ := h
      rw [published]
      split
      · rename_i hmem
        rcases split_cases hnodup hs hsplit hmem with
          ⟨rfl, rfl, rfl⟩ | ⟨-, between, rfl, -⟩
        · rw [Durations.span_append, Durations.span_singleton]
          linarith
        · rw [Durations.span_append, Durations.span_append, Durations.span_cons,
            Durations.span_singleton]
          linarith [d.span_nonneg cycle between, d.nonneg cycle s.key]
      · rw [cycleStart, hsplit, Durations.span_append, Durations.span_cons]
        linarith [d.span_nonneg cycle rest', d.span_nonneg (cycle + 1) (done ++ [s])]
  | waiting cycle since =>
      obtain ⟨hsince, hnow⟩ := h
      rw [published, cycleStart]
      linarith [d.span_nonneg (cycle + 1) (done ++ [s])]

/-! ### The states of the targets -/

namespace Runtime

variable {rt : Runtime} {key : Key} {state : RuntimeState}

lemma publish_states_self (rt : Runtime) (s : ForecastSettings) (result : ForecastResult)
    (seconds : ℚ) : (rt.publish s result seconds).states s.key = ⟨some result, true, none⟩ := by
  rw [publish, put_states_self]

lemma publish_states_of_ne (h : key ≠ s.key) (result : ForecastResult) (seconds : ℚ) :
    (rt.publish s result seconds).states key = rt.states key := by
  rw [publish, put_states_of_ne h]

lemma refresh_states_self (rt : Runtime) (s : ForecastSettings) (now : ℚ) :
    (rt.refreshExpiryFor s now).states s.key = expire s now (rt.states s.key) := by
  rw [refreshExpiryFor, put_states_self]

lemma refresh_states_of_ne (h : key ≠ s.key) (now : ℚ) :
    (rt.refreshExpiryFor s now).states key = rt.states key := by
  rw [refreshExpiryFor, put_states_of_ne h]

lemma expire_latest (s : ForecastSettings) (now : ℚ) (state : RuntimeState) :
    (expire s now state).latest = state.latest := by
  rw [expire]
  split
  · rfl
  · split <;> rfl

/-- A result that is not too old leaves the state alone. -/
lemma expire_of_le {result : ForecastResult} (hlatest : state.latest = some result)
    (hage : now - result.timestamp ≤ s.forecastTtlSeconds) : expire s now state = state := by
  simp only [expire, hlatest]
  exact if_neg (not_lt.mpr hage)

/-- A state that is valid after the check has a result that is not too old. -/
lemma age_of_expire_valid {result : ForecastResult} (hlatest : state.latest = some result)
    (h : (expire s now state).valid = true) : now - result.timestamp ≤ s.forecastTtlSeconds := by
  by_contra hage
  simp only [expire, hlatest, if_pos (not_le.mp hage), Bool.false_eq_true] at h

lemma refresh_latest (rt : Runtime) (s : ForecastSettings) (now : ℚ) (key : Key) :
    ((rt.refreshExpiryFor s now).states key).latest = (rt.states key).latest := by
  by_cases hkey : key = s.key
  · rw [hkey, refresh_states_self, expire_latest]
  · rw [refresh_states_of_ne hkey]

lemma start_states (cfg : Config) (key : Key) : (Runtime.start cfg).states key = .new :=
  start_rule (P := fun state _ => state = .new) rfl (fun _ _ _ h => h) cfg key

lemma step_publish {cfg : Config} (hmem : s ∈ cfg.targets) (henabled : s.mode ≠ .disabled)
    (result : ForecastResult) (seconds : ℚ) :
    rt.step cfg (.publish s.key result seconds) = some (rt.publish s result seconds) := by
  rw [step, Act.key, Config.settingsByKey_of_mem hmem, Option.bind_some, stepFor,
    if_neg henabled]

end Runtime

/-! ### What a step does -/

variable (L d) in
/-- The steps of a run in which every target is enabled and every forecast succeeds. -/
inductive LoopStep (w : LoopState) : LoopState → Prop where
  | tick {now : ℚ} (le : now ≤ w.phase.ends L d) : LoopStep w { w with now := now }
  | finish {cycle : ℕ} {x : ForecastSettings} {rest : List ForecastSettings} {started : ℚ}
      (result : ForecastResult) (seconds : ℚ)
      (here : w.phase = .forecasting cycle x rest started)
      (ends : w.now = started + d.seconds cycle x.key) (stamp : result.timestamp = started) :
      LoopStep w { w with
        runtime := w.runtime.publish x result seconds
        phase := .enter cycle w.now rest }
  | wake {cycle : ℕ} {since : ℚ} (here : w.phase = .waiting cycle since)
      (ends : w.now = since + L.forecastIntervalSeconds) :
      LoopStep w { w with phase := .enter (cycle + 1) w.now L.config.targets }
  | refresh {x : ForecastSettings} (target : x ∈ L.config.targets) :
      LoopStep w { w with runtime := w.runtime.refreshExpiryFor x w.now }

section Enabled

variable (enabled : ∀ s ∈ L.config.targets, s.mode ≠ .disabled)

include enabled

lemma Phase.OnTime.ends {started : ℚ}
    (h : (Phase.forecasting cycle x rest started).OnTime L d start now) :
    (Phase.forecasting cycle x rest started).ends L d = started + d.seconds cycle x.key := by
  obtain ⟨done, hsplit, -⟩ := h
  exact if_neg (enabled x (hsplit ▸ List.mem_append_right _ (List.mem_cons_self ..)))

/-- Time passes up to the end of a forecast or of a wait. -/
lemma Phase.OnTime.tick {phase : Phase} {later : ℚ} (h : phase.OnTime L d start now)
    (le : later ≤ phase.ends L d) : phase.OnTime L d start later := by
  cases phase with
  | forecasting cycle x rest started =>
      rw [h.ends enabled] at le
      obtain ⟨done, hsplit, hstarted, -⟩ := h
      exact ⟨done, hsplit, hstarted, le⟩
  | waiting cycle since => exact ⟨h.1, le⟩

/-- The inversion of the steps of the loop. -/
lemma LoopState.step_cases {e : LoopEvent} (hon : w.phase.OnTime L d start w.now)
    (hok : w.Succeeds e) (h : w.step L d e = some w') : LoopStep L d w w' := by
  cases e with
  | tick dt =>
      obtain ⟨⟨-, hle⟩, ⟨⟩⟩ := Option.ite_none_right_eq_some.mp h
      exact .tick hle
  | finish outcome =>
      cases hphase : w.phase with
      | forecasting cycle x rest started =>
          rw [hphase] at hon
          have hends := hon.ends enabled
          obtain ⟨done, hsplit, -⟩ := hon
          have hmem : x ∈ L.config.targets := by simp [hsplit]
          cases outcome with
          | error message => exact hok.elim
          | ok result =>
              simp only [step, hphase, hends, finishAct,
                Runtime.step_publish hmem (enabled x hmem), Option.map_some] at h
              obtain ⟨hnow, ⟨⟩⟩ := Option.ite_none_right_eq_some.mp h
              exact .finish _ _ hphase hnow rfl
      | waiting cycle since => simp [step, hphase] at h
  | skip =>
      cases hphase : w.phase with
      | forecasting cycle x rest started =>
          rw [hphase] at hon
          obtain ⟨done, hsplit, -⟩ := hon
          have hmem : x ∈ L.config.targets := by simp [hsplit]
          simp [step, hphase, Runtime.step, Act.key, Config.settingsByKey_of_mem hmem,
            Runtime.stepFor, enabled x hmem] at h
      | waiting cycle since => simp [step, hphase] at h
  | wake =>
      cases hphase : w.phase with
      | forecasting cycle x rest started => simp [step, hphase] at h
      | waiting cycle since =>
          simp only [step, hphase] at h
          obtain ⟨hnow, ⟨⟩⟩ := Option.ite_none_right_eq_some.mp h
          exact .wake hphase hnow
  | refresh key =>
      obtain ⟨rt, hrt, rfl⟩ := Option.map_eq_some_iff.mp h
      obtain ⟨x, hx, ⟨⟩⟩ := Option.bind_eq_some_iff.mp hrt
      exact .refresh (List.mem_of_find?_eq_some hx)

/-! ### Time stamps -/

variable (L d start) in
omit enabled in
/-- The clock is on time, and the latest result of every target is from its last forecast. -/
structure Scheduled (w : LoopState) : Prop where
  onTime : w.phase.OnTime L d start w.now
  stamped : ∀ done s rest, L.config.targets = done ++ s :: rest →
    Stamped L d start done (w.phase.published s) (w.runtime.states s.key).latest

omit enabled in
lemma scheduled_start (L : LoopSettings) (d : Durations) (start : ℚ) :
    Scheduled L d start ⟨start, .start L.config, .enter 0 start L.config.targets⟩ where
  onTime := Phase.onTime_enter (List.nil_append _).symm (by simp [cycleStart, Durations.span])
  stamped done s rest hsplit := by
    have hmem : s ∈ L.config.targets := by simp [hsplit]
    rw [Phase.published_enter, if_pos hmem]
    rw [Runtime.start_states]
    rfl

omit enabled in
/-- The target of a forecast has its result of this cycle when the forecast is done, and the
others have the results they had. -/
lemma Scheduled.finish {started : ℚ} (h : Scheduled L d start w)
    (here : w.phase = .forecasting cycle x targets started)
    (ends : w.now = started + d.seconds cycle x.key) {result : ForecastResult}
    (stamp : result.timestamp = started) (seconds : ℚ) :
    Scheduled L d start { w with
      runtime := w.runtime.publish x result seconds
      phase := .enter cycle w.now targets } := by
  have hnodup : L.config.targets.Nodup := L.config.nodup_targets.of_map _
  obtain ⟨hon, hstamped⟩ := h
  rw [here] at hon hstamped
  obtain ⟨done', hsplit, hstarted, -⟩ := hon
  constructor
  · have hnext : L.config.targets = (done' ++ [x]) ++ targets := by simpa using hsplit
    refine Phase.onTime_enter hnext ?_
    rw [Durations.span_append, Durations.span_singleton]
    linarith
  · intro done s rest hs
    rw [Phase.published_enter]
    by_cases hx : s = x
    · subst hx
      have hpassed : s ∉ targets := by
        rw [hsplit] at hnodup
        exact (List.nodup_cons.mp hnodup.of_append_right).1
      rcases split_cases hnodup hs hsplit (List.mem_cons_self ..) with ⟨rfl, -, -⟩ | ⟨hne, -⟩
      · rw [if_neg hpassed, Runtime.publish_states_self]
        exact ⟨result, rfl, stamp.trans hstarted⟩
      · exact absurd rfl hne
    · have hkey : s.key ≠ x.key := fun hkey => hx
        (List.inj_on_of_nodup_map L.config.nodup_targets (by simp [hs]) (by simp [hsplit]) hkey)
      have hold := hstamped done s rest hs
      rw [Phase.published] at hold
      rw [Runtime.publish_states_of_ne hkey]
      simpa only [List.mem_cons, hx, false_or] using hold

/-- A step keeps the schedule. -/
lemma Scheduled.step (h : Scheduled L d start w) (hstep : LoopStep L d w w') :
    Scheduled L d start w' := by
  cases hstep with
  | tick le => exact ⟨h.onTime.tick enabled le, h.stamped⟩
  | finish result seconds here ends stamp => exact h.finish here ends stamp seconds
  | wake here ends =>
      obtain ⟨hon, hstamped⟩ := h
      rw [here] at hon hstamped
      refine ⟨Phase.onTime_enter (List.nil_append _).symm ?_, fun done s rest hs => ?_⟩
      · rw [ends, hon.1, cycleStart]
        simp [Durations.span]
      · rw [Phase.published_enter, if_pos (by simp [hs])]
        exact hstamped done s rest hs
  | refresh target =>
      refine ⟨h.onTime, fun done s rest hs => ?_⟩
      rw [Runtime.refresh_latest]
      exact h.stamped done s rest hs

/-- The schedule of every run in which the forecasts succeed. -/
theorem run_scheduled (hrun : (L.loop d start).Run LoopState.Succeeds w) :
    Scheduled L d start w := by
  refine hrun.invariant ?_ fun u e v _ hok hu h => ?_
  · rintro _ rfl
    exact scheduled_start L d start
  · exact hu.step enabled (LoopState.step_cases enabled hu.onTime hok h)

/-! ### The age of the latest result -/

omit enabled in
/-- The age that the result of a cycle can reach before the next one replaces it. -/
lemma age_le (h : Scheduled L d start w) (hs : L.config.targets = done ++ s :: rest)
    {result : ForecastResult} (hlatest : (w.runtime.states s.key).latest = some result) :
    ∃ cycle, w.now - result.timestamp ≤ d.span cycle (s :: rest) + L.forecastIntervalSeconds +
      d.span (cycle + 1) (done ++ [s]) := by
  have hnext := h.onTime.le hs
  have hstamped := h.stamped done s rest hs
  cases hpublished : w.phase.published s with
  | zero =>
      rw [hpublished, hlatest] at hstamped
      cases hstamped
  | succ cycle =>
      rw [hpublished, hlatest] at hstamped
      obtain ⟨_, ⟨⟩, hstamp⟩ := hstamped
      rw [hpublished, cycleStart, hs, Durations.span_append] at hnext
      refine ⟨cycle, ?_⟩
      calc w.now - result.timestamp
          ≤ cycleStart L d start cycle + (d.span cycle done + d.span cycle (s :: rest)) +
              L.forecastIntervalSeconds + d.span (cycle + 1) (done ++ [s]) -
                (cycleStart L d start cycle + d.span cycle done) :=
            sub_le_sub hnext hstamp.ge
        _ = d.span cycle (s :: rest) + L.forecastIntervalSeconds +
              d.span (cycle + 1) (done ++ [s]) := by ring

/-- Under the bound on two consecutive cycles a result stays valid until it is replaced. -/
lemma run_valid (hs : L.config.targets = done ++ s :: rest)
    (hcovers : ∀ cycle, d.span cycle (s :: rest) + L.forecastIntervalSeconds +
      d.span (cycle + 1) (done ++ [s]) ≤ s.forecastTtlSeconds)
    (hrun : (L.loop d start).Run LoopState.Succeeds w) :
    (w.runtime.states s.key).latest.isSome = true → (w.runtime.states s.key).valid = true := by
  refine hrun.invariant (P := fun w => (w.runtime.states s.key).latest.isSome = true →
    (w.runtime.states s.key).valid = true) ?_ fun u e v hu hok ih h => ?_
  · rintro _ rfl hsome
    rw [Runtime.start_states] at hsome
    cases hsome
  · have hscheduled := run_scheduled enabled hu
    cases LoopState.step_cases enabled hscheduled.onTime hok h with
    | tick le => exact ih
    | finish result seconds here ends stamp =>
        rename_i cycle x rest' started
        by_cases hkey : s.key = x.key
        · rw [hkey, Runtime.publish_states_self]
          exact fun _ => rfl
        · rw [Runtime.publish_states_of_ne hkey]
          exact ih
    | wake here ends => exact ih
    | refresh target =>
        rename_i x
        by_cases hkey : s.key = x.key
        · obtain rfl : s = x :=
            List.inj_on_of_nodup_map L.config.nodup_targets (by simp [hs]) target hkey
          intro hsome
          rw [Runtime.refresh_latest] at hsome
          obtain ⟨result, hlatest⟩ := Option.isSome_iff_exists.mp hsome
          obtain ⟨cycle, hage⟩ := age_le hscheduled hs hlatest
          rw [Runtime.refresh_states_self,
            Runtime.expire_of_le hlatest (hage.trans (hcovers cycle))]
          exact ih hsome
        · rw [Runtime.refresh_states_of_ne hkey]
          exact ih

/-! ### Every point of the schedule is reached -/

variable (L d start) in
omit enabled in
/-- Some run comes to the targets `rest` of a cycle when those of `done` are through. -/
def Arrives (cycle : ℕ) (done rest : List ForecastSettings) : Prop :=
  ∃ w, (L.loop d start).Run LoopState.Succeeds w ∧
    w.now = cycleStart L d start cycle + d.span cycle done ∧ w.phase = .enter cycle w.now rest

/-- The run may stay in the forecast of a target until the forecast is done. -/
lemma Arrives.until_done (h : Arrives L d start cycle done (x :: rest))
    (hsplit : L.config.targets = done ++ x :: rest) :
    ∃ w started, (L.loop d start).Run LoopState.Succeeds w ∧
      w.phase = .forecasting cycle x rest started ∧ w.now = started + d.seconds cycle x.key ∧
      started = cycleStart L d start cycle + d.span cycle done := by
  obtain ⟨w, hrun, hnow, hphase⟩ := h
  have hends : w.phase.ends L d = w.now + d.seconds cycle x.key := by
    have henabled := enabled x (by simp [hsplit])
    rw [hphase]
    exact if_neg henabled
  have htick : w.step L d (.tick (d.seconds cycle x.key)) =
      some { w with now := w.now + d.seconds cycle x.key } :=
    if_pos ⟨d.nonneg cycle x.key, hends.ge⟩
  have hreached := hrun.step (show w.Succeeds (.tick _) from trivial) htick
  exact ⟨_, w.now, hreached, hphase, rfl, hnow⟩

lemma Arrives.next (h : Arrives L d start cycle done (x :: rest))
    (hsplit : L.config.targets = done ++ x :: rest) :
    Arrives L d start cycle (done ++ [x]) rest := by
  obtain ⟨w, started, hrun, hphase, hnow, hstarted⟩ := h.until_done enabled hsplit
  have hmem : x ∈ L.config.targets := by simp [hsplit]
  have henabled := enabled x hmem
  have hfinish : w.step L d (.finish (.ok (.twoReplicas 0))) = some
      { w with
        runtime := w.runtime.publish x
          { ForecastResult.twoReplicas 0 with timestamp := started, forecastStartTime := started }
          (w.now - started)
        phase := .enter cycle w.now rest } := by
    simp only [LoopState.step, hphase, Phase.ends, if_neg henabled, finishAct,
      Runtime.step_publish hmem henabled, Option.map_some, if_pos hnow]
  have hreached := hrun.step (show w.Succeeds (.finish (.ok _)) from trivial) hfinish
  refine ⟨_, hreached, ?_, rfl⟩
  rw [Durations.span_append, Durations.span_singleton]
  calc w.now = started + d.seconds cycle x.key := hnow
    _ = _ := by rw [hstarted, add_assoc]

lemma Arrives.target (h : Arrives L d start cycle [] L.config.targets) :
    L.config.targets = done ++ rest → Arrives L d start cycle done rest := by
  induction done using List.reverseRecOn generalizing rest with
  | nil =>
      intro hsplit
      rw [List.nil_append] at hsplit
      exact hsplit ▸ h
  | append_singleton done x ih =>
      intro hsplit
      rw [List.append_assoc] at hsplit
      exact (ih hsplit).next enabled hsplit

/-- Every cycle starts. -/
lemma arrives_cycle (cycle : ℕ) : Arrives L d start cycle [] L.config.targets := by
  induction cycle with
  | zero => exact ⟨_, .init rfl, by simp [cycleStart, Durations.span], rfl⟩
  | succ cycle ih =>
      obtain ⟨w, hrun, hnow, hphase⟩ := ih.target enabled (List.append_nil _).symm
      have hwaiting : w.phase = .waiting cycle w.now := hphase
      have hpos : (0 : ℚ) ≤ L.forecastIntervalSeconds := Int.cast_nonneg L.interval_pos.le
      have htick : w.step L d (.tick L.forecastIntervalSeconds) =
          some { w with now := w.now + L.forecastIntervalSeconds } := by
        refine if_pos ⟨hpos, ?_⟩
        rw [hwaiting]
        exact le_refl _
      have hwake : LoopState.step L d { w with now := w.now + L.forecastIntervalSeconds } .wake =
          some
            { w with
              now := w.now + L.forecastIntervalSeconds
              phase := .enter (cycle + 1) (w.now + L.forecastIntervalSeconds) L.config.targets } := by
        simp only [LoopState.step, hwaiting, Phase.ends, if_true]
      have hend := hrun.step (show w.Succeeds (.tick _) from trivial) htick
      have hreached := hend.step (show LoopState.Succeeds _ .wake from trivial) hwake
      refine ⟨_, hreached, ?_, rfl⟩
      rw [cycleStart, ← hnow, Durations.span, List.map_nil, List.sum_nil, add_zero]

/-- **Validity between refreshes**: when every target is enabled, a target stays valid from
its first publication on, in the runs in which the forecasts succeed, if and only if for
every two consecutive cycles the rest of the first one from this target on, the interval
and the next one up to this target together fit into its time to live. The interval alone
has to. -/
theorem stays_valid_iff (hs : L.config.targets = done ++ s :: rest) :
    (StaysValid L d start s ↔
      ∀ cycle, d.span cycle (s :: rest) + L.forecastIntervalSeconds +
        d.span (cycle + 1) (done ++ [s]) ≤ s.forecastTtlSeconds) ∧
    (StaysValid L d start s → L.forecastIntervalSeconds ≤ s.forecastTtlSeconds) := by
  have hbound : StaysValid L d start s →
      ∀ cycle, d.span cycle (s :: rest) + L.forecastIntervalSeconds +
        d.span (cycle + 1) (done ++ [s]) ≤ s.forecastTtlSeconds := by
    intro hvalid cycle
    have harrives : Arrives L d start (cycle + 1) [] L.config.targets :=
      arrives_cycle enabled (cycle + 1)
    obtain ⟨w, started, hrun, hphase, hnow, hstarted⟩ :=
      (harrives.target enabled hs).until_done enabled hs
    have hstamped := (run_scheduled enabled hrun).stamped done s rest hs
    rw [hphase, Phase.published, if_pos (List.mem_cons_self ..)] at hstamped
    obtain ⟨result, hlatest, hstamp⟩ := hstamped
    have hrefresh := hvalid w hrun (by rw [hlatest]; rfl)
    rw [Runtime.refresh_states_self] at hrefresh
    calc d.span cycle (s :: rest) + L.forecastIntervalSeconds + d.span (cycle + 1) (done ++ [s])
        = w.now - result.timestamp := by
          rw [hnow, hstarted, hstamp, cycleStart, hs, Durations.span_append, Durations.span_append,
            Durations.span_singleton]
          ring
      _ ≤ s.forecastTtlSeconds := Runtime.age_of_expire_valid hlatest hrefresh
  refine ⟨⟨hbound, fun hcovers w hrun hsome => ?_⟩, fun hvalid => ?_⟩
  · obtain ⟨result, hlatest⟩ := Option.isSome_iff_exists.mp hsome
    obtain ⟨cycle, hage⟩ := age_le (run_scheduled enabled hrun) hs hlatest
    rw [Runtime.refresh_states_self, Runtime.expire_of_le hlatest (hage.trans (hcovers cycle))]
    exact run_valid enabled hs hcovers hrun hsome
  · have hcycle := hbound hvalid 0
    have hinterval : (L.forecastIntervalSeconds : ℚ) ≤ s.forecastTtlSeconds := by
      linarith [d.span_nonneg 0 (s :: rest), d.span_nonneg 1 (done ++ [s])]
    exact_mod_cast hinterval

end Enabled

/-- Two enabled targets with the given time to live and an interval of 60 seconds. -/
def twoTargets (ttl : ℤ) : LoopSettings where
  config :=
    { settings := { ForecastSettings.sampleWorker .active with forecastTtlSeconds := ttl }
      extraTargets := [⟨"sample-fastapi", "sample-fastapi", .shadow, 1, ttl, "amazon/chronos-2"⟩] }
  forecastIntervalSeconds := 60
  interval_pos := by decide

/-- Every forecast takes ten seconds. -/
def tenSeconds : Durations where
  seconds _ _ := 10
  nonneg _ _ := by norm_num

/-- A cycle of 80 seconds and one more forecast fit into a time to live of 120 seconds, and
not into one that equals the interval. -/
theorem stays_valid_two_targets :
    StaysValid (twoTargets 120) tenSeconds 0 (twoTargets 120).config.settings ∧
      ¬ StaysValid (twoTargets 60) tenSeconds 0 (twoTargets 60).config.settings := by
  have hlong : ∀ s ∈ (twoTargets 120).config.targets, s.mode ≠ .disabled := by decide +kernel
  have hshort : ∀ s ∈ (twoTargets 60).config.targets, s.mode ≠ .disabled := by decide +kernel
  have hsplit : ∀ ttl, (twoTargets ttl).config.targets =
      [] ++ (twoTargets ttl).config.settings :: (twoTargets ttl).config.extraTargets :=
    fun _ => rfl
  have hgap : ∀ ttl cycle,
      tenSeconds.span cycle
          ((twoTargets ttl).config.settings :: (twoTargets ttl).config.extraTargets) +
        ((twoTargets ttl).forecastIntervalSeconds : ℚ) +
        tenSeconds.span (cycle + 1) ([] ++ [(twoTargets ttl).config.settings]) = 90 := by
    intro ttl cycle
    simp only [Durations.span, twoTargets, tenSeconds, List.nil_append, List.map_cons,
      List.map_nil, List.sum_cons, List.sum_nil]
    norm_num
  constructor
  · refine (stays_valid_iff hlong (hsplit 120)).1.mpr fun cycle => ?_
    rw [hgap]
    norm_num [twoTargets]
  · intro hvalid
    have hfits := (stays_valid_iff hshort (hsplit 60)).1.mp hvalid 0
    rw [hgap] at hfits
    norm_num [twoTargets] at hfits

end Chronos

end FinOpsPipeline
