import FinOpsPipeline.Chronos.Runtime

/-!
The signals of the runtime agree with its state.

* `Coherent`: what the gauges of a target say about its state.
* `stepFor_coherent`: every lock-protected step of a target keeps this.
* `forecast_signal_coherent`: so it holds in every reachable state, and a step on one
  target leaves the others.
-/

namespace FinOpsPipeline

namespace Chronos

namespace Runtime

/-- The state and the gauges of a target agree. -/
structure Coherent (s : ForecastSettings) (state : RuntimeState) (gauges : Gauges) : Prop where
  /-- The gauge `chronos_forecast_valid` is 1 exactly for a valid state, and 0 else. -/
  forecastValid : gauges.forecastValid = if state.valid then 1 else 0
  /-- The replica signal is the one of the latest result while it is valid in active mode. -/
  scaling : ∀ result, state.latest = some result → state.valid = true → s.mode = .active →
    gauges.scalingReplicas = result.predictedReplicas
  /-- Else there is no replica signal. -/
  noScaling : ¬ (state.valid = true ∧ s.mode = .active) → gauges.scalingReplicas = 0
  /-- A valid state has a result and no error. -/
  present : state.valid = true → state.latest.isSome = true ∧ state.lastError = none
  /-- A disabled target is never valid. -/
  disabled : s.mode = .disabled → state.valid = false

variable {cfg : Config} {rt rt' : Runtime} {s : ForecastSettings} {a : Act} {state : RuntimeState}
  {gauges : Gauges}

/-- A state that is not valid agrees with gauges without a signal. -/
lemma coherent_of_invalid (hvalid : state.valid = false) (hgauge : gauges.forecastValid = 0)
    (hscaling : gauges.scalingReplicas = 0) : Coherent s state gauges where
  forecastValid := by rw [hvalid, hgauge]; rfl
  scaling result _ htrue _ := by rw [hvalid] at htrue; cases htrue
  noScaling _ := hscaling
  present htrue := by rw [hvalid] at htrue; cases htrue
  disabled _ := hvalid

/-- A published result agrees with its gauges. -/
lemma coherent_publish (hmode : s.mode ≠ .disabled) (result : ForecastResult) (seconds : ℚ) :
    Coherent s ((rt.publish s result seconds).states s.key)
      ((rt.publish s result seconds).gauges s.key) := by
  rw [publish, put_states_self, put_gauges_self]
  refine ⟨rfl, ?_, ?_, fun _ => ⟨rfl, rfl⟩, fun h => absurd h hmode⟩
  · rintro _ ⟨rfl⟩ - hactive
    exact if_pos hactive
  · intro hnot
    exact if_neg fun hactive => hnot ⟨rfl, hactive⟩

/-- What is left of a state by the check of its age. -/
lemma expire_cases (s : ForecastSettings) (state : RuntimeState) (now : ℚ) :
    (expire s now state).valid = false ∨ expire s now state = state ∧
      ∃ latest, state.latest = some latest ∧ now - latest.timestamp ≤ s.forecastTtlSeconds := by
  rw [expire]
  split
  · exact .inl rfl
  · rename_i latest hlatest
    split
    · exact .inl rfl
    · rename_i hage
      exact .inr ⟨rfl, latest, hlatest, not_lt.mp hage⟩

/-- The check of the age keeps the agreement. -/
lemma coherent_refresh (h : Coherent s (rt.states s.key) (rt.gauges s.key)) (now : ℚ) :
    Coherent s ((rt.refreshExpiryFor s now).states s.key)
      ((rt.refreshExpiryFor s now).gauges s.key) := by
  simp only [refreshExpiryFor, put_states_self, put_gauges_self]
  split
  · rename_i hvalid
    obtain hinvalid | ⟨hsame, -⟩ := expire_cases s (rt.states s.key) now
    · rw [hinvalid] at hvalid
      cases hvalid
    · rwa [hsame]
  · rename_i hvalid
    exact coherent_of_invalid (Bool.eq_false_iff.mpr hvalid) rfl rfl

/-- **Every lock-protected step of a target keeps the agreement.** -/
theorem stepFor_coherent (hstep : rt.stepFor s a = some rt')
    (h : Coherent s (rt.states s.key) (rt.gauges s.key)) :
    Coherent s (rt'.states s.key) (rt'.gauges s.key) := by
  cases a with
  | publish key result seconds =>
      rw [stepFor] at hstep
      split at hstep
      · cases hstep
      · rename_i hmode
        cases hstep
        exact coherent_publish hmode result seconds
  | recordError key message seconds =>
      rw [stepFor] at hstep
      split at hstep
      · cases hstep
      · cases hstep
        rw [recordError, put_states_self, put_gauges_self]
        exact coherent_of_invalid rfl rfl rfl
  | disable key =>
      rw [stepFor] at hstep
      split at hstep
      · cases hstep
        rw [disable, put_states_self, put_gauges_self]
        exact coherent_of_invalid rfl rfl rfl
      · cases hstep
  | refresh key now =>
      cases hstep
      exact coherent_refresh h now

/-- A state that is not valid and gauges without a signal. -/
def Silent (rt : Runtime) (key : Key) : Prop :=
  (rt.states key).valid = false ∧ (rt.gauges key).forecastValid = 0 ∧
    (rt.gauges key).scalingReplicas = 0

/-- A new runtime has no valid state and no signal. -/
lemma start_silent (cfg : Config) (key : Key) : Silent (start cfg) key :=
  start_rule (P := fun state g => state.valid = false ∧ g.forecastValid = 0 ∧
    g.scalingReplicas = 0) ⟨rfl, rfl, rfl⟩ (fun _ _ _ h => ⟨h.1, rfl, rfl⟩) cfg key

/-- **Forecast signals are coherent**: in every reachable state the gauges of every target
agree with its state, and every further step changes the state and gauges of one target. -/
theorem forecast_signal_coherent (hrt : cfg.system.Reachable rt) :
    (∀ key s, cfg.settingsByKey key = some s → Coherent s (rt.states key) (rt.gauges key)) ∧
    ∀ a rt', step cfg rt a = some rt' → ∀ key, key ≠ a.key →
      rt'.states key = rt.states key ∧ rt'.gauges key = rt.gauges key := by
  refine ⟨?_, fun a rt' hstep key hkey => step_other hstep hkey⟩
  refine hrt.invariant (P := fun rt => ∀ key s, cfg.settingsByKey key = some s →
    Coherent s (rt.states key) (rt.gauges key)) ?_ ?_
  · rintro _ rfl key s -
    obtain ⟨hvalid, hgauge, hscaling⟩ := start_silent cfg key
    exact coherent_of_invalid hvalid hgauge hscaling
  · intro rt a rt' _ _ ih hstep key s hs
    by_cases hkey : key = a.key
    · subst hkey
      obtain ⟨s', hs', hfor⟩ := Option.bind_eq_some_iff.mp hstep
      obtain rfl : s = s' := Option.some.inj (hs.symm.trans hs')
      have hold := ih a.key s hs
      rw [← key_of_settingsByKey hs] at hold ⊢
      exact stepFor_coherent hfor hold
    · obtain ⟨hstates, hgauges⟩ := step_other hstep hkey
      rw [hstates, hgauges]
      exact ih key s hs

/-- The default target in active mode after a forecast for two replicas. -/
theorem forecast_signal_coherent_active :
    ∃ rt : Runtime, (rt.gauges ("sample-fastapi", "sample-worker")).scalingReplicas = 2 ∧
      Coherent (.sampleWorker .active) (rt.states ("sample-fastapi", "sample-worker"))
        (rt.gauges ("sample-fastapi", "sample-worker")) := by
  obtain ⟨rt, hrt, hp⟩ := System.exists_run_of_schedule
    (Config.system ⟨.sampleWorker .active, []⟩) (fun _ _ => True) rfl
    [.recordError ("sample-fastapi", "sample-worker") "thanos unavailable" 10,
      .publish ("sample-fastapi", "sample-worker") (.twoReplicas 0) 5,
      .refresh ("sample-fastapi", "sample-worker") 60]
    (fun rt => decide ((rt.gauges ("sample-fastapi", "sample-worker")).scalingReplicas = 2))
    (by decide +kernel)
  exact ⟨rt, of_decide_eq_true hp, (forecast_signal_coherent hrt).1 _ _ (by decide +kernel)⟩

end Runtime

end Chronos

end FinOpsPipeline
