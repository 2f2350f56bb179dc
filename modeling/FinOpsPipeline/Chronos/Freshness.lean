import Mathlib.Data.Fintype.Basic
import FinOpsPipeline.Chronos.Coherence

/-!
The age of a forecast that is served.

`prediction_response` reads the clock, checks the age of the latest result in one section
of the lock and reads it in another. The background loop publishes a result that carries
the time at which its computation started, and does not look at its age.

* `World`: the runtime, the clients of `prediction_response` and their replies.
* `World.PublishesFresh`: no result that is already too old for a client is published
  between its two sections.
* `served_forecast_fresh`: then no reply carries an expired forecast;
  `served_forecast_expired` is a run with such a reply.
-/

namespace FinOpsPipeline

namespace Chronos

variable {C : Type} [DecidableEq C]

/-! ### Clients of the service -/

/-- What a call of `prediction_response` does next, with the time `r` that it read. -/
inductive Task where
  | idle
  | refreshing (key : Key) (r : ℚ)
  | reading (key : Key) (r : ℚ)
  deriving DecidableEq

/-- A reply of `prediction_response`, with the time at which it checked the age. -/
structure Reply where
  key : Key
  r : ℚ
  answer : Except HttpError Prediction

/-- The reply is a 503 or carries a forecast that had not expired when its call checked. -/
def Reply.Fresh (cfg : Config) (reply : Reply) : Prop :=
  ∀ s, cfg.settingsByKey reply.key = some s →
    (∃ detail, reply.answer = .error ⟨503, detail⟩) ∨
      ∃ prediction, reply.answer = .ok prediction ∧
        reply.r - prediction.forecastTimestamp ≤ s.forecastTtlSeconds

/-- The clock, the runtime, the clients and their replies so far. -/
structure World (C : Type) where
  now : ℚ
  runtime : Runtime
  task : C → Task
  replies : List Reply

/-- The labels: time passes, a lock-protected step of the loop or of another reader, and
the three steps of a call. -/
inductive Event (C : Type) where
  | tick (dt : ℚ)
  | step (a : Act)
  | request (c : C) (key : Key)
  | refresh (c : C)
  | read (c : C)

/-- The time at which a call between its two sections has checked the age for a target. -/
def Task.checkedAt (key : Key) : Task → Option ℚ
  | .reading k r => if k = key then some r else none
  | _ => none

/-- The target and the result of a step that publishes. -/
def Event.published : Event C → Option (Key × ForecastResult)
  | .step (.publish key result _) => some (key, result)
  | _ => none

/-- A published result was started before. -/
def Act.Started (now : ℚ) : Act → Prop
  | .publish _ result _ => result.timestamp ≤ now
  | _ => True

instance (now : ℚ) (a : Act) : Decidable (a.Started now) :=
  match a with
  | .publish _ result _ => inferInstanceAs (Decidable (result.timestamp ≤ now))
  | .recordError _ _ _ | .disable _ | .refresh _ _ => isTrue trivial

namespace World

/-- One step. A call for a key that is no target raises a `KeyError` at once. -/
def step (cfg : Config) (w : World C) : Event C → Option (World C)
  | .tick dt => if 0 ≤ dt then some { w with now := w.now + dt } else none
  | .step a =>
      if a.Started w.now then (w.runtime.step cfg a).map fun rt => { w with runtime := rt }
      else none
  | .request c key =>
      match w.task c with
      | .idle =>
          (cfg.settingsByKey key).map fun _ =>
            { w with task := Function.update w.task c (.refreshing key w.now) }
      | _ => none
  | .refresh c =>
      match w.task c with
      | .refreshing key r =>
          (cfg.settingsByKey key).map fun s =>
            { w with
              runtime := w.runtime.refreshExpiryFor s r
              task := Function.update w.task c (.reading key r) }
      | _ => none
  | .read c =>
      match w.task c with
      | .reading key r =>
          (cfg.settingsByKey key).map fun s =>
            { w with
              task := Function.update w.task c .idle
              replies := ⟨key, r, w.runtime.readPrediction s⟩ :: w.replies }
      | _ => none

end World

/-- The service with a new runtime. -/
def Config.service (cfg : Config) (C : Type) [DecidableEq C] : System (World C) (Event C) where
  init w := ∃ now, w = ⟨now, .start cfg, fun _ => .idle, []⟩
  step := World.step cfg

namespace World

variable {cfg : Config} {w w' : World C} {e : Event C} {s : ForecastSettings} {key : Key}

/-- A result that is published is not too old for a call between its two sections. -/
def PublishesFresh (cfg : Config) (w : World C) (e : Event C) : Prop :=
  ∀ target ∈ e.published, ∀ s ∈ cfg.settingsByKey target.1, ∀ c,
    ∀ r ∈ (w.task c).checkedAt target.1, r - target.2.timestamp ≤ s.forecastTtlSeconds

instance [Fintype C] (cfg : Config) (w : World C) (e : Event C) :
    Decidable (w.PublishesFresh cfg e) :=
  inferInstanceAs (Decidable (∀ target ∈ e.published, ∀ s ∈ cfg.settingsByKey target.1, ∀ c,
    ∀ r ∈ (w.task c).checkedAt target.1, r - target.2.timestamp ≤ s.forecastTtlSeconds))

/-- The latest result of a target is not valid or not too old at the time `r`. -/
def FreshAt (s : ForecastSettings) (r : ℚ) (state : RuntimeState) : Prop :=
  state.valid = true → ∀ result, state.latest = some result →
    r - result.timestamp ≤ s.forecastTtlSeconds

/-- A call between its two sections finds nothing expired. -/
def ReadersFresh (cfg : Config) (w : World C) : Prop :=
  ∀ c key r s, w.task c = .reading key r → cfg.settingsByKey key = some s →
    FreshAt s r (w.runtime.states key)

/-! ### What a step does to the states -/

/-- A check of the age leaves a state that is not valid or not too old at its time. -/
lemma freshAt_expire (now : ℚ) (state : RuntimeState) :
    FreshAt s now (Runtime.expire s now state) := by
  intro hvalid result hresult
  obtain hinvalid | ⟨hsame, latest, hlatest, hage⟩ :=
    Runtime.expire_cases s state now
  · rw [hinvalid] at hvalid
    cases hvalid
  · rw [hsame, hlatest] at hresult
    cases hresult
    exact hage

/-- Another check of the age makes no result valid. -/
lemma FreshAt.expire {r now : ℚ} {state : RuntimeState} (h : FreshAt s r state) :
    FreshAt s r (Runtime.expire s now state) := by
  obtain hinvalid | ⟨hsame, -⟩ := Runtime.expire_cases s state now
  · intro hvalid
    rw [hinvalid] at hvalid
    cases hvalid
  · rwa [hsame]

/-- A lock-protected step keeps a state fresh, if it publishes a fresh result. -/
lemma FreshAt.stepFor {rt rt' : Runtime} {r : ℚ} {a : Act}
    (hpublish : ∀ k result seconds, a = .publish k result seconds →
      r - result.timestamp ≤ s.forecastTtlSeconds)
    (hstep : rt.stepFor s a = some rt') (h : FreshAt s r (rt.states s.key)) :
    FreshAt s r (rt'.states s.key) := by
  cases a with
  | publish k result seconds =>
      rw [Runtime.stepFor] at hstep
      split at hstep
      · cases hstep
      · cases hstep
        rw [Runtime.publish, Runtime.put_states_self]
        rintro - _ ⟨rfl⟩
        exact hpublish k result seconds rfl
  | recordError k message seconds =>
      rw [Runtime.stepFor] at hstep
      split at hstep
      · cases hstep
      · cases hstep
        rw [Runtime.recordError, Runtime.put_states_self]
        intro hvalid
        cases hvalid
  | disable k =>
      rw [Runtime.stepFor] at hstep
      split at hstep
      · cases hstep
        rw [Runtime.disable, Runtime.put_states_self]
        intro hvalid
        cases hvalid
      · cases hstep
  | refresh k now =>
      cases hstep
      simp only [Runtime.refreshExpiryFor, Runtime.put_states_self]
      exact h.expire

/-- A check of the age, on the states of the runtime. -/
lemma refreshExpiryFor_self {rt : Runtime} {r : ℚ} (hs : cfg.settingsByKey key = some s) :
    (rt.refreshExpiryFor s r).states key = Runtime.expire s r (rt.states key) := by
  rw [← Runtime.key_of_settingsByKey hs]
  exact Runtime.put_states_self

lemma refreshExpiryFor_of_ne {rt : Runtime} {r : ℚ} (hs : cfg.settingsByKey key = some s)
    {k : Key} (hk : k ≠ key) : (rt.refreshExpiryFor s r).states k = rt.states k := by
  rw [← Runtime.key_of_settingsByKey hs] at hk
  exact Runtime.put_states_of_ne hk

/-- A step of the runtime keeps a state fresh, if it publishes a fresh result for it. -/
lemma FreshAt.step {rt rt' : Runtime} {r : ℚ} {a : Act} (hs : cfg.settingsByKey key = some s)
    (hpublish : ∀ result seconds, a = .publish key result seconds →
      r - result.timestamp ≤ s.forecastTtlSeconds)
    (hstep : rt.step cfg a = some rt') (h : FreshAt s r (rt.states key)) :
    FreshAt s r (rt'.states key) := by
  by_cases hkey : key = a.key
  · obtain ⟨s', hs', hfor⟩ := Option.bind_eq_some_iff.mp hstep
    obtain rfl : s = s' := Option.some.inj (hs.symm.trans (hkey ▸ hs'))
    rw [← Runtime.key_of_settingsByKey hs] at h ⊢
    refine FreshAt.stepFor (fun k result seconds ha => ?_) hfor h
    subst ha
    obtain rfl : key = k := hkey
    exact hpublish result seconds rfl
  · rw [(Runtime.step_other hstep hkey).1]
    exact h

/-! ### What a step does to the clients -/

omit [DecidableEq C] in
/-- A fresh state is served by a fresh reply. -/
lemma fresh_reply {rt : Runtime} {r : ℚ} (hs : cfg.settingsByKey key = some s)
    (h : FreshAt s r (rt.states key)) : Reply.Fresh cfg ⟨key, r, rt.readPrediction s⟩ := by
  intro s' hs'
  obtain rfl : s = s' := Option.some.inj (hs.symm.trans hs')
  obtain herror | ⟨result, hlatest, hvalid, hok⟩ := rt.readPrediction_cases s
  · exact .inl herror
  · rw [Runtime.key_of_settingsByKey hs] at hlatest hvalid
    exact .inr ⟨_, hok, h hvalid result hlatest⟩

/-- A call that is found between its sections was there before, or has just moved. -/
lemma reading_of_update {task : C → Task} {c d : C} {t : Task} {r : ℚ}
    (h : Function.update task c t d = .reading key r) :
    task d = .reading key r ∨ t = .reading key r := by
  by_cases hd : d = c
  · subst hd
    rw [Function.update_self] at h
    exact .inr h
  · rw [Function.update_of_ne hd] at h
    exact .inl h

/-- The first section of a call leaves what every reader will find fresh. -/
lemma ReadersFresh.refresh {c : C} {r : ℚ} (hs : cfg.settingsByKey key = some s)
    (hw : w.ReadersFresh cfg) :
    ReadersFresh cfg { w with
      runtime := w.runtime.refreshExpiryFor s r
      task := Function.update w.task c (.reading key r) } := by
  intro d key' r' s' hd hs'
  change FreshAt s' r' ((w.runtime.refreshExpiryFor s r).states key')
  obtain hold | hnew := reading_of_update hd
  · have hfresh : FreshAt s' r' (w.runtime.states key') := hw d key' r' s' hold hs'
    by_cases hsame : key' = key
    · subst hsame
      obtain rfl : s = s' := Option.some.inj (hs.symm.trans hs')
      rw [refreshExpiryFor_self hs]
      exact hfresh.expire
    · rw [refreshExpiryFor_of_ne hs hsame]
      exact hfresh
  · cases hnew
    obtain rfl : s = s' := Option.some.inj (hs.symm.trans hs')
    rw [refreshExpiryFor_self hs]
    exact freshAt_expire r _

/-- **A step keeps what the clients will find fresh.** -/
theorem step_readersFresh (hok : w.PublishesFresh cfg e) (h : step cfg w e = some w')
    (hw : w.ReadersFresh cfg) : w'.ReadersFresh cfg := by
  cases e with
  | tick dt =>
      rw [step] at h
      split at h
      · cases h
        exact hw
      · cases h
  | step a =>
      rw [step] at h
      split at h
      · obtain ⟨rt, hrt, rfl⟩ := Option.map_eq_some_iff.mp h
        intro c key r s hc hs
        refine FreshAt.step hs (fun result seconds ha => ?_) hrt (hw c key r s hc hs)
        subst ha
        exact hok (key, result) rfl s hs c r (by rw [hc]; exact if_pos rfl)
      · cases h
  | request c key =>
      simp only [step] at h
      split at h
      · obtain ⟨s, -, rfl⟩ := Option.map_eq_some_iff.mp h
        intro d key' r s' hd hs'
        exact hw d key' r s' ((reading_of_update hd).resolve_right Task.noConfusion) hs'
      · cases h
  | refresh c =>
      simp only [step] at h
      split at h
      · obtain ⟨s, hs, rfl⟩ := Option.map_eq_some_iff.mp h
        exact hw.refresh hs
      · cases h
  | read c =>
      simp only [step] at h
      split at h
      · obtain ⟨s, -, rfl⟩ := Option.map_eq_some_iff.mp h
        intro d key' r s' hd hs'
        exact hw d key' r s' ((reading_of_update hd).resolve_right Task.noConfusion) hs'
      · cases h

/-- A reply is added by the second section of a call, and then it is fresh. -/
lemma step_replies (h : step cfg w e = some w') (hw : w.ReadersFresh cfg) :
    ∀ reply ∈ w'.replies, reply ∈ w.replies ∨ reply.Fresh cfg := by
  cases e with
  | tick dt =>
      rw [step] at h
      split at h
      · cases h
        exact fun reply hreply => .inl hreply
      · cases h
  | step a =>
      rw [step] at h
      split at h
      · obtain ⟨rt, -, rfl⟩ := Option.map_eq_some_iff.mp h
        exact fun reply hreply => .inl hreply
      · cases h
  | request c key | refresh c =>
      simp only [step] at h
      split at h
      · obtain ⟨s, -, rfl⟩ := Option.map_eq_some_iff.mp h
        exact fun reply hreply => .inl hreply
      · cases h
  | read c =>
      simp only [step] at h
      split at h
      · rename_i key r here
        obtain ⟨s, hs, rfl⟩ := Option.map_eq_some_iff.mp h
        intro reply hreply
        obtain rfl | hold := List.mem_cons.mp hreply
        · exact .inr (fresh_reply hs (hw c key r s here hs))
        · exact .inl hold
      · cases h

/-- **No expired forecast is served**: in every run in which no result is published between
the two sections of a call for its target when it is too old for the time at which the call
checked, every reply is a 503 or carries a forecast within its time to live at that time. -/
theorem served_forecast_fresh (hw : (cfg.service C).Run (PublishesFresh cfg) w) :
    ∀ reply ∈ w.replies, reply.Fresh cfg := by
  refine (hw.invariant (P := fun w => w.ReadersFresh cfg ∧ ∀ reply ∈ w.replies, reply.Fresh cfg)
    ?_ ?_).2
  · rintro _ ⟨now, rfl⟩
    exact ⟨fun c key r s hc => Task.noConfusion hc,
      fun reply hreply => absurd hreply List.not_mem_nil⟩
  · rintro w e w' _ hok ⟨hreaders, hreplies⟩ hstep
    refine ⟨step_readersFresh hok hstep hreaders, fun reply hreply => ?_⟩
    obtain hold | hnew := step_replies hstep hreaders reply hreply
    · exact hreplies reply hold
    · exact hnew

/-! ### A forecast that is older than its time to live -/

/-- The key of the default target. -/
def sampleWorkerKey : Key := ("sample-fastapi", "sample-worker")

/-- A call checks the age at time 200, a forecast that was started at time 0 is published,
and the call serves it. -/
theorem served_forecast_expired :
    ¬ ∀ (cfg : Config) (w : World ℕ), (cfg.service ℕ).Reachable w →
        ∀ reply ∈ w.replies, reply.Fresh cfg := by
  intro h
  obtain ⟨w, hw, hp⟩ := System.exists_run_of_schedule
    (Config.service ⟨.sampleWorker .active, []⟩ ℕ) (fun _ _ => True) ⟨0, rfl⟩
    [.tick 200, .request 0 sampleWorkerKey, .refresh 0,
      .step (.publish sampleWorkerKey (.twoReplicas 0) 200), .read 0]
    (fun w => w.replies.any fun reply => decide (reply.key = sampleWorkerKey) &&
      reply.answer.toOption.any fun p => decide (¬ reply.r - p.forecastTimestamp ≤ 120))
    (by decide +kernel)
  obtain ⟨reply, hreply, hserved⟩ := List.any_eq_true.mp hp
  rw [Bool.and_eq_true, decide_eq_true_eq] at hserved
  obtain ⟨p, hanswer, hage⟩ := (Option.any_eq_true _ _).mp hserved.2
  have hfresh := h _ w hw reply hreply (.sampleWorker .active)
    (by rw [hserved.1]; decide +kernel)
  obtain ⟨detail, herror⟩ | ⟨prediction, hok, hle⟩ := hfresh
  · rw [herror] at hanswer
    cases hanswer
  · rw [hok] at hanswer
    cases hanswer
    exact of_decide_eq_true hage hle

/-- A forecast that was started 90 seconds before the call is published between its sections. -/
theorem served_forecast_fresh_between :
    ∃ w : World Bool, w.replies.length = 1 ∧
      ∀ reply ∈ w.replies, reply.Fresh ⟨.sampleWorker .active, []⟩ := by
  obtain ⟨w, hw, hp⟩ := System.exists_run_of_schedule
    (Config.service ⟨.sampleWorker .active, []⟩ Bool)
    (PublishesFresh ⟨.sampleWorker .active, []⟩) ⟨0, rfl⟩
    [.tick 200, .request true sampleWorkerKey, .refresh true,
      .step (.publish sampleWorkerKey (.twoReplicas 110) 90), .read true]
    (fun w => decide (w.replies.length = 1)) (by decide +kernel)
  exact ⟨w, of_decide_eq_true hp, served_forecast_fresh hw⟩

end World

end Chronos

end FinOpsPipeline
