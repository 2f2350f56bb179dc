import FinOpsPipeline.Approval.Gateway
import FinOpsPipeline.Foundations.TransitionSystem

/-!
The two services of an approval: the analyzer with its recommendation cache, and the
gateway, which looks the values up when the button is pressed.

* `State`, `step`: the steps of the analyzer (analyses, restarts), of the requests to
  the gateway (batch approvals, callbacks) and of the gateway itself (the operations of
  the running handler, restarts), in any order. The gateway handles one request at a
  time.
* `Inv`: the cache is sound, and the handler and the log of the dispatches carry the
  values of the look-ups; `step_inv` preserves it.
* `approvals_vetted`: a dispatch carries the final values of a response for the same
  workload that passed, or the fixed values after a look-up without a recommendation.
-/

namespace FinOpsPipeline

open PrometheusClient Analysis Gateway

namespace Approval

/-! ### The system -/

/-- The state of the two services. The last three fields are a record of the run: the
responses computed so far, the last look-up of the gateway, and the dispatches, each
with the look-up before it. -/
structure State where
  clock : ℚ
  cache : Cache
  registry : Registry
  handler : Handler
  computed : List AnalysisResponse
  last : Option Lookup
  dispatched : List (Dispatch × Option Lookup)

/-- What happens to a look-up: it does not reach the analyzer, its answer is lost, or
it is answered. A path with names that Kubernetes does not accept may also be read as
another workload, or as another page. -/
inductive FetchOutcome where
  | unreachable
  | lost
  | answered
  | misread (target : Target)
  | elsewhere (answer : Option Recommendation)

/-- The steps of the system. -/
inductive Act where
  /-- Time passes. -/
  | tick (now : ℚ)
  /-- The analyzer restarts, and its clock with it. -/
  | restart (now : ℚ)
  /-- The gateway restarts. -/
  | gatewayRestart
  /-- The analyzer analyses a workload. -/
  | analyse (deploymentName ns : String) (containerName : Option String)
      (krrData : Option KrrData) (answer : PromQuery → PromReply) (chronos : ChronosReply)
  /-- The gateway receives a batch approval, and sends its message. -/
  | batchApproval (workloads : List BatchWorkload) (messageId : Option ℤ)
  /-- The gateway receives a callback. -/
  | callback (messageId : ℤ) (callbackData : String)
  /-- The running handler edits a message. -/
  | edited
  /-- The running handler looks a recommendation up. -/
  | fetched (outcome : FetchOutcome)
  /-- The running handler dispatches a workflow. -/
  | started (ok : Bool)

/-- The endpoint is asked for a workload. -/
def askRecommendation (ttl : ℚ) (s : State) (t : Target) : RecommendationReply × Cache :=
  getLastRecommendation ttl s.clock s.cache t.ns t.deploymentName (some t.containerName)

/-- What the gateway makes of a reply. -/
def ofReply : RecommendationReply → Option Recommendation
  | .found recommendation => some recommendation
  | .notFound | .conflict => none

/-- `fetch_finops_recommendation`, with the cache that it leaves behind; `none` for an
outcome that the names do not allow. -/
def fetchFinopsRecommendation (ttl : ℚ) (s : State) (t : Target) :
    FetchOutcome → Option (Option Recommendation × Cache)
  | .unreachable => some (none, s.cache)
  | .lost => if t.Named then some (none, (askRecommendation ttl s t).2) else none
  | .answered =>
      if t.Named then some (ofReply (askRecommendation ttl s t).1, (askRecommendation ttl s t).2)
      else none
  | .misread t' =>
      if t.Named then none
      else some (ofReply (askRecommendation ttl s t').1, (askRecommendation ttl s t').2)
  | .elsewhere answer => if t.Named then none else some (answer, s.cache)

/-- One step, `none` when it is not possible. -/
def step (ttl : ℚ) (s : State) : Act → Option State
  | .tick now => if s.clock ≤ now then some { s with clock := now } else none
  | .restart now => some { s with clock := now, cache := fun _ => none }
  | .gatewayRestart => some { s with registry := fun _ => none, handler := .done }
  | .analyse deploymentName ns containerName krrData answer chronos =>
      match runAnalysis deploymentName ns containerName krrData answer chronos with
      | .error _ => some s
      | .ok (response, _) =>
          some { s with
            cache := storeRecommendation s.cache s.clock deploymentName ns response
            computed := response :: s.computed }
  | .batchApproval workloads messageId =>
      match s.handler with
      | .done => some { s with registry := handleDeployBatchApproval s.registry workloads messageId }
      | _ => none
  | .callback messageId callbackData =>
      match s.handler with
      | .done =>
          some { s with
            handler := (telegramCallback s.registry messageId callbackData).1
            registry := (telegramCallback s.registry messageId callbackData).2 }
      | _ => none
  | .edited =>
      match s.handler with
      | .edit _ _ next => some { s with handler := next }
      | _ => none
  | .fetched outcome =>
      match s.handler with
      | .fetch target next =>
          (fetchFinopsRecommendation ttl s target outcome).map fun fetched =>
            { s with
              cache := fetched.2
              handler := next fetched.1
              last := some (target, fetched.1) }
      | _ => none
  | .started ok =>
      match s.handler with
      | .dispatch d next =>
          some { s with handler := next ok, dispatched := (d, s.last) :: s.dispatched }
      | _ => none

/-- The services with their caches empty. -/
def start (now : ℚ) : State where
  clock := now
  cache := fun _ => none
  registry := fun _ => none
  handler := .done
  computed := []
  last := none
  dispatched := []

/-- The system, for the time to live of the recommendations. -/
def system (ttl : ℚ) : System State Act where
  init := fun s => ∃ now, s = start now
  step := step ttl

/-! ### The invariant -/

/-- The recommendation carries the final values of a computed response for the
workload that passed. -/
def Vetted (computed : List AnalysisResponse) (t : Target) (recommendation : Recommendation) :
    Prop :=
  ∃ response ∈ computed, response.overallStatus = .pass ∧ response.target = t ∧
    recommendation.finalCpu = some response.recommendations.final.cpu ∧
    recommendation.finalMemory = some response.recommendations.final.memory

/-- The recommendation of a look-up for a named workload is vetted. -/
def LookupVetted (computed : List AnalysisResponse) (last : Option Lookup) : Prop :=
  ∀ t recommendation, last = some (t, some recommendation) → t.Named →
    Vetted computed t recommendation

/-- What holds of every reachable state. -/
structure Inv (s : State) : Prop where
  cache : CacheSound s.computed s.cache
  carries : s.handler.Carries s.last
  last : LookupVetted s.computed s.last
  dispatched : ∀ entry ∈ s.dispatched,
    entry.1.CarriesFrom entry.2 ∧ LookupVetted s.computed entry.2

section Steps

variable {ttl : ℚ} {s s' : State}

/-- A vetted look-up stays vetted when more is computed. -/
lemma LookupVetted.cons {computed : List AnalysisResponse} {last : Option Lookup}
    (h : LookupVetted computed last) (response : AnalysisResponse) :
    LookupVetted (response :: computed) last := by
  intro t recommendation hlast hnamed
  obtain ⟨response', hmem, hrest⟩ := h t recommendation hlast hnamed
  exact ⟨response', List.mem_cons_of_mem _ hmem, hrest⟩

/-- The look-up of a workload without Kubernetes names is not spoken of. -/
lemma lookupVetted_of_not_named {computed : List AnalysisResponse} {t : Target}
    {answer : Option Recommendation} (h : ¬ t.Named) :
    LookupVetted computed (some (t, answer)) := by
  intro t' recommendation hlast hnamed
  rw [Option.some.injEq, Prod.mk.injEq] at hlast
  exact absurd (hlast.1 ▸ hnamed) h

/-- The endpoint keeps the cache sound. -/
lemma askRecommendation_sound {computed : List AnalysisResponse} (h : CacheSound computed s.cache)
    (t : Target) : CacheSound computed (askRecommendation ttl s t).2 := by
  rw [askRecommendation, getLastRecommendation_snd]
  exact h.getRecommendation _ _ _

/-- **A look-up** keeps the cache sound, and its recommendation is vetted. -/
lemma fetch_sound {t : Target} {outcome : FetchOutcome} {answer : Option Recommendation}
    {cache : Cache} (h : CacheSound s.computed s.cache)
    (hfetch : fetchFinopsRecommendation ttl s t outcome = some (answer, cache)) :
    CacheSound s.computed cache ∧ LookupVetted s.computed (some (t, answer)) := by
  cases outcome with
  | unreachable =>
      cases hfetch
      exact ⟨h, fun _ _ hlast => by cases hlast⟩
  | lost =>
      rw [fetchFinopsRecommendation] at hfetch
      split at hfetch
      · cases hfetch
        exact ⟨askRecommendation_sound h t, fun _ _ hlast => by cases hlast⟩
      · cases hfetch
  | answered =>
      rw [fetchFinopsRecommendation] at hfetch
      split at hfetch
      · rename_i hnamed
        cases hfetch
        refine ⟨askRecommendation_sound h t, fun t' recommendation hlast _ => ?_⟩
        rw [Option.some.injEq, Prod.mk.injEq] at hlast
        obtain ⟨rfl, hreply⟩ := hlast
        cases hask : (askRecommendation ttl s t).1 with
        | notFound => simp [hask, ofReply] at hreply
        | conflict => simp [hask, ofReply] at hreply
        | found found =>
            rw [hask, ofReply, Option.some.injEq] at hreply
            exact hreply ▸ h.found hnamed hask
      · cases hfetch
  | misread t' =>
      rw [fetchFinopsRecommendation] at hfetch
      split at hfetch
      · cases hfetch
      · rename_i hnamed
        cases hfetch
        exact ⟨askRecommendation_sound h t', lookupVetted_of_not_named hnamed⟩
  | elsewhere reply =>
      rw [fetchFinopsRecommendation] at hfetch
      split at hfetch
      · cases hfetch
      · rename_i hnamed
        cases hfetch
        exact ⟨h, lookupVetted_of_not_named hnamed⟩

/-- An analysis stores its response for the workload that it was asked for. -/
lemma runAnalysis_target {deploymentName ns : String} {containerName : Option String}
    {krrData : Option KrrData} {answer : PromQuery → PromReply} {chronos : ChronosReply}
    {response : AnalysisResponse} {row : LogRow}
    (h : runAnalysis deploymentName ns containerName krrData answer chronos =
      .ok (response, row)) :
    response.deploymentName = deploymentName ∧ response.ns = ns := by
  obtain ⟨data, out, -, -, rfl⟩ := runAnalysis_eq_ok h
  exact ⟨rfl, rfl⟩

/-- What a step keeps that adds nothing to the record of the run. -/
lemma Inv.of_eq (h : Inv s) (hcache : CacheSound s.computed s'.cache)
    (hhandler : s'.handler.Carries s.last) (hcomputed : s'.computed = s.computed)
    (hlast : s'.last = s.last) (hdispatched : s'.dispatched = s.dispatched) : Inv s' where
  cache := hcomputed ▸ hcache
  carries := hlast ▸ hhandler
  last := by
    rw [hcomputed, hlast]
    exact h.last
  dispatched := by
    rw [hcomputed, hdispatched]
    exact h.dispatched

/-- What is computed is stored, and vets what was looked up before. -/
lemma Inv.analysed (h : Inv s) (response : AnalysisResponse) :
    Inv { s with
      cache := storeRecommendation s.cache s.clock response.deploymentName response.ns response
      computed := response :: s.computed } where
  cache := h.cache.store response
  carries := h.carries
  last := h.last.cons response
  dispatched entry hentry :=
    ⟨(h.dispatched entry hentry).1, (h.dispatched entry hentry).2.cons response⟩

/-- A look-up is vetted, and its answer is what the handler carries on. -/
lemma Inv.fetched {target : Target} {next : Option Recommendation → Handler}
    {outcome : FetchOutcome} {fetched : Option Recommendation × Cache} (h : Inv s)
    (hhandler : s.handler = .fetch target next)
    (hfetch : fetchFinopsRecommendation ttl s target outcome = some fetched) :
    Inv { s with
      cache := fetched.2
      handler := next fetched.1
      last := some (target, fetched.1) } := by
  obtain ⟨hcache, hlast⟩ := fetch_sound h.cache hfetch
  have hcarries := h.carries
  rw [hhandler] at hcarries
  exact ⟨hcache, hcarries fetched.1, hlast, h.dispatched⟩

/-- A dispatch carries what the handler carried, with the last look-up. -/
lemma Inv.started {d : Dispatch} {next : Bool → Handler} (h : Inv s)
    (hhandler : s.handler = .dispatch d next) (ok : Bool) :
    Inv { s with handler := next ok, dispatched := (d, s.last) :: s.dispatched } := by
  have hcarries := h.carries
  rw [hhandler] at hcarries
  refine ⟨h.cache, hcarries.2 ok, h.last, fun entry hentry => ?_⟩
  rcases List.mem_cons.mp hentry with rfl | hold
  · exact ⟨hcarries.1, h.last⟩
  · exact h.dispatched entry hold

/-- **The invariant is preserved** by every step. -/
theorem step_inv {a : Act} (hinv : Inv s) (hstep : step ttl s a = some s') : Inv s' := by
  cases a with
  | tick now =>
      rw [step] at hstep
      split at hstep
      · cases hstep
        exact hinv.of_eq hinv.cache hinv.carries rfl rfl rfl
      · cases hstep
  | restart now =>
      cases hstep
      exact hinv.of_eq cacheSound_empty hinv.carries rfl rfl rfl
  | gatewayRestart =>
      cases hstep
      exact hinv.of_eq hinv.cache trivial rfl rfl rfl
  | analyse deploymentName ns containerName krrData answer chronos =>
      rw [step] at hstep
      split at hstep
      · cases hstep
        exact hinv
      · rename_i response row hrun
        obtain ⟨rfl, rfl⟩ := runAnalysis_target hrun
        cases hstep
        exact hinv.analysed response
  | batchApproval workloads messageId =>
      rw [step] at hstep
      split at hstep
      · cases hstep
        exact hinv.of_eq hinv.cache hinv.carries rfl rfl rfl
      · cases hstep
  | callback messageId callbackData =>
      rw [step] at hstep
      split at hstep
      · cases hstep
        exact hinv.of_eq hinv.cache (telegramCallback_carries _ _ _ _) rfl rfl rfl
      · cases hstep
  | edited =>
      rw [step] at hstep
      split at hstep
      · rename_i messageId notice next hhandler
        have hnext : next.Carries s.last := by
          have hcarries := hinv.carries
          rwa [hhandler] at hcarries
        cases hstep
        exact hinv.of_eq hinv.cache hnext rfl rfl rfl
      · cases hstep
  | fetched outcome =>
      rw [step] at hstep
      split at hstep
      · rename_i target next hhandler
        obtain ⟨answer, hfetch, rfl⟩ := Option.map_eq_some_iff.mp hstep
        exact hinv.fetched hhandler hfetch
      · cases hstep
  | started ok =>
      rw [step] at hstep
      split at hstep
      · rename_i d next hhandler
        cases hstep
        exact hinv.started hhandler ok
      · cases hstep

lemma inv_start (now : ℚ) : Inv (start now) where
  cache := cacheSound_empty
  carries := trivial
  last := fun _ _ hlast => by cases hlast
  dispatched := fun _ hentry => by cases hentry

/-- The invariant of the runs. -/
lemma inv_of_reachable (h : (system ttl).Reachable s) : Inv s := by
  refine h.invariant ?_ ?_
  · rintro _ ⟨now, rfl⟩
    exact inv_start now
  · intro s a s' _ _ hinv hstep
    exact step_inv hinv hstep

/-- **Approvals apply vetted values**: the dispatch of an approval carries the two final
values of a response for the same workload that passed, or the two fixed values after a
look-up for that workload without a recommendation. -/
theorem approvals_vetted (h : (system ttl).Reachable s) {target : Target} {cpu memory : String}
    {last : Option Lookup} (hdispatch : (.finopsApply target cpu memory, last) ∈ s.dispatched)
    (hnamed : target.Named) :
    (∃ response ∈ s.computed, response.overallStatus = .pass ∧ response.target = target ∧
        response.recommendations.final = ⟨cpu, memory⟩) ∨
      (cpu = "298m" ∧ memory = "100Mi" ∧ last = some (target, none)) := by
  obtain ⟨hfrom, hvetted⟩ := (inv_of_reachable h).dispatched _ hdispatch
  obtain ⟨answer, hlast, hvalues⟩ := hfrom target cpu memory rfl
  cases answer with
  | none =>
      obtain ⟨rfl, rfl⟩ := Prod.mk.inj hvalues
      exact .inr ⟨rfl, rfl, hlast⟩
  | some recommendation =>
      obtain ⟨response, hmem, hpass, htarget, hcpu, hmemory⟩ :=
        hvetted target recommendation hlast hnamed
      rw [finalValues, hcpu, hmemory] at hvalues
      obtain ⟨rfl, rfl⟩ := Prod.mk.inj hvalues
      exact .inl ⟨response, hmem, hpass, htarget, rfl⟩

end Steps

/-! ### Two runs -/

/-- A Prometheus without any data. -/
def noData (_ : PromQuery) : PromReply := .response 200 (.result [])

/-- The workload of the runs. -/
def appTarget : Target := ⟨"prod", "app", "app"⟩

/-- An approval of the workload whose look-up is answered. -/
def approval : List Act :=
  [.callback 1 "infra_approve:prod:app:app", .edited, .fetched .answered, .edited, .started true]

/-- The dispatch of a state's record is the given one. -/
def dispatches (d : Dispatch) (s : State) : Bool := s.dispatched.any fun entry => entry.1 = d

lemma exists_of_dispatches {d : Dispatch} {s : State} (h : dispatches d s = true) :
    ∃ last, (d, last) ∈ s.dispatched := by
  obtain ⟨⟨d', last⟩, hmem, heq⟩ := List.any_eq_true.mp h
  obtain rfl := of_decide_eq_true heq
  exact ⟨last, hmem⟩

/-- After an analysis that passes, its final values are applied. -/
theorem approvals_vetted_app :
    ∃ s, (system 86400).Reachable s ∧
      (∃ last, (.finopsApply appTarget "850m" "700Mi", last) ∈ s.dispatched) ∧
      ∃ response ∈ s.computed, response.overallStatus = .pass ∧ response.target = appTarget ∧
        response.recommendations.final = ⟨"850m", "700Mi"⟩ := by
  obtain ⟨s, hs, hp⟩ := (system 86400).exists_run_of_schedule (fun _ _ => True) ⟨0, rfl⟩
    (.analyse "app" "prod" none (some smallerData) noData .raised :: approval)
    (dispatches (.finopsApply appTarget "850m" "700Mi")) (by decide +kernel)
  obtain ⟨last, hdispatch⟩ := exists_of_dispatches hp
  refine ⟨s, hs, ⟨last, hdispatch⟩, ?_⟩
  rcases approvals_vetted hs hdispatch (by decide) with hvetted | ⟨hcpu, -⟩
  · exact hvetted
  · exact absurd hcpu (by decide)

/-- Without any analysis, the fixed values are applied. -/
theorem unvetted_dispatch :
    ∃ s, (system 86400).Reachable s ∧ s.computed = [] ∧
      ∃ last, (.finopsApply appTarget "298m" "100Mi", last) ∈ s.dispatched := by
  obtain ⟨s, hs, hp⟩ := (system 86400).exists_run_of_schedule (fun _ _ => True) ⟨0, rfl⟩ approval
    (fun s => s.computed.isEmpty && dispatches (.finopsApply appTarget "298m" "100Mi") s)
    (by decide +kernel)
  obtain ⟨hcomputed, hdispatch⟩ := (Bool.and_eq_true _ _).mp hp
  exact ⟨s, hs, List.isEmpty_iff.mp hcomputed, exists_of_dispatches hdispatch⟩

end Approval

end FinOpsPipeline
