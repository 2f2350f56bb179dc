import FinOpsPipeline.Approval.Analysis
import FinOpsPipeline.Clients.PodSelector
import Mathlib.Logic.Function.Basic

/-!
The recommendation cache of `finops/app/main.py` and the endpoint that reads it.

* `storeRecommendation`, `getRecommendation`: the cache of the last response of each
  workload, with its time to live.
* `getLastRecommendation`: the endpoint, which answers only with a response that
  passed.
* `cacheKey_injective`: a workload with Kubernetes names shares its key with no other.
* `CacheSound`: every entry is a computed response under its own key. The operations
  keep it, and `CacheSound.found` draws the conclusion for a recommendation.
-/

namespace FinOpsPipeline

open PrometheusClient

/-- The workload that a recommendation is for. -/
structure Target where
  ns : String
  deploymentName : String
  containerName : String
  deriving DecidableEq

/-- A name as Kubernetes writes it, which is a segment of the path of a request as it
is. -/
def PathName (name : String) : Prop :=
  KubernetesName name ∧ name ≠ "" ∧ name ≠ "." ∧ name ≠ ".."

instance (name : String) : Decidable (PathName name) :=
  inferInstanceAs (Decidable (_ ∧ _ ∧ _ ∧ _))

/-- The names are written as Kubernetes writes them. -/
def Target.Named (t : Target) : Prop :=
  PathName t.ns ∧ PathName t.deploymentName ∧ PathName t.containerName

instance (t : Target) : Decidable t.Named := inferInstanceAs (Decidable (_ ∧ _ ∧ _))

namespace Analysis

/-- The workload of a response. -/
def AnalysisResponse.target (response : AnalysisResponse) : Target :=
  ⟨response.ns, response.deploymentName, response.containerName⟩

/-! ### The cache -/

/-- `_last_recommendations`: the responses with the time at which they were stored. -/
abbrev Cache := String → Option (AnalysisResponse × ℚ)

/-- The key of a workload. -/
def cacheKey (t : Target) : String :=
  t.ns ++ "/" ++ t.deploymentName ++ "/" ++ t.containerName

/-- `_store_recommendation`. -/
def storeRecommendation (cache : Cache) (now : ℚ) (deploymentName ns : String)
    (response : AnalysisResponse) : Cache :=
  Function.update cache (cacheKey ⟨ns, deploymentName, response.containerName⟩)
    (some (response, now))

/-- `_get_recommendation`, with the cache that it leaves behind. -/
def getRecommendation (ttl now : ℚ) (cache : Cache) (deploymentName ns : String)
    (containerName : Option String) : Option AnalysisResponse × Cache :=
  let key := cacheKey ⟨ns, deploymentName, (nonempty containerName).getD deploymentName⟩
  match cache key with
  | none => (none, cache)
  | some (response, cachedAt) =>
      if ttl < now - cachedAt then (none, Function.update cache key none)
      else (some response, cache)

/-! ### The endpoint -/

/-- The body of a recommendation. The reader does not rely on the two final values. -/
structure Recommendation where
  ns : String
  deploymentName : String
  containerName : String
  finalCpu : Option String
  finalMemory : Option String
  overallStatus : OverallStatus
  riskScore : RiskScore

/-- An answer of the endpoint: status 404, status 409 or a recommendation. -/
inductive RecommendationReply where
  | notFound
  | conflict
  | found (recommendation : Recommendation)

/-- `get_last_recommendation`, with the cache that it leaves behind. -/
def getLastRecommendation (ttl now : ℚ) (cache : Cache) (ns deploymentName : String)
    (containerName : Option String) : RecommendationReply × Cache :=
  match getRecommendation ttl now cache deploymentName ns containerName with
  | (none, cache) => (.notFound, cache)
  | (some cached, cache) =>
      if cached.overallStatus ≠ .pass then (.conflict, cache)
      else
        (.found
          { ns := ns
            deploymentName := deploymentName
            containerName := cached.containerName
            finalCpu := some cached.recommendations.final.cpu
            finalMemory := some cached.recommendations.final.memory
            overallStatus := cached.overallStatus
            riskScore := cached.riskScore }, cache)

/-! ### The keys -/

/-- A Kubernetes name has no slash. -/
lemma slash_not_mem {name : String} (h : KubernetesName name) : '/' ∉ name.toList := by
  intro hmem
  rcases h _ hmem with hname | heq | heq
  · cases hname
  · cases heq
  · cases heq

/-- The characters of a key. -/
lemma cacheKey_toList (t : Target) :
    (cacheKey t).toList =
      t.ns.toList ++ '/' :: (t.deploymentName.toList ++ '/' :: t.containerName.toList) := by
  simp [cacheKey]

/-- A key contains the slashes of its parts and two more. -/
lemma count_slash_cacheKey (t : Target) :
    (cacheKey t).toList.count '/' =
      t.ns.toList.count '/' + t.deploymentName.toList.count '/' +
        t.containerName.toList.count '/' + 2 := by
  rw [cacheKey_toList, List.count_append, List.count_cons_self, List.count_append,
    List.count_cons_self]
  omega

/-- **The key of a named workload** is the key of no other workload. -/
theorem cacheKey_injective {t t' : Target} (ht : t.Named) (h : cacheKey t = cacheKey t') :
    t = t' := by
  have hns := slash_not_mem ht.1.1
  have hdeployment := slash_not_mem ht.2.1.1
  have hslashes := (count_slash_cacheKey t).symm.trans
    ((congrArg (fun key => key.toList.count '/') h).trans (count_slash_cacheKey t'))
  -- the three parts of `t` have no slash, so that those of `t'` have none either
  rw [List.count_eq_zero.mpr hns, List.count_eq_zero.mpr hdeployment,
    List.count_eq_zero.mpr (slash_not_mem ht.2.2.1)] at hslashes
  have hns' : '/' ∉ t'.ns.toList := List.count_eq_zero.mp (by omega)
  have hdeployment' : '/' ∉ t'.deploymentName.toList := List.count_eq_zero.mp (by omega)
  have hlist := congrArg String.toList h
  rw [cacheKey_toList, cacheKey_toList] at hlist
  obtain ⟨hnseq, hrest⟩ := append_cons_inj hns hns' hlist
  obtain ⟨hdeploymenteq, hcontainereq⟩ := append_cons_inj hdeployment hdeployment' hrest
  cases t
  cases t'
  rw [Target.mk.injEq]
  exact ⟨String.toList_inj.mp hnseq, String.toList_inj.mp hdeploymenteq,
    String.toList_inj.mp hcontainereq⟩

/-! ### Soundness -/

/-- Every entry is a computed response, under the key of its workload. -/
def CacheSound (computed : List AnalysisResponse) (cache : Cache) : Prop :=
  ∀ key response cachedAt, cache key = some (response, cachedAt) →
    response ∈ computed ∧ key = cacheKey response.target

section Sound

variable {computed : List AnalysisResponse} {cache : Cache} {ttl now : ℚ}

lemma cacheSound_empty : CacheSound computed fun _ => none := by
  intro key response cachedAt hentry
  cases hentry

/-- A stored response is computed and stands under its own key. -/
lemma CacheSound.store (h : CacheSound computed cache) (response : AnalysisResponse) :
    CacheSound (response :: computed)
      (storeRecommendation cache now response.deploymentName response.ns response) := by
  intro key response' cachedAt hentry
  by_cases hkey : key = cacheKey response.target
  · have hself : storeRecommendation cache now response.deploymentName response.ns response key =
        some (response, now) := hkey ▸ Function.update_self _ _ _
    rw [hself, Option.some.injEq, Prod.mk.injEq] at hentry
    rw [← hentry.1]
    exact ⟨List.mem_cons_self, hkey⟩
  · have hother : storeRecommendation cache now response.deploymentName response.ns response key =
        cache key := Function.update_of_ne hkey _ _
    rw [hother] at hentry
    obtain ⟨hmem, hkey'⟩ := h key response' cachedAt hentry
    exact ⟨List.mem_cons_of_mem _ hmem, hkey'⟩

/-- An expired entry is only removed. -/
lemma CacheSound.getRecommendation (h : CacheSound computed cache) (deploymentName ns : String)
    (containerName : Option String) :
    CacheSound computed (getRecommendation ttl now cache deploymentName ns containerName).2 := by
  rw [Analysis.getRecommendation]
  split
  · exact h
  · split
    · intro key response cachedAt hentry
      simp only [Function.update_apply] at hentry
      split at hentry
      · cases hentry
      · exact h key response cachedAt hentry
    · exact h

/-- A response that is read is an entry of the cache. -/
lemma getRecommendation_eq_some {deploymentName ns : String} {containerName : Option String}
    {response : AnalysisResponse}
    (h : (getRecommendation ttl now cache deploymentName ns containerName).1 = some response) :
    ∃ cachedAt, cache (cacheKey ⟨ns, deploymentName,
        (nonempty containerName).getD deploymentName⟩) = some (response, cachedAt) ∧
      now - cachedAt ≤ ttl := by
  rw [getRecommendation] at h
  split at h
  · cases h
  · rename_i cachedAt hentry
    split at h
    · cases h
    · rename_i hage
      cases h
      exact ⟨cachedAt, hentry, not_lt.mp hage⟩

/-- The endpoint leaves the cache as the reading does. -/
lemma getLastRecommendation_snd (deploymentName ns : String) (containerName : Option String) :
    (getLastRecommendation ttl now cache ns deploymentName containerName).2 =
      (getRecommendation ttl now cache deploymentName ns containerName).2 := by
  rw [getLastRecommendation]
  split
  · rename_i heq
    rw [heq]
  · rename_i heq
    rw [heq]
    split <;> rfl

/-- **A recommendation is vetted**: it carries the final values of a computed response
for the same workload that passed. -/
theorem CacheSound.found (h : CacheSound computed cache) {t : Target} (ht : t.Named)
    {recommendation : Recommendation}
    (hreply : (getLastRecommendation ttl now cache t.ns t.deploymentName
      (some t.containerName)).1 = .found recommendation) :
    ∃ response ∈ computed, response.overallStatus = .pass ∧ response.target = t ∧
      recommendation.finalCpu = some response.recommendations.final.cpu ∧
      recommendation.finalMemory = some response.recommendations.final.memory := by
  have hcontainer : (nonempty (some t.containerName)).getD t.deploymentName = t.containerName := by
    simp [nonempty, Option.filter, ht.2.2.2.1]
  rw [getLastRecommendation] at hreply
  split at hreply
  · cases hreply
  · rename_i response cache' heq
    have hread : (Analysis.getRecommendation ttl now cache t.deploymentName t.ns
        (some t.containerName)).1 = some response := by rw [heq]
    obtain ⟨cachedAt, hentry, -⟩ := getRecommendation_eq_some hread
    rw [hcontainer] at hentry
    obtain ⟨hmem, hkey⟩ := h _ _ _ hentry
    split at hreply
    · cases hreply
    · rename_i hpass
      cases hreply
      exact ⟨response, hmem, not_not.mp hpass, (cacheKey_injective ht hkey).symm, rfl, rfl⟩

end Sound

end Analysis

end FinOpsPipeline
