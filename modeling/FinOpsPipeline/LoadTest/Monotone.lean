import FinOpsPipeline.LoadTest.Verdict
import FinOpsPipeline.LoadTest.Doubles

/-!
A better POST run with its containers in the same order keeps a passing verdict.

* `Better`: the second run has the containers and the metrics of the first, with
  no figure worse and everything else that is compared equal. The containers may
  be listed in another order.
* `WorkloadBetter`, `HttpBetter`: the same for the parts of a run.
* `sumValues_rel`, `requestCapacity_rel`: the totals of the better run are at most
  those of the other, when both add the containers in the same order.
* `verdict_mono`: the verdict, from one lemma for each kind of check. In another order
  the total of the same requests may be larger (`verdict_depends_on_order`).
-/

namespace FinOpsPipeline

namespace LoadTest

open PyFloat Binary64

variable {V : Type}

/-! ### Better runs -/

/-- Both values are missing, or both are there and the first is at most the second. -/
abbrev ValueLe {α : Type} [LE α] (x y : Option α) : Prop := Option.Rel (· ≤ ·) x y

/-- What was collected for a container is no worse in `second`. Its limit and its
replicas are the same. -/
structure WorkloadBetter (first second : Workload) : Prop where
  cpuRequest :
    ValueLe second.cpuRequestCoresPerReplica.avg first.cpuRequestCoresPerReplica.avg
  memoryRequest :
    ValueLe second.memoryRequestBytesPerReplica.avg first.memoryRequestBytesPerReplica.avg
  cpuLimit : second.cpuLimitCoresPerReplica = first.cpuLimitCoresPerReplica
  throttlingAvg : ValueLe second.cpuThrottlingRatio.avg first.cpuThrottlingRatio.avg
  throttlingP95 : ValueLe second.cpuThrottlingRatio.p95 first.cpuThrottlingRatio.p95
  replicas : second.replicas = first.replicas
  oom : ValueLe second.oomKilledPods first.oomKilledPods
  restarts : ValueLe second.restartIncrease first.restartIncrease

/-- The figures of the load generator are no worse in `second`, at the same load. -/
structure HttpBetter (first second : Http) : Prop where
  offeredRps : second.offeredRps = first.offeredRps
  successfulRps : ValueLe first.successfulRps second.successfulRps
  systemErrorRate : ValueLe second.systemErrorRate first.systemErrorRate
  businessFailureRate : ValueLe second.businessFailureRate first.businessFailureRate
  droppedIterations : ValueLe second.droppedIterations first.droppedIterations
  p95 : ValueLe second.latencyMs.p95 first.latencyMs.p95
  p99 : ValueLe second.latencyMs.p99 first.latencyMs.p99

/-- **A better run** of the same containers. -/
structure Better (first second : Report V) : Prop where
  scenario : second.scenario = first.scenario
  scenarioSha256 : second.scenarioSha256 = first.scenarioSha256
  durationSeconds : second.durationSeconds = first.durationSeconds
  applicationCommit : second.applicationCommit = first.applicationCommit
  equivalence : second.equivalence = first.equivalence
  collectionWarnings : second.collectionWarnings = first.collectionWarnings
  http : HttpBetter first.http second.http
  workloads : ∀ identifier, Option.Rel WorkloadBetter (first.workloads.lookup identifier)
    (second.workloads.lookup identifier)

/-- No value of the container is negative. -/
def Workload.Nonneg (item : Workload) : Prop :=
  ∀ value ∈ [item.cpuRequestCoresPerReplica.avg, item.memoryRequestBytesPerReplica.avg,
    item.cpuLimitCoresPerReplica.avg, item.cpuThrottlingRatio.avg, item.cpuThrottlingRatio.p95,
    item.replicas.avg, item.oomKilledPods, item.restartIncrease], ∀ v, value = some v → 0 ≤ v

/-- No figure of the load generator is negative. -/
def Http.Nonneg (http : Http) : Prop :=
  (∀ value ∈ [http.offeredRps, http.successfulRps, http.systemErrorRate, http.businessFailureRate,
    http.latencyMs.p95, http.latencyMs.p99], ∀ v, value = some v → 0 ≤ v) ∧
    ∀ v, http.droppedIterations = some v → 0 ≤ v

/-- No value of the run is negative. -/
def Report.Nonneg (run : Report V) : Prop :=
  run.http.Nonneg ∧ ∀ item ∈ run.items, item.Nonneg

/-! ### Values and their totals -/

/-- Related values are taken to related values. -/
lemma rel_bind {α β γ δ : Type} {r : α → β → Prop} {t : γ → δ → Prop} {x : Option α} {y : Option β}
    {f : α → Option γ} {g : β → Option δ} (h : Option.Rel r x y)
    (hfg : ∀ a b, r a b → Option.Rel t (f a) (g b)) : Option.Rel t (x.bind f) (y.bind g) := by
  cases h with
  | some hab => exact hfg _ _ hab
  | none => exact .none

lemma isSome_of_rel {α β : Type} {r : α → β → Prop} {x : Option α} {y : Option β}
    (h : Option.Rel r x y) : x.isSome = y.isSome := by
  cases h <;> rfl

/-- A check that a smaller value passes as well. -/
lemma any_of_valueLe {α : Type} [LE α] {x y : Option α} {p : α → Bool} (h : ValueLe x y)
    (hp : ∀ a b, a ≤ b → p b = true → p a = true) (hy : y.any p = true) : x.any p = true := by
  cases h with
  | some hle => exact hp _ _ hle hy
  | none => exact hy

/-- Both values are missing, or both are there and the first is at most the second. -/
abbrev FloatLe (x y : Option PyFloat) : Prop := Option.Rel (fun a b => le a b = true) x y

/-- Smaller values have a sum that is not larger. -/
lemma sumValues_rel (sum : Summation) {xs ys : List (Option ℚ)} (h : List.Forall₂ ValueLe xs ys)
    (hnonneg : ∀ v, some v ∈ xs → 0 ≤ v) :
    FloatLe (Doubles.sumValues sum xs) (Doubles.sumValues sum ys) := by
  have hall : xs.all Option.isSome = ys.all Option.isSome := by
    clear hnonneg
    induction h with
    | nil => rfl
    | cons hvalue _ ih => rw [List.all_cons, List.all_cons, isSome_of_rel hvalue, ih]
  rw [Doubles.sumValues, Doubles.sumValues, hall]
  split
  · rename_i hsome
    rw [← hall] at hsome
    refine .some (sum.mono ?_ ?_)
    · intro x hx
      obtain ⟨v, hv, rfl⟩ := List.mem_map.mp hx
      obtain ⟨x, rfl⟩ := Option.isSome_iff_exists.mp (List.all_eq_true.mp hsome v hv)
      exact hnonneg x hv
    · rw [List.forall₂_map_left_iff, List.forall₂_map_right_iff]
      refine h.imp fun a b hab => ?_
      cases hab with
      | some hle => exact hle
      | none => exact le_rfl
  · exact .none

/-- One step of the loop of `request_capacity`. -/
def addRequest (resourceKey : Workload → Stats) (total : PyFloat) (item : Workload) :
    Option PyFloat := do
  let request ← (resourceKey item).avg
  let replicas ← item.replicas.avg
  return double (total + double (fin request * fin replicas))

/-- A rounded value is not negative if the exact one is not. -/
lemma double_nonneg {x : PyFloat} (h : le (fin 0) x = true) : le (fin 0) (double x) = true := by
  have hdouble := double_le_double h
  rwa [double_of_isDouble isDouble_zero (by simp)] at hdouble

/-- A request of the containers: not negative, and no larger in a better container. -/
structure IsRequest (resourceKey : Workload → Stats) : Prop where
  nonneg : ∀ item : Workload, item.Nonneg → ∀ v, (resourceKey item).avg = some v → 0 ≤ v
  better : ∀ before after, WorkloadBetter before after →
    ValueLe (resourceKey after).avg (resourceKey before).avg

lemma isRequest_cpu : IsRequest Workload.cpuRequestCoresPerReplica where
  nonneg _ hitem v hv := hitem _ (List.mem_cons_self) v hv
  better _ _ h := h.cpuRequest

lemma isRequest_memory : IsRequest Workload.memoryRequestBytesPerReplica where
  nonneg _ hitem v hv := hitem _ (List.mem_cons_of_mem _ List.mem_cons_self) v hv
  better _ _ h := h.memoryRequest

/-- The request of a better container lies between zero and that of the other. -/
lemma IsRequest.rel {resourceKey : Workload → Stats} (hkey : IsRequest resourceKey)
    {first second : Workload} (h : WorkloadBetter first second) (hsecond : second.Nonneg) :
    Option.Rel (fun x y => 0 ≤ x ∧ x ≤ y) (resourceKey second).avg (resourceKey first).avg := by
  have hnonneg := hkey.nonneg second hsecond
  have hrequest := hkey.better first second h
  generalize (resourceKey second).avg = small at hnonneg hrequest ⊢
  generalize (resourceKey first).avg = large at hrequest ⊢
  cases hrequest with
  | some hle => exact .some ⟨hnonneg _ rfl, hle⟩
  | none => exact .none

/-- A smaller request and a smaller total have a smaller total with it. -/
lemma addRequest_rel {resourceKey : Workload → Stats} (hkey : IsRequest resourceKey)
    {first second : Workload} (h : WorkloadBetter first second) (hfirst : first.Nonneg)
    (hsecond : second.Nonneg) {a b : PyFloat} (ha : le (fin 0) a = true) (hab : le a b = true) :
    Option.Rel (fun x y => le (fin 0) x = true ∧ le x y = true)
      (addRequest resourceKey a second) (addRequest resourceKey b first) := by
  have hreplicas : ∀ v, first.replicas.avg = some v → 0 ≤ v :=
    fun v hv => hfirst first.replicas.avg (by simp) v hv
  simp only [addRequest, Option.bind_eq_bind, Option.pure_def, h.replicas]
  refine rel_bind (hkey.rel h hsecond) fun x y hxy => ?_
  cases hn : first.replicas.avg with
  | none => exact .none
  | some replicas =>
      have hpos : 0 ≤ replicas := hreplicas replicas hn
      have hrequest : le (fin 0) (fin x * fin replicas) = true := by
        rw [fin_mul, le_fin, decide_eq_true_eq]
        exact mul_nonneg hxy.1 hpos
      have hmul : le (fin x * fin replicas) (fin y * fin replicas) = true := by
        rw [fin_mul, fin_mul, le_fin, decide_eq_true_eq]
        exact mul_le_mul_of_nonneg_right hxy.2 hpos
      exact .some ⟨double_nonneg (PyFloat.add_nonneg ha (double_nonneg hrequest)),
        double_le_double (add_le_add_of_nonneg ha (double_nonneg hrequest) hab
          (double_le_double hmul))⟩

/-- **The loop of `request_capacity`** keeps the order. -/
lemma foldlM_addRequest_rel {resourceKey : Workload → Stats} (hkey : IsRequest resourceKey)
    {firsts seconds : List Workload}
    (h : List.Forall₂ (fun first second => WorkloadBetter first second ∧ first.Nonneg ∧
      second.Nonneg) firsts seconds)
    {a b : PyFloat} (ha : le (fin 0) a = true) (hab : le a b = true) :
    FloatLe (seconds.foldlM (addRequest resourceKey) a)
      (firsts.foldlM (addRequest resourceKey) b) := by
  induction h generalizing a b with
  | nil => exact .some hab
  | cons hitem _ ih =>
      obtain ⟨hbetter, hfirst, hsecond⟩ := hitem
      rw [List.foldlM_cons, List.foldlM_cons]
      exact rel_bind (addRequest_rel hkey hbetter hfirst hsecond ha hab)
        fun x y hxy => ih hxy.1 hxy.2

/-! ### The containers of a better run -/

lemma WorkloadBetter.cpuLimited_eq {first second : Workload} (h : WorkloadBetter first second) :
    cpuLimited second = cpuLimited first := by
  rw [cpuLimited, cpuLimited, h.cpuLimit]

/-- A better container has the same metrics. -/
lemma WorkloadBetter.itemComplete_eq {first second : Workload} (h : WorkloadBetter first second) :
    itemComplete second = itemComplete first := by
  rw [itemComplete, itemComplete, isSome_of_rel h.cpuRequest, isSome_of_rel h.memoryRequest,
    isSome_of_rel h.oom, isSome_of_rel h.restarts, h.replicas, h.cpuLimited_eq,
    isSome_of_rel h.throttlingAvg, isSome_of_rel h.throttlingP95]

/-- The containers of a run, looked up by their identifiers. -/
lemma Report.items_eq_map (run : Report V) : run.items = run.workloads.keys.map run.workload := by
  rw [items, AList.keys, List.keys, List.map_map]
  refine List.map_congr_left fun entry hentry => ?_
  have hlookup : run.workloads.lookup entry.1 = some entry.2 := AList.mem_lookup_iff.mpr hentry
  rw [Function.comp_apply, Report.workload, hlookup, Option.getD_some]

section Better

variable {pre first second : Report V} {thresholds : Thresholds}

/-- A better run has the same containers. -/
lemma Better.mem_iff (h : Better first second) (identifier : String) :
    identifier ∈ second.workloads ↔ identifier ∈ first.workloads := by
  rw [← AList.lookup_isSome, ← AList.lookup_isSome, isSome_of_rel (h.workloads identifier)]

lemma Better.workload (h : Better first second) {identifier : String}
    (hmem : identifier ∈ first.workloads) :
    WorkloadBetter (first.workload identifier) (second.workload identifier) := by
  have hrel := h.workloads identifier
  obtain ⟨before, hbefore⟩ := Option.isSome_iff_exists.mp (AList.lookup_isSome.mpr hmem)
  obtain ⟨after, hafter⟩ := Option.isSome_iff_exists.mp
    (AList.lookup_isSome.mpr ((h.mem_iff identifier).mpr hmem))
  rw [hbefore, hafter, Option.rel_some_some] at hrel
  rwa [Report.workload, Report.workload, hbefore, hafter]

/-- **The containers of a better run** in the same order. -/
lemma Better.items (h : Better first second)
    (horder : second.workloads.keys = first.workloads.keys) :
    List.Forall₂ (fun before after => before ∈ first.items ∧ after ∈ second.items ∧
      WorkloadBetter before after) first.items second.items := by
  have hall : List.Forall₂ (fun before after => before ∈ first.items ∧ after ∈ second.items ∧
      WorkloadBetter before after) (first.workloads.keys.map first.workload)
      (first.workloads.keys.map second.workload) := by
    rw [List.forall₂_map_left_iff, List.forall₂_map_right_iff, List.forall₂_same]
    exact fun identifier hmem => ⟨Report.workload_mem_items hmem,
      Report.workload_mem_items ((h.mem_iff identifier).mpr hmem), h.workload hmem⟩
  rwa [← first.items_eq_map, ← horder, ← second.items_eq_map] at hall

/-- Each container of the better run is a better one of the other run. -/
lemma Better.exists_before (h : Better first second) {after : Workload}
    (hafter : after ∈ second.items) : ∃ before ∈ first.items, WorkloadBetter before after := by
  rw [second.items_eq_map] at hafter
  obtain ⟨identifier, hidentifier, rfl⟩ := List.mem_map.mp hafter
  have hmem : identifier ∈ first.workloads := (h.mem_iff identifier).mp hidentifier
  exact ⟨_, Report.workload_mem_items hmem, h.workload hmem⟩

lemma Better.exists_after (h : Better first second) {before : Workload}
    (hbefore : before ∈ first.items) : ∃ after ∈ second.items, WorkloadBetter before after := by
  rw [first.items_eq_map] at hbefore
  obtain ⟨identifier, hmem, rfl⟩ := List.mem_map.mp hbefore
  exact ⟨_, Report.workload_mem_items ((h.mem_iff identifier).mpr hmem), h.workload hmem⟩

lemma Better.length_items (h : Better first second)
    (horder : second.workloads.keys = first.workloads.keys) :
    second.items.length = first.items.length := (h.items horder).length_eq.symm

/-- A value of the containers that is no larger in the better run has a sum that is no larger. -/
lemma Better.sumValues_rel (h : Better first second)
    (horder : second.workloads.keys = first.workloads.keys) (sum : Summation)
    {value : Workload → Option ℚ}
    (hvalue : ∀ before after, WorkloadBetter before after → ValueLe (value after) (value before))
    (hnonneg : ∀ item ∈ second.items, ∀ v, value item = some v → 0 ≤ v) :
    FloatLe (Doubles.sumValues sum (second.items.map value))
      (Doubles.sumValues sum (first.items.map value)) := by
  refine LoadTest.sumValues_rel sum (List.Forall₂.flip ?_) fun v hv => ?_
  · rw [List.forall₂_map_left_iff, List.forall₂_map_right_iff]
    exact (h.items horder).imp fun before after hboth => hvalue before after hboth.2.2
  · obtain ⟨item, hitem, hv⟩ := List.mem_map.mp hv
    exact hnonneg item hitem v hv

/-- The total requests of the better run are at most those of the other. -/
lemma Better.requestCapacity_rel (h : Better first second)
    (horder : second.workloads.keys = first.workloads.keys) (hfirst : first.Nonneg)
    (hsecond : second.Nonneg) (hlength : first.items.length = 11)
    {resourceKey : Workload → Stats} (hkey : IsRequest resourceKey) :
    FloatLe (Doubles.requestCapacity second resourceKey)
      (Doubles.requestCapacity first resourceKey) := by
  have hlength' := (h.length_items horder).trans hlength
  rw [Doubles.requestCapacity, Doubles.requestCapacity, if_neg (not_not.mpr hlength),
    if_neg (not_not.mpr hlength')]
  refine foldlM_addRequest_rel hkey ((h.items horder).imp fun before after hboth => ?_) (by decide)
    (by decide)
  exact ⟨hboth.2.2, hfirst.2 before hboth.1, hsecond.2 after hboth.2.1⟩

/-- A bound on the maximum over the containers with a limit is kept. -/
lemma Better.maxValues_lt (h : Better first second) {value : Workload → Option ℚ} {bound : ℚ}
    (hvalue : ∀ before after, WorkloadBetter before after → ValueLe (value after) (value before))
    (hlt : (maxValues ((first.items.filter cpuLimited).map value)).any (fun v => v < bound) = true) :
    (maxValues ((second.items.filter cpuLimited).map value)).any (fun v => v < bound) = true := by
  obtain ⟨hne, hall⟩ := maxValues_lt_iff.mp hlt
  refine maxValues_lt_iff.mpr ⟨?_, fun v hv => ?_⟩
  · -- some container of the first run has a limit, and has it in the second as well
    obtain ⟨before, hbefore⟩ := List.exists_mem_of_ne_nil _ (mt List.map_eq_nil_iff.mpr hne)
    obtain ⟨hitem, hlimited⟩ := List.mem_filter.mp hbefore
    obtain ⟨after, hafter, hbetter⟩ := h.exists_after hitem
    have hmem : after ∈ second.items.filter cpuLimited :=
      List.mem_filter.mpr ⟨hafter, by rw [hbetter.cpuLimited_eq, hlimited]⟩
    exact List.ne_nil_of_mem (List.mem_map.mpr ⟨after, hmem, rfl⟩)
  · obtain ⟨after, hafter, rfl⟩ := List.mem_map.mp hv
    obtain ⟨hitem, hlimited⟩ := List.mem_filter.mp hafter
    obtain ⟨before, hbefore, hbetter⟩ := h.exists_before hitem
    have hmem : before ∈ first.items.filter cpuLimited :=
      List.mem_filter.mpr ⟨hbefore, by rw [← hbetter.cpuLimited_eq, hlimited]⟩
    refine any_of_valueLe (hvalue before after hbetter) (fun a b hle hb => ?_)
      (hall _ (List.mem_map.mpr ⟨before, hmem, rfl⟩))
    simpa using hle.trans_lt (by simpa using hb)

/-- A better run of complete metrics has complete metrics. -/
lemma Better.metricsComplete (h : Better first second)
    (horder : second.workloads.keys = first.workloads.keys)
    (hcomplete : metricsComplete first = true) : LoadTest.metricsComplete second = true := by
  simp only [LoadTest.metricsComplete, Bool.and_eq_true, decide_eq_true_eq, List.all_eq_true]
    at hcomplete ⊢
  obtain ⟨⟨hlength, hwarnings⟩, hall⟩ := hcomplete
  refine ⟨⟨(h.length_items horder).trans hlength, by rw [h.collectionWarnings, hwarnings]⟩, ?_⟩
  intro item hitem
  obtain ⟨before, hbefore, hbetter⟩ := h.exists_before hitem
  rw [← hall before hbefore]
  exact hbetter.itemComplete_eq

/-! ### The verdict -/

/-- Each check of `a` that is passed is passed in `b`. -/
structure Checks.Kept (a b : Checks) : Prop where
  equivalentInputs : a.equivalentInputs = true → b.equivalentInputs = true
  completeMetrics : a.completeMetrics = true → b.completeMetrics = true
  systemErrorRate : a.systemErrorRate = true → b.systemErrorRate = true
  businessFailureRate : a.businessFailureRate = true → b.businessFailureRate = true
  offeredRps : a.offeredRps = true → b.offeredRps = true
  droppedIterations : a.droppedIterations = true → b.droppedIterations = true
  p95Latency : a.p95Latency = true → b.p95Latency = true
  p99Latency : a.p99Latency = true → b.p99Latency = true
  successfulThroughput : a.successfulThroughput = true → b.successfulThroughput = true
  cpuThrottlingAvg : a.cpuThrottlingAvg = true → b.cpuThrottlingAvg = true
  cpuThrottlingP95 : a.cpuThrottlingP95 = true → b.cpuThrottlingP95 = true
  oom : a.oom = true → b.oom = true
  restarts : a.restarts = true → b.restarts = true
  resourceReduction : a.resourceReduction = true → b.resourceReduction = true

lemma Checks.Kept.all {a b : Checks} (h : a.Kept b) (ha : a.all = true) : b.all = true := by
  simp only [Checks.all, Bool.and_eq_true] at ha ⊢
  obtain ⟨⟨⟨⟨⟨⟨⟨⟨⟨⟨⟨⟨⟨h₁, h₂⟩, h₃⟩, h₄⟩, h₅⟩, h₆⟩, h₇⟩, h₈⟩, h₉⟩, h₁₀⟩, h₁₁⟩, h₁₂⟩, h₁₃⟩, h₁₄⟩ := ha
  exact ⟨⟨⟨⟨⟨⟨⟨⟨⟨⟨⟨⟨⟨h.1 h₁, h.2 h₂⟩, h.3 h₃⟩, h.4 h₄⟩, h.5 h₅⟩, h.6 h₆⟩, h.7 h₇⟩, h.8 h₈⟩,
    h.9 h₉⟩, h.10 h₁₀⟩, h.11 h₁₁⟩, h.12 h₁₂⟩, h.13 h₁₃⟩, h.14 h₁₄⟩

/-- A check for an upper bound is kept by a smaller value. -/
lemma any_le_of_valueLe {x y : Option ℚ} {bound : ℚ} (h : ValueLe x y)
    (hy : y.any (fun v => v ≤ bound) = true) : x.any (fun v => v ≤ bound) = true :=
  any_of_valueLe h (fun _ _ hle hb => by simpa using hle.trans (by simpa using hb)) hy

lemma any_lt_of_valueLe {x y : Option ℚ} {bound : ℚ} (h : ValueLe x y)
    (hy : y.any (fun v => v < bound) = true) : x.any (fun v => v < bound) = true :=
  any_of_valueLe h (fun _ _ hle hb => by simpa using hle.trans_lt (by simpa using hb)) hy

/-- A check for an upper bound is kept by a smaller double. -/
lemma any_le_of_floatLe {x y : Option PyFloat} {bound : ℚ} (h : FloatLe x y)
    (hy : y.any (fun v => le v (fin bound)) = true) : x.any (fun v => le v (fin bound)) = true := by
  cases h with
  | some hle => exact le_of_le_le hle hy
  | none => exact hy

/-- A check for a lower bound is kept by a larger double. -/
lemma any_ge_of_floatLe {x y : Option PyFloat} {bound : ℚ} (h : FloatLe x y)
    (hx : x.any (fun v => le (fin bound) v) = true) : y.any (fun v => le (fin bound) v) = true := by
  cases h with
  | some hle => exact le_of_le_le hx hle
  | none => exact hx

/-- A smaller value is a change that is not larger, from a value that is not negative. -/
lemma ratio_rel {x y before : Option ℚ} (h : ValueLe x y)
    (hbefore : ∀ v, before = some v → 0 ≤ v) :
    FloatLe (Doubles.ratio x before) (Doubles.ratio y before) := by
  refine rel_bind h fun a b hle => ?_
  cases before with
  | none => exact .none
  | some v =>
      simp only [Option.bind_eq_bind, Option.bind_some]
      split
      · exact .none
      · rename_i hzero
        have hv : 0 < v := (hbefore v rfl).lt_of_ne' hzero
        refine .some (double_le_double (div_le_div_right hv (double_le_double ?_)))
        rw [fin_sub, fin_sub, le_fin, decide_eq_true_eq]
        exact sub_le_sub_right hle v

/-- A larger throughput is a ratio that is not smaller. -/
lemma throughput_rel {pre first second : Http} (h : HttpBetter first second) (hpre : pre.Nonneg) :
    FloatLe (Doubles.httpChange pre first).successfulThroughputRatio
      (Doubles.httpChange pre second).successfulThroughputRatio := by
  simp only [Doubles.httpChange]
  cases hbefore : pre.successfulRps with
  | none => exact .none
  | some v =>
      simp only [Option.bind_eq_bind, Option.bind_some]
      refine rel_bind h.successfulRps fun a b hle => ?_
      split
      · exact .none
      · rename_i hzero
        have hv : 0 < v := (hpre.1 (some v) (by simp [hbefore]) v rfl).lt_of_ne' hzero
        exact .some (double_le_double (div_le_div_right hv (by simpa using hle)))

/-- A reduction of the requests is kept by smaller requests. -/
lemma reduced_mono {a b : Doubles.ResourceCapacity} (hcpuBefore : b.cpuCoresBefore = a.cpuCoresBefore)
    (hmemBefore : b.memoryBytesBefore = a.memoryBytesBefore)
    (hcpu : FloatLe b.cpuCoresAfter a.cpuCoresAfter)
    (hmem : FloatLe b.memoryBytesAfter a.memoryBytesAfter) (h : a.reduced = true) :
    b.reduced = true := by
  simp only [Doubles.ResourceCapacity.reduced, Option.any_eq_true, Bool.or_eq_true] at h ⊢
  obtain ⟨cpuBefore, h₁, cpuAfter, h₂, memBefore, h₃, memAfter, h₄, hlt⟩ := h
  rw [h₂] at hcpu
  rw [h₄] at hmem
  cases hcpuAfter : b.cpuCoresAfter with
  | none => rw [hcpuAfter] at hcpu; cases hcpu
  | some cpuAfter' =>
      cases hmemAfter : b.memoryBytesAfter with
      | none => rw [hmemAfter] at hmem; cases hmem
      | some memAfter' =>
          rw [hcpuAfter] at hcpu
          rw [hmemAfter] at hmem
          obtain ⟨hcpu⟩ := hcpu
          obtain ⟨hmem⟩ := hmem
          exact ⟨cpuBefore, hcpuBefore.trans h₁, cpuAfter', rfl, memBefore, hmemBefore.trans h₃,
            memAfter', rfl, hlt.imp (lt_of_le_lt hcpu) (lt_of_le_lt hmem)⟩

/-- The aggregates of a run with containers. -/
lemma doubles_aggregateStability (sum : Summation) {run : Report V} (h : run.items.length = 11) :
    Doubles.aggregateStability sum run =
      { oom := Doubles.sumValues sum (run.items.map Workload.oomKilledPods)
        restarts := Doubles.sumValues sum (run.items.map Workload.restartIncrease)
        throttleAvgMax :=
          maxValues ((run.items.filter cpuLimited).map fun item => item.cpuThrottlingRatio.avg)
        throttleP95Max :=
          maxValues ((run.items.filter cpuLimited).map fun item =>
            item.cpuThrottlingRatio.p95) } := by
  have hne : run.items.isEmpty = false := by
    cases hitems : run.items with
    | nil => simp [hitems] at h
    | cons item rest => rfl
  rw [Doubles.aggregateStability, hne]
  rfl

/-- **A better run** that lists its containers in the same order keeps a passing verdict. -/
theorem verdict_mono [DecidableEq V] (sum : Summation) (hpre : pre.Nonneg) (hfirst : first.Nonneg)
    (hsecond : second.Nonneg) (h : Better first second)
    (horder : second.workloads.keys = first.workloads.keys)
    (hpass : (Doubles.compare sum pre first thresholds).verdict = .pass) :
    (Doubles.compare sum pre second thresholds).verdict = .pass := by
  have hpassed := (verdictOf_eq_pass _).mp hpass
  have hlength : first.items.length = 11 :=
    length_of_metricsComplete (Bool.and_eq_true_iff.mp (Checks.all_eq_true hpassed).2.1).2
  have hmismatches : equivalenceMismatches pre second = equivalenceMismatches pre first := by
    simp only [equivalenceMismatches, h.scenario, h.scenarioSha256, h.durationSeconds,
      h.applicationCommit, h.equivalence]
  have hstable₁ := doubles_aggregateStability sum hlength
  have hstable₂ := doubles_aggregateStability sum ((h.length_items horder).trans hlength)
  have hkept : (Doubles.compareChecks sum pre first thresholds).Kept
      (Doubles.compareChecks sum pre second thresholds) :=
    { equivalentInputs := fun hc => by rwa [Doubles.compareChecks, hmismatches]
      completeMetrics := fun hc => by
        obtain ⟨hpost, hpost'⟩ := Bool.and_eq_true_iff.mp hc
        exact Bool.and_eq_true_iff.mpr ⟨hpost, h.metricsComplete horder hpost'⟩
      systemErrorRate := any_lt_of_valueLe h.http.systemErrorRate
      businessFailureRate := any_lt_of_valueLe h.http.businessFailureRate
      offeredRps := fun hc => by
        rw [Doubles.compareChecks, Doubles.httpChange, h.http.offeredRps]
        exact hc
      droppedIterations := fun hc => by
        obtain ⟨hbefore, hafter⟩ := Bool.and_eq_true_iff.mp hc
        refine Bool.and_eq_true_iff.mpr ⟨hbefore, any_le_of_valueLe ?_ hafter⟩
        exact rel_bind h.http.droppedIterations fun a b hle => .some (by exact_mod_cast hle)
      p95Latency := any_le_of_floatLe
        (ratio_rel h.http.p95 fun v hv => hpre.1.1 (some v) (by simp [hv]) v rfl)
      p99Latency := any_le_of_floatLe
        (ratio_rel h.http.p99 fun v hv => hpre.1.1 (some v) (by simp [hv]) v rfl)
      successfulThroughput := any_ge_of_floatLe (throughput_rel h.http hpre.1)
      cpuThrottlingAvg := fun hc => by
        simp only [Doubles.compareChecks, hstable₁, hstable₂] at hc ⊢
        exact h.maxValues_lt (fun _ _ hbetter => hbetter.throttlingAvg) hc
      cpuThrottlingP95 := fun hc => by
        simp only [Doubles.compareChecks, hstable₁, hstable₂] at hc ⊢
        exact h.maxValues_lt (fun _ _ hbetter => hbetter.throttlingP95) hc
      oom := fun hc => by
        simp only [Doubles.compareChecks, hstable₁, hstable₂] at hc ⊢
        exact any_le_of_floatLe (h.sumValues_rel horder sum (fun _ _ hbetter => hbetter.oom)
          fun item hitem v hv => hsecond.2 item hitem _ (by simp) v hv) hc
      restarts := fun hc => by
        simp only [Doubles.compareChecks, hstable₁, hstable₂] at hc ⊢
        exact any_le_of_floatLe (h.sumValues_rel horder sum (fun _ _ hbetter => hbetter.restarts)
          fun item hitem v hv => hsecond.2 item hitem _ (by simp) v hv) hc
      resourceReduction := fun hc => by
        refine Bool.or_eq_true_iff.mpr ((Bool.or_eq_true_iff.mp hc).imp_right fun hreduced => ?_)
        exact reduced_mono (a := Doubles.resourceCapacity pre first)
          (b := Doubles.resourceCapacity pre second) rfl rfl
          (h.requestCapacity_rel horder hfirst hsecond hlength isRequest_cpu)
          (h.requestCapacity_rel horder hfirst hsecond hlength isRequest_memory) hreduced }
  exact (verdictOf_eq_pass _).mpr (hkept.all hpassed)

end Better

/-! ### POST runs in two orders -/

/-- The success criteria as doubles. -/
def doubleCriteria : Thresholds where
  systemErrorRateMax := nearest (1 / 100)
  businessFailureRateMax := nearest (1 / 100)
  offeredRpsDeviationMax := nearest (1 / 100)
  droppedIterationsMax := 0
  p95RegressionMax := nearest (10 / 100)
  p99RegressionMax := nearest (15 / 100)
  successfulThroughputRatioMin := nearest (95 / 100)
  cpuThrottlingAvgMax := nearest (5 / 100)
  cpuThrottlingP95Max := nearest (20 / 100)
  oomIncreaseMax := 0
  restartIncreaseMax := 0
  requireResourceReduction := true

/-- A container of one replica that is neither throttled nor killed nor restarted; the
frontend requests `0.3` cores times the factor, the others `0.1` times the factor. -/
def mixedWorkload (factor : ℚ) (identifier : String) : Workload :=
  { steadyWorkload (factor *
      if identifier = "frontend/mak-app-rollout/mak-container" then nearest (3 / 10)
      else nearest (1 / 10)) with
    replicas := ⟨some 1, some 1⟩
    cpuThrottlingRatio := ⟨some (nearest (1 / 100)), some (nearest (2 / 100))⟩ }

/-- A run of such containers. -/
def mixedRun (phase : String) (factor : ℚ) (identifiers : List String)
    (hnodup : identifiers.Nodup) : Report String :=
  { steadyRun phase 0 (.value "a") identifiers hnodup with
    workloads := ⟨identifiers.map fun identifier => ⟨identifier, mixedWorkload factor identifier⟩, by
      rw [List.NodupKeys, List.keys, List.map_map]
      exact hnodup.map_on fun _ _ _ _ h => h⟩ }

/-- The collected containers with the frontend last. -/
def rotated : List String := collected.rotate 1

lemma rotated_nodup : rotated.Nodup := List.nodup_rotate.mpr collected_nodup

section MixedRun

variable {phase : String} {factor : ℚ} {identifiers : List String} {hnodup : identifiers.Nodup}

lemma lookup_mixedRun (identifier : String) :
    (mixedRun phase factor identifiers hnodup).workloads.lookup identifier =
      if identifier ∈ identifiers then some (mixedWorkload factor identifier) else none := by
  split
  · rename_i hmem
    exact AList.mem_lookup_iff.mpr (List.mem_map.mpr ⟨identifier, hmem, rfl⟩)
  · rename_i hmem
    rw [AList.lookup_eq_none, AList.mem_keys, mixedRun, AList.keys_mk, List.keys, List.map_map]
    simpa using hmem

/-- Mixed runs have no negative values. -/
lemma mixedRun_nonneg (hfactor : 0 ≤ factor) :
    (mixedRun phase factor identifiers hnodup).Nonneg := by
  have hnearest : ∀ q : ℚ, 0 ≤ q → 0 ≤ nearest q := fun q hq => nearest_nonneg hq
  refine ⟨⟨fun value hvalue v hv => ?_, fun v hv => ?_⟩, fun item hitem value hvalue v hv => ?_⟩
  · subst hv
    simp only [mixedRun, steadyRun, List.mem_cons, Option.some.injEq, List.not_mem_nil, or_false]
      at hvalue
    rcases hvalue with rfl | rfl | rfl | rfl | rfl | rfl <;> norm_num
  · cases hv
    exact le_rfl
  · obtain ⟨identifier, -, rfl⟩ := List.mem_map.mp (by
      simpa only [Report.items, mixedRun, List.map_map] using hitem)
    subst hv
    simp only [mixedWorkload, steadyWorkload, Function.comp_apply, List.mem_cons,
      Option.some.injEq, List.not_mem_nil, or_false] at hvalue
    rcases hvalue with rfl | rfl | rfl | rfl | rfl | rfl | rfl | rfl
    · refine mul_nonneg hfactor ?_
      split <;> exact hnearest _ (by norm_num)
    · norm_num
    · norm_num
    · exact hnearest _ (by norm_num)
    · exact hnearest _ (by norm_num)
    · norm_num
    · norm_num
    · norm_num

end MixedRun

/-- A run with smaller requests of the same containers is better. -/
lemma mixedRun_better {phase : String} {small large : ℚ} (h : small ≤ large)
    {identifiers identifiers' : List String} {hnodup : identifiers.Nodup}
    {hnodup' : identifiers'.Nodup} (hsame : ∀ identifier, identifier ∈ identifiers ↔
      identifier ∈ identifiers') :
    Better (mixedRun phase large identifiers hnodup)
      (mixedRun phase small identifiers' hnodup') := by
  have hrefl : ∀ x : ℚ, ValueLe (some x) (some x) := fun x => .some le_rfl
  refine ⟨rfl, rfl, rfl, rfl, rfl, rfl, ⟨rfl, hrefl _, hrefl _, hrefl _, .some le_rfl, hrefl _,
    hrefl _⟩, fun identifier => ?_⟩
  rw [lookup_mixedRun, lookup_mixedRun]
  by_cases hmem : identifier ∈ identifiers
  · rw [if_pos hmem, if_pos ((hsame identifier).mp hmem)]
    refine .some ⟨.some ?_, hrefl _, rfl, hrefl _, hrefl _, rfl, hrefl _, hrefl _⟩
    refine mul_le_mul_of_nonneg_right h ?_
    split <;> exact nearest_nonneg (by norm_num)
  · rw [if_neg hmem, if_neg (mt (hsame identifier).mpr hmem)]
    exact .none

/-- A POST run with half of the CPU requests passes, and so does one with a quarter. -/
theorem verdict_mono_quarter :
    (Doubles.compare .leftToRight (mixedRun "pre" 1 collected collected_nodup)
      (mixedRun "post" (1 / 4) collected collected_nodup) doubleCriteria).verdict = .pass := by
  have hpass : (Doubles.compare .leftToRight (mixedRun "pre" 1 collected collected_nodup)
      (mixedRun "post" (1 / 2) collected collected_nodup) doubleCriteria).verdict = .pass := by
    decide +kernel
  have hbetter : Better (mixedRun "post" (1 / 2) collected collected_nodup)
      (mixedRun "post" (1 / 4) collected collected_nodup) :=
    mixedRun_better (by norm_num) fun _ => Iff.rfl
  exact verdict_mono .leftToRight (mixedRun_nonneg zero_le_one) (mixedRun_nonneg (by norm_num))
    (mixedRun_nonneg (by norm_num)) hbetter rfl hpass

/-- The requests are those of the PRE run. Listed with the frontend last they add up to less
in doubles, and the run passes; in the order of the PRE run they do not. -/
theorem verdict_depends_on_order :
    ¬ ∀ (pre first second : Report String) (thresholds : Thresholds),
      pre.Nonneg → first.Nonneg → second.Nonneg → Better first second →
        (Doubles.compare .leftToRight pre first thresholds).verdict = .pass →
          (Doubles.compare .leftToRight pre second thresholds).verdict = .pass := by
  intro h
  have hpass : (Doubles.compare .leftToRight (mixedRun "pre" 1 collected collected_nodup)
      (mixedRun "post" 1 rotated rotated_nodup) doubleCriteria).verdict = .pass := by
    decide +kernel
  have hfail : (Doubles.compare .leftToRight (mixedRun "pre" 1 collected collected_nodup)
      (mixedRun "post" 1 collected collected_nodup) doubleCriteria).verdict = .fail := by
    decide +kernel
  have hbetter : Better (mixedRun "post" 1 rotated rotated_nodup)
      (mixedRun "post" 1 collected collected_nodup) :=
    mixedRun_better le_rfl fun _ => List.mem_rotate
  have hsecond := h _ _ _ doubleCriteria (mixedRun_nonneg zero_le_one) (mixedRun_nonneg zero_le_one)
    (mixedRun_nonneg zero_le_one) hbetter hpass
  rw [hfail] at hsecond
  cases hsecond

end LoadTest

end FinOpsPipeline
