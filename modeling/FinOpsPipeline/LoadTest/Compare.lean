import Mathlib.Data.List.AList
import Mathlib.Data.List.Sort
import Mathlib.Data.Rat.Lemmas
import Mathlib.Algebra.Order.BigOperators.Group.List
import Mathlib.Tactic

/-!
The comparison of a PRE and a POST run of the Bank of Anthos load test,
`k6/compare_bank_krr_runs.py`.

* `Report`: a collected run. A number that is absent or null is `none`, as
  `.get` returns it; the fields that the equivalence gate compares keep the
  difference (`JsonField`). `V` are the JSON values other than null.
* `Thresholds`: the success criteria.
* `metricsComplete`, `aggregateStability`, `equivalenceMismatches`,
  `requestCapacity`: the parts of the comparison.
* `compare`: the comparison, with a verdict of its own for each container.

`sumValues_eq_some` and `maxValues_eq_some` describe the aggregates, and
`compare_pass` takes a passing comparison apart.
-/

namespace FinOpsPipeline

namespace LoadTest

/-! ### Reports -/

/-- A field of a JSON object. -/
inductive JsonField (V : Type) where
  | absent
  | null
  | value (v : V)

/-- `.get(key)`, which gives `None` for an absent field and for null. -/
def JsonField.get {V : Type} : JsonField V → Option V
  | .absent => none
  | .null => none
  | .value v => some v

lemma JsonField.get_eq_some {V : Type} {field : JsonField V} {v : V} :
    field.get = some v ↔ field = .value v := by
  cases field <;> simp [JsonField.get]

/-- The statistics of a metric. -/
structure Stats where
  avg : Option ℚ
  p95 : Option ℚ

/-- What was collected for a container. -/
structure Workload where
  cpuRequestCoresPerReplica : Stats
  memoryRequestBytesPerReplica : Stats
  cpuLimitCoresPerReplica : Stats
  cpuThrottlingRatio : Stats
  replicas : Stats
  oomKilledPods : Option ℚ
  restartIncrease : Option ℚ

/-- The empty object, which stands in for a container that was not collected. -/
def Workload.empty : Workload where
  cpuRequestCoresPerReplica := ⟨none, none⟩
  memoryRequestBytesPerReplica := ⟨none, none⟩
  cpuLimitCoresPerReplica := ⟨none, none⟩
  cpuThrottlingRatio := ⟨none, none⟩
  replicas := ⟨none, none⟩
  oomKilledPods := none
  restartIncrease := none

/-- The percentiles of the latency in milliseconds. -/
structure LatencyMs where
  p95 : Option ℚ
  p99 : Option ℚ

/-- The figures of the load generator. -/
structure Http where
  offeredRps : Option ℚ
  successfulRps : Option ℚ
  systemErrorRate : Option ℚ
  businessFailureRate : Option ℚ
  droppedIterations : Option ℤ
  latencyMs : LatencyMs

/-- A collected run. -/
structure Report (V : Type) where
  runId : String
  phase : String
  scenario : JsonField V
  scenarioSha256 : JsonField V
  durationSeconds : JsonField V
  applicationCommit : JsonField V
  equivalence : String → JsonField V
  http : Http
  workloads : AList fun _ : String => Workload
  collectionWarnings : List (String × String)

/-- The success criteria. -/
structure Thresholds where
  systemErrorRateMax : ℚ
  businessFailureRateMax : ℚ
  offeredRpsDeviationMax : ℚ
  droppedIterationsMax : ℚ
  p95RegressionMax : ℚ
  p99RegressionMax : ℚ
  successfulThroughputRatioMin : ℚ
  cpuThrottlingAvgMax : ℚ
  cpuThrottlingP95Max : ℚ
  oomIncreaseMax : ℚ
  restartIncreaseMax : ℚ
  requireResourceReduction : Bool

/-- `bank-krr-success-criteria.json`, the same as `DEFAULT_THRESHOLDS`. -/
def successCriteria : Thresholds where
  systemErrorRateMax := 1 / 100
  businessFailureRateMax := 1 / 100
  offeredRpsDeviationMax := 1 / 100
  droppedIterationsMax := 0
  p95RegressionMax := 10 / 100
  p99RegressionMax := 15 / 100
  successfulThroughputRatioMin := 95 / 100
  cpuThrottlingAvgMax := 5 / 100
  cpuThrottlingP95Max := 20 / 100
  oomIncreaseMax := 0
  restartIncreaseMax := 0
  requireResourceReduction := true

variable {V : Type}

namespace Report

/-- `list(run.get("workloads", {}).values())`. -/
def items (run : Report V) : List Workload := run.workloads.entries.map Sigma.snd

/-- `run.get("workloads", {}).get(identifier, {})`. -/
def workload (run : Report V) (identifier : String) : Workload :=
  (run.workloads.lookup identifier).getD Workload.empty

/-- The counters of the containers are not negative. -/
def CountersNonneg (run : Report V) : Prop :=
  ∀ item ∈ run.items, (∀ v, item.oomKilledPods = some v → 0 ≤ v) ∧
    ∀ v, item.restartIncrease = some v → 0 ≤ v

lemma workload_mem_items {run : Report V} {identifier : String}
    (h : identifier ∈ run.workloads) : run.workload identifier ∈ run.items := by
  obtain ⟨item, hitem⟩ := Option.isSome_iff_exists.mp (AList.lookup_isSome.mpr h)
  rw [workload, hitem, Option.getD_some, items]
  exact List.mem_map.mpr ⟨⟨identifier, item⟩, AList.mem_lookup_iff.mp hitem, rfl⟩

lemma workload_of_not_mem {run : Report V} {identifier : String}
    (h : identifier ∉ run.workloads) : run.workload identifier = Workload.empty := by
  rw [workload, AList.lookup_eq_none.mpr h, Option.getD_none]

lemma length_items (run : Report V) : run.items.length = run.workloads.keys.length := by
  rw [items, AList.keys, List.keys, List.length_map, List.length_map]

end Report

/-! ### The parts of a comparison -/

/-- `ratio`: the relative change, unless the value before is zero. -/
def ratio (after before : Option ℚ) : Option ℚ := do
  let a ← after
  let b ← before
  if b = 0 then none else some ((a - b) / b)

/-- `reduction`. -/
def reduction (after before : Option ℚ) : Option ℚ := (ratio after before).map fun value => -value

/-- `request_capacity`: the requests of all replicas of all containers. -/
def requestCapacity (run : Report V) (resourceKey : Workload → Stats) : Option ℚ :=
  if run.items.length ≠ 11 then none
  else run.items.foldlM (fun total item => do
    let request ← (resourceKey item).avg
    let replicas ← item.replicas.avg
    return total + request * replicas) 0

/-- `cpu_limited`: the container has a CPU limit. -/
def cpuLimited (item : Workload) : Bool := item.cpuLimitCoresPerReplica.avg.any fun limit => limit ≠ 0

/-- The metrics that a run needs of a container. -/
def itemComplete (item : Workload) : Bool :=
  item.cpuRequestCoresPerReplica.avg.isSome && item.memoryRequestBytesPerReplica.avg.isSome &&
    item.oomKilledPods.isSome && item.restartIncrease.isSome && item.replicas.avg.isSome &&
    (!cpuLimited item ||
      (item.cpuThrottlingRatio.avg.isSome && item.cpuThrottlingRatio.p95.isSome))

/-- `metrics_complete`. -/
def metricsComplete (run : Report V) : Bool :=
  decide (run.items.length = 11) && run.collectionWarnings.isEmpty && run.items.all itemComplete

/-- `EQUIVALENCE_KEYS`. -/
def equivalenceKeys : List String :=
  ["application_image", "loadgen_image", "scenario_config", "db_state_id", "autoscaling",
    "node_pool"]

section Equivalence

variable [DecidableEq V]

/-- A field that differs between the two runs. -/
def mismatch (name : String) (before after : JsonField V) : List String :=
  if before.get ≠ after.get then [name] else []

/-- `equivalence_mismatches`. -/
def equivalenceMismatches (pre post : Report V) : List String :=
  mismatch "scenario" pre.scenario post.scenario ++
    mismatch "scenario_sha256" pre.scenarioSha256 post.scenarioSha256 ++
    mismatch "duration_seconds" pre.durationSeconds post.durationSeconds ++
    mismatch "application_commit" pre.applicationCommit post.applicationCommit ++
    equivalenceKeys.flatMap fun key =>
      mismatch ("equivalence." ++ key) (pre.equivalence key) (post.equivalence key)

end Equivalence

/-- The sum of the values, if none is missing. -/
def sumValues (values : List (Option ℚ)) : Option ℚ :=
  if values.all Option.isSome then some (values.map fun v => v.getD 0).sum else none

/-- The maximum of the values, if there are any and none is missing. -/
def maxValues (values : List (Option ℚ)) : Option ℚ :=
  if values.all Option.isSome then (values.map fun v => v.getD 0).max? else none

/-- The aggregates of a run. -/
structure Stability where
  oom : Option ℚ
  restarts : Option ℚ
  throttleAvgMax : Option ℚ
  throttleP95Max : Option ℚ

/-- `aggregate_stability`; only containers with a CPU limit can be throttled. -/
def aggregateStability (run : Report V) : Stability :=
  if run.items.isEmpty then ⟨none, none, none, none⟩
  else
    let limited := run.items.filter cpuLimited
    { oom := sumValues (run.items.map Workload.oomKilledPods)
      restarts := sumValues (run.items.map Workload.restartIncrease)
      throttleAvgMax := maxValues (limited.map fun item => item.cpuThrottlingRatio.avg)
      throttleP95Max := maxValues (limited.map fun item => item.cpuThrottlingRatio.p95) }

/-! ### The comparison -/

/-- `"PASS"` or `"FAIL"`. -/
inductive RunVerdict where
  | pass | fail
  deriving DecidableEq

/-- `"PASS" if passed else "FAIL"`. -/
def verdictOf (passed : Bool) : RunVerdict := if passed then .pass else .fail

@[simp] lemma verdictOf_eq_pass (passed : Bool) : verdictOf passed = .pass ↔ passed = true := by
  cases passed <;> simp [verdictOf]

/-- The checks of a comparison. -/
structure Checks where
  equivalentInputs : Bool
  completeMetrics : Bool
  systemErrorRate : Bool
  businessFailureRate : Bool
  offeredRps : Bool
  droppedIterations : Bool
  p95Latency : Bool
  p99Latency : Bool
  successfulThroughput : Bool
  cpuThrottlingAvg : Bool
  cpuThrottlingP95 : Bool
  oom : Bool
  restarts : Bool
  resourceReduction : Bool

/-- `all(checks.values())`. -/
def Checks.all (checks : Checks) : Bool :=
  checks.equivalentInputs && checks.completeMetrics && checks.systemErrorRate &&
    checks.businessFailureRate && checks.offeredRps && checks.droppedIterations &&
    checks.p95Latency && checks.p99Latency && checks.successfulThroughput &&
    checks.cpuThrottlingAvg && checks.cpuThrottlingP95 && checks.oom && checks.restarts &&
    checks.resourceReduction

/-- The row of a container. -/
structure Row where
  cpuRequestBefore : Option ℚ
  cpuRequestAfter : Option ℚ
  cpuRequestReduction : Option ℚ
  memoryRequestBeforeBytes : Option ℚ
  memoryRequestAfterBytes : Option ℚ
  memoryRequestReduction : Option ℚ
  postCpuThrottlingAvg : Option ℚ
  postCpuThrottlingP95 : Option ℚ
  postOom : Option ℚ
  postRestarts : Option ℚ
  verdict : RunVerdict

/-- The container has no CPU limit or is throttled less than the thresholds. -/
def throttlingStable (thresholds : Thresholds) (after : Workload) : Bool :=
  !cpuLimited after ||
    (after.cpuThrottlingRatio.avg.any (fun v => v < thresholds.cpuThrottlingAvgMax) &&
      after.cpuThrottlingRatio.p95.any fun v => v < thresholds.cpuThrottlingP95Max)

/-- The verdict of a container. -/
def rowStable (thresholds : Thresholds) (after : Workload) : Bool :=
  throttlingStable thresholds after &&
    after.oomKilledPods.any (fun v => v ≤ thresholds.oomIncreaseMax) &&
    after.restartIncrease.any fun v => v ≤ thresholds.restartIncreaseMax

/-- The row of a container in the comparison. -/
def compareRow (thresholds : Thresholds) (before after : Workload) : Row :=
  let cpuBefore := before.cpuRequestCoresPerReplica.avg
  let cpuAfter := after.cpuRequestCoresPerReplica.avg
  let memBefore := before.memoryRequestBytesPerReplica.avg
  let memAfter := after.memoryRequestBytesPerReplica.avg
  { cpuRequestBefore := cpuBefore
    cpuRequestAfter := cpuAfter
    cpuRequestReduction := reduction cpuAfter cpuBefore
    memoryRequestBeforeBytes := memBefore
    memoryRequestAfterBytes := memAfter
    memoryRequestReduction := reduction memAfter memBefore
    postCpuThrottlingAvg := after.cpuThrottlingRatio.avg
    postCpuThrottlingP95 := after.cpuThrottlingRatio.p95
    postOom := after.oomKilledPods
    postRestarts := after.restartIncrease
    verdict := verdictOf (rowStable thresholds after) }

/-- The identifiers of both runs, sorted. -/
def identifiers (pre post : Report V) : List String :=
  (pre.workloads.keys ++ post.workloads.keys).dedup.insertionSort fun x y => x ≤ y

/-- The total requests of the two runs. -/
structure ResourceCapacity where
  cpuCoresBefore : Option ℚ
  cpuCoresAfter : Option ℚ
  memoryBytesBefore : Option ℚ
  memoryBytesAfter : Option ℚ

/-- Some total is lower after than before, and all are known. -/
def ResourceCapacity.reduced (capacity : ResourceCapacity) : Bool :=
  capacity.cpuCoresBefore.any fun cpuBefore => capacity.cpuCoresAfter.any fun cpuAfter =>
    capacity.memoryBytesBefore.any fun memBefore => capacity.memoryBytesAfter.any fun memAfter =>
      decide (cpuAfter < cpuBefore) || decide (memAfter < memBefore)

/-- The changes of the load generator's figures. -/
structure HttpChange where
  offeredRpsChange : Option ℚ
  p95Change : Option ℚ
  p99Change : Option ℚ
  successfulThroughputRatio : Option ℚ

/-- The result of a comparison. -/
structure Comparison where
  preRunId : String
  postRunId : String
  verdict : RunVerdict
  checks : Checks
  equivalenceMismatches : List String
  http : HttpChange
  resourceCapacity : ResourceCapacity
  postStability : Stability
  workloads : List (String × Row)

/-- The changes from `pre` to `post`. -/
def httpChange (pre post : Http) : HttpChange where
  offeredRpsChange := ratio post.offeredRps pre.offeredRps
  p95Change := ratio post.latencyMs.p95 pre.latencyMs.p95
  p99Change := ratio post.latencyMs.p99 pre.latencyMs.p99
  successfulThroughputRatio := do
    let before ← pre.successfulRps
    let after ← post.successfulRps
    if before = 0 then none else some (after / before)

/-- The total requests of the two runs. -/
def resourceCapacity (pre post : Report V) : ResourceCapacity where
  cpuCoresBefore := requestCapacity pre Workload.cpuRequestCoresPerReplica
  cpuCoresAfter := requestCapacity post Workload.cpuRequestCoresPerReplica
  memoryBytesBefore := requestCapacity pre Workload.memoryRequestBytesPerReplica
  memoryBytesAfter := requestCapacity post Workload.memoryRequestBytesPerReplica

section Compare

variable [DecidableEq V]

/-- The checks of a comparison. -/
def compareChecks (pre post : Report V) (thresholds : Thresholds) : Checks :=
  let change := httpChange pre.http post.http
  let postStability := aggregateStability post
  { equivalentInputs := (equivalenceMismatches pre post).isEmpty
    completeMetrics := metricsComplete pre && metricsComplete post
    systemErrorRate := post.http.systemErrorRate.any fun v => v < thresholds.systemErrorRateMax
    businessFailureRate :=
      post.http.businessFailureRate.any fun v => v < thresholds.businessFailureRateMax
    offeredRps := change.offeredRpsChange.any fun v => |v| ≤ thresholds.offeredRpsDeviationMax
    droppedIterations :=
      pre.http.droppedIterations.any (fun v => v ≤ thresholds.droppedIterationsMax) &&
        post.http.droppedIterations.any fun v => v ≤ thresholds.droppedIterationsMax
    p95Latency := change.p95Change.any fun v => v ≤ thresholds.p95RegressionMax
    p99Latency := change.p99Change.any fun v => v ≤ thresholds.p99RegressionMax
    successfulThroughput := change.successfulThroughputRatio.any fun v =>
      thresholds.successfulThroughputRatioMin ≤ v
    cpuThrottlingAvg := postStability.throttleAvgMax.any fun v => v < thresholds.cpuThrottlingAvgMax
    cpuThrottlingP95 := postStability.throttleP95Max.any fun v => v < thresholds.cpuThrottlingP95Max
    oom := postStability.oom.any fun v => v ≤ thresholds.oomIncreaseMax
    restarts := postStability.restarts.any fun v => v ≤ thresholds.restartIncreaseMax
    resourceReduction :=
      !thresholds.requireResourceReduction || (resourceCapacity pre post).reduced }

/-- `compare`. -/
def compare (pre post : Report V) (thresholds : Thresholds) : Comparison :=
  let checks := compareChecks pre post thresholds
  { preRunId := pre.runId
    postRunId := post.runId
    verdict := verdictOf checks.all
    checks := checks
    equivalenceMismatches := equivalenceMismatches pre post
    http := httpChange pre.http post.http
    resourceCapacity := resourceCapacity pre post
    postStability := aggregateStability post
    workloads := (identifiers pre post).map fun identifier =>
      (identifier, compareRow thresholds (pre.workload identifier) (post.workload identifier)) }

end Compare

/-! ### Aggregates -/

/-- Values of which none is missing are a list of numbers. -/
lemma map_some_of_all_isSome {values : List (Option ℚ)} (h : values.all Option.isSome = true) :
    values = (values.map fun v => v.getD 0).map some := by
  rw [List.map_map]
  refine (List.map_id' values).symm.trans (List.map_congr_left fun v hv => ?_)
  obtain ⟨x, rfl⟩ := Option.isSome_iff_exists.mp (List.all_eq_true.mp h v hv)
  rfl

/-- **The sum of the values** exists exactly when they are all numbers. -/
lemma sumValues_eq_some {values : List (Option ℚ)} {total : ℚ} :
    sumValues values = some total ↔ ∃ xs : List ℚ, values = xs.map some ∧ xs.sum = total := by
  rw [sumValues]
  constructor
  · intro h
    split at h
    · rename_i hall
      exact ⟨_, map_some_of_all_isSome hall, Option.some.inj h⟩
    · cases h
  · rintro ⟨xs, rfl, rfl⟩
    simp [Function.comp_def]

/-- **The maximum of the values** exists when they are all numbers and there are any. -/
lemma maxValues_eq_some {values : List (Option ℚ)} {largest : ℚ} :
    maxValues values = some largest ↔
      ∃ xs : List ℚ, values = xs.map some ∧ xs.max? = some largest := by
  rw [maxValues]
  constructor
  · intro h
    split at h
    · rename_i hall
      exact ⟨_, map_some_of_all_isSome hall, h⟩
    · cases h
  · rintro ⟨xs, rfl, hmax⟩
    simpa [Function.comp_def] using hmax

/-- A bound on the sum bounds each of the values that are not negative. -/
lemma le_of_sumValues_le {values : List (Option ℚ)} {bound : ℚ}
    (hnonneg : ∀ v, some v ∈ values → 0 ≤ v)
    (h : (sumValues values).any (fun total => total ≤ bound) = true) :
    ∀ v ∈ values, v.any (fun x => x ≤ bound) = true := by
  obtain ⟨total, htotal, hle⟩ := (Option.any_eq_true _ _).mp h
  obtain ⟨xs, rfl, rfl⟩ := sumValues_eq_some.mp htotal
  intro v hv
  obtain ⟨x, hx, rfl⟩ := List.mem_map.mp hv
  have hxs : ∀ y ∈ xs, 0 ≤ y := fun y hy => hnonneg y (List.mem_map.mpr ⟨y, hy, rfl⟩)
  have hsum : x ≤ xs.sum := List.single_le_sum hxs x hx
  simpa using hsum.trans (by simpa using hle)

/-- A sum of values that are not negative is at most zero exactly when they all are. -/
lemma sumValues_nonpos_iff {values : List (Option ℚ)} (hnonneg : ∀ v, some v ∈ values → 0 ≤ v) :
    (sumValues values).any (fun total => total ≤ 0) = true ↔
      ∀ v ∈ values, v.any (fun x => x ≤ 0) = true := by
  refine ⟨le_of_sumValues_le hnonneg, fun h => ?_⟩
  have hall : values.all Option.isSome = true := by
    refine List.all_eq_true.mpr fun v hv => ?_
    obtain ⟨x, rfl, -⟩ := (Option.any_eq_true _ _).mp (h v hv)
    rfl
  have hsum : ((values.map fun v => v.getD 0).sum : ℚ) ≤ 0 := by
    refine (List.sum_le_card_nsmul _ 0 fun x hx => ?_).trans (smul_zero _).le
    obtain ⟨v, hv, rfl⟩ := List.mem_map.mp hx
    obtain ⟨y, rfl, hy⟩ := (Option.any_eq_true _ _).mp (h v hv)
    simpa using hy
  rw [sumValues, if_pos hall]
  simpa using hsum

/-- The maximum is below a bound exactly when there are values and each is below it. -/
lemma maxValues_lt_iff {values : List (Option ℚ)} {bound : ℚ} :
    (maxValues values).any (fun largest => largest < bound) = true ↔
      values ≠ [] ∧ ∀ v ∈ values, v.any (fun x => x < bound) = true := by
  constructor
  · intro h
    obtain ⟨largest, hlargest, hlt⟩ := (Option.any_eq_true _ _).mp h
    obtain ⟨xs, rfl, hmax⟩ := maxValues_eq_some.mp hlargest
    have hle := (List.max?_le_iff hmax).mp le_rfl
    refine ⟨by rintro hnil; simp_all, fun v hv => ?_⟩
    obtain ⟨x, hx, rfl⟩ := List.mem_map.mp hv
    simpa using (hle x hx).trans_lt (by simpa using hlt)
  · rintro ⟨hne, hall⟩
    have hsome : values.all Option.isSome = true := by
      refine List.all_eq_true.mpr fun v hv => ?_
      obtain ⟨x, rfl, -⟩ := (Option.any_eq_true _ _).mp (hall v hv)
      rfl
    have heq := map_some_of_all_isSome hsome
    obtain ⟨largest, hmax⟩ := Option.isSome_iff_exists.mp
      (List.isSome_max?_of_ne_nil (l := values.map fun v => v.getD 0) (by simpa using hne))
    rw [maxValues_eq_some.mpr ⟨_, heq, hmax⟩]
    rw [heq] at hall
    simpa using hall _ (List.mem_map.mpr ⟨largest, List.max?_mem hmax, rfl⟩)

/-! ### What a passing comparison says -/

/-- The aggregates of a run with containers. -/
lemma aggregateStability_of_length {run : Report V} (h : run.items.length = 11) :
    aggregateStability run =
      { oom := sumValues (run.items.map Workload.oomKilledPods)
        restarts := sumValues (run.items.map Workload.restartIncrease)
        throttleAvgMax :=
          maxValues ((run.items.filter cpuLimited).map fun item => item.cpuThrottlingRatio.avg)
        throttleP95Max :=
          maxValues ((run.items.filter cpuLimited).map fun item =>
            item.cpuThrottlingRatio.p95) } := by
  have hne : run.items.isEmpty = false := by
    cases hitems : run.items with
    | nil => simp [hitems] at h
    | cons item rest => rfl
  rw [aggregateStability, hne]
  rfl

lemma length_of_metricsComplete {run : Report V} (h : metricsComplete run = true) :
    run.items.length = 11 := by
  simp only [metricsComplete, Bool.and_eq_true, decide_eq_true_eq] at h
  exact h.1.1

lemma Checks.all_eq_true {checks : Checks} (h : checks.all = true) :
    checks.equivalentInputs = true ∧ checks.completeMetrics = true ∧
      checks.cpuThrottlingAvg = true ∧ checks.cpuThrottlingP95 = true ∧ checks.oom = true ∧
      checks.restarts = true := by
  simp only [Checks.all, Bool.and_eq_true] at h
  grind

section Pass

variable [DecidableEq V] {pre post : Report V} {thresholds : Thresholds}

/-- **A passing comparison** of complete runs with equal inputs has its aggregates
within the thresholds. -/
lemma compare_pass (h : (compare pre post thresholds).verdict = .pass) :
    equivalenceMismatches pre post = [] ∧
      metricsComplete pre = true ∧ metricsComplete post = true ∧
      (aggregateStability post).throttleAvgMax.any
        (fun v => v < thresholds.cpuThrottlingAvgMax) = true ∧
      (aggregateStability post).throttleP95Max.any
        (fun v => v < thresholds.cpuThrottlingP95Max) = true ∧
      (aggregateStability post).oom.any (fun v => v ≤ thresholds.oomIncreaseMax) = true ∧
      (aggregateStability post).restarts.any
        (fun v => v ≤ thresholds.restartIncreaseMax) = true := by
  obtain ⟨hinputs, hmetrics, havg, hp95, hoom, hrestarts⟩ :=
    Checks.all_eq_true ((verdictOf_eq_pass _).mp h)
  obtain ⟨hpre, hpost⟩ := Bool.and_eq_true_iff.mp hmetrics
  exact ⟨List.isEmpty_iff.mp hinputs, hpre, hpost, havg, hp95, hoom, hrestarts⟩

end Pass

end LoadTest

end FinOpsPipeline
