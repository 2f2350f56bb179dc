import FinOpsPipeline.LoadTest.Compare
import FinOpsPipeline.Foundations.Binary64

/-!
The comparison of `k6/compare_bank_krr_runs.py` in doubles.

* `Summation`: the built-in `sum` of floats, of which only the order is used.
  `Summation.leftToRight` adds one value after the other.
* `Doubles.compare`: the comparison with every result of an operation rounded to a
  double. The numbers of a report are doubles, the containers are in the order of the
  report; the parts that only compare numbers are those of `compare`.
-/

namespace FinOpsPipeline

namespace LoadTest

open PyFloat Binary64

variable {V : Type}

/-! ### Sums -/

/-- A way to add floats that are not negative: smaller ones have no larger sum. -/
structure Summation where
  sum : List ℚ → PyFloat
  mono : ∀ {xs ys : List ℚ}, (∀ x ∈ xs, 0 ≤ x) → List.Forall₂ (· ≤ ·) xs ys →
    le (sum xs) (sum ys) = true

/-- The sum so far and what is added to it keep their order. -/
lemma foldl_double_mono {xs ys : List ℚ} (hxs : ∀ x ∈ xs, 0 ≤ x)
    (h : List.Forall₂ (· ≤ ·) xs ys) {a b : PyFloat} (ha : le (fin 0) a = true)
    (hab : le a b = true) :
    le (xs.foldl (fun total x => double (total + fin x)) a)
      (ys.foldl (fun total x => double (total + fin x)) b) = true := by
  induction h generalizing a b with
  | nil => exact hab
  | @cons x y xs ys hxy _ ih =>
      obtain ⟨hx, hxs⟩ := List.forall_mem_cons.mp hxs
      have hx' : le (fin 0) (fin x) = true := by simpa using hx
      have hnonneg := double_le_double (PyFloat.add_nonneg ha hx')
      rw [double_of_isDouble isDouble_zero (by simp)] at hnonneg
      exact ih hxs hnonneg (double_le_double (add_le_add_of_nonneg ha hx' hab (by simpa using hxy)))

/-- `sum(values)` from left to right. -/
def Summation.leftToRight : Summation where
  sum xs := xs.foldl (fun total x => double (total + fin x)) (fin 0)
  mono hxs h := foldl_double_mono hxs h (by decide) (by decide)

namespace Doubles

/-! ### The parts of a comparison -/

/-- `ratio`. -/
def ratio (after before : Option ℚ) : Option PyFloat := do
  let a ← after
  let b ← before
  if b = 0 then none else some (double (double (fin a - fin b) / fin b))

/-- `reduction`. -/
def reduction (after before : Option ℚ) : Option PyFloat :=
  (ratio after before).map fun value => -value

/-- `request_capacity`. -/
def requestCapacity (run : Report V) (resourceKey : Workload → Stats) : Option PyFloat :=
  if run.items.length ≠ 11 then none
  else run.items.foldlM (fun total item => do
    let request ← (resourceKey item).avg
    let replicas ← item.replicas.avg
    return double (total + double (fin request * fin replicas))) (fin 0)

/-- The aggregates of a run. -/
structure Stability where
  oom : Option PyFloat
  restarts : Option PyFloat
  throttleAvgMax : Option ℚ
  throttleP95Max : Option ℚ

/-- The sum of the values, if none is missing. -/
def sumValues (sum : Summation) (values : List (Option ℚ)) : Option PyFloat :=
  if values.all Option.isSome then some (sum.sum (values.map fun v => v.getD 0)) else none

/-- `aggregate_stability`. -/
def aggregateStability (sum : Summation) (run : Report V) : Stability :=
  if run.items.isEmpty then ⟨none, none, none, none⟩
  else
    let limited := run.items.filter cpuLimited
    { oom := sumValues sum (run.items.map Workload.oomKilledPods)
      restarts := sumValues sum (run.items.map Workload.restartIncrease)
      throttleAvgMax := maxValues (limited.map fun item => item.cpuThrottlingRatio.avg)
      throttleP95Max := maxValues (limited.map fun item => item.cpuThrottlingRatio.p95) }

/-- The row of a container. -/
structure Row where
  cpuRequestBefore : Option ℚ
  cpuRequestAfter : Option ℚ
  cpuRequestReduction : Option PyFloat
  memoryRequestBeforeBytes : Option ℚ
  memoryRequestAfterBytes : Option ℚ
  memoryRequestReduction : Option PyFloat
  postCpuThrottlingAvg : Option ℚ
  postCpuThrottlingP95 : Option ℚ
  postOom : Option ℚ
  postRestarts : Option ℚ
  verdict : RunVerdict

/-- The row of a container in the comparison. -/
def compareRow (thresholds : Thresholds) (before after : Workload) : Row :=
  let cpuBefore := before.cpuRequestCoresPerReplica.avg
  let cpuAfter := after.cpuRequestCoresPerReplica.avg
  let memBefore := before.memoryRequestBytesPerReplica.avg
  let memAfter := after.memoryRequestBytesPerReplica.avg
  { cpuRequestBefore := cpuBefore
    cpuRequestAfter := cpuAfter
    cpuRequestReduction := reduction cpuAfter cpuBefore
    memoryRequestBeforeBytes := memBefore
    memoryRequestAfterBytes := memAfter
    memoryRequestReduction := reduction memAfter memBefore
    postCpuThrottlingAvg := after.cpuThrottlingRatio.avg
    postCpuThrottlingP95 := after.cpuThrottlingRatio.p95
    postOom := after.oomKilledPods
    postRestarts := after.restartIncrease
    verdict := verdictOf (rowStable thresholds after) }

/-- The total requests of the two runs. -/
structure ResourceCapacity where
  cpuCoresBefore : Option PyFloat
  cpuCoresAfter : Option PyFloat
  memoryBytesBefore : Option PyFloat
  memoryBytesAfter : Option PyFloat

/-- Some total is lower after than before, and all are known. -/
def ResourceCapacity.reduced (capacity : ResourceCapacity) : Bool :=
  capacity.cpuCoresBefore.any fun cpuBefore => capacity.cpuCoresAfter.any fun cpuAfter =>
    capacity.memoryBytesBefore.any fun memBefore => capacity.memoryBytesAfter.any fun memAfter =>
      lt cpuAfter cpuBefore || lt memAfter memBefore

/-- The changes of the load generator's figures. -/
structure HttpChange where
  offeredRpsChange : Option PyFloat
  p95Change : Option PyFloat
  p99Change : Option PyFloat
  successfulThroughputRatio : Option PyFloat

/-- The changes from `pre` to `post`. -/
def httpChange (pre post : Http) : HttpChange where
  offeredRpsChange := ratio post.offeredRps pre.offeredRps
  p95Change := ratio post.latencyMs.p95 pre.latencyMs.p95
  p99Change := ratio post.latencyMs.p99 pre.latencyMs.p99
  successfulThroughputRatio := do
    let before ← pre.successfulRps
    let after ← post.successfulRps
    if before = 0 then none else some (double (fin after / fin before))

/-- The total requests of the two runs. -/
def resourceCapacity (pre post : Report V) : ResourceCapacity where
  cpuCoresBefore := requestCapacity pre Workload.cpuRequestCoresPerReplica
  cpuCoresAfter := requestCapacity post Workload.cpuRequestCoresPerReplica
  memoryBytesBefore := requestCapacity pre Workload.memoryRequestBytesPerReplica
  memoryBytesAfter := requestCapacity post Workload.memoryRequestBytesPerReplica

/-! ### The comparison -/

/-- The result of a comparison. -/
structure Comparison where
  preRunId : String
  postRunId : String
  verdict : RunVerdict
  checks : Checks
  equivalenceMismatches : List String
  http : HttpChange
  resourceCapacity : ResourceCapacity
  postStability : Stability
  workloads : List (String × Row)

section Compare

variable [DecidableEq V]

/-- The checks of a comparison. -/
def compareChecks (sum : Summation) (pre post : Report V) (thresholds : Thresholds) : Checks :=
  let change := httpChange pre.http post.http
  let postStability := aggregateStability sum post
  { equivalentInputs := (LoadTest.equivalenceMismatches pre post).isEmpty
    completeMetrics := metricsComplete pre && metricsComplete post
    systemErrorRate := post.http.systemErrorRate.any fun v => v < thresholds.systemErrorRateMax
    businessFailureRate :=
      post.http.businessFailureRate.any fun v => v < thresholds.businessFailureRateMax
    offeredRps :=
      change.offeredRpsChange.any fun v => le v.abs (fin thresholds.offeredRpsDeviationMax)
    droppedIterations :=
      pre.http.droppedIterations.any (fun v => v ≤ thresholds.droppedIterationsMax) &&
        post.http.droppedIterations.any fun v => v ≤ thresholds.droppedIterationsMax
    p95Latency := change.p95Change.any fun v => le v (fin thresholds.p95RegressionMax)
    p99Latency := change.p99Change.any fun v => le v (fin thresholds.p99RegressionMax)
    successfulThroughput := change.successfulThroughputRatio.any fun v =>
      le (fin thresholds.successfulThroughputRatioMin) v
    cpuThrottlingAvg := postStability.throttleAvgMax.any fun v => v < thresholds.cpuThrottlingAvgMax
    cpuThrottlingP95 := postStability.throttleP95Max.any fun v => v < thresholds.cpuThrottlingP95Max
    oom := postStability.oom.any fun v => le v (fin thresholds.oomIncreaseMax)
    restarts := postStability.restarts.any fun v => le v (fin thresholds.restartIncreaseMax)
    resourceReduction :=
      !thresholds.requireResourceReduction || (resourceCapacity pre post).reduced }

/-- `compare`. -/
def compare (sum : Summation) (pre post : Report V) (thresholds : Thresholds) : Comparison :=
  let checks := compareChecks sum pre post thresholds
  { preRunId := pre.runId
    postRunId := post.runId
    verdict := verdictOf checks.all
    checks := checks
    equivalenceMismatches := LoadTest.equivalenceMismatches pre post
    http := httpChange pre.http post.http
    resourceCapacity := resourceCapacity pre post
    postStability := aggregateStability sum post
    workloads := (identifiers pre post).map fun identifier =>
      (identifier, compareRow thresholds (pre.workload identifier) (post.workload identifier)) }

end Compare

end Doubles

end LoadTest

end FinOpsPipeline
