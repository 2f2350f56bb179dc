import FinOpsPipeline.Engine.Policy

/-!
`PrometheusClient` of `finops/app/clients.py`.

* `PromQuery.text`: the queries, with the pod selector of `podRegex`.
* `queryPrometheus`: the value of a reply. Every failure of a query (`PromReply.Failed`)
  gives `none`, and so does an empty result (`queryPrometheus_of_failed`).
* `getCurrentResourceSpec`: the deployed requests as strings;
  `parse_getCurrentResourceSpec` reads them back.
* `getWorkloadMetrics`: the OOM kills, the restarts and the load. It gives `none`
  only when the number of restarts is not a finite number.
-/

namespace FinOpsPipeline

open PyFloat
open scoped PyText

namespace PrometheusClient

/-! ### The queries -/

/-- The characters before which `re.escape` puts a backslash. -/
def specialChars : List Char := "()[]\x7b\x7d?*+-|^$\\.&~# \t\n\r\x0b\x0c".toList

/-- `re.escape`. -/
def reEscape (s : List Char) : List Char :=
  s.flatMap fun c => if c ∈ specialChars then ['\\', c] else [c]

/-- `_pod_regex`. -/
def podRegex (deploymentName : String) : String :=
  "^" ++ String.ofList (reEscape deploymentName.toList) ++ "-[a-z0-9]+-[a-z0-9]+$"

/-- The selector of the pods, with the regular expression between double quotes. -/
def podSelector (deploymentName : String) : String :=
  "pod=~\"" ++ podRegex deploymentName ++ "\""

/-- `container_filter`. -/
def containerFilter (containerName : Option String) : String :=
  match containerName.filter (· ≠ "") with
  | some name => ", container=\"" ++ name ++ "\""
  | none => ""

/-- `usage_filter`. -/
def usageFilter (containerName : Option String) : String :=
  if containerFilter containerName = "" then ", container!=\"\", container!=\"POD\""
  else containerFilter containerName

/-- The queries of `get_current_resource_spec` and `get_workload_metrics`. -/
inductive PromQuery where
  | cpuRequest | memoryRequest | oomKilled | restarts | cpuUsage | throttling
  deriving DecidableEq

/-- The matcher of the namespace and the pods. -/
def workloadSelector (deploymentName ns : String) : String :=
  "namespace=\"" ++ ns ++ "\", " ++ podSelector deploymentName

/-- The requests of a workload for a resource. -/
def requestsQuery (resource deploymentName ns : String) (containerName : Option String) : String :=
  "kube_pod_container_resource_requests\x7bresource=\"" ++ resource ++ "\", " ++
    workloadSelector deploymentName ns ++ containerFilter containerName ++ "\x7d"

/-- The text of a query. -/
def PromQuery.text (deploymentName ns : String) (containerName : Option String) :
    PromQuery → String
  | cpuRequest => "avg(" ++ requestsQuery "cpu" deploymentName ns containerName ++ ")"
  | memoryRequest => "avg(" ++ requestsQuery "memory" deploymentName ns containerName ++ ")"
  | oomKilled =>
      "sum(increase(kube_pod_container_status_terminated_reason\x7b" ++
        workloadSelector deploymentName ns ++ containerFilter containerName ++
        ", reason=\"OOMKilled\"\x7d[24h]))"
  | restarts =>
      "sum(kube_pod_container_status_restarts_total\x7b" ++
        workloadSelector deploymentName ns ++ containerFilter containerName ++ "\x7d)"
  | cpuUsage =>
      "sum(rate(container_cpu_usage_seconds_total\x7b" ++ workloadSelector deploymentName ns ++
        usageFilter containerName ++ "\x7d[5m])) / sum(" ++
        requestsQuery "cpu" deploymentName ns containerName ++ ") * 100"
  | throttling =>
      "sum(increase(container_cpu_cfs_throttled_periods_total\x7b" ++
        workloadSelector deploymentName ns ++ ", container!=\"\"\x7d[24h]))"

/-! ### The replies -/

/-- The body of a reply: one that cannot be decoded as JSON or lacks the shape
of a result, or the values of the series, each a text; a series without a
`value` field is read as `"0"`. -/
inductive PromBody where
  | malformed
  | result (values : List (Option String))

/-- What happens to a request: it raises (no connection, a timeout), or it is
answered with a status code and a body. -/
inductive PromReply where
  | raised
  | response (statusCode : ℕ) (body : PromBody)

/-- `_query_prometheus`, given the reply to the query. -/
def queryPrometheus : PromReply → Option PyFloat
  | .raised => none
  | .response statusCode body =>
      if statusCode = 200 then
        match body with
        | .malformed => none
        | .result [] => none
        | .result (val :: _) => readFloat (val.getD "0").toList
      else none

/-- The query failed: there is no answer, one with another status than 200, or
one whose body cannot be read. -/
def PromReply.Failed : PromReply → Prop
  | .raised => True
  | .response statusCode body =>
      statusCode ≠ 200 ∨
        match body with
        | .malformed => True
        | .result [] => False
        | .result (val :: _) => readFloat (val.getD "0").toList = none

instance (reply : PromReply) : Decidable reply.Failed := by
  cases reply with
  | raised => exact isTrue trivial
  | response statusCode body =>
      cases body with
      | malformed => exact isTrue (.inr trivial)
      | result values =>
          cases values with
          | nil => exact inferInstanceAs (Decidable (statusCode ≠ 200 ∨ False))
          | cons val rest => exact inferInstanceAs (Decidable (statusCode ≠ 200 ∨ _ = none))

/-- **A failed query looks like an empty result.** -/
lemma queryPrometheus_of_failed {reply : PromReply} (h : reply.Failed) :
    queryPrometheus reply = none := by
  cases reply with
  | raised => rfl
  | response statusCode body =>
      by_cases hstatus : statusCode = 200
      · have hbody := h.resolve_left (not_not.mpr hstatus)
        cases body with
        | malformed => simp [queryPrometheus]
        | result values =>
            cases values with
            | nil => exact absurd hbody id
            | cons val rest => simpa [queryPrometheus] using fun _ => hbody
      · simp [queryPrometheus, hstatus]

/-! ### The current requests -/

/-- The CPU request as a string. -/
def currentCpuStr (cpuVal : PyFloat) : Option String :=
  if lt cpuVal (fin 1) then
    (roundInt (cpuVal * fin 1000)).map fun z => String.ofList (intText z ++ ['m'])
  else some (String.ofList (roundedText cpuVal))

/-- The memory request as a string. -/
def currentMemStr (memVal : PyFloat) : Option String :=
  let memMib := memVal / fin (1024 * 1024)
  if le (fin 1024) memMib then
    some (String.ofList (roundedText (memMib / fin 1024) ++ ['G', 'i']))
  else (roundInt memMib).map fun z => String.ofList (intText z ++ ['M', 'i'])

/-- `get_current_resource_spec`, given the replies to its queries. -/
def getCurrentResourceSpec (answer : PromQuery → PromReply) : Option ResourceSpec := do
  let cpuVal ← queryPrometheus (answer .cpuRequest)
  let memVal ← queryPrometheus (answer .memoryRequest)
  let cpu ← currentCpuStr cpuVal
  let memory ← currentMemStr memVal
  return ⟨cpu, memory⟩

/-- The number of MiB that the memory string of a request denotes. -/
def currentMemGrid (q : ℚ) : ℚ := if q < 1024 then memoryGrid q else roundTo 100 (q / 1024) * 1024

/-- The CPU string is the one `format_cpu` writes. -/
lemma parse_currentCpuStr (q : ℚ) :
    ∃ s, currentCpuStr (fin q) = some s ∧ parseCpu s = fin (cpuGrid q) :=
  parseCpu_formatCpu q

/-- The memory string of a request of `q` MiB is read back on its own grid. -/
lemma parse_currentMemStr {q : ℚ} (hq : 0 ≤ q) :
    ∃ s, currentMemStr (fin (q * (1024 * 1024))) = some s ∧
      parseMemory s = fin (currentMemGrid q) := by
  have hmib : fin (q * (1024 * 1024)) / fin (1024 * 1024) = fin q := by
    rw [fin_div, mul_div_cancel_right₀ _ (by norm_num)]
  by_cases h : q < 1024
  · refine ⟨String.ofList (intText (roundHalfEven q) ++ ['M', 'i']), ?_, ?_⟩
    · simp only [currentMemStr, hmib, le_fin]
      rw [if_neg (by simpa using h)]
      rfl
    · rw [parseMemory_intText (roundHalfEven_nonneg hq) (by decide), currentMemGrid, if_pos h]
      rfl
  · obtain ⟨n, hn, htext, hvalue⟩ := roundedText_fin (q := q / 1024) (by positivity)
    refine ⟨String.ofList (roundedText (fin (q / 1024)) ++ ['G', 'i']), ?_, ?_⟩
    · simp only [currentMemStr, hmib, le_fin]
      rw [if_pos (by simpa using h)]
      rfl
    · rw [htext, parseMemory_unit hn (by decide), hvalue, currentMemGrid, if_neg h]
      rfl

/-- **The deployed requests are read back on the grids of their strings.** -/
theorem parse_getCurrentResourceSpec {answer : PromQuery → PromReply} {c m : ℚ} (hm : 0 ≤ m)
    (hcpu : queryPrometheus (answer .cpuRequest) = some (fin c))
    (hmem : queryPrometheus (answer .memoryRequest) = some (fin (m * (1024 * 1024)))) :
    ∃ spec, getCurrentResourceSpec answer = some spec ∧ parseCpu spec.cpu = fin (cpuGrid c) ∧
      parseMemory spec.memory = fin (currentMemGrid m) := by
  obtain ⟨cpu, hcpuStr, hcpuParse⟩ := parse_currentCpuStr c
  obtain ⟨memory, hmemStr, hmemParse⟩ := parse_currentMemStr hm
  refine ⟨⟨cpu, memory⟩, ?_, hcpuParse, hmemParse⟩
  simp [getCurrentResourceSpec, hcpu, hmem, hcpuStr, hmemStr]

/-! ### The metrics of a workload -/

/-- The dictionary that `get_workload_metrics` returns. -/
structure WorkloadMetrics where
  oomKilled : Bool
  restartCount : ℤ
  avgCpuUsagePct : Option PyFloat
  throttled : Bool

/-- The number of restarts, zero without an answer. -/
def restartCountOf : Option PyFloat → Option ℤ
  | some restartRes => truncInt restartRes
  | none => some 0

/-- `get_workload_metrics`, given the replies to its queries; `none` when
`int(restart_res)` raises. -/
def getWorkloadMetrics (answer : PromQuery → PromReply) : Option WorkloadMetrics := do
  let oomRes := queryPrometheus (answer .oomKilled)
  let restartCount ← restartCountOf (queryPrometheus (answer .restarts))
  let cpuRes := queryPrometheus (answer .cpuUsage)
  let throttleRes := queryPrometheus (answer .throttling)
  return {
    oomKilled := oomRes.any fun x => lt (fin 0) x
    restartCount := restartCount
    avgCpuUsagePct := cpuRes.map (PyFloat.round 100)
    throttled := throttleRes.any fun x => lt (fin 0) x }

end PrometheusClient

end FinOpsPipeline
