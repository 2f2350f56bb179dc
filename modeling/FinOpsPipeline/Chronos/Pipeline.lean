import FinOpsPipeline.Chronos.Forecast
import FinOpsPipeline.Foundations.Binary64

/-!
The pipeline of `chronos_prometheus.py` (`main`) and the report of
`alarm/generate_report.py` on its result, in doubles.

* `ForecastEngine.doubleForecast`: `forecast` as the program computes it, with the
  result `PipelineResult`; `none` when it raises.
* `costLine`, `buildReport`: the line on the cost, and the report.
  `announcesSaving_lt`: when the report announces a saving.
* `PipelineResult.Consistent`: a needed scale-out does not shrink the workload.
  `legacy_consistent_iff`: when that holds in the pipeline.
-/

namespace FinOpsPipeline

namespace Chronos

open PyFloat Binary64

/-! ### The forecast in doubles -/

/-- `ForecastResult`, its numbers as doubles. -/
structure PipelineResult where
  timestamp : ℚ
  forecastStartTime : ℚ
  forecastEndTime : ℚ
  ns : String
  deployment : String
  predictedCpuUsage : PyFloat
  predictedMaxCpuPct : PyFloat
  scaleOutNeeded : Bool
  currentReplicas : ℤ
  predictedReplicas : ℤ
  sourcePoints : ℕ

namespace ForecastEngine

variable (e : ForecastEngine)

/-- The values that are read and the predicted CPU demand in cores, given what
`fetch_cpu_series` returns, if it does not raise. The product with a whole number raises
when the number is beyond the doubles. -/
def doublePredict (fetched : Option (List ℚ)) : Option (List ℚ × PyFloat) :=
  match e.settings.fakeReplicas with
  | some n =>
      match double (fin n) with
      | fin x => some ([], double (fin x * fin e.settings.capacityPerReplicaCores))
      | _ => none
  | none => do
      let values ← fetched
      let predictedCpu ← (e.model values e.settings.predictionLength).toOption
      return (values, fin predictedCpu)

/-- `scale_out_needed`. -/
def doubleNeeded (predictedCpu : PyFloat) : Bool := lt (fin e.settings.thresholdCores) predictedCpu

/-- `predicted_replicas`; the quotient may be too large for `math.ceil`. -/
def doubleReplicas (predictedCpu : PyFloat) : Option ℤ :=
  if e.preserveCurrentWhenBelowThreshold && !e.doubleNeeded predictedCpu then
    some e.currentReplicas
  else do
    let quotient ← ceilInt (double (predictedCpu / fin e.settings.capacityPerReplicaCores))
    let replicas := max e.settings.minReplicas quotient
    return if e.clampToMaxReplicas then min e.settings.maxReplicas replicas else replicas

/-- The result for the given values, predicted demand and number, at the time `now`. -/
def doubleResult (now : ℚ) (values : List ℚ) (predictedCpu : PyFloat) (replicas : ℤ) :
    PipelineResult where
  timestamp := now
  forecastStartTime := now
  forecastEndTime := now + e.settings.predictionLength * e.settings.stepSeconds
  ns := e.settings.targetNamespace
  deployment := e.settings.targetDeployment
  predictedCpuUsage := double (predictedCpu.round 1000000)
  predictedMaxCpuPct :=
    let share := double (predictedCpu / fin e.settings.capacityPerReplicaCores)
    double ((double (share * fin 100)).round 1000)
  scaleOutNeeded := e.doubleNeeded predictedCpu
  currentReplicas := e.currentReplicas
  predictedReplicas := replicas
  sourcePoints := values.length

/-- `forecast`, at the time `now` and given what `fetch_cpu_series` returns. -/
def doubleForecast (now : ℚ) (fetched : Option (List ℚ)) : Option PipelineResult := do
  let prediction ← e.doublePredict fetched
  if e.settings.capacityPerReplicaCores = 0 then none
  else
    let replicas ← e.doubleReplicas prediction.2
    return e.doubleResult now prediction.1 prediction.2 replicas

end ForecastEngine

/-! ### The report -/

/-- The line of the report on the cost. -/
inductive CostLine where
  | saving (pct : PyFloat)
  | increase (pct : PyFloat)
  | unchanged
  deriving DecidableEq

/-- The text of the line, with the texts of doubles given. -/
def CostLine.text (str : PyFloat → String) : CostLine → String
  | saving pct => "- 예상 비용 절감율: 온디맨드 대비 약 " ++ str pct ++ "% 절감 가능"
  | increase pct =>
      "- 예상 비용 증가율: 온디맨드 대비 약 " ++ str pct ++ "% 증가 예상 (스케일아웃 필요)"
  | unchanged => "- 예상 비용 변화: 없음 (현재 replica 수 유지)"

/-- The quotient of two whole numbers, which raises beyond the doubles. -/
def wholeQuotient (n d : ℤ) : Option PyFloat :=
  match double (fin (n / d)) with
  | fin x => some (fin x)
  | _ => none

/-- `round(x * 100, 1)`. -/
def percentage (x : PyFloat) : PyFloat := double ((double (x * fin 100)).round 10)

/-- `cost_line`. -/
def costLine (current predicted : ℤ) : Option CostLine :=
  if 0 < current ∧ predicted < current then
    (wholeQuotient predicted current).map fun q => .saving (percentage (double (fin 1 - q)))
  else if 0 < current ∧ current < predicted then
    (wholeQuotient predicted current).map fun q => .increase (percentage (double (q - fin 1)))
  else some .unchanged

/-- `STAGE_DESC`, with the first stage for an unknown one. -/
def stageDesc (stage : String) : String :=
  if stage = "medium" then "CPU 감소 최대 30% 제한 (중간 단계)"
  else if stage = "tight" then "CPU 감소 최대 10% 제한 (안정화 단계)"
  else "CPU 감소 최대 50% 제한 (초기 느슨한 단계)"

/-- `stage_line`. -/
def stageLine (stage : String) (elapsedDays remainingDays : Option ℤ) : String :=
  match elapsedDays with
  | none => stageDesc stage
  | some elapsed =>
      let days := String.ofList (intText elapsed)
      match remainingDays.filter (0 < ·) with
      | some remaining =>
          stageDesc stage ++ " (" ++ days ++ "일째 유지, 다음 단계까지 " ++
            String.ofList (intText remaining) ++ "일)"
      | none =>
          if stage = "tight" then stageDesc stage ++ " (" ++ days ++ "일째 유지, 최종 단계)"
          else stageDesc stage ++ " (" ++ days ++ "일째 유지)"

/-- What a report says. -/
structure Report where
  timestamp : ℚ
  stageLine : String
  currentReplicas : ℤ
  predictedReplicas : ℤ
  predictedCpuUsage : PyFloat
  scaleOutNeeded : Bool
  costLine : CostLine
  kedaStatus : String

/-- `build_report`, on a result that was written and read back. -/
def buildReport (forecast : PipelineResult) (stage : String)
    (elapsedDays remainingDays : Option ℤ) (kedaStatus : String) : Option Report := do
  let line ← costLine forecast.currentReplicas forecast.predictedReplicas
  return {
    timestamp := forecast.timestamp
    stageLine := stageLine stage elapsedDays remainingDays
    currentReplicas := forecast.currentReplicas
    predictedReplicas := forecast.predictedReplicas
    predictedCpuUsage := forecast.predictedCpuUsage
    scaleOutNeeded := forecast.scaleOutNeeded
    costLine := line
    kedaStatus := kedaStatus }

/-- The text of a report, with the texts of a time stamp and of a double given. -/
def Report.text (isoformat : ℚ → String) (str : PyFloat → String) (report : Report) : String :=
  "[일과후 막걸리 FinOps 비용 최적화 리포트]\n" ++
  "- 생성 시각: " ++ isoformat report.timestamp ++ "\n" ++
  "- 대상 인프라: AWS EKS 기반 테스트베드\n" ++
  "- 적용 정책: " ++ report.stageLine ++ " 및 OOMKill 제외 완료\n" ++
  "* Rightsizing 권장안 요약\n" ++
  "- 현재 replicas: " ++ String.ofList (intText report.currentReplicas) ++
  " → 예측(권장) replicas: " ++ String.ofList (intText report.predictedReplicas) ++ "\n" ++
  "- 예측 CPU 사용률: " ++ str report.predictedCpuUsage ++ "%\n" ++
  "- 스케일아웃 필요 여부: " ++ (if report.scaleOutNeeded then "예" else "아니오") ++ "\n" ++
  report.costLine.text str ++ "\n" ++
  "- 스케일링 상태: " ++ report.kedaStatus ++ "\n" ++
  "위 권장안을 GitOps(Argo CD) 파이프라인에 최종 승인하여 반영하시겠습니까?\n"

/-- The report announces a saving. -/
def Report.AnnouncesSaving (report : Report) : Prop := ∃ pct, report.costLine = .saving pct

section BuildReport

variable {forecast : PipelineResult} {stage : String} {elapsed remaining : Option ℤ} {keda : String}
  {report : Report}

/-- A saving is announced only when fewer replicas are predicted than there are. -/
lemma announcesSaving_lt (hreport : buildReport forecast stage elapsed remaining keda = some report)
    (hsaving : report.AnnouncesSaving) : forecast.predictedReplicas < forecast.currentReplicas := by
  simp only [buildReport, Option.bind_eq_bind, Option.bind_eq_some_iff, Option.pure_def,
    Option.some.injEq] at hreport
  obtain ⟨line, hline, rfl⟩ := hreport
  obtain ⟨pct, hpct⟩ := hsaving
  rw [costLine] at hline
  split_ifs at hline with hless hmore
  · exact hless.2
  · obtain ⟨q, -, rfl⟩ := Option.map_eq_some_iff.mp hline
    cases hpct
  · cases hline
    cases hpct

/-- The report says whether a scale-out is needed. -/
lemma scaleOutNeeded_of_buildReport
    (hreport : buildReport forecast stage elapsed remaining keda = some report) :
    report.scaleOutNeeded = forecast.scaleOutNeeded := by
  simp only [buildReport, Option.bind_eq_bind, Option.bind_eq_some_iff, Option.pure_def,
    Option.some.injEq] at hreport
  obtain ⟨line, -, rfl⟩ := hreport
  rfl

end BuildReport

/-! ### The pipeline -/

/-- A needed scale-out does not shrink the workload, nothing changes without one, and no
report announces a saving together with a needed scale-out. -/
structure PipelineResult.Consistent (result : PipelineResult) : Prop where
  grows : result.scaleOutNeeded = true → result.currentReplicas ≤ result.predictedReplicas
  keeps : result.scaleOutNeeded = false → result.predictedReplicas = result.currentReplicas
  reports : ∀ stage elapsed remaining keda report,
    buildReport result stage elapsed remaining keda = some report →
      ¬ (report.AnnouncesSaving ∧ report.scaleOutNeeded = true)

namespace ForecastEngine

variable {s : EngineSettings} {model : ForecastModel} {current : ℤ} {cpu : ℚ}

/-- The result of the pipeline is consistent when a needed scale-out does not shrink. -/
lemma consistent_of_grows {result : PipelineResult}
    (grows : result.scaleOutNeeded = true → result.currentReplicas ≤ result.predictedReplicas)
    (keeps : result.scaleOutNeeded = false → result.predictedReplicas = result.currentReplicas) :
    result.Consistent := by
  refine ⟨grows, keeps, fun stage elapsed remaining keda report hreport => ?_⟩
  rintro ⟨hsaving, hneeded⟩
  have hless := announcesSaving_lt hreport hsaving
  rw [scaleOutNeeded_of_buildReport hreport] at hneeded
  have hmore := grows hneeded
  omega

/-- A forecast with a predicted demand has a result when its number of replicas is found. -/
lemma doubleForecast_of_predict (hcap : s.capacityPerReplicaCores ≠ 0) {fetched : Option (List ℚ)}
    {values : List ℚ} {demand : PyFloat}
    (h : (legacy s model current).doublePredict fetched = some (values, demand)) (now : ℚ) :
    (legacy s model current).doubleForecast now fetched =
      ((legacy s model current).doubleReplicas demand).map
        ((legacy s model current).doubleResult now values demand) := by
  rw [doubleForecast, h]
  simp only [Option.bind_eq_bind, Option.bind_some, Option.pure_def]
  rw [if_neg (show (legacy s model current).settings.capacityPerReplicaCores ≠ 0 from hcap)]
  cases (legacy s model current).doubleReplicas demand <;> rfl

/-- Below the threshold the pipeline keeps the current number. -/
lemma doubleReplicas_legacy_of_le (h : cpu ≤ s.thresholdCores) :
    (legacy s model current).doubleReplicas (fin cpu) = some current := by
  have hneeded : (legacy s model current).doubleNeeded (fin cpu) = false := by
    simpa [doubleNeeded, legacy] using h
  rw [doubleReplicas, hneeded]
  rfl

/-- Above the threshold it returns the rounded quotient or the lower bound. -/
lemma doubleReplicas_legacy_of_lt (h : s.thresholdCores < cpu) :
    (legacy s model current).doubleReplicas (fin cpu) =
      (ceilInt (double (fin (cpu / s.capacityPerReplicaCores)))).map (max s.minReplicas) := by
  have hneeded : (legacy s model current).doubleNeeded (fin cpu) = true := by
    simpa [doubleNeeded, legacy] using h
  rw [doubleReplicas, hneeded]
  simp only [legacy, Bool.not_true, Bool.and_false, Bool.false_eq_true, if_false, fin_div]
  cases ceilInt (double (fin (cpu / s.capacityPerReplicaCores))) <;> rfl

/-- A quotient that is not negative has a rounded quotient up to the overflow. -/
lemma ceilInt_double {q : ℚ} (hq : 0 ≤ q) :
    ceilInt (double (fin q)) = if q < 2 ^ 1024 - 2 ^ 970 then some ⌈nearest q⌉ else none := by
  have hneg : ¬ nearest q ≤ -2 ^ 1024 := by
    have hnonneg := nearest_nonneg hq
    exact fun h => absurd (hnonneg.trans h) (by norm_num)
  rw [double, if_neg hneg]
  by_cases hlarge : 2 ^ 1024 ≤ nearest q
  · rw [if_pos hlarge, if_neg (not_lt.mpr (le_nearest_iff_overflow.mp hlarge))]
    rfl
  · rw [if_neg hlarge, if_pos (not_le.mp (mt le_nearest_iff_overflow.mpr hlarge))]
    rfl

/-- The rounded quotient reaches a number of replicas exactly when the quotient is beyond the
middle above the number before it. -/
lemma le_ceil_nearest_iff (hcurrent : 1 ≤ current) {q : ℚ} :
    current ≤ ⌈nearest q⌉ ↔ Beyond (current - 1) q := by
  have hpred : (0 : ℚ) ≤ current - 1 := by
    have hone : (1 : ℚ) ≤ current := by exact_mod_cast hcurrent
    linarith
  rw [← lt_nearest_iff hpred, ← Int.sub_one_lt_iff, Int.lt_ceil]
  push_cast
  exact Iff.rfl

/-- **When a needed scale-out does not shrink the workload.** The pipeline has a consistent
result exactly when the demand is not above the threshold, or its quotient by the capacity
stays below the overflow and the current number is within the lower bound or the quotient
is beyond the middle above one replica less. -/
theorem legacy_consistent_iff (s : EngineSettings) (hs : s.Valid) (model : ForecastModel)
    (current : ℤ) (hcurrent : 1 ≤ current) (now : ℚ) (fetched : Option (List ℚ))
    (values : List ℚ) (cpu : ℚ)
    (hpredict : (legacy s model current).doublePredict fetched = some (values, fin cpu)) :
    (∃ result, (legacy s model current).doubleForecast now fetched = some result ∧
        result.Consistent) ↔
      (s.thresholdCores < cpu →
        cpu / s.capacityPerReplicaCores < 2 ^ 1024 - 2 ^ 970 ∧
          (current ≤ s.minReplicas ∨
            Beyond (current - 1) (cpu / s.capacityPerReplicaCores))) := by
  rw [doubleForecast_of_predict hs.capacity_pos.ne' hpredict now]
  rcases le_or_gt cpu s.thresholdCores with hle | hlt
  · -- nothing changes below the threshold
    rw [doubleReplicas_legacy_of_le hle]
    have hneeded : (legacy s model current).doubleNeeded (fin cpu) = false := by
      simpa [doubleNeeded, legacy] using hle
    refine iff_of_true ⟨_, rfl, consistent_of_grows (fun h => ?_) fun _ => rfl⟩
      fun h => absurd h hle.not_gt
    exact absurd h (by simp [doubleResult, hneeded])
  · have hneeded : (legacy s model current).doubleNeeded (fin cpu) = true := by
      simpa [doubleNeeded, legacy] using hlt
    have hquot : 0 ≤ cpu / s.capacityPerReplicaCores :=
      (div_pos (hs.threshold_pos.trans hlt) hs.capacity_pos).le
    rw [doubleReplicas_legacy_of_lt hlt, ceilInt_double hquot]
    split_ifs with hrange
    · have hgrows : current ≤ max s.minReplicas ⌈nearest (cpu / s.capacityPerReplicaCores)⌉ ↔
          current ≤ s.minReplicas ∨ Beyond (current - 1) (cpu / s.capacityPerReplicaCores) := by
        rw [le_max_iff, le_ceil_nearest_iff hcurrent]
      constructor
      · rintro ⟨result, hresult, hconsistent⟩ -
        rw [Option.map_some, Option.map_some, Option.some.injEq] at hresult
        subst hresult
        exact ⟨hrange, hgrows.mp (hconsistent.grows hneeded)⟩
      · intro hcondition
        refine ⟨_, rfl, consistent_of_grows (fun _ => hgrows.mpr (hcondition hlt).2) fun h => ?_⟩
        exact absurd h (by simp [doubleResult, hneeded])
    · refine iff_of_false ?_ fun h => hrange (h hlt).1
      rintro ⟨result, hresult, -⟩
      cases hresult

/-- The default settings, with the threshold as a double. -/
def doubleSettings : EngineSettings :=
  { EngineSettings.sampleWorker .shadow with thresholdCores := nearest (3 / 10) }

lemma valid_doubleSettings : doubleSettings.Valid :=
  { EngineSettings.valid_sampleWorker .shadow with
    threshold_pos := by decide +kernel }

/-- A model that predicts the double `0.4`. -/
def twoFifths : ForecastModel := fun _ _ => .ok (nearest (2 / 5))

/-- With twelve values the model is asked and predicts the double `0.4`. -/
lemma doublePredict_twoFifths (current : ℤ) (values : List ℚ) :
    (legacy doubleSettings twoFifths current).doublePredict (some values) =
      some (values, fin (nearest (2 / 5))) := rfl

theorem legacy_consistent_iff_one :
    ∃ result, (legacy doubleSettings twoFifths 1).doubleForecast 0
        (some (List.replicate 12 (nearest (2 / 5)))) = some result ∧ result.Consistent :=
  (legacy_consistent_iff _ valid_doubleSettings twoFifths 1 le_rfl 0 _ _ _
    (doublePredict_twoFifths 1 _)).mpr fun _ => ⟨by decide +kernel, .inl le_rfl⟩

/-- A scale-out is needed for the double `0.4`, and from three replicas the pipeline goes to
one, which the report announces as a saving. -/
theorem scale_out_announced_as_saving :
    ∃ result, (legacy doubleSettings twoFifths 3).doubleForecast 0
        (some (List.replicate 12 (nearest (2 / 5)))) = some result ∧
      result.scaleOutNeeded = true ∧ result.currentReplicas = 3 ∧ result.predictedReplicas = 1 ∧
      (∃ report, buildReport result "loose" none none "" = some report ∧
        report.costLine = .saving (fin (nearest (667 / 10)))) ∧
      ¬ result.Consistent := by
  have h : ((legacy doubleSettings twoFifths 3).doubleForecast 0
      (some (List.replicate 12 (nearest (2 / 5))))).any (fun result =>
        decide (result.scaleOutNeeded = true) && decide (result.currentReplicas = 3) &&
          decide (result.predictedReplicas = 1) &&
          (buildReport result "loose" none none "").any fun report =>
            decide (report.costLine = .saving (fin (nearest (667 / 10))))) = true := by
    decide +kernel
  obtain ⟨result, hresult, hfacts⟩ := (Option.any_eq_true _ _).mp h
  simp only [Bool.and_eq_true, decide_eq_true_eq] at hfacts
  obtain ⟨⟨⟨hneeded, hcurrent⟩, hpredicted⟩, hany⟩ := hfacts
  obtain ⟨report, hreport, hline⟩ := (Option.any_eq_true _ _).mp hany
  refine ⟨result, hresult, hneeded, hcurrent, hpredicted,
    ⟨report, hreport, of_decide_eq_true hline⟩, fun hconsistent => ?_⟩
  have hgrows := hconsistent.grows hneeded
  omega

end ForecastEngine

end Chronos

end FinOpsPipeline
