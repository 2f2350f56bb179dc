import FinOpsPipeline.Approval.Callbacks

/-!
What the operator is told about the workflows that a callback starts.

A callback changes the text of its message several times, and the last text stays. The
rollbacks take the outcome of `trigger_github_workflow` into it; `infra_approve` does
not, and says that the workflow was started in any case. `infra_approve_all` does so in
the line of each workload, but its headline says of all of them that they were started.

* `Notice.text`: the texts.
* `Notice.reports`: the requests that a text tells about, each with its outcome;
  `Notice.headline`: how many pipelines its headline says have started.
* `Truthful`: the last text tells the outcomes of the requests that were made, and their
  number.
* `telegramCallback_truthful`: it does exactly when no request of an `infra_approve` or
  an `infra_approve_all` failed.
-/

namespace FinOpsPipeline

open Analysis

namespace Gateway

/-! ### The texts -/

/-- The text of a workload. -/
def labelText (target : Target) : String :=
  "<code>" ++ target.ns ++ "/" ++ target.deploymentName ++ "/" ++ target.containerName ++ "</code>"

/-- The values that are applied to a workload. -/
def valuesText (cpu memory : String) : String :=
  "CPU <code>" ++ cpu ++ "</code> / Memory <code>" ++ memory ++ "</code>"

/-- A line of `result_lines`. -/
def ResultLine.text (l : ResultLine) : String :=
  (if l.started then "✅ " else "❌ ") ++ labelText l.target ++ ": CPU " ++ l.cpu ++ " / Memory " ++
    l.memory

/-- `append_progress_status`. -/
def appendProgressStatus (originalText statusLine : String) : String :=
  if originalText = "" then statusLine else originalText ++ "\n\n" ++ statusLine

/-- The text of a notice, for a message with the given text. -/
def Notice.text (originalText : String) : Notice → String
  | rollingBack => "⏳ <b>[롤백 진행 중]</b> 직전 커밋 버전 롤백 파이프라인을 실행합니다..."
  | rollbackStarted =>
      "✅ <b>[롤백 요청 완료]</b> 직전 커밋 버전 롤백 파이프라인이 시작되었습니다!"
  | rollbackFailed =>
      "❌ <b>[롤백 요청 실패]</b> GitHub Actions 파이프라인을 시작하지 못했습니다."
  | rollingBackTo targetTag =>
      "⏳ <b>[지정 롤백 진행 중]</b> <code>" ++ targetTag ++ "</code> 버전 롤백 중..."
  | rollbackToStarted targetTag =>
      "✅ <b>[지정 롤백 요청 완료]</b> <code>" ++ targetTag ++
        "</code> 버전 롤백 파이프라인이 시작되었습니다!"
  | rollbackToFailed targetTag =>
      "❌ <b>[지정 롤백 요청 실패]</b> <code>" ++ targetTag ++
        "</code> 롤백 파이프라인을 시작하지 못했습니다."
  | preparing target =>
      appendProgressStatus originalText ("⏳ <b>[적용 준비 중]</b> " ++ labelText target ++
        "의 최신 권장값을 FinOps 엔진에서 조회하는 중입니다...")
  | applying target cpu memory =>
      appendProgressStatus originalText ("⏳ <b>[적용 진행 중]</b> " ++ labelText target ++ "에 " ++
        valuesText cpu memory ++ " 반영을 시작합니다...")
  | applied target cpu memory =>
      appendProgressStatus originalText ("✅ <b>[적용 요청 완료]</b> " ++ labelText target ++ "에 " ++
        valuesText cpu memory ++ " 반영 파이프라인이 시작되었습니다!")
  | rejected target =>
      appendProgressStatus originalText ("❌ <b>[거부 완료]</b> " ++ labelText target ++
        " 최적화 권장안을 거부했습니다. 현재 설정을 유지합니다.")
  | nothingToDo =>
      appendProgressStatus originalText "ℹ️ 이미 처리되었거나 대상이 없는 요청입니다."
  | applyingAll count =>
      appendProgressStatus originalText ("🔄 <b>[전체 적용 시작]</b> " ++
        String.ofList (digits count) ++ "개 워크로드를 순서대로 반영합니다...")
  | appliedAll count resultLines =>
      appendProgressStatus originalText ("✅ <b>[전체 적용 요청 완료]</b> " ++
        String.ofList (digits count) ++ "개 워크로드 반영 파이프라인이 시작됐습니다!\n\n" ++
        "\n".intercalate (resultLines.map ResultLine.text))
  | rejectedAll count =>
      appendProgressStatus originalText ("❌ <b>[전체 거절 완료]</b> " ++
        String.ofList (digits count) ++
        "개 워크로드의 최적화 권장안을 거절했습니다. 현재 설정을 유지합니다.")

/-! ### Reports and outcomes -/

/-- What happens to a request to GitHub. -/
inductive GithubReply where
  | raised
  | response (statusCode : ℕ)

/-- `trigger_github_workflow`, given the reply. -/
def triggerGithubWorkflow : GithubReply → Bool
  | .raised => false
  | .response statusCode => statusCode ∈ [200, 201, 202, 204]

/-- A request and its outcome. -/
abbrev Outcome := Dispatch × Bool

/-- What a line of a batch approval tells. -/
def ResultLine.report (l : ResultLine) : Outcome :=
  (.finopsApply l.target l.cpu l.memory, l.started)

/-- The requests that a text tells about: each with whether it was started. -/
def Notice.reports : Notice → List Outcome
  | rollbackStarted => [(.rollback, true)]
  | rollbackFailed => [(.rollback, false)]
  | rollbackToStarted targetTag => [(.rollbackCustom targetTag, true)]
  | rollbackToFailed targetTag => [(.rollbackCustom targetTag, false)]
  | applied target cpu memory => [(.finopsApply target cpu memory, true)]
  | appliedAll _ resultLines => resultLines.map ResultLine.report
  | _ => []

/-- The number of pipelines that a text says have started, besides its reports. -/
def Notice.headline : Notice → Option ℕ
  | appliedAll count _ => some count
  | _ => none

/-- The text that an operation writes. -/
def Op.notice : Op → Option Notice
  | .edited _ notice => some notice
  | .fetched _ _ | .dispatched _ _ => none

/-- The last text of a handler. -/
def lastNotice (trace : List Op) : Option Notice := (trace.filterMap Op.notice).getLast?

/-- The outcome of the request that an operation is. -/
def Op.outcome : Op → Option Outcome
  | .dispatched d ok => some (d, ok)
  | .edited _ _ | .fetched _ _ => none

/-- The outcomes of the requests to GitHub, in order. -/
def outcomes (trace : List Op) : List Outcome := trace.filterMap Op.outcome

/-- What the operator is told in the end: the requests in the last text. -/
def finalReports (trace : List Op) : List Outcome :=
  match lastNotice trace with
  | some notice => notice.reports
  | none => []

/-- The number of started pipelines in the headline of the last text. -/
def finalHeadline (trace : List Op) : Option ℕ := (lastNotice trace).bind Notice.headline

/-- The last text tells about every request, in order, whether it was started; the number
in its headline is the number of requests that were. -/
def Truthful (trace : List Op) : Prop :=
  finalReports trace = outcomes trace ∧
    ∀ count ∈ finalHeadline trace, count = (outcomes trace).countP Prod.snd

instance (trace : List Op) : Decidable (Truthful trace) := inferInstanceAs (Decidable (_ ∧ _))

/-- The operations of the handler of a callback. -/
def callbackTrace (registry : Registry) (messageId : ℤ) (callbackData : String)
    (recommendation : ℕ → Option Recommendation) (reply : ℕ → GithubReply) : List Op :=
  (telegramCallback registry messageId callbackData).1.trace recommendation
    fun i => triggerGithubWorkflow (reply i)

/-! ### The branches -/

section Branches

variable {messageId : ℤ} {recommendation : ℕ → Option Recommendation} {started : ℕ → Bool}

/-- An edit that more edits follow is not the last one. -/
lemma lastNotice_cons {op : Op} {trace : List Op} {notice : Notice}
    (h : lastNotice trace = some notice) : lastNotice (op :: trace) = some notice := by
  rw [lastNotice] at h ⊢
  cases op with
  | edited id first =>
      rw [List.filterMap_cons_some (f := Op.notice) rfl, List.getLast?_cons, h]
      rfl
  | fetched target answer => rwa [List.filterMap_cons_none (f := Op.notice) rfl]
  | dispatched d ok => rwa [List.filterMap_cons_none (f := Op.notice) rfl]

lemma no_headline {P : ℕ → Prop} : ∀ count ∈ (none : Option ℕ), P count :=
  fun count hcount => absurd hcount (Option.not_mem_none count)

/-- A rollback whose texts tell its outcomes is truthful. -/
lemma rollback_truthful {d : Dispatch} {running succeeded failed : Notice}
    (hsucceeded : succeeded.reports = [(d, true)]) (hsucceeded' : succeeded.headline = none)
    (hfailed : failed.reports = [(d, false)]) (hfailed' : failed.headline = none) :
    Truthful ((rollbackHandler messageId d running succeeded failed).trace recommendation
      started) := by
  rw [rollbackHandler, Handler.trace, Handler.trace]
  cases started 0 with
  | false =>
      exact ⟨hfailed, fun count hcount =>
        absurd (hcount.symm.trans hfailed') (Option.some_ne_none count)⟩
  | true =>
      exact ⟨hsucceeded, fun count hcount =>
        absurd (hcount.symm.trans hsucceeded') (Option.some_ne_none count)⟩

/-- An approval is truthful exactly when its request was started. -/
lemma approve_truthful {target : Target} :
    Truthful ((approveHandler messageId target).trace recommendation started) ↔
      started 0 = true := by
  have hreports : finalReports ((approveHandler messageId target).trace recommendation started) =
      [(.finopsApply target (finalValues (recommendation 0)).1 (finalValues (recommendation 0)).2,
        true)] := rfl
  have houtcomes : outcomes ((approveHandler messageId target).trace recommendation started) =
      [(.finopsApply target (finalValues (recommendation 0)).1 (finalValues (recommendation 0)).2,
        started 0)] := rfl
  have hheadline : finalHeadline
      ((approveHandler messageId target).trace recommendation started) = none := rfl
  rw [Truthful, hreports, houtcomes, hheadline, List.singleton_inj, Prod.mk.injEq]
  exact ⟨fun h => h.1.2.symm, fun h => ⟨⟨rfl, h.symm⟩, no_headline⟩⟩

/-- The loop of a batch approval ends with a text that has a line for every outcome. -/
lemma applyEntries_last (messageId : ℤ) (count : ℕ) (entries : List Target)
    (resultLines : List ResultLine) (recommendation : ℕ → Option Recommendation)
    (started : ℕ → Bool) :
    ∃ lines, lines.map ResultLine.started = (List.range entries.length).map started ∧
      lastNotice ((applyEntries messageId count entries resultLines).trace recommendation
        started) = some (.appliedAll count (resultLines ++ lines)) ∧
      outcomes ((applyEntries messageId count entries resultLines).trace recommendation
        started) = lines.map ResultLine.report := by
  induction entries generalizing resultLines recommendation started with
  | nil => exact ⟨[], rfl, by rw [List.append_nil]; rfl, rfl⟩
  | cons target entries ih =>
      let final := finalValues (recommendation 0)
      let line : ResultLine := ⟨started 0, target, final.1, final.2⟩
      obtain ⟨lines, hstarted, hlast, houtcomes⟩ := ih (resultLines ++ [line])
        (fun i => recommendation (i + 1)) fun i => started (i + 1)
      refine ⟨line :: lines, ?_, ?_, ?_⟩
      · rw [List.map_cons, hstarted, List.length_cons, List.range_succ_eq_map, List.map_cons,
          List.map_map]
        rfl
      · rw [← List.append_cons] at hlast
        exact lastNotice_cons (lastNotice_cons hlast)
      · rw [List.map_cons, ← houtcomes]
        rfl

/-- A batch approval ends with a text that has a line for every outcome, below the number
of its entries. -/
lemma approveAll_last (messageId : ℤ) {entries : List Target} (h : entries ≠ [])
    (recommendation : ℕ → Option Recommendation) (started : ℕ → Bool) :
    ∃ lines, lines.map ResultLine.started = (List.range entries.length).map started ∧
      lastNotice ((approveAllHandler messageId entries).trace recommendation started) =
        some (.appliedAll entries.length lines) ∧
      outcomes ((approveAllHandler messageId entries).trace recommendation started) =
        lines.map ResultLine.report := by
  obtain ⟨lines, hstarted, hlast, houtcomes⟩ :=
    applyEntries_last messageId entries.length entries [] recommendation started
  rw [approveAllHandler, if_neg h, Handler.trace]
  exact ⟨lines, hstarted, lastNotice_cons hlast, houtcomes⟩

/-- **A batch approval** is truthful exactly when all its requests were started: the lines
tell the outcomes, and the headline counts the failed ones too. -/
lemma approveAll_truthful (entries : List Target) :
    Truthful ((approveAllHandler messageId entries).trace recommendation started) ↔
      ∀ i < entries.length, started i = true := by
  by_cases hentries : entries = []
  · rw [approveAllHandler, if_pos hentries, hentries]
    exact iff_of_true ⟨rfl, no_headline⟩ fun i hi => absurd hi (Nat.not_lt_zero i)
  · obtain ⟨lines, hstarted, hlast, houtcomes⟩ :=
      approveAll_last messageId hentries recommendation started
    have hreports : finalReports
        ((approveAllHandler messageId entries).trace recommendation started) =
        lines.map ResultLine.report := by
      rw [finalReports, hlast]
      rfl
    have hheadline : finalHeadline
        ((approveAllHandler messageId entries).trace recommendation started) =
        some entries.length := by
      rw [finalHeadline, hlast]
      rfl
    have hcount : (lines.map ResultLine.report).countP Prod.snd =
        ((List.range entries.length).map started).countP id := by
      rw [← hstarted, List.countP_map, List.countP_map]
      rfl
    have hlength : entries.length = ((List.range entries.length).map started).length := by
      rw [List.length_map, List.length_range]
    calc Truthful ((approveAllHandler messageId entries).trace recommendation started)
        ↔ entries.length = ((List.range entries.length).map started).countP id := by
          rw [Truthful, hreports, houtcomes, hheadline, hcount]
          simp
      _ ↔ ((List.range entries.length).map started).countP id =
            ((List.range entries.length).map started).length := by
          rw [← hlength, eq_comm]
      _ ↔ ∀ i < entries.length, started i = true := by
          rw [List.countP_eq_length]
          simp

/-- A rejection of a batch is truthful. -/
lemma rejectAll_truthful (entries : List Target) :
    Truthful ((rejectAllHandler messageId entries).trace recommendation started) := by
  rw [rejectAllHandler]
  split <;> exact ⟨rfl, no_headline⟩

end Branches

/-- A rollback is not an approval. -/
lemma not_approve_of_rollback {callbackData : String}
    (h : "rollback_custom_".toList.isPrefixOf callbackData.toList = true) :
    ¬ isCommand "infra_approve" callbackData = true := by
  intro happrove
  obtain ⟨rest, hrest⟩ := List.isPrefixOf_iff_prefix.mp h
  rw [isCommand, Bool.or_eq_true, decide_eq_true_eq] at happrove
  rcases happrove with rfl | hprefix
  · cases hrest
  · obtain ⟨rest', hrest'⟩ := List.isPrefixOf_iff_prefix.mp hprefix
    cases hrest.trans hrest'.symm

/-- **What the operator is told**: the last text tells the outcome of every request
exactly when the callback is not an approval of which a request failed. -/
theorem telegramCallback_truthful (registry : Registry) (messageId : ℤ) (callbackData : String)
    (recommendation : ℕ → Option Recommendation) (reply : ℕ → GithubReply) :
    Truthful (callbackTrace registry messageId callbackData recommendation reply) ↔
      (isCommand "infra_approve" callbackData = true → triggerGithubWorkflow (reply 0) = true) ∧
        (callbackData = "infra_approve_all" →
          ∀ i < ((registry messageId).getD []).length, triggerGithubWorkflow (reply i) = true) := by
  rw [callbackTrace, telegramCallback]
  split_ifs with hhead hcustom happrove hreject hall hrejectAll
  · subst hhead
    exact iff_of_true (rollback_truthful rfl rfl rfl rfl)
      ⟨fun h => (by cases h), fun h => absurd h (by decide)⟩
  · exact iff_of_true (rollback_truthful rfl rfl rfl rfl)
      ⟨fun h => absurd h (not_approve_of_rollback hcustom),
        fun h => by subst h; cases hcustom⟩
  · refine approve_truthful.trans ⟨fun h => ⟨fun _ => h, fun hall => ?_⟩, fun h => h.1 happrove⟩
    subst hall
    cases happrove
  · exact iff_of_true ⟨rfl, no_headline⟩
      ⟨fun h => absurd h happrove, fun h => by subst h; cases hreject⟩
  · exact approveAll_truthful _ |>.trans
      ⟨fun h => ⟨fun hone => absurd hone happrove, fun _ => h⟩, fun h => h.2 hall⟩
  · exact iff_of_true (rejectAll_truthful _)
      ⟨fun h => absurd h happrove, fun h => absurd h hall⟩
  · exact iff_of_true ⟨rfl, no_headline⟩ ⟨fun h => absurd h happrove, fun h => absurd h hall⟩

/-- GitHub refuses the request of an approval, and the last text says that the workflow was
started. -/
theorem failed_approval_reported_started :
    let trace := callbackTrace (fun _ => none) 7 "infra_approve:prod:web:app" (fun _ => none)
      fun _ => .response 422
    outcomes trace = [(.finopsApply ⟨"prod", "web", "app"⟩ "298m" "100Mi", false)] ∧
      (lastNotice trace).map (Notice.text "") =
        some ("✅ <b>[적용 요청 완료]</b> <code>prod/web/app</code>에 CPU <code>298m</code> / " ++
          "Memory <code>100Mi</code> 반영 파이프라인이 시작되었습니다!") ∧
      ¬ Truthful trace := by
  decide +kernel

-- a batch of one workload: the line tells the failure, the headline the opposite
example :
    let trace := callbackTrace (fun _ => some [⟨"prod", "web", "app"⟩]) 7 "infra_approve_all"
      (fun _ => none) fun _ => .raised
    finalReports trace = [(.finopsApply ⟨"prod", "web", "app"⟩ "298m" "100Mi", false)] ∧
      finalHeadline trace = some 1 := by
  decide +kernel

end Gateway

end FinOpsPipeline
