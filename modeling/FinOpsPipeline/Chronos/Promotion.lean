import FinOpsPipeline.Chronos.Pipeline

/-!
The stage of the report (`resolve_stage` in `alarm/generate_report.py`), which is
promoted from run to run through the state file.

* `resolveStage`: one run, with the file before it and after it. Instants and
  durations are in microseconds, as `datetime` has them.
* `Course`: what a history of runs may look like, with the stage and the instant
  that the file holds.
* `resolveStage_saved`: one run moves the course on. `runCalls_course`: so does
  every history that starts without a file.
* `stageLine_resolveStage`: the report counts the days up to the next stage.
-/

namespace FinOpsPipeline

namespace Chronos

/-! ### One run -/

/-- `STAGE_ORDER`. -/
def stageOrder : List String := ["loose", "medium", "tight"]

/-- `LOOSE_TO_MEDIUM_DAYS` and `MEDIUM_TO_TIGHT_DAYS`. -/
structure StageSettings where
  looseToMediumDays : ℤ
  mediumToTightDays : ℤ

/-- The readings of the clock in one run, in their order: for a missing file
(`load_state`), for the elapsed time, and for a promotion. -/
structure Readings where
  loaded : ℤ
  compared : ℤ
  promoted : ℤ
  loaded_le : loaded ≤ compared
  compared_le : compared ≤ promoted

/-- What the state file holds; a key may be missing. -/
structure KrrState where
  stage : Option String
  since : Option ℤ
  deriving DecidableEq

/-- `timedelta.days`. -/
def wholeDays (duration : ℤ) : ℤ := duration / (24 * 60 * 60 * 1000000)

/-- `load_state`. -/
def loadState (file : Option KrrState) (now : ℤ) : KrrState :=
  file.getD ⟨some "loose", some now⟩

/-- `threshold`. -/
def StageSettings.threshold (settings : StageSettings) (stage : String) : Option ℤ :=
  if stage = "loose" then some settings.looseToMediumDays
  else if stage = "medium" then some settings.mediumToTightDays
  else none

/-- What a run returns, and the file that it leaves. -/
structure Resolved where
  stage : String
  elapsedDays : Option ℤ
  remaining : Option ℤ
  file : Option KrrState
  deriving DecidableEq

/-- The result of an automatic run; `remaining` counts to the threshold of the stage. -/
def StageSettings.resolved (settings : StageSettings) (stage : String) (elapsedDays : ℤ)
    (file : Option KrrState) : Resolved where
  stage := stage
  elapsedDays := some elapsedDays
  remaining := (settings.threshold stage).map (· - elapsedDays)
  file := file

/-- `resolve_stage` with `KRR_STAGE` and the state file; `none` when it raises. -/
def resolveStage (manual : Option String) (settings : StageSettings) (file : Option KrrState)
    (clock : Readings) : Option Resolved :=
  match manual.filter (· ≠ "") with
  | some stage => some ⟨stage, none, none, file⟩
  | none =>
      let state := loadState file clock.loaded
      let stage := state.stage.getD "loose"
      state.since.bind fun since =>
        let elapsedDays := wholeDays (clock.compared - since)
        if (settings.threshold stage).any (· ≤ elapsedDays) then
          stageOrder[stageOrder.idxOf stage + 1]?.map fun next =>
            settings.resolved next 0 (some ⟨some next, some clock.promoted⟩)
        else
          -- The file is only written here when there was none.
          some (settings.resolved stage elapsedDays (some (file.getD ⟨some stage, some since⟩)))

/-- The automatic runs from a file, one after the other; `none` when one raises. -/
def runCalls (settings : StageSettings) : Option KrrState → List Readings → Option (List Resolved)
  | _, [] => some []
  | file, clock :: clocks =>
      (resolveStage none settings file clock).bind fun result =>
        (runCalls settings result.file clocks).map (result :: ·)

/-! ### Histories -/

/-- One step along `STAGE_ORDER`. -/
def NextStage (stage next : String) : Prop :=
  ∃ i, stageOrder[i]? = some stage ∧ stageOrder[i + 1]? = some next

/-- The runs of a history in which the stage was reached at the instant `since`: each run
returns and saves the stage with its instant, and promotes it by at most one step, not
before the threshold of the stage has passed. -/
inductive Course (settings : StageSettings) : String → ℤ → List Readings → List Resolved → Prop
  | nil {stage : String} {since : ℤ} : Course settings stage since [] []
  | kept {stage : String} {since : ℤ} {clock : Readings} {clocks : List Readings}
      {result : Resolved} {results : List Resolved} (returned : result.stage = stage)
      (saved : result.file = some ⟨some stage, some since⟩)
      (rest : Course settings stage since clocks results) :
      Course settings stage since (clock :: clocks) (result :: results)
  | promoted {stage next : String} {since days : ℤ} {clock : Readings} {clocks : List Readings}
      {result : Resolved} {results : List Resolved} (step : NextStage stage next)
      (threshold : settings.threshold stage = some days)
      (apart : days ≤ wholeDays (clock.promoted - since)) (returned : result.stage = next)
      (saved : result.file = some ⟨some next, some clock.promoted⟩)
      (rest : Course settings next clock.promoted clocks results) :
      Course settings stage since (clock :: clocks) (result :: results)

variable {settings : StageSettings} {stage : String} {since : ℤ}

lemma wholeDays_mono {a b : ℤ} (h : a ≤ b) : wholeDays a ≤ wholeDays b :=
  Int.ediv_le_ediv (by norm_num) h

/-- A stage with a threshold is not the last one. -/
lemma exists_nextStage {days : ℤ} (h : settings.threshold stage = some days) :
    ∃ next, stageOrder[stageOrder.idxOf stage + 1]? = some next ∧ NextStage stage next := by
  rw [StageSettings.threshold] at h
  split_ifs at h with hloose hmedium
  · exact ⟨"medium", by rw [hloose]; decide, 0, by rw [hloose]; decide, by decide⟩
  · exact ⟨"tight", by rw [hmedium]; decide, 1, by rw [hmedium]; decide, by decide⟩

/-- The first run goes on as if the file had been there. -/
lemma resolveStage_missing (clock : Readings) :
    resolveStage none settings none clock =
      resolveStage none settings (some ⟨some "loose", some clock.loaded⟩) clock := rfl

/-- A run on a file that was saved. -/
lemma resolveStage_some (clock : Readings) :
    resolveStage none settings (some ⟨some stage, some since⟩) clock =
      if (settings.threshold stage).any (· ≤ wholeDays (clock.compared - since)) then
        stageOrder[stageOrder.idxOf stage + 1]?.map fun next =>
          settings.resolved next 0 (some ⟨some next, some clock.promoted⟩)
      else
        some (settings.resolved stage (wholeDays (clock.compared - since))
          (some ⟨some stage, some since⟩)) := rfl

/-- A run on a file that was saved keeps the stage, or promotes it. -/
lemma resolveStage_saved (settings : StageSettings) (stage : String) (since : ℤ)
    (clock : Readings) :
    ∃ result, resolveStage none settings (some ⟨some stage, some since⟩) clock = some result ∧
      ((result.stage = stage ∧ result.file = some ⟨some stage, some since⟩) ∨
        ∃ next days, NextStage stage next ∧ settings.threshold stage = some days ∧
          days ≤ wholeDays (clock.promoted - since) ∧ result.stage = next ∧
          result.file = some ⟨some next, some clock.promoted⟩) := by
  by_cases hdue : (settings.threshold stage).any (· ≤ wholeDays (clock.compared - since)) = true
  · obtain ⟨days, hthreshold, hdays⟩ := (Option.any_eq_true _ _).mp hdue
    obtain ⟨next, hindex, hnext⟩ := exists_nextStage hthreshold
    have hreadings : wholeDays (clock.compared - since) ≤ wholeDays (clock.promoted - since) :=
      wholeDays_mono (by have := clock.compared_le; omega)
    refine ⟨settings.resolved next 0 (some ⟨some next, some clock.promoted⟩), ?_,
      .inr ⟨next, days, hnext, hthreshold, ?_, rfl, rfl⟩⟩
    · rw [resolveStage_some, if_pos hdue, hindex, Option.map_some]
    · exact (of_decide_eq_true hdays).trans hreadings
  · refine ⟨settings.resolved stage (wholeDays (clock.compared - since))
      (some ⟨some stage, some since⟩), ?_, .inl ⟨rfl, rfl⟩⟩
    rw [resolveStage_some, if_neg hdue]

/-- From a saved file, the runs never raise and follow a course. -/
lemma runCalls_saved (settings : StageSettings) (stage : String) (since : ℤ)
    (clocks : List Readings) :
    ∃ results, runCalls settings (some ⟨some stage, some since⟩) clocks = some results ∧
      Course settings stage since clocks results := by
  induction clocks generalizing stage since with
  | nil => exact ⟨[], rfl, .nil⟩
  | cons clock clocks ih =>
      obtain ⟨result, hresult, hmove⟩ := resolveStage_saved settings stage since clock
      obtain ⟨hstage, hfile⟩ | ⟨next, days, hnext, hthreshold, hdays, hstage, hfile⟩ := hmove
      · obtain ⟨results, hrun, hcourse⟩ := ih stage since
        refine ⟨result :: results, ?_, .kept hstage hfile hcourse⟩
        rw [runCalls, hresult, Option.bind_some, hfile, hrun, Option.map_some]
      · obtain ⟨results, hrun, hcourse⟩ := ih next clock.promoted
        refine ⟨result :: results, ?_, .promoted hnext hthreshold hdays hstage hfile hcourse⟩
        rw [runCalls, hresult, Option.bind_some, hfile, hrun, Option.map_some]

/-- Along a course, the stage stays or takes one step. -/
lemma Course.isChain {clocks : List Readings} {results : List Resolved}
    (h : Course settings stage since clocks results) :
    (stage :: results.map Resolved.stage).IsChain fun a b => b = a ∨ NextStage a b := by
  induction h with
  | nil => exact .singleton _
  | kept returned saved rest ih =>
      rw [List.map_cons, returned]
      exact .cons_cons (.inl rfl) ih
  | promoted step threshold apart returned saved rest ih =>
      rw [List.map_cons, returned]
      exact .cons_cons (.inr step) ih

/-- **The stage is promoted step by step.** Every history of automatic runs that starts
without a state file goes through without an error. It is a course from the first stage,
reached at the first reading of the clock, so that the stages stay or take one step along
`STAGE_ORDER`. -/
theorem runCalls_course (settings : StageSettings) (first : Readings) (later : List Readings) :
    ∃ results, runCalls settings none (first :: later) = some results ∧
      Course settings "loose" first.loaded (first :: later) results ∧
      ("loose" :: results.map Resolved.stage).IsChain fun a b => b = a ∨ NextStage a b := by
  obtain ⟨results, hrun, hcourse⟩ := runCalls_saved settings "loose" first.loaded (first :: later)
  refine ⟨results, ?_, hcourse, hcourse.isChain⟩
  rw [runCalls, resolveStage_missing, ← runCalls]
  exact hrun

/-! ### The line of the report -/

/-- With positive thresholds a stage that is not the last one has days left. -/
lemma remaining_pos (hpos : ∀ s n, settings.threshold s = some n → 0 < n) {clock : Readings}
    {result : Resolved} {days : ℤ}
    (h : resolveStage none settings (some ⟨some stage, some since⟩) clock = some result)
    (hdays : settings.threshold result.stage = some days) :
    ∃ elapsed, result.elapsedDays = some elapsed ∧ result.remaining = some (days - elapsed) ∧
      elapsed < days := by
  rw [resolveStage_some] at h
  split_ifs at h with hdue
  · obtain ⟨next, -, rfl⟩ := Option.map_eq_some_iff.mp h
    refine ⟨0, rfl, ?_, hpos _ _ hdays⟩
    exact congrArg (Option.map (· - 0)) hdays
  · obtain rfl := (Option.some.inj h).symm
    refine ⟨_, rfl, congrArg (Option.map _) hdays, ?_⟩
    by_contra hlate
    refine hdue ((Option.any_eq_true _ _).mpr ⟨days, hdays, ?_⟩)
    exact decide_eq_true (not_lt.mp hlate)

/-- **The report counts the days** up to the next stage, until the last one is reached. -/
theorem stageLine_resolveStage (hpos : ∀ s n, settings.threshold s = some n → 0 < n)
    {clock : Readings} {result : Resolved} {days : ℤ}
    (h : resolveStage none settings (some ⟨some stage, some since⟩) clock = some result)
    (hdays : settings.threshold result.stage = some days) :
    ∃ elapsed, elapsed < days ∧
      stageLine result.stage result.elapsedDays result.remaining =
        stageDesc result.stage ++ " (" ++ String.ofList (intText elapsed) ++
          "일째 유지, 다음 단계까지 " ++ String.ofList (intText (days - elapsed)) ++ "일)" := by
  obtain ⟨elapsed, helapsed, hremaining, hlt⟩ := remaining_pos hpos h hdays
  have hleft : (some (days - elapsed)).filter (0 < ·) = some (days - elapsed) := by
    rw [Option.filter_some, if_pos (by simpa using hlt)]
  refine ⟨elapsed, hlt, ?_⟩
  rw [helapsed, hremaining, stageLine]
  simp only [hleft]

end Chronos

end FinOpsPipeline
