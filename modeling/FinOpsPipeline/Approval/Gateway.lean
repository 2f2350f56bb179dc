import FinOpsPipeline.Approval.Recommendation

/-!
The Telegram gateway of `alarm/main.py`: the batch approvals that it remembers and the
handling of a callback.

A callback is handled by a program whose operations wait for other services
(`Handler`): the edit of a Telegram message, the look-up of a recommendation and the
dispatch of a GitHub workflow. A look-up that fails in any way, and a recommendation
without a value, are replaced by fixed values (`finalValues`).

* `approveHandler`, `approveAllHandler`: the programs of the approvals.
* `telegramCallback`: the program of a callback, and what it does to the registry.
* `Handler.Carries`: each dispatch of an approval carries the values of the look-up
  before it; `telegramCallback_carries` says that this holds of every callback.
-/

namespace FinOpsPipeline

open Analysis

namespace Gateway

/-! ### The operations -/

/-- A workflow that is started. -/
inductive Dispatch where
  | rollback
  | rollbackCustom (targetTag : String)
  | finopsApply (target : Target) (cpu memory : String)
  deriving DecidableEq

/-- A line of the result of a batch approval. -/
structure ResultLine where
  started : Bool
  target : Target
  cpu : String
  memory : String

/-- What a Telegram message is changed to say. -/
inductive Notice where
  | rollingBack
  | rollbackStarted
  | rollbackFailed
  | rollingBackTo (targetTag : String)
  | rollbackToStarted (targetTag : String)
  | rollbackToFailed (targetTag : String)
  | preparing (target : Target)
  | applying (target : Target) (cpu memory : String)
  | applied (target : Target) (cpu memory : String)
  | rejected (target : Target)
  | nothingToDo
  | applyingAll (count : ℕ)
  | appliedAll (count : ℕ) (resultLines : List ResultLine)
  | rejectedAll (count : ℕ)

/-- The rest of a handler: the next operation, and how it goes on with its outcome. -/
inductive Handler where
  | done
  | edit (messageId : ℤ) (notice : Notice) (next : Handler)
  | fetch (target : Target) (next : Option Recommendation → Handler)
  | dispatch (d : Dispatch) (next : Bool → Handler)

/-! ### Approvals -/

/-- The values that are applied: those of the recommendation, else fixed ones. -/
def finalValues : Option Recommendation → String × String
  | none => ("298m", "100Mi")
  | some recommendation =>
      (recommendation.finalCpu.getD "298m", recommendation.finalMemory.getD "100Mi")

/-- The branch of `infra_approve`. -/
def approveHandler (messageId : ℤ) (target : Target) : Handler :=
  .edit messageId (.preparing target)
    (.fetch target fun recommendation =>
      let final := finalValues recommendation
      .edit messageId (.applying target final.1 final.2)
        (.dispatch (.finopsApply target final.1 final.2) fun _ =>
          .edit messageId (.applied target final.1 final.2) .done))

/-- The loop of `infra_approve_all` over the remaining entries. -/
def applyEntries (messageId : ℤ) (count : ℕ) : List Target → List ResultLine → Handler
  | [], resultLines => .edit messageId (.appliedAll count resultLines) .done
  | target :: entries, resultLines =>
      .fetch target fun recommendation =>
        let final := finalValues recommendation
        .dispatch (.finopsApply target final.1 final.2) fun started =>
          applyEntries messageId count entries
            (resultLines ++ [⟨started, target, final.1, final.2⟩])

/-- The branch of `infra_approve_all`, for the entries of the message. -/
def approveAllHandler (messageId : ℤ) (entries : List Target) : Handler :=
  if entries = [] then .edit messageId .nothingToDo .done
  else .edit messageId (.applyingAll entries.length)
    (applyEntries messageId entries.length entries [])

/-- The branch of `infra_reject_all`, for the entries of the message. -/
def rejectAllHandler (messageId : ℤ) (entries : List Target) : Handler :=
  if entries = [] then .edit messageId .nothingToDo .done
  else .edit messageId (.rejectedAll entries.length) .done

/-- The branches of the rollbacks. -/
def rollbackHandler (messageId : ℤ) (d : Dispatch) (running started failed : Notice) :
    Handler :=
  .edit messageId running
    (.dispatch d fun ok => .edit messageId (if ok then started else failed) .done)

/-! ### Callbacks -/

/-- `_batch_approval_registry`: the entries of each message that offers a batch
approval. -/
abbrev Registry := ℤ → Option (List Target)

/-- A part of the callback data, or its default when it is missing or empty. -/
def partOr (parts : List (List Char)) (i : ℕ) (default : String) : String :=
  match parts[i]? with
  | some part => if part = [] then default else String.ofList part
  | none => default

/-- The workload in the data of a callback with the given command. -/
def callbackTarget (command callbackData : String) : Target :=
  let rest := (callbackData.toList.drop command.length).dropWhile (· = ':')
  let parts := if rest = [] then [] else rest.splitOn ':'
  ⟨partOr parts 0 "sample-fastapi", partOr parts 1 "sample-worker", partOr parts 2 "worker"⟩

/-- The data is the command, alone or with arguments. -/
def isCommand (command callbackData : String) : Bool :=
  callbackData = command || (command ++ ":").toList.isPrefixOf callbackData.toList

/-- `telegram_callback_webhook` for a callback: the program that handles it and the
registry that it leaves behind. -/
def telegramCallback (registry : Registry) (messageId : ℤ) (callbackData : String) :
    Handler × Registry :=
  if callbackData = "rollback_head" then
    (rollbackHandler messageId .rollback .rollingBack .rollbackStarted .rollbackFailed, registry)
  else if "rollback_custom_".toList.isPrefixOf callbackData.toList then
    let targetTag := callbackData.replace "rollback_custom_" ""
    (rollbackHandler messageId (.rollbackCustom targetTag) (.rollingBackTo targetTag)
      (.rollbackToStarted targetTag) (.rollbackToFailed targetTag), registry)
  else if isCommand "infra_approve" callbackData then
    (approveHandler messageId (callbackTarget "infra_approve" callbackData), registry)
  else if isCommand "infra_reject" callbackData then
    (.edit messageId (.rejected (callbackTarget "infra_reject" callbackData)) .done, registry)
  else if callbackData = "infra_approve_all" then
    (approveAllHandler messageId ((registry messageId).getD []),
      Function.update registry messageId none)
  else if callbackData = "infra_reject_all" then
    (rejectAllHandler messageId ((registry messageId).getD []),
      Function.update registry messageId none)
  else (.done, registry)

/-! ### Batch approvals -/

/-- A workload of a batch approval as it is received, without the line of text. -/
structure BatchWorkload where
  ns : Option String
  deploymentName : Option String
  containerName : Option String
  overallStatus : Option String

/-- The workload is one that an approval is asked for. -/
def registryEntry (w : BatchWorkload) : Option Target :=
  let ns := w.ns.getD ""
  let deploymentName := w.deploymentName.getD ""
  let containerName := w.containerName.getD ""
  if w.overallStatus.getD "PASS" = "PASS" ∧ ns ≠ "" ∧ deploymentName ≠ "" ∧ containerName ≠ "" then
    some ⟨ns, deploymentName, containerName⟩
  else none

/-- `handle_deploy_batch_approval`; `messageId` is what `send_telegram_message` returns. -/
def handleDeployBatchApproval (registry : Registry) (workloads : List BatchWorkload)
    (messageId : Option ℤ) : Registry :=
  if workloads = [] then registry
  else
    let registryEntries := workloads.filterMap registryEntry
    match messageId with
    | some messageId =>
        if registryEntries = [] then registry
        else Function.update registry messageId (some registryEntries)
    | none => registry

/-! ### The values of the dispatches -/

/-- A look-up and its answer. -/
abbrev Lookup := Target × Option Recommendation

/-- The dispatch of an approval carries the values of the last look-up, which was for
the same workload. -/
def Dispatch.CarriesFrom (d : Dispatch) (last : Option Lookup) : Prop :=
  ∀ target cpu memory, d = .finopsApply target cpu memory →
    ∃ answer, last = some (target, answer) ∧ (cpu, memory) = finalValues answer

/-- Each dispatch of the rest of a handler carries the values of the look-up before
it, whatever the outcomes of its operations are. -/
def Handler.Carries : Handler → Option Lookup → Prop
  | .done, _ => True
  | .edit _ _ next, last => next.Carries last
  | .fetch target next, _ => ∀ answer, (next answer).Carries (some (target, answer))
  | .dispatch d next, last =>
      d.CarriesFrom last ∧ ∀ started, (next started).Carries last

/-- The values of a look-up are carried by the dispatch after it. -/
lemma carriesFrom_finalValues (target : Target) (answer : Option Recommendation) :
    (Dispatch.finopsApply target (finalValues answer).1 (finalValues answer).2).CarriesFrom
      (some (target, answer)) := by
  rintro _ _ _ ⟨⟩
  exact ⟨answer, rfl, rfl⟩

lemma approveHandler_carries (messageId : ℤ) (target : Target) (last : Option Lookup) :
    (approveHandler messageId target).Carries last :=
  fun answer => ⟨carriesFrom_finalValues target answer, fun _ => trivial⟩

/-- Along the entries of a batch approval. -/
lemma applyEntries_carries (messageId : ℤ) (count : ℕ) (entries : List Target)
    (resultLines : List ResultLine) (last : Option Lookup) :
    (applyEntries messageId count entries resultLines).Carries last := by
  induction entries generalizing resultLines last with
  | nil => exact trivial
  | cons target entries ih =>
      intro answer
      exact ⟨carriesFrom_finalValues target answer, fun started => ih _ _⟩

lemma rollbackHandler_carries (messageId : ℤ) {d : Dispatch} (last : Option Lookup)
    (running started failed : Notice)
    (h : ∀ target cpu memory, d ≠ .finopsApply target cpu memory) :
    (rollbackHandler messageId d running started failed).Carries last :=
  ⟨fun target cpu memory heq => absurd heq (h target cpu memory), fun _ => trivial⟩

/-- **Every callback** dispatches approvals with the values of their look-ups only. -/
theorem telegramCallback_carries (registry : Registry) (messageId : ℤ) (callbackData : String)
    (last : Option Lookup) :
    (telegramCallback registry messageId callbackData).1.Carries last := by
  rw [telegramCallback]
  split_ifs
  · exact rollbackHandler_carries _ _ _ _ _ fun _ _ _ h => by cases h
  · exact rollbackHandler_carries _ _ _ _ _ fun _ _ _ h => by cases h
  · exact approveHandler_carries _ _ _
  · exact trivial
  · simp only [approveAllHandler]
    split_ifs
    · exact trivial
    · exact applyEntries_carries _ _ _ _ _
  · simp only [rejectAllHandler]
    split_ifs <;> exact trivial
  · exact trivial

end Gateway

end FinOpsPipeline
