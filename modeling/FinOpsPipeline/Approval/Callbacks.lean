import FinOpsPipeline.Approval.Gateway

/-!
What the handling of an update does, from its receipt to the reply.

A handler runs without another one in between: the gateway is one process and its calls
of other services block it. The trace of a handler lists its operations with their
outcomes, for any answers of the other services.

* `Handler.trace`, `Handler.dispatches`: the operations of a handler, and the requests
  to GitHub among them.
* `webhook`, `deliver`: an update of Telegram and its handling.
* `telegramCallback_registry`: which callbacks touch the registry.
-/

namespace FinOpsPipeline

open Analysis

namespace Gateway

/-! ### Traces -/

/-- An operation of a handler and its outcome. -/
inductive Op where
  | edited (messageId : ℤ) (notice : Notice)
  | fetched (target : Target) (answer : Option Recommendation)
  | dispatched (d : Dispatch) (started : Bool)

/-- The answers of the other services to a handler: to its look-ups and to its
dispatches, in order. -/
structure Answers where
  recommendation : ℕ → Option Recommendation
  started : ℕ → Bool

/-- The operations of a handler for the given answers. -/
def Handler.trace : Handler → (ℕ → Option Recommendation) → (ℕ → Bool) → List Op
  | .done, _, _ => []
  | .edit messageId notice next, recommendation, started =>
      .edited messageId notice :: next.trace recommendation started
  | .fetch target next, recommendation, started =>
      .fetched target (recommendation 0) ::
        (next (recommendation 0)).trace (fun i => recommendation (i + 1)) started
  | .dispatch d next, recommendation, started =>
      .dispatched d (started 0) ::
        (next (started 0)).trace recommendation fun i => started (i + 1)

/-- The request to GitHub that an operation is. -/
def Op.request : Op → Option Dispatch
  | .dispatched d _ => some d
  | .edited _ _ | .fetched _ _ => none

/-- The requests to GitHub in a trace, in order. -/
def requests (trace : List Op) : List Dispatch := trace.filterMap Op.request

/-- The requests to GitHub that a handler makes. -/
def Handler.dispatches (h : Handler) (answers : Answers) : List Dispatch :=
  requests (h.trace answers.recommendation answers.started)

/-- The workload that a request applies values to; a rollback has none. -/
def Dispatch.appliedTo : Dispatch → Option Target
  | .finopsApply target _ _ => some target
  | .rollback | .rollbackCustom _ => none

section Traces

variable {messageId : ℤ} {recommendation : ℕ → Option Recommendation} {started : ℕ → Bool}

@[simp] lemma requests_nil : requests [] = [] := rfl

@[simp] lemma requests_edited (notice : Notice) (trace : List Op) :
    requests (.edited messageId notice :: trace) = requests trace := rfl

@[simp] lemma requests_fetched (target : Target) (answer : Option Recommendation)
    (trace : List Op) : requests (.fetched target answer :: trace) = requests trace := rfl

@[simp] lemma requests_dispatched (d : Dispatch) (ok : Bool) (trace : List Op) :
    requests (.dispatched d ok :: trace) = d :: requests trace := rfl

/-- A rollback makes its request. -/
lemma requests_rollback (d : Dispatch) (running succeeded failed : Notice) :
    requests ((rollbackHandler messageId d running succeeded failed).trace recommendation started) =
      [d] := rfl

/-- An approval makes one request for its workload. -/
lemma requests_approve (target : Target) :
    ((requests ((approveHandler messageId target).trace recommendation started)).map
      Dispatch.appliedTo) = [some target] := rfl

/-- The loop of a batch approval makes one request for each entry, in order. -/
lemma requests_applyEntries (count : ℕ) (entries : List Target) (resultLines : List ResultLine) :
    (requests ((applyEntries messageId count entries resultLines).trace recommendation started)).map
      Dispatch.appliedTo = entries.map some := by
  induction entries generalizing recommendation started resultLines with
  | nil => rfl
  | cons target entries ih =>
      rw [applyEntries, Handler.trace, Handler.trace, requests_fetched, requests_dispatched,
        List.map_cons, ih]
      rfl

/-- A batch approval makes one request for each entry, in order. -/
lemma requests_approveAll (entries : List Target) :
    (requests ((approveAllHandler messageId entries).trace recommendation started)).map
      Dispatch.appliedTo = entries.map some := by
  rw [approveAllHandler]
  split
  · rename_i hempty
    rw [hempty]
    rfl
  · rw [Handler.trace, requests_edited]
    exact requests_applyEntries _ _ _

/-- A rejection of a batch makes no request. -/
lemma requests_rejectAll (entries : List Target) :
    requests ((rejectAllHandler messageId entries).trace recommendation started) = [] := by
  rw [rejectAllHandler]
  split <;> rfl

end Traces

/-! ### Updates -/

/-- The button that was pressed: its message and its data. -/
structure Callback where
  messageId : ℤ
  data : String

/-- An update of Telegram; without a callback it is ignored. -/
structure Update where
  updateId : ℤ
  callbackQuery : Option Callback

/-- `telegram_callback_webhook`: the handler of an update and the registry that it
leaves behind. -/
def webhook (registry : Registry) (u : Update) : Handler × Registry :=
  match u.callbackQuery with
  | some callback => telegramCallback registry callback.messageId callback.data
  | none => (.done, registry)

/-- The requests of one delivery of an update, and the registry after it. -/
def deliver (registry : Registry) (u : Update) (answers : Answers) : List Dispatch × Registry :=
  ((webhook registry u).1.dispatches answers, (webhook registry u).2)

/-! ### The branches of a callback -/

/-- The callback starts a rollback. -/
def isRollback (callbackData : String) : Bool :=
  callbackData = "rollback_head" || "rollback_custom_".toList.isPrefixOf callbackData.toList

section Branches

variable {registry : Registry} {messageId : ℤ} {callbackData : String}

/-- The callbacks of a batch. -/
lemma telegramCallback_approveAll :
    telegramCallback registry messageId "infra_approve_all" =
      (approveAllHandler messageId ((registry messageId).getD []),
        Function.update registry messageId none) := by
  rfl

lemma telegramCallback_rejectAll :
    telegramCallback registry messageId "infra_reject_all" =
      (rejectAllHandler messageId ((registry messageId).getD []),
        Function.update registry messageId none) := by
  rfl

/-- The other callbacks leave the registry as it is. -/
lemma telegramCallback_registry (happrove : callbackData ≠ "infra_approve_all")
    (hreject : callbackData ≠ "infra_reject_all") :
    (telegramCallback registry messageId callbackData).2 = registry := by
  rw [telegramCallback, if_neg happrove, if_neg hreject]
  split_ifs <;> rfl

end Branches

end Gateway

end FinOpsPipeline
