import FinOpsPipeline.Approval.Callbacks
import FinOpsPipeline.Foundations.TransitionSystem

/-!
The history of the batch approvals of a gateway.

A batch is remembered when its message was sent, under the id of the message, and is
taken out by the first callback for this message. A callback takes effect when it finds
a batch.

* `History`, `History.step`: the payloads and the callbacks that one gateway handles.
* `History.Inv`: a remembered batch is the one of its message, which no callback has
  taken effect for; the callbacks that took effect did what their batch says.
* `batch_decided_once`: at most one callback takes effect for a message, and an approval
  makes the requests for the workloads that passed, in order.
-/

namespace FinOpsPipeline

open Analysis

namespace Gateway

/-! ### The history -/

/-- A callback that was handled and the operations of its handler. -/
structure Handled where
  messageId : ℤ
  data : String
  trace : List Op

/-- The operation tells the operator that nothing is left to decide. -/
def Op.isNothingToDo : Op → Bool
  | .edited _ .nothingToDo => true
  | _ => false

/-- The callback decides a batch. -/
def isBatch (callbackData : String) : Bool :=
  callbackData = "infra_approve_all" || callbackData = "infra_reject_all"

/-- The callback decided its batch. -/
def Handled.effective (h : Handled) : Bool := isBatch h.data && !h.trace.any Op.isNothingToDo

/-- The registry of the gateway, and a record of the run: the messages that were sent,
each with its payload, and the callbacks that were handled. -/
structure History where
  registry : Registry
  sent : List (ℤ × List BatchWorkload)
  handled : List Handled

/-- The requests that a gateway handles: a payload, with the id of its message if it was
sent, and a callback, with the answers of the other services to its handler. -/
inductive Request where
  | batchApproval (workloads : List BatchWorkload) (messageId : Option ℤ)
  | callback (messageId : ℤ) (data : String) (answers : Answers)

/-- The messages after a payload: without workloads none is sent. -/
def History.send (sent : List (ℤ × List BatchWorkload)) (workloads : List BatchWorkload) :
    Option ℤ → List (ℤ × List BatchWorkload)
  | some messageId => if workloads = [] then sent else (messageId, workloads) :: sent
  | none => sent

/-- One request. The id of a new message is the id of no other. -/
def History.step (s : History) : Request → Option History
  | .batchApproval workloads messageId =>
      if ∀ id ∈ messageId, id ∉ s.sent.map Prod.fst then
        some { s with
          registry := handleDeployBatchApproval s.registry workloads messageId
          sent := History.send s.sent workloads messageId }
      else none
  | .callback messageId data answers =>
      some { s with
        registry := (telegramCallback s.registry messageId data).2
        handled := ⟨messageId, data, (telegramCallback s.registry messageId data).1.trace
          answers.recommendation answers.started⟩ :: s.handled }

/-- A gateway that has just been started. -/
def history : System History Request where
  init s := s = ⟨fun _ => none, [], []⟩
  step := History.step

/-! ### What the batch of a message is -/

/-- The workload passed and has all its names; a status that is left out counts as passed. -/
def BatchWorkload.Approvable (w : BatchWorkload) : Prop :=
  w.overallStatus.getD "PASS" = "PASS" ∧ w.ns.getD "" ≠ "" ∧ w.deploymentName.getD "" ≠ "" ∧
    w.containerName.getD "" ≠ ""

instance : DecidablePred BatchWorkload.Approvable := fun _ =>
  inferInstanceAs (Decidable (_ ∧ _ ∧ _ ∧ _))

/-- The workload by its names. -/
def BatchWorkload.target (w : BatchWorkload) : Target :=
  ⟨w.ns.getD "", w.deploymentName.getD "", w.containerName.getD ""⟩

/-- The batch of a payload: its approvable workloads, in order. -/
def batchOf (workloads : List BatchWorkload) : List Target :=
  (workloads.filter fun w => w.Approvable).map BatchWorkload.target

/-- What is remembered of a payload is its batch. -/
lemma filterMap_registryEntry (workloads : List BatchWorkload) :
    workloads.filterMap registryEntry = batchOf workloads := by
  induction workloads with
  | nil => rfl
  | cons w workloads ih =>
      by_cases hw : w.Approvable
      · have hentry : registryEntry w = some w.target := if_pos hw
        rw [List.filterMap_cons_some hentry, ih, batchOf, batchOf, List.filter_cons,
          if_pos (decide_eq_true hw), List.map_cons]
      · have hentry : registryEntry w = none := if_neg hw
        rw [List.filterMap_cons_none hentry, ih, batchOf, batchOf, List.filter_cons,
          if_neg (by simpa using hw)]

/-! ### What one callback does -/

section Callback

variable {registry : Registry} {messageId : ℤ} {data : String} {answers : Answers}
  {recommendation : ℕ → Option Recommendation} {started : ℕ → Bool}

/-- The record of a callback. -/
def handledBy (registry : Registry) (messageId : ℤ) (data : String) (answers : Answers) : Handled :=
  ⟨messageId, data, (telegramCallback registry messageId data).1.trace answers.recommendation
    answers.started⟩

/-- The loop of a batch approval does not say that nothing is left to decide. -/
lemma applyEntries_decides (count : ℕ) (entries : List Target) (resultLines : List ResultLine) :
    ((applyEntries messageId count entries resultLines).trace recommendation started).any
      Op.isNothingToDo = false := by
  induction entries generalizing recommendation started resultLines with
  | nil => rfl
  | cons target entries ih => exact ih _

lemma approveAll_decides (entries : List Target) :
    ((approveAllHandler messageId entries).trace recommendation started).any Op.isNothingToDo =
      decide (entries = []) := by
  rw [approveAllHandler]
  split
  · rename_i hempty
    rw [decide_eq_true hempty]
    rfl
  · rename_i hentries
    rw [decide_eq_false hentries]
    exact applyEntries_decides _ _ _

lemma rejectAll_decides (entries : List Target) :
    ((rejectAllHandler messageId entries).trace recommendation started).any Op.isNothingToDo =
      decide (entries = []) := by
  rw [rejectAllHandler]
  split
  · rename_i hempty
    rw [decide_eq_true hempty]
    rfl
  · rename_i hentries
    rw [decide_eq_false hentries]
    rfl

lemma isBatch_iff :
    isBatch data = true ↔ data = "infra_approve_all" ∨ data = "infra_reject_all" := by
  rw [isBatch, Bool.or_eq_true, decide_eq_true_eq, decide_eq_true_eq]

/-- **A callback takes effect** exactly when it is for a batch and finds one. -/
lemma effective_handledBy :
    (handledBy registry messageId data answers).effective =
      (isBatch data && decide ((registry messageId).getD [] ≠ [])) := by
  cases hbatch : isBatch data with
  | false =>
      rw [Handled.effective, handledBy, hbatch]
      rfl
  | true =>
      rw [Handled.effective, handledBy, hbatch, Bool.true_and, Bool.true_and, decide_not]
      obtain rfl | rfl := isBatch_iff.mp hbatch
      · rw [telegramCallback_approveAll, approveAll_decides]
      · rw [telegramCallback_rejectAll, rejectAll_decides]

/-- The requests of an approval of a batch are for its entries. -/
lemma requests_approved :
    (requests (handledBy registry messageId "infra_approve_all" answers).trace).map
      Dispatch.appliedTo = ((registry messageId).getD []).map some := by
  rw [handledBy, telegramCallback_approveAll]
  exact requests_approveAll _

/-- A rejection makes no request. -/
lemma requests_rejected :
    requests (handledBy registry messageId "infra_reject_all" answers).trace = [] := by
  rw [handledBy, telegramCallback_rejectAll]
  exact requests_rejectAll _

/-- A callback for a batch that takes no effect makes no request. -/
lemma requests_ineffective (hbatch : isBatch data = true)
    (h : (handledBy registry messageId data answers).effective = false) :
    requests (handledBy registry messageId data answers).trace = [] := by
  rw [effective_handledBy, hbatch, Bool.true_and, decide_eq_false_iff_not, not_not] at h
  obtain rfl | rfl := isBatch_iff.mp hbatch
  · rw [← List.map_eq_nil_iff (f := Dispatch.appliedTo), requests_approved, h, List.map_nil]
  · exact requests_rejected

/-- A callback for a batch takes it out, and no other callback touches the registry. -/
lemma registry_after :
    (telegramCallback registry messageId data).2 =
      if isBatch data then Function.update registry messageId none else registry := by
  cases hbatch : isBatch data with
  | false =>
      rw [isBatch, Bool.or_eq_false_iff, decide_eq_false_iff_not, decide_eq_false_iff_not] at hbatch
      exact telegramCallback_registry hbatch.1 hbatch.2
  | true =>
      obtain rfl | rfl := isBatch_iff.mp hbatch
      · rw [telegramCallback_approveAll]
        rfl
      · rw [telegramCallback_rejectAll]
        rfl

/-- A callback that takes effect is for a batch and finds one. -/
lemma entries_of_effective (h : (handledBy registry messageId data answers).effective = true) :
    isBatch data = true ∧ ∃ entries, registry messageId = some entries := by
  rw [effective_handledBy, Bool.and_eq_true, decide_eq_true_eq] at h
  refine ⟨h.1, ?_⟩
  cases hentries : registry messageId with
  | none => exact absurd (by rw [hentries]; rfl) h.2
  | some entries => exact ⟨entries, rfl⟩

/-- What is remembered after a callback was remembered before it, and is not for its message
when it is for a batch. -/
lemma registry_of_after {id : ℤ} {entries : List Target}
    (h : (telegramCallback registry messageId data).2 id = some entries) :
    registry id = some entries ∧ (isBatch data = true → messageId ≠ id) := by
  rw [registry_after] at h
  split at h
  · by_cases hid : id = messageId
    · rw [hid, Function.update_self] at h
      cases h
    · rw [Function.update_of_ne hid] at h
      exact ⟨h, fun _ => Ne.symm hid⟩
  · rename_i hother
    exact ⟨h, fun hdata => absurd hdata hother⟩

end Callback

/-! ### What one payload does -/

section Payload

variable {registry : Registry} {sent : List (ℤ × List BatchWorkload)}
  {workloads payload : List BatchWorkload} {messageId : Option ℤ} {id : ℤ} {entries : List Target}

/-- What is remembered after a payload was remembered before it, or is the batch of its
message. -/
lemma registry_of_batchApproval
    (h : handleDeployBatchApproval registry workloads messageId id = some entries) :
    registry id = some entries ∨
      messageId = some id ∧ workloads ≠ [] ∧ entries = batchOf workloads := by
  rw [handleDeployBatchApproval] at h
  split at h
  · exact .inl h
  · rename_i hworkloads
    cases messageId with
    | none => exact .inl h
    | some newId =>
        simp only [filterMap_registryEntry] at h
        split at h
        · exact .inl h
        · by_cases hid : id = newId
          · rw [hid, Function.update_self] at h
            exact .inr ⟨congrArg some hid.symm, hworkloads, (Option.some.inj h).symm⟩
          · rw [Function.update_of_ne hid] at h
            exact .inl h

/-- The messages after a payload are those before it and its own. -/
lemma mem_send : (id, payload) ∈ History.send sent workloads messageId ↔
    (id, payload) ∈ sent ∨ messageId = some id ∧ workloads ≠ [] ∧ payload = workloads := by
  cases messageId with
  | none => simp [History.send]
  | some newId =>
      rw [History.send]
      split
      · simp [*]
      · simp [*, or_comm, eq_comm]

end Payload

/-! ### The invariant -/

namespace History

/-- How many callbacks took effect for a message. -/
def decided (s : History) (id : ℤ) : ℕ :=
  s.handled.countP fun h => decide (h.messageId = id) && h.effective

/-- The callback did what the batch of its message says. -/
def Outcome (s : History) (h : Handled) : Prop :=
  ∃ workloads, (h.messageId, workloads) ∈ s.sent ∧
    (h.data = "infra_approve_all" →
      (requests h.trace).map Dispatch.appliedTo = (batchOf workloads).map some) ∧
    (h.data = "infra_reject_all" → requests h.trace = [])

/-- What holds after every request. -/
structure Inv (s : History) : Prop where
  sentOnce : (s.sent.map Prod.fst).Nodup
  remembered : ∀ id entries, s.registry id = some entries →
    (∃ workloads, (id, workloads) ∈ s.sent ∧ entries = batchOf workloads) ∧ s.decided id = 0
  once : ∀ id, s.decided id ≤ 1
  known : ∀ id, 0 < s.decided id → id ∈ s.sent.map Prod.fst
  outcome : ∀ h ∈ s.handled, h.effective = true → s.Outcome h
  ineffective : ∀ h ∈ s.handled, isBatch h.data = true → h.effective = false → requests h.trace = []

variable {s s' : History}

lemma inv_start : Inv ⟨fun _ => none, [], []⟩ where
  sentOnce := List.nodup_nil
  remembered id entries h := by cases h
  once id := Nat.zero_le 1
  known id h := absurd h (Nat.lt_irrefl 0)
  outcome h hh := absurd hh List.not_mem_nil
  ineffective h hh := absurd hh List.not_mem_nil

/-- A callback leaves the other messages as they are. -/
lemma decided_callback {messageId : ℤ} {data : String} {answers : Answers} {id : ℤ}
    {registry : Registry} :
    decided ⟨registry, s.sent, handledBy s.registry messageId data answers :: s.handled⟩ id =
      s.decided id + if messageId = id ∧
        (handledBy s.registry messageId data answers).effective = true then 1 else 0 := by
  rw [decided, List.countP_cons, decided]
  simp only [Bool.and_eq_true, decide_eq_true_eq]
  rfl

/-- An outcome stays when another message is sent. -/
lemma Outcome.send {h : Handled} {workloads : List BatchWorkload} {messageId : Option ℤ}
    {registry : Registry} (ho : s.Outcome h) :
    Outcome ⟨registry, send s.sent workloads messageId, s.handled⟩ h := by
  obtain ⟨payload, hmem, happrove, hreject⟩ := ho
  exact ⟨payload, mem_send.mpr (.inl hmem), happrove, hreject⟩

/-- A new message is sent once. -/
lemma nodup_send {workloads : List BatchWorkload} {messageId : Option ℤ}
    (fresh : ∀ id ∈ messageId, id ∉ s.sent.map Prod.fst) (inv : s.Inv) :
    ((send s.sent workloads messageId).map Prod.fst).Nodup := by
  cases messageId with
  | none => exact inv.sentOnce
  | some id =>
      rw [History.send]
      split
      · exact inv.sentOnce
      · exact List.nodup_cons.mpr ⟨fresh id rfl, inv.sentOnce⟩

/-- **A payload keeps the invariant**: its batch is remembered under a new id. -/
theorem inv_batchApproval {workloads : List BatchWorkload} {messageId : Option ℤ}
    (fresh : ∀ id ∈ messageId, id ∉ s.sent.map Prod.fst) (inv : s.Inv) :
    Inv ⟨handleDeployBatchApproval s.registry workloads messageId,
      send s.sent workloads messageId, s.handled⟩ where
  sentOnce := nodup_send fresh inv
  remembered id entries hentries := by
    obtain hold | ⟨hid, hworkloads, hbatch⟩ := registry_of_batchApproval hentries
    · obtain ⟨⟨payload, hmem, heq⟩, hzero⟩ := inv.remembered id entries hold
      exact ⟨⟨payload, mem_send.mpr (.inl hmem), heq⟩, hzero⟩
    · refine ⟨⟨workloads, mem_send.mpr (.inr ⟨hid, hworkloads, rfl⟩), hbatch⟩, ?_⟩
      by_contra hpos
      exact fresh id hid (inv.known id (Nat.pos_of_ne_zero hpos))
  once := inv.once
  known id hpos := by
    obtain ⟨⟨id', payload⟩, hmem, rfl⟩ := List.mem_map.mp (inv.known id hpos)
    exact List.mem_map_of_mem (f := Prod.fst) (mem_send.mpr (.inl hmem))
  outcome h hh heff := (inv.outcome h hh heff).send
  ineffective := inv.ineffective

/-- **A callback keeps the invariant**: it takes effect for a remembered batch only, and
then the batch is not remembered any more. -/
theorem inv_callback {messageId : ℤ} {data : String} {answers : Answers} (inv : s.Inv) :
    Inv ⟨(telegramCallback s.registry messageId data).2, s.sent,
      handledBy s.registry messageId data answers :: s.handled⟩ where
  sentOnce := inv.sentOnce
  remembered id entries hentries := by
    obtain ⟨hold, hother⟩ := registry_of_after hentries
    obtain ⟨hpayload, hzero⟩ := inv.remembered id entries hold
    refine ⟨hpayload, ?_⟩
    rw [decided_callback, hzero, if_neg]
    rintro ⟨hid, heff⟩
    exact hother (entries_of_effective heff).1 hid
  once id := by
    rw [decided_callback]
    split
    · rename_i hdecides
      obtain ⟨rfl, heff⟩ := hdecides
      obtain ⟨-, entries, hentries⟩ := entries_of_effective heff
      rw [(inv.remembered messageId entries hentries).2]
    · exact inv.once id
  known id hpos := by
    rw [decided_callback] at hpos
    split at hpos
    · rename_i hdecides
      obtain ⟨rfl, heff⟩ := hdecides
      obtain ⟨-, entries, hentries⟩ := entries_of_effective heff
      obtain ⟨⟨workloads, hmem, -⟩, -⟩ := inv.remembered messageId entries hentries
      exact List.mem_map_of_mem hmem
    · exact inv.known id hpos
  outcome h hh heff := by
    obtain rfl | hold := List.mem_cons.mp hh
    · obtain ⟨-, entries, hentries⟩ := entries_of_effective heff
      obtain ⟨⟨workloads, hmem, hworkloads⟩, -⟩ := inv.remembered messageId entries hentries
      refine ⟨workloads, hmem, ?_, ?_⟩
      · rintro rfl
        rw [requests_approved, hentries, ← hworkloads]
        rfl
      · rintro rfl
        exact requests_rejected
    · exact inv.outcome h hold heff
  ineffective h hh hdata heff := by
    obtain rfl | hold := List.mem_cons.mp hh
    · exact requests_ineffective hdata heff
    · exact inv.ineffective h hold hdata heff

/-- One request keeps the invariant. -/
lemma inv_step {request : Request} (inv : s.Inv) (h : s.step request = some s') : s'.Inv := by
  cases request with
  | batchApproval workloads messageId =>
      rw [History.step] at h
      split at h
      · rename_i fresh
        obtain rfl := Option.some.inj h
        exact inv_batchApproval fresh inv
      · cases h
  | callback messageId data answers =>
      obtain rfl := Option.some.inj h
      exact inv_callback inv

lemma inv_of_reachable (hs : history.Reachable s) : s.Inv := by
  refine hs.invariant ?_ ?_
  · rintro _ rfl
    exact inv_start
  · intro s request t _ _ inv h
    exact inv_step inv h

end History

/-! ### Main result -/

/-- **A batch is decided once**: at most one callback takes effect for a message; an
approval that does makes one request for each approvable workload of the message, in
order; a rejection, and a callback without effect, make none. -/
theorem batch_decided_once {s : History} (hs : history.Reachable s) :
    (∀ id, s.decided id ≤ 1) ∧ (s.sent.map Prod.fst).Nodup ∧
      (∀ h ∈ s.handled, h.effective = true → s.Outcome h) ∧
      ∀ h ∈ s.handled, isBatch h.data = true → h.effective = false → requests h.trace = [] := by
  have inv := History.inv_of_reachable hs
  exact ⟨inv.once, inv.sentOnce, inv.outcome, inv.ineffective⟩

/-- A message with a workload that passed and one that did not, and another one: the first
is approved twice and then rejected, the second is rejected. -/
def batchSchedule : List Request :=
  let answers : Answers := ⟨fun _ => none, fun _ => true⟩
  [.batchApproval [⟨some "shop", some "cart", some "app", some "PASS"⟩,
      ⟨some "shop", some "pay", some "app", some "FAIL"⟩] (some 7),
    .batchApproval [⟨some "shop", some "cart", some "app", none⟩] (some 8),
    .callback 7 "infra_approve_all" answers, .callback 7 "infra_approve_all" answers,
    .callback 7 "infra_reject_all" answers, .callback 8 "infra_reject_all" answers]

/-- The first message is decided by the first callback and the second by the last. -/
theorem batch_decided_once_twice :
    ∃ s : History, s.decided 7 = 1 ∧ s.decided 8 = 1 ∧ s.handled.length = 4 ∧
      s.decided 7 ≤ 1 ∧ ∀ h ∈ s.handled, h.effective = true → s.Outcome h := by
  obtain ⟨s, hs, hp⟩ := System.exists_run_of_schedule history (fun _ _ => True)
    (s := ⟨fun _ => none, [], []⟩) rfl batchSchedule
    (fun s : History => s.decided 7 = 1 && s.decided 8 = 1 && s.handled.length = 4)
    (by decide +kernel)
  obtain ⟨hp, hlength⟩ := (Bool.and_eq_true _ _).mp hp
  obtain ⟨hseven, height⟩ := (Bool.and_eq_true _ _).mp hp
  obtain ⟨honce, -, houtcome, -⟩ := batch_decided_once hs
  exact ⟨s, of_decide_eq_true hseven, of_decide_eq_true height, of_decide_eq_true hlength,
    honce 7, houtcome⟩

end Gateway

end FinOpsPipeline
