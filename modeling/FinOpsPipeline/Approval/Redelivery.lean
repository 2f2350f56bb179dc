import FinOpsPipeline.Approval.Callbacks

/-!
The same update delivered twice.

Telegram delivers an update again when the reply is late, and so does the polling loop.
A batch is taken out of the registry by the first delivery; the other callbacks keep no
state.

* `startsEachTime`: the callbacks that make a request whenever they are handled.
* `redelivery_harmless_iff`: a second delivery makes no request exactly for the others.
-/

namespace FinOpsPipeline

open Analysis

namespace Gateway

/-- The callbacks that make a request to GitHub whenever they are handled: the rollbacks
and the approval of a single workload. -/
def startsEachTime (callbackData : String) : Bool :=
  isRollback callbackData || isCommand "infra_approve" callbackData

/-- The update is such a callback. -/
def Update.StartsEachTime (u : Update) : Prop :=
  ∃ callback, u.callbackQuery = some callback ∧ startsEachTime callback.data = true

variable {registry : Registry} {messageId : ℤ} {callbackData : String} {answers : Answers}

/-- A callback of this kind makes a request in every state. -/
lemma dispatches_ne_nil (h : startsEachTime callbackData = true) :
    (telegramCallback registry messageId callbackData).1.dispatches answers ≠ [] := by
  rw [telegramCallback, Handler.dispatches]
  split_ifs with hhead hcustom happrove
  · rw [requests_rollback]
    exact List.cons_ne_nil _ _
  · rw [requests_rollback]
    exact List.cons_ne_nil _ _
  · rw [ne_eq, ← List.map_eq_nil_iff (f := Dispatch.appliedTo), requests_approve]
    exact List.cons_ne_nil _ _
  all_goals
    simp only [startsEachTime, isRollback, hhead, hcustom, happrove, decide_false,
      Bool.or_self, Bool.false_eq_true] at h

/-- Any other callback makes no request when the message has no batch left. -/
lemma dispatches_eq_nil (h : startsEachTime callbackData = false)
    (hbatch : callbackData = "infra_approve_all" → registry messageId = none) :
    (telegramCallback registry messageId callbackData).1.dispatches answers = [] := by
  simp only [startsEachTime, isRollback, Bool.or_eq_false_iff, decide_eq_false_iff_not] at h
  obtain ⟨⟨hhead, hcustom⟩, happrove⟩ := h
  rw [telegramCallback, if_neg hhead, if_neg (ne_true_of_eq_false hcustom),
    if_neg (ne_true_of_eq_false happrove)]
  split_ifs with hreject happroveAll
  · rfl
  · rw [hbatch happroveAll]
    rfl
  · exact requests_rejectAll _
  · rfl

/-- An approval of a batch takes the batch out. -/
lemma approveAll_takes (h : callbackData = "infra_approve_all") :
    (telegramCallback registry messageId callbackData).2 messageId = none := by
  rw [h, telegramCallback_approveAll]
  exact Function.update_self ..

/-- **A second delivery** makes the requests of the first one and no other exactly when the
update is not a rollback and not the approval of a single workload. -/
theorem redelivery_harmless_iff (registry : Registry) (u : Update) (first second : Answers) :
    (deliver registry u first).1 ++ (deliver (deliver registry u first).2 u second).1 =
      (deliver registry u first).1 ↔ ¬ u.StartsEachTime := by
  rw [List.append_right_eq_self]
  cases hquery : u.callbackQuery with
  | none =>
      have hnone : ¬ u.StartsEachTime := by
        rintro ⟨callback, hcallback, -⟩
        rw [hquery] at hcallback
        cases hcallback
      rw [deliver, webhook, hquery]
      exact iff_of_true rfl hnone
  | some callback =>
      have hstarts : u.StartsEachTime ↔ startsEachTime callback.data = true := by
        constructor
        · rintro ⟨callback', hcallback, hdata⟩
          obtain rfl : callback = callback' := Option.some.inj (hquery.symm.trans hcallback)
          exact hdata
        · exact fun hdata => ⟨callback, hquery, hdata⟩
      rw [hstarts, Bool.not_eq_true]
      simp only [deliver, webhook, hquery]
      constructor
      · intro hnil
        by_contra hdata
        exact dispatches_ne_nil (Bool.eq_true_of_not_eq_false hdata) hnil
      · exact fun hdata => dispatches_eq_nil hdata approveAll_takes

/-- A second delivery of the button of the last version rolls back twice. -/
theorem rollback_redelivered :
    ¬ ∀ (registry : Registry) (u : Update) (first second : Answers),
        (deliver registry u first).1 ++ (deliver (deliver registry u first).2 u second).1 =
          (deliver registry u first).1 := by
  intro h
  have hlength := congrArg List.length (h (fun _ => none) ⟨1, some ⟨7, "rollback_head"⟩⟩
    ⟨fun _ => none, fun _ => true⟩ ⟨fun _ => none, fun _ => true⟩)
  revert hlength
  decide +kernel

end Gateway

end FinOpsPipeline
