import FinOpsPipeline.Approval.Callbacks
import FinOpsPipeline.Foundations.TransitionSystem

/-!
The polling loop of the gateway, `poll_telegram_updates`.

Each round asks Telegram for the updates from the offset on and posts them to the
gateway one after the other. An update that is accepted moves the offset behind it; the
first one that is not ends the round, and the rest is asked for again.

* `forward`, `pollTelegramUpdates`: the updates of an answer posted in order, and one
  round of the loop.
* `Polling`, `Polling.step`: the offset, and a record of all rounds.
* `Polling.LeftOut`: an update that was returned once and is missing from a later answer,
  of which a later update was accepted.
* `skipped_only_when_left_out`: any other update below the offset was accepted;
  `Polling.accepted_of_kept` is the case of answers that leave none out.
-/

namespace FinOpsPipeline

namespace Gateway

/-! ### One round -/

/-- A status of HTTP. -/
abbrev Status := { code : ℕ // 100 ≤ code ∧ code < 600 }

/-- What comes of posting an update to the gateway. -/
inductive Posted where
  | replied (status : Status)
  | timedOut
  | notConnected

/-- Neither the post nor `raise_for_status` raises. -/
def Posted.accepted : Posted → Bool
  | .replied status => status.val < 400
  | .timedOut | .notConnected => false

/-- What comes of asking Telegram: an exception, an answer that is not `ok`, or the
updates, each with what comes of posting it. -/
inductive Answer where
  | raised
  | notOk
  | updates (result : List (Update × Posted))

/-- The updates that an answer returns. -/
def Answer.returned : Answer → List Update
  | .raised | .notOk => []
  | .updates result => result.map Prod.fst

/-- The loop over the updates of an answer: the offset after it, and the updates that
were accepted. -/
def forward (offset : ℤ) : List (Update × Posted) → ℤ × List Update
  | [] => (offset, [])
  | (update, posted) :: rest =>
      if posted.accepted then
        let after := forward (update.updateId + 1) rest
        (after.1, update :: after.2)
      else (offset, [])

/-- One round of `poll_telegram_updates`: the offset after it, and the updates that were
accepted. -/
def pollTelegramUpdates (offset : ℤ) : Answer → ℤ × List Update
  | .raised | .notOk => (offset, [])
  | .updates result => forward offset result

/-- The updates come by increasing ids, none below the offset that was asked for. -/
def InOrder (offset : ℤ) (updates : List Update) : Prop :=
  updates.Pairwise (fun u v => u.updateId < v.updateId) ∧ ∀ u ∈ updates, offset ≤ u.updateId

instance (offset : ℤ) (updates : List Update) : Decidable (InOrder offset updates) :=
  inferInstanceAs (Decidable (_ ∧ _))

section Rounds

variable {offset : ℤ} {result : List (Update × Posted)} {u : Update}

/-- What follows an update is in order from behind it. -/
lemma InOrder.rest {rest : List Update} (h : InOrder offset (u :: rest)) :
    offset ≤ u.updateId ∧ InOrder (u.updateId + 1) rest := by
  obtain ⟨hincreasing, hfrom⟩ := h
  obtain ⟨hfirst, hrest⟩ := List.pairwise_cons.mp hincreasing
  refine ⟨hfrom u List.mem_cons_self, hrest, ?_⟩
  intro v hv
  have hlt := hfirst v hv
  omega

/-- What is accepted was returned. -/
lemma returned_of_accepted (h : u ∈ (forward offset result).2) : u ∈ result.map Prod.fst := by
  induction result generalizing offset with
  | nil => exact absurd h List.not_mem_nil
  | cons post rest ih =>
      obtain ⟨update, posted⟩ := post
      rw [forward] at h
      split at h
      · obtain rfl | hrest := List.mem_cons.mp h
        · exact List.mem_cons_self
        · exact List.mem_cons_of_mem _ (ih hrest)
      · exact absurd h List.not_mem_nil

/-- The offset stays, or is the one behind an update that was accepted. -/
lemma forward_offset (offset : ℤ) (result : List (Update × Posted)) :
    (forward offset result).1 = offset ∨
    ∃ v ∈ (forward offset result).2, (forward offset result).1 = v.updateId + 1 := by
  induction result generalizing offset with
  | nil => exact .inl rfl
  | cons post rest ih =>
      obtain ⟨update, posted⟩ := post
      rw [forward]
      split
      · right
        obtain hsame | ⟨v, hv, hnext⟩ := ih (update.updateId + 1)
        · exact ⟨update, List.mem_cons_self, hsame⟩
        · exact ⟨v, List.mem_cons_of_mem _ hv, hnext⟩
      · exact .inl rfl

/-- A round does not move the offset back. -/
lemma le_forward (horder : InOrder offset (result.map Prod.fst)) :
    offset ≤ (forward offset result).1 := by
  obtain hsame | ⟨v, hv, hnext⟩ := forward_offset offset result
  · exact hsame.ge
  · have hv := horder.2 v (returned_of_accepted hv)
    omega

/-- The updates of an answer that the round passes were accepted. -/
lemma accepted_of_lt (horder : InOrder offset (result.map Prod.fst))
    (hu : u ∈ result.map Prod.fst) (hlt : u.updateId < (forward offset result).1) :
    u ∈ (forward offset result).2 := by
  induction result generalizing offset with
  | nil => exact absurd hu List.not_mem_nil
  | cons post rest ih =>
      obtain ⟨update, posted⟩ := post
      have hfrom := horder.2 u hu
      obtain ⟨-, hrest⟩ := horder.rest
      rw [forward] at hlt ⊢
      split at hlt
      · rw [if_pos ‹_›]
        obtain rfl | hu := List.mem_cons.mp hu
        · exact List.mem_cons_self
        · exact List.mem_cons_of_mem _ (ih hrest hu hlt)
      · omega

end Rounds

/-! ### The rounds -/

/-- A round: the offset it asked for, the updates that it got and those that the gateway
accepted. -/
structure Round where
  requested : ℤ
  returned : List Update
  accepted : List Update

/-- The round asked for this id and did not get it, and passed it. -/
def Round.LeavesOut (r : Round) (id : ℤ) : Prop :=
  r.requested ≤ id ∧ id ∉ r.returned.map Update.updateId ∧ ∃ v ∈ r.accepted, id < v.updateId

/-- The offset, and all rounds, the last one first. -/
structure Polling where
  offset : ℤ
  rounds : List Round

/-- One round, for an answer that is in order. -/
def Polling.step (s : Polling) (answer : Answer) : Option Polling :=
  if InOrder s.offset answer.returned then
    let after := pollTelegramUpdates s.offset answer
    some ⟨after.1, ⟨s.offset, answer.returned, after.2⟩ :: s.rounds⟩
  else none

/-- The loop starts at the offset zero. -/
def polling : System Polling Answer where
  init s := s = ⟨0, []⟩
  step := Polling.step

namespace Polling

/-- An answer returned an update with this id. -/
def Returned (s : Polling) (id : ℤ) : Prop :=
  ∃ r ∈ s.rounds, id ∈ r.returned.map Update.updateId

/-- An update with this id was accepted. -/
def Accepted (s : Polling) (id : ℤ) : Prop :=
  ∃ r ∈ s.rounds, id ∈ r.accepted.map Update.updateId

/-- A round left the id out after an earlier one returned it. -/
def LeftOut (s : Polling) (id : ℤ) : Prop :=
  ∃ later r earlier, s.rounds = later ++ r :: earlier ∧ r.LeavesOut id ∧
    ∃ r' ∈ earlier, id ∈ r'.returned.map Update.updateId

/-- What holds after every round: the offset passes only what was accepted or left out. -/
def Inv (s : Polling) : Prop :=
  ∀ id, s.Returned id → id < s.offset → s.Accepted id ∨ s.LeftOut id

section Step

variable {s s' : Polling} {answer : Answer}

/-- What a step does: one round for an answer in order. -/
lemma step_some (h : s.step answer = some s') :
    InOrder s.offset answer.returned ∧
      s' = ⟨(pollTelegramUpdates s.offset answer).1,
        ⟨s.offset, answer.returned, (pollTelegramUpdates s.offset answer).2⟩ :: s.rounds⟩ := by
  rw [Polling.step] at h
  split at h
  · exact ⟨‹_›, (Option.some.inj h).symm⟩
  · cases h

/-- What a round passes it accepted, or left out. -/
lemma poll_passes {id : ℤ} (horder : InOrder s.offset answer.returned)
    (hpassed : id < (pollTelegramUpdates s.offset answer).1) (hfrom : s.offset ≤ id) :
    id ∈ (pollTelegramUpdates s.offset answer).2.map Update.updateId ∨
      Round.LeavesOut ⟨s.offset, answer.returned, (pollTelegramUpdates s.offset answer).2⟩ id := by
  cases answer with
  | raised => exact absurd hfrom (not_le.mpr hpassed)
  | notOk => exact absurd hfrom (not_le.mpr hpassed)
  | updates result =>
      by_cases hid : id ∈ (result.map Prod.fst).map Update.updateId
      · left
        obtain ⟨u, hu, rfl⟩ := List.mem_map.mp hid
        exact List.mem_map_of_mem (accepted_of_lt horder hu hpassed)
      · right
        refine ⟨hfrom, hid, ?_⟩
        rw [pollTelegramUpdates] at hpassed
        obtain hsame | ⟨v, hv, hnext⟩ := forward_offset s.offset result
        · omega
        · refine ⟨v, hv, ?_⟩
          have hne : v.updateId ≠ id := by
            rintro rfl
            exact hid (List.mem_map_of_mem (returned_of_accepted hv))
          omega

/-- **A round keeps the invariant**: what it passes it accepted, or never got. -/
theorem inv_step (inv : s.Inv) (h : s.step answer = some s') : s'.Inv := by
  obtain ⟨horder, rfl⟩ := step_some h
  intro id hreturned hpassed
  obtain ⟨r, hr, hid⟩ := hreturned
  by_cases hfrom : s.offset ≤ id
  · obtain haccepted | hleft := poll_passes horder hpassed hfrom
    · exact .inl ⟨_, List.mem_cons_self, haccepted⟩
    · right
      obtain rfl | hr := List.mem_cons.mp hr
      · exact absurd hid hleft.2.1
      · exact ⟨[], _, s.rounds, rfl, hleft, r, hr, hid⟩
  · have hold : r ∈ s.rounds := by
      obtain rfl | hr := List.mem_cons.mp hr
      · obtain ⟨u, hu, rfl⟩ := List.mem_map.mp hid
        exact absurd (horder.2 u hu) hfrom
      · exact hr
    obtain ⟨r', hr', haccepted⟩ | ⟨later, r', earlier, hrounds, hleft⟩ :=
      inv id ⟨r, hold, hid⟩ (not_le.mp hfrom)
    · exact .inl ⟨r', List.mem_cons_of_mem _ hr', haccepted⟩
    · exact .inr ⟨_ :: later, r', earlier, congrArg (List.cons _) hrounds, hleft⟩

/-- A round does not move the offset back. -/
lemma offset_step (h : s.step answer = some s') : s.offset ≤ s'.offset := by
  obtain ⟨horder, rfl⟩ := step_some h
  cases answer with
  | raised => exact le_rfl
  | notOk => exact le_rfl
  | updates result => exact le_forward horder

lemma inv_of_reachable (hs : polling.Reachable s) : s.Inv := by
  refine hs.invariant ?_ ?_
  · rintro _ rfl id ⟨r, hr, -⟩
    exact absurd hr List.not_mem_nil
  · intro s answer t _ _ inv h
    exact inv_step inv h

end Step

/-! ### Answers that leave nothing out -/

/-- Telegram keeps an update until an offset behind it is asked for: an answer with a later
update has every earlier one that was returned before and is still asked for. -/
def Keeps (s : Polling) (answer : Answer) : Prop :=
  ∀ id, s.Returned id → s.offset ≤ id → (∃ v ∈ answer.returned, id < v.updateId) →
    id ∈ answer.returned.map Update.updateId

/-- A round whose answer keeps the updates leaves none out. -/
lemma not_leftOut_step {s s' : Polling} {answer : Answer} (hkeeps : s.Keeps answer)
    (h : s.step answer = some s') (hnone : ∀ id, ¬ s.LeftOut id) (id : ℤ) : ¬ s'.LeftOut id := by
  obtain ⟨-, rfl⟩ := step_some h
  rintro ⟨later, r, earlier, hrounds, ⟨hfrom, hmissing, v, hv, hlt⟩, hearlier⟩
  cases later with
  | nil =>
      obtain ⟨rfl, rfl⟩ := List.cons.inj hrounds
      refine hmissing (hkeeps id hearlier hfrom ⟨v, ?_, hlt⟩)
      cases answer with
      | raised => exact absurd hv List.not_mem_nil
      | notOk => exact absurd hv List.not_mem_nil
      | updates result => exact returned_of_accepted hv
  | cons last later =>
      obtain ⟨-, hrounds⟩ := List.cons.inj hrounds
      exact hnone id ⟨later, r, earlier, hrounds, ⟨hfrom, hmissing, v, hv, hlt⟩, hearlier⟩

/-- **When Telegram keeps the updates**, every update below the offset was accepted. -/
theorem accepted_of_kept {s : Polling} (hs : polling.Run Keeps s) {id : ℤ}
    (hreturned : s.Returned id) (hpassed : id < s.offset) : s.Accepted id := by
  have hnone : ∀ id, ¬ s.LeftOut id := by
    refine hs.invariant (P := fun s => ∀ id, ¬ s.LeftOut id) ?_ ?_
    · rintro _ rfl id ⟨later, r, earlier, hrounds, -⟩
      cases later <;> cases hrounds
    · intro s answer t _ hkeeps hnone h
      exact not_leftOut_step hkeeps h hnone
  exact (inv_of_reachable (hs.mono fun _ _ _ => trivial) id hreturned hpassed).resolve_right
    (hnone id)

end Polling

/-! ### Main result -/

/-- **Polling** never moves the offset back, and passes an update that was returned only
when it was accepted, or when a later answer left it out. -/
theorem skipped_only_when_left_out {s : Polling} (hs : polling.Reachable s) :
    (∀ t, polling.Later s t → s.offset ≤ t.offset) ∧
      ∀ r ∈ s.rounds, ∀ u ∈ r.returned, u.updateId < s.offset →
        s.Accepted u.updateId ∨ s.LeftOut u.updateId := by
  constructor
  · intro t hlater
    refine hlater.preserves (P := fun t => s.offset ≤ t.offset) ?_ hs le_rfl
    intro t answer t' _ hle h
    exact hle.trans (Polling.offset_step h)
  · intro r hr u hu hpassed
    exact Polling.inv_of_reachable hs u.updateId ⟨r, hr, List.mem_map_of_mem hu⟩ hpassed

/-- The reply of the gateway to a request that it handled. -/
def okReply : Posted := .replied ⟨200, by decide⟩

/-- Two updates of which the second is refused, an answer that is not `ok`, and the
second one again. -/
def pollingSchedule : List Answer :=
  [.updates [(⟨5, none⟩, okReply), (⟨6, none⟩, .replied ⟨500, by decide⟩)], .notOk,
    .updates [(⟨6, none⟩, okReply), (⟨7, none⟩, .timedOut)]]

/-- The offset ends behind the second update. -/
theorem skipped_only_when_left_out_retry :
    ∃ s : Polling, s.offset = 7 ∧ s.rounds.length = 3 ∧
      ∀ r ∈ s.rounds, ∀ u ∈ r.returned, u.updateId < s.offset →
        s.Accepted u.updateId ∨ s.LeftOut u.updateId := by
  obtain ⟨s, hs, hp⟩ := System.exists_run_of_schedule polling (fun _ _ => True)
    (s := ⟨0, []⟩) rfl pollingSchedule
    (fun s : Polling => s.offset = 7 && s.rounds.length = 3) (by decide +kernel)
  obtain ⟨hoffset, hlength⟩ := (Bool.and_eq_true _ _).mp hp
  exact ⟨s, of_decide_eq_true hoffset, of_decide_eq_true hlength,
    (skipped_only_when_left_out hs).2⟩

/-- Two updates of which the first times out, and then the second one alone. -/
def gapSchedule : List Answer :=
  [.updates [(⟨5, none⟩, .timedOut), (⟨6, none⟩, okReply)], .updates [(⟨6, none⟩, okReply)]]

/-- The first update is passed although it was never accepted. -/
theorem skipped_when_left_out :
    ¬ ∀ s : Polling, polling.Reachable s → ∀ r ∈ s.rounds, ∀ u ∈ r.returned,
        u.updateId < s.offset → s.Accepted u.updateId := by
  intro hclaim
  obtain ⟨s, hs, hp⟩ := System.exists_run_of_schedule polling (fun _ _ => True)
    (s := ⟨0, []⟩) rfl gapSchedule
    (fun s : Polling => s.offset = 7 &&
      s.rounds.any (fun r => r.returned.any fun u => u.updateId = 5) &&
      s.rounds.all fun r => r.accepted.all fun u => u.updateId ≠ 5) (by decide +kernel)
  simp only [Bool.and_eq_true, decide_eq_true_eq, List.any_eq_true, List.all_eq_true] at hp
  obtain ⟨⟨hoffset, r, hr, u, hu, hid⟩, hnone⟩ := hp
  obtain ⟨r', hr', haccepted⟩ := hclaim s hs r hr u hu (by omega)
  obtain ⟨v, hv, hsame⟩ := List.mem_map.mp haccepted
  exact hnone r' hr' v hv (hsame.trans hid)

end Gateway

end FinOpsPipeline
