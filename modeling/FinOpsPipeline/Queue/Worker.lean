import FinOpsPipeline.Queue.Conservation

/-!
Which client has which entry.

* `Task.processed`, `Task.owned`: the entry that a client is processing, and the
  entry it may still acknowledge or fail.
* `Transition.owned`, `Transition.processed`: a step gives a client an entry
  only by handing over a pending one (`HandsOver`).
* `reachable_moved_of_owned`: an entry that a client has was moved to
  processing; `Inv.movedAt_eq`: it was moved once.
-/

namespace FinOpsPipeline

variable {C P R : Type} [DecidableEq C] [DecidableEq R]

/-- The entry that a worker is processing: from the move until the call of
`acknowledge` or `retry_or_dead_letter`. -/
def Task.processed {P R : Type} : Task P R → Option R
  | reserveNow raw | reserveZadd raw _ | holding raw => some raw
  | _ => none

/-- The entry that was handed to this client and that it may still
acknowledge or fail. -/
def Task.owned {P R : Type} : Task P R → Option R
  | reserveNow raw | reserveZadd raw _ | holding raw | released raw _ => some raw
  | retryWatch call | retryLpos call _ | retryExec call _ | retryZrem call =>
      match call.caller with
      | .worker => some call.raw
      | .recovery _ _ => none
  | _ => none

namespace World

/-- The time of the move that put an entry in processing. -/
def movedAt (w : World C P R) (raw : R) : Option ℚ :=
  w.log.findSome? fun
    | .moved r t => if r = raw then some t else none
    | _ => none

/-- The entry was moved to processing at some time. -/
def Moved (w : World C P R) (raw : R) : Prop := ∃ t, .moved raw t ∈ w.log

variable {svc : QueueService P R} {w w' : World C P R} {a : Act C P}

/-! ### The time of a move -/

omit [DecidableEq C] in
lemma moved_of_movedAt {raw : R} {t : ℚ} (h : w.movedAt raw = some t) : .moved raw t ∈ w.log := by
  obtain ⟨e, he, hsome⟩ := List.exists_of_findSome?_eq_some h
  cases e with
  | moved r t' =>
      simp only [Option.ite_none_right_eq_some, Option.some.injEq] at hsome
      obtain ⟨rfl, rfl⟩ := hsome
      exact he
  | _ => cases hsome

omit [DecidableEq C] in
/-- An entry is moved once, so any record of the move tells its time. -/
lemma Inv.movedAt_eq (inv : w.Inv svc) {raw : R} {t : ℚ} (h : .moved raw t ∈ w.log) :
    w.movedAt raw = some t := by
  have hsome : (w.movedAt raw).isSome := by
    rw [movedAt, List.findSome?_isSome_iff]
    exact ⟨_, h, by simp⟩
  obtain ⟨t', ht'⟩ := Option.isSome_iff_exists.mp hsome
  rw [ht', inv.wf.movedOnce raw t' t (moved_of_movedAt ht') h]

omit [DecidableEq C] [DecidableEq R] in
/-- An entry that was moved is known to the queue. -/
lemma Inv.pushed_of_moved (inv : w.Inv svc) {raw : R} {t : ℚ} (h : .moved raw t ∈ w.log) :
    w.Pushed svc (svc.idOf raw) := by
  by_contra hk
  have hzero := inv.wf.undelivered _ hk
  have hpos := inv.wf.moved raw t h
  rw [labels_key, hzero] at hpos
  exact absurd hpos (Nat.not_lt_zero _)

/-! ### Handing over -/

section Owner

omit [DecidableEq C] [DecidableEq R] in
lemma owned_of_processed {t : Task P R} {raw : R} (h : t.processed = some raw) :
    t.owned = some raw := by
  cases t with
  | reserveNow | reserveZadd | holding => exact h
  | _ => cases h

omit [DecidableEq C] [DecidableEq R] in
lemma owned_of_reservation {t : Task P R} {raw : R} (h : t.reservation = some raw) :
    t.owned = some raw := by
  cases t with
  | holding | released => exact h
  | _ => cases h

omit [DecidableEq C] [DecidableEq R] in
/-- A client that holds an entry in no method but `reserve` is not processing it. -/
lemma processed_recoverNext (result : Recovered) (todo : List R) :
    (Task.recoverNext result todo : Task P R).processed = none := by
  cases todo <;> rfl

omit [DecidableEq C] [DecidableEq R] in
lemma owned_recoverNext (result : Recovered) (todo : List R) :
    (Task.recoverNext result todo : Task P R).owned = none := by
  cases todo <;> rfl

omit [DecidableEq C] [DecidableEq R] in
lemma owned_ensureNext (scan : Bool) (now : ℚ) (added : ℕ) (todo : List R) :
    (Task.ensureNext scan now added todo : Task P R).owned = none := by
  cases todo with
  | nil => cases scan <;> rfl
  | cons => rfl

omit [DecidableEq C] [DecidableEq R] in
lemma processed_ensureNext (scan : Bool) (now : ℚ) (added : ℕ) (todo : List R) :
    (Task.ensureNext scan now added todo : Task P R).processed = none := by
  cases todo with
  | nil => cases scan <;> rfl
  | cons => rfl

omit [DecidableEq C] [DecidableEq R] in
lemma processed_retryReturn (call : RetryCall R) (outcome : Option Destination) :
    (Task.retryReturn call outcome : Task P R).processed = none := by
  rw [Task.retryReturn.eq_def]
  split
  · rfl
  all_goals exact processed_recoverNext _ _

omit [DecidableEq C] [DecidableEq R] in
lemma owned_retryReturn (call : RetryCall R) (outcome : Option Destination) :
    (Task.retryReturn call outcome : Task P R).owned = (Task.retryWatch call : Task P R).owned := by
  obtain ⟨raw, reason, failedAt, caller⟩ := call
  cases caller with
  | worker => rfl
  | recovery todo result =>
      cases outcome with
      | none => exact owned_recoverNext _ _
      | some destination => cases destination <;> exact owned_recoverNext _ _

omit [DecidableEq R] in
lemma update_some {f : Task P R → Option R} {c : C} {t : Task P R}
    (ht : ∀ raw, f t = some raw → f (w.task c) = some raw) {d : C} {raw : R}
    (h : f (Function.update w.task c t d) = some raw) : f (w.task d) = some raw := by
  by_cases hd : d = c
  · subst hd
    rw [Function.update_self] at h
    exact ht raw h
  · rwa [Function.update_of_ne hd] at h

omit [DecidableEq C] in
lemma Reads.owned {c : C} {t : Task P R} (h : Reads svc w c a t) {raw : R}
    (ht : t.owned = some raw) : (w.task c).owned = some raw := by
  cases h with
  | fail reason held => exact owned_of_reservation (by rw [held]; exact ht)
  | stamp here | watch here | lposFound here | lposMissing here | watchError here =>
      rw [here]
      exact ht
  | lrange | zscorePresent =>
      rw [owned_ensureNext] at ht
      cases ht
  | zrange =>
      rw [owned_recoverNext] at ht
      cases ht
  | _ => cases ht

omit [DecidableEq C] in
lemma Reads.processed {c : C} {t : Task P R} (h : Reads svc w c a t) {raw : R}
    (ht : t.processed = some raw) : (w.task c).processed = some raw := by
  cases h with
  | stamp here =>
      rw [here]
      exact ht
  | lrange | zscorePresent =>
      rw [processed_ensureNext] at ht
      cases ht
  | zrange =>
      rw [processed_recoverNext] at ht
      cases ht
  | _ => cases ht

/-- The last step handed the entry `raw` to the client `c`. -/
def HandsOver (w w' : World C P R) (c : C) (raw : R) : Prop :=
  raw ∈ w.store.queue.items ∧ .moved raw w.clock ∈ w'.log ∧
    raw ∈ w'.store.processing.items ∧ ∀ d, d ≠ c → w'.task d = w.task d

omit [DecidableEq R] in
lemma handsOver_lmove {c : C} {raw : R} {rest : List R}
    (head : w.store.queue.items = raw :: rest) {f : Task P R → Option R}
    (hf : f (.reserveNow raw) = some raw) {d : C} {raw' : R}
    (h : f (Function.update w.task c (.reserveNow raw) d) = some raw') :
    f (w.task d) = some raw' ∨ HandsOver w { w with
        store := { w.store with
          queue := w.store.queue.lpop
          processing := w.store.processing.rpush [raw] }
        task := Function.update w.task c (.reserveNow raw)
        log := .moved raw w.clock :: w.log } d raw' := by
  by_cases hd : d = c
  · subst hd
    rw [Function.update_self, hf] at h
    cases h
    exact .inr ⟨head ▸ List.mem_cons_self, List.mem_cons_self, by simp,
      fun e he => Function.update_of_ne he _ _⟩
  · rw [Function.update_of_ne hd] at h
    exact .inl h

/-- The entries of a client after a step are those before it, or the step
handed the entry over. -/
lemma Transition.owned (h : Transition svc w a w') {d : C} {raw : R}
    (hd : (w'.task d).owned = some raw) :
    (w.task d).owned = some raw ∨ HandsOver w w' d raw := by
  cases h with
  | tick => exact .inl hd
  | read reads => exact .inl (update_some (f := Task.owned) (fun _ => reads.owned) hd)
  | build | rpush | delete => exact .inl (update_some (f := Task.owned) nofun hd)
  | lmove free head => exact handsOver_lmove head rfl hd
  | ack held =>
      refine .inl (update_some (f := Task.owned) (fun raw' h => ?_) hd)
      exact owned_of_reservation (held.trans h)
  | reserveZadd here =>
      exact .inl (update_some (f := Task.owned) (fun _ h => by rw [here]; exact h) hd)
  | exec here | retryZrem here =>
      refine .inl (update_some (f := Task.owned) (fun raw' h => ?_) hd)
      rw [owned_retryReturn] at h
      rw [here]
      exact h
  | ensureZadd =>
      exact .inl (update_some (f := Task.owned) (by rw [owned_ensureNext]; exact nofun) hd)
  | drop => exact .inl (update_some (f := Task.owned) (by rw [owned_recoverNext]; exact nofun) hd)

lemma Transition.processed (h : Transition svc w a w') {d : C} {raw : R}
    (hd : (w'.task d).processed = some raw) :
    (w.task d).processed = some raw ∨ HandsOver w w' d raw := by
  cases h with
  | tick => exact .inl hd
  | read reads => exact .inl (update_some (f := Task.processed) (fun _ => reads.processed) hd)
  | build | rpush | delete | ack => exact .inl (update_some (f := Task.processed) nofun hd)
  | lmove free head => exact handsOver_lmove head rfl hd
  | reserveZadd here =>
      exact .inl (update_some (f := Task.processed) (fun _ h => by rw [here]; exact h) hd)
  | exec | retryZrem =>
      exact .inl (update_some (f := Task.processed) (by rw [processed_retryReturn]; exact nofun) hd)
  | ensureZadd =>
      exact .inl (update_some (f := Task.processed) (by rw [processed_ensureNext]; exact nofun) hd)
  | drop =>
      exact .inl (update_some (f := Task.processed) (by rw [processed_recoverNext]; exact nofun) hd)

/-- **An entry that a client has was moved to processing.** -/
theorem reachable_moved_of_owned {ok : World C P R → Act C P → Prop}
    (hw : (svc.system C).Run ok w) {c : C} {raw : R} (hc : (w.task c).owned = some raw) :
    w.Moved raw := by
  refine hw.invariant (P := fun w => ∀ c raw, (w.task c).owned = some raw → w.Moved raw)
    ?_ ?_ c raw hc
  · rintro s ⟨now, rfl⟩
    exact nofun
  · intro s b t _ _ ih ht c raw hc
    have htrans := step_transition ht
    rcases htrans.owned hc with hold | hand
    · obtain ⟨time, hmem⟩ := ih c raw hold
      exact ⟨time, htrans.grows.log hmem⟩
    · exact ⟨s.clock, hand.2.1⟩

end Owner

end World

end FinOpsPipeline
