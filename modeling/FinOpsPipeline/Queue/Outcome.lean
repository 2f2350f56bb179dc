import FinOpsPipeline.Queue.Worker

/-!
The two terminal outcomes of a job: the completed marker that `acknowledge`
writes and the entry in the dead-letter list.

The transaction of `acknowledge` writes the marker whether or not it removes the
entry.  A worker that acknowledges after a recovery scan has moved its entry on
gives a dead letter a completed marker (`completed_dead_letter`).

* `AckInPlace`: the guard of the steps that excludes this, an acknowledgement
  comes while its entry is in processing or after the job has left the queue.
* `MarkedGone`: under the guard a job with a marker has no entry at all.
* `terminal_outcomes_exclusive` draws the conclusion.
-/

namespace FinOpsPipeline

variable {C P R : Type} [DecidableEq C] [DecidableEq R]

namespace World

/-- An acknowledgement comes while its entry is still in processing, or when
the job has no entry in any list. -/
def AckInPlace (svc : QueueService P R) (w : World C P R) : Act C P → Prop
  | .acknowledge c => ∀ raw, (w.task c).reservation = some raw →
      raw ∈ w.store.processing.items ∨ w.population svc (svc.idOf raw) = 0
  | _ => True

instance (svc : QueueService P R) (w : World C P R) (a : Act C P) :
    Decidable (w.AckInPlace svc a) :=
  match a with
  | .acknowledge c =>
      inferInstanceAs (Decidable (∀ raw, (w.task c).reservation = some raw →
        raw ∈ w.store.processing.items ∨ w.population svc (svc.idOf raw) = 0))
  | .tick _ | .enqueue _ _ _ _ | .enqueueMany _ _ _ _ | .reserve _ | .retryOrDeadLetter _ _
  | .ensureProcessingLeases _ _ | .recoverStale _ _ | .clear _ | .scanReply _ _ | .next _ =>
      isTrue trivial

/-- No job has a completed marker and an entry in the dead-letter list. -/
def OutcomesExclusive (svc : QueueService P R) (w : World C P R) : Prop :=
  ∀ raw ∈ w.store.deadLetter.items, w.store.completed.live (svc.idOf raw) w.clock = false

/-- A job with a completed marker was pushed and has no entry left. -/
def MarkedGone (svc : QueueService P R) (w : World C P R) : Prop :=
  ∀ k, (w.store.completed k).isSome → w.Pushed svc k ∧ w.population svc k = 0

variable {svc : QueueService P R} {w w' : World C P R} {a : Act C P}

/-- A job that was pushed and has no entry stays so. -/
lemma Transition.gone (inv : w.Inv svc) (h : Transition svc w a w') {k : ℕ}
    (hk : w.Pushed svc k ∧ w.population svc k = 0) :
    w'.Pushed svc k ∧ w'.population svc k = 0 := by
  rcases h.refines inv with heq | hstep
  · rw [Pushed, population, heq]
    have hlog : w'.log = w.log := congrArg Ledger.log heq
    exact ⟨hlog ▸ hk.1, hk.2⟩
  · exact ⟨hstep.pushedKeys_mono hk.1, hstep.stays_gone hk.1 hk.2⟩

/-- A marker that a step leaves was there before, or the step acknowledged the job. -/
lemma Transition.marker (h : Transition svc w a w') {k : ℕ}
    (hk : (w'.store.completed k).isSome) :
    (w.store.completed k).isSome ∨ ∃ c raw, a = .acknowledge c ∧
      (w.task c).reservation = some raw ∧ svc.idOf raw = k ∧ w' = w.ack svc c raw := by
  cases h with
  | @ack c raw held =>
      rcases Expiring.isSome_of_set hk with rfl | hold
      · exact .inr ⟨c, raw, rfl, held, rfl, rfl⟩
      · exact .inl hold
  | delete => exact .inl (Expiring.isSome_of_del hk)
  | exec => exact .inl (by rwa [completed_retry] at hk)
  | _ => exact .inl hk

/-- An acknowledgement in place leaves the job without an entry. -/
lemma population_ack (inv : w.Inv svc) {c : C} {raw : R}
    (held : (w.task c).reservation = some raw) (inPlace : w.AckInPlace svc (.acknowledge c))
    (hmoved : w.Moved raw) :
    (w.ack svc c raw).Pushed svc (svc.idOf raw) ∧
      (w.ack svc c raw).population svc (svc.idOf raw) = 0 := by
  obtain ⟨t, ht⟩ := hmoved
  have hpushed : w.Pushed svc (svc.idOf raw) := inv.pushed_of_moved ht
  have hack : Transition svc w (.acknowledge c) (w.ack svc c raw) := .ack held
  rcases inPlace raw held with hin | hzero
  · refine ⟨hpushed, ?_⟩
    rw [population, ledger_ack]
    exact inv.wf.population_erase hin _
  · exact hack.gone inv ⟨hpushed, hzero⟩

/-- **A step with its acknowledgement in place preserves the invariant.** -/
theorem Transition.markedGone (inv : w.Inv svc)
    (hmoved : ∀ c raw, (w.task c).owned = some raw → w.Moved raw) (marked : w.MarkedGone svc)
    (inPlace : w.AckInPlace svc a) (h : Transition svc w a w') : w'.MarkedGone svc := by
  intro k hk
  rcases h.marker hk with hold | ⟨c, raw, rfl, held, rfl, rfl⟩
  · exact h.gone inv (marked k hold)
  · exact population_ack inv held inPlace (hmoved c raw (owned_of_reservation held))

/-- A job with a marker has no entry, in every run whose acknowledgements are in place. -/
theorem run_markedGone (hw : (svc.system C).Run (AckInPlace svc) w) : w.MarkedGone svc := by
  refine hw.invariant ?_ ?_
  · rintro s ⟨now, rfl⟩ k hk
    cases hk
  · intro s b t hs inPlace marked ht
    exact (step_transition ht).markedGone (reachable_inv hs)
      (fun _ _ => reachable_moved_of_owned hs) marked inPlace

/-- **Terminal outcomes are exclusive** in every run whose acknowledgements come
while the entry is in processing or after the job has left the queue. -/
theorem terminal_outcomes_exclusive (hw : (svc.system C).Run (AckInPlace svc) w) :
    w.OutcomesExclusive svc := by
  intro raw hraw
  by_contra hlive
  have hmark := Expiring.isSome_of_live (Bool.eq_true_of_not_eq_false hlive)
  have hentry : raw ∈ w.ledger.entries := List.mem_append_right _ hraw
  have hone : w.population svc (svc.idOf raw) = 1 :=
    (reachable_inv hw).wf.population_eq_one hentry rfl
  have hzero := (run_markedGone hw _ hmark).2
  omega

section Examples

/-- The service of the runs below: no retry and a timeout of a minute. -/
abbrev noRetry : QueueService Unit (Job Unit) := .plain 0 60 sixty_pos

/-- Of two jobs one is acknowledged and one fails: a marker and a dead letter,
for different jobs. -/
theorem terminal_outcomes_exclusive_two :
    ∃ w : World ℕ Unit (Job Unit), w.OutcomesExclusive noRetry ∧
      w.store.completed.live 7 w.clock = true ∧ w.store.deadLetter.items.map Job.id = [8] := by
  obtain ⟨w, hw, hp⟩ := System.exists_run_of_schedule (noRetry.system ℕ)
    (AckInPlace noRetry) ⟨0, rfl⟩
    [.enqueue 0 7 "succeeds" (), .next 0, .enqueue 0 8 "fails" (), .next 0,
      .reserve 1, .next 1, .next 1, .acknowledge 1,
      .reserve 1, .next 1, .next 1, .retryOrDeadLetter 1 "failure", .next 1, .next 1, .next 1]
    (fun w => decide (w.store.completed.live 7 w.clock = true ∧
      w.store.deadLetter.items.map Job.id = [8])) (by decide +kernel)
  obtain ⟨hmark, hdead⟩ := of_decide_eq_true hp
  exact ⟨w, terminal_outcomes_exclusive hw, hmark, hdead⟩

/-- A worker that is slower than the timeout: its job is dead-lettered by a
recovery scan, and its acknowledgement then writes the completed marker. -/
theorem completed_dead_letter :
    ∃ w : World ℕ Unit (Job Unit),
      (noRetry.system ℕ).Reachable w ∧ ¬ w.OutcomesExclusive noRetry := by
  obtain ⟨w, hw, hp⟩ := System.exists_run_of_schedule (noRetry.system ℕ)
    (fun _ _ => True) ⟨0, rfl⟩
    [.enqueue 0 7 "slow" (), .next 0, .reserve 1, .next 1, .next 1, .tick 60,
      .recoverStale 2 none, .next 2, .next 2, .next 2, .next 2, .next 2, .next 2, .next 2, .next 2,
      .acknowledge 1]
    (fun w => w.store.deadLetter.items.any fun raw => w.store.completed.live raw.id w.clock)
    (by decide +kernel)
  obtain ⟨raw, hraw, hlive⟩ := List.any_eq_true.mp hp
  refine ⟨w, hw, fun h => ?_⟩
  have habsent : w.store.completed.live raw.id w.clock = false := h raw hraw
  rw [hlive] at habsent
  cases habsent

end Examples

end World

end FinOpsPipeline
