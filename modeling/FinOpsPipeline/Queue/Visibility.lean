import FinOpsPipeline.Queue.Lease
import Mathlib.Data.Fintype.Basic

/-!
The visibility timeout of the interleaved queue.

An entry that is moved to processing after a recovery scan has read the clock
gets a deadline that is too early: `recovered_before_timeout` is such a run, in
which a live worker loses its job at once.

* `owner_unique`: no two clients have one entry, in any run.
* `OwnerInv`: an entry has one worker, and the entry of a running worker stays
  in processing as long as the worker keeps within the timeout.
* `visibility_timeout_protects`: in every run whose leases are added fresh, no
  recovery comes before the timeout and no job has two workers.
-/

namespace FinOpsPipeline

variable {C P R : Type} [DecidableEq C] [DecidableEq R]

namespace World

/-- Every worker that processes a job is still within the visibility timeout. -/
def Timely (svc : QueueService P R) (w : World C P R) : Prop :=
  ∀ c raw, (w.task c).processed = some raw → ∀ t, w.movedAt raw = some t →
    w.clock < t + svc.visibilityTimeoutSeconds

instance [Fintype C] (svc : QueueService P R) (w : World C P R) : Decidable (w.Timely svc) :=
  inferInstanceAs (Decidable (∀ c raw, (w.task c).processed = some raw →
    ∀ t, w.movedAt raw = some t → w.clock < t + svc.visibilityTimeoutSeconds))

variable {svc : QueueService P R} {w w' : World C P R} {a : Act C P}

/-! ### The worker of an entry -/

/-- An entry has at most one worker; while it is processed it stays in
processing, unless the queue was reset; and no two workers process one job. -/
structure OwnerInv (svc : QueueService P R) (w : World C P R) : Prop where
  unique : ∀ c c' raw, (w.task c).owned = some raw → (w.task c').owned = some raw → c = c'
  running : ∀ c raw, (w.task c).processed = some raw →
    raw ∈ w.store.processing.items ∨ w.population svc (svc.idOf raw) = 0
  exclusive : ∀ c c' raw raw', (w.task c).processed = some raw →
    (w.task c').processed = some raw' → svc.idOf raw = svc.idOf raw' → c = c'

section Owner

omit [DecidableEq C] [DecidableEq R] in
/-- A pending entry was never moved, so no client had it before. -/
lemma HandsOver.not_owned (inv : w.Inv svc)
    (hmoved : ∀ c raw, (w.task c).owned = some raw → w.Moved raw) {c : C} {raw : R}
    (hand : HandsOver w w' c raw) (d : C) : (w.task d).owned ≠ some raw := fun hd => by
  obtain ⟨t, ht⟩ := hmoved d raw hd
  exact inv.wf.not_moved_of_pending hand.1 t ht

omit [DecidableEq C] [DecidableEq R] in
/-- The job of a pending entry was not being processed before, when what is processed stays in
processing. -/
lemma HandsOver.not_processed (inv : w.Inv svc)
    (hmoved : ∀ c raw, (w.task c).owned = some raw → w.Moved raw)
    {c : C} {raw : R} (hand : HandsOver w w' c raw) {d : C} {raw' : R}
    (hd : (w.task d).processed = some raw')
    (hrunning : raw' ∈ w.store.processing.items ∨ w.population svc (svc.idOf raw') = 0) :
    svc.idOf raw ≠ svc.idOf raw' := fun hid => by
  have hentry : raw ∈ w.ledger.entries :=
    List.mem_append_left _ (List.mem_append_left _ hand.1)
  rcases hrunning with hin | hzero
  · have hentry' : raw' ∈ w.ledger.entries :=
      List.mem_append_left _ (List.mem_append_right _ hin)
    have heq : raw = raw' := inv.wf.eq_of_key hentry hentry' hid
    exact hand.not_owned inv hmoved d (heq ▸ owned_of_processed hd)
  · have hpos : 0 < w.population svc (svc.idOf raw') :=
      Ledger.population_pos.mpr ⟨raw, hentry, hid⟩
    omega

/-- An entry leaves processing through its worker, by a recovery scan once it
is due, or by the reset of the queue. -/
lemma Transition.leaves (linv : w.LeaseInv svc) (h : Transition svc w a w') {raw : R}
    (hraw : raw ∈ w.store.processing.items) :
    raw ∈ w'.store.processing.items ∨
      (∃ c, (w.task c).owned = some raw ∧ (w'.task c).processed = none) ∨
      w.Due svc raw ∨ w'.population svc (svc.idOf raw) = 0 := by
  cases h with
  | tick | read | build | rpush | reserveZadd | retryZrem | ensureZadd => exact .inl hraw
  | lmove => exact .inl (List.mem_append_left _ hraw)
  | @ack c raw₀ held =>
      by_cases heq : raw = raw₀
      · subst heq
        refine .inr (.inl ⟨c, owned_of_reservation held, ?_⟩)
        have htask : (w.ack svc c raw).task c = .released raw _ := Function.update_self _ _ _
        rw [htask]
        rfl
      · exact .inl (ListKey.mem_lrem_of_ne heq hraw)
  | @exec c call seen here =>
      by_cases heq : raw = call.raw
      · have hc := linv.tasks c
        rw [here] at hc
        cases hcaller : call.caller with
        | worker =>
            refine .inr (.inl ⟨c, ?_, ?_⟩)
            · rw [here, Task.owned, hcaller, heq]
            · have htask : (w.retry svc c call).task c = .retryReturn call _ :=
                Function.update_self _ _ _
              rw [htask]
              exact processed_retryReturn _ _
        | recovery todo result =>
            exact .inr (.inr (.inl (heq ▸ hc todo result hcaller call.raw List.mem_cons_self)))
      · rw [processing_retry]
        exact .inl (ListKey.mem_lrem_of_ne heq hraw)
  | @drop c raw₀ todo result here =>
      by_cases heq : raw = raw₀
      · have hc := linv.tasks c
        rw [here] at hc
        exact .inr (.inr (.inl (heq ▸ hc raw₀ List.mem_cons_self)))
      · exact .inl (ListKey.mem_lrem_of_ne heq hraw)
  | delete => exact .inr (.inr (.inr rfl))

omit [DecidableEq C] in
/-- An entry that a worker processes in time is not due. -/
lemma Timely.not_due (inv : w.Inv svc) (timely : w.Timely svc) {c : C} {raw : R}
    (hc : (w.task c).processed = some raw) : ¬ w.Due svc raw := fun ⟨t, ht, hle⟩ =>
  absurd (timely c raw hc t (inv.movedAt_eq ht)) (not_lt.mpr hle)

/-- The entry of a worker within the timeout stays in processing. -/
lemma Transition.running (inv : w.Inv svc) (linv : w.LeaseInv svc)
    (hmoved : ∀ c raw, (w.task c).owned = some raw → w.Moved raw) (oinv : w.OwnerInv svc)
    (timely : w.Timely svc) (h : Transition svc w a w') {c : C} {raw : R}
    (hc : (w'.task c).processed = some raw) :
    raw ∈ w'.store.processing.items ∨ w'.population svc (svc.idOf raw) = 0 := by
  rcases h.processed hc with hold | hand
  · rcases oinv.running c raw hold with hin | hzero
    · rcases h.leaves linv hin with hstay | ⟨d, hd, hnone⟩ | hdue | hgone
      · exact .inl hstay
      · have hcd : c = d := oinv.unique c d raw (owned_of_processed hold) hd
        rw [← hcd, hc] at hnone
        cases hnone
      · exact absurd hdue (timely.not_due inv hold)
      · exact .inr hgone
    · refine .inr ?_
      obtain ⟨t, ht⟩ := hmoved c raw (owned_of_processed hold)
      rcases h.refines inv with heq | hstep
      · rwa [population, heq]
      · exact hstep.stays_gone (inv.pushed_of_moved ht) hzero
  · exact .inl hand.2.2.1

/-- A step gives no entry a second owner. -/
lemma Transition.owner_unique (inv : w.Inv svc)
    (hmoved : ∀ c raw, (w.task c).owned = some raw → w.Moved raw)
    (hunique : ∀ c c' raw, (w.task c).owned = some raw → (w.task c').owned = some raw → c = c')
    (h : Transition svc w a w') {c c' : C} {raw : R} (hc : (w'.task c).owned = some raw)
    (hc' : (w'.task c').owned = some raw) : c = c' := by
  by_contra hne
  rcases h.owned hc with hold | hand
  · rcases h.owned hc' with hold' | hand'
    · exact hne (hunique c c' raw hold hold')
    · exact hand'.not_owned inv hmoved c hold
  · rw [hand.2.2.2 c' (Ne.symm hne)] at hc'
    exact hand.not_owned inv hmoved c' hc'

/-- No two clients have one entry, in any run. -/
theorem owner_unique {ok : World C P R → Act C P → Prop} (hw : (svc.system C).Run ok w) {c c' : C}
    {raw : R} (hc : (w.task c).owned = some raw) (hc' : (w.task c').owned = some raw) :
    c = c' := by
  refine hw.invariant (P := fun w => ∀ c c' raw, (w.task c).owned = some raw →
    (w.task c').owned = some raw → c = c') ?_ ?_ c c' raw hc hc'
  · rintro s ⟨now, rfl⟩
    exact nofun
  · intro s b t hs _ ih ht c c' raw
    exact (step_transition ht).owner_unique (reachable_inv hs)
      (fun _ _ => reachable_moved_of_owned hs) ih

/-- **A step within the timeout preserves the invariant of the workers.** -/
theorem Transition.ownerInv (inv : w.Inv svc) (linv : w.LeaseInv svc)
    (hmoved : ∀ c raw, (w.task c).owned = some raw → w.Moved raw) (oinv : w.OwnerInv svc)
    (timely : w.Timely svc) (h : Transition svc w a w') : w'.OwnerInv svc where
  unique := fun _ _ _ => h.owner_unique inv hmoved oinv.unique
  running := fun _ _ hc => h.running inv linv hmoved oinv timely hc
  exclusive := by
    intro c c' raw raw' hc hc' hid
    by_contra hne
    rcases h.processed hc with hold | hand
    · rcases h.processed hc' with hold' | hand'
      · exact hne (oinv.exclusive c c' raw raw' hold hold' hid)
      · exact hand'.not_processed inv hmoved hold (oinv.running c raw hold) hid.symm
    · rw [hand.2.2.2 c' (Ne.symm hne)] at hc'
      exact hand.not_processed inv hmoved hc' (oinv.running c' raw' hc') hid

omit [DecidableEq C] [DecidableEq R] in
lemma ownerInv_start (now : ℚ) : (start now : World C P R).OwnerInv svc where
  unique := nofun
  running := nofun
  exclusive := nofun

end Owner

/-! ### Guarded runs -/

/-- Every recovery of an entry that was not completed came at least the
visibility timeout after the move of this entry to processing. -/
def RecoversInTime (svc : QueueService P R) (w : World C P R) : Prop :=
  ∀ raw updated now, .requeued raw updated .recovery now ∈ w.log →
    ∃ t, w.movedAt raw = some t ∧ t + svc.visibilityTimeoutSeconds ≤ now

/-- No job is being processed by two workers at once. -/
def OneWorker (svc : QueueService P R) (w : World C P R) : Prop :=
  ∀ c c' raw raw', (w.task c).processed = some raw → (w.task c').processed = some raw' →
    svc.idOf raw = svc.idOf raw' → c = c'

section Runs

/-- The invariant of the workers holds in every punctual run whose workers all
keep within the timeout. -/
theorem run_ownerInv
    (hw : (svc.system C).Run (fun s b => s.Punctual b ∧ s.Timely svc) w) : w.OwnerInv svc := by
  refine System.Run.invariant ?_ ?_ hw
  · rintro s ⟨now, rfl⟩
    exact ownerInv_start now
  · intro s b t hs hok oinv ht
    have linv : s.LeaseInv svc := run_leaseInv (hs.mono fun _ _ h => h.1)
    exact (step_transition ht).ownerInv (reachable_inv hs) linv
      (fun _ _ => reachable_moved_of_owned hs) oinv hok.2

/-- A recovery that a step performs is of an entry that is due. -/
lemma Transition.recovers (linv : w.LeaseInv svc) (h : Transition svc w a w')
    {raw updated : R} {now : ℚ} (hlog : .requeued raw updated .recovery now ∈ w'.log) :
    .requeued raw updated .recovery now ∈ w.log ∨ now = w.clock ∧ w.Due svc raw := by
  cases h with
  | tick | read | build | reserveZadd | retryZrem | ensureZadd => exact .inl hlog
  | rpush | lmove | ack | drop | delete =>
      rcases List.mem_cons.mp hlog with heq | hold
      · cases heq
      · exact .inl hold
  | @exec c call seen here =>
      rcases List.mem_cons.mp hlog with heq | hold
      · have hc := linv.tasks c
        rw [here] at hc
        simp only [Event.requeued.injEq, RetryCall.origin] at heq
        obtain ⟨rfl, rfl, horigin, rfl⟩ := heq
        refine .inr ⟨rfl, ?_⟩
        cases hcaller : call.caller with
        | worker =>
            rw [hcaller] at horigin
            cases horigin
        | recovery todo result => exact hc todo result hcaller call.raw List.mem_cons_self
      · exact .inl hold

/-- **Recoveries come in time** in every punctual run. -/
theorem run_recoversInTime (hw : (svc.system C).Run Punctual w) : w.RecoversInTime svc := by
  have hmoved : ∀ raw updated now, .requeued raw updated .recovery now ∈ w.log →
      ∃ t, .moved raw t ∈ w.log ∧ t + svc.visibilityTimeoutSeconds ≤ now := by
    refine System.Run.invariant (P := fun w => ∀ raw updated now,
      .requeued raw updated .recovery now ∈ w.log →
        ∃ t, .moved raw t ∈ w.log ∧ t + svc.visibilityTimeoutSeconds ≤ now) ?_ ?_ hw
    · rintro s ⟨now, rfl⟩ _ _ _ h
      cases h
    · intro s b t hs _ ih ht raw updated now h
      have htrans := step_transition ht
      rcases htrans.recovers (run_leaseInv hs) h with hold | ⟨rfl, moved, hmem, hle⟩
      · obtain ⟨moved, hmem, hle⟩ := ih raw updated now hold
        exact ⟨moved, htrans.grows.log hmem, hle⟩
      · exact ⟨moved, htrans.grows.log hmem, hle⟩
  intro raw updated now h
  obtain ⟨t, ht, hle⟩ := hmoved raw updated now h
  exact ⟨t, (reachable_inv hw).movedAt_eq ht, hle⟩

/-- **The visibility timeout protects a running worker** in every run whose
scans add leases only for entries moved no later than the time they work with:
no recovery comes before the timeout, and while all workers keep within it no
job is being processed by two of them. -/
theorem visibility_timeout_protects :
    (∀ w, (svc.system C).Run Punctual w → w.RecoversInTime svc) ∧
    ∀ w, (svc.system C).Run (fun s b => s.Punctual b ∧ s.Timely svc) w → w.OneWorker svc :=
  ⟨fun _ hw => run_recoversInTime hw, fun _ hw => (run_ownerInv hw).exclusive⟩

end Runs

section Examples

/-- The service of the runs below: one retry and a timeout of a minute. -/
abbrev minute : QueueService Unit (Job Unit) := .plain 1 60 sixty_pos

/-- A crashed worker's job is recovered after the minute and handed to a second
worker. -/
theorem visibility_timeout_protects_crashed :
    ∃ w : World (Fin 3) Unit (Job Unit), w.RecoversInTime minute ∧
      (∃ raw updated now, .requeued raw updated .recovery now ∈ w.log) ∧
      ∃ s : World (Fin 3) Unit (Job Unit), s.OneWorker minute ∧ (s.task 1).processed.isSome := by
  obtain ⟨w, hw, hp⟩ := System.exists_run_of_schedule (minute.system (Fin 3))
    Punctual ⟨0, rfl⟩
    [.enqueue 0 7 "sample" (), .next 0, .reserve 1, .next 1, .next 1, .tick 60,
      .recoverStale 2 none, .next 2, .next 2, .next 2, .next 2, .next 2, .next 2, .next 2, .next 2]
    (fun w => w.log.any fun | .requeued _ _ .recovery _ => true | _ => false)
    (by decide +kernel)
  obtain ⟨s, hs, hq⟩ := System.exists_run_of_schedule (minute.system (Fin 3))
    (fun s b => s.Punctual b ∧ s.Timely minute) ⟨0, rfl⟩
    [.enqueue 0 7 "sample" (), .next 0, .reserve 1, .next 1, .next 1]
    (fun s => (s.task 1).processed.isSome) (by decide +kernel)
  refine ⟨w, visibility_timeout_protects.1 w hw, ?_, s, visibility_timeout_protects.2 s hs, hq⟩
  obtain ⟨e, he, hmatch⟩ := List.any_eq_true.mp hp
  split at hmatch
  · exact ⟨_, _, _, he⟩
  · cases hmatch

/-- A scan reads the clock at 0, a worker takes the job at 60 and the scan then
gives the entry the deadline 60: the next scan recovers it at once, and two
workers, neither of them late, process the job. -/
theorem recovered_before_timeout :
    ∃ w : World (Fin 4) Unit (Job Unit),
      (minute.system (Fin 4)).Run (fun s b => s.CurrentTime b ∧ s.Timely minute) w ∧
      ¬ w.RecoversInTime minute ∧ ¬ w.OneWorker minute := by
  obtain ⟨w, hw, hp⟩ := System.exists_run_of_schedule (minute.system (Fin 4))
    (fun s b => s.CurrentTime b ∧ s.Timely minute) ⟨0, rfl⟩
    [.enqueue 0 7 "sample" (), .next 0, .recoverStale 0 none, .tick 60, .reserve 1,
      .next 0, .next 0, .next 0, .recoverStale 2 none, .next 2, .next 2, .next 2, .next 2,
      .next 2, .next 2, .next 2, .next 2, .reserve 3]
    (fun w => (w.log.any fun
        | .requeued raw _ .recovery now => decide (w.movedAt raw = some 60 ∧ now = 60)
        | _ => false) &&
      decide ((w.task 1).processed.map Job.id = some 7 ∧ (w.task 3).processed.map Job.id = some 7))
    (by decide +kernel)
  obtain ⟨hearly, htwo⟩ := Bool.and_eq_true_iff.mp hp
  obtain ⟨hone, hthree⟩ := of_decide_eq_true htwo
  refine ⟨w, hw, fun h => ?_, fun h => ?_⟩
  · obtain ⟨e, he, hmatch⟩ := List.any_eq_true.mp hearly
    split at hmatch
    · rename_i raw updated now
      obtain ⟨hmoved, rfl⟩ := of_decide_eq_true hmatch
      obtain ⟨t, ht, hle⟩ := h raw updated 60 he
      rw [hmoved] at ht
      cases ht
      exact absurd hle (by decide +kernel)
    · cases hmatch
  · obtain ⟨raw, hraw, hid⟩ := Option.map_eq_some_iff.mp hone
    obtain ⟨raw', hraw', hid'⟩ := Option.map_eq_some_iff.mp hthree
    exact absurd (h 1 3 raw raw' hraw hraw' (hid.trans hid'.symm)) (by decide)

end Examples

end World

end FinOpsPipeline
