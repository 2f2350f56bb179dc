import FinOpsPipeline.Queue.Refinement

/-!
Bounded delivery: the failed tries carried inside an entry count the deliveries
of its job, whoever failed it.

The counts are part of the ledger invariant (`Ledger.Wf`); here they are read
off for the interleaved system, where a failing worker and a recovery scan may
work on the same entry at the same time.
-/

namespace FinOpsPipeline

variable {C P R : Type} [DecidableEq C] [DecidableEq R] {svc : QueueService P R}

namespace World

variable {w : World C P R}

/-- How often the job `j` was moved from pending to processing. -/
def delivered (svc : QueueService P R) (w : World C P R) (j : ℕ) : ℕ :=
  deliveries svc.labels j w.log

/-- **Bounded delivery**: in every reachable state the attempts of an entry are
within the limit while it can still be delivered and one above it among the
dead letters, and they count the deliveries of its job.  No job is delivered
more than `max_retries + 1` times. -/
theorem bounded_delivery (hw : (svc.system C).Reachable w) :
    (∀ raw ∈ w.store.queue.items,
      (svc.loads raw).attempts ≤ svc.maxRetries ∧
        w.delivered svc (svc.idOf raw) = (svc.loads raw).attempts) ∧
    (∀ raw ∈ w.store.processing.items,
      (svc.loads raw).attempts ≤ svc.maxRetries ∧
        w.delivered svc (svc.idOf raw) = (svc.loads raw).attempts + 1) ∧
    (∀ raw ∈ w.store.deadLetter.items,
      (svc.loads raw).attempts = svc.maxRetries + 1 ∧
        w.delivered svc (svc.idOf raw) = (svc.loads raw).attempts) ∧
    ∀ j, w.delivered svc j ≤ svc.maxRetries + 1 := by
  have wf := (reachable_inv hw).wf
  refine ⟨?_, ?_, ?_, wf.bounded⟩
  · intro raw hraw
    have h := wf.pending raw hraw
    exact ⟨h.2, h.1⟩
  · intro raw hraw
    have h := wf.processing raw hraw
    exact ⟨h.2, h.1⟩
  · intro raw hraw
    have h := wf.deadLetter raw hraw
    exact ⟨h.2, h.1⟩

/-- A job that fails twice with one retry allowed ends among the dead letters
with two attempts, after two deliveries. -/
theorem bounded_delivery_dead_letter :
    ∃ w : World ℕ Unit (Job Unit),
      ((QueueService.plain 1 60 sixty_pos).system ℕ).Reachable w ∧
      ∃ raw ∈ w.store.deadLetter.items, raw.attempts = 2 ∧
        w.delivered (QueueService.plain 1 60 sixty_pos) raw.id = 2 := by
  obtain ⟨w, hw, hp⟩ := System.exists_run_of_schedule
    ((QueueService.plain (P := Unit) 1 60 sixty_pos).system ℕ) (fun _ _ => True) ⟨0, rfl⟩
    [.enqueue 0 7 "always-fails" (), .next 0,
      .reserve 1, .next 1, .next 1, .retryOrDeadLetter 1 "first failure",
      .next 1, .next 1, .next 1,
      .reserve 1, .next 1, .next 1, .retryOrDeadLetter 1 "second failure",
      .next 1, .next 1, .next 1]
    (fun w => !w.store.deadLetter.items.isEmpty) (by decide +kernel)
  obtain ⟨raw, hraw⟩ := List.exists_mem_of_ne_nil w.store.deadLetter.items (by simpa using hp)
  obtain ⟨hattempts, hcount⟩ := (bounded_delivery hw).2.2.1 raw hraw
  exact ⟨w, hw, raw, hraw, hattempts, hcount.trans hattempts⟩

end World

end FinOpsPipeline
