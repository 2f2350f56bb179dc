import Mathlib.Algebra.BigOperators.Group.List.Basic
import Mathlib.Algebra.Ring.Nat
import FinOpsPipeline.Queue.Refinement

/-!
Enqueueing over a connection that loses replies.

The client of `redis_client.py` sends a command again when the connection breaks or the
reply does not come in time, and the server may have executed the command whose reply was
lost. An `RPUSH` that is sent again appends the jobs again.

* `callWithRetry`: a command sent until a reply arrives; `callWithRetry_eq` counts how
  often it was executed.
* `QueueService.enqueueWithRetry`, `QueueService.enqueueManyWithRetry`: the two methods.
* `enqueue_at_least_once`: a returned job stands in the list once more than there are lost
  attempts that were executed.
-/

namespace FinOpsPipeline

/-! ### Sending a command again -/

/-- What happens to one attempt to send a command: the reply arrives, or it is lost, and
the command may have been executed. -/
inductive Attempt where
  | answered
  | lost (executed : Bool)

section Retry

variable {σ : Type} (command : σ → σ)

/-- The state after an attempt whose reply is lost. -/
def afterLost (executed : Bool) (s : σ) : σ := if executed then command s else s

/-- The retry loop of the client: a command is sent at most `retries` times more than
once, and `pattern` says what happens to each attempt. The result tells whether a reply
arrived, and the state of the server. -/
def callWithRetry : ℕ → (ℕ → Attempt) → σ → Bool × σ
  | 0, pattern, s =>
      match pattern 0 with
      | .answered => (true, command s)
      | .lost executed => (false, afterLost command executed s)
  | retries + 1, pattern, s =>
      match pattern 0 with
      | .answered => (true, command s)
      | .lost executed =>
          callWithRetry retries (fun i => pattern (i + 1)) (afterLost command executed s)

/-- The number of lost attempts that were executed. -/
def lostExecutions : ℕ → (ℕ → Attempt) → ℕ
  | 0, pattern =>
      match pattern 0 with
      | .answered => 0
      | .lost executed => executed.toNat
  | retries + 1, pattern =>
      match pattern 0 with
      | .answered => 0
      | .lost executed => executed.toNat + lostExecutions retries fun i => pattern (i + 1)

variable {command}

/-- **A command with a reply** was executed once more than it was lost and executed, and
the executed losses are among the retries. -/
theorem callWithRetry_eq {retries : ℕ} {pattern : ℕ → Attempt} {s t : σ}
    (h : callWithRetry command retries pattern s = (true, t)) :
    t = command^[lostExecutions retries pattern + 1] s ∧
      lostExecutions retries pattern ≤ retries := by
  induction retries generalizing pattern s with
  | zero =>
      rw [callWithRetry] at h
      rw [lostExecutions]
      split at h
      · cases h
        exact ⟨rfl, le_rfl⟩
      · cases h
  | succ retries ih =>
      rw [callWithRetry] at h
      rw [lostExecutions]
      split at h
      · cases h
        exact ⟨rfl, Nat.zero_le _⟩
      · rename_i executed hlost
        obtain ⟨heq, hle⟩ := ih h
        cases executed with
        | false =>
            rw [Bool.toNat_false, Nat.zero_add]
            exact ⟨heq, Nat.le_succ_of_le hle⟩
        | true =>
            rw [Bool.toNat_true, Nat.add_comm 1]
            refine ⟨?_, Nat.succ_le_succ hle⟩
            rw [heq, Function.iterate_succ_apply command (_ + 1)]
            rfl

end Retry

/-- Repeated pushes of the same values. -/
lemma iterate_rpush_items {α : Type} (k : ListKey α) (xs : List α) (m : ℕ) :
    ((fun k : ListKey α => k.rpush xs)^[m] k).items = k.items ++ (List.replicate m xs).flatten := by
  induction m generalizing k with
  | zero => simp
  | succ m ih =>
      rw [Function.iterate_succ_apply, ih, ListKey.rpush_items, List.replicate_succ,
        List.flatten_cons, List.append_assoc]

/-! ### The two methods -/

namespace QueueService

variable {P R : Type} (svc : QueueService P R) (retries : ℕ) (pattern : ℕ → Attempt)

/-- The `RPUSH` of some jobs; without values it is an error. The result is the jobs if a
reply arrived, and the pending list. -/
def rpushWithRetry (jobs : List (Job P)) (queue : ListKey R) :
    Option (List (Job P)) × ListKey R :=
  match jobs with
  | [] => (none, queue)
  | _ :: _ =>
      match callWithRetry (fun k : ListKey R => k.rpush (jobs.map svc.dumps)) retries pattern
        queue with
      | (true, queue) => (some jobs, queue)
      | (false, queue) => (none, queue)

/-- `enqueue`, where `uuid` is the answer of `uuid4` and `now` the time. -/
def enqueueWithRetry (uuid : ℕ) (now : ℚ) (jobType : String) (payload : P) (queue : ListKey R) :
    Option (Job P) × ListKey R :=
  let job := newJob uuid jobType payload now
  match svc.rpushWithRetry retries pattern [job] queue with
  | (some _, queue) => (some job, queue)
  | (none, queue) => (none, queue)

/-- `enqueue_many`, with an answer of `uuid4` and a time for each job. -/
def enqueueManyWithRetry (readings : List (ℕ × ℚ)) (jobType : String) (payload : P)
    (queue : ListKey R) : Option (List (Job P)) × ListKey R :=
  svc.rpushWithRetry retries pattern (readings.map fun r => newJob r.1 jobType payload r.2) queue

/-- The number of entries of a list with the identifier `j`. -/
def occurrences (queue : ListKey R) (j : ℕ) : ℕ := (queue.items.map svc.idOf).count j

variable {svc retries pattern}

/-- **Returned jobs** stand in the list as often as their `RPUSH` was executed. -/
theorem rpushWithRetry_occurrences {jobs returned : List (Job P)} {queue queue' : ListKey R}
    (distinct : (jobs.map Job.id).Nodup)
    (fresh : ∀ job ∈ jobs, svc.occurrences queue job.id = 0)
    (h : svc.rpushWithRetry retries pattern jobs queue = (some returned, queue')) :
    returned = jobs ∧ ∀ job ∈ jobs,
      svc.occurrences queue' job.id = lostExecutions retries pattern + 1 ∧
        lostExecutions retries pattern ≤ retries := by
  cases jobs with
  | nil => cases h
  | cons first rest =>
      rw [rpushWithRetry] at h
      split at h
      · rename_i sent hsent
        cases h
        obtain ⟨rfl, hle⟩ := callWithRetry_eq hsent
        refine ⟨rfl, fun job hjob => ⟨?_, hle⟩⟩
        have hkeys : ((first :: rest).map svc.dumps).map svc.idOf = (first :: rest).map Job.id := by
          simp [Function.comp_def]
        have hone : ((first :: rest).map Job.id).count job.id = 1 :=
          List.count_eq_one_of_mem distinct (List.mem_map_of_mem hjob)
        have hold := fresh job hjob
        rw [occurrences] at hold ⊢
        rw [iterate_rpush_items, List.map_append, List.count_append, hold, List.map_flatten,
          List.map_replicate, hkeys, List.count_flatten, List.map_replicate, hone,
          List.sum_replicate, nsmul_one, Nat.cast_id, Nat.zero_add]
      · cases h

end QueueService

open QueueService

variable {P R : Type} {svc : QueueService P R} {retries : ℕ} {pattern : ℕ → Attempt}
  {queue queue' : ListKey R} {jobType : String} {payload : P}

/-- **Enqueueing at least once**: right after a call with unused identifiers, each job that
it returned stands in the pending list once for the reply and once for every lost attempt
that was executed, so at most `redis_retry_attempts + 1` times. -/
theorem enqueue_at_least_once :
    (∀ uuid now job, svc.occurrences queue uuid = 0 →
      svc.enqueueWithRetry retries pattern uuid now jobType payload queue = (some job, queue') →
      svc.occurrences queue' job.id = lostExecutions retries pattern + 1 ∧
        lostExecutions retries pattern ≤ retries) ∧
    ∀ (readings : List (ℕ × ℚ)) jobs, (readings.map Prod.fst).Nodup →
      (∀ reading ∈ readings, svc.occurrences queue reading.1 = 0) →
      svc.enqueueManyWithRetry retries pattern readings jobType payload queue =
        (some jobs, queue') →
      ∀ job ∈ jobs, svc.occurrences queue' job.id = lostExecutions retries pattern + 1 ∧
        lostExecutions retries pattern ≤ retries := by
  constructor
  · intro uuid now job fresh h
    simp only [enqueueWithRetry] at h
    split at h
    · rename_i returned sent hsent
      cases h
      exact (rpushWithRetry_occurrences (by simp) (by simpa [newJob] using fresh)
        hsent).2 _ List.mem_cons_self
    · cases h
  · intro readings jobs distinct fresh h
    have hids : (readings.map fun r => newJob r.1 jobType payload r.2).map Job.id =
        readings.map Prod.fst := by
      simp [newJob, Function.comp_def]
    have hfresh : ∀ job ∈ readings.map fun r => newJob r.1 jobType payload r.2,
        svc.occurrences queue job.id = 0 := by
      intro job hjob
      obtain ⟨r, hr, rfl⟩ := List.mem_map.mp hjob
      exact fresh r hr
    obtain ⟨rfl, hcount⟩ := rpushWithRetry_occurrences (hids ▸ distinct) hfresh h
    exact hcount

/-- The first attempt is executed and its reply is lost, the second is answered. -/
def firstReplyLost : ℕ → Attempt
  | 0 => .lost true
  | _ => .answered

/-- **Exactly once fails** under a lost reply: the returned job stands in the list twice. -/
theorem enqueue_not_exactly_once :
    ¬ ∀ (retries : ℕ) (pattern : ℕ → Attempt) (queue queue' : ListKey (Job Unit)) (uuid : ℕ)
        (now : ℚ) (job : Job Unit),
      (QueueService.plain 1 60 sixty_pos).occurrences queue uuid = 0 →
      (QueueService.plain 1 60 sixty_pos).enqueueWithRetry retries pattern uuid now "sample" ()
        queue = (some job, queue') →
      (QueueService.plain 1 60 sixty_pos).occurrences queue' job.id = 1 := by
  intro h
  have hone := h 3 firstReplyLost .missing _ 7 0 _ rfl rfl
  revert hone
  decide +kernel

/-- A batch of two jobs whose first reply is lost. -/
theorem enqueue_at_least_once_batch :
    ∃ (queue' : ListKey (Job Unit)) (jobs : List (Job Unit)),
      (QueueService.plain 1 60 sixty_pos).enqueueManyWithRetry 3 firstReplyLost [(7, 0), (8, 0)]
        "sample" () .missing = (some jobs, queue') ∧
      queue'.items.map Job.id = [7, 8, 7, 8] ∧
      ∀ job ∈ jobs, (QueueService.plain 1 60 sixty_pos).occurrences queue' job.id =
        lostExecutions 3 firstReplyLost + 1 ∧ lostExecutions 3 firstReplyLost ≤ 3 :=
  ⟨_, _, rfl, by decide +kernel,
    enqueue_at_least_once.2 [(7, 0), (8, 0)] _ (by decide) (by decide +kernel) rfl⟩

end FinOpsPipeline
