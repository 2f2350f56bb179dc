import FinOpsPipeline.Foundations.TransitionSystem
import FinOpsPipeline.Foundations.Redis
import FinOpsPipeline.Queue.Ledger
import Mathlib.Logic.Function.Basic
import Mathlib.Tactic.NormNum

/-!
The job queue of `apps/sample-fastapi/queue_service.py`: any number of clients
that run the methods of `QueueService` against one Redis server, interleaved at
the level of single commands and `MULTI`/`EXEC` transactions.

* `Job`, `QueueService`: a job and the configuration every client shares, with
  the JSON serialisation of jobs as its `dumps` and `loads`.
* `Store`: the Redis keys of one queue; `World`: the store, the common clock,
  the point each client has reached (`Task`), the identifiers given out by
  `uuid4` and the history of the queue.
* `Act`: what can happen next. The clock advances, a client that is free calls
  a method, or a client inside a method issues its next command. A client that
  is never scheduled again is one that stopped forever.
* `World.step`: the effect, one branch for each command of the source.
-/

namespace FinOpsPipeline

/-! ### Jobs and the configuration of the service -/

/-- A job as `_new_job` builds it, with the two fields a failure adds. -/
structure Job (P : Type) where
  id : ℕ
  type : String
  payload : P
  enqueuedAt : ℚ
  attempts : ℕ
  lastError : Option String
  lastFailedAt : Option ℚ
  deriving DecidableEq

/-- `QueueService.__init__`: the settings all clients share. The positivity of
the two durations and `max_retries ≥ 0` are checked by `Settings.__post_init__`.
`dumps` and `loads` are the JSON serialisation, `lex` is the byte order by which
Redis breaks ties between members of equal score. -/
structure QueueService (P R : Type) where
  dumps : Job P → R
  loads : R → Job P
  loads_dumps : ∀ job, loads (dumps job) = job
  lex : R → R → Bool
  maxRetries : ℕ
  visibilityTimeoutSeconds : ℚ
  completedTtlSeconds : ℚ
  visibilityTimeout_pos : 0 < visibilityTimeoutSeconds
  completedTtl_pos : 0 < completedTtlSeconds

/-- Where `retry_or_dead_letter` sends a failed job. -/
inductive Destination where
  | queue | deadLetter
  deriving DecidableEq

/-- The three counters `recover_stale` returns. -/
structure Recovered where
  retried : ℕ
  deadLettered : ℕ
  alreadyCompleted : ℕ
  deriving DecidableEq

/-- Who called `retry_or_dead_letter`: the worker that failed the job, or
`recover_stale` with the stale values still to visit and its counters. -/
inductive Caller (R : Type) where
  | worker
  | recovery (todo : List R) (result : Recovered)

/-- The arguments of one `retry_or_dead_letter` call and the time it read. -/
structure RetryCall (R : Type) where
  raw : R
  reason : String
  failedAt : ℚ
  caller : Caller R

/-- What the last method call of a client returned. -/
inductive Reply (P : Type) where
  /-- No method was called yet, or it raised an error. -/
  | nothing
  /-- `enqueue`, `enqueue_many`: the jobs. -/
  | enqueued (jobs : List (Job P))
  /-- `reserve`: `None`. -/
  | noJob
  /-- `acknowledge`: whether an entry was removed. -/
  | acknowledged (removed : Bool)
  /-- `retry_or_dead_letter`: `"retry"`, `"dead-letter"`, or `none` for `"missing"`. -/
  | failed (outcome : Option Destination)
  /-- `ensure_processing_leases`: the number of leases added. -/
  | ensured (added : ℕ)
  /-- `recover_stale`: its counters. -/
  | recovered (result : Recovered)
  /-- `clear`: the number of entries before. -/
  | cleared (currentLength : ℕ)

/-- The point a client has reached: the command it issues next and the local
variables it needs for it. -/
inductive Task (P R : Type) where
  /-- Outside every method and without a reservation. -/
  | idle (last : Reply P)
  /-- `enqueue`, `enqueue_many`: the jobs are built, `RPUSH` is next. -/
  | enqueueRpush (jobs : List (Job P))
  /-- `reserve`: the entry is moved, the clock is read next. -/
  | reserveNow (raw : R)
  /-- `reserve`: `ZADD` is next. -/
  | reserveZadd (raw : R) (leaseDeadline : ℚ)
  /-- `reserve` returned; the worker processes the job. -/
  | holding (raw : R)
  /-- `acknowledge` or `retry_or_dead_letter` returned for this reservation. -/
  | released (raw : R) (last : Reply P)
  /-- `retry_or_dead_letter`: `WATCH` is next. -/
  | retryWatch (call : RetryCall R)
  /-- `retry_or_dead_letter`: `LPOS` is next, under a `WATCH` at this version. -/
  | retryLpos (call : RetryCall R) (seen : ℕ)
  /-- `retry_or_dead_letter`: `EXEC` is next, under a `WATCH` at this version. -/
  | retryExec (call : RetryCall R) (seen : ℕ)
  /-- `retry_or_dead_letter`: the entry is missing, `ZREM` is next. -/
  | retryZrem (call : RetryCall R)
  /-- `ensure_processing_leases`: `LRANGE` is next; `scan` tells whether
  `recover_stale` is the caller. -/
  | ensureLrange (scan : Bool) (now : ℚ)
  /-- `ensure_processing_leases`: `ZSCORE` of `raw` is next. -/
  | ensureZscore (scan : Bool) (now : ℚ) (added : ℕ) (raw : R) (todo : List R)
  /-- `ensure_processing_leases`: `ZADD NX` of `raw` is next. -/
  | ensureZadd (scan : Bool) (now : ℚ) (added : ℕ) (raw : R) (todo : List R)
  /-- `recover_stale`: `ZRANGEBYSCORE` is next. -/
  | recoverZrange (now : ℚ)
  /-- `recover_stale`: `EXISTS` of the completed marker of `raw` is next. -/
  | recoverExists (raw : R) (todo : List R) (result : Recovered)
  /-- `recover_stale` calls `retry_or_dead_letter`: the clock is read next. -/
  | recoverFail (raw : R) (todo : List R) (result : Recovered)
  /-- `recover_stale`: the transaction for a completed job is next. -/
  | recoverDrop (raw : R) (todo : List R) (result : Recovered)
  /-- `clear`: `LLEN` of the pending list is next. -/
  | clearLength
  /-- `clear`: `LLEN` of the processing list is next. -/
  | clearProcessingLength (current : ℕ)
  /-- `clear`: `LLEN` of the dead letters is next. -/
  | clearDeadLetterLength (current : ℕ)
  /-- `clear`: the `SCAN` over the completed markers is going on. -/
  | clearScan (current : ℕ) (completedKeys : List ℕ)

/-- The Redis keys of one queue. -/
structure Store (R : Type) where
  queue : ListKey R
  processing : ListKey R
  deadLetter : ListKey R
  leases : ZSet R
  completed : Expiring ℕ

/-- The server, the clock all processes read, the clients of type `C`, and what
happened so far: the identifiers `uuid4` gave out and the history. -/
structure World (C P R : Type) where
  store : Store R
  clock : ℚ
  task : C → Task P R
  issued : List ℕ
  log : List (Event R)

/-- What can happen next. -/
inductive Act (C P : Type) where
  /-- Time passes. -/
  | tick (now : ℚ)
  /-- A client calls `enqueue`; `uuid` is what `uuid4` answers. -/
  | enqueue (c : C) (uuid : ℕ) (jobType : String) (payload : P)
  /-- A client calls `enqueue_many`; each job has its own `uuid4` answer and clock reading. -/
  | enqueueMany (c : C) (readings : List (ℕ × ℚ)) (jobType : String) (payload : P)
  /-- A client calls `reserve`. -/
  | reserve (c : C)
  /-- A client with a reservation calls `acknowledge`. -/
  | acknowledge (c : C)
  /-- A client with a reservation calls `retry_or_dead_letter`. -/
  | retryOrDeadLetter (c : C) (reason : String)
  /-- A client calls `ensure_processing_leases`. -/
  | ensureProcessingLeases (c : C) (nowTimestamp : ℚ)
  /-- A client calls `recover_stale`, with or without an explicit time. -/
  | recoverStale (c : C) (nowTimestamp : Option ℚ)
  /-- A client calls `clear`. -/
  | clear (c : C)
  /-- One reply of `SCAN` inside `clear`. -/
  | scanReply (c : C) (keys : List ℕ)
  /-- A client inside a method issues its next command. -/
  | next (c : C)

namespace QueueService

variable {P R : Type} (svc : QueueService P R)

/-- `_new_job`. -/
def newJob (uuid : ℕ) (jobType : String) (payload : P) (now : ℚ) : Job P where
  id := uuid
  type := jobType
  payload := payload
  enqueuedAt := now
  attempts := 0
  lastError := none
  lastFailedAt := none

/-- The job `retry_or_dead_letter` writes back. -/
def failedJob (job : Job P) (reason : String) (now : ℚ) : Job P :=
  { job with
    attempts := job.attempts + 1
    lastError := some (String.ofList (reason.toList.take 200))
    lastFailedAt := some now }

/-- `updated_raw`. -/
def updatedRaw (call : RetryCall R) : R :=
  svc.dumps (failedJob (svc.loads call.raw) call.reason call.failedAt)

/-- `destination`. -/
def destination (call : RetryCall R) : Destination :=
  if (failedJob (svc.loads call.raw) call.reason call.failedAt).attempts ≤ svc.maxRetries then
    .queue
  else .deadLetter

/-- The identifier in a raw entry. -/
def idOf (raw : R) : ℕ := (svc.loads raw).id

end QueueService

namespace Task

variable {P R : Type}

/-- A client that is outside every method and not processing a job. -/
def Free : Task P R → Prop
  | idle _ | released _ _ => True
  | _ => False

instance (t : Task P R) : Decidable t.Free := by
  cases t <;> unfold Free <;> infer_instance

/-- The reservation a client can pass to `acknowledge` or `retry_or_dead_letter`. -/
def reservation : Task P R → Option R
  | holding raw | released raw _ => some raw
  | _ => none

/-- The next iteration of `for raw in lrange(...)`, or the return of
`ensure_processing_leases` to its caller. -/
def ensureNext (scan : Bool) (now : ℚ) (added : ℕ) : List R → Task P R
  | raw :: todo => .ensureZscore scan now added raw todo
  | [] => if scan then .recoverZrange now else .idle (.ensured added)

/-- The next iteration of `for raw in stale_raw_values`, or the return of `recover_stale`. -/
def recoverNext (result : Recovered) : List R → Task P R
  | raw :: todo => .recoverExists raw todo result
  | [] => .idle (.recovered result)

/-- The return of `retry_or_dead_letter` to its caller; `outcome` is `none` for `"missing"`. -/
def retryReturn (call : RetryCall R) (outcome : Option Destination) : Task P R :=
  match call.caller, outcome with
  | .worker, outcome => .released call.raw (.failed outcome)
  | .recovery todo result, none => recoverNext result todo
  | .recovery todo result, some .queue =>
      recoverNext { result with retried := result.retried + 1 } todo
  | .recovery todo result, some .deadLetter =>
      recoverNext { result with deadLettered := result.deadLettered + 1 } todo

end Task

/-- Who runs a `retry_or_dead_letter` call. -/
def RetryCall.origin {R : Type} (call : RetryCall R) : Origin :=
  match call.caller with
  | .worker => .worker
  | .recovery _ _ => .recovery

namespace World

variable {C P R : Type} [DecidableEq C] [DecidableEq R] (svc : QueueService P R)

/-- The queue when nothing has happened yet and the clock reads `now`. -/
def start (now : ℚ) : World C P R where
  store := ⟨.missing, .missing, .missing, ∅, .none⟩
  clock := now
  task := fun _ => .idle .nothing
  issued := []
  log := []

/-- The client `c` reaches the point `t`. -/
def goto (w : World C P R) (c : C) (t : Task P R) : World C P R :=
  { w with task := Function.update w.task c t }

/-- The `RPUSH` of `enqueue` and `enqueue_many`; without values it is an error. -/
def rpush (w : World C P R) (c : C) (jobs : List (Job P)) : World C P R :=
  match jobs with
  | [] => w.goto c (.idle .nothing)
  | _ :: _ =>
      { w with
        store := { w.store with queue := w.store.queue.rpush (jobs.map svc.dumps) }
        task := Function.update w.task c (.idle (.enqueued jobs))
        log := .pushed (jobs.map svc.dumps) :: w.log }

/-- The `LMOVE` or `BLMOVE` of `reserve`. -/
def lmove (w : World C P R) (c : C) : World C P R :=
  match w.store.queue.items with
  | [] => w.goto c (.idle .noJob)
  | raw :: _ =>
      { w with
        store := { w.store with
          queue := w.store.queue.lpop
          processing := w.store.processing.rpush [raw] }
        task := Function.update w.task c (.reserveNow raw)
        log := .moved raw w.clock :: w.log }

/-- The transaction of `acknowledge`. -/
def ack (w : World C P R) (c : C) (raw : R) : World C P R :=
  { w with
    store := { w.store with
      completed := w.store.completed.set (svc.idOf raw) w.clock svc.completedTtlSeconds
      processing := w.store.processing.lrem raw
      leases := w.store.leases.zrem raw }
    task := Function.update w.task c
      (.released raw (.acknowledged (raw ∈ w.store.processing.items)))
    log := .acked raw :: w.log }

/-- The transaction of `retry_or_dead_letter`, when `EXEC` succeeds. -/
def retry (w : World C P R) (c : C) (call : RetryCall R) : World C P R :=
  { w with
    store := match svc.destination call with
      | .queue => { w.store with
          processing := w.store.processing.lrem call.raw
          leases := w.store.leases.zrem call.raw
          queue := w.store.queue.rpush [svc.updatedRaw call] }
      | .deadLetter => { w.store with
          processing := w.store.processing.lrem call.raw
          leases := w.store.leases.zrem call.raw
          deadLetter := w.store.deadLetter.rpush [svc.updatedRaw call] }
    task := Function.update w.task c (.retryReturn call (some (svc.destination call)))
    log := .requeued call.raw (svc.updatedRaw call) call.origin w.clock :: w.log }

/-- The transaction of `recover_stale` for a job that is already completed. -/
def drop (w : World C P R) (c : C) (raw : R) (todo : List R) (result : Recovered) :
    World C P R :=
  { w with
    store := { w.store with
      processing := w.store.processing.lrem raw
      leases := w.store.leases.zrem raw }
    task := Function.update w.task c
      (.recoverNext { result with alreadyCompleted := result.alreadyCompleted + 1 } todo)
    log := .dropped raw w.clock :: w.log }

/-- The `DELETE` of `clear`. -/
def delete (w : World C P R) (c : C) (current : ℕ) (completedKeys : List ℕ) : World C P R :=
  { w with
    store :=
      { queue := w.store.queue.del
        processing := w.store.processing.del
        deadLetter := w.store.deadLetter.del
        leases := ∅
        completed := w.store.completed.del completedKeys }
    task := Function.update w.task c (.idle (.cleared current))
    log := .cleared :: w.log }

/-- A step that changes the leases only. -/
def withLeases (w : World C P R) (c : C) (leases : ZSet R) (t : Task P R) : World C P R :=
  { w with store := { w.store with leases := leases }, task := Function.update w.task c t }

/-- The next command of a client inside a method. -/
def next (w : World C P R) (c : C) : Option (World C P R) :=
  match w.task c with
  | .idle _ | .holding _ | .released _ _ => none
  | .enqueueRpush jobs => some (w.rpush svc c jobs)
  | .reserveNow raw =>
      some (w.goto c (.reserveZadd raw (w.clock + svc.visibilityTimeoutSeconds)))
  | .reserveZadd raw leaseDeadline =>
      some (w.withLeases c (w.store.leases.zadd raw leaseDeadline) (.holding raw))
  | .retryWatch call => some (w.goto c (.retryLpos call w.store.processing.version))
  | .retryLpos call seen =>
      if call.raw ∈ w.store.processing.items then some (w.goto c (.retryExec call seen))
      else some (w.goto c (.retryZrem call))
  | .retryExec call seen =>
      if w.store.processing.version = seen then some (w.retry svc c call)
      else some (w.goto c (.retryWatch call))
  | .retryZrem call =>
      some (w.withLeases c (w.store.leases.zrem call.raw) (.retryReturn call none))
  | .ensureLrange scan now =>
      some (w.goto c (.ensureNext scan now 0 w.store.processing.items))
  | .ensureZscore scan now added raw todo =>
      match w.store.leases.zscore raw with
      | none => some (w.goto c (.ensureZadd scan now added raw todo))
      | some _ => some (w.goto c (.ensureNext scan now added todo))
  | .ensureZadd scan now added raw todo =>
      some (w.withLeases c
        (w.store.leases.zaddNX raw (now + svc.visibilityTimeoutSeconds))
        (.ensureNext scan now (added + 1) todo))
  | .recoverZrange now =>
      some (w.goto c (.recoverNext ⟨0, 0, 0⟩ (w.store.leases.rangeByScore svc.lex now)))
  | .recoverExists raw todo result =>
      if w.store.completed.live (svc.idOf raw) w.clock then
        some (w.goto c (.recoverDrop raw todo result))
      else some (w.goto c (.recoverFail raw todo result))
  | .recoverFail raw todo result =>
      some (w.goto c (.retryWatch
        ⟨raw, "visibility timeout exceeded", w.clock, .recovery todo result⟩))
  | .recoverDrop raw todo result => some (w.drop c raw todo result)
  | .clearLength => some (w.goto c (.clearProcessingLength w.store.queue.items.length))
  | .clearProcessingLength current =>
      some (w.goto c (.clearDeadLetterLength (current + w.store.processing.items.length)))
  | .clearDeadLetterLength current =>
      some (w.goto c (.clearScan (current + w.store.deadLetter.items.length) []))
  | .clearScan current completedKeys => some (w.delete c current completedKeys)

/-- One step of the system; `none` when it cannot happen now. -/
def step (w : World C P R) : Act C P → Option (World C P R)
  | .tick now => if w.clock ≤ now then some { w with clock := now } else none
  | .enqueue c uuid jobType payload =>
      if (w.task c).Free ∧ uuid ∉ w.issued then
        some { w with
          task := Function.update w.task c
            (.enqueueRpush [QueueService.newJob uuid jobType payload w.clock])
          issued := uuid :: w.issued }
      else none
  | .enqueueMany c readings jobType payload =>
      if (w.task c).Free ∧ (readings.map Prod.fst).Nodup ∧
          ∀ reading ∈ readings, reading.1 ∉ w.issued then
        some { w with
          task := Function.update w.task c (.enqueueRpush
            (readings.map fun r => QueueService.newJob r.1 jobType payload r.2))
          issued := readings.map Prod.fst ++ w.issued }
      else none
  | .reserve c => if (w.task c).Free then some (w.lmove c) else none
  | .acknowledge c => (w.task c).reservation.map (w.ack svc c)
  | .retryOrDeadLetter c reason =>
      (w.task c).reservation.map fun raw =>
        w.goto c (.retryWatch ⟨raw, reason, w.clock, .worker⟩)
  | .ensureProcessingLeases c nowTimestamp =>
      if (w.task c).Free then some (w.goto c (.ensureLrange false nowTimestamp)) else none
  | .recoverStale c nowTimestamp =>
      if (w.task c).Free then
        some (w.goto c (.ensureLrange true (nowTimestamp.getD w.clock)))
      else none
  | .clear c => if (w.task c).Free then some (w.goto c .clearLength) else none
  | .scanReply c keys =>
      match w.task c with
      | .clearScan current completedKeys =>
          if ∀ k ∈ keys, w.store.completed.live k w.clock then
            some (w.goto c (.clearScan current (completedKeys ++ keys)))
          else none
      | _ => none
  | .next c => w.next svc c

end World

lemma sixty_pos : (0 : ℚ) < 60 := by norm_num

/-- The service whose serialised entries are the jobs themselves. -/
def QueueService.plain {P : Type} (maxRetries : ℕ) (visibilityTimeoutSeconds : ℚ)
    (h : 0 < visibilityTimeoutSeconds) : QueueService P (Job P) where
  dumps := id
  loads := id
  loads_dumps := fun _ => rfl
  lex := fun a b => a.id ≤ b.id
  maxRetries := maxRetries
  visibilityTimeoutSeconds := visibilityTimeoutSeconds
  completedTtlSeconds := 86400
  visibilityTimeout_pos := h
  completedTtl_pos := by norm_num

/-- The system: the queue is empty at first, whatever the clock reads. -/
def QueueService.system {P R : Type} (C : Type) [DecidableEq C] [DecidableEq R]
    (svc : QueueService P R) : System (World C P R) (Act C P) where
  init := fun w => ∃ now, w = .start now
  step := fun w a => w.step svc a

end FinOpsPipeline
