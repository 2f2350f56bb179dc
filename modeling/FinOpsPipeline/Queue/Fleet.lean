import FinOpsPipeline.Foundations.PyFloat
import FinOpsPipeline.Queue.Worker

/-!
The programs around the job queue: any number of the workers of
`apps/sample-fastapi/worker.py` and of requests to `main.py`, over one queue.

A worker runs `run_once` again and again. It is a client of the queue service; when a command
raises a `RedisError` outside the handling of its job, or the process is started anew, it goes on
as a new client, and the old one is never heard of again.

* `QueueWorker`: the settings of a worker; `QueueWorker.processJob`: the handler of a job.
* `Point`, `Worker`: what a worker is about to do, its counters and its client.
* `State`, `step`: the queue with its workers, one command of one of them at a time.
* `Execution`: what becomes of the handlers.
* `run_world`: the queue of a fleet is a run of the queue service.
* `linked`: what the client of a worker is doing, by the point of the worker.
-/

namespace FinOpsPipeline

/-! ### The handler -/

/-- The settings of `QueueWorker`. `requestedSeconds` is what `float` makes of the
`processing_seconds` of a payload, or the exception it raises, and `none` without one. -/
structure QueueWorker (P : Type) where
  processingSeconds : ℚ
  jobTimeoutSeconds : ℚ
  recoveryIntervalSeconds : ℚ
  requestedSeconds : P → Option (Except String PyFloat)

/-- `QueueWorker.__init__`. -/
def QueueWorker.init {P : Type} (processingSeconds jobTimeoutSeconds recoveryIntervalSeconds : ℚ)
    (requestedSeconds : P → Option (Except String PyFloat)) : QueueWorker P where
  processingSeconds := max 0 processingSeconds
  jobTimeoutSeconds := max (1 / 100) jobTimeoutSeconds
  recoveryIntervalSeconds := max (1 / 100) recoveryIntervalSeconds
  requestedSeconds := requestedSeconds

/-- `process_job`: the seconds that it sleeps, or the name of the exception that it raises. -/
def QueueWorker.processJob {P : Type} (q : QueueWorker P) (job : Job P) : Except String ℚ := do
  let requested ← (q.requestedSeconds job.payload).getD (.ok (.fin q.processingSeconds))
  let seconds := requested.pyMax (.fin 0)
  if (PyFloat.fin q.jobTimeoutSeconds).lt seconds then throw "TimeoutError"
  match seconds with
  | .fin seconds => return seconds
  -- `time.sleep` refuses what is not a number
  | .inf _ => throw "OverflowError"
  | .nan => throw "ValueError"

/-! ### Workers -/

namespace Fleet

/-- What a worker does next. -/
inductive Point (R : Type) where
  /-- `run`: `run_once` is called. -/
  | top
  /-- `recover_stale` goes on; the monotonic clock read `now` before. -/
  | recovering (now : ℚ)
  /-- `reserve` is called. -/
  | reserve
  /-- `reserve` goes on. -/
  | reserving
  /-- The length of the empty queue is read. -/
  | idling
  /-- `is_completed`. -/
  | checking (raw : R)
  /-- `acknowledge` for a job that is already completed. -/
  | discarding (raw : R)
  /-- `process_job`, since the given time. -/
  | processing (raw : R) (startedAt : ℚ)
  /-- `acknowledge` after `process_job`. -/
  | acknowledging (raw : R)
  /-- An exception is caught, `retry_or_dead_letter` is called. -/
  | failing (raw : R) (reason : String)
  /-- `retry_or_dead_letter` goes on. -/
  | retrying
  /-- The lengths of the lists are read at the end. -/
  | finishing
  deriving DecidableEq

/-- `QUEUE_PROCESSED_TOTAL`, `QUEUE_FAILED_TOTAL`, `QUEUE_RETRY_TOTAL`,
`QUEUE_DEAD_LETTER_TOTAL` and `QUEUE_RECOVERED_TOTAL` of a worker. -/
structure Counters where
  processed : ℕ
  failed : ℕ
  retried : ℕ
  deadLettered : ℕ
  recovered : ℕ
  deriving DecidableEq

namespace Counters

/-- The counters after `recover_stale`. -/
def recover (k : Counters) (result : Recovered) : Counters :=
  { k with
    retried := k.retried + result.retried
    deadLettered := k.deadLettered + result.deadLettered
    recovered := k.recovered + result.retried + result.deadLettered }

/-- The counters after `retry_or_dead_letter`. -/
def retry (k : Counters) : Option Destination → Counters
  | some .queue => { k with retried := k.retried + 1 }
  | some .deadLetter => { k with deadLettered := k.deadLettered + 1 }
  | none => k

/-- `QUEUE_FAILED_TOTAL.inc()`. -/
def fail (k : Counters) : Counters := { k with failed := k.failed + 1 }

/-- `QUEUE_PROCESSED_TOTAL.inc()`. -/
def process (k : Counters) : Counters := { k with processed := k.processed + 1 }

end Counters

/-- A worker process. Its client of the queue service is that of the current `session`. -/
structure Worker (R : Type) where
  point : Point R
  session : ℕ
  lastRecoveryAt : ℚ
  counters : Counters
  deriving DecidableEq

variable {W E C P R : Type}

/-- A worker that has just been started. -/
def Worker.start (session : ℕ) : Worker R := ⟨.top, session, 0, ⟨0, 0, 0, 0, 0⟩⟩

/-- The step of the queue service that a worker takes at a point. -/
def Point.act (c : C) : Point R → Option (Act C P)
  | .recovering _ | .reserving | .retrying => some (.next c)
  | .reserve => some (.reserve c)
  | .discarding _ | .acknowledging _ => some (.acknowledge c)
  | .failing _ reason => some (.retryOrDeadLetter c reason)
  | .top | .idling | .checking _ | .processing _ _ | .finishing => none

namespace Worker

/-- `run_once` goes on in the state `v` of the queue, with its client at `t`. -/
def proceed (svc : QueueService P R) (q : QueueWorker P) (m : Worker R) (v : World C P R)
    (t : Task P R) : Option (Worker R) :=
  match m.point with
  | .top => none
  | .recovering now =>
      match t with
      | .idle (.recovered result) => some { m with
          point := .reserve, lastRecoveryAt := now, counters := m.counters.recover result }
      | _ => some m
  | .reserve =>
      match t with
      | .reserveNow _ => some { m with point := .reserving }
      | _ => some { m with point := .idling }
  | .idling => some { m with point := .top }
  | .reserving =>
      match t with
      | .holding raw => some { m with point := .checking raw }
      | _ => some m
  | .checking raw =>
      if v.store.completed.live (svc.idOf raw) v.clock then
        some { m with point := .discarding raw }
      else some { m with point := .processing raw v.clock }
  | .discarding _ => some { m with point := .top }
  | .processing raw startedAt =>
      match q.processJob (svc.loads raw) with
      | .ok seconds =>
          if startedAt + seconds ≤ v.clock then some { m with point := .acknowledging raw }
          else none
      | .error reason =>
          some { m with point := .failing raw reason, counters := m.counters.fail }
  | .acknowledging _ => some { m with point := .finishing, counters := m.counters.process }
  | .failing _ _ => some { m with point := .retrying }
  | .retrying =>
      match t with
      | .released _ (.failed outcome) =>
          some { m with point := .finishing, counters := m.counters.retry outcome }
      | _ => some m
  | .finishing => some { m with point := .top }

/-- A command of the worker raises a `RedisError`. That of `acknowledge` is handled like an
exception of the job; the others are left to `run`. -/
def raised (m : Worker R) (exception : String) : Option (Worker R) :=
  match m.point with
  | .top | .processing _ _ | .failing _ _ => none
  | .acknowledging raw =>
      some { m with point := .failing raw exception, counters := m.counters.fail }
  | _ => some { m with point := .top, session := m.session + 1, counters := m.counters.fail }

end Worker

/-! ### The fleet -/

/-- The clients of the queue service: the sessions of the workers, and the requests. -/
abbrev Client (W E : Type) := (W × ℕ) ⊕ E

/-- The queue and the workers. -/
structure State (W E P R : Type) where
  world : World (Client W E) P R
  worker : W → Worker R

/-- A request to `main.py`, or its next command. -/
inductive Request (P : Type) where
  | joinQueue (uuid : ℕ) (jobType : String) (payload : P)
  | bulkJoinQueue (readings : List (ℕ × ℚ)) (jobType : String) (payload : P)
  | processQueue
  | resetQueue
  | scanReply (keys : List ℕ)
  | next

/-- The step of the queue service. `dequeue` acknowledges what it has reserved. -/
def Request.act (e : C) (t : Task P R) : Request P → Act C P
  | .joinQueue uuid jobType payload => .enqueue e uuid jobType payload
  | .bulkJoinQueue readings jobType payload => .enqueueMany e readings jobType payload
  | .processQueue => .reserve e
  | .resetQueue => .clear e
  | .scanReply keys => .scanReply e keys
  | .next =>
      match t with
      | .holding _ => .acknowledge e
      | _ => .next e

/-- What can happen next: time passes, a request goes on, a worker calls `run_once` with a reading
of the monotonic clock, goes on, has a command that fails, with or without its effect, or is
started anew. -/
inductive Label (W E P : Type) where
  | tick (now : ℚ)
  | request (e : E) (r : Request P)
  | runOnce (w : W) (monotonic : ℚ)
  | go (w : W)
  | lost (w : W) (effect : Bool) (exception : String)
  | restart (w : W)

namespace State

/-- The client of a worker. -/
def client (s : State W E P R) (w : W) : Client W E := .inl (w, (s.worker w).session)

/-- What the client of a worker is doing. -/
def task (s : State W E P R) (w : W) : Task P R := s.world.task (s.client w)

/-- The fleet over an empty queue, before any of the workers does anything. -/
def start (now : ℚ) : State W E P R := ⟨.start now, fun _ => .start 0⟩

end State

/-- What becomes of the handler of a job. -/
inductive Execution (W R : Type) where
  | started (w : W) (raw : R)
  | returned (w : W) (raw : R)
  | raised (w : W) (raw : R) (reason : String)
  deriving DecidableEq

section Steps

variable [DecidableEq W] [DecidableEq E] [DecidableEq R] (svc : QueueService P R)
  (q : QueueWorker P)

/-- The step of the queue service behind a label. -/
def act (s : State W E P R) : Label W E P → Option (Act (Client W E) P)
  | .tick now => some (.tick now)
  | .request e r => some (r.act (.inr e) (s.world.task (.inr e)))
  | .runOnce w monotonic =>
      if monotonic - (s.worker w).lastRecoveryAt < q.recoveryIntervalSeconds then none
      else some (.recoverStale (s.client w) none)
  | .go w => (s.worker w).point.act (s.client w)
  | .lost w effect _ => if effect then (s.worker w).point.act (s.client w) else none
  | .restart _ => none

/-- The workers after a label, in the state `v` of the queue that it leads to. -/
def workers (s : State W E P R) (v : World (Client W E) P R) :
    Label W E P → Option (W → Worker R)
  | .tick _ | .request _ _ => some s.worker
  | .runOnce w monotonic =>
      match (s.worker w).point with
      | .top => some <| Function.update s.worker w { s.worker w with
          point := if monotonic - (s.worker w).lastRecoveryAt < q.recoveryIntervalSeconds then
            .reserve else .recovering monotonic }
      | _ => none
  | .go w =>
      ((s.worker w).proceed svc q v (v.task (s.client w))).map (Function.update s.worker w)
  | .lost w _ exception => ((s.worker w).raised exception).map (Function.update s.worker w)
  | .restart w => some (Function.update s.worker w (.start ((s.worker w).session + 1)))

/-- One step. -/
def step (s : State W E P R) (a : Label W E P) : Option (State W E P R) :=
  (match act q s a with
    | some b => s.world.step svc b
    | none => some s.world).bind fun v => (workers svc q s v a).map (State.mk v)

/-- The workers and the requests over one queue. -/
def fleet (W E : Type) [DecidableEq W] [DecidableEq E] : System (State W E P R) (Label W E P) where
  init s := ∃ now, s = .start now
  step := step svc q

/-- The handlers that a step starts or ends. -/
def executions (s : State W E P R) : Label W E P → List (Execution W R)
  | .go w =>
      match (s.worker w).point with
      | .checking raw =>
          if s.world.store.completed.live (svc.idOf raw) s.world.clock then []
          else [.started w raw]
      | .processing raw _ =>
          match q.processJob (svc.loads raw) with
          | .ok _ => [.returned w raw]
          | .error reason => [.raised w raw reason]
      | _ => []
  | _ => []

variable {svc q}

lemma step_eq {s t : State W E P R} {a : Label W E P} (h : step svc q s a = some t) :
    workers svc q s t.world a = some t.worker ∧
      ((act q s a = none ∧ t.world = s.world) ∨
        ∃ b, act q s a = some b ∧ s.world.step svc b = some t.world) := by
  rw [step] at h
  obtain ⟨v, hv, h⟩ := Option.bind_eq_some_iff.mp h
  obtain ⟨m, hm, rfl⟩ := Option.map_eq_some_iff.mp h
  refine ⟨hm, ?_⟩
  cases hact : act q s a with
  | none =>
      rw [hact] at hv
      cases hv
      exact .inl ⟨rfl, rfl⟩
  | some b =>
      rw [hact] at hv
      exact .inr ⟨b, rfl, hv⟩

/-- **The queue of a fleet is a run of the queue service**, under every guard that the steps of
the fleet meet. -/
theorem run_world {ok : State W E P R → Label W E P → Prop}
    {ok' : World (Client W E) P R → Act (Client W E) P → Prop}
    (hok : ∀ s a b, ok s a → act q s a = some b → ok' s.world b) {s : State W E P R}
    (h : (fleet svc q W E).Run ok s) : (svc.system (Client W E)).Run ok' s.world := by
  refine h.project (f := State.world) ?_ ?_
  · rintro s ⟨now, rfl⟩
    exact ⟨now, rfl⟩
  · intro s a t _ hoka hstep
    obtain ⟨-, ⟨-, hsame⟩ | ⟨b, hb, hworld⟩⟩ := step_eq hstep
    · exact .inl hsame
    · exact .inr ⟨b, hok s a b hoka hb, hworld⟩

/-! ### The clients of the workers -/

/-- The client that takes a step. -/
def client? : Act C P → Option C
  | .tick _ => none
  | .enqueue c _ _ _ | .enqueueMany c _ _ _ | .reserve c | .acknowledge c
  | .retryOrDeadLetter c _ | .ensureProcessingLeases c _ | .recoverStale c _ | .clear c
  | .scanReply c _ | .next c => some c

section World

variable [DecidableEq C] {x y : World C P R}

/-- The next command of a client moves no other client. -/
lemma next_task_of_ne {c d : C} (h : x.next svc c = some y) (hd : d ≠ c) :
    y.task d = x.task d := by
  have hgoto : ∀ t, (x.goto c t).task d = x.task d := fun t => Function.update_of_ne hd _ _
  rw [World.next] at h
  split at h
  case h_4 jobs _ =>
    cases h
    cases jobs with
    | nil => exact hgoto _
    | cons => exact Function.update_of_ne hd _ _
  all_goals first
    | cases h; done
    | cases h; exact Function.update_of_ne hd _ _
    | split at h <;> cases h <;> exact hgoto _

/-- A step moves no client but the one that takes it. -/
lemma step_task_of_ne {b : Act C P} (h : x.step svc b = some y) {d : C}
    (hd : client? b ≠ some d) : y.task d = x.task d := by
  cases b with
  | tick =>
      rw [World.step] at h
      split at h <;> cases h
      rfl
  | next c => exact next_task_of_ne h fun heq => hd (congrArg some heq.symm)
  | reserve c =>
      have hne : d ≠ c := fun heq => hd (congrArg some heq.symm)
      rw [World.step, World.lmove.eq_def] at h
      split at h
      · cases h
        split <;> exact Function.update_of_ne hne _ _
      · cases h
  | acknowledge c | retryOrDeadLetter c =>
      have hne : d ≠ c := fun heq => hd (congrArg some heq.symm)
      obtain ⟨raw, -, rfl⟩ := Option.map_eq_some_iff.mp h
      exact Function.update_of_ne hne _ _
  | scanReply c =>
      have hne : d ≠ c := fun heq => hd (congrArg some heq.symm)
      rw [World.step] at h
      split at h
      · split at h <;> cases h
        exact Function.update_of_ne hne _ _
      · cases h
  | enqueue c | enqueueMany c | ensureProcessingLeases c | recoverStale c | clear c =>
      have hne : d ≠ c := fun heq => hd (congrArg some heq.symm)
      rw [World.step] at h
      split at h <;> cases h
      exact Function.update_of_ne hne _ _

end World

/-- What the client of a worker is doing, by the point of the worker. -/
def Linked : Point R → Task P R → Prop
  | .top, t | .reserve, t | .idling, t | .finishing, t => t.Free
  | .reserving, t => ∃ raw, t = .reserveNow raw ∨ ∃ deadline, t = .reserveZadd raw deadline
  | .checking raw, t | .discarding raw, t | .processing raw _, t | .acknowledging raw, t =>
      t = .holding raw
  | .failing raw _, t => t.reservation = some raw
  | .recovering _, _ | .retrying, _ => True

section Link

variable [DecidableEq C] {x y : World C P R} {c : C}

lemma task_reserve (h : x.step svc (.reserve c) = some y) :
    (∃ raw, y.task c = .reserveNow raw) ∨ y.task c = .idle .noJob := by
  rw [World.step, World.lmove.eq_def] at h
  split at h
  · cases h
    split
    · exact .inr (Function.update_self _ _ _)
    · exact .inl ⟨_, Function.update_self _ _ _⟩
  · cases h

lemma task_reserving {raw : R} (h : x.next svc c = some y)
    (ht : x.task c = .reserveNow raw ∨ ∃ deadline, x.task c = .reserveZadd raw deadline) :
    (∃ deadline, y.task c = .reserveZadd raw deadline) ∨ y.task c = .holding raw := by
  rw [World.next] at h
  rcases ht with ht | ⟨deadline, ht⟩
  · rw [ht] at h
    cases h
    exact .inl ⟨_, Function.update_self _ _ _⟩
  · rw [ht] at h
    cases h
    exact .inr (Function.update_self _ _ _)

lemma task_acknowledge {raw : R} (h : x.step svc (.acknowledge c) = some y)
    (ht : x.task c = .holding raw) : ∃ reply, y.task c = .released raw reply := by
  obtain ⟨raw', hraw, rfl⟩ := Option.map_eq_some_iff.mp h
  rw [ht] at hraw
  cases hraw
  exact ⟨_, Function.update_self _ _ _⟩

/-- A worker that goes on stays linked to its client. -/
lemma linked_proceed {m m' : Worker R} (hlinked : Linked m.point (x.task c))
    (hstep : (m.point.act c = (none : Option (Act C P)) ∧ y = x) ∨
      ∃ b, m.point.act c = some b ∧ x.step svc b = some y)
    (h : m.proceed svc q y (y.task c) = some m') :
    m'.session = m.session ∧ Linked m'.point (y.task c) := by
  obtain ⟨point, session, lastRecoveryAt, counters⟩ := m
  cases point with
  | top => cases h
  | recovering now =>
      simp only [Worker.proceed] at h
      split at h
      · rename_i heq
        cases h
        exact ⟨rfl, heq ▸ trivial⟩
      · cases h
        exact ⟨rfl, trivial⟩
  | reserve =>
      obtain ⟨hnone, -⟩ | ⟨b, hb, hy⟩ := hstep
      · cases hnone
      cases hb
      simp only [Worker.proceed] at h
      rcases task_reserve hy with ⟨raw, ht⟩ | ht
      · rw [ht] at h ⊢
        cases h
        exact ⟨rfl, raw, .inl rfl⟩
      · rw [ht] at h ⊢
        cases h
        exact ⟨rfl, trivial⟩
  | idling | finishing =>
      obtain ⟨-, rfl⟩ | ⟨b, hb, -⟩ := hstep
      · cases h
        exact ⟨rfl, hlinked⟩
      · cases hb
  | reserving =>
      obtain ⟨hnone, -⟩ | ⟨b, hb, hy⟩ := hstep
      · cases hnone
      cases hb
      obtain ⟨raw, hraw⟩ := hlinked
      simp only [Worker.proceed] at h
      rcases task_reserving hy hraw with ⟨deadline, ht⟩ | ht
      · rw [ht] at h ⊢
        cases h
        exact ⟨rfl, raw, .inr ⟨deadline, rfl⟩⟩
      · rw [ht] at h ⊢
        cases h
        exact ⟨rfl, rfl⟩
  | checking raw =>
      obtain ⟨-, rfl⟩ | ⟨b, hb, -⟩ := hstep
      · simp only [Worker.proceed] at h
        split at h <;> cases h <;> exact ⟨rfl, hlinked⟩
      · cases hb
  | processing raw startedAt =>
      obtain ⟨-, rfl⟩ | ⟨b, hb, -⟩ := hstep
      · simp only [Worker.proceed] at h
        split at h
        · split at h <;> cases h
          exact ⟨rfl, hlinked⟩
        · cases h
          exact ⟨rfl, by rw [Linked, show y.task c = .holding raw from hlinked]; rfl⟩
      · cases hb
  | discarding raw | acknowledging raw =>
      obtain ⟨hnone, -⟩ | ⟨b, hb, hy⟩ := hstep
      · cases hnone
      cases hb
      obtain ⟨reply, ht⟩ := task_acknowledge hy hlinked
      cases h
      exact ⟨rfl, by rw [ht]; trivial⟩
  | failing raw reason =>
      cases h
      exact ⟨rfl, trivial⟩
  | retrying =>
      simp only [Worker.proceed] at h
      split at h
      · rename_i heq
        cases h
        exact ⟨rfl, heq ▸ trivial⟩
      · cases h
        exact ⟨rfl, trivial⟩

end Link

/-- The worker that a label is about. -/
def Label.worker? : Label W E P → Option W
  | .tick _ | .request _ _ => none
  | .runOnce w _ | .go w | .lost w _ _ | .restart w => some w

omit [DecidableEq W] [DecidableEq E] [DecidableEq R] in
lemma client_act {s : State W E P R} {a : Label W E P} {b : Act (Client W E) P}
    (h : act q s a = some b) {w : W} {n : ℕ} (hb : client? b = some (.inl (w, n))) :
    a.worker? = some w ∧ n = (s.worker w).session := by
  have hpoint : ∀ {w' : W} {m : Point R}, m.act (s.client w') = some b →
      w' = w ∧ n = (s.worker w).session := by
    intro w' m hm
    have hclient : client? b = some (s.client w') := by
      cases m <;> first | cases hm; done | cases hm; rfl
    rw [hclient] at hb
    cases hb
    exact ⟨rfl, rfl⟩
  cases a with
  | tick => cases h; cases hb
  | request e r =>
      cases h
      cases r with
      | next =>
          simp only [Request.act] at hb
          split at hb <;> cases hb
      | _ => cases hb
  | runOnce w' monotonic =>
      rw [act] at h
      split at h <;> cases h
      cases hb
      exact ⟨rfl, rfl⟩
  | go w' =>
      obtain ⟨rfl, hn⟩ := hpoint h
      exact ⟨rfl, hn⟩
  | lost w' effect exception =>
      rw [act] at h
      split at h
      · obtain ⟨rfl, hn⟩ := hpoint h
        exact ⟨rfl, hn⟩
      · cases h
  | restart => cases h

/-- The clients of the workers move by the steps of their workers only. -/
lemma session_task {s t : State W E P R} {a : Label W E P} (h : step svc q s a = some t) {w : W}
    {n : ℕ} (hn : a.worker? = some w → n ≠ (s.worker w).session) :
    t.world.task (.inl (w, n)) = s.world.task (.inl (w, n)) := by
  obtain ⟨-, ⟨-, hsame⟩ | ⟨b, hb, hworld⟩⟩ := step_eq h
  · rw [hsame]
  · refine step_task_of_ne hworld fun hclient => ?_
    obtain ⟨hw, heq⟩ := client_act hb hclient
    exact hn hw heq

lemma worker_of_ne {s t : State W E P R} {a : Label W E P} (h : step svc q s a = some t) {w : W}
    (hw : a.worker? ≠ some w) : t.worker w = s.worker w := by
  obtain ⟨hworkers, -⟩ := step_eq h
  cases a with
  | tick | request => rw [← Option.some.inj hworkers]
  | runOnce w' =>
      have hne : w ≠ w' := fun heq => hw (congrArg some heq.symm)
      rw [workers] at hworkers
      split at hworkers
      · rw [← Option.some.inj hworkers, Function.update_of_ne hne]
      · cases hworkers
  | go w' | lost w' =>
      have hne : w ≠ w' := fun heq => hw (congrArg some heq.symm)
      obtain ⟨m, -, hm⟩ := Option.map_eq_some_iff.mp hworkers
      rw [← hm, Function.update_of_ne hne]
  | restart w' =>
      have hne : w ≠ w' := fun heq => hw (congrArg some heq.symm)
      rw [← Option.some.inj hworkers, Function.update_of_ne hne]

/-- Where a worker and its client are, and that the clients of the sessions to come have done
nothing. -/
structure Sessions (s : State W E P R) : Prop where
  linked : ∀ w, Linked (s.worker w).point (s.task w)
  fresh : ∀ w n, (s.worker w).session < n → s.world.task (.inl (w, n)) = .idle .nothing

/-- A worker after a step of its own: it goes on in its session, or begins a new one at the top. -/
lemma Sessions.own {s t : State W E P R} (hs : Sessions s) {a : Label W E P} {w : W}
    (hw : a.worker? = some w) (h : step svc q s a = some t) :
    ((t.worker w).session = (s.worker w).session ∧ Linked (t.worker w).point (t.task w)) ∨
      ((t.worker w).session = (s.worker w).session + 1 ∧ (t.worker w).point = .top) := by
  obtain ⟨hworkers, hworld⟩ := step_eq h
  have hlinked := hs.linked w
  cases a with
  | tick | request => cases hw
  | runOnce w' monotonic =>
      cases hw
      rw [workers] at hworkers
      split at hworkers
      case h_2 => cases hworkers
      rename_i htop
      rw [htop] at hlinked
      have hm := congrFun (Option.some.inj hworkers) w
      rw [Function.update_self] at hm
      have hclient : t.client w = s.client w := by rw [State.client, ← hm, State.client]
      refine .inl ⟨by rw [← hm], ?_⟩
      rw [← hm, State.task, hclient]
      dsimp only
      split
      · rename_i hlt
        obtain ⟨-, hsame⟩ | ⟨b, hb, -⟩ := hworld
        · rw [hsame]
          exact hlinked
        · rw [act, if_pos hlt] at hb
          cases hb
      · trivial
  | go w' =>
      cases hw
      obtain ⟨m, hm, hupdate⟩ := Option.map_eq_some_iff.mp hworkers
      have hmw : t.worker w = m := by rw [← hupdate, Function.update_self]
      obtain ⟨hsession, hlink⟩ := linked_proceed hlinked hworld hm
      have hclient : t.client w = s.client w := by rw [State.client, hmw, hsession, State.client]
      rw [hmw]
      exact .inl ⟨hsession, by rw [State.task, hclient]; exact hlink⟩
  | lost w' effect exception =>
      cases hw
      obtain ⟨m, hm, hupdate⟩ := Option.map_eq_some_iff.mp hworkers
      have hmw : t.worker w = m := by rw [← hupdate, Function.update_self]
      rw [hmw]
      rw [Worker.raised.eq_def] at hm
      split at hm
      case h_1 | h_2 | h_3 => cases hm
      case h_4 raw hpoint =>
        cases hm
        rw [hpoint] at hlinked
        refine .inl ⟨rfl, ?_⟩
        have hclient : t.client w = s.client w := by rw [State.client, hmw, State.client]
        rw [State.task, hclient]
        change (t.world.task (s.client w)).reservation = some raw
        obtain ⟨-, hsame⟩ | ⟨b, hb, hy⟩ := hworld
        · rw [hsame, show s.world.task (s.client w) = .holding raw from hlinked]
          rfl
        · rw [act, hpoint] at hb
          split at hb
          · cases hb
            obtain ⟨reply, ht⟩ := task_acknowledge hy hlinked
            rw [ht]
            rfl
          · cases hb
      case h_5 => cases hm; exact .inr ⟨rfl, rfl⟩
  | restart w' =>
      cases hw
      have hm := congrFun (Option.some.inj hworkers) w
      rw [Function.update_self] at hm
      exact .inr ⟨by rw [← hm]; rfl, by rw [← hm]; rfl⟩

/-- **Every step keeps the workers linked to their clients.** -/
theorem Sessions.step {s t : State W E P R} (hs : Sessions s) {a : Label W E P}
    (h : Fleet.step svc q s a = some t) : Sessions t := by
  have hfresh : ∀ w n, (s.worker w).session < n → t.world.task (.inl (w, n)) = .idle .nothing :=
    fun w n hn => (session_task h fun _ => hn.ne').trans (hs.fresh w n hn)
  refine ⟨fun w => ?_, fun w n hn => ?_⟩
  · by_cases hw : a.worker? = some w
    · rcases hs.own hw h with ⟨-, hlinked⟩ | ⟨hsession, htop⟩
      · exact hlinked
      · rw [htop, State.task, State.client, hsession, hfresh w _ (Nat.lt_succ_self _)]
        trivial
    · rw [State.task, State.client, worker_of_ne h hw, session_task h fun heq => absurd heq hw]
      exact hs.linked w
  · by_cases hw : a.worker? = some w
    · rcases hs.own hw h with ⟨hsession, -⟩ | ⟨hsession, -⟩
      · exact hfresh w n (hsession ▸ hn)
      · exact hfresh w n (by omega)
    · exact hfresh w n (worker_of_ne h hw ▸ hn)

theorem run_sessions {ok : State W E P R → Label W E P → Prop} {s : State W E P R}
    (h : (fleet svc q W E).Run ok s) : Sessions s := by
  refine h.invariant ?_ fun s a t _ _ hs ht => hs.step ht
  rintro s ⟨now, rfl⟩
  exact ⟨fun _ => trivial, fun _ _ _ => rfl⟩

end Steps

end Fleet

end FinOpsPipeline
