import FinOpsPipeline.Queue.Service

/-!
What one step of the queue system can do, said once.

`World.Reads` lists the steps that change nothing but the point one client has
reached, `World.Transition` all the others together with it, each with the
state it leads to. `World.step_transition` is the inversion of `World.step`
that every invariant proof uses instead of unfolding it.
-/

namespace FinOpsPipeline

variable {C P R : Type} [DecidableEq C] [DecidableEq R]

namespace World

/-- The steps of the client `c` that only read the store, with the point they lead to. -/
inductive Reads (svc : QueueService P R) (w : World C P R) (c : C) : Act C P → Task P R → Prop where
  | noJob (free : (w.task c).Free) (empty : w.store.queue.items = []) :
      Reads svc w c (.reserve c) (.idle .noJob)
  | fail {raw : R} (reason : String) (held : (w.task c).reservation = some raw) :
      Reads svc w c (.retryOrDeadLetter c reason) (.retryWatch ⟨raw, reason, w.clock, .worker⟩)
  | ensure (nowTimestamp : ℚ) (free : (w.task c).Free) :
      Reads svc w c (.ensureProcessingLeases c nowTimestamp) (.ensureLrange false nowTimestamp)
  | recover (nowTimestamp : Option ℚ) (free : (w.task c).Free) :
      Reads svc w c (.recoverStale c nowTimestamp) (.ensureLrange true (nowTimestamp.getD w.clock))
  | clear (free : (w.task c).Free) : Reads svc w c (.clear c) .clearLength
  | scan {current : ℕ} {completedKeys : List ℕ} (keys : List ℕ)
      (here : w.task c = .clearScan current completedKeys)
      (set : ∀ k ∈ keys, w.store.completed.live k w.clock = true) :
      Reads svc w c (.scanReply c keys) (.clearScan current (completedKeys ++ keys))
  | noValues (here : w.task c = .enqueueRpush []) : Reads svc w c (.next c) (.idle .nothing)
  | stamp {raw : R} (here : w.task c = .reserveNow raw) :
      Reads svc w c (.next c) (.reserveZadd raw (w.clock + svc.visibilityTimeoutSeconds))
  | watch {call : RetryCall R} (here : w.task c = .retryWatch call) :
      Reads svc w c (.next c) (.retryLpos call w.store.processing.version)
  | lposFound {call : RetryCall R} {seen : ℕ} (here : w.task c = .retryLpos call seen)
      (found : call.raw ∈ w.store.processing.items) :
      Reads svc w c (.next c) (.retryExec call seen)
  | lposMissing {call : RetryCall R} {seen : ℕ} (here : w.task c = .retryLpos call seen)
      (missing : call.raw ∉ w.store.processing.items) :
      Reads svc w c (.next c) (.retryZrem call)
  | watchError {call : RetryCall R} {seen : ℕ} (here : w.task c = .retryExec call seen)
      (touched : w.store.processing.version ≠ seen) :
      Reads svc w c (.next c) (.retryWatch call)
  | lrange {scan : Bool} {now : ℚ} (here : w.task c = .ensureLrange scan now) :
      Reads svc w c (.next c) (.ensureNext scan now 0 w.store.processing.items)
  | zscoreMissing {scan : Bool} {now : ℚ} {added : ℕ} {raw : R} {todo : List R}
      (here : w.task c = .ensureZscore scan now added raw todo)
      (missing : w.store.leases.zscore raw = none) :
      Reads svc w c (.next c) (.ensureZadd scan now added raw todo)
  | zscorePresent {scan : Bool} {now : ℚ} {added : ℕ} {raw : R} {todo : List R}
      {deadline : ℚ} (here : w.task c = .ensureZscore scan now added raw todo)
      (present : w.store.leases.zscore raw = some deadline) :
      Reads svc w c (.next c) (.ensureNext scan now added todo)
  | zrange {now : ℚ} (here : w.task c = .recoverZrange now) :
      Reads svc w c (.next c)
        (.recoverNext ⟨0, 0, 0⟩ (w.store.leases.rangeByScore svc.lex now))
  | completed {raw : R} {todo : List R} {result : Recovered}
      (here : w.task c = .recoverExists raw todo result)
      (live : w.store.completed.live (svc.idOf raw) w.clock = true) :
      Reads svc w c (.next c) (.recoverDrop raw todo result)
  | notCompleted {raw : R} {todo : List R} {result : Recovered}
      (here : w.task c = .recoverExists raw todo result)
      (absent : w.store.completed.live (svc.idOf raw) w.clock = false) :
      Reads svc w c (.next c) (.recoverFail raw todo result)
  | recoverFail {raw : R} {todo : List R} {result : Recovered}
      (here : w.task c = .recoverFail raw todo result) :
      Reads svc w c (.next c) (.retryWatch
        ⟨raw, "visibility timeout exceeded", w.clock, .recovery todo result⟩)
  | length (here : w.task c = .clearLength) :
      Reads svc w c (.next c) (.clearProcessingLength w.store.queue.items.length)
  | processingLength {current : ℕ} (here : w.task c = .clearProcessingLength current) :
      Reads svc w c (.next c)
        (.clearDeadLetterLength (current + w.store.processing.items.length))
  | deadLetterLength {current : ℕ} (here : w.task c = .clearDeadLetterLength current) :
      Reads svc w c (.next c) (.clearScan (current + w.store.deadLetter.items.length) [])

/-- All the steps of the system, with the state they lead to. -/
inductive Transition (svc : QueueService P R) (w : World C P R) :
    Act C P → World C P R → Prop where
  | tick {now : ℚ} (later : w.clock ≤ now) : Transition svc w (.tick now) { w with clock := now }
  | read {c : C} {a : Act C P} {t : Task P R} (reads : Reads svc w c a t) :
      Transition svc w a (w.goto c t)
  | build {c : C} {a : Act C P} (jobs : List (Job P)) (free : (w.task c).Free)
      (distinct : (jobs.map Job.id).Nodup) (fresh : ∀ job ∈ jobs, job.id ∉ w.issued)
      (untried : ∀ job ∈ jobs, job.attempts = 0) :
      Transition svc w a { w with
        task := Function.update w.task c (.enqueueRpush jobs)
        issued := jobs.map Job.id ++ w.issued }
  | rpush {c : C} {jobs : List (Job P)} (here : w.task c = .enqueueRpush jobs)
      (values : jobs ≠ []) :
      Transition svc w (.next c) { w with
        store := { w.store with queue := w.store.queue.rpush (jobs.map svc.dumps) }
        task := Function.update w.task c (.idle (.enqueued jobs))
        log := .pushed (jobs.map svc.dumps) :: w.log }
  | lmove {c : C} {raw : R} {rest : List R} (free : (w.task c).Free)
      (head : w.store.queue.items = raw :: rest) :
      Transition svc w (.reserve c) { w with
        store := { w.store with
          queue := w.store.queue.lpop
          processing := w.store.processing.rpush [raw] }
        task := Function.update w.task c (.reserveNow raw)
        log := .moved raw w.clock :: w.log }
  | ack {c : C} {raw : R} (held : (w.task c).reservation = some raw) :
      Transition svc w (.acknowledge c) (w.ack svc c raw)
  | reserveZadd {c : C} {raw : R} {leaseDeadline : ℚ}
      (here : w.task c = .reserveZadd raw leaseDeadline) :
      Transition svc w (.next c)
        (w.withLeases c (w.store.leases.zadd raw leaseDeadline) (.holding raw))
  | exec {c : C} {call : RetryCall R} {seen : ℕ} (here : w.task c = .retryExec call seen)
      (untouched : w.store.processing.version = seen) :
      Transition svc w (.next c) (w.retry svc c call)
  | retryZrem {c : C} {call : RetryCall R} (here : w.task c = .retryZrem call) :
      Transition svc w (.next c)
        (w.withLeases c (w.store.leases.zrem call.raw) (.retryReturn call none))
  | ensureZadd {c : C} {scan : Bool} {now : ℚ} {added : ℕ} {raw : R} {todo : List R}
      (here : w.task c = .ensureZadd scan now added raw todo) :
      Transition svc w (.next c) (w.withLeases c
        (w.store.leases.zaddNX raw (now + svc.visibilityTimeoutSeconds))
        (.ensureNext scan now (added + 1) todo))
  | drop {c : C} {raw : R} {todo : List R} {result : Recovered}
      (here : w.task c = .recoverDrop raw todo result) :
      Transition svc w (.next c) (w.drop c raw todo result)
  | delete {c : C} {current : ℕ} {completedKeys : List ℕ}
      (here : w.task c = .clearScan current completedKeys) :
      Transition svc w (.next c) (w.delete c current completedKeys)

variable {svc : QueueService P R} {w w' : World C P R}

/-- The inversion of the commands issued inside a method. -/
lemma next_transition {c : C} (h : w.next svc c = some w') : Transition svc w (.next c) w' := by
  cases here : w.task c with
  | idle | holding | released => simp [next, here] at h
  | enqueueRpush jobs =>
      cases jobs with
      | nil =>
          simp only [next, here, rpush, Option.some.injEq] at h
          exact h ▸ .read (.noValues here)
      | cons job jobs =>
          simp only [next, here, rpush, Option.some.injEq] at h
          exact h ▸ .rpush here (List.cons_ne_nil _ _)
  | reserveNow raw =>
      simp only [next, here, Option.some.injEq] at h
      exact h ▸ .read (.stamp here)
  | reserveZadd raw leaseDeadline =>
      simp only [next, here, Option.some.injEq] at h
      exact h ▸ .reserveZadd here
  | retryWatch call =>
      simp only [next, here, Option.some.injEq] at h
      exact h ▸ .read (.watch here)
  | retryLpos call seen =>
      simp only [next, here] at h
      split at h
      · rename_i found
        exact Option.some.inj h ▸ .read (.lposFound here found)
      · rename_i missing
        exact Option.some.inj h ▸ .read (.lposMissing here missing)
  | retryExec call seen =>
      simp only [next, here] at h
      split at h
      · rename_i untouched
        exact Option.some.inj h ▸ .exec here untouched
      · rename_i touched
        exact Option.some.inj h ▸ .read (.watchError here touched)
  | retryZrem call =>
      simp only [next, here, Option.some.injEq] at h
      exact h ▸ .retryZrem here
  | ensureLrange scan now =>
      simp only [next, here, Option.some.injEq] at h
      exact h ▸ .read (.lrange here)
  | ensureZscore scan now added raw todo =>
      cases score : w.store.leases.zscore raw with
      | none =>
          simp only [next, here, score, Option.some.injEq] at h
          exact h ▸ .read (.zscoreMissing here score)
      | some deadline =>
          simp only [next, here, score, Option.some.injEq] at h
          exact h ▸ .read (.zscorePresent here score)
  | ensureZadd scan now added raw todo =>
      simp only [next, here, Option.some.injEq] at h
      exact h ▸ .ensureZadd here
  | recoverZrange now =>
      simp only [next, here, Option.some.injEq] at h
      exact h ▸ .read (.zrange here)
  | recoverExists raw todo result =>
      simp only [next, here] at h
      split at h
      · rename_i live
        exact Option.some.inj h ▸ .read (.completed here live)
      · rename_i absent
        exact Option.some.inj h ▸ .read (.notCompleted here (Bool.eq_false_iff.mpr absent))
  | recoverFail raw todo result =>
      simp only [next, here, Option.some.injEq] at h
      exact h ▸ .read (.recoverFail here)
  | recoverDrop raw todo result =>
      simp only [next, here, Option.some.injEq] at h
      exact h ▸ .drop here
  | clearLength =>
      simp only [next, here, Option.some.injEq] at h
      exact h ▸ .read (.length here)
  | clearProcessingLength current =>
      simp only [next, here, Option.some.injEq] at h
      exact h ▸ .read (.processingLength here)
  | clearDeadLetterLength current =>
      simp only [next, here, Option.some.injEq] at h
      exact h ▸ .read (.deadLetterLength here)
  | clearScan current completedKeys =>
      simp only [next, here, Option.some.injEq] at h
      exact h ▸ .delete here

/-- **The inversion of a step**: every step is one of the transitions. -/
theorem step_transition {a : Act C P} (h : w.step svc a = some w') : Transition svc w a w' := by
  cases a with
  | tick now =>
      obtain ⟨later, ⟨⟩⟩ := Option.ite_none_right_eq_some.mp h
      exact .tick later
  | enqueue c uuid jobType payload =>
      obtain ⟨⟨free, fresh⟩, ⟨⟩⟩ := Option.ite_none_right_eq_some.mp h
      exact .build [QueueService.newJob uuid jobType payload w.clock] free
        (by simp) (by simpa [QueueService.newJob] using fresh)
        (by simp [QueueService.newJob])
  | enqueueMany c readings jobType payload =>
      obtain ⟨⟨free, distinct, fresh⟩, ⟨⟩⟩ := Option.ite_none_right_eq_some.mp h
      have hids : (readings.map fun r => QueueService.newJob r.1 jobType payload r.2).map Job.id =
          readings.map Prod.fst := by
        simp [QueueService.newJob, Function.comp_def]
      rw [← hids]
      refine .build _ free (hids ▸ distinct) ?_ ?_
      all_goals
        intro job hjob
        obtain ⟨reading, hreading, rfl⟩ := List.mem_map.mp hjob
      · exact fresh reading hreading
      · rfl
  | reserve c =>
      obtain ⟨free, ⟨⟩⟩ := Option.ite_none_right_eq_some.mp h
      cases head : w.store.queue.items with
      | nil =>
          simp only [lmove, head]
          exact .read (.noJob free head)
      | cons raw rest =>
          simp only [lmove, head]
          exact .lmove free head
  | acknowledge c =>
      obtain ⟨raw, held, rfl⟩ := Option.map_eq_some_iff.mp h
      exact .ack held
  | retryOrDeadLetter c reason =>
      obtain ⟨raw, held, rfl⟩ := Option.map_eq_some_iff.mp h
      exact .read (.fail reason held)
  | ensureProcessingLeases c nowTimestamp =>
      obtain ⟨free, ⟨⟩⟩ := Option.ite_none_right_eq_some.mp h
      exact .read (.ensure nowTimestamp free)
  | recoverStale c nowTimestamp =>
      obtain ⟨free, ⟨⟩⟩ := Option.ite_none_right_eq_some.mp h
      exact .read (.recover nowTimestamp free)
  | clear c =>
      obtain ⟨free, ⟨⟩⟩ := Option.ite_none_right_eq_some.mp h
      exact .read (.clear free)
  | scanReply c keys =>
      simp only [step] at h
      split at h
      · rename_i current completedKeys here
        obtain ⟨set, ⟨⟩⟩ := Option.ite_none_right_eq_some.mp h
        exact .read (.scan keys here set)
      · cases h
  | next c => exact next_transition h

end World

end FinOpsPipeline
