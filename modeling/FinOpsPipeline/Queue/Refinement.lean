import FinOpsPipeline.Queue.Transition

/-!
The queue of the service refines the abstract queue of `Ledger`.

* `World.ledger` forgets everything but the three lists and the history;
  `QueueService.labels` reads key, core and failed tries off the JSON entries.
* `World.Inv` is the invariant of the interleaved system: the ledger is well
  formed, jobs that were built but not yet pushed have unused identifiers, a
  client that may execute its transaction saw the entry it moves, and a
  completed marker stands for an acknowledgement in the history.
* `World.Transition.refines`: a step of the system is a step of the ledger or
  leaves the ledger alone; `World.reachable_inv` is the run lemma.
-/

namespace FinOpsPipeline

/-- The part of a job that no queue operation may change. -/
structure JobCore (P : Type) where
  id : ℕ
  type : String
  payload : P
  enqueuedAt : ℚ

/-- The core of a job. -/
def Job.core {P : Type} (job : Job P) : JobCore P :=
  ⟨job.id, job.type, job.payload, job.enqueuedAt⟩

/-- What the ledger reads off a serialised job. -/
def QueueService.labels {P R : Type} (svc : QueueService P R) : Labels R ℕ (JobCore P) where
  key := svc.idOf
  core := fun raw => (svc.loads raw).core
  tries := fun raw => (svc.loads raw).attempts

section Labels

variable {P R : Type} (svc : QueueService P R)

@[simp] lemma labels_key (raw : R) : svc.labels.key raw = svc.idOf raw := rfl

@[simp] lemma idOf_dumps (job : Job P) : svc.idOf (svc.dumps job) = job.id := by
  rw [QueueService.idOf, svc.loads_dumps]

@[simp] lemma tries_dumps (job : Job P) : svc.labels.tries (svc.dumps job) = job.attempts := by
  simp only [QueueService.labels, svc.loads_dumps]

/-- A failed job keeps its identifier. -/
@[simp] lemma idOf_updatedRaw (call : RetryCall R) :
    svc.idOf (svc.updatedRaw call) = svc.idOf call.raw := by
  rw [QueueService.updatedRaw, idOf_dumps]
  rfl

/-- A failed job keeps its core. -/
lemma core_updatedRaw (call : RetryCall R) :
    svc.labels.core (svc.updatedRaw call) = svc.labels.core call.raw := by
  simp only [QueueService.labels, QueueService.updatedRaw, svc.loads_dumps]
  rfl

/-- A failed job has one more failed try. -/
lemma tries_updatedRaw (call : RetryCall R) :
    svc.labels.tries (svc.updatedRaw call) = svc.labels.tries call.raw + 1 := by
  rw [QueueService.updatedRaw, tries_dumps]
  rfl

/-- The destination is decided by the failed tries. -/
lemma destination_eq (call : RetryCall R) :
    svc.destination call =
      if svc.labels.tries (svc.updatedRaw call) ≤ svc.maxRetries then .queue else .deadLetter := by
  rw [tries_updatedRaw]
  rfl

end Labels

variable {C P R : Type} [DecidableEq C] [DecidableEq R] {svc : QueueService P R}

namespace World

/-- The abstract queue of a state. -/
def ledger (w : World C P R) : Ledger R :=
  ⟨w.store.queue.items, w.store.processing.items, w.store.deadLetter.items, w.log⟩

/-- What holds at the point `t` a client has reached. -/
def TaskOk (svc : QueueService P R) (w : World C P R) : Task P R → Prop
  | .enqueueRpush jobs => (jobs.map Job.id).Nodup ∧ ∀ job ∈ jobs,
      job.attempts = 0 ∧ job.id ∈ w.issued ∧ job.id ∉ pushedKeys svc.labels w.log
  | .retryLpos _ seen => seen ≤ w.store.processing.version
  | .retryExec call seen => seen ≤ w.store.processing.version ∧
      (w.store.processing.version = seen → call.raw ∈ w.store.processing.items)
  | .recoverDrop raw _ _ => ∃ r, .acked r ∈ w.log ∧ svc.idOf r = svc.idOf raw
  | _ => True

/-- The invariant of the interleaved system. -/
structure Inv (svc : QueueService P R) (w : World C P R) : Prop where
  wf : w.ledger.Wf svc.labels svc.maxRetries
  issued : ∀ k ∈ pushedKeys svc.labels w.log, k ∈ w.issued
  tasks : ∀ c, w.TaskOk svc (w.task c)
  apart : ∀ c c' jobs jobs', w.task c = .enqueueRpush jobs → w.task c' = .enqueueRpush jobs' →
    c ≠ c' → ∀ job ∈ jobs, ∀ job' ∈ jobs', job.id ≠ job'.id
  marked : ∀ k, (w.store.completed k).isSome → ∃ raw, .acked raw ∈ w.log ∧ svc.idOf raw = k

/-! ### How a state grows -/

/-- What every step respects, whoever takes it. -/
structure Grows (w w' : World C P R) : Prop where
  issued : w.issued ⊆ w'.issued
  log : w.log ⊆ w'.log
  version : w.store.processing.version ≤ w'.store.processing.version
  items : w'.store.processing.version = w.store.processing.version →
    w'.store.processing.items = w.store.processing.items

section Growth

variable {w w' : World C P R}

omit [DecidableEq C] [DecidableEq R] in
lemma Grows.of_eq (hissued : w'.issued = w.issued) (hlog : w.log ⊆ w'.log)
    (hprocessing : w'.store.processing = w.store.processing) : Grows w w' where
  issued := hissued ▸ List.Subset.refl _
  log := hlog
  version := hprocessing ▸ le_rfl
  items := fun _ => hprocessing ▸ rfl

omit [DecidableEq C] in
lemma Grows.of_lrem (raw : R) (hissued : w'.issued = w.issued) (hlog : w.log ⊆ w'.log)
    (hprocessing : w'.store.processing = w.store.processing.lrem raw) : Grows w w' where
  issued := hissued ▸ List.Subset.refl _
  log := hlog
  version := by
    rw [hprocessing]
    rcases w.store.processing.lrem_cases raw with h | h <;> rw [h]
    omega
  items := fun hv => by
    rw [hprocessing] at hv ⊢
    rcases w.store.processing.lrem_cases raw with h | h
    · rw [h]
    · omega

/-- A step that touches the processing list raises its version. -/
lemma Transition.grows {a : Act C P} (h : Transition svc w a w') : Grows w w' := by
  cases h with
  | tick | read | reserveZadd | retryZrem | ensureZadd =>
      exact .of_eq rfl (List.Subset.refl _) rfl
  | build jobs =>
      exact ⟨List.subset_append_right _ _, List.Subset.refl _, le_rfl, fun _ => rfl⟩
  | rpush => exact .of_eq rfl (List.subset_cons_self _ _) rfl
  | lmove =>
      exact ⟨List.Subset.refl _, List.subset_cons_self _ _, Nat.le_succ _,
        fun hv => absurd hv (Nat.succ_ne_self _)⟩
  | @ack c raw => exact .of_lrem raw rfl (List.subset_cons_self _ _) rfl
  | @exec c call =>
      refine .of_lrem call.raw rfl (List.subset_cons_self _ _) ?_
      simp only [retry]
      split <;> rfl
  | @drop c raw => exact .of_lrem raw rfl (List.subset_cons_self _ _) rfl
  | delete =>
      exact ⟨List.Subset.refl _, List.subset_cons_self _ _, Nat.le_succ _,
        fun hv => absurd hv (Nat.succ_ne_self _)⟩

omit [DecidableEq C] [DecidableEq R] in
/-- The condition at a point survives growth, as long as no job that is still to
be pushed has been pushed. -/
lemma TaskOk.mono (grows : Grows w w') {t : Task P R} (ht : w.TaskOk svc t)
    (hpush : ∀ jobs, t = .enqueueRpush jobs → ∀ job ∈ jobs,
      job.id ∉ pushedKeys svc.labels w'.log) : w'.TaskOk svc t := by
  cases t with
  | enqueueRpush jobs =>
      exact ⟨ht.1, fun job hjob =>
        ⟨(ht.2 job hjob).1, grows.issued (ht.2 job hjob).2.1, hpush jobs rfl job hjob⟩⟩
  | retryLpos call seen => exact le_trans ht grows.version
  | retryExec call seen =>
      refine ⟨le_trans ht.1 grows.version, fun hv => ?_⟩
      have hsame : w'.store.processing.version = w.store.processing.version :=
        le_antisymm (hv ▸ ht.1) grows.version
      exact grows.items hsame ▸ ht.2 (hsame ▸ hv)
  | recoverDrop raw todo result =>
      obtain ⟨r, hr, hid⟩ := ht
      exact ⟨r, grows.log hr, hid⟩
  | _ => trivial

end Growth

/-! ### The refinement -/

section Refinement

variable {w w' : World C P R} {a : Act C P}

/-- The transaction of `retry_or_dead_letter` is the ledger's `putBack`. -/
lemma ledger_retry (w : World C P R) (c : C) (call : RetryCall R) :
    (w.retry svc c call).ledger =
      w.ledger.putBack svc.labels svc.maxRetries call.raw (svc.updatedRaw call)
        call.origin w.clock := by
  simp only [ledger, retry, Ledger.putBack, destination_eq]
  by_cases h : svc.labels.tries (svc.updatedRaw call) ≤ svc.maxRetries
  · simp only [if_pos h, ListKey.lrem_items, ListKey.rpush_items]
  · simp only [if_neg h, ListKey.lrem_items, ListKey.rpush_items]

lemma ledger_ack (w : World C P R) (c : C) (raw : R) :
    (w.ack svc c raw).ledger =
      { w.ledger with
        processing := w.ledger.processing.erase raw
        log := .acked raw :: w.ledger.log } := by
  simp only [ledger, ack, ListKey.lrem_items]

lemma ledger_drop (w : World C P R) (c : C) (raw : R) (todo : List R) (result : Recovered) :
    (w.drop c raw todo result).ledger =
      { w.ledger with
        processing := w.ledger.processing.erase raw
        log := .dropped raw w.clock :: w.ledger.log } := by
  simp only [ledger, drop, ListKey.lrem_items]

/-- **The refinement**: a step of the interleaved system is a step of the
abstract queue or leaves the abstract queue as it is. -/
theorem Transition.refines (inv : w.Inv svc) (h : Transition svc w a w') :
    w'.ledger = w.ledger ∨ Ledger.Step svc.labels svc.maxRetries w.ledger w'.ledger := by
  cases h with
  | tick | read | build | reserveZadd | retryZrem | ensureZadd => exact .inl rfl
  | @rpush c jobs here values =>
      have ht : w.TaskOk svc (.enqueueRpush jobs) := here ▸ inv.tasks c
      refine .inr (.push (jobs.map svc.dumps) ?_ ?_ ?_)
      · intro raw hraw
        obtain ⟨job, hjob, rfl⟩ := List.mem_map.mp hraw
        rw [labels_key, idOf_dumps]
        exact (ht.2 job hjob).2.2
      · have hkeys : (jobs.map svc.dumps).map svc.labels.key = jobs.map Job.id := by
          simp [Function.comp_def]
        exact hkeys ▸ ht.1
      · intro raw hraw
        obtain ⟨job, hjob, rfl⟩ := List.mem_map.mp hraw
        rw [tries_dumps]
        exact (ht.2 job hjob).1
  | lmove free head =>
      have hstep : Ledger.Step svc.labels svc.maxRetries w.ledger _ := .move w.clock head
      refine .inr ?_
      simpa only [ledger, ListKey.lpop_items, ListKey.rpush_items, head, List.tail_cons]
        using hstep
  | @ack c raw held =>
      rw [ledger_ack]
      exact .inr (.ack raw)
  | @exec c call seen here untouched =>
      have ht : w.TaskOk svc (.retryExec call seen) := here ▸ inv.tasks c
      rw [ledger_retry]
      exact .inr (.requeue call.origin w.clock (ht.2 untouched) (idOf_updatedRaw svc call)
        (core_updatedRaw svc call) (tries_updatedRaw svc call))
  | @drop c raw todo result here =>
      have ht : w.TaskOk svc (.recoverDrop raw todo result) := here ▸ inv.tasks c
      rw [ledger_drop]
      exact .inr (.drop raw w.clock ht)
  | delete => exact .inr (.clear (s := w.ledger))

omit [DecidableEq C] [DecidableEq R] in
lemma taskOk_ensureNext (scan : Bool) (now : ℚ) (added : ℕ) (todo : List R) :
    w.TaskOk svc (.ensureNext scan now added todo) := by
  cases todo with
  | nil => cases scan <;> exact trivial
  | cons => exact trivial

omit [DecidableEq C] [DecidableEq R] in
lemma taskOk_recoverNext (result : Recovered) (todo : List R) :
    w.TaskOk svc (.recoverNext result todo) := by
  cases todo <;> exact trivial

omit [DecidableEq C] [DecidableEq R] in
lemma taskOk_retryReturn (call : RetryCall R) (outcome : Option Destination) :
    w.TaskOk svc (.retryReturn call outcome) := by
  rw [Task.retryReturn.eq_def]
  split
  · trivial
  all_goals exact taskOk_recoverNext _ _

omit [DecidableEq R] in
/-- The clients other than `c` keep their point, the client `c` reaches `t`. -/
lemma tasks_update {c : C} {t : Task P R} (htask : w'.task = Function.update w.task c t)
    (hother : ∀ d, d ≠ c → w'.TaskOk svc (w.task d)) (ht : w'.TaskOk svc t) (d : C) :
    w'.TaskOk svc (w'.task d) := by
  rw [htask]
  by_cases hd : d = c
  · subst hd
    rwa [Function.update_self]
  · rw [Function.update_of_ne hd]
    exact hother d hd

omit [DecidableEq C] in
/-- A step that only reads keeps the condition at its point. -/
lemma Reads.taskOk (inv : w.Inv svc) {c : C} {t : Task P R} (h : Reads svc w c a t) :
    w.TaskOk svc t := by
  cases h with
  | watch => exact le_rfl
  | @lposFound call seen here found =>
      have ht : w.TaskOk svc (.retryLpos call seen) := here ▸ inv.tasks c
      exact ⟨ht, fun _ => found⟩
  | lrange => exact taskOk_ensureNext _ _ _ _
  | zscorePresent => exact taskOk_ensureNext _ _ _ _
  | zrange => exact taskOk_recoverNext _ _
  | completed here live => exact inv.marked _ (Expiring.isSome_of_live live)
  | _ => trivial

omit [DecidableEq C] [DecidableEq R] in
lemma ensureNext_ne_building (scan : Bool) (now : ℚ) (added : ℕ) (todo : List R)
    (jobs : List (Job P)) : Task.ensureNext scan now added todo ≠ .enqueueRpush jobs := by
  cases todo with
  | nil => cases scan <;> nofun
  | cons => nofun

omit [DecidableEq C] [DecidableEq R] in
lemma recoverNext_ne_building (result : Recovered) (todo : List R) (jobs : List (Job P)) :
    Task.recoverNext result todo ≠ .enqueueRpush jobs := by
  cases todo <;> nofun

omit [DecidableEq C] [DecidableEq R] in
lemma retryReturn_ne_building (call : RetryCall R) (outcome : Option Destination)
    (jobs : List (Job P)) : Task.retryReturn call outcome ≠ .enqueueRpush jobs := by
  rw [Task.retryReturn.eq_def]
  split
  · nofun
  all_goals exact recoverNext_ne_building _ _ _

omit [DecidableEq C] in
/-- A step that only reads leads to no point where jobs wait to be pushed. -/
lemma Reads.not_building {c : C} {t : Task P R} (h : Reads svc w c a t) (jobs : List (Job P)) :
    t ≠ .enqueueRpush jobs := by
  cases h with
  | lrange | zscorePresent => exact ensureNext_ne_building _ _ _ _ _
  | zrange => exact recoverNext_ne_building _ _ _
  | _ => nofun

/-- The store after the transaction of `retry_or_dead_letter` has the same markers. -/
lemma completed_retry (w : World C P R) (c : C) (call : RetryCall R) :
    (w.retry svc c call).store.completed = w.store.completed := by
  simp only [retry]
  split <;> rfl

/-- A client that builds jobs did so before, or just now under identifiers that
`uuid4` had not given out; then the other clients are where they were. -/
lemma Transition.building (h : Transition svc w a w') {c : C} {jobs : List (Job P)}
    (hc : w'.task c = .enqueueRpush jobs) :
    w.task c = .enqueueRpush jobs ∨
      (∀ job ∈ jobs, job.id ∉ w.issued) ∧ ∀ d, d ≠ c → w'.task d = w.task d := by
  have hstay : ∀ {c₀ : C} {t : Task P R}, w'.task = Function.update w.task c₀ t →
      t ≠ .enqueueRpush jobs → w.task c = .enqueueRpush jobs := by
    intro c₀ t htask ht
    rw [htask] at hc
    by_cases hcc : c = c₀
    · subst hcc
      rw [Function.update_self] at hc
      exact absurd hc ht
    · rwa [Function.update_of_ne hcc] at hc
  cases h with
  | tick => exact .inl hc
  | read reads => exact .inl (hstay rfl (reads.not_building jobs))
  | @build c₀ _ jobs₀ free distinct fresh untried =>
      dsimp only at hc
      by_cases hcc : c = c₀
      · subst hcc
        rw [Function.update_self] at hc
        cases hc
        exact .inr ⟨fresh, fun d hd => Function.update_of_ne hd _ _⟩
      · rw [Function.update_of_ne hcc] at hc
        exact .inl hc
  | rpush | lmove | ack | reserveZadd | delete => exact .inl (hstay rfl nofun)
  | exec | retryZrem => exact .inl (hstay rfl (retryReturn_ne_building _ _ _))
  | ensureZadd => exact .inl (hstay rfl (ensureNext_ne_building _ _ _ _ _))
  | drop => exact .inl (hstay rfl (recoverNext_ne_building _ _ _))

/-- A key is introduced by a client that pushes the jobs it has built. -/
lemma Transition.pushed (h : Transition svc w a w') {k : ℕ}
    (hk : k ∈ pushedKeys svc.labels w'.log) :
    k ∈ pushedKeys svc.labels w.log ∨ ∃ c jobs, w.task c = .enqueueRpush jobs ∧
      k ∈ jobs.map Job.id ∧ ∀ jobs', w'.task c ≠ .enqueueRpush jobs' := by
  cases h with
  | tick | read | build | lmove | ack | reserveZadd | exec | retryZrem | ensureZadd | drop
  | delete => exact .inl hk
  | @rpush c jobs here values =>
      rcases List.mem_append.mp hk with hnew | hold
      · refine .inr ⟨c, jobs, here, ?_, ?_⟩
        · simpa [Event.pushedKeys, Function.comp_def] using hnew
        · intro jobs' h
          simp only [Function.update_self] at h
          cases h
      · exact .inl hold

/-- The clients that a step leaves where they were keep their condition. -/
lemma Transition.taskOk_of_eq (inv : w.Inv svc) (h : Transition svc w a w') {d : C}
    (hd : w'.task d = w.task d) : w'.TaskOk svc (w.task d) := by
  refine (inv.tasks d).mono h.grows ?_
  intro jobs hjobs job hjob hk
  have ht : w.TaskOk svc (.enqueueRpush jobs) := hjobs ▸ inv.tasks d
  rcases h.pushed hk with hold | ⟨c, jobs', hc, hmem, hgone⟩
  · exact (ht.2 job hjob).2.2 hold
  · obtain ⟨job', hjob', hid⟩ := List.mem_map.mp hmem
    have hne : c ≠ d := by
      rintro rfl
      exact hgone jobs (hd.trans hjobs)
    exact inv.apart c d jobs' jobs hc hjobs hne job' hjob' job hjob hid

/-- Every client satisfies its condition after a step. -/
lemma Transition.tasks (inv : w.Inv svc) (h : Transition svc w a w') (d : C) :
    w'.TaskOk svc (w'.task d) := by
  have hother : ∀ {c : C} {t : Task P R}, w'.task = Function.update w.task c t →
      ∀ d, d ≠ c → w'.TaskOk svc (w.task d) := by
    intro c t htask d hd
    refine h.taskOk_of_eq inv ?_
    rw [htask, Function.update_of_ne hd]
  have hstep := h
  cases h with
  | tick => exact hstep.taskOk_of_eq inv rfl
  | read reads =>
      refine tasks_update rfl (hother rfl) ?_ d
      have ht := reads.taskOk inv
      exact ht.mono hstep.grows fun jobs hjobs => absurd hjobs (reads.not_building jobs)
  | @build c _ jobs free distinct fresh untried =>
      refine tasks_update rfl (hother rfl) ?_ d
      refine ⟨distinct, fun job hjob => ⟨untried job hjob, ?_, ?_⟩⟩
      · exact List.mem_append_left _ (List.mem_map_of_mem hjob)
      · exact fun hk => fresh job hjob (inv.issued _ hk)
  | rpush | lmove | ack | reserveZadd | delete =>
      refine tasks_update rfl (hother rfl) ?_ d
      trivial
  | exec | retryZrem => exact tasks_update rfl (hother rfl) (taskOk_retryReturn _ _) d
  | ensureZadd => exact tasks_update rfl (hother rfl) (taskOk_ensureNext _ _ _ _) d
  | drop => exact tasks_update rfl (hother rfl) (taskOk_recoverNext _ _) d

/-- **Every step preserves the invariant.** -/
theorem Transition.inv (inv : w.Inv svc) (h : Transition svc w a w') : w'.Inv svc where
  wf := by
    rcases h.refines inv with heq | hstep
    · exact heq ▸ inv.wf
    · exact hstep.wf inv.wf
  issued := by
    intro k hk
    rcases h.pushed hk with hold | ⟨c, jobs, hc, hmem, _⟩
    · exact h.grows.issued (inv.issued k hold)
    · obtain ⟨job, hjob, rfl⟩ := List.mem_map.mp hmem
      have ht : w.TaskOk svc (.enqueueRpush jobs) := hc ▸ inv.tasks c
      exact h.grows.issued (ht.2 job hjob).2.1
  tasks := h.tasks inv
  apart := by
    intro c c' jobs jobs' hc hc' hne job hjob job' hjob' hid
    have hissued : ∀ {d ds}, w.task d = .enqueueRpush ds → ∀ j ∈ ds, j.id ∈ w.issued := by
      intro d ds hd j hj
      have ht : w.TaskOk svc (.enqueueRpush ds) := hd ▸ inv.tasks d
      exact (ht.2 j hj).2.1
    rcases h.building hc with hold | ⟨hnew, hsame⟩
    · rcases h.building hc' with hold' | ⟨hnew', _⟩
      · exact inv.apart c c' jobs jobs' hold hold' hne job hjob job' hjob' hid
      · exact hnew' job' hjob' (hid ▸ hissued hold job hjob)
    · have hold' := (hsame c' hne.symm).symm.trans hc'
      exact hnew job hjob (hid ▸ hissued hold' job' hjob')
  marked := by
    have hkeep : ∀ k, (w.store.completed k).isSome →
        ∃ raw, .acked raw ∈ w'.log ∧ svc.idOf raw = k := by
      intro k hk
      obtain ⟨raw, hraw, hid⟩ := inv.marked k hk
      exact ⟨raw, h.grows.log hraw, hid⟩
    intro k hk
    cases h with
    | @ack c raw held =>
        rcases Expiring.isSome_of_set hk with rfl | hold
        · exact ⟨raw, List.mem_cons_self, rfl⟩
        · exact hkeep k hold
    | delete => exact hkeep k (Expiring.isSome_of_del hk)
    | exec => exact hkeep k (by rwa [completed_retry] at hk)
    | _ => exact hkeep k hk

omit [DecidableEq C] [DecidableEq R] in
/-- The empty queue satisfies the invariant. -/
lemma inv_start (now : ℚ) : (start now : World C P R).Inv svc where
  wf := Ledger.wf_empty
  issued := fun _ h => by cases h
  tasks := fun _ => trivial
  apart := fun _ _ _ _ h => by cases h
  marked := fun _ h => by cases h

/-- **Every reachable state of the queue system satisfies the invariant.** -/
theorem reachable_inv {ok : World C P R → Act C P → Prop} (h : (svc.system C).Run ok w) :
    w.Inv svc := by
  refine h.invariant ?_ ?_
  · rintro _ ⟨now, rfl⟩
    exact inv_start now
  · exact fun s b t _ _ hinv ht => (step_transition ht).inv hinv

end Refinement

end World

end FinOpsPipeline
