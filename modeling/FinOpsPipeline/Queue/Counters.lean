import FinOpsPipeline.Queue.Metrics

/-!
What the other counters of the workers say.

`retry_or_dead_letter` and `recover_stale` return what they have done, and the worker adds it to
its counters afterwards. As long as no command fails nothing is lost on the way, whatever the
timing of the workers, the manual endpoint or the reset.

* `Lossless`: no command fails and no worker is started anew.
* `Reading`: a counter, with its share of each entry that goes back or to the dead letters.
* `Task.carried`: what a client has in its local variables.
* `run_readings`: a reading and what is carried are the requeued entries of the history.
* `outcomes_counted`, `requeues_counted`.
-/

namespace FinOpsPipeline

variable {C P R : Type} {svc : QueueService P R}

/-! ### Readings -/

/-- The list that an entry has been moved to. -/
def QueueService.placed (svc : QueueService P R) (updated : R) : Destination :=
  if (svc.loads updated).attempts ≤ svc.maxRetries then .queue else .deadLetter

/-- A counter of the workers that counts entries by where they go and who moves them. -/
structure Reading where
  value : Fleet.Counters → ℕ
  weight : Destination → Origin → ℕ
  recover : ∀ k r, value (k.recover r) = value k +
    (r.retried * weight .queue .recovery + r.deadLettered * weight .deadLetter .recovery)
  retry : ∀ k d, value (k.retry (some d)) = value k + weight d .worker
  missing : ∀ k, value (k.retry none) = value k
  fail : ∀ k, value k.fail = value k
  process : ∀ k, value k.process = value k
  zero : value ⟨0, 0, 0, 0, 0⟩ = 0

namespace Reading

/-- `QUEUE_RETRY_TOTAL`. -/
def retried : Reading where
  value k := k.retried
  weight d _ := if d = .queue then 1 else 0
  recover k r := by simp [Fleet.Counters.recover]
  retry k d := by cases d <;> rfl
  missing _ := rfl
  fail _ := rfl
  process _ := rfl
  zero := rfl

/-- `QUEUE_DEAD_LETTER_TOTAL`. -/
def deadLettered : Reading where
  value k := k.deadLettered
  weight d _ := if d = .deadLetter then 1 else 0
  recover k r := by simp [Fleet.Counters.recover]
  retry k d := by cases d <;> rfl
  missing _ := rfl
  fail _ := rfl
  process _ := rfl
  zero := rfl

/-- `QUEUE_RECOVERED_TOTAL`. -/
def recovered : Reading where
  value k := k.recovered
  weight _ o := if o = .recovery then 1 else 0
  recover k r := by simp [Fleet.Counters.recover, Nat.add_assoc]
  retry k d := by cases d <;> rfl
  missing _ := rfl
  fail _ := rfl
  process _ := rfl
  zero := rfl

variable (ρ : Reading)

/-- What the counters of `recover_stale` add. -/
def ofRecovered (r : Recovered) : ℕ :=
  r.retried * ρ.weight .queue .recovery + r.deadLettered * ρ.weight .deadLetter .recovery

/-- What an event adds. -/
def ofEvent (svc : QueueService P R) : Event R → ℕ
  | .requeued _ updated origin _ => ρ.weight (svc.placed updated) origin
  | _ => 0

/-- What the history adds. -/
def ofLog (svc : QueueService P R) (log : List (Event R)) : ℕ := (log.map (ρ.ofEvent svc)).sum

/-- What a client has in its local variables. -/
def carried : Task P R → ℕ
  | .idle (.recovered result) => ρ.ofRecovered result
  | .released _ (.failed (some d)) => ρ.weight d .worker
  | .recoverExists _ _ result | .recoverFail _ _ result | .recoverDrop _ _ result =>
      ρ.ofRecovered result
  | .retryWatch call | .retryLpos call _ | .retryExec call _ | .retryZrem call =>
      match call.caller with
      | .worker => 0
      | .recovery _ result => ρ.ofRecovered result
  | _ => 0

lemma carried_recoverNext (result : Recovered) (todo : List R) :
    ρ.carried (.recoverNext result todo : Task P R) = ρ.ofRecovered result := by
  cases todo <;> rfl

lemma carried_ensureNext (scan : Bool) (now : ℚ) (added : ℕ) (todo : List R) :
    ρ.carried (.ensureNext scan now added todo : Task P R) = 0 := by
  cases todo with
  | nil => cases scan <;> rfl
  | cons => rfl

lemma carried_missing (call : RetryCall R) :
    ρ.carried (.retryReturn call none : Task P R) = ρ.carried (.retryZrem call : Task P R) := by
  obtain ⟨raw, reason, failedAt, caller⟩ := call
  cases caller with
  | worker => rfl
  | recovery todo result => exact ρ.carried_recoverNext result todo

lemma carried_moved (call : RetryCall R) (d : Destination) :
    ρ.carried (.retryReturn call (some d) : Task P R) =
      ρ.carried (.retryWatch call : Task P R) + ρ.weight d call.origin := by
  obtain ⟨raw, reason, failedAt, caller⟩ := call
  cases caller with
  | worker => exact (Nat.zero_add _).symm
  | recovery todo result =>
      cases d with
      | queue =>
          refine (ρ.carried_recoverNext _ todo).trans ?_
          simp only [ofRecovered, carried, RetryCall.origin]
          ring
      | deadLetter =>
          refine (ρ.carried_recoverNext _ todo).trans ?_
          simp only [ofRecovered, carried, RetryCall.origin]
          ring

end Reading

/-! ### The history -/

namespace World

variable [DecidableEq C] [DecidableEq R] {x y : World C P R} {b : Act C P} (ρ : Reading)

omit [DecidableEq R] in
lemma placed_updatedRaw (call : RetryCall R) :
    svc.placed (svc.updatedRaw call) = svc.destination call := by
  rw [QueueService.placed, QueueService.updatedRaw, svc.loads_dumps, QueueService.destination]

/-- Only a transaction of `retry_or_dead_letter` is a requeueing. -/
lemma Transition.readings_of_ne (h : Transition svc x b y)
    (hne : ∀ c call seen, b = .next c → x.task c ≠ .retryExec call seen) :
    ρ.ofLog svc y.log = ρ.ofLog svc x.log := by
  cases h with
  | tick | read | build | reserveZadd | retryZrem | ensureZadd => rfl
  | rpush | lmove | ack | drop | delete => exact Nat.zero_add _
  | @exec c call seen here => exact absurd here (hne c call seen rfl)

omit [DecidableEq R] in
lemma ofLog_cons (e : Event R) (log : List (Event R)) :
    ρ.ofLog svc (e :: log) = ρ.ofEvent svc e + ρ.ofLog svc log := List.sum_cons

/-- What a client has in its local variables moves with the history. -/
lemma next_carried {c : C} (h : x.next svc c = some y) :
    ρ.carried (y.task c) + ρ.ofLog svc x.log = ρ.carried (x.task c) + ρ.ofLog svc y.log := by
  -- a command that requeues nothing, and leaves as much in the variables
  have hkeep : ∀ t, ρ.ofLog svc y.log = ρ.ofLog svc x.log → y.task c = t →
      ρ.carried t = ρ.carried (x.task c) →
      ρ.carried (y.task c) + ρ.ofLog svc x.log = ρ.carried (x.task c) + ρ.ofLog svc y.log := by
    intro t hlog htask ht
    rw [hlog, htask, ht]
  have hself : ∀ t : Task P R, Function.update x.task c t c = t := fun t =>
    Function.update_self _ _ _
  rw [World.next] at h
  split at h <;> rename_i here
  case h_1 | h_2 | h_3 => cases h
  case h_4 jobs =>
    cases h
    cases jobs with
    | nil => exact hkeep _ rfl (hself _) (by rw [here]; rfl)
    | cons => exact hkeep _ (Nat.zero_add _) (hself _) (by rw [here]; rfl)
  case h_8 | h_15 =>
    split at h <;> cases h <;> exact hkeep _ rfl (hself _) (by rw [here]; rfl)
  case h_9 call seen =>
    split at h <;> cases h
    · have htask : (x.retry svc c call).task c = _ := hself _
      rw [htask, ρ.carried_moved, here, World.retry, ofLog_cons, Reading.ofEvent,
        placed_updatedRaw]
      simp only [Reading.carried]
      omega
    · exact hkeep _ rfl (hself _) (by rw [here]; rfl)
  case h_10 => cases h; exact hkeep _ rfl (hself _) (by rw [ρ.carried_missing, here])
  case h_11 | h_13 => cases h; exact hkeep _ rfl (hself _) (by rw [ρ.carried_ensureNext, here]; rfl)
  case h_12 =>
    split at h <;> cases h
    · exact hkeep _ rfl (hself _) (by rw [here]; rfl)
    · exact hkeep _ rfl (hself _) (by rw [ρ.carried_ensureNext, here]; rfl)
  case h_14 =>
    cases h
    exact hkeep _ rfl (hself _)
      (by rw [ρ.carried_recoverNext, here]; simp [Reading.ofRecovered, Reading.carried])
  case h_17 =>
    cases h
    exact hkeep _ (Nat.zero_add _) (hself _) (by rw [ρ.carried_recoverNext, here]; rfl)
  case h_21 => cases h; exact hkeep _ (Nat.zero_add _) (hself _) (by rw [here]; rfl)
  all_goals cases h; exact hkeep _ rfl (hself _) (by rw [here]; rfl)

/-- The dead letters are those of the history, unless the queue has been reset. -/
lemma Transition.dead_letters (h : Transition svc x b y)
    (ih : .cleared ∉ x.log → x.store.deadLetter.items.length = Reading.deadLettered.ofLog svc x.log)
    (hclear : .cleared ∉ y.log) :
    y.store.deadLetter.items.length = Reading.deadLettered.ofLog svc y.log := by
  have hold := ih fun hx => hclear (h.grows.log hx)
  cases h with
  | tick | read | build | reserveZadd | retryZrem | ensureZadd => exact hold
  | rpush | lmove | ack | drop => exact hold.trans (Nat.zero_add _).symm
  | @exec c call seen =>
      rw [World.retry, ofLog_cons, Reading.ofEvent, placed_updatedRaw, ← hold]
      cases svc.destination call with
      | queue => exact (Nat.zero_add _).symm
      | deadLetter =>
          simp only [ListKey.rpush_items, List.length_append, List.length_singleton,
            Reading.deadLettered, if_true]
          omega
  | delete => exact absurd List.mem_cons_self hclear

lemma dead_letters {ok : World C P R → Act C P → Prop} (hx : (svc.system C).Run ok x)
    (hclear : .cleared ∉ x.log) :
    x.store.deadLetter.items.length = Reading.deadLettered.ofLog svc x.log := by
  refine hx.invariant (P := fun x => .cleared ∉ x.log →
    x.store.deadLetter.items.length = Reading.deadLettered.ofLog svc x.log) ?_ ?_ hclear
  · rintro s ⟨now, rfl⟩ -
    rfl
  · intro s b t _ _ ih ht
    exact (step_transition ht).dead_letters ih

/-! ### Requests -/

end World

/-- The client is in `retry_or_dead_letter` or in a recovery scan. -/
def Task.Requeueing {P R : Type} : Task P R → Prop
  | .retryWatch _ | .retryLpos _ _ | .retryExec _ _ | .retryZrem _ | .ensureLrange _ _
  | .ensureZscore _ _ _ _ _ | .ensureZadd _ _ _ _ _ | .recoverZrange _ | .recoverExists _ _ _
  | .recoverFail _ _ _ | .recoverDrop _ _ _ => True
  | _ => False

namespace World

variable [DecidableEq C] [DecidableEq R] {x y : World C P R} {b : Act C P}

omit [DecidableEq C] in
lemma Reads.requeueing {c : C} {t : Task P R} (h : Reads svc x c b t) (ht : t.Requeueing) :
    (x.task c).Requeueing ∨ (∃ reason, b = .retryOrDeadLetter c reason) ∨
      (∃ now, b = .ensureProcessingLeases c now) ∨ ∃ now, b = .recoverStale c now := by
  cases h with
  | fail reason => exact .inr (.inl ⟨reason, rfl⟩)
  | ensure now => exact .inr (.inr (.inl ⟨now, rfl⟩))
  | recover now => exact .inr (.inr (.inr ⟨now, rfl⟩))
  | watch here | lposFound here | lposMissing here | watchError here | lrange here
  | zscoreMissing here | zscorePresent here | zrange here | completed here | notCompleted here
  | recoverFail here =>
      rw [here]
      exact .inl trivial
  | _ => exact absurd ht id

/-- A client gets into `retry_or_dead_letter` or a scan by calling it. -/
lemma Transition.requeueing (h : Transition svc x b y) {d : C} (hd : (y.task d).Requeueing) :
    (x.task d).Requeueing ∨ (∃ reason, b = .retryOrDeadLetter d reason) ∨
      (∃ now, b = .ensureProcessingLeases d now) ∨ ∃ now, b = .recoverStale d now := by
  have hupdate : ∀ {c : C} {t : Task P R}, (d = c → t.Requeueing → (x.task c).Requeueing) →
      (Function.update x.task c t d).Requeueing → (x.task d).Requeueing := by
    intro c t ht hrequeue
    by_cases hdc : d = c
    · subst hdc
      rw [Function.update_self] at hrequeue
      exact ht rfl hrequeue
    · rwa [Function.update_of_ne hdc] at hrequeue
  cases h with
  | tick => exact .inl hd
  | @read c _ t reads =>
      by_cases hdc : d = c
      · subst hdc
        have htask : (x.goto d t).task d = t := Function.update_self _ _ _
        exact reads.requeueing (htask ▸ hd)
      · exact .inl (hupdate (fun h => absurd h hdc) hd)
  | build | rpush | delete | lmove | ack | reserveZadd =>
      exact .inl (hupdate (fun _ ht => absurd ht id) hd)
  | exec here | retryZrem here | ensureZadd here | drop here =>
      exact .inl (hupdate (fun _ _ => by rw [here]; trivial) hd)

end World

namespace Fleet

variable {W E : Type} [DecidableEq W] [DecidableEq E] [DecidableEq R] {q : QueueWorker P}

/-- No command fails and no worker is started anew. -/
def Lossless : Label W E P → Prop
  | .lost _ _ _ | .restart _ => False
  | _ => True

instance (a : Label W E P) : Decidable (Lossless a) :=
  match a with
  | .restart _ | .lost _ _ _ => isFalse not_false
  | .tick _ | .request _ _ | .runOnce _ _ | .go _ => isTrue trivial

/-- No request is in `retry_or_dead_letter` or in a scan. -/
lemma requests_not_requeueing {ok : State W E P R → Label W E P → Prop} {s : State W E P R}
    (hs : (fleet svc q W E).Run ok s) (e : E) : ¬(s.world.task (.inr e)).Requeueing := by
  refine hs.invariant (P := fun s => ∀ e, ¬(s.world.task (.inr e)).Requeueing) ?_ ?_ e
  · rintro s ⟨now, rfl⟩ e
    exact id
  · intro s a t _ _ ih h e he
    obtain ⟨-, ⟨-, hsame⟩ | ⟨b, hb, hworld⟩⟩ := step_eq h
    · exact ih e (hsame ▸ he)
    · rcases (World.step_transition hworld).requeueing he with hold | hcall
      · exact ih e hold
      · have hclient : client? b = some (.inr e) := by
          rcases hcall with ⟨_, rfl⟩ | ⟨_, rfl⟩ | ⟨_, rfl⟩ <;> rfl
        obtain ⟨r, rfl⟩ := request_of_client hb hclient
        cases hb
        cases r with
        | next =>
            simp only [Request.act] at hcall
            split at hcall <;> rcases hcall with ⟨_, h⟩ | ⟨_, h⟩ | ⟨_, h⟩ <;> cases h
        | _ => rcases hcall with ⟨_, h⟩ | ⟨_, h⟩ | ⟨_, h⟩ <;> cases h

/-! ### The workers -/

/-- `recover_stale` or `retry_or_dead_letter` goes on. -/
def Point.Requeueing : Point R → Prop
  | .recovering _ | .retrying => True
  | _ => False

instance : DecidablePred (Point.Requeueing (R := R)) := fun p =>
  match p with
  | .recovering _ | .retrying => isTrue trivial
  | .top | .reserve | .reserving | .idling | .checking _ | .discarding _ | .processing _ _
  | .acknowledging _ | .failing _ _ | .finishing => isFalse not_false

section Worker

variable (ρ : Reading)

/-- The counter of a worker with what it is about to add. -/
def Worker.reading (m : Worker R) (t : Task P R) : ℕ :=
  ρ.value m.counters + if m.point.Requeueing then ρ.carried t else 0

omit [DecidableEq R] in
lemma reading_of_requeueing {m m' : Worker R} {v : World C P R} {t : Task P R}
    (hpoint : m.point.Requeueing) (h : m.proceed svc q v t = some m') :
    m'.reading ρ t = ρ.value m.counters + ρ.carried t := by
  rw [Worker.proceed.eq_def] at h
  split at h <;> rename_i here <;> rw [here] at hpoint
  case h_2 =>
    split at h <;> cases h
    · rename_i result
      exact (Nat.add_zero _).trans (ρ.recover _ result)
    · rw [Worker.reading, here]
      rfl
  case h_11 =>
    split at h <;> cases h
    · rename_i outcome
      cases outcome with
      | none => exact (Nat.add_zero _).trans (ρ.missing _)
      | some d => exact (Nat.add_zero _).trans (ρ.retry _ d)
    · rw [Worker.reading, here]
      rfl
  all_goals exact absurd hpoint id

omit [DecidableEq R] in
lemma reading_of_not_requeueing {m m' : Worker R} {v : World C P R} {t t' : Task P R}
    (hpoint : ¬m.point.Requeueing) (h : m.proceed svc q v t' = some m')
    (hfailing : ∀ raw reason, m.point = .failing raw reason → ρ.carried t' = 0) :
    m'.reading ρ t' = m.reading ρ t := by
  rw [Worker.proceed.eq_def] at h
  have hold : m.reading ρ t = ρ.value m.counters := by
    rw [Worker.reading, if_neg hpoint, Nat.add_zero]
  rw [hold]
  split at h <;> rename_i here <;> rw [here] at hpoint
  case h_1 => cases h
  case h_2 | h_11 => exact absurd trivial hpoint
  case h_10 raw reason =>
    cases h
    exact congrArg _ (hfailing raw reason here)
  case h_8 =>
    split at h
    · split at h <;> cases h
      rfl
    · cases h
      exact ρ.fail _
  case h_9 =>
    cases h
    exact ρ.process _
  case h_5 =>
    split at h <;> cases h
    · rfl
    · rw [Worker.reading, here]
      rfl
  all_goals repeat' split at h
  all_goals cases h; rfl

end Worker

section Steps

variable (ρ : Reading) {ok : State W E P R → Label W E P → Prop} {s t : State W E P R}

/-- A worker goes on in its session. -/
lemma client_lossless (hs : Sessions s) {a : Label W E P} (ha : Lossless a)
    (h : step svc q s a = some t) (w : W) : t.client w = s.client w := by
  by_cases hw : a.worker? = some w
  · have hsession : (t.worker w).session = (s.worker w).session := by
      obtain ⟨hworkers, hworld⟩ := step_eq h
      cases a with
      | tick | request => cases hw
      | runOnce w' =>
          cases hw
          rw [workers] at hworkers
          split at hworkers
          · rw [← Option.some.inj hworkers, Function.update_self]
          · cases hworkers
      | go w' =>
          cases hw
          obtain ⟨m, hm, hupdate⟩ := Option.map_eq_some_iff.mp hworkers
          rw [← hupdate, Function.update_self]
          exact (linked_proceed (hs.linked w) hworld hm).1
      | lost | restart => exact absurd ha id
    rw [State.client, hsession, State.client]
  · rw [State.client, worker_of_ne h hw, State.client]

/-- What a worker has counted and is about to count moves with the history. -/
lemma go_reading (hs : (fleet svc q W E).Run ok s) {w : W}
    (h : step svc q s (.go w) = some t) :
    (t.worker w).reading ρ (t.task w) + ρ.ofLog svc s.world.log =
      (s.worker w).reading ρ (s.task w) + ρ.ofLog svc t.world.log := by
  have hsessions := run_sessions hs
  have hlinked := hsessions.linked w
  obtain ⟨hworkers, hworld⟩ := step_eq h
  obtain ⟨m, hm, hupdate⟩ := Option.map_eq_some_iff.mp hworkers
  rw [State.task, client_lossless hsessions (a := .go w) trivial h, ← hupdate, Function.update_self]
  by_cases hpoint : (s.worker w).point.Requeueing
  · have hact : act q s (.go w) = some (.next (s.client w)) := by
      rw [act]
      cases hp : (s.worker w).point with
      | recovering | retrying => rfl
      | _ =>
          rw [hp] at hpoint
          exact absurd hpoint id
    obtain ⟨hnone, -⟩ | ⟨b, hb, hstep⟩ := hworld
    · rw [hact] at hnone
      cases hnone
    · rw [hact] at hb
      cases hb
      have hcarried := World.next_carried ρ hstep
      rw [reading_of_requeueing ρ hpoint hm, Worker.reading, if_pos hpoint, State.task]
      omega
  · have hlog : ρ.ofLog svc t.world.log = ρ.ofLog svc s.world.log := by
      obtain ⟨-, hsame⟩ | ⟨b, hb, hstep⟩ := hworld
      · rw [hsame]
      · refine World.Transition.readings_of_ne ρ (World.step_transition hstep) ?_
        rintro c call seen rfl hc
        rw [act] at hb
        cases hp : (s.worker w).point with
        | reserving =>
            rw [hp] at hb hlinked
            cases hb
            obtain ⟨raw, hraw | ⟨deadline, hraw⟩⟩ := hlinked
            · cases hraw.symm.trans hc
            · cases hraw.symm.trans hc
        | recovering | retrying =>
            rw [hp] at hpoint
            exact hpoint trivial
        | _ =>
            rw [hp] at hb
            cases hb
    rw [hlog, reading_of_not_requeueing ρ (t := s.task w) hpoint hm fun raw reason hp => ?_]
    obtain ⟨hnone, -⟩ | ⟨b, hb, hstep⟩ := hworld
    · rw [act, hp] at hnone
      cases hnone
    · rw [act, hp] at hb
      cases hb
      obtain ⟨raw', -, heq⟩ := Option.map_eq_some_iff.mp hstep
      rw [← heq]
      have htask : ∀ u, (s.world.goto (s.client w) u).task (s.client w) = u := fun u =>
        Function.update_self _ _ _
      rw [htask]
      rfl

/-- A worker that calls `run_once` has counted nothing. -/
lemma runOnce_reading (hs : Sessions s) {w : W} {monotonic : ℚ}
    (h : step svc q s (.runOnce w monotonic) = some t) :
    (t.worker w).reading ρ (t.task w) = (s.worker w).reading ρ (s.task w) := by
  obtain ⟨hworkers, hworld⟩ := step_eq h
  rw [workers] at hworkers
  split at hworkers
  case h_2 => cases hworkers
  rename_i htop
  rw [State.task, client_lossless hs (a := .runOnce w monotonic) trivial h,
    ← Option.some.inj hworkers, Function.update_self, Worker.reading, Worker.reading, htop]
  refine congrArg (ρ.value (s.worker w).counters + ·) ?_
  dsimp only
  split
  · rfl
  · rename_i hlt
    obtain ⟨hnone, -⟩ | ⟨b, hb, hstep⟩ := hworld
    · rw [act, if_neg hlt] at hnone
      cases hnone
    · rw [act, if_neg hlt] at hb
      cases hb
      obtain ⟨-, heq⟩ := Option.ite_none_right_eq_some.mp hstep
      have htask : ∀ u, (s.world.goto (s.client w) u).task (s.client w) = u := fun u =>
        Function.update_self _ _ _
      rw [← Option.some.inj heq, htask]
      rfl

variable [Fintype W]

lemma readings_step (hs : (fleet svc q W E).Run ok s) {a : Label W E P} (ha : Lossless a)
    (h : step svc q s a = some t) :
    ∑ w, (t.worker w).reading ρ (t.task w) + ρ.ofLog svc s.world.log =
      ∑ w, (s.worker w).reading ρ (s.task w) + ρ.ofLog svc t.world.log := by
  have hsessions := run_sessions hs
  have hrest : ∀ w, a.worker? ≠ some w →
      (t.worker w).reading ρ (t.task w) = (s.worker w).reading ρ (s.task w) := by
    intro w hw
    rw [State.task, client_lossless hsessions ha h, worker_of_ne h hw, State.task, State.client,
      session_task h fun heq => absurd heq hw]
  obtain ⟨hworkers, hworld⟩ := step_eq h
  have hlog (hne : ∀ c call seen, act q s a = some (.next c) →
      s.world.task c ≠ .retryExec call seen) :
      ρ.ofLog svc t.world.log = ρ.ofLog svc s.world.log := by
    obtain ⟨-, hsame⟩ | ⟨b, hb, hstep⟩ := hworld
    · rw [hsame]
    · refine World.Transition.readings_of_ne ρ (World.step_transition hstep) ?_
      rintro c call seen rfl
      exact hne c call seen hb
  cases a with
  | tick =>
      have hsame := fun w => hrest w (by rintro ⟨⟩)
      rw [hlog (by rintro _ _ _ ⟨⟩), Finset.sum_congr rfl fun w _ => hsame w]
  | request e r =>
      have hsame := fun w => hrest w (by rintro ⟨⟩)
      rw [hlog ?_, Finset.sum_congr rfl fun w _ => hsame w]
      intro c call seen hb hc
      have hnot := requests_not_requeueing hs e
      cases r with
      | next =>
          simp only [act, Request.act] at hb
          split at hb
          · cases hb
          · cases hb
            rw [hc] at hnot
            exact hnot trivial
      | _ => cases hb
  | runOnce w =>
      refine sum_moves (w := w) ?_ fun v hv => hrest v fun heq => hv (Option.some.inj heq).symm
      rw [hlog ?_, runOnce_reading ρ hsessions h]
      intro c call seen hb
      rw [act] at hb
      split at hb <;> cases hb
  | go w =>
      exact sum_moves (w := w) (go_reading ρ hs h) fun v hv =>
        hrest v fun heq => hv (Option.some.inj heq).symm
  | lost | restart => exact absurd ha id

variable (hok : ∀ s a, ok s a → Lossless a)

include hok in
/-- What the workers have counted and are about to count is what the history says. -/
lemma run_readings (h : (fleet svc q W E).Run ok s) :
    ∑ w, (s.worker w).reading ρ (s.task w) = ρ.ofLog svc s.world.log := by
  refine h.invariant (P := fun s => ∑ w, (s.worker w).reading ρ (s.task w) =
    ρ.ofLog svc s.world.log) ?_ ?_
  · rintro s ⟨now, rfl⟩
    exact Finset.sum_eq_zero fun w _ => ρ.zero
  · intro s a t hs hoka ih ht
    have hstep := readings_step ρ hs (hok s a hoka) ht
    omega

end Steps

/-- A worker whose handler fails for the payload `true`. -/
def choosyWorker : QueueWorker Bool :=
  .init (1 / 4) 30 10 fun payload => if payload then some (.error "ValueError") else none

/-- A queue for it, with one retry. -/
abbrev choosyQueue : QueueService Bool (Job Bool) := .plain 1 60 sixty_pos

/-- A job that fails twice and one that is processed. -/
def choosyRun : List (Label Bool Unit Bool) :=
  [.request () (.joinQueue 7 "sample" true), .request () .next,
    .request () (.joinQueue 8 "sample" false), .request () .next] ++
  .runOnce true 0 :: List.replicate 10 (.go true) ++
  .runOnce true 0 :: List.replicate 4 (.go true) ++ .tick 1 :: List.replicate 3 (.go true) ++
  .runOnce true 1 :: List.replicate 10 (.go true)

/-- The entries whose handlers have failed. -/
def raisedOf (es : List (Execution W R)) : List R :=
  es.filterMap fun
    | .raised _ raw _ => some raw
    | _ => none

section Outcomes

variable {ok : State W E P R → Label W E P → Prop} {s t : State W E P R}

/-- The counter of processed jobs with the job that is about to be counted. -/
def Worker.handled (m : Worker R) : ℕ :=
  m.counters.processed + if m.point.Acknowledging then 1 else 0

lemma go_outcomes {w : W} (h : step svc q s (.go w) = some t) :
    (t.worker w).counters.failed =
        (s.worker w).counters.failed + (raisedOf (executions svc q s (.go w))).length ∧
      (t.worker w).handled =
        (s.worker w).handled + (returnedOf (executions svc q s (.go w))).length := by
  obtain ⟨hworkers, hworld⟩ := step_eq h
  obtain ⟨m, hm, hupdate⟩ := Option.map_eq_some_iff.mp hworkers
  rw [← hupdate, Function.update_self]
  rw [Worker.proceed.eq_def] at hm
  rw [executions, Worker.handled, Worker.handled]
  split at hm <;> rename_i here <;> simp only [here]
  case h_1 => cases hm
  case h_9 =>
    cases hm
    exact ⟨rfl, rfl⟩
  case h_8 =>
    split at hm
    · split at hm <;> cases hm
      exact ⟨rfl, rfl⟩
    · cases hm
      exact ⟨rfl, rfl⟩
  case h_6 =>
    -- whatever the worker sees, a handler that is started neither fails nor returns
    split at hm <;> cases hm <;> split <;> exact ⟨rfl, rfl⟩
  case h_5 =>
    split at hm <;> cases hm
    · exact ⟨rfl, rfl⟩
    · rw [here]
      exact ⟨rfl, rfl⟩
  case h_2 =>
    split at hm <;> cases hm
    · exact ⟨rfl, rfl⟩
    · rw [here]
      exact ⟨rfl, rfl⟩
  case h_11 =>
    split at hm
    · rename_i outcome _
      cases hm
      cases outcome with
      | none => exact ⟨rfl, rfl⟩
      | some d => cases d <;> exact ⟨rfl, rfl⟩
    · cases hm
      rw [here]
      exact ⟨rfl, rfl⟩
  all_goals repeat' split at hm
  all_goals cases hm
  all_goals exact ⟨rfl, rfl⟩

lemma runOnce_outcomes {w : W} {monotonic : ℚ} (h : step svc q s (.runOnce w monotonic) = some t)
    (v : W) : (t.worker v).counters = (s.worker v).counters ∧
      (t.worker v).handled = (s.worker v).handled := by
  by_cases hv : v = w
  · subst hv
    obtain ⟨hworkers, -⟩ := step_eq h
    rw [workers] at hworkers
    split at hworkers
    · rename_i htop
      rw [← Option.some.inj hworkers, Function.update_self, Worker.handled, Worker.handled, htop]
      dsimp only
      split <;> exact ⟨rfl, rfl⟩
    · cases hworkers
  · rw [worker_of_ne h fun heq => hv (Option.some.inj heq).symm]
    exact ⟨rfl, rfl⟩

variable [Fintype W] (hok : ∀ s a, ok s a → Lossless a)

omit [DecidableEq W] [DecidableEq R] [Fintype W] in
lemma raisedOf_append (es es' : List (Execution W R)) :
    raisedOf (es ++ es') = raisedOf es ++ raisedOf es' := List.filterMap_append

include hok in
/-- **The outcomes of the handlers are counted once**: in every run in which no command fails and
no worker is started anew, the workers have counted as many failed jobs as handlers have raised an
exception, and as many processed jobs, with those that are just being acknowledged, as handlers
have returned. -/
theorem outcomes_counted {es : List (Execution W R)}
    (h : (fleet svc q W E).Emits ok (executions svc q) s es) :
    ∑ w, (s.worker w).counters.failed = (raisedOf es).length ∧
      ∑ w, (s.worker w).handled = (returnedOf es).length := by
  refine h.invariant (P := fun s es => ∑ w, (s.worker w).counters.failed = (raisedOf es).length ∧
    ∑ w, (s.worker w).handled = (returnedOf es).length) ?_ ?_
  · rintro s ⟨now, rfl⟩
    exact ⟨Finset.sum_eq_zero fun w _ => rfl, Finset.sum_eq_zero fun w _ => rfl⟩
  · rintro s a t es hs hoka ⟨hfailed, hhandled⟩ ht
    rw [raisedOf_append, returnedOf_append, List.length_append, List.length_append]
    have hrest : ∀ w, a.worker? ≠ some w → t.worker w = s.worker w := fun w => worker_of_ne ht
    cases a with
    | tick | request =>
        have hsame : t.worker = s.worker := funext fun w => hrest w (by rintro ⟨⟩)
        rw [hsame]
        exact ⟨hfailed, hhandled⟩
    | runOnce w =>
        rw [Finset.sum_congr rfl fun v _ => congrArg Counters.failed (runOnce_outcomes ht v).1,
          Finset.sum_congr rfl fun v _ => (runOnce_outcomes ht v).2]
        exact ⟨hfailed, hhandled⟩
    | go w =>
        obtain ⟨hf, hh⟩ := go_outcomes ht
        have hne : ∀ v, v ≠ w → t.worker v = s.worker v := fun v hv =>
          hrest v fun heq => hv (Option.some.inj heq).symm
        have hsumf := sum_moves (f := fun v => (t.worker v).counters.failed)
          (g := fun v => (s.worker v).counters.failed) (a := 0) hf fun v hv => by rw [hne v hv]
        have hsumh := sum_moves (f := fun v => (t.worker v).handled)
          (g := fun v => (s.worker v).handled) (a := 0) hh fun v hv => by rw [hne v hv]
        exact ⟨by omega, by omega⟩
    | lost | restart => exact absurd (hok s _ hoka) id

end Outcomes

/-- Two handlers have failed and one has returned. -/
theorem outcomes_counted_sample : ∃ (s : State Bool Unit Bool (Job Bool))
    (es : List (Execution Bool (Job Bool))), (raisedOf es).map Job.id = [7, 7] ∧
      (returnedOf es).map Job.id = [8] ∧ ∑ w, (s.worker w).counters.failed = 2 ∧
      ∑ w, (s.worker w).handled = 1 := by
  obtain ⟨s, es, hrun, hp⟩ := System.exists_emits_of_trace
    (fleet choosyQueue choosyWorker Bool Unit) (fun _ a => Lossless a)
    (executions choosyQueue choosyWorker) ⟨0, rfl⟩ choosyRun
    (fun _ es => (raisedOf es).map Job.id = [7, 7] ∧ (returnedOf es).map Job.id = [8])
    (by decide +kernel)
  obtain ⟨hraised, hreturned⟩ := of_decide_eq_true hp
  obtain ⟨hfailed, hhandled⟩ := outcomes_counted (fun _ _ h => h) hrun
  refine ⟨s, es, hraised, hreturned, hfailed.trans ?_, hhandled.trans ?_⟩
  · simpa using congrArg List.length hraised
  · simpa using congrArg List.length hreturned

end Fleet

end FinOpsPipeline
