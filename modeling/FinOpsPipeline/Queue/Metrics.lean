import FinOpsPipeline.Queue.Executions
import Mathlib.Data.Fintype.BigOperators

/-!
What the counters of the workers say about the queue.

The workers count the jobs that they have acknowledged after `process_job`; the lengths of the
three lists are what KEDA and the status endpoint read.

* `Steady`: no command fails, and neither the manual endpoint nor the reset is used.
* `flow`: what one step does to the number of jobs in the queue.
* `Balanced`: the invariant. `jobs_balance`: the jobs that have been joined are those in the three
  lists and those that the workers have counted.
-/

namespace FinOpsPipeline

variable {C P R : Type} [DecidableEq C] [DecidableEq R] {svc : QueueService P R}

/-! ### The flow of one step -/

namespace World

/-- The number of jobs in the three lists. -/
def jobs (x : World C P R) : ℕ :=
  x.store.queue.items.length + x.store.processing.items.length + x.store.deadLetter.items.length

/-- The number of jobs that have been joined. -/
def joined (svc : QueueService P R) (x : World C P R) : ℕ := (pushedKeys svc.labels x.log).length

variable {x y : World C P R} {b : Act C P}

lemma length_lrem {k : ListKey R} {raw : R} (h : raw ∈ k.items) :
    (k.lrem raw).items.length + 1 = k.items.length := by
  rw [ListKey.lrem_items, List.length_erase_of_mem h]
  have := List.length_pos_of_mem h
  omega

lemma jobs_retry {c : C} {call : RetryCall R}
    (h : call.raw ∈ x.store.processing.items) : (x.retry svc c call).jobs = x.jobs := by
  have hlength := length_lrem h
  cases hdestination : svc.destination call with
  | queue =>
      simp only [jobs, retry, hdestination, ListKey.rpush_items, List.length_append,
        List.length_singleton]
      omega
  | deadLetter =>
      simp only [jobs, retry, hdestination, ListKey.rpush_items, List.length_append,
        List.length_singleton]
      omega

/-- **The flow of one step**: it moves jobs or joins new ones, unless it acknowledges, discards or
deletes. -/
lemma flow (inv : x.Inv svc) (h : Transition svc x b y) :
    (y.joined svc + x.jobs = x.joined svc + y.jobs ∧
        (∀ raw, .acked raw ∈ y.log → .acked raw ∈ x.log) ∧ y.log ≠ .cleared :: x.log) ∨
      (∃ c raw, b = .acknowledge c ∧ (x.task c).reservation = some raw ∧ y = x.ack svc c raw) ∨
      (∃ c raw todo result, x.task c = .recoverDrop raw todo result ∧
        y = x.drop c raw todo result) ∨
      ∃ c current keys, x.task c = .clearScan current keys := by
  cases h with
  | tick | read | build | reserveZadd | retryZrem | ensureZadd =>
      exact .inl ⟨rfl, fun _ h => h, cons_log_ne _⟩
  | @rpush c jobs here values =>
      refine .inl ⟨?_, fun raw hraw => ?_, by rintro ⟨⟩⟩
      · simp only [joined, World.jobs, pushedKeys_cons, Event.pushedKeys, List.length_append,
          List.length_map, ListKey.rpush_items]
        omega
      · exact (List.mem_cons.mp hraw).resolve_left (by rintro ⟨⟩)
  | @lmove c raw rest free head =>
      refine .inl ⟨?_, fun raw hraw => ?_, by rintro ⟨⟩⟩
      · simp only [joined, World.jobs, pushedKeys_cons, Event.pushedKeys, List.nil_append,
          ListKey.lpop_items, ListKey.rpush_items, head, List.tail_cons, List.length_append,
          List.length_cons, List.length_nil]
        omega
      · exact (List.mem_cons.mp hraw).resolve_left (by rintro ⟨⟩)
  | @ack c raw held => exact .inr (.inl ⟨c, raw, rfl, held, rfl⟩)
  | @exec c call seen here untouched =>
      have hc := inv.tasks c
      rw [here] at hc
      refine .inl ⟨?_, fun raw hraw => ?_, by rintro ⟨⟩⟩
      · have hjoined : (x.retry svc c call).joined svc = x.joined svc := rfl
        rw [hjoined, jobs_retry (hc.2 untouched)]
      · exact (List.mem_cons.mp hraw).resolve_left (by rintro ⟨⟩)
  | @drop c raw todo result here => exact .inr (.inr (.inl ⟨c, raw, todo, result, here, rfl⟩))
  | @delete c current keys here => exact .inr (.inr (.inr ⟨c, current, keys, here⟩))

end World

/-! ### The reset -/

/-- The client is in `clear`. -/
def Task.Clearing {P R : Type} : Task P R → Prop
  | .clearLength | .clearProcessingLength _ | .clearDeadLetterLength _ | .clearScan _ _ => True
  | _ => False

namespace World

variable {x y : World C P R} {b : Act C P}

omit [DecidableEq C] [DecidableEq R] in
lemma not_clearing_recoverNext (result : Recovered) (todo : List R) :
    ¬(Task.recoverNext result todo : Task P R).Clearing := by
  cases todo <;> exact id

omit [DecidableEq C] [DecidableEq R] in
lemma not_clearing_ensureNext (scan : Bool) (now : ℚ) (added : ℕ) (todo : List R) :
    ¬(Task.ensureNext scan now added todo : Task P R).Clearing := by
  cases todo with
  | nil => cases scan <;> exact id
  | cons => exact id

omit [DecidableEq C] [DecidableEq R] in
lemma not_clearing_retryReturn (call : RetryCall R) (outcome : Option Destination) :
    ¬(Task.retryReturn call outcome : Task P R).Clearing := by
  rw [Task.retryReturn.eq_def]
  split
  · exact id
  all_goals exact not_clearing_recoverNext _ _

omit [DecidableEq C] in
lemma Reads.clearing {c : C} {t : Task P R} (h : Reads svc x c b t) (ht : t.Clearing) :
    (x.task c).Clearing ∨ b = .clear c := by
  cases h with
  | clear => exact .inr rfl
  | scan _ here | length here | processingLength here | deadLetterLength here =>
      rw [here]
      exact .inl trivial
  | lrange | zscorePresent => exact absurd ht (not_clearing_ensureNext _ _ _ _)
  | zrange => exact absurd ht (not_clearing_recoverNext _ _)
  | _ => exact absurd ht id

/-- A client gets into `clear` by calling it. -/
lemma Transition.clearing (h : Transition svc x b y) {d : C} (hd : (y.task d).Clearing) :
    (x.task d).Clearing ∨ b = .clear d := by
  have hupdate : ∀ {c : C} {t : Task P R}, (t.Clearing → (x.task c).Clearing ∨ b = .clear c) →
      (Function.update x.task c t d).Clearing → (x.task d).Clearing ∨ b = .clear d := by
    intro c t ht hclear
    by_cases hdc : d = c
    · subst hdc
      rw [Function.update_self] at hclear
      exact ht hclear
    · rw [Function.update_of_ne hdc] at hclear
      exact .inl hclear
  cases h with
  | tick => exact .inl hd
  | read reads => exact hupdate reads.clearing hd
  | build | rpush | delete | lmove | ack | reserveZadd => exact hupdate (fun ht => absurd ht id) hd
  | exec | retryZrem =>
      exact hupdate (fun ht => absurd ht (not_clearing_retryReturn _ _)) hd
  | ensureZadd => exact hupdate (fun ht => absurd ht (not_clearing_ensureNext _ _ _ _)) hd
  | drop => exact hupdate (fun ht => absurd ht (not_clearing_recoverNext _ _)) hd

end World

namespace Fleet

variable {W E : Type} [DecidableEq W] [DecidableEq E] {q : QueueWorker P}

/-- No command fails and no worker is started anew, and neither `/api/queue/process` nor
`/api/queue/reset` is called. -/
def Steady : Label W E P → Prop
  | .request _ .processQueue | .request _ .resetQueue | .lost _ _ _ | .restart _ => False
  | _ => True

instance (a : Label W E P) : Decidable (Steady a) := by
  cases a with
  | request e r => cases r <;> unfold Steady <;> infer_instance
  | _ => unfold Steady; infer_instance

/-- The client is outside every method, or joins jobs. -/
def Joining : Task P R → Prop
  | .idle _ | .enqueueRpush _ => True
  | _ => False

/-- The requests join jobs, and no client is in `clear`. -/
structure Calm (s : State W E P R) : Prop where
  joining : ∀ e, Joining (s.world.task (.inr e))
  unclear : ∀ c, ¬(s.world.task c).Clearing

omit [DecidableEq W] [DecidableEq E] [DecidableEq R] in
lemma Steady.ne_clear {s : State W E P R} {a : Label W E P} (ha : Steady a)
    {b : Act (Client W E) P} (hb : act q s a = some b) (c : Client W E) : b ≠ .clear c := by
  rintro rfl
  have hpoint : ∀ {c' : Client W E} {m : Point R}, m.act c' ≠ some (Act.clear c : Act _ P) := by
    intro c' m
    cases m <;> rintro ⟨⟩
  cases a with
  | tick => cases hb
  | request e r =>
      cases r with
      | next =>
          simp only [act, Request.act] at hb
          split at hb <;> cases hb
      | resetQueue => exact ha
      | _ => cases hb
  | runOnce w =>
      rw [act] at hb
      split at hb <;> cases hb
  | go w => exact hpoint hb
  | lost | restart => exact ha

omit [DecidableEq W] [DecidableEq E] [DecidableEq R] in
lemma request_of_client {s : State W E P R} {a : Label W E P} {b : Act (Client W E) P}
    (hb : act q s a = some b) {e : E} (he : client? b = some (.inr e)) :
    ∃ r, a = .request e r := by
  have hpoint : ∀ {w : W} {m : Point R}, m.act (s.client w) ≠ some b := by
    intro w m hm
    cases m <;> first | cases hm; done | cases hm; cases he
  cases a with
  | tick =>
      cases hb
      cases he
  | request e' r =>
      cases hb
      refine ⟨r, ?_⟩
      cases r with
      | next =>
          simp only [Request.act] at he
          split at he <;> cases he <;> rfl
      | _ => cases he; rfl
  | runOnce w =>
      rw [act] at hb
      split at hb <;> cases hb
      cases he
  | go w => exact absurd hb hpoint
  | lost w effect =>
      rw [act] at hb
      split at hb
      · exact absurd hb hpoint
      · cases hb
  | restart => cases hb

/-- A request that joins jobs goes on doing so. -/
lemma joining_request {s t : State W E P R} {e : E} {r : Request P}
    (ha : Steady (.request e r : Label W E P)) (hs : Joining (s.world.task (.inr e)))
    (h : step svc q s (.request e r) = some t) : Joining (t.world.task (.inr e)) := by
  obtain ⟨-, ⟨hnone, -⟩ | ⟨b, hb, hworld⟩⟩ := step_eq h
  · cases hnone
  cases hb
  have hjoin : ∀ u : Task P R, Joining u →
      Joining (Function.update s.world.task (.inr e) u (.inr e)) := by
    intro u hu
    rwa [Function.update_self]
  generalize t.world = v at hworld
  cases r with
  | joinQueue | bulkJoinQueue =>
      rw [Request.act, World.step] at hworld
      split at hworld <;> cases hworld
      exact hjoin _ trivial
  | processQueue | resetQueue => exact absurd ha id
  | scanReply keys =>
      rw [Request.act, World.step] at hworld
      split at hworld
      · rename_i hclear
        rw [hclear] at hs
        exact absurd hs id
      · cases hworld
  | next =>
      cases htask : s.world.task (.inr e) with
      | idle =>
          simp only [Request.act, htask, World.step, World.next] at hworld
          cases hworld
      | enqueueRpush jobs =>
          simp only [Request.act, htask, World.step, World.next, Option.some.injEq] at hworld
          rw [← hworld, World.rpush.eq_def]
          split <;> exact hjoin _ trivial
      | _ =>
          rw [htask] at hs
          exact absurd hs id

lemma Calm.step {s t : State W E P R} (hs : Calm s) {a : Label W E P} (ha : Steady a)
    (h : Fleet.step svc q s a = some t) : Calm t := by
  refine ⟨fun e => ?_, fun c hc => ?_⟩
  · obtain ⟨-, ⟨-, hsame⟩ | ⟨b, hb, hworld⟩⟩ := step_eq h
    · rw [hsame]
      exact hs.joining e
    · by_cases hclient : client? b = some (.inr e)
      · obtain ⟨r, rfl⟩ := request_of_client hb hclient
        exact joining_request ha (hs.joining e) h
      · rw [step_task_of_ne hworld hclient]
        exact hs.joining e
  · obtain ⟨-, ⟨-, hsame⟩ | ⟨b, hb, hworld⟩⟩ := step_eq h
    · exact hs.unclear c (hsame ▸ hc)
    · rcases (World.step_transition hworld).clearing hc with hold | hclear
      · exact hs.unclear c hold
      · exact ha.ne_clear hb c hclear

section Balance

variable [Fintype W]

omit [DecidableEq E] [DecidableEq C] [DecidableEq R] in
/-- Of a sum one term moves. -/
lemma sum_moves {f g : W → ℕ} {w : W} {a b : ℕ} (hw : f w + a = g w + b)
    (hne : ∀ v, v ≠ w → f v = g v) : ∑ v, f v + a = ∑ v, g v + b := by
  have hrest : ∑ v ∈ Finset.univ.erase w, f v = ∑ v ∈ Finset.univ.erase w, g v :=
    Finset.sum_congr rfl fun v hv => hne v (Finset.ne_of_mem_erase hv)
  have hf := Finset.add_sum_erase Finset.univ f (Finset.mem_univ w)
  have hg := Finset.add_sum_erase Finset.univ g (Finset.mem_univ w)
  omega

/-- The workers hold jobs that are in processing, what has been acknowledged has left the queue,
no job is discarded, and the counters balance. -/
structure Balanced (svc : QueueService P R) (s : State W E P R) : Prop where
  held : ∀ w raw, (s.task w).processed = some raw → raw ∈ s.world.store.processing.items
  gone : ∀ raw, .acked raw ∈ s.world.log →
    s.world.Pushed svc (svc.idOf raw) ∧ s.world.population svc (svc.idOf raw) = 0
  checked : ∀ w raw, (s.worker w).point ≠ .discarding raw
  balance : s.world.joined svc = s.world.jobs + ∑ w, (s.worker w).counters.processed

omit [DecidableEq W] [DecidableEq E] [DecidableEq R] in
/-- A job that has been acknowledged is not in processing. -/
lemma Balanced.not_held {s : State W E P R} (hb : Balanced svc s) {raw raw' : R}
    (hraw : .acked raw ∈ s.world.log) (hid : svc.idOf raw = svc.idOf raw') :
    raw' ∉ s.world.store.processing.items := by
  intro hin
  have hzero := (hb.gone raw hraw).2
  have hpos : 0 < s.world.population svc (svc.idOf raw) :=
    Ledger.population_pos.mpr
      ⟨raw', List.mem_append_left _ (List.mem_append_right _ hin), hid.symm⟩
  omega

omit [DecidableEq W] [DecidableEq E] [DecidableEq R] in
/-- In a steady run it is a worker that acknowledges, after `process_job`. -/
lemma Balanced.acks {s : State W E P R} (hsessions : Sessions s) (hcalm : Calm s)
    (hb : Balanced svc s) {a : Label W E P} (ha : Steady a) {c : Client W E} {raw : R}
    (hact : act q s a = some (.acknowledge c)) (hraw : (s.world.task c).reservation = some raw) :
    ∃ w, a = .go w ∧ c = s.client w ∧ (s.worker w).point = .acknowledging raw := by
  cases a with
  | tick => cases hact
  | request e r =>
      cases r with
      | next =>
          have hjoining := hcalm.joining e
          simp only [act, Request.act] at hact
          split at hact
          · rename_i hholding
            rw [hholding] at hjoining
            exact absurd hjoining id
          · cases hact
      | _ => cases hact
  | runOnce w =>
      rw [act] at hact
      split at hact <;> cases hact
  | go w =>
      rw [act] at hact
      cases hpoint : (s.worker w).point with
      | discarding raw' => exact absurd hpoint (hb.checked w raw')
      | acknowledging raw' =>
          rw [hpoint] at hact
          cases hact
          have hlinked := hsessions.linked w
          rw [hpoint] at hlinked
          change s.world.task (s.client w) = .holding raw' at hlinked
          rw [hlinked] at hraw
          cases hraw
          exact ⟨w, rfl, rfl, hpoint⟩
      | _ =>
          rw [hpoint] at hact
          cases hact
  | lost | restart => exact absurd ha id

omit [Fintype W] [DecidableEq W] [DecidableEq E] [DecidableEq C] [DecidableEq R] in
/-- Only a worker that acknowledges counts a job. -/
lemma proceed_processed {m m' : Worker R} {v : World C P R} {t : Task P R}
    (h : m.proceed svc q v t = some m') :
    m'.counters.processed =
      m.counters.processed + if m.point.Acknowledging then 1 else 0 := by
  rw [Worker.proceed.eq_def] at h
  split at h <;> rename_i hpoint
  case h_1 => cases h
  case h_9 =>
    cases h
    simp only [hpoint, Point.Acknowledging, if_true, Counters.process]
  case h_11 =>
    simp only [hpoint, Point.Acknowledging, if_false, Nat.add_zero]
    split at h
    · rename_i outcome
      cases h
      cases outcome with
      | none => rfl
      | some destination => cases destination <;> rfl
    · cases h
      rfl
  all_goals simp only [hpoint, Point.Acknowledging, if_false, Nat.add_zero]
  all_goals repeat' split at h
  all_goals first
    | cases h; done
    | cases h; rfl

omit [Fintype W] in
lemma processed_step {s t : State W E P R} {a : Label W E P} (ha : Steady a)
    (h : Fleet.step svc q s a = some t) (w : W) :
    (t.worker w).counters.processed = (s.worker w).counters.processed +
      if a.worker? = some w ∧ (s.worker w).point.Acknowledging then 1 else 0 := by
  by_cases hw : a.worker? = some w
  · obtain ⟨hworkers, -⟩ := step_eq h
    simp only [hw, true_and]
    cases a with
    | tick | request => cases hw
    | runOnce w' =>
        cases hw
        rw [workers] at hworkers
        split at hworkers
        · rename_i htop
          rw [← Option.some.inj hworkers, Function.update_self, htop]
          rfl
        · cases hworkers
    | go w' =>
        cases hw
        obtain ⟨m, hm, hupdate⟩ := Option.map_eq_some_iff.mp hworkers
        rw [← hupdate, Function.update_self]
        exact proceed_processed hm
    | lost | restart => exact absurd ha id
  · simp only [worker_of_ne h hw, hw, false_and, if_false, Nat.add_zero]

omit [Fintype W] [DecidableEq W] [DecidableEq E] [DecidableEq C] [DecidableEq R] in
/-- A worker discards a job after it has seen its marker. -/
lemma proceed_discarding {m m' : Worker R} {v : World C P R} {t : Task P R} {raw : R}
    (h : m.proceed svc q v t = some m') (hpoint : m'.point = .discarding raw) :
    m.point = .checking raw ∧ v.store.completed.live (svc.idOf raw) v.clock = true := by
  rw [Worker.proceed.eq_def] at h
  split at h <;> rename_i here
  case h_6 raw' =>
    split at h
    · rename_i hlive
      cases h
      cases hpoint
      exact ⟨here, hlive⟩
    · cases h
      cases hpoint
  case h_1 => cases h
  all_goals repeat' split at h
  all_goals first
    | cases h; done
    | cases h; cases hpoint
    | cases h; rw [here] at hpoint; cases hpoint

section Steady

variable {ok : State W E P R → Label W E P → Prop}
  (hok : ∀ s a, ok s a → Undisturbed svc q s a ∧ Steady a) {s t : State W E P R}

/-- A step either acknowledges the job of a worker that is in processing, or leaves the balance of
the queue and the counters alone. -/
lemma Balanced.flow (hs : (fleet svc q W E).Run ok s) (hcalm : Calm s) (hb : Balanced svc s)
    {a : Label W E P} (ha : Steady a) (hsent : AckSent s a) (h : Fleet.step svc q s a = some t) :
    (∃ w raw, a.worker? = some w ∧ (s.worker w).point = .acknowledging raw ∧
        s.task w = .holding raw ∧ t.world = s.world.ack svc (s.client w) raw) ∨
      (t.world.joined svc + s.world.jobs = s.world.joined svc + t.world.jobs ∧
        (∀ raw, .acked raw ∈ t.world.log → .acked raw ∈ s.world.log) ∧
        t.world.log ≠ .cleared :: s.world.log ∧
        ∀ w, ¬(a.worker? = some w ∧ (s.worker w).point.Acknowledging)) := by
  have hsessions := run_sessions hs
  have inv : s.world.Inv svc := World.reachable_inv (reachable_world hs)
  by_cases hack : ∃ w raw, a.worker? = some w ∧ (s.worker w).point = .acknowledging raw
  · obtain ⟨w, raw, hw, hpoint⟩ := hack
    have hlinked := hsessions.linked w
    rw [hpoint] at hlinked
    exact .inl ⟨w, raw, hw, hpoint, hlinked, acknowledged hsessions hsent hw h hpoint⟩
  · have hnone : ∀ w, ¬(a.worker? = some w ∧ (s.worker w).point.Acknowledging) := by
      rintro w ⟨hw, hpoint⟩
      cases hp : (s.worker w).point with
      | acknowledging raw => exact hack ⟨w, raw, hw, hp⟩
      | _ =>
          rw [hp] at hpoint
          exact hpoint
    refine .inr ?_
    obtain ⟨-, ⟨-, hsame⟩ | ⟨b, hact, hstep⟩⟩ := step_eq h
    · rw [hsame]
      exact ⟨rfl, fun _ h => h, World.cons_log_ne _, hnone⟩
    · rcases World.flow inv (World.step_transition hstep) with
        ⟨hjobs, hlog, hclear⟩ | ⟨c, raw, rfl, hraw, -⟩ | ⟨c, raw, todo, result, hc, hdrop⟩ |
          ⟨c, current, keys, hc⟩
      · exact ⟨hjobs, hlog, hclear, hnone⟩
      · obtain ⟨w, rfl, -, hpoint⟩ := hb.acks hsessions hcalm ha hact hraw
        exact absurd ⟨w, raw, rfl, hpoint⟩ hack
      · -- what has been acknowledged is not in processing, so nothing is removed
        obtain ⟨raw', hacked, hid⟩ : ∃ r, .acked r ∈ s.world.log ∧ svc.idOf r = svc.idOf raw := by
          have htask := inv.tasks c
          rwa [hc] at htask
        have hnot : raw ∉ s.world.store.processing.items := hb.not_held hacked hid
        rw [hdrop]
        refine ⟨?_, fun raw' h => (List.mem_cons.mp h).resolve_left (by rintro ⟨⟩),
          by rintro ⟨⟩, hnone⟩
        simp only [World.joined, World.jobs, World.drop, pushedKeys_cons, Event.pushedKeys,
          List.nil_append, ListKey.lrem_items, List.erase_of_not_mem hnot]
      · have htask := hcalm.unclear c
        rw [hc] at htask
        exact absurd trivial htask

/-- No worker is about to discard a job. -/
lemma Balanced.not_discarding (hs : (fleet svc q W E).Run ok s) (hb : Balanced svc s)
    {a : Label W E P} (ha : Steady a) (h : Fleet.step svc q s a = some t) (w : W) (raw : R) :
    (t.worker w).point ≠ .discarding raw := by
  intro hpoint
  by_cases hw : a.worker? = some w
  · obtain ⟨hworkers, hact⟩ := step_eq h
    cases a with
    | tick | request => cases hw
    | runOnce w' =>
        cases hw
        rw [workers] at hworkers
        split at hworkers
        · rw [← Option.some.inj hworkers, Function.update_self] at hpoint
          dsimp only at hpoint
          split at hpoint <;> cases hpoint
        · cases hworkers
    | go w' =>
        cases hw
        obtain ⟨m, hm, hupdate⟩ := Option.map_eq_some_iff.mp hworkers
        rw [← hupdate, Function.update_self] at hpoint
        obtain ⟨hchecking, hlive⟩ := proceed_discarding hm hpoint
        have hsame : t.world = s.world := by
          obtain ⟨-, hsame⟩ | ⟨b, hb, -⟩ := hact
          · exact hsame
          · rw [act, hchecking] at hb
            cases hb
        rw [hsame] at hlive
        have inv : s.world.Inv svc := World.reachable_inv (reachable_world hs)
        obtain ⟨raw', hacked, hid⟩ := inv.marked _ (Expiring.isSome_of_live hlive)
        have hlinked := (run_sessions hs).linked w
        rw [hchecking] at hlinked
        exact hb.not_held hacked hid (hb.held w raw (congrArg Task.processed hlinked))
    | lost | restart => exact ha
  · rw [worker_of_ne h hw] at hpoint
    exact hb.checked w raw hpoint

/-- The counters move with the lists. -/
lemma Balanced.balance_step (hs : (fleet svc q W E).Run ok s) (hcalm : Calm s)
    (hb : Balanced svc s) {a : Label W E P} (ha : Steady a) (hsent : AckSent s a)
    (h : Fleet.step svc q s a = some t) :
    t.world.joined svc = t.world.jobs + ∑ w, (t.worker w).counters.processed := by
  have hbalance := hb.balance
  rcases hb.flow hs hcalm ha hsent h with
    ⟨w₀, raw₀, hw₀, hpoint, hheld, hack⟩ | ⟨hjobs, -, -, hnone⟩
  · have hsum := sum_moves (f := fun w => (t.worker w).counters.processed)
      (g := fun w => (s.worker w).counters.processed) (a := 0) (b := 1) (w := w₀)
      (by rw [processed_step ha h w₀, if_pos ⟨hw₀, by rw [hpoint]; trivial⟩]) fun w hw => by
        rw [processed_step ha h w,
          if_neg fun h => hw (Option.some.inj (h.1.symm.trans hw₀)), Nat.add_zero]
    have hlength := World.length_lrem (hb.held w₀ raw₀ (congrArg Task.processed hheld))
    have hjoined : t.world.joined svc = s.world.joined svc := by
      rw [hack]
      rfl
    have hjobs : t.world.jobs + 1 = s.world.jobs := by
      rw [hack]
      simp only [World.jobs, World.ack]
      omega
    omega
  · have hsum : ∑ w, (t.worker w).counters.processed = ∑ w, (s.worker w).counters.processed :=
      Finset.sum_congr rfl fun w _ => by rw [processed_step ha h w, if_neg (hnone w), Nat.add_zero]
    omega

include hok

/-- The jobs of the workers stay in processing. -/
lemma Balanced.held_step (hs : (fleet svc q W E).Run ok s) (he : Exclusive svc s) (hcalm : Calm s)
    (hb : Balanced svc s) {a : Label W E P} (hoka : ok s a) (h : Fleet.step svc q s a = some t)
    {w : W} {raw : R} (hraw : (t.task w).processed = some raw) :
    raw ∈ t.world.store.processing.items := by
  obtain ⟨⟨hprompt, -, hsent⟩, ha⟩ := hok s a hoka
  have hworld := reachable_world hs
  have inv : s.world.Inv svc := World.reachable_inv hworld
  obtain ⟨hclient, hp | hand⟩ := (run_sessions hs).processed h hraw
  case inr => exact hand.2.2.1
  have hin := hb.held w raw hp
  rcases hb.flow hs hcalm ha hsent h with ⟨w₀, raw₀, -, -, hheld, hack⟩ | ⟨-, hlog, hclear, -⟩
  · have hne : w ≠ w₀ := by
      rintro rfl
      obtain ⟨last, htask⟩ : ∃ last, t.task w = .released raw₀ last := by
        rw [State.task, hclient, hack]
        exact ⟨_, Function.update_self _ _ _⟩
      rw [htask] at hraw
      cases hraw
    have hraw₀ : raw ≠ raw₀ := fun heq =>
      hne (he.exclusive w w₀ raw raw₀ hp (congrArg Task.processed hheld) (congrArg _ heq))
    rw [hack]
    exact ListKey.mem_lrem_of_ne hraw₀ hin
  · obtain ⟨-, ⟨-, hsame⟩ | ⟨b, -, hstep⟩⟩ := step_eq h
    · rwa [hsame]
    have htrans := World.step_transition hstep
    have hleases := run_leases (fun s a hoka => (hok s a hoka).1) hs
    rcases htrans.leaves hleases hin with hstay | ⟨c, hc, hnone⟩ | ⟨time, htime, hle⟩ | hzero
    · exact hstay
    · have hsame := World.owner_unique hworld (World.owned_of_processed hp) hc
      rw [← hsame, ← hclient] at hnone
      rw [State.task, hnone] at hraw
      cases hraw
    · exact absurd (hprompt w raw hp time (inv.movedAt_eq htime)) (not_lt.mpr hle)
    · -- what takes the job out is neither an acknowledgement nor the reset
      have hentry : raw ∈ s.world.ledger.entries :=
        List.mem_append_left _ (List.mem_append_right _ hin)
      obtain ⟨hone, -⟩ | ⟨-, htaken⟩ := World.step_fate inv htrans hentry
      · omega
      rcases htaken with ⟨raw', hid, hacked⟩ | ⟨-, -, -, -, raw', hacked, hid⟩ | hcleared
      · have hmem : .acked raw' ∈ t.world.ledger.log := hacked ▸ List.mem_cons_self
        exact absurd hin (hb.not_held (hlog raw' hmem) hid)
      · exact absurd hin (hb.not_held hacked hid)
      · exact absurd hcleared hclear

lemma Balanced.step (hs : (fleet svc q W E).Run ok s) (he : Exclusive svc s) (hcalm : Calm s)
    (hb : Balanced svc s) {a : Label W E P} (hoka : ok s a)
    (h : Fleet.step svc q s a = some t) : Balanced svc t := by
  obtain ⟨⟨-, -, hsent⟩, ha⟩ := hok s a hoka
  have hworld := reachable_world hs
  have inv : s.world.Inv svc := World.reachable_inv hworld
  refine ⟨fun w raw => hb.held_step hok hs he hcalm hoka h, fun raw hraw => ?_,
    hb.not_discarding hs ha h, hb.balance_step hs hcalm ha hsent h⟩
  have hgone : .acked raw ∈ s.world.log → t.world.Pushed svc (svc.idOf raw) ∧
      t.world.population svc (svc.idOf raw) = 0 := by
    intro hraw
    obtain ⟨-, ⟨-, hsame⟩ | ⟨b, -, hstep⟩⟩ := step_eq h
    · rw [hsame]
      exact hb.gone raw hraw
    · exact (World.step_transition hstep).gone inv (hb.gone raw hraw)
  rcases hb.flow hs hcalm ha hsent h with ⟨w₀, raw₀, -, -, hheld, hack⟩ | ⟨-, hlog, -, -⟩
  · rw [hack] at hraw
    rcases List.mem_cons.mp hraw with heq | hold
    · cases heq
      have hreservation : (s.task w₀).reservation = some raw := congrArg Task.reservation hheld
      rw [hack]
      refine World.population_ack inv hreservation ?_ ?_
      · intro raw' hraw'
        cases hreservation.symm.trans hraw'
        exact .inl (hb.held w₀ raw (congrArg Task.processed hheld))
      · exact World.reachable_moved_of_owned hworld (World.owned_of_reservation hreservation)
    · exact hgone hold
  · exact hgone (hlog raw hraw)

/-- The counters of the workers balance the queue in every steady run. -/
lemma run_balanced (h : (fleet svc q W E).Run ok s) :
    Exclusive svc s ∧ Calm s ∧ Balanced svc s := by
  refine h.invariant (P := fun s => Exclusive svc s ∧ Calm s ∧ Balanced svc s) ?_ ?_
  · rintro s ⟨now, rfl⟩
    refine ⟨⟨nofun, nofun⟩, ⟨fun _ => trivial, fun _ => id⟩, ⟨nofun, nofun, nofun, ?_⟩⟩
    show 0 = 0 + ∑ _w : W, 0
    rw [Finset.sum_const_zero, Nat.add_zero]
  · intro s a t hs hoka ⟨he, hcalm, hb⟩ ht
    exact ⟨he.step (fun s a hoka => (hok s a hoka).1) hs hoka ht,
      hcalm.step (hok s a hoka).2 ht, hb.step hok hs he hcalm hoka ht⟩

end Steady

end Balance

instance [Fintype W] (svc : QueueService P R) (q : QueueWorker P) (s : State W E P R)
    (a : Label W E P) : Decidable (Undisturbed svc q s a ∧ Steady a) :=
  inferInstanceAs (Decidable (_ ∧ _))

end Fleet

end FinOpsPipeline
