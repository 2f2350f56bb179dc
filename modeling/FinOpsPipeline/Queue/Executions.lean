import FinOpsPipeline.Queue.Delivery
import FinOpsPipeline.Queue.Fleet
import FinOpsPipeline.Queue.Outcome
import FinOpsPipeline.Queue.Visibility

/-!
How often the handler of a job is called.

An entry of the queue is handed to one client, and `run_once` calls `process_job` at most once
for what it has reserved. A job is delivered again when its handler has raised an exception, its
worker has stopped, or its entry has been recovered before it was acknowledged.

* `executions_bounded`: the handlers of a job that are started, over all workers.
* `Prompt`, `AckSent`: no worker is later with a job than the visibility timeout, and what has been
  processed is acknowledged.
* `returned_once`: under these conditions the handler of a job returns once.
-/

namespace FinOpsPipeline

namespace Fleet

variable {W E C P R : Type} [DecidableEq W] [DecidableEq E] [DecidableEq C] [DecidableEq R]
  {svc : QueueService P R} {q : QueueWorker P}

/-- The queue of a fleet, without any guard. -/
lemma reachable_world {ok : State W E P R → Label W E P → Prop} {s : State W E P R}
    (h : (fleet svc q W E).Run ok s) : (svc.system (Client W E)).Reachable s.world :=
  run_world (fun _ _ _ _ _ => trivial) h

/-! ### Handlers -/

namespace Execution

/-- The entry whose job is handled. -/
def raw : Execution W R → R
  | .started _ raw | .returned _ raw | .raised _ raw _ => raw

end Execution

/-- The entries whose handlers have been started. -/
def startedOf (es : List (Execution W R)) : List R :=
  es.filterMap fun
    | .started _ raw => some raw
    | _ => none

/-- The entries whose handlers have returned. -/
def returnedOf (es : List (Execution W R)) : List R :=
  es.filterMap fun
    | .returned _ raw => some raw
    | _ => none

omit [DecidableEq W] [DecidableEq R] in
@[simp] lemma startedOf_append (es es' : List (Execution W R)) :
    startedOf (es ++ es') = startedOf es ++ startedOf es' := List.filterMap_append

omit [DecidableEq W] [DecidableEq R] in
@[simp] lemma returnedOf_append (es es' : List (Execution W R)) :
    returnedOf (es ++ es') = returnedOf es ++ returnedOf es' := List.filterMap_append

omit [DecidableEq W] [DecidableEq R] in
lemma mem_returnedOf {es : List (Execution W R)} {raw : R} :
    raw ∈ returnedOf es ↔ ∃ w, .returned w raw ∈ es := by
  rw [returnedOf, List.mem_filterMap]
  constructor
  · rintro ⟨e, he, hraw⟩
    cases e with
    | returned w raw' =>
        cases hraw
        exact ⟨w, he⟩
    | _ => cases hraw
  · rintro ⟨w, hw⟩
    exact ⟨_, hw, rfl⟩

omit [DecidableEq W] [DecidableEq E] [DecidableEq R] in
/-- A handler that a step starts or ends is that of the job which the worker holds. -/
lemma Sessions.executing {s : State W E P R} (hs : Sessions s) {a : Label W E P}
    {e : Execution W R} (he : e ∈ executions svc q s a) : ∃ w, a = .go w ∧
      (s.task w).processed = some e.raw ∧
      ((e = .started w e.raw ∧ (s.worker w).point = .checking e.raw) ∨
        ∃ startedAt, (s.worker w).point = .processing e.raw startedAt ∧
          (e = .returned w e.raw ∧ (∃ seconds, q.processJob (svc.loads e.raw) = .ok seconds) ∨
            ∃ reason, e = .raised w e.raw reason)) := by
  cases a with
  | go w =>
      have hlinked := hs.linked w
      rw [executions] at he
      split at he
      · rename_i raw hpoint
        rw [hpoint] at hlinked
        split at he
        · cases he
        · cases List.mem_singleton.mp he
          exact ⟨w, rfl, congrArg Task.processed hlinked, .inl ⟨rfl, hpoint⟩⟩
      · rename_i raw startedAt hpoint
        rw [hpoint] at hlinked
        split at he
        · rename_i seconds hseconds
          cases List.mem_singleton.mp he
          exact ⟨w, rfl, congrArg Task.processed hlinked,
            .inr ⟨startedAt, hpoint, .inl ⟨rfl, seconds, hseconds⟩⟩⟩
        · cases List.mem_singleton.mp he
          exact ⟨w, rfl, congrArg Task.processed hlinked,
            .inr ⟨startedAt, hpoint, .inr ⟨_, rfl⟩⟩⟩
      · cases he
  | _ => cases he

omit [DecidableEq W] [DecidableEq E] [DecidableEq R] in
lemma executions_length (s : State W E P R) (a : Label W E P) :
    (executions svc q s a).length ≤ 1 := by
  cases a with
  | go w =>
      rw [executions]
      split
      · split <;> simp
      · split <;> simp
      · simp
  | _ => exact Nat.zero_le _

/-- A worker holds what it has held, or what has just been handed to it. -/
lemma Sessions.processed {s t : State W E P R} (hs : Sessions s) {a : Label W E P}
    (h : Fleet.step svc q s a = some t) {w : W} {raw : R} (hraw : (t.task w).processed = some raw) :
    t.client w = s.client w ∧ ((s.task w).processed = some raw ∨
      World.HandsOver s.world t.world (s.client w) raw) := by
  have hclient : t.client w = s.client w := by
    by_cases hw : a.worker? = some w
    · rcases hs.own hw h with ⟨hsession, -⟩ | ⟨-, htop⟩
      · rw [State.client, hsession, State.client]
      · have hlinked := (hs.step h).linked w
        rw [htop] at hlinked
        change (t.task w).Free at hlinked
        cases ht : t.task w <;> rw [ht] at hlinked hraw <;> first | cases hraw; done | cases hlinked
    · rw [State.client, worker_of_ne h hw, State.client]
  refine ⟨hclient, ?_⟩
  rw [State.task, hclient] at hraw
  obtain ⟨-, ⟨-, hsame⟩ | ⟨b, -, hworld⟩⟩ := step_eq h
  · rw [hsame] at hraw
    exact .inl hraw
  · exact (World.step_transition hworld).processed hraw

/-! ### Two workers -/

/-- A queue with one retry and a timeout of a minute. -/
abbrev sampleQueue : QueueService Unit (Job Unit) := .plain 1 60 sixty_pos

/-- A worker with the settings of the environment. -/
def sampleWorker : QueueWorker Unit := .init (1 / 4) 30 10 fun _ => none

/-- A job is joined, and the first worker starts its handler. -/
def firstStarts : List (Label Bool Unit Unit) :=
  [.request () (.joinQueue 7 "sample" ()), .request () .next,
    .runOnce true 0, .go true, .go true, .go true, .go true]

/-! ### The bound -/

/-- The worker has a job, or waits for one, and has not started its handler. -/
def Point.Waiting : Point R → Prop
  | .reserving | .checking _ => True
  | _ => False

omit [DecidableEq C] [DecidableEq R] in
lemma proceed_waiting {m m' : Worker R} {v : World C P R} {t : Task P R}
    (h : m.proceed svc q v t = some m') (hwait : m'.point.Waiting) :
    m.point = .reserve ∨ m.point = .reserving := by
  rw [Worker.proceed.eq_def] at h
  split at h <;> rename_i hpoint
  case h_3 => exact .inl hpoint
  case h_5 => exact .inr hpoint
  case h_1 => cases h
  all_goals repeat' split at h
  all_goals first
    | cases h; done
    | cases h; exact absurd hwait id
    | cases h; rw [hpoint] at hwait; exact absurd hwait id

lemma waiting_own {s t : State W E P R} {a : Label W E P} (h : step svc q s a = some t) {w : W}
    (hw : a.worker? = some w) (hwait : (t.worker w).point.Waiting) :
    a = .go w ∧ ((s.worker w).point = .reserve ∨ (s.worker w).point = .reserving) := by
  obtain ⟨hworkers, -⟩ := step_eq h
  cases a with
  | tick | request => cases hw
  | runOnce w' monotonic =>
      cases hw
      rw [workers] at hworkers
      split at hworkers
      · rw [← Option.some.inj hworkers, Function.update_self] at hwait
        split at hwait <;> exact absurd hwait id
      · cases hworkers
  | go w' =>
      cases hw
      obtain ⟨m, hm, hupdate⟩ := Option.map_eq_some_iff.mp hworkers
      rw [← hupdate, Function.update_self] at hwait
      exact ⟨rfl, proceed_waiting hm hwait⟩
  | lost w' effect exception =>
      cases hw
      obtain ⟨m, hm, hupdate⟩ := Option.map_eq_some_iff.mp hworkers
      rw [← hupdate, Function.update_self] at hwait
      rw [Worker.raised.eq_def] at hm
      split at hm
      all_goals first
        | cases hm; done
        | cases hm; exact absurd hwait id
  | restart w' =>
      cases hw
      rw [← Option.some.inj hworkers, Function.update_self] at hwait
      exact absurd hwait id

/-- No handler is started twice, and none that a worker is still to start has been started. -/
structure Counted (s : State W E P R) (es : List (Execution W R)) : Prop where
  moved : ∀ raw ∈ startedOf es, s.world.Moved raw
  nodup : (startedOf es).Nodup
  apart : ∀ w raw, (s.worker w).point.Waiting → (s.task w).processed = some raw →
    raw ∉ startedOf es

lemma Counted.step {ok : State W E P R → Label W E P → Prop} {s t : State W E P R}
    (hs : (fleet svc q W E).Run ok s) {es : List (Execution W R)} (hc : Counted s es)
    {a : Label W E P} (h : Fleet.step svc q s a = some t) :
    Counted t (es ++ executions svc q s a) := by
  have hsessions := run_sessions hs
  have hworld := reachable_world hs
  have inv : s.world.Inv svc := World.reachable_inv hworld
  have hgrow : ∀ raw, s.world.Moved raw → t.world.Moved raw := by
    rintro raw ⟨time, ht⟩
    obtain ⟨-, ⟨-, hsame⟩ | ⟨b, -, hstep⟩⟩ := step_eq h
    · exact ⟨time, hsame ▸ ht⟩
    · exact ⟨time, (World.step_transition hstep).grows.log ht⟩
  -- a handler that is started now, by a worker that has held its entry
  have hnew : ∀ raw ∈ startedOf (executions svc q s a), ∃ w, a = .go w ∧
      (s.task w).processed = some raw ∧ (s.worker w).point = .checking raw := by
    intro raw hraw
    obtain ⟨e, he, hsome⟩ := List.mem_filterMap.mp hraw
    obtain ⟨w, rfl, hp, ⟨heq, hpoint⟩ | ⟨-, -, ⟨heq, -⟩ | ⟨reason, heq⟩⟩⟩ := hsessions.executing he
    · rw [heq] at hsome
      cases hsome
      exact ⟨w, rfl, hp, hpoint⟩
    · rw [heq] at hsome
      cases hsome
    · rw [heq] at hsome
      cases hsome
  refine ⟨fun raw hraw => ?_, ?_, fun w raw hwait hraw => ?_⟩
  · rw [startedOf_append, List.mem_append] at hraw
    rcases hraw with hold | hnow
    · exact hgrow raw (hc.moved raw hold)
    · obtain ⟨w, -, hp, -⟩ := hnew raw hnow
      exact hgrow raw (World.reachable_moved_of_owned hworld (World.owned_of_processed hp))
  · rw [startedOf_append]
    refine List.nodup_append.mpr ⟨hc.nodup, ?_, ?_⟩
    · cases a with
      | go w =>
          rw [executions]
          split
          · split
            · exact List.nodup_nil
            · exact List.nodup_singleton _
          · split <;> exact List.nodup_nil
          · exact List.nodup_nil
      | _ => exact List.nodup_nil
    · rintro raw hold _ hnow rfl
      obtain ⟨w, -, hp, hpoint⟩ := hnew raw hnow
      exact hc.apart w raw (by rw [hpoint]; trivial) hp hold
  · rw [startedOf_append, List.mem_append, not_or]
    obtain ⟨hclient, hheld⟩ := hsessions.processed h hraw
    by_cases hw : a.worker? = some w
    · obtain ⟨rfl, hpoint⟩ := waiting_own h hw hwait
      constructor
      · intro hold
        rcases hheld with hp | hand
        · rcases hpoint with hpoint | hpoint
          · have hfree := hsessions.linked w
            rw [hpoint] at hfree
            change (s.task w).Free at hfree
            cases ht : s.task w <;> rw [ht] at hfree hp <;>
              first | cases hp; done | cases hfree
          · exact hc.apart w raw (by rw [hpoint]; trivial) hp hold
        · obtain ⟨time, htime⟩ := hc.moved raw hold
          exact inv.wf.not_moved_of_pending hand.1 time htime
      · rcases hpoint with hpoint | hpoint <;> simp [executions, hpoint, startedOf]
    · rw [worker_of_ne h hw] at hwait
      have htask := session_task h (n := (s.worker w).session) fun heq => absurd heq hw
      have hp : (s.task w).processed = some raw := by
        rwa [State.task, hclient, State.client, htask] at hraw
      refine ⟨hc.apart w raw hwait hp, fun hnow => ?_⟩
      obtain ⟨w', rfl, hp', -⟩ := hnew raw hnow
      have hsame := World.owner_unique hworld (World.owned_of_processed hp)
        (World.owned_of_processed hp')
      cases congrArg (Sum.elim (fun x : W × ℕ => some x.1) fun _ => none) hsame
      exact hw rfl

/-- The entry that an event moves to processing. -/
def movedEntry : Event R → Option R
  | .moved raw _ => some raw
  | _ => none

omit [DecidableEq R] in
/-- Different entries of one job are delivered one by one. -/
lemma length_le_delivered {log : List (Event R)} {j : ℕ} {raws : List R} (hnodup : raws.Nodup)
    (hmoved : ∀ raw ∈ raws, svc.idOf raw = j ∧ ∃ time, .moved raw time ∈ log) :
    raws.length ≤ deliveries svc.labels j log := by
  let entry : Event R → Option R := fun e => (movedEntry e).filter (svc.idOf · = j)
  have hsub : raws ⊆ log.filterMap entry := by
    intro raw hraw
    obtain ⟨hid, time, ht⟩ := hmoved raw hraw
    exact List.mem_filterMap.mpr ⟨_, ht, by simp [entry, movedEntry, hid]⟩
  calc raws.length ≤ (log.filterMap entry).length :=
        (List.subperm_of_subset hnodup hsub).length_le
    _ = log.countP fun e => (entry e).isSome := List.length_filterMap_eq_countP
    _ = deliveries svc.labels j log := by
        refine List.countP_congr fun e _ => ?_
        cases e with
        | moved raw time =>
            by_cases hid : svc.idOf raw = j
            · simp [entry, movedEntry, hid, Event.delivers, QueueService.labels]
            · simp [entry, movedEntry, hid, Event.delivers, QueueService.labels]
        | _ => simp [entry, movedEntry, Event.delivers]

/-- **Handlers are started boundedly often**: in every run, whichever commands of the workers fail
and whichever workers are started anew, no entry is given to two handlers, and the handlers of a
job, over all workers, are no more than its deliveries and so no more than `max_retries + 1`. -/
theorem executions_bounded {ok : State W E P R → Label W E P → Prop} {s : State W E P R}
    {es : List (Execution W R)} (h : (fleet svc q W E).Emits ok (executions svc q) s es) (j : ℕ) :
    (startedOf es).Nodup ∧
      (startedOf es).countP (svc.idOf · = j) ≤ s.world.delivered svc j ∧
      s.world.delivered svc j ≤ svc.maxRetries + 1 := by
  have hcounted : Counted s es := by
    refine h.invariant (P := Counted) ?_ fun s a t es hrun _ hc ht => hc.step hrun.run ht
    rintro s ⟨now, rfl⟩
    exact ⟨nofun, List.nodup_nil, fun _ _ hwait => absurd hwait id⟩
  refine ⟨hcounted.nodup, ?_, (World.bounded_delivery (reachable_world h.run)).2.2.2 j⟩
  rw [List.countP_eq_length_filter]
  refine length_le_delivered (hcounted.nodup.filter _) fun raw hraw => ?_
  obtain ⟨hraw, hid⟩ := List.mem_filter.mp hraw
  exact ⟨of_decide_eq_true hid, hcounted.moved raw hraw⟩

/-- The handler of a job is started. -/
theorem executions_bounded_sample : ∃ (s : State Bool Unit Unit (Job Unit))
    (es : List (Execution Bool (Job Unit))), (startedOf es).map Job.id = [7] ∧
      (startedOf es).countP (·.id = 7) ≤ s.world.delivered sampleQueue 7 ∧
      s.world.delivered sampleQueue 7 ≤ 2 := by
  obtain ⟨s, es, hrun, hp⟩ := System.exists_emits_of_trace
    (fleet sampleQueue sampleWorker Bool Unit) (fun _ _ => True)
    (executions sampleQueue sampleWorker) ⟨0, rfl⟩ firstStarts
    (fun _ es => (startedOf es).map Job.id = [7]) (by decide +kernel)
  exact ⟨s, es, of_decide_eq_true hp, (executions_bounded hrun 7).2⟩

/-! ### One return -/

/-- No worker is later with what it has reserved than the visibility timeout. -/
def Prompt (svc : QueueService P R) (s : State W E P R) : Prop :=
  ∀ w raw, (s.task w).processed = some raw → ∀ time, s.world.movedAt raw = some time →
    s.world.clock < time + svc.visibilityTimeoutSeconds

/-- The leases that a step adds are fresh. -/
def FreshLeases (q : QueueWorker P) (s : State W E P R) (a : Label W E P) : Prop :=
  ∀ b, act q s a = some b → s.world.FreshLease b

/-- `acknowledge` is next, after `process_job`. -/
def Point.Acknowledging : Point R → Prop
  | .acknowledging _ => True
  | _ => False

instance : DecidablePred (Point.Acknowledging (R := R)) := fun p => by
  cases p <;> unfold Point.Acknowledging <;> infer_instance

/-- A worker does not stop before the acknowledgement of what it has processed, and the
acknowledgement reaches the server. Its reply may be lost. -/
def AckSent (s : State W E P R) : Label W E P → Prop
  | .lost w effect _ => (s.worker w).point.Acknowledging → effect = true
  | .restart w => ¬(s.worker w).point.Acknowledging
  | _ => True

/-- The conditions on a run. -/
def Undisturbed (svc : QueueService P R) (q : QueueWorker P) (s : State W E P R)
    (a : Label W E P) : Prop :=
  Prompt svc s ∧ FreshLeases q s a ∧ AckSent s a

instance [Fintype W] (svc : QueueService P R) (s : State W E P R) : Decidable (Prompt svc s) :=
  inferInstanceAs (Decidable (∀ w raw, (s.task w).processed = some raw →
    ∀ time, s.world.movedAt raw = some time →
      s.world.clock < time + svc.visibilityTimeoutSeconds))

instance (q : QueueWorker P) (s : State W E P R) (a : Label W E P) :
    Decidable (FreshLeases q s a) :=
  inferInstanceAs (Decidable (∀ b, act q s a = some b → s.world.FreshLease b))

instance (s : State W E P R) (a : Label W E P) : Decidable (AckSent s a) :=
  match a with
  | .lost w effect _ =>
      inferInstanceAs (Decidable ((s.worker w).point.Acknowledging → effect = true))
  | .restart w => inferInstanceAs (Decidable (¬(s.worker w).point.Acknowledging))
  | .tick _ | .request _ _ | .runOnce _ _ | .go _ => isTrue trivial

instance [Fintype W] (svc : QueueService P R) (q : QueueWorker P) (s : State W E P R)
    (a : Label W E P) : Decidable (Undisturbed svc q s a) :=
  inferInstanceAs (Decidable (_ ∧ _))

omit [DecidableEq W] [DecidableEq E] [DecidableEq R] in
/-- The workers recover with the current time. -/
lemma currentTime_act {s : State W E P R} {a : Label W E P} {b : Act (Client W E) P}
    (h : act q s a = some b) : s.world.CurrentTime b := by
  have hpoint : ∀ {c : Client W E} {m : Point R}, m.act c = some b → s.world.CurrentTime b := by
    intro c m hm
    cases m <;> first | cases hm; done | cases hm; trivial
  cases a with
  | tick =>
      cases h
      trivial
  | request e r =>
      cases h
      cases r with
      | next =>
          simp only [Request.act]
          split <;> trivial
      | _ => trivial
  | runOnce w =>
      rw [act] at h
      split at h <;> cases h
      rfl
  | go w => exact hpoint h
  | lost w effect =>
      rw [act] at h
      split at h
      · exact hpoint h
      · cases h
  | restart => cases h

/-- Under the conditions the jobs of the workers stay in processing, and are different ones. -/
structure Exclusive (svc : QueueService P R) (s : State W E P R) : Prop where
  running : ∀ w raw, (s.task w).processed = some raw →
    raw ∈ s.world.store.processing.items ∨ s.world.population svc (svc.idOf raw) = 0
  exclusive : ∀ w w' raw raw', (s.task w).processed = some raw →
    (s.task w').processed = some raw' → svc.idOf raw = svc.idOf raw' → w = w'

omit [DecidableEq W] [DecidableEq E] [DecidableEq R] in
lemma client_inj {s : State W E P R} {w w' : W} (h : s.client w = s.client w') : w = w' := by
  cases h
  rfl

/-- What has just been handed over is the job of no worker. -/
lemma Exclusive.not_handed {ok : State W E P R → Label W E P → Prop} {s : State W E P R}
    (hs : (fleet svc q W E).Run ok s) (he : Exclusive svc s) {x : World (Client W E) P R}
    {c : Client W E} {raw : R} (hand : World.HandsOver s.world x c raw) {w : W} {raw' : R}
    (hw : (s.task w).processed = some raw') : svc.idOf raw ≠ svc.idOf raw' :=
  have hworld := reachable_world hs
  hand.not_processed (World.reachable_inv hworld) (fun _ _ => World.reachable_moved_of_owned hworld)
    hw (he.running w raw' hw)

section Undisturbed

variable {ok : State W E P R → Label W E P → Prop}
  (hok : ∀ s a, ok s a → Undisturbed svc q s a) {s t : State W E P R}
include hok

lemma run_leases (hs : (fleet svc q W E).Run ok s) : s.world.LeaseInv svc := by
  refine World.run_leaseInv (run_world ?_ hs)
  exact fun s a b hoka hb => ⟨currentTime_act hb, (hok s a hoka).2.1 b hb⟩

lemma Exclusive.step (hs : (fleet svc q W E).Run ok s) (he : Exclusive svc s) {a : Label W E P}
    (hoka : ok s a) (h : Fleet.step svc q s a = some t) : Exclusive svc t := by
  have hsessions := run_sessions hs
  have hworld := reachable_world hs
  have inv : s.world.Inv svc := World.reachable_inv hworld
  have hmoved : ∀ c raw, (s.world.task c).owned = some raw → s.world.Moved raw :=
    fun _ _ => World.reachable_moved_of_owned hworld
  refine ⟨fun w raw hraw => ?_, fun w w' raw raw' hraw hraw' hid => ?_⟩
  · obtain ⟨hclient, hp | hand⟩ := hsessions.processed h hraw
    · obtain ⟨-, ⟨-, hsame⟩ | ⟨b, -, hstep⟩⟩ := step_eq h
      · rw [hsame]
        exact he.running w raw hp
      · have htrans := World.step_transition hstep
        rcases he.running w raw hp with hin | hzero
        · rcases htrans.leaves (run_leases hok hs) hin with hstay | ⟨c, hc, hnone⟩ | hdue | hgone
          · exact .inl hstay
          · have hsame := World.owner_unique hworld (World.owned_of_processed hp) hc
            rw [← hsame, ← hclient] at hnone
            rw [State.task, hnone] at hraw
            cases hraw
          · obtain ⟨time, htime, hle⟩ := hdue
            have hlt := (hok s a hoka).1 w raw hp time (inv.movedAt_eq htime)
            exact absurd hlt (not_lt.mpr hle)
          · exact .inr hgone
        · obtain ⟨time, htime⟩ := hmoved _ _ (World.owned_of_processed hp)
          exact .inr (htrans.gone inv ⟨inv.pushed_of_moved htime, hzero⟩).2
    · exact .inl hand.2.2.1
  · obtain ⟨hclient, hheld⟩ := hsessions.processed h hraw
    obtain ⟨hclient', hheld'⟩ := hsessions.processed h hraw'
    rcases hheld with hp | hand
    · rcases hheld' with hp' | hand'
      · exact he.exclusive w w' raw raw' hp hp' hid
      · exact absurd hid.symm (he.not_handed hs hand' hp)
    · by_contra hne
      have hstill : (s.task w').processed = some raw' := by
        have hc : s.client w' ≠ s.client w := fun heq => hne (client_inj heq).symm
        rwa [State.task, hclient', hand.2.2.2 _ hc] at hraw'
      exact he.not_handed hs hand hstill hid

/-- Under the conditions no worker is processing or about to process a job whose handler has
returned, and such a job has left the queue or is being acknowledged. -/
structure Settled (svc : QueueService P R) (s : State W E P R) (es : List (Execution W R)) :
    Prop where
  apart : ∀ w raw, (s.task w).processed = some raw →
    (∀ raw', (s.worker w).point ≠ .acknowledging raw') →
    ∀ raw₀ ∈ returnedOf es, svc.idOf raw₀ ≠ svc.idOf raw
  settled : ∀ raw₀ ∈ returnedOf es, (∃ w, (s.worker w).point = .acknowledging raw₀) ∨
    s.world.Pushed svc (svc.idOf raw₀) ∧ s.world.population svc (svc.idOf raw₀) = 0

omit hok in
lemma go_acknowledging {w : W} {raw : R} (h : Fleet.step svc q s (.go w) = some t)
    {startedAt : ℚ} (hpoint : (s.worker w).point = .processing raw startedAt) {seconds : ℚ}
    (hseconds : q.processJob (svc.loads raw) = .ok seconds) :
    (t.worker w).point = .acknowledging raw := by
  obtain ⟨m, hm, hupdate⟩ := Option.map_eq_some_iff.mp (step_eq h).1
  rw [← hupdate, Function.update_self]
  simp only [Worker.proceed, hpoint, hseconds] at hm
  split at hm <;> cases hm
  rfl

omit hok in
/-- What has been processed is acknowledged by the next step of its worker. -/
lemma acknowledged {a : Label W E P} (hsessions : Sessions s) (hsent : AckSent s a) {w : W}
    (hw : a.worker? = some w) (h : Fleet.step svc q s a = some t) {raw : R}
    (hpoint : (s.worker w).point = .acknowledging raw) :
    t.world = s.world.ack svc (s.client w) raw := by
  have hholding : s.world.task (s.client w) = .holding raw := by
    have hlinked := hsessions.linked w
    rwa [hpoint] at hlinked
  obtain ⟨hworkers, hworld⟩ := step_eq h
  have hack : act q s a = some (.acknowledge (s.client w)) := by
    cases a with
    | tick | request => cases hw
    | runOnce w' =>
        cases hw
        rw [workers, hpoint] at hworkers
        cases hworkers
    | go w' =>
        cases hw
        rw [act, hpoint]
        rfl
    | lost w' effect exception =>
        cases hw
        have heffect : effect = true := hsent (by rw [hpoint]; trivial)
        rw [act, if_pos heffect, hpoint]
        rfl
    | restart w' =>
        cases hw
        exact absurd (by rw [hpoint]; trivial) hsent
  obtain ⟨hnone, -⟩ | ⟨b, hb, hstep⟩ := hworld
  · rw [hack] at hnone
    cases hnone
  · rw [hack] at hb
    cases hb
    obtain ⟨raw', hraw, heq⟩ := Option.map_eq_some_iff.mp hstep
    rw [hholding] at hraw
    cases hraw
    exact heq.symm

lemma Settled.step (hs : (fleet svc q W E).Run ok s) (he : Exclusive svc s)
    {es : List (Execution W R)} (hset : Settled svc s es) {a : Label W E P} (hoka : ok s a)
    (h : Fleet.step svc q s a = some t) : Settled svc t (es ++ executions svc q s a) := by
  have hsessions := run_sessions hs
  have hworld := reachable_world hs
  have inv : s.world.Inv svc := World.reachable_inv hworld
  have hsent : AckSent s a := (hok s a hoka).2.2
  have hholding : ∀ {w raw}, (s.worker w).point = .acknowledging raw →
      s.task w = .holding raw := by
    intro w raw hpoint
    have hlinked := hsessions.linked w
    rwa [hpoint] at hlinked
  -- a handler that returns now
  have hnew : ∀ raw ∈ returnedOf (executions svc q s a), ∃ w, a = .go w ∧
      (s.task w).processed = some raw ∧ (t.worker w).point = .acknowledging raw := by
    intro raw hraw
    obtain ⟨w, hmem⟩ := mem_returnedOf.mp hraw
    obtain ⟨w', rfl, hp, ⟨heq, -⟩ | ⟨startedAt, hpoint, ⟨-, seconds, hseconds⟩ | ⟨_, heq⟩⟩⟩ :=
      hsessions.executing hmem
    · cases heq
    · exact ⟨w', rfl, hp, go_acknowledging h hpoint hseconds⟩
    · cases heq
  refine ⟨fun w raw hraw hpoint raw₀ hraw₀ hid => ?_, fun raw₀ hraw₀ => ?_⟩
  · obtain ⟨hclient, hheld⟩ := hsessions.processed h hraw
    rw [returnedOf_append, List.mem_append] at hraw₀
    rcases hraw₀ with hold | hnow
    · rcases hheld with hp | hand
      · by_cases hack : ∃ raw', (s.worker w).point = .acknowledging raw'
        · obtain ⟨raw', hack⟩ := hack
          by_cases hw : a.worker? = some w
          · obtain ⟨reply, htask⟩ : ∃ reply, t.task w = .released raw' reply := by
              rw [State.task, hclient, acknowledged hsessions hsent hw h hack]
              exact ⟨_, Function.update_self _ _ _⟩
            rw [htask] at hraw
            cases hraw
          · exact hpoint raw' (worker_of_ne h hw ▸ hack)
        · exact hset.apart w raw hp (not_exists.mp hack) raw₀ hold hid
      · rcases hset.settled raw₀ hold with ⟨w₀, hw₀⟩ | ⟨-, hzero⟩
        · exact he.not_handed hs hand (congrArg Task.processed (hholding hw₀)) hid.symm
        · have hpos : 0 < s.world.population svc (svc.idOf raw₀) :=
            Ledger.population_pos.mpr
              ⟨raw, List.mem_append_left _ (List.mem_append_left _ hand.1), hid.symm⟩
          omega
    · obtain ⟨w', -, hp', hpoint'⟩ := hnew raw₀ hnow
      rcases hheld with hp | hand
      · cases he.exclusive w w' raw raw₀ hp hp' hid.symm
        exact hpoint raw₀ hpoint'
      · exact he.not_handed hs hand hp' hid.symm
  · rw [returnedOf_append, List.mem_append] at hraw₀
    rcases hraw₀ with hold | hnow
    · rcases hset.settled raw₀ hold with ⟨w₀, hw₀⟩ | hgone
      · by_cases hw : a.worker? = some w₀
        · rw [acknowledged hsessions hsent hw h hw₀]
          have hreservation : (s.task w₀).reservation = some raw₀ :=
            congrArg Task.reservation (hholding hw₀)
          refine .inr (World.population_ack inv hreservation ?_ ?_)
          · intro raw' hraw'
            cases hreservation.symm.trans hraw'
            exact he.running w₀ raw₀ (congrArg Task.processed (hholding hw₀))
          · exact World.reachable_moved_of_owned hworld (World.owned_of_reservation hreservation)
        · exact .inl ⟨w₀, worker_of_ne h hw ▸ hw₀⟩
      · obtain ⟨-, ⟨-, hsame⟩ | ⟨b, -, hstep⟩⟩ := step_eq h
        · exact .inr (hsame ▸ hgone)
        · exact .inr ((World.step_transition hstep).gone inv hgone)
    · obtain ⟨w', -, -, hpoint'⟩ := hnew raw₀ hnow
      exact .inl ⟨w', hpoint'⟩

/-- Both invariants hold in every undisturbed run. -/
lemma run_settled {es : List (Execution W R)}
    (h : (fleet svc q W E).Emits ok (executions svc q) s es) :
    Exclusive svc s ∧ Settled svc s es := by
  refine h.invariant (P := fun s es => Exclusive svc s ∧ Settled svc s es) ?_ ?_
  · rintro s ⟨now, rfl⟩
    exact ⟨⟨nofun, nofun⟩, nofun, nofun⟩
  · intro s a t es hrun hoka hinv ht
    exact ⟨hinv.1.step hok hrun.run hoka ht, hinv.2.step hok hrun.run hinv.1 hoka ht⟩

/-- **The handler of a job returns once**: in every run whose workers keep within the visibility
timeout, whose leases are fresh and whose acknowledgements are sent, after the handler of a job
has returned no handler of that job is started, returns or fails, on any worker, and the job is
not among the dead letters. -/
theorem returned_once {es : List (Execution W R)}
    (h : (fleet svc q W E).Emits ok (executions svc q) s es) :
    (∀ before e after, es = before ++ e :: after → ∀ w raw, .returned w raw ∈ before →
      svc.idOf e.raw ≠ svc.idOf raw) ∧
    ∀ w raw, .returned w raw ∈ es →
      ∀ dead ∈ s.world.store.deadLetter.items, svc.idOf dead ≠ svc.idOf raw := by
  constructor
  · refine h.preceded (Q := fun before e => ∀ w raw, .returned w raw ∈ before →
      svc.idOf e.raw ≠ svc.idOf raw) fun s a t es hrun hoka _ => ?_
    obtain ⟨-, hset⟩ := run_settled hok hrun
    intro before e after heq w raw hraw
    have he : e ∈ executions svc q s a := heq ▸ List.mem_append_right _ List.mem_cons_self
    obtain rfl : before = [] := by
      have hlength : (executions svc q s a).length ≤ 1 := executions_length s a
      rw [heq, List.length_append, List.length_cons] at hlength
      exact List.length_eq_zero_iff.mp (by omega)
    rw [List.append_nil] at hraw
    obtain ⟨w', -, hp, hpoint⟩ := (run_sessions hrun.run).executing he
    refine (hset.apart w' e.raw hp (fun raw' hack => ?_) raw (mem_returnedOf.mpr ⟨w, hraw⟩)).symm
    rcases hpoint with ⟨-, hpoint⟩ | ⟨startedAt, hpoint, -⟩
    · rw [hack] at hpoint
      cases hpoint
    · rw [hack] at hpoint
      cases hpoint
  · intro w raw hraw dead hdead hid
    obtain ⟨he, hset⟩ := run_settled hok h
    have inv : s.world.Inv svc := World.reachable_inv (reachable_world h.run)
    have hentry : dead ∈ s.world.ledger.entries := List.mem_append_right _ hdead
    have hpos : 0 < s.world.population svc (svc.idOf raw) :=
      Ledger.population_pos.mpr ⟨dead, hentry, hid⟩
    rcases hset.settled raw (mem_returnedOf.mpr ⟨w, hraw⟩) with ⟨w₀, hw₀⟩ | ⟨-, hzero⟩
    · have hlinked := (run_sessions h.run).linked w₀
      rw [hw₀] at hlinked
      rcases he.running w₀ raw (congrArg Task.processed hlinked) with hin | hzero
      · have hentry' : raw ∈ s.world.ledger.entries :=
          List.mem_append_left _ (List.mem_append_right _ hin)
        -- the tries of an entry in processing and of a dead letter differ
        obtain rfl : dead = raw := inv.wf.eq_of_key hentry hentry' hid
        have hlow := (inv.wf.processing dead hin).2
        have hhigh := (inv.wf.deadLetter dead hdead).2
        omega
      · omega
    · omega

end Undisturbed

/-- The handler returns and the job is acknowledged. -/
theorem returned_once_sample : ∃ (s : State Bool Unit Unit (Job Unit))
    (es : List (Execution Bool (Job Unit))) (raw : Job Unit),
      .returned true raw ∈ es ∧ s.world.store.completed.live raw.id s.world.clock = true ∧
      ∀ dead ∈ s.world.store.deadLetter.items, dead.id ≠ raw.id := by
  obtain ⟨s, es, hrun, hp⟩ := System.exists_emits_of_trace
    (fleet sampleQueue sampleWorker Bool Unit) (Undisturbed sampleQueue sampleWorker)
    (executions sampleQueue sampleWorker) ⟨0, rfl⟩ (firstStarts ++ [.tick 1, .go true, .go true])
    (fun s es => (returnedOf es).any fun raw =>
      es = [.started true raw, .returned true raw] ∧
        s.world.store.completed.live raw.id s.world.clock = true) (by decide +kernel)
  obtain ⟨raw, -, hraw⟩ := List.any_eq_true.mp hp
  obtain ⟨hes, hlive⟩ := of_decide_eq_true hraw
  have hmem : .returned true raw ∈ es := by simp [hes]
  exact ⟨s, es, raw, hmem, hlive, (returned_once (fun _ _ h => h) hrun).2 true raw hmem⟩

/-- A worker that is later than the timeout: the job is recovered and its handler returns twice. -/
example : ((fleet sampleQueue sampleWorker Bool Unit).trace (fun _ _ => True)
      (executions sampleQueue sampleWorker) (.start 0)
      (firstStarts ++ [.tick 60, .runOnce false 60] ++ List.replicate 12 (.go false) ++
        [.tick 61, .go true, .go true, .go false, .go false])).map
    (fun x => (returnedOf x.2).map Job.id) = some [7, 7] := by
  decide +kernel

end Fleet

end FinOpsPipeline
