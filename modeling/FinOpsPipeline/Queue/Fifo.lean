import FinOpsPipeline.Queue.Refinement

/-!
First deliveries in the order of arrival.

Retries and recoveries push entries back to the list that the producers append to, so
that the pending list mixes jobs that wait for their first delivery with jobs that wait
for another one.

* `pushOrder`, `firstMoves`: the order in which the jobs arrived, and the order of their
  first deliveries, read off the history.
* `Ledger.waiting`: the jobs that wait for their first delivery.
* `Ledger.Ordered`: the first deliveries and then the waiting jobs are the arrivals in
  order; `Ledger.Step.ordered` preserves it.
* `World.first_delivery_fifo`: the order of the interleaved system.
-/

namespace FinOpsPipeline

variable {R I K : Type} [DecidableEq R] [DecidableEq I]

/-! ### The orders of a history -/

/-- The keys in the order in which they were pushed. -/
def pushOrder (L : Labels R I K) : List (Event R) → List I
  | [] => []
  | e :: log => pushOrder L log ++ e.pushedKeys L

/-- The keys in the order in which they were first handed to a worker. -/
def firstMoves (L : Labels R I K) : List (Event R) → List I
  | [] => []
  | .moved raw _ :: log =>
      if L.key raw ∈ firstMoves L log then firstMoves L log
      else firstMoves L log ++ [L.key raw]
  | _ :: log => firstMoves L log

omit [DecidableEq R] [DecidableEq I] in
@[simp] lemma pushOrder_moved (L : Labels R I K) (raw : R) (now : ℚ) (log : List (Event R)) :
    pushOrder L (.moved raw now :: log) = pushOrder L log := List.append_nil _

namespace Ledger

/-- The keys of the pending jobs that were never handed to a worker, oldest first. -/
def waiting (L : Labels R I K) (s : Ledger R) : List I :=
  (s.pending.map L.key).filter fun k => k ∉ firstMoves L s.log

/-- The first deliveries and then the waiting jobs are in the order of arrival, and they
are all arrivals unless the queue was reset. -/
structure Ordered (L : Labels R I K) (s : Ledger R) : Prop where
  held : ∀ r ∈ s.processing, L.key r ∈ firstMoves L s.log
  known : ∀ k ∈ firstMoves L s.log, k ∈ pushedKeys L s.log
  order : (firstMoves L s.log ++ s.waiting L).Sublist (pushOrder L s.log)
  complete : .cleared ∉ s.log → firstMoves L s.log ++ s.waiting L = pushOrder L s.log

/-! ### Every step preserves the order -/

section Preservation

variable {L : Labels R I K} {maxRetries : ℕ} {s s' : Ledger R}

omit [DecidableEq R] in
lemma ordered_empty : (empty : Ledger R).Ordered L where
  held := fun _ h => by cases h
  known := fun _ h => by cases h
  order := List.Sublist.refl _
  complete := fun _ => rfl

omit [DecidableEq R] [DecidableEq I] in
lemma mem_pushOrder {k : I} {log : List (Event R)} :
    k ∈ pushOrder L log ↔ k ∈ pushedKeys L log := by
  induction log with
  | nil => exact Iff.rfl
  | cons e log ih =>
      rw [pushOrder, pushedKeys_cons, List.mem_append, List.mem_append, ih, or_comm]

omit [DecidableEq R] in
/-- An event that pushes nothing keeps the order when the delivered and the waiting jobs are
the same as before, taken together. -/
lemma Ordered.keep (ord : s.Ordered L) {e : Event R} (hlog : s'.log = e :: s.log)
    (hpush : e.pushedKeys L = [])
    (hheld : ∀ r ∈ s'.processing, L.key r ∈ firstMoves L s'.log)
    (hsame : firstMoves L s'.log ++ s'.waiting L = firstMoves L s.log ++ s.waiting L) :
    s'.Ordered L := by
  have horder : pushOrder L s'.log = pushOrder L s.log := by
    rw [hlog, pushOrder, hpush, List.append_nil]
  have hsub : (firstMoves L s'.log ++ s'.waiting L).Sublist (pushOrder L s'.log) := by
    rw [hsame, horder]
    exact ord.order
  exact
    { held := hheld
      known := fun k hk => mem_pushOrder.mp (hsub.subset (List.mem_append_left _ hk))
      order := hsub
      complete := fun hclear => by
        rw [hsame, horder]
        exact ord.complete fun h => hclear (hlog ▸ List.mem_cons_of_mem _ h) }

omit [DecidableEq R] in
/-- An event that neither pushes nor moves keeps the order when no waiting job leaves. -/
lemma Ordered.quiet (ord : s.Ordered L) {e : Event R} (hlog : s'.log = e :: s.log)
    (hpush : e.pushedKeys L = []) (hmoves : firstMoves L (e :: s.log) = firstMoves L s.log)
    (hprocessing : s'.processing ⊆ s.processing) (hwaiting : s'.waiting L = s.waiting L) :
    s'.Ordered L := by
  have hfirst : firstMoves L s'.log = firstMoves L s.log := hlog ▸ hmoves
  refine ord.keep hlog hpush (fun r hr => ?_) ?_
  · rw [hfirst]
    exact ord.held r (hprocessing hr)
  · rw [hfirst, hwaiting]

omit [DecidableEq R] in
/-- New jobs wait behind all others. -/
lemma Ordered.push (ord : s.Ordered L) {raws : List R}
    (fresh : ∀ r ∈ raws, L.key r ∉ pushedKeys L s.log) :
    Ordered L { s with pending := s.pending ++ raws, log := .pushed raws :: s.log } := by
  have hwaiting : waiting L { s with
      pending := s.pending ++ raws, log := .pushed raws :: s.log } =
        s.waiting L ++ raws.map L.key := by
    simp only [waiting, firstMoves, List.map_append, List.filter_append]
    refine congrArg _ (List.filter_eq_self.mpr fun k hk => ?_)
    obtain ⟨r, hr, rfl⟩ := List.mem_map.mp hk
    exact decide_eq_true fun hmoved => fresh r hr (ord.known _ hmoved)
  exact
    { held := ord.held
      known := fun k hk => List.mem_append_right _ (ord.known k hk)
      order := by
        rw [hwaiting, ← List.append_assoc]
        exact ord.order.append (List.Sublist.refl _)
      complete := fun hclear => by
        rw [hwaiting, ← List.append_assoc]
        exact congrArg (· ++ _) (ord.complete fun h => hclear (List.mem_cons_of_mem _ h)) }

omit [DecidableEq R] in
/-- Handing the oldest pending job to a worker. -/
lemma Ordered.move (ord : s.Ordered L) (wf : s.Wf L maxRetries) {raw : R} {rest : List R}
    (now : ℚ) (head : s.pending = raw :: rest) :
    Ordered L { s with
      pending := rest, processing := s.processing ++ [raw], log := .moved raw now :: s.log } := by
  have hne : ∀ r ∈ rest, L.key r ≠ L.key raw := by
    intro r hr
    have hperm : s.entries.Perm (raw :: (rest ++ s.processing ++ s.deadLetter)) := by
      simp [entries, head]
    exact wf.key_ne hperm (by simp [hr])
  by_cases hmoved : L.key raw ∈ firstMoves L s.log
  · -- another delivery of a job that was delivered before
    have hfirst : firstMoves L (.moved raw now :: s.log) = firstMoves L s.log := if_pos hmoved
    have hwaiting : waiting L { s with
        pending := rest, processing := s.processing ++ [raw],
        log := .moved raw now :: s.log } = s.waiting L := by
      simp only [waiting, hfirst, head, List.map_cons]
      rw [List.filter_cons_of_neg (by simpa using hmoved)]
    refine ord.keep rfl rfl (fun r hr => ?_) ?_
    · change L.key r ∈ firstMoves L (.moved raw now :: s.log)
      rw [hfirst]
      obtain hold | hnew := List.mem_append.mp hr
      · exact ord.held r hold
      · exact List.mem_singleton.mp hnew ▸ hmoved
    · rw [hwaiting]
      exact congrArg (· ++ _) hfirst
  · -- the first delivery of the first waiting job
    have hfirst : firstMoves L (.moved raw now :: s.log) = firstMoves L s.log ++ [L.key raw] :=
      if_neg hmoved
    have hwaiting : s.waiting L = L.key raw :: waiting L { s with
        pending := rest, processing := s.processing ++ [raw],
        log := .moved raw now :: s.log } := by
      simp only [waiting, hfirst, head, List.map_cons]
      rw [List.filter_cons_of_pos (by simpa using hmoved)]
      refine congrArg _ (List.filter_congr fun k hk => ?_)
      obtain ⟨r, hr, rfl⟩ := List.mem_map.mp hk
      simp [hne r hr]
    refine ord.keep rfl rfl (fun r hr => ?_) ?_
    · change L.key r ∈ firstMoves L (.moved raw now :: s.log)
      rw [hfirst, List.mem_append]
      obtain hold | hnew := List.mem_append.mp hr
      · exact .inl (ord.held r hold)
      · exact .inr (List.mem_singleton.mp hnew ▸ List.mem_singleton_self _)
    · change firstMoves L (.moved raw now :: s.log) ++ _ = _
      rw [hwaiting, hfirst, List.append_assoc, List.singleton_append]

/-- A job that is put back was delivered before, so that it is none of the waiting ones. -/
lemma Ordered.putBack (ord : s.Ordered L) {raw updated : R} (origin : Origin) (now : ℚ)
    (held : raw ∈ s.processing) (key : L.key updated = L.key raw) :
    (s.putBack L maxRetries raw updated origin now).Ordered L := by
  have hmoved : L.key updated ∈ firstMoves L s.log := key ▸ ord.held raw held
  refine ord.quiet (putBack_log L maxRetries s raw updated origin now) rfl rfl
    (fun r hr => of_mem_putBack_processing hr) ?_
  rw [waiting, putBack_log, Ledger.putBack]
  split
  · simp only [waiting, firstMoves, List.map_append, List.filter_append]
    refine (congrArg _ ?_).trans (List.append_nil _)
    simp [hmoved]
  · rfl

/-- **Every step of the queue preserves the order.** -/
theorem Step.ordered (wf : s.Wf L maxRetries) (ord : s.Ordered L)
    (h : Step L maxRetries s s') : s'.Ordered L := by
  cases h with
  | push raws fresh distinct untried => exact ord.push fresh
  | move now head => exact ord.move wf now head
  | ack raw => exact ord.quiet rfl rfl rfl List.erase_subset rfl
  | requeue origin now held key _ tries => exact ord.putBack origin now held key
  | drop raw now _ => exact ord.quiet rfl rfl rfl List.erase_subset rfl
  | clear =>
      exact
        { held := fun _ h => by cases h
          known := ord.known
          order := by
            have hsub := (List.sublist_append_left (firstMoves L s.log) _).trans ord.order
            simpa [waiting, firstMoves, pushOrder, Event.pushedKeys] using hsub
          complete := fun hclear => absurd List.mem_cons_self hclear }

end Preservation

end Ledger

/-! ### The queue of the service -/

namespace World

variable {C P R : Type} [DecidableEq C] [DecidableEq R] {svc : QueueService P R}
  {w w' : World C P R} {a : Act C P}

/-- **The order in every reachable state.** -/
theorem reachable_ordered (hw : (svc.system C).Reachable w) : w.ledger.Ordered svc.labels := by
  refine hw.invariant (P := fun w => w.ledger.Ordered svc.labels) ?_ ?_
  · rintro _ ⟨now, rfl⟩
    exact Ledger.ordered_empty
  · intro s b t hs _ hord hstep
    rcases (step_transition hstep).refines (reachable_inv hs) with heq | hledger
    · exact heq ▸ hord
    · exact hledger.ordered (reachable_inv hs).wf hord

/-- The order of arrival grows by the jobs of one `RPUSH`, in the order of their list. -/
lemma Transition.pushOrder (h : Transition svc w a w') :
    pushOrder svc.labels w'.log = pushOrder svc.labels w.log ∨
      ∃ c jobs, a = .next c ∧ w.task c = .enqueueRpush jobs ∧
        pushOrder svc.labels w'.log = pushOrder svc.labels w.log ++ jobs.map Job.id := by
  cases h with
  | @rpush c jobs here values =>
      have hkeys : (Event.pushed (jobs.map svc.dumps)).pushedKeys svc.labels = jobs.map Job.id := by
        simp [Event.pushedKeys, Function.comp_def]
      exact .inr ⟨c, jobs, rfl, here, congrArg _ hkeys⟩
  | tick | read | build | reserveZadd | retryZrem | ensureZadd => exact .inl rfl
  | lmove | ack | exec | drop | delete => exact .inl (List.append_nil _)

/-- **First deliveries are first in, first out**: the jobs are first moved to processing
in the order in which their `RPUSH` took effect, the jobs of one call in the order of its
list. Without a reset the pending jobs that wait for their first delivery follow in the
same order, whatever was put back between them. -/
theorem first_delivery_fifo (hw : (svc.system C).Reachable w) :
    (firstMoves svc.labels w.log).Sublist (pushOrder svc.labels w.log) ∧
    (.cleared ∉ w.log → pushOrder svc.labels w.log = firstMoves svc.labels w.log ++
      (w.store.queue.items.map svc.idOf).filter fun j => j ∉ firstMoves svc.labels w.log) ∧
    ∀ a w', w.step svc a = some w' →
      pushOrder svc.labels w'.log = pushOrder svc.labels w.log ∨
        ∃ c jobs, a = .next c ∧ w.task c = .enqueueRpush jobs ∧
          pushOrder svc.labels w'.log = pushOrder svc.labels w.log ++ jobs.map Job.id := by
  have ord := reachable_ordered hw
  refine ⟨?_, ?_, fun a w' hstep => (step_transition hstep).pushOrder⟩
  · exact (List.sublist_append_left _ _).trans ord.order
  · exact fun hclear => (ord.complete hclear).symm

/-- A batch of two jobs: the first one fails and is put back behind the second one, which
is then delivered second. -/
theorem first_delivery_fifo_batch :
    ∃ w : World ℕ Unit (Job Unit),
      ((QueueService.plain 1 60 sixty_pos).system ℕ).Reachable w ∧
      w.store.queue.items.map Job.id = [7] ∧
      (firstMoves (QueueService.plain 1 60 sixty_pos).labels w.log).Sublist
        (pushOrder (QueueService.plain 1 60 sixty_pos).labels w.log) ∧
      firstMoves (QueueService.plain 1 60 sixty_pos).labels w.log = [7, 8] := by
  obtain ⟨w, hw, hp⟩ := System.exists_run_of_schedule
    ((QueueService.plain (P := Unit) 1 60 sixty_pos).system ℕ) (fun _ _ => True) ⟨0, rfl⟩
    [.enqueueMany 0 [(7, 0), (8, 0)] "sample" (), .next 0,
      .reserve 1, .next 1, .next 1, .retryOrDeadLetter 1 "failure",
      .next 1, .next 1, .next 1, .reserve 1]
    (fun w => decide (w.store.queue.items.map Job.id = [7] ∧
      firstMoves (QueueService.plain 1 60 sixty_pos).labels w.log = [7, 8])) (by decide +kernel)
  obtain ⟨hpending, hfirst⟩ := of_decide_eq_true hp
  exact ⟨w, hw, hpending, (first_delivery_fifo hw).1, hfirst⟩

end World

end FinOpsPipeline
