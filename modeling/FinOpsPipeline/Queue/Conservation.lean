import FinOpsPipeline.Queue.Refinement

/-!
Conservation of jobs in the interleaved queue.

`World.population svc w j` is the number of entries with job id `j` over the
pending, processing and dead-letter lists together.  It becomes `1` with the
`RPUSH` of `j` (`rpush_population`) and only then (`pushed_of_population`), it
stays `1` with the core of the job unchanged until the job is taken out
(`step_fate`), and once the job is out it never comes back (`later_gone`).
`queue_conserves_jobs` assembles the four.
-/

namespace FinOpsPipeline

variable {C P R : Type} [DecidableEq C] [DecidableEq R] {svc : QueueService P R}

namespace World

variable {w w' : World C P R} {a : Act C P}

/-- The number of entries with job id `j` over the three lists together. -/
def population (svc : QueueService P R) (w : World C P R) (j : ℕ) : ℕ :=
  w.ledger.population svc.labels j

/-- The `RPUSH` of the job `j` has taken effect. -/
def Pushed (svc : QueueService P R) (w : World C P R) (j : ℕ) : Prop :=
  j ∈ pushedKeys svc.labels w.log

/-- The last step took the job `j` out of the queue: a transaction of
`acknowledge`, the transaction of `recover_stale` for a job whose completed
marker an earlier `acknowledge` wrote, or the `DELETE` of `clear`. -/
def TakesOut (svc : QueueService P R) (j : ℕ) (w w' : World C P R) : Prop :=
  w.ledger.TakesOut svc.labels j w'.ledger

omit [DecidableEq C] [DecidableEq R] in
lemma cons_log_ne (e : Event R) : w.log ≠ e :: w.log := fun h => by
  have := congrArg List.length h
  simp at this

/-- The jobs of an `RPUSH` were not pushed before. -/
lemma Transition.fresh (inv : w.Inv svc) (h : Transition svc w a w') {raws : List R}
    (hlog : w'.log = .pushed raws :: w.log) {raw : R} (hraw : raw ∈ raws) :
    ¬ w.Pushed svc (svc.idOf raw) := by
  cases h with
  | tick | read | build | reserveZadd | retryZrem | ensureZadd => exact absurd hlog (cons_log_ne _)
  | lmove | ack | exec | drop | delete => exact absurd (List.cons.inj hlog).1 nofun
  | @rpush c jobs here values =>
      simp only [List.cons.injEq, Event.pushed.injEq, and_true] at hlog
      subst hlog
      obtain ⟨job, hjob, rfl⟩ := List.mem_map.mp hraw
      have ht : w.TaskOk svc (.enqueueRpush jobs) := here ▸ inv.tasks c
      rw [idOf_dumps]
      exact (ht.2 job hjob).2.2

/-- The `RPUSH` of a job gives it its one entry. -/
theorem rpush_population (inv : w.Inv svc) (h : Transition svc w a w') {raws : List R}
    (hlog : w'.log = .pushed raws :: w.log) {raw : R} (hraw : raw ∈ raws) :
    w.population svc (svc.idOf raw) = 0 ∧ w'.population svc (svc.idOf raw) = 1 := by
  have hfresh := h.fresh inv hlog hraw
  refine ⟨inv.wf.population_of_unknown hfresh, ?_⟩
  rcases h.refines inv with heq | hstep
  · have : w'.log = w.log := congrArg Ledger.log heq
    exact absurd (this ▸ hlog) (cons_log_ne _)
  · refine hstep.population_of_pushed inv.wf hfresh ?_
    change _ ∈ pushedKeys svc.labels w'.log
    rw [hlog]
    exact List.mem_append_left _ (List.mem_map_of_mem hraw)

/-- A job that gains an entry is among the values of an `RPUSH`. -/
theorem pushed_of_population (inv : w.Inv svc) (h : Transition svc w a w') {j : ℕ}
    (h0 : w.population svc j = 0) (h1 : w'.population svc j = 1) :
    ∃ raws, w'.log = .pushed raws :: w.log ∧ ∃ raw ∈ raws, svc.idOf raw = j := by
  rcases h.refines inv with heq | hstep
  · rw [population, heq] at h1
    exact absurd (h0.symm.trans h1) (by decide)
  · have hnew : ¬ w.Pushed svc j := fun hk =>
      absurd ((hstep.stays_gone hk h0).symm.trans h1) (by decide)
    have hpos : 0 < w'.ledger.population svc.labels j := Nat.lt_of_lt_of_eq Nat.one_pos h1.symm
    have hknown : j ∈ pushedKeys svc.labels w'.log := by
      obtain ⟨r, hr, rfl⟩ := Ledger.population_pos.mp hpos
      exact (h.inv inv).wf.known r hr
    cases h with
    | @rpush c jobs here values =>
        refine ⟨_, rfl, ?_⟩
        simpa [Event.pushedKeys] using (List.mem_append.mp hknown).resolve_right hnew
    | _ => exact absurd hknown hnew

/-- What a step does to the entry of a job. -/
theorem step_fate (inv : w.Inv svc) (h : Transition svc w a w') {raw : R}
    (hraw : raw ∈ w.ledger.entries) :
    (w'.population svc (svc.idOf raw) = 1 ∧ ∃ raw' ∈ w'.ledger.entries,
      svc.idOf raw' = svc.idOf raw ∧ (svc.loads raw').core = (svc.loads raw).core) ∨
    (w'.population svc (svc.idOf raw) = 0 ∧ TakesOut svc (svc.idOf raw) w w') := by
  rcases h.refines inv with heq | hstep
  · refine .inl ⟨?_, raw, heq ▸ hraw, rfl, rfl⟩
    rw [population, heq]
    exact inv.wf.population_eq_one hraw rfl
  · exact hstep.fate inv.wf hraw

/-- A job that left the queue stays out of it forever. -/
theorem later_gone (hw : (svc.system C).Reachable w) (h : (svc.system C).Later w w') {j : ℕ}
    (hj : w.Pushed svc j) (hgone : w.population svc j = 0) : w'.population svc j = 0 := by
  have hkeep : w'.Pushed svc j ∧ w'.population svc j = 0 := by
    refine h.preserves (P := fun w => w.Pushed svc j ∧ w.population svc j = 0) ?_ hw ⟨hj, hgone⟩
    intro s b t hs hP ht
    rcases (step_transition ht).refines (reachable_inv hs) with heq | hstep
    · rw [Pushed, population, heq]
      have hlog : t.log = s.log := congrArg Ledger.log heq
      exact ⟨hlog ▸ hP.1, hP.2⟩
    · exact ⟨hstep.pushedKeys_mono hP.1, hstep.stays_gone hP.1 hP.2⟩
  exact hkeep.2

/-- **Conservation of queue jobs**, in every interleaving of any number of
producers, workers, recoverers and resets, any of which may stop forever
between two commands. -/
theorem queue_conserves_jobs (hw : (svc.system C).Reachable w) (j : ℕ) :
    w.population svc j ≤ 1 ∧
    (∀ a w', w.step svc a = some w' →
      (∀ raws, w'.log = .pushed raws :: w.log → j ∈ raws.map svc.idOf →
        w.population svc j = 0 ∧ w'.population svc j = 1) ∧
      (w.population svc j = 0 → w'.population svc j = 1 →
        ∃ raws, w'.log = .pushed raws :: w.log ∧ j ∈ raws.map svc.idOf) ∧
      (∀ raw ∈ w.ledger.entries, svc.idOf raw = j →
        (w'.population svc j = 1 ∧ ∃ raw' ∈ w'.ledger.entries,
          svc.idOf raw' = j ∧ (svc.loads raw').core = (svc.loads raw).core) ∨
        (w'.population svc j = 0 ∧ TakesOut svc j w w'))) ∧
    (w.Pushed svc j → w.population svc j = 0 →
      ∀ w', (svc.system C).Later w w' → w'.population svc j = 0) := by
  have inv : w.Inv svc := reachable_inv hw
  refine ⟨inv.wf.population_le_one j, ?_, fun hj hgone w' h => later_gone hw h hj hgone⟩
  intro a w' hstep
  have h := step_transition hstep
  refine ⟨?_, ?_, ?_⟩
  · intro raws hlog hmem
    obtain ⟨raw, hraw, rfl⟩ := List.mem_map.mp hmem
    exact rpush_population inv h hlog hraw
  · intro h0 h1
    obtain ⟨raws, hlog, raw, hraw, hid⟩ := pushed_of_population inv h h0 h1
    exact ⟨raws, hlog, List.mem_map.mpr ⟨raw, hraw, hid⟩⟩
  · rintro raw hraw rfl
    exact step_fate inv h hraw

/-- A job that a crashed worker left in processing: its entry is there, and
whatever happens next it keeps its core or is taken out. -/
theorem queue_conserves_jobs_after_crash :
    ∃ w : World ℕ Unit (Job Unit),
      ((QueueService.plain 1 60 sixty_pos).system ℕ).Reachable w ∧
      (∃ raw ∈ w.ledger.entries, raw.id = 7) ∧
      ∀ a w', w.step (QueueService.plain 1 60 sixty_pos) a = some w' →
        ∀ raw ∈ w.ledger.entries, raw.id = 7 →
          (∃ raw' ∈ w'.ledger.entries, raw'.id = 7 ∧ raw'.core = raw.core) ∨
          TakesOut (QueueService.plain 1 60 sixty_pos) 7 w w' := by
  obtain ⟨w, hw, hraw⟩ := System.exists_run_of_schedule
    ((QueueService.plain (P := Unit) 1 60 sixty_pos).system ℕ) (fun _ _ => True) ⟨0, rfl⟩
    [.enqueue 0 7 "sample" (), .next 0, .tick 1, .reserve 1]
    (fun w => w.ledger.entries.any fun raw => raw.id = 7) (by decide +kernel)
  refine ⟨w, hw, by simpa using hraw, ?_⟩
  intro a w' h raw hmem hid
  rcases ((queue_conserves_jobs hw 7).2.1 a w' h).2.2 raw hmem hid with hkept | hout
  · exact .inl hkept.2
  · exact .inr hout.2

end World

end FinOpsPipeline
