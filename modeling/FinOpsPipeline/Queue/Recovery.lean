import FinOpsPipeline.Queue.Service
import Mathlib.Tactic.Linarith

/-!
What one uninterrupted `recover_stale` makes of an arbitrary store.

* `QueueService.ensured`, `QueueService.stale`: the store after
  `ensure_processing_leases` and the entries the scan then goes through.
* `QueueService.Visited`: the store and the counters once some entries have been
  visited, told by filters of the list of visits; `Visited.visit` is the effect
  of one more visit.
* `World.Scan`: the run of one client alone, from the call to the result. Time
  may pass in it, so each visit keeps the two clock readings it made.
* `QueueService.ScanPoint`: where such a run can be and what the store is there,
  kept by every step (`InScan.next`, `InScan.tick`).
* `recovery_scan`: a scan returns, its post-state, and what the next scan does
  with an entry that had no lease.
-/

namespace FinOpsPipeline

variable {C P R : Type} [DecidableEq C] [DecidableEq R]

/-! ### The visits of a scan -/

/-- One iteration of `for raw in stale_raw_values`: the entry, the time at which
its completed marker was looked up and the time stamped on the failed job. -/
structure Visit (R : Type) where
  raw : R
  checkedAt : ℚ
  failedAt : ℚ

/-- The arguments `recover_stale` passes to `retry_or_dead_letter`. -/
def Visit.call {R : Type} (v : Visit R) (todo : List R) (result : Recovered) : RetryCall R where
  raw := v.raw
  reason := "visibility timeout exceeded"
  failedAt := v.failedAt
  caller := .recovery todo result

namespace QueueService

variable (svc : QueueService P R)

/-- The store when `ensure_processing_leases` is past the entries `done`. -/
def ensuring (s : Store R) (now : ℚ) (done : List R) : Store R :=
  { s with
    leases := done.foldl (fun z raw => z.zaddNX raw (now + svc.visibilityTimeoutSeconds)) s.leases }

/-- The store after `ensure_processing_leases`. -/
def ensured (s : Store R) (now : ℚ) : Store R := svc.ensuring s now s.processing.items

/-- `stale_raw_values`. -/
def stale (s : Store R) (now : ℚ) : List R :=
  (svc.ensured s now).leases.rangeByScore svc.lex now

/-- The entry that a visit pushes back, its attempts incremented. -/
def requeued (v : Visit R) : R :=
  svc.dumps (failedJob (svc.loads v.raw) "visibility timeout exceeded" v.failedAt)

/-- Where a visit pushes it. -/
def target (raw : R) : Destination :=
  if (svc.loads raw).attempts + 1 ≤ svc.maxRetries then .queue else .deadLetter

/-- The completed marker of the entry was there when it was looked up. -/
def completedAt (s : Store R) (v : Visit R) : Bool :=
  s.completed.live (svc.idOf v.raw) v.checkedAt

/-- The visits that move their entry: it is in processing and not completed. -/
def moves (s : Store R) (visits : List (Visit R)) : List (Visit R) :=
  visits.filter fun v => v.raw ∈ s.processing.items ∧ svc.completedAt s v = false

/-- The visits that move their entry to a given list. -/
def movesTo (s : Store R) (d : Destination) (visits : List (Visit R)) : List (Visit R) :=
  (svc.moves s visits).filter fun v => svc.target v.raw = d

/-- The store `st` and the counters after the given visits to the store `s`. -/
structure Visited (s : Store R) (visits : List (Visit R)) (st : Store R)
    (result : Recovered) : Prop where
  processing : st.processing.items =
    s.processing.items.filter fun raw => raw ∉ visits.map Visit.raw
  leases : ∀ raw, st.leases.zscore raw =
    if raw ∈ visits.map Visit.raw then none else s.leases.zscore raw
  queue : st.queue.items = s.queue.items ++ (svc.movesTo s .queue visits).map svc.requeued
  deadLetter : st.deadLetter.items =
    s.deadLetter.items ++ (svc.movesTo s .deadLetter visits).map svc.requeued
  completed : st.completed = s.completed
  retried : result.retried = (svc.movesTo s .queue visits).length
  deadLettered : result.deadLettered = (svc.movesTo s .deadLetter visits).length
  alreadyCompleted : result.alreadyCompleted = (visits.filter (svc.completedAt s)).length

variable {svc} {s st st' : Store R} {visits : List (Visit R)} {result result' : Recovered}
  {now : ℚ}

omit [DecidableEq R] in
lemma target_eq_destination (v : Visit R) (todo : List R) (result : Recovered) :
    svc.destination (v.call todo result) = svc.target v.raw := rfl

/-- The leases after `ensure_processing_leases`, one entry at a time. -/
lemma zscore_ensuring (s : Store R) (now : ℚ) (done : List R) (raw : R) :
    (svc.ensuring s now done).leases.zscore raw =
      (s.leases.zscore raw).or
        (if raw ∈ done then some (now + svc.visibilityTimeoutSeconds) else none) := by
  rw [ensuring]
  generalize s.leases = z
  induction done generalizing z with
  | nil => simp
  | cons x done ih =>
      rw [List.foldl_cons, ih, ZSet.zscore_zaddNX_eq, Option.or_assoc]
      congr 1
      by_cases hx : raw = x
      · rw [if_pos hx, if_pos (List.mem_cons.mpr (.inl hx)), Option.some_or]
      · rw [if_neg hx, Option.none_or]
        exact if_congr (by rw [List.mem_cons, or_iff_right hx]) rfl rfl

lemma ensuring_snoc (s : Store R) (now : ℚ) (done : List R) (raw : R) :
    svc.ensuring s now (done ++ [raw]) =
      { svc.ensuring s now done with
        leases := (svc.ensuring s now done).leases.zaddNX raw
          (now + svc.visibilityTimeoutSeconds) } := by
  simp only [ensuring, List.foldl_append, List.foldl_cons, List.foldl_nil]

/-- An entry that has a deadline keeps it. -/
lemma ensuring_leased {done : List R} {raw : R} {d : ℚ}
    (h : (svc.ensuring s now done).leases.zscore raw = some d) :
    svc.ensuring s now (done ++ [raw]) = svc.ensuring s now done := by
  rw [ensuring_snoc, ZSet.zaddNX_of_zscore _ h]

/-- The stale entries: those with a deadline that is not after `now`. -/
lemma mem_stale_iff {raw : R} :
    raw ∈ svc.stale s now ↔ ∃ d, s.leases.zscore raw = some d ∧ d ≤ now := by
  rw [stale, ZSet.mem_rangeByScore_iff, ensured, zscore_ensuring]
  cases hz : s.leases.zscore raw with
  | some d => simp
  | none =>
      have hpos := svc.visibilityTimeout_pos
      rw [Option.none_or]
      refine ⟨?_, by simp⟩
      rintro ⟨d, hd, hle⟩
      split at hd
      · cases hd
        linarith
      · cases hd

lemma moves_append (visits : List (Visit R)) (v : Visit R) :
    svc.moves s (visits ++ [v]) = svc.moves s visits ++ svc.moves s [v] :=
  List.filter_append ..

lemma movesTo_append (d : Destination) (visits : List (Visit R)) (v : Visit R) :
    svc.movesTo s d (visits ++ [v]) = svc.movesTo s d visits ++ svc.movesTo s d [v] := by
  rw [movesTo, moves_append, List.filter_append, movesTo, movesTo]

/-- The two destinations share the moved entries out. -/
lemma length_movesTo (visits : List (Visit R)) :
    (svc.movesTo s .queue visits).length + (svc.movesTo s .deadLetter visits).length =
      (svc.moves s visits).length := by
  have hother : svc.movesTo s .deadLetter visits =
      (svc.moves s visits).filter fun v => !decide (svc.target v.raw = .queue) := by
    refine List.filter_congr fun v _ => ?_
    cases svc.target v.raw <;> rfl
  rw [hother, movesTo]
  exact (List.length_eq_length_filter_add _).symm

lemma Visited.nil (s : Store R) : svc.Visited s [] s ⟨0, 0, 0⟩ where
  processing := by simp
  leases := by simp
  queue := by simp [movesTo, moves]
  deadLetter := by simp [movesTo, moves]
  completed := rfl
  retried := rfl
  deadLettered := rfl
  alreadyCompleted := rfl

/-- One more visit: the entry leaves processing and the leases, and it is pushed
where the visit moves it. -/
lemma Visited.visit (h : svc.Visited s visits st result) (distinct : s.processing.items.Nodup)
    (v : Visit R)
    (hprocessing : st'.processing.items = st.processing.items.erase v.raw)
    (hleases : st'.leases = st.leases.zrem v.raw)
    (hcompleted : st'.completed = st.completed)
    (hqueue : st'.queue.items =
      st.queue.items ++ (svc.movesTo s .queue [v]).map svc.requeued)
    (hdead : st'.deadLetter.items =
      st.deadLetter.items ++ (svc.movesTo s .deadLetter [v]).map svc.requeued)
    (hresult : result' =
      ⟨result.retried + (svc.movesTo s .queue [v]).length,
       result.deadLettered + (svc.movesTo s .deadLetter [v]).length,
       result.alreadyCompleted + ([v].filter (svc.completedAt s)).length⟩) :
    svc.Visited s (visits ++ [v]) st' result' where
  processing := by
    have hnd : st.processing.items.Nodup := h.processing ▸ distinct.filter _
    rw [hprocessing, hnd.erase_eq_filter, h.processing, List.filter_filter]
    refine List.filter_congr fun raw _ => ?_
    by_cases hraw : raw = v.raw <;> simp [hraw]
  leases := by
    intro raw
    rw [hleases, List.map_append, List.map_singleton]
    by_cases hraw : raw = v.raw
    · rw [hraw, ZSet.zscore_zrem_self, if_pos (List.mem_append_right _ (List.mem_singleton_self _))]
    · rw [ZSet.zscore_zrem_of_ne _ hraw, h.leases]
      exact if_congr (by rw [List.mem_append, List.mem_singleton, or_iff_left hraw]) rfl rfl
  queue := by
    rw [hqueue, h.queue, movesTo_append, List.map_append, List.append_assoc]
  deadLetter := by
    rw [hdead, h.deadLetter, movesTo_append, List.map_append, List.append_assoc]
  completed := hcompleted.trans h.completed
  retried := by
    rw [hresult, movesTo_append, List.length_append, h.retried]
  deadLettered := by
    rw [hresult, movesTo_append, List.length_append, h.deadLettered]
  alreadyCompleted := by
    rw [hresult, List.filter_append, List.length_append, h.alreadyCompleted]

/-- The visit of a completed entry. -/
lemma Visited.drop (h : svc.Visited s visits st result) (distinct : s.processing.items.Nodup)
    {v : Visit R} (hv : svc.completedAt s v = true) :
    svc.Visited s (visits ++ [v])
      { st with processing := st.processing.lrem v.raw, leases := st.leases.zrem v.raw }
      { result with alreadyCompleted := result.alreadyCompleted + 1 } := by
  have hnone : ∀ d, svc.movesTo s d [v] = [] := fun d => by simp [movesTo, moves, hv]
  refine h.visit distinct v (ListKey.lrem_items _ _) rfl rfl ?_ ?_ ?_
  · rw [hnone, List.map_nil, List.append_nil]
  · rw [hnone, List.map_nil, List.append_nil]
  · rw [hnone, hnone, List.filter_cons_of_pos hv]
    rfl

/-- The visit of an entry that is neither completed nor in processing. -/
lemma Visited.missing (h : svc.Visited s visits st result) (distinct : s.processing.items.Nodup)
    {v : Visit R} (hv : svc.completedAt s v = false) (hnew : v.raw ∉ visits.map Visit.raw)
    (hmissing : v.raw ∉ st.processing.items) :
    svc.Visited s (visits ++ [v]) { st with leases := st.leases.zrem v.raw } result := by
  have habsent : v.raw ∉ s.processing.items := by
    rw [h.processing, List.mem_filter] at hmissing
    exact fun hmem => hmissing ⟨hmem, by simpa using hnew⟩
  have hnone : ∀ d, svc.movesTo s d [v] = [] := fun d => by simp [movesTo, moves, habsent]
  refine h.visit distinct v (List.erase_of_not_mem hmissing).symm rfl rfl ?_ ?_ ?_
  · rw [hnone, List.map_nil, List.append_nil]
  · rw [hnone, List.map_nil, List.append_nil]
  · rw [hnone, hnone, List.filter_cons_of_neg (by simp [hv])]
    rfl

/-- The visit of an entry that goes back to the pending list. -/
lemma Visited.retry (h : svc.Visited s visits st result) (distinct : s.processing.items.Nodup)
    {v : Visit R} (hv : svc.completedAt s v = false) (hmem : v.raw ∈ st.processing.items)
    (htarget : svc.target v.raw = .queue) :
    svc.Visited s (visits ++ [v])
      { st with
        processing := st.processing.lrem v.raw
        leases := st.leases.zrem v.raw
        queue := st.queue.rpush [svc.requeued v] }
      { result with retried := result.retried + 1 } := by
  have hin : v.raw ∈ s.processing.items := List.mem_of_mem_filter (h.processing ▸ hmem)
  have hqueue : svc.movesTo s .queue [v] = [v] := by simp [movesTo, moves, hv, hin, htarget]
  have hdead : svc.movesTo s .deadLetter [v] = [] := by simp [movesTo, moves, htarget]
  refine h.visit distinct v (ListKey.lrem_items _ _) rfl rfl ?_ ?_ ?_
  · rw [hqueue]
    rfl
  · rw [hdead, List.map_nil, List.append_nil]
  · rw [hqueue, hdead, List.filter_cons_of_neg (by simp [hv])]
    rfl

/-- The visit of an entry that goes to the dead letters. -/
lemma Visited.bury (h : svc.Visited s visits st result) (distinct : s.processing.items.Nodup)
    {v : Visit R} (hv : svc.completedAt s v = false) (hmem : v.raw ∈ st.processing.items)
    (htarget : svc.target v.raw = .deadLetter) :
    svc.Visited s (visits ++ [v])
      { st with
        processing := st.processing.lrem v.raw
        leases := st.leases.zrem v.raw
        deadLetter := st.deadLetter.rpush [svc.requeued v] }
      { result with deadLettered := result.deadLettered + 1 } := by
  have hin : v.raw ∈ s.processing.items := List.mem_of_mem_filter (h.processing ▸ hmem)
  have hqueue : svc.movesTo s .queue [v] = [] := by simp [movesTo, moves, htarget]
  have hdead : svc.movesTo s .deadLetter [v] = [v] := by simp [movesTo, moves, hv, hin, htarget]
  refine h.visit distinct v (ListKey.lrem_items _ _) rfl rfl ?_ ?_ ?_
  · rw [hqueue, List.map_nil, List.append_nil]
  · rw [hdead]
    rfl
  · rw [hqueue, hdead, List.filter_cons_of_neg (by simp [hv])]
    rfl

/-! ### The points of a scan -/

variable (svc) in
/-- How far a scan that began at `start` has come by `clock`: the visits made,
those still to make, and the clock readings of the visits made. -/
structure Progress (s : Store R) (start now : ℚ) (visits : List (Visit R)) (todo : List R)
    (st : Store R) (result : Recovered) (clock : ℚ) : Prop where
  order : visits.map Visit.raw ++ todo = svc.stale s now
  readings : ∀ v ∈ visits, start ≤ v.checkedAt ∧ v.checkedAt ≤ v.failedAt ∧ v.failedAt ≤ clock
  visited : svc.Visited (svc.ensured s now) visits st result

variable (svc) in
/-- A scan that is at the visit `v`: its entry is the next one, and the clock
readings of the visit lie between the call and `clock`. -/
structure Visiting (s : Store R) (start now : ℚ) (visits : List (Visit R)) (v : Visit R)
    (todo : List R) (st : Store R) (result : Recovered) (clock : ℚ) : Prop extends
    svc.Progress s start now visits (v.raw :: todo) st result clock where
  reading : start ≤ v.checkedAt ∧ v.checkedAt ≤ v.failedAt ∧ v.failedAt ≤ clock

variable (svc) in
/-- The points of a scan of the store `s` that began at `start`, with the store
and the clock at each. -/
inductive ScanPoint (s : Store R) (start now : ℚ) : Task P R → Store R → ℚ → Prop where
  | lrange {clock : ℚ} : ScanPoint s start now (.ensureLrange true now) s clock
  | zscore {done todo : List R} {raw : R} {added : ℕ} {clock : ℚ}
      (split : s.processing.items = done ++ raw :: todo) :
      ScanPoint s start now (.ensureZscore true now added raw todo)
        (svc.ensuring s now done) clock
  | zadd {done todo : List R} {raw : R} {added : ℕ} {clock : ℚ}
      (split : s.processing.items = done ++ raw :: todo) :
      ScanPoint s start now (.ensureZadd true now added raw todo)
        (svc.ensuring s now done) clock
  | zrange {clock : ℚ} : ScanPoint s start now (.recoverZrange now) (svc.ensured s now) clock
  | check {visits : List (Visit R)} {raw : R} {todo : List R} {st : Store R}
      {result : Recovered} {clock : ℚ}
      (progress : svc.Progress s start now visits (raw :: todo) st result clock) :
      ScanPoint s start now (.recoverExists raw todo result) st clock
  | drop {visits : List (Visit R)} {v : Visit R} {todo : List R} {st : Store R}
      {result : Recovered} {clock : ℚ}
      (here : svc.Visiting s start now visits v todo st result clock)
      (completed : svc.completedAt s v = true) :
      ScanPoint s start now (.recoverDrop v.raw todo result) st clock
  | fail {visits : List (Visit R)} {v : Visit R} {todo : List R} {st : Store R}
      {result : Recovered} {clock : ℚ}
      (here : svc.Visiting s start now visits v todo st result clock)
      (absent : svc.completedAt s v = false) :
      ScanPoint s start now (.recoverFail v.raw todo result) st clock
  | watch {visits : List (Visit R)} {v : Visit R} {todo : List R} {st : Store R}
      {result : Recovered} {clock : ℚ}
      (here : svc.Visiting s start now visits v todo st result clock)
      (absent : svc.completedAt s v = false) :
      ScanPoint s start now (.retryWatch (v.call todo result)) st clock
  | lpos {visits : List (Visit R)} {v : Visit R} {todo : List R} {st : Store R}
      {result : Recovered} {clock : ℚ} {seen : ℕ}
      (here : svc.Visiting s start now visits v todo st result clock)
      (absent : svc.completedAt s v = false) :
      ScanPoint s start now (.retryLpos (v.call todo result) seen) st clock
  | exec {visits : List (Visit R)} {v : Visit R} {todo : List R} {st : Store R}
      {result : Recovered} {clock : ℚ} {seen : ℕ}
      (here : svc.Visiting s start now visits v todo st result clock)
      (absent : svc.completedAt s v = false) (found : v.raw ∈ st.processing.items) :
      ScanPoint s start now (.retryExec (v.call todo result) seen) st clock
  | zrem {visits : List (Visit R)} {v : Visit R} {todo : List R} {st : Store R}
      {result : Recovered} {clock : ℚ}
      (here : svc.Visiting s start now visits v todo st result clock)
      (absent : svc.completedAt s v = false) (missing : v.raw ∉ st.processing.items) :
      ScanPoint s start now (.retryZrem (v.call todo result)) st clock
  | returned {visits : List (Visit R)} {st : Store R} {result : Recovered} {clock : ℚ}
      (progress : svc.Progress s start now visits [] st result clock) :
      ScanPoint s start now (.idle (.recovered result)) st clock

variable {start clock clock' : ℚ} {todo done : List R} {v : Visit R}

/-- The first iteration of the loop over the stale entries. -/
lemma Progress.begin (s : Store R) (start now clock : ℚ) :
    svc.Progress s start now [] (svc.stale s now) (svc.ensured s now) ⟨0, 0, 0⟩ clock where
  order := rfl
  readings := by simp
  visited := .nil _

/-- The completed marker of the next entry is looked up at `clock`. -/
lemma Progress.check {raw : R} (h : svc.Progress s start now visits (raw :: todo) st result clock)
    (hstart : start ≤ clock) :
    svc.Visiting s start now visits ⟨raw, clock, clock⟩ todo st result clock where
  toProgress := h
  reading := ⟨hstart, le_refl _, le_refl _⟩

/-- The failed job is stamped at `clock`, whatever was noted before. -/
lemma Visiting.stamp (h : svc.Visiting s start now visits v todo st result clock) :
    svc.Visiting s start now visits ⟨v.raw, v.checkedAt, clock⟩ todo st result clock where
  toProgress := h.toProgress
  reading := ⟨h.reading.1, h.reading.2.1.trans h.reading.2.2, le_refl _⟩

/-- The entry of a visit was not visited before. -/
lemma Visiting.fresh (h : svc.Visiting s start now visits v todo st result clock) :
    v.raw ∉ visits.map Visit.raw := by
  have hnd : (visits.map Visit.raw ++ v.raw :: todo).Nodup :=
    h.order ▸ ZSet.nodup_rangeByScore _ _ _
  exact fun hmem => List.disjoint_of_nodup_append hnd hmem (List.mem_cons_self ..)

/-- The end of a visit. -/
lemma Visiting.finish (h : svc.Visiting s start now visits v todo st result clock)
    (hvisited : svc.Visited (svc.ensured s now) (visits ++ [v]) st' result') :
    svc.Progress s start now (visits ++ [v]) todo st' result' clock where
  order := by rw [List.map_append, List.map_singleton, List.append_assoc]; exact h.order
  readings := by
    intro u hu
    rcases List.mem_append.mp hu with hu | hu
    · exact h.readings u hu
    · exact List.mem_singleton.mp hu ▸ h.reading
  visited := hvisited

lemma Progress.later (h : svc.Progress s start now visits todo st result clock)
    (hle : clock ≤ clock') : svc.Progress s start now visits todo st result clock' where
  order := h.order
  readings u hu := ⟨(h.readings u hu).1, (h.readings u hu).2.1, (h.readings u hu).2.2.trans hle⟩
  visited := h.visited

lemma Visiting.later (h : svc.Visiting s start now visits v todo st result clock)
    (hle : clock ≤ clock') : svc.Visiting s start now visits v todo st result clock' where
  toProgress := h.toProgress.later hle
  reading := ⟨h.reading.1, h.reading.2.1, h.reading.2.2.trans hle⟩

/-- Time may pass at every point of a scan. -/
lemma ScanPoint.later {t : Task P R} (h : svc.ScanPoint s start now t st clock)
    (hle : clock ≤ clock') : svc.ScanPoint s start now t st clock' := by
  cases h with
  | lrange => exact .lrange
  | zscore split => exact .zscore split
  | zadd split => exact .zadd split
  | zrange => exact .zrange
  | check progress => exact .check (progress.later hle)
  | drop here completed => exact .drop (here.later hle) completed
  | fail here absent => exact .fail (here.later hle) absent
  | watch here absent => exact .watch (here.later hle) absent
  | lpos here absent => exact .lpos (here.later hle) absent
  | exec here absent found => exact .exec (here.later hle) absent found
  | zrem here absent missing => exact .zrem (here.later hle) absent missing
  | returned progress => exact .returned (progress.later hle)

/-- The next iteration of `ensure_processing_leases`, or its return. -/
lemma scanPoint_ensureNext {added : ℕ} (split : s.processing.items = done ++ todo) :
    svc.ScanPoint s start now (.ensureNext true now added todo)
      (svc.ensuring s now done) clock := by
  cases todo with
  | nil =>
      rw [List.append_nil] at split
      exact split ▸ .zrange
  | cons raw todo => exact .zscore split

/-- The next iteration of `recover_stale`, or its return. -/
lemma Progress.recoverNext (h : svc.Progress s start now visits todo st result clock) :
    svc.ScanPoint s start now (.recoverNext result todo) st clock := by
  cases todo with
  | nil => exact .returned h
  | cons raw todo => exact .check h

/-- The transaction of `retry_or_dead_letter` ends the visit it belongs to. -/
lemma Visiting.exec {c : C} {u : World C P R} (distinct : s.processing.items.Nodup)
    (h : svc.Visiting s start now visits v todo u.store result clock)
    (absent : svc.completedAt s v = false) (found : v.raw ∈ u.store.processing.items) :
    svc.ScanPoint s start now (.retryReturn (v.call todo result) (some (svc.target v.raw)))
      (u.retry svc c (v.call todo result)).store clock := by
  rw [World.retry, target_eq_destination]
  cases htarget : svc.target v.raw with
  | queue => exact (h.finish (h.visited.retry distinct absent found htarget)).recoverNext
  | deadLetter => exact (h.finish (h.visited.bury distinct absent found htarget)).recoverNext

end QueueService

/-! ### The run of a scan -/

namespace World

variable {svc : QueueService P R} {c : C} {w w' u u' : World C P R} {now : ℚ}

open QueueService

section Commands

variable {s : Store R} {start : ℚ} {raw : R} {todo : List R} {visits : List (Visit R)}
  {v : Visit R} {result : Recovered}

/-- `ZSCORE` in `ensure_processing_leases`: an entry with a deadline is passed over. -/
lemma scanPoint_zscore {done : List R} {added : ℕ}
    (here : u.task c = .ensureZscore true now added raw todo)
    (hst : u.store = svc.ensuring s now done) (split : s.processing.items = done ++ raw :: todo)
    (h : u.next svc c = some u') :
    svc.ScanPoint s start now (u'.task c) u'.store u.clock := by
  cases hscore : u.store.leases.zscore raw with
  | none =>
      simp only [next, here, hscore, Option.some.injEq] at h
      subst h
      simp only [goto, Function.update_self, hst]
      exact .zadd split
  | some d =>
      simp only [next, here, hscore, Option.some.injEq] at h
      subst h
      rw [hst] at hscore
      simp only [goto, Function.update_self, hst, ← ensuring_leased hscore]
      exact scanPoint_ensureNext (by rw [split, List.append_assoc]; rfl)

/-- `EXISTS` in `recover_stale`: a completed entry is dropped, another one fails. -/
lemma scanPoint_check (later : start ≤ u.clock) (here : u.task c = .recoverExists raw todo result)
    (progress : svc.Progress s start now visits (raw :: todo) u.store result u.clock)
    (h : u.next svc c = some u') :
    svc.ScanPoint s start now (u'.task c) u'.store u.clock := by
  have hcompleted : u.store.completed = s.completed := progress.visited.completed
  cases hlive : u.store.completed.live (svc.idOf raw) u.clock with
  | true =>
      simp only [next, here, hlive, if_true, Option.some.injEq] at h
      subst h
      simp only [goto, Function.update_self]
      rw [hcompleted] at hlive
      exact .drop (progress.check later) hlive
  | false =>
      simp only [next, here, hlive, Bool.false_eq_true, if_false, Option.some.injEq] at h
      subst h
      simp only [goto, Function.update_self]
      rw [hcompleted] at hlive
      exact .fail (progress.check later) hlive

/-- `LPOS` in `retry_or_dead_letter`: the entry is in processing or it is missing. -/
lemma scanPoint_lpos {seen : ℕ} (here : u.task c = .retryLpos (v.call todo result) seen)
    (visiting : svc.Visiting s start now visits v todo u.store result u.clock)
    (absent : svc.completedAt s v = false) (h : u.next svc c = some u') :
    svc.ScanPoint s start now (u'.task c) u'.store u.clock := by
  by_cases found : v.raw ∈ u.store.processing.items
  · simp only [next, here, Visit.call, if_pos found, Option.some.injEq] at h
    subst h
    simp only [goto, Function.update_self]
    exact .exec visiting absent found
  · simp only [next, here, Visit.call, if_neg found, Option.some.injEq] at h
    subst h
    simp only [goto, Function.update_self]
    exact .zrem visiting absent found

/-- `EXEC` in `retry_or_dead_letter`: the transaction goes through or is tried again. -/
lemma scanPoint_exec {seen : ℕ} (distinct : s.processing.items.Nodup)
    (here : u.task c = .retryExec (v.call todo result) seen)
    (visiting : svc.Visiting s start now visits v todo u.store result u.clock)
    (absent : svc.completedAt s v = false) (found : v.raw ∈ u.store.processing.items)
    (h : u.next svc c = some u') :
    svc.ScanPoint s start now (u'.task c) u'.store u.clock := by
  by_cases untouched : u.store.processing.version = seen
  · simp only [next, here, if_pos untouched, Option.some.injEq] at h
    subst h
    have htask : (u.retry svc c (v.call todo result)).task c =
        .retryReturn (v.call todo result) (some (svc.target v.raw)) :=
      Function.update_self ..
    rw [htask]
    exact visiting.exec distinct absent found
  · simp only [next, here, if_neg untouched, Option.some.injEq] at h
    subst h
    simp only [goto, Function.update_self]
    exact .watch visiting absent

/-- A command keeps the scan at one of its points. -/
lemma scanPoint_next (distinct : s.processing.items.Nodup) (later : start ≤ u.clock)
    (point : svc.ScanPoint s start now (u.task c) u.store u.clock)
    (h : u.next svc c = some u') :
    svc.ScanPoint s start now (u'.task c) u'.store u.clock := by
  generalize here : u.task c = t at point
  generalize hst : u.store = st at point
  generalize hclock : u.clock = clock at point
  cases point with
  | lrange =>
      simp only [next, here, Option.some.injEq] at h
      subst h
      simp only [goto, Function.update_self, hst]
      exact scanPoint_ensureNext (List.nil_append _).symm
  | zscore split => exact hclock ▸ scanPoint_zscore here hst split h
  | zadd split =>
      simp only [next, here, Option.some.injEq] at h
      subst h
      simp only [withLeases, Function.update_self, hst, ← ensuring_snoc]
      exact scanPoint_ensureNext (by rw [split, List.append_assoc]; rfl)
  | zrange =>
      simp only [next, here, Option.some.injEq] at h
      subst h
      simp only [goto, Function.update_self, hst]
      exact (Progress.begin s start now clock).recoverNext
  | check progress =>
      subst hst hclock
      exact scanPoint_check later here progress h
  | drop visiting completed =>
      simp only [next, here, Option.some.injEq] at h
      subst h
      simp only [World.drop, Function.update_self, hst]
      exact (visiting.finish (visiting.visited.drop distinct completed)).recoverNext
  | fail visiting absent =>
      simp only [next, here, Option.some.injEq] at h
      subst h
      simp only [goto, Function.update_self, hst, hclock]
      exact .watch visiting.stamp absent
  | watch visiting absent =>
      simp only [next, here, Option.some.injEq] at h
      subst h
      simp only [goto, Function.update_self, hst]
      exact .lpos visiting absent
  | lpos visiting absent =>
      subst hst hclock
      exact scanPoint_lpos here visiting absent h
  | exec visiting absent found =>
      subst hst hclock
      exact scanPoint_exec distinct here visiting absent found h
  | zrem visiting absent missing =>
      simp only [next, here, Option.some.injEq] at h
      subst h
      simp only [withLeases, Function.update_self, hst]
      exact (visiting.finish
        (visiting.visited.missing distinct absent visiting.fresh missing)).recoverNext
  | returned progress => simp [next, here] at h

end Commands

/-- A command changes the store, the history and the client that issues it. -/
lemma next_frame (h : u.next svc c = some u') :
    ∃ st t log, u' = { u with store := st, task := Function.update u.task c t, log := log } := by
  cases here : u.task c with
  | idle | holding | released => simp [next, here] at h
  | enqueueRpush jobs =>
      rw [next, here] at h
      cases jobs with
      | nil | cons =>
          cases h
          exact ⟨_, _, _, rfl⟩
  | retryLpos | retryExec | ensureZscore | recoverExists =>
      simp only [next, here] at h
      split at h
      all_goals
        cases h
        exact ⟨_, _, _, rfl⟩
  | _ =>
      rw [next, here] at h
      cases h
      exact ⟨_, _, _, rfl⟩

variable (svc) in
/-- What can happen while only the client `c` is scheduled: its next command,
and time passing. -/
def Solo (c : C) (u v : World C P R) : Prop :=
  u.step svc (.next c) = some v ∨ ∃ time, u.step svc (.tick time) = some v

variable (svc) in
/-- A stretch of the run in which only the client `c` is scheduled. -/
def Alone (c : C) : World C P R → World C P R → Prop := Relation.ReflTransGen (Solo svc c)

variable (svc) in
/-- An uninterrupted `recover_stale`, from the call in `w` to its result in `w'`. -/
structure Scan (c : C) (nowTimestamp : Option ℚ) (w w' : World C P R) (result : Recovered) :
    Prop where
  run : ∃ u, w.step svc (.recoverStale c nowTimestamp) = some u ∧ Alone svc c u w'
  returned : w'.task c = .idle (.recovered result)

variable (svc) in
/-- The world `u` lies on the run of a scan that was called in `w`. -/
structure InScan (c : C) (now : ℚ) (w u : World C P R) : Prop where
  point : svc.ScanPoint w.store w.clock now (u.task c) u.store u.clock
  later : w.clock ≤ u.clock
  others : ∀ d, d ≠ c → u.task d = w.task d
  issued : u.issued = w.issued

lemma inScan_call {nowTimestamp : Option ℚ}
    (h : w.step svc (.recoverStale c nowTimestamp) = some u) :
    InScan svc c (nowTimestamp.getD w.clock) w u := by
  obtain ⟨-, ⟨⟩⟩ := Option.ite_none_right_eq_some.mp h
  refine ⟨?_, le_refl _, fun d hd => Function.update_of_ne hd _ _, rfl⟩
  simp only [goto, Function.update_self]
  exact .lrange

lemma InScan.solo (distinct : w.store.processing.items.Nodup) (h : InScan svc c now w u)
    (hs : Solo svc c u u') : InScan svc c now w u' := by
  rcases hs with hnext | ⟨time, htick⟩
  · have hpoint := scanPoint_next distinct h.later h.point hnext
    obtain ⟨st, t, log, rfl⟩ := next_frame hnext
    exact
      { point := hpoint
        later := h.later
        others := fun d hd => (Function.update_of_ne hd _ _).trans (h.others d hd)
        issued := h.issued }
  · obtain ⟨hle, ⟨⟩⟩ := Option.ite_none_right_eq_some.mp htick
    exact
      { point := h.point.later hle
        later := h.later.trans hle
        others := h.others
        issued := h.issued }

lemma InScan.alone (distinct : w.store.processing.items.Nodup) (h : InScan svc c now w u)
    (halone : Alone svc c u u') : InScan svc c now w u' := by
  induction halone with
  | refl => exact h
  | tail _ hlast ih => exact ih.solo distinct hlast

/-! ### A scan returns -/

variable (svc) in
/-- Left alone, the client `c` gets to the result of `recover_stale`. -/
def Returns (c : C) (u : World C P R) : Prop :=
  ∃ w' result, Alone svc c u w' ∧ w'.task c = .idle (.recovered result)

lemma Returns.of_next (h : u.next svc c = some u') (hr : Returns svc c u') : Returns svc c u := by
  obtain ⟨w', result, halone, htask⟩ := hr
  exact ⟨w', result, .head (.inl h) halone, htask⟩

omit [DecidableEq R] in
lemma goto_task (w : World C P R) (c : C) (t : Task P R) : (w.goto c t).task c = t :=
  Function.update_self ..

section Visits

variable {todo : List R} {call : RetryCall R} {result : Recovered}
  (ih : ∀ (u : World C P R) result, u.task c = .recoverNext result todo → Returns svc c u)
  (hcaller : call.caller = .recovery todo result)

include ih hcaller

lemma returns_retryReturn {outcome : Option Destination}
    (here : u.task c = .retryReturn call outcome) : Returns svc c u := by
  simp only [Task.retryReturn, hcaller] at here
  cases outcome with
  | none => exact ih u _ here
  | some d =>
      cases d with
      | queue => exact ih u _ here
      | deadLetter => exact ih u _ here

/-- Nobody touches the list between `WATCH` and `EXEC`, so the transaction goes through. -/
lemma returns_retryWatch (here : u.task c = .retryWatch call) : Returns svc c u := by
  have hwatch : u.next svc c = some (u.goto c (.retryLpos call u.store.processing.version)) := by
    rw [next, here]
  refine .of_next hwatch ?_
  generalize hlpos : u.goto c (.retryLpos call u.store.processing.version) = v
  have hv : v.task c = .retryLpos call v.store.processing.version := by
    rw [← hlpos, goto_task]
    rfl
  by_cases found : call.raw ∈ v.store.processing.items
  · have hexec : v.next svc c = some (v.goto c (.retryExec call v.store.processing.version)) := by
      rw [next, hv]
      exact if_pos found
    have hretry : (v.goto c (.retryExec call v.store.processing.version)).next svc c =
        some (World.retry svc (v.goto c (.retryExec call v.store.processing.version)) c call) := by
      rw [next, goto_task]
      exact if_pos rfl
    exact .of_next hexec (.of_next hretry
      (returns_retryReturn ih hcaller (Function.update_self ..)))
  · have hzrem : v.next svc c = some (v.goto c (.retryZrem call)) := by
      rw [next, hv]
      exact if_neg found
    exact .of_next hzrem (.of_next (by rw [next, goto_task])
      (returns_retryReturn ih hcaller (Function.update_self ..)))

end Visits

/-- The loop over the stale entries comes to its end. -/
lemma returns_recoverNext (todo : List R) : ∀ (u : World C P R) result,
    u.task c = .recoverNext result todo → Returns svc c u := by
  induction todo with
  | nil => exact fun u result here => ⟨u, result, .refl, here⟩
  | cons raw todo ih =>
      intro u result here
      rw [Task.recoverNext] at here
      cases hlive : u.store.completed.live (svc.idOf raw) u.clock with
      | true =>
          have hdrop : u.next svc c = some (u.goto c (.recoverDrop raw todo result)) := by
            rw [next, here]
            exact if_pos hlive
          exact .of_next hdrop (.of_next (by rw [next, goto_task])
            (ih _ _ (Function.update_self ..)))
      | false =>
          have hfail : u.next svc c = some (u.goto c (.recoverFail raw todo result)) := by
            rw [next, here]
            exact if_neg (by rw [hlive]; exact Bool.false_ne_true)
          exact .of_next hfail (.of_next (by rw [next, goto_task])
            (returns_retryWatch ih rfl (goto_task ..)))

/-- So does the loop of `ensure_processing_leases`. -/
lemma returns_ensureNext (todo : List R) : ∀ (u : World C P R) added,
    u.task c = .ensureNext true now added todo → Returns svc c u := by
  induction todo with
  | nil =>
      intro u added here
      have hzrange : u.task c = .recoverZrange now := here
      refine .of_next (by rw [next, hzrange]) ?_
      exact returns_recoverNext _ _ _ (goto_task ..)
  | cons raw todo ih =>
      intro u added here
      rw [Task.ensureNext] at here
      cases hscore : u.store.leases.zscore raw with
      | none =>
          have hzadd : u.next svc c = some (u.goto c (.ensureZadd true now added raw todo)) := by
            simp only [next, here, hscore]
          exact .of_next hzadd (.of_next (by rw [next, goto_task])
            (ih _ _ (Function.update_self ..)))
      | some d =>
          have hnext : u.next svc c = some (u.goto c (.ensureNext true now added todo)) := by
            simp only [next, here, hscore]
          exact .of_next hnext (ih _ _ (goto_task ..))

lemma returns_call {nowTimestamp : Option ℚ}
    (h : w.step svc (.recoverStale c nowTimestamp) = some u) : Returns svc c u := by
  obtain ⟨-, ⟨⟩⟩ := Option.ite_none_right_eq_some.mp h
  exact .of_next (by rw [next, goto_task]) (returns_ensureNext _ _ _ (goto_task ..))

/-! ### The meaning of a scan -/

variable (svc) in
/-- What a scan called in `w` with the time `now` made of the queue when it
returned `result` in `w'`, the entries visited being those of `visits`. -/
structure ScanEffect (c : C) (now : ℚ) (w w' : World C P R) (visits : List (Visit R))
    (result : Recovered) : Prop where
  /-- An entry of processing without a lease gets the deadline `now` plus the timeout. -/
  deadlines : ∀ raw, (svc.ensured w.store now).leases.zscore raw =
    (w.store.leases.zscore raw).or (if raw ∈ w.store.processing.items then
      some (now + svc.visibilityTimeoutSeconds) else none)
  /-- The entries visited are the reply of `ZRANGEBYSCORE`: those whose deadline is at
  most `now`, each once. -/
  entries : visits.map Visit.raw = svc.stale w.store now
  stale : ∀ raw, raw ∈ visits.map Visit.raw ↔
    ∃ d, (svc.ensured w.store now).leases.zscore raw = some d ∧ d ≤ now
  distinct : (visits.map Visit.raw).Nodup
  /-- They are visited by deadline, ties in the order of the entries. -/
  order : (∀ a b, svc.lex a b = true ∨ svc.lex b a = true) →
    (∀ a b c, svc.lex a b = true → svc.lex b c = true → svc.lex a c = true) →
    (visits.map Visit.raw).Pairwise fun a b =>
      ∃ d e, (svc.ensured w.store now).leases.zscore a = some d ∧
        (svc.ensured w.store now).leases.zscore b = some e ∧
        (d < e ∨ d = e ∧ svc.lex a b = true)
  readings : ∀ v ∈ visits,
    w.clock ≤ v.checkedAt ∧ v.checkedAt ≤ v.failedAt ∧ v.failedAt ≤ w'.clock
  visited : svc.Visited (svc.ensured w.store now) visits w'.store result
  moved : result.retried + result.deadLettered =
    (svc.moves (svc.ensured w.store now) visits).length
  others : ∀ d, d ≠ c → w'.task d = w.task d

lemma Scan.effect {nowTimestamp : Option ℚ} {result : Recovered}
    (distinct : w.store.processing.items.Nodup) (h : Scan svc c nowTimestamp w w' result) :
    ∃ visits, ScanEffect svc c (nowTimestamp.getD w.clock) w w' visits result := by
  obtain ⟨⟨u, hcall, halone⟩, hreturned⟩ := h
  have hin := (inScan_call hcall).alone distinct halone
  have hpoint := hin.point
  rw [hreturned] at hpoint
  generalize hst : w'.store = st at hpoint
  generalize hclock : w'.clock = clock at hpoint
  cases hpoint with
  | returned progress =>
      rename_i visits
      have horder := progress.order
      rw [List.append_nil] at horder
      refine ⟨visits, ⟨zscore_ensuring _ _ _, horder, ?_, ?_, ?_, hclock ▸ progress.readings,
        hst ▸ progress.visited, ?_, hin.others⟩⟩
      · intro raw
        rw [horder]
        exact ZSet.mem_rangeByScore_iff
      · rw [horder]
        exact ZSet.nodup_rangeByScore _ _ _
      · intro total trans
        rw [horder]
        exact ZSet.pairwise_rangeByScore total trans _ _
      · rw [progress.visited.retried, progress.visited.deadLettered]
        exact length_movesTo visits

variable (svc) in
/-- The entry left processing and the leases, and its update was pushed where it belongs. -/
structure Relocated (raw : R) (st : Store R) : Prop where
  processing : raw ∉ st.processing.items
  leases : st.leases.zscore raw = none
  pushed : ∃ v : Visit R, v.raw = raw ∧
    (svc.target raw = .queue → svc.requeued v ∈ st.queue.items) ∧
    (svc.target raw = .deadLetter → svc.requeued v ∈ st.deadLetter.items)

variable {visits : List (Visit R)} {result : Recovered} {raw : R}

omit [DecidableEq C] in
/-- A scan leaves an entry that had no lease where it is, with a deadline in the future. -/
lemma ScanEffect.unleased (h : ScanEffect svc c now w w' visits result)
    (hmem : raw ∈ w.store.processing.items) (hscore : w.store.leases.zscore raw = none) :
    raw ∈ w'.store.processing.items ∧
      w'.store.leases.zscore raw = some (now + svc.visibilityTimeoutSeconds) := by
  have hdeadline : (svc.ensured w.store now).leases.zscore raw =
      some (now + svc.visibilityTimeoutSeconds) := by
    rw [h.deadlines, hscore, if_pos hmem, Option.none_or]
  have hspared : raw ∉ visits.map Visit.raw := by
    rw [h.stale]
    rintro ⟨d, hd, hle⟩
    have hpos := svc.visibilityTimeout_pos
    cases hdeadline.symm.trans hd
    linarith
  constructor
  · rw [h.visited.processing]
    exact List.mem_filter.mpr ⟨hmem, by simpa using hspared⟩
  · rw [h.visited.leases, if_neg hspared, hdeadline]

omit [DecidableEq C] in
/-- A scan moves an entry of processing whose deadline has come, unless it is completed. -/
lemma ScanEffect.relocated (h : ScanEffect svc c now w w' visits result)
    (hmem : raw ∈ w.store.processing.items) {d : ℚ} (hscore : w.store.leases.zscore raw = some d)
    (hdue : d ≤ now) (hlive : w.store.completed.live (svc.idOf raw) w.clock = false) :
    Relocated svc raw w'.store := by
  have hvisited : raw ∈ visits.map Visit.raw := by
    rw [h.entries]
    exact mem_stale_iff.mpr ⟨d, hscore, hdue⟩
  obtain ⟨v, hv, rfl⟩ := List.mem_map.mp hvisited
  have habsent : svc.completedAt (svc.ensured w.store now) v = false := by
    refine Bool.eq_false_iff.mpr fun hcompleted => ?_
    have hbefore : w.store.completed.live (svc.idOf v.raw) w.clock = true :=
      Expiring.live_of_le (h.readings v hv).1 hcompleted
    exact Bool.false_ne_true (hlive.symm.trans hbefore)
  have hmoves : v ∈ svc.moves (svc.ensured w.store now) visits :=
    List.mem_filter.mpr ⟨hv, decide_eq_true ⟨hmem, habsent⟩⟩
  have hto : ∀ {d}, svc.target v.raw = d →
      svc.requeued v ∈ (svc.movesTo (svc.ensured w.store now) d visits).map svc.requeued :=
    fun htarget => List.mem_map_of_mem (List.mem_filter.mpr ⟨hmoves, decide_eq_true htarget⟩)
  refine ⟨?_, ?_, v, rfl, fun htarget => ?_, fun htarget => ?_⟩
  · rw [h.visited.processing]
    exact fun hin => by simpa [hvisited] using (List.mem_filter.mp hin).2
  · rw [h.visited.leases, if_pos hvisited]
  · rw [h.visited.queue]
    exact List.mem_append_right _ (hto htarget)
  · rw [h.visited.deadLetter]
    exact List.mem_append_right _ (hto htarget)

/-- **Recovery scan**: an uninterrupted `recover_stale` on a store with distinct
processing entries returns, and leaves the store and the counters that
`ScanEffect` describes. An entry of processing without a lease stays, with the
deadline of this scan, and every uninterrupted scan from that deadline on that
finds it there under this deadline and not completed moves it. -/
theorem recovery_scan (svc : QueueService P R) (c : C) (nowTimestamp : Option ℚ)
    {w : World C P R} (free : (w.task c).Free) (distinct : w.store.processing.items.Nodup) :
    (∃ w' result, Scan svc c nowTimestamp w w' result) ∧
    ∀ w' result, Scan svc c nowTimestamp w w' result →
      (∃ visits, ScanEffect svc c (nowTimestamp.getD w.clock) w w' visits result) ∧
      ∀ raw ∈ w.store.processing.items, w.store.leases.zscore raw = none →
        raw ∈ w'.store.processing.items ∧
        w'.store.leases.zscore raw =
          some (nowTimestamp.getD w.clock + svc.visibilityTimeoutSeconds) ∧
        ∀ (c' : C) (nowTimestamp' : Option ℚ) (v v' : World C P R) (result' : Recovered),
          v.store.processing.items.Nodup → raw ∈ v.store.processing.items →
          v.store.leases.zscore raw = w'.store.leases.zscore raw →
          v.store.completed.live (svc.idOf raw) v.clock = false →
          nowTimestamp.getD w.clock + svc.visibilityTimeoutSeconds ≤ nowTimestamp'.getD v.clock →
          Scan svc c' nowTimestamp' v v' result' → Relocated svc raw v'.store := by
  constructor
  · obtain ⟨u, hcall⟩ : ∃ u, w.step svc (.recoverStale c nowTimestamp) = some u :=
      ⟨_, if_pos free⟩
    obtain ⟨w', result, halone, hreturned⟩ := returns_call hcall
    exact ⟨w', result, ⟨u, hcall, halone⟩, hreturned⟩
  · intro w' result hscan
    obtain ⟨visits, heffect⟩ := hscan.effect distinct
    refine ⟨⟨visits, heffect⟩, fun raw hmem hscore => ?_⟩
    obtain ⟨hkept, hdeadline⟩ := heffect.unleased hmem hscore
    refine ⟨hkept, hdeadline, fun c' nowTimestamp' v v' result' hnd hin hlease hlive hdue h => ?_⟩
    obtain ⟨visits', heffect'⟩ := h.effect hnd
    exact heffect'.relocated hin (hlease.trans hdeadline) hdue hlive

/-- A job in processing whose worker stopped before it set the lease. -/
def orphan : Job Unit := QueueService.newJob 1 "orphan" () 0

/-- A queue with the orphan and a second job whose lease ends at 50. -/
def orphaned : World Unit Unit (Job Unit) where
  store :=
    { queue := .missing
      processing := ⟨[orphan, QueueService.newJob 2 "leased" () 0], 2⟩
      deadLetter := .missing
      leases := ZSet.zadd ∅ (QueueService.newJob 2 "leased" () 0) 50
      completed := .none }
  clock := 100
  task := fun _ => .idle .nothing
  issued := [1, 2]
  log := []

/-- A scan at 100 gives the orphan the deadline 160, and a scan at 161 moves it. -/
theorem recovery_scan_orphan :
    ∃ w' result, Scan (.plain 2 60 sixty_pos) () (some 100) orphaned w' result ∧
      w'.store.processing.items = [orphan] ∧ w'.store.leases.zscore orphan = some 160 ∧
      ∃ w'' result', Scan (.plain 2 60 sixty_pos) () (some 161) w' w'' result' ∧
        Relocated (.plain 2 60 sixty_pos) orphan w''.store := by
  have hfree : (orphaned.task ()).Free := trivial
  have hdistinct : orphaned.store.processing.items.Nodup := by decide
  have hmem : orphan ∈ orphaned.store.processing.items := by decide
  have hscore : orphaned.store.leases.zscore orphan = none := by decide
  have hscan := recovery_scan (.plain 2 60 sixty_pos) () (some 100) hfree hdistinct
  obtain ⟨w', result, h⟩ := hscan.1
  obtain ⟨⟨visits, heffect⟩, horphan⟩ := hscan.2 w' result h
  obtain ⟨hkept, hdeadline, hlater⟩ := horphan orphan hmem hscore
  have hitems : w'.store.processing.items = [orphan] := by
    rw [heffect.visited.processing, heffect.entries]
    decide +kernel
  have hnd : w'.store.processing.items.Nodup := hitems ▸ List.nodup_singleton _
  obtain ⟨w'', result', h'⟩ := (recovery_scan (.plain 2 60 sixty_pos) () (some 161)
    (by rw [h.returned]; trivial) hnd).1
  have hlive : w'.store.completed.live
      ((QueueService.plain 2 60 sixty_pos).idOf orphan) w'.clock = false := by
    rw [heffect.visited.completed]
    rfl
  refine ⟨w', result, h, hitems, ?_, w'', result', h', ?_⟩
  · rw [hdeadline]
    norm_num [QueueService.plain]
  · exact hlater () (some 161) w' w'' result' hnd hkept rfl hlive
      (by norm_num [QueueService.plain]) h'

end World

end FinOpsPipeline
