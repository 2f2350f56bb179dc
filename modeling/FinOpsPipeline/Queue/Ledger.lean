import Mathlib.Data.List.Nodup
import Mathlib.Data.List.Perm.Basic
import Mathlib.Data.Rat.Defs

/-!
The abstract queue: what the job queue is for, stated over arbitrary entries.

A ledger is three lists of entries and the history of what happened to them.
An entry carries a key that names the job, a core that no step may change and
the number of failed tries; these are read off by `Labels`.

* `Ledger.Step`: a job is pushed under a fresh key, handed to a worker, put
  back with one more failed try (to the dead letters once the tries exceed the
  bound), or removed by an acknowledgement, by the discarding of a job that was
  acknowledged before, or by the reset of the whole queue.
* `Ledger.Wf`: the invariant. Keys are distinct over the three lists, the
  deliveries of a key are its failed tries (plus one while it is being
  processed), and no entry is handed over twice.
* `Ledger.Step.wf`: every step preserves it. `Ledger.Step.fate` says what a step can do to
  the population of one key, and `Ledger.Step.stays_gone` that a key which left
  the queue never returns.
-/

namespace FinOpsPipeline

/-- What a ledger reads off its entries: the job key, the part of the job that
must not change, and the number of failed tries. -/
structure Labels (R I K : Type) where
  key : R → I
  core : R → K
  tries : R → ℕ

/-- Who puts an entry back: the worker that failed it or a recovery scan. -/
inductive Origin where
  | worker | recovery
  deriving DecidableEq

/-- What can happen to the entries of the queue. -/
inductive Event (R : Type) where
  | pushed (raws : List R)
  | moved (raw : R) (now : ℚ)
  | acked (raw : R)
  | requeued (raw updated : R) (origin : Origin) (now : ℚ)
  | dropped (raw : R) (now : ℚ)
  | cleared

/-- The three lists of the queue and its history, newest event first. -/
structure Ledger (R : Type) where
  pending : List R
  processing : List R
  deadLetter : List R
  log : List (Event R)

variable {R I K : Type} [DecidableEq R] [DecidableEq I]

namespace Event

/-- The keys that an event introduces. -/
def pushedKeys (L : Labels R I K) : Event R → List I
  | .pushed raws => raws.map L.key
  | _ => []

/-- Whether an event hands the job `k` to a worker. -/
def delivers (L : Labels R I K) (k : I) : Event R → Bool
  | .moved raw _ => L.key raw = k
  | _ => false

end Event

/-- The keys introduced so far. -/
def pushedKeys (L : Labels R I K) (log : List (Event R)) : List I :=
  log.flatMap (Event.pushedKeys L)

/-- How often the job `k` was handed to a worker. -/
def deliveries (L : Labels R I K) (k : I) (log : List (Event R)) : ℕ :=
  log.countP (Event.delivers L k)

section History

variable (L : Labels R I K) (k : I) (log : List (Event R))

omit [DecidableEq R] [DecidableEq I] in
@[simp] lemma pushedKeys_cons (e : Event R) :
    pushedKeys L (e :: log) = e.pushedKeys L ++ pushedKeys L log := rfl

omit [DecidableEq R] in
@[simp] lemma deliveries_moved (raw : R) (now : ℚ) :
    deliveries L k (.moved raw now :: log) =
      deliveries L k log + if L.key raw = k then 1 else 0 := by
  simp [deliveries, Event.delivers, List.countP_cons]

omit [DecidableEq R] in
/-- Only a move is a delivery. -/
lemma deliveries_of_not_moved {e : Event R} (h : e.delivers L k = false) :
    deliveries L k (e :: log) = deliveries L k log := by
  simp [deliveries, h]

end History

namespace Ledger

variable (L : Labels R I K) (maxRetries : ℕ)

/-- The entries of the three lists together. -/
def entries (s : Ledger R) : List R := s.pending ++ s.processing ++ s.deadLetter

/-- The number of entries with the key `k`, over the three lists together. -/
def population (s : Ledger R) (k : I) : ℕ := (s.entries.map L.key).count k

/-- The empty queue. -/
def empty : Ledger R := ⟨[], [], [], []⟩

/-- The state after an entry is put back in the list its failed tries call for. -/
def putBack (s : Ledger R) (raw updated : R) (origin : Origin) (now : ℚ) : Ledger R :=
  if L.tries updated ≤ maxRetries then
    { s with
      pending := s.pending ++ [updated]
      processing := s.processing.erase raw
      log := .requeued raw updated origin now :: s.log }
  else
    { s with
      processing := s.processing.erase raw
      deadLetter := s.deadLetter ++ [updated]
      log := .requeued raw updated origin now :: s.log }

/-- One step of the abstract queue. -/
inductive Step : Ledger R → Ledger R → Prop where
  /-- New jobs arrive under fresh, distinct keys and with no failed try. -/
  | push {s : Ledger R} (raws : List R)
      (fresh : ∀ r ∈ raws, L.key r ∉ pushedKeys L s.log)
      (distinct : (raws.map L.key).Nodup) (untried : ∀ r ∈ raws, L.tries r = 0) :
      Step s { s with pending := s.pending ++ raws, log := .pushed raws :: s.log }
  /-- The oldest pending job is handed to a worker. -/
  | move {s : Ledger R} {raw : R} {rest : List R} (now : ℚ) (head : s.pending = raw :: rest) :
      Step s { s with
        pending := rest
        processing := s.processing ++ [raw]
        log := .moved raw now :: s.log }
  /-- A worker acknowledges its job, which leaves the queue if it still was processing. -/
  | ack {s : Ledger R} (raw : R) :
      Step s { s with processing := s.processing.erase raw, log := .acked raw :: s.log }
  /-- A job in processing is put back with one more failed try. -/
  | requeue {s : Ledger R} {raw updated : R} (origin : Origin) (now : ℚ)
      (held : raw ∈ s.processing) (key : L.key updated = L.key raw)
      (core : L.core updated = L.core raw) (tries : L.tries updated = L.tries raw + 1) :
      Step s (s.putBack L maxRetries raw updated origin now)
  /-- A recovery scan discards a job that was acknowledged before. -/
  | drop {s : Ledger R} (raw : R) (now : ℚ)
      (marked : ∃ r, .acked r ∈ s.log ∧ L.key r = L.key raw) :
      Step s { s with processing := s.processing.erase raw, log := .dropped raw now :: s.log }
  /-- The queue is reset. -/
  | clear {s : Ledger R} : Step s ⟨[], [], [], .cleared :: s.log⟩

/-- The invariant of the queue. -/
structure Wf (s : Ledger R) : Prop where
  distinct : (s.entries.map L.key).Nodup
  known : ∀ r ∈ s.entries, L.key r ∈ pushedKeys L s.log
  undelivered : ∀ k, k ∉ pushedKeys L s.log → deliveries L k s.log = 0
  pending : ∀ r ∈ s.pending, deliveries L (L.key r) s.log = L.tries r ∧ L.tries r ≤ maxRetries
  processing : ∀ r ∈ s.processing,
    deliveries L (L.key r) s.log = L.tries r + 1 ∧ L.tries r ≤ maxRetries
  deadLetter : ∀ r ∈ s.deadLetter,
    deliveries L (L.key r) s.log = L.tries r ∧ L.tries r = maxRetries + 1
  bounded : ∀ k, deliveries L k s.log ≤ maxRetries + 1
  moved : ∀ r now, .moved r now ∈ s.log → L.tries r < deliveries L (L.key r) s.log
  movedOnce : ∀ r now now', .moved r now ∈ s.log → .moved r now' ∈ s.log → now = now'

/-! ### Every step preserves the invariant -/

section Preservation

variable {L maxRetries} {s s' : Ledger R}

omit [DecidableEq R] in
/-- The empty queue satisfies the invariant. -/
lemma wf_empty : (empty : Ledger R).Wf L maxRetries where
  distinct := List.nodup_nil
  known := fun _ h => by cases h
  undelivered := fun _ _ => rfl
  pending := fun _ h => by cases h
  processing := fun _ h => by cases h
  deadLetter := fun _ h => by cases h
  bounded := fun _ => Nat.zero_le _
  moved := fun _ _ h => by cases h
  movedOnce := fun _ _ _ h => by cases h

omit [DecidableEq R] in
/-- A job that was handed to a worker is no longer pending. -/
lemma Wf.not_moved_of_pending (wf : s.Wf L maxRetries) {r : R} (hr : r ∈ s.pending) (now : ℚ) :
    .moved r now ∉ s.log := by
  intro h
  have htries := (wf.pending r hr).1
  have hmoved := wf.moved r now h
  omega

omit [DecidableEq R] in
/-- Removing entries preserves the invariant when the event is neither a push
nor a move. -/
lemma Wf.remove (wf : s.Wf L maxRetries) {e : Event R} (hlog : s'.log = e :: s.log)
    (hentries : s'.entries.Sublist s.entries) (hp : s'.pending ⊆ s.pending)
    (hq : s'.processing ⊆ s.processing) (hd : s'.deadLetter ⊆ s.deadLetter)
    (hpush : e.pushedKeys L = []) (hdel : ∀ k, e.delivers L k = false)
    (hmove : ∀ r now, .moved r now ≠ e) : s'.Wf L maxRetries := by
  have hkeys : pushedKeys L s'.log = pushedKeys L s.log := by
    rw [hlog, pushedKeys_cons, hpush, List.nil_append]
  have hcount : ∀ k, deliveries L k s'.log = deliveries L k s.log := fun k => by
    rw [hlog, deliveries_of_not_moved L k s.log (hdel k)]
  have hmem : ∀ r now, .moved r now ∈ s'.log → .moved r now ∈ s.log := by
    intro r now h
    rw [hlog] at h
    exact (List.mem_cons.mp h).resolve_left (hmove r now)
  exact
    { distinct := wf.distinct.sublist (hentries.map _)
      known := fun r hr => hkeys ▸ wf.known r (hentries.subset hr)
      undelivered := fun k hk => (hcount k).trans (wf.undelivered k (hkeys ▸ hk))
      pending := fun r hr => hcount (L.key r) ▸ wf.pending r (hp hr)
      processing := fun r hr => hcount (L.key r) ▸ wf.processing r (hq hr)
      deadLetter := fun r hr => hcount (L.key r) ▸ wf.deadLetter r (hd hr)
      bounded := fun k => hcount k ▸ wf.bounded k
      moved := fun r now h => hcount (L.key r) ▸ wf.moved r now (hmem r now h)
      movedOnce := fun r now now' h h' => wf.movedOnce r now now' (hmem r now h) (hmem r now' h') }

omit [DecidableEq I] in
/-- Taking one entry out of the middle list leaves a sublist of the queue. -/
lemma erase_entries_sublist (s : Ledger R) (raw : R) (log : List (Event R)) :
    (entries { s with processing := s.processing.erase raw, log := log }).Sublist s.entries :=
  ((List.Sublist.refl _).append List.erase_sublist).append (List.Sublist.refl _)

lemma Wf.take (wf : s.Wf L maxRetries) {e : Event R} (raw : R)
    (hpush : e.pushedKeys L = []) (hdel : ∀ k, e.delivers L k = false)
    (hmove : ∀ r now, .moved r now ≠ e) :
    Wf L maxRetries { s with processing := s.processing.erase raw, log := e :: s.log } :=
  wf.remove rfl (erase_entries_sublist s raw _) (fun _ h => h) List.erase_subset
    (fun _ h => h) hpush hdel hmove

omit [DecidableEq R] in
/-- New jobs under fresh keys preserve the invariant. -/
lemma Wf.push (wf : s.Wf L maxRetries) {raws : List R}
    (fresh : ∀ r ∈ raws, L.key r ∉ pushedKeys L s.log)
    (distinct : (raws.map L.key).Nodup) (untried : ∀ r ∈ raws, L.tries r = 0) :
    Wf L maxRetries { s with pending := s.pending ++ raws, log := .pushed raws :: s.log } := by
  have hcount : ∀ k, deliveries L k (.pushed raws :: s.log) = deliveries L k s.log :=
    fun k => deliveries_of_not_moved L k s.log rfl
  have hperm : (entries { s with pending := s.pending ++ raws, log := .pushed raws :: s.log }).Perm
      (raws ++ s.entries) := by
    simp only [entries, List.append_assoc]
    exact List.perm_append_comm_assoc _ _ _
  have hmem : ∀ r now, .moved r now ∈ Event.pushed raws :: s.log → .moved r now ∈ s.log := by
    intro r now h
    simpa using h
  refine
    { distinct := ?_
      known := ?_
      undelivered := ?_
      pending := ?_
      processing := fun r hr => hcount (L.key r) ▸ wf.processing r hr
      deadLetter := fun r hr => hcount (L.key r) ▸ wf.deadLetter r hr
      bounded := fun k => hcount k ▸ wf.bounded k
      moved := fun r now h => hcount (L.key r) ▸ wf.moved r now (hmem r now h)
      movedOnce := fun r now now' h h' => wf.movedOnce r now now' (hmem r now h) (hmem r now' h') }
  · refine (hperm.map L.key).nodup_iff.mpr ?_
    rw [List.map_append]
    refine List.Nodup.append distinct wf.distinct ?_
    intro k hk hk'
    obtain ⟨r, hr, rfl⟩ := List.mem_map.mp hk
    obtain ⟨r', hr', heq⟩ := List.mem_map.mp hk'
    exact fresh r hr (heq ▸ wf.known r' hr')
  · intro r hr
    rw [pushedKeys_cons, List.mem_append]
    rcases List.mem_append.mp (hperm.subset hr) with h | h
    · exact .inl (List.mem_map_of_mem h)
    · exact .inr (wf.known r h)
  · intro k hk
    rw [pushedKeys_cons, List.mem_append, not_or] at hk
    exact (hcount k).trans (wf.undelivered k hk.2)
  · intro r hr
    rw [hcount]
    rcases List.mem_append.mp hr with h | h
    · exact wf.pending r h
    · exact ⟨by rw [wf.undelivered _ (fresh r h), untried r h], by rw [untried r h]; omega⟩

omit [DecidableEq R] in
/-- A key occurs in one entry of the queue only. -/
lemma Wf.key_ne (wf : s.Wf L maxRetries) {raw : R} {others : List R}
    (hperm : s.entries.Perm (raw :: others)) {r : R} (hr : r ∈ others) :
    L.key r ≠ L.key raw := by
  have hnd := (hperm.map L.key).nodup_iff.mp wf.distinct
  rw [List.map_cons, List.nodup_cons] at hnd
  exact fun h => hnd.1 (h ▸ List.mem_map_of_mem hr)

omit [DecidableEq R] in
/-- Handing the oldest pending job to a worker preserves the invariant. -/
lemma Wf.move (wf : s.Wf L maxRetries) {raw : R} {rest : List R} (now : ℚ)
    (head : s.pending = raw :: rest) :
    Wf L maxRetries { s with
      pending := rest, processing := s.processing ++ [raw], log := .moved raw now :: s.log } := by
  have hperm : s.entries.Perm (raw :: (rest ++ s.processing ++ s.deadLetter)) := by
    simp [entries, head]
  have hperm' : (entries { s with
      pending := rest, processing := s.processing ++ [raw],
      log := .moved raw now :: s.log }).Perm s.entries := by
    refine List.Perm.trans ?_ hperm.symm
    simp only [entries, List.append_assoc, List.singleton_append]
    rw [← List.append_assoc rest, ← List.append_assoc rest]
    exact List.perm_middle
  have hraw := wf.pending raw (head ▸ List.mem_cons_self)
  have hother : ∀ r, r ∈ rest ++ s.processing ++ s.deadLetter →
      deliveries L (L.key r) (.moved raw now :: s.log) = deliveries L (L.key r) s.log := by
    intro r hr
    rw [deliveries_moved, if_neg (wf.key_ne hperm hr).symm, Nat.add_zero]
  have hpending : ∀ r ∈ rest, r ∈ s.pending := fun r hr => head ▸ List.mem_cons_of_mem _ hr
  refine
    { distinct := (hperm'.map L.key).nodup_iff.mpr wf.distinct
      known := fun r hr => wf.known r (hperm'.subset hr)
      undelivered := ?_
      pending := ?_
      processing := ?_
      deadLetter := ?_
      bounded := ?_
      moved := ?_
      movedOnce := ?_ }
  · intro k hk
    have hne : L.key raw ≠ k := by
      rintro rfl
      exact hk (wf.known raw (hperm.symm.subset List.mem_cons_self))
    rw [deliveries_moved, if_neg hne, wf.undelivered k hk]
  · intro r hr
    rw [hother r (by simp [hr])]
    exact wf.pending r (hpending r hr)
  · intro r hr
    rcases List.mem_append.mp hr with h | h
    · rw [hother r (by simp [h])]
      exact wf.processing r h
    · rw [List.mem_singleton.mp h, deliveries_moved, if_pos rfl]
      exact ⟨by rw [hraw.1], hraw.2⟩
  · intro r hr
    rw [hother r (by simp [hr])]
    exact wf.deadLetter r hr
  · intro k
    rw [deliveries_moved]
    split
    · rename_i hk
      subst hk
      have htries := hraw.1
      have hbound := hraw.2
      omega
    · exact wf.bounded k
  · intro r t h
    rw [deliveries_moved]
    rcases List.mem_cons.mp h with heq | hlog
    · cases heq
      rw [if_pos rfl, hraw.1]
      omega
    · exact Nat.lt_of_lt_of_le (wf.moved r t hlog) (Nat.le_add_right _ _)
  · intro r t t' h h'
    rcases List.mem_cons.mp h with heq | hlog
    · cases heq
      rcases List.mem_cons.mp h' with heq' | hlog'
      · cases heq'
        rfl
      · exact absurd hlog' (wf.not_moved_of_pending (head ▸ List.mem_cons_self) t')
    · rcases List.mem_cons.mp h' with heq' | hlog'
      · cases heq'
        exact absurd hlog (wf.not_moved_of_pending (head ▸ List.mem_cons_self) t)
      · exact wf.movedOnce r t t' hlog hlog'

/-- The queue is the entry being processed and the others. -/
lemma perm_of_mem_processing {raw : R} (held : raw ∈ s.processing) :
    s.entries.Perm (raw :: (s.pending ++ s.processing.erase raw ++ s.deadLetter)) := by
  have h : (s.pending ++ s.processing).Perm (raw :: (s.pending ++ s.processing.erase raw)) :=
    ((List.perm_cons_erase held).append_left s.pending).trans List.perm_middle
  exact h.append_right s.deadLetter

omit [DecidableEq I] in
/-- Putting an entry back exchanges it for the updated one. -/
lemma putBack_perm (L : Labels R I K) (maxRetries : ℕ) (s : Ledger R) (raw updated : R)
    (origin : Origin) (now : ℚ) :
    (s.putBack L maxRetries raw updated origin now).entries.Perm
      (updated :: (s.pending ++ s.processing.erase raw ++ s.deadLetter)) := by
  rw [putBack]
  split
  · simp only [entries, List.append_assoc, List.singleton_append]
    exact List.perm_middle
  · simp only [entries]
    rw [← List.append_assoc]
    exact List.perm_append_singleton _ _

section PutBack

variable (L) (maxRetries) (s) (raw updated : R) (origin : Origin) (now : ℚ)

omit [DecidableEq I] in
@[simp] lemma putBack_log :
    (s.putBack L maxRetries raw updated origin now).log =
      .requeued raw updated origin now :: s.log := by
  rw [putBack]
  split <;> rfl

variable {L maxRetries s raw updated origin now} {r : R}

omit [DecidableEq I] in
/-- Only an entry with tries left is put back among the pending ones. -/
lemma of_mem_putBack_pending (h : r ∈ (s.putBack L maxRetries raw updated origin now).pending) :
    r ∈ s.pending ∨ r = updated ∧ L.tries updated ≤ maxRetries := by
  rw [putBack] at h
  split at h
  · rename_i hle
    rcases List.mem_append.mp h with hold | hnew
    · exact .inl hold
    · exact .inr ⟨List.mem_singleton.mp hnew, hle⟩
  · exact .inl h

omit [DecidableEq I] in
lemma of_mem_putBack_processing
    (h : r ∈ (s.putBack L maxRetries raw updated origin now).processing) : r ∈ s.processing := by
  rw [putBack] at h
  split at h <;> exact List.mem_of_mem_erase h

omit [DecidableEq I] in
/-- Only an entry without tries left is put among the dead letters. -/
lemma of_mem_putBack_deadLetter
    (h : r ∈ (s.putBack L maxRetries raw updated origin now).deadLetter) :
    r ∈ s.deadLetter ∨ r = updated ∧ maxRetries < L.tries updated := by
  rw [putBack] at h
  split at h
  · exact .inl h
  · rename_i hlt
    rcases List.mem_append.mp h with hold | hnew
    · exact .inl hold
    · exact .inr ⟨List.mem_singleton.mp hnew, Nat.lt_of_not_le hlt⟩

end PutBack

/-- Putting an entry back with one more failed try preserves the invariant. -/
lemma Wf.putBack (wf : s.Wf L maxRetries) {raw updated : R} (origin : Origin) (now : ℚ)
    (held : raw ∈ s.processing) (key : L.key updated = L.key raw)
    (tries : L.tries updated = L.tries raw + 1) :
    Wf L maxRetries (s.putBack L maxRetries raw updated origin now) := by
  have hperm := perm_of_mem_processing held
  have hperm' := putBack_perm L maxRetries s raw updated origin now
  have hraw := wf.processing raw held
  have hcount : ∀ k, deliveries L k (s.putBack L maxRetries raw updated origin now).log =
      deliveries L k s.log := fun k => by
    rw [putBack_log]
    exact deliveries_of_not_moved L k s.log rfl
  have hkeys : pushedKeys L (s.putBack L maxRetries raw updated origin now).log =
      pushedKeys L s.log := by
    rw [putBack_log]
    rfl
  have hmem : ∀ r t, .moved r t ∈ (s.putBack L maxRetries raw updated origin now).log →
      .moved r t ∈ s.log := by
    intro r t h
    rw [putBack_log] at h
    simpa using h
  refine
    { distinct := ?_
      known := ?_
      undelivered := fun k hk => (hcount k).trans (wf.undelivered k (hkeys ▸ hk))
      pending := ?_
      processing := fun r hr => (hcount (L.key r)).symm ▸ wf.processing r (of_mem_putBack_processing hr)
      deadLetter := ?_
      bounded := fun k => (hcount k).symm ▸ wf.bounded k
      moved := fun r t h => (hcount (L.key r)).symm ▸ wf.moved r t (hmem r t h)
      movedOnce := fun r t t' h h' => wf.movedOnce r t t' (hmem r t h) (hmem r t' h') }
  · have hnd := (hperm.map L.key).nodup_iff.mp wf.distinct
    refine (hperm'.map L.key).nodup_iff.mpr ?_
    rw [List.map_cons, key, ← List.map_cons]
    exact hnd
  · intro r hr
    rw [hkeys]
    rcases List.mem_cons.mp (hperm'.subset hr) with rfl | h
    · exact key ▸ wf.known raw (hperm.symm.subset List.mem_cons_self)
    · exact wf.known r (hperm.symm.subset (List.mem_cons_of_mem _ h))
  · intro r hr
    rw [hcount]
    rcases of_mem_putBack_pending hr with h | ⟨rfl, hle⟩
    · exact wf.pending r h
    · exact ⟨by rw [key, hraw.1, tries], hle⟩
  · intro r hr
    rw [hcount]
    rcases of_mem_putBack_deadLetter hr with h | ⟨rfl, hlt⟩
    · exact wf.deadLetter r h
    · have hbound := hraw.2
      exact ⟨by rw [key, hraw.1, tries], by omega⟩

/-- **Every step of the queue preserves the invariant.** -/
theorem Step.wf (wf : s.Wf L maxRetries) (h : Step L maxRetries s s') : s'.Wf L maxRetries := by
  cases h with
  | push raws fresh distinct untried => exact wf.push fresh distinct untried
  | move now head => exact wf.move now head
  | ack raw => exact wf.take raw rfl (fun _ => rfl) nofun
  | requeue origin now held key _ tries => exact wf.putBack origin now held key tries
  | drop raw now _ => exact wf.take raw rfl (fun _ => rfl) nofun
  | clear =>
      exact wf.remove rfl (List.nil_sublist _) (List.nil_subset _) (List.nil_subset _)
        (List.nil_subset _) rfl (fun _ => rfl) nofun

end Preservation

/-! ### The fate of one job -/

section Fate

variable {L maxRetries} {s s' : Ledger R}

/-- The last event took the job `k` out of the queue: an acknowledgement, the
discarding of a job that was acknowledged before, or the reset. -/
def TakesOut (L : Labels R I K) (k : I) (s s' : Ledger R) : Prop :=
  (∃ raw, L.key raw = k ∧ s'.log = .acked raw :: s.log) ∨
  (∃ raw now, L.key raw = k ∧ s'.log = .dropped raw now :: s.log ∧
    ∃ r, .acked r ∈ s.log ∧ L.key r = k) ∨
  s'.log = .cleared :: s.log

omit [DecidableEq R] in
/-- A key occurs at most once in the whole queue. -/
lemma Wf.population_le_one (wf : s.Wf L maxRetries) (k : I) : s.population L k ≤ 1 :=
  List.nodup_iff_count_le_one.mp wf.distinct k

omit [DecidableEq R] in
lemma population_pos {k : I} : 0 < s.population L k ↔ ∃ r ∈ s.entries, L.key r = k := by
  rw [population, List.count_pos_iff, List.mem_map]

omit [DecidableEq R] in
lemma Wf.population_eq_one (wf : s.Wf L maxRetries) {k : I} {r : R} (hr : r ∈ s.entries)
    (hk : L.key r = k) : s.population L k = 1 :=
  le_antisymm (wf.population_le_one k) (population_pos.mpr ⟨r, hr, hk⟩)

omit [DecidableEq R] in
/-- A job that was never pushed has no entry. -/
lemma Wf.population_of_unknown (wf : s.Wf L maxRetries) {k : I}
    (hk : k ∉ pushedKeys L s.log) : s.population L k = 0 := by
  refine Nat.eq_zero_of_not_pos fun h => ?_
  obtain ⟨r, hr, rfl⟩ := population_pos.mp h
  exact hk (wf.known r hr)

omit [DecidableEq R] in
/-- The entry of a job is unique. -/
lemma Wf.eq_of_key (wf : s.Wf L maxRetries) {r r' : R} (hr : r ∈ s.entries)
    (hr' : r' ∈ s.entries) (hk : L.key r = L.key r') : r = r' :=
  List.inj_on_of_nodup_map wf.distinct hr hr' hk

/-- An entry that is taken out of processing leaves its key without entry. -/
lemma Wf.population_erase (wf : s.Wf L maxRetries) {raw : R} (held : raw ∈ s.processing)
    (log : List (Event R)) :
    population L { s with processing := s.processing.erase raw, log := log } (L.key raw) = 0 := by
  refine Nat.eq_zero_of_not_pos fun h => ?_
  obtain ⟨r, hr, hkey⟩ := population_pos.mp h
  exact wf.key_ne (perm_of_mem_processing held) hr hkey

omit [DecidableEq I] in
lemma mem_entries_or_erased (raw : R) {r : R} (log : List (Event R)) (hr : r ∈ s.entries) :
    r ∈ entries { s with processing := s.processing.erase raw, log := log } ∨ r = raw := by
  by_cases h : r = raw
  · exact .inr h
  · refine .inl ?_
    simp only [entries, List.mem_append] at hr ⊢
    rwa [List.mem_erase_of_ne h]

omit [DecidableEq I] in
/-- Where an entry after a step comes from: an entry of the same job with the
same core, unless the job is new. -/
lemma Step.origin (h : Step L maxRetries s s') {r : R} (hr : r ∈ s'.entries) :
    (∃ r₀ ∈ s.entries, L.key r = L.key r₀ ∧ L.core r = L.core r₀) ∨
      L.key r ∉ pushedKeys L s.log := by
  cases h with
  | push raws fresh _ _ =>
      simp only [entries, List.mem_append] at hr
      rcases hr with ((hp | hnew) | hq) | hd
      · exact .inl ⟨r, by simp [entries, hp], rfl, rfl⟩
      · exact .inr (fresh r hnew)
      · exact .inl ⟨r, by simp [entries, hq], rfl, rfl⟩
      · exact .inl ⟨r, by simp [entries, hd], rfl, rfl⟩
  | move now head =>
      refine .inl ⟨r, ?_, rfl, rfl⟩
      simp only [entries, List.mem_append, List.mem_singleton] at hr ⊢
      rw [head, List.mem_cons]
      tauto
  | ack raw => exact .inl ⟨r, (erase_entries_sublist s raw _).subset hr, rfl, rfl⟩
  | @requeue raw updated origin now held key core _ =>
      have hsub := (perm_of_mem_processing held).symm.subset
      have hsub' := (putBack_perm L maxRetries s raw updated origin now).subset
      rcases List.mem_cons.mp (hsub' hr) with rfl | h
      · exact .inl ⟨raw, hsub List.mem_cons_self, key, core⟩
      · exact .inl ⟨r, hsub (List.mem_cons_of_mem _ h), rfl, rfl⟩
  | drop raw now _ => exact .inl ⟨r, (erase_entries_sublist s raw _).subset hr, rfl, rfl⟩
  | clear => cases hr

omit [DecidableEq I] in
/-- An entry has a successor of the same job, or its job was taken out. -/
lemma Step.survives (h : Step L maxRetries s s') {r : R} (hr : r ∈ s.entries) :
    (∃ r' ∈ s'.entries, L.key r' = L.key r) ∨ TakesOut L (L.key r) s s' := by
  cases h with
  | push raws _ _ _ =>
      refine .inl ⟨r, ?_, rfl⟩
      simp only [entries, List.mem_append] at hr ⊢
      tauto
  | move now head =>
      refine .inl ⟨r, ?_, rfl⟩
      simp only [entries, List.mem_append, head, List.mem_cons] at hr ⊢
      tauto
  | ack raw =>
      rcases mem_entries_or_erased raw (.acked raw :: s.log) hr with h | rfl
      · exact .inl ⟨r, h, rfl⟩
      · exact .inr (.inl ⟨r, rfl, rfl⟩)
  | @requeue raw updated origin now held key _ _ =>
      have hsub := (putBack_perm L maxRetries s raw updated origin now).symm.subset
      rcases List.mem_cons.mp ((perm_of_mem_processing held).subset hr) with rfl | h
      · exact .inl ⟨updated, hsub List.mem_cons_self, key⟩
      · exact .inl ⟨r, hsub (List.mem_cons_of_mem _ h), rfl⟩
  | drop raw now marked =>
      rcases mem_entries_or_erased raw (.dropped raw now :: s.log) hr with h | rfl
      · exact .inl ⟨r, h, rfl⟩
      · exact .inr (.inr (.inl ⟨r, now, rfl, rfl, marked⟩))
  | clear => exact .inr (.inr (.inr rfl))

omit [DecidableEq I] in
/-- The keys introduced so far are never forgotten. -/
lemma Step.pushedKeys_mono (h : Step L maxRetries s s') {k : I} (hk : k ∈ pushedKeys L s.log) :
    k ∈ pushedKeys L s'.log := by
  cases h with
  | push raws _ _ _ => exact List.mem_append_right _ hk
  | move | ack | drop | clear => exact hk
  | requeue =>
      rw [putBack]
      split <;> exact hk

/-- The push of a job gives it exactly one entry. -/
theorem Step.population_of_pushed (wf : s.Wf L maxRetries) (h : Step L maxRetries s s') {k : I}
    (hk : k ∉ pushedKeys L s.log) (hk' : k ∈ pushedKeys L s'.log) : s'.population L k = 1 := by
  have wf' := h.wf wf
  cases h with
  | push raws _ _ _ =>
      have hnew := (List.mem_append.mp hk').resolve_right hk
      obtain ⟨r, hr, hkey⟩ := List.mem_map.mp hnew
      exact wf'.population_eq_one (by simp [entries, hr]) hkey
  | move | ack | drop | clear => exact absurd hk' hk
  | requeue =>
      rw [putBack] at hk'
      split at hk' <;> exact absurd hk' hk

/-- **The fate of a job in one step**: its entry keeps its core, or the step
took the job out. -/
theorem Step.fate (wf : s.Wf L maxRetries) (h : Step L maxRetries s s') {r : R}
    (hr : r ∈ s.entries) :
    (s'.population L (L.key r) = 1 ∧
      ∃ r' ∈ s'.entries, L.key r' = L.key r ∧ L.core r' = L.core r) ∨
    (s'.population L (L.key r) = 0 ∧ TakesOut L (L.key r) s s') := by
  have wf' := h.wf wf
  by_cases hex : ∃ r' ∈ s'.entries, L.key r' = L.key r
  · obtain ⟨r', hr', hkey⟩ := hex
    refine .inl ⟨wf'.population_eq_one hr' hkey, r', hr', hkey, ?_⟩
    rcases h.origin hr' with ⟨r₀, hr₀, hkey₀, hcore₀⟩ | hnew
    · rw [hcore₀, wf.eq_of_key hr₀ hr (hkey₀.symm.trans hkey)]
    · exact absurd (hkey ▸ wf.known r hr) hnew
  · refine .inr ⟨?_, (h.survives hr).resolve_left hex⟩
    exact Nat.eq_zero_of_not_pos fun hpos => hex (population_pos.mp hpos)

/-- A job that left the queue stays out of it. -/
theorem Step.stays_gone (h : Step L maxRetries s s') {k : I} (hk : k ∈ pushedKeys L s.log)
    (hgone : s.population L k = 0) : s'.population L k = 0 := by
  refine Nat.eq_zero_of_not_pos fun hpos => ?_
  obtain ⟨r, hr, rfl⟩ := population_pos.mp hpos
  rcases h.origin hr with ⟨r₀, hr₀, hkey, _⟩ | hnew
  · exact absurd (population_pos.mpr ⟨r₀, hr₀, hkey.symm⟩) (by omega)
  · exact hnew hk

end Fate

end Ledger

end FinOpsPipeline
