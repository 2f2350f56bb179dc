import FinOpsPipeline.Foundations.TransitionSystem
import Mathlib.Algebra.BigOperators.Group.List.Basic
import Mathlib.Data.List.Sort
import Mathlib.Logic.Function.Basic

/-!
A cache that a thread keeps up to date by following an append-only log.

Entries are loaded from the log by the threads that ask for them, in two steps: the
query and the store. The following thread reads the rows after its position and makes
the effects of each on the cached values, one cache operation at a time. Entries may
be dropped at any time.

* `Feed`: the positions of the rows and their effects on keys. `Cell`: how a value is
  loaded, and what an effect makes of it.
* `Reader`, `Reader.work`, `Reader.move`: the follower. `Works`: what a step of its
  thread can do.
* `follower`: the log and one follower.
* `Order`, `order`: the rows are handed over in order, each once.
* `Filled`, `provenance`: a cached value was loaded by a query of the run, and has had the
  effects done on its key since it was stored; hence it is that of a prefix of the log with
  the last effects on its key (`Sourced`, `accounted`).
-/

namespace FinOpsPipeline

/-- The rows of a log: their positions, all after `start`, and their effects on keys. -/
structure Feed (ρ ε κ : Type*) where
  start : ℤ
  id : ρ → ℤ
  effects : ρ → List ε
  key : ε → κ

/-- The values of a cache: what is loaded from the rows of a log, and what an effect makes of
a value. A value is replaced by a new one, or changed in place when the cell `mutates`. -/
structure Cell (ρ ε κ ν : Type*) where
  load : κ → List ρ → ν
  apply : ν → ε → ν
  mutates : Bool

namespace Follower

variable {τ ρ ε κ ν : Type*}

/-! ### Logs -/

section Logs

variable (F : Feed ρ ε κ)

/-- The position of the last row of a log, `start` for the empty one. -/
def lastId (log : List ρ) : ℤ := (log.map F.id).max?.getD F.start

/-- The rows after a position, in the order of their positions. -/
def rowsAfter (log : List ρ) (latest : ℤ) : List ρ :=
  (log.filter fun r => latest < F.id r).mergeSort fun r s => F.id r ≤ F.id s

/-- A well-formed log: each position is used once and is after the start. -/
structure WellPlaced (log : List ρ) : Prop where
  nodup : (log.map F.id).Nodup
  after : ∀ r ∈ log, F.start < F.id r

lemma le_lastId {log : List ρ} {r : ρ} (h : r ∈ log) : F.id r ≤ lastId F log := by
  obtain ⟨m, hm⟩ : ∃ m, (log.map F.id).max? = some m :=
    Option.isSome_iff_exists.mp (by simpa [List.isSome_max?_iff] using List.ne_nil_of_mem h)
  rw [lastId, hm, Option.getD_some]
  exact (List.max?_eq_some_iff.mp hm).2 _ (List.mem_map_of_mem h)

lemma lastId_le {log : List ρ} {b : ℤ} (hstart : F.start ≤ b) (h : ∀ r ∈ log, F.id r ≤ b) :
    lastId F log ≤ b := by
  cases hm : (log.map F.id).max? with
  | none => simpa [lastId, hm] using hstart
  | some m =>
      obtain ⟨r, hr, rfl⟩ := List.mem_map.mp (List.max?_eq_some_iff.mp hm).1
      simpa [lastId, hm] using h r hr

lemma WellPlaced.start_le {log : List ρ} (h : WellPlaced F log) : F.start ≤ lastId F log := by
  cases log with
  | nil => simp [lastId]
  | cons r log =>
      exact (h.after r List.mem_cons_self).le.trans (le_lastId F List.mem_cons_self)

lemma WellPlaced.lastId_snoc {log : List ρ} {row : ρ} (h : WellPlaced F (log ++ [row])) :
    lastId F log ≤ lastId F (log ++ [row]) :=
  lastId_le F h.start_le fun _ hr => le_lastId F (List.mem_append_left _ hr)

@[simp] lemma mem_rowsAfter {log : List ρ} {p : ℤ} {r : ρ} :
    r ∈ rowsAfter F log p ↔ r ∈ log ∧ p < F.id r := by
  simp [rowsAfter]

lemma rowsAfter_sorted {log : List ρ} (h : (log.map F.id).Nodup) (p : ℤ) :
    (rowsAfter F log p).Pairwise fun r s => F.id r < F.id s := by
  have hle : (rowsAfter F log p).Pairwise fun r s => F.id r ≤ F.id s := by
    refine (List.pairwise_mergeSort ?_ ?_ _).imp fun h => by simpa using h
    · intro a b c hab hbc
      simp only [decide_eq_true_eq] at hab hbc ⊢
      exact hab.trans hbc
    · intro a b
      simpa using le_total (F.id a) (F.id b)
  have hne : (rowsAfter F log p).Pairwise fun r s => F.id r ≠ F.id s := by
    have hperm : (rowsAfter F log p).Perm (log.filter fun r => p < F.id r) :=
      List.mergeSort_perm ..
    refine List.pairwise_map.mp ((hperm.map F.id).nodup_iff.mpr ?_)
    exact h.sublist (List.filter_sublist.map F.id)
  exact (hle.and hne).imp fun h => lt_of_le_of_ne h.1 h.2

end Logs

/-! ### The thread -/

/-- Where the thread is: between two polls, between two rows, before or after it has asked
whether a key is cached, or about to write a new value. -/
inductive Stage (ρ ε ν : Type*) where
  | sleeping
  | polling (mark : ℤ) (rows : List ρ)
  | calling (row : ρ) (todo : List ε) (rows : List ρ)
  | reading (row : ρ) (e : ε) (todo : List ε) (rows : List ρ)
  | writing (row : ρ) (e : ε) (prev : ν) (todo : List ε) (rows : List ρ)
  | dead

namespace Stage

instance (s : Stage ρ ε ν) : Decidable (s = dead) :=
  match s with
  | dead => isTrue rfl
  | sleeping | polling .. | calling .. | reading .. | writing .. => isFalse (by simp)

/-- The effects of the current row that are still to be made. -/
def pending : Stage ρ ε ν → List ε
  | calling _ todo _ => todo
  | reading _ e todo _ => e :: todo
  | writing _ e _ todo _ => e :: todo
  | _ => []

/-- The rows that have been read from the log and not been handed over. -/
def ahead : Stage ρ ε ν → List ρ
  | polling _ rows => rows
  | calling _ _ rows => rows
  | reading _ _ _ rows => rows
  | writing _ _ _ _ rows => rows
  | _ => []

end Stage

/-- The follower: its position at the last poll, its thread, the cached values, and the
loads in flight with what they have read. -/
structure Reader (τ ρ ε κ ν : Type*) where
  latest : ℤ
  stage : Stage ρ ε ν
  cache : κ → Option ν
  loads : τ → Option (κ × ν)

/-- What the thread does with rows and effects: a row is handed over, an effect is done. -/
inductive Event (ρ ε : Type*) where
  | took (row : ρ)
  | handled (e : ε)

namespace Event

/-- The row that is handed over. -/
def row? : Event ρ ε → Option ρ
  | took row => some row
  | handled _ => none

/-- The effect that is done. -/
def effect? : Event ρ ε → Option ε
  | took _ => none
  | handled e => some e

end Event

/-- The rows handed over. -/
def taken (evs : List (Event ρ ε)) : List ρ := evs.filterMap Event.row?

/-- The effects done. -/
def handled (evs : List (Event ρ ε)) : List ε := evs.filterMap Event.effect?

@[simp] lemma taken_nil : taken ([] : List (Event ρ ε)) = [] := rfl

@[simp] lemma handled_nil : handled ([] : List (Event ρ ε)) = [] := rfl

@[simp] lemma taken_append (xs ys : List (Event ρ ε)) : taken (xs ++ ys) = taken xs ++ taken ys :=
  List.filterMap_append

@[simp] lemma handled_append (xs ys : List (Event ρ ε)) :
    handled (xs ++ ys) = handled xs ++ handled ys :=
  List.filterMap_append

@[simp] lemma taken_took (row : ρ) : taken [(.took row : Event ρ ε)] = [row] := rfl

@[simp] lemma taken_handled (e : ε) : taken [(.handled e : Event ρ ε)] = [] := rfl

@[simp] lemma handled_took (row : ρ) : handled [(.took row : Event ρ ε)] = [] := rfl

@[simp] lemma handled_handled (e : ε) : handled [(.handled e : Event ρ ε)] = [e] := rfl

variable (F : Feed ρ ε κ) (C : Cell ρ ε κ ν)

namespace Reader

/-- A follower that has just started at a position. -/
def boot (latest : ℤ) : Reader τ ρ ε κ ν := ⟨latest, .sleeping, fun _ => none, fun _ => none⟩

/-- The position: the row that is being handed over, or else the last one that was. -/
def position (s : Reader τ ρ ε κ ν) : ℤ :=
  match s.stage with
  | .sleeping => s.latest
  | .dead => s.latest
  | .polling mark _ => mark
  | .calling row _ _ => F.id row
  | .reading row _ _ _ => F.id row
  | .writing row _ _ _ _ => F.id row

/-- The row that the thread hands over next. -/
def next? (s : Reader τ ρ ε κ ν) : Option ρ :=
  match s.stage with
  | .polling _ (row :: _) => some row
  | _ => none

variable [DecidableEq κ]

/-- The thread goes on by one operation. -/
def work (s : Reader τ ρ ε κ ν) : Option (Reader τ ρ ε κ ν) :=
  match s.stage with
  | .sleeping => none
  | .dead => none
  | .polling mark [] => some { s with latest := mark, stage := .sleeping }
  | .polling _ (row :: rows) => some { s with stage := .calling row (F.effects row) rows }
  | .calling row [] rows => some { s with stage := .polling (F.id row) rows }
  | .calling row (e :: todo) rows =>
      match s.cache (F.key e) with
      | none => some { s with stage := .calling row todo rows }
      | some _ => some { s with stage := .reading row e todo rows }
  | .reading row e todo rows =>
      match s.cache (F.key e) with
      -- the entry was dropped after the thread had found it: the missing value is used
      | none => some { s with stage := .dead }
      | some v =>
          if C.mutates then
            some { s with
              cache := Function.update s.cache (F.key e) (some (C.apply v e))
              stage := .calling row todo rows }
          else some { s with stage := .writing row e v todo rows }
  | .writing row e prev todo rows =>
      some { s with
        cache := Function.update s.cache (F.key e) (some (C.apply prev e))
        stage := .calling row todo rows }

/-- What `work` hands over or finishes. -/
def events (s : Reader τ ρ ε κ ν) : List (Event ρ ε) :=
  match s.stage with
  | .polling _ (row :: _) => [.took row]
  | .calling _ (e :: _) _ => if s.cache (F.key e) = none then [.handled e] else []
  | .reading _ e _ _ =>
      if C.mutates ∧ s.cache (F.key e) ≠ none then [.handled e] else []
  | .writing _ e _ _ _ => [.handled e]
  | _ => []

/-- The thread compares the last position of the log with its own, and reads the rows
after it. A log that ends before its position ends the thread. -/
def poll (log : List ρ) (s : Reader τ ρ ε κ ν) : Option (Reader τ ρ ε κ ν) :=
  match s.stage with
  | .sleeping =>
      if s.latest < lastId F log then
        some { s with stage := .polling s.latest (rowsAfter F log s.latest) }
      else if lastId F log < s.latest then some { s with stage := .dead }
      else some s
  | _ => none

end Reader

/-- The moves of a follower: its thread polls, fails to read the rows, or goes on; a thread
`t` queries a missing entry, or stores what it has loaded; an entry is dropped. -/
inductive Move (τ κ : Type*) where
  | poll
  | fail
  | work
  | query (t : τ) (k : κ)
  | store (t : τ)
  | evict (k : κ)

variable [DecidableEq κ] [DecidableEq τ]

/-- One move of a follower of the log. -/
def Reader.move (log : List ρ) (s : Reader τ ρ ε κ ν) : Move τ κ → Option (Reader τ ρ ε κ ν)
  | .poll => s.poll F log
  | .fail =>
      match s.stage with
      | .sleeping => if s.latest < lastId F log then some { s with stage := .dead } else none
      | _ => none
  | .work => s.work F C
  | .query t k =>
      if s.cache k = none ∧ s.loads t = none then
        some { s with loads := Function.update s.loads t (some (k, C.load k log)) }
      else none
  | .store t =>
      match s.loads t with
      | none => none
      | some (k, v) =>
          some { s with
            -- an entry that was written in the meantime stays
            cache := if s.cache k = none then Function.update s.cache k (some v) else s.cache
            loads := Function.update s.loads t none }
  | .evict k => some { s with cache := Function.update s.cache k none }

/-- A log and a follower of it. -/
structure Site (τ ρ ε κ ν : Type*) where
  log : List ρ
  reader : Reader τ ρ ε κ ν

/-- The steps of a site: a row is committed, or the follower moves. -/
inductive Act (τ ρ κ : Type*) where
  | commit (row : ρ)
  | move (m : Move τ κ)

/-- One step of a site. A position is used once, and is after the start. -/
def Site.step (s : Site τ ρ ε κ ν) : Act τ ρ κ → Option (Site τ ρ ε κ ν)
  | .commit row =>
      if F.start < F.id row ∧ F.id row ∉ s.log.map F.id then some { s with log := s.log ++ [row] }
      else none
  | .move m => (s.reader.move F C s.log m).map fun r => { s with reader := r }

/-- What a step of a site hands over or finishes. -/
def Site.events (s : Site τ ρ ε κ ν) : Act τ ρ κ → List (Event ρ ε)
  | .move .work => s.reader.events F C
  | _ => []

/-- A follower that starts at the position `p₀` of a log: its last one, or the start when the
log could not be asked. -/
def follower (log₀ : List ρ) (p₀ : ℤ) : System (Site τ ρ ε κ ν) (Act τ ρ κ) where
  init s := s = ⟨log₀, Reader.boot p₀⟩ ∧ WellPlaced F log₀ ∧ (p₀ = lastId F log₀ ∨ p₀ = F.start)
  step := Site.step F C

/-! ### What the thread can do -/

/-- The operations of the thread, with what each hands over or finishes. -/
inductive Works (s : Reader τ ρ ε κ ν) : Reader τ ρ ε κ ν → List (Event ρ ε) → Prop where
  | done {mark : ℤ} : s.stage = .polling mark [] →
      Works s { s with latest := mark, stage := .sleeping } []
  | take {mark : ℤ} {row : ρ} {rows : List ρ} : s.stage = .polling mark (row :: rows) →
      Works s { s with stage := .calling row (F.effects row) rows } [.took row]
  | finish {row : ρ} {rows : List ρ} : s.stage = .calling row [] rows →
      Works s { s with stage := .polling (F.id row) rows } []
  | absent {row : ρ} {e : ε} {todo : List ε} {rows : List ρ} :
      s.stage = .calling row (e :: todo) rows → s.cache (F.key e) = none →
      Works s { s with stage := .calling row todo rows } [.handled e]
  | found {row : ρ} {e : ε} {todo : List ε} {rows : List ρ} {v : ν} :
      s.stage = .calling row (e :: todo) rows → s.cache (F.key e) = some v →
      Works s { s with stage := .reading row e todo rows } []
  | lost {row : ρ} {e : ε} {todo : List ε} {rows : List ρ} :
      s.stage = .reading row e todo rows → s.cache (F.key e) = none →
      Works s { s with stage := .dead } []
  | changed {row : ρ} {e : ε} {todo : List ε} {rows : List ρ} {v : ν} :
      s.stage = .reading row e todo rows → s.cache (F.key e) = some v →
      Works s { s with
        cache := Function.update s.cache (F.key e) (some (C.apply v e))
        stage := .calling row todo rows } [.handled e]
  | read {row : ρ} {e : ε} {todo : List ε} {rows : List ρ} {v : ν} :
      s.stage = .reading row e todo rows → s.cache (F.key e) = some v →
      Works s { s with stage := .writing row e v todo rows } []
  | wrote {row : ρ} {e : ε} {prev : ν} {todo : List ε} {rows : List ρ} :
      s.stage = .writing row e prev todo rows →
      Works s { s with
        cache := Function.update s.cache (F.key e) (some (C.apply prev e))
        stage := .calling row todo rows } [.handled e]

omit [DecidableEq τ] in
lemma works_of_work {s t : Reader τ ρ ε κ ν} (h : s.work F C = some t) :
    Works F C s t (s.events F C) := by
  unfold Reader.work at h
  split at h
  case h_1 | h_2 => cases h
  case h_3 mark hs =>
      cases h
      simpa [Reader.events, hs] using Works.done hs
  case h_4 mark row rows hs =>
      cases h
      simpa [Reader.events, hs] using Works.take hs
  case h_5 row rows hs =>
      cases h
      simpa [Reader.events, hs] using Works.finish hs
  case h_6 row e todo rows hs =>
      split at h <;> cases h
      · rename_i hc
        simpa [Reader.events, hs, hc] using Works.absent hs hc
      · rename_i v hc
        simpa [Reader.events, hs, hc] using Works.found hs hc
  case h_7 row e todo rows hs =>
      split at h
      · rename_i hc
        cases h
        simpa [Reader.events, hs, hc] using Works.lost hs hc
      · rename_i v hc
        split at h <;> rename_i hm <;> cases h
        · simpa [Reader.events, hs, hc, hm] using Works.changed hs hc
        · simpa [Reader.events, hs, hc, hm] using Works.read hs hc
  case h_8 row e prev todo rows hs =>
      cases h
      simpa [Reader.events, hs] using Works.wrote hs

/-- The steps of a site, with what each hands over or finishes. -/
inductive Steps (s : Site τ ρ ε κ ν) :
    Act τ ρ κ → Site τ ρ ε κ ν → List (Event ρ ε) → Prop where
  | commit {row : ρ} : F.start < F.id row → F.id row ∉ s.log.map F.id →
      Steps s (.commit row) { s with log := s.log ++ [row] } []
  | poll : s.reader.stage = .sleeping → s.reader.latest < lastId F s.log →
      Steps s (.move .poll) { s with reader := { s.reader with
        stage := .polling s.reader.latest (rowsAfter F s.log s.reader.latest) } } []
  | current : s.reader.stage = .sleeping → Steps s (.move .poll) s []
  | outOfSync : s.reader.stage = .sleeping → lastId F s.log < s.reader.latest →
      Steps s (.move .poll) { s with reader := { s.reader with stage := .dead } } []
  | fail : s.reader.stage = .sleeping → s.reader.latest < lastId F s.log →
      Steps s (.move .fail) { s with reader := { s.reader with stage := .dead } } []
  | work {r : Reader τ ρ ε κ ν} {evs : List (Event ρ ε)} : Works F C s.reader r evs →
      Steps s (.move .work) { s with reader := r } evs
  | query {t : τ} {k : κ} : s.reader.cache k = none → s.reader.loads t = none →
      Steps s (.move (.query t k)) { s with reader := { s.reader with
        loads := Function.update s.reader.loads t (some (k, C.load k s.log)) } } []
  | store {t : τ} {k : κ} {v : ν} : s.reader.loads t = some (k, v) →
      Steps s (.move (.store t)) { s with reader := { s.reader with
        cache := if s.reader.cache k = none then Function.update s.reader.cache k (some v)
          else s.reader.cache
        loads := Function.update s.reader.loads t none } } []
  | evict {k : κ} : Steps s (.move (.evict k)) { s with reader := { s.reader with
        cache := Function.update s.reader.cache k none } } []

lemma steps_of_step {s t : Site τ ρ ε κ ν} {a : Act τ ρ κ} (h : s.step F C a = some t) :
    Steps F C s a t (s.events F C a) := by
  cases a with
  | commit row =>
      simp only [Site.step, Option.ite_none_right_eq_some, Option.some.injEq] at h
      obtain ⟨⟨hstart, hfresh⟩, rfl⟩ := h
      exact .commit hstart hfresh
  | move m =>
      obtain ⟨r, hr, rfl⟩ := Option.map_eq_some_iff.mp h
      cases m with
      | poll =>
          simp only [Reader.move, Reader.poll] at hr
          split at hr
          case h_2 => cases hr
          case h_1 hs =>
            split at hr
            case isTrue hlt =>
                cases hr
                exact .poll hs hlt
            case isFalse =>
                split at hr <;> cases hr
                case isTrue hlt => exact .outOfSync hs hlt
                case isFalse => exact .current hs
      | fail =>
          simp only [Reader.move] at hr
          split at hr
          case h_2 => cases hr
          case h_1 hs =>
            split at hr <;> cases hr
            exact .fail hs ‹_›
      | work => exact .work (works_of_work F C hr)
      | query t k =>
          simp only [Reader.move, Option.ite_none_right_eq_some, Option.some.injEq] at hr
          obtain ⟨⟨hc, hl⟩, rfl⟩ := hr
          exact .query hc hl
      | store t =>
          simp only [Reader.move] at hr
          split at hr <;> cases hr
          exact .store ‹_›
      | evict k =>
          cases hr
          exact .evict

/-! ### The order of the rows -/

/-- The rows handed over so far and those ahead of the thread: in the order of their
positions, from the log, and after the position at which the follower started. -/
structure Order (p₀ : ℤ) (s : Site τ ρ ε κ ν) (rows : List ρ) : Prop where
  placed : WellPlaced F s.log
  sorted : (rows ++ s.reader.stage.ahead).Pairwise fun r s => F.id r < F.id s
  mem : ∀ r ∈ rows ++ s.reader.stage.ahead, r ∈ s.log ∧ p₀ < F.id r
  ahead : ∀ r ∈ s.reader.stage.ahead, s.reader.position F < F.id r
  done : s.reader.stage ≠ .dead → ∀ r ∈ rows, F.id r ≤ s.reader.position F
  base : p₀ ≤ s.reader.latest
  latest_le : s.reader.latest ≤ s.reader.position F
  reached : s.reader.position F ≤ lastId F s.log

variable {F C}

omit [DecidableEq κ] [DecidableEq τ] in
/-- Nothing of the order depends on the cache, the loads or the place within a row. -/
lemma Order.of_eq {p₀ : ℤ} {s t : Site τ ρ ε κ ν} {rows : List ρ} (h : Order F p₀ s rows)
    (hlog : t.log = s.log) (hlatest : t.reader.latest = s.reader.latest)
    (hahead : t.reader.stage.ahead = s.reader.stage.ahead)
    (hpos : t.reader.position F = s.reader.position F) (hlive : s.reader.stage ≠ .dead) :
    Order F p₀ t rows where
  placed := hlog ▸ h.placed
  sorted := hahead ▸ h.sorted
  mem := by rw [hahead, hlog]; exact h.mem
  ahead := by rw [hahead, hpos]; exact h.ahead
  done := fun _ => by rw [hpos]; exact h.done hlive
  base := hlatest ▸ h.base
  latest_le := by rw [hlatest, hpos]; exact h.latest_le
  reached := by rw [hpos, hlog]; exact h.reached

omit [DecidableEq κ] [DecidableEq τ] in
/-- A thread that ends keeps what it has handed over. -/
lemma Order.die {p₀ : ℤ} {s : Site τ ρ ε κ ν} {rows : List ρ} (h : Order F p₀ s rows) :
    Order F p₀ { s with reader := { s.reader with stage := .dead } } rows where
  placed := h.placed
  sorted := by simpa [Stage.ahead] using (List.pairwise_append.mp h.sorted).1
  mem := fun r hr => h.mem r (List.mem_append_left _ (by simpa [Stage.ahead] using hr))
  ahead := by simp [Stage.ahead]
  done := fun hne => absurd rfl hne
  base := h.base
  latest_le := le_rfl
  reached := h.latest_le.trans h.reached

omit [DecidableEq τ] in
/-- One operation of the thread keeps the order. -/
lemma Works.order {log : List ρ} {s t : Reader τ ρ ε κ ν} {evs : List (Event ρ ε)} {p₀ : ℤ}
    {rows : List ρ} (hw : Works F C s t evs) (h : Order F p₀ ⟨log, s⟩ rows) :
    Order F p₀ ⟨log, t⟩ (rows ++ taken evs) := by
  cases hw with
  | done hs =>
      simp only [taken_nil, List.append_nil]
      obtain ⟨hplaced, hsorted, hmem, -, hdone, hbase, hlatest, hreached⟩ := h
      simp only [hs, Reader.position, Stage.ahead] at hsorted hmem hdone hlatest hreached
      exact ⟨hplaced, hsorted, hmem, by simp [Stage.ahead], fun _ => hdone (by simp),
        hbase.trans hlatest, le_rfl, hreached⟩
  | @take mark row rows' hs =>
      obtain ⟨hplaced, hsorted, hmem, hahead, hdone, hbase, hlatest, hreached⟩ := h
      simp only [hs, Reader.position, Stage.ahead] at hsorted hmem hahead hdone hlatest
      have hrow := hahead row List.mem_cons_self
      refine ⟨hplaced, by simpa [Stage.ahead] using hsorted, by simpa [Stage.ahead] using hmem,
        ?_, ?_, hbase, hlatest.trans hrow.le, ?_⟩
      · intro r hr
        exact (List.pairwise_cons.mp (List.pairwise_append.mp hsorted).2.1).1 r hr
      · intro _ r hr
        rcases List.mem_append.mp hr with hr | hr
        · exact (hdone (by simp) r hr).trans hrow.le
        · exact (congrArg F.id (List.mem_singleton.mp hr)).le
      · exact le_lastId F (hmem row (by simp)).1
  | lost hs => simpa using h.die
  | finish hs | absent hs _ | found hs _ | changed hs _ | read hs _ | wrote hs =>
      simp only [taken_nil, taken_handled, List.append_nil]
      exact h.of_eq rfl rfl (by simp [hs, Stage.ahead]) (by simp [hs, Reader.position])
        (by simp [hs])

/-- One step of a site keeps the order. -/
lemma Steps.order {s t : Site τ ρ ε κ ν} {a : Act τ ρ κ} {evs : List (Event ρ ε)} {p₀ : ℤ}
    {rows : List ρ} (hstep : Steps F C s a t evs) (h : Order F p₀ s rows) :
    Order F p₀ t (rows ++ taken evs) := by
  cases hstep with
  | @commit row hstart hfresh =>
      have hplaced : WellPlaced F (s.log ++ [row]) := by
        refine ⟨?_, ?_⟩
        · simpa [List.nodup_append, h.placed.nodup] using hfresh
        · intro r hr
          rcases List.mem_append.mp hr with hr | hr
          · exact h.placed.after r hr
          · rwa [List.mem_singleton.mp hr]
      simp only [taken_nil, List.append_nil]
      exact ⟨hplaced, h.sorted, fun r hr => ⟨List.mem_append_left _ (h.mem r hr).1, (h.mem r hr).2⟩,
        h.ahead, h.done, h.base, h.latest_le, h.reached.trans hplaced.lastId_snoc⟩
  | poll hs hlt =>
      obtain ⟨hplaced, hsorted, hmem, -, hdone, hbase, -, hreached⟩ := h
      simp only [hs, Reader.position, Stage.ahead, List.append_nil] at hsorted hmem hdone hreached
      simp only [taken_nil, List.append_nil]
      refine ⟨hplaced, ?_, ?_, ?_, fun _ => hdone (by simp), hbase, le_rfl, hreached⟩
      · refine List.pairwise_append.mpr ⟨hsorted, rowsAfter_sorted F hplaced.nodup _, ?_⟩
        intro r hr q hq
        exact (hdone (by simp) r hr).trans_lt ((mem_rowsAfter F).mp hq).2
      · intro r hr
        rcases List.mem_append.mp hr with hr | hr
        · exact hmem r hr
        · obtain ⟨hlog, hlt⟩ := (mem_rowsAfter F).mp hr
          exact ⟨hlog, hbase.trans_lt hlt⟩
      · intro r hr
        exact ((mem_rowsAfter F).mp hr).2
  | current => simpa using h
  | outOfSync | fail => simpa using h.die
  | work hw => exact hw.order h
  | query | store | evict =>
      simp only [taken_nil, List.append_nil]
      refine ⟨h.placed, h.sorted, h.mem, h.ahead, h.done, h.base, h.latest_le, h.reached⟩

section Runs

variable {log₀ : List ρ} {p₀ : ℤ} {ok : Site τ ρ ε κ ν → Act τ ρ κ → Prop}

/-- In any run the rows are handed over in order. -/
theorem order {s : Site τ ρ ε κ ν} {bs : List (Event ρ ε)}
    (h : (follower F C log₀ p₀).Emits ok (Site.events F C) s bs) : Order F p₀ s (taken bs) := by
  refine h.invariant (P := fun s bs => Order F p₀ s (taken bs)) ?_ ?_
  · rintro s ⟨rfl, hplaced, hp⟩
    have hle : p₀ ≤ lastId F log₀ := by
      rcases hp with rfl | rfl
      · exact le_rfl
      · exact hplaced.start_le
    exact ⟨hplaced, by simp [Reader.boot, Stage.ahead], by simp [Reader.boot, Stage.ahead],
      by simp [Reader.boot, Stage.ahead], by simp, le_rfl, le_rfl, hle⟩
  · intro s a t bs _ _ hs hstep
    rw [taken_append]
    exact (steps_of_step F C hstep).order hs

/-- The log never ends before the position of the follower: its thread does not end on an
answer that is out of sync. -/
theorem latest_le_lastId {s : Site τ ρ ε κ ν}
    (h : (follower F C log₀ p₀).Run ok s) : s.reader.latest ≤ lastId F s.log := by
  obtain ⟨bs, hbs⟩ := h.emits (Site.events F C)
  exact (order hbs).latest_le.trans (order hbs).reached

/-- The effects done are those of the rows handed over, up to the ones pending; a thread
that has ended leaves some undone. -/
lemma handled_append_pending {s : Site τ ρ ε κ ν} {bs : List (Event ρ ε)}
    (h : (follower F C log₀ p₀).Emits ok (Site.events F C) s bs) :
    ∃ undone, handled bs ++ s.reader.stage.pending ++ undone = (taken bs).flatMap F.effects ∧
      (s.reader.stage ≠ .dead → undone = []) := by
  refine h.invariant (P := fun s bs => ∃ undone,
    handled bs ++ s.reader.stage.pending ++ undone = (taken bs).flatMap F.effects ∧
      (s.reader.stage ≠ .dead → undone = [])) ?_ ?_
  · rintro s ⟨rfl, -, -⟩
    exact ⟨[], by simp [Reader.boot, Stage.pending], fun _ => rfl⟩
  · rintro s a t bs - - ⟨undone, heq, hlive⟩ hstep
    have hsteps := steps_of_step F C hstep
    generalize Site.events F C s a = evs at hsteps
    cases hsteps with
    | commit | query | store | evict | current => exact ⟨undone, by simpa using heq, hlive⟩
    | poll hs _ =>
        have hu := hlive (by simp [hs])
        exact ⟨[], by simpa [hs, hu, Stage.pending] using heq, fun _ => rfl⟩
    | outOfSync hs _ | fail hs _ =>
        exact ⟨undone, by simpa [hs, Stage.pending] using heq, by simp⟩
    | work hw =>
        cases hw with
        | lost hs =>
            refine ⟨s.reader.stage.pending ++ undone, ?_, by simp⟩
            simpa [Stage.pending] using heq
        | done hs | take hs | finish hs | absent hs _ | found hs _ | changed hs _ | read hs _
        | wrote hs =>
            have hu := hlive (by simp [hs])
            subst hu
            exact ⟨[], by simpa [hs, Stage.pending] using heq, fun _ => rfl⟩

lemma handled_begins {s : Site τ ρ ε κ ν} {bs : List (Event ρ ε)}
    (h : (follower F C log₀ p₀).Emits ok (Site.events F C) s bs) :
    handled bs <+: (taken bs).flatMap F.effects := by
  obtain ⟨undone, heq, -⟩ := handled_append_pending h
  exact ⟨_, by rw [← heq, List.append_assoc]⟩

/-! ### Where a cached value comes from -/

variable (F C) in
/-- The effects that are done in the steps of a list. -/
def effectsDone (xs : List (Site τ ρ ε κ ν × Act τ ρ κ)) : List ε :=
  handled (xs.flatMap fun x => x.1.events F C x.2)

omit [DecidableEq κ] [DecidableEq τ] in
lemma effectsDone_append (xs ys : List (Site τ ρ ε κ ν × Act τ ρ κ)) :
    effectsDone F C (xs ++ ys) = effectsDone F C xs ++ effectsDone F C ys := by
  simp [effectsDone]

omit [DecidableEq κ] [DecidableEq τ] in
lemma effectsDone_singleton (s : Site τ ρ ε κ ν) (a : Act τ ρ κ) :
    effectsDone F C [(s, a)] = handled (s.events F C a) := by
  simp [effectsDone]

variable (C) in
/-- A load in flight: the thread has queried the key in one of the steps, and has not stored
what it read. -/
def Queried (xs : List (Site τ ρ ε κ ν × Act τ ρ κ)) (t : τ) (k : κ) (v : ν) : Prop :=
  ∃ before s₁ during, xs = before ++ (s₁, .move (.query t k)) :: during ∧
    (∀ x ∈ during, x.2 ≠ .move (.store t)) ∧ v = C.load k s₁.log

variable (F) in
/-- The key has an entry, or the thread is about to write one. -/
def Kept (s : Site τ ρ ε κ ν) (k : κ) : Prop :=
  s.reader.cache k ≠ none ∨
    ∃ row e prev todo rows, s.reader.stage = .writing row e prev todo rows ∧ F.key e = k

omit [DecidableEq κ] [DecidableEq τ] in
lemma kept_of_cache {s : Site τ ρ ε κ ν} {k : κ} {v : ν} (h : s.reader.cache k = some v) :
    Kept F s k :=
  .inl (by simp [h])

variable (F C) in
/-- A value that was loaded: a thread has queried the key in one of the steps, and has stored what
it read in a later one, when the key had no entry. The entry has been kept since, and the value
has had the effects on the key that were done after that. -/
def Filled (xs : List (Site τ ρ ε κ ν × Act τ ρ κ)) (k : κ) (v : ν) : Prop :=
  ∃ t before s₁ during s₂ after,
    xs = before ++ (s₁, .move (.query t k)) :: during ++ (s₂, .move (.store t)) :: after ∧
      (∀ x ∈ during, x.2 ≠ .move (.store t)) ∧ s₂.reader.cache k = none ∧
      (∀ x ∈ after, Kept F x.1 k) ∧
      v = ((effectsDone F C after).filter (F.key · = k)).foldl C.apply (C.load k s₁.log)

section Filled

variable {xs : List (Site τ ρ ε κ ν × Act τ ρ κ)} {s : Site τ ρ ε κ ν} {a : Act τ ρ κ} {k : κ}
  {v : ν}

omit [DecidableEq κ] [DecidableEq τ] in
lemma Queried.grow {t : τ} (h : Queried C xs t k v) (ha : a ≠ .move (.store t)) :
    Queried C (xs ++ [(s, a)]) t k v := by
  obtain ⟨before, s₁, during, rfl, hduring, rfl⟩ := h
  refine ⟨before, s₁, during ++ [(s, a)], by simp, fun x hx => ?_, rfl⟩
  rcases List.mem_append.mp hx with hx | hx
  · exact hduring x hx
  · rwa [List.mem_singleton.mp hx]

omit [DecidableEq τ] in
lemma Queried.stored {t : τ} (h : Queried C xs t k v) (hc : s.reader.cache k = none) :
    Filled F C (xs ++ [(s, .move (.store t))]) k v := by
  obtain ⟨before, s₁, during, rfl, hduring, rfl⟩ := h
  exact ⟨t, before, s₁, during, s, [], by simp, hduring, hc, by simp, rfl⟩

omit [DecidableEq κ] [DecidableEq τ] in
lemma kept_snoc {after : List (Site τ ρ ε κ ν × Act τ ρ κ)} (h : ∀ x ∈ after, Kept F x.1 k)
    (hs : Kept F s k) : ∀ x ∈ after ++ [(s, a)], Kept F x.1 k := by
  intro x hx
  rcases List.mem_append.mp hx with hx | hx
  · exact h x hx
  · rwa [List.mem_singleton.mp hx]

omit [DecidableEq τ] in
/-- A step whose effects are on other keys. -/
lemma Filled.grow (h : Filled F C xs k v) (hs : Kept F s k)
    (hne : ∀ e ∈ handled (s.events F C a), F.key e ≠ k) :
    Filled F C (xs ++ [(s, a)]) k v := by
  obtain ⟨t, before, s₁, during, s₂, after, rfl, hduring, hc, hkept, rfl⟩ := h
  refine ⟨t, before, s₁, during, s₂, after ++ [(s, a)], by simp, hduring, hc,
    kept_snoc hkept hs, ?_⟩
  have hnone : (handled (s.events F C a)).filter (F.key · = k) = [] :=
    List.filter_eq_nil_iff.mpr fun e he => by simpa using hne e he
  rw [effectsDone_append, effectsDone_singleton, List.filter_append, hnone, List.append_nil]

omit [DecidableEq τ] in
/-- A step that does an effect on the key. -/
lemma Filled.apply {e : ε} (h : Filled F C xs (F.key e) v) (hs : Kept F s (F.key e))
    (he : handled (s.events F C a) = [e]) :
    Filled F C (xs ++ [(s, a)]) (F.key e) (C.apply v e) := by
  obtain ⟨t, before, s₁, during, s₂, after, rfl, hduring, hc, hkept, rfl⟩ := h
  refine ⟨t, before, s₁, during, s₂, after ++ [(s, a)], by simp, hduring, hc,
    kept_snoc hkept hs, ?_⟩
  rw [effectsDone_append, effectsDone_singleton, he, List.filter_append, List.foldl_append]
  simp

end Filled

variable (F C) in
/-- The values that the follower holds come from the steps of its history. -/
structure Provenance (s : Site τ ρ ε κ ν) (xs : List (Site τ ρ ε κ ν × Act τ ρ κ)) : Prop where
  logs : ∀ x ∈ xs, x.1.log <+: s.log
  cache : ∀ k v, s.reader.cache k = some v → Filled F C xs k v
  loads : ∀ t k v, s.reader.loads t = some (k, v) → Queried C xs t k v
  prev : ∀ row e prev todo rows, s.reader.stage = .writing row e prev todo rows →
    Filled F C xs (F.key e) prev

omit [DecidableEq τ] in
/-- One operation of the thread. -/
lemma Works.filled {s : Site τ ρ ε κ ν} {r : Reader τ ρ ε κ ν}
    {xs : List (Site τ ρ ε κ ν × Act τ ρ κ)}
    (hw : Works F C s.reader r (s.events F C (.move .work))) (h : Provenance F C s xs) :
    (∀ k v, r.cache k = some v → Filled F C (xs ++ [(s, .move .work)]) k v) ∧
      r.loads = s.reader.loads ∧
      ∀ row e prev todo rows, r.stage = .writing row e prev todo rows →
        Filled F C (xs ++ [(s, .move .work)]) (F.key e) prev := by
  generalize hevs : s.events F C (.move .work) = evs at hw
  -- without an effect every value is as before
  have same : handled evs = [] → ∀ k v, s.reader.cache k = some v →
      Filled F C (xs ++ [(s, .move .work)]) k v := by
    intro hnone k v hv
    exact (h.cache k v hv).grow (kept_of_cache hv) (by simp [hevs, hnone])
  -- with one, the entry of its key is written, and the values of the other keys are as before
  have update : ∀ e v, handled evs = [e] → Filled F C xs (F.key e) v → Kept F s (F.key e) →
      ∀ k w, Function.update s.reader.cache (F.key e) (some (C.apply v e)) k = some w →
        Filled F C (xs ++ [(s, .move .work)]) k w := by
    intro e v he hv hs k w hw
    by_cases hk : k = F.key e
    · subst hk
      obtain rfl : C.apply v e = w := by simpa using hw
      exact hv.apply hs (by rw [hevs, he])
    · rw [Function.update_of_ne hk] at hw
      exact (h.cache k w hw).grow (kept_of_cache hw) (by simpa [hevs, he] using Ne.symm hk)
  cases hw with
  | done | take | finish | found | lost => exact ⟨same (by simp), rfl, by simp⟩
  | @absent row e todo rows hs hc =>
      refine ⟨fun k v hv => (h.cache k v hv).grow (kept_of_cache hv) ?_, rfl, by simp⟩
      have hne : F.key e ≠ k := by
        rintro rfl
        simp [hc] at hv
      simpa [hevs] using hne
  | @changed row e todo rows v hs hc =>
      exact ⟨update e v (by simp) (h.cache _ v hc) (kept_of_cache hc), rfl, by simp⟩
  | @read row e todo rows v hs hc =>
      refine ⟨same (by simp), rfl, ?_⟩
      rintro row' e' prev todo' rows' heq
      simp only [Stage.writing.injEq] at heq
      obtain ⟨-, rfl, rfl, -, -⟩ := heq
      exact (h.cache _ v hc).grow (kept_of_cache hc) (by simp [hevs])
  | @wrote row e prev todo rows hs =>
      exact ⟨update e prev (by simp) (h.prev row e prev todo rows hs)
        (.inr ⟨row, e, prev, todo, rows, hs, rfl⟩), rfl, by simp⟩

/-- One step of a site. -/
lemma Steps.provenance {s t : Site τ ρ ε κ ν} {a : Act τ ρ κ}
    {xs : List (Site τ ρ ε κ ν × Act τ ρ κ)} (hstep : Steps F C s a t (s.events F C a))
    (h : Provenance F C s xs) : Provenance F C t (xs ++ [(s, a)]) := by
  have logs : s.log <+: t.log → ∀ x ∈ xs ++ [(s, a)], x.1.log <+: t.log := by
    intro hgrows x hx
    rcases List.mem_append.mp hx with hx | hx
    · exact (h.logs x hx).trans hgrows
    · rwa [List.mem_singleton.mp hx]
  generalize hevs : s.events F C a = evs at hstep
  -- what a step that does no effect leaves as it is
  have cache : handled evs = [] → ∀ k v, s.reader.cache k = some v →
      Filled F C (xs ++ [(s, a)]) k v :=
    fun hnone k v hv => (h.cache k v hv).grow (kept_of_cache hv) (by simp [hevs, hnone])
  have loads : (∀ t, a ≠ .move (.store t)) → ∀ t k v, s.reader.loads t = some (k, v) →
      Queried C (xs ++ [(s, a)]) t k v := fun hne t k v hv => (h.loads t k v hv).grow (hne t)
  have prev : handled evs = [] → ∀ row e prev todo rows,
      s.reader.stage = .writing row e prev todo rows →
        Filled F C (xs ++ [(s, a)]) (F.key e) prev :=
    fun hnone row e prev todo rows hs => (h.prev row e prev todo rows hs).grow
      (.inr ⟨row, e, prev, todo, rows, hs, rfl⟩) (by simp [hevs, hnone])
  cases hstep with
  | commit => exact ⟨logs (List.prefix_append _ _), cache rfl, loads (by simp), prev rfl⟩
  | poll | outOfSync | fail => exact ⟨logs List.prefix_rfl, cache rfl, loads (by simp), by simp⟩
  | current => exact ⟨logs List.prefix_rfl, cache rfl, loads (by simp), prev rfl⟩
  | work hw =>
      obtain ⟨hcache, hloads, hprev⟩ := Works.filled (hevs ▸ hw) h
      exact ⟨logs List.prefix_rfl, hcache, fun t k v hv => loads (by simp) t k v (hloads ▸ hv),
        hprev⟩
  | @query t k =>
      refine ⟨logs List.prefix_rfl, cache rfl, fun t' k' v hv => ?_, prev rfl⟩
      by_cases ht : t' = t
      · subst ht
        simp only [Function.update_self, Option.some.injEq, Prod.mk.injEq] at hv
        obtain ⟨rfl, rfl⟩ := hv
        exact ⟨xs, s, [], rfl, by simp, rfl⟩
      · exact loads (by simp) t' k' v (by simpa [Function.update_of_ne ht] using hv)
  | @store t k v hl =>
      refine ⟨logs List.prefix_rfl, fun k' v' hv => ?_, fun t' k' v' hv => ?_, prev rfl⟩
      · dsimp only at hv
        split at hv
        · rename_i hc
          by_cases hk : k' = k
          · subst hk
            obtain rfl : v = v' := by simpa using hv
            exact (h.loads t k' v hl).stored hc
          · exact cache rfl k' v' (by simpa [Function.update_of_ne hk] using hv)
        · exact cache rfl k' v' hv
      · by_cases ht : t' = t
        · simp [ht] at hv
        · exact (h.loads t' k' v' (by simpa [Function.update_of_ne ht] using hv)).grow
            (by simpa using Ne.symm ht)
  | @evict k =>
      refine ⟨logs List.prefix_rfl, fun k' v hv => ?_, loads (by simp), prev rfl⟩
      by_cases hk : k' = k
      · simp [hk] at hv
      · exact cache rfl k' v (by simpa [Function.update_of_ne hk] using hv)

/-- **Where the values come from**: in any run a cached value was loaded by a query of the run,
and has had the effects done on its key since it was stored. -/
theorem provenance {s : Site τ ρ ε κ ν} {xs : List (Site τ ρ ε κ ν × Act τ ρ κ)}
    (h : (follower F C log₀ p₀).History ok s xs) : Provenance F C s xs := by
  refine h.invariant (P := Provenance F C) ?_ ?_
  · rintro s ⟨rfl, -, -⟩
    exact ⟨by simp, by simp [Reader.boot], by simp [Reader.boot], by simp [Reader.boot]⟩
  · intro s a t xs _ _ hs hstep
    exact (steps_of_step F C hstep).provenance hs

variable (F C) in
/-- A value of a key is loaded from a prefix of the log, and then has the last effects that
were done on the key. -/
def Sourced (log : List ρ) (done : List ε) (k : κ) (v : ν) : Prop :=
  ∃ view applied, view <+: log ∧ applied <:+ done.filter (F.key · = k) ∧
    v = applied.foldl C.apply (C.load k view)

variable (F C) in
/-- The values that the follower holds are sourced. -/
structure Accounted (s : Site τ ρ ε κ ν) (done : List ε) : Prop where
  cache : ∀ k v, s.reader.cache k = some v → Sourced F C s.log done k v
  loads : ∀ t k v, s.reader.loads t = some (k, v) → ∃ view, view <+: s.log ∧ v = C.load k view

/-- In any run a cached value is what was loaded from a prefix of the log, with the last
effects done on its key since. -/
theorem accounted {s : Site τ ρ ε κ ν} {bs : List (Event ρ ε)}
    (h : (follower F C log₀ p₀).Emits ok (Site.events F C) s bs) :
    Accounted F C s (handled bs) := by
  obtain ⟨xs, hxs, rfl⟩ := h.exists_history
  obtain ⟨hlogs, hcache, hloads, -⟩ := provenance hxs
  constructor
  · intro k v hv
    obtain ⟨t, before, s₁, during, s₂, after, rfl, -, -, -, rfl⟩ := hcache k v hv
    refine ⟨s₁.log, _, hlogs (s₁, .move (.query t k)) (by simp), ?_, rfl⟩
    change _ <:+ (effectsDone F C _).filter _
    rw [List.append_cons _ (s₂, _), effectsDone_append, List.filter_append]
    exact List.suffix_append _ _
  · intro t k v hv
    obtain ⟨before, s₁, during, rfl, -, rfl⟩ := hloads t k v hv
    exact ⟨s₁.log, hlogs (s₁, .move (.query t k)) (by simp), rfl⟩

end Runs

end Follower

end FinOpsPipeline
