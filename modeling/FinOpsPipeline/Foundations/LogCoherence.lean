import FinOpsPipeline.Foundations.LogFollower
import Mathlib.Data.Fintype.Basic
import Mathlib.Data.List.Induction

/-!
When the cache of a follower agrees with its log.

* `InOrder`: the log grows in the order of the positions. Then no row is skipped
  (`InStep`, `taken_eq`).
* `Careful`: no entry of the key is loaded while effects on it are between the log and the
  cache.
* `Lawful`: an effect does to a value what its row does to a load.
* `CoherentAt`, `coherent`: in runs that are in order and careful, a cached value with the
  pending effects is that of the rows up to the position; `cached_eq_load` when none is left.
* `Site.drift`: how far a value of an additive cell is off. `drift_const`: it stays so while
  the entry is cached.
-/

namespace FinOpsPipeline

namespace Follower

variable {τ ρ ε κ ν : Type*} (F : Feed ρ ε κ) (C : Cell ρ ε κ ν)

/-! ### Logs that grow in order -/

/-- The rows of a log up to a position. -/
def upTo (log : List ρ) (p : ℤ) : List ρ := log.filter fun r => F.id r ≤ p

/-- The rows of the log up to the position of its follower. -/
def Site.begun (s : Site τ ρ ε κ ν) : List ρ := upTo F s.log (s.reader.position F)

/-- A commit is after all rows of the log, and the log stays `Good`. -/
def InOrder (Good : List ρ → Prop) (s : Site τ ρ ε κ ν) : Act τ ρ κ → Prop
  | .commit row => (∀ r ∈ s.log, F.id r < F.id row) ∧ Good (s.log ++ [row])
  | _ => True

instance (Good : List ρ → Prop) [DecidablePred Good] (s : Site τ ρ ε κ ν) (a : Act τ ρ κ) :
    Decidable (InOrder F Good s a) :=
  match a with
  | .commit _ => inferInstanceAs (Decidable (_ ∧ _))
  | .move _ => isTrue trivial

/-- The log is the rows up to the position, those that the thread has read, and newer ones. -/
structure InStep (s : Site τ ρ ε κ ν) : Prop where
  sorted : s.log.Pairwise fun r s => F.id r < F.id s
  split : s.reader.stage ≠ .dead → ∃ fresh, s.log = s.begun F ++ s.reader.stage.ahead ++ fresh

variable {F C}

@[simp] lemma mem_upTo {log : List ρ} {p : ℤ} {r : ρ} :
    r ∈ upTo F log p ↔ r ∈ log ∧ F.id r ≤ p := by
  simp [upTo]

/-- In an ordered log the rows up to a position come first. -/
lemma upTo_append_rowsAfter {log : List ρ} (h : log.Pairwise fun r s => F.id r < F.id s) (p : ℤ) :
    upTo F log p ++ rowsAfter F log p = log := by
  have hsorted : rowsAfter F log p = log.filter fun r => p < F.id r := by
    refine List.mergeSort_of_pairwise ?_
    exact (h.filter _).imp fun h => by simpa using h.le
  rw [hsorted, upTo]
  clear hsorted
  induction log with
  | nil => rfl
  | cons r log ih =>
      obtain ⟨hr, hlog⟩ := List.pairwise_cons.mp h
      by_cases hp : F.id r ≤ p
      · have hn : ¬ p < F.id r := not_lt.mpr hp
        simpa [hp, hn] using ih hlog
      · have hrest : ∀ q ∈ log, p < F.id q := fun q hq => (not_le.mp hp).trans (hr q hq)
        have hnone : (log.filter fun q => F.id q ≤ p) = [] :=
          List.filter_eq_nil_iff.mpr fun q hq => by simpa using hrest q hq
        have hall : (log.filter fun q => p < F.id q) = log :=
          List.filter_eq_self.mpr fun q hq => by simpa using hrest q hq
        simp [hp, not_le.mp hp, hnone, hall]

/-- Up to the next row of an ordered log there is one row more. -/
lemma upTo_eq_snoc {log seen rest : List ρ} {row : ρ}
    (h : log.Pairwise fun r s => F.id r < F.id s) (heq : log = seen ++ row :: rest) :
    upTo F log (F.id row) = seen ++ [row] := by
  subst heq
  obtain ⟨-, hrow, hseen⟩ := List.pairwise_append.mp h
  have hall : (seen.filter fun r => F.id r ≤ F.id row) = seen :=
    List.filter_eq_self.mpr fun r hr => by
      simpa using (hseen r hr row List.mem_cons_self).le
  have hnone : (rest.filter fun r => F.id r ≤ F.id row) = [] :=
    List.filter_eq_nil_iff.mpr fun r hr => by
      simpa using (List.pairwise_cons.mp hrow).1 r hr
  simp [upTo, hall, hnone]

lemma lastId_lt {log : List ρ} {b : ℤ} (hstart : F.start < b) (h : ∀ r ∈ log, F.id r < b) :
    lastId F log < b := by
  have hle := lastId_le F (b := b - 1) (by omega) fun r hr => by have := h r hr; omega
  omega

/-- A commit in order is after the position, and does not change the rows up to it. -/
lemma begun_commit {s : Site τ ρ ε κ ν} {row : ρ} (hreached : s.reader.position F ≤ lastId F s.log)
    (hstart : F.start < F.id row) (hrow : ∀ r ∈ s.log, F.id r < F.id row) :
    ({ s with log := s.log ++ [row] } : Site τ ρ ε κ ν).begun F = s.begun F := by
  have hlt : s.reader.position F < F.id row := hreached.trans_lt (lastId_lt hstart hrow)
  simp [Site.begun, upTo, hlt]

lemma Works.inStep [DecidableEq κ] {log : List ρ} {s t : Reader τ ρ ε κ ν}
    {evs : List (Event ρ ε)} (hw : Works F C s t evs) (h : InStep F ⟨log, s⟩) :
    InStep F ⟨log, t⟩ := by
  refine ⟨h.sorted, fun hlive => ?_⟩
  cases hw with
  | take hs =>
      obtain ⟨fresh, hfresh⟩ := h.split (by simp [hs])
      simp only [hs, Stage.ahead, List.append_assoc, List.cons_append] at hfresh
      refine ⟨fresh, ?_⟩
      simp only [Site.begun, Reader.position, Stage.ahead]
      rw [upTo_eq_snoc h.sorted hfresh]
      simpa using hfresh
  | lost hs => exact absurd rfl hlive
  | done hs | finish hs | absent hs _ | found hs _ | changed hs _ | read hs _ | wrote hs =>
      simpa [Site.begun, Reader.position, Stage.ahead, hs] using h.split (by simp [hs])

section Ordered

variable [DecidableEq κ] [DecidableEq τ]

lemma Steps.inStep {Good : List ρ → Prop} {s t : Site τ ρ ε κ ν} {a : Act τ ρ κ}
    {evs : List (Event ρ ε)} (hstep : Steps F C s a t evs) (hok : InOrder F Good s a)
    (hreached : s.reader.position F ≤ lastId F s.log) (h : InStep F s) : InStep F t := by
  cases hstep with
  | @commit row hstart _ =>
      refine ⟨?_, fun hlive => ?_⟩
      · refine List.pairwise_append.mpr ⟨h.sorted, List.pairwise_singleton _ _, ?_⟩
        intro r hr q hq
        rw [List.mem_singleton.mp hq]
        exact hok.1 r hr
      · obtain ⟨fresh, hfresh⟩ := h.split hlive
        rw [begun_commit hreached hstart hok.1]
        exact ⟨fresh ++ [row], by rw [← List.append_assoc, ← hfresh]⟩
  | poll hs _ =>
      refine ⟨h.sorted, fun _ => ⟨[], ?_⟩⟩
      simp only [Site.begun, Reader.position, Stage.ahead, List.append_nil]
      exact (upTo_append_rowsAfter h.sorted _).symm
  | current => exact h
  | outOfSync | fail => exact ⟨h.sorted, fun hlive => absurd rfl hlive⟩
  | work hw => exact hw.inStep h
  | query | store | evict => exact ⟨h.sorted, h.split⟩

variable {log₀ : List ρ} {p₀ : ℤ} {ok : Site τ ρ ε κ ν → Act τ ρ κ → Prop}
  {Good : List ρ → Prop}

/-- In a run in order the follower is in step with the log. -/
theorem inStep (hsorted : log₀.Pairwise fun r s => F.id r < F.id s)
    (hok : ∀ s a, ok s a → InOrder F Good s a) {s : Site τ ρ ε κ ν}
    (h : (follower F C log₀ p₀).Run ok s) : InStep F s := by
  refine h.invariant (P := InStep F) ?_ ?_
  · rintro s ⟨rfl, -, -⟩
    refine ⟨hsorted, fun _ => ⟨rowsAfter F log₀ p₀, ?_⟩⟩
    simpa [Site.begun, Reader.position, Reader.boot, Stage.ahead] using
      (upTo_append_rowsAfter hsorted p₀).symm
  · intro s a t hrun hoka hs hstep
    obtain ⟨bs, hbs⟩ := hrun.emits (Site.events F C)
    exact (steps_of_step F C hstep).inStep (hok s a hoka) (order hbs).reached hs

/-- When the log grows in order, the rows handed over are exactly those between the position
at which the follower started and its position now. -/
theorem taken_eq (hsorted : log₀.Pairwise fun r s => F.id r < F.id s)
    (hok : ∀ s a, ok s a → InOrder F Good s a) {s : Site τ ρ ε κ ν} {bs : List (Event ρ ε)}
    (h : (follower F C log₀ p₀).Emits ok (Site.events F C) s bs)
    (hlive : s.reader.stage ≠ .dead) :
    taken bs = s.log.filter fun r => p₀ < F.id r ∧ F.id r ≤ s.reader.position F := by
  have key : s.reader.stage ≠ .dead → taken bs = (s.begun F).filter fun r => p₀ < F.id r := by
    refine h.invariant (P := fun s bs => s.reader.stage ≠ .dead →
      taken bs = (s.begun F).filter fun r => p₀ < F.id r) ?_ ?_
    · rintro s ⟨rfl, -, -⟩ -
      simp [Site.begun, Reader.position, Reader.boot]
    · intro s a t bs hrun hoka ih hstep hlive
      have hin : InStep F s := inStep hsorted hok hrun.run
      have hord := order hrun
      have hsteps := steps_of_step F C hstep
      generalize Site.events F C s a = evs at hsteps
      cases hsteps with
      | commit hstart _ =>
          rw [begun_commit hord.reached hstart (hok _ _ hoka).1]
          simpa using ih hlive
      | poll hs _ => simpa [Site.begun, Reader.position, hs] using ih (by simp [hs])
      | current | query | store | evict =>
          rw [List.append_nil]
          exact ih hlive
      | outOfSync | fail => exact absurd rfl hlive
      | work hw =>
          cases hw with
          | @take mark row rows hs =>
              obtain ⟨fresh, hfresh⟩ := hin.split (by simp [hs])
              simp only [hs, Stage.ahead, List.append_assoc, List.cons_append] at hfresh
              have hp : p₀ < F.id row := (hord.mem row (by simp [hs, Stage.ahead])).2
              have hbegun := ih (by simp [hs])
              simp only [taken_append, taken_took, Site.begun, Reader.position]
              rw [upTo_eq_snoc hin.sorted hfresh, List.filter_append, hbegun]
              simp [hp]
          | lost hs => exact absurd rfl hlive
          | done hs | finish hs | absent hs _ | found hs _ | changed hs _ | read hs _ | wrote hs =>
              simpa [Site.begun, Reader.position, hs] using ih (by simp [hs])
  rw [key hlive, Site.begun, upTo, List.filter_filter]
  simp

end Ordered

/-! ### Loads that agree with the effects -/

variable [DecidableEq κ]

variable (F C) in
/-- An effect does to a value what its row does to a load, in the `Good` logs; so are the
logs that a good log begins with. -/
structure Lawful (Good : List ρ → Prop) : Prop where
  prefix_good : ∀ log rest, Good (log ++ rest) → Good log
  load_snoc : ∀ log row k, Good (log ++ [row]) →
    C.load k (log ++ [row]) =
      ((F.effects row).filter (F.key · = k)).foldl C.apply (C.load k log)

/-- Rows without an effect on the key do not change its load. -/
lemma Lawful.load_append {Good : List ρ → Prop} (hL : Lawful F C Good) {log rest : List ρ} {k : κ}
    (hgood : Good (log ++ rest)) (hrest : ∀ r ∈ rest, ∀ e ∈ F.effects r, F.key e ≠ k) :
    C.load k (log ++ rest) = C.load k log := by
  induction rest using List.reverseRecOn with
  | nil => rw [List.append_nil]
  | append_singleton rest row ih =>
      rw [← List.append_assoc] at hgood ⊢
      have hnone : (F.effects row).filter (F.key · = k) = [] :=
        List.filter_eq_nil_iff.mpr fun e he => by simpa using hrest row (by simp) e he
      rw [hL.load_snoc _ _ _ hgood, hnone, List.foldl_nil]
      exact ih (hL.prefix_good _ _ hgood) fun r hr => hrest r (List.mem_append_left _ hr)

variable (F) in
/-- No effect on the key is between the log and the cache: the rows after the position and
the rest of the current row have none. -/
def Site.Settled (s : Site τ ρ ε κ ν) (k : κ) : Prop :=
  (∀ r ∈ s.log, s.reader.position F < F.id r → ∀ e ∈ F.effects r, F.key e ≠ k) ∧
    ∀ e ∈ s.reader.stage.pending, F.key e ≠ k

instance (s : Site τ ρ ε κ ν) (k : κ) : Decidable (s.Settled F k) :=
  inferInstanceAs (Decidable (_ ∧ _))

/-- The rows after the position of a settled key do not change its load. -/
lemma load_begun {Good : List ρ → Prop} {s : Site τ ρ ε κ ν} {k : κ} (hL : Lawful F C Good)
    (hgood : Good s.log) (hin : InStep F s) (h : s.Settled F k) :
    C.load k (s.begun F) = C.load k s.log := by
  have hlog := upTo_append_rowsAfter hin.sorted (s.reader.position F)
  have hload := hL.load_append (k := k)
    (show Good (s.begun F ++ rowsAfter F s.log (s.reader.position F)) by rwa [Site.begun, hlog])
    fun r hr => h.1 r ((mem_rowsAfter F).mp hr).1 ((mem_rowsAfter F).mp hr).2
  rw [Site.begun, hlog] at hload
  exact hload.symm

variable (F) in
/-- The key is queried when it is settled, and no row with an effect on it is handed over
before the value is stored. -/
def Careful (k : κ) (s : Site τ ρ ε κ ν) : Act τ ρ κ → Prop
  | .move (.query _ k') => k' = k → s.Settled F k
  | .move .work => ∀ row, s.reader.next? = some row → ∀ t v, s.reader.loads t = some (k, v) →
      ∀ e ∈ F.effects row, F.key e ≠ k
  | _ => True

instance [Fintype τ] (k : κ) (s : Site τ ρ ε κ ν) (a : Act τ ρ κ) :
    Decidable (Careful F k s a) :=
  match a with
  | .move (.query _ k') => inferInstanceAs (Decidable (k' = k → s.Settled F k))
  | .move .work =>
      decidable_of_iff (∀ row ∈ s.reader.next?, ∀ t, (s.reader.loads t).map Prod.fst = some k →
          ∀ e ∈ F.effects row, F.key e ≠ k) <| by
        refine forall₃_congr fun row _ t => ?_
        simp
  | .commit _ | .move .poll | .move .fail | .move (.store _) | .move (.evict _) => isTrue trivial

variable (F C) in
/-- The value with the effects of a list on its key is that of the rows of another. -/
def Advances (seen : List ρ) (todo : List ε) (k : κ) (v : ν) : Prop :=
  (todo.filter (F.key · = k)).foldl C.apply v = C.load k seen

lemma advances_iff_eq {seen : List ρ} {todo : List ε} {k : κ} {v : ν}
    (h : ∀ e ∈ todo, F.key e ≠ k) : Advances F C seen todo k v ↔ v = C.load k seen := by
  have hnone : todo.filter (F.key · = k) = [] :=
    List.filter_eq_nil_iff.mpr fun e he => by simpa using h e he
  rw [Advances, hnone, List.foldl_nil]

lemma Advances.skip {seen : List ρ} {e : ε} {todo : List ε} {k : κ} {v : ν}
    (h : Advances F C seen (e :: todo) k v) (he : F.key e ≠ k) : Advances F C seen todo k v := by
  simpa [Advances, he] using h

lemma Advances.apply {seen : List ρ} {e : ε} {todo : List ε} {v : ν}
    (h : Advances F C seen (e :: todo) (F.key e) v) :
    Advances F C seen todo (F.key e) (C.apply v e) := by
  simpa [Advances] using h

/-- A new row with its effects before it. -/
lemma Lawful.advances_snoc {Good : List ρ → Prop} (hL : Lawful F C Good) {seen : List ρ}
    {row : ρ} {k : κ} (hgood : Good (seen ++ [row])) :
    Advances F C (seen ++ [row]) (F.effects row) k (C.load k seen) :=
  (hL.load_snoc _ _ _ hgood).symm

variable (F C) in
/-- The value of the key agrees with the rows, once the pending effects are made. -/
structure CoherentAt (k : κ) (seen : List ρ) (s : Reader τ ρ ε κ ν) : Prop where
  cache : ∀ v, s.cache k = some v → Advances F C seen s.stage.pending k v
  prev : ∀ row e prev todo rows, s.stage = .writing row e prev todo rows → F.key e = k →
    Advances F C seen (e :: todo) k prev

variable (F C) in
/-- The loads of the key agree with the rows, and no pending effect bears on them. -/
def LoadsAt (k : κ) (seen : List ρ) (s : Reader τ ρ ε κ ν) : Prop :=
  ∀ t v, s.loads t = some (k, v) → v = C.load k seen ∧ ∀ e ∈ s.stage.pending, F.key e ≠ k

/-- Making the first pending effect keeps a value coherent. -/
lemma CoherentAt.update {k : κ} {seen : List ρ} {s t : Reader τ ρ ε κ ν} {e : ε} {todo : List ε}
    {v : ν} (h : CoherentAt F C k seen s) (hs : s.stage.pending = e :: todo)
    (ht : t.stage.pending = todo)
    (hw : ∀ row e prev todo rows, t.stage ≠ .writing row e prev todo rows)
    (hcache : t.cache = Function.update s.cache (F.key e) (some (C.apply v e)))
    (hv : F.key e = k → Advances F C seen (e :: todo) k v) : CoherentAt F C k seen t := by
  refine ⟨fun w hk => ?_, fun row e prev todo rows heq => (hw row e prev todo rows heq).elim⟩
  rw [ht]
  rw [hcache] at hk
  by_cases hkey : F.key e = k
  · subst hkey
    simp only [Function.update_self, Option.some.injEq] at hk
    exact hk ▸ (hv rfl).apply
  · rw [Function.update_of_ne (Ne.symm hkey)] at hk
    have hbefore := h.cache w hk
    rw [hs] at hbefore
    exact hbefore.skip hkey

/-- What the thread does depends on the loads of a cell only through the cache. -/
lemma Works.congr {C' : Cell ρ ε κ ν} (hC : C'.apply = C.apply) {s t : Reader τ ρ ε κ ν}
    {evs : List (Event ρ ε)} (hw : Works F C s t evs) : Works F C' s t evs := by
  cases hw with
  | done hs => exact .done hs
  | take hs => exact .take hs
  | finish hs => exact .finish hs
  | absent hs hc => exact .absent hs hc
  | found hs hc => exact .found hs hc
  | lost hs hc => exact .lost hs hc
  | changed hs hc =>
      rw [← hC]
      exact .changed hs hc
  | read hs hc => exact .read hs hc
  | wrote hs =>
      rw [← hC]
      exact .wrote hs

/-- The position moves when a row is handed over, and then only. -/
lemma Works.position_eq {s t : Reader τ ρ ε κ ν} {evs : List (Event ρ ε)} (hw : Works F C s t evs)
    (hnext : s.next? = none) (hlive : t.stage ≠ .dead) : t.position F = s.position F := by
  cases hw with
  | take hs => simp [Reader.next?, hs] at hnext
  | lost hs => exact absurd rfl hlive
  | done hs | finish hs | absent hs _ | found hs _ | changed hs _ | read hs _ | wrote hs =>
      simp [Reader.position, hs]

/-- One operation of the thread within a row keeps a value coherent. -/
lemma Works.coherentAt {k : κ} {seen : List ρ} {s t : Reader τ ρ ε κ ν} {evs : List (Event ρ ε)}
    (hw : Works F C s t evs) (hnext : s.next? = none) (h : CoherentAt F C k seen s)
    (hlive : t.stage ≠ .dead) : CoherentAt F C k seen t := by
  cases hw with
  | take hs => simp [Reader.next?, hs] at hnext
  | lost hs => exact absurd rfl hlive
  | done hs | finish hs | found hs _ =>
      exact ⟨by simpa [hs, Stage.pending] using h.cache, by simp⟩
  | @absent row e todo rows hs hc =>
      refine ⟨fun v hv => ?_, by simp⟩
      have hne : F.key e ≠ k := by
        rintro rfl
        simp [hc] at hv
      have hbefore := h.cache v hv
      simp only [hs, Stage.pending] at hbefore
      exact hbefore.skip hne
  | @changed row e todo rows v hs hc =>
      refine h.update (by rw [hs]; rfl) rfl (by simp) rfl fun hkey => ?_
      have hv := h.cache v (hkey ▸ hc)
      rwa [hs] at hv
  | @read row e todo rows v hs hc =>
      refine ⟨by simpa [hs, Stage.pending] using h.cache, ?_⟩
      rintro row' e' prev todo' rows' heq hkey
      simp only [Stage.writing.injEq] at heq
      obtain ⟨-, rfl, rfl, rfl, -⟩ := heq
      have hv := h.cache v (hkey ▸ hc)
      rwa [hs] at hv
  | @wrote row e prev todo rows hs =>
      exact h.update (by rw [hs]; rfl) rfl (by simp) rfl (h.prev row e prev todo rows hs)

/-- The thread does not touch the loads, and only finishes pending effects within a row. -/
lemma Works.loadsAt {k : κ} {seen : List ρ} {s t : Reader τ ρ ε κ ν} {evs : List (Event ρ ε)}
    (hw : Works F C s t evs) (hnext : s.next? = none) (h : LoadsAt F C k seen s) :
    LoadsAt F C k seen t := by
  have hsub : t.loads = s.loads ∧ ∀ e ∈ t.stage.pending, e ∈ s.stage.pending := by
    cases hw with
    | take hs => simp [Reader.next?, hs] at hnext
    | done hs | finish hs | absent hs _ | found hs _ | lost hs _ | changed hs _ | read hs _
    | wrote hs => exact ⟨rfl, by simp +contextual [hs, Stage.pending]⟩
  intro t' v hv
  obtain ⟨hload, hpending⟩ := h t' v (hsub.1 ▸ hv)
  exact ⟨hload, fun e he => hpending e (hsub.2 e he)⟩

/-- Handing over a row keeps the values coherent: its effects are pending now. -/
lemma CoherentAt.take {Good : List ρ → Prop} (hL : Lawful F C Good) {k : κ} {seen : List ρ}
    {s : Reader τ ρ ε κ ν} {mark : ℤ} {row : ρ} {rows : List ρ}
    (hs : s.stage = .polling mark (row :: rows)) (hgood : Good (seen ++ [row]))
    (h : CoherentAt F C k seen s) :
    CoherentAt F C k (seen ++ [row]) { s with stage := .calling row (F.effects row) rows } := by
  refine ⟨fun v hv => ?_, by simp⟩
  have hbefore : v = C.load k seen :=
    (advances_iff_eq (by simp [hs, Stage.pending])).mp (h.cache v hv)
  exact hbefore ▸ hL.advances_snoc hgood

/-- Handing over a row keeps the loads of a key that it has no effect on. -/
lemma LoadsAt.take {Good : List ρ → Prop} (hL : Lawful F C Good) {k : κ} {seen : List ρ}
    {s : Reader τ ρ ε κ ν} {row : ρ} {rows : List ρ} (hgood : Good (seen ++ [row]))
    (hok : ∀ t v, s.loads t = some (k, v) → ∀ e ∈ F.effects row, F.key e ≠ k)
    (h : LoadsAt F C k seen s) :
    LoadsAt F C k (seen ++ [row]) { s with stage := .calling row (F.effects row) rows } := by
  intro t v hv
  have hnone := hok t v hv
  refine ⟨?_, hnone⟩
  rw [(h t v hv).1]
  exact (advances_iff_eq hnone).mp (hL.advances_snoc hgood)

omit [DecidableEq κ] in
/-- Where the next row stands in an ordered log. -/
lemma InStep.next {s : Site τ ρ ε κ ν} (hin : InStep F s) {mark : ℤ} {row : ρ} {rows : List ρ}
    (hs : s.reader.stage = .polling mark (row :: rows)) :
    upTo F s.log (F.id row) = s.begun F ++ [row] ∧ s.begun F ++ [row] <+: s.log := by
  obtain ⟨fresh, hfresh⟩ := hin.split (by simp [hs])
  simp only [hs, Stage.ahead, List.append_assoc, List.cons_append] at hfresh
  exact ⟨upTo_eq_snoc hin.sorted hfresh, rows ++ fresh, by rw [← List.append_cons, ← hfresh]⟩

variable [DecidableEq τ]

/-- A thread that has ended stays so. -/
lemma Steps.live {s t : Site τ ρ ε κ ν} {a : Act τ ρ κ} {evs : List (Event ρ ε)}
    (hstep : Steps F C s a t evs) (hlive : t.reader.stage ≠ .dead) : s.reader.stage ≠ .dead := by
  cases hstep with
  | commit | current | query | store | evict => exact hlive
  | poll hs _ | outOfSync hs _ | fail hs _ => simp [hs]
  | work hw =>
      cases hw with
      | done hs | take hs | finish hs | absent hs _ | found hs _ | lost hs _ | changed hs _
      | read hs _ | wrote hs => simp [hs]

/-- One step in order keeps a value of a live follower coherent, if what it stores is. The
cell `C'` of the coherence has the effects of that of the follower. -/
lemma Steps.coherentAt {Good : List ρ → Prop} {C' : Cell ρ ε κ ν} (hC : C'.apply = C.apply)
    (hL : Lawful F C' Good) {k : κ} {s t : Site τ ρ ε κ ν} {a : Act τ ρ κ}
    {evs : List (Event ρ ε)} (hstep : Steps F C s a t evs)
    (horder : InOrder F Good s a) (hreached : s.reader.position F ≤ lastId F s.log)
    (hin : InStep F s) (hgood : Good s.log) (hlive : t.reader.stage ≠ .dead)
    (hstore : s.reader.cache k = none → LoadsAt F C' k (s.begun F) s.reader)
    (h : CoherentAt F C' k (s.begun F) s.reader) : CoherentAt F C' k (t.begun F) t.reader := by
  cases hstep with
  | commit hstart _ =>
      rw [begun_commit hreached hstart horder.1]
      exact h
  | poll hs _ =>
      have hbegun : s.begun F = upTo F s.log s.reader.latest := by
        simp [Site.begun, Reader.position, hs]
      rw [hbegun] at h
      change CoherentAt F C' k (upTo F s.log s.reader.latest) _
      exact ⟨by simpa [hs, Stage.pending] using h.cache, by simp⟩
  | current => exact h
  | query => exact ⟨h.cache, h.prev⟩
  | outOfSync | fail => exact absurd rfl hlive
  | @work r evs hw =>
      cases hnext : s.reader.next? with
      | none =>
          have hkeep := (hw.congr hC).coherentAt hnext h hlive
          rwa [Site.begun, hw.position_eq hnext hlive]
      | some row =>
          cases hw with
          | take hs =>
              obtain ⟨hbegun, hpre⟩ := hin.next hs
              obtain ⟨rest, hrest⟩ := hpre
              have htake := h.take hL hs (hL.prefix_good _ rest (hrest ▸ hgood))
              rwa [← hbegun] at htake
          | done hs | finish hs | absent hs _ | found hs _ | lost hs _ | changed hs _ | read hs _
          | wrote hs => simp [Reader.next?, hs] at hnext
  | @store t k' v hl =>
      refine ⟨fun w hw => ?_, h.prev⟩
      dsimp only at hw
      split at hw
      · rename_i hc
        by_cases hk : k' = k
        · subst hk
          simp only [Function.update_self, Option.some.injEq] at hw
          obtain ⟨hload, hnone⟩ := hstore hc t v hl
          exact (advances_iff_eq hnone).mpr (hw ▸ hload)
        · exact h.cache w (by simpa [Function.update_of_ne (Ne.symm hk)] using hw)
      · exact h.cache w hw
  | @evict k' =>
      refine ⟨fun w hw => ?_, h.prev⟩
      by_cases hk : k = k'
      · simp [hk] at hw
      · exact h.cache w (by simpa [Function.update_of_ne hk] using hw)

/-- One careful step in order keeps the loads of a key coherent. -/
lemma Steps.loadsAt {Good : List ρ → Prop} (hL : Lawful F C Good) {k : κ}
    {s t : Site τ ρ ε κ ν} {a : Act τ ρ κ} {evs : List (Event ρ ε)} (hstep : Steps F C s a t evs)
    (horder : InOrder F Good s a) (hcareful : Careful F k s a)
    (hreached : s.reader.position F ≤ lastId F s.log) (hin : InStep F s) (hgood : Good s.log)
    (hlive : t.reader.stage ≠ .dead) (h : LoadsAt F C k (s.begun F) s.reader) :
    LoadsAt F C k (t.begun F) t.reader := by
  cases hstep with
  | commit hstart _ =>
      rw [begun_commit hreached hstart horder.1]
      exact h
  | poll hs _ =>
      have hbegun : s.begun F = upTo F s.log s.reader.latest := by
        simp [Site.begun, Reader.position, hs]
      rw [hbegun] at h
      change LoadsAt F C k (upTo F s.log s.reader.latest) _
      intro t v hv
      simpa [hs, Stage.pending] using h t v hv
  | current | evict => exact h
  | outOfSync | fail => exact absurd rfl hlive
  | @work r evs hw =>
      cases hnext : s.reader.next? with
      | none =>
          have hkeep := hw.loadsAt hnext h
          rwa [Site.begun, hw.position_eq hnext hlive]
      | some row =>
          cases hw with
          | @take mark row' rows hs =>
              obtain ⟨hbegun, hpre⟩ := hin.next hs
              obtain ⟨rest, hrest⟩ := hpre
              have htake : LoadsAt F C k (s.begun F ++ [row'])
                  { s.reader with stage := .calling row' (F.effects row') rows } :=
                h.take hL (hL.prefix_good _ rest (hrest ▸ hgood))
                  (hcareful row' (by simp [Reader.next?, hs]))
              rwa [← hbegun] at htake
          | done hs | finish hs | absent hs _ | found hs _ | lost hs _ | changed hs _ | read hs _
          | wrote hs => simp [Reader.next?, hs] at hnext
  | @query t k' hc hl =>
      intro t' v hv
      by_cases ht : t' = t
      · subst ht
        simp only [Function.update_self, Option.some.injEq, Prod.mk.injEq] at hv
        obtain ⟨rfl, rfl⟩ := hv
        exact ⟨(load_begun hL hgood hin (hcareful rfl)).symm, (hcareful rfl).2⟩
      · exact h t' v (by simpa [Function.update_of_ne ht] using hv)
  | @store t k' v' hl =>
      intro t' v hv
      by_cases ht : t' = t
      · simp [ht] at hv
      · exact h t' v (by simpa [Function.update_of_ne ht] using hv)

section Runs

variable {log₀ : List ρ} {p₀ : ℤ} {ok : Site τ ρ ε κ ν → Act τ ρ κ → Prop}
  {Good : List ρ → Prop}

/-- What every commit keeps is true of the log. -/
lemma log_of_commit {P : List ρ → Prop} (h₀ : P log₀)
    (hok : ∀ s row, ok s (.commit row) → P s.log → P (s.log ++ [row])) {s : Site τ ρ ε κ ν}
    (h : (follower F C log₀ p₀).Run ok s) : P s.log := by
  refine h.invariant (P := fun s => P s.log) ?_ ?_
  · rintro s ⟨rfl, -, -⟩
    exact h₀
  · intro s a t _ hoka hs hstep
    have hsteps := steps_of_step F C hstep
    generalize Site.events F C s a = evs at hsteps
    cases hsteps with
    | commit => exact hok _ _ hoka hs
    | poll | current | outOfSync | fail | work | query | store | evict => exact hs

/-- In a run in order the log stays good. -/
lemma good_log (hgood : Good log₀) (hok : ∀ s a, ok s a → InOrder F Good s a)
    {s : Site τ ρ ε κ ν} (h : (follower F C log₀ p₀).Run ok s) : Good s.log :=
  log_of_commit hgood (fun s row hcommit _ => (hok s (.commit row) hcommit).2) h

/-- **Coherence**: when the log grows in order and the loads of the key are careful, what a
live follower holds of the key agrees with the rows up to its position. -/
theorem coherent (hL : Lawful F C Good) (hsorted : log₀.Pairwise fun r s => F.id r < F.id s)
    (hgood : Good log₀) {k : κ} (hok : ∀ s a, ok s a → InOrder F Good s a ∧ Careful F k s a)
    {s : Site τ ρ ε κ ν} (h : (follower F C log₀ p₀).Run ok s)
    (hlive : s.reader.stage ≠ .dead) :
    CoherentAt F C k (s.begun F) s.reader ∧ LoadsAt F C k (s.begun F) s.reader := by
  have horder : ∀ s a, ok s a → InOrder F Good s a := fun s a h => (hok s a h).1
  refine h.invariant (P := fun s => s.reader.stage ≠ .dead →
    CoherentAt F C k (s.begun F) s.reader ∧ LoadsAt F C k (s.begun F) s.reader) ?_ ?_ hlive
  · rintro s ⟨rfl, -, -⟩ -
    exact ⟨⟨by simp [Reader.boot], by simp [Reader.boot]⟩, by simp [LoadsAt, Reader.boot]⟩
  · intro s a t hrun hoka ih hstep hlive
    have hsteps := steps_of_step F C hstep
    obtain ⟨bs, hbs⟩ := hrun.emits (Site.events F C)
    obtain ⟨hcache, hloads⟩ := ih (hsteps.live hlive)
    have hin := inStep hsorted horder hrun
    have hgood' := good_log hgood horder hrun
    exact ⟨hsteps.coherentAt rfl hL (hok s a hoka).1 (order hbs).reached hin hgood' hlive
        (fun _ => hloads) hcache,
      hsteps.loadsAt hL (hok s a hoka).1 (hok s a hoka).2 (order hbs).reached hin hgood' hlive
        hloads⟩

/-- **A settled entry is exact**: no row or effect is left that bears on its key, so the cached
value is what a load of the log would give. -/
theorem cached_eq_load (hL : Lawful F C Good)
    (hsorted : log₀.Pairwise fun r s => F.id r < F.id s) (hgood : Good log₀) {k : κ}
    (hok : ∀ s a, ok s a → InOrder F Good s a ∧ Careful F k s a) {s : Site τ ρ ε κ ν}
    (h : (follower F C log₀ p₀).Run ok s) (hlive : s.reader.stage ≠ .dead) {v : ν}
    (hset : s.Settled F k) (hv : s.reader.cache k = some v) : v = C.load k s.log := by
  have horder : ∀ s a, ok s a → InOrder F Good s a := fun s a h => (hok s a h).1
  rw [← load_begun hL (good_log hgood horder h) (inStep hsorted horder h) hset]
  exact (advances_iff_eq hset.2).mp ((coherent hL hsorted hgood hok h hlive).1.cache v hv)

end Runs

/-! ### Drift -/

section Additive

variable [AddCommGroup ν] {δ : ε → ν}

variable (C) in
/-- The cell whose loads are off by `d`. -/
def shift (d : ν) : Cell ρ ε κ ν := { C with load := fun k rows => d + C.load k rows }

omit [DecidableEq κ] in
lemma foldl_apply_eq (hadd : ∀ v e, C.apply v e = v + δ e) (v : ν) (es : List ε) :
    es.foldl C.apply v = v + (es.map δ).sum := by
  induction es generalizing v with
  | nil => simp
  | cons e es ih => rw [List.foldl_cons, ih, hadd, List.map_cons, List.sum_cons, add_assoc]

lemma Lawful.shift {Good : List ρ → Prop} (hL : Lawful F C Good)
    (hadd : ∀ v e, C.apply v e = v + δ e) (d : ν) : Lawful F (shift C d) Good := by
  refine ⟨hL.prefix_good, fun log row k hgood => ?_⟩
  have h := hL.load_snoc log row k hgood
  rw [foldl_apply_eq hadd] at h
  rw [foldl_apply_eq (C := Follower.shift C d) hadd]
  simp only [Follower.shift, h, add_assoc]

omit [DecidableEq τ] in
lemma advances_shift_iff (hadd : ∀ v e, C.apply v e = v + δ e) {d : ν} {seen : List ρ}
    {todo : List ε} {k : κ} {v : ν} : Advances F (shift C d) seen todo k v ↔
      v + ((todo.filter (F.key · = k)).map δ).sum - C.load k seen = d := by
  rw [Advances, foldl_apply_eq (C := shift C d) hadd, sub_eq_iff_eq_add]
  rfl

variable (F C δ) in
/-- How far a value of the key is from that of the rows up to the position, when the pending
effects are counted. -/
def Site.drift (s : Site τ ρ ε κ ν) (k : κ) (v : ν) : ν :=
  v + ((s.reader.stage.pending.filter (F.key · = k)).map δ).sum - C.load k (s.begun F)

/-- The steps of a run in order that do not drop the key. -/
def Keeps (F : Feed ρ ε κ) (Good : List ρ → Prop) (k : κ) (s : Site τ ρ ε κ ν)
    (a : Act τ ρ κ) : Prop :=
  InOrder F Good s a ∧ a ≠ .move (.evict k)

omit [AddCommGroup ν] in
/-- An entry goes only when it is dropped. -/
lemma Steps.cached {s t : Site τ ρ ε κ ν} {a : Act τ ρ κ} {evs : List (Event ρ ε)} {k : κ}
    (hstep : Steps F C s a t evs) (ha : a ≠ .move (.evict k)) (h : s.reader.cache k ≠ none) :
    t.reader.cache k ≠ none := by
  -- a written entry is there, and the others are not changed
  have update : ∀ k' (v : ν), Function.update s.reader.cache k' (some v) k ≠ none := by
    intro k' v
    by_cases hk : k = k'
    · simp [hk]
    · rwa [Function.update_of_ne hk]
  cases hstep with
  | commit | poll | current | outOfSync | fail | query => exact h
  | work hw =>
      cases hw with
      | done | take | finish | absent | found | lost | read => exact h
      | changed | wrote => exact update _ _
  | @store t k' v hl =>
      dsimp only
      split
      · exact update _ _
      · exact h
  | @evict k' =>
      have hk : k ≠ k' := fun heq => ha (by rw [heq])
      simpa [Function.update_of_ne hk] using h

/-- **Drift is permanent**: as long as the entry stays cached, no row that is handed over and
no load of another entry changes how far its value is off. -/
theorem drift_const {log₀ : List ρ} {p₀ : ℤ} {Good : List ρ → Prop} (hL : Lawful F C Good)
    (hadd : ∀ v e, C.apply v e = v + δ e)
    (hsorted : log₀.Pairwise fun r s => F.id r < F.id s) (hgood : Good log₀)
    {s t : Site τ ρ ε κ ν} (hs : (follower F C log₀ p₀).Run (InOrder F Good) s) {k : κ}
    (hbetween : ∀ row e prev todo rows, s.reader.stage = .writing row e prev todo rows →
      F.key e ≠ k)
    {v : ν} (hv : s.reader.cache k = some v)
    (hlater : (follower F C log₀ p₀).LaterBy (Keeps F Good k) s t)
    (hlive : t.reader.stage ≠ .dead) :
    ∃ w, t.reader.cache k = some w ∧ t.drift F C δ k w = s.drift F C δ k v := by
  set d := s.drift F C δ k v with hd
  have hkeep : t.reader.cache k ≠ none ∧ (t.reader.stage ≠ .dead →
      CoherentAt F (shift C d) k (t.begun F) t.reader) := by
    clear hlive
    induction hlater with
    | refl =>
        refine ⟨by simp [hv], fun _ => ⟨fun w hw => ?_, fun row e prev todo rows hstage hkey =>
          absurd hkey (hbetween row e prev todo rows hstage)⟩⟩
        obtain rfl : v = w := by simpa [hv] using hw
        exact (advances_shift_iff hadd).mpr rfl
    | @tail t u hst hlast ih =>
        obtain ⟨a, ⟨horder, hne⟩, hstep⟩ := hlast
        have hrun := hs.laterBy (fun _ _ h => h.1) hst
        have hsteps := steps_of_step F C hstep
        obtain ⟨bs, hbs⟩ := hrun.emits (Site.events F C)
        refine ⟨hsteps.cached hne ih.1, fun hlive => ?_⟩
        exact hsteps.coherentAt (show (shift C d).apply = C.apply from rfl) (hL.shift hadd d) horder
          (order hbs).reached (inStep hsorted (fun _ _ h => h) hrun)
          (good_log hgood (fun _ _ h => h) hrun) hlive (fun hnone => absurd hnone ih.1)
          (ih.2 (hsteps.live hlive))
  obtain ⟨w, hw⟩ := Option.ne_none_iff_exists'.mp hkeep.1
  exact ⟨w, hw, (advances_shift_iff hadd).mp ((hkeep.2 hlive).cache w hw)⟩

end Additive

end Follower

end FinOpsPipeline
