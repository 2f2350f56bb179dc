import Mathlib.Logic.Relation

/-!
Labelled transition systems with a partial step function, and the rules that
carry a property along their runs.

* `System.Run ok`: the states reached by runs whose every step meets the guard
  `ok`; `System.Reachable` is the case of no guard.
* `System.Run.invariant`: the induction rule, one obligation for the initial
  states and one for a step; `System.Run.mono` weakens the guard.
* `System.Run.project`: a run is one of every system that it maps to.
* `System.Later`: what some further steps lead to, with `System.Later.preserves`
  for a property that every step keeps.
* `System.LaterBy`: the same for guarded steps; `System.Run.laterBy` continues a run.
* `System.schedule`: the execution of a list of labels, and
  `System.exists_run_of_schedule`, which turns an evaluated schedule into a run.
* `System.Emits`: the guarded runs with what their steps put out, with its induction
  rule `System.Emits.invariant`; `System.exists_emits_of_trace` turns an evaluated list of
  labels into one.
* `System.History`: the guarded runs with their steps; `System.Emits.exists_history` and
  `System.History.emits` go between the two.
* `System.Emits.acknowledged`: the writes that the outputs confirm are among those made.
* `Preceded`: each member of a list is as the ones before it ask for;
  `System.Emits.preceded` shows it of the outputs of a run.
-/

namespace FinOpsPipeline

/-- Each member of the list is related to the list of those before it. -/
def Preceded {β : Type*} (Q : List β → β → Prop) (bs : List β) : Prop :=
  ∀ before b after, bs = before ++ b :: after → Q before b

namespace Preceded

variable {β : Type*} {Q : List β → β → Prop} {bs cs : List β}

lemma nil : Preceded Q [] := by
  intro before b after h
  simp at h

lemma singleton {b : β} (h : Q [] b) : Preceded Q [b] := by
  intro before c after heq
  obtain ⟨rfl, rfl, -⟩ : before = [] ∧ c = b ∧ after = [] := by
    cases before with
    | nil => simpa [eq_comm] using heq
    | cons => simp at heq
  exact h

lemma append (h : Preceded Q bs) (hnew : Preceded (fun before => Q (bs ++ before)) cs) :
    Preceded Q (bs ++ cs) := by
  intro before b after heq
  rcases List.append_eq_append_iff.mp heq with ⟨middle, rfl, hcs⟩ | ⟨middle, hbs, hafter⟩
  · exact hnew middle b after hcs
  · cases middle with
    | nil =>
        obtain rfl : bs = before := by simpa using hbs
        simpa using hnew [] b after hafter.symm
    | cons c middle =>
        obtain ⟨rfl, -⟩ := List.cons.inj hafter
        exact h before b middle hbs

lemma snoc {b : β} (h : Preceded Q bs) (hb : Q bs b) : Preceded Q (bs ++ [b]) :=
  h.append (.singleton (by simpa using hb))

lemma left (h : Preceded Q (bs ++ cs)) : Preceded Q bs := by
  rintro before b after rfl
  exact h before b (after ++ cs) (by simp)

end Preceded

/-- A labelled transition system: its initial states and its partial step. -/
structure System (σ α : Type*) where
  init : σ → Prop
  step : σ → α → Option σ

namespace System

variable {σ α : Type*} (S : System σ α)

/-- The states reached from an initial state by steps that all meet `ok`. -/
inductive Run (ok : σ → α → Prop) : σ → Prop where
  | init {s : σ} : S.init s → Run ok s
  | step {s t : σ} {a : α} : Run ok s → ok s a → S.step s a = some t → Run ok t

/-- The states reached by unguarded runs. -/
abbrev Reachable : σ → Prop := S.Run fun _ _ => True

/-- The states that some further steps lead to. -/
def Later : σ → σ → Prop :=
  Relation.ReflTransGen fun s t => ∃ a, S.step s a = some t

variable {S} {ok ok' : σ → α → Prop}

/-- The invariant rule: a property of the initial states that every guarded
step from a reached state preserves holds of every reached state. -/
theorem Run.invariant {P : σ → Prop} (hinit : ∀ s, S.init s → P s)
    (hstep : ∀ s a t, S.Run ok s → ok s a → P s → S.step s a = some t → P t)
    {s : σ} (hs : S.Run ok s) : P s := by
  induction hs with
  | init h => exact hinit _ h
  | step hrun hok h ih => exact hstep _ _ _ hrun hok ih h

/-- A run that meets a guard meets every weaker guard. -/
theorem Run.mono (h : ∀ s a, ok s a → ok' s a) {s : σ} (hs : S.Run ok s) : S.Run ok' s := by
  induction hs with
  | init hi => exact .init hi
  | step _ hok ht ih => exact .step ih (h _ _ hok) ht

/-- A run whose steps are steps of another system, or leave its state as it is, is a run there. -/
theorem Run.project {σ' α' : Type*} {T : System σ' α'} {ok' : σ' → α' → Prop} {f : σ → σ'}
    (hinit : ∀ s, S.init s → T.init (f s))
    (hstep : ∀ s a t, S.Run ok s → ok s a → S.step s a = some t →
      f t = f s ∨ ∃ b, ok' (f s) b ∧ T.step (f s) b = some (f t))
    {s : σ} (hs : S.Run ok s) : T.Run ok' (f s) := by
  induction hs with
  | init h => exact .init (hinit _ h)
  | step hrun hok h ih =>
      rcases hstep _ _ _ hrun hok h with heq | ⟨b, hb, ht⟩
      · rwa [heq]
      · exact ih.step hb ht

/-- What follows a reachable state is reachable. -/
lemma Reachable.later {s t : σ} (hs : S.Reachable s) (h : S.Later s t) : S.Reachable t := by
  induction h with
  | refl => exact hs
  | tail _ hlast ih =>
      obtain ⟨a, ha⟩ := hlast
      exact ih.step trivial ha

/-- A property that every step from a reachable state keeps is kept forever. -/
theorem Later.preserves {P : σ → Prop}
    (hstep : ∀ s a t, S.Reachable s → P s → S.step s a = some t → P t)
    {s t : σ} (hs : S.Reachable s) (h : S.Later s t) (hP : P s) : P t := by
  induction h with
  | refl => exact hP
  | tail hprev hlast ih =>
      obtain ⟨a, ha⟩ := hlast
      exact hstep _ a _ (hs.later hprev) ih ha

variable (S) (ok) in
/-- The states that some further guarded steps lead to. -/
def LaterBy : σ → σ → Prop :=
  Relation.ReflTransGen fun s t => ∃ a, ok s a ∧ S.step s a = some t

/-- A run goes on by steps that meet its guard. -/
lemma Run.laterBy (hok : ∀ s a, ok' s a → ok s a) {s t : σ} (hs : S.Run ok s)
    (h : S.LaterBy ok' s t) : S.Run ok t := by
  induction h with
  | refl => exact hs
  | tail _ hlast ih =>
      obtain ⟨a, hoka, ha⟩ := hlast
      exact ih.step (hok _ a hoka) ha

section Schedule

variable (S) (ok) [∀ s a, Decidable (ok s a)]

/-- The execution of a list of labels, `none` once a label is refused by the
guard or by the step. -/
def schedule (s : σ) : List α → Option σ
  | [] => some s
  | a :: as => if ok s a then (S.step s a).bind (schedule · as) else none

variable {S ok}

lemma Run.of_schedule {as : List α} :
    ∀ {s t : σ}, S.Run ok s → S.schedule ok s as = some t → S.Run ok t := by
  induction as with
  | nil =>
      intro s t hs h
      cases h
      exact hs
  | cons a as ih =>
      intro s t hs h
      rw [schedule] at h
      split at h
      · rename_i hok
        obtain ⟨u, hu, hrest⟩ := Option.bind_eq_some_iff.mp h
        exact ih (hs.step hok hu) hrest
      · cases h

/-- A schedule from a state leads to a later one. -/
lemma LaterBy.of_schedule {as : List α} :
    ∀ {s t : σ}, S.schedule ok s as = some t → S.LaterBy ok s t := by
  induction as with
  | nil =>
      intro s t h
      cases h
      exact .refl
  | cons a as ih =>
      intro s t h
      rw [schedule] at h
      split at h
      · rename_i hok
        obtain ⟨u, hu, hrest⟩ := Option.bind_eq_some_iff.mp h
        exact .head ⟨a, hok, hu⟩ (ih hrest)
      · cases h

/-- A schedule that ends in a state with the property `p` is a run to one. -/
theorem exists_run_of_schedule (S : System σ α) (ok : σ → α → Prop) [∀ s a, Decidable (ok s a)]
    {s : σ} (hs : S.init s) (as : List α) (p : σ → Bool)
    (h : (S.schedule ok s as).any p = true) : ∃ t, S.Run ok t ∧ p t = true := by
  cases ht : S.schedule ok s as with
  | none => simp [ht] at h
  | some t => exact ⟨t, (Run.init hs).of_schedule ht, by simpa [ht] using h⟩

end Schedule

section Outputs

variable {σ α β : Type*} (S : System σ α)

/-- The states reached by guarded runs, with the outputs of their steps in order. -/
inductive Emits (ok : σ → α → Prop) (out : σ → α → List β) : σ → List β → Prop where
  | init {s : σ} : S.init s → Emits ok out s []
  | step {s t : σ} {a : α} {bs : List β} :
      Emits ok out s bs → ok s a → S.step s a = some t → Emits ok out t (bs ++ out s a)

variable {S} {ok : σ → α → Prop} {out : σ → α → List β}

lemma Emits.run {s : σ} {bs : List β} (h : S.Emits ok out s bs) : S.Run ok s := by
  induction h with
  | init hi => exact .init hi
  | step _ hok hstep ih => exact .step ih hok hstep

/-- Every guarded run has outputs. -/
lemma Run.emits (out : σ → α → List β) {s : σ} (h : S.Run ok s) :
    ∃ bs, S.Emits ok out s bs := by
  induction h with
  | init hi => exact ⟨[], .init hi⟩
  | step _ hok hstep ih =>
      obtain ⟨bs, hbs⟩ := ih
      exact ⟨_, hbs.step hok hstep⟩

variable (S) (ok) in
/-- The states reached by guarded runs, with the steps on the way: each state with the label of
the step made from it. -/
abbrev History : σ → List (σ × α) → Prop := S.Emits ok fun s a => [(s, a)]

/-- The outputs of a run are those of its steps. -/
lemma Emits.exists_history {s : σ} {bs : List β} (h : S.Emits ok out s bs) :
    ∃ xs, S.History ok s xs ∧ bs = xs.flatMap fun x => out x.1 x.2 := by
  induction h with
  | init hi => exact ⟨[], .init hi, rfl⟩
  | step _ hok hstep ih =>
      obtain ⟨xs, hxs, rfl⟩ := ih
      exact ⟨_, hxs.step hok hstep, by simp⟩

lemma History.emits (out : σ → α → List β) {s : σ} {xs : List (σ × α)} (h : S.History ok s xs) :
    S.Emits ok out s (xs.flatMap fun x => out x.1 x.2) := by
  induction h with
  | init hi => exact .init hi
  | step _ hok hstep ih => simpa using ih.step hok hstep

/-- The invariant rule for a property of a state and the outputs on the way to it. -/
theorem Emits.invariant {P : σ → List β → Prop} (hinit : ∀ s, S.init s → P s [])
    (hstep : ∀ s a t bs, S.Emits ok out s bs → ok s a → P s bs → S.step s a = some t →
      P t (bs ++ out s a))
    {s : σ} {bs : List β} (h : S.Emits ok out s bs) : P s bs := by
  induction h with
  | init hi => exact hinit _ hi
  | step hrun hok hs ih => exact hstep _ _ _ _ hrun hok ih hs

/-- The rule for a property of each output and those before it. -/
theorem Emits.preceded {Q : List β → β → Prop}
    (hstep : ∀ s a t bs, S.Emits ok out s bs → ok s a → S.step s a = some t →
      Preceded (fun before => Q (bs ++ before)) (out s a))
    {s : σ} {bs : List β} (h : S.Emits ok out s bs) : Preceded Q bs := by
  induction h with
  | init => exact .nil
  | step hrun hok hs ih => exact ih.append (hstep _ _ _ _ hrun hok hs)

/-- The rule for a table that only grows, by steps whose outputs confirm at most what they have
written: what has been confirmed has been written, in the same order. -/
theorem Emits.acknowledged {ρ γ : Type*} {rows : σ → List ρ} {rows₀ : List ρ} {f : ρ → γ}
    {confirms : β → Option γ} (hinit : ∀ s, S.init s → rows s = rows₀)
    (hstep : ∀ s a t, S.step s a = some t →
      ∃ written, rows t = rows s ++ written ∧
        ((out s a).filterMap confirms).Sublist (written.map f))
    {s : σ} {bs : List β} (h : S.Emits ok out s bs) :
    ∃ new, rows s = rows₀ ++ new ∧ (bs.filterMap confirms).Sublist (new.map f) := by
  induction h with
  | init hi => exact ⟨[], by rw [hinit _ hi, List.append_nil], .slnil⟩
  | step _ _ hs ih =>
      obtain ⟨new, hnew, hsub⟩ := ih
      obtain ⟨written, hwritten, hconfirmed⟩ := hstep _ _ _ hs
      refine ⟨new ++ written, ?_, ?_⟩
      · rw [hwritten, hnew, List.append_assoc]
      · rw [List.filterMap_append, List.map_append]
        exact hsub.append hconfirmed

variable (S) (ok) (out) [∀ s a, Decidable (ok s a)]

/-- The execution of a list of labels, with its outputs. -/
def trace (s : σ) : List α → Option (σ × List β)
  | [] => some (s, [])
  | a :: as =>
      if ok s a then
        (S.step s a).bind fun t => (trace t as).map fun (u, bs) => (u, out s a ++ bs)
      else none

variable {S} {ok} {out}

lemma Emits.of_trace {as : List α} : ∀ {s t : σ} {bs cs : List β}, S.Emits ok out s bs →
    S.trace ok out s as = some (t, cs) → S.Emits ok out t (bs ++ cs) := by
  induction as with
  | nil =>
      intro s t bs cs hs h
      cases h
      simpa using hs
  | cons a as ih =>
      intro s t bs cs hs h
      rw [trace] at h
      split at h
      · rename_i hok
        obtain ⟨u, hu, hrest⟩ := Option.bind_eq_some_iff.mp h
        obtain ⟨⟨v, ds⟩, htrace, heq⟩ := Option.map_eq_some_iff.mp hrest
        cases heq
        simpa using ih (hs.step hok hu) htrace
      · cases h

/-- A list of labels whose execution has a property `p` is a run with its outputs. -/
theorem exists_emits_of_trace (S : System σ α) (ok : σ → α → Prop) (out : σ → α → List β)
    [∀ s a, Decidable (ok s a)] {s : σ} (hs : S.init s) (as : List α) (p : σ → List β → Bool)
    (h : ((S.trace ok out s as).any fun x => p x.1 x.2) = true) :
    ∃ t bs, S.Emits ok out t bs ∧ p t bs = true := by
  obtain ⟨⟨t, bs⟩, htrace, hp⟩ := (Option.any_eq_true _ _).mp h
  exact ⟨t, bs, (Emits.init hs).of_trace htrace, hp⟩

end Outputs

end System

end FinOpsPipeline
