import FinOpsPipeline.Bank.System

/-!
The balance readers of the bank as followers of its ledger.

* `Ids`: the ids of the rows are given out once.
* `readerAct`, `Steps.reader`: what a step of the bank is for one of its readers.
* `reader_follows`: in a run of the bank each reader is, from its start on, a follower of the
  ledger; a guard of the bank can be passed on to it.
* `Loaded`, `loaded_of_filled`: where an entry of a reader comes from, in the steps of the bank.
-/

namespace FinOpsPipeline

namespace Bank

open Follower

variable {ι τ ω : Type*} [DecidableEq ι] [DecidableEq τ] [DecidableEq ω] {d : Deployment}

/-! ### The ids of the rows -/

/-- Each id is given out once: to a row of the ledger or to one that is being written. -/
structure Ids (d : Deployment) (s : State ι τ ω) : Prop where
  placed : WellPlaced (feed d.localRoutingNum) s.log
  nonneg : 0 ≤ s.nextId
  below : ∀ t ∈ s.log, t.transactionId < s.nextId
  saving : ∀ t w tx transactionId timestamp, s.phase t = .saving w tx transactionId timestamp →
    0 ≤ transactionId ∧ transactionId < s.nextId ∧
      transactionId ∉ s.log.map Transaction.transactionId
  distinct : ∀ t t' w w' tx tx' transactionId timestamp timestamp',
    s.phase t = .saving w tx transactionId timestamp →
    s.phase t' = .saving w' tx' transactionId timestamp' → t = t'

omit [DecidableEq ι] [DecidableEq τ] [DecidableEq ω] in
/-- A step that keeps the rows, the next id and the rows being written keeps the ids. -/
lemma Ids.of_eq {s s' : State ι τ ω} (h : Ids d s) (hlog : s'.log = s.log)
    (hid : s'.nextId = s.nextId)
    (hsaving : ∀ t w tx transactionId timestamp,
      s'.phase t = .saving w tx transactionId timestamp →
        s.phase t = .saving w tx transactionId timestamp) : Ids d s' := by
  refine ⟨hlog ▸ h.placed, hid ▸ h.nonneg, ?_, ?_, ?_⟩
  · rw [hlog, hid]
    exact h.below
  · intro t w tx transactionId timestamp hp
    rw [hlog, hid]
    exact h.saving t w tx transactionId timestamp (hsaving _ _ _ _ _ hp)
  · intro t t' w w' tx tx' transactionId timestamp timestamp' hp hp'
    exact h.distinct t t' w w' tx tx' transactionId timestamp timestamp' (hsaving _ _ _ _ _ hp)
      (hsaving _ _ _ _ _ hp')

lemma Steps.ids {s s' : State ι τ ω} {a : Act ι τ ω} (hstep : Steps d s a s') (h : Ids d s) :
    Ids d s' := by
  have hsaving : ∀ t w tx transactionId timestamp,
      s'.phase t = .saving w tx transactionId timestamp →
        s.phase t = .saving w tx transactionId timestamp ∨
          (a = .insert t ∧ transactionId = s.nextId) := by
    intro t w tx transactionId timestamp hp
    rcases hstep.saving hp with hold | ⟨hinsert, -, hid, -⟩
    · exact .inl hold
    · exact .inr ⟨hinsert, hid⟩
  cases hstep with
  | tick | boot | run | rejected | admitted | refused | hit | miss | got | getMiss | answered
  | loaded | remembered | aborted =>
      exact h.of_eq rfl rfl fun t w tx transactionId timestamp hp =>
        (hsaving t w tx transactionId timestamp hp).resolve_right (by simp)
  | @inserted t w tx hphase =>
      have hlt : s.nextId < s.nextId + 1 := Int.lt_succ _
      refine ⟨h.placed, h.nonneg.trans hlt.le, fun r hr => (h.below r hr).trans hlt, ?_, ?_⟩
      · intro t' w' tx' transactionId timestamp hp
        rcases hsaving _ _ _ _ _ hp with hold | ⟨-, rfl⟩
        · obtain ⟨hnonneg, hbelow, hfresh⟩ := h.saving _ _ _ _ _ hold
          exact ⟨hnonneg, hbelow.trans hlt, hfresh⟩
        · refine ⟨h.nonneg, hlt, fun hmem => ?_⟩
          obtain ⟨r, hr, heq⟩ := List.mem_map.mp hmem
          exact absurd (h.below r hr) (heq ▸ lt_irrefl _)
      · intro t₁ t₂ w₁ w₂ tx₁ tx₂ transactionId timestamp₁ timestamp₂ h₁ h₂
        rcases hsaving _ _ _ _ _ h₁ with hold₁ | ⟨hi₁, rfl⟩ <;>
          rcases hsaving _ _ _ _ _ h₂ with hold₂ | ⟨hi₂, hid⟩
        · exact h.distinct _ _ _ _ _ _ _ _ _ hold₁ hold₂
        · exact absurd (h.saving _ _ _ _ _ hold₁).2.1 (by omega)
        · exact absurd (h.saving _ _ _ _ _ hold₂).2.1 (by omega)
        · simp_all
  | @committed t w tx transactionId timestamp hphase =>
      obtain ⟨hnonneg, hbelow, hfresh⟩ := h.saving _ _ _ _ _ hphase
      refine ⟨⟨?_, ?_⟩, h.nonneg, ?_, ?_, ?_⟩
      · have hnodup := h.placed.nodup
        simp only [State.setPhase, State.append, List.map_append, List.map_cons, List.map_nil]
        refine List.nodup_append.mpr ⟨hnodup, by simp, ?_⟩
        intro x hx y hy hxy
        exact hfresh (by simpa [feed, Transfer.row, hxy ▸ List.mem_singleton.mp hy] using hx)
      · intro r hr
        rcases List.mem_append.mp hr with hr | hr
        · exact h.placed.after r hr
        · rw [List.mem_singleton.mp hr]
          exact (show (-1 : ℤ) < 0 by decide).trans_le hnonneg
      · intro r hr
        rcases List.mem_append.mp hr with hr | hr
        · exact h.below r hr
        · rw [List.mem_singleton.mp hr]
          exact hbelow
      · intro t' w' tx' transactionId' timestamp' hp
        have hold := (hsaving _ _ _ _ _ hp).resolve_right (by simp)
        obtain ⟨hnonneg', hbelow', hfresh'⟩ := h.saving _ _ _ _ _ hold
        refine ⟨hnonneg', hbelow', ?_⟩
        simp only [State.setPhase, State.append, List.map_append, List.mem_append, not_or]
        refine ⟨hfresh', ?_⟩
        rintro hmem
        have hid : transactionId' = transactionId := by simpa [Transfer.row] using hmem
        subst hid
        have hthread := h.distinct _ _ _ _ _ _ _ _ _ hold hphase
        subst hthread
        simp at hp
      · intro t₁ t₂ w₁ w₂ tx₁ tx₂ transactionId timestamp₁ timestamp₂ h₁ h₂
        exact h.distinct _ _ _ _ _ _ _ _ _ ((hsaving _ _ _ _ _ h₁).resolve_right (by simp))
          ((hsaving _ _ _ _ _ h₂).resolve_right (by simp))

section Runs

variable {log₀ : List Transaction} {ok : State ι τ ω → Act ι τ ω → Prop}

/-- In every run each id is given out once. -/
lemma ids {s : State ι τ ω} (h : (bank d log₀).Run ok s) : Ids d s := by
  refine h.invariant (P := Ids d) ?_ ?_
  · rintro s ⟨hfounded, now, nextId, hnonneg, hbelow, rfl⟩
    exact ⟨hfounded.placed, hnonneg, hbelow, by simp, by simp⟩
  · intro s a s' _ _ hs hstep
    exact (steps_of_step d hstep).ids hs

end Runs

/-! ### One reader -/

/-- What a step of the bank is for its reader `i`. -/
inductive Follows (s : State ι τ ω) (i : ι) :
    Act ι τ ω → Follower.Act τ Transaction String → Prop where
  | run {b : Background} : Follows s i (.run i b) (.move b.move)
  | ask {t : τ} {w : ω} {token : String} {tx : Transfer} : s.phase t = .checked w token tx →
      Follows s i (.ask t i) (.move (.query t tx.fromAccountNum))
  | get {t : τ} {header : Option String} {a : String} :
      Follows s i (.get t i header a) (.move (.query t a))
  | answer {t : τ} {w : ω} {tx : Transfer} : s.phase t = .loading w tx i →
      Follows s i (.answer t) (.move (.store t))
  | lookup {t : τ} : s.phase t = .lookup i → Follows s i (.answer t) (.move (.store t))
  | commit {t : τ} {w : ω} {tx : Transfer} {transactionId timestamp : ℤ} :
      s.phase t = .saving w tx transactionId timestamp →
      Follows s i (.commit t) (.commit (tx.row transactionId timestamp))

/-- The query that a request makes of a reader; none when it is refused or answered from the
cache. -/
def queryOf (d : Deployment) (s : State ι τ ω) (t : τ) (i : ι) (header : Option String)
    (accountId : String) : Option (Follower.Act τ Transaction String) :=
  match authorize d.verify s.now header accountId, (s.readers i).bind (·.cache accountId) with
  | .ok _, none => some (.move (.query t accountId))
  | _, _ => none

/-- What a step makes reader `i` do, or its ledger. -/
def readerAct (d : Deployment) (i : ι) (s : State ι τ ω) :
    Act ι τ ω → Option (Follower.Act τ Transaction String)
  | .run j b => if j = i then some (.move b.move) else none
  | .ask t j =>
      match s.phase t with
      | .checked _ token tx =>
          if j = i then queryOf d s t i (some ("Bearer " ++ token)) tx.fromAccountNum else none
      | _ => none
  | .get t j header a => if j = i then queryOf d s t i header a else none
  | .answer t =>
      match s.phase t with
      | .loading _ _ j => if j = i then some (.move (.store t)) else none
      | .lookup j => if j = i then some (.move (.store t)) else none
      | _ => none
  | .commit t =>
      match s.phase t with
      | .saving _ tx transactionId timestamp => some (.commit (tx.row transactionId timestamp))
      | _ => none
  | _ => none

/-- The reader `i` with the ledger that it follows. -/
def State.site (s : State ι τ ω) (r : BalanceReader τ) : Site τ Transaction Posting String ℤ :=
  ⟨s.log, r⟩

omit [DecidableEq ι] [DecidableEq ω] in
lemma site_move {s : State ι τ ω} {r r' : BalanceReader τ} {m : Move τ String}
    (h : r.move (feed d.localRoutingNum) (balanceCell d.localRoutingNum) s.log m = some r') :
    Site.step (feed d.localRoutingNum) (balanceCell d.localRoutingNum) (s.site r) (.move m) =
      some ⟨s.log, r'⟩ := by
  simp [Site.step, State.site, h]

omit [DecidableEq τ] [DecidableEq ω] in
/-- After a move of reader `j`, reader `i` has moved or is as before. -/
lemma setReader_readers {s : State ι τ ω} {i j : ι} {r r₁ : BalanceReader τ} (r' : BalanceReader τ)
    (hr : s.readers i = some r) (hr₁ : s.readers j = some r₁) :
    (i = j ∧ r = r₁ ∧ (s.setReader j r').readers i = some r') ∨
      (j ≠ i ∧ (s.setReader j r').readers i = some r) := by
  by_cases hij : i = j
  · subst hij
    refine .inl ⟨rfl, ?_, by simp [State.setReader]⟩
    simpa [hr] using hr₁
  · exact .inr ⟨Ne.symm hij, by simpa [State.setReader, Function.update_of_ne hij] using hr⟩

/-- What a step is for reader `i`, with the reader and its ledger before it. -/
def readerStep (d : Deployment) (i : ι) (x : State ι τ ω × Act ι τ ω) :
    Option (Site τ Transaction Posting String ℤ × Follower.Act τ Transaction String) :=
  match x.1.readers i, readerAct d i x.1 x.2 with
  | some r, some b => some (x.1.site r, b)
  | _, _ => none

/-- What the thread of reader `i` hands over or finishes in a step. -/
def readerEvents (d : Deployment) (i : ι) (s : State ι τ ω) (a : Act ι τ ω) :
    List (Follower.Event Transaction Posting) :=
  match readerStep d i (s, a) with
  | some (site, b) => Site.events (feed d.localRoutingNum) (balanceCell d.localRoutingNum) site b
  | none => []

omit [DecidableEq τ] [DecidableEq ω] in
lemma readerStep_some {i : ι} {s : State ι τ ω} {a : Act ι τ ω} {r : BalanceReader τ}
    (hr : s.readers i = some r) :
    readerStep d i (s, a) = (readerAct d i s a).map fun b => (s.site r, b) := by
  simp only [readerStep, hr]
  cases readerAct d i s a <;> rfl

omit [DecidableEq τ] [DecidableEq ω] in
/-- The events of the steps are those of the steps of the reader. -/
lemma readerEvents_flatMap (i : ι) (xs : List (State ι τ ω × Act ι τ ω)) :
    xs.flatMap (fun x => readerEvents d i x.1 x.2) =
      (xs.filterMap (readerStep d i)).flatMap fun y =>
        Site.events (feed d.localRoutingNum) (balanceCell d.localRoutingNum) y.1 y.2 := by
  induction xs with
  | nil => rfl
  | cons x xs ih =>
      rw [List.flatMap_cons, ih]
      cases hx : readerStep d i x with
      | none =>
          rw [List.filterMap_cons_none hx, readerEvents, hx, List.nil_append]
      | some y =>
          rw [List.filterMap_cons_some hx, List.flatMap_cons, readerEvents, hx]

omit [DecidableEq ι] [DecidableEq τ] [DecidableEq ω] in
lemma queryOf_eq_none {s : State ι τ ω} {t : τ} {i : ι} {header : Option String} {a : String}
    (h : (∃ e, authorize d.verify s.now header a = .error e) ∨
      ∃ r balance, s.readers i = some r ∧ r.cache a = some balance) :
    queryOf d s t i header a = none := by
  rcases h with ⟨e, he⟩ | ⟨r, balance, hr, hc⟩
  · rw [queryOf, he]
  · rw [queryOf, hr, Option.bind_some, hc]
    split <;> simp_all

omit [DecidableEq ι] [DecidableEq τ] [DecidableEq ω] in
lemma queryOf_eq_some {s : State ι τ ω} {t : τ} {i : ι} {header : Option String} {a : String}
    {r : BalanceReader τ} (ha : authorize d.verify s.now header a = .ok ())
    (hr : s.readers i = some r) (hc : r.cache a = none) :
    queryOf d s t i header a = some (.move (.query t a)) := by
  rw [queryOf, ha, hr, Option.bind_some, hc]

/-- **A step of the bank is a step of its readers**: a reader that has started does nothing, or
the step of a follower of the ledger. -/
lemma Steps.reader {s s' : State ι τ ω} {a : Act ι τ ω} (hstep : Steps d s a s') (h : Ids d s)
    {i : ι} {r : BalanceReader τ} (hr : s.readers i = some r) :
    ∃ r', s'.readers i = some r' ∧
      ((readerAct d i s a = none ∧ s'.site r' = s.site r) ∨
        ∃ b, readerAct d i s a = some b ∧ Follows s i a b ∧
          Site.step (feed d.localRoutingNum) (balanceCell d.localRoutingNum) (s.site r) b =
            some (s'.site r')) := by
  cases hstep with
  | tick | rejected | admitted | inserted | remembered | aborted =>
      exact ⟨r, hr, .inl ⟨rfl, rfl⟩⟩
  | @got t j header a hnone =>
      refine ⟨r, hr, .inl ⟨?_, rfl⟩⟩
      by_cases hj : j = i
      · rw [readerAct, if_pos hj, queryOf_eq_none (hj ▸ hnone)]
      · rw [readerAct, if_neg hj]
  | @refused t j w token tx e hphase he =>
      refine ⟨r, hr, .inl ⟨?_, rfl⟩⟩
      simp only [readerAct, hphase, queryOf_eq_none (.inl ⟨e, he⟩), ite_self]
  | @hit t j w token tx r₁ balance hphase _ hr₁ hc =>
      refine ⟨r, hr, .inl ⟨?_, rfl⟩⟩
      by_cases hj : j = i
      · simp only [readerAct, hphase, queryOf_eq_none (.inr ⟨r₁, balance, hj ▸ hr₁, hc⟩), ite_self]
      · simp only [readerAct, hphase, if_neg hj]
  | @boot j reached hnone =>
      have hij : i ≠ j := by
        rintro rfl
        simp [hr] at hnone
      exact ⟨r, by simpa [State.setReader, Function.update_of_ne hij] using hr, .inl ⟨rfl, rfl⟩⟩
  | @run j b r₁ r' hr₁ hmove =>
      rcases setReader_readers r' hr hr₁ with ⟨rfl, rfl, hnew⟩ | ⟨hne, hold⟩
      · exact ⟨r', hnew, .inr ⟨_, if_pos rfl, .run, site_move hmove⟩⟩
      · exact ⟨r, hold, .inl ⟨if_neg hne, rfl⟩⟩
  | @miss t j w token tx r₁ r' hphase hr₁ hc hmove ha =>
      rcases setReader_readers r' hr hr₁ with ⟨rfl, rfl, hnew⟩ | ⟨hne, hold⟩
      · refine ⟨r', hnew, .inr ⟨_, ?_, .ask hphase, site_move hmove⟩⟩
        simp only [readerAct, hphase, if_true, queryOf_eq_some ha hr hc]
      · exact ⟨r, hold, .inl ⟨by simp only [readerAct, hphase, if_neg hne], rfl⟩⟩
  | @getMiss t j header a r₁ r' hphase hr₁ hmove ha hc =>
      rcases setReader_readers r' hr hr₁ with ⟨rfl, rfl, hnew⟩ | ⟨hne, hold⟩
      · refine ⟨r', hnew, .inr ⟨_, ?_, .get, site_move hmove⟩⟩
        rw [readerAct, if_pos rfl, queryOf_eq_some ha hr hc]
      · exact ⟨r, hold, .inl ⟨if_neg hne, rfl⟩⟩
  | @answered t j w tx r₁ r' a balance hphase hr₁ hload hmove =>
      rcases setReader_readers r' hr hr₁ with ⟨rfl, rfl, hnew⟩ | ⟨hne, hold⟩
      · exact ⟨r', hnew, .inr ⟨_, by simp only [readerAct, hphase, if_true],
          .answer hphase, site_move hmove⟩⟩
      · exact ⟨r, hold, .inl ⟨by simp only [readerAct, hphase, if_neg hne], rfl⟩⟩
  | @loaded t j r₁ r' hphase hr₁ hmove =>
      rcases setReader_readers r' hr hr₁ with ⟨rfl, rfl, hnew⟩ | ⟨hne, hold⟩
      · exact ⟨r', hnew, .inr ⟨_, by simp only [readerAct, hphase, if_true],
          .lookup hphase, site_move hmove⟩⟩
      · exact ⟨r, hold, .inl ⟨by simp only [readerAct, hphase, if_neg hne], rfl⟩⟩
  | @committed t w tx transactionId timestamp hphase =>
      obtain ⟨hnonneg, -, hfresh⟩ := h.saving _ _ _ _ _ hphase
      refine ⟨r, hr, .inr ⟨_, by simp only [readerAct, hphase], .commit hphase, ?_⟩⟩
      have hstart : (feed d.localRoutingNum).start <
          (feed d.localRoutingNum).id (tx.row transactionId timestamp) :=
        (show (-1 : ℤ) < 0 by decide).trans_le hnonneg
      exact if_pos ⟨hstart, hfresh⟩

section Runs

variable {log₀ : List Transaction} {ok : State ι τ ω → Act ι τ ω → Prop}

/-- The position from which a reader starts: that of the last row, when the ledger is reached. -/
def bootPosition (d : Deployment) (s : State ι τ ω) (reached : Bool) : ℤ :=
  if reached then lastId (feed d.localRoutingNum) s.log else (feed d.localRoutingNum).start

/-- A reader starts from the ledger as it is then. -/
lemma Steps.reader_new {s s' : State ι τ ω} {a : Act ι τ ω} (hstep : Steps d s a s') {i : ι}
    (hnone : s.readers i = none) {r : BalanceReader τ} (hr : s'.readers i = some r) :
    s'.log = s.log ∧
      ∃ reached, a = .boot i reached ∧ r = Reader.boot (bootPosition d s reached) := by
  cases hstep with
  | tick | rejected | admitted | refused | hit | got | inserted | committed | remembered
  | aborted => exact absurd hr (by simp [State.setPhase, State.takeId, State.append,
      State.remember, hnone])
  | @boot j reached =>
      by_cases hij : i = j
      · subst hij
        have hboot :
            Reader.boot (if reached then lastId (feed d.localRoutingNum) s.log else -1) = r := by
          simpa [State.setReader] using hr
        exact ⟨rfl, reached, rfl, hboot.symm⟩
      · simp [State.setReader, Function.update_of_ne hij, hnone] at hr
  | @run j _ r₁ _ hr₁ | @miss _ j _ _ _ r₁ _ _ hr₁ | @getMiss _ j _ _ r₁ _ _ hr₁
  | @answered _ j _ _ r₁ _ _ _ _ hr₁ | @loaded _ j r₁ _ _ hr₁ =>
      have hij : i ≠ j := by
        rintro rfl
        simp [hnone] at hr₁
      simp [State.setPhase, State.setReader, Function.update_of_ne hij, hnone] at hr

/-- The ledger is append-only. -/
lemma Steps.log_grows {s s' : State ι τ ω} {a : Act ι τ ω} (hstep : Steps d s a s') :
    s.log <+: s'.log := by
  cases hstep with
  | committed => exact List.prefix_append _ _
  | tick | boot | run | rejected | admitted | refused | hit | miss | got | getMiss | answered
  | loaded | inserted | remembered | aborted => exact List.prefix_rfl

variable (d) in
/-- The reader `i` has been started in one of the steps, and has followed the ledger since. -/
def FollowsSince (log₀ : List Transaction) (i : ι)
    (ok' : Site τ Transaction Posting String ℤ → Follower.Act τ Transaction String → Prop)
    (s : State ι τ ω) (r : BalanceReader τ) (xs : List (State ι τ ω × Act ι τ ω)) : Prop :=
  ∃ before s₁ reached after, xs = before ++ (s₁, .boot i reached) :: after ∧
    log₀ <+: s₁.log ∧ s₁.log <+: s.log ∧
      (follower (feed d.localRoutingNum) (balanceCell d.localRoutingNum) s₁.log
        (bootPosition d s₁ reached)).History ok' (s.site r) (xs.filterMap (readerStep d i))

/-- **The readers of the bank are followers of its ledger**: in every run, a reader has been
started on a ledger that the present one begins with, and has followed it since. -/
theorem reader_follows
    (ok' : Site τ Transaction Posting String ℤ → Follower.Act τ Transaction String → Prop) {i : ι}
    (hok : ∀ s a r b, (bank d log₀).Run ok s → ok s a → s.readers i = some r →
      Follows s i a b → ok' (s.site r) b)
    {s : State ι τ ω} {xs : List (State ι τ ω × Act ι τ ω)}
    (h : (bank d log₀).History ok s xs) {r : BalanceReader τ} (hr : s.readers i = some r) :
    FollowsSince d log₀ i ok' s r xs := by
  have key : log₀ <+: s.log ∧ (s.readers i = none → xs.filterMap (readerStep d i) = []) ∧
      ∀ r, s.readers i = some r → FollowsSince d log₀ i ok' s r xs := by
    refine h.invariant (P := fun s xs => log₀ <+: s.log ∧
      (s.readers i = none → xs.filterMap (readerStep d i) = []) ∧
        ∀ r, s.readers i = some r → FollowsSince d log₀ i ok' s r xs) ?_ ?_
    · rintro s ⟨-, now, nextId, -, -, rfl⟩
      exact ⟨List.prefix_rfl, fun _ => rfl, by simp⟩
    · rintro s a s' xs hrun hoka ⟨hlog, hnone, hsome⟩ hstep
      have hsteps := steps_of_step d hstep
      have hids := ids hrun.run
      refine ⟨hlog.trans hsteps.log_grows, fun hnone' => ?_, fun r hr => ?_⟩
      · cases hri : s.readers i with
        | none => simp [hnone hri, readerStep, hri]
        | some r =>
            obtain ⟨r', hr', -⟩ := hsteps.reader hids hri
            simp [hr'] at hnone'
      · cases hri : s.readers i with
        | none =>
            obtain ⟨hsame, reached, rfl, rfl⟩ := hsteps.reader_new hri hr
            refine ⟨xs, s, reached, [], rfl, hlog, hsame ▸ List.prefix_rfl, ?_⟩
            have hempty : (xs ++ [(s, Act.boot i reached)]).filterMap (readerStep d i) = [] := by
              simp [hnone hri, readerStep, hri]
            rw [hempty]
            refine .init ⟨?_, hids.placed, ?_⟩
            · rw [State.site, hsame]
            · cases reached
              · exact .inr rfl
              · exact .inl rfl
        | some r₀ =>
            obtain ⟨before, s₁, reached, after, hxs, hbegin, hpre, hhistory⟩ := hsome r₀ hri
            obtain ⟨r', hr', hcases⟩ := hsteps.reader hids hri
            obtain rfl : r' = r := by simpa [hr'] using hr
            refine ⟨before, s₁, reached, after ++ [(s, a)], by rw [hxs]; simp, hbegin,
              hpre.trans hsteps.log_grows, ?_⟩
            have hstep' := (readerStep_some hri : readerStep d i (s, a) = _)
            rcases hcases with ⟨hact, hsame⟩ | ⟨b, hact, hfollows, hmove⟩
            · rw [hact, Option.map_none] at hstep'
              rw [List.filterMap_append, List.filterMap_cons_none hstep', hsame]
              simpa using hhistory
            · rw [hact, Option.map_some] at hstep'
              rw [List.filterMap_append, List.filterMap_cons_some hstep']
              exact hhistory.step (hok s a r₀ b hrun.run hoka hri hfollows) hmove
  exact key.2.2 r hr

/-- The same for what the thread of the reader does. -/
lemma reader_emits
    (ok' : Site τ Transaction Posting String ℤ → Follower.Act τ Transaction String → Prop) {i : ι}
    (hok : ∀ s a r b, (bank d log₀).Run ok s → ok s a → s.readers i = some r →
      Follows s i a b → ok' (s.site r) b)
    {s : State ι τ ω} {evs : List (Follower.Event Transaction Posting)}
    (h : (bank d log₀).Emits ok (readerEvents d i) s evs) {r : BalanceReader τ}
    (hr : s.readers i = some r) :
    ∃ log₁ p₁, log₀ <+: log₁ ∧ log₁ <+: s.log ∧
      (follower (feed d.localRoutingNum) (balanceCell d.localRoutingNum) log₁ p₁).Emits ok'
        (Site.events (feed d.localRoutingNum) (balanceCell d.localRoutingNum)) (s.site r) evs := by
  obtain ⟨xs, hxs, rfl⟩ := h.exists_history
  obtain ⟨before, s₁, reached, after, -, hbegin, hpre, hhistory⟩ := reader_follows ok' hok hxs hr
  refine ⟨s₁.log, bootPosition d s₁ reached, hbegin, hpre, ?_⟩
  rw [readerEvents_flatMap]
  exact hhistory.emits _

end Runs

/-! ### Where an entry comes from -/

/-- The entry of an account in reader `i` was loaded in the steps of a run: a thread has queried
the account when the ledger was `view`, and has stored what it read when there was no entry. The
entry has been kept since, and the reader has done the postings `since` on the account. -/
def Loaded (d : Deployment) (i : ι) (accountId : String) (xs : List (State ι τ ω × Act ι τ ω))
    (view : List Transaction) (since : List Posting) : Prop :=
  ∃ t before x₁ site₁ during x₂ site₂ after,
    xs = before ++ x₁ :: during ++ x₂ :: after ∧
      readerStep d i x₁ = some (site₁, .move (.query t accountId)) ∧ view = site₁.log ∧
      readerStep d i x₂ = some (site₂, .move (.store t)) ∧
      site₂.reader.cache accountId = none ∧
      (∀ x ∈ during, ∀ site, readerStep d i x ≠ some (site, .move (.store t))) ∧
      (∀ x ∈ after, ∀ site b, readerStep d i x = some (site, b) →
        Kept (feed d.localRoutingNum) site accountId) ∧
      since = (handled (after.flatMap fun x => readerEvents d i x.1 x.2)).filter
        (·.accountId = accountId)

omit [DecidableEq τ] [DecidableEq ω] in
/-- What was loaded in the steps of the reader was loaded in those of the bank. -/
lemma loaded_of_filled {i : ι} {xs : List (State ι τ ω × Act ι τ ω)} {a : String} {v : ℤ}
    (h : Filled (feed d.localRoutingNum) (balanceCell d.localRoutingNum)
      (xs.filterMap (readerStep d i)) a v) :
    ∃ view since, Loaded d i a xs view since ∧
      v = since.foldl (balanceCell d.localRoutingNum).apply
        ((balanceCell d.localRoutingNum).load a view) := by
  obtain ⟨t, before, site₁, during, site₂, after, heq, hduring, hc, hkept, rfl⟩ := h
  obtain ⟨ys, zs, rfl, hys, hzs⟩ := List.filterMap_eq_append_iff.mp heq
  obtain ⟨before', ws, rfl, -, hws⟩ := List.filterMap_eq_append_iff.mp hys
  obtain ⟨skipped, x₁, during', rfl, -, hx₁, rfl⟩ := List.filterMap_eq_cons_iff.mp hws
  obtain ⟨quiet, x₂, after', rfl, hquiet, hx₂, rfl⟩ := List.filterMap_eq_cons_iff.mp hzs
  refine ⟨site₁.log, _, ⟨t, before' ++ skipped, x₁, site₁, during' ++ quiet, x₂, site₂, after',
    by simp, hx₁, rfl, hx₂, hc, ?_, ?_, rfl⟩, ?_⟩
  · intro x hx site hstore
    rcases List.mem_append.mp hx with hx | hx
    · exact hduring _ (List.mem_filterMap.mpr ⟨x, hx, hstore⟩) rfl
    · exact absurd ((hquiet x hx).symm.trans hstore) nofun
  · exact fun x hx site b hb => hkept (site, b) (List.mem_filterMap.mpr ⟨x, hx, hb⟩)
  · rw [readerEvents_flatMap]
    rfl

omit [DecidableEq τ] [DecidableEq ω] in
/-- The query had seen a beginning of the ledger, and the postings since are the last ones. -/
lemma Loaded.sourced {i : ι} {a : String} {xs : List (State ι τ ω × Act ι τ ω)}
    {view : List Transaction} {since : List Posting} (h : Loaded d i a xs view since)
    {log : List Transaction} (hlogs : ∀ y ∈ xs.filterMap (readerStep d i), y.1.log <+: log) :
    view <+: log ∧
      since <:+ (handled (xs.flatMap fun x => readerEvents d i x.1 x.2)).filter
        (·.accountId = a) := by
  obtain ⟨t, before, x₁, site₁, during, x₂, site₂, after, rfl, hx₁, rfl, -, -, -, -, rfl⟩ := h
  refine ⟨hlogs _ (List.mem_filterMap.mpr ⟨x₁, by simp, hx₁⟩), ?_⟩
  rw [List.append_cons _ x₂, List.flatMap_append, handled_append, List.filter_append]
  exact List.suffix_append _ _

end Bank

end FinOpsPipeline
