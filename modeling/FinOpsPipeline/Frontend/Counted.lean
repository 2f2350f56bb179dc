import Mathlib.Data.Set.Insert
import FinOpsPipeline.Frontend.WaitingRoom

/-!
Whether every live session is counted.

`SCARD` of `active-users-set` is the number of sessions that admissions go by. A
session is counted by the `SADD` that follows its `SETEX`, and a heartbeat round takes
out the tokens that it found without a session some commands earlier.

* `World.counted`: the tokens in the set or between their `SETEX` and their `SADD`.
* `Transition.covered`: a step keeps every live session among these, unless a round
  takes out a token that has been admitted again.
* `active_sessions_counted`: so every live session is in the set when no call is half
  way through; `renewed_session_uncounted` is a run in which it is not.
-/

namespace FinOpsPipeline

namespace WaitingRoom

variable {C T Pod : Type} [DecidableEq C] [LinearOrder T] [DecidableEq Pod]

namespace World

/-- The tokens with a live session. -/
def liveTokens (w : World C T Pod) : Set T := {t | w.store.active.live t w.now = true}

/-- The tokens of the calls between their `SETEX` and their `SADD`. -/
def admitting (w : World C T Pod) : Set T := {t | ∃ c, (w.task c).admitted = some t}

/-- The tokens that the set counts or is about to count. -/
def counted (w : World C T Pod) : Set T := ↑w.store.activeUsers ∪ w.admitting

/-- No token that the step removes from the set has a live session, other than one
whose `SADD` is still to come. -/
def RemovesExpired (w : World C T Pod) (a : Act C T Pod) : Prop :=
  ∀ m ∈ w.removes a, m ∈ w.liveTokens → m ∈ w.admitting

/-- No call of `check_waiting_status` is half way through. -/
def NoneChecking (w : World C T Pod) : Prop := ∀ c t stage, w.task c ≠ .checking t stage

variable {cfg : Settings} {w w' : World C T Pod} {a : Act C T Pod} {c : C} {t : T}
  {s : Store T Pod} {task : Task T Pod}

/-! ### What a command does to these sets -/

section Sets

omit [LinearOrder T] [DecidableEq Pod]

/-- The tokens that the threads other than `c` have between the two commands. -/
def admittingBut (w : World C T Pod) (c : C) : Set T :=
  {t | ∃ d, d ≠ c ∧ (w.task d).admitted = some t}

lemma mem_admitting (c : C) :
    t ∈ w.admitting ↔ (w.task c).admitted = some t ∨ t ∈ w.admittingBut c := by
  constructor
  · rintro ⟨d, hd⟩
    by_cases hdc : d = c
    · exact .inl (hdc ▸ hd)
    · exact .inr ⟨d, hdc, hd⟩
  · rintro (h | ⟨d, -, hd⟩)
    · exact ⟨c, h⟩
    · exact ⟨d, hd⟩

lemma mem_admitting_put :
    t ∈ (w.put c s task).admitting ↔ task.admitted = some t ∨ t ∈ w.admittingBut c := by
  rw [mem_admitting c, put_task_self]
  refine or_congr_right (exists_congr fun d => and_congr_right fun hd => ?_)
  rw [put_task_of_ne _ _ _ _ hd]

/-- A thread that neither was nor is between the two commands does not matter. -/
lemma admitting_put (before : (w.task c).admitted = none) (after : task.admitted = none) :
    (w.put c s task).admitting = w.admitting := by
  ext t
  rw [mem_admitting_put, mem_admitting c, before, after]

/-- After its `SETEX` a token is about to be counted. -/
lemma admitting_put_setex {currentMax activeCount : ℤ}
    (here : w.task c = .checking t (.setexActive currentMax activeCount)) :
    (w.put c s (.checking t .saddActive)).admitting = insert t w.admitting := by
  ext u
  rw [mem_admitting_put, Set.mem_insert_iff, mem_admitting c, here]
  simp [Task.admitted, eq_comm]

/-- The `SADD` of `t` ends the admission of no other token. -/
lemma insert_admitting_put_count (here : w.task c = .checking t .saddActive) :
    insert t (w.put c s (.returned true 0)).admitting = w.admitting := by
  ext u
  rw [Set.mem_insert_iff, mem_admitting_put, mem_admitting c, here]
  simp [Task.admitted, eq_comm]

end Sets

omit [DecidableEq C] [LinearOrder T] [DecidableEq Pod] in
lemma noneChecking_of_free (h : ∀ c, (w.task c).Free) : w.NoneChecking := by
  intro c t stage hc
  have hfree := h c
  rw [hc] at hfree
  exact hfree

omit [DecidableEq C] [LinearOrder T] [DecidableEq Pod] in
lemma not_admitting (h : w.NoneChecking) : t ∉ w.admitting := by
  rintro ⟨c, hc⟩
  cases htask : w.task c with
  | checking u stage => exact h c u stage htask
  | _ =>
      rw [htask] at hc
      cases hc

omit [DecidableEq C] [LinearOrder T] [DecidableEq Pod] in
/-- A step that admits a token removes none. -/
lemma not_mem_removes (h : w.admits a = some t) : t ∉ w.removes a := by
  cases a with
  | next c r =>
      cases htask : w.task c with
      | checking u stage =>
          rw [removes, htask]
          exact List.not_mem_nil
      | _ =>
          rw [admits, htask] at h
          cases h
  | _ => cases h

/-! ### Every live session is counted -/

section Step

omit [DecidableEq Pod]

/-- A session begins by a `SETEX` only. -/
theorem Transition.live (h : Transition cfg w a w') (ht : t ∈ w'.liveTokens) :
    t ∈ w.liveTokens ∨ w.admits a = some t := by
  cases h with
  | tick dt hdt => exact .inl (Expiring.live_of_le (le_add_of_nonneg_right hdt) ht)
  | quiet active =>
      rw [liveTokens, Set.mem_ofPred_eq, put_store, active] at ht
      exact .inl ht
  | renew r here => exact .inl (Expiring.live_of_expire ht)
  | @register c u _ _ r here =>
      by_cases hu : t = u
      · rw [admits, here]
        exact .inr (congrArg some hu.symm)
      · exact .inl (Expiring.live_of_set hu ht)
  | count r here => exact .inl ht
  | clean r here => exact .inl ht

/-- A token becomes counted by its `SETEX` only. -/
theorem Transition.counted (h : Transition cfg w a w') (ht : t ∈ w'.counted) :
    t ∈ w.counted ∨ w.admits a = some t := by
  cases h with
  | tick dt hdt => exact .inl ht
  | quiet active activeUsers admits before after =>
      rw [World.counted, admitting_put before after, put_store, activeUsers] at ht
      exact .inl ht
  | renew r here =>
      rw [World.counted, admitting_put (by rw [here]; rfl) rfl] at ht
      exact .inl ht
  | @register c u _ _ r here =>
      rw [World.counted, admitting_put_setex here, Set.union_insert] at ht
      rw [admits, here]
      exact ht.symm.imp_right fun hu => congrArg some hu.symm
  | @count c u r here =>
      refine .inl ?_
      rw [World.counted, put_store, Finset.coe_insert, Set.insert_union, ← Set.union_insert,
        insert_admitting_put_count here] at ht
      exact ht
  | @clean c pod expired r here =>
      rw [World.counted, admitting_put (by rw [here]; rfl) rfl] at ht
      exact .inl (ht.imp_left fun hu => (Finset.mem_sdiff.mp hu).1)

/-- A counted token stays counted unless the set loses it, and an admitted one is counted. -/
theorem Transition.counted_of (h : Transition cfg w a w')
    (ht : t ∈ w.counted ∨ w.admits a = some t) :
    t ∈ w'.counted ∨ t ∈ w.removes a ∧ t ∉ w.admitting := by
  cases h with
  | tick dt hdt => exact .inl (ht.resolve_right (Option.some_ne_none t).symm)
  | quiet active activeUsers admits before after =>
      rw [World.counted, admitting_put before after, put_store, activeUsers]
      rw [admits] at ht
      exact .inl (ht.resolve_right (Option.some_ne_none t).symm)
  | renew r here =>
      rw [World.counted, admitting_put (by rw [here]; rfl) rfl]
      rw [admits, here] at ht
      exact .inl (ht.resolve_right (Option.some_ne_none t).symm)
  | @register c u _ _ r here =>
      rw [admits, here] at ht
      rw [World.counted, admitting_put_setex here, Set.union_insert]
      exact .inl (ht.symm.imp_left fun hu => (Option.some.inj hu).symm)
  | @count c u r here =>
      rw [admits, here] at ht
      rw [World.counted, put_store, Finset.coe_insert, Set.insert_union, ← Set.union_insert,
        insert_admitting_put_count here]
      exact .inl (ht.resolve_right (Option.some_ne_none t).symm)
  | @clean c pod expired r here =>
      rw [admits, here] at ht
      rw [World.counted, admitting_put (by rw [here]; rfl) rfl, removes, here]
      have hnow := ht.resolve_right (Option.some_ne_none t).symm
      by_cases hin : t ∈ w.admitting
      · exact .inl (.inr hin)
      · by_cases hmem : t ∈ expired
        · exact .inr ⟨hmem, hin⟩
        · refine .inl (.inl ?_)
          rw [put_store, Finset.mem_coe, Finset.mem_sdiff, List.mem_toFinset]
          exact ⟨hnow.resolve_right hin, hmem⟩

end Step

omit [DecidableEq Pod] in
/-- **A step keeps every live session counted** unless it removes one from the set. -/
theorem Transition.covered (h : Transition cfg w a w') (hok : w.RemovesExpired a)
    (hw : w.liveTokens ⊆ w.counted) : w'.liveTokens ⊆ w'.counted := by
  intro t ht
  have hbefore : t ∈ w.counted ∨ w.admits a = some t := (h.live ht).imp_left fun hlive => hw hlive
  refine (h.counted_of hbefore).resolve_right ?_
  rintro ⟨hremoved, hnot⟩
  obtain hlive | hadmits := h.live ht
  · exact hnot (hok t hremoved hlive)
  · exact absurd hremoved (not_mem_removes hadmits)

/-- Every live session is counted in every run whose rounds remove expired sessions only. -/
theorem run_covered (hw : (cfg.system C T Pod).Run RemovesExpired w) :
    w.liveTokens ⊆ w.counted := by
  refine hw.invariant (P := fun w => w.liveTokens ⊆ w.counted) ?_ ?_
  · rintro _ ⟨now, rfl⟩ t ht
    cases ht
  · intro w a w' _ hok hcovered hstep
    exact (step_transition hstep).covered hok hcovered

/-- **Active sessions stay counted**: in every run in which no `SREM` of a heartbeat round
takes out a token with a live session that has been counted, every live session is in
`active-users-set` whenever no call is half way through. -/
theorem active_sessions_counted (hw : (cfg.system C T Pod).Run RemovesExpired w)
    (quiet : w.NoneChecking) {t : T} (ht : t ∈ w.liveTokens) : t ∈ w.store.activeUsers :=
  (run_covered hw ht).resolve_right (not_admitting quiet)

/-- A call that admits its token at once, by the thread `true`. -/
def admission (t : ℕ) (reading : Reading ℕ ℕ) : List (Act Bool ℕ ℕ) :=
  .check true (some t) :: List.replicate 7 (.next true reading)

/-- A heartbeat round by the thread `false` up to its `SREM`, with one member to look up. -/
def roundUntilSrem (t : ℕ) : List (Act Bool ℕ ℕ) :=
  .heartbeat false 0 :: List.replicate 3 (.next false ⟨0, [], [t]⟩)

/-- The session of token 7 expires, a round finds it gone, the token is admitted again and
the round then takes it out of the set: a live session is not counted. -/
theorem renewed_session_uncounted :
    ¬ ∀ (cfg : Settings) (w : World Bool ℕ ℕ), (cfg.system Bool ℕ ℕ).Reachable w →
        w.NoneChecking → ∀ t ∈ w.liveTokens, t ∈ w.store.activeUsers := by
  intro h
  obtain ⟨w, hw, hp⟩ := System.exists_run_of_schedule ((Settings.slots 2).system Bool ℕ ℕ)
    (fun _ _ => True) ⟨0, rfl⟩
    (admission 7 ⟨0, [], []⟩ ++ .tick 60 :: roundUntilSrem 7 ++ admission 7 ⟨0, [], []⟩ ++
      List.replicate 2 (.next false ⟨0, [], []⟩))
    (fun w => decide ((w.task false).Free ∧ (w.task true).Free) &&
      w.store.active.live 7 w.now && decide (7 ∉ w.store.activeUsers))
    (by decide +kernel)
  simp only [Bool.and_eq_true, decide_eq_true_eq] at hp
  obtain ⟨⟨⟨hfalse, htrue⟩, hlive⟩, hnot⟩ := hp
  exact hnot (h _ w hw (noneChecking_of_free (Bool.forall_bool.mpr ⟨hfalse, htrue⟩)) 7 hlive)

/-- A session is renewed while a round is on its way. -/
theorem active_sessions_counted_renewal :
    ∃ w : World Bool ℕ ℕ, ((Settings.slots 2).system Bool ℕ ℕ).Run RemovesExpired w ∧
      7 ∈ w.liveTokens ∧ 7 ∈ w.store.activeUsers := by
  obtain ⟨w, hw, hp⟩ := System.exists_run_of_schedule ((Settings.slots 2).system Bool ℕ ℕ)
    (fun w a => ∀ m ∈ w.removes a, w.store.active.live m w.now = false) ⟨0, rfl⟩
    (admission 7 ⟨0, [], []⟩ ++ .tick 60 :: roundUntilSrem 7 ++
      List.replicate 2 (.next false ⟨0, [], []⟩) ++ admission 7 ⟨0, [], []⟩)
    (fun w => decide ((w.task false).Free ∧ (w.task true).Free) && w.store.active.live 7 w.now)
    (by decide +kernel)
  simp only [Bool.and_eq_true, decide_eq_true_eq] at hp
  obtain ⟨⟨hfalse, htrue⟩, hlive⟩ := hp
  have hrun : ((Settings.slots 2).system Bool ℕ ℕ).Run RemovesExpired w :=
    hw.mono fun u a hok m hm hliveM => by
      have hdead := hok m hm
      rw [show u.store.active.live m u.now = true from hliveM] at hdead
      cases hdead
  have hquiet : w.NoneChecking := noneChecking_of_free (Bool.forall_bool.mpr ⟨hfalse, htrue⟩)
  exact ⟨w, hrun, hlive, active_sessions_counted hrun hquiet hlive⟩

end World

end WaitingRoom

end FinOpsPipeline
