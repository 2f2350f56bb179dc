import Mathlib.Data.Set.Card
import FinOpsPipeline.Frontend.Counted

/-!
The capacity of the waiting room.

A call admits its token by what it read some commands earlier: the size of
`active-users-set` and a place in the queue. Until it sets the session key, other calls
may have been admitted by the same reading.

* `World.SeatFree`: at the `SETEX` of an admission a seat is still free.
* `run_capacity`: where that holds of every admission, the live sessions stay within the
  capacity; `capacity_exceeded` is a run with two admissions for one seat.
* `run_seatFree_of_current`: it holds of an admission that read the current number of
  counted sessions.
-/

namespace FinOpsPipeline

namespace WaitingRoom

variable {C T Pod : Type} [DecidableEq C] [LinearOrder T] [DecidableEq Pod]

/-- The number of sessions that the pods have room for. -/
def Settings.capacity (cfg : Settings) (pods : Finset Pod) : ℤ :=
  (max pods.card 1 : ℕ) * cfg.slotsPerPod

/-- What a call knows at each stage when all pods are seen: the capacity, and from the
check on that the number of sessions it read was below it. -/
def Stage.Sound (capacity : ℤ) : Stage → Prop
  | .scardActive currentMax => currentMax = capacity
  | .zrankWaiting currentMax activeCount => currentMax = capacity ∧ 0 ≤ activeCount
  | .zremWaiting currentMax activeCount | .zremHeartbeat currentMax activeCount
  | .setexActive currentMax activeCount | .zcardWaiting currentMax activeCount =>
      currentMax = capacity ∧ 0 ≤ activeCount ∧ activeCount < currentMax
  | _ => True

namespace World

/-- The page that a step reads, if it is a `SCAN`. -/
def scanned (w : World C T Pod) : Act C T Pod → Option (List Pod)
  | .next c r =>
      match w.task c with
      | .checking _ .scanPods => some r.podKeys
      | _ => none
  | _ => none

/-- A step that is a `SCAN` lists all of `pods` and no other. -/
def SeesAll (pods : Finset Pod) (w : World C T Pod) (a : Act C T Pod) : Prop :=
  ∀ podKeys ∈ w.scanned a, podKeys.toFinset = pods

instance (pods : Finset Pod) (w : World C T Pod) (a : Act C T Pod) :
    Decidable (w.SeesAll pods a) :=
  inferInstanceAs (Decidable (∀ podKeys ∈ w.scanned a, podKeys.toFinset = pods))

/-- At the `SETEX` of an admission fewer than `capacity` other tokens are counted. -/
def SeatFree (capacity : ℤ) (w : World C T Pod) (a : Act C T Pod) : Prop :=
  ∀ t, w.admits a = some t → (w.counted \ {t}).encard < (capacity.toNat : ℕ∞)

/-- At the `SETEX` of an admission no more other tokens are counted than the call read. -/
def Current (w : World C T Pod) : Act C T Pod → Prop
  | .next c _ => ∀ t currentMax activeCount,
      w.task c = .checking t (.setexActive currentMax activeCount) →
      (w.counted \ {t}).encard ≤ (activeCount.toNat : ℕ∞)
  | _ => True

variable {cfg : Settings} {w w' : World C T Pod} {a : Act C T Pod} {pods : Finset Pod}
  {capacity : ℤ}

omit [DecidableEq Pod] in
/-- A step keeps the counted tokens within the capacity if the seat it gives is free. -/
lemma Transition.seats (h : Transition cfg w a w') (hok : w.SeatFree capacity a)
    (hw : w.counted.encard ≤ capacity.toNat) : w'.counted.encard ≤ capacity.toNat := by
  cases hadmits : w.admits a with
  | none =>
      refine (Set.encard_le_encard fun t ht => ?_).trans hw
      exact (h.counted ht).resolve_right (by rw [hadmits]; exact (Option.some_ne_none t).symm)
  | some u =>
      have hsub : w'.counted ⊆ insert u (w.counted \ {u}) := by
        intro t ht
        rw [Set.insert_sdiff_singleton]
        obtain hold | hnew := h.counted ht
        · exact .inr hold
        · exact .inl (Option.some.inj (hadmits.symm.trans hnew)).symm
      calc w'.counted.encard
          ≤ (insert u (w.counted \ {u})).encard := Set.encard_le_encard hsub
        _ ≤ (w.counted \ {u}).encard + 1 := Set.encard_insert_le _ _
        _ ≤ capacity.toNat := Order.add_one_le_of_lt (hok u hadmits)

/-- The steps that the capacity needs: every `SCAN` sees all pods, no round takes out a
live session, and an admission sets its session key while a seat is free. -/
def KeepsSeats (cfg : Settings) (pods : Finset Pod) (w : World C T Pod) (a : Act C T Pod) :
    Prop :=
  w.SeesAll pods a ∧ w.RemovesExpired a ∧ w.SeatFree (cfg.capacity pods) a

/-- **Waiting-room capacity**: in every run over a fixed set of pods in which a seat is
still free at the `SETEX` of every admission, the live sessions stay within
`max(p, 1) * slots_per_pod`. -/
theorem run_capacity (hw : (cfg.system C T Pod).Run (KeepsSeats cfg pods) w) :
    w.liveTokens.encard ≤ ((cfg.capacity pods).toNat : ℕ∞) := by
  have hcovered : w.liveTokens ⊆ w.counted := run_covered (hw.mono fun _ _ hok => hok.2.1)
  refine (Set.encard_le_encard hcovered).trans ?_
  refine hw.invariant (P := fun w => w.counted.encard ≤ ((cfg.capacity pods).toNat : ℕ∞)) ?_ ?_
  · rintro _ ⟨now, rfl⟩
    have hempty : (⟨now, ⟨.none, ∅, ∅, ∅, .none⟩, fun _ => .idle⟩ : World C T Pod).counted = ∅ := by
      refine Set.eq_empty_of_forall_notMem fun t ht => ?_
      obtain hset | ⟨c, hc⟩ := ht
      · exact Finset.notMem_empty t hset
      · cases hc
    rw [hempty, Set.encard_empty]
    exact zero_le
  · intro w a w' _ hok hseats hstep
    exact (step_transition hstep).seats hok.2.2 hseats

/-! ### What a call has read -/

/-- **The check of a call is sound** for what the call has read. -/
lemma checkCommand_sound {now : ℚ} {r : Reading T Pod} {t : T} {s s' : Store T Pod}
    {stage stage' : Stage} (hsees : stage = .scanPods → r.podKeys.toFinset = pods)
    (hstage : stage.Sound (cfg.capacity pods))
    (h : cfg.checkCommand now r t s stage = some (s', .next stage')) :
    stage'.Sound (cfg.capacity pods) := by
  cases stage with
  | scanPods =>
      rw [Settings.checkCommand] at h
      split at h
      · rename_i hpage
        cases h
        have hlength : r.podKeys.length = pods.card := by
          rw [← hsees rfl, List.toFinset_card_of_nodup hpage.1]
        change cfg.currentMax r.podKeys = cfg.capacity pods
        rw [Settings.currentMax, Settings.capacity, hlength]
      · cases h
  | scardActive currentMax =>
      cases h
      exact ⟨hstage, Int.natCast_nonneg _⟩
  | zrankWaiting currentMax activeCount =>
      rw [Settings.checkCommand] at h
      split at h
      · rename_i pos hpos
        cases h
        split
        · exact ⟨hstage.1, hstage.2, by omega⟩
        · trivial
      · cases h
        split
        · rename_i hlt
          exact ⟨hstage.1, hstage.2, hlt⟩
        · trivial
  | zremWaiting | zremHeartbeat =>
      cases h
      exact hstage
  | zcardWaiting =>
      cases h
      split
      · exact hstage
      · trivial
  | existsActive =>
      cases h
      split <;> trivial
  | setexActive | zaddWaiting | zaddNewHeartbeat =>
      cases h
      trivial
  | _ => cases h

omit [LinearOrder T] [DecidableEq Pod] in
/-- A call that is found after a thread has moved was there before, or is the thread's own. -/
lemma checking_of_put {c d : C} {s : Store T Pod} {task : Task T Pod} {t : T} {stage : Stage}
    (hc : (w.put d s task).task c = .checking t stage) :
    w.task c = .checking t stage ∨ c = d ∧ task = .checking t stage := by
  by_cases hd : c = d
  · subst hd
    rw [put_task_self] at hc
    exact .inr ⟨rfl, hc⟩
  · rw [put_task_of_ne _ _ _ _ hd] at hc
    exact .inl hc

/-- The stage of a call after a step: it was there before, the call has just begun, or it
comes from the call's own command. -/
lemma step_checking (h : step cfg w a = some w') {c : C} {t : T} {stage' : Stage}
    (hc : w'.task c = .checking t stage') :
    w.task c = .checking t stage' ∨ stage' = .existsActive ∨
      ∃ r stage s, a = .next c r ∧ w.task c = .checking t stage ∧
        cfg.checkCommand w.now r t w.store stage = some (s, .next stage') := by
  cases a with
  | tick dt =>
      rw [step] at h
      split at h
      · cases h
        exact .inl hc
      · cases h
  | check d userToken =>
      simp only [step] at h
      split at h
      · cases userToken with
        | none =>
            cases h
            obtain hold | ⟨-, hnew⟩ := checking_of_put hc
            · exact .inl hold
            · cases hnew
        | some u =>
            cases h
            obtain hold | ⟨-, hnew⟩ := checking_of_put hc
            · exact .inl hold
            · split at hnew
              · cases hnew
                exact .inr (.inl rfl)
              · cases hnew
      · cases h
  | heartbeat d pod =>
      rw [step] at h
      split at h
      · cases h
        obtain hold | ⟨-, hnew⟩ := checking_of_put hc
        · exact .inl hold
        · cases hnew
      · cases h
  | next d r =>
      simp only [step] at h
      split at h
      · rename_i u stage here
        obtain ⟨⟨s, o⟩, ho, rfl⟩ := Option.map_eq_some_iff.mp h
        obtain hold | ⟨rfl, hnew⟩ := checking_of_put hc
        · exact .inl hold
        · cases o with
          | next next =>
              cases hnew
              exact .inr (.inr ⟨r, stage, s, rfl, here, ho⟩)
          | returned => cases hnew
      · rename_i pod stage here
        obtain ⟨⟨s, o⟩, ho, rfl⟩ := Option.map_eq_some_iff.mp h
        obtain hold | ⟨-, hnew⟩ := checking_of_put hc
        · exact .inl hold
        · cases o with
          | none | some => cases hnew
      · cases h

/-- Every call knows the capacity and has read fewer sessions by its check. -/
def Sound (capacity : ℤ) (w : World C T Pod) : Prop :=
  ∀ c t stage, w.task c = .checking t stage → stage.Sound capacity

/-- A step keeps what the calls know, when a `SCAN` sees all pods. -/
lemma step_sound (hsees : w.SeesAll pods a) (hw : w.Sound (cfg.capacity pods))
    (h : step cfg w a = some w') : w'.Sound (cfg.capacity pods) := by
  intro c t stage' hc
  obtain hold | rfl | ⟨r, stage, s, rfl, here, hcommand⟩ := step_checking h hc
  · exact hw c t stage' hold
  · trivial
  · refine checkCommand_sound (fun hscan => ?_) (hw c t stage here) hcommand
    exact hsees r.podKeys (by rw [scanned, here, hscan]; rfl)

omit [DecidableEq C] [LinearOrder T] [DecidableEq Pod] in
lemma admits_eq_some {t : T} (h : w.admits a = some t) :
    ∃ c r currentMax activeCount, a = .next c r ∧
      w.task c = .checking t (.setexActive currentMax activeCount) := by
  cases a with
  | next c r =>
      rw [admits] at h
      split at h
      · rename_i u currentMax activeCount here
        cases h
        exact ⟨c, r, currentMax, activeCount, rfl, here⟩
      · cases h
  | _ => cases h

omit [DecidableEq C] [LinearOrder T] [DecidableEq Pod] in
/-- A seat is free for a call whose reading is current. -/
lemma seatFree_of_current (hw : w.Sound capacity) (hcurrent : w.Current a) :
    w.SeatFree capacity a := by
  intro t hadmits
  obtain ⟨c, r, currentMax, activeCount, rfl, here⟩ := admits_eq_some hadmits
  obtain ⟨hmax, hcount, hlt⟩ := hw c t _ here
  refine (hcurrent t currentMax activeCount here).trans_lt ?_
  rw [Nat.cast_lt]
  omega

/-- **The check works for a current reading**: in a run in which every admission has read
the number of counted sessions that there is at its `SETEX`, a seat is free at each. -/
theorem run_seatFree_of_current
    (hw : (cfg.system C T Pod).Run
      (fun w a => w.SeesAll pods a ∧ w.RemovesExpired a ∧ w.Current a) w) :
    (cfg.system C T Pod).Run (KeepsSeats cfg pods) w := by
  refine (hw.invariant (P := fun w => (cfg.system C T Pod).Run (KeepsSeats cfg pods) w ∧
    w.Sound (cfg.capacity pods)) ?_ ?_).1
  · rintro _ ⟨now, rfl⟩
    exact ⟨.init ⟨now, rfl⟩, nofun⟩
  · rintro w a w' _ ⟨hsees, hremoves, hcurrent⟩ ⟨hrun, hsound⟩ hstep
    have hseat : w.SeatFree (cfg.capacity pods) a := seatFree_of_current hsound hcurrent
    exact ⟨hrun.step ⟨hsees, hremoves, hseat⟩ hstep, step_sound hsees hsound hstep⟩

omit [DecidableEq C] [DecidableEq Pod] in
/-- With no other call between its two commands, the set alone tells the free seats. -/
lemma seatFree_of_serial (h : ∀ t ∈ w.admits a, (∀ c, (w.task c).admitted = none) ∧
    (w.store.activeUsers.erase t).card < capacity.toNat) : w.SeatFree capacity a := by
  intro t ht
  obtain ⟨hnone, hcard⟩ := h t ht
  have hcounted : w.counted \ {t} = ↑(w.store.activeUsers.erase t) := by
    have hempty : w.admitting = ∅ := by
      refine Set.eq_empty_of_forall_notMem ?_
      rintro u ⟨c, hc⟩
      rw [hnone c] at hc
      cases hc
    rw [counted, hempty, Set.union_empty, Finset.coe_erase]
  rw [hcounted, Set.encard_coe_eq_coe_finsetCard, Nat.cast_lt]
  exact hcard

/-! ### Two admissions for one seat -/

/-- Pod 0 reports that it is alive, by the thread `true`. -/
def alive : List (Act Bool ℕ ℕ) := .heartbeat true 0 :: List.replicate 3 (.next true ⟨0, [], []⟩)

/-- The next `n` commands of a thread, every `SCAN` seeing pod 0. -/
def commands (c : Bool) (n : ℕ) : List (Act Bool ℕ ℕ) := List.replicate n (.next c ⟨0, [0], []⟩)

/-- Two tokens are admitted to the one seat of one pod. -/
theorem capacity_exceeded :
    ¬ ∀ (cfg : Settings) (pods : Finset ℕ) (w : World Bool ℕ ℕ),
        (cfg.system Bool ℕ ℕ).Run (SeesAll pods) w →
        w.liveTokens.encard ≤ ((cfg.capacity pods).toNat : ℕ∞) := by
  intro h
  obtain ⟨w, hw, hp⟩ := System.exists_run_of_schedule ((Settings.slots 1).system Bool ℕ ℕ)
    (SeesAll {0}) ⟨0, rfl⟩
    (alive ++ [.check false (some 7), .check true (some 8)] ++ commands false 6 ++ commands true 6)
    (fun w => w.store.active.live 7 w.now && w.store.active.live 8 w.now) (by decide +kernel)
  simp only [Bool.and_eq_true] at hp
  have hone : w.liveTokens.encard ≤ 1 := h (Settings.slots 1) {0} w hw
  have heq : 7 = 8 := Set.encard_le_one_iff.mp hone 7 8 hp.1 hp.2
  cases heq

/-- The same two newcomers one after the other: the second has to wait. -/
theorem run_capacity_serial :
    ∃ w : World Bool ℕ ℕ,
      ((Settings.slots 1).system Bool ℕ ℕ).Run (KeepsSeats (Settings.slots 1) {0}) w ∧
      7 ∈ w.liveTokens ∧ w.task true = .returned false 1 ∧
      w.liveTokens.encard ≤ (((Settings.slots 1).capacity ({0} : Finset ℕ)).toNat : ℕ∞) := by
  obtain ⟨w, hw, hp⟩ := System.exists_run_of_schedule ((Settings.slots 1).system Bool ℕ ℕ)
    (fun w a => w.SeesAll {0} a ∧ w.removes a = [] ∧
      ∀ t ∈ w.admits a, (∀ c, (w.task c).admitted = none) ∧ (w.store.activeUsers.erase t).card < 1)
    ⟨0, rfl⟩
    (alive ++ [.check false (some 7), .check true (some 8)] ++ commands false 7 ++ commands true 7)
    (fun w => w.store.active.live 7 w.now && decide (w.task true = .returned false 1))
    (by decide +kernel)
  have hrun : ((Settings.slots 1).system Bool ℕ ℕ).Run (KeepsSeats (Settings.slots 1) {0}) w := by
    refine hw.mono fun u a ⟨hsees, hremoves, hserial⟩ => ⟨hsees, ?_, seatFree_of_serial hserial⟩
    intro m hm
    rw [hremoves] at hm
    cases hm
  simp only [Bool.and_eq_true, decide_eq_true_eq] at hp
  exact ⟨w, hrun, hp.1, hp.2, run_capacity hrun⟩

end World

end WaitingRoom

end FinOpsPipeline
