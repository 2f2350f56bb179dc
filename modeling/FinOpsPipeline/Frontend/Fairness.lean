import Mathlib.Data.Nat.Cast.Order.Ring
import FinOpsPipeline.Frontend.Whole

/-!
The order in which the waiting room admits.

Whole calls and whole rounds follow one another, the clock readings increase and the
capacity does not shrink. A waiting token is in the window when its rank is below the
number of free seats, so that its next call admits it.

* `Room.Inv`: no waiting token has a live session, and every score in the queue is a
  clock reading of the past.
* `Room.InWindow`: the window; `inWindow_check`, `inWindow_heartbeat` keep a token in it.
* `waiting_room_fair`: a token in the window stays there until it is admitted or purged.
-/

namespace FinOpsPipeline

namespace WaitingRoom

variable {T Pod : Type} [LinearOrder T] [DecidableEq Pod]

/-! ### Runs of whole calls -/

/-- The time of the server, its store, the capacity, and the last clock reading of a pod. -/
structure Room (T Pod : Type) where
  now : ℚ
  store : Store T Pod
  currentMax : ℤ
  time : ℚ

/-- The labels: time passes, the capacity changes, a whole call with its page of pod keys
and its two readings of the clock, and a whole round with the order of the members and its
reading of the clock. -/
inductive Event (T Pod : Type) where
  | tick (dt : ℚ)
  | resize (currentMax : ℤ)
  | check (userToken : Option T) (podKeys : List Pod) (time time' : ℚ)
  | heartbeat (heartbeatPodName : Pod) (members : List T) (time : ℚ)

/-- What the surroundings decide about the commands of a whole call. -/
def callReading (podKeys : List Pod) (time time' : ℚ) : Stage → Reading T Pod
  | .zaddNewHeartbeat => ⟨time', podKeys, []⟩
  | _ => ⟨time, podKeys, []⟩

namespace Room

/-- One step. -/
def step (cfg : Settings) (w : Room T Pod) : Event T Pod → Option (Room T Pod)
  | .tick dt => if 0 ≤ dt then some { w with now := w.now + dt } else none
  | .resize currentMax => some { w with currentMax := currentMax }
  | .check userToken podKeys time time' =>
      (cfg.checkWaitingStatus w.now (callReading podKeys time time') userToken w.store).map
        fun o => { w with store := o.1, time := time' }
  | .heartbeat pod members time =>
      (podHeartbeat w.now ⟨time, [], members⟩ pod w.store).map
        fun s => { w with store := s, time := time }

/-- The readings of the clock increase, the capacity does not shrink, and every call
finds it. -/
def Steady (cfg : Settings) (w : Room T Pod) : Event T Pod → Prop
  | .tick _ => True
  | .resize currentMax => w.currentMax ≤ currentMax
  | .check _ podKeys time time' =>
      cfg.currentMax podKeys = w.currentMax ∧ w.time < time ∧ time < time'
  | .heartbeat _ _ time => w.time < time

instance (cfg : Settings) (w : Room T Pod) : DecidablePred (w.Steady cfg) := fun a =>
  match a with
  | .tick _ => isTrue trivial
  | .resize currentMax => inferInstanceAs (Decidable (w.currentMax ≤ currentMax))
  | .check _ podKeys time time' => inferInstanceAs (Decidable
      (cfg.currentMax podKeys = w.currentMax ∧ w.time < time ∧ time < time'))
  | .heartbeat _ _ time => inferInstanceAs (Decidable (w.time < time))

end Room

/-- The waiting room by whole calls and rounds, over an empty Redis. -/
def Settings.room (cfg : Settings) (T Pod : Type) [LinearOrder T] [DecidableEq Pod] :
    System (Room T Pod) (Event T Pod) where
  init w := w.store = ⟨.none, ∅, ∅, ∅, .none⟩
  step := Room.step cfg

namespace Room

variable {cfg : Settings} {w w' : Room T Pod} {a : Event T Pod} {t : T}

/-- The rank of a token in the waiting queue. -/
def rank (w : Room T Pod) (t : T) : Option ℕ := w.store.waitingQueue.zrank ZSet.byOrder t

/-- The token is in the waiting queue. -/
def Waiting (w : Room T Pod) (t : T) : Prop := ∃ score, w.store.waitingQueue.zscore t = some score

/-- A waiting token whose rank is below the number of free seats. -/
def InWindow (w : Room T Pod) (t : T) : Prop :=
  ∃ pos, w.rank t = some pos ∧ pos < w.currentMax - w.store.activeUsers.card

/-- The token has a live session. -/
def Live (w : Room T Pod) (t : T) : Prop := w.store.active.live t w.now = true

/-- What holds between the calls. -/
structure Inv (cfg : Settings) (w : Room T Pod) : Prop where
  dead : ∀ t, w.Waiting t → ¬ w.Live t
  past : ∀ t score, w.store.waitingQueue.zscore t = some score → score ≤ w.time
  enabled : ∀ t, w.Waiting t → cfg.enableWaitingRoom = true

/-- The steps, with what a whole call or round does to the store. -/
inductive Transition (cfg : Settings) (w : Room T Pod) : Event T Pod → Room T Pod → Prop where
  | tick (dt : ℚ) (hdt : 0 ≤ dt) : Transition cfg w (.tick dt) { w with now := w.now + dt }
  | resize (currentMax : ℤ) :
      Transition cfg w (.resize currentMax) { w with currentMax := currentMax }
  | through (userToken : Option T) (podKeys : List Pod) (time time' : ℚ) :
      Transition cfg w (.check userToken podKeys time time') { w with time := time' }
  | check {t : T} (podKeys : List Pod) (time time' : ℚ) {s : Store T Pod} {passed : Bool}
      {position : ℤ} (enabled : cfg.enableWaitingRoom = true)
      (checked : w.store.Checked cfg w.now t (callReading podKeys time time') s passed position) :
      Transition cfg w (.check (some t) podKeys time time') { w with store := s, time := time' }
  | heartbeat (pod : Pod) (members : List T) (time : ℚ)
      (hmembers : members.Nodup ∧ members.toFinset = w.store.activeUsers) :
      Transition cfg w (.heartbeat pod members time)
        { w with
          store := ({ w.store with podsAlive := w.store.podsAlive.set pod w.now 30 }.dropExpired
            (members.filter fun m => !w.store.active.live m w.now)).dropStale time
          time := time }

/-- **Inversion of a step.** -/
theorem step_transition (h : step cfg w a = some w') : Transition cfg w a w' := by
  cases a with
  | tick dt =>
      rw [step] at h
      split at h
      · rename_i hdt
        cases h
        exact .tick dt hdt
      · cases h
  | resize currentMax =>
      cases h
      exact .resize currentMax
  | check userToken podKeys time time' =>
      rw [step, Option.map_eq_some_iff] at h
      obtain ⟨⟨s, passed, position⟩, hcall, rfl⟩ := h
      cases userToken with
      | none =>
          cases hcall
          exact .through none podKeys time time'
      | some t =>
          simp only [Settings.checkWaitingStatus] at hcall
          split at hcall
          · rename_i henabled
            exact .check podKeys time time' henabled (runCheck_checked hcall)
          · cases hcall
            exact .through (some t) podKeys time time'
  | heartbeat pod members time =>
      rw [step, Option.map_eq_some_iff] at h
      obtain ⟨s, hround, rfl⟩ := h
      have hmembers := members_of_podHeartbeat (Option.isSome_of_eq_some hround)
      rw [podHeartbeat_eq hmembers] at hround
      cases hround
      exact .heartbeat pod members time hmembers

/-! ### The invariant -/

section Queue

omit [DecidableEq Pod]

lemma waiting_of_rank {pos : ℕ} (h : w.rank t = some pos) : w.Waiting t := by
  obtain ⟨score, hscore, -⟩ := ZSet.zrank_eq_some.mp h
  exact ⟨score, hscore⟩

/-- What a whole call for `u` does to the queue: it adds `u` with a reading of its clock,
or no token. -/
lemma zscore_of_checked {u : T} {podKeys : List Pod} {time time' score : ℚ} {s : Store T Pod}
    {passed : Bool} {position : ℤ}
    (h : w.store.Checked cfg w.now u (callReading podKeys time time') s passed position)
    (ht : s.waitingQueue.zscore t = some score) :
    w.store.waitingQueue.zscore t = some score ∨
      t = u ∧ score = time ∧ w.store.active.live u w.now = false := by
  cases h with
  | renewed | waits | newcomer => exact .inl ht
  | turn => exact .inl (ZSet.zscore_zrem ht)
  | joins dead =>
      by_cases hu : t = u
      · subst hu
        rw [Store.join, ZSet.zscore_zadd_self] at ht
        exact .inr ⟨rfl, (Option.some.inj ht).symm, dead⟩
      · rw [Store.join, ZSet.zscore_zadd_of_ne _ _ hu] at ht
        exact .inl ht

/-- A whole call for `u` begins the session of `u` only, and then `u` is not in the queue. -/
lemma live_of_checked {u : T} {reading : Stage → Reading T Pod} {s : Store T Pod} {passed : Bool}
    {position : ℤ} (h : w.store.Checked cfg w.now u reading s passed position)
    (ht : s.active.live t w.now = true) :
    w.Live t ∨ t = u ∧ s.waitingQueue.zscore t = none := by
  cases h with
  | renewed => exact .inl (Expiring.live_of_expire ht)
  | waits | joins => exact .inl ht
  | turn =>
      by_cases hu : t = u
      · subst hu
        exact .inr ⟨rfl, ZSet.zscore_zrem_self _ _⟩
      · exact .inl (Expiring.live_of_set hu ht)
  | newcomer dead rank seat nobody =>
      by_cases hu : t = u
      · exact .inr ⟨hu, ZSet.zscore_of_zcard_zero nobody⟩
      · exact .inl (Expiring.live_of_set hu ht)

end Queue

/-- **A step keeps the invariant.** -/
theorem Transition.inv (h : Transition cfg w a w') (hsteady : w.Steady cfg a) (inv : w.Inv cfg) :
    w'.Inv cfg := by
  cases h with
  | tick dt hdt =>
      refine ⟨fun t ht hlive => inv.dead t ht ?_, inv.past, inv.enabled⟩
      exact Expiring.live_of_le (le_add_of_nonneg_right hdt) hlive
  | resize => exact ⟨inv.dead, inv.past, inv.enabled⟩
  | through userToken podKeys time time' =>
      obtain ⟨-, htime, htime'⟩ := hsteady
      exact ⟨inv.dead, fun t score ht => (inv.past t score ht).trans (htime.trans htime').le,
        inv.enabled⟩
  | check podKeys time time' enabled checked =>
      obtain ⟨-, htime, htime'⟩ := hsteady
      refine ⟨?_, ?_, fun _ _ => enabled⟩
      · rintro t ⟨score, hscore⟩ hlive
        obtain hold | ⟨rfl, hnone⟩ := live_of_checked checked hlive
        · obtain hwait | ⟨rfl, -, dead⟩ := zscore_of_checked checked hscore
          · exact inv.dead t ⟨score, hwait⟩ hold
          · rw [Live, dead] at hold
            cases hold
        · rw [hnone] at hscore
          cases hscore
      · intro t score hscore
        obtain hwait | ⟨rfl, rfl, -⟩ := zscore_of_checked checked hscore
        · exact (inv.past t score hwait).trans (htime.trans htime').le
        · exact htime'.le
  | heartbeat pod members time hmembers =>
      refine ⟨?_, ?_, ?_⟩
      · rintro t ⟨score, hscore⟩
        exact inv.dead t ⟨score, ZSet.zscore_of_zremAll hscore⟩
      · intro t score hscore
        exact (inv.past t score (ZSet.zscore_of_zremAll hscore)).trans (le_of_lt hsteady)
      · rintro t ⟨score, hscore⟩
        exact inv.enabled t ⟨score, ZSet.zscore_of_zremAll hscore⟩

/-- The invariant holds in every steady run. -/
theorem run_inv (hw : (cfg.room T Pod).Run (Steady cfg) w) : w.Inv cfg := by
  refine hw.invariant (P := fun w => w.Inv cfg) ?_ ?_
  · intro w hinit
    have hnobody (t : T) : ¬ w.Waiting t := by
      rintro ⟨score, hscore⟩
      rw [show w.store = ⟨.none, ∅, ∅, ∅, .none⟩ from hinit] at hscore
      cases hscore
    exact ⟨fun t ht => absurd ht (hnobody t), fun t score ht => absurd ⟨score, ht⟩ (hnobody t),
      fun t ht => absurd ht (hnobody t)⟩
  · intro w a w' _ hsteady inv hstep
    exact (step_transition hstep).inv hsteady inv

/-! ### The window -/

/-- The step is a whole call that admits `t`. -/
def Admits (t : T) (v : Room T Pod) : Event T Pod → Prop
  | .check (some u) _ _ _ => u = t ∧ v.Live t ∧ t ∈ v.store.activeUsers
  | _ => False

/-- The step is a round in which `t` is a ghost. -/
def Purges (w : Room T Pod) (t : T) : Event T Pod → Prop
  | .heartbeat _ _ time => t ∈ w.store.staleTokens time
  | _ => False

omit [DecidableEq Pod] in
/-- A whole call of another token keeps `t` in the window. -/
lemma inWindow_check {u : T} {podKeys : List Pod} {time time' : ℚ} {s : Store T Pod}
    {passed : Bool} {position : ℤ} (inv : w.Inv cfg) (hmax : cfg.currentMax podKeys = w.currentMax)
    (htime : w.time < time)
    (checked : w.store.Checked cfg w.now u (callReading podKeys time time') s passed position)
    (hne : t ≠ u) (ht : w.InWindow t) :
    ({ w with store := s, time := time' } : Room T Pod).InWindow t := by
  obtain ⟨pos, hrank, hseat⟩ := ht
  cases checked with
  | renewed | waits => exact ⟨pos, hrank, hseat⟩
  | newcomer dead rank seat nobody =>
      obtain ⟨score, hscore⟩ := waiting_of_rank hrank
      rw [ZSet.zscore_of_zcard_zero nobody] at hscore
      cases hscore
  | joins dead rank full =>
      refine ⟨pos, ?_, hseat⟩
      have hnew : w.store.waitingQueue.zscore u = none := Option.map_eq_none_iff.mp rank
      refine ZSet.zrank_zadd hnew (fun x score hx => ?_) hrank
      exact (inv.past x score hx).trans_lt htime
  | @turn posu dead rank seat =>
      obtain ⟨pos', hpos', hcase⟩ := ZSet.zrank_zrem hne hrank rank
      refine ⟨pos', hpos', ?_⟩
      have hcard : (insert u w.store.activeUsers).card ≤ w.store.activeUsers.card + 1 :=
        Finset.card_insert_le _ _
      change (pos' : ℤ) < w.currentMax - ((insert u w.store.activeUsers).card : ℤ)
      change (posu : ℤ) < cfg.currentMax podKeys - _ at seat
      -- the rank falls with the seat, or `u` was behind `t` in the window itself
      omega

omit [DecidableEq Pod] in
/-- A round that does not purge `t` keeps it in the window. -/
lemma inWindow_dropStale {expired : List T} {time : ℚ} (hstale : t ∉ w.store.staleTokens time)
    (ht : w.InWindow t) (podsAlive : Expiring Pod) :
    ({ w with
        store := ({ w.store with podsAlive := podsAlive }.dropExpired expired).dropStale time
        time := time } : Room T Pod).InWindow t := by
  obtain ⟨pos, hrank, hseat⟩ := ht
  obtain ⟨pos', hpos', hle⟩ := ZSet.zrank_zremAll hstale hrank
  refine ⟨pos', hpos', ?_⟩
  have hcard : (w.store.activeUsers \ expired.toFinset).card ≤ w.store.activeUsers.card :=
    Finset.card_le_card Finset.sdiff_subset
  change (pos' : ℤ) < w.currentMax - ((w.store.activeUsers \ expired.toFinset).card : ℤ)
  omega

omit [DecidableEq Pod] in
/-- The own call of a token in the window admits it. -/
lemma register_of_checked {reading : Stage → Reading T Pod} {s : Store T Pod} {passed : Bool}
    {position : ℤ} (inv : w.Inv cfg)
    (hmax : w.currentMax ≤ cfg.currentMax (reading .scanPods).podKeys)
    (checked : w.store.Checked cfg w.now t reading s passed position) (ht : w.InWindow t) :
    s = (w.store.leave t).register cfg w.now t := by
  obtain ⟨pos, hrank, hseat⟩ := ht
  cases checked with
  | renewed live => exact absurd live (inv.dead t (waiting_of_rank hrank))
  | turn => rfl
  | @waits pos' dead rank full =>
      obtain rfl : pos = pos' := Option.some.inj (hrank.symm.trans rank)
      exact absurd (by omega) full
  | newcomer dead rank | joins dead rank =>
      cases hrank.symm.trans rank

/-- **A token in the window** stays there in a step, is admitted by its own call or is purged. -/
theorem Transition.window (h : Transition cfg w a w') (hsteady : w.Steady cfg a)
    (inv : w.Inv cfg) (ht : w.InWindow t) :
    w'.InWindow t ∨ Admits t w' a ∨ w.Purges t a := by
  cases h with
  | tick | through => exact .inl ht
  | resize currentMax =>
      obtain ⟨pos, hrank, hseat⟩ := ht
      exact .inl ⟨pos, hrank, hseat.trans_le (Int.sub_le_sub_right hsteady _)⟩
  | @check u podKeys time time' s passed position enabled checked =>
      obtain ⟨hmax, htime, -⟩ := hsteady
      by_cases hne : t = u
      · subst hne
        have hs := register_of_checked inv hmax.ge checked ht
        subst hs
        refine .inr (.inl ⟨rfl, ?_, Finset.mem_insert_self _ _⟩)
        exact Expiring.live_set _ _ (Nat.cast_pos.mpr cfg.userSessionTtl_pos)
      · exact .inl (inWindow_check inv hmax htime checked hne ht)
  | heartbeat pod members time hmembers =>
      by_cases hstale : t ∈ w.store.staleTokens time
      · exact .inr (.inr hstale)
      · exact .inl (inWindow_dropStale hstale ht _)

/-! ### Fairness -/

/-- The waiting room is fair in the state `w`, which the next steps start from. -/
structure Fair (cfg : Settings) (w : Room T Pod) : Prop where
  /-- A token in the window stays there in a step, is admitted by its own call or is purged. -/
  step : ∀ t a v, w.InWindow t → w.Steady cfg a → Room.step cfg w a = some v →
    v.InWindow t ∨ Admits t v a ∨ w.Purges t a
  /-- It stays there for as long as it is neither admitted nor purged. -/
  stays : ∀ t v, w.InWindow t →
    Relation.ReflTransGen (fun u v => ∃ a, u.Steady cfg a ∧ Room.step cfg u a = some v ∧
      ¬ Admits t v a ∧ ¬ u.Purges t a) w v → v.InWindow t
  /-- Its next call admits it. -/
  nextCall : ∀ t podKeys time time', w.InWindow t → w.store.Page w.now podKeys →
    w.currentMax ≤ cfg.currentMax podKeys →
    ∃ v, Room.step cfg w (.check (some t) podKeys time time') = some v ∧
      cfg.checkWaitingStatus w.now (callReading podKeys time time') (some t) w.store =
        some (v.store, true, 0) ∧
      Admits t v (.check (some t) podKeys time time') ∧ ¬ v.Waiting t
  /-- A token that is not in the queue gets no session while anyone is waiting. -/
  noOvertaking : ∀ t a v, w.Steady cfg a → Room.step cfg w a = some v →
    ¬ w.Waiting t → ¬ w.Live t → v.Live t → ∀ u, ¬ w.Waiting u
  /-- No step that begins a session leaves more members in the set than the capacity. -/
  capacity : ∀ t a v, w.Steady cfg a → Room.step cfg w a = some v →
    ¬ w.Live t → v.Live t → (v.store.activeUsers.card : ℤ) ≤ v.currentMax

/-- A session begins in a whole call of its token: in its turn, or with nobody waiting. -/
lemma Transition.begins (h : Transition cfg w a w') (hsteady : w.Steady cfg a)
    (hdead : ¬ w.Live t) (hlive : w'.Live t) :
    (w'.store.activeUsers.card : ℤ) ≤ w'.currentMax ∧
      (w.Waiting t ∨ w.store.waitingQueue.zcard = 0) := by
  cases h with
  | tick dt hdt =>
      exact absurd (Expiring.live_of_le (le_add_of_nonneg_right hdt) hlive) hdead
  | resize | through | heartbeat => exact absurd hlive hdead
  | @check u podKeys time time' s passed position enabled checked =>
      obtain ⟨hmax, -, -⟩ := hsteady
      have hcard : (insert u w.store.activeUsers).card ≤ w.store.activeUsers.card + 1 :=
        Finset.card_insert_le _ _
      cases checked with
      | renewed => exact absurd (Expiring.live_of_expire hlive) hdead
      | waits | joins => exact absurd hlive hdead
      | @turn pos dead rank seat =>
          have hu : t = u := by
            by_contra hu
            exact hdead (Expiring.live_of_set hu hlive)
          subst hu
          change (pos : ℤ) < cfg.currentMax podKeys - _ at seat
          refine ⟨?_, .inl (waiting_of_rank rank)⟩
          change ((insert t w.store.activeUsers).card : ℤ) ≤ w.currentMax
          omega
      | newcomer dead rank seat nobody =>
          change (_ : ℤ) < cfg.currentMax podKeys at seat
          refine ⟨?_, .inr nobody⟩
          change ((insert u w.store.activeUsers).card : ℤ) ≤ w.currentMax
          omega

/-- The next call of a token in the window, with a page of pod keys for the capacity. -/
lemma step_nextCall (inv : w.Inv cfg) (ht : w.InWindow t) {podKeys : List Pod} {time time' : ℚ}
    (hpage : w.store.Page w.now podKeys) (hmax : w.currentMax ≤ cfg.currentMax podKeys) :
    ∃ v, step cfg w (.check (some t) podKeys time time') = some v ∧
      cfg.checkWaitingStatus w.now (callReading podKeys time time') (some t) w.store =
        some (v.store, true, 0) ∧
      Admits t v (.check (some t) podKeys time time') ∧ ¬ v.Waiting t := by
  obtain ⟨pos, hrank, hseat⟩ := ht
  have hwait : w.Waiting t := waiting_of_rank hrank
  have hdead : w.store.active.live t w.now = false := by
    rw [← Bool.not_eq_true]
    exact inv.dead t hwait
  have hcall : cfg.checkWaitingStatus w.now (callReading podKeys time time') (some t) w.store =
      some ((w.store.leave t).register cfg w.now t, true, 0) := by
    rw [Settings.checkWaitingStatus, if_pos (inv.enabled t hwait)]
    exact runCheck_turn hdead hpage hrank (hseat.trans_le (Int.sub_le_sub_right hmax _))
  refine ⟨{ w with store := (w.store.leave t).register cfg w.now t, time := time' }, ?_, hcall,
    ⟨rfl, ?_, Finset.mem_insert_self _ _⟩, ?_⟩
  · rw [step, hcall]
    rfl
  · exact Expiring.live_set _ _ (Nat.cast_pos.mpr cfg.userSessionTtl_pos)
  · rintro ⟨score, hscore⟩
    rw [show (((w.store.leave t).register cfg w.now t).waitingQueue.zscore t) = none from
      ZSet.zscore_zrem_self _ _] at hscore
    cases hscore

/-- **Waiting-room fairness**: in every run of whole calls and rounds with increasing clock
readings and a capacity that does not shrink, a token whose rank is below the number of free
seats keeps this until it is admitted or purged, so that its next call admits it; nobody
overtakes the queue, and no admission makes the set larger than the capacity. -/
theorem waiting_room_fair (hw : (cfg.room T Pod).Run (Steady cfg) w) : w.Fair cfg where
  step t a v ht hsteady hstep := (step_transition hstep).window hsteady (run_inv hw) ht
  stays t v ht hlater := by
    have hboth : v.InWindow t ∧ (cfg.room T Pod).Run (Steady cfg) v := by
      induction hlater with
      | refl => exact ⟨ht, hw⟩
      | tail _ hlast ih =>
          obtain ⟨a, hsteady, hstep, hadmits, hpurges⟩ := hlast
          have hwindow := (step_transition hstep).window hsteady (run_inv ih.2) ih.1
          refine ⟨hwindow.resolve_right ?_, ih.2.step hsteady hstep⟩
          rintro (h | h)
          · exact hadmits h
          · exact hpurges h
    exact hboth.1
  nextCall t podKeys time time' ht hpage hmax := step_nextCall (run_inv hw) ht hpage hmax
  noOvertaking t a v hsteady hstep hwait hdead hlive u := by
    rintro ⟨score, hscore⟩
    have hbegins := ((step_transition hstep).begins hsteady hdead hlive).2
    rw [ZSet.zscore_of_zcard_zero (hbegins.resolve_left hwait)] at hscore
    cases hscore
  capacity t a v hsteady hstep hdead hlive :=
    ((step_transition hstep).begins hsteady hdead hlive).1

/-- One seat, taken by token 7 whose session expires, and token 8 waiting in the window. -/
theorem waiting_room_fair_queue :
    ∃ w : Room ℕ ℕ, w.InWindow 8 ∧ w.Fair (Settings.slots 1) := by
  obtain ⟨w, hw, hp⟩ := System.exists_run_of_schedule ((Settings.slots 1).room ℕ ℕ)
    (Steady (Settings.slots 1)) (s := ⟨0, ⟨.none, ∅, ∅, ∅, .none⟩, 1, 0⟩) rfl
    [.check (some 7) [] 1 2, .check (some 8) [] 3 4, .tick 60, .heartbeat 0 [7] 5]
    (fun w => (w.rank 8).any fun pos : ℕ =>
      decide ((pos : ℤ) < w.currentMax - w.store.activeUsers.card))
    (by decide +kernel)
  obtain ⟨pos, hrank, hseat⟩ := (Option.any_eq_true _ _).mp hp
  exact ⟨w, ⟨pos, hrank, of_decide_eq_true hseat⟩, waiting_room_fair hw⟩

end Room

end WaitingRoom

end FinOpsPipeline
