import FinOpsPipeline.Frontend.Whole
import Mathlib.Data.Nat.Cast.Order.Ring

/-!
A call of `check_waiting_status` with a Redis command that fails.

The handler around the commands catches the exception and returns `(False, -1)`. What
was written before the failed command stays.

* `Settings.runFailing`: the commands up to the failed one.
* `Store.AllOrNothing`: the rooms are as before the call or as after one without a failure.
* `Store.HalfDone`: the commands after which a failure leaves them in between, for each
  branch of the call.
* `failure_allOrNothing_iff`: these are the only ones. `waiting_user_loses_place` and
  `token_without_heartbeat` are two of them.
-/

namespace FinOpsPipeline

namespace WaitingRoom

variable {T Pod : Type} [LinearOrder T] [DecidableEq Pod]

/-! ### Calls with a failure -/

section Runs

variable (cfg : Settings) (now : ℚ)

/-- A call from a stage on whose command after the first `executed` ones fails: the store
and the reply, `none` when the call has returned before. -/
def Settings.runFailing (reading : Stage → Reading T Pod) (userToken : T) :
    ℕ → Stage → Store T Pod → Option (Store T Pod × Bool × ℤ)
  | 0, _, s => some (s, false, -1)
  | executed + 1, stage, s =>
      match cfg.checkCommand now (reading stage) userToken s stage with
      | some (s', .next stage') => Settings.runFailing reading userToken executed stage' s'
      | _ => none

/-- A whole call whose command after the first `executed` ones fails. -/
def Settings.checkFailing (reading : Stage → Reading T Pod) (userToken : Option T)
    (executed : ℕ) (s : Store T Pod) : Option (Store T Pod × Bool × ℤ) :=
  match userToken with
  | some t =>
      if cfg.enableWaitingRoom then cfg.runFailing now reading t executed .existsActive s else none
  | none => none

end Runs

namespace Store

/-- The two stores agree on the waiting queue, the waiting heartbeats, the active set and
the session key of `t`. -/
structure SameRoom (s s' : Store T Pod) (t : T) : Prop where
  queue : ∀ x, s.waitingQueue.zscore x = s'.waitingQueue.zscore x
  heartbeat : ∀ x, s.waitingHeartbeat.zscore x = s'.waitingHeartbeat.zscore x
  activeUsers : s.activeUsers = s'.activeUsers
  active : s.active t = s'.active t

/-- After a failure everything is as before, or as after the call without it. -/
def AllOrNothing (before failed after : Store T Pod) (t : T) : Prop :=
  failed.SameRoom before t ∨ failed.SameRoom after t

/-- The call stops between its first and its last effective write, after the given number
of commands: while a token whose turn it is leaves the queue and is registered, while a
newcomer is registered, or while it joins the queue. A last write that changes nothing is
not counted. -/
def HalfDone (s : Store T Pod) (cfg : Settings) (now : ℚ) (t : T)
    (reading : Stage → Reading T Pod) (executed : ℕ) : Prop :=
  let currentMax := cfg.currentMax (reading .scanPods).podKeys
  s.active.live t now = false ∧
    match s.waitingQueue.zrank ZSet.byOrder t with
    | some pos =>
        pos < currentMax - s.activeUsers.card ∧
          (executed = 5 ∨ executed = 6 ∨ executed = 7 ∧ t ∉ s.activeUsers)
    | none =>
        if s.activeUsers.card < currentMax ∧ s.waitingQueue.zcard = 0 then
          executed = 6 ∧ t ∉ s.activeUsers
        else
          executed = (if s.activeUsers.card < currentMax then 6 else 5) ∧
            s.waitingHeartbeat.zscore t ≠ some (reading .zaddNewHeartbeat).time

end Store

variable {cfg : Settings} {now : ℚ} {t : T} {s s' sk : Store T Pod}
  {reading : Stage → Reading T Pod} {passed : Bool} {position : ℤ}

/-! ### The commands that were executed -/

section Commands

variable {stage stage' : Stage} {n : ℕ} {currentMax activeCount : ℤ}

lemma runFailing_next
    (h : cfg.checkCommand now (reading stage) t s stage = some (s', .next stage')) :
    cfg.runFailing now reading t (n + 1) stage s = cfg.runFailing now reading t n stage' s' := by
  rw [Settings.runFailing, h]

lemma runFailing_returned
    (h : cfg.checkCommand now (reading stage) t s stage = some (s', .returned passed position)) :
    cfg.runFailing now reading t (n + 1) stage s = none := by
  rw [Settings.runFailing, h]

/-- A failure during the registration. -/
lemma runFailing_setex
    (h : cfg.runFailing now reading t n (.setexActive currentMax activeCount) s =
      some (sk, passed, position)) :
    n = 0 ∧ sk = s ∨
      n = 1 ∧ sk = { s with active := s.active.set t now cfg.userSessionTtl } := by
  obtain _ | _ | n := n
  · cases h
    exact .inl ⟨rfl, rfl⟩
  · cases h
    exact .inr ⟨rfl, rfl⟩
  · rw [runFailing_next rfl, runFailing_returned rfl] at h
    cases h

/-- A failure while a token leaves the queue and is registered. -/
lemma runFailing_zrem
    (h : cfg.runFailing now reading t n (.zremWaiting currentMax activeCount) s =
      some (sk, passed, position)) :
    n = 0 ∧ sk = s ∨ n = 1 ∧ sk = { s with waitingQueue := s.waitingQueue.zrem t } ∨
      n = 2 ∧ sk = s.leave t ∨
      n = 3 ∧ sk = { s.leave t with active := s.active.set t now cfg.userSessionTtl } := by
  obtain _ | _ | n := n
  · cases h
    exact .inl ⟨rfl, rfl⟩
  · cases h
    exact .inr (.inl ⟨rfl, rfl⟩)
  · rw [runFailing_next rfl, runFailing_next rfl] at h
    obtain ⟨rfl, rfl⟩ | ⟨rfl, rfl⟩ := runFailing_setex h
    · exact .inr (.inr (.inl ⟨rfl, rfl⟩))
    · exact .inr (.inr (.inr ⟨rfl, rfl⟩))

/-- A failure while a token joins the queue. -/
lemma runFailing_zadd
    (h : cfg.runFailing now reading t n .zaddWaiting s = some (sk, passed, position)) :
    n = 0 ∧ sk = s ∨
      n = 1 ∧ sk = { s with
        waitingQueue := s.waitingQueue.zadd t (reading .zaddWaiting).time } ∨
      n = 2 ∧ sk = s.join t (reading .zaddWaiting).time (reading .zaddNewHeartbeat).time := by
  obtain _ | _ | _ | n := n
  · cases h
    exact .inl ⟨rfl, rfl⟩
  · cases h
    exact .inr (.inl ⟨rfl, rfl⟩)
  · cases h
    exact .inr (.inr ⟨rfl, rfl⟩)
  · rw [runFailing_next rfl, runFailing_next rfl, runFailing_returned rfl] at h
    cases h

/-- A failure before the place in the queue is known changes nothing. -/
lemma runFailing_dead (dead : s.active.live t now = false)
    (hpage : s.Page now (reading .scanPods).podKeys)
    (h : cfg.runFailing now reading t n .existsActive s = some (sk, passed, position)) :
    n ≤ 2 ∧ sk = s ∨ ∃ m, n = m + 3 ∧
      cfg.runFailing now reading t m
        (.zrankWaiting (cfg.currentMax (reading .scanPods).podKeys) s.activeUsers.card) s =
          some (sk, passed, position) := by
  obtain _ | _ | _ | n := n
  · cases h
    exact .inl ⟨by omega, rfl⟩
  · rw [runFailing_next (checkCommand_dead dead)] at h
    cases h
    exact .inl ⟨by omega, rfl⟩
  · rw [runFailing_next (checkCommand_dead dead), runFailing_next (checkCommand_page hpage)] at h
    cases h
    exact .inl ⟨by omega, rfl⟩
  · rw [runFailing_next (checkCommand_dead dead), runFailing_next (checkCommand_page hpage),
      runFailing_next rfl] at h
    exact .inr ⟨n, rfl, h⟩

/-- A failure in a call with a live session changes nothing. -/
lemma runFailing_live (live : s.active.live t now = true)
    (h : cfg.runFailing now reading t n .existsActive s = some (sk, passed, position)) :
    sk = s := by
  obtain _ | _ | n := n
  · cases h
    rfl
  · rw [runFailing_next (checkCommand_live live)] at h
    cases h
    rfl
  · rw [runFailing_next (checkCommand_live live), runFailing_returned rfl] at h
    cases h

end Commands

/-! ### What the rooms agree on -/

section Rooms

omit [DecidableEq Pod]

lemma sameRoom_refl (s : Store T Pod) (t : T) : s.SameRoom s t :=
  ⟨fun _ => rfl, fun _ => rfl, rfl, rfl⟩

/-- The key of a registered token. -/
lemma register_active (s : Store T Pod) :
    (s.register cfg now t).active t = some (now + cfg.userSessionTtl) :=
  Function.update_self _ _ _

omit [LinearOrder T] in
/-- A token without a live session is not registered now. -/
lemma active_ne_of_dead (dead : s.active.live t now = false) :
    s.active t ≠ some (now + cfg.userSessionTtl) := by
  intro hactive
  have httl : (0 : ℚ) < cfg.userSessionTtl := Nat.cast_pos.mpr cfg.userSessionTtl_pos
  rw [Expiring.live, hactive, Option.any_some, decide_eq_false_iff_not] at dead
  exact dead (lt_add_of_pos_right now httl)

/-- Before the key of the token is set, the rooms are not as after its registration. -/
lemma not_sameRoom_register {s₀ : Store T Pod} (dead : s.active.live t now = false)
    (hactive : sk.active = s.active) : ¬ sk.SameRoom (s₀.register cfg now t) t := by
  intro hsame
  have hkey := hsame.active
  rw [hactive, register_active] at hkey
  exact active_ne_of_dead dead hkey

/-- Once the key is set, only the active set can be behind. -/
lemma sameRoom_register_iff (s₀ : Store T Pod) :
    Store.SameRoom { s₀ with active := s₀.active.set t now cfg.userSessionTtl }
      (s₀.register cfg now t) t ↔ t ∈ s₀.activeUsers := by
  constructor
  · intro hsame
    have hset : s₀.activeUsers = insert t s₀.activeUsers := hsame.activeUsers
    rw [hset]
    exact Finset.mem_insert_self t _
  · intro hmem
    exact ⟨fun _ => rfl, fun _ => rfl, (Finset.insert_eq_of_mem hmem).symm, rfl⟩

/-- Once the key is set, the rooms are not as before. -/
lemma not_sameRoom_of_set {s₀ : Store T Pod} (dead : s.active.live t now = false) :
    ¬ Store.SameRoom { s₀ with active := s₀.active.set t now cfg.userSessionTtl } s t := by
  intro hsame
  have hkey : (s₀.active.set t now cfg.userSessionTtl) t = s.active t := hsame.active
  rw [Expiring.set, Function.update_self] at hkey
  exact active_ne_of_dead dead hkey.symm

/-- Once a waiting token is out of the queue, the rooms are not as before. -/
lemma not_sameRoom_of_zrem {pos : ℕ} (rank : s.waitingQueue.zrank ZSet.byOrder t = some pos)
    (hqueue : sk.waitingQueue = s.waitingQueue.zrem t) : ¬ sk.SameRoom s t := by
  intro hsame
  obtain ⟨score, hscore, -⟩ := ZSet.zrank_eq_some.mp rank
  have hnone := hsame.queue t
  rw [hqueue, ZSet.zscore_zrem_self, hscore] at hnone
  cases hnone

/-- Once a newcomer is in the queue, the rooms are not as before. -/
lemma not_sameRoom_of_zadd {time : ℚ} (rank : s.waitingQueue.zrank ZSet.byOrder t = none)
    (hqueue : sk.waitingQueue = s.waitingQueue.zadd t time) : ¬ sk.SameRoom s t := by
  intro hsame
  have hscore := hsame.queue t
  rw [hqueue, ZSet.zscore_zadd_self] at hscore
  rw [ZSet.zrank, Option.map_eq_none_iff] at rank
  rw [rank] at hscore
  cases hscore

/-- Before its heartbeat is written, the rooms of a newcomer are as after it only when the
heartbeat was there. -/
lemma sameRoom_join_iff {time time' : ℚ} :
    Store.SameRoom { s with waitingQueue := s.waitingQueue.zadd t time } (s.join t time time') t ↔
      s.waitingHeartbeat.zscore t = some time' := by
  constructor
  · intro hsame
    rw [hsame.heartbeat t]
    exact ZSet.zscore_zadd_self _ _ _
  · intro hscore
    refine ⟨fun _ => rfl, fun x => ?_, rfl, rfl⟩
    by_cases hx : x = t
    · subst hx
      exact hscore.trans (ZSet.zscore_zadd_self _ _ _).symm
    · exact (ZSet.zscore_zadd_of_ne _ _ hx).symm

end Rooms

/-! ### The branches of a call -/

section Branches

variable {n : ℕ}

/-- A failure in the call of a token whose turn it is. -/
lemma turn_allOrNothing {pos : ℕ} (dead : s.active.live t now = false)
    (hpage : s.Page now (reading .scanPods).podKeys)
    (rank : s.waitingQueue.zrank ZSet.byOrder t = some pos)
    (seat : pos < cfg.currentMax (reading .scanPods).podKeys - s.activeUsers.card)
    (h : cfg.runFailing now reading t n .existsActive s = some (sk, passed, position)) :
    s.AllOrNothing sk ((s.leave t).register cfg now t) t ↔
      ¬ (n = 5 ∨ n = 6 ∨ n = 7 ∧ t ∉ s.activeUsers) := by
  have hnothing : s.AllOrNothing s ((s.leave t).register cfg now t) t := .inl (sameRoom_refl s t)
  obtain ⟨hn, rfl⟩ | ⟨m, rfl, hm⟩ := runFailing_dead dead hpage h
  · exact iff_of_true hnothing (by omega)
  · cases m with
    | zero =>
        cases hm
        exact iff_of_true hnothing (by omega)
    | succ m =>
        rw [runFailing_next (checkCommand_turn rank seat)] at hm
        obtain ⟨rfl, rfl⟩ | ⟨rfl, rfl⟩ | ⟨rfl, rfl⟩ | ⟨rfl, rfl⟩ := runFailing_zrem hm
        · exact iff_of_true hnothing (by omega)
        · refine iff_of_false ?_ (by omega)
          exact not_or.mpr ⟨not_sameRoom_of_zrem rank rfl, not_sameRoom_register dead rfl⟩
        · refine iff_of_false ?_ (by omega)
          exact not_or.mpr ⟨not_sameRoom_of_zrem rank rfl, not_sameRoom_register dead rfl⟩
        · rw [Store.AllOrNothing, or_iff_right (not_sameRoom_of_zrem rank rfl)]
          refine (sameRoom_register_iff (s.leave t)).trans ?_
          show t ∈ s.activeUsers ↔ _
          simp

/-- A failure in the call of a newcomer with a seat. -/
lemma newcomer_allOrNothing (dead : s.active.live t now = false)
    (hpage : s.Page now (reading .scanPods).podKeys)
    (rank : s.waitingQueue.zrank ZSet.byOrder t = none)
    (seat : s.activeUsers.card < cfg.currentMax (reading .scanPods).podKeys)
    (nobody : s.waitingQueue.zcard = 0)
    (h : cfg.runFailing now reading t n .existsActive s = some (sk, passed, position)) :
    s.AllOrNothing sk (s.register cfg now t) t ↔ ¬ (n = 6 ∧ t ∉ s.activeUsers) := by
  have hnothing : s.AllOrNothing s (s.register cfg now t) t := .inl (sameRoom_refl s t)
  obtain ⟨hn, rfl⟩ | ⟨m, rfl, hm⟩ := runFailing_dead dead hpage h
  · exact iff_of_true hnothing (by omega)
  · obtain _ | _ | m := m
    · cases hm
      exact iff_of_true hnothing (by omega)
    · rw [runFailing_next (checkCommand_seat rank seat)] at hm
      cases hm
      exact iff_of_true hnothing (by omega)
    · rw [runFailing_next (checkCommand_seat rank seat),
        runFailing_next (checkCommand_nobody nobody)] at hm
      obtain ⟨rfl, rfl⟩ | ⟨rfl, rfl⟩ := runFailing_setex hm
      · exact iff_of_true hnothing (by omega)
      · rw [Store.AllOrNothing, or_iff_right (not_sameRoom_of_set dead), sameRoom_register_iff s]
        simp

/-- A failure from the first write of a joining newcomer on. -/
lemma zadd_allOrNothing {m : ℕ} (rank : s.waitingQueue.zrank ZSet.byOrder t = none)
    (h : cfg.runFailing now reading t m .zaddWaiting s = some (sk, passed, position)) :
    s.AllOrNothing sk (s.join t (reading .zaddWaiting).time (reading .zaddNewHeartbeat).time) t ↔
      ¬ (m = 1 ∧ s.waitingHeartbeat.zscore t ≠ some (reading .zaddNewHeartbeat).time) := by
  obtain ⟨rfl, rfl⟩ | ⟨rfl, rfl⟩ | ⟨rfl, rfl⟩ := runFailing_zadd h
  · exact iff_of_true (.inl (sameRoom_refl _ t)) (by omega)
  · rw [Store.AllOrNothing, or_iff_right (not_sameRoom_of_zadd rank rfl), sameRoom_join_iff]
    simp
  · exact iff_of_true (.inr (sameRoom_refl _ t)) (by omega)

/-- A failure in the call of a newcomer that joins the queue. -/
lemma joins_allOrNothing (dead : s.active.live t now = false)
    (hpage : s.Page now (reading .scanPods).podKeys)
    (rank : s.waitingQueue.zrank ZSet.byOrder t = none)
    (full : ¬ (s.activeUsers.card < cfg.currentMax (reading .scanPods).podKeys ∧
      s.waitingQueue.zcard = 0))
    (h : cfg.runFailing now reading t n .existsActive s = some (sk, passed, position)) :
    s.AllOrNothing sk (s.join t (reading .zaddWaiting).time (reading .zaddNewHeartbeat).time) t ↔
      ¬ (n = (if s.activeUsers.card < cfg.currentMax (reading .scanPods).podKeys then 6 else 5) ∧
        s.waitingHeartbeat.zscore t ≠ some (reading .zaddNewHeartbeat).time) := by
  have hnothing : s.AllOrNothing s
      (s.join t (reading .zaddWaiting).time (reading .zaddNewHeartbeat).time) t :=
    .inl (sameRoom_refl s t)
  obtain ⟨hn, rfl⟩ | ⟨m, rfl, hm⟩ := runFailing_dead dead hpage h
  · exact iff_of_true hnothing (by split <;> omega)
  · by_cases seat : s.activeUsers.card < cfg.currentMax (reading .scanPods).podKeys
    · rw [if_pos seat]
      have somebody : s.waitingQueue.zcard ≠ 0 := fun hzero => full ⟨seat, hzero⟩
      obtain _ | _ | m := m
      · cases hm
        exact iff_of_true hnothing (by omega)
      · rw [runFailing_next (checkCommand_seat rank seat)] at hm
        cases hm
        exact iff_of_true hnothing (by omega)
      · rw [runFailing_next (checkCommand_seat rank seat),
          runFailing_next (checkCommand_somebody somebody)] at hm
        rw [zadd_allOrNothing rank hm]
        exact not_congr (and_congr_left' (by omega))
    · rw [if_neg seat]
      cases m with
      | zero =>
          cases hm
          exact iff_of_true hnothing (by omega)
      | succ m =>
          rw [runFailing_next (checkCommand_full rank seat)] at hm
          rw [zadd_allOrNothing rank hm]
          exact not_congr (and_congr_left' (by omega))

/-- A failure in the call of a token that goes on waiting: its only write is the last
command. -/
lemma waits_eq {pos : ℕ} (dead : s.active.live t now = false)
    (hpage : s.Page now (reading .scanPods).podKeys)
    (rank : s.waitingQueue.zrank ZSet.byOrder t = some pos)
    (full : ¬ pos < cfg.currentMax (reading .scanPods).podKeys - s.activeUsers.card)
    (h : cfg.runFailing now reading t n .existsActive s = some (sk, passed, position)) :
    sk = s := by
  obtain ⟨-, rfl⟩ | ⟨m, rfl, hm⟩ := runFailing_dead dead hpage h
  · rfl
  · obtain _ | _ | m := m
    · cases hm
      rfl
    · rw [runFailing_next (checkCommand_waits rank full)] at hm
      cases hm
      rfl
    · rw [runFailing_next (checkCommand_waits rank full), runFailing_returned rfl] at hm
      cases hm

end Branches

/-- The reply of a call that fails. -/
lemma reply_of_runFailing {n : ℕ} {stage : Stage}
    (h : cfg.runFailing now reading t n stage s = some (sk, passed, position)) :
    passed = false ∧ position = -1 := by
  induction n generalizing stage s with
  | zero =>
      cases h
      exact ⟨rfl, rfl⟩
  | succ n ih =>
      rw [Settings.runFailing] at h
      split at h
      · exact ih h
      · cases h

/-- **A failed Redis command**: the reply is `(False, -1)`, and the rooms are as before the
call or as after the call without the failure exactly when the call is not half done. -/
theorem failure_allOrNothing_iff {userToken : T} {executed : ℕ} {passed' : Bool} {position' : ℤ}
    (hcall : cfg.checkWaitingStatus now reading (some userToken) s = some (s', passed, position))
    (hfail : cfg.checkFailing now reading (some userToken) executed s =
      some (sk, passed', position')) :
    (passed' = false ∧ position' = -1) ∧
      (s.AllOrNothing sk s' userToken ↔ ¬ s.HalfDone cfg now userToken reading executed) := by
  simp only [Settings.checkWaitingStatus, Settings.checkFailing] at hcall hfail
  split at hfail
  · rename_i henabled
    rw [if_pos henabled] at hcall
    refine ⟨reply_of_runFailing hfail, ?_⟩
    have hpage (dead : s.active.live userToken now = false) :=
      page_of_runCheck dead (Option.isSome_of_eq_some hcall)
    cases runCheck_checked hcall with
    | renewed live =>
        obtain rfl := runFailing_live live hfail
        refine iff_of_true (.inl (sameRoom_refl _ _)) fun hhalf => ?_
        rw [hhalf.1] at live
        cases live
    | turn dead rank seat =>
        rw [turn_allOrNothing dead (hpage dead) rank seat hfail]
        simp only [Store.HalfDone, dead, rank, seat, true_and]
    | waits dead rank full =>
        obtain rfl := waits_eq dead (hpage dead) rank full hfail
        refine iff_of_true (.inl (sameRoom_refl _ _)) ?_
        simp only [Store.HalfDone, dead, rank, full, false_and, and_false, not_false_eq_true]
    | newcomer dead rank seat nobody =>
        rw [newcomer_allOrNothing dead (hpage dead) rank seat nobody hfail]
        simp only [Store.HalfDone, dead, rank, seat, nobody, and_self, if_true, true_and]
    | joins dead rank full =>
        rw [joins_allOrNothing dead (hpage dead) rank full hfail]
        simp only [Store.HalfDone, dead, rank, if_neg full, true_and]
  · cases hfail

/-! ### Failures that leave a call half done -/

/-- **A token without a heartbeat stays**: no round of a pod takes it out of the queue. -/
theorem ghost_survives_round {r : Reading T Pod} {pod : Pod} {score : ℚ}
    (hqueue : s.waitingQueue.zscore t = some score) (hghost : s.waitingHeartbeat.zscore t = none)
    (hround : podHeartbeat now r pod s = some s') :
    s'.waitingQueue.zscore t = some score ∧ s'.waitingHeartbeat.zscore t = none := by
  have hmembers := members_of_podHeartbeat (Option.isSome_of_eq_some hround)
  rw [podHeartbeat_eq hmembers] at hround
  cases hround
  have hstale : t ∉ s.staleTokens r.time := by
    intro hmem
    obtain ⟨d, hd⟩ := ZSet.zscore_of_mem_rangeByScoreFrom hmem
    rw [hghost] at hd
    cases hd
  exact ⟨(ZSet.zscore_zremAll_of_notMem hstale).trans hqueue,
    (ZSet.zscore_zremAll_of_notMem hstale).trans hghost⟩

/-- A token waits, with a heartbeat, and nobody is active. -/
def oneWaiting : Store ℕ ℕ where
  active := .none
  activeUsers := ∅
  waitingQueue := ZSet.zadd ∅ 7 50
  waitingHeartbeat := ZSet.zadd ∅ 7 90
  podsAlive := .none

/-- The clock reads 100, and no pod key is listed. -/
def readAt100 (_ : Stage) : Reading ℕ ℕ := ⟨100, [], []⟩

/-- The call is half done after its first `ZREM`. -/
lemma oneWaiting_failing :
    (Settings.slots 1).checkFailing 100 readAt100 (some 7) 5 oneWaiting =
      some ({ oneWaiting with waitingQueue := oneWaiting.waitingQueue.zrem 7 }, false, -1) := by
  rfl

/-- Without the failure the token is admitted. -/
lemma oneWaiting_call :
    (Settings.slots 1).checkWaitingStatus 100 readAt100 (some 7) oneWaiting =
      some ((oneWaiting.leave 7).register (Settings.slots 1) 100 7, true, 0) := by
  rfl

/-- A failure before the first write leaves the rooms as they were. -/
theorem failure_allOrNothing_iff_early :
    ∃ failed after, (Settings.slots 1).checkFailing 100 readAt100 (some 7) 4 oneWaiting =
        some (failed, false, -1) ∧ oneWaiting.AllOrNothing failed after 7 := by
  have hfail : (Settings.slots 1).checkFailing 100 readAt100 (some 7) 4 oneWaiting =
      some (oneWaiting, false, -1) := rfl
  refine ⟨_, _, hfail, (failure_allOrNothing_iff oneWaiting_call hfail).2.mpr ?_⟩
  have hrank : oneWaiting.waitingQueue.zrank ZSet.byOrder 7 = some 0 := by decide
  intro hhalf
  simp [Store.HalfDone, hrank] at hhalf

/-- When the sixth command of the call of a waiting token fails, the token has lost its
place and is not admitted. -/
theorem waiting_user_loses_place :
    ∃ failed after, (Settings.slots 1).checkFailing 100 readAt100 (some 7) 5 oneWaiting =
        some (failed, false, -1) ∧
      (Settings.slots 1).checkWaitingStatus 100 readAt100 (some 7) oneWaiting =
        some (after, true, 0) ∧
      failed.waitingQueue.zscore 7 = none ∧ failed.active.live 7 100 = false ∧
      ¬ oneWaiting.AllOrNothing failed after 7 := by
  refine ⟨_, _, oneWaiting_failing, oneWaiting_call, by decide, by decide, ?_⟩
  have hrank : oneWaiting.waitingQueue.zrank ZSet.byOrder 7 = some 0 := by decide
  exact not_or.mpr ⟨not_sameRoom_of_zrem hrank rfl, not_sameRoom_register (by decide) rfl⟩

/-- When there is no seat and the sixth command of the call of a newcomer fails, the token
is in the queue without a heartbeat. -/
theorem token_without_heartbeat :
    ∃ failed, (Settings.slots 0).checkFailing 100 readAt100 (some 8) 5 oneWaiting =
        some (failed, false, -1) ∧
      failed.waitingQueue.zscore 8 = some 100 ∧ failed.waitingHeartbeat.zscore 8 = none := by
  refine ⟨{ oneWaiting with waitingQueue := oneWaiting.waitingQueue.zadd 8 100 }, rfl, ?_, ?_⟩ <;>
    decide

end WaitingRoom

end FinOpsPipeline
