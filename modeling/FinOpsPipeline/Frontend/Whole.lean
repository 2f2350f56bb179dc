import FinOpsPipeline.Frontend.WaitingRoom

/-!
Whole calls and whole rounds, with no other thread in between.

* `Settings.checkWaitingStatus`, `podHeartbeat`: the commands of one thread run to the
  end; `World.later_check` and `World.later_heartbeat` are the same runs as steps of the
  system.
* `checkWaitingStatus_eq`: the effect and the reply of a whole call.
* `podHeartbeat_eq`: the effect of a whole round.
-/

namespace FinOpsPipeline

namespace WaitingRoom

variable {C T Pod : Type} [DecidableEq C] [LinearOrder T] [DecidableEq Pod]

/-! ### Running a thread to the end -/

section Runs

variable (cfg : Settings) (now : ℚ)

/-- At most `n` commands of a call of `check_waiting_status` from a stage on, where
`reading` is what the surroundings decide about each command: the store and the reply. -/
def Settings.runCheck (reading : Stage → Reading T Pod) (userToken : T) :
    ℕ → Stage → Store T Pod → Option (Store T Pod × Bool × ℤ)
  | 0, _, _ => none
  | n + 1, stage, s =>
      match cfg.checkCommand now (reading stage) userToken s stage with
      | some (s', .next stage') => Settings.runCheck reading userToken n stage' s'
      | some (s', .returned passed position) => some (s', passed, position)
      | none => none

/-- A whole call of `check_waiting_status`, with the token of the request (none is an
empty one). A call sends at most eight commands. -/
def Settings.checkWaitingStatus (reading : Stage → Reading T Pod) (userToken : Option T)
    (s : Store T Pod) : Option (Store T Pod × Bool × ℤ) :=
  match userToken with
  | some t =>
      if cfg.enableWaitingRoom then cfg.runCheck now reading t 8 .existsActive s
      else some (s, true, 0)
  | none => some (s, true, 0)

/-- At most `n` commands of a heartbeat round from a stage on. -/
def runPass (r : Reading T Pod) (heartbeatPodName : Pod) :
    ℕ → PassStage T → Store T Pod → Option (Store T Pod)
  | 0, _, _ => none
  | n + 1, stage, s =>
      match heartbeatCommand now r heartbeatPodName s stage with
      | some (s', some stage') => runPass r heartbeatPodName n stage' s'
      | some (s', none) => some s'
      | none => none

/-- A whole round of `_pod_heartbeat`: one command for each member of the set and six others. -/
def podHeartbeat (r : Reading T Pod) (heartbeatPodName : Pod) (s : Store T Pod) :
    Option (Store T Pod) :=
  runPass now r heartbeatPodName (r.members.length + 6) .setexPod s

end Runs

namespace World

variable {cfg : Settings} {w : World C T Pod} {c : C}

/-- The commands of a call, one after the other, are steps of the system. -/
lemma later_check {reading : Stage → Reading T Pod} {t : T} {n : ℕ} {stage : Stage}
    {s' : Store T Pod} {passed : Bool} {position : ℤ} (here : w.task c = .checking t stage)
    (h : cfg.runCheck w.now reading t n stage w.store = some (s', passed, position)) :
    (cfg.system C T Pod).Later w (w.put c s' (.returned passed position)) := by
  induction n generalizing w stage with
  | zero => cases h
  | succ n ih =>
      rw [Settings.runCheck] at h
      split at h
      · rename_i s stage' hcommand
        have hstep : (cfg.system C T Pod).step w (.next c (reading stage)) =
            some (w.put c s (.checking t stage')) := by
          simp only [Settings.system, step, here, hcommand]
          rfl
        have hrest := ih (w := w.put c s (.checking t stage')) (put_task_self ..) h
        rw [put_put] at hrest
        exact .head ⟨_, hstep⟩ hrest
      · rename_i s p q hcommand
        cases h
        refine .single ⟨.next c (reading stage), ?_⟩
        simp only [Settings.system, step, here, hcommand]
        rfl
      · cases h

/-- The commands of a round, one after the other, are steps of the system. -/
lemma later_heartbeat {r : Reading T Pod} {pod : Pod} {n : ℕ} {stage : PassStage T}
    {s' : Store T Pod} (here : w.task c = .passing pod stage)
    (h : runPass w.now r pod n stage w.store = some s') :
    (cfg.system C T Pod).Later w (w.put c s' .idle) := by
  induction n generalizing w stage with
  | zero => cases h
  | succ n ih =>
      rw [runPass] at h
      split at h
      · rename_i s stage' hcommand
        have hstep : (cfg.system C T Pod).step w (.next c r) =
            some (w.put c s (.passing pod stage')) := by
          simp only [Settings.system, step, here, hcommand]
          rfl
        have hrest := ih (w := w.put c s (.passing pod stage')) (put_task_self ..) h
        rw [put_put] at hrest
        exact .head ⟨_, hstep⟩ hrest
      · rename_i s hcommand
        cases h
        refine .single ⟨.next c r, ?_⟩
        simp only [Settings.system, step, here, hcommand]
        rfl
      · cases h

end World

/-! ### What a whole call does -/

namespace Store

variable (s : Store T Pod) (cfg : Settings) (now : ℚ) (t : T)

/-- The session of `t` is extended. -/
def renew : Store T Pod := { s with active := s.active.expire t now cfg.userSessionTtl }

/-- `t` is registered as an active user. -/
def register : Store T Pod :=
  { s with
    active := s.active.set t now cfg.userSessionTtl
    activeUsers := insert t s.activeUsers }

/-- `t` leaves the waiting queue. -/
def leave : Store T Pod :=
  { s with
    waitingQueue := s.waitingQueue.zrem t
    waitingHeartbeat := s.waitingHeartbeat.zrem t }

/-- `t` joins the waiting queue, with the readings of the clock for its two `ZADD`s. -/
def join (time time' : ℚ) : Store T Pod :=
  { s with
    waitingQueue := s.waitingQueue.zadd t time
    waitingHeartbeat := s.waitingHeartbeat.zadd t time' }

/-- The keys on a page of `SCAN` are present, each once. -/
def Page (podKeys : List Pod) : Prop :=
  podKeys.Nodup ∧ ∀ pod ∈ podKeys, s.podsAlive.live pod now = true

/-- The outcomes of a whole call for the token `t`: the store and the reply. -/
inductive Checked (reading : Stage → Reading T Pod) : Store T Pod → Bool → ℤ → Prop where
  | renewed (live : s.active.live t now = true) : Checked reading (s.renew cfg now t) true 0
  | turn {pos : ℕ} (dead : s.active.live t now = false)
      (rank : s.waitingQueue.zrank ZSet.byOrder t = some pos)
      (seat : pos < cfg.currentMax (reading .scanPods).podKeys - s.activeUsers.card) :
      Checked reading ((s.leave t).register cfg now t) true 0
  | waits {pos : ℕ} (dead : s.active.live t now = false)
      (rank : s.waitingQueue.zrank ZSet.byOrder t = some pos)
      (full : ¬ pos < cfg.currentMax (reading .scanPods).podKeys - s.activeUsers.card) :
      Checked reading
        { s with
          waitingHeartbeat := s.waitingHeartbeat.zadd t (reading (.zaddHeartbeat pos)).time }
        false (pos + 1)
  | newcomer (dead : s.active.live t now = false)
      (rank : s.waitingQueue.zrank ZSet.byOrder t = none)
      (seat : s.activeUsers.card < cfg.currentMax (reading .scanPods).podKeys)
      (nobody : s.waitingQueue.zcard = 0) :
      Checked reading (s.register cfg now t) true 0
  | joins (dead : s.active.live t now = false)
      (rank : s.waitingQueue.zrank ZSet.byOrder t = none)
      (full : ¬ (s.activeUsers.card < cfg.currentMax (reading .scanPods).podKeys ∧
        s.waitingQueue.zcard = 0)) :
      Checked reading (s.join t (reading .zaddWaiting).time (reading .zaddNewHeartbeat).time)
        false (s.waitingQueue.zadd t (reading .zaddWaiting).time).zcard

end Store

variable {cfg : Settings} {now : ℚ} {t : T} {s s' : Store T Pod} {reading : Stage → Reading T Pod}
  {passed : Bool} {position : ℤ}

/-! ### The answers of Redis -/

section Answers

variable {r : Reading T Pod} {pos : ℕ} {currentMax activeCount : ℤ}

lemma checkCommand_live (live : s.active.live t now = true) :
    cfg.checkCommand now r t s .existsActive = some (s, .next .expireActive) := by
  rw [Settings.checkCommand, live]
  rfl

lemma checkCommand_dead (dead : s.active.live t now = false) :
    cfg.checkCommand now r t s .existsActive = some (s, .next .scanPods) := by
  rw [Settings.checkCommand, dead]
  rfl

lemma checkCommand_page (hpage : s.Page now r.podKeys) :
    cfg.checkCommand now r t s .scanPods =
      some (s, .next (.scardActive (cfg.currentMax r.podKeys))) := by
  rw [Settings.checkCommand]
  exact if_pos hpage

lemma checkCommand_no_page (hpage : ¬ s.Page now r.podKeys) :
    cfg.checkCommand now r t s .scanPods = none := by
  rw [Settings.checkCommand]
  exact if_neg hpage

lemma checkCommand_turn (rank : s.waitingQueue.zrank ZSet.byOrder t = some pos)
    (seat : pos < currentMax - activeCount) :
    cfg.checkCommand now r t s (.zrankWaiting currentMax activeCount) =
      some (s, .next (.zremWaiting currentMax activeCount)) := by
  simp only [Settings.checkCommand, rank, if_pos seat]

lemma checkCommand_waits (rank : s.waitingQueue.zrank ZSet.byOrder t = some pos)
    (full : ¬ pos < currentMax - activeCount) :
    cfg.checkCommand now r t s (.zrankWaiting currentMax activeCount) =
      some (s, .next (.zaddHeartbeat pos)) := by
  simp only [Settings.checkCommand, rank, if_neg full]

lemma checkCommand_seat (rank : s.waitingQueue.zrank ZSet.byOrder t = none)
    (seat : activeCount < currentMax) :
    cfg.checkCommand now r t s (.zrankWaiting currentMax activeCount) =
      some (s, .next (.zcardWaiting currentMax activeCount)) := by
  simp only [Settings.checkCommand, rank, if_pos seat]

lemma checkCommand_full (rank : s.waitingQueue.zrank ZSet.byOrder t = none)
    (full : ¬ activeCount < currentMax) :
    cfg.checkCommand now r t s (.zrankWaiting currentMax activeCount) =
      some (s, .next .zaddWaiting) := by
  simp only [Settings.checkCommand, rank, if_neg full]

lemma checkCommand_nobody (nobody : s.waitingQueue.zcard = 0) :
    cfg.checkCommand now r t s (.zcardWaiting currentMax activeCount) =
      some (s, .next (.setexActive currentMax activeCount)) := by
  simp only [Settings.checkCommand, if_pos nobody]

lemma checkCommand_somebody (somebody : s.waitingQueue.zcard ≠ 0) :
    cfg.checkCommand now r t s (.zcardWaiting currentMax activeCount) =
      some (s, .next .zaddWaiting) := by
  simp only [Settings.checkCommand, if_neg somebody]

end Answers

/-! ### The runs of a call -/

section Commands

variable {stage stage' : Stage} {n : ℕ}

lemma runCheck_next (h : cfg.checkCommand now (reading stage) t s stage = some (s', .next stage')) :
    cfg.runCheck now reading t (n + 1) stage s = cfg.runCheck now reading t n stage' s' := by
  rw [Settings.runCheck, h]

lemma runCheck_returned
    (h : cfg.checkCommand now (reading stage) t s stage = some (s', .returned passed position)) :
    cfg.runCheck now reading t (n + 1) stage s = some (s', passed, position) := by
  rw [Settings.runCheck, h]

/-- The registration of a token: `SETEX` and `SADD`. -/
lemma runCheck_setex {currentMax activeCount : ℤ} :
    cfg.runCheck now reading t (n + 2) (.setexActive currentMax activeCount) s =
      some (s.register cfg now t, true, 0) := by
  rw [runCheck_next rfl, runCheck_returned rfl]
  rfl

/-- A token whose turn it is leaves the queue and is registered. -/
lemma runCheck_zrem {currentMax activeCount : ℤ} :
    cfg.runCheck now reading t (n + 4) (.zremWaiting currentMax activeCount) s =
      some ((s.leave t).register cfg now t, true, 0) := by
  rw [runCheck_next rfl, runCheck_next rfl, runCheck_setex]
  rfl

/-- A newcomer without a seat joins the queue. -/
lemma runCheck_zadd :
    cfg.runCheck now reading t (n + 3) .zaddWaiting s =
      some (s.join t (reading .zaddWaiting).time (reading .zaddNewHeartbeat).time, false,
        ((s.waitingQueue.zadd t (reading .zaddWaiting).time).zcard : ℤ)) := by
  rw [runCheck_next rfl, runCheck_next rfl, runCheck_returned rfl]
  rfl

/-- A call without a live session comes to its `ZRANK`. -/
lemma runCheck_dead (dead : s.active.live t now = false)
    (hpage : s.Page now (reading .scanPods).podKeys) :
    cfg.runCheck now reading t (n + 3) .existsActive s =
      cfg.runCheck now reading t n
        (.zrankWaiting (cfg.currentMax (reading .scanPods).podKeys) s.activeUsers.card) s := by
  rw [runCheck_next (checkCommand_dead dead), runCheck_next (checkCommand_page hpage),
    runCheck_next rfl]

/-- A call goes on behind its `SCAN` for a page of keys that are present only. -/
lemma page_of_runCheck (dead : s.active.live t now = false)
    (h : (cfg.runCheck now reading t (n + 3) .existsActive s).isSome) :
    s.Page now (reading .scanPods).podKeys := by
  by_contra hpage
  rw [runCheck_next (checkCommand_dead dead), Settings.runCheck, checkCommand_no_page hpage] at h
  cases h

end Commands

/-- **A whole call of a token whose turn it is** registers the token. -/
theorem runCheck_turn {pos : ℕ} (dead : s.active.live t now = false)
    (hpage : s.Page now (reading .scanPods).podKeys)
    (rank : s.waitingQueue.zrank ZSet.byOrder t = some pos)
    (seat : pos < cfg.currentMax (reading .scanPods).podKeys - s.activeUsers.card) :
    cfg.runCheck now reading t 8 .existsActive s =
      some ((s.leave t).register cfg now t, true, 0) := by
  rw [runCheck_dead dead hpage, runCheck_next (checkCommand_turn rank seat), runCheck_zrem]

/-- **A whole call has one of the five outcomes.** -/
theorem runCheck_checked
    (h : cfg.runCheck now reading t 8 .existsActive s = some (s', passed, position)) :
    s.Checked cfg now t reading s' passed position := by
  cases hlive : s.active.live t now with
  | true =>
      rw [runCheck_next (checkCommand_live hlive), runCheck_returned rfl] at h
      cases h
      exact .renewed hlive
  | false =>
      have hpage := page_of_runCheck hlive (Option.isSome_of_eq_some h)
      cases hrank : s.waitingQueue.zrank ZSet.byOrder t with
      | some pos =>
          by_cases seat : pos < cfg.currentMax (reading .scanPods).podKeys - s.activeUsers.card
          · rw [runCheck_turn hlive hpage hrank seat] at h
            cases h
            exact .turn hlive hrank seat
          · rw [runCheck_dead hlive hpage, runCheck_next (checkCommand_waits hrank seat),
              runCheck_returned rfl] at h
            cases h
            exact .waits hlive hrank seat
      | none =>
          rw [runCheck_dead hlive hpage] at h
          by_cases seat : s.activeUsers.card < cfg.currentMax (reading .scanPods).podKeys
          · rw [runCheck_next (checkCommand_seat hrank seat)] at h
            by_cases nobody : s.waitingQueue.zcard = 0
            · rw [runCheck_next (checkCommand_nobody nobody), runCheck_setex] at h
              cases h
              exact .newcomer hlive hrank seat nobody
            · rw [runCheck_next (checkCommand_somebody nobody), runCheck_zadd] at h
              cases h
              exact .joins hlive hrank fun hfree => nobody hfree.2
          · rw [runCheck_next (checkCommand_full hrank seat), runCheck_zadd] at h
            cases h
            exact .joins hlive hrank fun hfree => seat hfree.1

/-! ### What a whole round does -/

namespace Store

variable (s : Store T Pod) (now : ℚ)

/-- The tokens without a heartbeat for 30 seconds. -/
def staleTokens (time : ℚ) : List T :=
  s.waitingHeartbeat.rangeByScoreFrom ZSet.byOrder 0 (time - 30)

/-- The ghosts leave the waiting queue. -/
def dropStale (time : ℚ) : Store T Pod :=
  { s with
    waitingQueue := s.waitingQueue.zremAll (s.staleTokens time)
    waitingHeartbeat := s.waitingHeartbeat.zremAll (s.staleTokens time) }

/-- The members without a session leave the set. -/
def dropExpired (expired : List T) : Store T Pod :=
  { s with activeUsers := s.activeUsers \ expired.toFinset }

end Store

variable {r : Reading T Pod} {pod : Pod}

/-- The end of a round: the ghosts in the waiting queue. -/
lemma runPass_zrangebyscore (n : ℕ) :
    runPass now r pod (n + 3) .zrangebyscore s = some (s.dropStale r.time) := by
  rw [runPass, heartbeatCommand]
  cases hstale : s.waitingHeartbeat.rangeByScoreFrom ZSet.byOrder 0 (r.time - 30) with
  | nil =>
      simp only [Store.dropStale, Store.staleTokens, hstale]
      rfl
  | cons m rest =>
      simp only [runPass, heartbeatCommand, Store.dropStale, Store.staleTokens, hstale]

/-- The members that are left to look up, and the end of the round. -/
lemma runPass_existsNext {members expired : List T} :
    runPass now r pod (members.length + 4) (.existsNext expired members) s =
      some ((s.dropExpired
        (expired ++ members.filter fun m => !s.active.live m now)).dropStale r.time) := by
  induction members generalizing expired with
  | nil =>
      cases expired with
      | nil =>
          have hall : s.dropExpired ([] : List T) = s := by simp [Store.dropExpired]
          rw [List.filter_nil, List.append_nil, hall]
          exact runPass_zrangebyscore 1
      | cons m expired =>
          rw [List.filter_nil, List.append_nil]
          exact runPass_zrangebyscore 0
  | cons m members ih =>
      have hnext : runPass now r pod ((m :: members).length + 4)
            (.existsNext expired (m :: members)) s =
          runPass now r pod (members.length + 4)
            (.existsNext (if s.active.live m now then expired else expired ++ [m]) members) s := rfl
      rw [hnext, ih, List.filter_cons]
      cases s.active.live m now with
      | true => rfl
      | false => simp

/-- **A whole round** drops the members without a session and the ghosts. -/
theorem podHeartbeat_eq (hmembers : r.members.Nodup ∧ r.members.toFinset = s.activeUsers) :
    podHeartbeat now r pod s =
      some (({ s with podsAlive := s.podsAlive.set pod now 30 }.dropExpired
        (r.members.filter fun m => !s.active.live m now)).dropStale r.time) := by
  have hcommand : heartbeatCommand now r pod { s with podsAlive := s.podsAlive.set pod now 30 }
        .smembers =
      some ({ s with podsAlive := s.podsAlive.set pod now 30 }, some (.existsNext [] r.members)) :=
    if_pos hmembers
  calc podHeartbeat now r pod s
      = runPass now r pod (r.members.length + 5) .smembers
          { s with podsAlive := s.podsAlive.set pod now 30 } := rfl
    _ = runPass now r pod (r.members.length + 4) (.existsNext [] r.members)
          { s with podsAlive := s.podsAlive.set pod now 30 } := by rw [runPass, hcommand]
    _ = _ := runPass_existsNext

/-- A round that goes on behind its `SMEMBERS` has the members of the set. -/
lemma members_of_podHeartbeat (h : (podHeartbeat now r pod s).isSome) :
    r.members.Nodup ∧ r.members.toFinset = s.activeUsers := by
  by_contra hmembers
  have hcommand : heartbeatCommand now r pod { s with podsAlive := s.podsAlive.set pod now 30 }
      .smembers = none := if_neg hmembers
  have hnone : podHeartbeat now r pod s = none := by
    calc podHeartbeat now r pod s
        = runPass now r pod (r.members.length + 5) .smembers
            { s with podsAlive := s.podsAlive.set pod now 30 } := rfl
      _ = none := by rw [runPass, hcommand]
  rw [hnone] at h
  cases h

end WaitingRoom

end FinOpsPipeline
