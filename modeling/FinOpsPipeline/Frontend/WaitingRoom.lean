import Mathlib.Data.Finset.Card
import Mathlib.Data.Finset.Dedup
import FinOpsPipeline.Foundations.Rank
import FinOpsPipeline.Foundations.TransitionSystem

/-!
The waiting room of `frontend.py`: `check_waiting_status`, which every request
runs, and `_pod_heartbeat`, which every pod runs in a loop.

Each thread sends its Redis commands one by one, and other threads may execute
any number of commands in between. A stage is the command that a thread is about
to send, with what it has read so far.

* `Settings.checkCommand`: the commands of `check_waiting_status`.
* `heartbeatCommand`: the commands of one round of `_pod_heartbeat`.
* `World.step`: one command of one thread, the start of a call or a round, or
  time passing, in which keys expire.
* `World.Transition`: what a step can do to the sessions and their set, said once;
  `World.step_transition` is the inversion of `World.step`.
-/

namespace FinOpsPipeline

namespace WaitingRoom

/-! ### The data -/

/-- The environment variables that the waiting room reads. Redis refuses a `SETEX`
without a positive time to live, so the session length is positive. -/
structure Settings where
  enableWaitingRoom : Bool
  slotsPerPod : ℤ
  userSessionTtl : ℕ
  userSessionTtl_pos : 0 < userSessionTtl

/-- The default settings but for the number of slots. -/
def Settings.slots (slotsPerPod : ℤ) : Settings := ⟨true, slotsPerPod, 60, Nat.succ_pos 59⟩

/-- What the waiting room keeps in Redis: the `active:{token}` keys, `active-users-set`,
the waiting queue, `waiting-heartbeat-set` and the `frontend-pods-alive` keys. -/
structure Store (T Pod : Type) where
  active : Expiring T
  activeUsers : Finset T
  waitingQueue : ZSet T
  waitingHeartbeat : ZSet T
  podsAlive : Expiring Pod

/-- What the surroundings decide about a command: the reading of `time.time()`, the
keys on the page that `SCAN` returns, and the order in which `SMEMBERS` lists the set. -/
structure Reading (T Pod : Type) where
  time : ℚ
  podKeys : List Pod
  members : List T

/-- The commands of `check_waiting_status`, each with the values read before it. -/
inductive Stage where
  | existsActive
  | expireActive
  | scanPods
  | scardActive (currentMax : ℤ)
  | zrankWaiting (currentMax activeCount : ℤ)
  | zremWaiting (currentMax activeCount : ℤ)
  | zremHeartbeat (currentMax activeCount : ℤ)
  | setexActive (currentMax activeCount : ℤ)
  | saddActive
  | zaddHeartbeat (pos : ℕ)
  | zcardWaiting (currentMax activeCount : ℤ)
  | zaddWaiting
  | zaddNewHeartbeat
  | zcardNew
  deriving DecidableEq

/-- A call goes on with its next command or returns. -/
inductive Outcome where
  | next (stage : Stage)
  | returned (passed : Bool) (position : ℤ)
  deriving DecidableEq

/-- The commands of one round of `_pod_heartbeat`, each with the values read before it. -/
inductive PassStage (T : Type) where
  | setexPod
  | smembers
  | existsMember (m : T) (members expired : List T)
  | sremExpired (expired : List T)
  | zrangebyscore
  | zremWaiting (staleTokens : List T)
  | zremHeartbeat (staleTokens : List T)
  deriving DecidableEq

/-- The members that are left to look up, and what follows the last one. -/
def PassStage.existsNext {T : Type} (expired : List T) : List T → PassStage T
  | m :: members => .existsMember m members expired
  | [] =>
      match expired with
      | [] => .zrangebyscore
      | _ :: _ => .sremExpired expired

variable {C T Pod : Type} [DecidableEq C] [LinearOrder T] [DecidableEq Pod]

/-! ### The commands -/

section Commands

variable (cfg : Settings)

/-- The capacity computed from a page of pod keys. -/
def Settings.currentMax (podKeys : List Pod) : ℤ := (max podKeys.length 1 : ℕ) * cfg.slotsPerPod

/-- The next command of a call of `check_waiting_status`. A page of `SCAN` lists keys
that are present, each once. -/
def Settings.checkCommand (now : ℚ) (r : Reading T Pod) (userToken : T) (s : Store T Pod) :
    Stage → Option (Store T Pod × Outcome)
  | .existsActive =>
      some (s, .next (if s.active.live userToken now then .expireActive else .scanPods))
  | .expireActive =>
      some ({ s with active := s.active.expire userToken now cfg.userSessionTtl },
        .returned true 0)
  | .scanPods =>
      if r.podKeys.Nodup ∧ ∀ pod ∈ r.podKeys, s.podsAlive.live pod now = true then
        some (s, .next (.scardActive (cfg.currentMax r.podKeys)))
      else none
  | .scardActive currentMax =>
      some (s, .next (.zrankWaiting currentMax s.activeUsers.card))
  | .zrankWaiting currentMax activeCount =>
      match s.waitingQueue.zrank ZSet.byOrder userToken with
      | some pos =>
          some (s, .next (if pos < currentMax - activeCount then .zremWaiting currentMax activeCount
            else .zaddHeartbeat pos))
      | none =>
          some (s, .next (if activeCount < currentMax then .zcardWaiting currentMax activeCount
            else .zaddWaiting))
  | .zremWaiting currentMax activeCount =>
      some ({ s with waitingQueue := s.waitingQueue.zrem userToken },
        .next (.zremHeartbeat currentMax activeCount))
  | .zremHeartbeat currentMax activeCount =>
      some ({ s with waitingHeartbeat := s.waitingHeartbeat.zrem userToken },
        .next (.setexActive currentMax activeCount))
  | .setexActive _ _ =>
      some ({ s with active := s.active.set userToken now cfg.userSessionTtl },
        .next .saddActive)
  | .saddActive =>
      some ({ s with activeUsers := insert userToken s.activeUsers }, .returned true 0)
  | .zaddHeartbeat pos =>
      some ({ s with waitingHeartbeat := s.waitingHeartbeat.zadd userToken r.time },
        .returned false (pos + 1))
  | .zcardWaiting currentMax activeCount =>
      some (s, .next (if s.waitingQueue.zcard = 0 then .setexActive currentMax activeCount
        else .zaddWaiting))
  | .zaddWaiting =>
      some ({ s with waitingQueue := s.waitingQueue.zadd userToken r.time },
        .next .zaddNewHeartbeat)
  | .zaddNewHeartbeat =>
      some ({ s with waitingHeartbeat := s.waitingHeartbeat.zadd userToken r.time },
        .next .zcardNew)
  | .zcardNew => some (s, .returned false s.waitingQueue.zcard)

/-- The next command of a round of `_pod_heartbeat`, with `none` for the next stage at
the end of the round. -/
def heartbeatCommand (now : ℚ) (r : Reading T Pod) (heartbeatPodName : Pod) (s : Store T Pod) :
    PassStage T → Option (Store T Pod × Option (PassStage T))
  | .setexPod =>
      some ({ s with podsAlive := s.podsAlive.set heartbeatPodName now 30 }, some .smembers)
  | .smembers =>
      if r.members.Nodup ∧ r.members.toFinset = s.activeUsers then
        some (s, some (.existsNext [] r.members))
      else none
  | .existsMember m members expired =>
      some (s, some (.existsNext (if s.active.live m now then expired else expired ++ [m]) members))
  | .sremExpired expired =>
      some ({ s with activeUsers := s.activeUsers \ expired.toFinset }, some .zrangebyscore)
  | .zrangebyscore =>
      match s.waitingHeartbeat.rangeByScoreFrom ZSet.byOrder 0 (r.time - 30) with
      | [] => some (s, none)
      | m :: staleTokens => some (s, some (.zremWaiting (m :: staleTokens)))
  | .zremWaiting staleTokens =>
      some ({ s with waitingQueue := s.waitingQueue.zremAll staleTokens },
        some (.zremHeartbeat staleTokens))
  | .zremHeartbeat staleTokens =>
      some ({ s with waitingHeartbeat := s.waitingHeartbeat.zremAll staleTokens }, none)

end Commands

/-! ### Threads -/

/-- What a thread is doing. -/
inductive Task (T Pod : Type) where
  | idle
  | checking (userToken : T) (stage : Stage)
  | passing (heartbeatPodName : Pod) (stage : PassStage T)
  | returned (passed : Bool) (position : ℤ)
  deriving DecidableEq

/-- The thread runs neither a call nor a round. -/
def Task.Free : Task T Pod → Prop
  | .idle | .returned _ _ => True
  | _ => False

instance (t : Task T Pod) : Decidable t.Free :=
  match t with
  | .idle | .returned _ _ => isTrue trivial
  | .checking _ _ | .passing _ _ => isFalse id

/-- The token whose session key this thread has set and whose `SADD` is still to come. -/
def Task.admitted : Task T Pod → Option T
  | .checking userToken .saddActive => some userToken
  | _ => none

/-- The labels of the system: time passes, a thread starts a call with the token of its
request (none is an empty one) or a round of the heartbeat of a pod, or its next command
is executed. -/
inductive Act (C T Pod : Type) where
  | tick (dt : ℚ)
  | check (c : C) (userToken : Option T)
  | heartbeat (c : C) (heartbeatPodName : Pod)
  | next (c : C) (reading : Reading T Pod)

/-- The time of the Redis server, what it stores, and what each thread is doing. -/
structure World (C T Pod : Type) where
  now : ℚ
  store : Store T Pod
  task : C → Task T Pod

namespace World

/-- A thread's task and the store after its command. -/
def put (w : World C T Pod) (c : C) (s : Store T Pod) (task : Task T Pod) : World C T Pod :=
  { w with store := s, task := Function.update w.task c task }

section Put

variable (w : World C T Pod) (c : C) (s : Store T Pod) (task : Task T Pod)

omit [LinearOrder T] [DecidableEq Pod]

@[simp] lemma put_store : (w.put c s task).store = s := rfl

@[simp] lemma put_task_self : (w.put c s task).task c = task := Function.update_self ..

@[simp] lemma put_put (s' : Store T Pod) (task' : Task T Pod) :
    (w.put c s task).put c s' task' = w.put c s' task' := by
  rw [put, put, put, Function.update_idem]

lemma put_task_of_ne {d : C} (h : d ≠ c) : (w.put c s task).task d = w.task d :=
  Function.update_of_ne h ..

end Put

/-- The task after a command of `check_waiting_status`. -/
def afterCheck (userToken : T) : Outcome → Task T Pod
  | .next stage => .checking userToken stage
  | .returned passed position => .returned passed position

/-- The task after a command of a round. -/
def afterPass (heartbeatPodName : Pod) : Option (PassStage T) → Task T Pod
  | some stage => .passing heartbeatPodName stage
  | none => .idle

/-- One step. -/
def step (cfg : Settings) (w : World C T Pod) : Act C T Pod → Option (World C T Pod)
  | .tick dt => if 0 ≤ dt then some { w with now := w.now + dt } else none
  | .check c userToken =>
      if (w.task c).Free then
        match userToken with
        | some t =>
            some (w.put c w.store
              (if cfg.enableWaitingRoom then .checking t .existsActive else .returned true 0))
        | none => some (w.put c w.store (.returned true 0))
      else none
  | .heartbeat c pod =>
      if (w.task c).Free then some (w.put c w.store (.passing pod .setexPod)) else none
  | .next c r =>
      match w.task c with
      | .checking t stage =>
          (cfg.checkCommand w.now r t w.store stage).map fun o => w.put c o.1 (afterCheck t o.2)
      | .passing pod stage =>
          (heartbeatCommand w.now r pod w.store stage).map fun o => w.put c o.1 (afterPass pod o.2)
      | _ => none

end World

/-- The waiting room over an empty Redis. -/
def Settings.system (cfg : Settings) (C T Pod : Type) [DecidableEq C] [LinearOrder T]
    [DecidableEq Pod] : System (World C T Pod) (Act C T Pod) where
  init w := ∃ now, w = ⟨now, ⟨.none, ∅, ∅, ∅, .none⟩, fun _ => .idle⟩
  step := World.step cfg

/-! ### What a step can do -/

namespace World

/-- The token whose session key a step sets. -/
def admits (w : World C T Pod) : Act C T Pod → Option T
  | .next c _ =>
      match w.task c with
      | .checking t (.setexActive _ _) => some t
      | _ => none
  | _ => none

/-- The tokens that a step removes from the set. -/
def removes (w : World C T Pod) : Act C T Pod → List T
  | .next c _ =>
      match w.task c with
      | .passing _ (.sremExpired expired) => expired
      | _ => []
  | _ => []

/-- The steps, told by what they do to the sessions, to the set that counts them, and to
the admissions that are not counted yet. -/
inductive Transition (cfg : Settings) (w : World C T Pod) : Act C T Pod → World C T Pod → Prop
    where
  | tick (dt : ℚ) (hdt : 0 ≤ dt) : Transition cfg w (.tick dt) { w with now := w.now + dt }
  | quiet {a : Act C T Pod} {c : C} {s : Store T Pod} {task : Task T Pod}
      (active : s.active = w.store.active) (activeUsers : s.activeUsers = w.store.activeUsers)
      (admits : w.admits a = none) (before : (w.task c).admitted = none)
      (after : task.admitted = none) :
      Transition cfg w a (w.put c s task)
  | renew {c : C} {t : T} (r : Reading T Pod) (here : w.task c = .checking t .expireActive) :
      Transition cfg w (.next c r)
        (w.put c { w.store with
          active := w.store.active.expire t w.now cfg.userSessionTtl } (.returned true 0))
  | register {c : C} {t : T} {currentMax activeCount : ℤ} (r : Reading T Pod)
      (here : w.task c = .checking t (.setexActive currentMax activeCount)) :
      Transition cfg w (.next c r)
        (w.put c { w.store with active := w.store.active.set t w.now cfg.userSessionTtl }
          (.checking t .saddActive))
  | count {c : C} {t : T} (r : Reading T Pod) (here : w.task c = .checking t .saddActive) :
      Transition cfg w (.next c r)
        (w.put c { w.store with activeUsers := insert t w.store.activeUsers } (.returned true 0))
  | clean {c : C} {pod : Pod} {expired : List T} (r : Reading T Pod)
      (here : w.task c = .passing pod (.sremExpired expired)) :
      Transition cfg w (.next c r)
        (w.put c { w.store with activeUsers := w.store.activeUsers \ expired.toFinset }
          (.passing pod .zrangebyscore))

variable {cfg : Settings} {w w' : World C T Pod} {a : Act C T Pod} {c : C} {r : Reading T Pod}

omit [DecidableEq C] [LinearOrder T] [DecidableEq Pod] in
lemma admitted_of_free {t : Task T Pod} (h : t.Free) : t.admitted = none := by
  cases t with
  | idle | returned => rfl
  | checking | passing => cases h

/-- A command of `check_waiting_status` is one of the transitions. -/
lemma checkCommand_transition {t : T} {stage : Stage} {s : Store T Pod} {o : Outcome}
    (here : w.task c = .checking t stage)
    (h : cfg.checkCommand w.now r t w.store stage = some (s, o)) :
    Transition cfg w (.next c r) (w.put c s (afterCheck t o)) := by
  have before (hstage : stage ≠ .saddActive) : (w.task c).admitted = none := by
    rw [here]
    cases stage with
    | saddActive => exact absurd rfl hstage
    | _ => rfl
  have admits (hstage : ∀ currentMax activeCount, stage ≠ .setexActive currentMax activeCount) :
      w.admits (.next c r) = none := by
    rw [World.admits, here]
    cases stage with
    | setexActive => exact absurd rfl (hstage _ _)
    | _ => rfl
  cases stage with
  | expireActive =>
      cases h
      exact .renew r here
  | setexActive =>
      cases h
      exact .register r here
  | saddActive =>
      cases h
      exact .count r here
  | scanPods =>
      rw [Settings.checkCommand] at h
      split at h
      · cases h
        exact .quiet rfl rfl (admits nofun) (before nofun) rfl
      · cases h
  | zrankWaiting =>
      rw [Settings.checkCommand] at h
      split at h
      all_goals
        cases h
        refine .quiet rfl rfl (admits nofun) (before nofun) ?_
        split <;> rfl
  | existsActive | zcardWaiting =>
      cases h
      refine .quiet rfl rfl (admits nofun) (before nofun) ?_
      split <;> rfl
  | _ =>
      cases h
      exact .quiet rfl rfl (admits nofun) (before nofun) rfl

/-- A command of a heartbeat round is one of the transitions. -/
lemma heartbeatCommand_transition {pod : Pod} {stage : PassStage T} {s : Store T Pod}
    {o : Option (PassStage T)} (here : w.task c = .passing pod stage)
    (h : heartbeatCommand w.now r pod w.store stage = some (s, o)) :
    Transition cfg w (.next c r) (w.put c s (afterPass pod o)) := by
  have before : (w.task c).admitted = none := by rw [here]; rfl
  have admits : w.admits (.next c r) = none := by rw [World.admits, here]
  have after : (afterPass pod o : Task T Pod).admitted = none := by cases o <;> rfl
  cases stage with
  | sremExpired expired =>
      cases h
      exact .clean r here
  | smembers =>
      rw [heartbeatCommand] at h
      split at h
      · cases h
        exact .quiet rfl rfl admits before after
      · cases h
  | zrangebyscore =>
      rw [heartbeatCommand] at h
      split at h
      all_goals
        cases h
        exact .quiet rfl rfl admits before after
  | _ =>
      cases h
      exact .quiet rfl rfl admits before after

/-- **Inversion of a step.** -/
theorem step_transition (h : step cfg w a = some w') : Transition cfg w a w' := by
  cases a with
  | tick dt =>
      rw [step] at h
      split at h
      · rename_i hdt
        cases h
        exact .tick dt hdt
      · cases h
  | check c userToken =>
      simp only [step] at h
      split at h
      · rename_i hfree
        cases userToken with
        | none =>
            cases h
            exact .quiet rfl rfl rfl (admitted_of_free hfree) rfl
        | some t =>
            cases h
            refine .quiet rfl rfl rfl (admitted_of_free hfree) ?_
            split <;> rfl
      · cases h
  | heartbeat c pod =>
      rw [step] at h
      split at h
      · rename_i hfree
        cases h
        exact .quiet rfl rfl rfl (admitted_of_free hfree) rfl
      · cases h
  | next c r =>
      simp only [step] at h
      split at h
      · rename_i t stage here
        obtain ⟨⟨s, o⟩, ho, rfl⟩ := Option.map_eq_some_iff.mp h
        exact checkCommand_transition here ho
      · rename_i pod stage here
        obtain ⟨⟨s, o⟩, ho, rfl⟩ := Option.map_eq_some_iff.mp h
        exact heartbeatCommand_transition here ho
      · cases h

end World

end WaitingRoom

end FinOpsPipeline
