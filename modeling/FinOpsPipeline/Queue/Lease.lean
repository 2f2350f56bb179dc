import FinOpsPipeline.Queue.Worker
import Mathlib.Tactic.Linarith

/-!
The leases of the interleaved queue.

`ensure_processing_leases` gives an entry without a lease the deadline
`now + visibility_timeout_seconds`, where `now` was read when the recovery scan
began.

* `CurrentTime`, `FreshLease`: the guards of the steps. Scans are called with the
  current time, and a lease is added only for an entry that was moved no later
  than the time the scan works with.
* `LeaseInv`: under the guards a lease never ends before the timeout of its
  entry, and the entries a recovery scan works on are due.
* `run_leaseInv`: it holds in every run that meets the guards (`Punctual`).
-/

namespace FinOpsPipeline

variable {C P R : Type} [DecidableEq C] [DecidableEq R]

namespace World

/-- The lease that a step adds for an entry without one: the entry, and the
time the `ensure_processing_leases` call works with. -/
def leaseAdded (w : World C P R) : Act C P → Option (R × ℚ)
  | .next c =>
      match w.task c with
      | .ensureZadd _ now _ raw _ =>
          if (w.store.leases.zscore raw).isNone then some (raw, now) else none
      | _ => none
  | _ => none

/-- A lease is added only for an entry that was moved to processing no later
than the time the call works with. -/
def FreshLease (w : World C P R) (a : Act C P) : Prop :=
  ∀ lease, w.leaseAdded a = some lease → ∀ t, w.movedAt lease.1 = some t → t ≤ lease.2

instance (w : World C P R) (a : Act C P) : Decidable (w.FreshLease a) :=
  inferInstanceAs (Decidable (∀ lease, w.leaseAdded a = some lease →
    ∀ t, w.movedAt lease.1 = some t → t ≤ lease.2))

/-- `recover_stale` and `ensure_processing_leases` are called with the current time. -/
def CurrentTime (w : World C P R) : Act C P → Prop
  | .ensureProcessingLeases _ nowTimestamp => nowTimestamp = w.clock
  | .recoverStale _ nowTimestamp => nowTimestamp.getD w.clock = w.clock
  | _ => True

instance (w : World C P R) (a : Act C P) : Decidable (w.CurrentTime a) := by
  cases a <;> unfold CurrentTime <;> infer_instance

/-- The guard of the steps: scans use the current time, leases are added fresh. -/
def Punctual (w : World C P R) (a : Act C P) : Prop := w.CurrentTime a ∧ w.FreshLease a

instance (w : World C P R) (a : Act C P) : Decidable (w.Punctual a) :=
  inferInstanceAs (Decidable (w.CurrentTime a ∧ w.FreshLease a))

variable {svc : QueueService P R} {w w' : World C P R} {a : Act C P}

/-! ### Leases -/

/-- The entry was moved at least the visibility timeout ago. -/
def Due (svc : QueueService P R) (w : World C P R) (raw : R) : Prop :=
  ∃ t, .moved raw t ∈ w.log ∧ t + svc.visibilityTimeoutSeconds ≤ w.clock

/-- What the leases need to hold at the point a client has reached. -/
def LeaseOk (svc : QueueService P R) (w : World C P R) : Task P R → Prop
  | .reserveNow raw => w.Moved raw
  | .reserveZadd raw d => ∃ t, .moved raw t ∈ w.log ∧ t + svc.visibilityTimeoutSeconds ≤ d
  | .ensureLrange _ now | .recoverZrange now => now ≤ w.clock
  | .ensureZscore _ now _ raw todo | .ensureZadd _ now _ raw todo =>
      now ≤ w.clock ∧ ∀ r ∈ raw :: todo, w.Moved r
  | .recoverExists raw todo _ | .recoverFail raw todo _ | .recoverDrop raw todo _ =>
      ∀ r ∈ raw :: todo, Due svc w r
  | .retryWatch call | .retryLpos call _ | .retryExec call _ | .retryZrem call =>
      ∀ todo result, call.caller = .recovery todo result → ∀ r ∈ call.raw :: todo, Due svc w r
  | _ => True

/-- A lease never ends before the visibility timeout of its entry, and the
entries that a recovery scan works on are due. -/
structure LeaseInv (svc : QueueService P R) (w : World C P R) : Prop where
  leased : ∀ raw d, w.store.leases.zscore raw = some d →
    ∃ t, .moved raw t ∈ w.log ∧ t + svc.visibilityTimeoutSeconds ≤ d
  past : ∀ raw t, .moved raw t ∈ w.log → t ≤ w.clock
  held : ∀ raw ∈ w.store.processing.items, w.Moved raw
  tasks : ∀ c, w.LeaseOk svc (w.task c)

section Leases

omit [DecidableEq C] [DecidableEq R] in
lemma LeaseOk.mono (hlog : w.log ⊆ w'.log) (hclock : w.clock ≤ w'.clock) {t : Task P R}
    (h : w.LeaseOk svc t) : w'.LeaseOk svc t := by
  have hmoved : ∀ {raw}, w.Moved raw → w'.Moved raw := fun ⟨t, ht⟩ => ⟨t, hlog ht⟩
  have hdue : ∀ {raw}, w.Due svc raw → w'.Due svc raw :=
    fun ⟨t, ht, hle⟩ => ⟨t, hlog ht, hle.trans hclock⟩
  cases t with
  | reserveNow raw => exact hmoved h
  | reserveZadd raw d =>
      obtain ⟨t, ht, hle⟩ := h
      exact ⟨t, hlog ht, hle⟩
  | ensureLrange | recoverZrange => exact le_trans h hclock
  | ensureZscore | ensureZadd => exact ⟨h.1.trans hclock, fun r hr => hmoved (h.2 r hr)⟩
  | recoverExists | recoverFail | recoverDrop => exact fun r hr => hdue (h r hr)
  | retryWatch | retryLpos | retryExec | retryZrem =>
      exact fun todo result hc r hr => hdue (h todo result hc r hr)
  | _ => trivial

omit [DecidableEq C] [DecidableEq R] in
lemma leaseOk_ensureNext {scan : Bool} {now : ℚ} {added : ℕ} {todo : List R}
    (hnow : now ≤ w.clock) (htodo : ∀ r ∈ todo, w.Moved r) :
    w.LeaseOk svc (.ensureNext scan now added todo) := by
  cases todo with
  | nil =>
      cases scan with
      | false => trivial
      | true => exact hnow
  | cons raw todo => exact ⟨hnow, htodo⟩

omit [DecidableEq C] [DecidableEq R] in
lemma leaseOk_recoverNext {result : Recovered} {todo : List R}
    (htodo : ∀ r ∈ todo, Due svc w r) : w.LeaseOk svc (.recoverNext result todo) := by
  cases todo with
  | nil => trivial
  | cons raw todo => exact htodo

omit [DecidableEq C] [DecidableEq R] in
lemma leaseOk_retryReturn {call : RetryCall R} {outcome : Option Destination}
    (h : ∀ todo result, call.caller = .recovery todo result →
      ∀ r ∈ call.raw :: todo, Due svc w r) :
    w.LeaseOk svc (.retryReturn call outcome) := by
  rw [Task.retryReturn.eq_def]
  split
  · trivial
  all_goals
    rename_i todo result hc
    exact leaseOk_recoverNext fun r hr => h todo result hc r (List.mem_cons_of_mem _ hr)

omit [DecidableEq C] in
/-- A step that only reads keeps what the leases need, if the scans start with
the current time. -/
lemma Reads.leaseOk (linv : w.LeaseInv svc) {c : C} {t : Task P R} (current : w.CurrentTime a)
    (h : Reads svc w c a t) : w.LeaseOk svc t := by
  have hc := linv.tasks c
  cases h with
  | fail => exact nofun
  | ensure nowTimestamp _ => exact le_of_eq current
  | recover nowTimestamp _ => exact le_of_eq current
  | stamp here =>
      rw [here] at hc
      obtain ⟨t, ht⟩ := hc
      exact ⟨t, ht, by linarith [linv.past _ _ ht]⟩
  | watch here | lposFound here | lposMissing here | watchError here
  | zscoreMissing here | completed here | notCompleted here =>
      rw [here] at hc
      exact hc
  | lrange here =>
      rw [here] at hc
      exact leaseOk_ensureNext hc linv.held
  | zscorePresent here =>
      rw [here] at hc
      exact leaseOk_ensureNext hc.1 fun r hr => hc.2 r (List.mem_cons_of_mem _ hr)
  | zrange here =>
      rw [here] at hc
      refine leaseOk_recoverNext fun r hr => ?_
      obtain ⟨d, hd, hle⟩ := ZSet.zscore_of_mem_rangeByScore hr
      obtain ⟨t, ht, htd⟩ := linv.leased r d hd
      exact ⟨t, ht, htd.trans (hle.trans hc)⟩
  | recoverFail here =>
      rw [here] at hc
      intro todo result heq
      cases heq
      exact hc
  | _ => trivial

omit [DecidableEq R] in
lemma forall_update {Q : Task P R → Prop} {c : C} {t : Task P R}
    (hother : ∀ d, Q (w.task d)) (ht : Q t) (d : C) : Q (Function.update w.task c t d) := by
  by_cases hd : d = c
  · subst hd
    rwa [Function.update_self]
  · rw [Function.update_of_ne hd]
    exact hother d

/-- The leases after the transaction of `retry_or_dead_letter`. -/
lemma leases_retry (w : World C P R) (c : C) (call : RetryCall R) :
    (w.retry svc c call).store.leases = w.store.leases.zrem call.raw := by
  simp only [retry]
  split <;> rfl

/-- The processing list after the transaction of `retry_or_dead_letter`. -/
lemma processing_retry (w : World C P R) (c : C) (call : RetryCall R) :
    (w.retry svc c call).store.processing = w.store.processing.lrem call.raw := by
  simp only [retry]
  split <;> rfl

/-- No step turns the clock back. -/
lemma Transition.clock_le (h : Transition svc w a w') : w.clock ≤ w'.clock := by
  cases h with
  | tick later => exact later
  | _ => exact le_rfl

/-- A lease after a step is a lease before it, or it ends no earlier than the
visibility timeout of its entry. -/
lemma Transition.leased (inv : w.Inv svc) (linv : w.LeaseInv svc) (fresh : w.FreshLease a)
    (h : Transition svc w a w') {raw : R} {d : ℚ} (hd : w'.store.leases.zscore raw = some d) :
    ∃ t, .moved raw t ∈ w.log ∧ t + svc.visibilityTimeoutSeconds ≤ d := by
  cases h with
  | tick | read | build | rpush | lmove => exact linv.leased raw d hd
  | ack | retryZrem | drop => exact linv.leased raw d (ZSet.zscore_zrem hd)
  | exec =>
      rw [leases_retry] at hd
      exact linv.leased raw d (ZSet.zscore_zrem hd)
  | @reserveZadd c raw₀ leaseDeadline here =>
      have hc := linv.tasks c
      rw [here] at hc
      by_cases heq : raw = raw₀
      · subst heq
        rw [withLeases, ZSet.zscore_zadd_self] at hd
        exact Option.some.inj hd ▸ hc
      · rw [withLeases, ZSet.zscore_zadd_of_ne _ _ heq] at hd
        exact linv.leased raw d hd
  | @ensureZadd c scan now added raw₀ todo here =>
      have hc := linv.tasks c
      rw [here] at hc
      rcases ZSet.zscore_zaddNX hd with hold | ⟨rfl, hnone, rfl⟩
      · exact linv.leased raw d hold
      · obtain ⟨t, ht⟩ := hc.2 raw List.mem_cons_self
        have hadded : w.leaseAdded (.next c) = some (raw, now) := by
          simp [leaseAdded, here, hnone]
        have hle : t ≤ now := fresh _ hadded t (inv.movedAt_eq ht)
        exact ⟨t, ht, by linarith⟩
  | delete => cases hd

/-- **A guarded step preserves the invariant of the leases.** -/
theorem Transition.leaseInv (inv : w.Inv svc) (linv : w.LeaseInv svc)
    (current : w.CurrentTime a) (fresh : w.FreshLease a) (h : Transition svc w a w') :
    w'.LeaseInv svc := by
  have hgrow : ∀ d, w'.LeaseOk svc (w.task d) :=
    fun d => (linv.tasks d).mono h.grows.log h.clock_le
  have hmoved : ∀ {raw}, w.Moved raw → w'.Moved raw := fun ⟨t, ht⟩ => ⟨t, h.grows.log ht⟩
  refine ⟨?_, ?_, ?_, ?_⟩
  · intro raw d hd
    obtain ⟨t, ht, hle⟩ := h.leased inv linv fresh hd
    exact ⟨t, h.grows.log ht, hle⟩
  · intro raw t ht
    cases h with
    | tick later => exact (linv.past raw t ht).trans later
    | read | build | reserveZadd | retryZrem | ensureZadd => exact linv.past raw t ht
    | rpush | ack | exec | drop | delete =>
        rcases List.mem_cons.mp ht with heq | hold
        · cases heq
        · exact linv.past raw t hold
    | lmove =>
        rcases List.mem_cons.mp ht with heq | hold
        · cases heq
          exact le_rfl
        · exact linv.past raw t hold
  · intro raw hraw
    cases h with
    | tick | read | build | rpush | reserveZadd | retryZrem | ensureZadd =>
        exact hmoved (linv.held raw hraw)
    | lmove =>
        rcases List.mem_append.mp hraw with hold | hnew
        · exact hmoved (linv.held raw hold)
        · rw [List.mem_singleton.mp hnew]
          exact ⟨w.clock, List.mem_cons_self⟩
    | ack | drop => exact hmoved (linv.held raw (ListKey.mem_of_mem_lrem hraw))
    | exec =>
        rw [processing_retry] at hraw
        exact hmoved (linv.held raw (ListKey.mem_of_mem_lrem hraw))
    | delete => cases hraw
  · have hstep := h
    cases h with
    | tick => exact hgrow
    | read reads =>
        exact forall_update hgrow
          ((reads.leaseOk linv current).mono (List.Subset.refl _) le_rfl)
    | build | rpush | ack | delete => exact forall_update hgrow trivial
    | reserveZadd => exact forall_update hgrow trivial
    | lmove => exact forall_update hgrow ⟨w.clock, List.mem_cons_self⟩
    | @exec c call seen here =>
        have hc := hgrow c
        rw [here] at hc
        exact forall_update hgrow (leaseOk_retryReturn hc)
    | @retryZrem c call here =>
        have hc := hgrow c
        rw [here] at hc
        exact forall_update hgrow (leaseOk_retryReturn hc)
    | @ensureZadd c scan now added raw todo here =>
        have hc := hgrow c
        rw [here] at hc
        exact forall_update hgrow
          (leaseOk_ensureNext hc.1 fun r hr => hc.2 r (List.mem_cons_of_mem _ hr))
    | @drop c raw todo result here =>
        have hc := hgrow c
        rw [here] at hc
        exact forall_update hgrow
          (leaseOk_recoverNext fun r hr => hc r (List.mem_cons_of_mem _ hr))

omit [DecidableEq C] in
lemma leaseInv_start (now : ℚ) : (start now : World C P R).LeaseInv svc where
  leased := fun _ _ h => by cases h
  past := fun _ _ h => by cases h
  held := fun _ h => by cases h
  tasks := fun _ => trivial

/-- The invariant of the leases holds in every punctual run. -/
theorem run_leaseInv (hw : (svc.system C).Run Punctual w) : w.LeaseInv svc := by
  refine System.Run.invariant ?_ ?_ hw
  · rintro s ⟨now, rfl⟩
    exact leaseInv_start now
  · intro s b t hs hok linv ht
    exact (step_transition ht).leaseInv (reachable_inv hs) linv hok.1 hok.2

end Leases

end World

end FinOpsPipeline
