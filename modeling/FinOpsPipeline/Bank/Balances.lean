import FinOpsPipeline.Bank.Followers
import Mathlib.Algebra.Order.BigOperators.Group.List

/-!
The ledger that the payments leave behind.

* `Phase.transfer?`, `Sound`, `sound`: every payment under way and every row is valid, and
  every local payer has been paid before. This rests on where the shown balances come from
  (`credited_of_pos`).
* `waiting`, `reader_accounted`: where the balances that a reader shows come from.
* `null_balance`: the query gives `NULL` for accounts without postings, and for no others.
-/

namespace FinOpsPipeline

namespace Bank

open Follower

variable {ι τ ω : Type*} [DecidableEq ι] [DecidableEq τ] [DecidableEq ω] {d : Deployment}

/-! ### Payments under way -/

/-- The payment of a request that has passed the checks, with its writer. -/
def Phase.transfer? : Phase ι ω → Option (ω × Transfer)
  | checked w _ tx => some (w, tx)
  | loading w tx _ => some (w, tx)
  | funded w tx => some (w, tx)
  | saving w tx _ _ => some (w, tx)
  | _ => none

omit [DecidableEq ι] [DecidableEq ω] in
lemma replied_transfer {w : ω} {tx : Transfer} {balance : ℤ} {x : ω × Transfer}
    (h : (Phase.replied w tx balance : Phase ι ω).transfer? = some x) : (w, tx) = x := by
  rw [Phase.replied] at h
  split at h
  · exact Option.some.inj h
  · cases h

/-- A payment under way was so before, or has just passed the checks. -/
lemma Steps.transfer {s s' : State ι τ ω} {a : Act ι τ ω} (h : Steps d s a s') {t : τ} {w : ω}
    {tx : Transfer} (hp : (s'.phase t).transfer? = some (w, tx)) :
    (s.phase t).transfer? = some (w, tx) ∨ ∃ header r token, a = .submit t w header r ∧
      precheck d.localRoutingNum d.verify s.now (s.seen w) header r = .ok (token, tx) := by
  by_cases ht : a.thread? = some t
  · cases h with
    | tick | boot | run | rejected | got => exact .inl hp
    | @admitted t' w' header r token tx' hidle hcheck =>
        obtain rfl : t' = t := by simpa [Act.thread?] using ht
        obtain ⟨rfl, rfl⟩ : w' = w ∧ tx' = tx := by
          rw [setPhase_same, Phase.admitted] at hp
          split at hp <;> simpa [Phase.transfer?] using hp
        exact .inr ⟨header, r, token, rfl, hcheck⟩
    | @hit t' _ _ _ tx' _ _ hphase | @answered t' _ _ tx' _ _ _ _ hphase =>
        obtain rfl : t' = t := by simpa [Act.thread?] using ht
        rw [setPhase_same] at hp
        cases replied_transfer hp
        exact .inl (by rw [hphase]; rfl)
    | @miss t' _ _ _ _ _ _ hphase | @inserted t' _ _ hphase =>
        obtain rfl : t' = t := by simpa [Act.thread?] using ht
        rw [setPhase_same] at hp
        exact .inl (by rw [hphase]; exact hp)
    | refused | getMiss | loaded | committed | remembered | aborted =>
        simp only [Act.thread?, Option.some.injEq] at ht
        subst ht
        simp [Phase.transfer?] at hp
  · rw [h.phase_other ht] at hp
    exact .inl hp

/-- The loader that a payment waits for has loaded the balance of its sender. -/
def Waiting (s : State ι τ ω) : Prop :=
  ∀ t w tx i, s.phase t = .loading w tx i →
    ∃ r balance, s.readers i = some r ∧ r.loads t = some (tx.fromAccountNum, balance)

/-- A load is touched by its own thread only. -/
lemma loads_of_move {r r' : BalanceReader τ} {log : List Transaction} {m : Move τ String}
    (h : r.move (feed d.localRoutingNum) (balanceCell d.localRoutingNum) log m = some r') {t : τ}
    (hquery : ∀ k, m ≠ .query t k) (hstore : m ≠ .store t) : r'.loads t = r.loads t := by
  have hsite : Site.step (feed d.localRoutingNum) (balanceCell d.localRoutingNum) ⟨log, r⟩
      (.move m) = some ⟨log, r'⟩ := by simp [Site.step, h]
  have hsteps := Follower.steps_of_step _ _ hsite
  generalize Site.events _ _ _ _ = evs at hsteps
  cases hsteps with
  | poll | current | outOfSync | fail | evict => rfl
  | work hw =>
      cases hw with
      | done | take | finish | absent | found | lost | changed | read | wrote => rfl
  | @query t' k =>
      have ht : t ≠ t' := fun heq => hquery k (by rw [heq])
      simp [Function.update_of_ne ht]
  | @store t' k v =>
      have ht : t ≠ t' := fun heq => hstore (by rw [heq])
      simp [Function.update_of_ne ht]

lemma loads_of_query {r r' : BalanceReader τ} {log : List Transaction} {t : τ} {a : String}
    (h : r.move (feed d.localRoutingNum) (balanceCell d.localRoutingNum) log (.query t a) =
      some r') : r'.loads t = some (a, loadBalance d.localRoutingNum a log) := by
  simp only [Reader.move, Option.ite_none_right_eq_some, Option.some.injEq] at h
  obtain ⟨-, rfl⟩ := h
  simp [balanceCell]

omit [DecidableEq τ] [DecidableEq ω] in
/-- A reader that has moved without touching the load of a thread still has it. -/
lemma setReader_loads {s : State ι τ ω} {i j : ι} {r r₁ r' : BalanceReader τ} {t : τ}
    {load : String × ℤ} (hr : s.readers i = some r) (hload : r.loads t = some load)
    (hr₁ : s.readers j = some r₁) (hsame : r'.loads t = r₁.loads t) :
    ∃ r₂, (s.setReader j r').readers i = some r₂ ∧ r₂.loads t = some load := by
  rcases setReader_readers r' hr hr₁ with ⟨-, rfl, hnew⟩ | ⟨-, hold⟩
  · exact ⟨r', hnew, hsame.trans hload⟩
  · exact ⟨r, hold, hload⟩

lemma Steps.waiting {s s' : State ι τ ω} {a : Act ι τ ω} (hstep : Steps d s a s')
    (h : Waiting s) : Waiting s' := by
  intro t w tx i hp
  by_cases ht : a.thread? = some t
  · cases hstep with
    | tick | boot | run => cases ht
    | rejected | got => exact h t w tx i hp
    | @admitted t' w' header r token tx' =>
        obtain rfl : t' = t := by simpa [Act.thread?] using ht
        rw [setPhase_same, Phase.admitted] at hp
        split at hp <;> cases hp
    | hit | answered =>
        simp only [Act.thread?, Option.some.injEq] at ht
        subst ht
        rw [setPhase_same, Phase.replied] at hp
        split at hp <;> cases hp
    | @miss t' j w' token tx' r r' hphase hr _ hmove =>
        obtain rfl : t' = t := by simpa [Act.thread?] using ht
        simp only [setPhase_same, Phase.loading.injEq] at hp
        obtain ⟨rfl, rfl, rfl⟩ := hp
        exact ⟨r', _, by simp [State.setPhase, State.setReader], loads_of_query hmove⟩
    | refused | getMiss | loaded | inserted | committed | remembered | aborted =>
        simp only [Act.thread?, Option.some.injEq] at ht
        subst ht
        simp at hp
  · rw [hstep.phase_other ht] at hp
    obtain ⟨r, balance, hr, hload⟩ := h t w tx i hp
    suffices ∃ r₂, s'.readers i = some r₂ ∧ r₂.loads t = some (tx.fromAccountNum, balance) by
      obtain ⟨r₂, hr₂, hload₂⟩ := this
      exact ⟨r₂, balance, hr₂, hload₂⟩
    cases hstep with
    | tick | rejected | admitted | refused | hit | got | inserted | committed | remembered
    | aborted => exact ⟨r, hr, hload⟩
    | @boot j reached hnone =>
        have hij : i ≠ j := by
          rintro rfl
          simp [hr] at hnone
        exact ⟨r, by simpa [State.setReader, Function.update_of_ne hij] using hr, hload⟩
    | @run j b r₁ r' hr₁ hmove =>
        refine setReader_loads hr hload hr₁ (loads_of_move hmove ?_ ?_) <;>
          cases b <;> simp [Background.move]
    | @miss t' j w' token tx' r₁ r' _ hr₁ _ hmove | @getMiss t' j header a r₁ r' _ hr₁ hmove
    | @answered t' j w' tx' r₁ r' a' balance' _ hr₁ _ hmove | @loaded t' j r₁ r' _ hr₁ hmove =>
        have hne : t' ≠ t := by simpa [Act.thread?] using ht
        exact setReader_loads hr hload hr₁ (loads_of_move hmove (by simp [hne]) (by simp [hne]))

/-! ### Where the shown balances come from -/

section Runs

variable {log₀ : List Transaction} {ok : State ι τ ω → Act ι τ ω → Prop}

lemma waiting {s : State ι τ ω} (h : (bank d log₀).Run ok s) : Waiting s := by
  refine h.invariant (P := Waiting) ?_ ?_
  · rintro s ⟨-, now, nextId, -, -, rfl⟩
    simp [Waiting]
  · intro s a s' _ _ hs hstep
    exact (steps_of_step d hstep).waiting hs

/-- The postings that a reader has done or is about to do are of rows of the ledger. -/
lemma reader_postings {i : ι} {s : State ι τ ω} {evs : List (Follower.Event Transaction Posting)}
    (h : (bank d log₀).Emits ok (readerEvents d i) s evs) {r : BalanceReader τ}
    (hr : s.readers i = some r) {p : Posting} (hp : p ∈ handled evs ++ r.stage.pending) :
    p.transaction ∈ s.log ∧ p ∈ postings d.localRoutingNum p.transaction := by
  obtain ⟨log₁, p₁, -, -, hemits⟩ :=
    reader_emits (fun _ _ => True) (fun _ _ _ _ _ _ _ _ => trivial) h hr
  obtain ⟨undone, heq, -⟩ := handled_append_pending hemits
  have hmem : p ∈ (taken evs).flatMap (feed d.localRoutingNum).effects :=
    heq ▸ List.mem_append_left _ hp
  obtain ⟨t, ht, hpt⟩ := List.mem_flatMap.mp hmem
  obtain rfl : p.transaction = t := ((mem_postings _).mp hpt).1
  exact ⟨((order hemits).mem _ (List.mem_append_left _ ht)).1, hpt⟩

/-- What a reader of the bank holds is loaded from a beginning of the ledger, with the postings
done since. -/
lemma reader_accounted {i : ι} {s : State ι τ ω} {evs : List (Follower.Event Transaction Posting)}
    (h : (bank d log₀).Emits ok (readerEvents d i) s evs) {r : BalanceReader τ}
    (hr : s.readers i = some r) :
    Accounted (feed d.localRoutingNum) (balanceCell d.localRoutingNum) (s.site r)
      (handled evs) := by
  obtain ⟨log₁, p₁, -, -, hemits⟩ :=
    reader_emits (fun _ _ => True) (fun _ _ _ _ _ _ _ _ => trivial) h hr
  exact accounted hemits

end Runs

/-- A balance of an account can only be positive when a row of the ledger gives to it. -/
lemma credited_of_pos {log : List Transaction} (hpos : ∀ t ∈ log, 0 < t.amount)
    {done : List Posting} (hdone : ∀ p ∈ done, p.transaction ∈ log ∧
      p ∈ postings d.localRoutingNum p.transaction) {a : String} {v : ℤ}
    (h : Sourced (feed d.localRoutingNum) (balanceCell d.localRoutingNum) log done a v)
    (hv : 0 < v) : ∃ c ∈ log, Credits d.localRoutingNum a c := by
  obtain ⟨view, applied, hview, happlied, rfl⟩ := h
  by_contra hnone
  push Not at hnone
  have hload : loadBalance d.localRoutingNum a view = 0 := by
    have hempty : (view.filter fun t => Credits d.localRoutingNum a t) = [] :=
      List.filter_eq_nil_iff.mpr fun t ht => by simpa using hnone t (hview.subset ht)
    simp [loadBalance, findBalance, hempty]
  have hsum : (applied.map Posting.amount).sum ≤ 0 := by
    refine (List.sum_le_card_nsmul _ 0 fun x hx => ?_).trans_eq (nsmul_zero _)
    obtain ⟨p, hp, rfl⟩ := List.mem_map.mp hx
    obtain ⟨hpd, hkey⟩ := List.mem_filter.mp (happlied.subset hp)
    obtain ⟨hmem, hposting⟩ := hdone p hpd
    have hamount := hpos _ hmem
    rcases ((mem_postings _).mp hposting).2 with ⟨hside, -⟩ | ⟨hside, hroute⟩
    · simp only [Posting.amount, hside]
      omega
    · have hacct : p.transaction.toAccountNum = a := by
        simpa [feed, Posting.accountId, hside] using hkey
      exact absurd ⟨hacct, hroute⟩ (hnone _ hmem)
  rw [foldl_apply_eq (balanceCell_apply d.localRoutingNum)] at hv
  have hzero : (balanceCell d.localRoutingNum).load a view = 0 := hload
  omega

/-! ### A sound ledger -/

/-- Every payment under way and every row is valid, and a local sender has been paid before. -/
structure Sound (d : Deployment) (s : State ι τ ω) : Prop where
  valid : ∀ t w tx, (s.phase t).transfer? = some (w, tx) → tx.Valid
  positive : ∀ t ∈ s.log, 0 < t.amount
  proper : ∀ t ∈ s.log, t.Proper
  grounded : Grounded d.localRoutingNum s.log
  paid : ∀ t w tx, (s.phase t = .funded w tx ∨
    ∃ transactionId timestamp, s.phase t = .saving w tx transactionId timestamp) →
      tx.fromRoutingNum = d.localRoutingNum →
      ∃ c ∈ s.log, Credits d.localRoutingNum tx.fromAccountNum c

section Runs

variable {log₀ : List Transaction} {ok : State ι τ ω → Act ι τ ω → Prop}

/-- The balance on which a payment is granted is a sourced one. -/
lemma Grants.sourced {s : State ι τ ω} {a : Act ι τ ω} {w : ω} {tx : Transfer}
    (h : (bank d log₀).Run ok s) (hgrant : Grants d s w tx a)
    (hlocal : tx.fromRoutingNum = d.localRoutingNum) :
    ∃ balance done, covers balance tx = true ∧
      (∀ p ∈ done, p.transaction ∈ s.log ∧ p ∈ postings d.localRoutingNum p.transaction) ∧
      Sourced (feed d.localRoutingNum) (balanceCell d.localRoutingNum) s.log done
        tx.fromAccountNum balance := by
  cases hgrant with
  | submit _ hne => exact absurd hlocal hne
  | @ask t i token r balance hphase hr hc hcovers =>
      obtain ⟨evs, hevs⟩ := h.emits (readerEvents d i)
      exact ⟨balance, handled evs, hcovers,
        fun p hp => reader_postings hevs hr (List.mem_append_left _ hp),
        (reader_accounted hevs hr).cache _ _ hc⟩
  | @answer t i r a balance hphase hr hload hcovers =>
      obtain ⟨evs, hevs⟩ := h.emits (readerEvents d i)
      obtain ⟨r', balance', hr', hload'⟩ := waiting h t w tx i hphase
      obtain rfl : r = r' := by simpa [hr] using hr'
      obtain ⟨rfl, rfl⟩ : a = tx.fromAccountNum ∧ balance = balance' := by
        simpa [hload] using hload'
      obtain ⟨view, hview, hbalance⟩ := (reader_accounted hevs hr).loads _ _ _ hload
      exact ⟨balance, handled evs, hcovers,
        fun p hp => reader_postings hevs hr (List.mem_append_left _ hp),
        view, [], hview, List.nil_suffix, hbalance⟩

lemma covers_le {balance : ℤ} {tx : Transfer} (h : covers balance tx = true) :
    tx.amount ≤ balance := by
  simp only [covers, Bool.decide_and, Bool.and_eq_true, decide_eq_true_eq] at h
  exact h.2.2

/-- **The ledger is sound in every run**: whatever the order of the steps, no row has an amount
that is not positive or pays its own sender, and none takes from a local account that nothing
has been given to. -/
theorem sound {s : State ι τ ω} (h : (bank d log₀).Run ok s) : Sound d s := by
  refine h.invariant (P := Sound d) ?_ ?_
  · rintro s ⟨hfounded, now, nextId, -, -, rfl⟩
    exact ⟨by simp [Phase.transfer?], hfounded.positive, hfounded.proper, hfounded.grounded,
      by simp⟩
  · intro s a s' hrun hoka hs hstep
    have hsteps := steps_of_step d hstep
    have hvalid : ∀ t w tx, (s'.phase t).transfer? = some (w, tx) → tx.Valid := by
      intro t w tx hp
      rcases hsteps.transfer hp with hold | ⟨header, r, token, -, hcheck⟩
      · exact hs.valid t w tx hold
      · exact (precheck_ok _ _ hcheck).1
    have hfunded : ∀ t w tx, s'.phase t = .funded w tx →
        tx.fromRoutingNum = d.localRoutingNum →
        ∃ c ∈ s.log, Credits d.localRoutingNum tx.fromAccountNum c := by
      intro t w tx hp hlocal
      rcases hsteps.funded hp with hold | ⟨-, hgrant⟩
      · exact hs.paid t w tx (.inl hold) hlocal
      · obtain ⟨balance, done, hcovers, hdone, hsourced⟩ := hgrant.sourced hrun hlocal
        have hamount := (hvalid t w tx (by rw [hp]; rfl)).amount
        exact credited_of_pos hs.positive hdone hsourced (hamount.trans_le (covers_le hcovers))
    have hpaid : ∀ t w tx, (s'.phase t = .funded w tx ∨
        ∃ transactionId timestamp, s'.phase t = .saving w tx transactionId timestamp) →
        tx.fromRoutingNum = d.localRoutingNum →
        ∃ c ∈ s.log, Credits d.localRoutingNum tx.fromAccountNum c := by
      rintro t w tx (hp | ⟨transactionId, timestamp, hp⟩) hlocal
      · exact hfunded t w tx hp hlocal
      · rcases hsteps.saving hp with hold | ⟨-, hold, -⟩
        · exact hs.paid t w tx (.inr ⟨_, _, hold⟩) hlocal
        · exact hs.paid t w tx (.inl hold) hlocal
    have hpaid' : ∀ t w tx, (s'.phase t = .funded w tx ∨
        ∃ transactionId timestamp, s'.phase t = .saving w tx transactionId timestamp) →
        tx.fromRoutingNum = d.localRoutingNum →
        ∃ c ∈ s'.log, Credits d.localRoutingNum tx.fromAccountNum c := by
      intro t w tx hp hlocal
      obtain ⟨c, hc, hcredits⟩ := hpaid t w tx hp hlocal
      exact ⟨c, hsteps.log_grows.subset hc, hcredits⟩
    cases hsteps with
    | tick | boot | run | rejected | admitted | refused | hit | miss | got | getMiss | answered
    | loaded | inserted | remembered | aborted =>
        exact ⟨hvalid, hs.positive, hs.proper, hs.grounded, hpaid'⟩
    | @committed t w tx transactionId timestamp hphase =>
        have htx : tx.Valid := hs.valid t w tx (by rw [hphase]; rfl)
        refine ⟨hvalid, ?_, ?_, ?_, hpaid'⟩
        · intro r hr
          rcases List.mem_append.mp hr with hr | hr
          · exact hs.positive r hr
          · rw [List.mem_singleton.mp hr]
            exact htx.amount
        · intro r hr
          rcases List.mem_append.mp hr with hr | hr
          · exact hs.proper r hr
          · rw [List.mem_singleton.mp hr]
            exact htx.proper
        · exact hs.grounded.snoc fun hlocal => hs.paid t w tx (.inr ⟨_, _, hphase⟩) hlocal

/-- The rent is on the ledger, which is sound. -/
theorem sound_rent : ∃ s : State Bool Bool Unit, s.log.length = 2 ∧ Sound branch s := by
  obtain ⟨s, hs, hlog⟩ := (bank branch [salary]).exists_run_of_schedule (fun _ _ => True)
    morning_init (.boot true true :: payRent) (fun s => s.log.length == 2) (by decide +kernel)
  exact ⟨s, by simpa using hlog, sound hs⟩

/-- **`NULL` is an account without postings**: in every run, the query of an account gives no sum
exactly when the ledger has nothing on it, so that the loader's zero is its balance, and else
the sum of its postings. -/
theorem null_balance {s : State ι τ ω} (h : (bank d log₀).Run ok s) (a : String) :
    (findBalance d.localRoutingNum a s.log = none ↔ postingsOn d.localRoutingNum a s.log = []) ∧
      loadBalance d.localRoutingNum a s.log = ledgerBalance d.localRoutingNum a s.log := by
  have hg := (sound h).grounded
  refine ⟨?_, loadBalance_eq hg a⟩
  constructor
  · intro hnone
    have hcredits : (s.log.filter fun t => Credits d.localRoutingNum a t) = [] := by
      by_contra hne
      simp [findBalance, hne] at hnone
    refine List.eq_nil_iff_forall_not_mem.mpr fun p hp => ?_
    obtain ⟨hmem, hside⟩ := (mem_postingsOn _).mp hp
    rcases hside with ⟨-, hdebits⟩ | ⟨-, hcredit⟩
    · exact List.filter_eq_nil_iff.mp (hg.debits_eq_nil hcredits) _ hmem (by simpa using hdebits)
    · exact List.filter_eq_nil_iff.mp hcredits _ hmem (by simpa using hcredit)
  · intro hnone
    have hcredits : (s.log.filter fun t => Credits d.localRoutingNum a t) = [] := by
      refine List.filter_eq_nil_iff.mpr fun t ht hcredit => ?_
      have hp : (⟨.credit, t⟩ : Posting) ∈ postingsOn d.localRoutingNum a s.log :=
        (mem_postingsOn _).mpr ⟨ht, .inr ⟨rfl, by simpa using hcredit⟩⟩
      rw [hnone] at hp
      cases hp
    simp [findBalance, hcredits]

/-- The landlord, to whom nothing was given before the rent, has a balance after it. -/
theorem null_balance_rent : ∃ s : State Bool Bool Unit,
    loadBalance "883745000" "1033623433" s.log = 200 ∧
      (findBalance "883745000" "1033623433" s.log = none ↔
        postingsOn "883745000" "1033623433" s.log = []) ∧
      loadBalance "883745000" "1033623433" s.log =
        ledgerBalance "883745000" "1033623433" s.log := by
  obtain ⟨s, hs, hbalance⟩ := (bank branch [salary]).exists_run_of_schedule (fun _ _ => True)
    morning_init (.boot true true :: payRent)
    (fun s => loadBalance "883745000" "1033623433" s.log == 200) (by decide +kernel)
  exact ⟨s, by simpa using hbalance, null_balance hs "1033623433"⟩

end Runs

end Bank

end FinOpsPipeline
