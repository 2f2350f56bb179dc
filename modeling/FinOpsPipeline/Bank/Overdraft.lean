import FinOpsPipeline.Bank.Coherence

/-!
When no account is overdrawn.

The ledger writer compares the amount with a balance that may be old when the row is
committed. What it takes for the comparison to protect an account is that its payments are
granted one at a time, by readers that have done its debits.

* `Replies`, `Serial`: the steps that show a balance, and the condition on them.
* `Covered`: every balance and every granted payment is covered by the ledger.
* `no_overdraft`: serial replies and careful loads keep every local balance from being negative.
-/

namespace FinOpsPipeline

namespace Bank

open Follower

variable {ι τ ω : Type*} [DecidableEq ι] [DecidableEq τ] [DecidableEq ω] {d : Deployment}
  {log₀ : List Transaction} {ok : State ι τ ω → Act ι τ ω → Prop}

/-- Reader `i` shows the balance for the payment of a thread. -/
inductive Replies (s : State ι τ ω) : Act ι τ ω → ι → τ → Transfer → Prop where
  | ask {t : τ} {i : ι} {w : ω} {token : String} {tx : Transfer} :
      s.phase t = .checked w token tx → Replies s (.ask t i) i t tx
  | answer {t : τ} {i : ι} {w : ω} {tx : Transfer} :
      s.phase t = .loading w tx i → Replies s (.answer t) i t tx

/-- A payment that has been granted and is not committed. -/
def Granted (s : State ι τ ω) (t : τ) (tx : Transfer) : Prop :=
  ∃ w, s.phase t = .funded w tx ∨
    ∃ transactionId timestamp, s.phase t = .saving w tx transactionId timestamp

/-- A balance is shown by a live reader that has done every debit of the account, and while no
payment from the account is granted. -/
def Serial (d : Deployment) (s : State ι τ ω) (a : Act ι τ ω) : Prop :=
  ∀ i t tx r, Replies s a i t tx → s.readers i = some r →
    r.stage ≠ .dead ∧
      (∀ q ∈ s.log, r.position (feed d.localRoutingNum) < q.transactionId →
        ¬Debits d.localRoutingNum tx.fromAccountNum q) ∧
      (∀ p ∈ pendingOn r tx.fromAccountNum, p.side = .credit) ∧
      ∀ t' tx', Granted s t' tx' → tx'.fromRoutingNum = d.localRoutingNum →
        tx'.fromAccountNum ≠ tx.fromAccountNum

/-- Every balance and every granted payment is covered, and no two payments are granted from
one account. -/
structure Covered (d : Deployment) (s : State ι τ ω) : Prop where
  nonneg : ∀ a, 0 ≤ ledgerBalance d.localRoutingNum a s.log
  granted : ∀ t tx, Granted s t tx → tx.fromRoutingNum = d.localRoutingNum →
    tx.amount ≤ ledgerBalance d.localRoutingNum tx.fromAccountNum s.log
  unique : ∀ t t' tx tx', Granted s t tx → Granted s t' tx' →
    tx.fromRoutingNum = d.localRoutingNum → tx'.fromRoutingNum = d.localRoutingNum →
      tx.fromAccountNum = tx'.fromAccountNum → t = t'

omit [DecidableEq ι] [DecidableEq τ] [DecidableEq ω] in
/-- Rows without a debit of the account do not lower its balance. -/
lemma ledgerBalance_nonneg {rows : List Transaction} (hpos : ∀ t ∈ rows, 0 < t.amount) {a : String}
    (hnone : ∀ t ∈ rows, ¬Debits d.localRoutingNum a t) :
    0 ≤ ledgerBalance d.localRoutingNum a rows := by
  refine List.sum_nonneg fun x hx => ?_
  obtain ⟨p, hp, rfl⟩ := List.mem_map.mp hx
  obtain ⟨hmem, hside⟩ := (mem_postingsOn _).mp hp
  rcases hside with ⟨-, hd⟩ | ⟨hside, -⟩
  · exact absurd hd (hnone _ hmem)
  · simp only [Posting.amount, hside]
    exact (hpos _ hmem).le

/-- A granted payment was granted before, or is granted by the step. -/
lemma Steps.granted {s s' : State ι τ ω} {a : Act ι τ ω} (h : Steps d s a s') {t : τ}
    {tx : Transfer} (hp : Granted s' t tx) :
    Granted s t tx ∨ (a.thread? = some t ∧ ∃ w, Grants d s w tx a) := by
  obtain ⟨w, hp | ⟨transactionId, timestamp, hp⟩⟩ := hp
  · rcases h.funded hp with hold | ⟨ht, hgrant⟩
    · exact .inl ⟨w, .inl hold⟩
    · exact .inr ⟨ht, w, hgrant⟩
  · rcases h.saving hp with hold | ⟨-, hold, -⟩
    · exact .inl ⟨w, .inr ⟨_, _, hold⟩⟩
    · exact .inl ⟨w, .inl hold⟩

/-- A serial reply shows no more than the ledger has. -/
lemma Serial.covers (hsorted : log₀.Pairwise fun t u => t.transactionId < u.transactionId)
    (hok : ∀ s a, ok s a →
      InIdOrder s a ∧ (∀ i accountId, CarefulLoads d i accountId s a) ∧ Serial d s a)
    {s : State ι τ ω} (h : (bank d log₀).Run ok s) {a : Act ι τ ω} (hoka : ok s a) {w : ω}
    {tx : Transfer} (hgrant : Grants d s w tx a)
    (hlocal : tx.fromRoutingNum = d.localRoutingNum) :
    tx.amount ≤ ledgerBalance d.localRoutingNum tx.fromAccountNum s.log ∧
      ∀ t' tx', Granted s t' tx' → tx'.fromRoutingNum = d.localRoutingNum →
        tx'.fromAccountNum ≠ tx.fromAccountNum := by
  -- what a reader has of the rows up to its position is no more than the ledger has
  have hle : ∀ i r, s.readers i = some r → r.stage ≠ .dead →
      (∀ q ∈ s.log, r.position (feed d.localRoutingNum) < q.transactionId →
        ¬Debits d.localRoutingNum tx.fromAccountNum q) →
      ledgerBalance d.localRoutingNum tx.fromAccountNum
          ((s.site r).begun (feed d.localRoutingNum)) ≤
        ledgerBalance d.localRoutingNum tx.fromAccountNum s.log := by
    intro i r hr hlive hafter
    obtain ⟨hin, -, -⟩ := reader_coherent tx.fromAccountNum hsorted
      (fun s a h => ⟨(hok s a h).1, (hok s a h).2.1 i tx.fromAccountNum⟩) h hr hlive
    have hrest : 0 ≤ ledgerBalance d.localRoutingNum tx.fromAccountNum
        (rowsAfter (feed d.localRoutingNum) s.log (r.position (feed d.localRoutingNum))) :=
      ledgerBalance_nonneg (fun t ht => (sound h).positive t ((mem_rowsAfter _).mp ht).1)
        fun t ht => hafter t ((mem_rowsAfter _).mp ht).1 ((mem_rowsAfter _).mp ht).2
    have hsplit := (ledgerBalance_split hin (sound h).grounded tx.fromAccountNum).2
    omega
  cases hgrant with
  | submit _ hne => exact absurd hlocal hne
  | @ask t i token r balance hphase hr hc hcovers =>
      obtain ⟨hlive, hafter, hpending, hothers⟩ :=
        (hok s _ hoka).2.2 i t tx r (.ask hphase) hr
      refine ⟨?_, hothers⟩
      obtain ⟨-, hcache, -⟩ := reader_coherent tx.fromAccountNum hsorted
        (fun s a h => ⟨(hok s a h).1, (hok s a h).2.1 i tx.fromAccountNum⟩) h hr hlive
      have hbalance := hcache balance hc
      obtain ⟨evs, hevs⟩ := h.emits (readerEvents d i)
      have hcredits : 0 ≤ total (pendingOn r tx.fromAccountNum) := by
        refine List.sum_nonneg fun x hx => ?_
        obtain ⟨p, hp, rfl⟩ := List.mem_map.mp hx
        have hmem := reader_postings hevs hr
          (List.mem_append_right _ (List.mem_filter.mp hp).1)
        simp only [Posting.amount, hpending p hp]
        exact ((sound h).positive _ hmem.1).le
      have hshown := hle i r hr hlive hafter
      have hamount := covers_le hcovers
      omega
  | @answer t i r a balance hphase hr hload hcovers =>
      obtain ⟨hlive, hafter, -, hothers⟩ := (hok s _ hoka).2.2 i t tx r (.answer hphase) hr
      refine ⟨?_, hothers⟩
      obtain ⟨r', balance', hr', hload'⟩ := waiting h t w tx i hphase
      obtain rfl : r = r' := by simpa [hr] using hr'
      obtain ⟨rfl, rfl⟩ : a = tx.fromAccountNum ∧ balance = balance' := by
        simpa [hload] using hload'
      obtain ⟨-, -, hloads⟩ := reader_coherent tx.fromAccountNum hsorted
        (fun s a h => ⟨(hok s a h).1, (hok s a h).2.1 i tx.fromAccountNum⟩) h hr hlive
      have hbalance := hloads t balance hload
      have hshown := hle i r hr hlive hafter
      have hamount := covers_le hcovers
      omega

omit [DecidableEq ι] [DecidableEq τ] [DecidableEq ω] in
/-- What a committed row does to the balance of an account that it takes nothing from. -/
lemma ledgerBalance_append_le {rows : List Transaction} {t : Transaction} (hpos : 0 < t.amount)
    {a : String} (hnone : ¬Debits d.localRoutingNum a t) :
    ledgerBalance d.localRoutingNum a rows ≤ ledgerBalance d.localRoutingNum a (rows ++ [t]) := by
  have hone : 0 ≤ ledgerBalance d.localRoutingNum a [t] :=
    ledgerBalance_nonneg (by simpa using hpos) (by simpa using hnone)
  rw [ledgerBalance_append]
  omega

/-- **No overdraft**: when rows are committed in the order of their ids, the loads are careful and
the balances are shown serially, no local account has a negative balance, in any run from a
ledger without one. -/
theorem no_overdraft (hsorted : log₀.Pairwise fun t u => t.transactionId < u.transactionId)
    (hok : ∀ s a, ok s a →
      InIdOrder s a ∧ (∀ i accountId, CarefulLoads d i accountId s a) ∧ Serial d s a)
    (hnonneg : ∀ a, 0 ≤ ledgerBalance d.localRoutingNum a log₀) {s : State ι τ ω}
    (h : (bank d log₀).Run ok s) (a : String) : 0 ≤ ledgerBalance d.localRoutingNum a s.log := by
  suffices Covered d s from this.nonneg a
  refine h.invariant (P := Covered d) ?_ ?_
  · rintro s ⟨-, now, nextId, -, -, rfl⟩
    exact ⟨hnonneg, by simp [Granted], by simp [Granted]⟩
  · intro s a s' hrun hoka hs hstep
    have hsteps := steps_of_step d hstep
    have hsound := sound hrun
    -- what the granted payments ask for is there before the step
    have hgranted : ∀ t tx, Granted s' t tx → tx.fromRoutingNum = d.localRoutingNum →
        tx.amount ≤ ledgerBalance d.localRoutingNum tx.fromAccountNum s.log := by
      intro t tx hp hlocal
      rcases hsteps.granted hp with hold | ⟨-, w, hgrant⟩
      · exact hs.granted t tx hold hlocal
      · exact (Serial.covers hsorted hok hrun hoka hgrant hlocal).1
    have hunique : ∀ t t' tx tx', Granted s' t tx → Granted s' t' tx' →
        tx.fromRoutingNum = d.localRoutingNum → tx'.fromRoutingNum = d.localRoutingNum →
          tx.fromAccountNum = tx'.fromAccountNum → t = t' := by
      intro t t' tx tx' hp hp' hlocal hlocal' heq
      rcases hsteps.granted hp with hold | ⟨ht, w, hgrant⟩ <;>
        rcases hsteps.granted hp' with hold' | ⟨ht', w', hgrant'⟩
      · exact hs.unique t t' tx tx' hold hold' hlocal hlocal' heq
      · exact absurd heq ((Serial.covers hsorted hok hrun hoka hgrant' hlocal').2 t tx hold hlocal)
      · exact absurd heq.symm
          ((Serial.covers hsorted hok hrun hoka hgrant hlocal).2 t' tx' hold' hlocal')
      · simpa [ht] using ht'
    have hback : ∀ t tx, Granted s' t tx → Granted s t tx ∨ a.thread? = some t :=
      fun t tx hp => (hsteps.granted hp).imp_right fun h => h.1
    cases hsteps with
    | tick | boot | run | rejected | admitted | refused | hit | miss | got | getMiss | answered
    | loaded | inserted | remembered | aborted => exact ⟨hs.nonneg, hgranted, hunique⟩
    | @committed t w tx transactionId timestamp hphase =>
        have hold : Granted s t tx := ⟨w, .inr ⟨_, _, hphase⟩⟩
        have hamount : 0 < tx.amount := (hsound.valid t w tx (by rw [hphase]; rfl)).amount
        refine ⟨fun a => ?_, fun t' tx' hp hlocal => ?_, hunique⟩
        · change 0 ≤ ledgerBalance d.localRoutingNum a
            (s.log ++ [tx.row transactionId timestamp])
          by_cases hd : Debits d.localRoutingNum a (tx.row transactionId timestamp)
          · obtain ⟨rfl, hlocal⟩ := hd
            have hcovered := hs.granted t tx hold hlocal
            rw [ledgerBalance_append, ledgerBalance_singleton]
            have hrow : (tx.row transactionId timestamp).amount = tx.amount := rfl
            have hfrom : (tx.row transactionId timestamp).fromAccountNum = tx.fromAccountNum := rfl
            rw [hrow, hfrom]
            split_ifs <;> omega
          · exact (hs.nonneg a).trans (ledgerBalance_append_le hamount hd)
        · have hne : t' ≠ t := by
            rintro rfl
            obtain ⟨w', hp⟩ := hp
            simp at hp
          have hnone : ¬Debits d.localRoutingNum tx'.fromAccountNum
              (tx.row transactionId timestamp) := by
            rintro ⟨heq, hlocal'⟩
            rcases hback t' tx' hp with hold' | ht
            · exact hne (hs.unique t' t tx' tx hold' hold hlocal hlocal' heq.symm)
            · simp only [Act.thread?, Option.some.injEq] at ht
              exact hne ht.symm
          exact (hgranted t' tx' hp hlocal).trans (ledgerBalance_append_le hamount hnone)

/-- The payment has been granted. -/
def Phase.granted : Phase ι ω → Bool
  | funded .. => true
  | saving .. => true
  | _ => false

/-- Quiet steps, with balances shown by readers that have caught up and while no payment is
granted. -/
def oneByOne [Fintype τ] (s : State ι τ ω) (a : Act ι τ ω) : Bool :=
  quiet s a && match a with
    | .ask _ _ => ∀ t, (s.phase t).granted = false
    | .answer t =>
        match s.phase t with
        | .loading _ _ i => caughtUp s i && ∀ t, (s.phase t).granted = false
        | _ => true
    | _ => true

omit [DecidableEq ι] [DecidableEq τ] [DecidableEq ω] in
/-- Payments that are made one by one are granted serially. -/
lemma serial_of_oneByOne [Fintype τ] {s : State ι τ ω} {a : Act ι τ ω}
    (h : oneByOne s a = true) : Serial d s a := by
  intro i t tx r hreplies hr
  have hquiet : caughtUp s i = true ∧ ∀ t, (s.phase t).granted = false := by
    simp only [oneByOne, Bool.and_eq_true] at h
    cases hreplies with
    | ask => exact ⟨h.1, of_decide_eq_true h.2⟩
    | answer hphase =>
        simp only [hphase, Bool.and_eq_true] at h
        exact ⟨h.2.1, of_decide_eq_true h.2.2⟩
  obtain ⟨hcaught, hnone⟩ := hquiet
  simp only [caughtUp, hr] at hcaught
  split at hcaught
  · rename_i hstage
    have hall : ∀ q ∈ s.log, q.transactionId ≤ r.latest := by simpa using hcaught
    refine ⟨by simp [hstage], fun q hq hpos => ?_, ?_, ?_⟩
    · simp only [Reader.position, hstage] at hpos
      exact absurd (hall q hq) (not_le.mpr hpos)
    · simp [pendingOn, hstage, Stage.pending]
    · rintro t' tx' ⟨w, hp | ⟨transactionId, timestamp, hp⟩⟩ <;>
        simpa [hp, Phase.granted] using hnone t'
  · cases hcaught

/-- Of two rents that are paid one by one the second is refused, and no balance is negative. -/
theorem no_overdraft_rent : ∃ s : State Bool Bool Unit,
    ledgerBalance "883745000" "1011226111" s.log = 50 ∧
      ∀ a, 0 ≤ ledgerBalance branch.localRoutingNum a s.log := by
  obtain ⟨s, hs, hp⟩ := (bank branch [salary]).exists_run_of_schedule
    (fun s a => oneByOne s a = true) morning_init
    (.boot true true :: payRent ++ .run true .poll :: List.replicate 7 (.run true .work) ++
      [.submit false () (some "Bearer testuser") { rent with requestUuid := some "rent 2" },
        .ask false true, .tick 1])
    (fun s => ledgerBalance "883745000" "1011226111" s.log = 50) (by decide +kernel)
  have hnonneg : ∀ a, 0 ≤ ledgerBalance branch.localRoutingNum a [salary] := fun a =>
    ledgerBalance_nonneg (by decide) (by simp [Debits, salary, branch])
  have hok : ∀ (s : State Bool Bool Unit) (a : Act Bool Bool Unit), oneByOne s a = true →
      InIdOrder s a ∧ (∀ i accountId, CarefulLoads branch i accountId s a) ∧ Serial branch s a := by
    intro s a h
    obtain ⟨horder, hcareful⟩ := careful_of_quiet (Bool.and_eq_true .. ▸ h).1
    exact ⟨horder, hcareful, serial_of_oneByOne h⟩
  exact ⟨s, of_decide_eq_true hp, no_overdraft (List.pairwise_singleton _ _) hok hnonneg hs⟩

/-- Two payments that are shown the same balance overdraw the account. -/
example : ((bank branch [salary]).schedule (fun _ _ => True) morning
    [.boot true true, .submit true () (some "Bearer testuser") rent,
      .submit false () (some "Bearer testuser") { rent with requestUuid := some "rent 2" },
      .ask true true, .answer true, .ask false true, .insert true, .insert false, .commit true,
      .commit false]).any
    (fun s => ledgerBalance "883745000" "1011226111" s.log = -150) = true := by
  decide +kernel

end Bank

end FinOpsPipeline
