import FinOpsPipeline.Bank.Balances
import Mathlib.Data.Fintype.Basic

/-!
The cached balances of a reader against the ledger.

* `rows_in_order`: a reader hands over each row at most once, in the order of the ids; when the
  rows are committed in that order it leaves none out.
* `cached_balance_error`: in any run a cached balance is off by the postings that are counted
  twice and by those that are left out.
* `cached_balance_exact`: with careful loads it is the balance of the rows up to the position
  of the reader.
* `cached_balance_drift`: an error stays while the entry is cached.
-/

namespace FinOpsPipeline

namespace Bank

open Follower

variable {ι τ ω : Type*} [DecidableEq ι] [DecidableEq τ] [DecidableEq ω] {d : Deployment}
  {log₀ : List Transaction} {ok : State ι τ ω → Act ι τ ω → Prop}

/-! ### Rows in the order of their ids -/

/-- A commit whose id is greater than those of the ledger. -/
def InIdOrder (s : State ι τ ω) : Act ι τ ω → Prop
  | .commit t => ∀ w tx transactionId timestamp,
      s.phase t = .saving w tx transactionId timestamp →
        ∀ q ∈ s.log, q.transactionId < transactionId
  | _ => True

instance (s : State ι τ ω) (a : Act ι τ ω) : Decidable (InIdOrder s a) :=
  match a with
  | .commit t =>
      match h : s.phase t with
      | .saving w tx transactionId timestamp =>
          decidable_of_iff (∀ q ∈ s.log, q.transactionId < transactionId)
            ⟨fun hlt _ _ _ _ hp => by rw [h] at hp; cases hp; exact hlt, fun hlt => hlt _ _ _ _ h⟩
      | .idle | .checked .. | .loading .. | .lookup .. | .funded .. | .saved .. =>
          isTrue (by simp [InIdOrder, h])
  | .tick .. | .boot .. | .run .. | .submit .. | .ask .. | .get .. | .answer .. | .insert ..
  | .remember .. | .abort .. => isTrue trivial

omit [DecidableEq ι] [DecidableEq τ] [DecidableEq ω] in
/-- What commits in the order of the ids are for a reader: the ledger stays grounded. -/
lemma InIdOrder.follows {s : State ι τ ω} (hs : Sound d s) {a : Act ι τ ω} (h : InIdOrder s a)
    {i : ι} {r : BalanceReader τ} {b : Follower.Act τ Transaction String} (hb : Follows s i a b) :
    InOrder (feed d.localRoutingNum) (Grounded d.localRoutingNum) (s.site r) b := by
  cases hb with
  | run | ask | get | answer | lookup => trivial
  | commit hphase =>
      refine ⟨h _ _ _ _ hphase, hs.grounded.snoc fun hlocal => ?_⟩
      exact hs.paid _ _ _ (.inr ⟨_, _, hphase⟩) hlocal

/-- Commits in the order of the ids keep the ledger in that order. -/
lemma log_sorted (hsorted : log₀.Pairwise fun t u => t.transactionId < u.transactionId)
    (hok : ∀ s a, ok s a → InIdOrder s a) {s : State ι τ ω} (h : (bank d log₀).Run ok s) :
    s.log.Pairwise fun t u => t.transactionId < u.transactionId := by
  refine h.invariant
    (P := fun s => s.log.Pairwise fun t u => t.transactionId < u.transactionId) ?_ ?_
  · rintro s ⟨-, now, nextId, -, -, rfl⟩
    exact hsorted
  · intro s a s' _ hoka hs hstep
    have hsteps := steps_of_step d hstep
    cases hsteps with
    | committed hphase =>
        refine List.pairwise_append.mpr ⟨hs, List.pairwise_singleton _ _, ?_⟩
        intro q hq r hr
        rw [List.mem_singleton.mp hr]
        exact hok _ _ hoka _ _ _ _ hphase q hq
    | tick | boot | run | rejected | admitted | refused | hit | miss | got | getMiss | answered
    | loaded | inserted | remembered | aborted => exact hs

/-- **Rows are handed over in order**: in every run, the thread of a reader hands over each row of
the ledger at most once, in the order of the ids, from the position on at which it was started.
When the rows are committed in the order of their ids, those handed over are, while the thread
is alive, all of them up to its position. -/
theorem rows_in_order (hsorted : log₀.Pairwise fun t u => t.transactionId < u.transactionId)
    {i : ι} {s : State ι τ ω} {xs : List (State ι τ ω × Act ι τ ω)}
    (h : (bank d log₀).History ok s xs) {r : BalanceReader τ} (hr : s.readers i = some r) :
    ∃ before s₁ reached after, xs = before ++ (s₁, .boot i reached) :: after ∧
      ((taken (xs.flatMap fun x => readerEvents d i x.1 x.2)).Pairwise fun t u =>
        t.transactionId < u.transactionId) ∧
      (∀ t ∈ taken (xs.flatMap fun x => readerEvents d i x.1 x.2),
        t ∈ s.log ∧ bootPosition d s₁ reached < t.transactionId) ∧
      ((∀ s a, ok s a → InIdOrder s a) → r.stage ≠ .dead →
        taken (xs.flatMap fun x => readerEvents d i x.1 x.2) =
          s.log.filter fun t => bootPosition d s₁ reached < t.transactionId ∧
            t.transactionId ≤ r.position (feed d.localRoutingNum)) := by
  obtain ⟨before, s₁, reached, after, hboot, -, hpre, hhistory⟩ := reader_follows
    (fun site b => (∀ s a, ok s a → InIdOrder s a) →
      InOrder (feed d.localRoutingNum) (Grounded d.localRoutingNum) site b)
    (fun s a r b hrun hoka _ hb hord => (hord s a hoka).follows (sound hrun) hb) h hr
  have hemits := hhistory.emits
    (Site.events (feed d.localRoutingNum) (balanceCell d.localRoutingNum))
  rw [← readerEvents_flatMap] at hemits
  have hord := order hemits
  refine ⟨before, s₁, reached, after, hboot, ?_, ?_, fun hinorder hlive => ?_⟩
  · exact (List.pairwise_append.mp hord.sorted).1
  · exact fun t ht => hord.mem t (List.mem_append_left _ ht)
  · have hs₁ : s₁.log.Pairwise fun t u => t.transactionId < u.transactionId :=
      (log_sorted hsorted hinorder h.run).sublist hpre.sublist
    exact taken_eq hs₁ (fun _ _ hb => hb hinorder) hemits hlive

/-- The thread of the first reader, which has started after the salary, hands over the rent. -/
theorem rows_in_order_rent : ∃ (s s₁ : State Bool Bool Unit)
    (xs : List (State Bool Bool Unit × Act Bool Bool Unit)) (reached : Bool)
    (r : BalanceReader Bool), s.readers true = some r ∧
      (s₁, .boot true reached) ∈ xs ∧ r.position (feed branch.localRoutingNum) = 2 ∧
      taken (xs.flatMap fun x => readerEvents branch true x.1 x.2) =
        s.log.filter fun t => bootPosition branch s₁ reached < t.transactionId ∧
          t.transactionId ≤ r.position (feed branch.localRoutingNum) := by
  obtain ⟨s, hs, hp⟩ := (bank branch [salary]).exists_run_of_schedule InIdOrder morning_init
    (.boot true true :: payRent ++ [.run true .poll, .run true .work])
    (fun s => (s.readers true).any fun r =>
      r.position (feed branch.localRoutingNum) = 2 ∧ r.stage ≠ .dead) (by decide +kernel)
  obtain ⟨r, hr, hr'⟩ := (Option.any_eq_true _ _).mp hp
  obtain ⟨hpos, hlive⟩ := of_decide_eq_true hr'
  obtain ⟨xs, hxs⟩ := hs.emits fun s a => [(s, a)]
  obtain ⟨before, s₁, reached, after, hboot, -, -, htaken⟩ :=
    rows_in_order (List.pairwise_singleton _ _) hxs hr
  exact ⟨s, s₁, xs, reached, r, hr, by simp [hboot], hpos, htaken (fun _ _ h => h) hlive⟩

/-! ### The error of a cached balance -/

/-- The balance of an account in the postings of a list. -/
def total (ps : List Posting) : ℤ := (ps.map Posting.amount).sum

@[simp] lemma total_append (ps qs : List Posting) : total (ps ++ qs) = total ps + total qs := by
  simp [total]

/-- A sum in two parts. -/
lemma total_filter (ps : List Posting) (q : Posting → Bool) :
    total ps = total (ps.filter q) + total (ps.filter fun p => !q p) := by
  have hperm := (List.filter_append_perm q ps).map Posting.amount
  rw [← total_append, total, ← hperm.sum_eq]
  rfl

/-- Postings of distinct rows are distinct. -/
lemma postings_nodup {rows : List Transaction} (hnodup : rows.Nodup) :
    (rows.flatMap (postings d.localRoutingNum)).Nodup := by
  refine List.nodup_flatMap.mpr ⟨?_, ?_⟩
  · intro t _
    by_cases hf : t.fromRoutingNum = d.localRoutingNum <;>
      by_cases ht : t.toRoutingNum = d.localRoutingNum <;> simp [postings, hf, ht]
  · refine hnodup.imp fun {t u} hne => ?_
    intro p hp hp'
    exact hne (((mem_postings _).mp hp).1.symm.trans ((mem_postings _).mp hp').1)

lemma postingsOn_nodup {rows : List Transaction} (hnodup : rows.Nodup) (a : String) :
    (postingsOn d.localRoutingNum a rows).Nodup :=
  (postings_nodup hnodup).filter _

/-- A reader does each posting at most once. -/
lemma handled_nodup {i : ι} {s : State ι τ ω} {evs : List (Follower.Event Transaction Posting)}
    (h : (bank d log₀).Emits ok (readerEvents d i) s evs) {r : BalanceReader τ}
    (hr : s.readers i = some r) : (handled evs).Nodup := by
  obtain ⟨log₁, p₁, -, -, hemits⟩ :=
    reader_emits (fun _ _ => True) (fun _ _ _ _ _ _ _ _ => trivial) h hr
  have htaken : (taken evs).Nodup := by
    refine (List.pairwise_append.mp (order hemits).sorted).1.imp fun {t u} hlt heq => ?_
    rw [heq] at hlt
    exact lt_irrefl _ hlt
  exact (postings_nodup htaken).sublist (handled_begins hemits).sublist

/-- The postings of a list that are not on rows of the view are those of the rest that are in the
list. -/
lemma total_unseen {view rest : List Transaction} (hnodup : (view ++ rest).Nodup) {a : String}
    {since : List Posting} (hsince : since.Nodup)
    (hdone : ∀ p ∈ since, p.accountId = a ∧ p.transaction ∈ view ++ rest ∧
      p ∈ postings d.localRoutingNum p.transaction) :
    total (since.filter fun p => !decide (p.transaction ∈ view)) =
      total ((postingsOn d.localRoutingNum a rest).filter fun p => p ∈ since) := by
  refine List.Perm.sum_eq (List.Perm.map _ ((List.perm_ext_iff_of_nodup ?_ ?_).mpr ?_))
  · exact hsince.filter _
  · exact (postingsOn_nodup (List.nodup_append.mp hnodup).2.1 a).filter _
  · intro p
    simp only [List.mem_filter, Bool.not_eq_true', decide_eq_false_iff_not, decide_eq_true_eq]
    constructor
    · rintro ⟨hp, hview⟩
      obtain ⟨hkey, hmem, hposting⟩ := hdone p hp
      have hrest := (List.mem_append.mp hmem).resolve_left hview
      refine ⟨List.mem_filter.mpr ⟨List.mem_flatMap.mpr ⟨_, hrest, hposting⟩, ?_⟩, hp⟩
      simpa using hkey
    · rintro ⟨hp, hmem⟩
      exact ⟨hmem, fun hview =>
        List.disjoint_of_nodup_append hnodup hview ((mem_postingsOn _).mp hp).1⟩

/-- The postings of the ledger that are neither on rows of the view nor in the list are those of the
rest that are not in the list. -/
lemma total_missed {view rest : List Transaction} (hnodup : (view ++ rest).Nodup) (a : String)
    (since : List Posting) :
    (postingsOn d.localRoutingNum a (view ++ rest)).filter (fun p =>
        p.transaction ∉ view ∧ p ∉ since) =
      (postingsOn d.localRoutingNum a rest).filter fun p => !decide (p ∈ since) := by
  have hnone : (postingsOn d.localRoutingNum a view).filter (fun p =>
      p.transaction ∉ view ∧ p ∉ since) = [] :=
    List.filter_eq_nil_iff.mpr fun p hp => by simp [((mem_postingsOn _).mp hp).1]
  rw [postingsOn_append, List.filter_append, hnone, List.nil_append]
  refine List.filter_congr fun p hp => ?_
  have hview : p.transaction ∉ view := fun hview =>
    List.disjoint_of_nodup_append hnodup hview ((mem_postingsOn _).mp hp).1
  simp [hview]

/-- What a view and the postings since are off by. -/
lemma balance_add_total {view rest : List Transaction} (hnodup : (view ++ rest).Nodup) {a : String}
    {since : List Posting} (hsince : since.Nodup)
    (hdone : ∀ p ∈ since, p.accountId = a ∧ p.transaction ∈ view ++ rest ∧
      p ∈ postings d.localRoutingNum p.transaction) :
    ledgerBalance d.localRoutingNum a view + total since =
      ledgerBalance d.localRoutingNum a (view ++ rest) +
        total (since.filter fun p => p.transaction ∈ view) -
        total ((postingsOn d.localRoutingNum a (view ++ rest)).filter fun p =>
          p.transaction ∉ view ∧ p ∉ since) := by
  have hbalance : ledgerBalance d.localRoutingNum a (view ++ rest) =
      ledgerBalance d.localRoutingNum a view + total (postingsOn d.localRoutingNum a rest) := by
    rw [ledgerBalance_append]
    rfl
  have hsplit := total_filter since fun p => p.transaction ∈ view
  have hrest := total_filter (postingsOn d.localRoutingNum a rest) fun p => p ∈ since
  have hunseen := total_unseen hnodup hsince hdone
  rw [total_missed hnodup]
  omega

/-- **The error of a cached balance**: in every run, a reader's balance of an account was loaded
from the ledger as a query of the run had seen it. It is the balance of the ledger now, and the
postings that the query had seen and the thread has done again since, less those of the ledger
that neither has. -/
theorem cached_balance_error {i : ι} {s : State ι τ ω} {xs : List (State ι τ ω × Act ι τ ω)}
    (h : (bank d log₀).History ok s xs) {r : BalanceReader τ} (hr : s.readers i = some r)
    {a : String} {v : ℤ} (hv : r.cache a = some v) :
    ∃ view since, Loaded d i a xs view since ∧
      v = ledgerBalance d.localRoutingNum a s.log +
        total (since.filter fun p => p.transaction ∈ view) -
        total ((postingsOn d.localRoutingNum a s.log).filter fun p =>
          p.transaction ∉ view ∧ p ∉ since) := by
  obtain ⟨before, s₁, reached, after, -, -, -, hhistory⟩ :=
    reader_follows (fun _ _ => True) (fun _ _ _ _ _ _ _ _ => trivial) h hr
  have hprovenance := provenance hhistory
  obtain ⟨view, since, hloaded, hvalue⟩ := loaded_of_filled (hprovenance.cache a v hv)
  refine ⟨view, since, hloaded, ?_⟩
  have hevents := h.emits (readerEvents d i)
  obtain ⟨⟨rest, hlog⟩, hsince⟩ := hloaded.sourced hprovenance.logs
  change view ++ rest = s.log at hlog
  have hgrounded : Grounded d.localRoutingNum view :=
    Grounded.left (hlog ▸ (sound h.run).grounded)
  have hdone : ∀ p ∈ since, p.accountId = a ∧ p.transaction ∈ view ++ rest ∧
      p ∈ postings d.localRoutingNum p.transaction := by
    intro p hp
    obtain ⟨hmem, hkey⟩ := List.mem_filter.mp (hsince.subset hp)
    rw [hlog]
    exact ⟨by simpa using hkey, reader_postings hevents hr (List.mem_append_left _ hmem)⟩
  calc v = ledgerBalance d.localRoutingNum a view + total since := by
        rw [hvalue, foldl_apply_eq (balanceCell_apply d.localRoutingNum), ← loadBalance_eq hgrounded]
        rfl
    _ = _ := by
        rw [← hlog]
        exact balance_add_total (hlog ▸ (ids h.run).placed.nodup.of_map)
          (((handled_nodup hevents hr).filter _).sublist hsince.sublist) hdone

/-- A balance that is loaded after the rent is committed and before it is handed over has the rent
taken from it twice. -/
theorem cached_balance_error_rent : ∃ (s : State Bool Bool Unit)
    (xs : List (State Bool Bool Unit × Act Bool Bool Unit)) (r : BalanceReader Bool)
    (view : List Transaction) (since : List Posting), s.readers true = some r ∧
      r.cache "1011226111" = some (-150) ∧ Loaded branch true "1011226111" xs view since ∧
      -150 = ledgerBalance "883745000" "1011226111" s.log +
        total (since.filter fun p => p.transaction ∈ view) -
        total ((postingsOn "883745000" "1011226111" s.log).filter fun p =>
          p.transaction ∉ view ∧ p ∉ since) := by
  obtain ⟨s, hs, hp⟩ := (bank branch [salary]).exists_run_of_schedule (fun _ _ => True)
    morning_init (.boot true true :: payRent ++
      [.run true (.evict "1011226111"), .get true true (some "Bearer testuser") "1011226111",
        .answer true, .run true .poll] ++ List.replicate 4 (.run true .work))
    (fun s => (s.readers true).any fun r => r.cache "1011226111" = some (-150))
    (by decide +kernel)
  obtain ⟨r, hr, hc⟩ := (Option.any_eq_true _ _).mp hp
  have hc' := of_decide_eq_true hc
  obtain ⟨xs, hxs⟩ := hs.emits fun s a => [(s, a)]
  obtain ⟨view, since, hloaded, herror⟩ := cached_balance_error hxs hr hc'
  exact ⟨s, xs, r, view, since, hr, hc', hloaded, herror⟩

/-! ### Exact balances -/

/-- No load of the account by the reader is under way while postings on it are between the
ledger and the cache. -/
def CarefulLoads (d : Deployment) (i : ι) (accountId : String) (s : State ι τ ω)
    (a : Act ι τ ω) : Prop :=
  ∀ r b, s.readers i = some r → Follows s i a b →
    Careful (feed d.localRoutingNum) accountId (s.site r) b

/-- The postings on an account that the thread has still to do for its current row. -/
def pendingOn (r : BalanceReader τ) (accountId : String) : List Posting :=
  r.stage.pending.filter (·.accountId = accountId)

/-- What is known of a reader in a run whose commits are in the order of the ids. -/
lemma reader_inStep (hsorted : log₀.Pairwise fun t u => t.transactionId < u.transactionId)
    (ok' : Site τ Transaction Posting String ℤ → Follower.Act τ Transaction String → Prop) {i : ι}
    (hok : ∀ s a, ok s a → InIdOrder s a)
    (hok' : ∀ s a r b, (bank d log₀).Run ok s → ok s a → s.readers i = some r →
      Follows s i a b → ok' (s.site r) b)
    {s : State ι τ ω} (h : (bank d log₀).Run ok s) {r : BalanceReader τ}
    (hr : s.readers i = some r) :
    ∃ log₁ p₁, (log₁.Pairwise fun t u => t.transactionId < u.transactionId) ∧
      Grounded d.localRoutingNum log₁ ∧
      (follower (feed d.localRoutingNum) (balanceCell d.localRoutingNum) log₁ p₁).Run
        (fun site b => InOrder (feed d.localRoutingNum) (Grounded d.localRoutingNum) site b ∧
          ok' site b) (s.site r) := by
  obtain ⟨evs, hevs⟩ := h.emits (readerEvents d i)
  obtain ⟨log₁, p₁, -, hpre, hemits⟩ := reader_emits
    (fun site b => InOrder (feed d.localRoutingNum) (Grounded d.localRoutingNum) site b ∧
      ok' site b)
    (fun s a r b hrun hoka hri hb =>
      ⟨(hok s a hoka).follows (sound hrun) hb, hok' s a r b hrun hoka hri hb⟩) hevs hr
  exact ⟨log₁, p₁, (log_sorted hsorted hok h).sublist hpre.sublist,
    (sound h).grounded.of_begins hpre, hemits.run⟩

omit [DecidableEq ι] [DecidableEq τ] [DecidableEq ω] in
/-- The rows up to the position of a reader, and those after it. -/
lemma ledgerBalance_split {s : State ι τ ω} {r : BalanceReader τ}
    (hin : InStep (feed d.localRoutingNum) (s.site r)) (hg : Grounded d.localRoutingNum s.log)
    (a : String) :
    loadBalance d.localRoutingNum a ((s.site r).begun (feed d.localRoutingNum)) =
        ledgerBalance d.localRoutingNum a ((s.site r).begun (feed d.localRoutingNum)) ∧
      ledgerBalance d.localRoutingNum a s.log =
        ledgerBalance d.localRoutingNum a ((s.site r).begun (feed d.localRoutingNum)) +
          ledgerBalance d.localRoutingNum a
            (rowsAfter (feed d.localRoutingNum) s.log (r.position (feed d.localRoutingNum))) := by
  have hlog := upTo_append_rowsAfter hin.sorted (r.position (feed d.localRoutingNum))
  have hbegun : Grounded d.localRoutingNum ((s.site r).begun (feed d.localRoutingNum)) :=
    Grounded.of_begins ⟨_, hlog⟩ hg
  refine ⟨loadBalance_eq hbegun a, ?_⟩
  rw [← ledgerBalance_append]
  exact congrArg _ hlog.symm

/-- With careful loads, what a live reader has cached or loaded for an account is the balance of
the rows up to its position, once the pending postings are done. -/
lemma reader_coherent (accountId : String)
    (hsorted : log₀.Pairwise fun t u => t.transactionId < u.transactionId) {i : ι}
    (hok : ∀ s a, ok s a → InIdOrder s a ∧ CarefulLoads d i accountId s a) {s : State ι τ ω}
    (h : (bank d log₀).Run ok s) {r : BalanceReader τ} (hr : s.readers i = some r)
    (hlive : r.stage ≠ .dead) :
    InStep (feed d.localRoutingNum) (s.site r) ∧
      (∀ v, r.cache accountId = some v → v + total (pendingOn r accountId) =
        ledgerBalance d.localRoutingNum accountId
          ((s.site r).begun (feed d.localRoutingNum))) ∧
      (∀ t v, r.loads t = some (accountId, v) → v = ledgerBalance d.localRoutingNum accountId
        ((s.site r).begun (feed d.localRoutingNum))) := by
  obtain ⟨log₁, p₁, hlog₁, hgood₁, hrun⟩ := reader_inStep hsorted
    (fun site b => Careful (feed d.localRoutingNum) accountId site b)
    (fun s a h => (hok s a h).1) (fun s a r b _ hoka hri hb => (hok s a hoka).2 r b hri hb) h hr
  obtain ⟨hcache, hloads⟩ := coherent (balanceCell_lawful d.localRoutingNum) hlog₁ hgood₁
    (fun _ _ h => h) hrun hlive
  have hin := inStep hlog₁ (fun _ _ h => h.1) hrun
  have hload := (ledgerBalance_split hin (sound h).grounded accountId).1
  refine ⟨hin, fun v hv => ?_, fun t v hv => (hloads t v hv).1.trans hload⟩
  have hvalue := hcache.cache v hv
  rw [Advances, foldl_apply_eq (balanceCell_apply d.localRoutingNum)] at hvalue
  exact hvalue.trans hload

/-- **Careful loads make a balance exact**: when the rows are committed in the order of their ids
and the loads of an account are careful, the balance that a live reader has cached is, with the
postings pending on it, that of the rows up to the position of the reader. With nothing left
to do on the account it is the balance of the ledger. -/
theorem cached_balance_exact (hsorted : log₀.Pairwise fun t u => t.transactionId < u.transactionId)
    {i : ι} {accountId : String}
    (hok : ∀ s a, ok s a → InIdOrder s a ∧ CarefulLoads d i accountId s a) {s : State ι τ ω}
    (h : (bank d log₀).Run ok s) {r : BalanceReader τ} (hr : s.readers i = some r)
    (hlive : r.stage ≠ .dead) {v : ℤ} (hv : r.cache accountId = some v) :
    v + total (pendingOn r accountId) = ledgerBalance d.localRoutingNum accountId
        (s.log.filter fun t => t.transactionId ≤ r.position (feed d.localRoutingNum)) ∧
      (pendingOn r accountId = [] →
        (∀ t ∈ s.log, r.position (feed d.localRoutingNum) < t.transactionId →
          ¬Debits d.localRoutingNum accountId t ∧ ¬Credits d.localRoutingNum accountId t) →
        v = ledgerBalance d.localRoutingNum accountId s.log) := by
  obtain ⟨hin, hcache, -⟩ := reader_coherent accountId hsorted hok h hr hlive
  have hsplit := (ledgerBalance_split hin (sound h).grounded accountId).2
  have hvalue := hcache v hv
  refine ⟨hvalue, fun hpending hnone => ?_⟩
  have hafter : ledgerBalance d.localRoutingNum accountId
      (rowsAfter (feed d.localRoutingNum) s.log (r.position (feed d.localRoutingNum))) = 0 := by
    have hempty : postingsOn d.localRoutingNum accountId
        (rowsAfter (feed d.localRoutingNum) s.log (r.position (feed d.localRoutingNum))) = [] := by
      refine List.eq_nil_iff_forall_not_mem.mpr fun p hp => ?_
      obtain ⟨hmem, hside⟩ := (mem_postingsOn _).mp hp
      obtain ⟨hlog, hpos⟩ := (mem_rowsAfter _).mp hmem
      obtain ⟨hdebits, hcredits⟩ := hnone _ hlog hpos
      rcases hside with ⟨-, hd⟩ | ⟨-, hc⟩
      · exact hdebits hd
      · exact hcredits hc
    rw [ledgerBalance, hempty]
    rfl
  rw [hsplit, hafter, add_zero, ← hvalue, hpending]
  exact (add_zero v).symm

/-- Every row of the ledger has been handed over by the reader, and it waits for the next. -/
def caughtUp (s : State ι τ ω) (i : ι) : Bool :=
  match s.readers i with
  | none => true
  | some r =>
      match r.stage with
      | .sleeping => s.log.all (·.transactionId ≤ r.latest)
      | _ => false

/-- Rows are committed in the order of their ids, balances are asked for when the reader has caught
up, and it goes on when none is being loaded. -/
def quiet [Fintype τ] (s : State ι τ ω) : Act ι τ ω → Bool
  | .ask _ i => caughtUp s i
  | .get _ i _ _ => caughtUp s i
  | .run i .work =>
      match s.readers i with
      | none => true
      | some r => ∀ t, (r.loads t).isNone
  | a => InIdOrder s a

omit [DecidableEq ι] [DecidableEq τ] [DecidableEq ω] in
/-- A reader that has caught up has settled every account. -/
lemma settled_of_caughtUp {s : State ι τ ω} {i : ι} (h : caughtUp s i = true)
    {r : BalanceReader τ} (hr : s.readers i = some r) (a : String) :
    (s.site r).Settled (feed d.localRoutingNum) a := by
  simp only [caughtUp, hr] at h
  split at h
  · rename_i hstage
    have hall : ∀ t ∈ s.log, t.transactionId ≤ r.latest := by simpa using h
    refine ⟨fun t ht hpos => absurd (hall t ht) (not_le.mpr ?_), ?_⟩
    · simp only [Reader.position, State.site, hstage] at hpos
      exact hpos
    · simp [State.site, hstage, Stage.pending]
  · cases h

omit [DecidableEq ι] [DecidableEq τ] [DecidableEq ω] in
/-- Quiet steps commit in order and load carefully. -/
lemma careful_of_quiet [Fintype τ] {s : State ι τ ω} {a : Act ι τ ω} (h : quiet s a = true) :
    InIdOrder s a ∧ ∀ i accountId, CarefulLoads d i accountId s a := by
  refine ⟨?_, fun i accountId r b hr hb => ?_⟩
  · cases a with
    | commit => exact of_decide_eq_true h
    | tick | boot | run | submit | ask | get | answer | insert | remember | abort => trivial
  · cases hb with
    | commit => trivial
    | answer | lookup => trivial
    | ask | get => exact fun _ => settled_of_caughtUp h hr accountId
    | @run b =>
        cases b with
        | poll | fail | evict => trivial
        | work =>
            intro row hrow t v hload
            have hnone : ∀ t, (r.loads t).isNone := by simpa [quiet, hr] using h
            simp [State.site, Option.isNone_iff_eq_none.mp (hnone t)] at hload

/-- When the rent is handed over, the cached balance has lost it once. -/
theorem cached_balance_exact_rent : ∃ (s : State Bool Bool Unit) (r : BalanceReader Bool),
    s.readers true = some r ∧ r.cache "1011226111" = some 50 ∧
      50 + total (pendingOn r "1011226111") = ledgerBalance "883745000" "1011226111"
        (s.log.filter fun t => t.transactionId ≤ r.position (feed branch.localRoutingNum)) := by
  obtain ⟨s, hs, hp⟩ := (bank branch [salary]).exists_run_of_schedule (fun s a => quiet s a = true)
    morning_init (.boot true true :: payRent ++ .run true .poll ::
      List.replicate 4 (.run true .work))
    (fun s => (s.readers true).any fun r => r.cache "1011226111" = some 50 ∧ r.stage ≠ .dead)
    (by decide +kernel)
  obtain ⟨r, hr, hr'⟩ := (Option.any_eq_true _ _).mp hp
  obtain ⟨hc, hlive⟩ := of_decide_eq_true hr'
  exact ⟨s, r, hr, hc, (cached_balance_exact (List.pairwise_singleton _ _)
    (fun _ _ h => (careful_of_quiet h).imp_right fun h => h _ _) hs hr hlive hc).1⟩

/-! ### Lasting errors -/

omit [DecidableEq ι] [DecidableEq τ] [DecidableEq ω] in
/-- How far a balance is from that of the rows up to the position of its reader. -/
lemma drift_eq {s : State ι τ ω} {r : BalanceReader τ}
    (hin : InStep (feed d.localRoutingNum) (s.site r)) (hg : Grounded d.localRoutingNum s.log)
    (a : String) (v : ℤ) :
    (s.site r).drift (feed d.localRoutingNum) (balanceCell d.localRoutingNum) Posting.amount a v =
      v + total (pendingOn r a) - ledgerBalance d.localRoutingNum a
        (s.log.filter fun t => t.transactionId ≤ r.position (feed d.localRoutingNum)) :=
  congrArg (v + total (pendingOn r a) - ·) (ledgerBalance_split hin hg a).1

/-- The steps that drop no entry of the account, with the rows committed in the order of their
ids. -/
def KeepsEntry (i : ι) (accountId : String) (s : State ι τ ω) (a : Act ι τ ω) : Prop :=
  InIdOrder s a ∧ a ≠ .run i (.evict accountId)

instance (i : ι) (accountId : String) (s : State ι τ ω) (a : Act ι τ ω) :
    Decidable (KeepsEntry i accountId s a) :=
  inferInstanceAs (Decidable (_ ∧ _))

/-- Later steps of the bank are later steps of its readers. -/
lemma reader_later {ok₂ : State ι τ ω → Act ι τ ω → Prop}
    {ok' : Site τ Transaction Posting String ℤ → Follower.Act τ Transaction String → Prop} {i : ι}
    (hok₂ : ∀ s a, ok₂ s a → ok s a)
    (hok' : ∀ s a r b, (bank d log₀).Run ok s → ok₂ s a → s.readers i = some r →
      Follows s i a b → ok' (s.site r) b)
    {s s' : State ι τ ω} (h : (bank d log₀).Run ok s) {r : BalanceReader τ}
    (hr : s.readers i = some r) (hlater : (bank d log₀).LaterBy ok₂ s s')
    (log₁ : List Transaction) (p₁ : ℤ) :
    ∃ r', s'.readers i = some r' ∧
      (follower (feed d.localRoutingNum) (balanceCell d.localRoutingNum) log₁ p₁).LaterBy ok'
        (s.site r) (s'.site r') := by
  induction hlater with
  | refl => exact ⟨r, hr, .refl⟩
  | @tail t u hst hlast ih =>
      obtain ⟨a, hoka, hstep⟩ := hlast
      obtain ⟨r₁, hr₁, hlater₁⟩ := ih
      have hrun := h.laterBy hok₂ hst
      obtain ⟨r', hr', hcases⟩ := (steps_of_step d hstep).reader (ids hrun) hr₁
      refine ⟨r', hr', ?_⟩
      rcases hcases with ⟨-, hsame⟩ | ⟨b, -, hfollows, hmove⟩
      · rwa [hsame]
      · exact hlater₁.tail ⟨b, hok' t a r₁ b hrun hoka hr₁ hfollows, hmove⟩

/-- **An error of a cached balance lasts**: while the entry is not dropped, rows come in the order
of their ids and the thread is alive, the cached balance stays as far from that of the rows up
to the position of the reader as it is, whatever is paid, loaded or dropped. -/
theorem cached_balance_drift (hsorted : log₀.Pairwise fun t u => t.transactionId < u.transactionId)
    {s s' : State ι τ ω} (h : (bank d log₀).Run InIdOrder s) {i : ι} {accountId : String}
    {r r' : BalanceReader τ} (hr : s.readers i = some r) {v : ℤ} (hv : r.cache accountId = some v)
    (hbetween : ∀ row p prev todo rows, r.stage = .writing row p prev todo rows →
      p.accountId ≠ accountId)
    (hlater : (bank d log₀).LaterBy (KeepsEntry i accountId) s s') (hr' : s'.readers i = some r')
    (hlive : r'.stage ≠ .dead) :
    ∃ v', r'.cache accountId = some v' ∧
      v' + total (pendingOn r' accountId) - ledgerBalance d.localRoutingNum accountId
          (s'.log.filter fun t => t.transactionId ≤ r'.position (feed d.localRoutingNum)) =
        v + total (pendingOn r accountId) - ledgerBalance d.localRoutingNum accountId
          (s.log.filter fun t => t.transactionId ≤ r.position (feed d.localRoutingNum)) := by
  obtain ⟨log₁, p₁, hlog₁, hgood₁, hrun⟩ := reader_inStep hsorted (fun _ _ => True)
    (fun _ _ h => h) (fun _ _ _ _ _ _ _ _ => trivial) h hr
  have hkeeps : ∀ (s : State ι τ ω) (a : Act ι τ ω) (r : BalanceReader τ)
      (b : Follower.Act τ Transaction String), (bank d log₀).Run InIdOrder s →
      KeepsEntry i accountId s a → s.readers i = some r → Follows s i a b →
      Keeps (feed d.localRoutingNum) (Grounded d.localRoutingNum) accountId (s.site r) b := by
    rintro s a r b hrun ⟨horder, hne⟩ - hb
    refine ⟨horder.follows (sound hrun) hb, ?_⟩
    cases hb with
    | @run b =>
        cases b with
        | evict a =>
            rintro heq
            simp only [Background.move, Follower.Act.move.injEq, Move.evict.injEq] at heq
            exact hne (by rw [heq])
        | poll | fail | work => simp [Background.move]
    | ask | get | answer | lookup | commit => simp
  obtain ⟨r₁, hr₁, hfollower⟩ :=
    reader_later (fun _ _ h => h.1) hkeeps h hr hlater log₁ p₁
  obtain rfl : r₁ = r' := by simpa [hr₁] using hr'
  have hrun' : (follower (feed d.localRoutingNum) (balanceCell d.localRoutingNum) log₁ p₁).Run
      (InOrder (feed d.localRoutingNum) (Grounded d.localRoutingNum)) (s.site r) :=
    hrun.mono fun _ _ h => h.1
  obtain ⟨v', hv', hdrift⟩ := drift_const (balanceCell_lawful d.localRoutingNum)
    (balanceCell_apply d.localRoutingNum) hlog₁ hgood₁ hrun' hbetween hv hfollower hlive
  have hin := inStep hlog₁ (fun _ _ h => h) hrun'
  have hin' := inStep hlog₁ (fun _ _ h => h) (hrun'.laterBy (fun _ _ h => h.1) hfollower)
  have hgrounded' := (sound (h.laterBy (fun _ _ h => h.1) hlater)).grounded
  refine ⟨v', hv', ?_⟩
  rw [← drift_eq hin (sound h).grounded accountId v, ← drift_eq hin' hgrounded' accountId v']
  exact hdrift

/-- The rent that is about to be taken twice is taken twice. -/
theorem cached_balance_drift_rent : ∃ (s s' : State Bool Bool Unit) (r r' : BalanceReader Bool)
    (v' : ℤ), s.readers true = some r ∧ s'.readers true = some r' ∧
      r.cache "1011226111" = some 50 ∧ r'.cache "1011226111" = some v' ∧
      v' + total (pendingOn r' "1011226111") - ledgerBalance "883745000" "1011226111"
          (s'.log.filter fun t => t.transactionId ≤ r'.position (feed branch.localRoutingNum)) =
        50 + total (pendingOn r "1011226111") - ledgerBalance "883745000" "1011226111"
          (s.log.filter fun t => t.transactionId ≤ r.position (feed branch.localRoutingNum)) := by
  obtain ⟨s, hs, hp⟩ := (bank branch [salary]).exists_run_of_schedule InIdOrder morning_init
    (.boot true true :: payRent ++ [.run true (.evict "1011226111"),
      .get true true (some "Bearer testuser") "1011226111", .answer true])
    (fun s => ((s.readers true).any fun r =>
        r.cache "1011226111" = some 50 ∧ r.stage.pending = []) &&
      ((bank branch [salary]).schedule (KeepsEntry true "1011226111") s
        (.run true .poll :: List.replicate 6 (.run true .work))).any fun s' =>
          (s'.readers true).any fun r' => r'.stage ≠ .dead)
    (by decide +kernel)
  simp only [Bool.and_eq_true] at hp
  obtain ⟨r, hr, hc⟩ := (Option.any_eq_true _ _).mp hp.1
  obtain ⟨s', hs', hp'⟩ := (Option.any_eq_true _ _).mp hp.2
  obtain ⟨r', hr', hlive⟩ := (Option.any_eq_true _ _).mp hp'
  obtain ⟨hv, hpending⟩ := of_decide_eq_true hc
  have hbetween : ∀ row p prev todo rows, r.stage = .writing row p prev todo rows →
      p.accountId ≠ "1011226111" := by
    intro row p prev todo rows hstage
    simp [hstage, Stage.pending] at hpending
  obtain ⟨v', hv', hdrift⟩ := cached_balance_drift (List.pairwise_singleton _ _) hs hr hv
    hbetween (System.LaterBy.of_schedule hs') hr' (of_decide_eq_true hlive)
  exact ⟨s, s', r, r', v', hr, hr', hv, hv', hdrift⟩

end Bank

end FinOpsPipeline
