import FinOpsPipeline.Bank.Postings

/-!
The cached pages of the transaction history.

The history service follows the ledger like the balance readers do. Its entries are lists that
the callback changes in place: the new transaction is put first, and the last one is dropped
when the page is too long.

* `history`: the service over a ledger, whoever writes it.
* `page_foldl_begins`: what the callbacks make of a page.
* `page_bounds`: what is on a page in any run. `page_exact`: when it is the page of the query.
-/

namespace FinOpsPipeline

namespace Bank

open Follower

/-- The transaction history and its ledger, with the requests named by the threads `τ`. -/
abbrev History (τ : Type*) := Site τ Transaction Posting String (List Transaction)

variable {τ : Type*} [DecidableEq τ]

/-- The transaction history of the local accounts, from a position of a ledger on. -/
def history (localRoutingNum : String) (historyLimit : ℕ) (log₀ : List Transaction) (p₀ : ℤ) :
    System (History τ) (Follower.Act τ Transaction String) :=
  follower (feed localRoutingNum) (historyCell localRoutingNum historyLimit) log₀ p₀

variable {localRoutingNum : String} {historyLimit : ℕ} {log₀ : List Transaction} {p₀ : ℤ}
  {ok : History τ → Follower.Act τ Transaction String → Prop}

/-! ### Pages -/

section Pages

variable (localRoutingNum historyLimit)

lemma page_apply_begins (page : List Transaction) (p : Posting) :
    (historyCell localRoutingNum historyLimit).apply page p <+: p.transaction :: page := by
  simp only [historyCell]
  split
  · exact List.dropLast_prefix _
  · exact List.prefix_rfl

/-- A page that has been added to begins with the additions, the last one first. -/
lemma page_foldl_begins (page : List Transaction) (ps : List Posting) :
    ps.foldl (historyCell localRoutingNum historyLimit).apply page <+:
      (ps.map Posting.transaction).reverse ++ page := by
  induction ps generalizing page with
  | nil => exact List.prefix_rfl
  | cons p ps ih =>
      rw [List.foldl_cons]
      refine (ih _).trans ?_
      rw [List.map_cons, List.reverse_cons, List.append_assoc]
      exact (List.prefix_append_right_inj _).mpr (page_apply_begins _ _ page p)

/-- A page that is not too long stays so. -/
lemma page_foldl_length {page : List Transaction} (h : page.length ≤ historyLimit)
    (ps : List Posting) :
    (ps.foldl (historyCell localRoutingNum historyLimit).apply page).length ≤ historyLimit := by
  induction ps generalizing page with
  | nil => exact h
  | cons p ps ih =>
      rw [List.foldl_cons]
      refine ih ?_
      simp only [historyCell]
      split
      · simpa using h
      · rename_i hlong
        exact not_lt.mp hlong

lemma findForAccount_length (a : String) (rows : List Transaction) :
    (findForAccount localRoutingNum historyLimit a rows).length ≤ historyLimit :=
  List.length_take_le _ _

lemma findForAccount_sublist (a : String) (rows : List Transaction) :
    ∃ mine, (findForAccount localRoutingNum historyLimit a rows).Sublist mine ∧
      mine.Perm (transactionsOf localRoutingNum a rows) :=
  ⟨_, List.take_sublist _ _, List.mergeSort_perm _ _⟩

end Pages

/-! ### Any run -/

lemma mem_transactionsOf {a : String} {rows : List Transaction} {t : Transaction} :
    t ∈ transactionsOf localRoutingNum a rows ↔
      t ∈ rows ∧ (Debits localRoutingNum a t ∨ Credits localRoutingNum a t) := by
  simp [transactionsOf]

/-- A proper transaction has one posting on each of its local accounts. -/
lemma map_postingsOn {rows : List Transaction} (hproper : ∀ t ∈ rows, t.Proper) (a : String) :
    (postingsOn localRoutingNum a rows).map Posting.transaction =
      transactionsOf localRoutingNum a rows := by
  induction rows with
  | nil => rfl
  | cons t rows ih =>
      have hrest := ih fun u hu => hproper u (List.mem_cons_of_mem t hu)
      rw [← List.singleton_append, postingsOn_append, List.map_append, hrest, postingsOn_singleton,
        postings_filter_eq (hproper t List.mem_cons_self), transactionsOf, transactionsOf,
        List.filter_append]
      by_cases ha : Debits localRoutingNum a t ∨ Credits localRoutingNum a t <;> simp [ha]

/-- No transaction from an account to itself is committed. -/
def ProperCommit : Follower.Act τ Transaction String → Prop
  | .commit row => row.Proper
  | .move _ => True

instance (a : Follower.Act τ Transaction String) : Decidable (ProperCommit a) :=
  match a with
  | .commit row => inferInstanceAs (Decidable row.Proper)
  | .move _ => isTrue trivial

/-- **What a page holds**: in any run over a ledger of proper transactions, a cached page is within
its limit and has transactions of its account from the ledger only, each of them at most
twice. -/
theorem page_bounds (hproper₀ : ∀ t ∈ log₀, t.Proper)
    (hok : ∀ s a, ok s a → ProperCommit a) {s : History τ}
    (h : (history localRoutingNum historyLimit log₀ p₀).Run ok s) {a : String}
    {page : List Transaction} (hc : s.reader.cache a = some page) :
    page.length ≤ historyLimit ∧
      (∀ t ∈ page, t ∈ s.log ∧ (Debits localRoutingNum a t ∨ Credits localRoutingNum a t)) ∧
        ∀ t, page.count t ≤ 2 := by
  obtain ⟨evs, hevs⟩ := h.emits
    (Site.events (feed localRoutingNum) (historyCell localRoutingNum historyLimit))
  have horder := order hevs
  have hproper : ∀ t ∈ s.log, t.Proper := by
    refine log_of_commit (P := fun log => ∀ t ∈ log, t.Proper) hproper₀ ?_ h
    intro s row hrow hlog t ht
    rcases List.mem_append.mp ht with ht | ht
    · exact hlog t ht
    · rw [List.mem_singleton.mp ht]
      exact hok s (.commit row) hrow
  obtain ⟨view, applied, hview, happlied, rfl⟩ := (accounted hevs).cache a page hc
  change applied <:+ (handled evs).filter (·.accountId = a) at happlied
  -- the additions are transactions of the rows handed over, and the rest those of the view
  have hnew : (applied.map Posting.transaction).Sublist
      (transactionsOf localRoutingNum a (taken evs)) := by
    rw [← map_postingsOn fun t ht => hproper t (horder.mem t (List.mem_append_left _ ht)).1]
    refine List.Sublist.map _ (happlied.sublist.trans ?_)
    exact (handled_begins hevs).sublist.filter _
  obtain ⟨mine, hsublist, hperm⟩ := findForAccount_sublist localRoutingNum historyLimit a view
  have hpre := page_foldl_begins localRoutingNum historyLimit
    (findForAccount localRoutingNum historyLimit a view) applied
  refine ⟨page_foldl_length _ _ (findForAccount_length _ _ a view) applied, fun t ht => ?_,
    fun t => ?_⟩
  · rcases List.mem_append.mp (hpre.subset ht) with ht | ht
    · obtain ⟨htaken, hmine⟩ := mem_transactionsOf.mp (hnew.subset (List.mem_reverse.mp ht))
      exact ⟨(horder.mem t (List.mem_append_left _ htaken)).1, hmine⟩
    · obtain ⟨htview, hmine⟩ := mem_transactionsOf.mp (hperm.subset (hsublist.subset ht))
      exact ⟨hview.subset htview, hmine⟩
  · have htaken : (taken evs).Nodup := by
      refine (List.pairwise_append.mp horder.sorted).1.imp fun {t u} hlt heq => ?_
      rw [heq] at hlt
      exact lt_irrefl _ hlt
    have hview' : view.Nodup := horder.placed.nodup.of_map.sublist hview.sublist
    have hadded : (applied.map Posting.transaction).count t ≤ 1 :=
      List.nodup_iff_count_le_one.mp ((htaken.filter _).sublist hnew) t
    have hloaded : (findForAccount localRoutingNum historyLimit a view).count t ≤ 1 :=
      List.nodup_iff_count_le_one.mp ((hperm.nodup_iff.mpr (hview'.filter _)).sublist hsublist) t
    calc (applied.foldl (historyCell localRoutingNum historyLimit).apply
          (findForAccount localRoutingNum historyLimit a view)).count t
        ≤ ((applied.map Posting.transaction).reverse ++
            findForAccount localRoutingNum historyLimit a view).count t :=
          hpre.sublist.count_le t
      _ = (applied.map Posting.transaction).count t +
            (findForAccount localRoutingNum historyLimit a view).count t := by
          rw [List.count_append, List.count_reverse]
      _ ≤ 2 := Nat.add_le_add hadded hloaded

/-- What the user of the branch is paid. -/
def wages (transactionId timestamp : ℤ) : Transaction :=
  ⟨transactionId, "9099791699", "808889588", "1011226111", "883745000", 250, timestamp⟩

lemma wages_init : (history "883745000" 2 [] (-1)).init (⟨[], Reader.boot (-1)⟩ : History Bool) :=
  ⟨rfl, ⟨by decide, by decide⟩, .inr rfl⟩

/-- The wages that are loaded before they are handed over are on the page twice. -/
theorem page_bounds_wages : ∃ (s : History Bool) (page : List Transaction),
    s.reader.cache "1011226111" = some page ∧ page.count (wages 1 10) = 2 ∧ page.length ≤ 2 ∧
      (∀ t ∈ page, t ∈ s.log ∧ (Debits "883745000" "1011226111" t ∨
        Credits "883745000" "1011226111" t)) ∧ ∀ t, page.count t ≤ 2 := by
  obtain ⟨s, hs, hp⟩ := (history "883745000" 2 [] (-1)).exists_run_of_schedule
    (fun _ a => ProperCommit a) wages_init
    ([.commit (wages 1 10), .move (.query true "1011226111"), .move (.store true), .move .poll] ++
      List.replicate 3 (.move .work))
    (fun s => (s.reader.cache "1011226111").any fun page => page.count (wages 1 10) = 2)
    (by decide +kernel)
  obtain ⟨page, hpage, hcount⟩ := (Option.any_eq_true _ _).mp hp
  exact ⟨s, page, hpage, of_decide_eq_true hcount,
    page_bounds (by decide) (fun _ _ h => h) hs hpage⟩

/-! ### Careful loads -/

/-- **Careful loads make a page exact**: over a ledger in the order of the ids and of time, the page
that a live reader has cached, with the callbacks pending on it, is that of the rows up to its
position, and with nothing left to do on the account it has the newest transactions of the
ledger, the newest first. -/
theorem page_exact (hsorted : log₀.Pairwise fun t u => t.transactionId < u.transactionId)
    (hdated : Dated log₀) {a : String}
    (hok : ∀ s b, ok s b → InOrder (feed localRoutingNum) Dated s b ∧
      Careful (feed localRoutingNum) a s b)
    {s : History τ} (h : (history localRoutingNum historyLimit log₀ p₀).Run ok s)
    (hlive : s.reader.stage ≠ .dead) {page : List Transaction}
    (hc : s.reader.cache a = some page) :
    (s.reader.stage.pending.filter (·.accountId = a)).foldl
        (historyCell localRoutingNum historyLimit).apply page =
      findForAccount localRoutingNum historyLimit a
        (s.log.filter fun t => t.transactionId ≤ s.reader.position (feed localRoutingNum)) ∧
    (s.Settled (feed localRoutingNum) a →
      page = (transactionsOf localRoutingNum a s.log).reverse.take historyLimit) := by
  have hlawful := historyCell_lawful localRoutingNum historyLimit
  refine ⟨(coherent hlawful hsorted hdated hok h hlive).1.cache page hc, fun hsettled => ?_⟩
  have hlog : Dated s.log := good_log hdated (fun s b hb => (hok s b hb).1) h
  rw [← findForAccount_eq hlog]
  exact cached_eq_load hlawful hsorted hdated hok h hlive hsettled hc

/-- The wages of two months, the newest first. -/
theorem page_exact_wages : ∃ (s : History Bool) (page : List Transaction),
    s.reader.cache "1011226111" = some page ∧ page.length = 2 ∧
      page = (transactionsOf "883745000" "1011226111" s.log).reverse.take 2 := by
  obtain ⟨s, hs, hp⟩ := (history "883745000" 2 [] (-1)).exists_run_of_schedule
    (fun s b => InOrder (feed "883745000") Dated s b ∧ Careful (feed "883745000") "1011226111" s b)
    wages_init
    ([.move (.query true "1011226111"), .move (.store true), .commit (wages 1 10), .move .poll] ++
      List.replicate 5 (.move .work) ++ .commit (wages 2 20) :: .move .poll ::
      List.replicate 5 (.move .work))
    (fun s => ((s.reader.cache "1011226111").any fun page => page.length = 2) &&
      (decide (s.reader.stage ≠ .dead) && decide (s.Settled (feed "883745000") "1011226111")))
    (by decide +kernel)
  simp only [Bool.and_eq_true] at hp
  obtain ⟨page, hpage, hlength⟩ := (Option.any_eq_true _ _).mp hp.1
  exact ⟨s, page, hpage, of_decide_eq_true hlength, (page_exact .nil
    (by decide) (fun _ _ h => h) hs (of_decide_eq_true hp.2.1) hpage).2 (of_decide_eq_true hp.2.2)⟩

end Bank

end FinOpsPipeline
