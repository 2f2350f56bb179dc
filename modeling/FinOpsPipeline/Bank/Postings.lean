import FinOpsPipeline.Foundations.LogCoherence
import Mathlib.Algebra.Ring.Int.Defs
import Mathlib.Data.List.Sort

/-!
The ledger of the bank, and what the readers make of it.

A transaction takes an amount from one account and gives it to another; the accounts of the
local routing number are those of this bank. The callbacks of both readers act on the
local sides of a transaction, first the sender's and then the receiver's.

* `Transaction`, `Posting`, `postings`: the rows and their local sides.
* `findBalance`, `balanceCell`: the cache of the balance reader. `ledgerBalance` is the sum of
  the postings; `Grounded` ledgers are those where the two agree (`loadBalance_eq`).
* `findForAccount`, `historyCell`: the cache of the transaction history, for `Dated` ledgers.
* `balanceCell_lawful`, `historyCell_lawful`: the callbacks do what the queries do.
-/

namespace FinOpsPipeline

namespace Bank

/-! ### Transactions and postings -/

/-- A row of the table `TRANSACTIONS`. -/
structure Transaction where
  transactionId : ℤ
  fromAccountNum : String
  fromRoutingNum : String
  toAccountNum : String
  toRoutingNum : String
  amount : ℤ
  timestamp : ℤ
deriving DecidableEq

/-- The sides of the transaction are two accounts. -/
def Transaction.Proper (t : Transaction) : Prop :=
  ¬(t.fromAccountNum = t.toAccountNum ∧ t.fromRoutingNum = t.toRoutingNum)

instance (t : Transaction) : Decidable t.Proper := inferInstanceAs (Decidable (¬_))

/-- The side of a transaction that an account is on. -/
inductive Side where
  | debit
  | credit
deriving DecidableEq

/-- One local side of a transaction. -/
structure Posting where
  side : Side
  transaction : Transaction
deriving DecidableEq

namespace Posting

/-- The account that a posting is on. -/
def accountId (p : Posting) : String :=
  match p.side with
  | .debit => p.transaction.fromAccountNum
  | .credit => p.transaction.toAccountNum

/-- What a posting adds to its account. -/
def amount (p : Posting) : ℤ :=
  match p.side with
  | .debit => -p.transaction.amount
  | .credit => p.transaction.amount

end Posting

/-- The sides of a transaction that the callbacks act on, in their order. -/
def postings (localRoutingNum : String) (t : Transaction) : List Posting :=
  (if t.fromRoutingNum = localRoutingNum then [⟨.debit, t⟩] else []) ++
    (if t.toRoutingNum = localRoutingNum then [⟨.credit, t⟩] else [])

variable (localRoutingNum : String)

lemma mem_postings {t : Transaction} {p : Posting} : p ∈ postings localRoutingNum t ↔
    p.transaction = t ∧ ((p.side = .debit ∧ t.fromRoutingNum = localRoutingNum) ∨
      (p.side = .credit ∧ t.toRoutingNum = localRoutingNum)) := by
  obtain ⟨side, t'⟩ := p
  cases side <;> by_cases hf : t.fromRoutingNum = localRoutingNum <;>
    by_cases ht : t.toRoutingNum = localRoutingNum <;> simp [postings, hf, ht]

/-- The transaction gives to the local account. -/
def Credits (a : String) (t : Transaction) : Prop :=
  t.toAccountNum = a ∧ t.toRoutingNum = localRoutingNum

/-- The transaction takes from the local account. -/
def Debits (a : String) (t : Transaction) : Prop :=
  t.fromAccountNum = a ∧ t.fromRoutingNum = localRoutingNum

instance (a : String) (t : Transaction) : Decidable (Credits localRoutingNum a t) :=
  inferInstanceAs (Decidable (_ ∧ _))

instance (a : String) (t : Transaction) : Decidable (Debits localRoutingNum a t) :=
  inferInstanceAs (Decidable (_ ∧ _))

/-- What the readers follow: the positions are the ids of the transactions, from
`STARTING_TRANSACTION_ID` on. -/
def feed : Feed Transaction Posting String where
  start := -1
  id := Transaction.transactionId
  effects := postings localRoutingNum
  key := Posting.accountId

/-! ### Balances -/

/-- `findBalance` of the repository: without a row that gives to the account the first sum is
`NULL`, and so is the difference. -/
def findBalance (accountNum : String) (rows : List Transaction) : Option ℤ :=
  let incoming := rows.filter fun t => Credits localRoutingNum accountNum t
  let outgoing := rows.filter fun t => Debits localRoutingNum accountNum t
  if incoming = [] then none
  else some ((incoming.map Transaction.amount).sum - (outgoing.map Transaction.amount).sum)

/-- What the loader of the balance cache makes of the query. -/
def loadBalance (accountId : String) (rows : List Transaction) : ℤ :=
  (findBalance localRoutingNum accountId rows).getD 0

/-- The balance cache: its loader, and what the callback puts for one side. -/
def balanceCell : Cell Transaction Posting String ℤ where
  load := loadBalance localRoutingNum
  apply prevBalance p :=
    match p.side with
    | .debit => prevBalance - p.transaction.amount
    | .credit => prevBalance + p.transaction.amount
  mutates := false

/-- The callback adds the amount of the posting. -/
lemma balanceCell_apply (v : ℤ) (p : Posting) :
    (balanceCell localRoutingNum).apply v p = v + p.amount := by
  obtain ⟨side, t⟩ := p
  cases side
  · exact sub_eq_add_neg v t.amount
  · rfl

/-- The postings of a ledger on one account. -/
def postingsOn (a : String) (rows : List Transaction) : List Posting :=
  (rows.flatMap (postings localRoutingNum)).filter (·.accountId = a)

@[simp] lemma postingsOn_nil (a : String) : postingsOn localRoutingNum a [] = [] := rfl

@[simp] lemma postingsOn_append (a : String) (xs ys : List Transaction) :
    postingsOn localRoutingNum a (xs ++ ys) =
      postingsOn localRoutingNum a xs ++ postingsOn localRoutingNum a ys := by
  simp [postingsOn]

lemma postingsOn_singleton (a : String) (t : Transaction) :
    postingsOn localRoutingNum a [t] = (postings localRoutingNum t).filter (·.accountId = a) := by
  rw [postingsOn, List.flatMap_cons, List.flatMap_nil, List.append_nil]

lemma mem_postingsOn {a : String} {rows : List Transaction} {p : Posting} :
    p ∈ postingsOn localRoutingNum a rows ↔
      p.transaction ∈ rows ∧ ((p.side = .debit ∧ Debits localRoutingNum a p.transaction) ∨
        (p.side = .credit ∧ Credits localRoutingNum a p.transaction)) := by
  rw [postingsOn, List.mem_filter, decide_eq_true_eq]
  obtain ⟨side, t⟩ := p
  cases side <;> simp [mem_postings, Debits, Credits, Posting.accountId] <;> tauto

/-- The balance of an account by double entry: the sum of its postings. -/
def ledgerBalance (a : String) (rows : List Transaction) : ℤ :=
  ((postingsOn localRoutingNum a rows).map Posting.amount).sum

@[simp] lemma ledgerBalance_nil (a : String) : ledgerBalance localRoutingNum a [] = 0 := rfl

@[simp] lemma ledgerBalance_append (a : String) (xs ys : List Transaction) :
    ledgerBalance localRoutingNum a (xs ++ ys) =
      ledgerBalance localRoutingNum a xs + ledgerBalance localRoutingNum a ys := by
  simp [ledgerBalance]

lemma ledgerBalance_cons (a : String) (t : Transaction) (rows : List Transaction) :
    ledgerBalance localRoutingNum a (t :: rows) =
      ledgerBalance localRoutingNum a [t] + ledgerBalance localRoutingNum a rows :=
  ledgerBalance_append localRoutingNum a [t] rows

/-- What one transaction adds to an account. -/
lemma ledgerBalance_singleton (a : String) (t : Transaction) :
    ledgerBalance localRoutingNum a [t] =
      (if Credits localRoutingNum a t then t.amount else 0) -
        (if Debits localRoutingNum a t then t.amount else 0) := by
  by_cases hf : t.fromRoutingNum = localRoutingNum <;>
    by_cases ht : t.toRoutingNum = localRoutingNum <;>
    by_cases hfa : t.fromAccountNum = a <;> by_cases hta : t.toAccountNum = a <;>
    simp [ledgerBalance, postingsOn, postings, Credits, Debits, Posting.accountId,
      Posting.amount, hf, ht, hfa, hta]

/-- The two sums of the query give the balance. -/
lemma ledgerBalance_eq (a : String) (rows : List Transaction) :
    ledgerBalance localRoutingNum a rows =
      ((rows.filter fun t => Credits localRoutingNum a t).map Transaction.amount).sum -
        ((rows.filter fun t => Debits localRoutingNum a t).map Transaction.amount).sum := by
  induction rows with
  | nil => rfl
  | cons t rows ih =>
      rw [ledgerBalance_cons, ledgerBalance_singleton, ih]
      by_cases hc : Credits localRoutingNum a t <;> by_cases hd : Debits localRoutingNum a t <;>
        simp [hc, hd] <;> omega

/-! ### Ledgers in which every payer has been paid -/

/-- Every transaction from a local account comes after one that gives to it. -/
def Grounded (rows : List Transaction) : Prop :=
  Preceded (fun before t => t.fromRoutingNum = localRoutingNum →
    ∃ c ∈ before, Credits localRoutingNum t.fromAccountNum c) rows

variable {localRoutingNum}

lemma Grounded.left {rows rest : List Transaction} (h : Grounded localRoutingNum (rows ++ rest)) :
    Grounded localRoutingNum rows :=
  Preceded.left h

lemma Grounded.of_begins {rows all : List Transaction} (hpre : rows <+: all)
    (h : Grounded localRoutingNum all) : Grounded localRoutingNum rows := by
  obtain ⟨rest, rfl⟩ := hpre
  exact h.left

lemma Grounded.snoc {rows : List Transaction} {t : Transaction} (h : Grounded localRoutingNum rows)
    (ht : t.fromRoutingNum = localRoutingNum →
      ∃ c ∈ rows, Credits localRoutingNum t.fromAccountNum c) :
    Grounded localRoutingNum (rows ++ [t]) :=
  Preceded.snoc h ht

/-- An account that nothing gives to pays nothing. -/
lemma Grounded.debits_eq_nil {rows : List Transaction} (h : Grounded localRoutingNum rows)
    {a : String} (hnone : (rows.filter fun t => Credits localRoutingNum a t) = []) :
    (rows.filter fun t => Debits localRoutingNum a t) = [] := by
  refine List.filter_eq_nil_iff.mpr fun t ht => ?_
  simp only [decide_eq_true_eq]
  rintro ⟨rfl, hlocal⟩
  obtain ⟨before, after, hrows⟩ := List.append_of_mem ht
  obtain ⟨c, hc, hcredits⟩ := h before t after hrows hlocal
  have hmem : c ∈ rows := hrows ▸ List.mem_append_left _ hc
  exact List.filter_eq_nil_iff.mp hnone c hmem (by simpa using hcredits)

/-- In a grounded ledger the loaded balance is the sum of the postings: the `NULL` of the query
stands for an account without any. -/
lemma loadBalance_eq {rows : List Transaction} (h : Grounded localRoutingNum rows) (a : String) :
    loadBalance localRoutingNum a rows = ledgerBalance localRoutingNum a rows := by
  rw [ledgerBalance_eq, loadBalance, findBalance]
  by_cases hnone : (rows.filter fun t => Credits localRoutingNum a t) = []
  · simp [hnone, h.debits_eq_nil hnone]
  · simp [hnone]

/-- **The balance callback does what the query does**, in grounded ledgers. -/
lemma balanceCell_lawful (localRoutingNum : String) :
    Follower.Lawful (feed localRoutingNum) (balanceCell localRoutingNum)
      (Grounded localRoutingNum) := by
  refine ⟨fun _ _ h => h.left, fun rows t a h => ?_⟩
  rw [Follower.foldl_apply_eq (balanceCell_apply localRoutingNum)]
  change loadBalance localRoutingNum a (rows ++ [t]) = loadBalance localRoutingNum a rows + _
  rw [loadBalance_eq h, loadBalance_eq h.left, ledgerBalance_append]
  congr 1
  rw [ledgerBalance, postingsOn_singleton]
  rfl

/-! ### Histories -/

variable (localRoutingNum)

/-- The first page of `findForAccount`: the newest transactions of the account. Those of one
time come in the order of the ledger; the query promises none. -/
def findForAccount (historyLimit : ℕ) (accountNum : String) (rows : List Transaction) :
    List Transaction :=
  ((rows.filter fun t =>
    Debits localRoutingNum accountNum t ∨ Credits localRoutingNum accountNum t).mergeSort
      fun t u => u.timestamp ≤ t.timestamp).take historyLimit

/-- The history cache: the page of an account, to whose front `processTransaction` adds, and
whose end it drops. -/
def historyCell (historyLimit : ℕ) : Cell Transaction Posting String (List Transaction) where
  load := findForAccount localRoutingNum historyLimit
  apply tList p :=
    let added := p.transaction :: tList
    if historyLimit < added.length then added.dropLast else added
  mutates := true

/-- The ledger is in the order of time, and no transaction is from an account to itself. -/
structure Dated (rows : List Transaction) : Prop where
  sorted : rows.Pairwise fun t u => t.timestamp < u.timestamp
  proper : ∀ t ∈ rows, t.Proper

instance (rows : List Transaction) : Decidable (Dated rows) :=
  decidable_of_iff ((rows.Pairwise fun t u => t.timestamp < u.timestamp) ∧ ∀ t ∈ rows, t.Proper)
    ⟨fun h => ⟨h.1, h.2⟩, fun h => ⟨h.sorted, h.proper⟩⟩

variable {localRoutingNum}

lemma Dated.left {rows rest : List Transaction} (h : Dated (rows ++ rest)) : Dated rows :=
  ⟨(List.pairwise_append.mp h.sorted).1, fun t ht => h.proper t (List.mem_append_left _ ht)⟩

/-- The transactions of an account. -/
def transactionsOf (localRoutingNum a : String) (rows : List Transaction) : List Transaction :=
  rows.filter fun t => Debits localRoutingNum a t ∨ Credits localRoutingNum a t

/-- In a dated ledger the page is the end of it, the newest first. -/
lemma findForAccount_eq {rows : List Transaction} (h : Dated rows) (historyLimit : ℕ)
    (a : String) : findForAccount localRoutingNum historyLimit a rows =
      (transactionsOf localRoutingNum a rows).reverse.take historyLimit := by
  have hmine : (transactionsOf localRoutingNum a rows).Pairwise fun t u =>
      t.timestamp < u.timestamp := h.sorted.filter _
  have hinj := List.inj_on_of_nodup_map (f := Transaction.timestamp)
    (List.pairwise_map.mpr (hmine.imp fun hlt => hlt.ne))
  have hsort : (transactionsOf localRoutingNum a rows).mergeSort
      (fun t u => u.timestamp ≤ t.timestamp) = (transactionsOf localRoutingNum a rows).reverse := by
    have hperm := List.mergeSort_perm (transactionsOf localRoutingNum a rows)
      fun t u => decide (u.timestamp ≤ t.timestamp)
    have hdown : ((transactionsOf localRoutingNum a rows).mergeSort
        fun t u => u.timestamp ≤ t.timestamp).Pairwise fun t u => u.timestamp ≤ t.timestamp := by
      refine (List.pairwise_mergeSort ?_ ?_ _).imp fun h => by simpa using h
      · intro t u v htu huv
        simp only [decide_eq_true_eq] at htu huv ⊢
        exact huv.trans htu
      · intro t u
        simpa using le_total u.timestamp t.timestamp
    have hreverse : (transactionsOf localRoutingNum a rows).reverse.Pairwise
        fun t u => u.timestamp ≤ t.timestamp :=
      List.pairwise_reverse.mpr (hmine.imp fun hlt => hlt.le)
    refine List.Perm.eq_of_pairwise ?_ hdown hreverse (hperm.trans (List.reverse_perm _).symm)
    intro t u ht hu htu hut
    exact hinj (hperm.mem_iff.mp ht) (List.mem_reverse.mp hu) (le_antisymm hut htu)
  rw [findForAccount, ← hsort]
  rfl

/-- Adding to the front of a page and dropping what is beyond its limit. -/
lemma page_cons (n : ℕ) (t : Transaction) (l : List Transaction) :
    (if n < (t :: l.take n).length then (t :: l.take n).dropLast else t :: l.take n) =
      (t :: l).take n := by
  cases n with
  | zero => simp
  | succ n =>
      rw [List.take_succ_cons]
      by_cases hn : n + 1 ≤ l.length
      · have hlen : (l.take (n + 1)).length = n + 1 := by simpa using hn
        rw [if_pos (by simp [hlen]), List.dropLast_eq_take, List.length_cons, hlen,
          Nat.add_sub_cancel, List.take_succ_cons, List.take_take, Nat.min_eq_left (Nat.le_succ n)]
      · have hall : l.take (n + 1) = l := List.take_of_length_le (by omega)
        rw [hall, if_neg (by simp; omega), List.take_of_length_le (by omega)]

/-- The one posting of a proper transaction on an account of its. -/
lemma postings_filter_eq {t : Transaction} {a : String} (hproper : t.Proper) :
    (((postings localRoutingNum t).filter (·.accountId = a)).map Posting.transaction) =
      if Debits localRoutingNum a t ∨ Credits localRoutingNum a t then [t] else [] := by
  by_cases hf : t.fromRoutingNum = localRoutingNum <;>
    by_cases ht : t.toRoutingNum = localRoutingNum <;>
    by_cases hfa : t.fromAccountNum = a <;> by_cases hta : t.toAccountNum = a <;>
    simp_all [postings, Debits, Credits, Posting.accountId, Transaction.Proper]

/-- **The history callback does what the query does**, in dated ledgers. -/
lemma historyCell_lawful (localRoutingNum : String) (historyLimit : ℕ) :
    Follower.Lawful (feed localRoutingNum) (historyCell localRoutingNum historyLimit) Dated := by
  refine ⟨fun _ _ h => h.left, fun rows t a h => ?_⟩
  have hproper := h.proper t (by simp)
  have hstep : ∀ (ps : List Posting) (l : List Transaction),
      ps.foldl (historyCell localRoutingNum historyLimit).apply (l.take historyLimit) =
        ((ps.map Posting.transaction).reverse ++ l).take historyLimit := by
    intro ps
    induction ps with
    | nil => simp
    | cons p ps ih =>
        intro l
        rw [List.foldl_cons]
        have hone : (historyCell localRoutingNum historyLimit).apply (l.take historyLimit) p =
            (p.transaction :: l).take historyLimit := page_cons historyLimit p.transaction l
        rw [hone, ih]
        simp
  change findForAccount localRoutingNum historyLimit a (rows ++ [t]) =
    List.foldl _ (findForAccount localRoutingNum historyLimit a rows) _
  rw [findForAccount_eq h, findForAccount_eq h.left, hstep]
  change _ = (((((postings localRoutingNum t).filter (·.accountId = a)).map
    Posting.transaction).reverse ++ _)).take historyLimit
  rw [postings_filter_eq hproper]
  by_cases ha : Debits localRoutingNum a t ∨ Credits localRoutingNum a t <;>
    simp [transactionsOf, ha]

end Bank

end FinOpsPipeline
