import Mathlib.Data.List.AList
import Mathlib.Data.List.Sort
import Mathlib.Data.Rat.Defs
import Mathlib.Algebra.Order.Ring.Rat

/-!
The Redis values a list-based queue is built from, with the effect of each
command as a pure function.

* `ListKey`: a list key together with the modification counter that `WATCH`
  compares; a command that leaves the list as it was does not touch the key, so
  `EXEC` succeeds exactly when the counter is the one seen by `WATCH`.
* `ZSet`: a sorted set, each member with one score; `ZSet.rangeByScore` lists
  the members up to a bound by score, ties in the byte order of the members, and
  `ZSet.zrank` is the number of members before a member.
* `Expiring`: string keys with a time to live, `EXISTS` being false from the
  expiry on.
-/

namespace FinOpsPipeline

/-! ### Lists -/

/-- A list key and the number of times a command has modified it. -/
structure ListKey (α : Type) where
  items : List α
  version : ℕ

namespace ListKey

variable {α : Type}

/-- The key that does not exist: Redis reads it as the empty list. -/
def missing : ListKey α := ⟨[], 0⟩

/-- `RPUSH`. -/
def rpush (k : ListKey α) (xs : List α) : ListKey α :=
  ⟨k.items ++ xs, k.version + 1⟩

/-- The source side of `LMOVE ... LEFT`: what is left after the head is taken. -/
def lpop (k : ListKey α) : ListKey α := ⟨k.items.tail, k.version + 1⟩

/-- `LREM key 1 x`: removes the first occurrence; with none the key is untouched. -/
def lrem [DecidableEq α] (k : ListKey α) (x : α) : ListKey α :=
  if x ∈ k.items then ⟨k.items.erase x, k.version + 1⟩ else k

/-- `DEL`. -/
def del (k : ListKey α) : ListKey α := ⟨[], k.version + 1⟩

@[simp] lemma rpush_items (k : ListKey α) (xs : List α) :
    (k.rpush xs).items = k.items ++ xs := rfl

@[simp] lemma lpop_items (k : ListKey α) : k.lpop.items = k.items.tail := rfl

@[simp] lemma lrem_items [DecidableEq α] (k : ListKey α) (x : α) :
    (k.lrem x).items = k.items.erase x := by
  rw [lrem]
  split
  · rfl
  · rename_i h
    exact (List.erase_of_not_mem h).symm

lemma mem_of_mem_lrem [DecidableEq α] {k : ListKey α} {x y : α} (h : y ∈ (k.lrem x).items) :
    y ∈ k.items := by
  rw [lrem_items] at h
  exact List.mem_of_mem_erase h

/-- `LREM` removes nothing but the given value. -/
lemma mem_lrem_of_ne [DecidableEq α] {k : ListKey α} {x y : α} (hne : y ≠ x) (h : y ∈ k.items) :
    y ∈ (k.lrem x).items := by
  rw [lrem_items]
  exact (List.mem_erase_of_ne hne).mpr h

/-- An `LREM` that leaves the modification counter alone left the list alone. -/
lemma lrem_cases [DecidableEq α] (k : ListKey α) (x : α) :
    k.lrem x = k ∨ (k.lrem x).version = k.version + 1 := by
  rw [lrem]
  split
  · exact .inr rfl
  · exact .inl rfl

end ListKey

/-! ### Sorted sets -/

/-- A sorted set: finitely many members, each with one score. -/
abbrev ZSet (α : Type) := AList fun _ : α => ℚ

namespace ZSet

variable {α : Type} [DecidableEq α]

/-- `ZADD`. -/
def zadd (z : ZSet α) (x : α) (score : ℚ) : ZSet α := z.insert x score

/-- `ZADD NX`: a member that is present keeps its score. -/
def zaddNX (z : ZSet α) (x : α) (score : ℚ) : ZSet α :=
  if (z.lookup x).isSome then z else z.insert x score

/-- `ZSCORE`. -/
def zscore (z : ZSet α) (x : α) : Option ℚ := z.lookup x

/-- `ZREM`. -/
def zrem (z : ZSet α) (x : α) : ZSet α := z.erase x

/-- The order of a range reply: by score, ties by the byte order of the members. -/
def Before (lex : α → α → Bool) (a b : Sigma fun _ : α => ℚ) : Prop :=
  a.2 < b.2 ∨ a.2 = b.2 ∧ lex a.1 b.1 = true

instance (lex : α → α → Bool) : DecidableRel (Before lex) := fun a b =>
  inferInstanceAs (Decidable (a.2 < b.2 ∨ a.2 = b.2 ∧ lex a.1 b.1 = true))

/-- `ZRANGEBYSCORE key -inf max`. -/
def rangeByScore (lex : α → α → Bool) (z : ZSet α) (max : ℚ) : List α :=
  ((z.entries.filter fun e => e.2 ≤ max).insertionSort (Before lex)).map Sigma.fst

@[simp] lemma zscore_zadd_self (z : ZSet α) (x : α) (s : ℚ) :
    (z.zadd x s).zscore x = some s := AList.lookup_insert z

lemma zscore_zadd_of_ne (z : ZSet α) {x y : α} (s : ℚ) (h : y ≠ x) :
    (z.zadd x s).zscore y = z.zscore y := AList.lookup_insert_ne h

/-- `ZADD NX` changes at most the score of a member that had none. -/
lemma zscore_zaddNX {z : ZSet α} {x y : α} {s d : ℚ} (h : (z.zaddNX x s).zscore y = some d) :
    z.zscore y = some d ∨ y = x ∧ z.zscore x = none ∧ d = s := by
  rw [zaddNX] at h
  split at h
  · exact .inl h
  · rename_i hx
    by_cases hy : y = x
    · subst hy
      rw [zscore, AList.lookup_insert] at h
      exact .inr ⟨rfl, by simpa [zscore] using hx, (Option.some.inj h).symm⟩
    · rw [zscore, AList.lookup_insert_ne hy] at h
      exact .inl h

/-- `ZREM` gives no member a new score. -/
lemma zscore_zrem {z : ZSet α} {x y : α} {d : ℚ} (h : (z.zrem x).zscore y = some d) :
    z.zscore y = some d := by
  by_cases hy : y = x
  · subst hy
    rw [zscore, zrem, AList.lookup_erase] at h
    cases h
  · rwa [zscore, zrem, AList.lookup_erase_ne hy] at h

/-- A member of the reply has a score within the bound. -/
lemma zscore_of_mem_rangeByScore {lex : α → α → Bool} {z : ZSet α} {max : ℚ} {x : α}
    (h : x ∈ z.rangeByScore lex max) : ∃ d, z.zscore x = some d ∧ d ≤ max := by
  rw [rangeByScore, List.mem_map] at h
  obtain ⟨⟨y, d⟩, he, rfl⟩ := h
  rw [List.mem_insertionSort, List.mem_filter] at he
  exact ⟨d, AList.mem_lookup_iff.mpr he.1, by simpa using he.2⟩

/-- What `ZADD NX` makes of every score. -/
lemma zscore_zaddNX_eq (z : ZSet α) (x y : α) (s : ℚ) :
    (z.zaddNX x s).zscore y = (z.zscore y).or (if y = x then some s else none) := by
  rw [zaddNX]
  split
  · rename_i hx
    obtain ⟨d, hd⟩ := Option.isSome_iff_exists.mp hx
    by_cases hy : y = x
    · rw [hy, zscore, hd, Option.some_or]
    · rw [if_neg hy, Option.or_none]
  · rename_i hx
    by_cases hy : y = x
    · rw [hy, if_pos rfl, zscore, zscore, AList.lookup_insert,
        Option.not_isSome_iff_eq_none.mp hx, Option.none_or]
    · rw [if_neg hy, Option.or_none, zscore, zscore, AList.lookup_insert_ne hy]

lemma zaddNX_of_zscore {z : ZSet α} {x : α} {d : ℚ} (s : ℚ) (h : z.zscore x = some d) :
    z.zaddNX x s = z :=
  if_pos (Option.isSome_iff_exists.mpr ⟨d, h⟩)

/-- The members of the reply: those with a score within the bound. -/
lemma mem_rangeByScore_iff {lex : α → α → Bool} {z : ZSet α} {max : ℚ} {x : α} :
    x ∈ z.rangeByScore lex max ↔ ∃ d, z.zscore x = some d ∧ d ≤ max := by
  refine ⟨zscore_of_mem_rangeByScore, ?_⟩
  rintro ⟨d, hd, hle⟩
  rw [rangeByScore, List.mem_map]
  refine ⟨⟨x, d⟩, ?_, rfl⟩
  rw [List.mem_insertionSort, List.mem_filter]
  exact ⟨AList.mem_lookup_iff.mp hd, by simpa using hle⟩

omit [DecidableEq α] in
/-- No member comes twice. -/
lemma nodup_rangeByScore (lex : α → α → Bool) (z : ZSet α) (max : ℚ) :
    (z.rangeByScore lex max).Nodup := by
  have hperm : (z.rangeByScore lex max).Perm
      ((z.entries.filter fun e => e.2 ≤ max).map Sigma.fst) :=
    (List.perm_insertionSort _ _).map _
  have hkeys : (z.entries.map Sigma.fst).Nodup := z.nodupKeys
  exact hperm.nodup_iff.mpr (hkeys.sublist (List.filter_sublist.map _))

/-- The reply is ordered by score, ties by the byte order of the members. -/
lemma pairwise_rangeByScore {lex : α → α → Bool} (total : ∀ a b, lex a b = true ∨ lex b a = true)
    (trans : ∀ a b c, lex a b = true → lex b c = true → lex a c = true) (z : ZSet α) (max : ℚ) :
    (z.rangeByScore lex max).Pairwise fun a b =>
      ∃ d e, z.zscore a = some d ∧ z.zscore b = some e ∧ Before lex ⟨a, d⟩ ⟨b, e⟩ := by
  have htotal : Std.Total (Before lex) := by
    refine ⟨fun a b => ?_⟩
    rcases lt_trichotomy a.2 b.2 with h | h | h
    · exact .inl (.inl h)
    · exact (total a.1 b.1).imp (fun hab => .inr ⟨h, hab⟩) fun hba => .inr ⟨h.symm, hba⟩
    · exact .inr (.inl h)
  have htrans : IsTrans _ (Before lex) := by
    refine ⟨fun a b c hab hbc => ?_⟩
    rcases hab with hab | ⟨hab, hlab⟩ <;> rcases hbc with hbc | ⟨hbc, hlbc⟩
    · exact .inl (hab.trans hbc)
    · exact .inl (hbc ▸ hab)
    · exact .inl (hab ▸ hbc)
    · exact .inr ⟨hab.trans hbc, trans _ _ _ hlab hlbc⟩
  rw [rangeByScore, List.pairwise_map]
  refine (List.pairwise_insertionSort _ _).imp_of_mem fun {a b} ha hb hab => ?_
  have hscore : ∀ {e}, e ∈ (z.entries.filter fun e => e.2 ≤ max).insertionSort (Before lex) →
      z.zscore e.1 = some e.2 := fun {e} he => by
    rw [List.mem_insertionSort, List.mem_filter] at he
    exact AList.mem_lookup_iff.mpr he.1
  exact ⟨a.2, b.2, hscore ha, hscore hb, hab⟩

/-- `ZRANGEBYSCORE key min max`. -/
def rangeByScoreFrom (lex : α → α → Bool) (z : ZSet α) (min max : ℚ) : List α :=
  ((z.entries.filter fun e => min ≤ e.2 ∧ e.2 ≤ max).insertionSort (Before lex)).map Sigma.fst

/-- `ZREM` of several members. -/
def zremAll (z : ZSet α) (xs : List α) : ZSet α := xs.foldl zrem z

/-- `ZCARD`. -/
def zcard (z : ZSet α) : ℕ := z.entries.length

/-- `ZRANK`: how many members come before a member, with no answer for a value
that is no member. -/
def zrank (lex : α → α → Bool) (z : ZSet α) (x : α) : Option ℕ :=
  (z.zscore x).map fun s => z.entries.countP fun e => decide (Before lex e ⟨x, s⟩)

lemma zscore_zrem_of_ne (z : ZSet α) {x y : α} (h : y ≠ x) :
    (z.zrem x).zscore y = z.zscore y := AList.lookup_erase_ne h

@[simp] lemma zscore_zrem_self (z : ZSet α) (x : α) : (z.zrem x).zscore x = none :=
  AList.lookup_erase x z

/-- `ZREM` of several members gives no member a new score. -/
lemma zscore_of_zremAll {z : ZSet α} {xs : List α} {y : α} {d : ℚ}
    (h : (z.zremAll xs).zscore y = some d) : z.zscore y = some d := by
  induction xs generalizing z with
  | nil => exact h
  | cons x xs ih => exact zscore_zrem (ih h)

/-- `ZREM` of other members leaves a score as it is. -/
lemma zscore_zremAll_of_notMem {z : ZSet α} {xs : List α} {y : α} (h : y ∉ xs) :
    (z.zremAll xs).zscore y = z.zscore y := by
  induction xs generalizing z with
  | nil => rfl
  | cons x xs ih =>
      rw [List.mem_cons, not_or] at h
      exact (ih h.2).trans (zscore_zrem_of_ne z h.1)

/-- A member of the reply has a score. -/
lemma zscore_of_mem_rangeByScoreFrom {lex : α → α → Bool} {z : ZSet α} {min max : ℚ} {x : α}
    (h : x ∈ z.rangeByScoreFrom lex min max) : ∃ d, z.zscore x = some d := by
  rw [rangeByScoreFrom, List.mem_map] at h
  obtain ⟨⟨y, d⟩, he, rfl⟩ := h
  rw [List.mem_insertionSort, List.mem_filter] at he
  exact ⟨d, AList.mem_lookup_iff.mpr he.1⟩

end ZSet

/-! ### String keys with a time to live -/

/-- String keys `SET` with `EX`, each with the time at which it expires. -/
abbrev Expiring (κ : Type) := κ → Option ℚ

namespace Expiring

variable {κ : Type} [DecidableEq κ]

/-- No key is set. -/
def none : Expiring κ := fun _ => Option.none

/-- `SET key "1" EX ttl` at time `now`. -/
def set (m : Expiring κ) (k : κ) (now ttl : ℚ) : Expiring κ :=
  Function.update m k (some (now + ttl))

/-- `EXISTS key` at time `now`. -/
def live (m : Expiring κ) (k : κ) (now : ℚ) : Bool :=
  (m k).any fun expiry => now < expiry

/-- `EXPIRE key ttl` at time `now`: a key that is gone stays gone. -/
def expire (m : Expiring κ) (k : κ) (now ttl : ℚ) : Expiring κ :=
  if m.live k now then m.set k now ttl else m

/-- `DEL` of several keys. -/
def del (m : Expiring κ) (ks : List κ) : Expiring κ :=
  fun k => if k ∈ ks then Option.none else m k

omit [DecidableEq κ] in
lemma isSome_of_live {m : Expiring κ} {k : κ} {now : ℚ} (h : m.live k now = true) :
    (m k).isSome := by
  cases hk : m k with
  | none => simp [live, hk] at h
  | some e => rfl

omit [DecidableEq κ] in
/-- A key that is present was present before, as long as nobody sets it. -/
lemma live_of_le {m : Expiring κ} {k : κ} {now later : ℚ} (hle : now ≤ later)
    (h : m.live k later = true) : m.live k now = true := by
  cases hk : m k with
  | none => simp [live, hk] at h
  | some e =>
      simp only [live, hk, Option.any_some, decide_eq_true_eq] at h ⊢
      exact hle.trans_lt h

/-- `SET` makes no other key present. -/
lemma live_of_set {m : Expiring κ} {k k' : κ} {now ttl : ℚ} (hne : k' ≠ k)
    (h : (m.set k now ttl).live k' now = true) : m.live k' now = true := by
  rwa [live, set, Function.update_of_ne hne] at h

/-- A key is present right after it was set. -/
lemma live_set (m : Expiring κ) (k : κ) {now ttl : ℚ} (httl : 0 < ttl) :
    (m.set k now ttl).live k now = true := by
  rw [live, set, Function.update_self, Option.any_some, decide_eq_true_eq]
  exact lt_add_of_pos_right now httl

/-- `EXPIRE` makes no key present. -/
lemma live_of_expire {m : Expiring κ} {k k' : κ} {now ttl : ℚ}
    (h : (m.expire k now ttl).live k' now = true) : m.live k' now = true := by
  rw [expire] at h
  split at h
  · rename_i hlive
    by_cases hk : k' = k
    · exact hk ▸ hlive
    · exact live_of_set hk h
  · exact h

lemma isSome_of_set {m : Expiring κ} {k k' : κ} {now ttl : ℚ}
    (h : ((m.set k now ttl) k').isSome) : k' = k ∨ (m k').isSome := by
  by_cases hk : k' = k
  · exact .inl hk
  · rw [set, Function.update_of_ne hk] at h
    exact .inr h

lemma isSome_of_del {m : Expiring κ} {ks : List κ} {k : κ} (h : ((m.del ks) k).isSome) :
    (m k).isSome := by
  rw [del] at h
  split at h
  · cases h
  · exact h

end Expiring

end FinOpsPipeline
