import Mathlib.Order.Defs.LinearOrder
import FinOpsPipeline.Foundations.Redis

/-!
Ranks in a sorted set whose members are linearly ordered.

The order of the members is the one of `ZRANK`: by score, ties in the order of
the members themselves.

* `ZSet.zrank_zadd_of_lt`: a new member with a larger score than all others
  leaves the ranks of the others.
* `ZSet.zrank_zrem_le`, `ZSet.zrank_zrem_of_lt`: when a member leaves, no rank
  grows, and the ranks behind it fall by one.
-/

namespace FinOpsPipeline

namespace ZSet

variable {α : Type} [LinearOrder α]

/-- The order of the members as a Boolean test. -/
def byOrder (a b : α) : Bool := decide (a < b)

lemma before_byOrder {a b : Sigma fun _ : α => ℚ} :
    Before byOrder a b ↔ a.2 < b.2 ∨ a.2 = b.2 ∧ a.1 < b.1 := by
  rw [Before, byOrder, decide_eq_true_eq]

lemma not_before_self (a : Sigma fun _ : α => ℚ) : ¬ Before byOrder a a := by
  rw [before_byOrder]
  rintro (h | ⟨-, h⟩)
  · exact lt_irrefl _ h
  · exact lt_irrefl _ h

lemma before_trans {a b c : Sigma fun _ : α => ℚ} (hab : Before byOrder a b)
    (hbc : Before byOrder b c) : Before byOrder a c := by
  rw [before_byOrder] at hab hbc ⊢
  obtain hab | ⟨hs, hab⟩ := hab
  · obtain hbc | ⟨hs', -⟩ := hbc
    · exact .inl (hab.trans hbc)
    · exact .inl (hs' ▸ hab)
  · obtain hbc | ⟨hs', hbc⟩ := hbc
    · exact .inl (hs ▸ hbc)
    · exact .inr ⟨hs.trans hs', hab.trans hbc⟩

/-- Of two members one comes before the other. -/
lemma before_or_before {a b : Sigma fun _ : α => ℚ} (hne : a.1 ≠ b.1) :
    Before byOrder a b ∨ Before byOrder b a := by
  simp only [before_byOrder]
  obtain hs | hs | hs := lt_trichotomy a.2 b.2
  · exact .inl (.inl hs)
  · obtain h | h := hne.lt_or_gt
    · exact .inl (.inr ⟨hs, h⟩)
    · exact .inr (.inr ⟨hs.symm, h⟩)
  · exact .inr (.inl hs)

variable {z : ZSet α} {x y : α} {r : ℕ} {s : ℚ}

/-- A sorted set is a member and what is left without it. -/
lemma perm_cons_zrem (h : z.zscore y = some s) :
    z.entries.Perm (⟨y, s⟩ :: (z.zrem y).entries) := by
  have hmem : ⟨y, s⟩ ∈ z.entries := AList.mem_lookup_iff.mp h
  obtain ⟨b, l₁, l₂, -, hz, hrest⟩ := List.exists_of_kerase (List.mem_keys_of_mem hmem)
  have hb : z.zscore y = some b :=
    AList.mem_lookup_iff.mpr (hz ▸ List.mem_append_right l₁ List.mem_cons_self)
  obtain rfl : s = b := Option.some.inj (h.symm.trans hb)
  have hleft : (z.zrem y).entries = l₁ ++ l₂ := hrest
  rw [hz, hleft]
  exact List.perm_middle

/-- The members before `x`, counted with and without `y`. -/
lemma countP_entries_zrem (p : (Sigma fun _ : α => ℚ) → Bool) (h : z.zscore y = some s) :
    z.entries.countP p = (z.zrem y).entries.countP p + if p ⟨y, s⟩ then 1 else 0 := by
  rw [(perm_cons_zrem h).countP_eq, List.countP_cons]

lemma zrank_eq_some :
    z.zrank byOrder x = some r ↔ ∃ s, z.zscore x = some s ∧
      z.entries.countP (fun e => decide (Before byOrder e ⟨x, s⟩)) = r :=
  Option.map_eq_some_iff

/-- A member comes before every member that it is not behind. -/
lemma countP_before_lt {s' : ℚ} (h : z.zscore x = some s)
    (hlt : Before byOrder ⟨x, s⟩ ⟨y, s'⟩) :
    z.entries.countP (fun e => decide (Before byOrder e ⟨x, s⟩)) <
      z.entries.countP (fun e => decide (Before byOrder e ⟨y, s'⟩)) := by
  rw [countP_entries_zrem _ h, countP_entries_zrem _ h, if_neg, if_pos]
  · refine Nat.lt_succ_of_le (List.countP_mono_left fun e _ he => ?_)
    exact decide_eq_true (before_trans (of_decide_eq_true he) hlt)
  · exact decide_eq_true hlt
  · rw [decide_eq_true_eq]
    exact not_before_self _

/-- **`ZREM` of another member**: the rank falls by one, or it stays and was the smaller. -/
theorem zrank_zrem {q : ℕ} (hne : x ≠ y) (hx : z.zrank byOrder x = some r)
    (hy : z.zrank byOrder y = some q) :
    ∃ r', (z.zrem y).zrank byOrder x = some r' ∧ (r' + 1 = r ∨ r' = r ∧ r < q) := by
  obtain ⟨sx, hsx, rfl⟩ := zrank_eq_some.mp hx
  obtain ⟨sy, hsy, rfl⟩ := zrank_eq_some.mp hy
  refine ⟨_, zrank_eq_some.mpr ⟨sx, (zscore_zrem_of_ne z hne).trans hsx, rfl⟩, ?_⟩
  obtain hlt | hlt := before_or_before (a := ⟨x, sx⟩) (b := ⟨y, sy⟩) hne
  · refine .inr ⟨?_, countP_before_lt hsx hlt⟩
    rw [countP_entries_zrem _ hsy, if_neg, Nat.add_zero]
    rw [decide_eq_true_eq]
    exact fun h => not_before_self _ (before_trans hlt h)
  · refine .inl ?_
    rw [countP_entries_zrem _ hsy, if_pos]
    exact decide_eq_true hlt

/-- `ZREM` of other members makes no rank larger. -/
lemma zrank_zremAll {xs : List α} (hx : x ∉ xs) (h : z.zrank byOrder x = some r) :
    ∃ r', (z.zremAll xs).zrank byOrder x = some r' ∧ r' ≤ r := by
  induction xs generalizing z r with
  | nil => exact ⟨r, h, le_rfl⟩
  | cons y xs ih =>
      rw [List.mem_cons, not_or] at hx
      obtain ⟨r₁, h₁, hle₁⟩ : ∃ r₁, (z.zrem y).zrank byOrder x = some r₁ ∧ r₁ ≤ r := by
        cases hy : z.zrank byOrder y with
        | none =>
            obtain ⟨sx, hsx, rfl⟩ := zrank_eq_some.mp h
            refine ⟨_, zrank_eq_some.mpr ⟨sx, (zscore_zrem_of_ne z hx.1).trans hsx, rfl⟩, ?_⟩
            exact (List.kerase_sublist y z.entries).countP_le
        | some q =>
            obtain ⟨r', hr', hcase⟩ := zrank_zrem hx.1 h hy
            exact ⟨r', hr', by omega⟩
      obtain ⟨r₂, h₂, hle₂⟩ := ih hx.2 h₁
      exact ⟨r₂, h₂, hle₂.trans hle₁⟩

/-- **`ZADD` of a new member** whose score is larger than all others leaves their ranks. -/
theorem zrank_zadd (hnew : z.zscore y = none) (hlast : ∀ x t, z.zscore x = some t → t < s)
    (hx : z.zrank byOrder x = some r) : (z.zadd y s).zrank byOrder x = some r := by
  obtain ⟨sx, hsx, rfl⟩ := zrank_eq_some.mp hx
  have hne : x ≠ y := by
    rintro rfl
    rw [hnew] at hsx
    cases hsx
  refine zrank_eq_some.mpr ⟨sx, (zscore_zadd_of_ne z s hne).trans hsx, ?_⟩
  have hentries : (z.zadd y s).entries = ⟨y, s⟩ :: z.entries :=
    AList.entries_insert_of_notMem (AList.lookup_eq_none.mp hnew)
  rw [hentries, List.countP_cons, if_neg, Nat.add_zero]
  rw [decide_eq_true_eq, before_byOrder]
  have hlt := hlast x sx hsx
  rintro (h | ⟨h, -⟩)
  · exact lt_asymm h hlt
  · exact hlt.ne h.symm

/-- An empty set has no member. -/
lemma zscore_of_zcard_zero (h : z.zcard = 0) : z.zscore x = none := by
  cases hx : z.zscore x with
  | none => rfl
  | some s =>
      have hmem : ⟨x, s⟩ ∈ z.entries := AList.mem_lookup_iff.mp hx
      rw [List.length_eq_zero_iff.mp h] at hmem
      cases hmem

end ZSet

end FinOpsPipeline
