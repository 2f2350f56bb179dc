import Mathlib.Data.List.AList
import Mathlib.Data.List.Dedup
import Mathlib.Data.List.Sort
import Mathlib.Algebra.BigOperators.Group.List.Basic

/-!
Dictionaries that a program fills in a loop over a list of pairs.

* `Dict.values`: the values of a dictionary.
* `assignAll`: every pair is assigned, so that a later one replaces an earlier one
  under the same key. `subperm_values_assignAll`: every pair has a value of its own
  exactly when no key is repeated.
* `addAll`: every pair is added to what is there under its key. `lookup_addAll`: the
  sum of the pairs of a key.
* `sortedValues`: the values in the order of their keys. `sortedValues_addAll` gives them
  for any strictly increasing list of the keys, so that they do not depend on the order of
  the pairs (`sortedValues_addAll_perm`).
-/

namespace FinOpsPipeline

/-- A dictionary from keys to values of one type. -/
abbrev Dict (κ β : Type) := AList fun _ : κ => β

namespace Dict

/-- The values, in the order of the entries. -/
def values {κ β : Type} (d : Dict κ β) : List β := d.entries.map Sigma.snd

variable {κ β : Type} [DecidableEq κ]

/-! ### Assignments -/

/-- `d[k] = v` for every pair, from the first to the last. -/
def assignAll (d : Dict κ β) (ps : List (κ × β)) : Dict κ β :=
  ps.foldl (fun d p => d.insert p.1 p.2) d

/-- The keys are those of the pairs and those that were there. -/
lemma mem_assignAll {d : Dict κ β} {ps : List (κ × β)} {k : κ} :
    k ∈ d.assignAll ps ↔ k ∈ d ∨ k ∈ ps.map Prod.fst := by
  induction ps generalizing d with
  | nil => simp [assignAll]
  | cons p ps ih =>
      have hstep : d.assignAll (p :: ps) = assignAll (d.insert p.1 p.2) ps := rfl
      rw [hstep, ih, AList.mem_insert, List.map_cons, List.mem_cons]
      tauto

/-- Pairs with new and distinct keys are all entered. -/
lemma entries_assignAll {d : Dict κ β} {ps : List (κ × β)} (hps : (ps.map Prod.fst).Nodup)
    (hnew : ∀ p ∈ ps, p.1 ∉ d) :
    (d.assignAll ps).entries.Perm (ps.map (fun p => ⟨p.1, p.2⟩) ++ d.entries) := by
  induction ps generalizing d with
  | nil => exact List.Perm.refl _
  | cons p ps ih =>
      rw [List.map_cons, List.nodup_cons] at hps
      have hinsert : (d.insert p.1 p.2).entries = ⟨p.1, p.2⟩ :: d.entries :=
        AList.entries_insert_of_notMem (hnew p List.mem_cons_self)
      have hnew' : ∀ q ∈ ps, q.1 ∉ d.insert p.1 p.2 := by
        intro q hq hmem
        rcases (AList.mem_insert d).mp hmem with heq | hmem
        · exact hps.1 (heq ▸ List.mem_map_of_mem hq)
        · exact hnew q (List.mem_cons_of_mem p hq) hmem
      have hrest := ih hps.2 hnew'
      rw [hinsert] at hrest
      exact hrest.trans List.perm_middle

/-- There are no more values than distinct keys. -/
lemma length_values_assignAll_le (ps : List (κ × β)) :
    (values (assignAll ∅ ps)).length ≤ (ps.map Prod.fst).dedup.length := by
  have hsubset : (assignAll ∅ ps : Dict κ β).keys ⊆ (ps.map Prod.fst).dedup := by
    intro k hk
    rw [List.mem_dedup]
    exact (mem_assignAll.mp (AList.mem_keys.mpr hk)).resolve_left (AList.notMem_empty k)
  have hle := (List.subperm_of_subset (AList.keys_nodup _) hsubset).length_le
  rw [values, List.length_map]
  rwa [AList.keys, List.keys, List.length_map] at hle

/-- With distinct keys the values are those of the pairs. -/
lemma values_assignAll {ps : List (κ × β)} (h : (ps.map Prod.fst).Nodup) :
    (values (assignAll ∅ ps)).Perm (ps.map Prod.snd) := by
  have hentries := (entries_assignAll h fun p _ => AList.notMem_empty p.1).map Sigma.snd
  rwa [AList.empty_entries, List.append_nil, List.map_map] at hentries

/-- **No pair is lost** exactly when no key is repeated. -/
theorem subperm_values_assignAll {ps : List (κ × β)} :
    (ps.map Prod.snd).Subperm (values (assignAll ∅ ps)) ↔ (ps.map Prod.fst).Nodup := by
  constructor
  · intro hsub
    have hlength : (ps.map Prod.fst).length ≤ (ps.map Prod.fst).dedup.length := by
      calc (ps.map Prod.fst).length = (ps.map Prod.snd).length := by simp
        _ ≤ (values (assignAll ∅ ps)).length := hsub.length_le
        _ ≤ (ps.map Prod.fst).dedup.length := length_values_assignAll_le ps
    have heq := (List.dedup_sublist _).eq_of_length_le hlength
    exact heq ▸ List.nodup_dedup _
  · intro hnodup
    exact (values_assignAll hnodup).symm.subperm

/-! ### Sums -/

/-- `d[k] = d.get(k, 0) + v` for every pair, from the first to the last. -/
def addAll [AddMonoid β] (d : Dict κ β) (ps : List (κ × β)) : Dict κ β :=
  ps.foldl (fun d p => d.insert p.1 ((d.lookup p.1).getD 0 + p.2)) d

/-- The values of the pairs of a key. -/
def valuesAt (ps : List (κ × β)) (k : κ) : List β := (ps.filter (·.1 = k)).map Prod.snd

/-- **Under a key stands the sum of its pairs**, after what was there. -/
theorem lookup_addAll [AddMonoid β] {d : Dict κ β} {ps : List (κ × β)} {k : κ} :
    (d.addAll ps).lookup k =
      if k ∈ d ∨ k ∈ ps.map Prod.fst then
        some ((d.lookup k).getD 0 + (valuesAt ps k).sum)
      else none := by
  induction ps generalizing d with
  | nil =>
      by_cases hk : k ∈ d
      · obtain ⟨v, hv⟩ := Option.isSome_iff_exists.mp (AList.lookup_isSome.mpr hk)
        simp [addAll, valuesAt, hk, hv]
      · simpa [addAll, hk] using AList.lookup_eq_none.mpr hk
  | cons p ps ih =>
      have hstep : d.addAll (p :: ps) =
          addAll (d.insert p.1 ((d.lookup p.1).getD 0 + p.2)) ps := rfl
      have hkeys : k ∈ d.insert p.1 ((d.lookup p.1).getD 0 + p.2) ∨ k ∈ ps.map Prod.fst ↔
          k ∈ d ∨ k ∈ (p :: ps).map Prod.fst := by
        rw [AList.mem_insert, List.map_cons, List.mem_cons]
        tauto
      have hvalue : ((d.insert p.1 ((d.lookup p.1).getD 0 + p.2)).lookup k).getD 0 +
            (valuesAt ps k).sum =
          (d.lookup k).getD 0 + (valuesAt (p :: ps) k).sum := by
        by_cases hk : k = p.1
        · subst hk
          simp [valuesAt, AList.lookup_insert, add_assoc]
        · have hne : ¬ p.1 = k := fun h => hk h.symm
          simp [valuesAt, AList.lookup_insert_ne hk, hne]
      rw [hstep, ih, hvalue]
      exact if_congr hkeys rfl rfl

lemma addAll_append [AddMonoid β] (d : Dict κ β) (ps qs : List (κ × β)) :
    d.addAll (ps ++ qs) = (d.addAll ps).addAll qs := List.foldl_append

/-- The keys are those of the pairs. -/
lemma mem_addAll [AddMonoid β] {ps : List (κ × β)} {k : κ} :
    k ∈ addAll ∅ ps ↔ k ∈ ps.map Prod.fst := by
  rw [← AList.lookup_isSome, lookup_addAll]
  by_cases hk : k ∈ ps.map Prod.fst <;> simp [hk]

/-! ### The order of the keys -/

section Sorted

variable [LinearOrder κ]

/-- `sorted(d)`. -/
def sortedKeys (d : Dict κ β) : List κ := d.keys.insertionSort (· ≤ ·)

/-- `[d[key] for key in sorted(d)]`. -/
def sortedValues [Zero β] (d : Dict κ β) : List β := d.sortedKeys.map fun k => (d.lookup k).getD 0

omit [DecidableEq κ] in
lemma mem_sortedKeys {d : Dict κ β} {k : κ} : k ∈ d.sortedKeys ↔ k ∈ d := by
  rw [sortedKeys, List.mem_insertionSort, AList.mem_keys]

omit [DecidableEq κ] in
/-- The keys are distinct, so that they increase strictly. -/
lemma pairwise_sortedKeys (d : Dict κ β) : d.sortedKeys.Pairwise (· < ·) := by
  have hle : d.sortedKeys.Pairwise (· ≤ ·) := List.pairwise_insertionSort _ _
  have hnodup : d.sortedKeys.Nodup := (List.perm_insertionSort _ _).nodup_iff.mpr d.keys_nodup
  exact hle.imp₂ (fun _ _ hle hne => lt_of_le_of_ne hle hne) hnodup

/-- **The values are the sums of the pairs**, at any strictly increasing list of their keys. -/
theorem sortedValues_addAll [AddMonoid β] {ps : List (κ × β)} {ks : List κ}
    (hks : ks.Pairwise (· < ·)) (hmem : ∀ k, k ∈ ks ↔ k ∈ ps.map Prod.fst) :
    sortedValues (addAll ∅ ps) = ks.map fun k => (valuesAt ps k).sum := by
  have hkeys : (addAll ∅ ps).sortedKeys = ks := by
    refine (pairwise_sortedKeys _).eq_of_mem_iff hks fun {k} => ?_
    rw [mem_sortedKeys, mem_addAll, hmem]
  rw [sortedValues, hkeys]
  refine List.map_congr_left fun k hk => ?_
  rw [lookup_addAll, if_pos (.inr ((hmem k).mp hk))]
  simp

/-- **The order of the pairs does not matter.** -/
theorem sortedValues_addAll_perm [AddCommMonoid β] {ps qs : List (κ × β)} (h : ps.Perm qs) :
    sortedValues (addAll ∅ ps) = sortedValues (addAll ∅ qs) := by
  have hmem : ∀ k, k ∈ (addAll ∅ qs).sortedKeys ↔ k ∈ ps.map Prod.fst := by
    intro k
    rw [mem_sortedKeys, mem_addAll, (h.map Prod.fst).mem_iff]
  have hmem' : ∀ k, k ∈ (addAll ∅ qs).sortedKeys ↔ k ∈ qs.map Prod.fst := by
    intro k
    rw [mem_sortedKeys, mem_addAll]
  rw [sortedValues_addAll (pairwise_sortedKeys _) hmem,
    sortedValues_addAll (pairwise_sortedKeys _) hmem']
  refine List.map_congr_left fun k _ => ?_
  exact ((h.filter _).map _).sum_eq

end Sorted

end Dict

end FinOpsPipeline
