import FinOpsPipeline.Clients.PodSelector
import Mathlib.Data.Set.Insert

/-!
The pod selector and the other workloads of a namespace.

The regular expression of `_pod_regex` asks for a name and two generated segments,
as the pods of a Deployment or a Rollout have them. The parser of the KRR output also
keeps StatefulSets and DaemonSets, whose pods have one segment.

* `Workload.PodName`: the names of the pods of a workload.
* `podRegex_matches_other`: the workloads of which a pod is matched.
* `Isolates`: the regular expression matches the pods of one workload.
* `isolates_iff`: it does exactly for a Deployment or a Rollout with none of these
  workloads beside it; `selector_crosses_workloads` is one that has.
-/

namespace FinOpsPipeline

open scoped PyText

namespace PrometheusClient

/-! ### Workloads and their pods -/

/-- The kinds of workloads that own pods and that the KRR parser keeps. -/
inductive WorkloadKind where
  | deployment | rollout | statefulSet | daemonSet
  deriving DecidableEq

/-- The kinds whose pods have two generated segments, from the template and the pod. -/
def WorkloadKind.TwoSegments (kind : WorkloadKind) : Prop := kind = .deployment ∨ kind = .rollout

instance (kind : WorkloadKind) : Decidable kind.TwoSegments :=
  inferInstanceAs (Decidable (_ ∨ _))

/-- A workload of a namespace, with a name as Kubernetes writes it. -/
structure Workload where
  kind : WorkloadKind
  name : String
  named : KubernetesName name

/-- The name of a workload, a hyphen and one more part. -/
def Workload.extended (w : Workload) (rest : List Char) : List Char := w.name.toList ++ '-' :: rest

/-- The names of the pods of a workload: with a hash and an id, or with an ordinal or
an id alone. -/
def Workload.PodName (w : Workload) (pod : List Char) : Prop :=
  if w.kind.TwoSegments then
    ∃ hash id, Segment hash ∧ Segment id ∧ pod = w.extended (hash ++ '-' :: id)
  else ∃ ordinal, Segment ordinal ∧ pod = w.extended ordinal

/-- The regular expression of `w` matches every pod of `w` and no pod of another
workload of `W`. -/
def Isolates (W : Set Workload) (w : Workload) : Prop :=
  ∃ p, parsePattern (podRegex w.name).toList = some p ∧ (∀ pod, w.PodName pod → p.Matches pod) ∧
    ∀ w' ∈ W, w' ≠ w → ∀ pod, w'.PodName pod → ¬ p.Matches pod

/-- The pods of `w'` can have names as the pods of a Deployment `w`: the two have the
same name and pods of two segments, or the pods of `w'` have one and its name is the one
of `w` with a segment. -/
def Clash (w w' : Workload) : Prop :=
  if w'.kind.TwoSegments then w'.name = w.name
  else ∃ s, Segment s ∧ w'.name.toList = w.extended s

/-! ### Splitting a name at its last hyphen -/

/-- A generated segment has no hyphen. -/
lemma Segment.hyphen_not_mem {s : List Char} (h : Segment s) : '-' ∉ s := by
  intro hmem
  have hhyphen := h.2 _ hmem
  cases hhyphen

section Names

variable {w w' : Workload} {s t i j : List Char}

/-- Two names of pods with one segment are equal only when their parts are. -/
lemma extended_inj (hi : Segment i) (hj : Segment j) (h : w.extended i = w'.extended j) :
    w.name.toList = w'.name.toList ∧ i = j :=
  append_cons_inj_last hi.hyphen_not_mem hj.hyphen_not_mem h

/-- A name with a segment more, as a name with one segment. -/
lemma extended_append : w.extended (s ++ '-' :: i) = w.extended s ++ '-' :: i := by
  simp only [Workload.extended, List.append_assoc, List.cons_append]

end Names

/-! ### The matched pods -/

section Matches

variable {w w' : Workload} {p : Pattern}

/-- **The pods of another workload** can be matched exactly when the two clash. -/
theorem podRegex_matches_other
    (hp : ∀ pod, p.Matches pod ↔ ∃ hash id, Segment hash ∧ Segment id ∧
      pod = w.extended (hash ++ '-' :: id)) :
    (∃ pod, w'.PodName pod ∧ p.Matches pod) ↔ Clash w w' := by
  have hseg : Segment ['0'] := ⟨by simp, by decide⟩
  by_cases htwo : w'.kind.TwoSegments
  · simp only [Workload.PodName, Clash, if_pos htwo, hp]
    constructor
    · rintro ⟨pod, ⟨hash, id, hhash, hid, rfl⟩, hash', id', hhash', hid', hpod⟩
      -- the last segments agree, and then the ones before them
      rw [extended_append, extended_append] at hpod
      have hfront := (append_cons_inj_last hid.hyphen_not_mem hid'.hyphen_not_mem hpod).1
      exact String.toList_inj.mp (extended_inj hhash hhash' hfront).1
    · intro hname
      refine ⟨w.extended (['0'] ++ '-' :: ['0']), ⟨['0'], ['0'], hseg, hseg, ?_⟩,
        ['0'], ['0'], hseg, hseg, rfl⟩
      rw [Workload.extended, Workload.extended, hname]
  · simp only [Workload.PodName, Clash, if_neg htwo, hp]
    constructor
    · rintro ⟨pod, ⟨ordinal, hordinal, rfl⟩, hash, id, hhash, hid, hpod⟩
      rw [extended_append, Workload.extended] at hpod
      exact ⟨hash, hhash,
        (append_cons_inj_last hordinal.hyphen_not_mem hid.hyphen_not_mem hpod).1⟩
    · rintro ⟨s, hs, hname⟩
      refine ⟨w'.extended ['0'], ⟨['0'], hseg, rfl⟩, s, ['0'], hs, hseg, ?_⟩
      rw [extended_append, ← hname, Workload.extended]

/-- The pods of the workload itself are matched exactly when they have two segments. -/
lemma podRegex_matches_self
    (hp : ∀ pod, p.Matches pod ↔ ∃ hash id, Segment hash ∧ Segment id ∧
      pod = w.extended (hash ++ '-' :: id)) :
    (∀ pod, w.PodName pod → p.Matches pod) ↔ w.kind.TwoSegments := by
  constructor
  · intro hall
    by_contra htwo
    have hseg : Segment ['0'] := ⟨by simp, by decide⟩
    have hpod : w.PodName (w.extended ['0']) := by
      rw [Workload.PodName, if_neg htwo]
      exact ⟨['0'], hseg, rfl⟩
    obtain ⟨hash, id, -, hid, heq⟩ := (hp _).mp (hall _ hpod)
    have hzero : ['0'] = hash ++ '-' :: id := (List.cons.inj (List.append_cancel_left heq)).2
    have hmem : '-' ∈ ['0'] := hzero ▸ List.mem_append_right hash List.mem_cons_self
    exact hseg.hyphen_not_mem hmem
  · intro htwo pod hpod
    rw [Workload.PodName, if_pos htwo] at hpod
    exact (hp pod).mpr hpod

end Matches

/-- **Workload isolation**: the regular expression matches the pods of one workload
exactly when it is a Deployment or a Rollout and clashes with no other workload. -/
theorem isolates_iff (W : Set Workload) (w : Workload) :
    Isolates W w ↔ w.kind.TwoSegments ∧ ∀ w' ∈ W, w' ≠ w → ¬ Clash w w' := by
  obtain ⟨p, hparse, hp⟩ := podRegex_matches w.named
  have hself := podRegex_matches_self hp
  constructor
  · rintro ⟨p', hparse', hown, hother⟩
    rw [hparse, Option.some.injEq] at hparse'
    subst hparse'
    refine ⟨hself.mp hown, fun w' hmem hne hclash => ?_⟩
    obtain ⟨pod, hpod, hmatch⟩ := (podRegex_matches_other hp).mpr hclash
    exact hother w' hmem hne pod hpod hmatch
  · rintro ⟨htwo, hclash⟩
    refine ⟨p, hparse, hself.mpr htwo, fun w' hmem hne pod hpod hmatch => ?_⟩
    exact hclash w' hmem hne ((podRegex_matches_other hp).mp ⟨pod, hpod, hmatch⟩)

/-- The Deployment `bank`. -/
def bank : Workload := ⟨.deployment, "bank", by decide⟩

/-- The StatefulSet `bank-db`. -/
def bankDb : Workload := ⟨.statefulSet, "bank-db", by decide⟩

/-- The pod `bank-db-0` of the StatefulSet `bank-db` is matched by the regular
expression of the Deployment `bank`, and not by its own. -/
theorem selector_crosses_workloads :
    ¬ Isolates {bank, bankDb} bank ∧ ¬ Isolates {bank, bankDb} bankDb ∧
      ∃ p q, parsePattern (podRegex bank.name).toList = some p ∧
        parsePattern (podRegex bankDb.name).toList = some q ∧
        bankDb.PodName "bank-db-0".toList ∧ p.Matches "bank-db-0".toList ∧
        ¬ q.Matches "bank-db-0".toList := by
  obtain ⟨p, hparse, hp⟩ := podRegex_matches bank.named
  obtain ⟨q, hparse', hq⟩ := podRegex_matches bankDb.named
  have hzero : Segment ['0'] := ⟨by simp, by decide⟩
  have hdb : Segment ['d', 'b'] := ⟨by simp, by decide⟩
  have hpod : bankDb.PodName "bank-db-0".toList := ⟨['0'], hzero, by decide⟩
  have hmatch : p.Matches "bank-db-0".toList :=
    (hp _).mpr ⟨['d', 'b'], ['0'], hdb, hzero, by decide⟩
  have hmiss : ¬ q.Matches "bank-db-0".toList := by
    intro hmatch'
    obtain ⟨hash, id, -, -, heq⟩ := (hq _).mp hmatch'
    have hlength := congrArg (fun pod => pod.count '-') heq
    simp [bankDb] at hlength
  refine ⟨?_, ?_, p, q, hparse, hparse', hpod, hmatch, hmiss⟩
  · rintro ⟨p', hparse'', -, hother⟩
    rw [hparse, Option.some.injEq] at hparse''
    subst hparse''
    have hne : bankDb ≠ bank := fun h => by cases congrArg Workload.kind h
    exact hother bankDb (by simp) hne _ hpod hmatch
  · rintro ⟨q', hparse'', hown, -⟩
    rw [hparse', Option.some.injEq] at hparse''
    subst hparse''
    exact hmiss (hown _ hpod)

end PrometheusClient

end FinOpsPipeline
