import FinOpsPipeline.LoadTest.Compare

/-!
What a passing comparison guarantees.

The overall verdict is computed from aggregates and counts, the rows from one
lookup for each identifier, and the equivalence gate from `.get` on both sides.

* `SameIdentifiers`, `RowsPass`: the two runs have the same containers, and each
  has a passing row.
* `pass_sound_iff`: a passing comparison has them exactly when the POST run has
  the containers of the PRE run; only their number is checked
  (`pass_with_failing_row`).
* `SameInputs`: the compared fields are there on both sides, and equal.
* `pass_same_inputs_iff`: a passing comparison has them exactly when the PRE run
  has the fields; two missing fields are equal (`pass_without_fields`).
-/

namespace FinOpsPipeline

namespace LoadTest

variable {V : Type} {pre post : Report V} {thresholds : Thresholds}

/-! ### The containers -/

/-- The two runs have the same workload identifiers. -/
def SameIdentifiers (pre post : Report V) : Prop :=
  ∀ identifier, identifier ∈ pre.workloads ↔ identifier ∈ post.workloads

lemma mem_identifiers {identifier : String} :
    identifier ∈ identifiers pre post ↔
      identifier ∈ pre.workloads ∨ identifier ∈ post.workloads := by
  rw [identifiers, List.mem_insertionSort, List.mem_dedup, List.mem_append]
  rfl

/-- Two runs with as many containers have the same ones when one has all of the
other's. -/
lemma sameIdentifiers_of_subset (hlength : pre.items.length = post.items.length)
    (hsubset : ∀ identifier ∈ pre.workloads, identifier ∈ post.workloads) :
    SameIdentifiers pre post := by
  rw [Report.length_items, Report.length_items] at hlength
  have hperm : pre.workloads.keys.Perm post.workloads.keys :=
    (List.subperm_of_subset pre.workloads.keys_nodup hsubset).perm_of_length_le hlength.ge
  exact fun identifier => hperm.mem_iff

/-- The aggregates of a run with eleven containers. -/
lemma rowStable_of_aggregates (hlength : post.items.length = 11) (hnonneg : post.CountersNonneg)
    (havg : (aggregateStability post).throttleAvgMax.any
      (fun v => v < thresholds.cpuThrottlingAvgMax) = true)
    (hp95 : (aggregateStability post).throttleP95Max.any
      (fun v => v < thresholds.cpuThrottlingP95Max) = true)
    (hoom : (aggregateStability post).oom.any (fun v => v ≤ thresholds.oomIncreaseMax) = true)
    (hrestarts : (aggregateStability post).restarts.any
      (fun v => v ≤ thresholds.restartIncreaseMax) = true)
    {item : Workload} (hitem : item ∈ post.items) : rowStable thresholds item = true := by
  rw [aggregateStability_of_length hlength] at havg hp95 hoom hrestarts
  have hthrottling : throttlingStable thresholds item = true := by
    rw [throttlingStable]
    cases hlimited : cpuLimited item with
    | false => rfl
    | true =>
        have hmem : item ∈ post.items.filter cpuLimited := List.mem_filter.mpr ⟨hitem, hlimited⟩
        have h₁ := (maxValues_lt_iff.mp havg).2 _ (List.mem_map.mpr ⟨item, hmem, rfl⟩)
        have h₂ := (maxValues_lt_iff.mp hp95).2 _ (List.mem_map.mpr ⟨item, hmem, rfl⟩)
        rw [h₁, h₂]
        rfl
  have hoom' := le_of_sumValues_le (fun v hv => by
    obtain ⟨other, hother, heq⟩ := List.mem_map.mp hv
    exact (hnonneg other hother).1 v heq) hoom _ (List.mem_map.mpr ⟨item, hitem, rfl⟩)
  have hrestarts' := le_of_sumValues_le (fun v hv => by
    obtain ⟨other, hother, heq⟩ := List.mem_map.mp hv
    exact (hnonneg other hother).2 v heq) hrestarts _ (List.mem_map.mpr ⟨item, hitem, rfl⟩)
  rw [rowStable, hthrottling, hoom', hrestarts']
  rfl

section Pass

variable [DecidableEq V]

/-- Every row of the comparison passes. -/
def RowsPass (result : Comparison) : Prop := ∀ row ∈ result.workloads, row.2.verdict = .pass

/-- **An overall pass is sound for each container** exactly when the POST run has
the containers of the PRE run. -/
theorem pass_sound_iff (hnonneg : post.CountersNonneg)
    (hpass : (compare pre post thresholds).verdict = .pass) :
    (SameIdentifiers pre post ∧ RowsPass (compare pre post thresholds)) ↔
      ∀ identifier ∈ pre.workloads, identifier ∈ post.workloads := by
  refine ⟨fun h identifier hmem => (h.1 identifier).mp hmem, fun hsubset => ?_⟩
  obtain ⟨-, hpre, hpost, havg, hp95, hoom, hrestarts⟩ := compare_pass hpass
  have hlength := length_of_metricsComplete hpost
  have hsame : SameIdentifiers pre post :=
    sameIdentifiers_of_subset ((length_of_metricsComplete hpre).trans hlength.symm) hsubset
  refine ⟨hsame, fun row hrow => ?_⟩
  obtain ⟨identifier, hidentifier, rfl⟩ := List.mem_map.mp hrow
  have hmem : identifier ∈ post.workloads :=
    (mem_identifiers.mp hidentifier).elim (hsame identifier).mp id
  exact (verdictOf_eq_pass _).mpr (rowStable_of_aggregates hlength hnonneg havg hp95 hoom hrestarts
    (Report.workload_mem_items hmem))

/-- A container that the POST run lacks has a failing row. -/
lemma exists_failing_row {identifier : String} (hpre : identifier ∈ pre.workloads)
    (hpost : identifier ∉ post.workloads) :
    ∃ row ∈ (compare pre post thresholds).workloads, row.2.verdict = .fail := by
  refine ⟨_, List.mem_map.mpr ⟨identifier, mem_identifiers.mpr (.inl hpre), rfl⟩, ?_⟩
  rw [Report.workload_of_not_mem hpost]
  rfl

/-- The identifiers that are collected, `WORKLOADS`. -/
def collected : List String :=
  ["frontend/mak-app-rollout/mak-container", "backend/userservice/userservice",
    "backend/userservice/worker", "backend/contacts/contacts", "backend/contacts/worker",
    "backend/balancereader/balancereader", "backend/balancereader/worker",
    "backend/ledgerwriter/ledgerwriter", "backend/ledgerwriter/worker",
    "backend/transactionhistory/transactionhistory", "backend/transactionhistory/worker"]

/-- The identifiers with one container under another name. -/
def renamed : List String :=
  collected.map fun identifier =>
    if identifier = "backend/userservice/worker" then "backend/userservice/sidecar" else identifier

/-- A container that is neither throttled nor killed nor restarted. -/
def steadyWorkload (cpuRequest : ℚ) : Workload where
  cpuRequestCoresPerReplica := ⟨some cpuRequest, some cpuRequest⟩
  memoryRequestBytesPerReplica := ⟨some 268435456, some 268435456⟩
  cpuLimitCoresPerReplica := ⟨some 1, some 1⟩
  cpuThrottlingRatio := ⟨some (1 / 100), some (2 / 100)⟩
  replicas := ⟨some 2, some 2⟩
  oomKilledPods := some 0
  restartIncrease := some 0

/-- A run of such containers whose equivalence metadata are all `field`. -/
def steadyRun (phase : String) (cpuRequest : ℚ) (field : JsonField String)
    (identifiers : List String) (hnodup : identifiers.Nodup) : Report String where
  runId := "boa-" ++ phase
  phase := phase
  scenario := .value "bank-of-anthos-long-run"
  scenarioSha256 := .value "5b1f0c"
  durationSeconds := .value "10800"
  applicationCommit := .value "9ae41d"
  equivalence := fun _ => field
  http :=
    { offeredRps := some 50
      successfulRps := some 50
      systemErrorRate := some 0
      businessFailureRate := some 0
      droppedIterations := some 0
      latencyMs := ⟨some 300, some 500⟩ }
  workloads := ⟨identifiers.map fun identifier => ⟨identifier, steadyWorkload cpuRequest⟩, by
    rw [List.NodupKeys, List.keys, List.map_map]
    exact hnodup.map_on fun _ _ _ _ h => h⟩
  collectionWarnings := []

lemma steadyRun_countersNonneg (phase : String) (cpuRequest : ℚ) (field : JsonField String)
    (identifiers : List String) (hnodup : identifiers.Nodup) :
    (steadyRun phase cpuRequest field identifiers hnodup).CountersNonneg := by
  intro item hitem
  rw [Report.items, steadyRun, List.map_map] at hitem
  obtain ⟨identifier, -, rfl⟩ := List.mem_map.mp hitem
  exact ⟨fun v hv => by cases hv; exact le_rfl, fun v hv => by cases hv; exact le_rfl⟩

lemma collected_nodup : collected.Nodup := by decide +kernel

lemma renamed_nodup : renamed.Nodup := by decide +kernel

lemma mem_steadyRun {phase : String} {cpuRequest : ℚ} {field : JsonField String}
    {identifiers : List String} {hnodup : identifiers.Nodup} {identifier : String} :
    identifier ∈ (steadyRun phase cpuRequest field identifiers hnodup).workloads ↔
      identifier ∈ identifiers := by
  rw [AList.mem_keys, steadyRun, AList.keys_mk, List.keys, List.map_map]
  exact ⟨fun h => by simpa using h, fun h => by simpa using h⟩

/-- A PRE run of the collected containers. -/
def preRun (field : JsonField String) : Report String :=
  steadyRun "pre" 2 field collected collected_nodup

/-- A POST run with half of the CPU requests. -/
def postRun (field : JsonField String) : Report String :=
  steadyRun "post" 1 field collected collected_nodup

/-- Two runs of the collected containers. -/
theorem pass_sound_collected :
    SameIdentifiers (preRun (.value "a")) (postRun (.value "a")) ∧
      RowsPass (compare (preRun (.value "a")) (postRun (.value "a")) successCriteria) := by
  have hpass : (compare (preRun (.value "a")) (postRun (.value "a")) successCriteria).verdict =
      .pass := by decide +kernel
  exact (pass_sound_iff (steadyRun_countersNonneg _ _ _ _ _) hpass).mpr
    fun _ h => mem_steadyRun.mpr (mem_steadyRun.mp h)

/-- A POST run with one container under another name. -/
def renamedRun : Report String := steadyRun "post" 1 (.value "a") renamed renamed_nodup

/-- It passes, but the row of the container that is gone fails. -/
theorem pass_with_failing_row :
    (preRun (.value "a")).CountersNonneg ∧ renamedRun.CountersNonneg ∧
      (compare (preRun (.value "a")) renamedRun successCriteria).verdict = .pass ∧
      ¬ SameIdentifiers (preRun (.value "a")) renamedRun ∧
      ¬ RowsPass (compare (preRun (.value "a")) renamedRun successCriteria) := by
  have hbefore : "backend/userservice/worker" ∈ (preRun (.value "a")).workloads :=
    mem_steadyRun.mpr (by decide +kernel)
  have hgone : "backend/userservice/worker" ∉ renamedRun.workloads :=
    fun h => absurd (mem_steadyRun.mp h) (by decide +kernel)
  refine ⟨steadyRun_countersNonneg _ _ _ _ _, steadyRun_countersNonneg _ _ _ _ _, by decide +kernel,
    fun h => hgone ((h _).mp hbefore), fun h => ?_⟩
  obtain ⟨row, hrow, hfail⟩ := exists_failing_row hbefore hgone
  rw [h row hrow] at hfail
  cases hfail

end Pass

/-! ### The equivalence gate -/

/-- The fields that the gate compares. -/
def gateFields (run : Report V) : List (JsonField V) :=
  [run.scenario, run.scenarioSha256, run.durationSeconds, run.applicationCommit] ++
    equivalenceKeys.map run.equivalence

/-- A field that is there and not null. -/
def JsonField.Present (field : JsonField V) : Prop := ∃ v, field = .value v

/-- The compared fields are there on both sides, not null, and equal. -/
def SameInputs (pre post : Report V) : Prop :=
  List.Forall₂ (fun before after => ∃ v, before = .value v ∧ after = .value v)
    (gateFields pre) (gateFields post)

/-- Fields with the same `.get` are there on both sides exactly when they are there on one. -/
lemma forall₂_value_iff {before after : List (JsonField V)}
    (h : before.map JsonField.get = after.map JsonField.get) :
    List.Forall₂ (fun b a => ∃ v, b = JsonField.value v ∧ a = .value v) before after ↔
      ∀ field ∈ before, field.Present := by
  induction before generalizing after with
  | nil =>
      obtain rfl : after = [] := by simpa using h.symm
      simp
  | cons b before ih =>
      cases after with
      | nil => simp at h
      | cons a after =>
          obtain ⟨hget, hrest⟩ := List.cons.inj h
          rw [List.forall₂_cons, List.forall_mem_cons, ih hrest]
          refine and_congr_left fun _ => ⟨fun ⟨v, hb, _⟩ => ⟨v, hb⟩, fun ⟨v, hb⟩ => ⟨v, hb, ?_⟩⟩
          rw [← JsonField.get_eq_some, ← hget, hb]
          rfl

section Gate

variable [DecidableEq V]

/-- The gate compares what `.get` returns. -/
lemma equivalenceMismatches_eq_nil :
    equivalenceMismatches pre post = [] ↔
      (gateFields pre).map JsonField.get = (gateFields post).map JsonField.get := by
  have hmismatch : ∀ name (before after : JsonField V),
      mismatch name before after = [] ↔ before.get = after.get := by
    intro name before after
    rw [mismatch]
    split <;> simp_all
  simp [equivalenceMismatches, hmismatch, gateFields, equivalenceKeys]

/-- **The equivalence gate** of a passing comparison guarantees equal inputs exactly
when the PRE run has the compared fields. -/
theorem pass_same_inputs_iff (hpass : (compare pre post thresholds).verdict = .pass) :
    SameInputs pre post ↔ ∀ field ∈ gateFields pre, field.Present :=
  forall₂_value_iff (equivalenceMismatches_eq_nil.mp (compare_pass hpass).1)

/-- Two runs with equal fields. -/
theorem pass_same_inputs_collected : SameInputs (preRun (.value "a")) (postRun (.value "a")) := by
  have hpass : (compare (preRun (.value "a")) (postRun (.value "a")) successCriteria).verdict =
      .pass := by decide +kernel
  refine (pass_same_inputs_iff hpass).mpr fun field hfield => ?_
  simp only [gateFields, equivalenceKeys, preRun, steadyRun, List.map_cons, List.map_nil,
    List.cons_append, List.nil_append, List.mem_cons, List.not_mem_nil, or_false, or_self] at hfield
  rcases hfield with rfl | rfl | rfl | rfl | rfl <;> exact ⟨_, rfl⟩

/-- Two runs without equivalence metadata pass. -/
theorem pass_without_fields :
    (compare (preRun .absent) (postRun .absent) successCriteria).verdict = .pass ∧
      ¬ SameInputs (preRun .absent) (postRun .absent) := by
  have hpass : (compare (preRun .absent) (postRun .absent) successCriteria).verdict = .pass := by
    decide +kernel
  refine ⟨hpass, fun h => ?_⟩
  have hpresent := (forall₂_value_iff (equivalenceMismatches_eq_nil.mp (compare_pass hpass).1)).mp h
  obtain ⟨v, hv⟩ := hpresent ((preRun .absent).equivalence "autoscaling")
    (by simp [gateFields, equivalenceKeys])
  cases hv

end Gate

end LoadTest

end FinOpsPipeline
