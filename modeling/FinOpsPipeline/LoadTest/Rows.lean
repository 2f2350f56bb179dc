import FinOpsPipeline.LoadTest.Verdict

/-!
The stability checks of a comparison against its rows.

* `StabilityChecks`: the four checks that are computed from aggregates.
* `rowsPass_iff`, `stabilityChecks_iff`: with the same containers on both sides the
  rows pass when each container is stable. The aggregates need a container with a
  CPU limit besides, since the maximum of no values is `None`.
* `stability_agrees_iff`: when the two agree. Without any limit they differ
  (`rows_pass_without_limits`), unless some container was killed or restarted.
-/

namespace FinOpsPipeline

namespace LoadTest

variable {V : Type} {pre post : Report V} {thresholds : Thresholds}

/-- The checks on throttling, kills and restarts are passed. -/
def StabilityChecks (checks : Checks) : Prop :=
  checks.cpuThrottlingAvg = true ∧ checks.cpuThrottlingP95 = true ∧ checks.oom = true ∧
    checks.restarts = true

/-- The container was killed or restarted. -/
def Disturbed (item : Workload) : Prop :=
  (∃ v, item.oomKilledPods = some v ∧ 0 < v) ∨ ∃ v, item.restartIncrease = some v ∧ 0 < v

/-- The thresholds allow neither kills nor restarts. -/
def Strict (thresholds : Thresholds) : Prop :=
  thresholds.oomIncreaseMax = 0 ∧ thresholds.restartIncreaseMax = 0

/-! ### Rows and aggregates -/

/-- With the same containers on both sides, the rows are those of the POST run. -/
lemma rowsPass_iff [DecidableEq V] (hsame : SameIdentifiers pre post) :
    RowsPass (compare pre post thresholds) ↔
      ∀ item ∈ post.items, rowStable thresholds item = true := by
  constructor
  · intro h item hitem
    obtain ⟨entry, hentry, rfl⟩ := List.mem_map.mp hitem
    have hlookup : post.workloads.lookup entry.1 = some entry.2 := AList.mem_lookup_iff.mpr hentry
    have hmem : entry.1 ∈ post.workloads := AList.lookup_isSome.mp (by rw [hlookup]; rfl)
    have hrow := h _ (List.mem_map.mpr ⟨entry.1, mem_identifiers.mpr (.inr hmem), rfl⟩)
    have hitem' : post.workload entry.1 = entry.2 := by
      rw [Report.workload, hlookup, Option.getD_some]
    rw [← hitem']
    exact (verdictOf_eq_pass _).mp hrow
  · rintro h row hrow
    obtain ⟨identifier, hidentifier, rfl⟩ := List.mem_map.mp hrow
    have hmem : identifier ∈ post.workloads :=
      (mem_identifiers.mp hidentifier).elim (hsame identifier).mp id
    exact (verdictOf_eq_pass _).mpr (h _ (Report.workload_mem_items hmem))

/-- A container is stable when its limit, if any, did not throttle it. -/
lemma rowStable_iff {item : Workload} :
    rowStable thresholds item = true ↔
      (cpuLimited item = true →
        item.cpuThrottlingRatio.avg.any (fun v => v < thresholds.cpuThrottlingAvgMax) = true ∧
        item.cpuThrottlingRatio.p95.any (fun v => v < thresholds.cpuThrottlingP95Max) = true) ∧
      item.oomKilledPods.any (fun v => v ≤ thresholds.oomIncreaseMax) = true ∧
      item.restartIncrease.any (fun v => v ≤ thresholds.restartIncreaseMax) = true := by
  rw [rowStable, throttlingStable, Bool.and_eq_true, Bool.and_eq_true, and_assoc]
  refine and_congr_left fun _ => ?_
  cases cpuLimited item <;> simp

/-- The maximum over the containers with a limit is below a bound. -/
lemma maxValues_limited_iff {items : List Workload} {value : Workload → Option ℚ} {bound : ℚ} :
    (maxValues ((items.filter cpuLimited).map value)).any (fun v => v < bound) = true ↔
      (∃ item ∈ items, cpuLimited item = true) ∧
        ∀ item ∈ items, cpuLimited item = true → (value item).any (fun v => v < bound) = true := by
  rw [maxValues_lt_iff, List.forall_mem_map]
  refine and_congr ?_ (by simp only [List.mem_filter, and_imp])
  rw [Ne, List.map_eq_nil_iff, List.filter_eq_nil_iff]
  push Not
  rfl

/-- A sum over the containers is within a strict bound. -/
lemma sumValues_items_iff {items : List Workload} {value : Workload → Option ℚ}
    (hnonneg : ∀ item ∈ items, ∀ v, value item = some v → 0 ≤ v) :
    (sumValues (items.map value)).any (fun total => total ≤ 0) = true ↔
      ∀ item ∈ items, (value item).any (fun v => v ≤ 0) = true := by
  rw [sumValues_nonpos_iff, List.forall_mem_map]
  intro v hv
  obtain ⟨item, hitem, heq⟩ := List.mem_map.mp hv
  exact hnonneg item hitem v heq

/-- **The aggregates** of a run are within strict thresholds exactly when some
container has a limit and each is stable. -/
lemma stabilityChecks_iff [DecidableEq V] (hstrict : Strict thresholds)
    (hlength : post.items.length = 11) (hnonneg : post.CountersNonneg) :
    StabilityChecks (compareChecks pre post thresholds) ↔
      (∃ item ∈ post.items, cpuLimited item = true) ∧
        ∀ item ∈ post.items, rowStable thresholds item = true := by
  have hoom := sumValues_items_iff fun item hitem => (hnonneg item hitem).1
  have hrestarts := sumValues_items_iff fun item hitem => (hnonneg item hitem).2
  simp only [StabilityChecks, compareChecks, aggregateStability_of_length hlength, rowStable_iff,
    maxValues_limited_iff, hstrict.1, hstrict.2, hoom, hrestarts]
  constructor
  · rintro ⟨⟨hlimited, havg⟩, ⟨-, hp95⟩, hkilled, hrestarted⟩
    exact ⟨hlimited, fun item hitem => ⟨fun hl => ⟨havg item hitem hl, hp95 item hitem hl⟩,
      hkilled item hitem, hrestarted item hitem⟩⟩
  · rintro ⟨hlimited, hall⟩
    exact ⟨⟨hlimited, fun item hitem hl => ((hall item hitem).1 hl).1⟩,
      ⟨hlimited, fun item hitem hl => ((hall item hitem).1 hl).2⟩,
      fun item hitem => (hall item hitem).2.1, fun item hitem => (hall item hitem).2.2⟩

/-! ### Where the two agree -/

/-- Without limits a container of complete metrics is stable exactly when it was
neither killed nor restarted. -/
lemma rowStable_iff_not_disturbed {item : Workload} (hstrict : Strict thresholds)
    (hcomplete : itemComplete item = true) (hlimited : cpuLimited item = false) :
    rowStable thresholds item = true ↔ ¬ Disturbed item := by
  simp only [itemComplete, Bool.and_eq_true] at hcomplete
  obtain ⟨v, hv⟩ := Option.isSome_iff_exists.mp hcomplete.1.1.1.2
  obtain ⟨w, hw⟩ := Option.isSome_iff_exists.mp hcomplete.1.1.2
  simp [rowStable_iff, Disturbed, hlimited, hstrict.1, hstrict.2, hv, hw]

/-- **The stability checks agree with the rows** exactly when some container of
the POST run has a CPU limit, or some container was killed or restarted. -/
theorem stability_agrees_iff [DecidableEq V] (hsame : SameIdentifiers pre post)
    (hcomplete : metricsComplete post = true) (hnonneg : post.CountersNonneg) :
    (StabilityChecks (compare pre post successCriteria).checks ↔
        RowsPass (compare pre post successCriteria)) ↔
      (∃ item ∈ post.items, cpuLimited item = true) ∨ ∃ item ∈ post.items, Disturbed item := by
  have hstrict : Strict successCriteria := ⟨rfl, rfl⟩
  have hitems : ∀ item ∈ post.items, itemComplete item = true :=
    List.all_eq_true.mp (Bool.and_eq_true_iff.mp hcomplete).2
  rw [rowsPass_iff hsame]
  show (StabilityChecks (compareChecks pre post successCriteria) ↔ _) ↔ _
  rw [stabilityChecks_iff hstrict (length_of_metricsComplete hcomplete) hnonneg]
  by_cases hlimited : ∃ item ∈ post.items, cpuLimited item = true
  · exact iff_of_true (and_iff_right hlimited) (.inl hlimited)
  · -- the checks fail, so the two agree when the rows fail as well
    have hunlimited : ∀ item ∈ post.items, cpuLimited item = false := by
      intro item hitem
      by_contra hne
      exact hlimited ⟨item, hitem, by simpa using hne⟩
    rw [or_iff_right hlimited]
    simp only [hlimited, false_and, false_iff, not_forall, exists_prop]
    refine exists_congr fun item => and_congr_right fun hitem => ?_
    rw [rowStable_iff_not_disturbed hstrict (hitems item hitem) (hunlimited item hitem), not_not]

/-- Two runs whose containers all have a limit. -/
theorem stability_agrees_collected :
    StabilityChecks (compare (preRun (.value "a")) (postRun (.value "a")) successCriteria).checks ↔
      RowsPass (compare (preRun (.value "a")) (postRun (.value "a")) successCriteria) := by
  refine (stability_agrees_iff (fun identifier => ?_) (by decide +kernel)
    (steadyRun_countersNonneg _ _ _ _ _)).mpr (.inl ⟨steadyWorkload 1, ?_, by decide +kernel⟩)
  · exact mem_steadyRun.trans mem_steadyRun.symm
  · exact List.mem_map.mpr ⟨⟨"backend/contacts/worker", steadyWorkload 1⟩,
      List.mem_map.mpr ⟨_, by decide +kernel, rfl⟩, rfl⟩

/-- A POST run of the collected containers without CPU limits, which are not
throttled. -/
def unlimitedRun : Report String :=
  { postRun (.value "a") with
    workloads := ⟨collected.map fun identifier => ⟨identifier,
      { steadyWorkload 1 with
        cpuLimitCoresPerReplica := ⟨none, none⟩
        cpuThrottlingRatio := ⟨none, none⟩ }⟩, by
      rw [List.NodupKeys, List.keys, List.map_map]
      exact collected_nodup.map_on fun _ _ _ _ h => h⟩ }

/-- Every row passes, but the checks on throttling fail. -/
theorem rows_pass_without_limits :
    SameIdentifiers (preRun (.value "a")) unlimitedRun ∧ metricsComplete unlimitedRun = true ∧
      unlimitedRun.CountersNonneg ∧
      RowsPass (compare (preRun (.value "a")) unlimitedRun successCriteria) ∧
      ¬ StabilityChecks (compare (preRun (.value "a")) unlimitedRun successCriteria).checks := by
  have hsame : SameIdentifiers (preRun (.value "a")) unlimitedRun := by
    intro identifier
    rw [preRun, mem_steadyRun, AList.mem_keys, unlimitedRun, AList.keys_mk, List.keys, List.map_map]
    exact ⟨fun h => by simpa using h, fun h => by simpa using h⟩
  have hstable : ∀ item ∈ unlimitedRun.items, rowStable successCriteria item = true := by
    decide +kernel
  refine ⟨hsame, by decide +kernel, fun item hitem => ?_, (rowsPass_iff hsame).mpr hstable,
    fun h => ?_⟩
  · rw [Report.items, unlimitedRun, List.map_map] at hitem
    obtain ⟨identifier, -, rfl⟩ := List.mem_map.mp hitem
    exact ⟨fun v hv => by cases hv; exact le_rfl, fun v hv => by cases hv; exact le_rfl⟩
  · exact absurd h.1 (by decide +kernel)

end LoadTest

end FinOpsPipeline
