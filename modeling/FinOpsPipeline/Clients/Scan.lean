import FinOpsPipeline.Clients.Krr
import FinOpsPipeline.Engine.Policy
import FinOpsPipeline.Foundations.Dictionary

/-!
The scan of a namespace: the rows of the KRR output and the dictionary they become.

`_parse_krr_output` enters every row under `namespace/workload/container`. The kind of
the workload is not part of the key, so that two rows with the same names share an
entry, and `get_recommendation` counts one where there are two (`rows_share_entry`).

* `KrrRow.Eligible`: the rows that are kept.
* `parseKrrOutput`: the dictionary; `parseKrrOutput_eq_some` tells its pairs.
* `getRecommendation`: the lookup of a workload in it.
* `scan_faithful`: rows are neither lost nor confused exactly when they can be
  formatted and their keys are distinct.
-/

namespace FinOpsPipeline

namespace KrrClient

/-! ### The rows -/

/-- The values of a dictionary of resources; an absent one is null. -/
structure ResourceValues where
  cpu : KrrValue
  memory : KrrValue

/-- A row of the KRR output: the object with its allocations, and the recommended
requests. -/
structure KrrRow where
  ns : Option String
  name : Option String
  container : Option String
  kind : Option String
  requests : ResourceValues
  limits : ResourceValues
  recommended : ResourceValues

/-- The KRR output: a list of rows, or a dictionary that may have one. -/
inductive KrrPayload where
  | list (scans : List KrrRow)
  | dict (scans : Option (List KrrRow))

/-- `scans`. -/
def KrrPayload.scans : KrrPayload → List KrrRow
  | list scans => scans
  | dict scans => scans.getD []

/-- The name of the workload, empty when there is none. -/
def KrrRow.workload (row : KrrRow) : String := row.name.getD ""

/-- The name of the container, empty when there is none. -/
def KrrRow.containerName (row : KrrRow) : String := row.container.getD ""

/-- The rows that are kept: those of the namespace with both names that are not of a
Job. -/
def KrrRow.Eligible (ns : String) (row : KrrRow) : Prop :=
  row.ns = some ns ∧ row.workload ≠ "" ∧ row.containerName ≠ "" ∧
    row.kind ≠ some "Job" ∧ row.kind ≠ some "GroupedJob"

instance (ns : String) : DecidablePred (KrrRow.Eligible ns) :=
  fun _ => inferInstanceAs (Decidable (_ ∧ _))

/-! ### The dictionary -/

/-- A pair of amounts, each of which may be unknown. -/
structure ResourceStrings where
  cpu : Option String
  memory : Option String

/-- The entry of a container. -/
structure ScanEntry where
  ns : String
  workload : String
  container : String
  kind : Option String
  current : ResourceSpec
  krrRecommended : ResourceStrings
  currentLimits : ResourceStrings

/-- The two values in the format of Kubernetes, `none` when one cannot be formatted. -/
def formatValues (values : ResourceValues) : Option ResourceStrings := do
  let cpu ← formatResourceValue values.cpu .cpu
  let memory ← formatResourceValue values.memory .memory
  return ⟨cpu, memory⟩

/-- A text, or another one in place of a missing or empty one. -/
def orDefault (s : Option String) (default : String) : String :=
  (s.filter (· ≠ "")).getD default

/-- The key of a container. -/
def identifier (ns name container : String) : String := ns ++ "/" ++ name ++ "/" ++ container

/-- The key of a row. -/
def KrrRow.identifier (ns : String) (row : KrrRow) : String :=
  KrrClient.identifier ns row.workload row.containerName

/-- The entry that a row becomes. -/
def KrrRow.entry (ns : String) (row : KrrRow) : Option ScanEntry := do
  let current ← formatValues row.requests
  let recommended ← formatValues row.recommended
  let limits ← formatValues row.limits
  return {
    ns := ns
    workload := row.workload
    container := row.containerName
    kind := row.kind
    current := ⟨orDefault current.cpu "0m", orDefault current.memory "0Mi"⟩
    krrRecommended := recommended
    currentLimits := limits }

/-- One turn of the loop over the rows. -/
def enterRow (ns : String) (results : Dict String ScanEntry) (row : KrrRow) :
    Option (Dict String ScanEntry) :=
  if row.Eligible ns then (row.entry ns).map fun entry => results.insert (row.identifier ns) entry
  else some results

/-- `_parse_krr_output`; `none` when a value cannot be formatted. -/
def parseKrrOutput (data : KrrPayload) (ns : String) : Option (Dict String ScanEntry) :=
  data.scans.foldlM (enterRow ns) ∅

/-- `get_recommendation`, given the scan of the namespace. -/
def getRecommendation (namespaceScan : Option (Dict String ScanEntry))
    (deploymentName ns : String) (containerName : Option String) : Option ScanEntry :=
  match namespaceScan with
  | none => none
  | some results =>
      match containerName.filter (· ≠ "") with
      | some container => results.lookup (identifier ns deploymentName container)
      | none =>
          match results.values.filter (fun value => value.workload = deploymentName) with
          | [value] => some value
          | _ => none

/-! ### The pairs of the dictionary -/

/-- The rows of the output that are kept. -/
def eligibleRows (data : KrrPayload) (ns : String) : List KrrRow :=
  data.scans.filter (KrrRow.Eligible ns)

/-- The key and the entry of a row. -/
def KrrRow.pair (ns : String) (row : KrrRow) : Option (String × ScanEntry) :=
  (row.entry ns).map fun entry => (row.identifier ns, entry)

/-- The loop enters the pairs of the rows that are kept. -/
lemma foldlM_enterRow (ns : String) (rows : List KrrRow) (results : Dict String ScanEntry) :
    rows.foldlM (enterRow ns) results =
      ((rows.filter (KrrRow.Eligible ns)).mapM (KrrRow.pair ns)).map results.assignAll := by
  induction rows generalizing results with
  | nil => rfl
  | cons row rows ih =>
      by_cases hrow : row.Eligible ns
      · rw [List.foldlM_cons, enterRow, if_pos hrow, List.filter_cons_of_pos (by simpa using hrow),
          List.mapM_cons, KrrRow.pair]
        cases row.entry ns with
        | none => rfl
        | some entry =>
            simp only [Option.map_some, Option.bind_eq_bind, Option.bind_some, ih]
            cases (rows.filter (KrrRow.Eligible ns)).mapM (KrrRow.pair ns) with
            | none => rfl
            | some pairs => rfl
      · rw [List.foldlM_cons, enterRow, if_neg hrow, List.filter_cons_of_neg (by simpa using hrow)]
        exact ih results

section Lists

variable {α β : Type} {f : α → Option β} {l : List α} {ys : List β}

/-- A list of results that are all there. -/
lemma mapM_eq_some : l.mapM f = some ys ↔ l.map f = ys.map some := by
  induction l generalizing ys with
  | nil => cases ys <;> simp
  | cons a l ih =>
      rw [List.mapM_cons, List.map_cons]
      cases f a with
      | none => cases ys <;> simp
      | some b =>
          simp only [Option.bind_eq_bind, Option.bind_some]
          constructor
          · intro h
            obtain ⟨zs, hzs, heq⟩ := Option.bind_eq_some_iff.mp h
            cases heq
            rw [ih.mp hzs, List.map_cons]
          · intro h
            cases ys with
            | nil => cases h
            | cons y ys =>
                obtain ⟨hy, hys⟩ := List.cons.inj h
                cases hy
                rw [ih.mpr hys]
                rfl

/-- When every result is there, they form a list. -/
lemma exists_map_some (h : ∀ a ∈ l, (f a).isSome) : ∃ ys : List β, l.map f = ys.map some := by
  induction l with
  | nil => exact ⟨[], rfl⟩
  | cons a l ih =>
      obtain ⟨y, hy⟩ := Option.isSome_iff_exists.mp (h a List.mem_cons_self)
      obtain ⟨ys, hys⟩ := ih fun b hb => h b (List.mem_cons_of_mem a hb)
      exact ⟨y :: ys, by rw [List.map_cons, List.map_cons, hy, hys]⟩

/-- Results that are selected by a property of their arguments. -/
lemma map_filter_some {p : α → Bool} {q : β → Bool} (h : l.map f = ys.map some)
    (hpq : ∀ a y, f a = some y → p a = q y) :
    (l.filter p).map f = (ys.filter q).map some := by
  induction l generalizing ys with
  | nil =>
      cases ys with
      | nil => rfl
      | cons y ys => cases h
  | cons a l ih =>
      cases ys with
      | nil => cases h
      | cons y ys =>
          obtain ⟨hy, hys⟩ := List.cons.inj h
          have hsame := hpq a y hy
          by_cases hp : p a = true
          · rw [List.filter_cons_of_pos hp, List.filter_cons_of_pos (hsame ▸ hp), List.map_cons,
              List.map_cons, ih hys, hy]
          · rw [List.filter_cons_of_neg hp, List.filter_cons_of_neg (hsame ▸ hp), ih hys]

end Lists

/-- **The dictionary of an output**: the pairs of its rows, assigned in their order. -/
theorem parseKrrOutput_eq_some {data : KrrPayload} {ns : String} {results : Dict String ScanEntry} :
    parseKrrOutput data ns = some results ↔
      ∃ pairs, (eligibleRows data ns).map (KrrRow.pair ns) = pairs.map some ∧
        Dict.assignAll ∅ pairs = results := by
  rw [parseKrrOutput, foldlM_enterRow, Option.map_eq_some_iff]
  simp only [mapM_eq_some, eligibleRows]

/-! ### Faithful scans -/

/-- Every row has an entry of its own, and a workload is found exactly when one row
names it, with the values of that row. -/
def Faithful (data : KrrPayload) (ns : String) : Prop :=
  ∃ (results : Dict String ScanEntry) (entries : List ScanEntry),
    parseKrrOutput data ns = some results ∧
    (eligibleRows data ns).map (KrrRow.entry ns) = entries.map some ∧
    entries.Subperm results.values ∧
    ∀ workload value, getRecommendation (some results) workload ns none = some value ↔
      ∃ row, (eligibleRows data ns).filter (fun row => row.workload = workload) = [row] ∧
        row.entry ns = some value

/-- The values of the rows can be formatted, and no two rows have the same key. -/
def Separated (data : KrrPayload) (ns : String) : Prop :=
  (∀ row ∈ eligibleRows data ns, (row.entry ns).isSome) ∧
    ((eligibleRows data ns).map (KrrRow.identifier ns)).Nodup

section Scan

variable {data : KrrPayload} {ns : String} {pairs : List (String × ScanEntry)}

/-- The entry of a row has its workload. -/
lemma KrrRow.entry_workload {row : KrrRow} {entry : ScanEntry} (h : row.entry ns = some entry) :
    row.workload = entry.workload := by
  simp only [KrrRow.entry, Option.bind_eq_bind, Option.bind_eq_some_iff, Option.pure_def,
    Option.some.injEq] at h
  obtain ⟨current, -, recommended, -, limits, -, rfl⟩ := h
  rfl

/-- The pairs of rows are their entries under their keys. -/
lemma map_pair {rows : List KrrRow} :
    rows.map (KrrRow.pair ns) = pairs.map some ↔
      rows.map (KrrRow.entry ns) = (pairs.map Prod.snd).map some ∧
        rows.map (KrrRow.identifier ns) = pairs.map Prod.fst := by
  induction rows generalizing pairs with
  | nil => cases pairs <;> simp
  | cons row rows ih =>
      cases pairs with
      | nil => simp
      | cons pair pairs =>
          simp only [List.map_cons, List.cons.injEq, ih, KrrRow.pair, Option.map_eq_some_iff,
            Prod.ext_iff]
          constructor
          · rintro ⟨⟨entry, hentry, hkey, hvalue⟩, hentries, hkeys⟩
            exact ⟨⟨hvalue ▸ hentry, hentries⟩, hkey, hkeys⟩
          · rintro ⟨⟨hentry, hentries⟩, hkey, hkeys⟩
            exact ⟨⟨_, hentry, hkey, rfl⟩, hentries, hkeys⟩

/-- A lookup without a container finds the only value of the workload. -/
lemma getRecommendation_none {results : Dict String ScanEntry} {workload : String}
    {value : ScanEntry} :
    getRecommendation (some results) workload ns none = some value ↔
      results.values.filter (fun value => value.workload = workload) = [value] := by
  simp only [getRecommendation, Option.filter_none]
  split
  · rename_i value' heq
    rw [heq, Option.some.injEq, List.singleton_inj]
  · rename_i hmany
    exact iff_of_false (Option.some_ne_none value).symm (hmany value)

/-- Rows with entries of their own can be formatted and have distinct keys. -/
lemma Faithful.separated (h : Faithful data ns) : Separated data ns := by
  obtain ⟨results, entries, hparse, hentries, hsub, -⟩ := h
  obtain ⟨pairs, hpairs, rfl⟩ := parseKrrOutput_eq_some.mp hparse
  obtain ⟨hvalues, hkeys⟩ := map_pair.mp hpairs
  have hsame : entries = pairs.map Prod.snd :=
    List.map_injective_iff.mpr (Option.some_injective _) (hentries.symm.trans hvalues)
  constructor
  · intro row hrow
    have hmem : row.entry ns ∈ entries.map some := hentries ▸ List.mem_map_of_mem hrow
    obtain ⟨entry, -, hentry⟩ := List.mem_map.mp hmem
    rw [← hentry]
    rfl
  · rw [hkeys]
    exact Dict.subperm_values_assignAll.mp (hsame ▸ hsub)

/-- The values of a workload in the dictionary are those of its rows, up to their order. -/
lemma filter_values_perm
    (hvalues : (eligibleRows data ns).map (KrrRow.entry ns) = (pairs.map Prod.snd).map some)
    (hnodup : (pairs.map Prod.fst).Nodup) (workload : String) :
    (((Dict.assignAll ∅ pairs).values.filter fun value => value.workload = workload).map some).Perm
      (((eligibleRows data ns).filter fun row => row.workload = workload).map
        (KrrRow.entry ns)) := by
  have hrows := map_filter_some (p := fun row => decide (row.workload = workload))
    (q := fun value => decide (value.workload = workload)) hvalues
    fun row entry hentry => by rw [KrrRow.entry_workload hentry]
  rw [hrows]
  exact ((Dict.values_assignAll hnodup).filter _).map some

/-- Rows that can be formatted, with distinct keys, are neither lost nor confused. -/
lemma Separated.faithful (h : Separated data ns) : Faithful data ns := by
  obtain ⟨hformat, hnodup⟩ := h
  obtain ⟨pairs, hpairs⟩ : ∃ pairs : List (String × ScanEntry),
      (eligibleRows data ns).map (KrrRow.pair ns) = pairs.map some := by
    refine exists_map_some fun row hrow => ?_
    rw [KrrRow.pair, Option.isSome_map]
    exact hformat row hrow
  obtain ⟨hvalues, hkeys⟩ := map_pair.mp hpairs
  rw [hkeys] at hnodup
  refine ⟨_, _, parseKrrOutput_eq_some.mpr ⟨pairs, hpairs, rfl⟩, hvalues,
    Dict.subperm_values_assignAll.mpr hnodup, fun workload value => ?_⟩
  have hperm := filter_values_perm hvalues hnodup workload
  rw [getRecommendation_none]
  constructor
  · intro hone
    rw [hone, List.map_singleton, List.singleton_perm] at hperm
    obtain ⟨row, hrow, hentry⟩ := List.map_eq_singleton_iff.mp hperm.symm
    exact ⟨row, hrow, hentry⟩
  · rintro ⟨row, hrow, hentry⟩
    rw [hrow, List.map_singleton, hentry, List.perm_singleton] at hperm
    obtain ⟨value', hvalue', hsome⟩ := List.map_eq_singleton_iff.mp hperm
    rw [hvalue', Option.some.inj hsome]

/-- **Rows are neither lost nor confused** exactly when their values can be formatted and
their keys are distinct. -/
theorem scan_faithful (data : KrrPayload) (ns : String) : Faithful data ns ↔ Separated data ns :=
  ⟨Faithful.separated, Separated.faithful⟩

end Scan

/-- A row of the container `app` of the workload `web`. -/
def webRow (kind : String) : KrrRow where
  ns := some "prod"
  name := some "web"
  container := some "app"
  kind := some kind
  requests := ⟨.text "500m", .text "512Mi"⟩
  limits := ⟨.null, .null⟩
  recommended := ⟨.text "250m", .text "256Mi"⟩

/-- Of a Deployment and a StatefulSet with the same names only the entry of the second
is left, which is what the lookup returns. -/
theorem rows_share_entry :
    (eligibleRows (.list [webRow "Deployment", webRow "StatefulSet"]) "prod").length = 2 ∧
      ((parseKrrOutput (.list [webRow "Deployment", webRow "StatefulSet"]) "prod").any fun results =>
        results.values.length = 1 ∧
          (getRecommendation (some results) "web" "prod" none).any
            fun value => value.kind = some "StatefulSet") ∧
      ¬ Faithful (.list [webRow "Deployment", webRow "StatefulSet"]) "prod" := by
  refine ⟨by decide, by decide +kernel, fun hfaithful => ?_⟩
  have hnodup := hfaithful.separated.2
  have hrepeated : ¬ ((eligibleRows (.list [webRow "Deployment", webRow "StatefulSet"]) "prod").map
      (KrrRow.identifier "prod")).Nodup := by decide
  exact hrepeated hnodup

end KrrClient

end FinOpsPipeline
