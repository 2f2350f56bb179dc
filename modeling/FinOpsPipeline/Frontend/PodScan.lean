import FinOpsPipeline.Frontend.Capacity
import FinOpsPipeline.Frontend.Whole
import Mathlib.Data.String.Basic

/-!
The number of pods that a call of `check_waiting_status` counts.

The call sends one `SCAN` from the cursor 0 and does not look at the cursor that comes
back. One `SCAN` visits a part of the keys, in an order that Redis does not tell, and
lists those of them that match.

* `ScanPage`: the page that one `SCAN` may return.
* `scanPods_currentMax`: the capacity of the call is the one of all pods exactly when there
  is at most one, or all their keys were visited.
* `exists_page_without_pods`: with enough other keys there is a page without any of them.
-/

namespace FinOpsPipeline

/-! ### Pages of a scan -/

/-- A page of `SCAN 0 COUNT count` over the given keys: the keys that are visited, each
once, and the next cursor, which is 0 exactly when none is left. A page is short only when
it is the last. -/
structure ScanPage (keys : Finset String) (count : ℕ) where
  visited : List String
  nodup : visited.Nodup
  present : ∀ key ∈ visited, key ∈ keys
  cursor : ℕ
  complete : cursor = 0 ↔ ∀ key ∈ keys, key ∈ visited
  filled : count ≤ visited.length ∨ cursor = 0

/-- Some of the keys, and not all, are a page. -/
def ScanPage.ofSubset {keys : Finset String} {count : ℕ} {visited : List String}
    (nodup : visited.Nodup) (present : ∀ key ∈ visited, key ∈ keys)
    (filled : count ≤ visited.length) (rest : ∃ key ∈ keys, key ∉ visited) :
    ScanPage keys count where
  visited := visited
  nodup := nodup
  present := present
  cursor := 1
  complete := by
    refine iff_of_false one_ne_zero fun hall => ?_
    obtain ⟨key, hmem, hnot⟩ := rest
    exact hnot (hall key hmem)
  filled := .inl filled

namespace WaitingRoom

/-- The prefix of the heartbeat keys, that is `frontend_pods_key` and a colon. -/
def podsPrefix : String := "frontend-pods-alive:"

/-- The key matches `frontend-pods-alive:*`. -/
def isPodKey (key : String) : Bool := podsPrefix.toList.isPrefixOf key.toList

/-- The keys of the database, of any kind; the pod keys among them are those of the live
pods. -/
structure Keyspace (s : Store String String) (now : ℚ) where
  keys : Finset String
  pods : ∀ key, key ∈ keys ∧ isPodKey key = true ↔ s.podsAlive.live key now = true

section Scan

variable {cfg : Settings} {s : Store String String} {now : ℚ}

/-- The keys of the live pods. -/
def Keyspace.livePods (ks : Keyspace s now) : Finset String :=
  ks.keys.filter fun key => isPodKey key = true

/-- The keys that the `SCAN` of a call lists: those visited that match. -/
def podPage {keys : Finset String} (page : ScanPage keys 20) : List String :=
  page.visited.filter isPodKey

/-- The surroundings of a command whose `SCAN` returns the given page. -/
def scanReading {keys : Finset String} (page : ScanPage keys 20) (r : Reading String String) :
    Reading String String :=
  { r with podKeys := podPage page }

variable {ks : Keyspace s now} {page : ScanPage ks.keys 20}

/-- A listed key is one of a live pod that was visited. -/
lemma mem_podPage {key : String} :
    key ∈ podPage page ↔ key ∈ ks.livePods ∧ key ∈ page.visited := by
  rw [podPage, List.mem_filter, Keyspace.livePods, Finset.mem_filter]
  constructor
  · rintro ⟨hvisited, hpod⟩
    exact ⟨⟨page.present key hvisited, hpod⟩, hvisited⟩
  · rintro ⟨⟨-, hpod⟩, hvisited⟩
    exact ⟨hvisited, hpod⟩

/-- The page lists keys that are present, each once. -/
lemma page_podPage (page : ScanPage ks.keys 20) : s.Page now (podPage page) := by
  refine ⟨page.nodup.filter _, fun key hkey => ?_⟩
  have hlive := Finset.mem_filter.mp (mem_podPage.mp hkey).1
  exact (ks.pods key).mp hlive

/-- The listed keys are a part of the live pods. -/
lemma podPage_subset (page : ScanPage ks.keys 20) : (podPage page).toFinset ⊆ ks.livePods := by
  intro key hkey
  exact (mem_podPage.mp (List.mem_toFinset.mp hkey)).1

lemma card_podPage (page : ScanPage ks.keys 20) :
    (podPage page).toFinset.card = (podPage page).length :=
  List.toFinset_card_of_nodup (page_podPage page).1

/-- As many keys are listed as there are live pods exactly when all of them were visited. -/
lemma length_podPage_eq (page : ScanPage ks.keys 20) :
    (podPage page).length = ks.livePods.card ↔ ∀ key ∈ ks.livePods, key ∈ page.visited := by
  rw [← card_podPage]
  constructor
  · intro hcard key hkey
    have heq := Finset.eq_of_subset_of_card_le (podPage_subset page) hcard.ge
    rw [← heq, List.mem_toFinset] at hkey
    exact (mem_podPage.mp hkey).2
  · intro hall
    congr 1
    refine Finset.Subset.antisymm (podPage_subset page) fun key hkey => ?_
    exact List.mem_toFinset.mpr (mem_podPage.mpr ⟨hkey, hall key hkey⟩)

/-- The `SCAN` of a call ends with the capacity of the listed keys. -/
lemma checkCommand_scanPods (ks : Keyspace s now) (page : ScanPage ks.keys 20)
    (r : Reading String String) (userToken : String) :
    cfg.checkCommand now (scanReading page r) userToken s .scanPods =
      some (s, .next (.scardActive (cfg.currentMax (podPage page)))) :=
  checkCommand_page (page_podPage page)

/-- **The capacity of a call** is the one of all live pods exactly when there is at most
one, or the page has all their keys, or a pod has no slots. -/
theorem scanPods_currentMax (cfg : Settings) (ks : Keyspace s now) (page : ScanPage ks.keys 20)
    (r : Reading String String) (userToken : String) :
    ∃ currentMax, cfg.checkCommand now (scanReading page r) userToken s .scanPods =
        some (s, .next (.scardActive currentMax)) ∧
      (currentMax = cfg.capacity ks.livePods ↔
        cfg.slotsPerPod = 0 ∨ ks.livePods.card ≤ 1 ∨ ∀ key ∈ ks.livePods, key ∈ page.visited) := by
  refine ⟨_, checkCommand_scanPods ks page r userToken, ?_⟩
  have hle : (podPage page).length ≤ ks.livePods.card := by
    rw [← card_podPage]
    exact Finset.card_le_card (podPage_subset page)
  rw [Settings.currentMax, Settings.capacity, mul_eq_mul_right_iff, Nat.cast_inj,
    ← length_podPage_eq]
  omega

/-- **Under load the pods are not seen**: with twenty keys that are not of pods, and a live
pod, there is a page from which the call takes the capacity of one pod. -/
theorem exists_page_without_pods (cfg : Settings) (ks : Keyspace s now)
    (hpods : ks.livePods.Nonempty) (hother : 20 ≤ (ks.keys \ ks.livePods).card) :
    ∃ page : ScanPage ks.keys 20, page.visited.length = 20 ∧
      cfg.currentMax (podPage page) = cfg.slotsPerPod := by
  obtain ⟨part, hsub, hcard⟩ := Finset.exists_subset_card_eq hother
  have hkeys : ∀ key ∈ part.toList, key ∈ ks.keys := fun key hkey =>
    (Finset.mem_sdiff.mp (hsub (Finset.mem_toList.mp hkey))).1
  have hnone : ∀ key ∈ part.toList, key ∉ ks.livePods := fun key hkey =>
    (Finset.mem_sdiff.mp (hsub (Finset.mem_toList.mp hkey))).2
  have hlength : part.toList.length = 20 := by rw [Finset.length_toList, hcard]
  obtain ⟨pod, hpod⟩ := hpods
  let page : ScanPage ks.keys 20 := .ofSubset part.nodup_toList hkeys hlength.ge
    ⟨pod, (Finset.mem_filter.mp hpod).1, fun hmem => hnone pod hmem hpod⟩
  have hempty : podPage page = [] := by
    refine List.eq_nil_iff_forall_not_mem.mpr fun key hkey => ?_
    obtain ⟨hlive, hvisited⟩ := mem_podPage.mp hkey
    exact hnone key hvisited hlive
  refine ⟨page, hlength, ?_⟩
  rw [Settings.currentMax, hempty]
  simp

end Scan

/-- Two live pods, and nothing else that the waiting room reads. -/
def twoPods : Store String String where
  active := .none
  activeUsers := ∅
  waitingQueue := ∅
  waitingHeartbeat := ∅
  podsAlive := fun key =>
    if key = "frontend-pods-alive:a" ∨ key = "frontend-pods-alive:b" then some 30 else none

/-- The keys of the two pods and of twenty sessions. -/
def crowdedKeys : Finset String :=
  {"frontend-pods-alive:a", "frontend-pods-alive:b"} ∪
    (Finset.range 20).image fun i => "active:" ++ String.ofList (List.replicate (i + 1) 'u')

/-- The database with these keys. -/
def crowded : Keyspace twoPods 0 where
  keys := crowdedKeys
  pods key := by
    constructor
    · rintro ⟨hkey, hpod⟩
      have hall : ∀ key ∈ crowdedKeys, isPodKey key = true → twoPods.podsAlive.live key 0 = true := by
        decide +kernel
      exact hall key hkey hpod
    · intro hlive
      by_cases hkey : key = "frontend-pods-alive:a" ∨ key = "frontend-pods-alive:b"
      · rcases hkey with rfl | rfl <;> decide +kernel
      · simp [Expiring.live, twoPods, hkey] at hlive

/-- With two live pods and twenty sessions a page without pods gives the capacity of one
pod. -/
theorem two_pods_counted_as_one :
    ∃ page : ScanPage crowded.keys 20,
      (Settings.slots 20).checkCommand 0 (scanReading page ⟨0, [], []⟩) "t" twoPods .scanPods =
        some (twoPods, .next (.scardActive 20)) ∧
      (Settings.slots 20).capacity crowded.livePods = 40 := by
  have hpods : crowded.livePods.card = 2 := by decide +kernel
  obtain ⟨page, -, hmax⟩ := exists_page_without_pods (Settings.slots 20) crowded
    (Finset.card_pos.mp (by omega)) (by decide +kernel)
  refine ⟨page, ?_, ?_⟩
  · rw [checkCommand_scanPods, hmax]
    rfl
  · rw [Settings.capacity, hpods]
    rfl

end WaitingRoom

end FinOpsPipeline
