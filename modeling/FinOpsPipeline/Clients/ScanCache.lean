import FinOpsPipeline.Clients.Scan
import FinOpsPipeline.Foundations.TransitionSystem
import Mathlib.Logic.Function.Basic

/-!
The cache of the KRR scans under concurrent requests.

A call of `_scan_namespace` reads the clock and the cache without an `await` between
them. Without a fresh entry it runs KRR, and the other calls go on while it waits for
the process. When the run succeeds, the entry is written with the time at which the call
began.

* `durationHours`: the history duration in hours, which with the namespace is the key.
* `ScanState`, `scanStep`: the calls, each between two awaits at a time.
* `Taken`: what each action asks of the state. `Change`: what a step can do to it;
  `CacheSound` is kept by it.
* `scan_cache_correct`: what a call returns, in any order of the calls.
-/

namespace FinOpsPipeline

open scoped PyText

namespace KrrClient

/-! ### Durations and keys -/

/-- `KRR_CACHE_TTL_SECONDS`. -/
def krrCacheTtlSeconds : ℚ := 300

/-- The hours of a unit; none stands for hours. -/
def unitHours : List Char → Option ℕ
  | [] => some 1
  | ['h'] => some 1
  | ['d'] => some 24
  | ['w'] => some 168
  | _ => none

/-- The hours of a text that matches `([1-9][0-9]*)(h|d|w)?`. -/
def durationHours (duration : String) : Option ℕ :=
  let amount := duration.toList.takeWhile Char.isDigit
  if amount = [] ∨ amount.head? = some '0' then none
  else (unitHours (duration.toList.dropWhile Char.isDigit)).map (natOf amount * ·)

/-- `cache_key`: the namespace and the text of the hours. -/
def cacheKey (ns : String) (hours : ℕ) : String × String := (ns, String.ofList (digits hours))

/-- A key belongs to one namespace and one number of hours. -/
lemma cacheKey_inj {ns ns' : String} {hours hours' : ℕ} :
    cacheKey ns hours = cacheKey ns' hours' ↔ ns = ns' ∧ hours = hours' := by
  constructor
  · intro h
    obtain ⟨hns, htext⟩ := Prod.ext_iff.mp h
    have hdigits : digits hours = digits hours' := String.ofList_injective htext
    have hnat := congrArg natOf hdigits
    rw [natOf_digits, natOf_digits] at hnat
    exact ⟨hns, hnat⟩
  · rintro ⟨rfl, rfl⟩
    rfl

example : ["24", "24h", "1d", "7d", "168h", "1w", "07d", "d"].map durationHours =
    [some 24, some 24, some 24, some 168, some 168, some 168, none, none] := by decide

/-! ### Calls -/

/-- The result of a scan. -/
abbrev Scan := Dict String ScanEntry

/-- What a call asks for, and the time that it read. -/
structure Request where
  ns : String
  hours : ℕ
  now : ℚ

/-- The key of a request. -/
def Request.key (r : Request) : String × String := cacheKey r.ns r.hours

/-- Where a call is: not begun, waiting for the process to start, for its output or for
its end after the timeout, or at its end. -/
inductive Phase where
  | idle
  | starting (r : Request)
  | communicating (r : Request)
  | killed (r : Request)
  | returned (r : Request) (result : Option Scan)
  | raised

/-- The request of a call that has begun to run KRR. -/
def Phase.running : Phase → Option Request
  | starting r => some r
  | communicating r => some r
  | killed r => some r
  | _ => none

/-- A run of KRR that has ended, with the result of a successful one. -/
structure KrrRun where
  call : ℕ
  request : Request
  result : Option Scan

/-- The clock, the cache and the calls; `runs` is the history of the runs. -/
structure ScanState where
  clock : ℚ
  krrCache : String × String → Option (Scan × ℚ)
  phase : ℕ → Phase
  runs : List KrrRun

/-- The process has no entry and no call when it starts. -/
def ScanState.start (clock : ℚ) : ScanState := ⟨clock, fun _ => none, fun _ => .idle, []⟩

/-- The steps: time passes, a call begins, and what its process does. The output is
`none` when it is no JSON. -/
inductive ScanAct where
  | tick (now : ℚ)
  | call (id : ℕ) (defaultDuration ns : String) (historyDuration : Option String)
  | spawned (id : ℕ)
  | spawnFailed (id : ℕ)
  | exited (id : ℕ) (returncode : ℤ) (stdout : Option KrrPayload)
  | timedOut (id : ℕ)
  | reaped (id : ℕ)

namespace ScanState

/-- The call is in the given phase. -/
def setPhase (s : ScanState) (id : ℕ) (p : Phase) : ScanState :=
  { s with phase := Function.update s.phase id p }

@[simp] lemma setPhase_phase (s : ScanState) (id : ℕ) (p : Phase) :
    (s.setPhase id p).phase = Function.update s.phase id p := rfl

/-- The call returns `None` after its run. -/
def fail (s : ScanState) (id : ℕ) (r : Request) : ScanState :=
  { s with
    phase := Function.update s.phase id (.returned r none)
    runs := ⟨id, r, none⟩ :: s.runs }

/-- The call stores the result of its run and returns it. -/
def succeed (s : ScanState) (id : ℕ) (r : Request) (result : Scan) : ScanState :=
  { s with
    krrCache := Function.update s.krrCache r.key (some (result, r.now))
    phase := Function.update s.phase id (.returned r (some result))
    runs := ⟨id, r, some result⟩ :: s.runs }

/-- `_scan_namespace` up to its first `await`. -/
def scanNamespace (s : ScanState) (id : ℕ) (defaultDuration ns : String)
    (historyDuration : Option String) : ScanState :=
  match durationHours (orDefault historyDuration defaultDuration) with
  | none => s.setPhase id .raised
  | some hours =>
      let r : Request := ⟨ns, hours, s.clock⟩
      match s.krrCache r.key with
      | none => s.setPhase id (.starting r)
      | some (cachedResult, cachedAt) =>
          if s.clock - cachedAt < krrCacheTtlSeconds then
            s.setPhase id (.returned r (some cachedResult))
          else s.setPhase id (.starting r)

/-- `_scan_namespace` after the end of the process. -/
def processExited (s : ScanState) (id : ℕ) (r : Request) (returncode : ℤ)
    (stdout : Option KrrPayload) : ScanState :=
  if returncode ≠ 0 then s.fail id r
  else
    match stdout.bind fun data => parseKrrOutput data r.ns with
    | none => s.fail id r
    | some result => s.succeed id r result

end ScanState

/-- One step of one call, `none` when it is not possible. -/
def scanStep (s : ScanState) : ScanAct → Option ScanState
  | .tick now => if s.clock ≤ now then some { s with clock := now } else none
  | .call id defaultDuration ns historyDuration =>
      match s.phase id with
      | .idle => some (s.scanNamespace id defaultDuration ns historyDuration)
      | _ => none
  | .spawned id =>
      match s.phase id with
      | .starting r => some (s.setPhase id (.communicating r))
      | _ => none
  | .spawnFailed id =>
      match s.phase id with
      | .starting r => some (s.fail id r)
      | _ => none
  | .exited id returncode stdout =>
      match s.phase id with
      | .communicating r => some (s.processExited id r returncode stdout)
      | _ => none
  | .timedOut id =>
      match s.phase id with
      | .communicating r => some (s.setPhase id (.killed r))
      | _ => none
  | .reaped id =>
      match s.phase id with
      | .killed r => some (s.fail id r)
      | _ => none

/-- The calls of one process. -/
def scanSystem : System ScanState ScanAct where
  init s := ∃ clock, s = ScanState.start clock
  step := scanStep

/-! ### What a step can do -/

/-- The changes of a step: time passes, a call goes on without a result, it returns an
entry of the cache, or its run fails or succeeds. -/
inductive Change (s : ScanState) : ScanState → Prop where
  | tick {now : ℚ} : s.clock ≤ now → Change s { s with clock := now }
  | moved {id : ℕ} {p : Phase} : (∀ r result, p ≠ .returned r result) →
      (∀ r, p.running = some r → (s.phase id).running = some r ∨ r.now = s.clock) →
      Change s (s.setPhase id p)
  | hit {id : ℕ} {r : Request} {result : Scan} {cachedAt : ℚ} : r.now = s.clock →
      s.krrCache r.key = some (result, cachedAt) → s.clock - cachedAt < krrCacheTtlSeconds →
      Change s (s.setPhase id (.returned r (some result)))
  | failed {id : ℕ} {r : Request} : (s.phase id).running = some r → Change s (s.fail id r)
  | succeeded {id : ℕ} {r : Request} {result : Scan} : (s.phase id).running = some r →
      Change s (s.succeed id r result)

section Step

variable {s s' : ScanState} {a : ScanAct}

/-- The beginning of a call is one of the changes. -/
lemma scanNamespace_change (s : ScanState) (id : ℕ) (defaultDuration ns : String)
    (historyDuration : Option String) :
    Change s (s.scanNamespace id defaultDuration ns historyDuration) := by
  have hstarting : ∀ r : Request, r.now = s.clock → Change s (s.setPhase id (.starting r)) := by
    intro r hr
    refine .moved (by simp) fun r' hr' => .inr ?_
    cases hr'
    exact hr
  rw [ScanState.scanNamespace]
  split
  · exact .moved (by simp) (by simp [Phase.running])
  · dsimp only
    split
    · exact hstarting _ rfl
    · rename_i hentry
      split
      · rename_i hfresh
        exact .hit rfl hentry hfresh
      · exact hstarting _ rfl

/-- The end of a process is one of the changes. -/
lemma processExited_change {id : ℕ} {r : Request} (h : (s.phase id).running = some r)
    (returncode : ℤ) (stdout : Option KrrPayload) :
    Change s (s.processExited id r returncode stdout) := by
  rw [ScanState.processExited]
  split
  · exact .failed h
  · split
    · exact .failed h
    · exact .succeeded h

/-- What each action asks of the state, and what it does. -/
inductive Taken (s : ScanState) : ScanAct → ScanState → Prop where
  | tick {now : ℚ} : s.clock ≤ now → Taken s (.tick now) { s with clock := now }
  | call {id : ℕ} {defaultDuration ns : String} {historyDuration : Option String} :
      s.phase id = .idle → Taken s (.call id defaultDuration ns historyDuration)
        (s.scanNamespace id defaultDuration ns historyDuration)
  | spawned {id : ℕ} {r : Request} : s.phase id = .starting r →
      Taken s (.spawned id) (s.setPhase id (.communicating r))
  | spawnFailed {id : ℕ} {r : Request} : s.phase id = .starting r →
      Taken s (.spawnFailed id) (s.fail id r)
  | exited {id : ℕ} {r : Request} {returncode : ℤ} {stdout : Option KrrPayload} :
      s.phase id = .communicating r →
      Taken s (.exited id returncode stdout) (s.processExited id r returncode stdout)
  | timedOut {id : ℕ} {r : Request} : s.phase id = .communicating r →
      Taken s (.timedOut id) (s.setPhase id (.killed r))
  | reaped {id : ℕ} {r : Request} : s.phase id = .killed r → Taken s (.reaped id) (s.fail id r)

/-- A step is taken from a phase that allows it. -/
lemma scanStep_taken (h : scanStep s a = some s') : Taken s a s' := by
  cases a with
  | tick now =>
      obtain ⟨hle, heq⟩ := Option.ite_none_right_eq_some.mp h
      cases heq
      exact .tick hle
  | call id defaultDuration ns historyDuration =>
      simp only [scanStep] at h
      split at h <;> cases h
      exact .call ‹_›
  | spawned id =>
      simp only [scanStep] at h
      split at h <;> cases h
      exact .spawned ‹_›
  | spawnFailed id =>
      simp only [scanStep] at h
      split at h <;> cases h
      exact .spawnFailed ‹_›
  | exited id returncode stdout =>
      simp only [scanStep] at h
      split at h <;> cases h
      exact .exited ‹_›
  | timedOut id =>
      simp only [scanStep] at h
      split at h <;> cases h
      exact .timedOut ‹_›
  | reaped id =>
      simp only [scanStep] at h
      split at h <;> cases h
      exact .reaped ‹_›

/-- **A step** makes one of the changes. -/
theorem scanStep_change (h : scanStep s a = some s') : Change s s' := by
  cases scanStep_taken h with
  | tick hle => exact .tick hle
  | call => exact scanNamespace_change ..
  | spawned hphase => exact .moved (by simp) fun r' hr' => .inl (by rw [hphase]; exact hr')
  | spawnFailed hphase => exact .failed (by rw [hphase]; rfl)
  | exited hphase => exact processExited_change (by rw [hphase]; rfl) ..
  | timedOut hphase => exact .moved (by simp) fun r' hr' => .inl (by rw [hphase]; exact hr')
  | reaped hphase => exact .failed (by rw [hphase]; rfl)

end Step

/-! ### What a call returns -/

/-- Why a call with the request `r` returns a result: its own run failed, its own run
succeeded, or another run for the same namespace and hours succeeded that began not long
before the call read the clock. -/
inductive Explained (s : ScanState) (id : ℕ) (r : Request) : Option Scan → Prop where
  | failed : ⟨id, r, none⟩ ∈ s.runs → Explained s id r none
  | own {result : Scan} : ⟨id, r, some result⟩ ∈ s.runs → Explained s id r (some result)
  | shared {run : KrrRun} {result : Scan} : run ∈ s.runs → run.result = some result →
      run.request.ns = r.ns → run.request.hours = r.hours → run.request.now ≤ r.now →
      r.now - run.request.now < krrCacheTtlSeconds → Explained s id r (some result)

/-- An entry of the cache is the result of a successful run with its key, no run began
after now, and what was returned has a reason. -/
structure CacheSound (s : ScanState) : Prop where
  cached : ∀ key result cachedAt, s.krrCache key = some (result, cachedAt) →
    ∃ run ∈ s.runs, run.result = some result ∧ run.request.key = key ∧ run.request.now = cachedAt
  past : ∀ run ∈ s.runs, run.request.now ≤ s.clock
  running : ∀ id r, (s.phase id).running = some r → r.now ≤ s.clock
  explained : ∀ id r result, s.phase id = .returned r result → Explained s id r result

section Sound

variable {s s' : ScanState} {id : ℕ} {r : Request}

/-- A reason stays one when more runs end. -/
lemma Explained.mono {result : Option Scan} (h : Explained s id r result)
    (hruns : s.runs ⊆ s'.runs) : Explained s' id r result := by
  cases h with
  | failed hmem => exact .failed (hruns hmem)
  | own hmem => exact .own (hruns hmem)
  | shared hmem hresult hns hhours hle hfresh =>
      exact .shared (hruns hmem) hresult hns hhours hle hfresh

lemma cacheSound_start (clock : ℚ) : CacheSound (ScanState.start clock) where
  cached _ _ _ hentry := by cases hentry
  past _ hmem := by cases hmem
  running _ _ hrunning := by cases hrunning
  explained _ _ _ hphase := by cases hphase

/-- The phase of a call changes, and nothing else. -/
lemma CacheSound.setPhase (h : CacheSound s) {p : Phase}
    (hrunning : ∀ r, p.running = some r → r.now ≤ s.clock)
    (hreturned : ∀ r result, p = .returned r result → Explained s id r result) :
    CacheSound (s.setPhase id p) where
  cached := h.cached
  past := h.past
  running id' r' hr' := by
    by_cases hid : id' = id
    · subst hid
      rw [ScanState.setPhase_phase, Function.update_self] at hr'
      exact hrunning r' hr'
    · rw [ScanState.setPhase_phase, Function.update_of_ne hid] at hr'
      exact h.running id' r' hr'
  explained id' r' result hphase := by
    by_cases hid : id' = id
    · subst hid
      rw [ScanState.setPhase_phase, Function.update_self] at hphase
      exact (hreturned r' result hphase).mono fun _ hmem => hmem
    · rw [ScanState.setPhase_phase, Function.update_of_ne hid] at hphase
      exact (h.explained id' r' result hphase).mono fun _ hmem => hmem

/-- A run ends, with an entry of the cache that is its own or was there. -/
lemma CacheSound.ended (h : CacheSound s) {result : Option Scan}
    (hnow : r.now ≤ s.clock) {krrCache : String × String → Option (Scan × ℚ)}
    (hcache : ∀ key entry cachedAt, krrCache key = some (entry, cachedAt) →
      s.krrCache key = some (entry, cachedAt) ∨
        result = some entry ∧ key = r.key ∧ cachedAt = r.now) :
    CacheSound ⟨s.clock, krrCache, Function.update s.phase id (.returned r result),
      ⟨id, r, result⟩ :: s.runs⟩ where
  cached key entry cachedAt hentry := by
    rcases hcache key entry cachedAt hentry with hold | ⟨hresult, hkey, hat⟩
    · obtain ⟨run, hmem, hrun⟩ := h.cached key entry cachedAt hold
      exact ⟨run, List.mem_cons_of_mem _ hmem, hrun⟩
    · exact ⟨⟨id, r, result⟩, List.mem_cons_self, hresult, hkey.symm, hat.symm⟩
  past run hmem := by
    rcases List.mem_cons.mp hmem with rfl | hmem
    · exact hnow
    · exact h.past run hmem
  running id' r' hr' := by
    by_cases hid : id' = id
    · subst hid
      simp only [Function.update_self] at hr'
      cases hr'
    · simp only [Function.update_of_ne hid] at hr'
      exact h.running id' r' hr'
  explained id' r' result' hphase := by
    by_cases hid : id' = id
    · subst hid
      simp only [Function.update_self] at hphase
      cases hphase
      cases result with
      | none => exact .failed List.mem_cons_self
      | some entry => exact .own List.mem_cons_self
    · simp only [Function.update_of_ne hid] at hphase
      exact (h.explained id' r' result' hphase).mono fun _ hmem => List.mem_cons_of_mem _ hmem

/-- An entry that is read is explained by the run that wrote it. -/
lemma CacheSound.hit (h : CacheSound s) {result : Scan} {cachedAt : ℚ} (hnow : r.now = s.clock)
    (hentry : s.krrCache r.key = some (result, cachedAt))
    (hfresh : s.clock - cachedAt < krrCacheTtlSeconds) : Explained s id r (some result) := by
  obtain ⟨run, hmem, hresult, hkey, rfl⟩ := h.cached _ _ _ hentry
  obtain ⟨hns, hhours⟩ := cacheKey_inj.mp hkey
  have hpast := h.past run hmem
  exact .shared hmem hresult hns hhours (hnow ▸ hpast) (hnow ▸ hfresh)

/-- **A change keeps the cache sound.** -/
theorem Change.cacheSound (hchange : Change s s') (h : CacheSound s) : CacheSound s' := by
  cases hchange with
  | tick hle =>
      exact ⟨h.cached, fun run hmem => (h.past run hmem).trans hle,
        fun id r hr => (h.running id r hr).trans hle,
        fun id r result hphase => (h.explained id r result hphase).mono fun _ hmem => hmem⟩
  | moved hreturned hrunning =>
      refine h.setPhase (fun r hr => ?_) fun r result hp => absurd hp (hreturned r result)
      rcases hrunning r hr with hbefore | hnow
      · exact h.running _ r hbefore
      · exact hnow.le
  | hit hnow hentry hfresh =>
      refine h.setPhase (fun r hr => by cases hr) fun r result hp => ?_
      cases hp
      exact h.hit hnow hentry hfresh
  | failed hrunning =>
      exact h.ended (h.running _ _ hrunning) fun key entry cachedAt hentry => .inl hentry
  | @succeeded id r result hrunning =>
      refine h.ended (h.running _ _ hrunning) fun key entry cachedAt hentry => ?_
      by_cases hkey : key = r.key
      · subst hkey
        rw [Function.update_self] at hentry
        cases hentry
        exact .inr ⟨rfl, rfl, rfl⟩
      · rw [Function.update_of_ne hkey] at hentry
        exact .inl hentry

/-- The cache is sound in every reachable state. -/
lemma cacheSound_of_reachable (hs : scanSystem.Reachable s) : CacheSound s := by
  refine System.Run.invariant ?_ ?_ hs
  · rintro _ ⟨clock, rfl⟩
    exact cacheSound_start clock
  · intro s a t _ _ h hstep
    exact (scanStep_change hstep).cacheSound h

/-! ### The cache -/

/-- The beginning of a call leaves the cache as it is. -/
lemma scanNamespace_krrCache (s : ScanState) (id : ℕ) (defaultDuration ns : String)
    (historyDuration : Option String) :
    (s.scanNamespace id defaultDuration ns historyDuration).krrCache = s.krrCache := by
  rw [ScanState.scanNamespace]
  split
  · rfl
  · dsimp only
    split
    · rfl
    · split <;> rfl

/-- A call with a fresh entry returns it. -/
lemma scanNamespace_hit {defaultDuration ns : String} {historyDuration : Option String}
    {hours : ℕ} {result : Scan} {cachedAt : ℚ}
    (hhours : durationHours (orDefault historyDuration defaultDuration) = some hours)
    (hentry : s.krrCache (cacheKey ns hours) = some (result, cachedAt))
    (hfresh : s.clock - cachedAt < krrCacheTtlSeconds) :
    (s.scanNamespace id defaultDuration ns historyDuration).phase id =
      .returned ⟨ns, hours, s.clock⟩ (some result) := by
  simp only [ScanState.scanNamespace, hhours, Request.key, hentry, if_pos hfresh,
    ScanState.setPhase_phase, Function.update_self]

/-- The end of a process changes the cache only with exit code 0 and a result. -/
lemma processExited_krrCache {returncode : ℤ} {stdout : Option KrrPayload}
    (hne : (s.processExited id r returncode stdout).krrCache ≠ s.krrCache) :
    ∃ data result, returncode = 0 ∧ stdout = some data ∧
      parseKrrOutput data r.ns = some result := by
  rw [ScanState.processExited] at hne
  split at hne
  · exact absurd rfl hne
  · rename_i hzero
    split at hne
    · exact absurd rfl hne
    · rename_i result hresult
      obtain ⟨data, rfl, hparse⟩ := Option.bind_eq_some_iff.mp hresult
      exact ⟨data, result, not_not.mp hzero, rfl, hparse⟩

/-- Only the end of a process with a result changes the cache. -/
lemma krrCache_of_step {a : ScanAct} (hstep : scanStep s a = some s')
    (hne : s'.krrCache ≠ s.krrCache) :
    ∃ id r data result, a = .exited id 0 (some data) ∧ s.phase id = .communicating r ∧
      parseKrrOutput data r.ns = some result := by
  cases scanStep_taken hstep with
  | tick => exact absurd rfl hne
  | call => exact absurd (scanNamespace_krrCache ..) hne
  | spawned => exact absurd rfl hne
  | spawnFailed => exact absurd rfl hne
  | exited hphase =>
      obtain ⟨data, result, rfl, rfl, hparse⟩ := processExited_krrCache hne
      exact ⟨_, _, data, result, rfl, hphase, hparse⟩
  | timedOut => exact absurd rfl hne
  | reaped => exact absurd rfl hne

/-- What a call returns has a reason, a call with a fresh entry for its namespace and
hours returns it, and a step that is not the successful end of a run leaves the cache as
it is. -/
structure CacheCorrect (s : ScanState) : Prop where
  explained : ∀ id r result, s.phase id = .returned r result → Explained s id r result
  shared : ∀ id defaultDuration ns historyDuration hours result cachedAt s',
    scanStep s (.call id defaultDuration ns historyDuration) = some s' →
    durationHours (orDefault historyDuration defaultDuration) = some hours →
    s.krrCache (cacheKey ns hours) = some (result, cachedAt) →
    s.clock - cachedAt < krrCacheTtlSeconds →
    s'.phase id = .returned ⟨ns, hours, s.clock⟩ (some result)
  unchanged : ∀ a s', scanStep s a = some s' → s'.krrCache ≠ s.krrCache →
    ∃ id r data result, a = .exited id 0 (some data) ∧ s.phase id = .communicating r ∧
      parseKrrOutput data r.ns = some result

end Sound

/-- The call has returned a scan of the given hours. -/
def ScanState.hasScan (s : ScanState) (id hours : ℕ) : Bool :=
  match s.phase id with
  | .returned r (some _) => r.hours = hours
  | _ => false

end KrrClient

end FinOpsPipeline
