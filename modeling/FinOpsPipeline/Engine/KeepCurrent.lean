import FinOpsPipeline.Clients.Prometheus

/-!
Keeping the current request.

When the engine holds the current values, the deployed request passes through
the string of `get_current_resource_spec`, the policies and the formatting. Each
string has two decimal places from one core on, and memory two decimal places of
a GiB from there on, so some requests come back smaller: `1234m` CPU as `1.23` and
`1500Mi` as `1495Mi` (`held_request_shrinks`).

* `CpuHeld`, `MemHeld`: the engine holds the current value.
* `uncapped_cpu_of_held`, `uncapped_mem_of_held`: it then passes on this value.
* `CpuKept`, `MemKept`: the rounding of the strings does not lower the request.
* `held_request_kept`: these are exactly the requests that do not shrink.
-/

namespace FinOpsPipeline

open PyFloat PrometheusClient

namespace PolicyEngine

/-! ### Holding the current values -/

/-- The workload was killed for lack of memory, restarted often, or failed the
evaluation. -/
def Held (inp : PolicyInput) : Prop :=
  (∃ m, inp.promMetrics = some m ∧ (m.oomKilled = true ∨ 10 ≤ m.restartCount)) ∨
    (verdict inp).overallStatus = .fail

/-- The engine holds the current CPU: also when KRR had too little data. -/
def CpuHeld (inp : PolicyInput) : Prop :=
  Held inp ∨ inp.cpuDataInsufficient = true ∧
    parseCpu inp.krrRes.cpu = parseCpu inp.currentRes.cpu

/-- The engine holds the current memory. -/
def MemHeld (inp : PolicyInput) : Prop :=
  Held inp ∨ inp.memDataInsufficient = true ∧
    parseMemory inp.krrRes.memory = parseMemory inp.currentRes.memory

section Rules

variable {d : Draft} {currCpu currMem : PyFloat}

/-- A danger sets the current values. -/
lemma dangerRule_of_fail (rule : RuleId) (points : ℕ) {danger : PrometheusMetrics → Bool}
    {prom : Option PrometheusMetrics} (h : dangerStatus prom danger = .fail) :
    Keeps (· = currCpu) (· = currMem) (dangerRule rule points danger prom currCpu currMem d) := by
  rw [dangerRule, h]
  exact ⟨rfl, rfl⟩

/-- The reduction of a value to itself is zero. -/
lemma reduction_self (c : ℚ) : reduction (fin c) (fin c) = fin 0 := by
  rw [reduction]
  split
  · simp
  · rfl

/-- The rules after the metrics keep the current CPU. -/
lemma rule05_of_current {c : ℚ} (hc : 0 ≤ c) (forecast : Option ChronosForecast)
    (h : d.finalCpu = fin c) : (rule05 forecast (fin c) d).finalCpu = fin c := by
  rw [rule05]
  split
  · split
    · rfl
    · exact h
  · have hmax : max c (c * (85 / 100)) = c := max_eq_left (by linarith)
    simp [h, hmax]

end Rules

/-- The metrics show a danger, so that RULE_03 or RULE_04 sets the current values. -/
lemma guarded_of_danger {inp : PolicyInput} {m : PrometheusMetrics}
    (hprom : inp.promMetrics = some m) (h : m.oomKilled = true ∨ 10 ≤ m.restartCount) :
    Keeps (· = parseCpu inp.currentRes.cpu) (· = parseMemory inp.currentRes.memory)
      (guarded inp) := by
  rcases h with hoom | hrestart
  · have hfail : dangerStatus inp.promMetrics (fun m => m.oomKilled) = .fail := by
      simp [dangerStatus, hprom, hoom]
    exact dangerRule_keeps _ _ _ _ rfl rfl (dangerRule_of_fail _ _ hfail)
  · have hfail : dangerStatus inp.promMetrics (fun m => decide (10 ≤ m.restartCount)) = .fail := by
      simp [dangerStatus, hprom, hrestart]
    exact dangerRule_of_fail _ _ hfail

/-- A candidate that is the current CPU stays it in the later rules. -/
lemma draft_cpu_of_guarded {inp : PolicyInput} {c : ℚ} (hc : 0 ≤ c)
    (hcurr : parseCpu inp.currentRes.cpu = fin c) (h : (guarded inp).finalCpu = fin c) :
    (draft inp).finalCpu = fin c := by
  have h5 : Keeps (· = fin c) (fun _ => True)
      (rule05 inp.chronosForecast (parseCpu inp.currentRes.cpu) (guarded inp)) := by
    rw [hcurr]
    exact ⟨rule05_of_current hc _ h, trivial⟩
  exact (rule07_keeps _ _ (rule06_keeps _ h5)).cpu

/-- The later rules do not touch the memory. -/
lemma draft_mem_of_guarded {inp : PolicyInput} {m : ℚ} (h : (guarded inp).finalMem = fin m) :
    (draft inp).finalMem = fin m := by
  have hkeep : Keeps (fun _ => True) (· = fin m) (guarded inp) := ⟨trivial, h⟩
  exact (rule07_keeps _ _ (rule06_keeps _ (rule05_keeps _ trivial trivial hkeep))).mem

/-- A danger sets the current values, so that what holds of these is kept. -/
lemma guarded_keeps {P Q : PyFloat → Prop} {inp : PolicyInput}
    (hcpu : P (parseCpu inp.currentRes.cpu)) (hmem : Q (parseMemory inp.currentRes.memory))
    (h : Keeps P Q (softened inp)) : Keeps P Q (guarded inp) :=
  dangerRule_keeps _ _ _ _ hcpu hmem (dangerRule_keeps _ _ _ _ hcpu hmem h)

/-- Without a recommendation the candidate is the current CPU from the start. -/
lemma guarded_cpu_of_krr {inp : PolicyInput} {c : ℚ}
    (hcurr : parseCpu inp.currentRes.cpu = fin c)
    (hkrr : parseCpu inp.krrRes.cpu = parseCpu inp.currentRes.cpu) :
    (guarded inp).finalCpu = fin c := by
  have hone : (rule01 (fin c) (fin c) ⟨fin c, parseMemory inp.krrRes.memory, 0, []⟩).finalCpu =
      fin c := by
    rw [rule01, reduction_self, le_fin, if_neg (by norm_num)]
    rfl
  have hsoft : Keeps (· = fin c) (fun _ => True) (softened inp) := by
    rw [softened, hkrr, hcurr]
    exact rule02_keeps _ trivial ⟨hone, trivial⟩
  exact (guarded_keeps hcurr trivial hsoft).cpu

/-- The same for memory. -/
lemma guarded_mem_of_krr {inp : PolicyInput} {m : ℚ}
    (hcurr : parseMemory inp.currentRes.memory = fin m)
    (hkrr : parseMemory inp.krrRes.memory = parseMemory inp.currentRes.memory) :
    (guarded inp).finalMem = fin m := by
  have hone : Keeps (fun _ => True) (· = fin m)
      (rule01 (parseCpu inp.currentRes.cpu) (parseCpu inp.krrRes.cpu)
        ⟨parseCpu inp.krrRes.cpu, fin m, 0, []⟩) :=
    rule01_keeps _ trivial ⟨trivial, rfl⟩
  have hsoft : Keeps (fun _ => True) (· = fin m) (softened inp) := by
    rw [softened, hkrr, hcurr]
    simp only [rule02, reduction_self, le_fin]
    rw [if_neg (by norm_num)]
    exact ⟨trivial, hone.mem⟩
  exact (guarded_keeps trivial hcurr hsoft).mem

/-- **A held CPU is the value before the limits.** -/
theorem uncapped_cpu_of_held {inp : PolicyInput} {c : ℚ} (hc : 0 ≤ c)
    (hcurr : parseCpu inp.currentRes.cpu = fin c) (held : CpuHeld inp) :
    (uncapped inp).1 = fin c := by
  rw [uncapped]
  split
  · exact hcurr
  · rename_i hpass
    refine draft_cpu_of_guarded hc hcurr ?_
    rcases held with (⟨m, hprom, hdanger⟩ | hfail) | ⟨_, hkrr⟩
    · exact (guarded_of_danger hprom hdanger).cpu.trans hcurr
    · rw [verdict_overallStatus, hpass] at hfail
      cases hfail
    · exact guarded_cpu_of_krr hcurr hkrr

/-- **Held memory is the value before the limits.** -/
theorem uncapped_mem_of_held {inp : PolicyInput} {m : ℚ}
    (hcurr : parseMemory inp.currentRes.memory = fin m) (held : MemHeld inp) :
    (uncapped inp).2 = fin m := by
  rw [uncapped]
  split
  · exact hcurr
  · rename_i hpass
    refine draft_mem_of_guarded ?_
    rcases held with (⟨p, hprom, hdanger⟩ | hfail) | ⟨_, hkrr⟩
    · exact (guarded_of_danger hprom hdanger).mem.trans hcurr
    · rw [verdict_overallStatus, hpass] at hfail
      cases hfail
    · exact guarded_mem_of_krr hcurr hkrr

/-! ### The deployed requests -/

/-- The strings of a request of `k` millicores do not lower it: it is below a
core, a multiple of ten millicores, or rounded up. -/
def CpuKept (k : ℕ) : Prop := k < 1000 ∨ k % 10 = 0 ∨ RoundsUp k 10

/-- The strings of a request of `m` MiB do not lower it: it is below a GiB, or
rounded up in the GiB string, or rounded down by less than half a MiB. -/
def MemKept (m : ℕ) : Prop := m < 1024 ∨ 100 * m % 1024 < 50 ∨ RoundsUp (100 * m) 1024

instance (k : ℕ) : Decidable (CpuKept k) := inferInstanceAs (Decidable (_ ∨ _))

instance (m : ℕ) : Decidable (MemKept m) := inferInstanceAs (Decidable (_ ∨ _))

/-- The CPU string of a request. -/
lemma le_cpuGrid_iff (k : ℕ) : (k : ℚ) / 1000 ≤ cpuGrid (k / 1000) ↔ CpuKept k := by
  by_cases hk : k < 1000
  · have hlt : (k : ℚ) / 1000 < 1 := by
      rw [div_lt_one (by norm_num)]
      exact_mod_cast hk
    have hgrid : roundTo 1000 ((k : ℚ) / 1000) = k / 1000 := by
      simpa using roundTo_intCast_div (s := 1000) (by norm_num) k
    rw [cpuGrid_of_lt hlt, hgrid]
    exact iff_of_true le_rfl (.inl hk)
  · have hle : 1 ≤ (k : ℚ) / 1000 := by
      rw [one_le_div (by norm_num)]
      exact_mod_cast not_lt.mp hk
    have hscale : (k : ℚ) / 1000 * (100 : ℕ) = k / (10 : ℕ) := by push_cast; ring
    have hround := roundHalfEven_natCast_div (a := k) (b := 10) (by norm_num)
    have hint : (k : ℚ) / 1000 ≤ cpuGrid (k / 1000) ↔
        (k : ℤ) ≤ 10 * roundHalfEven ((k : ℚ) / (10 : ℕ)) := by
      rw [cpuGrid_of_le hle, roundTo, hscale, div_le_div_iff₀ (by norm_num) (by norm_num),
        ← Int.cast_le (R := ℚ)]
      push_cast
      constructor <;> intro h <;> linarith
    rw [hint, CpuKept]
    by_cases hup : RoundsUp k 10
    · rw [hround, if_pos hup]
      exact iff_of_true (by omega) (.inr (.inr hup))
    · rw [hround, if_neg hup]
      simp only [hup, hk, false_or, or_false]
      omega

/-- The two memory strings of a request. -/
lemma le_memoryGrid_iff (m : ℕ) : (m : ℚ) ≤ memoryGrid (currentMemGrid m) ↔ MemKept m := by
  by_cases hm : m < 1024
  · have hlt : (m : ℚ) < 1024 := by exact_mod_cast hm
    have hgrid : memoryGrid (currentMemGrid m) = m := by
      have hwhole : memoryGrid m = m := by exact_mod_cast memoryGrid_intCast m
      rw [currentMemGrid, if_pos hlt, hwhole, hwhole]
    rw [hgrid]
    exact iff_of_true le_rfl (.inl hm)
  · have hge : ¬ (m : ℚ) < 1024 := by exact_mod_cast hm
    have hscale : (m : ℚ) / 1024 * (100 : ℕ) = (100 * m : ℕ) / (1024 : ℕ) := by push_cast; ring
    have hround := roundHalfEven_natCast_div (a := 100 * m) (b := 1024) (by norm_num)
    obtain ⟨t, ht⟩ : ∃ t, 100 * m / 1024 = t := ⟨_, rfl⟩
    obtain ⟨r, hr⟩ : ∃ r, 100 * m % 1024 = r := ⟨_, rfl⟩
    have hdiv : (1024 : ℚ) * t + r = 100 * m := by
      exact_mod_cast ht ▸ hr ▸ Nat.div_add_mod (100 * m) 1024
    have hr_lt : (r : ℚ) < 1024 := by
      exact_mod_cast hr ▸ Nat.mod_lt (100 * m) (by norm_num)
    have hcast : (m : ℚ) ≤ memoryGrid (currentMemGrid m) ↔
        (m : ℤ) ≤ roundHalfEven (currentMemGrid m) := by
      rw [memoryGrid, ← Int.cast_le (R := ℚ), Int.cast_natCast]
    rw [hcast, currentMemGrid, if_neg hge, roundTo, hscale, hround, ht, MemKept, hr]
    by_cases hup : RoundsUp (100 * m) 1024
    · -- the GiB string is at least the request, and so is its rounding
      rw [if_pos hup]
      refine iff_of_true (le_roundHalfEven ?_) (.inr (.inr hup))
      push_cast
      linarith
    · -- the GiB string is below the request by `r / 100` MiB
      rw [if_neg hup]
      have hlow : (((t : ℤ) + 0 : ℤ) : ℚ) / (100 : ℕ) * 1024 = ((m : ℤ) : ℚ) - r / 100 := by
        push_cast
        linarith
      simp only [hlow, hup, hm, false_or, or_false]
      constructor
      · intro h
        by_contra hlt
        -- `r` is a multiple of four, so that it is not 50 either
        have hr' : (52 : ℚ) ≤ r := by exact_mod_cast (by omega : 52 ≤ r)
        exact absurd h (not_le.mpr (roundHalfEven_sub_lt (by linarith)))
      · intro hlt
        have hr' : (r : ℚ) < 50 := by exact_mod_cast hlt
        exact le_roundHalfEven_sub (by linarith)

/-! ### The cap -/

/-- A limit that is not below the deployed value caps the current one at a value
that is not below it either. -/
lemma capped_cases {limit : Option PyFloat} {deployed : ℚ} (cur : ℚ)
    (h : ∀ l, limit = some l → lt (fin 0) l = true → le (fin deployed) l = true) :
    ∃ q, capped limit (fin cur) = fin q ∧ (q = cur ∨ deployed ≤ q ∧ q < cur) := by
  by_cases hexceeds : exceeds limit (fin cur) = true
  · rw [capped, if_pos hexceeds]
    cases limit with
    | none => cases hexceeds
    | some l =>
        simp only [exceeds, Option.any_some, Bool.and_eq_true] at hexceeds
        have hle := h l rfl hexceeds.1
        cases l with
        | fin q => exact ⟨q, rfl, .inr ⟨by simpa using hle, by simpa using hexceeds.2⟩⟩
        | inf n => cases n <;> simp [lt] at hexceeds
        | nan => simp at hle
  · exact ⟨cur, by rw [capped, if_neg hexceeds], .inl rfl⟩

/-- A CPU value between the deployed and the current one has the same string. -/
lemma cpuGrid_of_cases {d q : ℚ} (h : q = cpuGrid d ∨ d ≤ q ∧ q < cpuGrid d) :
    cpuGrid q = cpuGrid d := by
  rcases h with rfl | ⟨hlow, hup⟩
  · exact cpuGrid_idem d
  · refine le_antisymm ?_ (cpuGrid_mono hlow)
    calc cpuGrid q ≤ cpuGrid (cpuGrid d) := cpuGrid_mono hup.le
      _ = cpuGrid d := cpuGrid_idem d

/-- A memory value between the deployed and the current one is not rounded below
the deployed one. -/
lemma memoryGrid_of_cases {m : ℕ} {q : ℚ}
    (h : q = currentMemGrid m ∨ (m : ℚ) ≤ q ∧ q < currentMemGrid m) :
    (m : ℚ) ≤ memoryGrid q ↔ MemKept m := by
  rcases h with rfl | ⟨hlow, hup⟩
  · exact le_memoryGrid_iff m
  · have hle : (m : ℚ) ≤ memoryGrid q := by
      rw [memoryGrid]
      exact_mod_cast le_roundHalfEven (n := m) (by exact_mod_cast hlow)
    exact iff_of_true hle ((le_memoryGrid_iff m).mp (hle.trans (memoryGrid_mono hup.le)))

/-- **Keeping the current request**: an evaluation that holds the deployed CPU
request of `k` millicores returns at least this request exactly when the strings
do not lower it, and the same for a memory request of `m` MiB. The limits are not
below the deployed requests. -/
theorem held_request_kept {k m : ℕ} {answer : PromQuery → PromReply} {inp : PolicyInput}
    {out : Evaluation}
    (hcpu : queryPrometheus (answer .cpuRequest) = some (fin (k / 1000)))
    (hmem : queryPrometheus (answer .memoryRequest) = some (fin (m * (1024 * 1024))))
    (hspec : getCurrentResourceSpec answer = some inp.currentRes)
    (hcpuLimit : ∀ l, limitOf parseCpu inp.cpuLimitStr = some l → lt (fin 0) l = true →
      le (fin (k / 1000)) l = true)
    (hmemLimit : ∀ l, limitOf parseMemory inp.memoryLimitStr = some l → lt (fin 0) l = true →
      le (fin m) l = true)
    (hout : evaluateOptimization inp = some out) :
    (CpuHeld inp →
      (le (fin (k / 1000)) (parseCpu out.recommendations.final.cpu) = true ↔ CpuKept k)) ∧
    (MemHeld inp →
      (le (fin m) (parseMemory out.recommendations.final.memory) = true ↔ MemKept m)) := by
  obtain ⟨spec, hspec', hcurrCpu, hcurrMem⟩ := parse_getCurrentResourceSpec m.cast_nonneg hcpu hmem
  rw [hspec] at hspec'
  cases hspec'
  obtain ⟨hformatCpu, hformatMem, -⟩ := evaluateOptimization_eq_some hout
  have hgrid : 0 ≤ cpuGrid (k / 1000) := cpuGrid_nonneg (by positivity)
  constructor
  · intro held
    obtain ⟨q, hq, hcases⟩ := capped_cases (cpuGrid (k / 1000)) hcpuLimit
    have hfinal : (verdict inp).finalCpu = fin q := by
      rw [← hq, ← uncapped_cpu_of_held hgrid hcurrCpu held]
      rfl
    obtain ⟨s, hs, hparse⟩ := parseCpu_formatCpu q
    rw [hfinal, hs] at hformatCpu
    cases hformatCpu
    rw [hparse, le_fin, decide_eq_true_eq, cpuGrid_of_cases hcases, le_cpuGrid_iff]
  · intro held
    obtain ⟨q, hq, hcases⟩ := capped_cases (currentMemGrid m) hmemLimit
    have hfinal : (verdict inp).finalMem = fin q := by
      rw [← hq, ← uncapped_mem_of_held hcurrMem held]
      rfl
    obtain ⟨p, hp, hmem'⟩ := uncapped_mem inp
    have hnonneg : 0 ≤ q := by
      rcases hcases with rfl | ⟨hlow, -⟩
      · rw [uncapped_mem_of_held hcurrMem held] at hmem'
        cases hmem'
        exact hp
      · exact m.cast_nonneg.trans hlow
    obtain ⟨s, hs, hparse⟩ := parseMemory_formatMemory hnonneg
    rw [hfinal, hs] at hformatMem
    cases hformatMem
    rw [hparse, le_fin, decide_eq_true_eq, memoryGrid_of_cases hcases]

/-- The replies of a Prometheus that reports the given requests. -/
def reportedRequests (cpuVal memVal : String) (query : PromQuery) : PromReply :=
  match query with
  | .cpuRequest => .response 200 (.result [some cpuVal])
  | .memoryRequest => .response 200 (.result [some memVal])
  | _ => .response 200 (.result [])

/-- The evaluation of a container that was killed for lack of memory. -/
def afterOomKill (currentRes krrRes : ResourceSpec) : PolicyInput where
  currentRes := currentRes
  krrRes := krrRes
  promMetrics := some ⟨true, 0, none, false⟩
  chronosForecast := none
  cpuDataInsufficient := false
  memDataInsufficient := false
  cpuLimitStr := none
  memoryLimitStr := none

/-- After an OOM kill a request of `1235m` CPU and `512Mi` memory is not lowered. -/
theorem held_request_kept_oom :
    ∃ out, evaluateOptimization (afterOomKill ⟨"1.24", "512Mi"⟩ ⟨"300m", "200Mi"⟩) = some out ∧
      le (fin (1235 / 1000)) (parseCpu out.recommendations.final.cpu) = true ∧
      le (fin 512) (parseMemory out.recommendations.final.memory) = true := by
  have hsome : (evaluateOptimization (afterOomKill ⟨"1.24", "512Mi"⟩ ⟨"300m", "200Mi"⟩)).isSome =
      true := by decide +kernel
  obtain ⟨out, hout⟩ := Option.isSome_iff_exists.mp hsome
  have held : Held (afterOomKill ⟨"1.24", "512Mi"⟩ ⟨"300m", "200Mi"⟩) := .inl ⟨_, rfl, .inl rfl⟩
  have hcpu : queryPrometheus (reportedRequests "1.235" "536870912" .cpuRequest) =
      some (fin ((1235 : ℕ) / 1000)) := by decide +kernel
  have hmem : queryPrometheus (reportedRequests "1.235" "536870912" .memoryRequest) =
      some (fin ((512 : ℕ) * (1024 * 1024))) := by decide +kernel
  have h := held_request_kept hcpu hmem (by decide +kernel) (fun l hl => by cases hl)
    (fun l hl => by cases hl) hout
  exact ⟨out, hout, (h.1 (.inl held)).mpr (by decide +kernel),
    (h.2 (.inl held)).mpr (by decide +kernel)⟩

/-- A container that was killed for lack of memory with `1234m` CPU and `1500Mi`
memory gets smaller requests. -/
theorem held_request_shrinks :
    ∃ out, getCurrentResourceSpec (reportedRequests "1.234" "1572864000") =
        some ⟨"1.23", "1.46Gi"⟩ ∧
      evaluateOptimization (afterOomKill ⟨"1.23", "1.46Gi"⟩ ⟨"300m", "200Mi"⟩) = some out ∧
      out.recommendations.final = ⟨"1.23", "1495Mi"⟩ ∧
      lt (parseCpu out.recommendations.final.cpu) (fin (1234 / 1000)) = true ∧
      lt (parseMemory out.recommendations.final.memory) (fin 1500) = true := by
  have h : (evaluateOptimization (afterOomKill ⟨"1.23", "1.46Gi"⟩ ⟨"300m", "200Mi"⟩)).map
      (fun out => out.recommendations.final) = some ⟨"1.23", "1495Mi"⟩ := by decide +kernel
  obtain ⟨out, hout, hfinal⟩ := Option.map_eq_some_iff.mp h
  refine ⟨out, by decide +kernel, hout, hfinal, ?_, ?_⟩
  · rw [hfinal]
    decide +kernel
  · rw [hfinal]
    decide +kernel

end PolicyEngine

end FinOpsPipeline
