import FinOpsPipeline.Foundations.Program

/-!
The failures that a load test counts, `k6/bank-of-anthos-long-run.js`, and the rates
that `load_k6_summary` of `k6/collect_bank_krr_run.py` computes from them.

* `Session`: the counters, the cookie jar of a virtual user and the answers that are
  still to come. The requests are kept with their answers, and with the failures
  that were counted for each.
* `request`, `login`, `overview`, `payment`, `bankFlow`: the flow. It stops when no
  answer is left, as an interrupted iteration does.
* `CountedTwice`: the answers that `request` counts as a failure and that the
  validation behind it counts again.
* `Accounted`: the counters are the failures of the requests, and an answer is
  counted twice exactly when it is one of those.
* `failures_bounded_iff`: when the accounting of a run is bounded.
-/

open Std.Do

namespace FinOpsPipeline

namespace LoadTest

set_option mvcgen.warning false

/-! ### The state of a run -/

/-- The tag `flow` of a request. -/
inductive FlowTag where
  | login | overview | overviewRetry | payment
  deriving DecidableEq

/-- What `classify4xx` makes of a client error. -/
inductive Classify4xx where
  | business | intentional
  deriving DecidableEq

/-- What an answer does to the cookie `token` of the jar. -/
inductive TokenCookie where
  | keep | set | expire

/-- An answer; the status is 0 when there was none from the server. -/
structure Response where
  status : ℕ
  location : Option String
  body : Option String
  tokenCookie : TokenCookie

/-- The counters of the load test. -/
structure Counters where
  offeredFlows : ℕ
  offeredRequests : ℕ
  successfulRequests : ℕ
  systemFailures : ℕ
  businessFailures : ℕ
  intentional4xx : ℕ
  flowSuccess : List Bool

/-- A request with its answer, and the number of failures counted for it. -/
structure Exchange where
  flow : FlowTag
  response : Response
  failures : ℕ

/-- A virtual user with the counters that all of them share. -/
structure Session where
  counters : Counters
  token : Bool
  responses : List Response
  exchanges : List Exchange

namespace Session

/-- One more failure for the last answer. -/
def addFailure (s : Session) : Session :=
  { s with exchanges := match s.exchanges with
      | [] => []
      | e :: rest => { e with failures := e.failures + 1 } :: rest }

/-- `systemFailures.add(1)`. -/
def addSystemFailure (s : Session) : Session :=
  { s.addFailure with
    counters := { s.counters with systemFailures := s.counters.systemFailures + 1 } }

/-- `businessFailures.add(1)`. -/
def addBusinessFailure (s : Session) : Session :=
  { s.addFailure with
    counters := { s.counters with businessFailures := s.counters.businessFailures + 1 } }

/-- `intentional4xx.add(1)`. -/
def addIntentional4xx (s : Session) : Session :=
  { s with counters := { s.counters with intentional4xx := s.counters.intentional4xx + 1 } }

/-- `successfulRequests.add(1)`. -/
def addSuccessfulRequest (s : Session) : Session :=
  { s with counters := { s.counters with successfulRequests := s.counters.successfulRequests + 1 } }

/-- `offeredRequests.add(1)`. -/
def addOfferedRequest (s : Session) : Session :=
  { s with counters := { s.counters with offeredRequests := s.counters.offeredRequests + 1 } }

/-- `offeredFlows.add(1)`. -/
def addOfferedFlow (s : Session) : Session :=
  { s with counters := { s.counters with offeredFlows := s.counters.offeredFlows + 1 } }

/-- `flowSuccess.add(ok)`. -/
def addFlowSuccess (ok : Bool) (s : Session) : Session :=
  { s with counters := { s.counters with flowSuccess := s.counters.flowSuccess ++ [ok] } }

end Session

/-- A part of the flow, which stops when no answer is left. -/
abbrev Flow := EStateM Unit Session

/-! ### The flow -/

/-- `http.request`: the next answer, whose cookies go to the jar. -/
def send (flow : FlowTag) : Flow Response := do
  let s ← get
  match s.responses with
  | [] => throw ()
  | response :: rest =>
      let token := match response.tokenCookie with
        | .keep => s.token
        | .set => true
        | .expire => false
      set { s with token, responses := rest, exchanges := ⟨flow, response, 0⟩ :: s.exchanges }
      return response

/-- `request`. -/
def request (flow : FlowTag) (classify4xx : Classify4xx) : Flow Response := do
  modify Session.addOfferedRequest
  let response ← send flow
  if response.status = 0 ∨ 500 ≤ response.status then
    modify Session.addSystemFailure
  else if 400 ≤ response.status ∧ classify4xx = .intentional then
    modify Session.addIntentional4xx
  else if 400 ≤ response.status then
    modify Session.addBusinessFailure
  else
    modify Session.addSuccessfulRequest
  return response

/-- `text.includes(part)`. -/
def includes (text part : String) : Bool := decide (part.toList <:+: text.toList)

/-- `(response.headers.Location || '').includes(part)`. -/
def Response.locationIncludes (response : Response) (part : String) : Bool :=
  includes (response.location.getD "") part

/-- `r.body && r.body.includes(part)`. -/
def Response.bodyIncludes (response : Response) (part : String) : Bool :=
  response.body.any fun body => body ≠ "" && includes body part

/-- `login`. -/
def login : Flow Bool := do
  let response ← request .login .business
  let jar ← get
  let ok := decide (response.status = 302) && response.locationIncludes "/home" && jar.token
  if !ok then
    modify Session.addBusinessFailure
  return ok

/-- `ensureAuthenticated`. -/
def ensureAuthenticated : Flow Bool := do
  let jar ← get
  if jar.token then return true
  login

/-- The checks of `overview` on the last answer. -/
def checkOverview (response : Response) : Flow Bool := do
  let ok := decide (response.status = 200) && response.bodyIncludes "Current Balance" &&
    response.bodyIncludes "Transaction History" &&
    response.body.any fun body => body ≠ "" && !includes body "Could Not Load"
  if !ok && decide (response.status < 500) then
    modify Session.addBusinessFailure
  return ok

/-- `overview`. -/
def overview : Flow Bool := do
  let response ← request .overview .business
  if response.status = 302 ∧ response.locationIncludes "/login" = true then
    modify fun s => { s with token := false }
    let loggedIn ← login
    if !loggedIn then return false
    let retry ← request .overviewRetry .business
    checkOverview retry
  else
    checkOverview response

/-- `payment`. -/
def payment : Flow Bool := do
  let response ← request .payment .intentional
  let ok := decide (response.status = 303) && response.locationIncludes "Payment+successful"
  if !ok && decide (response.status < 400) then
    modify Session.addBusinessFailure
  return ok

/-- `AUTH_MODE`. -/
inductive AuthMode where
  | shared | perVu
  deriving DecidableEq

/-- The settings of a load test, with the token that `setup` returned. -/
structure Config where
  authMode : AuthMode
  paymentPercent : ℚ
  token : Option String

/-- `installSharedToken`. -/
def installSharedToken (cfg : Config) : Flow Unit := do
  if cfg.authMode = .shared ∧ cfg.token.any (· ≠ "") = true then
    modify fun s => { s with token := true }

/-- `first && second`. -/
def both (first second : Flow Bool) : Flow Bool := do
  let ok ← first
  if ok then second else return false

/-- `bankFlow`, where `random` is what `Math.random()` returns. -/
def bankFlow (cfg : Config) (random : ℚ) : Flow Unit := do
  modify Session.addOfferedFlow
  installSharedToken cfg
  let viewed ← both ensureAuthenticated overview
  let ok ←
    if viewed = true ∧ 0 < cfg.paymentPercent ∧ random * 100 < cfg.paymentPercent then
      both payment overview
    else pure viewed
  modify (Session.addFlowSuccess ok)

/-- What an iteration of a virtual user meets: its cookie jar, the random number and
the answers. -/
structure Iteration where
  token : Bool
  random : ℚ
  responses : List Response

/-- The state before the first iteration. -/
def Session.start : Session := ⟨⟨0, 0, 0, 0, 0, 0, []⟩, false, [], []⟩

/-- An iteration. The counters are sums, so that the order in which the iterations of
different users take their turns does not matter. -/
def runIteration (cfg : Config) (s : Session) (it : Iteration) : Session :=
  (bankFlow cfg it.random).after { s with token := it.token, responses := it.responses }

/-- A run of iterations. -/
def runIterations (cfg : Config) (its : List Iteration) : Session :=
  its.foldl (runIteration cfg) Session.start

/-! ### The summary -/

/-- The counts and rates of `load_k6_summary`. -/
structure FailureRates where
  offeredRequests : ℕ
  systemFailures : ℕ
  businessFailures : ℕ
  systemErrorRate : Option ℚ
  businessFailureRate : Option ℚ

/-- `load_k6_summary`, the part on failures. -/
def loadK6Summary (counters : Counters) : FailureRates where
  offeredRequests := counters.offeredRequests
  systemFailures := counters.systemFailures
  businessFailures := counters.businessFailures
  systemErrorRate :=
    if counters.offeredRequests ≠ 0 then some (counters.systemFailures / counters.offeredRequests)
    else none
  businessFailureRate :=
    if counters.offeredRequests ≠ 0 then
      some (counters.businessFailures / counters.offeredRequests)
    else none

/-! ### What is counted for a request -/

/-- The answers that `request` counts as a failure and that the validation behind it
counts again. Only the validation of a payment leaves all failures of the status to
`request`, up to status 0. -/
def CountedTwice : FlowTag → ℕ → Prop
  | .login, status => status = 0 ∨ 400 ≤ status
  | .overview, status => status = 0 ∨ 400 ≤ status ∧ status < 500
  | .overviewRetry, status => status = 0 ∨ 400 ≤ status ∧ status < 500
  | .payment, status => status = 0

/-- The failures that `request` counts for a status. -/
def firstFailures (classify4xx : Classify4xx) (status : ℕ) : ℕ :=
  if status = 0 ∨ 500 ≤ status then 1
  else if 400 ≤ status ∧ classify4xx = .intentional then 0
  else if 400 ≤ status then 1
  else 0

lemma firstFailures_business (status : ℕ) :
    firstFailures .business status = if status = 0 ∨ 400 ≤ status then 1 else 0 := by
  simp only [firstFailures, reduceCtorEq, and_false, if_false]
  split_ifs <;> omega

lemma firstFailures_intentional (status : ℕ) :
    firstFailures .intentional status = if status = 0 ∨ 500 ≤ status then 1 else 0 := by
  simp only [firstFailures, and_true]
  split_ifs <;> rfl

/-- The request was counted at most once, unless its answer is counted twice. -/
def Exchange.Settled (e : Exchange) : Prop :=
  e.failures ≤ 1 ↔ ¬ CountedTwice e.flow e.response.status

/-- The counters are the failures of the requests. -/
structure Tallied (s : Session) : Prop where
  counted : s.counters.systemFailures + s.counters.businessFailures =
    (s.exchanges.map Exchange.failures).sum
  offered : s.exchanges.length ≤ s.counters.offeredRequests

/-- **The accounting** between the steps of a flow. -/
structure Accounted (s : Session) : Prop extends Tallied s where
  settled : ∀ e ∈ s.exchanges, e.Settled

/-- The accounting behind a request, before its validation. -/
structure Pending (flow : FlowTag) (response : Response) (failures : ℕ) (s : Session) : Prop
    extends Tallied s where
  last : ∃ rest, s.exchanges = ⟨flow, response, failures⟩ :: rest ∧ ∀ e ∈ rest, e.Settled

/-- The accounting of `s` is that of `t`, up to a request without an answer. -/
structure SameTally (s t : Session) : Prop where
  exchanges : t.exchanges = s.exchanges
  system : t.counters.systemFailures = s.counters.systemFailures
  business : t.counters.businessFailures = s.counters.businessFailures
  offered : s.counters.offeredRequests ≤ t.counters.offeredRequests

lemma SameTally.tallied {s t : Session} (h : SameTally s t) (hs : Tallied s) : Tallied t where
  counted := by rw [h.system, h.business, h.exchanges, hs.counted]
  offered := by
    rw [h.exchanges]
    exact hs.offered.trans h.offered

lemma SameTally.accounted {s t : Session} (h : SameTally s t) (hs : Accounted s) : Accounted t where
  toTallied := h.tallied hs.toTallied
  settled := h.exchanges ▸ hs.settled

lemma Accounted.start : Accounted Session.start := ⟨⟨rfl, le_rfl⟩, fun _ h => by cases h⟩

namespace Pending

variable {flow : FlowTag} {response : Response} {failures : ℕ} {s t : Session}

lemma same (h : SameTally s t) (hs : Pending flow response failures s) :
    Pending flow response failures t where
  toTallied := h.tallied hs.toTallied
  last := h.exchanges ▸ hs.last

/-- A request whose failures are settled needs no further validation. -/
lemma accounted (h : Pending flow response failures s)
    (hsettled : failures ≤ 1 ↔ ¬ CountedTwice flow response.status) : Accounted s := by
  obtain ⟨rest, hlast, hrest⟩ := h.last
  refine ⟨h.toTallied, ?_⟩
  rw [hlast]
  exact List.forall_mem_cons.mpr ⟨hsettled, hrest⟩

/-- One more failure, in the counter `system` or `business`, is one for the last request. -/
lemma add (h : Pending flow response failures s) (hexchanges : t.exchanges = s.addFailure.exchanges)
    (hcount : t.counters.systemFailures + t.counters.businessFailures =
      s.counters.systemFailures + s.counters.businessFailures + 1)
    (hoffered : t.counters.offeredRequests = s.counters.offeredRequests) :
    Pending flow response (failures + 1) t := by
  obtain ⟨rest, hlast, hrest⟩ := h.last
  have hlast' : t.exchanges = ⟨flow, response, failures + 1⟩ :: rest := by
    rw [hexchanges, Session.addFailure, hlast]
  have hcounted := h.counted
  have hlength := h.offered
  rw [hlast] at hcounted hlength
  refine ⟨⟨?_, ?_⟩, rest, hlast', hrest⟩
  · rw [hlast', hcount, hcounted]
    simp only [List.map_cons, List.sum_cons]
    omega
  · rw [hlast', hoffered]
    exact hlength

lemma addBusinessFailure (h : Pending flow response failures s) :
    Pending flow response (failures + 1) s.addBusinessFailure :=
  h.add rfl (Nat.add_assoc _ _ _).symm rfl

lemma addSystemFailure (h : Pending flow response failures s) :
    Pending flow response (failures + 1) s.addSystemFailure :=
  h.add rfl (Nat.add_right_comm _ _ _) rfl

end Pending

/-! ### One step after the other -/

/-- An offered request that has its answer is pending. -/
lemma send_spec (flow : FlowTag) :
    ⦃fun s => ⌜Accounted s ∧ s.exchanges.length < s.counters.offeredRequests⌝⦄ send flow
    ⦃post⟨fun response s => ⌜Pending flow response 0 s⌝, fun _ s => ⌜Accounted s⌝⟩⦄ := by
  mvcgen [send]
  case vc1.h_1 s h _ => exact h.1
  case vc2.h_2 s h response rest _ _ =>
    refine ⟨⟨?_, ?_⟩, _, rfl, h.1.settled⟩
    · simpa using h.1.counted
    · simpa using h.2

/-- **A request** leaves its answer to the validation, with what was counted so far. -/
lemma request_spec (flow : FlowTag) (classify4xx : Classify4xx) :
    ⦃fun s => ⌜Accounted s⌝⦄ request flow classify4xx
    ⦃post⟨fun response s => ⌜Pending flow response (firstFailures classify4xx response.status) s⌝,
      fun _ s => ⌜Accounted s⌝⟩⦄ := by
  mvcgen [request, send_spec]
  case vc1.pre s h _ =>
    have hsame : SameTally s s.addOfferedRequest := ⟨rfl, rfl, rfl, Nat.le_succ _⟩
    exact ⟨hsame.accounted h, Nat.lt_succ_of_le h.offered⟩
  case vc2.post.success.isTrue h _ hpending _ =>
    rw [firstFailures, if_pos h]
    exact hpending.addSystemFailure
  case vc3.post.success.isFalse.isTrue hserver h s hpending _ =>
    rw [firstFailures, if_neg hserver, if_pos h]
    exact Pending.same (s := s) ⟨rfl, rfl, rfl, le_rfl⟩ hpending
  case vc4.post.success.isFalse.isFalse.isTrue hserver hintentional h _ hpending _ =>
    rw [firstFailures, if_neg hserver, if_neg hintentional, if_pos h]
    exact hpending.addBusinessFailure
  case vc5.post.success.isFalse.isFalse.isFalse hserver hintentional h s hpending _ =>
    rw [firstFailures, if_neg hserver, if_neg hintentional, if_neg h]
    exact Pending.same (s := s) ⟨rfl, rfl, rfl, le_rfl⟩ hpending

/-- **`login`** validates its answer whatever the status was. -/
lemma login_spec :
    ⦃fun s => ⌜Accounted s⌝⦄ login
    ⦃post⟨fun _ s => ⌜Accounted s⌝, fun _ s => ⌜Accounted s⌝⟩⦄ := by
  mvcgen [login, request_spec]
  case vc2.post.success.isTrue response s hpending _ _ _ _ =>
    refine hpending.addBusinessFailure.accounted ?_
    rw [firstFailures_business, CountedTwice]
    split <;> omega
  case vc3.post.success.isFalse response s hpending ok _ hok =>
    have hstatus : response.status = 302 := by
      simp only [ok, Bool.not_eq_true', Bool.not_eq_false, Bool.and_eq_true, decide_eq_true_eq]
        at hok
      exact hok.1.1
    refine hpending.accounted ?_
    rw [hstatus]
    simp [firstFailures_business, CountedTwice]

/-- `ensureAuthenticated` sends nothing or logs in. -/
lemma ensureAuthenticated_spec :
    ⦃fun s => ⌜Accounted s⌝⦄ ensureAuthenticated
    ⦃post⟨fun _ s => ⌜Accounted s⌝, fun _ s => ⌜Accounted s⌝⟩⦄ := by
  mvcgen [ensureAuthenticated, login_spec]

/-- **The checks of `overview`** leave the failures of a server to `request`. -/
lemma checkOverview_spec (flow : FlowTag) (hflow : flow = .overview ∨ flow = .overviewRetry)
    (response : Response) :
    ⦃fun s => ⌜Pending flow response (firstFailures .business response.status) s⌝⦄
    checkOverview response
    ⦃post⟨fun _ s => ⌜Accounted s⌝, fun _ s => ⌜Accounted s⌝⟩⦄ := by
  have hcounted : CountedTwice flow response.status ↔
      response.status = 0 ∨ 400 ≤ response.status ∧ response.status < 500 := by
    rcases hflow with rfl | rfl <;> rfl
  mvcgen [checkOverview]
  case vc1.isTrue ok _ hok s hpending _ =>
    have hstatus : response.status < 500 := by
      simp only [Bool.and_eq_true, decide_eq_true_eq] at hok
      exact hok.2
    refine hpending.addBusinessFailure.accounted ?_
    rw [hcounted, firstFailures_business]
    split <;> omega
  case vc2.isFalse ok _ hok s hpending =>
    have hstatus : response.status = 200 ∨ 500 ≤ response.status := by
      simp only [ok, Bool.and_eq_true, Bool.not_eq_true', decide_eq_true_eq] at hok
      grind
    refine hpending.accounted ?_
    rw [hcounted, firstFailures_business]
    split <;> omega

/-- **`overview`** validates only the last of its answers. -/
lemma overview_spec :
    ⦃fun s => ⌜Accounted s⌝⦄ overview
    ⦃post⟨fun _ s => ⌜Accounted s⌝, fun _ s => ⌜Accounted s⌝⟩⦄ := by
  have hfirst := fun r => checkOverview_spec .overview (.inl rfl) r
  have hretry := fun r => checkOverview_spec .overviewRetry (.inr rfl) r
  mvcgen [overview, request_spec, login_spec]
  case vc2.post.success.isTrue.pre response h s hpending _ =>
    have hsettled : firstFailures .business response.status ≤ 1 ↔
        ¬ CountedTwice .overview response.status := by
      rw [h.1]
      simp [firstFailures_business, CountedTwice]
    exact SameTally.accounted (s := s) ⟨rfl, rfl, rfl, le_rfl⟩ (hpending.accounted hsettled)
  case vc5.post.success.isTrue.post.success.isFalse.post.success retry => exact hretry retry
  case vc6.post.success.isFalse response _ => exact hfirst response

/-- **`payment`** leaves the failures of a status to `request`. -/
lemma payment_spec :
    ⦃fun s => ⌜Accounted s⌝⦄ payment
    ⦃post⟨fun _ s => ⌜Accounted s⌝, fun _ s => ⌜Accounted s⌝⟩⦄ := by
  mvcgen [payment, request_spec]
  case vc2.post.success.isTrue response ok _ hok s hpending _ =>
    have hstatus : response.status < 400 := by
      simp only [Bool.and_eq_true, decide_eq_true_eq] at hok
      exact hok.2
    refine hpending.addBusinessFailure.accounted ?_
    rw [firstFailures_intentional, CountedTwice]
    split <;> omega
  case vc3.post.success.isFalse response ok _ hok s hpending =>
    have hstatus : response.status = 303 ∨ 400 ≤ response.status := by
      simp only [ok, Bool.and_eq_true, Bool.not_eq_true', decide_eq_true_eq] at hok
      grind
    refine hpending.accounted ?_
    rw [firstFailures_intentional, CountedTwice]
    split <;> omega

lemma installSharedToken_spec (cfg : Config) :
    ⦃fun s => ⌜Accounted s⌝⦄ installSharedToken cfg
    ⦃post⟨fun _ s => ⌜Accounted s⌝, fun _ s => ⌜Accounted s⌝⟩⦄ := by
  mvcgen [installSharedToken]
  case vc1.isTrue s h _ => exact SameTally.accounted (s := s) ⟨rfl, rfl, rfl, le_rfl⟩ h

/-- Steps that keep the accounting keep it one after the other. -/
lemma both_spec {first second : Flow Bool}
    (hfirst : ⦃fun s => ⌜Accounted s⌝⦄ first
      ⦃post⟨fun _ s => ⌜Accounted s⌝, fun _ s => ⌜Accounted s⌝⟩⦄)
    (hsecond : ⦃fun s => ⌜Accounted s⌝⦄ second
      ⦃post⟨fun _ s => ⌜Accounted s⌝, fun _ s => ⌜Accounted s⌝⟩⦄) :
    ⦃fun s => ⌜Accounted s⌝⦄ both first second
    ⦃post⟨fun _ s => ⌜Accounted s⌝, fun _ s => ⌜Accounted s⌝⟩⦄ := by
  mvcgen [both, hfirst, hsecond]

/-- **The whole flow** keeps the accounting, also when it is interrupted. -/
lemma bankFlow_spec (cfg : Config) (random : ℚ) :
    ⦃fun s => ⌜Accounted s⌝⦄ bankFlow cfg random
    ⦃post⟨fun _ s => ⌜Accounted s⌝, fun _ s => ⌜Accounted s⌝⟩⦄ := by
  have hviewed := both_spec ensureAuthenticated_spec overview_spec
  have hpaid := both_spec payment_spec overview_spec
  mvcgen [bankFlow, installSharedToken_spec, hviewed, hpaid]
  case vc1.pre s h _ => exact SameTally.accounted (s := s) ⟨rfl, rfl, rfl, le_rfl⟩ h
  case vc4.post.success.post.success.isTrue.post.success s h _ =>
    exact SameTally.accounted (s := s) ⟨rfl, rfl, rfl, le_rfl⟩ h
  case vc5.post.success.post.success.isFalse s h _ =>
    exact SameTally.accounted (s := s) ⟨rfl, rfl, rfl, le_rfl⟩ h

/-! ### Whole runs -/

/-- An iteration keeps the accounting. -/
lemma Accounted.runIteration {cfg : Config} {s : Session} (h : Accounted s) (it : Iteration) :
    Accounted (runIteration cfg s it) := by
  have hstart : Accounted { s with token := it.token, responses := it.responses } :=
    SameTally.accounted (s := s) ⟨rfl, rfl, rfl, le_rfl⟩ h
  exact EStateM.after_of_triple (bankFlow_spec cfg it.random) hstart

/-- **Every run is accounted for.** -/
lemma runIterations_accounted (cfg : Config) (its : List Iteration) :
    Accounted (runIterations cfg its) := by
  rw [runIterations]
  generalize hs : Session.start = s
  have h : Accounted s := hs ▸ Accounted.start
  clear hs
  induction its generalizing s with
  | nil => exact h
  | cons it its ih => exact ih _ (h.runIteration it)

/-- A rate is missing, or lies between 0 and 1. -/
def IsRate (rate : Option ℚ) : Prop := ∀ r, rate = some r → 0 ≤ r ∧ r ≤ 1

/-- **The accounting is bounded**: no answer is counted as more than one failure, there
are no more failures than requests, and the rates are rates. -/
structure FailuresBounded (s : Session) : Prop where
  once : ∀ e ∈ s.exchanges, e.failures ≤ 1
  total : s.counters.systemFailures + s.counters.businessFailures ≤ s.counters.offeredRequests
  systemErrorRate : IsRate (loadK6Summary s.counters).systemErrorRate
  businessFailureRate : IsRate (loadK6Summary s.counters).businessFailureRate

/-- A part of the requests is a rate of them. -/
lemma isRate_of_le {part whole : ℕ} (h : part ≤ whole) :
    IsRate (if whole ≠ 0 then some ((part : ℚ) / whole) else none) := by
  intro r hr
  split at hr
  · cases hr
    have hle : (part : ℚ) ≤ whole := by exact_mod_cast h
    exact ⟨by positivity, div_le_one_of_le₀ hle (by positivity)⟩
  · cases hr

/-- **The failures of a run are bounded** exactly when no request has an answer that is
counted twice: a login that has no answer or an error status, an overview that has no
answer or a client error, a payment that has no answer. -/
theorem failures_bounded_iff (cfg : Config) (its : List Iteration) :
    FailuresBounded (runIterations cfg its) ↔
      ∀ e ∈ (runIterations cfg its).exchanges, ¬ CountedTwice e.flow e.response.status := by
  have h := runIterations_accounted cfg its
  generalize runIterations cfg its = s at h ⊢
  constructor
  · exact fun hbounded e he => (h.settled e he).mp (hbounded.once e he)
  · intro hnever
    have honce : ∀ e ∈ s.exchanges, e.failures ≤ 1 := fun e he =>
      (h.settled e he).mpr (hnever e he)
    have hsum : (s.exchanges.map Exchange.failures).sum ≤ s.exchanges.length := by
      simpa using List.sum_le_card_nsmul (s.exchanges.map Exchange.failures) 1
        (by simpa using honce)
    have htotal := h.counted
    have hoffered := h.offered
    exact
      { once := honce
        total := by omega
        systemErrorRate := isRate_of_le (by omega)
        businessFailureRate := isRate_of_le (by omega) }

/-- A login that is refused: one request, two failures. -/
theorem refused_login_counted_twice :
    let s := runIterations ⟨.perVu, 0, none⟩ [⟨false, 0, [⟨401, none, none, .keep⟩]⟩]
    s.counters.offeredRequests = 1 ∧ s.counters.businessFailures = 2 ∧
      (loadK6Summary s.counters).businessFailureRate = some 2 ∧ ¬ FailuresBounded s := by
  refine ⟨by decide +kernel, by decide +kernel, by decide +kernel, fun h => ?_⟩
  exact absurd h.total (by decide +kernel)

end LoadTest

end FinOpsPipeline
