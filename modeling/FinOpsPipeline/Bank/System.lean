import FinOpsPipeline.Bank.Payments

/-!
The ledger services of the bank at work.

Any number of ledger writers and balance readers serve requests over one ledger. A payment is
checked, the balance of a local sender is asked from some reader, and the row is inserted,
committed and its uuid remembered, with the steps of the other requests in between. The
ids of the rows are given out at the insertion, so that rows may be committed in another order,
or not at all. A reader may start at any time; one that is started again is a new one.

* `State`, `Act`, `step`: the services, one operation on shared data at a time.
* `branch`, `morning`, `payRent`: services that can be run.
* `Steps`, `steps_of_step`: what a step can do.
* `Grants`, `Steps.funded`, `Steps.saving`: how a payment comes to be written.
-/

namespace FinOpsPipeline

namespace Bank

open Follower

/-- What the services are deployed with: the local routing number, and the claim `acct` of a
token that the public key verifies at a time. -/
structure Deployment where
  localRoutingNum : String
  verify : ℤ → String → Option (Option String)

/-- A balance reader, with its requests named by the threads `τ`. -/
abbrev BalanceReader (τ : Type*) := Reader τ Transaction Posting String ℤ

/-- Where a request is: it has passed the checks and has to ask for the balance, it waits for
the loader of reader `i`, it may be written, its row is inserted, or it is committed. -/
inductive Phase (ι ω : Type*) where
  | idle
  | checked (w : ω) (token : String) (tx : Transfer)
  | loading (w : ω) (tx : Transfer) (i : ι)
  | lookup (i : ι)
  | funded (w : ω) (tx : Transfer)
  | saving (w : ω) (tx : Transfer) (transactionId timestamp : ℤ)
  | saved (w : ω) (uuid : String)
deriving DecidableEq

/-- The clock, the next id and the rows of the table, the readers that have started, the uuids
of each writer with the time of their entry, and the requests. -/
structure State (ι τ ω : Type*) where
  now : ℤ
  nextId : ℤ
  log : List Transaction
  readers : ι → Option (BalanceReader τ)
  submitted : ω → String → Option ℤ
  phase : τ → Phase ι ω

/-- What a reader does on its own. -/
inductive Background where
  | poll
  | fail
  | work
  | evict (accountId : String)
deriving DecidableEq

/-- The move of the follower. -/
def Background.move {τ : Type*} : Background → Move τ String
  | poll => .poll
  | fail => .fail
  | work => .work
  | evict a => .evict a

/-- The steps: time passes, a reader starts, with the ledger reached or not, or works; a payment
is submitted, asks a reader, is answered, inserted, committed, remembered, or fails; and a
balance is asked for. -/
inductive Act (ι τ ω : Type*) where
  | tick (seconds : ℕ)
  | boot (i : ι) (reached : Bool)
  | run (i : ι) (b : Background)
  | submit (t : τ) (w : ω) (header : Option String) (r : Request)
  | ask (t : τ) (i : ι)
  | get (t : τ) (i : ι) (header : Option String) (accountId : String)
  | answer (t : τ)
  | insert (t : τ)
  | commit (t : τ)
  | remember (t : τ)
  | abort (t : τ)
deriving DecidableEq

/-- `expireAfterWrite` of the uuids, in seconds. -/
def expireAfterWrite : ℤ := 3600

variable {ι τ ω : Type*} [DecidableEq ι] [DecidableEq τ] [DecidableEq ω]

namespace State

/-- The uuid is in the cache of the writer. -/
def seen (s : State ι τ ω) (w : ω) (uuid : String) : Bool :=
  match s.submitted w uuid with
  | none => false
  | some put => s.now - put < expireAfterWrite

/-- The request is in the given phase. -/
def setPhase (s : State ι τ ω) (t : τ) (p : Phase ι ω) : State ι τ ω :=
  { s with phase := Function.update s.phase t p }

/-- The reader is in the given state. -/
def setReader (s : State ι τ ω) (i : ι) (r : BalanceReader τ) : State ι τ ω :=
  { s with readers := Function.update s.readers i (some r) }

/-- The next id is given out. -/
def takeId (s : State ι τ ω) : State ι τ ω := { s with nextId := s.nextId + 1 }

/-- A row is committed. -/
def append (s : State ι τ ω) (row : Transaction) : State ι τ ω := { s with log := s.log ++ [row] }

/-- The uuid is entered in the cache of the writer. -/
def remember (s : State ι τ ω) (w : ω) (uuid : String) : State ι τ ω :=
  { s with submitted :=
      Function.update s.submitted w (Function.update (s.submitted w) uuid (some s.now)) }

end State

/-- What becomes of a payment with the balance of its sender. -/
def Phase.replied (w : ω) (tx : Transfer) (balance : ℤ) : Phase ι ω :=
  if covers balance tx then .funded w tx else .idle

/-- What becomes of a payment that has passed the checks: only a local sender has a balance. -/
def Phase.admitted (localRoutingNum : String) (w : ω) (token : String) (tx : Transfer) :
    Phase ι ω :=
  if tx.fromRoutingNum = localRoutingNum then .checked w token tx else .funded w tx

variable (d : Deployment)

/-- A reader of the ledger moves. -/
def moveReader (s : State ι τ ω) (i : ι) (m : Move τ String) : Option (State ι τ ω) :=
  match s.readers i with
  | none => none
  | some r =>
      (r.move (feed d.localRoutingNum) (balanceCell d.localRoutingNum) s.log m).map (s.setReader i)

/-- `getBalance` for a thread: it is refused, answered from the cache, or begins to load. -/
def getBalance (s : State ι τ ω) (t : τ) (i : ι) (header : Option String) (accountId : String)
    (refused : State ι τ ω) (hit : ℤ → State ι τ ω) (waiting : Phase ι ω) :
    Option (State ι τ ω) :=
  match s.readers i with
  | none => none
  | some r =>
      match authorize d.verify s.now header accountId with
      | .error _ => some refused
      | .ok _ =>
          match r.cache accountId with
          | some balance => some (hit balance)
          | none => (moveReader d s i (.query t accountId)).map (·.setPhase t waiting)

/-- One step, `none` when it is not possible. -/
def step (s : State ι τ ω) : Act ι τ ω → Option (State ι τ ω)
  | .tick seconds => some { s with now := s.now + seconds }
  | .boot i reached =>
      match s.readers i with
      | some _ => none
      | none =>
          let F := feed d.localRoutingNum
          some (s.setReader i (Reader.boot (if reached then lastId F s.log else F.start)))
  | .run i b => moveReader d s i b.move
  | .submit t w header r =>
      match s.phase t with
      | .idle =>
          match precheck d.localRoutingNum d.verify s.now (s.seen w) header r with
          | .error _ => some s
          | .ok (token, tx) => some (s.setPhase t (.admitted d.localRoutingNum w token tx))
      | _ => none
  | .ask t i =>
      match s.phase t with
      | .checked w token tx =>
          getBalance d s t i (some ("Bearer " ++ token)) tx.fromAccountNum (s.setPhase t .idle)
            (fun balance => s.setPhase t (.replied w tx balance)) (.loading w tx i)
      | _ => none
  | .get t i header accountId =>
      match s.phase t with
      | .idle => getBalance d s t i header accountId s (fun _ => s) (.lookup i)
      | _ => none
  | .answer t =>
      match s.phase t with
      | .loading w tx i =>
          match (s.readers i).bind (·.loads t) with
          | none => none
          | some (_, balance) =>
              (moveReader d s i (.store t)).map (·.setPhase t (.replied w tx balance))
      | .lookup i => (moveReader d s i (.store t)).map (·.setPhase t .idle)
      | _ => none
  | .insert t =>
      match s.phase t with
      | .funded w tx =>
          some (s.takeId.setPhase t (.saving w tx s.nextId s.now))
      | _ => none
  | .commit t =>
      match s.phase t with
      | .saving w tx transactionId timestamp =>
          some ((s.append (tx.row transactionId timestamp)).setPhase t (.saved w tx.uuid))
      | _ => none
  | .remember t =>
      match s.phase t with
      | .saved w uuid =>
          some ((s.remember w uuid).setPhase t .idle)
      | _ => none
  | .abort t =>
      match s.phase t with
      | .checked .. | .funded .. | .saving .. | .saved .. => some (s.setPhase t .idle)
      | _ => none

/-- A ledger to begin with: its ids are in use, every amount is positive, no account pays
itself, and every payer has been paid. -/
structure Founded (localRoutingNum : String) (log : List Transaction) : Prop where
  placed : WellPlaced (feed localRoutingNum) log
  positive : ∀ t ∈ log, 0 < t.amount
  proper : ∀ t ∈ log, t.Proper
  grounded : Grounded localRoutingNum log

/-- The services over a ledger, before any of them has started. -/
def bank (log₀ : List Transaction) : System (State ι τ ω) (Act ι τ ω) where
  init s := Founded d.localRoutingNum log₀ ∧
    ∃ now nextId, 0 ≤ nextId ∧ (∀ t ∈ log₀, t.transactionId < nextId) ∧
      s = ⟨now, nextId, log₀, fun _ => none, fun _ _ => none, fun _ => .idle⟩
  step := step d

/-! ### A branch -/

/-- A deployment in which one user can sign in. -/
def branch : Deployment where
  localRoutingNum := "883745000"
  verify _ token := if token = "testuser" then some (some "1011226111") else none

/-- What the user has got from another bank. -/
def salary : Transaction :=
  ⟨1, "9099791699", "808889588", "1011226111", "883745000", 250, 0⟩

/-- What the user pays to another one of the bank. -/
def rent : Request :=
  ⟨some "1011226111", some "883745000", some "1033623433", some "883745000", some 200, some "rent"⟩

/-- The services before the first of them starts. -/
def morning : State Bool Bool Unit :=
  ⟨0, 2, [salary], fun _ => none, fun _ _ => none, fun _ => .idle⟩

lemma morning_init : (bank branch [salary]).init morning := by
  refine ⟨⟨⟨?_, ?_⟩, ?_, ?_, ?_⟩, 0, 2, by decide, ?_, rfl⟩
  · exact List.nodup_singleton _
  · decide
  · decide
  · decide +kernel
  · exact .singleton (by decide +kernel)
  · decide

/-- The rent is paid, with the balance of the first reader. -/
def payRent : List (Act Bool Bool Unit) :=
  [.submit true () (some "Bearer testuser") rent, .ask true true, .answer true, .insert true,
    .commit true, .remember true]

/-! ### What a step can do -/

/-- The steps of the bank. -/
inductive Steps (s : State ι τ ω) : Act ι τ ω → State ι τ ω → Prop where
  | tick {n : ℕ} : Steps s (.tick n) { s with now := s.now + n }
  | boot {i : ι} {reached : Bool} : s.readers i = none → Steps s (.boot i reached)
      (s.setReader i (Reader.boot (if reached then lastId (feed d.localRoutingNum) s.log else -1)))
  | run {i : ι} {b : Background} {r r' : BalanceReader τ} : s.readers i = some r →
      r.move (feed d.localRoutingNum) (balanceCell d.localRoutingNum) s.log b.move = some r' →
      Steps s (.run i b) (s.setReader i r')
  | rejected {t : τ} {w : ω} {header : Option String} {r : Request} {e : Failure} :
      precheck d.localRoutingNum d.verify s.now (s.seen w) header r = .error e →
      Steps s (.submit t w header r) s
  | admitted {t : τ} {w : ω} {header : Option String} {r : Request} {token : String}
      {tx : Transfer} : s.phase t = .idle →
      precheck d.localRoutingNum d.verify s.now (s.seen w) header r = .ok (token, tx) →
      Steps s (.submit t w header r) (s.setPhase t (.admitted d.localRoutingNum w token tx))
  | refused {t : τ} {i : ι} {w : ω} {token : String} {tx : Transfer} {e : Failure} :
      s.phase t = .checked w token tx →
      authorize d.verify s.now (some ("Bearer " ++ token)) tx.fromAccountNum = .error e →
      Steps s (.ask t i) (s.setPhase t .idle)
  | hit {t : τ} {i : ι} {w : ω} {token : String} {tx : Transfer} {r : BalanceReader τ}
      {balance : ℤ} : s.phase t = .checked w token tx →
      authorize d.verify s.now (some ("Bearer " ++ token)) tx.fromAccountNum = .ok () →
      s.readers i = some r → r.cache tx.fromAccountNum = some balance →
      Steps s (.ask t i) (s.setPhase t (.replied w tx balance))
  | miss {t : τ} {i : ι} {w : ω} {token : String} {tx : Transfer} {r r' : BalanceReader τ} :
      s.phase t = .checked w token tx → s.readers i = some r → r.cache tx.fromAccountNum = none →
      r.move (feed d.localRoutingNum) (balanceCell d.localRoutingNum) s.log
        (.query t tx.fromAccountNum) = some r' →
      authorize d.verify s.now (some ("Bearer " ++ token)) tx.fromAccountNum = .ok () →
      Steps s (.ask t i) ((s.setReader i r').setPhase t (.loading w tx i))
  | got {t : τ} {i : ι} {header : Option String} {a : String} :
      ((∃ e, authorize d.verify s.now header a = .error e) ∨
        ∃ r balance, s.readers i = some r ∧ r.cache a = some balance) →
      Steps s (.get t i header a) s
  | getMiss {t : τ} {i : ι} {header : Option String} {a : String} {r r' : BalanceReader τ} :
      s.phase t = .idle → s.readers i = some r →
      r.move (feed d.localRoutingNum) (balanceCell d.localRoutingNum) s.log (.query t a) = some r' →
      authorize d.verify s.now header a = .ok () → r.cache a = none →
      Steps s (.get t i header a) ((s.setReader i r').setPhase t (.lookup i))
  | answered {t : τ} {i : ι} {w : ω} {tx : Transfer} {r r' : BalanceReader τ} {a : String}
      {balance : ℤ} : s.phase t = .loading w tx i → s.readers i = some r →
      r.loads t = some (a, balance) →
      r.move (feed d.localRoutingNum) (balanceCell d.localRoutingNum) s.log (.store t) = some r' →
      Steps s (.answer t) ((s.setReader i r').setPhase t (.replied w tx balance))
  | loaded {t : τ} {i : ι} {r r' : BalanceReader τ} : s.phase t = .lookup i →
      s.readers i = some r →
      r.move (feed d.localRoutingNum) (balanceCell d.localRoutingNum) s.log (.store t) = some r' →
      Steps s (.answer t) ((s.setReader i r').setPhase t .idle)
  | inserted {t : τ} {w : ω} {tx : Transfer} : s.phase t = .funded w tx →
      Steps s (.insert t) (s.takeId.setPhase t (.saving w tx s.nextId s.now))
  | committed {t : τ} {w : ω} {tx : Transfer} {transactionId timestamp : ℤ} :
      s.phase t = .saving w tx transactionId timestamp →
      Steps s (.commit t)
        ((s.append (tx.row transactionId timestamp)).setPhase t (.saved w tx.uuid))
  | remembered {t : τ} {w : ω} {uuid : String} : s.phase t = .saved w uuid →
      Steps s (.remember t) ((s.remember w uuid).setPhase t .idle)
  | aborted {t : τ} : (∀ w tx i, s.phase t ≠ .loading w tx i) →
      Steps s (.abort t) (s.setPhase t .idle)

omit [DecidableEq ω] in
lemma moveReader_eq {s s' : State ι τ ω} {i : ι} {m : Move τ String}
    (h : moveReader d s i m = some s') : ∃ r r', s.readers i = some r ∧
      r.move (feed d.localRoutingNum) (balanceCell d.localRoutingNum) s.log m = some r' ∧
      s' = s.setReader i r' := by
  rw [moveReader] at h
  split at h
  case h_1 => cases h
  case h_2 r hr =>
    obtain ⟨r', hmove, rfl⟩ := Option.map_eq_some_iff.mp h
    exact ⟨r, r', hr, hmove, rfl⟩

omit [DecidableEq ω] in
/-- The ways a balance request can go. -/
lemma getBalance_eq {s s' refused : State ι τ ω} {t : τ} {i : ι} {header : Option String}
    {a : String} {hit : ℤ → State ι τ ω} {waiting : Phase ι ω}
    (h : getBalance d s t i header a refused hit waiting = some s') :
    (∃ e, authorize d.verify s.now header a = .error e ∧ s' = refused) ∨
      (∃ r balance, authorize d.verify s.now header a = .ok () ∧ s.readers i = some r ∧
        r.cache a = some balance ∧ s' = hit balance) ∨
      ∃ r r', s.readers i = some r ∧ r.cache a = none ∧
        r.move (feed d.localRoutingNum) (balanceCell d.localRoutingNum) s.log (.query t a) =
          some r' ∧ authorize d.verify s.now header a = .ok () ∧
        s' = (s.setReader i r').setPhase t waiting := by
  rw [getBalance] at h
  split at h
  case h_1 => cases h
  case h_2 r hr =>
    split at h
    case h_1 e he =>
      cases h
      exact .inl ⟨e, he, rfl⟩
    case h_2 ha =>
      split at h
      case h_1 balance hc =>
        cases h
        exact .inr (.inl ⟨r, balance, ha, hr, hc, rfl⟩)
      case h_2 hc =>
        obtain ⟨s₁, hmove, rfl⟩ := Option.map_eq_some_iff.mp h
        obtain ⟨r₁, r', hr₁, hmove', rfl⟩ := moveReader_eq d hmove
        obtain rfl : r = r₁ := by simpa [hr] using hr₁
        exact .inr (.inr ⟨r, r', hr, hc, hmove', ha, rfl⟩)

lemma steps_of_step {s s' : State ι τ ω} {a : Act ι τ ω} (h : step d s a = some s') :
    Steps d s a s' := by
  cases a with
  | tick n =>
      cases h
      exact .tick
  | boot i reached =>
      simp only [step] at h
      split at h <;> cases h
      exact .boot ‹_›
  | run i b =>
      obtain ⟨r, r', hr, hmove, rfl⟩ := moveReader_eq d h
      exact .run hr hmove
  | submit t w header r =>
      simp only [step] at h
      split at h
      case h_2 => cases h
      case h_1 hp =>
        split at h <;> cases h
        · exact .rejected ‹_›
        · exact .admitted hp ‹_›
  | ask t i =>
      simp only [step] at h
      split at h
      case h_2 => cases h
      case h_1 w token tx hp =>
        rcases getBalance_eq d h with ⟨e, he, rfl⟩ | ⟨r, balance, ha, hr, hc, rfl⟩ |
          ⟨r, r', hr, hc, hmove, ha, rfl⟩
        · exact .refused hp he
        · exact .hit hp ha hr hc
        · exact .miss hp hr hc hmove ha
  | get t i header a =>
      simp only [step] at h
      split at h
      case h_2 => cases h
      case h_1 hp =>
        rcases getBalance_eq d h with ⟨e, he, rfl⟩ | ⟨r, balance, -, hr, hc, rfl⟩ |
          ⟨r, r', hr, hc, hmove, ha, rfl⟩
        · exact .got (.inl ⟨e, he⟩)
        · exact .got (.inr ⟨r, balance, hr, hc⟩)
        · exact .getMiss hp hr hmove ha hc
  | answer t =>
      simp only [step] at h
      split at h
      case h_3 => cases h
      case h_1 w tx i hp =>
        split at h
        case h_1 => cases h
        case h_2 a balance hload =>
          obtain ⟨r, hr, hload⟩ := Option.bind_eq_some_iff.mp hload
          obtain ⟨s₁, hmove, rfl⟩ := Option.map_eq_some_iff.mp h
          obtain ⟨r₁, r', hr₁, hmove', rfl⟩ := moveReader_eq d hmove
          obtain rfl : r = r₁ := by simpa [hr] using hr₁
          exact .answered hp hr hload hmove'
      case h_2 i hp =>
        obtain ⟨s₁, hmove, rfl⟩ := Option.map_eq_some_iff.mp h
        obtain ⟨r, r', hr, hmove', rfl⟩ := moveReader_eq d hmove
        exact .loaded hp hr hmove'
  | insert t =>
      simp only [step] at h
      split at h <;> cases h
      exact .inserted ‹_›
  | commit t =>
      simp only [step] at h
      split at h <;> cases h
      exact .committed ‹_›
  | remember t =>
      simp only [step] at h
      split at h <;> cases h
      exact .remembered ‹_›
  | abort t =>
      simp only [step] at h
      split at h <;> cases h <;> rename_i hp <;> exact .aborted (by simp [hp])

/-! ### Where a phase comes from -/

variable {d}

omit [DecidableEq ι] [DecidableEq ω] in
@[simp] lemma setPhase_same (s : State ι τ ω) (t : τ) (p : Phase ι ω) :
    (s.setPhase t p).phase t = p := by
  simp [State.setPhase]

omit [DecidableEq ι] [DecidableEq ω] in
lemma setPhase_other (s : State ι τ ω) {t t' : τ} (p : Phase ι ω) (h : t' ≠ t) :
    (s.setPhase t p).phase t' = s.phase t' := by
  simp [State.setPhase, Function.update_of_ne h]

/-- The thread whose request a step is about. -/
def Act.thread? : Act ι τ ω → Option τ
  | .submit t _ _ _ => some t
  | .ask t _ => some t
  | .get t _ _ _ => some t
  | .answer t => some t
  | .insert t => some t
  | .commit t => some t
  | .remember t => some t
  | .abort t => some t
  | _ => none

/-- The other requests stay where they are. -/
lemma Steps.phase_other {s s' : State ι τ ω} {a : Act ι τ ω} (h : Steps d s a s') {t : τ}
    (ht : a.thread? ≠ some t) : s'.phase t = s.phase t := by
  cases h with
  | tick | boot | run | rejected | got => rfl
  | admitted | refused | hit | miss | getMiss | answered | loaded | inserted | committed
  | remembered | aborted =>
      simp only [Act.thread?, ne_eq, Option.some.injEq] at ht
      exact setPhase_other _ _ (Ne.symm ht)

/-- How a payment comes to be written: it is not the local sender's, or the balance that it was
shown covers it. -/
inductive Grants (d : Deployment) (s : State ι τ ω) (w : ω) (tx : Transfer) :
    Act ι τ ω → Prop where
  | submit {t : τ} {header : Option String} {r : Request} {token : String} :
      precheck d.localRoutingNum d.verify s.now (s.seen w) header r = .ok (token, tx) →
      tx.fromRoutingNum ≠ d.localRoutingNum → Grants d s w tx (.submit t w header r)
  | ask {t : τ} {i : ι} {token : String} {r : BalanceReader τ} {balance : ℤ} :
      s.phase t = .checked w token tx → s.readers i = some r →
      r.cache tx.fromAccountNum = some balance → covers balance tx = true →
      Grants d s w tx (.ask t i)
  | answer {t : τ} {i : ι} {r : BalanceReader τ} {a : String} {balance : ℤ} :
      s.phase t = .loading w tx i → s.readers i = some r → r.loads t = some (a, balance) →
      covers balance tx = true → Grants d s w tx (.answer t)

omit [DecidableEq ι] [DecidableEq ω] in
lemma replied_eq_funded {w w' : ω} {tx tx' : Transfer} {balance : ℤ}
    (h : (Phase.replied w tx balance : Phase ι ω) = .funded w' tx') :
    w = w' ∧ tx = tx' ∧ covers balance tx = true := by
  rw [Phase.replied] at h
  split at h
  · simp_all
  · cases h

omit [DecidableEq ι] [DecidableEq ω] in
lemma admitted_cases (localRoutingNum : String) (w : ω) (token : String) (tx : Transfer) :
    (tx.fromRoutingNum = localRoutingNum ∧
      (Phase.admitted localRoutingNum w token tx : Phase ι ω) = .checked w token tx) ∨
    (tx.fromRoutingNum ≠ localRoutingNum ∧
      (Phase.admitted localRoutingNum w token tx : Phase ι ω) = .funded w tx) := by
  by_cases h : tx.fromRoutingNum = localRoutingNum <;> simp [Phase.admitted, h]

/-- A payment that may be written could be before, or has been granted by the step. -/
lemma Steps.funded {s s' : State ι τ ω} {a : Act ι τ ω} (h : Steps d s a s') {t : τ} {w : ω}
    {tx : Transfer} (hp : s'.phase t = .funded w tx) :
    s.phase t = .funded w tx ∨ (a.thread? = some t ∧ Grants d s w tx a) := by
  by_cases ht : a.thread? = some t
  · cases h with
    | tick | boot | run | rejected | got => exact .inl hp
    | @admitted t' w' header r token tx' hidle hcheck =>
        obtain rfl : t' = t := by simpa [Act.thread?] using ht
        rw [setPhase_same] at hp
        rcases admitted_cases (ι := ι) d.localRoutingNum w' token tx' with ⟨-, heq⟩ | ⟨hne, heq⟩ <;>
          rw [heq] at hp <;> cases hp
        exact .inr ⟨rfl, .submit hcheck hne⟩
    | @hit t' i w' token tx' r balance hphase _ hr hc =>
        obtain rfl : t' = t := by simpa [Act.thread?] using ht
        rw [setPhase_same] at hp
        obtain ⟨rfl, rfl, hcovers⟩ := replied_eq_funded hp
        exact .inr ⟨rfl, .ask hphase hr hc hcovers⟩
    | @answered t' i w' tx' r r' a balance hphase hr hload _ =>
        obtain rfl : t' = t := by simpa [Act.thread?] using ht
        rw [setPhase_same] at hp
        obtain ⟨rfl, rfl, hcovers⟩ := replied_eq_funded hp
        exact .inr ⟨rfl, .answer hphase hr hload hcovers⟩
    | refused | miss | getMiss | loaded | inserted | committed | remembered | aborted =>
        simp only [Act.thread?, Option.some.injEq] at ht
        subst ht
        simp at hp
  · rw [h.phase_other ht] at hp
    exact .inl hp

/-- A payment that is being written was before, or could be and has got its id. -/
lemma Steps.saving {s s' : State ι τ ω} {a : Act ι τ ω} (h : Steps d s a s') {t : τ} {w : ω}
    {tx : Transfer} {transactionId timestamp : ℤ}
    (hp : s'.phase t = .saving w tx transactionId timestamp) :
    s.phase t = .saving w tx transactionId timestamp ∨
      (a = .insert t ∧ s.phase t = .funded w tx ∧ transactionId = s.nextId ∧
        timestamp = s.now) := by
  by_cases ht : a.thread? = some t
  · cases h with
    | tick | boot | run | rejected | got => exact .inl hp
    | @inserted t' w' tx' hphase =>
        obtain rfl : t' = t := by simpa [Act.thread?] using ht
        simp only [setPhase_same, Phase.saving.injEq] at hp
        obtain ⟨rfl, rfl, rfl, rfl⟩ := hp
        exact .inr ⟨rfl, hphase, rfl, rfl⟩
    | @admitted t' w' header r token tx' =>
        obtain rfl : t' = t := by simpa [Act.thread?] using ht
        rw [setPhase_same, Phase.admitted] at hp
        split at hp <;> cases hp
    | hit | answered =>
        simp only [Act.thread?, Option.some.injEq] at ht
        subst ht
        rw [setPhase_same, Phase.replied] at hp
        split at hp <;> cases hp
    | refused | miss | getMiss | loaded | committed | remembered | aborted =>
        simp only [Act.thread?, Option.some.injEq] at ht
        subst ht
        simp at hp
  · rw [h.phase_other ht] at hp
    exact .inl hp

end Bank

end FinOpsPipeline
