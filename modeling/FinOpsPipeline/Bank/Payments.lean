import FinOpsPipeline.Bank.Postings

/-!
The checks of the ledger writer and of the balance reader on one request.

`addTransaction` reads the token from the header, verifies it, refuses a uuid that it has
seen, validates the transaction and then asks for the balance of a local sender. The
balance reader answers for the account of the token alone.

* `bearerToken`: the token of a header.
* `validateTransaction`: the checks of the validator, in their order.
* `precheck`: `addTransaction` up to the balance. `precheck_ok`: what it has made sure of.
* `authorize`: the checks of `getBalance`. `covers`: the comparison with the balance.
-/

namespace FinOpsPipeline

namespace Bank

/-! ### Headers -/

/-- The pieces of a text between the matches of a separator. `skip` counts what is left of the
match just found, and `piece` is the current piece, reversed. -/
def splitFrom (sep : List Char) (skip : ℕ) (piece : List Char) : List Char → List (List Char)
  | [] => [piece.reverse]
  | c :: cs =>
      match skip with
      | skip + 1 => splitFrom sep skip piece cs
      | 0 =>
          if sep.isPrefixOf (c :: cs) then piece.reverse :: splitFrom sep (sep.length - 1) [] cs
          else splitFrom sep 0 (c :: piece) cs

/-- `String.split`: empty pieces at the end are left out. -/
def split (sep text : String) : List String :=
  (((splitFrom sep.toList 0 [] text.toList).reverse.dropWhile (· = [])).reverse).map String.ofList

/-- How a request ends that is not carried out: the status and the message of the reply. An
exception without a handler, like that of a null field, is a server error. -/
inductive Failure where
  | unauthorized
  | badRequest (message : String)
  | serverError
deriving DecidableEq

/-- The token of an `Authorization` header. -/
def bearerToken : Option String → Except Failure (Option String)
  | none => .ok none
  | some header =>
      if "Bearer ".toList.isPrefixOf header.toList then
        match (split "Bearer " header)[1]? with
        | some token => .ok (some token)
        | none => .error .serverError
      else .ok (some header)

example : ["Bearer abc", "abc", "Bearer ", "Bearer Bearer abc"].map (bearerToken ∘ some) =
    [.ok (some "abc"), .ok (some "abc"), .error .serverError, .ok (some "")] := by
  decide +kernel

/-! ### Validation -/

/-- `EXCEPTION_MESSAGE_WHEN_AUTHORIZATION_HEADER_NULL` and its siblings. -/
def authorizationHeaderNull : String := "HTTP request 'Authorization' header is null"
@[inherit_doc authorizationHeaderNull] def insufficientBalance : String := "insufficient balance"
@[inherit_doc authorizationHeaderNull] def invalidNumber : String := "invalid account details"
@[inherit_doc authorizationHeaderNull] def notAuthenticated : String := "sender not authenticated"
@[inherit_doc authorizationHeaderNull] def sendToSelf : String := "can't send to self"
@[inherit_doc authorizationHeaderNull] def invalidAmount : String := "invalid amount"
@[inherit_doc authorizationHeaderNull] def duplicateTransaction : String :=
  "duplicate transaction uuid"

/-- The body of a request. A field that the JSON leaves out is null. -/
structure Request where
  fromAccountNum : Option String
  fromRoutingNum : Option String
  toAccountNum : Option String
  toRoutingNum : Option String
  amount : Option ℤ
  requestUuid : Option String
deriving DecidableEq

/-- `getRequestUuid`. -/
def Request.uuid (r : Request) : String := r.requestUuid.getD ""

/-- A request whose fields are known. -/
structure Transfer where
  fromAccountNum : String
  fromRoutingNum : String
  toAccountNum : String
  toRoutingNum : String
  amount : ℤ
  uuid : String
deriving DecidableEq

/-- The row that `save` inserts. The uuid is not stored. -/
def Transfer.row (tx : Transfer) (transactionId timestamp : ℤ) : Transaction :=
  ⟨transactionId, tx.fromAccountNum, tx.fromRoutingNum, tx.toAccountNum, tx.toRoutingNum,
    tx.amount, timestamp⟩

/-- The text matches `^[0-9]{n}$` as a whole. -/
def IsNumber (n : ℕ) (s : String) : Prop := s.toList.length = n ∧ s.toList.all Char.isDigit

instance (n : ℕ) (s : String) : Decidable (IsNumber n s) := inferInstanceAs (Decidable (_ ∧ _))

/-- A check that throws. -/
def refuseIf {ε : Type} (p : Prop) [Decidable p] (e : ε) : Except ε Unit :=
  if p then .error e else .ok ()

/-- One check of the account details: the value of a field that has `n` digits. -/
def checkNumber (n : ℕ) : Option String → Except Failure String
  | none => .error .serverError
  | some s => if IsNumber n s then .ok s else .error (.badRequest invalidNumber)

/-- `validateTransaction`. -/
def validateTransaction (localRoutingNum : String) (authedAcct : Option String) (r : Request) :
    Except Failure Transfer := do
  let fromAcct ← checkNumber 10 r.fromAccountNum
  let toAcct ← checkNumber 10 r.toAccountNum
  let fromRoute ← checkNumber 9 r.fromRoutingNum
  let toRoute ← checkNumber 9 r.toRoutingNum
  refuseIf (fromRoute = localRoutingNum ∧ some fromAcct ≠ authedAcct) (.badRequest notAuthenticated)
  refuseIf (fromAcct = toAcct ∧ fromRoute = toRoute) (.badRequest sendToSelf)
  match r.amount with
  | none => throw .serverError
  | some amount =>
      refuseIf (amount ≤ 0) (.badRequest invalidAmount)
      return ⟨fromAcct, fromRoute, toAcct, toRoute, amount, r.uuid⟩

/-- What the validator makes sure of, whoever sends the transaction. -/
structure Transfer.Valid (tx : Transfer) : Prop where
  fromAcct : IsNumber 10 tx.fromAccountNum
  toAcct : IsNumber 10 tx.toAccountNum
  fromRoute : IsNumber 9 tx.fromRoutingNum
  toRoute : IsNumber 9 tx.toRoutingNum
  proper : ¬(tx.fromAccountNum = tx.toAccountNum ∧ tx.fromRoutingNum = tx.toRoutingNum)
  amount : 0 < tx.amount

/-- A step of a check that succeeds. -/
lemma bind_ok {ε α β : Type} {x : Except ε α} {f : α → Except ε β} {b : β}
    (h : (x >>= f) = .ok b) : ∃ a, x = .ok a ∧ f a = .ok b := by
  cases x with
  | error e => cases h
  | ok a => exact ⟨a, rfl, h⟩

/-- A check that does not throw. -/
lemma refuseIf_ok {ε : Type} {p : Prop} [Decidable p] {e : ε} {u : Unit}
    (h : refuseIf p e = .ok u) : ¬p := by
  rw [refuseIf] at h
  split at h
  · cases h
  · assumption

lemma checkNumber_ok {n : ℕ} {field : Option String} {s : String}
    (h : checkNumber n field = .ok s) : IsNumber n s := by
  cases field with
  | none => cases h
  | some s' =>
      simp only [checkNumber] at h
      split at h <;> cases h
      assumption

/-- An accepted transaction is valid, and a local one is the sender's own. -/
lemma validateTransaction_ok {localRoutingNum : String} {authedAcct : Option String} {r : Request}
    {tx : Transfer} (h : validateTransaction localRoutingNum authedAcct r = .ok tx) :
    tx.Valid ∧ tx.uuid = r.uuid ∧
      (tx.fromRoutingNum = localRoutingNum → authedAcct = some tx.fromAccountNum) := by
  rw [validateTransaction] at h
  obtain ⟨fromAcct, hfrom, h⟩ := bind_ok h
  obtain ⟨toAcct, hto, h⟩ := bind_ok h
  obtain ⟨fromRoute, hfromRoute, h⟩ := bind_ok h
  obtain ⟨toRoute, htoRoute, h⟩ := bind_ok h
  obtain ⟨_, hauthed, h⟩ := bind_ok h
  obtain ⟨_, hself, h⟩ := bind_ok h
  cases hamount : r.amount with
  | none =>
      rw [hamount] at h
      cases h
  | some amount =>
      rw [hamount] at h
      obtain ⟨_, hpos, h⟩ := bind_ok h
      cases h
      refine ⟨⟨checkNumber_ok hfrom, checkNumber_ok hto, checkNumber_ok hfromRoute,
        checkNumber_ok htoRoute, refuseIf_ok hself, not_le.mp (refuseIf_ok hpos)⟩, rfl,
        fun hlocal => ?_⟩
      by_contra hne
      exact refuseIf_ok hauthed ⟨hlocal, Ne.symm hne⟩

/-! ### One request -/

section Requests

variable (localRoutingNum : String) (verify : ℤ → String → Option (Option String))

/-- `addTransaction` before the balance is asked for. `verify` gives the claim `acct` of a token
that is valid at a time, and `seen` tells the uuids that are in the cache. -/
def precheck (now : ℤ) (seen : String → Bool) (header : Option String) (r : Request) :
    Except Failure (String × Transfer) := do
  match ← bearerToken header with
  | none => throw (.badRequest authorizationHeaderNull)
  | some token =>
      match verify now token with
      | none => throw .unauthorized
      | some acct =>
          refuseIf (seen r.uuid) (.badRequest duplicateTransaction)
          let tx ← validateTransaction localRoutingNum acct r
          return (token, tx)

/-- What is known of a request that has passed. -/
lemma precheck_ok {now : ℤ} {seen : String → Bool} {header : Option String} {r : Request}
    {token : String} {tx : Transfer}
    (h : precheck localRoutingNum verify now seen header r = .ok (token, tx)) :
    tx.Valid ∧ tx.uuid = r.uuid ∧ seen tx.uuid = false ∧ (verify now token).isSome ∧
      (tx.fromRoutingNum = localRoutingNum →
        verify now token = some (some tx.fromAccountNum)) := by
  rw [precheck] at h
  obtain ⟨token?, -, h⟩ := bind_ok h
  cases token? with
  | none => cases h
  | some token' =>
      cases hverify : verify now token' with
      | none =>
          simp only [hverify] at h
          cases h
      | some acct =>
          simp only [hverify] at h
          obtain ⟨_, hseen, h⟩ := bind_ok h
          obtain ⟨tx', hvalidate, h⟩ := bind_ok h
          cases h
          obtain ⟨hvalid, huuid, hsender⟩ := validateTransaction_ok hvalidate
          refine ⟨hvalid, huuid, by simpa [huuid] using refuseIf_ok hseen, by simp [hverify],
            fun hlocal => ?_⟩
          rw [hverify, hsender hlocal]

/-- The checks of `getBalance`: the token is valid and is that of the account. -/
def authorize (now : ℤ) (header : Option String) (accountId : String) : Except Failure Unit := do
  match ← bearerToken header with
  | none => throw .unauthorized
  | some token =>
      match verify now token with
      | none => throw .unauthorized
      | some acct => refuseIf (acct ≠ some accountId) .unauthorized

/-- The balance in the reply fits an `int` and is not less than the amount. A greater one makes
the request fail, as no part of it is read. -/
def covers (balance : ℤ) (tx : Transfer) : Bool :=
  -2 ^ 31 ≤ balance ∧ balance < 2 ^ 31 ∧ tx.amount ≤ balance

end Requests

end Bank

end FinOpsPipeline
