import FinOpsPipeline.Bank.Payments
import FinOpsPipeline.Foundations.PyText

/-!
The checks of the user service and of the contact service on one request.

* `validateNewUser`, `validateNewContact`: the checks of the fields, in their order.
* `checkNotSelf`, `checkNotIdentical`: `_check_contact_allowed`.
* `validateNewUser_ok`, `validateNewContact_ok`, `checkNotIdentical_ok`: what they have made sure
  of.
-/

namespace FinOpsPipeline

namespace Accounts

open Bank (bind_ok refuseIf refuseIf_ok IsNumber)

/-- The status and the text of a reply to a request that is not carried out. -/
structure Failure where
  status : ℕ
  text : String
deriving DecidableEq

/-- An exception that no handler catches. -/
def internalServerError : Failure := ⟨500, "Internal Server Error"⟩

/-! ### New users -/

/-- The fields of a form, after `bleach.clean`. -/
abbrev Form := String → Option String

/-- The fields that `create_user` asks for. -/
def newUserFields : List String :=
  ["username", "password", "password-repeat", "firstname", "lastname", "birthday", "timezone",
    "address", "state", "zip", "ssn"]

/-- What is used of a new user afterwards. -/
structure NewUser where
  username : String
  password : String
  firstname : String
  lastname : String
deriving DecidableEq

/-- `\A[a-zA-Z0-9_]{2,15}\Z`. -/
def IsUsername (s : String) : Prop :=
  2 ≤ s.toList.length ∧ s.toList.length ≤ 15 ∧ s.toList.all fun c => c.isAlphanum || c = '_'

instance (s : String) : Decidable (IsUsername s) := inferInstanceAs (Decidable (_ ∧ _ ∧ _))

/-- The value of a field that is there. -/
def Form.value (req : Form) (f : String) : String := (req f).getD ""

/-- `__validate_new_user`. A field of blanks is a value: `or` asks `strip` of empty texts only. -/
def validateNewUser (req : Form) : Except Failure NewUser := do
  refuseIf (∃ f ∈ newUserFields, req f = none) ⟨400, "missing required field(s)"⟩
  refuseIf (∃ f ∈ newUserFields, req.value f = "" ∧ strip (req.value f).toList = [])
    ⟨400, "missing value for input field(s)"⟩
  refuseIf (¬IsUsername (req.value "username"))
    ⟨400, "username must contain 2-15 alphanumeric characters or underscores"⟩
  refuseIf (req.value "password" ≠ req.value "password-repeat") ⟨400, "passwords do not match"⟩
  return ⟨req.value "username", req.value "password", req.value "firstname", req.value "lastname"⟩

/-- A new user that has passed the checks. -/
lemma validateNewUser_ok {req : Form} {u : NewUser} (h : validateNewUser req = .ok u) :
    IsUsername u.username ∧ u.password ≠ "" ∧ req "username" = some u.username ∧
      req "password" = some u.password ∧ req "password-repeat" = some u.password := by
  obtain ⟨_, hpresent, h⟩ := bind_ok h
  obtain ⟨_, hvalue, h⟩ := bind_ok h
  obtain ⟨_, hname, h⟩ := bind_ok h
  obtain ⟨_, hrepeat, h⟩ := bind_ok h
  have hget : ∀ f ∈ newUserFields, req f = some (req.value f) := by
    intro f hf
    cases hreq : req f with
    | none => exact absurd ⟨f, hf, hreq⟩ (refuseIf_ok hpresent)
    | some v => rw [Form.value, hreq, Option.getD_some]
  have hne : req.value "password" ≠ "" := fun hempty =>
    refuseIf_ok hvalue ⟨"password", by decide, hempty, by rw [hempty]; rfl⟩
  have hrepeat := not_not.mp (refuseIf_ok hrepeat)
  cases h
  exact ⟨not_not.mp (refuseIf_ok hname), hne, hget _ (by decide), hget _ (by decide),
    hrepeat ▸ hget _ (by decide)⟩

/-! ### Contacts -/

/-- A value of a request in JSON; of a list or an object only whether it is empty is asked. -/
inductive Json where
  | null
  | bool (b : Bool)
  | number (q : ℚ)
  | text (s : String)
  | composite (empty : Bool)
deriving DecidableEq

namespace Json

/-- Whether a value is true for Python. -/
def truthy : Json → Bool
  | null => false
  | bool b => b
  | number q => q ≠ 0
  | text s => s ≠ ""
  | composite empty => !empty

/-- The values that a `Boolean` column accepts, with what it stores. -/
def toBoolean : Json → Option Bool
  | bool b => some b
  | number q => if q = 0 then some false else if q = 1 then some true else none
  | _ => none

/-- What the column stores is the truth of the value. -/
lemma truthy_of_toBoolean {v : Json} {b : Bool} (h : v.toBoolean = some b) : v.truthy = b := by
  cases v with
  | bool => exact Option.some.inj h
  | number q =>
      rw [toBoolean] at h
      split at h
      · cases h
        simp [truthy, *]
      · split at h
        · cases h
          simp [truthy, *]
        · cases h
  | _ => cases h

end Json

/-- A contact that is asked for. -/
structure NewContact where
  label : String
  accountNum : String
  routingNum : String
  isExternal : Json
deriving DecidableEq

/-- A row of the table `contacts`. -/
structure Contact where
  username : String
  label : String
  accountNum : String
  routingNum : String
  isExternal : Bool
deriving DecidableEq

/-- `^[0-9a-zA-Z][0-9a-zA-Z ]{0,29}$`, where `$` also matches before a newline at the end. -/
def isLabel (s : String) : Bool :=
  match if s.toList.getLast? = some '\n' then s.toList.dropLast else s.toList with
  | [] => false
  | c :: cs => c.isAlphanum && cs.length ≤ 29 && cs.all fun c => c.isAlphanum || c = ' '

example : ["Alice", "External Bank", "", " Bob", "Bob\n", "Bob\n\n", "a-b"].map isLabel =
    [true, true, false, false, true, false, false] := by
  decide +kernel

/-- A field that has to match a pattern. `re.match` raises a `TypeError` on what is no text. -/
def matching (pattern : String → Prop) [DecidablePred pattern] (message : String) :
    Option Json → Except Failure String
  | some (.text s) => if pattern s then .ok s else .error ⟨400, message⟩
  | some .null | none => .error ⟨400, message⟩
  | some _ => .error internalServerError

lemma matching_ok {pattern : String → Prop} [DecidablePred pattern] {message : String}
    {v : Option Json} {s : String} (h : matching pattern message v = .ok s) : pattern s := by
  rw [matching.eq_def] at h
  split at h
  · split at h <;> cases h
    assumption
  all_goals cases h

/-- `_validate_new_contact`. -/
def validateNewContact (localRouting : String) (req : String → Option Json) :
    Except Failure NewContact := do
  refuseIf (∃ f ∈ ["label", "account_num", "routing_num", "is_external"], req f = none)
    ⟨400, "missing required field(s)"⟩
  let accountNum ← matching (IsNumber 10) "invalid account number" (req "account_num")
  let routingNum ← matching (IsNumber 9) "invalid routing number" (req "routing_num")
  let isExternal := (req "is_external").getD .null
  refuseIf (isExternal.truthy ∧ routingNum = localRouting) ⟨400, "invalid routing number"⟩
  let label ← matching (isLabel ·) "invalid account label" (req "label")
  return ⟨label, accountNum, routingNum, isExternal⟩

/-- A contact that has passed the checks of its fields. -/
structure NewContact.Valid (localRouting : String) (c : NewContact) : Prop where
  label : isLabel c.label = true
  accountNum : IsNumber 10 c.accountNum
  routingNum : IsNumber 9 c.routingNum
  external : c.isExternal.truthy = true → c.routingNum ≠ localRouting

lemma validateNewContact_ok {localRouting : String} {req : String → Option Json} {c : NewContact}
    (h : validateNewContact localRouting req = .ok c) : c.Valid localRouting := by
  obtain ⟨_, -, h⟩ := bind_ok h
  obtain ⟨accountNum, haccount, h⟩ := bind_ok h
  obtain ⟨routingNum, hrouting, h⟩ := bind_ok h
  obtain ⟨_, hexternal, h⟩ := bind_ok h
  obtain ⟨label, hlabel, h⟩ := bind_ok h
  have hexternal := refuseIf_ok hexternal
  cases h
  exact ⟨matching_ok hlabel, matching_ok haccount, matching_ok hrouting,
    fun htrue heq => hexternal ⟨htrue, heq⟩⟩

/-- `_check_contact_allowed`, before it reads the contacts. -/
def checkNotSelf (localRouting accountid : String) (c : NewContact) : Except Failure Unit :=
  refuseIf (c.accountNum = accountid ∧ c.routingNum = localRouting)
    ⟨409, "may not add yourself to contacts"⟩

/-- The contacts are of one account, or have one label. -/
def Clash (accountNum routingNum label : String) (x : Contact) : Prop :=
  x.accountNum = accountNum ∧ x.routingNum = routingNum ∨ x.label = label

/-- `_check_contact_allowed`, with the contacts that it has read. -/
def checkNotIdentical (c : NewContact) : List Contact → Except Failure Unit
  | [] => .ok ()
  | x :: xs => do
      refuseIf (x.accountNum = c.accountNum ∧ x.routingNum = c.routingNum)
        ⟨409, "account already exists as a contact"⟩
      refuseIf (x.label = c.label) ⟨409, "contact already exists with that label"⟩
      checkNotIdentical c xs

lemma checkNotIdentical_ok {c : NewContact} {xs : List Contact} {u : Unit}
    (h : checkNotIdentical c xs = .ok u) :
    ∀ x ∈ xs, ¬Clash c.accountNum c.routingNum c.label x := by
  induction xs with
  | nil => exact nofun
  | cons x xs ih =>
      obtain ⟨_, haccount, h⟩ := bind_ok h
      obtain ⟨_, hlabel, h⟩ := bind_ok h
      rintro y hy hclash
      rcases List.mem_cons.mp hy with rfl | hy
      · rcases hclash with hsame | hlab
        · exact refuseIf_ok haccount hsame
        · exact refuseIf_ok hlabel hlab
      · exact ih h y hy hclash

end Accounts

end FinOpsPipeline
