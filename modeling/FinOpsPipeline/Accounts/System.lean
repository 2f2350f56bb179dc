import FinOpsPipeline.Accounts.Checks
import FinOpsPipeline.Foundations.TransitionSystem

/-!
The user service and the contact service at work.

Any number of requests are served over one database, with the steps of the other requests between
any two queries of one. The database keeps usernames and account ids unique.

* `State`, `Act`, `handle`: the services, one query at a time, with their replies.
* `replies`: the replies that a step sends.
* `Steps`, `steps_of_handle`: what a step can do; `Steps.mono`, `Steps.phase`: to the users and the
  clock, and to one request.
-/

namespace FinOpsPipeline

namespace Accounts

/-! ### The services -/

/-- A row of the table `users`, of the columns that are read. -/
structure User (H : Type) where
  accountid : String
  username : String
  passhash : H
  firstname : String
  lastname : String
deriving DecidableEq

/-- The row of a new user. -/
def NewUser.row {H : Type} (u : NewUser) (passhash : H) (accountid : String) : User H :=
  ⟨accountid, u.username, passhash, u.firstname, u.lastname⟩

/-- The claims of a token. -/
structure Payload where
  user : String
  acct : String
  name : String
  iat : ℤ
  exp : ℤ
deriving DecidableEq

/-- What the services are deployed with: `bleach.clean`, `bcrypt` (a password may be refused),
the key pair, the lifetime of a token and the routing number. -/
structure Deployment (H S : Type) where
  clean : String → String
  hashpw : String → S → Option H
  checkpw : String → H → Option Bool
  checkpw_hashpw : ∀ {password : String} {salt : S} {passhash : H},
    hashpw password salt = some passhash → checkpw password passhash = some true
  encode : Payload → String
  decode : ℤ → String → Option Payload
  decode_encode : ∀ {now : ℤ} {p q : Payload}, decode now (encode p) = some q → q = p
  expirySeconds : ℤ
  localRouting : String

/-- The query that a request is about to send. -/
inductive Phase (H : Type) where
  | idle
  /-- `create_user`: `get_user` is next. -/
  | naming (u : NewUser)
  /-- `generate_accountid`: an id is drawn and asked for. -/
  | drawing (u : NewUser) (passhash : H)
  /-- `add_user`. -/
  | adding (u : NewUser) (passhash : H) (accountid : String)
  /-- `login`: `get_user` is next. -/
  | finding (username password : String)
  /-- `login`: the password has been checked, `exp_time` is next. -/
  | stamping (username password : String) (user : User H)
  /-- `login`: `iat` and the token are next. -/
  | signing (username password : String) (user : User H) (exp : ℤ)
  /-- `get_contacts`. -/
  | listing (username : String)
  /-- `_check_contact_allowed` reads the contacts. -/
  | comparing (username : String) (c : NewContact)
  /-- `add_contact` of the database. -/
  | storing (username : String) (c : NewContact)
deriving DecidableEq

/-- The clock, the tables, the claims of the tokens that have been signed, and the requests. -/
structure State (τ H : Type) where
  now : ℤ
  users : List (User H)
  contacts : List Contact
  issued : List Payload
  phase : τ → Phase H

/-- The steps: time passes, a request arrives, `get_user` of a new user with the salt of the hash,
an account id is drawn, any other query, or a query that raises a `SQLAlchemyError`, with or
without its effect. -/
inductive Act (τ S : Type) where
  | tick (seconds : ℕ)
  | createUser (t : τ) (form : Form)
  | login (t : τ) (username password : String)
  | getContacts (t : τ) (username : String) (header : Option String)
  | addContact (t : τ) (username : String) (header : Option String) (json : String → Option Json)
  | lookup (t : τ) (salt : S)
  | draw (t : τ) (n : ℕ)
  | next (t : τ)
  | fail (t : τ) (effect : Bool)

/-- The replies. That to a login names the credentials, that to a signup the new user. -/
inductive Reply where
  | created (u : NewUser) (accountid : String)
  | signedIn (username password : String) (result : Except Failure Payload)
  | contacts (username : String) (rows : List Contact)
  | added (row : Contact)
  | refused (f : Failure)
deriving DecidableEq

/-- `str` of a number. -/
def accountidOf (n : ℕ) : String := String.ofList (digits n)

/-- `auth_header.split(" ")[-1]`, or the empty text without a header. -/
def bearerToken : Option String → String
  | none => ""
  | some header => String.ofList (header.toList.rtakeWhile (· ≠ ' '))

example : [none, some "", some "Bearer abc", some "abc", some "Bearer "].map bearerToken =
    ["", "", "abc", "abc", ""] := by
  decide +kernel

/-- `bleach.clean` on the values that are texts. -/
def Json.clean (clean : String → String) : Json → Json
  | .text s => .text (clean s)
  | v => v

variable {τ H S : Type} [DecidableEq τ]

namespace State

/-- The request is in the given phase. -/
def goto (s : State τ H) (t : τ) (p : Phase H) : State τ H :=
  { s with phase := Function.update s.phase t p }

@[simp] lemma goto_now (s : State τ H) (t : τ) (p : Phase H) : (s.goto t p).now = s.now := rfl

@[simp] lemma goto_users (s : State τ H) (t : τ) (p : Phase H) : (s.goto t p).users = s.users := rfl

@[simp] lemma goto_contacts (s : State τ H) (t : τ) (p : Phase H) :
    (s.goto t p).contacts = s.contacts := rfl

@[simp] lemma goto_issued (s : State τ H) (t : τ) (p : Phase H) :
    (s.goto t p).issued = s.issued := rfl

@[simp] lemma goto_same (s : State τ H) (t : τ) (p : Phase H) : (s.goto t p).phase t = p :=
  Function.update_self _ _ _

lemma goto_of_ne {s : State τ H} {t t' : τ} {p : Phase H} (h : t' ≠ t) :
    (s.goto t p).phase t' = s.phase t' :=
  Function.update_of_ne h _ _

/-- `UserDb.get_user`. -/
def getUser (s : State τ H) (username : String) : Option (User H) :=
  s.users.find? (·.username = username)

/-- `ContactsDb.get_contacts`. -/
def getContacts (s : State τ H) (username : String) : List Contact :=
  s.contacts.filter (·.username = username)

/-- The row keeps the usernames and the account ids unique. -/
def Fresh (s : State τ H) (user : User H) : Prop :=
  ∀ x ∈ s.users, x.accountid ≠ user.accountid ∧ x.username ≠ user.username

instance (s : State τ H) (user : User H) : Decidable (s.Fresh user) :=
  inferInstanceAs (Decidable (∀ x ∈ s.users, _ ∧ _))

/-- `UserDb.add_user`, without an effect when a key is taken. -/
def addUser (s : State τ H) (user : User H) : State τ H :=
  if s.Fresh user then { s with users := s.users ++ [user] } else s

/-- The row of a contact, when the columns accept it. -/
def contactRow (s : State τ H) (username : String) (c : NewContact) : Option Contact :=
  if ∃ x ∈ s.users, x.username = username then
    c.isExternal.toBoolean.map fun b => ⟨username, c.label, c.accountNum, c.routingNum, b⟩
  else none

/-- `ContactsDb.add_contact`. -/
def addContact (s : State τ H) (username : String) (c : NewContact) : State τ H :=
  match s.contactRow username c with
  | some row => { s with contacts := s.contacts ++ [row] }
  | none => s

/-- The request ends with a reply. -/
def reply (s : State τ H) (t : τ) (r : Reply) : Option (State τ H × Option Reply) :=
  some (s.goto t .idle, some r)

/-- The request goes on. -/
def goOn (s : State τ H) (t : τ) (p : Phase H) : Option (State τ H × Option Reply) :=
  some (s.goto t p, none)

end State

variable (d : Deployment H S)

/-- `create_user`, before its first query. -/
def createUser (s : State τ H) (t : τ) (form : Form) : Option (State τ H × Option Reply) :=
  match validateNewUser fun f => (form f).map d.clean with
  | .error f => s.reply t (.refused f)
  | .ok u => s.goOn t (.naming u)

/-- `create_user` after `get_user`: the name is taken, or the password is hashed. -/
def nameUser (s : State τ H) (t : τ) (u : NewUser) (salt : S) :
    Option (State τ H × Option Reply) :=
  match s.getUser u.username with
  | some _ => s.reply t (.refused ⟨409, "user " ++ u.username ++ " already exists"⟩)
  | none =>
      match d.hashpw u.password salt with
      | none => s.reply t (.refused internalServerError)
      | some passhash => s.goOn t (.drawing u passhash)

/-- The claims of `login`. -/
def payload (username : String) (user : User H) (iat exp : ℤ) : Payload :=
  ⟨username, user.accountid, user.firstname ++ " " ++ user.lastname, iat, exp⟩

/-- `login` after `get_user`. -/
def checkUser (s : State τ H) (t : τ) (username password : String) :
    Option (State τ H × Option Reply) :=
  match s.getUser (d.clean username) with
  | none => s.reply t (.signedIn username password
      (.error ⟨404, "user " ++ d.clean username ++ " does not exist"⟩))
  | some user =>
      match d.checkpw (d.clean password) user.passhash with
      | none => s.reply t (.signedIn username password (.error internalServerError))
      | some false => s.reply t (.signedIn username password (.error ⟨401, "invalid login"⟩))
      | some true => s.goOn t (.stamping username password user)

/-- `login`: the token is signed. -/
def sign (s : State τ H) (t : τ) (username password : String) (user : User H) (exp : ℤ) :
    Option (State τ H × Option Reply) :=
  let p := payload (d.clean username) user s.now exp
  { s with issued := p :: s.issued }.reply t (.signedIn username password (.ok p))

/-- The claims of a request's token, when it is that of the user. -/
def authorized (s : State τ H) (username : String) (header : Option String) : Option Payload :=
  (d.decode s.now (bearerToken header)).filter (·.user = username)

/-- `authentication denied`. -/
def denied : Failure := ⟨401, "authentication denied"⟩

/-- `add_contact`, before its query. -/
def addContact (s : State τ H) (t : τ) (username : String) (header : Option String)
    (json : String → Option Json) : Option (State τ H × Option Reply) :=
  match authorized d s username header with
  | none => s.reply t (.refused denied)
  | some p =>
      match validateNewContact d.localRouting fun f => (json f).map (Json.clean d.clean) with
      | .error f => s.reply t (.refused f)
      | .ok c =>
          match checkNotSelf d.localRouting p.acct c with
          | .error f => s.reply t (.refused f)
          | .ok () => s.goOn t (.comparing username c)

/-- `failed to create user` and its siblings. -/
def failedToCreate : Failure := ⟨500, "failed to create user"⟩
@[inherit_doc failedToCreate] def failedToRetrieve : Failure :=
  ⟨500, "failed to retrieve user information"⟩
@[inherit_doc failedToCreate] def failedToList : Failure := ⟨500, "failed to retrieve contacts list"⟩
@[inherit_doc failedToCreate] def failedToAdd : Failure := ⟨500, "failed to add contact"⟩

/-- The next query of a request, that is neither of the two with an argument. -/
def next (s : State τ H) (t : τ) : Option (State τ H × Option Reply) :=
  match s.phase t with
  | .idle | .naming _ | .drawing _ _ => none
  | .adding u passhash accountid =>
      if s.Fresh (u.row passhash accountid) then
        (s.addUser (u.row passhash accountid)).reply t (.created u accountid)
      else s.reply t (.refused failedToCreate)
  | .finding username password => checkUser d s t username password
  | .stamping username password user =>
      s.goOn t (.signing username password user (s.now + d.expirySeconds))
  | .signing username password user exp => sign d s t username password user exp
  | .listing username => s.reply t (.contacts username (s.getContacts username))
  | .comparing username c =>
      match checkNotIdentical c (s.getContacts username) with
      | .error f => s.reply t (.refused f)
      | .ok () => s.goOn t (.storing username c)
  | .storing username c =>
      match s.contactRow username c with
      | some row => (s.addContact username c).reply t (.added row)
      | none => s.reply t (.refused failedToAdd)

/-- A query raises a `SQLAlchemyError`. -/
def fail (s : State τ H) (t : τ) (effect : Bool) : Option (State τ H × Option Reply) :=
  match s.phase t with
  | .idle | .stamping _ _ _ | .signing _ _ _ _ => none
  | .naming _ | .drawing _ _ => s.reply t (.refused failedToCreate)
  | .adding u passhash accountid =>
      (if effect then s.addUser (u.row passhash accountid) else s).reply t (.refused failedToCreate)
  | .finding username password => s.reply t (.signedIn username password (.error failedToRetrieve))
  | .listing _ => s.reply t (.refused failedToList)
  | .comparing _ _ => s.reply t (.refused failedToAdd)
  | .storing username c =>
      (if effect then s.addContact username c else s).reply t (.refused failedToAdd)

/-- One step, with the reply that it sends. -/
def handle (s : State τ H) : Act τ S → Option (State τ H × Option Reply)
  | .tick seconds => some ({ s with now := s.now + seconds }, none)
  | .createUser t form =>
      match s.phase t with
      | .idle => createUser d s t form
      | _ => none
  | .login t username password =>
      match s.phase t with
      | .idle => s.goOn t (.finding username password)
      | _ => none
  | .getContacts t username header =>
      match s.phase t with
      | .idle =>
          match authorized d s username header with
          | none => s.reply t (.refused denied)
          | some _ => s.goOn t (.listing username)
      | _ => none
  | .addContact t username header json =>
      match s.phase t with
      | .idle => addContact d s t username header json
      | _ => none
  | .lookup t salt =>
      match s.phase t with
      | .naming u => nameUser d s t u salt
      | _ => none
  | .draw t n =>
      match s.phase t with
      | .drawing u passhash =>
          if 1000000000 ≤ n ∧ n < 10000000000 then
            if ∃ x ∈ s.users, x.accountid = accountidOf n then some (s, none)
            else s.goOn t (.adding u passhash (accountidOf n))
          else none
      | _ => none
  | .next t => next d s t
  | .fail t effect => fail s t effect

/-- The replies of a step. -/
def replies (s : State τ H) (a : Act τ S) : List Reply := ((handle d s a).bind Prod.snd).toList

/-- Users to begin with: their names and account ids are different. -/
structure Sound (users : List (User H)) : Prop where
  usernames : (users.map User.username).Nodup
  accountids : (users.map User.accountid).Nodup

/-- The services over a database, before the first request. -/
def services (users₀ : List (User H)) (contacts₀ : List Contact) :
    System (State τ H) (Act τ S) where
  init s := Sound users₀ ∧ ∃ now, s = ⟨now, users₀, contacts₀, [], fun _ => .idle⟩
  step s a := (handle d s a).map Prod.fst

/-! ### What a step can do -/

variable {d}

/-- The request that a step is about. -/
def Act.thread? : Act τ S → Option τ
  | .tick _ => none
  | .createUser t _ | .login t _ _ | .getContacts t _ _ | .addContact t _ _ _ | .lookup t _
  | .draw t _ | .next t | .fail t _ => some t

variable (d) in
/-- The ways a request can go on. -/
inductive Enters (s : State τ H) (t : τ) : Act τ S → Phase H → Prop where
  | named {form : Form} {u : NewUser} : s.phase t = .idle →
      validateNewUser (fun f => (form f).map d.clean) = .ok u →
      Enters s t (.createUser t form) (.naming u)
  | hashed {salt : S} {u : NewUser} {passhash : H} : s.phase t = .naming u →
      s.getUser u.username = none → d.hashpw u.password salt = some passhash →
      Enters s t (.lookup t salt) (.drawing u passhash)
  | drawn {n : ℕ} {u : NewUser} {passhash : H} : s.phase t = .drawing u passhash →
      1000000000 ≤ n → n < 10000000000 → Enters s t (.draw t n) (.adding u passhash (accountidOf n))
  | asked {username password : String} : s.phase t = .idle →
      Enters s t (.login t username password) (.finding username password)
  | found {username password : String} {user : User H} : s.phase t = .finding username password →
      s.getUser (d.clean username) = some user →
      d.checkpw (d.clean password) user.passhash = some true →
      Enters s t (.next t) (.stamping username password user)
  | stamped {username password : String} {user : User H} :
      s.phase t = .stamping username password user →
      Enters s t (.next t) (.signing username password user (s.now + d.expirySeconds))
  | listing {username : String} {header : Option String} {p : Payload} : s.phase t = .idle →
      authorized d s username header = some p →
      Enters s t (.getContacts t username header) (.listing username)
  | comparing {username : String} {header : Option String} {json : String → Option Json}
      {p : Payload} {c : NewContact} : s.phase t = .idle →
      authorized d s username header = some p → c.Valid d.localRouting →
      ¬(c.accountNum = p.acct ∧ c.routingNum = d.localRouting) →
      Enters s t (.addContact t username header json) (.comparing username c)
  | storing {username : String} {c : NewContact} : s.phase t = .comparing username c →
      (∀ x ∈ s.getContacts username, ¬Clash c.accountNum c.routingNum c.label x) →
      Enters s t (.next t) (.storing username c)

variable (d) in
/-- The ways a request can end without an effect. -/
inductive Ends (s : State τ H) (t : τ) : Act τ S → Reply → Prop where
  | refused {a : Act τ S} {f : Failure} : a.thread? = some t → Ends s t a (.refused f)
  | unknown {username password : String} {f : Failure} : s.phase t = .finding username password →
      s.getUser (d.clean username) = none →
      Ends s t (.next t) (.signedIn username password (.error f))
  | rejected {username password : String} {f : Failure} {user : User H} :
      s.phase t = .finding username password → s.getUser (d.clean username) = some user →
      d.checkpw (d.clean password) user.passhash ≠ some true →
      Ends s t (.next t) (.signedIn username password (.error f))
  | failed {effect : Bool} {username password : String} : s.phase t = .finding username password →
      Ends s t (.fail t effect) (.signedIn username password (.error failedToRetrieve))
  | listed {username : String} : s.phase t = .listing username →
      Ends s t (.next t) (.contacts username (s.getContacts username))

variable (d) in
/-- The steps of the services. An effect may be followed by a lost reply. -/
inductive Steps (s : State τ H) : Act τ S → State τ H → Option Reply → Prop where
  | tick {n : ℕ} : Steps s (.tick n) { s with now := s.now + n } none
  | redrawn {t : τ} {n : ℕ} : Steps s (.draw t n) s none
  | goes {t : τ} {a : Act τ S} {p : Phase H} : Enters d s t a p → Steps s a (s.goto t p) none
  | ends {t : τ} {a : Act τ S} {r : Reply} : Ends d s t a r → Steps s a (s.goto t .idle) (some r)
  | created {t : τ} {a : Act τ S} {u : NewUser} {passhash : H} {accountid : String} {r : Reply} :
      s.phase t = .adding u passhash accountid → s.Fresh (u.row passhash accountid) →
      a.thread? = some t → r = .created u accountid ∨ r = .refused failedToCreate →
      Steps s a ({ s with users := s.users ++ [u.row passhash accountid] }.goto t .idle) (some r)
  | signed {t : τ} {username password : String} {user : User H} {exp : ℤ} :
      s.phase t = .signing username password user exp →
      Steps s (.next t)
        ({ s with issued := payload (d.clean username) user s.now exp :: s.issued }.goto t .idle)
        (some (.signedIn username password (.ok (payload (d.clean username) user s.now exp))))
  | stored {t : τ} {a : Act τ S} {username : String} {c : NewContact} {row : Contact} {r : Reply} :
      s.phase t = .storing username c → s.contactRow username c = some row →
      a.thread? = some t → r = .added row ∨ r = .refused failedToAdd →
      Steps s a ({ s with contacts := s.contacts ++ [row] }.goto t .idle) (some r)

lemma steps_reply {s s' : State τ H} {t : τ} {a : Act τ S} {r : Reply} {r' : Option Reply}
    (h : s.reply t r = some (s', r')) (hr : Ends d s t a r) : Steps d s a s' r' := by
  cases h
  exact .ends hr

lemma steps_goOn {s s' : State τ H} {t : τ} {a : Act τ S} {p : Phase H} {r' : Option Reply}
    (h : s.goOn t p = some (s', r')) (hp : Enters d s t a p) : Steps d s a s' r' := by
  cases h
  exact .goes hp

lemma steps_next {s s' : State τ H} {t : τ} {r : Option Reply} (h : next d s t = some (s', r)) :
    Steps d s (.next t) s' r := by
  rw [next] at h
  split at h
  case h_1 | h_2 | h_3 => cases h
  case h_4 u passhash accountid hp =>
    split at h
    · rename_i hfresh
      rw [State.addUser, if_pos hfresh] at h
      cases h
      exact .created hp hfresh rfl (.inl rfl)
    · exact steps_reply h (.refused rfl)
  case h_5 username password hp =>
    rw [checkUser] at h
    split at h
    · exact steps_reply h (.unknown hp ‹_›)
    · rename_i user huser
      split at h
      · rename_i hcheck
        exact steps_reply h (.rejected hp huser (by simp [hcheck]))
      · rename_i hcheck
        exact steps_reply h (.rejected hp huser (by simp [hcheck]))
      · exact steps_goOn h (.found hp huser ‹_›)
  case h_6 hp => exact steps_goOn h (.stamped hp)
  case h_7 hp =>
    cases h
    exact .signed hp
  case h_8 hp => exact steps_reply h (.listed hp)
  case h_9 username c hp =>
    split at h
    · exact steps_reply h (.refused rfl)
    · exact steps_goOn h (.storing hp (checkNotIdentical_ok ‹_›))
  case h_10 username c hp =>
    split at h
    · rename_i row hrow
      rw [State.addContact, hrow] at h
      cases h
      exact .stored hp hrow rfl (.inl rfl)
    · exact steps_reply h (.refused rfl)

lemma steps_fail {s s' : State τ H} {t : τ} {effect : Bool} {r : Option Reply}
    (h : fail s t effect = some (s', r)) : Steps d s (.fail t effect : Act τ S) s' r := by
  rw [fail] at h
  split at h
  case h_1 | h_2 | h_3 => cases h
  case h_4 | h_5 => exact steps_reply h (.refused rfl)
  case h_6 u passhash accountid hp =>
    by_cases hfresh : effect = true ∧ s.Fresh (u.row passhash accountid)
    · rw [if_pos hfresh.1, State.addUser, if_pos hfresh.2] at h
      cases h
      exact .created hp hfresh.2 rfl (.inr rfl)
    · have hsame : (if effect then s.addUser (u.row passhash accountid) else s) = s := by
        split
        · rw [State.addUser, if_neg fun hf => hfresh ⟨‹_›, hf⟩]
        · rfl
      rw [hsame] at h
      exact steps_reply h (.refused rfl)
  case h_7 hp => exact steps_reply h (.failed hp)
  case h_8 | h_9 => exact steps_reply h (.refused rfl)
  case h_10 username c hp =>
    cases hrow : s.contactRow username c with
    | none =>
        have hsame : (if effect then s.addContact username c else s) = s := by
          rw [State.addContact, hrow]
          exact ite_self _
        rw [hsame] at h
        exact steps_reply h (.refused rfl)
    | some row =>
        cases effect with
        | false => exact steps_reply h (.refused rfl)
        | true =>
            rw [if_pos rfl, State.addContact, hrow] at h
            cases h
            exact .stored hp hrow rfl (.inr rfl)

lemma steps_of_handle {s s' : State τ H} {a : Act τ S} {r : Option Reply}
    (h : handle d s a = some (s', r)) : Steps d s a s' r := by
  cases a with
  | tick n =>
      cases h
      exact .tick
  | createUser t form =>
      simp only [handle] at h
      split at h
      case h_2 => cases h
      rename_i hp
      rw [createUser] at h
      split at h
      · exact steps_reply h (.refused rfl)
      · exact steps_goOn h (.named hp ‹_›)
  | login t username password =>
      simp only [handle] at h
      split at h
      case h_2 => cases h
      exact steps_goOn h (.asked ‹_›)
  | getContacts t username header =>
      simp only [handle] at h
      split at h
      case h_2 => cases h
      split at h
      · exact steps_reply h (.refused rfl)
      · exact steps_goOn h (.listing ‹_› ‹_›)
  | addContact t username header json =>
      simp only [handle] at h
      split at h
      case h_2 => cases h
      rename_i hp
      rw [addContact] at h
      split at h
      case h_1 => exact steps_reply h (.refused rfl)
      rename_i p hauth
      split at h
      case h_1 => exact steps_reply h (.refused rfl)
      rename_i c hvalid
      split at h
      case h_1 => exact steps_reply h (.refused rfl)
      rename_i hself
      exact steps_goOn h
        (.comparing hp hauth (validateNewContact_ok hvalid) (Bank.refuseIf_ok hself))
  | lookup t salt =>
      simp only [handle] at h
      split at h
      case h_2 => cases h
      rename_i u hp
      rw [nameUser] at h
      split at h
      case h_1 => exact steps_reply h (.refused rfl)
      rename_i hnone
      split at h
      · exact steps_reply h (.refused rfl)
      · exact steps_goOn h (.hashed hp hnone ‹_›)
  | draw t n =>
      simp only [handle] at h
      split at h
      case h_2 => cases h
      rename_i u passhash hp
      split at h
      case isFalse => cases h
      rename_i hrange
      split at h
      · cases h
        exact .redrawn
      · exact steps_goOn h (.drawn hp hrange.1 hrange.2)
  | next t => exact steps_next h
  | fail t effect => exact steps_fail h

/-- A step of the services with the replies that it sends. -/
lemma steps_of_step {users₀ : List (User H)} {contacts₀ : List Contact} {s s' : State τ H}
    {a : Act τ S} (h : (services d users₀ contacts₀).step s a = some s') :
    ∃ r, Steps d s a s' r ∧ replies d s a = r.toList := by
  obtain ⟨⟨s₁, r⟩, hr, rfl⟩ := Option.map_eq_some_iff.mp h
  exact ⟨r, steps_of_handle hr, by rw [replies, hr]; rfl⟩

/-- Users stay, and the clock goes forwards. -/
lemma Steps.mono {s s' : State τ H} {a : Act τ S} {r : Option Reply} (h : Steps d s a s' r) :
    s.users ⊆ s'.users ∧ s.now ≤ s'.now := by
  cases h with
  | tick => exact ⟨List.Subset.refl _, by simp⟩
  | created => exact ⟨List.subset_append_left _ _, le_rfl⟩
  | redrawn | goes | ends | signed | stored => exact ⟨List.Subset.refl _, le_rfl⟩

/-- The query that a request is about to send after a step. -/
lemma Steps.phase {s s' : State τ H} {a : Act τ S} {r : Option Reply} (h : Steps d s a s' r)
    (t : τ) :
    s'.phase t = s.phase t ∨ s'.phase t = .idle ∨ Enters d s t a (s'.phase t) := by
  have hgoto : ∀ (u : State τ H) (t' : τ) (p : Phase H), u.phase = s.phase →
      (p = .idle ∨ Enters d s t' a p) → (u.goto t' p).phase t = s.phase t ∨
        (u.goto t' p).phase t = .idle ∨ Enters d s t a ((u.goto t' p).phase t) := by
    intro u t' p hu hp
    by_cases ht : t = t'
    · subst ht
      rw [State.goto_same]
      exact .inr hp
    · rw [State.goto_of_ne ht, hu]
      exact .inl rfl
  cases h with
  | tick | redrawn => exact .inl rfl
  | goes hp => exact hgoto _ _ _ rfl (.inr hp)
  | ends | created | signed | stored => exact hgoto _ _ _ rfl (.inl rfl)

end Accounts

end FinOpsPipeline
