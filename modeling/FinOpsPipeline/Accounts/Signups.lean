import FinOpsPipeline.Accounts.System

/-!
Signing up and logging in.

* `Known`: what a request has found out, which no step of another request undoes.
* `Enrolled`: what holds of the users and of the tokens in every run.
* `signups_unique`: the users stay distinct, and the users that have been told so are among them.
* `signup_login`: what the logins of a new user are answered.
-/

namespace FinOpsPipeline

namespace Accounts

open Bank (IsNumber)

variable {τ H S : Type} {d : Deployment H S} {users₀ : List (User H)}
  {contacts₀ : List Contact}

/-! ### Users -/

/-- The account ids that are drawn have ten digits. -/
lemma isNumber_accountidOf {n : ℕ} (hlow : 1000000000 ≤ n) (hhigh : n < 10000000000) :
    IsNumber 10 (accountidOf n) := by
  have hten : (digits n).length ≤ 10 :=
    (Nat.length_toDigits_le_iff (by norm_num) (by norm_num)).mpr hhigh
  have hnine : ¬(digits n).length ≤ 9 := fun h => by
    have := (Nat.length_toDigits_le_iff (by norm_num) (by norm_num)).mp h
    omega
  refine ⟨?_, ?_⟩
  · rw [accountidOf, String.toList_ofList]
    omega
  · rw [accountidOf, String.toList_ofList, List.all_eq_true]
    exact fun c hc => isDigit_digits hc

/-- A user with a new name and a new account id keeps the users distinct. -/
lemma Sound.append {s : State τ H} {user : User H} (h : Sound s.users) (hfresh : s.Fresh user) :
    Sound (s.users ++ [user]) := by
  refine ⟨?_, ?_⟩
  · rw [List.map_append, List.map_singleton, List.nodup_append_comm, List.singleton_append,
      List.nodup_cons]
    refine ⟨fun hmem => ?_, h.usernames⟩
    obtain ⟨x, hx, heq⟩ := List.mem_map.mp hmem
    exact (hfresh x hx).2 heq
  · rw [List.map_append, List.map_singleton, List.nodup_append_comm, List.singleton_append,
      List.nodup_cons]
    refine ⟨fun hmem => ?_, h.accountids⟩
    obtain ⟨x, hx, heq⟩ := List.mem_map.mp hmem
    exact (hfresh x hx).1 heq

/-- The users of one name are one user. -/
lemma Sound.eq_of_username {users : List (User H)} (h : Sound users) {x y : User H}
    (hx : x ∈ users) (hy : y ∈ users) (heq : x.username = y.username) : x = y :=
  List.inj_on_of_nodup_map h.usernames hx hy heq

/-- A name that is looked up is that of the user, or of nobody. -/
lemma State.getUser_some {s : State τ H} {username : String} {user : User H}
    (h : s.getUser username = some user) : user ∈ s.users ∧ user.username = username :=
  ⟨List.mem_of_find?_eq_some h, by simpa using List.find?_some h⟩

lemma State.getUser_none {s : State τ H} {username : String} (h : s.getUser username = none) :
    ∀ x ∈ s.users, x.username ≠ username :=
  fun x hx => by simpa using List.find?_eq_none.mp h x hx

/-! ### Requests -/

/-- The claims are those of one of the users. -/
def Payload.Of (p : Payload) (users : List (User H)) : Prop :=
  ∃ user ∈ users, user.username = p.user ∧ user.accountid = p.acct

variable (d) in
/-- What a request has found out. -/
def Known (s : State τ H) : Phase H → Prop
  | .naming u => IsUsername u.username
  | .drawing u passhash => IsUsername u.username ∧ d.checkpw u.password passhash = some true
  | .adding u passhash accountid => IsUsername u.username ∧
      d.checkpw u.password passhash = some true ∧ IsNumber 10 accountid
  | .stamping username _ user => user ∈ s.users ∧ user.username = d.clean username
  | .signing username _ user exp => user ∈ s.users ∧ user.username = d.clean username ∧
      exp ≤ s.now + d.expirySeconds
  | _ => True

/-- It stays true with more users and later. -/
lemma Known.mono {s s' : State τ H} (husers : s.users ⊆ s'.users) (hnow : s.now ≤ s'.now)
    {p : Phase H} (h : Known d s p) : Known d s' p := by
  cases p with
  | stamping => exact ⟨husers h.1, h.2⟩
  | signing => exact ⟨husers h.1, h.2.1, by have := h.2.2; omega⟩
  | _ => exact h

/-- What a step finds out. -/
lemma Enters.known {s : State τ H} {t : τ} {a : Act τ S} {p : Phase H} (h : Enters d s t a p)
    (hs : Known d s (s.phase t)) : Known d s p := by
  cases h with
  | named _ hvalid => exact (validateNewUser_ok hvalid).1
  | hashed hp _ hhash =>
      rw [hp] at hs
      exact ⟨hs, d.checkpw_hashpw hhash⟩
  | drawn hp hlow hhigh =>
      rw [hp] at hs
      exact ⟨hs.1, hs.2, isNumber_accountidOf hlow hhigh⟩
  | found _ huser => exact State.getUser_some huser
  | stamped hp =>
      rw [hp] at hs
      exact ⟨hs.1, hs.2, le_rfl⟩
  | asked | listing | comparing | storing => trivial

variable (d) (users₀) in
/-- What holds of the users, of the requests and of the tokens. -/
structure Enrolled (s : State τ H) : Prop where
  known : ∀ t, Known d s (s.phase t)
  sound : Sound s.users
  issued : ∀ p ∈ s.issued, p.Of s.users ∧ p.exp ≤ p.iat + d.expirySeconds
  new : ∃ new, s.users = users₀ ++ new ∧
    ∀ x ∈ new, IsUsername x.username ∧ IsNumber 10 x.accountid

/-- A user that stays keeps the claims. -/
lemma Payload.Of.mono {p : Payload} {users users' : List (User H)} (h : p.Of users)
    (husers : users ⊆ users') : p.Of users' := by
  obtain ⟨user, huser, hp⟩ := h
  exact ⟨user, husers huser, hp⟩

variable [DecidableEq τ]

lemma Steps.enrolled {s s' : State τ H} {a : Act τ S} {r : Option Reply} (h : Steps d s a s' r)
    (hs : Enrolled d users₀ s) : Enrolled d users₀ s' := by
  obtain ⟨husers, hnow⟩ := h.mono
  have hknown : ∀ t, Known d s' (s'.phase t) := by
    intro t
    refine Known.mono husers hnow ?_
    rcases h.phase t with hp | hp | hp
    · rw [hp]
      exact hs.known t
    · rw [hp]
      trivial
    · exact hp.known (hs.known t)
  cases h with
  | tick | redrawn | goes | ends | stored => exact ⟨hknown, hs.sound, hs.issued, hs.new⟩
  | @created t a u passhash accountid r hp hfresh =>
      obtain ⟨new, hnew, hvalid⟩ := hs.new
      have hrow := hs.known t
      rw [hp] at hrow
      refine ⟨hknown, hs.sound.append hfresh,
        fun p hpi => ⟨(hs.issued p hpi).1.mono husers, (hs.issued p hpi).2⟩,
        new ++ [u.row passhash accountid], ?_, fun x hx => ?_⟩
      · rw [State.goto_users, ← List.append_assoc, ← hnew]
      · rcases List.mem_append.mp hx with hx | hx
        · exact hvalid x hx
        · rw [List.mem_singleton.mp hx]
          exact ⟨hrow.1, hrow.2.2⟩
  | @signed t username password user exp hp =>
      refine ⟨hknown, hs.sound, fun p hpi => ?_, hs.new⟩
      rcases List.mem_cons.mp hpi with rfl | hpi
      · have huser := hs.known t
        rw [hp] at huser
        exact ⟨⟨user, huser.1, huser.2.1, rfl⟩, huser.2.2⟩
      · exact hs.issued p hpi

theorem enrolled {ok : State τ H → Act τ S → Prop} {s : State τ H}
    (h : (services d users₀ contacts₀).Run ok s) : Enrolled d users₀ s := by
  refine h.invariant ?_ ?_
  · rintro s ⟨hsound, now, rfl⟩
    exact ⟨fun _ => trivial, hsound, by simp, [], by simp⟩
  · intro s a s' _ _ hs hstep
    obtain ⟨r, hr, -⟩ := steps_of_step hstep
    exact hr.enrolled hs

/-! ### Signups -/

/-- The name and the account id of a user that has been told so. -/
def Reply.signup? : Reply → Option (String × String)
  | .created u accountid => some (u.username, accountid)
  | _ => none

/-- A step that confirms a signup has written its row. -/
lemma Steps.acknowledges_signup {s s' : State τ H} {a : Act τ S} {r : Option Reply}
    (h : Steps d s a s' r) : ∃ written, s'.users = s.users ++ written ∧
      (r.toList.filterMap Reply.signup?).Sublist
        (written.map fun x => (x.username, x.accountid)) := by
  cases h with
  | tick | redrawn | goes => exact ⟨[], (List.append_nil _).symm, .slnil⟩
  | ends hend =>
      refine ⟨[], (List.append_nil _).symm, ?_⟩
      cases hend <;> exact .slnil
  | signed => exact ⟨[], (List.append_nil _).symm, .slnil⟩
  | stored _ _ _ hr =>
      refine ⟨[], (List.append_nil _).symm, ?_⟩
      rcases hr with rfl | rfl <;> exact .slnil
  | @created t a u passhash accountid r _ _ _ hr =>
      refine ⟨[u.row passhash accountid], rfl, ?_⟩
      rcases hr with rfl | rfl
      · exact List.Sublist.refl _
      · exact List.nil_sublist _

/-- The claims of Alice, when she logs in at once. -/
def alicePayload : Payload := ⟨"alice", "1033623433", "Alice User", 0, 3600⟩

/-- A front desk whose hashes are the passwords, and whose tokens are those of one user. -/
def frontDesk : Deployment String Unit where
  clean := id
  hashpw password _ := some ("$2b$12$" ++ password)
  checkpw password passhash := some (passhash = "$2b$12$" ++ password)
  checkpw_hashpw h := by
    cases h
    simp
  encode p := if p = alicePayload then "alice.jwt" else ""
  decode now token :=
    if token = "alice.jwt" ∧ now < alicePayload.exp then some alicePayload else none
  decode_encode h := by
    split at h
    · simp_all
    · simp at h
  expirySeconds := 3600
  localRouting := "883745000"

/-- A form of a user who gives one word for all that is not used. -/
def signupForm (username password firstname lastname : String) : Form := fun f =>
  if f ∈ newUserFields then
    ([("username", username), ("password", password), ("password-repeat", password),
      ("firstname", firstname), ("lastname", lastname)].lookup f).getD "unused"
  else none

/-- Alice, as she signs up. -/
def alice : NewUser := ⟨"alice", "bankofanthos", "Alice", "User"⟩

lemma frontDesk_init : (services (S := Unit) frontDesk [] []).init
    (⟨0, [], [], [], fun _ => .idle⟩ : State Bool String) :=
  ⟨⟨List.nodup_nil, List.nodup_nil⟩, 0, rfl⟩

variable (d) in
/-- The users that have been told so are there, with the hash of their password. -/
def Confirmed (s : State τ H) (rs : List Reply) : Prop :=
  ∀ u accountid, .created u accountid ∈ rs → ∃ passhash,
    u.row passhash accountid ∈ s.users ∧ d.checkpw u.password passhash = some true

lemma Steps.confirmed {s s' : State τ H} {a : Act τ S} {r : Option Reply} {rs : List Reply}
    (h : Steps d s a s' r) (hknown : ∀ t, Known d s (s.phase t)) (hs : Confirmed d s rs) :
    Confirmed d s' (rs ++ r.toList) := by
  intro u accountid hmem
  rcases List.mem_append.mp hmem with hmem | hmem
  · obtain ⟨passhash, hrow, hcheck⟩ := hs u accountid hmem
    exact ⟨passhash, h.mono.1 hrow, hcheck⟩
  · cases h with
    | tick | redrawn | goes => cases hmem
    | ends hend =>
        obtain rfl := List.mem_singleton.mp hmem
        cases hend
    | signed => cases List.mem_singleton.mp hmem
    | stored _ _ _ hr =>
        obtain rfl := List.mem_singleton.mp hmem
        rcases hr with hr | hr <;> cases hr
    | @created t a u' passhash accountid' r hp _ _ hr =>
        obtain rfl := List.mem_singleton.mp hmem
        rcases hr with hr | hr
        · cases hr
          have hu := hknown t
          rw [hp] at hu
          exact ⟨passhash, List.mem_append_right _ List.mem_cons_self, hu.2.1⟩
        · cases hr

variable (d) in
/-- The answer to a login of the user: a token with the claims of the user, that expires in time, or
a database that does not answer. -/
def Welcomes (u : NewUser) (accountid : String) : Except Failure Payload → Prop
  | .ok p => p.user = u.username ∧ p.acct = accountid ∧
      p.name = u.firstname ++ " " ++ u.lastname ∧ p.exp ≤ p.iat + d.expirySeconds
  | .error f => f = failedToRetrieve

/-- **A new user can log in**: in any run, a login with the name and the password of a user whose
signup has been confirmed before it is answered with a token of the user and of the account id of
the signup, unless the database does not answer. -/
theorem signup_login {ok : State τ H → Act τ S → Prop} {s : State τ H} {rs : List Reply}
    (h : (services d users₀ contacts₀).Emits ok (replies d) s rs) {before after : List Reply}
    {username password : String} {result : Except Failure Payload}
    (hlater : rs = before ++ .signedIn username password result :: after) {u : NewUser}
    {accountid : String} (hearlier : .created u accountid ∈ before)
    (hname : d.clean username = u.username) (hpassword : d.clean password = u.password) :
    Welcomes d u accountid result := by
  have hconfirmed : ∀ s rs, (services d users₀ contacts₀).Emits ok (replies d) s rs →
      Confirmed d s rs := by
    intro s rs h
    refine h.invariant ?_ ?_
    · intro s _ u accountid hmem
      cases hmem
    · intro s a s' rs hrun _ hs hstep
      obtain ⟨r, hr, hreplies⟩ := steps_of_step hstep
      rw [hreplies]
      exact hr.confirmed (enrolled hrun.run).known hs
  refine h.preceded (Q := fun before r => ∀ result, r = .signedIn username password result →
    .created u accountid ∈ before → Welcomes d u accountid result) ?_ before _ after hlater result
    rfl hearlier
  intro s a s' rs hrun _ hstep
  obtain ⟨r, hr, hreplies⟩ := steps_of_step hstep
  rw [hreplies]
  cases r with
  | none => exact .nil
  | some r =>
      refine .singleton fun result hresult hmem => ?_
      rw [List.append_nil] at hmem
      obtain ⟨passhash, hrow, hcheck⟩ := hconfirmed s rs hrun u accountid hmem
      have henrolled := enrolled hrun.run
      -- the row of the signup is the only one of the name
      have hsame : ∀ user ∈ s.users, user.username = d.clean username →
          user = u.row passhash accountid := fun user huser hu =>
        henrolled.sound.eq_of_username huser hrow (hu.trans hname)
      subst hresult
      cases hr with
      | ends hend =>
          cases hend with
          | unknown _ hnone => exact absurd hname.symm (State.getUser_none hnone _ hrow)
          | rejected _ huser hrejected =>
              obtain ⟨hin, hu⟩ := State.getUser_some huser
              rw [hsame _ hin hu, hpassword] at hrejected
              exact absurd hcheck hrejected
          | failed => rfl
      | created _ _ _ hr => rcases hr with hr | hr <;> cases hr
      | stored _ _ _ hr => rcases hr with hr | hr <;> cases hr
      | @signed t _ _ user exp hp =>
          have hknown := henrolled.known t
          rw [hp] at hknown
          obtain ⟨hin, hu, hexp⟩ := hknown
          obtain rfl := hsame user hin hu
          exact ⟨hname, rfl, rfl, hexp⟩

/-- Alice signs up and logs in. -/
theorem signup_login_alice : ∃ (s : State Bool String) (rs : List Reply),
    (services (S := Unit) frontDesk [] []).Emits (fun _ _ => True) (replies frontDesk) s rs ∧
      ∃ p, rs = [.created alice "1033623433"] ++ [.signedIn "alice" "bankofanthos" (.ok p)] ∧
        Welcomes frontDesk alice "1033623433" (.ok p) := by
  obtain ⟨s, rs, hrs, hp⟩ := (services (S := Unit) frontDesk [] []).exists_emits_of_trace
    (fun _ _ => True) (replies frontDesk) frontDesk_init
    [.createUser true (signupForm "alice" "bankofanthos" "Alice" "User"), .lookup true (),
      .draw true 1033623433, .next true, .tick 60, .login false "alice" "bankofanthos",
      .next false, .next false, .next false]
    (fun _ rs => rs = [.created alice "1033623433",
      .signedIn "alice" "bankofanthos" (.ok ⟨"alice", "1033623433", "Alice User", 60, 3660⟩)])
    (by decide +kernel)
  have hsplit : rs = [.created alice "1033623433"] ++ .signedIn "alice" "bankofanthos"
      (.ok ⟨"alice", "1033623433", "Alice User", 60, 3660⟩) :: [] := of_decide_eq_true hp
  exact ⟨s, rs, hrs, _, hsplit, signup_login hrs hsplit (List.mem_singleton_self _) rfl rfl⟩

end Accounts

end FinOpsPipeline
