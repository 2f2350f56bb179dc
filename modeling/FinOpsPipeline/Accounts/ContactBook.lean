import FinOpsPipeline.Accounts.Signups

/-!
The contacts of the users.

* `Unforged`: only the tokens of the user service are accepted.
* `Serial`: the contacts of a user are added one after the other.
* `contacts_sound`: every contact is that of a user, and not the account of the same user.
* `contacts_distinct`: the contacts of a user differ, when they are added one after the other.
-/

namespace FinOpsPipeline

namespace Accounts

open Bank (IsNumber)

variable {τ H S : Type} {d : Deployment H S} {users₀ : List (User H)} {contacts₀ : List Contact}
  {ok : State τ H → Act τ S → Prop}

/-! ### Tokens -/

variable (d) in
/-- A token that is accepted has been signed by the user service. -/
def Unforged (s : State τ H) : Act τ S → Prop
  | .getContacts _ _ header | .addContact _ _ header _ =>
      ∀ p ∈ d.decode s.now (bearerToken header), ∃ q ∈ s.issued, bearerToken header = d.encode q
  | _ => True

instance (s : State τ H) (a : Act τ S) : Decidable (Unforged d s a) :=
  match a with
  | .addContact _ _ header _ | .getContacts _ _ header =>
      inferInstanceAs (Decidable (∀ p ∈ d.decode s.now (bearerToken header),
        ∃ q ∈ s.issued, bearerToken header = d.encode q))
  | .tick _ | .createUser _ _ | .login _ _ _ | .lookup _ _ | .draw _ _ | .next _ | .fail _ _ =>
      isTrue trivial

/-- A request that is let in comes from a user, with the claims of the user. -/
lemma authorized_of {s : State τ H} {username : String} {header : Option String} {p : Payload}
    (hs : Enrolled d users₀ s)
    (hunforged : ∀ p ∈ d.decode s.now (bearerToken header),
      ∃ q ∈ s.issued, bearerToken header = d.encode q)
    (h : authorized d s username header = some p) :
    ∃ user ∈ s.users, user.username = username ∧ user.accountid = p.acct := by
  obtain ⟨hdecode, huser⟩ := Option.filter_eq_some_iff.mp h
  obtain ⟨q, hissued, heq⟩ := hunforged p hdecode
  rw [heq] at hdecode
  obtain rfl := d.decode_encode hdecode
  obtain ⟨user, hin, hname, hacct⟩ := (hs.issued p hissued).1
  exact ⟨user, hin, hname.trans (of_decide_eq_true huser), hacct⟩

/-! ### Contacts -/

/-- A contact whose columns are well formed. -/
structure Contact.Valid (localRouting : String) (x : Contact) : Prop where
  label : isLabel x.label = true
  accountNum : IsNumber 10 x.accountNum
  routingNum : IsNumber 9 x.routingNum
  external : x.isExternal = true → x.routingNum ≠ localRouting

variable (d) in
/-- An account that is not that of the user. -/
def OtherThan (users : List (User H)) (username accountNum routingNum : String) : Prop :=
  ∃ user ∈ users, user.username = username ∧
    ¬(accountNum = user.accountid ∧ routingNum = d.localRouting)

lemma OtherThan.mono {users users' : List (User H)} {username accountNum routingNum : String}
    (h : OtherThan d users username accountNum routingNum) (husers : users ⊆ users') :
    OtherThan d users' username accountNum routingNum := by
  obtain ⟨user, hin, hother⟩ := h
  exact ⟨user, husers hin, hother⟩

/-- The row of a contact has what was asked for. -/
lemma State.contactRow_some {s : State τ H} {username : String} {c : NewContact} {row : Contact}
    (h : s.contactRow username c = some row) : row.username = username ∧ row.label = c.label ∧
      row.accountNum = c.accountNum ∧ row.routingNum = c.routingNum ∧
        c.isExternal.truthy = row.isExternal := by
  rw [State.contactRow] at h
  split at h
  case isFalse => cases h
  obtain ⟨b, hb, rfl⟩ := Option.map_eq_some_iff.mp h
  exact ⟨rfl, rfl, rfl, rfl, Json.truthy_of_toBoolean hb⟩

variable (d) in
/-- What the checks of a contact have made sure of. -/
def Allowed (s : State τ H) : Phase H → Prop
  | .comparing username c | .storing username c =>
      c.Valid d.localRouting ∧ OtherThan d s.users username c.accountNum c.routingNum
  | _ => True

lemma Allowed.mono {s s' : State τ H} (husers : s.users ⊆ s'.users) {p : Phase H}
    (h : Allowed d s p) : Allowed d s' p := by
  cases p with
  | comparing | storing => exact ⟨h.1, h.2.mono husers⟩
  | _ => trivial

lemma Enters.allowed {s : State τ H} {t : τ} {a : Act τ S} {p : Phase H} (h : Enters d s t a p)
    (hs : Enrolled d users₀ s) (hunforged : Unforged d s a) (hp : Allowed d s (s.phase t)) :
    Allowed d s p := by
  cases h with
  | comparing _ hauth hvalid hself =>
      obtain ⟨user, hin, hname, hacct⟩ := authorized_of hs hunforged hauth
      exact ⟨hvalid, user, hin, hname, fun hown => hself ⟨hown.1.trans hacct, hown.2⟩⟩
  | storing hphase =>
      rw [hphase] at hp
      exact hp
  | named | hashed | drawn | asked | found | stamped | listing => trivial

variable [DecidableEq τ]

variable (d) (contacts₀) in
/-- What holds of the requests and of the contacts that have been added. -/
structure Booked (s : State τ H) : Prop where
  allowed : ∀ t, Allowed d s (s.phase t)
  new : ∃ new, s.contacts = contacts₀ ++ new ∧ ∀ x ∈ new, x.Valid d.localRouting ∧
    OtherThan d s.users x.username x.accountNum x.routingNum

lemma Steps.booked {s s' : State τ H} {a : Act τ S} {r : Option Reply} (h : Steps d s a s' r)
    (henrolled : Enrolled d users₀ s) (hunforged : Unforged d s a) (hs : Booked d contacts₀ s) :
    Booked d contacts₀ s' := by
  have husers := h.mono.1
  have hallowed : ∀ t, Allowed d s' (s'.phase t) := by
    intro t
    refine Allowed.mono husers ?_
    rcases h.phase t with hp | hp | hp
    · rw [hp]
      exact hs.allowed t
    · rw [hp]
      trivial
    · exact hp.allowed henrolled hunforged (hs.allowed t)
  obtain ⟨new, hnew, hvalid⟩ := hs.new
  have hkept : ∀ x ∈ new, x.Valid d.localRouting ∧
      OtherThan d s'.users x.username x.accountNum x.routingNum :=
    fun x hx => ⟨(hvalid x hx).1, (hvalid x hx).2.mono husers⟩
  cases h with
  | tick | redrawn | goes | ends | created | signed => exact ⟨hallowed, new, hnew, hkept⟩
  | @stored t a username c row r hphase hrow =>
      refine ⟨hallowed, new ++ [row], ?_, fun x hx => ?_⟩
      · rw [State.goto_contacts, ← List.append_assoc, ← hnew]
      · rcases List.mem_append.mp hx with hx | hx
        · exact hkept x hx
        · obtain rfl := List.mem_singleton.mp hx
          obtain ⟨hname, hlabel, haccount, hrouting, hexternal⟩ := State.contactRow_some hrow
          have hc := hs.allowed t
          rw [hphase] at hc
          obtain ⟨hc, hother⟩ := hc
          refine ⟨⟨hlabel ▸ hc.label, haccount ▸ hc.accountNum, hrouting ▸ hc.routingNum, ?_⟩, ?_⟩
          · rw [hrouting, ← hexternal]
            exact hc.external
          · rw [hname, haccount, hrouting]
            exact hother

/-- The contact of a reply that confirms it. -/
def Reply.added? : Reply → Option Contact
  | .added row => some row
  | _ => none

/-- A step that confirms a contact has written it. -/
lemma Steps.acknowledges_contact {s s' : State τ H} {a : Act τ S} {r : Option Reply}
    (h : Steps d s a s' r) : ∃ written, s'.contacts = s.contacts ++ written ∧
      (r.toList.filterMap Reply.added?).Sublist (written.map id) := by
  cases h with
  | tick | redrawn | goes => exact ⟨[], (List.append_nil _).symm, .slnil⟩
  | ends hend =>
      refine ⟨[], (List.append_nil _).symm, ?_⟩
      cases hend <;> exact .slnil
  | signed => exact ⟨[], (List.append_nil _).symm, .slnil⟩
  | created _ _ _ hr =>
      refine ⟨[], (List.append_nil _).symm, ?_⟩
      rcases hr with rfl | rfl <;> exact .slnil
  | @stored t a username c row r _ _ _ hr =>
      refine ⟨[row], rfl, ?_⟩
      rcases hr with rfl | rfl
      · exact List.Sublist.refl _
      · exact List.nil_sublist _

/-- A contact in JSON. -/
def contactForm (label accountNum routingNum : String) (isExternal : Bool) : String → Option Json :=
  fun f => [("label", .text label), ("account_num", .text accountNum),
    ("routing_num", .text routingNum), ("is_external", .bool isExternal)].lookup f

/-- Alice signs up and logs in. -/
def aliceSession : List (Act Bool Unit) :=
  [.createUser true (signupForm "alice" "bankofanthos" "Alice" "User"), .lookup true (),
    .draw true 1033623433, .next true, .login true "alice" "bankofanthos", .next true, .next true,
    .next true]

/-- Alice asks for a contact. -/
def aliceAdds (t : Bool) (label accountNum routingNum : String) (isExternal : Bool) :
    Act Bool Unit :=
  .addContact t "alice" (some "Bearer alice.jwt")
    (contactForm label accountNum routingNum isExternal)

/-- The external bank, as a contact of Alice. -/
def externalBank : Contact := ⟨"alice", "External Bank", "9099791699", "808889588", true⟩

/-- The user whose contact a request is about to compare with the others. -/
def Phase.comparing? : Phase H → Option String
  | .comparing username _ => some username
  | _ => none

/-- The user whose contact a request is about to store. -/
def Phase.storing? : Phase H → Option String
  | .storing username _ => some username
  | _ => none

/-- The contacts of a user are not read while another one of the same user is about to be stored. -/
def Serial (s : State τ H) : Act τ S → Prop
  | .next t => ∀ username ∈ (s.phase t).comparing?, ∀ t', (s.phase t').storing? ≠ some username
  | _ => True

omit [DecidableEq τ] in
instance [Fintype τ] (s : State τ H) (a : Act τ S) : Decidable (Serial s a) :=
  match a with
  | .next t => inferInstanceAs (Decidable
      (∀ username ∈ (s.phase t).comparing?, ∀ t', (s.phase t').storing? ≠ some username))
  | .getContacts _ _ _ | .addContact _ _ _ _ | .tick _ | .createUser _ _ | .login _ _ _
  | .lookup _ _ | .draw _ _ | .fail _ _ => isTrue trivial

/-- The later of two contacts does not clash with the earlier one of the same user. -/
def Apart (x y : Contact) : Prop :=
  x.username = y.username → ¬Clash y.accountNum y.routingNum y.label x

/-- The contacts are apart, also from those that are about to be stored, of which every user has at
most one. -/
structure Distinct (s : State τ H) : Prop where
  apart : s.contacts.Pairwise Apart
  storing : ∀ t username c, s.phase t = .storing username c →
    ∀ x ∈ s.contacts, x.username = username → ¬Clash c.accountNum c.routingNum c.label x
  alone : ∀ t t' username, (s.phase t).storing? = some username →
    (s.phase t').storing? = some username → t = t'

lemma Phase.storing?_eq {p : Phase H} {username : String} (h : p.storing? = some username) :
    ∃ c, p = .storing username c := by
  cases p with
  | storing username' c =>
      cases h
      exact ⟨c, rfl⟩
  | _ => cases h

/-- A request that is about to store a contact was so before, or has compared it. -/
lemma Steps.storing {s s' : State τ H} {a : Act τ S} {r : Option Reply} (h : Steps d s a s' r)
    {t : τ} {username : String} {c : NewContact} (hp : s'.phase t = .storing username c) :
    s.phase t = .storing username c ∨ (a = .next t ∧ s.phase t = .comparing username c ∧
      ∀ x ∈ s.getContacts username, ¬Clash c.accountNum c.routingNum c.label x) := by
  rcases h.phase t with heq | heq | heq
  · exact .inl (heq.symm.trans hp)
  · rw [hp] at heq
    cases heq
  · rw [hp] at heq
    cases heq with
    | storing hcomparing hclash => exact .inr ⟨rfl, hcomparing, hclash⟩

lemma Steps.distinct {s s' : State τ H} {a : Act τ S} {r : Option Reply} (h : Steps d s a s' r)
    (hserial : Serial s a) (hs : Distinct s) : Distinct s' := by
  have halone : ∀ t t' username, (s'.phase t).storing? = some username →
      (s'.phase t').storing? = some username → t = t' := by
    intro t t' username ht ht'
    obtain ⟨c, hc⟩ := Phase.storing?_eq ht
    obtain ⟨c', hc'⟩ := Phase.storing?_eq ht'
    rcases h.storing hc with hold | ⟨rfl, hcomparing, -⟩ <;>
      rcases h.storing hc' with hold' | ⟨hnext, hcomparing', -⟩
    · exact hs.alone t t' username (by rw [hold]; rfl) (by rw [hold']; rfl)
    · subst hnext
      exact absurd (by rw [hold]; rfl) (hserial username (by rw [hcomparing']; rfl) t)
    · exact absurd (by rw [hold']; rfl) (hserial username (by rw [hcomparing]; rfl) t')
    · exact Act.next.inj hnext
  have hstoring : s'.contacts = s.contacts → Distinct s' := by
    intro hcontacts
    refine ⟨hcontacts ▸ hs.apart, fun t username c hp x hx hname => ?_, halone⟩
    rw [hcontacts] at hx
    rcases h.storing hp with hold | ⟨-, -, hclash⟩
    · exact hs.storing t username c hold x hx hname
    · exact hclash x (List.mem_filter.mpr ⟨hx, decide_eq_true hname⟩)
  cases h with
  | tick | redrawn | goes | ends | created | signed => exact hstoring rfl
  | @stored t a username c row r hphase hrow =>
      obtain ⟨hname, hlabel, haccount, hrouting, -⟩ := State.contactRow_some hrow
      refine ⟨List.pairwise_append.mpr ⟨hs.apart, List.pairwise_singleton _ _, ?_⟩, ?_, halone⟩
      · intro x hx y hy hsame
        obtain rfl := List.mem_singleton.mp hy
        rw [haccount, hrouting, hlabel]
        exact hs.storing t username c hphase x hx (hsame.trans hname)
      · intro t' username' c' hp x hx hx'
        have hne : t' ≠ t := by
          rintro rfl
          rw [State.goto_same] at hp
          cases hp
        rw [State.goto_of_ne hne] at hp
        rcases List.mem_append.mp hx with hx | hx
        · exact hs.storing t' username' c' hp x hx hx'
        · -- the row is of another user than the one that the other request is for
          obtain rfl := List.mem_singleton.mp hx
          obtain rfl : username = username' := hname.symm.trans hx'
          exact absurd (hs.alone t' t username (congrArg Phase.storing? hp)
            (congrArg Phase.storing? hphase)) hne

/-- **Contacts differ**: in any run in which the contacts of a user are added one after the other,
no two contacts of a user are of one account or have one label, if none are to begin with. -/
theorem contacts_distinct (hok : ∀ s a, ok s a → Serial s a) (hapart₀ : contacts₀.Pairwise Apart)
    {s : State τ H} (h : (services d users₀ contacts₀).Run ok s) : s.contacts.Pairwise Apart := by
  have hdistinct : Distinct s := by
    refine h.invariant ?_ ?_
    · rintro s ⟨-, now, rfl⟩
      exact ⟨hapart₀, nofun, nofun⟩
    · intro s a s' _ hoka hs hstep
      obtain ⟨r, hr, -⟩ := steps_of_step hstep
      exact hr.distinct (hok s a hoka) hs
  exact hdistinct.apart

/-- Alice asks for one bank twice at once, under two labels, and the second one is refused. -/
theorem contacts_distinct_alice : ∃ s : State Bool String,
    (services (S := Unit) frontDesk [] []).Run Serial s ∧ s.contacts = [externalBank] ∧
      s.contacts.Pairwise Apart := by
  obtain ⟨s, hrun, hp⟩ := (services frontDesk [] []).exists_run_of_schedule Serial
    frontDesk_init
    (aliceSession ++ [aliceAdds true "External Bank" "9099791699" "808889588" true,
      aliceAdds false "Bank" "9099791699" "808889588" true, .next true, .next true, .next false])
    (fun s => s.contacts = [externalBank]) (by decide +kernel)
  exact ⟨s, hrun, of_decide_eq_true hp, contacts_distinct (fun _ _ h => h) List.Pairwise.nil hrun⟩

-- When the second request reads the contacts before the first one has written, both are written.
example : (((services (S := Unit) frontDesk [] []).schedule (fun _ _ => True)
    (⟨0, [], [], [], fun _ => .idle⟩ : State Bool String)
    (aliceSession ++ [aliceAdds true "External Bank" "9099791699" "808889588" true,
      aliceAdds false "External Bank" "9099791699" "808889588" true, .next true, .next false,
      .next true, .next false])).any fun s =>
        s.contacts = [externalBank, externalBank]) = true := by
  decide +kernel

end Accounts

end FinOpsPipeline
