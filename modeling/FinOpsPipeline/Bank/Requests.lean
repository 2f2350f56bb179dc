import FinOpsPipeline.Bank.Balances
import Mathlib.Data.Fintype.Basic

/-!
What is behind the rows that the ledger writers commit.

The writers leave a record of each request: it has passed the checks, the balance of its sender
was shown, its row is committed, its uuid is entered.

* `Record`, `records`: the records of a step.
* `Backed`: the checks and the balance that a payment has behind it.
* `Steps.traced`, `rows_backed`: in any run a row is committed for one request that has passed.
* `uuid_entered`: an entered uuid is refused for an hour.
* `Exclusive`, `hour_apart`: what it takes for two rows of one uuid to be an hour apart.
-/

namespace FinOpsPipeline

namespace Bank

open Follower

variable {ι τ ω : Type*} [DecidableEq ι] [DecidableEq τ] [DecidableEq ω] {d : Deployment}
  {log₀ : List Transaction} {ok : State ι τ ω → Act ι τ ω → Prop}

/-! ### Records -/

/-- What a request leaves behind: it passed the checks, a reader has shown the balance of an
account, its row was committed, its uuid was entered. -/
inductive Record (ι τ ω : Type*) where
  | admitted (t : τ) (w : ω) (time : ℤ) (token : String) (tx : Transfer)
  | shown (t : τ) (i : ι) (accountId : String) (balance : ℤ)
  | committed (t : τ) (w : ω) (time : ℤ) (tx : Transfer) (row : Transaction)
  | remembered (t : τ) (w : ω) (time : ℤ) (uuid : String)
deriving DecidableEq

namespace Record

/-- The thread of the request. -/
def thread : Record ι τ ω → τ
  | admitted t _ _ _ _ => t
  | shown t _ _ _ => t
  | committed t _ _ _ _ => t
  | remembered t _ _ _ => t

/-- The row that is committed. -/
def row? : Record ι τ ω → Option Transaction
  | committed _ _ _ _ row => some row
  | _ => none

end Record

/-- The records of one thread. -/
def recordsOf (t : τ) (rs : List (Record ι τ ω)) : List (Record ι τ ω) :=
  rs.filter (·.thread = t)

/-- The rows that the records tell of. -/
def rowsOf (rs : List (Record ι τ ω)) : List Transaction := rs.filterMap Record.row?

/-- The records of a step. -/
def records (d : Deployment) (s : State ι τ ω) : Act ι τ ω → List (Record ι τ ω)
  | .submit t w header r =>
      match precheck d.localRoutingNum d.verify s.now (s.seen w) header r with
      | .ok (token, tx) => [.admitted t w s.now token tx]
      | .error _ => []
  | .ask t i =>
      match s.phase t with
      | .checked _ token tx =>
          match (s.readers i).bind (·.cache tx.fromAccountNum) with
          | none => []
          | some balance =>
              match authorize d.verify s.now (some ("Bearer " ++ token)) tx.fromAccountNum with
              | .ok _ => [.shown t i tx.fromAccountNum balance]
              | .error _ => []
      | _ => []
  | .answer t =>
      match s.phase t with
      | .loading _ _ i =>
          match (s.readers i).bind (·.loads t) with
          | none => []
          | some (a, balance) => [.shown t i a balance]
      | _ => []
  | .commit t =>
      match s.phase t with
      | .saving w tx transactionId timestamp =>
          [.committed t w s.now tx (tx.row transactionId timestamp)]
      | _ => []
  | .remember t =>
      match s.phase t with
      | .saved w uuid => [.remembered t w s.now uuid]
      | _ => []
  | _ => []

/-- The records that a step can leave. -/
inductive Leaves (d : Deployment) (s : State ι τ ω) : Act ι τ ω → List (Record ι τ ω) → Prop where
  | none {a : Act ι τ ω} : Leaves d s a []
  | admitted {t : τ} {w : ω} {header : Option String} {r : Request} {token : String}
      {tx : Transfer} :
      precheck d.localRoutingNum d.verify s.now (s.seen w) header r = .ok (token, tx) →
      Leaves d s (.submit t w header r) [.admitted t w s.now token tx]
  | asked {t : τ} {i : ι} {a : String} {balance : ℤ} : Leaves d s (.ask t i) [.shown t i a balance]
  | answered {t : τ} {i : ι} {a : String} {balance : ℤ} :
      Leaves d s (.answer t) [.shown t i a balance]
  | committed {t : τ} {w : ω} {tx : Transfer} {transactionId timestamp : ℤ} :
      s.phase t = .saving w tx transactionId timestamp →
      Leaves d s (.commit t) [.committed t w s.now tx (tx.row transactionId timestamp)]
  | remembered {t : τ} {w : ω} {uuid : String} : s.phase t = .saved w uuid →
      Leaves d s (.remember t) [.remembered t w s.now uuid]

omit [DecidableEq ι] [DecidableEq τ] [DecidableEq ω] in
lemma leaves (s : State ι τ ω) (a : Act ι τ ω) : Leaves d s a (records d s a) := by
  cases a with
  | tick | boot | run | get | insert | abort => exact .none
  | submit t w header r =>
      simp only [records]
      split
      · exact .admitted ‹_›
      · exact .none
  | ask t i =>
      simp only [records]
      split
      · split
        · exact .none
        · split
          · exact .asked
          · exact .none
      · exact .none
  | answer t =>
      simp only [records]
      split
      · split
        · exact .none
        · exact .answered
      · exact .none
  | commit t =>
      simp only [records]
      split
      · exact .committed ‹_›
      · exact .none
  | remember t =>
      simp only [records]
      split
      · exact .remembered ‹_›
      · exact .none

omit [DecidableEq ι] [DecidableEq τ] [DecidableEq ω] in
/-- A step leaves at most one record. -/
lemma records_split {s : State ι τ ω} {a : Act ι τ ω} {before after : List (Record ι τ ω)}
    {rec : Record ι τ ω} (h : records d s a = before ++ rec :: after) :
    before = [] ∧ Leaves d s a [rec] := by
  have hleaves := leaves (d := d) s a
  rw [h] at hleaves
  cases before with
  | cons r before =>
      generalize heq : r :: before ++ rec :: after = rs at hleaves
      cases hleaves <;> simp at heq
  | nil =>
      refine ⟨rfl, ?_⟩
      cases after with
      | nil => exact hleaves
      | cons r after =>
          generalize heq : [] ++ rec :: r :: after = rs at hleaves
          cases hleaves <;> simp at heq

omit [DecidableEq ι] [DecidableEq ω] in
@[simp] lemma recordsOf_append (t : τ) (rs rs' : List (Record ι τ ω)) :
    recordsOf t (rs ++ rs') = recordsOf t rs ++ recordsOf t rs' :=
  List.filter_append ..

omit [DecidableEq ι] [DecidableEq ω] in
/-- The step of another thread leaves nothing on a thread. -/
lemma recordsOf_other {s : State ι τ ω} {a : Act ι τ ω} {t : τ} (h : a.thread? ≠ some t) :
    recordsOf t (records d s a) = [] := by
  refine List.filter_eq_nil_iff.mpr fun rec hrec => ?_
  obtain ⟨before, after, heq⟩ := List.append_of_mem hrec
  have hleaves := (records_split heq).2
  rw [decide_eq_true_eq]
  rintro rfl
  cases hleaves <;> exact h rfl

/-! ### What a payment has behind it -/

/-- The last record is that the payment has passed the checks, with a token that is valid and, for
a local sender, the sender's own. -/
def Asked (d : Deployment) (t : τ) (w : ω) (token : String) (tx : Transfer)
    (rs : List (Record ι τ ω)) : Prop :=
  ∃ earlier time, rs = earlier ++ [.admitted t w time token tx] ∧ (d.verify time token).isSome ∧
    (tx.fromRoutingNum = d.localRoutingNum → d.verify time token = some (some tx.fromAccountNum))

/-- The payment has passed the checks, and for a local sender a reader has then shown a balance
that covers it. -/
def Backed (d : Deployment) (t : τ) (w : ω) (tx : Transfer) (rs : List (Record ι τ ω)) : Prop :=
  ∃ token, (tx.fromRoutingNum ≠ d.localRoutingNum ∧ Asked d t w token tx rs) ∨
    (tx.fromRoutingNum = d.localRoutingNum ∧ ∃ asked i balance, Asked d t w token tx asked ∧
      rs = asked ++ [.shown t i tx.fromAccountNum balance] ∧ tx.amount ≤ balance)

/-- What the records of a thread end with, by its phase. -/
def Traced (d : Deployment) (t : τ) : Phase ι ω → List (Record ι τ ω) → Prop
  | .checked w token tx, rs => tx.fromRoutingNum = d.localRoutingNum ∧ Asked d t w token tx rs
  | .loading w tx _, rs =>
      tx.fromRoutingNum = d.localRoutingNum ∧ ∃ token, Asked d t w token tx rs
  | .funded w tx, rs => Backed d t w tx rs
  | .saving w tx _ _, rs => Backed d t w tx rs
  | _, _ => True

omit [DecidableEq ι] [DecidableEq τ] [DecidableEq ω] in
/-- A balance that is shown backs the payment that it covers. -/
lemma traced_replied {t : τ} {w : ω} {token : String} {tx : Transfer} {rs : List (Record ι τ ω)}
    (hlocal : tx.fromRoutingNum = d.localRoutingNum) (h : Asked d t w token tx rs) (i : ι)
    (balance : ℤ) : Traced d t (.replied w tx balance)
      (rs ++ [.shown t i tx.fromAccountNum balance]) := by
  rw [Phase.replied]
  split
  · exact ⟨token, .inr ⟨hlocal, rs, i, balance, h, rfl, covers_le ‹_›⟩⟩
  · trivial

/-- One step keeps the records of a thread with its phase. -/
lemma Steps.traced {s s' : State ι τ ω} {a : Act ι τ ω} (hstep : Steps d s a s') (hw : Waiting s)
    {t : τ} {rs : List (Record ι τ ω)} (h : Traced d t (s.phase t) (recordsOf t rs)) :
    Traced d t (s'.phase t) (recordsOf t (rs ++ records d s a)) := by
  rw [recordsOf_append]
  by_cases ht : a.thread? = some t
  · cases hstep with
    | tick | boot | run => cases ht
    | rejected hcheck => simpa [records, recordsOf, hcheck] using h
    | got => simpa [records, recordsOf] using h
    | @admitted t' w header r token tx _ hcheck =>
        obtain rfl : t' = t := by simpa [Act.thread?] using ht
        obtain ⟨-, -, -, hvalid, hsender⟩ := precheck_ok _ _ hcheck
        have hasked : Asked d t' w token tx
            (recordsOf t' rs ++ [.admitted t' w s.now token tx]) :=
          ⟨_, _, rfl, hvalid, hsender⟩
        rw [setPhase_same]
        rcases admitted_cases (ι := ι) d.localRoutingNum w token tx with ⟨hlocal, heq⟩ |
          ⟨hne, heq⟩ <;> rw [heq]
        · simpa [records, recordsOf, hcheck, Record.thread] using
            (show Traced d t' (.checked w token tx) _ from ⟨hlocal, hasked⟩)
        · simpa [records, recordsOf, hcheck, Record.thread] using
            (show Traced d t' (.funded w tx) _ from ⟨token, .inl ⟨hne, hasked⟩⟩)
    | @hit t' i w token tx r balance hphase hauthorized hr hc =>
        obtain rfl : t' = t := by simpa [Act.thread?] using ht
        rw [hphase] at h
        rw [setPhase_same]
        simpa [records, recordsOf, hphase, hr, hc, hauthorized, Record.thread] using
          traced_replied h.1 h.2 i balance
    | @miss t' i w token tx r r' hphase hr hc _ =>
        obtain rfl : t' = t := by simpa [Act.thread?] using ht
        rw [hphase] at h
        rw [setPhase_same]
        simpa [records, recordsOf, hphase, hr, hc] using
          (show Traced d t' (.loading w tx i) _ from ⟨h.1, token, h.2⟩)
    | @answered t' i w tx r r' a balance hphase hr hload _ =>
        obtain rfl : t' = t := by simpa [Act.thread?] using ht
        obtain ⟨r₁, balance₁, hr₁, hload₁⟩ := hw t' w tx i hphase
        obtain rfl : r = r₁ := by simpa [hr] using hr₁
        obtain ⟨rfl, -⟩ : a = tx.fromAccountNum ∧ balance = balance₁ := by
          simpa [hload] using hload₁
        rw [hphase] at h
        obtain ⟨hlocal, token, hasked⟩ := h
        rw [setPhase_same]
        simpa [records, recordsOf, hphase, hr, hload, Record.thread] using
          traced_replied hlocal hasked i balance
    | @inserted t' w tx hphase =>
        obtain rfl : t' = t := by simpa [Act.thread?] using ht
        rw [hphase] at h
        rw [setPhase_same]
        simpa [records, recordsOf] using (show Traced d t' (.saving w tx _ _) _ from h)
    | refused | getMiss | loaded | committed | remembered | aborted =>
        simp only [Act.thread?, Option.some.injEq] at ht
        subst ht
        rw [setPhase_same]
        trivial
  · rw [hstep.phase_other ht, recordsOf_other ht, List.append_nil]
    exact h

omit [DecidableEq ι] [DecidableEq τ] [DecidableEq ω] in
lemma rowsOf_append (rs rs' : List (Record ι τ ω)) :
    rowsOf (rs ++ rs') = rowsOf rs ++ rowsOf rs' :=
  List.filterMap_append

omit [DecidableEq ι] [DecidableEq τ] [DecidableEq ω] in
/-- Only a commit tells of a row. -/
lemma rowsOf_records {s : State ι τ ω} {a : Act ι τ ω} (h : ∀ t, a ≠ .commit t) :
    rowsOf (records d s a) = [] := by
  have hleaves := leaves (d := d) s a
  generalize records d s a = rs at hleaves
  cases hleaves with
  | committed => exact absurd rfl (h _)
  | none | admitted | asked | answered | remembered => simp [rowsOf, Record.row?]

/-- A step adds to the ledger what it records. -/
lemma Steps.log_eq {s s' : State ι τ ω} {a : Act ι τ ω} (hstep : Steps d s a s') :
    s'.log = s.log ++ rowsOf (records d s a) := by
  cases hstep with
  | committed hphase => simp [records, rowsOf, hphase, Record.row?, State.append, State.setPhase]
  | tick | boot | run | rejected | admitted | refused | hit | miss | got | getMiss | answered
  | loaded | inserted | remembered | aborted =>
      rw [rowsOf_records (by simp)]
      exact (List.append_nil s.log).symm

/-- In every run the records of a thread go with its phase. -/
lemma traced {s : State ι τ ω} {rs : List (Record ι τ ω)}
    (h : (bank d log₀).Emits ok (records d) s rs) (t : τ) :
    Traced d t (s.phase t) (recordsOf t rs) := by
  refine h.invariant (P := fun s rs => Traced d t (s.phase t) (recordsOf t rs)) ?_ ?_
  · rintro s ⟨-, now, nextId, -, -, rfl⟩
    trivial
  · intro s a s' rs hrun _ hs hstep
    exact (steps_of_step d hstep).traced (waiting hrun.run) hs

/-- **Every row has its own request behind it**: in any run the ledger grows by the rows of the
commits alone, and each is committed after a request that has passed the checks, with a valid
token that is the sender's own when the sender is local, then a balance of the sender that
covers it, and nothing else of its thread in between. -/
theorem rows_backed {s : State ι τ ω} {rs : List (Record ι τ ω)}
    (h : (bank d log₀).Emits ok (records d) s rs) :
    s.log = log₀ ++ rowsOf rs ∧
      ∀ before t w time tx row after, rs = before ++ .committed t w time tx row :: after →
        Backed d t w tx (recordsOf t before) ∧ tx.Valid ∧
          ∃ transactionId timestamp, row = tx.row transactionId timestamp := by
  constructor
  · refine h.invariant (P := fun s rs => s.log = log₀ ++ rowsOf rs) ?_ ?_
    · rintro s ⟨-, now, nextId, -, -, rfl⟩
      simp [rowsOf]
    · intro s a s' rs _ _ hs hstep
      rw [(steps_of_step d hstep).log_eq, hs, List.append_assoc, rowsOf_append]
  · intro before t w time tx row after heq
    refine h.preceded (Q := fun before rec => ∀ t w time tx row,
      rec = .committed t w time tx row → Backed d t w tx (recordsOf t before) ∧ tx.Valid ∧
        ∃ transactionId timestamp, row = tx.row transactionId timestamp)
      ?_ before _ after heq t w time tx row rfl
    intro s a s' rs hrun _ _ before rec after hsplit t w time tx row hrec
    obtain ⟨rfl, hleaves⟩ := records_split hsplit
    subst hrec
    cases hleaves with
    | @committed _ _ _ transactionId timestamp hphase =>
        have htraced := traced hrun t
        rw [hphase] at htraced
        rw [List.append_nil]
        exact ⟨htraced, (sound hrun.run).valid t w tx (by rw [hphase]; rfl), _, _, rfl⟩

/-- The rent is the one row that is added, for the request of its user. -/
theorem rows_backed_rent : ∃ (s : State Bool Bool Unit) (rs : List (Record Bool Bool Unit)),
    s.log.length = 2 ∧ s.log = [salary] ++ rowsOf rs ∧
      ∀ before t w time tx row after, rs = before ++ .committed t w time tx row :: after →
        Backed branch t w tx (recordsOf t before) ∧ tx.Valid ∧
          ∃ transactionId timestamp, row = tx.row transactionId timestamp := by
  obtain ⟨s, hs, hlog⟩ := (bank branch [salary]).exists_run_of_schedule (fun _ _ => True)
    morning_init (.boot true true :: payRent) (fun s => s.log.length == 2) (by decide +kernel)
  obtain ⟨rs, hrs⟩ := hs.emits (records branch)
  exact ⟨s, rs, by simpa using hlog, rows_backed hrs⟩

/-! ### Uuids -/

lemma Steps.now_le {s s' : State ι τ ω} {a : Act ι τ ω} (hstep : Steps d s a s') :
    s.now ≤ s'.now := by
  cases hstep with
  | @tick n => exact Int.le_add_of_nonneg_right (Int.natCast_nonneg n)
  | boot | run | rejected | admitted | refused | hit | miss | got | getMiss | answered | loaded
  | inserted | committed | remembered | aborted => exact le_rfl

/-- The uuid has an entry in the cache of the writer that is not older than a time. -/
def EnteredSince (s : State ι τ ω) (w : ω) (uuid : String) (time : ℤ) : Prop :=
  time ≤ s.now ∧ ∃ put, s.submitted w uuid = some put ∧ time ≤ put

/-- An entry is only replaced by a newer one. -/
lemma Steps.enteredSince {s s' : State ι τ ω} {a : Act ι τ ω} (hstep : Steps d s a s') {w : ω}
    {uuid : String} {time : ℤ} (h : EnteredSince s w uuid time) :
    EnteredSince s' w uuid time := by
  refine ⟨h.1.trans hstep.now_le, ?_⟩
  obtain ⟨hnow, put, hput, htime⟩ := h
  cases hstep with
  | @remembered t w' uuid' =>
      by_cases hw : w = w'
      · subst hw
        by_cases hu : uuid = uuid'
        · subst hu
          exact ⟨s.now, by simp [State.setPhase, State.remember], hnow⟩
        · exact ⟨put, by simpa [State.setPhase, State.remember, hu] using hput, htime⟩
      · exact ⟨put, by simpa [State.setPhase, State.remember, hw] using hput, htime⟩
  | tick | boot | run | rejected | admitted | refused | hit | miss | got | getMiss | answered
  | loaded | inserted | committed | aborted => exact ⟨put, hput, htime⟩

omit [DecidableEq ι] [DecidableEq τ] [DecidableEq ω] in
/-- A uuid that is not seen has no entry of the last hour. -/
lemma EnteredSince.hour {s : State ι τ ω} {w : ω} {uuid : String} {time : ℤ}
    (h : EnteredSince s w uuid time) (hseen : s.seen w uuid = false) :
    time + expireAfterWrite ≤ s.now := by
  obtain ⟨-, put, hput, htime⟩ := h
  simp only [State.seen, hput, decide_eq_false_iff_not, not_lt] at hseen
  omega

/-- In any run an entered uuid has an entry since. -/
lemma entered {s : State ι τ ω} {rs : List (Record ι τ ω)}
    (h : (bank d log₀).Emits ok (records d) s rs) :
    ∀ t w time uuid, .remembered t w time uuid ∈ rs → EnteredSince s w uuid time := by
  refine h.invariant (P := fun s rs => ∀ t w time uuid, .remembered t w time uuid ∈ rs →
    EnteredSince s w uuid time) (by simp) ?_
  intro s a s' rs _ _ hs hstep t w time uuid hmem
  have hsteps := steps_of_step d hstep
  rcases List.mem_append.mp hmem with hmem | hmem
  · exact hsteps.enteredSince (hs t w time uuid hmem)
  · obtain ⟨before, after, hsplit⟩ := List.append_of_mem hmem
    cases (records_split hsplit).2 with
    | remembered hphase =>
        simp only [bank, step, hphase, Option.some.injEq] at hstep
        subst hstep
        exact ⟨le_rfl, s.now, by simp [State.setPhase, State.remember], le_rfl⟩

/-- **An entered uuid is refused for an hour**: in any run, a request that passes the checks of a
writer does so at least an hour after every entry of its uuid on this writer. -/
theorem uuid_entered {s : State ι τ ω} {rs : List (Record ι τ ω)}
    (h : (bank d log₀).Emits ok (records d) s rs) {before after : List (Record ι τ ω)} {t : τ}
    {w : ω} {time : ℤ} {token : String} {tx : Transfer}
    (hadmitted : rs = before ++ .admitted t w time token tx :: after) {t' : τ} {time' : ℤ}
    (hentered : .remembered t' w time' tx.uuid ∈ before) : time' + expireAfterWrite ≤ time := by
  refine h.preceded (Q := fun before rec => ∀ t w time token tx,
    rec = .admitted t w time token tx → ∀ t' time', .remembered t' w time' tx.uuid ∈ before →
      time' + expireAfterWrite ≤ time) ?_ before _ after hadmitted t w time token tx rfl t' time'
    hentered
  intro s a s' rs hrun _ _ before rec after hsplit t w time token tx hrec t' time' hmem
  obtain ⟨rfl, hleaves⟩ := records_split hsplit
  subst hrec
  rw [List.append_nil] at hmem
  cases hleaves with
  | admitted hcheck =>
      exact (entered hrun t' w time' tx.uuid hmem).hour (precheck_ok _ _ hcheck).2.2.1

/-- The transfer of the rent. -/
def rentTransfer : Transfer :=
  ⟨"1011226111", "883745000", "1033623433", "883745000", 200, "rent"⟩

/-- The rent is asked for again an hour after it is paid. -/
theorem uuid_entered_rent : ∃ (s : State Bool Bool Unit) (rs before : List (Record Bool Bool Unit))
    (time time' : ℤ), rs = before ++ [.admitted false () time "testuser" rentTransfer] ∧
      .remembered true () time' "rent" ∈ before ∧
      (bank branch [salary]).Emits (fun _ _ => True) (records branch) s rs ∧
      time' + expireAfterWrite ≤ time := by
  obtain ⟨s, rs, hrs, hp⟩ := (bank branch [salary]).exists_emits_of_trace (fun _ _ => True)
    (records branch) morning_init (.boot true true :: payRent ++
      [.tick 3600, .submit false () (some "Bearer testuser") rent])
    (fun _ rs => rs.drop 4 = [.admitted false () 3600 "testuser" rentTransfer] ∧
      .remembered true () 0 "rent" ∈ rs.take 4) (by decide +kernel)
  obtain ⟨hlast, hmem⟩ := of_decide_eq_true hp
  have hsplit : rs = rs.take 4 ++ .admitted false () 3600 "testuser" rentTransfer :: [] := by
    rw [← hlast, List.take_append_drop]
  exact ⟨s, rs, rs.take 4, 3600, 0, hsplit, hmem, hrs, uuid_entered hrs hsplit hmem⟩

/-! ### Requests of one uuid, one after the other -/

/-- The request is of the uuid on the writer, from the checks to the entry of the uuid. -/
def Phase.Serves (p : Phase ι ω) (w : ω) (uuid : String) : Prop :=
  (∃ tx, p.transfer? = some (w, tx) ∧ tx.uuid = uuid) ∨ p = .saved w uuid

/-- A request is submitted when no other of its uuid is being served by the writer, and none that
is committed fails. -/
def Exclusive (s : State ι τ ω) : Act ι τ ω → Prop
  | .submit _ w _ r => ∀ t, ¬(s.phase t).Serves w r.uuid
  | .abort t => ∀ w uuid, s.phase t ≠ .saved w uuid
  | _ => True

instance (p : Phase ι ω) (w : ω) (uuid : String) : Decidable (p.Serves w uuid) :=
  decidable_of_iff ((∃ x ∈ p.transfer?, x.1 = w ∧ x.2.uuid = uuid) ∨ p = .saved w uuid) <| by
    refine or_congr_left ⟨?_, ?_⟩
    · rintro ⟨⟨w, tx⟩, hx, rfl, rfl⟩
      exact ⟨tx, hx, rfl⟩
    · rintro ⟨tx, hx, rfl⟩
      exact ⟨(w, tx), hx, rfl, rfl⟩

instance [Fintype τ] (s : State ι τ ω) (a : Act ι τ ω) : Decidable (Exclusive s a) :=
  match a with
  | .submit _ w _ r => inferInstanceAs (Decidable (∀ t, ¬(s.phase t).Serves w r.uuid))
  | .abort t =>
      match h : s.phase t with
      | .saved w uuid => isFalse fun hne => hne w uuid h
      | .idle | .checked .. | .loading .. | .lookup .. | .funded .. | .saving .. =>
          isTrue fun w uuid => by simp [h]
  | .tick .. | .boot .. | .run .. | .ask .. | .get .. | .answer .. | .insert .. | .commit ..
  | .remember .. => isTrue trivial

/-- A request whose uuid has to be entered was committed. -/
lemma Steps.saved {s s' : State ι τ ω} {a : Act ι τ ω} (h : Steps d s a s') {t : τ} {w : ω}
    {uuid : String} (hp : s'.phase t = .saved w uuid) : s.phase t = .saved w uuid ∨
      (a = .commit t ∧ ∃ tx, (s.phase t).transfer? = some (w, tx) ∧ tx.uuid = uuid) := by
  by_cases ht : a.thread? = some t
  · cases h with
    | tick | boot | run | rejected | got => exact .inl hp
    | @committed t' w' tx transactionId timestamp hphase =>
        obtain rfl : t' = t := by simpa [Act.thread?] using ht
        simp only [setPhase_same, Phase.saved.injEq] at hp
        obtain ⟨rfl, rfl⟩ := hp
        exact .inr ⟨rfl, tx, by rw [hphase]; rfl, rfl⟩
    | admitted =>
        simp only [Act.thread?, Option.some.injEq] at ht
        subst ht
        rw [setPhase_same, Phase.admitted] at hp
        split at hp <;> cases hp
    | hit | answered =>
        simp only [Act.thread?, Option.some.injEq] at ht
        subst ht
        rw [setPhase_same, Phase.replied] at hp
        split at hp <;> cases hp
    | refused | miss | getMiss | loaded | inserted | remembered | aborted =>
        simp only [Act.thread?, Option.some.injEq] at ht
        subst ht
        simp at hp
  · rw [h.phase_other ht] at hp
    exact .inl hp

/-- A request that is served was so before, or has just passed the checks. -/
lemma Steps.serves {s s' : State ι τ ω} {a : Act ι τ ω} (h : Steps d s a s') {t : τ} {w : ω}
    {uuid : String} (hp : (s'.phase t).Serves w uuid) :
    (s.phase t).Serves w uuid ∨ ∃ header r, a = .submit t w header r ∧ r.uuid = uuid := by
  rcases hp with ⟨tx, hp, rfl⟩ | hp
  · rcases h.transfer hp with hold | ⟨header, r, token, rfl, hcheck⟩
    · exact .inl (.inl ⟨tx, hold, rfl⟩)
    · exact .inr ⟨header, r, rfl, (precheck_ok _ _ hcheck).2.1.symm⟩
  · rcases h.saved hp with hold | ⟨-, htx⟩
    · exact .inl (.inr hold)
    · exact .inl (.inl htx)

/-- The uuid of a committed request stays to be entered until it is. -/
lemma Steps.saved_or_entered {s s' : State ι τ ω} {a : Act ι τ ω} (h : Steps d s a s')
    (hok : Exclusive s a) {t : τ} {w : ω} {uuid : String} (hp : s.phase t = .saved w uuid) :
    s'.phase t = .saved w uuid ∨ EnteredSince s' w uuid s.now := by
  by_cases ht : a.thread? = some t
  · cases h with
    | tick | boot | run | rejected | got => exact .inl hp
    | @remembered t' w' uuid' hphase =>
        obtain rfl : t' = t := by simpa [Act.thread?] using ht
        rw [hp] at hphase
        cases hphase
        exact .inr ⟨le_rfl, s.now, by simp [State.setPhase, State.remember], le_rfl⟩
    | @aborted t' =>
        obtain rfl : t' = t := by simpa [Act.thread?] using ht
        exact absurd hp (hok w uuid)
    | admitted hphase | refused hphase | hit hphase | miss hphase | getMiss hphase
    | answered hphase | loaded hphase | inserted hphase | committed hphase =>
        simp only [Act.thread?, Option.some.injEq] at ht
        subst ht
        rw [hp] at hphase
        cases hphase
  · rw [← h.phase_other ht] at hp
    exact .inl hp

/-- The commits of a uuid are entered or about to be, no two requests of a uuid are served at
once, and those that are served have no commit of the last hour. -/
structure Deduplicated (s : State ι τ ω) (rs : List (Record ι τ ω)) : Prop where
  unique : ∀ t t' w uuid, (s.phase t).Serves w uuid → (s.phase t').Serves w uuid → t = t'
  marked : ∀ t w time tx row, .committed t w time tx row ∈ rs →
    (time ≤ s.now ∧ ∃ t', s.phase t' = .saved w tx.uuid) ∨ EnteredSince s w tx.uuid time
  apart : ∀ t w tx, (s.phase t).transfer? = some (w, tx) → ∀ t' time tx' row,
    .committed t' w time tx' row ∈ rs → tx'.uuid = tx.uuid → time + expireAfterWrite ≤ s.now

/-- One exclusive step keeps the uuids apart. -/
lemma Steps.deduplicated {s s' : State ι τ ω} {a : Act ι τ ω} (hstep : Steps d s a s')
    (hok : Exclusive s a) {rs : List (Record ι τ ω)} (h : Deduplicated s rs) :
    Deduplicated s' (rs ++ records d s a) := by
  have hcommitted : ∀ t w time tx row, .committed t w time tx row ∈ rs ++ records d s a →
      .committed t w time tx row ∈ rs ∨ (a = .commit t ∧ time = s.now ∧
        (s.phase t).transfer? = some (w, tx)) := by
    intro t w time tx row hmem
    rcases List.mem_append.mp hmem with hmem | hmem
    · exact .inl hmem
    · obtain ⟨before, after, hsplit⟩ := List.append_of_mem hmem
      cases (records_split hsplit).2 with
      | committed hphase => exact .inr ⟨rfl, rfl, by rw [hphase]; rfl⟩
  refine ⟨?_, ?_, ?_⟩
  · intro t t' w uuid ht ht'
    rcases hstep.serves ht with hold | ⟨header, r, rfl, huuid⟩ <;>
      rcases hstep.serves ht' with hold' | ⟨header', r', heq, huuid'⟩
    · exact h.unique t t' w uuid hold hold'
    · subst heq
      exact absurd (huuid' ▸ hold) (hok t)
    · exact absurd (huuid ▸ hold') (hok t')
    · cases heq
      rfl
  · intro t w time tx row hmem
    rcases hcommitted t w time tx row hmem with hold | ⟨rfl, rfl, htransfer⟩
    · rcases h.marked t w time tx row hold with ⟨htime, t', hsaved⟩ | hentered
      · rcases hstep.saved_or_entered hok hsaved with hsaved' | ⟨hnow, put, hput, hle⟩
        · exact .inl ⟨htime.trans hstep.now_le, t', hsaved'⟩
        · exact .inr ⟨htime.trans hnow, put, hput, htime.trans hle⟩
      · exact .inr (hstep.enteredSince hentered)
    · cases hstep with
      | @committed _ w' tx' transactionId timestamp hphase =>
          rw [hphase] at htransfer
          cases htransfer
          exact .inl ⟨le_rfl, t, setPhase_same _ _ _⟩
  · intro t w tx hp t' time tx' row hmem huuid
    rcases hcommitted t' w time tx' row hmem with hold | ⟨rfl, rfl, htransfer⟩
    · rcases hstep.transfer hp with hserved | ⟨header, r, token, rfl, hcheck⟩
      · exact (h.apart t w tx hserved t' time tx' row hold huuid).trans hstep.now_le
      · obtain ⟨-, hr, hseen, -⟩ := precheck_ok _ _ hcheck
        rcases h.marked t' w time tx' row hold with ⟨-, t₁, hsaved⟩ | hentered
        · refine absurd (.inr ?_) (hok t₁)
          rw [hsaved, huuid, hr]
        · exact ((huuid ▸ hentered).hour hseen).trans hstep.now_le
    · -- the committed request is the only one of its uuid, and it has nothing left to write
      have hserved : (s.phase t).Serves w tx.uuid :=
        (hstep.serves (.inl ⟨tx, hp, rfl⟩)).resolve_right (by simp)
      obtain rfl := h.unique t t' w tx.uuid hserved (.inl ⟨tx', htransfer, huuid⟩)
      cases hstep with
      | committed => simp [Phase.transfer?] at hp

/-- **Rows of one uuid are an hour apart**: when the requests of a uuid are made one after the
other and none fails between its commit and the entry of its uuid, any two commits of the uuid
on one writer are at least an hour apart. -/
theorem hour_apart (hok : ∀ s a, ok s a → Exclusive s a) {s : State ι τ ω}
    {rs : List (Record ι τ ω)} (h : (bank d log₀).Emits ok (records d) s rs)
    {before after : List (Record ι τ ω)} {t : τ} {w : ω} {time : ℤ} {tx : Transfer}
    {row : Transaction} (hlater : rs = before ++ .committed t w time tx row :: after) {t' : τ}
    {time' : ℤ} {tx' : Transfer} {row' : Transaction}
    (hearlier : .committed t' w time' tx' row' ∈ before) (huuid : tx'.uuid = tx.uuid) :
    time' + expireAfterWrite ≤ time := by
  have hdedup : ∀ s rs, (bank d log₀).Emits ok (records d) s rs → Deduplicated s rs := by
    intro s rs h
    refine h.invariant (P := Deduplicated) ?_ ?_
    · rintro s ⟨-, now, nextId, -, -, rfl⟩
      exact ⟨by simp [Phase.Serves, Phase.transfer?], by simp, by simp⟩
    · intro s a s' rs _ hoka hs hstep
      exact (steps_of_step d hstep).deduplicated (hok s a hoka) hs
  refine h.preceded (Q := fun before rec => ∀ t w time tx row,
    rec = .committed t w time tx row → ∀ t' time' tx' row',
      .committed t' w time' tx' row' ∈ before → tx'.uuid = tx.uuid →
        time' + expireAfterWrite ≤ time) ?_ before _ after hlater t w time tx row rfl t' time' tx'
    row' hearlier huuid
  intro s a s' rs hrun _ _ before rec after hsplit t w time tx row hrec t' time' tx' row' hmem huuid
  obtain ⟨rfl, hleaves⟩ := records_split hsplit
  subst hrec
  rw [List.append_nil] at hmem
  cases hleaves with
  | committed hphase =>
      exact (hdedup s rs hrun).apart t w tx (by rw [hphase]; rfl) t' time' tx' row' hmem huuid

/-- The rent is paid again after an hour and a minute. -/
theorem hour_apart_rent : ∃ (s : State Bool Bool Unit) (rs before : List (Record Bool Bool Unit))
    (time time' : ℤ) (row row' : Transaction),
      rs = before ++ [.committed false () time rentTransfer row] ∧
      .committed true () time' rentTransfer row' ∈ before ∧
      (bank branch [salary]).Emits Exclusive (records branch) s rs ∧
      time' + expireAfterWrite ≤ time := by
  obtain ⟨s, rs, hrs, hp⟩ := (bank branch [salary]).exists_emits_of_trace Exclusive
    (records branch) morning_init (.boot true true :: payRent ++
      [.tick 3660, .submit false () (some "Bearer testuser") rent, .ask false true,
        .insert false, .commit false])
    (fun _ rs => rs.drop 6 = [.committed false () 3660 rentTransfer (rentTransfer.row 3 3660)] ∧
      .committed true () 0 rentTransfer (rentTransfer.row 2 0) ∈ rs.take 6) (by decide +kernel)
  obtain ⟨hlast, hmem⟩ := of_decide_eq_true hp
  have hsplit : rs = rs.take 6 ++
      .committed false () 3660 rentTransfer (rentTransfer.row 3 3660) :: [] := by
    rw [← hlast, List.take_append_drop]
  exact ⟨s, rs, rs.take 6, 3660, 0, _, _, hsplit, hmem, hrs,
    hour_apart (fun _ _ h => h) hrs hsplit hmem rfl⟩

end Bank

end FinOpsPipeline
