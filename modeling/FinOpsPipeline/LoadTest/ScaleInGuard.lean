import FinOpsPipeline.Foundations.Program
import FinOpsPipeline.Foundations.ShellText

/-!
The scale-in guard of a load test, `scripts/run-bank-krr-test.sh`.

A run saves the annotation `paused-scale-in` of each guarded object to a file and sets it.
It restores the annotations when it is done, and the `EXIT` trap does so however it ends.

* `World`: the variables of the script, the file, the annotations of the cluster and how
  the commands to come will end. Any of them may fail, with its effect or without.
* `enableScaleInGuard`, `restoreScaleInGuard`, `runPhase`, `exitTrap`: the script.
* `Guarding`: the file lists all objects that were touched, with their initial values.
* `Covered`: the guard is off and nothing is left to restore, or it is on and the file
  restores everything; `runPhase_spec` keeps it over a whole run, and
  `restoreScaleInGuard_spec` uses it up.
* `exitTrap_restores`: whatever the run did, the annotations are the initial ones, up to
  objects of a namespace `namespace`, whose lines are taken for the header
  (`exitTrap_skips_namespace`).
-/

open Std.Do

namespace FinOpsPipeline

namespace LoadTest

set_option mvcgen.warning false

open Shell

/-! ### The script -/

/-- An object `namespace/name` of `SCALE_IN_GUARD_OBJECTS`, named as the cluster allows. -/
structure GuardedObject where
  ns : List Char
  name : List Char
  ns_ne_nil : ns ≠ []
  name_ne_nil : name ≠ []
  ns_chars : '/' ∉ ns ∧ '\t' ∉ ns ∧ '\n' ∉ ns
  name_chars : '\t' ∉ name ∧ '\n' ∉ name
  deriving DecidableEq

/-- The text of the object in the script. -/
def GuardedObject.text (o : GuardedObject) : List Char := o.ns ++ '/' :: o.name

/-- Where the annotation of the object is kept. -/
def GuardedObject.key (o : GuardedObject) : List Char × List Char := (o.ns, o.name)

/-- How a command ends: a failure may have had its effect or not. -/
inductive Outcome where
  | ok
  | failed (applied : Bool)

/-- What a run works on. -/
structure World where
  guardActive : Bool
  stateFile : Option (List Char)
  pausedScaleIn : List Char × List Char → Option (List Char)
  outcomes : List Outcome

/-- A part of the script, which stops with an error. -/
abbrev Script := EStateM Unit World

/-- A command under `set -e`. The script also stops when no outcome is left. -/
def command (effect : World → World) : Script Unit := do
  let w ← get
  match w.outcomes with
  | [] => throw ()
  | .ok :: rest => set { effect w with outcomes := rest }
  | .failed applied :: rest => do
      set { (if applied then effect w else w) with outcomes := rest }
      throw ()

/-- Commands and checks without an effect on the file and the annotations. -/
def commands : ℕ → Script Unit
  | 0 => return
  | n + 1 => do
      command id
      commands n

/-- The value of the guard. -/
def paused : List Char := "true".toList

/-- `<unset>`. -/
def unset : List Char := "<unset>".toList

/-- `printf '%s\t%s\t%s\n'`, without the line break. -/
def stateLine (ns name previous : List Char) : List Char := ns ++ '\t' :: name ++ '\t' :: previous

/-- The first line of the file. -/
def stateHeader : List Char :=
  stateLine "namespace".toList "scaledobject".toList "previous_value".toList

/-- `printf … >file` and `printf … >>file`. -/
def World.writeState (text : List Char) (w : World) : World := { w with stateFile := some text }

def World.appendState (text : List Char) (w : World) : World :=
  { w with stateFile := some (w.stateFile.getD [] ++ text) }

/-- `kubectl annotate`, where `none` removes the annotation. -/
def World.annotate (key : List Char × List Char) (value : Option (List Char)) (w : World) : World :=
  { w with pausedScaleIn := Function.update w.pausedScaleIn key value }

@[simp] lemma World.annotate_self (key : List Char × List Char) (value : Option (List Char))
    (w : World) : (w.annotate key value).pausedScaleIn key = value := Function.update_self ..

lemma World.annotate_of_ne {key other : List Char × List Char} (h : other ≠ key)
    (value : Option (List Char)) (w : World) :
    (w.annotate key value).pausedScaleIn other = w.pausedScaleIn other := Function.update_of_ne h ..

/-- The value that is saved for an annotation, as `kubectl get` prints it. -/
def previousValue (current : Option (List Char)) : List Char :=
  let previous := substitute (current.getD [])
  if previous = [] then unset else previous

/-- The body of the first loop of `enable_scale_in_guard`. -/
def guardObject (object : List Char) : Script Unit := do
  let ns := beforeFirst '/' object
  let name := afterFirst '/' object
  -- the object exists, its maxReplicaCount is known and large enough, its annotation is read
  commands 4
  let w ← get
  let previous := previousValue (w.pausedScaleIn (ns, name))
  command (World.appendState (stateLine ns name previous ++ ['\n']))
  command (World.annotate (ns, name) (some paused))

/-- The first loop of `enable_scale_in_guard`. -/
def guardObjects : List GuardedObject → Script Unit
  | [] => return
  | o :: rest => do
      guardObject o.text
      guardObjects rest

/-- `enable_scale_in_guard`, where `waiting` commands wait for the autoscalers and for the
replicas. -/
def enableScaleInGuard (enabled : Bool) (objects : List GuardedObject) (waiting : ℕ) :
    Script Unit := do
  if enabled then
    command (World.writeState (stateHeader ++ ['\n']))
    modify fun w => { w with guardActive := true }
    guardObjects objects
    commands waiting

/-- The body of the loop of `restore_scale_in_guard`. The calls of `kubectl` succeed. -/
def restoreLine (line : List Char) (w : World) : World :=
  let (ns, name, previous) := readThree line
  if ns = [] ∨ name = [] then w
  else if ns = "namespace".toList then w
  else if previous = unset then w.annotate (ns, name) none
  else w.annotate (ns, name) (some previous)

/-- The loop of `restore_scale_in_guard`, with `between` in front of each line. -/
def restoreLines (between : Script Unit) : List (List Char) → Script Unit
  | [] => return
  | line :: lines => do
      between
      modify (restoreLine line)
      restoreLines between lines

/-- `restore_scale_in_guard`. -/
def restoreScaleInGuard (between : Script Unit) : Script Unit := do
  let w ← get
  if w.guardActive then
    match w.stateFile with
    | none => return
    | some text =>
        restoreLines between (readLines text)
        modify fun w => { w with guardActive := false }

/-- `run_phase`: the preparations, the guard, the load test, the restoration, in which the
run may stop as well, and the end. -/
def runPhase (enabled : Bool) (objects : List GuardedObject) (before waiting test last : ℕ) :
    Script Unit := do
  commands before
  enableScaleInGuard enabled objects waiting
  commands test
  restoreScaleInGuard (command id)
  commands last

/-- `cleanup_runtime`, the `EXIT` trap, on what the run left. -/
def exitTrap (w : World) : World := (restoreScaleInGuard (pure ())).after w

/-- `SCALE_IN_GUARD_OBJECTS`. -/
def scaleInGuardObjects : List GuardedObject :=
  [⟨"frontend".toList, "frontend-chronos-scaler".toList, by decide, by decide, by decide, by decide⟩,
    ⟨"backend".toList, "balancereader-scaler".toList, by decide, by decide, by decide, by decide⟩,
    ⟨"backend".toList, "contacts-scaler".toList, by decide, by decide, by decide, by decide⟩,
    ⟨"backend".toList, "ledgerwriter-scaler".toList, by decide, by decide, by decide, by decide⟩,
    ⟨"backend".toList, "transactionhistory-scaler".toList, by decide, by decide, by decide,
      by decide⟩,
    ⟨"backend".toList, "userservice-scaler".toList, by decide, by decide, by decide, by decide⟩]

/-! ### Saved lines -/

/-- An annotation that can be saved: unset, or a value of its own that fits into a field. -/
def Saveable (current : Option (List Char)) : Prop :=
  ∀ value, current = some value → value ≠ [] ∧ '\t' ∉ value ∧ '\n' ∉ value ∧ value ≠ unset

lemma previousValue_none : previousValue none = unset := rfl

lemma previousValue_some {value : List Char} (h : Saveable (some value)) :
    previousValue (some value) = value := by
  obtain ⟨hne, -, hline, -⟩ := h value rfl
  rw [previousValue, Option.getD_some, substitute_eq_self hline, if_neg hne]

/-- A saved value fits into a field. -/
lemma previousValue_field {current : Option (List Char)} (h : Saveable current) :
    previousValue current ≠ [] ∧ '\t' ∉ previousValue current ∧
      '\n' ∉ previousValue current := by
  cases current with
  | none => exact ⟨by decide, by decide, by decide⟩
  | some value =>
      rw [previousValue_some h]
      obtain ⟨hne, htab, hline, -⟩ := h value rfl
      exact ⟨hne, htab, hline⟩

namespace GuardedObject

variable (o : GuardedObject)

lemma beforeFirst_text : beforeFirst '/' o.text = o.ns := beforeFirst_append o.ns_chars.1

lemma afterFirst_text : afterFirst '/' o.text = o.name := afterFirst_append o.ns_chars.1

lemma key_injective : Function.Injective key := by
  rintro ⟨ns, name, _, _, _, _⟩ ⟨ns', name', _, _, _, _⟩ h
  obtain ⟨rfl, rfl⟩ := Prod.mk.inj h
  rfl

/-- The line of the object for an annotation. -/
def line (current : Option (List Char)) : List Char :=
  stateLine o.ns o.name (previousValue current)

lemma line_noBreak {current : Option (List Char)} (h : Saveable current) :
    '\n' ∉ o.line current := by
  have hvalue := (previousValue_field h).2.2
  simp [line, stateLine, o.ns_chars.2.2, o.name_chars.2, hvalue]

/-- **A saved line** restores the annotation. -/
lemma restoreLine_line {current : Option (List Char)} (h : Saveable current)
    (hns : o.ns ≠ "namespace".toList) (w : World) :
    restoreLine (o.line current) w = w.annotate o.key current := by
  obtain ⟨hne, htab, -⟩ := previousValue_field h
  have hfields := readThree_line o.ns_ne_nil o.name_ne_nil hne o.ns_chars.2.1 o.name_chars.1 htab
  rw [restoreLine, line, stateLine, hfields]
  simp only [o.ns_ne_nil, o.name_ne_nil, or_self, if_false, hns]
  cases current with
  | none => rw [previousValue_none, if_pos rfl]; rfl
  | some value =>
      rw [previousValue_some h, if_neg (h value rfl).2.2.2]
      rfl

end GuardedObject

/-- **A line of the namespace `namespace`** is skipped, as the header is. -/
lemma restoreLine_namespace {name previous : List Char} (hname : name ≠ [])
    (hprevious : previous ≠ []) (htab : '\t' ∉ name) (htab' : '\t' ∉ previous) (w : World) :
    restoreLine (stateLine "namespace".toList name previous) w = w := by
  have hne : "namespace".toList ≠ [] := by decide
  have hfields := readThree_line hne hname hprevious (by decide) htab htab'
  rw [restoreLine, stateLine, hfields]
  simp only [if_true]
  split <;> rfl

/-! ### What a run keeps -/

section Guard

variable {objects done todo : List GuardedObject}
  {start : List Char × List Char → Option (List Char)} {w : World}

/-- The file after the objects `done` were saved. -/
def savedFile (start : List Char × List Char → Option (List Char)) (done : List GuardedObject) :
    List Char :=
  (stateHeader :: done.map fun o => o.line (start o.key)).flatMap fun line => line ++ ['\n']

/-- **The guard is on**, the file lists the objects `done` with their initial annotations,
and the others are not touched. -/
structure Guarding (objects : List GuardedObject)
    (start : List Char × List Char → Option (List Char)) (done : List GuardedObject) (w : World) :
    Prop where
  active : w.guardActive = true
  file : w.stateFile = some (savedFile start done)
  subset : ∀ o ∈ done, o ∈ objects
  untouched : ∀ o ∈ objects, o ∉ done → w.pausedScaleIn o.key = start o.key

/-- The guard is off, and the objects have their initial annotations. -/
def Unguarded (objects : List GuardedObject)
    (start : List Char × List Char → Option (List Char)) (w : World) : Prop :=
  w.guardActive = false ∧ ∀ o ∈ objects, w.pausedScaleIn o.key = start o.key

/-- The objects have their initial annotations, up to those of a namespace `namespace`. -/
def Restored (objects : List GuardedObject)
    (start : List Char × List Char → Option (List Char)) (w : World) : Prop :=
  ∀ o ∈ objects, o.ns ≠ "namespace".toList → w.pausedScaleIn o.key = start o.key

/-- The restoration of the objects `todo` is still to come, that of the others is done. -/
structure Restoring (objects : List GuardedObject)
    (start : List Char × List Char → Option (List Char)) (done todo : List GuardedObject)
    (w : World) : Prop extends Guarding objects start done w where
  restored : ∀ o ∈ done, o ∉ todo → o.ns ≠ "namespace".toList → w.pausedScaleIn o.key = start o.key

/-- **Nothing is lost**: the guard is off and the objects are restored, or the file
restores them. -/
def Covered (objects : List GuardedObject)
    (start : List Char × List Char → Option (List Char)) (w : World) : Prop :=
  (w.guardActive = false ∧ Restored objects start w) ∨ ∃ done, Guarding objects start done w

/-- The outcomes that are still to come do not matter. -/
def Stable (I : World → Prop) : Prop := ∀ w outcomes, I w → I { w with outcomes := outcomes }

lemma Guarding.stable : Stable (Guarding objects start done) :=
  fun _ _ h => ⟨h.active, h.file, h.subset, h.untouched⟩

lemma Restoring.stable : Stable (Restoring objects start done todo) :=
  fun w outcomes h => ⟨Guarding.stable w outcomes h.toGuarding, h.restored⟩

lemma Covered.stable : Stable (Covered objects start) :=
  fun w outcomes h => h.imp id fun ⟨done, hdone⟩ => ⟨done, Guarding.stable w outcomes hdone⟩

/-- The lines of the file are the header and the saved lines. -/
lemma readLines_savedFile (hvalues : ∀ o ∈ objects, Saveable (start o.key))
    (hsubset : ∀ o ∈ done, o ∈ objects) :
    readLines (savedFile start done) = stateHeader :: done.map fun o => o.line (start o.key) := by
  refine readLines_flatMap (List.forall_mem_cons.mpr ⟨by decide, ?_⟩)
  refine List.forall_mem_map.mpr fun o ho => ?_
  exact o.line_noBreak (hvalues o (hsubset o ho))

/-- **One more object is saved** before it is touched. -/
lemma Guarding.append (h : Guarding objects start done w) {o : GuardedObject} (ho : o ∈ objects)
    (hnew : o ∉ done) :
    Guarding objects start (done ++ [o])
      (w.appendState (stateLine o.ns o.name (previousValue (w.pausedScaleIn o.key)) ++ ['\n'])) where
  active := h.active
  file := by
    rw [World.appendState, h.file, Option.getD_some, h.untouched o ho hnew]
    simp [savedFile, GuardedObject.line]
  subset := by
    intro p hp
    rcases List.mem_append.mp hp with hp | hp
    · exact h.subset p hp
    · rwa [List.mem_singleton.mp hp]
  untouched := fun p hp hp' => h.untouched p hp fun hdone => hp' (List.mem_append_left _ hdone)

/-- A saved object may be touched. -/
lemma Guarding.annotate (h : Guarding objects start done w) {o : GuardedObject} (ho : o ∈ done)
    (value : Option (List Char)) : Guarding objects start done (w.annotate o.key value) where
  active := h.active
  file := h.file
  subset := h.subset
  untouched := fun p hp hp' => by
    have hne : p.key ≠ o.key := fun heq => hp' (GuardedObject.key_injective heq ▸ ho)
    rw [World.annotate_of_ne hne]
    exact h.untouched p hp hp'

/-- **One more line is restored.** -/
lemma Restoring.restoreLine {o : GuardedObject} (hvalues : ∀ o ∈ objects, Saveable (start o.key))
    (ho : o ∈ done) (h : Restoring objects start done (o :: todo) w) :
    Restoring objects start done todo (restoreLine (o.line (start o.key)) w) := by
  have hvalue := hvalues o (h.subset o ho)
  by_cases hns : o.ns = "namespace".toList
  · obtain ⟨hne, htab, -⟩ := previousValue_field hvalue
    rw [GuardedObject.line, hns, restoreLine_namespace o.name_ne_nil hne o.name_chars.1 htab]
    refine ⟨h.toGuarding, fun p hp hp' hpns => h.restored p hp ?_ hpns⟩
    exact fun hmem => (List.mem_cons.mp hmem).elim (fun heq => hpns (heq ▸ hns)) hp'
  · rw [o.restoreLine_line hvalue hns]
    refine ⟨h.toGuarding.annotate ho _, fun p hp hp' hpns => ?_⟩
    by_cases heq : p = o
    · rw [heq, World.annotate_self]
    · have hne : p.key ≠ o.key := fun hkey => heq (GuardedObject.key_injective hkey)
      rw [World.annotate_of_ne hne]
      exact h.restored p hp (fun hmem => (List.mem_cons.mp hmem).elim heq hp') hpns

/-- When all lines are restored, so are the objects. -/
lemma Restoring.all (h : Restoring objects start done [] w) : Restored objects start w := by
  intro o ho hns
  by_cases hdone : o ∈ done
  · exact h.restored o hdone (List.not_mem_nil) hns
  · exact h.untouched o ho hdone

/-! ### The script, step by step -/

/-- **A command** has its effect, or stops the script with it or without. -/
lemma command_spec {I J E : World → Prop} (effect : World → World) (hI : Stable I)
    (hJ : Stable J) (heffect : ∀ w, I w → J (effect w)) (hE : ∀ w, I w ∨ J w → E w) :
    ⦃fun w => ⌜I w⌝⦄ command effect ⦃post⟨fun _ w => ⌜J w⌝, fun _ w => ⌜E w⌝⟩⦄ := by
  mvcgen [command]
  case vc1.h_1 w h _ => exact hE _ (.inl h)
  case vc2.h_2 w h rest _ => exact hJ _ rest (heffect w h)
  case vc3.h_3 w h applied rest _ =>
    cases applied with
    | false => exact hE _ (.inl (hI _ rest h))
    | true => exact hE _ (.inr (hJ _ rest (heffect w h)))

/-- Commands without an effect keep what the outcomes do not matter to. -/
lemma commands_spec {I E : World → Prop} (hI : Stable I) (hE : ∀ w, I w → E w) (n : ℕ) :
    ⦃fun w => ⌜I w⌝⦄ commands n ⦃post⟨fun _ w => ⌜I w⌝, fun _ w => ⌜E w⌝⟩⦄ := by
  induction n with
  | zero => mvcgen [commands]
  | succ n ih =>
      have hcommand := command_spec id hI hI (fun _ h => h)
        fun w h => hE w (h.elim id id)
      mvcgen [commands, hcommand, ih]

/-- **An object is saved**, then touched. -/
lemma guardObject_spec {o : GuardedObject} (ho : o ∈ objects) (hnew : o ∉ done) :
    ⦃fun w => ⌜Guarding objects start done w⌝⦄ guardObject o.text
    ⦃post⟨fun _ w => ⌜Guarding objects start (done ++ [o]) w⌝,
      fun _ w => ⌜∃ done, Guarding objects start done w⌝⟩⦄ := by
  have hchecks := commands_spec (I := Guarding objects start done)
    (E := fun w => ∃ done, Guarding objects start done w) Guarding.stable (fun w h => ⟨_, h⟩) 4
  have hsave : ∀ previous,
      ⦃fun w => ⌜Guarding objects start done w ∧
        previousValue (w.pausedScaleIn (o.ns, o.name)) = previous⌝⦄
      command (World.appendState (stateLine o.ns o.name previous ++ ['\n']))
      ⦃post⟨fun _ w => ⌜Guarding objects start (done ++ [o]) w⌝,
        fun _ w => ⌜∃ done, Guarding objects start done w⌝⟩⦄ := by
    intro previous
    refine command_spec _ (fun w outcomes h => ⟨Guarding.stable w outcomes h.1, h.2⟩)
      Guarding.stable ?_ fun w h => h.elim (fun h => ⟨_, h.1⟩) fun h => ⟨_, h⟩
    rintro w ⟨h, rfl⟩
    exact h.append ho hnew
  have htouch := command_spec (I := Guarding objects start (done ++ [o]))
    (E := fun w => ∃ done, Guarding objects start done w)
    (World.annotate (o.ns, o.name) (some paused))
    Guarding.stable Guarding.stable (fun w h => h.annotate (by simp) _)
    fun w h => ⟨_, h.elim id id⟩
  rw [guardObject, o.beforeFirst_text, o.afterFirst_text]
  mvcgen [hchecks, hsave, htouch]

/-- **The objects are saved** one after the other. -/
lemma guardObjects_spec (hsubset : ∀ o ∈ todo, o ∈ objects) (hnodup : (done ++ todo).Nodup) :
    ⦃fun w => ⌜Guarding objects start done w⌝⦄ guardObjects todo
    ⦃post⟨fun _ w => ⌜∃ done, Guarding objects start done w⌝,
      fun _ w => ⌜∃ done, Guarding objects start done w⌝⟩⦄ := by
  induction todo generalizing done with
  | nil =>
      mvcgen [guardObjects]
      case vc1.nil w h => exact ⟨_, h⟩
  | cons o todo ih =>
      have hnew : o ∉ done := fun hmem =>
        (List.nodup_append.mp hnodup).2.2 o hmem o List.mem_cons_self rfl
      have hobject := @guardObject_spec objects done start o (hsubset o List.mem_cons_self) hnew
      have hnodup' : ((done ++ [o]) ++ todo).Nodup := by simpa using hnodup
      have hrest := ih (fun p hp => hsubset p (List.mem_cons_of_mem o hp)) hnodup'
      mvcgen [guardObjects, hobject, hrest]

/-- **Behind the guard** the file restores everything. -/
lemma enableScaleInGuard_spec (enabled : Bool) (hnodup : objects.Nodup) (waiting : ℕ) :
    ⦃fun w => ⌜Unguarded objects start w⌝⦄ enableScaleInGuard enabled objects waiting
    ⦃post⟨fun _ w => ⌜Covered objects start w⌝, fun _ w => ⌜Covered objects start w⌝⟩⦄ := by
  have hwrite : ⦃fun w => ⌜Unguarded objects start w⌝⦄
      command (World.writeState (stateHeader ++ ['\n']))
      ⦃post⟨fun _ w => ⌜Unguarded objects start w ∧ w.stateFile = some (savedFile start [])⌝,
        fun _ w => ⌜Covered objects start w⌝⟩⦄ := by
    refine command_spec _ (fun _ _ h => h) (fun _ _ h => h) (fun w h => ⟨h, rfl⟩) fun w h => ?_
    have hoff : Unguarded objects start w := h.elim id And.left
    exact .inl ⟨hoff.1, fun o ho _ => hoff.2 o ho⟩
  have hobjects := @guardObjects_spec objects [] objects start (fun o ho => ho) hnodup
  have hwait := commands_spec (I := fun w => ∃ done, Guarding objects start done w)
    (E := Covered objects start) (fun w outcomes h => h.imp fun done h => h.stable w outcomes)
    (fun w h => .inr h) waiting
  mvcgen [enableScaleInGuard, hwrite, hobjects, hwait]
  case vc2.isTrue.post.success.pre w h _ =>
    exact ⟨rfl, h.2, fun o ho => absurd ho List.not_mem_nil, fun o ho _ => h.1.2 o ho⟩
  case vc4.isTrue.post.success.post.success.post.success => exact .inr
  case vc5.isTrue.post.success.post.except.handle => exact .inr
  case vc6.isFalse w h => exact .inl ⟨h.1, fun o ho _ => h.2 o ho⟩

/-- The saved lines are restored one after the other. -/
lemma restoreLines_spec {between : Script Unit} {E : World → Prop}
    (hvalues : ∀ o ∈ objects, Saveable (start o.key))
    (hsubset : ∀ o ∈ todo, o ∈ done)
    (hbetween : ∀ todo, ⦃fun w => ⌜Restoring objects start done todo w⌝⦄ between
      ⦃post⟨fun _ w => ⌜Restoring objects start done todo w⌝, fun _ w => ⌜E w⌝⟩⦄) :
    ⦃fun w => ⌜Restoring objects start done todo w⌝⦄
    restoreLines between (todo.map fun o => o.line (start o.key))
    ⦃post⟨fun _ w => ⌜Restored objects start w⌝, fun _ w => ⌜E w⌝⟩⦄ := by
  induction todo with
  | nil =>
      rw [List.map_nil]
      mvcgen [restoreLines]
      case vc1.nil w h => exact h.all
  | cons o todo ih =>
      have hstep := hbetween (o :: todo)
      have hrest := ih fun p hp => hsubset p (List.mem_cons_of_mem o hp)
      rw [List.map_cons]
      mvcgen [restoreLines, hstep, hrest]
      case vc2.cons.post.success w h _ =>
        exact h.restoreLine hvalues (hsubset o List.mem_cons_self)

/-- The file of a guard that is on restores the objects. -/
lemma restoreLines_file_spec {between : Script Unit} {E : World → Prop} (text : List Char)
    (hvalues : ∀ o ∈ objects, Saveable (start o.key))
    (hbetween : ∀ done todo, ⦃fun w => ⌜Restoring objects start done todo w⌝⦄ between
      ⦃post⟨fun _ w => ⌜Restoring objects start done todo w⌝, fun _ w => ⌜E w⌝⟩⦄) :
    ⦃fun w => ⌜Covered objects start w ∧ w.guardActive = true ∧ w.stateFile = some text⌝⦄
    restoreLines between (readLines text)
    ⦃post⟨fun _ w => ⌜Restored objects start w⌝, fun _ w => ⌜E w⌝⟩⦄ := by
  rintro w ⟨hcovered, hactive, hfile⟩
  obtain ⟨hoff, -⟩ | ⟨done, hdone⟩ := hcovered
  · rw [hoff] at hactive
    cases hactive
  · obtain rfl : text = savedFile start done := Option.some.inj (hfile.symm.trans hdone.file)
    have hheader := hbetween done done
    have hlines := restoreLines_spec hvalues (fun o ho => ho) (hbetween done)
    have hspec : ⦃fun w => ⌜Restoring objects start done done w⌝⦄
        restoreLines between (stateHeader :: done.map fun o => o.line (start o.key))
        ⦃post⟨fun _ w => ⌜Restored objects start w⌝, fun _ w => ⌜E w⌝⟩⦄ := by
      mvcgen [restoreLines, hheader, hlines]
    rw [readLines_savedFile hvalues hdone.subset]
    exact hspec w ⟨hdone, fun o ho hnot => absurd ho hnot⟩

/-- **`restore_scale_in_guard`** restores the objects, unless it stops between two
lines. -/
lemma restoreScaleInGuard_spec (between : Script Unit) {E : World → Prop}
    (hvalues : ∀ o ∈ objects, Saveable (start o.key))
    (hbetween : ∀ done todo, ⦃fun w => ⌜Restoring objects start done todo w⌝⦄ between
      ⦃post⟨fun _ w => ⌜Restoring objects start done todo w⌝, fun _ w => ⌜E w⌝⟩⦄) :
    ⦃fun w => ⌜Covered objects start w⌝⦄ restoreScaleInGuard between
    ⦃post⟨fun _ w => ⌜w.guardActive = false ∧ Restored objects start w⌝, fun _ w => ⌜E w⌝⟩⦄ := by
  have hfile := fun text => restoreLines_file_spec text hvalues hbetween
  mvcgen [restoreScaleInGuard, hfile]
  case vc1.isTrue.h_1 w hcovered hactive hnone =>
    obtain ⟨hoff, -⟩ | ⟨done, hdone⟩ := hcovered
    · rw [hoff] at hactive
      cases hactive
    · rw [hdone.file] at hnone
      cases hnone
  case vc4.isFalse w hcovered hactive =>
    obtain hoff | ⟨done, hdone⟩ := hcovered
    · exact hoff
    · exact absurd hdone.active hactive

/-- **A whole run** leaves nothing behind that the trap does not restore. -/
lemma runPhase_spec (enabled : Bool) (hnodup : objects.Nodup)
    (hvalues : ∀ o ∈ objects, Saveable (start o.key)) (before waiting test last : ℕ) :
    ⦃fun w => ⌜Unguarded objects start w⌝⦄ runPhase enabled objects before waiting test last
    ⦃post⟨fun _ w => ⌜Covered objects start w⌝, fun _ w => ⌜Covered objects start w⌝⟩⦄ := by
  have hbefore := commands_spec (I := Unguarded objects start) (E := Covered objects start)
    (fun _ _ h => h) (fun w h => .inl ⟨h.1, fun o ho _ => h.2 o ho⟩) before
  have henable := @enableScaleInGuard_spec objects start enabled hnodup waiting
  have htest := commands_spec (I := Covered objects start) Covered.stable (fun _ h => h) test
  have hrestore := restoreScaleInGuard_spec (command id) (E := Covered objects start)
    hvalues fun done todo => command_spec id (I := Restoring objects start done todo)
      Restoring.stable Restoring.stable (fun _ h => h)
      fun w h => .inr ⟨done, (h.elim id id).toGuarding⟩
  have hlast := commands_spec (I := fun w => w.guardActive = false ∧ Restored objects start w)
    (E := Covered objects start) (fun _ _ h => h) (fun w h => .inl h) last
  mvcgen [runPhase, hbefore, henable, htest, hrestore, hlast]
  case vc6.post.success.post.success.post.success.post.success.post.success =>
    exact fun hoff h => .inl ⟨hoff, h⟩

/-- **The trap** restores what is covered. -/
lemma exitTrap_restored (hvalues : ∀ o ∈ objects, Saveable (start o.key))
    (h : Covered objects start w) : Restored objects start (exitTrap w) := by
  have htrap := restoreScaleInGuard_spec (pure ())
    (E := fun w => w.guardActive = false ∧ Restored objects start w) hvalues fun done todo => by
      mvcgen
  exact (EStateM.after_of_triple htrap (s := w) h).2

/-- **The scale-in protection is undone** however the run ends: behind the `EXIT` trap the
guarded objects have their initial annotations, up to those of a namespace `namespace`. -/
theorem exitTrap_restores (enabled : Bool) (hnodup : objects.Nodup) (before waiting test last : ℕ)
    (hoff : w.guardActive = false) (hvalues : ∀ o ∈ objects, Saveable (w.pausedScaleIn o.key))
    {o : GuardedObject} (ho : o ∈ objects) (hns : o.ns ≠ "namespace".toList) :
    (exitTrap ((runPhase enabled objects before waiting test last).after w)).pausedScaleIn o.key =
      w.pausedScaleIn o.key := by
  have hrun := EStateM.after_of_triple
    (@runPhase_spec objects w.pausedScaleIn enabled hnodup hvalues before waiting test last)
    (s := w) ⟨hoff, fun _ _ => rfl⟩
  exact exitTrap_restored hvalues hrun o ho hns

end Guard

/-- A cluster without the annotation, where the commands end as in `outcomes`. -/
def freshWorld (outcomes : List Outcome) : World := ⟨false, none, fun _ => none, outcomes⟩

/-- The third object of the script. -/
def contactsScaler : GuardedObject :=
  ⟨"backend".toList, "contacts-scaler".toList, by decide, by decide, by decide, by decide⟩

/-- A run that stops at the third object, whose annotation was set before the failure. -/
theorem exitTrap_restores_contacts :
    (exitTrap ((runPhase true scaleInGuardObjects 0 0 0 0).after
      (freshWorld (List.replicate 18 .ok ++ [.failed true])))).pausedScaleIn contactsScaler.key =
        none := by
  have hvalues : ∀ o ∈ scaleInGuardObjects,
      Saveable ((freshWorld (List.replicate 18 .ok ++ [.failed true])).pausedScaleIn o.key) :=
    fun _ _ _ h => by cases h
  exact (exitTrap_restores true (by decide) 0 0 0 0 rfl hvalues (o := contactsScaler) (by decide)
    (by decide)).trans rfl

/-- An object of a namespace `namespace`. -/
def namespaceScaler : GuardedObject :=
  ⟨"namespace".toList, "scaler".toList, by decide, by decide, by decide, by decide⟩

/-- It keeps the guard after a whole run. -/
theorem exitTrap_skips_namespace :
    (freshWorld (List.replicate 9 .ok)).pausedScaleIn namespaceScaler.key = none ∧
      (exitTrap ((runPhase true [namespaceScaler] 0 0 0 0).after
        (freshWorld (List.replicate 9 .ok)))).pausedScaleIn namespaceScaler.key =
          some "true".toList := by
  decide +kernel

end LoadTest

end FinOpsPipeline
