import Mathlib

/-!
Programs that change a state and may stop on the way.

* `EStateM.after`: the state that a program leaves, whether it returns or stops.
* `EStateM.after_of_triple`: a condition that both ends of a triple give holds of it.
-/

open Std.Do

namespace EStateM

variable {ε σ α : Type}

/-- The state that a program leaves, whether it returns or stops. -/
def after (prog : EStateM ε σ α) (s : σ) : σ :=
  match prog.run s with
  | .ok _ t => t
  | .error _ t => t

/-- **From a triple to the run**: what holds at both ends holds of the state that is left. -/
theorem after_of_triple {prog : EStateM ε σ α} {P : Assertion (.except ε (.arg σ .pure))}
    {Q : σ → Prop} (h : ⦃P⦄ prog ⦃post⟨fun _ t => ⌜Q t⌝, fun _ t => ⌜Q t⌝⟩⦄) {s : σ}
    (hs : (P s).down) : Q (prog.after s) := by
  refine EStateM.of_wp_run_eq (P := fun r : EStateM.Result ε σ α =>
    Q (match r with | .ok _ t => t | .error _ t => t)) rfl ?_
  exact fun _ => h s hs

end EStateM
