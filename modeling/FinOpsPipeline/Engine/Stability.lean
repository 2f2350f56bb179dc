import FinOpsPipeline.Engine.Quantity

/-!
Quantities that are written and read back (`format_cpu`, `parse_cpu`, `format_memory`
and `parse_memory` of `finops/app/engine.py`).

* `Reread`: the number that a written number is read back as.
* `StablyWritten`: the number is read back within an error, is then written and read
  back as itself, and the order of numbers is kept (`stablyWritten_of_grid`).
* `quantities_stable`: this holds of CPU and memory, across the change of the unit.
-/

namespace FinOpsPipeline

open PyFloat

/-! ### Reading back -/

/-- `x` is written as a text that is read back as `y`. -/
def Reread (format : PyFloat → Option String) (parse : String → PyFloat) (x y : ℚ) : Prop :=
  ∃ text, format (fin x) = some text ∧ parse text = fin y

/-- What is expected of a pair of functions that write and read a quantity. -/
structure StablyWritten (format : PyFloat → Option String) (parse : String → PyFloat)
    (error : ℚ → ℚ) : Prop where
  close : ∀ x, 0 ≤ x → ∃ y, 0 ≤ y ∧ Reread format parse x y ∧ |y - x| ≤ error x
  stable : ∀ x y, 0 ≤ x → Reread format parse x y → Reread format parse y y
  ordered : ∀ x x' y y', 0 ≤ x → x ≤ x' → Reread format parse x y →
    Reread format parse x' y' → y ≤ y'

variable {format : PyFloat → Option String} {parse : String → PyFloat} {x y : ℚ}

/-- A text is read back as one number. -/
lemma Reread.unique {y' : ℚ} (h : Reread format parse x y) (h' : Reread format parse x y') :
    y = y' := by
  obtain ⟨text, htext, hparse⟩ := h
  obtain ⟨text', htext', hparse'⟩ := h'
  obtain rfl : text = text' := by
    rw [htext] at htext'
    exact Option.some.inj htext'
  rw [hparse] at hparse'
  exact PyFloat.fin.inj hparse'

/-- Numbers are stably written when they are read back on a grid: a function that keeps
the order, moves a number by no more than the error, and keeps the numbers that it
returns. -/
lemma stablyWritten_of_grid {grid error : ℚ → ℚ}
    (hread : ∀ x, 0 ≤ x → Reread format parse x (grid x)) (hnonneg : ∀ x, 0 ≤ x → 0 ≤ grid x)
    (hclose : ∀ x, |x - grid x| ≤ error x) (hidem : ∀ x, grid (grid x) = grid x)
    (hmono : ∀ x x', x ≤ x' → grid x ≤ grid x') : StablyWritten format parse error where
  close x hx := by
    refine ⟨grid x, hnonneg x hx, hread x hx, ?_⟩
    rw [abs_sub_comm]
    exact hclose x
  stable x y hx hy := by
    obtain rfl := (hread x hx).unique hy
    have hagain := hread (grid x) (hnonneg x hx)
    rw [hidem] at hagain
    exact hagain
  ordered x x' y y' hx hle hy hy' := by
    obtain rfl := (hread x hx).unique hy
    obtain rfl := (hread x' (hx.trans hle)).unique hy'
    exact hmono x x' hle

/-- Whole MiB are read back as they are. -/
lemma reread_memory_natCast (n : ℕ) : Reread formatMemory parseMemory n n := by
  have hread := parseMemory_formatMemory (q := n) (by positivity)
  rw [show ((n : ℕ) : ℚ) = ((n : ℤ) : ℚ) from rfl, memoryGrid_intCast] at hread
  exact hread

/-- **Quantities are written stably.** In exact arithmetic, a CPU value is read back within
half a millicore below one core and half of a hundredth core from there on, a memory value
within half a MiB. What was read back is written and read back as itself, and the order of
values is kept. Whole MiB, and so whole GiB, are read back as they are. -/
theorem quantities_stable :
    StablyWritten formatCpu parseCpu (fun x => if x < 1 then 1 / 2000 else 1 / 200) ∧
      StablyWritten formatMemory parseMemory (fun _ => 1 / 2) ∧
      (∀ n : ℕ, Reread formatMemory parseMemory n n) ∧
      ∀ n : ℕ, Reread formatMemory parseMemory (n * 1024) (n * 1024) := by
  refine ⟨?_, ?_, reread_memory_natCast, fun n => ?_⟩
  · refine stablyWritten_of_grid (fun x _ => parseCpu_formatCpu x)
      (fun x => cpuGrid_nonneg) (fun x => ?_) cpuGrid_idem (fun x x' => cpuGrid_mono)
    have herror := abs_sub_cpuGrid_le x
    norm_num at herror ⊢
    exact herror
  · refine stablyWritten_of_grid (fun x hx => parseMemory_formatMemory hx) (fun x hx => ?_)
      (fun x => abs_sub_roundHalfEven_le x) (fun x => memoryGrid_intCast _)
      (fun x x' => memoryGrid_mono)
    rw [memoryGrid]
    exact_mod_cast roundHalfEven_nonneg hx
  · have hread := reread_memory_natCast (n * 1024)
    push_cast at hread
    exact hread

end FinOpsPipeline
