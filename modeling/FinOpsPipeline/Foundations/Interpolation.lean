import Mathlib

/-!
Linear interpolation of a sequence between the integers.

* `interpolate`: the value at a position, from the values at the integers around it.
* `interpolate_intCast`, `interpolate_of_mem_Ioo`: the value at an integer, and
  between two consecutive ones.
* `interpolate_mem_Icc`, `interpolate_monotoneOn`: a sequence that is monotone between
  two integers is monotone between them when interpolated, and lies between the values
  around each position.
-/

namespace FinOpsPipeline

variable {K : Type*} [Field K] [LinearOrder K] [IsStrictOrderedRing K] [FloorRing K]

/-- The value at the position `p`. -/
def interpolate (s : ℤ → K) (p : K) : K := s ⌊p⌋ + (s ⌈p⌉ - s ⌊p⌋) * (p - ⌊p⌋)

variable {s : ℤ → K} {a b : ℤ} {p q : K}

/-- The integers have their own values. -/
@[simp] lemma interpolate_intCast (n : ℤ) : interpolate s n = s n := by
  rw [interpolate, Int.floor_intCast, Int.ceil_intCast, sub_self, zero_mul, add_zero]

/-- The integers around a position that is no integer. -/
lemma floor_ceil_of_mem_Ioo {n : ℤ} (h : p ∈ Set.Ioo (n : K) (n + 1)) :
    ⌊p⌋ = n ∧ ⌈p⌉ = n + 1 := by
  refine ⟨Int.floor_eq_iff.mpr ⟨h.1.le, h.2⟩, Int.ceil_eq_iff.mpr ⟨?_, ?_⟩⟩
  · push_cast
    linarith [h.1]
  · exact_mod_cast h.2.le

/-- Between two consecutive integers the value is on the line between theirs. -/
lemma interpolate_of_mem_Ioo {n : ℤ} (h : p ∈ Set.Ioo (n : K) (n + 1)) :
    interpolate s p = s n + (s (n + 1) - s n) * (p - n) := by
  obtain ⟨hfloor, hceil⟩ := floor_ceil_of_mem_Ioo h
  rw [interpolate, hfloor, hceil]

/-- The integers around a position are between the same bounds. -/
lemma floor_ceil_mem (h : p ∈ Set.Icc (a : K) b) : ⌊p⌋ ∈ Set.Icc a b ∧ ⌈p⌉ ∈ Set.Icc a b := by
  have hfloor : a ≤ ⌊p⌋ := Int.le_floor.mpr h.1
  have hceil : ⌈p⌉ ≤ b := Int.ceil_le.mpr h.2
  have hle : ⌊p⌋ ≤ ⌈p⌉ := Int.floor_le_ceil p
  exact ⟨⟨hfloor, hle.trans hceil⟩, hfloor.trans hle, hceil⟩

/-- **The value lies between those around it.** -/
theorem interpolate_mem_Icc (hs : MonotoneOn s (Set.Icc a b)) (h : p ∈ Set.Icc (a : K) b) :
    interpolate s p ∈ Set.Icc (s ⌊p⌋) (s ⌈p⌉) := by
  obtain ⟨hfloor, hceil⟩ := floor_ceil_mem h
  have hrise : 0 ≤ s ⌈p⌉ - s ⌊p⌋ := sub_nonneg.mpr (hs hfloor hceil (Int.floor_le_ceil p))
  have hlow : 0 ≤ p - ⌊p⌋ := sub_nonneg.mpr (Int.floor_le p)
  have hup : p - ⌊p⌋ ≤ 1 := by linarith [Int.lt_floor_add_one p]
  have hpart : (s ⌈p⌉ - s ⌊p⌋) * (p - ⌊p⌋) ≤ s ⌈p⌉ - s ⌊p⌋ := mul_le_of_le_one_right hrise hup
  have hpos : 0 ≤ (s ⌈p⌉ - s ⌊p⌋) * (p - ⌊p⌋) := mul_nonneg hrise hlow
  rw [interpolate]
  exact ⟨by linarith, by linarith⟩

/-- **Interpolation keeps the order.** -/
theorem interpolate_monotoneOn (hs : MonotoneOn s (Set.Icc a b)) :
    MonotoneOn (interpolate s) (Set.Icc (a : K) b) := by
  intro p hp q hq hpq
  have hfloor : ⌊p⌋ ≤ ⌊q⌋ := Int.floor_le_floor hpq
  rcases hfloor.lt_or_eq with hlt | heq
  · -- an integer lies between the two positions
    have hceil : ⌈p⌉ ≤ ⌊q⌋ := (Int.ceil_le_floor_add_one p).trans hlt
    calc interpolate s p ≤ s ⌈p⌉ := (interpolate_mem_Icc hs hp).2
      _ ≤ s ⌊q⌋ := hs (floor_ceil_mem hp).2 (floor_ceil_mem hq).1 hceil
      _ ≤ interpolate s q := (interpolate_mem_Icc hs hq).1
  · -- the two positions are on the same piece, unless the first one is an integer
    rcases (Int.floor_le p).lt_or_eq with hp' | hp'
    · have hq' : (⌊p⌋ : K) < q := hp'.trans_le hpq
      have hq'' : q < ⌊p⌋ + 1 := heq ▸ Int.lt_floor_add_one q
      have hstep : 0 ≤ s (⌊p⌋ + 1) - s ⌊p⌋ := by
        have hceil : ⌈p⌉ = ⌊p⌋ + 1 := (floor_ceil_of_mem_Ioo ⟨hp', Int.lt_floor_add_one p⟩).2
        obtain ⟨hmem, hmem'⟩ := floor_ceil_mem hp
        rw [← hceil]
        exact sub_nonneg.mpr (hs hmem hmem' (Int.floor_le_ceil p))
      rw [interpolate_of_mem_Ioo ⟨hp', Int.lt_floor_add_one p⟩,
        interpolate_of_mem_Ioo ⟨hq', hq''⟩]
      have hmul := mul_le_mul_of_nonneg_left (sub_le_sub_right hpq (⌊p⌋ : K)) hstep
      linarith
    · calc interpolate s p = s ⌊q⌋ := by rw [← hp', interpolate_intCast, ← heq]
        _ ≤ interpolate s q := (interpolate_mem_Icc hs hq).1

end FinOpsPipeline
