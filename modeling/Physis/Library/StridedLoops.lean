import Mathlib

/-!
# Strided loops

The loop of a thread that starts at its own number and advances by the number
of threads.  The threads of a block together take every value of the range.
-/

namespace Physis.Library.StridedLoops

/-- The values of `for (x = first; x < last; x += step)`. -/
def strideLoop (first last : Int) (step : Nat) : List Int :=
  ((List.range (last - first).toNat).filter fun k => k % step = 0).map
    fun (k : Nat) => first + k

theorem mem_strideLoop {first last : Int} {step : Nat} {x : Int} :
    x ∈ strideLoop first last step ↔
      ∃ k : Nat, k % step = 0 ∧ x = first + k ∧ x < last := by
  simp only [strideLoop, List.mem_map, List.mem_filter, List.mem_range,
    decide_eq_true_eq]
  constructor
  · rintro ⟨k, ⟨bound, multiple⟩, rfl⟩
    exact ⟨k, multiple, rfl, by omega⟩
  · rintro ⟨k, multiple, rfl, below⟩
    exact ⟨k, ⟨by omega, multiple⟩, rfl⟩

/-- A loop with step one takes the whole range. -/
theorem mem_strideLoop_one {first last x : Int} :
    x ∈ strideLoop first last 1 ↔ first ≤ x ∧ x < last := by
  rw [mem_strideLoop]
  constructor
  · rintro ⟨k, -, rfl, below⟩
    omega
  · rintro ⟨above, below⟩
    exact ⟨(x - first).toNat, Nat.mod_one _, by omega, below⟩

/-- The threads of a block take exactly the values of the range. -/
theorem exists_thread_iff
    {lower upper x : Int} {step : Nat} (positive : 0 < step) :
    (∃ thread < step, x ∈ strideLoop (thread + lower) upper step) ↔
      lower ≤ x ∧ x < upper := by
  simp only [mem_strideLoop]
  constructor
  · rintro ⟨thread, -, k, -, rfl, below⟩
    omega
  · rintro ⟨above, below⟩
    have split := Nat.mod_add_div (x - lower).toNat step
    refine ⟨(x - lower).toNat % step, Nat.mod_lt _ positive,
      step * ((x - lower).toNat / step), Nat.mul_mod_right _ _, ?_, below⟩
    omega

/-- The threads of a launch: `blockIdx * blockDim + threadIdx + offset`. -/
def threads (gridDim blockDim : Nat) (offset : Int) : List Int :=
  (List.range gridDim).flatMap fun block =>
    (List.range blockDim).map fun (thread : Nat) =>
      (block * blockDim + thread : Nat) + offset

/-- The threads number the range from the offset on. -/
theorem mem_threads {gridDim blockDim : Nat} {offset x : Int} :
    x ∈ threads gridDim blockDim offset ↔
      offset ≤ x ∧ x < offset + (gridDim * blockDim : Nat) := by
  simp only [threads, List.mem_flatMap, List.mem_map, List.mem_range]
  constructor
  · rintro ⟨block, blockBound, thread, threadBound, rfl⟩
    have bound : block * blockDim + thread < gridDim * blockDim := by
      calc block * blockDim + thread < (block + 1) * blockDim := by
            rw [Nat.succ_mul]; omega
        _ ≤ gridDim * blockDim := Nat.mul_le_mul_right _ blockBound
    omega
  · rintro ⟨above, below⟩
    have bound : (x - offset).toNat < gridDim * blockDim := by omega
    have positive : 0 < blockDim :=
      Nat.pos_of_ne_zero fun zero => by simp [zero] at bound
    have split := Nat.div_add_mod' (x - offset).toNat blockDim
    refine ⟨(x - offset).toNat / blockDim,
      (Nat.div_lt_iff_lt_mul positive).mpr bound,
      (x - offset).toNat % blockDim, Nat.mod_lt _ positive, ?_⟩
    omega

end Physis.Library.StridedLoops
