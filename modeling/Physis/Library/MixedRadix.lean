import Mathlib

/-!
# Mixed-radix numerals

A numeral over a sequence of radices stores its least significant digit first.
The digits of a number are peeled off by repeated division, and a digit
sequence is evaluated by summing each digit times the product of the radices
below it.  The two directions are mutually inverse on numerals whose digits
are smaller than their radices.

The same evaluation serves as the row-major linearisation of an index with
dimension zero fastest.
-/

namespace Physis.Library.MixedRadix

/-- What is left of `number` once its lowest `count` digits are divided away. -/
def residual (radix : Nat → Nat) (number : Nat) : Nat → Nat
  | 0 => number
  | count + 1 => residual radix number count / radix count

/-- The digit of `number` at `position`. -/
def digit (radix : Nat → Nat) (number position : Nat) : Nat :=
  residual radix number position % radix position

/-- The product of the radices below `position`. -/
def weight (radix : Nat → Nat) (position : Nat) : Nat :=
  ∏ i ∈ Finset.range position, radix i

/-- The number denoted by the lowest `count` digits. -/
def value (radix digits : Nat → Nat) (count : Nat) : Nat :=
  ∑ i ∈ Finset.range count, digits i * weight radix i

/-- Every one of the lowest `count` digits is smaller than its radix. -/
def Valid (radix digits : Nat → Nat) (count : Nat) : Prop :=
  ∀ i < count, digits i < radix i

@[simp]
theorem weight_zero (radix : Nat → Nat) : weight radix 0 = 1 := by
  simp [weight]

theorem weight_succ (radix : Nat → Nat) (position : Nat) :
    weight radix (position + 1) = weight radix position * radix position := by
  simp [weight, Finset.prod_range_succ]

@[simp]
theorem value_zero (radix digits : Nat → Nat) : value radix digits 0 = 0 := by
  simp [value]

theorem value_succ (radix digits : Nat → Nat) (count : Nat) :
    value radix digits (count + 1) =
      value radix digits count + digits count * weight radix count := by
  simp [value, Finset.sum_range_succ]

theorem Valid.lower
    {radix digits : Nat → Nat} {count : Nat}
    (valid : Valid radix digits (count + 1)) :
    Valid radix digits count :=
  fun i below => valid i (Nat.lt_succ_of_lt below)

theorem weight_pos
    {radix : Nat → Nat} {count : Nat}
    (positive : ∀ i < count, 0 < radix i) :
    0 < weight radix count :=
  Finset.prod_pos fun i member =>
    positive i (Finset.mem_range.mp member)

theorem value_congr
    {radix otherRadix digits otherDigits : Nat → Nat} {count : Nat}
    (radixEq : ∀ i < count, radix i = otherRadix i)
    (digitEq : ∀ i < count, digits i = otherDigits i) :
    value radix digits count = value otherRadix otherDigits count := by
  apply Finset.sum_congr rfl
  intro i member
  have below : i < count := Finset.mem_range.mp member
  have weightEq : weight radix i = weight otherRadix i := by
    apply Finset.prod_congr rfl
    intro j lower
    exact radixEq j ((Finset.mem_range.mp lower).trans below)
  rw [digitEq i below, weightEq]

/-- A valid numeral of `count` digits lies below the next weight. -/
theorem value_lt
    {radix digits : Nat → Nat} {count : Nat}
    (valid : Valid radix digits count) :
    value radix digits count < weight radix count := by
  induction count with
  | zero => simp
  | succ count induction =>
      have lower := induction valid.lower
      have top : digits count + 1 ≤ radix count := valid count (Nat.lt_succ_self count)
      rw [value_succ, weight_succ]
      calc value radix digits count + digits count * weight radix count
          < weight radix count + digits count * weight radix count := by omega
        _ = weight radix count * (digits count + 1) := by ring
        _ ≤ weight radix count * radix count := Nat.mul_le_mul_left _ top

theorem digit_lt
    {radix : Nat → Nat} {position : Nat}
    (positive : 0 < radix position) (number : Nat) :
    digit radix number position < radix position :=
  Nat.mod_lt _ positive

/-- The lowest digits and the residual together recover the number. -/
theorem value_digit_add_residual
    (radix : Nat → Nat) (number count : Nat) :
    value radix (digit radix number) count +
      residual radix number count * weight radix count = number := by
  induction count with
  | zero => simp [residual]
  | succ count induction =>
      have split := Nat.mod_add_div (residual radix number count) (radix count)
      rw [value_succ, weight_succ, residual, digit]
      calc value radix (digit radix number) count +
              residual radix number count % radix count * weight radix count +
              residual radix number count / radix count *
                (weight radix count * radix count)
          = value radix (digit radix number) count +
              (residual radix number count % radix count +
                radix count * (residual radix number count / radix count)) *
                weight radix count := by ring
        _ = number := by rw [split, induction]

/-- Evaluating the digits of a number below the next weight gives it back. -/
theorem value_digit
    {radix : Nat → Nat} {number count : Nat}
    (bounded : number < weight radix count) :
    value radix (digit radix number) count = number := by
  have total := value_digit_add_residual radix number count
  rcases Nat.eq_zero_or_pos (residual radix number count) with zero | positive
  · simpa [zero] using total
  · have large : weight radix count ≤
        residual radix number count * weight radix count :=
      Nat.le_mul_of_pos_left _ positive
    omega

/-- Two valid numerals with the same value have the same digits. -/
theorem digits_eq_of_value_eq
    {radix left right : Nat → Nat} {count : Nat}
    (leftValid : Valid radix left count)
    (rightValid : Valid radix right count)
    (equal : value radix left count = value radix right count) :
    ∀ i < count, left i = right i := by
  induction count with
  | zero => intro i below; omega
  | succ count induction =>
      rw [value_succ, value_succ] at equal
      have leftLow := value_lt leftValid.lower
      have rightLow := value_lt rightValid.lower
      have positive : 0 < weight radix count := by omega
      have top : left count = right count := by
        have leftTop := Nat.add_mul_div_right
          (value radix left count) (left count) positive
        have rightTop := Nat.add_mul_div_right
          (value radix right count) (right count) positive
        rw [Nat.div_eq_of_lt leftLow] at leftTop
        rw [Nat.div_eq_of_lt rightLow] at rightTop
        rw [equal] at leftTop
        omega
      intro i below
      rcases Nat.lt_succ_iff_lt_or_eq.mp below with lower | rfl
      · exact induction leftValid.lower rightValid.lower
          (by rw [top] at equal; omega) i lower
      · exact top

/-- Peeling the digits off a valid numeral gives its digits back. -/
theorem digit_value
    {radix digits : Nat → Nat} {count : Nat}
    (valid : Valid radix digits count) :
    ∀ i < count, digit radix (value radix digits count) i = digits i := by
  have peeled : Valid radix (digit radix (value radix digits count)) count := by
    intro i below
    exact digit_lt (Nat.lt_of_le_of_lt (Nat.zero_le _) (valid i below)) _
  exact digits_eq_of_value_eq peeled valid (value_digit (value_lt valid))

end Physis.Library.MixedRadix
