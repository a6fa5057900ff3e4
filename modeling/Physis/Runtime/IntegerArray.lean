import Physis.Library.MachineIntegers
import Physis.Library.RowMajor

/-!
# Integer arrays

`IntegerArray` wraps a fixed array of `PS_MAX_DIM` integers.  Here an array is
a function on the natural numbers; no operation of the runtime looks at an
element from `PS_MAX_DIM` on.  A `PSIndex` is an integer, and the sizes, widths
and process indices that the runtime keeps unsigned or never negative are
natural numbers.  Where a product of `PSIndex` values may wrap around, it is
taken in 32 bits.
-/

namespace Physis.Runtime

open Physis.Library
open Physis.Library.MachineIntegers

/-- `PS_MAX_DIM` -/
def psMaxDim : Nat := 3

abbrev IntegerArray (ty : Type) := Nat → ty

abbrev IndexArray := IntegerArray Int
abbrev IntArray := IntegerArray Nat
abbrev UnsignedArray := IntegerArray Nat
abbrev SizeArray := IntegerArray Nat

namespace IntegerArray

/-- The three-element constructor. -/
def mk3 {ty : Type} [Zero ty] (x y z : ty) : IntegerArray ty
  | 0 => x
  | 1 => y
  | 2 => z
  | _ => 0

/-- The product of the first `len` elements. -/
def accumulate {ty : Type} [Mul ty] [One ty]
    (array : IntegerArray ty) (len : Nat) : ty :=
  (List.range len).foldl (fun v i => v * array i) 1

/-- `accumulate` of an `IndexArray`: the product in 32 bits. -/
def accumulatePSIndex (array : IndexArray) (len : Nat) : Int :=
  (List.range len).foldl (fun v i => toSigned 32 (v * array i)) 1

theorem accumulate_eq_prod
    {ty : Type} [CommMonoid ty]
    (array : IntegerArray ty) (len : Nat) :
    accumulate array len = ∏ i ∈ Finset.range len, array i := by
  induction len with
  | zero => simp [accumulate]
  | succ len induction =>
      rw [Finset.prod_range_succ, ← induction]
      simp [accumulate, List.range_succ]

theorem accumulate_eq_volume (array : IndexArray) (len : Nat) :
    accumulate array len = RowMajor.volume array len :=
  accumulate_eq_prod array len

theorem accumulate_eq_weight (array : IntArray) (len : Nat) :
    accumulate array len = MixedRadix.weight array len :=
  accumulate_eq_prod array len

/-- In 32 bits the product keeps its residue and is one of the type. -/
theorem accumulatePSIndex_spec (array : IndexArray) (len : Nat) :
    accumulatePSIndex array len ≡ RowMajor.volume array len [ZMOD 2 ^ 32] ∧
      FitsSigned 32 (accumulatePSIndex array len) := by
  induction len with
  | zero => exact ⟨Int.ModEq.refl _, show FitsSigned 32 1 by decide⟩
  | succ len induction =>
      rw [accumulatePSIndex, List.range_succ, List.foldl_append, List.foldl_cons,
        List.foldl_nil, RowMajor.volume_succ]
      exact ⟨(toSigned_modEq 32 _).trans (induction.1.mul_right _),
        fits_toSigned (by decide) _⟩

/-- The product in 32 bits is exact if it is one of the type. -/
theorem accumulatePSIndex_eq_iff (array : IndexArray) (len : Nat) :
    accumulatePSIndex array len = RowMajor.volume array len ↔
      FitsSigned 32 (RowMajor.volume array len) := by
  obtain ⟨same, fits⟩ := accumulatePSIndex_spec array len
  constructor
  · intro exact_
    exact exact_ ▸ fits
  · intro exactFits
    exact eq_of_modEq_of_fits (by decide) same fits exactFits

end IntegerArray

end Physis.Runtime
