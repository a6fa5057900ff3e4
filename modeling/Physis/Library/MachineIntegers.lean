import Mathlib.Algebra.Order.Ring.Int
import Mathlib.Data.Int.ModEq
import Mathlib.Tactic.Positivity
import Mathlib.Tactic.Ring

/-!
# Machine integers that do not wrap around

An operation on a machine integer gives the exact result where its type
represents it.  A computation in this style succeeds exactly if none of its
operations wraps around, and then its value is the exact one.
-/

namespace Physis.Library.MachineIntegers

/-- A signed type of this many bits represents the value. -/
def FitsSigned (width : Nat) (value : Int) : Prop :=
  -2 ^ (width - 1) ≤ value ∧ value < 2 ^ (width - 1)

/-- An unsigned type of this many bits represents the value. -/
def FitsUnsigned (width : Nat) (value : Int) : Prop :=
  0 ≤ value ∧ value < 2 ^ width

instance (width : Nat) (value : Int) : Decidable (FitsSigned width value) :=
  inferInstanceAs (Decidable (_ ∧ _))

instance (width : Nat) (value : Int) : Decidable (FitsUnsigned width value) :=
  inferInstanceAs (Decidable (_ ∧ _))

/-- The result of an operation on a signed type; none where it wraps around. -/
def signed (width : Nat) (value : Int) : Option Int :=
  if FitsSigned width value then some value else none

/-- The result of an operation on an unsigned type; none where it wraps around. -/
def unsigned (width : Nat) (value : Int) : Option Int :=
  if FitsUnsigned width value then some value else none

section Operations

variable {width : Nat} {value result : Int}

theorem signed_of_fits (fits : FitsSigned width value) :
    signed width value = some value :=
  if_pos fits

theorem unsigned_of_fits (fits : FitsUnsigned width value) :
    unsigned width value = some value :=
  if_pos fits

theorem signed_eq_some :
    signed width value = some result ↔ FitsSigned width value ∧ value = result := by
  rw [signed]
  split <;> simp_all

/-- What follows an operation sees its exact result. -/
theorem signed_bind_eq_some {β : Type} {rest : Int → Option β} {final : β} :
    (signed width value).bind rest = some final ↔
      FitsSigned width value ∧ rest value = some final := by
  rw [signed]
  split <;> simp_all

end Operations

/-- The value a conversion to a signed type gives. -/
def toSigned (width : Nat) (value : Int) : Int :=
  Int.bmod value (2 ^ width)

/-- A conversion keeps exactly the values the type represents. -/
theorem toSigned_eq_iff {width : Nat} (positive : 0 < width) (value : Int) :
    toSigned width value = value ↔ FitsSigned width value := by
  obtain ⟨half, rfl⟩ : ∃ half, width = half + 1 := ⟨width - 1, by omega⟩
  have double : (2 : Int) ^ (half + 1) = 2 * 2 ^ half := by ring
  have cast : ((2 ^ (half + 1) : Nat) : Int) = 2 * 2 ^ half := by
    push_cast
    exact double
  have power : (0 : Int) < 2 ^ half := by positivity
  rw [toSigned, FitsSigned, Nat.add_sub_cancel]
  constructor
  · intro kept
    have lower := Int.le_bmod (x := value) (m := 2 ^ (half + 1)) (by positivity)
    have upper := Int.bmod_lt (x := value) (m := 2 ^ (half + 1)) (by positivity)
    rw [kept, cast] at lower upper
    omega
  · rintro ⟨lower, upper⟩
    apply Int.bmod_eq_of_le
    · rw [cast]
      omega
    · rw [cast]
      omega

/-- The value of a conversion is one of the type. -/
theorem fits_toSigned {width : Nat} (positive : 0 < width) (value : Int) :
    FitsSigned width (toSigned width value) := by
  rw [← toSigned_eq_iff positive, toSigned, toSigned, Int.bmod_bmod]

/-! ## Wrapping around -/

/-- A conversion keeps the value modulo the number of values of the type. -/
theorem toSigned_modEq (width : Nat) (value : Int) :
    toSigned width value ≡ value [ZMOD 2 ^ width] := by
  have remainder : toSigned width value % ((2 ^ width : Nat) : Int) =
      value % ((2 ^ width : Nat) : Int) := Int.bmod_emod
  exact_mod_cast remainder

/-- Values of the type with one residue are equal. -/
theorem eq_of_modEq_of_fits {width : Nat} (positive : 0 < width) {x y : Int}
    (same : x ≡ y [ZMOD 2 ^ width]) (left : FitsSigned width x) (right : FitsSigned width y) :
    x = y := by
  have residues : x % ((2 ^ width : Nat) : Int) = y % ((2 ^ width : Nat) : Int) := by
    exact_mod_cast same
  rw [← (toSigned_eq_iff positive x).mpr left, ← (toSigned_eq_iff positive y).mpr right,
    toSigned, toSigned, Int.bmod, Int.bmod, residues]

end Physis.Library.MachineIntegers
