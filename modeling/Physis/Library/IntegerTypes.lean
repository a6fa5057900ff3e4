import Physis.Library.MachineIntegers

/-!
# Integer types of C

The operands of an arithmetic operation are converted to a common type.  An
operation on an unsigned type wraps around, and one on a signed type is
undefined where its type does not represent the result.
-/

namespace Physis.Library.IntegerTypes

open Physis.Library.MachineIntegers

/-- An integer type, whose bits are eight doubled as often as its rank says. -/
structure IntegerType where
  rank : Nat
  isSigned : Bool
deriving DecidableEq, Repr

namespace IntegerType

def int : IntegerType := ⟨2, true⟩

def unsignedInt : IntegerType := ⟨2, false⟩

/-- `long` and `long long` -/
def long : IntegerType := ⟨3, true⟩

variable (type : IntegerType)

def bits : Nat :=
  8 * 2 ^ type.rank

theorem bits_pos : 0 < type.bits :=
  Nat.mul_pos (by decide) (Nat.two_pow_pos _)

/-- The type represents the value. -/
def Fits (value : Int) : Prop :=
  if type.isSigned then FitsSigned type.bits value else FitsUnsigned type.bits value

instance (value : Int) : Decidable (type.Fits value) :=
  inferInstanceAs (Decidable (if type.isSigned then _ else _))

/-- The value that a conversion to the type gives. -/
def convert (value : Int) : Int :=
  if type.isSigned then toSigned type.bits value else value % 2 ^ type.bits

/-- What an operation of the type makes of its exact result. -/
def result (value : Int) : Option Int :=
  if type.isSigned = true ∧ ¬type.Fits value then none else some (type.convert value)

/-- The integer promotions -/
def promoted : IntegerType :=
  if type.rank < int.rank then int else type

/-- The usual arithmetic conversions -/
def common (left right : IntegerType) : IntegerType :=
  let l := left.promoted
  let r := right.promoted
  if l.rank = r.rank then ⟨l.rank, l.isSigned && r.isSigned⟩
  else if l.rank < r.rank then r else l

/--
An operation of the type gives its exact result if it has one: the type
represents the operands, and an unsigned one the result.
-/
structure ExactAt (operands : List Int) (exactResult : Int) : Prop where
  operands : ∀ value ∈ operands, type.Fits value
  result : type.isSigned = false → type.Fits exactResult

/-! ## Values that a type represents -/

variable {type} {value : Int}

/-- A conversion keeps the values of the type. -/
theorem convert_of_fits (fits : type.Fits value) : type.convert value = value := by
  rw [Fits] at fits
  rw [convert]
  split
  · rename_i isSigned
    rw [if_pos isSigned] at fits
    exact (toSigned_eq_iff type.bits_pos value).mpr fits
  · rename_i isUnsigned
    rw [if_neg isUnsigned] at fits
    exact Int.emod_eq_of_lt fits.1 fits.2

/-- An operation whose exact result the type represents has that result. -/
theorem result_of_fits (fits : type.Fits value) : type.result value = some value := by
  rw [result, if_neg (fun overflow => overflow.2 fits), convert_of_fits fits]

/-- A result is the exact one if the type represents that or is signed. -/
theorem eq_of_result {actual : Int} (computed : type.result value = some actual)
    (fits : type.isSigned = false → type.Fits value) : actual = value := by
  have represented : type.Fits value := by
    cases isSigned : type.isSigned with
    | false => exact fits isSigned
    | true =>
        rw [result] at computed
        split at computed
        · cases computed
        · rename_i defined
          exact not_not.mp fun overflow => defined ⟨isSigned, overflow⟩
  rw [result_of_fits represented] at computed
  exact (Option.some.inj computed).symm

/-- A conversion keeps the value modulo the number of values of the type. -/
theorem convert_modEq (type : IntegerType) (value : Int) :
    type.convert value ≡ value [ZMOD 2 ^ type.bits] := by
  rw [convert]
  split
  · exact toSigned_modEq type.bits value
  · exact Int.mod_modEq _ _

/-- The value of a conversion is one of the type. -/
theorem fits_convert (type : IntegerType) (value : Int) : type.Fits (type.convert value) := by
  rw [Fits, convert]
  split
  · exact fits_toSigned type.bits_pos value
  · have positive : (0 : Int) < 2 ^ type.bits := by positivity
    exact ⟨Int.emod_nonneg _ positive.ne', Int.emod_lt_of_pos _ positive⟩

/-- The two types of a rank. -/
theorem common_of_rank {rank : Nat} (promoted : int.rank ≤ rank) (left right : Bool) :
    common ⟨rank, left⟩ ⟨rank, right⟩ = ⟨rank, left && right⟩ := by
  have kept (isSigned : Bool) : IntegerType.promoted ⟨rank, isSigned⟩ = ⟨rank, isSigned⟩ :=
    if_neg (by simpa using promoted)
  simp only [common, kept, if_true]

end IntegerType

/-! ## What an operation makes of its result -/

/-- What the result of an operation of a type is made of. -/
abbrev Rounding := IntegerType → Int → Option Int

/-- A signed operation that overflows is undefined. -/
def checked : Rounding :=
  IntegerType.result

/-- Also a signed operation that overflows wraps around. -/
def wrapping : Rounding :=
  fun type value => some (type.convert value)

/-- A rounding under which these exact values have no overflow that is undefined. -/
def Tame (round : Rounding) (exactValues : List Int) : Prop :=
  round = wrapping ∨
    round = checked ∧ ∀ value ∈ exactValues, FitsSigned IntegerType.int.bits value

/-! ## Values that stand for exact ones -/

/-- A value of a type that is the exact one modulo the number of its values. -/
structure Represents (type : IntegerType) (value exactValue : Int) : Prop where
  fits : type.Fits value
  same : value ≡ exactValue [ZMOD 2 ^ type.bits]

section Represents

variable {type : IntegerType} {value exactValue : Int}

theorem represents_convert (type : IntegerType) (exactValue : Int) :
    Represents type (type.convert exactValue) exactValue :=
  ⟨type.fits_convert exactValue, type.convert_modEq exactValue⟩

theorem Represents.trans (represents : Represents type value exactValue) {other : Int}
    (same : exactValue ≡ other [ZMOD 2 ^ type.bits]) : Represents type value other :=
  ⟨represents.fits, represents.same.trans same⟩

/-- A value of the type is represented by itself only. -/
theorem Represents.eq_of_fits (represents : Represents type value exactValue)
    (fits : type.Fits exactValue) : value = exactValue := by
  have own := represents.fits
  rw [IntegerType.Fits] at own fits
  split at own
  · rename_i isSigned
    rw [if_pos isSigned] at fits
    exact eq_of_modEq_of_fits type.bits_pos represents.same own fits
  · rename_i isUnsigned
    rw [if_neg isUnsigned] at fits
    have residues := represents.same
    rwa [Int.ModEq, Int.emod_eq_of_lt own.1 own.2, Int.emod_eq_of_lt fits.1 fits.2]
      at residues

end Represents

/-- The types of the rank of `int` -/
def word (isSigned : Bool) : IntegerType :=
  ⟨IntegerType.int.rank, isSigned⟩

@[simp]
theorem common_word (left right : Bool) :
    (word left).common (word right) = word (left && right) :=
  IntegerType.common_of_rank le_rfl left right

/-- A value of either type that represents a small number is that number. -/
theorem Represents.eq_of_small {isSigned : Bool} {value exactValue : Int}
    (represents : Represents (word isSigned) value exactValue)
    (fits : FitsSigned 32 exactValue) (nonneg : isSigned = false → 0 ≤ exactValue) :
    value = exactValue := by
  apply represents.eq_of_fits
  cases isSigned with
  | true => exact fits
  | false =>
      have larger : (2 : Int) ^ (32 - 1) < 2 ^ (word false).bits := by decide
      exact ⟨nonneg rfl, fits.2.trans larger⟩

/-- What an operation that respects residues gives represents its exact result. -/
theorem represents_of_operation
    {left right : Bool} {x y exactX exactY value : Int} {combine : Int → Int → Int}
    (respects : ∀ {a a' b b' : Int}, a ≡ a' [ZMOD 2 ^ 32] → b ≡ b' [ZMOD 2 ^ 32] →
      combine a b ≡ combine a' b' [ZMOD 2 ^ 32])
    (ofX : Represents (word left) x exactX) (ofY : Represents (word right) y exactY)
    (computed :
      let type := (word left).common (word right)
      checked type (combine (type.convert x) (type.convert y)) = some value) :
    Represents ((word left).common (word right)) value (combine exactX exactY) := by
  simp only [common_word] at computed ⊢
  have operandX := (IntegerType.convert_modEq (word (left && right)) x).trans ofX.same
  have operandY := (IntegerType.convert_modEq (word (left && right)) y).trans ofY.same
  rw [checked, IntegerType.result] at computed
  split at computed
  · cases computed
  · obtain rfl := Option.some.inj computed
    exact (represents_convert _ _).trans (respects operandX operandY)

/--
An operation that respects residues represents its exact result, unless it
overflows where that is undefined.
-/
theorem exists_operation
    {round : Rounding} {left right : Bool} {x y exactX exactY : Int}
    {combine : Int → Int → Int}
    (respects : ∀ {a a' b b' : Int}, a ≡ a' [ZMOD 2 ^ 32] → b ≡ b' [ZMOD 2 ^ 32] →
      combine a b ≡ combine a' b' [ZMOD 2 ^ 32])
    (ofX : Represents (word left) x exactX) (ofY : Represents (word right) y exactY)
    (tame : Tame round [exactX, exactY, combine exactX exactY]) :
    let type := (word left).common (word right)
    ∃ value, round type (combine (type.convert x) (type.convert y)) = some value ∧
      Represents type value (combine exactX exactY) := by
  intro type
  have isWord : type = word (left && right) := common_word left right
  rw [isWord]
  have operandX := (IntegerType.convert_modEq (word (left && right)) x).trans ofX.same
  have operandY := (IntegerType.convert_modEq (word (left && right)) y).trans ofY.same
  have same := respects operandX operandY
  refine ⟨(word (left && right)).convert _, ?_,
    (represents_convert (word (left && right)) _).trans same⟩
  rcases tame with rfl | ⟨rfl, fits⟩
  · rfl
  · rw [checked, IntegerType.result, if_neg]
    rintro ⟨isSigned, overflow⟩
    -- a signed operation has signed operands, which are exact
    have both : left = true ∧ right = true := by simpa [word] using isSigned
    obtain ⟨rfl, rfl⟩ := both
    have fitsX : (word true).Fits exactX := fits exactX (by simp)
    have fitsY : (word true).Fits exactY := fits exactY (by simp)
    apply overflow
    rw [ofX.eq_of_fits fitsX, ofY.eq_of_fits fitsY, Bool.and_true,
      IntegerType.convert_of_fits fitsX, IntegerType.convert_of_fits fitsY]
    exact fits _ (by simp)

end Physis.Library.IntegerTypes
