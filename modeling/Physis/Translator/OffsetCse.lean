import Physis.Translator.OffsetExpressions

/-!
# Common offsets of a grid

`offset_cse` computes the offset of the centre once for all accesses to a grid
and replaces the offset of each access by the centre's plus a term for every
dimension with an offset.  With unsigned index variables the terms of periodic
accesses are unsigned, and differences below zero wrap around; the sum with the
offset of the centre is that of the cell all the same.
-/

namespace Physis.Translator

open Physis.Library
open Physis.Library.IntegerTypes
open Physis.Library.MachineIntegers
open Physis.Library.RowMajor
open Physis.Runtime

/-- `dim_offset`: one times the extents of the dimensions before -/
def dimOffset : Nat → OffsetExp
  | 0 => .intVal 1
  | d + 1 => .multiply (dimOffset d) (.gridDim d)

/-- `build_offset_periodic`: `(index + dim) % dim` minus the index variable -/
def buildOffsetPeriodic (arg : IndexArg) (d : Nat) : OffsetExp :=
  .subtract (.mod (.add (arg.toExp d) (.gridDim d)) (.gridDim d)) (.indexVar d)

/-- `offset_term` -/
def offsetTerm (call : OffsetCall) (d : Nat) : OffsetExp :=
  if call.periodic then buildOffsetPeriodic (call.args d) d
  else .intVal (call.indexOffset d)

/-- `new_offset_expr` after the first dimensions of `replace_offset`. -/
def newOffsetExpr (call : OffsetCall) : Nat → OffsetExp
  | 0 => .offsetVar
  | d + 1 =>
      if call.indexOffset d = 0 then newOffsetExpr call d
      else .add (newOffsetExpr call d) (.multiply (dimOffset d) (offsetTerm call d))

/-- `replace_offset` -/
def replaceOffset (call : OffsetCall) : OffsetExp :=
  newOffsetExpr call call.numDims

/-- The index variables as parameters of an offset function -/
def centreArguments (signs : Nat → Bool) (index : IndexArray) : IndexArray :=
  fun d => IntegerType.int.convert ((word (signs d)).convert (index d))

/--
The value of a replaced offset.  `base_offset` is computed once, from the first
access to the grid: the plain offset of its index variables.
-/
def replacedValue
    (round : Rounding) (first call : OffsetCall) (signs : Nat → Bool)
    (index dim : IndexArray) : Option Int := do
  let base ← psGridGetOffset round first.numDims dim (centreArguments signs index)
  (replaceOffset call).eval round ⟨base, signs, index, dim⟩

/-! ## Exact values -/

section Values

variable {call : OffsetCall} {env : OffsetEnv}

/-- The cell with the first coordinates of the accessed cell, the others of the centre. -/
def partCell (call : OffsetCall) (env : OffsetEnv) (count : Nat) : IndexArray :=
  fun d => if d < count then call.cell env d else env.index d

theorem argument_modEq (call : OffsetCall) (env : OffsetEnv) (d : Nat) :
    call.argument env d ≡ env.index d + (call.args d).offset [ZMOD 2 ^ 32] :=
  toSigned_modEq 32 _

theorem indexOffset_modEq (call : OffsetCall) (d : Nat) :
    call.indexOffset d ≡ (call.args d).offset [ZMOD 2 ^ 32] :=
  toSigned_modEq 32 _

/-- Without an offset the coordinate is the centre's. -/
theorem cell_of_zero {d : Nat} (inside : 0 ≤ env.index d ∧ env.index d < env.dim d)
    (extent : env.dim d < 2 ^ 31) (zero : call.indexOffset d = 0) :
    call.cell env d = env.index d := by
  have none := (indexOffset_modEq call d).symm
  rw [zero] at none
  have same : call.argument env d ≡ env.index d [ZMOD 2 ^ 32] := by
    simpa using (argument_modEq call env d).trans (none.add_left (env.index d))
  have own : call.argument env d = env.index d :=
    eq_of_modEq_of_fits (by decide) same (fits_toSigned (by decide) _)
      (by constructor <;> omega)
  rw [OffsetCall.cell, own]
  split
  · rw [Int.tmod_eq_emod_of_nonneg (by omega), Int.add_emod_right,
      Int.emod_eq_of_lt inside.1 inside.2]
  · rfl

theorem linear_partCell_zero (numDims : Nat) :
    linear env.dim (partCell call env 0) numDims = linear env.dim env.index numDims :=
  linear_congr (fun _ _ => rfl) fun _ _ => by simp [partCell]

theorem linear_partCell_all (numDims : Nat) :
    linear env.dim (partCell call env numDims) numDims =
      linear env.dim (call.cell env) numDims :=
  linear_congr (fun _ _ => rfl) fun _ below => by simp [partCell, below]

/-- Moving on by one coordinate adds its difference times the stride. -/
theorem linear_partCell_succ (call : OffsetCall) (env : OffsetEnv) {numDims d : Nat}
    (below : d < numDims) :
    linear env.dim (partCell call env (d + 1)) numDims =
      linear env.dim (partCell call env d) numDims +
        volume env.dim d * (call.cell env d - env.index d) := by
  have moved := @linear_move numDims env.dim (partCell call env d) (partCell call env (d + 1))
    d below fun i _ other => by
      simp only [partCell]
      grind
  simpa [partCell] using moved

end Values

/-! ## Evaluation -/

section Evaluation

/-- Signed operations wrap around, or the elements of the grid are counted by a `PSIndex`. -/
def Unbroken (round : Rounding) (numDims : Nat) (dim : IndexArray) : Prop :=
  round = wrapping ∨ round = checked ∧ volume dim numDims < 2 ^ 31

variable {round : Rounding} {call : OffsetCall} {env : OffsetEnv} {value : Int}

theorem Unbroken.tame {numDims : Nat} {dim : IndexArray}
    (unbroken : Unbroken round numDims dim) {exactValues : List Int}
    (fits : volume dim numDims < 2 ^ 31 → ∀ value ∈ exactValues, FitsSigned 32 value) :
    Tame round exactValues :=
  unbroken.imp_right fun ⟨isChecked, elements⟩ => ⟨isChecked, fits elements⟩

theorem Tame.of_fits (tame : Tame round []) {exactValues : List Int}
    (fits : ∀ value ∈ exactValues, FitsSigned 32 value) : Tame round exactValues :=
  tame.imp_right fun ⟨isChecked, _⟩ => ⟨isChecked, fits⟩

/-- A call from the centre of a grid to one of its cells. -/
structure Addressable (call : OffsetCall) (env : OffsetEnv) : Prop where
  extents : ∀ d < call.numDims, 0 < env.dim d ∧ env.dim d < 2 ^ 31
  centre : InBox call.numDims env.dim env.index
  cell : InBox call.numDims env.dim (call.cell env)
  dividends : call.periodic = true → ∀ d < call.numDims, 0 ≤ call.argument env d + env.dim d

namespace Addressable

variable (addressable : Addressable call env)

include addressable

/-- The dimensions before have no more elements than all. -/
theorem volume_bounds {d : Nat} (within : d ≤ call.numDims) :
    0 < volume env.dim d ∧ volume env.dim d ≤ volume env.dim call.numDims := by
  have positive : ∀ i < call.numDims, 0 < env.dim i := fun i below =>
    (addressable.extents i below).1
  exact ⟨volume_pos fun i less => positive i (less.trans_le within),
    volume_le_volume positive within⟩

/-- The positions on the way from the centre to the cell. -/
theorem partCell_bounds (count : Nat) :
    0 ≤ linear env.dim (partCell call env count) call.numDims ∧
      linear env.dim (partCell call env count) call.numDims <
        volume env.dim call.numDims := by
  have inside : InBox call.numDims env.dim (partCell call env count) := by
    intro d below
    rw [partCell]
    split
    · exact addressable.cell d below
    · exact addressable.centre d below
  exact ⟨linear_nonneg inside, linear_lt_volume inside⟩

theorem dimOffset_evaluates (unbroken : Unbroken round call.numDims env.dim) {d : Nat}
    (within : d ≤ call.numDims) :
    (dimOffset d).Evaluates round env (volume env.dim d) := by
  induction d with
  | zero =>
      rw [volume_zero]
      exact OffsetExp.evaluates_intVal rfl
  | succ d induction =>
      have extent := addressable.extents d within
      have before := addressable.volume_bounds (Nat.le_of_succ_le within)
      have bounds := addressable.volume_bounds within
      rw [volume_succ] at bounds ⊢
      refine OffsetExp.Evaluates.multiply (induction (Nat.le_of_succ_le within))
        (OffsetExp.evaluates_gridDim ⟨by omega, extent.2⟩) (unbroken.tame ?_)
      intro elements product listed
      simp only [List.mem_cons, List.not_mem_nil, or_false] at listed
      rcases listed with rfl | rfl | rfl <;> constructor <;> omega

/-- The term of a dimension is the difference of the two coordinates. -/
theorem offsetTerm_evaluates (computes : call.Computes env value) (tame : Tame round [])
    {d : Nat} (below : d < call.numDims) :
    (offsetTerm call d).Evaluates round env (call.cell env d - env.index d) := by
  have argument := argument_modEq call env d
  by_cases periodic : call.periodic = true
  · have extent := addressable.extents d below
    have extentFits : FitsSigned 32 (env.dim d) := ⟨by omega, extent.2⟩
    have argumentFits : FitsSigned 32 (call.argument env d) := fits_toSigned (by decide) _
    have sumFits := computes.sums periodic d below
    have index := addressable.centre d below
    have cell := addressable.cell d below
    have sum : (OffsetExp.add ((call.args d).toExp d) (.gridDim d)).Evaluates round env
        (call.argument env d + env.dim d) := by
      refine OffsetExp.Evaluates.add
        (((computes.args d below).of_checked tame).congr argument.symm)
        (OffsetExp.evaluates_gridDim extentFits) (Tame.of_fits tame fun value listed => ?_)
      simp only [List.mem_cons, List.not_mem_nil, or_false] at listed
      rcases listed with rfl | rfl | rfl
      · exact argumentFits
      · exact extentFits
      · exact sumFits
    have remainder := OffsetExp.Evaluates.mod sum (OffsetExp.evaluates_gridDim extentFits)
      (IndexArg.type_add_gridDim (call.args d) d env.signs) rfl sumFits
      (fun _ => addressable.dividends periodic d below) extentFits extent.1
    rw [offsetTerm, if_pos periodic, buildOffsetPeriodic, OffsetCall.cell, if_pos periodic]
    rw [OffsetCall.cell, if_pos periodic] at cell
    refine remainder.subtract (OffsetExp.evaluates_indexVar d)
      (Tame.of_fits tame fun value listed => ?_)
    simp only [List.mem_cons, List.not_mem_nil, or_false] at listed
    rcases listed with rfl | rfl | rfl <;> constructor <;> omega
  · rw [offsetTerm, if_neg periodic, OffsetCall.cell, if_neg periodic]
    apply OffsetExp.evaluates_intVal
    have difference := argument.sub_right (env.index d)
    rw [add_sub_cancel_left] at difference
    exact (indexOffset_modEq call d).trans difference.symm

/-- The expression built so far is the offset of the cell moved so far. -/
theorem newOffsetExpr_evaluates (computes : call.Computes env value)
    (unbroken : Unbroken round call.numDims env.dim)
    (base : Represents .int env.offset (linear env.dim env.index call.numDims))
    {count : Nat} (within : count ≤ call.numDims) :
    (newOffsetExpr call count).Evaluates round env
      (linear env.dim (partCell call env count) call.numDims) := by
  induction count with
  | zero =>
      rw [linear_partCell_zero]
      exact ⟨env.offset, rfl, base⟩
  | succ d induction =>
      have below : d < call.numDims := within
      have moved := linear_partCell_succ call env below
      by_cases zero : call.indexOffset d = 0
      · have extent := addressable.extents d below
        rw [newOffsetExpr, if_pos zero, moved,
          cell_of_zero (addressable.centre d below) extent.2 zero, sub_self, mul_zero,
          add_zero]
        exact induction below.le
      · have index := addressable.centre d below
        have cell := addressable.cell d below
        have extent := addressable.extents d below
        have earlier := addressable.partCell_bounds d
        have later := addressable.partCell_bounds (d + 1)
        have stride := addressable.volume_bounds below.le
        rw [newOffsetExpr, if_neg zero, moved]
        refine (induction below.le).add
          ((addressable.dimOffset_evaluates unbroken below.le).multiply
            (addressable.offsetTerm_evaluates computes
              (unbroken.tame fun _ _ none => absurd none List.not_mem_nil) below)
            (unbroken.tame ?_)) (unbroken.tame ?_)
        · intro elements product listed
          simp only [List.mem_cons, List.not_mem_nil, or_false] at listed
          rcases listed with rfl | rfl | rfl <;> constructor <;> omega
        · intro elements sum listed
          simp only [List.mem_cons, List.not_mem_nil, or_false] at listed
          rcases listed with rfl | rfl | rfl <;> constructor <;> omega

end Addressable

end Evaluation

/-! ## The replaced offset -/

/--
The accessed cell is in the grid; a periodic access wraps around by an extent
at most.
-/
def OffsetCall.Reaches (call : OffsetCall) (env : OffsetEnv) : Prop :=
  ∀ d < call.numDims,
    if call.periodic then
      -env.dim d ≤ call.argument env d ∧ call.argument env d < 2 * env.dim d
    else 0 ≤ call.argument env d ∧ call.argument env d < env.dim d

section Replaced

variable {first call : OffsetCall} {signs : Nat → Bool} {index dim : IndexArray}
  {offset value : Int}

theorem OffsetCall.Reaches.cell_inBox {env : OffsetEnv} (reaches : call.Reaches env)
    (positive : ∀ d < call.numDims, 0 < env.dim d) :
    InBox call.numDims env.dim (call.cell env) := by
  intro d below
  have near := reaches d below
  rw [OffsetCall.cell]
  split
  · rename_i periodic
    rw [if_pos periodic] at near
    have extent := positive d below
    rw [Int.tmod_eq_emod_of_nonneg (by omega)]
    exact ⟨Int.emod_nonneg _ extent.ne', Int.emod_lt_of_pos _ extent⟩
  · rename_i plain
    rwa [if_neg plain] at near

/-- The index arguments do not use the offset variable. -/
theorem IndexArg.eval_toExp (offset other : Int) (arg : IndexArg) (d : Nat)
    (round : Rounding) :
    (arg.toExp d).eval round ⟨offset, signs, index, dim⟩ =
      (arg.toExp d).eval round ⟨other, signs, index, dim⟩ := by
  induction arg with
  | indexVar => rfl
  | addInt arg constant induction | intAdd constant arg induction
  | subtractInt arg constant induction =>
      simp only [toExp, OffsetExp.eval, induction]

theorem OffsetCall.eval_offset (other : Int) :
    call.eval ⟨offset, signs, index, dim⟩ = call.eval ⟨other, signs, index, dim⟩ := by
  have parameter : call.parameter ⟨offset, signs, index, dim⟩ =
      call.parameter ⟨other, signs, index, dim⟩ := by
    funext d
    simp only [OffsetCall.parameter, IndexArg.eval_toExp offset other]
  simp only [OffsetCall.eval, parameter]

/-- An index of the grid is passed as it is, from either type. -/
theorem centreArguments_of_inBox {numDims : Nat} (centre : InBox numDims dim index)
    (extents : ∀ d < numDims, dim d < 2 ^ 31) {d : Nat} (below : d < numDims) :
    centreArguments signs index d = index d := by
  have bounds := centre d below
  have extent := extents d below
  rw [centreArguments, convert_int_of_represents (represents_convert (word (signs d)) _),
    toSigned_eq_iff (by decide)]
  constructor <;> omega

theorem psGridGetOffset_congr
    {round : Rounding} {numDims : Nat} {left right : IndexArray}
    (same : ∀ d < numDims, left d = right d) :
    psGridGetOffset round numDims dim left = psGridGetOffset round numDims dim right := by
  match numDims with
  | 0 | _ + 4 => rfl
  | 1 => rw [psGridGetOffset, psGridGetOffset, same 0 (by decide)]
  | 2 =>
      rw [psGridGetOffset, psGridGetOffset, same 0 (by decide), same 1 (by decide)]
  | 3 =>
      rw [psGridGetOffset, psGridGetOffset, same 0 (by decide), same 1 (by decide),
        same 2 (by decide)]

/--
Wherever the offset function computes the offset of an access, the expression
in its place has that value, be the index variables signed or not; no signed
operation overflows where the number of elements is a `PSIndex`.
-/
theorem replacedValue_eq
    (dims : 1 ≤ call.numDims ∧ call.numDims ≤ psMaxDim)
    (grid : first.numDims = call.numDims)
    (positive : ∀ d < call.numDims, 0 < dim d ∧ dim d < 2 ^ 31)
    (centre : InBox call.numDims dim index)
    (reaches : call.Reaches ⟨offset, signs, index, dim⟩)
    (defined : call.eval ⟨offset, signs, index, dim⟩ = some value) :
    replacedValue wrapping first call signs index dim = some value ∧
      (volume dim call.numDims < 2 ^ 31 →
        replacedValue checked first call signs index dim = some value) := by
  have arguments (d : Nat) (below : d < call.numDims) :
      centreArguments signs index d = index d :=
    centreArguments_of_inBox centre (fun d below => (positive d below).2) below
  have replaced {round : Rounding} {base : Int} (unbroken : Unbroken round call.numDims dim)
      (baseValue : psGridGetOffset round call.numDims dim index = some base)
      (represents : Represents .int base (linear dim index call.numDims)) :
      replacedValue round first call signs index dim = some value := by
    rw [OffsetCall.eval_offset base] at defined
    have computes := OffsetCall.computes_of_eval dims defined
    have near : call.Reaches ⟨base, signs, index, dim⟩ := reaches
    have inside := near.cell_inBox fun d below => (positive d below).1
    have addressable : Addressable call ⟨base, signs, index, dim⟩ :=
      { extents := positive
        centre := centre
        cell := inside
        dividends := fun periodic d below => by
          have reach := near d below
          rw [if_pos periodic] at reach
          have least := reach.1
          omega }
    obtain ⟨result, computed, ofResult⟩ :=
      addressable.newOffsetExpr_evaluates computes unbroken represents le_rfl
    rw [linear_partCell_all, computes.position] at ofResult
    obtain ⟨isSigned, isWord⟩ := (newOffsetExpr call call.numDims).type_eq_word signs
    rw [isWord] at ofResult
    have nonneg : 0 ≤ value := by
      rw [← computes.position]
      exact linear_nonneg inside
    have same := ofResult.eq_of_small (computes.fits dims positive) fun _ => nonneg
    rw [replacedValue, grid, psGridGetOffset_congr arguments, baseValue,
      Option.bind_eq_bind, Option.bind_some, replaceOffset, computed, same]
  constructor
  · have centreFits : FitsSigned 32 (index 0) := by
      have bounds := centre 0 dims.1
      have extent := (positive 0 dims.1).2
      constructor <;> omega
    obtain ⟨base, baseValue, represents⟩ := psGridGetOffset_wrapping dim dims centreFits
    exact replaced (.inl rfl) baseValue represents
  · intro elements
    have least := linear_nonneg centre
    have most := linear_lt_volume centre
    have fits : FitsSigned 32 (linear dim index call.numDims) := by constructor <;> omega
    exact replaced (.inr ⟨rfl, elements⟩) ((psGridGetOffset_checked dims).mpr
      ⟨linearTerms_fit positive dims elements.le centre, rfl⟩) ⟨fits, rfl⟩

/-- A periodic access at the corner of a grid: both coordinates wrap around. -/
theorem replacedValue_corner :
    let call : OffsetCall := ⟨2, true, fun _ => .subtractInt .indexVar 1⟩
    let centre : OffsetCall := ⟨2, false, fun _ => .indexVar⟩
    replacedValue wrapping centre call (fun _ => false) (fun _ => 0) (fun _ => 4) =
        some 15 ∧
      (volume (fun _ => 4) 2 < 2 ^ 31 →
        replacedValue checked centre call (fun _ => false) (fun _ => 0) (fun _ => 4) =
          some 15) := by
  intro call centre
  have reaches : call.Reaches ⟨0, fun _ => false, fun _ => 0, fun _ => 4⟩ := by
    intro d _
    have argument : call.argument ⟨0, fun _ => false, fun _ => 0, fun _ => 4⟩ d = -1 := rfl
    norm_num [argument, call]
  have defined : call.eval ⟨0, fun _ => false, fun _ => 0, fun _ => 4⟩ = some 15 := by decide
  exact @replacedValue_eq centre call _ _ _ _ _
    ⟨by decide, by decide⟩ rfl (fun _ _ => by norm_num) (fun _ _ => by norm_num) reaches
    defined

end Replaced

end Physis.Translator
