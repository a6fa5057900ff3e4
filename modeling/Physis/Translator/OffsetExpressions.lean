import Physis.Library.IntegerTypes
import Physis.Runtime.PeriodicOffsets

/-!
# Offset expressions

The optimisation passes replace calls of the offset functions by arithmetic on
the index variables, the extents of the grid and an offset variable.  The index
variables of the reference code are unsigned, and then are the sums, products
and remainders they occur in; the offset functions convert their arguments to
`PSIndex`.  An expression is evaluated with a meaning of signed operations that
overflow: undefined, or wrapping around.
-/

namespace Physis.Translator

open Physis.Library
open Physis.Library.IntegerTypes
open Physis.Library.MachineIntegers
open Physis.Library.RowMajor
open Physis.Runtime

/-- The integer expressions the passes build; dimensions are counted from zero. -/
inductive OffsetExp where
  | offsetVar
  | indexVar (dim : Nat)
  | intVal (value : Int)
  | gridDim (dim : Nat)
  | add (lhs rhs : OffsetExp)
  | subtract (lhs rhs : OffsetExp)
  | multiply (lhs rhs : OffsetExp)
  | mod (lhs rhs : OffsetExp)
deriving DecidableEq, Repr

/--
The value of the offset variable, the indices, whether the index variables that
hold them are signed, and the extents of the grid.
-/
structure OffsetEnv where
  offset : Int
  signs : Nat → Bool
  index : IndexArray
  dim : IndexArray

namespace OffsetExp

/-- The type of an expression; `PSIndex` is `int`. -/
def type (signs : Nat → Bool) : OffsetExp → IntegerType
  | offsetVar => .int
  | indexVar d => word (signs d)
  | intVal _ => .int
  | gridDim _ => .int
  | add lhs rhs => (lhs.type signs).common (rhs.type signs)
  | subtract lhs rhs => (lhs.type signs).common (rhs.type signs)
  | multiply lhs rhs => (lhs.type signs).common (rhs.type signs)
  | mod lhs rhs => (lhs.type signs).common (rhs.type signs)

def eval (round : Rounding) (env : OffsetEnv) : OffsetExp → Option Int
  | offsetVar => some env.offset
  | indexVar d => some ((word (env.signs d)).convert (env.index d))
  | intVal value => some (IntegerType.int.convert value)
  | gridDim d => some (env.dim d)
  | add lhs rhs => do
      let x ← lhs.eval round env
      let y ← rhs.eval round env
      let type := (lhs.type env.signs).common (rhs.type env.signs)
      round type (type.convert x + type.convert y)
  | subtract lhs rhs => do
      let x ← lhs.eval round env
      let y ← rhs.eval round env
      let type := (lhs.type env.signs).common (rhs.type env.signs)
      round type (type.convert x - type.convert y)
  | multiply lhs rhs => do
      let x ← lhs.eval round env
      let y ← rhs.eval round env
      let type := (lhs.type env.signs).common (rhs.type env.signs)
      round type (type.convert x * type.convert y)
  | mod lhs rhs => do
      let x ← lhs.eval round env
      let y ← rhs.eval round env
      let type := (lhs.type env.signs).common (rhs.type env.signs)
      if type.convert y = 0 then none
      else some ((type.convert x).tmod (type.convert y))

/-- The expression has a value, which stands for an exact one. -/
def Evaluates (round : Rounding) (env : OffsetEnv) (e : OffsetExp) (exactValue : Int) :
    Prop :=
  ∃ value, e.eval round env = some value ∧
    Represents (e.type env.signs) value exactValue

end OffsetExp

/-! ## The calls that are replaced -/

/-- `__PSGridGetOffset1D` to `__PSGridGetOffset3D` -/
def psGridGetOffset (round : Rounding) : (numDims : Nat) → (dim i : IndexArray) → Option Int
  | 1, _, i => some (i 0)
  | 2, dim, i => do
      let row ← round .int (i 1 * dim 0)
      round .int (i 0 + row)
  | 3, dim, i => do
      let row ← round .int (i 1 * dim 0)
      let xy ← round .int (i 0 + row)
      let line ← round .int (i 2 * dim 0)
      let plane ← round .int (line * dim 1)
      round .int (xy + plane)
  | _, _, _ => none

/-- An index argument of a regular access: its index variable and constants. -/
inductive IndexArg where
  | indexVar
  | addInt (arg : IndexArg) (value : Int)
  | intAdd (value : Int) (arg : IndexArg)
  | subtractInt (arg : IndexArg) (value : Int)
deriving DecidableEq, Repr

namespace IndexArg

/-- The offset the stencil index of the argument has; its constants are of type `int`. -/
def offset : IndexArg → Int
  | indexVar => 0
  | addInt arg value => arg.offset + IntegerType.int.convert value
  | intAdd value arg => IntegerType.int.convert value + arg.offset
  | subtractInt arg value => arg.offset - IntegerType.int.convert value

def toExp (d : Nat) : IndexArg → OffsetExp
  | indexVar => .indexVar d
  | addInt arg value => .add (arg.toExp d) (.intVal value)
  | intAdd value arg => .add (.intVal value) (arg.toExp d)
  | subtractInt arg value => .subtract (arg.toExp d) (.intVal value)

end IndexArg

/-- A call of an offset function with one index argument for each dimension. -/
structure OffsetCall where
  numDims : Nat
  periodic : Bool
  args : Nat → IndexArg

namespace OffsetCall

variable (call : OffsetCall) (env : OffsetEnv)

/-- An index argument as the parameter of the offset function -/
def parameter (d : Nat) : Option Int :=
  (((call.args d).toExp d).eval checked env).map IntegerType.int.convert

/-- What the call computes; `none` where a signed operation overflows -/
def eval : Option Int := do
  let indices ← (List.range call.numDims).mapM (call.parameter env)
  if call.periodic then
    PeriodicRuntime.ref.gridOffset call.numDims env.dim fun d => indices.getD d 0
  else psGridGetOffset checked call.numDims env.dim fun d => indices.getD d 0

/-- The exact value of an index argument as a `PSIndex` -/
def argument (d : Nat) : Int :=
  toSigned 32 (env.index d + (call.args d).offset)

/--
The coordinates of the accessed cell: the arguments, of periodic accesses the
remainders.
-/
def cell : IndexArray :=
  fun d =>
    if call.periodic then (call.argument env d + env.dim d).tmod (env.dim d)
    else call.argument env d

/-- `index_offset`, the offset of a dimension as an `int` -/
def indexOffset (d : Nat) : Int :=
  toSigned 32 (call.args d).offset

end OffsetCall

/-! ## Evaluation -/

namespace OffsetExp

variable {round : Rounding} {env : OffsetEnv} {e lhs rhs : OffsetExp} {x y : Int}

theorem type_eq_word (signs : Nat → Bool) (e : OffsetExp) :
    ∃ isSigned, e.type signs = word isSigned := by
  induction e with
  | offsetVar | intVal | gridDim => exact ⟨true, rfl⟩
  | indexVar d => exact ⟨signs d, rfl⟩
  | add lhs rhs left right | subtract lhs rhs left right
  | multiply lhs rhs left right | mod lhs rhs left right =>
      obtain ⟨leftSigned, left⟩ := left
      obtain ⟨rightSigned, right⟩ := right
      exact ⟨leftSigned && rightSigned, by rw [type, left, right, common_word]⟩

/-- What is defined is computed by wrapping arithmetic too. -/
theorem eval_wrapping_of_checked {value : Int} (defined : e.eval checked env = some value) :
    e.eval wrapping env = some value := by
  have round {type : IntegerType} {x y : Int} (computed : checked type x = some y) :
      wrapping type x = some y := by
    rw [checked, IntegerType.result] at computed
    split at computed
    · cases computed
    · exact computed
  induction e generalizing value with
  | offsetVar | indexVar | intVal | gridDim => exact defined
  | add lhs rhs left right | subtract lhs rhs left right | multiply lhs rhs left right =>
      simp only [eval, Option.bind_eq_bind, Option.bind_eq_some_iff] at defined ⊢
      obtain ⟨x, lhsValue, y, rhsValue, result⟩ := defined
      exact ⟨x, left lhsValue, y, right rhsValue, round result⟩
  | mod lhs rhs left right =>
      simp only [eval, Option.bind_eq_bind, Option.bind_eq_some_iff] at defined ⊢
      obtain ⟨x, lhsValue, y, rhsValue, result⟩ := defined
      exact ⟨x, left lhsValue, y, right rhsValue, result⟩

theorem Evaluates.of_checked (evaluates : e.Evaluates checked env x)
    (tame : Tame round []) : e.Evaluates round env x := by
  obtain ⟨value, computed, represents⟩ := evaluates
  rcases tame with rfl | ⟨rfl, -⟩
  · exact ⟨value, eval_wrapping_of_checked computed, represents⟩
  · exact ⟨value, computed, represents⟩

theorem Evaluates.congr (evaluates : e.Evaluates round env x) (same : x ≡ y [ZMOD 2 ^ 32]) :
    e.Evaluates round env y := by
  obtain ⟨value, computed, represents⟩ := evaluates
  obtain ⟨isSigned, isWord⟩ := e.type_eq_word env.signs
  rw [isWord] at represents
  exact ⟨value, computed, by rw [isWord]; exact represents.trans same⟩

theorem evaluates_intVal (same : x ≡ y [ZMOD 2 ^ 32]) :
    (intVal x).Evaluates round env y :=
  ⟨_, rfl, (represents_convert .int x).trans same⟩

theorem evaluates_indexVar (d : Nat) : (indexVar d).Evaluates round env (env.index d) :=
  ⟨_, rfl, represents_convert _ _⟩

theorem evaluates_gridDim {d : Nat} (fits : FitsSigned 32 (env.dim d)) :
    (gridDim d).Evaluates round env (env.dim d) :=
  ⟨_, rfl, fits, rfl⟩

/-- The value of an operation, given those of its operands -/
theorem Evaluates.combine {combine : Int → Int → Int} {operation : OffsetExp}
    (respects : ∀ {a a' b b' : Int}, a ≡ a' [ZMOD 2 ^ 32] → b ≡ b' [ZMOD 2 ^ 32] →
      combine a b ≡ combine a' b' [ZMOD 2 ^ 32])
    (left : lhs.Evaluates round env x) (right : rhs.Evaluates round env y)
    (tame : Tame round [x, y, combine x y])
    (isType : operation.type env.signs = (lhs.type env.signs).common (rhs.type env.signs))
    (isValue : operation.eval round env = (lhs.eval round env).bind fun x =>
      (rhs.eval round env).bind fun y =>
        let type := (lhs.type env.signs).common (rhs.type env.signs)
        round type (combine (type.convert x) (type.convert y))) :
    operation.Evaluates round env (combine x y) := by
  obtain ⟨leftValue, leftComputed, ofLeft⟩ := left
  obtain ⟨rightValue, rightComputed, ofRight⟩ := right
  obtain ⟨leftSigned, leftWord⟩ := lhs.type_eq_word env.signs
  obtain ⟨rightSigned, rightWord⟩ := rhs.type_eq_word env.signs
  rw [leftWord] at ofLeft
  rw [rightWord] at ofRight
  obtain ⟨value, computed, represents⟩ := exists_operation respects ofLeft ofRight tame
  refine ⟨value, ?_, by rw [isType, leftWord, rightWord]; exact represents⟩
  rw [isValue, leftComputed, Option.bind_some, rightComputed, Option.bind_some, leftWord,
    rightWord]
  exact computed

theorem Evaluates.add (left : lhs.Evaluates round env x) (right : rhs.Evaluates round env y)
    (tame : Tame round [x, y, x + y]) : (add lhs rhs).Evaluates round env (x + y) :=
  Evaluates.combine (fun first second => first.add second) left right tame rfl rfl

theorem Evaluates.subtract (left : lhs.Evaluates round env x)
    (right : rhs.Evaluates round env y) (tame : Tame round [x, y, x - y]) :
    (subtract lhs rhs).Evaluates round env (x - y) :=
  Evaluates.combine (fun first second => first.sub second) left right tame rfl rfl

theorem Evaluates.multiply (left : lhs.Evaluates round env x)
    (right : rhs.Evaluates round env y) (tame : Tame round [x, y, x * y]) :
    (multiply lhs rhs).Evaluates round env (x * y) :=
  Evaluates.combine (fun first second => first.mul second) left right tame rfl rfl

/-- A remainder is exact for a dividend that its type represents. -/
theorem Evaluates.mod {isSigned : Bool} (left : lhs.Evaluates round env x)
    (right : rhs.Evaluates round env y) (isType : lhs.type env.signs = word isSigned)
    (signed : rhs.type env.signs = .int)
    (dividend : FitsSigned 32 x) (nonneg : isSigned = false → 0 ≤ x)
    (divisor : FitsSigned 32 y) (positive : 0 < y) :
    (mod lhs rhs).Evaluates round env (x.tmod y) := by
  obtain ⟨leftValue, leftComputed, ofLeft⟩ := left
  obtain ⟨rightValue, rightComputed, ofRight⟩ := right
  have common : (lhs.type env.signs).common (rhs.type env.signs) = word isSigned := by
    rw [isType, signed]
    exact (common_word isSigned true).trans (by rw [Bool.and_true])
  rw [isType] at ofLeft
  rw [signed] at ofRight
  have leftExact : leftValue = x := ofLeft.eq_of_small dividend nonneg
  have rightExact : rightValue = y := ofRight.eq_of_fits divisor
  have represented {value : Int} (fits : FitsSigned 32 value)
      (least : isSigned = false → 0 ≤ value) : (word isSigned).convert value = value :=
    (represents_convert (word isSigned) value).eq_of_small fits least
  refine ⟨x.tmod y, ?_, ?_⟩
  · simp only [eval, leftComputed, rightComputed, Option.bind_eq_bind, Option.bind_some,
      common, leftExact, rightExact, represented dividend nonneg,
      represented divisor fun _ => positive.le, if_neg positive.ne']
  · rw [type, common]
    have lower := Int.lt_tmod_of_pos x positive
    have upper := Int.tmod_lt_of_pos x positive
    have fits : FitsSigned 32 (x.tmod y) := by
      obtain ⟨-, most⟩ := divisor
      constructor <;> omega
    have result : isSigned = false → 0 ≤ x.tmod y := fun isUnsigned =>
      Int.tmod_nonneg y (nonneg isUnsigned)
    have kept := represents_convert (word isSigned) (x.tmod y)
    rwa [represented fits result] at kept

end OffsetExp

/-! ## What the calls compute -/

/-- A value that stands for an exact one is converted as that. -/
theorem convert_int_of_represents {isSigned : Bool} {value exactValue : Int}
    (represents : Represents (word isSigned) value exactValue) :
    IntegerType.int.convert value = toSigned 32 exactValue := by
  apply eq_of_modEq_of_fits (by decide) ?_ (fits_toSigned (by decide) _)
    (fits_toSigned (by decide) _)
  exact (toSigned_modEq 32 value).trans
    (represents.same.trans (toSigned_modEq 32 exactValue).symm)

/-- Constants do not change the type of an index argument. -/
theorem IndexArg.type_toExp (arg : IndexArg) (d : Nat) (signs : Nat → Bool) :
    (arg.toExp d).type signs = word (signs d) := by
  have int : IntegerType.int = word true := rfl
  induction arg with
  | indexVar => rfl
  | addInt arg constant induction | intAdd constant arg induction
  | subtractInt arg constant induction =>
      simp [toExp, OffsetExp.type, induction, int]

theorem IndexArg.type_add_gridDim (arg : IndexArg) (d : Nat) (signs : Nat → Bool) :
    (OffsetExp.add (arg.toExp d) (.gridDim d)).type signs = word (signs d) := by
  have int : IntegerType.int = word true := rfl
  simp [OffsetExp.type, arg.type_toExp, int]

/-- An index argument that is defined is the index plus its offset. -/
theorem IndexArg.evaluates {arg : IndexArg} {d : Nat} {env : OffsetEnv}
    (defined : ((arg.toExp d).eval checked env).isSome) :
    (arg.toExp d).Evaluates checked env (env.index d + arg.offset) := by
  obtain ⟨value, computed⟩ := Option.isSome_iff_exists.mp defined
  refine ⟨value, computed, ?_⟩
  induction arg generalizing value with
  | indexVar =>
      obtain rfl := Option.some.inj computed
      rw [offset, add_zero]
      exact represents_convert _ _
  | addInt arg constant induction | intAdd constant arg induction
  | subtractInt arg constant induction =>
      simp only [toExp, OffsetExp.eval, Option.bind_eq_bind, Option.bind_eq_some_iff,
        Option.some.injEq, exists_eq_left'] at computed
      obtain ⟨x, inner, result⟩ := computed
      have ofArg := induction (by rw [inner]; rfl) x inner
      have ofConstant : Represents .int (IntegerType.int.convert constant)
          (IntegerType.int.convert constant) := ⟨IntegerType.fits_convert _ _, rfl⟩
      obtain ⟨isSigned, isWord⟩ := (arg.toExp d).type_eq_word env.signs
      simp only [toExp, OffsetExp.type, isWord] at ofArg result ⊢
      first
        | have whole := represents_of_operation (fun first second => first.add second)
            ofArg ofConstant result
          rwa [add_assoc] at whole
        | have whole := represents_of_operation (fun first second => first.add second)
            ofConstant ofArg result
          rwa [add_left_comm] at whole
        | have whole := represents_of_operation (fun first second => first.sub second)
            ofArg ofConstant result
          rwa [add_sub_assoc] at whole

/-- On `PSIndex` the checked operations are those that do not overflow. -/
theorem checked_int (value : Int) : checked .int value = signed 32 value := by
  rw [checked, IntegerType.result, signed]
  split
  · rename_i overflow
    exact (if_neg overflow.2).symm
  · rename_i defined
    have fits : FitsSigned 32 value := not_not.mp fun overflow => defined ⟨rfl, overflow⟩
    rw [if_pos fits]
    exact congrArg some (@IntegerType.convert_of_fits .int value fits)

/-- With a signed variable an index argument that is defined does not overflow. -/
theorem IndexArg.fits_of_signed {arg : IndexArg} {d : Nat} {env : OffsetEnv}
    (isSigned : env.signs d = true) (index : FitsSigned 32 (env.index d))
    (defined : ((arg.toExp d).eval checked env).isSome) :
    FitsSigned 32 (env.index d + arg.offset) := by
  have int : IntegerType.int = word true := rfl
  induction arg with
  | indexVar => simpa [offset] using index
  | addInt arg constant induction | intAdd constant arg induction
  | subtractInt arg constant induction =>
      obtain ⟨value, computed⟩ := Option.isSome_iff_exists.mp defined
      simp only [toExp, OffsetExp.eval, Option.bind_eq_bind, Option.bind_eq_some_iff,
        Option.some.injEq, exists_eq_left'] at computed
      obtain ⟨x, inner, result⟩ := computed
      have isSome : ((arg.toExp d).eval checked env).isSome := by rw [inner]; rfl
      have fits := induction isSome
      obtain ⟨y, again, represents⟩ := IndexArg.evaluates isSome
      obtain rfl := Option.some.inj (inner.symm.trans again)
      rw [type_toExp, isSigned] at represents
      have exactValue : x = env.index d + arg.offset := represents.eq_of_fits fits
      have kept : IntegerType.int.convert (env.index d + arg.offset) =
          env.index d + arg.offset := IntegerType.convert_of_fits fits
      have constantKept := @IntegerType.convert_of_fits .int _
        (IntegerType.fits_convert .int constant)
      simp only [OffsetExp.type, type_toExp, isSigned, int, common_word, Bool.and_self]
        at result
      simp only [← int, exactValue, kept, constantKept, checked_int, signed_eq_some] at result
      have sum := result.1
      rw [offset]
      first
        | rwa [add_assoc] at sum
        | rwa [add_left_comm] at sum
        | rwa [add_sub_assoc] at sum

section Plain

variable {dim i : IndexArray}

theorem psGridGetOffset_checked {numDims : Nat} (dims : 0 < numDims ∧ numDims ≤ psMaxDim)
    {value : Int} :
    psGridGetOffset checked numDims dim i = some value ↔
      (∀ term ∈ linearTerms dim i numDims, FitsSigned 32 term) ∧
        linear dim i numDims = value := by
  obtain ⟨some, most⟩ := dims
  simp only [psMaxDim] at most
  interval_cases numDims
  · simp [psGridGetOffset, linearTerms, linear_succ]
  · simp only [psGridGetOffset, checked_int, Option.bind_eq_bind, signed_bind_eq_some,
      signed_eq_some, linearTerms, linear_succ, linear_zero, volume_zero, volume_succ,
      List.mem_cons, List.not_mem_nil, or_false, forall_eq_or_imp, forall_eq, mul_one,
      one_mul, zero_add]
    tauto
  · simp only [psGridGetOffset, checked_int, Option.bind_eq_bind, signed_bind_eq_some,
      signed_eq_some, linearTerms, linear_succ, linear_zero, volume_zero, volume_succ,
      List.mem_cons, List.not_mem_nil, or_false, forall_eq_or_imp, forall_eq, mul_one,
      one_mul, zero_add, mul_assoc]
    tauto

/-- Wrapping around, the function computes the offset modulo the number of values. -/
theorem psGridGetOffset_wrapping
    (dim : IndexArray) {numDims : Nat} (dims : 0 < numDims ∧ numDims ≤ psMaxDim)
    (fits : FitsSigned 32 (i 0)) :
    ∃ value, psGridGetOffset wrapping numDims dim i = some value ∧
      Represents .int value (linear dim i numDims) := by
  obtain ⟨some, most⟩ := dims
  simp only [psMaxDim] at most
  interval_cases numDims
  · exact ⟨i 0, rfl, fits, by simp [linear_succ]⟩
  · refine ⟨_, rfl, (represents_convert .int _).trans ?_⟩
    have row := IntegerType.convert_modEq .int (i 1 * dim 0)
    simpa [linear_succ, volume_succ] using row.add_left (i 0)
  · refine ⟨_, rfl, (represents_convert .int _).trans ?_⟩
    have row := IntegerType.convert_modEq .int (i 1 * dim 0)
    have xy := (IntegerType.convert_modEq .int _).trans (row.add_left (i 0))
    have line := (IntegerType.convert_modEq .int (i 2 * dim 0)).mul_right (dim 1)
    have plane := (IntegerType.convert_modEq .int _).trans line
    simpa [linear_succ, volume_succ, mul_assoc] using xy.add plane

end Plain

/-- What a call that is defined says. -/
structure OffsetCall.Computes (call : OffsetCall) (env : OffsetEnv) (value : Int) : Prop where
  args : ∀ d < call.numDims,
    ((call.args d).toExp d).Evaluates checked env (env.index d + (call.args d).offset)
  sums : call.periodic = true → ∀ d < call.numDims,
    FitsSigned 32 (call.argument env d + env.dim d)
  terms : ∀ term ∈ linearTerms env.dim (call.cell env) call.numDims, FitsSigned 32 term
  position : linear env.dim (call.cell env) call.numDims = value

/-- A call computes the linear offset of its cell. -/
theorem OffsetCall.computes_of_eval {call : OffsetCall} {env : OffsetEnv} {value : Int}
    (dims : 0 < call.numDims ∧ call.numDims ≤ psMaxDim)
    (defined : call.eval env = some value) : call.Computes env value := by
  simp only [OffsetCall.eval, Option.bind_eq_bind, Option.bind_eq_some_iff] at defined
  obtain ⟨indices, mapped, result⟩ := defined
  have args : ∀ d < call.numDims, ((call.args d).toExp d).Evaluates checked env
      (env.index d + (call.args d).offset) := by
    intro d below
    have isSome := FallibleMaps.mapM_isSome_iff.mp
      (Option.isSome_iff_exists.mpr ⟨indices, mapped⟩) d (List.mem_range.mpr below)
    rw [parameter, Option.isSome_map] at isSome
    exact IndexArg.evaluates isSome
  have parameters : ∀ d < call.numDims, call.parameter env d = some (call.argument env d) := by
    intro d below
    obtain ⟨found, evaluates, represents⟩ := args d below
    obtain ⟨isSigned, isWord⟩ := ((call.args d).toExp d).type_eq_word env.signs
    rw [isWord] at represents
    rw [parameter, evaluates, Option.map_some, convert_int_of_represents represents, argument]
  have listed : indices = (List.range call.numDims).map (call.argument env) := by
    rw [FallibleMaps.mapM_eq_some_map fun d member =>
      parameters d (List.mem_range.mp member)] at mapped
    exact (Option.some.inj mapped).symm
  have coordinate : ∀ d < call.numDims, indices.getD d 0 = call.argument env d := by
    intro d below
    simp [listed, below]
  by_cases periodic : call.periodic = true
  · rw [if_pos periodic, gridOffset_eq_some dims] at result
    obtain ⟨sums, terms, position⟩ := result
    have same : ∀ d < call.numDims,
        remainders env.dim (fun d => indices.getD d 0) d = call.cell env d := by
      intro d below
      rw [remainders, coordinate d below, cell, if_pos periodic]
    refine ⟨args, fun _ d below => ?_, ?_, ?_⟩
    · rw [← coordinate d below]
      exact sums d below
    · rwa [← linearTerms_congr same]
    · rw [← position]
      exact linear_congr (fun _ _ => rfl) fun d below => (same d below).symm
  · rw [if_neg periodic, psGridGetOffset_checked dims] at result
    obtain ⟨terms, position⟩ := result
    have same : ∀ d < call.numDims, indices.getD d 0 = call.cell env d := by
      intro d below
      rw [coordinate d below, cell, if_neg periodic]
    refine ⟨args, fun isPeriodic => absurd isPeriodic periodic, ?_, ?_⟩
    · rwa [← linearTerms_congr same]
    · rw [← position]
      exact linear_congr (fun _ _ => rfl) fun d below => (same d below).symm

/-- The position is the last of the sums, or the only coordinate. -/
theorem fits_of_linearTerms {numDims : Nat} (dims : 1 ≤ numDims ∧ numDims ≤ psMaxDim)
    {dim cell : IndexArray} (terms : ∀ term ∈ linearTerms dim cell numDims, FitsSigned 32 term)
    (first : FitsSigned 32 (cell 0)) : FitsSigned 32 (linear dim cell numDims) := by
  obtain ⟨some, most⟩ := dims
  simp only [psMaxDim] at most
  interval_cases numDims
  · simpa [linear_succ] using first
  · exact terms _ (by simp [linearTerms])
  · exact terms _ (by simp [linearTerms])

/-- A call that is defined gives a `PSIndex`. -/
theorem OffsetCall.Computes.fits {call : OffsetCall} {env : OffsetEnv} {value : Int}
    (computes : call.Computes env value) (dims : 0 < call.numDims ∧ call.numDims ≤ psMaxDim)
    (positive : ∀ d < call.numDims, 0 < env.dim d ∧ env.dim d < 2 ^ 31) :
    FitsSigned 32 value := by
  rw [← computes.position]
  apply fits_of_linearTerms dims computes.terms
  rw [cell]
  split
  · have extent := positive 0 dims.1
    have lower := Int.lt_tmod_of_pos (call.argument env 0 + env.dim 0) extent.1
    have upper := Int.tmod_lt_of_pos (call.argument env 0 + env.dim 0) extent.1
    constructor <;> omega
  · exact fits_toSigned (by decide) _

end Physis.Translator
