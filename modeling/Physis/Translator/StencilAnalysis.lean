import Physis.Library.IntegerTypes
import Physis.Translator.StencilRange

/-!
# Stencil index analysis

`AnalyzeStencilIndex` takes an index argument apart into a kernel parameter and
an offset.  At additions and subtractions it does not look at whether the
analysis of an operand fails; the operand then counts as the constant zero.  It
takes any parameter for an index, and operations for exact, also where a cast or
an unsigned type changes the value.
-/

namespace Physis.Translator

open Physis.Library.IntegerTypes
open Physis.Library.MachineIntegers

/-! ## Expressions -/

/--
An index argument.  Implicit conversions are casts, and an expression of any
other form has its value, which may be undefined.
-/
inductive IndexExpr (Name : Type) where
  | intVal (type : IntegerType) (value : Int)
  | varRef (name : Name)
  | addOp (lhs rhs : IndexExpr Name)
  | subtractOp (lhs rhs : IndexExpr Name)
  | castExp (type : IntegerType) (operand : IndexExpr Name)
  | minusOp (operand : IndexExpr Name)
  | other (type : IntegerType) (value : (Name → Int) → Option Int)

namespace IndexExpr

variable {Name : Type} (types : Name → IntegerType)

/-- The type of an expression, given those of the variables -/
def type : IndexExpr Name → IntegerType
  | intVal type _ => type
  | varRef name => types name
  | addOp lhs rhs | subtractOp lhs rhs => (lhs.type).common rhs.type
  | castExp type _ => type
  | minusOp operand => operand.type.promoted
  | other type _ => type

/-- The value under a valuation of the variables -/
def eval (valuation : Name → Int) : IndexExpr Name → Option Int
  | intVal _ value => some value
  | varRef name => some (valuation name)
  | addOp lhs rhs => do
      let x ← lhs.eval valuation
      let y ← rhs.eval valuation
      let type := (lhs.type types).common (rhs.type types)
      type.result (type.convert x + type.convert y)
  | subtractOp lhs rhs => do
      let x ← lhs.eval valuation
      let y ← rhs.eval valuation
      let type := (lhs.type types).common (rhs.type types)
      type.result (type.convert x - type.convert y)
  | castExp type operand => (operand.eval valuation).map type.convert
  | minusOp operand => do
      let x ← operand.eval valuation
      let type := (operand.type types).promoted
      type.result (-type.convert x)
  | other _ value => value valuation

/-- No conversion and no operation of an unsigned type changes a value. -/
def Exact (valuation : Name → Int) : IndexExpr Name → Prop
  | intVal _ _ => True
  | varRef _ => True
  | addOp lhs rhs =>
      lhs.Exact valuation ∧ rhs.Exact valuation ∧
        ∀ x ∈ lhs.eval types valuation, ∀ y ∈ rhs.eval types valuation,
          ((lhs.type types).common (rhs.type types)).ExactAt [x, y] (x + y)
  | subtractOp lhs rhs =>
      lhs.Exact valuation ∧ rhs.Exact valuation ∧
        ∀ x ∈ lhs.eval types valuation, ∀ y ∈ rhs.eval types valuation,
          ((lhs.type types).common (rhs.type types)).ExactAt [x, y] (x - y)
  | castExp type operand =>
      operand.Exact valuation ∧ ∀ x ∈ operand.eval types valuation, type.Fits x
  | minusOp operand =>
      operand.Exact valuation ∧
        ∀ x ∈ operand.eval types valuation,
          (operand.type types).promoted.ExactAt [x] (-x)
  | other _ _ => True

/-- A bound of the offsets: the constants without their signs -/
def magnitude : IndexExpr Name → Nat
  | intVal _ value => value.natAbs
  | varRef _ => 0
  | addOp lhs rhs | subtractOp lhs rhs => lhs.magnitude + rhs.magnitude
  | castExp _ operand | minusOp operand => operand.magnitude
  | other _ _ => 0

end IndexExpr

/-- The parameters of a kernel, the index parameters first. -/
structure KernelParams (Name : Type) where
  args : List Name
  numDims : Nat

/-- How `AnalyzeStencilIndex` ends: it returns true or false, or aborts. -/
inductive IndexAnalysis where
  | accept (idx : StencilIndex)
  | reject
  | abort
deriving DecidableEq, Repr

/-- What the caller finds in its index, which a failure leaves at the default. -/
def IndexAnalysis.index : IndexAnalysis → StencilIndex
  | accept idx => idx
  | reject => ⟨0, 0⟩
  | abort => ⟨0, 0⟩

/--
What an argument looks like by the parameters it names: it is a constant, has
one of them, is none of both, or has a sum without any parameter, on which the
analysis aborts.
-/
inductive IndexForm where
  | constant
  | parameter
  | unknown
  | stuck
deriving DecidableEq, Repr

namespace IndexForm

def sum : IndexForm → IndexForm → IndexForm
  | stuck, _ | _, stuck => stuck
  | parameter, parameter => unknown
  | parameter, _ | _, parameter => parameter
  | _, _ => stuck

end IndexForm

/-- The form of what the analysis finds. -/
def IndexAnalysis.form : IndexAnalysis → IndexForm
  | accept idx => if idx.dim = 0 then .constant else .parameter
  | reject => .unknown
  | abort => .stuck

/-- A value stored in a `ssize_t` -/
def toSSize (value : Int) : Int :=
  toSigned 64 value

/-! ## The analysis -/

namespace KernelParams

variable {Name : Type} [DecidableEq Name] (kernel : KernelParams Name)

/-- `AnalyzeVarRef`; the dimension starts at one. -/
def analyzeVarRef (vn : Name) : Option Int :=
  (kernel.args.findIdx? fun arg => decide (arg = vn)).map
    fun (i : Nat) => (i : Int) + 1

/-- The branch of `AnalyzeStencilIndex` for additions and subtractions -/
def analyzeSum (isSubtract : Bool) (rhs lhs : IndexAnalysis) : IndexAnalysis :=
  if rhs = .abort ∨ lhs = .abort then .abort
  else
    let rhsIndex := rhs.index
    let lhsIndex := lhs.index
    if rhsIndex.dim ≠ 0 ∧ lhsIndex.dim ≠ 0 then .reject
    else if lhsIndex.dim ≠ 0 then
      let offset := if isSubtract then toSSize (rhsIndex.offset * -1) else rhsIndex.offset
      .accept ⟨lhsIndex.dim,
        if lhsIndex.offset ≠ 0 then toSSize (offset + lhsIndex.offset) else offset⟩
    else if rhsIndex.dim ≠ 0 then
      let dim := if isSubtract then rhsIndex.dim * -1 else rhsIndex.dim
      .accept ⟨dim,
        if rhsIndex.offset ≠ 0 then
          toSSize (lhsIndex.offset +
            toSSize (rhsIndex.offset * (if isSubtract then -1 else 1)))
        else lhsIndex.offset⟩
    else .abort

/-- `AnalyzeStencilIndex` -/
def analyzeStencilIndex : IndexExpr Name → IndexAnalysis
  | .intVal _ v => .accept ⟨0, v⟩
  | .varRef name =>
      match kernel.analyzeVarRef name with
      | some dim => .accept ⟨dim, 0⟩
      | none => .reject
  | .addOp lhs rhs =>
      analyzeSum false (analyzeStencilIndex rhs) (analyzeStencilIndex lhs)
  | .subtractOp lhs rhs =>
      analyzeSum true (analyzeStencilIndex rhs) (analyzeStencilIndex lhs)
  | .castExp _ operand => analyzeStencilIndex operand
  | .minusOp operand =>
      match analyzeStencilIndex operand with
      | .accept idx => .accept ⟨idx.dim * -1, toSSize (idx.offset * -1)⟩
      | .reject => .reject
      | .abort => .abort
  | .other _ _ => .reject

/-! ## What an index means -/

/-- The index variable of a dimension, which starts at one. -/
def indexVariable (dim : Nat) : Option Name :=
  if dim = 0 then none else (kernel.args.take kernel.numDims)[dim - 1]?

/-- The index gives the value that an expression has at a valuation. -/
structure Describes (idx : StencilIndex) (value : Int) (valuation : Name → Int) :
    Prop where
  positive : 0 < idx.dim → ∃ name, kernel.indexVariable idx.dim.natAbs = some name ∧
    value = valuation name + idx.offset
  negative : idx.dim < 0 → ∃ name, kernel.indexVariable idx.dim.natAbs = some name ∧
    value = -valuation name + idx.offset
  constant : idx.dim = 0 → value = idx.offset

/-- The index gives all values with which the access is reached. -/
def DescribesAll
    (types : Name → IntegerType) (e : IndexExpr Name) (reached : (Name → Int) → Prop)
    (idx : StencilIndex) : Prop :=
  ∀ valuation, reached valuation → ∀ value ∈ e.eval types valuation,
    kernel.Describes idx value valuation

/-- The analysis is sound for an argument at the valuations with which it is reached. -/
def SoundAt
    (types : Name → IntegerType) (e : IndexExpr Name) (reached : (Name → Int) → Prop) :
    Prop :=
  (∀ idx, kernel.analyzeStencilIndex e = .accept idx →
    kernel.DescribesAll types e reached idx) ∧
  ((¬∃ idx, kernel.DescribesAll types e reached idx) →
    ∀ idx, kernel.analyzeStencilIndex e ≠ .accept idx)

/-! ## The form of an argument -/

/-- The form of an argument, by its syntax -/
def form : IndexExpr Name → IndexForm
  | .intVal _ _ => .constant
  | .varRef name => if name ∈ kernel.args then .parameter else .unknown
  | .addOp lhs rhs | .subtractOp lhs rhs => (form lhs).sum (form rhs)
  | .castExp _ operand | .minusOp operand => form operand
  | .other _ _ => .unknown

/--
The argument is made of constants and index parameters, no sum in it of two
operands with parameters.
-/
def IsIndex : IndexExpr Name → Prop
  | .intVal _ _ => True
  | .varRef name => name ∈ kernel.args.take kernel.numDims
  | .addOp lhs rhs | .subtractOp lhs rhs =>
      IsIndex lhs ∧ IsIndex rhs ∧
        ¬(kernel.form lhs = .parameter ∧ kernel.form rhs = .parameter)
  | .castExp _ operand | .minusOp operand => IsIndex operand
  | .other _ _ => False

/--
The argument is none that the analysis takes for an index; or it is an index,
its constants are in the range of offsets, and no operation changes its value
where the access is reached.
-/
def Analyzable
    (types : Name → IntegerType) (e : IndexExpr Name) (reached : (Name → Int) → Prop) :
    Prop :=
  kernel.form e = .unknown ∨ kernel.form e = .stuck ∨
    (kernel.IsIndex e ∧ e.magnitude < 2 ^ 63 ∧
      ∀ valuation, reached valuation → e.Exact types valuation)

/-! ## The form and the analysis -/

theorem indexAnalysis_cases (outcome : IndexAnalysis) :
    outcome = .abort ∨ outcome = .reject ∨ (∃ offset, outcome = .accept ⟨0, offset⟩) ∨
      ∃ dim offset, dim ≠ 0 ∧ outcome = .accept ⟨dim, offset⟩ := by
  rcases outcome with ⟨dim, offset⟩ | _ | _
  · by_cases zero : dim = 0
    · exact .inr (.inr (.inl ⟨offset, by rw [zero]⟩))
    · exact .inr (.inr (.inr ⟨dim, offset, zero, rfl⟩))
  · exact .inr (.inl rfl)
  · exact .inl rfl

theorem analyzeSum_form (isSubtract : Bool) (rhs lhs : IndexAnalysis) :
    (analyzeSum isSubtract rhs lhs).form = lhs.form.sum rhs.form := by
  obtain rfl | rfl | ⟨rhsOffset, rfl⟩ | ⟨rhsDim, rhsOffset, rhsVar, rfl⟩ :=
      indexAnalysis_cases rhs <;>
    obtain rfl | rfl | ⟨lhsOffset, rfl⟩ | ⟨lhsDim, lhsOffset, lhsVar, rfl⟩ :=
      indexAnalysis_cases lhs <;>
    cases isSubtract <;>
    simp [analyzeSum, IndexAnalysis.form, IndexAnalysis.index, IndexForm.sum, *]

/-- The form is the form of what the analysis finds. -/
theorem form_analyzeStencilIndex (e : IndexExpr Name) :
    (kernel.analyzeStencilIndex e).form = kernel.form e := by
  induction e with
  | intVal type value => rfl
  | varRef name =>
      rw [analyzeStencilIndex, form]
      by_cases member : name ∈ kernel.args
      · have listed : (kernel.args.findIdx? fun arg => decide (arg = name)).isSome := by
          rw [List.findIdx?_isSome, List.any_eq_true]
          exact ⟨name, member, decide_eq_true rfl⟩
        obtain ⟨i, found⟩ := Option.isSome_iff_exists.mp listed
        simp only [analyzeVarRef, found, if_pos member]
        have positive : (i : Int) + 1 ≠ 0 := by omega
        simp [IndexAnalysis.form, positive]
      · have missing : kernel.args.findIdx? (fun arg => decide (arg = name)) = none := by
          rw [List.findIdx?_eq_none_iff]
          intro arg listed
          exact decide_eq_false fun same => member (same ▸ listed)
        simp only [analyzeVarRef, missing, if_neg member]
        rfl
  | addOp lhs rhs ofLhs ofRhs | subtractOp lhs rhs ofLhs ofRhs =>
      rw [analyzeStencilIndex, analyzeSum_form, ofLhs, ofRhs, form]
  | castExp type operand ofOperand => exact ofOperand
  | minusOp operand ofOperand =>
      rw [analyzeStencilIndex, form, ← ofOperand]
      rcases kernel.analyzeStencilIndex operand with ⟨dim, offset⟩ | _ | _
      · simp [IndexAnalysis.form]
      · rfl
      · rfl
  | other type value => rfl

omit [DecidableEq Name] in
theorem IndexForm.sum_eq_unknown {lhs rhs : IndexForm} (unknown : lhs.sum rhs = .unknown) :
    lhs = .parameter ∧ rhs = .parameter := by
  revert unknown
  cases lhs <;> cases rhs <;> simp [IndexForm.sum]

/-- An index is no argument that the analysis rejects. -/
theorem form_ne_unknown {e : IndexExpr Name} (index : kernel.IsIndex e) :
    kernel.form e ≠ .unknown := by
  induction e with
  | intVal type value => simp [form]
  | varRef name => simp [form, List.mem_of_mem_take index]
  | addOp lhs rhs _ _ | subtractOp lhs rhs _ _ =>
      exact fun unknown => index.2.2 (IndexForm.sum_eq_unknown unknown)
  | castExp type operand ofOperand | minusOp operand ofOperand => exact ofOperand index
  | other type value => exact index.elim

/-! ## The value of an index -/

/-- The index variable of a dimension, with the sign of the dimension -/
def parameterTerm (valuation : Name → Int) (dim : Int) : Int :=
  dim.sign * ((kernel.indexVariable dim.natAbs).map valuation).getD 0

omit [DecidableEq Name] in
@[simp]
theorem parameterTerm_zero (valuation : Name → Int) :
    kernel.parameterTerm valuation 0 = 0 := by
  simp [parameterTerm]

omit [DecidableEq Name] in
@[simp]
theorem parameterTerm_neg (valuation : Name → Int) (dim : Int) :
    kernel.parameterTerm valuation (-dim) = -kernel.parameterTerm valuation dim := by
  simp [parameterTerm, Int.sign_neg]

/-- The sign of the second operand -/
def sumSign (isSubtract : Bool) : Int :=
  if isSubtract then -1 else 1

theorem toSSize_of_lt {value : Int} (small : value.natAbs < 2 ^ 63) :
    toSSize value = value := by
  refine (toSigned_eq_iff (by decide) value).mpr ⟨?_, ?_⟩ <;> norm_num <;> omega

/-- What an accepted sum says about operands that are both accepted. -/
theorem analyzeSum_eq_accept
    {isSubtract : Bool} {rhs lhs idx : StencilIndex} (bound : Nat)
    (accepts : analyzeSum isSubtract (.accept rhs) (.accept lhs) = .accept idx)
    (bounded : lhs.offset.natAbs + rhs.offset.natAbs ≤ bound) (small : bound < 2 ^ 63) :
    (rhs.dim = 0 ∨ lhs.dim = 0) ∧ idx.dim = lhs.dim + sumSign isSubtract * rhs.dim ∧
      idx.offset = lhs.offset + sumSign isSubtract * rhs.offset := by
  have negated : toSSize (-rhs.offset) = -rhs.offset := toSSize_of_lt (by omega)
  have own : toSSize rhs.offset = rhs.offset := toSSize_of_lt (by omega)
  have sum : toSSize (lhs.offset + rhs.offset) = lhs.offset + rhs.offset :=
    toSSize_of_lt (by omega)
  have difference : toSSize (lhs.offset + -rhs.offset) = lhs.offset + -rhs.offset :=
    toSSize_of_lt (by omega)
  rw [analyzeSum, if_neg (by simp)] at accepts
  simp only [IndexAnalysis.index] at accepts
  by_cases lhsZero : lhs.dim = 0 <;> by_cases rhsZero : rhs.dim = 0 <;>
    cases isSubtract <;>
    simp_all [sumSign, add_comm rhs.offset, add_comm (-rhs.offset)] <;>
    subst accepts <;> simp_all

/-- The first place of an index parameter is that of its index variable. -/
theorem analyzeVarRef_of_mem {name : Name} (member : name ∈ kernel.args.take kernel.numDims) :
    ∃ i : Nat, kernel.analyzeVarRef name = some ((i : Int) + 1) ∧
      kernel.indexVariable (i + 1) = some name := by
  obtain ⟨j, below, place⟩ := List.mem_take_iff_getElem.mp member
  have listed : (kernel.args.findIdx? fun arg => decide (arg = name)).isSome := by
    rw [List.findIdx?_isSome, List.any_eq_true]
    exact ⟨name, List.mem_of_mem_take member, decide_eq_true rfl⟩
  obtain ⟨i, found⟩ := Option.isSome_iff_exists.mp listed
  obtain ⟨inside, own, first⟩ := List.findIdx?_eq_some_iff_getElem.mp found
  have before : i ≤ j := by
    by_contra later
    exact first j (by omega) (decide_eq_true place)
  refine ⟨i, by rw [analyzeVarRef, found]; rfl, ?_⟩
  rw [indexVariable, if_neg (Nat.succ_ne_zero i), Nat.add_sub_cancel, List.getElem?_take,
    if_pos (by omega), List.getElem?_eq_getElem inside, of_decide_eq_true own]

/-- What the analysis finds of an index at a valuation. -/
structure Splits
    (types : Name → IntegerType) (e : IndexExpr Name) (valuation : Name → Int)
    (idx : StencilIndex) : Prop where
  bounded : idx.offset.natAbs ≤ e.magnitude
  parameter : idx.dim ≠ 0 → ∃ name, kernel.indexVariable idx.dim.natAbs = some name
  value : ∀ value ∈ e.eval types valuation,
    value = kernel.parameterTerm valuation idx.dim + idx.offset

section Values

variable {kernel} {types : Name → IntegerType} {valuation : Name → Int}
  {e lhs rhs : IndexExpr Name} {idx : StencilIndex}

/-- The index of a sum splits as those of its operands. -/
theorem Splits.sum (isSubtract : Bool)
    (ofLhs : ∀ idx, kernel.analyzeStencilIndex lhs = .accept idx →
      kernel.Splits types lhs valuation idx)
    (ofRhs : ∀ idx, kernel.analyzeStencilIndex rhs = .accept idx →
      kernel.Splits types rhs valuation idx)
    (indices : kernel.IsIndex lhs ∧ kernel.IsIndex rhs)
    (bound : e.magnitude = lhs.magnitude + rhs.magnitude) (small : e.magnitude < 2 ^ 63)
    (value : ∀ result ∈ e.eval types valuation, ∃ x ∈ lhs.eval types valuation,
      ∃ y ∈ rhs.eval types valuation, result = x + sumSign isSubtract * y)
    (accepts : analyzeSum isSubtract (kernel.analyzeStencilIndex rhs)
      (kernel.analyzeStencilIndex lhs) = .accept idx) :
    kernel.Splits types e valuation idx := by
  have accepted {operand : IndexExpr Name} (index : kernel.IsIndex operand)
      (ends : kernel.analyzeStencilIndex operand ≠ .abort) :
      ∃ idx, kernel.analyzeStencilIndex operand = .accept idx := by
    have known := kernel.form_ne_unknown index
    rw [← form_analyzeStencilIndex] at known
    rcases outcome : kernel.analyzeStencilIndex operand with idx | _ | _
    · exact ⟨idx, rfl⟩
    · exact absurd (by rw [outcome]; rfl) known
    · exact absurd outcome ends
  have finished : ¬(kernel.analyzeStencilIndex rhs = .abort ∨
      kernel.analyzeStencilIndex lhs = .abort) := by
    intro aborts
    rw [analyzeSum, if_pos aborts] at accepts
    cases accepts
  obtain ⟨left, leftFound⟩ := accepted indices.1 fun aborts => finished (.inr aborts)
  obtain ⟨right, rightFound⟩ := accepted indices.2 fun aborts => finished (.inl aborts)
  have leftSplits := ofLhs left leftFound
  have rightSplits := ofRhs right rightFound
  have leftBound := leftSplits.bounded
  have rightBound := rightSplits.bounded
  rw [leftFound, rightFound] at accepts
  obtain ⟨one, dim, offset⟩ :=
    analyzeSum_eq_accept (lhs.magnitude + rhs.magnitude) accepts (by omega)
      (by omega)
  have sign : (sumSign isSubtract).natAbs = 1 := by cases isSubtract <;> rfl
  have term : kernel.parameterTerm valuation idx.dim =
      kernel.parameterTerm valuation left.dim +
        sumSign isSubtract * kernel.parameterTerm valuation right.dim := by
    rw [dim]
    rcases one with zero | zero <;> cases isSubtract <;> simp [sumSign, zero]
  constructor
  · have product := Int.natAbs_mul (sumSign isSubtract) right.offset
    have triangle := Int.natAbs_add_le left.offset (sumSign isSubtract * right.offset)
    rw [sign, one_mul] at product
    rw [offset]
    omega
  · intro nonzero
    rcases one with zero | zero
    · rw [dim, zero, mul_zero, add_zero] at nonzero ⊢
      exact leftSplits.parameter nonzero
    · rw [dim, zero, zero_add] at nonzero ⊢
      rw [Int.natAbs_mul, sign, one_mul]
      exact rightSplits.parameter (right_ne_zero_of_mul nonzero)
  · intro result computed
    obtain ⟨x, isX, y, isY, rfl⟩ := value result computed
    rw [leftSplits.value x isX, rightSplits.value y isY, term, offset]
    ring

/-- An exact operation on two operands gives its exact result. -/
theorem exists_of_result
    {type : IntegerType} {x y exact_ actual : Int}
    (keeps : type.ExactAt [x, y] exact_)
    (combine : Int → Int → Int) (same : combine x y = exact_)
    (computed : type.result (combine (type.convert x) (type.convert y)) = some actual) :
    actual = exact_ := by
  rw [IntegerType.convert_of_fits (keeps.operands x (by simp)),
    IntegerType.convert_of_fits (keeps.operands y (by simp)), same] at computed
  exact IntegerType.eq_of_result computed keeps.result

/-- Where no operation changes its value, an index that is accepted splits. -/
theorem splits_of_isIndex
    (index : kernel.IsIndex e) (small : e.magnitude < 2 ^ 63)
    (exact_ : e.Exact types valuation)
    (accepts : kernel.analyzeStencilIndex e = .accept idx) :
    kernel.Splits types e valuation idx := by
  induction e generalizing idx with
  | intVal type value =>
      obtain rfl := IndexAnalysis.accept.inj accepts
      refine ⟨le_rfl, fun nonzero => absurd rfl nonzero, ?_⟩
      intro result computed
      obtain rfl := Option.some.inj computed
      simp
  | varRef name =>
      obtain ⟨i, found, isVariable⟩ := kernel.analyzeVarRef_of_mem index
      rw [analyzeStencilIndex, found] at accepts
      obtain rfl := IndexAnalysis.accept.inj accepts
      have place : ((i : Int) + 1).natAbs = i + 1 := by omega
      refine ⟨le_rfl, fun _ => ⟨name, by rw [place, isVariable]⟩, ?_⟩
      intro result computed
      obtain rfl := Option.some.inj computed
      simp [parameterTerm, place, isVariable, Int.sign_eq_one_of_pos]
  | addOp lhs rhs ofLhs ofRhs =>
      have bound : (IndexExpr.addOp lhs rhs).magnitude =
          lhs.magnitude + rhs.magnitude := rfl
      refine Splits.sum false
        (fun _ => ofLhs index.1 (by omega) exact_.1)
        (fun _ => ofRhs index.2.1 (by omega) exact_.2.1) ⟨index.1, index.2.1⟩ bound small
        ?_ accepts
      intro result computed
      simp only [IndexExpr.eval, Option.mem_def, Option.bind_eq_bind,
        Option.bind_eq_some_iff] at computed
      obtain ⟨x, isX, y, isY, computed⟩ := computed
      have keeps := exact_.2.2 x isX y isY
      refine ⟨x, isX, y, isY, ?_⟩
      rw [exists_of_result keeps (· + ·) rfl computed, sumSign]
      simp
  | subtractOp lhs rhs ofLhs ofRhs =>
      have bound : (IndexExpr.subtractOp lhs rhs).magnitude =
          lhs.magnitude + rhs.magnitude := rfl
      refine Splits.sum true
        (fun _ => ofLhs index.1 (by omega) exact_.1)
        (fun _ => ofRhs index.2.1 (by omega) exact_.2.1) ⟨index.1, index.2.1⟩ bound small
        ?_ accepts
      intro result computed
      simp only [IndexExpr.eval, Option.mem_def, Option.bind_eq_bind,
        Option.bind_eq_some_iff] at computed
      obtain ⟨x, isX, y, isY, computed⟩ := computed
      have keeps := exact_.2.2 x isX y isY
      refine ⟨x, isX, y, isY, ?_⟩
      rw [exists_of_result keeps (· - ·) rfl computed, sumSign]
      simp [sub_eq_add_neg]
  | castExp type operand ofOperand =>
      have splits := ofOperand index small exact_.1 accepts
      refine ⟨splits.bounded, splits.parameter, ?_⟩
      intro result computed
      obtain ⟨x, isX, rfl⟩ := Option.map_eq_some_iff.mp computed
      rw [IntegerType.convert_of_fits (exact_.2 x isX)]
      exact splits.value x isX
  | minusOp operand ofOperand =>
      rw [analyzeStencilIndex] at accepts
      rcases outcome : kernel.analyzeStencilIndex operand with inner | _ | _
      · have splits := ofOperand index small exact_.1 outcome
        have bounded := splits.bounded
        have bound : (IndexExpr.minusOp operand).magnitude = operand.magnitude := rfl
        rw [outcome] at accepts
        obtain rfl := IndexAnalysis.accept.inj accepts
        have offset : toSSize (inner.offset * -1) = -inner.offset := by
          rw [mul_neg_one]
          exact toSSize_of_lt (by omega)
        refine ⟨?_, ?_, ?_⟩
        · simp only [offset]
          omega
        · intro nonzero
          simp only [mul_neg_one, Int.natAbs_neg, ne_eq, neg_eq_zero] at nonzero ⊢
          exact splits.parameter nonzero
        · intro result computed
          simp only [IndexExpr.eval, Option.mem_def, Option.bind_eq_bind,
            Option.bind_eq_some_iff] at computed
          obtain ⟨x, isX, computed⟩ := computed
          have keeps := exact_.2 x isX
          rw [IntegerType.convert_of_fits (keeps.operands x (by simp))] at computed
          rw [IntegerType.eq_of_result computed keeps.result, splits.value x isX]
          simp only [offset]
          rw [mul_neg_one, parameterTerm_neg]
          ring
      · rw [outcome] at accepts
        cases accepts
      · rw [outcome] at accepts
        cases accepts
  | other type value => exact index.elim

omit [DecidableEq Name] in
/-- What an index describes is the value of its variable and its offset. -/
theorem Describes.value_eq {value : Int} (describes : kernel.Describes idx value valuation) :
    value = kernel.parameterTerm valuation idx.dim + idx.offset := by
  rcases lt_trichotomy idx.dim 0 with negative | zero | positive
  · obtain ⟨name, isVariable, equal⟩ := describes.negative negative
    rw [equal, parameterTerm, isVariable, Int.sign_eq_neg_one_of_neg negative]
    simp
  · rw [describes.constant zero, zero, parameterTerm_zero, zero_add]
  · obtain ⟨name, isVariable, equal⟩ := describes.positive positive
    rw [equal, parameterTerm, isVariable, Int.sign_eq_one_of_pos positive]
    simp

omit [DecidableEq Name] in
/-- An index that splits describes the value. -/
theorem Splits.describes (splits : kernel.Splits types e valuation idx) {value : Int}
    (computed : value ∈ e.eval types valuation) :
    kernel.Describes idx value valuation := by
  have equal := splits.value value computed
  constructor
  · intro positive
    obtain ⟨name, isVariable⟩ := splits.parameter positive.ne'
    refine ⟨name, isVariable, ?_⟩
    rw [equal, parameterTerm, isVariable, Int.sign_eq_one_of_pos positive]
    simp
  · intro negative
    obtain ⟨name, isVariable⟩ := splits.parameter negative.ne
    refine ⟨name, isVariable, ?_⟩
    rw [equal, parameterTerm, isVariable, Int.sign_eq_neg_one_of_neg negative]
    simp
  · intro zero
    rw [equal, zero, parameterTerm_zero, zero_add]

end Values

/-- What is not described by any index is not accepted either. -/
theorem soundAt_iff
    {types : Name → IntegerType} {e : IndexExpr Name} {reached : (Name → Int) → Prop} :
    kernel.SoundAt types e reached ↔
      ∀ idx, kernel.analyzeStencilIndex e = .accept idx →
        kernel.DescribesAll types e reached idx :=
  ⟨And.left, fun sound =>
    ⟨sound, fun none idx accepts => none ⟨idx, sound idx accepts⟩⟩⟩

/--
A sum of an index with a parameter and an operand that the analysis rejects is
taken for the index alone: that is sound exactly where the operand is zero.
-/
theorem sound_addOp_iff
    {types : Name → IntegerType} {lhs rhs : IndexExpr Name}
    {reached : (Name → Int) → Prop}
    (index : kernel.IsIndex lhs) (small : lhs.magnitude < 2 ^ 63)
    (parameter : kernel.form lhs = .parameter) (unknown : kernel.form rhs = .unknown)
    (exact_ : ∀ valuation, reached valuation →
      (IndexExpr.addOp lhs rhs).Exact types valuation)
    (defined : ∀ valuation, reached valuation →
      ((IndexExpr.addOp lhs rhs).eval types valuation).isSome) :
    kernel.SoundAt types (.addOp lhs rhs) reached ↔
      ∀ valuation, reached valuation → rhs.eval types valuation = some 0 := by
  obtain ⟨idx, accepted, hasDim⟩ : ∃ idx, kernel.analyzeStencilIndex lhs = .accept idx ∧
      idx.dim ≠ 0 := by
    rw [← form_analyzeStencilIndex] at parameter
    rcases outcome : kernel.analyzeStencilIndex lhs with idx | _ | _ <;>
      simp_all [IndexAnalysis.form]
  have rejected : kernel.analyzeStencilIndex rhs = .reject := by
    rw [← form_analyzeStencilIndex] at unknown
    rcases outcome : kernel.analyzeStencilIndex rhs with idx | _ | _
    · rw [outcome, IndexAnalysis.form] at unknown
      split at unknown <;> cases unknown
    · rfl
    · rw [outcome] at unknown
      cases unknown
  have splits (valuation : Name → Int) (inside : reached valuation) :
      kernel.Splits types lhs valuation idx :=
    splits_of_isIndex index small (exact_ valuation inside).1 accepted
  have result (inhabited : ∃ valuation, reached valuation) :
      kernel.analyzeStencilIndex (.addOp lhs rhs) = .accept idx := by
    obtain ⟨valuation, inside⟩ := inhabited
    have bounded := (splits valuation inside).bounded
    have kept : toSSize idx.offset = idx.offset := toSSize_of_lt (by omega)
    rw [analyzeStencilIndex, accepted, rejected]
    have offset : (if idx.offset = 0 then 0 else idx.offset) = idx.offset := by
      split <;> simp_all
    simp [analyzeSum, IndexAnalysis.index, hasDim, kept, offset]
  have values (valuation : Name → Int) (inside : reached valuation) {value : Int}
      (computed : value ∈ (IndexExpr.addOp lhs rhs).eval types valuation) :
      ∃ x ∈ lhs.eval types valuation, ∃ y ∈ rhs.eval types valuation, value = x + y := by
    simp only [IndexExpr.eval, Option.mem_def, Option.bind_eq_bind,
      Option.bind_eq_some_iff] at computed
    obtain ⟨x, isX, y, isY, computed⟩ := computed
    have keeps := (exact_ valuation inside).2.2 x isX y isY
    exact ⟨x, isX, y, isY, exists_of_result keeps (· + ·) rfl computed⟩
  rw [soundAt_iff]
  constructor
  · intro sound valuation inside
    obtain ⟨value, computed⟩ := Option.isSome_iff_exists.mp (defined valuation inside)
    obtain ⟨x, isX, y, isY, rfl⟩ := values valuation inside computed
    have described := sound idx (result ⟨valuation, inside⟩) valuation inside (x + y) computed
    have whole := described.value_eq
    have own := ((splits valuation inside).describes isX).value_eq
    obtain rfl : y = 0 := by omega
    exact isY
  · intro zero found foundAccepted valuation inside value computed
    obtain rfl : idx = found := IndexAnalysis.accept.inj
      ((result ⟨valuation, inside⟩).symm.trans foundAccepted)
    obtain ⟨x, isX, y, isY, rfl⟩ := values valuation inside computed
    rw [zero valuation inside] at isY
    obtain rfl := Option.some.inj isY
    rw [add_zero]
    exact (splits valuation inside).describes isX

-- An unsigned constant makes the sum wrap around, but not the offset.
example :
    let kernel : KernelParams String := ⟨["x", "g"], 1⟩
    let next : IndexExpr String := .addOp (.varRef "x") (.intVal .unsignedInt 4294967295)
    kernel.analyzeStencilIndex next = .accept ⟨1, 4294967295⟩ ∧
      next.eval (fun _ => .int) (fun _ => 5) = some 4 := by
  decide

end KernelParams

end Physis.Translator
