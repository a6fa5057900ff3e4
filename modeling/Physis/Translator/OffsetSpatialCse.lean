import Physis.Translator.OffsetExpressions

/-!
# Offsets maintained over a loop

`offset_spatial_cse` computes an offset before the innermost loop and adds an
increment to it at the end of every iteration.  The increment is the difference
of the offsets of two consecutive iterations, taken in the type of the loop
variable: an unsigned sum below zero has another remainder than the sum of
`PSIndex` values that the offset function takes.
-/

namespace Physis.Translator

open Physis.Library
open Physis.Library.IntegerTypes
open Physis.Library.MachineIntegers
open Physis.Library.RowMajor
open Physis.Runtime

/-- The product of the extents of the dimensions before; none before the first. -/
def extentProduct : Nat → Option OffsetExp
  | 0 => none
  | d + 1 => some (match extentProduct d with
      | none => .gridDim d
      | some increment => .multiply increment (.gridDim d))

/-- `offset_expr`: the loop variable, and the offset if there is one -/
def loopIndexExpr (call : OffsetCall) (loopDim : Nat) : OffsetExp :=
  if call.indexOffset loopDim ≠ 0 then
    .add (.indexVar loopDim) (.intVal (call.indexOffset loopDim))
  else .indexVar loopDim

/-- `(i + 1 + n) % n - ((i + n) % n)` -/
def periodicIncrement (call : OffsetCall) (loopDim : Nat) : OffsetExp :=
  .subtract
    (.mod (.add (.add (loopIndexExpr call loopDim) (.intVal 1)) (.gridDim loopDim))
      (.gridDim loopDim))
    (.mod (.add (loopIndexExpr call loopDim) (.gridDim loopDim)) (.gridDim loopDim))

/-- The increment of `insert_offset_increment_stmt` -/
def offsetIncrement (call : OffsetCall) (loopDim : Nat) : OffsetExp :=
  if call.periodic then
    match extentProduct loopDim with
    | none => periodicIncrement call loopDim
    | some increment => .multiply increment (periodicIncrement call loopDim)
  else (extentProduct loopDim).getD (.intVal 1)

/--
A loop over one dimension with a call of an offset function in it.  The
variables in the arguments are signed or not, and so is the loop variable.
-/
structure OffsetLoop where
  call : OffsetCall
  loopDim : Nat
  signs : Nat → Bool
  loopSigned : Bool
  index : IndexArray
  dim : IndexArray
  start : Int

namespace OffsetLoop

variable (loop : OffsetLoop)

/-- The variables in an iteration, as they are in the arguments of the call. -/
def iteration (i : Nat) : OffsetEnv where
  offset := 0
  signs := loop.signs
  index := Function.update loop.index loop.loopDim (loop.start + i)
  dim := loop.dim

/-- Before the loop the begin of the loop, a `PSIndex`, is in place of the variable. -/
def initial : OffsetEnv :=
  { loop.iteration 0 with signs := Function.update loop.signs loop.loopDim true }

/-- At the end of an iteration the loop variable itself is used. -/
def ending (i : Nat) : OffsetEnv :=
  { loop.iteration i with
    signs := Function.update loop.signs loop.loopDim loop.loopSigned }

/--
The offset variable at the start of an iteration: the offset for the begin of
the loop, then an increment after each iteration.
-/
def offsetVariable (round : Rounding) : (iterations : Nat) → Option Int
  | 0 => loop.call.eval loop.initial
  | iterations + 1 => do
      let offset ← offsetVariable round iterations
      let increment ← (offsetIncrement loop.call loop.loopDim).eval round
        (loop.ending iterations)
      let type := IntegerType.int.common
        ((offsetIncrement loop.call loop.loopDim).type (loop.ending iterations).signs)
      let sum ← round type (type.convert offset + type.convert increment)
      some (IntegerType.int.convert sum)

/-- The coordinates of the accessed cell in an iteration -/
def cell (i : Nat) : IndexArray :=
  loop.call.cell (loop.iteration i)

/-- The index argument of the loop dimension without conversions -/
def loopIndex (i : Nat) : Int :=
  loop.start + i + (loop.call.args loop.loopDim).offset

/-! ## Consecutive iterations -/

theorem argument_loopDim (i : Nat) :
    loop.call.argument (loop.iteration i) loop.loopDim = toSigned 32 (loop.loopIndex i) := by
  simp only [OffsetCall.argument, iteration, Function.update_self, loopIndex]

theorem loopIndex_succ (i : Nat) : loop.loopIndex (i + 1) = loop.loopIndex i + 1 := by
  simp only [loopIndex]
  push_cast
  ring

/-- Only the coordinate of the loop dimension changes from iteration to iteration. -/
theorem linear_cell_next (below : loop.loopDim < loop.call.numDims) (i : Nat) :
    linear loop.dim (loop.cell (i + 1)) loop.call.numDims =
      linear loop.dim (loop.cell i) loop.call.numDims +
        volume loop.dim loop.loopDim *
          (loop.cell (i + 1) loop.loopDim - loop.cell i loop.loopDim) := by
  apply linear_move below
  intro d _ other
  simp only [cell, OffsetCall.cell, OffsetCall.argument, iteration,
    Function.update_of_ne other]

/-- The extents are positive `PSIndex` values. -/
def Extents : Prop :=
  ∀ d < loop.call.numDims, 0 < loop.dim d ∧ loop.dim d < 2 ^ 31

/-- What makes the checked arithmetic of an iteration defined. -/
structure Counted (i : Nat) : Prop where
  elements : volume loop.dim loop.call.numDims < 2 ^ 31
  loopVar : FitsSigned 32 (loop.start + i)
  constant : FitsSigned 32 (loop.call.args loop.loopDim).offset
  now : InBox loop.call.numDims loop.dim (loop.cell i)
  next : InBox loop.call.numDims loop.dim (loop.cell (i + 1))

/-- Signed operations wrap around, or do not overflow in the iteration. -/
def Safe (round : Rounding) (i : Nat) : Prop :=
  round = wrapping ∨ round = checked ∧ loop.Counted i

/--
The sum under the remainder of a periodic access is a `PSIndex`, and not below
zero for an unsigned loop variable.
-/
structure SumFits (i : Nat) : Prop where
  argument : FitsSigned 32 (loop.loopIndex i)
  sum : FitsSigned 32 (loop.loopIndex i + loop.dim loop.loopDim)
  nonneg : loop.loopSigned = false → 0 ≤ loop.loopIndex i + loop.dim loop.loopDim

variable {loop} {round : Rounding} {i : Nat}

theorem Safe.tame (safe : loop.Safe round i) {exactValues : List Int}
    (fits : loop.Counted i → ∀ value ∈ exactValues, FitsSigned 32 value) :
    Tame round exactValues :=
  safe.imp_right fun ⟨isChecked, counted⟩ => ⟨isChecked, fits counted⟩

theorem SumFits.cell_loopDim (fits : loop.SumFits i) (periodic : loop.call.periodic = true) :
    loop.cell i loop.loopDim =
      (loop.loopIndex i + loop.dim loop.loopDim).tmod (loop.dim loop.loopDim) := by
  rw [cell, OffsetCall.cell, if_pos periodic, argument_loopDim,
    (toSigned_eq_iff (by decide) _).mpr fits.argument]
  rfl

/-! ## The increment -/

section Increment

variable (extents : loop.Extents) (below : loop.loopDim < loop.call.numDims)

include extents in
theorem extentProduct_evaluates (env : OffsetEnv) (same : env.dim = loop.dim)
    (tame : Tame round [volume loop.dim loop.call.numDims]) {d : Nat}
    (within : d ≤ loop.call.numDims) :
    ((extentProduct d).getD (.intVal 1)).Evaluates round env (volume loop.dim d) := by
  have positive : ∀ k < loop.call.numDims, 0 < loop.dim k := fun k inside =>
    (extents k inside).1
  induction d with
  | zero =>
      rw [volume_zero]
      exact OffsetExp.evaluates_intVal rfl
  | succ d induction =>
      have extent := extents d within
      have fits : FitsSigned 32 (env.dim d) := by rw [same]; constructor <;> omega
      have last : (OffsetExp.gridDim d).Evaluates round env (loop.dim d) := by
        rw [← same]
        exact OffsetExp.evaluates_gridDim fits
      have before := volume_pos fun k less =>
        positive k (less.trans_le (Nat.le_of_succ_le within))
      have after := volume_le_volume positive within
      have earlier := induction (Nat.le_of_succ_le within)
      rw [volume_succ] at after ⊢
      rw [extentProduct, Option.getD_some]
      cases found : extentProduct d with
      | none =>
          cases d with
          | zero => simpa using last
          | succ d => cases found
      | some product =>
          rw [found, Option.getD_some] at earlier
          refine earlier.multiply last (tame.imp_right fun ⟨isChecked, bound⟩ =>
            ⟨isChecked, fun value listed => ?_⟩)
          have most := (bound _ (List.mem_singleton_self _)).2
          simp only [List.mem_cons, List.not_mem_nil, or_false] at listed
          have larger : volume loop.dim d ≤ volume loop.dim d * loop.dim d :=
            le_mul_of_one_le_right before.le extent.1
          have bits : (2 : Int) ^ (IntegerType.int.bits - 1) = 2 ^ 31 := rfl
          rcases listed with rfl | rfl | rfl <;> constructor <;> omega

/-- The index expression of the loop dimension -/
theorem loopIndexExpr_evaluates (safe : loop.Safe round i)
    (fits : FitsSigned 32 (loop.loopIndex i)) :
    (loopIndexExpr loop.call loop.loopDim).Evaluates round (loop.ending i)
      (loop.loopIndex i) := by
  have constant : loop.call.indexOffset loop.loopDim ≡
      (loop.call.args loop.loopDim).offset [ZMOD 2 ^ 32] := toSigned_modEq 32 _
  have variable_ : (OffsetExp.indexVar loop.loopDim).Evaluates round (loop.ending i)
      (loop.start + i) := by
    have evaluates := @OffsetExp.evaluates_indexVar round (loop.ending i) loop.loopDim
    simpa only [ending, iteration, Function.update_self] using evaluates
  rw [loopIndexExpr, loopIndex]
  split
  · refine variable_.add (OffsetExp.evaluates_intVal constant) (safe.tame ?_)
    intro counted value listed
    simp only [List.mem_cons, List.not_mem_nil, or_false] at listed
    rcases listed with rfl | rfl | rfl
    · exact counted.loopVar
    · exact counted.constant
    · exact fits
  · rename_i zero
    rw [not_not.mp zero] at constant
    simpa using variable_.congr (by simpa using constant.add_left (loop.start + i))

/-- The type of the index expression is that of the loop variable. -/
theorem type_loopIndexExpr :
    (loopIndexExpr loop.call loop.loopDim).type (loop.ending i).signs =
      word loop.loopSigned := by
  have int : IntegerType.int = word true := rfl
  rw [loopIndexExpr]
  split <;> simp [OffsetExp.type, ending, int]

include extents below in
/-- A remainder of the increment is a coordinate. -/
theorem remainder_evaluates (tame : Tame round []) {e : OffsetExp} {value : Int}
    (evaluates : e.Evaluates round (loop.ending i) value)
    (isType : e.type (loop.ending i).signs = word loop.loopSigned)
    (argument : FitsSigned 32 value) (sum : FitsSigned 32 (value + loop.dim loop.loopDim))
    (nonneg : loop.loopSigned = false → 0 ≤ value + loop.dim loop.loopDim) :
    (OffsetExp.mod (.add e (.gridDim loop.loopDim)) (.gridDim loop.loopDim)).Evaluates round
      (loop.ending i) ((value + loop.dim loop.loopDim).tmod (loop.dim loop.loopDim)) := by
  have extent := extents loop.loopDim below
  have extentFits : FitsSigned 32 (loop.dim loop.loopDim) := ⟨by omega, extent.2⟩
  have dim : (OffsetExp.gridDim loop.loopDim).Evaluates round (loop.ending i)
      (loop.dim loop.loopDim) := OffsetExp.evaluates_gridDim extentFits
  have dividend : (OffsetExp.add e (.gridDim loop.loopDim)).Evaluates round (loop.ending i)
      (value + loop.dim loop.loopDim) := by
    refine evaluates.add dim (tame.imp_right fun ⟨isChecked, _⟩ =>
      ⟨isChecked, fun value listed => ?_⟩)
    simp only [List.mem_cons, List.not_mem_nil, or_false] at listed
    rcases listed with rfl | rfl | rfl
    · exact argument
    · exact extentFits
    · exact sum
  have typeSum : (OffsetExp.add e (.gridDim loop.loopDim)).type (loop.ending i).signs =
      word loop.loopSigned := by
    have int : IntegerType.int = word true := rfl
    simp [OffsetExp.type, isType, int]
  exact OffsetExp.Evaluates.mod dividend dim typeSum rfl sum nonneg extentFits extent.1

include extents below in
/-- Where no sum is below zero the increment is the difference of two coordinates. -/
theorem periodicIncrement_evaluates (safe : loop.Safe round i)
    (periodic : loop.call.periodic = true) (now : loop.SumFits i)
    (next : loop.SumFits (i + 1)) :
    (periodicIncrement loop.call loop.loopDim).Evaluates round (loop.ending i)
      (loop.cell (i + 1) loop.loopDim - loop.cell i loop.loopDim) := by
  have any : Tame round [] := safe.tame fun _ _ none => absurd none List.not_mem_nil
  have arg := loopIndexExpr_evaluates safe now.argument
  have following : (OffsetExp.add (loopIndexExpr loop.call loop.loopDim) (.intVal 1)).Evaluates
      round (loop.ending i) (loop.loopIndex (i + 1)) := by
    have fits := next.argument
    rw [loopIndex_succ] at fits ⊢
    refine arg.add (OffsetExp.evaluates_intVal rfl) (any.imp_right fun ⟨isChecked, _⟩ =>
      ⟨isChecked, fun value listed => ?_⟩)
    simp only [List.mem_cons, List.not_mem_nil, or_false] at listed
    rcases listed with rfl | rfl | rfl
    · exact now.argument
    · decide
    · exact fits
  have followingType :
      (OffsetExp.add (loopIndexExpr loop.call loop.loopDim) (.intVal 1)).type
        (loop.ending i).signs = word loop.loopSigned := by
    have int : IntegerType.int = word true := rfl
    simp [OffsetExp.type, type_loopIndexExpr, int]
  rw [next.cell_loopDim periodic, now.cell_loopDim periodic, periodicIncrement]
  refine (remainder_evaluates extents below any following followingType next.argument
    next.sum next.nonneg).subtract (remainder_evaluates extents below any arg
      type_loopIndexExpr now.argument now.sum now.nonneg) (safe.tame ?_)
  intro counted value listed
  have here := counted.now loop.loopDim below
  have there := counted.next loop.loopDim below
  have extent := extents loop.loopDim below
  rw [now.cell_loopDim periodic] at here
  rw [next.cell_loopDim periodic] at there
  simp only [List.mem_cons, List.not_mem_nil, or_false] at listed
  rcases listed with rfl | rfl | rfl <;> constructor <;> omega

include extents below in
/-- The increment is the difference of the offsets of two iterations. -/
theorem offsetIncrement_evaluates (safe : loop.Safe round i)
    (sums : loop.call.periodic = true → loop.SumFits i ∧ loop.SumFits (i + 1)) :
    (offsetIncrement loop.call loop.loopDim).Evaluates round (loop.ending i)
      (volume loop.dim loop.loopDim *
        (loop.cell (i + 1) loop.loopDim - loop.cell i loop.loopDim)) := by
  have counts : Tame round [volume loop.dim loop.call.numDims] := by
    refine safe.tame fun counted value listed => ?_
    obtain rfl := List.mem_singleton.mp listed
    have least := linear_nonneg counted.now
    have most := linear_lt_volume counted.now
    exact ⟨by omega, counted.elements⟩
  have product := extentProduct_evaluates extents (loop.ending i) rfl counts below.le
  rw [offsetIncrement]
  by_cases periodic : loop.call.periodic = true
  · obtain ⟨now, next⟩ := sums periodic
    have factor := periodicIncrement_evaluates extents below safe periodic now next
    rw [if_pos periodic]
    cases found : extentProduct loop.loopDim with
    | none =>
        have first : loop.loopDim = 0 := by
          cases dimension : loop.loopDim with
          | zero => rfl
          | succ d =>
              rw [dimension] at found
              cases found
        rw [first] at factor ⊢
        simpa using factor
    | some stride =>
        rw [found, Option.getD_some] at product
        refine product.multiply factor (safe.tame fun counted value listed => ?_)
        have moved := loop.linear_cell_next below i
        have first := linear_nonneg counted.now
        have second := linear_nonneg counted.next
        have firstLess := linear_lt_volume counted.now
        have secondLess := linear_lt_volume counted.next
        have elements := counted.elements
        have positive : ∀ k < loop.call.numDims, 0 < loop.dim k := fun k inside =>
          (extents k inside).1
        have most := volume_le_volume positive below.le
        have least := volume_pos fun k less => positive k (less.trans below)
        have here := counted.now loop.loopDim below
        have there := counted.next loop.loopDim below
        have extent := extents loop.loopDim below
        simp only [List.mem_cons, List.not_mem_nil, or_false] at listed
        rcases listed with rfl | rfl | rfl <;> constructor <;> omega
  · rw [if_neg periodic]
    refine product.congr ?_
    have step : loop.cell (i + 1) loop.loopDim - loop.cell i loop.loopDim ≡
        1 [ZMOD 2 ^ 32] := by
      simp only [cell, OffsetCall.cell, if_neg periodic, argument_loopDim, loopIndex_succ]
      have moved := (toSigned_modEq 32 (loop.loopIndex i + 1)).sub
        (toSigned_modEq 32 (loop.loopIndex i))
      rwa [add_sub_cancel_left] at moved
    simpa using (step.mul_left (volume loop.dim loop.loopDim)).symm

end Increment

/-! ## The offset variable -/

/--
The remainders of the increments are those of the offsets: the variables are
signed, the access is not periodic, or the index argument is a `PSIndex` and by
an extent below zero at most.
-/
def Steady (loop : OffsetLoop) (iterations : Nat) : Prop :=
  (loop.signs loop.loopDim = true ∧ loop.loopSigned = true) ∨
    loop.call.periodic = false ∨
      ∀ i ≤ iterations,
        -loop.dim loop.loopDim ≤ loop.loopIndex i ∧ loop.loopIndex i < 2 ^ 31

section Variable

variable {iterations : Nat} {value : Int}
  (dims : 0 < loop.call.numDims ∧ loop.call.numDims ≤ psMaxDim)
  (below : loop.loopDim < loop.call.numDims) (extents : loop.Extents)

include dims below in
/-- A call that is defined takes the sum of its index argument and the extent. -/
theorem sum_fits_of_eval {env : OffsetEnv} (periodic : loop.call.periodic = true)
    (index : env.index loop.loopDim = loop.start + i) (dim : env.dim = loop.dim)
    (argument : FitsSigned 32 (loop.loopIndex i))
    (defined : loop.call.eval env = some value) :
    FitsSigned 32 (loop.loopIndex i + loop.dim loop.loopDim) := by
  have sum := (OffsetCall.computes_of_eval dims defined).sums periodic loop.loopDim below
  have exactValue : loop.call.argument env loop.loopDim = loop.loopIndex i := by
    rw [OffsetCall.argument, index]
    exact (toSigned_eq_iff (by decide) _).mpr argument
  rwa [exactValue, dim] at sum

include below in
/-- With a signed variable the index argument of a call that is defined is a `PSIndex`. -/
theorem argument_fits_of_eval {env : OffsetEnv}
    (dims : 0 < loop.call.numDims ∧ loop.call.numDims ≤ psMaxDim)
    (isSigned : env.signs loop.loopDim = true)
    (index : env.index loop.loopDim = loop.start + i)
    (loopVar : FitsSigned 32 (loop.start + i))
    (defined : loop.call.eval env = some value) : FitsSigned 32 (loop.loopIndex i) := by
  obtain ⟨argument, evaluates, -⟩ :=
    (OffsetCall.computes_of_eval dims defined).args loop.loopDim below
  have fits := @IndexArg.fits_of_signed (loop.call.args loop.loopDim) loop.loopDim env
    isSigned (by rwa [index]) (by rw [evaluates]; rfl)
  rwa [index] at fits

include dims below extents in
/-- Between two iterations in which the offset is defined all sums are exact. -/
theorem Steady.sumFits (steady : loop.Steady iterations)
    (periodic : loop.call.periodic = true)
    (loopVars : ∀ i ≤ iterations, FitsSigned 32 (loop.start + i)) {first : Int}
    (initial : loop.call.eval loop.initial = some first)
    (defined : loop.call.eval (loop.iteration iterations) = some value) :
    ∀ i ≤ iterations, loop.SumFits i := by
  have startIndex : loop.initial.index loop.loopDim = loop.start + (0 : Nat) :=
    Function.update_self ..
  have lastIndex : (loop.iteration iterations).index loop.loopDim =
      loop.start + iterations := Function.update_self ..
  have moved (i : Nat) : loop.loopIndex i = loop.loopIndex 0 + i := by
    simp only [loopIndex]
    push_cast
    ring
  have extent := extents loop.loopDim below
  -- the arguments of the first and the last iteration bound those between them
  have ends : FitsSigned 32 (loop.loopIndex 0) ∧ FitsSigned 32 (loop.loopIndex iterations) := by
    rcases steady with ⟨argsSigned, -⟩ | plain | near
    · exact ⟨argument_fits_of_eval below dims (Function.update_self ..) startIndex
        (loopVars 0 (Nat.zero_le _)) initial,
        argument_fits_of_eval below dims argsSigned lastIndex (loopVars _ le_rfl) defined⟩
    · rw [plain] at periodic
      cases periodic
    · have first := near 0 (Nat.zero_le _)
      have last := near iterations le_rfl
      exact ⟨⟨by omega, first.2⟩, ⟨by omega, last.2⟩⟩
  have lastSum := sum_fits_of_eval dims below periodic lastIndex rfl ends.2 defined
  intro i within
  have here := moved i
  have last := moved iterations
  obtain ⟨⟨least, -⟩, ⟨-, most⟩⟩ := ends
  obtain ⟨-, sumMost⟩ := lastSum
  refine ⟨⟨by omega, by omega⟩, ⟨by omega, by omega⟩, fun isUnsigned => ?_⟩
  rcases steady with ⟨-, isSigned⟩ | plain | near
  · rw [isSigned] at isUnsigned
    cases isUnsigned
  · rw [plain] at periodic
    cases periodic
  · have reach := (near i within).1
    omega

include dims below extents in
/-- The variable stands for the offset of the cell of its iteration. -/
theorem offsetVariable_represents (safe : ∀ i < iterations, loop.Safe round i)
    (sums : loop.call.periodic = true → ∀ i ≤ iterations, loop.SumFits i)
    {first : Int} (initial : loop.call.eval loop.initial = some first) :
    ∃ offset, loop.offsetVariable round iterations = some offset ∧
      Represents .int offset (linear loop.dim (loop.cell iterations) loop.call.numDims) := by
  induction iterations with
  | zero =>
      have computes := OffsetCall.computes_of_eval dims initial
      refine ⟨first, initial, computes.fits dims extents, ?_⟩
      exact (congrArg (· ≡ _ [ZMOD 2 ^ 32]) computes.position).mp rfl
  | succ iterations induction =>
      obtain ⟨offset, holds, ofOffset⟩ :=
        induction (fun i less => safe i (less.trans (Nat.lt_succ_self _)))
          fun periodic i within => sums periodic i (within.trans (Nat.le_succ _))
      have now := safe iterations (Nat.lt_succ_self _)
      obtain ⟨increment, evaluates, ofIncrement⟩ := offsetIncrement_evaluates extents below
        now fun periodic => ⟨sums periodic iterations (Nat.le_succ _),
          sums periodic (iterations + 1) le_rfl⟩
      obtain ⟨isSigned, isWord⟩ := (offsetIncrement loop.call loop.loopDim).type_eq_word
        (loop.ending iterations).signs
      have moved := loop.linear_cell_next below iterations
      rw [isWord] at ofIncrement
      have ofWord : Represents (word true) offset
          (linear loop.dim (loop.cell iterations) loop.call.numDims) := ofOffset
      obtain ⟨sum, computed, ofSum⟩ := exists_operation
        (fun {_ _ _ _} first second => first.add second) ofWord ofIncrement
        (now.tame fun counted value listed => by
          have first := linear_nonneg counted.now
          have second := linear_nonneg counted.next
          have firstLess := linear_lt_volume counted.now
          have secondLess := linear_lt_volume counted.next
          have elements := counted.elements
          simp only [List.mem_cons, List.not_mem_nil, or_false] at listed
          rcases listed with rfl | rfl | rfl <;> constructor <;> omega)
      refine ⟨IntegerType.int.convert sum, ?_, ?_⟩
      · have int : IntegerType.int = word true := rfl
        simp only [offsetVariable, holds, evaluates, isWord, Option.bind_eq_bind,
          Option.bind_some]
        rw [int, computed]
        rfl
      · have same := ofSum.same
        rw [common_word] at same
        rw [moved]
        exact (represents_convert .int sum).trans same

/--
At the start of an iteration the variable holds the offset, if the offset is
defined there and was in the first one, and the remainders are steady.  No
signed operation overflows on the way where the number of elements is a
`PSIndex` and all accesses are in the grid.
-/
theorem offsetVariable_eq (loop : OffsetLoop)
    (dims : 0 < loop.call.numDims ∧ loop.call.numDims ≤ psMaxDim)
    (below : loop.loopDim < loop.call.numDims) (extents : loop.Extents)
    {iterations : Nat} (loopVars : ∀ i ≤ iterations, FitsSigned 32 (loop.start + i))
    (steady : loop.Steady iterations) {first value : Int}
    (initial : loop.call.eval loop.initial = some first)
    (defined : loop.call.eval (loop.iteration iterations) = some value) :
    loop.offsetVariable wrapping iterations = some value ∧
      (volume loop.dim loop.call.numDims < 2 ^ 31 →
        FitsSigned 32 (loop.call.args loop.loopDim).offset →
          (∀ i ≤ iterations, InBox loop.call.numDims loop.dim (loop.cell i)) →
            loop.offsetVariable checked iterations = some value) := by
  have computes := OffsetCall.computes_of_eval dims defined
  have position : linear loop.dim (loop.cell iterations) loop.call.numDims = value :=
    computes.position
  have fits := computes.fits dims extents
  have holds {round : Rounding} (safe : ∀ i < iterations, loop.Safe round i) :
      loop.offsetVariable round iterations = some value := by
    obtain ⟨offset, computed, represents⟩ := offsetVariable_represents dims below extents safe
      (fun periodic => steady.sumFits dims below extents periodic loopVars initial defined)
      initial
    rw [position] at represents
    rw [computed, represents.eq_of_fits fits]
  constructor
  · exact holds fun _ _ => .inl rfl
  · intro elements constant inside
    exact holds fun i less => .inr ⟨rfl, elements, loopVars i less.le, constant,
      inside i less.le, inside (i + 1) less⟩

/-- A periodic access one cell ahead in a row of four cells. -/
def rowAhead : OffsetLoop where
  call := ⟨1, true, fun _ => .addInt .indexVar 1⟩
  loopDim := 0
  signs := fun _ => false
  loopSigned := false
  index := fun _ => 0
  dim := fun _ => 4
  start := 0

/-- Before its last iteration the access has wrapped around. -/
theorem offsetVariable_row :
    rowAhead.offsetVariable wrapping 3 = some 0 ∧
      (volume rowAhead.dim rowAhead.call.numDims < 2 ^ 31 →
        FitsSigned 32 (rowAhead.call.args rowAhead.loopDim).offset →
          (∀ i ≤ 3, InBox rowAhead.call.numDims rowAhead.dim (rowAhead.cell i)) →
            rowAhead.offsetVariable checked 3 = some 0) := by
  have offset : (rowAhead.call.args rowAhead.loopDim).offset = 1 := by decide
  have extent : rowAhead.dim rowAhead.loopDim = 4 := rfl
  have start : rowAhead.start = 0 := rfl
  have steady : rowAhead.Steady 3 := by
    refine .inr (.inr fun i within => ?_)
    rw [loopIndex, offset, extent, start]
    constructor <;> omega
  have initial : rowAhead.call.eval rowAhead.initial = some 1 := by decide
  exact rowAhead.offsetVariable_eq ⟨by decide, by decide⟩ (by decide)
    (fun d _ => by norm_num [rowAhead]) (fun i within => by rw [start]; constructor <;> omega)
    steady initial (by decide)

/-- A periodic access five cells back in a row of four cells. -/
def rowBack : OffsetLoop :=
  { rowAhead with call := ⟨1, true, fun _ => .subtractInt .indexVar 5⟩ }

/--
The first sum is one below zero.  The offset function takes the remainder -1 of
it, the increment the remainder 3 of an unsigned value.
-/
theorem rowBack_offsetVariable :
    rowBack.offsetVariable checked 1 = some (-4) ∧
      rowBack.call.eval rowBack.initial = some (-1) ∧
      rowBack.call.eval (rowBack.iteration 1) = some 0 := by
  decide

end Variable

end OffsetLoop

end Physis.Translator
