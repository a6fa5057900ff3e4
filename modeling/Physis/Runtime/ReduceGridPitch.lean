import Physis.Runtime.GridMPICUDA
import Physis.Runtime.ReduceGrid

/-!
# Reduction of a padded grid

On the device the rows of a grid are padded to a pitch.  The reduction marks
every element of the memory with whether it is one of its row, and combines the
marked ones beginning with a default value.  For the maximum this value is the
smallest positive number, which is no lower bound of the elements.
-/

namespace Physis.Runtime

open Physis.Library
open Physis.Library.RowMajor
open Physis.Library.Reductions

/-! ## The default values -/

/-- `DBL_MIN`, the smallest positive normal number. -/
def dblMin : ℚ := 1 / 2 ^ 1022

/-- `DBL_MAX`, the largest number. -/
def dblMax : ℚ := (2 ^ 53 - 1) * 2 ^ 971

/-- `GetReductionDefaultValue<double>` -/
def getReductionDefaultValueDouble : PSReduceOp → ℚ
  | .psMax => dblMin
  | .psMin => dblMax
  | .psSum => 0
  | .psProd => 1

/-! ## The functors -/

/-- `thrust::maximum`, `thrust::minimum`, `thrust::plus` and `thrust::multiplies` -/
def thrustOp : PSReduceOp → ℚ → ℚ → ℚ
  | .psMax => fun x y => if x < y then y else x
  | .psMin => fun x y => if x < y then x else y
  | .psSum => fun x y => x + y
  | .psProd => fun x y => x * y

/-- `transform_tuple` -/
def transformTuple {α : Type} (n pitch : Int) (t : Int × α) : Bool × α :=
  let isValid := decide (t.1 % pitch < n)
  (isValid, t.2)

/-- `reduce_tuple` -/
def reduceTuple {α : Type} (op : α → α → α) (t0 t1 : Bool × α) : Bool × α :=
  if t0.1 && t1.1 then (true, op t0.2 t1.2)
  else if t0.1 then t0
  else if t1.1 then t1
  else t1

/-! ## The reductions -/

/--
`ReduceGridCUDA`: the values `thrust` may return, which finds a largest or a
smallest element, or combines the elements with the default in some order.
-/
def ReducesGridCUDA
    (op : PSReduceOp) (default : ℚ) (devGrid : Int → ℚ) (len : Int) (out : ℚ) :
    Prop :=
  match op with
  | .psMax => out ∈ elements devGrid len ∧ ∀ value ∈ elements devGrid len, value ≤ out
  | .psMin => out ∈ elements devGrid len ∧ ∀ value ∈ elements devGrid len, out ≤ value
  | .psSum => Combines (thrustOp .psSum) (default :: elements devGrid len) out
  | .psProd => Combines (thrustOp .psProd) (default :: elements devGrid len) out

/-- The elements and their indices, transformed. -/
def transformedTuples (devGrid : Int → ℚ) (len width pitch : Int) : List (Bool × ℚ) :=
  (List.range len.toNat).map fun (index : Nat) =>
    transformTuple width pitch (index, devGrid index)

/--
`ReduceGridCUDAPitch`: the values `thrust::transform_reduce` may return, which
combines the transformed elements with the default in some order.
-/
def ReducesGridCUDAPitch
    (op : PSReduceOp) (default : ℚ) (devGrid : Int → ℚ) (len width pitch : Int)
    (out : ℚ) : Prop :=
  ∃ result, Combines (reduceTuple (thrustOp op))
      ((true, default) :: transformedTuples devGrid len width pitch) result ∧
    out = result.2

namespace GridMPICUDA3D

variable (grid : GridMPICUDA3D ℚ)

/-- `local_size()` with the pitch for the first extent -/
def paddedSize : IndexArray :=
  Function.update grid.localSize 0 grid.buffer.pitch

/-- `ReduceGridMPICUDA`; `none` stands for the return value zero. -/
def ReducesGridMPICUDA (op : PSReduceOp) (default : ℚ) (out : Option ℚ) : Prop :=
  let nelms := IntegerArray.accumulate grid.localSize grid.numDims
  if nelms = 0 then out = none
  else if grid.buffer.pitch = grid.localSize 0 then
    ∃ value, out = some value ∧
      ReducesGridCUDA op default grid.buffer.memory nelms value
  else
    ∃ value, out = some value ∧
      ReducesGridCUDAPitch op default grid.buffer.memory
        (IntegerArray.accumulate grid.paddedSize grid.numDims)
        (grid.localSize 0) grid.buffer.pitch value

/-- `GridMPICUDA3D::Reduce`; there is no result for the other types. -/
def Reduces (type : PSType) (op : PSReduceOp) (out : Option ℚ) : Prop :=
  match type with
  | .psFloat => grid.ReducesGridMPICUDA op (getReductionDefaultValue op) out
  | .psDouble => grid.ReducesGridMPICUDA op (getReductionDefaultValueDouble op) out
  | _ => False

/-- `GridCalcOffset3D` with a pitch -/
def gridCalcOffset3D (index size : IndexArray) (pitch : Int) : Int :=
  index 0 + index 1 * pitch + index 2 * pitch * size 1

/-- The elements of the grid, without the padding. -/
def validElements : List ℚ :=
  boxList grid.numDims grid.localSize fun index =>
    grid.buffer.memory (gridCalcOffset3D index grid.localSize grid.buffer.pitch)

end GridMPICUDA3D

/-! ## Reductions of marked values -/

section Marked

variable {α : Type} {op : α → α → α} {tuples : List (Bool × α)}

/-- The values that are marked valid. -/
def validPart (tuples : List (Bool × α)) : List α :=
  tuples.filterMap fun t => if t.1 then some t.2 else none

@[simp]
theorem validPart_cons_true (value : α) :
    validPart ((true, value) :: tuples) = value :: validPart tuples := rfl

theorem validPart_append (left right : List (Bool × α)) :
    validPart (left ++ right) = validPart left ++ validPart right :=
  List.filterMap_append

theorem validPart_flatMap {β : Type} (items : List β) (tuplesOf : β → List (Bool × α)) :
    validPart (items.flatMap tuplesOf) =
      items.flatMap fun item => validPart (tuplesOf item) := by
  induction items with
  | nil => rfl
  | cons item items induction =>
      rw [List.flatMap_cons, validPart_append, induction, List.flatMap_cons]

/-- A combination of marked values combines the valid ones, if there are any. -/
theorem combines_validPart {result : Bool × α}
    (combines : Combines (reduceTuple op) tuples result) :
    if validPart tuples = [] then result.1 = false
    else result.1 = true ∧ Combines op (validPart tuples) result.2 := by
  induction combines with
  | value value =>
      rcases value with ⟨valid | valid, value⟩
      · simp [validPart]
      · simpa [validPart] using Combines.value value
  | @join left right leftValue rightValue _ _ ofLeft ofRight =>
      rw [validPart_append]
      rcases leftNil : validPart left with _ | ⟨first, others⟩
      · rw [leftNil, if_pos rfl] at ofLeft
        rw [List.nil_append]
        have same : reduceTuple op leftValue rightValue = rightValue := by
          simp [reduceTuple, ofLeft]
        rw [same]
        exact ofRight
      · rw [leftNil, if_neg (List.cons_ne_nil _ _)] at ofLeft
        rw [List.cons_append, if_neg (List.cons_ne_nil _ _), ← List.cons_append]
        rcases rightNil : validPart right with _ | ⟨second, more⟩
        · rw [rightNil, if_pos rfl] at ofRight
          have same : reduceTuple op leftValue rightValue = leftValue := by
            simp [reduceTuple, ofLeft.1, ofRight]
          rw [same, List.append_nil]
          exact ofLeft
        · rw [rightNil, if_neg (List.cons_ne_nil _ _)] at ofRight
          have same : reduceTuple op leftValue rightValue =
              (true, op leftValue.2 rightValue.2) := by
            simp [reduceTuple, ofLeft.1, ofRight.1]
          rw [same]
          exact ⟨rfl, .join ofLeft.2 ofRight.2⟩
  | @reorder values others result same _ induction =>
      have parts : (validPart values).Perm (validPart others) := same.filterMap _
      by_cases nil : validPart values = []
      · rw [if_pos nil] at induction
        rw [nil] at parts
        rw [if_pos parts.nil_eq.symm]
        exact induction
      · rw [if_neg nil] at induction
        rw [if_neg fun none => nil (by rw [none] at parts; exact parts.eq_nil)]
        exact ⟨induction.1, .reorder parts induction.2⟩

end Marked

/-! ## The rows of the memory -/

section Rows

variable {α : Type} {size : IndexArray} {pitch : Int}

/-- The remainder of a padded position is its place in the row. -/
theorem linear_emod_pitch {index : IndexArray} (count : Nat)
    (inside : 0 ≤ index 0 ∧ index 0 < pitch) :
    linear (Function.update size 0 pitch) index (count + 1) % pitch = index 0 := by
  have rows : ∀ count, pitch ∣ volume (Function.update size 0 pitch) (count + 1) := by
    intro count
    induction count with
    | zero => simp [volume_succ]
    | succ count induction =>
        rw [volume_succ]
        exact induction.mul_right _
  induction count with
  | zero => simpa [linear_succ] using Int.emod_eq_of_lt inside.1 inside.2
  | succ count induction =>
      obtain ⟨times, multiple⟩ := (rows count).mul_left (index (count + 1))
      rw [linear_succ, multiple, Int.add_mul_emod_self_left]
      exact induction

/-- Of the places of a padded row the first ones are valid. -/
theorem validPart_range {width : Int} (padded : width ≤ pitch) (f : Nat → α) :
    validPart ((List.range pitch.toNat).map fun (place : Nat) =>
        (decide ((place : Int) < width), f place)) =
      (List.range width.toNat).map f := by
  obtain ⟨padding, split⟩ : ∃ padding, pitch.toNat = width.toNat + padding :=
    ⟨pitch.toNat - width.toNat, by omega⟩
  have row : validPart ((List.range width.toNat).map fun (place : Nat) =>
      (decide ((place : Int) < width), f place)) = (List.range width.toNat).map f := by
    rw [validPart, List.filterMap_map, ← List.filterMap_eq_map]
    apply List.filterMap_congr
    intro place member
    have inside : (place : Int) < width := by
      have below := List.mem_range.mp member
      omega
    simp [inside]
  have rest : validPart (((List.range padding).map (width.toNat + ·)).map
      fun (place : Nat) => (decide ((place : Int) < width), f place)) = [] := by
    rw [validPart, List.map_map, List.filterMap_map, List.filterMap_eq_nil_iff]
    intro place _
    have outside : ¬((width.toNat + place : Nat) : Int) < width := by omega
    simp only [Function.comp, decide_eq_true_eq, if_neg outside]
  rw [split, List.range_add, List.map_append, validPart_append, row, rest,
    List.append_nil]

/-- The valid points of the padded box are the points of the box. -/
theorem validPart_boxList (count : Nat) (padded : size 0 ≤ pitch)
    (point : IndexArray → α) :
    validPart (boxList (count + 1) (Function.update size 0 pitch) fun index =>
        (decide (index 0 < size 0), point index)) =
      boxList (count + 1) size point := by
  induction count generalizing point with
  | zero =>
      simpa [boxList, ← List.map_eq_flatMap] using
        validPart_range padded fun top => point (Function.update (fun _ => 0) 0 (top : Int))
  | succ count induction =>
      rw [boxList, validPart_flatMap, boxList,
        Function.update_of_ne (Nat.succ_ne_zero count)]
      apply List.flatMap_congr
      intro top _
      rw [← induction fun index => point (Function.update index (count + 1) (top : Int))]
      simp only [Function.update_of_ne (Nat.succ_ne_zero count).symm]

end Rows

/-! ## The result of the reduction -/

theorem thrustOp_eq_getMPIOp (op : PSReduceOp) : thrustOp op = getMPIOp op := by
  cases op with
  | psMax =>
      funext x y
      simp only [thrustOp, getMPIOp, max_def]
      split <;> split <;> linarith
  | psMin =>
      funext x y
      simp only [thrustOp, getMPIOp, min_def]
      split <;> split <;> linarith
  | psSum => rfl
  | psProd => rfl

/-- The padded reduction is that of the default and the valid elements. -/
theorem reducesGridCUDAPitch_iff
    {op : PSReduceOp} {default : ℚ} {devGrid : Int → ℚ} {len width pitch : Int}
    {out : ℚ} :
    ReducesGridCUDAPitch op default devGrid len width pitch out ↔
      Reductions.reduce (getMPIOp op)
        (default :: validPart (transformedTuples devGrid len width pitch)) =
          some out := by
  have valid {result : Bool × ℚ} (combines : Combines (reduceTuple (thrustOp op))
      ((true, default) :: transformedTuples devGrid len width pitch) result) :
      Reductions.reduce (getMPIOp op)
        (default :: validPart (transformedTuples devGrid len width pitch)) =
          some result.2 := by
    have part := combines_validPart combines
    rw [validPart_cons_true, if_neg (List.cons_ne_nil _ _),
      thrustOp_eq_getMPIOp] at part
    exact combines_iff.mp part.2
  constructor
  · rintro ⟨result, combines, rfl⟩
    exact valid combines
  · intro reduced
    have folded := @combines_foldl (Bool × ℚ) (reduceTuple (thrustOp op))
      (true, default) (transformedTuples devGrid len width pitch)
    refine ⟨_, folded, ?_⟩
    rw [valid folded, Option.some_inj] at reduced
    exact reduced.symm

/-- A reduction without padding; sums and products begin with the neutral element. -/
theorem reducesGridCUDA_iff
    {op : PSReduceOp} {default : ℚ} {devGrid : Int → ℚ} {len : Int} {out : ℚ}
    (nonempty : elements devGrid len ≠ [])
    (sum : op = .psSum → default = 0) (prod : op = .psProd → default = 1) :
    ReducesGridCUDA op default devGrid len out ↔
      Reductions.reduce (getMPIOp op) (elements devGrid len) = some out := by
  have combined (neutral : ∀ value, getMPIOp op default value = value) :
      Combines (thrustOp op) (default :: elements devGrid len) out ↔
        Reductions.reduce (getMPIOp op) (elements devGrid len) = some out := by
    obtain ⟨first, rest, listed⟩ := List.exists_cons_of_ne_nil nonempty
    rw [thrustOp_eq_getMPIOp, combines_iff, listed, reduce_cons rfl, neutral]
    rfl
  cases op with
  | psMax => exact reduce_max_eq_some_iff.symm
  | psMin => exact reduce_min_eq_some_iff.symm
  | psSum => exact combined fun value => by rw [sum rfl]; exact zero_add value
  | psProd => exact combined fun value => by rw [prod rfl]; exact one_mul value

namespace GridMPICUDA3D

/-- The default value of an element type. -/
def defaultValue (type : PSType) (op : PSReduceOp) : ℚ :=
  match type with
  | .psDouble => getReductionDefaultValueDouble op
  | _ => getReductionDefaultValue op

/-- The default value is not above the greatest or below the least value. -/
def AbsorbsDefault (type : PSType) (op : PSReduceOp) (values : List ℚ) : Prop :=
  match op with
  | .psMax => ∃ value ∈ values, defaultValue type .psMax ≤ value
  | .psMin => ∃ value ∈ values, value ≤ defaultValue type .psMin
  | .psSum | .psProd => True

variable {grid : GridMPICUDA3D ℚ} {type : PSType} {op : PSReduceOp}

theorem defaultValue_psSum : defaultValue type .psSum = 0 := by
  cases type <;> rfl

theorem defaultValue_psProd : defaultValue type .psProd = 1 := by
  cases type <;> rfl

/-- Beginning with the default value changes the reduction unless it is absorbed. -/
theorem reduce_default_cons_iff {values : List ℚ} (nonempty : values ≠ []) :
    Reductions.reduce (getMPIOp op) (defaultValue type op :: values) =
        Reductions.reduce (getMPIOp op) values ↔
      AbsorbsDefault type op values := by
  obtain ⟨result, is⟩ : ∃ result, Reductions.reduce (getMPIOp op) values = some result := by
    obtain ⟨first, rest, rfl⟩ := List.exists_cons_of_ne_nil nonempty
    exact ⟨_, rfl⟩
  rw [reduce_cons is, is, Option.some_inj]
  cases op with
  | psMax =>
      obtain ⟨member, upper⟩ := reduce_max_eq_some_iff.mp is
      rw [getMPIOp, max_eq_right_iff]
      constructor
      · exact fun below => ⟨result, member, below⟩
      · rintro ⟨value, among, above⟩
        exact above.trans (upper value among)
  | psMin =>
      obtain ⟨member, lower⟩ := reduce_min_eq_some_iff.mp is
      rw [getMPIOp, min_eq_right_iff]
      constructor
      · exact fun above => ⟨result, member, above⟩
      · rintro ⟨value, among, below⟩
        exact (lower value among).trans below
  | psSum =>
      exact iff_of_true (by rw [defaultValue_psSum]; exact zero_add result) trivial
  | psProd =>
      exact iff_of_true (by rw [defaultValue_psProd]; exact one_mul result) trivial

/-- The layout of a grid in device memory. -/
structure Padded (grid : GridMPICUDA3D ℚ) : Prop where
  dims : 0 < grid.numDims ∧ grid.numDims ≤ psMaxDim
  nonneg : ∀ i < grid.numDims, 0 ≤ grid.localSize i
  pitch : grid.localSize 0 ≤ grid.buffer.pitch

theorem Padded.paddedSize_nonneg (padded : grid.Padded) :
    ∀ i < grid.numDims, 0 ≤ grid.paddedSize i := by
  intro i below
  rcases eq_or_ne i 0 with rfl | later
  · rw [paddedSize, Function.update_self]
    exact (padded.nonneg 0 below).trans padded.pitch
  · rw [paddedSize, Function.update_of_ne later]
    exact padded.nonneg i below

/-- The layout places an element at its position in the padded box. -/
theorem gridCalcOffset3D_eq_linear (padded : grid.Padded) {index : IndexArray}
    (unused : ∀ i, grid.numDims ≤ i → index i = 0) :
    gridCalcOffset3D index grid.localSize grid.buffer.pitch =
      linear grid.paddedSize index grid.numDims := by
  obtain ⟨some, most⟩ := padded.dims
  rw [psMaxDim] at most
  have first : grid.paddedSize 0 = grid.buffer.pitch := Function.update_self _ _ _
  have second : grid.paddedSize 1 = grid.localSize 1 :=
    Function.update_of_ne (by decide) _ _
  rcases (by omega : grid.numDims = 1 ∨ grid.numDims = 2 ∨ grid.numDims = 3) with
    dims | dims | dims <;> rw [dims] at unused ⊢
  · simp [gridCalcOffset3D, linear_succ, unused 1, unused 2]
  · simp [gridCalcOffset3D, linear_succ, volume_succ, first, unused 2]
  · simp [gridCalcOffset3D, linear_succ, volume_succ, first, second, mul_assoc]

theorem validElements_eq (padded : grid.Padded) :
    grid.validElements = boxList grid.numDims grid.localSize fun index =>
      grid.buffer.memory (linear grid.paddedSize index grid.numDims) := by
  apply boxList_congr fun _ _ => rfl
  intro index enumerated
  rw [gridCalcOffset3D_eq_linear padded enumerated.2]

/-- The elements that are marked valid are those of the grid. -/
theorem validPart_transformedTuples (padded : grid.Padded) :
    validPart (transformedTuples grid.buffer.memory
        (IntegerArray.accumulate grid.paddedSize grid.numDims)
        (grid.localSize 0) grid.buffer.pitch) = grid.validElements := by
  obtain ⟨count, dims⟩ : ∃ count, grid.numDims = count + 1 :=
    ⟨grid.numDims - 1, by have := padded.dims; omega⟩
  have marked : transformedTuples grid.buffer.memory
        (IntegerArray.accumulate grid.paddedSize grid.numDims)
        (grid.localSize 0) grid.buffer.pitch =
      boxList (count + 1) grid.paddedSize fun index =>
        (decide (index 0 < grid.localSize 0),
          grid.buffer.memory (linear grid.paddedSize index grid.numDims)) := by
    rw [transformedTuples, IntegerArray.accumulate_eq_volume,
      ← boxList_linear padded.paddedSize_nonneg fun position =>
        transformTuple (grid.localSize 0) grid.buffer.pitch
          (position, grid.buffer.memory position), dims]
    apply boxList_congr fun _ _ => rfl
    intro index enumerated
    have first := enumerated.1 0 (Nat.succ_pos count)
    simp only [paddedSize, Function.update_self] at first
    simp only [transformTuple, paddedSize, linear_emod_pitch count first]
  rw [marked, validElements_eq padded, dims]
  exact validPart_boxList count padded.pitch _

theorem length_validElements (padded : grid.Padded) :
    grid.validElements.length =
      (IntegerArray.accumulate grid.localSize grid.numDims).toNat := by
  rw [validElements, length_boxList, IntegerArray.accumulate_eq_volume,
    volume_eq_weight padded.nonneg, Int.toNat_natCast]

/-- Without padding the elements of the grid are those of the memory. -/
theorem validElements_eq_elements
    (padded : grid.Padded) (dense : grid.buffer.pitch = grid.localSize 0) :
    grid.validElements = elements grid.buffer.memory
      (IntegerArray.accumulate grid.localSize grid.numDims) := by
  have same : grid.paddedSize = grid.localSize := by
    rw [paddedSize, dense, Function.update_eq_self]
  rw [validElements_eq padded, elements_eq_boxList padded.nonneg, same]

/-- Every value returned is an expected one if the reduction is. -/
theorem returns_iff
    {returned : ℚ → Prop} {values : List ℚ} {expected : Option ℚ}
    (nonempty : values ≠ [])
    (reduces : ∀ value, returned value ↔
      Reductions.reduce (getMPIOp op) values = some value) :
    ((∃ out, ∃ value, out = some value ∧ returned value) ∧
        ∀ out, (∃ value, out = some value ∧ returned value) → out = expected) ↔
      Reductions.reduce (getMPIOp op) values = expected := by
  obtain ⟨first, rest, rfl⟩ := List.exists_cons_of_ne_nil nonempty
  simp [reduces, Reductions.reduce]

/--
The reduction returns the fold over the valid elements exactly if the rows are not
padded, the grid is empty, or the default value is absorbed by a valid element.
-/
theorem reduces_eq_fold_iff
    (floating : type = .psFloat ∨ type = .psDouble) (padded : grid.Padded) :
    ((∃ out, grid.Reduces type op out) ∧ ∀ out, grid.Reduces type op out →
        out = Reductions.reduce (getReducer op) grid.validElements) ↔
      grid.buffer.pitch = grid.localSize 0 ∨ grid.validElements = [] ∨
        AbsorbsDefault type op grid.validElements := by
  have default (out : Option ℚ) : grid.Reduces type op out ↔
      grid.ReducesGridMPICUDA op (defaultValue type op) out := by
    rcases floating with rfl | rfl <;> rfl
  have nonneg := volume_nonneg padded.nonneg
  rw [← IntegerArray.accumulate_eq_volume] at nonneg
  have empty : grid.validElements = [] ↔
      IntegerArray.accumulate grid.localSize grid.numDims = 0 := by
    rw [← List.length_eq_zero_iff, length_validElements padded]
    omega
  simp only [default, ReducesGridMPICUDA, getReducer_eq_getMPIOp]
  by_cases none : IntegerArray.accumulate grid.localSize grid.numDims = 0
  · simp [none, empty.mpr none]
  · simp only [if_neg none]
    have occupied : grid.validElements ≠ [] := fun nil => none (empty.mp nil)
    split
    · rename_i dense
      refine iff_of_true ((returns_iff occupied fun value => ?_).mpr rfl) (Or.inl dense)
      rw [validElements_eq_elements padded dense] at occupied ⊢
      apply reducesGridCUDA_iff occupied
      · rintro rfl
        exact defaultValue_psSum
      · rintro rfl
        exact defaultValue_psProd
    · rename_i sparse
      have marked (value : ℚ) := @reducesGridCUDAPitch_iff op (defaultValue type op)
        grid.buffer.memory (IntegerArray.accumulate grid.paddedSize grid.numDims)
        (grid.localSize 0) grid.buffer.pitch value
      rw [returns_iff (List.cons_ne_nil _ _) marked,
        validPart_transformedTuples padded, reduce_default_cons_iff occupied]
      tauto

/-- Two rows of three elements below zero, with a pitch of four elements. -/
def negativeRows : GridMPICUDA3D ℚ :=
  { GridMPI.create 4 2 (IntegerArray.mk3 3 2 0) false (fun _ => 0) (fun _ => 0)
      (IntegerArray.mk3 3 2 0) (fun _ _ => 0) with
    buffer :=
      { elmSize := 4
        size := IntegerArray.mk3 3 2 0
        memory := fun position => -1 - position
        pitch := 4
        ysize := 2 }
    haloSelfCuda := fun _ _ _ => 0
    haloPeerCuda := fun _ _ _ => 0 }

theorem negativeRows_padded : negativeRows.Padded where
  dims := by decide
  nonneg := by decide
  pitch := by decide

theorem negativeRows_validElements :
    negativeRows.validElements = [-1, -2, -3, -5, -6, -7] := by
  simp [validElements, negativeRows, GridMPI.create, boxList, gridCalcOffset3D,
    IntegerArray.mk3, List.range_succ]
  norm_num

/-- The minimum leaves out the padding, which holds smaller elements. -/
theorem negativeRows_min_eq_fold :
    (∃ out, negativeRows.Reduces .psDouble .psMin out) ∧
      ∀ out, negativeRows.Reduces .psDouble .psMin out →
        out = Reductions.reduce (getReducer .psMin) negativeRows.validElements :=
  (reduces_eq_fold_iff (Or.inr rfl) negativeRows_padded).mpr
    (Or.inr (Or.inr ⟨-1, by rw [negativeRows_validElements]; simp, by
      have positive : (0 : ℚ) < dblMax := mul_pos (by norm_num) (by positivity)
      exact (by norm_num : (-1 : ℚ) ≤ 0).trans positive.le⟩))

/-- The maximum of the elements below zero is the smallest positive number. -/
theorem negativeRows_max_ne_fold :
    negativeRows.Reduces .psFloat .psMax (some fltMin) ∧
      some fltMin ≠
        Reductions.reduce (getReducer .psMax) negativeRows.validElements := by
  have above : (-1 : ℚ) < fltMin := by norm_num [fltMin]
  constructor
  · refine ⟨fltMin, rfl, reducesGridCUDAPitch_iff.mpr ?_⟩
    rw [validPart_transformedTuples negativeRows_padded, negativeRows_validElements]
    refine reduce_max_eq_some_iff.mpr ⟨List.mem_cons_self, ?_⟩
    intro value member
    simp only [List.mem_cons, List.not_mem_nil, or_false] at member
    rcases member with rfl | rfl | rfl | rfl | rfl | rfl | rfl
    · exact le_rfl
    all_goals linarith
  · rw [getReducer_eq_getMPIOp, negativeRows_validElements]
    intro equal
    have member := (reduce_max_eq_some_iff.mp equal.symm).1
    simp only [List.mem_cons, List.not_mem_nil, or_false] at member
    rcases member with is | is | is | is | is | is <;> linarith

end GridMPICUDA3D

end Physis.Runtime
