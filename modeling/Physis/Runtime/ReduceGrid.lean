import Mathlib.Algebra.Order.Field.Rat
import Mathlib.Data.Rat.Cast.Order
import Physis.Library.Reductions
import Physis.Runtime.ExchangeOccupancy
import Physis.Runtime.GridRegistry

/-!
# Reduction of a grid

Every process folds its own subgrid, and `MPI_Reduce` combines one value per
process.  A process without elements takes part with a default value, which for
the maximum is the smallest positive number and for the minimum the largest
single-precision number.

Elements are exact numbers here: the runtime's rounding is not translated.
-/

namespace Physis.Runtime

open Physis.Library
open Physis.Library.RowMajor
open Physis.Library.Reductions

/-! ## The operators -/

/-- `PSReduceOp` -/
inductive PSReduceOp where
  | psMax
  | psMin
  | psSum
  | psProd
deriving DecidableEq, Repr

/-- `GetReducer`: the functions with which a process folds its elements. -/
def getReducer : PSReduceOp → ℚ → ℚ → ℚ
  | .psMax => fun x y => if x > y then x else y
  | .psMin => fun x y => if x < y then x else y
  | .psSum => fun x y => x + y
  | .psProd => fun x y => x * y

/-- `GetMPIOp`: the operators with which MPI combines the processes' values. -/
def getMPIOp : PSReduceOp → ℚ → ℚ → ℚ
  | .psMax => max
  | .psMin => min
  | .psSum => fun x y => x + y
  | .psProd => fun x y => x * y

/-- `FLT_MIN`, the smallest positive normal number. -/
def fltMin : ℚ := 1 / 2 ^ 126

/-- `FLT_MAX`, the largest number. -/
def fltMax : ℚ := (2 ^ 24 - 1) * 2 ^ 104

/-- `GetReductionDefaultValue<float>` -/
def getReductionDefaultValue : PSReduceOp → ℚ
  | .psMax => fltMin
  | .psMin => fltMax
  | .psSum => 0
  | .psProd => 1

/-! ## The two runtimes -/

/-- The loop over the elements, from the first one on. -/
def reduceElements (func : ℚ → ℚ → ℚ) (d : Int → ℚ) (nelms : Int) : ℚ :=
  (List.range (nelms.toNat - 1)).foldl
    (fun v (i : Nat) => func v (d ((i : Int) + 1))) (d 0)

/-- `PSReduceGridTemplate` of the reference runtime -/
def psReduceGrid (op : PSReduceOp) (p0 : Int → ℚ) (numElms : Int) : ℚ :=
  reduceElements (getReducer op) p0 numElms

namespace GridMPI

/-- `ReduceGridMPI`; `none` stands for the return value zero. -/
def reduceGridMPI (grid : GridMPI ℚ) (op : PSReduceOp) : Option ℚ :=
  let nelms := IntegerArray.accumulate grid.localSize grid.numDims
  if nelms = 0 then none
  else some (reduceElements (getReducer op) grid.data nelms)

/-- `GridMPI::Reduce`; the outer `none` is an abort. -/
def reduce
    (grid : GridMPI ℚ) (type : PSType) (op : PSReduceOp) : Option (Option ℚ) :=
  match type with
  | .psFloat | .psDouble => some (grid.reduceGridMPI op)
  | _ => none

/-- What a process passes to `MPI_Reduce` in `GridSpaceMPI::ReduceGrid`. -/
def reductionValue
    (grid : GridMPI ℚ) (type : PSType) (op : PSReduceOp) : Option ℚ := do
  match ← grid.reduce type op with
  | some value => some value
  | none =>
      match type with
      | .psFloat => some (getReductionDefaultValue op)
      | .psDouble => some (getReductionDefaultValue op)
      | _ => none

end GridMPI

/--
`GridSpaceMPI::ReduceGrid` on all processes: the value left on the root when
MPI has combined the processes' values in some order.
-/
def GridSpaceMPI.ReducesGrid
    (space : GridSpaceMPI) (type : PSType) (op : PSReduceOp)
    (grids : Nat → GridMPI ℚ) (out : ℚ) : Prop :=
  ∃ values,
    (List.range space.numProcs).mapM
        (fun rank => (grids rank).reductionValue type op) = some values ∧
      Combines (getMPIOp op) values out

/-! ## Folds as reductions of lists -/

instance (op : PSReduceOp) : Std.Associative (getMPIOp op) where
  assoc := by
    cases op
    · exact max_assoc
    · exact min_assoc
    · exact add_assoc
    · exact mul_assoc

instance (op : PSReduceOp) : Std.Commutative (getMPIOp op) where
  comm := by
    cases op
    · exact max_comm
    · exact min_comm
    · exact add_comm
    · exact mul_comm

theorem getReducer_eq_getMPIOp (op : PSReduceOp) : getReducer op = getMPIOp op := by
  cases op with
  | psMax =>
      funext x y
      simp only [getReducer, getMPIOp, max_def]
      split <;> split <;> linarith
  | psMin =>
      funext x y
      simp only [getReducer, getMPIOp, min_def]
      split <;> split <;> linarith
  | psSum => rfl
  | psProd => rfl

/-- The elements at the first positions of a memory. -/
def elements (d : Int → ℚ) (nelms : Int) : List ℚ :=
  (List.range nelms.toNat).map fun (position : Nat) => d position

theorem elements_eq_nil_iff {d : Int → ℚ} {nelms : Int} :
    elements d nelms = [] ↔ nelms ≤ 0 := by
  simp [elements]

theorem reduce_elements (op : PSReduceOp) (d : Int → ℚ) {nelms : Int}
    (positive : 0 < nelms) :
    Reductions.reduce (getMPIOp op) (elements d nelms) =
      some (reduceElements (getReducer op) d nelms) := by
  obtain ⟨count, rfl⟩ : ∃ count : Nat, nelms = (count : Int) + 1 :=
    ⟨(nelms - 1).toNat, by omega⟩
  have toNat : ((count : Int) + 1).toNat = count + 1 := by omega
  simp only [elements, reduceElements, toNat, List.range_succ_eq_map,
    List.map_cons, Reductions.reduce, List.map_map, List.foldl_map,
    getReducer_eq_getMPIOp]
  simp

/-! ## The elements of all processes -/

section Cells

variable
    {α : Type} {space : GridSpaceMPI} {elmSize : Nat}
    {size globalOffset : IndexArray} {grids : Nat → GridMPI α}

/--
The cells of the processes' subgrids are the cells of the grid, each listed
once.
-/
theorem Distributed.cells_perm
    (distributed : Distributed space elmSize size globalOffset grids) :
    List.Perm
      ((List.range space.numProcs).flatMap fun rank =>
        boxList space.numDims (grids rank).localSize fun index =>
          restrict space.numDims fun i => (grids rank).localOffset i + index i)
      (boxList space.numDims size fun index => index) := by
  -- a listed cell determines its coordinates in the subgrid
  have coordinate : ∀ {rank : Nat} {index cell : IndexArray},
      restrict space.numDims
          (fun i => (grids rank).localOffset i + index i) = cell →
        ∀ i < space.numDims, (grids rank).localOffset i + index i = cell i := by
    intro rank index cell same i below
    rw [← same, restrict, if_pos below]
  apply (List.perm_ext_iff_of_nodup ?_ ?_).mpr
  · intro cell
    rw [List.mem_flatMap, mem_boxList]
    constructor
    · rintro ⟨rank, listed, member⟩
      rw [List.mem_range] at listed
      obtain ⟨index, ⟨boxed, _⟩, same⟩ := mem_boxList.mp member
      have owns := distributed.owns_local listed boxed
      refine ⟨cell, ⟨?_, ?_⟩, rfl⟩
      · intro i below
        rw [← coordinate same i below]
        exact space.local_bounds below (owns i below).1 (owns i below).2
      · intro i above
        rw [← same, restrict, if_neg (by omega)]
    · rintro ⟨cell, ⟨boxed, outside⟩, rfl⟩
      obtain ⟨rank, bounded, owns⟩ := space.exists_owner distributed.fits boxed
      have own := distributed.decomposed rank bounded
      refine ⟨rank, List.mem_range.mpr bounded, mem_boxList.mpr ⟨restrict
        space.numDims fun i => cell i - (grids rank).localOffset i, ⟨?_, ?_⟩, ?_⟩⟩
      · intro i below
        have bounds := owns i below
        rw [← own.localSize, ← own.localOffset] at bounds
        rw [restrict, if_pos below]
        omega
      · intro i above
        rw [restrict, if_neg (by omega)]
      · funext i
        by_cases below : i < space.numDims
        · simp only [restrict, if_pos below]
          omega
        · simp only [restrict, if_neg below]
          exact (outside i (by omega)).symm
  · rw [List.nodup_flatMap]
    constructor
    · intro rank _
      apply nodup_boxList
      intro left right leftListed rightListed same
      funext i
      by_cases below : i < space.numDims
      · have coordinates := coordinate same i below
        rw [restrict, if_pos below] at coordinates
        omega
      · rw [leftListed.2 i (by omega), rightListed.2 i (by omega)]
    · apply (List.nodup_range).pairwise_of_forall_ne
      intro left leftListed right rightListed different cell leftMember rightMember
      obtain ⟨leftIndex, ⟨leftBoxed, _⟩, leftSame⟩ := mem_boxList.mp leftMember
      obtain ⟨rightIndex, ⟨rightBoxed, _⟩, rightSame⟩ := mem_boxList.mp rightMember
      rw [List.mem_range] at leftListed rightListed
      apply different
      apply space.owner_unique leftListed rightListed
        (distributed.owns_local leftListed leftBoxed)
      intro i below
      have owns := distributed.owns_local rightListed rightBoxed i below
      beta_reduce at owns ⊢
      rw [coordinate leftSame i below, ← coordinate rightSame i below]
      exact owns
  · apply nodup_boxList
    intro left right _ _ same
    exact same

end Cells

theorem elements_eq_boxList
    {count : Nat} {size : IndexArray} (nonneg : ∀ i < count, 0 ≤ size i)
    (d : Int → ℚ) :
    elements d (IntegerArray.accumulate size count) =
      boxList count size fun index => d (linear size index count) := by
  rw [boxList_linear nonneg, elements, IntegerArray.accumulate_eq_volume]

section Reduction

variable
    {space : GridSpaceMPI} {elmSize : Nat} {size globalOffset : IndexArray}
    {grids : Nat → GridMPI ℚ} {whole : Int → ℚ}

/-- The elements of the processes are the elements of the grid. -/
theorem elements_perm
    (distributed : Distributed space elmSize size globalOffset grids)
    (nonneg : ∀ i < space.numDims, 0 ≤ size i)
    (holds : HoldsGrid space size grids whole) :
    List.Perm
      ((List.range space.numProcs).flatMap fun rank =>
        elements (grids rank).data
          (IntegerArray.accumulate (grids rank).localSize space.numDims))
      (elements whole (IntegerArray.accumulate size space.numDims)) := by
  have cells := (distributed.cells_perm).map fun cell =>
    whole (linear size cell space.numDims)
  rw [List.map_flatMap, map_boxList] at cells
  rw [elements_eq_boxList nonneg]
  refine List.Perm.trans (List.Perm.of_eq ?_) cells
  apply List.flatMap_congr
  intro rank listed
  rw [List.mem_range] at listed
  have own := distributed.decomposed rank listed
  rw [elements_eq_boxList fun i below => own.localSize_nonneg below, map_boxList]
  apply boxList_congr (fun _ _ => rfl)
  intro index enumerated
  rw [holds rank listed index enumerated.1]
  congr 1
  apply linear_congr (fun _ _ => rfl)
  intro i below
  rw [restrict, if_pos below]

end Reduction

/-! ## What the default values change -/

section Defaults

variable
    {space : GridSpaceMPI} {elmSize : Nat} {size globalOffset : IndexArray}
    {grids : Nat → GridMPI ℚ} {whole : Int → ℚ}
    {type : PSType} {op : PSReduceOp}

/-- A process contributes the reduction of its elements, or the default. -/
theorem reductionValue_eq
    {grid : GridMPI ℚ} (floating : type = .psFloat ∨ type = .psDouble)
    (nonneg : ∀ i < grid.numDims, 0 ≤ grid.localSize i) :
    grid.reductionValue type op =
      some ((Reductions.reduce (getMPIOp op) (elements grid.data
        (IntegerArray.accumulate grid.localSize grid.numDims))).getD
          (getReductionDefaultValue op)) := by
  have volume : 0 ≤ IntegerArray.accumulate grid.localSize grid.numDims := by
    rw [IntegerArray.accumulate_eq_volume]
    exact volume_nonneg nonneg
  have value : grid.reduceGridMPI op = Reductions.reduce (getMPIOp op)
      (elements grid.data
        (IntegerArray.accumulate grid.localSize grid.numDims)) := by
    simp only [GridMPI.reduceGridMPI]
    split
    · rename_i zero
      rw [zero]
      rfl
    · rw [reduce_elements op _ (by omega)]
  rcases floating with rfl | rfl <;>
    simp only [GridMPI.reductionValue, GridMPI.reduce, value, Option.bind_eq_bind,
      Option.bind_some] <;>
    cases Reductions.reduce (getMPIOp op) (elements grid.data
        (IntegerArray.accumulate grid.localSize grid.numDims)) <;>
    rfl

/-- All elements, with the default in the place of every empty subgrid. -/
def paddedElements
    (space : GridSpaceMPI) (grids : Nat → GridMPI ℚ) (op : PSReduceOp) : List ℚ :=
  (List.range space.numProcs).flatMap fun rank =>
    if (grids rank).empty then [getReductionDefaultValue op]
    else elements (grids rank).data
      (IntegerArray.accumulate (grids rank).localSize space.numDims)

/-- A process's part of the padded list, by its elements. -/
theorem paddedElements_eq
    (distributed : Distributed space elmSize size globalOffset grids) :
    paddedElements space grids op =
      ((List.range space.numProcs).map fun rank => elements (grids rank).data
          (IntegerArray.accumulate (grids rank).localSize space.numDims)).flatMap
        fun part => if part = [] then [getReductionDefaultValue op] else part := by
  rw [List.flatMap_map]
  apply List.flatMap_congr
  intro rank listed
  have own := distributed.decomposed rank (List.mem_range.mp listed)
  have nonneg : 0 ≤ IntegerArray.accumulate (grids rank).localSize
      space.numDims := by
    rw [IntegerArray.accumulate_eq_volume]
    exact volume_nonneg fun i below => own.localSize_nonneg below
  rw [own.empty, own.numDims]
  apply if_congr _ rfl rfl
  rw [elements_eq_nil_iff, decide_eq_true_eq]
  omega

/-- The reduction of a grid is the reduction of the padded list. -/
theorem reducesGrid_iff
    (floating : type = .psFloat ∨ type = .psDouble)
    (distributed : Distributed space elmSize size globalOffset grids) {out : ℚ} :
    space.ReducesGrid type op grids out ↔
      Reductions.reduce (getMPIOp op) (paddedElements space grids op) =
        some out := by
  have values : (List.range space.numProcs).mapM
        (fun rank => (grids rank).reductionValue type op) =
      some ((List.range space.numProcs).map fun rank =>
        (Reductions.reduce (getMPIOp op) (elements (grids rank).data
          (IntegerArray.accumulate (grids rank).localSize space.numDims))).getD
            (getReductionDefaultValue op)) := by
    apply FallibleMaps.mapM_eq_some_map
    intro rank listed
    have own := distributed.decomposed rank (List.mem_range.mp listed)
    rw [reductionValue_eq floating fun i below => by
      rw [own.numDims] at below
      exact own.localSize_nonneg below, own.numDims]
  have padded : Reductions.reduce (getMPIOp op) ((List.range space.numProcs).map
        fun rank => (Reductions.reduce (getMPIOp op) (elements (grids rank).data
          (IntegerArray.accumulate (grids rank).localSize space.numDims))).getD
            (getReductionDefaultValue op)) =
      Reductions.reduce (getMPIOp op) (paddedElements space grids op) := by
    have parts := @reduce_map_getD ℚ (getMPIOp op) _ _ (getReductionDefaultValue op)
      ((List.range space.numProcs).map fun rank => elements (grids rank).data
        (IntegerArray.accumulate (grids rank).localSize space.numDims))
    rw [List.map_map] at parts
    rw [paddedElements_eq distributed]
    exact parts
  constructor
  · rintro ⟨found, is, combines⟩
    rw [values, Option.some.injEq] at is
    rw [← padded, is]
    exact combines_iff.mp combines
  · intro reduced
    rw [← padded] at reduced
    exact ⟨_, values, combines_iff.mpr reduced⟩

end Defaults

/-! ## When the reduction is the fold -/

section Exact

variable
    {space : GridSpaceMPI} {elmSize : Nat} {size globalOffset : IndexArray}
    {grids : Nat → GridMPI ℚ} {whole : Int → ℚ}
    {type : PSType} {op : PSReduceOp}

theorem mem_elements_iff {d : Int → ℚ} {nelms : Int} {value : ℚ} :
    value ∈ elements d nelms ↔
      ∃ position, 0 ≤ position ∧ position < nelms ∧ d position = value := by
  simp only [elements, List.mem_map, List.mem_range]
  constructor
  · rintro ⟨position, below, rfl⟩
    exact ⟨position, by omega, by omega, rfl⟩
  · rintro ⟨position, lower, upper, rfl⟩
    exact ⟨position.toNat, by omega, by rw [Int.toNat_of_nonneg lower]⟩

/-- The padded list has the elements of the grid and the defaults. -/
theorem mem_paddedElements_iff
    (distributed : Distributed space elmSize size globalOffset grids)
    (nonneg : ∀ i < space.numDims, 0 ≤ size i)
    (holds : HoldsGrid space size grids whole) {value : ℚ} :
    value ∈ paddedElements space grids op ↔
      value ∈ elements whole (IntegerArray.accumulate size space.numDims) ∨
        value = getReductionDefaultValue op ∧
          ∃ rank < space.numProcs, (grids rank).empty = true := by
  have none : ∀ rank < space.numProcs, (grids rank).empty = true →
      elements (grids rank).data
        (IntegerArray.accumulate (grids rank).localSize space.numDims) = [] := by
    intro rank bounded empty
    have own := distributed.decomposed rank bounded
    rw [own.empty, own.numDims, decide_eq_true_eq] at empty
    rw [empty]
    rfl
  rw [← (elements_perm distributed nonneg holds).mem_iff]
  simp only [paddedElements, List.mem_flatMap, List.mem_range]
  constructor
  · rintro ⟨rank, bounded, member⟩
    by_cases empty : (grids rank).empty = true
    · rw [if_pos empty, List.mem_singleton] at member
      exact Or.inr ⟨member, rank, bounded, empty⟩
    · rw [if_neg empty] at member
      exact Or.inl ⟨rank, bounded, member⟩
  · rintro (⟨rank, bounded, member⟩ | ⟨rfl, rank, bounded, empty⟩)
    · refine ⟨rank, bounded, ?_⟩
      rw [if_neg]
      · exact member
      · intro empty
        rw [none rank bounded empty] at member
        cases member
    · exact ⟨rank, bounded, by rw [if_pos empty]; exact List.mem_singleton_self _⟩

/-- The default of the operator cannot be told from the elements' own result. -/
def DefaultAbsorbed (op : PSReduceOp) (whole : Int → ℚ) (numElms : Int) : Prop :=
  match op with
  | .psMax => ∃ position, 0 ≤ position ∧ position < numElms ∧ fltMin ≤ whole position
  | .psMin => ∃ position, 0 ≤ position ∧ position < numElms ∧ whole position ≤ fltMax
  | .psSum | .psProd => True

/-- For sums and products the defaults are neutral. -/
theorem reduce_paddedElements_of_neutral
    (distributed : Distributed space elmSize size globalOffset grids)
    (nonneg : ∀ i < space.numDims, 0 ≤ size i)
    (positive : 0 < IntegerArray.accumulate size space.numDims)
    (holds : HoldsGrid space size grids whole)
    (neutral : ∀ value, getMPIOp op (getReductionDefaultValue op) value = value) :
    Reductions.reduce (getMPIOp op) (paddedElements space grids op) =
      Reductions.reduce (getMPIOp op)
        (elements whole (IntegerArray.accumulate size space.numDims)) := by
  have same := elements_perm distributed nonneg holds
  have parts : ((List.range space.numProcs).map fun rank =>
      elements (grids rank).data (IntegerArray.accumulate (grids rank).localSize
        space.numDims)).flatten =
      (List.range space.numProcs).flatMap fun rank => elements (grids rank).data
        (IntegerArray.accumulate (grids rank).localSize space.numDims) := rfl
  have occupied : elements whole
      (IntegerArray.accumulate size space.numDims) ≠ [] := by
    rw [Ne, elements_eq_nil_iff]
    omega
  rw [paddedElements_eq distributed, reduce_padded neutral, parts]
  · exact reduce_perm same
  · rw [parts]
    intro nil
    rw [nil] at same
    exact occupied same.nil_eq.symm

/--
Where the result is the greatest element of some order, the default of an empty
process takes part as one more element, and does no harm below another one.
-/
theorem reduce_paddedElements_greatest_iff
    (distributed : Distributed space elmSize size globalOffset grids)
    (nonneg : ∀ i < space.numDims, 0 ≤ size i)
    (holds : HoldsGrid space size grids whole)
    (le : ℚ → ℚ → Prop) (trans : ∀ {a b c}, le a b → le b c → le a c)
    (greatest : ∀ {values : List ℚ} {result : ℚ},
      Reductions.reduce (getMPIOp op) values = some result ↔
        result ∈ values ∧ ∀ value ∈ values, le value result)
    {fold : ℚ}
    (is : Reductions.reduce (getMPIOp op) (elements whole
      (IntegerArray.accumulate size space.numDims)) = some fold) :
    Reductions.reduce (getMPIOp op) (paddedElements space grids op) = some fold ↔
      (∀ rank < space.numProcs, (grids rank).empty = false) ∨
        ∃ position, 0 ≤ position ∧
          position < IntegerArray.accumulate size space.numDims ∧
            le (getReductionDefaultValue op) (whole position) := by
  obtain ⟨member, bounds⟩ := greatest.mp is
  have listed := fun value : ℚ => @mem_paddedElements_iff space elmSize size
    globalOffset grids whole op distributed nonneg holds value
  rw [greatest]
  constructor
  · rintro ⟨_, upper⟩
    by_contra neither
    push Not at neither
    obtain ⟨⟨rank, bounded, empty⟩, small⟩ := neither
    have default := upper _ ((listed _).mpr
      (Or.inr ⟨rfl, rank, bounded, by simpa using empty⟩))
    obtain ⟨position, lower, below, rfl⟩ := mem_elements_iff.mp member
    exact small position lower below default
  · intro either
    refine ⟨(listed fold).mpr (Or.inl member), ?_⟩
    intro value among
    rcases (listed value).mp among with element | ⟨rfl, rank, bounded, empty⟩
    · exact bounds value element
    · rcases either with occupied | ⟨position, lower, below, large⟩
      · rw [occupied rank bounded] at empty
        cases empty
      · exact trans large (bounds _
          (mem_elements_iff.mpr ⟨position, lower, below, rfl⟩))

/--
The reduction returns the fold over the whole grid exactly if no subgrid is
empty or the default of the operator is absorbed by an element.
-/
theorem reduction_eq_fold_iff
    (floating : type = .psFloat ∨ type = .psDouble)
    (distributed : Distributed space elmSize size globalOffset grids)
    (nonempty : ∀ i < space.numDims, 0 < size i)
    (holds : HoldsGrid space size grids whole) :
    ((∃ out, space.ReducesGrid type op grids out) ∧
        ∀ out, space.ReducesGrid type op grids out →
          out = psReduceGrid op whole
            (IntegerArray.accumulate size space.numDims)) ↔
      (∀ rank < space.numProcs, (grids rank).empty = false) ∨
        DefaultAbsorbed op whole (IntegerArray.accumulate size space.numDims) := by
  have nonneg : ∀ i < space.numDims, 0 ≤ size i := fun i below =>
    (nonempty i below).le
  have positive : 0 < IntegerArray.accumulate size space.numDims := by
    rw [IntegerArray.accumulate_eq_volume]
    exact Finset.prod_pos fun i member => nonempty i (Finset.mem_range.mp member)
  have fold := reduce_elements op whole positive
  have returns : ((∃ out, space.ReducesGrid type op grids out) ∧
        ∀ out, space.ReducesGrid type op grids out →
          out = psReduceGrid op whole
            (IntegerArray.accumulate size space.numDims)) ↔
      Reductions.reduce (getMPIOp op) (paddedElements space grids op) =
        some (psReduceGrid op whole
          (IntegerArray.accumulate size space.numDims)) := by
    simp only [reducesGrid_iff floating distributed]
    constructor
    · rintro ⟨⟨out, reduced⟩, unique⟩
      rw [← unique out reduced]
      exact reduced
    · intro reduced
      refine ⟨⟨_, reduced⟩, ?_⟩
      intro out other
      rw [reduced, Option.some.injEq] at other
      exact other.symm
  rw [returns]
  cases op with
  | psMax =>
      exact reduce_paddedElements_greatest_iff distributed nonneg holds
        (fun left right => left ≤ right) le_trans reduce_max_eq_some_iff fold
  | psMin =>
      exact reduce_paddedElements_greatest_iff distributed nonneg holds
        (fun left right => right ≤ left) ge_trans reduce_min_eq_some_iff fold
  | psSum =>
      refine iff_of_true ?_ (Or.inr trivial)
      rw [reduce_paddedElements_of_neutral distributed nonneg positive holds zero_add]
      exact fold
  | psProd =>
      refine iff_of_true ?_ (Or.inr trivial)
      rw [reduce_paddedElements_of_neutral distributed nonneg positive holds one_mul]
      exact fold

/-- The maximum of six negative elements on three processes. -/
theorem rowOfThree_six_cells_reduction_eq_fold :
    (∃ out, HaloExchange.rowOfThree.ReducesGrid .psFloat .psMax
        (HaloExchange.rowOfThree.distribute 4 (IntegerArray.mk3 6 0 0) false
          (fun _ => 0) fun _ _ _ => -1) out) ∧
      ∀ out, HaloExchange.rowOfThree.ReducesGrid .psFloat .psMax
          (HaloExchange.rowOfThree.distribute 4 (IntegerArray.mk3 6 0 0) false
            (fun _ => 0) fun _ _ _ => -1) out →
        out = psReduceGrid .psMax (fun _ => -1)
          (IntegerArray.accumulate (IntegerArray.mk3 6 0 0) 1) :=
  (reduction_eq_fold_iff (Or.inl rfl)
    (HaloExchange.rowOfThree.distribute_distributed 4 (IntegerArray.mk3 6 0 0)
      false (fun _ => 0) (fun _ _ _ => -1) (by decide))
    (by decide) fun _ _ _ _ => rfl).mpr (Or.inl (by decide))

/--
Four elements leave the last of three processes empty, and the maximum of
negative elements comes out as the smallest positive number.
-/
theorem rowOfThree_four_cells_reduction_ne_fold :
    ∃ out, HaloExchange.rowOfThree.ReducesGrid .psFloat .psMax
        (HaloExchange.rowOfThree.distribute 4 (IntegerArray.mk3 4 0 0) false
          (fun _ => 0) fun _ _ _ => -1) out ∧
      out ≠ psReduceGrid .psMax (fun _ => -1)
        (IntegerArray.accumulate (IntegerArray.mk3 4 0 0) 1) := by
  refine ⟨fltMin, ?_, ?_⟩
  · refine ⟨[-1, -1, fltMin], ?_, ?_⟩
    · rfl
    · have combined := @combines_foldl ℚ max (-1) [-1, fltMin]
      have largest : [-1, fltMin].foldl max (-1) = fltMin := by
        simp only [List.foldl, fltMin]
        norm_num
      rw [largest] at combined
      exact combined
  · have fold : psReduceGrid .psMax (fun _ => -1)
        (IntegerArray.accumulate (IntegerArray.mk3 4 0 0) 1) = -1 := by
      rfl
    rw [fold, fltMin]
    norm_num

end Exact

end Physis.Runtime
