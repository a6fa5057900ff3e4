import Physis.Library.Segments
import Physis.Runtime.IntegerArray

/-!
# The decomposed grid space

`GridSpaceMPI` cuts a global index space into one partition per process.  The
constructor's table of process indices, the partitions and offsets of every
dimension, the neighbours, `GetProcessRank` and `PartitionGrid` are translated
here, and the decomposition is shown to give every cell of a grid exactly one
owner.
-/

namespace Physis.Runtime

open Physis.Library

/--
The configuration every process builds its grid space from.  The constructor
asserts that the process grid has as many dimensions as the space.
-/
structure GridSpaceMPI where
  numDims : Nat
  globalSize : IndexArray
  procSize : IntArray
  globalPos : ∀ i < numDims, 0 < globalSize i
  procPos : ∀ i < numDims, 0 < procSize i

namespace GridSpaceMPI

variable (space : GridSpaceMPI)

/-- `num_procs_` -/
def numProcs : Nat :=
  IntegerArray.accumulate space.procSize space.numDims

/--
The loop variable `t` of `partition` after `count` dimensions, from the rank.
-/
def remainingRank (rank : Nat) : Nat → Nat
  | 0 => rank
  | count + 1 => remainingRank rank count / space.procSize count

/-- `proc_indices_[rank]`; the elements from `num_dims_` on stay zero. -/
def procIndices (rank : Nat) : IntArray :=
  fun i =>
    if i < space.numDims then
      space.remainingRank rank i % space.procSize i
    else 0

/-- `GetProcessRank` -/
def getProcessRank (procIndex : IntArray) : Nat :=
  ((List.range space.numDims).foldl
    (fun (rank, offset) i =>
      (rank + procIndex i * offset, offset * space.procSize i))
    (0, 1)).1

/-- `partitions_[i][j]`: the last `rem` partitions get one element more. -/
def partitions (i j : Nat) : Int :=
  let rem := space.globalSize i % space.procSize i
  let base := space.globalSize i / space.procSize i
  if (space.procSize i : Int) - j ≤ rem then base + 1 else base

/-- `offsets_[i][j]`: the value of the running `offset` before partition `j`. -/
def offsets (i : Nat) : Nat → Int
  | 0 => 0
  | j + 1 => offsets i j + space.partitions i j

/-- `min_partition_[i]`, starting from the largest index. -/
def minPartition (i : Nat) : Int :=
  (List.range (space.procSize i)).foldl
    (fun least j => min least (space.partitions i j)) (2 ^ 31 - 1)

/-- `my_offset_` of the given rank -/
def myOffset (rank : Nat) : IndexArray :=
  fun i =>
    if i < space.numDims then
      space.offsets i (space.procIndices rank i)
    else 0

/-- `my_size_` of the given rank -/
def mySize (rank : Nat) : IndexArray :=
  fun i =>
    if i < space.numDims then
      space.partitions i (space.procIndices rank i)
    else 0

/-- `fw_neighbors_[i]` of the given rank -/
def fwNeighbors (rank i : Nat) : Nat :=
  let myIdx := space.procIndices rank
  space.getProcessRank
    (Function.update myIdx i ((myIdx i + 1) % space.procSize i))

/-- `bw_neighbors_[i]` of the given rank; the index is signed here. -/
def bwNeighbors (rank i : Nat) : Nat :=
  let myIdx := space.procIndices rank
  let neighbor : Int := (myIdx i : Int) - 1
  let wrapped : Int :=
    if neighbor < 0 then
      (neighbor + space.procSize i) % space.procSize i
    else neighbor
  space.getProcessRank (Function.update myIdx i wrapped.toNat)

/-- `local_offset` as `PartitionGrid` sets it -/
def localOffset (rank numDims : Nat) (globalOffset : IndexArray) : IndexArray :=
  fun i =>
    if i < numDims then max (space.myOffset rank i - globalOffset i) 0 else 0

/-- `local_size` as `PartitionGrid` sets it -/
def localSize
    (rank numDims : Nat) (size globalOffset : IndexArray) : IndexArray :=
  fun i =>
    if i < numDims then
      let first := max (space.myOffset rank i) (globalOffset i)
      let last :=
        min (globalOffset i + size i) (space.myOffset rank i + space.mySize rank i)
      max (last - first) 0
    else 0

/-- The size `CreateGrid` gives a grid of `numDims` dimensions in this space. -/
def gridSize (numDims : Nat) (size : IndexArray) : IndexArray :=
  fun i => if numDims ≤ i ∧ i < space.numDims then 1 else size i

/-- The global offset `CreateGrid` gives a grid of `numDims` dimensions. -/
def gridGlobalOffset (numDims : Nat) (globalOffset : IndexArray) : IndexArray :=
  fun i => if numDims ≤ i ∧ i < space.numDims then 0 else globalOffset i

/-! ## Ranks and process indices -/

theorem remainingRank_eq_residual (rank count : Nat) :
    space.remainingRank rank count =
      MixedRadix.residual space.procSize rank count := by
  induction count with
  | zero => rfl
  | succ count induction =>
      rw [remainingRank, MixedRadix.residual, induction]

theorem procIndices_eq_digit
    (rank : Nat) {i : Nat} (below : i < space.numDims) :
    space.procIndices rank i =
      MixedRadix.digit space.procSize rank i := by
  rw [procIndices, if_pos below, remainingRank_eq_residual]
  rfl

theorem numProcs_eq_weight :
    space.numProcs = MixedRadix.weight space.procSize space.numDims :=
  IntegerArray.accumulate_eq_weight _ _

/-- The loop of `GetProcessRank` carries the value and weight so far. -/
theorem getProcessRank_loop (procIndex : IntArray) (count : Nat) :
    (List.range count).foldl
        (fun (pair : Nat × Nat) i =>
          (pair.1 + procIndex i * pair.2, pair.2 * space.procSize i))
        (0, 1) =
      (MixedRadix.value space.procSize procIndex count,
        MixedRadix.weight space.procSize count) := by
  induction count with
  | zero => simp
  | succ count induction =>
      rw [List.range_succ, List.foldl_append, induction,
        MixedRadix.value_succ, MixedRadix.weight_succ]
      rfl

theorem getProcessRank_eq_value (procIndex : IntArray) :
    space.getProcessRank procIndex =
      MixedRadix.value space.procSize procIndex space.numDims :=
  congrArg Prod.fst (space.getProcessRank_loop procIndex space.numDims)

theorem numProcs_pos : 0 < space.numProcs := by
  rw [numProcs_eq_weight]
  exact MixedRadix.weight_pos space.procPos

theorem procIndices_lt
    (rank : Nat) {i : Nat} (below : i < space.numDims) :
    space.procIndices rank i < space.procSize i := by
  rw [space.procIndices_eq_digit rank below]
  exact MixedRadix.digit_lt (space.procPos i below) rank

theorem getProcessRank_lt
    {procIndex : IntArray}
    (inside : ∀ i < space.numDims, procIndex i < space.procSize i) :
    space.getProcessRank procIndex < space.numProcs := by
  rw [getProcessRank_eq_value, numProcs_eq_weight]
  exact MixedRadix.value_lt inside

theorem getProcessRank_congr
    {left right : IntArray}
    (equal : ∀ i < space.numDims, left i = right i) :
    space.getProcessRank left = space.getProcessRank right := by
  rw [getProcessRank_eq_value, getProcessRank_eq_value]
  exact MixedRadix.value_congr (fun _ _ => rfl) equal

/-- `GetProcessRank` inverts the table on every rank. -/
theorem getProcessRank_procIndices
    {rank : Nat} (bounded : rank < space.numProcs) :
    space.getProcessRank (space.procIndices rank) = rank := by
  rw [numProcs_eq_weight] at bounded
  rw [getProcessRank_eq_value,
    MixedRadix.value_congr (fun _ _ => rfl)
      fun i below => space.procIndices_eq_digit rank below]
  exact MixedRadix.value_digit bounded

/-- The table inverts `GetProcessRank` on every index of the process grid. -/
theorem procIndices_getProcessRank
    {procIndex : IntArray}
    (inside : ∀ i < space.numDims, procIndex i < space.procSize i)
    {i : Nat} (below : i < space.numDims) :
    space.procIndices (space.getProcessRank procIndex) i = procIndex i := by
  rw [space.procIndices_eq_digit _ below, getProcessRank_eq_value]
  exact MixedRadix.digit_value inside i below

/-- Ranks with the same process index are the same. -/
theorem eq_of_procIndices_eq
    {left right : Nat}
    (leftBounded : left < space.numProcs)
    (rightBounded : right < space.numProcs)
    (equal : ∀ i < space.numDims,
      space.procIndices left i = space.procIndices right i) :
    left = right := by
  rw [← space.getProcessRank_procIndices leftBounded,
    ← space.getProcessRank_procIndices rightBounded]
  exact space.getProcessRank_congr equal

/-! ## Partitions -/

theorem partitions_nonneg
    {i : Nat} (below : i < space.numDims) (j : Nat) :
    0 ≤ space.partitions i j := by
  have base : 0 ≤ space.globalSize i / space.procSize i :=
    Int.ediv_nonneg (space.globalPos i below).le (Int.natCast_nonneg _)
  simp only [partitions]
  split <;> omega

theorem offsets_eq_start (i j : Nat) :
    space.offsets i j = Segments.start (space.partitions i) j := by
  induction j with
  | zero => rfl
  | succ j induction => rw [offsets, Segments.start, induction]

/-- How far the running offset has come, in closed form. -/
theorem offsets_closed
    {i : Nat} (below : i < space.numDims) {j : Nat}
    (bounded : j ≤ space.procSize i) :
    space.offsets i j =
      j * (space.globalSize i / space.procSize i) +
        max (j - (space.procSize i - space.globalSize i % space.procSize i)) 0 := by
  have positive : (0 : Int) < space.procSize i := by
    exact_mod_cast space.procPos i below
  have remBound := Int.emod_lt_of_pos (space.globalSize i) positive
  induction j with
  | zero =>
      simp only [offsets]
      omega
  | succ j induction =>
      rw [offsets, induction (Nat.le_of_succ_le bounded)]
      simp only [partitions]
      push_cast
      rw [add_mul, one_mul]
      split <;> omega

/-- The partitions of a dimension sum to its global size. -/
theorem sum_partitions
    {i : Nat} (below : i < space.numDims) :
    ∑ j ∈ Finset.range (space.procSize i), space.partitions i j =
      space.globalSize i := by
  have positive : (0 : Int) < space.procSize i := by
    exact_mod_cast space.procPos i below
  have remNonneg := Int.emod_nonneg (space.globalSize i) positive.ne'
  have split :=
    Int.mul_ediv_add_emod (space.globalSize i) (space.procSize i)
  rw [← Segments.start_eq_sum, ← offsets_eq_start,
    space.offsets_closed below le_rfl]
  omega

/-- Two partitions of a dimension differ by at most one element. -/
theorem partitions_balanced (i j k : Nat) :
    |space.partitions i j - space.partitions i k| ≤ 1 := by
  simp only [partitions]
  rw [abs_le]
  split <;> split <;> omega

/-- The partitions cover the global range. -/
theorem offsets_procSize
    {i : Nat} (below : i < space.numDims) :
    space.offsets i (space.procSize i) = space.globalSize i := by
  rw [offsets_eq_start, Segments.start_eq_sum]
  exact space.sum_partitions below

theorem offsets_mono
    {i : Nat} (below : i < space.numDims) :
    Monotone (space.offsets i) := by
  have mono := Segments.start_mono (space.partitions_nonneg below)
  intro j k order
  rw [offsets_eq_start, offsets_eq_start]
  exact mono order

theorem offsets_nonneg
    {i : Nat} (below : i < space.numDims) (j : Nat) :
    0 ≤ space.offsets i j := by
  rw [offsets_eq_start]
  exact Segments.start_nonneg (space.partitions_nonneg below) j

/-- A global coordinate lies in the partition of exactly one process index. -/
theorem exists_partition
    {i : Nat} (below : i < space.numDims)
    {point : Int}
    (nonneg : 0 ≤ point) (bounded : point < space.globalSize i) :
    ∃ j < space.procSize i,
      space.offsets i j ≤ point ∧ point < space.offsets i (j + 1) := by
  rw [← space.offsets_procSize below] at bounded
  simp only [offsets_eq_start] at bounded ⊢
  exact Segments.exists_segment nonneg bounded

theorem partition_unique
    {i : Nat} (below : i < space.numDims)
    {left right : Nat} {point : Int}
    (leftLower : space.offsets i left ≤ point)
    (leftUpper : point < space.offsets i (left + 1))
    (rightLower : space.offsets i right ≤ point)
    (rightUpper : point < space.offsets i (right + 1)) :
    left = right := by
  simp only [offsets_eq_start] at leftLower leftUpper rightLower rightUpper
  exact Segments.segment_unique (space.partitions_nonneg below)
    leftLower leftUpper rightLower rightUpper

/-! ## Local subgrids -/

/-- The cell lies in the rank's local subgrid of the grid. -/
def Owns
    (rank : Nat) (size globalOffset cell : IndexArray) : Prop :=
  ∀ i < space.numDims,
    space.localOffset rank space.numDims globalOffset i ≤ cell i ∧
      cell i <
        space.localOffset rank space.numDims globalOffset i +
          space.localSize rank space.numDims size globalOffset i

/--
In one dimension a cell lies in the local subgrid exactly when its global
coordinate lies in the rank's partition.
-/
theorem mem_local_iff
    {rank i : Nat} (below : i < space.numDims)
    {size globalOffset : IndexArray} {cell : Int}
    (nonneg : 0 ≤ cell) (bounded : cell < size i) :
    (space.localOffset rank space.numDims globalOffset i ≤ cell ∧
        cell <
          space.localOffset rank space.numDims globalOffset i +
            space.localSize rank space.numDims size globalOffset i) ↔
      space.offsets i (space.procIndices rank i) ≤ globalOffset i + cell ∧
        globalOffset i + cell <
          space.offsets i (space.procIndices rank i + 1) := by
  simp only [localOffset, localSize, myOffset, mySize, if_pos below, offsets]
  omega

/-- Every owned coordinate lies inside the grid. -/
theorem local_bounds
    {rank i : Nat} (below : i < space.numDims)
    {size globalOffset : IndexArray} {cell : Int}
    (lower : space.localOffset rank space.numDims globalOffset i ≤ cell)
    (upper : cell <
      space.localOffset rank space.numDims globalOffset i +
        space.localSize rank space.numDims size globalOffset i) :
    0 ≤ cell ∧ cell < size i := by
  simp only [localOffset, localSize, if_pos below] at lower upper
  omega

/-- Two ranks that own a common cell are the same. -/
theorem owner_unique
    {left right : Nat}
    {size globalOffset cell : IndexArray}
    (leftBounded : left < space.numProcs)
    (rightBounded : right < space.numProcs)
    (leftOwns : space.Owns left size globalOffset cell)
    (rightOwns : space.Owns right size globalOffset cell) :
    left = right := by
  apply space.eq_of_procIndices_eq leftBounded rightBounded
  intro i below
  have bounds := space.local_bounds below (leftOwns i below).1 (leftOwns i below).2
  have leftInside :=
    (space.mem_local_iff below bounds.1 bounds.2).mp (leftOwns i below)
  have rightInside :=
    (space.mem_local_iff below bounds.1 bounds.2).mp (rightOwns i below)
  exact space.partition_unique below
    leftInside.1 leftInside.2 rightInside.1 rightInside.2

/-- Every cell of a grid that fits has an owner. -/
theorem exists_owner
    {size globalOffset cell : IndexArray}
    (fits : ∀ i < space.numDims,
      0 ≤ globalOffset i ∧ globalOffset i + size i ≤ space.globalSize i)
    (inside : RowMajor.InBox space.numDims size cell) :
    ∃ rank < space.numProcs, space.Owns rank size globalOffset cell := by
  have located : ∀ i, ∃ j, i < space.numDims →
      j < space.procSize i ∧
        space.offsets i j ≤ globalOffset i + cell i ∧
          globalOffset i + cell i < space.offsets i (j + 1) := by
    intro i
    by_cases below : i < space.numDims
    · have fit := fits i below
      have bounds := inside i below
      obtain ⟨j, bound, member⟩ :=
        space.exists_partition below
          (show 0 ≤ globalOffset i + cell i by omega) (by omega)
      exact ⟨j, fun _ => ⟨bound, member⟩⟩
    · exact ⟨0, fun impossible => absurd impossible below⟩
  choose procIndex located using located
  have valid : ∀ i < space.numDims, procIndex i < space.procSize i :=
    fun i below => (located i below).1
  refine ⟨space.getProcessRank procIndex, space.getProcessRank_lt valid, ?_⟩
  intro i below
  have bounds := inside i below
  rw [space.mem_local_iff below bounds.1 bounds.2,
    space.procIndices_getProcessRank valid below]
  exact (located i below).2

/--
Decomposition gives unique ownership.  The grid has `numDims` dimensions of its
own and is adapted to the space as `CreateGrid` does.
-/
theorem decomposition_unique_ownership
    (numDims : Nat) (size globalOffset : IndexArray)
    (fits : ∀ i < numDims,
      0 ≤ globalOffset i ∧ globalOffset i + size i ≤ space.globalSize i) :
    (∀ i < space.numDims,
      ∑ j ∈ Finset.range (space.procSize i), space.partitions i j =
          space.globalSize i ∧
        ∀ j k, |space.partitions i j - space.partitions i k| ≤ 1) ∧
    (∀ rank < space.numProcs,
      (∀ i < space.numDims, space.procIndices rank i < space.procSize i) ∧
        space.getProcessRank (space.procIndices rank) = rank) ∧
    (∀ procIndex : IntArray,
      (∀ i < space.numDims, procIndex i < space.procSize i) →
        space.getProcessRank procIndex < space.numProcs ∧
          ∀ i < space.numDims,
            space.procIndices (space.getProcessRank procIndex) i =
              procIndex i) ∧
    (∀ cell : IndexArray,
      RowMajor.InBox space.numDims (space.gridSize numDims size) cell →
        ∃! rank, rank < space.numProcs ∧
          space.Owns rank (space.gridSize numDims size)
            (space.gridGlobalOffset numDims globalOffset) cell) := by
  refine ⟨?_, ?_, ?_, ?_⟩
  · intro i below
    exact ⟨space.sum_partitions below, space.partitions_balanced i⟩
  · intro rank bounded
    exact ⟨fun i below => space.procIndices_lt rank below,
      space.getProcessRank_procIndices bounded⟩
  · intro procIndex inside
    exact ⟨space.getProcessRank_lt inside,
      fun i below => space.procIndices_getProcessRank inside below⟩
  · intro cell inside
    have adapted : ∀ i < space.numDims,
        0 ≤ space.gridGlobalOffset numDims globalOffset i ∧
          space.gridGlobalOffset numDims globalOffset i +
              space.gridSize numDims size i ≤ space.globalSize i := by
      intro i below
      have positive := space.globalPos i below
      by_cases own : i < numDims
      · have fit := fits i own
        simp only [gridGlobalOffset, gridSize]
        rw [if_neg (by omega), if_neg (by omega)]
        exact fit
      · simp only [gridGlobalOffset, gridSize]
        rw [if_pos (by omega), if_pos (by omega)]
        omega
    obtain ⟨rank, bounded, owns⟩ := space.exists_owner adapted inside
    refine ⟨rank, ⟨bounded, owns⟩, ?_⟩
    rintro other ⟨otherBounded, otherOwns⟩
    exact space.owner_unique otherBounded bounded otherOwns owns

/-- A 5 × 4 space over 2 × 3 processes, so both dimensions are uneven. -/
def fiveByFour : GridSpaceMPI where
  numDims := 2
  globalSize := IntegerArray.mk3 5 4 0
  procSize := IntegerArray.mk3 2 3 0
  globalPos := by decide
  procPos := by decide

/-- A shifted 4 × 3 grid of that space: its corner cell has one owner. -/
theorem fiveByFour_corner_owner :
    ∃! rank, rank < fiveByFour.numProcs ∧
      fiveByFour.Owns rank
        (fiveByFour.gridSize 2 (IntegerArray.mk3 4 3 0))
        (fiveByFour.gridGlobalOffset 2 (IntegerArray.mk3 1 1 0))
        (IntegerArray.mk3 3 2 0) :=
  (fiveByFour.decomposition_unique_ownership 2
    (IntegerArray.mk3 4 3 0) (IntegerArray.mk3 1 1 0) (by decide)).2.2.2
      (IntegerArray.mk3 3 2 0) (by
        have inside : ∀ i < 2,
            0 ≤ IntegerArray.mk3 (3 : Int) 2 0 i ∧
              IntegerArray.mk3 (3 : Int) 2 0 i <
                fiveByFour.gridSize 2 (IntegerArray.mk3 4 3 0) i := by
          decide
        exact inside)

end GridSpaceMPI

end Physis.Runtime
