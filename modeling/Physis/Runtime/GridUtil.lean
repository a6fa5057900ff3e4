import Physis.Runtime.IntegerArray

/-!
# Copying subgrids

`CopyoutSubgrid` and `CopyinSubgrid` expand a box of a grid into one-dimensional
lines, one list extension per dimension, and then copy line by line.  Memory is
a function from positions relative to a base pointer; one position holds one
element, so an element of the model is `elm_size` bytes of the source.
-/

namespace Physis.Runtime

open Physis.Library
open Physis.Library.RowMajor

variable {α : Type}

/-- `get1DOffset` -/
def get1DOffset (mdOffset size : IndexArray) (numDims : Nat) : Int :=
  ((List.range numDims).foldl
    (fun (offset1d, refOffset) i =>
      (offset1d + mdOffset i * refOffset, refOffset * size i))
    ((0 : Int), (1 : Int))).1

/-- `GridCalcOffset3D` -/
def gridCalcOffset3D (index size : IndexArray) : Int :=
  index 0 + index 1 * size 0 + index 2 * size 0 * size 1

/-- One pass of the loop that extends every collected offset along `i`. -/
def expandOffsets
    (subgridSize : IndexArray) (i : Nat) (offsets : List IndexArray) :
    List IndexArray :=
  offsets.flatMap fun curOffset =>
    (List.range (subgridSize i).toNat).map fun (j : Nat) =>
      Function.update curOffset i (curOffset i + j)

/-- The loop `for (int i = num_dims - 1; i >= 1; --i)`. -/
def collectOffsets (subgridSize : IndexArray) :
    Nat → List IndexArray → List IndexArray
  | 0, offsets => offsets
  | i + 1, offsets =>
      collectOffsets subgridSize i (expandOffsets subgridSize (i + 1) offsets)

/-- The line copied out from one collected offset. -/
def copyoutLine
    (numDims : Nat) (grid : Int → α) (gridSize subgridSize : IndexArray)
    (offset : IndexArray) : List α :=
  (List.range (subgridSize 0).toNat).map fun (x : Nat) =>
    grid (get1DOffset offset gridSize numDims + x)

/-- `CopyoutSubgrid`: the elements written to the subgrid, in order. -/
def copyoutSubgrid
    (numDims : Nat) (grid : Int → α)
    (gridSize subgridOffset subgridSize : IndexArray) : List α :=
  (collectOffsets subgridSize (numDims - 1) [subgridOffset]).flatMap
    (copyoutLine numDims grid gridSize subgridSize)

/-- `memcpy` of `length` elements between two memories -/
def memcpy
    (dst : Int → α) (dstPos : Int) (src : Int → α) (srcPos : Int)
    (length : Nat) : Int → α :=
  fun position =>
    if dstPos ≤ position ∧ position < dstPos + length then
      src (srcPos + (position - dstPos))
    else dst position

/-- The copy loop of `CopyinSubgrid` with its advancing source pointer. -/
def copyinLines
    (numDims : Nat) (gridSize subgridSize : IndexArray) (subgrid : Int → α) :
    List IndexArray → Int → (Int → α) → (Int → α)
  | [], _, grid => grid
  | offset :: rest, source, grid =>
      copyinLines numDims gridSize subgridSize subgrid rest
        (source + (subgridSize 0).toNat)
        (memcpy grid (get1DOffset offset gridSize numDims) subgrid source
          (subgridSize 0).toNat)

/-- `CopyinSubgrid`: the grid after the subgrid is copied in. -/
def copyinSubgrid
    (numDims : Nat) (grid : Int → α) (gridSize : IndexArray)
    (subgrid : Int → α) (subgridOffset subgridSize : IndexArray) : Int → α :=
  copyinLines numDims gridSize subgridSize subgrid
    (collectOffsets subgridSize (numDims - 1) [subgridOffset]) 0 grid

/-! ## Linear offsets -/

theorem get1DOffset_loop (mdOffset size : IndexArray) (numDims : Nat) :
    (List.range numDims).foldl
        (fun (pair : Int × Int) i =>
          (pair.1 + mdOffset i * pair.2, pair.2 * size i))
        (0, 1) =
      (linear size mdOffset numDims, volume size numDims) := by
  induction numDims with
  | zero => simp
  | succ numDims induction =>
      rw [List.range_succ, List.foldl_append, induction, linear_succ, volume_succ]
      rfl

@[simp]
theorem get1DOffset_eq_linear (mdOffset size : IndexArray) (numDims : Nat) :
    get1DOffset mdOffset size numDims = linear size mdOffset numDims :=
  congrArg Prod.fst (get1DOffset_loop mdOffset size numDims)

theorem gridCalcOffset3D_eq_linear (index size : IndexArray) :
    gridCalcOffset3D index size = linear size index 3 := by
  simp only [gridCalcOffset3D, linear_succ, linear_zero, volume_succ, volume_zero]
  ring

/-- Moving along dimension zero moves by single elements. -/
theorem linear_add_first
    {numDims : Nat} (positive : 0 < numDims)
    (size index : IndexArray) (x : Int) :
    linear size (Function.update index 0 (index 0 + x)) numDims =
      linear size index numDims + x := by
  induction numDims with
  | zero => omega
  | succ numDims induction =>
      rw [linear_succ, linear_succ]
      rcases Nat.eq_zero_or_pos numDims with rfl | more
      · simp
      · rw [induction more, Function.update_of_ne (Nat.ne_of_gt more)]
        ring

/-! ## Copying out -/

/-- The lines of one expanded offset list a box. -/
theorem flatMap_copyoutLine_collectOffsets
    {numDims : Nat} (positive : 0 < numDims)
    (grid : Int → α) (gridSize subgridSize : IndexArray)
    (dims : Nat) (offsets : List IndexArray) :
    (collectOffsets subgridSize dims offsets).flatMap
        (copyoutLine numDims grid gridSize subgridSize) =
      offsets.flatMap fun offset =>
        boxList (dims + 1) subgridSize fun index =>
          grid (linear gridSize (offset + index) numDims) := by
  induction dims generalizing offsets with
  | zero =>
      apply List.flatMap_congr
      intro offset _
      simp only [copyoutLine, boxList, get1DOffset_eq_linear]
      rw [List.map_eq_flatMap]
      apply List.flatMap_congr
      intro x _
      have moved :
          (offset + Function.update (fun _ => (0 : Int)) 0 (x : Int)) =
            Function.update offset 0 (offset 0 + x) := by
        funext i
        by_cases first : i = 0
        · subst i
          simp
        · simp [first]
      rw [moved, linear_add_first positive]
  | succ dims induction =>
      rw [collectOffsets, induction, expandOffsets, List.flatMap_assoc]
      apply List.flatMap_congr
      intro offset _
      rw [boxList, List.flatMap_map]
      apply List.flatMap_congr
      intro top _
      apply boxList_congr fun _ _ => rfl
      intro index enumerated
      congr 2
      funext i
      by_cases last : i = dims + 1
      · subst i
        simp [enumerated.2 (dims + 1) le_rfl]
      · simp [last]

/-- `CopyoutSubgrid` lists the box of the grid in row-major order. -/
theorem copyoutSubgrid_eq_boxList
    {numDims : Nat} (positive : 0 < numDims)
    (grid : Int → α) (gridSize subgridOffset subgridSize : IndexArray) :
    copyoutSubgrid numDims grid gridSize subgridOffset subgridSize =
      boxList numDims subgridSize fun index =>
        grid (linear gridSize (subgridOffset + index) numDims) := by
  rw [copyoutSubgrid, flatMap_copyoutLine_collectOffsets positive,
    Nat.sub_add_cancel positive]
  simp

theorem length_copyoutSubgrid
    {numDims : Nat} (positive : 0 < numDims) (memory : Int → α)
    (gridSize subgridOffset : IndexArray) {subgridSize : IndexArray}
    (nonneg : ∀ i < numDims, 0 ≤ subgridSize i) :
    (copyoutSubgrid numDims memory gridSize subgridOffset subgridSize).length =
      (IntegerArray.accumulate subgridSize numDims).toNat := by
  rw [copyoutSubgrid_eq_boxList positive, length_boxList,
    IntegerArray.accumulate_eq_volume, volume_eq_weight nonneg, Int.toNat_natCast]

/-- What is copied out of a grid that reads `view` reads the shifted view. -/
theorem copyoutSubgrid_eq_boxList_view
    {numDims : Nat} (positive : 0 < numDims)
    {grid : Int → α} {gridSize subgridOffset subgridSize : IndexArray}
    {view : IndexArray → α}
    (reads : Reads numDims grid gridSize view)
    (inside : ∀ i < numDims,
      0 ≤ subgridOffset i ∧ subgridOffset i + subgridSize i ≤ gridSize i) :
    copyoutSubgrid numDims grid gridSize subgridOffset subgridSize =
      boxList numDims subgridSize fun index => view (subgridOffset + index) := by
  rw [copyoutSubgrid_eq_boxList positive]
  apply boxList_congr fun _ _ => rfl
  intro index enumerated
  apply reads
  intro i below
  have bounds := enumerated.1 i below
  have fit := inside i below
  simp only [Pi.add_apply]
  omega

/-! ## Copying in -/

/-- The positions of the grid that `CopyinSubgrid` writes, in order. -/
def subgridPositions
    (numDims : Nat) (gridSize subgridOffset subgridSize : IndexArray) :
    List Int :=
  copyoutSubgrid numDims id gridSize subgridOffset subgridSize

theorem copyinLines_frame
    {numDims : Nat} {gridSize subgridSize : IndexArray} {subgrid : Int → α}
    {position : Int} {offsets : List IndexArray}
    (outside : position ∉
      offsets.flatMap (copyoutLine numDims id gridSize subgridSize))
    (source : Int) (grid : Int → α) :
    copyinLines numDims gridSize subgridSize subgrid offsets source grid
        position = grid position := by
  induction offsets generalizing source grid with
  | nil => rfl
  | cons offset rest induction =>
      rw [List.flatMap_cons, List.mem_append, not_or] at outside
      rw [copyinLines, induction outside.2, memcpy, if_neg]
      rintro ⟨lower, upper⟩
      apply outside.1
      simp only [copyoutLine, List.mem_map, List.mem_range, id]
      exact ⟨(position - get1DOffset offset gridSize numDims).toNat,
        by omega, by omega⟩

/-- The element written at the position of a given number. -/
theorem copyinLines_written
    {numDims : Nat} {gridSize subgridSize : IndexArray} (subgrid : Int → α)
    {offsets : List IndexArray}
    (distinct :
      (offsets.flatMap
        (copyoutLine numDims id gridSize subgridSize)).Nodup)
    {number : Nat} {position : Int}
    (located :
      (offsets.flatMap
        (copyoutLine numDims id gridSize subgridSize))[number]? =
          some position)
    (source : Int) (grid : Int → α) :
    copyinLines numDims gridSize subgridSize subgrid offsets source grid
        position = subgrid (source + number) := by
  induction offsets generalizing source grid number with
  | nil => simp at located
  | cons offset rest induction =>
      rw [List.flatMap_cons] at located distinct
      have lineLength :
          (copyoutLine numDims id gridSize subgridSize offset).length =
            (subgridSize 0).toNat := by
        simp [copyoutLine]
      rw [copyinLines]
      by_cases inLine : number < (subgridSize 0).toNat
      · rw [List.getElem?_append_left (by omega)] at located
        have here : get1DOffset offset gridSize numDims + number = position := by
          simpa [copyoutLine, inLine] using located
        have notLater : position ∉
            rest.flatMap (copyoutLine numDims id gridSize subgridSize) := by
          intro later
          exact (List.nodup_append.mp distinct).2.2 position
            (List.mem_of_getElem? located) position later rfl
        rw [copyinLines_frame notLater, memcpy, if_pos (by omega)]
        congr 1
        omega
      · rw [List.getElem?_append_right (by omega), lineLength] at located
        rw [induction (List.nodup_append.mp distinct).2.1 located]
        congr 1
        omega

section Copyin

variable
    {numDims : Nat} {grid subgrid : Int → α}
    {gridSize subgridOffset subgridSize : IndexArray}

theorem shifted_mem
    (inside : ∀ i < numDims,
      0 ≤ subgridOffset i ∧ subgridOffset i + subgridSize i ≤ gridSize i)
    {index : IndexArray} (member : InBox numDims subgridSize index) :
    InBox numDims gridSize (subgridOffset + index) := by
  intro i below
  have bounds := member i below
  have fit := inside i below
  simp only [Pi.add_apply]
  omega

theorem nodup_subgridPositions
    (positive : 0 < numDims)
    (inside : ∀ i < numDims,
      0 ≤ subgridOffset i ∧ subgridOffset i + subgridSize i ≤ gridSize i) :
    (subgridPositions numDims gridSize subgridOffset subgridSize).Nodup := by
  rw [subgridPositions, copyoutSubgrid_eq_boxList positive]
  apply nodup_boxList
  intro left right leftMember rightMember equal
  have same := eq_of_linear_eq
    (shifted_mem inside leftMember.1) (shifted_mem inside rightMember.1) equal
  funext i
  by_cases below : i < numDims
  · have coordinate := same i below
    simp only [Pi.add_apply] at coordinate
    omega
  · rw [leftMember.2 i (not_lt.mp below), rightMember.2 i (not_lt.mp below)]

/-- Inside the box the grid takes the subgrid's element. -/
theorem copyinSubgrid_inside
    (positive : 0 < numDims)
    (inside : ∀ i < numDims,
      0 ≤ subgridOffset i ∧ subgridOffset i + subgridSize i ≤ gridSize i)
    {index : IndexArray} (member : InBox numDims subgridSize index) :
    copyinSubgrid numDims grid gridSize subgrid subgridOffset subgridSize
        (linear gridSize (subgridOffset + index) numDims) =
      subgrid (linear subgridSize index numDims) := by
  have located :
      (subgridPositions numDims gridSize subgridOffset subgridSize)[
          (linear subgridSize index numDims).toNat]? =
        some (linear gridSize (subgridOffset + index) numDims) := by
    rw [subgridPositions, copyoutSubgrid_eq_boxList positive,
      getElem?_boxList _ member]
    simp only [id, Option.some.injEq]
    apply linear_congr fun _ _ => rfl
    intro i below
    simp [restrict, below]
  have written := copyinLines_written subgrid
    (nodup_subgridPositions positive inside) located 0 grid
  rw [copyinSubgrid, written, Int.toNat_of_nonneg (linear_nonneg member), zero_add]

/-- Outside the box the grid is unchanged. -/
theorem copyinSubgrid_outside
    (positive : 0 < numDims) {position : Int}
    (outside : ∀ index, InBox numDims subgridSize index →
      linear gridSize (subgridOffset + index) numDims ≠ position) :
    copyinSubgrid numDims grid gridSize subgrid subgridOffset subgridSize
        position = grid position := by
  apply copyinLines_frame
  intro member
  have listed :
      position ∈ copyoutSubgrid numDims id gridSize subgridOffset subgridSize :=
    member
  rw [copyoutSubgrid_eq_boxList positive] at listed
  obtain ⟨index, enumerated, equal⟩ := mem_boxList.mp listed
  exact outside index enumerated.1 equal

end Copyin

end Physis.Runtime
