import Physis.Runtime.HaloPacking

/-!
# Elements of a packed halo

Every cell of the box that `SetHaloSize` records comes from one place: the own
data, or the received halo of the first dimension in which the cell leaves the
local subgrid.  `CopyoutHalo` writes the cells of the box in row-major order and
nothing else, whatever the data and the received halos hold.
-/

namespace Physis.Runtime

open Physis.Library
open Physis.Library.RowMajor

variable {α : Type}

namespace GridMPI

/-- The first dimension of the grid in which a cell leaves the local subgrid. -/
def leavesIn (grid : GridMPI α) (point : IndexArray) : Option Nat :=
  (List.range grid.numDims).find? fun i =>
    decide (point i < 0) || decide (grid.localSize i ≤ point i)

/-- The halo of the dimension a cell lies in. -/
def haloDir (point : IndexArray) (e : Nat) : Dir :=
  if point e < 0 then .bw else .fw

/-- The index of a cell in the received halo of dimension `e`. -/
def receivedIndex (grid : GridMPI α) (point : IndexArray) (e : Nat) : IndexArray :=
  fun i =>
    if i = e then
      point i - grid.haloOffset e (grid.haloWidth (haloDir point e) e) (haloDir point e)
    else if e < i then point i + grid.haloWidth .bw i
    else point i

/--
The element of a cell in local coordinates: of the own data, or of the received
halo of the first dimension the cell leaves the local subgrid in.
-/
def cellValue (grid : GridMPI α) (point : IndexArray) : α :=
  match grid.leavesIn point with
  | none => grid.data (linear grid.localSize point grid.numDims)
  | some e =>
      grid.haloPeer (haloDir point e) e
        (linear (grid.haloExtent e (grid.haloWidth (haloDir point e) e) true)
          (grid.receivedIndex point e) grid.numDims)

variable {grid : GridMPI α}

theorem leavesIn_eq_none {point : IndexArray} (inside : InBox grid.numDims grid.localSize point) :
    grid.leavesIn point = none := by
  rw [leavesIn, List.find?_eq_none]
  intro i member
  have bounds := inside i (List.mem_range.mp member)
  simp only [Bool.or_eq_true, decide_eq_true_eq]
  omega

theorem leavesIn_eq_some {point : IndexArray} {e : Nat} (below : e < grid.numDims)
    (outside : point e < 0 ∨ grid.localSize e ≤ point e)
    (earlier : ∀ i < e, 0 ≤ point i ∧ point i < grid.localSize i) :
    grid.leavesIn point = some e := by
  rw [leavesIn, List.find?_range_eq_some]
  refine ⟨by simpa using outside, List.mem_range.mpr below, fun i before => ?_⟩
  have bounds := earlier i before
  simp only [Bool.not_eq_true', Bool.or_eq_false_iff, decide_eq_false_iff_not]
  omega

/-- Only the coordinates of the grid's dimensions matter. -/
theorem depends_cellValue : Depends grid.numDims grid.cellValue := by
  intro left right equal
  have first : grid.leavesIn left = grid.leavesIn right := by
    simp only [leavesIn]
    apply List.find?_congr
    intro i member
    rw [equal i (List.mem_range.mp member)]
  rw [cellValue, cellValue, first]
  cases leaves : grid.leavesIn right with
  | none => exact congrArg grid.data (linear_congr (fun _ _ => rfl) equal)
  | some e =>
      have below : e < grid.numDims :=
        List.mem_range.mp (List.mem_of_find?_eq_some leaves)
      have side : haloDir left e = haloDir right e := by
        rw [haloDir, haloDir, equal e below]
      dsimp only
      rw [side]
      congr 1
      apply linear_congr (fun _ _ => rfl)
      intro i inGrid
      simp only [receivedIndex, side, equal i inGrid]

/-- A cell of a received halo leaves the local subgrid in the halo's dimension first. -/
theorem cellValue_haloPoint (nonneg : ∀ i < grid.numDims, 0 ≤ grid.localSize i) {e : Nat}
    (below : e < grid.numDims) (dir : Dir) {index : IndexArray}
    (inside : InBox grid.numDims (grid.haloExtent e (grid.haloWidth dir e) true) index) :
    grid.cellValue (grid.haloPoint e (grid.haloWidth dir e) dir true index) =
      grid.haloPeer dir e
        (linear (grid.haloExtent e (grid.haloWidth dir e) true) index grid.numDims) := by
  have along : 0 ≤ index e ∧ index e < grid.haloWidth dir e := by
    simpa [haloExtent] using inside e below
  have extent := nonneg e below
  have here : grid.haloPoint e (grid.haloWidth dir e) dir true index e =
      grid.haloOffset e (grid.haloWidth dir e) dir + index e := by
    rw [haloPoint, if_pos rfl]
  have side : haloDir (grid.haloPoint e (grid.haloWidth dir e) dir true index) e = dir := by
    rw [haloDir, here]
    cases dir with
    | fw => exact if_neg (by simp only [haloOffset]; omega)
    | bw => exact if_pos (by simp only [haloOffset]; omega)
  have leaves : grid.leavesIn (grid.haloPoint e (grid.haloWidth dir e) dir true index) =
      some e := by
    refine leavesIn_eq_some below ?_ fun i before => ?_
    · rw [here]
      cases dir with
      | fw => exact .inr (by simp only [haloOffset]; omega)
      | bw => exact .inl (by simp only [haloOffset]; omega)
    · have own : grid.haloExtent e (grid.haloWidth dir e) true i = grid.localSize i := by
        rw [haloExtent, if_neg (by omega), if_neg (by omega)]
      have bounds := inside i (by omega)
      rw [own] at bounds
      rw [haloPoint, if_neg (by omega), if_neg (by omega)]
      exact bounds
  rw [cellValue, leaves]
  dsimp only
  rw [side]
  congr 1
  apply linear_congr (fun _ _ => rfl)
  intro i _
  rw [receivedIndex, side]
  by_cases same : i = e
  · subst same
    rw [if_pos rfl, here, add_sub_cancel_left]
  · rw [if_neg same, haloPoint, if_neg same]
    by_cases later : e < i
    · rw [if_pos later, if_pos ⟨rfl, later⟩, sub_add_cancel]
    · rw [if_neg later, if_neg fun both => later both.2]

/-- Own data and received halos are read through the cells, whatever they hold. -/
theorem haloReads_cellValue (nonneg : ∀ i < grid.numDims, 0 ≤ grid.localSize i) (dim : Nat)
    (diagonal : Bool) :
    grid.HaloReads dim diagonal grid.cellValue where
  own index inside := by
    rw [cellValue, leavesIn_eq_none inside]
  halo _ e _ below dir index inside := (cellValue_haloPoint nonneg below dir inside).symm

/-- What was written through a send pointer is read back through it. -/
theorem readCells_writePtr (grid : GridMPI α) (ptr : HaloPtr) (cells : List α) :
    (grid.writePtr ptr cells).readCells ptr cells.length = cells := by
  cases ptr with
  | chunk id =>
      simp only [readCells, readPtr, writePtr, Function.update_self]
      exact map_range_overwrite _ _
  | data buffer offset =>
      simp only [readCells, readPtr, writePtr, Function.update_self, add_sub_cancel_left]
      exact map_range_overwrite _ _

/-- `CopyoutHalo` writes what is packed through the send pointer. -/
theorem copyoutHalo_eq {dim width : Nat} {dir : Dir} {diagonal : Bool}
    (notLast : dim + 1 < grid.numDims) {cells : List α}
    (packed : grid.packedHalo dim width dir diagonal = some cells) :
    ∃ sent, grid.copyoutHalo dim width dir diagonal = some sent ∧
      sent.readCells (sent.haloSelf dir dim) cells.length = cells := by
  have marked : ∃ haloSelf sizes next,
      { grid with haloHasDiagonal := diagonal }.getHaloBuf dim width dir diagonal =
        grid.withSendBuffers diagonal haloSelf sizes grid.chunks next := by
    simp only [getHaloBuf]
    split
    · exact ⟨_, _, _, rfl⟩
    · exact ⟨_, _, _, rfl⟩
  obtain ⟨haloSelf, sizes, next, allocated⟩ := marked
  have unfolded : grid.copyoutHalo dim width dir diagonal =
      some ((grid.withSendBuffers diagonal haloSelf sizes grid.chunks next).writePtr
        (haloSelf dir dim) cells) := by
    simp only [copyoutHalo]
    rw [if_neg (show dim ≠ grid.numDims - 1 by omega), allocated,
      packedHalo_withSendBuffers, packed]
    rfl
  refine ⟨_, unfolded, ?_⟩
  have kept (ptr : HaloPtr) :
      ((grid.withSendBuffers diagonal haloSelf sizes grid.chunks next).writePtr ptr
        cells).haloSelf = haloSelf := by
    cases ptr <;> rfl
  rw [kept]
  exact readCells_writePtr _ _ cells

/--
`CopyoutHalo` for a dimension before the last writes as many elements as
`CalcHaloSize` says, and the element at the row-major position of a cell of the
recorded box is the one of that cell in the edge slab, extended by the received
halos of the later dimensions if diagonal points are included.
-/
theorem copyoutHalo_matches_box (grid : GridMPI α) (dim width : Nat) (dir : Dir)
    (diagonal : Bool) (nonneg : ∀ i < grid.numDims, 0 ≤ grid.localSize i)
    (dims : grid.numDims ≤ 3) (notLast : dim + 1 < grid.numDims)
    (narrow : (width : Int) ≤ grid.localSize dim) :
    ∃ cells sent, grid.packedHalo dim width dir diagonal = some cells ∧
      grid.copyoutHalo dim width dir diagonal = some sent ∧
      sent.readCells (sent.haloSelf dir dim) cells.length = cells ∧
      cells.length = grid.calcHaloSize dim width diagonal ∧
      (cells.length : Int) =
        volume ((grid.setHaloSize dim dir width diagonal).haloSize dir dim) grid.numDims ∧
      ∀ index,
        InBox grid.numDims ((grid.setHaloSize dim dir width diagonal).haloSize dir dim) index →
        cells[(linear ((grid.setHaloSize dim dir width diagonal).haloSize dir dim) index
            grid.numDims).toNat]? =
          some (grid.cellValue (grid.slabPoint dim width dir diagonal index)) := by
  have packed := packedHalo_eq dir nonneg depends_cellValue dims notLast narrow
    (haloReads_cellValue nonneg dim diagonal)
  obtain ⟨sent, copied, read⟩ := copyoutHalo_eq notLast packed
  have recorded : ∀ i < grid.numDims,
      (grid.setHaloSize dim dir width diagonal).haloSize dir dim i =
        grid.haloExtent dim width diagonal i := by
    intro i below
    simp [setHaloSize, below]
  have extents : ∀ i < grid.numDims, 0 ≤ grid.haloExtent dim width diagonal i := by
    intro i below
    have extent := nonneg i below
    simp only [haloExtent]
    split_ifs <;> omega
  refine ⟨_, sent, packed, copied, read, (calcHaloSize_eq_length dim width diagonal _).symm,
    ?_, fun index inside => ?_⟩
  · rw [length_boxList, volume_congr recorded, volume_eq_weight extents]
  · have box : InBox grid.numDims (grid.haloExtent dim width diagonal) index :=
      inside.congr recorded fun _ _ => rfl
    rw [linear_congr recorded fun _ _ => rfl, getElem?_boxList _ box]
    congr 1
    apply depends_cellValue
    intro i below
    simp [slabPoint, restrict, below]

/-- A grid of three by two elements between halos of one line in the second dimension. -/
def betweenHalos : GridMPI Int :=
  { create 8 2 (IntegerArray.mk3 3 2 0) false (fun _ => 0) (fun _ => 0)
      (IntegerArray.mk3 3 2 0) (fun _ position => position) with
    haloWidth := fun _ i => if i = 1 then 1 else 0
    haloPeer := fun dir _ position =>
      match dir with
      | .fw => 200 + position
      | .bw => 100 + position }

/-- The last column and the corners above and below it. -/
theorem betweenHalos_packed :
    ∃ cells sent, betweenHalos.packedHalo 0 1 .bw true = some cells ∧
      betweenHalos.copyoutHalo 0 1 .bw true = some sent ∧
      sent.readCells (sent.haloSelf .bw 0) cells.length = cells ∧
      cells.length = betweenHalos.calcHaloSize 0 1 true ∧
      (cells.length : Int) =
        volume ((betweenHalos.setHaloSize 0 .bw 1 true).haloSize .bw 0) 2 ∧
      ∀ index, InBox 2 ((betweenHalos.setHaloSize 0 .bw 1 true).haloSize .bw 0) index →
        cells[(linear ((betweenHalos.setHaloSize 0 .bw 1 true).haloSize .bw 0) index
            2).toNat]? =
          some (betweenHalos.cellValue (betweenHalos.slabPoint 0 1 .bw true index)) :=
  copyoutHalo_matches_box betweenHalos 0 1 .bw true (by decide) (by decide) (by decide)
    (by decide)

example : betweenHalos.packedHalo 0 1 .bw true = some [102, 2, 5, 202] := by
  decide

end GridMPI

end Physis.Runtime
