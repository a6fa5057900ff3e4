import Physis.Runtime.GridSpace
import Physis.Runtime.HaloPacking

/-!
# Grids of a decomposed space and their neighbours

Every process creates its part of a grid from the same arguments.  Two
processes next to each other along one dimension then agree on all other
dimensions, and their subgrids either touch or sit at opposite edges of the
grid.
-/

namespace Physis.Runtime

open Physis.Library
open Physis.Library.RowMajor

namespace GridSpaceMPI

variable (space : GridSpaceMPI)

/-- The process on the side of `dim` that accesses in this direction go to. -/
def neighbor (rank dim : Nat) : Dir → Nat
  | .fw => space.fwNeighbors rank dim
  | .bw => space.bwNeighbors rank dim

/-! ## The ring of processes along one dimension -/

section Ring

variable {rank dim : Nat}

theorem updated_inside
    {procIndex : IntArray} {index : Nat}
    (inside : ∀ i < space.numDims, procIndex i < space.procSize i)
    (bounded : index < space.procSize dim) :
    ∀ i < space.numDims,
      Function.update procIndex dim index i < space.procSize i := by
  intro i below
  by_cases same : i = dim
  · subst i
    rwa [Function.update_self]
  · rw [Function.update_of_ne same]
    exact inside i below

/-- The index `bw_neighbors_` is computed from, without the case split. -/
theorem bwNeighbors_eq (rank : Nat) (below : dim < space.numDims) :
    space.bwNeighbors rank dim =
      space.getProcessRank (Function.update (space.procIndices rank) dim
        ((space.procIndices rank dim + space.procSize dim - 1) %
          space.procSize dim)) := by
  have bounded := space.procIndices_lt rank below
  simp only [bwNeighbors]
  congr 2
  rcases Nat.eq_zero_or_pos (space.procIndices rank dim) with zero | positive
  · rw [zero, if_pos (by omega)]
    have whole : ((0 : Nat) : Int) - 1 + space.procSize dim =
        ((0 + space.procSize dim - 1 : Nat) : Int) := by
      omega
    rw [whole]
    exact_mod_cast Int.toNat_natCast _
  · rw [if_neg (by omega)]
    have shifted : space.procIndices rank dim + space.procSize dim - 1 =
        (space.procIndices rank dim - 1) + space.procSize dim := by
      omega
    rw [shifted, Nat.add_mod_right, Nat.mod_eq_of_lt (by omega)]
    omega

theorem procIndices_fwNeighbors
    (rank : Nat) (below : dim < space.numDims)
    {i : Nat} (bound : i < space.numDims) :
    space.procIndices (space.fwNeighbors rank dim) i =
      Function.update (space.procIndices rank) dim
        ((space.procIndices rank dim + 1) % space.procSize dim) i :=
  space.procIndices_getProcessRank
    (space.updated_inside (fun _ => space.procIndices_lt rank)
      (Nat.mod_lt _ (space.procPos dim below))) bound

theorem procIndices_bwNeighbors
    (rank : Nat) (below : dim < space.numDims)
    {i : Nat} (bound : i < space.numDims) :
    space.procIndices (space.bwNeighbors rank dim) i =
      Function.update (space.procIndices rank) dim
        ((space.procIndices rank dim + space.procSize dim - 1) %
          space.procSize dim) i := by
  rw [space.bwNeighbors_eq rank below]
  exact space.procIndices_getProcessRank
    (space.updated_inside (fun _ => space.procIndices_lt rank)
      (Nat.mod_lt _ (space.procPos dim below))) bound

theorem neighbor_lt
    (rank : Nat) (below : dim < space.numDims) (dir : Dir) :
    space.neighbor rank dim dir < space.numProcs := by
  cases dir with
  | fw =>
      exact space.getProcessRank_lt
        (space.updated_inside (fun _ => space.procIndices_lt rank)
          (Nat.mod_lt _ (space.procPos dim below)))
  | bw =>
      rw [neighbor, space.bwNeighbors_eq rank below]
      exact space.getProcessRank_lt
        (space.updated_inside (fun _ => space.procIndices_lt rank)
          (Nat.mod_lt _ (space.procPos dim below)))

/-- One step along the ring and one back. -/
theorem neighbor_neighbor_flip
    (bounded : rank < space.numProcs) (below : dim < space.numDims) (dir : Dir) :
    space.neighbor (space.neighbor rank dim dir) dim dir.flip = rank := by
  apply space.eq_of_procIndices_eq (space.neighbor_lt _ below _) bounded
  intro i bound
  have own := space.procIndices_lt rank below
  cases dir with
  | fw =>
      simp only [neighbor, Dir.flip]
      rw [space.procIndices_bwNeighbors _ below bound]
      by_cases same : i = dim
      · subst i
        rw [Function.update_self, space.procIndices_fwNeighbors _ below below,
          Function.update_self]
        rcases Nat.lt_or_ge (space.procIndices rank dim + 1) (space.procSize dim)
          with inside | last
        · rw [Nat.mod_eq_of_lt inside,
            show space.procIndices rank dim + 1 + space.procSize dim - 1 =
              space.procIndices rank dim + space.procSize dim by omega,
            Nat.add_mod_right, Nat.mod_eq_of_lt own]
        · rw [show space.procIndices rank dim + 1 = space.procSize dim by omega,
            Nat.mod_self, Nat.mod_eq_of_lt (by omega)]
          omega
      · rw [Function.update_of_ne same, space.procIndices_fwNeighbors _ below bound,
          Function.update_of_ne same]
  | bw =>
      simp only [neighbor, Dir.flip]
      rw [space.procIndices_fwNeighbors _ below bound]
      by_cases same : i = dim
      · subst i
        rw [Function.update_self, space.procIndices_bwNeighbors _ below below,
          Function.update_self]
        rcases Nat.eq_zero_or_pos (space.procIndices rank dim) with zero | positive
        · rw [zero, Nat.mod_eq_of_lt (show 0 + space.procSize dim - 1 < _ by omega),
            show 0 + space.procSize dim - 1 + 1 = space.procSize dim by omega,
            Nat.mod_self]
        · rw [show space.procIndices rank dim + space.procSize dim - 1 =
              (space.procIndices rank dim - 1) + space.procSize dim by omega,
            Nat.add_mod_right,
            Nat.mod_eq_of_lt
              (show space.procIndices rank dim - 1 < space.procSize dim by omega),
            Nat.sub_add_cancel positive, Nat.mod_eq_of_lt own]
      · rw [Function.update_of_ne same, space.procIndices_bwNeighbors _ below bound,
          Function.update_of_ne same]

/-- A process is a neighbour's neighbour on the other side, and conversely. -/
theorem neighbor_eq_iff
    {left right : Nat}
    (leftBounded : left < space.numProcs) (rightBounded : right < space.numProcs)
    (below : dim < space.numDims) (dir : Dir) :
    space.neighbor left dim dir = right ↔
      space.neighbor right dim dir.flip = left := by
  constructor
  · rintro rfl
    exact space.neighbor_neighbor_flip leftBounded below dir
  · rintro rfl
    have back := space.neighbor_neighbor_flip rightBounded below dir.flip
    rwa [Dir.flip_flip] at back

end Ring

end GridSpaceMPI

/-! ## The grid of one process -/

section Decomposed

variable {α : Type}

/--
The part of a grid that `CreateGrid` makes on one process, whatever its halos
and data are by now.
-/
structure Decomposed
    (space : GridSpaceMPI) (elmSize : Nat) (size globalOffset : IndexArray)
    (rank : Nat) (grid : GridMPI α) : Prop where
  elmSize : grid.elmSize = elmSize
  numDims : grid.numDims = space.numDims
  localOffset :
    grid.localOffset = space.localOffset rank space.numDims globalOffset
  localSize :
    grid.localSize = space.localSize rank space.numDims size globalOffset
  empty :
    grid.empty =
      decide (IntegerArray.accumulate grid.localSize grid.numDims = 0)
  size : grid.size = size
  globalOffset : grid.globalOffset = globalOffset
  sendBuffers : grid.SelfChunks

/-- `GridSpaceMPI::CreateGrid` on one process; `none` where the source aborts. -/
def GridSpaceMPI.createGrid
    (space : GridSpaceMPI) (rank elmSize numDims : Nat)
    (size : IndexArray) (doubleBuffering : Bool) (globalOffset : IndexArray)
    (memory : Nat → Int → α) : Option (GridMPI α) :=
  if space.numDims < numDims then none
  else
    let gridSize := space.gridSize numDims size
    let gridGlobalOffset := space.gridGlobalOffset numDims globalOffset
    some (GridMPI.create elmSize space.numDims gridSize doubleBuffering
      gridGlobalOffset
      (space.localOffset rank space.numDims gridGlobalOffset)
      (space.localSize rank space.numDims gridSize gridGlobalOffset) memory)

namespace Decomposed

variable
    {space : GridSpaceMPI} {elmSize rank : Nat}
    {size globalOffset : IndexArray} {grid : GridMPI α}

theorem localSize_nonneg
    (decomposed : Decomposed space elmSize size globalOffset rank grid)
    {i : Nat} (below : i < space.numDims) :
    0 ≤ grid.localSize i := by
  rw [decomposed.localSize]
  simp only [GridSpaceMPI.localSize, if_pos below]
  exact le_max_right _ _

/-- A process has data exactly if its subgrid has extent in every dimension. -/
theorem empty_eq_false_iff
    (decomposed : Decomposed space elmSize size globalOffset rank grid) :
    grid.empty = false ↔ ∀ i < space.numDims, 0 < grid.localSize i := by
  rw [decomposed.empty, decide_eq_false_iff_not, decomposed.numDims,
    IntegerArray.accumulate_eq_prod, Finset.prod_eq_zero_iff]
  constructor
  · intro nonzero i below
    have nonneg := decomposed.localSize_nonneg below
    rcases nonneg.lt_or_eq with positive | zero
    · exact positive
    · exact absurd ⟨i, Finset.mem_range.mpr below, zero.symm⟩ nonzero
  · rintro positive ⟨i, member, zero⟩
    have extent := positive i (Finset.mem_range.mp member)
    omega

end Decomposed

end Decomposed

/-! ## Adjacent subgrids -/

variable {α : Type}

/-- The grid continues beyond the local subgrid on this side. -/
def GridMPI.continues (grid : GridMPI α) (dim : Nat) : Dir → Bool
  | .fw => decide (grid.localOffset dim + grid.localSize dim < grid.size dim)
  | .bw => decide (0 < grid.localOffset dim)

/--
`upper` is next after `lower` along `dim`: the subgrids touch, or they are the
two ends of the grid.
-/
structure Adjacent (lower upper : GridMPI α) (dim : Nat) : Prop where
  elmSize : lower.elmSize = upper.elmSize
  numDims : lower.numDims = upper.numDims
  size : lower.size = upper.size
  localOffset : ∀ i < lower.numDims, i ≠ dim →
    lower.localOffset i = upper.localOffset i
  localSize : ∀ i < lower.numDims, i ≠ dim →
    lower.localSize i = upper.localSize i
  border :
    (lower.localOffset dim + lower.localSize dim = upper.localOffset dim ∧
        0 < upper.localOffset dim ∧ upper.localOffset dim < upper.size dim) ∨
      (lower.localOffset dim + lower.localSize dim = lower.size dim ∧
        upper.localOffset dim = 0)

/-- Two grids are neighbours in the given direction, seen from the first. -/
def NextTo (grid other : GridMPI α) (dim : Nat) : Dir → Prop
  | .fw => Adjacent grid other dim
  | .bw => Adjacent other grid dim

namespace NextTo

variable {grid other : GridMPI α} {dim : Nat} {dir : Dir}

theorem elmSize (next : NextTo grid other dim dir) :
    grid.elmSize = other.elmSize := by
  cases dir with
  | fw => exact Adjacent.elmSize next
  | bw => exact (Adjacent.elmSize next).symm

theorem numDims (next : NextTo grid other dim dir) :
    grid.numDims = other.numDims := by
  cases dir with
  | fw => exact Adjacent.numDims next
  | bw => exact (Adjacent.numDims next).symm

theorem size (next : NextTo grid other dim dir) :
    grid.size = other.size := by
  cases dir with
  | fw => exact Adjacent.size next
  | bw => exact (Adjacent.size next).symm

theorem localOffset
    (next : NextTo grid other dim dir)
    {i : Nat} (below : i < grid.numDims) (different : i ≠ dim) :
    grid.localOffset i = other.localOffset i := by
  cases dir with
  | fw => exact Adjacent.localOffset next i below different
  | bw =>
      rw [next.numDims] at below
      exact (Adjacent.localOffset next i below different).symm

theorem localSize
    (next : NextTo grid other dim dir)
    {i : Nat} (below : i < grid.numDims) (different : i ≠ dim) :
    grid.localSize i = other.localSize i := by
  cases dir with
  | fw => exact Adjacent.localSize next i below different
  | bw =>
      rw [next.numDims] at below
      exact (Adjacent.localSize next i below different).symm

/-- The grid continues on one side of a border exactly if it does on the other. -/
theorem continues (next : NextTo grid other dim dir) :
    grid.continues dim dir = other.continues dim dir.flip := by
  cases dir with
  | fw =>
      rcases Adjacent.border next with touching | ends
      · simp only [GridMPI.continues, Dir.flip, next.size, decide_eq_decide]
        omega
      · simp only [GridMPI.continues, Dir.flip, decide_eq_decide]
        omega
  | bw =>
      rcases Adjacent.border next with touching | ends
      · simp only [GridMPI.continues, Dir.flip, ← next.size, decide_eq_decide]
        omega
      · simp only [GridMPI.continues, Dir.flip, decide_eq_decide]
        omega

/-- In the other dimensions both have the same sides. -/
theorem continues_other
    (next : NextTo grid other dim dir)
    {i : Nat} (below : i < grid.numDims) (different : i ≠ dim) (side : Dir) :
    grid.continues i side = other.continues i side := by
  cases side with
  | fw =>
      simp only [GridMPI.continues]
      rw [next.localOffset below different, next.localSize below different,
        next.size]
  | bw =>
      simp only [GridMPI.continues]
      rw [next.localOffset below different]

end NextTo

section Neighbours

variable
    {space : GridSpaceMPI} {elmSize rank dim : Nat}
    {size globalOffset : IndexArray} {grid other : GridMPI α}

/-- A process and its forward neighbour, when both have data. -/
theorem adjacent_fwNeighbors
    (fits : ∀ i < space.numDims,
      0 ≤ globalOffset i ∧ globalOffset i + size i ≤ space.globalSize i)
    (below : dim < space.numDims)
    (decomposed : Decomposed space elmSize size globalOffset rank grid)
    (otherDecomposed : Decomposed space elmSize size globalOffset
      (space.fwNeighbors rank dim) other)
    (positive : 0 < grid.localSize dim) (otherPositive : 0 < other.localSize dim) :
    Adjacent grid other dim := by
  have fit := fits dim below
  have own := space.procIndices_lt rank below
  have same : ∀ i < space.numDims, i ≠ dim →
      space.procIndices (space.fwNeighbors rank dim) i =
        space.procIndices rank i := by
    intro i bound different
    rw [space.procIndices_fwNeighbors rank below bound,
      Function.update_of_ne different]
  have next := space.procIndices_fwNeighbors rank below below
  rw [Function.update_self] at next
  constructor
  · rw [decomposed.elmSize, otherDecomposed.elmSize]
  · rw [decomposed.numDims, otherDecomposed.numDims]
  · rw [decomposed.size, otherDecomposed.size]
  · intro i bound different
    rw [decomposed.numDims] at bound
    rw [decomposed.localOffset, otherDecomposed.localOffset]
    simp only [GridSpaceMPI.localOffset, GridSpaceMPI.myOffset, if_pos bound,
      same i bound different]
  · intro i bound different
    rw [decomposed.numDims] at bound
    rw [decomposed.localSize, otherDecomposed.localSize]
    simp only [GridSpaceMPI.localSize, GridSpaceMPI.myOffset, GridSpaceMPI.mySize,
      if_pos bound, same i bound different]
  · rw [decomposed.localSize] at positive
    rw [otherDecomposed.localSize] at otherPositive
    rw [decomposed.localOffset, decomposed.localSize, decomposed.size,
      otherDecomposed.localOffset, otherDecomposed.size]
    simp only [GridSpaceMPI.localSize, GridSpaceMPI.localOffset,
      GridSpaceMPI.myOffset, GridSpaceMPI.mySize, if_pos below, next]
      at positive otherPositive ⊢
    rcases Nat.lt_or_ge (space.procIndices rank dim + 1) (space.procSize dim)
      with inside | last
    · rw [Nat.mod_eq_of_lt inside] at otherPositive ⊢
      left
      simp only [GridSpaceMPI.offsets] at otherPositive ⊢
      omega
    · right
      have whole : space.procIndices rank dim + 1 = space.procSize dim := by
        omega
      have total := space.offsets_procSize below
      rw [← whole, GridSpaceMPI.offsets] at total
      rw [whole, Nat.mod_self] at otherPositive ⊢
      simp only [GridSpaceMPI.offsets] at otherPositive ⊢
      omega

/-- A process and its neighbour in either direction, when both have data. -/
theorem nextTo_neighbor
    (fits : ∀ i < space.numDims,
      0 ≤ globalOffset i ∧ globalOffset i + size i ≤ space.globalSize i)
    (bounded : rank < space.numProcs) (below : dim < space.numDims) (dir : Dir)
    (decomposed : Decomposed space elmSize size globalOffset rank grid)
    (otherDecomposed : Decomposed space elmSize size globalOffset
      (space.neighbor rank dim dir) other)
    (positive : 0 < grid.localSize dim) (otherPositive : 0 < other.localSize dim) :
    NextTo grid other dim dir := by
  cases dir with
  | fw =>
      exact adjacent_fwNeighbors fits below decomposed otherDecomposed positive
        otherPositive
  | bw =>
      have back := space.neighbor_neighbor_flip bounded below .bw
      refine adjacent_fwNeighbors fits below otherDecomposed ?_ otherPositive positive
      simp only [GridSpaceMPI.neighbor, Dir.flip] at back ⊢
      rw [back]
      exact decomposed

end Neighbours

/-! ## One grid on all processes -/

/-- The parts of one grid that fits into the space, on all processes. -/
structure Distributed
    (space : GridSpaceMPI) (elmSize : Nat) (size globalOffset : IndexArray)
    (grids : Nat → GridMPI α) : Prop where
  fits : ∀ i < space.numDims,
    0 ≤ globalOffset i ∧ globalOffset i + size i ≤ space.globalSize i
  decomposed : ∀ rank < space.numProcs,
    Decomposed space elmSize size globalOffset rank (grids rank)

namespace Distributed

variable
    {space : GridSpaceMPI} {elmSize : Nat} {size globalOffset : IndexArray}
    {grids : Nat → GridMPI α}

/-- Neighbours that both have data are next to each other in the grid. -/
theorem nextTo
    (distributed : Distributed space elmSize size globalOffset grids)
    {rank dim : Nat} (dir : Dir)
    (bounded : rank < space.numProcs) (below : dim < space.numDims)
    (occupied : (grids rank).empty = false)
    (otherOccupied : (grids (space.neighbor rank dim dir)).empty = false) :
    NextTo (grids rank) (grids (space.neighbor rank dim dir)) dim dir := by
  have own := distributed.decomposed rank bounded
  have other := distributed.decomposed _ (space.neighbor_lt rank below dir)
  exact nextTo_neighbor distributed.fits bounded below dir own other
    (own.empty_eq_false_iff.mp occupied dim below)
    (other.empty_eq_false_iff.mp otherOccupied dim below)

end Distributed

/-- The parts all processes create of one grid of the space's dimensions. -/
def GridSpaceMPI.distribute
    (space : GridSpaceMPI) (elmSize : Nat) (size : IndexArray)
    (doubleBuffering : Bool) (globalOffset : IndexArray)
    (memory : Nat → Nat → Int → α) (rank : Nat) : GridMPI α :=
  GridMPI.create elmSize space.numDims size doubleBuffering globalOffset
    (space.localOffset rank space.numDims globalOffset)
    (space.localSize rank space.numDims size globalOffset) (memory rank)

theorem GridSpaceMPI.distribute_distributed
    (space : GridSpaceMPI) (elmSize : Nat) (size : IndexArray)
    (doubleBuffering : Bool) (globalOffset : IndexArray)
    (memory : Nat → Nat → Int → α)
    (fits : ∀ i < space.numDims,
      0 ≤ globalOffset i ∧ globalOffset i + size i ≤ space.globalSize i) :
    Distributed space elmSize size globalOffset
      (space.distribute elmSize size doubleBuffering globalOffset memory) :=
  ⟨fits, fun _ _ => ⟨rfl, rfl, rfl, rfl, rfl, rfl, rfl, fun _ _ _ => ⟨0, rfl⟩⟩⟩

/-- `CreateGrid` is that part for the grid adapted to the space. -/
theorem GridSpaceMPI.createGrid_eq_distribute
    {space : GridSpaceMPI} {numDims : Nat} (enough : numDims ≤ space.numDims)
    (rank elmSize : Nat) (size : IndexArray) (doubleBuffering : Bool)
    (globalOffset : IndexArray) (memory : Nat → Nat → Int → α) :
    space.createGrid rank elmSize numDims size doubleBuffering globalOffset
        (memory rank) =
      some (space.distribute elmSize (space.gridSize numDims size)
        doubleBuffering (space.gridGlobalOffset numDims globalOffset) memory
        rank) := by
  rw [createGrid, if_neg (by omega)]
  rfl

end Physis.Runtime
