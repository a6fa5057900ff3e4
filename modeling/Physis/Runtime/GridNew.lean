import Physis.Runtime.ArrayOrder
import Physis.Runtime.GridRegistry

/-!
# Requests for new grids

`__PSGridNewMPI` compares the requested size with the size of the grid space
before it asks the master for the grid.  The comparison is the lexicographic
one of the base class, so it stands for a test of every dimension only as long
as the first dimensions agree.
-/

namespace Physis.Runtime

open Physis.Library

/-- What a call of `__PSGridNewMPI` comes to. -/
inductive GridNewOutcome where
  /-- the null pointer is returned, and no request was broadcast -/
  | rejected
  /-- the request was broadcast, and `CreateGrid` aborts -/
  | aborted
  /-- the master's registry with the grid, and what was broadcast -/
  | created (after : GridSpace) (requests : List Request)

/-- The request the master sends; the global offset is `IndexArray()`. -/
def gridNewRequest
    (type : PSType) (elmSize dim : Nat) (size : IndexArray)
    (doubleBuffering : Bool) (attr : Int) : RequestNEW where
  type := type
  elmSize := elmSize
  numDims := dim
  size := size
  doubleBuffering := doubleBuffering
  globalOffset _ := 0
  attr := attr

/-- `__PSGridNewMPI` with the null pointer as the global offset -/
def psGridNewMPI
    (space : GridSpaceMPI) (registry : GridSpace) (type : PSType)
    (elmSize dim : Nat) (size : IndexArray) (doubleBuffering : Bool)
    (attr : Int) : GridNewOutcome :=
  if IntegerArray.greater size space.globalSize then .rejected
  else
    match Master.step space registry
        (.gridNew (gridNewRequest type elmSize dim size doubleBuffering attr))
      with
    | none => .aborted
    | some (after, requests) => .created after requests

/-- The requested size fits into the grid space in every dimension. -/
def GridSpaceMPI.Fits
    (space : GridSpaceMPI) (dim : Nat) (size : IndexArray) : Prop :=
  ∀ i < dim, size i ≤ space.globalSize i

/-- The element lies in the local subgrid of the object. -/
def Grid.Owns (grid : Grid) (cell : IndexArray) : Prop :=
  ∀ i < grid.numDims,
    grid.localOffset i ≤ cell i ∧ cell i < grid.localOffset i + grid.localSize i

/-- Every element of the requested grid is owned by exactly one rank. -/
def RequestNEW.Covered (space : GridSpaceMPI) (request : RequestNEW) : Prop :=
  ∀ cell,
    RowMajor.InBox space.numDims
        (space.gridSize request.numDims request.size) cell →
      ∃! rank, rank < space.numProcs ∧
        ∀ id, (GridSpace.newGrid space rank request id).Owns cell

/--
Only grids that fit are created: the call succeeds only if the size fits, and
then every element has its owner, and a size that does not fit is rejected
before anything is broadcast.
-/
def OnlyFittingGrids
    (space : GridSpaceMPI) (registry : GridSpace) (type : PSType)
    (elmSize dim : Nat) (size : IndexArray) (doubleBuffering : Bool)
    (attr : Int) : Prop :=
  (∀ after requests,
    psGridNewMPI space registry type elmSize dim size doubleBuffering attr =
        .created after requests →
      space.Fits dim size ∧
        (gridNewRequest type elmSize dim size doubleBuffering attr).Covered
          space) ∧
  (¬ space.Fits dim size →
    psGridNewMPI space registry type elmSize dim size doubleBuffering attr =
      .rejected)

section Outcome

variable
    {space : GridSpaceMPI} {registry : GridSpace} {type : PSType}
    {elmSize dim : Nat} {size : IndexArray} {doubleBuffering : Bool}
    {attr : Int}

/-- A grid that fits at the origin has every element owned. -/
theorem GridSpaceMPI.Fits.covered (fits : space.Fits dim size) :
    (gridNewRequest type elmSize dim size doubleBuffering attr).Covered
      space := by
  have unique :=
    (space.decomposition_unique_ownership dim size (fun _ => 0) fun i below =>
      ⟨le_rfl, by simpa using fits i below⟩).2.2.2
  intro cell inside
  obtain ⟨rank, ⟨bounded, owns⟩, only⟩ := unique cell inside
  exact ⟨rank, ⟨bounded, fun _ => owns⟩,
    fun other owner => only other ⟨owner.1, owner.2 0⟩⟩

/-- The request is rejected exactly if its size is lexicographically greater. -/
theorem psGridNewMPI_rejected_iff :
    psGridNewMPI space registry type elmSize dim size doubleBuffering attr =
        .rejected ↔
      IntegerArray.greater size space.globalSize = true := by
  rw [psGridNewMPI]
  split
  · rename_i greater
    simp [greater]
  · rename_i notGreater
    refine ⟨fun impossible => ?_, fun greater => absurd greater notGreater⟩
    split at impossible <;> cases impossible

end Outcome

/--
Only grids that fit are created, exactly for the sizes that fit and for those
that are larger in the first dimension in which they differ from the space.
-/
theorem only_fitting_grids_iff
    (space : GridSpaceMPI) (registry : GridSpace) (type : PSType)
    (elmSize dim : Nat) (size : IndexArray) (doubleBuffering : Bool)
    (attr : Int) :
    OnlyFittingGrids space registry type elmSize dim size doubleBuffering
        attr ↔
      space.Fits dim size ∨
        ∃ d < psMaxDim, space.globalSize d < size d ∧
          ∀ e < d, space.globalSize e = size e := by
  rw [← IntegerArray.less_iff]
  constructor
  · rintro ⟨-, rejects⟩
    by_cases fits : space.Fits dim size
    · exact .inl fits
    · exact .inr (psGridNewMPI_rejected_iff.mp (rejects fits))
  · rintro (fits | greater)
    · exact ⟨fun _ _ _ => ⟨fits, fits.covered⟩, fun unfit => absurd fits unfit⟩
    · have rejected :
          psGridNewMPI space registry type elmSize dim size doubleBuffering
            attr = .rejected :=
        psGridNewMPI_rejected_iff.mpr greater
      refine ⟨fun after requests created => ?_, fun _ => rejected⟩
      rw [rejected] at created
      cases created

/-- A 10 × 10 space on one process. -/
def tenByTen : GridSpaceMPI where
  numDims := 2
  globalSize := IntegerArray.mk3 10 10 0
  procSize := IntegerArray.mk3 1 1 0
  globalPos := by decide
  procPos := by decide

/-- A 5 × 100 grid does not fit into that space, and is not rejected. -/
theorem tenByTen_accepts_too_long :
    ¬ OnlyFittingGrids tenByTen GridSpace.initial .psFloat 4 2
        (IntegerArray.mk3 5 100 0) false 0 := by
  rintro ⟨-, rejects⟩
  have unfit : ¬ tenByTen.Fits 2 (IntegerArray.mk3 5 100 0) := by
    intro fits
    exact absurd (fits 1 (by decide)) (by decide)
  have greater := psGridNewMPI_rejected_iff.mp (rejects unfit)
  exact absurd greater (by decide)

end Physis.Runtime
