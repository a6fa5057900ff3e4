import Physis.Runtime.GridCopy
import Physis.Runtime.LoadProgress

/-!
# Element access from the master

`GridSet` writes one element on the process that owns it; `GridGet` loads it
with `LoadSubgrid` and reads it from wherever `GetAddress` finds it then.
A remote grid that is active answers every address, and stays active.
-/

namespace Physis.Runtime

open Physis.Library
open Physis.Library.RowMajor
open Physis.Library.Determinacy
open Physis.Library.Runs

variable {α : Type}

/-! ## Addresses -/

/-- The memory `GetAddress` points into, and the position there. -/
inductive GridAddress where
  | remote (position : Int)
  | halo (dir : Dir) (dim : Nat) (position : Int)
  | data (position : Int)
deriving DecidableEq, Repr

namespace GridMPI

variable (grid : GridMPI α)

/-- The branch of `GetAddress` for coordinate `i` outside the local subgrid. -/
def haloAddress (indices : IndexArray) (i : Nat) : GridAddress :=
  -- the loop over the later dimensions moves coordinate `i` itself each time
  let moved := if grid.haloHasDiagonal then
      indices i + ((psMaxDim - (i + 1)) * grid.haloWidth .bw i : Nat)
    else indices i
  if moved < 0 then
    .halo .bw i (gridCalcOffset3D
      (Function.update indices i (moved + (grid.haloWidth .bw i : Nat)))
      (grid.haloSize .bw i))
  else
    .halo .fw i (gridCalcOffset3D
      (Function.update indices i (moved - grid.localSize i))
      (grid.haloSize .fw i))

/-- `GridMPI::GetAddress`; none where it would dereference no remote grid. -/
def getAddress (indicesParam : IndexArray) : Option GridAddress :=
  if grid.remoteGridActive then
    grid.remoteGrid.map fun rmg =>
      .remote (gridCalcOffset3D (fun i => indicesParam i - rmg.localOffset i)
        rmg.localSize)
  else
    let indices : IndexArray := fun i => indicesParam i - grid.localOffset i
    match (List.range grid.numDims).find? fun i =>
        decide (indices i < 0) || decide (grid.localSize i ≤ indices i) with
    | some i => some (grid.haloAddress indices i)
    | none => some (.data (gridCalcOffset3D indices grid.localSize))

/-- The element at an address. -/
def readAddress : GridAddress → Option α
  | .remote position => grid.remoteGrid.map fun rmg => rmg.data position
  | .halo dir dim position => some (grid.haloPeer dir dim position)
  | .data position => some (grid.data position)

/-- The grid after an element is written at an address. -/
def writeAddress (value : α) : GridAddress → GridMPI α
  | .remote position =>
      { grid with
        remoteGrid := grid.remoteGrid.map fun rmg =>
          { rmg with data := Function.update rmg.data position value } }
  | .halo dir dim position =>
      { grid with
        haloPeer := Function.update grid.haloPeer dir
          (Function.update (grid.haloPeer dir) dim
            (Function.update (grid.haloPeer dir dim) position value)) }
  | .data position =>
      { grid with
        dataBuffer := Function.update grid.dataBuffer (grid.dataId 0)
          (Function.update grid.data position value) }

/-- `Grid::Get` -/
def get (indices : IndexArray) : Option α :=
  (grid.getAddress indices).bind grid.readAddress

/-- `Grid::Set` -/
def set (indices : IndexArray) (value : α) : Option (GridMPI α) :=
  (grid.getAddress indices).map (grid.writeAddress value)

end GridMPI

/-! ## The calls of the master -/

/-- `FindOwnerProcess`; none where its assertion fails. -/
def GridSpaceMPI.findOwnerProcess
    (space : GridSpaceMPI) (grid : GridMPI α) (index : IndexArray) : Option Nat :=
  match space.collectPerProcSubgridInfo grid.globalOffset index fun _ => 1 with
  | [info] => some (space.peerRank info)
  | _ => none

/-- What the processes call `LoadSubgrid` with for `GridGet`. -/
def gridGetCall (index : IndexArray) (memory : Int → α) (rank : Nat) : LoadCall α where
  gridOffset := if rank = 0 then index else fun _ => 0
  gridSize := if rank = 0 then fun _ => 1 else fun _ => 0
  reuse := false
  memory := memory

/-- A call of the master on one grid. -/
inductive MasterCall (α : Type) where
  | gridSet (index : IndexArray) (value : α)
  | gridGet (index : IndexArray)
  | gridCopyin (buf : Int → α)
  | gridCopyout

/-! ## The grid as a map -/

namespace MasterCall

variable (numDims : Nat) (size : IndexArray)

/-- An index is inside the grid, and zero beyond its dimensions. -/
def Valid : MasterCall α → Prop
  | .gridSet index _ => InBox numDims size index ∧ ∀ i, numDims ≤ i → index i = 0
  | .gridGet index => InBox numDims size index ∧ ∀ i, numDims ≤ i → index i = 0
  | .gridCopyin _ => True
  | .gridCopyout => True

/-- The values after a call. -/
def write (contents : IndexArray → α) : MasterCall α → IndexArray → α
  | .gridSet index value => fun cell =>
      if ∀ i < numDims, cell i = index i then value else contents cell
  | .gridCopyin buf => fun cell => buf (linear size cell numDims)
  | .gridGet _ => contents
  | .gridCopyout => contents

end MasterCall

end Physis.Runtime
