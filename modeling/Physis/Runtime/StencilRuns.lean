import Physis.Runtime.ExchangeEntry
import Physis.Runtime.HaloIterations
import Physis.Runtime.LoadReuse
import Physis.Runtime.LoadSubgridRegion
import Physis.Translator.RemoteRegions

/-!
# Runs of several maps

The body of a run loops over the iterations, and in each over the maps: a map's
loads, its kernel, the swaps of the grids the kernel writes, and the end of the
use of its remote grids.  Every process goes through these statements at its own
pace.  Nothing but the messages of the loads holds it back.

Each load has its messages here.  In an exchange a process takes as many messages
of a neighbour as that neighbour sends it, so none of them is left to a later load.
In `LoadSubgrid` a process listens to all others, and one that has returned from it
may have gone on to a later load: its message is taken for one of this load, and
nothing is said about what follows.
-/

namespace Physis.Runtime

open Physis.Library
open Physis.Library.RowMajor
open Physis.Library.Networks
open Physis.Translator

variable {α : Type}

/-! ## Maps and statements -/

/-- A map that the translator accepts, with the loads it emits for it. -/
structure StencilMap (α : Type) where
  numDims : Nat
  params : List MapParam
  loads : List LoadStatement
  generated : generateLoadRemoteGridRegion numDims params = some loads
  /-- what the kernels of a process emit into a grid, with the parts it has of all grids -/
  emitted : Nat → (Nat → GridMPI α) → Nat → Int → Option α
  /-- what the kernels of a single process emit into a grid, with the arrays it has -/
  kernel : (Nat → Int → α) → Nat → Int → Option α

/-- The grids of the parameters for which `isGridParamModified` holds. -/
def StencilMap.writtenGrids (map : StencilMap α) : List Nat :=
  (map.params.filter fun param => param.isWritten).map fun param => param.grid

/-- A statement of the body, with the value of `i` where it is executed. -/
inductive RunStatement (α : Type) where
  | load (statement : LoadStatement) (i : Nat)
  | runKernel (map : StencilMap α)
  | gridSwap (grid : Nat)
  | activateRemoteGrid (grid : Nat) (active : Bool)

/-- `ProcessStencilMap`: what it appends to the loop body. -/
def StencilMap.statements (map : StencilMap α) (i : Nat) : List (RunStatement α) :=
  map.loads.map (fun statement => .load statement i) ++
    .runKernel map :: (map.writtenGrids.map .gridSwap ++
      (map.loads.filterMap LoadStatement.remoteGrid).map
        fun grid => .activateRemoteGrid grid false)

/-- One iteration of the loop. -/
def runIteration (maps : List (StencilMap α)) (i : Nat) : List (RunStatement α) :=
  maps.flatMap fun map => map.statements i

/-- `BuildRunBody`, with the loop unfolded. -/
def runBody (maps : List (StencilMap α)) (iter : Nat) : List (RunStatement α) :=
  (List.range iter).flatMap (runIteration maps)

/-- The statement changes elements of the grid. -/
def RunStatement.Writes (grid : Nat) : RunStatement α → Prop
  | .load _ _ => False
  | .runKernel map => grid ∈ map.writtenGrids
  | .gridSwap other => other = grid
  | .activateRemoteGrid _ _ => False

/-! ## A single process -/

/-- A grid of a single process: its two data buffers, and which of them is read. -/
structure WholeGrid (α : Type) where
  dataBuffer : Nat → Int → α
  dataId : Nat → Nat

namespace WholeGrid

variable (whole : WholeGrid α)

/-- `_data()` -/
def data : Int → α :=
  whole.dataBuffer (whole.dataId 0)

/-- A kernel emits values into `_data_emit()`. -/
def emit (emitted : Int → Option α) : WholeGrid α :=
  { whole with
    dataBuffer := Function.update whole.dataBuffer (whole.dataId 1) fun position =>
      (emitted position).getD (whole.dataBuffer (whole.dataId 1) position) }

/-- `Grid::Swap` -/
def swap : WholeGrid α :=
  { whole with
    dataId := fun i =>
      if i = 0 then whole.dataId 1
      else if i = 1 then whole.dataId 0
      else whole.dataId i }

end WholeGrid

/-- What a statement does in a single process, where there is nothing to load. -/
def RunStatement.single (wholes : Nat → WholeGrid α) : RunStatement α → Nat → WholeGrid α
  | .load _ _ => wholes
  | .runKernel map => fun grid =>
      if grid ∈ map.writtenGrids then
        (wholes grid).emit (map.kernel (fun other => (wholes other).data) grid)
      else wholes grid
  | .gridSwap grid => Function.update wholes grid (wholes grid).swap
  | .activateRemoteGrid _ _ => wholes

/-- The grids of a single process after some statements. -/
def singleRun (program : List (RunStatement α)) (wholes : Nat → WholeGrid α) :
    Nat → WholeGrid α :=
  program.foldl RunStatement.single wholes

/-! ## Several processes -/

/-- The grids of all processes, by grid and rank. -/
abbrev RunGrids (α : Type) := Nat → Nat → GridMPI α

/-- A kernel emits values into `_data_emit()`. -/
def GridMPI.emit (grid : GridMPI α) (emitted : Int → Option α) : GridMPI α :=
  { grid with
    dataBuffer := Function.update grid.dataBuffer (grid.dataId 1) fun position =>
      (emitted position).getD (grid.dataBuffer (grid.dataId 1) position) }

/-- What a statement without messages makes of the grids of a process. -/
def RunStatement.perform
    (rank : Nat) (grids : Nat → GridMPI α) : RunStatement α → Option (Nat → GridMPI α)
  | .load _ _ => none
  | .runKernel map => some fun grid =>
      if grid ∈ map.writtenGrids then (grids grid).emit (map.emitted rank grids grid)
      else grids grid
  | .gridSwap grid => some (Function.update grids grid (grids grid).swap)
  | .activateRemoteGrid grid active =>
      some (Function.update grids grid { grids grid with remoteGridActive := active })

/-- A process: its parts of the grids, and how many statements are behind it. -/
structure RunProcess (α : Type) where
  grids : Nat → GridMPI α
  position : Nat
  /-- whether it has entered the load at its position -/
  inLoad : Bool

/-- The processes, and each load with its messages, by the position of its statement. -/
structure RunState (α : Type) where
  process : Nat → RunProcess α
  exchange : Nat → ExchangeState α
  load : Nat → LoadState α

namespace RunState

/-- Before the run; the buffers of the processes hold whatever they hold. -/
def start (grids : RunGrids α) (bufs : Nat → Nat → Int → α) : RunState α where
  process rank := ⟨fun grid => grids grid rank, 0, false⟩
  exchange _ := HaloExchange.start (grids 0)
  load position := LoadState.start (grids 0) (bufs position)

variable (state : RunState α) (rank : Nat)

/-- The statement a process is at. -/
def next (program : List (RunStatement α)) : Option (RunStatement α) :=
  program[(state.process rank).position]?

/-- The process has come to the load at a position. -/
def entered (position rank : Nat) : Bool :=
  decide (position < (state.process rank).position) ||
    (decide (position = (state.process rank).position) && (state.process rank).inLoad)

/-- A process enters the load it is at. -/
def enter : RunState α :=
  { state with
    process := Function.update state.process rank
      { state.process rank with inLoad := true } }

/-- A process has its statement behind it. -/
def proceed (grids : Nat → GridMPI α) : RunState α :=
  { state with
    process := Function.update state.process rank
      ⟨grids, (state.process rank).position + 1, false⟩ }

/-- A process has sent something to another in a load after the one at a position. -/
def SentLater (position source target : Nat) : Prop :=
  ∃ later, position < later ∧
    ((state.exchange later).sent source target ≠ [] ∨
      (state.load later).queue source target ≠ [])

end RunState

/-- Whether a process takes a message of a later load. -/
inductive RunEvent where
  | foreignMessage
  | other
deriving DecidableEq, Repr

/--
A process performs its statement, or goes on in the load it is at.
`__PSLoadSubgrid` is not implemented and aborts, so there is no way past it.
-/
inductive RunStep
    (space : GridSpaceMPI) (program : List (RunStatement α)) (state : RunState α) :
    RunEvent → RunState α → Prop
  | perform (rank : Nat) (statement : RunStatement α) (grids : Nat → GridMPI α)
      (bounded : rank < space.numProcs)
      (next : state.next rank program = some statement)
      (performed : statement.perform rank (state.process rank).grids = some grids) :
      RunStep space program state .other (state.proceed rank grids)
  | enterExchange (rank grid : Nat) (offsetMin offsetMax : IndexArray)
      (diagonal periodic : Bool) (reuse : ReuseArgument) (i : Nat)
      (bounded : rank < space.numProcs)
      (next : state.next rank program =
        some (.load (.loadNeighbor grid offsetMin offsetMax diagonal reuse periodic) i))
      (outside : (state.process rank).inLoad = false)
      (path : space.loadNeighbor ((state.process rank).grids grid) offsetMin offsetMax
        diagonal periodic =
          some (.exchangeBoundaries (neighborExchange offsetMin offsetMax diagonal periodic))) :
      RunStep space program state .other { state.enter rank with
        exchange := Function.update state.exchange (state.process rank).position
          (HaloExchange.enter (state.exchange (state.process rank).position) rank
            ((state.process rank).grids grid)) }
  | goExchange (rank grid : Nat) (offsetMin offsetMax : IndexArray)
      (diagonal periodic : Bool) (reuse : ReuseArgument) (i : Nat) (after : ExchangeState α)
      (bounded : rank < space.numProcs)
      (next : state.next rank program =
        some (.load (.loadNeighbor grid offsetMin offsetMax diagonal reuse periodic) i))
      (inside : (state.process rank).inLoad = true)
      (step : (neighborExchange offsetMin offsetMax diagonal periodic).step space rank
        (state.exchange (state.process rank).position) = some after) :
      RunStep space program state .other { state with
        exchange := Function.update state.exchange (state.process rank).position after }
  | leaveExchange (rank grid : Nat) (offsetMin offsetMax : IndexArray)
      (diagonal periodic : Bool) (reuse : ReuseArgument) (i : Nat)
      (bounded : rank < space.numProcs)
      (next : state.next rank program =
        some (.load (.loadNeighbor grid offsetMin offsetMax diagonal reuse periodic) i))
      (inside : (state.process rank).inLoad = true)
      (done : ((state.exchange (state.process rank).position).process rank).todo = []) :
      RunStep space program state .other (state.proceed rank
        (Function.update (state.process rank).grids grid
          ((state.exchange (state.process rank).position).process rank).grid))
  | enterSubgrid (rank grid : Nat) (call : SubgridCall) (reuse : ReuseArgument) (i : Nat)
      (own : LoadCall α) (bounded : rank < space.numProcs)
      (next : state.next rank program = some (.load (.loadSubgridUniqueDim grid call reuse) i))
      (outside : (state.process rank).inLoad = false)
      (region : psLoadSubgrid ((state.process rank).grids grid) call =
        some (own.gridOffset, own.gridSize))
      (flag : own.reuse = reuse.value i) :
      RunStep space program state .other { state.enter rank with
        load := Function.update state.load (state.process rank).position
          (Network.advance (state.load (state.process rank).position) rank
            (LoadProcess.enter space rank own
              { (state.load (state.process rank).position).process rank with
                grid := (state.process rank).grids grid })) }
  | goSubgrid (rank grid : Nat) (call : SubgridCall) (reuse : ReuseArgument) (i : Nat)
      (after : LoadState α) (bounded : rank < space.numProcs)
      (next : state.next rank program = some (.load (.loadSubgridUniqueDim grid call reuse) i))
      (inside : (state.process rank).inLoad = true)
      (step : Network.Step (LoadProcess.effect space) rank
        (state.load (state.process rank).position) after) :
      RunStep space program state .other { state with
        load := Function.update state.load (state.process rank).position after }
  | leaveSubgrid (rank grid : Nat) (call : SubgridCall) (reuse : ReuseArgument) (i : Nat)
      (bounded : rank < space.numProcs)
      (next : state.next rank program = some (.load (.loadSubgridUniqueDim grid call reuse) i))
      (inside : (state.process rank).inLoad = true)
      (returned : (state.load (state.process rank).position).Returned rank) :
      RunStep space program state .other (state.proceed rank
        (Function.update (state.process rank).grids grid
          ((state.load (state.process rank).position).process rank).grid))
  | takeForeign (rank source grid : Nat) (call : SubgridCall) (reuse : ReuseArgument)
      (i : Nat) (handle : LoadMessage α → LoadProcess α) (after : RunState α)
      (bounded : rank < space.numProcs)
      (next : state.next rank program = some (.load (.loadSubgridUniqueDim grid call reuse) i))
      (inside : (state.process rank).inLoad = true)
      (listens : ((state.load (state.process rank).position).process rank).effect space rank =
        .receive none handle)
      (nothing : (state.load (state.process rank).position).queue source rank = [])
      (later : state.SentLater (state.process rank).position source rank) :
      -- the message is of another load, and anything may follow
      RunStep space program state .foreignMessage after

/-- A step in which no process takes a message of a later load. -/
def OwnStep (space : GridSpaceMPI) (program : List (RunStatement α))
    (state after : RunState α) : Prop :=
  ∃ event, RunStep space program state event after ∧ event ≠ .foreignMessage

/-! ## What a kernel reads -/

/-- The elements of a part of a grid are those of a single process. -/
structure GridMPI.PartOf
    (numDims : Nat) (size : IndexArray) (part : GridMPI α) (whole : WholeGrid α) : Prop where
  ids : ∀ i < 2, part.dataId i = whole.dataId i
  cells : ∀ i < 2, ∀ index, InBox numDims part.localSize index →
    part.dataBuffer (part.dataId i) (linear part.localSize index numDims) =
      whole.dataBuffer (whole.dataId i)
        (linear size (fun d => part.localOffset d + index d) numDims)

/-- The value at an index in the remote grid if it is active, else in the process's own data. -/
def GridMPI.Finds (space : GridSpaceMPI) (part : GridMPI α) (cell : IndexArray) (value : α) :
    Prop :=
  match part.remoteGridActive with
  | true => ∃ remote, part.remoteGrid = some remote ∧
      space.InRegion remote.localOffset remote.localSize cell ∧
        remote.data (linear remote.localSize (fun d => cell d - remote.localOffset d)
          space.numDims) = value
  | false =>
      InBox space.numDims part.localSize (fun d => cell d - part.localOffset d) ∧
        part.data (linear part.localSize (fun d => cell d - part.localOffset d)
          space.numDims) = value

/-- What a load of a grid is for: the kernels find what a single process has. -/
def LoadStatement.Loaded
    (space : GridSpaceMPI) (size : IndexArray) (part : GridMPI α) (array : Int → α) :
    LoadStatement → Prop
  | .loadNeighbor _ offsetMin offsetMax diagonal _ periodic =>
      part.empty = false → ∀ index, InBox space.numDims part.localSize index →
        ∀ offset, StencilOffset space.numDims offsetMin offsetMax diagonal offset →
          ∀ cell, cell = (neighborExchange offsetMin offsetMax diagonal periodic).globalIndex
              part (fun d => index d + offset d) →
            InBox space.numDims size cell →
              part.Resident diagonal (fun d => index d + offset d)
                (array (linear size cell space.numDims))
  | .loadSubgridUniqueDim _ call _ =>
      ∀ gridOffset gridSize, psLoadSubgrid part call = some (gridOffset, gridSize) →
        ∀ cell, space.InRegion gridOffset gridSize cell →
          part.Finds space cell (array (linear size cell space.numDims))
  | .loadSubgrid _ _ _ => False

/-- Whatever is read through a parameter is what a single process reads. -/
structure MapParam.ReadsSingle
    (space : GridSpaceMPI) (size : IndexArray) (mapDims : Nat) (param : MapParam)
    (part : GridMPI α) (array : Int → α) : Prop where
  loaded : ∀ statements, param.loadStatements mapDims = some statements →
    ∀ statement ∈ statements, LoadStatement.Loaded space size part array statement
  own : param.loadsSubgrid mapDims = false → part.remoteGridActive = false ∧
    ∀ index, InBox space.numDims part.localSize index →
      part.data (linear part.localSize index space.numDims) =
        array (linear size (fun d => part.localOffset d + index d) space.numDims)

/-- The kernels of a process emit what those of a single process do if they read the same. -/
def StencilMap.Computes
    (space : GridSpaceMPI) (elmSize : Nat → Nat) (size : Nat → IndexArray)
    (map : StencilMap α) : Prop :=
  ∀ rank < space.numProcs, ∀ (grids : Nat → GridMPI α) (arrays : Nat → Int → α),
    (∀ grid, Decomposed space (elmSize grid) (size grid) (fun _ => 0) rank (grids grid)) →
    (∀ param ∈ map.params, param.isRead = true →
      MapParam.ReadsSingle space (size param.grid) map.numDims param (grids param.grid)
        (arrays param.grid)) →
    ∀ grid ∈ map.writtenGrids, ∀ index, InBox space.numDims (grids grid).localSize index →
      map.emitted rank grids grid (linear (grids grid).localSize index space.numDims) =
        map.kernel arrays grid
          (linear (size grid) (fun d => (grids grid).localOffset d + index d) space.numDims)

end Physis.Runtime
