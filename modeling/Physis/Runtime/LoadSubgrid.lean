import Physis.Library.Networks
import Physis.Runtime.FetchInfo

/-!
# `LoadSubgrid` as a process

Every process calls `LoadSubgrid` with a region of its own.  It sends a request
to the owner of each piece, and then serves whatever arrives from any source,
requests and replies, until every process has told it that it is done.  Sends
and receives are single steps, so a request or a reply and what follows it are
two messages with anything in between.
-/

namespace Physis.Runtime

open Physis.Library
open Physis.Library.RowMajor
open Physis.Library.Networks

variable {α : Type}

/-- `GRID_REQUEST_KIND` -/
inductive GridRequestKind where
  | invalid
  | done
  | fetchRequest
  | fetchReply
deriving DecidableEq, Repr

/-- `GridRequest` -/
structure GridRequest where
  myRank : Nat
  kind : GridRequestKind
deriving DecidableEq, Repr

/-- The messages of `LoadSubgrid`, all with the same tag. -/
inductive LoadMessage (α : Type) where
  | request (request : GridRequest)
  | fetchInfo (info : FetchInfo)
  | data (payload : List α)

/-- The arguments of `LoadSubgrid` on one process. -/
structure LoadCall (α : Type) where
  gridOffset : IndexArray
  gridSize : IndexArray
  reuse : Bool
  /-- what the memory of a remote grid holds before it is filled -/
  memory : Int → α

/-- Where a process is in `LoadSubgrid`. -/
inductive LoadCounter (α : Type) where
  | outside
  | sendRequests (todo : List FetchInfo)
  | sendInfo (info : FetchInfo) (todo : List FetchInfo)
  | loop
  | sendDones (next : Nat)
  | recvInfo (source : Nat)
  | sendReply (target : Nat) (payload : List α)
  | sendData (target : Nat) (payload : List α)
  | recvData (source : Nat)
  | returned
  | aborted

/-- A process in `LoadSubgrid`: the grid, the space's buffer and the locals. -/
structure LoadProcess (α : Type) where
  grid : GridMPI α
  buf : Int → α
  counter : LoadCounter α
  fetchMap : Nat → Option FetchInfo
  remainingRequests : Int
  doneCount : Nat
  doneSent : Bool

namespace GridMPI

/-- `EnsureRemoteGrid`: created or resized, with whatever its memory holds. -/
def ensureRemoteGrid
    (grid : GridMPI α) (localOffset localSize : IndexArray)
    (memory : Int → α) : GridMPI α :=
  { grid with remoteGrid := some ⟨localOffset, localSize, memory⟩ }

/-- The remote grid, if there is one, is of this very region. -/
def remoteIs (grid : GridMPI α) (gridOffset gridSize : IndexArray) : Bool :=
  match grid.remoteGrid with
  | none => false
  | some remote =>
      (List.range psMaxDim).all fun i =>
        decide (remote.localOffset i = gridOffset i) &&
          decide (remote.localSize i = gridSize i)

end GridMPI

/-- The number of elements of a piece. -/
def FetchInfo.elements (info : FetchInfo) (numDims : Nat) : Nat :=
  (IntegerArray.accumulate info.peerSize numDims).toNat

namespace LoadProcess

variable (space : GridSpaceMPI) (rank : Nat)

/-- `LoadSubgrid` up to the loop that sends the requests. -/
def enter (call : LoadCall α) (process : LoadProcess α) : LoadProcess α :=
  let called := { process with
    fetchMap := fun _ => none
    remainingRequests := 0
    doneCount := 0
    doneSent := false }
  if (List.range psMaxDim).all fun i =>
      decide (0 ≤ call.gridOffset i) && decide (0 ≤ call.gridSize i) then
    match space.collectPerProcSubgridInfo process.grid.globalOffset
        call.gridOffset call.gridSize with
    | [] => { called with counter := .sendRequests [] }
    | info :: rest =>
        if rest.isEmpty && decide (space.peerRank info = rank) then
          -- the region is inside the local grid
          { called with counter := .sendRequests [] }
        else if call.reuse && process.grid.remoteIs call.gridOffset call.gridSize then
          { called with
            grid := { process.grid with remoteGridActive := true }
            counter := .sendRequests [] }
        else
          { called with
            grid := { process.grid.ensureRemoteGrid call.gridOffset call.gridSize
              call.memory with remoteGridActive := true }
            counter := .sendRequests (info :: rest) }
  else { called with counter := .aborted }

/-- The switch over the kind of a request from any source. -/
def dispatch (process : LoadProcess α) : LoadMessage α → LoadProcess α
  | .request request =>
      match request.kind with
      | .done => { process with doneCount := process.doneCount + 1 }
      | .fetchRequest => { process with counter := .recvInfo request.myRank }
      | .fetchReply => { process with counter := .recvData request.myRank }
      | .invalid => { process with counter := .aborted }
  | _ => { process with counter := .aborted }

/-- `HandleFetchRequest` from the request's `FetchInfo` to the packed data. -/
def handleFetchRequest
    (source : Nat) (process : LoadProcess α) : LoadMessage α → LoadProcess α
  | .fetchInfo info =>
      let grid := process.grid
      let payload := copyoutSubgrid space.numDims grid.data grid.localSize
        (fun i => info.peerOffset i - grid.localOffset i) info.peerSize
      { process with
        buf := overwrite process.buf payload
        counter := .sendReply source payload }
  | _ => { process with counter := .aborted }

/-- `HandleFetchReply` once its data arrive; a longer message is an error. -/
def handleFetchReply
    (info : FetchInfo) (process : LoadProcess α) : LoadMessage α → LoadProcess α
  | .data payload =>
      match process.grid.remoteGrid with
      | none => { process with counter := .aborted }
      | some remote =>
          if info.elements space.numDims < payload.length then
            { process with counter := .aborted }
          else
            let buf := overwrite process.buf payload
            { process with
              buf := buf
              grid := { process.grid with
                remoteGrid := some { remote with
                  data := copyinSubgrid space.numDims remote.data remote.localSize
                    buf (fun i => info.peerOffset i - remote.localOffset i)
                    info.peerSize } }
              remainingRequests := process.remainingRequests - 1
              counter := .loop }
  | _ => { process with counter := .aborted }

/-- What a process does next in `LoadSubgrid`. -/
def effect (process : LoadProcess α) :
    Effect (LoadProcess α) (LoadMessage α) :=
  match process.counter with
  | .outside => .stop
  | .returned => .stop
  | .aborted => .stop
  | .sendRequests [] => .silent { process with counter := .loop }
  | .sendRequests (info :: todo) =>
      if info.elements space.numDims = 0 then
        .silent { process with counter := .sendRequests todo }
      else
        .send (space.peerRank info) (.request ⟨rank, .fetchRequest⟩)
          { process with counter := .sendInfo info todo }
  | .sendInfo info todo =>
      .send (space.peerRank info) (.fetchInfo info)
        { process with
          counter := .sendRequests todo
          remainingRequests := process.remainingRequests + 1
          fetchMap :=
            if (process.fetchMap (space.peerRank info)).isNone then
              Function.update process.fetchMap (space.peerRank info) (some info)
            else process.fetchMap }
  | .loop =>
      if process.doneCount = space.numProcs then
        .silent { process with counter := .returned }
      else if process.remainingRequests = 0 ∧ process.doneSent = false then
        .silent { process with counter := .sendDones 0 }
      else .receive none process.dispatch
  | .sendDones next =>
      if next = space.numProcs then
        .silent { process with doneSent := true, counter := .loop }
      else if next = rank then
        .silent
          { process with
            doneCount := process.doneCount + 1
            counter := .sendDones (next + 1) }
      else
        .send next (.request ⟨rank, .done⟩)
          { process with counter := .sendDones (next + 1) }
  | .recvInfo source =>
      .receive (some source) (process.handleFetchRequest space source)
  | .sendReply target payload =>
      .send target (.request ⟨rank, .fetchReply⟩)
        { process with counter := .sendData target payload }
  | .sendData target payload =>
      .send target (.data payload) { process with counter := .loop }
  | .recvData source =>
      let info := (process.fetchMap source).getD
        ⟨fun _ => 0, fun _ => 0, fun _ => 0⟩
      if space.peerRank info = source then
        .receive (some source) (process.handleFetchReply space info)
      else .silent { process with counter := .aborted }

end LoadProcess

/-- One round: all processes call `LoadSubgrid` on the same grid. -/
abbrev LoadState (α : Type) := Network (LoadProcess α) (LoadMessage α)

namespace LoadState

variable (space : GridSpaceMPI) (calls : Nat → LoadCall α)

/-- A process enters, or goes on. -/
inductive Step (state : LoadState α) : LoadState α → Prop
  | enter (rank : Nat) (bounded : rank < space.numProcs)
      (outside : (state.process rank).counter = .outside) :
      Step state (Network.advance state rank
        ((state.process rank).enter space rank (calls rank)))
  | go (rank : Nat) (bounded : rank < space.numProcs) (after : LoadState α)
      (step : Network.Step (LoadProcess.effect space) rank state after) :
      Step state after

/-- Before any process enters; the buffers hold whatever they hold. -/
def start (grids : Nat → GridMPI α) (bufs : Nat → Int → α) : LoadState α where
  process rank :=
    { grid := grids rank
      buf := bufs rank
      counter := .outside
      fetchMap := fun _ => none
      remainingRequests := 0
      doneCount := 0
      doneSent := false }
  sent _ _ := []
  queue _ _ := []

/-- The process has returned from `LoadSubgrid`. -/
def Returned (state : LoadState α) (rank : Nat) : Prop :=
  (state.process rank).counter = .returned

end LoadState

end Physis.Runtime
