import Physis.Library.Talks
import Physis.Runtime.GridAccess
import Physis.Runtime.GridNew
import Physis.Runtime.ReferenceRuntime

/-!
# The remote procedure calls of a program

The master executes the main function.  For each call it tells the clients in a
broadcast which one it is, and master and clients exchange what the call needs.
A client listens for the next call as long as it is not told to finalize.

A broadcast is one message to each client, and `MPI_Reduce` one message of each
client to the master.  A receive that gets another kind of message aborts, and so
does a count of bytes that is negative as an `int`.  A client asked for `GridGet` goes
into `LoadSubgrid`, which takes messages of any source and has a model of its own.
-/

namespace Physis.Runtime

open Physis.Library
open Physis.Library.RowMajor
open Physis.Library.Talks
open Physis.Library.Reductions

/-! ## Messages and states -/

/-- `RT_FUNC_KIND` -/
inductive RtFuncKind where
  | funcInvalid
  | funcNew
  | funcDelete
  | funcCopyin
  | funcCopyout
  | funcGet
  | funcSet
  | funcRun
  | funcFinalize
  | funcBarrier
  | funcGridReduce
deriving DecidableEq, Repr

/-- What one send, or one broadcast, transfers. -/
inductive RpcMessage where
  | request (kind : RtFuncKind) (opt : Int)
  | requestNew (request : RequestNEW)
  | int (value : Int)
  | unsigneds (values : List Nat)
  | bytes (object : StencilObject)
  | reduceOp (op : PSReduceOp)
  | indexArray (value : IndexArray)
  | cells (payload : List ℚ)
  | element (value : ℚ)
  | barrier

namespace RpcMessage

/-! What a receive gets; another kind of message is an abort. -/

def asRequest : RpcMessage → Option (RtFuncKind × Int)
  | .request kind opt => some (kind, opt)
  | _ => none

def asRequestNew : RpcMessage → Option RequestNEW
  | .requestNew new => some new
  | _ => none

def asInt : RpcMessage → Option Int
  | .int value => some value
  | _ => none

/-- So many values -/
def asUnsigneds (count : Int) : RpcMessage → Option (List Nat)
  | .unsigneds values => if values.length = count then some values else none
  | _ => none

/-- So many bytes -/
def asBytes (size : Nat) : RpcMessage → Option StencilObject
  | .bytes object => if object.length = size then some object else none
  | _ => none

def asReduceOp : RpcMessage → Option PSReduceOp
  | .reduceOp op => some op
  | _ => none

def asIndexArray : RpcMessage → Option IndexArray
  | .indexArray value => some value
  | _ => none

/-- So many elements -/
def asCells (count : Nat) : RpcMessage → Option (List ℚ)
  | .cells payload => if payload.length = count then some payload else none
  | _ => none

def asElement : RpcMessage → Option ℚ
  | .element value => some value
  | _ => none

def asBarrier : RpcMessage → Option Unit
  | .barrier => some ()
  | _ => none

end RpcMessage

abbrev RpcTalk := Talk RpcMessage

/-- The registry of a process, and the grids it points to. -/
structure RankState where
  registry : GridSpace
  objects : Nat → GridMPI ℚ

/-- The memory of a process without grids. -/
def noGrid : GridMPI ℚ :=
  .create 0 0 (fun _ => 0) false (fun _ => 0) (fun _ => 0) (fun _ => 0) fun _ _ => 0

namespace RankState

def initial : RankState where
  registry := .initial
  objects _ := noGrid

/-- The grid behind a pointer is another one now. -/
def set (state : RankState) (g : Nat) (grid : GridMPI ℚ) : RankState :=
  { state with objects := Function.update state.objects g grid }

/-- `CreateGrid`, with the memory that `calloc` returns -/
def createGrid (space : GridSpaceMPI) (rank : Nat) (state : RankState) (request : RequestNEW) :
    Option (RankState × Nat) := do
  let (g, registry) ← state.registry.createGrid space rank request
  let grid ← space.createGrid rank request.elmSize request.numDims request.size
    request.doubleBuffering request.globalOffset fun _ _ => 0
  return ({ registry := registry, objects := Function.update state.objects g grid }, g)

end RankState

/--
A run function of the program on a process, with what it sends and receives; it
waits for each message it receives, and names its source.
-/
abbrev StencilFunction := Nat → Int → List StencilObject → RankState → RpcTalk RankState

/-- How `MPI_Reduce` combines the values of the processes. -/
structure MPIReduce where
  reduce : PSReduceOp → List ℚ → ℚ
  combines : ∀ op values, values ≠ [] → Combines (getMPIOp op) values (reduce op values)

/-- `MPI_Reduce` that combines the values by rank. -/
def MPIReduce.byRank : MPIReduce where
  reduce op values := (Reductions.reduce (getMPIOp op) values).getD 0
  combines op values nonempty := by
    cases values with
    | nil => exact absurd rfl nonempty
    | cons first rest => exact combines_foldl first rest

namespace Rpc

open Talk (require receiveAs)

/-- An assertion -/
def check (holds : Bool) : RpcTalk Unit :=
  require (if holds then some () else none)

/-! ## The master -/

namespace Master

variable (space : GridSpaceMPI)

/-- `NotifyCall` -/
def notifyCall (kind : RtFuncKind) (opt : Int) : RpcTalk Unit :=
  broadcast space.numProcs (.request kind opt)

/-- `Master::GridNew` -/
def gridNew (request : RequestNEW) (state : RankState) : RpcTalk (RankState × Nat) := do
  notifyCall space .funcNew 0
  broadcast space.numProcs (.requestNew request)
  require (state.createGrid space 0 request)

/-- `Master::GridDelete` -/
def gridDelete (g : Nat) (state : RankState) : RpcTalk RankState := do
  let grid ← require (state.registry.heap g)
  notifyCall space .funcDelete grid.id
  let registry ← require (state.registry.deleteGrid g)
  return { state with registry := registry }

/-- The body of the loop of `Master::GridCopyin` -/
def copyinClient (grid : GridMPI ℚ) (buf : Int → ℚ) (_ : Unit) (i : Nat) : RpcTalk Unit := do
  let subgridOffset ← receiveAs i RpcMessage.asIndexArray
  let subgridSize ← receiveAs i RpcMessage.asIndexArray
  if getLinearSize grid.elmSize grid.numDims subgridSize = 0 then return ()
  check (endsAtSize grid.elmSize grid.numDims subgridSize)
  let gsize ← require (byteCount grid.elmSize grid.numDims subgridSize)
  let cells := copyoutSubgrid grid.numDims buf grid.size subgridOffset subgridSize
  .send i (.cells (cells.take (gsize / grid.elmSize))) (.ret ())

/-- `Master::GridCopyin` -/
def gridCopyin (g : Nat) (buf : Int → ℚ) (state : RankState) : RpcTalk RankState := do
  let grid ← require (state.registry.heap g)
  let own := state.objects g
  check (fillsBuffer own.elmSize own.numDims own.localSize)
  check (endsAtSize own.elmSize own.numDims own.localSize)
  let filled := Runtime.Master.gridCopyinLocal own buf
  notifyCall space .funcCopyin grid.id
  (List.range' 1 (space.numProcs - 1)).foldlM (copyinClient filled buf) ()
  return state.set g filled

/-- The body of the loop of `Master::GridCopyout`, with the array and `sbuf` -/
def copyoutClient (grid : GridMPI ℚ) (bufs : (Int → ℚ) × (Int → ℚ)) (i : Nat) :
    RpcTalk ((Int → ℚ) × (Int → ℚ)) := do
  let subgridOffset ← receiveAs i RpcMessage.asIndexArray
  let subgridSize ← receiveAs i RpcMessage.asIndexArray
  if getLinearSize grid.elmSize grid.numDims subgridSize = 0 then return bufs
  let gsize ← require (byteCount grid.elmSize grid.numDims subgridSize)
  let payload ← receiveAs i (RpcMessage.asCells (gsize / grid.elmSize))
  let sbuf := overwrite bufs.2 payload
  check (endsAtSize grid.elmSize grid.numDims subgridSize)
  return (copyinSubgrid grid.numDims bufs.1 grid.size sbuf subgridOffset subgridSize, sbuf)

/-- `Master::GridCopyout`: the elements of the array -/
def gridCopyout (g : Nat) (buf : Int → ℚ) (state : RankState) : RpcTalk (List ℚ) := do
  let grid ← require (state.registry.heap g)
  let own := state.objects g
  check (own.empty || endsAtSize own.elmSize own.numDims own.localSize)
  let filled := Runtime.Master.gridCopyoutLocal own buf
  notifyCall space .funcCopyout grid.id
  let bufs ← (List.range' 1 (space.numProcs - 1)).foldlM (copyoutClient own)
    (filled, fun _ => 0)
  return elements bufs.1 (IntegerArray.accumulate own.size own.numDims)

/-- `Master::GridSet` -/
def gridSet (g : Nat) (index : IndexArray) (value : ℚ) (state : RankState) :
    RpcTalk RankState := do
  let grid ← require (state.registry.heap g)
  let peerRank ← require (space.findOwnerProcess (state.objects g) index)
  if peerRank ≠ 0 then
    notifyCall space .funcSet peerRank
    .send peerRank (.int grid.id) (.send peerRank (.indexArray index)
      (.send peerRank (.element value) (.ret state)))
  else
    let written ← require ((state.objects g).set index value)
    return state.set g written

/-- `Master::GridReduce`, with `MPI_Reduce` on the root -/
def gridReduce (mpi : MPIReduce) (g : Nat) (op : PSReduceOp) (state : RankState) : RpcTalk ℚ := do
  let grid ← require (state.registry.heap g)
  notifyCall space .funcGridReduce grid.id
  broadcast space.numProcs (.reduceOp op)
  let own ← require ((state.objects g).reductionValue grid.type op)
  let others ← gather space.numProcs RpcMessage.asElement
  return mpi.reduce op (own :: others)

/-- `Master::StencilRun` -/
def stencilRun (functions : Nat → Option StencilFunction) (id : Nat) (iter : Int)
    (stencils : List StencilObject) (state : RankState) : RpcTalk RankState := do
  notifyCall space .funcRun id
  broadcast space.numProcs (.int iter)
  broadcast space.numProcs (.int stencils.length)
  broadcast space.numProcs (.unsigneds (stencils.map List.length))
  stencils.foldlM (fun _ stencil => do
    let _ ← require (BufferHost.mpiCount stencil.length)
    broadcast space.numProcs (.bytes stencil)) ()
  let function ← require (functions id)
  function 0 iter stencils state

/-- `Master::Barrier` -/
def barrier : RpcTalk Unit := do
  notifyCall space .funcBarrier 0
  let _ ← gather space.numProcs RpcMessage.asBarrier
  broadcast space.numProcs .barrier

end Master

/-! ## The clients -/

namespace Client

variable (space : GridSpaceMPI) (rank : Nat) (state : RankState)

/-- `Client::GridNew` -/
def gridNew : RpcTalk RankState := do
  let request ← receiveAs 0 RpcMessage.asRequestNew
  let (after, _) ← require (state.createGrid space rank request)
  return after

/-- `Client::GridDelete` -/
def gridDelete (id : Int) : RpcTalk RankState := do
  let registry ← require (state.registry.deleteGridId id)
  return { state with registry := registry }

/-- `Client::GridCopyin` -/
def gridCopyin (id : Int) : RpcTalk RankState := do
  let g ← require (state.registry.findGrid id)
  let grid := state.objects g
  .send 0 (.indexArray grid.localOffset) (.send 0 (.indexArray grid.localSize) (do
    if grid.empty then return state
    let count ← require (byteCount grid.elmSize grid.numDims grid.localSize)
    let payload ← receiveAs 0 (RpcMessage.asCells (count / grid.elmSize))
    return state.set g (grid.withCells payload)))

/-- `Client::GridCopyout` -/
def gridCopyout (id : Int) : RpcTalk RankState := do
  let g ← require (state.registry.findGrid id)
  let grid := state.objects g
  .send 0 (.indexArray grid.localOffset) (.send 0 (.indexArray grid.localSize) (do
    if grid.empty then return state
    let count ← require (byteCount grid.elmSize grid.numDims grid.localSize)
    .send 0 (.cells (grid.localCells.take (count / grid.elmSize))) (.ret state)))

/-- `Client::GridSet` -/
def gridSet (id : Int) : RpcTalk RankState := do
  if id ≠ rank then return state
  let gid ← receiveAs 0 RpcMessage.asInt
  let g ← require (state.registry.findGrid gid)
  let index ← receiveAs 0 RpcMessage.asIndexArray
  let buf ← receiveAs 0 RpcMessage.asElement
  let written ← require ((state.objects g).set index buf)
  return state.set g written

/-- `Client::GridReduce`, with `MPI_Reduce` on another process than the root -/
def gridReduce (id : Int) : RpcTalk RankState := do
  let g ← require (state.registry.findGrid id)
  let grid ← require (state.registry.heap g)
  let op ← receiveAs 0 RpcMessage.asReduceOp
  let value ← require ((state.objects g).reductionValue grid.type op)
  .send 0 (.element value) (.ret state)

/-- The loop of `Client::StencilRun` that receives the stencil objects -/
def receiveStencils (stencilSizes : List Nat) : RpcTalk (List StencilObject) :=
  stencilSizes.foldlM
    (fun stencils size => do
      let _ ← require (BufferHost.mpiCount size)
      return stencils ++ [← receiveAs 0 (RpcMessage.asBytes size)]) []

/-- `Client::StencilRun` -/
def stencilRun (functions : Nat → Option StencilFunction) (id : Int) : RpcTalk RankState := do
  let iter ← receiveAs 0 RpcMessage.asInt
  let numStencils ← receiveAs 0 RpcMessage.asInt
  let stencilSizes ← receiveAs 0 (RpcMessage.asUnsigneds numStencils)
  let stencils ← receiveStencils stencilSizes
  let function ← require (functions id.toNat)
  function rank iter stencils state

/-- `Client::Barrier` -/
def barrier : RpcTalk RankState :=
  .send 0 .barrier (do
    receiveAs 0 RpcMessage.asBarrier
    return state)

end Client

/-! ## Sessions -/

/-- Where a process is between two calls, or when it has finalized. -/
inductive Outcome where
  | returned (state : RankState) (results : List ApiResult)
  | listening (state : RankState)
  /-- in `Client::GridGet`, at the call of `LoadSubgrid` -/
  | getting (state : RankState) (g : Nat)
  | exited (state : RankState)

section Session

variable (space : GridSpaceMPI) (mpi : MPIReduce) (functions : Nat → Option StencilFunction)

/-- What `Client::Listen` does with a request -/
def Client.serve (rank : Nat) (state : RankState) (opt : Int) : RtFuncKind → RpcTalk Outcome
  | .funcFinalize => .ret (.exited state)
  | .funcBarrier => do return .listening (← Client.barrier state)
  | .funcNew => do return .listening (← Client.gridNew space rank state)
  | .funcDelete => do return .listening (← Client.gridDelete state opt)
  | .funcCopyin => do return .listening (← Client.gridCopyin state opt)
  | .funcCopyout => do return .listening (← Client.gridCopyout state opt)
  | .funcSet => do return .listening (← Client.gridSet rank state opt)
  | .funcRun => do return .listening (← Client.stencilRun rank state functions opt)
  | .funcGet => do return .getting state (← require (state.registry.findGrid opt))
  | .funcGridReduce => do return .listening (← Client.gridReduce state opt)
  | .funcInvalid => .fail

/-- An iteration of `Client::Listen` -/
def Client.listen (rank : Nat) (state : RankState) : RpcTalk Outcome := do
  let (kind, opt) ← receiveAs 0 RpcMessage.asRequest
  Client.serve space functions rank state opt kind

/-- A client that has served a request listens again. -/
def again (rank : Nat) : Outcome → Option (RpcTalk Outcome)
  | .listening state => some (Client.listen space functions rank state)
  | .returned _ _ | .getting _ _ | .exited _ => none

/-- A call of the program's main function on the master -/
def Master.call (state : RankState) : ApiCall → RpcTalk (RankState × ApiResult)
  | .gridNew type elmSize numDims size doubleBuffering attr =>
      -- `__PSGridNewMPI` returns the null pointer without a request
      if IntegerArray.greater size space.globalSize then return (state, .null)
      else do
        let (after, g) ← Master.gridNew space
          (gridNewRequest type elmSize numDims size doubleBuffering attr) state
        return (after, .grid g)
  | .gridFree g => do return (← Master.gridDelete space g state, .returned)
  | .gridCopyin g buf => do return (← Master.gridCopyin space g buf state, .returned)
  | .gridCopyout g => do
      return (state, .array (← Master.gridCopyout space g (fun _ => 0) state))
  | .gridSet g index value => do
      return (← Master.gridSet space g index value state, .returned)
  | .reduceGrid g op => do return (state, .value (← Master.gridReduce space mpi g op state))
  | .stencilRun id iter stencils => do
      return (← Master.stencilRun space functions id iter stencils state, .returned)

/-- The main function on the master, with what its calls have returned -/
def Master.session : ApiProgram → RankState → List ApiResult → RpcTalk Outcome
  | .finalize, state, results => do
      Master.notifyCall space .funcFinalize 0
      return .returned state results
  | .call first next, state, results => do
      let (after, result) ← Master.call space mpi functions state first
      Master.session (next result) after (results ++ [result])

/-- The master at the beginning of the main function, and the clients listening. -/
def session (program : ApiProgram) : Nat → RpcTalk Outcome :=
  parties space.numProcs (Master.session space mpi functions program .initial [])
    fun rank => Client.listen space functions rank .initial

end Session

end Rpc

end Physis.Runtime
