import Physis.Runtime.RpcTalks

/-!
# Element accesses from the master

A program accesses the elements of one grid.  Up to the next `GridGet` master and
clients talk as remote procedure calls do, each at its own pace.  A process that
has come to the `GridGet` goes into `LoadSubgrid`, whatever the others are at, and
the master begins its next call as soon as it has returned.

There is no barrier.  If a process is still in `LoadSubgrid` then, it may take for
a request what the next call sends: nothing is said about what follows.
-/

namespace Physis.Runtime

open Physis.Library
open Physis.Library.RowMajor
open Physis.Library.Networks
open Physis.Library.Determinacy
open Physis.Library.Talks

/-! ## Calls and their results -/

namespace MasterCall

/-- A call as a remote procedure call on grid `g`, other than `GridGet` -/
def rpc (g : Nat) : MasterCall ℚ → Option ApiCall
  | .gridSet index value => some (.gridSet g index value)
  | .gridGet _ => none
  | .gridCopyin buf => some (.gridCopyin g buf)
  | .gridCopyout => some (.gridCopyout g)

/-- The calls from the next `GridGet` on -/
def fromGet : List (MasterCall ℚ) → List (MasterCall ℚ)
  | [] => []
  | .gridGet index :: later => .gridGet index :: later
  | .gridSet _ _ :: later | .gridCopyin _ :: later | .gridCopyout :: later => fromGet later

section Map

variable (numDims : Nat) (size : IndexArray)

/-- What a call has to return. -/
def Agrees (contents : IndexArray → ℚ) : MasterCall ℚ → ApiResult → Prop
  | .gridSet _ _, .returned => True
  | .gridGet index, .value element => element = contents index
  | .gridCopyin _, .returned => True
  | .gridCopyout, .array host =>
      ∀ cell, InBox numDims size cell →
        host[(linear size cell numDims).toNat]? = some (contents cell)
  | _, _ => False

end Map

section Owner

variable (space : GridSpaceMPI) (size : IndexArray)

/-- A `GridSet` or `GridGet` of an element of the master -/
def UsesOwn : MasterCall ℚ → Prop
  | .gridSet index _ | .gridGet index => space.Owns 0 size (fun _ => 0) index
  | .gridCopyin _ | .gridCopyout => False

/-- A `GridGet` of an element of another process -/
def LoadsRemote : MasterCall ℚ → Prop
  | .gridGet index => ¬space.Owns 0 size (fun _ => 0) index
  | .gridSet _ _ | .gridCopyin _ | .gridCopyout => False

end Owner

end MasterCall

/-- Every call returns what the calls before it wrote last. -/
def BehavesAsMap
    (numDims : Nat) (size : IndexArray) :
    (IndexArray → ℚ) → List (MasterCall ℚ) → List ApiResult → Prop
  | _, [], [] => True
  | contents, call :: calls, result :: results =>
      call.Agrees numDims size contents result ∧
        BehavesAsMap numDims size (call.write numDims size contents) calls results
  | _, _, _ => False

/-- The master accesses none of its own elements once it has loaded one of another process. -/
def Unobstructed
    (space : GridSpaceMPI) (size : IndexArray) (calls : List (MasterCall ℚ)) : Prop :=
  calls.Pairwise fun call later => call.LoadsRemote space size → ¬later.UsesOwn space size

namespace Rpc

open Talk (require)

/-! ## Sessions -/

/-- The main function up to the next `GridGet`, or to its end, with the results so far. -/
def Master.accesses (space : GridSpaceMPI) (mpi : MPIReduce) (g : Nat) :
    List (MasterCall ℚ) → RankState → List ApiResult → RpcTalk Outcome
  | [], state, results => do
      Master.notifyCall space .funcFinalize 0
      return .returned state results
  | call :: rest, state, results =>
      match call.rpc g with
      | some rpc => do
          let (after, result) ← Master.call space mpi (fun _ => none) state rpc
          Master.accesses space mpi g rest after (results ++ [result])
      | none => do
          let grid ← require (state.registry.heap g)
          Master.notifyCall space .funcGet grid.id
          return .returned state results

/-- The talks up to a `GridGet`, its `LoadSubgrid`, and the calls from it on. -/
structure AccessState where
  talks : Network (RpcTalk Outcome) RpcMessage
  load : LoadState ℚ
  /-- what a new remote grid holds before it is filled -/
  memory : Int → ℚ
  rest : List (MasterCall ℚ)

namespace AccessState

/-- No process has done anything yet for these calls. -/
def start (space : GridSpaceMPI) (mpi : MPIReduce) (g : Nat) (calls : List (MasterCall ℚ))
    (states : Nat → RankState) (results : List ApiResult) (bufs : Nat → Int → ℚ)
    (memory : Int → ℚ) : AccessState where
  talks := Talks.start (parties space.numProcs
    (Master.accesses space mpi g calls (states 0) results)
      fun rank => Client.listen space (fun _ => none) rank (states rank))
  load := LoadState.start (fun _ => noGrid) bufs
  memory := memory
  rest := MasterCall.fromGet calls

/-- The memory of a process at the call of `LoadSubgrid`, and its pointer to the grid. -/
def atLoad (g : Nat) (state : AccessState) (rank : Nat) : Option (RankState × Nat) :=
  match state.talks.process rank with
  | .ret (.returned own _) => some (own, g)
  | .ret (.getting own g) => some (own, g)
  | _ => none

/-- The memory of a process after `LoadSubgrid`. -/
def loaded (g : Nat) (state : AccessState) (rank : Nat) : RankState :=
  match state.atLoad g rank with
  | some (own, g) => own.set g (state.load.process rank).grid
  | none => .initial

end AccessState

/-- Whether the master begins the call after a `GridGet`. -/
inductive AccessEvent where
  | nextCall
  | other
deriving DecidableEq, Repr

/-- A process goes on with its talk, enters `LoadSubgrid` or goes on there. -/
inductive AccessStep (space : GridSpaceMPI) (mpi : MPIReduce) (g : Nat) (state : AccessState) :
    AccessEvent → AccessState → Prop
  | talk (talks : Network (RpcTalk Outcome) RpcMessage)
      (step : SystemStep (Talk.behaviour (again space fun _ => none)) space.numProcs
        state.talks talks) :
      AccessStep space mpi g state .other { state with talks := talks }
  | enter (rank own : Nat) (memory : RankState) (index : IndexArray)
      (later : List (MasterCall ℚ)) (bounded : rank < space.numProcs)
      (get : state.rest = .gridGet index :: later)
      (arrived : state.atLoad g rank = some (memory, own))
      (outside : (state.load.process rank).counter = .outside) :
      AccessStep space mpi g state .other { state with
        load := state.load.advance rank
          (LoadProcess.enter space rank (gridGetCall index state.memory rank)
            { state.load.process rank with grid := memory.objects own }) }
  | go (rank : Nat) (bounded : rank < space.numProcs) (load : LoadState ℚ)
      (step : Network.Step (LoadProcess.effect space) rank state.load load) :
      AccessStep space mpi g state .other { state with load := load }
  | next (index : IndexArray) (later : List (MasterCall ℚ)) (own : RankState)
      (results : List ApiResult) (element : ℚ) (after : AccessState)
      (get : state.rest = .gridGet index :: later)
      (master : state.talks.process 0 = .ret (.returned own results))
      (returned : state.load.Returned 0)
      (value : (state.load.process 0).grid.get index = some element)
      -- anything follows if another process has not returned
      (begins : (∀ rank < space.numProcs, state.load.Returned rank) → ∃ bufs memory,
        after = .start space mpi g later (state.loaded g) (results ++ [.value element]) bufs
          memory) :
      AccessStep space mpi g state .nextCall after

/-- The call after a `GridGet` begins when every process has returned from it. -/
def Awaited (space : GridSpaceMPI) (state : AccessState) : AccessEvent → Prop
  | .nextCall => ∀ rank < space.numProcs, state.load.Returned rank
  | .other => True

/-- A step that meets the condition. -/
def AwaitedStep (space : GridSpaceMPI) (mpi : MPIReduce) (g : Nat)
    (state after : AccessState) : Prop :=
  ∃ event, AccessStep space mpi g state event after ∧ Awaited space state event

/-- The main function has returned with such results, and the clients have exited. -/
def Ends (space : GridSpaceMPI) (right : List ApiResult → Prop) (state : AccessState) : Prop :=
  state.rest = [] ∧ ∃ (final : Nat → RankState) (results : List ApiResult), right results ∧
    Quiet state.talks (parties space.numProcs (.ret (.returned (final 0) results))
      fun rank => .ret (.exited (final rank)))

end Rpc

end Physis.Runtime
