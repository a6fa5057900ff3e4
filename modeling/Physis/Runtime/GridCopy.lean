import Physis.Library.Conversations
import Physis.Runtime.Buffer
import Physis.Runtime.ExchangeOccupancy
import Physis.Runtime.SubgridBytes

/-!
# Copying a grid in and out

`GridCopyin` and `GridCopyout` move a grid between a host array of the master
and the subgrids of all processes.  A client tells the master where its subgrid
lies, in two messages; the master serves the clients by rank, and skips those
whose subgrid has no bytes.  A receive of another length than the message sent
is an error of its own here.  The byte count of a message is an `int`, and so is
the count that the master compares with the size of its buffer: a subgrid of 2³¹
bytes has a negative one, which is an error of MPI, or fails the assertion.

The buffers of a grid and of the master are allocated with the sizes they are
used with, so the assertions on buffer sizes compare equal values and are left
out, except for one that computes its count of bytes in another type.
-/

namespace Physis.Runtime

open Physis.Library
open Physis.Library.MachineIntegers
open Physis.Library.RowMajor
open Physis.Library.Networks
open Physis.Library.Determinacy
open Physis.Library.Conversations
open Physis.Library.Runs

/-! ## Messages and processes -/

/-- An index array, or the elements of a subgrid. -/
inductive CopyMessage (α : Type) where
  | index (value : IndexArray)
  | cells (payload : List α)

/-- Where the master's loop over the clients stands. -/
inductive MasterPhase where
  | offset (i : Nat)
  | size (i : Nat) (subgridOffset : IndexArray)
  | data (i : Nat) (subgridOffset subgridSize : IndexArray)
  | returned
  | failed

/-- What a client does next. -/
inductive ClientPhase where
  | offset
  | size
  | data
  | returned
  | failed

/-- The master with the host array and its staging buffer, or a client. -/
inductive CopyProcess (α : Type) where
  | master (grid : GridMPI α) (buf sbuf : Int → α) (phase : MasterPhase)
  | client (grid : GridMPI α) (phase : ClientPhase)

namespace CopyProcess

variable {α : Type}

/-- The subgrid of the process. -/
def grid : CopyProcess α → GridMPI α
  | master grid _ _ _ => grid
  | client grid _ => grid

/-- The call has returned. -/
def Returned : CopyProcess α → Prop
  | master _ _ _ phase => phase = .returned
  | client _ phase => phase = .returned

/--
A message did not have the kind or the length that the receive expects, or a
count was negative, or an assertion failed.
-/
def Failed : CopyProcess α → Prop
  | master _ _ _ phase => phase = .failed
  | client _ phase => phase = .failed

end CopyProcess

variable {α : Type}

/-- `GetLinearSize` of a buffer for such elements, a product of `size_t` values -/
def getLinearSize (elmSize numDims : Nat) (size : IndexArray) : Nat :=
  (IntegerArray.accumulatePSIndex size numDims % 2 ^ 64).toNat * elmSize % 2 ^ 64

/-- The `int` count of the bytes of a subgrid; none where it is negative. -/
def byteCount (elmSize numDims : Nat) (size : IndexArray) : Option Nat :=
  BufferHost.mpiCount (getLinearSize elmSize numDims size)

/-- The closing assertion of `CopyoutSubgrid` and `CopyinSubgrid` -/
def endsAtSize (elmSize numDims : Nat) (size : IndexArray) : Bool :=
  decide (Bytes.AtEnd elmSize numDims size (IntegerArray.accumulate size numDims * elmSize))

/-- The assertion of `GridCopyinLocal`, whose count of bytes is a product of `int`s. -/
def fillsBuffer (elmSize numDims : Nat) (size : IndexArray) : Bool :=
  decide (getLinearSize elmSize numDims size =
    (toSigned 32 (IntegerArray.accumulatePSIndex size numDims * elmSize) % 2 ^ 64).toNat)

/-- The subgrid with cells written to its buffer from the beginning on. -/
def GridMPI.withCells (grid : GridMPI α) (cells : List α) : GridMPI α :=
  { grid with
    dataBuffer := Function.update grid.dataBuffer (grid.dataId 0)
      (overwrite grid.data cells) }

/-- The elements of the subgrid, in the order of its buffer. -/
def GridMPI.localCells (grid : GridMPI α) : List α :=
  (List.range (IntegerArray.accumulate grid.localSize grid.numDims).toNat).map
    fun (position : Nat) => grid.data position

/-! ## The two operations -/

namespace Master

/-- The master's loop over the clients, up to the transfer of the elements. -/
def gridCopy
    (numProcs : Nat) (grid : GridMPI α) (buf sbuf : Int → α)
    (transfer : Nat → IndexArray → IndexArray →
      Effect (CopyProcess α) (CopyMessage α)) :
    MasterPhase → Effect (CopyProcess α) (CopyMessage α)
  | .offset i =>
      if i < numProcs then
        .receive (some i) fun
          | .index subgridOffset => .master grid buf sbuf (.size i subgridOffset)
          | .cells _ => .master grid buf sbuf .failed
      else .silent (.master grid buf sbuf .returned)
  | .size i subgridOffset =>
      .receive (some i) fun
        | .index subgridSize =>
            .master grid buf sbuf
              (if getLinearSize grid.elmSize grid.numDims subgridSize = 0 then
                .offset (i + 1)
              else .data i subgridOffset subgridSize)
        | .cells _ => .master grid buf sbuf .failed
  | .data i subgridOffset subgridSize => transfer i subgridOffset subgridSize
  | .returned => .stop
  | .failed => .stop

/-- `Master::GridCopyinLocal` -/
def gridCopyinLocal (grid : GridMPI α) (buf : Int → α) : GridMPI α :=
  grid.withCells
    (copyoutSubgrid grid.numDims buf grid.size grid.localOffset grid.localSize)

/-- `Master::GridCopyin` -/
def gridCopyin
    (numProcs : Nat) (grid : GridMPI α) (buf sbuf : Int → α) :
    MasterPhase → Effect (CopyProcess α) (CopyMessage α) :=
  gridCopy numProcs grid buf sbuf fun i subgridOffset subgridSize =>
    if endsAtSize grid.elmSize grid.numDims subgridSize then
      match byteCount grid.elmSize grid.numDims subgridSize with
      | none => .silent (.master grid buf sbuf .failed)
      -- a count that has wrapped around sends no more than the first cells
      | some count =>
          .send i
            (.cells ((copyoutSubgrid grid.numDims buf grid.size subgridOffset
              subgridSize).take (count / grid.elmSize)))
            (.master grid buf sbuf (.offset (i + 1)))
    else .silent (.master grid buf sbuf .failed)

/-- `Master::GridCopyoutLocal` -/
def gridCopyoutLocal (grid : GridMPI α) (buf : Int → α) : Int → α :=
  if grid.empty then buf
  else copyinSubgrid grid.numDims buf grid.size grid.data grid.localOffset
    grid.localSize

/-- `Master::GridCopyout` -/
def gridCopyout
    (numProcs : Nat) (grid : GridMPI α) (buf sbuf : Int → α) :
    MasterPhase → Effect (CopyProcess α) (CopyMessage α) :=
  gridCopy numProcs grid buf sbuf fun i subgridOffset subgridSize =>
    match byteCount grid.elmSize grid.numDims subgridSize with
    | none => .silent (.master grid buf sbuf .failed)
    | some count =>
        .receive (some i) fun
          | .cells payload =>
              if payload.length = count / grid.elmSize ∧
                  endsAtSize grid.elmSize grid.numDims subgridSize = true then
                .master grid
                  (copyinSubgrid grid.numDims buf grid.size (overwrite sbuf payload)
                    subgridOffset subgridSize)
                  (overwrite sbuf payload) (.offset (i + 1))
              else .master grid buf sbuf .failed
          | .index _ => .master grid buf sbuf .failed

end Master

namespace Client

/-- A client's calls, up to the transfer of the elements. -/
def gridCopy
    (grid : GridMPI α) (transfer : Effect (CopyProcess α) (CopyMessage α)) :
    ClientPhase → Effect (CopyProcess α) (CopyMessage α)
  | .offset => .send 0 (.index grid.localOffset) (.client grid .size)
  | .size =>
      .send 0 (.index grid.localSize)
        (.client grid (if grid.empty then .returned else .data))
  | .data => transfer
  | .returned => .stop
  | .failed => .stop

/-- `Client::GridCopyin` -/
def gridCopyin (grid : GridMPI α) :
    ClientPhase → Effect (CopyProcess α) (CopyMessage α) :=
  gridCopy grid
    (match byteCount grid.elmSize grid.numDims grid.localSize with
    | none => .silent (.client grid .failed)
    | some count =>
        .receive (some 0) fun
          | .cells payload =>
              if payload.length = count / grid.elmSize then
                .client (grid.withCells payload) .returned
              else .client grid .failed
          | .index _ => .client grid .failed)

/-- `Client::GridCopyout` -/
def gridCopyout (grid : GridMPI α) :
    ClientPhase → Effect (CopyProcess α) (CopyMessage α) :=
  gridCopy grid
    (match byteCount grid.elmSize grid.numDims grid.localSize with
    | none => .silent (.client grid .failed)
    | some count =>
        .send 0 (.cells (grid.localCells.take (count / grid.elmSize)))
          (.client grid .returned))

end Client

/-- `GridCopyin` on all processes. -/
def copyinBehaviour (numProcs _rank : Nat) :
    CopyProcess α → Effect (CopyProcess α) (CopyMessage α)
  | .master grid buf sbuf phase => Master.gridCopyin numProcs grid buf sbuf phase
  | .client grid phase => Client.gridCopyin grid phase

theorem copyinBehaviour_master
    (numProcs rank : Nat) (grid : GridMPI α) (buf sbuf : Int → α)
    (phase : MasterPhase) :
    copyinBehaviour numProcs rank (.master grid buf sbuf phase) =
      Master.gridCopyin numProcs grid buf sbuf phase :=
  rfl

theorem copyinBehaviour_client
    (numProcs rank : Nat) (grid : GridMPI α) (phase : ClientPhase) :
    copyinBehaviour numProcs rank (.client grid phase) =
      Client.gridCopyin grid phase :=
  rfl

/-- `GridCopyout` on all processes. -/
def copyoutBehaviour (numProcs _rank : Nat) :
    CopyProcess α → Effect (CopyProcess α) (CopyMessage α)
  | .master grid buf sbuf phase => Master.gridCopyout numProcs grid buf sbuf phase
  | .client grid phase => Client.gridCopyout grid phase

theorem copyoutBehaviour_master
    (numProcs rank : Nat) (grid : GridMPI α) (buf sbuf : Int → α)
    (phase : MasterPhase) :
    copyoutBehaviour numProcs rank (.master grid buf sbuf phase) =
      Master.gridCopyout numProcs grid buf sbuf phase :=
  rfl

theorem copyoutBehaviour_client
    (numProcs rank : Nat) (grid : GridMPI α) (phase : ClientPhase) :
    copyoutBehaviour numProcs rank (.client grid phase) =
      Client.gridCopyout grid phase :=
  rfl

/--
No message is in flight, the master has copied its own part, if its assertions
have passed, and serves the clients from the first one.
-/
def startCopy
    (passed : Bool) (masterGrid : GridMPI α) (buf sbuf : Int → α)
    (grids : Nat → GridMPI α) : Network (CopyProcess α) (CopyMessage α) where
  process rank :=
    if rank = 0 then
      .master masterGrid buf sbuf (if passed then .offset 1 else .failed)
    else .client (grids rank) .offset
  sent _ _ := []
  queue _ _ := []

/-- The master has copied its own part in. -/
def startCopyin (grids : Nat → GridMPI α) (buf sbuf : Int → α) :
    Network (CopyProcess α) (CopyMessage α) :=
  startCopy
    (fillsBuffer (grids 0).elmSize (grids 0).numDims (grids 0).localSize &&
      endsAtSize (grids 0).elmSize (grids 0).numDims (grids 0).localSize)
    (Master.gridCopyinLocal (grids 0) buf) buf sbuf grids

/-- The master has copied its own part out. -/
def startCopyout (grids : Nat → GridMPI α) (buf sbuf : Int → α) :
    Network (CopyProcess α) (CopyMessage α) :=
  startCopy
    ((grids 0).empty || endsAtSize (grids 0).elmSize (grids 0).numDims (grids 0).localSize)
    (grids 0) (Master.gridCopyoutLocal (grids 0) buf) sbuf grids

/-- Every process has returned, and every message sent has been received. -/
structure CopyFinished
    (numProcs : Nat) (network : Network (CopyProcess α) (CopyMessage α)) : Prop where
  returned : ∀ rank < numProcs, (network.process rank).Returned
  received : ∀ source target, network.queue source target = []

/--
Every run comes to its end, and on the way every message is received by a
receive of its own kind and length.
-/
structure Completes
    (behaviour : Nat → CopyProcess α → Effect (CopyProcess α) (CopyMessage α))
    (numProcs : Nat) (initial : Network (CopyProcess α) (CopyMessage α)) :
    Prop where
  terminates : Terminates (SystemStep behaviour numProcs) (CopyFinished numProcs)
    initial
  matched : ∀ network, Reaches (SystemStep behaviour numProcs) initial network →
    ∀ rank < numProcs, ¬(network.process rank).Failed

/-! ## Every order of steps gives one result -/

/-- The master's loop names the clients it receives from, if the transfers do. -/
theorem Master.gridCopy_named
    {numProcs : Nat} {grid : GridMPI α} {buf sbuf : Int → α}
    {transfer : Nat → IndexArray → IndexArray → Effect (CopyProcess α) (CopyMessage α)}
    {next : CopyMessage α → CopyProcess α}
    (named : ∀ i subgridOffset subgridSize,
      transfer i subgridOffset subgridSize ≠ .receive none next) (phase : MasterPhase) :
    Master.gridCopy numProcs grid buf sbuf transfer phase ≠ .receive none next := by
  cases phase with
  | offset i =>
      rw [Master.gridCopy]
      split <;> simp
  | size i subgridOffset => simp [Master.gridCopy]
  | data i subgridOffset subgridSize => exact named i subgridOffset subgridSize
  | returned | failed => simp [Master.gridCopy]

theorem copyinBehaviour_named (numProcs : Nat) :
    Named (copyinBehaviour (α := α) numProcs) := by
  intro rank process next
  cases process with
  | master grid buf sbuf phase =>
      refine Master.gridCopy_named (fun i subgridOffset subgridSize => ?_) phase
      split
      · split <;> simp
      · simp
  | client grid phase =>
      rw [copyinBehaviour_client, Client.gridCopyin]
      cases phase with
      | data =>
          rw [Client.gridCopy]
          split <;> simp
      | offset | size | returned | failed => simp [Client.gridCopy]

theorem copyoutBehaviour_named (numProcs : Nat) :
    Named (copyoutBehaviour (α := α) numProcs) := by
  intro rank process next
  cases process with
  | master grid buf sbuf phase =>
      refine Master.gridCopy_named (fun i subgridOffset subgridSize => ?_) phase
      split <;> simp
  | client grid phase =>
      rw [copyoutBehaviour_client, Client.gridCopyout]
      cases phase with
      | data =>
          rw [Client.gridCopy]
          split <;> simp
      | offset | size | returned | failed => simp [Client.gridCopy]

/-- Processes that have returned or failed take no step. -/
def Halting
    (behaviour : Nat → CopyProcess α → Effect (CopyProcess α) (CopyMessage α)) :
    Prop :=
  ∀ rank process, process.Returned ∨ process.Failed →
    behaviour rank process = .stop

theorem copyinBehaviour_halting (numProcs : Nat) :
    Halting (copyinBehaviour (α := α) numProcs) := by
  intro rank process ended
  cases process <;> rcases ended with is | is <;> cases is <;> rfl

theorem copyoutBehaviour_halting (numProcs : Nat) :
    Halting (copyoutBehaviour (α := α) numProcs) := by
  intro rank process ended
  cases process <;> rcases ended with is | is <;> cases is <;> rfl

section Completion

variable
    {behaviour : Nat → CopyProcess α → Effect (CopyProcess α) (CopyMessage α)}
    {numProcs : Nat} {initial final : Network (CopyProcess α) (CopyMessage α)}

theorem stuck_of_finished
    (halting : Halting behaviour) (finished : CopyFinished numProcs final) :
    ∀ next, ¬SystemStep behaviour numProcs final next := by
  rintro next ⟨rank, bounded, step⟩
  exact step.of_stop (halting rank _ (Or.inl (finished.returned rank bounded)))

/-- A failed process stays as it is. -/
theorem failed_of_reaches
    (halting : Halting behaviour) {rank : Nat}
    (reached : Reaches (SystemStep behaviour numProcs) initial final)
    (failed : (initial.process rank).Failed) :
    (final.process rank).Failed := by
  induction reached with
  | refl => exact failed
  | tail _ step induction =>
      obtain ⟨actor, _, step⟩ := step
      obtain ⟨move, enabled, rfl⟩ := step_iff_move.mp step
      have other : rank ≠ actor := by
        rintro rfl
        exact step.of_stop (halting rank _ (Or.inr induction))
      simp only [Move.apply, Function.update_of_ne other]
      exact induction

/-- One run to the end shows that the operation completes. -/
theorem completes_of_reaches
    (named : Named behaviour) (halting : Halting behaviour)
    (reached : Reaches (SystemStep behaviour numProcs) initial final)
    (finished : CopyFinished numProcs final) :
    Completes behaviour numProcs initial := by
  have diamond := diamond_of_named named numProcs
  have stuck := stuck_of_finished halting finished
  have terminates := diamond.terminates reached stuck
  constructor
  · refine ⟨?_, terminates.finite⟩
    intro state reachedState
    rcases terminates.progress state reachedState with rfl | step
    · exact Or.inl finished
    · exact Or.inr step
  · intro network reachedNetwork rank bounded failed
    have ended := failed_of_reaches halting
      (diamond.reaches_final reached stuck reachedNetwork) failed
    have returned := finished.returned rank bounded
    revert ended returned
    cases final.process rank with
    | master grid buf sbuf phase => rintro failed rfl; cases failed
    | client grid phase => rintro failed rfl; cases failed

/-- Every finished state is the one that was reached. -/
theorem eq_of_finished
    (named : Named behaviour) (halting : Halting behaviour)
    (reached : Reaches (SystemStep behaviour numProcs) initial final)
    (finished : CopyFinished numProcs final)
    {other : Network (CopyProcess α) (CopyMessage α)}
    (reachedOther : Reaches (SystemStep behaviour numProcs) initial other)
    (finishedOther : CopyFinished numProcs other) :
    other = final :=
  (diamond_of_named named numProcs).eq_final reached
    (stuck_of_finished halting finished) reachedOther
    (stuck_of_finished halting finishedOther)

end Completion

/-! ## One run through all clients -/

section Loop

variable
    {behaviour : Nat → CopyProcess α → Effect (CopyProcess α) (CopyMessage α)}
    {numProcs : Nat}
    {masterTransfer : GridMPI α → (Int → α) → (Int → α) →
      Nat → IndexArray → IndexArray → Effect (CopyProcess α) (CopyMessage α)}
    {clientTransfer : GridMPI α → Effect (CopyProcess α) (CopyMessage α)}
    (masterDoes : ∀ rank grid buf sbuf phase,
      behaviour rank (.master grid buf sbuf phase) =
        Master.gridCopy numProcs grid buf sbuf (masterTransfer grid buf sbuf) phase)
    (clientDoes : ∀ rank grid phase,
      behaviour rank (.client grid phase) =
        Client.gridCopy grid (clientTransfer grid) phase)

include masterDoes clientDoes in
/-- A client tells the master where its subgrid lies. -/
theorem tells
    {base network : Network (CopyProcess α) (CopyMessage α)}
    {grid clientGrid : GridMPI α} {buf sbuf : Int → α} {i : Nat}
    (client : 0 < i) (bounded : i < numProcs)
    (talks : Conversation base 0 i network (.master grid buf sbuf (.offset i))
      (.client clientGrid .offset) [] []) :
    ∃ after, Reaches (SystemStep behaviour numProcs) network after ∧
      Conversation base 0 i after
        (.master grid buf sbuf
          (if getLinearSize grid.elmSize grid.numDims clientGrid.localSize = 0 then
            .offset (i + 1)
          else .data i clientGrid.localOffset clientGrid.localSize))
        (.client clientGrid (if clientGrid.empty then .returned else .data))
        [] [] := by
  have different : (0 : Nat) ≠ i := by omega
  have some : 0 < numProcs := by omega
  obtain ⟨first, firstStep, talks⟩ := talks.symm.sends different.symm bounded
    (clientDoes i clientGrid .offset)
  obtain ⟨second, secondStep, talks⟩ := talks.sends different.symm bounded
    (clientDoes i clientGrid .size)
  obtain ⟨third, thirdStep, talks⟩ := talks.symm.receives different some
    ((masterDoes 0 grid buf sbuf (.offset i)).trans (if_pos bounded))
  obtain ⟨fourth, fourthStep, talks⟩ := talks.receives different some
    (masterDoes 0 grid buf sbuf (.size i clientGrid.localOffset))
  exact ⟨fourth, .head firstStep (.head secondStep (.head thirdStep
    (.single fourthStep))), talks⟩

/-- The master has served the clients before `next`. -/
structure Served
    (grids after : Nat → GridMPI α) (grid : GridMPI α) (buf sbuf : Int → α)
    (next : Nat) (network : Network (CopyProcess α) (CopyMessage α)) : Prop where
  master : network.process 0 = .master grid buf sbuf (.offset next)
  served : ∀ rank, 0 < rank → rank < next →
    network.process rank = .client (after rank) .returned
  waiting : ∀ rank, 0 < rank → next ≤ rank →
    network.process rank = .client (grids rank) .offset
  quiet : ∀ source target, network.queue source target = []

/--
The master serves any client that comes next, and what is known of its host
array before the client holds after it.
-/
def Serves
    (behaviour : Nat → CopyProcess α → Effect (CopyProcess α) (CopyMessage α))
    (numProcs : Nat) (grids after : Nat → GridMPI α) (grid : GridMPI α)
    (inv : Nat → (Int → α) → Prop) : Prop :=
  ∀ base network i buf sbuf, 0 < i → i < numProcs → inv i buf →
    Conversation base 0 i network (.master grid buf sbuf (.offset i))
      (.client (grids i) .offset) [] [] →
      ∃ later buf' sbuf', Reaches (SystemStep behaviour numProcs) network later ∧
        inv (i + 1) buf' ∧
        Conversation base 0 i later (.master grid buf' sbuf' (.offset (i + 1)))
          (.client (after i) .returned) [] []

variable (sbuf : Int → α)

include masterDoes in
/-- If every client is served in turn, the operation comes to its end. -/
theorem reaches_finished
    {grids after : Nat → GridMPI α} {grid : GridMPI α} {buf : Int → α}
    {passed : Bool} (passes : passed = true) {inv : Nat → (Int → α) → Prop}
    (holds : inv 1 buf) (positive : 0 < numProcs)
    (serves : Serves behaviour numProcs grids after grid inv) :
    ∃ final buf' sbuf',
      Reaches (SystemStep behaviour numProcs) (startCopy passed grid buf sbuf grids)
          final ∧
        inv numProcs buf' ∧ CopyFinished numProcs final ∧
        final.process 0 = .master grid buf' sbuf' .returned ∧
        ∀ rank, 0 < rank → rank < numProcs →
          final.process rank = .client (after rank) .returned := by
  have loop : ∀ next, next < numProcs → ∃ network buf' sbuf',
      Reaches (SystemStep behaviour numProcs) (startCopy passed grid buf sbuf grids)
          network ∧
        inv (next + 1) buf' ∧
        Served grids after grid buf' sbuf' (next + 1) network := by
    intro next
    induction next with
    | zero =>
        intro _
        refine ⟨_, buf, sbuf, .refl, holds, ?_⟩
        have master : (startCopy passed grid buf sbuf grids).process 0 =
            .master grid buf sbuf (.offset 1) := by
          simp only [startCopy, if_true, if_pos passes]
        exact ⟨master, fun rank _ _ => by omega,
          fun rank some _ => if_neg (by omega), fun _ _ => rfl⟩
    | succ next induction =>
        intro bounded
        obtain ⟨network, buf', sbuf', reached, kept, served⟩ :=
          induction (by omega)
        have talks := Conversation.start network 0 (next + 1)
        rw [served.master, served.waiting _ (by omega) le_rfl, served.quiet,
          served.quiet] at talks
        obtain ⟨later, buf'', sbuf'', further, kept, talks⟩ :=
          serves network network (next + 1) buf' sbuf' (by omega) bounded kept talks
        refine ⟨later, buf'', sbuf'', reached.trans further, kept, ?_⟩
        have queue := talks.queue_eq (served.quiet _ _) (served.quiet _ _)
        constructor
        · exact talks.first
        · intro rank client before
          by_cases last : rank = next + 1
          · rw [last]
            exact talks.second
          · rw [talks.others rank (by omega) last]
            exact served.served rank client (by omega)
        · intro rank client waits
          rw [talks.others rank (by omega) (by omega)]
          exact served.waiting rank client (by omega)
        · intro source target
          rw [queue]
          exact served.quiet source target
  obtain ⟨network, buf', sbuf', reached, kept, served⟩ :=
    loop (numProcs - 1) (by omega)
  rw [Nat.sub_add_cancel positive] at kept served
  have last : SystemStep behaviour numProcs network
      (network.advance 0 (.master grid buf' sbuf' .returned)) := by
    refine ⟨0, positive, .silent _ ?_⟩
    rw [served.master, masterDoes, Master.gridCopy, if_neg (lt_irrefl _)]
  have master : (network.advance 0 (.master grid buf' sbuf' .returned)).process 0 =
      .master grid buf' sbuf' .returned := by
    rw [Network.advance_process, if_pos rfl]
  have clients : ∀ rank, 0 < rank → rank < numProcs →
      (network.advance 0 (.master grid buf' sbuf' .returned)).process rank =
        .client (after rank) .returned := by
    intro rank client bounded
    rw [Network.advance_process, if_neg (by omega)]
    exact served.served rank client bounded
  refine ⟨_, buf', sbuf', reached.tail last, kept, ⟨?_, served.quiet⟩, master,
    clients⟩
  intro rank bounded
  rcases Nat.eq_zero_or_pos rank with rfl | client
  · rw [master]
    rfl
  · rw [clients rank client bounded]
    rfl

end Loop

/-! ## Exact counts -/

section Counts

variable {elmSize numDims : Nat} {size : IndexArray}

/-- All counts of a subgrid are exact, and its assertions hold. -/
structure Counted (elmSize numDims : Nat) (size : IndexArray) : Prop where
  linear : getLinearSize elmSize numDims size =
    (IntegerArray.accumulate size numDims).toNat * elmSize
  count : byteCount elmSize numDims size =
    some ((IntegerArray.accumulate size numDims).toNat * elmSize)
  ends : endsAtSize elmSize numDims size = true
  fills : fillsBuffer elmSize numDims size = true

/-- As many elements as a `PSIndex` counts have an exact linear size. -/
theorem getLinearSize_eq {elements : Nat}
    (isElements : IntegerArray.accumulatePSIndex size numDims = elements)
    (addressable : elements * elmSize < 2 ^ 63) (element : 0 < elmSize) :
    getLinearSize elmSize numDims size = elements * elmSize := by
  have fewer : elements ≤ elements * elmSize := Nat.le_mul_of_pos_right elements element
  have same : ((elements : Int) % 2 ^ 64).toNat = elements := by omega
  rw [getLinearSize, isElements, same]
  exact Nat.mod_eq_of_lt (by omega)

/-- Less than 2³¹ bytes are counted. -/
theorem counted_of_lt (nonneg : ∀ i < numDims, 0 ≤ size i) (element : 0 < elmSize)
    (few : volume size numDims * elmSize < 2 ^ 31) :
    Counted elmSize numDims size := by
  obtain ⟨elements, isElements⟩ := Int.eq_ofNat_of_zero_le (volume_nonneg nonneg)
  have accumulated : IntegerArray.accumulate size numDims = elements := by
    rw [IntegerArray.accumulate_eq_volume, isElements]
  rw [isElements] at few
  have bytes : elements * elmSize < 2 ^ 31 := by exact_mod_cast few
  have fewer : elements ≤ elements * elmSize := Nat.le_mul_of_pos_right elements element
  have fits : FitsSigned 32 (volume size numDims) := by
    rw [isElements]
    constructor <;> omega
  have exact_ : IntegerArray.accumulatePSIndex size numDims = elements := by
    rw [(IntegerArray.accumulatePSIndex_eq_iff size numDims).mpr fits, isElements]
  have linearSize := getLinearSize_eq exact_ (by omega) element
  constructor
  · rw [linearSize, accumulated, Int.toNat_natCast]
  · rw [byteCount, linearSize, accumulated, Int.toNat_natCast]
    exact BufferHost.mpiCount_of_lt bytes
  · rw [endsAtSize, decide_eq_true_eq, Bytes.atEnd_iff nonneg]
    · right
      rwa [IntegerArray.accumulate_eq_volume]
    · rw [accumulated]
      omega
  · have counts : toSigned 32 ((elements : Int) * elmSize) = elements * elmSize :=
      (toSigned_eq_iff (by decide) _).mpr ⟨by omega, few⟩
    rw [fillsBuffer, decide_eq_true_eq, linearSize, exact_, counts]
    omega

/-- If the assertions hold for a part that has addresses, it has less than 2³¹ bytes. -/
theorem lt_of_fillsBuffer (nonneg : ∀ i < numDims, 0 ≤ size i) (element : 0 < elmSize)
    (addressable : volume size numDims * elmSize < 2 ^ 63)
    (fills : fillsBuffer elmSize numDims size = true)
    (ends : endsAtSize elmSize numDims size = true) :
    volume size numDims * elmSize < 2 ^ 31 := by
  obtain ⟨elements, isElements⟩ := Int.eq_ofNat_of_zero_le (volume_nonneg nonneg)
  rw [endsAtSize, decide_eq_true_eq, Bytes.atEnd_iff nonneg
    (by rwa [IntegerArray.accumulate_eq_volume]), IntegerArray.accumulate_eq_volume] at ends
  have fits := ends.resolve_left (by omega)
  have exact_ : IntegerArray.accumulatePSIndex size numDims = elements := by
    rw [(IntegerArray.accumulatePSIndex_eq_iff size numDims).mpr fits, isElements]
  rw [isElements] at addressable ⊢
  have bytes : elements * elmSize < 2 ^ 63 := by exact_mod_cast addressable
  rw [fillsBuffer, decide_eq_true_eq, getLinearSize_eq exact_ bytes element, exact_] at fills
  obtain ⟨lower, upper⟩ : FitsSigned 32 (toSigned 32 (elements * elmSize : Int)) :=
    fits_toSigned (by decide) _
  have wrapped : ((elements * elmSize : Nat) : Int) =
      toSigned 32 (elements * elmSize : Int) % 2 ^ 64 := by
    omega
  push_cast at wrapped
  -- a negative count becomes a `size_t` that no part has
  omega

variable {grid : GridMPI α} {buf sbuf : Int → α} {i numProcs : Nat}
  {subgridOffset subgridSize : IndexArray}

/-- The master sends all elements of a subgrid that is counted. -/
theorem Master.gridCopyin_data
    (counted : Counted grid.elmSize grid.numDims subgridSize) (element : 0 < grid.elmSize)
    (length : (copyoutSubgrid grid.numDims buf grid.size subgridOffset subgridSize).length =
      (IntegerArray.accumulate subgridSize grid.numDims).toNat) :
    Master.gridCopyin numProcs grid buf sbuf (.data i subgridOffset subgridSize) =
      .send i
        (.cells (copyoutSubgrid grid.numDims buf grid.size subgridOffset subgridSize))
        (.master grid buf sbuf (.offset (i + 1))) := by
  simp only [Master.gridCopyin, Master.gridCopy, counted.ends, if_true, counted.count,
    Nat.mul_div_cancel _ element, ← length, List.take_length]

theorem Master.gridCopyout_data
    (counted : Counted grid.elmSize grid.numDims subgridSize) (element : 0 < grid.elmSize) :
    Master.gridCopyout numProcs grid buf sbuf (.data i subgridOffset subgridSize) =
      .receive (some i) fun
        | .cells payload =>
            if payload.length = (IntegerArray.accumulate subgridSize grid.numDims).toNat then
              .master grid
                (copyinSubgrid grid.numDims buf grid.size (overwrite sbuf payload)
                  subgridOffset subgridSize)
                (overwrite sbuf payload) (.offset (i + 1))
            else .master grid buf sbuf .failed
        | .index _ => .master grid buf sbuf .failed := by
  rw [Master.gridCopyout, Master.gridCopy, counted.count]
  simp only [counted.ends, and_true, Nat.mul_div_cancel _ element]

theorem Client.gridCopyin_data
    (counted : Counted grid.elmSize grid.numDims grid.localSize) (element : 0 < grid.elmSize) :
    Client.gridCopyin grid .data =
      .receive (some 0) fun
        | .cells payload =>
            if payload.length = (IntegerArray.accumulate grid.localSize grid.numDims).toNat then
              .client (grid.withCells payload) .returned
            else .client grid .failed
        | .index _ => .client grid .failed := by
  rw [Client.gridCopyin, Client.gridCopy, counted.count]
  simp only [Nat.mul_div_cancel _ element]

/-- A client sends all elements of a subgrid that is counted. -/
theorem Client.gridCopyout_data
    (counted : Counted grid.elmSize grid.numDims grid.localSize) (element : 0 < grid.elmSize) :
    Client.gridCopyout grid .data =
      .send 0 (.cells grid.localCells) (.client grid .returned) := by
  have length : (IntegerArray.accumulate grid.localSize grid.numDims).toNat =
      grid.localCells.length := by simp [GridMPI.localCells]
  rw [Client.gridCopyout, Client.gridCopy, counted.count]
  simp only [Nat.mul_div_cancel _ element, length, List.take_length]

end Counts

/-! ## Subgrids and their cells -/

theorem length_localCells (grid : GridMPI α) :
    grid.localCells.length =
      (IntegerArray.accumulate grid.localSize grid.numDims).toNat := by
  simp [GridMPI.localCells]

/-- The cells of a subgrid, written to another memory, read as its data. -/
theorem reads_overwrite_localCells
    {grid : GridMPI α} (nonneg : ∀ i < grid.numDims, 0 ≤ grid.localSize i)
    (memory : Int → α) :
    Reads grid.numDims (overwrite memory grid.localCells) grid.localSize
      fun index => grid.data (linear grid.localSize index grid.numDims) := by
  have cells : grid.localCells = boxList grid.numDims grid.localSize
      fun index => grid.data (linear grid.localSize index grid.numDims) := by
    rw [boxList_linear nonneg, GridMPI.localCells,
      IntegerArray.accumulate_eq_volume]
  rw [cells]
  apply reads_overwrite_boxList
  intro left right same
  exact congrArg grid.data (linear_congr (fun _ _ => rfl) same)

@[simp]
theorem GridMPI.withCells_data (grid : GridMPI α) (cells : List α) :
    (grid.withCells cells).data = overwrite grid.data cells := by
  simp [GridMPI.data, GridMPI.withCells]

section Grids

variable
    {space : GridSpaceMPI} {elmSize : Nat} {size globalOffset : IndexArray}
    {grids : Nat → GridMPI α}

theorem Decomposed.accumulate_nonneg
    {rank : Nat} {grid : GridMPI α}
    (own : Decomposed space elmSize size globalOffset rank grid) :
    0 ≤ IntegerArray.accumulate grid.localSize space.numDims := by
  rw [IntegerArray.accumulate_eq_volume]
  exact volume_nonneg fun i below => own.localSize_nonneg below

theorem Decomposed.withCells
    {rank : Nat} {grid : GridMPI α}
    (own : Decomposed space elmSize size globalOffset rank grid) (cells : List α) :
    Decomposed space elmSize size globalOffset rank (grid.withCells cells) where
  elmSize := own.elmSize
  numDims := own.numDims
  localOffset := own.localOffset
  localSize := own.localSize
  empty := own.empty
  size := own.size
  globalOffset := own.globalOffset
  sendBuffers := own.sendBuffers

/-- A subgrid whose counts are exact has no bytes exactly if it is empty. -/
theorem Decomposed.getLinearSize_eq_zero_iff
    {rank : Nat} {grid : GridMPI α}
    (own : Decomposed space elmSize size globalOffset rank grid)
    (element : 0 < elmSize) (counted : Counted elmSize space.numDims grid.localSize) :
    getLinearSize elmSize space.numDims grid.localSize = 0 ↔
      grid.empty = true := by
  have nonneg := own.accumulate_nonneg
  rw [own.empty, decide_eq_true_eq, counted.linear, Nat.mul_eq_zero, own.numDims]
  omega

/-- The part of every process has less than 2³¹ bytes. -/
def Countable
    (space : GridSpaceMPI) (elmSize : Nat) (size globalOffset : IndexArray) : Prop :=
  ∀ rank < space.numProcs,
    volume (space.localSize rank space.numDims size globalOffset) space.numDims * elmSize <
      2 ^ 31

theorem Decomposed.counted
    {rank : Nat} {grid : GridMPI α}
    (own : Decomposed space elmSize size globalOffset rank grid)
    (countable : Countable space elmSize size globalOffset) (element : 0 < elmSize)
    (bounded : rank < space.numProcs) :
    Counted grid.elmSize grid.numDims grid.localSize := by
  rw [own.elmSize, own.numDims]
  refine counted_of_lt (fun i below => own.localSize_nonneg below) element ?_
  rw [own.localSize]
  exact countable rank bounded

/-- What the copy in leaves on a process. -/
def copiedIn (grid : GridMPI α) (buf : Int → α) : GridMPI α :=
  if grid.empty then grid else Master.gridCopyinLocal grid buf

theorem Decomposed.gridCopyinLocal_reads
    {rank : Nat} {grid : GridMPI α}
    (own : Decomposed space elmSize size globalOffset rank grid)
    (dims : 0 < space.numDims) (buf : Int → α) :
    Reads space.numDims (Master.gridCopyinLocal grid buf).data grid.localSize
      fun index => buf (linear size
        (fun i => grid.localOffset i + index i) space.numDims) := by
  rw [Master.gridCopyinLocal, GridMPI.withCells_data, own.numDims, own.size,
    copyoutSubgrid_eq_boxList dims]
  apply reads_overwrite_boxList
  intro left right same
  refine congrArg buf (linear_congr (fun _ _ => rfl) ?_)
  intro i below
  simp only [Pi.add_apply, same i below]

theorem Decomposed.copiedIn_reads
    {rank : Nat} {grid : GridMPI α}
    (own : Decomposed space elmSize size globalOffset rank grid)
    (dims : 0 < space.numDims) (buf : Int → α) :
    Reads space.numDims (copiedIn grid buf).data grid.localSize
      fun index => buf (linear size
        (fun i => grid.localOffset i + index i) space.numDims) := by
  rw [copiedIn]
  split
  · rename_i empty
    intro index member
    have occupied : grid.empty = false := own.empty_eq_false_iff.mpr fun i below => by
      have bounds := member i below
      omega
    rw [occupied] at empty
    cases empty
  · exact own.gridCopyinLocal_reads dims buf

end Grids

/-! ## The two operations on a distributed grid -/

section Distributed

variable
    {space : GridSpaceMPI} {elmSize : Nat} {size globalOffset : IndexArray}
    {grids : Nat → GridMPI α}
    (distributed : Distributed space elmSize size globalOffset grids)
    (dims : 0 < space.numDims) (element : 0 < elmSize)
    (countable : Countable space elmSize size globalOffset)

include distributed dims element countable

/-- The master sends every client the elements of its subgrid. -/
theorem copyin_serves (buf : Int → α) :
    Serves (copyinBehaviour space.numProcs) space.numProcs grids
      (fun rank => copiedIn (grids rank) buf)
      (Master.gridCopyinLocal (grids 0) buf) fun _ held => held = buf := by
  rintro base network i held sbuf client bounded rfl talks
  have own := distributed.decomposed i bounded
  have root := (distributed.decomposed 0 space.numProcs_pos).withCells
    (copyoutSubgrid (grids 0).numDims held (grids 0).size (grids 0).localOffset
      (grids 0).localSize)
  have some : 0 < space.numProcs := by omega
  have different : (0 : Nat) ≠ i := by omega
  obtain ⟨told, reached, talks⟩ :=
    tells (copyinBehaviour_master space.numProcs)
      (copyinBehaviour_client space.numProcs) client bounded talks
  have clientCounted := own.counted countable element bounded
  have counted := clientCounted
  rw [own.elmSize, own.numDims] at counted
  have bytes : getLinearSize (Master.gridCopyinLocal (grids 0) held).elmSize
      (Master.gridCopyinLocal (grids 0) held).numDims (grids i).localSize = 0 ↔
        (grids i).empty = true := by
    rw [← own.getLinearSize_eq_zero_iff element counted]
    rw [Master.gridCopyinLocal, root.elmSize, root.numDims]
  by_cases empty : (grids i).empty = true
  · rw [if_pos (bytes.mpr empty), if_pos empty] at talks
    refine ⟨told, held, sbuf, reached, rfl, ?_⟩
    beta_reduce
    rw [copiedIn, if_pos empty]
    exact talks
  · rw [if_neg (mt bytes.mp empty), if_neg empty] at talks
    have cells : ∀ numDims size', numDims = space.numDims → size' = size →
        (copyoutSubgrid numDims held size' (grids i).localOffset
            (grids i).localSize).length =
          (IntegerArray.accumulate (grids i).localSize numDims).toNat := by
      rintro _ _ rfl rfl
      exact length_copyoutSubgrid dims held _ (grids i).localOffset
        fun d below => own.localSize_nonneg below
    have masterCounted : Counted (Master.gridCopyinLocal (grids 0) held).elmSize
        (Master.gridCopyinLocal (grids 0) held).numDims (grids i).localSize := by
      rw [Master.gridCopyinLocal, root.elmSize, root.numDims]
      exact counted
    obtain ⟨sent, sendStep, talks⟩ := talks.sends different some
      ((copyinBehaviour_master space.numProcs 0 _ held sbuf
        (.data i (grids i).localOffset (grids i).localSize)).trans
          (Master.gridCopyin_data masterCounted
            (by rw [Master.gridCopyinLocal, root.elmSize]; exact element)
            (cells _ _ root.numDims root.size)))
    obtain ⟨later, receiveStep, talks⟩ := talks.symm.receives different.symm bounded
      ((copyinBehaviour_client space.numProcs i (grids i) .data).trans
        (Client.gridCopyin_data clientCounted (by rw [own.elmSize]; exact element)))
    refine ⟨later, held, sbuf, (reached.tail sendStep).tail receiveStep, rfl, ?_⟩
    have same : copyoutSubgrid (Master.gridCopyinLocal (grids 0) held).numDims held
          (Master.gridCopyinLocal (grids 0) held).size (grids i).localOffset
          (grids i).localSize =
        copyoutSubgrid (grids i).numDims held (grids i).size (grids i).localOffset
          (grids i).localSize := by
      rw [own.numDims, own.size, Master.gridCopyinLocal, root.numDims, root.size]
    rw [same] at talks
    beta_reduce
    rw [copiedIn, if_neg empty]
    dsimp only at talks
    rw [if_pos (cells _ _ own.numDims own.size)] at talks
    exact talks.symm

omit dims element countable in
/-- A subgrid copied in lies apart from the subgrids of the other processes. -/
theorem copyinSubgrid_other
    (dims : 0 < space.numDims) (buf subgrid : Int → α) {rank other : Nat}
    (bounded : rank < space.numProcs) (otherBounded : other < space.numProcs)
    (different : rank ≠ other) {index : IndexArray}
    (member : InBox space.numDims (grids rank).localSize index) :
    copyinSubgrid space.numDims buf size subgrid (grids other).localOffset
        (grids other).localSize
        (linear size (fun i => (grids rank).localOffset i + index i)
          space.numDims) =
      buf (linear size (fun i => (grids rank).localOffset i + index i)
        space.numDims) := by
  apply copyinSubgrid_outside dims
  intro otherIndex otherMember same
  apply different
  have owns := distributed.owns_local bounded member
  have otherOwns := distributed.owns_local otherBounded otherMember
  have inside : ∀ {holder : Nat} {cell : IndexArray},
      space.Owns holder size globalOffset cell → InBox space.numDims size cell :=
    fun held i below => space.local_bounds below (held i below).1 (held i below).2
  have equal := eq_of_linear_eq (inside otherOwns) (inside owns) same
  apply space.owner_unique bounded otherBounded owns
  intro i below
  beta_reduce
  rw [← equal i below]
  exact otherOwns i below

omit element countable in
/-- A subgrid copied in stands at its place in the host array. -/
theorem copyinSubgrid_own
    (buf subgrid : Int → α) {rank : Nat}
    (bounded : rank < space.numProcs)
    (reads : Reads space.numDims subgrid (grids rank).localSize
      fun index => (grids rank).data
        (linear (grids rank).localSize index space.numDims))
    {index : IndexArray}
    (member : InBox space.numDims (grids rank).localSize index) :
    copyinSubgrid space.numDims buf size subgrid (grids rank).localOffset
        (grids rank).localSize
        (linear size (fun i => (grids rank).localOffset i + index i)
          space.numDims) =
      (grids rank).data
        (linear (grids rank).localSize index space.numDims) := by
  refine (copyinSubgrid_inside dims ?_ member).trans (reads index member)
  intro i below
  have bounds := member i below
  exact distributed.local_inside bounded below (by omega)

/-- The host array holds the elements of the first processes. -/
def HostHolds
    (space : GridSpaceMPI) (size : IndexArray) (grids : Nat → GridMPI α)
    (count : Nat) (buf : Int → α) : Prop :=
  ∀ rank < count, ∀ index, InBox space.numDims (grids rank).localSize index →
    buf (linear size (fun i => (grids rank).localOffset i + index i)
        space.numDims) =
      (grids rank).data (linear (grids rank).localSize index space.numDims)

/-- The master puts the elements of every client at their place. -/
theorem copyout_serves :
    Serves (copyoutBehaviour space.numProcs) space.numProcs grids grids (grids 0)
      (HostHolds space size grids) := by
  intro base network i buf sbuf client bounded holds talks
  have own := distributed.decomposed i bounded
  have root := distributed.decomposed 0 space.numProcs_pos
  have some : 0 < space.numProcs := by omega
  have different : (0 : Nat) ≠ i := by omega
  obtain ⟨told, reached, talks⟩ :=
    tells (copyoutBehaviour_master space.numProcs)
      (copyoutBehaviour_client space.numProcs) client bounded talks
  have clientCounted := own.counted countable element bounded
  have counted := clientCounted
  rw [own.elmSize, own.numDims] at counted
  have bytes : getLinearSize (grids 0).elmSize (grids 0).numDims
      (grids i).localSize = 0 ↔ (grids i).empty = true := by
    rw [← own.getLinearSize_eq_zero_iff element counted, root.elmSize, root.numDims]
  by_cases empty : (grids i).empty = true
  · rw [if_pos (bytes.mpr empty), if_pos empty] at talks
    refine ⟨told, buf, sbuf, reached, ?_, talks⟩
    intro rank before index member
    rcases Nat.lt_succ_iff_lt_or_eq.mp before with earlier | rfl
    · exact holds rank earlier index member
    · have occupied : (grids rank).empty = false :=
        own.empty_eq_false_iff.mpr fun d below => by
          have bounds := member d below
          omega
      rw [occupied] at empty
      cases empty
  · rw [if_neg (mt bytes.mp empty), if_neg empty] at talks
    have masterCounted : Counted (grids 0).elmSize (grids 0).numDims
        (grids i).localSize := by
      rw [root.elmSize, root.numDims]
      exact counted
    obtain ⟨sent, sendStep, talks⟩ := talks.symm.sends different.symm bounded
      ((copyoutBehaviour_client space.numProcs i (grids i) .data).trans
        (Client.gridCopyout_data clientCounted (by rw [own.elmSize]; exact element)))
    obtain ⟨later, receiveStep, talks⟩ := talks.symm.receives different some
      ((copyoutBehaviour_master space.numProcs 0 _ buf sbuf
        (.data i (grids i).localOffset (grids i).localSize)).trans
          (Master.gridCopyout_data masterCounted (by rw [root.elmSize]; exact element)))
    have length : (grids i).localCells.length =
        (IntegerArray.accumulate (grids i).localSize (grids 0).numDims).toNat := by
      rw [length_localCells, own.numDims, root.numDims]
    dsimp only at talks
    rw [if_pos length, root.numDims, root.size] at talks
    refine ⟨later, _, _, (reached.tail sendStep).tail receiveStep, ?_, talks⟩
    have reads := reads_overwrite_localCells
      (by rw [own.numDims]; exact fun d below => own.localSize_nonneg below) sbuf
    rw [own.numDims] at reads
    intro rank before index member
    rcases Nat.lt_succ_iff_lt_or_eq.mp before with earlier | rfl
    · rw [copyinSubgrid_other distributed dims _ _ (by omega) bounded (by omega)
        member]
      exact holds rank earlier index member
    · exact copyinSubgrid_own distributed dims _ _ bounded reads member

/-- What `GridCopyin` leaves on a process, the master included. -/
def afterCopyin (grids : Nat → GridMPI α) (buf : Int → α) (rank : Nat) :
    GridMPI α :=
  if rank = 0 then Master.gridCopyinLocal (grids 0) buf
  else copiedIn (grids rank) buf

/-- `GridCopyin` comes to its end with the host's elements on every process. -/
theorem copyin_reaches_finished (buf sbuf : Int → α) :
    ∃ final,
      Reaches (SystemStep (copyinBehaviour space.numProcs) space.numProcs)
          (startCopyin grids buf sbuf) final ∧
        CopyFinished space.numProcs final ∧
        ∀ rank < space.numProcs,
          (final.process rank).grid = afterCopyin grids buf rank := by
  have counted := (distributed.decomposed 0 space.numProcs_pos).counted countable element
    space.numProcs_pos
  have passes : (fillsBuffer (grids 0).elmSize (grids 0).numDims (grids 0).localSize &&
      endsAtSize (grids 0).elmSize (grids 0).numDims (grids 0).localSize) = true := by
    rw [counted.fills, counted.ends, Bool.and_true]
  obtain ⟨final, held, _, reached, _, finished, master, clients⟩ :=
    reaches_finished (copyinBehaviour_master space.numProcs) sbuf
      passes rfl space.numProcs_pos
      (copyin_serves distributed dims element countable buf)
  refine ⟨final, reached, finished, ?_⟩
  intro rank bounded
  rw [afterCopyin]
  split
  · rename_i same
    rw [same, master]
    rfl
  · rw [clients rank (by omega) bounded]
    rfl

/-- `GridCopyout` comes to its end with all elements in the host array. -/
theorem copyout_reaches_finished (buf sbuf : Int → α) :
    ∃ final host sbuf',
      Reaches (SystemStep (copyoutBehaviour space.numProcs) space.numProcs)
          (startCopyout grids buf sbuf) final ∧
        CopyFinished space.numProcs final ∧
        final.process 0 = .master (grids 0) host sbuf' .returned ∧
        (∀ rank < space.numProcs, (final.process rank).grid = grids rank) ∧
        HostHolds space size grids space.numProcs host := by
  have own := distributed.decomposed 0 space.numProcs_pos
  have start : HostHolds space size grids 1
      (Master.gridCopyoutLocal (grids 0) buf) := by
    intro rank before index member
    obtain rfl : rank = 0 := by omega
    have occupied : (grids 0).empty = false :=
      own.empty_eq_false_iff.mpr fun i below => by
        have bounds := member i below
        omega
    rw [Master.gridCopyoutLocal, occupied, if_neg (by decide), own.numDims, own.size]
    exact copyinSubgrid_own distributed dims _ _ space.numProcs_pos
      (fun _ _ => rfl) member
  have counted := own.counted countable element space.numProcs_pos
  have passes : ((grids 0).empty ||
      endsAtSize (grids 0).elmSize (grids 0).numDims (grids 0).localSize) = true := by
    rw [counted.ends, Bool.or_true]
  obtain ⟨final, host, sbuf', reached, holds, finished, master, clients⟩ :=
    reaches_finished (copyoutBehaviour_master space.numProcs) sbuf
      passes start space.numProcs_pos
      (copyout_serves distributed dims element countable)
  refine ⟨final, host, sbuf', reached, finished, master, ?_, holds⟩
  intro rank bounded
  rcases Nat.eq_zero_or_pos rank with rfl | client
  · rw [master]
    rfl
  · rw [clients rank client bounded]
    rfl

omit element countable in
theorem distributed_afterCopyin (buf : Int → α) :
    Distributed space elmSize size globalOffset (afterCopyin grids buf) ∧
      HoldsGrid space size (afterCopyin grids buf) buf := by
  have fields : ∀ rank, ∀ own : Decomposed space elmSize size globalOffset rank
      (grids rank), Decomposed space elmSize size globalOffset rank
        (afterCopyin grids buf rank) ∧
      (afterCopyin grids buf rank).localSize = (grids rank).localSize ∧
      (afterCopyin grids buf rank).localOffset = (grids rank).localOffset ∧
      Reads space.numDims (afterCopyin grids buf rank).data (grids rank).localSize
        fun index => buf (linear size
          (fun i => (grids rank).localOffset i + index i) space.numDims) := by
    intro rank own
    rw [afterCopyin]
    split
    · rename_i same
      subst same
      exact ⟨own.withCells _, rfl, rfl, own.gridCopyinLocal_reads dims buf⟩
    · have reads := own.copiedIn_reads dims buf
      rw [copiedIn] at reads ⊢
      split
      · rename_i empty
        rw [if_pos empty] at reads
        exact ⟨own, rfl, rfl, reads⟩
      · rename_i occupied
        rw [if_neg occupied] at reads
        exact ⟨own.withCells _, rfl, rfl, reads⟩
  constructor
  · exact ⟨distributed.fits, fun rank bounded =>
      (fields rank (distributed.decomposed rank bounded)).1⟩
  · intro rank bounded index member
    obtain ⟨_, localSize, localOffset, reads⟩ :=
      fields rank (distributed.decomposed rank bounded)
    rw [localSize] at member ⊢
    rw [localOffset]
    exact reads index member

/-- Whatever the order of steps, `GridCopyin` ends with the host's elements. -/
theorem copyin_of_finished
    {buf sbuf : Int → α} {final : Network (CopyProcess α) (CopyMessage α)}
    (reached : Reaches (SystemStep (copyinBehaviour space.numProcs) space.numProcs)
      (startCopyin grids buf sbuf) final)
    (finished : CopyFinished space.numProcs final) :
    (∀ rank < space.numProcs,
        (final.process rank).grid = afterCopyin grids buf rank) ∧
      Distributed space elmSize size globalOffset
        (fun rank => (final.process rank).grid) ∧
      HoldsGrid space size (fun rank => (final.process rank).grid) buf := by
  obtain ⟨copied, reachedCopied, finishedCopied, after⟩ :=
    copyin_reaches_finished distributed dims element countable buf sbuf
  obtain rfl := eq_of_finished (copyinBehaviour_named _) (copyinBehaviour_halting _)
    reachedCopied finishedCopied reached finished
  obtain ⟨parts, holds⟩ := distributed_afterCopyin distributed dims buf
  refine ⟨after, ⟨parts.fits, fun rank bounded => ?_⟩, ?_⟩
  · rw [after rank bounded]
    exact parts.decomposed rank bounded
  · intro rank bounded index
    beta_reduce
    rw [after rank bounded]
    exact holds rank bounded index

/-- Whatever the order of steps, `GridCopyout` ends with all elements copied out. -/
theorem copyout_of_finished
    {buf sbuf : Int → α} {final : Network (CopyProcess α) (CopyMessage α)}
    (reached : Reaches (SystemStep (copyoutBehaviour space.numProcs) space.numProcs)
      (startCopyout grids buf sbuf) final)
    (finished : CopyFinished space.numProcs final) :
    (∀ rank < space.numProcs, (final.process rank).grid = grids rank) ∧
      ∃ host sbuf', final.process 0 = .master (grids 0) host sbuf' .returned ∧
        HostHolds space size grids space.numProcs host := by
  obtain ⟨gathered, host, sbuf', reachedGathered, finishedGathered, master, same,
    holds⟩ := copyout_reaches_finished distributed dims element countable buf sbuf
  obtain rfl := eq_of_finished (copyoutBehaviour_named _)
    (copyoutBehaviour_halting _) reachedGathered finishedGathered reached finished
  exact ⟨same, host, sbuf', master, holds⟩

omit dims element countable in
/-- A cell in the coordinates of its owner's subgrid. -/
theorem exists_local_index
    {cell : IndexArray} (inside : InBox space.numDims size cell) :
    ∃ owner < space.numProcs, space.Owns owner size globalOffset cell ∧
      InBox space.numDims (grids owner).localSize
        (fun i => cell i - (grids owner).localOffset i) ∧
      linear size (fun i => (grids owner).localOffset i +
        (cell i - (grids owner).localOffset i)) space.numDims =
          linear size cell space.numDims := by
  obtain ⟨owner, bounded, owns⟩ := space.exists_owner distributed.fits inside
  have own := distributed.decomposed owner bounded
  refine ⟨owner, bounded, owns, ?_, linear_congr (fun _ _ => rfl) fun i _ => by omega⟩
  intro i below
  have bounds := owns i below
  rw [← own.localOffset, ← own.localSize] at bounds
  exact ⟨sub_nonneg.mpr bounds.1, sub_left_lt_of_lt_add bounds.2⟩

end Distributed

/-! ## A client with too many bytes -/

/-- No count is as large as 2³¹. -/
theorem byteCount_lt
    {elmSize numDims count : Nat} {size : IndexArray}
    (counts : byteCount elmSize numDims size = some count) : count < 2 ^ 31 := by
  rw [byteCount, BufferHost.mpiCount] at counts
  split at counts
  · rw [← Option.some_inj.mp counts]
    obtain ⟨_, upper⟩ :
        FitsSigned 32 (toSigned 32 (getLinearSize elmSize numDims size)) :=
      fits_toSigned (by decide) _
    omega
  · cases counts

/-- A client that has received cells, but not the one at `last`, or none. -/
def LacksLast (grid : GridMPI α) (last : Nat) (process : CopyProcess α) : Prop :=
  (∃ phase, process = .client grid phase) ∨
    ∃ cells, cells.length ≤ last ∧ process = .client (grid.withCells cells) .returned

theorem LacksLast.data_eq
    {grid : GridMPI α} {last : Nat} {process : CopyProcess α}
    (lacks : LacksLast grid last process) :
    process.grid.localSize = grid.localSize ∧ process.grid.data last = grid.data last := by
  rcases lacks with ⟨phase, rfl⟩ | ⟨cells, short, rfl⟩
  · exact ⟨rfl, rfl⟩
  · refine ⟨rfl, ?_⟩
    rw [CopyProcess.grid, GridMPI.withCells_data, overwrite, if_pos (by omega),
      Int.toNat_natCast, List.getElem?_eq_none short, Option.getD_none]

/-- A step of a client with 2³¹ bytes or more does not bring it the last cell. -/
theorem LacksLast.step
    {numProcs rank last : Nat} {grid : GridMPI α}
    {before after : Network (CopyProcess α) (CopyMessage α)}
    (large : 2 ^ 31 ≤ grid.elmSize * (last + 1))
    (lacks : LacksLast grid last (before.process rank))
    (step : Network.Step (copyinBehaviour numProcs) rank before after) :
    LacksLast grid last (after.process rank) := by
  rcases lacks with ⟨phase, isClient⟩ | ⟨cells, short, isClient⟩
  · cases phase with
    | offset =>
        rw [step.of_send (by rw [isClient]; rfl), Network.advance_process, if_pos rfl]
        exact .inl ⟨_, rfl⟩
    | size =>
        rw [step.of_send (by rw [isClient]; rfl), Network.advance_process, if_pos rfl]
        exact .inl ⟨_, rfl⟩
    | data =>
        have does : copyinBehaviour numProcs rank (before.process rank) =
            Client.gridCopyin grid .data := by
          rw [isClient, copyinBehaviour_client]
        rw [Client.gridCopyin, Client.gridCopy] at does
        split at does
        · rw [step.of_silent does, Network.advance_process, if_pos rfl]
          exact .inl ⟨_, rfl⟩
        · rename_i count counts
          obtain ⟨source, message, rest, _, _, rfl⟩ := step.of_receive does
          rw [Network.advance_process, if_pos rfl]
          cases message with
          | index value => exact .inl ⟨_, rfl⟩
          | cells payload =>
              dsimp only
              split
              · rename_i length
                have fewer : count / grid.elmSize < last + 1 :=
                  Nat.div_lt_of_lt_mul ((byteCount_lt counts).trans_le large)
                exact .inr ⟨payload, by omega, rfl⟩
              · exact .inl ⟨_, rfl⟩
    | returned | failed => exact (step.of_stop (by rw [isClient]; rfl)).elim
  · exact (step.of_stop (by rw [isClient]; rfl)).elim

theorem lacksLast_of_reaches
    {numProcs rank last : Nat} {grids : Nat → GridMPI α} {buf sbuf : Int → α}
    {network : Network (CopyProcess α) (CopyMessage α)}
    (client : 0 < rank) (large : 2 ^ 31 ≤ (grids rank).elmSize * (last + 1))
    (reached : Reaches (SystemStep (copyinBehaviour numProcs) numProcs)
      (startCopyin grids buf sbuf) network) :
    LacksLast (grids rank) last (network.process rank) := by
  induction reached with
  | refl => exact .inl ⟨_, if_neg (by omega)⟩
  | tail _ step lacks =>
      obtain ⟨actor, _, step⟩ := step
      by_cases same : actor = rank
      · rw [same] at step
        exact lacks.step large step
      · obtain ⟨move, _, rfl⟩ := step_iff_move.mp step
        simp only [Move.apply, Function.update_of_ne (Ne.symm same)]
        exact lacks

/-! ## The copies and the sizes they are right for -/

/--
`GridCopyout` of these subgrids completes, whatever the order of steps, and
leaves the grid's elements in the host array.
-/
def CopiesOut
    (space : GridSpaceMPI) (size : IndexArray) (grids : Nat → GridMPI α)
    (out sbuf buf : Int → α) : Prop :=
  Completes (copyoutBehaviour space.numProcs) space.numProcs
      (startCopyout grids out sbuf) ∧
    ∀ gathered,
      Reaches (SystemStep (copyoutBehaviour space.numProcs) space.numProcs)
          (startCopyout grids out sbuf) gathered →
        CopyFinished space.numProcs gathered →
          ∃ grid host sbuf', gathered.process 0 = .master grid host sbuf' .returned ∧
            ∀ cell, InBox space.numDims size cell →
              host (linear size cell space.numDims) = buf (linear size cell space.numDims)

/--
`GridCopyin` of any host array completes, whatever the order of steps, and
leaves its elements in the subgrids, and `GridCopyout` gives the array back.
-/
def CopiesBack
    (space : GridSpaceMPI) (elmSize : Nat) (size globalOffset : IndexArray)
    (grids : Nat → GridMPI α) : Prop :=
  ∀ buf sbuf : Int → α,
    Completes (copyinBehaviour space.numProcs) space.numProcs
        (startCopyin grids buf sbuf) ∧
      ∀ scattered,
        Reaches (SystemStep (copyinBehaviour space.numProcs) space.numProcs)
            (startCopyin grids buf sbuf) scattered →
          CopyFinished space.numProcs scattered →
            Distributed space elmSize size globalOffset
                (fun rank => (scattered.process rank).grid) ∧
              HoldsGrid space size (fun rank => (scattered.process rank).grid) buf ∧
              ∀ out sbuf', CopiesOut space size
                (fun rank => (scattered.process rank).grid) out sbuf' buf

section Sizes

variable
    {space : GridSpaceMPI} {elmSize : Nat} {size globalOffset : IndexArray}
    {grids : Nat → GridMPI α}
    (distributed : Distributed space elmSize size globalOffset grids)
    (dims : 0 < space.numDims) (element : 0 < elmSize)

include distributed dims element

theorem copiesBack_of_countable
    (countable : Countable space elmSize size globalOffset) :
    CopiesBack space elmSize size globalOffset grids := by
  intro buf sbuf
  obtain ⟨copied, reached, finished, after⟩ :=
    copyin_reaches_finished distributed dims element countable buf sbuf
  refine ⟨completes_of_reaches (copyinBehaviour_named _) (copyinBehaviour_halting _)
    reached finished, ?_⟩
  intro scattered reachedScattered finishedScattered
  obtain ⟨_, distributedAfter, holdsAfter⟩ := copyin_of_finished distributed dims
    element countable reachedScattered finishedScattered
  refine ⟨distributedAfter, holdsAfter, ?_⟩
  intro out sbuf'
  obtain ⟨gatheredAll, _, _, reachedGathered, finishedGathered, _⟩ :=
    copyout_reaches_finished distributedAfter dims element countable out sbuf'
  refine ⟨completes_of_reaches (copyoutBehaviour_named _)
    (copyoutBehaviour_halting _) reachedGathered finishedGathered, ?_⟩
  intro gathered reachedOther finishedOther
  obtain ⟨_, host, sbuf'', master, hostHolds⟩ := copyout_of_finished distributedAfter
    dims element countable reachedOther finishedOther
  refine ⟨_, host, sbuf'', master, ?_⟩
  intro cell inside
  obtain ⟨owner, bounded, _, member, place⟩ := exists_local_index distributedAfter inside
  have gathers := hostHolds owner bounded _ member
  have scatters := holdsAfter owner bounded _ member
  beta_reduce at gathers scatters
  rw [place] at gathers scatters
  rw [gathers, scatters]

omit dims in
/-- Where the copies are right, no part has 2³¹ bytes. -/
theorem countable_of_copiesBack [Nontrivial α]
    (addressable : ∀ rank < space.numProcs,
      volume (space.localSize rank space.numDims size globalOffset) space.numDims * elmSize <
        2 ^ 63)
    (copies : CopiesBack space elmSize size globalOffset grids) :
    Countable space elmSize size globalOffset := by
  intro rank bounded
  have own := distributed.decomposed rank bounded
  have nonneg : ∀ i < space.numDims, 0 ≤ (grids rank).localSize i :=
    fun i below => own.localSize_nonneg below
  have addresses := addressable rank bounded
  rw [← own.localSize] at addresses ⊢
  rcases Nat.eq_zero_or_pos rank with rfl | client
  · -- the master's own part passes the assertions
    obtain ⟨completes, _⟩ := copies (grids 0).data (grids 0).data
    have passed := completes.matched _ .refl 0 bounded
    by_contra large
    apply passed
    have fails : (fillsBuffer (grids 0).elmSize (grids 0).numDims (grids 0).localSize &&
        endsAtSize (grids 0).elmSize (grids 0).numDims (grids 0).localSize) = false := by
      rw [Bool.eq_false_iff, Ne, Bool.and_eq_true, own.elmSize, own.numDims]
      rintro ⟨fills, ends⟩
      exact large (lt_of_fillsBuffer nonneg element addresses fills ends)
    rw [startCopyin, startCopy, fails]
    rfl
  · -- a client's last element arrives, whatever it is
    by_contra! large
    obtain ⟨elements, isElements⟩ := Int.eq_ofNat_of_zero_le (volume_nonneg nonneg)
    rw [isElements] at large
    have many : 2 ^ 31 ≤ elmSize * elements := by
      rw [Nat.mul_comm]
      exact_mod_cast large
    obtain ⟨last, rfl⟩ : ∃ last, elements = last + 1 :=
      Nat.exists_eq_succ_of_ne_zero fun none => by simp [none] at many
    obtain ⟨value, other⟩ := exists_ne ((grids rank).data last)
    obtain ⟨completes, identity⟩ := copies (fun _ => value) (fun _ => value)
    obtain ⟨scattered, reached, finished⟩ := completes.terminates.reaches_final
    obtain ⟨_, holds, _⟩ := identity scattered reached finished
    obtain ⟨sameSize, kept⟩ := (lacksLast_of_reaches client
      (by rw [own.elmSize]; exact many) reached).data_eq
    have occupied : (grids rank).empty = false := by
      rw [own.empty, own.numDims, IntegerArray.accumulate_eq_volume, isElements,
        decide_eq_false_iff_not]
      omega
    have member : InBox space.numDims (grids rank).localSize
        (fun i => (grids rank).localSize i - 1) := by
      intro i below
      have positive := own.empty_eq_false_iff.mp occupied i below
      constructor <;> beta_reduce <;> omega
    have cell := holds rank bounded (fun i => (grids rank).localSize i - 1)
      (by rw [sameSize]; exact member)
    beta_reduce at cell
    rw [sameSize, linear_last, isElements, Nat.cast_add_one, add_sub_cancel_right, kept] at cell
    exact other cell.symm

end Sizes

/--
Copying in and copying out again is the identity exactly if every process has
less than 2³¹ bytes of the grid.
-/
theorem copyin_copyout_identity_iff [Nontrivial α]
    {space : GridSpaceMPI} {elmSize : Nat} {size globalOffset : IndexArray}
    {grids : Nat → GridMPI α}
    (distributed : Distributed space elmSize size globalOffset grids)
    (dims : 0 < space.numDims) (element : 0 < elmSize)
    (addressable : ∀ rank < space.numProcs,
      volume (space.localSize rank space.numDims size globalOffset) space.numDims * elmSize <
        2 ^ 63) :
    CopiesBack space elmSize size globalOffset grids ↔
      Countable space elmSize size globalOffset :=
  ⟨countable_of_copiesBack distributed element addressable,
    copiesBack_of_countable distributed dims element⟩

/-- Four cells on three processes, the last of which has none. -/
theorem rowOfThree_copyin_copyout :
    ∃ scattered gathered grid host sbuf,
      Reaches (SystemStep (copyinBehaviour 3) 3)
          (startCopyin (HaloExchange.rowOfThree.distribute 4
            (IntegerArray.mk3 4 0 0) false (fun _ => 0) fun _ _ _ => (0 : Int))
            (fun position => position) fun _ => 0) scattered ∧
        Reaches (SystemStep (copyoutBehaviour 3) 3)
            (startCopyout (fun rank => (scattered.process rank).grid) (fun _ => 0)
              fun _ => 0) gathered ∧
          gathered.process 0 = .master grid host sbuf .returned ∧
            host (linear (IntegerArray.mk3 4 0 0) (IntegerArray.mk3 3 0 0) 1) =
              linear (IntegerArray.mk3 4 0 0) (IntegerArray.mk3 3 0 0) 1 := by
  have distributed := HaloExchange.rowOfThree.distribute_distributed 4
    (IntegerArray.mk3 4 0 0) false (fun _ => 0) (fun _ _ _ => (0 : Int)) (by decide)
  have few : Countable HaloExchange.rowOfThree 4 (IntegerArray.mk3 4 0 0) (fun _ => 0) := by
    unfold Countable
    decide
  obtain ⟨completes, identity⟩ := (copyin_copyout_identity_iff distributed (by decide)
    (by decide) fun rank bounded => (few rank bounded).trans (by decide)).mpr few
      (fun position => position) fun _ => 0
  obtain ⟨scattered, reachedScattered, finishedScattered⟩ :=
    completes.terminates.reaches_final
  obtain ⟨_, _, gathers⟩ := identity scattered reachedScattered finishedScattered
  obtain ⟨completesOut, reproduces⟩ := gathers (fun _ => 0) fun _ => 0
  obtain ⟨gathered, reachedGathered, finishedGathered⟩ :=
    completesOut.terminates.reaches_final
  obtain ⟨grid, host, sbuf, master, same⟩ :=
    reproduces gathered reachedGathered finishedGathered
  exact ⟨scattered, gathered, grid, host, sbuf, reachedScattered, reachedGathered,
    master, same (IntegerArray.mk3 3 0 0) (by unfold InBox; decide)⟩

theorem longLine_globalPos :
    ∀ i < 1, 0 < (IntegerArray.mk3 536870912 0 0 : IndexArray) i := by decide

theorem longLine_procPos : ∀ i < 1, 0 < (IntegerArray.mk3 2 0 0 : IntArray) i := by decide

/-- A line of 2²⁹ cells on two processes. -/
def longLine : GridSpaceMPI where
  numDims := 1
  globalSize := IntegerArray.mk3 536870912 0 0
  procSize := IntegerArray.mk3 2 0 0
  globalPos := longLine_globalPos
  procPos := longLine_procPos

/-- If its elements are doubles, the second process has 2³¹ bytes. -/
theorem longLine_not_copiesBack :
    ¬CopiesBack longLine 8 (IntegerArray.mk3 536870912 0 0) (fun _ => 0)
      (longLine.distribute 8 (IntegerArray.mk3 536870912 0 0) false (fun _ => 0)
        fun _ _ _ => (0 : Int)) := by
  have distributed := longLine.distribute_distributed 8
    (IntegerArray.mk3 536870912 0 0) false (fun _ => 0) (fun _ _ _ => (0 : Int)) (by decide)
  intro copies
  have large := countable_of_copiesBack distributed (by decide) (by decide) copies 1 (by decide)
  revert large
  decide

end Physis.Runtime
