import Physis.Library.Channels
import Physis.Library.Runs
import Physis.Runtime.Neighbors

/-!
# `ExchangeBoundaries` as a transition system

Every process runs through the dimensions from the last to the first.  For each
it posts the receives of its two halos, sends the halos of its neighbours, and
waits for its own receives.  A step is one of these blocks of
`ExchangeBoundariesAsync`, or one `MPI_Wait`.

Direction and dimension are not part of a message's tag: the `k`-th receive
posted for a source is matched with the `k`-th message that source sends.  The
histories below therefore carry the halo a receive or a message is meant for
only as a note; a step never looks at it, the byte count apart.
-/

namespace Physis.Runtime

open Physis.Library
open Physis.Library.RowMajor
open Physis.Library.Channels

/-- The arguments of `ExchangeBoundaries`, the same on every process. -/
structure HaloExchange where
  width : Dir → UnsignedArray
  diagonal : Bool
  periodic : Bool

/-- The halo a receive is posted for or a message carries. -/
structure HaloTransfer where
  dim : Nat
  dir : Dir
  bytes : Nat
deriving DecidableEq, Repr

/-- A pending receive: the `ticket`-th posted for its source. -/
structure HaloRequest where
  halo : HaloTransfer
  source : Nat
  ticket : Nat
deriving DecidableEq, Repr

/-- A sent message. -/
structure HaloMessage (α : Type) where
  halo : HaloTransfer
  payload : List α

/-- The blocks of `ExchangeBoundariesAsync` and the waits after it. -/
inductive ExchangeAction where
  | recv (dim : Nat) (dir : Dir)
  | send (dim : Nat) (dir : Dir)
  | wait (dim : Nat)
deriving DecidableEq, Repr

/-- `ExchangeBoundaries` for one dimension. -/
def exchangeDimension (dim : Nat) : List ExchangeAction :=
  [.recv dim .fw, .recv dim .bw, .send dim .fw, .send dim .bw, .wait dim]

/-- The loop of `ExchangeBoundaries`, from the last dimension to the first. -/
def exchangeProgram : Nat → List ExchangeAction
  | 0 => []
  | dim + 1 => exchangeDimension dim ++ exchangeProgram dim

/-- One process: its grid, what it has still to do, and its open requests. -/
structure ExchangeProcess (α : Type) where
  grid : GridMPI α
  todo : List ExchangeAction
  requests : List HaloRequest

/-- All processes, the receives each has posted and the messages each has sent. -/
structure ExchangeState (α : Type) where
  process : Nat → ExchangeProcess α
  /-- by receiver and source -/
  posted : Nat → Nat → List HaloTransfer
  /-- by source and target -/
  sent : Nat → Nat → List (HaloMessage α)

namespace ExchangeState

variable {α : Type}

/-- One process goes on. -/
def advance
    (state : ExchangeState α) (rank : Nat) (process : ExchangeProcess α) :
    ExchangeState α :=
  { state with process := Function.update state.process rank process }

/-- One process posts a receive. -/
def post
    (state : ExchangeState α) (rank source : Nat) (halo : HaloTransfer) :
    ExchangeState α :=
  { state with posted := push state.posted rank source halo }

/-- One process sends a message. -/
def transmit
    (state : ExchangeState α) (rank target : Nat) (message : HaloMessage α) :
    ExchangeState α :=
  { state with sent := push state.sent rank target message }

end ExchangeState

namespace HaloExchange

variable {α : Type} (exchange : HaloExchange)

/-- The condition under which a halo is received. -/
def receives (grid : GridMPI α) (dim : Nat) (dir : Dir) : Bool :=
  decide (0 < exchange.width dir dim) &&
    (exchange.periodic || grid.continues dim dir)

/-- The condition under which the halo of a direction is sent. -/
def sends (grid : GridMPI α) (dim : Nat) (dir : Dir) : Bool :=
  decide (0 < exchange.width dir dim) &&
    (exchange.periodic || grid.continues dim dir.flip)

/-- `fw_size` or `bw_size` -/
def haloBytes (grid : GridMPI α) (dim : Nat) (dir : Dir) : Nat :=
  grid.calcHaloSize dim (exchange.width dir dim) exchange.diagonal * grid.elmSize

/-- The halo of a dimension and direction with its byte count. -/
def transfer (grid : GridMPI α) (dim : Nat) (dir : Dir) : HaloTransfer :=
  ⟨dim, dir, exchange.haloBytes grid dim dir⟩

/-- The fields set before a receive is posted. -/
def prepareRecv (grid : GridMPI α) (dim : Nat) (dir : Dir) : GridMPI α :=
  let bytes := exchange.haloBytes grid dim dir
  { grid.setHaloSize dim dir (exchange.width dir dim) exchange.diagonal with
    haloPeerBufSize :=
      if grid.haloPeerBufSize dir dim < bytes then
        Function.update grid.haloPeerBufSize dir
          (Function.update (grid.haloPeerBufSize dir) dim bytes)
      else grid.haloPeerBufSize
    haloWidth := Function.update grid.haloWidth dir
      (Function.update (grid.haloWidth dir) dim (exchange.width dir dim)) }

/-- The fields set where no halo is received. -/
def clearHalo (grid : GridMPI α) (dim : Nat) (dir : Dir) : GridMPI α :=
  { grid with
    haloWidth := Function.update grid.haloWidth dir
      (Function.update (grid.haloWidth dir) dim 0)
    haloSize := Function.update grid.haloSize dir
      (Function.update (grid.haloSize dir) dim fun _ => 0) }

/-- A message arrives in the buffer its receive was posted with. -/
def deliver
    (grid : GridMPI α) (halo : HaloTransfer) (payload : List α) : GridMPI α :=
  { grid with
    haloPeer := Function.update grid.haloPeer halo.dir
      (Function.update (grid.haloPeer halo.dir) halo.dim
        (overwrite (grid.haloPeer halo.dir halo.dim) payload)) }

variable (space : GridSpaceMPI)

/--
The next step of one process, `none` while it has to wait, and for ever if it
is done, has aborted, or a message is longer than its receive.
-/
def step (rank : Nat) (state : ExchangeState α) : Option (ExchangeState α) :=
  let process := state.process rank
  match process.todo with
  | [] => none
  | .recv dim dir :: rest =>
      if exchange.receives process.grid dim dir then
        let source := space.neighbor rank dim dir
        let halo := exchange.transfer process.grid dim dir
        some ((state.post rank source halo).advance rank
          { grid := exchange.prepareRecv process.grid dim dir
            todo := rest
            requests := process.requests ++
              [⟨halo, source, (state.posted rank source).length⟩] })
      else
        some (state.advance rank
          { process with grid := clearHalo process.grid dim dir, todo := rest })
  | .send dim dir :: rest =>
      if exchange.sends process.grid dim dir then
        (process.grid.copyoutHalo dim (exchange.width dir dim) dir
            exchange.diagonal).map fun grid =>
          (state.transmit rank (space.neighbor rank dim dir.flip)
            { halo := exchange.transfer process.grid dim dir
              payload := grid.readCells (grid.haloSelf dir dim)
                (process.grid.calcHaloSize dim (exchange.width dir dim)
                  exchange.diagonal) }).advance rank
            { process with grid := grid, todo := rest }
      else
        some (state.advance rank { process with todo := rest })
  | .wait _ :: rest =>
      match process.requests with
      | [] => some (state.advance rank { process with todo := rest })
      | request :: others =>
          match (state.sent request.source rank)[request.ticket]? with
          | none => none
          | some message =>
              if message.halo.bytes ≤ request.halo.bytes then
                some (state.advance rank
                  { process with
                    grid := deliver process.grid request.halo message.payload
                    requests := others })
              else none

/-- Some process takes a step. -/
def Step (before after : ExchangeState α) : Prop :=
  ∃ rank < space.numProcs, exchange.step space rank before = some after

/-- Every process has returned. -/
def Finished (state : ExchangeState α) : Prop :=
  ∀ rank < space.numProcs, (state.process rank).todo = []

/-- The call as every process enters it; a process without data returns at once. -/
def start (grids : Nat → GridMPI α) : ExchangeState α where
  process rank :=
    { grid := grids rank
      todo :=
        if (grids rank).empty then [] else exchangeProgram (grids rank).numDims
      requests := [] }
  posted _ _ := []
  sent _ _ := []

/-! ## What one step does -/

/-- The steps of a process, by the block it has reached. -/
inductive Performs (rank : Nat) (state : ExchangeState α) : ExchangeState α → Prop
  | recv {dim dir rest}
      (next : (state.process rank).todo = .recv dim dir :: rest)
      (receives : exchange.receives (state.process rank).grid dim dir = true) :
      Performs rank state
        ((state.post rank (space.neighbor rank dim dir)
            (exchange.transfer (state.process rank).grid dim dir)).advance rank
          { grid := exchange.prepareRecv (state.process rank).grid dim dir
            todo := rest
            requests := (state.process rank).requests ++
              [⟨exchange.transfer (state.process rank).grid dim dir,
                space.neighbor rank dim dir,
                (state.posted rank (space.neighbor rank dim dir)).length⟩] })
  | skipRecv {dim dir rest}
      (next : (state.process rank).todo = .recv dim dir :: rest)
      (receives : exchange.receives (state.process rank).grid dim dir = false) :
      Performs rank state
        (state.advance rank
          { grid := clearHalo (state.process rank).grid dim dir
            todo := rest
            requests := (state.process rank).requests })
  | send {dim dir rest grid}
      (next : (state.process rank).todo = .send dim dir :: rest)
      (sends : exchange.sends (state.process rank).grid dim dir = true)
      (packed : (state.process rank).grid.copyoutHalo dim
        (exchange.width dir dim) dir exchange.diagonal = some grid) :
      Performs rank state
        ((state.transmit rank (space.neighbor rank dim dir.flip)
            { halo := exchange.transfer (state.process rank).grid dim dir
              payload := grid.readCells (grid.haloSelf dir dim)
                ((state.process rank).grid.calcHaloSize dim
                  (exchange.width dir dim) exchange.diagonal) }).advance rank
          { grid := grid
            todo := rest
            requests := (state.process rank).requests })
  | skipSend {dim dir rest}
      (next : (state.process rank).todo = .send dim dir :: rest)
      (sends : exchange.sends (state.process rank).grid dim dir = false) :
      Performs rank state
        (state.advance rank
          { grid := (state.process rank).grid
            todo := rest
            requests := (state.process rank).requests })
  | complete {dim rest request others message}
      (next : (state.process rank).todo = .wait dim :: rest)
      (first : (state.process rank).requests = request :: others)
      (arrived :
        (state.sent request.source rank)[request.ticket]? = some message)
      (fits : message.halo.bytes ≤ request.halo.bytes) :
      Performs rank state
        (state.advance rank
          { grid :=
              deliver (state.process rank).grid request.halo message.payload
            todo := (state.process rank).todo
            requests := others })
  | leave {dim rest}
      (next : (state.process rank).todo = .wait dim :: rest)
      (done : (state.process rank).requests = []) :
      Performs rank state
        (state.advance rank
          { grid := (state.process rank).grid
            todo := rest
            requests := (state.process rank).requests })

theorem performs_of_step
    {rank : Nat} {state after : ExchangeState α}
    (step : exchange.step space rank state = some after) :
    exchange.Performs space rank state after := by
  simp only [HaloExchange.step] at step
  split at step
  · cases step
  · rename_i dim dir rest next
    by_cases receives : exchange.receives (state.process rank).grid dim dir
    · rw [if_pos receives] at step
      cases step
      exact .recv next receives
    · rw [if_neg receives] at step
      cases step
      exact .skipRecv next (by simpa using receives)
  · rename_i dim dir rest next
    by_cases sends : exchange.sends (state.process rank).grid dim dir
    · rw [if_pos sends, Option.map_eq_some_iff] at step
      obtain ⟨grid, packed, rfl⟩ := step
      exact .send next sends packed
    · rw [if_neg sends] at step
      cases step
      exact .skipSend next (by simpa using sends)
  · rename_i dim rest next
    split at step
    · rename_i done
      cases step
      exact .leave next done
    · rename_i request others first
      split at step
      · cases step
      · rename_i message arrived
        by_cases fits : message.halo.bytes ≤ request.halo.bytes
        · rw [if_pos fits] at step
          cases step
          exact .complete next first arrived fits
        · rw [if_neg fits] at step
          cases step

end HaloExchange

end Physis.Runtime
