import Physis.Library.Transfers
import Physis.Runtime.ExchangeScript

/-!
# Exchanges alternating with kernels

A run of several exchanges and kernels on one grid.  `ExchangeBoundariesAsync`
keeps the requests of its receives only: a send is posted and forgotten, and
`MPI_Isend` may read the buffer until it completes.  So here a message holds the
cells it is read from, and reading the next of them is a step of its own.
-/

namespace Physis.Runtime

open Physis.Library
open Physis.Library.Channels
open Physis.Library.Transfers
open Physis.Library.Runs

variable {α : Type}

/-! ## Memory that sends read from -/

/-- One element of a send buffer or of a data buffer. -/
inductive SendCell where
  | chunk (id : Nat) (position : Int)
  | data (buffer : Nat) (position : Int)
deriving DecidableEq, Repr

/-- The element at a position behind a pointer. -/
def HaloPtr.cell (ptr : HaloPtr) (position : Nat) : SendCell :=
  match ptr with
  | .chunk id => .chunk id position
  | .data buffer offset => .data buffer (offset + position)

namespace GridMPI

/-- The value of an element. -/
def load (grid : GridMPI α) : SendCell → α
  | .chunk id position => grid.chunks id position
  | .data buffer position => grid.dataBuffer buffer position

/-- `Grid::Swap` -/
def swap (grid : GridMPI α) : GridMPI α :=
  { grid with
    dataId := fun i =>
      if i = 0 then grid.dataId 1
      else if i = 1 then grid.dataId 0
      else grid.dataId i }

/--
A kernel emits values into `_data_emit()`, and the grid is swapped after it.
Without double buffering both buffers are the same.
-/
def runKernel (grid : GridMPI α) (emitted : Int → Option α) : GridMPI α :=
  swap
    { grid with
      dataBuffer := Function.update grid.dataBuffer (grid.dataId 1)
        fun position =>
          (emitted position).getD (grid.dataBuffer (grid.dataId 1) position) }

/-- The grid when `CopyoutHalo` asks for its send buffer. -/
def haloBuf
    (grid : GridMPI α) (dim width : Nat) (dir : Dir)
    (diagonal : Bool) : GridMPI α :=
  { grid with haloHasDiagonal := diagonal }.getHaloBuf dim width dir diagonal

end GridMPI

/-! ## Processes -/

/-- What a process does next with the grid. -/
inductive GridOperation (α : Type) where
  | exchange (exchange : HaloExchange)
  | kernel (emitted : GridMPI α → Int → Option α)

/-- A halo message and how far it has been read. -/
structure HaloSend (α : Type) where
  halo : HaloTransfer
  ptr : HaloPtr
  transfer : Transfer SendCell α

/-- One process in a run of operations. -/
structure IterationProcess (α : Type) where
  grid : GridMPI α
  operations : List (GridOperation α)
  /-- the arguments of the exchange in progress -/
  exchange : HaloExchange
  todo : List ExchangeAction
  requests : List HaloRequest

structure IterationState (α : Type) where
  process : Nat → IterationProcess α
  /-- by receiver and source -/
  posted : Nat → Nat → List HaloTransfer
  /-- by source and target -/
  sent : Nat → Nat → List (HaloSend α)

namespace IterationState

/-- One process goes on. -/
def advance
    (state : IterationState α) (rank : Nat) (process : IterationProcess α) :
    IterationState α :=
  { state with process := Function.update state.process rank process }

/-- The message `CopyoutHalo` has prepared is posted. -/
def isend
    (state : IterationState α) (rank target : Nat) (halo : HaloTransfer)
    (grid : GridMPI α) (ptr : HaloPtr) (count : Nat) : IterationState α :=
  { state with
    sent := push state.sent rank target
      { halo := halo
        ptr := ptr
        transfer := .post grid.load ((List.range count).map ptr.cell) } }

@[simp]
theorem advance_process_self
    (state : IterationState α) (rank : Nat) (process : IterationProcess α) :
    (state.advance rank process).process rank = process := by
  simp [advance]

theorem advance_process_other
    (state : IterationState α) {rank other : Nat} (different : other ≠ rank)
    (process : IterationProcess α) :
    (state.advance rank process).process other = state.process other := by
  simp [advance, different]

@[simp]
theorem advance_sent
    (state : IterationState α) (rank : Nat) (process : IterationProcess α) :
    (state.advance rank process).sent = state.sent :=
  rfl

variable (space : GridSpaceMPI)

/-- The next step of one process. -/
def programStep
    (rank : Nat) (state : IterationState α) : Option (IterationState α) :=
  let process := state.process rank
  let grid := process.grid
  let exchange := process.exchange
  match process.todo with
  | [] =>
      match process.operations with
      | [] => none
      | .exchange next :: rest =>
          some (state.advance rank
            { process with
              operations := rest
              exchange := next
              todo :=
                if grid.empty then [] else exchangeProgram grid.numDims })
      | .kernel emitted :: rest =>
          some (state.advance rank
            { process with
              operations := rest
              grid := grid.runKernel (emitted grid) })
  | .recv dim dir :: rest =>
      if exchange.receives grid dim dir then
        let source := space.neighbor rank dim dir
        let halo := exchange.transfer grid dim dir
        some (({ state with posted := push state.posted rank source halo }
            : IterationState α).advance rank
          { process with
            grid := exchange.prepareRecv grid dim dir
            todo := rest
            requests := process.requests ++
              [⟨halo, source, (state.posted rank source).length⟩] })
      else
        some (state.advance rank
          { process with
            grid := HaloExchange.clearHalo grid dim dir
            todo := rest })
  | .send dim dir :: rest =>
      if exchange.sends grid dim dir then
        (grid.copyoutHalo dim (exchange.width dir dim) dir
            exchange.diagonal).map fun packed =>
          (state.isend rank (space.neighbor rank dim dir.flip)
              (exchange.transfer grid dim dir) packed (packed.haloSelf dir dim)
              (grid.calcHaloSize dim (exchange.width dir dim)
                exchange.diagonal)).advance rank
            { process with grid := packed, todo := rest }
      else
        some (state.advance rank { process with todo := rest })
  | .wait _ :: rest =>
      match process.requests with
      | [] => some (state.advance rank { process with todo := rest })
      | request :: others =>
          match (state.sent request.source rank)[request.ticket]? with
          | none => none
          | some message =>
              if message.transfer.Outstanding ∨
                  request.halo.bytes < message.halo.bytes then
                none
              else
                some (state.advance rank
                  { process with
                    grid := HaloExchange.deliver grid request.halo
                      message.transfer.read
                    requests := others })

/-- A message with its next element read. -/
def readMessage (state : IterationState α) (source : Nat)
    (message : HaloSend α) : HaloSend α :=
  { message with
    transfer := message.transfer.readNext (state.process source).grid.load }

/-- MPI reads the next element of an outstanding message. -/
def readStep
    (source target ticket : Nat) (state : IterationState α) :
    Option (IterationState α) :=
  match (state.sent source target)[ticket]? with
  | none => none
  | some message =>
      if message.transfer.Outstanding then
        some
          { state with
            sent := Function.update state.sent source
              (Function.update (state.sent source) target
                ((state.sent source target).modify ticket
                  (state.readMessage source))) }
      else none

/-- Some process goes on, or some message is read on. -/
def Step (before after : IterationState α) : Prop :=
  (∃ rank < space.numProcs, programStep space rank before = some after) ∨
    ∃ source target ticket, readStep source target ticket before = some after

/-- Every process before its first operation. -/
def start
    (grids : Nat → GridMPI α) (operations : Nat → List (GridOperation α)) :
    IterationState α where
  process rank :=
    { grid := grids rank
      operations := operations rank
      exchange := ⟨fun _ _ => 0, false, false⟩
      todo := []
      requests := [] }
  posted _ _ := []
  sent _ _ := []

/-! ## What a step writes -/

/-- The elements the next step of a process may write. -/
def writes (process : IterationProcess α) : SendCell → Prop :=
  match process.todo with
  | [] =>
      match process.operations with
      | .kernel emitted :: _ => fun cell =>
          ∃ position, cell = .data (process.grid.dataId 1) position ∧
            (emitted process.grid position).isSome
      | _ => fun _ => False
  | .send dim dir :: _ =>
      if process.exchange.sends process.grid dim dir = true ∧
          dim ≠ process.grid.numDims - 1 then
        fun cell => ∃ position,
          cell = HaloPtr.cell
            ((process.grid.haloBuf dim (process.exchange.width dir dim) dir
              process.exchange.diagonal).haloSelf dir dim) position
      else fun _ => False
  | _ => fun _ => False

/-- Some message of the process is outstanding on an element it is to write. -/
def Overwrites (state : IterationState α) (rank : Nat) : Prop :=
  ∃ target, ∃ message ∈ state.sent rank target,
    message.transfer.Outstanding ∧
      ∃ cell ∈ message.transfer.cells, writes (state.process rank) cell

end IterationState

section Frame

variable {grid after : GridMPI α}

/-- A write through a pointer changes the elements behind the pointer only. -/
theorem load_writePtr
    (ptr : HaloPtr) (cells : List α) {cell : SendCell}
    (spared : ∀ position, cell ≠ ptr.cell position) :
    (grid.writePtr ptr cells).load cell = grid.load cell := by
  cases ptr with
  | chunk id =>
      cases cell with
      | data buffer position => rfl
      | chunk other position =>
          simp only [GridMPI.writePtr, GridMPI.load]
          by_cases same : other = id
          · subst same
            rw [Function.update_self, RowMajor.overwrite]
            split
            · rename_i nonneg
              exact absurd (by simp [HaloPtr.cell, Int.toNat_of_nonneg nonneg])
                (spared position.toNat)
            · rfl
          · rw [Function.update_of_ne same]
  | data buffer offset =>
      cases cell with
      | chunk id position => rfl
      | data other position =>
          simp only [GridMPI.writePtr, GridMPI.load]
          by_cases same : other = buffer
          · subst same
            rw [Function.update_self, RowMajor.overwrite]
            split
            · rename_i nonneg
              exact absurd (by simp [HaloPtr.cell, Int.toNat_of_nonneg nonneg])
                (spared (position - offset).toNat)
            · congr 1
              omega
          · rw [Function.update_of_ne same]

/-- `CopyoutHalo` writes to its send buffer only, and for the last dimension to none. -/
theorem load_copyoutHalo
    {dim width : Nat} {dir : Dir} {diagonal : Bool}
    (packed : grid.copyoutHalo dim width dir diagonal = some after)
    {cell : SendCell}
    (spared : dim ≠ grid.numDims - 1 → ∀ position,
      cell ≠ HaloPtr.cell
        ((grid.haloBuf dim width dir diagonal).haloSelf dir dim) position) :
    after.load cell = grid.load cell := by
  simp only [GridMPI.copyoutHalo] at packed
  split at packed
  · cases packed
    cases cell <;> rfl
  · rename_i notLast
    rw [Option.map_eq_some_iff] at packed
    obtain ⟨cells, _, rfl⟩ := packed
    have allocated : ∀ marked : GridMPI α,
        (marked.getHaloBuf dim width dir diagonal).load cell =
          marked.load cell := by
      intro marked
      simp only [GridMPI.getHaloBuf]
      split <;> cases cell <;> rfl
    have written :
        ((grid.haloBuf dim width dir diagonal).writePtr
          ((grid.haloBuf dim width dir diagonal).haloSelf dir dim) cells).load cell =
          (grid.haloBuf dim width dir diagonal).load cell :=
      load_writePtr _ cells (spared notLast)
    simp only [GridMPI.haloBuf, allocated] at written
    cases cell <;> exact written

/-- A kernel changes the elements it emits only. -/
theorem load_runKernel
    {emitted : Int → Option α} {cell : SendCell}
    (spared : ∀ position, (emitted position).isSome →
      cell ≠ .data (grid.dataId 1) position) :
    (grid.runKernel emitted).load cell = grid.load cell := by
  cases cell with
  | chunk id position => rfl
  | data buffer position =>
      simp only [GridMPI.runKernel, GridMPI.swap, GridMPI.load]
      by_cases same : buffer = grid.dataId 1
      · subst same
        rw [Function.update_self]
        cases value : emitted position with
        | none => rfl
        | some emittedValue =>
            exact absurd rfl (spared position (by rw [value]; rfl))
      · rw [Function.update_of_ne same]

end Frame

end Physis.Runtime
