import Physis.Runtime.ExchangeDelivery

/-!
# What an exchange leaves alone

`ExchangeBoundaries` fills halos and send buffers.  The elements of a process,
its remote grid and the place of its subgrid stay as they were, however the
steps are ordered.
-/

namespace Physis.Runtime

open Physis.Library
open Physis.Library.RowMajor
open Physis.Library.Runs

variable {α : Type}

/-! ## Grids that differ in their halos -/

/-- The grids differ at most in halos and send buffers. -/
def GridMPI.SameButHalos (grid before : GridMPI α) : Prop :=
  ∃ haloHasDiagonal haloWidth haloSize haloSelf haloSelfBufSize haloPeer
      haloPeerBufSize chunks nextChunk,
    grid =
      { before with
        haloHasDiagonal := haloHasDiagonal
        haloWidth := haloWidth
        haloSize := haloSize
        haloSelf := haloSelf
        haloSelfBufSize := haloSelfBufSize
        haloPeer := haloPeer
        haloPeerBufSize := haloPeerBufSize
        chunks := chunks
        nextChunk := nextChunk }

namespace GridMPI.SameButHalos

variable {grid middle before : GridMPI α}

theorem refl (grid : GridMPI α) : grid.SameButHalos grid :=
  ⟨_, _, _, _, _, _, _, _, _, rfl⟩

theorem trans
    (last : grid.SameButHalos middle) (first : middle.SameButHalos before) :
    grid.SameButHalos before := by
  obtain ⟨_, _, _, _, _, _, _, _, _, rfl⟩ := last
  obtain ⟨_, _, _, _, _, _, _, _, _, rfl⟩ := first
  exact ⟨_, _, _, _, _, _, _, _, _, rfl⟩

theorem remoteGrid (same : grid.SameButHalos before) :
    grid.remoteGrid = before.remoteGrid := by
  obtain ⟨_, _, _, _, _, _, _, _, _, rfl⟩ := same
  rfl

/-- The subgrid stays where it is. -/
theorem decomposed
    {space : GridSpaceMPI} {elmSize rank : Nat} {size globalOffset : IndexArray}
    (same : grid.SameButHalos before) (chunks : grid.SelfChunks)
    (own : Decomposed space elmSize size globalOffset rank before) :
    Decomposed space elmSize size globalOffset rank grid := by
  obtain ⟨_, _, _, _, _, _, _, _, _, rfl⟩ := same
  exact ⟨own.elmSize, own.numDims, own.localOffset, own.localSize, own.empty,
    own.size, own.globalOffset, chunks⟩

end GridMPI.SameButHalos

/-- `CopyoutHalo` changes send buffers, and writes to chunks only. -/
theorem GridMPI.copyoutHalo_sameButHalos
    {grid after : GridMPI α} {dim width : Nat} {dir : Dir} {diagonal : Bool}
    (chunks : grid.SelfChunks) (below : dim < grid.numDims)
    (packed : grid.copyoutHalo dim width dir diagonal = some after) :
    after.SameButHalos grid ∧ after.SelfChunks := by
  by_cases last : dim = grid.numDims - 1
  · simp only [copyoutHalo, if_pos last, Option.some.injEq] at packed
    subst packed
    refine ⟨⟨_, _, _, _, _, _, _, _, _, rfl⟩, ?_⟩
    intro side e inner
    obtain ⟨id, equal⟩ := chunks side e inner
    refine ⟨id, ?_⟩
    have different : e ≠ dim := by
      have : e + 1 < grid.numDims := inner
      omega
    by_cases sameDir : side = dir
    · subst sameDir
      simpa [different] using equal
    · simpa [sameDir] using equal
  · let marked : GridMPI α := { grid with haloHasDiagonal := diagonal }
    obtain ⟨haloSelf, sizes, next, id, allocated, here, allChunks⟩ :=
      marked.getHaloBuf_chunk width dir diagonal chunks
        (show dim + 1 < grid.numDims by omega)
    simp only [copyoutHalo, if_neg last, Option.map_eq_some_iff] at packed
    obtain ⟨cells, -, rfl⟩ := packed
    rw [allocated]
    simp only [withSendBuffers, writePtr, here]
    exact ⟨⟨_, _, _, _, _, _, _, _, _, rfl⟩, allChunks⟩

/-! ## Runs -/

namespace HaloExchange

variable
    {exchange : HaloExchange} {space : GridSpaceMPI} {elmSize : Nat}
    {size globalOffset : IndexArray} {grids : Nat → GridMPI α}
    {state : ExchangeState α}

/-- One process has changed nothing but halos and send buffers. -/
structure Frames (rank : Nat) (grids : Nat → GridMPI α) (state : ExchangeState α) :
    Prop where
  same : (state.process rank).grid.SameButHalos (grids rank)
  sendBuffers : (state.process rank).grid.SelfChunks

theorem Frames.advance
    {rank : Nat} {after : ExchangeState α} {process : ExchangeProcess α}
    (frames : Frames rank grids state) (is : after.process rank = process)
    (same : process.grid.SameButHalos (state.process rank).grid)
    (sendBuffers : process.grid.SelfChunks) :
    Frames rank grids after where
  same := by
    rw [is]
    exact same.trans frames.same
  sendBuffers := by
    rw [is]
    exact sendBuffers

/-- A step of the process itself keeps the frame. -/
theorem Frames.performs
    {rank : Nat} {after : ExchangeState α} {done : List ExchangeAction}
    (frames : Frames rank grids state)
    (follows : exchange.Follows space grids rank state done)
    (performs : exchange.Performs space rank state after) :
    Frames rank grids after := by
  have chunks := frames.sendBuffers
  cases performs with
  | recv next receives =>
      exact frames.advance (ExchangeState.advance_process_self _ _ _)
        ⟨_, _, _, _, _, _, _, _, _, rfl⟩ chunks
  | skipRecv next receives =>
      exact frames.advance (ExchangeState.advance_process_self _ _ _)
        ⟨_, _, _, _, _, _, _, _, _, rfl⟩ chunks
  | @send dim dir rest grid next sends packed =>
      have inProgram : .send dim dir ∈ exchangeProgram (grids rank).numDims := by
        rw [← (follows.split next).2]
        simp
      obtain ⟨sent, sentChunks⟩ := GridMPI.copyoutHalo_sameButHalos chunks (by
        rw [follows.shape.numDims]
        exact (mem_exchangeProgram _ _).mp inProgram) packed
      exact frames.advance (ExchangeState.advance_process_self _ _ _) sent sentChunks
  | skipSend next sends =>
      exact frames.advance (ExchangeState.advance_process_self _ _ _) (.refl _) chunks
  | complete next first arrived fits =>
      exact frames.advance (ExchangeState.advance_process_self _ _ _)
        ⟨_, _, _, _, _, _, _, _, _, rfl⟩ chunks
  | leave next done =>
      exact frames.advance (ExchangeState.advance_process_self _ _ _) (.refl _) chunks

/-- Every process follows its script and keeps the frame. -/
def Framed
    (exchange : HaloExchange) (space : GridSpaceMPI) (grids : Nat → GridMPI α)
    (state : ExchangeState α) : Prop :=
  exchange.Synchronised space grids state ∧
    ∀ rank < space.numProcs, Frames rank grids state

theorem Framed.step
    {after : ExchangeState α} (framed : exchange.Framed space grids state)
    (step : exchange.Step space state after) :
    exchange.Framed space grids after := by
  obtain ⟨synchronised, frames⟩ := framed
  refine ⟨synchronised.step step, fun rank bounded => ?_⟩
  obtain ⟨actor, _, performed⟩ := step
  have performs := exchange.performs_of_step space performed
  by_cases same : rank = actor
  · subst same
    obtain ⟨done, follows⟩ := synchronised rank bounded
    exact (frames rank bounded).performs follows performs
  · obtain ⟨process, -, -⟩ := performs.others.1 rank same
    exact (frames rank bounded).advance process (.refl _)
      (frames rank bounded).sendBuffers

/-- In every state of an exchange the processes have what they had. -/
theorem frames_of_reaches
    (distributed : Distributed space elmSize size globalOffset grids)
    (reached : Reaches (exchange.Step space) (start grids) state) :
    ∀ rank < space.numProcs, Frames rank grids state := by
  have initial : exchange.Framed space grids (start grids) :=
    ⟨synchronised_start exchange space grids, fun rank bounded =>
      ⟨.refl _, (distributed.decomposed rank bounded).sendBuffers⟩⟩
  exact (reached.invariant initial fun _ _ => Framed.step).2

end HaloExchange

end Physis.Runtime
