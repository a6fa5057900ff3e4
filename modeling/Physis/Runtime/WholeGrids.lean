import Physis.Runtime.GridAccessRuns
import Physis.Runtime.StencilRuns

/-!
# Parts of a grid and the whole

What the processes of a run hold of a grid is compared with the arrays of a single
process: their own elements, what an exchange or a round of `LoadSubgrid` has left
with them, and the remote copies that a later load may find.
-/

namespace Physis.Runtime

open Physis.Library
open Physis.Library.RowMajor
open Physis.Library.Runs
open Physis.Translator

variable {α : Type}

/-! ## Elements -/

/-- The grids have the same buffers in the same places. -/
structure GridMPI.SameBuffers (part before : GridMPI α) : Prop where
  dataBuffer : part.dataBuffer = before.dataBuffer
  dataId : part.dataId = before.dataId
  localOffset : part.localOffset = before.localOffset
  localSize : part.localSize = before.localSize

theorem GridMPI.SameData.sameBuffers
    {part before : GridMPI α} (same : part.SameData before) : part.SameBuffers before := by
  obtain ⟨_, _, rfl⟩ := same
  exact ⟨rfl, rfl, rfl, rfl⟩

theorem GridMPI.SameButHalos.sameBuffers
    {part before : GridMPI α} (same : part.SameButHalos before) :
    part.SameBuffers before := by
  obtain ⟨_, _, _, _, _, _, _, _, _, rfl⟩ := same
  exact ⟨rfl, rfl, rfl, rfl⟩

namespace GridMPI.PartOf

variable {numDims : Nat} {size : IndexArray} {part before : GridMPI α} {whole : WholeGrid α}

theorem of_sameBuffers
    (partOf : before.PartOf numDims size whole) (same : part.SameBuffers before) :
    part.PartOf numDims size whole := by
  obtain ⟨dataBuffer, dataId, localOffset, localSize⟩ := same
  refine ⟨fun i below => by rw [dataId]; exact partOf.ids i below, fun i below => ?_⟩
  rw [dataBuffer, dataId, localOffset, localSize]
  exact partOf.cells i below

/-- The buffer that is read has the values of the whole one. -/
theorem data
    (partOf : part.PartOf numDims size whole) {index : IndexArray}
    (member : InBox numDims part.localSize index) :
    part.data (linear part.localSize index numDims) =
      whole.data (linear size (fun d => part.localOffset d + index d) numDims) :=
  partOf.cells 0 (by omega) index member

/-- Kernels that emit the same leave the same. -/
theorem emit
    (partOf : part.PartOf numDims size whole) {emitted wholeEmitted : Int → Option α}
    (same : ∀ index, InBox numDims part.localSize index →
      emitted (linear part.localSize index numDims) =
        wholeEmitted (linear size (fun d => part.localOffset d + index d) numDims)) :
    (part.emit emitted).PartOf numDims size (whole.emit wholeEmitted) := by
  refine ⟨partOf.ids, fun i below index member => ?_⟩
  simp only [GridMPI.emit, WholeGrid.emit]
  by_cases written : part.dataId i = part.dataId 1
  · have wholeWritten : whole.dataId i = whole.dataId 1 := by
      rw [← partOf.ids i below, ← partOf.ids 1 (by omega), written]
    rw [written, wholeWritten, Function.update_self, Function.update_self,
      same index member, partOf.cells 1 (by omega) index member]
  · have wholeUnwritten : whole.dataId i ≠ whole.dataId 1 := by
      rwa [← partOf.ids i below, ← partOf.ids 1 (by omega)]
    rw [Function.update_of_ne written, Function.update_of_ne wholeUnwritten]
    exact partOf.cells i below index member

theorem swap (partOf : part.PartOf numDims size whole) :
    part.swap.PartOf numDims size whole.swap := by
  constructor
  · intro i below
    simp only [GridMPI.swap, WholeGrid.swap]
    split
    · exact partOf.ids 1 (by omega)
    · rw [if_pos (show i = 1 by omega), if_pos (show i = 1 by omega)]
      exact partOf.ids 0 (by omega)
  · intro i below index member
    simp only [GridMPI.swap, WholeGrid.swap]
    split
    · exact partOf.cells 1 (by omega) index member
    · rw [if_pos (show i = 1 by omega), if_pos (show i = 1 by omega)]
      exact partOf.cells 0 (by omega) index member

end GridMPI.PartOf

section Owners

variable
    {space : GridSpaceMPI} {bytes rank : Nat} {size cell : IndexArray} {part : GridMPI α}
    {whole : WholeGrid α}

/-- A process has the value of a cell it owns. -/
theorem GridMPI.PartOf.data_of_owns
    (partOf : part.PartOf space.numDims size whole)
    (own : Decomposed space bytes size (fun _ => 0) rank part)
    (owns : space.Owns rank size (fun _ => 0) cell) :
    InBox space.numDims part.localSize (fun d => cell d - part.localOffset d) ∧
      part.data (linear part.localSize (fun d => cell d - part.localOffset d)
        space.numDims) = whole.data (linear size cell space.numDims) := by
  have member : InBox space.numDims part.localSize fun d => cell d - part.localOffset d := by
    intro d below
    have bounds := owns d below
    rw [own.localOffset, own.localSize]
    beta_reduce
    omega
  refine ⟨member, (partOf.data member).trans (congrArg whole.data ?_)⟩
  exact linear_congr (fun _ _ => rfl) fun d _ => by omega

/-- What the owner of a cell has is what the whole grid has there. -/
theorem Distributed.HoldsAt.eq_whole
    {grids : Nat → GridMPI α} {value : α}
    (distributed : Distributed space bytes size (fun _ => 0) grids)
    (parts : ∀ rank < space.numProcs, (grids rank).PartOf space.numDims size whole)
    (holds : Distributed.HoldsAt space size (fun _ => 0) grids cell value) :
    value = whole.data (linear size cell space.numDims) := by
  obtain ⟨owner, bounded, owns, rfl⟩ := holds
  exact ((parts owner bounded).data_of_owns (distributed.decomposed owner bounded) owns).2

/-- Every process can have its part of any whole grid. -/
theorem exists_partOf
    (own : Decomposed space bytes size (fun _ => 0) rank part) (whole : WholeGrid α) :
    ∃ other : GridMPI α, Decomposed space bytes size (fun _ => 0) rank other ∧
      other.PartOf space.numDims size whole := by
  classical
  let cells : Nat → Int → α := fun id position =>
    if located : ∃ index, InBox space.numDims part.localSize index ∧
        linear part.localSize index space.numDims = position then
      whole.dataBuffer id
        (linear size (fun d => part.localOffset d + located.choose d) space.numDims)
    else whole.dataBuffer id 0
  refine ⟨{ part with dataId := whole.dataId, dataBuffer := cells },
    ⟨own.elmSize, own.numDims, own.localOffset, own.localSize, own.empty, own.size,
      own.globalOffset, own.sendBuffers⟩, fun _ _ => rfl, fun i _ index member => ?_⟩
  have located : ∃ other, InBox space.numDims part.localSize other ∧
      linear part.localSize other space.numDims = linear part.localSize index space.numDims :=
    ⟨index, member, rfl⟩
  have equal := eq_of_linear_eq located.choose_spec.1 member located.choose_spec.2
  simp only [cells]
  rw [dif_pos located]
  exact congrArg _ (linear_congr (fun _ _ => rfl) fun d below => by rw [equal d below])

end Owners

/-! ## Remote copies -/

/-- Whatever region the remote grid of a process is of, it has the values of the whole grid. -/
def GridMPI.FreshCopy
    (space : GridSpaceMPI) (size : IndexArray) (part : GridMPI α) (array : Int → α) : Prop :=
  ∀ remote, part.remoteGrid = some remote →
    ∀ cell, space.InRegion remote.localOffset remote.localSize cell →
      remote.data (linear remote.localSize (fun d => cell d - remote.localOffset d)
        space.numDims) = array (linear size cell space.numDims)

theorem GridMPI.FreshCopy.of_remoteGrid
    {space : GridSpaceMPI} {size : IndexArray} {part before : GridMPI α} {array : Int → α}
    (fresh : before.FreshCopy space size array)
    (same : part.remoteGrid = before.remoteGrid) : part.FreshCopy space size array :=
  fun remote attached => fresh remote (same ▸ attached)

/-- A remote grid that is of a region, compared as the runtime does. -/
theorem GridMPI.exists_of_remoteIs
    {part : GridMPI α} {gridOffset gridSize : IndexArray}
    (isRegion : part.remoteIs gridOffset gridSize = true) :
    ∃ remote, part.remoteGrid = some remote ∧
      ∀ d < psMaxDim, remote.localOffset d = gridOffset d ∧
        remote.localSize d = gridSize d := by
  rw [GridMPI.remoteIs] at isRegion
  split at isRegion
  · cases isRegion
  · rename_i remote attached
    refine ⟨remote, attached, fun d below => ?_⟩
    simpa using List.all_eq_true.mp isRegion d (List.mem_range.mpr below)

/-! ## Regions -/

section Regions

variable
    {space : GridSpaceMPI} {bytes rank : Nat} {extent gridOffset gridSize : IndexArray}
    {call : SubgridCall} {part other : GridMPI α}

/-- The assertions on the region hold. -/
theorem valid_of_psLoadSubgrid
    (loads : psLoadSubgrid part call = some (gridOffset, gridSize)) :
    ∀ d < psMaxDim, 0 ≤ gridOffset d ∧ 0 ≤ gridSize d := by
  rw [psLoadSubgrid] at loads
  split at loads
  · rw [loadSubgrid] at loads
    split at loads
    · cases loads
    · dsimp only at loads
      split at loads
      · rename_i valid
        cases loads
        exact fun d below => ⟨le_max_right _ _, valid d below⟩
      · cases loads
  · cases loads

/-- The region lies inside the grid. -/
theorem regionInside_of_psLoadSubgrid
    (small : space.numDims ≤ psMaxDim)
    (own : Decomposed space bytes extent (fun _ => 0) rank part)
    (loads : psLoadSubgrid part call = some (gridOffset, gridSize)) :
    space.RegionInside extent (fun _ => 0) gridOffset gridSize where
  origin _ _ := rfl
  lower d below := (valid_of_psLoadSubgrid loads d (by omega)).1
  extent d below := (valid_of_psLoadSubgrid loads d (by omega)).2
  upper d below := by
    rw [psLoadSubgrid] at loads
    split at loads
    · rw [loadSubgrid] at loads
      split at loads
      · cases loads
      · dsimp only at loads
        split at loads
        · cases loads
          beta_reduce
          rw [own.size]
          omega
        · cases loads
    · cases loads

/-- The region depends on the place of the subgrid only. -/
theorem psLoadSubgrid_congr
    (own : Decomposed space bytes extent (fun _ => 0) rank part)
    (otherOwn : Decomposed space bytes extent (fun _ => 0) rank other) :
    psLoadSubgrid part call = psLoadSubgrid other call := by
  simp only [psLoadSubgrid, loadSubgrid, GridMPI.regionStart, GridMPI.baseOffset,
    GridMPI.baseSize, own.numDims, otherOwn.numDims, own.localOffset,
    otherOwn.localOffset, own.localSize, otherOwn.localSize, own.size, otherOwn.size]

/-- A region that asks for no piece is the process's own. -/
theorem owns_of_fetches_eq_nil
    {load : LoadCall α} {cell : IndexArray}
    (fits : ∀ d < space.numDims, extent d ≤ space.globalSize d)
    (region : space.RegionInside extent (fun _ => 0) load.gridOffset load.gridSize)
    (none : load.fetches space rank (fun _ => 0) = [])
    (inside : space.InRegion load.gridOffset load.gridSize cell) :
    space.Owns rank extent (fun _ => 0) cell := by
  obtain ⟨info, piece, has⟩ := region.exists_piece fits inside
  have member := (region.mem_iff info).mpr piece
  by_cases remote : space.peerRank info = rank
  · rw [← remote]
    exact region.piece_owns piece has
  · rw [LoadCall.fetches_eq_collect member remote] at none
    rw [none] at member
    cases member

end Regions

end Physis.Runtime
