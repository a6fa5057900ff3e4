import Physis.Runtime.ExchangeContents
import Physis.Runtime.LoadRounds

/-!
# What a remote grid holds after a reply

A reply carries the elements of one piece, packed from the subgrid of the
process that owns it.  Copied into a remote grid of the requested region they
stand where the region has those cells, and leave the cells of the pieces of
other processes alone.
-/

namespace Physis.Runtime

open Physis.Library
open Physis.Library.RowMajor

variable {α : Type} {space : GridSpaceMPI} {elmSize : Nat}
    {size globalOffset : IndexArray} {grids : Nat → GridMPI α}

/-! ## The requests of a call -/

namespace LoadCall

variable (space : GridSpaceMPI) (rank : Nat) (globalOffset : IndexArray)

/-- The pieces a call asks for; a region inside the local grid needs none. -/
def fetches (call : LoadCall α) : List FetchInfo :=
  match space.collectPerProcSubgridInfo globalOffset call.gridOffset
      call.gridSize with
  | [] => []
  | info :: rest =>
      if rest.isEmpty && decide (space.peerRank info = rank) then []
      else info :: rest

/-- The grid when the requests are sent. -/
def attach (call : LoadCall α) (grid : GridMPI α) : GridMPI α :=
  if (call.fetches space rank grid.globalOffset).isEmpty then grid
  else { grid.ensureRemoteGrid call.gridOffset call.gridSize call.memory with
    remoteGridActive := true }

variable {space rank globalOffset}

theorem mem_collect_of_mem_fetches
    {call : LoadCall α} {info : FetchInfo}
    (member : info ∈ call.fetches space rank globalOffset) :
    info ∈ space.collectPerProcSubgridInfo globalOffset call.gridOffset
      call.gridSize := by
  rw [fetches] at member
  split at member
  · cases member
  · rename_i listed
    rw [listed]
    split at member
    · cases member
    · exact member

theorem piece_of_mem_fetches
    {size : IndexArray} {call : LoadCall α} {info : FetchInfo}
    (region : space.RegionInside size globalOffset call.gridOffset call.gridSize)
    (member : info ∈ call.fetches space rank globalOffset) :
    space.Piece space.numDims call.gridOffset call.gridSize info :=
  (region.mem_iff info).mp (mem_collect_of_mem_fetches member)

/-- With a piece of another process, every piece is asked for. -/
theorem fetches_eq_collect
    {call : LoadCall α} {info : FetchInfo}
    (member : info ∈ space.collectPerProcSubgridInfo globalOffset call.gridOffset
      call.gridSize)
    (remote : space.peerRank info ≠ rank) :
    call.fetches space rank globalOffset =
      space.collectPerProcSubgridInfo globalOffset call.gridOffset
        call.gridSize := by
  rw [fetches]
  split
  · rename_i listed
    exact listed.symm
  · rename_i first rest listed
    rw [listed] at member
    rw [if_neg, listed]
    intro alone
    rw [Bool.and_eq_true, List.isEmpty_iff, decide_eq_true_iff] at alone
    rw [alone.1, List.mem_singleton] at member
    rw [member] at remote
    exact remote alone.2

theorem fetches_peers_nodup (call : LoadCall α) :
    ((call.fetches space rank globalOffset).map space.peerRank).Nodup := by
  have once := space.nodup_peers globalOffset call.gridOffset call.gridSize
  rw [fetches]
  split
  · exact List.nodup_nil
  · rename_i listed
    split
    · exact List.nodup_nil
    · rw [← listed]
      exact once

/-- A call that may not reuse a remote grid sends its requests. -/
theorem enter_eq
    {call : LoadCall α} (fresh : call.reuse = false)
    (nonneg : ∀ d < psMaxDim, 0 ≤ call.gridOffset d ∧ 0 ≤ call.gridSize d)
    (process : LoadProcess α) :
    process.enter space rank call =
      { process with
        fetchMap := fun _ => none
        remainingRequests := 0
        doneCount := 0
        doneSent := false
        grid := call.attach space rank process.grid
        counter := .sendRequests
          (call.fetches space rank process.grid.globalOffset) } := by
  have valid : (List.range psMaxDim).all (fun i =>
      decide (0 ≤ call.gridOffset i) && decide (0 ≤ call.gridSize i)) = true := by
    rw [List.all_eq_true]
    intro d member
    simpa using nonneg d (List.mem_range.mp member)
  cases listed : space.collectPerProcSubgridInfo process.grid.globalOffset
      call.gridOffset call.gridSize with
  | nil => simp [LoadProcess.enter, valid, attach, fetches, listed]
  | cons info rest =>
      by_cases alone : rest = [] ∧ space.peerRank info = rank
      · simp [LoadProcess.enter, valid, attach, fetches, listed, alone.1, alone.2]
      · simp [LoadProcess.enter, valid, attach, fetches, fresh, listed, alone]

end LoadCall

/-! ## Pieces in a remote grid -/

/-- The remote grid of a region. -/
structure RemoteGrid.OfRegion
    (remote : RemoteGrid α) (call : LoadCall α) : Prop where
  offset : remote.localOffset = call.gridOffset
  size : remote.localSize = call.gridSize

/-- The remote grid has the owner's value at the cell. -/
def RemoteGrid.HasCell
    (space : GridSpaceMPI) (size globalOffset : IndexArray)
    (grids : Nat → GridMPI α) (remote : RemoteGrid α) (cell : IndexArray) : Prop :=
  Distributed.HoldsAt space size globalOffset grids cell
    (remote.data (linear remote.localSize (fun d => cell d - remote.localOffset d)
      space.numDims))

section Pieces

variable
    {call : LoadCall α}
    (distributed : Distributed space elmSize size globalOffset grids)
    (dims : 0 < space.numDims)
    (region : space.RegionInside size globalOffset call.gridOffset call.gridSize)

theorem elements_pos
    {info : FetchInfo}
    (piece : space.Piece space.numDims call.gridOffset call.gridSize info) :
    info.elements space.numDims ≠ 0 := by
  have member : InBox space.numDims info.peerSize fun _ => 0 :=
    fun d below => ⟨le_rfl, (piece.cut d below).positive⟩
  have first := linear_nonneg member
  have less := linear_lt_volume member
  rw [FetchInfo.elements, IntegerArray.accumulate_eq_volume]
  omega

include dims in
theorem length_packed
    (grid : GridMPI α) {info : FetchInfo}
    (piece : space.Piece space.numDims call.gridOffset call.gridSize info) :
    (grid.packed space info).length = info.elements space.numDims :=
  length_copyoutSubgrid dims _ _ _ fun d below =>
    le_of_lt (piece.cut d below).positive

include region in
/-- A piece lies inside the remote grid of its region. -/
theorem piece_fits
    {info : FetchInfo}
    (piece : space.Piece space.numDims call.gridOffset call.gridSize info)
    {remote : RemoteGrid α} (ofRegion : remote.OfRegion call) :
    ∀ d < space.numDims,
      0 ≤ info.peerOffset d - remote.localOffset d ∧
        info.peerOffset d - remote.localOffset d + info.peerSize d ≤
          remote.localSize d := by
  intro d below
  have bounds := region.piece_bounds piece below
  rw [ofRegion.offset, ofRegion.size]
  omega

include region in
/-- A cell of a piece lies inside the remote grid of its region. -/
theorem cell_fits
    {info : FetchInfo}
    (piece : space.Piece space.numDims call.gridOffset call.gridSize info)
    {remote : RemoteGrid α} (ofRegion : remote.OfRegion call)
    {cell : IndexArray} (inside : space.InPiece info cell) :
    InBox space.numDims remote.localSize fun d => cell d - remote.localOffset d := by
  intro d below
  have fit := piece_fits region piece ofRegion d below
  have bounds := inside d below
  beta_reduce
  omega

include distributed dims region in
/-- A piece copied in has the owner's values. -/
theorem copyin_hasCell
    {info : FetchInfo}
    (piece : space.Piece space.numDims call.gridOffset call.gridSize info)
    {remote : RemoteGrid α} (ofRegion : remote.OfRegion call) (buf : Int → α)
    {cell : IndexArray} (inside : space.InPiece info cell) :
    (remote.copyin space info
      (overwrite buf ((grids (space.peerRank info)).packed space info))).HasCell
        space size globalOffset grids cell := by
  have owner := piece.peerRank_lt
  have own := distributed.decomposed _ owner
  have member : InBox space.numDims info.peerSize
      fun d => cell d - info.peerOffset d := by
    intro d below
    have bounds := inside d below
    beta_reduce
    omega
  refine ⟨space.peerRank info, owner, region.piece_owns piece inside, ?_⟩
  have position : linear remote.localSize (fun d => cell d - remote.localOffset d)
      space.numDims =
      linear remote.localSize
        ((fun d => info.peerOffset d - remote.localOffset d) +
          fun d => cell d - info.peerOffset d) space.numDims :=
    linear_congr (fun _ _ => rfl) fun d _ => by
      simp only [Pi.add_apply]
      omega
  have packed : ((grids (space.peerRank info)).packed space info)[
      (linear info.peerSize (fun d => cell d - info.peerOffset d)
        space.numDims).toNat]? =
      some ((grids (space.peerRank info)).data
        (linear (grids (space.peerRank info)).localSize
          (fun d => cell d - (grids (space.peerRank info)).localOffset d)
          space.numDims)) := by
    rw [GridMPI.packed, copyoutSubgrid_eq_boxList dims, getElem?_boxList _ member]
    congr 2
    apply linear_congr fun _ _ => rfl
    intro d below
    simp only [Pi.add_apply, restrict, if_pos below]
    omega
  symm
  simp only [RemoteGrid.copyin]
  rw [position, copyinSubgrid_inside dims (piece_fits region piece ofRegion) member,
    overwrite, if_pos (linear_nonneg member), packed, Option.getD_some]

include dims region in
/-- A piece of another process keeps its values. -/
theorem copyin_keeps_cell
    {info other : FetchInfo}
    (piece : space.Piece space.numDims call.gridOffset call.gridSize info)
    (otherPiece : space.Piece space.numDims call.gridOffset call.gridSize other)
    (different : space.peerRank other ≠ space.peerRank info)
    {remote : RemoteGrid α} (ofRegion : remote.OfRegion call) (buf : Int → α)
    {cell : IndexArray} (inside : space.InPiece other cell)
    (has : remote.HasCell space size globalOffset grids cell) :
    (remote.copyin space info buf).HasCell space size globalOffset grids cell := by
  have kept : (remote.copyin space info buf).data
      (linear remote.localSize (fun d => cell d - remote.localOffset d)
        space.numDims) =
      remote.data
        (linear remote.localSize (fun d => cell d - remote.localOffset d)
          space.numDims) := by
    apply copyinSubgrid_outside dims
    intro index member same
    apply different
    have fit := piece_fits region piece ofRegion
    have equal := eq_of_linear_eq (shifted_mem fit member)
      (cell_fits region otherPiece ofRegion inside) same
    -- the cell would be in both pieces
    have both : space.InPiece info cell := by
      intro d below
      have bounds := member d below
      have coordinate := equal d below
      simp only [Pi.add_apply] at coordinate
      omega
    exact space.owner_unique otherPiece.peerRank_lt piece.peerRank_lt
      (region.piece_owns otherPiece inside) (region.piece_owns piece both)
  rw [RemoteGrid.HasCell] at has ⊢
  rw [show (remote.copyin space info buf).localSize = remote.localSize from rfl,
    show (remote.copyin space info buf).localOffset = remote.localOffset from rfl,
    kept]
  exact has

end Pieces

/-! ## What is to hold in a round -/

/-- The round of one call on every process of a grid that fits its regions. -/
def fetchSpec
    (distributed : Distributed space elmSize size globalOffset grids)
    (dims : 0 < space.numDims) {calls : Nat → LoadCall α}
    (regions : ∀ rank < space.numProcs, space.RegionInside size globalOffset
      (calls rank).gridOffset (calls rank).gridSize) :
    FetchSpec space α where
  wanted rank info := rank < space.numProcs ∧
    info ∈ (calls rank).fetches space rank globalOffset
  required rank info := rank < space.numProcs ∧
    info ∈ (calls rank).fetches space rank globalOffset
  replies server info payload := payload = (grids server).packed space info
  remote rank remoteGrid := remoteGrid.OfRegion (calls rank)
  stored rank info remoteGrid := remoteGrid.OfRegion (calls rank) ∧
    ∀ cell, space.InPiece info cell →
      remoteGrid.HasCell space size globalOffset grids cell
  elements_ne wanted :=
    elements_pos (LoadCall.piece_of_mem_fetches (regions _ wanted.1) wanted.2)
  length_le wanted replies := by
    rw [replies, length_packed dims _ (LoadCall.piece_of_mem_fetches (regions _ wanted.1) wanted.2)]
  remote_copyin _ _ ofRegion := ⟨ofRegion.offset, ofRegion.size⟩
  stored_copyin buf wanted ofRegion replies :=
    ⟨⟨ofRegion.offset, ofRegion.size⟩, fun cell inside => by
      rw [replies]
      exact copyin_hasCell distributed dims (regions _ wanted.1)
        (LoadCall.piece_of_mem_fetches (regions _ wanted.1) wanted.2) ofRegion buf inside⟩
  stored_kept buf wanted otherWanted different ofRegion stored :=
    ⟨⟨ofRegion.offset, ofRegion.size⟩, fun cell inside =>
      copyin_keeps_cell dims (regions _ wanted.1)
        (LoadCall.piece_of_mem_fetches (regions _ wanted.1) wanted.2)
        (LoadCall.piece_of_mem_fetches (regions _ otherWanted.1) otherWanted.2)
        different ofRegion buf inside (stored.2 cell inside)⟩

end Physis.Runtime
