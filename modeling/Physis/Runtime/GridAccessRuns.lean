import Physis.Runtime.GridAccess

/-!
# What element accesses do to the grids

Between calls the processes hold the values of one map, and no client has an
active remote grid.  Each call keeps this and finds what the map says, as long
as the master has no active remote grid when it uses its own elements.
-/

namespace Physis.Runtime

open Physis.Library
open Physis.Library.RowMajor
open Physis.Library.Determinacy
open Physis.Library.Runs

variable {α : Type}

/-! ## Addresses of own elements -/

/-- Coordinates that are zero do not count. -/
theorem linear_eq_of_zero
    {size index : IndexArray} {count more : Nat} (less : count ≤ more)
    (zero : ∀ i, count ≤ i → index i = 0) :
    linear size index more = linear size index count := by
  induction more, less using Nat.le_induction with
  | base => rfl
  | succ more atLeast induction =>
      rw [linear_succ, induction, zero more atLeast, zero_mul, add_zero]

section Own

variable
    {space : GridSpaceMPI} {elmSize : Nat} {size globalOffset : IndexArray}
    {rank : Nat} {grid before : GridMPI α}

theorem Decomposed.sameData
    (own : Decomposed space elmSize size globalOffset rank before)
    (same : grid.SameData before) :
    Decomposed space elmSize size globalOffset rank grid := by
  obtain ⟨remote, active, rfl⟩ := same
  exact ⟨own.elmSize, own.numDims, own.localOffset, own.localSize, own.empty,
    own.size, own.globalOffset, own.sendBuffers⟩

/-- Without an active remote grid an owned element is found in the own data. -/
theorem Decomposed.getAddress_own
    (own : Decomposed space elmSize size globalOffset rank grid)
    (small : space.numDims ≤ psMaxDim) (inactive : grid.remoteGridActive = false)
    {index : IndexArray} (owns : space.Owns rank size globalOffset index)
    (zero : ∀ i, space.numDims ≤ i → index i = 0) :
    grid.getAddress index = some (.data (linear grid.localSize
      (fun i => index i - grid.localOffset i) space.numDims)) := by
  have inside : (List.range grid.numDims).find? (fun i =>
      decide (index i - grid.localOffset i < 0) ||
        decide (grid.localSize i ≤ index i - grid.localOffset i)) = none := by
    rw [List.find?_eq_none]
    intro i member
    have bounds := owns i (by rw [← own.numDims]; exact List.mem_range.mp member)
    rw [← own.localOffset, ← own.localSize] at bounds
    simp only [Bool.or_eq_true, decide_eq_true_eq]
    omega
  have shifted : ∀ i, space.numDims ≤ i → index i - grid.localOffset i = 0 := by
    intro i beyond
    rw [zero i beyond, own.localOffset]
    simp [GridSpaceMPI.localOffset, Nat.not_lt_of_ge beyond]
  simp only [GridMPI.getAddress, inactive]
  rw [if_neg (by decide), inside]
  simp only
  rw [gridCalcOffset3D_eq_linear, linear_eq_of_zero (show space.numDims ≤ 3 from small) shifted]

@[simp]
theorem GridMPI.writeAddress_data (grid : GridMPI α) (value : α) (position : Int) :
    (grid.writeAddress value (.data position)).data =
      Function.update grid.data position value := by
  simp [GridMPI.data, GridMPI.writeAddress]

theorem Decomposed.writeAddress
    (own : Decomposed space elmSize size globalOffset rank grid)
    (value : α) (position : Int) :
    Decomposed space elmSize size globalOffset rank
      (grid.writeAddress value (.data position)) :=
  ⟨own.elmSize, own.numDims, own.localOffset, own.localSize, own.empty, own.size,
    own.globalOffset, own.sendBuffers⟩

/-- The element found under the address of a remote grid's only cell. -/
theorem getAddress_remote
    {remote : RemoteGrid α} {index : IndexArray}
    (active : grid.remoteGridActive = true)
    (attached : grid.remoteGrid = some remote) (offset : remote.localOffset = index) :
    grid.get index = some (remote.data 0) := by
  have position : gridCalcOffset3D (fun i => index i - remote.localOffset i)
      remote.localSize = 0 := by
    simp [gridCalcOffset3D, offset]
  simp [GridMPI.get, GridMPI.getAddress, GridMPI.readAddress, active, attached,
    position]

end Own

section Holders

variable
    {space : GridSpaceMPI} {elmSize : Nat} {size globalOffset : IndexArray}
    {grids after : Nat → GridMPI α} {cell : IndexArray} {value : α}

/-- The owner's element is the value of the cell. -/
theorem data_of_holdsAt
    {rank : Nat} (bounded : rank < space.numProcs)
    (owns : space.Owns rank size globalOffset cell)
    (holds : Distributed.HoldsAt space size globalOffset grids cell value) :
    (grids rank).data (linear (grids rank).localSize
      (fun i => cell i - (grids rank).localOffset i) space.numDims) = value := by
  obtain ⟨owner, ownerBounded, ownerOwns, is⟩ := holds
  rw [space.owner_unique bounded ownerBounded owns ownerOwns]
  exact is

/-- Where the data are the same, the values are. -/
theorem holdsAt_of_sameData
    (same : ∀ rank < space.numProcs, (after rank).SameData (grids rank))
    (holds : Distributed.HoldsAt space size globalOffset grids cell value) :
    Distributed.HoldsAt space size globalOffset after cell value := by
  obtain ⟨owner, bounded, owns, is⟩ := holds
  refine ⟨owner, bounded, owns, ?_⟩
  obtain ⟨remote, active, equal⟩ := same owner bounded
  rw [equal]
  exact is

/-- Elements of an undistributed grid are the values of its cells. -/
theorem holdsAt_of_holdsGrid
    (distributed : Distributed space elmSize size globalOffset grids)
    {whole : Int → α} (holds : HoldsGrid space size grids whole)
    (inside : InBox space.numDims size cell) :
    Distributed.HoldsAt space size globalOffset grids cell
      (whole (linear size cell space.numDims)) := by
  obtain ⟨owner, bounded, owns, member, place⟩ := exists_local_index distributed inside
  exact ⟨owner, bounded, owns,
    (holds owner bounded _ member).trans (congrArg whole place)⟩

end Holders

/-! ## The region of one element -/

section Unit

variable
    {space : GridSpaceMPI} {size globalOffset index : IndexArray}

/-- The one cell of a region is in each of its pieces. -/
theorem unit_inPiece
    {info : FetchInfo}
    (piece : space.Piece space.numDims index (fun _ => 1) info) :
    space.InPiece info index := by
  intro d below
  have cut := piece.cut d below
  have first := cut.first_eq
  have extent := cut.extent_eq
  have positive := cut.positive
  omega

/-- An element has one piece, that of its owner. -/
theorem collect_unit
    (region : space.RegionInside size globalOffset index fun _ => 1)
    (fits : ∀ d < space.numDims, size d ≤ space.globalSize d) :
    ∃ info, space.collectPerProcSubgridInfo globalOffset index (fun _ => 1) = [info] ∧
      space.peerRank info < space.numProcs ∧
        space.Owns (space.peerRank info) size globalOffset index := by
  obtain ⟨info, piece, inside⟩ := region.exists_piece fits
    (show space.InRegion index (fun _ => 1) index from fun d _ =>
      ⟨le_rfl, lt_add_one _⟩)
  have owner := region.piece_owns piece inside
  refine ⟨info, ?_, piece.peerRank_lt, owner⟩
  have once := space.nodup_peers globalOffset index fun _ => 1
  have peers : ∀ other ∈ space.collectPerProcSubgridInfo globalOffset index fun _ => 1,
      space.peerRank other = space.peerRank info := by
    intro other member
    have otherPiece := (region.mem_iff other).mp member
    exact space.owner_unique otherPiece.peerRank_lt piece.peerRank_lt
      (region.piece_owns otherPiece (unit_inPiece otherPiece)) owner
  have member := (region.mem_iff info).mpr piece
  match listed : space.collectPerProcSubgridInfo globalOffset index fun _ => 1 with
  | [] =>
      rw [listed] at member
      cases member
  | [only] =>
      rw [listed, List.mem_singleton] at member
      rw [member]
  | first :: second :: rest =>
      rw [listed, List.map_cons, List.map_cons, peers first (by simp [listed]),
        peers second (by simp [listed])] at once
      simp at once

/-- A region without cells has no piece. -/
theorem collect_empty
    (dims : 0 < space.numDims)
    (region : space.RegionInside size globalOffset (fun _ => 0) fun _ => 0) :
    space.collectPerProcSubgridInfo globalOffset (fun _ => 0) (fun _ => 0) = [] := by
  rw [List.eq_nil_iff_forall_not_mem]
  intro info member
  have cut := ((region.mem_iff info).mp member).cut 0 dims
  have first := cut.first_eq
  have extent := cut.extent_eq
  have positive := cut.positive
  omega

end Unit

/-! ## One call -/

/-- The processes hold the values of a map; no client has an active remote grid. -/
structure Tracks
    (space : GridSpaceMPI) (elmSize : Nat) (size : IndexArray)
    (grids : Nat → GridMPI α) (contents : IndexArray → α) : Prop where
  distributed : Distributed space elmSize size (fun _ => 0) grids
  inactive : ∀ rank, 0 < rank → rank < space.numProcs →
    (grids rank).remoteGridActive = false
  holds : ∀ cell, InBox space.numDims size cell →
    Distributed.HoldsAt space size (fun _ => 0) grids cell (contents cell)

section Calls

variable
    {space : GridSpaceMPI} {elmSize : Nat} {size : IndexArray}
    {grids after : Nat → GridMPI α} {contents : IndexArray → α}

theorem Tracks.fits
    (tracks : Tracks space elmSize size grids contents) :
    ∀ d < space.numDims, size d ≤ space.globalSize d := by
  intro d below
  have fit := tracks.distributed.fits d below
  omega

theorem Tracks.unitRegion
    {index : IndexArray} (inside : InBox space.numDims size index) :
    space.RegionInside size (fun _ => 0) index fun _ => 1 where
  origin _ _ := rfl
  lower d below := (inside d below).1
  extent _ _ := by decide
  upper d below := by
    have bounds := inside d below
    omega

/-- A call that leaves the data alone, with no remote grid for a client. -/
theorem Tracks.of_sameData
    (tracks : Tracks space elmSize size grids contents)
    (same : ∀ rank < space.numProcs, (after rank).SameData (grids rank))
    (active : ∀ rank, 0 < rank → rank < space.numProcs →
      (after rank).remoteGridActive = (grids rank).remoteGridActive) :
    Tracks space elmSize size after contents where
  distributed :=
    ⟨tracks.distributed.fits, fun rank bounded =>
      (tracks.distributed.decomposed rank bounded).sameData (same rank bounded)⟩
  inactive rank client bounded := by
    rw [active rank client bounded]
    exact tracks.inactive rank client bounded
  holds cell inside := holdsAt_of_sameData same (tracks.holds cell inside)

/-- The owner of an element has it written in its own data. -/
theorem Tracks.afterWrite
    (tracks : Tracks space elmSize size grids contents)
    {owner : Nat} (bounded : owner < space.numProcs) {index : IndexArray}
    (owns : space.Owns owner size (fun _ => 0) index) (value : α) :
    Tracks space elmSize size
      (Function.update grids owner ((grids owner).writeAddress value
        (.data (linear (grids owner).localSize
          (fun i => index i - (grids owner).localOffset i) space.numDims))))
      ((MasterCall.gridSet index value).write space.numDims size contents) where
  distributed := by
    refine ⟨tracks.distributed.fits, fun rank rankBounded => ?_⟩
    have own := tracks.distributed.decomposed rank rankBounded
    by_cases same : rank = owner
    · subst same
      rw [Function.update_self]
      exact own.writeAddress _ _
    · rw [Function.update_of_ne same]
      exact own
  inactive rank client rankBounded := by
    have inactive := tracks.inactive rank client rankBounded
    by_cases same : rank = owner
    · subst same
      rw [Function.update_self]
      exact inactive
    · rw [Function.update_of_ne same]
      exact inactive
  holds cell inside := by
    obtain ⟨rank, rankBounded, rankOwns, is⟩ := tracks.holds cell inside
    refine ⟨rank, rankBounded, rankOwns, ?_⟩
    by_cases same : rank = owner
    · subst same
      have own := tracks.distributed.decomposed rank bounded
      have member : ∀ {other : IndexArray},
          space.Owns rank size (fun _ => 0) other →
            InBox space.numDims (grids rank).localSize
              fun i => other i - (grids rank).localOffset i := by
        intro other otherOwns i below
        have bounds := otherOwns i below
        rw [← own.localOffset, ← own.localSize] at bounds
        exact ⟨sub_nonneg.mpr bounds.1, sub_left_lt_of_lt_add bounds.2⟩
      rw [Function.update_self, GridMPI.writeAddress_data]
      simp only [MasterCall.write]
      by_cases here : ∀ i < space.numDims, cell i = index i
      · have position : linear (grids rank).localSize
            (fun i => cell i - (grids rank).localOffset i) space.numDims =
            linear (grids rank).localSize
              (fun i => index i - (grids rank).localOffset i) space.numDims :=
          linear_congr (fun _ _ => rfl) fun i below => by rw [here i below]
        rw [if_pos here]
        exact (congrArg (Function.update (grids rank).data _ value) position).trans
          (Function.update_self _ _ _)
      · rw [if_neg here, Function.update_of_ne]
        · exact is
        · intro equal
          apply here
          intro i below
          have coordinate := eq_of_linear_eq (member rankOwns) (member owns) equal i
            below
          beta_reduce at coordinate
          omega
    · rw [Function.update_of_ne same]
      simp only [MasterCall.write]
      rw [if_neg, is]
      intro here
      apply same
      refine space.owner_unique rankBounded bounded rankOwns fun i below => ?_
      rw [here i below]
      exact owns i below

/-- `GridSet` of an element whose owner uses its own data. -/
theorem Tracks.gridSet
    (tracks : Tracks space elmSize size grids contents)
    (small : space.numDims ≤ psMaxDim) {index : IndexArray} (value : α)
    (inside : InBox space.numDims size index)
    (zero : ∀ i, space.numDims ≤ i → index i = 0)
    (free : space.Owns 0 size (fun _ => 0) index →
      (grids 0).remoteGridActive = false) :
    ∃ owner < space.numProcs, ∃ written,
      space.findOwnerProcess (grids 0) index = some owner ∧
        (grids owner).set index value = some written ∧
          written.remoteGridActive = (grids owner).remoteGridActive ∧
            Tracks space elmSize size (Function.update grids owner written)
              ((MasterCall.gridSet index value).write space.numDims size contents) := by
  obtain ⟨info, listed, bounded, owns⟩ := collect_unit
    (Tracks.unitRegion inside) tracks.fits
  have root := tracks.distributed.decomposed 0 space.numProcs_pos
  have own := tracks.distributed.decomposed _ bounded
  have inactive : (grids (space.peerRank info)).remoteGridActive = false := by
    rcases Nat.eq_zero_or_pos (space.peerRank info) with master | client
    · rw [master] at owns ⊢
      exact free owns
    · exact tracks.inactive _ client bounded
  have address := own.getAddress_own small inactive owns zero
  refine ⟨space.peerRank info, bounded, _, ?_, congrArg (Option.map _) address, rfl,
    tracks.afterWrite bounded owns value⟩
  rw [GridSpaceMPI.findOwnerProcess, root.globalOffset, listed]

section Load

variable
    (tracks : Tracks space elmSize size grids contents) (dims : 0 < space.numDims)
    {index : IndexArray} (inside : InBox space.numDims size index)
    (zero : ∀ i, space.numDims ≤ i → index i = 0) {memory : Int → α}

include inside in
theorem gridGetCall_region (rank : Nat) :
    space.RegionInside size (fun _ => 0) (gridGetCall index memory rank).gridOffset
      (gridGetCall index memory rank).gridSize := by
  simp only [gridGetCall]
  split
  · exact Tracks.unitRegion inside
  · exact ⟨fun _ _ => rfl, fun _ _ => le_rfl, fun _ _ => le_rfl, fun d below => by
      have bounds := inside d below
      omega⟩

include inside zero in
theorem gridGetCall_nonneg (rank : Nat) :
    ∀ d < psMaxDim, 0 ≤ (gridGetCall index memory rank).gridOffset d ∧
      0 ≤ (gridGetCall index memory rank).gridSize d := by
  intro d _
  simp only [gridGetCall]
  split
  · rcases Nat.lt_or_ge d space.numDims with below | beyond
    · exact ⟨(inside d below).1, zero_le_one⟩
    · rw [zero d beyond]
      exact ⟨le_rfl, zero_le_one⟩
  · exact ⟨le_rfl, le_rfl⟩

include tracks dims inside in
/-- A client asks for nothing, and attaches nothing. -/
theorem gridGetCall_attach_client
    {rank : Nat} (client : 0 < rank) (bounded : rank < space.numProcs) :
    ((gridGetCall index memory rank).attach space rank (grids rank)) = grids rank := by
  have region := @gridGetCall_region α space size index inside memory rank
  have own := tracks.distributed.decomposed rank bounded
  simp only [gridGetCall, if_neg client.ne'] at region
  simp [LoadCall.attach, LoadCall.fetches, own.globalOffset, gridGetCall,
    client.ne', collect_empty dims region]

include tracks inside in
/-- The master attaches a remote grid exactly for an element of another process. -/
theorem gridGetCall_attach_master :
    ((gridGetCall index memory 0).attach space 0 (grids 0)).remoteGridActive = true ∧
        ¬space.Owns 0 size (fun _ => 0) index ∨
      (gridGetCall index memory 0).attach space 0 (grids 0) = grids 0 ∧
        space.Owns 0 size (fun _ => 0) index := by
  obtain ⟨info, listed, bounded, owns⟩ := collect_unit
    (Tracks.unitRegion inside) tracks.fits
  have own := tracks.distributed.decomposed 0 space.numProcs_pos
  by_cases master : space.peerRank info = 0
  · rw [master] at owns
    refine Or.inr ⟨?_, owns⟩
    simp [LoadCall.attach, LoadCall.fetches, own.globalOffset, gridGetCall, listed,
      master]
  · refine Or.inl ⟨?_, fun mine => master
      (space.owner_unique bounded space.numProcs_pos owns mine)⟩
    simp [LoadCall.attach, LoadCall.fetches, own.globalOffset, gridGetCall, listed,
      master]

include tracks dims inside zero in
/-- `GridGet` of an element, where the master uses its own data for its own ones. -/
theorem Tracks.gridGet
    (small : space.numDims ≤ psMaxDim)
    (free : space.Owns 0 size (fun _ => 0) index →
      (grids 0).remoteGridActive = false)
    {bufs : Nat → Int → α} {final : LoadState α}
    (reached : Reaches (LoadState.Step space (gridGetCall index memory))
      (LoadState.start grids bufs) final)
    (returned : ∀ rank < space.numProcs, final.Returned rank) :
    (final.process 0).grid.get index = some (contents index) ∧
      ((final.process 0).grid.remoteGridActive = true →
        space.Owns 0 size (fun _ => 0) index → (grids 0).remoteGridActive = true) ∧
      Tracks space elmSize size (fun rank => (final.process rank).grid) contents := by
  obtain ⟨⟨_, simulates⟩, data, active, told, sends⟩ := reached.invariant
    (running_start (fetchSpec tracks.distributed dims fun rank _ =>
      gridGetCall_region inside rank) bufs)
    fun _ _ => running_step tracks.distributed dims
      (fun rank _ => gridGetCall_region inside rank)
      (fun rank _ => gridGetCall_nonneg inside zero rank) fun _ _ => rfl
  have correct := roundCorrect_of_simulates simulates sends told
  have entered : ∀ rank < space.numProcs, (final.process rank).entered = true := by
    intro rank bounded
    have isReturned := returned rank bounded
    rw [LoadState.Returned] at isReturned
    simp [LoadProcess.entered, isReturned]
  have tracksAfter : Tracks space elmSize size
      (fun rank => (final.process rank).grid) contents :=
    tracks.of_sameData (fun rank _ => data rank) fun rank client bounded => by
      rw [active, if_pos (entered rank bounded),
        gridGetCall_attach_client tracks dims inside client bounded]
  have root := tracksAfter.distributed.decomposed 0 space.numProcs_pos
  have masterActive := active 0
  rw [if_pos (entered 0 space.numProcs_pos)] at masterActive
  rcases @gridGetCall_attach_master _ _ _ _ _ _ tracks _ inside memory with
    ⟨attached, foreign⟩ | ⟨kept, mine⟩
  · obtain ⟨remote, isRemote, ofRegion, has⟩ := correct.loaded 0 space.numProcs_pos
      (returned 0 space.numProcs_pos) ⟨index, fun d _ => ⟨le_rfl, lt_add_one _⟩, foreign⟩
    have offset : remote.localOffset = index := ofRegion.offset
    obtain ⟨owner, bounded, owns, is⟩ := has index fun d _ => ⟨le_rfl, lt_add_one _⟩
    have value := data_of_holdsAt bounded owns (tracks.holds index inside)
    have first : linear remote.localSize (fun d => index d - remote.localOffset d)
        space.numDims = 0 := by
      rw [offset]
      exact (linear_eq_of_zero (Nat.zero_le _) fun i _ => sub_self _).trans
        (linear_zero _ _)
    rw [first] at is
    refine ⟨?_, fun _ mine => absurd mine foreign, tracksAfter⟩
    rw [getAddress_remote (masterActive.trans attached) isRemote offset, ← value, is]
  · rw [kept] at masterActive
    have address := root.getAddress_own small (masterActive.trans (free mine)) mine zero
    refine ⟨?_, fun stillActive _ => masterActive.symm.trans stillActive, tracksAfter⟩
    rw [GridMPI.get, address, Option.bind_some, GridMPI.readAddress]
    exact congrArg some (data_of_holdsAt space.numProcs_pos mine
      (tracksAfter.holds index inside))

end Load

/-- `GridCopyin`: the host's elements become the values. -/
theorem Tracks.afterCopyin
    (tracks : Tracks space elmSize size grids contents) (dims : 0 < space.numDims)
    (buf : Int → α) :
    Tracks space elmSize size (afterCopyin grids buf)
      ((MasterCall.gridCopyin buf).write space.numDims size contents) := by
  obtain ⟨distributed, holds⟩ := distributed_afterCopyin tracks.distributed dims buf
  refine ⟨distributed, ?_, fun cell inside =>
    holdsAt_of_holdsGrid distributed holds inside⟩
  intro rank client bounded
  rw [Runtime.afterCopyin, if_neg client.ne', copiedIn]
  have inactive := tracks.inactive rank client bounded
  split <;> exact inactive

/-- `GridCopyout`: an array that holds the elements of all processes has the values. -/
theorem Tracks.host_eq
    (tracks : Tracks space elmSize size grids contents) {host : Int → α}
    (holds : HostHolds space size grids space.numProcs host)
    {cell : IndexArray} (inside : InBox space.numDims size cell) :
    host (linear size cell space.numDims) = contents cell := by
  obtain ⟨owner, bounded, owns, member, place⟩ :=
    exists_local_index tracks.distributed inside
  have copied := holds owner bounded _ member
  beta_reduce at copied
  rw [place] at copied
  exact copied.trans (data_of_holdsAt bounded owns (tracks.holds cell inside))

end Calls

/-! ## Two processes that share a plane -/

theorem splitPlane_globalPos : ∀ i < 2, 0 < (IntegerArray.mk3 2 2 0 : IndexArray) i := by decide

theorem splitPlane_procPos : ∀ i < 2, 0 < (IntegerArray.mk3 2 1 0 : IntArray) i := by decide

/-- Two processes, cut along the first dimension. -/
def splitPlane : GridSpaceMPI where
  numDims := 2
  globalSize := IntegerArray.mk3 2 2 0
  procSize := IntegerArray.mk3 2 1 0
  globalPos := splitPlane_globalPos
  procPos := splitPlane_procPos

end Physis.Runtime
