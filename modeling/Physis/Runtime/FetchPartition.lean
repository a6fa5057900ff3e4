import Physis.Runtime.GridAccessRuns

/-!
# Request splitting and ownership

The pieces of a requested region are an exact partition of it, cut along the
local subgrids that `PartitionGrid` computes, and `FindOwnerProcess` names the
process whose local subgrid contains an element.
-/

namespace Physis.Runtime.GridSpaceMPI

variable
    {α : Type} {space : GridSpaceMPI}
    {size globalOffset gridOffset gridSize : IndexArray}

/-- Pieces of a region partition it along the local subgrids of their peers. -/
structure IsPartition
    (space : GridSpaceMPI) (size globalOffset gridOffset gridSize : IndexArray)
    (pieces : List FetchInfo) : Prop where
  disjoint : pieces.Pairwise fun left right =>
    ∀ cell, ¬(space.InPiece left cell ∧ space.InPiece right cell)
  union : ∀ cell, space.InRegion gridOffset gridSize cell ↔
    ∃ info ∈ pieces, space.InPiece info cell
  ranked : ∀ info ∈ pieces, space.peerRank info < space.numProcs
  local_inside : ∀ info ∈ pieces, ∀ d < space.numDims,
    space.localOffset (space.peerRank info) space.numDims globalOffset d ≤
        info.peerOffset d ∧
      0 < info.peerSize d ∧
      info.peerOffset d + info.peerSize d ≤
        space.localOffset (space.peerRank info) space.numDims globalOffset d +
          space.localSize (space.peerRank info) space.numDims size globalOffset d
  peers_once : (pieces.map space.peerRank).Nodup

section Region

variable (region : space.RegionInside size globalOffset gridOffset gridSize)

include region

/-- Pieces of one region that share a cell have the same peer. -/
theorem RegionInside.peer_of_common
    {left right : FetchInfo} {cell : IndexArray}
    (leftPiece : space.Piece space.numDims gridOffset gridSize left)
    (rightPiece : space.Piece space.numDims gridOffset gridSize right)
    (leftInside : space.InPiece left cell) (rightInside : space.InPiece right cell) :
    space.peerRank left = space.peerRank right :=
  space.owner_unique leftPiece.peerRank_lt rightPiece.peerRank_lt
    (region.piece_owns leftPiece leftInside)
    (region.piece_owns rightPiece rightInside)

/-- The pieces of a region share no cell. -/
theorem RegionInside.pieces_disjoint :
    (space.collectPerProcSubgridInfo globalOffset gridOffset gridSize).Pairwise
      fun left right =>
        ∀ cell, ¬(space.InPiece left cell ∧ space.InPiece right cell) := by
  have once := space.nodup_peers globalOffset gridOffset gridSize
  rw [List.Nodup, List.pairwise_map] at once
  apply once.imp_of_mem
  intro left right leftMember rightMember different cell common
  exact different (region.peer_of_common
    ((region.mem_iff left).mp leftMember) ((region.mem_iff right).mp rightMember)
    common.1 common.2)

/-- The cells of the region are those of its pieces. -/
theorem RegionInside.pieces_union
    (fits : ∀ d < space.numDims, size d ≤ space.globalSize d) (cell : IndexArray) :
    space.InRegion gridOffset gridSize cell ↔
      ∃ info ∈ space.collectPerProcSubgridInfo globalOffset gridOffset gridSize,
        space.InPiece info cell := by
  constructor
  · intro inside
    obtain ⟨info, piece, member⟩ := region.exists_piece fits inside
    exact ⟨info, (region.mem_iff info).mpr piece, member⟩
  · rintro ⟨info, listed, member⟩ d below
    have bounds := region.piece_bounds ((region.mem_iff info).mp listed) below
    have within := member d below
    omega

theorem RegionInside.isPartition
    (fits : ∀ d < space.numDims, size d ≤ space.globalSize d) :
    space.IsPartition size globalOffset gridOffset gridSize
      (space.collectPerProcSubgridInfo globalOffset gridOffset gridSize) where
  disjoint := region.pieces_disjoint
  union := region.pieces_union fits
  ranked info listed := ((region.mem_iff info).mp listed).peerRank_lt
  local_inside info listed d below := by
    have piece := (region.mem_iff info).mp listed
    have bounds := region.piece_bounds piece below
    exact ⟨bounds.2.2.1, (piece.cut d below).positive, bounds.2.2.2⟩
  peers_once := space.nodup_peers globalOffset gridOffset gridSize

end Region

/-- The process found for an element is the one that owns it. -/
theorem findOwnerProcess_owns
    (grid : GridMPI α) {index : IndexArray}
    (origin : ∀ d < space.numDims, grid.globalOffset d = 0)
    (fits : ∀ d < space.numDims, size d ≤ space.globalSize d)
    (inside : Library.RowMajor.InBox space.numDims size index) :
    ∃ owner, space.findOwnerProcess grid index = some owner ∧
      owner < space.numProcs ∧ space.Owns owner size grid.globalOffset index := by
  have region : space.RegionInside size grid.globalOffset index fun _ => 1 :=
    ⟨origin, fun d below => (inside d below).1, fun _ _ => zero_le_one,
      fun d below => by have bounds := inside d below; omega⟩
  obtain ⟨info, listed, bounded, owns⟩ := collect_unit region fits
  exact ⟨space.peerRank info, by simp only [findOwnerProcess, listed], bounded, owns⟩

/--
A region inside a grid at the origin is split into an exact partition along
the local subgrids, and the process found for an element is the only one whose
local subgrid contains it.
-/
theorem splitting_agrees_with_ownership
    (grid : GridMPI α)
    (origin : ∀ d < space.numDims, grid.globalOffset d = 0)
    (fits : ∀ d < space.numDims, grid.size d ≤ space.globalSize d) :
    (∀ gridOffset gridSize : IndexArray,
      (∀ d < space.numDims, 0 ≤ gridOffset d ∧ 0 ≤ gridSize d ∧
        gridOffset d + gridSize d ≤ grid.size d) →
      space.IsPartition grid.size grid.globalOffset gridOffset gridSize
        (space.collectPerProcSubgridInfo grid.globalOffset gridOffset gridSize)) ∧
    ∀ index, Library.RowMajor.InBox space.numDims grid.size index →
      ∃ owner, space.findOwnerProcess grid index = some owner ∧
        owner < space.numProcs ∧
        ∀ rank < space.numProcs,
          space.Owns rank grid.size grid.globalOffset index ↔ rank = owner := by
  constructor
  · intro gridOffset gridSize box
    have region : space.RegionInside grid.size grid.globalOffset gridOffset gridSize :=
      ⟨origin, fun d below => (box d below).1, fun d below => (box d below).2.1,
        fun d below => (box d below).2.2⟩
    exact region.isPartition fits
  · intro index inside
    obtain ⟨owner, found, bounded, owns⟩ := findOwnerProcess_owns grid origin fits inside
    refine ⟨owner, found, bounded, fun rank rankBounded => ⟨?_, ?_⟩⟩
    · intro rankOwns
      exact space.owner_unique rankBounded bounded rankOwns owns
    · rintro rfl
      exact owns

theorem twoOverThree_globalPos : ∀ i < 1, 0 < (IntegerArray.mk3 2 0 0 : IndexArray) i := by decide

theorem twoOverThree_procPos : ∀ i < 1, 0 < (IntegerArray.mk3 3 0 0 : IntArray) i := by decide

/-- Two cells over three processes: one partition is empty. -/
def twoOverThree : GridSpaceMPI where
  numDims := 1
  globalSize := IntegerArray.mk3 2 0 0
  procSize := IntegerArray.mk3 3 0 0
  globalPos := twoOverThree_globalPos
  procPos := twoOverThree_procPos

/-- The grid of both cells on the first process. -/
def twoOverThreeGrid : GridMPI Int :=
  let size := IntegerArray.mk3 2 0 0
  let globalOffset := IntegerArray.mk3 0 0 0
  GridMPI.create 4 1 size false globalOffset
    (twoOverThree.localOffset 0 1 globalOffset)
    (twoOverThree.localSize 0 1 size globalOffset) fun _ _ => 0

/-- Both cells as a region, and the second one as an element. -/
theorem twoOverThree_splitting :
    twoOverThree.IsPartition twoOverThreeGrid.size twoOverThreeGrid.globalOffset
        (IntegerArray.mk3 0 0 0) (IntegerArray.mk3 2 0 0)
        (twoOverThree.collectPerProcSubgridInfo twoOverThreeGrid.globalOffset
          (IntegerArray.mk3 0 0 0) (IntegerArray.mk3 2 0 0)) ∧
      ∃ owner, twoOverThree.findOwnerProcess twoOverThreeGrid (IntegerArray.mk3 1 0 0) =
          some owner ∧
        owner < twoOverThree.numProcs ∧
        ∀ rank < twoOverThree.numProcs,
          twoOverThree.Owns rank twoOverThreeGrid.size twoOverThreeGrid.globalOffset
            (IntegerArray.mk3 1 0 0) ↔ rank = owner := by
  have splitting := @splitting_agrees_with_ownership _ twoOverThree twoOverThreeGrid
    (by decide) (by decide)
  constructor
  · exact splitting.1 (IntegerArray.mk3 0 0 0) (IntegerArray.mk3 2 0 0) (by decide)
  · have inside : ∀ d < 1, 0 ≤ IntegerArray.mk3 (1 : Int) 0 0 d ∧
        IntegerArray.mk3 (1 : Int) 0 0 d < twoOverThreeGrid.size d := by
      decide
    exact splitting.2 (IntegerArray.mk3 1 0 0) inside

end Physis.Runtime.GridSpaceMPI
