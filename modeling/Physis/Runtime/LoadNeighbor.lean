import Physis.Runtime.ExchangeOccupancy

/-!
# `LoadNeighbor`

A stencil load either exchanges halos or fetches the region it reads.  The test
that decides compares the offsets with the smallest partition, but holds for
every range of offsets; so the halos are always exchanged, and the copy of a
slab stays inside the sender's subgrid only if the slabs are not wider than the
subgrids that send them.
-/

namespace Physis.Runtime

open Physis.Library
open Physis.Library.RowMajor
open Physis.Library.Runs

/-! ## The choice of the path -/

/-- How `LoadNeighbor` loads the neighbourhood of a subgrid. -/
inductive NeighborPath where
  | exchangeBoundaries (exchange : HaloExchange)
  | loadSubgrid (gridOffset gridSize : IndexArray)

/-- `halo_fw_width` and `halo_bw_width` of a range of offsets. -/
def neighborExchange
    (offsetMin offsetMax : IndexArray) (diagonal periodic : Bool) :
    HaloExchange where
  width dir i := match dir with
    | .fw => if offsetMax i ≥ 0 then (offsetMax i).toNat else 0
    | .bw => if offsetMin i ≤ 0 then (offsetMin i).natAbs else 0
  diagonal := diagonal
  periodic := periodic

namespace GridSpaceMPI

variable {α : Type} (space : GridSpaceMPI)

/-- The test of `LoadNeighbor` in one dimension. -/
def Overlaps (offsetMin offsetMax : IndexArray) (i : Nat) : Prop :=
  offsetMax i + space.minPartition i ≥ 0 ∨ offsetMin i ≤ space.minPartition i

instance (offsetMin offsetMax : IndexArray) (i : Nat) :
    Decidable (space.Overlaps offsetMin offsetMax i) :=
  inferInstanceAs (Decidable (_ ∨ _))

/-- `LoadNeighbor` up to the call it makes; `none` if an assertion fails. -/
def loadNeighbor
    (grid : GridMPI α) (offsetMin offsetMax : IndexArray)
    (diagonal periodic : Bool) : Option NeighborPath := do
  let overlap := (List.range grid.numDims).all fun i =>
    decide (space.Overlaps offsetMin offsetMax i)
  guard (overlap = true)
  if overlap then
    return .exchangeBoundaries
      (neighborExchange offsetMin offsetMax diagonal periodic)
  else
    guard (periodic = false)
    let gridOffset : IndexArray := fun i =>
      max (grid.localOffset i + offsetMin i) 0
    let gridY : IndexArray := fun i =>
      grid.localOffset i + grid.localSize i + offsetMax i
    return .loadSubgrid gridOffset fun i => gridY i - gridOffset i

/-- The assertion on `overlap` leaves only the exchange. -/
theorem loadNeighbor_eq
    (grid : GridMPI α) (offsetMin offsetMax : IndexArray)
    (diagonal periodic : Bool) :
    space.loadNeighbor grid offsetMin offsetMax diagonal periodic =
      if ∀ i < grid.numDims, space.Overlaps offsetMin offsetMax i then
        some (.exchangeBoundaries
          (neighborExchange offsetMin offsetMax diagonal periodic))
      else none := by
  have decided : ((List.range grid.numDims).all fun i =>
        decide (space.Overlaps offsetMin offsetMax i)) = true ↔
      ∀ i < grid.numDims, space.Overlaps offsetMin offsetMax i := by
    simp
  by_cases overlaps : ∀ i < grid.numDims, space.Overlaps offsetMin offsetMax i
  · have passed := decided.mpr overlaps
    simp only [loadNeighbor, passed, if_pos overlaps]
    rfl
  · have failed := (Bool.not_eq_true _).mp (mt decided.mp overlaps)
    simp only [loadNeighbor, failed, if_neg overlaps]
    rfl

theorem minPartition_nonneg {i : Nat} (below : i < space.numDims) :
    0 ≤ space.minPartition i := by
  have general : ∀ count : Nat,
      0 ≤ (List.range count).foldl
        (fun least j => min least (space.partitions i j)) (2 ^ 31 - 1) := by
    intro count
    induction count with
    | zero => simp
    | succ count induction =>
        rw [List.range_succ, List.foldl_append]
        exact le_min induction (space.partitions_nonneg below count)
  exact general _

end GridSpaceMPI

/-! ## What a stencil reads -/

/-- The offsets a stencil with the given range reads at. -/
structure StencilOffset
    (numDims : Nat) (offsetMin offsetMax : IndexArray) (diagonal : Bool)
    (offset : IndexArray) : Prop where
  range : ∀ i < numDims, offsetMin i ≤ offset i ∧ offset i ≤ offsetMax i
  straight : diagonal = true ∨
    ∀ i < numDims, ∀ j < numDims, offset i ≠ 0 → offset j ≠ 0 → i = j

/-- A point in local coordinates is held in the data or in a received halo. -/
def GridMPI.Resident
    {α : Type} (grid : GridMPI α) (diagonal : Bool) (point : IndexArray)
    (value : α) : Prop :=
  (InBox grid.numDims grid.localSize point ∧
      grid.data (linear grid.localSize point grid.numDims) = value) ∨
    ∃ dim < grid.numDims, ∃ dir index,
      InBox grid.numDims (grid.haloSize dir dim) index ∧
        grid.haloPoint dim (grid.haloWidth dir dim) dir diagonal index = point ∧
        grid.haloPeer dir dim
          (linear (grid.haloSize dir dim) index grid.numDims) = value

namespace HaloExchange

variable
    {α : Type} {exchange : HaloExchange} {space : GridSpaceMPI}
    {elmSize : Nat} {size globalOffset : IndexArray}
    {grids : Nat → GridMPI α}

/-- Every process with data can read the owners' values around its subgrid. -/
def ReadsAround
    (exchange : HaloExchange) (space : GridSpaceMPI)
    (size globalOffset : IndexArray) (grids : Nat → GridMPI α)
    (offsetMin offsetMax : IndexArray) (final : ExchangeState α) : Prop :=
  ∀ rank < space.numProcs, (grids rank).empty = false →
    ∀ index, InBox space.numDims (grids rank).localSize index →
      ∀ offset,
        StencilOffset space.numDims offsetMin offsetMax exchange.diagonal offset →
          InBox space.numDims size
              (exchange.globalIndex (grids rank) fun i => index i + offset i) →
            ∃ value,
              (final.process rank).grid.Resident exchange.diagonal
                  (fun i => index i + offset i) value ∧
                Distributed.HoldsAt space size globalOffset grids
                  (exchange.globalIndex (grids rank)
                    fun i => index i + offset i) value

section Point

variable {offsetMin offsetMax : IndexArray} {diagonal periodic : Bool}
    {grid : GridMPI α} {index offset : IndexArray} {numDims i : Nat}

/-- A point before the subgrid lies in its backward halo. -/
theorem receives_bw_of_before
    (stencil : StencilOffset numDims offsetMin offsetMax diagonal offset)
    (below : i < numDims) (member : 0 ≤ index i)
    (before : index i + offset i < 0)
    (inside : 0 ≤ (neighborExchange offsetMin offsetMax diagonal
      periodic).globalIndex grid (fun j => index j + offset j) i) :
    (neighborExchange offsetMin offsetMax diagonal periodic).receives grid i
        .bw = true ∧
      -((neighborExchange offsetMin offsetMax diagonal periodic).width .bw i :
        Int) ≤ index i + offset i := by
  have range := stencil.range i below
  have width : ((neighborExchange offsetMin offsetMax diagonal
      periodic).width .bw i : Int) = -offsetMin i := by
    simp only [neighborExchange]
    rw [if_pos (by omega)]
    omega
  constructor
  · rw [HaloExchange.receives, Bool.and_eq_true, Bool.or_eq_true]
    refine ⟨decide_eq_true (by omega), ?_⟩
    cases wraps : periodic with
    | true => exact Or.inl rfl
    | false =>
        right
        simp only [globalIndex, neighborExchange, wraps] at inside
        simp only [GridMPI.continues, decide_eq_true_eq]
        rw [if_neg (by decide)] at inside
        omega
  · omega

/-- A point after the subgrid lies in its forward halo. -/
theorem receives_fw_of_after
    (stencil : StencilOffset numDims offsetMin offsetMax diagonal offset)
    (below : i < numDims) (member : index i < grid.localSize i)
    (after : grid.localSize i ≤ index i + offset i)
    (inside : (neighborExchange offsetMin offsetMax diagonal
      periodic).globalIndex grid (fun j => index j + offset j) i < grid.size i) :
    (neighborExchange offsetMin offsetMax diagonal periodic).receives grid i
        .fw = true ∧
      index i + offset i < grid.localSize i +
        ((neighborExchange offsetMin offsetMax diagonal periodic).width .fw i :
          Int) := by
  have range := stencil.range i below
  have width : ((neighborExchange offsetMin offsetMax diagonal
      periodic).width .fw i : Int) = offsetMax i := by
    simp only [neighborExchange]
    rw [if_pos (by omega)]
    omega
  constructor
  · rw [HaloExchange.receives, Bool.and_eq_true, Bool.or_eq_true]
    refine ⟨decide_eq_true (by omega), ?_⟩
    cases wraps : periodic with
    | true => exact Or.inl rfl
    | false =>
        right
        simp only [globalIndex, neighborExchange, wraps] at inside
        simp only [GridMPI.continues, decide_eq_true_eq]
        rw [if_neg (by decide)] at inside
        omega
  · omega

/-- In each dimension a point that is read lies in the subgrid or its halos. -/
theorem within_receivedWidth
    (stencil : StencilOffset numDims offsetMin offsetMax diagonal offset)
    (below : i < numDims) (member : 0 ≤ index i ∧ index i < grid.localSize i)
    (inside : 0 ≤ (neighborExchange offsetMin offsetMax diagonal
        periodic).globalIndex grid (fun j => index j + offset j) i ∧
      (neighborExchange offsetMin offsetMax diagonal
        periodic).globalIndex grid (fun j => index j + offset j) i <
          grid.size i) :
    0 ≤ index i + offset i + ((neighborExchange offsetMin offsetMax diagonal
        periodic).receivedWidth grid i .bw : Int) ∧
      index i + offset i < grid.localSize i +
        ((neighborExchange offsetMin offsetMax diagonal
          periodic).receivedWidth grid i .fw : Int) := by
  constructor
  · by_cases before : index i + offset i < 0
    · obtain ⟨receives, wide⟩ :=
        receives_bw_of_before stencil below member.1 before inside.1
      rw [receivedWidth, if_pos receives]
      omega
    · omega
  · by_cases after : grid.localSize i ≤ index i + offset i
    · obtain ⟨receives, wide⟩ :=
        receives_fw_of_after stencil below member.2 after inside.2
      rw [receivedWidth, if_pos receives]
      exact wide
    · omega

end Point

/-! ## Reading after the exchange -/

section Final

variable
    (distributed : Distributed space elmSize size globalOffset grids)
    (dims : space.numDims ≤ psMaxDim)
    (sourced : Sourced exchange space grids)
    (slabs : SlabsInside exchange space grids)
    {final : ExchangeState α}
    (reached : Reaches (exchange.Step space) (start grids) final)

include reached in
theorem sameShape_of_reaches
    {rank : Nat} (bounded : rank < space.numProcs) :
    SameShape (grids rank) (final.process rank).grid := by
  obtain ⟨_, follows⟩ := synchronised_of_reaches reached rank bounded
  exact follows.shape

include distributed dims sourced slabs reached in
/-- The exchange leaves a process's own cells as they were. -/
theorem data_holdsAt_of_reaches
    {rank : Nat} (bounded : rank < space.numProcs)
    {index : IndexArray}
    (member : InBox space.numDims (grids rank).localSize index)
    (inside : InBox space.numDims size
      (exchange.globalIndex (grids rank) index)) :
    Distributed.HoldsAt space size globalOffset grids
      (exchange.globalIndex (grids rank) index)
      ((final.process rank).grid.data
        (linear (grids rank).localSize index space.numDims)) := by
  obtain ⟨contents, depends, reads, holds⟩ := distributed.exists_contents
  have faithful : exchange.Faithful space grids contents final :=
    reached.invariant (faithful_start distributed depends reads)
      fun _ _ faithful => faithful.step distributed dims sourced slabs depends
  obtain ⟨_, _, carries⟩ := faithful rank bounded
  rw [carries.data index member]
  exact holds _ inside

end Final

/-- The position of a point in the halo of a dimension. -/
def haloIndex
    (grid : GridMPI α) (dim width : Nat) (dir : Dir) (diagonal : Bool)
    (point : IndexArray) : IndexArray :=
  fun i =>
    if i = dim then point i - grid.haloOffset dim width dir
    else if diagonal = true ∧ dim < i then point i + grid.haloWidth .bw i
    else point i

theorem haloPoint_haloIndex
    (grid : GridMPI α) (dim width : Nat) (dir : Dir) (diagonal : Bool)
    (point : IndexArray) :
    grid.haloPoint dim width dir diagonal
      (haloIndex grid dim width dir diagonal point) = point := by
  funext i
  simp only [GridMPI.haloPoint, haloIndex]
  split
  · omega
  · split <;> omega

/-- A point outside a box leaves it in a first dimension. -/
theorem exists_first_outside
    {numDims : Nat} {extent point : IndexArray}
    (outside : ¬InBox numDims extent point) :
    ∃ dim < numDims, ¬(0 ≤ point dim ∧ point dim < extent dim) ∧
      ∀ i < dim, 0 ≤ point i ∧ point i < extent i := by
  classical
  have leaves : ∃ dim, dim < numDims ∧
      ¬(0 ≤ point dim ∧ point dim < extent dim) := by
    by_contra none
    push Not at none
    exact outside fun i below => ⟨(none i below).1, (none i below).2⟩
  refine ⟨Nat.find leaves, (Nat.find_spec leaves).1, (Nat.find_spec leaves).2, ?_⟩
  intro i earlier
  have minimal := Nat.find_min leaves earlier
  have below := (Nat.find_spec leaves).1
  push Not at minimal
  exact ⟨(minimal (by omega)).1, (minimal (by omega)).2⟩

/-- A point that leaves the subgrid first in `dim` lies in the halo of `dim`. -/
theorem haloIndex_inBox
    {offsetMin offsetMax : IndexArray} {diagonal periodic : Bool}
    (distributed : Distributed space elmSize size globalOffset grids)
    {final : ExchangeState α}
    (reached : Reaches
      ((neighborExchange offsetMin offsetMax diagonal periodic).Step space)
      (start grids) final)
    (finished : Finished space final)
    {rank : Nat} (bounded : rank < space.numProcs)
    (occupied : (grids rank).empty = false)
    {index offset : IndexArray}
    (member : InBox space.numDims (grids rank).localSize index)
    (stencil : StencilOffset space.numDims offsetMin offsetMax diagonal offset)
    (inside : InBox space.numDims size
      ((neighborExchange offsetMin offsetMax diagonal periodic).globalIndex
        (grids rank) fun i => index i + offset i))
    {dim : Nat} {dir : Dir} (below : dim < space.numDims)
    (within : ∀ i < dim, 0 ≤ index i + offset i ∧
      index i + offset i < (grids rank).localSize i)
    (receives : (neighborExchange offsetMin offsetMax diagonal
      periodic).receives (grids rank) dim dir = true)
    (moves : offset dim ≠ 0)
    (along :
      (grids rank).haloOffset dim ((neighborExchange offsetMin offsetMax diagonal
          periodic).width dir dim) dir ≤ index dim + offset dim ∧
        index dim + offset dim <
          (grids rank).haloOffset dim ((neighborExchange offsetMin offsetMax
              diagonal periodic).width dir dim) dir +
            (neighborExchange offsetMin offsetMax diagonal periodic).width dir
              dim) :
    InBox space.numDims ((final.process rank).grid.haloSize dir dim)
      (haloIndex (final.process rank).grid dim
        ((neighborExchange offsetMin offsetMax diagonal periodic).width dir dim)
        dir diagonal fun i => index i + offset i) := by
  have own := distributed.decomposed rank bounded
  have shape := sameShape_of_reaches reached bounded
  have recorded := fun i (inner : i < space.numDims) side =>
    recorded_of_finished distributed reached finished bounded occupied inner side
  have corners : (neighborExchange offsetMin offsetMax diagonal
      periodic).diagonal = diagonal := rfl
  intro i inner
  have bounds := member i inner
  have cell := inside i inner
  rw [← own.size] at cell
  rw [(recorded dim below dir).2, receivedSize, if_pos receives, own.numDims,
    if_pos inner, corners]
  simp only [haloIndex, GridMPI.haloExtent]
  by_cases same : i = dim
  · subst i
    rw [if_pos rfl, if_pos rfl]
    have origin : (final.process rank).grid.haloOffset dim
          ((neighborExchange offsetMin offsetMax diagonal periodic).width dir dim)
          dir =
        (grids rank).haloOffset dim
          ((neighborExchange offsetMin offsetMax diagonal periodic).width dir dim)
          dir := by
      cases dir
      · exact congrFun shape.localSize dim
      · rfl
    rw [origin]
    omega
  · rw [if_neg same, if_neg same]
    have around := within_receivedWidth stencil inner bounds cell
    by_cases later : diagonal = true ∧ dim < i
    · rw [if_pos later, if_pos later, (recorded i inner .bw).1]
      simp only [received]
      push_cast
      omega
    · rw [if_neg later, if_neg later]
      simp only [received]
      by_cases earlier : i < dim
      · exact within i earlier
      · -- without corners the offset moves along one dimension only
        have still : offset i = 0 := by
          rcases stencil.straight with corner | straight
          · exact absurd ⟨corner, by omega⟩ later
          · by_contra moved
            exact same (straight i inner dim below moved moves)
        omega

/--
After an exchange as wide as the range of offsets, a process reads what the
owners hold.
-/
theorem readsAround_of_finished
    {offsetMin offsetMax : IndexArray} {diagonal periodic : Bool}
    (distributed : Distributed space elmSize size globalOffset grids)
    (dims : space.numDims ≤ psMaxDim)
    (sourced : Sourced (neighborExchange offsetMin offsetMax diagonal periodic)
      space grids)
    (slabs : SlabsInside (neighborExchange offsetMin offsetMax diagonal periodic)
      space grids)
    {final : ExchangeState α}
    (reached : Reaches
      ((neighborExchange offsetMin offsetMax diagonal periodic).Step space)
      (start grids) final)
    (finished : Finished space final) :
    ReadsAround (neighborExchange offsetMin offsetMax diagonal periodic) space
      size globalOffset grids offsetMin offsetMax final := by
  intro rank bounded occupied index member offset stencil inside
  have own := distributed.decomposed rank bounded
  have shape := sameShape_of_reaches reached bounded
  have numDims := shape.numDims.trans own.numDims
  by_cases ownCell : InBox space.numDims (grids rank).localSize
      fun i => index i + offset i
  · refine ⟨_, Or.inl ⟨?_, rfl⟩, ?_⟩
    · rw [numDims, shape.localSize]
      exact ownCell
    · rw [numDims, shape.localSize]
      exact data_holdsAt_of_reaches distributed dims sourced slabs reached bounded
        ownCell inside
  · -- the first dimension in which the point leaves the subgrid names the halo
    obtain ⟨dim, below, outside, within⟩ := exists_first_outside ownCell
    have bounds := member dim below
    have cell := inside dim below
    rw [← own.size] at cell
    have lies : ∃ dir, (neighborExchange offsetMin offsetMax diagonal
          periodic).receives (grids rank) dim dir = true ∧
        (grids rank).haloOffset dim ((neighborExchange offsetMin offsetMax
              diagonal periodic).width dir dim) dir ≤
            index dim + offset dim ∧
          index dim + offset dim <
            (grids rank).haloOffset dim ((neighborExchange offsetMin offsetMax
                diagonal periodic).width dir dim) dir +
              (neighborExchange offsetMin offsetMax diagonal periodic).width dir
                dim := by
      by_cases before : index dim + offset dim < 0
      · obtain ⟨receives, wide⟩ :=
          receives_bw_of_before stencil below bounds.1 before cell.1
        refine ⟨.bw, receives, wide, ?_⟩
        simp only [GridMPI.haloOffset]
        omega
      · have after : (grids rank).localSize dim ≤ index dim + offset dim := by
          omega
        obtain ⟨receives, wide⟩ :=
          receives_fw_of_after stencil below bounds.2 after cell.2
        exact ⟨.fw, receives, after, wide⟩
    obtain ⟨dir, receives, along⟩ := lies
    have boxed := haloIndex_inBox distributed reached finished bounded occupied
      member stencil inside below within receives (by omega) along
    have holds := holdsAt_of_finished distributed dims sourced slabs reached
      finished bounded occupied below dir receives boxed
    have point := haloPoint_haloIndex (final.process rank).grid dim
      ((neighborExchange offsetMin offsetMax diagonal periodic).width dir dim)
      dir diagonal fun i => index i + offset i
    have width : (final.process rank).grid.haloWidth dir dim =
        (neighborExchange offsetMin offsetMax diagonal periodic).width dir dim := by
      rw [(recorded_of_finished distributed reached finished bounded occupied
        below dir).1, receivedWidth, if_pos receives]
    refine ⟨_, Or.inr ⟨dim, by rw [numDims]; exact below, dir,
      haloIndex (final.process rank).grid dim
        ((neighborExchange offsetMin offsetMax diagonal periodic).width dir dim)
        dir diagonal fun i => index i + offset i, ?_, ?_, rfl⟩, ?_⟩
    · rw [numDims]
      exact boxed
    · rw [width]
      exact point
    · rw [numDims]
      rw [show (neighborExchange offsetMin offsetMax diagonal periodic).diagonal =
        diagonal from rfl, point] at holds
      exact holds

/-! ## When the choice is valid -/

/--
Each process exchanges halos whose slabs lie inside the subgrids or loads a
subgrid, and either way can read around its own subgrid afterwards.
-/
structure LoadsNeighborhood
    (space : GridSpaceMPI) (size globalOffset : IndexArray)
    (grids : Nat → GridMPI α) (offsetMin offsetMax : IndexArray)
    (diagonal periodic : Bool) : Prop where
  path : ∀ rank < space.numProcs,
    (∃ exchange,
      space.loadNeighbor (grids rank) offsetMin offsetMax diagonal periodic =
          some (.exchangeBoundaries exchange) ∧
        SlabsInside exchange space grids) ∨
      ∃ gridOffset gridSize,
        space.loadNeighbor (grids rank) offsetMin offsetMax diagonal periodic =
          some (.loadSubgrid gridOffset gridSize)
  exchanged : ∀ exchange,
    (∀ rank < space.numProcs,
      space.loadNeighbor (grids rank) offsetMin offsetMax diagonal periodic =
        some (.exchangeBoundaries exchange)) →
      Terminates (exchange.Step space) (Finished space) (start grids) ∧
        ∀ final, Reaches (exchange.Step space) (start grids) final →
          Finished space final →
            ReadsAround exchange space size globalOffset grids offsetMin offsetMax
              final
  loaded : ∀ rank < space.numProcs, ∀ gridOffset gridSize,
    space.loadNeighbor (grids rank) offsetMin offsetMax diagonal periodic =
        some (.loadSubgrid gridOffset gridSize) →
      ∀ index, InBox space.numDims (grids rank).localSize index →
        ∀ offset, StencilOffset space.numDims offsetMin offsetMax diagonal offset →
          InBox space.numDims size
              (fun i => (grids rank).localOffset i + index i + offset i) →
            ∀ i < space.numDims,
              gridOffset i ≤ (grids rank).localOffset i + index i + offset i ∧
                (grids rank).localOffset i + index i + offset i <
                  gridOffset i + gridSize i

/--
`LoadNeighbor` is valid exactly if the offsets pass the test, every slab that is
sent lies inside its sender's subgrid, and no halo comes from a process without
data.
-/
theorem loadsNeighborhood_iff
    {offsetMin offsetMax : IndexArray} {diagonal periodic : Bool}
    (distributed : Distributed space elmSize size globalOffset grids)
    (dims : space.numDims ≤ psMaxDim) :
    LoadsNeighborhood space size globalOffset grids offsetMin offsetMax diagonal
        periodic ↔
      (∀ i < space.numDims, space.Overlaps offsetMin offsetMax i) ∧
        SlabsInside (neighborExchange offsetMin offsetMax diagonal periodic)
          space grids ∧
        Sourced (neighborExchange offsetMin offsetMax diagonal periodic)
          space grids := by
  have eq : ∀ rank < space.numProcs,
      space.loadNeighbor (grids rank) offsetMin offsetMax diagonal periodic =
        if ∀ i < space.numDims, space.Overlaps offsetMin offsetMax i then
          some (.exchangeBoundaries
            (neighborExchange offsetMin offsetMax diagonal periodic))
        else none := by
    intro rank bounded
    rw [space.loadNeighbor_eq, (distributed.decomposed rank bounded).numDims]
  constructor
  · intro loads
    have chosen : (∀ i < space.numDims, space.Overlaps offsetMin offsetMax i) ∧
        SlabsInside (neighborExchange offsetMin offsetMax diagonal periodic)
          space grids := by
      have path := loads.path 0 space.numProcs_pos
      rw [eq 0 space.numProcs_pos] at path
      split at path
      · rename_i overlaps
        rcases path with ⟨exchange, same, slabs⟩ | ⟨_, _, impossible⟩
        · cases same
          exact ⟨overlaps, slabs⟩
        · cases impossible
      · rcases path with ⟨_, impossible, _⟩ | ⟨_, _, impossible⟩ <;> cases impossible
    obtain ⟨overlaps, slabs⟩ := chosen
    refine ⟨overlaps, slabs, ?_⟩
    intro rank bounded occupied dim below dir receives
    by_contra unsourced
    obtain ⟨terminates, _⟩ := loads.exchanged _ fun other inside => by
      rw [eq other inside, if_pos overlaps]
    obtain ⟨final, reached, finished⟩ := terminates.reaches_final
    exact not_finished_of_unsourced distributed bounded below occupied receives
      (by simpa using unsourced) reached finished
  · rintro ⟨overlaps, slabs, sourced⟩
    have path : ∀ rank < space.numProcs,
        space.loadNeighbor (grids rank) offsetMin offsetMax diagonal periodic =
          some (.exchangeBoundaries
            (neighborExchange offsetMin offsetMax diagonal periodic)) := by
      intro rank bounded
      rw [eq rank bounded, if_pos overlaps]
    constructor
    · intro rank bounded
      exact Or.inl ⟨_, path rank bounded, slabs⟩
    · intro exchange chosen
      have same := (path 0 space.numProcs_pos).symm.trans
        (chosen 0 space.numProcs_pos)
      cases same
      exact ⟨terminates distributed dims sourced, fun final reached finished =>
        readsAround_of_finished distributed dims sourced slabs reached finished⟩
    · intro rank bounded gridOffset gridSize impossible
      rw [path rank bounded] at impossible
      cases impossible

/-- A stencil that looks one cell ahead is loaded on a row of three processes. -/
theorem rowOfThree_loadsNeighborhood :
    LoadsNeighborhood rowOfThree (IntegerArray.mk3 6 0 0) (fun _ => 0)
      (rowOfThree.distribute 8 (IntegerArray.mk3 6 0 0) false (fun _ => 0)
        fun rank _ position => 10 * (rank : Int) + position)
      (fun _ => 0) (IntegerArray.mk3 1 0 0) false false := by
  have distributed := rowOfThree.distribute_distributed 8
    (IntegerArray.mk3 6 0 0) false (fun _ => 0)
    (fun rank _ position => 10 * (rank : Int) + position) (by decide)
  have occupied : ∀ rank < rowOfThree.numProcs,
      (rowOfThree.distribute 8 (IntegerArray.mk3 6 0 0) false (fun _ => 0)
        (fun rank _ position => 10 * (rank : Int) + position) rank).empty =
          false := by
    decide
  refine (loadsNeighborhood_iff distributed (by decide)).mpr ⟨by decide, ?_, ?_⟩
  · have narrow : ∀ rank < rowOfThree.numProcs, ∀ dim < rowOfThree.numDims,
        (neighborExchange (fun _ => 0) (IntegerArray.mk3 1 0 0) false
            false).width .fw dim ≤ 1 ∧
          (neighborExchange (fun _ => 0) (IntegerArray.mk3 1 0 0) false
            false).width .bw dim ≤ 1 ∧
          (1 : Int) ≤ (rowOfThree.distribute 8 (IntegerArray.mk3 6 0 0) false
            (fun _ => 0)
            (fun rank _ position => 10 * (rank : Int) + position)
              rank).localSize dim := by
      decide
    intro rank bounded _ dim below dir _
    obtain ⟨forward, backward, wide⟩ := narrow rank bounded dim below
    cases dir <;> omega
  · exact fun rank _ _ _ below dir _ =>
      occupied _ (rowOfThree.neighbor_lt rank below dir)

/--
A stencil that looks three cells ahead exchanges slabs of three cells, but the
processes of the row have only two.
-/
theorem rowOfThree_three_ahead_not_loadsNeighborhood :
    ¬LoadsNeighborhood rowOfThree (IntegerArray.mk3 6 0 0) (fun _ => 0)
      (rowOfThree.distribute 8 (IntegerArray.mk3 6 0 0) false (fun _ => 0)
        fun rank _ position => 10 * (rank : Int) + position)
      (fun _ => 0) (IntegerArray.mk3 3 0 0) false false := by
  intro loads
  have exchanged : rowOfThree.loadNeighbor
        (rowOfThree.distribute 8 (IntegerArray.mk3 6 0 0) false (fun _ => 0)
          (fun rank _ position => 10 * (rank : Int) + position) 1)
        (fun _ => 0) (IntegerArray.mk3 3 0 0) false false =
      some (.exchangeBoundaries (neighborExchange (fun _ => 0)
        (IntegerArray.mk3 3 0 0) false false)) := by
    rw [rowOfThree.loadNeighbor_eq]
    exact if_pos (by decide)
  rcases loads.path 1 (by decide) with ⟨exchange, same, slabs⟩ | ⟨_, _, same⟩
  · rw [exchanged] at same
    cases same
    have wide := slabs 1 (by decide) (by decide) 0 (by decide) .fw (by decide)
    revert wide
    decide
  · rw [exchanged] at same
    cases same

end HaloExchange

end Physis.Runtime
