import Physis.Runtime.ExchangeProgress

/-!
# What a halo holds after the exchange

The data of all processes form one function of global coordinates, and every
process sees it as a view of its own local coordinates.  Every message of the
exchange carries the sender's view of its slab, which is the receiver's view of
its halo; so each halo received agrees with the view, and the halos of earlier
dimensions, packed from later ones, agree with it again.
-/

namespace Physis.Runtime

open Physis.Library
open Physis.Library.RowMajor
open Physis.Library.Channels
open Physis.Library.Runs

variable
    {α : Type} {space : GridSpaceMPI} {elmSize : Nat}
    {size globalOffset : IndexArray} {grids : Nat → GridMPI α}

/-! ## The contents of a distributed grid -/

namespace Distributed

/-- A cell of a local subgrid is a cell of the grid that the process owns. -/
theorem owns_local
    (distributed : Distributed space elmSize size globalOffset grids)
    {rank : Nat} (bounded : rank < space.numProcs) {index : IndexArray}
    (member : InBox space.numDims (grids rank).localSize index) :
    space.Owns rank size globalOffset
      fun i => (grids rank).localOffset i + index i := by
  have own := distributed.decomposed rank bounded
  intro i below
  have bounds := member i below
  rw [own.localSize] at bounds
  rw [own.localOffset]
  beta_reduce
  omega

/-- Local subgrids lie inside the grid. -/
theorem local_inside
    (distributed : Distributed space elmSize size globalOffset grids)
    {rank : Nat} (bounded : rank < space.numProcs)
    {i : Nat} (below : i < space.numDims)
    (positive : 0 < (grids rank).localSize i) :
    0 ≤ (grids rank).localOffset i ∧
      (grids rank).localOffset i + (grids rank).localSize i ≤ size i := by
  have own := distributed.decomposed rank bounded
  rw [own.localSize] at positive
  rw [own.localOffset, own.localSize]
  have first := space.local_bounds below
    (le_refl (space.localOffset rank space.numDims globalOffset i))
    (show _ < _ + space.localSize rank space.numDims size globalOffset i by omega)
  have last := space.local_bounds below
    (show space.localOffset rank space.numDims globalOffset i ≤
      space.localOffset rank space.numDims globalOffset i +
        space.localSize rank space.numDims size globalOffset i - 1 by omega)
    (show _ < _ + space.localSize rank space.numDims size globalOffset i by omega)
  omega

/-- The value the owner of a cell has for it. -/
def HoldsAt
    (space : GridSpaceMPI) (size globalOffset : IndexArray)
    (grids : Nat → GridMPI α) (cell : IndexArray) (value : α) : Prop :=
  ∃ owner < space.numProcs, space.Owns owner size globalOffset cell ∧
    (grids owner).data
        (linear (grids owner).localSize
          (fun i => cell i - (grids owner).localOffset i) space.numDims) =
      value

/-- All processes' data as one function of global coordinates. -/
theorem exists_contents
    (distributed : Distributed space elmSize size globalOffset grids) :
    ∃ contents : IndexArray → α,
      Depends space.numDims contents ∧
        (∀ rank < space.numProcs,
          Reads space.numDims (grids rank).data (grids rank).localSize
            fun index => contents fun i => (grids rank).localOffset i + index i) ∧
        ∀ cell, InBox space.numDims size cell →
          HoldsAt space size globalOffset grids cell (contents cell) := by
  classical
  have owner : ∀ cell : IndexArray, ∃ rank,
      InBox space.numDims size cell →
        rank < space.numProcs ∧ space.Owns rank size globalOffset cell := by
    intro cell
    by_cases inside : InBox space.numDims size cell
    · obtain ⟨rank, bounded, owns⟩ := space.exists_owner distributed.fits inside
      exact ⟨rank, fun _ => ⟨bounded, owns⟩⟩
    · exact ⟨0, fun impossible => absurd impossible inside⟩
  choose ownerOf isOwner using owner
  let valueAt : IndexArray → α := fun cell =>
    (grids (ownerOf cell)).data
      (linear (grids (ownerOf cell)).localSize
        (fun i => cell i - (grids (ownerOf cell)).localOffset i) space.numDims)
  refine ⟨fun cell => valueAt (restrict space.numDims cell), ?_, ?_, ?_⟩
  · intro left right equal
    have same : restrict space.numDims left = restrict space.numDims right := by
      funext i
      by_cases below : i < space.numDims
      · simp only [restrict, if_pos below]
        exact equal i below
      · simp only [restrict, if_neg below]
    exact congrArg valueAt same
  · intro rank bounded index member
    let cell : IndexArray := restrict space.numDims fun i =>
      (grids rank).localOffset i + index i
    have coordinate : ∀ i < space.numDims,
        cell i = (grids rank).localOffset i + index i := by
      intro i below
      simp only [cell, restrict, if_pos below]
    have owns : space.Owns rank size globalOffset cell := by
      intro i below
      rw [coordinate i below]
      exact distributed.owns_local bounded member i below
    have inside : InBox space.numDims size cell := fun i below =>
      space.local_bounds below (owns i below).1 (owns i below).2
    have found := isOwner cell inside
    have same : ownerOf cell = rank :=
      space.owner_unique found.1 bounded found.2 owns
    change _ = valueAt cell
    simp only [valueAt, same]
    congr 1
    apply linear_congr (fun _ _ => rfl)
    intro i below
    rw [coordinate i below]
    omega
  · intro cell inside
    have inner : InBox space.numDims size (restrict space.numDims cell) :=
      inside.congr (fun _ _ => rfl) fun i below => by
        simp only [restrict, if_pos below]
    obtain ⟨bounded, owns⟩ := isOwner _ inner
    refine ⟨ownerOf (restrict space.numDims cell), bounded, ?_, ?_⟩
    · intro i below
      have member := owns i below
      simp only [restrict, if_pos below] at member
      exact member
    · simp only [valueAt]
      congr 1
      apply linear_congr (fun _ _ => rfl)
      intro i below
      simp only [restrict, if_pos below]

end Distributed

/-- The subgrids hold the elements of one undistributed grid. -/
def HoldsGrid
    (space : GridSpaceMPI) (size : IndexArray) (grids : Nat → GridMPI α)
    (whole : Int → α) : Prop :=
  ∀ rank < space.numProcs, ∀ index,
    InBox space.numDims (grids rank).localSize index →
      (grids rank).data (linear (grids rank).localSize index space.numDims) =
        whole (linear size
          (fun i => (grids rank).localOffset i + index i) space.numDims)

/-! ## Views of local coordinates -/

namespace HaloExchange

variable (exchange : HaloExchange)

/-- The global index of a point in local coordinates. -/
def globalIndex (origin : GridMPI α) (point : IndexArray) : IndexArray :=
  fun i =>
    if exchange.periodic then (origin.localOffset i + point i) % origin.size i
    else origin.localOffset i + point i

/-- The contents seen from one process. -/
def view
    (contents : IndexArray → α) (origin : GridMPI α) (point : IndexArray) : α :=
  contents (exchange.globalIndex origin point)

/-- The elements a message for a dimension and direction has to carry. -/
def slab
    (contents : IndexArray → α) (origin : GridMPI α) (dim : Nat) (dir : Dir) :
    List α :=
  boxList origin.numDims
    ((exchange.received origin).haloExtent dim (exchange.width dir dim)
      exchange.diagonal)
    fun index => exchange.view contents origin
      ((exchange.received origin).slabPoint dim (exchange.width dir dim) dir
        exchange.diagonal index)

/-- The values a halo has to hold. -/
def haloView
    (contents : IndexArray → α) (origin : GridMPI α) (dim : Nat) (dir : Dir)
    (index : IndexArray) : α :=
  exchange.view contents origin
    ((exchange.received origin).haloPoint dim
      (exchange.receivedWidth origin dim dir) dir exchange.diagonal index)

variable {exchange} {contents : IndexArray → α}

theorem depends_view
    (depends : Depends space.numDims contents) (origin : GridMPI α) :
    Depends space.numDims (exchange.view contents origin) := by
  intro left right equal
  apply depends
  intro i below
  simp only [globalIndex, equal i below]

theorem depends_haloView
    (depends : Depends space.numDims contents) (origin : GridMPI α)
    (dim : Nat) (dir : Dir) :
    Depends space.numDims (exchange.haloView contents origin dim dir) := by
  intro left right equal
  apply depends_view depends
  intro i below
  simp only [GridMPI.haloPoint, equal i below]

/-- On its own subgrid a process's view is its data. -/
theorem reads_view
    (distributed : Distributed space elmSize size globalOffset grids)
    (reads : ∀ rank < space.numProcs,
      Reads space.numDims (grids rank).data (grids rank).localSize
        fun index => contents fun i => (grids rank).localOffset i + index i)
    (depends : Depends space.numDims contents)
    {rank : Nat} (bounded : rank < space.numProcs) :
    Reads space.numDims (grids rank).data (grids rank).localSize
      (exchange.view contents (grids rank)) := by
  apply (reads rank bounded).congr (fun _ _ => rfl)
  intro index member
  apply depends
  intro i below
  have bounds := member i below
  have inside := distributed.local_inside bounded below (by omega)
  have sizeEq := congrFun (distributed.decomposed rank bounded).size i
  simp only [globalIndex]
  split
  · rw [sizeEq, Int.emod_eq_of_lt (by omega) (by omega)]
  · rfl

/--
The slab a process receives is, in global coordinates, the slab its neighbour
sends.
-/
theorem slab_eq_of_nextTo
    {grid other : GridMPI α} {dim : Nat} {dir : Dir}
    (next : NextTo grid other dim dir)
    (numDims : grid.numDims = space.numDims)
    (depends : Depends space.numDims contents)
    (receives : exchange.receives grid dim dir = true) :
    exchange.slab contents other dim dir =
      boxList space.numDims
        ((exchange.received grid).haloExtent dim
          (exchange.receivedWidth grid dim dir) exchange.diagonal)
        (exchange.haloView contents grid dim dir) := by
  have width : exchange.receivedWidth grid dim dir = exchange.width dir dim := by
    rw [receivedWidth, if_pos receives]
  rw [slab, ← next.numDims, numDims, width]
  apply boxList_congr
  · intro i below
    exact (exchange.received_haloExtent_eq next _ (by omega)).symm
  intro index _
  simp only [haloView, view]
  apply depends
  intro i below
  have bound : i < grid.numDims := by omega
  simp only [globalIndex]
  by_cases same : i = dim
  · -- along the dimension the two subgrids touch, or wrap around
    subst i
    simp only [GridMPI.slabPoint, GridMPI.haloPoint, if_true, width]
    have wraps : exchange.periodic = true ∨ grid.continues dim dir = true := by
      simp only [HaloExchange.receives, Bool.and_eq_true, Bool.or_eq_true]
        at receives
      exact receives.2
    cases dir with
    | fw =>
        simp only [GridMPI.slabOffset, GridMPI.haloOffset, received]
        rcases Adjacent.border next with touching | ends
        · rw [← next.size, ← touching.1]
          simp only [zero_add, add_assoc]
        · rcases wraps with periodic | continues
          · rw [if_pos periodic, if_pos periodic, ends.2, ← next.size]
            have same : grid.localOffset dim + (grid.localSize dim + index dim) =
                (0 + 0 + index dim) + grid.size dim := by
              rw [← ends.1]
              ring
            rw [same, Int.add_emod_right, add_assoc]
          · simp only [GridMPI.continues, decide_eq_true_eq] at continues
            omega
    | bw =>
        simp only [GridMPI.slabOffset, GridMPI.haloOffset, received]
        rcases Adjacent.border next with touching | ends
        · rw [← next.size, ← touching.1]
          have same : other.localOffset dim +
                (other.localSize dim - (exchange.width .bw dim : Int) + index dim) =
              other.localOffset dim + other.localSize dim +
                (-(exchange.width .bw dim : Int) + index dim) := by
            ring
          rw [same]
        · rcases wraps with periodic | continues
          · rw [if_pos periodic, if_pos periodic, ends.2, next.size]
            have same : other.localOffset dim +
                  (other.localSize dim - (exchange.width .bw dim : Int) +
                    index dim) =
                (0 + (-(exchange.width .bw dim : Int) + index dim)) +
                  other.size dim := by
              rw [← ends.1]
              ring
            rw [same, Int.add_emod_right]
          · simp only [GridMPI.continues, decide_eq_true_eq] at continues
            omega
  · -- in the other dimensions both have the same coordinates
    simp only [GridMPI.slabPoint, GridMPI.haloPoint, if_neg same]
    rw [next.localOffset bound same, next.size]
    simp only [received, exchange.receivedWidth_eq next bound same]

end HaloExchange

end Physis.Runtime
