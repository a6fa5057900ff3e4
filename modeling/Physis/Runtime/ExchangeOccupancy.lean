import Physis.Runtime.ExchangeDelivery

/-!
# Periodic exchange of a grid that leaves processes empty

Neighbours are computed on the process grid, but a process without data returns
from the exchange at once.  A process whose neighbour has no data therefore
waits for a message that nobody sends.
-/

namespace Physis.Runtime

open Physis.Library
open Physis.Library.RowMajor
open Physis.Library.Runs

namespace HaloExchange

variable
    {α : Type} {exchange : HaloExchange} {space : GridSpaceMPI}
    {elmSize : Nat} {size globalOffset : IndexArray}
    {grids : Nat → GridMPI α}

/-- On each side with a halo, a process with data has a neighbour with data. -/
def RingsOccupied
    (exchange : HaloExchange) (space : GridSpaceMPI)
    (grids : Nat → GridMPI α) : Prop :=
  ∀ rank < space.numProcs, (grids rank).empty = false →
    ∀ dim < space.numDims, ∀ dir, 0 < exchange.width dir dim →
      (grids (space.neighbor rank dim dir)).empty = false

/--
The exchange terminates, and the halos of processes with data hold the values
of the owners, the grid wrapping around at its edges.
-/
structure WrapsAround
    (exchange : HaloExchange) (space : GridSpaceMPI)
    (size globalOffset : IndexArray) (grids : Nat → GridMPI α) : Prop where
  terminates :
    Terminates (exchange.Step space) (Finished space) (start grids)
  delivers : ∀ final, Reaches (exchange.Step space) (start grids) final →
      Finished space final →
        ∀ rank < space.numProcs, (grids rank).empty = false →
          ∀ dim < space.numDims, ∀ dir, 0 < exchange.width dir dim →
            ∀ index, InBox space.numDims
                ((final.process rank).grid.haloSize dir dim) index →
              Distributed.HoldsAt space size globalOffset grids
                (fun i =>
                  ((grids rank).localOffset i +
                    (final.process rank).grid.haloPoint dim
                      (exchange.width dir dim) dir exchange.diagonal index i) %
                    size i)
                ((final.process rank).grid.haloPeer dir dim
                  (linear ((final.process rank).grid.haloSize dir dim) index
                    space.numDims))

/-- A process that receives from a process without data never returns. -/
theorem not_finished_of_unsourced
    (distributed : Distributed space elmSize size globalOffset grids)
    {rank dim : Nat} {dir : Dir} (bounded : rank < space.numProcs)
    (below : dim < space.numDims) (occupied : (grids rank).empty = false)
    (receives : exchange.receives (grids rank) dim dir = true)
    (unsourced : (grids (space.neighbor rank dim dir)).empty = true)
    {state : ExchangeState α}
    (reached : Reaches (exchange.Step space) (start grids) state) :
    ¬Finished space state := by
  intro finished
  have synchronised := synchronised_of_reaches reached
  have sourceBounded := space.neighbor_lt rank below dir
  obtain ⟨done, follows⟩ := synchronised rank bounded
  obtain ⟨sourceDone, sourceFollows⟩ := synchronised _ sourceBounded
  -- the source has nothing to do and so has sent nothing
  have sourceSplit := sourceFollows.script
  rw [script, unsourced, if_pos rfl, List.append_eq_nil_iff] at sourceSplit
  have sent := sourceFollows.sent rank
  rw [sourceSplit.1, List.filterMap_nil, List.map_eq_nil_iff] at sent
  -- the process has posted a receive for it
  have split := follows.script
  rw [finished rank bounded, List.append_nil, script, occupied,
    if_neg (by decide), (distributed.decomposed rank bounded).numDims] at split
  have posted : 0 < (state.posted rank (space.neighbor rank dim dir)).length := by
    rw [follows.posted]
    apply List.length_pos_of_mem
    rw [List.mem_filterMap]
    refine ⟨.recv dim dir, ?_, ?_⟩
    · rw [split, mem_exchangeProgram]
      exact below
    · simp only [postFrom]
      rw [if_pos ⟨receives, trivial⟩]
  rcases follows.answered _ 0 posted with ⟨request, asked, _⟩ | arrived
  · obtain ⟨_, waiting⟩ := follows.requested request asked
    rw [finished rank bounded] at waiting
    cases waiting
  · rw [sent] at arrived
    exact absurd arrived (lt_irrefl 0)

/-- With wrap-around every halo of positive width is received. -/
theorem receives_of_periodic
    (periodic : exchange.periodic = true) (grid : GridMPI α)
    (dim : Nat) (dir : Dir) :
    exchange.receives grid dim dir = true ↔ 0 < exchange.width dir dim := by
  simp [HaloExchange.receives, periodic]

/--
The periodic exchange is right if every process with data has, on each side with
a halo, a neighbour with data, and no halo is wider than the subgrid it is cut
from.  Without such neighbours it never is.
-/
theorem wrapsAround_of_ringsOccupied
    (distributed : Distributed space elmSize size globalOffset grids)
    (dims : space.numDims ≤ psMaxDim)
    (periodic : exchange.periodic = true) :
    (RingsOccupied exchange space grids → Narrow exchange space grids →
      WrapsAround exchange space size globalOffset grids) ∧
    (WrapsAround exchange space size globalOffset grids →
      RingsOccupied exchange space grids) := by
  constructor
  · intro rings narrow
    have sourced : Sourced exchange space grids := by
      intro rank bounded occupied dim below dir receives
      exact rings rank bounded occupied dim below dir
        ((receives_of_periodic periodic _ dim dir).mp receives)
    constructor
    · exact terminates distributed dims sourced
    · intro final reached finished rank bounded occupied dim below dir
        positive index member
      have holds := holdsAt_of_finished distributed dims sourced
        narrow.slabsInside reached finished bounded occupied below dir
        ((receives_of_periodic periodic _ dim dir).mpr positive) member
      have wrapped : exchange.globalIndex (grids rank)
            ((final.process rank).grid.haloPoint dim (exchange.width dir dim) dir
              exchange.diagonal index) =
          fun i =>
            ((grids rank).localOffset i +
              (final.process rank).grid.haloPoint dim (exchange.width dir dim)
                dir exchange.diagonal index i) % size i := by
        funext i
        simp only [globalIndex, periodic, if_true,
          (distributed.decomposed rank bounded).size]
      rw [wrapped] at holds
      exact holds
  · intro wraps rank bounded occupied dim below dir positive
    by_contra unsourced
    obtain ⟨final, reached, finished⟩ := wraps.terminates.reaches_final
    exact not_finished_of_unsourced distributed bounded below occupied
      ((receives_of_periodic periodic _ dim dir).mpr positive)
      (by simpa using unsourced) reached finished

/-- Three processes in a row. -/
def rowOfThree : GridSpaceMPI where
  numDims := 1
  globalSize := IntegerArray.mk3 6 0 0
  procSize := IntegerArray.mk3 3 0 0
  globalPos := by decide
  procPos := by decide

/-- A halo of width one for forward accesses, with wrap-around. -/
def forwardHalo : HaloExchange where
  width dir _ := match dir with
    | .fw => 1
    | .bw => 0
  diagonal := false
  periodic := true

/-- A grid of six cells occupies the row, and its exchange wraps around. -/
theorem rowOfThree_wrapsAround :
    WrapsAround forwardHalo rowOfThree (IntegerArray.mk3 6 0 0) (fun _ => 0)
      (rowOfThree.distribute 8 (IntegerArray.mk3 6 0 0) false (fun _ => 0)
        fun rank _ position => 10 * (rank : Int) + position) := by
  have distributed := rowOfThree.distribute_distributed 8
    (IntegerArray.mk3 6 0 0) false (fun _ => 0)
    (fun rank _ position => 10 * (rank : Int) + position) (by decide)
  have occupied : ∀ rank < rowOfThree.numProcs,
      (rowOfThree.distribute 8 (IntegerArray.mk3 6 0 0) false (fun _ => 0)
        (fun rank _ position => 10 * (rank : Int) + position) rank).empty =
          false := by
    decide
  have extents : ∀ rank < rowOfThree.numProcs, ∀ dim < rowOfThree.numDims,
      (1 : Int) ≤ (rowOfThree.distribute 8 (IntegerArray.mk3 6 0 0) false (fun _ => 0)
        (fun rank _ position => 10 * (rank : Int) + position) rank).localSize dim := by
    decide
  refine (wrapsAround_of_ringsOccupied distributed (by decide) rfl).1
    (fun rank _ _ _ below dir _ => occupied _ (rowOfThree.neighbor_lt rank below dir)) ?_
  intro rank bounded _ dim below dir
  have extent := extents rank bounded dim below
  cases dir with
  | fw => exact extent
  | bw => exact (Int.zero_le_ofNat 1).trans extent

/--
A grid of four cells leaves the last process of the row empty, and the second
process waits for it for ever.
-/
theorem rowOfThree_four_cells_not_wrapsAround :
    ¬WrapsAround forwardHalo rowOfThree (IntegerArray.mk3 4 0 0) (fun _ => 0)
      (rowOfThree.distribute 8 (IntegerArray.mk3 4 0 0) false (fun _ => 0)
        fun rank _ position => 10 * (rank : Int) + position) := by
  have distributed := rowOfThree.distribute_distributed 8
    (IntegerArray.mk3 4 0 0) false (fun _ => 0)
    (fun rank _ position => 10 * (rank : Int) + position) (by decide)
  intro wraps
  obtain ⟨final, reached, finished⟩ := wraps.terminates.reaches_final
  exact not_finished_of_unsourced distributed
    (show 1 < rowOfThree.numProcs by decide) (show 0 < rowOfThree.numDims by decide)
    (by decide) (show forwardHalo.receives _ 0 .fw = true by decide) (by decide)
    reached finished

end HaloExchange

end Physis.Runtime
