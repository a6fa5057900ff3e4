import Physis.Runtime.ExchangeFrame
import Physis.Runtime.LoadNeighbor

/-!
# Entering an exchange

The processes come to an exchange at different times, and one may be through with
it before another has come to it.  What the ones inside do does not depend on the
grids of the others.  So a state of the exchange is one of an exchange that starts
with the grids the others will have, and a process that is through has what it
has when all are.
-/

namespace Physis.Runtime

open Physis.Library
open Physis.Library.RowMajor
open Physis.Library.Runs

variable {α : Type}

namespace HaloExchange

variable
    {exchange : HaloExchange} {space : GridSpaceMPI} {entered : Nat → Bool} {rank : Nat}
    {grids : Nat → GridMPI α} {state after : ExchangeState α}

/-! ## Processes that have not entered -/

/-- A process enters with its part of the grid. -/
def enter (state : ExchangeState α) (rank : Nat) (part : GridMPI α) : ExchangeState α :=
  state.advance rank ((start fun _ => part).process rank)

/-- The processes that have not entered are where they will be when they do. -/
def placed (entered : Nat → Bool) (grids : Nat → GridMPI α) (state : ExchangeState α) :
    ExchangeState α :=
  { state with
    process := fun rank =>
      if entered rank then state.process rank else (start grids).process rank }

theorem placed_process (inside : entered rank = true) :
    (placed entered grids state).process rank = state.process rank :=
  if_pos inside

/-- Before any process has entered. -/
theorem placed_start (outside : ∀ rank, entered rank = false) (others : Nat → GridMPI α) :
    placed entered grids (start others) = start grids := by
  simp only [placed, start, outside, Bool.false_eq_true, if_false]

theorem placed_advance (inside : entered rank = true) (process : ExchangeProcess α) :
    placed entered grids (state.advance rank process) =
      (placed entered grids state).advance rank process := by
  simp only [placed, ExchangeState.advance, ExchangeState.mk.injEq, and_true]
  funext other
  by_cases same : other = rank
  · subst same
    simp [inside]
  · simp [Function.update_of_ne same]

/-- Entering is only noticed by the process itself. -/
theorem placed_enter (outside : entered rank = false) :
    placed (Function.update entered rank true) grids (enter state rank (grids rank)) =
      placed entered grids state := by
  simp only [placed, enter, ExchangeState.advance, ExchangeState.mk.injEq, and_true]
  funext other
  by_cases same : other = rank
  · subst same
    simp [outside, start]
  · simp [Function.update_of_ne same]

/-- The steps of a process that has entered do not depend on the grids of the others. -/
theorem step_placed (inside : entered rank = true) :
    exchange.step space rank (placed entered grids state) =
      (exchange.step space rank state).map (placed entered grids) := by
  have same : (placed entered grids state).process rank = state.process rank :=
    placed_process inside
  have advances : ∀ (network : ExchangeState α) (process : ExchangeProcess α),
      placed entered grids (network.advance rank process) =
        (placed entered grids network).advance rank process :=
    fun network process => @placed_advance _ _ _ _ network inside process
  simp only [HaloExchange.step, same]
  split
  · rfl
  · split
    · exact congrArg some (advances (state.post _ _ _) _).symm
    · exact congrArg some (advances _ _).symm
  · split
    · rw [Option.map_map]
      congr 1
      funext grid
      exact (advances (state.transmit _ _ _) _).symm
    · exact congrArg some (advances _ _).symm
  · split
    · exact congrArg some (advances _ _).symm
    · simp only [placed]
      split
      · rfl
      · split
        · exact congrArg some (advances _ _).symm
        · rfl

/-! ## Processes that are through -/

/-- A process that is through does nothing more. -/
theorem process_of_done
    (done : (state.process rank).todo = []) (reached : Reaches (exchange.Step space) state after) :
    after.process rank = state.process rank := by
  induction reached with
  | refl => rfl
  | @tail before next _ step induction =>
      obtain ⟨actor, -, performed⟩ := step
      have performs := exchange.performs_of_step space performed
      by_cases same : rank = actor
      · subst same
        rw [HaloExchange.step, induction, done] at performed
        cases performed
      · rw [(performs.others.1 rank same).1, induction]

section Neighborhood

variable
    {elmSize : Nat} {size : IndexArray} {offsetMin offsetMax : IndexArray}
    {diagonal periodic : Bool}

/-- A process that is through can read the owners' values around its subgrid. -/
theorem resident_of_done
    (distributed : Distributed space elmSize size (fun _ => 0) grids)
    (dims : space.numDims ≤ psMaxDim)
    (sourced : Sourced (neighborExchange offsetMin offsetMax diagonal periodic) space grids)
    (slabs : SlabsInside (neighborExchange offsetMin offsetMax diagonal periodic) space grids)
    (reached : Reaches ((neighborExchange offsetMin offsetMax diagonal periodic).Step space)
      (start grids) state)
    (bounded : rank < space.numProcs) (done : (state.process rank).todo = [])
    (occupied : (grids rank).empty = false) {index offset : IndexArray}
    (member : InBox space.numDims (grids rank).localSize index)
    (stencil : StencilOffset space.numDims offsetMin offsetMax diagonal offset)
    (inside : InBox space.numDims size
      ((neighborExchange offsetMin offsetMax diagonal periodic).globalIndex (grids rank)
        fun i => index i + offset i)) :
    ∃ value,
      (state.process rank).grid.Resident diagonal (fun i => index i + offset i) value ∧
        Distributed.HoldsAt space size (fun _ => 0) grids
          ((neighborExchange offsetMin offsetMax diagonal periodic).globalIndex (grids rank)
            fun i => index i + offset i) value := by
  obtain ⟨final, later, finished⟩ :=
    ((terminates distributed dims sourced).of_reaches reached).reaches_final
  have around := readsAround_of_finished distributed dims sourced slabs (reached.trans later)
    finished rank bounded occupied index member offset stencil inside
  rwa [process_of_done done later] at around

end Neighborhood

end HaloExchange

end Physis.Runtime
