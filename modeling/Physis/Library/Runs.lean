import Mathlib.Logic.Relation
import Mathlib.Order.WellFounded
import Mathlib.Data.List.Basic

/-!
# Runs of a transition system

A system is a step relation on a type of states.  This module supplies the
induction rule for invariants, and the rule that turns progress and a measure
that every step decreases into termination.
-/

namespace Physis.Library.Runs

variable {State : Type} {Step : State → State → Prop}

/-- The second state is reached from the first by finitely many steps. -/
abbrev Reaches (Step : State → State → Prop) : State → State → Prop :=
  Relation.ReflTransGen Step

/-- An invariant of every step holds in every reachable state. -/
theorem Reaches.invariant
    {Inv : State → Prop} {initial state : State}
    (reached : Reaches Step initial state)
    (holds : Inv initial)
    (preserved : ∀ before after, Inv before → Step before after → Inv after) :
    Inv state := by
  induction reached with
  | refl => exact holds
  | tail _ step induction => exact preserved _ _ induction step

/--
Every run ends, and it ends in a final state: no reachable state is stuck
before, and there is no infinite run.
-/
structure Terminates
    (Step : State → State → Prop) (Final : State → Prop)
    (initial : State) : Prop where
  progress : ∀ state, Reaches Step initial state →
    Final state ∨ ∃ next, Step state next
  finite : Acc (fun after before => Step before after) initial

/-- Progress and a measure that decreases give termination. -/
theorem terminates_of_measure
    {Inv Final : State → Prop} {initial : State}
    (measure : State → Nat)
    (holds : Inv initial)
    (preserved : ∀ before after, Inv before → Step before after → Inv after)
    (decreases : ∀ before after, Inv before → Step before after →
      measure after < measure before)
    (progress : ∀ state, Inv state → Final state ∨ ∃ next, Step state next) :
    Terminates Step Final initial := by
  constructor
  · intro state reached
    exact progress state (reached.invariant holds preserved)
  · have bounded : ∀ (bound : Nat) (state : State),
        measure state ≤ bound → Inv state →
          Acc (fun after before => Step before after) state := by
      intro bound
      induction bound with
      | zero =>
          intro state small inv
          constructor
          intro next step
          have less := decreases state next inv step
          omega
      | succ bound induction =>
          intro state small inv
          constructor
          intro next step
          have less := decreases state next inv step
          exact induction next (by omega) (preserved state next inv step)
    exact bounded (measure initial) initial le_rfl holds

/-- A state terminates if it can go on, and every next state terminates. -/
theorem terminates_of_next
    {Final : State → Prop} {initial : State}
    (progress : Final initial ∨ ∃ next, Step initial next)
    (rest : ∀ next, Step initial next → Terminates Step Final next) :
    Terminates Step Final initial := by
  constructor
  · intro state reached
    rcases reached.cases_head with rfl | ⟨next, step, later⟩
    · exact progress
    · exact (rest next step).progress state later
  · exact ⟨_, fun next step => (rest next step).finite⟩

/-- What is reached from a terminating state terminates. -/
theorem Terminates.of_reaches
    {Final : State → Prop} {initial state : State}
    (terminates : Terminates Step Final initial)
    (reached : Reaches Step initial state) :
    Terminates Step Final state := by
  refine ⟨fun later rest => terminates.progress later (reached.trans rest), ?_⟩
  induction reached with
  | refl => exact terminates.finite
  | tail _ step induction => exact induction.inv step

/-- A terminating system has a run to a final state. -/
theorem Terminates.reaches_final
    {Final : State → Prop} {initial : State}
    (terminates : Terminates Step Final initial) :
    ∃ final, Reaches Step initial final ∧ Final final := by
  obtain ⟨progress, finite⟩ := terminates
  induction finite with
  | intro state _ induction =>
      rcases progress state .refl with final | ⟨next, step⟩
      · exact ⟨state, .refl, final⟩
      · obtain ⟨final, reached, isFinal⟩ :=
          induction next step fun other reachedOther =>
            progress other (.head step reachedOther)
        exact ⟨final, .head step reached, isFinal⟩

end Physis.Library.Runs
