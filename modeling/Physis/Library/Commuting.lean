import Mathlib

/-!
# Steps that commute

A program is a list of steps that may fail.  A step that commutes with every
step of a program can be done first instead of last, as long as an invariant
under which it commutes is kept.
-/

namespace Physis.Library.Commuting

variable {State : Type}

/-- Run a list of steps; `none` as soon as one fails. -/
def run : List (State → Option State) → State → Option State
  | [], state => some state
  | step :: rest, state => (step state).bind (run rest)

theorem run_append
    (first second : List (State → Option State)) (state : State) :
    run (first ++ second) state = (run first state).bind (run second) := by
  induction first generalizing state with
  | nil => rfl
  | cons step rest induction =>
      rw [List.cons_append, run, run, Option.bind_assoc]
      congr 1
      funext next
      exact induction next

/-- The step keeps the invariant. -/
def Keeps (Inv : State → Prop) (step : State → Option State) : Prop :=
  ∀ state next, Inv state → step state = some next → Inv next

/-- The two steps may be done in either order. -/
def Commute (Inv : State → Prop) (left right : State → Option State) : Prop :=
  ∀ state, Inv state → (left state).bind right = (right state).bind left

/-- Two guarded updates commute if neither changes the guard of the other. -/
theorem Commute.of_guards
    {Inv : State → Prop} {left right : State → Option State}
    {leftGuard rightGuard : State → Prop}
    [DecidablePred leftGuard] [DecidablePred rightGuard]
    {leftUpdate rightUpdate : State → State}
    (leftEq : ∀ state, left state =
      if leftGuard state then some (leftUpdate state) else none)
    (rightEq : ∀ state, right state =
      if rightGuard state then some (rightUpdate state) else none)
    (leftKept : ∀ state, Inv state → (leftGuard (rightUpdate state) ↔ leftGuard state))
    (rightKept : ∀ state, Inv state → (rightGuard (leftUpdate state) ↔ rightGuard state))
    (swap : ∀ state, Inv state →
      rightUpdate (leftUpdate state) = leftUpdate (rightUpdate state)) :
    Commute Inv left right := by
  intro state inv
  rw [leftEq, rightEq]
  by_cases leftHolds : leftGuard state
  · by_cases rightHolds : rightGuard state
    · rw [if_pos leftHolds, if_pos rightHolds, Option.bind_some, Option.bind_some, leftEq,
        rightEq, if_pos ((leftKept state inv).mpr leftHolds),
        if_pos ((rightKept state inv).mpr rightHolds), swap state inv]
    · rw [if_pos leftHolds, if_neg rightHolds, Option.bind_some, rightEq,
        if_neg fun holds => rightHolds ((rightKept state inv).mp holds)]
      rfl
  · by_cases rightHolds : rightGuard state
    · rw [if_neg leftHolds, if_pos rightHolds, Option.bind_some, leftEq,
        if_neg fun holds => leftHolds ((leftKept state inv).mp holds)]
      rfl
    · rw [if_neg leftHolds, if_neg rightHolds]
      rfl

theorem Keeps.run
    {Inv : State → Prop} {steps : List (State → Option State)}
    (keeps : ∀ step ∈ steps, Keeps Inv step)
    {state next : State} (inv : Inv state) (runs : run steps state = some next) :
    Inv next := by
  induction steps generalizing state with
  | nil =>
      rw [Commuting.run, Option.some_inj] at runs
      exact runs ▸ inv
  | cons step rest induction =>
      rw [Commuting.run, Option.bind_eq_some_iff] at runs
      obtain ⟨middle, taken, later⟩ := runs
      exact induction (fun other member => keeps other (List.mem_cons_of_mem _ member))
        (keeps step List.mem_cons_self state middle inv taken) later

/-- A step that commutes with all others may be done first. -/
theorem run_concat
    {Inv : State → Prop} {steps : List (State → Option State)}
    {last : State → Option State}
    (keeps : ∀ step ∈ steps, Keeps Inv step)
    (commutes : ∀ step ∈ steps, Commute Inv step last)
    {state : State} (inv : Inv state) :
    run (steps ++ [last]) state = run (last :: steps) state := by
  induction steps generalizing state with
  | nil => rfl
  | cons step rest induction =>
      have swap := commutes step List.mem_cons_self state inv
      have later : ∀ next, step state = some next →
          run (rest ++ [last]) next = run (last :: rest) next := by
        intro next taken
        exact induction (fun other member => keeps other (List.mem_cons_of_mem _ member))
          (fun other member => commutes other (List.mem_cons_of_mem _ member))
          (keeps step List.mem_cons_self state next inv taken)
      calc run (step :: rest ++ [last]) state
          = (step state).bind (run (rest ++ [last])) := rfl
        _ = (step state).bind (run (last :: rest)) := by
            rcases taken : step state with _ | next
            · rfl
            · exact later next taken
        _ = ((step state).bind last).bind (run rest) := by
            rw [Option.bind_assoc]
            rfl
        _ = ((last state).bind step).bind (run rest) := by rw [swap]
        _ = run (last :: step :: rest) state := by
            rw [Option.bind_assoc]
            rfl

end Physis.Library.Commuting
