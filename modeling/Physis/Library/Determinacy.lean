import Physis.Library.Networks
import Physis.Library.Runs

/-!
# Networks in which every receive names its source

When no process takes the next message of any source, steps of different
processes commute: a system of such processes has one result, whatever the order
of steps, and a single run to the end shows that every run gets there.
-/

namespace Physis.Library.Determinacy

open Physis.Library.Channels
open Physis.Library.Networks
open Physis.Library.Runs

/-! ## Diamonds -/

section Diamond

variable {State : Type} {Step : State → State → Prop}

/-- Two different steps from one state meet again after one more step each. -/
def Diamond (Step : State → State → Prop) : Prop :=
  ∀ state left right, Step state left → Step state right →
    left = right ∨ ∃ next, Step left next ∧ Step right next

/-- Before a state without infinite runs there are none either. -/
theorem Diamond.acc_before
    (diamond : Diamond Step) {state : State}
    (finite : Acc (fun after before => Step before after) state)
    {before : State} (step : Step before state) :
    Acc (fun after before => Step before after) before := by
  induction finite generalizing before with
  | intro state accessible induction =>
      constructor
      intro other stepOther
      rcases diamond before state other step stepOther with same | ⟨next, first, second⟩
      · rw [← same]
        exact ⟨_, accessible⟩
      · exact induction next first second

/-- A state without steps, once reached, is reached from everywhere. -/
theorem Diamond.reaches_final
    (diamond : Diamond Step) {initial final state : State}
    (reached : Reaches Step initial final) (stuck : ∀ next, ¬Step final next)
    (reachedState : Reaches Step initial state) :
    Reaches Step state final := by
  have joined := Relation.church_rosser (fun _ left right first second => by
    rcases diamond _ left right first second with rfl | ⟨next, fromLeft, fromRight⟩
    · exact ⟨left, .refl, .refl⟩
    · exact ⟨next, .single fromLeft, .single fromRight⟩) reached reachedState
  obtain ⟨meeting, fromFinal, fromState⟩ := joined
  rcases Relation.ReflTransGen.cases_head fromFinal with same | ⟨next, step, _⟩
  · rw [same]
    exact fromState
  · exact absurd step (stuck next)

/-- One run to a state without steps shows that every run ends there. -/
theorem Diamond.terminates
    (diamond : Diamond Step) {initial final : State}
    (reached : Reaches Step initial final) (stuck : ∀ next, ¬Step final next) :
    Terminates Step (fun state => state = final) initial := by
  constructor
  · intro state reachedState
    have remaining := diamond.reaches_final reached stuck reachedState
    rcases Relation.ReflTransGen.cases_head remaining with is | ⟨next, step, _⟩
    · exact Or.inl is
    · exact Or.inr ⟨next, step⟩
  · induction reached using Relation.ReflTransGen.head_induction_on with
    | refl => exact ⟨_, fun next step => absurd step (stuck next)⟩
    | head step _ induction => exact diamond.acc_before induction step

/-- A state without steps that is reached is the state every run ends in. -/
theorem Diamond.eq_final
    (diamond : Diamond Step) {initial final state : State}
    (reached : Reaches Step initial final) (stuck : ∀ next, ¬Step final next)
    (reachedState : Reaches Step initial state)
    (stuckState : ∀ next, ¬Step state next) :
    state = final := by
  rcases (diamond.terminates reached stuck).progress state reachedState with
    same | ⟨next, step⟩
  · exact same
  · exact absurd step (stuckState next)

end Diamond

/-! ## Steps of different processes commute -/

variable {Process Message : Type}

/-- Every receive names its source. -/
def Named (behaviour : Nat → Process → Effect Process Message) : Prop :=
  ∀ rank process next, behaviour rank process ≠ .receive none next

/-- A step of one of the first processes. -/
def SystemStep
    (behaviour : Nat → Process → Effect Process Message) (count : Nat)
    (before after : Network Process Message) : Prop :=
  ∃ rank < count, Network.Step behaviour rank before after

section Commute

variable
    {behaviour : Nat → Process → Effect Process Message}
    {network left right : Network Process Message} {rank other : Nat}

theorem step_deterministic
    (named : Named behaviour)
    (first : Network.Step behaviour rank network left)
    (second : Network.Step behaviour rank network right) :
    left = right := by
  cases first with
  | silent next does => exact (second.of_silent does).symm
  | send target message next does => exact (second.of_send does).symm
  | receive wanted source message rest next does fits head =>
      obtain ⟨otherSource, otherMessage, otherRest, otherFits, otherHead, is⟩ :=
        second.of_receive does
      rcases fits with rfl | rfl
      · exact absurd does (named _ _ _)
      · have same : source = otherSource := by
          rcases otherFits with impossible | same
          · cases impossible
          · exact Option.some.inj same
        subst otherSource
        rw [head] at otherHead
        cases otherHead
        exact is.symm

end Commute

/-- What a step changes, with the source of the message for a receive. -/
inductive Move (Process Message : Type) where
  | silent (process : Process)
  | send (target : Nat) (message : Message) (process : Process)
  | receive (source : Nat) (process : Process)

namespace Move

/-- The next state of the process that moves. -/
def process : Move Process Message → Process
  | silent process | send _ _ process | receive _ process => process

/-- The network after a move of one process. -/
def apply (move : Move Process Message) (rank : Nat)
    (network : Network Process Message) : Network Process Message where
  process := Function.update network.process rank move.process
  sent := match move with
    | send target message _ => push network.sent rank target message
    | _ => network.sent
  queue := match move with
    | silent _ => network.queue
    | send target message _ => push network.queue rank target message
    | receive source _ =>
        assign network.queue source rank (network.queue source rank).tail

/-- The process is about to make the move, and the message it needs is there. -/
def Enabled
    (behaviour : Nat → Process → Effect Process Message)
    (move : Move Process Message) (rank : Nat)
    (network : Network Process Message) : Prop :=
  match move with
  | silent next => behaviour rank (network.process rank) = .silent next
  | send target message next =>
      behaviour rank (network.process rank) = .send target message next
  | receive source next =>
      ∃ wanted continuation message,
        behaviour rank (network.process rank) = .receive wanted continuation ∧
          (wanted = none ∨ wanted = some source) ∧
          (network.queue source rank).head? = some message ∧
          continuation message = next

end Move

section Moves

variable
    {behaviour : Nat → Process → Effect Process Message}
    {network after : Network Process Message} {rank other : Nat}

/-- A step is an enabled move. -/
theorem step_iff_move :
    Network.Step behaviour rank network after ↔
      ∃ move : Move Process Message,
        move.Enabled behaviour rank network ∧ move.apply rank network = after := by
  constructor
  · intro step
    cases step with
    | silent next does => exact ⟨.silent next, does, rfl⟩
    | send target message next does => exact ⟨.send target message next, does, rfl⟩
    | receive wanted source message rest next does fits first =>
        refine ⟨.receive source (next message),
          ⟨wanted, next, message, does, fits, ?_, rfl⟩, ?_⟩
        · rw [first, List.head?_cons]
        · simp only [Move.apply, first, List.tail_cons]
          rfl
  · rintro ⟨move, enabled, rfl⟩
    cases move with
    | silent next => exact .silent next enabled
    | send target message next => exact .send target message next enabled
    | receive source next =>
        obtain ⟨wanted, continuation, message, does, fits, head, rfl⟩ := enabled
        have first : network.queue source rank =
            message :: (network.queue source rank).tail :=
          (List.cons_head?_tail head).symm
        exact .receive wanted source message _ continuation does fits first

/-- A move of another process does not take a move away. -/
theorem enabled_apply
    {move otherMove : Move Process Message} (different : rank ≠ other)
    (enabled : move.Enabled behaviour rank network) :
    move.Enabled behaviour rank (otherMove.apply other network) := by
  have process : (otherMove.apply other network).process rank =
      network.process rank := Function.update_of_ne different _ _
  cases move with
  | silent next => exact (congrArg (behaviour rank) process).trans enabled
  | send target message next =>
      exact (congrArg (behaviour rank) process).trans enabled
  | receive source next =>
      obtain ⟨wanted, continuation, message, does, fits, head, is⟩ := enabled
      refine ⟨wanted, continuation, message,
        (congrArg (behaviour rank) process).trans does, fits, ?_, is⟩
      cases otherMove with
      | silent _ => exact head
      | send target sent _ =>
          simp only [Move.apply, push_apply]
          split
          · rename_i same
            rw [← same.1, ← same.2, List.head?_append, head, Option.some_or]
          · exact head
      | receive otherSource _ =>
          simp only [Move.apply, assign_apply]
          rw [if_neg fun same => different same.2]
          exact head

/-- Moves of different processes commute. -/
theorem apply_comm
    {move otherMove : Move Process Message} (different : rank ≠ other)
    (enabled : move.Enabled behaviour rank network)
    (otherEnabled : otherMove.Enabled behaviour other network) :
    move.apply rank (otherMove.apply other network) =
      otherMove.apply other (move.apply rank network) := by
  have process : (move.apply rank (otherMove.apply other network)).process =
      (otherMove.apply other (move.apply rank network)).process :=
    Function.update_comm (Ne.symm different) _ _ _
  have sent : (move.apply rank (otherMove.apply other network)).sent =
      (otherMove.apply other (move.apply rank network)).sent := by
    funext source receiver
    cases move <;> cases otherMove <;> simp only [Move.apply, push_apply]
    grind
  have queue : (move.apply rank (otherMove.apply other network)).queue =
      (otherMove.apply other (move.apply rank network)).queue := by
    funext source receiver
    cases move <;> cases otherMove <;>
      simp only [Move.apply, push_apply, assign_apply, Move.Enabled] at * <;> grind
  exact Network.mk.injEq .. |>.mpr ⟨process, sent, queue⟩

/-- Steps of different processes commute. -/
theorem step_comm
    {left right : Network Process Message} (different : rank ≠ other)
    (first : Network.Step behaviour rank network left)
    (second : Network.Step behaviour other network right) :
    ∃ next, Network.Step behaviour other left next ∧
      Network.Step behaviour rank right next := by
  obtain ⟨move, enabled, rfl⟩ := step_iff_move.mp first
  obtain ⟨otherMove, otherEnabled, rfl⟩ := step_iff_move.mp second
  refine ⟨otherMove.apply other (move.apply rank network), ?_, ?_⟩
  · exact step_iff_move.mpr
      ⟨otherMove, enabled_apply different.symm otherEnabled, rfl⟩
  · exact step_iff_move.mpr ⟨move, enabled_apply different enabled,
      apply_comm different enabled otherEnabled⟩

/-- A system in which every receive names its source has the diamond property. -/
theorem diamond_of_named
    (named : Named behaviour) (count : Nat) :
    Diamond (SystemStep behaviour count) := by
  rintro network left right ⟨rank, bounded, first⟩ ⟨other, otherBounded, second⟩
  by_cases same : rank = other
  · subst other
    exact Or.inl (step_deterministic named first second)
  · obtain ⟨next, fromLeft, fromRight⟩ := step_comm same first second
    exact Or.inr ⟨next, ⟨other, otherBounded, fromLeft⟩, rank, bounded, fromRight⟩

end Moves

end Physis.Library.Determinacy
