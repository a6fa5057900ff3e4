import Mathlib.Order.Basic

/-!
# What is done before a process comes to a place

Processes go through scripts at paces of their own and hear from each other on
the way.  A step of one of them precedes a place in the script of another if the
other can only come to the place with the step done: because the step is its own
and earlier, or because it has heard by then from a process that could only say
so with the step done.
-/

namespace Physis.Library.Precedence

variable {Process : Type}

/--
A step of a process precedes a place of a process.  `hears listener place speaker
told` says that the listener only comes to the place when it has heard from the
speaker, which had come to the place `told` by then.
-/
inductive Precedes (hears : Process → Nat → Process → Nat → Prop) (process : Process)
    (step : Nat) : Process → Nat → Prop
  | own {place : Nat} (earlier : step < place) : Precedes hears process step process place
  | heard {listener speaker : Process} {place told : Nat}
      (message : hears listener place speaker told)
      (known : Precedes hears process step speaker told) :
      Precedes hears process step listener place

/-- Whoever has come to a place, the steps that precede it are done. -/
theorem Precedes.done
    {hears : Process → Nat → Process → Nat → Prop} {process listener : Process}
    {step place : Nat} (precedes : Precedes hears process step listener place)
    {Takes : Process → Prop} {clock : Process → Nat}
    (sound : ∀ listener place speaker told, hears listener place speaker told →
      Takes listener → place ≤ clock listener → Takes speaker ∧ told ≤ clock speaker)
    (takes : Takes listener) (reached : place ≤ clock listener) :
    Takes process ∧ step < clock process := by
  induction precedes with
  | own earlier => exact ⟨takes, Nat.lt_of_lt_of_le earlier reached⟩
  | heard message known induction =>
      obtain ⟨speaks, told⟩ := sound _ _ _ _ message takes reached
      exact induction speaks told

end Physis.Library.Precedence
