import Physis.Library.Determinacy

/-!
# Two processes of a network

While two processes talk to each other, the others and the queues between them
stay as they are.  The rules below follow such a conversation step by step.
-/

namespace Physis.Library.Conversations

open Physis.Library.Channels
open Physis.Library.Networks
open Physis.Library.Determinacy
open Physis.Library.Runs

variable {Process Message : Type}

/-- A network that differs from a base in two processes and their two queues. -/
structure Conversation
    (base : Network Process Message) (one two : Nat)
    (network : Network Process Message) (first second : Process)
    (forth back : List Message) : Prop where
  first : network.process one = first
  second : network.process two = second
  forth : network.queue one two = forth
  back : network.queue two one = back
  others : ∀ rank, rank ≠ one → rank ≠ two →
    network.process rank = base.process rank
  queues : ∀ source target, ¬(source = one ∧ target = two) →
    ¬(source = two ∧ target = one) →
      network.queue source target = base.queue source target

variable
    {base network : Network Process Message} {one two count : Nat}
    {first second : Process} {forth back : List Message}
    {behaviour : Nat → Process → Effect Process Message}

theorem Conversation.symm
    (talks : Conversation base one two network first second forth back) :
    Conversation base two one network second first back forth where
  first := talks.second
  second := talks.first
  forth := talks.back
  back := talks.forth
  others rank different other := talks.others rank other different
  queues source target different other := talks.queues source target other different

theorem Conversation.start (network : Network Process Message) (one two : Nat) :
    Conversation network one two network (network.process one)
      (network.process two) (network.queue one two) (network.queue two one) where
  first := rfl
  second := rfl
  forth := rfl
  back := rfl
  others _ _ _ := rfl
  queues _ _ _ _ := rfl

/-- One process sends to the other. -/
theorem Conversation.sends
    (talks : Conversation base one two network first second forth back)
    (different : one ≠ two) (bounded : one < count)
    {message : Message} {next : Process}
    (does : behaviour one first = .send two message next) :
    ∃ after, SystemStep behaviour count network after ∧
      Conversation base one two after next second (forth ++ [message]) back := by
  refine ⟨(network.send one two message).advance one next,
    ⟨one, bounded, .send two message next (by rw [talks.first]; exact does)⟩, ?_⟩
  constructor
  · exact Function.update_self _ _ _
  · exact (Function.update_of_ne different.symm _ _).trans talks.second
  · simp only [Network.advance, Network.send, push_apply]
    rw [if_pos ⟨trivial, trivial⟩, talks.forth]
  · simp only [Network.advance, Network.send, push_apply]
    rw [if_neg fun same => different same.2, talks.back]
  · intro rank notOne notTwo
    exact (Function.update_of_ne notOne _ _).trans (talks.others rank notOne notTwo)
  · intro source target notForth notBack
    simp only [Network.advance, Network.send, push_apply]
    rw [if_neg notForth]
    exact talks.queues source target notForth notBack

/-- One process takes the next message of the other. -/
theorem Conversation.receives
    {message : Message}
    (talks : Conversation base one two network first second forth (message :: back))
    (different : one ≠ two) (bounded : one < count)
    {next : Message → Process}
    (does : behaviour one first = .receive (some two) next) :
    ∃ after, SystemStep behaviour count network after ∧
      Conversation base one two after (next message) second forth back := by
  refine ⟨(network.receive two one back).advance one (next message),
    ⟨one, bounded, .receive (some two) two message back next
      (by rw [talks.first]; exact does) (Or.inr rfl) talks.back⟩, ?_⟩
  constructor
  · exact Function.update_self _ _ _
  · exact (Function.update_of_ne different.symm _ _).trans talks.second
  · simp only [Network.advance, Network.receive, assign_apply]
    rw [if_neg fun same => different same.1, talks.forth]
  · simp only [Network.advance, Network.receive, assign_apply]
    rw [if_pos ⟨trivial, trivial⟩]
  · intro rank notOne notTwo
    exact (Function.update_of_ne notOne _ _).trans (talks.others rank notOne notTwo)
  · intro source target notForth notBack
    simp only [Network.advance, Network.receive, assign_apply]
    rw [if_neg notBack]
    exact talks.queues source target notForth notBack

/-- When both queues are empty again, no queue differs from the base. -/
theorem Conversation.queue_eq
    (talks : Conversation base one two network first second [] [])
    (forth : base.queue one two = []) (back : base.queue two one = []) :
    network.queue = base.queue := by
  funext source target
  by_cases isForth : source = one ∧ target = two
  · rw [isForth.1, isForth.2, talks.forth, forth]
  · by_cases isBack : source = two ∧ target = one
    · rw [isBack.1, isBack.2, talks.back, back]
    · exact talks.queues source target isForth isBack

end Physis.Library.Conversations
