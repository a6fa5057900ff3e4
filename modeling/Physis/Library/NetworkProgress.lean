import Mathlib
import Physis.Library.Networks

/-!
# Progress of networks

A process is weighed by what it may still do, and a message by what its receipt
makes a process do.  If every effect of a process weighs less than the process,
then every step of a network makes the network lighter.  A process that cannot go
on has stopped, or it waits for a message that nobody has sent.
-/

namespace Physis.Library.NetworkProgress

open Physis.Library.Channels
open Physis.Library.Networks

variable {Process Message : Type}

/-- What a process does weighs less than the process, with what it sends or receives. -/
def Lighter
    (ofProcess : Process → Nat) (ofMessage : Message → Nat) (process : Process) :
    Effect Process Message → Prop
  | .stop => True
  | .silent next => ofProcess next < ofProcess process
  | .send _ message next => ofProcess next + ofMessage message < ofProcess process
  | .receive _ next =>
      ∀ message, ofProcess (next message) < ofProcess process + ofMessage message

/-- The messages between some processes, weighed. -/
def queued
    (count : Nat) (ofMessage : Message → Nat) (queue : Nat → Nat → List Message) : Nat :=
  ∑ source ∈ Finset.range count, ∑ target ∈ Finset.range count,
    ((queue source target).map ofMessage).sum

/-- A network of this many processes, weighed. -/
def weight
    (count : Nat) (ofProcess : Nat → Process → Nat) (ofMessage : Message → Nat)
    (network : Network Process Message) : Nat :=
  ∑ rank ∈ Finset.range count, ofProcess rank (network.process rank) +
    queued count ofMessage network.queue

section Queues

variable
    {count source target : Nat} (ofMessage : Message → Nat)
    (queue : Nat → Nat → List Message)

/-- A queue that changes changes the weight of the queues by as much. -/
theorem queued_assign
    (sourceInside : source < count) (targetInside : target < count)
    (messages : List Message) :
    queued count ofMessage (assign queue source target messages) +
        ((queue source target).map ofMessage).sum =
      queued count ofMessage queue + (messages.map ofMessage).sum := by
  have sourceMember := Finset.mem_range.mpr sourceInside
  have targetMember := Finset.mem_range.mpr targetInside
  rw [queued, queued, ← Finset.sum_erase_add _ _ sourceMember,
    ← Finset.sum_erase_add _ (fun source => ∑ target ∈ Finset.range count,
      ((queue source target).map ofMessage).sum) sourceMember,
    ← Finset.sum_erase_add _ _ targetMember,
    ← Finset.sum_erase_add _ (fun target =>
      ((queue source target).map ofMessage).sum) targetMember]
  have others : ∑ other ∈ (Finset.range count).erase source,
        ∑ target' ∈ Finset.range count,
          ((assign queue source target messages other target').map ofMessage).sum =
      ∑ other ∈ (Finset.range count).erase source,
        ∑ target' ∈ Finset.range count, ((queue other target').map ofMessage).sum := by
    refine Finset.sum_congr rfl fun other member => Finset.sum_congr rfl fun target' _ => ?_
    rw [assign_apply, if_neg fun same => Finset.ne_of_mem_erase member same.1]
  have sameSource : ∑ target' ∈ (Finset.range count).erase target,
        ((assign queue source target messages source target').map ofMessage).sum =
      ∑ target' ∈ (Finset.range count).erase target,
        ((queue source target').map ofMessage).sum := by
    refine Finset.sum_congr rfl fun target' member => ?_
    rw [assign_apply, if_neg fun same => Finset.ne_of_mem_erase member same.2]
  rw [others, sameSource, assign_apply, if_pos ⟨rfl, rfl⟩]
  omega

/-- Messages to a process outside are not weighed. -/
theorem queued_assign_outside
    (outside : count ≤ target) (messages : List Message) :
    queued count ofMessage (assign queue source target messages) =
      queued count ofMessage queue := by
  refine Finset.sum_congr rfl fun other _ => Finset.sum_congr rfl fun target' member => ?_
  have inside := Finset.mem_range.mp member
  rw [assign_apply, if_neg fun same => by omega]

theorem queued_push_le
    (sourceInside : source < count) (target : Nat) (message : Message) :
    queued count ofMessage (push queue source target message) ≤
      queued count ofMessage queue + ofMessage message := by
  rw [show push queue source target message =
    assign queue source target (queue source target ++ [message]) from rfl]
  rcases Nat.lt_or_ge target count with inside | outside
  · have changed := queued_assign ofMessage queue sourceInside inside
      (queue source target ++ [message])
    simp only [List.map_append, List.map_cons, List.map_nil, List.sum_append,
      List.sum_cons, List.sum_nil] at changed
    omega
  · rw [queued_assign_outside ofMessage queue outside]
    omega

end Queues

/-- The processes change their weight by the change of the one that goes on. -/
theorem processes_advance
    {count rank : Nat} (bounded : rank < count) (ofProcess : Nat → Process → Nat)
    (network : Network Process Message) (next : Process) :
    ∑ other ∈ Finset.range count,
        ofProcess other ((network.advance rank next).process other) +
          ofProcess rank (network.process rank) =
      ∑ other ∈ Finset.range count, ofProcess other (network.process other) +
        ofProcess rank next := by
  have member := Finset.mem_range.mpr bounded
  rw [← Finset.sum_erase_add _ _ member,
    ← Finset.sum_erase_add _ (fun other => ofProcess other (network.process other)) member]
  have others : ∑ other ∈ (Finset.range count).erase rank,
        ofProcess other ((network.advance rank next).process other) =
      ∑ other ∈ (Finset.range count).erase rank, ofProcess other (network.process other) :=
    Finset.sum_congr rfl fun other isOther => by
      rw [Network.advance_process, if_neg (Finset.ne_of_mem_erase isOther)]
  rw [others, Network.advance_process, if_pos rfl]
  omega

/-- A step of a process whose effect is lighter makes the network lighter. -/
theorem weight_step
    {behaviour : Nat → Process → Effect Process Message} {count rank : Nat}
    {ofProcess : Nat → Process → Nat} {ofMessage : Message → Nat}
    {network after : Network Process Message}
    (bounded : rank < count)
    (quiet : ∀ source, count ≤ source → network.queue source rank = [])
    (lighter : Lighter (ofProcess rank) ofMessage (network.process rank)
      (behaviour rank (network.process rank)))
    (step : Network.Step behaviour rank network after) :
    weight count ofProcess ofMessage after < weight count ofProcess ofMessage network := by
  cases step with
  | silent next does =>
      rw [does] at lighter
      have changed := processes_advance bounded ofProcess network next
      have less : ofProcess rank next < ofProcess rank (network.process rank) := lighter
      simp only [weight, Network.advance] at changed ⊢
      omega
  | send target message next does =>
      rw [does] at lighter
      have changed := processes_advance bounded ofProcess
        (network.send rank target message) next
      have most := queued_push_le ofMessage network.queue bounded target message
      have less : ofProcess rank next + ofMessage message <
        ofProcess rank (network.process rank) := lighter
      simp only [weight, Network.advance, Network.send] at changed ⊢
      omega
  | receive wanted source message rest next does matches_ first =>
      rw [does] at lighter
      have inside : source < count := by
        by_contra outside
        rw [quiet source (by omega)] at first
        cases first
      have changed := processes_advance bounded ofProcess
        (network.receive source rank rest) (next message)
      have fewer := queued_assign ofMessage network.queue inside bounded rest
      rw [first, List.map_cons, List.sum_cons] at fewer
      have less : ofProcess rank (next message) <
        ofProcess rank (network.process rank) + ofMessage message := lighter message
      simp only [weight, Network.advance, Network.receive] at changed ⊢
      omega

/-- A process without a step has stopped or waits for an empty queue. -/
theorem waits_of_stuck
    {behaviour : Nat → Process → Effect Process Message} {rank : Nat}
    {network : Network Process Message}
    (stuck : ∀ after, ¬Network.Step behaviour rank network after) :
    behaviour rank (network.process rank) = .stop ∨
      ∃ wanted next, behaviour rank (network.process rank) = .receive wanted next ∧
        ∀ source, (wanted = none ∨ wanted = some source) → network.queue source rank = [] := by
  cases does : behaviour rank (network.process rank) with
  | stop => exact .inl rfl
  | silent next => exact absurd (.silent next does) (stuck _)
  | send target message next => exact absurd (.send target message next does) (stuck _)
  | receive wanted next =>
      refine .inr ⟨wanted, next, rfl, fun source matches_ => ?_⟩
      cases first : network.queue source rank with
      | nil => rfl
      | cons message rest =>
          exact absurd (.receive wanted source message rest next does matches_ first) (stuck _)

end Physis.Library.NetworkProgress
