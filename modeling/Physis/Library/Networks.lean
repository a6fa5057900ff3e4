import Physis.Library.Channels

/-!
# Processes that exchange messages

A process does one thing after another: it computes, sends a message, or waits
for the next message of one source or of any source.  Messages of one source
to one target arrive in the order they were sent.
-/

namespace Physis.Library.Networks

open Physis.Library.Channels

/-- What a process does next. -/
inductive Effect (Process Message : Type) where
  | stop
  | silent (next : Process)
  | send (target : Nat) (message : Message) (next : Process)
  /-- `none` takes the next message of any source -/
  | receive (source : Option Nat) (next : Message → Process)

/-- Processes, what they have sent, and what of it has not been received yet. -/
structure Network (Process Message : Type) where
  process : Nat → Process
  /-- by source and target -/
  sent : Nat → Nat → List Message
  queue : Nat → Nat → List Message

variable {Process Message : Type}

namespace Network

/-- One process goes on. -/
def advance (network : Network Process Message) (rank : Nat) (process : Process) :
    Network Process Message :=
  { network with process := Function.update network.process rank process }

/-- A message is sent. -/
def send
    (network : Network Process Message) (source target : Nat) (message : Message) :
    Network Process Message :=
  { network with
    sent := push network.sent source target message
    queue := push network.queue source target message }

/-- The first message of a queue is received. -/
def receive
    (network : Network Process Message) (source target : Nat)
    (rest : List Message) : Network Process Message :=
  { network with queue := assign network.queue source target rest }

theorem advance_process
    (network : Network Process Message) (rank : Nat) (process : Process)
    (other : Nat) :
    (network.advance rank process).process other =
      if other = rank then process else network.process other :=
  Function.update_apply _ _ _ _

/-- The steps of a process, by what it does next. -/
inductive Step
    (behaviour : Nat → Process → Effect Process Message) (rank : Nat)
    (network : Network Process Message) : Network Process Message → Prop
  | silent (next : Process)
      (does : behaviour rank (network.process rank) = .silent next) :
      Step behaviour rank network (network.advance rank next)
  | send (target : Nat) (message : Message) (next : Process)
      (does : behaviour rank (network.process rank) = .send target message next) :
      Step behaviour rank network
        ((network.send rank target message).advance rank next)
  | receive (wanted : Option Nat) (source : Nat) (message : Message)
      (rest : List Message) (next : Message → Process)
      (does : behaviour rank (network.process rank) = .receive wanted next)
      (matches_ : wanted = none ∨ wanted = some source)
      (first : network.queue source rank = message :: rest) :
      Step behaviour rank network
        ((network.receive source rank rest).advance rank (next message))

section Inversion

variable
    {behaviour : Nat → Process → Effect Process Message} {rank : Nat}
    {network after : Network Process Message}

theorem Step.of_stop
    (step : Step behaviour rank network after)
    (does : behaviour rank (network.process rank) = .stop) :
    False := by
  cases step with
  | silent _ doesOther => simp [does] at doesOther
  | send _ _ _ doesOther => simp [does] at doesOther
  | receive _ _ _ _ _ doesOther => simp [does] at doesOther

theorem Step.of_silent
    {next : Process} (step : Step behaviour rank network after)
    (does : behaviour rank (network.process rank) = .silent next) :
    after = network.advance rank next := by
  cases step with
  | silent _ doesOther =>
      rw [does] at doesOther
      cases doesOther
      rfl
  | send _ _ _ doesOther => simp [does] at doesOther
  | receive _ _ _ _ _ doesOther => simp [does] at doesOther

theorem Step.of_send
    {target : Nat} {message : Message} {next : Process}
    (step : Step behaviour rank network after)
    (does : behaviour rank (network.process rank) = .send target message next) :
    after = (network.send rank target message).advance rank next := by
  cases step with
  | silent _ doesOther => simp [does] at doesOther
  | send _ _ _ doesOther =>
      rw [does] at doesOther
      cases doesOther
      rfl
  | receive _ _ _ _ _ doesOther => simp [does] at doesOther

theorem Step.of_receive
    {wanted : Option Nat} {next : Message → Process}
    (step : Step behaviour rank network after)
    (does : behaviour rank (network.process rank) = .receive wanted next) :
    ∃ source message rest, (wanted = none ∨ wanted = some source) ∧
      network.queue source rank = message :: rest ∧
      after = (network.receive source rank rest).advance rank (next message) := by
  cases step with
  | silent _ doesOther => simp [does] at doesOther
  | send _ _ _ doesOther => simp [does] at doesOther
  | receive _ source message rest _ doesOther fits first =>
      rw [does] at doesOther
      cases doesOther
      exact ⟨source, message, rest, fits, first, rfl⟩

end Inversion

/-- The step of a process, with the source of the message where it waits for one. -/
def perform
    (behaviour : Nat → Process → Effect Process Message) (rank source : Nat)
    (network : Network Process Message) : Option (Network Process Message) :=
  match behaviour rank (network.process rank) with
  | .stop => none
  | .silent next => some (network.advance rank next)
  | .send target message next =>
      some ((network.send rank target message).advance rank next)
  | .receive wanted next =>
      if wanted = none ∨ wanted = some source then
        match network.queue source rank with
        | [] => none
        | message :: rest =>
            some ((network.receive source rank rest).advance rank (next message))
      else none

theorem step_of_perform
    {behaviour : Nat → Process → Effect Process Message} {rank source : Nat}
    {network after : Network Process Message}
    (performed : perform behaviour rank source network = some after) :
    Step behaviour rank network after := by
  simp only [perform] at performed
  split at performed
  · cases performed
  · rename_i next does
    cases performed
    exact .silent next does
  · rename_i target message next does
    cases performed
    exact .send target message next does
  · rename_i wanted next does
    split at performed
    · rename_i fits
      split at performed
      · cases performed
      · rename_i message rest first
        cases performed
        exact .receive wanted source message rest next does fits first
    · cases performed

end Network

end Physis.Library.Networks
