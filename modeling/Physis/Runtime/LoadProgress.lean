import Physis.Library.NetworkProgress
import Physis.Runtime.LoadRuns

/-!
# Rounds of `LoadSubgrid` come to their end

A request makes its server read, pack and send, and a reply makes its client
read and copy; weighed accordingly, every step makes the round lighter.  As long
as a process has not returned some process has a step: a process that waits has
a query or an answer on its way, or a notice.
-/

namespace Physis.Runtime

open Physis.Library
open Physis.Library.RowMajor
open Physis.Library.Networks
open Physis.Library.NetworkProgress
open Physis.Library.ServiceRounds
open Physis.Library.Runs

variable {α : Type}

/-! ## Every step makes a round lighter -/

/-- What the receipt of a message makes a process do. -/
def LoadMessage.weight : LoadMessage α → Nat
  | .request gridRequest =>
      match gridRequest.kind with
      | .fetchRequest => 6
      | .fetchReply => 2
      | .done | .invalid => 1
  | .fetchInfo _ => 1
  | .data _ => 1

namespace LoadProcess

variable (space : GridSpaceMPI) (rank : Nat) (call : LoadCall α) (process : LoadProcess α)

/-- What is left to do in the loop besides serving. -/
def loopWeight : Nat :=
  if process.doneSent then 1 else 2 * space.numProcs + 4

/-- What a process may still do in a call, with what it sends. -/
def weight : Nat :=
  match process.counter with
  | .outside =>
      9 * (space.collectPerProcSubgridInfo process.grid.globalOffset call.gridOffset
        call.gridSize).length + 2 * space.numProcs + 6
  | .sendRequests todo => 9 * todo.length + process.loopWeight space + 1
  | .sendInfo _ todo => 9 * todo.length + process.loopWeight space + 3
  | .loop => process.loopWeight space
  | .sendDones next => 2 * (space.numProcs - next) + 3
  | .recvInfo _ => process.loopWeight space + 5
  | .sendReply _ _ => process.loopWeight space + 5
  | .sendData _ _ => process.loopWeight space + 2
  | .recvData _ => process.loopWeight space + 1
  | .returned | .aborted => 0

variable {space rank call process}

theorem weight_enter (outside : process.counter = .outside) :
    (process.enter space rank call).weight space call < process.weight space call := by
  have before : process.weight space call =
      9 * (space.collectPerProcSubgridInfo process.grid.globalOffset call.gridOffset
        call.gridSize).length + 2 * space.numProcs + 6 := by
    rw [weight, outside]
  rw [before, enter]
  dsimp only
  split
  · split
    · simp [weight, loopWeight]
    · rename_i info rest listed
      rw [listed]
      split
      · simp only [weight, loopWeight, List.length_nil, List.length_cons]
        simp
      · split
        · simp only [weight, loopWeight, List.length_nil, List.length_cons]
          simp
        · simp only [weight, loopWeight, List.length_cons, Bool.false_eq_true, if_false]
          omega
  · simp [weight]

theorem weight_dispatch (inLoop : process.counter = .loop) (message : LoadMessage α) :
    (process.dispatch message).weight space call <
      process.weight space call + message.weight := by
  cases message with
  | request request =>
      cases kind : request.kind <;>
        simp [dispatch, kind, weight, loopWeight, inLoop, LoadMessage.weight]
  | fetchInfo info => simp [dispatch, weight, LoadMessage.weight]
  | data payload => simp [dispatch, weight, LoadMessage.weight]

theorem weight_handleFetchRequest
    {source : Nat} (handles : process.counter = .recvInfo source) (message : LoadMessage α) :
    (process.handleFetchRequest space source message).weight space call <
      process.weight space call + message.weight := by
  have before : process.weight space call = process.loopWeight space + 5 := by
    rw [weight, handles]
  rw [before]
  cases message with
  | fetchInfo info => exact Nat.lt_succ_self _
  | request request => exact Nat.lt_add_right _ (Nat.succ_pos _)
  | data payload => exact Nat.lt_add_right _ (Nat.succ_pos _)

theorem weight_handleFetchReply
    {source : Nat} (handles : process.counter = .recvData source) (info : FetchInfo)
    (message : LoadMessage α) :
    (process.handleFetchReply space info message).weight space call <
      process.weight space call + message.weight := by
  have some : 0 < process.weight space call := by
    rw [weight, handles]
    exact Nat.succ_pos _
  cases message with
  | data payload =>
      rw [handleFetchReply]
      split
      · exact Nat.lt_add_right _ some
      · dsimp only
        split
        · exact Nat.lt_add_right _ some
        · simp [weight, loopWeight, handles, LoadMessage.weight]
  | request request => exact Nat.lt_add_right _ some
  | fetchInfo info => exact Nat.lt_add_right _ some

/-- Whatever a process does, it has less to do afterwards. -/
theorem lighter_effect
    (within : ∀ next, process.counter = .sendDones next → next ≤ space.numProcs) :
    Lighter (fun process => process.weight space call) LoadMessage.weight process
      (process.effect space rank) := by
  cases counter : process.counter with
  | outside | returned | aborted => simp [effect, counter, Lighter]
  | sendRequests todo =>
      cases todo with
      | nil => simp [effect, counter, Lighter, weight, loopWeight]
      | cons info rest =>
          simp only [effect, counter]
          split
          · simp [Lighter, weight, loopWeight, counter]
          · simp only [Lighter, weight, loopWeight, counter, LoadMessage.weight,
              List.length_cons]
            omega
  | sendInfo info todo =>
      simp only [effect, counter, Lighter, weight, loopWeight, LoadMessage.weight]
      omega
  | loop =>
      simp only [effect, counter]
      split
      · simp only [Lighter, weight, counter, loopWeight]
        split <;> omega
      · split
        · rename_i ready
          simp [Lighter, weight, counter, loopWeight, ready.2]
        · exact weight_dispatch counter
  | sendDones next =>
      have inside := within next counter
      simp only [effect, counter]
      split
      · simp [Lighter, weight, counter, loopWeight]
      · split
        · simp only [Lighter, weight, counter]
          omega
        · simp only [Lighter, weight, counter, LoadMessage.weight]
          omega
  | recvInfo source =>
      simp only [effect, counter, Lighter]
      exact weight_handleFetchRequest counter
  | sendReply target payload =>
      simp only [effect, counter, Lighter, weight, loopWeight, LoadMessage.weight]
      omega
  | sendData target payload =>
      simp only [effect, counter, Lighter, weight, loopWeight, LoadMessage.weight]
      omega
  | recvData source =>
      simp only [effect, counter]
      split
      · exact weight_handleFetchReply counter _
      · simp [Lighter, weight, counter]

end LoadProcess

/-! ## Runs -/

namespace LoadState

variable {space : GridSpaceMPI} {calls : Nat → LoadCall α}

/-- A round, weighed: what its processes may still do, and what is on its way. -/
def weight (space : GridSpaceMPI) (calls : Nat → LoadCall α) (state : LoadState α) : Nat :=
  NetworkProgress.weight space.numProcs
    (fun rank process => process.weight space (calls rank)) LoadMessage.weight state

/-- Processes send messages of the round only, and tell no more than all. -/
structure Tidy (space : GridSpaceMPI) (state : LoadState α) : Prop where
  quiet : ∀ source target, space.numProcs ≤ source → state.queue source target = []
  within : ∀ rank next, (state.process rank).counter = .sendDones next →
    next ≤ space.numProcs

theorem weight_step {state after : LoadState α} (tidy : Tidy space state)
    (step : Step space calls state after) :
    weight space calls after < weight space calls state := by
  cases step with
  | enter rank bounded outside =>
      have changed := processes_advance bounded
        (fun rank process => LoadProcess.weight space (calls rank) process) state
        ((state.process rank).enter space rank (calls rank))
      have less := @LoadProcess.weight_enter _ space rank (calls rank) _ outside
      simp only [weight, NetworkProgress.weight, Network.advance] at changed ⊢
      omega
  | go rank bounded after step =>
      exact NetworkProgress.weight_step bounded (fun source => tidy.quiet source rank)
        (LoadProcess.lighter_effect (tidy.within rank)) step

end LoadState

/-! ## Some process has a step -/

namespace Simulates

variable
    {space : GridSpaceMPI} {spec : FetchSpec space α} {state : LoadState α}
    {round : Round FetchInfo (List α)} (simulates : Simulates spec state round)

include simulates

/-- Processes outside the round send nothing. -/
theorem channel_eq_nil_of_source_outside
    {source : Nat} (outside : space.numProcs ≤ source) (target : Nat) :
    round.channel source target = [] := by
  obtain ⟨served, told⟩ := simulates.sound
  have unentered := told.members source outside
  have asks := (served.outside source unentered).2.2.2 target
  have unasked := served.askedInside target source outside
  have toTarget := served.balance source target
  have fromTarget := served.balance target source
  rw [asks, List.length_nil] at toTarget
  rw [unasked, List.length_nil] at fromTarget
  have notices := told.notices source target
  have untold : (round.member source).notified = 0 := by
    by_contra positive
    have finished := told.notified source (by omega)
    rw [(told.outside source unentered).1] at finished
    cases finished
  rw [if_neg (by omega)] at notices
  exact eq_nil_of_counts (by omega) (by omega) (by omega)

theorem tidy : LoadState.Tidy space state where
  quiet _ target outside :=
    (simulates.view_eq_nil (simulates.channel_eq_nil_of_source_outside outside target)).1
  within rank next telling := by
    have most := simulates.sound.told.notified_le rank
    rw [simulates.member] at most
    simpa [LoadProcess.member, LoadProcess.notified, telling] using most

/-- Nothing is on its way where nothing is handled, queued or sent in part. -/
theorem channel_eq_nil
    {source target : Nat} (header : (state.process target).header source = [])
    (queue : state.queue source target = [])
    (body : (state.process source).body space target = []) :
    round.channel source target = [] := by
  have view := simulates.view source target
  rw [LoadState.view, header, queue, body] at view
  cases channel : round.channel source target with
  | nil => rfl
  | cons parcel rest =>
      rw [channel] at view
      cases parcel <;> simp [parcelMessages] at view

/-- A request or reply that is being handled is followed by its second message. -/
theorem body_ne_nil
    {source target : Nat} {kind : GridRequestKind}
    (header : (state.process target).header source = [.request ⟨source, kind⟩])
    (isParcel : kind = .fetchRequest ∨ kind = .fetchReply)
    (queue : state.queue source target = []) :
    (state.process source).body space target ≠ [] := by
  intro body
  have view := simulates.view source target
  rw [LoadState.view, header, queue, body] at view
  cases channel : round.channel source target with
  | nil =>
      rw [channel] at view
      simp at view
  | cons parcel rest =>
      rw [channel] at view
      rcases isParcel with rfl | rfl <;> cases parcel <;> simp [parcelMessages] at view

/-- A process outside the round has not entered. -/
theorem outside_of_le {rank : Nat} (outside : space.numProcs ≤ rank) :
    (state.process rank).counter = .outside := by
  have member := simulates.sound.told.members rank outside
  rw [simulates.member] at member
  cases counter : (state.process rank).counter <;>
    simp [LoadProcess.member, LoadProcess.entered, counter] at member
  rfl

end Simulates

namespace LoadState

variable {space : GridSpaceMPI} {calls : Nat → LoadCall α} {state : LoadState α}

/-- A process waits in the loop, and nothing has been sent to it. -/
structure Waits (space : GridSpaceMPI) (state : LoadState α) (rank : Nat) : Prop where
  inLoop : (state.process rank).counter = .loop
  untold : (state.process rank).doneCount ≠ space.numProcs
  unanswered : (state.process rank).remainingRequests = 0 →
    (state.process rank).doneSent = true
  quiet : ∀ source, state.queue source rank = []

section Stuck

variable
    {spec : FetchSpec space α} {round : Round FetchInfo (List α)}
    (simulates : Simulates spec state round)
    (stuck : ∀ after, ¬Step space calls state after)

include simulates stuck

/-- No process is about to send. -/
theorem body_eq_nil (rank target : Nat) : (state.process rank).body space target = [] := by
  rcases Nat.lt_or_ge rank space.numProcs with bounded | outside
  · have waits := waits_of_stuck fun after step => stuck after (.go rank bounded after step)
    cases counter : (state.process rank).counter with
    | sendInfo info todo =>
        rcases waits with stops | ⟨_, _, receives, _⟩ <;>
          simp [LoadProcess.effect, counter] at *
    | sendData client payload =>
        rcases waits with stops | ⟨_, _, receives, _⟩ <;>
          simp [LoadProcess.effect, counter] at *
    | _ => simp [LoadProcess.body, counter]
  · simp [LoadProcess.body, simulates.outside_of_le outside]

/-- In a state without steps every process has returned or waits in the loop. -/
theorem returned_or_waits {rank : Nat} (bounded : rank < space.numProcs) :
    state.Returned rank ∨ state.Waits space rank := by
  have waits := waits_of_stuck fun after step => stuck after (.go rank bounded after step)
  cases counter : (state.process rank).counter with
  | outside => exact absurd (.enter rank bounded counter) (stuck _)
  | returned => exact .inl counter
  | aborted => exact absurd counter (simulates.alive rank)
  | loop =>
      simp only [LoadProcess.effect, counter] at waits
      split at waits
      · simp at waits
      · rename_i untold
        split at waits
        · simp at waits
        · rename_i unready
          rcases waits with stops | ⟨_, _, receives, quiet⟩
          · cases stops
          · cases receives
            refine .inr ⟨counter, untold, fun none => ?_, fun source => quiet source (.inl rfl)⟩
            by_contra unsent
            exact unready ⟨none, by simpa using unsent⟩
  | recvInfo source =>
      simp only [LoadProcess.effect, counter] at waits
      rcases waits with stops | ⟨_, _, receives, quiet⟩
      · cases stops
      · cases receives
        refine absurd (body_eq_nil simulates stuck source rank) (simulates.body_ne_nil ?_
          (.inl rfl) (quiet source (.inr rfl)))
        simp [LoadProcess.header, counter]
  | recvData source =>
      simp only [LoadProcess.effect, counter] at waits
      split at waits
      · rcases waits with stops | ⟨_, _, receives, quiet⟩
        · cases stops
        · cases receives
          refine absurd (body_eq_nil simulates stuck source rank) (simulates.body_ne_nil ?_
            (.inr rfl) (quiet source (.inr rfl)))
          simp [LoadProcess.header, counter]
      · simp at waits
  -- all else goes on, or sends
  | sendRequests todo =>
      cases todo with
      | nil => simp [LoadProcess.effect, counter] at waits
      | cons info rest =>
          simp only [LoadProcess.effect, counter] at waits
          split at waits <;> simp at waits
  | sendDones next =>
      simp only [LoadProcess.effect, counter] at waits
      split at waits
      · simp at waits
      · split at waits <;> simp at waits
  | sendInfo info todo => simp [LoadProcess.effect, counter] at waits
  | sendReply target payload => simp [LoadProcess.effect, counter] at waits
  | sendData target payload => simp [LoadProcess.effect, counter] at waits

/-- Where a process waits, nothing is on its way to it. -/
theorem Waits.channel {rank : Nat} (waits : state.Waits space rank) (source : Nat) :
    round.channel source rank = [] :=
  simulates.channel_eq_nil (by simp [LoadProcess.header, waits.inLoop]) (waits.quiet source)
    (body_eq_nil simulates stuck source rank)

omit stuck in
/-- If all have told all others, no process waits. -/
theorem Waits.not_finished {rank : Nat} (bounded : rank < space.numProcs)
    (waits : state.Waits space rank)
    (channel : ∀ source, round.channel source rank = [])
    (notified : ∀ source < space.numProcs, (round.member source).notified = space.numProcs) :
    False := by
  have counted := simulates.sound.told.counted_of_told bounded
    (fun source inside => by rw [notified source inside]; exact bounded)
    (fun source _ => by rw [channel source, dones_nil])
  rw [simulates.member] at counted
  exact waits.untold counted

/-- In a state without steps every process has returned. -/
theorem returned_of_stuck
    (told : ∀ rank, state.Returned rank →
      (state.process rank).doneCount = space.numProcs) :
    ∀ rank < space.numProcs, state.Returned rank := by
  have each : ∀ {rank}, rank < space.numProcs →
      state.Returned rank ∨ state.Waits space rank :=
    fun bounded => returned_or_waits simulates stuck bounded
  have idle : ∀ {rank}, rank < space.numProcs → round.member rank =
      (state.process rank).member space ∧
        ((state.process rank).counter = .returned ∨ (state.process rank).counter = .loop) :=
    fun bounded => ⟨simulates.member _, (each bounded).imp id Waits.inLoop⟩
  have notified : ∀ source < space.numProcs, (round.member source).finished = true →
      (round.member source).notified = space.numProcs := by
    intro source inside finished
    obtain ⟨member, at_⟩ := idle inside
    rw [member] at finished ⊢
    rcases at_ with counter | counter <;>
      simp_all [LoadProcess.member, LoadProcess.finished, LoadProcess.notified]
  have allFinished : ∀ source < space.numProcs, (round.member source).finished = true := by
    by_cases some : ∃ rank < space.numProcs, state.Returned rank
    · obtain ⟨rank, bounded, returned⟩ := some
      exact (simulates.sound.settled bounded (by
        rw [simulates.member]
        exact told rank returned)).finished
    · push Not at some
      have waits : ∀ {rank}, rank < space.numProcs → state.Waits space rank :=
        fun bounded => (each bounded).resolve_left (some _ bounded)
      intro source inside
      have waiting := waits inside
      rw [simulates.member]
      by_contra unfinished
      have unsent : (state.process source).doneSent = false := by
        simpa [LoadProcess.member, LoadProcess.finished, waiting.inLoop] using unfinished
      -- an outstanding answer is on its way, or it is being made
      have outstanding : 0 < (round.member source).waiting := by
        have remaining := simulates.remaining source
        have unanswered : (state.process source).remainingRequests ≠ 0 := fun none => by
          rw [waiting.unanswered none] at unsent
          cases unsent
        rw [simulates.member]
        simp only [LoadProcess.member, LoadProcess.asking, waiting.inLoop]
        omega
      obtain ⟨server, serverInside, onItsWay⟩ :=
        simulates.sound.served.exists_outstanding outstanding
      have serverWaits := waits serverInside
      have serving : (round.member server).serves source = 0 := by
        rw [simulates.member]
        simp [Member.serves, LoadProcess.member, LoadProcess.serving, serverWaits.inLoop]
      rw [serverWaits.channel simulates stuck, waiting.channel simulates stuck, serving]
        at onItsWay
      simp at onItsWay
  intro rank bounded
  rcases each bounded with returned | waits
  · exact returned
  · exact (waits.not_finished simulates bounded (waits.channel simulates stuck) fun source
      inside => notified source inside (allFinished source inside)).elim

end Stuck

end LoadState

/-- A round whose states are those of sound rounds comes to its end. -/
theorem LoadState.terminates_of_simulates
    {space : GridSpaceMPI} {spec : FetchSpec space α} {calls : Nat → LoadCall α}
    {Inv : LoadState α → Prop} {initial : LoadState α} (holds : Inv initial)
    (preserved : ∀ before after, Inv before → Step space calls before after → Inv after)
    (simulates : ∀ state, Inv state → ∃ round, Simulates spec state round)
    (told : ∀ state, Inv state → ∀ rank, state.Returned rank →
      (state.process rank).doneCount = space.numProcs) :
    Terminates (Step space calls)
      (fun state => ∀ rank < space.numProcs, state.Returned rank) initial := by
  refine terminates_of_measure (LoadState.weight space calls) holds preserved ?_ ?_
  · intro before after inv step
    obtain ⟨round, simulates⟩ := simulates before inv
    exact weight_step simulates.tidy step
  · intro state inv
    obtain ⟨round, simulates⟩ := simulates state inv
    by_cases stuck : ∃ next, Step space calls state next
    · exact .inr stuck
    · exact .inl (returned_of_stuck simulates (fun after step => stuck ⟨after, step⟩)
        (told state inv))

/-! ## One round -/

section Round

variable
    {space : GridSpaceMPI} {elmSize : Nat} {size globalOffset : IndexArray}
    {grids : Nat → GridMPI α} {calls : Nat → LoadCall α}
    (distributed : Distributed space elmSize size globalOffset grids)
    (dims : 0 < space.numDims)
    (regions : ∀ rank < space.numProcs, space.RegionInside size globalOffset
      (calls rank).gridOffset (calls rank).gridSize)
    (nonneg : ∀ rank < space.numProcs, ∀ d < psMaxDim,
      0 ≤ (calls rank).gridOffset d ∧ 0 ≤ (calls rank).gridSize d)
    (fresh : ∀ rank < space.numProcs, (calls rank).reuse = false)
    (bufs : Nat → Int → α)

include distributed dims regions nonneg fresh

/-- In any order of steps all processes return from `LoadSubgrid`. -/
theorem LoadState.terminates :
    Terminates (LoadState.Step space calls)
      (fun state => ∀ rank < space.numProcs, state.Returned rank)
      (LoadState.start grids bufs) :=
  terminates_of_simulates (running_start (fetchSpec distributed dims regions) bufs)
    (fun _ _ => running_step distributed dims regions nonneg fresh)
    (fun _ running => running.simulates) fun _ running => running.told

/--
One round of `LoadSubgrid`, in any order of steps.  It comes to its end with
every process returned.  A process that returns with values of others in its
region has them all; requests are answered once, with the data asked for, and
before the server returns; messages are taken for what they are, and none is
left at the end.
-/
theorem loadSubgrid_round_correct :
    Terminates (LoadState.Step space calls)
        (fun state => ∀ rank < space.numProcs, state.Returned rank)
        (LoadState.start grids bufs) ∧
      ∀ state, Reaches (LoadState.Step space calls) (LoadState.start grids bufs) state →
        state.RoundCorrect space size globalOffset grids calls := by
  constructor
  · exact LoadState.terminates distributed dims regions nonneg fresh bufs
  · intro state reached
    obtain ⟨⟨_, simulates⟩, -, -, told, sends⟩ := reached.invariant
      (running_start (fetchSpec distributed dims regions) bufs)
      fun _ _ => running_step distributed dims regions nonneg fresh
    exact roundCorrect_of_simulates simulates sends told

end Round

/-! ### A run of two processes -/

namespace LoadState

/-- The step of a process, entering included. -/
def perform
    (space : GridSpaceMPI) (calls : Nat → LoadCall α) (rank source : Nat)
    (state : LoadState α) : Option (LoadState α) :=
  match (state.process rank).counter with
  | .outside =>
      some (Network.advance state rank
        ((state.process rank).enter space rank (calls rank)))
  | _ => Network.perform (LoadProcess.effect space) rank source state

theorem step_of_perform
    {space : GridSpaceMPI} {calls : Nat → LoadCall α} {rank source : Nat}
    (bounded : rank < space.numProcs) {state after : LoadState α}
    (performed : perform space calls rank source state = some after) :
    Step space calls state after := by
  rw [perform] at performed
  split at performed
  · rename_i outside
    cases performed
    exact .enter rank bounded outside
  · exact .go rank bounded after (Network.step_of_perform performed)

/-- Steps of processes, each with the source of the message it may take. -/
def replay (space : GridSpaceMPI) (calls : Nat → LoadCall α) :
    List (Nat × Nat) → LoadState α → Option (LoadState α)
  | [], state => some state
  | (rank, source) :: rest, state =>
      if rank < space.numProcs then
        (perform space calls rank source state).bind (replay space calls rest)
      else none

theorem reaches_of_replay
    {space : GridSpaceMPI} {calls : Nat → LoadCall α} {script : List (Nat × Nat)}
    {state final : LoadState α} (replayed : replay space calls script state = some final) :
    Reaches (Step space calls) state final := by
  induction script generalizing state with
  | nil =>
      cases replayed
      exact .refl
  | cons entry rest induction =>
      obtain ⟨rank, source⟩ := entry
      rw [replay] at replayed
      split at replayed
      · rename_i bounded
        obtain ⟨after, performed, replayed⟩ := Option.bind_eq_some_iff.mp replayed
        exact .head (step_of_perform bounded performed) (induction replayed)
      · cases replayed

end LoadState

theorem rowOfTwo_globalPos : ∀ i < 1, 0 < (IntegerArray.mk3 2 0 0 : IndexArray) i := by decide

theorem rowOfTwo_procPos : ∀ i < 1, 0 < (IntegerArray.mk3 2 0 0 : IntArray) i := by decide

/-- Two processes with one cell each. -/
def rowOfTwo : GridSpaceMPI where
  numDims := 1
  globalSize := IntegerArray.mk3 2 0 0
  procSize := IntegerArray.mk3 2 0 0
  globalPos := rowOfTwo_globalPos
  procPos := rowOfTwo_procPos

/-- The first process loads both cells, the second one its own. -/
def loadBoth (rank : Nat) : LoadCall Int where
  gridOffset := if rank = 0 then IntegerArray.mk3 0 0 0 else IntegerArray.mk3 1 0 0
  gridSize := if rank = 0 then IntegerArray.mk3 2 0 0 else IntegerArray.mk3 1 0 0
  reuse := false
  memory _ := 0

/-- Two cells, one on each process. -/
def twoCells : Nat → GridMPI Int :=
  rowOfTwo.distribute 4 (IntegerArray.mk3 2 0 0) false (fun _ => 0)
    fun rank _ _ => 10 * (rank : Int) + 5

/-- The first process asks itself and the second one; then both are done. -/
def loadBothScript : List (Nat × Nat) :=
  List.replicate 12 (0, 0) ++ List.replicate 4 (1, 0) ++ [(0, 1)] ++
    List.replicate 5 (1, 0) ++ [(0, 1), (1, 0), (0, 1)] ++
    List.replicate 5 (0, 0) ++ List.replicate 2 (1, 0)

theorem loadBoth_replays :
    (LoadState.replay rowOfTwo loadBoth loadBothScript
      (LoadState.start twoCells fun _ _ => 0)).isSome = true := by
  decide +kernel

theorem rowOfTwo_loads_both :
    Terminates (LoadState.Step rowOfTwo loadBoth)
        (fun state => ∀ rank < 2, state.Returned rank)
        (LoadState.start twoCells fun _ _ => 0) ∧
      ∃ state, Reaches (LoadState.Step rowOfTwo loadBoth)
          (LoadState.start twoCells fun _ _ => 0) state ∧
        (∀ rank < 2, state.Returned rank) ∧
          state.RoundCorrect rowOfTwo (IntegerArray.mk3 2 0 0) (fun _ => 0) twoCells
            loadBoth := by
  have reached := LoadState.reaches_of_replay (Option.some_get loadBoth_replays).symm
  have correct := @loadSubgrid_round_correct _ _ _ _ _ _ loadBoth
    (rowOfTwo.distribute_distributed 4 (IntegerArray.mk3 2 0 0) false (fun _ => 0)
      (fun rank _ _ => 10 * (rank : Int) + 5) (by decide))
    (by decide)
    (by
      intro rank bounded
      match rank, bounded with
      | 0, _ => exact ⟨by decide, by decide, by decide, by decide⟩
      | 1, _ => exact ⟨by decide, by decide, by decide, by decide⟩)
    (by
      intro rank bounded
      match rank, bounded with
      | 0, _ => decide
      | 1, _ => decide)
    (fun _ _ => rfl) fun _ _ => 0
  refine ⟨correct.1, _, reached, ?_, correct.2 _ reached⟩
  intro rank bounded
  match rank, bounded with
  | 0, _ => rfl
  | 1, _ => rfl

end Physis.Runtime
