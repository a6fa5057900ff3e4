import Physis.Runtime.LoadRounds

/-!
# Entering `LoadSubgrid`

The processes come to a call of `LoadSubgrid` at different times.  What the ones
inside do does not depend on the grids of the others, so a state of the round is
one of a round that starts with the grids the others will have.
-/

namespace Physis.Runtime

open Physis.Library
open Physis.Library.Networks

variable {α : Type}

/-! ## Grids of processes that have not entered -/

namespace LoadProcess

variable {space : GridSpaceMPI} {rank : Nat} {process : LoadProcess α}

theorem effect_of_outside (outside : process.entered = false) :
    process.effect space rank = .stop := by
  cases counter : process.counter <;> simp_all [entered, effect]

theorem dispatch_entered (entered : process.entered = true) (message : LoadMessage α) :
    (process.dispatch message).entered = true := by
  cases message with
  | request request => cases kind : request.kind <;> simp_all [dispatch, LoadProcess.entered]
  | fetchInfo info => rfl
  | data payload => rfl

theorem handleFetchRequest_entered (source : Nat) (message : LoadMessage α) :
    (process.handleFetchRequest space source message).entered = true := by
  cases message <;> rfl

theorem handleFetchReply_entered (info : FetchInfo) (message : LoadMessage α) :
    (process.handleFetchReply space info message).entered = true := by
  cases message with
  | data payload =>
      simp only [handleFetchReply]
      split
      · rfl
      · split <;> rfl
  | request request => rfl
  | fetchInfo info => rfl

theorem enter_entered (call : LoadCall α) : (process.enter space rank call).entered = true := by
  simp only [enter]
  split
  · split
    · rfl
    · split
      · rfl
      · split <;> rfl
  · rfl

/-- What a process does leaves it in the call. -/
def StaysEntered : Effect (LoadProcess α) (LoadMessage α) → Prop
  | .stop => True
  | .silent next => next.entered = true
  | .send _ _ next => next.entered = true
  | .receive _ next => ∀ message, (next message).entered = true

theorem effect_staysEntered (inside : process.entered = true) :
    StaysEntered (process.effect space rank) := by
  cases counter : process.counter with
  | outside | returned | aborted => simp [effect, counter, StaysEntered]
  | sendRequests todo =>
      cases todo with
      | nil => simp [effect, counter, StaysEntered, entered]
      | cons info rest =>
          simp only [effect, counter]
          split <;> simp [StaysEntered, entered]
  | sendInfo info todo => simp [effect, counter, StaysEntered, entered]
  | loop =>
      simp only [effect, counter]
      split
      · simp [StaysEntered, entered]
      · split
        · simp [StaysEntered, entered]
        · exact dispatch_entered inside
  | sendDones next =>
      simp only [effect, counter]
      split
      · simp [StaysEntered, entered]
      · split <;> simp [StaysEntered, entered]
  | recvInfo source =>
      simp only [effect, counter]
      exact handleFetchRequest_entered source
  | sendReply target payload => simp [effect, counter, StaysEntered, entered]
  | sendData target payload => simp [effect, counter, StaysEntered, entered]
  | recvData source =>
      simp only [effect, counter]
      split
      · exact handleFetchReply_entered _
      · simp [StaysEntered, entered]

end LoadProcess

namespace LoadState

variable {space : GridSpaceMPI} {rank : Nat}

/-- The processes that have not entered have these grids. -/
def placed (grids : Nat → GridMPI α) (load : LoadState α) : LoadState α :=
  { load with
    process := fun rank =>
      if (load.process rank).entered then load.process rank
      else { load.process rank with grid := grids rank } }

variable {grids : Nat → GridMPI α} {load after : LoadState α}

@[simp]
theorem placed_start (others : Nat → GridMPI α) (bufs : Nat → Int → α) :
    placed grids (start others bufs) = start grids bufs := rfl

theorem placed_process (entered : (load.process rank).entered = true) :
    (placed grids load).process rank = load.process rank :=
  if_pos entered

theorem placed_process_outside (outside : (load.process rank).entered = false) :
    (placed grids load).process rank = { load.process rank with grid := grids rank } :=
  if_neg (by simp [outside])

theorem placed_counter (rank : Nat) :
    ((placed grids load).process rank).counter = (load.process rank).counter := by
  simp only [placed]
  split <;> rfl

theorem placed_entered (rank : Nat) :
    ((placed grids load).process rank).entered = (load.process rank).entered := by
  simp only [LoadProcess.entered, placed_counter]

theorem placed_advance {next : LoadProcess α} (entered : next.entered = true) :
    placed grids (Network.advance load rank next) =
      Network.advance (placed grids load) rank next := by
  simp only [placed, Network.advance, Network.mk.injEq, and_true]
  funext other
  by_cases same : other = rank
  · subst same
    simp [entered]
  · simp [Function.update_of_ne same]

/-- The steps of a process that has entered do not depend on the grids of the others. -/
theorem step_placed_iff {load after : LoadState α} :
    Network.Step (LoadProcess.effect space) rank (placed grids load) after ↔
      ∃ next, Network.Step (LoadProcess.effect space) rank load next ∧
        after = placed grids next := by
  by_cases inside : (load.process rank).entered = true
  · have same := @placed_process α rank grids load inside
    have stays := @LoadProcess.effect_staysEntered _ space rank _ inside
    constructor
    · rintro (⟨next, does⟩ | ⟨target, message, next, does⟩ |
        ⟨wanted, source, message, rest, next, does, fits, first⟩) <;> rw [same] at does <;>
        rw [does] at stays
      · exact ⟨_, .silent next does, (placed_advance stays).symm⟩
      · exact ⟨_, .send target message next does,
          (@placed_advance α rank grids (load.send rank target message) _ stays).symm⟩
      · exact ⟨_, .receive wanted source message rest next does fits first,
          (@placed_advance α rank grids (load.receive source rank rest) _
            (stays message)).symm⟩
    · rintro ⟨_, ⟨next, does⟩ | ⟨target, message, next, does⟩ |
        ⟨wanted, source, message, rest, next, does, fits, first⟩, rfl⟩ <;>
        rw [does] at stays
      · rw [placed_advance stays]
        exact .silent next (by rw [same, does])
      · rw [@placed_advance α rank grids (load.send rank target message) _ stays]
        exact .send target message next (by rw [same, does])
      · rw [@placed_advance α rank grids (load.receive source rank rest) _ (stays message)]
        exact .receive wanted source message rest next (by rw [same, does]) fits first
  · have outside : (load.process rank).entered = false := by simpa using inside
    constructor
    · intro step
      exact (step.of_stop (LoadProcess.effect_of_outside
        ((placed_entered rank).trans outside))).elim
    · rintro ⟨next, step, -⟩
      exact (step.of_stop (LoadProcess.effect_of_outside outside)).elim

/-- A process enters with the grid it has then. -/
theorem step_placed_enter
    {calls : Nat → LoadCall α} (bounded : rank < space.numProcs)
    (outside : (load.process rank).counter = .outside) :
    Step space calls (placed grids load)
      (placed grids (Network.advance load rank (LoadProcess.enter space rank (calls rank)
        { load.process rank with grid := grids rank }))) := by
  rw [placed_advance (LoadProcess.enter_entered _)]
  have step : Step space calls (placed grids load) _ :=
    .enter rank bounded ((placed_counter rank).trans outside)
  rwa [placed_process_outside (by simp [LoadProcess.entered, outside])] at step

end LoadState

end Physis.Runtime
