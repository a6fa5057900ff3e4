import Physis.Runtime.LoadEntry
import Physis.Runtime.LoadProgress

/-!
# Rounds of `LoadSubgrid` in which remote grids are reused

A process that may reuse its remote grid and has one of the very region it wants
asks for nothing, but serves the others like any other process.  Its remote grid
is left as it was, whatever the owners' values have become since; the remote
grid of a process that asks has the owners' values when it returns.
-/

namespace Physis.Runtime

open Physis.Library
open Physis.Library.RowMajor
open Physis.Library.Networks
open Physis.Library.ServiceRounds
open Physis.Library.Runs

variable {α : Type}

/-! ## What a call asks for -/

namespace LoadCall

variable (space : GridSpaceMPI) (rank : Nat) (call : LoadCall α)

/-- The remote grid is reused instead of being fetched. -/
def Skips (grid : GridMPI α) : Prop :=
  call.fetches space rank grid.globalOffset ≠ [] ∧ call.reuse = true ∧
    grid.remoteIs call.gridOffset call.gridSize = true

/-- The pieces a call asks for, with the remote grid that is there. -/
def requests (grid : GridMPI α) : List FetchInfo :=
  if call.reuse = true ∧ grid.remoteIs call.gridOffset call.gridSize = true then []
  else call.fetches space rank grid.globalOffset

/-- The grid when the requests are sent. -/
def prepare (grid : GridMPI α) : GridMPI α :=
  if call.fetches space rank grid.globalOffset = [] then grid
  else if call.reuse = true ∧ grid.remoteIs call.gridOffset call.gridSize = true then
    { grid with remoteGridActive := true }
  else
    { grid.ensureRemoteGrid call.gridOffset call.gridSize call.memory with
      remoteGridActive := true }

variable {space rank call} {grid : GridMPI α}

theorem mem_fetches_of_mem_requests
    {info : FetchInfo} (member : info ∈ call.requests space rank grid) :
    info ∈ call.fetches space rank grid.globalOffset := by
  rw [requests] at member
  split at member
  · cases member
  · exact member

theorem requests_eq_fetches (some : call.requests space rank grid ≠ []) :
    call.requests space rank grid = call.fetches space rank grid.globalOffset := by
  rw [requests] at some ⊢
  split
  · rename_i reused
    rw [if_pos reused] at some
    exact absurd rfl some
  · rfl

/-- Without requests the region is the process's own, or it is reused. -/
theorem skips_of_requests
    (none : call.requests space rank grid = [])
    (some : call.fetches space rank grid.globalOffset ≠ []) :
    call.Skips space rank grid := by
  rw [requests] at none
  split at none
  · rename_i reused
    exact ⟨some, reused⟩
  · exact absurd none some

theorem requests_peers_nodup :
    ((call.requests space rank grid).map space.peerRank).Nodup := by
  rw [requests]
  split
  · exact List.nodup_nil
  · exact fetches_peers_nodup call

theorem prepare_remoteGrid_of_none (none : call.requests space rank grid = []) :
    (call.prepare space rank grid).remoteGrid = grid.remoteGrid := by
  rw [prepare]
  split
  · rfl
  · rename_i some
    rw [if_pos (skips_of_requests none some).2]

theorem prepare_remoteGrid_of_some (some : call.requests space rank grid ≠ []) :
    (call.prepare space rank grid).remoteGrid =
      Option.some ⟨call.gridOffset, call.gridSize, call.memory⟩ := by
  have fetched := requests_eq_fetches some
  rw [requests] at some
  rw [prepare, if_neg (by rw [← fetched, requests]; exact some)]
  split
  · rename_i reused
    rw [if_pos reused] at some
    exact absurd rfl some
  · rfl

/-- What a process has done when it starts to send its requests. -/
theorem enter_eq_requests
    (nonneg : ∀ d < psMaxDim, 0 ≤ call.gridOffset d ∧ 0 ≤ call.gridSize d)
    (process : LoadProcess α) :
    process.enter space rank call =
      { process with
        fetchMap := fun _ => none
        remainingRequests := 0
        doneCount := 0
        doneSent := false
        grid := call.prepare space rank process.grid
        counter := .sendRequests (call.requests space rank process.grid) } := by
  have valid : (List.range psMaxDim).all (fun i =>
      decide (0 ≤ call.gridOffset i) && decide (0 ≤ call.gridSize i)) = true := by
    rw [List.all_eq_true]
    intro d member
    simpa using nonneg d (List.mem_range.mp member)
  cases listed : space.collectPerProcSubgridInfo process.grid.globalOffset
      call.gridOffset call.gridSize with
  | nil => simp [LoadProcess.enter, valid, prepare, requests, fetches, listed]
  | cons info rest =>
      by_cases alone : rest = [] ∧ space.peerRank info = rank
      · simp [LoadProcess.enter, valid, prepare, requests, fetches, listed, alone.1,
          alone.2]
      · by_cases reused : call.reuse = true ∧
            process.grid.remoteIs call.gridOffset call.gridSize = true
        · simp [LoadProcess.enter, valid, prepare, requests, fetches, listed, alone,
            reused]
        · simp [LoadProcess.enter, valid, prepare, requests, fetches, listed, alone,
            reused]

end LoadCall

/-! ## Steps and remote grids -/

namespace LoadProcess

variable {space : GridSpaceMPI} {rank : Nat} {process : LoadProcess α}

theorem dispatch_grid (message : LoadMessage α) :
    (process.dispatch message).grid = process.grid := by
  cases message with
  | request request =>
      obtain ⟨_, kind⟩ := request
      cases kind <;> rfl
  | fetchInfo info => rfl
  | data payload => rfl

theorem handleFetchRequest_grid (source : Nat) (message : LoadMessage α) :
    (process.handleFetchRequest space source message).grid = process.grid := by
  cases message <;> rfl

end LoadProcess

/-- Only a reply changes the grid of a process that has entered. -/
theorem LoadState.grid_of_step
    {space : GridSpaceMPI} {rank : Nat} {state after : LoadState α}
    (step : Network.Step (LoadProcess.effect space) rank state after)
    (noReply : ∀ source, (state.process rank).counter ≠ .recvData source) :
    (after.process rank).grid = (state.process rank).grid := by
  cases step with
  | silent next does =>
      rw [Network.advance_process, if_pos rfl]
      simp only [LoadProcess.effect] at does
      split at does
      all_goals try split at does
      all_goals try split at does
      all_goals cases does
      all_goals rfl
  | send target message next does =>
      rw [Network.advance_process, if_pos rfl]
      simp only [LoadProcess.effect] at does
      split at does
      all_goals try split at does
      all_goals try split at does
      all_goals cases does
      all_goals rfl
  | receive wanted source message rest next does =>
      rw [Network.advance_process, if_pos rfl]
      simp only [LoadProcess.effect] at does
      split at does
      all_goals try split at does
      all_goals try split at does
      all_goals cases does
      · exact LoadProcess.dispatch_grid message
      · exact LoadProcess.handleFetchRequest_grid _ message
      · exact absurd (by assumption) (noReply _)

/-! ## The invariant of a round -/

section Rounds

variable
    {space : GridSpaceMPI} {elmSize : Nat} {size globalOffset : IndexArray}
    {grids : Nat → GridMPI α} {calls : Nat → LoadCall α}
    (distributed : Distributed space elmSize size globalOffset grids)
    (dims : 0 < space.numDims)
    (regions : ∀ rank < space.numProcs, space.RegionInside size globalOffset
      (calls rank).gridOffset (calls rank).gridSize)
    (nonneg : ∀ rank < space.numProcs, ∀ d < psMaxDim,
      0 ≤ (calls rank).gridOffset d ∧ 0 ≤ (calls rank).gridSize d)

include distributed in
/-- A process asks for pieces of its fetches only. -/
theorem LoadCall.fetched_of_requested
    {rank : Nat} {info : FetchInfo}
    (requested : rank < space.numProcs ∧
      info ∈ (calls rank).requests space rank (grids rank)) :
    rank < space.numProcs ∧ info ∈ (calls rank).fetches space rank globalOffset := by
  have member := LoadCall.mem_fetches_of_mem_requests requested.2
  rw [(distributed.decomposed rank requested.1).globalOffset] at member
  exact ⟨requested.1, member⟩

/-- The round in which only the requests made are wanted. -/
def reuseSpec : FetchSpec space α :=
  { fetchSpec distributed dims regions with
    wanted := fun rank info => rank < space.numProcs ∧
      info ∈ (calls rank).requests space rank (grids rank)
    required := fun rank info => rank < space.numProcs ∧
      info ∈ (calls rank).requests space rank (grids rank)
    elements_ne := fun wanted => (fetchSpec distributed dims regions).elements_ne
      (LoadCall.fetched_of_requested distributed wanted)
    length_le := fun wanted => (fetchSpec distributed dims regions).length_le
      (LoadCall.fetched_of_requested distributed wanted)
    stored_copyin := fun buf wanted => (fetchSpec distributed dims regions).stored_copyin
      buf (LoadCall.fetched_of_requested distributed wanted)
    stored_kept := fun buf wanted otherWanted =>
      (fetchSpec distributed dims regions).stored_kept buf
        (LoadCall.fetched_of_requested distributed wanted)
        (LoadCall.fetched_of_requested distributed otherWanted) }

/-- What holds in every state of a round. -/
structure LoadState.Reusing (state : LoadState α) : Prop where
  simulates : ∃ round, Simulates (reuseSpec distributed dims regions) state round
  data : ∀ rank, (state.process rank).grid.SameData (grids rank)
  untouched : ∀ rank, (state.process rank).counter = .outside →
    (state.process rank).grid = grids rank
  /-- who asks for nothing keeps the remote grid -/
  kept : ∀ rank < space.numProcs,
    (calls rank).requests space rank (grids rank) = [] →
      (state.process rank).grid.remoteGrid = (grids rank).remoteGrid
  active : ∀ rank, (state.process rank).grid.remoteGridActive =
    if (state.process rank).entered then
      ((calls rank).prepare space rank (grids rank)).remoteGridActive
    else (grids rank).remoteGridActive
  told : ∀ rank, state.Returned rank →
    (state.process rank).doneCount = space.numProcs

theorem reusing_start (bufs : Nat → Int → α) :
    LoadState.Reusing distributed dims regions (LoadState.start grids bufs) where
  simulates := ⟨_, simulates_start _ bufs⟩
  data _ := .refl _
  untouched _ _ := rfl
  kept _ _ _ := rfl
  active _ := rfl
  told _ returned := by cases returned

include nonneg in
/-- Every step keeps the invariant. -/
theorem reusing_step
    {state after : LoadState α}
    (reusing : LoadState.Reusing distributed dims regions state)
    (step : LoadState.Step space calls state after) :
    LoadState.Reusing distributed dims regions after := by
  have nextData := LoadState.sameData_step reusing.data step
  have nextTold := LoadState.told_step reusing.told step
  obtain ⟨⟨round, simulates⟩, data, untouched, kept, active, -⟩ := reusing
  cases step with
  | enter rank bounded outside =>
      have entered := @LoadCall.enter_eq_requests _ space rank (calls rank)
        (nonneg rank bounded) (state.process rank)
      rw [untouched rank outside] at entered
      refine ⟨?_, nextData, ?_, ?_, ?_, nextTold⟩
      · obtain ⟨nextRound, -, simulatesNext⟩ := simulates.enter bounded outside
          (congrArg LoadProcess.counter entered)
          (congrArg LoadProcess.fetchMap entered)
          (congrArg LoadProcess.remainingRequests entered)
          (congrArg LoadProcess.doneCount entered)
          (congrArg LoadProcess.doneSent entered)
          (fun info member => (LoadCall.piece_of_mem_fetches (regions rank bounded)
            (LoadCall.fetched_of_requested distributed ⟨bounded, member⟩).2).peerRank_lt)
          LoadCall.requests_peers_nodup
          (fun info member => ⟨bounded, member⟩)
          (fun info required => required.2)
          (fun some => ⟨_, by
            rw [entered]
            exact LoadCall.prepare_remoteGrid_of_some some, rfl, rfl⟩)
        exact ⟨nextRound, simulatesNext⟩
      · intro other
        rw [Network.advance_process]
        split
        · rw [entered]
          intro impossible
          cases impossible
        · exact untouched other
      · intro other inside none
        rw [Network.advance_process]
        split
        · rename_i same
          subst same
          rw [entered]
          exact LoadCall.prepare_remoteGrid_of_none none
        · exact kept other inside none
      · intro other
        rw [Network.advance_process]
        split
        · rename_i same
          subst same
          rw [entered]
          rfl
        · exact active other
  | go rank bounded after step =>
      obtain ⟨next, process, continues⟩ := LoadState.continues_of_step step
      refine ⟨?_, nextData, ?_, ?_, ?_, nextTold⟩
      · obtain ⟨nextRound, -, simulatesNext⟩ := simulates.go (by
          intro source _ info _
          exact (data rank).packed space info) step
        exact ⟨nextRound, simulatesNext⟩
      · intro other
        rw [process]
        split
        · intro outside
          exact absurd outside continues.inside
        · exact untouched other
      · intro other inside none
        by_cases same : other = rank
        · subst same
          rw [LoadState.grid_of_step step, kept other inside none]
          -- a reply would be to a request
          intro source counter
          obtain ⟨info, _, _, _, _, _, wanted, _⟩ := simulates.awaited counter
          have member := wanted.2
          rw [none] at member
          cases member
        · rw [process, if_neg same]
          exact kept other inside none
      · intro other
        rw [process]
        split
        · rename_i same
          have inside : (state.process rank).entered = true := by
            by_contra outside
            exact step.of_stop (LoadProcess.effect_of_outside (by simpa using outside))
          have before := active rank
          rw [if_pos inside] at before
          rw [same, continues.active, before,
            if_pos (LoadProcess.entered_eq_true continues.inside)]
        · exact active other

end Rounds

/-! ## What a round leaves behind -/

/-- The grids before a round of `LoadSubgrid`, and that of a process after it. -/
structure LoadsRegion
    (space : GridSpaceMPI) (size globalOffset : IndexArray) (rank : Nat)
    (call : LoadCall α) (grids : Nat → GridMPI α) (after : GridMPI α) : Prop where
  data : after.SameData (grids rank)
  kept : call.requests space rank (grids rank) = [] →
    after.remoteGrid = (grids rank).remoteGrid
  active : after.remoteGridActive = (call.prepare space rank (grids rank)).remoteGridActive
  fetched : call.requests space rank (grids rank) ≠ [] →
    ∃ remote, after.remoteGrid = some remote ∧ remote.OfRegion call ∧
      ∀ cell, space.InRegion call.gridOffset call.gridSize cell →
        remote.HasCell space size globalOffset grids cell

/-- A call that asks for anything asks for every piece of its region. -/
theorem LoadCall.requests_eq_collect
    {space : GridSpaceMPI} {rank : Nat} {call : LoadCall α} {grid : GridMPI α}
    (some : call.requests space rank grid ≠ []) :
    call.requests space rank grid =
      space.collectPerProcSubgridInfo grid.globalOffset call.gridOffset
        call.gridSize := by
  have all := requests_eq_fetches some
  rw [all] at some
  rw [all, fetches]
  rw [fetches] at some
  split at some
  · exact absurd rfl some
  · rename_i listed
    split at some
    · exact absurd rfl some
    · rename_i remote
      rw [if_neg remote, listed]

/-- In any order of steps a process that returns has the owners' values it asked for. -/
theorem loadsRegion_of_returned
    {space : GridSpaceMPI} {elmSize : Nat} {size globalOffset : IndexArray}
    {grids : Nat → GridMPI α} {calls : Nat → LoadCall α}
    (distributed : Distributed space elmSize size globalOffset grids)
    (dims : 0 < space.numDims)
    (regions : ∀ rank < space.numProcs, space.RegionInside size globalOffset
      (calls rank).gridOffset (calls rank).gridSize)
    (nonneg : ∀ rank < space.numProcs, ∀ d < psMaxDim,
      0 ≤ (calls rank).gridOffset d ∧ 0 ≤ (calls rank).gridSize d)
    {bufs : Nat → Int → α} {state : LoadState α}
    (reached : Reaches (LoadState.Step space calls) (LoadState.start grids bufs)
      state)
    {rank : Nat} (bounded : rank < space.numProcs) (returned : state.Returned rank) :
    LoadsRegion space size globalOffset rank (calls rank) grids
      (state.process rank).grid := by
  obtain ⟨⟨round, simulates⟩, data, -, kept, active, told⟩ := reached.invariant
    (reusing_start distributed dims regions bufs)
    fun _ _ => reusing_step distributed dims regions nonneg
  have isReturned := returned
  simp only [LoadState.Returned] at isReturned
  have isActive := active rank
  rw [if_pos (by simp [LoadProcess.entered, isReturned])] at isActive
  refine ⟨data rank, kept rank bounded, isActive, fun some => ?_⟩
  have settled : Settled space.numProcs round rank := simulates.sound.settled bounded (by
    rw [simulates.member]
    exact told rank returned)
  -- every requested piece has been taken
  have stored : ∀ info ∈ (calls rank).requests space rank (grids rank),
      ∃ remote, (state.process rank).grid.remoteGrid = Option.some remote ∧
        remote.OfRegion (calls rank) ∧
          ∀ cell, space.InPiece info cell →
            remote.HasCell space size globalOffset grids cell := by
    intro info member
    have asked : info ∈ round.asked rank (space.peerRank info) := by
      rcases simulates.required rank (by simp [LoadProcess.entered, isReturned]) info
        ⟨bounded, member⟩ with todo | asked
      · simp [LoadProcess.todo, isReturned] at todo
      · exact asked
    have taken := settled.taken (space.peerRank info)
    have positive := List.length_pos_of_mem asked
    exact simulates.stored rank (space.peerRank info) (by omega) info asked
  obtain ⟨first, member⟩ := List.exists_mem_of_ne_nil _ some
  obtain ⟨remote, attached, ofRegion, -⟩ := stored first member
  refine ⟨remote, attached, ofRegion, fun cell inside => ?_⟩
  have region := regions rank bounded
  have fits : ∀ d < space.numDims, size d ≤ space.globalSize d := by
    intro d below
    have fit := distributed.fits d below
    rw [region.origin d below] at fit
    omega
  obtain ⟨info, piece, has⟩ := region.exists_piece fits inside
  have requested : info ∈ (calls rank).requests space rank (grids rank) := by
    rw [LoadCall.requests_eq_collect some,
      (distributed.decomposed rank bounded).globalOffset]
    exact (region.mem_iff info).mpr piece
  obtain ⟨other, otherAttached, -, holds⟩ := stored info requested
  rw [attached] at otherAttached
  cases otherAttached
  exact holds cell has

end Physis.Runtime
