import Physis.Library.Runs
import Physis.Runtime.LoadContents
import Physis.Runtime.LoadSteps

/-!
# Runs of `LoadSubgrid`

In every run of one round the processes simulate a sound service round, and
their own data stay as they were.  So what a process has when it returns can be
read off the round: everything it asked for has come, everything it was asked
has been answered, and nothing is on its way to it any more.
-/

namespace Physis.Runtime

open Physis.Library
open Physis.Library.RowMajor
open Physis.Library.Channels
open Physis.Library.Networks
open Physis.Library.ServiceRounds
open Physis.Library.Runs

variable {α : Type}

/-! ## What a step leaves alone -/

/-- The grids differ at most in the remote grid attached to them. -/
def GridMPI.SameData (grid before : GridMPI α) : Prop :=
  ∃ remote active, grid =
    { before with remoteGrid := remote, remoteGridActive := active }

namespace GridMPI.SameData

variable {grid middle before : GridMPI α}

theorem refl (grid : GridMPI α) : grid.SameData grid :=
  ⟨grid.remoteGrid, grid.remoteGridActive, rfl⟩

theorem trans (last : grid.SameData middle) (first : middle.SameData before) :
    grid.SameData before := by
  obtain ⟨remote, active, rfl⟩ := last
  obtain ⟨_, _, rfl⟩ := first
  exact ⟨remote, active, rfl⟩

theorem packed
    (same : grid.SameData before) (space : GridSpaceMPI) (info : FetchInfo) :
    grid.packed space info = before.packed space info := by
  obtain ⟨remote, active, rfl⟩ := same
  rfl

end GridMPI.SameData

namespace LoadProcess

variable {space : GridSpaceMPI} {rank : Nat} {process : LoadProcess α}

/-- The process keeps its data, and returns only when all have told it. -/
structure Continues
    (space : GridSpaceMPI) (process next : LoadProcess α) : Prop where
  data : next.grid.SameData process.grid
  active : next.grid.remoteGridActive = process.grid.remoteGridActive
  inside : next.counter ≠ .outside
  told : next.counter = .returned → next.doneCount = space.numProcs

theorem entered_eq_true (inside : process.counter ≠ .outside) :
    process.entered = true := by
  rw [entered]
  split
  · rename_i outside
    exact absurd outside inside
  · rfl

theorem dispatch_continues
    (inLoop : process.counter = .loop) (message : LoadMessage α) :
    process.Continues space (process.dispatch message) := by
  cases message with
  | request request =>
      obtain ⟨_, kind⟩ := request
      cases kind <;>
        exact ⟨.refl _, rfl, by simp [dispatch, inLoop], by simp [dispatch, inLoop]⟩
  | fetchInfo info => exact ⟨.refl _, rfl, by simp [dispatch], by simp [dispatch]⟩
  | data payload => exact ⟨.refl _, rfl, by simp [dispatch], by simp [dispatch]⟩

theorem handleFetchRequest_continues (source : Nat) (message : LoadMessage α) :
    process.Continues space (process.handleFetchRequest space source message) := by
  cases message <;>
    exact ⟨.refl _, rfl, by simp [handleFetchRequest], by simp [handleFetchRequest]⟩

theorem handleFetchReply_continues (info : FetchInfo) (message : LoadMessage α) :
    process.Continues space (process.handleFetchReply space info message) := by
  cases message with
  | request request => exact ⟨.refl _, rfl, by simp [handleFetchReply], by simp [handleFetchReply]⟩
  | fetchInfo other => exact ⟨.refl _, rfl, by simp [handleFetchReply], by simp [handleFetchReply]⟩
  | data payload =>
      simp only [handleFetchReply]
      split
      · exact ⟨.refl _, rfl, by simp, by simp⟩
      · split
        · exact ⟨.refl _, rfl, by simp, by simp⟩
        · exact ⟨⟨_, _, rfl⟩, rfl, by simp, by simp⟩

theorem continues_of_silent
    {next : LoadProcess α} (does : process.effect space rank = .silent next) :
    process.Continues space next := by
  simp only [effect] at does
  split at does
  all_goals try split at does
  all_goals try split at does
  all_goals cases does
  all_goals refine ⟨.refl _, rfl, by simp, fun returned => ?_⟩
  all_goals first | assumption | cases returned

theorem continues_of_send
    {target : Nat} {message : LoadMessage α} {next : LoadProcess α}
    (does : process.effect space rank = .send target message next) :
    process.Continues space next := by
  simp only [effect] at does
  split at does
  all_goals try split at does
  all_goals try split at does
  all_goals cases does
  all_goals exact ⟨.refl _, rfl, by simp, fun returned => by cases returned⟩

theorem continues_of_receive
    {wanted : Option Nat} {next : LoadMessage α → LoadProcess α}
    (does : process.effect space rank = .receive wanted next)
    (message : LoadMessage α) :
    process.Continues space (next message) := by
  simp only [effect] at does
  split at does
  all_goals try split at does
  all_goals try split at does
  all_goals cases does
  · exact dispatch_continues (by assumption) message
  · exact handleFetchRequest_continues _ message
  · exact handleFetchReply_continues _ message

/-- Entering attaches a remote grid at most, and is not returning. -/
theorem enter_continues
    (call : LoadCall α) (process : LoadProcess α) :
    (process.enter space rank call).grid.SameData process.grid ∧
      (process.enter space rank call).counter ≠ .returned := by
  simp only [enter]
  split
  · split
    · exact ⟨.refl _, by simp⟩
    · split
      · exact ⟨.refl _, by simp⟩
      · split
        · exact ⟨⟨_, _, rfl⟩, by simp⟩
        · exact ⟨⟨_, _, rfl⟩, by simp⟩
  · exact ⟨.refl _, by simp⟩

end LoadProcess

namespace LoadState

variable
    {space : GridSpaceMPI} {rank : Nat} {calls : Nat → LoadCall α}
    {state after : LoadState α}

theorem continues_of_step
    (step : Network.Step (LoadProcess.effect space) rank state after) :
    ∃ next, (∀ other, after.process other =
        if other = rank then next else state.process other) ∧
      (state.process rank).Continues space next := by
  cases step with
  | silent next does =>
      exact ⟨next, Network.advance_process _ _ _,
        LoadProcess.continues_of_silent does⟩
  | send target message next does =>
      exact ⟨next, Network.advance_process _ _ _,
        LoadProcess.continues_of_send does⟩
  | receive wanted source message rest next does =>
      exact ⟨next message, Network.advance_process _ _ _,
        LoadProcess.continues_of_receive does message⟩

/-- Every step leaves the processes their data. -/
theorem sameData_step
    {grids : Nat → GridMPI α}
    (data : ∀ rank, (state.process rank).grid.SameData (grids rank))
    (step : LoadState.Step space calls state after) :
    ∀ rank, (after.process rank).grid.SameData (grids rank) := by
  intro other
  cases step with
  | enter rank bounded outside =>
      rw [Network.advance_process]
      split
      · rename_i same
        rw [same]
        exact (LoadProcess.enter_continues _ _).1.trans (data rank)
      · exact data other
  | go rank bounded after step =>
      obtain ⟨next, process, continues⟩ := continues_of_step step
      rw [process]
      split
      · rename_i same
        rw [same]
        exact continues.data.trans (data rank)
      · exact data other

/-- A process that returns has been told by all. -/
theorem told_step
    (told : ∀ rank, state.Returned rank →
      (state.process rank).doneCount = space.numProcs)
    (step : LoadState.Step space calls state after) :
    ∀ rank, after.Returned rank → (after.process rank).doneCount = space.numProcs := by
  intro other returned
  cases step with
  | enter rank bounded outside =>
      rw [LoadState.Returned, Network.advance_process] at returned
      rw [Network.advance_process]
      split
      · rename_i same
        rw [if_pos same] at returned
        exact absurd returned (LoadProcess.enter_continues _ _).2
      · rename_i different
        rw [if_neg different] at returned
        exact told other returned
  | go rank bounded after step =>
      obtain ⟨next, process, continues⟩ := continues_of_step step
      rw [LoadState.Returned, process] at returned
      rw [process]
      split
      · rename_i same
        rw [if_pos same] at returned
        exact continues.told returned
      · rename_i different
        rw [if_neg different] at returned
        exact told other returned

end LoadState

/-! ## Messages are whole requests, replies and notices -/

/-- What has been sent, the rest of a parcel included, is a list of parcels. -/
def LoadState.SendsParcels (space : GridSpaceMPI) (state : LoadState α) : Prop :=
  ∀ source target, ∃ parcels : List (Parcel FetchInfo (List α)),
    state.history space source target = parcels.flatMap (parcelMessages source)

section Parcels

variable {space : GridSpaceMPI} {rank : Nat} {state after : LoadState α}

/-- A step that sends nothing keeps what has been sent. -/
theorem LoadState.SendsParcels.quiet
    (sends : state.SendsParcels space) {network : LoadState α}
    {next : LoadProcess α} (sent : network.sent = state.sent)
    (process : network.process = state.process)
    (body : ∀ target,
      next.body space target = (state.process rank).body space target) :
    LoadState.SendsParcels space (Network.advance network rank next) := by
  intro source target
  rw [LoadState.history_advance sent (fun other _ => congrFun process other) body]
  exact sends source target

/-- A send starts a parcel, or ends the one that was started. -/
theorem LoadState.SendsParcels.send
    (sends : state.SendsParcels space) {next : LoadProcess α} {to_ : Nat}
    {message : LoadMessage α} (started : List (Parcel FetchInfo (List α)))
    (body : ∀ target, (if target = to_ then [message] else []) ++
      next.body space target = (state.process rank).body space target ++
        if target = to_ then started.flatMap (parcelMessages rank) else []) :
    LoadState.SendsParcels space
      (Network.advance (Network.send state rank to_ message) rank next) := by
  intro source target
  obtain ⟨parcels, before⟩ := sends source target
  rw [LoadState.history_send body, before]
  by_cases here : source = rank ∧ target = to_
  · obtain ⟨rfl, rfl⟩ := here
    exact ⟨parcels ++ started, by simp⟩
  · refine ⟨parcels, ?_⟩
    by_cases same : source = rank
    · simp [show target ≠ to_ from fun equal => here ⟨same, equal⟩]
    · simp [same]

theorem LoadProcess.receive_body
    {process : LoadProcess α} {wanted : Option Nat}
    {next : LoadMessage α → LoadProcess α}
    (does : process.effect space rank = .receive wanted next)
    (message : LoadMessage α) (target : Nat) :
    (next message).body space target = process.body space target := by
  simp only [LoadProcess.effect] at does
  split at does
  all_goals try split at does
  all_goals try split at does
  all_goals cases does
  · rename_i inLoop _ _
    rcases message with ⟨_, kind⟩ | info | payload
    · cases kind <;> simp [LoadProcess.dispatch, LoadProcess.body, inLoop]
    · simp [LoadProcess.dispatch, LoadProcess.body, inLoop]
    · simp [LoadProcess.dispatch, LoadProcess.body, inLoop]
  · rename_i inRequest
    cases message <;>
      simp [LoadProcess.handleFetchRequest, LoadProcess.body, inRequest]
  · rename_i inReply _
    rcases message with request | info | payload
    · simp [LoadProcess.handleFetchReply, LoadProcess.body, inReply]
    · simp [LoadProcess.handleFetchReply, LoadProcess.body, inReply]
    · simp only [LoadProcess.handleFetchReply]
      split
      · simp [LoadProcess.body, inReply]
      · split <;> simp [LoadProcess.body, inReply]

theorem sendsParcels_go
    (sends : state.SendsParcels space)
    (step : Network.Step (LoadProcess.effect space) rank state after) :
    after.SendsParcels space := by
  cases step with
  | silent next does =>
      refine sends.quiet rfl rfl fun target => ?_
      simp only [LoadProcess.effect] at does
      split at does
      all_goals try split at does
      all_goals try split at does
      all_goals cases does
      all_goals simp_all [LoadProcess.body]
  | receive wanted source message rest next does =>
      exact sends.quiet rfl rfl (LoadProcess.receive_body does message)
  | send target message next does =>
      cases counter : (state.process rank).counter with
      | sendRequests todo =>
          cases todo with
          | nil => simp [LoadProcess.effect, counter] at does
          | cons info todo =>
              simp only [LoadProcess.effect, counter] at does
              split at does
              · cases does
              · cases does
                refine sends.send [.query info] fun other => ?_
                simp only [LoadProcess.body, counter, parcelMessages, List.nil_append,
                  List.flatMap_singleton]
                by_cases here : other = space.peerRank info
                · rw [if_pos here, if_pos here.symm, if_pos here]
                  rfl
                · rw [if_neg here, if_neg (Ne.symm here), if_neg here]
                  rfl
      | sendInfo info todo =>
          simp only [LoadProcess.effect, counter] at does
          cases does
          refine sends.send [] fun other => ?_
          simp [LoadProcess.body, counter, eq_comm]
      | sendReply client payload =>
          simp only [LoadProcess.effect, counter] at does
          cases does
          refine sends.send [.answer payload] fun other => ?_
          simp only [LoadProcess.body, counter, parcelMessages, List.nil_append,
            List.flatMap_singleton]
          by_cases here : other = target
          · rw [if_pos here, if_pos here.symm, if_pos here]
            rfl
          · rw [if_neg here, if_neg (Ne.symm here), if_neg here]
            rfl
      | sendData client payload =>
          simp only [LoadProcess.effect, counter] at does
          cases does
          refine sends.send [] fun other => ?_
          simp [LoadProcess.body, counter, eq_comm]
      | sendDones told =>
          simp only [LoadProcess.effect, counter] at does
          split at does
          · cases does
          · split at does
            · cases does
            · cases does
              refine sends.send [.done] fun other => ?_
              simp [LoadProcess.body, counter, parcelMessages]
      | loop =>
          simp only [LoadProcess.effect, counter] at does
          split at does
          · cases does
          · split at does <;> cases does
      | recvData source =>
          simp only [LoadProcess.effect, counter] at does
          split at does <;> cases does
      | outside => simp [LoadProcess.effect, counter] at does
      | recvInfo source => simp [LoadProcess.effect, counter] at does
      | returned => simp [LoadProcess.effect, counter] at does
      | aborted => simp [LoadProcess.effect, counter] at does

end Parcels

/-! ## The invariant of a round -/

section Runs

variable
    {space : GridSpaceMPI} {elmSize : Nat} {size globalOffset : IndexArray}
    {grids : Nat → GridMPI α} {calls : Nat → LoadCall α}

/-- What holds in every state of a round. -/
structure LoadState.Running
    (spec : FetchSpec space α) (calls : Nat → LoadCall α) (grids : Nat → GridMPI α)
    (state : LoadState α) : Prop where
  simulates : ∃ round, Simulates spec state round
  data : ∀ rank, (state.process rank).grid.SameData (grids rank)
  /-- entering attaches a remote grid, and nothing detaches it -/
  active : ∀ rank, (state.process rank).grid.remoteGridActive =
    if (state.process rank).entered then
      ((calls rank).attach space rank (grids rank)).remoteGridActive
    else (grids rank).remoteGridActive
  told : ∀ rank, state.Returned rank →
    (state.process rank).doneCount = space.numProcs
  sends : state.SendsParcels space

/-- Before any process enters nothing has happened in the round either. -/
theorem simulates_start
    (spec : FetchSpec space α) (bufs : Nat → Int → α) :
    Simulates spec (LoadState.start grids bufs) Round.start where
  sound := sound_start _ _
  member _ := rfl
  view _ _ := rfl
  asked _ _ := rfl
  askedSent _ _ := rfl
  repliedSent _ _ := rfl
  alive _ := by simp [LoadState.start]
  remaining _ := le_rfl
  todoWanted _ info member := by cases member
  askedWanted _ _ info member := by cases member
  required _ entered := by cases entered
  remote rank some := by
    rcases some with todo | ⟨server, asked⟩
    · exact absurd rfl todo
    · exact absurd rfl asked
  stored _ _ taken := absurd taken (Nat.lt_irrefl 0)

theorem running_start (spec : FetchSpec space α) (bufs : Nat → Int → α) :
    (LoadState.start grids bufs).Running spec calls grids where
  simulates := ⟨_, simulates_start spec bufs⟩
  data rank := .refl _
  active _ := rfl
  told _ returned := by cases returned
  sends _ _ := ⟨[], rfl⟩

variable
    (distributed : Distributed space elmSize size globalOffset grids)
    (dims : 0 < space.numDims)
    (regions : ∀ rank < space.numProcs, space.RegionInside size globalOffset
      (calls rank).gridOffset (calls rank).gridSize)
    (nonneg : ∀ rank < space.numProcs, ∀ d < psMaxDim,
      0 ≤ (calls rank).gridOffset d ∧ 0 ≤ (calls rank).gridSize d)
    (fresh : ∀ rank < space.numProcs, (calls rank).reuse = false)

omit distributed dims regions nonneg fresh in
/-- Whether a remote grid gets attached depends on what no step changes. -/
theorem attach_active
    {rank : Nat} {call : LoadCall α} {grid before : GridMPI α}
    (same : grid.SameData before)
    (active : grid.remoteGridActive = before.remoteGridActive) :
    (call.attach space rank grid).remoteGridActive =
      (call.attach space rank before).remoteGridActive := by
  obtain ⟨remote, flag, rfl⟩ := same
  simp only [LoadCall.attach]
  split
  · exact active
  · rfl

include nonneg fresh in
/-- Every step keeps the invariant. -/
theorem running_step
    {state after : LoadState α}
    (running : state.Running (fetchSpec distributed dims regions) calls grids)
    (step : LoadState.Step space calls state after) :
    after.Running (fetchSpec distributed dims regions) calls grids := by
  have nextData := LoadState.sameData_step running.data step
  have nextTold := LoadState.told_step running.told step
  obtain ⟨⟨round, simulates⟩, data, active, told, sends⟩ := running
  cases step with
  | enter rank bounded outside =>
      have sameOffset : (state.process rank).grid.globalOffset = globalOffset := by
        obtain ⟨remote, active, same⟩ := data rank
        rw [same]
        exact (distributed.decomposed rank bounded).globalOffset
      have entered := @LoadCall.enter_eq _ space rank (calls rank)
        (fresh rank bounded) (nonneg rank bounded) (state.process rank)
      rw [sameOffset] at entered
      refine ⟨?_, nextData, ?_, nextTold, ?_⟩
      · obtain ⟨nextRound, -, simulatesNext⟩ := simulates.enter bounded outside
          (congrArg LoadProcess.counter entered)
          (congrArg LoadProcess.fetchMap entered)
          (congrArg LoadProcess.remainingRequests entered)
          (congrArg LoadProcess.doneCount entered)
          (congrArg LoadProcess.doneSent entered)
          (fun info member =>
            (LoadCall.piece_of_mem_fetches (regions rank bounded) member).peerRank_lt)
          (LoadCall.fetches_peers_nodup (calls rank))
          (fun info member => ⟨bounded, member⟩)
          (fun info required => required.2)
          (fun some => ⟨_, by
            rw [entered]
            simp only [LoadCall.attach, sameOffset]
            rw [if_neg (by simpa using some)]
            rfl, rfl, rfl⟩)
        exact ⟨nextRound, simulatesNext⟩
      · intro other
        rw [Network.advance_process]
        split
        · rename_i same
          rw [same, entered]
          have before := active rank
          rw [if_neg (by simp [LoadProcess.entered, outside])] at before
          exact attach_active (data rank) before
        · exact active other
      · refine sends.quiet rfl rfl fun target => ?_
        rw [entered]
        simp [LoadProcess.body, outside]
  | go rank bounded after step =>
      obtain ⟨next, process, continues⟩ := LoadState.continues_of_step step
      refine ⟨?_, nextData, ?_, nextTold, sendsParcels_go sends step⟩
      · obtain ⟨nextRound, -, simulatesNext⟩ := simulates.go (by
          intro source _ info _
          exact (data rank).packed space info) step
        exact ⟨nextRound, simulatesNext⟩
      · intro other
        rw [process]
        split
        · rename_i same
          have before := active rank
          rw [show (state.process rank).entered = true by
            cases counter : (state.process rank).counter with
            | outside => exact (step.of_stop (by simp [LoadProcess.effect, counter])).elim
            | _ => simp [LoadProcess.entered, counter]] at before
          rw [same, continues.active, before,
            LoadProcess.entered_eq_true continues.inside]
        · exact active other

end Runs

/-! ## What a round has done -/

/-- The pieces a process has to fetch from another. -/
def LoadCall.fetchesFrom
    (space : GridSpaceMPI) (globalOffset : IndexArray) (calls : Nat → LoadCall α)
    (client server : Nat) : List FetchInfo :=
  ((calls client).fetches space client globalOffset).filter fun info =>
    decide (space.peerRank info = server)

theorem LoadCall.length_fetchesFrom_le
    (space : GridSpaceMPI) (globalOffset : IndexArray) (calls : Nat → LoadCall α)
    (client server : Nat) :
    (fetchesFrom space globalOffset calls client server).length ≤ 1 := by
  have once := @LoadCall.fetches_peers_nodup _ space client globalOffset (calls client)
  by_contra more
  obtain ⟨first, second, rest, listed⟩ : ∃ first second rest,
      fetchesFrom space globalOffset calls client server =
        first :: second :: rest := by
    match fetchesFrom space globalOffset calls client server, more with
    | [], more => simp at more
    | [_], more => simp at more
    | first :: second :: rest, _ => exact ⟨first, second, rest, rfl⟩
  have peers : ∀ info ∈ fetchesFrom space globalOffset calls client server,
      space.peerRank info = server := fun info member => by
    simpa using (List.mem_filter.mp member).2
  have part := (List.filter_sublist (l := (calls client).fetches space client
    globalOffset) (p := fun info => decide (space.peerRank info = server))).map
      space.peerRank
  have nodup := once.sublist part
  rw [show List.filter _ _ = first :: second :: rest from listed, List.map_cons,
    List.map_cons, peers first (by simp [listed]), peers second (by simp [listed])]
    at nodup
  simp at nodup

/-- The FETCH_REQUESTs among some messages. -/
def fetchRequestsIn (messages : List (LoadMessage α)) : Nat :=
  messages.countP fun message =>
    match message with
    | .request request => decide (request.kind = .fetchRequest)
    | _ => false

/-- In whole parcels every FETCH_REQUEST comes with a `FetchInfo`. -/
theorem fetchRequestsIn_parcels
    (source : Nat) (parcels : List (Parcel FetchInfo (List α))) :
    fetchRequestsIn (parcels.flatMap (parcelMessages source)) =
      (askedIn (parcels.flatMap (parcelMessages source))).length := by
  induction parcels with
  | nil => rfl
  | cons parcel rest induction =>
      simp only [fetchRequestsIn, askedIn] at induction
      simp only [List.flatMap_cons, fetchRequestsIn, askedIn, List.countP_append,
        List.filterMap_append, List.length_append, induction]
      cases parcel <;> rfl

/-- Two lists of at most one element with the same elements are equal. -/
theorem eq_of_length_le_one
    {β : Type} {left right : List β}
    (leftShort : left.length ≤ 1) (rightShort : right.length ≤ 1)
    (same : ∀ element, element ∈ left ↔ element ∈ right) :
    left = right := by
  match left, right, leftShort, rightShort with
  | [], [], _, _ => rfl
  | [only], [], _, _ => exact absurd ((same only).mp (by simp)) (by simp)
  | [], [only], _, _ => exact absurd ((same only).mpr (by simp)) (by simp)
  | [only], [other], _, _ => rw [List.mem_singleton.mp ((same only).mp (by simp))]
  | _ :: _ :: _, _, short, _ => simp at short
  | _, _ :: _ :: _, _, short => simp at short

/-- What is still on its way is a part of the view. -/
theorem Simulates.view_eq_nil
    {space : GridSpaceMPI} {spec : FetchSpec space α} {state : LoadState α}
    {round : Round FetchInfo (List α)} (simulates : Simulates spec state round)
    {source target : Nat} (channel : round.channel source target = []) :
    state.queue source target = [] ∧
      (state.process source).body space target = [] := by
  have view := simulates.view source target
  rw [channel, List.flatMap_nil, LoadState.view, List.append_eq_nil_iff,
    List.append_eq_nil_iff] at view
  exact ⟨view.1.2, view.2⟩

/-- What holds at any time of a round in which all processes call `LoadSubgrid`. -/
structure LoadState.RoundCorrect
    (space : GridSpaceMPI) (size globalOffset : IndexArray)
    (grids : Nat → GridMPI α) (calls : Nat → LoadCall α) (state : LoadState α) :
    Prop where
  /-- a process that returns has the owners' values, if some are not its own -/
  loaded : ∀ rank < space.numProcs, state.Returned rank →
    (∃ cell, space.InRegion (calls rank).gridOffset (calls rank).gridSize cell ∧
      ¬space.Owns rank size globalOffset cell) →
    ∃ remoteGrid, (state.process rank).grid.remoteGrid = some remoteGrid ∧
      remoteGrid.OfRegion (calls rank) ∧
        ∀ cell, space.InRegion (calls rank).gridOffset (calls rank).gridSize cell →
          remoteGrid.HasCell space size globalOffset grids cell
  /-- replies are to requests, in order, with the data asked for, and none twice -/
  answered : ∀ server client, repliedIn (state.sent server client) <+:
    (askedIn (state.sent client server)).map ((grids server).packed space)
  /-- a process that returns has answered all that any process asks of it -/
  served : ∀ server < space.numProcs, state.Returned server →
    ∀ client < space.numProcs,
      askedIn (state.sent client server) =
          LoadCall.fetchesFrom space globalOffset calls client server ∧
        fetchRequestsIn (state.sent client server) =
          (LoadCall.fetchesFrom space globalOffset calls client server).length ∧
        repliedIn (state.sent server client) =
          (LoadCall.fetchesFrom space globalOffset calls client server).map
            ((grids server).packed space)
  /-- no message is taken for one of another kind -/
  understood : ∀ rank, (state.process rank).counter ≠ .aborted
  /-- nothing is left undelivered -/
  delivered : (∀ rank < space.numProcs, state.Returned rank) →
    ∀ source target, state.queue source target = []

section Results

variable
    {space : GridSpaceMPI} {elmSize : Nat} {size globalOffset : IndexArray}
    {grids : Nat → GridMPI α} {calls : Nat → LoadCall α}
    {distributed : Distributed space elmSize size globalOffset grids}
    {dims : 0 < space.numDims}
    {regions : ∀ rank < space.numProcs, space.RegionInside size globalOffset
      (calls rank).gridOffset (calls rank).gridSize}
    {state : LoadState α} {round : Round FetchInfo (List α)}
    (simulates : Simulates (fetchSpec distributed dims regions) state round)

include simulates

theorem settled_of_returned
    {rank : Nat} (bounded : rank < space.numProcs)
    (told : (state.process rank).doneCount = space.numProcs) :
    Settled space.numProcs round rank :=
  simulates.sound.settled bounded (by
    rw [simulates.member]
    exact told)

/-- When a process returns, each has asked it for just what it has to. -/
theorem asked_of_settled
    {server : Nat} (settled : Settled space.numProcs round server)
    {client : Nat} (bounded : client < space.numProcs) :
    round.asked client server =
      LoadCall.fetchesFrom space globalOffset calls client server := by
  have finished := settled.finished client bounded
  have isIn : (state.process client).entered = true := by
    have member := simulates.member client
    by_contra outside
    rw [Bool.not_eq_true] at outside
    have unfinished := simulates.sound.told.outside client (by
      rw [member]
      exact outside)
    rw [unfinished.1] at finished
    cases finished
  have noTodo : (state.process client).todo = [] := by
    rcases settled.todo client with none | beyond
    · rw [simulates.member] at none
      exact List.map_eq_nil_iff.mp none
    · omega
  refine eq_of_length_le_one (simulates.sound.served.askedOnce client server)
    (LoadCall.length_fetchesFrom_le ..) fun info => ?_
  rw [LoadCall.fetchesFrom, List.mem_filter, decide_eq_true_iff]
  constructor
  · intro asked
    obtain ⟨peer, wanted⟩ := simulates.askedWanted client server info asked
    exact ⟨wanted.2, peer⟩
  · rintro ⟨fetched, rfl⟩
    rcases simulates.required client isIn info ⟨bounded, fetched⟩ with todo | asked
    · rw [noTodo] at todo
      cases todo
    · exact asked

/-- Replies are the data of the one piece asked for. -/
theorem replied_prefix (client server : Nat) :
    round.replied server client <+:
      (round.asked client server).map ((grids server).packed space) := by
  have served := simulates.sound.served
  have once := served.askedOnce client server
  have count := served.replied client server
  have balance := served.balance client server
  have right := served.replied_right server client
  match asked : round.asked client server, replied : round.replied server client with
  | _, [] => exact List.nil_prefix
  | [], _ :: _ =>
      rw [asked] at balance
      rw [replied] at count
      simp only [List.length_cons, List.length_nil] at balance count
      omega
  | [info], [payload] =>
      obtain ⟨query, isAsked, isReply⟩ := right payload (by rw [replied]; simp)
      rw [asked, List.mem_singleton] at isAsked
      rw [isAsked] at isReply
      rw [show payload = (grids server).packed space info from isReply]
      exact List.prefix_refl _
  | [info], _ :: _ :: _ =>
      rw [asked] at balance
      rw [replied] at count
      simp only [List.length_cons, List.length_nil] at balance count
      omega
  | _ :: _ :: _, _ =>
      rw [asked] at once
      simp at once

/-- A reply follows the whole of its request. -/
theorem replied_nil_of_unsent
    {client server : Nat} {info : FetchInfo}
    (body : .fetchInfo info ∈ (state.process client).body space server) :
    round.replied server client = [] := by
  have served := simulates.sound.served
  have inView : .fetchInfo info ∈
      (round.channel client server).flatMap (parcelMessages client) := by
    rw [← simulates.view]
    exact List.mem_append_right _ body
  obtain ⟨parcel, isIn, message⟩ := List.mem_flatMap.mp inView
  have some : 0 < queries (round.channel client server) := by
    refine List.countP_pos_iff.mpr ⟨parcel, isIn, ?_⟩
    cases parcel <;> simp [parcelMessages] at message ⊢
    rfl
  have once := served.askedOnce client server
  have count := served.replied client server
  have balance := served.balance client server
  exact List.length_eq_zero_iff.mp (by omega)

/-- Messages on their way to a process outside the round: none. -/
theorem channel_eq_nil_of_outside
    {source target : Nat} (outside : space.numProcs ≤ target) :
    round.channel source target = [] := by
  obtain ⟨served, told⟩ := simulates.sound
  have unasked := served.askedInside source target outside
  have asks := (served.outside target (told.members target outside)).2.2.2 source
  have toTarget := served.balance source target
  have fromTarget := served.balance target source
  rw [unasked, List.length_nil] at toTarget
  rw [asks, List.length_nil] at fromTarget
  have notices := told.notices source target
  have most := told.notified_le source
  rw [if_neg (by omega)] at notices
  exact eq_nil_of_counts (by omega) (by omega) (by omega)

theorem roundCorrect_of_simulates
    (sends : state.SendsParcels space)
    (told : ∀ rank, state.Returned rank →
      (state.process rank).doneCount = space.numProcs) :
    state.RoundCorrect space size globalOffset grids calls where
  loaded rank bounded returned remote := by
    have settled := settled_of_returned simulates bounded (told rank returned)
    have region := regions rank bounded
    have fits : ∀ d < space.numDims, size d ≤ space.globalSize d := by
      intro d below
      have fit := distributed.fits d below
      rw [region.origin d below] at fit
      omega
    have isIn : (state.process rank).entered = true := by
      simp only [LoadState.Returned] at returned
      simp [LoadProcess.entered, returned]
    have noTodo : (state.process rank).todo = [] := by
      simp only [LoadState.Returned] at returned
      simp [LoadProcess.todo, returned]
    obtain ⟨far, farInside, farOwner⟩ := remote
    -- a piece of another process makes the process ask for all pieces
    obtain ⟨farInfo, farPiece, farHas⟩ := region.exists_piece fits farInside
    have farPeer : space.peerRank farInfo ≠ rank := by
      intro same
      rw [← same] at farOwner
      exact farOwner (region.piece_owns farPiece farHas)
    have all := LoadCall.fetches_eq_collect ((region.mem_iff farInfo).mpr farPiece)
      farPeer
    have filled : ∀ cell,
        space.InRegion (calls rank).gridOffset (calls rank).gridSize cell →
          ∃ remoteGrid, (state.process rank).grid.remoteGrid = some remoteGrid ∧
            remoteGrid.OfRegion (calls rank) ∧
              remoteGrid.HasCell space size globalOffset grids cell := by
      intro cell inside
      obtain ⟨info, piece, has⟩ := region.exists_piece fits inside
      have fetched : info ∈ (calls rank).fetches space rank globalOffset := by
        rw [all]
        exact (region.mem_iff info).mpr piece
      have asked : info ∈ round.asked rank (space.peerRank info) := by
        rcases simulates.required rank isIn info ⟨bounded, fetched⟩ with todo | asked
        · rw [noTodo] at todo
          cases todo
        · exact asked
      have taken := settled.taken (space.peerRank info)
      have some := List.length_pos_of_mem asked
      obtain ⟨remoteGrid, attached, ofRegion, holds⟩ :=
        simulates.stored rank (space.peerRank info) (by omega) info asked
      exact ⟨remoteGrid, attached, ofRegion, holds cell has⟩
    obtain ⟨remoteGrid, attached, ofRegion, -⟩ := filled far farInside
    refine ⟨remoteGrid, attached, ofRegion, fun cell inside => ?_⟩
    obtain ⟨other, otherAttached, -, has⟩ := filled cell inside
    rw [attached] at otherAttached
    cases otherAttached
    exact has
  answered server client := by
    have prefixes := replied_prefix simulates client server
    have repliedSent := simulates.repliedSent server client
    have askedSent := simulates.askedSent client server
    have sentPrefix : repliedIn (state.sent server client) <+:
        repliedIn (state.history space server client) := by
      rw [LoadState.history, repliedIn, repliedIn, List.filterMap_append]
      exact List.prefix_append _ _
    rw [repliedSent] at sentPrefix
    by_cases unsent : ∃ info, .fetchInfo info ∈ (state.process client).body space server
    · obtain ⟨info, isRest⟩ := unsent
      rw [replied_nil_of_unsent simulates isRest, List.prefix_nil] at sentPrefix
      rw [sentPrefix]
      exact List.nil_prefix
    · have noRest : askedIn ((state.process client).body space server) = [] := by
        rw [askedIn, List.filterMap_eq_nil_iff]
        intro message isRest
        cases message with
        | request request => rfl
        | fetchInfo info => exact absurd ⟨info, isRest⟩ unsent
        | data payload => rfl
      rw [LoadState.history, askedIn, List.filterMap_append, ← askedIn, ← askedIn,
        noRest, List.append_nil] at askedSent
      rw [askedSent]
      exact sentPrefix.trans prefixes
  served server bounded returned client clientBounded := by
    have settled := settled_of_returned simulates bounded (told server returned)
    obtain ⟨-, noBody⟩ := simulates.view_eq_nil (settled.channel client)
    have noReply : (state.process server).body space client = [] := by
      simp only [LoadState.Returned] at returned
      simp [LoadProcess.body, returned]
    have asked := asked_of_settled simulates settled clientBounded
    have askedSent := simulates.askedSent client server
    have repliedSent := simulates.repliedSent server client
    rw [LoadState.history, noBody, List.append_nil] at askedSent
    rw [LoadState.history, noReply, List.append_nil] at repliedSent
    have answered := replied_prefix simulates client server
    refine ⟨askedSent.trans asked, ?_, ?_⟩
    · obtain ⟨parcels, whole⟩ := sends client server
      rw [LoadState.history, noBody, List.append_nil] at whole
      rw [whole, fetchRequestsIn_parcels, ← whole, askedSent, asked]
    · rw [repliedSent, ← asked]
      exact answered.eq_of_length (by
        rw [List.length_map, settled.answered])
  understood := simulates.alive
  delivered all source target := by
    rcases Nat.lt_or_ge target space.numProcs with inside | outside
    · exact (simulates.view_eq_nil ((settled_of_returned simulates inside
        (told target (all target inside))).channel source)).1
    · exact (simulates.view_eq_nil
        (channel_eq_nil_of_outside simulates outside)).1

end Results

end Physis.Runtime
