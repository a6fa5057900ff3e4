import Physis.Runtime.LoadRounds

/-!
# Every step of `LoadSubgrid` is a step of a service round

One lemma for each point a process can be at: what it does next is a step of
the round, or the round does not see it, and it never aborts.
-/

namespace Physis.Runtime

open Physis.Library
open Physis.Library.Channels
open Physis.Library.Networks
open Physis.Library.ServiceRounds

variable {α : Type}

/-! ## Frames -/

namespace Simulates

variable
    {space : GridSpaceMPI} {spec : FetchSpec space α}
    {state after : LoadState α} {round : Round FetchInfo (List α)} {rank : Nat}

/-- A step that asks nothing and takes no answer. -/
theorem advance
    (simulates : Simulates spec state round)
    {next : LoadProcess α} {nextRound : Round FetchInfo (List α)}
    (sound : Sound space.numProcs spec.replies nextRound)
    (asked : nextRound.asked = round.asked) (taken : nextRound.taken = round.taken)
    (process : ∀ other, after.process other =
      if other = rank then next else state.process other)
    (member : ∀ other, nextRound.member other =
      if other = rank then next.member space else round.member other)
    (view : ∀ source target, after.view space source target =
      (nextRound.channel source target).flatMap (parcelMessages source))
    (asks : ∀ server, next.asks space server = (state.process rank).asks space server)
    (askedSent : ∀ client server, askedIn (after.history space client server) =
      askedIn (state.history space client server))
    (repliedSent : ∀ server client, repliedIn (after.history space server client) =
      nextRound.replied server client)
    (alive : next.counter ≠ .aborted)
    (remaining : 0 ≤ next.remainingRequests)
    (todo : next.todo = (state.process rank).todo)
    (entered : next.entered = (state.process rank).entered)
    (remoteGrid : next.grid.remoteGrid = (state.process rank).grid.remoteGrid) :
    Simulates spec after nextRound := by
  have todoSame : ∀ other, (after.process other).todo = (state.process other).todo := by
    intro other
    rw [process]
    split
    · rename_i same
      rw [todo, same]
    · rfl
  have remoteSame : ∀ other, (after.process other).grid.remoteGrid =
      (state.process other).grid.remoteGrid := by
    intro other
    rw [process]
    split
    · rename_i same
      rw [remoteGrid, same]
    · rfl
  refine ⟨sound, ?_, view, ?_, ?_, repliedSent, ?_, ?_, ?_, ?_, ?_, ?_, ?_⟩
  · intro other
    rw [member, process]
    split
    · rfl
    · exact simulates.member other
  · intro client server
    rw [asked, process, simulates.asked]
    split
    · rename_i same
      rw [asks, same]
    · rfl
  · intro client server
    rw [askedSent, asked]
    exact simulates.askedSent client server
  · intro other
    rw [process]
    split
    · exact alive
    · exact simulates.alive other
  · intro other
    rw [process]
    split
    · exact remaining
    · exact simulates.remaining other
  · intro other
    rw [todoSame]
    exact simulates.todoWanted other
  · rw [asked]
    exact simulates.askedWanted
  · intro other isIn
    rw [todoSame, asked]
    apply simulates.required
    rw [process] at isIn
    split at isIn
    · rename_i same
      rw [entered] at isIn
      rw [same]
      exact isIn
    · exact isIn
  · intro other
    rw [todoSame, asked, remoteSame]
    exact simulates.remote other
  · intro other server
    rw [taken, asked, remoteSame]
    exact simulates.stored other server

/-- A step that the round does not see. -/
theorem stutter
    (simulates : Simulates spec state round)
    {next : LoadProcess α}
    (process : ∀ other, after.process other =
      if other = rank then next else state.process other)
    (member : next.member space = (state.process rank).member space)
    (view : ∀ source target, after.view space source target =
      state.view space source target)
    (history : ∀ source target, after.history space source target =
      state.history space source target)
    (asks : ∀ server, next.asks space server = (state.process rank).asks space server)
    (alive : next.counter ≠ .aborted)
    (remaining : 0 ≤ next.remainingRequests)
    (todo : next.todo = (state.process rank).todo)
    (remoteGrid : next.grid.remoteGrid = (state.process rank).grid.remoteGrid) :
    Simulates spec after round := by
  apply simulates.advance simulates.sound rfl rfl process _ _ asks _ _ alive remaining
    todo (congrArg Member.entered member) remoteGrid
  · intro other
    split
    · rename_i same
      rw [member, same, simulates.member]
    · rfl
  · intro source target
    rw [view]
    exact simulates.view source target
  · intro client server
    rw [history]
  · intro server client
    rw [history]
    exact simulates.repliedSent server client

/-! ## Entering -/

theorem member_outside
    (simulates : Simulates spec state round)
    (outside : (state.process rank).counter = .outside) :
    round.member rank = ⟨false, [], 0, none, false, 0, 0⟩ ∧
      ∀ server, round.asked rank server = [] := by
  obtain ⟨served, told⟩ := simulates.sound
  have entered : (round.member rank).entered = false := by
    rw [simulates.member]
    simp [LoadProcess.member, LoadProcess.entered, outside]
  obtain ⟨todo, waiting, serving, asked⟩ := served.outside rank entered
  obtain ⟨finished, counted⟩ := told.outside rank entered
  have notified : (round.member rank).notified = 0 := by
    by_contra positive
    have impossible := told.notified rank (by omega)
    rw [finished] at impossible
    cases impossible
  refine ⟨?_, asked⟩
  cases member : round.member rank
  simp_all

theorem enter
    (simulates : Simulates spec state round) (bounded : rank < space.numProcs)
    (outside : (state.process rank).counter = .outside)
    {next : LoadProcess α} {todo : List FetchInfo}
    (counter : next.counter = .sendRequests todo)
    (fetchMap : next.fetchMap = fun _ => none)
    (remaining : next.remainingRequests = 0) (doneCount : next.doneCount = 0)
    (doneSent : next.doneSent = false)
    (servers : ∀ info ∈ todo, space.peerRank info < space.numProcs)
    (once : (todo.map space.peerRank).Nodup)
    (wanted : ∀ info ∈ todo, spec.wanted rank info)
    (required : ∀ info, spec.required rank info → info ∈ todo)
    (remote : todo ≠ [] → ∃ remoteGrid, next.grid.remoteGrid = some remoteGrid ∧
      spec.remote rank remoteGrid) :
    ∃ nextRound, ServiceRounds.Step space.numProcs spec.replies round nextRound ∧
      Simulates spec (Network.advance state rank next) nextRound := by
  obtain ⟨member, asked⟩ := simulates.member_outside outside
  have step := @ServiceRounds.Step.enter _ _ space.numProcs spec.replies round rank
    (todo.map fun info => (space.peerRank info, info)) bounded
    (by rw [member]) (by simpa using servers)
    (by simpa [Function.comp_def] using once)
  refine ⟨_, step, ?_⟩
  have noHeader : ∀ source, next.header source =
      (state.process rank).header source := by
    intro source
    simp [LoadProcess.header, counter, outside]
  have noBody : ∀ target, next.body space target =
      (state.process rank).body space target := by
    intro target
    simp [LoadProcess.body, counter, outside]
  have history := LoadState.history_advance
    (show state.sent = state.sent from rfl) (fun _ _ => rfl) noBody
  have isTodo : next.todo = todo := by
    simp [LoadProcess.todo, counter]
  refine ⟨simulates.sound.step step, ?_, ?_, ?_, ?_, ?_, ?_, ?_, ?_, ?_, ?_, ?_, ?_⟩
  · intro other
    rw [Round.advance_member, Network.advance_process]
    split
    · rw [member]
      simp [LoadProcess.member, LoadProcess.entered, LoadProcess.todo,
        LoadProcess.asking, LoadProcess.serving, LoadProcess.finished,
        LoadProcess.notified, counter, remaining, doneCount, doneSent]
    · exact simulates.member other
  · intro source target
    rw [LoadState.view_advance noHeader noBody]
    exact simulates.view source target
  · intro client server
    rw [Round.advance_asked, Network.advance_process]
    split
    · rename_i same
      rw [same, asked]
      simp [LoadProcess.asks, LoadProcess.asking, counter, fetchMap]
    · exact simulates.asked client server
  · intro client server
    rw [history]
    exact simulates.askedSent client server
  · intro server client
    rw [history]
    exact simulates.repliedSent server client
  · intro other
    rw [Network.advance_process]
    split
    · rw [counter]
      simp
    · exact simulates.alive other
  · intro other
    rw [Network.advance_process]
    split
    · rw [remaining]
    · exact simulates.remaining other
  · intro other
    rw [Network.advance_process]
    split
    · rename_i same
      rw [isTodo, same]
      exact wanted
    · exact simulates.todoWanted other
  · exact simulates.askedWanted
  · intro other isIn info needed
    rw [Network.advance_process] at isIn ⊢
    split
    · rename_i same
      rw [isTodo]
      rw [same] at needed
      exact Or.inl (required info needed)
    · rename_i different
      rw [if_neg different] at isIn
      exact simulates.required other isIn info needed
  · intro other
    rw [Network.advance_process, Round.advance_asked]
    split
    · rename_i same
      rw [isTodo, same]
      rintro (some | ⟨server, impossible⟩)
      · exact remote some
      · exact absurd (asked server) impossible
    · exact simulates.remote other
  · intro other server
    rw [Network.advance_process, Round.advance_taken, Round.advance_asked]
    split
    · rename_i same
      rw [same, asked]
      intro _ info impossible
      cases impossible
    · exact simulates.stored other server

/-! ## Asking -/

/-- A silent step to a point that the round sees as the same. -/
theorem silent
    (simulates : Simulates spec state round) {counter : LoadCounter α}
    {doneSent : Bool}
    (member : ({ state.process rank with
        counter := counter, doneSent := doneSent } : LoadProcess α).member space =
      (state.process rank).member space)
    (header : ∀ source, ({ state.process rank with
        counter := counter, doneSent := doneSent } : LoadProcess α).header source =
      (state.process rank).header source)
    (body : ∀ target, ({ state.process rank with
        counter := counter, doneSent := doneSent } : LoadProcess α).body space target =
      (state.process rank).body space target)
    (asking : ({ state.process rank with
        counter := counter, doneSent := doneSent } : LoadProcess α).asking =
      (state.process rank).asking)
    (todo : ({ state.process rank with
        counter := counter, doneSent := doneSent } : LoadProcess α).todo =
      (state.process rank).todo)
    (alive : counter ≠ .aborted) :
    Simulates spec (Network.advance state rank
      { state.process rank with counter := counter, doneSent := doneSent }) round := by
  apply simulates.stutter (fun other => Network.advance_process _ _ _ other) member
    (LoadState.view_advance header body)
    (LoadState.history_advance (show state.sent = state.sent from rfl)
      (fun _ _ => rfl) body) _ alive (simulates.remaining rank) todo rfl
  intro server
  simp only [LoadProcess.asks, asking]

theorem ask
    (simulates : Simulates spec state round) {info : FetchInfo} {todo : List FetchInfo}
    (counter : (state.process rank).counter = .sendRequests (info :: todo)) :
    ∃ nextRound, ServiceRounds.Step space.numProcs spec.replies round nextRound ∧
      Simulates spec
        (Network.advance
          (Network.send state rank (space.peerRank info)
            (.request ⟨rank, .fetchRequest⟩)) rank
          { state.process rank with counter := .sendInfo info todo }) nextRound := by
  have nextTodo : (round.member rank).todo =
      (space.peerRank info, info) :: todo.map fun info => (space.peerRank info, info) := by
    rw [simulates.member]
    simp [LoadProcess.member, LoadProcess.todo, counter]
  have step := @ServiceRounds.Step.ask _ _ space.numProcs spec.replies round rank
    (space.peerRank info) info _ nextTodo
  refine ⟨_, step, ?_⟩
  have header : ∀ source, ({ state.process rank with
      counter := .sendInfo info todo } : LoadProcess α).header source =
      (state.process rank).header source := by
    intro source
    simp [LoadProcess.header, counter]
  have body : ∀ target, (if target = space.peerRank info then
        [LoadMessage.request ⟨rank, .fetchRequest⟩] else []) ++
      ({ state.process rank with
        counter := .sendInfo info todo } : LoadProcess α).body space target =
      (state.process rank).body space target ++
        if target = space.peerRank info then
          parcelMessages rank (.query info) else [] := by
    intro target
    simp only [LoadProcess.body, counter, parcelMessages, List.nil_append]
    by_cases here : target = space.peerRank info
    · rw [if_pos here, if_pos here.symm, if_pos here]
      rfl
    · rw [if_neg here, if_neg fun equal => here equal.symm, if_neg here]
      rfl
  have view := LoadState.view_send header body
  have history := LoadState.history_send body
  have wantedHere : spec.wanted rank info :=
    simulates.todoWanted rank info (by simp [LoadProcess.todo, counter])
  refine ⟨simulates.sound.step step, ?_, ?_, ?_, ?_, ?_, ?_, ?_, ?_, ?_, ?_, ?_, ?_⟩
  · intro other
    refine (Round.advance_member _ _ _ other).trans ?_
    rw [Network.advance_process]
    split
    · rw [simulates.member]
      simp [LoadProcess.member, LoadProcess.entered, LoadProcess.todo,
        LoadProcess.asking, LoadProcess.serving, LoadProcess.finished,
        LoadProcess.notified, counter]
    · exact simulates.member other
  · intro source target
    rw [view, simulates.view]
    refine Eq.trans ?_ (congrArg (List.flatMap (parcelMessages source))
      (push_apply round.channel rank (space.peerRank info) (.query info) source
        target).symm)
    by_cases same : source = rank
    · subst same
      by_cases here : target = space.peerRank info
      · subst here
        simp
      · simp [here]
    · simp [same]
  · intro client server
    refine (push_apply round.asked rank (space.peerRank info) info client server).trans ?_
    rw [Network.advance_process]
    by_cases same : client = rank
    · subst same
      rw [if_pos rfl]
      by_cases here : server = space.peerRank info
      · subst here
        rw [if_pos ⟨rfl, rfl⟩, simulates.asked]
        simp [LoadProcess.asks, LoadProcess.asking, counter]
      · rw [if_neg fun equal => here equal.2, simulates.asked]
        simp [LoadProcess.asks, LoadProcess.asking, counter, Ne.symm here]
    · rw [if_neg fun equal => same equal.1, if_neg same]
      exact simulates.asked client server
  · intro client server
    rw [history, askedIn, List.filterMap_append]
    refine Eq.trans ?_
      (push_apply round.asked rank (space.peerRank info) info client server).symm
    rw [← askedIn, simulates.askedSent]
    by_cases same : client = rank
    · subst same
      by_cases here : server = space.peerRank info
      · subst here
        simp [parcelMessages]
      · simp [here]
    · simp [same]
  · intro server client
    rw [history, repliedIn, List.filterMap_append, ← repliedIn, simulates.repliedSent]
    by_cases same : server = rank
    · subst same
      by_cases here : client = space.peerRank info
      · subst here
        simp [parcelMessages]
      · simp [here]
    · simp [same]
  · intro other
    rw [Network.advance_process]
    split
    · simp
    · exact simulates.alive other
  · intro other
    rw [Network.advance_process]
    split
    · exact simulates.remaining rank
    · exact simulates.remaining other
  · intro other
    rw [Network.advance_process]
    split
    · rename_i same
      rw [same]
      intro later member
      apply simulates.todoWanted rank later
      simp only [LoadProcess.todo, counter] at member ⊢
      exact List.mem_cons_of_mem _ member
    · exact simulates.todoWanted other
  · intro client server later member
    have pushed : later ∈ push round.asked rank (space.peerRank info) info client server :=
      member
    rw [push_apply] at pushed
    split at pushed
    · rename_i same
      obtain ⟨rfl, rfl⟩ := same
      rw [List.mem_append, List.mem_singleton] at pushed
      rcases pushed with before | rfl
      · exact simulates.askedWanted _ _ later before
      · exact ⟨rfl, wantedHere⟩
    · exact simulates.askedWanted client server later pushed
  · intro other isIn needed require
    have grown := (prefix_push round.asked rank (space.peerRank info) info other
      (space.peerRank needed)).subset
    rw [Network.advance_process] at isIn ⊢
    by_cases same : other = rank
    · subst same
      rw [if_pos rfl]
      have before := simulates.required other
        (by simp [LoadProcess.entered, counter]) needed require
      simp only [LoadProcess.todo, counter, List.mem_cons] at before ⊢
      rcases before with (rfl | later) | already
      · refine Or.inr ?_
        rw [push_same]
        exact List.mem_append_right _ (List.mem_singleton_self _)
      · exact Or.inl later
      · exact Or.inr (grown already)
    · rw [if_neg same] at isIn ⊢
      exact (simulates.required other isIn needed require).imp_right fun member =>
        grown member
  · intro other needed
    rw [Network.advance_process]
    by_cases same : other = rank
    · subst same
      rw [if_pos rfl]
      exact simulates.remote other (Or.inl (by simp [LoadProcess.todo, counter]))
    · rw [Network.advance_process, if_neg same] at needed
      rw [if_neg same]
      apply simulates.remote other
      refine needed.imp_right ?_
      rintro ⟨server, nonempty⟩
      have pushed : push round.asked rank (space.peerRank info) info other server ≠ [] :=
        nonempty
      rw [push_apply, if_neg fun equal => same equal.1] at pushed
      exact ⟨server, pushed⟩
  · intro other server taken held member
    have takenBefore : 0 < round.taken other server := taken
    have pushed : held ∈ push round.asked rank (space.peerRank info) info other server :=
      member
    have remoteSame : ((Network.advance (Network.send state rank (space.peerRank info)
        (.request ⟨rank, .fetchRequest⟩)) rank
        { state.process rank with counter := .sendInfo info todo }).process
          other).grid.remoteGrid = (state.process other).grid.remoteGrid := by
      rw [Network.advance_process]
      split
      · rename_i same
        rw [same]
      · rfl
    rw [remoteSame]
    rw [push_apply] at pushed
    split at pushed
    · rename_i same
      obtain ⟨rfl, rfl⟩ := same
      -- nothing was asked there before, so no answer was taken
      have unasked := simulates.sound.served.unasked other (space.peerRank info, info)
        (by rw [nextTodo]; simp)
      have balance := simulates.sound.served.balance other (space.peerRank info)
      simp only at unasked
      rw [unasked, List.length_nil] at balance
      omega
    · exact simulates.stored other server takenBefore held pushed

/-- The second message of a request: the round has seen the request already. -/
theorem sendInfo
    (simulates : Simulates spec state round) {info : FetchInfo} {todo : List FetchInfo}
    (counter : (state.process rank).counter = .sendInfo info todo) :
    Simulates spec
      (Network.advance
        (Network.send state rank (space.peerRank info) (.fetchInfo info)) rank
        { state.process rank with
          counter := .sendRequests todo
          remainingRequests := (state.process rank).remainingRequests + 1
          fetchMap :=
            if ((state.process rank).fetchMap (space.peerRank info)).isNone then
              Function.update (state.process rank).fetchMap (space.peerRank info)
                (some info)
            else (state.process rank).fetchMap }) round := by
  have asked := simulates.asked rank (space.peerRank info)
  have once := simulates.sound.served.askedOnce rank (space.peerRank info)
  have none : (state.process rank).fetchMap (space.peerRank info) = none := by
    rw [asked] at once
    simp only [LoadProcess.asks, LoadProcess.asking, counter, Option.toList_some,
      List.filter_singleton, decide_true, List.length_append] at once
    cases entry : (state.process rank).fetchMap (space.peerRank info) with
    | none => rfl
    | some other =>
        rw [entry] at once
        simp at once
  rw [none, Option.isNone_none, if_pos rfl]
  have remaining := simulates.remaining rank
  have header : ∀ source, ({ state.process rank with
      counter := .sendRequests todo
      remainingRequests := (state.process rank).remainingRequests + 1
      fetchMap := Function.update (state.process rank).fetchMap (space.peerRank info)
        (some info) } : LoadProcess α).header source =
      (state.process rank).header source := by
    intro source
    simp [LoadProcess.header, counter]
  have body : ∀ target, (if target = space.peerRank info then
        [LoadMessage.fetchInfo info] else []) ++
      ({ state.process rank with
        counter := .sendRequests todo
        remainingRequests := (state.process rank).remainingRequests + 1
        fetchMap := Function.update (state.process rank).fetchMap
          (space.peerRank info) (some info) } : LoadProcess α).body space target =
      (state.process rank).body space target ++ [] := by
    intro target
    simp only [LoadProcess.body, counter, List.append_nil]
    by_cases here : target = space.peerRank info
    · rw [if_pos here, if_pos here.symm]
    · rw [if_neg here, if_neg fun equal => here equal.symm]
  have view := LoadState.view_send header body
  have history := LoadState.history_send body
  have asks : ∀ server, ({ state.process rank with
      counter := .sendRequests todo
      remainingRequests := (state.process rank).remainingRequests + 1
      fetchMap := Function.update (state.process rank).fetchMap (space.peerRank info)
        (some info) } : LoadProcess α).asks space server =
      (state.process rank).asks space server := by
    intro server
    simp only [LoadProcess.asks, LoadProcess.asking, counter]
    by_cases here : server = space.peerRank info
    · subst here
      simp [none]
    · rw [Function.update_of_ne here]
      simp [Ne.symm here]
  have member : ({ state.process rank with
      counter := .sendRequests todo
      remainingRequests := (state.process rank).remainingRequests + 1
      fetchMap := Function.update (state.process rank).fetchMap (space.peerRank info)
        (some info) } : LoadProcess α).member space =
      (state.process rank).member space := by
    simp only [LoadProcess.member, LoadProcess.entered, LoadProcess.todo,
      LoadProcess.asking, LoadProcess.serving, LoadProcess.finished,
      LoadProcess.notified, counter, Member.mk.injEq, true_and, and_true]
    simp only [Option.toList_none, Option.toList_some, List.length_nil,
      List.length_singleton]
    omega
  refine simulates.stutter (fun other => Network.advance_process _ _ _ other) member
    ?_ ?_ asks (by simp) (by simp only; omega) ?_ rfl
  · intro source target
    rw [view]
    simp
  · intro source target
    rw [history]
    simp
  · simp [LoadProcess.todo, counter]

/-! ## The loop -/

/-- A process in the loop sees the first message of the first parcel of a source. -/
theorem receive_first
    (simulates : Simulates spec state round) {source : Nat}
    {message : LoadMessage α} {rest : List (LoadMessage α)}
    (header : (state.process rank).header source = [])
    (first : state.queue source rank = message :: rest) :
    ∃ parcel parcels, round.channel source rank = parcel :: parcels ∧
      message :: (rest ++ (state.process source).body space rank) =
        parcelMessages source parcel ++ parcels.flatMap (parcelMessages source) := by
  have view := simulates.view source rank
  rw [LoadState.view, header, first] at view
  cases channel : round.channel source rank with
  | nil =>
      rw [channel] at view
      cases view
  | cons parcel parcels =>
      rw [channel] at view
      exact ⟨parcel, parcels, rfl, view⟩

theorem finish
    (simulates : Simulates spec state round)
    (counter : (state.process rank).counter = .loop)
    (remaining : (state.process rank).remainingRequests = 0)
    (doneSent : (state.process rank).doneSent = false) :
    ∃ nextRound, ServiceRounds.Step space.numProcs spec.replies round nextRound ∧
      Simulates spec
        (Network.advance state rank
          { state.process rank with counter := .sendDones 0 }) nextRound := by
  have member := simulates.member rank
  have step := @ServiceRounds.Step.finish _ _ space.numProcs spec.replies round rank
    (by rw [member]; simp [LoadProcess.member, LoadProcess.entered, counter])
    (by rw [member]; simp [LoadProcess.member, LoadProcess.todo, counter])
    (by
      rw [member]
      simp [LoadProcess.member, LoadProcess.asking, counter, remaining])
  refine ⟨_, step, ?_⟩
  have header : ∀ source, ({ state.process rank with
      counter := .sendDones 0 } : LoadProcess α).header source =
      (state.process rank).header source := by
    intro source
    simp [LoadProcess.header, counter]
  have body : ∀ target, ({ state.process rank with
      counter := .sendDones 0 } : LoadProcess α).body space target =
      (state.process rank).body space target := by
    intro target
    simp [LoadProcess.body, counter]
  have history := LoadState.history_advance
    (show state.sent = state.sent from rfl) (fun _ _ => rfl) body
  refine simulates.advance (simulates.sound.step step) rfl rfl
    (fun other => Network.advance_process _ _ _ other) ?_ ?_ ?_ ?_ ?_ (by simp)
    (simulates.remaining rank) ?_ ?_ rfl
  · intro other
    rw [Round.advance_member]
    split
    · rw [member]
      simp [LoadProcess.member, LoadProcess.entered, LoadProcess.todo,
        LoadProcess.asking, LoadProcess.serving, LoadProcess.finished,
        LoadProcess.notified, counter, doneSent]
    · rfl
  · intro source target
    rw [LoadState.view_advance header body]
    exact simulates.view source target
  · intro server
    simp [LoadProcess.asks, LoadProcess.asking, counter]
  · intro client server
    rw [history]
  · intro server client
    rw [history]
    exact simulates.repliedSent server client
  · simp [LoadProcess.todo, counter]
  · simp [LoadProcess.entered, counter]

/-- A process in the loop takes a notice. -/
theorem hear
    (simulates : Simulates spec state round)
    (counter : (state.process rank).counter = .loop) {source : Nat}
    {rest : List (LoadMessage α)} {parcels : List (Parcel FetchInfo (List α))}
    (channel : round.channel source rank = .done :: parcels)
    (left : rest ++ (state.process source).body space rank =
      parcels.flatMap (parcelMessages source)) :
    ∃ nextRound, ServiceRounds.Step space.numProcs spec.replies round nextRound ∧
      Simulates spec
        (Network.advance (Network.receive state source rank rest) rank
          { state.process rank with
            doneCount := (state.process rank).doneCount + 1 }) nextRound := by
  have member := simulates.member rank
  have step := @ServiceRounds.Step.hear _ _ space.numProcs spec.replies round rank
    source parcels
    (by rw [member]; simp [LoadProcess.member, LoadProcess.entered, counter]) channel
  refine ⟨_, step, ?_⟩
  have header : ∀ from_, from_ ≠ source → ({ state.process rank with
      doneCount := (state.process rank).doneCount + 1 } : LoadProcess α).header from_ =
      (state.process rank).header from_ :=
    fun _ _ => rfl
  have body : ∀ target, ({ state.process rank with
      doneCount := (state.process rank).doneCount + 1 } : LoadProcess α).body space
        target = (state.process rank).body space target :=
    fun _ => rfl
  have history := LoadState.history_advance
    (show (Network.receive state source rank rest).sent = state.sent from rfl)
    (fun _ _ => rfl) body
  refine simulates.advance (simulates.sound.step step) rfl rfl
    (fun other => Network.advance_process _ _ _ other) ?_ ?_ (fun _ => rfl) ?_ ?_
    (by simp [counter]) (simulates.remaining rank) rfl rfl rfl
  · intro other
    refine (Round.advance_member _ _ _ other).trans ?_
    split
    · rw [member]
      rfl
    · rfl
  · intro from_ target
    rw [LoadState.view_receive header body]
    refine Eq.trans ?_ (congrArg (List.flatMap (parcelMessages from_))
      (assign_apply round.channel source rank parcels from_ target).symm)
    split
    · rename_i same
      rw [same.1, ← left]
      simp [LoadProcess.header, counter]
    · exact simulates.view from_ target
  · intro client server
    rw [history]
  · intro server client
    rw [history]
    exact simulates.repliedSent server client

/-- A process in the loop takes the first message of a request or a reply. -/
theorem receiveHeader
    (simulates : Simulates spec state round)
    (counter : (state.process rank).counter = .loop) {source : Nat}
    {message : LoadMessage α} {rest : List (LoadMessage α)} {next : LoadCounter α}
    (first : state.queue source rank = message :: rest)
    (request : message = .request ⟨source, .fetchRequest⟩ ∧ next = .recvInfo source ∨
      message = .request ⟨source, .fetchReply⟩ ∧ next = .recvData source) :
    Simulates spec
      (Network.advance (Network.receive state source rank rest) rank
        { state.process rank with counter := next }) round := by
  have header : ∀ from_, from_ ≠ source →
      ({ state.process rank with counter := next } : LoadProcess α).header from_ =
        (state.process rank).header from_ := by
    intro from_ different
    rcases request with ⟨_, rfl⟩ | ⟨_, rfl⟩ <;>
      simp [LoadProcess.header, counter, Ne.symm different]
  have headerHere :
      ({ state.process rank with counter := next } : LoadProcess α).header source =
        [message] := by
    rcases request with ⟨rfl, rfl⟩ | ⟨rfl, rfl⟩ <;> simp [LoadProcess.header]
  have body : ∀ target,
      ({ state.process rank with counter := next } : LoadProcess α).body space target =
        (state.process rank).body space target := by
    intro target
    rcases request with ⟨_, rfl⟩ | ⟨_, rfl⟩ <;> simp [LoadProcess.body, counter]
  have history := LoadState.history_advance
    (show (Network.receive state source rank rest).sent = state.sent from rfl)
    (fun _ _ => rfl) body
  refine simulates.stutter (fun other => Network.advance_process _ _ _ other) ?_ ?_
    history ?_ ?_ (simulates.remaining rank) ?_ rfl
  · rcases request with ⟨_, rfl⟩ | ⟨_, rfl⟩ <;>
      simp [LoadProcess.member, LoadProcess.entered, LoadProcess.todo,
        LoadProcess.asking, LoadProcess.serving, LoadProcess.finished,
        LoadProcess.notified, counter]
  · intro from_ target
    rw [LoadState.view_receive header body]
    split
    · rename_i same
      rw [same.1, same.2, headerHere, LoadState.view, first]
      simp [LoadProcess.header, counter]
    · rfl
  · intro server
    rcases request with ⟨_, rfl⟩ | ⟨_, rfl⟩ <;>
      simp [LoadProcess.asks, LoadProcess.asking, counter]
  · rcases request with ⟨_, rfl⟩ | ⟨_, rfl⟩ <;> simp
  · rcases request with ⟨_, rfl⟩ | ⟨_, rfl⟩ <;> simp [LoadProcess.todo, counter]

/-! ## Notices -/

theorem notify
    (simulates : Simulates spec state round) {told : Nat}
    (counter : (state.process rank).counter = .sendDones told)
    (room : told ≠ space.numProcs) (other : told ≠ rank) :
    ∃ nextRound, ServiceRounds.Step space.numProcs spec.replies round nextRound ∧
      Simulates spec
        (Network.advance
          (Network.send state rank told (.request ⟨rank, .done⟩)) rank
          { state.process rank with counter := .sendDones (told + 1) }) nextRound := by
  have member := simulates.member rank
  have notified : (round.member rank).notified = told := by
    rw [member]
    simp [LoadProcess.member, LoadProcess.notified, counter]
  have atMost := simulates.sound.told.notified_le rank
  have step := @ServiceRounds.Step.notify _ _ space.numProcs spec.replies round rank
    (by rw [member]; simp [LoadProcess.member, LoadProcess.finished, counter])
    (by omega) (by rw [notified]; exact other)
  refine ⟨_, step, ?_⟩
  have header : ∀ source, ({ state.process rank with
      counter := .sendDones (told + 1) } : LoadProcess α).header source =
      (state.process rank).header source := by
    intro source
    simp [LoadProcess.header, counter]
  have body : ∀ target, (if target = told then
        [LoadMessage.request ⟨rank, .done⟩] else []) ++
      ({ state.process rank with
        counter := .sendDones (told + 1) } : LoadProcess α).body space target =
      (state.process rank).body space target ++
        if target = told then parcelMessages rank .done else [] := by
    intro target
    simp [LoadProcess.body, counter, parcelMessages]
  have view := LoadState.view_send header body
  have history := LoadState.history_send body
  refine simulates.advance (simulates.sound.step step) rfl rfl
    (fun other => Network.advance_process _ _ _ other) ?_ ?_ ?_ ?_ ?_ (by simp)
    (simulates.remaining rank) ?_ ?_ rfl
  · intro process
    refine (Round.advance_member _ _ _ process).trans ?_
    split
    · rw [member]
      simp [LoadProcess.member, LoadProcess.entered, LoadProcess.todo,
        LoadProcess.asking, LoadProcess.serving, LoadProcess.finished,
        LoadProcess.notified, counter]
    · rfl
  · intro source target
    rw [view, simulates.view]
    refine Eq.trans ?_ (congrArg (List.flatMap (parcelMessages source))
      (push_apply round.channel rank _ .done source target).symm)
    rw [notified]
    by_cases same : source = rank
    · subst same
      by_cases here : target = told
      · subst here
        simp
      · simp [here]
    · simp [same]
  · intro server
    simp [LoadProcess.asks, LoadProcess.asking, counter]
  · intro client server
    rw [history, askedIn, List.filterMap_append, ← askedIn]
    by_cases same : client = rank
    · by_cases here : server = told
      · simp [same, here, parcelMessages]
      · simp [here]
    · simp [same]
  · intro server client
    rw [history, repliedIn, List.filterMap_append, ← repliedIn, simulates.repliedSent]
    by_cases same : server = rank
    · by_cases here : client = told
      · simp [same, here, parcelMessages]
      · simp [here]
    · simp [same]
  · simp [LoadProcess.todo, counter]
  · simp [LoadProcess.entered, counter]

theorem notifySelf
    (simulates : Simulates spec state round)
    (counter : (state.process rank).counter = .sendDones rank)
    (room : rank ≠ space.numProcs) :
    ∃ nextRound, ServiceRounds.Step space.numProcs spec.replies round nextRound ∧
      Simulates spec
        (Network.advance state rank
          { state.process rank with
            doneCount := (state.process rank).doneCount + 1
            counter := .sendDones (rank + 1) }) nextRound := by
  have member := simulates.member rank
  have notified : (round.member rank).notified = rank := by
    rw [member]
    simp [LoadProcess.member, LoadProcess.notified, counter]
  have atMost := simulates.sound.told.notified_le rank
  have step := @ServiceRounds.Step.notifySelf _ _ space.numProcs spec.replies round rank
    (by rw [member]; simp [LoadProcess.member, LoadProcess.finished, counter])
    (by omega) notified
  refine ⟨_, step, ?_⟩
  have header : ∀ source, ({ state.process rank with
      doneCount := (state.process rank).doneCount + 1
      counter := .sendDones (rank + 1) } : LoadProcess α).header source =
      (state.process rank).header source := by
    intro source
    simp [LoadProcess.header, counter]
  have body : ∀ target, ({ state.process rank with
      doneCount := (state.process rank).doneCount + 1
      counter := .sendDones (rank + 1) } : LoadProcess α).body space target =
      (state.process rank).body space target := by
    intro target
    simp [LoadProcess.body, counter]
  have history := LoadState.history_advance
    (show state.sent = state.sent from rfl) (fun _ _ => rfl) body
  refine simulates.advance (simulates.sound.step step) rfl rfl
    (fun other => Network.advance_process _ _ _ other) ?_ ?_ ?_ ?_ ?_ (by simp)
    (simulates.remaining rank) ?_ ?_ rfl
  · intro other
    rw [Round.advance_member]
    split
    · rw [member]
      simp [LoadProcess.member, LoadProcess.entered, LoadProcess.todo,
        LoadProcess.asking, LoadProcess.serving, LoadProcess.finished,
        LoadProcess.notified, counter]
    · rfl
  · intro source target
    rw [LoadState.view_advance header body]
    exact simulates.view source target
  · intro server
    simp [LoadProcess.asks, LoadProcess.asking, counter]
  · intro client server
    rw [history]
  · intro server client
    rw [history]
    exact simulates.repliedSent server client
  · simp [LoadProcess.todo, counter]
  · simp [LoadProcess.entered, counter]

/-! ## Serving -/

/-- The parcel a process has taken the first message of. -/
theorem handled_parcel
    (simulates : Simulates spec state round) {source : Nat}
    {kind : GridRequestKind}
    (header : (state.process rank).header source = [.request ⟨source, kind⟩]) :
    ∃ parcel parcels, round.channel source rank = parcel :: parcels ∧
      .request ⟨source, kind⟩ :: (state.queue source rank ++
          (state.process source).body space rank) =
        parcelMessages source parcel ++ parcels.flatMap (parcelMessages source) := by
  have view := simulates.view source rank
  rw [LoadState.view, header] at view
  cases channel : round.channel source rank with
  | nil =>
      rw [channel] at view
      cases view
  | cons parcel parcels =>
      rw [channel] at view
      exact ⟨parcel, parcels, rfl, view⟩

/-- A process in the middle of a request gets the request's `FetchInfo`, and serves it. -/
theorem serve
    (simulates : Simulates spec state round) {source : Nat}
    (counter : (state.process rank).counter = .recvInfo source)
    (right : ∀ info ∈ round.asked source rank,
      spec.replies rank info ((state.process rank).grid.packed space info))
    {message : LoadMessage α} {rest : List (LoadMessage α)}
    (first : state.queue source rank = message :: rest) :
    ∃ nextRound, ServiceRounds.Step space.numProcs spec.replies round nextRound ∧
      Simulates spec
        (Network.advance (Network.receive state source rank rest) rank
          ((state.process rank).handleFetchRequest space source message))
        nextRound := by
  have member := simulates.member rank
  obtain ⟨parcel, parcels, channel, messages⟩ := simulates.handled_parcel
    (show (state.process rank).header source =
      [.request ⟨source, .fetchRequest⟩] by simp [LoadProcess.header, counter])
  rw [first] at messages
  cases parcel with
  | done => simp [parcelMessages] at messages
  | answer payload => simp [parcelMessages] at messages
  | query info =>
      simp only [parcelMessages, List.cons_append, List.nil_append, List.cons.injEq,
        true_and] at messages
      obtain ⟨rfl, left⟩ := messages
      have asked := simulates.sound.served.query_asked source rank info
        (by rw [channel]; simp)
      have step := @ServiceRounds.Step.serve _ _ space.numProcs spec.replies round rank
        source info ((state.process rank).grid.packed space info) parcels
        (by rw [member]; simp [LoadProcess.member, LoadProcess.entered, counter])
        (by rw [member]; simp [LoadProcess.member, LoadProcess.serving, counter])
        channel (right info asked)
      refine ⟨_, step, ?_⟩
      have header : ∀ from_, from_ ≠ source →
          ((state.process rank).handleFetchRequest space source
            (.fetchInfo info)).header from_ = (state.process rank).header from_ := by
        intro from_ different
        simp [LoadProcess.header, LoadProcess.handleFetchRequest, counter,
          Ne.symm different]
      have body : ∀ target,
          ((state.process rank).handleFetchRequest space source
            (.fetchInfo info)).body space target =
              (state.process rank).body space target := by
        intro target
        simp [LoadProcess.body, LoadProcess.handleFetchRequest, counter]
      have history := LoadState.history_advance
        (show (Network.receive state source rank rest).sent = state.sent from rfl)
        (fun _ _ => rfl) body
      refine simulates.advance (simulates.sound.step step) rfl rfl
        (fun other => Network.advance_process _ _ _ other) ?_ ?_ ?_ ?_ ?_
        (by simp [LoadProcess.handleFetchRequest]) (simulates.remaining rank) ?_ ?_ rfl
      · intro other
        refine (Round.advance_member _ _ _ other).trans ?_
        split
        · rw [member]
          simp [LoadProcess.member, LoadProcess.entered, LoadProcess.todo,
            LoadProcess.asking, LoadProcess.serving, LoadProcess.finished,
            LoadProcess.notified, LoadProcess.handleFetchRequest, counter,
            GridMPI.packed]
          rfl
        · rfl
      · intro from_ target
        rw [LoadState.view_receive header body]
        refine Eq.trans ?_ (congrArg (List.flatMap (parcelMessages from_))
          (assign_apply round.channel source rank parcels from_ target).symm)
        split
        · rename_i same
          rw [same.1, ← left]
          simp [LoadProcess.header, LoadProcess.handleFetchRequest]
        · exact simulates.view from_ target
      · intro server
        simp [LoadProcess.asks, LoadProcess.asking, LoadProcess.handleFetchRequest,
          counter]
      · intro client server
        rw [history]
      · intro server client
        rw [history]
        exact simulates.repliedSent server client
      · simp [LoadProcess.todo, LoadProcess.handleFetchRequest, counter]
      · simp [LoadProcess.entered, LoadProcess.handleFetchRequest, counter]

theorem reply
    (simulates : Simulates spec state round) {client : Nat} {payload : List α}
    (counter : (state.process rank).counter = .sendReply client payload) :
    ∃ nextRound, ServiceRounds.Step space.numProcs spec.replies round nextRound ∧
      Simulates spec
        (Network.advance
          (Network.send state rank client (.request ⟨rank, .fetchReply⟩)) rank
          { state.process rank with counter := .sendData client payload })
        nextRound := by
  have member := simulates.member rank
  have step := @ServiceRounds.Step.reply _ _ space.numProcs spec.replies round rank
    client payload
    (by rw [member]; simp [LoadProcess.member, LoadProcess.serving, counter])
  refine ⟨_, step, ?_⟩
  have header : ∀ source, ({ state.process rank with
      counter := .sendData client payload } : LoadProcess α).header source =
      (state.process rank).header source := by
    intro source
    simp [LoadProcess.header, counter]
  have body : ∀ target, (if target = client then
        [LoadMessage.request ⟨rank, .fetchReply⟩] else []) ++
      ({ state.process rank with
        counter := .sendData client payload } : LoadProcess α).body space target =
      (state.process rank).body space target ++
        if target = client then parcelMessages rank (.answer payload) else [] := by
    intro target
    simp only [LoadProcess.body, counter, parcelMessages, List.nil_append]
    by_cases here : target = client
    · rw [if_pos here, if_pos here.symm, if_pos here]
      rfl
    · rw [if_neg here, if_neg fun equal => here equal.symm, if_neg here]
      rfl
  have view := LoadState.view_send header body
  have history := LoadState.history_send body
  refine simulates.advance (simulates.sound.step step) rfl rfl
    (fun other => Network.advance_process _ _ _ other) ?_ ?_ ?_ ?_ ?_ (by simp)
    (simulates.remaining rank) ?_ ?_ rfl
  · intro other
    refine (Round.advance_member _ _ _ other).trans ?_
    split
    · rw [member]
      simp [LoadProcess.member, LoadProcess.entered, LoadProcess.todo,
        LoadProcess.asking, LoadProcess.serving, LoadProcess.finished,
        LoadProcess.notified, counter]
    · rfl
  · intro source target
    rw [view, simulates.view]
    refine Eq.trans ?_ (congrArg (List.flatMap (parcelMessages source))
      (push_apply round.channel rank client (.answer payload) source target).symm)
    by_cases same : source = rank
    · subst same
      by_cases here : target = client
      · subst here
        simp
      · simp [here]
    · simp [same]
  · intro server
    simp [LoadProcess.asks, LoadProcess.asking, counter]
  · intro asker server
    rw [history, askedIn, List.filterMap_append, ← askedIn]
    by_cases same : asker = rank
    · by_cases here : server = client
      · simp [same, here, parcelMessages]
      · simp [here]
    · simp [same]
  · intro server target
    rw [history, repliedIn, List.filterMap_append, ← repliedIn, simulates.repliedSent]
    refine Eq.trans ?_ (push_apply round.replied rank client payload server target).symm
    by_cases same : server = rank
    · subst same
      by_cases here : target = client
      · subst here
        simp [parcelMessages]
      · simp [here]
    · simp [same]
  · simp [LoadProcess.todo, counter]
  · simp [LoadProcess.entered, counter]

/-- The second message of a reply: the round has seen the reply already. -/
theorem sendData
    (simulates : Simulates spec state round) {client : Nat} {payload : List α}
    (counter : (state.process rank).counter = .sendData client payload) :
    Simulates spec
      (Network.advance (Network.send state rank client (.data payload)) rank
        { state.process rank with counter := .loop }) round := by
  have header : ∀ source, ({ state.process rank with
      counter := .loop } : LoadProcess α).header source =
      (state.process rank).header source := by
    intro source
    simp [LoadProcess.header, counter]
  have body : ∀ target, (if target = client then
        [LoadMessage.data payload] else []) ++
      ({ state.process rank with
        counter := .loop } : LoadProcess α).body space target =
      (state.process rank).body space target ++ [] := by
    intro target
    simp only [LoadProcess.body, counter, List.append_nil]
    by_cases here : target = client
    · rw [if_pos here, if_pos here.symm]
    · rw [if_neg here, if_neg fun equal => here equal.symm]
  have view := LoadState.view_send header body
  have history := LoadState.history_send body
  refine simulates.stutter (fun other => Network.advance_process _ _ _ other) ?_ ?_ ?_
    ?_ (by simp) (simulates.remaining rank) ?_ rfl
  · simp [LoadProcess.member, LoadProcess.entered, LoadProcess.todo,
      LoadProcess.asking, LoadProcess.serving, LoadProcess.finished,
      LoadProcess.notified, counter]
  · intro source target
    rw [view]
    simp
  · intro source target
    rw [history]
    simp
  · intro server
    simp [LoadProcess.asks, LoadProcess.asking, counter]
  · simp [LoadProcess.todo, counter]

/-! ## Replies -/

/-- A process in the middle of a reply knows the piece, and waits for its data. -/
theorem awaited
    (simulates : Simulates spec state round) {source : Nat}
    (counter : (state.process rank).counter = .recvData source) :
    ∃ info payload parcels,
      (state.process rank).fetchMap source = some info ∧
      info ∈ round.asked rank source ∧
      space.peerRank info = source ∧ spec.wanted rank info ∧
      spec.replies source info payload ∧
      round.channel source rank = .answer payload :: parcels ∧
      .data payload :: parcels.flatMap (parcelMessages source) =
        state.queue source rank ++ (state.process source).body space rank := by
  obtain ⟨parcel, parcels, channel, messages⟩ := simulates.handled_parcel
    (show (state.process rank).header source =
      [.request ⟨source, .fetchReply⟩] by simp [LoadProcess.header, counter])
  cases parcel with
  | done => simp [parcelMessages] at messages
  | query info => simp [parcelMessages] at messages
  | answer payload =>
      simp only [parcelMessages, List.cons_append, List.nil_append, List.cons.injEq,
        true_and] at messages
      have served := simulates.sound.served
      obtain ⟨info, asked, right⟩ := served.replied_right source rank payload
        (served.answer_replied rank source payload (by rw [channel]; simp))
      obtain ⟨peer, wanted⟩ := simulates.askedWanted rank source info asked
      have known := asked
      rw [simulates.asked] at known
      simp only [LoadProcess.asks, LoadProcess.asking, counter, Option.toList_none,
        List.filter_nil, List.append_nil, Option.mem_toList] at known
      exact ⟨info, payload, parcels, known, asked, peer, wanted, right, channel,
        messages.symm⟩

theorem take
    (simulates : Simulates spec state round) {source : Nat} {info : FetchInfo}
    {payload : List α} {parcels : List (Parcel FetchInfo (List α))}
    {rest : List (LoadMessage α)}
    (counter : (state.process rank).counter = .recvData source)
    (asked : info ∈ round.asked rank source)
    (peer : space.peerRank info = source) (wanted : spec.wanted rank info)
    (right : spec.replies source info payload)
    (channel : round.channel source rank = .answer payload :: parcels)
    (left : parcels.flatMap (parcelMessages source) =
      rest ++ (state.process source).body space rank) :
    ∃ nextRound, ServiceRounds.Step space.numProcs spec.replies round nextRound ∧
      Simulates spec
        (Network.advance (Network.receive state source rank rest) rank
          ((state.process rank).handleFetchReply space info (.data payload)))
        nextRound := by
  have member := simulates.member rank
  obtain ⟨remoteGrid, isRemote, remote⟩ := simulates.remote rank (Or.inr ⟨source, by
    intro none
    rw [none] at asked
    cases asked⟩)
  have short := spec.length_le wanted (peer ▸ right)
  have served := simulates.sound.served
  have balance := served.balance rank source
  rw [channel, answers_cons] at balance
  simp only [Parcel.isAnswer, if_true] at balance
  have positive := served.waiting_pos (show round.taken rank source <
    (round.asked rank source).length by omega)
  rw [member] at positive
  simp only [LoadProcess.member, LoadProcess.asking, counter, Option.toList_none,
    List.length_nil] at positive
  have handled : (state.process rank).handleFetchReply space info (.data payload) =
      { state.process rank with
        buf := RowMajor.overwrite (state.process rank).buf payload
        grid := { (state.process rank).grid with
          remoteGrid := some (remoteGrid.copyin space info
            (RowMajor.overwrite (state.process rank).buf payload)) }
        remainingRequests := (state.process rank).remainingRequests - 1
        counter := .loop } := by
    simp only [LoadProcess.handleFetchReply, isRemote]
    rw [if_neg (by omega)]
    rfl
  rw [handled]
  have step := @ServiceRounds.Step.take _ _ space.numProcs spec.replies round rank
    source payload parcels channel
  refine ⟨_, step, ?_⟩
  have header : ∀ from_, from_ ≠ source →
      ({ state.process rank with
        buf := RowMajor.overwrite (state.process rank).buf payload
        grid := { (state.process rank).grid with
          remoteGrid := some (remoteGrid.copyin space info
            (RowMajor.overwrite (state.process rank).buf payload)) }
        remainingRequests := (state.process rank).remainingRequests - 1
        counter := .loop } : LoadProcess α).header from_ =
        (state.process rank).header from_ := by
    intro from_ different
    simp [LoadProcess.header, counter, Ne.symm different]
  have body : ∀ target,
      ({ state.process rank with
        buf := RowMajor.overwrite (state.process rank).buf payload
        grid := { (state.process rank).grid with
          remoteGrid := some (remoteGrid.copyin space info
            (RowMajor.overwrite (state.process rank).buf payload)) }
        remainingRequests := (state.process rank).remainingRequests - 1
        counter := .loop } : LoadProcess α).body space target =
        (state.process rank).body space target := by
    intro target
    simp [LoadProcess.body, counter]
  have history := LoadState.history_advance
    (show (Network.receive state source rank rest).sent = state.sent from rfl)
    (fun _ _ => rfl) body
  refine ⟨simulates.sound.step step, ?_, ?_, ?_, ?_, ?_, ?_, ?_, ?_, ?_, ?_, ?_, ?_⟩
  · intro other
    refine (Round.advance_member _ _ _ other).trans ?_
    rw [Network.advance_process]
    split
    · rw [member]
      simp [LoadProcess.member, LoadProcess.entered, LoadProcess.todo,
        LoadProcess.asking, LoadProcess.serving, LoadProcess.finished,
        LoadProcess.notified, counter]
    · exact simulates.member other
  · intro from_ target
    rw [LoadState.view_receive header body]
    refine Eq.trans ?_ (congrArg (List.flatMap (parcelMessages from_))
      (assign_apply round.channel source rank parcels from_ target).symm)
    split
    · rename_i same
      rw [same.1, left]
      simp [LoadProcess.header]
    · exact simulates.view from_ target
  · intro client server
    refine (simulates.asked client server).trans ?_
    rw [Network.advance_process]
    split
    · rename_i same
      rw [same]
      simp [LoadProcess.asks, LoadProcess.asking, counter]
    · rfl
  · intro client server
    rw [history]
    exact simulates.askedSent client server
  · intro server client
    rw [history]
    exact simulates.repliedSent server client
  · intro other
    rw [Network.advance_process]
    split
    · simp
    · exact simulates.alive other
  · intro other
    rw [Network.advance_process]
    split
    · simp only
      omega
    · exact simulates.remaining other
  · intro other
    rw [Network.advance_process]
    split
    · simp [LoadProcess.todo]
    · exact simulates.todoWanted other
  · exact simulates.askedWanted
  · intro other isIn needed require
    rw [Network.advance_process] at isIn ⊢
    by_cases same : other = rank
    · subst same
      rw [if_pos rfl]
      have before := simulates.required other
        (by simp [LoadProcess.entered, counter]) needed require
      simp only [LoadProcess.todo, counter] at before ⊢
      exact before
    · rw [if_neg same] at isIn ⊢
      exact simulates.required other isIn needed require
  · intro other needed
    rw [Network.advance_process]
    by_cases same : other = rank
    · subst same
      rw [if_pos rfl]
      exact ⟨_, rfl, spec.remote_copyin info _ remote⟩
    · rw [Network.advance_process, if_neg same] at needed
      rw [if_neg same]
      exact simulates.remote other needed
  · intro other server isTaken held heldAsked
    have takenThere : 0 < assign round.taken rank source
        (round.taken rank source + 1) other server := isTaken
    have heldBefore : held ∈ round.asked other server := heldAsked
    rw [assign_apply] at takenThere
    rw [Network.advance_process]
    by_cases same : other = rank
    · subst same
      rw [if_pos rfl]
      refine ⟨_, rfl, ?_⟩
      obtain ⟨heldPeer, heldWanted⟩ := simulates.askedWanted other server held heldBefore
      by_cases here : server = source
      · subst here
        -- only one piece was asked for there
        have once := served.askedOnce other server
        have same : held = info := by
          obtain ⟨only, isOnly⟩ := List.length_eq_one_iff.mp (show
            (round.asked other server).length = 1 by
              have some := List.length_pos_of_mem asked
              omega)
          rw [isOnly, List.mem_singleton] at heldBefore asked
          rw [heldBefore, asked]
        rw [same]
        rw [← peer] at right
        exact spec.stored_copyin _ wanted remote right
      · rw [if_neg fun equal => here equal.2] at takenThere
        obtain ⟨before, isBefore, stored⟩ :=
          simulates.stored other server takenThere held heldBefore
        rw [isRemote] at isBefore
        cases isBefore
        refine spec.stored_kept _ wanted heldWanted ?_ remote stored
        rw [heldPeer, peer]
        exact here
    · rw [if_neg fun equal => same equal.1] at takenThere
      rw [if_neg same]
      exact simulates.stored other server takenThere held heldBefore

/-! ## Any step -/

/-- What the round makes of a step of the processes. -/
def Follows
    (space : GridSpaceMPI) (spec : FetchSpec space α)
    (round nextRound : Round FetchInfo (List α)) : Prop :=
  nextRound = round ∨
    ServiceRounds.Step space.numProcs spec.replies round nextRound

theorem seen
    (next : ∃ nextRound, ServiceRounds.Step space.numProcs spec.replies round nextRound ∧
      Simulates spec after nextRound) :
    ∃ nextRound, Follows space spec round nextRound ∧
      Simulates spec after nextRound :=
  next.imp fun _ ⟨follows, simulatesNext⟩ => ⟨Or.inr follows, simulatesNext⟩

theorem unseen
    (simulates : Simulates spec after round) :
    ∃ nextRound, Follows space spec round nextRound ∧
      Simulates spec after nextRound :=
  ⟨round, Or.inl rfl, simulates⟩

/-- A process in the loop returns, starts to tell that it is done, or takes a message. -/
theorem inLoop
    (simulates : Simulates spec state round)
    (counter : (state.process rank).counter = .loop)
    (step : Network.Step (LoadProcess.effect space) rank state after) :
    ∃ nextRound, Follows space spec round nextRound ∧
      Simulates spec after nextRound := by
  by_cases all : (state.process rank).doneCount = space.numProcs
  · rw [step.of_silent (by simp only [LoadProcess.effect, counter, if_pos all]; rfl)]
    apply unseen
    apply simulates.silent <;>
      simp [LoadProcess.member, LoadProcess.entered, LoadProcess.todo,
        LoadProcess.asking, LoadProcess.serving, LoadProcess.finished,
        LoadProcess.notified, LoadProcess.header, LoadProcess.body, counter]
  · by_cases finished : (state.process rank).remainingRequests = 0 ∧
        (state.process rank).doneSent = false
    · rw [step.of_silent (by
        simp only [LoadProcess.effect, counter, if_neg all, if_pos finished]; rfl)]
      exact seen (simulates.finish counter finished.1 finished.2)
    · obtain ⟨source, message, rest, -, first, rfl⟩ := step.of_receive (by
        simp only [LoadProcess.effect, counter, if_neg all, if_neg finished]; rfl)
      obtain ⟨parcel, parcels, channel, messages⟩ := simulates.receive_first
        (by simp [LoadProcess.header, counter]) first
      cases parcel with
      | done =>
          simp only [parcelMessages, List.cons_append, List.nil_append,
            List.cons.injEq] at messages
          obtain ⟨rfl, left⟩ := messages
          exact seen (simulates.hear counter channel left)
      | query info =>
          simp only [parcelMessages, List.cons_append, List.cons.injEq] at messages
          obtain ⟨rfl, -⟩ := messages
          exact unseen (simulates.receiveHeader counter first (Or.inl ⟨rfl, rfl⟩))
      | answer payload =>
          simp only [parcelMessages, List.cons_append, List.cons.injEq] at messages
          obtain ⟨rfl, -⟩ := messages
          exact unseen (simulates.receiveHeader counter first (Or.inr ⟨rfl, rfl⟩))

/-- Whatever a process does next, the round follows. -/
theorem go
    (simulates : Simulates spec state round)
    (right : ∀ source, (state.process rank).counter = .recvInfo source →
      ∀ info ∈ round.asked source rank,
        spec.replies rank info ((state.process rank).grid.packed space info))
    (step : Network.Step (LoadProcess.effect space) rank state after) :
    ∃ nextRound, Follows space spec round nextRound ∧
      Simulates spec after nextRound := by
  cases counter : (state.process rank).counter with
  | outside => exact (step.of_stop (by simp [LoadProcess.effect, counter])).elim
  | returned => exact (step.of_stop (by simp [LoadProcess.effect, counter])).elim
  | aborted => exact absurd counter (simulates.alive rank)
  | sendRequests todo =>
      cases todo with
      | nil =>
          rw [step.of_silent (by simp only [LoadProcess.effect, counter]; rfl)]
          apply unseen
          apply simulates.silent <;>
            simp [LoadProcess.member, LoadProcess.entered, LoadProcess.todo,
              LoadProcess.asking, LoadProcess.serving, LoadProcess.finished,
              LoadProcess.notified, LoadProcess.header, LoadProcess.body, counter]
      | cons info todo =>
          have some := spec.elements_ne (simulates.todoWanted rank info
            (by simp [LoadProcess.todo, counter]))
          rw [step.of_send (by simp only [LoadProcess.effect, counter, if_neg some]; rfl)]
          exact seen (simulates.ask counter)
  | sendInfo info todo =>
      rw [step.of_send (by simp only [LoadProcess.effect, counter]; rfl)]
      exact unseen (simulates.sendInfo counter)
  | loop => exact simulates.inLoop counter step
  | sendDones told =>
      by_cases all : told = space.numProcs
      · rw [step.of_silent (by simp only [LoadProcess.effect, counter, if_pos all]; rfl)]
        apply unseen
        apply simulates.silent <;>
          simp [LoadProcess.member, LoadProcess.entered, LoadProcess.todo,
            LoadProcess.asking, LoadProcess.serving, LoadProcess.finished,
            LoadProcess.notified, LoadProcess.header, LoadProcess.body, counter, all]
      · by_cases self : told = rank
        · subst self
          rw [step.of_silent (by
            simp only [LoadProcess.effect, counter, if_neg all, if_true]; rfl)]
          exact seen (simulates.notifySelf counter all)
        · rw [step.of_send (by
            simp only [LoadProcess.effect, counter, if_neg all, if_neg self]; rfl)]
          exact seen (simulates.notify counter all self)
  | recvInfo source =>
      obtain ⟨from_, message, rest, fits, first, rfl⟩ :=
        step.of_receive (by simp only [LoadProcess.effect, counter]; rfl)
      obtain rfl : source = from_ := by simpa using fits
      exact seen (simulates.serve counter (right source counter) first)
  | sendReply client payload =>
      rw [step.of_send (by simp only [LoadProcess.effect, counter]; rfl)]
      exact seen (simulates.reply counter)
  | sendData client payload =>
      rw [step.of_send (by simp only [LoadProcess.effect, counter]; rfl)]
      exact unseen (simulates.sendData counter)
  | recvData source =>
      obtain ⟨info, payload, parcels, entry, asked, peer, wanted, replied, channel,
        messages⟩ := simulates.awaited counter
      obtain ⟨from_, message, rest, fits, first, rfl⟩ :=
        step.of_receive (by
          simp only [LoadProcess.effect, counter, entry, Option.getD_some, if_pos peer]
          rfl)
      obtain rfl : source = from_ := by simpa using fits
      rw [first, List.cons_append, List.cons.injEq] at messages
      obtain ⟨rfl, left⟩ := messages
      exact seen (simulates.take counter asked peer wanted replied channel left)

end Simulates

end Physis.Runtime
