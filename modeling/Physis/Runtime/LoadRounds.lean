import Physis.Library.ServiceRuns
import Physis.Runtime.LoadSubgrid

/-!
# `LoadSubgrid` as a service round

What the processes of a round do, seen with each request and each reply as one
parcel: a process asks the owners of its pieces, serves what it is asked, and
tells all when its own pieces have come.  A parcel is on its way from the send
of its first message to the receipt of its last.
-/

namespace Physis.Runtime

open Physis.Library
open Physis.Library.Channels
open Physis.Library.Networks
open Physis.Library.ServiceRounds

variable {α : Type}

/-! ## Processes as members -/

namespace LoadProcess

variable (space : GridSpaceMPI) (process : LoadProcess α)

/-- The pieces still to be asked for. -/
def todo : List FetchInfo :=
  match process.counter with
  | .sendRequests todo => todo
  | .sendInfo _ todo => todo
  | _ => []

/-- The piece whose request is sent in part. -/
def asking : Option FetchInfo :=
  match process.counter with
  | .sendInfo info _ => some info
  | _ => none

/-- The pieces asked for at one process. -/
def asks (server : Nat) : List FetchInfo :=
  (process.fetchMap server).toList ++
    (process.asking.toList.filter fun info => decide (space.peerRank info = server))

/-- The process whose request has been received and not yet answered. -/
def serving : Option (Nat × List α) :=
  match process.counter with
  | .sendReply target payload => some (target, payload)
  | _ => none

/-- The messages to others that it is done start or have been sent. -/
def finished : Bool :=
  match process.counter with
  | .sendDones _ => true
  | _ => process.doneSent

/-- How many processes it has told, in the order of their ranks. -/
def notified : Nat :=
  match process.counter with
  | .sendDones next => next
  | _ => if process.doneSent then space.numProcs else 0

/-- The process is in the round. -/
def entered : Bool :=
  match process.counter with
  | .outside => false
  | _ => true

/-- The process as a member of the round. -/
def member : Member FetchInfo (List α) where
  entered := process.entered
  todo := process.todo.map fun info => (space.peerRank info, info)
  waiting := process.remainingRequests.toNat + process.asking.toList.length
  serving := process.serving
  finished := process.finished
  notified := process.notified space
  counted := process.doneCount

/-- The request of one source that is being handled. -/
def header (source : Nat) : List (LoadMessage α) :=
  match process.counter with
  | .recvInfo from_ =>
      if from_ = source then [.request ⟨source, .fetchRequest⟩] else []
  | .recvData from_ =>
      if from_ = source then [.request ⟨source, .fetchReply⟩] else []
  | _ => []

/-- What is still to be sent to one target of the request or reply being sent. -/
def body (target : Nat) : List (LoadMessage α) :=
  match process.counter with
  | .sendInfo info _ =>
      if space.peerRank info = target then [.fetchInfo info] else []
  | .sendData client payload => if client = target then [.data payload] else []
  | _ => []

end LoadProcess

/-- The messages that make up a parcel of one source. -/
def parcelMessages (source : Nat) :
    Parcel FetchInfo (List α) → List (LoadMessage α)
  | .query info => [.request ⟨source, .fetchRequest⟩, .fetchInfo info]
  | .answer payload => [.request ⟨source, .fetchReply⟩, .data payload]
  | .done => [.request ⟨source, .done⟩]

/-- The pieces asked for in some messages. -/
def askedIn (messages : List (LoadMessage α)) : List FetchInfo :=
  messages.filterMap fun message =>
    match message with
    | .fetchInfo info => some info
    | _ => none

/-- The data sent in some messages. -/
def repliedIn (messages : List (LoadMessage α)) : List (List α) :=
  messages.filterMap fun message =>
    match message with
    | .data payload => some payload
    | _ => none

namespace LoadState

variable (space : GridSpaceMPI) (state : LoadState α)

/-- What is on its way between two processes, partly sent or handled parcels included. -/
def view (source target : Nat) : List (LoadMessage α) :=
  (state.process target).header source ++ state.queue source target ++
    (state.process source).body space target

/-- What a process has sent, including the rest of a parcel. -/
def history (source target : Nat) : List (LoadMessage α) :=
  state.sent source target ++ (state.process source).body space target

end LoadState

/-! ## The relation to a round -/

/-- `CopyinSubgrid` of a reply into the remote grid -/
def RemoteGrid.copyin
    (space : GridSpaceMPI) (info : FetchInfo) (buf : Int → α)
    (remote : RemoteGrid α) : RemoteGrid α :=
  { remote with
    data := copyinSubgrid space.numDims remote.data remote.localSize buf
      (fun i => info.peerOffset i - remote.localOffset i) info.peerSize }

/-- The data a process packs for a piece. -/
def GridMPI.packed
    (space : GridSpaceMPI) (grid : GridMPI α) (info : FetchInfo) : List α :=
  copyoutSubgrid space.numDims grid.data grid.localSize
    (fun i => info.peerOffset i - grid.localOffset i) info.peerSize

/-- What is to hold of pieces, replies and remote grids in a round. -/
structure FetchSpec (space : GridSpaceMPI) (α : Type) where
  /-- a piece that a process may ask for -/
  wanted : Nat → FetchInfo → Prop
  /-- a piece that a process has to ask for -/
  required : Nat → FetchInfo → Prop
  /-- the right reply of a process for a piece -/
  replies : Nat → FetchInfo → List α → Prop
  /-- the remote grid of a process, filled or not -/
  remote : Nat → RemoteGrid α → Prop
  /-- the remote grid of a process has the data of a piece -/
  stored : Nat → FetchInfo → RemoteGrid α → Prop
  elements_ne : ∀ {rank info}, wanted rank info → info.elements space.numDims ≠ 0
  length_le : ∀ {rank info payload}, wanted rank info →
    replies (space.peerRank info) info payload →
      payload.length ≤ info.elements space.numDims
  remote_copyin : ∀ {rank remoteGrid} (info : FetchInfo) (buf : Int → α),
    remote rank remoteGrid → remote rank (remoteGrid.copyin space info buf)
  stored_copyin : ∀ {rank info remoteGrid payload} (buf : Int → α),
    wanted rank info → remote rank remoteGrid →
      replies (space.peerRank info) info payload →
        stored rank info
          (remoteGrid.copyin space info (RowMajor.overwrite buf payload))
  stored_kept : ∀ {rank info other remoteGrid} (buf : Int → α),
    wanted rank info → wanted rank other →
      space.peerRank other ≠ space.peerRank info → remote rank remoteGrid →
        stored rank other remoteGrid →
          stored rank other (remoteGrid.copyin space info buf)

/-- The state of the processes is that of a sound round. -/
structure Simulates
    {space : GridSpaceMPI} (spec : FetchSpec space α) (state : LoadState α)
    (round : Round FetchInfo (List α)) : Prop where
  sound : Sound space.numProcs spec.replies round
  member : ∀ rank, round.member rank = (state.process rank).member space
  view : ∀ source target, state.view space source target =
    (round.channel source target).flatMap (parcelMessages source)
  asked : ∀ client server,
    round.asked client server = (state.process client).asks space server
  askedSent : ∀ client server,
    askedIn (state.history space client server) = round.asked client server
  repliedSent : ∀ server client,
    repliedIn (state.history space server client) = round.replied server client
  alive : ∀ rank, (state.process rank).counter ≠ .aborted
  remaining : ∀ rank, 0 ≤ (state.process rank).remainingRequests
  todoWanted : ∀ rank, ∀ info ∈ (state.process rank).todo, spec.wanted rank info
  askedWanted : ∀ client server, ∀ info ∈ round.asked client server,
    space.peerRank info = server ∧ spec.wanted client info
  required : ∀ rank, (state.process rank).entered = true →
    ∀ info, spec.required rank info → info ∈ (state.process rank).todo ∨
      info ∈ round.asked rank (space.peerRank info)
  remote : ∀ rank, ((state.process rank).todo ≠ [] ∨
      ∃ server, round.asked rank server ≠ []) →
    ∃ remoteGrid, (state.process rank).grid.remoteGrid = some remoteGrid ∧
      spec.remote rank remoteGrid
  stored : ∀ rank server, 0 < round.taken rank server →
    ∀ info ∈ round.asked rank server,
      ∃ remoteGrid, (state.process rank).grid.remoteGrid = some remoteGrid ∧
        spec.stored rank info remoteGrid

/-! ## Views after a step -/

namespace LoadState

variable {space : GridSpaceMPI} {state : LoadState α} {rank : Nat}

/-- A process that handles and sends the same as before leaves every view. -/
theorem view_advance
    {next : LoadProcess α}
    (header : ∀ source, next.header source = (state.process rank).header source)
    (body : ∀ target, next.body space target = (state.process rank).body space target)
    (source target : Nat) :
    view space (Network.advance state rank next) source target =
      view space state source target := by
  simp only [view, Network.advance_process]
  congr 1
  · congr 1
    split
    · rename_i same
      rw [header, same]
    · rfl
  · split
    · rename_i same
      rw [body, same]
    · rfl

/-- A send adds to the view what the message starts; the rest follows it later. -/
theorem view_send
    {next : LoadProcess α} {to_ : Nat} {message : LoadMessage α}
    {added : Nat → List (LoadMessage α)}
    (header : ∀ source, next.header source = (state.process rank).header source)
    (body : ∀ target, (if target = to_ then [message] else []) ++
      next.body space target = (state.process rank).body space target ++ added target)
    (source target : Nat) :
    view space (Network.advance (Network.send state rank to_ message) rank next)
        source target =
      view space state source target ++
        if source = rank then added target else [] := by
  have queue : (Network.advance (Network.send state rank to_ message) rank
      next).queue source target =
      state.queue source target ++
        if source = rank ∧ target = to_ then [message] else [] := by
    refine (push_apply _ _ _ _ _ _).trans ?_
    split
    · rename_i same
      rw [same.1, same.2]
    · rw [List.append_nil]
  have headers : ((Network.advance (Network.send state rank to_ message) rank
      next).process target).header source =
      (state.process target).header source := by
    rw [Network.advance_process]
    split
    · rename_i same
      rw [header, same]
    · rfl
  simp only [view]
  rw [headers, queue, Network.advance_process]
  by_cases same : source = rank
  · subst same
    rw [if_pos rfl, if_pos rfl]
    have whole := body target
    simp only [true_and, List.append_assoc]
    rw [whole]
  · rw [if_neg same, if_neg fun equal => same equal.1, if_neg same, List.append_nil,
      List.append_nil]
    rfl

/-- A receipt changes the view from its source only. -/
theorem view_receive
    {next : LoadProcess α} {from_ : Nat} {rest : List (LoadMessage α)}
    (header : ∀ source, source ≠ from_ →
      next.header source = (state.process rank).header source)
    (body : ∀ target, next.body space target = (state.process rank).body space target)
    (source target : Nat) :
    view space (Network.advance (Network.receive state from_ rank rest) rank next)
        source target =
      if source = from_ ∧ target = rank then
        next.header from_ ++ rest ++ (state.process from_).body space rank
      else view space state source target := by
  have bodies : ((Network.advance (Network.receive state from_ rank rest) rank
      next).process source).body space target =
      (state.process source).body space target := by
    rw [Network.advance_process]
    split
    · rename_i same
      rw [body, same]
    · rfl
  have queue : (Network.advance (Network.receive state from_ rank rest) rank
      next).queue source target =
      if source = from_ ∧ target = rank then rest else state.queue source target :=
    assign_apply _ _ _ _ _ _
  simp only [view]
  rw [bodies, queue, Network.advance_process]
  by_cases here : source = from_ ∧ target = rank
  · obtain ⟨rfl, rfl⟩ := here
    simp
  · rw [if_neg here, if_neg here]
    congr 2
    by_cases same : target = rank
    · subst same
      rw [if_pos rfl]
      exact header source fun equal => here ⟨equal, rfl⟩
    · rw [if_neg same]
      rfl

/-- The history of a process that goes on without sending. -/
theorem history_advance
    {network : LoadState α} {next : LoadProcess α}
    (sent : network.sent = state.sent)
    (others : ∀ other, other ≠ rank → network.process other = state.process other)
    (body : ∀ target, next.body space target = (state.process rank).body space target)
    (source target : Nat) :
    history space (Network.advance network rank next) source target =
      history space state source target := by
  simp only [history, Network.advance_process]
  congr 1
  · exact congrFun (congrFun sent source) target
  · split
    · rename_i same
      rw [body, same]
    · rename_i different
      rw [others source different]

theorem history_send
    {next : LoadProcess α} {to_ : Nat} {message : LoadMessage α}
    {added : Nat → List (LoadMessage α)}
    (body : ∀ target, (if target = to_ then [message] else []) ++
      next.body space target = (state.process rank).body space target ++ added target)
    (source target : Nat) :
    history space (Network.advance (Network.send state rank to_ message) rank next)
        source target =
      history space state source target ++
        if source = rank then added target else [] := by
  have sent : (Network.advance (Network.send state rank to_ message) rank
      next).sent source target =
      state.sent source target ++
        if source = rank ∧ target = to_ then [message] else [] := by
    refine (push_apply _ _ _ _ _ _).trans ?_
    split
    · rename_i same
      rw [same.1, same.2]
    · rw [List.append_nil]
  simp only [history]
  rw [sent, Network.advance_process]
  by_cases same : source = rank
  · subst same
    rw [if_pos rfl, if_pos rfl]
    have whole := body target
    simp only [true_and, List.append_assoc]
    rw [whole]
  · rw [if_neg same, if_neg fun equal => same equal.1, if_neg same, List.append_nil,
      List.append_nil]
    rfl

end LoadState

end Physis.Runtime
