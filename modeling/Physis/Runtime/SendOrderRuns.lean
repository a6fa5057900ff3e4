import Physis.Runtime.HaloAddressingRuns
import Physis.Runtime.SendOrder

/-!
# Halo sends in acknowledged runs

A process that is past a wait has read the halos it posted receives for, and it
only got them from processes that had come that far.  So where the operations and
halos put the receiver's wait before the next write to a send buffer, every run
has completed the send by then, whenever MPI reads its memory.
-/

namespace Physis.Runtime

open Physis.Library
open Physis.Library.Channels
open Physis.Library.Precedence
open Physis.Library.Transfers
open Physis.Library.Runs
open Physis.Runtime.HaloExchange

variable {α : Type}

/-! ## The place of a process in the script -/

section Lists

variable {Item : Type} {item : Item} {rest whole : List Item} {place later : Nat}

/-- The first item that is left stands at the place, and the others behind it. -/
theorem found_of_drop (left : whole.drop place = item :: rest) :
    whole[place]? = some item ∧ whole.drop (place + 1) = rest := by
  constructor
  · have first := congrArg (·[0]?) left
    simpa only [List.getElem?_drop, Nat.add_zero, List.getElem?_cons_zero] using first
  · have tail := congrArg List.tail left
    simpa only [List.tail_drop, List.tail_cons] using tail

/-- One more item before a place. -/
theorem take_succ_of_found (found : whole[place]? = some item) :
    whole.take (place + 1) = whole.take place ++ [item] := by
  rw [List.take_add_one, found]
  rfl

/-- A projection of the items before a place grows with the place. -/
theorem length_filterMap_take_le {Value : Type} (f : Item → Option Value)
    (before : place ≤ later) :
    ((whole.take place).filterMap f).length ≤ ((whole.take later).filterMap f).length :=
  ((List.take_sublist_take_left before).filterMap f).length_le

/-- Behind an item it has grown by what the item projects to. -/
theorem length_filterMap_take_succ {Value : Type} (f : Item → Option Value)
    (found : whole[place]? = some item) :
    ((whole.take (place + 1)).filterMap f).length =
      ((whole.take place).filterMap f).length + (f item).toList.length := by
  rw [take_succ_of_found found, List.filterMap_append, List.length_append]
  cases projected : f item <;> simp [projected]

/-- It has grown past an item that projects. -/
theorem length_filterMap_take_lt {Value : Type} {f : Item → Option Value} {value : Value}
    (found : whole[place]? = some item) (projects : f item = some value)
    (before : place < later) :
    ((whole.take place).filterMap f).length < ((whole.take later).filterMap f).length := by
  have next := @length_filterMap_take_le _ whole _ _ _ f (Nat.succ_le_of_lt before)
  have grown := length_filterMap_take_succ f found
  rw [projects, Option.toList_some, List.length_singleton] at grown
  rw [Nat.succ_eq_add_one] at next
  omega

end Lists

namespace IterationProcess

/-- What is left of the script for a process. -/
def remaining (numDims : Nat) (process : IterationProcess α) : List ScriptStep :=
  process.todo.map (.block process.exchange) ++
    scriptOf numDims (process.operations.map GridOperation.exchange?)

/-- The number of steps of the script that a process has done. -/
def place (numDims : Nat) (schedule : List (Option HaloExchange))
    (process : IterationProcess α) : Nat :=
  (scriptOf numDims schedule).length - (process.remaining numDims).length

end IterationProcess

/-- A message has been read to its end. -/
def Arrived (state : IterationState α) (source target ticket : Nat) : Prop :=
  ∃ message, (state.sent source target)[ticket]? = some message ∧
    ¬message.transfer.Outstanding

section Tracking

variable (space : GridSpaceMPI) (grids : Nat → GridMPI α)
  (schedule : List (Option HaloExchange))

/-- Where in the script a message was sent, and from which memory. -/
structure SentAt (rank place target ticket : Nat) (message : HaloSend α)
    (haloSelf : HaloPtr) (origin : Nat) (exchange : HaloExchange) : Prop where
  before : origin < place
  sends : SendsAt space grids schedule rank origin message.halo.dim message.halo.dir exchange
  goesTo : space.neighbor rank message.halo.dim message.halo.dir.flip = target
  numbered : (((scriptOf space.numDims schedule).take origin).filterMap
    (ScriptStep.sendTo space grids rank target)).length = ticket
  last : message.halo.dim + 1 = space.numDims →
    message.transfer.cells.length = (exchange.received (grids rank)).calcHaloSize
        message.halo.dim (exchange.width message.halo.dir message.halo.dim)
        exchange.diagonal ∧
      message.ptr = .data
        (dataIdAfter grids rank (kernelsBefore space schedule origin) 0)
        (lastSlab (grids rank) message.halo.dim
          (exchange.width message.halo.dir message.halo.dim) message.halo.dir)
  inner : message.halo.dim + 1 < space.numDims → message.ptr = haloSelf →
    ∀ between, origin < between → between < place → ∀ other,
      SendsAt space grids schedule rank between message.halo.dim message.halo.dir other →
        FindsBuffer space grids schedule rank between message.halo.dim message.halo.dir other

/-- What a process with data and its messages have to do with the script. -/
structure FollowsScript (rank : Nat) (state : IterationState α) (place : Nat) : Prop where
  bounded : place ≤ (scriptOf space.numDims schedule).length
  left : (scriptOf space.numDims schedule).drop place =
    (state.process rank).remaining space.numDims
  sent : ∀ target, (state.sent rank target).length =
    (((scriptOf space.numDims schedule).take place).filterMap
      (ScriptStep.sendTo space grids rank target)).length
  posted : ∀ source, (state.posted rank source).length =
    (((scriptOf space.numDims schedule).take place).filterMap
      (ScriptStep.postFrom space grids rank source)).length
  requested : ∀ source, ∀ ticket < (state.posted rank source).length,
    (∃ request ∈ (state.process rank).requests,
      request.source = source ∧ request.ticket = ticket) ∨
      Arrived state source rank ticket
  waited : ∀ wait < place, ∀ exchange dim,
    (scriptOf space.numDims schedule)[wait]? = some (.block exchange (.wait dim)) →
      ∀ source, ∀ ticket < (((scriptOf space.numDims schedule).take wait).filterMap
        (ScriptStep.postFrom space grids rank source)).length,
          Arrived state source rank ticket
  dataId : (state.process rank).grid.dataId =
    dataIdAfter grids rank (kernelsBefore space schedule place)
  bufSize : ∀ dim dir, dim + 1 < space.numDims →
    0 < (state.process rank).grid.haloSelfBufSize dir dim →
      ∃ earlier < place, ∃ exchange,
        SendsAt space grids schedule rank earlier dim dir exchange ∧
        (state.process rank).grid.haloSelfBufSize dir dim =
          sentBytes grids rank dim dir exchange
  sentAt : ∀ target ticket message, (state.sent rank target)[ticket]? = some message →
    ∃ origin exchange, SentAt space grids schedule rank place target ticket message
      ((state.process rank).grid.haloSelf message.halo.dir message.halo.dim) origin exchange

/-- A process without data sends nothing. -/
structure SendsNothing (rank : Nat) (state : IterationState α) : Prop where
  empty : (state.process rank).grid.empty = true
  todo : (state.process rank).todo = []
  sent : ∀ target, state.sent rank target = []

end Tracking

section Steps

variable {space : GridSpaceMPI} {grids : Nat → GridMPI α}
  {schedule : List (Option HaloExchange)} {rank place : Nat}
  {state after : IterationState α}

/-- The place is determined by what is left. -/
theorem FollowsScript.place_eq (follows : FollowsScript space grids schedule rank state place) :
    (state.process rank).place space.numDims schedule = place := by
  have length := congrArg List.length follows.left
  rw [List.length_drop] at length
  have bounded := follows.bounded
  rw [IterationProcess.place, ← length]
  omega

theorem kernelsBefore_succ {step : ScriptStep}
    (found : (scriptOf space.numDims schedule)[place]? = some step) :
    kernelsBefore space schedule (place + 1) =
      kernelsBefore space schedule place + (if step.isKernel then 1 else 0) := by
  rw [kernelsBefore, take_succ_of_found found, List.countP_append, List.countP_singleton]
  rfl

/-- The messages of a process as they were, but for what has been read of them. -/
def KeepsMessages (rank : Nat) (state after : IterationState α) : Prop :=
  ∀ target, (after.sent rank target).length = (state.sent rank target).length ∧
    ∀ (ticket : Nat) message, (after.sent rank target)[ticket]? = some message →
      ∃ old, (state.sent rank target)[ticket]? = some old ∧ message.halo = old.halo ∧
        message.ptr = old.ptr ∧ message.transfer.cells = old.transfer.cells

theorem KeepsMessages.of_eq (same : after.sent rank = state.sent rank) :
    KeepsMessages rank state after := by
  intro target
  rw [same]
  exact ⟨rfl, fun _ message found => ⟨message, found, rfl, rfl, rfl⟩⟩

theorem SentAt.keep {target ticket origin : Nat} {message old : HaloSend α}
    {haloSelf : HaloPtr} {exchange : HaloExchange}
    (sentAt : SentAt space grids schedule rank place target ticket old haloSelf origin exchange)
    (halo : message.halo = old.halo) (ptr : message.ptr = old.ptr)
    (cells : message.transfer.cells = old.transfer.cells) :
    SentAt space grids schedule rank place target ticket message haloSelf origin exchange := by
  constructor
  · exact sentAt.before
  · rw [halo]
    exact sentAt.sends
  · rw [halo]
    exact sentAt.goesTo
  · exact sentAt.numbered
  · rw [halo, ptr, cells]
    exact sentAt.last
  · rw [halo, ptr]
    exact sentAt.inner

/-- A step that is none of the script. -/
theorem FollowsScript.keep (follows : FollowsScript space grids schedule rank state place)
    (remaining : (after.process rank).remaining space.numDims =
      (state.process rank).remaining space.numDims)
    (dataId : (after.process rank).grid.dataId = (state.process rank).grid.dataId)
    (haloSelf : (after.process rank).grid.haloSelf = (state.process rank).grid.haloSelf)
    (bufSize : (after.process rank).grid.haloSelfBufSize =
      (state.process rank).grid.haloSelfBufSize)
    (messages : KeepsMessages rank state after)
    (posted : after.posted rank = state.posted rank)
    (arrives : ∀ source ticket, Arrived state source rank ticket →
      Arrived after source rank ticket)
    (requested : ∀ source, ∀ ticket < (state.posted rank source).length,
      (∃ request ∈ (after.process rank).requests,
        request.source = source ∧ request.ticket = ticket) ∨
        Arrived after source rank ticket) :
    FollowsScript space grids schedule rank after place := by
  constructor
  · exact follows.bounded
  · exact follows.left.trans remaining.symm
  · intro target
    rw [(messages target).1]
    exact follows.sent target
  · rw [posted]
    exact follows.posted
  · rw [posted]
    exact requested
  · intro wait before exchange dim found source ticket less
    exact arrives source ticket (follows.waited wait before exchange dim found source ticket less)
  · rw [dataId]
    exact follows.dataId
  · rw [bufSize]
    exact follows.bufSize
  · intro target ticket message found
    obtain ⟨old, isOld, halo, ptr, cells⟩ := (messages target).2 ticket message found
    obtain ⟨origin, exchange, sentAt⟩ := follows.sentAt target ticket old isOld
    rw [haloSelf, halo]
    exact ⟨origin, exchange, sentAt.keep halo ptr cells⟩

/-- A step later; the buffer may be another one by then. -/
theorem SentAt.later {target ticket origin : Nat} {message : HaloSend α}
    {haloSelf haloSelf' : HaloPtr} {exchange : HaloExchange}
    (sentAt : SentAt space grids schedule rank place target ticket message haloSelf origin
      exchange)
    (finds : message.halo.dim + 1 < space.numDims → message.ptr = haloSelf' →
      message.ptr = haloSelf ∧ ∀ other,
        SendsAt space grids schedule rank place message.halo.dim message.halo.dir other →
          FindsBuffer space grids schedule rank place message.halo.dim message.halo.dir
            other) :
    SentAt space grids schedule rank (place + 1) target ticket message haloSelf' origin
      exchange where
  before := Nat.lt_succ_of_lt sentAt.before
  sends := sentAt.sends
  goesTo := sentAt.goesTo
  numbered := sentAt.numbered
  last := sentAt.last
  inner inner same between above below other sends := by
    obtain ⟨before, here⟩ := finds inner same
    rcases Nat.lt_succ_iff_lt_or_eq.mp below with earlier | rfl
    · exact sentAt.inner inner before between above earlier other sends
    · exact here other sends

/-- A step of the script that sends nothing. -/
theorem FollowsScript.next (follows : FollowsScript space grids schedule rank state place)
    {step : ScriptStep}
    (remaining : (state.process rank).remaining space.numDims =
      step :: (after.process rank).remaining space.numDims)
    (silent : ∀ target, step.sendTo space grids rank target = none)
    (dataId : (after.process rank).grid.dataId =
      dataIdAfter grids rank (kernelsBefore space schedule (place + 1)))
    (haloSelf : (after.process rank).grid.haloSelf = (state.process rank).grid.haloSelf)
    (bufSize : (after.process rank).grid.haloSelfBufSize =
      (state.process rank).grid.haloSelfBufSize)
    (sent : after.sent rank = state.sent rank)
    (posted : ∀ source, (after.posted rank source).length =
      (state.posted rank source).length +
        (step.postFrom space grids rank source).toList.length)
    (arrives : ∀ source ticket, Arrived state source rank ticket →
      Arrived after source rank ticket)
    (requested : ∀ source, ∀ ticket < (after.posted rank source).length,
      (∃ request ∈ (after.process rank).requests,
        request.source = source ∧ request.ticket = ticket) ∨
        Arrived after source rank ticket)
    (waits : ∀ exchange dim, step = .block exchange (.wait dim) →
      (state.process rank).requests = []) :
    FollowsScript space grids schedule rank after (place + 1) := by
  obtain ⟨found, rest⟩ := found_of_drop (follows.left.trans remaining)
  have noSend : ∀ dim dir other, ¬SendsAt space grids schedule rank place dim dir other := by
    rintro dim dir other ⟨here, sends⟩
    obtain rfl := Option.some.inj (found.symm.trans here)
    have sendsHere := silent (space.neighbor rank dim dir.flip)
    simp [ScriptStep.sendTo, HaloExchange.sendTo, sends] at sendsHere
  constructor
  · exact (List.getElem?_eq_some_iff.mp found).1
  · exact rest
  · intro target
    rw [length_filterMap_take_succ _ found, silent, sent, follows.sent target]
    rfl
  · intro source
    rw [length_filterMap_take_succ _ found, posted, follows.posted source]
  · exact requested
  · intro wait before exchange dim isWait source ticket less
    apply arrives
    rcases Nat.lt_succ_iff_lt_or_eq.mp before with earlier | rfl
    · exact follows.waited wait earlier exchange dim isWait source ticket less
    · have none := waits exchange dim (Option.some.inj (found.symm.trans isWait))
      rw [← follows.posted source] at less
      rcases follows.requested source ticket less with ⟨request, member, -⟩ | arrived
      · rw [none] at member
        cases member
      · exact arrived
  · exact dataId
  · intro dim dir inner positive
    rw [bufSize] at positive ⊢
    obtain ⟨earlier, before, exchange, sends, same⟩ := follows.bufSize dim dir inner positive
    exact ⟨earlier, Nat.lt_succ_of_lt before, exchange, sends, same⟩
  · intro target ticket message isMessage
    rw [sent] at isMessage
    obtain ⟨origin, exchange, sentAt⟩ := follows.sentAt target ticket message isMessage
    rw [haloSelf]
    exact ⟨origin, exchange, sentAt.later fun _ same => ⟨same, fun other sends =>
      absurd sends (noSend _ _ other)⟩⟩

/-- The step of the script that sends a halo. -/
theorem FollowsScript.send (follows : FollowsScript space grids schedule rank state place)
    {exchange : HaloExchange} {dim : Nat} {dir : Dir} {message : HaloSend α}
    (remaining : (state.process rank).remaining space.numDims =
      .block exchange (.send dim dir) :: (after.process rank).remaining space.numDims)
    (sends : exchange.sends (grids rank) dim dir = true)
    (sent : after.sent = push state.sent rank (space.neighbor rank dim dir.flip) message)
    (halo : message.halo.dim = dim ∧ message.halo.dir = dir)
    (dataId : (after.process rank).grid.dataId = (state.process rank).grid.dataId)
    (others : ∀ side i, ¬(side = dir ∧ i = dim) →
      (after.process rank).grid.haloSelf side i = (state.process rank).grid.haloSelf side i ∧
        (after.process rank).grid.haloSelfBufSize side i =
          (state.process rank).grid.haloSelfBufSize side i)
    (last : dim + 1 = space.numDims →
      message.transfer.cells.length = (exchange.received (grids rank)).calcHaloSize dim
          (exchange.width dir dim) exchange.diagonal ∧
        message.ptr = .data ((state.process rank).grid.dataId 0)
          (lastSlab (grids rank) dim (exchange.width dir dim) dir))
    (inner : dim + 1 < space.numDims →
      (sentBytes grids rank dim dir exchange ≤
            (state.process rank).grid.haloSelfBufSize dir dim ∧
          0 < (state.process rank).grid.haloSelfBufSize dir dim ∧
          (after.process rank).grid.haloSelf dir dim =
            (state.process rank).grid.haloSelf dir dim ∧
          (after.process rank).grid.haloSelfBufSize dir dim =
            (state.process rank).grid.haloSelfBufSize dir dim) ∨
        ((∀ target, ∀ old ∈ state.sent rank target, old.halo.dim = dim →
            old.ptr ≠ (after.process rank).grid.haloSelf dir dim) ∧
          (after.process rank).grid.haloSelfBufSize dir dim =
            sentBytes grids rank dim dir exchange))
    (posted : after.posted rank = state.posted rank)
    (arrives : ∀ source ticket, Arrived state source rank ticket →
      Arrived after source rank ticket)
    (requests : (after.process rank).requests = (state.process rank).requests) :
    FollowsScript space grids schedule rank after (place + 1) := by
  obtain ⟨found, rest⟩ := found_of_drop (follows.left.trans remaining)
  have sendsAt : SendsAt space grids schedule rank place dim dir exchange := ⟨found, sends⟩
  have same {i : Nat} {side : Dir} {other : HaloExchange}
      (here : SendsAt space grids schedule rank place i side other) :
      (side = dir ∧ i = dim) ∧ other = exchange := by
    cases Option.some.inj (found.symm.trans here.found)
    exact ⟨⟨rfl, rfl⟩, rfl⟩
  have noPost (source : Nat) :
      (ScriptStep.block exchange (.send dim dir)).postFrom space grids rank source = none :=
    rfl
  constructor
  · exact (List.getElem?_eq_some_iff.mp found).1
  · exact rest
  · intro target
    rw [length_filterMap_take_succ _ found, ← follows.sent target, sent]
    by_cases here : space.neighbor rank dim dir.flip = target
    · subst here
      simp [push_same, ScriptStep.sendTo, HaloExchange.sendTo, sends]
    · rw [push_other_target _ _ (Ne.symm here)]
      simp [ScriptStep.sendTo, HaloExchange.sendTo, here]
  · intro source
    rw [length_filterMap_take_succ _ found, posted, follows.posted source, noPost]
    rfl
  · rw [posted, requests]
    intro source ticket less
    exact (follows.requested source ticket less).imp_right (arrives source ticket)
  · intro wait before other i isWait source ticket less
    rcases Nat.lt_succ_iff_lt_or_eq.mp before with earlier | rfl
    · exact arrives source ticket
        (follows.waited wait earlier other i isWait source ticket less)
    · cases Option.some.inj (found.symm.trans isWait)
  · rw [kernelsBefore_succ found, dataId]
    exact follows.dataId
  · intro i side isInner positive
    by_cases here : side = dir ∧ i = dim
    · obtain ⟨rfl, rfl⟩ := here
      rcases inner isInner with ⟨-, allocated, -, kept⟩ | ⟨-, renewed⟩
      · obtain ⟨earlier, before, own, sendsThere, size⟩ :=
          follows.bufSize i side isInner allocated
        exact ⟨earlier, Nat.lt_succ_of_lt before, own, sendsThere, kept.trans size⟩
      · exact ⟨place, Nat.lt_succ_self place, exchange, sendsAt, renewed⟩
    · rw [(others side i here).2] at positive ⊢
      obtain ⟨earlier, before, own, sendsThere, size⟩ :=
        follows.bufSize i side isInner positive
      exact ⟨earlier, Nat.lt_succ_of_lt before, own, sendsThere, size⟩
  · intro target ticket held isMessage
    rw [sent] at isMessage
    -- a message from before, or the new one at the end of its channel
    have old (before : (state.sent rank target)[ticket]? = some held) :
        ∃ origin own, SentAt space grids schedule rank (place + 1) target ticket held
          ((after.process rank).grid.haloSelf held.halo.dir held.halo.dim) origin own := by
      obtain ⟨origin, own, sentAt⟩ := follows.sentAt target ticket held before
      refine ⟨origin, own, sentAt.later fun isInner samePtr => ?_⟩
      by_cases here : held.halo.dir = dir ∧ held.halo.dim = dim
      · obtain ⟨rfl, rfl⟩ := here
        rcases inner isInner with ⟨enough, allocated, kept, -⟩ | ⟨fresh, -⟩
        · refine ⟨samePtr.trans kept, fun other sendsHere => ?_⟩
          obtain ⟨earlier, before, first, sendsThere, size⟩ :=
            follows.bufSize _ _ isInner allocated
          rw [(same sendsHere).2]
          exact ⟨earlier, before, first, sendsThere, size ▸ enough⟩
        · exact absurd samePtr (fresh target held (List.mem_of_getElem? before) rfl)
      · exact ⟨samePtr.trans (others _ _ here).1, fun other sendsHere =>
          absurd (same sendsHere).1 here⟩
    by_cases here : target = space.neighbor rank dim dir.flip
    · subst here
      rw [push_same, List.getElem?_append] at isMessage
      split at isMessage
      · exact old isMessage
      · rename_i notBefore
        obtain ⟨rfl, rfl⟩ := halo
        rw [List.getElem?_singleton, Option.ite_none_right_eq_some] at isMessage
        obtain ⟨position, isLast⟩ := isMessage
        obtain rfl := Option.some.inj isLast
        refine ⟨place, exchange, Nat.lt_succ_self place, sendsAt, rfl, ?_, fun isLast => ?_,
          fun _ _ between above below => by omega⟩
        · rw [← follows.sent]
          omega
        · rw [← follows.dataId]
          exact last isLast
    · rw [push_other_target _ _ here] at isMessage
      exact old isMessage

end Steps

/-! ## What `CopyoutHalo` does to a buffer -/

section Packing

variable {grid after : GridMPI α} {dim : Nat} {dir : Dir} {exchange : HaloExchange}

theorem copyoutHalo_dataId {width : Nat} {diagonal : Bool}
    (packed : grid.copyoutHalo dim width dir diagonal = some after) :
    after.dataId = grid.dataId := by
  have written (marked : GridMPI α) (ptr : HaloPtr) (cells : List α) :
      (marked.writePtr ptr cells).dataId = marked.dataId := by
    cases ptr <;> rfl
  have allocated (marked : GridMPI α) :
      (marked.getHaloBuf dim width dir diagonal).dataId = marked.dataId := by
    simp only [GridMPI.getHaloBuf]
    split <;> rfl
  simp only [GridMPI.copyoutHalo] at packed
  split at packed
  · cases packed
    rfl
  · obtain ⟨cells, -, rfl⟩ := Option.map_eq_some_iff.mp packed
    exact (written _ _ _).trans (allocated _)

/-- The last dimension is sent out of the data. -/
theorem copyoutHalo_last {width : Nat} {diagonal : Bool}
    (packed : grid.copyoutHalo dim width dir diagonal = some after)
    (last : dim + 1 = grid.numDims) :
    after.haloSelf dir dim = .data (grid.dataId 0) (lastSlab grid dim width dir) := by
  simp only [GridMPI.copyoutHalo] at packed
  rw [if_pos (by omega)] at packed
  obtain rfl := Option.some.inj packed
  simp only [Function.update_self]
  cases dir <;> rfl

/-- An earlier dimension is packed into the buffer there is, or into a new one. -/
theorem copyoutHalo_inner
    (packed : grid.copyoutHalo dim (exchange.width dir dim) dir exchange.diagonal = some after)
    (inner : dim + 1 < grid.numDims) :
    (exchange.haloBytes grid dim dir ≤ grid.haloSelfBufSize dir dim ∧
        after.haloSelf dir dim = grid.haloSelf dir dim ∧
        after.haloSelfBufSize dir dim = grid.haloSelfBufSize dir dim) ∨
      (after.haloSelf dir dim = .chunk grid.nextChunk ∧
        after.haloSelfBufSize dir dim = exchange.haloBytes grid dim dir) := by
  obtain ⟨haloSelf, bufSize, -, -⟩ := haloBuf_haloSelf packed (by omega)
  have sameBytes :
      ({ grid with haloHasDiagonal := exchange.diagonal } : GridMPI α).calcHaloSize
          dim (exchange.width dir dim) exchange.diagonal * grid.elmSize =
        exchange.haloBytes grid dim dir :=
    rfl
  rw [← haloSelf, ← bufSize]
  simp only [GridMPI.haloBuf, GridMPI.getHaloBuf, sameBytes]
  split
  · right
    simp only [Function.update_self, true_and]
  · rename_i enough
    exact .inl ⟨Nat.le_of_not_lt enough, rfl, rfl⟩

/-- The bytes of a halo to be sent, by the halos received in the later dimensions. -/
theorem Recording.haloBytes_eq {origin : GridMPI α} {done : List (GridOperation α)}
    {process : IterationProcess α} (recording : Recording origin done process)
    {rest : List ExchangeAction} (next : process.todo = .send dim dir :: rest) :
    process.grid.calcHaloSize dim (process.exchange.width dir dim) process.exchange.diagonal =
        (process.exchange.received origin).calcHaloSize dim (process.exchange.width dir dim)
          process.exchange.diagonal ∧
      process.exchange.haloBytes process.grid dim dir =
        process.exchange.haloBytes (process.exchange.received origin) dim dir := by
  obtain ⟨front, split⟩ := recording.suffix
  rw [next] at split
  have shape : SameShape (process.exchange.received origin) process.grid :=
    ⟨recording.shape.elmSize, recording.shape.numDims, recording.shape.size,
      recording.shape.localOffset, recording.shape.localSize⟩
  have cells := @SameShape.calcHaloSize _ _ _ shape dim (fun i above below side => by
    have received : .recv i side ∉ process.todo := by
      rw [next, List.mem_cons, mem_rest_iff split]
      rintro (impossible | ⟨-, stage⟩)
      · cases impossible
      · have lower := ExchangeAction.stage_bounds (.recv i side)
        have upper := ExchangeAction.stage_bounds (.send dim dir)
        simp only [ExchangeAction.dim] at lower upper
        omega
    exact recording.widths i below side received) (process.exchange.width dir dim)
      process.exchange.diagonal
  refine ⟨cells, ?_⟩
  rw [haloBytes, haloBytes, cells, shape.elmSize]

end Packing

/-! ## Steps of processes -/

section Running

variable {space : GridSpaceMPI} {grids : Nat → GridMPI α}
  {schedule : List (Option HaloExchange)} {rank place : Nat}
  {state after : IterationState α}

/-- A read step, by its message. -/
theorem readStep_eq {source target ticket : Nat}
    (step : IterationState.readStep source target ticket state = some after) :
    after.process = state.process ∧ after.posted = state.posted ∧
      after.sent = assign state.sent source target
        ((state.sent source target).modify ticket (state.readMessage source)) ∧
      ∃ message, (state.sent source target)[ticket]? = some message ∧
        message.transfer.Outstanding := by
  simp only [IterationState.readStep] at step
  split at step
  · cases step
  · rename_i message present
    split at step
    · rename_i outstanding
      obtain rfl := Option.some.inj step
      exact ⟨rfl, rfl, rfl, message, present, outstanding⟩
    · cases step

/-- A process posts receives of its own only. -/
theorem posted_of_programStep
    (step : IterationState.programStep space rank state = some after) {other : Nat}
    (different : other ≠ rank) : after.posted other = state.posted other := by
  simp only [IterationState.programStep] at step
  split at step
  · split at step
    · cases step
    · cases step
      rfl
    · cases step
      rfl
  · split at step
    · cases step
      exact push_other_source _ different _ _
    · cases step
      rfl
  · split at step
    · obtain ⟨grid, -, rfl⟩ := Option.map_eq_some_iff.mp step
      rfl
    · cases step
      rfl
  · split at step
    · cases step
      rfl
    · split at step
      · cases step
      · split at step
        · cases step
        · cases step
          rfl

/-- What has arrived stays so. -/
theorem Arrived.step (step : IterationState.Step space state after) {source target ticket : Nat}
    (arrived : Arrived state source target ticket) : Arrived after source target ticket := by
  obtain ⟨message, sent, complete⟩ := arrived
  refine ⟨message, ?_, complete⟩
  rcases step with ⟨actor, -, step⟩ | ⟨reader, receiver, number, step⟩
  · cases IterationState.advances_of_programStep step with
    | begin | kernel | quiet => exact sent
    | send => exact getElem?_grown (prefix_push _ _ _ _ _ _) sent
  · obtain ⟨-, -, isSent, read, present, outstanding⟩ := readStep_eq step
    rw [isSent, assign_apply]
    split
    · rename_i here
      obtain ⟨rfl, rfl⟩ := here
      have other : number ≠ ticket := by
        rintro rfl
        obtain rfl := Option.some.inj (present.symm.trans sent)
        exact complete outstanding
      rw [List.getElem?_modify, sent]
      simp [other]
    · exact sent

/-- Other steps leave a process with what it sent, but for what is read of it. -/
theorem FollowsScript.frame (follows : FollowsScript space grids schedule rank state place)
    (step : IterationState.Step space state after)
    (process : after.process rank = state.process rank)
    (messages : KeepsMessages rank state after)
    (posted : after.posted rank = state.posted rank) :
    FollowsScript space grids schedule rank after place := by
  apply follows.keep (congrArg _ process) (by rw [process]) (by rw [process]) (by rw [process])
    messages posted (fun _ _ arrived => arrived.step step)
  rw [process]
  intro source ticket less
  exact (follows.requested source ticket less).imp_right fun arrived => arrived.step step

/-- Reading a message keeps it. -/
theorem keepsMessages_readStep {source target ticket : Nat}
    (step : IterationState.readStep source target ticket state = some after) :
    KeepsMessages rank state after := by
  obtain ⟨-, -, isSent, -⟩ := readStep_eq step
  intro other
  rw [isSent, assign_apply]
  split
  · rename_i here
    obtain ⟨rfl, rfl⟩ := here
    refine ⟨List.length_modify .., fun number message found => ?_⟩
    rw [List.getElem?_modify] at found
    obtain ⟨old, isOld, rfl⟩ := Option.map_eq_some_iff.mp found
    refine ⟨old, isOld, ?_⟩
    split
    · exact ⟨rfl, rfl, Transfer.readNext_cells⟩
    · exact ⟨rfl, rfl, rfl⟩
  · exact ⟨rfl, fun _ message found => ⟨message, found, rfl, rfl, rfl⟩⟩

/-- The requests after a receive is posted. -/
theorem exists_recv_requested (follows : FollowsScript space grids schedule rank state place)
    (dim : Nat) (dir : Dir) (halo : HaloTransfer) (source ticket : Nat)
    (less : ticket < (push state.posted rank (space.neighbor rank dim dir) halo rank
      source).length) :
    (∃ request ∈ (state.process rank).requests ++ [⟨halo, space.neighbor rank dim dir,
        (state.posted rank (space.neighbor rank dim dir)).length⟩],
      request.source = source ∧ request.ticket = ticket) ∨
      Arrived state source rank ticket := by
  by_cases here : source = space.neighbor rank dim dir
  · subst here
    rw [push_same, List.length_append, List.length_singleton] at less
    rcases Nat.lt_succ_iff_lt_or_eq.mp less with before | rfl
    · rcases follows.requested _ ticket before with ⟨request, member, same⟩ | arrived
      · exact .inl ⟨request, List.mem_append_left _ member, same⟩
      · exact .inr arrived
    · exact .inl ⟨_, List.mem_append_right _ (List.mem_singleton_self _), rfl, rfl⟩
  · rw [push_other_target _ _ here] at less
    rcases follows.requested source ticket less with ⟨request, member, same⟩ | arrived
    · exact .inl ⟨request, List.mem_append_left _ member, same⟩
    · exact .inr arrived

/-- A block that sends nothing, by what it does to the process. -/
theorem FollowsScript.block (follows : FollowsScript space grids schedule rank state place)
    {action : ExchangeAction} {rest : List ExchangeAction}
    (next : (state.process rank).todo = action :: rest)
    {posted : Nat → Nat → List HaloTransfer} {grid : GridMPI α} {requests : List HaloRequest}
    (isAfter : after = ({ state with posted := posted } : IterationState α).advance rank
      { state.process rank with
        grid := grid
        todo := rest
        requests := requests })
    (keeps : KeepsSends (state.process rank).grid grid)
    (dataId : grid.dataId = (state.process rank).grid.dataId)
    (silent : ∀ target, (ScriptStep.block (state.process rank).exchange action).sendTo space
      grids rank target = none)
    (posts : ∀ source, (posted rank source).length = (state.posted rank source).length +
      ((ScriptStep.block (state.process rank).exchange action).postFrom space grids rank
        source).toList.length)
    (requested : ∀ source, ∀ ticket < (posted rank source).length,
      (∃ request ∈ requests, request.source = source ∧ request.ticket = ticket) ∨
        Arrived state source rank ticket)
    (waits : ∀ dim, action = .wait dim → (state.process rank).requests = []) :
    FollowsScript space grids schedule rank after (place + 1) := by
  have remaining : (state.process rank).remaining space.numDims =
      .block (state.process rank).exchange action ::
        (rest.map (.block (state.process rank).exchange) ++ scriptOf space.numDims
          ((state.process rank).operations.map GridOperation.exchange?)) := by
    rw [IterationProcess.remaining, next]
    rfl
  obtain ⟨found, -⟩ := found_of_drop (follows.left.trans remaining)
  have process : after.process rank =
      { state.process rank with
        grid := grid
        todo := rest
        requests := requests } := by
    rw [isAfter, IterationState.advance_process_self]
  have sent : after.sent = state.sent := by
    rw [isAfter]
    rfl
  have isPosted : after.posted = posted := by
    rw [isAfter]
    rfl
  have arrives (source ticket : Nat) (arrived : Arrived state source rank ticket) :
      Arrived after source rank ticket := by
    rw [Arrived, sent]
    exact arrived
  apply follows.next ?_ silent ?_ ?_ ?_ (congrFun sent rank) ?_ arrives ?_ ?_
  · rw [remaining, process]
    rfl
  · rw [process, kernelsBefore_succ found]
    exact dataId.trans follows.dataId
  · rw [process]
    exact keeps.haloSelf
  · rw [process]
    exact keeps.haloSelfBufSize
  · rw [isPosted]
    exact posts
  · rw [isPosted, process]
    exact fun source ticket less =>
      (requested source ticket less).imp_right (arrives source ticket)
  · rintro exchange dim equal
    cases equal
    exact waits dim rfl

/-- A step of a process with data goes on with the script, or stays at its place. -/
theorem FollowsScript.programStep {done : List (GridOperation α)}
    (follows : FollowsScript space grids schedule rank state place)
    (recording : Recording (grids rank) done (state.process rank))
    (numDims : (grids rank).numDims = space.numDims)
    (sound : SendsSound space rank state) (bounded : rank < space.numProcs)
    (step : IterationState.programStep space rank state = some after) :
    ∃ place', FollowsScript space grids schedule rank after place' := by
  have dims : (state.process rank).grid.numDims = space.numDims :=
    recording.shape.numDims.trans numDims
  have arrives : ∀ source ticket, Arrived state source rank ticket →
      Arrived after source rank ticket :=
    fun _ _ arrived => arrived.step (.inl ⟨rank, bounded, step⟩)
  simp only [IterationState.programStep] at step
  split at step
  · rename_i idle
    split at step
    · cases step
    · rename_i exchange rest next
      obtain rfl := Option.some.inj step
      refine ⟨place, follows.keep ?_ ?_ ?_ ?_ (.of_eq rfl) rfl arrives ?_⟩
      · simp [IterationProcess.remaining, idle, next, recording.occupied, dims,
          GridOperation.exchange?, scriptOf]
      all_goals rw [IterationState.advance_process_self]
      intro source ticket less
      exact (follows.requested source ticket less).imp_right (arrives source ticket)
    · rename_i emitted rest next
      obtain rfl := Option.some.inj step
      have remaining : (state.process rank).remaining space.numDims =
          .kernel rest.length :: scriptOf space.numDims (rest.map GridOperation.exchange?) := by
        simp [IterationProcess.remaining, idle, next, GridOperation.exchange?, scriptOf]
      obtain ⟨found, -⟩ := found_of_drop (follows.left.trans remaining)
      have tail : scriptOf space.numDims (rest.map GridOperation.exchange?) =
          ((state.advance rank { state.process rank with
            operations := rest
            grid := (state.process rank).grid.runKernel
              (emitted (state.process rank).grid) }).process rank).remaining space.numDims := by
        rw [IterationState.advance_process_self]
        simp [IterationProcess.remaining, idle]
      rw [tail] at remaining
      refine ⟨place + 1, follows.next remaining (fun _ => rfl)
        ?_ ?_ ?_ rfl (fun _ => rfl) arrives ?_ (fun _ _ impossible => by cases impossible)⟩
      · rw [IterationState.advance_process_self, kernelsBefore_succ found]
        have swapped := follows.dataId
        simp only [GridMPI.runKernel, dataIdAfter] at swapped ⊢
        rw [ScriptStep.isKernel, if_pos rfl, Function.iterate_succ_apply']
        simp only [GridMPI.swap, swapped]
      · rw [IterationState.advance_process_self]
        rfl
      · rw [IterationState.advance_process_self]
        rfl
      · rw [IterationState.advance_process_self]
        intro source ticket less
        exact (follows.requested source ticket less).imp_right (arrives source ticket)
  · rename_i dim dir rest next
    have receivesOrigin :=
      receives_congr (state.process rank).exchange recording.shape dim dir
    split at step
    · rename_i receives
      obtain rfl := Option.some.inj step
      refine ⟨place + 1, follows.block next rfl (prepareRecv_keepsSends _ _ _ _) rfl
        (fun _ => rfl) (fun source => ?_) ?_ (fun _ impossible => by cases impossible)⟩
      · rw [receivesOrigin] at receives
        by_cases here : space.neighbor rank dim dir = source
        · subst here
          simp [push_same, ScriptStep.postFrom, HaloExchange.postFrom, receives]
        · rw [push_other_target _ _ (Ne.symm here)]
          simp [ScriptStep.postFrom, HaloExchange.postFrom, here]
      · exact exists_recv_requested follows dim dir _
    · rename_i receives
      obtain rfl := Option.some.inj step
      rw [receivesOrigin] at receives
      refine ⟨place + 1, follows.block next rfl (clearHalo_keepsSends _ _ _) rfl
        (fun _ => rfl) (fun source => ?_) follows.requested
        (fun _ impossible => by cases impossible)⟩
      simp [ScriptStep.postFrom, HaloExchange.postFrom, receives]
  · rename_i dim dir rest next
    have sendsOrigin := sends_congr (state.process rank).exchange recording.shape dim dir
    have inside := sound.inside (.send dim dir) (by rw [next]; exact List.mem_cons_self ..)
    split at step
    · rename_i sends
      obtain ⟨grid, packed, rfl⟩ := Option.map_eq_some_iff.mp step
      have wide : 0 < (state.process rank).exchange.width dir dim := by
        simp only [HaloExchange.sends, Bool.and_eq_true, decide_eq_true_eq] at sends
        exact sends.1
      have positive := sound.grid.haloBytes_pos inside.2 _ wide
      have packs : PacksInto (state.process rank).grid dim dir grid :=
        packsInto_copyoutHalo positive packed
      obtain ⟨cells, bytes⟩ := recording.haloBytes_eq next
      refine ⟨place + 1, follows.send ?_ (sendsOrigin ▸ sends) rfl ⟨rfl, rfl⟩ ?_ ?_ ?_ ?_ rfl
        arrives ?_⟩
      all_goals try rw [IterationState.advance_process_self]
      · rw [IterationProcess.remaining, next]
        rfl
      · exact copyoutHalo_dataId packed
      · exact fun side i other => ⟨packs.haloSelf side i other, packs.haloSelfBufSize side i other⟩
      · intro last
        refine ⟨?_, ?_⟩
        · simp only [Transfer.post, List.length_map, List.length_range]
          exact cells
        · refine (copyoutHalo_last packed (last.trans dims.symm)).trans ?_
          simp only [lastSlab, recording.shape.localSize, recording.shape.numDims]
      · intro inner
        rw [sentBytes, ← bytes]
        rcases copyoutHalo_inner packed (inner.trans_eq dims.symm) with
          ⟨enough, same, size⟩ | ⟨fresh, size⟩
        · exact .inl ⟨enough, positive.trans_le enough, same, size⟩
        · refine .inr ⟨fun target old member isDim samePtr => ?_, size⟩
          have placed := sound.placed target old member
          obtain ⟨id, below, isChunk, -⟩ :=
            placed.earlier (by rw [isDim, dims]; exact inner)
          rw [isChunk, fresh] at samePtr
          cases samePtr
          exact absurd below (lt_irrefl _)
    · rename_i sends
      obtain rfl := Option.some.inj step
      rw [sendsOrigin] at sends
      refine ⟨place + 1, follows.block next rfl ⟨KeepsBuffers.refl _, rfl⟩ rfl
        (fun target => ?_) (fun _ => rfl) follows.requested
        (fun _ impossible => by cases impossible)⟩
      simp [ScriptStep.sendTo, HaloExchange.sendTo, sends]
  · rename_i dim rest next
    split at step
    · rename_i noRequests
      obtain rfl := Option.some.inj step
      exact ⟨place + 1, follows.block next rfl ⟨KeepsBuffers.refl _, rfl⟩ rfl (fun _ => rfl)
        (fun _ => rfl) follows.requested fun _ _ => noRequests⟩
    · rename_i request others isRequests
      split at step
      · cases step
      · rename_i message present
        split at step
        · cases step
        · rename_i complete
          obtain rfl := Option.some.inj step
          refine ⟨place, follows.keep ?_ ?_ ?_ ?_ (.of_eq rfl) rfl arrives ?_⟩
          all_goals rw [IterationState.advance_process_self]
          · rfl
          · rfl
          · rfl
          · rfl
          intro source ticket less
          rcases follows.requested source ticket less with ⟨open_, member, same⟩ | arrived
          · rw [isRequests, List.mem_cons] at member
            rcases member with rfl | later
            · obtain ⟨rfl, rfl⟩ := same
              exact .inr (arrives _ _ ⟨message, present, fun outstanding =>
                complete (.inl outstanding)⟩)
            · exact .inl ⟨open_, later, same⟩
          · exact .inr (arrives _ _ arrived)

end Running

/-! ## Runs -/

section Runs

variable {space : GridSpaceMPI} {elmSize : Nat} {size globalOffset : IndexArray}
  {grids : Nat → GridMPI α} {schedule : List (Option HaloExchange)}
  {state after : IterationState α}

theorem SendsNothing.frame {rank : Nat} (nothing : SendsNothing rank state)
    (process : after.process rank = state.process rank)
    (messages : KeepsMessages rank state after) : SendsNothing rank after where
  empty := by
    rw [process]
    exact nothing.empty
  todo := by
    rw [process]
    exact nothing.todo
  sent target := by
    have length := (messages target).1
    rw [nothing.sent target] at length
    exact List.length_eq_zero_iff.mp length

theorem SendsNothing.programStep {rank : Nat} (nothing : SendsNothing rank state)
    (step : IterationState.programStep space rank state = some after) :
    SendsNothing rank after := by
  simp only [IterationState.programStep, nothing.todo] at step
  split at step
  · cases step
  all_goals
    obtain rfl := Option.some.inj step
    refine ⟨?_, ?_, nothing.sent⟩
  · rw [IterationState.advance_process_self]
    exact nothing.empty
  · rw [IterationState.advance_process_self]
    exact if_pos nothing.empty
  · rw [IterationState.advance_process_self]
    exact nothing.empty
  · rw [IterationState.advance_process_self]

variable (space grids schedule state) in
/-- Every process with data is at a place of the script, and the others are silent. -/
def AllFollow : Prop :=
  ∀ rank < space.numProcs,
    ((grids rank).empty = false → ∃ place,
      FollowsScript space grids schedule rank state place) ∧
    ((grids rank).empty = true → SendsNothing rank state)

/-- Who comes to a place has heard what precedes it. -/
theorem AllFollow.hears (follow : AllFollow space grids schedule state)
    (distributed : Distributed space elmSize size globalOffset grids)
    {listener speaker place told : Nat}
    (message : Hears space grids schedule listener place speaker told)
    (listens : listener < space.numProcs ∧ (grids listener).empty = false)
    (reached : place ≤ (state.process listener).place space.numDims schedule) :
    (speaker < space.numProcs ∧ (grids speaker).empty = false) ∧
      told ≤ (state.process speaker).place space.numDims schedule := by
  obtain ⟨exchange, dim, dir, found, receives, rfl, before⟩ := message
  have dimBelow : dim < space.numDims := dim_lt_of_scriptOf found
  have bounded : space.neighbor listener dim dir < space.numProcs :=
    space.neighbor_lt listener dimBelow dir
  obtain ⟨own, follows⟩ := (follow listener listens.1).1 listens.2
  rw [follows.place_eq] at reached
  have far : 2 < (ExchangeAction.recv dim dir).untilWait := by
    have spec := untilWait_spec (.recv dim dir)
    cases dir <;> simp only [ExchangeAction.dim, ExchangeAction.stage] at spec <;> omega
  have arrived := follows.waited _ (by omega) exchange dim (scriptOf_wait found)
    (space.neighbor listener dim dir)
  have posts : ScriptStep.postFrom space grids listener (space.neighbor listener dim dir)
      (.block exchange (.recv dim dir)) =
        some (exchange.transfer (exchange.received (grids listener)) dim dir) := by
    simp [ScriptStep.postFrom, HaloExchange.postFrom, receives]
  have posted := length_filterMap_take_lt found posts
    (show told < told + (ExchangeAction.recv dim dir).untilWait by omega)
  cases occupied : (grids (space.neighbor listener dim dir)).empty with
  | true =>
      obtain ⟨message, sent, -⟩ := arrived _ posted
      rw [((follow _ bounded).2 occupied).sent] at sent
      cases sent
  | false =>
      refine ⟨⟨bounded, rfl⟩, ?_⟩
      obtain ⟨there, speaks⟩ := (follow _ bounded).1 occupied
      rw [speaks.place_eq]
      by_contra behind
      have sends : ScriptStep.sendTo space grids (space.neighbor listener dim dir) listener
          (.block exchange (.send dim dir)) =
            some (exchange.transfer (exchange.received (grids listener)) dim dir) :=
        (postFrom_eq_sendTo distributed listens.1 bounded listens.2 occupied dimBelow
          dir).symm.trans posts
      have few := @length_filterMap_take_le _ (scriptOf space.numDims schedule) there (told + 2)
        _ (ScriptStep.sendTo space grids (space.neighbor listener dim dir) listener) (by omega)
      have more := length_filterMap_take_lt (scriptOf_send found) sends
        (show told + 2 < told + (ExchangeAction.recv dim dir).untilWait by omega)
      rw [← scriptOf_matches distributed listens.1 bounded listens.2 occupied
        (scriptOf_wait found)] at more
      rw [← speaks.sent listener] at few
      obtain ⟨message, sent, -⟩ := arrived _ (few.trans_lt more)
      have bound := (List.getElem?_eq_some_iff.mp sent).1
      exact lt_irrefl _ bound

section Created

variable {doubleBuffering : Bool} {memory : Nat → Nat → Int → α}
  {operations : Nat → List (GridOperation α)}

/-- Before the first operation. -/
theorem allFollow_start
    (created : grids = space.distribute elmSize size doubleBuffering globalOffset memory)
    (alike : ∀ rank < space.numProcs,
      (operations rank).map GridOperation.exchange? = schedule) :
    AllFollow space grids schedule (IterationState.start grids operations) := by
  intro rank bounded
  refine ⟨fun _ => ⟨0, ?_⟩, fun empty => ⟨empty, rfl, fun _ => rfl⟩⟩
  constructor
  · exact Nat.zero_le _
  · rw [List.drop_zero, ← alike rank bounded]
    rfl
  · exact fun _ => rfl
  · exact fun _ => rfl
  · intro source ticket less
    cases less
  · intro wait before
    cases before
  · rfl
  · intro dim dir _ positive
    subst created
    exact absurd positive (lt_irrefl _)
  · intro target ticket message sent
    cases sent

theorem AllFollow.step {done : Nat → List (GridOperation α)}
    (follow : AllFollow space grids schedule state)
    (numDims : ∀ rank, (grids rank).numDims = space.numDims)
    (recording : ∀ rank < space.numProcs, (grids rank).empty = false →
      Recording (grids rank) (done rank) (state.process rank))
    (sound : ∀ rank < space.numProcs, SendsSound space rank state)
    (step : IterationState.Step space state after) :
    AllFollow space grids schedule after := by
  intro rank bounded
  obtain ⟨follows, nothing⟩ := follow rank bounded
  rcases id step with ⟨actor, actorBounded, own⟩ | ⟨source, target, ticket, reads⟩
  · by_cases here : rank = actor
    · subst here
      refine ⟨fun occupied => ?_, fun empty => (nothing empty).programStep own⟩
      obtain ⟨place, here⟩ := follows occupied
      exact here.programStep (recording rank bounded occupied) (numDims rank)
        (sound rank bounded) bounded own
    · obtain ⟨process, sent⟩ := (IterationState.advances_of_programStep own).other here
      have posted : after.posted rank = state.posted rank := posted_of_programStep own here
      refine ⟨fun occupied => ?_, fun empty =>
        (nothing empty).frame process (.of_eq sent)⟩
      obtain ⟨place, there⟩ := follows occupied
      exact ⟨place, there.frame step process (.of_eq sent) posted⟩
  · obtain ⟨process, posted, -⟩ := readStep_eq reads
    have messages := @keepsMessages_readStep _ rank _ _ _ _ _ reads
    refine ⟨fun occupied => ?_, fun empty =>
      (nothing empty).frame (congrFun process rank) messages⟩
    obtain ⟨place, there⟩ := follows occupied
    exact ⟨place, there.frame step (congrFun process rank) messages (congrFun posted rank)⟩

/-- In runs that overwrite nothing all processes follow the script. -/
theorem allFollow_of_reaches
    (created : grids = space.distribute elmSize size doubleBuffering globalOffset memory)
    (sendsGrid : ∀ rank < space.numProcs, SendsGrid space (grids rank))
    (alike : ∀ rank < space.numProcs,
      (operations rank).map GridOperation.exchange? = schedule)
    (reached : Reaches (IterationState.CompletedStep space)
      (IterationState.start grids operations) state) :
    AllFollow space grids schedule state := by
  induction reached with
  | refl => exact allFollow_start created alike
  | @tail before after reached step induction =>
      have steps : Reaches (IterationState.Step space)
          (IterationState.start grids operations) before :=
        Relation.ReflTransGen.mono (fun _ _ step => step.imp_left
          fun ⟨rank, bounded, _, step⟩ => ⟨rank, bounded, step⟩) _ _ reached
      have recorded (rank : Nat) : ∃ done, rank < space.numProcs →
          (grids rank).empty = false →
            Recording (grids rank) done (before.process rank) := by
        by_cases occupied : (grids rank).empty = false
        · subst created
          obtain ⟨done, recording, -⟩ := recording_of_reaches occupied steps
          exact ⟨done, fun _ _ => recording⟩
        · exact ⟨[], fun _ isOccupied => absurd isOccupied occupied⟩
      choose done recording using recorded
      refine induction.step (fun rank => by rw [created]; rfl) recording
        (fun rank bounded => IterationState.sendsSound_of_reaches sendsGrid reached bounded)
        (step.imp_left fun ⟨rank, bounded, _, step⟩ => ⟨rank, bounded, step⟩)

/-- A message that is acknowledged before the next step of its process has arrived. -/
theorem AllFollow.not_outstanding (follow : AllFollow space grids schedule state)
    (distributed : Distributed space elmSize size globalOffset grids)
    {rank place target ticket origin dim : Nat} {dir : Dir} {exchange : HaloExchange}
    (bounded : rank < space.numProcs) (occupied : (grids rank).empty = false)
    (follows : FollowsScript space grids schedule rank state place)
    (sends : SendsAt space grids schedule rank origin dim dir exchange)
    (goesTo : space.neighbor rank dim dir.flip = target)
    (numbered : (((scriptOf space.numDims schedule).take origin).filterMap
      (ScriptStep.sendTo space grids rank target)).length = ticket)
    (precedes : Precedes (Hears space grids schedule) target
      (origin + (ExchangeAction.send dim dir).untilWait) rank place)
    {message : HaloSend α} (sent : (state.sent rank target)[ticket]? = some message) :
    ¬message.transfer.Outstanding := by
  obtain ⟨⟨targetBounded, targetOccupied⟩, past⟩ := @Precedes.done _ _ _ _ _ _ precedes
    (fun process => process < space.numProcs ∧ (grids process).empty = false)
    (fun process => (state.process process).place space.numDims schedule)
    (fun _ _ _ _ message listens reached => follow.hears distributed message listens reached)
    ⟨bounded, occupied⟩ follows.place_eq.ge
  obtain ⟨there, receiver⟩ := (follow target targetBounded).1 targetOccupied
  simp only [receiver.place_eq] at past
  have far : 0 < (ExchangeAction.send dim dir).untilWait := by
    have spec := untilWait_spec (.send dim dir)
    cases dir <;> simp only [ExchangeAction.dim, ExchangeAction.stage] at spec <;> omega
  have projects : ScriptStep.sendTo space grids rank target
      (.block exchange (.send dim dir)) =
        some (exchange.transfer (exchange.received (grids rank)) dim dir) := by
    simp [ScriptStep.sendTo, HaloExchange.sendTo, sends.sends, goesTo]
  have posted := length_filterMap_take_lt sends.found projects
    (show origin < origin + (ExchangeAction.send dim dir).untilWait by omega)
  rw [numbered, ← scriptOf_matches distributed targetBounded bounded targetOccupied occupied
    (scriptOf_wait sends.found)] at posted
  obtain ⟨arrived, isSent, complete⟩ :=
    receiver.waited _ past exchange dim (scriptOf_wait sends.found) rank ticket posted
  rw [sent] at isSent
  obtain rfl := Option.some.inj isSent
  exact complete

/-- With all sends acknowledged, no process is about to overwrite one. -/
theorem AllFollow.sendsCompleted (follow : AllFollow space grids schedule state)
    (distributed : Distributed space elmSize size globalOffset grids)
    (acknowledged : SendsAcknowledged space grids schedule operations)
    {rank : Nat} (bounded : rank < space.numProcs)
    (numDims : (grids rank).numDims = space.numDims)
    {done : List (GridOperation α)}
    (recording : (grids rank).empty = false →
      Recording (grids rank) done (state.process rank) ∧
        done ++ (state.process rank).operations = operations rank)
    (sound : SendsSound space rank state) :
    SendsCompleted space rank state := by
  intro target _ message member reuses
  cases occupied : (grids rank).empty with
  | true =>
      rw [((follow rank bounded).2 occupied).sent target] at member
      cases member
  | false =>
      obtain ⟨place, follows⟩ := (follow rank bounded).1 occupied
      obtain ⟨recording, performed⟩ := recording occupied
      obtain ⟨ticket, sent⟩ := List.getElem?_of_mem member
      obtain ⟨origin, exchange, sentAt⟩ := follows.sentAt target ticket message sent
      have dims : (state.process rank).grid.numDims = space.numDims :=
        recording.shape.numDims.trans numDims
      refine follow.not_outstanding distributed bounded occupied follows sentAt.sends
        sentAt.goesTo sentAt.numbered ?_ sent
      rw [← sentAt.goesTo]
      apply acknowledged rank bounded occupied _ _ _ _ sentAt.sends place sentAt.before
      cases todo : (state.process rank).todo with
      | nil =>
          cases next : (state.process rank).operations with
          | nil => simp [IterationProcess.reuses, todo, next] at reuses
          | cons operation rest =>
              cases operation with
              | exchange own => simp [IterationProcess.reuses, todo, next] at reuses
              | kernel emitted =>
                  simp only [IterationProcess.reuses, todo, next, Bool.and_eq_true,
                    decide_eq_true_eq] at reuses
                  obtain ⟨last, emits⟩ := reuses
                  rw [dims] at last
                  obtain ⟨count, ptr⟩ := sentAt.last last
                  rw [ptr, count] at emits
                  simp only [GridMPI.emitsInto, Bool.and_eq_true, decide_eq_true_eq,
                    List.any_eq_true, List.mem_range] at emits
                  obtain ⟨buffer, position, less, isSome⟩ := emits
                  have remaining : (state.process rank).remaining space.numDims =
                      .kernel rest.length ::
                        scriptOf space.numDims (rest.map GridOperation.exchange?) := by
                    simp [IterationProcess.remaining, todo, next, GridOperation.exchange?,
                      scriptOf]
                  obtain ⟨found, -⟩ := found_of_drop (follows.left.trans remaining)
                  refine .kernel last found ?_ ⟨done, emitted, rest, ?_, rfl,
                    (state.process rank).grid, recording.shape, position, less, isSome⟩
                  · rw [buffer, follows.dataId]
                  · rw [← performed, next]
      | cons action rest =>
          cases action with
          | recv dim dir => simp [IterationProcess.reuses, todo] at reuses
          | wait dim => simp [IterationProcess.reuses, todo] at reuses
          | send dim dir =>
              simp only [IterationProcess.reuses, todo, Bool.and_eq_true,
                decide_eq_true_eq] at reuses
              obtain ⟨⟨⟨⟨⟨sends, inner⟩, enough⟩, rfl⟩, rfl⟩, ptr⟩ := reuses
              rw [dims] at inner
              have remaining : (state.process rank).remaining space.numDims =
                  .block (state.process rank).exchange
                      (.send message.halo.dim message.halo.dir) ::
                    (rest.map (.block (state.process rank).exchange) ++
                      scriptOf space.numDims ((state.process rank).operations.map
                        GridOperation.exchange?)) := by
                rw [IterationProcess.remaining, todo]
                rfl
              obtain ⟨found, -⟩ := found_of_drop (follows.left.trans remaining)
              rw [sends_congr _ recording.shape] at sends
              refine .pack inner ⟨found, sends⟩ fun between above below other sendsThere => ?_
              rcases Nat.lt_or_eq_of_le below with earlier | rfl
              · exact sentAt.inner inner ptr between above earlier other sendsThere
              · cases Option.some.inj (found.symm.trans sendsThere.found)
                have wide : 0 < (state.process rank).exchange.width message.halo.dir
                    message.halo.dim := by
                  simp only [HaloExchange.sends, Bool.and_eq_true, decide_eq_true_eq] at sends
                  exact sends.1
                have positive := sound.grid.haloBytes_pos recording.occupied _ wide
                obtain ⟨first, before, own, sendsFirst, size⟩ :=
                  follows.bufSize _ _ inner (positive.trans_le enough)
                refine ⟨first, before, own, sendsFirst, ?_⟩
                rw [sentBytes, ← (recording.haloBytes_eq todo).2, ← size]
                exact enough

end Created

end Runs

namespace IterationState

/-- With all sends acknowledged, every run is one that overwrites nothing. -/
theorem completed_of_acknowledged
    {space : GridSpaceMPI} {elmSize : Nat} {size globalOffset : IndexArray}
    {doubleBuffering : Bool} {memory : Nat → Nat → Int → α} {grids : Nat → GridMPI α}
    (created : grids = space.distribute elmSize size doubleBuffering globalOffset memory)
    (distributed : Distributed space elmSize size globalOffset grids)
    (sendsGrid : ∀ rank < space.numProcs, SendsGrid space (grids rank))
    {operations : Nat → List (GridOperation α)} {schedule : List (Option HaloExchange)}
    (alike : ∀ rank < space.numProcs,
      (operations rank).map GridOperation.exchange? = schedule)
    (acknowledged : SendsAcknowledged space grids schedule operations)
    {state : IterationState α} (reached : Reaches (Step space) (start grids operations) state) :
    Reaches (CompletedStep space) (start grids operations) state ∧
      ∀ rank < space.numProcs, SendsCompleted space rank state := by
  have completed {state : IterationState α}
      (steps : Reaches (Step space) (start grids operations) state)
      (reached : Reaches (CompletedStep space) (start grids operations) state) :
      ∀ rank < space.numProcs, SendsCompleted space rank state := by
    intro rank bounded
    have recorded : ∃ done, (grids rank).empty = false →
        Recording (grids rank) done (state.process rank) ∧
          done ++ (state.process rank).operations = operations rank := by
      by_cases occupied : (grids rank).empty = false
      · subst created
        obtain ⟨done, recording⟩ := recording_of_reaches occupied steps
        exact ⟨done, fun _ => recording⟩
      · exact ⟨[], fun isOccupied => absurd isOccupied occupied⟩
    obtain ⟨done, recording⟩ := recorded
    exact (allFollow_of_reaches created sendsGrid alike reached).sendsCompleted distributed
      acknowledged bounded (by rw [created]; rfl) recording
      (sendsSound_of_reaches sendsGrid reached bounded)
  induction reached with
  | refl => exact ⟨.refl, completed .refl .refl⟩
  | @tail before after reached step induction =>
      have next := induction.1.tail (step.imp_left fun ⟨rank, bounded, step⟩ =>
        ⟨rank, bounded, induction.2 rank bounded, step⟩)
      exact ⟨next, completed (reached.tail step) next⟩

/--
Where every halo sent is waited for by its receiver before its process comes to
write the memory again, no process is ever about to overwrite an outstanding
message, and every message carries what it was posted with.
-/
theorem sends_not_overtaken
    {space : GridSpaceMPI} {elmSize : Nat} {size globalOffset : IndexArray}
    {doubleBuffering : Bool} {memory : Nat → Nat → Int → α}
    (fits : ∀ i < space.numDims,
      0 ≤ globalOffset i ∧ globalOffset i + size i ≤ space.globalSize i)
    (elements : 0 < elmSize)
    {operations : Nat → List (GridOperation α)} {schedule : List (Option HaloExchange)}
    (alike : ∀ rank < space.numProcs,
      (operations rank).map GridOperation.exchange? = schedule)
    (acknowledged : SendsAcknowledged space
      (space.distribute elmSize size doubleBuffering globalOffset memory) schedule operations)
    {state : IterationState α}
    (reached : Reaches (Step space)
      (start (space.distribute elmSize size doubleBuffering globalOffset memory) operations)
      state)
    {rank : Nat} (bounded : rank < space.numProcs) :
    ¬Overwrites state rank ∧
    ∀ target, ∀ message ∈ state.sent rank target,
      message.transfer.read <+: message.transfer.posted ∧
      (¬message.transfer.Outstanding →
        message.transfer.read = message.transfer.posted) := by
  have distributed :=
    space.distribute_distributed elmSize size doubleBuffering globalOffset memory fits
  have sendsGrid : ∀ rank < space.numProcs, SendsGrid space
      (space.distribute elmSize size doubleBuffering globalOffset memory rank) :=
    fun rank bounded => (distributed.decomposed rank bounded).sendsGrid elements
      (GridMPI.create_separateBuffers _ _ _ _ _ _ _ _)
  obtain ⟨steps, completed⟩ :=
    completed_of_acknowledged rfl distributed sendsGrid alike acknowledged reached
  have sound := sendsSound_of_reaches sendsGrid steps bounded
  refine ⟨sound.not_overwrites_iff.mpr (completed rank bounded), fun target message sent => ?_⟩
  have carried := sound.sound target message sent
  exact ⟨carried.carried, carried.complete⟩

/-! ## Two processes -/

theorem pair_globalPos : ∀ i < 1, 0 < (IntegerArray.mk3 2 0 0 : IndexArray) i := by decide

theorem pair_procPos : ∀ i < 1, 0 < (IntegerArray.mk3 2 0 0 : IntArray) i := by decide

/-- Two processes in a row. -/
def pair : GridSpaceMPI where
  numDims := 1
  globalSize := IntegerArray.mk3 2 0 0
  procSize := IntegerArray.mk3 2 0 0
  globalPos := pair_globalPos
  procPos := pair_procPos

/-- One cell on each process, double-buffered, holding 10 and 20. -/
def pairGrids : Nat → GridMPI Int :=
  pair.distribute 8 (IntegerArray.mk3 2 0 0) true (fun _ => 0)
    fun rank buffer _ => if buffer = 0 then 10 * ((rank : Int) + 1) else 0

/-- A halo for forward access, so that process 1 only sends. -/
def forwardHalo : HaloExchange where
  width dir _ := if dir = .fw then 1 else 0
  diagonal := false
  periodic := false

/-- Halos for access on both sides. -/
def bothHalos : HaloExchange where
  width _ _ := 1
  diagonal := false
  periodic := false

/-- Two iterations of an exchange and a kernel that adds one. -/
def twoIterations (halos : HaloExchange) : List (GridOperation Int) :=
  let kernel := .kernel fun (grid : GridMPI Int) position => some (grid.data position + 1)
  [.exchange halos, kernel, .exchange halos, kernel]

/-- Whether a process may go on in a run of completed steps. -/
def mayGoOn (rank : Nat) (state : IterationState Int) : Bool :=
  decide (SendsCompleted pair rank state)

/--
Process 1 runs ahead to its second kernel with both messages outstanding.  The
kernel writes the buffer the first was sent from, and MPI reads it after that.
-/
theorem pair_overtaken :
    ∃ state, Reaches (Step pair) (start pairGrids fun _ => twoIterations forwardHalo) state ∧
      Overwrites state 1 ∧
      ∃ after, Reaches (Step pair) state after ∧
        ∃ message ∈ after.sent 1 0, ¬message.transfer.Outstanding ∧
          message.transfer.read ≠ message.transfer.posted := by
  have run : (replay pair mayGoOn (List.replicate 13 (.program 1))
      (start pairGrids fun _ => twoIterations forwardHalo)).any (fun state =>
        decide (¬SendsCompleted pair 1 state) &&
          (replay pair (fun _ _ => true) [.program 1, .read 1 0 0] state).any
            fun after => decide (∃ message ∈ after.sent 1 0,
              ¬message.transfer.Outstanding ∧
                message.transfer.read ≠ message.transfer.posted)) = true := by
    decide
  simp only [Option.any_eq_true, Bool.and_eq_true, decide_eq_true_eq] at run
  obtain ⟨state, replayed, incomplete, after, continued, overtaken⟩ := run
  have reached := reaches_of_replay_completed replayed
  have sendsGrid : ∀ rank < pair.numProcs, SendsGrid pair (pairGrids rank) :=
    fun rank bounded => ((pair.distribute_distributed 8 _ true _ _
      (by decide)).decomposed rank bounded).sendsGrid (by decide)
        (GridMPI.create_separateBuffers _ _ _ _ _ _ _ _)
  have sound := sendsSound_of_reaches sendsGrid reached
    (show 1 < pair.numProcs by decide)
  refine ⟨state, Relation.ReflTransGen.mono ?_ _ _ reached, ?_, after,
    reaches_of_replay_step continued, overtaken⟩
  · rintro before next (⟨rank, bounded, _, step⟩ | reads)
    · exact Or.inl ⟨rank, bounded, step⟩
    · exact Or.inr reads
  · by_contra spared
    exact incomplete (sound.not_overwrites_iff.mp spared)

/-- The places where halos are sent in two iterations in one dimension. -/
theorem twoIterations_send {place dim : Nat} {dir : Dir} {exchange : HaloExchange}
    (found : (scriptOf 1 [some bothHalos, none, some bothHalos, none])[place]? =
      some (.block exchange (.send dim dir))) :
    exchange = bothHalos ∧ dim = 0 ∧
      (place = 2 ∧ dir = .fw ∨ place = 3 ∧ dir = .bw ∨ place = 8 ∧ dir = .fw ∨
        place = 9 ∧ dir = .bw) := by
  have bound : place < 12 := (List.getElem?_eq_some_iff.mp found).1
  interval_cases place <;>
    simp_all [scriptOf, exchangeProgram, exchangeDimension]

theorem twoIterations_kernel {place left : Nat}
    (found : (scriptOf 1 [some bothHalos, none, some bothHalos, none])[place]? =
      some (.kernel left)) : place = 5 ∨ place = 11 := by
  have bound : place < 12 := (List.getElem?_eq_some_iff.mp found).1
  interval_cases place <;>
    simp_all [scriptOf, exchangeProgram, exchangeDimension]

/-- The halo a process sends in one exchange comes with one it receives from its neighbour. -/
theorem bothHalos_hears {rank : Nat} (bounded : rank < 2) {dir : Dir}
    (sends : bothHalos.sends (pairGrids rank) 0 dir = true) :
    Hears pair pairGrids [some bothHalos, none, some bothHalos, none] rank 11
        (pair.neighbor rank 0 dir.flip) 6 ∨
      Hears pair pairGrids [some bothHalos, none, some bothHalos, none] rank 11
        (pair.neighbor rank 0 dir.flip) 7 := by
  obtain rfl | rfl : rank = 0 ∨ rank = 1 := by omega
  · cases dir with
    | fw => exact absurd sends (by decide)
    | bw => exact .inl ⟨bothHalos, 0, .fw, rfl, by decide, by decide, by decide⟩
  · cases dir with
    | fw => exact .inr ⟨bothHalos, 0, .bw, rfl, by decide, by decide, by decide⟩
    | bw => exact absurd sends (by decide)

/-- The kernel of an iteration writes the other buffer than the one sent from. -/
theorem pairGrids_dataId (rank : Nat) :
    dataIdAfter pairGrids rank 0 0 = 0 ∧ dataIdAfter pairGrids rank 0 1 = 1 ∧
      dataIdAfter pairGrids rank 1 0 = 1 ∧ dataIdAfter pairGrids rank 1 1 = 0 :=
  ⟨rfl, rfl, rfl, rfl⟩

theorem twoIterations_kernelsBefore :
    (∀ place ∈ ([2, 3, 5] : List Nat),
      kernelsBefore pair [some bothHalos, none, some bothHalos, none] place = 0) ∧
    ∀ place ∈ ([8, 9, 11] : List Nat),
      kernelsBefore pair [some bothHalos, none, some bothHalos, none] place = 1 := by
  decide

/--
The second kernel writes the buffer the first halos were sent from, and before it
each process waits for a halo that the other sent after it had the first.
-/
theorem bothHalos_acknowledged :
    SendsAcknowledged pair pairGrids [some bothHalos, none, some bothHalos, none]
      fun _ => twoIterations bothHalos := by
  intro rank bounded _ place dim dir exchange sends later before rewrites
  obtain ⟨rfl, rfl, places⟩ := twoIterations_send sends.found
  cases rewrites with
  | pack inner => exact absurd inner (by decide)
  | kernel _ found buffer =>
      obtain ⟨none, one⟩ := twoIterations_kernelsBefore
      obtain ⟨first, second, third, fourth⟩ := pairGrids_dataId rank
      have last : (place = 2 ∧ dir = .fw ∨ place = 3 ∧ dir = .bw) ∧ later = 11 := by
        rcases twoIterations_kernel found with rfl | rfl
        · have early : place ∈ ([2, 3, 5] : List Nat) := by
            rcases places with ⟨rfl, -⟩ | ⟨rfl, -⟩ | ⟨rfl, -⟩ | ⟨rfl, -⟩ <;> simp_all
          rw [none place early, none 5 (by decide), first, second] at buffer
          cases buffer
        · rw [one 11 (by decide), fourth] at buffer
          have early : place ∉ ([8, 9, 11] : List Nat) := by
            intro late
            rw [one place late, third] at buffer
            cases buffer
          rcases places with fw | bw | ⟨rfl, -⟩ | ⟨rfl, -⟩
          · exact ⟨.inl fw, rfl⟩
          · exact ⟨.inr bw, rfl⟩
          · exact absurd (by decide) early
          · exact absurd (by decide) early
      obtain ⟨places, rfl⟩ := last
      have waits : place + (ExchangeAction.send 0 dir).untilWait = 4 := by
        rcases places with ⟨rfl, rfl⟩ | ⟨rfl, rfl⟩ <;> rfl
      rw [waits]
      rcases bothHalos_hears bounded sends.sends with heard | heard
      · exact .heard heard (.own (by decide))
      · exact .heard heard (.own (by decide))

/-- A process goes on for some steps. -/
def Move.programs (rank count : Nat) : List Move :=
  List.replicate count (.program rank)

/-- Both processes through both iterations, each message read as it is waited for. -/
def bothMoves : List Move :=
  List.flatten [Move.programs 1 5, Move.programs 0 5, [.read 0 1 0, .read 1 0 0],
    Move.programs 1 8, Move.programs 0 8, [.read 0 1 1, .read 1 0 1],
    Move.programs 1 3, Move.programs 0 3]

/-- With halos on both sides both values of each process arrive, in every run. -/
theorem pair_carries :
    (∃ state, Reaches (Step pair) (start pairGrids fun _ => twoIterations bothHalos) state ∧
      (∀ rank ∈ ([0, 1] : List Nat), (state.process rank).operations.length = 0) ∧
      (state.sent 1 0).map (fun message => message.transfer.read) = [[20], [21]] ∧
      (state.sent 0 1).map (fun message => message.transfer.read) = [[10], [11]]) ∧
    ∀ state, Reaches (Step pair) (start pairGrids fun _ => twoIterations bothHalos) state →
      ∀ rank < 2, ¬Overwrites state rank ∧
        ∀ target, ∀ message ∈ state.sent rank target,
          message.transfer.read <+: message.transfer.posted ∧
          (¬message.transfer.Outstanding →
            message.transfer.read = message.transfer.posted) := by
  constructor
  · have run : (replay pair (fun _ _ => true) bothMoves
        (start pairGrids fun _ => twoIterations bothHalos)).any (fun state =>
          decide ((∀ rank ∈ ([0, 1] : List Nat), (state.process rank).operations.length = 0) ∧
            (state.sent 1 0).map (fun message => message.transfer.read) = [[20], [21]] ∧
            (state.sent 0 1).map (fun message => message.transfer.read) = [[10], [11]])) =
        true := by
      decide +kernel
    obtain ⟨state, replayed, holds⟩ := (Option.any_eq_true _ _).mp run
    obtain ⟨done, first, second⟩ := of_decide_eq_true holds
    exact ⟨state, reaches_of_replay_step replayed, done, first, second⟩
  · intro state reached rank bounded
    exact sends_not_overtaken (by decide) (by decide) (fun _ _ => rfl)
      bothHalos_acknowledged reached bounded

end IterationState

end Physis.Runtime
