import Physis.Runtime.ExchangeScript

/-!
# Halo messages match

In every reachable state each process has performed a part of its script, and
its posted receives and sent messages are the projections of that part.  The
receives posted for a source and the messages of that source are therefore
prefixes of one list, and a process that waits can be pointed at a neighbour
that has not sent yet and is itself not behind.
-/

namespace Physis.Runtime

open Physis.Library
open Physis.Library.Channels
open Physis.Library.Runs

namespace ExchangeState

variable {α : Type} (state : ExchangeState α)

@[simp]
theorem advance_process_self (rank : Nat) (process : ExchangeProcess α) :
    (state.advance rank process).process rank = process := by
  simp [advance]

theorem advance_process_other
    {rank other : Nat} (different : other ≠ rank) (process : ExchangeProcess α) :
    (state.advance rank process).process other = state.process other := by
  simp [advance, different]

@[simp]
theorem advance_posted (rank : Nat) (process : ExchangeProcess α) :
    (state.advance rank process).posted = state.posted := rfl

@[simp]
theorem advance_sent (rank : Nat) (process : ExchangeProcess α) :
    (state.advance rank process).sent = state.sent := rfl

@[simp]
theorem post_process (rank source : Nat) (halo : HaloTransfer) :
    (state.post rank source halo).process = state.process := rfl

@[simp]
theorem post_sent (rank source : Nat) (halo : HaloTransfer) :
    (state.post rank source halo).sent = state.sent := rfl

@[simp]
theorem transmit_process (rank target : Nat) (message : HaloMessage α) :
    (state.transmit rank target message).process = state.process := rfl

@[simp]
theorem transmit_posted (rank target : Nat) (message : HaloMessage α) :
    (state.transmit rank target message).posted = state.posted := rfl

end ExchangeState

namespace HaloExchange

variable
    {α : Type} (exchange : HaloExchange) (space : GridSpaceMPI)
    (grids : Nat → GridMPI α)

/-- The blocks one process has to perform. -/
def script (rank : Nat) : List ExchangeAction :=
  if (grids rank).empty then [] else exchangeProgram (grids rank).numDims

/-- One process has performed the blocks `done` of its script. -/
structure Follows
    (rank : Nat) (state : ExchangeState α) (done : List ExchangeAction) :
    Prop where
  script : done ++ (state.process rank).todo = script grids rank
  shape : SameShape (grids rank) (state.process rank).grid
  widths : ∀ dim dir, .recv dim dir ∈ done →
    (state.process rank).grid.haloWidth dir dim =
      exchange.receivedWidth (grids rank) dim dir
  sizes : ∀ dim dir, .recv dim dir ∈ done →
    (state.process rank).grid.haloSize dir dim =
      exchange.receivedSize (grids rank) dim dir
  posted : ∀ source, state.posted rank source =
    done.filterMap (exchange.postFrom space grids rank source)
  sent : ∀ target, (state.sent rank target).map HaloMessage.halo =
    done.filterMap (exchange.sendTo space grids rank target)
  requested : ∀ request ∈ (state.process rank).requests,
    (state.posted rank request.source)[request.ticket]? = some request.halo ∧
      .wait request.halo.dim ∈ (state.process rank).todo
  answered : ∀ source ticket, ticket < (state.posted rank source).length →
    (∃ request ∈ (state.process rank).requests,
        request.source = source ∧ request.ticket = ticket) ∨
      ticket < (state.sent source rank).length

/-- Every process has performed a part of its script. -/
def Synchronised (state : ExchangeState α) : Prop :=
  ∀ rank < space.numProcs, ∃ done, exchange.Follows space grids rank state done

variable {exchange space grids}

/-- The steps of other processes only add messages to receive. -/
theorem Follows.frame
    {rank : Nat} {state after : ExchangeState α} {done : List ExchangeAction}
    (follows : exchange.Follows space grids rank state done)
    (process : after.process rank = state.process rank)
    (posted : after.posted rank = state.posted rank)
    (sent : after.sent rank = state.sent rank)
    (grown : ∀ source, state.sent source rank <+: after.sent source rank) :
    exchange.Follows space grids rank after done where
  script := by rw [process]; exact follows.script
  shape := by rw [process]; exact follows.shape
  widths := by rw [process]; exact follows.widths
  sizes := by rw [process]; exact follows.sizes
  posted := by rw [posted]; exact follows.posted
  sent := by rw [sent]; exact follows.sent
  requested := by rw [process, posted]; exact follows.requested
  answered := by
    rw [process, posted]
    intro source ticket below
    rcases follows.answered source ticket below with waiting | arrived
    · exact Or.inl waiting
    · exact Or.inr (arrived.trans_le (grown source).length_le)

theorem synchronised_start
    (exchange : HaloExchange) (space : GridSpaceMPI)
    (grids : Nat → GridMPI α) :
    exchange.Synchronised space grids (start grids) := by
  intro rank _
  refine ⟨[], ?_⟩
  constructor
  · rfl
  · exact SameShape.refl _
  · simp
  · simp
  · simp [start]
  · simp [start]
  · simp [start]
  · simp [start]

section ActorStep

variable
    {rank dim : Nat} {dir : Dir} {state : ExchangeState α}
    {done rest : List ExchangeAction}

/-- A process with a block to perform has data, and follows the full program. -/
theorem Follows.split
    {action : ExchangeAction}
    (follows : exchange.Follows space grids rank state done)
    (next : (state.process rank).todo = action :: rest) :
    (grids rank).empty = false ∧
      done ++ action :: rest = exchangeProgram (grids rank).numDims := by
  have split := follows.script
  rw [next, HaloExchange.script] at split
  cases occupied : (grids rank).empty with
  | true =>
      rw [occupied] at split
      simp at split
  | false =>
      rw [occupied] at split
      exact ⟨rfl, by simpa using split⟩

/-- The widths of the later dimensions are set when a block is reached. -/
theorem Follows.laterWidths
    {action : ExchangeAction}
    (follows : exchange.Follows space grids rank state done)
    (next : (state.process rank).todo = action :: rest) :
    ∀ i, action.dim < i → i < (grids rank).numDims → ∀ side,
      (state.process rank).grid.haloWidth side i =
        (exchange.received (grids rank)).haloWidth side i := by
  intro i above below side
  apply follows.widths
  rw [mem_done_iff (follows.split next).2]
  refine ⟨below, ?_⟩
  have lower := ExchangeAction.stage_bounds action
  have upper := ExchangeAction.stage_bounds (.recv i side)
  have same : (ExchangeAction.recv i side).dim = i := rfl
  omega

/-- The process computes the byte count that the script records. -/
theorem Follows.transfer_eq
    {action : ExchangeAction}
    (follows : exchange.Follows space grids rank state done)
    (next : (state.process rank).todo = action :: rest) (side : Dir) :
    exchange.transfer (state.process rank).grid action.dim side =
      exchange.transfer (exchange.received (grids rank)) action.dim side := by
  have shape : SameShape (exchange.received (grids rank))
      (state.process rank).grid :=
    ⟨follows.shape.elmSize, follows.shape.numDims, follows.shape.size,
      follows.shape.localOffset, follows.shape.localSize⟩
  simp only [transfer, haloBytes]
  rw [shape.calcHaloSize (follows.laterWidths next), shape.elmSize]

/-- Recording the expected value for a halo extends the record by one block. -/
theorem recorded_update
    {Value : Type} {table : Dir → Nat → Value} (expected : Dir → Nat → Value)
    (recorded : ∀ i side, ExchangeAction.recv i side ∈ done →
      table side i = expected side i) :
    ∀ i side,
      ExchangeAction.recv i side ∈ done ++ [ExchangeAction.recv dim dir] →
        Function.update table dir
          (Function.update (table dir) dim (expected dir dim)) side i =
            expected side i := by
  intro i side member
  by_cases sameSide : side = dir
  · subst sameSide
    rw [Function.update_self]
    by_cases same : i = dim
    · subst same
      rw [Function.update_self]
    · rw [Function.update_of_ne same]
      exact recorded i side (by simpa [same] using member)
  · rw [Function.update_of_ne sameSide]
    exact recorded i side (by simpa [sameSide] using member)

/-- Blocks that receive nothing leave the record as it is. -/
theorem recv_mem_of_append
    {action : ExchangeAction} {i : Nat} {side : Dir}
    (other : ∀ j dir, action ≠ .recv j dir)
    (member : ExchangeAction.recv i side ∈ done ++ [action]) :
    ExchangeAction.recv i side ∈ done := by
  rcases List.mem_append.mp member with earlier | newest
  · exact earlier
  · exact absurd (List.mem_singleton.mp newest).symm (other i side)

/-- A block that posts and sends nothing. -/
theorem Follows.silent
    {action : ExchangeAction} {grid : GridMPI α}
    (follows : exchange.Follows space grids rank state done)
    (next : (state.process rank).todo = action :: rest)
    (shape : SameShape (grids rank) grid)
    (widths : ∀ dim dir, .recv dim dir ∈ done ++ [action] →
      grid.haloWidth dir dim = exchange.receivedWidth (grids rank) dim dir)
    (sizes : ∀ dim dir, .recv dim dir ∈ done ++ [action] →
      grid.haloSize dir dim = exchange.receivedSize (grids rank) dim dir)
    (postsNone : ∀ source,
      exchange.postFrom space grids rank source action = none)
    (sendsNone : ∀ target,
      exchange.sendTo space grids rank target action = none)
    (waits : ∀ request ∈ (state.process rank).requests,
      action ≠ .wait request.halo.dim) :
    exchange.Follows space grids rank
      (state.advance rank
        { grid := grid
          todo := rest
          requests := (state.process rank).requests })
      (done ++ [action]) := by
  have split := follows.script
  rw [next] at split
  constructor
  · rw [ExchangeState.advance_process_self, List.append_assoc]
    exact split
  · rw [ExchangeState.advance_process_self]
    exact shape
  · rw [ExchangeState.advance_process_self]
    exact widths
  · rw [ExchangeState.advance_process_self]
    exact sizes
  · intro source
    rw [ExchangeState.advance_posted, follows.posted, List.filterMap_append]
    simp [postsNone]
  · intro target
    rw [ExchangeState.advance_sent, follows.sent, List.filterMap_append]
    simp [sendsNone]
  · rw [ExchangeState.advance_process_self]
    intro request member
    obtain ⟨held, waiting⟩ := follows.requested request member
    rw [next, List.mem_cons] at waiting
    exact ⟨held, waiting.resolve_left fun same => waits request member same.symm⟩
  · rw [ExchangeState.advance_process_self]
    exact follows.answered

theorem follows_recv
    (follows : exchange.Follows space grids rank state done)
    (next : (state.process rank).todo = .recv dim dir :: rest)
    (receives : exchange.receives (state.process rank).grid dim dir = true) :
    exchange.Follows space grids rank
      ((state.post rank (space.neighbor rank dim dir)
          (exchange.transfer (state.process rank).grid dim dir)).advance rank
        { grid := exchange.prepareRecv (state.process rank).grid dim dir
          todo := rest
          requests := (state.process rank).requests ++
            [⟨exchange.transfer (state.process rank).grid dim dir,
              space.neighbor rank dim dir,
              (state.posted rank (space.neighbor rank dim dir)).length⟩] })
      (done ++ [.recv dim dir]) := by
  have receivesOrigin : exchange.receives (grids rank) dim dir = true := by
    rw [← exchange.receives_congr follows.shape]
    exact receives
  have transferred := follows.transfer_eq next dir
  simp only [ExchangeAction.dim] at transferred
  have posted : ∀ source,
      push state.posted rank (space.neighbor rank dim dir)
          (exchange.transfer (state.process rank).grid dim dir) rank source =
        (done ++ [ExchangeAction.recv dim dir]).filterMap
          (exchange.postFrom space grids rank source) := by
    apply push_filterMap follows.posted
    · simp only [postFrom]
      rw [if_pos ⟨receivesOrigin, trivial⟩, transferred]
    · intro other different
      simp only [postFrom]
      rw [if_neg fun both => different both.2.symm]
  have split := follows.script
  rw [next] at split
  have shape : SameShape (exchange.received (grids rank))
      (state.process rank).grid :=
    ⟨follows.shape.elmSize, follows.shape.numDims, follows.shape.size,
      follows.shape.localOffset, follows.shape.localSize⟩
  constructor
  · rw [ExchangeState.advance_process_self, List.append_assoc]
    exact split
  · rw [ExchangeState.advance_process_self]
    exact ⟨follows.shape.elmSize, follows.shape.numDims, follows.shape.size,
      follows.shape.localOffset, follows.shape.localSize⟩
  · rw [ExchangeState.advance_process_self]
    have width : exchange.width dir dim =
        exchange.receivedWidth (grids rank) dim dir := by
      rw [receivedWidth, if_pos receivesOrigin]
    simp only [prepareRecv]
    rw [width]
    exact recorded_update
      (fun side i => exchange.receivedWidth (grids rank) i side)
      follows.widths
  · rw [ExchangeState.advance_process_self]
    have size : (fun i =>
        if i < (state.process rank).grid.numDims then
          (state.process rank).grid.haloExtent dim (exchange.width dir dim)
            exchange.diagonal i
        else 0) = exchange.receivedSize (grids rank) dim dir := by
      rw [receivedSize, if_pos receivesOrigin]
      funext j
      rw [follows.shape.numDims]
      by_cases below : j < (grids rank).numDims
      · rw [if_pos below, if_pos below]
        exact shape.haloExtent (follows.laterWidths next) _ _ below
      · rw [if_neg below, if_neg below]
    simp only [prepareRecv, GridMPI.setHaloSize]
    rw [size]
    exact recorded_update
      (fun side i => exchange.receivedSize (grids rank) i side)
      follows.sizes
  · exact posted
  · intro target
    rw [ExchangeState.advance_sent, ExchangeState.post_sent, follows.sent,
      List.filterMap_append]
    simp [sendTo]
  · rw [ExchangeState.advance_process_self]
    intro request member
    rcases List.mem_append.mp member with earlier | newest
    · obtain ⟨held, waiting⟩ := follows.requested request earlier
      rw [next] at waiting
      exact ⟨getElem?_grown (prefix_push _ _ _ _ _ _) held,
        by simpa using waiting⟩
    · rw [List.mem_singleton] at newest
      subst newest
      constructor
      · simp [ExchangeState.post, ExchangeState.advance]
      · have program := (follows.split next).2
        have below := dim_lt_of_split program
        change ExchangeAction.wait dim ∈ rest
        rw [mem_rest_iff program]
        exact ⟨below, by cases dir <;> simp [ExchangeAction.stage]⟩
  · rw [ExchangeState.advance_process_self]
    intro source ticket below
    simp only [ExchangeState.advance_posted, ExchangeState.post] at below
    have earlier : ticket < (state.posted rank source).length →
        (∃ request ∈ (state.process rank).requests ++
            [⟨exchange.transfer (state.process rank).grid dim dir,
              space.neighbor rank dim dir,
              (state.posted rank (space.neighbor rank dim dir)).length⟩],
          request.source = source ∧ request.ticket = ticket) ∨
        ticket < (state.sent source rank).length := by
      intro lower
      rcases follows.answered source ticket lower with
        ⟨request, member, is⟩ | arrived
      · exact Or.inl ⟨request, List.mem_append_left _ member, is⟩
      · exact Or.inr arrived
    by_cases same : source = space.neighbor rank dim dir
    · subst source
      rw [push_same, List.length_append, List.length_singleton] at below
      rcases Nat.lt_succ_iff_lt_or_eq.mp below with lower | newest
      · exact earlier lower
      · exact Or.inl ⟨_, List.mem_append_right _ (List.mem_singleton_self _), rfl,
          newest.symm⟩
    · rw [push_other_target _ _ same] at below
      exact earlier below

theorem follows_skipRecv
    (follows : exchange.Follows space grids rank state done)
    (next : (state.process rank).todo = .recv dim dir :: rest)
    (receives : exchange.receives (state.process rank).grid dim dir = false) :
    exchange.Follows space grids rank
      (state.advance rank
        { grid := clearHalo (state.process rank).grid dim dir
          todo := rest
          requests := (state.process rank).requests })
      (done ++ [.recv dim dir]) := by
  have receivesOrigin : ¬exchange.receives (grids rank) dim dir = true := by
    rw [← exchange.receives_congr follows.shape, receives]
    decide
  have width : exchange.receivedWidth (grids rank) dim dir = 0 := by
    rw [receivedWidth, if_neg receivesOrigin]
  have size : exchange.receivedSize (grids rank) dim dir = fun _ => 0 := by
    rw [receivedSize, if_neg receivesOrigin]
  apply follows.silent next
  · exact ⟨follows.shape.elmSize, follows.shape.numDims, follows.shape.size,
      follows.shape.localOffset, follows.shape.localSize⟩
  · simp only [clearHalo]
    rw [← width]
    exact recorded_update
      (fun side i => exchange.receivedWidth (grids rank) i side)
      follows.widths
  · simp only [clearHalo]
    rw [← size]
    exact recorded_update
      (fun side i => exchange.receivedSize (grids rank) i side)
      follows.sizes
  · intro source
    simp [postFrom, receivesOrigin]
  · intro target
    simp [sendTo]
  · simp

theorem follows_send
    {grid : GridMPI α}
    (follows : exchange.Follows space grids rank state done)
    (next : (state.process rank).todo = .send dim dir :: rest)
    (sends : exchange.sends (state.process rank).grid dim dir = true)
    (keeps : KeepsHalos (state.process rank).grid grid) (payload : List α) :
    exchange.Follows space grids rank
      ((state.transmit rank (space.neighbor rank dim dir.flip)
          { halo := exchange.transfer (state.process rank).grid dim dir
            payload := payload }).advance rank
        { grid := grid
          todo := rest
          requests := (state.process rank).requests })
      (done ++ [.send dim dir]) := by
  have sendsOrigin : exchange.sends (grids rank) dim dir = true := by
    rw [← exchange.sends_congr follows.shape]
    exact sends
  have transferred := follows.transfer_eq next dir
  simp only [ExchangeAction.dim] at transferred
  have split := follows.script
  rw [next] at split
  constructor
  · rw [ExchangeState.advance_process_self, List.append_assoc]
    exact split
  · rw [ExchangeState.advance_process_self]
    exact ⟨keeps.elmSize.trans follows.shape.elmSize,
      keeps.numDims.trans follows.shape.numDims,
      keeps.size.trans follows.shape.size,
      keeps.localOffset.trans follows.shape.localOffset,
      keeps.localSize.trans follows.shape.localSize⟩
  · rw [ExchangeState.advance_process_self]
    intro i side member
    rw [keeps.haloWidth]
    exact follows.widths i side (recv_mem_of_append (by simp) member)
  · rw [ExchangeState.advance_process_self]
    intro i side member
    rw [keeps.haloSize]
    exact follows.sizes i side (recv_mem_of_append (by simp) member)
  · intro source
    rw [ExchangeState.advance_posted, ExchangeState.transmit_posted,
      follows.posted, List.filterMap_append]
    simp [postFrom]
  · intro target
    simp only [ExchangeState.advance_sent, ExchangeState.transmit]
    rw [map_push]
    apply push_filterMap follows.sent
    · simp only [sendTo]
      rw [if_pos ⟨sendsOrigin, trivial⟩, transferred]
    · intro other different
      simp only [sendTo]
      rw [if_neg fun both => different both.2.symm]
  · rw [ExchangeState.advance_process_self]
    intro request member
    obtain ⟨held, waiting⟩ := follows.requested request member
    rw [next] at waiting
    exact ⟨held, by simpa using waiting⟩
  · rw [ExchangeState.advance_process_self]
    intro source ticket below
    rcases follows.answered source ticket below with waiting | arrived
    · exact Or.inl waiting
    · exact Or.inr
        (arrived.trans_le (prefix_push state.sent _ _ _ source rank).length_le)

theorem follows_skipSend
    (follows : exchange.Follows space grids rank state done)
    (next : (state.process rank).todo = .send dim dir :: rest)
    (sends : exchange.sends (state.process rank).grid dim dir = false) :
    exchange.Follows space grids rank
      (state.advance rank
        { grid := (state.process rank).grid
          todo := rest
          requests := (state.process rank).requests })
      (done ++ [.send dim dir]) := by
  have sendsOrigin : ¬exchange.sends (grids rank) dim dir = true := by
    rw [← exchange.sends_congr follows.shape, sends]
    decide
  apply follows.silent next follows.shape
  · exact fun i side member =>
      follows.widths i side (recv_mem_of_append (by simp) member)
  · exact fun i side member =>
      follows.sizes i side (recv_mem_of_append (by simp) member)
  · simp [postFrom]
  · simp [sendTo, sendsOrigin]
  · simp

theorem follows_complete
    {request : HaloRequest} {others : List HaloRequest} {payload : List α}
    (follows : exchange.Follows space grids rank state done)
    (first : (state.process rank).requests = request :: others)
    (arrived : request.ticket < (state.sent request.source rank).length) :
    exchange.Follows space grids rank
      (state.advance rank
        { grid := deliver (state.process rank).grid request.halo payload
          todo := (state.process rank).todo
          requests := others })
      done := by
  constructor
  · rw [ExchangeState.advance_process_self]
    exact follows.script
  · rw [ExchangeState.advance_process_self]
    exact ⟨follows.shape.elmSize, follows.shape.numDims, follows.shape.size,
      follows.shape.localOffset, follows.shape.localSize⟩
  · rw [ExchangeState.advance_process_self]
    exact follows.widths
  · rw [ExchangeState.advance_process_self]
    exact follows.sizes
  · exact follows.posted
  · exact follows.sent
  · rw [ExchangeState.advance_process_self]
    intro other member
    exact follows.requested other (by rw [first]; exact List.mem_cons_of_mem _ member)
  · rw [ExchangeState.advance_process_self]
    intro source ticket below
    rcases follows.answered source ticket below with ⟨other, member, is⟩ | already
    · rw [first, List.mem_cons] at member
      rcases member with rfl | member
      · obtain ⟨rfl, rfl⟩ := is
        exact Or.inr arrived
      · exact Or.inl ⟨other, member, is⟩
    · exact Or.inr already

theorem follows_leave
    (follows : exchange.Follows space grids rank state done)
    (next : (state.process rank).todo = .wait dim :: rest)
    (none : (state.process rank).requests = []) :
    exchange.Follows space grids rank
      (state.advance rank
        { grid := (state.process rank).grid
          todo := rest
          requests := (state.process rank).requests })
      (done ++ [.wait dim]) := by
  apply follows.silent next follows.shape
  · exact fun i side member =>
      follows.widths i side (recv_mem_of_append (by simp) member)
  · exact fun i side member =>
      follows.sizes i side (recv_mem_of_append (by simp) member)
  · simp [postFrom]
  · simp [sendTo]
  · simp [none]

/-- The acting process performs its next block, or stays at its wait. -/
theorem Follows.performs
    {after : ExchangeState α}
    (follows : exchange.Follows space grids rank state done)
    (performs : exchange.Performs space rank state after) :
    ∃ done, exchange.Follows space grids rank after done := by
  cases performs with
  | recv next receives => exact ⟨_, follows_recv follows next receives⟩
  | skipRecv next receives => exact ⟨_, follows_skipRecv follows next receives⟩
  | send next sends packed =>
      exact ⟨_, follows_send follows next sends (copyoutHalo_keepsHalos packed) _⟩
  | skipSend next sends => exact ⟨_, follows_skipSend follows next sends⟩
  | complete next first arrived fits =>
      obtain ⟨bound, _⟩ := List.getElem?_eq_some_iff.mp arrived
      exact ⟨_, follows_complete follows first bound⟩
  | leave next none => exact ⟨_, follows_leave follows next none⟩

end ActorStep

/-- What a step leaves alone: the other processes and what they posted and sent. -/
theorem Performs.others
    {actor : Nat} {state after : ExchangeState α}
    (performs : exchange.Performs space actor state after) :
    (∀ rank, rank ≠ actor →
      after.process rank = state.process rank ∧
        after.posted rank = state.posted rank ∧
        after.sent rank = state.sent rank) ∧
      ∀ source target, state.sent source target <+: after.sent source target := by
  cases performs with
  | recv next receives =>
      refine ⟨fun rank different => ⟨?_, ?_, rfl⟩, fun _ _ => List.prefix_refl _⟩
      · exact ExchangeState.advance_process_other _ different _
      · exact push_other_source _ different _ _
  | skipRecv next receives =>
      exact ⟨fun rank different =>
        ⟨ExchangeState.advance_process_other _ different _, rfl, rfl⟩,
        fun _ _ => List.prefix_refl _⟩
  | send next sends packed =>
      refine ⟨fun rank different => ⟨?_, rfl, ?_⟩, prefix_push _ _ _ _⟩
      · exact ExchangeState.advance_process_other _ different _
      · exact push_other_source _ different _ _
  | skipSend next sends =>
      exact ⟨fun rank different =>
        ⟨ExchangeState.advance_process_other _ different _, rfl, rfl⟩,
        fun _ _ => List.prefix_refl _⟩
  | complete next first arrived fits =>
      exact ⟨fun rank different =>
        ⟨ExchangeState.advance_process_other _ different _, rfl, rfl⟩,
        fun _ _ => List.prefix_refl _⟩
  | leave next none =>
      exact ⟨fun rank different =>
        ⟨ExchangeState.advance_process_other _ different _, rfl, rfl⟩,
        fun _ _ => List.prefix_refl _⟩

theorem Synchronised.step
    {state after : ExchangeState α}
    (synchronised : exchange.Synchronised space grids state)
    (step : exchange.Step space state after) :
    exchange.Synchronised space grids after := by
  obtain ⟨actor, _, performed⟩ := step
  have performs := exchange.performs_of_step space performed
  intro rank bounded
  obtain ⟨done, follows⟩ := synchronised rank bounded
  by_cases same : rank = actor
  · subst rank
    exact follows.performs performs
  · obtain ⟨others, grown⟩ := performs.others
    obtain ⟨process, posted, sent⟩ := others rank same
    exact ⟨done, follows.frame process posted sent fun source => grown source rank⟩

/-- Every reachable state is synchronised. -/
theorem synchronised_of_reaches
    {state : ExchangeState α}
    (reached : Reaches (exchange.Step space) (start grids) state) :
    exchange.Synchronised space grids state :=
  reached.invariant (synchronised_start exchange space grids) fun _ _ => Synchronised.step

end HaloExchange

end Physis.Runtime
