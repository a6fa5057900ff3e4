import Physis.Runtime.ExchangeMatching

/-!
# The exchange cannot deadlock

Among the processes that have not returned, one that is furthest behind can
always go on: if it waits, the neighbour it waits for has performed at least
the same blocks, among them the send of that halo.
-/

namespace Physis.Runtime

open Physis.Library
open Physis.Library.Channels
open Physis.Library.Runs

namespace HaloExchange

variable
    {α : Type} {exchange : HaloExchange} {space : GridSpaceMPI}
    {elmSize : Nat} {size globalOffset : IndexArray}
    {grids : Nat → GridMPI α}

/-- A process with data receives halos only from processes with data. -/
def Sourced
    (exchange : HaloExchange) (space : GridSpaceMPI)
    (grids : Nat → GridMPI α) : Prop :=
  ∀ rank < space.numProcs, (grids rank).empty = false →
    ∀ dim < space.numDims, ∀ dir,
      exchange.receives (grids rank) dim dir = true →
        (grids (space.neighbor rank dim dir)).empty = false

/-- The receives of a process with data are the sends of the other. -/
theorem postFrom_eq_sendTo
    (distributed : Distributed space elmSize size globalOffset grids)
    {receiver source : Nat}
    (receiverBounded : receiver < space.numProcs)
    (sourceBounded : source < space.numProcs)
    (receiverOccupied : (grids receiver).empty = false)
    (sourceOccupied : (grids source).empty = false)
    {dim : Nat} (below : dim < space.numDims) (dir : Dir) :
    exchange.postFrom space grids receiver source (.recv dim dir) =
      exchange.sendTo space grids source receiver (.send dim dir) := by
  simp only [postFrom, sendTo]
  by_cases adjacent : space.neighbor receiver dim dir = source
  · have back :=
      (space.neighbor_eq_iff receiverBounded sourceBounded below dir).mp adjacent
    subst adjacent
    have next := distributed.nextTo dir receiverBounded below receiverOccupied
      sourceOccupied
    rw [exchange.receives_eq_sends next, exchange.transfer_eq next, back]
    simp
  · rw [if_neg fun both => adjacent both.2, if_neg fun both => adjacent
      ((space.neighbor_eq_iff receiverBounded sourceBounded below dir).mpr both.2)]

/-- A posted receive belongs to a block performed, and names its source. -/
theorem exists_recv_of_posted
    {rank source : Nat} {done : List ExchangeAction} {halo : HaloTransfer}
    (member : halo ∈ done.filterMap (exchange.postFrom space grids rank source)) :
    .recv halo.dim halo.dir ∈ done ∧
      exchange.receives (grids rank) halo.dim halo.dir = true ∧
      space.neighbor rank halo.dim halo.dir = source ∧
      halo = exchange.transfer (exchange.received (grids rank)) halo.dim halo.dir := by
  obtain ⟨action, performed, posts⟩ := List.mem_filterMap.mp member
  cases action with
  | recv dim dir =>
      simp only [postFrom] at posts
      split at posts
      · rename_i both
        cases posts
        exact ⟨performed, both.1, both.2, rfl⟩
      · cases posts
  | send dim dir => cases posts
  | wait dim => cases posts

section Progress

variable
    (distributed : Distributed space elmSize size globalOffset grids)
    (dims : space.numDims ≤ psMaxDim)
    (sourced : Sourced exchange space grids)
    {state : ExchangeState α}

include distributed sourced in
/--
The message for the first open request of a process has arrived, if its source
is no further behind.
-/
theorem exists_message
    {rank dim : Nat} {done rest : List ExchangeAction} {request : HaloRequest}
    (bounded : rank < space.numProcs)
    (follows : exchange.Follows space grids rank state done)
    (synchronised : exchange.Synchronised space grids state)
    (next : (state.process rank).todo = .wait dim :: rest)
    (member : request ∈ (state.process rank).requests)
    (behind : ∀ other < space.numProcs,
      (state.process other).todo.length ≤ (state.process rank).todo.length) :
    ∃ message, (state.sent request.source rank)[request.ticket]? = some message ∧
      message.halo = request.halo := by
  obtain ⟨held, _⟩ := follows.requested request member
  rw [follows.posted] at held
  obtain ⟨occupied, program⟩ := follows.split next
  have numDims := (distributed.decomposed rank bounded).numDims
  have posted := List.mem_of_getElem? held
  obtain ⟨performed, receives, from_, _⟩ := exists_recv_of_posted posted
  have below : request.halo.dim < space.numDims := by
    rw [mem_done_iff program, numDims] at performed
    exact performed.1
  have sourceBounded : request.source < space.numProcs := by
    rw [← from_]
    exact space.neighbor_lt rank below _
  have sourceOccupied : (grids request.source).empty = false := by
    rw [← from_]
    exact sourced rank bounded occupied _ below _ receives
  obtain ⟨sourceDone, sourceFollows⟩ := synchronised _ sourceBounded
  have sourceSplit := sourceFollows.script
  rw [script, sourceOccupied, if_neg (by decide),
    (distributed.decomposed _ sourceBounded).numDims] at sourceSplit
  rw [numDims] at program
  -- the source has performed every block this process has
  have further : done <+: sourceDone := by
    have lengths := congrArg List.length (sourceSplit.trans program.symm)
    have short := behind _ sourceBounded
    rw [next] at short
    simp only [List.length_append, List.length_cons] at lengths short
    have ownPrefix : done <+: exchangeProgram space.numDims := by
      rw [← program]
      exact List.prefix_append _ _
    have sourcePrefix : sourceDone <+: exchangeProgram space.numDims := by
      rw [← sourceSplit]
      exact List.prefix_append _ _
    exact List.prefix_of_prefix_length_le ownPrefix sourcePrefix (by omega)
  have matched : done.filterMap
        (exchange.postFrom space grids rank request.source) =
      done.filterMap (exchange.sendTo space grids request.source rank) :=
    filterMap_eq_before_wait
      (fun i inside dir => postFrom_eq_sendTo distributed bounded sourceBounded
        occupied sourceOccupied inside dir)
      (fun _ _ => rfl) (fun _ _ => rfl) (fun _ => ⟨rfl, rfl⟩) program
  rw [matched] at held
  have sent := getElem?_grown (further.filterMap _) held
  rw [← sourceFollows.sent rank, List.getElem?_map, Option.map_eq_some_iff] at sent
  exact sent

include distributed dims sourced in
/-- Some process can go on until every process has returned. -/
theorem progress
    (synchronised : exchange.Synchronised space grids state) :
    Finished space state ∨ ∃ after, exchange.Step space state after := by
  by_cases finished : Finished space state
  · exact Or.inl finished
  right
  obtain ⟨rank, member, behind⟩ :=
    Finset.exists_max_image (Finset.range space.numProcs)
      (fun rank => (state.process rank).todo.length)
      ⟨0, Finset.mem_range.mpr space.numProcs_pos⟩
  have bounded := Finset.mem_range.mp member
  have furthest : ∀ other < space.numProcs,
      (state.process other).todo.length ≤ (state.process rank).todo.length :=
    fun other inside => behind other (Finset.mem_range.mpr inside)
  obtain ⟨done, follows⟩ := synchronised rank bounded
  suffices steps : ∃ after, exchange.step space rank state = some after by
    obtain ⟨after, performed⟩ := steps
    exact ⟨after, rank, bounded, performed⟩
  cases next : (state.process rank).todo with
  | nil =>
      exfalso
      apply finished
      intro other inside
      have short := furthest other inside
      rw [next, List.length_nil, Nat.le_zero, List.length_eq_zero_iff] at short
      exact short
  | cons action rest =>
      cases action with
      | recv dim dir =>
          simp only [HaloExchange.step, next]
          split <;> exact ⟨_, rfl⟩
      | send dim dir =>
          simp only [HaloExchange.step, next]
          split
          · have numDims := follows.shape.numDims.trans
              (distributed.decomposed rank bounded).numDims
            have below := dim_lt_of_split (follows.split next).2
            rw [← follows.shape.numDims] at below
            rw [← numDims] at dims
            obtain ⟨after, packed⟩ := exists_copyoutHalo dims below
              (exchange.width dir dim) dir exchange.diagonal
            simp only [ExchangeAction.dim] at packed
            rw [packed]
            exact ⟨_, rfl⟩
          · exact ⟨_, rfl⟩
      | wait dim =>
          cases requests : (state.process rank).requests with
          | nil =>
              simp only [HaloExchange.step, next, requests]
              exact ⟨_, rfl⟩
          | cons request others =>
              obtain ⟨message, arrived, same⟩ := exists_message distributed sourced
                bounded follows synchronised next
                (show request ∈ _ by rw [requests]; exact List.mem_cons_self ..)
                furthest
              simp only [HaloExchange.step, next, requests, arrived, same,
                le_refl, if_true]
              exact ⟨_, rfl⟩

/-- Blocks and open requests left, over all processes. -/
def remaining (space : GridSpaceMPI) (state : ExchangeState α) : Nat :=
  ∑ rank ∈ Finset.range space.numProcs,
    (2 * (state.process rank).todo.length +
      (state.process rank).requests.length)

theorem remaining_lt
    {after : ExchangeState α} (step : exchange.Step space state after) :
    remaining space after < remaining space state := by
  obtain ⟨actor, bounded, performed⟩ := step
  have performs := exchange.performs_of_step space performed
  have fewer : 2 * (after.process actor).todo.length +
        (after.process actor).requests.length <
      2 * (state.process actor).todo.length +
        (state.process actor).requests.length := by
    cases performs with
    | recv next receives => simp [next]; omega
    | skipRecv next receives => simp [next]
    | send next sends packed => simp [next]
    | skipSend next sends => simp [next]
    | complete next first arrived fits => simp [first]
    | leave next none => simp [next]
  apply Finset.sum_lt_sum
  · intro rank _
    by_cases same : rank = actor
    · subst rank
      exact fewer.le
    · rw [(performs.others.1 rank same).1]
  · exact ⟨actor, Finset.mem_range.mpr bounded, fewer⟩

include distributed dims sourced in
/-- Every run of an exchange ends with every process having returned. -/
theorem terminates :
    Terminates (exchange.Step space) (Finished space)
      (start grids) :=
  terminates_of_measure (remaining space)
    (synchronised_start exchange space grids)
    (fun _ _ synchronised step => synchronised.step step)
    (fun _ _ _ step => remaining_lt step)
    (fun _ synchronised => progress distributed dims sourced synchronised)

end Progress

/-! ## Receives and messages match -/

section Matching

variable
    (distributed : Distributed space elmSize size globalOffset grids)
    {state : ExchangeState α} {receiver source : Nat}
    (receiverBounded : receiver < space.numProcs)
    (sourceBounded : source < space.numProcs)
    (receiverOccupied : (grids receiver).empty = false)
    (sourceOccupied : (grids source).empty = false)

include distributed receiverBounded sourceBounded receiverOccupied sourceOccupied

/--
What a process has posted for a source and what that source has sent to it are
prefixes of the same list of halos.
-/
theorem exists_plan
    (synchronised : exchange.Synchronised space grids state) :
    ∃ plan : List HaloTransfer,
      state.posted receiver source <+: plan ∧
        (state.sent source receiver).map HaloMessage.halo <+: plan := by
  obtain ⟨done, follows⟩ := synchronised receiver receiverBounded
  obtain ⟨sourceDone, sourceFollows⟩ := synchronised source sourceBounded
  have split := follows.script
  have sourceSplit := sourceFollows.script
  rw [script, receiverOccupied, if_neg (by decide),
    (distributed.decomposed _ receiverBounded).numDims] at split
  rw [script, sourceOccupied, if_neg (by decide),
    (distributed.decomposed _ sourceBounded).numDims] at sourceSplit
  have matched : (exchangeProgram space.numDims).filterMap
        (exchange.postFrom space grids receiver source) =
      (exchangeProgram space.numDims).filterMap
        (exchange.sendTo space grids source receiver) :=
    filterMap_eq_program
      (fun i inside dir => postFrom_eq_sendTo distributed receiverBounded
        sourceBounded receiverOccupied sourceOccupied inside dir)
      (fun _ _ => rfl) (fun _ _ => rfl) (fun _ => ⟨rfl, rfl⟩)
  refine ⟨(exchangeProgram space.numDims).filterMap
    (exchange.postFrom space grids receiver source), ?_, ?_⟩
  · rw [follows.posted]
    apply List.IsPrefix.filterMap
    rw [← split]
    exact List.prefix_append _ _
  · rw [sourceFollows.sent, matched]
    apply List.IsPrefix.filterMap
    rw [← sourceSplit]
    exact List.prefix_append _ _

/-- The message a receive is matched with carries the halo it was posted for. -/
theorem halo_eq_of_matched
    (synchronised : exchange.Synchronised space grids state)
    {ticket : Nat} {halo : HaloTransfer} {message : HaloMessage α}
    (posted : (state.posted receiver source)[ticket]? = some halo)
    (sent : (state.sent source receiver)[ticket]? = some message) :
    message.halo = halo := by
  obtain ⟨plan, postedPrefix, sentPrefix⟩ := exists_plan distributed
    receiverBounded sourceBounded receiverOccupied sourceOccupied synchronised
  apply getElem?_eq_grown sentPrefix postedPrefix ?_ posted
  rw [List.getElem?_map, sent]
  rfl

/-- When all have returned, receives and messages correspond one to one. -/
theorem sent_eq_posted_of_finished
    (synchronised : exchange.Synchronised space grids state)
    (finished : Finished space state) :
    (state.sent source receiver).map HaloMessage.halo =
      state.posted receiver source := by
  obtain ⟨done, follows⟩ := synchronised receiver receiverBounded
  obtain ⟨sourceDone, sourceFollows⟩ := synchronised source sourceBounded
  have split := follows.script
  have sourceSplit := sourceFollows.script
  rw [script, receiverOccupied, if_neg (by decide),
    (distributed.decomposed _ receiverBounded).numDims,
    finished receiver receiverBounded, List.append_nil] at split
  rw [script, sourceOccupied, if_neg (by decide),
    (distributed.decomposed _ sourceBounded).numDims,
    finished source sourceBounded, List.append_nil] at sourceSplit
  rw [follows.posted, sourceFollows.sent, split, sourceSplit]
  exact (filterMap_eq_program
    (fun i inside dir => postFrom_eq_sendTo distributed receiverBounded
      sourceBounded receiverOccupied sourceOccupied inside dir)
    (fun _ _ => rfl) (fun _ _ => rfl) (fun _ => ⟨rfl, rfl⟩)).symm

end Matching

/--
Halo messages match and the exchange cannot deadlock, when every process has
data: whatever the widths, the flags and the interleaving, every run ends with
all processes returned; a receive is only ever matched with the message of the
halo it was posted for; and in the end every receive has one message and every
message one receive.
-/
theorem exchange_matches_and_terminates
    (exchange : HaloExchange)
    (distributed : Distributed space elmSize size globalOffset grids)
    (dims : space.numDims ≤ psMaxDim)
    (occupied : ∀ rank < space.numProcs, (grids rank).empty = false) :
    Terminates (exchange.Step space) (Finished space) (start grids) ∧
    (∀ state, Reaches (exchange.Step space) (start grids) state →
      ∀ receiver < space.numProcs, ∀ source < space.numProcs,
        ∀ (ticket : Nat) (halo : HaloTransfer) (message : HaloMessage α),
          (state.posted receiver source)[ticket]? = some halo →
          (state.sent source receiver)[ticket]? = some message →
            message.halo = halo) ∧
    (∀ state, Reaches (exchange.Step space) (start grids) state →
      Finished space state →
        ∀ receiver < space.numProcs, ∀ source < space.numProcs,
          (state.sent source receiver).map HaloMessage.halo =
            state.posted receiver source) := by
  have sourced : Sourced exchange space grids := by
    intro rank _ _ dim below dir _
    exact occupied _ (space.neighbor_lt rank below dir)
  refine ⟨terminates distributed dims sourced, ?_, ?_⟩
  · intro state reached receiver receiverBounded source sourceBounded ticket halo
      message posted sent
    exact halo_eq_of_matched distributed receiverBounded sourceBounded
      (occupied _ receiverBounded) (occupied _ sourceBounded)
      (synchronised_of_reaches reached) posted sent
  · intro state reached finished receiver receiverBounded source sourceBounded
    exact sent_eq_posted_of_finished distributed receiverBounded sourceBounded
      (occupied _ receiverBounded) (occupied _ sourceBounded)
      (synchronised_of_reaches reached) finished

/-- A ring of two processes, each the other's neighbour on both sides. -/
def ringOfTwo : GridSpaceMPI where
  numDims := 1
  globalSize := IntegerArray.mk3 5 0 0
  procSize := IntegerArray.mk3 2 0 0
  globalPos := by decide
  procPos := by decide

/-- Both halos of width one, with wrap-around. -/
def periodicHalos : HaloExchange where
  width _ _ := 1
  diagonal := false
  periodic := true

/-- On the ring, the exchange of a five-cell grid completes and matches. -/
theorem ringOfTwo_matches :
    let grids := ringOfTwo.distribute 8 (IntegerArray.mk3 5 0 0) false
      (fun _ => 0) (fun rank _ position => (rank : Int) + position)
    Terminates (periodicHalos.Step ringOfTwo) (Finished ringOfTwo)
        (start grids) ∧
      ∀ state, Reaches (periodicHalos.Step ringOfTwo) (start grids) state →
        Finished ringOfTwo state →
          (state.sent 0 1).map HaloMessage.halo = state.posted 1 0 := by
  have result := exchange_matches_and_terminates periodicHalos
    (ringOfTwo.distribute_distributed 8 (IntegerArray.mk3 5 0 0) false
      (fun _ => 0) (fun rank _ position => (rank : Int) + position) (by decide))
    (by decide) (by decide)
  exact ⟨result.1, fun state reached finished =>
    result.2.2 state reached finished 1 (by decide) 0 (by decide)⟩

end HaloExchange

end Physis.Runtime
