import Physis.Runtime.ExchangeContents

/-!
# The exchange delivers the owners' values

The invariant of a run: own data never change, every message in flight carries
its sender's slab, and every halo that is no longer waited for agrees with the
contents of the grid.
-/

namespace Physis.Runtime

open Physis.Library
open Physis.Library.RowMajor
open Physis.Library.Channels
open Physis.Library.Runs

namespace HaloExchange

variable
    {α : Type} {exchange : HaloExchange} {space : GridSpaceMPI}
    {elmSize : Nat} {size globalOffset : IndexArray}
    {grids : Nat → GridMPI α} {contents : IndexArray → α}

/-- No halo is wider than the subgrid of a process that has data. -/
def Narrow
    (exchange : HaloExchange) (space : GridSpaceMPI)
    (grids : Nat → GridMPI α) : Prop :=
  ∀ rank < space.numProcs, (grids rank).empty = false →
    ∀ dim < space.numDims, ∀ dir,
      (exchange.width dir dim : Int) ≤ (grids rank).localSize dim

/-- Every slab a process with data sends lies inside its own subgrid. -/
def SlabsInside
    (exchange : HaloExchange) (space : GridSpaceMPI)
    (grids : Nat → GridMPI α) : Prop :=
  ∀ rank < space.numProcs, (grids rank).empty = false →
    ∀ dim < space.numDims, ∀ dir,
      exchange.sends (grids rank) dim dir = true →
        (exchange.width dir dim : Int) ≤ (grids rank).localSize dim

theorem Narrow.slabsInside (narrow : Narrow exchange space grids) :
    SlabsInside exchange space grids :=
  fun rank bounded occupied dim below dir _ =>
    narrow rank bounded occupied dim below dir

/-- One process's data, messages and halos, after the blocks `done`. -/
structure Carries
    (exchange : HaloExchange) (space : GridSpaceMPI)
    (grids : Nat → GridMPI α) (contents : IndexArray → α)
    (rank : Nat) (state : ExchangeState α) (done : List ExchangeAction) :
    Prop where
  data : Reads space.numDims (state.process rank).grid.data
    (grids rank).localSize (exchange.view contents (grids rank))
  sendBuffers : (state.process rank).grid.SelfChunks
  sent : ∀ target, ∀ message ∈ state.sent rank target,
    message.payload =
      exchange.slab contents (grids rank) message.halo.dim message.halo.dir
  halos : ∀ dim dir, .recv dim dir ∈ done →
    (∃ request ∈ (state.process rank).requests,
        request.halo.dim = dim ∧ request.halo.dir = dir) ∨
      Reads space.numDims ((state.process rank).grid.haloPeer dir dim)
        ((exchange.received (grids rank)).haloExtent dim
          (exchange.receivedWidth (grids rank) dim dir) exchange.diagonal)
        (exchange.haloView contents (grids rank) dim dir)

/-- Every process has performed a part of its script with the right contents. -/
def Faithful
    (exchange : HaloExchange) (space : GridSpaceMPI)
    (grids : Nat → GridMPI α) (contents : IndexArray → α)
    (state : ExchangeState α) : Prop :=
  ∀ rank < space.numProcs, ∃ done,
    exchange.Follows space grids rank state done ∧
      exchange.Carries space grids contents rank state done

theorem Faithful.synchronised
    {state : ExchangeState α}
    (faithful : exchange.Faithful space grids contents state) :
    exchange.Synchronised space grids state := by
  intro rank bounded
  obtain ⟨done, follows, _⟩ := faithful rank bounded
  exact ⟨done, follows⟩

theorem Carries.frame
    {rank : Nat} {state after : ExchangeState α} {done : List ExchangeAction}
    (carries : exchange.Carries space grids contents rank state done)
    (process : after.process rank = state.process rank)
    (sent : after.sent rank = state.sent rank) :
    exchange.Carries space grids contents rank after done where
  data := by rw [process]; exact carries.data
  sendBuffers := by rw [process]; exact carries.sendBuffers
  sent := by rw [sent]; exact carries.sent
  halos := by rw [process]; exact carries.halos

section ActorStep

variable
    {rank dim : Nat} {dir : Dir} {state : ExchangeState α}
    {done rest : List ExchangeAction}

/--
A block that keeps data, send buffers and halos.  If it is a receive, the halo
is either asked for or empty.
-/
theorem Carries.quiet
    {action : ExchangeAction} {process : ExchangeProcess α}
    {after : ExchangeState α}
    (carries : exchange.Carries space grids contents rank state done)
    (is : after.process rank = process)
    (data : process.grid.data = (state.process rank).grid.data)
    (haloSelf : process.grid.haloSelf = (state.process rank).grid.haloSelf)
    (numDims : process.grid.numDims = (state.process rank).grid.numDims)
    (haloPeer : process.grid.haloPeer = (state.process rank).grid.haloPeer)
    (requests : ∀ request ∈ (state.process rank).requests,
      request ∈ process.requests)
    (sent : after.sent rank = state.sent rank)
    (newest : ∀ dim dir, action = .recv dim dir →
      (∃ request ∈ process.requests,
          request.halo.dim = dim ∧ request.halo.dir = dir) ∨
        Reads space.numDims (process.grid.haloPeer dir dim)
          ((exchange.received (grids rank)).haloExtent dim
            (exchange.receivedWidth (grids rank) dim dir) exchange.diagonal)
          (exchange.haloView contents (grids rank) dim dir)) :
    exchange.Carries space grids contents rank after (done ++ [action]) where
  data := by
    rw [is, data]
    exact carries.data
  sendBuffers := by
    rw [is]
    intro side e below
    rw [haloSelf]
    rw [numDims] at below
    exact carries.sendBuffers side e below
  sent := by
    rw [sent]
    exact carries.sent
  halos := by
    rw [is]
    intro i side member
    rcases List.mem_append.mp member with earlier | last
    · rcases carries.halos i side earlier with ⟨request, asked, same⟩ | reads
      · exact Or.inl ⟨request, requests request asked, same⟩
      · rw [haloPeer]
        exact Or.inr reads
    · exact newest i side (List.mem_singleton.mp last).symm

/-- A halo that is not received is empty. -/
theorem reads_skipped
    (below : dim < space.numDims)
    (receives : ¬exchange.receives (grids rank) dim dir = true)
    (memory : Int → α) :
    Reads space.numDims memory
      ((exchange.received (grids rank)).haloExtent dim
        (exchange.receivedWidth (grids rank) dim dir) exchange.diagonal)
      (exchange.haloView contents (grids rank) dim dir) := by
  intro index member
  have bounds := member dim below
  simp only [GridMPI.haloExtent, if_true, receivedWidth, if_neg receives] at bounds
  omega

/--
When the halo of a dimension is packed, data and the halos of the later
dimensions agree with the view.
-/
theorem haloReads_of_carries
    {action : ExchangeAction}
    (numDims : (grids rank).numDims = space.numDims)
    (depends : Depends space.numDims contents)
    (follows : exchange.Follows space grids rank state done)
    (carries : exchange.Carries space grids contents rank state done)
    (next : (state.process rank).todo = action :: rest) :
    (state.process rank).grid.HaloReads action.dim exchange.diagonal
      (exchange.view contents (grids rank)) := by
  have program := (follows.split next).2
  have gridDims := follows.shape.numDims.trans numDims
  constructor
  · rw [gridDims, follows.shape.localSize]
    exact carries.data
  · intro diagonal e above below side
    rw [gridDims] at below
    have bound : e < (grids rank).numDims := by omega
    have lower := ExchangeAction.stage_bounds action
    have upper := ExchangeAction.stage_bounds (.recv e side)
    have performed : .recv e side ∈ done := by
      rw [mem_done_iff program]
      refine ⟨bound, ?_⟩
      have same : (ExchangeAction.recv e side).dim = e := rfl
      omega
    have width := follows.widths e side performed
    have later := follows.laterWidths next
    rcases carries.halos e side performed with ⟨request, asked, same, _⟩ | reads
    · -- a request of a later dimension has been waited for
      exfalso
      obtain ⟨_, waiting⟩ := follows.requested request asked
      rw [same, next, List.mem_cons, mem_rest_iff program] at waiting
      have waitStage := ExchangeAction.stage_bounds (.wait e)
      have sameDim : (ExchangeAction.wait e).dim = e := rfl
      rcases waiting with is | ⟨_, stage⟩
      · rw [← is] at above
        omega
      · omega
    · rw [gridDims, width]
      have shape : SameShape (exchange.received (grids rank))
          (state.process rank).grid :=
        ⟨follows.shape.elmSize, follows.shape.numDims, follows.shape.size,
          follows.shape.localOffset, follows.shape.localSize⟩
      apply reads.congr
      · intro i inside
        rw [diagonal]
        exact (shape.haloExtent
          (fun j past inner dir => later j (by omega) inner dir)
          _ _ (by rw [numDims.symm] at inside; exact inside)).symm
      · intro index _
        apply depends_view depends
        intro i inside
        simp only [GridMPI.haloPoint, diagonal]
        by_cases same : i = e
        · subst i
          cases side <;>
            simp [GridMPI.haloOffset, received, follows.shape.localSize]
        · rw [if_neg same, if_neg same]
          by_cases past : e < i
          · rw [if_pos ⟨trivial, past⟩, if_pos ⟨trivial, past⟩,
              later i (by omega) (by omega)]
          · rw [if_neg fun both => past both.2, if_neg fun both => past both.2]

/-- What is sent is the slab of the sender. -/
theorem carries_send
    {grid : GridMPI α}
    (numDims : (grids rank).numDims = space.numDims)
    (dims : space.numDims ≤ psMaxDim)
    (nonneg : ∀ i < space.numDims, 0 ≤ (grids rank).localSize i)
    (narrow : (exchange.width dir dim : Int) ≤ (grids rank).localSize dim)
    (depends : Depends space.numDims contents)
    (follows : exchange.Follows space grids rank state done)
    (carries : exchange.Carries space grids contents rank state done)
    (next : (state.process rank).todo = .send dim dir :: rest)
    (packed : (state.process rank).grid.copyoutHalo dim
      (exchange.width dir dim) dir exchange.diagonal = some grid) :
    exchange.Carries space grids contents rank
      ((state.transmit rank (space.neighbor rank dim dir.flip)
          { halo := exchange.transfer (state.process rank).grid dim dir
            payload := grid.readCells (grid.haloSelf dir dim)
              ((state.process rank).grid.calcHaloSize dim
                (exchange.width dir dim) exchange.diagonal) }).advance rank
        { grid := grid
          todo := rest
          requests := (state.process rank).requests })
      (done ++ [.send dim dir]) := by
  have gridDims := follows.shape.numDims.trans numDims
  have below := dim_lt_of_split (follows.split next).2
  simp only [ExchangeAction.dim] at below
  have reads := haloReads_of_carries numDims depends follows carries next
  simp only [ExchangeAction.dim] at reads
  obtain ⟨haloSelf, bufSize, chunks, nextChunk, copied, pointers, cells⟩ :=
    GridMPI.copyoutHalo_spec (exchange.width dir dim) dir
      (by rw [gridDims, follows.shape.localSize]; exact nonneg)
      (by rw [gridDims]; exact depends_view depends (grids rank))
      (by rw [gridDims]; exact dims)
      (by rw [gridDims, ← numDims]; exact below)
      (by rw [follows.shape.localSize]; exact narrow)
      carries.sendBuffers reads
  rw [copied] at packed
  cases packed
  have later := follows.laterWidths next
  simp only [ExchangeAction.dim] at later
  have shape : SameShape (exchange.received (grids rank))
      (state.process rank).grid :=
    ⟨follows.shape.elmSize, follows.shape.numDims, follows.shape.size,
      follows.shape.localOffset, follows.shape.localSize⟩
  have payload : ((state.process rank).grid.withSendBuffers exchange.diagonal
        haloSelf bufSize chunks nextChunk).readCells (haloSelf dir dim)
        ((state.process rank).grid.calcHaloSize dim (exchange.width dir dim)
          exchange.diagonal) =
      exchange.slab contents (grids rank) dim dir := by
    rw [cells, slab, gridDims, numDims]
    apply boxList_congr
    · intro i inside
      exact shape.haloExtent later _ _ (by rw [numDims.symm] at inside; exact inside)
    · intro index _
      apply depends_view depends
      intro i inside
      simp only [GridMPI.slabPoint]
      by_cases same : i = dim
      · subst i
        cases dir <;>
          simp [GridMPI.slabOffset, received, follows.shape.localSize]
      · rw [if_neg same, if_neg same]
        by_cases past : dim < i
        · rw [later i past (by omega)]
        · rw [if_neg fun both => past both.2, if_neg fun both => past both.2]
  constructor
  · rw [ExchangeState.advance_process_self]
    exact carries.data
  · rw [ExchangeState.advance_process_self]
    exact pointers
  · intro target message member
    simp only [ExchangeState.advance_sent, ExchangeState.transmit] at member
    by_cases same : target = space.neighbor rank dim dir.flip
    · subst target
      rw [push_same, List.mem_append, List.mem_singleton] at member
      rcases member with earlier | rfl
      · exact carries.sent _ message earlier
      · exact payload
    · rw [push_other_target _ _ same] at member
      exact carries.sent target message member
  · rw [ExchangeState.advance_process_self]
    intro i side member
    exact carries.halos i side (recv_mem_of_append (by simp) member)

/-- What is delivered is the view's halo. -/
theorem carries_complete
    {request : HaloRequest} {others : List HaloRequest} {payload : List α}
    (depends : Depends space.numDims contents)
    (carries : exchange.Carries space grids contents rank state done)
    (first : (state.process rank).requests = request :: others)
    (delivered : payload =
      boxList space.numDims
        ((exchange.received (grids rank)).haloExtent request.halo.dim
          (exchange.receivedWidth (grids rank) request.halo.dim request.halo.dir)
          exchange.diagonal)
        (exchange.haloView contents (grids rank) request.halo.dim
          request.halo.dir)) :
    exchange.Carries space grids contents rank
      (state.advance rank
        { grid := deliver (state.process rank).grid request.halo payload
          todo := (state.process rank).todo
          requests := others })
      done := by
  constructor
  · rw [ExchangeState.advance_process_self]
    exact carries.data
  · rw [ExchangeState.advance_process_self]
    exact carries.sendBuffers
  · exact carries.sent
  · rw [ExchangeState.advance_process_self]
    intro i side member
    by_cases same : request.halo.dim = i ∧ request.halo.dir = side
    · obtain ⟨rfl, rfl⟩ := same
      right
      simp only [deliver, Function.update_self]
      rw [delivered]
      exact reads_overwrite_boxList (depends_haloView depends _ _ _)
    · rcases carries.halos i side member with ⟨other, asked, is⟩ | reads
      · rw [first, List.mem_cons] at asked
        rcases asked with rfl | asked
        · exact absurd is same
        · exact Or.inl ⟨other, asked, is⟩
      · right
        simp only [deliver]
        by_cases sameSide : side = request.halo.dir
        · subst sameSide
          rw [Function.update_self, Function.update_of_ne (by tauto)]
          exact reads
        · rw [Function.update_of_ne sameSide]
          exact reads

end ActorStep

section Run

variable
    (distributed : Distributed space elmSize size globalOffset grids)
    (dims : space.numDims ≤ psMaxDim)
    (sourced : Sourced exchange space grids)
    (slabs : SlabsInside exchange space grids)
    (depends : Depends space.numDims contents)

include distributed dims sourced slabs depends

/-- A process's step keeps its data, messages and halos right. -/
theorem Carries.performs
    {actor : Nat} {state after : ExchangeState α} {done : List ExchangeAction}
    (bounded : actor < space.numProcs)
    (faithful : exchange.Faithful space grids contents state)
    (follows : exchange.Follows space grids actor state done)
    (carries : exchange.Carries space grids contents actor state done)
    (performs : exchange.Performs space actor state after) :
    ∃ done, exchange.Follows space grids actor after done ∧
      exchange.Carries space grids contents actor after done := by
  have own := distributed.decomposed actor bounded
  cases performs with
  | recv next receives =>
      refine ⟨_, follows_recv follows next receives, ?_⟩
      refine carries.quiet (ExchangeState.advance_process_self _ _ _) rfl rfl rfl rfl
        ?_ rfl ?_
      · exact fun request member => List.mem_append_left _ member
      · intro i side same
        cases same
        exact Or.inl ⟨_, List.mem_append_right _ (List.mem_singleton_self _), rfl, rfl⟩
  | skipRecv next receives =>
      refine ⟨_, follows_skipRecv follows next receives, ?_⟩
      have below := dim_lt_of_split (follows.split next).2
      rw [own.numDims] at below
      simp only [ExchangeAction.dim] at below
      refine carries.quiet (ExchangeState.advance_process_self _ _ _) rfl rfl rfl rfl
        (fun request member => member) rfl ?_
      · intro i side same
        cases same
        right
        apply reads_skipped below
        rw [← exchange.receives_congr follows.shape, receives]
        decide
  | send next sends packed =>
      obtain ⟨occupied, program⟩ := follows.split next
      have below := dim_lt_of_split program
      rw [own.numDims] at below
      have sent := sends
      rw [exchange.sends_congr follows.shape] at sent
      exact ⟨_, follows_send follows next sends (copyoutHalo_keepsHalos packed) _,
        carries_send own.numDims dims (fun i inside => own.localSize_nonneg inside)
          (slabs actor bounded occupied _ below _ sent) depends follows carries
          next packed⟩
  | skipSend next sends =>
      refine ⟨_, follows_skipSend follows next sends, ?_⟩
      refine carries.quiet (ExchangeState.advance_process_self _ _ _) rfl rfl rfl rfl
        (fun request member => member) rfl ?_
      · intro i side same
        cases same
  | leave next none =>
      refine ⟨_, follows_leave follows next none, ?_⟩
      refine carries.quiet (ExchangeState.advance_process_self _ _ _) rfl rfl rfl rfl
        (fun request member => member) rfl ?_
      · intro i side same
        cases same
  | @complete dim rest request others message next first arrived fits =>
      obtain ⟨bound, _⟩ := List.getElem?_eq_some_iff.mp arrived
      refine ⟨_, follows_complete follows first bound, ?_⟩
      obtain ⟨occupied, program⟩ := follows.split next
      -- the request was posted by a receive block, so its source is a neighbour
      obtain ⟨held, _⟩ := follows.requested request
        (by rw [first]; exact List.mem_cons_self ..)
      have posted := held
      rw [follows.posted] at posted
      obtain ⟨performed, receives, source, _⟩ :=
        exists_recv_of_posted (List.mem_of_getElem? posted)
      have below : request.halo.dim < space.numDims := by
        rw [mem_done_iff program, own.numDims] at performed
        exact performed.1
      have sourceBounded : request.source < space.numProcs := by
        rw [← source]
        exact space.neighbor_lt actor below _
      have sourceOccupied : (grids request.source).empty = false := by
        rw [← source]
        exact sourced actor bounded occupied _ below _ receives
      have sameHalo := halo_eq_of_matched distributed bounded sourceBounded occupied
        sourceOccupied faithful.synchronised held arrived
      obtain ⟨_, _, sourceCarries⟩ := faithful _ sourceBounded
      have payload := sourceCarries.sent actor message (List.mem_of_getElem? arrived)
      apply carries_complete depends carries first
      rw [payload, sameHalo]
      have nextTo := distributed.nextTo request.halo.dir bounded below occupied
        (by rw [source]; exact sourceOccupied)
      rw [source] at nextTo
      exact slab_eq_of_nextTo nextTo own.numDims depends receives

/-- Every step keeps the contents right. -/
theorem Faithful.step
    {state after : ExchangeState α}
    (faithful : exchange.Faithful space grids contents state)
    (step : exchange.Step space state after) :
    exchange.Faithful space grids contents after := by
  obtain ⟨actor, actorBounded, performed⟩ := step
  have performs := exchange.performs_of_step space performed
  intro rank bounded
  obtain ⟨done, follows, carries⟩ := faithful rank bounded
  by_cases same : rank = actor
  · subst rank
    exact carries.performs distributed dims sourced slabs depends bounded faithful
      follows performs
  · obtain ⟨others, grown⟩ := performs.others
    obtain ⟨process, posted, sent⟩ := others rank same
    exact ⟨done,
      follows.frame process posted sent fun source => grown source rank,
      carries.frame process sent⟩

end Run

theorem faithful_start
    (distributed : Distributed space elmSize size globalOffset grids)
    (depends : Depends space.numDims contents)
    (reads : ∀ rank < space.numProcs,
      Reads space.numDims (grids rank).data (grids rank).localSize
        fun index => contents fun i => (grids rank).localOffset i + index i) :
    exchange.Faithful space grids contents (start grids) := by
  intro rank bounded
  refine ⟨[], ⟨rfl, SameShape.refl _, ?_, ?_, ?_, ?_, ?_, ?_⟩, ?_, ?_, ?_, ?_⟩
  · simp
  · simp
  · simp [start]
  · simp [start]
  · simp [start]
  · simp [start]
  · exact reads_view distributed reads depends bounded
  · exact (distributed.decomposed rank bounded).sendBuffers
  · simp [start]
  · simp

/-! ## Halos lie inside the grid -/

/-- Without wrap-around a process only receives what the grid still has. -/
theorem receivedWidth_inside
    (distributed : Distributed space elmSize size globalOffset grids)
    (sourced : Sourced exchange space grids)
    (slabs : SlabsInside exchange space grids)
    {rank i : Nat} (bounded : rank < space.numProcs) (below : i < space.numDims)
    (occupied : (grids rank).empty = false)
    (bordered : exchange.periodic = false) :
    (exchange.receivedWidth (grids rank) i .bw : Int) ≤ (grids rank).localOffset i ∧
      (grids rank).localOffset i + (grids rank).localSize i +
          exchange.receivedWidth (grids rank) i .fw ≤ size i := by
  have own := distributed.decomposed rank bounded
  have inside := distributed.local_inside bounded below
    (own.empty_eq_false_iff.mp occupied i below)
  -- the neighbour a halo comes from touches, and is at least as wide as the halo
  have source : ∀ dir, exchange.receives (grids rank) i dir = true →
      NextTo (grids rank) (grids (space.neighbor rank i dir)) i dir ∧
        (exchange.width dir i : Int) ≤
          (grids (space.neighbor rank i dir)).localSize i ∧
        0 ≤ (grids (space.neighbor rank i dir)).localOffset i ∧
        (grids (space.neighbor rank i dir)).localOffset i +
          (grids (space.neighbor rank i dir)).localSize i ≤ size i ∧
        (grids rank).continues i dir = true := by
    intro dir receives
    have otherBounded := space.neighbor_lt rank below dir
    have otherOccupied := sourced rank bounded occupied i below dir receives
    have otherInside := distributed.local_inside otherBounded below
      ((distributed.decomposed _ otherBounded).empty_eq_false_iff.mp otherOccupied
        i below)
    have nextTo := distributed.nextTo dir bounded below occupied otherOccupied
    have sends := receives
    rw [exchange.receives_eq_sends nextTo] at sends
    simp only [HaloExchange.receives, bordered, Bool.false_or,
      Bool.and_eq_true] at receives
    exact ⟨nextTo, slabs _ otherBounded otherOccupied i below dir sends,
      otherInside.1, otherInside.2, receives.2⟩
  constructor
  · rw [receivedWidth]
    split
    · rename_i receives
      obtain ⟨next, wide, lower, _, continues⟩ := source .bw receives
      simp only [GridMPI.continues, decide_eq_true_eq] at continues
      rcases Adjacent.border next with touching | ends
      · omega
      · omega
    · exact_mod_cast inside.1
  · rw [receivedWidth]
    split
    · rename_i receives
      obtain ⟨next, wide, _, upper, continues⟩ := source .fw receives
      simp only [GridMPI.continues, decide_eq_true_eq, own.size] at continues
      rcases Adjacent.border next with touching | ends
      · omega
      · rw [own.size] at ends
        omega
    · simpa using inside.2

/-- Every cell of a received halo stands for a cell of the grid. -/
theorem globalIndex_haloPoint_inside
    (distributed : Distributed space elmSize size globalOffset grids)
    (sourced : Sourced exchange space grids)
    (slabs : SlabsInside exchange space grids)
    {rank dim : Nat} {dir : Dir} (bounded : rank < space.numProcs)
    (occupied : (grids rank).empty = false)
    {index : IndexArray}
    (member : InBox space.numDims
      ((exchange.received (grids rank)).haloExtent dim
        (exchange.receivedWidth (grids rank) dim dir) exchange.diagonal) index) :
    InBox space.numDims size
      (exchange.globalIndex (grids rank)
        ((exchange.received (grids rank)).haloPoint dim
          (exchange.receivedWidth (grids rank) dim dir) dir exchange.diagonal
          index)) := by
  have own := distributed.decomposed rank bounded
  intro i below
  have positive := own.empty_eq_false_iff.mp occupied i below
  have inside := distributed.local_inside bounded below positive
  have bounds := member i below
  simp only [globalIndex, own.size]
  cases periodic : exchange.periodic with
  | true =>
      rw [if_pos rfl]
      exact ⟨Int.emod_nonneg _ (by omega), Int.emod_lt_of_pos _ (by omega)⟩
  | false =>
      rw [if_neg (by decide)]
      have widths := receivedWidth_inside distributed sourced slabs bounded below
        occupied periodic
      simp only [GridMPI.haloPoint, GridMPI.haloExtent] at bounds ⊢
      by_cases same : i = dim
      · subst i
        rw [if_pos rfl] at bounds ⊢
        cases dir with
        | fw =>
            simp only [GridMPI.haloOffset, received]
            omega
        | bw =>
            simp only [GridMPI.haloOffset]
            omega
      · rw [if_neg same] at bounds ⊢
        by_cases later : exchange.diagonal = true ∧ dim < i
        · rw [if_pos later] at bounds ⊢
          simp only [received] at bounds ⊢
          push_cast at bounds
          omega
        · rw [if_neg later] at bounds ⊢
          simp only [received] at bounds
          omega

/-! ## The end of a run -/

section Final

variable
    (distributed : Distributed space elmSize size globalOffset grids)
    (dims : space.numDims ≤ psMaxDim)
    (sourced : Sourced exchange space grids)
    (slabs : SlabsInside exchange space grids)
    {final : ExchangeState α}
    (reached : Reaches (exchange.Step space) (start grids) final)
    (finished : Finished space final)

include distributed reached finished in
/-- A process that has returned has set the widths and sizes of all its halos. -/
theorem recorded_of_finished
    {rank : Nat} (bounded : rank < space.numProcs)
    (occupied : (grids rank).empty = false)
    {dim : Nat} (below : dim < space.numDims) (dir : Dir) :
    (final.process rank).grid.haloWidth dir dim =
        exchange.receivedWidth (grids rank) dim dir ∧
      (final.process rank).grid.haloSize dir dim =
        exchange.receivedSize (grids rank) dim dir := by
  obtain ⟨done, follows⟩ := synchronised_of_reaches reached rank bounded
  have split := follows.script
  rw [finished rank bounded, List.append_nil, script, occupied,
    if_neg (by decide), (distributed.decomposed rank bounded).numDims] at split
  have performed : ExchangeAction.recv dim dir ∈ done := by
    rw [split, mem_exchangeProgram]
    exact below
  exact ⟨follows.widths dim dir performed, follows.sizes dim dir performed⟩

include distributed dims sourced slabs reached finished in
/-- The halos of a process with data hold the owners' values. -/
theorem holdsAt_of_finished
    {rank : Nat} (bounded : rank < space.numProcs)
    (occupied : (grids rank).empty = false)
    {dim : Nat} (below : dim < space.numDims) (dir : Dir)
    (receives : exchange.receives (grids rank) dim dir = true)
    {index : IndexArray}
    (member : InBox space.numDims
      ((final.process rank).grid.haloSize dir dim) index) :
    Distributed.HoldsAt space size globalOffset grids
      (exchange.globalIndex (grids rank)
        ((final.process rank).grid.haloPoint dim (exchange.width dir dim) dir
          exchange.diagonal index))
      ((final.process rank).grid.haloPeer dir dim
        (linear ((final.process rank).grid.haloSize dir dim) index
          space.numDims)) := by
  have own := distributed.decomposed rank bounded
  obtain ⟨contents, depends, reads, holds⟩ := distributed.exists_contents
  have faithful : exchange.Faithful space grids contents final :=
    reached.invariant (faithful_start distributed depends reads)
      fun _ _ faithful => faithful.step distributed dims sourced slabs depends
  obtain ⟨done, follows, carries⟩ := faithful rank bounded
  have split := follows.script
  rw [finished rank bounded, List.append_nil, script, occupied,
    if_neg (by decide), own.numDims] at split
  have performed : ∀ side, ∀ i < space.numDims, .recv i side ∈ done := by
    intro side i inside
    rw [split, mem_exchangeProgram]
    exact inside
  have size := follows.sizes dim dir (performed dir dim below)
  rw [receivedSize, if_pos receives] at size
  have width : exchange.receivedWidth (grids rank) dim dir =
      exchange.width dir dim := by
    rw [receivedWidth, if_pos receives]
  have extents : ∀ i < space.numDims,
      (final.process rank).grid.haloSize dir dim i =
        (exchange.received (grids rank)).haloExtent dim
          (exchange.receivedWidth (grids rank) dim dir) exchange.diagonal i := by
    intro i inside
    rw [size, width, own.numDims]
    exact if_pos inside
  have boxed := member.congr extents fun _ _ => rfl
  have point : ∀ i < space.numDims,
      (final.process rank).grid.haloPoint dim (exchange.width dir dim) dir
          exchange.diagonal index i =
        (exchange.received (grids rank)).haloPoint dim
          (exchange.receivedWidth (grids rank) dim dir) dir exchange.diagonal
          index i := by
    intro i inside
    simp only [GridMPI.haloPoint, width]
    split
    · cases dir <;> simp [GridMPI.haloOffset, received, follows.shape.localSize]
    · split
      · rw [follows.widths i .bw (performed .bw i inside)]
        rfl
      · rfl
  rcases carries.halos dim dir (performed dir dim below) with
    ⟨request, asked, _⟩ | halo
  · obtain ⟨_, waiting⟩ := follows.requested request asked
    rw [finished rank bounded] at waiting
    cases waiting
  · have inside := globalIndex_haloPoint_inside distributed sourced slabs bounded
      occupied boxed
    obtain ⟨owner, ownerBounded, owns, value⟩ := holds _ inside
    refine ⟨owner, ownerBounded, ?_, ?_⟩
    · intro i inner
      have same := owns i inner
      simp only [globalIndex, ← point i inner] at same ⊢
      exact same
    · rw [linear_congr extents fun _ _ => rfl, halo index boxed, haloView, view,
        ← value]
      congr 1
      apply linear_congr (fun _ _ => rfl)
      intro i inner
      simp only [globalIndex, point i inner]

end Final

/--
Halo exchange delivers the right contents end to end.  When no subgrid is empty
and no halo is wider than a subgrid, a process that received a halo has
recorded its box, and holds at every index of the box the value that the owner
of the corresponding global index had before the exchange.
-/
theorem exchange_delivers
    (exchange : HaloExchange)
    (distributed : Distributed space elmSize size globalOffset grids)
    (dims : space.numDims ≤ psMaxDim)
    (occupied : ∀ rank < space.numProcs, (grids rank).empty = false)
    (narrow : ∀ rank < space.numProcs, ∀ dim < space.numDims, ∀ dir,
      (exchange.width dir dim : Int) ≤ (grids rank).localSize dim)
    {final : ExchangeState α}
    (reached : Reaches (exchange.Step space) (start grids) final)
    (finished : Finished space final)
    {rank : Nat} (bounded : rank < space.numProcs)
    {dim : Nat} (below : dim < space.numDims) (dir : Dir) :
    ((final.process rank).grid.haloWidth dir dim =
      if exchange.receives (grids rank) dim dir then exchange.width dir dim
      else 0) ∧
    (0 < (final.process rank).grid.haloWidth dir dim →
      (∀ i < space.numDims,
        (final.process rank).grid.haloSize dir dim i =
          if i = dim then (exchange.width dir dim : Int)
          else if exchange.diagonal = true ∧ dim < i then
            (grids rank).localSize i +
              ((final.process rank).grid.haloWidth .fw i +
                (final.process rank).grid.haloWidth .bw i : Nat)
          else (grids rank).localSize i) ∧
      ∀ index, InBox space.numDims
          ((final.process rank).grid.haloSize dir dim) index →
        Distributed.HoldsAt space size globalOffset grids
          (exchange.globalIndex (grids rank)
            ((final.process rank).grid.haloPoint dim (exchange.width dir dim)
              dir exchange.diagonal index))
          ((final.process rank).grid.haloPeer dir dim
            (linear ((final.process rank).grid.haloSize dir dim) index
              space.numDims))) := by
  have own := distributed.decomposed rank bounded
  have recorded := fun i (inside : i < space.numDims) side =>
    recorded_of_finished distributed reached finished bounded
      (occupied rank bounded) inside side
  have sourced : Sourced exchange space grids := by
    intro other _ _ i inside side _
    exact occupied _ (space.neighbor_lt other inside side)
  refine ⟨(recorded dim below dir).1, ?_⟩
  intro positive
  have receives : exchange.receives (grids rank) dim dir = true := by
    rw [(recorded dim below dir).1, receivedWidth] at positive
    by_contra none
    rw [if_neg none] at positive
    exact absurd positive (lt_irrefl 0)
  constructor
  · intro i inside
    rw [(recorded dim below dir).2, receivedSize, if_pos receives,
      own.numDims, if_pos inside, (recorded i inside .fw).1,
      (recorded i inside .bw).1]
    rfl
  · intro index member
    exact holdsAt_of_finished distributed dims sourced
      (fun other inside _ i within side _ => narrow other inside i within side)
      reached finished bounded
      (occupied rank bounded) below dir receives member

theorem twoByTwo_globalPos : ∀ i < 2, 0 < (IntegerArray.mk3 5 4 0 : IndexArray) i := by decide

theorem twoByTwo_procPos : ∀ i < 2, 0 < (IntegerArray.mk3 2 2 0 : IntArray) i := by decide

/-- Two by two processes, so corners travel over a process in between. -/
def twoByTwo : GridSpaceMPI where
  numDims := 2
  globalSize := IntegerArray.mk3 5 4 0
  procSize := IntegerArray.mk3 2 2 0
  globalPos := twoByTwo_globalPos
  procPos := twoByTwo_procPos

/-- Halos of width one on all sides, with corners and wrap-around. -/
def cornerHalos : HaloExchange where
  width _ _ := 1
  diagonal := true
  periodic := true

/-- The first process of the two by two receives the corners it has to. -/
theorem twoByTwo_delivers :
    let grids := twoByTwo.distribute 8 (IntegerArray.mk3 5 4 0) false
      (fun _ => 0) (fun rank _ position => 100 * (rank : Int) + position)
    ∃ final, Reaches (cornerHalos.Step twoByTwo) (start grids) final ∧
      Finished twoByTwo final ∧
      ∀ index, InBox 2 ((final.process 0).grid.haloSize .bw 0) index →
        Distributed.HoldsAt twoByTwo (IntegerArray.mk3 5 4 0) (fun _ => 0) grids
          (cornerHalos.globalIndex (grids 0)
            ((final.process 0).grid.haloPoint 0 1 .bw true index))
          ((final.process 0).grid.haloPeer .bw 0
            (linear ((final.process 0).grid.haloSize .bw 0) index 2)) := by
  intro grids
  have distributed : Distributed twoByTwo 8 (IntegerArray.mk3 5 4 0)
      (fun _ => 0) grids :=
    twoByTwo.distribute_distributed 8 _ false _ _ (by decide)
  have occupied : ∀ rank < twoByTwo.numProcs, (grids rank).empty = false := by
    decide
  have extents : ∀ rank < twoByTwo.numProcs, ∀ dim < twoByTwo.numDims,
      (1 : Int) ≤ (grids rank).localSize dim := by
    decide
  have sourced : Sourced cornerHalos twoByTwo grids :=
    fun rank _ _ _ below dir _ => occupied _ (twoByTwo.neighbor_lt rank below dir)
  obtain ⟨final, reached, finished⟩ :=
    (terminates distributed (by decide) sourced).reaches_final
  have delivered := exchange_delivers cornerHalos distributed (by decide) occupied
    (fun rank bounded dim below _ => extents rank bounded dim below)
    reached finished (show 0 < twoByTwo.numProcs by decide)
    (show 0 < twoByTwo.numDims by decide) .bw
  refine ⟨final, reached, finished, (delivered.2 ?_).2⟩
  rw [delivered.1, if_pos (by decide)]
  decide

end HaloExchange

end Physis.Runtime
