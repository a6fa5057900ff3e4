import Physis.Runtime.HaloAddressing
import Physis.Runtime.HaloSendRuns

/-!
# Addresses after runs of exchanges

Between two operations a process holds the widths and sizes of its last
exchange, and the flag of the last exchange in which it sent a halo.  A process
that only receives keeps an old flag, so its halos can be laid out one way and
read the other.
-/

namespace Physis.Runtime

open Physis.Library
open Physis.Library.RowMajor
open Physis.Library.Runs
open Physis.Runtime.HaloExchange

variable {α : Type}

/-! ## The exchanges of a run -/

/-- The exchanges among the operations, in order. -/
def exchangesOf (operations : List (GridOperation α)) : List HaloExchange :=
  operations.filterMap fun
    | .exchange exchange => some exchange
    | .kernel _ => none

/-- The arguments an iteration starts with, before any exchange. -/
def noExchange : HaloExchange :=
  ⟨fun _ _ => 0, false, false⟩

/-- The last exchange of a list. -/
def lastExchange (exchanges : List HaloExchange) : HaloExchange :=
  exchanges.getLast?.getD noExchange

/-- A process with this grid sends some halo in the exchange. -/
def HaloExchange.sendsAny (exchange : HaloExchange) (origin : GridMPI α) : Bool :=
  (List.range origin.numDims).any fun dim =>
    exchange.sends origin dim .fw || exchange.sends origin dim .bw

/-- The flag of the last exchange in which the process sent a halo. -/
def sentDiagonal (origin : GridMPI α) (exchanges : List HaloExchange) : Bool :=
  exchanges.foldl
    (fun flag exchange =>
      if exchange.sendsAny origin then exchange.diagonal else flag) false

/-- The block still has a halo to send. -/
def ExchangeAction.isSend
    (exchange : HaloExchange) (origin : GridMPI α) : ExchangeAction → Bool
  | .send dim dir => exchange.sends origin dim dir
  | _ => false

theorem any_isSend_program (exchange : HaloExchange) (origin : GridMPI α) :
    (exchangeProgram origin.numDims).any (ExchangeAction.isSend exchange origin) =
      exchange.sendsAny origin := by
  rw [Bool.eq_iff_iff, List.any_eq_true, sendsAny, List.any_eq_true]
  constructor
  · rintro ⟨action, member, sends⟩
    rw [mem_exchangeProgram] at member
    cases action with
    | send dim dir =>
        refine ⟨dim, List.mem_range.mpr member, ?_⟩
        cases dir
        · simp only [ExchangeAction.isSend] at sends
          simp [sends]
        · simp only [ExchangeAction.isSend] at sends
          simp [sends]
    | recv _ _ => cases sends
    | wait _ => cases sends
  · rintro ⟨dim, member, sends⟩
    rw [Bool.or_eq_true] at sends
    rcases sends with forward | backward
    · exact ⟨.send dim .fw, (mem_exchangeProgram _ _).mpr (List.mem_range.mp member),
        forward⟩
    · exact ⟨.send dim .bw, (mem_exchangeProgram _ _).mpr (List.mem_range.mp member),
        backward⟩

/-! ## What a process records -/

/--
A process has performed the operations `done`, but for the rest of its current
exchange: it has recorded what it received since, and will have the flag of its
last send.
-/
structure Recording
    (origin : GridMPI α) (done : List (GridOperation α))
    (process : IterationProcess α) : Prop where
  shape : SameShape origin process.grid
  occupied : process.grid.empty = false
  suffix : process.todo <:+ exchangeProgram origin.numDims
  current : lastExchange (exchangesOf done) = process.exchange
  widths : ∀ dim < origin.numDims, ∀ dir, .recv dim dir ∉ process.todo →
    process.grid.haloWidth dir dim = process.exchange.receivedWidth origin dim dir
  sizes : ∀ dim < origin.numDims, ∀ dir, .recv dim dir ∉ process.todo →
    process.grid.haloSize dir dim = process.exchange.receivedSize origin dim dir
  flag : (if process.todo.any (ExchangeAction.isSend process.exchange origin) then
      process.exchange.diagonal else process.grid.haloHasDiagonal) =
    sentDiagonal origin (exchangesOf done)

/-- A block of the current exchange that keeps all that is recorded. -/
theorem Recording.keep
    {origin : GridMPI α} {done : List (GridOperation α)}
    {process : IterationProcess α} (recording : Recording origin done process)
    {action : ExchangeAction} {rest : List ExchangeAction}
    (next : process.todo = action :: rest)
    (notRecv : ∀ dim dir, action ≠ .recv dim dir)
    {grid : GridMPI α} (keeps : SameShape process.grid grid)
    (empty : grid.empty = process.grid.empty)
    (haloWidth : grid.haloWidth = process.grid.haloWidth)
    (haloSize : grid.haloSize = process.grid.haloSize)
    (flag : grid.haloHasDiagonal =
      if ExchangeAction.isSend process.exchange origin action then
        process.exchange.diagonal
      else process.grid.haloHasDiagonal)
    (requests : List HaloRequest) :
    Recording origin done
      { process with grid := grid, todo := rest, requests := requests } := by
  have unchanged : ∀ {dim dir}, ExchangeAction.recv dim dir ∉ rest →
      ExchangeAction.recv dim dir ∉ process.todo := by
    intro dim dir absent member
    rw [next, List.mem_cons] at member
    rcases member with same | later
    · exact notRecv dim dir same.symm
    · exact absent later
  refine ⟨?_, empty.trans recording.occupied, ?_, recording.current, ?_, ?_, ?_⟩
  · exact ⟨keeps.elmSize.trans recording.shape.elmSize,
      keeps.numDims.trans recording.shape.numDims,
      keeps.size.trans recording.shape.size,
      keeps.localOffset.trans recording.shape.localOffset,
      keeps.localSize.trans recording.shape.localSize⟩
  · have suffix := recording.suffix
    rw [next] at suffix
    exact (List.suffix_cons _ _).trans suffix
  · intro dim below dir absent
    rw [haloWidth]
    exact recording.widths dim below dir (unchanged absent)
  · intro dim below dir absent
    rw [haloSize]
    exact recording.sizes dim below dir (unchanged absent)
  · have settled := recording.flag
    rw [next, List.any_cons] at settled
    rw [← settled]
    simp only [flag]
    cases rest.any (ExchangeAction.isSend process.exchange origin) with
    | true => simp
    | false => simp

section Receive

variable
    {origin : GridMPI α} {done : List (GridOperation α)}
    {process : IterationProcess α} (recording : Recording origin done process)
    {dim : Nat} {dir : Dir} {rest : List ExchangeAction}
    (next : process.todo = .recv dim dir :: rest)

include recording next

/-- When a receive is reached, those of the later dimensions are done. -/
theorem Recording.laterWidths :
    ∀ i, dim < i → i < origin.numDims → ∀ side,
      process.grid.haloWidth side i =
        (process.exchange.received origin).haloWidth side i := by
  intro i above below side
  apply recording.widths i below side
  obtain ⟨performed, split⟩ := recording.suffix
  rw [next] at split ⊢
  rw [List.mem_cons, not_or]
  constructor
  · rintro same
    injection same with sameDim
    omega
  · intro member
    have order := ((mem_rest_iff split).mp member).2
    have lower := ExchangeAction.stage_bounds (.recv i side)
    have upper := ExchangeAction.stage_bounds (.recv dim dir)
    simp only [ExchangeAction.dim] at lower upper
    omega

/-- A receive records the width and size of its halo and keeps the others. -/
theorem Recording.record
    {grid : GridMPI α} (keeps : SameShape process.grid grid)
    (empty : grid.empty = process.grid.empty)
    (haloWidth : grid.haloWidth = Function.update process.grid.haloWidth dir
      (Function.update (process.grid.haloWidth dir) dim
        (process.exchange.receivedWidth origin dim dir)))
    (haloSize : grid.haloSize = Function.update process.grid.haloSize dir
      (Function.update (process.grid.haloSize dir) dim
        (process.exchange.receivedSize origin dim dir)))
    (flag : grid.haloHasDiagonal = process.grid.haloHasDiagonal)
    (requests : List HaloRequest) :
    Recording origin done
      { process with grid := grid, todo := rest, requests := requests } := by
  have others : ∀ {i side}, ¬(side = dir ∧ i = dim) →
      ExchangeAction.recv i side ∉ rest → ExchangeAction.recv i side ∉ process.todo := by
    intro i side other absent member
    rw [next, List.mem_cons] at member
    rcases member with same | later
    · injection same with sameDim sameDir
      exact other ⟨sameDir, sameDim⟩
    · exact absent later
  refine ⟨?_, empty.trans recording.occupied, ?_, recording.current, ?_, ?_, ?_⟩
  · exact ⟨keeps.elmSize.trans recording.shape.elmSize,
      keeps.numDims.trans recording.shape.numDims,
      keeps.size.trans recording.shape.size,
      keeps.localOffset.trans recording.shape.localOffset,
      keeps.localSize.trans recording.shape.localSize⟩
  · have suffix := recording.suffix
    rw [next] at suffix
    exact (List.suffix_cons _ _).trans suffix
  · intro i below side absent
    rw [haloWidth]
    by_cases here : side = dir ∧ i = dim
    · obtain ⟨rfl, rfl⟩ := here
      simp
    · rw [update_halo_of_ne _ _ here]
      exact recording.widths i below side (others here absent)
  · intro i below side absent
    rw [haloSize]
    by_cases here : side = dir ∧ i = dim
    · obtain ⟨rfl, rfl⟩ := here
      simp
    · rw [update_halo_of_ne _ _ here]
      exact recording.sizes i below side (others here absent)
  · have settled := recording.flag
    rw [next, List.any_cons] at settled
    rw [flag]
    simpa [ExchangeAction.isSend] using settled

theorem Recording.recv
    (receives : process.exchange.receives process.grid dim dir = true)
    (requests : List HaloRequest) :
    Recording origin done
      { process with
        grid := process.exchange.prepareRecv process.grid dim dir
        todo := rest
        requests := requests } := by
  have receivesOrigin : process.exchange.receives origin dim dir = true := by
    rw [← receives_congr _ recording.shape]
    exact receives
  have shape : SameShape (process.exchange.received origin) process.grid :=
    ⟨recording.shape.elmSize, recording.shape.numDims, recording.shape.size,
      recording.shape.localOffset, recording.shape.localSize⟩
  have later := recording.laterWidths next
  refine recording.record next
    (⟨rfl, rfl, rfl, rfl, rfl⟩ : SameShape process.grid
      (process.exchange.prepareRecv process.grid dim dir)) rfl ?_ ?_ ?_ requests
  · rw [receivedWidth, if_pos receivesOrigin]
    rfl
  · rw [receivedSize, if_pos receivesOrigin]
    simp only [prepareRecv, GridMPI.setHaloSize]
    congr 2
    funext j
    rw [recording.shape.numDims]
    by_cases below : j < origin.numDims
    · rw [if_pos below, if_pos below]
      exact shape.haloExtent later _ _ below
    · rw [if_neg below, if_neg below]
  · rfl

theorem Recording.skipRecv
    (receives : process.exchange.receives process.grid dim dir = false) :
    Recording origin done
      { process with grid := clearHalo process.grid dim dir, todo := rest } := by
  have receivesOrigin : ¬process.exchange.receives origin dim dir = true := by
    rw [← receives_congr _ recording.shape, receives]
    decide
  refine recording.record next
    (⟨rfl, rfl, rfl, rfl, rfl⟩ : SameShape process.grid
      (clearHalo process.grid dim dir)) rfl ?_ ?_ ?_ process.requests
  · rw [receivedWidth, if_neg receivesOrigin]
    rfl
  · rw [receivedSize, if_neg receivesOrigin]
    rfl
  · rfl

end Receive

/-! ## Steps -/

/-- `CopyoutHalo` sets the flag, whatever it packs. -/
theorem copyoutHalo_haloHasDiagonal
    {grid after : GridMPI α} {dim width : Nat} {dir : Dir} {diagonal : Bool}
    (packed : grid.copyoutHalo dim width dir diagonal = some after) :
    after.haloHasDiagonal = diagonal ∧ after.empty = grid.empty := by
  have written : ∀ (other : GridMPI α) (ptr : HaloPtr) (cells : List α),
      (other.writePtr ptr cells).haloHasDiagonal = other.haloHasDiagonal ∧
        (other.writePtr ptr cells).empty = other.empty := by
    intro other ptr cells
    cases ptr <;> exact ⟨rfl, rfl⟩
  have buffered : ({ grid with haloHasDiagonal := diagonal }.getHaloBuf dim width dir
        diagonal).haloHasDiagonal = diagonal ∧
      ({ grid with haloHasDiagonal := diagonal }.getHaloBuf dim width dir
        diagonal).empty = grid.empty := by
    simp only [GridMPI.getHaloBuf]
    split <;> exact ⟨rfl, rfl⟩
  simp only [GridMPI.copyoutHalo] at packed
  split at packed
  · cases packed
    exact ⟨rfl, rfl⟩
  · rw [Option.map_eq_some_iff] at packed
    obtain ⟨cells, _, rfl⟩ := packed
    exact ⟨(written _ _ _).1.trans buffered.1, (written _ _ _).2.trans buffered.2⟩

theorem exchangesOf_append (left right : List (GridOperation α)) :
    exchangesOf (left ++ right) = exchangesOf left ++ exchangesOf right :=
  List.filterMap_append

/-- Starting an exchange leaves all its halos to be received. -/
theorem Recording.begin
    {origin : GridMPI α} {done : List (GridOperation α)}
    {process : IterationProcess α} (recording : Recording origin done process)
    (idle : process.todo = []) (exchange : HaloExchange)
    (rest : List (GridOperation α)) :
    Recording origin (done ++ [.exchange exchange])
      { process with
        operations := rest
        exchange := exchange
        todo := if process.grid.empty then [] else exchangeProgram process.grid.numDims } := by
  have started : (if process.grid.empty = true then [] else
      exchangeProgram process.grid.numDims) = exchangeProgram origin.numDims := by
    rw [if_neg (by simp [recording.occupied]), recording.shape.numDims]
  have pending : ∀ dim < origin.numDims, ∀ dir,
      ExchangeAction.recv dim dir ∈ exchangeProgram origin.numDims := by
    intro dim below dir
    exact (mem_exchangeProgram _ _).mpr below
  rw [started]
  refine ⟨recording.shape, recording.occupied, List.suffix_refl _, ?_, ?_, ?_, ?_⟩
  · simp [lastExchange, exchangesOf]
  · intro dim below dir absent
    exact absurd (pending dim below dir) absent
  · intro dim below dir absent
    exact absurd (pending dim below dir) absent
  · have settled := recording.flag
    rw [idle] at settled
    rw [any_isSend_program, exchangesOf_append, sentDiagonal, List.foldl_append]
    simp only [List.any_nil, Bool.false_eq_true, if_false] at settled
    rw [settled]
    rfl

/-- A kernel leaves halos and flag as they are. -/
theorem Recording.kernel
    {origin : GridMPI α} {done : List (GridOperation α)}
    {process : IterationProcess α} (recording : Recording origin done process)
    (emitted : GridMPI α → Int → Option α) (values : Int → Option α)
    (rest : List (GridOperation α)) :
    Recording origin (done ++ [.kernel emitted])
      { process with
        operations := rest
        grid := process.grid.runKernel values } := by
  have exchanges : exchangesOf (done ++ [.kernel emitted]) = exchangesOf done := by
    simp [exchangesOf]
  have shape := recording.shape
  refine ⟨⟨shape.elmSize, shape.numDims, shape.size, shape.localOffset,
    shape.localSize⟩, recording.occupied, recording.suffix, ?_, recording.widths,
    recording.sizes, ?_⟩
  · rw [exchanges]
    exact recording.current
  · rw [exchanges]
    exact recording.flag

/-- A step of the process keeps a record, for one more operation when it starts one. -/
theorem Recording.programStep
    {space : GridSpaceMPI} {origin : GridMPI α} {done : List (GridOperation α)}
    {rank : Nat} {state after : IterationState α}
    (recording : Recording origin done (state.process rank))
    (step : IterationState.programStep space rank state = some after) :
    ∃ more, Recording origin more (after.process rank) ∧
      more ++ (after.process rank).operations =
        done ++ (state.process rank).operations := by
  simp only [IterationState.programStep] at step
  split at step
  · rename_i idle
    split at step
    · cases step
    · rename_i exchange rest next
      cases step
      rw [IterationState.advance_process_self]
      exact ⟨_, recording.begin idle exchange rest, by simp [next]⟩
    · rename_i emitted rest next
      cases step
      rw [IterationState.advance_process_self]
      exact ⟨_, recording.kernel emitted _ rest, by simp [next]⟩
  · rename_i dim dir rest next
    refine ⟨done, ?_⟩
    split at step
    · rename_i receives
      cases step
      rw [IterationState.advance_process_self]
      exact ⟨recording.recv next receives _, rfl⟩
    · rename_i receives
      cases step
      rw [IterationState.advance_process_self]
      exact ⟨recording.skipRecv next (by simpa using receives), rfl⟩
  · rename_i dim dir rest next
    refine ⟨done, ?_⟩
    have sendsOrigin := sends_congr (state.process rank).exchange recording.shape dim dir
    split at step
    · rename_i sends
      rw [Option.map_eq_some_iff] at step
      obtain ⟨packed, copied, rfl⟩ := step
      rw [IterationState.advance_process_self]
      have keeps := copyoutHalo_keepsHalos copied
      have flagged := copyoutHalo_haloHasDiagonal copied
      refine ⟨recording.keep next (by simp) keeps.toSameShape flagged.2
        keeps.haloWidth keeps.haloSize ?_ _, rfl⟩
      rw [flagged.1, ExchangeAction.isSend, ← sendsOrigin, if_pos sends]
    · rename_i sends
      cases step
      rw [IterationState.advance_process_self]
      refine ⟨recording.keep next (by simp) (SameShape.refl _) rfl rfl rfl ?_ _, rfl⟩
      rw [ExchangeAction.isSend, ← sendsOrigin, if_neg sends]
  · rename_i dim rest next
    refine ⟨done, ?_⟩
    split at step
    · cases step
      rw [IterationState.advance_process_self]
      exact ⟨recording.keep next (by simp) (SameShape.refl _) rfl rfl rfl rfl _, rfl⟩
    · split at step
      · cases step
      · split at step
        · cases step
        · cases step
          rw [IterationState.advance_process_self]
          have shape := recording.shape
          exact ⟨⟨⟨shape.elmSize, shape.numDims, shape.size, shape.localOffset,
            shape.localSize⟩, recording.occupied, recording.suffix, recording.current,
            recording.widths, recording.sizes, recording.flag⟩, rfl⟩

/-- Whatever the other processes do, a process records its own exchanges. -/
theorem Recording.step
    {space : GridSpaceMPI} {origin : GridMPI α} {done : List (GridOperation α)}
    {rank : Nat} {state after : IterationState α}
    (recording : Recording origin done (state.process rank))
    (step : IterationState.Step space state after) :
    ∃ more, Recording origin more (after.process rank) ∧
      more ++ (after.process rank).operations =
        done ++ (state.process rank).operations := by
  rcases step with ⟨actor, _, step⟩ | ⟨source, target, ticket, step⟩
  · by_cases same : rank = actor
    · subst same
      exact recording.programStep step
    · have kept := ((IterationState.advances_of_programStep step).other same).1
      rw [kept]
      exact ⟨done, recording, rfl⟩
  · have kept : after.process = state.process := by
      simp only [IterationState.readStep] at step
      split at step
      · cases step
      · split at step
        · cases step
          rfl
        · cases step
    rw [kept]
    exact ⟨done, recording, rfl⟩

section Runs

variable
    {space : GridSpaceMPI} {elmSize : Nat} {size globalOffset : IndexArray}
    {doubleBuffering : Bool} {memory : Nat → Nat → Int → α}
    {operations : Nat → List (GridOperation α)} {rank : Nat}

/-- Before its first operation a created grid has recorded no exchange. -/
theorem recording_start
    (occupied : (space.distribute elmSize size doubleBuffering globalOffset memory
      rank).empty = false) :
    Recording (space.distribute elmSize size doubleBuffering globalOffset memory rank) []
      ((IterationState.start
        (space.distribute elmSize size doubleBuffering globalOffset memory)
        operations).process rank) := by
  refine ⟨SameShape.refl _, occupied, List.nil_suffix, rfl, ?_, ?_, rfl⟩
  · intro dim _ dir _
    simp [IterationState.start, receivedWidth, receives, GridSpaceMPI.distribute,
      GridMPI.create]
  · intro dim _ dir _
    simp [IterationState.start, receivedSize, receives, GridSpaceMPI.distribute,
      GridMPI.create]

theorem recording_of_reaches
    (occupied : (space.distribute elmSize size doubleBuffering globalOffset memory
      rank).empty = false)
    {state : IterationState α}
    (reached : Reaches (IterationState.Step space)
      (IterationState.start
        (space.distribute elmSize size doubleBuffering globalOffset memory)
        operations) state) :
    ∃ done,
      Recording (space.distribute elmSize size doubleBuffering globalOffset memory rank)
        done (state.process rank) ∧
      done ++ (state.process rank).operations = operations rank := by
  apply reached.invariant ⟨[], recording_start occupied, rfl⟩
  rintro before after ⟨done, recording, performed⟩ step
  obtain ⟨more, recordingAfter, same⟩ := recording.step step
  exact ⟨more, recordingAfter, same.trans performed⟩

/--
The process has the flag of its last exchange, or received no halo in two
dimensions in it, backwards in the later one.
-/
def FlagCurrent (origin : GridMPI α) (exchanges : List HaloExchange) : Prop :=
  sentDiagonal origin exchanges = (lastExchange exchanges).diagonal ∨
    ∀ j < psMaxDim, 0 < (lastExchange exchanges).receivedWidth origin j .bw →
      ∀ i < j, ∀ dir, (lastExchange exchanges).receivedWidth origin i dir = 0

/-- Between operations the grid is as its last exchange left it. -/
theorem Recording.recorded
    {origin : GridMPI α} {done : List (GridOperation α)}
    {process : IterationProcess α} (recording : Recording origin done process)
    (three : origin.numDims = 3) (extent : ∀ i < psMaxDim, 0 < origin.localSize i)
    (between : process.todo = []) :
    process.grid.Recorded (lastExchange (exchangesOf done)).diagonal := by
  have below : ∀ {i : Nat}, i < psMaxDim → i < origin.numDims := fun less => by
    rw [three]
    exact less
  constructor
  · rw [recording.shape.localSize]
    exact extent
  · intro dir i inside received j less
    have widths : ∀ k, k < origin.numDims → ∀ side, process.grid.haloWidth side k =
        (process.exchange.received origin).haloWidth side k := by
      intro k inRange side
      exact recording.widths k inRange side (by simp [between])
    have receives : process.exchange.receives origin i dir = true := by
      rw [recording.widths i (below inside) dir (by simp [between]),
        receivedWidth] at received
      by_contra none
      rw [if_neg none] at received
      omega
    have shape : SameShape (process.exchange.received origin) process.grid :=
      ⟨recording.shape.elmSize, recording.shape.numDims, recording.shape.size,
        recording.shape.localOffset, recording.shape.localSize⟩
    rw [recording.sizes i (below inside) dir (by simp [between]), receivedSize,
      if_pos receives, if_pos (below less), recording.current,
      recording.widths i (below inside) dir (by simp [between]), receivedWidth,
      if_pos receives]
    exact (shape.haloExtent (fun k _ inRange side => widths k inRange side) _ _
      (below less)).symm

/--
After any exchanges, with any other operations of the processes in between,
`__PSGridGetAddr` follows the layout of the last exchange exactly if the
process's flag is current.
-/
theorem address_follows_layout_iff
    (three : space.numDims = 3)
    (occupied : (space.distribute elmSize size doubleBuffering globalOffset memory
      rank).empty = false)
    {state : IterationState α}
    (reached : Reaches (IterationState.Step space)
      (IterationState.start
        (space.distribute elmSize size doubleBuffering globalOffset memory)
        operations) state)
    {done : List (GridOperation α)}
    (performed : operations rank = done ++ (state.process rank).operations)
    (between : (state.process rank).todo = [])
    (inactive : (state.process rank).grid.remoteGridActive = false) :
    (state.process rank).grid.FollowsLayout
        (lastExchange (exchangesOf done)).diagonal ↔
      FlagCurrent (space.distribute elmSize size doubleBuffering globalOffset memory rank)
        (exchangesOf done) := by
  obtain ⟨actual, recording, same⟩ := recording_of_reaches occupied reached
  obtain rfl : actual = done := List.append_cancel_right (same.trans performed)
  have dims : (space.distribute elmSize size doubleBuffering globalOffset memory
      rank).numDims = 3 := three
  have extent : ∀ i < psMaxDim, 0 < (space.distribute elmSize size doubleBuffering
      globalOffset memory rank).localSize i := by
    intro i less
    have own : Decomposed space elmSize size globalOffset rank
        (space.distribute elmSize size doubleBuffering globalOffset memory rank) :=
      ⟨rfl, rfl, rfl, rfl, rfl, rfl, rfl, fun _ _ _ => ⟨0, rfl⟩⟩
    exact own.empty_eq_false_iff.mp occupied i (by rw [three]; exact less)
  have recorded := recording.recorded dims extent between
  have width : ∀ i < psMaxDim, ∀ dir, (state.process rank).grid.haloWidth dir i =
      (lastExchange (exchangesOf actual)).receivedWidth
        (space.distribute elmSize size doubleBuffering globalOffset memory rank) i
        dir := by
    intro i less dir
    rw [recording.current]
    exact recording.widths i (by rw [dims]; exact less) dir (by simp [between])
  have flag := recording.flag
  rw [between] at flag
  simp only [List.any_nil, Bool.false_eq_true, if_false] at flag
  rw [GridMPI.followsLayout_iff_of_recorded recorded inactive, flag, FlagCurrent,
    GridMPI.NoCorner]
  apply or_congr Iff.rfl
  constructor
  · intro none j less corner i later dir
    rw [← width i (later.trans less)]
    exact none j less (by rw [width j less]; exact corner) i later dir
  · intro none j less corner i later dir
    rw [width i (later.trans less)]
    exact none j less (by rw [← width j less]; exact corner) i later dir

end Runs

/-! ## A process that only receives -/

/-- Two by two processes with one cell each. -/
def cornerSpace : GridSpaceMPI where
  numDims := 3
  globalSize := IntegerArray.mk3 2 2 1
  procSize := IntegerArray.mk3 2 2 1
  globalPos := by decide
  procPos := by decide

def cornerGrids : Nat → GridMPI Int :=
  cornerSpace.distribute 8 (IntegerArray.mk3 2 2 1) false (fun _ => 0)
    fun rank _ _ => rank

/-- Halos for backward access in the first two dimensions, with corners or without. -/
def backwardHalos (diagonal : Bool) : HaloExchange where
  width dir dim := if dir = .bw ∧ dim < 2 then 1 else 0
  diagonal := diagonal
  periodic := false

/-- The process at the upper corner receives from both sides and sends nothing. -/
def cornerMoves (diagonal : Bool) : List IterationState.Move :=
  List.replicate 16 (.program 0) ++ [.read 0 2 0, .read 0 1 0] ++
    List.replicate 10 (.program 1) ++ [.read 1 3 0] ++
    List.replicate 17 (.program 2) ++
    List.replicate (if diagonal then 2 else 1) (.read 2 3 0) ++
    List.replicate 18 (.program 3)

theorem cornerRun (diagonal : Bool) :
    ∃ state, Reaches (IterationState.Step cornerSpace)
        (IterationState.start cornerGrids fun _ => [.exchange (backwardHalos diagonal)])
        state ∧
      (∀ rank ∈ ([2, 3] : List Nat), (state.process rank).todo = [] ∧
        (state.process rank).operations.length = 0 ∧
        (state.process rank).grid.remoteGridActive = false) := by
  have run : (IterationState.replay cornerSpace (fun _ _ => true) (cornerMoves diagonal)
      (IterationState.start cornerGrids fun _ => [.exchange (backwardHalos diagonal)])).any
      (fun state => decide (∀ rank ∈ ([2, 3] : List Nat), (state.process rank).todo = [] ∧
        (state.process rank).operations.length = 0 ∧
        (state.process rank).grid.remoteGridActive = false)) = true := by
    cases diagonal <;> decide +kernel
  simp only [Option.any_eq_true, decide_eq_true_eq] at run
  obtain ⟨state, replayed, idle⟩ := run
  exact ⟨state, IterationState.reaches_of_replay_step replayed, idle⟩

/-- Without corners the flag is current, and the addresses follow the layout. -/
theorem cornerRun_followsLayout :
    ∃ state, Reaches (IterationState.Step cornerSpace)
        (IterationState.start cornerGrids fun _ => [.exchange (backwardHalos false)])
        state ∧
      FlagCurrent (cornerGrids 3) [backwardHalos false] ∧
      (state.process 3).grid.FollowsLayout false := by
  obtain ⟨state, reached, idle⟩ := cornerRun false
  obtain ⟨between, performed, inactive⟩ := idle 3 (by decide)
  have operations := List.length_eq_zero_iff.mp performed
  have current : FlagCurrent (cornerGrids 3) [backwardHalos false] := by
    exact .inl (by decide)
  exact ⟨state, reached, current, (@address_follows_layout_iff Int cornerSpace 8
    (IntegerArray.mk3 2 2 1) (fun _ => 0) false (fun rank _ _ => rank) _ 3 rfl
    (by decide) state reached [.exchange (backwardHalos false)] (by rw [operations]; rfl)
    between inactive).mpr current⟩

/--
With corners the process that only receives keeps the flag it was created with,
and reads its halo of the first dimension at wrong positions.
-/
theorem corner_not_followsLayout :
    ∃ state, Reaches (IterationState.Step cornerSpace)
        (IterationState.start cornerGrids fun _ => [.exchange (backwardHalos true)])
        state ∧
      (state.process 3).todo = [] ∧ (state.process 3).operations.length = 0 ∧
      (state.process 3).grid.empty = false ∧
      (state.process 3).grid.remoteGridActive = false ∧
      ¬(state.process 3).grid.FollowsLayout true := by
  obtain ⟨state, reached, idle⟩ := cornerRun true
  obtain ⟨between, performed, inactive⟩ := idle 3 (by decide)
  have operations := List.length_eq_zero_iff.mp performed
  have occupied : (cornerGrids 3).empty = false := by decide
  obtain ⟨done, recording, same⟩ := recording_of_reaches occupied reached
  rw [operations, List.append_nil] at same
  subst same
  have recorded := recording.recorded rfl (by decide) between
  have flag := recording.flag
  rw [between] at flag
  refine ⟨state, reached, between, performed, recording.occupied, inactive, ?_⟩
  intro follows
  rcases (GridMPI.followsLayout_iff_of_recorded recorded inactive).mp follows with
    current | none
  · have old : (state.process 3).grid.haloHasDiagonal = false := flag.trans (by decide)
    rw [old] at current
    exact absurd current (by decide)
  · have later : (state.process 3).grid.haloWidth .bw 1 = 1 :=
      (recording.widths 1 (by decide) .bw (by simp [between])).trans (by
        rw [← recording.current]
        decide)
    have first : (state.process 3).grid.haloWidth .bw 0 = 1 :=
      (recording.widths 0 (by decide) .bw (by simp [between])).trans (by
        rw [← recording.current]
        decide)
    have zero := none 1 (by decide) (by omega) 0 (by decide) .bw
    omega

/-- What a process of `cornerRun` knows of the halos it received. -/
structure CornerProcess (diagonal : Bool) (rank : Nat) (process : IterationProcess Int) :
    Prop where
  between : process.todo = []
  inactive : process.grid.remoteGridActive = false
  dims : process.grid.numDims = 3
  flag : process.grid.haloHasDiagonal =
    sentDiagonal (cornerGrids rank) [backwardHalos diagonal]
  width : ∀ i < 3, ∀ dir, process.grid.haloWidth dir i =
    (backwardHalos diagonal).receivedWidth (cornerGrids rank) i dir
  size : process.grid.localSize = (cornerGrids rank).localSize
  offset : process.grid.localOffset = (cornerGrids rank).localOffset

theorem cornerRun_process (diagonal : Bool) :
    ∃ state, Reaches (IterationState.Step cornerSpace)
        (IterationState.start cornerGrids fun _ => [.exchange (backwardHalos diagonal)])
        state ∧
      ∀ rank ∈ ([2, 3] : List Nat), CornerProcess diagonal rank (state.process rank) := by
  obtain ⟨state, reached, idle⟩ := cornerRun diagonal
  refine ⟨state, reached, fun rank member => ?_⟩
  obtain ⟨between, performed, inactive⟩ := idle rank member
  have occupied : ∀ rank ∈ ([2, 3] : List Nat), (cornerGrids rank).empty = false := by
    decide
  obtain ⟨done, recording, same⟩ := recording_of_reaches (occupied rank member) reached
  rw [List.length_eq_zero_iff.mp performed, List.append_nil] at same
  subst same
  have flag := recording.flag
  rw [between] at flag
  refine ⟨between, inactive, recording.shape.numDims, flag, fun i below dir => ?_,
    recording.shape.localSize, recording.shape.localOffset⟩
  have current : (state.process rank).exchange = backwardHalos diagonal :=
    recording.current.symm
  have recorded := recording.widths i below dir (by simp [between])
  rwa [current] at recorded

namespace CornerProcess

variable {diagonal : Bool} {rank : Nat} {process : IterationProcess Int}

theorem localPoint (corner : CornerProcess diagonal rank process) (index : IndexArray) :
    process.grid.localPoint index = fun i => index i - (cornerGrids rank).localOffset i := by
  funext i
  rw [GridMPI.localPoint, corner.offset]

theorem inExtended (corner : CornerProcess diagonal rank process) {index : IndexArray}
    (inside : ∀ i < 3,
      -((backwardHalos diagonal).receivedWidth (cornerGrids rank) i .bw : Int) ≤
          index i - (cornerGrids rank).localOffset i ∧
        index i - (cornerGrids rank).localOffset i < (cornerGrids rank).localSize i +
          (backwardHalos diagonal).receivedWidth (cornerGrids rank) i .fw) :
    process.grid.InExtended (process.grid.localPoint index) := by
  intro i below
  rw [corner.localPoint, corner.size, corner.width i below, corner.width i below]
  exact inside i below

end CornerProcess

/--
A process that received a halo backwards in the second dimension: `GetAddress`
finds its cell in the forward halo.
-/
theorem corner_addresses_differ :
    ∃ state, Reaches (IterationState.Step cornerSpace)
        (IterationState.start cornerGrids fun _ => [.exchange (backwardHalos true)])
        state ∧
      (state.process 2).todo = [] ∧ (state.process 2).grid.numDims = 3 ∧
      (state.process 2).grid.InExtended
        ((state.process 2).grid.localPoint fun _ => 0) ∧
      (state.process 2).grid.getAddress (fun _ => 0) ≠
        (state.process 2).grid.psGridGetAddr fun _ => 0 := by
  obtain ⟨state, reached, processes⟩ := cornerRun_process true
  have corner := processes 2 (by decide)
  have extended := @CornerProcess.inExtended _ _ _ corner (fun _ => 0) (by decide)
  refine ⟨state, reached, corner.between, corner.dims, extended, ?_⟩
  have outside : (state.process 2).grid.firstOutside
      ((state.process 2).grid.localPoint fun _ => 0) = some 1 := by
    rw [GridMPI.firstOutside, corner.localPoint, corner.size]
    decide
  have bounded := (extended 1 (by decide)).1
  rw [GridMPI.getAddress_eq corner.dims corner.inactive,
    GridMPI.psGridGetAddr_eq corner.inactive, outside]
  simp only [ne_eq, Option.some.injEq]
  apply GridMPI.haloAddress_ne_backward (corner.flag.trans (by decide)) bounded (by decide)
  rw [corner.localPoint]
  decide

/--
Without corners the functions designate one cell of the halo that was received in
the first dimension.
-/
theorem cornerGrids_addresses_iff :
    ∃ state, Reaches (IterationState.Step cornerSpace)
        (IterationState.start cornerGrids fun _ => [.exchange (backwardHalos false)])
        state ∧
      (state.process 3).grid.firstOutside
          ((state.process 3).grid.localPoint (IntegerArray.mk3 0 1 0)) = some 0 ∧
      (state.process 3).grid.getAddress (IntegerArray.mk3 0 1 0) =
        (state.process 3).grid.psGridGetAddr (IntegerArray.mk3 0 1 0) := by
  obtain ⟨state, reached, processes⟩ := cornerRun_process false
  have corner := processes 3 (by decide)
  refine ⟨state, reached, ?_, ?_⟩
  · rw [GridMPI.firstOutside, corner.localPoint, corner.size]
    decide
  · exact (GridMPI.getAddress_eq_psGridGetAddr_iff corner.dims
      (Or.inr (corner.inExtended (by decide)))).mpr
        (Or.inr (Or.inl (corner.flag.trans (by decide))))

end Physis.Runtime
