import Physis.Runtime.HaloSends

/-!
# Runs of exchanges and kernels

A process may go on while its sends are outstanding.  In a run in which it
never does so from memory it is about to write, what a send reads is what was
packed for it.  Nothing in `ExchangeBoundaries` keeps a process from doing so:
the requests of the sends are dropped.
-/

namespace Physis.Runtime

open Physis.Library
open Physis.Library.Channels
open Physis.Library.Transfers
open Physis.Library.Runs

variable {α : Type} {space : GridSpaceMPI}

/-! ## The grid of a process -/

section Grid

variable {grid after : GridMPI α} {message : HaloSend α}

theorem SeparateBuffers.keeps
    (separate : SeparateBuffers grid) (keeps : KeepsBuffers grid after) :
    SeparateBuffers after := by
  constructor
  · rw [keeps.numDims, keeps.haloSelf, keeps.haloSelfBufSize, keeps.nextChunk]
    exact separate.allocated
  · rw [keeps.numDims, keeps.haloSelf, keeps.haloSelfBufSize]
    exact separate.distinct

theorem SendsGrid.keeps
    (sendsGrid : SendsGrid space grid) (keeps : KeepsBuffers grid after) :
    SendsGrid space after where
  numDims := keeps.numDims.trans sendsGrid.numDims
  elmSize := by
    rw [keeps.elmSize]
    exact sendsGrid.elmSize
  extents := by
    rw [keeps.empty, keeps.localSize]
    exact sendsGrid.extents
  separate := sendsGrid.separate.keeps keeps

theorem SendsGrid.packsInto
    (sendsGrid : SendsGrid space grid) {dim : Nat} {dir : Dir}
    (below : dim < grid.numDims) (packs : PacksInto grid dim dir after) :
    SendsGrid space after where
  numDims := packs.keeps.numDims.trans sendsGrid.numDims
  elmSize := by
    rw [packs.keeps.elmSize]
    exact sendsGrid.elmSize
  extents := by
    rw [packs.empty, packs.keeps.localSize]
    exact sendsGrid.extents
  separate := sendsGrid.separate.packsInto below packs

theorem SentFrom.keeps
    (placed : SentFrom grid message) (keeps : KeepsBuffers grid after) :
    SentFrom after message where
  below := by
    rw [keeps.numDims]
    exact placed.below
  cells := placed.cells
  last := by
    rw [keeps.numDims]
    exact placed.last
  earlier := by
    rw [keeps.numDims, keeps.haloSelf, keeps.haloSelfBufSize, keeps.nextChunk]
    exact placed.earlier

/-- Packing another message leaves the buffer of this one to its own halo. -/
theorem SentFrom.packsInto
    (placed : SentFrom grid message) {dim : Nat} {dir : Dir}
    (below : dim < grid.numDims) (packs : PacksInto grid dim dir after) :
    SentFrom after message where
  below := by
    rw [packs.keeps.numDims]
    exact placed.below
  cells := placed.cells
  last := by
    rw [packs.keeps.numDims]
    exact placed.last
  earlier := by
    rw [packs.keeps.numDims]
    intro notLast
    obtain ⟨id, bound, is, owner⟩ := placed.earlier notLast
    refine ⟨id, bound.trans_le (packs.nextChunk_le below), is, ?_⟩
    intro side i inside positive equal
    rcases packs.kept_or_new inside positive with ⟨same, before⟩ | ⟨_, _, fresh, _⟩
    · exact owner side i inside before (same.symm.trans equal)
    · rw [fresh] at equal
      cases equal
      exact absurd bound (lt_irrefl _)

/-- A message posted after packing is sent from the buffer packed into. -/
theorem PacksInto.sentFrom
    {halo : HaloTransfer} (packs : PacksInto grid halo.dim halo.dir after)
    (below : halo.dim < grid.numDims) (separate : SeparateBuffers after)
    (count : Nat) :
    SentFrom after
      { halo := halo
        ptr := after.haloSelf halo.dir halo.dim
        transfer := .post after.load
          ((List.range count).map (after.haloSelf halo.dir halo.dim).cell) } where
  below := by
    rw [packs.keeps.numDims]
    exact below
  cells := by simp [Transfer.post]
  last := by
    rw [packs.keeps.numDims]
    intro isLast
    exact (packs.last isLast).2.2
  earlier := by
    intro notLast
    have inside := notLast
    rw [packs.keeps.numDims] at inside
    have positive := (packs.earlier inside).1
    obtain ⟨id, bound, is⟩ := separate.allocated halo.dir halo.dim notLast positive
    refine ⟨id, bound, is, ?_⟩
    intro side i sideInside sidePositive equal
    exact separate.distinct side i halo.dir halo.dim sideInside notLast sidePositive
      positive (equal.trans is.symm)

end Grid

/-! ## Steps -/

namespace IterationState

/-- A step of one process leaves the others and what they have sent. -/
theorem Advances.other
    {rank other : Nat} {state after : IterationState α}
    (advances : Advances space rank state after) (different : other ≠ rank) :
    after.process other = state.process other ∧
      after.sent other = state.sent other := by
  cases advances with
  | begin _ _ => exact ⟨advance_process_other _ different _, rfl⟩
  | kernel _ _ => exact ⟨advance_process_other _ different _, rfl⟩
  | quiet _ _ _ _ _ _ _ _ => exact ⟨advance_process_other _ different _, rfl⟩
  | send _ _ _ =>
      refine ⟨advance_process_other _ different _, ?_⟩
      rw [advance_sent]
      exact push_other_source _ different _ _

/-- A process takes a step with the sends it could overtake completed, or MPI reads. -/
def CompletedStep
    (space : GridSpaceMPI) (before after : IterationState α) : Prop :=
  (∃ rank < space.numProcs, SendsCompleted space rank before ∧
    programStep space rank before = some after) ∨
    ∃ source target ticket, readStep source target ticket before = some after

end IterationState

namespace SendsSound

open IterationState

variable {rank : Nat} {state after : IterationState α}

/-- What a process holds depends on itself and on what it has sent. -/
theorem frame
    (sound : SendsSound space rank state)
    (process : after.process rank = state.process rank)
    (sent : after.sent rank = state.sent rank) :
    SendsSound space rank after := by
  constructor
  · rw [process]
    exact sound.grid
  · rw [process]
    exact sound.inside
  · rw [sent]
    exact sound.targets
  · rw [process, sent]
    exact sound.placed
  · rw [process, sent]
    exact sound.sound

/-- A step that overwrites nothing keeps every message sent before sound. -/
theorem sound_after
    (sound : SendsSound space rank state)
    (advances : Advances space rank state after)
    (spared : ¬Overwrites state rank) :
    ∀ target, ∀ message ∈ state.sent rank target,
      message.transfer.Sound (after.process rank).grid.load := by
  intro target message sent
  apply (sound.sound target message sent).write
  intro outstanding cell member
  apply advances.load_eq
  intro written
  exact spared ⟨target, message, sent, outstanding, cell, member, written⟩

theorem advances
    (sound : SendsSound space rank state)
    (advances : Advances space rank state after)
    (spared : ¬Overwrites state rank) :
    SendsSound space rank after := by
  have kept := sound.sound_after advances spared
  cases advances with
  | @begin exchange rest idle next =>
      rw [advance_process_self] at kept
      constructor
      · rw [advance_process_self]
        exact sound.grid
      · rw [advance_process_self]
        intro action member
        simp only at member
        split at member
        · cases member
        · rename_i occupied
          rw [mem_exchangeProgram, sound.grid.numDims] at member
          exact ⟨member, by simpa using occupied⟩
      · exact sound.targets
      · rw [advance_process_self]
        exact sound.placed
      · rw [advance_process_self]
        exact kept
  | @kernel emitted rest idle next =>
      rw [advance_process_self] at kept
      have keeps := runKernel_keepsBuffers (state.process rank).grid
        (emitted (state.process rank).grid)
      constructor
      · rw [advance_process_self]
        exact sound.grid.keeps keeps
      · rw [advance_process_self]
        simp [idle]
      · exact sound.targets
      · rw [advance_process_self]
        intro target message sent
        exact (sound.placed target message sent).keeps keeps
      · rw [advance_process_self]
        exact kept
  | @quiet action rest posted grid todo requests next writesNone keeps tail =>
      rw [advance_process_self] at kept
      constructor
      · rw [advance_process_self]
        exact sound.grid.keeps keeps.toKeepsBuffers
      · rw [advance_process_self]
        intro other member
        have before : other ∈ (state.process rank).todo := by
          rw [next]
          rcases tail with same | shorter
          · rw [← same]
            exact member
          · exact List.mem_cons_of_mem _ (shorter ▸ member)
        rw [keeps.empty]
        exact sound.inside other before
      · exact sound.targets
      · rw [advance_process_self]
        intro target message sent
        exact (sound.placed target message sent).keeps keeps.toKeepsBuffers
      · rw [advance_process_self]
        exact kept
  | @send dim dir rest grid next sends packed =>
      rw [advance_process_self] at kept
      have inside := sound.inside (.send dim dir) (by rw [next]; simp)
      have below : dim < (state.process rank).grid.numDims := by
        rw [sound.grid.numDims]
        exact inside.1
      have wide : 0 < (state.process rank).exchange.width dir dim := by
        simp only [HaloExchange.sends, Bool.and_eq_true, decide_eq_true_eq] at sends
        exact sends.1
      have packs : PacksInto (state.process rank).grid dim dir grid :=
        packsInto_copyoutHalo (sound.grid.haloBytes_pos inside.2 _ wide) packed
      have gridAfter := sound.grid.packsInto below packs
      constructor
      · rw [advance_process_self]
        exact gridAfter
      · rw [advance_process_self]
        intro action member
        rw [packs.empty]
        apply sound.inside
        rw [next]
        exact List.mem_cons_of_mem _ member
      · intro target outside
        rw [advance_sent]
        have others : target ≠ space.neighbor rank dim dir.flip := by
          have inRange : space.neighbor rank dim dir.flip < space.numProcs :=
            space.neighbor_lt rank inside.1 dir.flip
          omega
        exact (push_other_target _ _ others _).trans (sound.targets target outside)
      · rw [advance_process_self]
        intro target message sent
        rcases mem_push sent with before | ⟨_, rfl⟩
        · exact (sound.placed target message before).packsInto below packs
        · exact packs.sentFrom below gridAfter.separate _
      · rw [advance_process_self]
        intro target message sent
        rcases mem_push sent with before | ⟨_, rfl⟩
        · exact kept target message before
        · exact Transfer.sound_post _ _

/-- Reading a message changes nothing but how far it has been read. -/
theorem readStep
    (sound : SendsSound space rank state) {source target ticket : Nat}
    (step : IterationState.readStep source target ticket state = some after) :
    SendsSound space rank after := by
  simp only [IterationState.readStep] at step
  split at step
  · cases step
  · rename_i read present
    split at step
    · cases step
      by_cases here : rank = source
      · subst here
        have shared : ∀ other, ∀ message ∈ Function.update (state.sent rank) target
            ((state.sent rank target).modify ticket (state.readMessage rank)) other,
            ∃ old ∈ state.sent rank other,
              message = old ∨ message = state.readMessage rank old := by
          intro other message member
          by_cases same : other = target
          · subst same
            rw [Function.update_self] at member
            exact exists_of_mem_modify member
          · rw [Function.update_of_ne same] at member
            exact ⟨message, member, Or.inl rfl⟩
        constructor
        · exact sound.grid
        · exact sound.inside
        · intro other outside
          have nothing := sound.targets other outside
          simp only [Function.update_self]
          by_cases same : other = target
          · subst same
            rw [Function.update_self, nothing, List.modify_nil]
          · rw [Function.update_of_ne same]
            exact nothing
        · intro other message member
          simp only [Function.update_self] at member
          obtain ⟨old, oldMember, rfl | rfl⟩ := shared other message member
          · exact sound.placed other _ oldMember
          · have placed := sound.placed other old oldMember
            have cells : (state.readMessage rank old).transfer.cells =
                old.transfer.cells :=
              Transfer.readNext_cells
            refine ⟨placed.below, ?_, placed.last, placed.earlier⟩
            rw [cells]
            exact placed.cells
        · intro other message member
          simp only [Function.update_self] at member
          obtain ⟨old, oldMember, rfl | rfl⟩ := shared other message member
          · exact sound.sound other _ oldMember
          · exact (sound.sound other old oldMember).readNext
      · exact sound.frame rfl (Function.update_of_ne here _ _)
    · cases step

theorem start
    {grids : Nat → GridMPI α} (sendsGrid : SendsGrid space (grids rank))
    (operations : Nat → List (GridOperation α)) :
    SendsSound space rank (IterationState.start grids operations) where
  grid := sendsGrid
  inside _ member := by cases member
  targets _ _ := rfl
  placed _ _ member := by cases member
  sound _ _ member := by cases member

end SendsSound

/-! ## Runs -/

namespace IterationState

/-- In a run of such steps every process and its messages stay sound. -/
theorem sendsSound_of_reaches
    {grids : Nat → GridMPI α} {operations : Nat → List (GridOperation α)}
    (sendsGrid : ∀ rank < space.numProcs, SendsGrid space (grids rank))
    {state : IterationState α}
    (reached : Reaches (CompletedStep space) (start grids operations) state)
    {rank : Nat} (bounded : rank < space.numProcs) :
    SendsSound space rank state := by
  have all : (fun state => ∀ rank < space.numProcs, SendsSound space rank state)
      state := by
    apply reached.invariant
    · intro rank bounded
      exact SendsSound.start (sendsGrid rank bounded) operations
    · rintro before after sound (⟨actor, inRange, completed, step⟩ |
        ⟨source, target, ticket, step⟩) rank bounded
      · have advances := advances_of_programStep step
        by_cases same : rank = actor
        · subst same
          exact (sound rank bounded).advances advances
            ((sound rank bounded).not_overwrites_iff.mpr completed)
        · obtain ⟨process, sent⟩ := advances.other same
          exact (sound rank bounded).frame process sent
      · exact (sound rank bounded).readStep step
  exact all rank bounded

end IterationState

/-- The part of a grid on a process has extents where it has data. -/
theorem Decomposed.sendsGrid
    {elmSize rank : Nat} {size globalOffset : IndexArray} {grid : GridMPI α}
    (decomposed : Decomposed space elmSize size globalOffset rank grid)
    (elements : 0 < elmSize) (separate : SeparateBuffers grid) :
    SendsGrid space grid where
  numDims := decomposed.numDims
  elmSize := by
    rw [decomposed.elmSize]
    exact elements
  extents := decomposed.empty_eq_false_iff.mp
  separate := separate

/-- A grid just created has no send buffers. -/
theorem GridMPI.create_separateBuffers
    (elmSize numDims : Nat) (size : IndexArray) (doubleBuffering : Bool)
    (globalOffset localOffset localSize : IndexArray)
    (memory : Nat → Int → α) :
    SeparateBuffers (GridMPI.create elmSize numDims size doubleBuffering
      globalOffset localOffset localSize memory) where
  allocated _ _ _ positive := absurd positive (lt_irrefl _)
  distinct _ _ _ _ _ _ positive := absurd positive (lt_irrefl _)

namespace IterationState

/-! ## Runs by their moves -/

/-- Which process goes on, or which message is read on. -/
inductive Move where
  | program (rank : Nat)
  | read (source target ticket : Nat)

/-- The state after some moves, where processes go on as far as they may. -/
def replay
    (space : GridSpaceMPI) (may : Nat → IterationState α → Bool) :
    List Move → IterationState α → Option (IterationState α)
  | [], state => some state
  | .program rank :: moves, state =>
      if decide (rank < space.numProcs) && may rank state then
        (programStep space rank state).bind (replay space may moves)
      else none
  | .read source target ticket :: moves, state =>
      (IterationState.readStep source target ticket state).bind
        (replay space may moves)

theorem reaches_of_replay
    {Relation : IterationState α → IterationState α → Prop}
    {may : Nat → IterationState α → Bool}
    (program : ∀ rank < space.numProcs, ∀ before after, may rank before = true →
      programStep space rank before = some after → Relation before after)
    (read : ∀ source target ticket before after,
      IterationState.readStep source target ticket before = some after →
        Relation before after)
    {moves : List Move} {before after : IterationState α}
    (replayed : replay space may moves before = some after) :
    Reaches Relation before after := by
  induction moves generalizing before with
  | nil =>
      cases replayed
      exact .refl
  | cons move moves induction =>
      cases move with
      | program rank =>
          simp only [replay] at replayed
          split at replayed
          · rename_i allowed
            rw [Bool.and_eq_true, decide_eq_true_eq] at allowed
            rw [Option.bind_eq_some_iff] at replayed
            obtain ⟨middle, step, rest⟩ := replayed
            exact .head (program rank allowed.1 before middle allowed.2 step)
              (induction rest)
          · cases replayed
      | read source target ticket =>
          simp only [replay] at replayed
          rw [Option.bind_eq_some_iff] at replayed
          obtain ⟨middle, step, rest⟩ := replayed
          exact .head (read source target ticket before middle step) (induction rest)

theorem reaches_of_replay_step
    {moves : List Move} {before after : IterationState α}
    (replayed : replay space (fun _ _ => true) moves before = some after) :
    Reaches (Step space) before after :=
  reaches_of_replay (fun rank bounded _ _ _ step => Or.inl ⟨rank, bounded, step⟩)
    (fun source target ticket _ _ step => Or.inr ⟨source, target, ticket, step⟩)
    replayed

theorem reaches_of_replay_completed
    {moves : List Move} {before after : IterationState α}
    (replayed : replay space
      (fun rank state => decide (SendsCompleted space rank state)) moves before =
        some after) :
    Reaches (CompletedStep space) before after :=
  reaches_of_replay
    (fun rank bounded _ _ completed step =>
      Or.inl ⟨rank, bounded, of_decide_eq_true completed, step⟩)
    (fun source target ticket _ _ step => Or.inr ⟨source, target, ticket, step⟩)
    replayed

end IterationState

end Physis.Runtime
