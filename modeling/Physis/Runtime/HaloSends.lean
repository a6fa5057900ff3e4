import Physis.Runtime.HaloIterations

/-!
# Halo sends and later writes

Within one exchange every send reads from memory that the exchange does not
write again: the send buffers of the dimensions and directions are separate, and
the data are not written at all.  Writes that could overtake a send come from
the operations after the exchange, so a run in which every process starts an
operation only with its sends completed never overtakes one.
-/

namespace Physis.Runtime

open Physis.Library
open Physis.Library.RowMajor
open Physis.Library.Channels
open Physis.Library.Transfers
open Physis.Library.Runs

variable {α : Type}

/-! ## Separate send buffers -/

/-- Every allocated send buffer is a chunk of its own. -/
structure SeparateBuffers (grid : GridMPI α) : Prop where
  allocated : ∀ dir dim, dim + 1 < grid.numDims →
    0 < grid.haloSelfBufSize dir dim →
      ∃ id < grid.nextChunk, grid.haloSelf dir dim = .chunk id
  distinct : ∀ dir dim side i, dim + 1 < grid.numDims → i + 1 < grid.numDims →
    0 < grid.haloSelfBufSize dir dim → 0 < grid.haloSelfBufSize side i →
      grid.haloSelf dir dim = grid.haloSelf side i → dir = side ∧ dim = i

/-- What `CopyoutHalo` does to the send buffers. -/
structure PacksInto
    (grid : GridMPI α) (dim : Nat) (dir : Dir) (after : GridMPI α) : Prop where
  keeps : KeepsHalos grid after
  empty : after.empty = grid.empty
  haloSelf : ∀ side i, ¬(side = dir ∧ i = dim) →
    after.haloSelf side i = grid.haloSelf side i
  haloSelfBufSize : ∀ side i, ¬(side = dir ∧ i = dim) →
    after.haloSelfBufSize side i = grid.haloSelfBufSize side i
  last : dim + 1 = grid.numDims →
    after.nextChunk = grid.nextChunk ∧
      after.haloSelfBufSize dir dim = grid.haloSelfBufSize dir dim ∧
      ∃ buffer offset, after.haloSelf dir dim = .data buffer offset
  earlier : dim + 1 < grid.numDims →
    0 < after.haloSelfBufSize dir dim ∧
      ((after.nextChunk = grid.nextChunk ∧
          0 < grid.haloSelfBufSize dir dim ∧
          after.haloSelf dir dim = grid.haloSelf dir dim) ∨
        (after.nextChunk = grid.nextChunk + 1 ∧
          after.haloSelf dir dim = .chunk grid.nextChunk))

/-- An entry of a table by direction and dimension, other than the one updated. -/
theorem update_halo_of_ne
    {Value : Type} (table : Dir → Nat → Value) {dir side : Dir} {dim i : Nat}
    (value : Value) (other : ¬(side = dir ∧ i = dim)) :
    Function.update table dir (Function.update (table dir) dim value) side i =
      table side i := by
  by_cases same : side = dir
  · subst same
    rw [Function.update_self, Function.update_of_ne fun equal => other ⟨rfl, equal⟩]
  · rw [Function.update_of_ne same]

/-- The pointer written through is the one `CopyoutHalo` leaves behind. -/
theorem haloBuf_haloSelf
    {grid after : GridMPI α} {dim width : Nat} {dir : Dir} {diagonal : Bool}
    (packed : grid.copyoutHalo dim width dir diagonal = some after)
    (notLast : dim ≠ grid.numDims - 1) :
    (grid.haloBuf dim width dir diagonal).haloSelf = after.haloSelf ∧
      (grid.haloBuf dim width dir diagonal).haloSelfBufSize =
        after.haloSelfBufSize ∧
      (grid.haloBuf dim width dir diagonal).nextChunk = after.nextChunk ∧
      (grid.haloBuf dim width dir diagonal).empty = after.empty := by
  simp only [GridMPI.copyoutHalo] at packed
  rw [if_neg notLast, Option.map_eq_some_iff] at packed
  obtain ⟨cells, _, rfl⟩ := packed
  have written : ∀ (other : GridMPI α) (ptr : HaloPtr),
      other.haloSelf = (other.writePtr ptr cells).haloSelf ∧
        other.haloSelfBufSize = (other.writePtr ptr cells).haloSelfBufSize ∧
        other.nextChunk = (other.writePtr ptr cells).nextChunk ∧
        other.empty = (other.writePtr ptr cells).empty := by
    intro other ptr
    cases ptr <;> exact ⟨rfl, rfl, rfl, rfl⟩
  exact written _ _

theorem packsInto_copyoutHalo
    {grid after : GridMPI α} {dim width : Nat} {dir : Dir} {diagonal : Bool}
    (bytes : 0 < grid.calcHaloSize dim width diagonal * grid.elmSize)
    (packed : grid.copyoutHalo dim width dir diagonal = some after) :
    PacksInto grid dim dir after := by
  have keeps := copyoutHalo_keepsHalos packed
  by_cases last : dim = grid.numDims - 1
  · simp only [GridMPI.copyoutHalo] at packed
    rw [if_pos last] at packed
    cases packed
    refine ⟨keeps, rfl, ?_, fun _ _ _ => rfl, ?_, ?_⟩
    · exact fun side i other => update_halo_of_ne _ _ other
    · intro _
      refine ⟨rfl, rfl, grid.dataId 0, ?_⟩
      simp only [Function.update_self]
      exact ⟨_, rfl⟩
    · intro notLast
      omega
  · obtain ⟨haloSelf, bufSize, nextChunk, empty⟩ := haloBuf_haloSelf packed last
    have sameBytes :
        { grid with haloHasDiagonal := diagonal }.calcHaloSize dim width diagonal =
          grid.calcHaloSize dim width diagonal := rfl
    simp only [GridMPI.haloBuf, GridMPI.getHaloBuf, sameBytes]
      at haloSelf bufSize nextChunk empty
    split at haloSelf
    · -- a new chunk is allocated
      rename_i larger
      rw [if_pos larger] at bufSize nextChunk empty
      dsimp only at haloSelf bufSize nextChunk empty
      refine ⟨keeps, empty.symm, ?_, ?_, by omega, ?_⟩
      · intro side i other
        rw [← haloSelf]
        exact update_halo_of_ne _ _ other
      · intro side i other
        rw [← bufSize]
        exact update_halo_of_ne _ _ other
      · intro _
        rw [← bufSize, ← haloSelf, ← nextChunk]
        simp only [Function.update_self]
        exact ⟨bytes, Or.inr ⟨trivial, trivial⟩⟩
    · -- the buffer is large enough already
      rename_i enough
      rw [if_neg enough] at bufSize nextChunk empty
      have allocated : 0 < grid.haloSelfBufSize dir dim :=
        bytes.trans_le (Nat.le_of_not_lt enough)
      refine ⟨keeps, empty.symm, fun side i _ => by rw [← haloSelf],
        fun side i _ => by rw [← bufSize], by omega, ?_⟩
      intro _
      rw [← bufSize, ← haloSelf, ← nextChunk]
      exact ⟨allocated, Or.inl ⟨rfl, allocated, rfl⟩⟩

section Packing

variable {grid after : GridMPI α} {dim : Nat} {dir : Dir}

theorem PacksInto.nextChunk_le
    (packs : PacksInto grid dim dir after) (below : dim < grid.numDims) :
    grid.nextChunk ≤ after.nextChunk := by
  rcases Nat.lt_or_ge (dim + 1) grid.numDims with earlier | last
  · rcases (packs.earlier earlier).2 with ⟨same, _⟩ | ⟨more, _⟩ <;> omega
  · rw [(packs.last (by omega)).1]

/-- An allocated buffer was allocated before, or it is the one new chunk. -/
theorem PacksInto.kept_or_new
    (packs : PacksInto grid dim dir after) {side : Dir} {i : Nat}
    (inside : i + 1 < grid.numDims) (positive : 0 < after.haloSelfBufSize side i) :
    (after.haloSelf side i = grid.haloSelf side i ∧
        0 < grid.haloSelfBufSize side i) ∨
      (side = dir ∧ i = dim ∧ after.haloSelf side i = .chunk grid.nextChunk ∧
        after.nextChunk = grid.nextChunk + 1) := by
  by_cases here : side = dir ∧ i = dim
  · obtain ⟨rfl, rfl⟩ := here
    rcases (packs.earlier inside).2 with ⟨_, allocated, kept⟩ | ⟨more, fresh⟩
    · exact Or.inl ⟨kept, allocated⟩
    · exact Or.inr ⟨rfl, rfl, fresh, more⟩
  · rw [packs.haloSelfBufSize side i here] at positive
    exact Or.inl ⟨packs.haloSelf side i here, positive⟩

/-- Packing keeps the send buffers separate. -/
theorem SeparateBuffers.packsInto
    (separate : SeparateBuffers grid) (below : dim < grid.numDims)
    (packs : PacksInto grid dim dir after) :
    SeparateBuffers after := by
  have grown := packs.nextChunk_le below
  -- no buffer from before is the new chunk
  have notNew : ∀ side i, i + 1 < grid.numDims →
      0 < grid.haloSelfBufSize side i →
        grid.haloSelf side i ≠ .chunk grid.nextChunk := by
    intro side i inside positive equal
    obtain ⟨id, bound, is⟩ := separate.allocated side i inside positive
    rw [is] at equal
    cases equal
    exact absurd bound (lt_irrefl _)
  constructor
  · intro side i inside positive
    rw [packs.keeps.numDims] at inside
    rcases packs.kept_or_new inside positive with ⟨same, before⟩ | ⟨_, _, fresh, more⟩
    · obtain ⟨id, bound, is⟩ := separate.allocated side i inside before
      exact ⟨id, bound.trans_le grown, same.trans is⟩
    · exact ⟨grid.nextChunk, by omega, fresh⟩
  · intro left i right j leftInside rightInside leftPositive rightPositive equal
    rw [packs.keeps.numDims] at leftInside rightInside
    rcases packs.kept_or_new leftInside leftPositive with
      ⟨leftSame, leftBefore⟩ | ⟨rfl, rfl, leftFresh, _⟩
    · rcases packs.kept_or_new rightInside rightPositive with
        ⟨rightSame, rightBefore⟩ | ⟨rfl, rfl, rightFresh, _⟩
      · exact separate.distinct left i right j leftInside rightInside leftBefore
          rightBefore (leftSame.symm.trans (equal.trans rightSame))
      · exact absurd (leftSame.symm.trans (equal.trans rightFresh))
          (notNew left i leftInside leftBefore)
    · rcases packs.kept_or_new rightInside rightPositive with
        ⟨rightSame, rightBefore⟩ | ⟨rfl, rfl, _, _⟩
      · exact absurd (rightSame.symm.trans (equal.symm.trans leftFresh))
          (notNew right j rightInside rightBefore)
      · exact ⟨rfl, rfl⟩

end Packing

/-! ## Messages and the buffers they were sent from -/

/-- The elements of a halo that `EmitsInto` finds among those a kernel writes. -/
def GridMPI.emitsInto
    (grid : GridMPI α) (emitted : Int → Option α) (count : Nat) : HaloPtr → Bool
  | .chunk _ => false
  | .data buffer offset =>
      decide (buffer = grid.dataId 1) &&
        (List.range count).any fun (position : Nat) =>
          (emitted (offset + position)).isSome

/--
The process writes next to the memory this message was sent from: it packs the
same halo into the buffer it has, or its kernel emits into the slab.
-/
def IterationProcess.reuses
    (process : IterationProcess α) (message : HaloSend α) : Bool :=
  match process.todo with
  | [] =>
      match process.operations with
      | .kernel emitted :: _ =>
          decide (message.halo.dim + 1 = process.grid.numDims) &&
            process.grid.emitsInto (emitted process.grid)
              message.transfer.cells.length message.ptr
      | _ => false
  | .send dim dir :: _ =>
      process.exchange.sends process.grid dim dir &&
        decide (dim + 1 < process.grid.numDims) &&
        decide (process.exchange.haloBytes process.grid dim dir ≤
          process.grid.haloSelfBufSize dir dim) &&
        decide (message.halo.dim = dim) && decide (message.halo.dir = dir) &&
        decide (message.ptr = process.grid.haloSelf dir dim)
  | _ => false

/-- The pointer a message was sent from, as the grid has it since. -/
structure SentFrom (grid : GridMPI α) (message : HaloSend α) : Prop where
  below : message.halo.dim < grid.numDims
  cells : message.transfer.cells =
    (List.range message.transfer.cells.length).map message.ptr.cell
  last : message.halo.dim + 1 = grid.numDims →
    ∃ buffer offset, message.ptr = .data buffer offset
  earlier : message.halo.dim + 1 < grid.numDims →
    ∃ id < grid.nextChunk, message.ptr = .chunk id ∧
      ∀ side i, i + 1 < grid.numDims → 0 < grid.haloSelfBufSize side i →
        grid.haloSelf side i = .chunk id →
          side = message.halo.dir ∧ i = message.halo.dim

/-- What holds of a process's grid throughout. -/
structure SendsGrid (space : GridSpaceMPI) (grid : GridMPI α) : Prop where
  numDims : grid.numDims = space.numDims
  elmSize : 0 < grid.elmSize
  extents : grid.empty = false → ∀ i < space.numDims, 0 < grid.localSize i
  separate : SeparateBuffers grid

/-- The state of one process and of the messages it has sent. -/
structure SendsSound
    (space : GridSpaceMPI) (rank : Nat) (state : IterationState α) : Prop where
  grid : SendsGrid space (state.process rank).grid
  inside : ∀ action ∈ (state.process rank).todo,
    action.dim < space.numDims ∧ (state.process rank).grid.empty = false
  targets : ∀ target, space.numProcs ≤ target → state.sent rank target = []
  placed : ∀ target, ∀ message ∈ state.sent rank target,
    SentFrom (state.process rank).grid message
  sound : ∀ target, ∀ message ∈ state.sent rank target,
    message.transfer.Sound (state.process rank).grid.load

/-- The sends from the memory that a process writes next have completed. -/
def SendsCompleted
    (space : GridSpaceMPI) (rank : Nat) (state : IterationState α) : Prop :=
  ∀ target < space.numProcs, ∀ message ∈ state.sent rank target,
    (state.process rank).reuses message = true → ¬message.transfer.Outstanding

instance (space : GridSpaceMPI) (rank : Nat) (state : IterationState α) :
    Decidable (SendsCompleted space rank state) :=
  inferInstanceAs (Decidable (∀ target < _, ∀ message ∈ _, _ → _))

/-- A grid with the same shape and the same send buffers. -/
structure KeepsBuffers (grid after : GridMPI α) : Prop
    extends SameShape grid after where
  empty : after.empty = grid.empty
  haloSelf : after.haloSelf = grid.haloSelf
  haloSelfBufSize : after.haloSelfBufSize = grid.haloSelfBufSize
  nextChunk : after.nextChunk = grid.nextChunk

/-- A grid with the same data in them as well. -/
structure KeepsSends (grid after : GridMPI α) : Prop
    extends KeepsBuffers grid after where
  load : after.load = grid.load

theorem KeepsBuffers.refl (grid : GridMPI α) : KeepsBuffers grid grid :=
  ⟨SameShape.refl grid, rfl, rfl, rfl, rfl⟩

theorem runKernel_keepsBuffers
    (grid : GridMPI α) (emitted : Int → Option α) :
    KeepsBuffers grid (grid.runKernel emitted) :=
  ⟨⟨rfl, rfl, rfl, rfl, rfl⟩, rfl, rfl, rfl, rfl⟩

theorem prepareRecv_keepsSends
    (exchange : HaloExchange) (grid : GridMPI α) (dim : Nat) (dir : Dir) :
    KeepsSends grid (exchange.prepareRecv grid dim dir) :=
  ⟨⟨⟨rfl, rfl, rfl, rfl, rfl⟩, rfl, rfl, rfl, rfl⟩, rfl⟩

theorem clearHalo_keepsSends (grid : GridMPI α) (dim : Nat) (dir : Dir) :
    KeepsSends grid (HaloExchange.clearHalo grid dim dir) :=
  ⟨⟨⟨rfl, rfl, rfl, rfl, rfl⟩, rfl, rfl, rfl, rfl⟩, rfl⟩

theorem deliver_keepsSends
    (grid : GridMPI α) (halo : HaloTransfer) (payload : List α) :
    KeepsSends grid (HaloExchange.deliver grid halo payload) :=
  ⟨⟨⟨rfl, rfl, rfl, rfl, rfl⟩, rfl, rfl, rfl, rfl⟩, rfl⟩

namespace IterationState

/-- The steps of a process, by what it has reached. -/
inductive Advances
    (space : GridSpaceMPI) (rank : Nat) (state : IterationState α) :
    IterationState α → Prop
  | begin {exchange rest}
      (idle : (state.process rank).todo = [])
      (next : (state.process rank).operations = .exchange exchange :: rest) :
      Advances space rank state
        (state.advance rank
          { state.process rank with
            operations := rest
            exchange := exchange
            todo :=
              if (state.process rank).grid.empty then []
              else exchangeProgram (state.process rank).grid.numDims })
  | kernel {emitted rest}
      (idle : (state.process rank).todo = [])
      (next : (state.process rank).operations = .kernel emitted :: rest) :
      Advances space rank state
        (state.advance rank
          { state.process rank with
            operations := rest
            grid := (state.process rank).grid.runKernel
              (emitted (state.process rank).grid) })
  | quiet {action rest}
      (posted : Nat → Nat → List HaloTransfer) (grid : GridMPI α)
      (todo : List ExchangeAction) (requests : List HaloRequest)
      (next : (state.process rank).todo = action :: rest)
      (writesNone : ∀ cell, ¬writes (state.process rank) cell)
      (keeps : KeepsSends (state.process rank).grid grid)
      (tail : todo = action :: rest ∨ todo = rest) :
      Advances space rank state
        ({ state with posted := posted }.advance rank
          { state.process rank with
            grid := grid
            todo := todo
            requests := requests })
  | send {dim dir rest grid}
      (next : (state.process rank).todo = .send dim dir :: rest)
      (sends : (state.process rank).exchange.sends (state.process rank).grid
        dim dir = true)
      (packed : (state.process rank).grid.copyoutHalo dim
        ((state.process rank).exchange.width dir dim) dir
        (state.process rank).exchange.diagonal = some grid) :
      Advances space rank state
        ((state.isend rank (space.neighbor rank dim dir.flip)
            ((state.process rank).exchange.transfer (state.process rank).grid
              dim dir) grid (grid.haloSelf dir dim)
            ((state.process rank).grid.calcHaloSize dim
              ((state.process rank).exchange.width dir dim)
              (state.process rank).exchange.diagonal)).advance rank
          { state.process rank with grid := grid, todo := rest })

theorem advances_of_programStep
    {space : GridSpaceMPI} {rank : Nat} {state after : IterationState α}
    (step : programStep space rank state = some after) :
    Advances space rank state after := by
  simp only [programStep] at step
  split at step
  · rename_i idle
    split at step
    · cases step
    · rename_i exchange rest next
      cases step
      exact .begin idle next
    · rename_i emitted rest next
      cases step
      exact .kernel idle next
  · rename_i dim dir rest next
    have writesNone : ∀ cell, ¬writes (state.process rank) cell := by
      simp [writes, next]
    by_cases receives : (state.process rank).exchange.receives
        (state.process rank).grid dim dir
    · rw [if_pos receives] at step
      cases step
      exact .quiet _ _ _ _ next writesNone (prepareRecv_keepsSends _ _ _ _)
        (Or.inr rfl)
    · rw [if_neg receives] at step
      cases step
      exact .quiet _ _ _ _ next writesNone (clearHalo_keepsSends _ _ _) (Or.inr rfl)
  · rename_i dim dir rest next
    by_cases sends : (state.process rank).exchange.sends
        (state.process rank).grid dim dir
    · rw [if_pos sends, Option.map_eq_some_iff] at step
      obtain ⟨grid, packed, rfl⟩ := step
      exact .send next sends packed
    · rw [if_neg sends] at step
      cases step
      have writesNone : ∀ cell, ¬writes (state.process rank) cell := by
        simp [writes, next, sends]
      exact .quiet _ _ _ _ next writesNone ⟨KeepsBuffers.refl _, rfl⟩ (Or.inr rfl)
  · rename_i dim rest next
    have writesNone : ∀ cell, ¬writes (state.process rank) cell := by
      simp [writes, next]
    split at step
    · cases step
      exact .quiet _ _ _ _ next writesNone ⟨KeepsBuffers.refl _, rfl⟩ (Or.inr rfl)
    · split at step
      · cases step
      · split at step
        · cases step
        · cases step
          exact .quiet _ _ _ _ next writesNone (deliver_keepsSends _ _ _) (Or.inl next)

/-- A step of a process changes the elements it writes only. -/
theorem Advances.load_eq
    {space : GridSpaceMPI} {rank : Nat} {state after : IterationState α}
    (advances : Advances space rank state after)
    {cell : SendCell} (spared : ¬writes (state.process rank) cell) :
    (after.process rank).grid.load cell = (state.process rank).grid.load cell := by
  cases advances with
  | begin idle next => rw [advance_process_self]
  | kernel idle next =>
      rw [advance_process_self]
      simp only [writes, idle, next] at spared
      apply load_runKernel
      intro position emits equal
      exact spared ⟨position, equal, emits⟩
  | quiet posted grid todo requests next writesNone keeps tail =>
      rw [advance_process_self]
      exact congrFun keeps.load cell
  | send next sends packed =>
      rw [advance_process_self]
      simp only [writes, next] at spared
      apply load_copyoutHalo packed
      intro notLast position equal
      rw [if_pos ⟨sends, notLast⟩] at spared
      exact spared ⟨position, equal⟩

end IterationState

/-! ## Which messages a step writes into -/

section Overlap

variable {space : GridSpaceMPI} {grid : GridMPI α}

/-- A halo of an occupied process has bytes to send. -/
theorem SendsGrid.haloBytes_pos
    (sendsGrid : SendsGrid space grid) (occupied : grid.empty = false)
    (exchange : HaloExchange) {dim : Nat} {dir : Dir}
    (wide : 0 < exchange.width dir dim) :
    0 < exchange.haloBytes grid dim dir := by
  apply Nat.mul_pos _ sendsGrid.elmSize
  rw [GridMPI.calcHaloSize_eq_length dim _ _ fun _ => (), length_boxList]
  apply MixedRadix.weight_pos
  intro i below
  rw [sendsGrid.numDims] at below
  have extent := sendsGrid.extents occupied i below
  simp only [GridMPI.haloExtent]
  split
  · omega
  · split <;> omega

/-- `GetHaloBuf` gives a new chunk, or the buffer the grid has. -/
theorem haloBuf_haloSelf_eq
    (grid : GridMPI α) (exchange : HaloExchange) (dim : Nat) (dir : Dir) :
    (grid.haloBuf dim (exchange.width dir dim) dir exchange.diagonal).haloSelf
        dir dim =
      if exchange.haloBytes grid dim dir ≤ grid.haloSelfBufSize dir dim then
        grid.haloSelf dir dim
      else .chunk grid.nextChunk := by
  have sameBytes :
      ({ grid with haloHasDiagonal := exchange.diagonal } : GridMPI α).calcHaloSize
          dim (exchange.width dir dim) exchange.diagonal * grid.elmSize =
        exchange.haloBytes grid dim dir :=
    rfl
  simp only [GridMPI.haloBuf, GridMPI.getHaloBuf, sameBytes]
  by_cases enough : exchange.haloBytes grid dim dir ≤ grid.haloSelfBufSize dir dim
  · rw [if_neg (Nat.not_lt_of_ge enough), if_pos enough]
  · rw [if_pos (Nat.lt_of_not_ge enough), if_neg enough]
    simp only [Function.update_self]

/-- The elements of a message, by their positions behind its pointer. -/
theorem SentFrom.mem_cells
    {message : HaloSend α} (placed : SentFrom grid message) (cell : SendCell) :
    cell ∈ message.transfer.cells ↔
      ∃ position < message.transfer.cells.length,
        cell = message.ptr.cell position := by
  rw [placed.cells, List.mem_map, List.length_map, List.length_range]
  constructor
  · rintro ⟨position, member, rfl⟩
    exact ⟨position, List.mem_range.mp member, rfl⟩
  · rintro ⟨position, bound, rfl⟩
    exact ⟨position, List.mem_range.mpr bound, rfl⟩

/-- A kernel writes into a message exactly if it emits into the message's slab. -/
theorem SentFrom.emitsInto_iff
    {message : HaloSend α} (placed : SentFrom grid message)
    (emitted : Int → Option α) :
    (∃ cell ∈ message.transfer.cells, ∃ position,
        cell = .data (grid.dataId 1) position ∧ (emitted position).isSome) ↔
      message.halo.dim + 1 = grid.numDims ∧
        grid.emitsInto emitted message.transfer.cells.length message.ptr = true := by
  constructor
  · rintro ⟨cell, member, position, rfl, emits⟩
    obtain ⟨k, bound, equal⟩ := (placed.mem_cells _).mp member
    have last : message.halo.dim + 1 = grid.numDims := by
      by_contra notLast
      have below := placed.below
      obtain ⟨id, _, is, _⟩ := placed.earlier (by omega)
      rw [is] at equal
      cases equal
    obtain ⟨buffer, offset, is⟩ := placed.last last
    rw [is] at equal ⊢
    cases equal
    refine ⟨last, ?_⟩
    simp only [GridMPI.emitsInto, decide_true, Bool.true_and, List.any_eq_true]
    exact ⟨k, List.mem_range.mpr bound, emits⟩
  · rintro ⟨last, emits⟩
    obtain ⟨buffer, offset, is⟩ := placed.last last
    rw [is] at emits
    simp only [GridMPI.emitsInto, Bool.and_eq_true, decide_eq_true_eq,
      List.any_eq_true, List.mem_range] at emits
    obtain ⟨rfl, k, bound, emits⟩ := emits
    refine ⟨.data (grid.dataId 1) (offset + k), ?_, offset + k, rfl, emits⟩
    exact (placed.mem_cells _).mpr ⟨k, bound, by rw [is]; rfl⟩

/-- Two pointers to elements of one chunk are the same. -/
theorem HaloPtr.eq_of_cell_eq
    {ptr : HaloPtr} {id position other : Nat}
    (equal : ptr.cell position = HaloPtr.cell (.chunk id) other) :
    ptr = .chunk id := by
  cases ptr with
  | chunk own =>
      cases equal
      rfl
  | data buffer offset => cases equal

/-- A send writes into a message exactly if it packs the same halo into its buffer. -/
theorem SentFrom.packs_iff
    {message : HaloSend α} (placed : SentFrom grid message)
    (sendsGrid : SendsGrid space grid) (occupied : grid.empty = false)
    (outstanding : message.transfer.Outstanding)
    (exchange : HaloExchange) {dim : Nat} {dir : Dir}
    (wide : 0 < exchange.width dir dim) (notLast : dim + 1 < grid.numDims) :
    (∃ cell ∈ message.transfer.cells, ∃ position,
        cell = HaloPtr.cell
          ((grid.haloBuf dim (exchange.width dir dim) dir
            exchange.diagonal).haloSelf dir dim) position) ↔
      exchange.haloBytes grid dim dir ≤ grid.haloSelfBufSize dir dim ∧
        message.halo.dim = dim ∧ message.halo.dir = dir ∧
        message.ptr = grid.haloSelf dir dim := by
  have positive := sendsGrid.haloBytes_pos occupied exchange wide
  rw [haloBuf_haloSelf_eq]
  by_cases enough : exchange.haloBytes grid dim dir ≤ grid.haloSelfBufSize dir dim
  · rw [if_pos enough]
    obtain ⟨id, bound, is⟩ := sendsGrid.separate.allocated dir dim notLast (by omega)
    constructor
    · rintro ⟨cell, member, position, rfl⟩
      obtain ⟨k, _, equal⟩ := (placed.mem_cells _).mp member
      rw [is] at equal
      have same := HaloPtr.eq_of_cell_eq equal.symm
      have messageNotLast : message.halo.dim + 1 < grid.numDims := by
        by_contra isLast
        have below := placed.below
        obtain ⟨buffer, offset, data⟩ := placed.last (by omega)
        rw [data] at same
        cases same
      obtain ⟨own, _, ownIs, owner⟩ := placed.earlier messageNotLast
      rw [ownIs] at same
      cases same
      obtain ⟨rfl, rfl⟩ := owner dir dim notLast (by omega) is
      exact ⟨enough, rfl, rfl, by rw [ownIs, is]⟩
    · rintro ⟨_, _, _, same⟩
      refine ⟨message.ptr.cell 0, (placed.mem_cells _).mpr ⟨0, ?_, rfl⟩, 0, by rw [same]⟩
      exact Nat.lt_of_le_of_lt (Nat.zero_le _) outstanding
  · rw [if_neg enough]
    constructor
    · rintro ⟨cell, member, position, rfl⟩
      -- a new chunk is not the buffer of any message
      obtain ⟨k, _, equal⟩ := (placed.mem_cells _).mp member
      have same := HaloPtr.eq_of_cell_eq equal.symm
      by_cases messageLast : message.halo.dim + 1 = grid.numDims
      · obtain ⟨buffer, offset, data⟩ := placed.last messageLast
        rw [data] at same
        cases same
      · have below := placed.below
        obtain ⟨own, ownBound, ownIs, _⟩ := placed.earlier (by omega)
        rw [ownIs] at same
        cases same
        exact absurd ownBound (lt_irrefl _)
    · rintro ⟨fits, _⟩
      exact absurd fits enough

end Overlap

namespace SendsSound

open IterationState

variable {space : GridSpaceMPI} {rank : Nat} {state after : IterationState α}

/-- The next step writes into an outstanding message exactly if it reuses its memory. -/
theorem writes_iff_reuses
    (sound : SendsSound space rank state)
    {target : Nat} {message : HaloSend α} (sent : message ∈ state.sent rank target)
    (outstanding : message.transfer.Outstanding) :
    (∃ cell ∈ message.transfer.cells, writes (state.process rank) cell) ↔
      (state.process rank).reuses message = true := by
  have placed := sound.placed target message sent
  cases todo : (state.process rank).todo with
  | nil =>
      cases operations : (state.process rank).operations with
      | nil => simp [writes, IterationProcess.reuses, todo, operations]
      | cons operation rest =>
          cases operation with
          | exchange next => simp [writes, IterationProcess.reuses, todo, operations]
          | kernel emitted =>
              simp only [writes, IterationProcess.reuses, todo, operations,
                Bool.and_eq_true, decide_eq_true_eq]
              exact placed.emitsInto_iff _
  | cons action rest =>
      cases action with
      | recv dim dir => simp [writes, IterationProcess.reuses, todo]
      | wait dim => simp [writes, IterationProcess.reuses, todo]
      | send dim dir =>
          have inside := sound.inside (.send dim dir) (by rw [todo]; simp)
          have below : dim < (state.process rank).grid.numDims := by
            rw [sound.grid.numDims]
            exact inside.1
          have last : dim ≠ (state.process rank).grid.numDims - 1 ↔
              dim + 1 < (state.process rank).grid.numDims := by
            omega
          simp only [writes, IterationProcess.reuses, todo, last, Bool.and_eq_true,
            decide_eq_true_eq, and_assoc]
          by_cases packs : (state.process rank).exchange.sends
              (state.process rank).grid dim dir = true ∧
              dim + 1 < (state.process rank).grid.numDims
          · have wide : 0 < (state.process rank).exchange.width dir dim := by
              have sends := packs.1
              simp only [HaloExchange.sends, Bool.and_eq_true, decide_eq_true_eq]
                at sends
              exact sends.1
            simp only [packs.1, packs.2, true_and]
            exact placed.packs_iff sound.grid inside.2 outstanding _ wide packs.2
          · simp only [if_neg packs, and_false, exists_false, false_iff]
            rintro ⟨sends, notLast, _⟩
            exact packs ⟨sends, notLast⟩

theorem not_overwrites_iff (sound : SendsSound space rank state) :
    ¬Overwrites state rank ↔ SendsCompleted space rank state := by
  constructor
  · intro spared target _ message sent reuses outstanding
    exact spared ⟨target, message, sent, outstanding,
      (sound.writes_iff_reuses sent outstanding).mpr reuses⟩
  · rintro completed ⟨target, message, sent, outstanding, written⟩
    have bounded : target < space.numProcs := by
      by_contra outside
      rw [sound.targets target (by omega)] at sent
      cases sent
    exact completed target bounded message sent
      ((sound.writes_iff_reuses sent outstanding).mp written) outstanding

end SendsSound

end Physis.Runtime
