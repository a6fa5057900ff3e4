import Physis.Library.Runs
import Physis.Library.Transfers
import Physis.Runtime.LoadContents

/-!
# The buffers behind fetch replies

A process serves requests and takes replies in any order, all through the one
buffer `buf` of its space, and announces what it sends in a `GridRequest` on
the stack of `SendGridRequest`.  None of its non-blocking sends is waited for,
so each may read its cells at any time until it completes.
-/

namespace Physis.Runtime

open Physis.Library
open Physis.Library.Transfers
open Physis.Library.Runs

variable {α : Type}

/-! ## Memory and sends -/

/-- Where sends read from: heap blocks, and the `req` of `SendGridRequest`. -/
inductive ReplyCell where
  | heap (block position : Nat)
  | requestRank
  | requestKind
deriving DecidableEq, Repr

/-- An element of a grid, or a field of a `GridRequest`. -/
inductive ReplyValue (α : Type) where
  | element (value : α)
  | rank (value : Nat)
  | kind (value : GridRequestKind)

/-- A non-blocking send, with what it was to carry. -/
structure ReplySend (α : Type) where
  target : Nat
  packed : List (ReplyValue α)
  transfer : Transfer ReplyCell (Option (ReplyValue α))

namespace ReplySend

/-- The send reads a `GridRequest`. -/
def IsRequest (send : ReplySend α) : Prop :=
  .requestRank ∈ send.transfer.cells ∨ .requestKind ∈ send.transfer.cells

/-- The send reads a heap block. -/
def IsReply (send : ReplySend α) : Prop :=
  ∃ block position, .heap block position ∈ send.transfer.cells

end ReplySend

/-- What the handlers do to the buffers, one step at a time. -/
inductive ReplyOp (α : Type) where
  | ensureBufferCapacity (bytes : Nat)
  /-- `CopyoutSubgrid` or `MPI_Recv` into `buf` -/
  | writeBuf (elements : List α)
  /-- `SendGridRequest` up to its return -/
  | isendRequest (target : Nat) (kind : GridRequestKind)
  /-- the return from `SendGridRequest` -/
  | returnRequest
  | isendBuf (target : Nat) (elements : List α)

/-- The memory of one process, its sends, and what its handler has left to do. -/
structure ReplyState (α : Type) where
  /-- none: freed, out of scope, or never written -/
  memory : ReplyCell → Option (ReplyValue α)
  buf : Option Nat
  curBufSize : Nat
  nextBlock : Nat
  sends : List (ReplySend α)
  todo : List (ReplyOp α)

/-- The first cells of `buf`. -/
def bufCells (buf : Option Nat) (count : Nat) : List ReplyCell :=
  match buf with
  | none => []
  | some block => (List.range count).map (.heap block)

namespace ReplyState

/-- `FREE` of `buf` -/
def freeBuf (state : ReplyState α) : ReplyCell → Option (ReplyValue α)
  | .heap block position =>
      if state.buf = some block then none else state.memory (.heap block position)
  | cell => state.memory cell

/-- The memory with elements written to `buf` from its beginning on. -/
def writeBuf (state : ReplyState α) (elements : List α) :
    ReplyCell → Option (ReplyValue α)
  | .heap block position =>
      if state.buf = some block then
        match elements[position]? with
        | some value => some (.element value)
        | none => state.memory (.heap block position)
      else state.memory (.heap block position)
  | cell => state.memory cell

/-- The memory with the fields of a `GridRequest`, or without it. -/
def writeRequest
    (state : ReplyState α) (request : Option GridRequest) :
    ReplyCell → Option (ReplyValue α)
  | .requestRank => request.map fun request => .rank request.myRank
  | .requestKind => request.map fun request => .kind request.kind
  | cell => state.memory cell

/-- A send is posted. -/
def post
    (state : ReplyState α) (target : Nat) (packed : List (ReplyValue α))
    (cells : List ReplyCell) : ReplyState α :=
  { state with
    sends := state.sends ++ [⟨target, packed, .post state.memory cells⟩] }

/-- One step of a handler. -/
def execute (rank : Nat) (state : ReplyState α) : ReplyOp α → ReplyState α
  | .ensureBufferCapacity bytes =>
      -- `cur_size` is a copy, so `cur_buf_size` keeps its value
      if state.curBufSize < bytes then
        { state with
          memory := state.freeBuf
          buf := some state.nextBlock
          nextBlock := state.nextBlock + 1 }
      else state
  | .writeBuf elements => { state with memory := state.writeBuf elements }
  | .isendRequest target kind =>
      post { state with memory := state.writeRequest (some ⟨rank, kind⟩) } target
        [.rank rank, .kind kind] [.requestRank, .requestKind]
  | .returnRequest => { state with memory := state.writeRequest none }
  | .isendBuf target elements =>
      state.post target (elements.map .element)
        (bufCells state.buf elements.length)

/-- Some send reads its next cell. -/
def readSend (state : ReplyState α) (number : Nat) : ReplyState α :=
  { state with
    sends := state.sends.modify number fun send =>
      { send with transfer := send.transfer.readNext state.memory } }

/-- Before any request; the space starts with no buffer. -/
def start : ReplyState α where
  memory _ := none
  buf := none
  curBufSize := 0
  nextBlock := 0
  sends := []
  todo := []

end ReplyState

/-! ## Handlers in any order -/

/-- What a process of a round does with its buffers. -/
inductive ReplyEvent (α : Type) where
  | sendGridRequest (target : Nat) (kind : GridRequestKind)
  | handleFetchRequest (source : Nat) (info : FetchInfo)
  | handleFetchReply (info : FetchInfo) (payload : List α)

namespace ReplyEvent

variable (space : GridSpaceMPI) (grid : GridMPI α)

/-- The steps of a handler. -/
def ops : ReplyEvent α → List (ReplyOp α)
  | .sendGridRequest target kind => [.isendRequest target kind, .returnRequest]
  | .handleFetchRequest source info =>
      let payload := grid.packed space info
      [.ensureBufferCapacity (info.elements space.numDims * grid.elmSize),
        .writeBuf payload, .isendRequest source .fetchReply, .returnRequest,
        .isendBuf source payload]
  | .handleFetchReply info payload =>
      [.ensureBufferCapacity (info.elements space.numDims * grid.elmSize),
        .writeBuf payload]

/-- Requests are for pieces, and replies are no longer than their pieces. -/
def Valid : ReplyEvent α → Prop
  | .sendGridRequest _ _ => True
  | .handleFetchRequest _ info => ∀ d < space.numDims, 0 ≤ info.peerSize d
  | .handleFetchReply info payload => payload.length ≤ info.elements space.numDims

end ReplyEvent

/-- The steps of one process and of its sends; those of a handler meet a condition. -/
inductive ReplyState.Step
    (space : GridSpaceMPI) (grid : GridMPI α) (rank : Nat)
    (meets : ReplyState α → ReplyOp α → Prop) (state : ReplyState α) :
    ReplyState α → Prop
  | handle (event : ReplyEvent α) (idle : state.todo = [])
      (valid : event.Valid space) :
      Step space grid rank meets state { state with todo := event.ops space grid }
  | execute (op : ReplyOp α) (rest : List (ReplyOp α))
      (next : state.todo = op :: rest) (condition : meets state op) :
      Step space grid rank meets state
        (execute rank { state with todo := rest } op)
  | read (number : Nat) : Step space grid rank meets state (state.readSend number)

/-- Every receiver gets what was packed for it. -/
def ReplyState.CarriesPacked (state : ReplyState α) : Prop :=
  ∀ send ∈ state.sends, send.transfer.read <+: send.packed.map some ∧
    (¬send.transfer.Outstanding → send.transfer.read = send.packed.map some)

/--
A buffer is renewed only when all earlier replies have been read, and
`SendGridRequest` returns only when its request has been.
-/
def ReplyState.Unhurried (state : ReplyState α) : ReplyOp α → Prop
  | .ensureBufferCapacity bytes => 0 < bytes →
      ∀ send ∈ state.sends, send.IsReply → ¬send.transfer.Outstanding
  | .returnRequest =>
      ∀ send ∈ state.sends, send.IsRequest → ¬send.transfer.Outstanding
  | _ => True

/-! ## What holds between steps -/

namespace ReplyState

variable {state : ReplyState α}

/-- No `GridRequest` is still to be read. -/
def RequestsDone (state : ReplyState α) : Prop :=
  ∀ send ∈ state.sends, send.IsRequest → ¬send.transfer.Outstanding

/-- No send reads from `buf`. -/
def FreshBuf (state : ReplyState α) : Prop :=
  ∀ send ∈ state.sends, ∀ block position,
    .heap block position ∈ send.transfer.cells → state.buf ≠ some block

/-- `buf` holds the elements. -/
def HoldsBuf (state : ReplyState α) (elements : List α) : Prop :=
  (bufCells state.buf elements.length).map state.memory =
    elements.map fun value => some (.element value)

/-- What a handler does after it has written its buffer. -/
def AnswersWith (payload : List α) (ops : List (ReplyOp α)) : Prop :=
  ops = [] ∨ ∃ target kind,
    ops = [.isendRequest target kind, .returnRequest, .isendBuf target payload]

/-- What the steps before have established for those to come. -/
def Ready (state : ReplyState α) : List (ReplyOp α) → Prop
  | [] => state.RequestsDone
  | .ensureBufferCapacity bytes :: rest => state.RequestsDone ∧
      ∃ payload tail, rest = .writeBuf payload :: tail ∧
        (payload ≠ [] → 0 < bytes) ∧ AnswersWith payload tail
  | .writeBuf payload :: rest => state.RequestsDone ∧
      (payload ≠ [] → state.FreshBuf ∧ state.buf.isSome) ∧ AnswersWith payload rest
  | .isendRequest _ _ :: rest => state.RequestsDone ∧
      (rest = [.returnRequest] ∨ ∃ target payload,
        rest = [.returnRequest, .isendBuf target payload] ∧ state.HoldsBuf payload)
  | .returnRequest :: rest => rest = [] ∨ ∃ target payload,
      rest = [.isendBuf target payload] ∧ state.HoldsBuf payload
  | .isendBuf _ payload :: rest =>
      rest = [] ∧ state.RequestsDone ∧ state.HoldsBuf payload

/-- What holds in every state of an unhurried run. -/
structure Orderly (state : ReplyState α) : Prop where
  sound : ∀ send ∈ state.sends, Transfer.Sound state.memory send.transfer
  posted : ∀ send ∈ state.sends, send.transfer.posted = send.packed.map some
  blocks : ∀ send ∈ state.sends, ∀ block position,
    .heap block position ∈ send.transfer.cells → block < state.nextBlock
  bufBlock : ∀ block, state.buf = some block → block < state.nextBlock
  curBufSize : state.curBufSize = 0
  ready : state.Ready state.todo

theorem orderly_start : (start : ReplyState α).Orderly where
  sound _ member := by cases member
  posted _ member := by cases member
  blocks _ member := by cases member
  bufBlock _ isBuf := by cases isBuf
  curBufSize := rfl
  ready _ member := by cases member

/-- What is sound has carried what was packed. -/
theorem Orderly.carriesPacked (orderly : state.Orderly) : state.CarriesPacked := by
  intro send member
  have sound := orderly.sound send member
  rw [← orderly.posted send member]
  exact ⟨sound.carried, sound.complete⟩

/-! ## Reading -/

/-- A transfer that has read a cell more. -/
theorem outstanding_of_readNext
    {memory : ReplyCell → Option (ReplyValue α)}
    {transfer : Transfer ReplyCell (Option (ReplyValue α))}
    (outstanding : (transfer.readNext memory).Outstanding) :
    transfer.Outstanding := by
  simp only [Transfer.readNext] at outstanding
  split at outstanding
  · exact outstanding
  · simp only [Transfer.Outstanding, List.length_append, List.length_singleton]
      at outstanding ⊢
    omega

theorem posted_readNext
    (memory : ReplyCell → Option (ReplyValue α))
    (transfer : Transfer ReplyCell (Option (ReplyValue α))) :
    (transfer.readNext memory).posted = transfer.posted := by
  simp only [Transfer.readNext]
  split <;> rfl

/-- The sends after a read, each with the one it was. -/
theorem mem_readSend
    {number : Nat} {send : ReplySend α}
    (member : send ∈ (state.readSend number).sends) :
    ∃ before ∈ state.sends, send = before ∨
      send = { before with transfer := before.transfer.readNext state.memory } := by
  obtain ⟨i, bound, is⟩ := List.getElem_of_mem member
  simp only [readSend, List.length_modify, List.getElem_modify] at bound is
  refine ⟨state.sends[i], List.getElem_mem bound, ?_⟩
  split at is
  · exact Or.inr is.symm
  · exact Or.inl is.symm

/-- Reading completes sends, and changes nothing else of what is to come. -/
theorem Ready.readSend
    {ops : List (ReplyOp α)} (ready : state.Ready ops) (number : Nat) :
    (state.readSend number).Ready ops := by
  have requests : state.RequestsDone → (state.readSend number).RequestsDone := by
    intro done send member isRequest outstanding
    obtain ⟨before, isBefore, rfl | rfl⟩ := mem_readSend member
    · exact done send isBefore isRequest outstanding
    · simp only [ReplySend.IsRequest, Transfer.readNext_cells] at isRequest
      exact done before isBefore isRequest (outstanding_of_readNext outstanding)
  have fresh : state.FreshBuf → (state.readSend number).FreshBuf := by
    intro fresh send member block position isCell
    obtain ⟨before, isBefore, rfl | rfl⟩ := mem_readSend member
    · exact fresh send isBefore block position isCell
    · simp only [Transfer.readNext_cells] at isCell
      exact fresh before isBefore block position isCell
  match ops, ready with
  | [], ready => exact requests ready
  | .ensureBufferCapacity _ :: _, ready => exact ⟨requests ready.1, ready.2⟩
  | .writeBuf _ :: _, ready =>
      exact ⟨requests ready.1, fun some => ⟨fresh (ready.2.1 some).1,
        (ready.2.1 some).2⟩, ready.2.2⟩
  | .isendRequest _ _ :: _, ready => exact ⟨requests ready.1, ready.2⟩
  | .returnRequest :: _, ready => exact ready
  | .isendBuf _ _ :: _, ready => exact ⟨ready.1, requests ready.2.1, ready.2.2⟩

theorem Orderly.readSend (orderly : state.Orderly) (number : Nat) :
    (state.readSend number).Orderly where
  sound send member := by
    obtain ⟨before, isBefore, rfl | rfl⟩ := mem_readSend member
    · exact orderly.sound send isBefore
    · exact (orderly.sound before isBefore).readNext
  posted send member := by
    obtain ⟨before, isBefore, rfl | rfl⟩ := mem_readSend member
    · exact orderly.posted send isBefore
    · exact (posted_readNext _ _).trans (orderly.posted before isBefore)
  blocks send member block position isCell := by
    obtain ⟨before, isBefore, rfl | rfl⟩ := mem_readSend member
    · exact orderly.blocks send isBefore block position isCell
    · simp only [Transfer.readNext_cells] at isCell
      exact orderly.blocks before isBefore block position isCell
  bufBlock := orderly.bufBlock
  curBufSize := orderly.curBufSize
  ready := orderly.ready.readSend number

/-! ## The steps of a handler -/

/-- A write to memory that no outstanding send reads. -/
theorem Orderly.write
    (orderly : state.Orderly) {after : ReplyState α}
    (sends : after.sends = state.sends) (nextBlock : state.nextBlock ≤ after.nextBlock)
    (bufBlock : ∀ block, after.buf = some block → block < after.nextBlock)
    (curBufSize : after.curBufSize = state.curBufSize)
    (spared : ∀ send ∈ state.sends, send.transfer.Outstanding →
      ∀ cell ∈ send.transfer.cells, after.memory cell = state.memory cell)
    (ready : after.Ready after.todo) :
    after.Orderly where
  sound send member := by
    rw [sends] at member
    exact (orderly.sound send member).write (spared send member)
  posted send member := by
    rw [sends] at member
    exact orderly.posted send member
  blocks send member block position isCell := by
    rw [sends] at member
    exact (orderly.blocks send member block position isCell).trans_le nextBlock
  bufBlock := bufBlock
  curBufSize := curBufSize.trans orderly.curBufSize
  ready := ready

/-- A send of cells that hold what it is to carry. -/
theorem Orderly.post
    (orderly : state.Orderly) {target : Nat} {packed : List (ReplyValue α)}
    {cells : List ReplyCell} (holds : cells.map state.memory = packed.map some)
    (blocks : ∀ block position, .heap block position ∈ cells →
      block < state.nextBlock)
    (ready : (state.post target packed cells).Ready state.todo) :
    (state.post target packed cells).Orderly where
  sound send member := by
    rcases List.mem_append.mp member with before | new
    · exact orderly.sound send before
    · rw [List.mem_singleton.mp new]
      exact Transfer.sound_post _ _
  posted send member := by
    rcases List.mem_append.mp member with before | new
    · exact orderly.posted send before
    · rw [List.mem_singleton.mp new]
      exact holds
  blocks send member block position isCell := by
    rcases List.mem_append.mp member with before | new
    · exact orderly.blocks send before block position isCell
    · rw [List.mem_singleton.mp new] at isCell
      exact blocks block position isCell
  bufBlock := orderly.bufBlock
  curBufSize := orderly.curBufSize
  ready := ready

theorem mem_bufCells {buf : Option Nat} {count : Nat} {cell : ReplyCell} :
    cell ∈ bufCells buf count ↔
      ∃ block position, (buf = some block ∧ position < count) ∧
        cell = .heap block position := by
  cases buf with
  | none => simp [bufCells]
  | some block =>
      simp only [bufCells, List.mem_map, List.mem_range, Option.some.injEq]
      constructor
      · rintro ⟨position, bound, rfl⟩
        exact ⟨block, position, ⟨rfl, bound⟩, rfl⟩
      · rintro ⟨_, position, ⟨rfl, bound⟩, rfl⟩
        exact ⟨position, bound, rfl⟩

/-- Where the memory of the heap stays, so do the elements of `buf`. -/
theorem HoldsBuf.of_heap
    {after : ReplyState α} {payload : List α} (holds : state.HoldsBuf payload)
    (buf : after.buf = state.buf)
    (heap : ∀ block position, after.memory (.heap block position) =
      state.memory (.heap block position)) :
    after.HoldsBuf payload := by
  rw [HoldsBuf, buf, ← holds]
  apply List.map_congr_left
  intro cell member
  obtain ⟨block, position, -, rfl⟩ := mem_bufCells.mp member
  exact heap block position

/-- The elements just written to `buf` are there. -/
theorem holdsBuf_writeBuf
    {payload : List α} (allocated : payload ≠ [] → state.buf.isSome) :
    ({ state with memory := state.writeBuf payload } : ReplyState α).HoldsBuf
      payload := by
  rw [HoldsBuf]
  cases buf : state.buf with
  | none =>
      have empty : payload = [] := by
        by_contra nonempty
        have isSome := allocated nonempty
        rw [buf] at isSome
        cases isSome
      rw [empty]
      rfl
  | some block =>
      simp only [bufCells, List.map_map]
      apply List.ext_getElem
      · simp
      · intro position bound _
        have inside : position < payload.length := by simpa using bound
        simp [writeBuf, buf, inside]

theorem orderly_execute
    {rank : Nat} {op : ReplyOp α} {rest : List (ReplyOp α)}
    (orderly : state.Orderly) (next : state.todo = op :: rest)
    (condition : state.Unhurried op) :
    (execute rank { state with todo := rest } op).Orderly := by
  have ready := orderly.ready
  rw [next] at ready
  match op, ready, condition with
  | .ensureBufferCapacity bytes, ⟨requests, payload, tail, isRest, sized, answers⟩,
      condition =>
      simp only [execute]
      split
      · rename_i grows
        have positive : 0 < bytes := Nat.zero_lt_of_lt grows
        refine orderly.write rfl (Nat.le_succ _) ?_ rfl ?_ ?_
        · rintro _ ⟨⟩
          exact Nat.lt_succ_self _
        · intro send member outstanding cell isCell
          match cell, isCell with
          | .heap block position, isCell =>
              exact absurd outstanding
                (condition positive send member ⟨block, position, isCell⟩)
          | .requestRank, _ => rfl
          | .requestKind, _ => rfl
        · rw [isRest]
          refine ⟨requests, fun _ => ⟨?_, rfl⟩, answers⟩
          intro send member block position isCell same
          have old := orderly.blocks send member block position isCell
          cases same
          exact absurd old (Nat.lt_irrefl _)
      · rename_i fits
        rw [show ({ state with todo := rest } : ReplyState α).curBufSize = 0 from
          orderly.curBufSize] at fits
        refine orderly.write rfl le_rfl orderly.bufBlock rfl (fun _ _ _ _ _ => rfl) ?_
        rw [isRest]
        exact ⟨requests, fun nonempty => absurd (sized nonempty) fits, answers⟩
  | .writeBuf payload, ⟨requests, fresh, answers⟩, _ =>
      have holds := @holdsBuf_writeBuf _ { state with todo := rest } payload
        fun nonempty => (fresh nonempty).2
      refine orderly.write rfl le_rfl orderly.bufBlock rfl ?_ ?_
      · intro send member _ cell isCell
        match cell, isCell with
        | .heap block position, isCell =>
            simp only [execute, writeBuf]
            split
            · rename_i same
              rcases payload.eq_nil_or_concat with rfl | nonempty
              · rfl
              · have other := (fresh (by
                  obtain ⟨_, _, rfl⟩ := nonempty
                  simp)).1 send member block position isCell
                exact absurd same other
            · rfl
        | .requestRank, _ => rfl
        | .requestKind, _ => rfl
      · rcases answers with rfl | ⟨target, kind, rfl⟩
        · exact requests
        · exact ⟨requests, Or.inr ⟨target, payload, rfl, holds⟩⟩
  | .isendRequest target kind, ⟨requests, sending⟩, _ =>
      have announced : ({ state with
          todo := rest
          memory := state.writeRequest (some ⟨rank, kind⟩) } :
            ReplyState α).Orderly := by
        refine orderly.write rfl le_rfl orderly.bufBlock rfl ?_ ?_
        · intro send member outstanding cell isCell
          match cell, isCell with
          | .heap block position, _ => rfl
          | .requestRank, isCell =>
              exact absurd outstanding (requests send member (Or.inl isCell))
          | .requestKind, isCell =>
              exact absurd outstanding (requests send member (Or.inr isCell))
        · rcases sending with rfl | ⟨client, payload, rfl, holds⟩
          · exact Or.inl rfl
          · exact Or.inr ⟨client, payload, rfl, holds.of_heap rfl fun _ _ => rfl⟩
      refine announced.post rfl (fun block position isCell => by simp at isCell) ?_
      rcases sending with rfl | ⟨client, payload, rfl, holds⟩
      · exact Or.inl rfl
      · exact Or.inr ⟨client, payload, rfl, holds.of_heap rfl fun _ _ => rfl⟩
  | .returnRequest, sending, condition =>
      refine orderly.write rfl le_rfl orderly.bufBlock rfl ?_ ?_
      · intro send member outstanding cell isCell
        match cell, isCell with
        | .heap block position, _ => rfl
        | .requestRank, isCell =>
            exact absurd outstanding (condition send member (Or.inl isCell))
        | .requestKind, isCell =>
            exact absurd outstanding (condition send member (Or.inr isCell))
      · rcases sending with rfl | ⟨target, payload, rfl, holds⟩
        · exact condition
        · exact ⟨rfl, condition, holds.of_heap rfl fun _ _ => rfl⟩
  | .isendBuf target payload, ⟨isRest, requests, holds⟩, _ =>
      subst isRest
      have idle : ({ state with todo := [] } : ReplyState α).Orderly :=
        orderly.write rfl le_rfl orderly.bufBlock rfl (fun _ _ _ _ _ => rfl) requests
      refine idle.post ?_ ?_ ?_
      · rw [List.map_map]
        exact holds
      · intro block position isCell
        obtain ⟨_, _, ⟨isBuf, _⟩, equal⟩ := mem_bufCells.mp isCell
        cases equal
        exact orderly.bufBlock block isBuf
      · intro send member isRequest
        rcases List.mem_append.mp member with before | new
        · exact requests send before isRequest
        · rw [List.mem_singleton.mp new] at isRequest
          rcases isRequest with isCell | isCell <;>
            obtain ⟨_, _, _, impossible⟩ := mem_bufCells.mp isCell <;>
            cases impossible

/-- A handler starts with its requests sent, and takes the space it needs. -/
theorem ready_ops
    {space : GridSpaceMPI} {grid : GridMPI α} (dims : 0 < space.numDims)
    (element : 0 < grid.elmSize) (requests : state.RequestsDone)
    {event : ReplyEvent α} (valid : event.Valid space) :
    state.Ready (event.ops space grid) := by
  have sized : ∀ {payload : List α} {info : FetchInfo},
      payload.length ≤ info.elements space.numDims → payload ≠ [] →
        0 < info.elements space.numDims * grid.elmSize := by
    intro payload info fits nonempty
    exact Nat.mul_pos ((List.length_pos_iff.mpr nonempty).trans_le fits) element
  cases event with
  | sendGridRequest target kind => exact ⟨requests, Or.inl rfl⟩
  | handleFetchRequest source info =>
      have length : (grid.packed space info).length = info.elements space.numDims :=
        length_copyoutSubgrid dims _ _ _ valid
      exact ⟨requests, _, _, rfl, sized length.le,
        Or.inr ⟨source, .fetchReply, rfl⟩⟩
  | handleFetchReply info payload =>
      exact ⟨requests, payload, [], rfl, sized valid, Or.inl rfl⟩

theorem orderly_step
    {space : GridSpaceMPI} {grid : GridMPI α} {rank : Nat} (dims : 0 < space.numDims)
    (element : 0 < grid.elmSize) {after : ReplyState α} (orderly : state.Orderly)
    (step : Step space grid rank Unhurried state after) :
    after.Orderly := by
  cases step with
  | handle event idle valid =>
      have requests := orderly.ready
      rw [idle] at requests
      exact orderly.write rfl le_rfl orderly.bufBlock rfl (fun _ _ _ _ _ => rfl)
        (ready_ops dims element requests valid)
  | execute op rest next condition => exact orderly_execute orderly next condition
  | read number => exact orderly.readSend number

end ReplyState

/--
Replies and requests carry what was packed for them in every run that renews
the buffer only after earlier replies, and leaves `SendGridRequest` only after
its request, have been read.
-/
theorem replies_carry_packed
    {space : GridSpaceMPI} {grid : GridMPI α} {rank : Nat} (dims : 0 < space.numDims)
    (element : 0 < grid.elmSize) {state : ReplyState α}
    (reached : Reaches (ReplyState.Step space grid rank ReplyState.Unhurried)
      ReplyState.start state) :
    state.CarriesPacked :=
  (reached.invariant ReplyState.orderly_start fun _ _ =>
    ReplyState.orderly_step dims element).carriesPacked

/-! ## Two requests for one element -/

namespace ReplyState

/-- The next steps of the handler, and reads of sends in between. -/
def replay (rank : Nat) (allowed : ReplyState α → ReplyOp α → Bool) :
    List (Option Nat) → ReplyState α → Option (ReplyState α)
  | [], state => some state
  | some number :: rest, state => replay rank allowed rest (state.readSend number)
  | none :: rest, state =>
      match state.todo with
      | [] => none
      | op :: ops =>
          if allowed state op then
            replay rank allowed rest (execute rank { state with todo := ops } op)
          else none

theorem reaches_of_replay
    {space : GridSpaceMPI} {grid : GridMPI α} {rank : Nat}
    {meets : ReplyState α → ReplyOp α → Prop}
    {allowed : ReplyState α → ReplyOp α → Bool}
    (sufficient : ∀ state op, allowed state op = true → meets state op)
    {moves : List (Option Nat)} {state final : ReplyState α}
    (replayed : replay rank allowed moves state = some final) :
    Reaches (Step space grid rank meets) state final := by
  induction moves generalizing state with
  | nil =>
      cases replayed
      exact .refl
  | cons move rest induction =>
      cases move with
      | some number => exact .head (.read number) (induction replayed)
      | none =>
          simp only [replay] at replayed
          split at replayed
          · cases replayed
          · rename_i op ops next
            split at replayed
            · rename_i isAllowed
              exact .head (.execute op ops next (sufficient state op isAllowed))
                (induction replayed)
            · cases replayed

/-- Events one after the other, each with the moves until its handler is done. -/
def replayEvents
    (space : GridSpaceMPI) (grid : GridMPI α) (rank : Nat)
    (allowed : ReplyState α → ReplyOp α → Bool) :
    List (ReplyEvent α × List (Option Nat)) → ReplyState α → Option (ReplyState α)
  | [], state => some state
  | (event, moves) :: rest, state =>
      if state.todo.isEmpty then
        (replay rank allowed moves { state with todo := event.ops space grid }).bind
          (replayEvents space grid rank allowed rest)
      else none

theorem reaches_of_replayEvents
    {space : GridSpaceMPI} {grid : GridMPI α} {rank : Nat}
    {meets : ReplyState α → ReplyOp α → Prop}
    {allowed : ReplyState α → ReplyOp α → Bool}
    (sufficient : ∀ state op, allowed state op = true → meets state op)
    {events : List (ReplyEvent α × List (Option Nat))}
    (valid : ∀ event ∈ events, event.1.Valid space) {state final : ReplyState α}
    (replayed : replayEvents space grid rank allowed events state = some final) :
    Reaches (Step space grid rank meets) state final := by
  induction events generalizing state with
  | nil =>
      cases replayed
      exact .refl
  | cons head rest induction =>
      obtain ⟨event, moves⟩ := head
      simp only [replayEvents] at replayed
      split at replayed
      · rename_i idle
        obtain ⟨middle, first, later⟩ := Option.bind_eq_some_iff.1 replayed
        have handled := @reaches_of_replay _ space grid _ _ _ sufficient _ _ _ first
        exact (Relation.ReflTransGen.head
          (.handle event (List.isEmpty_iff.1 idle) (valid _ (List.mem_cons_self ..)))
          handled).trans
          (induction (fun event member => valid event (List.mem_cons_of_mem _ member)) later)
      · cases replayed

/-- All sends have been read. -/
def allRead (state : ReplyState α) : Bool :=
  state.sends.all fun send => decide ¬send.transfer.Outstanding

theorem unhurried_of_allRead
    (state : ReplyState α) (op : ReplyOp α) (read : state.allRead = true) :
    state.Unhurried op := by
  have done : ∀ send ∈ state.sends, ¬send.transfer.Outstanding := by
    intro send member
    exact of_decide_eq_true (List.all_eq_true.mp read send member)
  cases op with
  | ensureBufferCapacity bytes => exact fun _ send member _ => done send member
  | returnRequest => exact fun send member _ => done send member
  | writeBuf elements => trivial
  | isendRequest target kind => trivial
  | isendBuf target elements => trivial

end ReplyState

theorem oneEach_procPos : ∀ i < 1, 0 < (IntegerArray.mk3 3 0 0 : IntArray) i := by decide

/-- Three processes with one element each. -/
def oneEach : GridSpaceMPI where
  numDims := 1
  globalSize := IntegerArray.mk3 3 0 0
  procSize := IntegerArray.mk3 3 0 0
  globalPos := by decide
  procPos := oneEach_procPos

/-- The part of the first process; its element is five. -/
def firstOfThree : GridMPI Int :=
  oneEach.distribute 4 (IntegerArray.mk3 3 0 0) false (fun _ => 0) (fun _ _ _ => 5) 0

/-- The piece of that element. -/
def firstElement : FetchInfo where
  peerIndex _ := 0
  peerOffset _ := 0
  peerSize := IntegerArray.mk3 1 0 0

/-- The first process while it serves a request for its element. -/
def serving (source : Nat) (state : ReplyState Int) : ReplyState Int :=
  { state with
    todo := (ReplyEvent.handleFetchRequest source firstElement).ops oneEach
      firstOfThree }

theorem serve_step
    {meets : ReplyState Int → ReplyOp Int → Prop} (source : Nat)
    {state : ReplyState Int} (idle : state.todo = []) :
    ReplyState.Step oneEach firstOfThree 0 meets state (serving source state) :=
  .handle (.handleFetchRequest source firstElement) idle fun d below => by
    match d, below with
    | 0, _ => decide

/-- The first request has been answered; none of it has been read. -/
def answered : ReplyState Int :=
  (ReplyState.replay 0 (fun _ _ => true) (List.replicate 5 none)
    (serving 1 .start)).getD .start

/-- The second request has renewed the buffer; then the first reply is read. -/
def overtaken : ReplyState Int :=
  (ReplyState.replay 0 (fun _ _ => true) [none, some 1]
    (serving 2 answered)).getD .start

theorem overtaken_reached :
    Reaches (ReplyState.Step oneEach firstOfThree 0 fun _ _ => True)
      ReplyState.start overtaken := by
  have first := @ReplyState.reaches_of_replay _ oneEach firstOfThree 0
    (fun _ _ => True) (fun _ _ => true) (fun _ _ _ => trivial)
    (List.replicate 5 none) (serving 1 .start) answered rfl
  have second := @ReplyState.reaches_of_replay _ oneEach firstOfThree 0
    (fun _ _ => True) (fun _ _ => true) (fun _ _ _ => trivial)
    [none, some 1] (serving 2 answered) overtaken rfl
  exact ((Relation.ReflTransGen.head (serve_step 1 rfl) first).tail
    (serve_step 2 rfl)).trans second

/-- The second request frees the buffer of the first reply before it is read. -/
theorem second_request_frees_first_reply :
    ∃ state, Reaches (ReplyState.Step oneEach firstOfThree 0 fun _ _ => True)
        ReplyState.start state ∧ ¬state.CarriesPacked := by
  refine ⟨overtaken, overtaken_reached, fun carries => ?_⟩
  obtain ⟨_, complete⟩ := carries
    ⟨1, [.element 5], ⟨[.heap 0 0], [some (.element 5)], [none]⟩⟩
    (List.mem_cons_of_mem _ (List.mem_cons_self ..))
  have same := complete (by decide)
  simp at same

theorem twoEach_globalPos : ∀ i < 1, 0 < (IntegerArray.mk3 6 0 0 : IndexArray) i := by decide

/-- Three processes with two elements each. -/
def twoEach : GridSpaceMPI where
  numDims := 1
  globalSize := IntegerArray.mk3 6 0 0
  procSize := IntegerArray.mk3 3 0 0
  globalPos := twoEach_globalPos
  procPos := oneEach_procPos

/-- The part of the first process; its elements are ten and eleven. -/
def firstTwo : GridMPI Int :=
  twoEach.distribute 4 (IntegerArray.mk3 6 0 0) false (fun _ => 0) (fun _ _ cell => 10 + cell) 0

/-- The first elements of the part, as a piece. -/
def firstElements (count : Int) : FetchInfo where
  peerIndex _ := 0
  peerOffset _ := 0
  peerSize := IntegerArray.mk3 count 0 0

/--
Two requests, for one element and for both, and the reply to a request of its
own; what is sent is read before the next step of a handler.
-/
def unhurriedEvents : List (ReplyEvent Int × List (Option Nat)) :=
  [(.handleFetchRequest 1 (firstElements 1),
      [none, none, none, some 0, some 0, none, none, some 1]),
    (.handleFetchRequest 2 (firstElements 2),
      [none, none, none, some 2, some 2, none, none, some 3, some 3]),
    (.handleFetchReply (firstElements 2) [20, 21], [none, none])]

/-- Replies of different lengths arrive, and the buffer takes a reply at last. -/
theorem unhurried_reply_arrives :
    ∃ state first second, Reaches (ReplyState.Step twoEach firstTwo 0
        ReplyState.Unhurried) ReplyState.start state ∧
      first ∈ state.sends ∧ first.transfer.read = [some (.element 10)] ∧
      second ∈ state.sends ∧
        second.transfer.read = [some (.element 10), some (.element 11)] ∧
      state.CarriesPacked := by
  have valid : ∀ event ∈ unhurriedEvents, event.1.Valid twoEach := by
    simp only [unhurriedEvents, List.forall_mem_cons, List.not_mem_nil, IsEmpty.forall_iff,
      implies_true, and_true, ReplyEvent.Valid]
    decide
  have reached := ReplyState.reaches_of_replayEvents ReplyState.unhurried_of_allRead valid
    (rfl : ReplyState.replayEvents twoEach firstTwo 0 (fun state _ => state.allRead)
      unhurriedEvents .start = some _)
  refine ⟨_, _, _, reached, List.mem_cons_of_mem _ (List.mem_cons_self ..), rfl,
    List.mem_cons_of_mem _ (List.mem_cons_of_mem _ (List.mem_cons_of_mem _
      (List.mem_cons_self ..))), rfl,
    replies_carry_packed (by decide) (by decide) reached⟩

end Physis.Runtime
