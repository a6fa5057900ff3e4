import Physis.Runtime.ExchangeBoundaries

/-!
# What each process does in an exchange

The blocks of an exchange run through the stages of the script in a fixed
order.  Which receives a process posts and which messages it sends depends on
its own subgrid only, and the posts of a receiver are, block by block, the
sends of its neighbour.
-/

namespace Physis.Runtime

open Physis.Library
open Physis.Library.RowMajor
open Physis.Library.Channels

/-! ## The order of the blocks -/

namespace ExchangeAction

/-- The dimension a block belongs to. -/
def dim : ExchangeAction → Nat
  | .recv dim _ => dim
  | .send dim _ => dim
  | .wait dim => dim

/-- How far before the end of the script a block stands. -/
def stage : ExchangeAction → Nat
  | .recv dim .fw => 5 * dim + 4
  | .recv dim .bw => 5 * dim + 3
  | .send dim .fw => 5 * dim + 2
  | .send dim .bw => 5 * dim + 1
  | .wait dim => 5 * dim

theorem stage_bounds (action : ExchangeAction) :
    5 * action.dim ≤ action.stage ∧ action.stage < 5 * (action.dim + 1) := by
  cases action with
  | recv i dir => cases dir <;> simp only [dim, stage] <;> omega
  | send i dir => cases dir <;> simp only [dim, stage] <;> omega
  | wait i => simp only [dim, stage]; omega

end ExchangeAction

theorem mem_exchangeDimension (dim : Nat) (action : ExchangeAction) :
    action ∈ exchangeDimension dim ↔ action.dim = dim := by
  cases action with
  | recv other dir => cases dir <;> simp [exchangeDimension, ExchangeAction.dim]
  | send other dir => cases dir <;> simp [exchangeDimension, ExchangeAction.dim]
  | wait other => simp [exchangeDimension, ExchangeAction.dim]

theorem mem_exchangeProgram (numDims : Nat) (action : ExchangeAction) :
    action ∈ exchangeProgram numDims ↔ action.dim < numDims := by
  induction numDims with
  | zero => simp [exchangeProgram]
  | succ numDims induction =>
      rw [exchangeProgram, List.mem_append, induction, mem_exchangeDimension]
      omega

/-- The stages of the script decrease. -/
theorem exchangeProgram_pairwise (numDims : Nat) :
    (exchangeProgram numDims).Pairwise fun before after =>
      after.stage < before.stage := by
  induction numDims with
  | zero => exact List.Pairwise.nil
  | succ numDims induction =>
      rw [exchangeProgram, List.pairwise_append]
      refine ⟨?_, induction, ?_⟩
      · simp [exchangeDimension, ExchangeAction.stage]
      · intro before inDimension after inRest
        rw [mem_exchangeDimension] at inDimension
        rw [mem_exchangeProgram] at inRest
        have lower := before.stage_bounds
        have upper := after.stage_bounds
        omega

section Split

variable
    {numDims : Nat} {done rest : List ExchangeAction}
    {action other : ExchangeAction}

/-- What is done when a block is reached are the blocks of earlier stages. -/
theorem mem_done_iff
    (split : done ++ action :: rest = exchangeProgram numDims) :
    other ∈ done ↔ other.dim < numDims ∧ action.stage < other.stage := by
  have ordered := exchangeProgram_pairwise numDims
  rw [← split, List.pairwise_append, List.pairwise_cons] at ordered
  obtain ⟨_, ⟨later, _⟩, earlier⟩ := ordered
  constructor
  · intro member
    refine ⟨?_, earlier other member action (List.mem_cons_self ..)⟩
    rw [← mem_exchangeProgram, ← split]
    exact List.mem_append_left _ member
  · rintro ⟨below, stage⟩
    rw [← mem_exchangeProgram, ← split, List.mem_append, List.mem_cons] at below
    rcases below with member | rfl | member
    · exact member
    · exact absurd stage (lt_irrefl _)
    · exact absurd (later other member) (by omega)

/-- What remains after a block are the blocks of later stages. -/
theorem mem_rest_iff
    (split : done ++ action :: rest = exchangeProgram numDims) :
    other ∈ rest ↔ other.dim < numDims ∧ other.stage < action.stage := by
  have ordered := exchangeProgram_pairwise numDims
  rw [← split, List.pairwise_append, List.pairwise_cons] at ordered
  obtain ⟨_, ⟨later, _⟩, earlier⟩ := ordered
  constructor
  · intro member
    refine ⟨?_, later other member⟩
    rw [← mem_exchangeProgram, ← split]
    exact List.mem_append_right _ (List.mem_cons_of_mem _ member)
  · rintro ⟨below, stage⟩
    rw [← mem_exchangeProgram, ← split, List.mem_append, List.mem_cons] at below
    rcases below with member | rfl | member
    · have above := earlier other member action (List.mem_cons_self ..)
      omega
    · exact absurd stage (lt_irrefl _)
    · exact member

theorem dim_lt_of_split
    (split : done ++ action :: rest = exchangeProgram numDims) :
    action.dim < numDims := by
  rw [← mem_exchangeProgram, ← split]
  exact List.mem_append_right _ (List.mem_cons_self ..)

end Split

/--
If receives and sends of every dimension project to the same items, so do all
blocks before any wait.
-/
theorem filterMap_eq_before_wait
    {Item : Type} {receive send : ExchangeAction → Option Item}
    {numDims dim : Nat} {done rest : List ExchangeAction}
    (matched : ∀ i < numDims, ∀ dir, receive (.recv i dir) = send (.send i dir))
    (receiveOnly : ∀ i dir, receive (.send i dir) = none)
    (sendOnly : ∀ i dir, send (.recv i dir) = none)
    (noWait : ∀ i, receive (.wait i) = none ∧ send (.wait i) = none)
    (split : done ++ .wait dim :: rest = exchangeProgram numDims) :
    done.filterMap receive = done.filterMap send := by
  induction numDims generalizing done with
  | zero => simp [exchangeProgram] at split
  | succ numDims induction =>
      simp only [exchangeProgram, exchangeDimension, List.cons_append,
        List.nil_append] at split
      have fw := matched numDims (Nat.lt_succ_self _) .fw
      have bw := matched numDims (Nat.lt_succ_self _) .bw
      rcases done with _ | ⟨first, _ | ⟨second, _ | ⟨third, _ | ⟨fourth, done⟩⟩⟩⟩
      · simp at split
      · simp at split
      · simp at split
      · simp at split
      · simp only [List.cons_append, List.cons.injEq] at split
        obtain ⟨rfl, rfl, rfl, rfl, tail⟩ := split
        rcases done with _ | ⟨fifth, done⟩
        · simp only [List.filterMap_cons, receiveOnly, sendOnly, fw, bw,
            List.filterMap_nil]
        · simp only [List.cons_append, List.cons.injEq] at tail
          obtain ⟨rfl, tail⟩ := tail
          have inner := induction
            (fun i below => matched i (Nat.lt_succ_of_lt below)) tail
          simp only [List.filterMap_cons, receiveOnly, sendOnly, fw, bw,
            (noWait numDims).1, (noWait numDims).2, inner]

/-- The same for the whole script. -/
theorem filterMap_eq_program
    {Item : Type} {receive send : ExchangeAction → Option Item}
    {numDims : Nat}
    (matched : ∀ i < numDims, ∀ dir, receive (.recv i dir) = send (.send i dir))
    (receiveOnly : ∀ i dir, receive (.send i dir) = none)
    (sendOnly : ∀ i dir, send (.recv i dir) = none)
    (noWait : ∀ i, receive (.wait i) = none ∧ send (.wait i) = none) :
    (exchangeProgram numDims).filterMap receive =
      (exchangeProgram numDims).filterMap send := by
  induction numDims with
  | zero => rfl
  | succ numDims induction =>
      have inner := induction fun i below => matched i (Nat.lt_succ_of_lt below)
      have fw := matched numDims (Nat.lt_succ_self _) .fw
      have bw := matched numDims (Nat.lt_succ_self _) .bw
      simp only [exchangeProgram, exchangeDimension, List.filterMap_append,
        List.filterMap_cons, List.filterMap_nil, receiveOnly, sendOnly, fw, bw,
        (noWait numDims).1, (noWait numDims).2, inner]

/-! ## What no block changes -/

/-- The fields of a grid that an exchange only reads. -/
structure SameShape {α : Type} (origin grid : GridMPI α) : Prop where
  elmSize : grid.elmSize = origin.elmSize
  numDims : grid.numDims = origin.numDims
  size : grid.size = origin.size
  localOffset : grid.localOffset = origin.localOffset
  localSize : grid.localSize = origin.localSize

section Shape

variable {α : Type} {origin grid after : GridMPI α}

theorem SameShape.refl (grid : GridMPI α) : SameShape grid grid :=
  ⟨rfl, rfl, rfl, rfl, rfl⟩

theorem SameShape.continues
    (shape : SameShape origin grid) (dim : Nat) (dir : Dir) :
    grid.continues dim dir = origin.continues dim dir := by
  cases dir with
  | fw =>
      simp only [GridMPI.continues]
      rw [shape.localOffset, shape.localSize, shape.size]
  | bw =>
      simp only [GridMPI.continues]
      rw [shape.localOffset]

/-- A halo's extents depend on the widths of the later dimensions only. -/
theorem SameShape.haloExtent
    (shape : SameShape origin grid) {dim : Nat}
    (widths : ∀ i, dim < i → i < origin.numDims → ∀ dir,
      grid.haloWidth dir i = origin.haloWidth dir i)
    (width : Nat) (diagonal : Bool) {i : Nat} (below : i < origin.numDims) :
    grid.haloExtent dim width diagonal i =
      origin.haloExtent dim width diagonal i := by
  simp only [GridMPI.haloExtent]
  split
  · rfl
  · split
    · rename_i _ later
      rw [shape.localSize, widths i later.2 below .fw, widths i later.2 below .bw]
    · rw [shape.localSize]

theorem SameShape.calcHaloSize
    (shape : SameShape origin grid) {dim : Nat}
    (widths : ∀ i, dim < i → i < origin.numDims → ∀ dir,
      grid.haloWidth dir i = origin.haloWidth dir i)
    (width : Nat) (diagonal : Bool) :
    grid.calcHaloSize dim width diagonal =
      origin.calcHaloSize dim width diagonal := by
  have unit : ∀ other : GridMPI α,
      other.calcHaloSize dim width diagonal =
        (boxList other.numDims (other.haloExtent dim width diagonal)
          fun _ => ()).length :=
    fun other => GridMPI.calcHaloSize_eq_length dim width diagonal fun _ => ()
  rw [unit, unit, shape.numDims,
    boxList_congr (fun i below => shape.haloExtent widths width diagonal below)
      fun _ _ => rfl]

/-- `CopyoutHalo` never aborts for the dimensions a grid can have. -/
theorem exists_copyoutHalo
    {dim : Nat} (dims : grid.numDims ≤ psMaxDim) (below : dim < grid.numDims)
    (width : Nat) (dir : Dir) (diagonal : Bool) :
    ∃ after, grid.copyoutHalo dim width dir diagonal = some after := by
  have three : grid.numDims ≤ 3 := dims
  have bufDims : ∀ marked : GridMPI α,
      (marked.getHaloBuf dim width dir diagonal).numDims = marked.numDims := by
    intro marked
    simp only [GridMPI.getHaloBuf]
    split <;> rfl
  simp only [GridMPI.copyoutHalo]
  split
  · exact ⟨_, rfl⟩
  · rename_i notLast
    simp only [GridMPI.packedHalo, bufDims]
    split
    · exact ⟨_, rfl⟩
    · split
      · exact ⟨_, rfl⟩
      · rw [if_pos (by omega)]
        split
        · exact ⟨_, rfl⟩
        · rw [if_pos (by omega)]
          exact ⟨_, rfl⟩

/-- A grid with the same shape and the same halos received. -/
structure KeepsHalos (grid after : GridMPI α) : Prop
    extends SameShape grid after where
  haloWidth : after.haloWidth = grid.haloWidth
  haloSize : after.haloSize = grid.haloSize
  haloPeer : after.haloPeer = grid.haloPeer

theorem writePtr_keepsHalos (ptr : HaloPtr) (cells : List α) :
    KeepsHalos grid (grid.writePtr ptr cells) := by
  cases ptr <;> exact ⟨⟨rfl, rfl, rfl, rfl, rfl⟩, rfl, rfl, rfl⟩

theorem getHaloBuf_keepsHalos
    (dim width : Nat) (dir : Dir) (diagonal : Bool) :
    KeepsHalos grid (grid.getHaloBuf dim width dir diagonal) := by
  simp only [GridMPI.getHaloBuf]
  split <;> exact ⟨⟨rfl, rfl, rfl, rfl, rfl⟩, rfl, rfl, rfl⟩

theorem KeepsHalos.trans
    {middle : GridMPI α}
    (first : KeepsHalos grid middle) (second : KeepsHalos middle after) :
    KeepsHalos grid after where
  elmSize := second.elmSize.trans first.elmSize
  numDims := second.numDims.trans first.numDims
  size := second.size.trans first.size
  localOffset := second.localOffset.trans first.localOffset
  localSize := second.localSize.trans first.localSize
  haloWidth := second.haloWidth.trans first.haloWidth
  haloSize := second.haloSize.trans first.haloSize
  haloPeer := second.haloPeer.trans first.haloPeer

/-- `CopyoutHalo` keeps the shape and everything received. -/
theorem copyoutHalo_keepsHalos
    {dim width : Nat} {dir : Dir} {diagonal : Bool}
    (packed : grid.copyoutHalo dim width dir diagonal = some after) :
    KeepsHalos grid after := by
  have marked : KeepsHalos grid { grid with haloHasDiagonal := diagonal } :=
    ⟨⟨rfl, rfl, rfl, rfl, rfl⟩, rfl, rfl, rfl⟩
  simp only [GridMPI.copyoutHalo] at packed
  split at packed
  · cases packed
    exact ⟨⟨rfl, rfl, rfl, rfl, rfl⟩, rfl, rfl, rfl⟩
  · rw [Option.map_eq_some_iff] at packed
    obtain ⟨cells, _, rfl⟩ := packed
    exact (marked.trans (getHaloBuf_keepsHalos dim width dir diagonal)).trans
      (writePtr_keepsHalos _ cells)

end Shape

/-! ## Receives and sends by the shape of a grid -/

namespace HaloExchange

variable {α : Type} (exchange : HaloExchange)

section Congruence

variable {origin grid : GridMPI α}

theorem receives_congr
    (shape : SameShape origin grid) (dim : Nat) (dir : Dir) :
    exchange.receives grid dim dir = exchange.receives origin dim dir := by
  rw [receives, receives, shape.continues]

theorem sends_congr
    (shape : SameShape origin grid) (dim : Nat) (dir : Dir) :
    exchange.sends grid dim dir = exchange.sends origin dim dir := by
  rw [sends, sends, shape.continues]

end Congruence

/-- The width a process receives for a dimension and direction. -/
def receivedWidth (origin : GridMPI α) (dim : Nat) (dir : Dir) : Nat :=
  if exchange.receives origin dim dir then exchange.width dir dim else 0

/-- The grid with the halo widths that the exchange is going to set. -/
def received (origin : GridMPI α) : GridMPI α :=
  { origin with haloWidth := fun dir dim => exchange.receivedWidth origin dim dir }

/-- The box that the exchange is going to record for a halo. -/
def receivedSize
    (origin : GridMPI α) (dim : Nat) (dir : Dir) : IndexArray :=
  if exchange.receives origin dim dir then
    fun i =>
      if i < origin.numDims then
        (exchange.received origin).haloExtent dim (exchange.width dir dim)
          exchange.diagonal i
      else 0
  else fun _ => 0

variable (space : GridSpaceMPI) (grids : Nat → GridMPI α)

/-- The receive a block posts for one source. -/
def postFrom (rank source : Nat) : ExchangeAction → Option HaloTransfer
  | .recv dim dir =>
      if exchange.receives (grids rank) dim dir = true ∧
          space.neighbor rank dim dir = source then
        some (exchange.transfer (exchange.received (grids rank)) dim dir)
      else none
  | .send _ _ => none
  | .wait _ => none

/-- The halo a block sends to one target. -/
def sendTo (rank target : Nat) : ExchangeAction → Option HaloTransfer
  | .recv _ _ => none
  | .send dim dir =>
      if exchange.sends (grids rank) dim dir = true ∧
          space.neighbor rank dim dir.flip = target then
        some (exchange.transfer (exchange.received (grids rank)) dim dir)
      else none
  | .wait _ => none

variable {space grids}

section Neighbours

variable {grid other : GridMPI α} {dim : Nat} {dir : Dir}

/-- What one process receives, its neighbour sends. -/
theorem receives_eq_sends (next : NextTo grid other dim dir) :
    exchange.receives grid dim dir = exchange.sends other dim dir := by
  rw [receives, sends, next.continues]

/-- Neighbours receive halos of the same widths in all other dimensions. -/
theorem receivedWidth_eq
    (next : NextTo grid other dim dir)
    {i : Nat} (below : i < grid.numDims) (different : i ≠ dim) (side : Dir) :
    exchange.receivedWidth grid i side = exchange.receivedWidth other i side := by
  rw [receivedWidth, receivedWidth, receives, receives,
    next.continues_other below different]

/-- The halo of one process and the slab its neighbour sends have one extent. -/
theorem received_haloExtent_eq
    (next : NextTo grid other dim dir) (width : Nat)
    {i : Nat} (below : i < grid.numDims) :
    (exchange.received grid).haloExtent dim width exchange.diagonal i =
      (exchange.received other).haloExtent dim width exchange.diagonal i := by
  simp only [GridMPI.haloExtent]
  split
  · rfl
  · rename_i different
    split
    · simp only [received, next.localSize below different,
        exchange.receivedWidth_eq next below different]
    · exact next.localSize below different

/-- Both sides compute the same byte count. -/
theorem transfer_eq (next : NextTo grid other dim dir) :
    exchange.transfer (exchange.received grid) dim dir =
      exchange.transfer (exchange.received other) dim dir := by
  have length : ∀ origin : GridMPI α,
      (exchange.received origin).calcHaloSize dim (exchange.width dir dim)
          exchange.diagonal =
        (boxList origin.numDims
          ((exchange.received origin).haloExtent dim (exchange.width dir dim)
            exchange.diagonal) fun _ => ()).length :=
    fun origin => GridMPI.calcHaloSize_eq_length _ _ _ fun _ => ()
  simp only [transfer, haloBytes]
  rw [length, length,
    boxList_congr (fun i below => exchange.received_haloExtent_eq next _ below)
      fun _ _ => rfl,
    next.numDims]
  simp only [received, next.elmSize]

end Neighbours

end HaloExchange

end Physis.Runtime
