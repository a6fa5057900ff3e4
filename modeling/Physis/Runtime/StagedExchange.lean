import Physis.Library.Commuting
import Physis.Runtime.GridMPICUDA
import Physis.Runtime.LoadNeighbor

/-!
# The staged exchange of the device

`LoadNeighborStage1` copies the slabs of all dimensions but the last out of the
device; `LoadNeighborStage2` exchanges the last dimension as a whole and then
sends the slabs copied before.  A slab with diagonal points is packed too early
then, before the halos of the later dimensions have come in.

The processes go through the dimensions together here: each receive takes the
message its neighbour sends for that halo.
-/

namespace Physis.Runtime

open Physis.Library
open Physis.Library.RowMajor
open Physis.Library.Commuting

variable {α : Type}

/-- `halo_fw_width` and `halo_bw_width` of the two stages -/
def stagesExchange
    (offsetMin offsetMax : IndexArray) (diagonal periodic : Bool) : HaloExchange where
  width dir i := match dir with
    | .fw => (max (offsetMax i) 0).toNat
    | .bw => (max (offsetMin i * -1) 0).toNat
  diagonal := diagonal
  periodic := periodic

/-- The stages take the widths `LoadNeighbor` takes. -/
theorem stagesExchange_eq (offsetMin offsetMax : IndexArray) (diagonal periodic : Bool) :
    stagesExchange offsetMin offsetMax diagonal periodic =
      neighborExchange offsetMin offsetMax diagonal periodic := by
  rw [stagesExchange, neighborExchange]
  congr 1
  funext dir i
  cases dir with
  | fw =>
      simp only
      split <;> omega
  | bw =>
      simp only
      split <;> omega

/-! ## One dimension -/

/-- `is_last_process` for forward and `is_first_process` for backward access -/
def GridMPI.reachesEnd (grid : GridMPI α) (dim : Nat) : Dir → Bool
  | .fw => decide (grid.localOffset dim + grid.localSize dim = grid.size dim)
  | .bw => decide (grid.localOffset dim = 0)

namespace HaloExchange

variable (exchange : HaloExchange)

/-- The condition of `SendBoundaries` -/
def sendsBoundaries (grid : GridMPI α) (dim : Nat) (dir : Dir) : Bool :=
  decide (0 < exchange.width dir dim) &&
    (exchange.periodic || !grid.reachesEnd dim dir.flip)

/-- The condition of `RecvBoundaries` -/
def recvsBoundaries (grid : GridMPI α) (dim : Nat) (dir : Dir) : Bool :=
  decide (0 < exchange.width dir dim) &&
    (exchange.periodic || !grid.reachesEnd dim dir)

/-- `RecvBoundaries`, with the elements of the message if there is one. -/
def recvBoundaries
    (dim : Nat) (dir : Dir) (cells : List α) (grid : GridMPICUDA3D α) :
    GridMPICUDA3D α :=
  if exchange.recvsBoundaries grid.toGridMPI dim dir then
    { grid with
      toGridMPI :=
        { grid.setHaloSize dim dir (exchange.width dir dim) exchange.diagonal with
          haloWidth := Function.update grid.haloWidth dir
            (Function.update (grid.haloWidth dir) dim (exchange.width dir dim)) }
      haloPeerCuda := Function.update grid.haloPeerCuda dim
        (Function.update (grid.haloPeerCuda dim) dir
          (overwrite (grid.haloPeerCuda dim dir) cells)) }
  else { grid with toGridMPI := HaloExchange.clearHalo grid.toGridMPI dim dir }

end HaloExchange

/--
The grids of all processes, and the elements in the send buffers
`halo_self_mpi_` by rank, dimension and direction.
-/
@[ext]
structure StagedState (space : GridSpaceMPI) (α : Type) where
  grid : Nat → GridMPICUDA3D α
  self : Nat → Nat → Dir → List α
  numDims_eq : ∀ rank, (grid rank).numDims = space.numDims
  /-- a subgrid with data lies inside the grid -/
  placed : ∀ rank, (grid rank).empty = false → ∀ dim < space.numDims,
    0 ≤ (grid rank).localOffset dim ∧
      (grid rank).localOffset dim + (grid rank).localSize dim ≤ (grid rank).size dim

/-- What a process keeps when halos are received. -/
structure SameSubgrid (grid other : GridMPICUDA3D α) : Prop where
  numDims : other.numDims = grid.numDims
  size : other.size = grid.size
  localOffset : other.localOffset = grid.localOffset
  localSize : other.localSize = grid.localSize
  empty : other.empty = grid.empty
  buffer : other.buffer = grid.buffer
  haloSelfCuda : other.haloSelfCuda = grid.haloSelfCuda

theorem SameSubgrid.trans
    {first second third : GridMPICUDA3D α}
    (left : SameSubgrid first second) (right : SameSubgrid second third) :
    SameSubgrid first third where
  numDims := right.numDims.trans left.numDims
  size := right.size.trans left.size
  localOffset := right.localOffset.trans left.localOffset
  localSize := right.localSize.trans left.localSize
  empty := right.empty.trans left.empty
  buffer := right.buffer.trans left.buffer
  haloSelfCuda := right.haloSelfCuda.trans left.haloSelfCuda

theorem HaloExchange.sameSubgrid_recvBoundaries
    (exchange : HaloExchange) (dim : Nat) (dir : Dir) (cells : List α)
    (grid : GridMPICUDA3D α) :
    SameSubgrid grid (exchange.recvBoundaries dim dir cells grid) := by
  rw [HaloExchange.recvBoundaries]
  split
  · exact ⟨rfl, rfl, rfl, rfl, rfl, rfl, rfl⟩
  · exact ⟨rfl, rfl, rfl, rfl, rfl, rfl, rfl⟩

namespace StagedState

variable
    {space : GridSpaceMPI} (test : GridMPI α → Nat → Dir → Bool)
    (schedule : List (Int × α) → List (Int × α)) (exchange : HaloExchange)

/-- A process with a subgrid passes a test for a halo. -/
def active (state : StagedState space α) (rank dim : Nat) (dir : Dir) : Bool :=
  decide (rank < space.numProcs) && !(state.grid rank).empty &&
    test (state.grid rank).toGridMPI dim dir

/-- What `CopyoutHalo` packs for a dimension and direction. -/
def packed (state : StagedState space α) (rank dim : Nat) (dir : Dir) :
    Option (List α) :=
  (state.grid rank).copyoutHalo schedule dim (exchange.width dir dim) dir
    exchange.diagonal

/-- No `CopyoutHalo` of a dimension fails. -/
def CanPack (dim : Nat) (state : StagedState space α) : Prop :=
  ∀ rank ∈ List.range space.numProcs, ∀ dir ∈ [Dir.bw, Dir.fw],
    state.active test rank dim dir = true →
      (state.packed schedule exchange rank dim dir).isSome = true

instance (dim : Nat) (state : StagedState space α) :
    Decidable (CanPack test schedule exchange dim state) :=
  inferInstanceAs (Decidable (∀ _ ∈ _, ∀ _ ∈ _, _ → _))

/-- A buffer is made large enough, and beyond the elements packed it stays. -/
def packTo (dim : Nat) (state : StagedState space α) : StagedState space α :=
  { state with
    self := fun rank i dir =>
      if i = dim ∧ state.active test rank dim dir = true then
        let cells := (state.packed schedule exchange rank dim dir).getD []
        cells ++ (state.self rank dim dir).drop cells.length
      else state.self rank i dir }

/-- `CopyoutHalo` for one dimension on every process that sends -/
def pack (dim : Nat) (state : StagedState space α) : Option (StagedState space α) :=
  if CanPack test schedule exchange dim state then
    some (packTo test schedule exchange dim state)
  else none

/-- `MPIIsend`: as many elements as the halo has; `none` where the assertion fails. -/
def message (state : StagedState space α) (rank dim : Nat) (dir : Dir) :
    Option (List α) :=
  let size := (state.grid rank).calcHaloSize dim (exchange.width dir dim)
    exchange.diagonal
  if state.active test rank dim dir = true ∧ size ≤ (state.self rank dim dir).length then
    some ((state.self rank dim dir).take size)
  else none

/-- The grid of a process after both receives of a dimension. -/
def received (state : StagedState space α) (dim rank : Nat) : GridMPICUDA3D α :=
  if rank < space.numProcs ∧ (state.grid rank).empty = false then
    exchange.recvBoundaries dim .fw
      ((state.message test exchange (space.neighbor rank dim .fw) dim .fw).getD [])
      (exchange.recvBoundaries dim .bw
        ((state.message test exchange (space.neighbor rank dim .bw) dim .bw).getD [])
        (state.grid rank))
  else state.grid rank

theorem sameSubgrid_received (state : StagedState space α) (dim rank : Nat) :
    SameSubgrid (state.grid rank) (state.received test exchange dim rank) := by
  rw [received]
  split
  · exact (exchange.sameSubgrid_recvBoundaries dim .bw _ _).trans
      (exchange.sameSubgrid_recvBoundaries dim .fw _ _)
  · exact ⟨rfl, rfl, rfl, rfl, rfl, rfl, rfl⟩

/-- Every send passes its assertion, and every receive finds its message. -/
def CanTransmit (dim : Nat) (state : StagedState space α) : Prop :=
  ∀ rank ∈ List.range space.numProcs, ∀ dir ∈ [Dir.bw, Dir.fw],
    (state.active test rank dim dir = true →
      (state.message test exchange rank dim dir).isSome = true) ∧
    (state.active exchange.recvsBoundaries rank dim dir = true →
      (state.message test exchange (space.neighbor rank dim dir) dim dir).isSome = true)

instance (dim : Nat) (state : StagedState space α) :
    Decidable (CanTransmit test exchange dim state) :=
  inferInstanceAs (Decidable (∀ _ ∈ _, ∀ _ ∈ _, _ ∧ _))

def transmitTo (dim : Nat) (state : StagedState space α) : StagedState space α where
  grid := state.received test exchange dim
  self := state.self
  numDims_eq rank :=
    (state.sameSubgrid_received test exchange dim rank).numDims.trans
      (state.numDims_eq rank)
  placed rank occupied i below := by
    have same := state.sameSubgrid_received test exchange dim rank
    rw [same.empty] at occupied
    rw [same.localOffset, same.localSize, same.size]
    exact state.placed rank occupied i below

/--
The sends of one dimension and the receives, in which every process waits for
the messages of its neighbours.
-/
def transmit (dim : Nat) (state : StagedState space α) : Option (StagedState space α) :=
  if CanTransmit test exchange dim state then some (transmitTo test exchange dim state)
  else none

/-! ## All dimensions -/

/-- The loop of `LoadNeighborStage1` over the dimensions below `count` -/
def packs : Nat → List (StagedState space α → Option (StagedState space α))
  | 0 => []
  | count + 1 => pack test schedule exchange count :: packs count

/-- The second loop of `LoadNeighborStage2` over the dimensions below `count` -/
def transmits : Nat → List (StagedState space α → Option (StagedState space α))
  | 0 => []
  | count + 1 => transmit test exchange count :: transmits count

/-- The loop of `ExchangeBoundaries` over the dimensions below `count` -/
def exchanges : Nat → List (StagedState space α → Option (StagedState space α))
  | 0 => []
  | count + 1 =>
      pack exchange.sendsBoundaries schedule exchange count ::
        transmit exchange.sendsBoundaries exchange count :: exchanges count

/-- `LoadNeighbor` by `ExchangeBoundaries`, on all processes -/
def loadNeighbor (state : StagedState space α) : Option (StagedState space α) :=
  run (exchanges schedule exchange space.numDims) state

/-- `LoadNeighborStage1` and `LoadNeighborStage2`, on all processes -/
def loadNeighborStages (state : StagedState space α) : Option (StagedState space α) :=
  let last := space.numDims - 1
  run
    (packs exchange.sends schedule exchange last ++
      ([pack exchange.sendsBoundaries schedule exchange last,
        transmit exchange.sendsBoundaries exchange last] ++
        transmits exchange.sends exchange last)) state

/--
No slab of a staged dimension has diagonal points: they are not asked for, or a
process that sends such a slab neither has nor gets a halo of a later dimension.
-/
def NoCorners (state : StagedState space α) : Prop :=
  exchange.diagonal = true → ∀ rank dim, dim + 1 < space.numDims →
    (∃ dir, state.active exchange.sends rank dim dir = true) →
      ∀ later, dim < later → later < space.numDims → ∀ dir,
        (state.grid rank).haloWidth dir later = 0 ∧
          exchange.recvsBoundaries (state.grid rank).toGridMPI later dir = false

/-! ## What one step does -/

section Steps

variable {test schedule exchange} {state next : StagedState space α}

theorem pack_eq_some {dim : Nat} (packs : pack test schedule exchange dim state = some next) :
    CanPack test schedule exchange dim state ∧
      next = packTo test schedule exchange dim state := by
  rw [pack] at packs
  split at packs
  · rename_i succeed
    exact ⟨succeed, (Option.some.inj packs).symm⟩
  · cases packs

theorem transmit_eq_some {dim : Nat} (transmits : transmit test exchange dim state = some next) :
    CanTransmit test exchange dim state ∧ next = transmitTo test exchange dim state := by
  rw [transmit] at transmits
  split at transmits
  · rename_i succeed
    exact ⟨succeed, (Option.some.inj transmits).symm⟩
  · cases transmits

theorem sends_congr
    {grid other : GridMPICUDA3D α} (same : SameSubgrid grid other) (dim : Nat) (dir : Dir) :
    exchange.sends other.toGridMPI dim dir = exchange.sends grid.toGridMPI dim dir := by
  cases dir <;> simp [HaloExchange.sends, GridMPI.continues, Dir.flip, same.localOffset,
    same.localSize, same.size]

theorem recvsBoundaries_congr
    {grid other : GridMPICUDA3D α} (same : SameSubgrid grid other) (dim : Nat) (dir : Dir) :
    exchange.recvsBoundaries other.toGridMPI dim dir =
      exchange.recvsBoundaries grid.toGridMPI dim dir := by
  cases dir <;> simp [HaloExchange.recvsBoundaries, GridMPI.reachesEnd, same.localOffset,
    same.localSize, same.size]

/-- On a subgrid inside the grid the two send conditions are the same. -/
theorem active_sendsBoundaries
    {dim : Nat} (below : dim < space.numDims) (rank : Nat) (dir : Dir) :
    state.active exchange.sendsBoundaries rank dim dir =
      state.active exchange.sends rank dim dir := by
  cases occupied : (state.grid rank).empty with
  | true => simp [active, occupied]
  | false =>
      have inside := state.placed rank occupied dim below
      have ends : (!(state.grid rank).reachesEnd dim dir.flip) =
          (state.grid rank).continues dim dir.flip := by
        cases dir with
        | fw =>
            simp only [Dir.flip, GridMPI.reachesEnd, GridMPI.continues]
            rw [← decide_not, decide_eq_decide]
            omega
        | bw =>
            simp only [Dir.flip, GridMPI.reachesEnd, GridMPI.continues]
            rw [← decide_not, decide_eq_decide]
            omega
      rw [active, active, HaloExchange.sendsBoundaries, HaloExchange.sends, ends]

theorem pack_sendsBoundaries {dim : Nat} (below : dim < space.numDims) :
    pack exchange.sendsBoundaries schedule exchange dim =
      (pack exchange.sends schedule exchange dim :
        StagedState space α → Option (StagedState space α)) := by
  funext state
  simp only [pack, CanPack, packTo, active_sendsBoundaries below]

theorem transmit_sendsBoundaries {dim : Nat} (below : dim < space.numDims) :
    transmit exchange.sendsBoundaries exchange dim =
      (transmit exchange.sends exchange dim :
        StagedState space α → Option (StagedState space α)) := by
  funext state
  have messages : ∀ rank dir,
      state.message exchange.sendsBoundaries exchange rank dim dir =
        state.message exchange.sends exchange rank dim dir := by
    intro rank dir
    simp only [message, active_sendsBoundaries below]
  have grids : state.received exchange.sendsBoundaries exchange dim =
      state.received exchange.sends exchange dim := by
    funext rank
    simp only [received, messages]
  have guard : CanTransmit exchange.sendsBoundaries exchange dim state ↔
      CanTransmit exchange.sends exchange dim state := by
    simp only [CanTransmit, active_sendsBoundaries below, messages]
  have target : transmitTo exchange.sendsBoundaries exchange dim state =
      transmitTo exchange.sends exchange dim state := by
    ext1
    · exact grids
    · rfl
  rw [transmit, transmit, target]
  exact if_congr guard rfl rfl

/-- The widths after a dimension: of other dimensions they stay. -/
theorem haloWidth_received (dim rank : Nat) (dir : Dir) (later : Nat) :
    (state.received test exchange dim rank).haloWidth dir later =
      if later = dim ∧ rank < space.numProcs ∧ (state.grid rank).empty = false then
        if exchange.recvsBoundaries (state.grid rank).toGridMPI dim dir then
          exchange.width dir dim
        else 0
      else (state.grid rank).haloWidth dir later := by
  have step : ∀ (side : Dir) (cells : List α) (grid : GridMPICUDA3D α),
      (exchange.recvBoundaries dim side cells grid).haloWidth dir later =
        if dir = side ∧ later = dim then
          if exchange.recvsBoundaries grid.toGridMPI dim side then exchange.width side dim
          else 0
        else grid.haloWidth dir later := by
    intro side cells grid
    rw [HaloExchange.recvBoundaries]
    by_cases same : dir = side
    · subst same
      by_cases here : later = dim
      · subst here
        split <;> simp [HaloExchange.clearHalo, *]
      · split <;> simp [HaloExchange.clearHalo, here]
    · split <;> simp [HaloExchange.clearHalo, same]
  rw [received]
  by_cases occupied : rank < space.numProcs ∧ (state.grid rank).empty = false
  · rw [if_pos occupied, step, step,
      recvsBoundaries_congr (exchange.sameSubgrid_recvBoundaries dim .bw _ _)]
    by_cases here : later = dim
    · cases dir <;> simp [here, occupied]
    · simp [here]
  · rw [if_neg occupied, if_neg fun all => occupied all.2]

/-- A halo that is not received leaves the memory of the halos as it was. -/
theorem haloPeerCuda_received
    {dim rank : Nat} {later : Nat} {dir : Dir}
    (quiet : later = dim → exchange.recvsBoundaries (state.grid rank).toGridMPI dim dir = false) :
    (state.received test exchange dim rank).haloPeerCuda later dir =
      (state.grid rank).haloPeerCuda later dir := by
  have step : ∀ (side : Dir) (cells : List α) (grid : GridMPICUDA3D α),
      (later = dim → dir = side →
        exchange.recvsBoundaries grid.toGridMPI dim side = false) →
      (exchange.recvBoundaries dim side cells grid).haloPeerCuda later dir =
        grid.haloPeerCuda later dir := by
    intro side cells grid silent
    rw [HaloExchange.recvBoundaries]
    by_cases here : later = dim
    · by_cases same : dir = side
      · rw [if_neg (by simp [silent here same])]
      · subst here
        split <;> simp [Function.update_of_ne same]
    · split <;> simp [Function.update_of_ne here]
  rw [received]
  split
  · rw [step, step]
    · rintro here rfl
      exact quiet here
    · rintro here rfl
      rw [recvsBoundaries_congr (exchange.sameSubgrid_recvBoundaries dim .bw _ _)]
      exact quiet here
  · rfl

end Steps

end StagedState

/-! ## What a slab depends on -/

section Packing

variable {grid other : GridMPICUDA3D α}

/-- The halos of the later dimensions are those of the other grid. -/
def SameHalos (grid other : GridMPICUDA3D α) (dim : Nat) : Prop :=
  ∀ later, dim < later → later < grid.numDims → ∀ dir,
    other.haloWidth dir later = grid.haloWidth dir later ∧
      other.haloPeerCuda later dir = grid.haloPeerCuda later dir

theorem slabOffset_congr (same : SameSubgrid grid other) (dim width : Nat) (dir : Dir) :
    other.slabOffset dim width dir = grid.slabOffset dim width dir := by
  cases dir <;> simp [GridMPI.slabOffset, same.localSize]

theorem copyoutHalo3D0_congr
    (same : SameSubgrid grid other) (halos : SameHalos grid other 0)
    (threeDims : grid.numDims = 3) (self : Int → α) (width : Nat) (dir : Dir) :
    other.copyoutHalo3D0 self width dir = grid.copyoutHalo3D0 self width dir := by
  have first := fun side => halos 1 (by omega) (by omega) side
  have second := fun side => halos 2 (by omega) (by omega) side
  have loop : ∀ planes k ptrs,
      other.copyoutHalo3D0Loop self width planes k ptrs =
        grid.copyoutHalo3D0Loop self width planes k ptrs := by
    intro planes
    induction planes with
    | zero => exact fun _ _ => rfl
    | succ planes induction =>
        intro k ptrs
        simp only [GridMPICUDA3D.copyoutHalo3D0Loop, same.localSize, (first _).1,
          (first _).2, (second _).1, (second _).2, induction]
  simp only [GridMPICUDA3D.copyoutHalo3D0, loop, slabOffset_congr same, same.localSize,
    (second _).1]

theorem copyoutHalo3D1_congr
    (same : SameSubgrid grid other) (halos : SameHalos grid other 1)
    (threeDims : grid.numDims = 3) (self : Int → α) (width : Nat) (dir : Dir) :
    other.copyoutHalo3D1 self width dir = grid.copyoutHalo3D1 self width dir := by
  have second := fun side => halos 2 (by omega) (by omega) side
  simp only [GridMPICUDA3D.copyoutHalo3D1, slabOffset_congr same, same.localSize,
    same.numDims, (second _).1, (second _).2]

/-- With diagonal points a slab depends on the halos of the later dimensions. -/
theorem copyoutHalo_congr
    (same : SameSubgrid grid other) {dim : Nat} {diagonal : Bool}
    (halos : diagonal = true → SameHalos grid other dim)
    (schedule : List (Int × α) → List (Int × α)) (width : Nat) (dir : Dir) :
    other.copyoutHalo schedule dim width dir diagonal =
      grid.copyoutHalo schedule dim width dir diagonal := by
  simp only [GridMPICUDA3D.copyoutHalo, slabOffset_congr same, same.localSize,
    same.numDims, same.buffer, same.haloSelfCuda]
  by_cases plain : dim = grid.numDims - 1 ∨ diagonal = false
  · simp only [if_pos plain]
  · simp only [if_neg plain]
    have corners : diagonal = true := by
      cases diagonal <;> simp_all
    by_cases threeDims : grid.numDims = 3
    · simp only [if_pos threeDims]
      by_cases first : dim = 0
      · subst first
        simp only [↓reduceIte, copyoutHalo3D0_congr same (halos corners) threeDims]
      · simp only [if_neg first]
        by_cases second : dim = 1
        · subst second
          simp only [↓reduceIte, copyoutHalo3D1_congr same (halos corners) threeDims]
        · simp only [if_neg second]
    · simp only [if_neg threeDims]

end Packing

namespace StagedState

variable
    {space : GridSpaceMPI} {test : GridMPI α → Nat → Dir → Bool}
    {schedule : List (Int × α) → List (Int × α)} {exchange : HaloExchange}
    {state next : StagedState space α}

/-! ## The two orders -/

theorem active_sends_of_sameSubgrid
    {other : StagedState space α} {rank : Nat}
    (same : SameSubgrid (state.grid rank) (other.grid rank)) (dim : Nat) (dir : Dir) :
    other.active exchange.sends rank dim dir = state.active exchange.sends rank dim dir := by
  rw [active, active, same.empty, sends_congr same]

/-- Packing keeps the absence of corners. -/
theorem keeps_pack (dim : Nat) :
    Keeps (NoCorners exchange) (pack test schedule exchange dim :
      StagedState space α → Option (StagedState space α)) := by
  intro state next corners packs
  obtain ⟨-, rfl⟩ := pack_eq_some packs
  exact corners

/-- So does a transmission. -/
theorem keeps_transmit (dim : Nat) :
    Keeps (NoCorners exchange) (transmit test exchange dim :
      StagedState space α → Option (StagedState space α)) := by
  intro state next corners transmits
  obtain ⟨-, rfl⟩ := transmit_eq_some transmits
  intro diagonal rank i below sending later after inside dir
  have same := state.sameSubgrid_received test exchange dim rank
  obtain ⟨side, active⟩ := sending
  rw [active_sends_of_sameSubgrid same] at active
  have quiet := corners diagonal rank i below ⟨side, active⟩ later after inside dir
  refine ⟨?_, (recvsBoundaries_congr same later dir).trans quiet.2⟩
  rw [transmitTo, haloWidth_received]
  split
  · rename_i here
    rw [← here.1, quiet.2]
    rfl
  · exact quiet.1

/-- Two dimensions are packed in either order. -/
theorem commute_pack_pack {i j : Nat} (other : i ≠ j) :
    Commute (NoCorners exchange) (pack test schedule exchange i)
      (pack test schedule exchange j :
        StagedState space α → Option (StagedState space α)) := by
  refine Commute.of_guards (fun _ => rfl) (fun _ => rfl) (fun _ _ => Iff.rfl)
    (fun _ _ => Iff.rfl) fun state _ => ?_
  ext1
  · rfl
  · funext rank dim dir
    by_cases first : dim = i
    · subst first
      simp [packTo, active, packed, other]
    · simp [packTo, active, packed, first, Ne.symm other]

/-- Without corners a slab does not depend on a halo that comes in later. -/
theorem packed_transmitTo
    (corners : NoCorners exchange state) {i j : Nat} (below : i + 1 < space.numDims)
    {rank : Nat} {dir : Dir}
    (sending : state.active exchange.sends rank i dir = true) :
    (transmitTo test exchange j state).packed schedule exchange rank i dir =
      state.packed schedule exchange rank i dir := by
  apply copyoutHalo_congr (state.sameSubgrid_received test exchange j rank)
  intro diagonal later after inside side
  rw [state.numDims_eq] at inside
  have quiet := corners diagonal rank i below ⟨dir, sending⟩ later after inside side
  constructor
  · rw [haloWidth_received]
    split
    · rename_i here
      rw [← here.1, quiet.2, quiet.1]
      rfl
    · rfl
  · apply haloPeerCuda_received
    rintro rfl
    exact quiet.2

/-- Without corners a dimension may be packed before the others are exchanged. -/
theorem commute_pack_transmit {i j : Nat} (other : i ≠ j) (below : i + 1 < space.numDims) :
    Commute (NoCorners exchange) (pack exchange.sends schedule exchange i)
      (transmit test exchange j : StagedState space α → Option (StagedState space α)) := by
  have activeEq : ∀ (state : StagedState space α) rank dir,
      (transmitTo test exchange j state).active exchange.sends rank i dir =
        state.active exchange.sends rank i dir := fun state rank dir =>
    active_sends_of_sameSubgrid (state.sameSubgrid_received test exchange j rank) i dir
  have messages : ∀ (state : StagedState space α) rank dir,
      (packTo exchange.sends schedule exchange i state).message test exchange rank j dir =
        state.message test exchange rank j dir := by
    intro state rank dir
    simp [message, packTo, active, Ne.symm other]
  refine Commute.of_guards (fun _ => rfl) (fun _ => rfl) (fun state corners => ?_)
    (fun state _ => ?_) fun state corners => ?_
  · apply forall₂_congr
    intro rank _
    apply forall₂_congr
    intro dir _
    rw [activeEq]
    apply imp_congr_right
    intro sending
    rw [packed_transmitTo corners below sending]
  · simp only [CanTransmit, messages]
    rfl
  · ext1
    · funext rank
      simp only [transmitTo, received, messages]
      rfl
    · funext rank dim dir
      by_cases sending : dim = i ∧ state.active exchange.sends rank i dir = true
      · have cells := @packed_transmitTo _ _ test schedule _ _ corners _ j below _ _ sending.2
        simp only [packTo, activeEq, if_pos sending, cells]
        simp [transmitTo, sending]
      · simp only [packTo, activeEq, if_neg sending]
        simp [transmitTo, sending]

theorem mem_packs {count : Nat} {step : StagedState space α → Option (StagedState space α)}
    (member : step ∈ packs test schedule exchange count) :
    ∃ i < count, step = pack test schedule exchange i := by
  induction count with
  | zero => cases member
  | succ count induction =>
      rcases List.mem_cons.mp member with rfl | later
      · exact ⟨count, Nat.lt_succ_self count, rfl⟩
      · obtain ⟨i, below, equal⟩ := induction later
        exact ⟨i, Nat.lt_succ_of_lt below, equal⟩

/-- A step that commutes with the slabs of Stage 1 may be done before them. -/
theorem run_packs_cons
    {count : Nat} {step : StagedState space α → Option (StagedState space α)}
    (commutes : ∀ i < count,
      Commute (NoCorners exchange) (pack exchange.sends schedule exchange i) step)
    (rest : List (StagedState space α → Option (StagedState space α)))
    (corners : NoCorners exchange state) :
    run (packs exchange.sends schedule exchange count ++ step :: rest) state =
      run (step :: (packs exchange.sends schedule exchange count ++ rest)) state := by
  have keeps : ∀ other : StagedState space α → Option (StagedState space α),
      other ∈ packs exchange.sends schedule exchange count →
        Keeps (NoCorners exchange) other := by
    intro other member
    obtain ⟨i, -, rfl⟩ := mem_packs member
    exact keeps_pack i
  have commuteAll : ∀ other : StagedState space α → Option (StagedState space α),
      other ∈ packs exchange.sends schedule exchange count →
        Commute (NoCorners exchange) other step := by
    intro other member
    obtain ⟨i, below, rfl⟩ := mem_packs member
    exact commutes i below
  have first := run_concat keeps commuteAll corners
  calc run (packs exchange.sends schedule exchange count ++ step :: rest) state
      = run (packs exchange.sends schedule exchange count ++ [step] ++ rest) state := by
        simp
    _ = run (step :: packs exchange.sends schedule exchange count ++ rest) state := by
        rw [run_append, first, ← run_append]
    _ = run (step :: (packs exchange.sends schedule exchange count ++ rest)) state := rfl

/-- Without corners the staged dimensions are exchanged as one after the other. -/
theorem run_packs_transmits
    {count : Nat} (below : count < space.numDims) (corners : NoCorners exchange state) :
    run (packs exchange.sends schedule exchange count ++
        transmits exchange.sends exchange count) state =
      run (exchanges schedule exchange count) state := by
  induction count generalizing state with
  | zero => rfl
  | succ count induction =>
      have inside : count < space.numDims := Nat.lt_of_succ_lt below
      rw [packs, transmits, exchanges, pack_sendsBoundaries inside,
        transmit_sendsBoundaries inside, List.cons_append, run, run]
      rcases packed : pack exchange.sends schedule exchange count state with _ | middle
      · rfl
      have afterPack := keeps_pack count state middle corners packed
      rw [Option.bind_some, Option.bind_some, run_packs_cons
        (fun i less => commute_pack_transmit (Nat.ne_of_lt less) (by omega)) _ afterPack,
        run, run]
      rcases sent : transmit exchange.sends exchange count middle with _ | after
      · rfl
      exact induction inside (keeps_transmit count middle after afterPack sent)

/-- Without corners the stages exchange what `ExchangeBoundaries` does. -/
theorem loadNeighborStages_eq
    (positive : 0 < space.numDims) (corners : NoCorners exchange state) :
    loadNeighborStages schedule exchange state = loadNeighbor schedule exchange state := by
  obtain ⟨last, dims⟩ : ∃ last, space.numDims = last + 1 :=
    ⟨space.numDims - 1, by omega⟩
  have inside : last < space.numDims := by omega
  have lastEq : space.numDims - 1 = last := by omega
  simp only [loadNeighborStages, loadNeighbor]
  rw [dims, exchanges, ← dims, lastEq, pack_sendsBoundaries inside,
    transmit_sendsBoundaries inside, List.cons_append, List.cons_append, List.nil_append,
    run_packs_cons (fun i less => commute_pack_pack (Nat.ne_of_lt less)) _ corners, run, run]
  rcases packed : pack exchange.sends schedule exchange last state with _ | middle
  · rfl
  have afterPack := keeps_pack last state middle corners packed
  rw [Option.bind_some, Option.bind_some, run_packs_cons
    (fun i less => commute_pack_transmit (Nat.ne_of_lt less) (by omega)) _ afterPack, run, run]
  rcases sent : transmit exchange.sends exchange last middle with _ | after
  · rfl
  exact run_packs_transmits inside (keeps_transmit last middle after afterPack sent)

/-! ## Grids without halos yet -/

/-- No halo has been received, no slab packed, and every subgrid has cells. -/
structure Created (state : StagedState space α) : Prop where
  haloWidth : ∀ rank dir dim, (state.grid rank).haloWidth dir dim = 0
  self : ∀ rank dim dir, state.self rank dim dir = []
  occupied : ∀ rank, (state.grid rank).empty = false →
    ∀ dim < space.numDims, 0 < (state.grid rank).localSize dim

end StagedState

theorem length_copyLines
    (memory : Int → α) (stride : Int) (width lines : Nat) (t : Int) :
    (GridMPI.copyLines memory stride width lines t).length = lines * width := by
  induction lines generalizing t with
  | zero => simp [GridMPI.copyLines]
  | succ lines induction =>
      rw [GridMPI.copyLines, List.length_append, induction, List.length_map,
        List.length_range]
      ring

/-- The number of elements `CopyoutHalo3D0` packs. -/
theorem length_copyoutHalo3D0
    (grid : GridMPICUDA3D α) (self : Int → α) (width : Nat) (dir : Dir) :
    (grid.copyoutHalo3D0 self width dir).length =
      ((grid.haloWidth .bw 2 : Int) + grid.localSize 2 + grid.haloWidth .fw 2).toNat *
        ((grid.haloWidth .bw 1 + (grid.localSize 1).toNat + grid.haloWidth .fw 1) *
          width) := by
  have loop : ∀ planes k ptrs,
      (grid.copyoutHalo3D0Loop self width planes k ptrs).length =
        planes * ((grid.haloWidth .bw 1 + (grid.localSize 1).toNat +
          grid.haloWidth .fw 1) * width) := by
    intro planes
    induction planes with
    | zero => intro k ptrs; simp [GridMPICUDA3D.copyoutHalo3D0Loop]
    | succ planes induction =>
        intro k ptrs
        simp only [GridMPICUDA3D.copyoutHalo3D0Loop, List.length_append, length_copyLines,
          induction]
        split
        · rw [length_copyLines]
          ring
        · split
          · rw [length_copyLines]
            ring
          · rw [length_copyLines]
            ring
  rw [GridMPICUDA3D.copyoutHalo3D0, loop]

/-- The number of elements `CopyoutHalo3D1` packs without halos. -/
theorem length_copyoutHalo3D1
    (grid : GridMPICUDA3D α) (threeDims : grid.numDims = 3)
    (none : ∀ dir, grid.haloWidth dir 2 = 0) (self : Int → α) (width : Nat) (dir : Dir) :
    (grid.copyoutHalo3D1 self width dir).length =
      (grid.localSize 0 * width * grid.localSize 2).toNat := by
  have empty : ∀ (memory : Int → α) (size offset : IndexArray),
      copyoutSubgrid 3 memory size offset
        (IntegerArray.mk3 (grid.localSize 0) (width : Int) 0) = [] := by
    intro memory size offset
    rw [copyoutSubgrid_eq_boxList (by omega), boxList]
    simp [IntegerArray.mk3]
  simp only [GridMPICUDA3D.copyoutHalo3D1, threeDims, none, Nat.cast_zero, empty,
    List.nil_append, List.append_nil, List.length_map, List.length_range]
  rw [IntegerArray.accumulate_eq_volume]
  simp [volume_succ, IntegerArray.mk3]

/-- The size of a halo with diagonal points in three dimensions. -/
theorem calcHaloSize_three
    (grid : GridMPI α) (threeDims : grid.numDims = 3) (dim width : Nat) :
    grid.calcHaloSize dim width true =
      (grid.haloExtent dim width true 0).toNat * (grid.haloExtent dim width true 1).toNat *
        (grid.haloExtent dim width true 2).toNat := by
  simp [GridMPI.calcHaloSize, threeDims, List.range_succ]

/-- A slab of a staged dimension is packed with diagonal points in 3-D only. -/
theorem numDims_of_copyoutHalo
    {grid : GridMPICUDA3D α} {schedule : List (Int × α) → List (Int × α)}
    {dim width : Nat} {dir : Dir} {cells : List α}
    (packs : grid.copyoutHalo schedule dim width dir true = some cells)
    (staged : dim ≠ grid.numDims - 1) : grid.numDims = 3 := by
  rw [GridMPICUDA3D.copyoutHalo, Option.bind_eq_bind, Option.bind_eq_some_iff] at packs
  obtain ⟨self, -, packs⟩ := packs
  rw [if_neg (by simp [staged])] at packs
  by_contra other
  rw [if_neg other] at packs
  cases packs

/--
On a subgrid with cells a slab packed before any halo has come in is smaller
than the halo sent once one of a later dimension has.
-/
theorem length_lt_calcHaloSize
    {grid other : GridMPICUDA3D α} (same : SameSubgrid grid other)
    (threeDims : grid.numDims = 3) (occupied : ∀ dim < 3, 0 < grid.localSize dim)
    (fresh : ∀ dir dim, grid.haloWidth dir dim = 0)
    {schedule : List (Int × α) → List (Int × α)} {dim width : Nat} {dir : Dir}
    (below : dim < 2) (positive : 0 < width) {cells : List α}
    (packs : grid.copyoutHalo schedule dim width dir true = some cells)
    {later : Nat} (after : dim < later) (inside : later < 3) {side : Dir}
    (wide : 0 < other.haloWidth side later) :
    cells.length < other.calcHaloSize dim width true := by
  have first := occupied 0 (by omega)
  have second := occupied 1 (by omega)
  have third := occupied 2 (by omega)
  have widths : 0 < other.haloWidth .fw later + other.haloWidth .bw later := by
    cases side <;> omega
  rw [GridMPICUDA3D.copyoutHalo, Option.bind_eq_bind, Option.bind_eq_some_iff] at packs
  obtain ⟨self, -, packs⟩ := packs
  rw [if_neg (by simp [threeDims]; omega), if_pos threeDims] at packs
  rw [calcHaloSize_three _ (same.numDims.trans threeDims)]
  rcases (by omega : dim = 0 ∨ dim = 1) with rfl | rfl
  · rw [if_pos rfl, Option.some_inj] at packs
    have columns : (other.haloExtent 0 width true 0).toNat = width := by
      simp [GridMPI.haloExtent]
    have rows : (other.haloExtent 0 width true 1).toNat =
        (grid.localSize 1).toNat + (other.haloWidth .fw 1 + other.haloWidth .bw 1) := by
      simp [GridMPI.haloExtent, same.localSize]
      omega
    have planes : (other.haloExtent 0 width true 2).toNat =
        (grid.localSize 2).toNat + (other.haloWidth .fw 2 + other.haloWidth .bw 2) := by
      simp [GridMPI.haloExtent, same.localSize]
      omega
    rw [← packs, length_copyoutHalo3D0, fresh, fresh, fresh, fresh, columns, rows, planes]
    simp only [Nat.cast_zero, zero_add, add_zero]
    have grows : (grid.localSize 1).toNat * (grid.localSize 2).toNat <
        ((grid.localSize 1).toNat + (other.haloWidth .fw 1 + other.haloWidth .bw 1)) *
          ((grid.localSize 2).toNat + (other.haloWidth .fw 2 + other.haloWidth .bw 2)) := by
      rcases (by omega : later = 1 ∨ later = 2) with rfl | rfl
      · exact Nat.mul_lt_mul_of_lt_of_le (by omega) (by omega) (by omega)
      · exact Nat.mul_lt_mul_of_le_of_lt (by omega) (by omega) (by omega)
    calc (grid.localSize 2).toNat * ((grid.localSize 1).toNat * width)
        = width * ((grid.localSize 1).toNat * (grid.localSize 2).toNat) := by ring
      _ < width * (((grid.localSize 1).toNat +
            (other.haloWidth .fw 1 + other.haloWidth .bw 1)) *
          ((grid.localSize 2).toNat + (other.haloWidth .fw 2 + other.haloWidth .bw 2))) :=
        Nat.mul_lt_mul_of_pos_left grows positive
      _ = _ := by ring
  · rw [if_neg (by omega), if_pos rfl, Option.some_inj] at packs
    obtain rfl : later = 2 := by omega
    have columns : (other.haloExtent 1 width true 0).toNat = (grid.localSize 0).toNat := by
      simp [GridMPI.haloExtent, same.localSize]
    have rows : (other.haloExtent 1 width true 1).toNat = width := by
      simp [GridMPI.haloExtent]
    have planes : (other.haloExtent 1 width true 2).toNat =
        (grid.localSize 2).toNat + (other.haloWidth .fw 2 + other.haloWidth .bw 2) := by
      simp [GridMPI.haloExtent, same.localSize]
      omega
    have packedSize : (grid.localSize 0 * width * grid.localSize 2).toNat =
        (grid.localSize 0).toNat * width * (grid.localSize 2).toNat := by
      rw [Int.toNat_mul (by positivity) third.le, Int.toNat_mul first.le (by positivity),
        Int.toNat_natCast]
    rw [← packs, length_copyoutHalo3D1 grid threeDims (fun dir => fresh dir 2), columns,
      rows, planes, packedSize]
    have area : 0 < (grid.localSize 0).toNat * width :=
      Nat.mul_pos (by omega) positive
    exact Nat.mul_lt_mul_of_pos_left (by omega) area

namespace StagedState

variable
    {space : GridSpaceMPI} {test : GridMPI α → Nat → Dir → Bool}
    {schedule : List (Int × α) → List (Int × α)} {exchange : HaloExchange}
    {state next : StagedState space α}

/-- After Stage 1 every slab of a staged dimension is in its buffer. -/
theorem of_run_packs
    {count : Nat}
    (runs : run (packs test schedule exchange count) state = some next) :
    next.grid = state.grid ∧
      (∀ i < count, CanPack test schedule exchange i state) ∧
      ∀ rank i dir, i < count → state.active test rank i dir = true →
        next.self rank i dir =
          ((state.packed schedule exchange rank i dir).getD []) ++
            (state.self rank i dir).drop
              ((state.packed schedule exchange rank i dir).getD []).length := by
  have general : ∀ (count : Nat) (state next : StagedState space α),
      run (packs test schedule exchange count) state = some next →
        next.grid = state.grid ∧
          (∀ i < count, CanPack test schedule exchange i state) ∧
          ∀ rank i dir, next.self rank i dir =
            if i < count ∧ state.active test rank i dir = true then
              ((state.packed schedule exchange rank i dir).getD []) ++
                (state.self rank i dir).drop
                  ((state.packed schedule exchange rank i dir).getD []).length
            else state.self rank i dir := by
    intro count
    induction count with
    | zero =>
        intro state next runs
        rw [packs, run, Option.some_inj] at runs
        subst runs
        exact ⟨rfl, fun _ impossible => absurd impossible (Nat.not_lt_zero _), by simp⟩
    | succ count induction =>
        intro state next runs
        rw [packs, run, Option.bind_eq_some_iff] at runs
        obtain ⟨middle, packed, later⟩ := runs
        obtain ⟨can, rfl⟩ := pack_eq_some packed
        obtain ⟨grids, cans, selves⟩ := induction _ _ later
        refine ⟨grids, ?_, ?_⟩
        · intro i below
          rcases Nat.lt_succ_iff_lt_or_eq.mp below with less | rfl
          · exact cans i less
          · exact can
        · intro rank i dir
          rw [selves]
          by_cases here : i = count
          · subst here
            simp [packTo]
          · have same : i < count + 1 ↔ i < count := by omega
            simp only [same]
            simp [packTo, here]
            rfl
  obtain ⟨grids, cans, selves⟩ := general count state next runs
  exact ⟨grids, cans, fun rank i dir below active => by rw [selves, if_pos ⟨below, active⟩]⟩

/-- The widths a process has when the sends of a staged dimension are made. -/
theorem of_run_transmits
    {count : Nat} (runs : run (transmits test exchange count) state = some next)
    {i : Nat} (below : i < count) :
    ∃ middle : StagedState space α,
      (∀ rank, SameSubgrid (state.grid rank) (middle.grid rank)) ∧
      middle.self = state.self ∧ CanTransmit test exchange i middle ∧
      ∀ rank < space.numProcs, (state.grid rank).empty = false → ∀ dir later, i < later →
        (middle.grid rank).haloWidth dir later =
          if later < count then
            if exchange.recvsBoundaries (state.grid rank).toGridMPI later dir then
              exchange.width dir later
            else 0
          else (state.grid rank).haloWidth dir later := by
  induction count generalizing state with
  | zero => exact absurd below (Nat.not_lt_zero i)
  | succ count induction =>
      rw [transmits, run, Option.bind_eq_some_iff] at runs
      obtain ⟨first, sent, rest⟩ := runs
      obtain ⟨can, rfl⟩ := transmit_eq_some sent
      rcases Nat.lt_succ_iff_lt_or_eq.mp below with less | rfl
      · obtain ⟨middle, same, self, canLater, widths⟩ := induction rest less
        have step := fun rank => state.sameSubgrid_received test exchange count rank
        refine ⟨middle, fun rank => (step rank).trans (same rank), self, canLater, ?_⟩
        intro rank inRange occupied dir later after
        rw [widths rank inRange ((step rank).empty.trans occupied) dir later after]
        have congr := @recvsBoundaries_congr _ exchange _ _ (step rank) later dir
        by_cases earlier : later < count
        · rw [if_pos earlier, if_pos (Nat.lt_succ_of_lt earlier)]
          exact if_congr (by rw [← congr]; rfl) rfl rfl
        · rw [if_neg earlier, transmitTo, haloWidth_received]
          by_cases here : later = count
          · subst here
            rw [if_pos ⟨rfl, inRange, occupied⟩, if_pos (Nat.lt_succ_self later)]
          · rw [if_neg fun all => here all.1, if_neg (by omega)]
      · refine ⟨state, fun rank => ⟨rfl, rfl, rfl, rfl, rfl, rfl, rfl⟩, rfl, can, ?_⟩
        intro rank _ _ dir later after
        rw [if_neg (by omega)]

/-- On new grids the stages get through only without corners. -/
theorem noCorners_of_loadNeighborStages
    (created : state.Created)
    (succeeds : (loadNeighborStages schedule exchange state).isSome = true) :
    NoCorners exchange state := by
  intro diagonal rank i below sending later after inside side
  refine ⟨created.haloWidth rank side later, ?_⟩
  obtain ⟨dir, active⟩ := sending
  by_contra receiving
  rw [Bool.not_eq_false] at receiving
  obtain ⟨final, runs⟩ := Option.isSome_iff_exists.mp succeeds
  simp only [loadNeighborStages] at runs
  rw [run_append, Option.bind_eq_some_iff] at runs
  obtain ⟨staged, packed, runs⟩ := runs
  rw [List.cons_append, List.cons_append, List.nil_append, run,
    Option.bind_eq_some_iff] at runs
  obtain ⟨second, packedLast, runs⟩ := runs
  rw [run, Option.bind_eq_some_iff] at runs
  obtain ⟨third, sentLast, runs⟩ := runs
  obtain ⟨stagedGrids, can, stagedSelf⟩ := of_run_packs packed
  obtain ⟨-, rfl⟩ := pack_eq_some packedLast
  obtain ⟨-, rfl⟩ := transmit_eq_some sentLast
  have early : i < space.numDims - 1 := by omega
  obtain ⟨middle, same, self, canSend, widths⟩ := of_run_transmits runs early
  have active' := active
  simp only [StagedState.active, Bool.and_eq_true, decide_eq_true_eq, Bool.not_eq_true',
    HaloExchange.sends] at active'
  obtain ⟨⟨inRange, nonempty⟩, positive, -⟩ := active'
  -- the slab was packed without the halos of later dimensions
  obtain ⟨cells, cellsEq⟩ := Option.isSome_iff_exists.mp
    (can i early rank (List.mem_range.mpr inRange) dir (by cases dir <;> simp) active)
  have buffer : middle.self rank i dir = cells := by
    have other : ¬ i = space.numDims - 1 := by omega
    rw [self]
    simp only [transmitTo, packTo]
    rw [if_neg fun all => other all.1, stagedSelf rank i dir early active, cellsEq,
      created.self]
    simp
  rw [StagedState.packed, diagonal] at cellsEq
  have dims := state.numDims_eq rank
  have threeDims := numDims_of_copyoutHalo cellsEq (by omega)
  have sameBase := StagedState.sameSubgrid_received exchange.sendsBoundaries exchange
    (packTo exchange.sendsBoundaries schedule exchange (space.numDims - 1) staged)
    (space.numDims - 1) rank
  have gridEq :
      (packTo exchange.sendsBoundaries schedule exchange (space.numDims - 1) staged).grid =
        state.grid := stagedGrids
  have occupied := sameBase.empty.trans ((congrFun gridEq rank ▸ nonempty :
    ((packTo exchange.sendsBoundaries schedule exchange (space.numDims - 1) staged).grid
      rank).empty = false))
  -- when it is sent, the halo of the later dimension has come in
  have wide : 0 < (middle.grid rank).haloWidth side later := by
    have positiveLater : 0 < exchange.width side later := by
      simp only [HaloExchange.recvsBoundaries, Bool.and_eq_true, decide_eq_true_eq]
        at receiving
      exact receiving.1
    rw [widths rank inRange occupied side later after]
    by_cases earlier : later < space.numDims - 1
    · have congr := @recvsBoundaries_congr _ exchange _ _ sameBase later side
      rw [gridEq] at congr
      have arrives := congr.trans receiving
      rw [if_pos earlier]
      exact positiveLater.trans_eq (if_pos arrives).symm
    · obtain rfl : later = space.numDims - 1 := by omega
      rw [if_neg earlier, transmitTo, haloWidth_received, gridEq,
        if_pos ⟨rfl, inRange, nonempty⟩, if_pos receiving]
      exact positiveLater
  have sameMiddle : SameSubgrid (state.grid rank) (middle.grid rank) := by
    rw [gridEq] at sameBase
    exact sameBase.trans (same rank)
  have short := length_lt_calcHaloSize sameMiddle threeDims
    (fun dim less => created.occupied rank nonempty dim (by omega))
    (created.haloWidth rank) (by omega) positive cellsEq after (by omega) wide
  have sends := (canSend rank (List.mem_range.mpr inRange) dir (by cases dir <;> simp)).1
    ((active_sends_of_sameSubgrid sameMiddle i dir).trans active)
  rw [message] at sends
  simp only [buffer, diagonal] at sends
  rw [if_neg fun all => absurd all.2 (not_le.mpr short)] at sends
  cases sends

/--
The stages exchange what `LoadNeighbor` does if no slab has corners: they are
not asked for, or a process that sends a slab of a staged dimension has and gets
no halo of a later one.  On new grids they do so only then, if `LoadNeighbor`
gets through.
-/
theorem loadNeighborStages_eq_iff
    (positive : 0 < space.numDims) (schedule : List (Int × α) → List (Int × α))
    (offsetMin offsetMax : IndexArray) (diagonal periodic : Bool)
    (state : StagedState space α) :
    (NoCorners (neighborExchange offsetMin offsetMax diagonal periodic) state →
      loadNeighborStages schedule (stagesExchange offsetMin offsetMax diagonal periodic)
          state =
        loadNeighbor schedule (neighborExchange offsetMin offsetMax diagonal periodic)
          state) ∧
    (state.Created →
      (loadNeighbor schedule (neighborExchange offsetMin offsetMax diagonal periodic)
        state).isSome = true →
      (loadNeighborStages schedule (stagesExchange offsetMin offsetMax diagonal periodic)
          state =
        loadNeighbor schedule (neighborExchange offsetMin offsetMax diagonal periodic)
          state ↔
        NoCorners (neighborExchange offsetMin offsetMax diagonal periodic) state)) := by
  rw [stagesExchange_eq]
  refine ⟨loadNeighborStages_eq positive, fun created succeeds => ⟨fun equal => ?_,
    loadNeighborStages_eq positive⟩⟩
  rw [← equal] at succeeds
  exact noCorners_of_loadNeighborStages created succeeds

/-- A space of four columns of one cell, one for each of four processes. -/
def fourColumns : GridSpaceMPI where
  numDims := 3
  globalSize := IntegerArray.mk3 1 2 2
  procSize := IntegerArray.mk3 1 2 2
  globalPos := by decide
  procPos := by decide

theorem oneOfTwo_placed (n : Nat) :
    0 ≤ ((n % 2 : Nat) : Int) ∧ ((n % 2 : Nat) : Int) + (1 : Nat) ≤ 2 := by
  omega

/-- New grids of that space, the cell of each process holding its rank. -/
def columnGrids : StagedState fourColumns Int where
  grid rank :=
    { GridMPI.create 4 3 (IntegerArray.mk3 1 2 2) false (fun _ => 0)
        (IntegerArray.mk3 0 (rank % 2 : Nat) (rank / 2 % 2 : Nat))
        (IntegerArray.mk3 1 1 1) (fun _ _ => 0) with
      buffer :=
        { elmSize := 4
          size := IntegerArray.mk3 1 1 1
          memory := fun _ => rank
          pitch := 128
          ysize := 1 }
      haloSelfCuda := fun _ _ _ => 0
      haloPeerCuda := fun _ _ _ => 0 }
  self _ _ _ := []
  numDims_eq _ := rfl
  placed := by
    intro rank _ dim below
    rcases dim with _ | _ | _ | dim
    · simp [GridMPI.create, IntegerArray.mk3]
    · exact oneOfTwo_placed rank
    · exact oneOfTwo_placed (rank / 2)
    · exact absurd below (Nat.not_lt.mpr (Nat.le_add_left 3 dim))

/-- Without diagonal points the stages exchange the halos of both dimensions. -/
theorem columnGrids_stages_eq :
    loadNeighborStages id (stagesExchange (IntegerArray.mk3 0 (-1) (-1)) (fun _ => 0)
        false false) columnGrids =
      loadNeighbor id (neighborExchange (IntegerArray.mk3 0 (-1) (-1)) (fun _ => 0)
        false false) columnGrids :=
  (loadNeighborStages_eq_iff (by decide) id (IntegerArray.mk3 0 (-1) (-1)) (fun _ => 0)
    false false columnGrids).1 fun impossible => absurd impossible (by decide)

/--
With diagonal points `LoadNeighbor` gets through, but in the stages the slab of
the second dimension has no room for the halo of the third.
-/
theorem columnGrids_stages_ne :
    ¬ (loadNeighborStages id (stagesExchange (IntegerArray.mk3 0 (-1) (-1)) (fun _ => 0)
        true false) columnGrids =
      loadNeighbor id (neighborExchange (IntegerArray.mk3 0 (-1) (-1)) (fun _ => 0)
        true false) columnGrids) := by
  intro equal
  have exchanged : (loadNeighbor id (neighborExchange (IntegerArray.mk3 0 (-1) (-1))
      (fun _ => 0) true false) columnGrids).isSome = true := by
    decide +kernel
  have staged : (loadNeighborStages id (stagesExchange (IntegerArray.mk3 0 (-1) (-1))
      (fun _ => 0) true false) columnGrids).isSome = false := by
    decide +kernel
  rw [← equal, staged] at exchanged
  cases exchanged

end StagedState

end Physis.Runtime
