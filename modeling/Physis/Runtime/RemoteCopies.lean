import Physis.Runtime.RunBodies

/-!
# Copies that are reused

The translator lets a map reuse what it has loaded in an earlier iteration if
its own kernel does not write the grid.  The other maps of the run are not asked.
If none of them writes the grid either, a reused copy has the owners' values, and
each kernel reads what it would read in a single process.
-/

namespace Physis.Runtime

open Physis.Library
open Physis.Library.RowMajor
open Physis.Library.Networks
open Physis.Library.Runs
open Physis.Translator

variable {α : Type}

/-- The processes start with their parts of the grids of a single process. -/
structure RunGrids.StartsWith
    (space : GridSpaceMPI) (elmSize : Nat → Nat) (size : Nat → IndexArray)
    (wholes : Nat → WholeGrid α) (grids : RunGrids α) : Prop where
  distributed : ∀ grid,
    Distributed space (elmSize grid) (size grid) (fun _ => 0) (grids grid)
  parts : ∀ grid, ∀ rank < space.numProcs,
    (grids grid rank).PartOf space.numDims (size grid) (wholes grid)
  inactive : ∀ grid, ∀ rank < space.numProcs, (grids grid rank).remoteGridActive = false

/--
In a state of a run, a load that does without fetching finds the owners' current
values in the copy, every kernel reads what a single process reads there, and the
processes hold what it holds.
-/
structure RunState.NeverStale
    (space : GridSpaceMPI) (size : Nat → IndexArray) (program : List (RunStatement α))
    (wholes : Nat → WholeGrid α) (state : RunState α) : Prop where
  skipped : ∀ rank < space.numProcs,
    ∀ (grid : Nat) (call : SubgridCall) (reuse : ReuseArgument) (i : Nat),
      state.next rank program = some (.load (.loadSubgridUniqueDim grid call reuse) i) →
        (state.process rank).inLoad = false → ∀ own : LoadCall α,
          psLoadSubgrid ((state.process rank).grids grid) call =
              some (own.gridOffset, own.gridSize) →
            own.reuse = reuse.value i →
              own.Skips space rank ((state.process rank).grids grid) →
                ∃ remote, ((state.process rank).grids grid).remoteGrid = some remote ∧
                  ∀ cell, space.InRegion own.gridOffset own.gridSize cell →
                    remote.HasCell space (size grid) (fun _ => 0)
                      (fun other => (state.process other).grids grid) cell
  reads : ∀ rank < space.numProcs, ∀ map : StencilMap α,
    state.next rank program = some (.runKernel map) →
      ∀ param ∈ map.params, param.isRead = true →
        MapParam.ReadsSingle space (size param.grid) map.numDims param
          ((state.process rank).grids param.grid)
          (singleRun (program.take (state.process rank).position) wholes param.grid).data
  parts : ∀ rank < space.numProcs, ∀ grid,
    ((state.process rank).grids grid).PartOf space.numDims (size grid)
      (singleRun (program.take (state.process rank).position) wholes grid)

section Results

variable
    {space : GridSpaceMPI} {elmSize : Nat → Nat} {size : Nat → IndexArray}
    {program : List (RunStatement α)} {wholes : Nat → WholeGrid α}
    {bufs : Nat → Nat → Int → α} {state : RunState α}

/-- The owners of a region have the values of a grid that is never written. -/
theorem RunState.Invariant.hasCell
    (small : space.numDims ≤ psMaxDim)
    (fits : ∀ grid, ∀ d < space.numDims, size grid d ≤ space.globalSize d)
    (invariant : state.Invariant space elmSize size program wholes bufs)
    {grid rank : Nat} (bounded : rank < space.numProcs)
    (unwritten : ∀ statement ∈ program, ¬statement.Writes grid)
    (fresh : ((state.process rank).grids grid).FreshCopy space (size grid)
      (wholes grid).data)
    {call : SubgridCall} {own : LoadCall α}
    (region : psLoadSubgrid ((state.process rank).grids grid) call =
      some (own.gridOffset, own.gridSize))
    (isRegion : ((state.process rank).grids grid).remoteIs own.gridOffset own.gridSize =
      true) :
    ∃ remote, ((state.process rank).grids grid).remoteGrid = some remote ∧
      ∀ cell, space.InRegion own.gridOffset own.gridSize cell →
        remote.HasCell space (size grid) (fun _ => 0)
          (fun other => (state.process other).grids grid) cell := by
  obtain ⟨remote, attached, same⟩ := GridMPI.exists_of_remoteIs isRegion
  refine ⟨remote, attached, fun cell inside => ?_⟩
  have copied := fresh remote attached cell fun d below => by
    rw [(same d (by omega)).1, (same d (by omega)).2]
    exact inside d below
  have within := regionInside_of_psLoadSubgrid small
    ((invariant.process rank bounded).placed grid) region
  obtain ⟨info, piece, has⟩ := within.exists_piece (fits grid) inside
  have owns := within.piece_owns piece has
  have ownerBounded := piece.peerRank_lt
  have follows := invariant.process _ ownerBounded
  have owned := ((follows.parts grid).data_of_owns (follows.placed grid) owns).2
  rw [singleRun_of_not_writes fun statement member =>
    unwritten statement (List.mem_of_mem_take member)] at owned
  exact ⟨space.peerRank info, ownerBounded, owns, owned.trans copied.symm⟩

theorem RunState.Invariant.neverStale
    (small : space.numDims ≤ psMaxDim)
    (fits : ∀ grid, ∀ d < space.numDims, size grid d ≤ space.globalSize d)
    (sound : SoundProgram space elmSize size program)
    (invariant : state.Invariant space elmSize size program wholes bufs) :
    state.NeverStale space size program wholes where
  skipped rank bounded grid call reuse i next _ own region flag skips := by
    obtain ⟨unwritten, fresh⟩ := sound.freshCopy_of_skips (invariant.process rank bounded)
      next region flag skips
    exact invariant.hasCell small fits bounded unwritten fresh region skips.2.2
  reads rank bounded map next := sound.readsSingle (invariant.process rank bounded) next
  parts rank bounded := (invariant.process rank bounded).parts

end Results

/-! ## Runs as functions -/

namespace RunState

/--
The next step of a process, with the source of the message it may take, unless it
loads halos.
-/
def act
    (space : GridSpaceMPI) (program : List (RunStatement α)) (memory : Int → α)
    (rank source : Nat) (state : RunState α) : Option (RunState α) :=
  let position := (state.process rank).position
  match state.next rank program with
  | none => none
  | some (.load (.loadSubgridUniqueDim grid call reuse) i) =>
      match (state.process rank).inLoad, ((state.load position).process rank).counter with
      | false, _ =>
          (psLoadSubgrid ((state.process rank).grids grid) call).map fun region =>
            { state.enter rank with
              load := Function.update state.load position
                (Network.advance (state.load position) rank
                  (LoadProcess.enter space rank
                    ⟨region.1, region.2, reuse.value i, memory⟩
                    { (state.load position).process rank with
                      grid := (state.process rank).grids grid })) }
      | true, .returned =>
          some (state.proceed rank (Function.update (state.process rank).grids grid
            ((state.load position).process rank).grid))
      | true, _ =>
          (Network.perform (LoadProcess.effect space) rank source
            (state.load position)).map fun after =>
              { state with load := Function.update state.load position after }
  | some statement =>
      (statement.perform rank (state.process rank).grids).map (state.proceed rank)

variable
    {space : GridSpaceMPI} {program : List (RunStatement α)} {memory : Int → α}
    {rank source : Nat} {state after : RunState α}

theorem ownStep_of_act
    (bounded : rank < space.numProcs)
    (acts : act space program memory rank source state = some after) :
    OwnStep space program state after := by
  refine ⟨.other, ?_, RunEvent.noConfusion⟩
  simp only [act] at acts
  split at acts
  · cases acts
  · rename_i grid call reuse i next
    split at acts
    · rename_i outside
      obtain ⟨region, loads, rfl⟩ := Option.map_eq_some_iff.mp acts
      exact .enterSubgrid rank grid call reuse i ⟨region.1, region.2, reuse.value i, memory⟩
        bounded next outside loads rfl
    · rename_i inside returned
      cases acts
      exact .leaveSubgrid rank grid call reuse i bounded next inside returned
    · rename_i inside _
      obtain ⟨later, performed, rfl⟩ := Option.map_eq_some_iff.mp acts
      exact .goSubgrid rank grid call reuse i later bounded next inside
        (Network.step_of_perform performed)
  · rename_i statement _ next
    obtain ⟨grids, performed, rfl⟩ := Option.map_eq_some_iff.mp acts
    exact .perform rank statement grids bounded next performed

/-- Steps of processes, each with the source of the message it may take. -/
def replay
    (space : GridSpaceMPI) (program : List (RunStatement α)) (memory : Int → α) :
    List (Nat × Nat) → RunState α → Option (RunState α)
  | [], state => some state
  | (rank, source) :: rest, state =>
      if rank < space.numProcs then
        (act space program memory rank source state).bind (replay space program memory rest)
      else none

theorem reaches_of_replay
    {script : List (Nat × Nat)}
    (replayed : replay space program memory script state = some after) :
    Reaches (OwnStep space program) state after := by
  induction script generalizing state with
  | nil =>
      cases replayed
      exact .refl
  | cons entry rest induction =>
      obtain ⟨rank, source⟩ := entry
      rw [replay] at replayed
      split at replayed
      · rename_i bounded
        obtain ⟨middle, acts, replayed⟩ := Option.bind_eq_some_iff.mp replayed
        exact .head (ownStep_of_act bounded acts) (induction replayed)
      · cases replayed

end RunState

/-! ### A run that reads a transposed grid -/

theorem twoColumns_globalPos : ∀ i < 2, 0 < (IntegerArray.mk3 2 2 0 : IndexArray) i := by decide

theorem twoColumns_procPos : ∀ i < 2, 0 < (IntegerArray.mk3 2 1 0 : IntArray) i := by decide

/-- Two processes with one column of two cells each. -/
def twoColumns : GridSpaceMPI where
  numDims := 2
  globalSize := IntegerArray.mk3 2 2 0
  procSize := IntegerArray.mk3 2 1 0
  globalPos := twoColumns_globalPos
  procPos := twoColumns_procPos

/-- A parameter that is read at the mirrored position of every point. -/
def transposedParam : MapParam where
  numDims := 2
  accesses := [[⟨2, 0⟩, ⟨1, 0⟩]]
  wellFormed := by decide
  grid := 0
  isRead := true
  isWritten := false
  diagonal := false
  periodic := false

/-- A parameter that is only written. -/
def writtenParam : MapParam where
  numDims := 2
  accesses := []
  wellFormed := by decide
  grid := 1
  isRead := false
  isWritten := true
  diagonal := false
  periodic := false

/-- A parameter that is read and written at every point. -/
def updatedParam : MapParam where
  numDims := 2
  accesses := [[⟨1, 0⟩, ⟨2, 0⟩]]
  wellFormed := by decide
  grid := 0
  isRead := true
  isWritten := true
  diagonal := false
  periodic := false

/-- The value a kernel finds at a cell. -/
def GridMPI.find? (numDims : Nat) (part : GridMPI α) (cell : IndexArray) : Option α :=
  match part.remoteGridActive with
  | true => part.remoteGrid.map fun remote =>
      remote.data (linear remote.localSize (fun d => cell d - remote.localOffset d) numDims)
  | false =>
      some (part.data (linear part.localSize (fun d => cell d - part.localOffset d) numDims))

theorem GridMPI.Finds.find?_eq
    {space : GridSpaceMPI} {part : GridMPI α} {cell : IndexArray} {value : α}
    (finds : part.Finds space cell value) : part.find? space.numDims cell = some value := by
  rw [GridMPI.Finds] at finds
  rw [GridMPI.find?]
  split at finds
  · obtain ⟨remote, attached, -, rfl⟩ := finds
    simp [*]
  · simp [*]

/-- The map that writes the first grid transposed into the second. -/
def transpose : StencilMap Int where
  numDims := 2
  params := [transposedParam, writtenParam]
  loads := [.loadSubgridUniqueDim 0 transposedParam.range.arguments .laterIterations]
  generated := rfl
  emitted rank grids _ position :=
    (grids 0).find? 2 (IntegerArray.mk3 position rank 0)
  kernel arrays _ position := some (arrays 0 (2 * (position % 2) + position / 2))

/-- A map that adds one to every element of the first grid. -/
def increment : StencilMap Int where
  numDims := 2
  params := [updatedParam]
  loads := []
  generated := rfl
  emitted _ grids _ position := some ((grids 0).data position + 1)
  kernel arrays _ position := some (arrays 0 position + 1)

def columns : RunGrids Int := fun _ =>
  twoColumns.distribute 4 (IntegerArray.mk3 2 2 0) false (fun _ => 0)
    fun rank _ position => 10 * (rank : Int) + position

theorem columns_distributed (grid : Nat) :
    Distributed twoColumns 4 (IntegerArray.mk3 2 2 0) (fun _ => 0) (columns grid) :=
  twoColumns.distribute_distributed 4 (IntegerArray.mk3 2 2 0) false (fun _ => 0)
    (fun rank _ position => 10 * (rank : Int) + position) (by decide)

/-- The grids of a single process with the same elements. -/
def wholeColumns : Nat → WholeGrid Int := fun _ =>
  { dataBuffer := fun _ position => 10 * (position % 2) + position / 2
    dataId := fun _ => 0 }

theorem linear_plane (extent index : IndexArray) :
    linear extent index 2 = index 0 + index 1 * extent 0 := by
  simp [linear_succ, volume_succ]

/-- Where the parts of the two processes lie. -/
theorem twoColumns_place {rank : Nat} (bounded : rank < twoColumns.numProcs) {part : GridMPI Int}
    (own : Decomposed twoColumns 4 (IntegerArray.mk3 2 2 0) (fun _ => 0) rank part) :
    (part.localOffset 0 = rank ∧ part.localSize 0 = 1) ∧
      part.localOffset 1 = 0 ∧ part.localSize 1 = 2 := by
  rw [own.localOffset, own.localSize]
  match rank, bounded with
  | 0, _ => exact ⟨⟨rfl, rfl⟩, rfl, rfl⟩
  | 1, _ => exact ⟨⟨rfl, rfl⟩, rfl, rfl⟩

/-- Each process has the column of its number. -/
theorem twoColumns_positions
    {rank : Nat} (bounded : rank < twoColumns.numProcs) {part : GridMPI Int}
    (own : Decomposed twoColumns 4 (IntegerArray.mk3 2 2 0) (fun _ => 0) rank part)
    {index : IndexArray} (inside : InBox twoColumns.numDims part.localSize index) :
    linear part.localSize index twoColumns.numDims = index 1 ∧
      linear (IntegerArray.mk3 2 2 0) (fun d => part.localOffset d + index d)
          twoColumns.numDims = rank + 2 * index 1 ∧ 0 ≤ index 1 ∧ index 1 < 2 := by
  obtain ⟨⟨x, width⟩, y, height⟩ := twoColumns_place bounded own
  have first := inside 0 (by decide)
  have second := inside 1 (by decide)
  rw [show twoColumns.numDims = 2 from rfl, linear_plane, linear_plane, x, y, width]
  refine ⟨by omega, ?_, by omega, by omega⟩
  show (rank : Int) + index 0 + (0 + index 1) * 2 = rank + 2 * index 1
  omega

theorem columns_start :
    columns.StartsWith twoColumns (fun _ => 4) (fun _ => IntegerArray.mk3 2 2 0)
      wholeColumns where
  distributed := columns_distributed
  parts grid rank bounded := by
    refine ⟨fun _ _ => rfl, fun i _ index inside => ?_⟩
    obtain ⟨part, whole, first, last⟩ := twoColumns_positions bounded
      ((columns_distributed grid).decomposed rank bounded) inside
    have column : rank < 2 := bounded
    show 10 * (rank : Int) + linear _ _ twoColumns.numDims =
      10 * (linear _ _ twoColumns.numDims % 2) + linear _ _ twoColumns.numDims / 2
    rw [part, whole]
    omega
  inactive _ _ _ := rfl

/-- The region that the transposed parameter asks for is the row of the process's number. -/
theorem transposed_region
    {rank : Nat} (bounded : rank < twoColumns.numProcs) {part : GridMPI Int}
    (own : Decomposed twoColumns 4 (IntegerArray.mk3 2 2 0) (fun _ => 0) rank part) :
    ∃ gridOffset gridSize, psLoadSubgrid part transposedParam.range.arguments =
        some (gridOffset, gridSize) ∧
      (gridOffset 0 = 0 ∧ gridSize 0 = 2) ∧ gridOffset 1 = rank ∧ gridSize 1 = 1 := by
  rw [psLoadSubgrid_congr own ((columns_distributed 0).decomposed rank bounded)]
  match rank, bounded with
  | 0, _ => exact ⟨_, _, rfl, ⟨rfl, rfl⟩, rfl, rfl⟩
  | 1, _ => exact ⟨_, _, rfl, ⟨rfl, rfl⟩, rfl, rfl⟩

theorem transpose_computes :
    transpose.Computes twoColumns (fun _ => 4) (fun _ => IntegerArray.mk3 2 2 0) := by
  intro rank bounded grids arrays placed reads grid written index inside
  have isTransposed := reads transposedParam (by simp [transpose]) rfl
  obtain ⟨gridOffset, gridSize, region, ⟨x, width⟩, y, height⟩ :=
    transposed_region bounded (placed 0)
  obtain ⟨part, whole, first, last⟩ := twoColumns_positions bounded (placed grid) inside
  have column : rank < 2 := bounded
  have within : twoColumns.InRegion gridOffset gridSize
      (IntegerArray.mk3 (index 1) rank 0) := by
    intro d below
    have two : d < 2 := below
    interval_cases d
    · show gridOffset 0 ≤ index 1 ∧ index 1 < gridOffset 0 + gridSize 0
      omega
    · show gridOffset 1 ≤ rank ∧ (rank : Int) < gridOffset 1 + gridSize 1
      omega
  have finds := isTransposed.loaded _ rfl _ (List.mem_singleton.mpr rfl) gridOffset gridSize
    region _ within
  show GridMPI.find? twoColumns.numDims (grids 0) (IntegerArray.mk3 _ rank 0) =
    some (arrays 0 _)
  rw [part, whole]
  refine finds.find?_eq.trans (congrArg (fun position => some (arrays 0 position)) ?_)
  show linear _ (IntegerArray.mk3 (index 1) rank 0) 2 = _
  rw [linear_plane]
  show index 1 + (rank : Int) * 2 = _
  omega

/--
The processes answer each other and go through the rest of the first iteration,
which has some more statements than those of the first map.
-/
def iterationScript (more : Nat) : List (Nat × Nat) :=
  List.flatten [List.replicate 12 (0, 0), [(1, 0), (1, 0), (0, 1), (1, 0), (0, 1), (0, 0), (0, 0)],
    List.replicate 6 (1, 0), [(0, 1), (1, 0), (0, 1)], List.replicate 4 (0, 0),
    List.replicate 3 (1, 0), [(1, 1), (1, 1), (1, 0), (1, 0), (1, 1), (1, 1)],
    [(1, 0), (1, 0), (0, 1)], List.replicate (5 + more) (0, 0), List.replicate (7 + more) (1, 0)]

/-- The state of a run after the first iteration. -/
def afterIteration (maps : List (StencilMap Int)) (more : Nat) : Option (RunState Int) :=
  RunState.replay twoColumns (runBody maps 2) (fun _ => 0) (iterationScript more)
    (RunState.start columns fun _ _ _ => 0)

/-- The load of the second iteration, as the first process enters it. -/
def loadRow (state : RunState Int) : LoadCall Int :=
  let region := (psLoadSubgrid ((state.process 0).grids 0)
    transposedParam.range.arguments).getD (fun _ => 0, fun _ => 0)
  { gridOffset := region.1
    gridSize := region.2
    reuse := true
    memory := fun _ => 0 }

/--
The first process is at a load and would do without fetching its row.  The other
process's cell of the row has one value in the copy and one in its own column.
-/
def ReusesRow (state : RunState Int) (position : Nat) (copied current : Int) : Prop :=
  ((state.process 0).position = position ∧ (state.process 0).inLoad = false) ∧
    (psLoadSubgrid ((state.process 0).grids 0)
      transposedParam.range.arguments).isSome = true ∧
    ((loadRow state).fetches twoColumns 0
      ((state.process 0).grids 0).globalOffset).isEmpty = false ∧
    ((state.process 0).grids 0).remoteIs (loadRow state).gridOffset
      (loadRow state).gridSize = true ∧
    (∀ d < 2, (loadRow state).gridOffset d ≤ IntegerArray.mk3 1 0 0 d ∧
      IntegerArray.mk3 1 0 0 d < (loadRow state).gridOffset d + (loadRow state).gridSize d) ∧
    ((state.process 0).grids 0).remoteGrid.map (fun remote => remote.data
      (linear remote.localSize (fun d => IntegerArray.mk3 1 0 0 d - remote.localOffset d)
        2)) = some copied ∧
    ((state.process 1).grids 0).data (linear ((state.process 1).grids 0).localSize
      (fun d => IntegerArray.mk3 1 0 0 d - ((state.process 1).grids 0).localOffset d)
        2) = current

instance (state : RunState Int) (position : Nat) (copied current : Int) :
    Decidable (ReusesRow state position copied current) :=
  inferInstanceAs (Decidable (_ ∧ _))

theorem ReusesRow.skips
    {state : RunState Int} {position : Nat} {copied current : Int}
    (reuses : ReusesRow state position copied current) :
    psLoadSubgrid ((state.process 0).grids 0) transposedParam.range.arguments =
        some ((loadRow state).gridOffset, (loadRow state).gridSize) ∧
      (loadRow state).Skips twoColumns 0 ((state.process 0).grids 0) := by
  obtain ⟨-, loads, fetches, isRegion, -⟩ := reuses
  obtain ⟨region, is⟩ := Option.isSome_iff_exists.mp loads
  refine ⟨by simp [loadRow, is], ?_, rfl, isRegion⟩
  rwa [← List.isEmpty_eq_false_iff]

theorem transpose_replays :
    ∃ state, afterIteration [transpose] 0 = some state ∧ ReusesRow state 4 10 10 := by
  have evaluated : (afterIteration [transpose] 0).any
      (fun state => decide (ReusesRow state 4 10 10)) = true := by decide +kernel
  obtain ⟨state, replayed, holds⟩ := (Option.any_eq_true _ _).mp evaluated
  exact ⟨state, replayed, of_decide_eq_true holds⟩

theorem increment_replays :
    ∃ state, afterIteration [transpose, increment] 2 = some state ∧
      ReusesRow state 6 10 11 := by
  have evaluated : (afterIteration [transpose, increment] 2).any
      (fun state => decide (ReusesRow state 6 10 11)) = true := by decide +kernel
  obtain ⟨state, replayed, holds⟩ := (Option.any_eq_true _ _).mp evaluated
  exact ⟨state, replayed, of_decide_eq_true holds⟩

end Physis.Runtime
