import Physis.Runtime.WholeGrids

/-!
# What a process has in a run

A process that has some statements behind it holds its parts of what a single
process has then.  Which loads its grids still have, and which remote grids may be
active, follows from the statements alone; and a grid that no map writes keeps
whatever copy was fetched.  So much is an invariant of each process by itself.
-/

namespace Physis.Runtime

open Physis.Library
open Physis.Library.RowMajor
open Physis.Library.Runs
open Physis.Translator

variable {α : Type}

/-! ## What statements leave behind -/

namespace RunStatement

/-- The last load of each grid that has not been undone. -/
def lastLoad (last : Nat → Option LoadStatement) :
    RunStatement α → Nat → Option LoadStatement
  | .load statement _ => Function.update last statement.grid (some statement)
  | .runKernel map => fun grid => if grid ∈ map.writtenGrids then none else last grid
  | .gridSwap grid => Function.update last grid none
  | .activateRemoteGrid grid _ => Function.update last grid none

/-- The grids whose remote grid may be active. -/
def mayBeActive (active : Nat → Bool) : RunStatement α → Nat → Bool
  | .load statement _ =>
      match statement.remoteGrid with
      | some grid => Function.update active grid true
      | none => active
  | .runKernel _ => active
  | .gridSwap _ => active
  | .activateRemoteGrid grid value => Function.update active grid value

end RunStatement

/-- The last loads after some statements. -/
def lastLoads (program : List (RunStatement α)) : Nat → Option LoadStatement :=
  program.foldl RunStatement.lastLoad fun _ => none

/-- The grids whose remote grid may be active after some statements. -/
def activeGrids (program : List (RunStatement α)) : Nat → Bool :=
  program.foldl RunStatement.mayBeActive fun _ => false

/-- A statement that does not write a grid leaves it as it is. -/
theorem RunStatement.single_of_not_writes
    {statement : RunStatement α} {wholes : Nat → WholeGrid α} {grid : Nat}
    (unwritten : ¬statement.Writes grid) : statement.single wholes grid = wholes grid := by
  cases statement with
  | load statement i => rfl
  | runKernel map => exact if_neg unwritten
  | gridSwap other => exact Function.update_of_ne (fun same => unwritten same.symm) _ _
  | activateRemoteGrid other active => rfl

theorem singleRun_of_not_writes
    {program : List (RunStatement α)} {wholes : Nat → WholeGrid α} {grid : Nat}
    (unwritten : ∀ statement ∈ program, ¬statement.Writes grid) :
    singleRun program wholes grid = wholes grid := by
  induction program generalizing wholes with
  | nil => rfl
  | cons statement rest induction =>
      rw [singleRun, List.foldl_cons, ← singleRun,
        induction fun other member => unwritten other (by simp [member])]
      exact RunStatement.single_of_not_writes (unwritten statement (by simp))

/-! ## The invariant -/

section Process

variable
    (space : GridSpaceMPI) (elmSize : Nat → Nat) (size : Nat → IndexArray)
    (program : List (RunStatement α)) (wholes : Nat → WholeGrid α) (rank : Nat)

/-- What a process has at its statement. -/
structure RunProcess.Follows (process : RunProcess α) : Prop where
  placed : ∀ grid, Decomposed space (elmSize grid) (size grid) (fun _ => 0) rank
    (process.grids grid)
  parts : ∀ grid, (process.grids grid).PartOf space.numDims (size grid)
    (singleRun (program.take process.position) wholes grid)
  loaded : ∀ grid statement,
    lastLoads (program.take process.position) grid = some statement →
      LoadStatement.Loaded space (size grid) (process.grids grid)
        (singleRun (program.take process.position) wholes grid).data statement
  inactive : ∀ grid, activeGrids (program.take process.position) grid = false →
    (process.grids grid).remoteGridActive = false
  fresh : ∀ grid, (∀ statement ∈ program, ¬statement.Writes grid) →
    ∀ position < process.position, ∀ call reuse i,
      program[position]? = some (.load (.loadSubgridUniqueDim grid call reuse) i) →
        ∀ own : LoadCall α,
          psLoadSubgrid (process.grids grid) call = some (own.gridOffset, own.gridSize) →
            own.fetches space rank (fun _ => 0) ≠ [] →
              (process.grids grid).FreshCopy space (size grid) (wholes grid).data

variable {space elmSize size program wholes rank}
    {process : RunProcess α} {statement : RunStatement α} {after : Nat → GridMPI α}

namespace RunProcess.Follows

variable (follows : process.Follows space elmSize size program wholes rank)

include follows

/-- The next statement, by what it makes of the grids. -/
theorem proceed
    (next : program[process.position]? = some statement)
    (placed : ∀ grid, Decomposed space (elmSize grid) (size grid) (fun _ => 0) rank
      (after grid))
    (parts : ∀ grid, (after grid).PartOf space.numDims (size grid)
      (statement.single (singleRun (program.take process.position) wholes) grid))
    (loaded : ∀ grid load,
      statement.lastLoad (lastLoads (program.take process.position)) grid = some load →
        LoadStatement.Loaded space (size grid) (after grid)
          (statement.single (singleRun (program.take process.position) wholes) grid).data load)
    (inactive : ∀ grid,
      statement.mayBeActive (activeGrids (program.take process.position)) grid = false →
        (after grid).remoteGridActive = false)
    (kept : ∀ grid, (∀ other ∈ program, ¬other.Writes grid) →
      (process.grids grid).FreshCopy space (size grid) (wholes grid).data →
        (after grid).FreshCopy space (size grid) (wholes grid).data)
    (made : ∀ grid, (∀ other ∈ program, ¬other.Writes grid) → ∀ call reuse i,
      statement = .load (.loadSubgridUniqueDim grid call reuse) i → ∀ own : LoadCall α,
        psLoadSubgrid (after grid) call = some (own.gridOffset, own.gridSize) →
          own.fetches space rank (fun _ => 0) ≠ [] →
            (after grid).FreshCopy space (size grid) (wholes grid).data) :
    RunProcess.Follows space elmSize size program wholes rank
      ⟨after, process.position + 1, false⟩ := by
  have taken : program.take (process.position + 1) =
      program.take process.position ++ [statement] := by
    rw [List.take_add_one, next, Option.toList_some]
  have single : singleRun (program.take (process.position + 1)) wholes =
      statement.single (singleRun (program.take process.position) wholes) := by
    rw [taken, singleRun, List.foldl_append]
    rfl
  refine ⟨placed, ?_, ?_, ?_, ?_⟩
  · intro grid
    rw [single]
    exact parts grid
  · intro grid load last
    rw [taken, lastLoads, List.foldl_append] at last
    rw [single]
    exact loaded grid load last
  · intro grid none
    rw [taken, activeGrids, List.foldl_append] at none
    exact inactive grid none
  · intro grid unwritten position earlier call reuse i loads own region fetches
    rcases Nat.lt_succ_iff_lt_or_eq.mp earlier with before | rfl
    · rw [psLoadSubgrid_congr (placed grid) (follows.placed grid)] at region
      exact kept grid unwritten
        (follows.fresh grid unwritten position before call reuse i loads own region fetches)
    · rw [next, Option.some.injEq] at loads
      exact made grid unwritten call reuse i loads own region fetches

/-- A statement that concerns one grid and changes no copy of another. -/
theorem proceed_one
    {named : Nat} {part : GridMPI α}
    (next : program[process.position]? = some statement)
    (placed : Decomposed space (elmSize named) (size named) (fun _ => 0) rank part)
    (parts : part.PartOf space.numDims (size named)
      (statement.single (singleRun (program.take process.position) wholes) named))
    (loaded : ∀ load,
      statement.lastLoad (lastLoads (program.take process.position)) named = some load →
        LoadStatement.Loaded space (size named) part
          (statement.single (singleRun (program.take process.position) wholes) named).data load)
    (inactive :
      statement.mayBeActive (activeGrids (program.take process.position)) named = false →
        part.remoteGridActive = false)
    (kept : (∀ other ∈ program, ¬other.Writes named) →
      (process.grids named).FreshCopy space (size named) (wholes named).data →
        part.FreshCopy space (size named) (wholes named).data)
    (made : (∀ other ∈ program, ¬other.Writes named) → ∀ call reuse i,
      statement = .load (.loadSubgridUniqueDim named call reuse) i → ∀ own : LoadCall α,
        psLoadSubgrid part call = some (own.gridOffset, own.gridSize) →
          own.fetches space rank (fun _ => 0) ≠ [] →
            part.FreshCopy space (size named) (wholes named).data)
    (others : ∀ other, other ≠ named → ¬statement.Writes other ∧
      statement.lastLoad (lastLoads (program.take process.position)) other =
        lastLoads (program.take process.position) other ∧
      statement.mayBeActive (activeGrids (program.take process.position)) other =
        activeGrids (program.take process.position) other ∧
      ∀ call reuse i, statement ≠ .load (.loadSubgridUniqueDim other call reuse) i) :
    RunProcess.Follows space elmSize size program wholes rank
      ⟨Function.update process.grids named part, process.position + 1, false⟩ := by
  refine follows.proceed next ?_ ?_ ?_ ?_ ?_ ?_
  · intro grid
    by_cases same : grid = named
    · subst same
      rwa [Function.update_self]
    · rw [Function.update_of_ne same]
      exact follows.placed grid
  · intro grid
    by_cases same : grid = named
    · subst same
      rwa [Function.update_self]
    · rw [Function.update_of_ne same,
        RunStatement.single_of_not_writes (others grid same).1]
      exact follows.parts grid
  · intro grid load last
    by_cases same : grid = named
    · subst same
      rw [Function.update_self]
      exact loaded load last
    · rw [(others grid same).2.1] at last
      rw [Function.update_of_ne same,
        RunStatement.single_of_not_writes (others grid same).1]
      exact follows.loaded grid load last
  · intro grid none
    by_cases same : grid = named
    · subst same
      rw [Function.update_self]
      exact inactive none
    · rw [(others grid same).2.2.1] at none
      rw [Function.update_of_ne same]
      exact follows.inactive grid none
  · intro grid unwritten fresh
    by_cases same : grid = named
    · subst same
      rw [Function.update_self]
      exact kept unwritten fresh
    · rwa [Function.update_of_ne same]
  · intro grid unwritten call reuse i isLoad own region fetches
    by_cases same : grid = named
    · subst same
      rw [Function.update_self] at region ⊢
      exact made unwritten call reuse i isLoad own region fetches
    · exact absurd isLoad ((others grid same).2.2.2 call reuse i)

/-! ### Statements without messages -/

/-- A swap. -/
theorem gridSwap {grid : Nat} (next : program[process.position]? = some (.gridSwap grid)) :
    RunProcess.Follows space elmSize size program wholes rank
      ⟨Function.update process.grids grid (process.grids grid).swap, process.position + 1,
        false⟩ := by
  have own := follows.placed grid
  refine follows.proceed_one next
    ⟨own.elmSize, own.numDims, own.localOffset, own.localSize, own.empty, own.size,
      own.globalOffset, own.sendBuffers⟩ ?_ ?_ (follows.inactive grid) ?_ ?_ ?_
  · simp only [RunStatement.single, Function.update_self]
    exact (follows.parts grid).swap
  · intro load last
    simp [RunStatement.lastLoad] at last
  · intro unwritten
    exact absurd rfl (unwritten _ (List.mem_of_getElem? next))
  · intro _ call reuse i isLoad
    cases isLoad
  · intro other different
    refine ⟨fun same => different same.symm, ?_, rfl, fun _ _ _ isLoad => by cases isLoad⟩
    simp only [RunStatement.lastLoad, Function.update_of_ne different]

/-- The end of the use of a remote grid, or its beginning. -/
theorem activateRemoteGrid
    {grid : Nat} {active : Bool}
    (next : program[process.position]? = some (.activateRemoteGrid grid active)) :
    RunProcess.Follows space elmSize size program wholes rank
      ⟨Function.update process.grids grid
        { process.grids grid with remoteGridActive := active }, process.position + 1,
        false⟩ := by
  have own := follows.placed grid
  refine follows.proceed_one next
    ⟨own.elmSize, own.numDims, own.localOffset, own.localSize, own.empty, own.size,
      own.globalOffset, own.sendBuffers⟩
    ((follows.parts grid).of_sameBuffers ⟨rfl, rfl, rfl, rfl⟩) ?_ ?_
    (fun _ fresh => fresh.of_remoteGrid rfl) ?_ ?_
  · intro load last
    simp [RunStatement.lastLoad] at last
  · intro none
    simpa [RunStatement.mayBeActive] using none
  · intro _ call reuse i isLoad
    cases isLoad
  · intro other different
    refine ⟨id, ?_, ?_, fun _ _ _ isLoad => by cases isLoad⟩
    · simp only [RunStatement.lastLoad, Function.update_of_ne different]
    · simp only [RunStatement.mayBeActive, Function.update_of_ne different]

/-- The kernel of a map that reads what a single process reads. -/
theorem runKernel
    {map : StencilMap α} (bounded : rank < space.numProcs)
    (computes : map.Computes space elmSize size)
    (next : program[process.position]? = some (.runKernel map))
    (reads : ∀ param ∈ map.params, param.isRead = true →
      MapParam.ReadsSingle space (size param.grid) map.numDims param
        (process.grids param.grid)
        (singleRun (program.take process.position) wholes param.grid).data) :
    RunProcess.Follows space elmSize size program wholes rank
      ⟨fun grid =>
          if grid ∈ map.writtenGrids then
            (process.grids grid).emit (map.emitted rank process.grids grid)
          else process.grids grid, process.position + 1, false⟩ := by
  have emits := computes rank bounded process.grids
    (fun grid => (singleRun (program.take process.position) wholes grid).data)
    follows.placed reads
  refine follows.proceed next ?_ ?_ ?_ ?_ ?_ ?_
  · intro grid
    have own := follows.placed grid
    split
    · exact ⟨own.elmSize, own.numDims, own.localOffset, own.localSize, own.empty,
        own.size, own.globalOffset, own.sendBuffers⟩
    · exact own
  · intro grid
    simp only [RunStatement.single]
    split
    · rename_i written
      exact (follows.parts grid).emit (emits grid written)
    · exact follows.parts grid
  · intro grid load last
    simp only [RunStatement.lastLoad] at last
    simp only [RunStatement.single]
    split at last
    · cases last
    · rename_i unwritten
      rw [if_neg unwritten, if_neg unwritten]
      exact follows.loaded grid load last
  · intro grid none
    split
    · exact follows.inactive grid none
    · exact follows.inactive grid none
  · intro grid unwritten fresh
    rwa [if_neg (show grid ∉ map.writtenGrids from
      unwritten _ (List.mem_of_getElem? next))]
  · intro grid _ call reuse i isLoad
    cases isLoad

/-! ### Loads -/

/-- What is left of an exchange. -/
theorem leaveExchange
    {grid : Nat} {offsetMin offsetMax : IndexArray} {diagonal periodic : Bool}
    {reuse : ReuseArgument} {i : Nat} {part : GridMPI α}
    (next : program[process.position]? =
      some (.load (.loadNeighbor grid offsetMin offsetMax diagonal reuse periodic) i))
    (same : part.SameButHalos (process.grids grid)) (chunks : part.SelfChunks)
    (loaded : LoadStatement.Loaded space (size grid) part
      (singleRun (program.take process.position) wholes grid).data
      (.loadNeighbor grid offsetMin offsetMax diagonal reuse periodic)) :
    RunProcess.Follows space elmSize size program wholes rank
      ⟨Function.update process.grids grid part, process.position + 1, false⟩ := by
  have active : part.remoteGridActive = (process.grids grid).remoteGridActive := by
    obtain ⟨_, _, _, _, _, _, _, _, _, rfl⟩ := same
    rfl
  refine follows.proceed_one next (same.decomposed chunks (follows.placed grid))
    ((follows.parts grid).of_sameBuffers same.sameBuffers) ?_ ?_
    (fun _ fresh => fresh.of_remoteGrid same.remoteGrid) ?_ ?_
  · intro load last
    simp only [RunStatement.lastLoad, LoadStatement.grid, Function.update_self,
      Option.some.injEq] at last
    subst last
    exact loaded
  · intro none
    rw [active]
    exact follows.inactive grid none
  · intro _ call reuse i isLoad
    cases isLoad
  · intro other different
    refine ⟨id, ?_, rfl, fun _ _ _ isLoad => by cases isLoad⟩
    simp only [RunStatement.lastLoad, LoadStatement.grid, Function.update_of_ne different]

omit follows in
/-- What `LoadSubgrid` finds or fetches. -/
theorem loaded_of_region
    {bytes : Nat} {extent : IndexArray} {part before : GridMPI α} {array : Int → α}
    {grid : Nat} {call : SubgridCall} {reuse : ReuseArgument} {own : LoadCall α}
    (small : space.numDims ≤ psMaxDim)
    (placed : Decomposed space bytes extent (fun _ => 0) rank before)
    (fits : ∀ d < space.numDims, extent d ≤ space.globalSize d)
    (region : psLoadSubgrid before call = some (own.gridOffset, own.gridSize))
    (data : part.SameData before)
    (active : part.remoteGridActive = (own.prepare space rank before).remoteGridActive)
    (copy : own.fetches space rank (fun _ => 0) ≠ [] → ∃ remote,
      part.remoteGrid = some remote ∧
        (∀ d < space.numDims, remote.localOffset d = own.gridOffset d ∧
          remote.localSize d = own.gridSize d) ∧
          part.FreshCopy space extent array)
    (values : ∀ cell, space.Owns rank extent (fun _ => 0) cell →
      InBox space.numDims before.localSize (fun d => cell d - before.localOffset d) ∧
        before.data (linear before.localSize (fun d => cell d - before.localOffset d)
          space.numDims) = array (linear extent cell space.numDims))
    (found : own.fetches space rank (fun _ => 0) = [] →
      before.remoteGridActive = false ∨
        LoadStatement.Loaded space extent before array
            (.loadSubgridUniqueDim grid call reuse) ∧
          part.remoteGrid = before.remoteGrid) :
    LoadStatement.Loaded space extent part array (.loadSubgridUniqueDim grid call reuse) := by
  have origin := placed.globalOffset
  obtain ⟨remote, flag, is⟩ := data
  intro gridOffset gridSize asked cell inside
  rw [show psLoadSubgrid part call = psLoadSubgrid before call by rw [is]; rfl, region,
    Option.some.injEq, Prod.mk.injEq] at asked
  obtain ⟨rfl, rfl⟩ := asked
  by_cases none : own.fetches space rank (fun _ => 0) = []
  · have kept : part.remoteGridActive = before.remoteGridActive := by
      rw [active, LoadCall.prepare, origin, if_pos none]
    rcases found none with inactive | ⟨loaded, sameRemote⟩
    · have owns := owns_of_fetches_eq_nil fits (regionInside_of_psLoadSubgrid small placed region)
        none inside
      rw [GridMPI.Finds, kept, inactive, is]
      exact values cell owns
    · have finds := loaded _ _ region cell inside
      rw [GridMPI.Finds] at finds ⊢
      rw [kept, sameRemote]
      rw [is]
      exact finds
  · obtain ⟨copied, attached, isRegion, fresh⟩ := copy none
    have activated : part.remoteGridActive = true := by
      rw [active, LoadCall.prepare, origin, if_neg none]
      split <;> rfl
    have within : space.InRegion copied.localOffset copied.localSize cell := by
      intro d below
      rw [(isRegion d below).1, (isRegion d below).2]
      exact inside d below
    rw [GridMPI.Finds, activated]
    exact ⟨copied, attached, within, fresh copied attached cell within⟩

/-- What is left of a round of `LoadSubgrid`. -/
theorem leaveSubgrid
    {grid : Nat} {call : SubgridCall} {reuse : ReuseArgument} {i : Nat} {part : GridMPI α}
    {own : LoadCall α} (small : space.numDims ≤ psMaxDim)
    (fits : ∀ d < space.numDims, size grid d ≤ space.globalSize d)
    (next : program[process.position]? =
      some (.load (.loadSubgridUniqueDim grid call reuse) i))
    (region : psLoadSubgrid (process.grids grid) call =
      some (own.gridOffset, own.gridSize))
    (data : part.SameData (process.grids grid))
    (active : part.remoteGridActive =
      (own.prepare space rank (process.grids grid)).remoteGridActive)
    (kept : own.requests space rank (process.grids grid) = [] →
      part.remoteGrid = (process.grids grid).remoteGrid)
    (fetched : own.requests space rank (process.grids grid) ≠ [] →
      ∃ remote, part.remoteGrid = some remote ∧ remote.OfRegion own ∧
        ∀ cell, space.InRegion own.gridOffset own.gridSize cell →
          remote.data (linear remote.localSize (fun d => cell d - remote.localOffset d)
              space.numDims) =
            (singleRun (program.take process.position) wholes grid).data
              (linear (size grid) cell space.numDims))
    (skipped : own.Skips space rank (process.grids grid) →
      (process.grids grid).FreshCopy space (size grid)
        (singleRun (program.take process.position) wholes grid).data)
    (found : own.fetches space rank (fun _ => 0) = [] →
      (process.grids grid).remoteGridActive = false ∨
        LoadStatement.Loaded space (size grid) (process.grids grid)
          (singleRun (program.take process.position) wholes grid).data
          (.loadSubgridUniqueDim grid call reuse)) :
    RunProcess.Follows space elmSize size program wholes rank
      ⟨Function.update process.grids grid part, process.position + 1, false⟩ := by
  have origin := (follows.placed grid).globalOffset
  have copy : own.fetches space rank (fun _ => 0) ≠ [] → ∃ remote,
      part.remoteGrid = some remote ∧
        (∀ d < space.numDims, remote.localOffset d = own.gridOffset d ∧
          remote.localSize d = own.gridSize d) ∧
          part.FreshCopy space (size grid)
            (singleRun (program.take process.position) wholes grid).data := by
    intro some
    by_cases none : own.requests space rank (process.grids grid) = []
    · have skips := LoadCall.skips_of_requests none (by rwa [origin])
      obtain ⟨remote, attached, isRegion⟩ := GridMPI.exists_of_remoteIs skips.2.2
      exact ⟨remote, (kept none).trans attached, fun d below => isRegion d (by omega),
        (skipped skips).of_remoteGrid (kept none)⟩
    · obtain ⟨remote, attached, ofRegion, has⟩ := fetched none
      refine ⟨remote, attached, fun d _ => ⟨by rw [ofRegion.offset], by rw [ofRegion.size]⟩,
        fun other otherAttached cell inside => ?_⟩
      rw [attached, Option.some.injEq] at otherAttached
      subst otherAttached
      rw [ofRegion.offset, ofRegion.size] at inside
      exact has cell inside
  have unwrittenSame : (∀ other ∈ program, ¬other.Writes grid) →
      singleRun (program.take process.position) wholes grid = wholes grid := fun unwritten =>
    singleRun_of_not_writes fun other member => unwritten other (List.mem_of_mem_take member)
  refine follows.proceed_one next ((follows.placed grid).sameData data)
    ((follows.parts grid).of_sameBuffers data.sameBuffers) ?_ ?_ ?_ ?_ ?_
  · intro load last
    simp only [RunStatement.lastLoad, LoadStatement.grid, Function.update_self,
      Option.some.injEq] at last
    subst last
    refine loaded_of_region small (follows.placed grid) fits region data active copy
      (fun cell owns => (follows.parts grid).data_of_owns (follows.placed grid) owns) ?_
    intro none
    refine (found none).imp_right fun loaded => ⟨loaded, kept ?_⟩
    by_contra some
    exact some (by rw [LoadCall.requests_eq_fetches some, origin, none])
  · intro none
    simp [RunStatement.mayBeActive, LoadStatement.remoteGrid] at none
  · intro unwritten fresh
    by_cases none : own.requests space rank (process.grids grid) = []
    · exact fresh.of_remoteGrid (kept none)
    · obtain ⟨_, _, _, copied⟩ := copy (by
        rw [← origin, ← LoadCall.requests_eq_fetches none]
        exact none)
      rwa [unwrittenSame unwritten] at copied
  · intro unwritten otherCall otherReuse j isLoad other asked fetches
    cases isLoad
    rw [psLoadSubgrid_congr ((follows.placed grid).sameData data) (follows.placed grid),
      region, Option.some.injEq, Prod.mk.injEq] at asked
    obtain ⟨_, _, _, copied⟩ := copy (by
      rw [LoadCall.fetches, asked.1, asked.2]
      exact fetches)
    rwa [unwrittenSame unwritten] at copied
  · intro other different
    refine ⟨id, ?_, ?_, ?_⟩
    · simp only [RunStatement.lastLoad, LoadStatement.grid, Function.update_of_ne different]
    · simp only [RunStatement.mayBeActive, LoadStatement.remoteGrid,
        Function.update_of_ne different]
    · intro _ _ _ isLoad
      cases isLoad
      exact different rfl

end RunProcess.Follows

end Process

end Physis.Runtime
