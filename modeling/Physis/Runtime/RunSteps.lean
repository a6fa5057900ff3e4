import Physis.Runtime.RunInvariants

/-!
# Steps of a run

A load is gone through by processes that come to it and leave it at different
times.  Whatever parts the others will come with, its messages are those of a load
that all of them enter with their parts of one grid; so a process that leaves it has
what a single process has.
-/

namespace Physis.Runtime

open Physis.Library
open Physis.Library.RowMajor
open Physis.Library.Networks
open Physis.Library.Runs
open Physis.Translator

variable {α : Type}

/-! ## Processes that have come to a load -/

namespace RunState

variable {state : RunState α} {rank position : Nat} {grids : Nat → GridMPI α}

theorem entered_enter :
    (state.enter rank).entered position =
      if position = (state.process rank).position then
        Function.update (state.entered position) rank true
      else state.entered position := by
  funext other
  by_cases same : other = rank
  · subst same
    by_cases here : position = (state.process other).position <;>
      simp [entered, enter, here]
  · by_cases here : position = (state.process rank).position <;>
      simp [entered, enter, here, Function.update_of_ne same]

theorem entered_proceed
    (behind : position = (state.process rank).position → state.entered position rank = true) :
    (state.proceed rank grids).entered position = state.entered position := by
  funext other
  by_cases same : other = rank
  · subst same
    by_cases here : position = (state.process other).position
    · rw [behind here]
      simp [entered, proceed, here]
    · have still : position < (state.process other).position + 1 ↔
          position < (state.process other).position := by omega
      simp [entered, proceed, here, still]
  · simp [entered, proceed, Function.update_of_ne same]

theorem entered_of_inLoad (inside : (state.process rank).inLoad = true) :
    state.entered (state.process rank).position rank = true := by
  simp [entered, inside]

theorem entered_of_outside (outside : (state.process rank).inLoad = false) :
    state.entered (state.process rank).position rank = false := by
  simp [entered, outside]

end RunState

/-! ## Loads with the processes that are to come -/

section Completion

variable
    {space : GridSpaceMPI} {bytes : Nat} {size : IndexArray} {whole : WholeGrid α}

/-- The processes to come can have their parts of the whole grid. -/
theorem exists_completion
    {entered : Nat → Bool} {first current : Nat → GridMPI α}
    (fits : ∀ d < space.numDims, size d ≤ space.globalSize d)
    (places : ∀ rank < space.numProcs,
      Decomposed space bytes size (fun _ => 0) rank (current rank))
    (placed : ∀ rank < space.numProcs, entered rank = true →
      Decomposed space bytes size (fun _ => 0) rank (first rank))
    (parts : ∀ rank < space.numProcs, entered rank = true →
      (first rank).PartOf space.numDims size whole) :
    ∃ others : Nat → GridMPI α, (∀ rank, entered rank = true → others rank = first rank) ∧
      Distributed space bytes size (fun _ => 0) others ∧
        ∀ rank < space.numProcs, (others rank).PartOf space.numDims size whole := by
  have exists_part : ∀ rank, ∃ part : GridMPI α, (entered rank = true → part = first rank) ∧
      (rank < space.numProcs → Decomposed space bytes size (fun _ => 0) rank part ∧
        part.PartOf space.numDims size whole) := by
    intro rank
    by_cases inside : entered rank = true
    · exact ⟨first rank, fun _ => rfl, fun bounded =>
        ⟨placed rank bounded inside, parts rank bounded inside⟩⟩
    · by_cases bounded : rank < space.numProcs
      · obtain ⟨part, own, partOf⟩ := exists_partOf (places rank bounded) whole
        exact ⟨part, fun entered => absurd entered inside, fun _ => ⟨own, partOf⟩⟩
      · exact ⟨first rank, fun _ => rfl, fun within => absurd within bounded⟩
  choose others agrees isPart using exists_part
  refine ⟨others, agrees, ⟨fun d below => ⟨le_refl _, ?_⟩, fun rank bounded =>
    (isPart rank bounded).1⟩, fun rank bounded => (isPart rank bounded).2⟩
  have fit := fits d below
  omega

end Completion

section Invariants

variable
    (space : GridSpaceMPI) (elmSize : Nat → Nat) (size : Nat → IndexArray)
    (program : List (RunStatement α)) (wholes : Nat → WholeGrid α)
    (bufs : Nat → Nat → Int → α)

/-- The exchange at a position, with the parts the processes have come with. -/
structure RunState.ExchangesFrom
    (state : RunState α) (position grid : Nat) (exchange : HaloExchange)
    (first : Nat → GridMPI α) : Prop where
  placed : ∀ rank < space.numProcs, state.entered position rank = true →
    Decomposed space (elmSize grid) (size grid) (fun _ => 0) rank (first rank)
  parts : ∀ rank < space.numProcs, state.entered position rank = true →
    (first rank).PartOf space.numDims (size grid) (singleRun (program.take position) wholes grid)
  current : ∀ rank, position = (state.process rank).position →
    (state.process rank).inLoad = true → first rank = (state.process rank).grids grid
  reached : ∀ others : Nat → GridMPI α,
    (∀ rank, state.entered position rank = true → others rank = first rank) →
      Reaches (exchange.Step space) (HaloExchange.start others)
        (HaloExchange.placed (state.entered position) others (state.exchange position))

/-- The round of `LoadSubgrid` at a position, with the parts and calls of the processes. -/
structure RunState.LoadsFrom
    (state : RunState α) (position grid : Nat) (call : SubgridCall) (reuse : Bool)
    (first : Nat → GridMPI α) (calls : Nat → LoadCall α) : Prop where
  placed : ∀ rank < space.numProcs, state.entered position rank = true →
    Decomposed space (elmSize grid) (size grid) (fun _ => 0) rank (first rank)
  parts : ∀ rank < space.numProcs, state.entered position rank = true →
    (first rank).PartOf space.numDims (size grid) (singleRun (program.take position) wholes grid)
  regions : ∀ rank < space.numProcs, state.entered position rank = true →
    psLoadSubgrid (first rank) call = some ((calls rank).gridOffset, (calls rank).gridSize)
  flags : ∀ rank < space.numProcs, state.entered position rank = true →
    (calls rank).reuse = reuse
  current : ∀ rank, position = (state.process rank).position →
    (state.process rank).inLoad = true → first rank = (state.process rank).grids grid
  inside : ∀ rank < space.numProcs,
    ((state.load position).process rank).entered = state.entered position rank
  reached : ∀ (others : Nat → GridMPI α) (otherCalls : Nat → LoadCall α),
    (∀ rank, state.entered position rank = true →
      others rank = first rank ∧ otherCalls rank = calls rank) →
      Reaches (LoadState.Step space otherCalls) (LoadState.start others (bufs position))
        ((state.load position).placed others)

/-- What holds in every state of a run. -/
structure RunState.Invariant (state : RunState α) : Prop where
  process : ∀ rank < space.numProcs,
    (state.process rank).Follows space elmSize size program wholes rank
  exchange : ∀ position grid offsetMin offsetMax diagonal reuse periodic i,
    program[position]? =
        some (.load (.loadNeighbor grid offsetMin offsetMax diagonal reuse periodic) i) →
      ∃ first, state.ExchangesFrom space elmSize size program wholes position grid
        (neighborExchange offsetMin offsetMax diagonal periodic) first
  load : ∀ position grid call reuse i,
    program[position]? = some (.load (.loadSubgridUniqueDim grid call reuse) i) →
      ∃ first calls, state.LoadsFrom space elmSize size program wholes bufs position grid call
        (reuse.value i) first calls

variable {space elmSize size program wholes bufs}
    {state after : RunState α} {position grid rank : Nat} {exchange : HaloExchange}
    {call : SubgridCall} {reuse : Bool} {first : Nat → GridMPI α} {calls : Nat → LoadCall α}

/-- A step elsewhere leaves the exchange at a position. -/
theorem RunState.ExchangesFrom.congr
    (exchanges : state.ExchangesFrom space elmSize size program wholes position grid exchange
      first)
    (same : after.exchange position = state.exchange position)
    (entered : after.entered position = state.entered position)
    (others : ∀ rank, position = (after.process rank).position →
      (after.process rank).inLoad = true → after.process rank = state.process rank) :
    after.ExchangesFrom space elmSize size program wholes position grid exchange first where
  placed rank bounded inside := exchanges.placed rank bounded (by rwa [entered] at inside)
  parts rank bounded inside := exchanges.parts rank bounded (by rwa [entered] at inside)
  current rank here inside := by
    have unchanged := others rank here inside
    rw [unchanged] at here inside ⊢
    exact exchanges.current rank here inside
  reached parts agrees := by
    rw [same, entered]
    exact exchanges.reached parts (by rwa [entered] at agrees)

/-- A step elsewhere leaves the round of `LoadSubgrid` at a position. -/
theorem RunState.LoadsFrom.congr
    (loads : state.LoadsFrom space elmSize size program wholes bufs position grid call reuse
      first calls)
    (same : after.load position = state.load position)
    (entered : after.entered position = state.entered position)
    (others : ∀ rank, position = (after.process rank).position →
      (after.process rank).inLoad = true → after.process rank = state.process rank) :
    after.LoadsFrom space elmSize size program wholes bufs position grid call reuse first
      calls where
  placed rank bounded inside := loads.placed rank bounded (by rwa [entered] at inside)
  parts rank bounded inside := loads.parts rank bounded (by rwa [entered] at inside)
  regions rank bounded inside := loads.regions rank bounded (by rwa [entered] at inside)
  flags rank bounded inside := loads.flags rank bounded (by rwa [entered] at inside)
  current rank here inside := by
    have unchanged := others rank here inside
    rw [unchanged] at here inside ⊢
    exact loads.current rank here inside
  inside rank bounded := by
    rw [same, entered]
    exact loads.inside rank bounded
  reached parts otherCalls agrees := by
    rw [same]
    exact loads.reached parts otherCalls (by rwa [entered] at agrees)

/-- A process enters an exchange with its part. -/
theorem RunState.ExchangesFrom.enter
    (exchanges : state.ExchangesFrom space elmSize size program wholes
      (state.process rank).position grid exchange first)
    (follows : (state.process rank).Follows space elmSize size program wholes rank)
    (outside : (state.process rank).inLoad = false) :
    RunState.ExchangesFrom space elmSize size program wholes
      { state.enter rank with
        exchange := Function.update state.exchange (state.process rank).position
          (HaloExchange.enter (state.exchange (state.process rank).position) rank
            ((state.process rank).grids grid)) }
      (state.process rank).position grid exchange
      (Function.update first rank ((state.process rank).grids grid)) := by
  have entered : (state.enter rank).entered (state.process rank).position =
      Function.update (state.entered (state.process rank).position) rank true := by
    rw [RunState.entered_enter, if_pos rfl]
  have notYet := RunState.entered_of_outside outside
  have each : ∀ {other : Nat}, other ≠ rank →
      (state.enter rank).entered (state.process rank).position other = true →
        state.entered (state.process rank).position other = true := by
    intro other different inside
    rwa [entered, Function.update_of_ne different] at inside
  refine ⟨?_, ?_, ?_, ?_⟩
  · intro other bounded inside
    by_cases same : other = rank
    · subst same
      rw [Function.update_self]
      exact follows.placed grid
    · rw [Function.update_of_ne same]
      exact exchanges.placed other bounded (each same inside)
  · intro other bounded inside
    by_cases same : other = rank
    · subst same
      rw [Function.update_self]
      exact follows.parts grid
    · rw [Function.update_of_ne same]
      exact exchanges.parts other bounded (each same inside)
  · intro other here inside
    by_cases same : other = rank
    · subst same
      simp [RunState.enter]
    · simp only [RunState.enter, Function.update_of_ne same] at here inside ⊢
      exact exchanges.current other here inside
  · intro others agrees
    have own : others rank = (state.process rank).grids grid := by
      have agreed := agrees rank (by
        show (state.enter rank).entered _ rank = true
        rw [entered, Function.update_self])
      rwa [Function.update_self] at agreed
    have before := exchanges.reached others fun other inside => by
      have different : other ≠ rank := by
        rintro rfl
        rw [notYet] at inside
        cases inside
      have agreed := agrees other (by
        show (state.enter rank).entered _ other = true
        rw [entered, Function.update_of_ne different]
        exact inside)
      rwa [Function.update_of_ne different] at agreed
    show Reaches _ _ (HaloExchange.placed ((state.enter rank).entered _) others
      (Function.update state.exchange _ _ _))
    rw [Function.update_self, entered, ← own, HaloExchange.placed_enter notYet]
    exact before

/-- A process goes on in an exchange. -/
theorem RunState.ExchangesFrom.go
    {next : ExchangeState α} (bounded : rank < space.numProcs)
    (exchanges : state.ExchangesFrom space elmSize size program wholes
      (state.process rank).position grid exchange first)
    (inside : (state.process rank).inLoad = true)
    (step : exchange.step space rank (state.exchange (state.process rank).position) =
      some next) :
    RunState.ExchangesFrom space elmSize size program wholes
      { state with
        exchange := Function.update state.exchange (state.process rank).position next }
      (state.process rank).position grid exchange first where
  placed := exchanges.placed
  parts := exchanges.parts
  current := exchanges.current
  reached others agrees := by
    refine (exchanges.reached others agrees).tail ⟨rank, bounded, ?_⟩
    rw [HaloExchange.step_placed (RunState.entered_of_inLoad inside), step]
    show some _ = some (HaloExchange.placed _ others (Function.update state.exchange _ _ _))
    rw [Function.update_self]
    rfl

/-- A process enters `LoadSubgrid` with its part and its call. -/
theorem RunState.LoadsFrom.enter
    {own : LoadCall α} (bounded : rank < space.numProcs)
    (loads : state.LoadsFrom space elmSize size program wholes bufs
      (state.process rank).position grid call reuse first calls)
    (follows : (state.process rank).Follows space elmSize size program wholes rank)
    (outside : (state.process rank).inLoad = false)
    (region : psLoadSubgrid ((state.process rank).grids grid) call =
      some (own.gridOffset, own.gridSize))
    (flag : own.reuse = reuse) :
    RunState.LoadsFrom space elmSize size program wholes bufs
      { state.enter rank with
        load := Function.update state.load (state.process rank).position
          (Network.advance (state.load (state.process rank).position) rank
            (LoadProcess.enter space rank own
              { (state.load (state.process rank).position).process rank with
                grid := (state.process rank).grids grid })) }
      (state.process rank).position grid call reuse
      (Function.update first rank ((state.process rank).grids grid))
      (Function.update calls rank own) := by
  have entered : (state.enter rank).entered (state.process rank).position =
      Function.update (state.entered (state.process rank).position) rank true := by
    rw [RunState.entered_enter, if_pos rfl]
  have notYet := RunState.entered_of_outside outside
  have each : ∀ {other : Nat}, other ≠ rank →
      (state.enter rank).entered (state.process rank).position other = true →
        state.entered (state.process rank).position other = true := by
    intro other different inside
    rwa [entered, Function.update_of_ne different] at inside
  refine ⟨?_, ?_, ?_, ?_, ?_, ?_, ?_⟩
  · intro other inner inside
    by_cases same : other = rank
    · subst same
      rw [Function.update_self]
      exact follows.placed grid
    · rw [Function.update_of_ne same]
      exact loads.placed other inner (each same inside)
  · intro other inner inside
    by_cases same : other = rank
    · subst same
      rw [Function.update_self]
      exact follows.parts grid
    · rw [Function.update_of_ne same]
      exact loads.parts other inner (each same inside)
  · intro other inner inside
    by_cases same : other = rank
    · subst same
      rw [Function.update_self, Function.update_self]
      exact region
    · rw [Function.update_of_ne same, Function.update_of_ne same]
      exact loads.regions other inner (each same inside)
  · intro other inner inside
    by_cases same : other = rank
    · subst same
      rw [Function.update_self]
      exact flag
    · rw [Function.update_of_ne same]
      exact loads.flags other inner (each same inside)
  · intro other here inside
    by_cases same : other = rank
    · subst same
      simp [RunState.enter]
    · simp only [RunState.enter, Function.update_of_ne same] at here inside ⊢
      exact loads.current other here inside
  · intro other inner
    show ((Function.update state.load _ _ _).process other).entered =
      (state.enter rank).entered _ other
    rw [entered, Function.update_self, Network.advance_process]
    by_cases same : other = rank
    · subst same
      rw [if_pos rfl, Function.update_self]
      exact LoadProcess.enter_entered _
    · rw [if_neg same, Function.update_of_ne same]
      exact loads.inside other inner
  · intro others otherCalls agrees
    have agreed := agrees rank (by
      show (state.enter rank).entered _ rank = true
      rw [entered, Function.update_self])
    rw [Function.update_self, Function.update_self] at agreed
    have before := loads.reached others otherCalls fun other inside => by
      have different : other ≠ rank := by
        rintro rfl
        rw [notYet] at inside
        cases inside
      have agreed := agrees other (by
        show (state.enter rank).entered _ other = true
        rw [entered, Function.update_of_ne different]
        exact inside)
      rwa [Function.update_of_ne different, Function.update_of_ne different] at agreed
    have isOutside : ((state.load (state.process rank).position).process rank).counter =
        .outside := by
      have unentered := loads.inside rank bounded
      rw [notYet] at unentered
      by_contra inside
      rw [LoadProcess.entered_eq_true inside] at unentered
      cases unentered
    show Reaches _ _ (LoadState.placed others (Function.update state.load _ _ _))
    rw [Function.update_self, ← agreed.1, ← agreed.2]
    exact before.tail (LoadState.step_placed_enter bounded isOutside)

/-- A process goes on in `LoadSubgrid`. -/
theorem RunState.LoadsFrom.go
    {next : LoadState α} (bounded : rank < space.numProcs)
    (loads : state.LoadsFrom space elmSize size program wholes bufs
      (state.process rank).position grid call reuse first calls)
    (inside : (state.process rank).inLoad = true)
    (step : Network.Step (LoadProcess.effect space) rank
      (state.load (state.process rank).position) next) :
    RunState.LoadsFrom space elmSize size program wholes bufs
      { state with load := Function.update state.load (state.process rank).position next }
      (state.process rank).position grid call reuse first calls where
  placed := loads.placed
  parts := loads.parts
  regions := loads.regions
  flags := loads.flags
  current := loads.current
  inside other inner := by
    show ((Function.update state.load _ _ _).process other).entered = state.entered _ other
    obtain ⟨process, changed, continues⟩ := LoadState.continues_of_step step
    rw [Function.update_self, changed]
    split
    · rename_i same
      subst same
      rw [LoadProcess.entered_eq_true continues.inside, RunState.entered_of_inLoad inside]
    · exact loads.inside other inner
  reached others otherCalls agrees := by
    show Reaches _ _ (LoadState.placed others (Function.update state.load _ _ _))
    rw [Function.update_self]
    exact (loads.reached others otherCalls agrees).tail
      (.go rank bounded _ (LoadState.step_placed_iff.mpr ⟨next, step, rfl⟩))

end Invariants

/-! ## Leaving a load -/

section Leaving

variable
    {space : GridSpaceMPI} {elmSize : Nat → Nat} {size : Nat → IndexArray}
    {program : List (RunStatement α)} {wholes : Nat → WholeGrid α}
    {bufs : Nat → Nat → Int → α} {state : RunState α} {rank grid : Nat}
    {first : Nat → GridMPI α} {i : Nat} {reuse : ReuseArgument}
    (small : space.numDims ≤ psMaxDim)
    (fits : ∀ grid, ∀ d < space.numDims, size grid d ≤ space.globalSize d)
    (process : ∀ rank < space.numProcs,
      (state.process rank).Follows space elmSize size program wholes rank)
    (bounded : rank < space.numProcs) (inside : (state.process rank).inLoad = true)

include small fits process bounded inside

/-- A process that is through with an exchange has what it asked for. -/
theorem RunState.ExchangesFrom.leave
    {offsetMin offsetMax : IndexArray} {diagonal periodic : Bool}
    (exchanges : state.ExchangesFrom space elmSize size program wholes
      (state.process rank).position grid
      (neighborExchange offsetMin offsetMax diagonal periodic) first)
    (works : ∀ others : Nat → GridMPI α,
      Distributed space (elmSize grid) (size grid) (fun _ => 0) others →
        HaloExchange.Sourced (neighborExchange offsetMin offsetMax diagonal periodic) space
            others ∧
          HaloExchange.SlabsInside (neighborExchange offsetMin offsetMax diagonal periodic)
            space others)
    (next : program[(state.process rank).position]? =
      some (.load (.loadNeighbor grid offsetMin offsetMax diagonal reuse periodic) i))
    (done : ((state.exchange (state.process rank).position).process rank).todo = []) :
    RunProcess.Follows space elmSize size program wholes rank
      ⟨Function.update (state.process rank).grids grid
          ((state.exchange (state.process rank).position).process rank).grid,
        (state.process rank).position + 1, false⟩ := by
  obtain ⟨others, agrees, distributed, parts⟩ := exists_completion (fits grid)
    (fun other inner => (process other inner).placed grid) exchanges.placed exchanges.parts
  have entered := RunState.entered_of_inLoad inside
  have reached := exchanges.reached others agrees
  have isPlaced := @HaloExchange.placed_process _ _ _ others
    (state.exchange (state.process rank).position) entered
  have own : others rank = (state.process rank).grids grid :=
    (agrees rank entered).trans (exchanges.current rank rfl inside)
  obtain ⟨same, chunks⟩ := HaloExchange.frames_of_reaches distributed reached rank bounded
  rw [isPlaced] at same chunks
  refine (process rank bounded).leaveExchange next (own ▸ same) chunks ?_
  have place : _ ∧ _ ∧ _ := show
    ((state.exchange (state.process rank).position).process rank).grid.empty =
        (others rank).empty ∧
      ((state.exchange (state.process rank).position).process rank).grid.localSize =
          (others rank).localSize ∧
        ∀ point, (neighborExchange offsetMin offsetMax diagonal periodic).globalIndex
            ((state.exchange (state.process rank).position).process rank).grid point =
          (neighborExchange offsetMin offsetMax diagonal periodic).globalIndex
            (others rank) point by
    obtain ⟨_, _, _, _, _, _, _, _, _, is⟩ := same
    rw [is]
    exact ⟨rfl, rfl, fun _ => rfl⟩
  intro occupied index member offset stencil cell isCell inBox
  rw [place.1] at occupied
  rw [place.2.1] at member
  rw [place.2.2] at isCell
  subst isCell
  obtain ⟨sourced, slabs⟩ := works others distributed
  obtain ⟨value, resident, holds⟩ := HaloExchange.resident_of_done distributed small sourced
    slabs reached bounded (by rw [isPlaced]; exact done) occupied member stencil inBox
  rw [isPlaced] at resident
  rwa [holds.eq_whole distributed parts] at resident

/-- A process that has returned from `LoadSubgrid` has what it asked for. -/
theorem RunState.LoadsFrom.leave
    {call : SubgridCall} {calls : Nat → LoadCall α} (dims : 0 < space.numDims)
    (loads : state.LoadsFrom space elmSize size program wholes bufs
      (state.process rank).position grid call (reuse.value i) first calls)
    (next : program[(state.process rank).position]? =
      some (.load (.loadSubgridUniqueDim grid call reuse) i))
    (skipped : (calls rank).Skips space rank ((state.process rank).grids grid) →
      ((state.process rank).grids grid).FreshCopy space (size grid)
        (singleRun (program.take (state.process rank).position) wholes grid).data)
    (found : (calls rank).fetches space rank (fun _ => 0) = [] →
      ((state.process rank).grids grid).remoteGridActive = false ∨
        LoadStatement.Loaded space (size grid) ((state.process rank).grids grid)
          (singleRun (program.take (state.process rank).position) wholes grid).data
          (.loadSubgridUniqueDim grid call reuse))
    (returned : (state.load (state.process rank).position).Returned rank) :
    RunProcess.Follows space elmSize size program wholes rank
      ⟨Function.update (state.process rank).grids grid
          ((state.load (state.process rank).position).process rank).grid,
        (state.process rank).position + 1, false⟩ := by
  obtain ⟨others, agrees, distributed, parts⟩ := exists_completion (fits grid)
    (fun other inner => (process other inner).placed grid) loads.placed loads.parts
  -- those that have not come are given a call that loads nothing
  let otherCalls : Nat → LoadCall α := fun other =>
    if state.entered (state.process rank).position other then calls other
    else ⟨fun _ => 0, fun _ => 0, false, (calls other).memory⟩
  have calling : ∀ other, state.entered (state.process rank).position other = true →
      otherCalls other = calls other := fun other inner => if_pos inner
  have entered := RunState.entered_of_inLoad inside
  have ownRegion := regionInside_of_psLoadSubgrid small (loads.placed rank bounded entered)
    (loads.regions rank bounded entered)
  have regions : ∀ other < space.numProcs, space.RegionInside (size grid) (fun _ => 0)
      (otherCalls other).gridOffset (otherCalls other).gridSize := by
    intro other inner
    by_cases entered : state.entered (state.process rank).position other = true
    · rw [calling other entered]
      exact regionInside_of_psLoadSubgrid small (loads.placed other inner entered)
        (loads.regions other inner entered)
    · simp only [otherCalls, if_neg entered]
      refine ⟨fun _ _ => rfl, fun _ _ => le_refl _, fun _ _ => le_refl _, fun d below => ?_⟩
      -- the region of the process itself shows that the grid has no negative size
      have lower := ownRegion.lower d below
      have extent := ownRegion.extent d below
      have upper := ownRegion.upper d below
      omega
  have valid : ∀ other < space.numProcs, ∀ d < psMaxDim,
      0 ≤ (otherCalls other).gridOffset d ∧ 0 ≤ (otherCalls other).gridSize d := by
    intro other inner
    by_cases entered : state.entered (state.process rank).position other = true
    · rw [calling other entered]
      exact valid_of_psLoadSubgrid (loads.regions other inner entered)
    · simp only [otherCalls, if_neg entered]
      exact fun _ _ => ⟨le_refl _, le_refl _⟩
  have reached := loads.reached others otherCalls fun other inner =>
    ⟨agrees other inner, calling other inner⟩
  have isPlaced := @LoadState.placed_process _ rank others
    (state.load (state.process rank).position) ((loads.inside rank bounded).trans entered)
  have own : others rank = (state.process rank).grids grid :=
    (agrees rank entered).trans (loads.current rank rfl inside)
  have loaded := loadsRegion_of_returned distributed dims regions valid reached bounded
    (by rw [LoadState.Returned, isPlaced]; exact returned)
  rw [isPlaced, calling rank entered] at loaded
  obtain ⟨data, kept, active, fetched⟩ := loaded
  rw [own] at data kept active fetched
  refine (process rank bounded).leaveSubgrid small (fits grid) next ?_ data active kept ?_
    skipped found
  · rw [← loads.current rank rfl inside]
    exact loads.regions rank bounded entered
  · intro some
    obtain ⟨remote, attached, ofRegion, has⟩ := fetched some
    exact ⟨remote, attached, ofRegion, fun cell within =>
      (has cell within).eq_whole distributed parts⟩

end Leaving

/-! ## Programs -/

section Programs

variable
    (space : GridSpaceMPI) (elmSize : Nat → Nat) (size : Nat → IndexArray)
    (program : List (RunStatement α))

/-- What the order of the statements is for. -/
structure SoundProgram : Prop where
  works : ∀ grid offsetMin offsetMax diagonal reuse periodic i,
    .load (.loadNeighbor grid offsetMin offsetMax diagonal reuse periodic) i ∈ program →
      ∀ others : Nat → GridMPI α,
        Distributed space (elmSize grid) (size grid) (fun _ => 0) others →
          HaloExchange.Sourced (neighborExchange offsetMin offsetMax diagonal periodic) space
              others ∧
            HaloExchange.SlabsInside (neighborExchange offsetMin offsetMax diagonal periodic)
              space others
  computes : ∀ map, .runKernel map ∈ program → map.Computes space elmSize size
  /-- what may be reused has been loaded before, and is never written -/
  reused : ∀ (position grid : Nat) (call : SubgridCall) (reuse : ReuseArgument) (i : Nat),
    program[position]? = some (.load (.loadSubgridUniqueDim grid call reuse) i) →
      reuse.value i = true → (∀ other ∈ program, ¬other.Writes grid) ∧
        ∃ earlier < position, ∃ earlierReuse j,
          program[earlier]? = some (.load (.loadSubgridUniqueDim grid call earlierReuse) j)
  /-- only a load of the same region leaves a remote grid active before another -/
  found : ∀ (position grid : Nat) (call : SubgridCall) (reuse : ReuseArgument) (i : Nat),
    program[position]? = some (.load (.loadSubgridUniqueDim grid call reuse) i) →
      activeGrids (program.take position) grid = false ∨
        ∃ earlierReuse, lastLoads (program.take position) grid =
          some (.loadSubgridUniqueDim grid call earlierReuse)
  /-- before a kernel all it reads has been loaded -/
  reads : ∀ (position : Nat) (map : StencilMap α), program[position]? = some (.runKernel map) →
    ∀ param ∈ map.params, param.isRead = true →
      (∀ statements, param.loadStatements map.numDims = some statements →
        ∀ statement ∈ statements, ∃ last, lastLoads (program.take position) param.grid =
          some last ∧ last.withoutReuse = statement.withoutReuse) ∧
        (param.loadsSubgrid map.numDims = false →
          activeGrids (program.take position) param.grid = false)

variable {space elmSize size program}
    {wholes : Nat → WholeGrid α} {bufs : Nat → Nat → Int → α} {state after : RunState α}
    {rank : Nat} {process : RunProcess α}

/-- What a load is for does not depend on its `reuse` argument. -/
theorem LoadStatement.loaded_congr
    {extent : IndexArray} {part : GridMPI α} {array : Int → α} {last statement : LoadStatement}
    (same : last.withoutReuse = statement.withoutReuse)
    (loaded : LoadStatement.Loaded space extent part array last) :
    LoadStatement.Loaded space extent part array statement := by
  cases last <;> cases statement <;> cases same <;> exact loaded

namespace SoundProgram

variable (sound : SoundProgram space elmSize size program)

include sound

/-- At its kernel a process reads what a single process reads. -/
theorem readsSingle
    (follows : process.Follows space elmSize size program wholes rank)
    {map : StencilMap α} (next : program[process.position]? = some (.runKernel map)) :
    ∀ param ∈ map.params, param.isRead = true →
      MapParam.ReadsSingle space (size param.grid) map.numDims param
        (process.grids param.grid)
        (singleRun (program.take process.position) wholes param.grid).data := by
  intro param listed isRead
  obtain ⟨lasts, apart⟩ := sound.reads _ _ next param listed isRead
  refine ⟨fun statements own statement member => ?_, fun subgrid =>
    ⟨follows.inactive _ (apart subgrid), fun index inside => (follows.parts _).data inside⟩⟩
  obtain ⟨last, isLast, same⟩ := lasts statements own statement member
  exact LoadStatement.loaded_congr same (follows.loaded _ _ isLast)

/-- A copy that a load finds instead of fetching it is fresh. -/
theorem freshCopy_of_skips
    (follows : process.Follows space elmSize size program wholes rank)
    {grid : Nat} {call : SubgridCall} {reuse : ReuseArgument} {i : Nat}
    (next : program[process.position]? =
      some (.load (.loadSubgridUniqueDim grid call reuse) i))
    {own : LoadCall α}
    (region : psLoadSubgrid (process.grids grid) call =
      some (own.gridOffset, own.gridSize))
    (flag : own.reuse = reuse.value i)
    (skips : own.Skips space rank (process.grids grid)) :
    (∀ other ∈ program, ¬other.Writes grid) ∧
      (process.grids grid).FreshCopy space (size grid) (wholes grid).data := by
  obtain ⟨fetches, reused, -⟩ := skips
  obtain ⟨unwritten, earlier, before, earlierReuse, j, loads⟩ :=
    sound.reused _ _ _ _ _ next (flag ▸ reused)
  rw [(follows.placed grid).globalOffset] at fetches
  exact ⟨unwritten, follows.fresh grid unwritten earlier before call earlierReuse j loads own
    region fetches⟩

end SoundProgram

/-! ## Runs -/

/-- Before the run. -/
theorem invariant_start
    {grids : RunGrids α}
    (placed : ∀ grid, ∀ rank < space.numProcs,
      Decomposed space (elmSize grid) (size grid) (fun _ => 0) rank (grids grid rank))
    (parts : ∀ grid, ∀ rank < space.numProcs,
      (grids grid rank).PartOf space.numDims (size grid) (wholes grid))
    (inactive : ∀ grid, ∀ rank < space.numProcs, (grids grid rank).remoteGridActive = false) :
    (RunState.start grids bufs).Invariant space elmSize size program wholes bufs := by
  have outside : ∀ position rank, (RunState.start grids bufs).entered position rank = false :=
    fun position rank => by simp [RunState.entered, RunState.start]
  refine ⟨fun rank bounded => ⟨fun grid => placed grid rank bounded, fun grid => ?_, ?_,
    fun grid _ => inactive grid rank bounded, fun _ _ _ earlier => absurd earlier
      (Nat.not_lt_zero _)⟩, ?_, ?_⟩
  · exact parts grid rank bounded
  · intro grid statement last
    cases last
  · intro position grid offsetMin offsetMax diagonal reuse periodic i _
    refine ⟨fun _ => grids 0 0, ⟨?_, ?_, ?_, ?_⟩⟩
    · intro rank _ inside
      rw [outside] at inside
      cases inside
    · intro rank _ inside
      rw [outside] at inside
      cases inside
    · intro rank _ inside
      cases inside
    · intro others _
      rw [show (RunState.start grids bufs).exchange position = HaloExchange.start (grids 0)
        from rfl, HaloExchange.placed_start fun rank => outside position rank]
  · intro position grid call reuse i _
    refine ⟨fun _ => grids 0 0, fun _ => ⟨fun _ => 0, fun _ => 0, false, bufs 0 0⟩,
      ⟨?_, ?_, ?_, ?_, ?_, ?_, ?_⟩⟩
    · intro rank _ inside
      rw [outside] at inside
      cases inside
    · intro rank _ inside
      rw [outside] at inside
      cases inside
    · intro rank _ inside
      rw [outside] at inside
      cases inside
    · intro rank _ inside
      rw [outside] at inside
      cases inside
    · intro rank _ inside
      cases inside
    · intro rank _
      rw [outside]
      rfl
    · intro others otherCalls _
      rw [show (RunState.start grids bufs).load position =
        LoadState.start (grids 0) (bufs position) from rfl, LoadState.placed_start]

/-- A process has a statement behind it. -/
theorem RunState.Invariant.proceed
    (invariant : state.Invariant space elmSize size program wholes bufs)
    {grids : Nat → GridMPI α}
    (follows : RunProcess.Follows space elmSize size program wholes rank
      ⟨grids, (state.process rank).position + 1, false⟩)
    (entered : ∀ statement i,
      program[(state.process rank).position]? = some (.load statement i) →
        (state.process rank).inLoad = true) :
    (state.proceed rank grids).Invariant space elmSize size program wholes bufs := by
  have unchanged : ∀ other, ((state.proceed rank grids).process other).inLoad = true →
      (state.proceed rank grids).process other = state.process other := by
    intro other inside
    by_cases same : other = rank
    · subst same
      simp [RunState.proceed] at inside
    · simp [RunState.proceed, Function.update_of_ne same]
  have behind : ∀ {position statement i}, program[position]? = some (.load statement i) →
      (state.proceed rank grids).entered position = state.entered position := by
    intro position statement i loads
    refine RunState.entered_proceed fun here => ?_
    subst here
    exact RunState.entered_of_inLoad (entered statement i loads)
  refine ⟨fun other bounded => ?_, ?_, ?_⟩
  · by_cases same : other = rank
    · subst same
      rw [show (state.proceed other grids).process other =
        ⟨grids, (state.process other).position + 1, false⟩ from Function.update_self _ _ _]
      exact follows
    · rw [show (state.proceed rank grids).process other = state.process other from
        Function.update_of_ne same _ _]
      exact invariant.process other bounded
  · intro position grid offsetMin offsetMax diagonal reuse periodic i loads
    obtain ⟨first, exchanges⟩ := invariant.exchange position grid offsetMin offsetMax diagonal
      reuse periodic i loads
    exact ⟨first, exchanges.congr rfl (behind loads) fun other _ inside => unchanged other inside⟩
  · intro position grid call reuse i loads
    obtain ⟨first, calls, from_⟩ := invariant.load position grid call reuse i loads
    exact ⟨first, calls, from_.congr rfl (behind loads) fun other _ inside =>
      unchanged other inside⟩

/-- What a process does in a load is seen at its position only. -/
theorem RunState.Invariant.replace
    (invariant : state.Invariant space elmSize size program wholes bufs)
    (process : ∀ rank < space.numProcs,
      (after.process rank).Follows space elmSize size program wholes rank)
    {place : Nat}
    (entered : ∀ position, position ≠ place → after.entered position = state.entered position)
    (others : ∀ position, position ≠ place → ∀ rank, position = (after.process rank).position →
      (after.process rank).inLoad = true → after.process rank = state.process rank)
    (exchange : ∀ position, position ≠ place →
      after.exchange position = state.exchange position)
    (load : ∀ position, position ≠ place → after.load position = state.load position)
    (exchangeHere : ∀ grid offsetMin offsetMax diagonal reuse periodic i,
      program[place]? =
          some (.load (.loadNeighbor grid offsetMin offsetMax diagonal reuse periodic) i) →
        ∃ first, after.ExchangesFrom space elmSize size program wholes place grid
          (neighborExchange offsetMin offsetMax diagonal periodic) first)
    (loadHere : ∀ grid call reuse i,
      program[place]? = some (.load (.loadSubgridUniqueDim grid call reuse) i) →
        ∃ first calls, after.LoadsFrom space elmSize size program wholes bufs place grid call
          (reuse.value i) first calls) :
    after.Invariant space elmSize size program wholes bufs := by
  refine ⟨process, ?_, ?_⟩
  · intro position grid offsetMin offsetMax diagonal reuse periodic i loads
    by_cases here : position = place
    · subst here
      exact exchangeHere grid offsetMin offsetMax diagonal reuse periodic i loads
    · obtain ⟨first, exchanges⟩ := invariant.exchange position grid offsetMin offsetMax
        diagonal reuse periodic i loads
      exact ⟨first, exchanges.congr (exchange position here) (entered position here)
        (others position here)⟩
  · intro position grid call reuse i loads
    by_cases here : position = place
    · subst here
      exact loadHere grid call reuse i loads
    · obtain ⟨first, calls, from_⟩ := invariant.load position grid call reuse i loads
      exact ⟨first, calls, from_.congr (load position here) (entered position here)
        (others position here)⟩

section Entering

variable (invariant : state.Invariant space elmSize size program wholes bufs)

include invariant

/-- A process that enters a load keeps what it has. -/
theorem RunState.Invariant.process_enter {other : Nat} (bounded : other < space.numProcs) :
    ((state.enter rank).process other).Follows space elmSize size program wholes other := by
  have follows := invariant.process other bounded
  by_cases same : other = rank
  · subst same
    rw [show (state.enter other).process other =
      { state.process other with inLoad := true } from Function.update_self _ _ _]
    exact ⟨follows.placed, follows.parts, follows.loaded, follows.inactive, follows.fresh⟩
  · rwa [show (state.enter rank).process other = state.process other from
      Function.update_of_ne same _ _]

omit invariant in
theorem RunState.process_enter_of_ne
    {position : Nat} (elsewhere : position ≠ (state.process rank).position) (other : Nat)
    (here : position = ((state.enter rank).process other).position) :
    (state.enter rank).process other = state.process other := by
  refine Function.update_of_ne (fun same => elsewhere ?_) _ _
  subst same
  rw [here]
  simp [RunState.enter]

end Entering

/-- Every step in which no process takes a foreign message keeps the invariant. -/
theorem RunState.Invariant.step
    (dims : 0 < space.numDims) (small : space.numDims ≤ psMaxDim)
    (fits : ∀ grid, ∀ d < space.numDims, size grid d ≤ space.globalSize d)
    (sound : SoundProgram space elmSize size program)
    (invariant : state.Invariant space elmSize size program wholes bufs)
    (step : OwnStep space program state after) :
    after.Invariant space elmSize size program wholes bufs := by
  obtain ⟨event, step, isOwn⟩ := step
  cases step with
  | perform rank statement grids bounded next performed =>
      have follows := invariant.process rank bounded
      refine invariant.proceed ?_ fun load i loads => ?_
      · cases statement with
        | load load i => cases performed
        | runKernel map =>
            cases performed
            exact follows.runKernel bounded (sound.computes map (List.mem_of_getElem? next)) next
              (sound.readsSingle follows next)
        | gridSwap grid =>
            cases performed
            exact follows.gridSwap next
        | activateRemoteGrid grid active =>
            cases performed
            exact follows.activateRemoteGrid next
      · rw [RunState.next, loads, Option.some.injEq] at next
        subst next
        cases performed
  | enterExchange rank grid offsetMin offsetMax diagonal periodic reuse i bounded next outside
      path =>
      have follows := invariant.process rank bounded
      refine invariant.replace (fun other inner => invariant.process_enter inner)
        (fun position elsewhere => RunState.entered_enter.trans (if_neg elsewhere))
        (fun position elsewhere other here _ =>
          RunState.process_enter_of_ne elsewhere other here)
        (fun position elsewhere => Function.update_of_ne elsewhere _ _) (fun _ _ => rfl) ?_ ?_
      · intro _ _ _ _ _ _ _ loads
        have same := next.symm.trans loads
        cases same
        obtain ⟨first, exchanges⟩ := invariant.exchange _ _ _ _ _ _ _ _ next
        exact ⟨_, exchanges.enter follows outside⟩
      · intro _ _ _ _ loads
        have same := next.symm.trans loads
        cases same
  | goExchange rank grid offsetMin offsetMax diagonal periodic reuse i later bounded next inside
      step =>
      refine invariant.replace invariant.process (fun _ _ => rfl) (fun _ _ _ _ _ => rfl)
        (fun position elsewhere => Function.update_of_ne elsewhere _ _) (fun _ _ => rfl) ?_ ?_
      · intro _ _ _ _ _ _ _ loads
        have same := next.symm.trans loads
        cases same
        obtain ⟨first, exchanges⟩ := invariant.exchange _ _ _ _ _ _ _ _ next
        exact ⟨_, exchanges.go bounded inside step⟩
      · intro _ _ _ _ loads
        have same := next.symm.trans loads
        cases same
  | leaveExchange rank grid offsetMin offsetMax diagonal periodic reuse i bounded next inside
      done =>
      obtain ⟨first, exchanges⟩ := invariant.exchange _ _ _ _ _ _ _ _ next
      exact invariant.proceed (exchanges.leave small fits invariant.process bounded inside
        (sound.works _ _ _ _ _ _ _ (List.mem_of_getElem? next)) next done)
        fun _ _ _ => inside
  | enterSubgrid rank grid call reuse i own bounded next outside region flag =>
      have follows := invariant.process rank bounded
      refine invariant.replace (fun other inner => invariant.process_enter inner)
        (fun position elsewhere => RunState.entered_enter.trans (if_neg elsewhere))
        (fun position elsewhere other here _ =>
          RunState.process_enter_of_ne elsewhere other here)
        (fun _ _ => rfl) (fun position elsewhere => Function.update_of_ne elsewhere _ _) ?_ ?_
      · intro _ _ _ _ _ _ _ loads
        have same := next.symm.trans loads
        cases same
      · intro _ _ _ _ loads
        have same := next.symm.trans loads
        cases same
        obtain ⟨first, calls, from_⟩ := invariant.load _ _ _ _ _ next
        exact ⟨_, _, from_.enter bounded follows outside region flag⟩
  | goSubgrid rank grid call reuse i later bounded next inside step =>
      refine invariant.replace invariant.process (fun _ _ => rfl) (fun _ _ _ _ _ => rfl)
        (fun _ _ => rfl) (fun position elsewhere => Function.update_of_ne elsewhere _ _) ?_ ?_
      · intro _ _ _ _ _ _ _ loads
        have same := next.symm.trans loads
        cases same
      · intro _ _ _ _ loads
        have same := next.symm.trans loads
        cases same
        obtain ⟨first, calls, from_⟩ := invariant.load _ _ _ _ _ next
        exact ⟨_, _, from_.go bounded inside step⟩
  | leaveSubgrid rank grid call reuse i bounded next inside returned =>
      have follows := invariant.process rank bounded
      obtain ⟨first, calls, from_⟩ := invariant.load _ _ _ _ _ next
      have entered := RunState.entered_of_inLoad inside
      have current := from_.current rank rfl inside
      have region := from_.regions rank bounded entered
      rw [current] at region
      refine invariant.proceed (from_.leave small fits invariant.process bounded inside dims
        next ?_ ?_ returned) fun _ _ _ => inside
      · intro skips
        obtain ⟨unwritten, fresh⟩ := sound.freshCopy_of_skips follows next region
          (from_.flags rank bounded entered) skips
        rwa [singleRun_of_not_writes fun other member =>
          unwritten other (List.mem_of_mem_take member)]
      · intro _
        rcases sound.found _ _ _ _ _ next with inactive | ⟨earlier, last⟩
        · exact .inl (follows.inactive grid inactive)
        · refine .inr (LoadStatement.loaded_congr ?_ (follows.loaded grid _ last))
          rfl
  | takeForeign => exact absurd rfl isOwn

end Programs

end Physis.Runtime
