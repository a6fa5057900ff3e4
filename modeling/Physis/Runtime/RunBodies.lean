import Physis.Runtime.RunSteps

/-!
# The statements of a run

What the run body has before one of its loads or kernels: the iterations before,
the maps before in the same iteration, and some loads of the map itself.  Between
two maps no remote grid is active, and a map that loads each grid in one way finds
at its kernel what it has loaded.

Whether a load is left out in later iterations is decided for each map alone.  If
no map of the run writes such a grid, the order of the statements is sound.
-/

namespace Physis.Runtime

open Physis.Library
open Physis.Library.RowMajor
open Physis.Library.Runs
open Physis.Translator

variable {α : Type}

/-! ## Statements of a run -/

/-- An element of a list of lists, with the elements before it. -/
theorem exists_of_getElem?_flatMap
    {β γ : Type} {f : β → List γ} {list : List β} {position : Nat} {element : γ}
    (found : (list.flatMap f)[position]? = some element) :
    ∃ before inner after, list = before ++ inner :: after ∧
      ∃ index, (f inner)[index]? = some element ∧
        (list.flatMap f).take position = before.flatMap f ++ (f inner).take index := by
  induction list generalizing position with
  | nil => simp at found
  | cons first rest induction =>
      rw [List.flatMap_cons] at found ⊢
      by_cases here : position < (f first).length
      · rw [List.getElem?_append_left here] at found
        exact ⟨[], first, rest, rfl, position, found, by
          rw [List.take_append_of_le_length here.le]
          rfl⟩
      · rw [List.getElem?_append_right (by omega)] at found
        obtain ⟨before, inner, after, rfl, index, isElement, taken⟩ := induction found
        refine ⟨first :: before, inner, after, rfl, index, isElement, ?_⟩
        rw [List.take_append, List.take_of_length_le (by omega), taken, List.flatMap_cons,
          List.append_assoc]

/-- The elements of a range before one of them. -/
theorem eq_range_of_split
    {count i : Nat} {before after : List Nat} (split : List.range count = before ++ i :: after) :
    i < count ∧ before = List.range i := by
  have length := congrArg List.length split
  rw [List.length_range, List.length_append, List.length_cons] at length
  have at_ : (List.range count)[before.length]? = some i := by
    rw [split, List.getElem?_append_right le_rfl, Nat.sub_self]
    rfl
  rw [List.getElem?_range (by omega), Option.some.injEq] at at_
  subst at_
  refine ⟨by omega, ?_⟩
  have taken := congrArg (List.take before.length) split
  rwa [List.take_left, List.take_range, min_eq_left (by omega), eq_comm] at taken

section Bodies

variable {maps earlier : List (StencilMap α)} {done : List LoadStatement} {i iter : Nat}

/--
The statements of a run up to iteration `i`, there up to some map, and there up
to some load.
-/
def runBefore
    (maps : List (StencilMap α)) (i : Nat) (earlier : List (StencilMap α))
    (done : List LoadStatement) : List (RunStatement α) :=
  runBody maps i ++ runIteration earlier i ++ done.map fun statement => .load statement i

/-- A statement of a run, with the statements before it. -/
theorem exists_map_of_getElem?
    {position : Nat} {statement : RunStatement α}
    (next : (runBody maps iter)[position]? = some statement) :
    ∃ i < iter, ∃ earlier map later, maps = earlier ++ map :: later ∧
      ∃ index, (map.statements i)[index]? = some statement ∧
        (runBody maps iter).take position =
          runBody maps i ++ runIteration earlier i ++ (map.statements i).take index := by
  obtain ⟨before, i, after, split, inner, inIteration, taken⟩ :=
    exists_of_getElem?_flatMap next
  obtain ⟨below, rfl⟩ := eq_range_of_split split
  obtain ⟨earlier, map, later, isMap, index, inMap, takenMaps⟩ :=
    exists_of_getElem?_flatMap inIteration
  refine ⟨i, below, earlier, map, later, isMap, index, inMap, ?_⟩
  rw [runBody, taken, runIteration, takenMaps, List.append_assoc]
  rfl

/-- A load of a run. -/
theorem exists_load_of_getElem?
    {position j : Nat} {load : LoadStatement}
    (next : (runBody maps iter)[position]? = some (.load load j)) :
    j < iter ∧ ∃ earlier map later done todo, maps = earlier ++ map :: later ∧
      map.loads = done ++ load :: todo ∧
        (runBody maps iter).take position = runBefore maps j earlier done := by
  obtain ⟨i, below, earlier, map, later, isMap, index, inMap, taken⟩ :=
    exists_map_of_getElem? next
  rw [StencilMap.statements] at inMap taken
  by_cases isLoad : index < map.loads.length
  · rw [List.getElem?_append_left (by simpa using isLoad), List.getElem?_map,
      List.getElem?_eq_getElem isLoad, Option.map_some, Option.some.injEq] at inMap
    cases inMap
    refine ⟨below, earlier, map, later, map.loads.take index, map.loads.drop (index + 1),
      isMap, ?_, ?_⟩
    · rw [List.getElem_cons_drop, List.take_append_drop]
    · rw [taken, List.take_append_of_le_length (by simpa using isLoad.le), ← List.map_take]
      rfl
  · -- no statement after the loads is one
    rw [List.getElem?_append_right (by simpa using isLoad)] at inMap
    have member := List.mem_of_getElem? inMap
    simp at member

/-- A kernel of a run. -/
theorem exists_kernel_of_getElem?
    {position : Nat} {map : StencilMap α}
    (next : (runBody maps iter)[position]? = some (.runKernel map)) :
    ∃ i < iter, ∃ earlier later, maps = earlier ++ map :: later ∧
      (runBody maps iter).take position = runBefore maps i earlier map.loads := by
  obtain ⟨i, below, earlier, found, later, isMap, index, inMap, taken⟩ :=
    exists_map_of_getElem? next
  rw [StencilMap.statements] at inMap taken
  by_cases isLoad : index < found.loads.length
  · rw [List.getElem?_append_left (by simpa using isLoad), List.getElem?_map,
      List.getElem?_eq_getElem isLoad] at inMap
    cases inMap
  · rw [List.getElem?_append_right (by simpa using isLoad), List.length_map] at inMap
    rcases Nat.eq_zero_or_pos (index - found.loads.length) with first | more
    · rw [first] at inMap
      cases inMap
      refine ⟨i, below, earlier, later, isMap, ?_⟩
      rw [taken, List.take_append, List.length_map, first, List.take_zero, List.append_nil,
        List.take_of_length_le (by simp; omega)]
      rfl
    · rw [show index - found.loads.length = index - found.loads.length - 1 + 1 by omega,
        List.getElem?_cons_succ] at inMap
      have member := List.mem_of_getElem? inMap
      simp at member

/-- Only maps of the run write. -/
theorem writes_of_mem_runBody
    {grid : Nat} {statement : RunStatement α} (member : statement ∈ runBody maps iter)
    (writes : statement.Writes grid) : ∃ map ∈ maps, grid ∈ map.writtenGrids := by
  obtain ⟨i, -, iteration⟩ := List.mem_flatMap.mp member
  obtain ⟨map, listed, inside⟩ := List.mem_flatMap.mp iteration
  refine ⟨map, listed, ?_⟩
  rw [StencilMap.statements] at inside
  rcases List.mem_append.mp inside with loads | rest
  · obtain ⟨_, -, rfl⟩ := List.mem_map.mp loads
    exact writes.elim
  · rcases List.mem_cons.mp rest with rfl | rest
    · exact writes
    · rcases List.mem_append.mp rest with swaps | deactivated
      · obtain ⟨other, written, rfl⟩ := List.mem_map.mp swaps
        rw [← show other = grid from writes]
        exact written
      · obtain ⟨_, -, rfl⟩ := List.mem_map.mp deactivated
        exact writes.elim

/-- In a later iteration every load of a map has been executed in the first one. -/
theorem first_load_mem_runBefore
    (later : 0 < i) {map : StencilMap α} (listed : map ∈ maps)
    {statement : LoadStatement} (loads : statement ∈ map.loads) :
    .load statement 0 ∈ runBefore maps i earlier done := by
  rw [runBefore, runBody, List.append_assoc]
  refine List.mem_append_left _ (List.mem_flatMap.mpr ⟨0, by simpa using later, ?_⟩)
  refine List.mem_flatMap.mpr ⟨map, listed, List.mem_append_left _ ?_⟩
  exact List.mem_map.mpr ⟨statement, loads, rfl⟩

/-! ## Loads before a statement -/

/-- After the loads of a map each grid loaded has one of them. -/
theorem lastLoads_append
    (program : List (RunStatement α)) {grid : Nat}
    (loads : ∃ statement ∈ done, statement.grid = grid) :
    ∃ last ∈ done, last.grid = grid ∧
      lastLoads (program ++ done.map fun statement => .load statement i) grid = some last := by
  induction done using List.reverseRecOn with
  | nil =>
      obtain ⟨_, member, -⟩ := loads
      cases member
  | append_singleton done statement induction =>
      rw [List.map_append, ← List.append_assoc, lastLoads, List.foldl_append, ← lastLoads]
      show ∃ last ∈ done ++ [statement], last.grid = grid ∧
        Function.update (lastLoads (program ++ done.map fun load => .load load i))
          statement.grid (some statement) grid = some last
      by_cases same : statement.grid = grid
      · subst same
        exact ⟨statement, by simp, rfl, Function.update_self _ _ _⟩
      · obtain ⟨other, member, isGrid⟩ := loads
        have before : other ∈ done := by
          rcases List.mem_append.mp member with inside | last
          · exact inside
          · rw [List.mem_singleton.mp last] at isGrid
            exact absurd isGrid same
        obtain ⟨last, isLast, ofGrid, has⟩ := induction ⟨other, before, isGrid⟩
        refine ⟨last, by simp [isLast], ofGrid, ?_⟩
        rw [Function.update_of_ne fun equal => same equal.symm]
        exact has

/-- Loads make active what they put on the list of remote grids. -/
theorem activeGrids_append
    (program : List (RunStatement α)) {grid : Nat}
    (inactive : activeGrids program grid = false)
    (apart : grid ∉ done.filterMap LoadStatement.remoteGrid) :
    activeGrids (program ++ done.map fun statement => .load statement i) grid = false := by
  induction done generalizing program with
  | nil => simpa using inactive
  | cons statement rest induction =>
      rw [List.map_cons, ← List.singleton_append, ← List.append_assoc]
      refine induction _ ?_ fun member => apart ?_
      · rw [activeGrids, List.foldl_append, ← activeGrids]
        rw [List.foldl_cons, List.foldl_nil]
        cases remote : statement.remoteGrid with
        | none =>
            simp only [RunStatement.mayBeActive, remote]
            exact inactive
        | some other =>
            simp only [RunStatement.mayBeActive, remote]
            rw [Function.update_of_ne]
            · exact inactive
            · rintro rfl
              exact apart (by simp [remote])
      · rw [List.filterMap_cons]
        split
        · exact member
        · exact List.mem_cons_of_mem _ member

/-- A map leaves no remote grid active. -/
theorem activeGrids_statements
    (program : List (RunStatement α)) (map : StencilMap α)
    (inactive : ∀ grid, activeGrids program grid = false) (grid : Nat) :
    activeGrids (program ++ map.statements i) grid = false := by
  have deactivates : ∀ (grids : List Nat) (active : Nat → Bool),
      (active grid = true → grid ∈ grids) →
        (grids.map fun other => (.activateRemoteGrid other false : RunStatement α)).foldl
          RunStatement.mayBeActive active grid = false := by
    intro grids
    induction grids with
    | nil =>
        intro active covered
        by_contra still
        exact absurd (covered (by simpa using still)) List.not_mem_nil
    | cons first rest induction =>
        intro active covered
        rw [List.map_cons, List.foldl_cons]
        refine induction _ fun still => ?_
        simp only [RunStatement.mayBeActive] at still
        by_cases same : grid = first
        · subst same
          simp at still
        · rw [Function.update_of_ne same] at still
          exact (List.mem_cons.mp (covered still)).resolve_left same
  have swaps : ∀ (grids : List Nat) (active : Nat → Bool),
      (grids.map fun other => (.gridSwap other : RunStatement α)).foldl
        RunStatement.mayBeActive active = active := by
    intro grids
    induction grids with
    | nil => exact fun _ => rfl
    | cons first rest induction => exact fun active => induction active
  rw [StencilMap.statements, ← List.append_assoc, activeGrids, List.foldl_append,
    List.foldl_cons, List.foldl_append, ← activeGrids]
  refine deactivates _ _ fun still => ?_
  rw [swaps] at still
  by_contra absent
  rw [RunStatement.mayBeActive, activeGrids_append program (inactive grid) absent] at still
  cases still

theorem activeGrids_runIteration
    (program : List (RunStatement α)) (maps : List (StencilMap α))
    (inactive : ∀ grid, activeGrids program grid = false) :
    ∀ grid, activeGrids (program ++ runIteration maps i) grid = false := by
  induction maps generalizing program with
  | nil => simpa [runIteration] using inactive
  | cons map rest induction =>
      rw [runIteration, List.flatMap_cons, ← List.append_assoc]
      exact induction _ (activeGrids_statements program map inactive)

/-- Between two maps no remote grid is active. -/
theorem activeGrids_runBody (maps : List (StencilMap α)) (iter : Nat) :
    ∀ grid, activeGrids (runBody maps iter) grid = false := by
  induction iter with
  | zero => exact fun _ => rfl
  | succ iter induction =>
      rw [runBody, List.range_succ, List.flatMap_append, List.flatMap_singleton, ← runBody]
      exact activeGrids_runIteration _ maps induction

end Bodies

/-! ## Maps that go together -/

/--
The loads of a map are not at odds: a grid is loaded in one way, and a grid that
is read without a remote copy has none.
-/
structure StencilMap.LoadsAlike (map : StencilMap α) : Prop where
  alike : ∀ load ∈ map.loads, ∀ other ∈ map.loads, load.grid = other.grid →
    load.withoutReuse = other.withoutReuse
  apart : ∀ param ∈ map.params, param.isRead = true →
    param.loadsSubgrid map.numDims = false →
      param.grid ∉ map.loads.filterMap LoadStatement.remoteGrid

/-- The neighbours of a process have the halos that the loads of a map ask for. -/
def StencilMap.NeighborsReach
    (space : GridSpaceMPI) (grids : RunGrids α) (map : StencilMap α) : Prop :=
  ∀ grid offsetMin offsetMax diagonal reuse periodic,
    .loadNeighbor grid offsetMin offsetMax diagonal reuse periodic ∈ map.loads →
      HaloExchange.Sourced (neighborExchange offsetMin offsetMax diagonal periodic) space
          (grids grid) ∧
        HaloExchange.SlabsInside (neighborExchange offsetMin offsetMax diagonal periodic)
          space (grids grid)

/--
In a run of several iterations, a grid that a map loads with `LoadSubgrid` and
does not write is written by no map.
-/
def ReusesUnwritten (maps : List (StencilMap α)) (iter : Nat) : Prop :=
  1 < iter → ∀ map ∈ maps, ∀ param ∈ map.params,
    param.loadsSubgrid map.numDims = true → param.isWritten = false →
      ∀ other ∈ maps, param.grid ∉ other.writtenGrids

section Places

variable
    {space : GridSpaceMPI} {bytes rank : Nat} {extent : IndexArray} {part other : GridMPI α}

/-- Parts of a grid at one place have the same shape. -/
theorem Decomposed.sameShape
    (own : Decomposed space bytes extent (fun _ => 0) rank part)
    (otherOwn : Decomposed space bytes extent (fun _ => 0) rank other) :
    SameShape part other where
  elmSize := otherOwn.elmSize.trans own.elmSize.symm
  numDims := otherOwn.numDims.trans own.numDims.symm
  size := otherOwn.size.trans own.size.symm
  localOffset := otherOwn.localOffset.trans own.localOffset.symm
  localSize := otherOwn.localSize.trans own.localSize.symm

theorem Decomposed.empty_eq
    (own : Decomposed space bytes extent (fun _ => 0) rank part)
    (otherOwn : Decomposed space bytes extent (fun _ => 0) rank other) :
    other.empty = part.empty := by
  have shape := own.sameShape otherOwn
  rw [own.empty, otherOwn.empty, shape.localSize, shape.numDims]

/-- Whether an exchange works depends on the places of the subgrids. -/
theorem exchangeWorks_congr
    {exchange : HaloExchange} {parts others : Nat → GridMPI α}
    (placed : ∀ rank < space.numProcs,
      Decomposed space bytes extent (fun _ => 0) rank (parts rank))
    (distributed : Distributed space bytes extent (fun _ => 0) others)
    (sourced : HaloExchange.Sourced exchange space parts)
    (slabs : HaloExchange.SlabsInside exchange space parts) :
    HaloExchange.Sourced exchange space others ∧
      HaloExchange.SlabsInside exchange space others := by
  have shape (rank : Nat) (bounded : rank < space.numProcs) :=
    (placed rank bounded).sameShape (distributed.decomposed rank bounded)
  have empty (rank : Nat) (bounded : rank < space.numProcs) :=
    (placed rank bounded).empty_eq (distributed.decomposed rank bounded)
  constructor
  · intro rank bounded occupied dim below dir receives
    rw [empty _ (space.neighbor_lt rank below dir)]
    refine sourced rank bounded (by rwa [← empty rank bounded]) dim below dir ?_
    rw [← receives, HaloExchange.receives, HaloExchange.receives,
      (shape rank bounded).continues]
  · intro rank bounded occupied dim below dir sends
    rw [(shape rank bounded).localSize]
    refine slabs rank bounded (by rwa [← empty rank bounded]) dim below dir ?_
    rw [← sends, HaloExchange.sends, HaloExchange.sends, (shape rank bounded).continues]

end Places

section Soundness

variable {maps : List (StencilMap α)} {iter : Nat}

/-- A load that is left out in later iterations is of a grid that no map writes. -/
theorem ReusesUnwritten.not_writes
    (reuses : ReusesUnwritten maps iter) (several : 1 < iter) {map : StencilMap α}
    (listed : map ∈ maps) {grid : Nat} {call : SubgridCall}
    (loads : .loadSubgridUniqueDim grid call .laterIterations ∈ map.loads) :
    ∀ statement ∈ runBody maps iter, ¬statement.Writes grid := by
  intro statement member writes
  obtain ⟨other, otherListed, written⟩ := writes_of_mem_runBody member writes
  obtain ⟨param, isParam, loaded, rfl, -, reuse⟩ :=
    param_of_loadSubgridUniqueDim map.generated loads
  refine reuses several map listed param isParam loaded ?_ other otherListed written
  rw [MapParam.reuse] at reuse
  split at reuse
  · cases reuse
  · rename_i readOnly
    simpa using readOnly

variable
    {space : GridSpaceMPI} {elmSize : Nat → Nat} {size : Nat → IndexArray}
    {grids : RunGrids α}

/-- The order of the statements of a run is sound. -/
theorem soundProgram_runBody
    (placed : ∀ grid, ∀ rank < space.numProcs,
      Decomposed space (elmSize grid) (size grid) (fun _ => 0) rank (grids grid rank))
    (reuses : ReusesUnwritten maps iter)
    (alike : ∀ map ∈ maps, map.LoadsAlike)
    (neighbors : ∀ map ∈ maps, map.NeighborsReach space grids)
    (computes : ∀ map ∈ maps, map.Computes space elmSize size) :
    SoundProgram space elmSize size (runBody maps iter) where
  works grid offsetMin offsetMax diagonal reuse periodic i member others distributed := by
    obtain ⟨position, next⟩ := List.mem_iff_getElem?.mp member
    obtain ⟨-, earlier, map, later, done, todo, rfl, isLoad, -⟩ :=
      exists_load_of_getElem? next
    obtain ⟨sourced, slabs⟩ := neighbors map (by simp) grid offsetMin offsetMax diagonal
      reuse periodic (by simp [isLoad])
    exact exchangeWorks_congr (placed grid) distributed sourced slabs
  computes map member := by
    obtain ⟨position, next⟩ := List.mem_iff_getElem?.mp member
    obtain ⟨i, -, earlier, later, rfl, -⟩ := exists_kernel_of_getElem? next
    exact computes map (by simp)
  reused position grid call reuse i next later := by
    obtain ⟨below, earlier, map, rest, done, todo, isMap, isLoad, taken⟩ :=
      exists_load_of_getElem? next
    have listed : map ∈ maps := by simp [isMap]
    have member : .loadSubgridUniqueDim grid call reuse ∈ map.loads := by simp [isLoad]
    cases reuse with
    | zero => cases later
    | laterIterations =>
        have positive : 0 < i := by simpa [ReuseArgument.value] using later
        refine ⟨reuses.not_writes (by omega) listed member, ?_⟩
        -- the first iteration has this load
        have first : .load (.loadSubgridUniqueDim grid call .laterIterations) 0 ∈
            runBefore maps i earlier done := first_load_mem_runBefore positive listed member
        rw [← taken] at first
        obtain ⟨before, found⟩ := List.mem_iff_getElem?.mp first
        rw [List.getElem?_take] at found
        split at found
        · rename_i earlier
          exact ⟨before, earlier, _, 0, found⟩
        · cases found
  found position grid call reuse i next := by
    obtain ⟨-, earlier, map, rest, done, todo, isMap, isLoad, taken⟩ :=
      exists_load_of_getElem? next
    have own := (alike map (by simp [isMap])).alike
    rw [taken, runBefore]
    by_cases again : ∃ load ∈ done, load.grid = grid
    · right
      obtain ⟨last, isDone, ofGrid, has⟩ := lastLoads_append (i := i)
        (runBody maps i ++ runIteration earlier i) again
      have same := own last (by simp [isLoad, isDone])
        (.loadSubgridUniqueDim grid call reuse) (by simp [isLoad]) ofGrid
      cases last with
      | loadNeighbor => cases same
      | loadSubgridUniqueDim named other otherReuse =>
          cases same
          exact ⟨otherReuse, has⟩
      | loadSubgrid => cases same
    · left
      refine activeGrids_append _
        (activeGrids_runIteration _ earlier (activeGrids_runBody maps i) grid) fun member => ?_
      obtain ⟨load, isDone, remote⟩ := List.mem_filterMap.mp member
      refine again ⟨load, isDone, ?_⟩
      cases load <;> cases remote <;> rfl
  reads position map next param isParam isRead := by
    obtain ⟨i, -, earlier, later, isMap, taken⟩ := exists_kernel_of_getElem? next
    have own := alike map (by simp [isMap])
    rw [taken, runBefore]
    constructor
    · intro statements isOwn statement member
      have isLoad := mem_loads_of_param map.generated isParam isOwn member
      have ofGrid := MapParam.grid_of_mem_loadStatements isOwn member
      obtain ⟨last, isLast, lastGrid, has⟩ := lastLoads_append (i := i)
        (runBody maps i ++ runIteration earlier i) ⟨statement, isLoad, ofGrid⟩
      exact ⟨last, has, own.alike last isLast statement isLoad
        (lastGrid.trans ofGrid.symm)⟩
    · intro subgrid
      exact activeGrids_append _
        (activeGrids_runIteration _ earlier (activeGrids_runBody maps i) _)
        (own.apart param isParam isRead subgrid)

end Soundness

end Physis.Runtime
