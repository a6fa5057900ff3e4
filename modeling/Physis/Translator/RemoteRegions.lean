import Physis.Translator.HaloFreeKernels

/-!
# Loads in the body of a run

Before the kernel of a map runs, the grids its kernel reads are loaded.  The
statements that do so are emitted once for each map, inside the loop over the
iterations.  For a grid parameter that this map's kernel only reads they allow
to reuse what an earlier iteration has loaded.
-/

namespace Physis.Translator

open Physis.Runtime

/-- The `reuse` argument of a load: the constant zero, or `i > 0`. -/
inductive ReuseArgument where
  | zero
  | laterIterations
deriving DecidableEq, Repr

/-- The value of the argument in iteration `i`. -/
def ReuseArgument.value (i : Nat) : ReuseArgument → Bool
  | .zero => false
  | .laterIterations => decide (0 < i)

/-- A load in the body of a run, with the grid its stencil member points to. -/
inductive LoadStatement where
  | loadNeighbor (grid : Nat) (offsetMin offsetMax : IndexArray)
      (diagonal : Bool) (reuse : ReuseArgument) (periodic : Bool)
  | loadSubgridUniqueDim (grid : Nat) (call : SubgridCall) (reuse : ReuseArgument)
  | loadSubgrid (grid : Nat) (range : StencilRange) (reuse : ReuseArgument)

namespace LoadStatement

/-- The grid that is loaded. -/
def grid : LoadStatement → Nat
  | .loadNeighbor grid _ _ _ _ _ => grid
  | .loadSubgridUniqueDim grid _ _ => grid
  | .loadSubgrid grid _ _ => grid

/-- The statement but for its `reuse` argument. -/
def withoutReuse : LoadStatement → LoadStatement
  | .loadNeighbor grid offsetMin offsetMax diagonal _ periodic =>
      .loadNeighbor grid offsetMin offsetMax diagonal .zero periodic
  | .loadSubgridUniqueDim grid call _ => .loadSubgridUniqueDim grid call .zero
  | .loadSubgrid grid range _ => .loadSubgrid grid range .zero

/-- The grid parameter if the statement puts it on the list `remote_grids`. -/
def remoteGrid : LoadStatement → Option Nat
  | .loadNeighbor .. => none
  | .loadSubgridUniqueDim grid _ _ => some grid
  | .loadSubgrid grid _ _ => some grid

end LoadStatement

/-- A grid parameter of a map: what its kernel does with it, and its grid. -/
structure MapParam extends GridParam where
  grid : Nat
  /-- `isGridParamRead` -/
  isRead : Bool
  /-- `isGridParamWritten` -/
  isWritten : Bool
  /-- `IsNeighborAccessDiagonalAccessed` -/
  diagonal : Bool
  /-- `IsGridPeriodic` -/
  periodic : Bool

namespace MapParam

variable (param : MapParam)

/-- Read-only grids are loaded just once at the beginning of the loop. -/
def reuse : ReuseArgument :=
  if param.isWritten then .zero else .laterIterations

/-- The parameter is read, and not as a neighbour stencil of the map's dimensions. -/
def loadsSubgrid (mapDims : Nat) : Bool :=
  param.isRead && !(param.range.isNeighborAccess &&
    decide (param.range.numDims = mapDims))

/--
`GenerateLoadRemoteGridRegion` on one grid parameter; `none` where an assertion
fails.
-/
def loadStatements (mapDims : Nat) : Option (List LoadStatement) :=
  if param.isRead = false then some []
  else if param.range.isNeighborAccess = true ∧ param.range.numDims = mapDims then
    if param.range.isZero = true then some []
    else
      some [.loadNeighbor param.grid
        (fun i => if i < param.range.numDims then
          (front (param.range.minIndices i)).offset else 0)
        (fun i => if i < param.range.numDims then
          (front (param.range.maxIndices i)).offset else 0)
        param.diagonal param.reuse param.periodic]
  else if param.periodic = true then none
  else if param.range.isUniqueDim = true then
    (buildCallLoadSubgridUniqueDim param.range).map fun call =>
      [.loadSubgridUniqueDim param.grid call param.reuse]
  else some [.loadSubgrid param.grid param.range param.reuse]

end MapParam

/-- `GenerateLoadRemoteGridRegion` -/
def generateLoadRemoteGridRegion (mapDims : Nat) :
    List MapParam → Option (List LoadStatement)
  | [] => some []
  | param :: rest => do
      let statements ← param.loadStatements mapDims
      let others ← generateLoadRemoteGridRegion mapDims rest
      return statements ++ others

section Statements

variable {mapDims : Nat} {params : List MapParam} {loads : List LoadStatement}

/-- Every statement is that of a parameter. -/
theorem exists_param_of_mem_loads
    (generated : generateLoadRemoteGridRegion mapDims params = some loads)
    {statement : LoadStatement} (member : statement ∈ loads) :
    ∃ param ∈ params, ∃ statements,
      param.loadStatements mapDims = some statements ∧ statement ∈ statements := by
  induction params generalizing loads with
  | nil =>
      cases generated
      cases member
  | cons param rest induction =>
      simp only [generateLoadRemoteGridRegion, Option.bind_eq_bind,
        Option.bind_eq_some_iff, Option.pure_def, Option.some.injEq] at generated
      obtain ⟨statements, own, others, isOthers, rfl⟩ := generated
      rcases List.mem_append.mp member with first | later
      · exact ⟨param, by simp, statements, own, first⟩
      · obtain ⟨other, listed, found⟩ := induction isOthers later
        exact ⟨other, by simp [listed], found⟩

/-- The statements of every parameter are there. -/
theorem mem_loads_of_param
    (generated : generateLoadRemoteGridRegion mapDims params = some loads)
    {param : MapParam} (listed : param ∈ params) {statements : List LoadStatement}
    (own : param.loadStatements mapDims = some statements) {statement : LoadStatement}
    (member : statement ∈ statements) : statement ∈ loads := by
  induction params generalizing loads with
  | nil => cases listed
  | cons first rest induction =>
      simp only [generateLoadRemoteGridRegion, Option.bind_eq_bind,
        Option.bind_eq_some_iff, Option.pure_def, Option.some.injEq] at generated
      obtain ⟨firsts, isFirsts, others, isOthers, rfl⟩ := generated
      rcases List.mem_cons.mp listed with rfl | later
      · rw [own] at isFirsts
        cases isFirsts
        exact List.mem_append_left _ member
      · exact List.mem_append_right _ (induction isOthers later)

/-- A parameter is loaded by statements on its own grid. -/
theorem MapParam.grid_of_mem_loadStatements
    {param : MapParam} {statements : List LoadStatement}
    (own : param.loadStatements mapDims = some statements) {statement : LoadStatement}
    (member : statement ∈ statements) : statement.grid = param.grid := by
  rw [MapParam.loadStatements] at own
  split at own
  · cases own
    cases member
  · split at own
    · split at own
      · cases own
        cases member
      · cases own
        rw [List.mem_singleton.mp member]
        rfl
    · split at own
      · cases own
      · split at own
        · obtain ⟨call, -, rfl⟩ := Option.map_eq_some_iff.mp own
          rw [List.mem_singleton.mp member]
          rfl
        · cases own
          rw [List.mem_singleton.mp member]
          rfl

/-- A subgrid is loaded for such a parameter, with its grid and its stencil range. -/
theorem param_of_loadSubgridUniqueDim
    (generated : generateLoadRemoteGridRegion mapDims params = some loads)
    {grid : Nat} {call : SubgridCall} {reuse : ReuseArgument}
    (member : .loadSubgridUniqueDim grid call reuse ∈ loads) :
    ∃ param ∈ params, param.loadsSubgrid mapDims = true ∧ param.grid = grid ∧
      param.range.arguments = call ∧ param.reuse = reuse := by
  obtain ⟨param, listed, statements, own, inside⟩ :=
    exists_param_of_mem_loads generated member
  refine ⟨param, listed, ?_⟩
  rw [MapParam.loadStatements] at own
  split at own
  · cases own
    cases inside
  · rename_i isRead
    split at own
    · split at own
      · cases own
        cases inside
      · cases own
        simp at inside
    · rename_i remote
      split at own
      · cases own
      · split at own
        · obtain ⟨built, isBuilt, rfl⟩ := Option.map_eq_some_iff.mp own
          rw [buildCallLoadSubgridUniqueDim] at isBuilt
          split at isBuilt
          · cases isBuilt
            simp only [List.mem_singleton, LoadStatement.loadSubgridUniqueDim.injEq]
              at inside
            refine ⟨?_, inside.1.symm, inside.2.1.symm, inside.2.2.symm⟩
            rw [MapParam.loadsSubgrid]
            cases neighbor : param.range.isNeighborAccess with
            | false => simpa using isRead
            | true => simpa [isRead] using fun same => remote ⟨neighbor, same⟩
          · cases isBuilt
        · cases own
          simp at inside

end Statements

end Physis.Translator
