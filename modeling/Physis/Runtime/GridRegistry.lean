import Physis.Library.FallibleMaps
import Physis.Runtime.Neighbors

/-!
# The grid registry

Every process keeps its grids in a map from ids to grid objects.  An id is not
part of a request that creates a grid: each process takes it from a counter of
its own, an unsigned machine integer.  The registry, the requests the master
broadcasts, and what the master and a client do to their registries are
translated here.
-/

namespace Physis.Runtime

open Physis.Library

/-- `PSPrimitiveType` -/
inductive PSType where
  | psInt
  | psLong
  | psFloat
  | psDouble
deriving DecidableEq, Repr

/-- `Counter` -/
structure Counter where
  v : BitVec 32
deriving DecidableEq, Repr

/-- `Counter::next` -/
def Counter.next (counter : Counter) : BitVec 32 × Counter :=
  (counter.v, ⟨counter.v + 1⟩)

/-- `RequestNEW` -/
structure RequestNEW where
  type : PSType
  elmSize : Nat
  numDims : Nat
  size : IndexArray
  doubleBuffering : Bool
  globalOffset : IndexArray
  attr : Int

/-- The members of a grid object that its creation sets, except the buffers. -/
structure Grid where
  id : Int
  type : PSType
  elmSize : Nat
  numDims : Nat
  size : IndexArray
  doubleBuffering : Bool
  globalOffset : IndexArray
  attr : Int
  localOffset : IndexArray
  localSize : IndexArray

/--
The registry of one process.  `heap` holds the grid objects that exist, by
pointer; `grids` is `grids_`, the map from ids to pointers.
-/
structure GridSpace where
  gridCounter : Counter
  grids : Int → Option Nat
  heap : Nat → Option Grid
  allocated : Nat

/-- What `NotifyCall` and the broadcasts after it tell the clients. -/
inductive Request where
  | finalize
  | barrier
  | new (request : RequestNEW)
  | delete (id : Int)
  | copyin (id : Int)
  | copyout (id : Int)
  | get (id : Int)
  | set (peer : Nat) (gid : Int)
  | run (id : Nat) (gids : List Int)
  | gridReduce (id : Int)

/-- A call of a method of `Master`; grids are given by pointer. -/
inductive Call where
  | finalize
  | barrier
  | gridNew (request : RequestNEW)
  | gridDelete (g : Nat)
  | gridCopyin (g : Nat)
  | gridCopyout (g : Nat)
  | gridGet (g : Nat)
  | gridSet (g peer : Nat)
  | stencilRun (id : Nat) (gs : List Nat)
  | gridReduce (g : Nat)

/-! ## The registry of a process -/

namespace GridSpace

/-- A process starts without grids. -/
def initial : GridSpace where
  gridCounter := ⟨0⟩
  grids _ := none
  heap _ := none
  allocated := 0

/--
`RegisterGrid`: the id is converted to `int`, and `std::map::insert` keeps an
entry that is there already.
-/
def registerGrid (registry : GridSpace) (g : Nat) : GridSpace :=
  let (v, counter) := registry.gridCounter.next
  let id := v.toInt
  { registry with
    gridCounter := counter
    heap := Function.update registry.heap g
      ((registry.heap g).map fun grid => { grid with id := id })
    grids :=
      match registry.grids id with
      | none => Function.update registry.grids id (some g)
      | some _ => registry.grids }

/-- `DeregisterGrid`; `none` where the assertion fails. -/
def deregisterGrid (registry : GridSpace) (g : Nat) : Option GridSpace :=
  match registry.heap g with
  | none => none
  | some grid =>
      match registry.grids grid.id with
      | none => none
      | some _ =>
          some { registry with
            grids := Function.update registry.grids grid.id none }

/-- `FindGrid`; `none` where the assertion fails. -/
def findGrid (registry : GridSpace) (id : Int) : Option Nat :=
  registry.grids id

/-- `DeleteGrid` with a pointer -/
def deleteGrid (registry : GridSpace) (g : Nat) : Option GridSpace :=
  match registry.deregisterGrid g with
  | none => none
  | some after => some { after with heap := Function.update after.heap g none }

/-- `DeleteGrid` with an id -/
def deleteGridId (registry : GridSpace) (id : Int) : Option GridSpace :=
  match registry.findGrid id with
  | none => none
  | some g => registry.deleteGrid g

/--
`CreateGrid` with its registration: the new object's pointer and the registry
after it; `none` where the source aborts.
-/
def createGrid
    (space : GridSpaceMPI) (rank : Nat) (registry : GridSpace)
    (request : RequestNEW) : Option (Nat × GridSpace) :=
  if space.numDims < request.numDims then none
  else
    let gridSize := space.gridSize request.numDims request.size
    let gridGlobalOffset :=
      space.gridGlobalOffset request.numDims request.globalOffset
    let g := registry.allocated
    let grid : Grid :=
      { id := 0
        type := request.type
        elmSize := request.elmSize
        numDims := space.numDims
        size := gridSize
        doubleBuffering := request.doubleBuffering
        globalOffset := gridGlobalOffset
        attr := request.attr
        localOffset := space.localOffset rank space.numDims gridGlobalOffset
        localSize :=
          space.localSize rank space.numDims gridSize gridGlobalOffset }
    some (g,
      registerGrid
        { registry with
          heap := Function.update registry.heap g (some grid)
          allocated := g + 1 } g)

/-- The ids of some grid objects, if all of them exist. -/
def ids (registry : GridSpace) (gs : List Nat) : Option (List Int) :=
  gs.mapM fun g => (registry.heap g).map Grid.id

end GridSpace

/-! ## Master and clients -/

/-- A method that tells the clients the id of one grid and leaves the map. -/
def Master.notifyId
    (registry : GridSpace) (g : Nat) (request : Int → Request) :
    Option (GridSpace × List Request) :=
  (registry.heap g).map fun grid => (registry, [request grid.id])

/--
What a method of `Master` does to the registry, and what it broadcasts; `none`
where the source aborts or is given a grid that does not exist.
-/
def Master.step
    (space : GridSpaceMPI) (registry : GridSpace) :
    Call → Option (GridSpace × List Request)
  | .finalize => some (registry, [.finalize])
  | .barrier => some (registry, [.barrier])
  | .gridNew request =>
      (registry.createGrid space 0 request).map fun created =>
        (created.2, [.new request])
  | .gridDelete g =>
      match registry.heap g with
      | none => none
      | some grid =>
          (registry.deleteGrid g).map fun after => (after, [.delete grid.id])
  | .gridCopyin g => notifyId registry g .copyin
  | .gridCopyout g => notifyId registry g .copyout
  | .gridGet g => notifyId registry g .get
  | .gridSet g peer =>
      -- an element of the master's own subgrid is set without a request
      if peer = 0 then (registry.heap g).map fun _ => (registry, [])
      else notifyId registry g (.set peer)
  | .stencilRun id gs =>
      (registry.ids gs).map fun gids => (registry, [.run id gids])
  | .gridReduce g => notifyId registry g .gridReduce

/-- A method that looks one grid up and leaves the map. -/
def Client.lookup (registry : GridSpace) (id : Int) : Option GridSpace :=
  (registry.findGrid id).map fun _ => registry

/-- What `Client::Listen` does with a request; `none` where it aborts. -/
def Client.step
    (space : GridSpaceMPI) (rank : Nat) (registry : GridSpace) :
    Request → Option GridSpace
  | .finalize => some registry
  | .barrier => some registry
  | .new request => (registry.createGrid space rank request).map Prod.snd
  | .delete id => registry.deleteGridId id
  | .copyin id => lookup registry id
  | .copyout id => lookup registry id
  | .get id => lookup registry id
  | .set peer gid => if peer ≠ rank then some registry else lookup registry gid
  | .run _ gids => (gids.mapM registry.findGrid).map fun _ => registry
  | .gridReduce id => lookup registry id

/-! ## What the operations do -/

namespace GridSpace

variable {space : GridSpaceMPI} {registry after : GridSpace}

/-- The object `CreateGrid` makes on a rank, once registered under an id. -/
def newGrid
    (space : GridSpaceMPI) (rank : Nat) (request : RequestNEW) (id : Int) :
    Grid where
  id := id
  type := request.type
  elmSize := request.elmSize
  numDims := space.numDims
  size := space.gridSize request.numDims request.size
  doubleBuffering := request.doubleBuffering
  globalOffset := space.gridGlobalOffset request.numDims request.globalOffset
  attr := request.attr
  localOffset :=
    space.localOffset rank space.numDims
      (space.gridGlobalOffset request.numDims request.globalOffset)
  localSize :=
    space.localSize rank space.numDims
      (space.gridSize request.numDims request.size)
      (space.gridGlobalOffset request.numDims request.globalOffset)

/-- The registry after a creation. -/
def created
    (space : GridSpaceMPI) (rank : Nat) (registry : GridSpace)
    (request : RequestNEW) : GridSpace where
  gridCounter := ⟨registry.gridCounter.v + 1⟩
  grids :=
    match registry.grids registry.gridCounter.v.toInt with
    | none =>
        Function.update registry.grids registry.gridCounter.v.toInt
          (some registry.allocated)
    | some _ => registry.grids
  heap :=
    Function.update registry.heap registry.allocated
      (some (newGrid space rank request registry.gridCounter.v.toInt))
  allocated := registry.allocated + 1

theorem createGrid_eq
    {request : RequestNEW} (enough : request.numDims ≤ space.numDims)
    (rank : Nat) :
    registry.createGrid space rank request =
      some (registry.allocated, created space rank registry request) := by
  rw [createGrid, if_neg (by omega)]
  simp only [registerGrid, Counter.next, created, newGrid,
    Function.update_self, Option.map_some, Function.update_idem]

theorem createGrid_of_some
    {rank : Nat} {request : RequestNEW} {result : Nat × GridSpace}
    (succeeds : registry.createGrid space rank request = some result) :
    request.numDims ≤ space.numDims ∧
      result = (registry.allocated, created space rank registry request) := by
  by_cases enough : request.numDims ≤ space.numDims
  · rw [createGrid_eq enough] at succeeds
    exact ⟨enough, (Option.some.inj succeeds).symm⟩
  · rw [createGrid, if_pos (by omega)] at succeeds
    cases succeeds

/-- The registry after the deletion of an object. -/
def deleted (registry : GridSpace) (g : Nat) (id : Int) : GridSpace :=
  { registry with
    grids := Function.update registry.grids id none
    heap := Function.update registry.heap g none }

theorem deleteGrid_eq
    {g : Nat} {grid : Grid} (exist : registry.heap g = some grid)
    (contained : (registry.grids grid.id).isSome) :
    registry.deleteGrid g = some (registry.deleted g grid.id) := by
  obtain ⟨entry, entered⟩ := Option.isSome_iff_exists.mp contained
  simp only [deleteGrid, deregisterGrid, exist, entered, deleted]

theorem deleteGrid_of_some
    {g : Nat} (succeeds : registry.deleteGrid g = some after) :
    ∃ grid, registry.heap g = some grid ∧
      (registry.grids grid.id).isSome ∧
        after = registry.deleted g grid.id := by
  rcases exist : registry.heap g with _ | grid
  · simp [deleteGrid, deregisterGrid, exist] at succeeds
  · rcases entered : registry.grids grid.id with _ | entry
    · simp [deleteGrid, deregisterGrid, exist, entered] at succeeds
    · have contained : (registry.grids grid.id).isSome := by rw [entered]; rfl
      rw [deleteGrid_eq exist contained] at succeeds
      exact ⟨grid, rfl, contained, (Option.some.inj succeeds).symm⟩

end GridSpace

/-- The ids a request names. -/
def Request.ids : Request → List Int
  | .finalize | .barrier | .new _ => []
  | .delete id | .copyin id | .copyout id | .get id | .gridReduce id => [id]
  | .set _ gid => [gid]
  | .run _ gids => gids

/-- The request neither creates nor deletes a grid. -/
def Request.Passive : Request → Prop
  | .new _ | .delete _ => False
  | _ => True

/-- Every id the request names is the id of a grid that exists. -/
def Request.Live (registry : GridSpace) (request : Request) : Prop :=
  ∀ id ∈ request.ids, ∃ g grid, registry.heap g = some grid ∧ grid.id = id

/-- The ids of objects are ids of grids that exist. -/
theorem GridSpace.ids_live
    {registry : GridSpace} {gs : List Nat} {gids : List Int}
    (succeeds : registry.ids gs = some gids) :
    ∀ id ∈ gids, ∃ g grid, registry.heap g = some grid ∧ grid.id = id := by
  intro id member
  obtain ⟨g, -, found⟩ := (FallibleMaps.mem_of_mapM succeeds id).mp member
  obtain ⟨grid, exist, equal⟩ := Option.map_eq_some_iff.mp found
  exact ⟨g, grid, exist, equal⟩

/--
A call creates a grid, or deletes one, or leaves the registry and broadcasts at
most one request, about grids that exist.
-/
theorem Master.step_cases
    {space : GridSpaceMPI} {registry after : GridSpace} {call : Call}
    {requests : List Request}
    (stepped : Master.step space registry call = some (after, requests)) :
    (∃ request, call = .gridNew request ∧
      request.numDims ≤ space.numDims ∧
        after = registry.created space 0 request ∧
          requests = [.new request]) ∨
    (∃ g grid, call = .gridDelete g ∧ registry.heap g = some grid ∧
      after = registry.deleted g grid.id ∧ requests = [.delete grid.id]) ∨
    after = registry ∧
      (requests = [] ∨
        ∃ request, requests = [request] ∧ request.Passive ∧
          request.Live registry) := by
  have notified : ∀ {g : Nat} {request : Int → Request},
      Master.notifyId registry g request = some (after, requests) →
        (∀ id, (request id).Passive ∧ (request id).ids = [id]) →
          after = registry ∧
            ∃ request, requests = [request] ∧ request.Passive ∧
              request.Live registry := by
    intro g request succeeds named
    obtain ⟨grid, exist, equal⟩ := Option.map_eq_some_iff.mp succeeds
    obtain ⟨rfl, rfl⟩ := Prod.mk.inj equal
    refine ⟨rfl, _, rfl, (named grid.id).1, fun id mentioned => ?_⟩
    rw [(named grid.id).2, List.mem_singleton] at mentioned
    exact ⟨g, grid, exist, mentioned.symm⟩
  cases call with
  | finalize =>
      obtain ⟨rfl, rfl⟩ := Prod.mk.inj (Option.some.inj stepped)
      exact .inr (.inr ⟨rfl, .inr ⟨_, rfl, trivial, by simp [Request.Live,
        Request.ids]⟩⟩)
  | barrier =>
      obtain ⟨rfl, rfl⟩ := Prod.mk.inj (Option.some.inj stepped)
      exact .inr (.inr ⟨rfl, .inr ⟨_, rfl, trivial, by simp [Request.Live,
        Request.ids]⟩⟩)
  | gridNew request =>
      obtain ⟨result, succeeds, equal⟩ := Option.map_eq_some_iff.mp stepped
      obtain ⟨enough, rfl⟩ := GridSpace.createGrid_of_some succeeds
      obtain ⟨rfl, rfl⟩ := Prod.mk.inj equal
      exact .inl ⟨request, rfl, enough, rfl, rfl⟩
  | gridDelete g =>
      rcases exist : registry.heap g with _ | grid
      · simp [Master.step, exist] at stepped
      · simp only [Master.step, exist] at stepped
        obtain ⟨result, succeeds, equal⟩ := Option.map_eq_some_iff.mp stepped
        obtain ⟨other, otherExist, contained, rfl⟩ :=
          GridSpace.deleteGrid_of_some succeeds
        obtain rfl := Option.some.inj (exist.symm.trans otherExist)
        obtain ⟨rfl, rfl⟩ := Prod.mk.inj equal
        exact .inr (.inl ⟨g, grid, rfl, exist, rfl, rfl⟩)
  | gridCopyin g =>
      have result := notified stepped fun _ => ⟨trivial, rfl⟩
      exact .inr (.inr ⟨result.1, .inr result.2⟩)
  | gridCopyout g =>
      have result := notified stepped fun _ => ⟨trivial, rfl⟩
      exact .inr (.inr ⟨result.1, .inr result.2⟩)
  | gridGet g =>
      have result := notified stepped fun _ => ⟨trivial, rfl⟩
      exact .inr (.inr ⟨result.1, .inr result.2⟩)
  | gridSet g peer =>
      simp only [Master.step] at stepped
      split at stepped
      · obtain ⟨grid, exist, equal⟩ := Option.map_eq_some_iff.mp stepped
        obtain ⟨rfl, rfl⟩ := Prod.mk.inj equal
        exact .inr (.inr ⟨rfl, .inl rfl⟩)
      · have result := notified stepped fun _ => ⟨trivial, rfl⟩
        exact .inr (.inr ⟨result.1, .inr result.2⟩)
  | stencilRun id gs =>
      obtain ⟨gids, succeeds, equal⟩ := Option.map_eq_some_iff.mp stepped
      obtain ⟨rfl, rfl⟩ := Prod.mk.inj equal
      exact .inr (.inr
        ⟨rfl, .inr ⟨_, rfl, trivial, GridSpace.ids_live succeeds⟩⟩)
  | gridReduce g =>
      have result := notified stepped fun _ => ⟨trivial, rfl⟩
      exact .inr (.inr ⟨result.1, .inr result.2⟩)

end Physis.Runtime
