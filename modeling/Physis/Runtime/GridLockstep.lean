import Physis.Library.Runs
import Physis.Runtime.GridNew

/-!
# The registries of all ranks

The master changes its registry and broadcasts a request; every client executes
the requests in order, at its own pace.  What a registry is for is a directory:
which ids there are, and what the grid of each id is on every rank.  The
requests alone determine the directory, and a rank's registry refines the one
of the requests it has executed, as long as no grid is so old that the counter
comes back to its id.
-/

namespace Physis.Runtime

open Physis.Library

/-- The object without its members that differ between ranks. -/
def Grid.shared (grid : Grid) : Grid :=
  { grid with localOffset := fun _ => 0, localSize := fun _ => 0 }

/-- The map's entry of an id: the object it points to, if it still exists. -/
def GridSpace.entry (registry : GridSpace) (id : Int) : Option (Option Grid) :=
  (registry.grids id).map fun g => (registry.heap g).map Grid.shared

/-! ## Directories -/

/-- The ids that are in use, the grid of each, and the id of the next one. -/
structure Directory where
  next : BitVec 32
  entries : Int → Option Grid

namespace Directory

def initial : Directory where
  next := 0
  entries _ := none

/-- What a request does to the directory of every rank. -/
def step (space : GridSpaceMPI) (directory : Directory) : Request → Directory
  | .new request =>
      { next := directory.next + 1
        entries :=
          Function.update directory.entries directory.next.toInt
            (some (GridSpace.newGrid space 0 request
              directory.next.toInt).shared) }
  | .delete id =>
      { directory with entries := Function.update directory.entries id none }
  | _ => directory

/-- The directory after some requests. -/
def after (space : GridSpaceMPI) (requests : List Request) : Directory :=
  requests.foldl (step space) initial

theorem after_append (space : GridSpaceMPI) (log : List Request)
    (request : Request) :
    after space (log ++ [request]) = (after space log).step space request := by
  rw [after, List.foldl_append]
  rfl

theorem step_passive
    {space : GridSpaceMPI} {directory : Directory} {request : Request}
    (passive : request.Passive) :
    directory.step space request = directory := by
  cases request <;> first | rfl | cases passive

end Directory

/--
The request can be executed in this directory: a new grid gets a new id, and
every id it names is known.
-/
structure Request.Valid
    (space : GridSpaceMPI) (directory : Directory) (request : Request) :
    Prop where
  enough : ∀ parameters, request = .new parameters →
    parameters.numDims ≤ space.numDims
  fresh : ∀ parameters, request = .new parameters →
    directory.entries directory.next.toInt = none
  known : ∀ id ∈ request.ids, (directory.entries id).isSome

/-- The registry's map and objects are those of the directory. -/
structure Refines (registry : GridSpace) (directory : Directory) : Prop where
  counter : registry.gridCounter.v = directory.next
  entry : ∀ id, registry.entry id = (directory.entries id).map some
  sound : ∀ id g, registry.grids id = some g →
    ∃ grid, registry.heap g = some grid ∧ grid.id = id
  complete : ∀ g grid, registry.heap g = some grid →
    registry.grids grid.id = some g
  unallocated : ∀ g, registry.allocated ≤ g → registry.heap g = none

namespace Refines

variable
    {space : GridSpaceMPI} {registry : GridSpace} {directory : Directory}

theorem refines_initial : Refines GridSpace.initial Directory.initial where
  counter := rfl
  entry _ := rfl
  sound _ _ found := by cases found
  complete _ _ exist := by cases exist
  unallocated _ _ := rfl

/-- The map has an id exactly if the directory has it. -/
theorem grids_isSome (refines : Refines registry directory) (id : Int) :
    (registry.grids id).isSome = (directory.entries id).isSome := by
  have entry := congrArg Option.isSome (refines.entry id)
  simpa [GridSpace.entry] using entry

/-- The map's object of an id is the directory's grid. -/
theorem entries_eq
    (refines : Refines registry directory)
    {id : Int} {g : Nat} {grid : Grid}
    (found : registry.grids id = some g) (exist : registry.heap g = some grid) :
    directory.entries id = some grid.shared := by
  have entry := refines.entry id
  rw [GridSpace.entry, found, Option.map_some, exist, Option.map_some] at entry
  obtain ⟨shared, listed, equal⟩ := Option.map_eq_some_iff.mp entry.symm
  rw [listed, Option.some.inj equal]

/-- An object that exists has a known id. -/
theorem live_known
    (refines : Refines registry directory) {request : Request}
    (live : request.Live registry) :
    ∀ id ∈ request.ids, (directory.entries id).isSome := by
  intro id member
  obtain ⟨g, grid, exist, rfl⟩ := live id member
  rw [refines.entries_eq (refines.complete g grid exist) exist]
  rfl

/-- Objects that exist have different ids. -/
theorem distinct
    (refines : Refines registry directory)
    {left right : Nat} {leftGrid rightGrid : Grid}
    (leftExists : registry.heap left = some leftGrid)
    (rightExists : registry.heap right = some rightGrid)
    (equal : leftGrid.id = rightGrid.id) :
    left = right := by
  have leftFound := refines.complete left leftGrid leftExists
  have rightFound := refines.complete right rightGrid rightExists
  rw [equal, rightFound] at leftFound
  exact (Option.some.inj leftFound).symm

/-- An object in the map is not the next one to be allocated. -/
theorem ne_allocated
    (refines : Refines registry directory)
    {id : Int} {g : Nat} (found : registry.grids id = some g) :
    g ≠ registry.allocated := by
  obtain ⟨grid, exist, -⟩ := refines.sound id g found
  rintro rfl
  rw [refines.unallocated _ le_rfl] at exist
  cases exist

/-- A creation under a new id -/
theorem created
    (refines : Refines registry directory)
    (fresh : directory.entries directory.next.toInt = none)
    (rank : Nat) (request : RequestNEW) :
    Refines (registry.created space rank request)
      (directory.step space (.new request)) := by
  have unused : registry.grids registry.gridCounter.v.toInt = none := by
    have known := refines.grids_isSome registry.gridCounter.v.toInt
    rw [refines.counter, fresh] at known
    simpa [refines.counter] using known
  have grids : (registry.created space rank request).grids =
      Function.update registry.grids registry.gridCounter.v.toInt
        (some registry.allocated) := by
    simp only [GridSpace.created, unused]
  have heap : (registry.created space rank request).heap =
      Function.update registry.heap registry.allocated
        (some (GridSpace.newGrid space rank request
          registry.gridCounter.v.toInt)) := rfl
  refine
    { counter := congrArg (· + 1) refines.counter
      entry := fun id => ?_
      sound := fun id g found => ?_
      complete := fun g grid exist => ?_
      unallocated := fun g beyond => ?_ }
  · rw [GridSpace.entry, grids]
    by_cases new : id = registry.gridCounter.v.toInt
    · rw [new, Function.update_self]
      simp only [Directory.step, refines.counter, GridSpace.created,
        Option.map_some, Function.update_self]
      rfl
    · have old : id ≠ directory.next.toInt := by rwa [← refines.counter]
      simp only [Directory.step, Function.update_of_ne new,
        Function.update_of_ne old]
      rw [← refines.entry, GridSpace.entry]
      rcases found : registry.grids id with _ | g
      · rfl
      · simp only [Option.map_some, heap,
          Function.update_of_ne (refines.ne_allocated found)]
  · rw [grids] at found
    by_cases new : id = registry.gridCounter.v.toInt
    · rw [new, Function.update_self] at found
      obtain rfl := Option.some.inj found
      exact ⟨_, Function.update_self _ _ _, new.symm⟩
    · rw [Function.update_of_ne new] at found
      obtain ⟨grid, exist, equal⟩ := refines.sound id g found
      exact ⟨grid,
        (Function.update_of_ne (refines.ne_allocated found) _ _).trans exist,
        equal⟩
  · rw [grids]
    by_cases new : g = registry.allocated
    · rw [new, heap, Function.update_self] at exist
      obtain rfl := Option.some.inj exist
      rw [new]
      exact Function.update_self _ _ _
    · rw [heap, Function.update_of_ne new] at exist
      have found := refines.complete g grid exist
      have old : grid.id ≠ registry.gridCounter.v.toInt := by
        intro equal
        rw [equal, unused] at found
        cases found
      rw [Function.update_of_ne old, found]
  · have later : g ≠ registry.allocated := by
      have bound : registry.allocated + 1 ≤ g := beyond
      omega
    have bound : registry.allocated ≤ g := Nat.le_of_succ_le beyond
    exact (Function.update_of_ne later _ _).trans (refines.unallocated g bound)

/-- A deletion of an object that exists -/
theorem deleted
    (refines : Refines registry directory)
    {g : Nat} {grid : Grid} (exist : registry.heap g = some grid) :
    Refines (registry.deleted g grid.id)
      (directory.step space (.delete grid.id)) := by
  have own := refines.complete g grid exist
  have others : ∀ {id other}, id ≠ grid.id → registry.grids id = some other →
      other ≠ g := by
    rintro id other different found rfl
    obtain ⟨same, existing, equal⟩ := refines.sound id other found
    rw [exist] at existing
    obtain rfl := Option.some.inj existing
    exact different equal.symm
  refine
    { counter := refines.counter
      entry := fun id => ?_
      sound := fun id other found => ?_
      complete := fun other rest existing => ?_
      unallocated := fun other beyond => ?_ }
  · by_cases gone : id = grid.id
    · simp [GridSpace.entry, GridSpace.deleted, Directory.step, gone]
    · simp only [GridSpace.entry, GridSpace.deleted, Directory.step,
        Function.update_of_ne gone]
      rw [← refines.entry, GridSpace.entry]
      rcases found : registry.grids id with _ | other
      · rfl
      · simp only [Option.map_some, Function.update_of_ne (others gone found)]
  · by_cases gone : id = grid.id
    · simp [GridSpace.deleted, gone] at found
    · simp only [GridSpace.deleted, Function.update_of_ne gone] at found
      obtain ⟨rest, existing, equal⟩ := refines.sound id other found
      exact ⟨rest,
        (Function.update_of_ne (others gone found) _ _).trans existing, equal⟩
  · by_cases gone : other = g
    · simp [GridSpace.deleted, gone] at existing
    · simp only [GridSpace.deleted, Function.update_of_ne gone] at existing
      have found := refines.complete other rest existing
      have different : rest.id ≠ grid.id := by
        intro equal
        rw [equal, own] at found
        exact gone (Option.some.inj found).symm
      exact (Function.update_of_ne different _ _).trans found
  · by_cases gone : other = g
    · rw [gone]
      exact Function.update_self _ _ _
    · exact (Function.update_of_ne gone _ _).trans
        (refines.unallocated other beyond)

/-- A request that is valid in the directory succeeds on every client. -/
theorem client_step
    (refines : Refines registry directory) {request : Request}
    (valid : request.Valid space directory) (rank : Nat) :
    ∃ after, Client.step space rank registry request = some after ∧
      Refines after (directory.step space request) := by
  have found : ∀ id ∈ request.ids, ∃ g, registry.findGrid id = some g := by
    intro id member
    have known := valid.known id member
    rw [← refines.grids_isSome] at known
    exact Option.isSome_iff_exists.mp known
  have looked : ∀ {id}, id ∈ request.ids →
      Client.lookup registry id = some registry := by
    intro id member
    obtain ⟨g, entered⟩ := found id member
    rw [Client.lookup, entered, Option.map_some]
  cases request with
  | finalize => exact ⟨registry, rfl, refines⟩
  | barrier => exact ⟨registry, rfl, refines⟩
  | new parameters =>
      have creation : registry.createGrid space rank parameters =
          some (registry.allocated,
            GridSpace.created space rank registry parameters) :=
        GridSpace.createGrid_eq (valid.enough parameters rfl) rank
      exact ⟨_, congrArg (Option.map Prod.snd) creation,
        refines.created (valid.fresh parameters rfl) rank parameters⟩
  | delete id =>
      obtain ⟨g, entered⟩ := found id (List.mem_singleton.mpr rfl)
      obtain ⟨grid, exist, rfl⟩ := refines.sound id g entered
      have contained : (registry.grids grid.id).isSome := by
        rw [← GridSpace.findGrid, entered]
        rfl
      refine ⟨_, ?_, refines.deleted exist⟩
      simp only [Client.step, GridSpace.deleteGridId, entered,
        GridSpace.deleteGrid_eq exist contained]
  | copyin id =>
      exact ⟨registry, looked (List.mem_singleton.mpr rfl), refines⟩
  | copyout id =>
      exact ⟨registry, looked (List.mem_singleton.mpr rfl), refines⟩
  | get id =>
      exact ⟨registry, looked (List.mem_singleton.mpr rfl), refines⟩
  | set peer gid =>
      refine ⟨registry, ?_, refines⟩
      rw [Client.step]
      split
      · rfl
      · exact looked (List.mem_singleton.mpr rfl)
  | run id gids =>
      refine ⟨registry, ?_, refines⟩
      have all : (gids.mapM registry.findGrid).isSome :=
        FallibleMaps.mapM_isSome_iff.mpr fun id member =>
          Option.isSome_iff_exists.mpr (found id member)
      obtain ⟨gs, equal⟩ := Option.isSome_iff_exists.mp all
      rw [Client.step, equal, Option.map_some]
  | gridReduce id =>
      exact ⟨registry, looked (List.mem_singleton.mpr rfl), refines⟩

end Refines

/-! ## Runs -/

/--
The master's registry and the requests it has broadcast so far; the registry of
every client, and how many of the requests the client has executed.
-/
structure Ranks where
  master : GridSpace
  log : List Request
  client : Nat → GridSpace
  executed : Nat → Nat

namespace Ranks

/-- After `PSInit` -/
def initial : Ranks where
  master := GridSpace.initial
  log := []
  client _ := GridSpace.initial
  executed _ := 0

/-- The registry of a rank -/
def registry (ranks : Ranks) (rank : Nat) : GridSpace :=
  if rank = 0 then ranks.master else ranks.client rank

/-- The number of requests a rank has come to -/
def position (ranks : Ranks) (rank : Nat) : Nat :=
  if rank = 0 then ranks.log.length else ranks.executed rank

/--
The master calls one of its methods, if the call is allowed in its registry, or
a client executes its next request.
-/
inductive Step (space : GridSpaceMPI) (allowed : GridSpace → Call → Prop) :
    Ranks → Ranks → Prop where
  | call {ranks : Ranks} {call : Call} {after : GridSpace}
      {requests : List Request}
      (allows : allowed ranks.master call)
      (stepped :
        Master.step space ranks.master call = some (after, requests)) :
      Step space allowed ranks
        { ranks with master := after, log := ranks.log ++ requests }
  | execute {ranks : Ranks} {rank : Nat} {request : Request}
      {after : GridSpace}
      (client : 0 < rank) (bounded : rank < space.numProcs)
      (next : ranks.log[ranks.executed rank]? = some request)
      (stepped :
        Client.step space rank (ranks.client rank) request = some after) :
      Step space allowed ranks
        { ranks with
          client := Function.update ranks.client rank after
          executed :=
            Function.update ranks.executed rank (ranks.executed rank + 1) }

/--
The registries are in lockstep: ranks that have come equally far have the same
ids for the same grids, no two grids of a rank have one id, and a request a
client comes to names only ids it finds, and is executed.
-/
structure Lockstep (space : GridSpaceMPI) (ranks : Ranks) : Prop where
  agree : ∀ left < space.numProcs, ∀ right < space.numProcs,
    ranks.position left = ranks.position right →
      ∀ id, (ranks.registry left).entry id = (ranks.registry right).entry id
  distinct : ∀ rank < space.numProcs, ∀ left right leftGrid rightGrid,
    (ranks.registry rank).heap left = some leftGrid →
      (ranks.registry rank).heap right = some rightGrid →
        leftGrid.id = rightGrid.id → left = right
  found : ∀ rank < space.numProcs, 0 < rank → ∀ request,
    ranks.log[ranks.executed rank]? = some request →
      (∀ id ∈ request.ids, ((ranks.client rank).findGrid id).isSome) ∧
        (Client.step space rank (ranks.client rank) request).isSome

/-- Every request is valid in the directory of the requests before it. -/
def ValidLog (space : GridSpaceMPI) (log : List Request) : Prop :=
  ∀ (n : Nat) (request : Request), log[n]? = some request →
    request.Valid space (Directory.after space (log.take n))

/-- Every registry refines the directory of the requests executed there. -/
structure Consistent (space : GridSpaceMPI) (ranks : Ranks) : Prop where
  master : Refines ranks.master (Directory.after space ranks.log)
  valid : ValidLog space ranks.log
  executed : ∀ rank < space.numProcs, 0 < rank →
    ranks.executed rank ≤ ranks.log.length
  client : ∀ rank < space.numProcs, 0 < rank →
    Refines (ranks.client rank)
      (Directory.after space (ranks.log.take (ranks.executed rank)))

variable {space : GridSpaceMPI}

theorem ValidLog.snoc
    {log : List Request} {request : Request}
    (validLog : ValidLog space log)
    (valid : request.Valid space (Directory.after space log)) :
    ValidLog space (log ++ [request]) := by
  intro n other entry
  rcases Nat.lt_trichotomy n log.length with before | rfl | beyond
  · rw [List.getElem?_append_left before] at entry
    rw [List.take_append_of_le_length before.le]
    exact validLog n other entry
  · rw [List.getElem?_append_right le_rfl] at entry
    obtain rfl : request = other := by simpa using entry
    rwa [List.take_left]
  · have length : (log ++ [request]).length ≤ n := by simpa using beyond
    rw [List.getElem?_eq_none length] at entry
    cases entry

/-- What the master broadcasts leaves the clients where they are. -/
theorem Consistent.broadcast
    {ranks : Ranks} (consistent : Consistent space ranks)
    {after : GridSpace} {request : Request}
    (valid : request.Valid space (Directory.after space ranks.log))
    (refines : Refines after
      ((Directory.after space ranks.log).step space request)) :
    Consistent space
      { ranks with master := after, log := ranks.log ++ [request] } where
  master := by
    rw [← Directory.after_append] at refines
    exact refines
  valid := consistent.valid.snoc valid
  executed rank bounded client := by
    have before := consistent.executed rank bounded client
    rw [List.length_append]
    exact Nat.le_add_right_of_le before
  client rank bounded client := by
    have before := consistent.executed rank bounded client
    rw [List.take_append_of_le_length before]
    exact consistent.client rank bounded client

end Ranks

/--
When a grid is created, no grid that exists was created a multiple of 2³²
creations before.
-/
def Call.Spaced (registry : GridSpace) (call : Call) : Prop :=
  ∀ request, call = .gridNew request →
    ∀ g, (registry.heap g).isSome → ¬ 2 ^ 32 ∣ registry.allocated - g

/-- The counter does not yield the id of a grid that exists. -/
def Call.Fresh (registry : GridSpace) (call : Call) : Prop :=
  ∀ request, call = .gridNew request →
    ∀ g grid, registry.heap g = some grid →
      grid.id ≠ registry.gridCounter.v.toInt

/-! ## Ids and numbers of creations -/

/-- Ids are the numbers of the creations, as the counter has them. -/
structure GridSpace.Numbered (registry : GridSpace) : Prop where
  counter : registry.gridCounter.v = BitVec.ofNat 32 registry.allocated
  created : ∀ g grid, registry.heap g = some grid →
    g < registry.allocated ∧ grid.id = (BitVec.ofNat 32 g).toInt

/-- A creation is counted, and no call takes one back. -/
theorem Master.allocated_of_step
    {space : GridSpaceMPI} {registry after : GridSpace} {call : Call}
    {requests : List Request}
    (stepped : Master.step space registry call = some (after, requests)) :
    registry.allocated ≤ after.allocated ∧
      ((∃ request, call = .gridNew request) →
        registry.allocated < after.allocated) := by
  by_cases creates : ∃ request, call = .gridNew request
  · obtain ⟨request, rfl⟩ := creates
    obtain ⟨result, succeeds, equal⟩ := Option.map_eq_some_iff.mp stepped
    obtain ⟨_, rfl⟩ := GridSpace.createGrid_of_some succeeds
    obtain ⟨rfl, rfl⟩ := Prod.mk.inj equal
    exact ⟨Nat.le_succ _, fun _ => Nat.lt_succ_self _⟩
  · refine ⟨?_, fun impossible => absurd impossible creates⟩
    rcases Master.step_cases stepped with
      ⟨request, equal, _⟩ | ⟨g, grid, _, _, rfl, _⟩ | ⟨rfl, _⟩
    · exact absurd ⟨request, equal⟩ creates
    · exact le_rfl
    · exact le_rfl

namespace GridSpace.Numbered

variable {space : GridSpaceMPI} {registry after : GridSpace} {call : Call}

theorem numbered_initial : GridSpace.initial.Numbered where
  counter := rfl
  created _ _ exist := by cases exist

/-- Numbers that differ by no multiple of 2³² give different ids. -/
theorem fresh (numbered : registry.Numbered) (spaced : call.Spaced registry) :
    call.Fresh registry := by
  intro request equal g grid exist same
  obtain ⟨below, id⟩ := numbered.created g grid exist
  apply spaced request equal g (by rw [exist]; rfl)
  rw [id, numbered.counter] at same
  have values := congrArg BitVec.toNat (BitVec.toInt_inj.mp same)
  rw [BitVec.toNat_ofNat, BitVec.toNat_ofNat] at values
  exact (Nat.modEq_iff_dvd' below.le).mp values

/-- Without 2³² creations before it every creation is spaced. -/
theorem spaced_of_allocated
    (numbered : registry.Numbered) (few : registry.allocated < 2 ^ 32) :
    call.Spaced registry := by
  intro _ _ g exists' divides
  obtain ⟨grid, exist⟩ := Option.isSome_iff_exists.mp exists'
  have below := (numbered.created g grid exist).1
  have large := Nat.le_of_dvd (by omega) divides
  omega

/-- A call of the master keeps the numbering. -/
theorem step
    (numbered : registry.Numbered) {requests : List Request}
    (stepped : Master.step space registry call = some (after, requests)) :
    after.Numbered := by
  rcases Master.step_cases stepped with
    ⟨request, rfl, _, rfl, _⟩ | ⟨g, grid, rfl, _, rfl, _⟩ | ⟨rfl, _⟩
  · refine ⟨?_, fun g grid exist => ?_⟩
    · simp only [GridSpace.created, numbered.counter]
      exact (BitVec.ofNat_add registry.allocated 1).symm
    · simp only [GridSpace.created] at exist ⊢
      by_cases new : g = registry.allocated
      · subst new
        rw [Function.update_self] at exist
        obtain rfl := Option.some.inj exist
        exact ⟨Nat.lt_succ_self _, congrArg BitVec.toInt numbered.counter⟩
      · rw [Function.update_of_ne new] at exist
        obtain ⟨below, id⟩ := numbered.created g grid exist
        exact ⟨Nat.lt_succ_of_lt below, id⟩
  · refine ⟨numbered.counter, fun other rest exist => ?_⟩
    by_cases gone : other = g
    · simp [GridSpace.deleted, gone] at exist
    · simp only [GridSpace.deleted, Function.update_of_ne gone] at exist
      exact numbered.created other rest exist
  · exact numbered

end GridSpace.Numbered

namespace Ranks

variable {space : GridSpaceMPI}

theorem consistent_initial : Consistent space initial where
  master := Refines.refines_initial
  valid _ _ entry := by cases entry
  executed _ _ _ := le_rfl
  client _ _ _ := Refines.refines_initial

theorem Consistent.call
    {ranks : Ranks} (consistent : Consistent space ranks)
    {call : Call} {after : GridSpace} {requests : List Request}
    (fresh : call.Fresh ranks.master)
    (stepped : Master.step space ranks.master call = some (after, requests)) :
    Consistent space
      { ranks with master := after, log := ranks.log ++ requests } := by
  have refines := consistent.master
  rcases Master.step_cases stepped with
    ⟨parameters, rfl, enough, rfl, rfl⟩ | ⟨g, grid, rfl, exist, rfl, rfl⟩ |
      ⟨rfl, rfl | ⟨request, rfl, passive, live⟩⟩
  · have unused : (Directory.after space ranks.log).entries
        (Directory.after space ranks.log).next.toInt = none := by
      rw [← refines.counter, ← Option.not_isSome_iff_eq_none,
        ← refines.grids_isSome]
      intro used
      obtain ⟨g, entered⟩ := Option.isSome_iff_exists.mp used
      obtain ⟨grid, exist, equal⟩ := refines.sound _ g entered
      exact fresh parameters rfl g grid exist equal
    have valid : Request.Valid space (Directory.after space ranks.log)
        (.new parameters) :=
      { enough := by
          rintro _ equal
          obtain rfl := Request.new.inj equal
          exact enough
        fresh := fun _ _ => unused
        known := fun _ member => by cases member }
    exact consistent.broadcast valid (refines.created unused 0 parameters)
  · have valid : Request.Valid space (Directory.after space ranks.log)
        (.delete grid.id) :=
      { enough := fun _ equal => by cases equal
        fresh := fun _ equal => by cases equal
        known := refines.live_known fun id member =>
          ⟨g, grid, exist, (List.mem_singleton.mp member).symm⟩ }
    exact consistent.broadcast valid (refines.deleted exist)
  · simpa using consistent
  · have valid : request.Valid space (Directory.after space ranks.log) :=
      { enough := fun _ equal => by rw [equal] at passive; exact passive.elim
        fresh := fun _ equal => by rw [equal] at passive; exact passive.elim
        known := refines.live_known live }
    refine consistent.broadcast valid ?_
    rw [Directory.step_passive passive]
    exact refines

theorem Consistent.execute
    {ranks : Ranks} (consistent : Consistent space ranks)
    {rank : Nat} {request : Request} {after : GridSpace}
    (client : 0 < rank) (bounded : rank < space.numProcs)
    (next : ranks.log[ranks.executed rank]? = some request)
    (stepped :
      Client.step space rank (ranks.client rank) request = some after) :
    Consistent space
      { ranks with
        client := Function.update ranks.client rank after
        executed :=
          Function.update ranks.executed rank (ranks.executed rank + 1) } := by
  obtain ⟨inside, rfl⟩ := List.getElem?_eq_some_iff.mp next
  obtain ⟨result, same, refines⟩ :=
    (consistent.client rank bounded client).client_step
      (consistent.valid _ _ next) rank
  obtain rfl := Option.some.inj (stepped.symm.trans same)
  rw [← Directory.after_append, List.take_concat_get' _ _ inside] at refines
  refine
    { master := consistent.master
      valid := consistent.valid
      executed := fun other otherBounded otherClient => ?_
      client := fun other otherBounded otherClient => ?_ }
  · by_cases equal : other = rank
    · rw [equal]
      simpa using inside
    · simp only [Function.update_of_ne equal]
      exact consistent.executed other otherBounded otherClient
  · by_cases equal : other = rank
    · rw [equal]
      simpa using refines
    · simp only [Function.update_of_ne equal]
      exact consistent.client other otherBounded otherClient

theorem Consistent.step
    {before after : Ranks} (consistent : Consistent space before)
    (numbered : before.master.Numbered)
    (stepped : Step space (fun registry call => call.Spaced registry)
      before after) :
    Consistent space after ∧ after.master.Numbered := by
  cases stepped with
  | call spaced stepped =>
      exact ⟨consistent.call (numbered.fresh spaced) stepped, numbered.step stepped⟩
  | execute client bounded next stepped =>
      exact ⟨consistent.execute client bounded next stepped, numbered⟩

/-- In a run with at most 2³² creations all of them are spaced. -/
theorem reaches_of_few_creations
    {ranks : Ranks}
    (reached : Runs.Reaches (Step space fun _ _ => True) initial ranks)
    (few : ranks.master.allocated ≤ 2 ^ 32) :
    Runs.Reaches (Step space fun registry call => call.Spaced registry)
        initial ranks ∧
      ranks.master.Numbered := by
  induction reached with
  | refl => exact ⟨.refl, GridSpace.Numbered.numbered_initial⟩
  | tail _ step induction =>
      cases step with
      | call _ stepped =>
          obtain ⟨grows, counts⟩ := Master.allocated_of_step stepped
          obtain ⟨spacedRun, numbered⟩ := induction (grows.trans few)
          refine ⟨spacedRun.tail (.call ?_ stepped), numbered.step stepped⟩
          intro request equal
          have room := counts ⟨request, equal⟩
          exact numbered.spaced_of_allocated (room.trans_le few) request equal
      | execute client bounded next stepped =>
          obtain ⟨spacedRun, numbered⟩ := induction few
          exact ⟨spacedRun.tail (.execute client bounded next stepped), numbered⟩

/-- Every rank's registry refines the directory of its position. -/
theorem Consistent.refines
    {ranks : Ranks} (consistent : Consistent space ranks)
    {rank : Nat} (bounded : rank < space.numProcs) :
    Refines (ranks.registry rank)
      (Directory.after space (ranks.log.take (ranks.position rank))) := by
  simp only [registry, position]
  split
  · rw [List.take_length]
    exact consistent.master
  · exact consistent.client rank bounded (by omega)

theorem Consistent.lockstep
    {ranks : Ranks} (consistent : Consistent space ranks) :
    Lockstep space ranks where
  agree left leftBounded right rightBounded equal id := by
    rw [(consistent.refines leftBounded).entry,
      (consistent.refines rightBounded).entry, equal]
  distinct rank bounded _ _ _ _ :=
    (consistent.refines bounded).distinct
  found rank bounded client request next := by
    have refines := consistent.client rank bounded client
    have valid := consistent.valid _ _ next
    obtain ⟨after, stepped, -⟩ := refines.client_step valid rank
    refine ⟨fun id member => ?_, Option.isSome_of_eq_some stepped⟩
    rw [GridSpace.findGrid, refines.grids_isSome]
    exact valid.known id member

end Ranks

/--
In every run in which no grid that exists when another is created is a multiple
of 2³² creations old, the registries stay in lockstep.
-/
theorem registries_in_lockstep
    (space : GridSpaceMPI) (ranks : Ranks)
    (reached :
      Runs.Reaches
        (Ranks.Step space fun registry call => call.Spaced registry)
        Ranks.initial ranks) :
    ranks.Lockstep space := by
  have holds : ranks.Consistent space ∧ ranks.master.Numbered := by
    induction reached with
    | refl => exact ⟨Ranks.consistent_initial, GridSpace.Numbered.numbered_initial⟩
    | tail _ stepped induction => exact induction.1.step induction.2 stepped
  exact holds.1.lockstep

/-- A 5 × 4 grid of floats -/
def fiveByFourRequest : RequestNEW :=
  gridNewRequest .psFloat 4 2 (IntegerArray.mk3 5 4 0) false 0

/-- One creation, which one of the six ranks has executed. -/
def oneCreation : Ranks where
  master := GridSpace.initial.created GridSpaceMPI.fiveByFour 0 fiveByFourRequest
  log := [.new fiveByFourRequest]
  client :=
    Function.update (fun _ => GridSpace.initial) 1
      (GridSpace.initial.created GridSpaceMPI.fiveByFour 1 fiveByFourRequest)
  executed := Function.update (fun _ => 0) 1 1

theorem oneCreation_lockstep : oneCreation.Lockstep GridSpaceMPI.fiveByFour := by
  have creation : ∀ rank,
      GridSpace.initial.createGrid GridSpaceMPI.fiveByFour rank fiveByFourRequest =
        some (0, GridSpace.initial.created GridSpaceMPI.fiveByFour rank fiveByFourRequest) :=
    GridSpace.createGrid_eq (by decide)
  have call :
      Ranks.Step GridSpaceMPI.fiveByFour (fun _ _ => True)
        Ranks.initial
        { Ranks.initial with
          master := GridSpace.initial.created GridSpaceMPI.fiveByFour 0 fiveByFourRequest
          log := [.new fiveByFourRequest] } := by
    refine .call trivial
      (show Master.step GridSpaceMPI.fiveByFour GridSpace.initial
          (.gridNew fiveByFourRequest) = some (_, [.new fiveByFourRequest])
        from ?_)
    rw [Master.step, creation 0]
    rfl
  have execute :
      Ranks.Step GridSpaceMPI.fiveByFour (fun _ _ => True)
        { Ranks.initial with
          master := GridSpace.initial.created GridSpaceMPI.fiveByFour 0 fiveByFourRequest
          log := [.new fiveByFourRequest] }
        oneCreation := by
    have next : [Request.new fiveByFourRequest][0]? =
        some (Request.new fiveByFourRequest) := rfl
    have stepped :
        Client.step GridSpaceMPI.fiveByFour 1 GridSpace.initial
            (.new fiveByFourRequest) =
          some (GridSpace.initial.created GridSpaceMPI.fiveByFour 1
            fiveByFourRequest) :=
      congrArg (Option.map Prod.snd) (creation 1)
    have inside : 1 < GridSpaceMPI.fiveByFour.numProcs := by decide
    exact .execute Nat.one_pos inside next stepped
  exact registries_in_lockstep GridSpaceMPI.fiveByFour oneCreation
    (Ranks.reaches_of_few_creations (.tail (.single call) execute)
      (show 1 ≤ 2 ^ 32 by decide)).1

/-! ## A counter that comes back -/

/-- The registry with the first grid, after further creations and deletions. -/
def churned (space : GridSpaceMPI) (request : RequestNEW) (count : Nat) :
    GridSpace where
  gridCounter := ⟨BitVec.ofNat 32 (count + 1)⟩
  grids := Function.update (fun _ => none) 0 (some 0)
  heap :=
    Function.update (fun _ => none) 0
      (some (GridSpace.newGrid space 0 request 0))
  allocated := count + 1

/-- The master changes its registry, and no client moves. -/
def ranksAfter (registry : GridSpace) (log : List Request) : Ranks :=
  { Ranks.initial with master := registry, log := log }

section Churn

variable {space : GridSpaceMPI} {request : RequestNEW}

/-- A creation, without any condition on its id -/
theorem ranksAfter_create
    (enough : request.numDims ≤ space.numDims)
    (registry : GridSpace) (log : List Request) :
    Ranks.Step space (fun _ _ => True) (ranksAfter registry log)
      (ranksAfter (registry.created space 0 request)
        (log ++ [.new request])) := by
  refine .call trivial
    (show Master.step space registry (.gridNew request) =
        some (_, [.new request]) from ?_)
  rw [Master.step, GridSpace.createGrid_eq enough]
  rfl

theorem ranksAfter_delete
    {registry : GridSpace} {g : Nat} {grid : Grid}
    (exist : registry.heap g = some grid)
    (contained : (registry.grids grid.id).isSome) (log : List Request) :
    Ranks.Step space (fun _ _ => True) (ranksAfter registry log)
      (ranksAfter (registry.deleted g grid.id)
        (log ++ [.delete grid.id])) := by
  refine .call trivial
    (show Master.step space registry (.gridDelete g) =
        some (_, [.delete grid.id]) from ?_)
  simp only [Master.step, exist, GridSpace.deleteGrid_eq exist contained,
    Option.map_some]

/-- A creation and its deletion advance the counter only. -/
theorem churned_round
    (enough : request.numDims ≤ space.numDims)
    {count : Nat} (bound : count + 1 < 2 ^ 32) (log : List Request) :
    ∃ later, Runs.Reaches (Ranks.Step space fun _ _ => True)
      (ranksAfter (churned space request count) log)
      (ranksAfter (churned space request (count + 1)) later) := by
  have different : (BitVec.ofNat 32 (count + 1)).toInt ≠ 0 := by
    intro zero
    have same : BitVec.ofNat 32 (count + 1) = 0#32 :=
      BitVec.toInt_inj.mp (zero.trans BitVec.toInt_zero.symm)
    have value := congrArg BitVec.toNat same
    rw [BitVec.toNat_ofNat, Nat.mod_eq_of_lt bound] at value
    cases value
  have unused : (churned space request count).grids
      (BitVec.ofNat 32 (count + 1)).toInt = none := by
    simp only [churned, Function.update_of_ne different]
  have grids :
      ((churned space request count).created space 0 request).grids =
        Function.update (churned space request count).grids
          (BitVec.ofNat 32 (count + 1)).toInt (some (count + 1)) := by
    simp only [GridSpace.created]
    rw [show (churned space request count).gridCounter.v =
      BitVec.ofNat 32 (count + 1) from rfl, unused]
    rfl
  have exist :
      ((churned space request count).created space 0 request).heap
          (count + 1) =
        some (GridSpace.newGrid space 0 request
          (BitVec.ofNat 32 (count + 1)).toInt) :=
    Function.update_self _ _ _
  have contained :
      (((churned space request count).created space 0 request).grids
        (BitVec.ofNat 32 (count + 1)).toInt).isSome := by
    rw [grids, Function.update_self]
    rfl
  have back :
      ((churned space request count).created space 0 request).deleted
          (count + 1) (BitVec.ofNat 32 (count + 1)).toInt =
        churned space request (count + 1) := by
    have nextHeap : (count + 1 : Nat) ≠ 0 := Nat.succ_ne_zero count
    rw [GridSpace.deleted, grids]
    simp only [GridSpace.created, churned, Function.update_idem]
    congr 1
    · exact congrArg Counter.mk (BitVec.ofNat_add (count + 1) 1).symm
    · exact Function.update_eq_self_iff.mpr unused.symm
    · refine Function.update_eq_self_iff.mpr ?_
      simp only [Function.update_of_ne nextHeap]
  rw [← back]
  exact ⟨_, .tail (.single (ranksAfter_create enough _ log))
    (ranksAfter_delete exist contained (log ++ [.new request]))⟩

theorem churned_reached
    (enough : request.numDims ≤ space.numDims)
    {count : Nat} (bound : count < 2 ^ 32) :
    ∃ log, Runs.Reaches (Ranks.Step space fun _ _ => True) Ranks.initial
      (ranksAfter (churned space request count) log) := by
  induction count with
  | zero =>
      exact ⟨_, .single (ranksAfter_create enough GridSpace.initial [])⟩
  | succ count induction =>
      obtain ⟨log, reached⟩ := induction (Nat.lt_of_succ_lt bound)
      obtain ⟨later, round⟩ := churned_round enough bound log
      exact ⟨later, reached.trans round⟩

end Churn

/--
After one creation, 2³² - 1 creations that are deleted again, and one more
creation there are two grids with the id zero.
-/
theorem registries_reuse_live_id :
    ∃ ranks,
      Runs.Reaches (Ranks.Step GridSpaceMPI.fiveByFour fun _ _ => True) Ranks.initial
        ranks ∧
      ¬ ranks.Lockstep GridSpaceMPI.fiveByFour := by
  have enough : fiveByFourRequest.numDims ≤ GridSpaceMPI.fiveByFour.numDims := by decide
  obtain ⟨log, reached⟩ :=
    churned_reached enough (show 2 ^ 32 - 1 < 2 ^ 32 by decide)
  refine ⟨_, .tail reached (ranksAfter_create enough _ log), ?_⟩
  intro lockstep
  have zero : BitVec.ofNat 32 (2 ^ 32 - 1 + 1) = 0#32 := by decide
  have first : ((churned GridSpaceMPI.fiveByFour fiveByFourRequest
      (2 ^ 32 - 1)).created GridSpaceMPI.fiveByFour 0 fiveByFourRequest).heap
        0 = some (GridSpace.newGrid GridSpaceMPI.fiveByFour 0
          fiveByFourRequest 0) := by
    have old : (0 : Nat) ≠ 2 ^ 32 - 1 + 1 := by decide
    simp only [GridSpace.created, churned, Function.update_of_ne old,
      Function.update_self]
  have last : ((churned GridSpaceMPI.fiveByFour fiveByFourRequest
      (2 ^ 32 - 1)).created GridSpaceMPI.fiveByFour 0 fiveByFourRequest).heap
        (2 ^ 32 - 1 + 1) = some (GridSpace.newGrid GridSpaceMPI.fiveByFour 0
          fiveByFourRequest 0) := by
    simp only [GridSpace.created, churned, Function.update_self, zero]
    rfl
  have same := lockstep.distinct 0 (by decide) 0 (2 ^ 32 - 1 + 1) _ _ first
    last rfl
  exact absurd same (by decide)

end Physis.Runtime
