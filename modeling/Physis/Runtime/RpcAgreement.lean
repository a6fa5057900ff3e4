import Physis.Library.FallibleMaps
import Physis.Runtime.FetchPartition
import Physis.Runtime.GridAccessRuns
import Physis.Runtime.RpcTalks

/-!
# The processes and the reference runtime

Between two calls every process has the registry that belongs to the grids of
the reference runtime, and the subgrids of all processes together hold the
elements of its arrays.  What the calls do to registries and subgrids keeps this.
-/

namespace Physis.Runtime

open Physis.Library
open Physis.Library.RowMajor
open Physis.Library.Runs
open Physis.Library.Talks

/-! ## Grids adapted to the space -/

section Adapted

variable {space : GridSpaceMPI} {numDims : Nat} {size : IndexArray}

/-- The dimensions that are added have one element. -/
theorem gridSize_added (space : GridSpaceMPI) (size : IndexArray) {i : Nat}
    (added : numDims ≤ i) (below : i < space.numDims) : space.gridSize numDims size i = 1 :=
  if_pos ⟨added, below⟩

theorem gridSize_own (space : GridSpaceMPI) (size : IndexArray) {i : Nat} (own : i < numDims) :
    space.gridSize numDims size i = size i :=
  if_neg fun added => absurd added.1 (Nat.not_le_of_lt own)

/-- They do not change the number of elements. -/
theorem volume_gridSize (space : GridSpaceMPI) (size : IndexArray)
    (enough : numDims ≤ space.numDims) :
    volume (space.gridSize numDims size) space.numDims = volume size numDims := by
  have upTo : ∀ count, numDims ≤ count → count ≤ space.numDims →
      volume (space.gridSize numDims size) count = volume size numDims := by
    intro count atLeast
    induction count, atLeast using Nat.le_induction with
    | base => exact fun _ => volume_congr fun i below => gridSize_own space size below
    | succ count atLeast induction =>
        intro most
        rw [volume_succ, induction (Nat.le_of_succ_le most), gridSize_added space size atLeast most,
          mul_one]
  exact upTo space.numDims enough le_rfl

/-- Nor the position of an element. -/
theorem linear_gridSize (space : GridSpaceMPI) (size : IndexArray)
    (enough : numDims ≤ space.numDims) {index : IndexArray}
    (zero : ∀ i, numDims ≤ i → index i = 0) :
    linear (space.gridSize numDims size) index space.numDims = linear size index numDims := by
  rw [linear_eq_of_zero enough zero]
  exact linear_congr (fun i below => gridSize_own space size below) fun _ _ => rfl

end Adapted

/-! ## What the processes have in common with the reference runtime -/

/-- The subgrids hold the elements of the array, and no remote grid is active. -/
structure GridAgrees (space : GridSpaceMPI) (r : RefGrid) (grids : Nat → GridMPI ℚ) : Prop where
  enough : r.numDims ≤ space.numDims
  element : 0 < r.elmSize
  positive : ∀ i < r.numDims, 0 < r.dim i
  numElms : r.numElms = volume r.dim r.numDims
  distributed :
    Distributed space r.elmSize (space.gridSize r.numDims r.dim) (fun _ => 0) grids
  countable : Countable space r.elmSize (space.gridSize r.numDims r.dim) fun _ => 0
  holds : HoldsGrid space (space.gridSize r.numDims r.dim) grids r.p0
  inactive : ∀ rank < space.numProcs, (grids rank).remoteGridActive = false

/-- The id of the grid that is allocated as the `g`-th. -/
def gridId (g : Nat) : Int :=
  (BitVec.ofNat 32 g).toInt

theorem gridId_injective {g other : Nat} (bound : g < 2 ^ 32) (otherBound : other < 2 ^ 32)
    (same : gridId g = gridId other) : g = other := by
  have equal := congrArg BitVec.toNat (BitVec.toInt_inj.mp same)
  rwa [BitVec.toNat_ofNat, BitVec.toNat_ofNat, Nat.mod_eq_of_lt bound,
    Nat.mod_eq_of_lt otherBound] at equal

/-- The registry of a process belongs to the grids of the reference runtime. -/
structure RegistryAgrees (ref : RefState) (types : Nat → PSType) (registry : GridSpace) :
    Prop where
  allocated : registry.allocated = ref.allocated
  counter : registry.gridCounter.v = BitVec.ofNat 32 ref.allocated
  listed : ∀ g, (ref.heap g).isSome → registry.grids (gridId g) = some g
  only : ∀ id g, registry.grids id = some g → (ref.heap g).isSome ∧ id = gridId g
  object : ∀ g, (ref.heap g).isSome →
    ∃ grid, registry.heap g = some grid ∧ grid.id = gridId g ∧ grid.type = types g

/-- The processes hold the grids of the reference runtime. -/
structure Agrees (space : GridSpaceMPI) (ref : RefState) (states : Nat → RankState) : Prop where
  bound : ref.allocated ≤ 2 ^ 32
  fresh : ∀ g, ref.allocated ≤ g → ref.heap g = none
  registry : ∃ types, (∀ g, (ref.heap g).isSome → types g = .psFloat ∨ types g = .psDouble) ∧
    ∀ rank < space.numProcs, RegistryAgrees ref types (states rank).registry
  objects : ∀ g r, ref.heap g = some r → GridAgrees space r fun rank => (states rank).objects g

section Registry

variable {ref : RefState} {types : Nat → PSType} {registry : GridSpace}

theorem RefState.lt_allocated {ref : RefState}
    (fresh : ∀ g, ref.allocated ≤ g → ref.heap g = none) {g : Nat}
    (exist : (ref.heap g).isSome) : g < ref.allocated := by
  by_contra beyond
  rw [fresh g (Nat.le_of_not_lt beyond)] at exist
  cases exist

/-- A creation has the id that belongs to the new address. -/
theorem RegistryAgrees.created (agrees : RegistryAgrees ref types registry)
    (fresh : ∀ g, ref.allocated ≤ g → ref.heap g = none) (room : ref.allocated < 2 ^ 32)
    (space : GridSpaceMPI) (rank : Nat) (request : RequestNEW) (r : RefGrid) :
    RegistryAgrees (ref.allocate r) (Function.update types ref.allocated request.type)
      (registry.created space rank request) := by
  have id : registry.gridCounter.v.toInt = gridId ref.allocated := by
    rw [agrees.counter, gridId]
  have old {g : Nat} (exist : (ref.heap g).isSome) :
      g ≠ ref.allocated ∧ gridId g ≠ gridId ref.allocated := by
    have earlier := RefState.lt_allocated fresh exist
    refine ⟨earlier.ne, fun same => earlier.ne (gridId_injective ?_ room same)⟩
    omega
  have unused : registry.grids (gridId ref.allocated) = none := by
    rw [Option.eq_none_iff_forall_ne_some]
    intro g listed
    obtain ⟨exist, same⟩ := agrees.only _ g listed
    exact (old exist).2 same.symm
  have grids : (registry.created space rank request).grids =
      Function.update registry.grids (gridId ref.allocated) (some ref.allocated) := by
    simp only [GridSpace.created, id, unused, agrees.allocated]
  have heap : (registry.created space rank request).heap = Function.update registry.heap
      ref.allocated (some (GridSpace.newGrid space rank request (gridId ref.allocated))) := by
    simp only [GridSpace.created, id, agrees.allocated]
  constructor
  · exact congrArg (· + 1) agrees.allocated
  · exact (congrArg (· + 1) agrees.counter).trans (BitVec.ofNat_add ref.allocated 1).symm
  · intro g exist
    rw [grids]
    by_cases new : g = ref.allocated
    · rw [new, Function.update_self]
    · rw [ref.allocate_of_ne new] at exist
      rw [Function.update_of_ne (old exist).2]
      exact agrees.listed g exist
  · intro entry g listed
    rw [grids] at listed
    by_cases new : entry = gridId ref.allocated
    · rw [new, Function.update_self] at listed
      obtain rfl := Option.some.inj listed
      exact ⟨by rw [ref.allocate_self]; rfl, new⟩
    · rw [Function.update_of_ne new] at listed
      obtain ⟨exist, same⟩ := agrees.only entry g listed
      refine ⟨?_, same⟩
      rwa [ref.allocate_of_ne (old exist).1]
  · intro g exist
    rw [heap]
    by_cases new : g = ref.allocated
    · rw [new, Function.update_self, Function.update_self]
      exact ⟨_, rfl, rfl, rfl⟩
    · rw [ref.allocate_of_ne new] at exist
      rw [Function.update_of_ne new, Function.update_of_ne new]
      exact agrees.object g exist

/-- A deletion leaves the other grids. -/
theorem RegistryAgrees.deleted (agrees : RegistryAgrees ref types registry)
    (bound : ref.allocated ≤ 2 ^ 32) (fresh : ∀ g, ref.allocated ≤ g → ref.heap g = none)
    {g : Nat} (exist : (ref.heap g).isSome) :
    RegistryAgrees (ref.set g none) types (registry.deleted g (gridId g)) := by
  have remains {other : Nat} (left : ((ref.set g none).heap other).isSome) :
      other ≠ g ∧ (ref.heap other).isSome := by
    by_cases same : other = g
    · rw [same, ref.set_self] at left
      cases left
    · rw [ref.set_of_ne same] at left
      exact ⟨same, left⟩
  constructor
  · exact agrees.allocated
  · exact agrees.counter
  · intro other left
    obtain ⟨different, existed⟩ := remains left
    refine (Function.update_of_ne (fun same => different ?_) _ _).trans
      (agrees.listed other existed)
    have below := RefState.lt_allocated fresh existed
    have ownBelow := RefState.lt_allocated fresh exist
    exact gridId_injective (by omega) (by omega) same
  · intro id other listed
    by_cases same : id = gridId g
    · rw [GridSpace.deleted, same] at listed
      cases (Function.update_self (gridId g) none registry.grids).symm.trans listed
    · have listed := (Function.update_of_ne same _ _).symm.trans listed
      obtain ⟨existed, is⟩ := agrees.only id other listed
      have different : other ≠ g := fun equal => same (is.trans (congrArg gridId equal))
      exact ⟨by rwa [ref.set_of_ne different], is⟩
  · intro other left
    obtain ⟨different, existed⟩ := remains left
    obtain ⟨grid, found, rest⟩ := agrees.object other existed
    exact ⟨grid, (Function.update_of_ne different _ _).trans found, rest⟩

theorem RegistryAgrees.set (agrees : RegistryAgrees ref types registry) {g : Nat}
    (exist : (ref.heap g).isSome) (r : RefGrid) :
    RegistryAgrees (ref.set g (some r)) types registry := by
  have same (other : Nat) : ((ref.set g (some r)).heap other).isSome = (ref.heap other).isSome := by
    by_cases is : other = g
    · rw [is, ref.set_self, exist]
      rfl
    · rw [ref.set_of_ne is]
  refine ⟨agrees.allocated, agrees.counter, fun other left => ?_, fun id other listed => ?_,
    fun other left => ?_⟩
  · exact agrees.listed other (same other ▸ left)
  · rw [same]
    exact agrees.only id other listed
  · exact agrees.object other (same other ▸ left)

end Registry

/-! ## The elements of one grid -/

namespace GridAgrees

variable {space : GridSpaceMPI} {r : RefGrid} {grids : Nat → GridMPI ℚ}

theorem size_pos (agrees : GridAgrees space r grids) :
    ∀ i < space.numDims, 0 < space.gridSize r.numDims r.dim i := by
  intro i below
  rcases Nat.lt_or_ge i r.numDims with own | added
  · rw [gridSize_own space r.dim own]
    exact agrees.positive i own
  · rw [gridSize_added space r.dim added below]
    exact Int.one_pos

theorem numElms_eq (agrees : GridAgrees space r grids) :
    r.numElms = IntegerArray.accumulate (space.gridSize r.numDims r.dim) space.numDims := by
  rw [agrees.numElms, IntegerArray.accumulate_eq_volume, volume_gridSize space r.dim agrees.enough]

/-- An owned cell lies inside the grid. -/
theorem inside_of_local (agrees : GridAgrees space r grids) {rank : Nat}
    (bounded : rank < space.numProcs) {index : IndexArray}
    (member : InBox space.numDims (grids rank).localSize index) :
    InBox space.numDims (space.gridSize r.numDims r.dim)
      fun i => (grids rank).localOffset i + index i := by
  have owns := agrees.distributed.owns_local bounded member
  exact fun i below => space.local_bounds below (owns i below).1 (owns i below).2

/-- Only the elements of the array matter. -/
theorem holds_congr (agrees : GridAgrees space r grids) {after : Nat → GridMPI ℚ}
    {whole other : Int → ℚ}
    (sameSize : ∀ rank < space.numProcs, (after rank).localSize = (grids rank).localSize ∧
      (after rank).localOffset = (grids rank).localOffset)
    (holds : HoldsGrid space (space.gridSize r.numDims r.dim) after whole)
    (same : ∀ i, 0 ≤ i → i < r.numElms → other i = whole i) :
    HoldsGrid space (space.gridSize r.numDims r.dim) after other := by
  intro rank bounded index member
  rw [holds rank bounded index member]
  obtain ⟨localSize, localOffset⟩ := sameSize rank bounded
  rw [localSize] at member
  rw [localOffset]
  have inside := agrees.inside_of_local bounded member
  refine (same _ (linear_nonneg inside) ?_).symm
  rw [agrees.numElms, ← volume_gridSize space r.dim agrees.enough]
  exact linear_lt_volume inside

/-- The elements are the values of a map. -/
theorem tracks (agrees : GridAgrees space r grids) :
    Tracks space r.elmSize (space.gridSize r.numDims r.dim) grids fun cell =>
      r.p0 (linear (space.gridSize r.numDims r.dim) cell space.numDims) where
  distributed := agrees.distributed
  inactive rank _ bounded := agrees.inactive rank bounded
  holds _ inside := holdsAt_of_holdsGrid agrees.distributed agrees.holds inside

end GridAgrees

/-- No part of a grid with less than 2³¹ bytes has more. -/
theorem countable_of_lt {space : GridSpaceMPI} {elmSize : Nat} {size : IndexArray}
    (positive : ∀ i < space.numDims, 0 < size i)
    (few : volume size space.numDims * elmSize < 2 ^ 31) :
    Countable space elmSize size fun _ => 0 := by
  intro rank bounded
  refine lt_of_le_of_lt (mul_le_mul_of_nonneg_right ?_ (Int.natCast_nonneg _)) few
  refine Finset.prod_le_prod (fun i member => ?_) fun i member => ?_
  · simp only [GridSpaceMPI.localSize, if_pos (Finset.mem_range.mp member)]
    exact le_max_right _ _
  · have below := Finset.mem_range.mp member
    by_cases some : 0 < space.localSize rank space.numDims size (fun _ => 0) i
    · have first := @space.local_bounds rank i below size (fun _ => 0)
        (space.localOffset rank space.numDims (fun _ => 0) i) le_rfl (by omega)
      have last := @space.local_bounds rank i below size (fun _ => 0)
        (space.localOffset rank space.numDims (fun _ => 0) i +
          space.localSize rank space.numDims size (fun _ => 0) i - 1) (by omega) (by omega)
      omega
    · have extent := positive i below
      omega

/-- A new grid has zeros everywhere. -/
theorem gridAgrees_new {space : GridSpaceMPI} {elmSize numDims : Nat} {size : IndexArray}
    (enough : numDims ≤ space.numDims) (element : 0 < elmSize)
    (fits : ∀ i < numDims, 0 < size i ∧ size i ≤ space.globalSize i)
    (few : volume size numDims * elmSize < 2 ^ 31) (doubleBuffering : Bool) :
    GridAgrees space (.psGridNew elmSize numDims size doubleBuffering)
      (space.distribute elmSize (space.gridSize numDims size) doubleBuffering (fun _ => 0)
        fun _ _ _ => 0) where
  enough := enough
  element := element
  positive i below := (fits i below).1
  numElms := IntegerArray.accumulate_eq_volume size numDims
  distributed := by
    refine space.distribute_distributed _ _ _ _ _ fun i below => ⟨le_rfl, ?_⟩
    rw [zero_add]
    rcases Nat.lt_or_ge i numDims with own | added
    · exact (gridSize_own space size own).trans_le (fits i own).2
    · exact (gridSize_added space size added below).trans_le (space.globalPos i below)
  countable := by
    have whole := volume_gridSize space size enough
    refine countable_of_lt (fun i below => ?_) ((congrArg (· * (elmSize : Int)) whole).trans_lt few)
    rcases Nat.lt_or_ge i numDims with own | added
    · exact (fits i own).1.trans_eq (gridSize_own space size own).symm
    · exact Int.one_pos.trans_eq (gridSize_added space size added below).symm
  holds _ _ _ _ := rfl
  inactive _ _ := rfl

/-- `GridCopyin` on all processes is `PSGridCopyin`. -/
theorem GridAgrees.gridCopyin {space : GridSpaceMPI} {r : RefGrid} {grids : Nat → GridMPI ℚ}
    (agrees : GridAgrees space r grids) (dims : 0 < space.numDims) (buf : Int → ℚ) :
    GridAgrees space (r.psGridCopyin buf) (afterCopyin grids buf) := by
  obtain ⟨distributed, holds⟩ := distributed_afterCopyin agrees.distributed dims buf
  have kept (rank : Nat) : (afterCopyin grids buf rank).localSize = (grids rank).localSize ∧
      (afterCopyin grids buf rank).localOffset = (grids rank).localOffset ∧
      (afterCopyin grids buf rank).remoteGridActive = (grids rank).remoteGridActive := by
    rw [afterCopyin]
    split
    · rename_i master
      subst master
      exact ⟨rfl, rfl, rfl⟩
    · rw [copiedIn]
      split <;> exact ⟨rfl, rfl, rfl⟩
  refine ⟨agrees.enough, agrees.element, agrees.positive, agrees.numElms, distributed,
    agrees.countable, ?_,
    fun rank bounded => (kept rank).2.2.trans (agrees.inactive rank bounded)⟩
  exact agrees.holds_congr (fun rank _ => ⟨(kept rank).1, (kept rank).2.1⟩) holds
    fun i lower upper => if_pos ⟨lower, upper⟩

/-- An array that holds the elements of all processes is the array of the reference runtime. -/
theorem GridAgrees.elements_eq {space : GridSpaceMPI} {r : RefGrid} {grids : Nat → GridMPI ℚ}
    (agrees : GridAgrees space r grids) {host : Int → ℚ}
    (holds : HostHolds space (space.gridSize r.numDims r.dim) grids space.numProcs host) :
    elements host (IntegerArray.accumulate (space.gridSize r.numDims r.dim) space.numDims) =
      r.psGridCopyout := by
  have nonneg : ∀ i < space.numDims, 0 ≤ space.gridSize r.numDims r.dim i :=
    fun i below => (agrees.size_pos i below).le
  rw [RefGrid.psGridCopyout, agrees.numElms_eq, elements_eq_boxList nonneg,
    elements_eq_boxList nonneg]
  refine boxList_congr (fun _ _ => rfl) fun cell inside => ?_
  obtain ⟨owner, bounded, owns, member, place⟩ := exists_local_index agrees.distributed inside.1
  have copied := holds owner bounded _ member
  have own := agrees.holds owner bounded _ member
  beta_reduce at copied own
  rw [place] at copied own
  exact copied.trans own

section Set

variable {space : GridSpaceMPI} {r : RefGrid} {grids : Nat → GridMPI ℚ} {index : IndexArray}

/-- An index of the reference runtime lies inside the adapted grid. -/
theorem inside_gridSize (member : InBox r.numDims r.dim index)
    (zero : ∀ i, r.numDims ≤ i → index i = 0) :
    InBox space.numDims (space.gridSize r.numDims r.dim) index := by
  intro i below
  rcases Nat.lt_or_ge i r.numDims with own | added
  · rw [gridSize_own space r.dim own]
    exact member i own
  · rw [gridSize_added space r.dim added below, zero i added]
    exact ⟨le_rfl, Int.one_pos⟩

/-- The offset `__PSGridSet` computes is the position in the adapted grid. -/
theorem GridAgrees.setOffset_eq (agrees : GridAgrees space r grids)
    (zero : ∀ i, r.numDims ≤ i → index i = 0) :
    r.setOffset index = linear (space.gridSize r.numDims r.dim) index space.numDims := by
  rw [linear_gridSize space r.dim agrees.enough zero]
  exact congrArg Prod.fst (get1DOffset_loop index r.dim r.numDims)

/-- `GridSet` on the process that owns the element is `__PSGridSet`. -/
theorem GridAgrees.gridSet (agrees : GridAgrees space r grids)
    (small : space.numDims ≤ psMaxDim) (member : InBox r.numDims r.dim index)
    (zero : ∀ i, r.numDims ≤ i → index i = 0) (value : ℚ) :
    ∃ owner < space.numProcs, ∃ written,
      space.findOwnerProcess (grids 0) index = some owner ∧
        (grids owner).set index value = some written ∧
          GridAgrees space (r.psGridSet index value) (Function.update grids owner written) := by
  have root := agrees.distributed.decomposed 0 space.numProcs_pos
  have inside : InBox space.numDims (space.gridSize r.numDims r.dim) index :=
    inside_gridSize member zero
  obtain ⟨owner, found, bounded, owns⟩ := space.findOwnerProcess_owns (grids 0)
    (fun d _ => congrFun root.globalOffset d) agrees.tracks.fits inside
  rw [root.globalOffset] at owns
  have own := agrees.distributed.decomposed owner bounded
  have added : ∀ i, space.numDims ≤ i → index i = 0 :=
    fun i beyond => zero i (agrees.enough.trans beyond)
  have address := own.getAddress_own small (agrees.inactive owner bounded) owns added
  have tracksAfter := agrees.tracks.afterWrite bounded owns value
  refine ⟨owner, bounded, _, found, congrArg (Option.map _) address, agrees.enough,
    agrees.element, agrees.positive, agrees.numElms, tracksAfter.distributed,
    agrees.countable, ?_, ?_⟩
  · intro rank rankBounded cell local_
    have rankOwns := tracksAfter.distributed.owns_local rankBounded local_
    have cellInside : InBox space.numDims (space.gridSize r.numDims r.dim) _ :=
      fun i below => space.local_bounds below (rankOwns i below).1 (rankOwns i below).2
    have is := data_of_holdsAt rankBounded rankOwns (tracksAfter.holds _ cellInside)
    simp only [add_sub_cancel_left] at is
    refine is.trans ?_
    simp only [MasterCall.write, RefGrid.psGridSet, agrees.setOffset_eq zero]
    by_cases here : ∀ i < space.numDims,
        (Function.update grids owner ((grids owner).writeAddress value (.data
          (linear (grids owner).localSize (fun i => index i - (grids owner).localOffset i)
            space.numDims))) rank).localOffset i + cell i = index i
    · rw [if_pos here, linear_congr (fun _ _ => rfl) here, Function.update_self]
    · rw [if_neg here]
      refine (Function.update_of_ne (fun same => here ?_) _ _).symm
      exact eq_of_linear_eq cellInside inside same
  · intro rank rankBounded
    by_cases same : rank = owner
    · subst same
      rw [Function.update_self]
      exact agrees.inactive rank rankBounded
    · rw [Function.update_of_ne same]
      exact agrees.inactive rank rankBounded

end Set

section Reduce

variable {space : GridSpaceMPI} {r : RefGrid} {grids : Nat → GridMPI ℚ} {type : PSType}

/-- Every process has a value for a reduction. -/
theorem reductionValue_isSome (floating : type = .psFloat ∨ type = .psDouble)
    (grid : GridMPI ℚ) (op : PSReduceOp) :
    ∃ value, grid.reductionValue type op = some value := by
  rcases floating with rfl | rfl <;>
    simp only [GridMPI.reductionValue, GridMPI.reduce, Option.bind_eq_bind, Option.bind_some] <;>
    cases grid.reduceGridMPI op <;> exact ⟨_, rfl⟩

/-- `MPI_Reduce` of the values of all processes is `__PSReduceGrid`. -/
theorem GridAgrees.gridReduce (agrees : GridAgrees space r grids)
    (floating : type = .psFloat ∨ type = .psDouble) (mpi : MPIReduce) (op : PSReduceOp)
    (absorbed : (∀ rank < space.numProcs, (grids rank).empty = false) ∨
      DefaultAbsorbed op r.p0 r.numElms) {values : Nat → ℚ}
    (are : ∀ rank, (grids rank).reductionValue type op = some (values rank)) :
    mpi.reduce op (values 0 :: (List.range' 1 (space.numProcs - 1)).map values) =
      r.reduceGrid op := by
  rw [agrees.numElms_eq] at absorbed
  have folds := ((reduction_eq_fold_iff floating agrees.distributed agrees.size_pos
    agrees.holds).mpr absorbed).2
  rw [RefGrid.reduceGrid, agrees.numElms_eq]
  refine folds _ ⟨_, ?_, mpi.combines op _ (List.cons_ne_nil _ _)⟩
  have all : List.range space.numProcs = 0 :: List.range' 1 (space.numProcs - 1) := by
    obtain ⟨n, is⟩ : ∃ n, space.numProcs = n + 1 :=
      ⟨space.numProcs - 1, by have := space.numProcs_pos; omega⟩
    rw [is, List.range_eq_range', List.range'_succ]
    rfl
  rw [all, ← List.map_cons]
  exact FallibleMaps.mapM_eq_some_map fun rank _ => are rank

end Reduce

end Physis.Runtime
