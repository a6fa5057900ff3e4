import Physis.Runtime.RpcRuns

/-!
# The runtime for several processes refines the reference runtime

A program is run by the master, which tells the clients what to do.  It gets from
every call what it gets from the reference runtime, whatever the order in which
the processes take their steps, and with buffered sends as well as with sends
that wait for their receive.
-/

namespace Physis.Runtime

open Physis.Library
open Physis.Library.RowMajor
open Physis.Library.Runs
open Physis.Library.Talks
open Physis.Library.Reductions

/-! ## Programs that the runtime accepts -/

/-- Every process has a part of the grid. -/
def GridSpaceMPI.Occupied (space : GridSpaceMPI) (r : RefGrid) : Prop :=
  ∀ rank < space.numProcs, ∀ i < space.numDims,
    0 < space.localSize rank space.numDims (space.gridSize r.numDims r.dim) (fun _ => 0) i

/-- What a call needs of its arguments; `runs` is what the run functions need. -/
def ApiCall.Valid (space : GridSpaceMPI) (runs : Nat → Int → List StencilObject → RefState → Prop)
    (ref : RefState) : ApiCall → Prop
  | gridNew type elmSize numDims size _ _ =>
      (type = .psFloat ∨ type = .psDouble) ∧ 0 < elmSize ∧ numDims ≤ space.numDims ∧
        (∀ i < numDims, 0 < size i ∧ size i ≤ space.globalSize i) ∧
          volume size numDims * elmSize < 2 ^ 31 ∧
            IntegerArray.greater size space.globalSize = false ∧ ref.allocated < 2 ^ 32
  | gridFree g | gridCopyin g _ | gridCopyout g => ∃ r, ref.heap g = some r
  | gridSet g index _ => ∃ r, ref.heap g = some r ∧ InBox r.numDims r.dim index ∧
      ∀ i, r.numDims ≤ i → index i = 0
  | reduceGrid g op => ∃ r, ref.heap g = some r ∧
      (space.Occupied r ∨ DefaultAbsorbed op r.p0 r.numElms)
  | stencilRun id iter objects => runs id iter objects ref ∧
      ∀ object ∈ objects, object.length < 2 ^ 31

/-- The calls of a program are valid, with what the reference runtime returns. -/
def ApiProgram.Valid (space : GridSpaceMPI)
    (runs : Nat → Int → List StencilObject → RefState → Prop) (stencils : ReferenceStencils) :
    ApiProgram → RefState → Prop
  | finalize, _ => True
  | call first next, ref => first.Valid space runs ref ∧
      ∀ after result, first.reference stencils ref = some (after, result) →
        (next result).Valid space runs stencils after

/-- The run functions do to all processes what they do in the reference runtime. -/
def StencilsAgree (space : GridSpaceMPI) (functions : Nat → Option StencilFunction)
    (stencils : ReferenceStencils) (runs : Nat → Int → List StencilObject → RefState → Prop) :
    Prop :=
  ∀ id iter objects ref states, runs id iter objects ref → Agrees space ref states →
    ∃ function, functions id = some function ∧ ∃ after,
      Reaches (Rendezvous (fun _ _ => none) space.numProcs)
          (parties space.numProcs (function 0 iter objects (states 0))
            fun rank => function rank iter objects (states rank))
          (parties space.numProcs (.ret (after 0)) fun rank => .ret (after rank)) ∧
        Agrees space (stencils id iter objects ref) after

/-! ## What the calls do to all processes -/

namespace Agrees

variable {space : GridSpaceMPI} {ref : RefState} {states : Nat → RankState}

theorem initial (space : GridSpaceMPI) : Agrees space .initial fun _ => .initial where
  bound := Nat.zero_le _
  fresh _ _ := rfl
  registry := ⟨fun _ => .psFloat, fun _ _ => .inl rfl, fun _ _ =>
    ⟨rfl, rfl, nofun, nofun, nofun⟩⟩
  objects _ _ := nofun

/-- A new grid on all processes. -/
theorem gridNew (agrees : Agrees space ref states) {type : PSType} {elmSize numDims : Nat}
    {size : IndexArray} (floating : type = .psFloat ∨ type = .psDouble) (element : 0 < elmSize)
    (enough : numDims ≤ space.numDims)
    (fits : ∀ i < numDims, 0 < size i ∧ size i ≤ space.globalSize i)
    (few : volume size numDims * elmSize < 2 ^ 31) (room : ref.allocated < 2 ^ 32)
    (doubleBuffering : Bool) (attr : Int) :
    ∃ after : Nat → RankState,
      (∀ rank < space.numProcs, (states rank).createGrid space rank
        (gridNewRequest type elmSize numDims size doubleBuffering attr) =
          some (after rank, ref.allocated)) ∧
      Agrees space (ref.allocate (.psGridNew elmSize numDims size doubleBuffering)) after := by
  let request := gridNewRequest type elmSize numDims size doubleBuffering attr
  let grids := space.distribute elmSize (space.gridSize numDims size) doubleBuffering (fun _ => 0)
    fun _ _ _ => (0 : ℚ)
  obtain ⟨types, floatings, registries⟩ := agrees.registry
  refine ⟨fun rank => ⟨(states rank).registry.created space rank request,
    Function.update (states rank).objects ref.allocated (grids rank)⟩, fun rank bounded => ?_, ?_⟩
  · have create := space.createGrid_eq_distribute enough rank elmSize size doubleBuffering
      (fun _ => 0) fun _ _ _ => (0 : ℚ)
    have noOffset : space.gridGlobalOffset numDims (fun _ => 0) = fun _ => 0 :=
      funext fun i => ite_self 0
    rw [noOffset] at create
    have register : (states rank).registry.createGrid space rank request = some _ :=
      GridSpace.createGrid_eq enough rank
    rw [(registries rank bounded).allocated] at register
    rw [RankState.createGrid, register]
    simp only [gridNewRequest, create, Option.bind_eq_bind, Option.bind_some]
    rfl
  refine ⟨Nat.succ_le_of_lt room, fun g beyond => ?_, ⟨Function.update types ref.allocated type,
    fun g exist => ?_, fun rank bounded => ?_⟩, fun g r is => ?_⟩
  · rw [ref.allocate_of_ne (Nat.ne_of_gt beyond)]
    exact agrees.fresh g (Nat.le_of_succ_le beyond)
  · by_cases new : g = ref.allocated
    · rwa [new, Function.update_self]
    · rw [ref.allocate_of_ne new] at exist
      rw [Function.update_of_ne new]
      exact floatings g exist
  · exact (registries rank bounded).created agrees.fresh room space rank request _
  · by_cases new : g = ref.allocated
    · subst new
      rw [ref.allocate_self] at is
      obtain rfl := Option.some.inj is
      simp only [Function.update_self]
      exact gridAgrees_new enough element fits few doubleBuffering
    · rw [ref.allocate_of_ne new] at is
      simp only [Function.update_of_ne new]
      exact agrees.objects g r is

/-- A grid deleted on all processes. -/
theorem gridFree (agrees : Agrees space ref states) {g : Nat} (exist : (ref.heap g).isSome) :
    Agrees space (ref.set g none) fun rank =>
      { states rank with registry := (states rank).registry.deleted g (gridId g) } := by
  obtain ⟨types, floatings, registries⟩ := agrees.registry
  have remains {other : Nat} {r : RefGrid} (left : (ref.set g none).heap other = some r) :
      ref.heap other = some r := by
    by_cases same : other = g
    · rw [same, ref.set_self] at left
      cases left
    · rwa [ref.set_of_ne same] at left
  refine ⟨agrees.bound, fun other beyond => ?_, ⟨types, fun other left => ?_, fun rank bounded =>
    (registries rank bounded).deleted agrees.bound agrees.fresh exist⟩,
    fun other r left => agrees.objects other r (remains left)⟩
  · rw [Option.eq_none_iff_forall_ne_some]
    intro r left
    cases (agrees.fresh other beyond).symm.trans (remains left)
  · obtain ⟨r, left⟩ := Option.isSome_iff_exists.mp left
    exact floatings other (Option.isSome_of_eq_some (remains left))

/-- A grid changed on all processes. -/
theorem setGrid (agrees : Agrees space ref states) {g : Nat} (exist : (ref.heap g).isSome)
    {r : RefGrid} {grids : Nat → GridMPI ℚ} (holds : GridAgrees space r grids) :
    Agrees space (ref.set g (some r)) fun rank => (states rank).set g (grids rank) := by
  obtain ⟨types, floatings, registries⟩ := agrees.registry
  refine ⟨agrees.bound, fun other beyond => ?_, ⟨types, fun other left => ?_, fun rank bounded =>
    (registries rank bounded).set exist r⟩, fun other r' is => ?_⟩
  · have below := RefState.lt_allocated agrees.fresh exist
    have beyond : ref.allocated ≤ other := beyond
    rw [ref.set_of_ne (by omega)]
    exact agrees.fresh other beyond
  · by_cases same : other = g
    · rw [same]
      exact floatings g exist
    · rw [ref.set_of_ne same] at left
      exact floatings other left
  · by_cases same : other = g
    · subst same
      rw [ref.set_self] at is
      obtain rfl := Option.some.inj is
      simp only [RankState.set, Function.update_self]
      exact holds
    · rw [ref.set_of_ne same] at is
      simp only [RankState.set, Function.update_of_ne same]
      exact agrees.objects other r' is

end Agrees

/-! ## Every call -/

namespace Rpc

section Session

variable {space : GridSpaceMPI} (mpi : MPIReduce) {functions : Nat → Option StencilFunction}
  {stencils : ReferenceStencils} {runs : Nat → Int → List StencilObject → RefState → Prop}

/-- A valid call comes to its end with what the reference runtime returns. -/
theorem call_runs (dims : 0 < space.numDims) (small : space.numDims ≤ psMaxDim)
    (stencilsAgree : StencilsAgree space functions stencils runs) {call : ApiCall}
    {ref : RefState} {states : Nat → RankState} (agrees : Agrees space ref states)
    (valid : call.Valid space runs ref) :
    ∃ refAfter result after, call.reference stencils ref = some (refAfter, result) ∧
      Agrees space refAfter after ∧ CallRuns space mpi functions call result states after := by
  obtain ⟨types, floatings, registries⟩ := agrees.registry
  have object {g : Nat} {r : RefGrid} (is : ref.heap g = some r) :
      ∀ rank < space.numProcs, ∃ grid, (states rank).registry.heap g = some grid ∧
        grid.id = gridId g ∧ grid.type = types g := fun rank bounded =>
    (registries rank bounded).object g (Option.isSome_of_eq_some is)
  have listed {g : Nat} {r : RefGrid} (is : ref.heap g = some r) :
      ∀ rank < space.numProcs, (states rank).registry.grids (gridId g) = some g :=
    fun rank bounded => (registries rank bounded).listed g (Option.isSome_of_eq_some is)
  cases call with
  | gridNew type elmSize numDims size doubleBuffering attr =>
      obtain ⟨floating, element, enough, fits, few, accepted, room⟩ := valid
      obtain ⟨after, creates, agreesAfter⟩ :=
        agrees.gridNew floating element enough fits few room doubleBuffering attr
      exact ⟨_, _, after, rfl, agreesAfter, gridNew_runs accepted creates⟩
  | gridFree g =>
      obtain ⟨r, is⟩ := valid
      obtain ⟨grid, exist, id, -⟩ := object is 0 space.numProcs_pos
      have exists_ := Option.isSome_of_eq_some is
      refine ⟨_, _, _, congrArg (Option.map _) is, agrees.gridFree exists_,
        gridFree_runs exist (id ▸ listed is) fun rank bounded => ?_⟩
      obtain ⟨own, ownExist, ownId, -⟩ := object is rank bounded
      rw [← ownId]
      refine GridSpace.deleteGrid_eq ownExist ?_
      rw [ownId, listed is rank bounded]
      rfl
  | gridCopyin g buf =>
      obtain ⟨r, is⟩ := valid
      obtain ⟨grid, exist, id, -⟩ := object is 0 space.numProcs_pos
      have own := agrees.objects g r is
      exact ⟨_, _, _, congrArg (Option.map _) is,
        agrees.setGrid (Option.isSome_of_eq_some is) (own.gridCopyin dims buf),
        gridCopyin_runs exist (id ▸ listed is) own.distributed dims own.element own.countable buf⟩
  | gridCopyout g =>
      obtain ⟨r, is⟩ := valid
      obtain ⟨grid, exist, id, -⟩ := object is 0 space.numProcs_pos
      have own := agrees.objects g r is
      obtain ⟨host, holds, copies⟩ := gridCopyout_runs exist
        (id ▸ listed is) own.distributed dims own.element own.countable
      rw [own.elements_eq holds] at copies
      exact ⟨_, _, states, congrArg (Option.map _) is, agrees, copies⟩
  | gridSet g index value =>
      obtain ⟨r, is, member, zero⟩ := valid
      obtain ⟨grid, exist, id, -⟩ := object is 0 space.numProcs_pos
      obtain ⟨owner, bounded, written, owns, writes, ownAfter⟩ :=
        (agrees.objects g r is).gridSet small member zero value
      have agreesAfter := agrees.setGrid (Option.isSome_of_eq_some is) ownAfter
      have same : (fun rank => (states rank).set g (Function.update
          (fun rank => (states rank).objects g) owner written rank)) =
            Function.update states owner ((states owner).set g written) := by
        funext rank
        by_cases here : rank = owner
        · rw [here, Function.update_self, Function.update_self]
        · rw [Function.update_of_ne here, Function.update_of_ne here, set_object]
      rw [same] at agreesAfter
      exact ⟨_, _, _, congrArg (Option.map _) is, agreesAfter,
        gridSet_runs exist (id ▸ listed is) bounded owns writes⟩
  | reduceGrid g op =>
      obtain ⟨r, is, absorbed⟩ := valid
      have own := agrees.objects g r is
      have floating := floatings g (Option.isSome_of_eq_some is)
      choose values are using fun rank =>
        reductionValue_isSome floating ((states rank).objects g) op
      have reduces : CallRuns space mpi functions (.reduceGrid g op) _ states states :=
        gridReduce_runs (object is) (listed is) fun rank _ => are rank
      have occupied : space.Occupied r →
          ∀ rank < space.numProcs, ((states rank).objects g).empty = false := by
        intro occupied rank bounded
        have part := own.distributed.decomposed rank bounded
        rw [part.empty_eq_false_iff, part.localSize]
        exact occupied rank bounded
      rw [own.gridReduce floating mpi op (absorbed.imp_left occupied) are] at reduces
      exact ⟨_, _, states, congrArg (Option.map _) is, agrees, reduces⟩
  | stencilRun id iter objects =>
      obtain ⟨function, known, after, executes, agreesAfter⟩ :=
        stencilsAgree id iter objects ref states valid.1 agrees
      exact ⟨_, _, after, rfl, agreesAfter, stencilRun_runs known valid.2 executes⟩

/-- A valid program comes to its end with what the reference runtime returns. -/
theorem session_runs (dims : 0 < space.numDims) (small : space.numDims ≤ psMaxDim)
    (stencilsAgree : StencilsAgree space functions stencils runs) (program : ApiProgram)
    {ref : RefState} {states : Nat → RankState} (agrees : Agrees space ref states)
    (valid : program.Valid space runs stencils ref) (before : List ApiResult) :
    ∃ (results : List ApiResult) (final : Nat → RankState),
      program.reference stencils ref before = some results ∧
      Reaches (Rendezvous (again space functions) space.numProcs)
        (parties space.numProcs (Master.session space mpi functions program (states 0) before)
          fun rank => Client.listen space functions rank (states rank))
        (parties space.numProcs (.ret (.returned (final 0) results))
          fun rank => .ret (.exited (final rank))) := by
  induction program generalizing ref states before with
  | finalize => exact ⟨before, states, rfl, notified .funcFinalize 0 states _⟩
  | call first next induction =>
      obtain ⟨refAfter, result, after, returns, agreesAfter, calls⟩ :=
        call_runs mpi dims small stencilsAgree agrees valid.1
      obtain ⟨results, final, goesOn, rest⟩ :=
        induction result agreesAfter (valid.2 refAfter result returns) (before ++ [result])
      refine ⟨results, final, ?_, (calls _).trans rest⟩
      rw [ApiProgram.reference, returns]
      exact goesOn

end Session

end Rpc

/--
The runtime for several processes refines the reference runtime.  Every run of a
valid program, with buffered sends or without buffers, ends with all clients
exited, no message in flight, and what the reference runtime returns; on the way
no process aborts or waits forever.
-/
theorem session_refines_reference (space : GridSpaceMPI) (mpi : MPIReduce)
    (functions : Nat → Option StencilFunction) (stencils : ReferenceStencils)
    (runs : Nat → Int → List StencilObject → RefState → Prop) (program : ApiProgram)
    (dims : 0 < space.numDims) (small : space.numDims ≤ psMaxDim)
    (stencilsAgree : StencilsAgree space functions stencils runs)
    (valid : program.Valid space runs stencils .initial) :
    ∃ (results : List ApiResult) (final : Nat → RankState),
      program.reference stencils .initial [] = some results ∧
      Talks.Completes (Rpc.again space functions) space.numProcs
        (Rpc.session space mpi functions program)
        (parties space.numProcs (.ret (.returned (final 0) results))
          fun rank => .ret (.exited (final rank))) := by
  obtain ⟨results, final, returns, runs⟩ := Rpc.session_runs mpi dims small stencilsAgree
    program (.initial space) valid []
  refine ⟨results, final, returns, completes_of_rendezvous runs fun rank bounded => ?_⟩
  by_cases master : rank = 0
  · exact ⟨_, if_pos master, rfl⟩
  · exact ⟨_, parties_client (Nat.pos_of_ne_zero master) bounded, rfl⟩

/-! ## A program on two processes -/

/-! ### A kernel that doubles every element -/

/-- One iteration of the kernel on the part of a process. -/
def GridMPI.doubled (grid : GridMPI ℚ) : GridMPI ℚ :=
  grid.withCells (grid.localCells.map (2 * ·))

/-- One iteration in the reference runtime. -/
def RefGrid.doubled (r : RefGrid) : RefGrid :=
  { r with p0 := fun i => if 0 ≤ i ∧ i < r.numElms then 2 * r.p0 i else r.p0 i }

/-- The grid that a stencil object names by its id in one byte. -/
def stencilGrid : List StencilObject → Option Nat
  | [[id]] => some id.toNat
  | _ => none

/-- The run function of the kernel: all iterations, with nothing to receive. -/
def doubleAll : StencilFunction := fun _ iter stencils state => do
  let id ← Talk.require (stencilGrid stencils)
  let g ← Talk.require (state.registry.findGrid id)
  return state.set g (GridMPI.doubled^[iter.toNat] (state.objects g))

/-- The same in the reference runtime. -/
def referenceDoubleAll : ReferenceStencils := fun _ iter stencils ref =>
  match stencilGrid stencils with
  | none => ref
  | some g => ref.set g ((ref.heap g).map RefGrid.doubled^[iter.toNat])

theorem GridAgrees.doubled {space : GridSpaceMPI} {r : RefGrid} {grids : Nat → GridMPI ℚ}
    (agrees : GridAgrees space r grids) :
    GridAgrees space r.doubled fun rank => (grids rank).doubled := by
  refine ⟨agrees.enough, agrees.element, agrees.positive, agrees.numElms,
    ⟨agrees.distributed.fits, fun rank bounded =>
      (agrees.distributed.decomposed rank bounded).withCells _⟩,
    agrees.countable, ?_, agrees.inactive⟩
  intro rank bounded index member
  have own := agrees.distributed.decomposed rank bounded
  have member : InBox space.numDims (grids rank).localSize index := member
  have inside := agrees.inside_of_local bounded member
  have holds := agrees.holds rank bounded index member
  have element : 0 ≤ linear (space.gridSize r.numDims r.dim)
        (fun i => (grids rank).localOffset i + index i) space.numDims ∧
      linear (space.gridSize r.numDims r.dim)
        (fun i => (grids rank).localOffset i + index i) space.numDims < r.numElms := by
    refine ⟨linear_nonneg inside, ?_⟩
    rw [agrees.numElms, ← volume_gridSize space r.dim agrees.enough]
    exact linear_lt_volume inside
  have position : (linear (grids rank).localSize index space.numDims).toNat <
      (IntegerArray.accumulate (grids rank).localSize (grids rank).numDims).toNat := by
    have first := linear_nonneg member
    have last := linear_lt_volume member
    rw [own.numDims, IntegerArray.accumulate_eq_volume]
    omega
  have written : (grids rank).doubled.data
      (linear (grids rank).localSize index space.numDims) =
        2 * (grids rank).data (linear (grids rank).localSize index space.numDims) := by
    rw [GridMPI.doubled, GridMPI.withCells_data, overwrite, if_pos (linear_nonneg member)]
    simp [GridMPI.localCells, List.getElem?_range position,
      Int.toNat_of_nonneg (linear_nonneg member)]
  exact written.trans ((congrArg (2 * ·) holds).trans (if_pos element).symm)

theorem GridAgrees.iterate_doubled {space : GridSpaceMPI} {r : RefGrid}
    {grids : Nat → GridMPI ℚ} (agrees : GridAgrees space r grids) (iterations : Nat) :
    GridAgrees space (RefGrid.doubled^[iterations] r)
      fun rank => GridMPI.doubled^[iterations] (grids rank) := by
  induction iterations with
  | zero => exact agrees
  | succ iterations induction =>
      simp only [Function.iterate_succ_apply']
      exact induction.doubled

theorem doubleAll_agrees (space : GridSpaceMPI) : StencilsAgree space (fun _ => some doubleAll)
    referenceDoubleAll fun _ _ stencils ref =>
      ∃ g, stencilGrid stencils = some g ∧ (ref.heap g).isSome := by
  rintro id iter stencils ref states ⟨g, named, exist⟩ agrees
  obtain ⟨types, _, registries⟩ := agrees.registry
  obtain ⟨r, is⟩ := Option.isSome_iff_exists.mp exist
  have small : g < 256 := by
    unfold stencilGrid at named
    split at named
    · rename_i byte
      rw [← Option.some.inj named]
      exact byte.isLt
    · cases named
  have sameId : gridId g = (g : Int) := by
    have fits : (BitVec.ofNat 32 g).toNat = g := by
      rw [BitVec.toNat_ofNat]
      omega
    rw [gridId, BitVec.toInt_eq_toNat_of_lt (by omega), fits]
  have runs (rank : Nat) (bounded : rank < space.numProcs) :
      doubleAll rank iter stencils (states rank) =
        .ret ((states rank).set g (GridMPI.doubled^[iter.toNat] ((states rank).objects g))) := by
    have found := (registries rank bounded).listed g exist
    rw [sameId] at found
    simp only [doubleAll, named, Talk.require_some, Talk.ret_bind, GridSpace.findGrid, found,
      Talk.pure_eq]
  refine ⟨doubleAll, rfl, fun rank => (states rank).set g
    (GridMPI.doubled^[iter.toNat] ((states rank).objects g)), ?_, ?_⟩
  · rw [runs 0 space.numProcs_pos, parties_congr fun rank _ bounded => runs rank bounded]
  · have ownAfter := (agrees.objects g r is).iterate_doubled iter.toNat
    have agreesAfter := agrees.setGrid exist ownAfter
    simp only [referenceDoubleAll, named, is, Option.map_some]
    exact agreesAfter

/-- A grid of two by two elements is filled, changed in one element, doubled and summed up. -/
def fillAndSum : ApiProgram :=
  .call (.gridNew .psFloat 4 2 (IntegerArray.mk3 2 2 0) false 0) fun _ =>
    .call (.gridCopyin 0 fun position => position) fun _ =>
      .call (.gridSet 0 (IntegerArray.mk3 1 0 0) 7) fun _ =>
        .call (.stencilRun 0 3 [[0]]) fun _ =>
          .call (.reduceGrid 0 .psSum) fun _ =>
            .call (.gridCopyout 0) fun _ => .call (.gridFree 0) fun _ => .finalize

theorem fillAndSum_valid : fillAndSum.Valid splitPlane
    (fun _ _ stencils ref => ∃ g, stencilGrid stencils = some g ∧ (ref.heap g).isSome)
    referenceDoubleAll .initial := by
  refine ⟨⟨.inl rfl, by decide, by decide, by decide, by decide, by decide, by decide⟩, ?_⟩
  rintro _ _ ⟨⟩
  refine ⟨⟨_, rfl⟩, ?_⟩
  rintro _ _ ⟨⟩
  refine ⟨⟨_, rfl, by unfold InBox; decide, fun i beyond => ?_⟩, ?_⟩
  · match i, beyond with
    | 2, _ => rfl
    | i + 3, _ => rfl
  rintro _ _ ⟨⟩
  refine ⟨⟨⟨0, rfl, rfl⟩, by decide⟩, ?_⟩
  rintro _ _ ⟨⟩
  refine ⟨⟨_, rfl, .inr trivial⟩, ?_⟩
  rintro _ _ ⟨⟩
  refine ⟨⟨_, rfl⟩, ?_⟩
  rintro _ _ ⟨⟩
  refine ⟨⟨_, rfl⟩, ?_⟩
  rintro _ _ ⟨⟩
  trivial

theorem fillAndSum_refines :
    ∃ (results : List ApiResult) (final : Nat → RankState),
      fillAndSum.reference referenceDoubleAll .initial [] = some results ∧
      Talks.Completes (Rpc.again splitPlane fun _ => some doubleAll) splitPlane.numProcs
        (Rpc.session splitPlane .byRank (fun _ => some doubleAll) fillAndSum)
        (parties splitPlane.numProcs (.ret (.returned (final 0) results))
          fun rank => .ret (.exited (final rank))) :=
  session_refines_reference splitPlane .byRank _ _ _ fillAndSum (by decide) (by decide)
    (doubleAll_agrees splitPlane) fillAndSum_valid

end Physis.Runtime
