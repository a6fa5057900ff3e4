import Physis.Runtime.RpcAgreement

/-!
# Sessions

A call of the master and what the clients do for it can be executed with every
send met at once.  Then whatever the order of the steps, a session comes to its
end, and the program has seen what the reference runtime would have returned.
-/

namespace Physis.Runtime.Rpc

open Physis.Library
open Physis.Library.RowMajor
open Physis.Library.Runs
open Physis.Library.Talks
open Talk (require require_some receiveAs)

/-! ## Requests -/

section Calls

variable {space : GridSpaceMPI} {mpi : MPIReduce} {functions : Nat → Option StencilFunction}

/-- Writing a grid back changes nothing. -/
theorem set_object (state : RankState) (g : Nat) : state.set g (state.objects g) = state := by
  rw [RankState.set, Function.update_eq_self]

theorem asCells_cells {payload : List ℚ} {count : Nat} (length : payload.length = count) :
    RpcMessage.asCells count (.cells payload) = some payload :=
  if_pos length

@[simp]
theorem check_true : check true = .ret () := rfl

/-- The clients receive the request and serve it. -/
theorem notified (kind : RtFuncKind) (opt : Int) (states : Nat → RankState)
    (next : Unit → RpcTalk Outcome) :
    Reaches (Rendezvous (again space functions) space.numProcs)
      (parties space.numProcs (Master.notifyCall space kind opt >>= next)
        fun rank => Client.listen space functions rank (states rank))
      (parties space.numProcs (next ())
        fun rank => Client.serve space functions rank (states rank) opt kind) := by
  have meets : RpcMessage.asRequest (.request kind opt) = some (kind, opt) := rfl
  exact reaches_broadcast space.numProcs_pos meets next fun rank request =>
    Client.serve space functions rank (states rank) request.2 request.1

/-- The clients listen again. -/
theorem listening (states : Nat → RankState) (master : RpcTalk Outcome) :
    Reaches (Rendezvous (again space functions) space.numProcs)
      (parties space.numProcs master fun rank => .ret (.listening (states rank)))
      (parties space.numProcs master
        fun rank => Client.listen space functions rank (states rank)) := by
  refine clients_go space.numProcs_pos fun i client bounded master others => ?_
  have returned : parties space.numProcs master
      (Function.update others i (.ret (.listening (states i)))) i =
        .ret (.listening (states i)) := by
    rw [parties_client client bounded, Function.update_self]
  have step : Rendezvous (again space functions) space.numProcs _ _ :=
    .again bounded returned rfl
  rw [update_parties client bounded, Function.update_idem] at step
  exact .single step

/-- Clients that have served a request listen again. -/
theorem listening_of {states : Nat → RankState} {master : RpcTalk Outcome}
    {clients : Nat → RpcTalk Outcome}
    (served : ∀ rank < space.numProcs, 0 < rank →
      clients rank = .ret (.listening (states rank))) :
    Reaches (Rendezvous (again space functions) space.numProcs)
      (parties space.numProcs master clients)
      (parties space.numProcs master
        fun rank => Client.listen space functions rank (states rank)) := by
  rw [parties_congr fun rank client bounded => served rank bounded client]
  exact listening states master

/-- The master and the clients get from the beginning of a call to its end. -/
def CallRuns (space : GridSpaceMPI) (mpi : MPIReduce) (functions : Nat → Option StencilFunction)
    (call : ApiCall) (result : ApiResult) (states after : Nat → RankState) : Prop :=
  ∀ next : RankState × ApiResult → RpcTalk Outcome,
    Reaches (Rendezvous (again space functions) space.numProcs)
      (parties space.numProcs (Master.call space mpi functions (states 0) call >>= next)
        fun rank => Client.listen space functions rank (states rank))
      (parties space.numProcs (next (after 0, result))
        fun rank => Client.listen space functions rank (after rank))

/-! ## New grids and deletions -/

/-- The creation of a grid. -/
theorem gridNew_runs {type : PSType} {elmSize numDims : Nat} {size : IndexArray}
    {doubleBuffering : Bool} {attr : Int} {states after : Nat → RankState} {g : Nat}
    (accepted : IntegerArray.greater size space.globalSize = false)
    (creates : ∀ rank < space.numProcs, (states rank).createGrid space rank
      (gridNewRequest type elmSize numDims size doubleBuffering attr) = some (after rank, g)) :
    CallRuns space mpi functions (.gridNew type elmSize numDims size doubleBuffering attr)
      (.grid g) states after := by
  intro next
  simp only [Master.call, accepted, Bool.false_eq_true, if_false, Master.gridNew, Talk.bind_assoc,
    creates 0 space.numProcs_pos, require_some, Talk.ret_bind, Talk.pure_eq]
  refine (notified .funcNew 0 states _).trans ?_
  have serves (rank : Nat) : Client.serve space functions rank (states rank) 0 .funcNew =
      receiveAs 0 RpcMessage.asRequestNew >>= fun request =>
        require ((states rank).createGrid space rank request) >>= fun created =>
          .ret (.listening created.1) := by
    simp only [Client.serve, Client.gridNew, Talk.bind_assoc, Talk.pure_eq, Talk.ret_bind]
  rw [parties_congr fun rank _ _ => serves rank]
  have meets : RpcMessage.asRequestNew (.requestNew
      (gridNewRequest type elmSize numDims size doubleBuffering attr)) = some _ := rfl
  refine (reaches_broadcast space.numProcs_pos meets _ _).trans ?_
  refine listening_of fun rank bounded _ => ?_
  rw [creates rank bounded]
  rfl

/-- The deletion of a grid. -/
theorem gridFree_runs {g : Nat} {states : Nat → RankState} {registries : Nat → GridSpace}
    {grid : Grid} (exist : (states 0).registry.heap g = some grid)
    (found : ∀ rank < space.numProcs, (states rank).registry.grids grid.id = some g)
    (deletes : ∀ rank < space.numProcs,
      (states rank).registry.deleteGrid g = some (registries rank)) :
    CallRuns space mpi functions (.gridFree g) .returned states
      fun rank => { states rank with registry := registries rank } := by
  intro next
  simp only [Master.call, Master.gridDelete, exist, require_some, Talk.ret_bind, Talk.bind_assoc,
    deletes 0 space.numProcs_pos, Talk.pure_eq]
  refine (notified .funcDelete grid.id states _).trans ?_
  refine listening_of fun rank bounded _ => ?_
  simp only [Client.serve, Client.gridDelete, GridSpace.deleteGridId, GridSpace.findGrid,
    found rank bounded, deletes rank bounded, require_some, Talk.ret_bind, Talk.pure_eq]

/-! ## Copies -/

/-- A client tells the master where its subgrid lies. -/
theorem tells {i : Nat} (client : 0 < i) (bounded : i < space.numProcs) (offset size : IndexArray)
    (rest : RpcTalk Outcome) (others : Nat → RpcTalk Outcome)
    (body : IndexArray → IndexArray → RpcTalk Outcome) :
    Reaches (Rendezvous (again space functions) space.numProcs)
      (parties space.numProcs (receiveAs i RpcMessage.asIndexArray >>= fun subgridOffset =>
        receiveAs i RpcMessage.asIndexArray >>= fun subgridSize => body subgridOffset subgridSize)
        (Function.update others i
          (.send 0 (.indexArray offset) (.send 0 (.indexArray size) rest))))
      (parties space.numProcs (body offset size) (Function.update others i rest)) :=
  .tail (.single (.back client bounded rfl _ _)) (.back client bounded rfl _ _)

/-- The master has copied its own part out. -/
theorem hostHolds_gridCopyoutLocal {elmSize : Nat} {size globalOffset : IndexArray}
    {grids : Nat → GridMPI ℚ} (distributed : Distributed space elmSize size globalOffset grids)
    (dims : 0 < space.numDims) (buf : Int → ℚ) :
    HostHolds space size grids 1 (Runtime.Master.gridCopyoutLocal (grids 0) buf) := by
  intro rank before index member
  obtain rfl : rank = 0 := by omega
  have own := distributed.decomposed 0 space.numProcs_pos
  have occupied : (grids 0).empty = false :=
    own.empty_eq_false_iff.mpr fun i below => by
      have bounds := member i below
      omega
  rw [Runtime.Master.gridCopyoutLocal, occupied, if_neg (by decide), own.numDims, own.size]
  exact copyinSubgrid_own distributed dims _ _ space.numProcs_pos (fun _ _ => rfl) member

/-- A subgrid that is empty has no elements. -/
theorem hostHolds_skip {elmSize : Nat} {size globalOffset : IndexArray}
    {grids : Nat → GridMPI ℚ} (distributed : Distributed space elmSize size globalOffset grids)
    {i : Nat} (bounded : i < space.numProcs) (empty : (grids i).empty = true) {buf : Int → ℚ}
    (holds : HostHolds space size grids i buf) : HostHolds space size grids (i + 1) buf := by
  intro rank before index member
  rcases Nat.lt_succ_iff_lt_or_eq.mp before with earlier | rfl
  · exact holds rank earlier index member
  · have occupied : (grids rank).empty = false :=
      (distributed.decomposed rank bounded).empty_eq_false_iff.mpr fun d below => by
        have bounds := member d below
        omega
    rw [occupied] at empty
    cases empty

/-- The subgrid of the next client is put at its place. -/
theorem hostHolds_copyinSubgrid {elmSize : Nat} {size globalOffset : IndexArray}
    {grids : Nat → GridMPI ℚ} (distributed : Distributed space elmSize size globalOffset grids)
    (dims : 0 < space.numDims) {i : Nat} (bounded : i < space.numProcs) {buf : Int → ℚ}
    (holds : HostHolds space size grids i buf) (sbuf : Int → ℚ) :
    HostHolds space size grids (i + 1) (copyinSubgrid space.numDims buf size
      (overwrite sbuf (grids i).localCells) (grids i).localOffset (grids i).localSize) := by
  have own := distributed.decomposed i bounded
  have reads := reads_overwrite_localCells
    (by rw [own.numDims]; exact fun d below => own.localSize_nonneg below) sbuf
  rw [own.numDims] at reads
  intro rank before index member
  rcases Nat.lt_succ_iff_lt_or_eq.mp before with earlier | rfl
  · rw [copyinSubgrid_other distributed dims _ _ (by omega) bounded (by omega) member]
    exact holds rank earlier index member
  · exact copyinSubgrid_own distributed dims _ _ bounded reads member

/-- What a client sends for a copy out, if the bytes of its part are counted. -/
theorem serve_gridCopyout {rank g : Nat} {id : Int} {state : RankState}
    (found : state.registry.grids id = some g)
    (counted : Counted (state.objects g).elmSize (state.objects g).numDims
      (state.objects g).localSize)
    (element : 0 < (state.objects g).elmSize) :
    Client.serve space functions rank state id .funcCopyout =
      .send 0 (.indexArray (state.objects g).localOffset)
        (.send 0 (.indexArray (state.objects g).localSize)
          ((if (state.objects g).empty then .ret state
            else .send 0 (.cells (state.objects g).localCells) (.ret state)) >>= fun state =>
              .ret (.listening state))) := by
  have cells : (state.objects g).localCells.take
      ((IntegerArray.accumulate (state.objects g).localSize (state.objects g).numDims).toNat *
        (state.objects g).elmSize / (state.objects g).elmSize) =
          (state.objects g).localCells := by
    rw [Nat.mul_div_cancel _ element, ← length_localCells, List.take_length]
  simp only [Client.serve, Client.gridCopyout, GridSpace.findGrid, found, require_some,
    Talk.ret_bind, Talk.send_bind, counted.count, cells, Talk.pure_eq]

section Copies

variable {g elmSize : Nat} {size globalOffset : IndexArray} {states : Nat → RankState}
  {grid : Grid} (exist : (states 0).registry.heap g = some grid)
  (found : ∀ rank < space.numProcs, (states rank).registry.grids grid.id = some g)
  (distributed : Distributed space elmSize size globalOffset fun rank => (states rank).objects g)
  (dims : 0 < space.numDims) (element : 0 < elmSize)
  (countable : Countable space elmSize size globalOffset)

include exist found distributed dims element countable

/-- The copy from an array of the master to all subgrids. -/
theorem gridCopyin_runs (buf : Int → ℚ) :
    CallRuns space mpi functions (.gridCopyin g buf) .returned states fun rank =>
      (states rank).set g (afterCopyin (fun rank => (states rank).objects g) buf rank) := by
  intro next
  have root := distributed.decomposed 0 space.numProcs_pos
  have passes := root.counted countable element space.numProcs_pos
  simp only [Master.call, Master.gridCopyin, exist, passes.fills, passes.ends, check_true,
    require_some, Talk.ret_bind, Talk.bind_assoc, Talk.pure_eq]
  refine (notified .funcCopyin grid.id states _).trans ?_
  let filled := Runtime.Master.gridCopyinLocal ((states 0).objects g) buf
  have filledElmSize : filled.elmSize = elmSize := root.elmSize
  have filledNumDims : filled.numDims = space.numDims := root.numDims
  have filledSize : filled.size = size := root.size
  have round : ∀ i (_ : Unit), 0 < i → i < space.numProcs → True → ∃ state' : Unit, True ∧
      ∀ (later : Unit → RpcTalk Outcome) (others : Nat → RpcTalk Outcome),
        Reaches (Rendezvous (again space functions) space.numProcs)
          (parties space.numProcs (Master.copyinClient filled buf () i >>= later)
            (Function.update others i
              (Client.serve space functions i (states i) grid.id .funcCopyin)))
          (parties space.numProcs (later state') (Function.update others i (.ret (.listening
            ((states i).set g (copiedIn ((states i).objects g) buf)))))) := by
    intro i _ client bounded _
    refine ⟨(), trivial, fun later others => ?_⟩
    have own := distributed.decomposed i bounded
    rw [Client.serve, Client.gridCopyin, GridSpace.findGrid, found i bounded, require_some,
      Talk.ret_bind, Talk.send_bind, Talk.send_bind]
    simp only [Master.copyinClient, Talk.bind_assoc]
    refine (tells client bounded _ _ _ others _).trans ?_
    have counted := own.counted countable element bounded
    have masterCounted := counted
    rw [own.elmSize, own.numDims] at masterCounted
    have bytes := own.getLinearSize_eq_zero_iff element masterCounted
    rw [filledElmSize, filledNumDims, filledSize]
    by_cases empty : ((states i).objects g).empty = true
    · rw [if_pos (bytes.mpr empty), if_pos empty, copiedIn, if_pos empty, set_object (states i) g]
      exact .refl
    · rw [if_neg (mt bytes.mp empty), if_neg empty, copiedIn, if_neg empty]
      let payload := copyoutSubgrid space.numDims buf size ((states i).objects g).localOffset
        ((states i).objects g).localSize
      have length : payload.length =
          (IntegerArray.accumulate ((states i).objects g).localSize space.numDims).toNat :=
        length_copyoutSubgrid dims _ _ _ fun d below => own.localSize_nonneg below
      have received : payload.length = (IntegerArray.accumulate
          ((states i).objects g).localSize ((states i).objects g).numDims).toNat *
            ((states i).objects g).elmSize / ((states i).objects g).elmSize := by
        rw [own.elmSize, own.numDims, Nat.mul_div_cancel _ element, length]
      simp only [masterCounted.ends, masterCounted.count, counted.count, check_true, require_some,
        Talk.bind_assoc, Talk.pure_eq, Talk.ret_bind, Talk.send_bind,
        Nat.mul_div_cancel _ element, ← length]
      rw [List.take_length]
      refine .trans (.single (.forth client bounded (asCells_cells received) _)) ?_
      rw [Runtime.Master.gridCopyinLocal, own.numDims, own.size]
  obtain ⟨_, -, run⟩ := rounds space.numProcs_pos round trivial
  refine (run _).trans (listening_of fun rank bounded client => ?_)
  rw [afterCopyin, if_neg (by omega)]

/-- The copy from all subgrids to an array of the master. -/
theorem gridCopyout_runs :
    ∃ host, HostHolds space size (fun rank => (states rank).objects g) space.numProcs host ∧
      CallRuns space mpi functions (.gridCopyout g)
        (.array (elements host (IntegerArray.accumulate size space.numDims))) states states := by
  let grids := fun rank => (states rank).objects g
  have root : Decomposed space elmSize size globalOffset 0 (grids 0) :=
    distributed.decomposed 0 space.numProcs_pos
  have round : ∀ i (bufs : (Int → ℚ) × (Int → ℚ)), 0 < i → i < space.numProcs →
      HostHolds space size grids i bufs.1 → ∃ bufs' : (Int → ℚ) × (Int → ℚ),
        HostHolds space size grids (i + 1) bufs'.1 ∧
      ∀ (later : (Int → ℚ) × (Int → ℚ) → RpcTalk Outcome) (others : Nat → RpcTalk Outcome),
        Reaches (Rendezvous (again space functions) space.numProcs)
          (parties space.numProcs (Master.copyoutClient (grids 0) bufs i >>= later)
            (Function.update others i
              (Client.serve space functions i (states i) grid.id .funcCopyout)))
          (parties space.numProcs (later bufs')
            (Function.update others i (.ret (.listening (states i))))) := by
    intro i bufs client bounded holds
    have own : Decomposed space elmSize size globalOffset i (grids i) :=
      distributed.decomposed i bounded
    have counted := own.counted countable element bounded
    have masterCounted := counted
    rw [own.elmSize, own.numDims] at masterCounted
    have bytes := own.getLinearSize_eq_zero_iff element masterCounted
    have length : (grids i).localCells.length =
        (IntegerArray.accumulate (grids i).localSize (grids i).numDims).toNat :=
      length_localCells _
    have serves : Client.serve space functions i (states i) grid.id .funcCopyout =
        .send 0 (.indexArray (grids i).localOffset)
          (.send 0 (.indexArray (grids i).localSize) ((if (grids i).empty then .ret (states i)
            else .send 0 (.cells (grids i).localCells) (.ret (states i))) >>= fun state =>
              .ret (.listening state))) := by
      exact serve_gridCopyout (found i bounded) counted (element.trans_eq own.elmSize.symm)
    by_cases empty : (grids i).empty = true
    · refine ⟨bufs, hostHolds_skip distributed bounded empty holds, fun later others => ?_⟩
      simp only [Master.copyoutClient, Talk.bind_assoc, serves]
      refine (tells client bounded _ _ _ others _).trans ?_
      rw [root.elmSize, root.numDims, if_pos (bytes.mpr empty), if_pos empty]
      exact .refl
    · refine ⟨(_, overwrite bufs.2 (grids i).localCells),
        hostHolds_copyinSubgrid distributed dims bounded holds bufs.2,
        fun later others => ?_⟩
      have received : (grids i).localCells.length =
          (IntegerArray.accumulate (grids i).localSize space.numDims).toNat * elmSize /
            elmSize := by
        rw [length, own.numDims, Nat.mul_div_cancel _ element]
      simp only [Master.copyoutClient, Talk.bind_assoc, serves]
      refine (tells client bounded _ _ _ others _).trans ?_
      rw [root.elmSize, root.numDims, root.size, if_neg (mt bytes.mp empty), if_neg empty]
      simp only [masterCounted.count, masterCounted.ends, check_true, require_some, Talk.ret_bind,
        Talk.bind_assoc]
      exact .single (.back client bounded (asCells_cells received) _ _)
  have start : HostHolds space size grids 1 ((Runtime.Master.gridCopyoutLocal (grids 0)
      fun _ => 0, fun _ => 0) : (Int → ℚ) × (Int → ℚ)).1 :=
    hostHolds_gridCopyoutLocal distributed dims _
  obtain ⟨⟨host, sbuf⟩, holds, run⟩ := rounds space.numProcs_pos round start
  refine ⟨host, holds, fun next => ?_⟩
  have passes := root.counted countable element space.numProcs_pos
  simp only [Master.call, Master.gridCopyout, exist, show endsAtSize ((states 0).objects g).elmSize
      ((states 0).objects g).numDims ((states 0).objects g).localSize = true from passes.ends,
    Bool.or_true, check_true, require_some, Talk.ret_bind, Talk.bind_assoc, Talk.pure_eq]
  refine (notified .funcCopyout grid.id states _).trans ?_
  refine (run _).trans ?_
  rw [root.numDims, root.size]
  exact listening states _

end Copies

/-! ## Elements and reductions -/

/-- The process that owns the element writes it. -/
theorem gridSet_runs {g owner : Nat} {index : IndexArray} {value : ℚ} {states : Nat → RankState}
    {grid : Grid} {written : GridMPI ℚ} (exist : (states 0).registry.heap g = some grid)
    (found : ∀ rank < space.numProcs, (states rank).registry.grids grid.id = some g)
    (bounded : owner < space.numProcs)
    (owns : space.findOwnerProcess ((states 0).objects g) index = some owner)
    (writes : ((states owner).objects g).set index value = some written) :
    CallRuns space mpi functions (.gridSet g index value) .returned states
      (Function.update states owner ((states owner).set g written)) := by
  intro next
  simp only [Master.call, Master.gridSet, exist, owns, require_some, Talk.ret_bind, Talk.bind_assoc,
    Talk.pure_eq]
  by_cases master : owner = 0
  · subst master
    rw [if_neg (not_not_intro rfl)]
    simp only [writes, require_some, Talk.ret_bind, Function.update_self]
    have clients : (parties space.numProcs (next ((states 0).set g written, .returned)) fun rank =>
        Client.listen space functions rank (states rank)) =
          parties space.numProcs (next ((states 0).set g written, .returned)) fun rank =>
            Client.listen space functions rank
              (Function.update states 0 ((states 0).set g written) rank) :=
      parties_congr fun rank client _ => by rw [Function.update_of_ne (by omega)]
    rw [clients]
  have client : 0 < owner := Nat.pos_of_ne_zero master
  rw [if_pos master]
  simp only [Talk.bind_assoc, Talk.send_bind, Talk.ret_bind, Function.update_of_ne (Ne.symm master)]
  refine (notified .funcSet owner states _).trans ?_
  let served : Nat → RpcTalk Outcome := fun rank => .ret (.listening (states rank))
  have serves (rank : Nat) (_ : 0 < rank) (_ : rank < space.numProcs) :
      Client.serve space functions rank (states rank) owner .funcSet =
        Function.update served owner (receiveAs 0 RpcMessage.asInt >>= fun gid =>
          require ((states owner).registry.findGrid gid) >>= fun g =>
            receiveAs 0 RpcMessage.asIndexArray >>= fun index =>
              receiveAs 0 RpcMessage.asElement >>= fun buf =>
                require (((states owner).objects g).set index buf) >>= fun written =>
                  .ret (.listening ((states owner).set g written))) rank := by
    by_cases own : rank = owner
    · subst own
      simp only [Function.update_self, Client.serve, Client.gridSet, Talk.bind_assoc, Talk.pure_eq,
        Talk.ret_bind, ne_eq, not_true_eq_false, if_false]
    · simp [served, own, Ne.symm own, Client.serve, Client.gridSet]
  rw [parties_congr serves]
  have id : RpcMessage.asInt (.int grid.id) = some grid.id := rfl
  have place : RpcMessage.asIndexArray (.indexArray index) = some index := rfl
  have element : RpcMessage.asElement (.element value) = some value := rfl
  refine .trans (.single (.forth client bounded id _)) ?_
  rw [GridSpace.findGrid, found owner bounded, require_some, Talk.ret_bind]
  refine .trans (.single (.forth client bounded place _)) ?_
  refine .trans (.single (.forth client bounded element _)) ?_
  rw [writes, require_some, Talk.ret_bind]
  refine listening_of fun rank _ _ => ?_
  simp only [served, Function.update_apply]
  split_ifs <;> rfl

/-- All processes fold their elements, and the master folds the values. -/
theorem gridReduce_runs {g : Nat} {op : PSReduceOp} {states : Nat → RankState} {values : Nat → ℚ}
    {id : Int} {type : PSType} (exist : ∀ rank < space.numProcs,
      ∃ grid, (states rank).registry.heap g = some grid ∧ grid.id = id ∧ grid.type = type)
    (found : ∀ rank < space.numProcs, (states rank).registry.grids id = some g)
    (reduces : ∀ rank < space.numProcs,
      ((states rank).objects g).reductionValue type op = some (values rank)) :
    CallRuns space mpi functions (.reduceGrid g op) (.value (mpi.reduce op
      (values 0 :: (List.range' 1 (space.numProcs - 1)).map values))) states states := by
  intro next
  have positive := space.numProcs_pos
  obtain ⟨root, rootExist, rfl, rfl⟩ := exist 0 positive
  simp only [Master.call, Master.gridReduce, rootExist, reduces 0 positive, require_some,
    Talk.ret_bind, Talk.bind_assoc, Talk.pure_eq]
  refine (notified .funcGridReduce root.id states _).trans ?_
  have serves (rank : Nat) (_ : 0 < rank) (bounded : rank < space.numProcs) :
      Client.serve space functions rank (states rank) root.id .funcGridReduce =
        receiveAs 0 RpcMessage.asReduceOp >>= fun op =>
          require (((states rank).objects g).reductionValue root.type op) >>= fun value =>
            .send 0 (.element value) (.ret (.listening (states rank))) := by
    obtain ⟨grid, gridExist, -, sameType⟩ := exist rank bounded
    simp only [Client.serve, Client.gridReduce, GridSpace.findGrid, found rank bounded, gridExist,
      sameType, require_some, Talk.bind_assoc, Talk.pure_eq, Talk.ret_bind, Talk.send_bind]
  rw [parties_congr serves]
  have meets : RpcMessage.asReduceOp (.reduceOp op) = some op := rfl
  refine (reaches_broadcast positive meets _ _).trans ?_
  have sends (rank : Nat) (_ : 0 < rank) (bounded : rank < space.numProcs) :
      (require (((states rank).objects g).reductionValue root.type op) >>= fun value =>
        .send 0 (.element value) (.ret (.listening (states rank)))) =
          (.send 0 (.element (values rank)) (.ret (.listening (states rank))) :
            RpcTalk Outcome) := by
    rw [reduces rank bounded, require_some, Talk.ret_bind]
  rw [parties_congr sends]
  have elements (rank : Nat) :
      RpcMessage.asElement (.element (values rank)) = some (values rank) := rfl
  exact (reaches_gather positive elements _ _).trans (listening states _)

/-! ## Barriers and stencils -/

/-- No client leaves a barrier before all have come to it. -/
theorem barrier_runs (states : Nat → RankState) (next : Unit → RpcTalk Outcome) :
    Reaches (Rendezvous (again space functions) space.numProcs)
      (parties space.numProcs (Master.barrier space >>= next)
        fun rank => Client.listen space functions rank (states rank))
      (parties space.numProcs (next ())
        fun rank => Client.listen space functions rank (states rank)) := by
  have positive := space.numProcs_pos
  have comes (_ : Nat) : RpcMessage.asBarrier .barrier = some () := rfl
  simp only [Master.barrier, Talk.bind_assoc]
  refine (notified .funcBarrier 0 states _).trans ?_
  have serves (rank : Nat) (_ : 0 < rank) (_ : rank < space.numProcs) :
      Client.serve space functions rank (states rank) 0 .funcBarrier =
        .send 0 .barrier (receiveAs 0 RpcMessage.asBarrier >>= fun _ =>
          .ret (.listening (states rank))) := by
    simp only [Client.serve, Client.barrier, Talk.bind_assoc, Talk.pure_eq, Talk.ret_bind,
      Talk.send_bind]
  rw [parties_congr serves]
  refine (reaches_gather positive comes _ _).trans ?_
  exact (reaches_broadcast positive (comes 0) _ _).trans (listening states _)

/-- The stencil objects get to the clients one by one. -/
theorem receives_stencils (stencils : List StencilObject)
    (few : ∀ stencil ∈ stencils, stencil.length < 2 ^ 31) (received : List StencilObject)
    (next : Unit → RpcTalk Outcome) (rests : Nat → List StencilObject → RpcTalk Outcome) :
    Reaches (Rendezvous (again space functions) space.numProcs)
      (parties space.numProcs (stencils.foldlM
        (fun _ stencil => do
          let _ ← require (BufferHost.mpiCount stencil.length)
          broadcast space.numProcs (.bytes stencil)) () >>= next)
        fun rank => (stencils.map List.length).foldlM
          (fun stencils size => do
            let _ ← require (BufferHost.mpiCount size)
            return stencils ++ [← receiveAs 0 (RpcMessage.asBytes size)]) received >>= rests rank)
      (parties space.numProcs (next ()) fun rank => rests rank (received ++ stencils)) := by
  induction stencils generalizing received with
  | nil =>
      rw [List.append_nil]
      exact .refl
  | cons stencil stencils induction =>
      have meets : RpcMessage.asBytes stencil.length (.bytes stencil) = some stencil := if_pos rfl
      have count := BufferHost.mpiCount_of_lt (few stencil (by simp))
      simp only [List.map_cons, List.foldlM_cons, count, require_some, Talk.bind_assoc,
        Talk.pure_eq, Talk.ret_bind]
      refine (reaches_broadcast space.numProcs_pos meets _ _).trans ?_
      have rest := induction (fun other member => few other (by simp [member]))
        (received ++ [stencil])
      rwa [List.append_assoc, List.singleton_append] at rest

/-- All processes execute the run function on the same objects. -/
theorem stencilRun_runs {id : Nat} {iter : Int} {stencils : List StencilObject}
    {function : StencilFunction} {states after : Nat → RankState}
    (known : functions id = some function)
    (few : ∀ stencil ∈ stencils, stencil.length < 2 ^ 31)
    (executes : Reaches (Rendezvous (fun _ _ => none) space.numProcs)
      (parties space.numProcs (function 0 iter stencils (states 0))
        fun rank => function rank iter stencils (states rank))
      (parties space.numProcs (.ret (after 0)) fun rank => .ret (after rank))) :
    CallRuns space mpi functions (.stencilRun id iter stencils) .returned states after := by
  intro next
  have positive := space.numProcs_pos
  simp only [Master.call, Master.stencilRun, known, require_some, Talk.ret_bind, Talk.bind_assoc,
    Talk.pure_eq]
  refine (notified .funcRun id states _).trans ?_
  have serves (rank : Nat) : Client.serve space functions rank (states rank) id .funcRun =
      receiveAs 0 RpcMessage.asInt >>= fun iter =>
        receiveAs 0 RpcMessage.asInt >>= fun numStencils =>
          receiveAs 0 (RpcMessage.asUnsigneds numStencils) >>= fun stencilSizes =>
            Client.receiveStencils stencilSizes >>= fun stencils =>
              function rank iter stencils (states rank) >>= fun state =>
                .ret (.listening state) := by
    simp only [Client.serve, Client.stencilRun, known, Int.toNat_natCast, require_some,
      Talk.bind_assoc, Talk.pure_eq, Talk.ret_bind]
  rw [parties_congr fun rank _ _ => serves rank]
  have isIter : RpcMessage.asInt (.int iter) = some iter := rfl
  have isCount : RpcMessage.asInt (.int stencils.length) = some (stencils.length : Int) := rfl
  have areSizes : RpcMessage.asUnsigneds stencils.length (.unsigneds (stencils.map List.length)) =
      some (stencils.map List.length) := if_pos (by rw [List.length_map])
  refine (reaches_broadcast positive isIter _ _).trans ?_
  refine (reaches_broadcast positive isCount _ _).trans ?_
  refine (reaches_broadcast positive areSizes _ _).trans ?_
  refine (receives_stencils stencils few [] _ _).trans ?_
  rw [List.nil_append]
  exact (reaches_parties_bind executes _ _).trans (listening after _)

end Calls

end Physis.Runtime.Rpc
