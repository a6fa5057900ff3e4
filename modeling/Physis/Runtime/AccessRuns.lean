import Physis.Runtime.AccessSessions
import Physis.Runtime.LoadEntry
import Physis.Runtime.RpcRuns

/-!
# Runs of element accesses

The talks up to a `GridGet` have one result, whatever the order of their steps,
and a process that has come to the `GridGet` has the grid of that result.  So a
session goes through runs of talks and rounds of `LoadSubgrid`, whose steps mix
freely, and comes to its end with what a map would have returned.
-/

namespace Physis.Runtime

open Physis.Library
open Physis.Library.RowMajor
open Physis.Library.Networks
open Physis.Library.Determinacy
open Physis.Library.Runs
open Physis.Library.Talks

variable {α : Type}

namespace Rpc

/-! ## A `GridGet` and the talks before it -/

variable {space : GridSpaceMPI} {mpi : MPIReduce} {g : Nat} {right : List ApiResult → Prop}

/-- The clients are at the call of `LoadSubgrid`, the master with these results. -/
def arrived (space : GridSpaceMPI) (g : Nat) (states : Nat → RankState)
    (results : List ApiResult) : Nat → RpcTalk Outcome :=
  parties space.numProcs (.ret (.returned (states 0) results))
    fun rank => .ret (.getting (states rank) g)

/-- Only the memory of the processes counts. -/
theorem start_congr {calls : List (MasterCall ℚ)} {states others : Nat → RankState}
    (same : ∀ rank < space.numProcs, states rank = others rank) (results : List ApiResult)
    (bufs : Nat → Int → ℚ) (memory : Int → ℚ) :
    AccessState.start space mpi g calls states results bufs memory =
      AccessState.start space mpi g calls others results bufs memory := by
  simp only [AccessState.start, same 0 space.numProcs_pos]
  rw [parties_congr fun rank _ bounded => by rw [same rank bounded]]

/-- The talks of a session up to the next `GridGet`, before the first step. -/
abbrev begun (space : GridSpaceMPI) (mpi : MPIReduce) (g : Nat) (calls : List (MasterCall ℚ))
    (states : Nat → RankState) (results : List ApiResult) : Nat → RpcTalk Outcome :=
  parties space.numProcs (Master.accesses space mpi g calls (states 0) results)
    fun rank => Client.listen space (fun _ => none) rank (states rank)

abbrev TalkStep (space : GridSpaceMPI) :=
  SystemStep (Talk.behaviour (again space fun _ => none)) space.numProcs

section Get

variable {states : Nat → RankState} {results : List ApiResult}
  {talks : Network (RpcTalk Outcome) RpcMessage} {load : LoadState ℚ} {memory : Int → ℚ}
  {rest : List (MasterCall ℚ)} {rank : Nat}

/-- A process that has come to the `GridGet`. -/
theorem atLoad_arrived (bounded : rank < space.numProcs)
    (is : talks.process rank = arrived space g states results rank) :
    AccessState.atLoad g ⟨talks, load, memory, rest⟩ rank = some (states rank, g) := by
  simp only [AccessState.atLoad, is]
  by_cases master : rank = 0
  · subst master
    rfl
  · rw [arrived, parties_client (Nat.pos_of_ne_zero master) bounded]

theorem loaded_arrived (bounded : rank < space.numProcs)
    (is : talks.process rank = arrived space g states results rank) :
    AccessState.loaded g ⟨talks, load, memory, rest⟩ rank =
      (states rank).set g (load.process rank).grid := by
  rw [AccessState.loaded, atLoad_arrived bounded is]

/-- It takes no more steps in the talks. -/
theorem arrived_stops (bounded : rank < space.numProcs)
    (is : talks.process rank = arrived space g states results rank) :
    Talk.behaviour (again space fun _ => none) rank (talks.process rank) = .stop := by
  rw [is]
  by_cases master : rank = 0
  · subst master
    rfl
  · rw [arrived, parties_client (Nat.pos_of_ne_zero master) bounded]
    rfl

variable {begin : Nat → RpcTalk Outcome}
  (completes : Talks.Completes (again space fun _ => none) space.numProcs begin
    (arrived space g states results))
  (talked : Reaches (TalkStep space) (Talks.start begin) talks)

include completes talked

/-- Who has come to the `GridGet` has the memory it has at the end of every run. -/
theorem arrived_of_atLoad {own : Nat} {state : RankState}
    (isAt : AccessState.atLoad g ⟨talks, load, memory, rest⟩ rank = some (state, own)) :
    talks.process rank = arrived space g states results rank := by
  simp only [AccessState.atLoad] at isAt
  split at isAt
  · rename_i own' results' returned
    exact returned.trans (completes.eq_final talked returned rfl).symm
  · rename_i own' g' getting
    exact getting.trans (completes.eq_final talked getting rfl).symm
  · cases isAt

end Get

/-- Talks and a round of `LoadSubgrid`, which a process enters when its talk has ended. -/
structure InGet (space : GridSpaceMPI) (g : Nat) (index : IndexArray)
    (begin : Nat → RpcTalk Outcome) (after : Nat → RankState) (results : List ApiResult)
    (bufs : Nat → Int → ℚ) (memory : Int → ℚ) (talks : Network (RpcTalk Outcome) RpcMessage)
    (load : LoadState ℚ) : Prop where
  talked : Reaches (TalkStep space) (Talks.start begin) talks
  loaded : Reaches (LoadState.Step space (gridGetCall index memory))
    (LoadState.start (fun rank => (after rank).objects g) bufs)
    (load.placed fun rank => (after rank).objects g)
  inside : ∀ rank < space.numProcs, (load.process rank).entered = true →
    talks.process rank = arrived space g after results rank

namespace InGet

variable {index : IndexArray} {begin : Nat → RpcTalk Outcome} {after : Nat → RankState}
  {results : List ApiResult} {bufs : Nat → Int → ℚ} {memory : Int → ℚ}
  {talks : Network (RpcTalk Outcome) RpcMessage} {load : LoadState ℚ}
  {later : List (MasterCall ℚ)}
  (inGet : InGet space g index begin after results bufs memory talks load)

include inGet

theorem talk {next : Network (RpcTalk Outcome) RpcMessage} (step : TalkStep space talks next) :
    InGet space g index begin after results bufs memory next load := by
  refine ⟨inGet.talked.tail step, inGet.loaded, fun rank bounded entered => ?_⟩
  have is := inGet.inside rank bounded entered
  rw [process_of_stop (.single step) (arrived_stops bounded is), is]

theorem enter {rank : Nat} (bounded : rank < space.numProcs)
    (is : talks.process rank = arrived space g after results rank)
    (outside : (load.process rank).counter = .outside) :
    InGet space g index begin after results bufs memory talks
      (load.advance rank (LoadProcess.enter space rank (gridGetCall index memory rank)
        { load.process rank with grid := (after rank).objects g })) := by
  refine ⟨inGet.talked, inGet.loaded.tail (LoadState.step_placed_enter bounded outside), ?_⟩
  intro other otherBounded entered
  by_cases same : other = rank
  · exact same ▸ is
  · rw [Network.advance_process, if_neg same] at entered
    exact inGet.inside other otherBounded entered

theorem go {rank : Nat} {next : LoadState ℚ} (bounded : rank < space.numProcs)
    (step : Network.Step (LoadProcess.effect space) rank load next) :
    LoadState.Step space (gridGetCall index memory)
        (load.placed fun rank => (after rank).objects g)
        (next.placed fun rank => (after rank).objects g) ∧
      InGet space g index begin after results bufs memory talks next := by
  have stepPlaced : LoadState.Step space (gridGetCall index memory)
      (load.placed fun rank => (after rank).objects g) _ :=
    .go rank bounded _ (LoadState.step_placed_iff.mpr ⟨next, step, rfl⟩)
  refine ⟨stepPlaced, inGet.talked, inGet.loaded.tail stepPlaced, ?_⟩
  intro other otherBounded entered
  refine inGet.inside other otherBounded ?_
  obtain ⟨move, enabled, rfl⟩ := step_iff_move.mp step
  by_cases same : other = rank
  · subst same
    by_contra outside
    exact step.of_stop (LoadProcess.effect_of_outside (by simpa using outside))
  · simpa [Move.apply, Function.update_of_ne same] using entered

/-- As long as not all have returned from `LoadSubgrid` some process has a step. -/
theorem progress
    (completes : Talks.Completes (again space fun _ => none) space.numProcs begin
      (arrived space g after results))
    (loads : Terminates (LoadState.Step space (gridGetCall index memory))
      (fun load => ∀ rank < space.numProcs, load.Returned rank)
      (LoadState.start (fun rank => (after rank).objects g) bufs)) :
    (∀ rank < space.numProcs, load.Returned rank) ∨
      ∃ next, AwaitedStep space mpi g ⟨talks, load, memory, .gridGet index :: later⟩ next := by
  rcases completes.buffered.progress talks inGet.talked with quiet | ⟨next, step⟩
  · rcases loads.progress _ inGet.loaded with returned | ⟨next, step⟩
    · exact .inl fun rank bounded =>
        (LoadState.placed_counter rank).symm.trans (returned rank bounded)
    · right
      cases step with
      | enter rank bounded outside =>
          exact ⟨_, .other, .enter rank g (after rank) index later bounded rfl
            (atLoad_arrived bounded (quiet.process rank))
            ((LoadState.placed_counter rank).symm.trans outside), trivial⟩
      | go rank bounded next step =>
          obtain ⟨next, step, -⟩ := LoadState.step_placed_iff.mp step
          exact ⟨_, .other, .go rank bounded next step, trivial⟩
  · exact .inr ⟨_, .other, .talk next step, trivial⟩

end InGet

/--
A session that comes to a `GridGet` terminates if its talks and the round of
`LoadSubgrid` do, and so does what follows.
-/
theorem terminates_of_get {calls later : List (MasterCall ℚ)} {index : IndexArray}
    {states after : Nat → RankState} {before results : List ApiResult}
    {bufs : Nat → Int → ℚ} {memory : Int → ℚ} (element : ℚ)
    (next : MasterCall.fromGet calls = .gridGet index :: later)
    (completes : Talks.Completes (again space fun _ => none) space.numProcs
      (begun space mpi g calls states before) (arrived space g after results))
    (loads : Terminates (LoadState.Step space (gridGetCall index memory))
      (fun load => ∀ rank < space.numProcs, load.Returned rank)
      (LoadState.start (fun rank => (after rank).objects g) bufs))
    (finds : ∀ load, Reaches (LoadState.Step space (gridGetCall index memory))
        (LoadState.start (fun rank => (after rank).objects g) bufs) load →
      (∀ rank < space.numProcs, load.Returned rank) →
        (load.process 0).grid.get index = some element ∧
          ∀ bufs memory, Terminates (AwaitedStep space mpi g) (Ends space right)
            (.start space mpi g later (fun rank => (after rank).set g (load.process rank).grid)
              (results ++ [.value element]) bufs memory)) :
    Terminates (AwaitedStep space mpi g) (Ends space right)
      (.start space mpi g calls states before bufs memory) := by
  have start : AccessState.start space mpi g calls states before bufs memory =
      ⟨Talks.start (begun space mpi g calls states before), LoadState.start (fun _ => noGrid) bufs,
        memory, .gridGet index :: later⟩ := by
    rw [AccessState.start, next]
  -- a step of the talks or of the load makes one of the two smaller
  have finite := Acc.prod_gameAdd completes.buffered.finite loads.finite
  have inGet : InGet space g index (begun space mpi g calls states before) after results bufs
      memory (Talks.start (begun space mpi g calls states before))
      (LoadState.start (fun _ => noGrid) bufs) :=
    ⟨.refl, .refl, fun rank _ entered => by cases entered⟩
  rw [start]
  rw [← LoadState.placed_start (fun _ => noGrid) bufs] at finite
  generalize Talks.start (begun space mpi g calls states before) = talks at finite inGet
  generalize LoadState.start (fun _ => noGrid) bufs = load at finite inGet
  generalize pair : (talks, load.placed fun rank => (after rank).objects g) = both at finite
  induction finite generalizing talks load with
  | intro both _ induction =>
      subst pair
      have placedEntered {rank : Nat} (back : load.Returned rank) :
          (load.process rank).entered = true := by
        simp [LoadProcess.entered, show (load.process rank).counter = .returned from back]
      have found (back : ∀ rank < space.numProcs, load.Returned rank) :=
        finds _ inGet.loaded fun rank bounded =>
          (LoadState.placed_counter rank).trans (back rank bounded)
      have value (back : ∀ rank < space.numProcs, load.Returned rank) :
          (load.process 0).grid.get index = some element := by
        rw [← LoadState.placed_process (placedEntered (back 0 space.numProcs_pos))]
        exact (found back).1
      have isArrived (back : ∀ rank < space.numProcs, load.Returned rank) (rank : Nat)
          (bounded : rank < space.numProcs) :=
        inGet.inside rank bounded (placedEntered (back rank bounded))
      refine terminates_of_next (.inr ?_) ?_
      · rcases inGet.progress completes loads with back | step
        · exact ⟨_, .nextCall, .next index later _ _ element _ rfl
            (isArrived back 0 space.numProcs_pos) (back 0 space.numProcs_pos) (value back)
            fun _ => ⟨bufs, memory, rfl⟩, back⟩
        · exact step
      · rintro _ ⟨event, step, awaited⟩
        cases step with
        | talk next step => exact induction _ (.fst step) _ _ (inGet.talk step) rfl
        | enter rank own state index' later' bounded get isAt outside =>
            cases get
            have is := arrived_of_atLoad completes inGet.talked isAt
            obtain ⟨rfl, rfl⟩ := Prod.mk.inj (Option.some.inj
              (isAt.symm.trans (atLoad_arrived bounded is)))
            exact induction _ (.snd (LoadState.step_placed_enter bounded outside)) _ _
              (inGet.enter bounded is outside) rfl
        | go rank bounded next step =>
            obtain ⟨stepPlaced, inGetNext⟩ := inGet.go bounded step
            exact induction _ (.snd stepPlaced) _ _ inGetNext rfl
        | next index' later' own results' element' after' get master returned isValue begins =>
            cases get
            cases master.symm.trans (isArrived awaited 0 space.numProcs_pos)
            cases isValue.symm.trans (value awaited)
            obtain ⟨bufs', memory', rfl⟩ := begins awaited
            rw [start_congr fun rank bounded => (loaded_arrived bounded
              (isArrived awaited rank bounded)).trans (by
                rw [← LoadState.placed_process (placedEntered (awaited rank bounded))])]
            exact (found awaited).2 bufs' memory'

/-- A session without a `GridGet` to come terminates with its talks. -/
theorem terminates_of_end {calls : List (MasterCall ℚ)} {states after : Nat → RankState}
    {before results : List ApiResult} {bufs : Nat → Int → ℚ} {memory : Int → ℚ}
    (last : MasterCall.fromGet calls = []) (isRight : right results)
    (completes : Talks.Completes (again space fun _ => none) space.numProcs
      (begun space mpi g calls states before)
      (parties space.numProcs (.ret (.returned (after 0) results))
        fun rank => .ret (.exited (after rank)))) :
    Terminates (AwaitedStep space mpi g) (Ends space right)
      (.start space mpi g calls states before bufs memory) := by
  have start : AccessState.start space mpi g calls states before bufs memory =
      ⟨Talks.start (begun space mpi g calls states before), LoadState.start (fun _ => noGrid) bufs,
        memory, []⟩ := by
    rw [AccessState.start, last]
  have each : ∀ talks, Acc (fun later earlier => TalkStep space earlier later) talks →
      Reaches (TalkStep space) (Talks.start (begun space mpi g calls states before)) talks →
        Terminates (AwaitedStep space mpi g) (Ends space right)
          ⟨talks, LoadState.start (fun _ => noGrid) bufs, memory, []⟩ := by
    intro talks finite
    induction finite with
    | intro talks _ induction =>
        intro talked
        refine terminates_of_next ?_ ?_
        · rcases completes.buffered.progress talks talked with quiet | ⟨next, step⟩
          · exact .inl ⟨rfl, after, results, isRight, quiet⟩
          · exact .inr ⟨_, .other, .talk next step, trivial⟩
        · rintro _ ⟨event, step, -⟩
          cases step with
          | talk next step => exact induction _ step (talked.tail step)
          | enter rank own state index later bounded get => cases get
          | go rank bounded load step =>
              exact (step.of_stop (LoadProcess.effect_of_outside rfl)).elim
          | next index later own results element after get => cases get
  rw [start]
  exact each _ completes.buffered.finite .refl

/-! ## Sessions -/

/-- All processes find the grid by the id it has on the master. -/
def Known (space : GridSpaceMPI) (g : Nat) (states : Nat → RankState) : Prop :=
  ∃ grid, (states 0).registry.heap g = some grid ∧
    ∀ rank < space.numProcs, (states rank).registry.grids grid.id = some g

/-- Between two calls: the processes hold the values of a map, and know the grid. -/
structure Ready (space : GridSpaceMPI) (elmSize : Nat) (size : IndexArray) (g : Nat)
    (states : Nat → RankState) (contents : IndexArray → ℚ) (calls : List (MasterCall ℚ)) :
    Prop where
  tracks : Tracks space elmSize size (fun rank => (states rank).objects g) contents
  known : Known space g states
  valid : ∀ call ∈ calls, call.Valid space.numDims size
  free : ((states 0).objects g).remoteGridActive = true →
    ∀ call ∈ calls, ¬call.UsesOwn space size
  unobstructed : Unobstructed space size calls

section Calls

variable {elmSize : Nat} {size : IndexArray} {states : Nat → RankState}
  {contents : IndexArray → ℚ} {call : MasterCall ℚ} {calls : List (MasterCall ℚ)}

/-- A call that keeps the registries, and attaches no remote grid to the master's. -/
theorem Ready.after {after : Nat → RankState}
    (ready : Ready space elmSize size g states contents (call :: calls))
    (tracks : Tracks space elmSize size (fun rank => (after rank).objects g)
      (call.write space.numDims size contents))
    (registry : ∀ rank, (after rank).registry = (states rank).registry)
    (active : ((after 0).objects g).remoteGridActive = true →
      ((states 0).objects g).remoteGridActive = true ∨ call.LoadsRemote space size) :
    Ready space elmSize size g after (call.write space.numDims size contents) calls where
  tracks := tracks
  known := by
    obtain ⟨grid, exist, listed⟩ := ready.known
    refine ⟨grid, ?_, fun rank bounded => ?_⟩
    · rw [registry, exist]
    · rw [registry, listed rank bounded]
  valid other member := ready.valid other (List.mem_cons_of_mem _ member)
  free isActive other member := by
    rcases active isActive with before | remote
    · exact ready.free before other (List.mem_cons_of_mem _ member)
    · exact (List.pairwise_cons.mp ready.unobstructed).1 other member remote
  unobstructed := (List.pairwise_cons.mp ready.unobstructed).2

/-- A call other than `GridGet` returns what the map says, and the processes are ready again. -/
theorem Ready.rpc (mpi : MPIReduce)
    (ready : Ready space elmSize size g states contents (call :: calls))
    (dims : 0 < space.numDims) (small : space.numDims ≤ psMaxDim) (element : 0 < elmSize)
    (countable : Countable space elmSize size fun _ => 0)
    {rpc : ApiCall} (isRpc : call.rpc g = some rpc) :
    ∃ (result : ApiResult) (after : Nat → RankState),
      call.Agrees space.numDims size contents result ∧
        CallRuns space mpi (fun _ => none) rpc result states after ∧
          Ready space elmSize size g after (call.write space.numDims size contents) calls := by
  obtain ⟨grid, exist, listed⟩ := ready.known
  have tracks := ready.tracks
  have isValid := ready.valid call List.mem_cons_self
  have isFree := fun active => ready.free active call List.mem_cons_self
  cases call with
  | gridGet index => cases isRpc
  | gridSet index value =>
      cases isRpc
      obtain ⟨owner, bounded, written, owns, writes, active, tracksAfter⟩ :=
        tracks.gridSet small value isValid.1 isValid.2
          fun own => by simpa using fun active => isFree active own
      refine ⟨.returned, _, trivial, gridSet_runs exist listed bounded owns writes,
        ready.after ?_ ?_ ?_⟩
      · have same : (fun rank => (Function.update states owner
            ((states owner).set g written) rank).objects g) =
              Function.update (fun rank => (states rank).objects g) owner written := by
          funext rank
          by_cases here : rank = owner
          · subst here
            simp [RankState.set]
          · rw [Function.update_of_ne here, Function.update_of_ne here]
        rw [same]
        exact tracksAfter
      · intro rank
        by_cases here : rank = owner
        · subst here
          rw [Function.update_self, RankState.set]
        · rw [Function.update_of_ne here]
      · intro isActive
        left
        by_cases here : 0 = owner
        · subst here
          rw [Function.update_self] at isActive
          rw [← active]
          simpa [RankState.set] using isActive
        · rwa [Function.update_of_ne here] at isActive
  | gridCopyin buf =>
      cases isRpc
      refine ⟨.returned, _, trivial,
        gridCopyin_runs exist listed tracks.distributed dims element countable buf,
        ready.after ?_ (fun _ => rfl) ?_⟩
      · simp only [RankState.set, Function.update_self]
        exact tracks.afterCopyin dims buf
      · intro isActive
        left
        simpa [RankState.set, afterCopyin, Runtime.Master.gridCopyinLocal, GridMPI.withCells]
          using isActive
  | gridCopyout =>
      cases isRpc
      obtain ⟨host, holds, runs⟩ :=
        gridCopyout_runs exist listed tracks.distributed dims element countable
      refine ⟨_, states, fun cell inside => ?_, runs, ready.after tracks (fun _ => rfl) .inl⟩
      have first := linear_nonneg inside
      have last := linear_lt_volume inside
      have position : (linear size cell space.numDims).toNat <
          (IntegerArray.accumulate size space.numDims).toNat := by
        rw [IntegerArray.accumulate_eq_volume]
        omega
      simp only [elements, List.getElem?_map, List.getElem?_range position, Option.map_some,
        Int.toNat_of_nonneg first, tracks.host_eq holds inside]

/-- What is still to be returned completes what has been returned. -/
def SoFar (numDims : Nat) (size : IndexArray) (right : List ApiResult → Prop)
    (results : List ApiResult) (contents : IndexArray → ℚ) (calls : List (MasterCall ℚ)) : Prop :=
  ∀ more, BehavesAsMap numDims size contents calls more → right (results ++ more)

theorem SoFar.returns {numDims : Nat} {results : List ApiResult} {result : ApiResult}
    (soFar : SoFar numDims size right results contents (call :: calls))
    (agrees : call.Agrees numDims size contents result) :
    SoFar numDims size right (results ++ [result]) (call.write numDims size contents) calls := by
  intro more behaves
  rw [List.append_assoc]
  exact soFar (result :: more) ⟨agrees, behaves⟩

theorem SoFar.isRight {numDims : Nat} {results : List ApiResult}
    (soFar : SoFar numDims size right results contents []) : right results := by
  simpa using soFar [] trivial

/-- Where a client is when the talks before the next `GridGet` have ended. -/
def client (g : Nat) (calls : List (MasterCall ℚ)) (state : RankState) : Outcome :=
  if calls = [] then .exited state else .getting state g

omit call in
/-- The clients are told of a `GridGet`. -/
theorem get_run (mpi : MPIReduce) (index : IndexArray) (calls : List (MasterCall ℚ))
    (known : Known space g states) (results : List ApiResult) :
    Reaches (Rendezvous (again space fun _ => none) space.numProcs)
      (begun space mpi g (.gridGet index :: calls) states results)
      (arrived space g states results) := by
  obtain ⟨grid, exist, listed⟩ := known
  simp only [begun, Master.accesses, MasterCall.rpc, exist, Talk.require_some, Talk.ret_bind]
  refine (notified .funcGet grid.id states _).trans ?_
  rw [parties_congr fun rank client bounded => ?_]
  · exact .refl
  · simp only [Client.serve, GridSpace.findGrid, listed rank bounded]
    rfl

/-- The talks up to the next `GridGet`, with every send met at once. -/
theorem Ready.talks_run (mpi : MPIReduce) (dims : 0 < space.numDims)
    (small : space.numDims ≤ psMaxDim)
    (element : 0 < elmSize) (countable : Countable space elmSize size fun _ => 0)
    (ready : Ready space elmSize size g states contents calls) {results : List ApiResult}
    (soFar : SoFar space.numDims size right results contents calls) :
    ∃ (after : Nat → RankState) (contents' : IndexArray → ℚ) (results' : List ApiResult),
      Ready space elmSize size g after contents' (MasterCall.fromGet calls) ∧
        SoFar space.numDims size right results' contents'
          (MasterCall.fromGet calls) ∧
        Reaches (Rendezvous (again space fun _ => none) space.numProcs)
          (begun space mpi g calls states results)
          (parties space.numProcs (.ret (.returned (after 0) results')) fun rank =>
            .ret (client g (MasterCall.fromGet calls) (after rank))) := by
  induction calls generalizing states contents results with
  | nil =>
      refine ⟨states, contents, results, ready, soFar, ?_⟩
      exact notified .funcFinalize 0 states _
  | cons call calls induction =>
      cases isRpc : call.rpc g with
      | some rpc =>
          have other : MasterCall.fromGet (call :: calls) = MasterCall.fromGet calls := by
            cases call <;> first | rfl | cases isRpc
          obtain ⟨result, middle, agrees, runs, readyMiddle⟩ :=
            ready.rpc mpi dims small element countable isRpc
          obtain ⟨after, contents', results', readyAfter, soFarAfter, rest⟩ :=
            induction readyMiddle (soFar.returns agrees)
          rw [other]
          refine ⟨after, contents', results', readyAfter, soFarAfter, .trans ?_ rest⟩
          simp only [begun, Master.accesses, isRpc]
          exact runs _
      | none =>
          cases call with
          | gridGet index =>
              exact ⟨states, contents, results, ready, soFar,
                get_run mpi index calls ready.known results⟩
          | gridSet _ _ | gridCopyin _ | gridCopyout => cases isRpc

omit call in
/-- The next `GridGet`, and fewer calls after it. -/
theorem exists_get {later : List (MasterCall ℚ)} {call : MasterCall ℚ}
    (next : MasterCall.fromGet calls = call :: later) :
    (∃ index, call = .gridGet index) ∧ later.length < calls.length := by
  induction calls with
  | nil => cases next
  | cons first calls induction =>
      cases first with
      | gridGet index =>
          cases next
          exact ⟨⟨index, rfl⟩, Nat.lt_succ_self _⟩
      | gridSet _ _ | gridCopyin _ | gridCopyout =>
          obtain ⟨isGet, fewer⟩ := induction next
          exact ⟨isGet, fewer.trans (Nat.lt_succ_self _)⟩

/-- A `GridGet` finds the value of the map, and the processes are ready again. -/
theorem Ready.get {index : IndexArray} {memory : Int → ℚ} {bufs : Nat → Int → ℚ}
    {load : LoadState ℚ} (dims : 0 < space.numDims) (small : space.numDims ≤ psMaxDim)
    (ready : Ready space elmSize size g states contents (.gridGet index :: calls))
    (reached : Reaches (LoadState.Step space (gridGetCall index memory))
      (LoadState.start (fun rank => (states rank).objects g) bufs) load)
    (returned : ∀ rank < space.numProcs, load.Returned rank) :
    (load.process 0).grid.get index = some (contents index) ∧
      Ready space elmSize size g (fun rank => (states rank).set g (load.process rank).grid)
        contents calls := by
  have isValid := ready.valid _ List.mem_cons_self
  have isFree := fun active => ready.free active _ List.mem_cons_self
  obtain ⟨value, active, tracks⟩ := ready.tracks.gridGet dims isValid.1 isValid.2 small
    (fun own => by simpa using fun active => isFree active own) reached returned
  refine ⟨value, ready.after ?_ (fun _ => rfl) ?_⟩
  · simp only [RankState.set, Function.update_self]
    exact tracks
  · intro isActive
    by_cases own : space.Owns 0 size (fun _ => 0) index
    · refine .inl (active ?_ own)
      simpa [RankState.set] using isActive
    · exact .inr own

/-- A session whose steps meet the condition terminates with the right results. -/
theorem Ready.terminates (mpi : MPIReduce) (dims : 0 < space.numDims)
    (small : space.numDims ≤ psMaxDim)
    (element : 0 < elmSize) (countable : Countable space elmSize size fun _ => 0)
    (ready : Ready space elmSize size g states contents calls) {results : List ApiResult}
    (soFar : SoFar space.numDims size right results contents calls) (bufs : Nat → Int → ℚ)
    (memory : Int → ℚ) :
    Terminates (AwaitedStep space mpi g) (Ends space right)
      (.start space mpi g calls states results bufs memory) := by
  induction length : calls.length using Nat.strong_induction_on
    generalizing calls states contents results bufs memory with
  | _ count induction =>
      obtain ⟨after, contents', results', readyAfter, soFarAfter, run⟩ :=
        ready.talks_run mpi dims small element countable soFar
      cases next : MasterCall.fromGet calls with
      | nil =>
          rw [next] at soFarAfter run
          refine terminates_of_end next soFarAfter.isRight
            (completes_of_rendezvous run fun rank bounded => ?_)
          by_cases master : rank = 0
          · exact ⟨_, if_pos master, rfl⟩
          · exact ⟨_, parties_client (Nat.pos_of_ne_zero master) bounded, rfl⟩
      | cons call later =>
          obtain ⟨⟨index, rfl⟩, fewer⟩ := exists_get next
          rw [next] at readyAfter soFarAfter run
          have isValid := readyAfter.valid _ List.mem_cons_self
          have completes : Talks.Completes (again space fun _ => none) space.numProcs
              (begun space mpi g calls states results) (arrived space g after results') := by
            refine completes_of_rendezvous run fun rank bounded => ?_
            by_cases master : rank = 0
            · exact ⟨_, if_pos master, rfl⟩
            · exact ⟨_, parties_client (Nat.pos_of_ne_zero master) bounded, rfl⟩
          have loads := LoadState.terminates readyAfter.tracks.distributed dims
            (fun rank _ => @gridGetCall_region _ _ _ _ isValid.1 memory rank)
            (fun rank _ => gridGetCall_nonneg isValid.1 isValid.2 rank) (fun _ _ => rfl) bufs
          refine terminates_of_get (contents' index) next completes loads
            fun load reached returned => ?_
          obtain ⟨value, readyLater⟩ := readyAfter.get dims small reached returned
          have agrees : (MasterCall.gridGet index).Agrees space.numDims size contents'
              (.value (contents' index)) := rfl
          exact ⟨value, fun bufs memory => induction later.length (length ▸ fewer) readyLater
            (soFarAfter.returns agrees) bufs memory rfl⟩

end Calls

end Rpc

open Rpc

/--
Element access from the master behaves as a map.  If the master accesses none of
its own elements once it has loaded one of another process, and begins the call
after a `GridGet` when all processes have returned from it, then every run ends,
and each call has returned what the calls before it wrote last.
-/
theorem accesses_behave_as_map
    {space : GridSpaceMPI} (mpi : MPIReduce) {elmSize : Nat} {size : IndexArray} {g : Nat}
    {states : Nat → RankState} {contents : IndexArray → ℚ} {calls : List (MasterCall ℚ)}
    (dims : 0 < space.numDims) (small : space.numDims ≤ psMaxDim)
    (element : 0 < elmSize) (countable : Countable space elmSize size fun _ => 0)
    (tracks : Tracks space elmSize size (fun rank => (states rank).objects g) contents)
    (known : Known space g states)
    (inactive : ((states 0).objects g).remoteGridActive = false)
    (valid : ∀ call ∈ calls, call.Valid space.numDims size)
    (unobstructed : Unobstructed space size calls)
    (bufs : Nat → Int → ℚ) (memory : Int → ℚ) :
    Terminates (AwaitedStep space mpi g)
      (Ends space (BehavesAsMap space.numDims size contents calls))
      (AccessState.start space mpi g calls states [] bufs memory) := by
  have ready : Ready space elmSize size g states contents calls :=
    ⟨tracks, known, valid, fun active => absurd active (by simp [inactive]), unobstructed⟩
  exact ready.terminates mpi dims small element countable (fun _ behaves => behaves) bufs memory

/-! ## A run to the call after a `GridGet` -/

namespace Rpc

variable {space : GridSpaceMPI} {mpi : MPIReduce} {g : Nat}

theorem reaches_talks {talks next : Network (RpcTalk Outcome) RpcMessage} {load : LoadState ℚ}
    {memory : Int → ℚ} {rest : List (MasterCall ℚ)}
    (reached : Reaches (TalkStep space) talks next) :
    Reaches (AwaitedStep space mpi g) ⟨talks, load, memory, rest⟩ ⟨next, load, memory, rest⟩ := by
  induction reached with
  | refl => exact .refl
  | tail _ step induction => exact induction.tail ⟨.other, .talk _ step, trivial⟩

/-- When the talks have ended, a round of `LoadSubgrid` is a run of the session. -/
theorem reaches_load (mpi : MPIReduce) (later : List (MasterCall ℚ))
    {states : Nat → RankState} {results : List ApiResult} {index : IndexArray}
    {bufs : Nat → Int → ℚ} {memory : Int → ℚ}
    {talks : Network (RpcTalk Outcome) RpcMessage} {final : LoadState ℚ}
    (quiet : Quiet talks (arrived space g states results))
    (reached : Reaches (LoadState.Step space (gridGetCall index memory))
      (LoadState.start (fun rank => (states rank).objects g) bufs) final) :
    ∃ load, final = load.placed (fun rank => (states rank).objects g) ∧
      Reaches (AwaitedStep space mpi g)
        ⟨talks, LoadState.start (fun _ => noGrid) bufs, memory, .gridGet index :: later⟩
        ⟨talks, load, memory, .gridGet index :: later⟩ := by
  induction reached with
  | refl => exact ⟨_, rfl, .refl⟩
  | tail _ step induction =>
      obtain ⟨load, rfl, run⟩ := induction
      cases step with
      | enter rank bounded outside =>
          have isOutside := (LoadState.placed_counter rank).symm.trans outside
          refine ⟨load.advance rank (LoadProcess.enter space rank (gridGetCall index memory rank)
            { load.process rank with grid := (states rank).objects g }), ?_, run.tail
              ⟨.other, .enter rank g (states rank) index later bounded rfl
                (atLoad_arrived bounded (quiet.process rank)) isOutside, trivial⟩⟩
          rw [LoadState.placed_advance (LoadProcess.enter_entered _),
            LoadState.placed_process_outside (by simp [LoadProcess.entered, isOutside])]
      | go rank bounded next step =>
          obtain ⟨after, performed, rfl⟩ := LoadState.step_placed_iff.mp step
          exact ⟨after, rfl, run.tail ⟨.other, .go rank bounded after performed, trivial⟩⟩

/-- A `GridGet` as the next call, with what its `LoadSubgrid` leaves behind. -/
theorem reaches_get {states : Nat → RankState} {results : List ApiResult} {index : IndexArray}
    {later : List (MasterCall ℚ)} {bufs : Nat → Int → ℚ} {memory : Int → ℚ} {element : ℚ}
    {final : LoadState ℚ} (known : Known space g states)
    (reached : Reaches (LoadState.Step space (gridGetCall index memory))
      (LoadState.start (fun rank => (states rank).objects g) bufs) final)
    (returned : ∀ rank < space.numProcs, final.Returned rank)
    (value : (final.process 0).grid.get index = some element) :
    Reaches (AwaitedStep space mpi g)
      (.start space mpi g (.gridGet index :: later) states results bufs memory)
      (.start space mpi g later (fun rank => (states rank).set g (final.process rank).grid)
        (results ++ [.value element]) bufs memory) := by
  obtain ⟨talks, talked, quiet⟩ := (start_quiet _).reaches
    (get_run mpi index later known results)
  obtain ⟨load, rfl, loaded⟩ := reaches_load mpi later quiet reached
  have back : ∀ rank < space.numProcs, load.Returned rank := fun rank bounded =>
    (LoadState.placed_counter rank).symm.trans (returned rank bounded)
  have same (rank : Nat) (bounded : rank < space.numProcs) :=
    @LoadState.placed_process ℚ rank (fun rank => (states rank).objects g) load (by
      simp [LoadProcess.entered, show (load.process rank).counter = .returned from
        back rank bounded])
  refine ((reaches_talks talked).trans loaded).tail ⟨.nextCall, .next index later _ _ element _ rfl
    (quiet.process 0) (back 0 space.numProcs_pos) ?_ fun _ => ⟨bufs, memory, ?_⟩, back⟩
  · rw [← same 0 space.numProcs_pos]
    exact value
  · refine start_congr (fun rank bounded => ?_) _ _ _
    rw [loaded_arrived bounded (quiet.process rank), same rank bounded]

/-- The end of a session after its last call. -/
theorem reaches_end {states : Nat → RankState} {results : List ApiResult}
    (bufs : Nat → Int → ℚ) (memory : Int → ℚ) {right : List ApiResult → Prop}
    (isRight : right results) :
    ∃ final, Reaches (AwaitedStep space mpi g)
      (.start space mpi g [] states results bufs memory) final ∧ Ends space right final := by
  obtain ⟨talks, talked, quiet⟩ := (start_quiet _).reaches
    (notified .funcFinalize 0 states fun _ => .ret (.returned (states 0) results))
  exact ⟨_, reaches_talks talked, rfl, states, results, isRight, quiet⟩

end Rpc

/-! ## Two processes that share a plane -/

/-- The processes after the creation of a grid of two by two cells; those of the second
process start at ten. -/
def fourCells (rank : Nat) : RankState where
  registry := ((GridSpace.initial.createGrid splitPlane rank
    (gridNewRequest .psFloat 4 2 (IntegerArray.mk3 2 2 0) false 0)).map (·.2)).getD .initial
  objects _ := splitPlane.distribute 4 (IntegerArray.mk3 2 2 0) false (fun _ => 0)
    (fun rank _ position => 10 * (rank : ℚ) + position) rank

theorem fourCells_known : Known splitPlane 0 fourCells := by
  refine ⟨_, rfl, fun rank bounded => ?_⟩
  match rank, bounded with
  | 0, _ => rfl
  | 1, _ => rfl

theorem fourCells_tracks :
    ∃ contents, Tracks splitPlane 4 (IntegerArray.mk3 2 2 0)
      (fun rank => (fourCells rank).objects 0) contents := by
  have distributed := splitPlane.distribute_distributed 4 (IntegerArray.mk3 2 2 0)
    false (fun _ => 0) (fun rank _ position => 10 * (rank : ℚ) + position) (by decide)
  obtain ⟨contents, _, _, holds⟩ := distributed.exists_contents
  exact ⟨contents, distributed, fun _ _ _ => rfl, holds⟩

theorem fourCells_valid
    {x y : Int} (column : 0 ≤ x ∧ x < 2) (row : 0 ≤ y ∧ y < 2) :
    InBox 2 (IntegerArray.mk3 2 2 0) (IntegerArray.mk3 x y 0) ∧
      ∀ i, 2 ≤ i → IntegerArray.mk3 x y 0 i = 0 := by
  constructor
  · intro i below
    match i, below with
    | 0, _ => exact column
    | 1, _ => exact row
  · intro i beyond
    match i, beyond with
    | 2, _ => rfl
    | _ + 3, _ => rfl

/-- The last element of the first process. -/
theorem fourCells_own
    {contents : IndexArray → ℚ}
    (tracks : Tracks splitPlane 4 (IntegerArray.mk3 2 2 0)
      (fun rank => (fourCells rank).objects 0) contents) :
    contents (IntegerArray.mk3 0 1 0) = 1 := by
  have holds := tracks.holds (IntegerArray.mk3 0 1 0)
    (fourCells_valid (by decide) (by decide)).1
  refine (@data_of_holdsAt _ _ _ _ _ _ _ 0 (by decide) ?_ holds).symm.trans (by decide +kernel)
  intro i below
  match i, below with
  | 0, _ => decide
  | 1, _ => decide

/-- A `GridGet` of a list of steps. -/
def replayedGet
    (states : Nat → RankState) (index : IndexArray) (script : List (Nat × Nat)) :
    Option (LoadState ℚ) :=
  LoadState.replay splitPlane (gridGetCall index fun _ => 0) script
    (LoadState.start (fun rank => (states rank).objects 0) fun _ _ => 0)

/-- The master asks the other process for one element. -/
def remoteGetScript : List (Nat × Nat) :=
  List.replicate 4 (0, 0) ++ List.replicate 4 (1, 0) ++ [(0, 1)] ++
    List.replicate 5 (1, 0) ++ [(0, 1), (1, 0), (0, 1)] ++
    List.replicate 5 (0, 0) ++ List.replicate 2 (1, 0)

/-- Nobody asks for anything. -/
def localGetScript : List (Nat × Nat) :=
  List.replicate 6 (0, 0) ++ List.replicate 4 (1, 0) ++ [(0, 1), (0, 0)] ++
    List.replicate 4 (1, 0)

theorem remoteGet_replays :
    (replayedGet fourCells (IntegerArray.mk3 1 0 0) remoteGetScript).isSome = true := by
  decide +kernel

/-- The processes after the master has read an element of the other one. -/
def afterRemoteGet (rank : Nat) : RankState :=
  (fourCells rank).set 0 (((replayedGet fourCells (IntegerArray.mk3 1 0 0) remoteGetScript).get
    remoteGet_replays).process rank).grid

theorem localGet_replays :
    (replayedGet afterRemoteGet (IntegerArray.mk3 0 1 0) localGetScript).isSome = true := by
  decide +kernel

/-- Its own element is then read from the remote grid of the other's. -/
theorem gridGet_of_own_after_remote :
    ∃ contents calls final,
      Tracks splitPlane 4 (IntegerArray.mk3 2 2 0) (fun rank => (fourCells rank).objects 0)
          contents ∧
        (∀ call ∈ calls, call.Valid 2 (IntegerArray.mk3 2 2 0)) ∧
          Reaches (AwaitedStep splitPlane .byRank 0)
            (.start splitPlane .byRank 0 calls fourCells [] (fun _ _ => 0) fun _ => 0) final ∧
            Ends splitPlane (fun results =>
              ¬BehavesAsMap 2 (IntegerArray.mk3 2 2 0) contents calls results) final := by
  obtain ⟨contents, tracks⟩ := fourCells_tracks
  have first := @reaches_get splitPlane .byRank 0 fourCells [] (IntegerArray.mk3 1 0 0)
    [.gridGet (IntegerArray.mk3 0 1 0)] (fun _ _ => 0) (fun _ => 0) 10 _ fourCells_known
    (LoadState.reaches_of_replay (Option.some_get remoteGet_replays).symm)
    (fun rank bounded => by
      match rank, bounded with
      | 0, _ => rfl
      | 1, _ => rfl) (by decide +kernel)
  have second := @reaches_get splitPlane .byRank 0 afterRemoteGet [.value 10]
    (IntegerArray.mk3 0 1 0) [] (fun _ _ => 0) (fun _ => 0) 10 _ fourCells_known
    (LoadState.reaches_of_replay (Option.some_get localGet_replays).symm)
    (fun rank bounded => by
      match rank, bounded with
      | 0, _ => rfl
      | 1, _ => rfl) (by decide +kernel)
  have wrong : ¬BehavesAsMap 2 (IntegerArray.mk3 2 2 0) contents
      [.gridGet (IntegerArray.mk3 1 0 0), .gridGet (IntegerArray.mk3 0 1 0)]
      [.value 10, .value 10] := by
    rintro ⟨_, isValue, _⟩
    have own := fourCells_own tracks
    simp only [MasterCall.Agrees, MasterCall.write, own] at isValue
    norm_num at isValue
  obtain ⟨final, last, ends⟩ := @reaches_end splitPlane .byRank 0 _ [.value 10, .value 10]
    (fun _ _ => 0) (fun _ => 0) (fun results => ¬BehavesAsMap 2 (IntegerArray.mk3 2 2 0) contents
      [.gridGet (IntegerArray.mk3 1 0 0), .gridGet (IntegerArray.mk3 0 1 0)] results) wrong
  refine ⟨contents, _, final, tracks, fun call member => ?_, (first.trans second).trans last, ends⟩
  simp only [List.mem_cons, List.not_mem_nil, or_false] at member
  rcases member with rfl | rfl
  · exact fourCells_valid (by decide) (by decide)
  · exact fourCells_valid (by decide) (by decide)

/-- An own element first, then one of the other process, and then all of them. -/
def ownBeforeRemote : List (MasterCall ℚ) :=
  [.gridSet (IntegerArray.mk3 1 1 0) 7, .gridGet (IntegerArray.mk3 0 1 0),
    .gridGet (IntegerArray.mk3 1 1 0), .gridCopyout]

/-- In this order all elements are right. -/
theorem gridGet_of_own_before_remote :
    ∃ contents,
      Tracks splitPlane 4 (IntegerArray.mk3 2 2 0) (fun rank => (fourCells rank).objects 0)
          contents ∧
        Terminates (AwaitedStep splitPlane .byRank 0)
          (Ends splitPlane (BehavesAsMap 2 (IntegerArray.mk3 2 2 0) contents ownBeforeRemote))
          (.start splitPlane .byRank 0 ownBeforeRemote fourCells [] (fun _ _ => 0) fun _ => 0) := by
  obtain ⟨contents, tracks⟩ := fourCells_tracks
  refine ⟨contents, tracks, accesses_behave_as_map .byRank (by decide) (by decide)
    (show 0 < 4 by decide) (by unfold Countable; decide) tracks fourCells_known rfl ?_ ?_ _ _⟩
  · intro call member
    simp only [ownBeforeRemote, List.mem_cons, List.not_mem_nil, or_false] at member
    rcases member with rfl | rfl | rfl | rfl
    · exact fourCells_valid (by decide) (by decide)
    · exact fourCells_valid (by decide) (by decide)
    · exact fourCells_valid (by decide) (by decide)
    · trivial
  · have foreign : ¬splitPlane.Owns 0 (IntegerArray.mk3 2 2 0) (fun _ => 0)
        (IntegerArray.mk3 1 1 0) := by
      unfold GridSpaceMPI.Owns
      decide
    simp [Unobstructed, ownBeforeRemote, MasterCall.LoadsRemote, MasterCall.UsesOwn, foreign]

end Physis.Runtime
