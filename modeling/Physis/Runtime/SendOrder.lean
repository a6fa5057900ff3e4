import Physis.Library.Precedence
import Physis.Runtime.ExchangeProgress
import Physis.Runtime.HaloIterations

/-!
# Which sends have completed when their memory is written again

All processes go through the same exchanges and kernels.  A halo has been read
when its receiver is past the wait for it, and a process knows that of another
only from the halos it has received since.  Whether a send has completed before
its process writes the memory again is so decided by the operations and the
halos of the exchanges alone.
-/

namespace Physis.Runtime

open Physis.Library
open Physis.Library.Precedence
open Physis.Runtime.HaloExchange

variable {α : Type}

/-! ## The script of a run -/

/-- A step of a run: a block of an exchange, or a kernel with the operations left after it. -/
inductive ScriptStep where
  | block (exchange : HaloExchange) (action : ExchangeAction)
  | kernel (left : Nat)

/-- The exchange an operation is, if it is no kernel. -/
def GridOperation.exchange? : GridOperation α → Option HaloExchange
  | .exchange halos => some halos
  | .kernel _ => none

/-- The steps of all operations. -/
def scriptOf (numDims : Nat) : List (Option HaloExchange) → List ScriptStep
  | [] => []
  | some exchange :: rest =>
      (exchangeProgram numDims).map (.block exchange) ++ scriptOf numDims rest
  | none :: rest => .kernel rest.length :: scriptOf numDims rest

/-- The number of blocks from a block to the wait for its dimension. -/
def ExchangeAction.untilWait (action : ExchangeAction) : Nat :=
  action.stage - 5 * action.dim

namespace ScriptStep

variable (space : GridSpaceMPI) (grids : Nat → GridMPI α)

/-- The receive a step posts for one source. -/
def postFrom (rank source : Nat) : ScriptStep → Option HaloTransfer
  | .block exchange action => exchange.postFrom space grids rank source action
  | .kernel _ => none

/-- The halo a step sends to one target. -/
def sendTo (rank target : Nat) : ScriptStep → Option HaloTransfer
  | .block exchange action => exchange.sendTo space grids rank target action
  | .kernel _ => none

def isKernel : ScriptStep → Bool
  | .block _ _ => false
  | .kernel _ => true

end ScriptStep

/-! ## Blocks by their places -/

section Places

variable {numDims : Nat}

/-- The place of a block in `exchangeProgram`, by its stage. -/
theorem exchangeProgram_getElem?_iff {place : Nat} {action : ExchangeAction} :
    (exchangeProgram numDims)[place]? = some action ↔
      action.dim < numDims ∧ place + action.stage + 1 = 5 * numDims := by
  induction numDims generalizing place with
  | zero => simp [exchangeProgram]
  | succ numDims induction =>
      rw [exchangeProgram]
      have bounds := action.stage_bounds
      rcases Nat.lt_or_ge place 5 with first | later
      · rw [List.getElem?_append_left (by simpa [exchangeDimension] using first)]
        constructor
        · intro found
          obtain rfl | rfl | rfl | rfl | rfl :
              place = 0 ∨ place = 1 ∨ place = 2 ∨ place = 3 ∨ place = 4 := by omega
          all_goals
            obtain rfl := Option.some.inj found
            simp only [ExchangeAction.dim, ExchangeAction.stage]
            omega
        · rintro ⟨below, stage⟩
          have same : action.dim = numDims := by omega
          cases action with
          | recv dim dir =>
              obtain rfl : dim = numDims := same
              cases dir
              · simp only [ExchangeAction.stage] at stage
                obtain rfl : place = 0 := by omega
                rfl
              · simp only [ExchangeAction.stage] at stage
                obtain rfl : place = 1 := by omega
                rfl
          | send dim dir =>
              obtain rfl : dim = numDims := same
              cases dir
              · simp only [ExchangeAction.stage] at stage
                obtain rfl : place = 2 := by omega
                rfl
              · simp only [ExchangeAction.stage] at stage
                obtain rfl : place = 3 := by omega
                rfl
          | wait dim =>
              obtain rfl : dim = numDims := same
              simp only [ExchangeAction.stage] at stage
              obtain rfl : place = 4 := by omega
              rfl
      · rw [List.getElem?_append_right (by simpa [exchangeDimension] using later), induction]
        simp only [exchangeDimension, List.length_cons, List.length_nil]
        omega

/-- The blocks of one dimension stand at fixed distances. -/
theorem scriptOf_getElem?_later {schedule : List (Option HaloExchange)} {place : Nat}
    {exchange : HaloExchange} {action later : ExchangeAction} {distance : Nat}
    (found : (scriptOf numDims schedule)[place]? = some (.block exchange action))
    (dim : later.dim = action.dim) (stage : later.stage + distance = action.stage) :
    (scriptOf numDims schedule)[place + distance]? = some (.block exchange later) := by
  induction schedule generalizing place with
  | nil => cases found
  | cons operation rest induction =>
      cases operation with
      | none =>
          cases place with
          | zero => cases found
          | succ place =>
              have shifted := @induction place found
              rwa [Nat.add_right_comm]
      | some own =>
          simp only [scriptOf] at found ⊢
          rcases Nat.lt_or_ge place ((exchangeProgram numDims).map
              (ScriptStep.block own)).length with inside | outside
          · rw [List.getElem?_append_left inside, List.getElem?_map,
              Option.map_eq_some_iff] at found
            obtain ⟨_, here, equal⟩ := found
            cases equal
            obtain ⟨below, position⟩ := exchangeProgram_getElem?_iff.mp here
            have there : (exchangeProgram numDims)[place + distance]? = some later :=
              exchangeProgram_getElem?_iff.mpr ⟨dim ▸ below, by omega⟩
            have bound := (List.getElem?_eq_some_iff.mp there).1
            rw [List.getElem?_append_left (by rwa [List.length_map]), List.getElem?_map, there]
            rfl
          · rw [List.getElem?_append_right outside] at found
            have shifted := induction found
            rw [List.getElem?_append_right (by omega)]
            rwa [Nat.sub_add_comm outside]

theorem untilWait_spec (action : ExchangeAction) :
    5 * action.dim + action.untilWait = action.stage := by
  have bounds := action.stage_bounds
  rw [ExchangeAction.untilWait]
  omega

/-- A block is followed by the wait for its dimension. -/
theorem scriptOf_wait {schedule : List (Option HaloExchange)} {place : Nat}
    {exchange : HaloExchange} {action : ExchangeAction}
    (found : (scriptOf numDims schedule)[place]? = some (.block exchange action)) :
    (scriptOf numDims schedule)[place + action.untilWait]? =
      some (.block exchange (.wait action.dim)) :=
  scriptOf_getElem?_later found rfl (untilWait_spec action)

/-- A receive is followed by the send of the same halo. -/
theorem scriptOf_send {schedule : List (Option HaloExchange)} {place dim : Nat} {dir : Dir}
    {exchange : HaloExchange}
    (found : (scriptOf numDims schedule)[place]? = some (.block exchange (.recv dim dir))) :
    (scriptOf numDims schedule)[place + 2]? = some (.block exchange (.send dim dir)) :=
  scriptOf_getElem?_later found rfl (by cases dir <;> rfl)

theorem dim_lt_of_scriptOf {schedule : List (Option HaloExchange)} {place : Nat}
    {exchange : HaloExchange} {action : ExchangeAction}
    (found : (scriptOf numDims schedule)[place]? = some (.block exchange action)) :
    action.dim < numDims := by
  induction schedule generalizing place with
  | nil => cases found
  | cons operation rest induction =>
      cases operation with
      | none =>
          cases place with
          | zero => cases found
          | succ place => exact @induction place found
      | some own =>
          simp only [scriptOf] at found
          rcases Nat.lt_or_ge place ((exchangeProgram numDims).map
              (ScriptStep.block own)).length with inside | outside
          · rw [List.getElem?_append_left inside, List.getElem?_map,
              Option.map_eq_some_iff] at found
            obtain ⟨_, here, equal⟩ := found
            cases equal
            exact (exchangeProgram_getElem?_iff.mp here).1
          · rw [List.getElem?_append_right outside] at found
            exact induction found

end Places

/-! ## Receives and sends match -/

section Matching

variable {space : GridSpaceMPI} {elmSize : Nat} {size globalOffset : IndexArray}
  {grids : Nat → GridMPI α}

/--
Before any wait, the receives a process with data has posted for another are the
halos the other sends to it.
-/
theorem scriptOf_matches
    (distributed : Distributed space elmSize size globalOffset grids)
    {receiver source : Nat}
    (receiverBounded : receiver < space.numProcs)
    (sourceBounded : source < space.numProcs)
    (receiverOccupied : (grids receiver).empty = false)
    (sourceOccupied : (grids source).empty = false)
    {schedule : List (Option HaloExchange)} {place dim : Nat} {exchange : HaloExchange}
    (found : (scriptOf space.numDims schedule)[place]? =
      some (.block exchange (.wait dim))) :
    ((scriptOf space.numDims schedule).take place).filterMap
        (ScriptStep.postFrom space grids receiver source) =
      ((scriptOf space.numDims schedule).take place).filterMap
        (ScriptStep.sendTo space grids source receiver) := by
  have matched (own : HaloExchange) : ∀ i < space.numDims, ∀ dir,
      own.postFrom space grids receiver source (.recv i dir) =
        own.sendTo space grids source receiver (.send i dir) :=
    fun i below dir => postFrom_eq_sendTo distributed receiverBounded sourceBounded
      receiverOccupied sourceOccupied below dir
  induction schedule generalizing place with
  | nil => cases found
  | cons operation rest induction =>
      cases operation with
      | none =>
          cases place with
          | zero => cases found
          | succ place =>
              simp only [scriptOf, List.take_succ_cons]
              exact @induction place found
      | some own =>
          simp only [scriptOf] at found ⊢
          rcases Nat.lt_or_ge place ((exchangeProgram space.numDims).map
              (ScriptStep.block own)).length with inside | outside
          · rw [List.getElem?_append_left inside, List.getElem?_map,
              Option.map_eq_some_iff] at found
            obtain ⟨_, here, equal⟩ := found
            cases equal
            obtain ⟨bound, here⟩ := List.getElem?_eq_some_iff.mp here
            have split : (exchangeProgram space.numDims).take place ++
                .wait dim :: (exchangeProgram space.numDims).drop (place + 1) =
                  exchangeProgram space.numDims := by
              rw [← here, ← List.drop_eq_getElem_cons bound, List.take_append_drop]
            rw [List.take_append_of_le_length inside.le, ← List.map_take,
              List.filterMap_map, List.filterMap_map]
            exact filterMap_eq_before_wait (matched exchange) (fun _ _ => rfl) (fun _ _ => rfl)
              (fun _ => ⟨rfl, rfl⟩) split
          · rw [List.getElem?_append_right outside] at found
            rw [List.take_append, List.take_of_length_le outside, List.filterMap_append,
              List.filterMap_append, induction found, List.filterMap_map, List.filterMap_map]
            exact congrArg (· ++ _) (filterMap_eq_program (matched own) (fun _ _ => rfl)
              (fun _ _ => rfl) fun _ => ⟨rfl, rfl⟩)

end Matching

/-! ## The condition -/

section Condition

variable (space : GridSpaceMPI) (grids : Nat → GridMPI α)
  (schedule : List (Option HaloExchange))

/-- A process sends a halo at a place of the script. -/
structure SendsAt (rank place dim : Nat) (dir : Dir) (exchange : HaloExchange) : Prop where
  found : (scriptOf space.numDims schedule)[place]? = some (.block exchange (.send dim dir))
  sends : exchange.sends (grids rank) dim dir = true

/--
The process has waited, before a place, for a halo that the other process sent;
the other had come to the block `told` by then.
-/
def Hears (rank place source told : Nat) : Prop :=
  ∃ exchange dim dir,
    (scriptOf space.numDims schedule)[told]? = some (.block exchange (.recv dim dir)) ∧
    exchange.receives (grids rank) dim dir = true ∧
    space.neighbor rank dim dir = source ∧
    told + (ExchangeAction.recv dim dir).untilWait < place

/-- The bytes of a halo that is sent. -/
def sentBytes (rank dim : Nat) (dir : Dir) (exchange : HaloExchange) : Nat :=
  exchange.haloBytes (exchange.received (grids rank)) dim dir

/-- At a place, `GetHaloBuf` finds a buffer that is large enough for a halo. -/
def FindsBuffer (rank place dim : Nat) (dir : Dir) (exchange : HaloExchange) : Prop :=
  ∃ earlier < place, ∃ before, SendsAt space grids schedule rank earlier dim dir before ∧
    sentBytes grids rank dim dir exchange ≤ sentBytes grids rank dim dir before

/-- The kernels before a place; each swaps the two data buffers. -/
def kernelsBefore (place : Nat) : Nat :=
  ((scriptOf space.numDims schedule).take place).countP ScriptStep.isKernel

/-- The data buffers `data_[0]` and `data_[1]` after some kernels. -/
def dataIdAfter (rank kernels : Nat) : Nat → Nat :=
  (GridMPI.swap^[kernels] (grids rank)).dataId

/-- Where the slab of the last dimension starts in the data. -/
def lastSlab (grid : GridMPI α) (dim width : Nat) : Dir → Int
  | .fw => 0
  | .bw => IntegerArray.accumulate
      (Function.update grid.localSize dim (grid.localSize dim - width)) grid.numDims

/-- For some content of the grid the kernel emits an element of a slab. -/
def MayEmit (operations : List (GridOperation α)) (grid : GridMPI α) (left : Nat)
    (offset : Int) (count : Nat) : Prop :=
  ∃ before emitted rest, operations = before ++ .kernel emitted :: rest ∧
    rest.length = left ∧ ∃ content, SameShape grid content ∧
      ∃ position < count, (emitted content (offset + (position : Nat))).isSome = true

/--
A step writes memory that a halo was sent from: it packs the same halo into the
same buffer, or it is a kernel that writes the data buffer the slab is in.
-/
inductive Rewrites (operations : List (GridOperation α)) (rank place dim : Nat) (dir : Dir)
    (exchange : HaloExchange) (later : Nat) : Prop
  | pack {next : HaloExchange} (inner : dim + 1 < space.numDims)
      (sends : SendsAt space grids schedule rank later dim dir next)
      (kept : ∀ between, place < between → between ≤ later → ∀ other,
        SendsAt space grids schedule rank between dim dir other →
          FindsBuffer space grids schedule rank between dim dir other)
  | kernel {left : Nat} (last : dim + 1 = space.numDims)
      (found : (scriptOf space.numDims schedule)[later]? = some (.kernel left))
      (buffer : dataIdAfter grids rank (kernelsBefore space schedule place) 0 =
        dataIdAfter grids rank (kernelsBefore space schedule later) 1)
      (emits : MayEmit operations (grids rank) left
        (lastSlab (grids rank) dim (exchange.width dir dim) dir)
        ((exchange.received (grids rank)).calcHaloSize dim (exchange.width dir dim)
          exchange.diagonal))

/--
Before a process comes to a step that writes memory it sent a halo from, the
receiver's wait for the halo is over.
-/
def SendsAcknowledged (operations : Nat → List (GridOperation α)) : Prop :=
  ∀ rank < space.numProcs, (grids rank).empty = false →
    ∀ place dim dir exchange, SendsAt space grids schedule rank place dim dir exchange →
      ∀ later, place < later →
        Rewrites space grids schedule (operations rank) rank place dim dir exchange later →
          Precedes (Hears space grids schedule) (space.neighbor rank dim dir.flip)
            (place + (ExchangeAction.send dim dir).untilWait) rank later

end Condition

end Physis.Runtime
