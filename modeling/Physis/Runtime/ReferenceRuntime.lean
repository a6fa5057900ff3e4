import Physis.Runtime.ReduceGrid

/-!
# The reference runtime

The runtime for one process keeps a grid in one array, and its calls copy, set
and fold the elements there.  A program is what a user's main function does
with the calls of the runtime, and what it does next may depend on what they
return.  Stencil runs are generated code, and stay parameters.

Elements are exact numbers here.
-/

namespace Physis.Runtime

open Physis.Library

/-! ## Grids -/

/-- `__PSGrid`; without double buffering `p1` is the address of `p0`. -/
structure RefGrid where
  elmSize : Nat
  numDims : Nat
  dim : IndexArray
  numElms : Int
  p0 : Int → ℚ
  p1 : Option (Int → ℚ)

namespace RefGrid

/-- `__PSGridNew`, with the memory that `calloc` returns -/
def psGridNew (elmSize numDims : Nat) (dim : IndexArray) (doubleBuffering : Bool) : RefGrid where
  elmSize := elmSize
  numDims := numDims
  dim := dim
  numElms := (List.range numDims).foldl (fun numElms i => numElms * dim i) 1
  p0 _ := 0
  p1 := if doubleBuffering then some fun _ => 0 else none

/-- `PSGridCopyin` -/
def psGridCopyin (g : RefGrid) (srcArray : Int → ℚ) : RefGrid :=
  { g with p0 := fun i => if 0 ≤ i ∧ i < g.numElms then srcArray i else g.p0 i }

/-- `PSGridCopyout`: the elements written to the array -/
def psGridCopyout (g : RefGrid) : List ℚ :=
  elements g.p0 g.numElms

/-- The loop of `__PSGridSet`: the offset, and the offset of the next dimension -/
def setOffset (g : RefGrid) (idx : IndexArray) : Int :=
  ((List.range g.numDims).foldl
    (fun (pair : Int × Int) i => (pair.1 + idx i * pair.2, pair.2 * g.dim i)) (0, 1)).1

/-- `__PSGridSet` -/
def psGridSet (g : RefGrid) (idx : IndexArray) (value : ℚ) : RefGrid :=
  { g with p0 := Function.update g.p0 (g.setOffset idx) value }

/-- `PSReduceGridTemplate` -/
def reduceGrid (g : RefGrid) (op : PSReduceOp) : ℚ :=
  psReduceGrid op g.p0 g.numElms

end RefGrid

/-! ## The process -/

/-- The grids that exist, by their addresses in the order of allocation. -/
structure RefState where
  heap : Nat → Option RefGrid
  allocated : Nat

namespace RefState

def initial : RefState where
  heap _ := none
  allocated := 0

/-- The grid at an address is another one now. -/
def set (state : RefState) (g : Nat) (grid : Option RefGrid) : RefState :=
  { state with heap := Function.update state.heap g grid }

/-- A new grid at a new address. -/
def allocate (state : RefState) (grid : RefGrid) : RefState where
  heap := Function.update state.heap state.allocated (some grid)
  allocated := state.allocated + 1

variable (state : RefState) {g other : Nat}

theorem set_self (grid : Option RefGrid) : (state.set g grid).heap g = grid :=
  Function.update_self _ _ _

theorem set_of_ne (different : other ≠ g) (grid : Option RefGrid) :
    (state.set g grid).heap other = state.heap other :=
  Function.update_of_ne different _ _

theorem allocate_self (grid : RefGrid) :
    (state.allocate grid).heap state.allocated = some grid :=
  Function.update_self _ _ _

theorem allocate_of_ne (different : g ≠ state.allocated) (grid : RefGrid) :
    (state.allocate grid).heap g = state.heap g :=
  Function.update_of_ne different _ _

end RefState

/-! ## Calls -/

/-- A stencil object as bytes. -/
abbrev StencilObject := List (BitVec 8)

/-- A call of the runtime; `stencilRun` has the number of the run function. -/
inductive ApiCall where
  | gridNew (type : PSType) (elmSize numDims : Nat) (size : IndexArray)
      (doubleBuffering : Bool) (attr : Int)
  | gridFree (g : Nat)
  | gridCopyin (g : Nat) (buf : Int → ℚ)
  | gridCopyout (g : Nat)
  | gridSet (g : Nat) (index : IndexArray) (value : ℚ)
  | reduceGrid (g : Nat) (op : PSReduceOp)
  | stencilRun (id : Nat) (iter : Int) (stencils : List StencilObject)

/-- What a call returns, or writes to an array of the caller. -/
inductive ApiResult where
  | returned
  | null
  | grid (g : Nat)
  | array (elements : List ℚ)
  | value (v : ℚ)

/-- What the main function does, up to `PSFinalize`. -/
inductive ApiProgram where
  | finalize
  | call (call : ApiCall) (next : ApiResult → ApiProgram)

/-- What a run function does to the grids of the reference runtime. -/
abbrev ReferenceStencils := Nat → Int → List StencilObject → RefState → RefState

/-- A call in the reference runtime; `none` where it is given no grid. -/
def ApiCall.reference (stencils : ReferenceStencils) (state : RefState) :
    ApiCall → Option (RefState × ApiResult)
  | gridNew _ elmSize numDims size doubleBuffering _ =>
      some (state.allocate (.psGridNew elmSize numDims size doubleBuffering),
        .grid state.allocated)
  | gridFree g => (state.heap g).map fun _ => (state.set g none, .returned)
  | gridCopyin g buf =>
      (state.heap g).map fun grid => (state.set g (grid.psGridCopyin buf), .returned)
  | gridCopyout g => (state.heap g).map fun grid => (state, .array grid.psGridCopyout)
  | gridSet g index value =>
      (state.heap g).map fun grid => (state.set g (grid.psGridSet index value), .returned)
  | reduceGrid g op => (state.heap g).map fun grid => (state, .value (grid.reduceGrid op))
  | stencilRun id iter objects => some (stencils id iter objects state, .returned)

/-- A program in the reference runtime: what its calls return, in their order. -/
def ApiProgram.reference (stencils : ReferenceStencils) :
    ApiProgram → RefState → List ApiResult → Option (List ApiResult)
  | finalize, _, results => some results
  | call first next, state, results =>
      match first.reference stencils state with
      | none => none
      | some (after, result) => (next result).reference stencils after (results ++ [result])

end Physis.Runtime
