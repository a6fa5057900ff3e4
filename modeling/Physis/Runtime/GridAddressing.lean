import Physis.Runtime.GridAccessRuns
import Physis.Runtime.HaloIterations

/-!
# Address functions of the generated code

Generated kernels do not call `GetAddress`: `__PSGridGetAddr` finds an element
in the own data, a halo or the remote grid, and two shorter functions serve
accesses without halos and writes.  For an index of the local subgrid all of
them should designate one position.  They do for single-buffered grids of three
dimensions only: the search of `__PSGridGetAddr` goes on over dimensions the
grid does not have, and the access without halos reads the buffer to write.
-/

namespace Physis.Runtime

open Physis.Library
open Physis.Library.RowMajor

variable {α : Type}

/-- `__PSGridCalcOffset3D` of an index in a box -/
def psGridCalcOffset3D (index size : IndexArray) : Int :=
  index 0 + index 1 * size 0 + index 2 * size 0 * size 1

/-- `__PSGridCalcOffset3D` of coordinates in a box with a base -/
def psGridCalcOffset3DFrom (x y z : Int) (base size : IndexArray) : Int :=
  (x - base 0) + (y - base 1) * size 0 + (z - base 2) * size 0 * size 1

namespace GridMPI

variable (grid : GridMPI α)

/-- The branch of `__PSGridGetAddr` for coordinate `i` outside the local subgrid. -/
def psHaloAddr (indices : IndexArray) (i : Nat) : GridAddress :=
  let moved : IndexArray := fun j =>
    if i < j ∧ j < psMaxDim ∧ grid.haloHasDiagonal = true then
      indices j + (grid.haloWidth .bw j : Nat)
    else indices j
  if indices i < 0 then
    .halo .bw i (psGridCalcOffset3D
      (Function.update moved i (moved i + (grid.haloWidth .bw i : Nat)))
      (grid.haloSize .bw i))
  else
    .halo .fw i (psGridCalcOffset3D
      (Function.update moved i (moved i - grid.localSize i))
      (grid.haloSize .fw i))

/-- `__PSGridGetAddr`; none where it would dereference no remote grid. -/
def psGridGetAddr (indicesParam : IndexArray) : Option GridAddress :=
  if grid.remoteGridActive then
    grid.remoteGrid.map fun rmg =>
      .remote (psGridCalcOffset3D (fun i => indicesParam i - rmg.localOffset i)
        rmg.localSize)
  else
    let indices : IndexArray := fun i => indicesParam i - grid.localOffset i
    -- all dimensions there can be, not those of the grid
    match (List.range psMaxDim).find? fun i =>
        decide (indices i < 0) || decide (grid.localSize i ≤ indices i) with
    | some i => some (grid.psHaloAddr indices i)
    | none => some (.data (psGridCalcOffset3D indices grid.localSize))

/-! ## Buffers -/

end GridMPI

/-- What an address function returns a pointer into, and the position there. -/
inductive ElementAddress where
  | remote (position : Int)
  | halo (dir : Dir) (dim : Nat) (position : Int)
  | buffer (id : Nat) (position : Int)
deriving DecidableEq, Repr

namespace GridMPI

variable (grid : GridMPI α)

/-- The pointer an address stands for; own elements are those of `_data()`. -/
def pointer : GridAddress → ElementAddress
  | .remote position => .remote position
  | .halo dir dim position => .halo dir dim position
  | .data position => .buffer (grid.dataId 0) position

/-- The index array an access with `numDims` coordinates is made of. -/
def accessIndex (numDims : Nat) (index : IndexArray) : IndexArray :=
  fun i => if i < numDims then index i else 0

/-- `__PSGridGetAddrFloat1D` to `3D` and `__PSGridGetAddrDouble1D` to `3D` -/
def getAddr (numDims : Nat) (index : IndexArray) : Option ElementAddress :=
  (grid.psGridGetAddr (accessIndex numDims index)).map grid.pointer

/-- `__PSGridGetAddrNoHalo3D`, with a zero for every coordinate not given -/
def getAddrNoHalo (numDims : Nat) (index : IndexArray) : ElementAddress :=
  let given := accessIndex numDims index
  .buffer (grid.dataId 1) (psGridCalcOffset3DFrom (given 0) (given 1) (given 2)
    grid.localOffset grid.localSize)

/-- `__PSGridEmitAddr3D`, with a zero for every coordinate not given -/
def emitAddr (numDims : Nat) (index : IndexArray) : ElementAddress :=
  let given := accessIndex numDims index
  .buffer (grid.dataId 1) (psGridCalcOffset3DFrom (given 0) (given 1) (given 2)
    grid.localOffset grid.localSize)

/-- `GetAddress` of an index with `numDims` coordinates -/
def elementAddress (numDims : Nat) (index : IndexArray) : Option ElementAddress :=
  (grid.getAddress (accessIndex numDims index)).map grid.pointer

/-- A double-buffered grid has two buffers, another grid only one. -/
def HasBuffers (doubleBuffering : Bool) : Prop :=
  grid.dataId 0 = grid.dataId 1 ↔ doubleBuffering = false

theorem create_hasBuffers
    (elmSize numDims : Nat) (size : IndexArray) (doubleBuffering : Bool)
    (globalOffset localOffset localSize : IndexArray) (memory : Nat → Int → α) :
    (create elmSize numDims size doubleBuffering globalOffset localOffset localSize
      memory).HasBuffers doubleBuffering := by
  cases doubleBuffering <;> simp [HasBuffers, create]

variable {grid} in
/-- Swapping exchanges the buffers. -/
theorem HasBuffers.swap
    {doubleBuffering : Bool} (buffers : grid.HasBuffers doubleBuffering) :
    grid.swap.HasBuffers doubleBuffering := by
  simp only [HasBuffers, GridMPI.swap] at buffers ⊢
  rw [if_pos trivial, if_neg (by decide), if_pos trivial, eq_comm]
  exact buffers

/-! ## Indices of the local subgrid -/

/-- The coordinates lie in the local subgrid. -/
def InLocal (numDims : Nat) (index : IndexArray) : Prop :=
  ∀ i < numDims, grid.localOffset i ≤ index i ∧
    index i < grid.localOffset i + grid.localSize i

/--
Indices of the local subgrid have one position each, the same for all address
functions: those that read return it in the buffer to read, the one to write
with in the buffer to write.
-/
structure ResolvesLocally (numDims : Nat) : Prop where
  resolves : ∀ index, grid.InLocal numDims index → ∃ position,
    0 ≤ position ∧ position < IntegerArray.accumulate grid.localSize grid.numDims ∧
      grid.getAddr numDims index = some (.buffer (grid.dataId 0) position) ∧
      grid.getAddrNoHalo numDims index = .buffer (grid.dataId 0) position ∧
      grid.elementAddress numDims index = some (.buffer (grid.dataId 0) position) ∧
      grid.emitAddr numDims index = .buffer (grid.dataId 1) position
  distinct : ∀ left right, grid.InLocal numDims left → grid.InLocal numDims right →
    grid.getAddr numDims left = grid.getAddr numDims right →
      ∀ i < numDims, left i = right i

end GridMPI

theorem psGridCalcOffset3DFrom_eq_linear (index base size : IndexArray) :
    psGridCalcOffset3DFrom (index 0) (index 1) (index 2) base size =
      linear size (fun i => index i - base i) 3 := by
  simp only [psGridCalcOffset3DFrom, linear_succ, linear_zero, volume_succ,
    volume_zero]
  ring

theorem psGridCalcOffset3D_eq_linear (index size : IndexArray) :
    psGridCalcOffset3D index size = linear size index 3 :=
  gridCalcOffset3D_eq_linear index size

section Created

variable
    {space : GridSpaceMPI} {elmSize numDims rank : Nat}
    {size globalOffset : IndexArray} {grid : GridMPI α}
    (own : Decomposed space elmSize (space.gridSize numDims size)
      (space.gridGlobalOffset numDims globalOffset) rank grid)
    (adapted : numDims ≤ space.numDims) (small : space.numDims ≤ psMaxDim)
    (occupied : grid.empty = false) (inactive : grid.remoteGridActive = false)

include own

/-- Unused dimensions hold no extent. -/
theorem Decomposed.unused {i : Nat} (beyond : space.numDims ≤ i) :
    grid.localOffset i = 0 ∧ grid.localSize i = 0 := by
  rw [own.localOffset, own.localSize]
  simp [GridSpaceMPI.localOffset, GridSpaceMPI.localSize, Nat.not_lt_of_ge beyond]

include occupied in
/-- A dimension added to a grid has the coordinate zero only. -/
theorem Decomposed.added
    {i : Nat} (beyond : numDims ≤ i) (below : i < space.numDims) :
    grid.localOffset i = 0 ∧ grid.localSize i = 1 := by
  have extent := own.empty_eq_false_iff.mp occupied i below
  have nonneg := space.offsets_nonneg below (space.procIndices rank i)
  rw [own.localSize] at extent
  rw [own.localOffset, own.localSize]
  simp only [GridSpaceMPI.localOffset, GridSpaceMPI.localSize,
    GridSpaceMPI.gridSize, GridSpaceMPI.gridGlobalOffset, GridSpaceMPI.myOffset,
    if_pos below, if_pos (And.intro beyond below)] at extent ⊢
  omega

include occupied in
/-- In the dimensions of the space an index of the local subgrid stays inside. -/
theorem Decomposed.accessIndex_inside
    {index : IndexArray} (inside : grid.InLocal numDims index)
    {i : Nat} (below : i < space.numDims) :
    0 ≤ GridMPI.accessIndex numDims index i - grid.localOffset i ∧
      GridMPI.accessIndex numDims index i - grid.localOffset i <
        grid.localSize i := by
  simp only [GridMPI.accessIndex]
  by_cases given : i < numDims
  · have bounds := inside i given
    rw [if_pos given]
    omega
  · have one := own.added occupied (by omega) below
    rw [if_neg given, one.1, one.2]
    omega

include adapted in
theorem Decomposed.accessIndex_unused
    (index : IndexArray) {i : Nat} (beyond : space.numDims ≤ i) :
    GridMPI.accessIndex numDims index i - grid.localOffset i = 0 := by
  rw [GridMPI.accessIndex, if_neg (by omega), (own.unused beyond).1, sub_zero]

/-- The position of an index in the local subgrid. -/
def GridMPI.localPosition
    (grid : GridMPI α) (numDims : Nat) (index : IndexArray) : Int :=
  linear grid.localSize
    (fun i => GridMPI.accessIndex numDims index i - grid.localOffset i) grid.numDims

include adapted small in
/-- The linearisation over three dimensions adds nothing. -/
theorem Decomposed.linear_three (index : IndexArray) :
    linear grid.localSize
        (fun i => GridMPI.accessIndex numDims index i - grid.localOffset i) 3 =
      grid.localPosition numDims index := by
  rw [GridMPI.localPosition, own.numDims]
  exact linear_eq_of_zero small fun i beyond =>
    own.accessIndex_unused adapted index beyond

include occupied in
theorem Decomposed.localPosition_bounds
    {index : IndexArray} (inside : grid.InLocal numDims index) :
    0 ≤ grid.localPosition numDims index ∧
      grid.localPosition numDims index <
        IntegerArray.accumulate grid.localSize grid.numDims := by
  have member : InBox grid.numDims grid.localSize fun i =>
      GridMPI.accessIndex numDims index i - grid.localOffset i := by
    intro i below
    rw [own.numDims] at below
    exact own.accessIndex_inside occupied inside below
  rw [IntegerArray.accumulate_eq_volume]
  exact ⟨linear_nonneg member, linear_lt_volume member⟩

include adapted occupied in
/-- Different indices have different positions. -/
theorem Decomposed.localPosition_injective
    {left right : IndexArray} (leftInside : grid.InLocal numDims left)
    (rightInside : grid.InLocal numDims right)
    (same : grid.localPosition numDims left = grid.localPosition numDims right)
    {i : Nat} (given : i < numDims) : left i = right i := by
  have member : ∀ {index : IndexArray}, grid.InLocal numDims index →
      InBox grid.numDims grid.localSize fun i =>
        GridMPI.accessIndex numDims index i - grid.localOffset i := by
    intro index inside i below
    rw [own.numDims] at below
    exact own.accessIndex_inside occupied inside below
  have coordinate := eq_of_linear_eq (member leftInside) (member rightInside) same i
    (by rw [own.numDims]; omega)
  simp only [GridMPI.accessIndex, if_pos given] at coordinate
  omega

include adapted small in
/-- Without halos, reading and writing use the buffer to write. -/
theorem Decomposed.emitAddr_eq (index : IndexArray) :
    grid.emitAddr numDims index =
        .buffer (grid.dataId 1) (grid.localPosition numDims index) ∧
      grid.getAddrNoHalo numDims index =
        .buffer (grid.dataId 1) (grid.localPosition numDims index) := by
  have position := (psGridCalcOffset3DFrom_eq_linear
    (GridMPI.accessIndex numDims index) grid.localOffset grid.localSize).trans
      (own.linear_three adapted small index)
  exact ⟨congrArg _ position, congrArg _ position⟩

include adapted small occupied inactive in
/-- `GetAddress` finds an index of the local subgrid in the own data. -/
theorem Decomposed.elementAddress_eq
    {index : IndexArray} (inside : grid.InLocal numDims index) :
    grid.elementAddress numDims index =
      some (.buffer (grid.dataId 0) (grid.localPosition numDims index)) := by
  have owns : space.Owns rank (space.gridSize numDims size)
      (space.gridGlobalOffset numDims globalOffset)
      (GridMPI.accessIndex numDims index) := by
    intro i below
    have bounds := own.accessIndex_inside occupied inside below
    rw [← own.localOffset, ← own.localSize]
    omega
  have zero : ∀ i, space.numDims ≤ i → GridMPI.accessIndex numDims index i = 0 := by
    intro i beyond
    rw [GridMPI.accessIndex, if_neg (by omega)]
  rw [GridMPI.elementAddress, own.getAddress_own small inactive owns zero,
    GridMPI.localPosition, own.numDims]
  rfl

include adapted occupied inactive in
/-- In three dimensions `__PSGridGetAddr` finds it there too. -/
theorem Decomposed.getAddr_eq
    (three : space.numDims = 3)
    {index : IndexArray} (inside : grid.InLocal numDims index) :
    grid.getAddr numDims index =
      some (.buffer (grid.dataId 0) (grid.localPosition numDims index)) := by
  have found : (List.range psMaxDim).find? (fun i =>
      decide (GridMPI.accessIndex numDims index i - grid.localOffset i < 0) ||
        decide (grid.localSize i ≤
          GridMPI.accessIndex numDims index i - grid.localOffset i)) = none := by
    rw [List.find?_eq_none]
    intro i member
    have below : i < 3 := List.mem_range.mp member
    have bounds := own.accessIndex_inside occupied inside
      (show i < space.numDims by omega)
    simp only [Bool.or_eq_true, decide_eq_true_eq]
    omega
  have position := (psGridCalcOffset3D_eq_linear _ _).trans
    (own.linear_three adapted (show space.numDims ≤ 3 by omega) index)
  simp only [GridMPI.getAddr, GridMPI.psGridGetAddr, inactive, found]
  rw [if_neg (by decide), position]
  rfl

include adapted occupied inactive in
/-- With fewer dimensions it returns a halo the grid does not have. -/
theorem Decomposed.getAddr_unused
    (fewer : space.numDims < 3)
    {index : IndexArray} (inside : grid.InLocal numDims index) :
    ∃ position, grid.getAddr numDims index =
      some (.halo .fw space.numDims position) := by
  have found : (List.range psMaxDim).find? (fun i =>
      decide (GridMPI.accessIndex numDims index i - grid.localOffset i < 0) ||
        decide (grid.localSize i ≤
          GridMPI.accessIndex numDims index i - grid.localOffset i)) =
        some space.numDims := by
    rw [List.find?_range_eq_some]
    refine ⟨?_, List.mem_range.mpr fewer, ?_⟩
    · rw [own.accessIndex_unused adapted index le_rfl, (own.unused le_rfl).2]
      decide
    · intro i below
      have bounds := own.accessIndex_inside occupied inside below
      simp only [Bool.not_eq_true', Bool.or_eq_false_iff, decide_eq_false_iff_not]
      omega
  have address : grid.getAddr numDims index = (some (grid.psHaloAddr (fun i =>
      GridMPI.accessIndex numDims index i - grid.localOffset i) space.numDims)).map
        grid.pointer := by
    simp only [GridMPI.getAddr, GridMPI.psGridGetAddr, inactive, found]
    rw [if_neg (by decide)]
  rw [address, Option.map_some, GridMPI.psHaloAddr, if_neg]
  · exact ⟨_, rfl⟩
  · rw [own.accessIndex_unused adapted index le_rfl]
    decide

include own adapted small occupied inactive in
/--
The address functions agree on the local subgrid of a created grid exactly if
the space has three dimensions and the grid is not double-buffered.
-/
theorem resolvesLocally_iff
    {doubleBuffering : Bool} (buffers : grid.HasBuffers doubleBuffering) :
    grid.ResolvesLocally numDims ↔
      space.numDims = 3 ∧ doubleBuffering = false := by
  have corner : grid.InLocal numDims grid.localOffset := by
    intro i below
    have extent := own.empty_eq_false_iff.mp occupied i (by omega)
    omega
  constructor
  · intro resolved
    obtain ⟨position, _, _, read, noHalo, _, _⟩ := resolved.resolves _ corner
    constructor
    · by_contra other
      have fewer : space.numDims < 3 :=
        lt_of_le_of_ne small other
      obtain ⟨beyond, unused⟩ :=
        own.getAddr_unused adapted occupied inactive fewer corner
      rw [read] at unused
      simp at unused
    · rw [(own.emitAddr_eq adapted small _).2, ElementAddress.buffer.injEq] at noHalo
      exact buffers.mp noHalo.1.symm
  · rintro ⟨three, single⟩
    have one := buffers.mpr single
    constructor
    · intro index inside
      have bounds := own.localPosition_bounds occupied inside
      have written := own.emitAddr_eq adapted small index
      exact ⟨_, bounds.1, bounds.2, own.getAddr_eq adapted occupied inactive three inside,
        by rw [written.2, one],
        own.elementAddress_eq adapted small occupied inactive inside, written.1⟩
    · intro left right leftInside rightInside same i given
      rw [own.getAddr_eq adapted occupied inactive three leftInside,
        own.getAddr_eq adapted occupied inactive three rightInside,
        Option.some.injEq, ElementAddress.buffer.injEq] at same
      exact own.localPosition_injective adapted occupied leftInside rightInside same.2
        given

end Created

/-- Two cells a side on one process. -/
def twoCubed : GridSpaceMPI where
  numDims := 3
  globalSize := IntegerArray.mk3 2 2 2
  procSize := IntegerArray.mk3 1 1 1
  globalPos := by decide
  procPos := by decide

/-- The grid of `CreateGrid` on the first process. -/
def firstGrid
    (space : GridSpaceMPI) (numDims : Nat) (size : IndexArray)
    (doubleBuffering : Bool) : GridMPI Int :=
  space.distribute 4 (space.gridSize numDims size) doubleBuffering
    (space.gridGlobalOffset numDims fun _ => 0) (fun _ _ => id) 0

theorem twoCubed_resolvesLocally :
    (firstGrid twoCubed 3 (IntegerArray.mk3 2 2 2) false).ResolvesLocally 3 ↔
      twoCubed.numDims = 3 ∧ false = false :=
  resolvesLocally_iff
    ((twoCubed.distribute_distributed 4 (twoCubed.gridSize 3 (IntegerArray.mk3 2 2 2))
      false (twoCubed.gridGlobalOffset 3 fun _ => 0) (fun _ _ => id)
      (by decide)).decomposed 0 (by decide))
    (by decide) (by decide) (by decide) rfl (GridMPI.create_hasBuffers _ _ _ _ _ _ _ _)

/-- Neither in two dimensions nor with two buffers do the functions agree. -/
theorem created_not_resolvesLocally :
    (splitPlane.createGrid 0 4 2 (IntegerArray.mk3 2 2 0) false (fun _ => 0)
        (fun _ => id) =
      some (firstGrid splitPlane 2 (IntegerArray.mk3 2 2 0) false) ∧
      ¬(firstGrid splitPlane 2 (IntegerArray.mk3 2 2 0) false).ResolvesLocally 2) ∧
    twoCubed.createGrid 0 4 3 (IntegerArray.mk3 2 2 2) true (fun _ => 0)
        (fun _ => id) =
      some (firstGrid twoCubed 3 (IntegerArray.mk3 2 2 2) true) ∧
      ¬(firstGrid twoCubed 3 (IntegerArray.mk3 2 2 2) true).ResolvesLocally 3 := by
  refine ⟨⟨GridSpaceMPI.createGrid_eq_distribute (by decide) 0 4 _ false _
      (fun _ _ => id), ?_⟩,
    GridSpaceMPI.createGrid_eq_distribute (by decide) 0 4 _ true _
      (fun _ _ => id), ?_⟩
  · intro resolved
    have corner : (firstGrid splitPlane 2 (IntegerArray.mk3 2 2 0) false).InLocal 2
        fun _ => 0 := by
      unfold GridMPI.InLocal
      decide
    obtain ⟨position, _, _, read, _⟩ := resolved.resolves _ corner
    have beyond : (firstGrid splitPlane 2 (IntegerArray.mk3 2 2 0) false).getAddr 2
        (fun _ => 0) = some (.halo .fw 2 0) := by
      decide
    rw [beyond] at read
    simp at read
  · intro resolved
    have corner : (firstGrid twoCubed 3 (IntegerArray.mk3 2 2 2) true).InLocal 3
        fun _ => 0 := by
      unfold GridMPI.InLocal
      decide
    obtain ⟨position, _, _, _, noHalo, _⟩ := resolved.resolves _ corner
    have written : (firstGrid twoCubed 3 (IntegerArray.mk3 2 2 2) true).getAddrNoHalo 3
        (fun _ => 0) = .buffer 1 0 := by
      decide
    rw [written, ElementAddress.buffer.injEq] at noHalo
    exact absurd noHalo.1 (by decide)

end Physis.Runtime
