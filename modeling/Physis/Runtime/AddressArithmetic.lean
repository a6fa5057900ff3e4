import Physis.Library.FallibleMaps
import Physis.Library.MachineIntegers
import Physis.Runtime.HaloAddressing
import Physis.Runtime.SubgridBytes

/-!
# Address arithmetic

`GetAddress` computes positions and byte offsets in `PSIndex`, a 32-bit type,
and multiplies by an element size that is an `int`; the subgrid copies use
`size_t`.  Here each operation fails where its type does not represent the
result.  The copies never fail, and `GetAddress` does from 2 GiB on.
-/

namespace Physis.Runtime

open Physis.Library
open Physis.Library.MachineIntegers
open Physis.Library.RowMajor

variable {α : Type}

namespace Arithmetic

/-! ## The operations -/

/-- An operation on `PSIndex` and `int` -/
abbrev psIndex (value : Int) : Option Int :=
  signed 32 value

/-- An operation on `size_t` -/
abbrev sizeT (value : Int) : Option Int :=
  unsigned 64 value

/-- `GridCalcOffset3D` -/
def gridCalcOffset3D (index size : IndexArray) : Option Int := do
  let y ← psIndex (index 1 * size 0)
  let z ← psIndex (index 2 * size 0)
  let plane ← psIndex (z * size 1)
  let line ← psIndex (index 0 + y)
  psIndex (line + plane)

/-- `GridCalcOffset3D(indices, size) * elm_size()` -/
def elementOffset (elmSize : Nat) (index size : IndexArray) : Option Int := do
  let offset ← gridCalcOffset3D index size
  psIndex (offset * elmSize)

/-- `Grid::GetAddress`, from the start of the data -/
def gridGetAddress (elmSize : Nat) (size index : IndexArray) : Option Int :=
  elementOffset elmSize index size

/--
`GetAddress` moves coordinate `i` once for each later dimension.  An unsigned
sum converted back is exact if `PSIndex` represents it.
-/
def moveCoordinate (grid : GridMPI α) (indices : IndexArray) (i : Nat) : Option Int :=
  if grid.haloHasDiagonal then
    (List.range (psMaxDim - (i + 1))).foldlM
      (fun (x : Int) _ => psIndex (x + (grid.haloWidth .bw i : Nat))) (indices i)
  else some (indices i)

/-- The branch of `GetAddress` for coordinate `i` outside the local subgrid. -/
def haloAddress
    (grid : GridMPI α) (indices : IndexArray) (i : Nat) : Option GridAddress := do
  let moved ← moveCoordinate grid indices i
  if moved < 0 then
    let first ← psIndex (moved + (grid.haloWidth .bw i : Nat))
    let offset ← elementOffset grid.elmSize (Function.update indices i first)
      (grid.haloSize .bw i)
    some (.halo .bw i offset)
  else
    let first ← psIndex (moved - grid.localSize i)
    let offset ← elementOffset grid.elmSize (Function.update indices i first)
      (grid.haloSize .fw i)
    some (.halo .fw i offset)

/-- `indices -= offset` -/
def subtract (indices offset : IndexArray) : Option IndexArray := do
  let x ← psIndex (indices 0 - offset 0)
  let y ← psIndex (indices 1 - offset 1)
  let z ← psIndex (indices 2 - offset 2)
  some (IntegerArray.mk3 x y z)

/-- `GridMPI::GetAddress`, with its position in bytes -/
def getAddress (grid : GridMPI α) (indicesParam : IndexArray) : Option GridAddress :=
  if grid.remoteGridActive then do
    let rmg ← grid.remoteGrid
    let indices ← subtract indicesParam rmg.localOffset
    let offset ← elementOffset grid.elmSize indices rmg.localSize
    some (.remote offset)
  else do
    let indices ← subtract indicesParam grid.localOffset
    match (List.range grid.numDims).find? fun i =>
        decide (indices i < 0) || decide (grid.localSize i ≤ indices i) with
    | some i => haloAddress grid indices i
    | none => do
        let offset ← elementOffset grid.elmSize indices grid.localSize
        some (.data offset)

/-- `get1DOffset` -/
def get1DOffset (mdOffset size : IndexArray) (numDims : Nat) : Option Int := do
  let (offset1d, _) ← (List.range numDims).foldlM
    (fun (pair : Int × Int) i => do
      let coordinate ← sizeT (mdOffset i)
      let term ← sizeT (coordinate * pair.2)
      let offset1d ← sizeT (pair.1 + term)
      let extent ← sizeT (size i)
      let refOffset ← sizeT (pair.2 * extent)
      some (offset1d, refOffset)) (0, 1)
  some offset1d

/-- One pass of the loop that extends every collected offset along `i`. -/
def expandOffsets
    (subgridSize : IndexArray) (i : Nat) (offsets : List IndexArray) :
    Option (List IndexArray) := do
  let extended ← offsets.mapM fun curOffset =>
    (List.range (subgridSize i).toNat).mapM fun (j : Nat) =>
      (psIndex (curOffset i + j)).map (Function.update curOffset i)
  some extended.flatten

/-- The loop `for (int i = num_dims - 1; i >= 1; --i)`. -/
def collectOffsets (subgridSize : IndexArray) :
    Nat → List IndexArray → Option (List IndexArray)
  | 0, offsets => some offsets
  | i + 1, offsets => do
      let extended ← expandOffsets subgridSize (i + 1) offsets
      collectOffsets subgridSize i extended

/-- `accumulate` -/
def accumulate (array : IndexArray) (len : Nat) : Option Int :=
  (List.range len).foldlM (fun (v : Int) i => psIndex (v * array i)) 1

end Arithmetic

/-- The positions in bytes that a copy computes. -/
structure CopyOffsets where
  lineSize : Int
  /-- where the lines start in the grid -/
  lines : List Int
  /-- where the subgrid ends -/
  total : Int
deriving DecidableEq

/-- The positions of `CopyoutSubgrid` and `CopyinSubgrid` in bytes. -/
def copyOffsets
    (elmSize numDims : Nat) (gridSize subgridOffset subgridSize : IndexArray) :
    CopyOffsets where
  lineSize := subgridSize 0 * elmSize
  lines := (collectOffsets subgridSize (numDims - 1) [subgridOffset]).map fun offset =>
    get1DOffset offset gridSize numDims * elmSize
  total := IntegerArray.accumulate subgridSize numDims * elmSize

/-- The same in the types of the source. -/
def Arithmetic.copyOffsets
    (elmSize numDims : Nat) (gridSize subgridOffset subgridSize : IndexArray) :
    Option CopyOffsets := do
  let offsets ← Arithmetic.collectOffsets subgridSize (numDims - 1) [subgridOffset]
  let extent ← Arithmetic.sizeT (subgridSize 0)
  let lineSize ← Arithmetic.sizeT (extent * elmSize)
  let lines ← offsets.mapM fun offset => do
    let position ← Arithmetic.get1DOffset offset gridSize numDims
    Arithmetic.sizeT (position * elmSize)
  let elements ← Arithmetic.accumulate subgridSize numDims
  let size ← Arithmetic.sizeT elements
  let total ← Arithmetic.sizeT (size * elmSize)
  some ⟨lineSize, lines, total⟩

/-! ## Offsets that are exact -/

/-- The products and sums of a byte offset. -/
def offsetTerms (elmSize : Nat) (index size : IndexArray) : List Int :=
  [index 1 * size 0, index 2 * size 0, index 2 * size 0 * size 1,
    index 0 + index 1 * size 0, gridCalcOffset3D index size,
    gridCalcOffset3D index size * elmSize]

/-- `PSIndex` represents all products and sums of a byte offset. -/
def OffsetFits (elmSize : Nat) (index size : IndexArray) : Prop :=
  ∀ term ∈ offsetTerms elmSize index size, FitsSigned 32 term

section Offsets

variable {elmSize : Nat} {index lower upper size : IndexArray} {offset : Int}

theorem elementOffset_eq_some :
    Arithmetic.elementOffset elmSize index size = some offset ↔
      OffsetFits elmSize index size ∧ gridCalcOffset3D index size * elmSize = offset := by
  simp only [Arithmetic.elementOffset, Arithmetic.gridCalcOffset3D, Arithmetic.psIndex,
    Option.bind_eq_bind, Option.bind_assoc, signed_bind_eq_some, signed_eq_some,
    OffsetFits, offsetTerms, List.mem_cons, List.not_mem_nil, or_false,
    forall_eq_or_imp, forall_eq, gridCalcOffset3D]
  tauto

/-- Larger coordinates have larger products and sums. -/
theorem offsetTerms_mono
    (nonneg : ∀ i, 0 ≤ size i) (below : ∀ i < psMaxDim, lower i ≤ upper i) :
    List.Forall₂ (· ≤ ·) (offsetTerms elmSize lower size)
      (offsetTerms elmSize upper size) := by
  have x := below 0 (by decide)
  have y := mul_le_mul_of_nonneg_right (below 1 (by decide)) (nonneg 0)
  have z := mul_le_mul_of_nonneg_right (below 2 (by decide)) (nonneg 0)
  have plane := mul_le_mul_of_nonneg_right z (nonneg 1)
  have whole : gridCalcOffset3D lower size ≤ gridCalcOffset3D upper size := by
    simp only [gridCalcOffset3D]
    omega
  have bytes := mul_le_mul_of_nonneg_right whole (Int.natCast_nonneg elmSize)
  simp only [offsetTerms, List.forall₂_cons, List.Forall₂.nil, and_true]
  exact ⟨y, z, plane, by omega, whole, bytes⟩

/-- The least and the greatest index of a box keep to `PSIndex`. -/
structure Spans (elmSize : Nat) (size lower upper : IndexArray) : Prop where
  least : ∀ term ∈ offsetTerms elmSize lower size, -2 ^ 31 ≤ term
  greatest : ∀ term ∈ offsetTerms elmSize upper size, term < 2 ^ 31

/-- The indices of a box keep to `PSIndex` if the least and the greatest do. -/
theorem spans_iff
    (nonneg : ∀ i, 0 ≤ size i) (ordered : ∀ i, lower i ≤ upper i) :
    (∀ index, (∀ i, lower i ≤ index i ∧ index i ≤ upper i) →
      OffsetFits elmSize index size) ↔ Spans elmSize size lower upper := by
  constructor
  · intro fits
    constructor
    · intro term member
      exact (fits lower (fun i => ⟨le_rfl, ordered i⟩) term member).1
    · intro term member
      exact (fits upper (fun i => ⟨ordered i, le_rfl⟩) term member).2
  · rintro ⟨least, greatest⟩ index inside term member
    have fromLower := @offsetTerms_mono elmSize lower index size nonneg
      fun i _ => (inside i).1
    have toUpper := @offsetTerms_mono elmSize index upper size nonneg
      fun i _ => (inside i).2
    obtain ⟨number, isIn, rfl⟩ := List.getElem_of_mem member
    constructor
    · have smaller := fromLower.get (by rw [fromLower.length_eq]; exact isIn) isIn
      exact (least _ (List.getElem_mem _)).trans smaller
    · have larger := toUpper.get isIn (by rw [← toUpper.length_eq]; exact isIn)
      exact lt_of_le_of_lt larger (greatest _ (List.getElem_mem _))

/-- The last index of a box. -/
def lastIndex (numDims : Nat) (size : IndexArray) : IndexArray :=
  fun i => if i < numDims then size i - 1 else 0

theorem gridCalcOffset3D_lastIndex
    {numDims : Nat} (dims : 0 < numDims ∧ numDims ≤ psMaxDim) :
    gridCalcOffset3D (lastIndex numDims size) size = volume size numDims - 1 := by
  obtain ⟨some, most⟩ := dims
  simp only [psMaxDim] at most
  interval_cases numDims <;>
    simp [gridCalcOffset3D, lastIndex, volume_succ]
  all_goals ring

/-- A whole box keeps to `PSIndex` if its last element starts below 2 GiB. -/
theorem spans_box_iff
    {numDims : Nat} (dims : 0 < numDims ∧ numDims ≤ psMaxDim)
    (bytes : 0 < elmSize) (positive : ∀ i < numDims, 0 < size i)
    (nonneg : ∀ i, 0 ≤ size i) :
    Spans elmSize size (fun _ => 0) (lastIndex numDims size) ↔
      (volume size numDims - 1) * elmSize < 2 ^ 31 := by
  have last : ∀ i, 0 ≤ lastIndex numDims size i := by
    intro i
    rw [lastIndex]
    split
    · rename_i below
      have extent := positive i below
      omega
    · exact le_rfl
  have total := @gridCalcOffset3D_lastIndex size numDims dims
  constructor
  · rintro ⟨-, greatest⟩
    rw [← total]
    exact greatest _ (by simp [offsetTerms])
  · intro small
    constructor
    · simp [offsetTerms, gridCalcOffset3D]
    · rw [← total] at small
      have x := last 0
      have y := mul_nonneg (last 1) (nonneg 0)
      have z := mul_nonneg (last 2) (nonneg 0)
      have plane : lastIndex numDims size 2 * size 0 ≤
          lastIndex numDims size 2 * size 0 * size 1 := by
        rcases Nat.lt_or_ge 2 numDims with deep | flat
        · have extent := positive 1 (by omega)
          exact le_mul_of_one_le_right z (by omega)
        · simp [lastIndex, Nat.not_lt_of_ge flat]
      have whole : gridCalcOffset3D (lastIndex numDims size) size ≤
          gridCalcOffset3D (lastIndex numDims size) size * elmSize :=
        le_mul_of_one_le_right (by simp only [gridCalcOffset3D]; omega) (by omega)
      intro term member
      simp only [offsetTerms, List.mem_cons, List.not_mem_nil, or_false] at member
      simp only [gridCalcOffset3D] at small whole member
      omega

end Offsets

/-! ## The indices of a grid -/

/-- A grid whose buffers are allocated and whose halos have been exchanged. -/
structure Allocated (grid : GridMPI α) : Prop where
  dims : 0 < grid.numDims ∧ grid.numDims ≤ psMaxDim
  elmSize : 0 < grid.elmSize ∧ grid.elmSize < 2 ^ 31
  extent : ∀ i < grid.numDims, 0 < grid.localSize i
  unused : ∀ i, grid.numDims ≤ i → grid.localSize i = 0
  elements : volume grid.localSize grid.numDims < 2 ^ 31
  /-- `PSIndex` represents the extents with the halos. -/
  extended : ∀ i < grid.numDims,
    grid.localSize i + (grid.haloWidth .fw i : Nat) + (grid.haloWidth .bw i : Nat) <
      2 ^ 31
  recorded : ∀ dir, ∀ i < grid.numDims, ∀ j, grid.haloSize dir i j =
    if 0 < grid.haloWidth dir i ∧ j < grid.numDims then
      grid.haloExtent i (grid.haloWidth dir i) grid.haloHasDiagonal j
    else 0
  remote : ∀ remote, grid.remoteGrid = some remote →
    (∀ i < grid.numDims, 0 < remote.localSize i ∧ remote.localSize i < 2 ^ 31) ∧
      ∀ i, grid.numDims ≤ i → remote.localSize i = 0

namespace GridMPI

variable (grid : GridMPI α)

/-- The least point of a halo. -/
def haloLeast (i : Nat) (dir : Dir) : IndexArray := fun j =>
  if j = i then
    match dir with
    | .bw => -(grid.haloWidth .bw i : Int)
    | .fw => grid.localSize i
  else if i < j ∧ j < grid.numDims ∧ grid.haloHasDiagonal = true then
    -(grid.haloWidth .bw j : Int)
  else 0

/-- The greatest point of a halo. -/
def haloGreatest (i : Nat) (dir : Dir) : IndexArray := fun j =>
  if j = i then
    match dir with
    | .bw => -1
    | .fw => grid.localSize i + (grid.haloWidth .fw i : Nat) - 1
  else if i < j ∧ j < grid.numDims ∧ grid.haloHasDiagonal = true then
    grid.localSize j + (grid.haloWidth .fw j : Nat) - 1
  else if j < grid.numDims then grid.localSize j - 1
  else 0

/-- The point is in the halo; with diagonals the later coordinates may be outside too. -/
def InHalo (i : Nat) (dir : Dir) (point : IndexArray) : Prop :=
  ∀ j, grid.haloLeast i dir j ≤ point j ∧ point j ≤ grid.haloGreatest i dir j

/-- The index is one of the local subgrid, or of the remote grid in its place. -/
def InOwn (index : IndexArray) : Prop :=
  if grid.remoteGridActive then
    ∃ remote, grid.remoteGrid = some remote ∧
      InBox grid.numDims remote.localSize (fun i => index i - remote.localOffset i) ∧
        ∀ i, grid.numDims ≤ i → index i = remote.localOffset i
  else
    InBox grid.numDims grid.localSize (grid.localPoint index) ∧
      ∀ i, grid.numDims ≤ i → index i = grid.localOffset i

/-- The index is one of the local subgrid or of its halos. -/
def Addressable (index : IndexArray) : Prop :=
  grid.InOwn index ∨ grid.remoteGridActive = false ∧
    ∃ i < grid.numDims, ∃ dir, 0 < grid.haloWidth dir i ∧
      grid.InHalo i dir (grid.localPoint index)

/-- How far `GetAddress` moves the first coordinate outside, before it compares it. -/
def haloShift (i : Nat) : Nat :=
  if grid.haloHasDiagonal then (psMaxDim - (i + 1)) * grid.haloWidth .bw i else 0

/-- The halo `GetAddress` takes a point of a halo to be in. -/
def resolvedDir (i : Nat) : Dir → Dir
  | .bw => if grid.haloHasDiagonal = false ∨ psMaxDim ≤ i + 1 then .bw else .fw
  | .fw => .fw

/-- What `GetAddress` adds to the first coordinate outside. -/
def haloMove (i : Nat) (dir : Dir) : Int :=
  grid.haloShift i +
    match grid.resolvedDir i dir with
    | .bw => (grid.haloWidth .bw i : Int)
    | .fw => -grid.localSize i

/-- The coordinates `GetAddress` computes for a point of a halo. -/
def resolved (i : Nat) (dir : Dir) (point : IndexArray) : IndexArray :=
  Function.update point i (point i + grid.haloMove i dir)

/--
The addresses of a halo keep to `PSIndex`: the last element of a halo without
diagonals starts below 2 GiB; with diagonals it is the least and the greatest
point, as `GetAddress` moves them.
-/
def HaloSpans (i : Nat) (dir : Dir) : Prop :=
  if grid.haloHasDiagonal then
    grid.haloGreatest i dir i + grid.haloShift i < 2 ^ 31 ∧
      Spans grid.elmSize (grid.haloSize (grid.resolvedDir i dir) i)
        (grid.resolved i dir (grid.haloLeast i dir))
        (grid.resolved i dir (grid.haloGreatest i dir))
  else (volume (grid.haloSize dir i) grid.numDims - 1) * grid.elmSize < 2 ^ 31

/-- The last elements of the buffers that `GetAddress` uses start below 2 GiB. -/
structure SpansPSIndex : Prop where
  data : grid.remoteGridActive = false →
    (volume grid.localSize grid.numDims - 1) * grid.elmSize < 2 ^ 31
  remote : grid.remoteGridActive = true → ∀ remote, grid.remoteGrid = some remote →
    (volume remote.localSize grid.numDims - 1) * grid.elmSize < 2 ^ 31
  halo : grid.remoteGridActive = false → ∀ i < grid.numDims, ∀ dir,
    0 < grid.haloWidth dir i → grid.HaloSpans i dir

end GridMPI

/-- The address with its position in bytes. -/
def GridAddress.bytes (elmSize : Nat) : GridAddress → GridAddress
  | .remote position => .remote (position * elmSize)
  | .halo dir dim position => .halo dir dim (position * elmSize)
  | .data position => .data (position * elmSize)

/-! ## Where `GetAddress` finds an index -/

section Halo

variable {grid : GridMPI α} {point : IndexArray} {i : Nat} {dir : Dir}

theorem Allocated.extent_lt
    (allocated : Allocated grid) (below : i < grid.numDims) :
    grid.localSize i < 2 ^ 31 := by
  have sum := allocated.extended i below
  omega

theorem Allocated.haloSize_nonneg
    (allocated : Allocated grid) (dir : Dir) (below : i < grid.numDims) (j : Nat) :
    0 ≤ grid.haloSize dir i j := by
  rw [allocated.recorded dir i below]
  split
  · rename_i inside
    have extent := allocated.extent j inside.2
    simp only [GridMPI.haloExtent]
    split
    · exact Int.natCast_nonneg _
    · split <;> omega
  · exact le_rfl

/-- A point of a halo is outside in the halo's dimension, and inside before it. -/
theorem InHalo.bounds
    (allocated : Allocated grid) (below : i < grid.numDims)
    (inHalo : grid.InHalo i dir point) :
    -(grid.haloWidth .bw i : Int) ≤ point i ∧
      point i < grid.localSize i + (grid.haloWidth .fw i : Nat) ∧
        (dir = .bw → point i < 0) ∧ (dir = .fw → grid.localSize i ≤ point i) ∧
          ∀ j < i, 0 ≤ point j ∧ point j < grid.localSize j := by
  have extent := allocated.extent i below
  have own := inHalo i
  simp only [GridMPI.haloLeast, GridMPI.haloGreatest, if_true] at own
  refine ⟨?_, ?_, ?_, ?_, ?_⟩
  · cases dir <;> simp only at own <;> omega
  · cases dir <;> simp only at own <;> omega
  · rintro rfl
    simp only at own
    omega
  · rintro rfl
    exact own.1
  · intro j before
    have other := inHalo j
    simp only [GridMPI.haloLeast, GridMPI.haloGreatest, if_neg (show j ≠ i by omega),
      if_neg (show ¬(i < j ∧ j < grid.numDims ∧ grid.haloHasDiagonal = true) by omega),
      if_pos (show j < grid.numDims by omega)] at other
    omega

theorem InHalo.fits
    (allocated : Allocated grid) (below : i < grid.numDims)
    (inHalo : grid.InHalo i dir point) (j : Nat) :
    FitsSigned 32 (point j) := by
  rw [FitsSigned]
  have here := inHalo j
  have extended := allocated.extended i below
  have extent := allocated.extent i below
  simp only [GridMPI.haloLeast, GridMPI.haloGreatest] at here
  split at here
  · cases dir <;> simp only at here <;> omega
  · split at here
    · rename_i later
      have laterExtended := allocated.extended j later.2.1
      have laterExtent := allocated.extent j later.2.1
      omega
    · split at here
      · rename_i inside
        have less := allocated.extent_lt inside
        omega
      · omega

/-- Adding a width several times is exact if the sum is. -/
theorem foldlM_add_eq_some
    {first : Int} (fits : FitsSigned 32 first) (width count : Nat) {last : Int} :
    (List.range count).foldlM
        (fun (x : Int) _ => Arithmetic.psIndex (x + (width : Int))) first = some last ↔
      first + (count * width : Nat) < 2 ^ 31 ∧ first + (count * width : Nat) = last := by
  rw [FitsSigned] at fits
  induction count generalizing last with
  | zero =>
      simp only [List.range_zero, List.foldlM_nil, Nat.zero_mul, Nat.cast_zero, add_zero,
        Option.pure_def, Option.some_inj]
      constructor
      · intro same
        exact ⟨fits.2, same⟩
      · rintro ⟨-, same⟩
        exact same
  | succ count induction =>
      rw [List.range_succ, List.foldlM_append]
      have grown : (0 : Int) ≤ (count * width : Nat) := Int.natCast_nonneg _
      have more : ((count + 1) * width : Nat) = count * width + width := by ring
      norm_num at fits
      rw [more]
      simp only [List.foldlM_cons, List.foldlM_nil, bind_pure, Option.bind_eq_bind,
        Option.bind_eq_some_iff, induction, signed_eq_some, FitsSigned]
      constructor
      · rintro ⟨before, ⟨-, rfl⟩, ⟨-, upper⟩, rfl⟩
        norm_num at upper
        push_cast at upper ⊢
        constructor <;> linarith
      · rintro ⟨small, rfl⟩
        push_cast at small grown
        refine ⟨_, ⟨?_, rfl⟩, ⟨?_, ?_⟩, ?_⟩ <;> push_cast
        · linarith
        · linarith
        · linarith
        · ring

theorem moved_eq_some
    (fits : FitsSigned 32 (point i)) {moved : Int} :
    Arithmetic.moveCoordinate grid point i = some moved ↔
      point i + grid.haloShift i < 2 ^ 31 ∧ point i + grid.haloShift i = moved := by
  rw [Arithmetic.moveCoordinate, GridMPI.haloShift]
  split
  · exact foldlM_add_eq_some fits _ _
  · rw [FitsSigned] at fits
    simp only [Nat.cast_zero, add_zero, Option.some_inj]
    constructor
    · intro same
      exact ⟨fits.2, same⟩
    · rintro ⟨-, same⟩
      exact same

/-- After the move a coordinate is negative only where the backward halo is used. -/
theorem moved_lt_iff
    (allocated : Allocated grid) (below : i < grid.numDims)
    (inHalo : grid.InHalo i dir point) :
    point i + grid.haloShift i < 0 ↔ grid.resolvedDir i dir = .bw := by
  obtain ⟨lower, -, backward, forward, -⟩ := InHalo.bounds allocated below inHalo
  have extent := allocated.extent i below
  have dims := allocated.dims.2
  cases dir with
  | fw =>
      have outside := forward rfl
      simp only [GridMPI.resolvedDir, reduceCtorEq, iff_false]
      omega
  | bw =>
      have outside := backward rfl
      simp only [GridMPI.resolvedDir, GridMPI.haloShift]
      cases diagonal : grid.haloHasDiagonal with
      | false => simp [outside]
      | true =>
          rcases Nat.lt_or_ge (i + 1) psMaxDim with early | last
          · have more : grid.haloWidth .bw i ≤ (psMaxDim - (i + 1)) * grid.haloWidth .bw i :=
              Nat.le_mul_of_pos_left _ (by omega)
            simp only [if_true, Bool.true_eq_false, Nat.not_le_of_gt early, or_self, if_false,
              reduceCtorEq, iff_false, not_lt]
            omega
          · simp [last, outside, Nat.sub_eq_zero_of_le last]

/-- Where `GetAddress` finds a point of a halo. -/
theorem haloAddress_eq_resolved
    (allocated : Allocated grid) (below : i < grid.numDims)
    (inHalo : grid.InHalo i dir point) :
    grid.haloAddress point i =
      .halo (grid.resolvedDir i dir) i (gridCalcOffset3D (grid.resolved i dir point)
        (grid.haloSize (grid.resolvedDir i dir) i)) := by
  have moved : (if grid.haloHasDiagonal = true then
      point i + ((psMaxDim - (i + 1)) * grid.haloWidth .bw i : Nat) else point i) =
        point i + grid.haloShift i := by
    rw [GridMPI.haloShift]
    split <;> simp
  have side := moved_lt_iff allocated below inHalo
  simp only [GridMPI.haloAddress, moved, GridMPI.resolved, GridMPI.haloMove, ← add_assoc]
  cases buffer : grid.resolvedDir i dir with
  | bw => rw [if_pos (side.mpr buffer)]
  | fw =>
      rw [if_neg fun negative => by simp [side.mp negative] at buffer]
      rfl

/-- A point of a halo has an exact address if the move and the offset are exact. -/
theorem arithmetic_haloAddress_eq_some
    (allocated : Allocated grid) (below : i < grid.numDims)
    (inHalo : grid.InHalo i dir point) {address : GridAddress} :
    Arithmetic.haloAddress grid point i = some address ↔
      point i + grid.haloShift i < 2 ^ 31 ∧
        OffsetFits grid.elmSize (grid.resolved i dir point)
            (grid.haloSize (grid.resolvedDir i dir) i) ∧
          (grid.haloAddress point i).bytes grid.elmSize = address := by
  obtain ⟨lower, upper, -⟩ := InHalo.bounds allocated below inHalo
  have extended := allocated.extended i below
  have extent := allocated.extent i below
  have side := moved_lt_iff allocated below inHalo
  rw [haloAddress_eq_resolved allocated below inHalo]
  simp only [Arithmetic.haloAddress, Option.bind_eq_bind, Option.bind_eq_some_iff,
    moved_eq_some (InHalo.fits allocated below inHalo i), and_assoc]
  simp only [exists_and_left, exists_eq_left']
  refine and_congr_right fun small => ?_
  simp only [GridMPI.resolved, GridMPI.haloMove, ← add_assoc, GridAddress.bytes]
  cases buffer : grid.resolvedDir i dir with
  | bw =>
      have negative := side.mpr buffer
      rw [if_pos negative, signed_bind_eq_some]
      simp only [Option.bind_eq_some_iff, elementOffset_eq_some, and_assoc, FitsSigned]
      simp only [exists_and_left, exists_eq_left', Option.some_inj]
      have fits : -2 ^ (32 - 1) ≤
            point i + grid.haloShift i + (grid.haloWidth .bw i : Int) ∧
          point i + grid.haloShift i + (grid.haloWidth .bw i : Int) < 2 ^ (32 - 1) := by
        constructor <;> norm_num <;> omega
      simp only [fits, true_and]
  | fw =>
      have positive : ¬(point i + grid.haloShift i < 0) :=
        fun negative => by simp [side.mp negative] at buffer
      rw [if_neg positive, signed_bind_eq_some]
      simp only [Option.bind_eq_some_iff, elementOffset_eq_some, and_assoc, FitsSigned]
      simp only [exists_and_left, exists_eq_left', Option.some_inj]
      have fits : -2 ^ (32 - 1) ≤ point i + grid.haloShift i - grid.localSize i ∧
          point i + grid.haloShift i - grid.localSize i < 2 ^ (32 - 1) := by
        constructor <;> norm_num <;> omega
      simp only [fits, true_and]
      simp only [sub_eq_add_neg]

end Halo

/-! ## Single elements -/

section Elements

variable {grid : GridMPI α} {index offset size : IndexArray}

theorem subtract_eq
    (fits : ∀ i < psMaxDim, FitsSigned 32 (index i - offset i))
    (unused : ∀ i, psMaxDim ≤ i → index i = offset i) :
    Arithmetic.subtract index offset = some fun i => index i - offset i := by
  simp only [Arithmetic.subtract, Arithmetic.psIndex,
    signed_of_fits (fits 0 (by decide)), signed_of_fits (fits 1 (by decide)),
    signed_of_fits (fits 2 (by decide)), Option.bind_eq_bind, Option.bind_some]
  congr 1
  funext i
  match i with
  | 0 => rfl
  | 1 => rfl
  | 2 => rfl
  | i + 3 => simp [IntegerArray.mk3, unused (i + 3) (by simp [psMaxDim])]

/-- The points of a box are those between zero and its last one. -/
theorem inBox_iff_le_lastIndex {numDims : Nat} {point : IndexArray} :
    (InBox numDims size point ∧ ∀ i, numDims ≤ i → point i = 0) ↔
      ∀ i, 0 ≤ point i ∧ point i ≤ lastIndex numDims size i := by
  constructor
  · rintro ⟨inside, beyond⟩ i
    rw [lastIndex]
    split
    · rename_i below
      have bounds := inside i below
      omega
    · rename_i above
      rw [beyond i (by omega)]
      exact ⟨le_rfl, le_rfl⟩
  · intro bounds
    constructor
    · intro i below
      have here := bounds i
      rw [lastIndex, if_pos below] at here
      omega
    · intro i above
      have here := bounds i
      rw [lastIndex, if_neg (by omega)] at here
      omega

theorem Allocated.localSize_nonneg (allocated : Allocated grid) (i : Nat) :
    0 ≤ grid.localSize i := by
  rcases Nat.lt_or_ge i grid.numDims with below | beyond
  · exact (allocated.extent i below).le
  · rw [allocated.unused i beyond]

/-- An element of the local subgrid. -/
theorem arithmetic_getAddress_own
    (allocated : Allocated grid) (inactive : grid.remoteGridActive = false)
    (own : grid.InOwn index) {address : GridAddress} :
    Arithmetic.getAddress grid index = some address ↔
      OffsetFits grid.elmSize (grid.localPoint index) grid.localSize ∧
        (grid.getAddress index).map (GridAddress.bytes grid.elmSize) = some address := by
  rw [GridMPI.InOwn, if_neg (by simp [inactive])] at own
  obtain ⟨inside, beyond⟩ := own
  have dims := allocated.dims.2
  have subtracted := @subtract_eq index grid.localOffset (fun i _ => by
      rcases Nat.lt_or_ge i grid.numDims with below | above
      · have bounds := inside i below
        have less := allocated.extent_lt below
        simp only [GridMPI.localPoint] at bounds
        constructor <;> norm_num <;> omega
      · rw [beyond i above, sub_self]
        decide) fun i above => beyond i (dims.trans above)
  have none : ((List.range grid.numDims).find? fun i =>
      decide (index i - grid.localOffset i < 0) ||
        decide (grid.localSize i ≤ index i - grid.localOffset i)) = none := by
    rw [List.find?_eq_none]
    intro i member
    have bounds := inside i (List.mem_range.mp member)
    simp only [GridMPI.localPoint] at bounds
    simp only [Bool.or_eq_true, decide_eq_true_eq]
    omega
  rw [Arithmetic.getAddress, GridMPI.getAddress, if_neg (by simp [inactive]),
    if_neg (by simp [inactive]), subtracted]
  simp only [Option.bind_eq_bind, Option.bind_some, none, Option.bind_eq_some_iff,
    elementOffset_eq_some, and_assoc, Option.map_some, Option.some_inj,
    exists_and_left, exists_eq_left', GridAddress.bytes]
  rfl

/-- An element of the remote grid. -/
theorem arithmetic_getAddress_remote
    (allocated : Allocated grid) (active : grid.remoteGridActive = true)
    {remote : RemoteGrid α} (attached : grid.remoteGrid = some remote)
    (inside : InBox grid.numDims remote.localSize
      (fun i => index i - remote.localOffset i))
    (beyond : ∀ i, grid.numDims ≤ i → index i = remote.localOffset i)
    {address : GridAddress} :
    Arithmetic.getAddress grid index = some address ↔
      OffsetFits grid.elmSize (fun i => index i - remote.localOffset i)
          remote.localSize ∧
        (grid.getAddress index).map (GridAddress.bytes grid.elmSize) = some address := by
  have dims := allocated.dims.2
  have subtracted := @subtract_eq index remote.localOffset (fun i _ => by
      rcases Nat.lt_or_ge i grid.numDims with below | above
      · have bounds := inside i below
        have less := ((allocated.remote remote attached).1 i below).2
        beta_reduce at bounds
        constructor <;> norm_num <;> omega
      · rw [beyond i above, sub_self]
        decide) fun i above => beyond i (dims.trans above)
  rw [Arithmetic.getAddress, GridMPI.getAddress, if_pos active, if_pos active, attached]
  simp only [Option.bind_eq_bind, Option.bind_some, subtracted, Option.bind_eq_some_iff,
    elementOffset_eq_some, and_assoc, Option.map_some, Option.some_inj,
    exists_and_left, exists_eq_left', GridAddress.bytes]

/-- An element of a halo. -/
theorem arithmetic_getAddress_halo
    (allocated : Allocated grid) (inactive : grid.remoteGridActive = false)
    {i : Nat} (below : i < grid.numDims) {dir : Dir}
    (inHalo : grid.InHalo i dir (grid.localPoint index)) {address : GridAddress} :
    Arithmetic.getAddress grid index = some address ↔
      (grid.localPoint index i + grid.haloShift i < 2 ^ 31 ∧
        OffsetFits grid.elmSize (grid.resolved i dir (grid.localPoint index))
          (grid.haloSize (grid.resolvedDir i dir) i)) ∧
        (grid.getAddress index).map (GridAddress.bytes grid.elmSize) = some address := by
  have dims := allocated.dims.2
  obtain ⟨-, -, backward, forward, before⟩ := InHalo.bounds allocated below inHalo
  have subtracted := @subtract_eq index grid.localOffset
    (fun j _ => InHalo.fits allocated below inHalo j) fun j above => by
      have here := inHalo j
      simp only [GridMPI.haloLeast, GridMPI.haloGreatest,
        if_neg (show j ≠ i by omega),
        if_neg (show ¬(i < j ∧ j < grid.numDims ∧ grid.haloHasDiagonal = true) by omega),
        if_neg (show ¬j < grid.numDims by omega), GridMPI.localPoint] at here
      omega
  have found : ((List.range grid.numDims).find? fun j =>
      decide (index j - grid.localOffset j < 0) ||
        decide (grid.localSize j ≤ index j - grid.localOffset j)) = some i := by
    simp only [List.find?_range_eq_some, Bool.or_eq_true, decide_eq_true_eq,
      List.mem_range, Bool.not_eq_true', Bool.or_eq_false_iff, decide_eq_false_iff_not,
      not_lt, not_le]
    refine ⟨?_, below, before⟩
    cases dir with
    | bw => exact Or.inl (backward rfl)
    | fw => exact Or.inr (forward rfl)
  rw [Arithmetic.getAddress, GridMPI.getAddress, if_neg (by simp [inactive]),
    if_neg (by simp [inactive]), subtracted]
  simp only [Option.bind_eq_bind, Option.bind_some, found, Option.map_some,
    Option.some_inj, and_assoc]
  exact arithmetic_haloAddress_eq_some allocated below inHalo

end Elements

/-! ## Whole buffers -/

section Buffers

variable {grid : GridMPI α} {index : IndexArray} {i : Nat} {dir : Dir}

/-- Two results are equal if the second one exists and is the first one's. -/
theorem eq_iff_of_eq_some {β : Type} {left right : Option β} {Condition : Prop}
    (isSome : right.isSome)
    (characterised : ∀ value, left = some value ↔ Condition ∧ right = some value) :
    left = right ↔ Condition := by
  obtain ⟨value, rfl⟩ := Option.isSome_iff_exists.mp isSome
  rw [characterised]
  simp

theorem getAddress_isSome (inactive : grid.remoteGridActive = false) :
    ((grid.getAddress index).map (GridAddress.bytes grid.elmSize)).isSome := by
  rw [GridMPI.getAddress, if_neg (by simp [inactive])]
  simp only
  split <;> rfl

/-- The local index of a point. -/
theorem localPoint_add (point : IndexArray) :
    grid.localPoint (fun j => point j + grid.localOffset j) = point := by
  funext j
  simp [GridMPI.localPoint]

theorem haloLeast_le_haloGreatest
    (allocated : Allocated grid)
    (received : 0 < grid.haloWidth dir i) (j : Nat) :
    grid.haloLeast i dir j ≤ grid.haloGreatest i dir j := by
  simp only [GridMPI.haloLeast, GridMPI.haloGreatest]
  split
  · cases dir <;> simp only <;> omega
  · split
    · rename_i later
      have extent := allocated.extent j later.2.1
      omega
    · split
      · rename_i inside
        have extent := allocated.extent j inside
        omega
      · exact le_rfl

/-- The coordinates computed for a halo are those between its two extreme points. -/
theorem resolved_bounds_iff {point : IndexArray} :
    grid.InHalo i dir point ↔
      ∀ j, grid.resolved i dir (grid.haloLeast i dir) j ≤
          grid.resolved i dir point j ∧
        grid.resolved i dir point j ≤
          grid.resolved i dir (grid.haloGreatest i dir) j := by
  refine forall_congr' fun j => ?_
  by_cases same : j = i
  · subst same
    simp [GridMPI.resolved]
  · simp [GridMPI.resolved, Function.update_of_ne same]

theorem resolved_inverse (coordinates : IndexArray) :
    grid.resolved i dir
        (Function.update coordinates i (coordinates i - grid.haloMove i dir)) =
      coordinates := by
  simp [GridMPI.resolved]

/-- Without diagonals the coordinates computed are those in the halo's box. -/
theorem resolved_straight
    (allocated : Allocated grid) (below : i < grid.numDims)
    (received : 0 < grid.haloWidth dir i) (straight : grid.haloHasDiagonal = false) :
    grid.resolvedDir i dir = dir ∧
      grid.resolved i dir (grid.haloLeast i dir) = (fun _ => 0) ∧
        grid.resolved i dir (grid.haloGreatest i dir) =
          lastIndex grid.numDims (grid.haloSize dir i) := by
  have same : grid.resolvedDir i dir = dir := by
    cases dir <;> simp [GridMPI.resolvedDir, straight]
  refine ⟨same, ?_, ?_⟩
  · funext j
    by_cases here : j = i
    · subst here
      simp only [GridMPI.resolved, Function.update_self, GridMPI.haloMove, same,
        GridMPI.haloShift, straight, GridMPI.haloLeast]
      cases dir <;> simp
    · simp [GridMPI.resolved, GridMPI.haloLeast, here, straight]
  · funext j
    rw [lastIndex, allocated.recorded dir i below]
    by_cases here : j = i
    · subst here
      simp only [GridMPI.resolved, Function.update_self, GridMPI.haloMove, same,
        GridMPI.haloShift, straight, GridMPI.haloGreatest, if_pos below,
        if_pos (show 0 < grid.haloWidth dir j ∧ j < grid.numDims from ⟨received, below⟩),
        GridMPI.haloExtent]
      cases dir <;> simp <;> omega
    · by_cases inside : j < grid.numDims
      · simp [GridMPI.resolved, GridMPI.haloGreatest, here, straight, inside, received,
          GridMPI.haloExtent]
      · simp [GridMPI.resolved, GridMPI.haloGreatest, here, straight, inside]

/-- In both kinds of halo the two extreme points decide. -/
theorem haloSpans_iff
    (allocated : Allocated grid) (below : i < grid.numDims)
    (received : 0 < grid.haloWidth dir i) :
    grid.HaloSpans i dir ↔
      grid.haloGreatest i dir i + grid.haloShift i < 2 ^ 31 ∧
        Spans grid.elmSize (grid.haloSize (grid.resolvedDir i dir) i)
          (grid.resolved i dir (grid.haloLeast i dir))
          (grid.resolved i dir (grid.haloGreatest i dir)) := by
  rw [GridMPI.HaloSpans]
  split
  · exact Iff.rfl
  · rename_i diagonal
    have straight : grid.haloHasDiagonal = false := by simpa using diagonal
    obtain ⟨same, least, greatest⟩ := resolved_straight allocated below received straight
    have extended := allocated.extended i below
    have extent := allocated.extent i below
    have small : grid.haloGreatest i dir i + grid.haloShift i < 2 ^ 31 := by
      simp only [GridMPI.haloGreatest, if_true, GridMPI.haloShift, straight]
      cases dir with
      | bw => simp
      | fw =>
          simp only [Bool.false_eq_true, if_false, Nat.cast_zero, add_zero]
          omega
    rw [least, greatest, same, spans_box_iff allocated.dims allocated.elmSize.1
      (fun j inside => ?_) (allocated.haloSize_nonneg dir below)]
    · exact (and_iff_right small).symm
    · rw [allocated.recorded dir i below, if_pos ⟨received, inside⟩]
      simp only [GridMPI.haloExtent, straight]
      split
      · exact_mod_cast received
      · simpa using allocated.extent j inside

/-- `GetAddress` computes the exact address of an index. -/
def GridMPI.ExactAt (grid : GridMPI α) (index : IndexArray) : Prop :=
  Arithmetic.getAddress grid index =
    (grid.getAddress index).map (GridAddress.bytes grid.elmSize)

/-- The offsets of a whole box fit if its last element starts below 2 GiB. -/
theorem offsetsFit_box_iff
    {numDims elmSize : Nat} {size : IndexArray}
    (dims : 0 < numDims ∧ numDims ≤ psMaxDim) (bytes : 0 < elmSize)
    (positive : ∀ i < numDims, 0 < size i) (unused : ∀ i, numDims ≤ i → size i = 0) :
    (∀ point, InBox numDims size point → (∀ i, numDims ≤ i → point i = 0) →
      OffsetFits elmSize point size) ↔
        (volume size numDims - 1) * elmSize < 2 ^ 31 := by
  have nonneg : ∀ i, 0 ≤ size i := by
    intro i
    rcases Nat.lt_or_ge i numDims with below | beyond
    · exact (positive i below).le
    · rw [unused i beyond]
  have ordered : ∀ i, 0 ≤ lastIndex numDims size i := by
    intro i
    rw [lastIndex]
    split
    · rename_i below
      have extent := positive i below
      omega
    · exact le_rfl
  rw [← spans_box_iff dims bytes positive nonneg, ← spans_iff nonneg ordered]
  refine forall_congr' fun point => ?_
  rw [← inBox_iff_le_lastIndex, and_imp]

theorem own_exact_iff (allocated : Allocated grid)
    (inactive : grid.remoteGridActive = false) :
    (∀ index, grid.InOwn index → grid.ExactAt index) ↔
      (volume grid.localSize grid.numDims - 1) * grid.elmSize < 2 ^ 31 := by
  rw [← offsetsFit_box_iff allocated.dims allocated.elmSize.1 allocated.extent
    allocated.unused]
  have each : ∀ index, grid.InOwn index →
      (grid.ExactAt index ↔
        OffsetFits grid.elmSize (grid.localPoint index) grid.localSize) :=
    fun index own => eq_iff_of_eq_some (getAddress_isSome inactive) fun _ =>
      arithmetic_getAddress_own allocated inactive own
  constructor
  · intro exact_ point inside beyond
    have own : grid.InOwn (fun j => point j + grid.localOffset j) := by
      rw [GridMPI.InOwn, if_neg (by simp [inactive]), localPoint_add]
      exact ⟨inside, fun j above => by rw [beyond j above, zero_add]⟩
    have fits := (each _ own).mp (exact_ _ own)
    rwa [localPoint_add] at fits
  · intro fits index own
    rw [each index own]
    rw [GridMPI.InOwn, if_neg (by simp [inactive])] at own
    exact fits _ own.1 fun j above => by
      rw [GridMPI.localPoint, own.2 j above, sub_self]

theorem remote_exact_iff (allocated : Allocated grid)
    (active : grid.remoteGridActive = true) :
    (∀ index, grid.InOwn index → grid.ExactAt index) ↔
      ∀ remote, grid.remoteGrid = some remote →
        (volume remote.localSize grid.numDims - 1) * grid.elmSize < 2 ^ 31 := by
  have each : ∀ remote, grid.remoteGrid = some remote → ∀ index,
      InBox grid.numDims remote.localSize (fun i => index i - remote.localOffset i) →
        (∀ i, grid.numDims ≤ i → index i = remote.localOffset i) →
          (grid.ExactAt index ↔ OffsetFits grid.elmSize
            (fun i => index i - remote.localOffset i) remote.localSize) :=
    fun remote attached index inside beyond =>
      eq_iff_of_eq_some (by simp [GridMPI.getAddress, active, attached]) fun _ =>
        arithmetic_getAddress_remote allocated active attached inside beyond
  constructor
  · intro exact_ remote attached
    obtain ⟨extents, unused⟩ := allocated.remote remote attached
    rw [← offsetsFit_box_iff allocated.dims allocated.elmSize.1
      (fun i below => (extents i below).1) unused]
    intro point inside beyond
    have shifted : (fun j => (point j + remote.localOffset j) - remote.localOffset j) =
        point := by
      funext j
      ring
    have fits := (each remote attached (fun j => point j + remote.localOffset j)
      (by rw [shifted]; exact inside)
      fun j above => by rw [beyond j above, zero_add]).mp (exact_ _ (by
        rw [GridMPI.InOwn, if_pos active]
        exact ⟨remote, attached, by rw [shifted]; exact inside,
          fun j above => by rw [beyond j above, zero_add]⟩))
    rwa [shifted] at fits
  · intro small index own
    rw [GridMPI.InOwn, if_pos active] at own
    obtain ⟨remote, attached, inside, beyond⟩ := own
    obtain ⟨extents, unused⟩ := allocated.remote remote attached
    rw [each remote attached index inside beyond]
    exact (offsetsFit_box_iff allocated.dims allocated.elmSize.1
      (fun i below => (extents i below).1) unused).mpr (small remote attached) _ inside
        fun j above => by rw [beyond j above, sub_self]

theorem halo_exact_iff
    (allocated : Allocated grid) (inactive : grid.remoteGridActive = false)
    (below : i < grid.numDims) (received : 0 < grid.haloWidth dir i) :
    (∀ index, grid.InHalo i dir (grid.localPoint index) → grid.ExactAt index) ↔
      grid.HaloSpans i dir := by
  have ordered := haloLeast_le_haloGreatest allocated received
  have resolvedOrdered : ∀ j, grid.resolved i dir (grid.haloLeast i dir) j ≤
      grid.resolved i dir (grid.haloGreatest i dir) j :=
    fun j => (resolved_bounds_iff.mp (fun k => ⟨ordered k, le_rfl⟩) j).1
  have each : ∀ index, grid.InHalo i dir (grid.localPoint index) →
      (grid.ExactAt index ↔ grid.localPoint index i + grid.haloShift i < 2 ^ 31 ∧
        OffsetFits grid.elmSize (grid.resolved i dir (grid.localPoint index))
          (grid.haloSize (grid.resolvedDir i dir) i)) :=
    fun index inHalo => eq_iff_of_eq_some (getAddress_isSome inactive) fun _ =>
      arithmetic_getAddress_halo allocated inactive below inHalo
  rw [haloSpans_iff allocated below received,
    ← spans_iff (allocated.haloSize_nonneg _ below) resolvedOrdered]
  constructor
  · intro exact_
    have points : ∀ point, grid.InHalo i dir point →
        point i + grid.haloShift i < 2 ^ 31 ∧
          OffsetFits grid.elmSize (grid.resolved i dir point)
            (grid.haloSize (grid.resolvedDir i dir) i) := by
      intro point inHalo
      have local_ := @localPoint_add _ grid point
      have fits := (each _ (by rw [local_]; exact inHalo)).mp
        (exact_ _ (by rw [local_]; exact inHalo))
      rwa [local_] at fits
    refine ⟨(points _ fun j => ⟨ordered j, le_rfl⟩).1, fun coordinates inside => ?_⟩
    have fits := (points (Function.update coordinates i
      (coordinates i - grid.haloMove i dir)) (resolved_bounds_iff.mpr (by
        rw [resolved_inverse]
        exact inside))).2
    rwa [resolved_inverse] at fits
  · rintro ⟨small, fits⟩ index inHalo
    rw [each index inHalo]
    refine ⟨?_, fits _ (resolved_bounds_iff.mp inHalo)⟩
    have here := (inHalo i).2
    omega

/-- `GetAddress` is exact everywhere if the buffers' last elements are near enough. -/
theorem exactAt_iff_spans (allocated : Allocated grid) :
    (∀ index, grid.Addressable index → grid.ExactAt index) ↔ grid.SpansPSIndex := by
  constructor
  · intro exact_
    refine ⟨?_, ?_, ?_⟩
    · intro inactive
      exact (own_exact_iff allocated inactive).mp fun index own =>
        exact_ index (Or.inl own)
    · intro active
      exact (remote_exact_iff allocated active).mp fun index own =>
        exact_ index (Or.inl own)
    · intro inactive i below dir received
      exact (halo_exact_iff allocated inactive below received).mp fun index inHalo =>
        exact_ index (Or.inr ⟨inactive, i, below, dir, received, inHalo⟩)
  · rintro ⟨data, remote, halo⟩ index (own | ⟨inactive, i, below, dir, received, inHalo⟩)
    · cases active : grid.remoteGridActive with
      | false => exact (own_exact_iff allocated active).mpr (data active) index own
      | true => exact (remote_exact_iff allocated active).mpr (remote active) index own
    · exact (halo_exact_iff allocated inactive below received).mpr
        (halo inactive i below dir received) index inHalo

end Buffers

/-! ## The copy routines -/

section Copies

variable {elmSize numDims : Nat} {gridSize subgridOffset subgridSize : IndexArray}

/-- The extents are `PSIndex` values, and so is the number of elements. -/
structure SmallGrid (numDims : Nat) (gridSize : IndexArray) : Prop where
  dims : 0 < numDims ∧ numDims ≤ psMaxDim
  extent : ∀ i < numDims, 0 < gridSize i ∧ gridSize i < 2 ^ 31
  elements : volume gridSize numDims < 2 ^ 31

theorem SmallGrid.volume_pos
    (small : SmallGrid numDims gridSize) {count : Nat} (below : count ≤ numDims) :
    0 < volume gridSize count :=
  Finset.prod_pos fun i member =>
    (small.extent i ((Finset.mem_range.mp member).trans_le below)).1

/-- Fewer dimensions have fewer elements. -/
theorem SmallGrid.volume_lt
    (small : SmallGrid numDims gridSize) {count : Nat} (below : count ≤ numDims) :
    volume gridSize count < 2 ^ 31 := by
  have grows : ∀ more, count ≤ more → more ≤ numDims →
      volume gridSize count ≤ volume gridSize more := by
    intro more atLeast
    induction more, atLeast using Nat.le_induction with
    | base => exact fun _ => le_rfl
    | succ more _ induction =>
        intro atMost
        have extent := (small.extent more (by omega)).1
        rw [volume_succ]
        exact (induction (by omega)).trans
          (le_mul_of_one_le_right (small.volume_pos (by omega)).le (by omega))
  have elements := small.elements
  have grown := grows numDims below le_rfl
  omega

/-- The start of a line is in the grid, or just behind one of its lines. -/
def LineStart (numDims : Nat) (gridSize offset : IndexArray) : Prop :=
  ∀ i < numDims, 0 ≤ offset i ∧ offset i ≤ gridSize i

theorem SmallGrid.linear_bounds
    (small : SmallGrid numDims gridSize) {offset : IndexArray}
    (start : LineStart numDims gridSize offset) {count : Nat} (below : count ≤ numDims) :
    0 ≤ linear gridSize offset count ∧
      linear gridSize offset count ≤ count * 2 ^ 31 := by
  induction count with
  | zero => simp
  | succ count induction =>
      obtain ⟨lower, upper⟩ := induction (by omega)
      obtain ⟨first, last⟩ := start count (by omega)
      have stride := small.volume_pos (by omega : count ≤ numDims)
      have next := small.volume_lt below
      rw [volume_succ, mul_comm] at next
      have term := mul_nonneg first stride.le
      have most := mul_le_mul_of_nonneg_right last stride.le
      rw [linear_succ]
      push_cast
      constructor <;> linarith

/-- `get1DOffset` is exact. -/
theorem SmallGrid.get1DOffset_eq
    (small : SmallGrid numDims gridSize) {offset : IndexArray}
    (start : LineStart numDims gridSize offset) :
    Arithmetic.get1DOffset offset gridSize numDims =
      some (get1DOffset offset gridSize numDims) := by
  have dims := small.dims.2
  simp only [psMaxDim] at dims
  have loop : ∀ count ≤ numDims, (List.range count).foldlM
      (fun (pair : Int × Int) i => do
        let coordinate ← Arithmetic.sizeT (offset i)
        let term ← Arithmetic.sizeT (coordinate * pair.2)
        let offset1d ← Arithmetic.sizeT (pair.1 + term)
        let extent ← Arithmetic.sizeT (gridSize i)
        let refOffset ← Arithmetic.sizeT (pair.2 * extent)
        some (offset1d, refOffset)) (0, 1) =
      some (linear gridSize offset count, volume gridSize count) := by
    intro count
    induction count with
    | zero => simp
    | succ count induction =>
        intro below
        obtain ⟨first, last⟩ := start count (by omega)
        have extent := (small.extent count (by omega)).2
        have stride := small.volume_pos (by omega : count ≤ numDims)
        have before := small.linear_bounds start (by omega : count ≤ numDims)
        have after := small.linear_bounds start below
        have next := small.volume_lt below
        have nextPos := small.volume_pos below
        rw [linear_succ] at after
        rw [volume_succ] at next nextPos
        have term := mul_nonneg first stride.le
        have fits : ∀ {value : Int}, 0 ≤ value → value ≤ 3 * 2 ^ 31 →
            Arithmetic.sizeT value = some value := by
          intro value lower upper
          exact unsigned_of_fits ⟨lower, lt_of_le_of_lt upper (by norm_num)⟩
        have few : ((count + 1 : Nat) : Int) * 2 ^ 31 ≤ 3 * 2 ^ 31 :=
          mul_le_mul_of_nonneg_right (by exact_mod_cast below.trans dims) (by norm_num)
        rw [List.range_succ, List.foldlM_append, induction (by omega)]
        simp only [List.foldlM_cons, List.foldlM_nil, Option.bind_eq_bind,
          Option.bind_some, bind_pure]
        rw [fits first (by omega), Option.bind_some, fits term (by linarith),
          Option.bind_some, fits after.1 (by linarith), Option.bind_some,
          fits (first.trans last) (by omega), Option.bind_some, fits nextPos.le (by omega),
          Option.bind_some, linear_succ, volume_succ]
  rw [Arithmetic.get1DOffset, loop numDims le_rfl, get1DOffset_eq_linear]
  rfl

/-- What holds of the offsets when dimensions up to some one are still to be extended. -/
structure Collected
    (numDims dims : Nat) (gridSize subgridOffset offset : IndexArray) : Prop where
  start : LineStart numDims gridSize offset
  same : ∀ i ≤ dims, offset i = subgridOffset i

theorem mem_expandOffsets {i : Nat} {offsets : List IndexArray} {offset : IndexArray} :
    offset ∈ expandOffsets subgridSize i offsets ↔
      ∃ curOffset ∈ offsets, ∃ j < (subgridSize i).toNat,
        Function.update curOffset i (curOffset i + (j : Nat)) = offset := by
  simp [expandOffsets]

/-- Extending keeps the offsets in the grid. -/
theorem collected_expandOffsets
    (box : Bytes.BoxInside numDims gridSize subgridOffset subgridSize) {dims : Nat}
    (below : dims + 1 < numDims) {offsets : List IndexArray}
    (collected : ∀ offset ∈ offsets,
      Collected numDims (dims + 1) gridSize subgridOffset offset) :
    ∀ offset ∈ expandOffsets subgridSize (dims + 1) offsets,
      Collected numDims dims gridSize subgridOffset offset := by
  intro offset member
  obtain ⟨curOffset, isIn, j, inside, rfl⟩ := mem_expandOffsets.mp member
  obtain ⟨start, same⟩ := collected curOffset isIn
  have fit := box.inside (dims + 1) below
  constructor
  · intro i less
    by_cases here : i = dims + 1
    · subst here
      rw [Function.update_self, same _ le_rfl]
      omega
    · rw [Function.update_of_ne here]
      exact start i less
  · intro i atMost
    rw [Function.update_of_ne (by omega)]
    exact same i (by omega)

/-- The offsets of the lines are exact, and in the grid. -/
theorem collectOffsets_eq
    (small : SmallGrid numDims gridSize)
    (box : Bytes.BoxInside numDims gridSize subgridOffset subgridSize)
    {dims : Nat} (below : dims < numDims) {offsets : List IndexArray}
    (collected : ∀ offset ∈ offsets,
      Collected numDims dims gridSize subgridOffset offset) :
    Arithmetic.collectOffsets subgridSize dims offsets =
        some (collectOffsets subgridSize dims offsets) ∧
      ∀ offset ∈ collectOffsets subgridSize dims offsets,
        LineStart numDims gridSize offset := by
  induction dims generalizing offsets with
  | zero =>
      exact ⟨rfl, fun offset member => (collected offset member).start⟩
  | succ dims induction =>
      have extended : Arithmetic.expandOffsets subgridSize (dims + 1) offsets =
          some (expandOffsets subgridSize (dims + 1) offsets) := by
        have each : offsets.mapM (fun curOffset =>
            (List.range (subgridSize (dims + 1)).toNat).mapM fun (j : Nat) =>
              (Arithmetic.psIndex (curOffset (dims + 1) + (j : Int))).map
                (Function.update curOffset (dims + 1))) =
            some (offsets.map fun curOffset =>
              (List.range (subgridSize (dims + 1)).toNat).map fun (j : Nat) =>
                Function.update curOffset (dims + 1)
                  (curOffset (dims + 1) + (j : Int))) := by
          apply FallibleMaps.mapM_eq_some_map
          intro curOffset member
          apply FallibleMaps.mapM_eq_some_map
          intro j inside
          have less := List.mem_range.mp inside
          have fit := box.inside (dims + 1) below
          have extent := (small.extent (dims + 1) below).2
          have here := (collected curOffset member).same (dims + 1) le_rfl
          rw [Arithmetic.psIndex, signed_of_fits]
          · rfl
          · constructor <;> norm_num <;> omega
        rw [Arithmetic.expandOffsets, each]
        rfl
      rw [Arithmetic.collectOffsets, extended, collectOffsets]
      exact induction (by omega) (collected_expandOffsets box below collected)

theorem accumulate_eq
    (small : SmallGrid numDims gridSize)
    (box : Bytes.BoxInside numDims gridSize subgridOffset subgridSize) :
    Arithmetic.accumulate subgridSize numDims =
        some (IntegerArray.accumulate subgridSize numDims) ∧
      0 ≤ volume subgridSize numDims ∧ volume subgridSize numDims < 2 ^ 31 := by
  have bounds : ∀ count ≤ numDims, 0 ≤ volume subgridSize count ∧
      volume subgridSize count < 2 ^ 31 := by
    intro count below
    have nonneg : ∀ i < count, 0 ≤ subgridSize i :=
      fun i less => box.nonneg i (less.trans_le below)
    refine ⟨volume_nonneg nonneg, lt_of_le_of_lt ?_ (small.volume_lt below)⟩
    apply Finset.prod_le_prod
    · exact fun i member => nonneg i (Finset.mem_range.mp member)
    · intro i member
      have fit := box.inside i ((Finset.mem_range.mp member).trans_le below)
      omega
  have loop : ∀ count ≤ numDims, (List.range count).foldlM
      (fun (v : Int) i => Arithmetic.psIndex (v * subgridSize i)) 1 =
        some (volume subgridSize count) := by
    intro count
    induction count with
    | zero => simp
    | succ count induction =>
        intro below
        have next := bounds (count + 1) below
        rw [List.range_succ, List.foldlM_append, induction (by omega)]
        simp only [List.foldlM_cons, List.foldlM_nil, Option.bind_eq_bind,
          Option.bind_some, bind_pure]
        rw [← volume_succ]
        exact signed_of_fits ⟨by norm_num; omega, next.2⟩
  refine ⟨?_, bounds numDims le_rfl⟩
  rw [Arithmetic.accumulate, loop numDims le_rfl, IntegerArray.accumulate_eq_volume]

/-- The copies compute exact positions. -/
theorem copyOffsets_eq
    (small : SmallGrid numDims gridSize) (bytes : elmSize < 2 ^ 31)
    (box : Bytes.BoxInside numDims gridSize subgridOffset subgridSize) :
    Arithmetic.copyOffsets elmSize numDims gridSize subgridOffset subgridSize =
      some (copyOffsets elmSize numDims gridSize subgridOffset subgridSize) := by
  have positive := small.dims.1
  have dims := small.dims.2
  simp only [psMaxDim] at dims
  have wide : ∀ {value : Int}, 0 ≤ value → value ≤ 3 * 2 ^ 31 →
      Arithmetic.sizeT value = some value ∧
        Arithmetic.sizeT (value * elmSize) = some (value * elmSize) := by
    intro value lower upper
    have size : (elmSize : Int) ≤ 2 ^ 31 := by
      exact_mod_cast bytes.le
    refine ⟨unsigned_of_fits ⟨lower, lt_of_le_of_lt upper (by norm_num)⟩,
      unsigned_of_fits ⟨by positivity, ?_⟩⟩
    calc value * (elmSize : Int) ≤ (3 * 2 ^ 31) * 2 ^ 31 :=
          mul_le_mul upper size (Int.natCast_nonneg _) (by norm_num)
      _ < 2 ^ 64 := by norm_num
  have first := box.nonneg 0 positive
  have fit := box.inside 0 positive
  have extent := (small.extent 0 positive).2
  have only : ∀ offset ∈ [subgridOffset],
      Collected numDims (numDims - 1) gridSize subgridOffset offset := by
    intro offset member
    rw [List.mem_singleton.mp member]
    refine ⟨fun i less => ?_, fun _ _ => rfl⟩
    have bounds := box.inside i less
    have nonneg := box.nonneg i less
    omega
  obtain ⟨collected, starts⟩ := collectOffsets_eq small box
    (show numDims - 1 < numDims by omega) only
  have lines : (collectOffsets subgridSize (numDims - 1) [subgridOffset]).mapM
      (fun offset => (Arithmetic.get1DOffset offset gridSize numDims).bind fun position =>
        Arithmetic.sizeT (position * elmSize)) =
      some ((collectOffsets subgridSize (numDims - 1) [subgridOffset]).map
        fun offset => get1DOffset offset gridSize numDims * elmSize) := by
    apply FallibleMaps.mapM_eq_some_map
    intro offset member
    have start := starts offset member
    have bounds := small.linear_bounds start le_rfl
    have few : (numDims : Int) * 2 ^ 31 ≤ 3 * 2 ^ 31 :=
      mul_le_mul_of_nonneg_right (by exact_mod_cast dims) (by norm_num)
    rw [small.get1DOffset_eq start, Option.bind_some, get1DOffset_eq_linear]
    exact (wide bounds.1 (bounds.2.trans few)).2
  obtain ⟨elements, total, less⟩ := accumulate_eq small box
  rw [← IntegerArray.accumulate_eq_volume] at total less
  have line := @wide (subgridSize 0) first (by omega)
  have whole := @wide (IntegerArray.accumulate subgridSize numDims) total (by omega)
  simp only [Arithmetic.copyOffsets, collected, Option.bind_eq_bind, Option.bind_some,
    line.1, line.2, lines, elements, whole.1, whole.2]
  rfl

/-- `CopyoutSubgrid` copies its lines from these positions. -/
theorem copyoutLines_eq_foldl
    {β : Type} (grid : Int → β) (offsets : List IndexArray) (pointer : Int)
    (subgrid : Int → β) :
    Bytes.copyoutLines elmSize numDims grid gridSize subgridSize offsets pointer subgrid =
      (offsets.map fun offset => get1DOffset offset gridSize numDims * elmSize).foldl
        (fun state line =>
          (memcpy state.1 state.2 grid line ((subgridSize 0).toNat * elmSize),
            state.2 + ((subgridSize 0).toNat * elmSize : Nat))) (subgrid, pointer) := by
  induction offsets generalizing pointer subgrid with
  | nil => rfl
  | cons offset rest induction =>
      rw [Bytes.copyoutLines, induction]
      rfl

/-- `CopyinSubgrid` copies its lines to these positions. -/
theorem copyinLines_eq_foldl
    {β : Type} (subgrid : Int → β) (offsets : List IndexArray) (pointer : Int)
    (grid : Int → β) :
    Bytes.copyinLines elmSize numDims gridSize subgrid subgridSize offsets pointer grid =
      (offsets.map fun offset => get1DOffset offset gridSize numDims * elmSize).foldl
        (fun state line =>
          (memcpy state.1 line subgrid state.2 ((subgridSize 0).toNat * elmSize),
            state.2 + ((subgridSize 0).toNat * elmSize : Nat))) (grid, pointer) := by
  induction offsets generalizing pointer grid with
  | nil => rfl
  | cons offset rest induction =>
      rw [Bytes.copyinLines, induction]
      rfl

end Copies

theorem Allocated.small {grid : GridMPI α} (allocated : Allocated grid) :
    SmallGrid grid.numDims grid.localSize :=
  ⟨allocated.dims, fun i below => ⟨allocated.extent i below, allocated.extent_lt below⟩,
    allocated.elements⟩

/-- All positions computed for a distributed grid are exact. -/
structure ExactArithmetic (grid : GridMPI α) : Prop where
  element : ∀ index, grid.Addressable index → grid.ExactAt index
  copies : ∀ subgridOffset subgridSize,
    Bytes.BoxInside grid.numDims grid.localSize subgridOffset subgridSize →
      Arithmetic.copyOffsets grid.elmSize grid.numDims grid.localSize subgridOffset
          subgridSize =
        some (copyOffsets grid.elmSize grid.numDims grid.localSize subgridOffset
          subgridSize)

/-- All positions computed for a grid of one process are exact. -/
def ExactGetAddress (elmSize numDims : Nat) (size : IndexArray) : Prop :=
  ∀ index, InBox numDims size index → (∀ i, numDims ≤ i → index i = 0) →
    Arithmetic.gridGetAddress elmSize size index =
      some (gridCalcOffset3D index size * elmSize)

/--
The positions computed are exact if and only if the last elements of the buffers
that `GetAddress` uses start below 2 GiB.
-/
theorem address_arithmetic_exact_iff
    {grid : GridMPI α} (allocated : Allocated grid)
    {elmSize numDims : Nat} {size : IndexArray}
    (small : SmallGrid numDims size) (unused : ∀ i, numDims ≤ i → size i = 0)
    (bytes : 0 < elmSize) :
    (ExactArithmetic grid ↔ grid.SpansPSIndex) ∧
      (ExactGetAddress elmSize numDims size ↔
        (volume size numDims - 1) * elmSize < 2 ^ 31) := by
  constructor
  · rw [← exactAt_iff_spans allocated]
    constructor
    · exact ExactArithmetic.element
    · intro element
      exact ⟨element, fun _ _ box => copyOffsets_eq allocated.small allocated.elmSize.2 box⟩
  · rw [← offsetsFit_box_iff small.dims bytes (fun i below => (small.extent i below).1)
      unused]
    simp only [ExactGetAddress, Arithmetic.gridGetAddress, elementOffset_eq_some, and_true]

/-- Numbers of eight bytes in one dimension. -/
def lineOfDoubles (extent : Int) : GridMPI Int :=
  GridMPI.create 8 1 (IntegerArray.mk3 extent 0 0) false (fun _ => 0) (fun _ => 0)
    (IntegerArray.mk3 extent 0 0) fun _ _ => 0

theorem lineOfDoubles_allocated
    {extent : Int} (positive : 0 < extent) (small : extent < 2 ^ 31) :
    Allocated (lineOfDoubles extent) where
  dims := by simp [lineOfDoubles, GridMPI.create, psMaxDim]
  elmSize := by simp [lineOfDoubles, GridMPI.create]
  extent i below := by
    obtain rfl : i = 0 := by
      simp only [lineOfDoubles, GridMPI.create] at below
      omega
    exact positive
  unused i above := by
    simp only [lineOfDoubles, GridMPI.create] at above ⊢
    rcases i with _ | _ | _ | i
    · omega
    · rfl
    · rfl
    · rfl
  elements := by simpa [lineOfDoubles, GridMPI.create, volume, IntegerArray.mk3] using small
  extended i below := by
    obtain rfl : i = 0 := by
      simp only [lineOfDoubles, GridMPI.create] at below
      omega
    simpa [lineOfDoubles, GridMPI.create, IntegerArray.mk3] using small
  recorded dir i below j := by simp [lineOfDoubles, GridMPI.create]
  remote remote attached := by cases attached

/-- Three by two numbers of eight bytes, with no halos yet. -/
def smallPlane : GridMPI Int :=
  GridMPI.create 8 2 (IntegerArray.mk3 3 2 0) false (fun _ => 0) (fun _ => 0)
    (IntegerArray.mk3 3 2 0) fun _ _ => 0

/-- Halos in both dimensions: two columns ahead, one behind and one row behind. -/
def smallPlaneWidth (dir : Dir) (dim : Nat) : Nat :=
  match dir, dim with
  | .fw, 0 => 2
  | .bw, 0 | .bw, 1 => 1
  | _, _ => 0

/-- The plane after it received these halos, with corners. -/
def planeWithHalos : GridMPI Int :=
  { smallPlane with
    haloHasDiagonal := true
    haloWidth := smallPlaneWidth
    haloSize := fun dir i j =>
      if 0 < smallPlaneWidth dir i ∧ j < 2 then
        { smallPlane with haloWidth := smallPlaneWidth }.haloExtent i (smallPlaneWidth dir i)
          true j
      else 0 }

theorem planeWithHalos_allocated : Allocated planeWithHalos where
  dims := by decide
  elmSize := by decide
  extent := by
    change ∀ i < 2, _
    decide
  unused i above := by
    change 2 ≤ i at above
    match i with
    | 0 | 1 => omega
    | 2 => rfl
    | i + 3 => rfl
  elements := by decide
  extended := by
    change ∀ i < 2, _
    decide
  recorded _ _ _ _ := rfl
  remote remote attached := by cases attached

theorem planeWithHalos_exact :
    (ExactArithmetic planeWithHalos ↔ planeWithHalos.SpansPSIndex) ∧
      (ExactGetAddress 4 2 (IntegerArray.mk3 3 5 0) ↔
        (volume (IntegerArray.mk3 3 5 0) 2 - 1) * (4 : Nat) < 2 ^ 31) :=
  address_arithmetic_exact_iff planeWithHalos_allocated
    ⟨by decide, fun i below => by
      match i, below with
      | 0, _ => decide
      | 1, _ => decide, by simp [volume, IntegerArray.mk3, Finset.prod_range_succ]⟩
    (fun i above => by
      match i with
      | 0 => omega
      | 1 => omega
      | 2 => rfl
      | i + 3 => rfl)
    (by decide)

/-- The element at 2 GiB of a buffer of 4 GiB. -/
theorem lineOfDoubles_wraps :
    Allocated (lineOfDoubles (2 ^ 29)) ∧
      (lineOfDoubles (2 ^ 29)).Addressable (IntegerArray.mk3 (2 ^ 28) 0 0) ∧
        Arithmetic.getAddress (lineOfDoubles (2 ^ 29)) (IntegerArray.mk3 (2 ^ 28) 0 0) =
          none ∧
          ¬ExactArithmetic (lineOfDoubles (2 ^ 29)) := by
  have addressable : (lineOfDoubles (2 ^ 29)).Addressable
      (IntegerArray.mk3 (2 ^ 28) 0 0) := by
    refine Or.inl ?_
    rw [GridMPI.InOwn, if_neg (by decide)]
    constructor
    · intro i below
      obtain rfl : i = 0 := by
        simp only [lineOfDoubles, GridMPI.create] at below
        omega
      decide
    · intro i above
      match i with
      | 0 => simp [lineOfDoubles, GridMPI.create] at above
      | 1 => rfl
      | 2 => rfl
      | i + 3 => rfl
  have wraps : Arithmetic.getAddress (lineOfDoubles (2 ^ 29))
      (IntegerArray.mk3 (2 ^ 28) 0 0) = none := by
    decide
  refine ⟨lineOfDoubles_allocated (by decide) (by decide), addressable, wraps, ?_⟩
  intro exact_
  have same := exact_.element _ addressable
  rw [GridMPI.ExactAt, wraps] at same
  exact absurd same (by decide)

end Physis.Runtime
