import Physis.Runtime.ArrayOrder

/-!
# Domains and the loops over them

A stencil is mapped over a domain.  Every process clips the domain against its
own partition of the grid space and runs the generated loops over what is left.
The CPU runtime and the CUDA runtime recognise an empty local domain by
different comparisons.
-/

namespace Physis.Runtime

open Physis.Library
open Physis.Library.RowMajor

/-- `__PSDomain`; a domain has zeros beyond its own dimensions. -/
structure PSDomain where
  min : IndexArray
  max : IndexArray
  localMin : IndexArray
  localMax : IndexArray

/-- The first `dims` elements; the initializer leaves the others zero. -/
def IntegerArray.first (dims : Nat) (array : IndexArray) : IndexArray :=
  fun i => if i < dims then array i else 0

namespace GridSpaceMPI

variable (space : GridSpaceMPI) (rank : Nat)

/-- `local_min` before the emptiness test -/
def clippedMin (min : IndexArray) : IndexArray :=
  IntegerArray.setNoLessThan (space.myOffset rank) min

/-- `local_max` before the emptiness test -/
def clippedMax (max : IndexArray) : IndexArray :=
  IntegerArray.setNoMoreThan
    (fun i => space.myOffset rank i + space.mySize rank i) max

/-- The local bounds, set to zero where the test finds no local region. -/
def localBounds (noRegion : Bool) (dom : PSDomain) : IndexArray × IndexArray :=
  if noRegion then (fun _ => 0, fun _ => 0)
  else (space.clippedMin rank dom.min, space.clippedMax rank dom.max)

/-- `local_min >= local_max`, the test of the CPU runtime -/
def noRegion (dom : PSDomain) : Bool :=
  IntegerArray.greaterEqual (space.clippedMin rank dom.min)
    (space.clippedMax rank dom.max)

/-- `!local_min.LessThan(local_max, num_dims)`, the test of the CUDA runtime -/
def noRegionCUDA (dom : PSDomain) : Bool :=
  !IntegerArray.lessThan (space.clippedMin rank dom.min)
    (space.clippedMax rank dom.max) space.numDims

/-- `__PSDomainSetLocalSize` with one of the tests -/
def setLocalBounds
    (test : GridSpaceMPI → Nat → PSDomain → Bool) (dom : PSDomain) : PSDomain :=
  let bounds := space.localBounds rank (test space rank dom) dom
  { dom with localMin := bounds.1, localMax := bounds.2 }

/-- `__PSDomainSetLocalSize` of the CPU runtime -/
def psDomainSetLocalSize (dom : PSDomain) : PSDomain :=
  space.setLocalBounds rank noRegion dom

/-- `__PSDomainSetLocalSize` of the CUDA runtime -/
def psDomainSetLocalSizeCUDA (dom : PSDomain) : PSDomain :=
  space.setLocalBounds rank noRegionCUDA dom

/-- `PSDomain1DNew`, `PSDomain2DNew` and `PSDomain3DNew` with one of the tests -/
def psDomainNew
    (test : GridSpaceMPI → Nat → PSDomain → Bool) (dims : Nat)
    (min max : IndexArray) : PSDomain :=
  let dom : PSDomain :=
    { min := IntegerArray.first dims min
      max := IntegerArray.first dims max
      localMin := fun _ => 0
      localMax := fun _ => 0 }
  let bounds := space.localBounds rank (test space rank dom) dom
  { dom with
    localMin := IntegerArray.first dims bounds.1
    localMax := IntegerArray.first dims bounds.2 }

/-- `PSDomain1DNew` of both runtimes -/
def psDomain1DNew (minx maxx : Int) : PSDomain :=
  space.psDomainNew rank noRegion 1 (IntegerArray.mk3 minx 0 0)
    (IntegerArray.mk3 maxx 0 0)

/-- `PSDomain2DNew` of both runtimes -/
def psDomain2DNew (minx maxx miny maxy : Int) : PSDomain :=
  space.psDomainNew rank noRegion 2 (IntegerArray.mk3 minx miny 0)
    (IntegerArray.mk3 maxx maxy 0)

/-- `PSDomain3DNew` of the CPU runtime -/
def psDomain3DNew (minx maxx miny maxy minz maxz : Int) : PSDomain :=
  space.psDomainNew rank noRegion 3 (IntegerArray.mk3 minx miny minz)
    (IntegerArray.mk3 maxx maxy maxz)

/-- `PSDomain3DNew` of the CUDA runtime -/
def psDomain3DNewCUDA (minx maxx miny maxy minz maxz : Int) : PSDomain :=
  space.psDomainNew rank noRegionCUDA 3 (IntegerArray.mk3 minx miny minz)
    (IntegerArray.mk3 maxx maxy maxz)

end GridSpaceMPI

/-! ## The generated loops -/

/-- The value of a `PSIndex` converted to `unsigned int`. -/
def toUnsigned (x : Int) : Nat :=
  (x % 2 ^ 32).toNat

/-- The indices of `for (unsigned i = first; i < last; i++)`. -/
def unsignedLoop (first last : Int) : List Nat :=
  (List.range (toUnsigned last - toUnsigned first)).map fun step =>
    toUnsigned first + step

/-- The loops of `BuildRunKernelBody`, the last dimension outermost. -/
def PSDomain.runLoops (dom : PSDomain) : (dims : Nat) → IndexArray → List IndexArray
  | 0, index => [index]
  | dims + 1, index =>
      (unsignedLoop (dom.localMin dims) (dom.localMax dims)).flatMap
        fun (i : Nat) => dom.runLoops dims (Function.update index dims (i : Int))

/-- The points at which a run calls the kernel. -/
def PSDomain.visits (dom : PSDomain) (dims : Nat) : List IndexArray :=
  dom.runLoops dims fun _ => 0

/-- A `PSIndex`, a 32-bit integer -/
def IsPSIndex (x : Int) : Prop :=
  -2 ^ 31 ≤ x ∧ x < 2 ^ 31

instance (x : Int) : Decidable (IsPSIndex x) :=
  inferInstanceAs (Decidable (_ ∧ _))

theorem toUnsigned_of_nonneg
    {x : Int} (index : IsPSIndex x) (nonneg : 0 ≤ x) :
    (toUnsigned x : Int) = x := by
  obtain ⟨_, upper⟩ := index
  rw [toUnsigned, Int.emod_eq_of_lt nonneg (by omega), Int.toNat_of_nonneg nonneg]

/-- With bounds that are not negative the loop runs over the interval. -/
theorem mem_unsignedLoop
    {first last : Int} (firstIndex : IsPSIndex first) (lastIndex : IsPSIndex last)
    (firstNonneg : 0 ≤ first) (lastNonneg : 0 ≤ last) (i : Nat) :
    i ∈ unsignedLoop first last ↔ first ≤ i ∧ (i : Int) < last := by
  have firstEq := toUnsigned_of_nonneg firstIndex firstNonneg
  have lastEq := toUnsigned_of_nonneg lastIndex lastNonneg
  simp only [unsignedLoop, List.mem_map, List.mem_range]
  constructor
  · rintro ⟨step, inside, rfl⟩
    omega
  · rintro ⟨lower, upper⟩
    exact ⟨i - toUnsigned first, by omega, by omega⟩

theorem nodup_unsignedLoop (first last : Int) : (unsignedLoop first last).Nodup :=
  List.nodup_range.map fun left right (same : _ + left = _ + right) => by omega

namespace PSDomain

variable {dom : PSDomain}

theorem mem_runLoops (dims : Nat) (index cell : IndexArray) :
    cell ∈ dom.runLoops dims index ↔
      (∀ d < dims, ∃ i ∈ unsignedLoop (dom.localMin d) (dom.localMax d),
        cell d = (i : Int)) ∧ ∀ d, dims ≤ d → cell d = index d := by
  induction dims generalizing index with
  | zero =>
      simp only [runLoops, List.mem_singleton, Nat.not_lt_zero, false_implies,
        implies_true, Nat.zero_le, true_implies, true_and]
      exact funext_iff
  | succ dims induction =>
      simp only [runLoops, List.mem_flatMap, induction]
      constructor
      · rintro ⟨i, member, inner, beyond⟩
        constructor
        · intro d below
          rcases Nat.lt_or_ge d dims with less | same
          · exact inner d less
          · obtain rfl : d = dims := by omega
            have here := beyond d le_rfl
            rw [Function.update_self] at here
            exact ⟨i, member, here⟩
        · intro d above
          have there := beyond d (by omega)
          rwa [Function.update_of_ne (by omega)] at there
      · rintro ⟨inner, beyond⟩
        obtain ⟨i, member, here⟩ := inner dims (Nat.lt_succ_self dims)
        refine ⟨i, member, fun d less => inner d (by omega), ?_⟩
        intro d above
        rcases Nat.lt_or_ge dims d with more | same
        · rw [Function.update_of_ne (by omega)]
          exact beyond d more
        · obtain rfl : d = dims := by omega
          rw [Function.update_self]
          exact here

/-- The loops reach no point twice. -/
theorem nodup_runLoops (dims : Nat) (index : IndexArray) :
    (dom.runLoops dims index).Nodup := by
  induction dims generalizing index with
  | zero => exact List.nodup_singleton _
  | succ dims induction =>
      rw [runLoops, List.nodup_flatMap]
      refine ⟨fun _ _ => induction _, ?_⟩
      refine (nodup_unsignedLoop _ _).imp ?_
      intro left right different cell inLeft inRight
      have leftTop := ((mem_runLoops dims _ cell).mp inLeft).2 dims le_rfl
      have rightTop := ((mem_runLoops dims _ cell).mp inRight).2 dims le_rfl
      rw [Function.update_self] at leftTop rightTop
      exact different (by omega)

/-- Only the local bounds matter to the loops. -/
theorem runLoops_congr
    {other : PSDomain}
    (bounds : ∀ d, dom.localMin d = other.localMin d ∧
      dom.localMax d = other.localMax d)
    (dims : Nat) (index : IndexArray) :
    dom.runLoops dims index = other.runLoops dims index := by
  induction dims generalizing index with
  | zero => rfl
  | succ dims induction =>
      simp only [runLoops, (bounds dims).1, (bounds dims).2, induction]

/-- The points visited, when the local bounds are not negative. -/
theorem mem_visits
    {dims : Nat}
    (nonneg : ∀ d < dims, 0 ≤ dom.localMin d ∧ 0 ≤ dom.localMax d)
    (index : ∀ d < dims, IsPSIndex (dom.localMin d) ∧ IsPSIndex (dom.localMax d))
    (cell : IndexArray) :
    cell ∈ dom.visits dims ↔
      (∀ d < dims, dom.localMin d ≤ cell d ∧ cell d < dom.localMax d) ∧
        ∀ d, dims ≤ d → cell d = 0 := by
  rw [visits, mem_runLoops]
  apply and_congr_left'
  apply forall₂_congr
  intro d below
  obtain ⟨minNonneg, maxNonneg⟩ := nonneg d below
  obtain ⟨minIndex, maxIndex⟩ := index d below
  simp only [mem_unsignedLoop minIndex maxIndex minNonneg maxNonneg]
  constructor
  · rintro ⟨i, bounds, same⟩
    omega
  · intro bounds
    exact ⟨(cell d).toNat, by omega, by omega⟩

end PSDomain

/-! ## Partitions and owners -/

namespace GridSpaceMPI

variable {space : GridSpaceMPI} {rank : Nat}

/-- The cell lies in the rank's partition of the space. -/
def InPartition (space : GridSpaceMPI) (rank : Nat) (cell : IndexArray) : Prop :=
  ∀ i < space.numDims, space.myOffset rank i ≤ cell i ∧
    cell i < space.myOffset rank i + space.mySize rank i

/-- In a grid at the origin a rank owns the cells of its partition. -/
theorem owns_iff_inPartition
    {size globalOffset cell : IndexArray}
    (origin : ∀ i < space.numDims, globalOffset i = 0)
    (inside : InBox space.numDims size cell) :
    space.Owns rank size globalOffset cell ↔ space.InPartition rank cell := by
  apply forall₂_congr
  intro i below
  have bounds := inside i below
  have zero := origin i below
  rw [space.mem_local_iff below bounds.1 bounds.2]
  simp only [myOffset, mySize, if_pos below, offsets]
  omega

theorem InPartition.inside
    {cell : IndexArray} (member : space.InPartition rank cell) :
    InBox space.numDims space.globalSize cell := by
  intro i below
  have bounds := member i below
  simp only [myOffset, mySize, if_pos below] at bounds
  have first := space.offsets_nonneg below (space.procIndices rank i)
  have last := space.offsets_mono below (space.procIndices_lt rank below)
  rw [space.offsets_procSize below] at last
  have next : space.offsets i (space.procIndices rank i + 1) =
      space.offsets i (space.procIndices rank i) +
        space.partitions i (space.procIndices rank i) :=
    rfl
  rw [Nat.succ_eq_add_one] at last
  omega

/-- Every cell of the space lies in the partition of one rank. -/
theorem exists_inPartition
    {cell : IndexArray} (inside : InBox space.numDims space.globalSize cell) :
    ∃ rank < space.numProcs, space.InPartition rank cell := by
  have fits : ∀ i < space.numDims, 0 ≤ (fun _ => 0 : IndexArray) i ∧
      (fun _ => 0 : IndexArray) i + space.globalSize i ≤ space.globalSize i :=
    fun i _ => ⟨le_rfl, by simp⟩
  obtain ⟨rank, bounded, owns⟩ := space.exists_owner fits inside
  exact ⟨rank, bounded, (owns_iff_inPartition (fun _ _ => rfl) inside).mp owns⟩

theorem InPartition.unique
    {other : Nat} {cell : IndexArray}
    (bounded : rank < space.numProcs) (otherBounded : other < space.numProcs)
    (member : space.InPartition rank cell)
    (otherMember : space.InPartition other cell) :
    rank = other :=
  space.owner_unique bounded otherBounded
    ((owns_iff_inPartition (fun _ _ => rfl) member.inside).mpr member)
    ((owns_iff_inPartition (fun _ _ => rfl) member.inside).mpr otherMember)

theorem myOffset_nonneg (space : GridSpaceMPI) (rank i : Nat) :
    0 ≤ space.myOffset rank i := by
  simp only [myOffset]
  split
  · rename_i below
    exact space.offsets_nonneg below _
  · exact le_rfl

theorem mySize_nonneg (space : GridSpaceMPI) (rank i : Nat) :
    0 ≤ space.mySize rank i := by
  simp only [mySize]
  split
  · rename_i below
    exact space.partitions_nonneg below _
  · exact le_rfl

theorem myOffset_add_mySize_le
    (space : GridSpaceMPI) (rank : Nat) {i : Nat} (below : i < space.numDims) :
    space.myOffset rank i + space.mySize rank i ≤ space.globalSize i := by
  have last := space.offsets_mono below (space.procIndices_lt rank below)
  rw [space.offsets_procSize below] at last
  simp only [myOffset, mySize, if_pos below]
  exact last

end GridSpaceMPI

end Physis.Runtime
