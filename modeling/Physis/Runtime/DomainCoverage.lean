import Physis.Runtime.Domain

/-!
# Which points a mapped stencil visits

Over a domain with all the dimensions of the space, every process visits the
points of the domain in its own partition, whichever runtime computes the local
domain.  A domain with fewer dimensions has no say in the others, and there the
two runtimes go wrong in different ways.
-/

namespace Physis.Runtime

open Physis.Library
open Physis.Library.RowMajor

namespace GridSpaceMPI

variable {space : GridSpaceMPI} {rank dims : Nat} {min max : IndexArray}

/-- The point lies in the domain of `dims` dimensions and in the space. -/
structure DomainPoint
    (space : GridSpaceMPI) (dims : Nat) (min max cell : IndexArray) : Prop where
  inDomain : ∀ i < dims, min i ≤ cell i ∧ cell i < max i
  inSpace : ∀ i < dims, 0 ≤ cell i ∧ cell i < space.globalSize i
  beyond : ∀ i, dims ≤ i → cell i = 0

/-- The extents of the space are `PSIndex` values. -/
def Representable (space : GridSpaceMPI) : Prop :=
  ∀ i < space.numDims, IsPSIndex (space.globalSize i)

instance : Decidable space.Representable :=
  inferInstanceAs (Decidable (∀ i < space.numDims, IsPSIndex (space.globalSize i)))

/-! ## The local bounds -/

theorem clippedMin_index
    (representable : space.Representable) {x : IndexArray} {i : Nat}
    (below : i < space.numDims) (index : IsPSIndex (x i)) :
    IsPSIndex (space.clippedMin rank x i) ∧ 0 ≤ space.clippedMin rank x i := by
  have offset := space.myOffset_nonneg rank i
  have size := space.mySize_nonneg rank i
  have last := space.myOffset_add_mySize_le rank below
  have whole := representable i below
  simp only [clippedMin, IntegerArray.setNoLessThan, IsPSIndex] at index whole ⊢
  omega

theorem clippedMax_index
    (representable : space.Representable) {x : IndexArray} {i : Nat}
    (below : i < space.numDims) (index : IsPSIndex (x i)) (nonneg : 0 ≤ x i) :
    IsPSIndex (space.clippedMax rank x i) ∧ 0 ≤ space.clippedMax rank x i := by
  have offset := space.myOffset_nonneg rank i
  have size := space.mySize_nonneg rank i
  have last := space.myOffset_add_mySize_le rank below
  have whole := representable i below
  simp only [clippedMax, IntegerArray.setNoMoreThan, IsPSIndex] at index whole ⊢
  omega

@[simp]
theorem psDomainNew_min (test : GridSpaceMPI → Nat → PSDomain → Bool) :
    (space.psDomainNew rank test dims min max).min = IntegerArray.first dims min :=
  rfl

@[simp]
theorem psDomainNew_max (test : GridSpaceMPI → Nat → PSDomain → Bool) :
    (space.psDomainNew rank test dims min max).max = IntegerArray.first dims max :=
  rfl

/-- The points the stencil run on one process visits, over the master's domain. -/
def visits
    (space : GridSpaceMPI) (test : GridSpaceMPI → Nat → PSDomain → Bool)
    (dims : Nat) (dom : PSDomain) (rank : Nat) : List IndexArray :=
  (space.setLocalBounds rank test dom).visits dims

section Visits

variable
    {test : GridSpaceMPI → Nat → PSDomain → Bool} {dom : PSDomain}

/-- A local region that the test takes for empty is not visited. -/
theorem visits_of_noRegion
    (positive : 0 < dims) (none : test space rank dom = true) :
    space.visits test dims dom rank = [] := by
  rw [List.eq_nil_iff_forall_not_mem]
  intro cell member
  simp only [visits, setLocalBounds, localBounds, none, if_true] at member
  rw [PSDomain.mem_visits (fun _ _ => ⟨le_rfl, le_rfl⟩)
    (fun _ _ => by simp [IsPSIndex])] at member
  have first := member.1 0 positive
  simp only at first
  omega

/-- A local region that is not taken for empty is visited. -/
theorem mem_visits_of_region
    (representable : space.Representable) (inside : dims ≤ space.numDims)
    (minEq : ∀ i < dims, dom.min i = min i) (maxEq : ∀ i < dims, dom.max i = max i)
    (index : ∀ i < dims, IsPSIndex (min i) ∧ IsPSIndex (max i))
    (nonneg : ∀ i < dims, 0 ≤ max i)
    (some : test space rank dom = false) (cell : IndexArray) :
    cell ∈ space.visits test dims dom rank ↔
      (∀ i < dims, (space.myOffset rank i ≤ cell i ∧
          cell i < space.myOffset rank i + space.mySize rank i) ∧
        min i ≤ cell i ∧ cell i < max i) ∧
      ∀ i, dims ≤ i → cell i = 0 := by
  have lower : ∀ i < dims, IsPSIndex (space.clippedMin rank dom.min i) ∧
      0 ≤ space.clippedMin rank dom.min i := by
    intro i below
    apply clippedMin_index representable (by omega)
    rw [minEq i below]
    exact (index i below).1
  have upper : ∀ i < dims, IsPSIndex (space.clippedMax rank dom.max i) ∧
      0 ≤ space.clippedMax rank dom.max i := by
    intro i below
    apply clippedMax_index representable (by omega)
    · rw [maxEq i below]
      exact (index i below).2
    · rw [maxEq i below]
      exact nonneg i below
  simp only [visits, setLocalBounds, localBounds, some, Bool.false_eq_true, if_false]
  rw [PSDomain.mem_visits (fun i below => ⟨(lower i below).2, (upper i below).2⟩)
    fun i below => ⟨(lower i below).1, (upper i below).1⟩]
  apply and_congr_left'
  apply forall₂_congr
  intro i below
  have minAt := minEq i below
  have maxAt := maxEq i below
  simp only [clippedMin, clippedMax, IntegerArray.setNoLessThan,
    IntegerArray.setNoMoreThan]
  omega

/-- The test never takes a local region for empty that has a point. -/
def Accepts
    (space : GridSpaceMPI) (test : GridSpaceMPI → Nat → PSDomain → Bool)
    (dims : Nat) : Prop :=
  ∀ rank dom, (∀ i < dims,
    space.clippedMin rank dom.min i < space.clippedMax rank dom.max i) →
      test space rank dom = false

/-- With a test that accepts them a process visits the points of its partition. -/
theorem mem_visits
    (accepts : space.Accepts test dims) (positive : 0 < dims)
    (representable : space.Representable) (inside : dims ≤ space.numDims)
    (minEq : ∀ i < dims, dom.min i = min i) (maxEq : ∀ i < dims, dom.max i = max i)
    (index : ∀ i < dims, IsPSIndex (min i) ∧ IsPSIndex (max i))
    (nonneg : ∀ i < dims, 0 ≤ max i) (cell : IndexArray) :
    cell ∈ space.visits test dims dom rank ↔
      (∀ i < dims, (space.myOffset rank i ≤ cell i ∧
          cell i < space.myOffset rank i + space.mySize rank i) ∧
        min i ≤ cell i ∧ cell i < max i) ∧
      ∀ i, dims ≤ i → cell i = 0 := by
  cases region : test space rank dom with
  | false =>
      exact mem_visits_of_region representable inside minEq maxEq index nonneg region cell
  | true =>
      rw [visits_of_noRegion positive region]
      refine ⟨fun impossible => absurd impossible List.not_mem_nil, ?_⟩
      rintro ⟨bounds, _⟩
      have accepted := accepts rank dom fun i below => by
        have within := bounds i below
        have minAt := minEq i below
        have maxAt := maxEq i below
        simp only [clippedMin, clippedMax, IntegerArray.setNoLessThan,
          IntegerArray.setNoMoreThan]
        omega
      rw [region] at accepted
      cases accepted

end Visits

theorem accepts_noRegion (positive : 0 < dims) : space.Accepts noRegion dims := by
  intro rank dom some
  rw [noRegion, IntegerArray.greaterEqual, Bool.not_eq_false',
    IntegerArray.less_iff]
  exact ⟨0, by decide, some 0 positive,
    fun _ impossible => absurd impossible (Nat.not_lt_zero _)⟩

theorem accepts_noRegionCUDA : space.Accepts noRegionCUDA space.numDims := by
  intro rank dom some
  rw [noRegionCUDA, Bool.not_eq_false', IntegerArray.lessThan_iff]
  exact some

/-- The points the CPU runtime's stencil run visits on one process. -/
def visitsCPU
    (space : GridSpaceMPI) (dims : Nat) (min max : IndexArray) (rank : Nat) :
    List IndexArray :=
  space.visits noRegion dims (space.psDomainNew 0 noRegion dims min max) rank

/-- The points the CUDA runtime's stencil run visits on one process. -/
def visitsCUDA
    (space : GridSpaceMPI) (dims : Nat) (min max : IndexArray) (rank : Nat) :
    List IndexArray :=
  -- only `PSDomain3DNew` has the new test
  let newTest := if dims = 3 then noRegionCUDA else noRegion
  space.visits noRegionCUDA dims (space.psDomainNew 0 newTest dims min max) rank

/-! ## Domains with all dimensions -/

section FullDimensional

variable
    (representable : space.Representable) (positive : 0 < space.numDims)
    (index : ∀ i < space.numDims, IsPSIndex (min i) ∧ IsPSIndex (max i))
    (corners : ∀ i < space.numDims, 0 ≤ min i ∧ 0 ≤ max i)

include representable positive index corners

theorem mem_visitsCPU (rank : Nat) (cell : IndexArray) :
    cell ∈ space.visitsCPU space.numDims min max rank ↔
      space.DomainPoint space.numDims min max cell ∧
        space.InPartition rank cell := by
  rw [visitsCPU, mem_visits (accepts_noRegion positive) positive representable le_rfl
    (fun i below => if_pos below) (fun i below => if_pos below) index
    fun i below => (corners i below).2]
  constructor
  · rintro ⟨bounds, beyond⟩
    have member : space.InPartition rank cell := fun i below => (bounds i below).1
    exact ⟨⟨fun i below => (bounds i below).2, member.inside, beyond⟩, member⟩
  · rintro ⟨point, member⟩
    exact ⟨fun i below => ⟨member i below, point.inDomain i below⟩, point.beyond⟩

/-- Both runtimes run the same loops, whatever their emptiness tests say. -/
theorem visitsCUDA_eq (rank : Nat) :
    space.visitsCUDA space.numDims min max rank =
      space.visitsCPU space.numDims min max rank := by
  have bounds : ∀ newTest : GridSpaceMPI → Nat → PSDomain → Bool,
      ∀ cell, cell ∈ space.visits noRegionCUDA space.numDims
          (space.psDomainNew 0 newTest space.numDims min max) rank ↔
        cell ∈ space.visitsCPU space.numDims min max rank := by
    intro newTest cell
    rw [visitsCPU, mem_visits accepts_noRegionCUDA positive representable le_rfl
        (fun i below => if_pos below) (fun i below => if_pos below) index
        (fun i below => (corners i below).2),
      mem_visits (accepts_noRegion positive) positive representable le_rfl
        (fun i below => if_pos below) (fun i below => if_pos below) index
        fun i below => (corners i below).2]
  rw [visitsCUDA]
  generalize (if space.numDims = 3 then noRegionCUDA else noRegion) = newTest
  cases region : noRegionCUDA space rank
      (space.psDomainNew 0 newTest space.numDims min max) with
  | true =>
      have none : space.visits noRegionCUDA space.numDims
          (space.psDomainNew 0 newTest space.numDims min max) rank = [] :=
        visits_of_noRegion positive region
      rw [none]
      refine (List.eq_nil_iff_forall_not_mem.mpr fun cell member => ?_).symm
      rw [← bounds newTest, none] at member
      cases member
  | false =>
      have some : noRegion space rank
          (space.psDomainNew 0 noRegion space.numDims min max) = false := by
        rw [noRegionCUDA, Bool.not_eq_false'] at region
        rw [noRegion, IntegerArray.greaterEqual, Bool.not_eq_false']
        exact IntegerArray.less_of_lessThan positive region
      simp only [visits, visitsCPU, setLocalBounds, localBounds, region, some,
        PSDomain.visits]
      exact PSDomain.runLoops_congr (fun _ => ⟨rfl, rfl⟩) _ _

/--
A stencil map over a full-dimensional domain visits each point once: no process
visits a point twice, together they visit the points of the domain in the space,
each at its owner, and both runtimes visit the same points on every process.
-/
theorem full_domain_visited_once :
    (∀ rank, (space.visitsCPU space.numDims min max rank).Nodup) ∧
    (∀ rank < space.numProcs, ∀ other < space.numProcs, rank ≠ other →
      (space.visitsCPU space.numDims min max rank).Disjoint
        (space.visitsCPU space.numDims min max other)) ∧
    (∀ cell, (∃ rank < space.numProcs,
        cell ∈ space.visitsCPU space.numDims min max rank) ↔
      space.DomainPoint space.numDims min max cell) ∧
    (∀ rank, ∀ cell ∈ space.visitsCPU space.numDims min max rank, ∀ size,
      InBox space.numDims size cell → space.Owns rank size (fun _ => 0) cell) ∧
    ∀ rank, space.visitsCUDA space.numDims min max rank =
      space.visitsCPU space.numDims min max rank := by
  have member := fun rank cell =>
    mem_visitsCPU representable positive index corners rank cell
  refine ⟨fun rank => PSDomain.nodup_runLoops _ _, ?_, ?_, ?_,
    visitsCUDA_eq representable positive index corners⟩
  · intro rank bounded other otherBounded different cell here there
    exact different (((member rank cell).mp here).2.unique bounded otherBounded
      ((member other cell).mp there).2)
  · intro cell
    constructor
    · rintro ⟨rank, _, visited⟩
      exact ((member rank cell).mp visited).1
    · intro point
      obtain ⟨rank, bounded, inPartition⟩ := space.exists_inPartition point.inSpace
      exact ⟨rank, bounded, (member rank cell).mpr ⟨point, inPartition⟩⟩
  · intro rank cell visited size inside
    exact (owns_iff_inPartition (fun _ _ => rfl) inside).mpr
      ((member rank cell).mp visited).2

end FullDimensional

/-- A 5 × 4 space over 2 × 3 processes, and a domain that reaches beyond it. -/
theorem fiveByFour_visited_once :
    ∃ rank < fiveByFour.numProcs,
      IntegerArray.mk3 3 2 0 ∈ fiveByFour.visitsCPU 2 (IntegerArray.mk3 1 1 0)
        (IntegerArray.mk3 9 3 0) rank :=
  ((@full_domain_visited_once fiveByFour (IntegerArray.mk3 1 1 0)
    (IntegerArray.mk3 9 3 0) (by decide) (by decide)
    (show ∀ i < 2, _ by decide) (show ∀ i < 2, _ by decide)).2.2.1
      (IntegerArray.mk3 3 2 0)).mpr
    ⟨show ∀ i < 2, _ by decide, show ∀ i < 2, _ by decide, fun i beyond =>
      match i, beyond with
      | 2, _ | _ + 3, _ => rfl⟩

/-! ## Domains with fewer dimensions than the space -/

/--
Every point of the domain in the space is visited by exactly one process, which
owns it in every grid of as many dimensions that has the point.
-/
def VisitedOnceByOwner
    (space : GridSpaceMPI) (dims : Nat) (min max : IndexArray)
    (visited : Nat → List IndexArray) : Prop :=
  ∀ cell, space.DomainPoint dims min max cell →
    ∃ rank < space.numProcs, cell ∈ visited rank ∧
      (∀ other < space.numProcs, cell ∈ visited other → other = rank) ∧
      ∀ size, InBox space.numDims (space.gridSize dims size) cell →
        space.Owns rank (space.gridSize dims size)
          (space.gridGlobalOffset dims fun _ => 0) cell

/-- A point of the domain is a cell of the space. -/
theorem DomainPoint.inBox
    {cell : IndexArray} (point : space.DomainPoint dims min max cell) :
    InBox space.numDims space.globalSize cell := by
  intro i below
  rcases Nat.lt_or_ge i dims with inside | beyond
  · exact point.inSpace i inside
  · have zero := point.beyond i beyond
    have extent := space.globalPos i below
    omega

/-- The CUDA runtime finds no local region on any process. -/
theorem visitsCUDA_eq_nil
    (positive : 0 < dims) (fewer : dims < space.numDims) (rank : Nat) :
    space.visitsCUDA dims min max rank = [] := by
  rw [visitsCUDA]
  apply visits_of_noRegion positive
  rw [noRegionCUDA, Bool.not_eq_true', ← Bool.not_eq_true,
    IntegerArray.lessThan_iff]
  intro smaller
  have here := smaller dims fewer
  have unset : ∀ array : IndexArray, IntegerArray.first dims array dims = 0 :=
    fun _ => if_neg (lt_irrefl _)
  have offset := space.myOffset_nonneg rank dims
  simp only [clippedMin, clippedMax, IntegerArray.setNoLessThan,
    IntegerArray.setNoMoreThan, psDomainNew_min, psDomainNew_max, unset] at here
  omega

section LowerDimensional

variable
    (representable : space.Representable)
    (positive : 0 < dims) (fewer : dims < space.numDims)
    (index : ∀ i < dims, IsPSIndex (min i) ∧ IsPSIndex (max i))

include representable positive fewer index

/-- The CPU runtime looks at the dimensions of the domain only. -/
theorem mem_visitsCPU_of_point
    {cell : IndexArray} (point : space.DomainPoint dims min max cell) (rank : Nat) :
    cell ∈ space.visitsCPU dims min max rank ↔
      ∀ i < dims, space.myOffset rank i ≤ cell i ∧
        cell i < space.myOffset rank i + space.mySize rank i := by
  have nonneg : ∀ i < dims, 0 ≤ max i := by
    intro i below
    have first := point.inSpace i below
    have last := point.inDomain i below
    omega
  rw [visitsCPU, mem_visits (accepts_noRegion positive) positive representable fewer.le
    (fun i below => if_pos below) (fun i below => if_pos below) index nonneg]
  constructor
  · exact fun bounds i below => (bounds.1 i below).1
  · exact fun bounds => ⟨fun i below => ⟨bounds i below, point.inDomain i below⟩,
      point.beyond⟩

/-- The process one step along a dimension without say visits the same points. -/
theorem exists_other_visitor
    {cell : IndexArray} (point : space.DomainPoint dims min max cell)
    {rank : Nat} (visited : cell ∈ space.visitsCPU dims min max rank)
    {i : Nat} (beyond : dims ≤ i) (below : i < space.numDims)
    (more : space.procSize i ≠ 1) :
    ∃ other < space.numProcs, other ≠ rank ∧
      cell ∈ space.visitsCPU dims min max other := by
  have processes := space.procPos i below
  let moved : Nat := if space.procIndices rank i = 0 then 1 else 0
  have different : moved ≠ space.procIndices rank i := by
    simp only [moved]
    split <;> omega
  have valid : ∀ d < space.numDims,
      Function.update (space.procIndices rank) i moved d < space.procSize d := by
    intro d inside
    by_cases same : d = i
    · subst same
      rw [Function.update_self]
      simp only [moved]
      split <;> omega
    · rw [Function.update_of_ne same]
      exact space.procIndices_lt rank inside
  refine ⟨_, space.getProcessRank_lt valid, ?_, ?_⟩
  · intro same
    have back := space.procIndices_getProcessRank valid below
    rw [same, Function.update_self] at back
    exact different back.symm
  · rw [mem_visitsCPU_of_point representable positive fewer index point] at visited ⊢
    intro d inside
    have bounds := visited d inside
    have here : d < space.numDims := by omega
    have kept := space.procIndices_getProcessRank valid here
    rw [Function.update_of_ne (by omega)] at kept
    simp only [myOffset, mySize, if_pos here, kept] at bounds ⊢
    exact bounds

/--
Domains with fewer dimensions: the CPU runtime visits each point once, at its
owner, exactly when the space is not cut along the other dimensions (or there is
no point), and the CUDA runtime exactly when there is no point.
-/
theorem lower_domain_visited_once_iff :
    (space.VisitedOnceByOwner dims min max (space.visitsCPU dims min max) ↔
      (∀ cell, ¬ space.DomainPoint dims min max cell) ∨
        ∀ i, dims ≤ i → i < space.numDims → space.procSize i = 1) ∧
    (space.VisitedOnceByOwner dims min max (space.visitsCUDA dims min max) ↔
      ∀ cell, ¬ space.DomainPoint dims min max cell) := by
  refine ⟨⟨?_, ?_⟩, ?_, ?_⟩
  · intro once
    by_contra fails
    push Not at fails
    obtain ⟨⟨cell, point⟩, i, beyond, below, more⟩ := fails
    obtain ⟨rank, _, visited, only, _⟩ := once cell point
    obtain ⟨other, bounded, different, otherVisited⟩ :=
      exists_other_visitor representable positive fewer index point visited beyond
        below more
    exact different (only other bounded otherVisited)
  · rintro (none | uncut) cell point
    · exact absurd point (none cell)
    · have visits := mem_visitsCPU_of_point representable positive fewer index point
      have inPartition : ∀ rank, cell ∈ space.visitsCPU dims min max rank ↔
          space.InPartition rank cell := by
        intro rank
        rw [visits]
        refine ⟨?_, fun member i inside => member i (by omega)⟩
        intro bounds i below
        rcases Nat.lt_or_ge i dims with inside | beyond
        · exact bounds i inside
        · -- the only partition of this dimension is the whole extent
          have single := uncut i beyond below
          have first := space.procIndices_lt rank below
          have zero : space.procIndices rank i = 0 := by omega
          have whole := space.offsets_procSize below
          rw [single] at whole
          have extent := space.globalPos i below
          have coordinate := point.beyond i beyond
          simp only [offsets] at whole
          simp only [myOffset, mySize, if_pos below, zero, offsets]
          omega
      obtain ⟨rank, bounded, member⟩ :=
        space.exists_inPartition point.inBox
      refine ⟨rank, bounded, (inPartition rank).mpr member, ?_, ?_⟩
      · intro other otherBounded otherVisited
        exact ((inPartition other).mp otherVisited).unique otherBounded bounded member
      · intro size inside
        apply (owns_iff_inPartition (fun i _ => ?_) inside).mpr member
        simp [gridGlobalOffset]
  · intro once cell point
    obtain ⟨rank, _, visited, _⟩ := once cell point
    rw [visitsCUDA_eq_nil positive fewer] at visited
    cases visited
  · exact fun none cell point => absurd point (none cell)

end LowerDimensional

/-- A 4 × 4 space over 1 × 2 processes. -/
def fourByFour : GridSpaceMPI where
  numDims := 2
  globalSize := IntegerArray.mk3 4 4 0
  procSize := IntegerArray.mk3 1 2 0
  globalPos := by decide
  procPos := by decide

/-- Over a one-dimensional domain the CPU runtime visits each point twice. -/
theorem fourByFour_not_visited_once :
    ¬ (fourByFour.VisitedOnceByOwner 1 (fun _ => 0) (IntegerArray.mk3 4 0 0)
        (fourByFour.visitsCPU 1 (fun _ => 0) (IntegerArray.mk3 4 0 0)) ∧
      fourByFour.VisitedOnceByOwner 1 (fun _ => 0) (IntegerArray.mk3 4 0 0)
        (fourByFour.visitsCUDA 1 (fun _ => 0) (IntegerArray.mk3 4 0 0))) := by
  rintro ⟨once, -⟩
  have point : fourByFour.DomainPoint 1 (fun _ => 0) (IntegerArray.mk3 4 0 0)
      fun _ => 0 :=
    ⟨by decide, by decide, fun _ _ => rfl⟩
  obtain ⟨rank, _, _, only, _⟩ := once _ point
  have visited := mem_visitsCPU_of_point (by decide) (by decide) (by decide)
    (show ∀ i < 1, _ by decide) point
  have first := only 0 (by decide)
    ((visited 0).mpr (show ∀ i < 1, _ by decide))
  have second := only 1 (by decide)
    ((visited 1).mpr (show ∀ i < 1, _ by decide))
  omega

/-- The same space over 2 × 1 processes. -/
def fourByFourRows : GridSpaceMPI where
  numDims := 2
  globalSize := IntegerArray.mk3 4 4 0
  procSize := IntegerArray.mk3 2 1 0
  globalPos := by decide
  procPos := by decide

/-- There the CPU runtime visits each point of the domain once. -/
theorem fourByFourRows_visited_once :
    fourByFourRows.VisitedOnceByOwner 1 (fun _ => 0) (IntegerArray.mk3 4 0 0)
      (fourByFourRows.visitsCPU 1 (fun _ => 0) (IntegerArray.mk3 4 0 0)) :=
  (lower_domain_visited_once_iff (by decide) (by decide) (by decide)
    (show ∀ i < 1, _ by decide)).1.mpr (Or.inr (by
      have uncut : ∀ i < 2, 1 ≤ i → fourByFourRows.procSize i = 1 := by decide
      exact fun i beyond below => uncut i below beyond))

end GridSpaceMPI

end Physis.Runtime
