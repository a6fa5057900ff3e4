import Physis.Runtime.OverlapSchedule

/-!
# What the overlapped schedule computes

The interior and the boundary are to cover the local domain and nothing else.
The slabs of a narrow domain reach beyond it, and from a width of five on the
blocks of the first two dimensions have no thread along the third.
-/

namespace Physis.Runtime

open Physis.Library
open Physis.Library.StridedLoops

/-- The rank has no part of the domain: all its local bounds are zero. -/
def PSDomain.NoPart (dom : PSDomain) : Prop :=
  ∀ i < 3, dom.localMin i = 0 ∧ dom.localMax i = 0

instance (dom : PSDomain) : Decidable dom.NoPart :=
  inferInstanceAs (Decidable (∀ i < 3, _ ∧ _))

/--
The chunks of each slab of the first dimension partition the range of the
third.
-/
def PSDomain.ChunksPartition (dom : PSDomain) (width : Nat) : Prop :=
  ∀ (right : Bool) (chunks : Nat → PSDomain),
    (∀ i < numXStreams,
      dom.getBoundary 0 right width numXStreams i = some (chunks i)) →
    ∀ z, dom.localMin 2 ≤ z ∧ z < dom.localMax 2 ↔
      ∃! i, i < numXStreams ∧ (chunks i).localMin 2 ≤ z ∧
        z < (chunks i).localMax 2

/--
The schedule runs to its end, computes exactly the points of the local domain,
and its chunks are a partition.
-/
def ComputesDomain
    (space : GridSpaceMPI) (rank : Nat) (block : BlockDim)
    (schedule : BoundarySchedule) (dom : PSDomain) (overlapWidth : Nat) :
    Prop :=
  (∃ points,
    overlappedSchedule space rank block schedule dom overlapWidth =
        some points ∧
      ∀ point, dom.Contains point ↔ point ∈ points) ∧
  dom.ChunksPartition overlapWidth

/-- The local domains for which the schedule is right -/
def BoundaryFits (dom : PSDomain) (overlapWidth : Nat) :
    BoundarySchedule → Prop
  | .multiStream =>
      dom.NoPart ∨ overlapWidth = 0 ∨
        (overlapWidth ≤ 4 ∧ ∀ i < 3, (overlapWidth : Int) ≤ dom.extent i) ∨
        (4 < overlapWidth ∧ overlapWidth ≤ dom.extent 2 ∧
          dom.extent 2 ≤ 2 * overlapWidth ∧
          overlapWidth ≤ dom.localMax 0 ∧ overlapWidth ≤ dom.localMax 1)
  | .singleStream =>
      dom.NoPart ∨ overlapWidth = 0 ∨ overlapWidth ≤ dom.extent 2

instance (dom : PSDomain) (overlapWidth : Nat) (schedule : BoundarySchedule) :
    Decidable (BoundaryFits dom overlapWidth schedule) := by
  cases schedule <;> exact inferInstanceAs (Decidable (_ ∨ _))

/-! ## Local domains -/

/-- Every dimension of the domain has points here, at or above zero. -/
def PSDomain.Occupied (dom : PSDomain) : Prop :=
  ∀ i < 3, 0 ≤ dom.localMin i ∧ dom.localMin i < dom.localMax i

/-- The local bounds are all zero, or the rank has points in every dimension. -/
theorem localDomain_cases
    {space : GridSpaceMPI} (three : space.numDims = 3) (rank : Nat)
    (dom : PSDomain) :
    (space.psDomainSetLocalSizeCUDA rank dom).NoPart ∨
      (space.psDomainSetLocalSizeCUDA rank dom).Occupied := by
  simp only [GridSpaceMPI.psDomainSetLocalSizeCUDA, GridSpaceMPI.setLocalBounds,
    GridSpaceMPI.localBounds]
  split
  · exact .inl fun _ _ => ⟨rfl, rfl⟩
  · rename_i region
    refine .inr fun i below => ?_
    have less : ∀ i < 3, space.clippedMin rank dom.min i <
        space.clippedMax rank dom.max i := by
      rw [← three, ← IntegerArray.lessThan_iff]
      simpa [GridSpaceMPI.noRegionCUDA] using region
    have offset := space.myOffset_nonneg rank i
    refine ⟨?_, less i below⟩
    exact offset.trans (le_max_left _ _)

/-- The local domain lies in the rank's partition. -/
theorem localDomain_inPart
    (space : GridSpaceMPI) (rank : Nat) (dom : PSDomain) :
    (space.psDomainSetLocalSizeCUDA rank dom).InPart space rank := by
  intro i _
  simp only [GridSpaceMPI.psDomainSetLocalSizeCUDA, GridSpaceMPI.setLocalBounds,
    GridSpaceMPI.localBounds]
  split
  · intro impossible
    exact absurd impossible (lt_irrefl _)
  · intro _
    exact ⟨le_max_left _ _, min_le_left _ _⟩

/-! ## Slabs -/

section Slabs

variable {dom : PSDomain} {width : Nat}

/-- On a domain with points the assertion alone decides. -/
theorem getBoundary_of_occupied
    (occupied : dom.Occupied) {dim : Nat} (below : dim < 3) (right : Bool)
    (factor offset : Nat) :
    dom.getBoundary dim right width factor offset =
      if right = true ∧ dom.localMax dim - width < 0 then none
      else
        some (if 1 < factor then
            (dom.slab dim right width).divide dom factor offset
          else dom.slab dim right width) := by
  have points := occupied dim below
  rw [PSDomain.getBoundary, if_neg (by omega)]

/-- The chunks of a slab are a partition on every local domain. -/
theorem chunks_partition
    (cases : dom.NoPart ∨ dom.Occupied) : dom.ChunksPartition width := by
  intro right chunks succeed z
  rcases cases with noPart | occupied
  · have same : ∀ i < numXStreams, chunks i = dom := by
      intro i bound
      have found := succeed i bound
      rw [PSDomain.getBoundary, if_pos (noPart 0 (by decide))] at found
      exact (Option.some.inj found).symm
    have third := noPart 2 (by decide)
    constructor
    · intro inside
      omega
    · rintro ⟨i, ⟨bound, inside⟩, -⟩
      rw [same i bound] at inside
      exact inside
  · have third := occupied 2 (by decide)
    have chunk : ∀ i < numXStreams,
        chunks i = (dom.slab 0 right width).divide dom numXStreams i := by
      intro i bound
      have found := succeed i bound
      rw [getBoundary_of_occupied occupied (by decide)] at found
      split at found
      · cases found
      · rw [if_pos (by decide)] at found
        exact (Option.some.inj found).symm
    have nonneg : 0 ≤ dom.extent 2 := by
      rw [PSDomain.extent]
      omega
    have kept : (dom.slab 0 right width).localMin 2 = dom.localMin 2 := by
      rw [PSDomain.slab_localMin, if_neg (by decide)]
    rw [PSDomain.divide_partitions nonneg kept (show 0 < numXStreams by decide)]
    refine existsUnique_congr fun i => ?_
    constructor
    · rintro ⟨bound, inside⟩
      rw [chunk i bound]
      exact ⟨bound, inside⟩
    · rintro ⟨bound, inside⟩
      rw [chunk i bound] at inside
      exact ⟨bound, inside⟩

/-- The chunks of a slab make up the slab. -/
theorem exists_chunk_iff
    (occupied : dom.Occupied) (right : Bool) (point : Point) :
    (∃ i < numXStreams,
      ((dom.slab 0 right width).divide dom numXStreams i).Contains point) ↔
      (dom.slab 0 right width).Contains point := by
  have third := occupied 2 (by decide)
  have nonneg : 0 ≤ dom.extent 2 := by
    rw [PSDomain.extent]
    omega
  have keptMin : (dom.slab 0 right width).localMin 2 = dom.localMin 2 := by
    rw [PSDomain.slab_localMin, if_neg (by decide)]
  have keptMax : (dom.slab 0 right width).localMax 2 = dom.localMax 2 := by
    rw [PSDomain.slab_localMax, if_neg (by decide)]
  have partition := PSDomain.divide_partitions nonneg keptMin
    (show 0 < numXStreams by decide) point.2.2
  have x := fun i =>
    PSDomain.divide_other (dom.slab 0 right width) dom numXStreams i
      (show 0 ≠ 2 by decide)
  have y := fun i =>
    PSDomain.divide_other (dom.slab 0 right width) dom numXStreams i
      (show 1 ≠ 2 by decide)
  simp only [PSDomain.Contains, (x _).1, (x _).2, (y _).1, (y _).2, keptMin,
    keptMax]
  constructor
  · rintro ⟨i, bound, xInside, yInside, zInside⟩
    refine ⟨xInside, yInside, ?_⟩
    have inChunk := PSDomain.divide_bounds nonneg keptMin bound zInside
    exact inChunk
  · rintro ⟨xInside, yInside, zInside⟩
    obtain ⟨i, ⟨bound, inChunk⟩, -⟩ := partition.mp zInside
    exact ⟨i, bound, xInside, yInside, inChunk⟩

/-- A block of the first two dimensions has threads up to width four. -/
theorem block_pos_iff (positive : 0 < width) :
    0 < 512 / (width * 128) ↔ width ≤ 4 := by
  rw [Nat.div_pos_iff]
  omega

theorem mem_streams {stream : Stream} :
    stream ∈ xStreams width ++ yzStreams width ↔
      (∃ right, ∃ i < numXStreams,
        stream =
          ⟨0, right, numXStreams, i, ⟨width, 128, 512 / (width * 128)⟩⟩) ∨
      (∃ right, stream = ⟨1, right, 1, 0, ⟨128, width, 512 / (width * 128)⟩⟩) ∨
      ∃ right, stream = ⟨2, right, 1, 0, ⟨128, 4, 1⟩⟩ := by
  simp only [xStreams, yzStreams, List.mem_append, List.mem_flatMap,
    List.mem_map, List.mem_range, List.mem_cons, List.not_mem_nil, or_false]
  constructor
  · rintro (⟨right, -, i, bound, rfl⟩ | ⟨dim, rfl | rfl, right, -, rfl⟩)
    · exact .inl ⟨right, i, bound, rfl⟩
    · exact .inr (.inl ⟨right, rfl⟩)
    · exact .inr (.inr ⟨right, rfl⟩)
  · rintro (⟨right, i, bound, rfl⟩ | ⟨right, rfl⟩ | ⟨right, rfl⟩)
    · exact .inl ⟨right, by cases right <;> simp, i, bound, rfl⟩
    · exact .inr ⟨1, .inl rfl, right, by cases right <;> simp, rfl⟩
    · exact .inr ⟨2, .inr rfl, right, by cases right <;> simp, rfl⟩

/-- The three coordinates of a point -/
def Point.coord (point : Point) : IndexArray :=
  IntegerArray.mk3 point.1 point.2.1 point.2.2

theorem exists_point (array : IndexArray) :
    ∃ point : Point, ∀ i < 3, point.coord i = array i := by
  refine ⟨(array 0, array 1, array 2), fun i below => ?_⟩
  rcases (by omega : i = 0 ∨ i = 1 ∨ i = 2) with rfl | rfl | rfl <;> rfl

theorem contains_iff {point : Point} :
    dom.Contains point ↔
      ∀ i < 3, dom.localMin i ≤ point.coord i ∧
        point.coord i < dom.localMax i := by
  constructor
  · rintro ⟨x, y, z⟩ i below
    rcases (by omega : i = 0 ∨ i = 1 ∨ i = 2) with rfl | rfl | rfl
    · exact x
    · exact y
    · exact z
  · intro inside
    exact ⟨inside 0 (by decide), inside 1 (by decide), inside 2 (by decide)⟩

/-- A slab that is no wider than the domain lies inside it. -/
theorem contains_of_slab
    {dim : Nat} {right : Bool} {point : Point}
    (fits : (width : Int) ≤ dom.extent dim)
    (inside : (dom.slab dim right width).Contains point) :
    dom.Contains point := by
  rw [contains_iff] at inside ⊢
  intro i below
  have bounds := inside i below
  rw [PSDomain.slab_localMin, PSDomain.slab_localMax] at bounds
  by_cases own : i = dim
  · rw [if_pos own, if_pos own] at bounds
    rw [PSDomain.extent, ← own] at fits
    rw [← own] at bounds
    cases right <;> simp [PSDomain.slabMin, PSDomain.slabMax] at bounds <;>
      omega
  · rwa [if_neg own, if_neg own] at bounds

/-- A point near a side of the domain lies in the slab of that side. -/
theorem slab_of_contains
    {dim : Nat} {right : Bool} {point : Point}
    (inside : dom.Contains point)
    (near : dom.slabMin dim right width ≤ point.coord dim ∧
      point.coord dim < dom.slabMax dim right width) :
    (dom.slab dim right width).Contains point := by
  rw [contains_iff] at inside ⊢
  intro i below
  rw [PSDomain.slab_localMin, PSDomain.slab_localMax]
  by_cases own : i = dim
  · rw [if_pos own, if_pos own, own]
    exact near
  · rw [if_neg own, if_neg own]
    exact inside i below

/-- The host gets through all streams if no dimension ends below the width. -/
theorem multiBoundaryKernels_isSome_iff (occupied : dom.Occupied) :
    (multiBoundaryKernels dom width).isSome ↔
      ∀ i < 3, (width : Int) ≤ dom.localMax i := by
  have some_iff : ∀ {dim : Nat}, dim < 3 → ∀ right factor offset block,
      (Stream.points dom width ⟨dim, right, factor, offset, block⟩).isSome ↔
        (right = true → (width : Int) ≤ dom.localMax dim) := by
    intro dim below right factor offset block
    rw [Stream.points, getBoundary_of_occupied occupied below,
      Option.isSome_map]
    split
    · rename_i short
      constructor
      · intro impossible
        cases impossible
      · intro enough
        have reach := enough short.1
        omega
    · rename_i enough
      refine ⟨fun _ isRight => ?_, fun _ => rfl⟩
      have reach : ¬ dom.localMax dim - width < 0 :=
        fun short => enough ⟨isRight, short⟩
      omega
  rw [multiBoundaryKernels, Option.isSome_map, FallibleMaps.mapM_isSome_iff]
  constructor
  · intro all i below
    have chosen : ∃ stream ∈ xStreams width ++ yzStreams width,
        stream.dim = i ∧ stream.right = true := by
      rcases (by omega : i = 0 ∨ i = 1 ∨ i = 2) with rfl | rfl | rfl
      · exact ⟨_, mem_streams.mpr (.inl ⟨true, 0, by decide, rfl⟩), rfl, rfl⟩
      · exact ⟨_, mem_streams.mpr (.inr (.inl ⟨true, rfl⟩)), rfl, rfl⟩
      · exact ⟨_, mem_streams.mpr (.inr (.inr ⟨true, rfl⟩)), rfl, rfl⟩
    obtain ⟨stream, member, rfl, right⟩ := chosen
    exact (some_iff below _ _ _ _).mp (all stream member) right
  · intro wide stream member
    rcases mem_streams.mp member with
      ⟨right, i, bound, rfl⟩ | ⟨right, rfl⟩ | ⟨right, rfl⟩
    · exact (some_iff (by decide) _ _ _ _).mpr fun _ => wide 0 (by decide)
    · exact (some_iff (by decide) _ _ _ _).mpr fun _ => wide 1 (by decide)
    · exact (some_iff (by decide) _ _ _ _).mpr fun _ => wide 2 (by decide)

/-- The points all streams compute -/
theorem mem_multiBoundaryKernels
    (occupied : dom.Occupied) (positive : 0 < width)
    {points : List Point}
    (succeeds : multiBoundaryKernels dom width = some points)
    (point : Point) :
    point ∈ points ↔
      (width ≤ 4 ∧ ∃ right, (dom.slab 0 right width).Contains point) ∨
      (width ≤ 4 ∧ ∃ right, (dom.slab 1 right width).Contains point) ∨
      ∃ right, (dom.slab 2 right width).Contains point := by
  have wide := (multiBoundaryKernels_isSome_iff occupied).mp
    (Option.isSome_of_eq_some succeeds)
  obtain ⟨results, mapped, rfl⟩ := Option.map_eq_some_iff.mp succeeds
  have results_iff := FallibleMaps.mem_of_mapM mapped
  have boundary : ∀ {dim : Nat}, dim < 3 → ∀ right factor offset block,
      Stream.points dom width ⟨dim, right, factor, offset, block⟩ =
        some (streamKernel
          (if 1 < factor then
            (dom.slab dim right width).divide dom factor offset
          else dom.slab dim right width) block) := by
    intro dim below right factor offset block
    have reach := wide dim below
    rw [Stream.points, getBoundary_of_occupied occupied below,
      if_neg (by omega), Option.map_some]
  have blocks := block_pos_iff positive
  rw [List.mem_flatten]
  constructor
  · rintro ⟨kernel, listed, member⟩
    obtain ⟨stream, isStream, equal⟩ := (results_iff kernel).mp listed
    rcases mem_streams.mp isStream with
      ⟨right, i, bound, rfl⟩ | ⟨right, rfl⟩ | ⟨right, rfl⟩
    · rw [boundary (by decide), if_pos (by decide)] at equal
      rw [← Option.some.inj equal, mem_streamKernel] at member
      exact .inl ⟨blocks.mp member.1.2.2, right,
        (exists_chunk_iff occupied right point).mp ⟨i, bound, member.2⟩⟩
    · rw [boundary (by decide), if_neg (by decide)] at equal
      rw [← Option.some.inj equal, mem_streamKernel] at member
      exact .inr (.inl ⟨blocks.mp member.1.2.2, right, member.2⟩)
    · rw [boundary (by decide), if_neg (by decide)] at equal
      rw [← Option.some.inj equal, mem_streamKernel] at member
      exact .inr (.inr ⟨right, member.2⟩)
  · rintro (⟨small, right, inside⟩ | ⟨small, right, inside⟩ | ⟨right, inside⟩)
    · obtain ⟨i, bound, inChunk⟩ :=
        (exists_chunk_iff occupied right point).mpr inside
      refine ⟨_, (results_iff _).mpr
        ⟨_, mem_streams.mpr (.inl ⟨right, i, bound, rfl⟩),
          boundary (by decide) _ _ _ _⟩, ?_⟩
      rw [if_pos (by decide), mem_streamKernel]
      exact ⟨⟨positive, Nat.succ_pos _, blocks.mpr small⟩, inChunk⟩
    · refine ⟨_, (results_iff _).mpr
        ⟨_, mem_streams.mpr (.inr (.inl ⟨right, rfl⟩)),
          boundary (by decide) _ _ _ _⟩, ?_⟩
      rw [if_neg (by decide), mem_streamKernel]
      exact ⟨⟨Nat.succ_pos _, positive, blocks.mpr small⟩, inside⟩
    · refine ⟨_, (results_iff _).mpr
        ⟨_, mem_streams.mpr (.inr (.inr ⟨right, rfl⟩)),
          boundary (by decide) _ _ _ _⟩, ?_⟩
      rw [if_neg (by decide), mem_streamKernel]
      exact ⟨⟨by decide, by decide, by decide⟩, inside⟩

end Slabs

/-! ## The schedules -/

section Schedules

variable
    {space : GridSpaceMPI} {rank : Nat} {block : BlockDim} {dom : PSDomain}
    {width : Nat}

/-- Without a part of the domain no kernel computes a point. -/
theorem PSDomain.NoPart.not_contains
    (noPart : dom.NoPart) (point : Point) : ¬ dom.Contains point := by
  rintro ⟨⟨lower, upper⟩, -⟩
  have zero := noPart 0 (by decide)
  omega

theorem shrink_contains_iff {point : Point} :
    (dom.shrink width).Contains point ↔
      (dom.localMin 0 + width ≤ point.1 ∧
        point.1 < dom.localMax 0 - width) ∧
      (dom.localMin 1 + width ≤ point.2.1 ∧
        point.2.1 < dom.localMax 1 - width) ∧
      (dom.localMin 2 + width ≤ point.2.2 ∧
        point.2.2 < dom.localMax 2 - width) :=
  Iff.rfl

/-- The streams and the interior compute the domain exactly if it is wide. -/
theorem multiStream_exact_iff
    (occupied : dom.Occupied) (inPart : dom.InPart space rank)
    (positive : 0 < width) :
    (∃ points,
      overlappedSchedule space rank block .multiStream dom width =
          some points ∧
        ∀ point, dom.Contains point ↔ point ∈ points) ↔
      (width ≤ 4 ∧ ∀ i < 3, (width : Int) ≤ dom.extent i) ∨
        (4 < width ∧ width ≤ dom.extent 2 ∧ dom.extent 2 ≤ 2 * width ∧
          width ≤ dom.localMax 0 ∧ width ≤ dom.localMax 1) := by
  have x := occupied 0 (by decide)
  have y := occupied 1 (by decide)
  have z := occupied 2 (by decide)
  have inner : ∀ point,
      point ∈ runKernel space rank block (dom.shrink width) ↔
        (dom.shrink width).Contains point :=
    fun _ => mem_runKernel (inPart.shrink width)
  simp only [overlappedSchedule, if_neg positive.ne', Option.map_eq_some_iff]
  constructor
  · rintro ⟨_, ⟨points, succeeds, rfl⟩, exact⟩
    have wide := (multiBoundaryKernels_isSome_iff occupied).mp
      (Option.isSome_of_eq_some succeeds)
    simp only [List.mem_append, inner,
      mem_multiBoundaryKernels occupied positive succeeds] at exact
    -- the last point of each near slab that is computed lies in the domain
    have reach : ∀ {dim : Nat}, dim < 3 → (dim = 2 ∨ width ≤ 4) →
        (width : Int) ≤ dom.extent dim := by
      intro dim below launched
      obtain ⟨point, coords⟩ := exists_point
        (Function.update dom.localMin dim (dom.localMin dim + width - 1))
      have inSlab : (dom.slab dim false width).Contains point := by
        rw [contains_iff]
        intro i inside
        have own := occupied i inside
        rw [coords i inside, PSDomain.slab_localMin, PSDomain.slab_localMax,
          Function.update_apply]
        by_cases same : i = dim
        · rw [if_pos same, if_pos same, if_pos same]
          simp only [PSDomain.slabMin, PSDomain.slabMax, Bool.false_eq_true,
            if_false]
          omega
        · rw [if_neg same, if_neg same, if_neg same]
          omega
      have inDomain : dom.Contains point := by
        refine (exact point).mpr (.inr ?_)
        rcases (by omega : dim = 0 ∨ dim = 1 ∨ dim = 2) with rfl | rfl | rfl
        · exact .inl ⟨by omega, false, inSlab⟩
        · exact .inr (.inl ⟨by omega, false, inSlab⟩)
        · exact .inr (.inr ⟨false, inSlab⟩)
      have last := contains_iff.mp inDomain dim below
      rw [coords dim below, Function.update_self] at last
      rw [PSDomain.extent]
      omega
    by_cases small : width ≤ 4
    · exact .inl ⟨small, fun i below => reach below (.inr small)⟩
    · refine .inr ⟨by omega, reach (by decide) (.inl rfl), ?_,
        wide 0 (by decide), wide 1 (by decide)⟩
      by_contra thick
      obtain ⟨point, coords⟩ := exists_point
        (Function.update dom.localMin 2 (dom.localMin 2 + width))
      have inDomain : dom.Contains point := by
        rw [contains_iff]
        intro i inside
        have own := occupied i inside
        rw [coords i inside, Function.update_apply]
        rw [PSDomain.extent] at thick
        split
        · rename_i same
          rw [same]
          omega
        · omega
      have first := coords 0 (by decide)
      have third := coords 2 (by decide)
      rw [Function.update_of_ne (by decide)] at first
      rw [Function.update_self] at third
      rcases (exact point).mp inDomain with interior | ⟨few, -⟩ | ⟨few, -⟩ |
        ⟨right, inSlab⟩
      · have bounds := contains_iff.mp interior 0 (by decide)
        have lower : dom.localMin 0 + width ≤ point.coord 0 := bounds.1
        omega
      · exact small few
      · exact small few
      · have bounds := contains_iff.mp inSlab 2 (by decide)
        rw [PSDomain.slab_localMin, PSDomain.slab_localMax, if_pos rfl,
          if_pos rfl, third] at bounds
        rw [PSDomain.extent] at thick
        cases right with
        | false =>
            simp [PSDomain.slabMin, PSDomain.slabMax] at bounds
        | true =>
            simp [PSDomain.slabMin, PSDomain.slabMax] at bounds
            omega
  · intro fits
    have wide : ∀ i < 3, (width : Int) ≤ dom.localMax i := by
      intro i below
      have own := occupied i below
      rcases fits with ⟨-, all⟩ | ⟨-, third, -, first, second⟩
      · have extent := all i below
        rw [PSDomain.extent] at extent
        omega
      · rw [PSDomain.extent] at third
        rcases (by omega : i = 0 ∨ i = 1 ∨ i = 2) with rfl | rfl | rfl
        · exact first
        · exact second
        · omega
    obtain ⟨points, succeeds⟩ := Option.isSome_iff_exists.mp
      ((multiBoundaryKernels_isSome_iff occupied).mpr wide)
    refine ⟨_, ⟨points, succeeds, rfl⟩, fun point => ?_⟩
    simp only [List.mem_append, inner,
      mem_multiBoundaryKernels occupied positive succeeds]
    constructor
    · intro inside
      have bounds := contains_iff.mp inside
      have sides : ∀ dim < 3,
          (point.coord dim < dom.localMin dim + width ∨
            dom.localMax dim - width ≤ point.coord dim) →
          ∃ right, (dom.slab dim right width).Contains point := by
        rintro dim below (near | near)
        · exact ⟨false, slab_of_contains inside ⟨(bounds dim below).1, near⟩⟩
        · exact ⟨true, slab_of_contains inside ⟨near, (bounds dim below).2⟩⟩
      by_cases interior : (dom.shrink width).Contains point
      · exact .inl interior
      refine .inr ?_
      rcases fits with ⟨small, -⟩ | ⟨-, -, thin, -, -⟩
      · obtain ⟨dim, below, side⟩ : ∃ dim < 3,
            point.coord dim < dom.localMin dim + width ∨
              dom.localMax dim - width ≤ point.coord dim := by
          by_contra inner
          push Not at inner
          exact interior ⟨inner 0 (by decide), inner 1 (by decide),
            inner 2 (by decide)⟩
        have inSlab := sides dim below side
        rcases (by omega : dim = 0 ∨ dim = 1 ∨ dim = 2) with rfl | rfl | rfl
        · exact .inl ⟨small, inSlab⟩
        · exact .inr (.inl ⟨small, inSlab⟩)
        · exact .inr (.inr inSlab)
      · rw [PSDomain.extent] at thin
        exact .inr (.inr (sides 2 (by decide) (by omega)))
    · have extents : ∀ dim < 3, (dim = 2 ∨ width ≤ 4) →
          (width : Int) ≤ dom.extent dim := by
        intro dim below launched
        rcases fits with ⟨-, all⟩ | ⟨large, third, -, -, -⟩
        · exact all dim below
        · rcases launched with rfl | small
          · exact third
          · omega
      rintro (interior | ⟨small, right, inSlab⟩ | ⟨small, right, inSlab⟩ |
        ⟨right, inSlab⟩)
      · obtain ⟨first, second, third⟩ := shrink_contains_iff.mp interior
        exact ⟨⟨by omega, by omega⟩, ⟨by omega, by omega⟩,
          ⟨by omega, by omega⟩⟩
      · exact contains_of_slab (extents 0 (by decide) (.inr small)) inSlab
      · exact contains_of_slab (extents 1 (by decide) (.inr small)) inSlab
      · exact contains_of_slab (extents 2 (by decide) (.inl rfl)) inSlab

/-- The single boundary kernel is right if the third dimension is wide. -/
theorem singleStream_exact_iff
    (occupied : dom.Occupied) (inPart : dom.InPart space rank)
    (positive : 0 < width) :
    (∃ points,
      overlappedSchedule space rank block .singleStream dom width =
          some points ∧
        ∀ point, dom.Contains point ↔ point ∈ points) ↔
      (width : Int) ≤ dom.extent 2 := by
  have x := occupied 0 (by decide)
  have y := occupied 1 (by decide)
  have z := occupied 2 (by decide)
  have total : ∀ point : Point,
      point ∈ runKernel space rank block (dom.shrink width) ++
          singleBoundaryKernel space rank block dom width ↔
        (dom.shrink width).Contains point ∨
          ((dom.localMin 0 ≤ point.1 ∧ point.1 < dom.localMax 0) ∧
            (dom.localMin 1 ≤ point.2.1 ∧ point.2.1 < dom.localMax 1) ∧
              ((dom.localMin 2 ≤ point.2.2 ∧
                  point.2.2 < dom.localMin 2 + width) ∨
                (nearSide dom width point.1 point.2.1 = true ∧
                  dom.localMin 2 + width ≤ point.2.2 ∧
                    point.2.2 < dom.localMax 2 - width) ∨
                (dom.localMax 2 - width ≤ point.2.2 ∧
                  point.2.2 < dom.localMax 2))) := by
    intro point
    rw [List.mem_append, mem_runKernel (inPart.shrink width),
      singleBoundaryKernel, mem_columnKernel inPart]
    split <;> simp [mem_strideLoop_one, *]
  simp only [overlappedSchedule, if_neg positive.ne', Option.some.injEq,
    exists_eq_left', total]
  constructor
  · intro exact
    have lower : dom.localMin 2 ≤ dom.localMin 2 + width - 1 := by omega
    have upper : dom.localMin 2 + width - 1 < dom.localMin 2 + width := by
      omega
    have last := (exact (dom.localMin 0, dom.localMin 1,
      dom.localMin 2 + width - 1)).mpr
        (.inr ⟨⟨le_rfl, x.2⟩, ⟨le_rfl, y.2⟩, .inl ⟨lower, upper⟩⟩)
    have bounds : dom.localMin 2 + width - 1 < dom.localMax 2 := last.2.2.2
    rw [PSDomain.extent]
    omega
  · intro fits point
    rw [PSDomain.extent] at fits
    constructor
    · rintro ⟨xInside, yInside, zInside⟩
      by_cases near : nearSide dom width point.1 point.2.1 = true
      · refine .inr ⟨xInside, yInside, ?_⟩
        by_cases low : point.2.2 < dom.localMin 2 + width
        · exact .inl ⟨zInside.1, low⟩
        · by_cases high : dom.localMax 2 - width ≤ point.2.2
          · exact .inr (.inr ⟨high, zInside.2⟩)
          · exact .inr (.inl ⟨near, by omega, by omega⟩)
      · rw [nearSide_eq_true] at near
        push Not at near
        by_cases low : point.2.2 < dom.localMin 2 + width
        · exact .inr ⟨xInside, yInside, .inl ⟨zInside.1, low⟩⟩
        · by_cases high : dom.localMax 2 - width ≤ point.2.2
          · exact .inr ⟨xInside, yInside, .inr (.inr ⟨high, zInside.2⟩)⟩
          · exact .inl (shrink_contains_iff.mpr
              ⟨near.1, near.2, by omega, by omega⟩)
    · rintro (interior | ⟨xInside, yInside, zInside⟩)
      · obtain ⟨first, second, third⟩ := shrink_contains_iff.mp interior
        exact ⟨⟨by omega, by omega⟩, ⟨by omega, by omega⟩,
          ⟨by omega, by omega⟩⟩
      · refine ⟨xInside, yInside, ?_⟩
        rcases zInside with inside | ⟨-, inside⟩ | inside <;> omega

/-- Without a part of the domain both schedules compute nothing. -/
theorem noPart_exact
    (noPart : dom.NoPart) (inPart : dom.InPart space rank)
    (schedule : BoundarySchedule) :
    ∃ points,
      overlappedSchedule space rank block schedule dom width = some points ∧
        ∀ point, dom.Contains point ↔ point ∈ points := by
  have outside : ∀ point, ¬ dom.Contains point := noPart.not_contains
  have inner : ∀ point,
      point ∉ runKernel space rank block (dom.shrink width) := by
    intro point member
    rw [mem_runKernel (inPart.shrink width), shrink_contains_iff] at member
    have zero := noPart 0 (by decide)
    omega
  simp only [overlappedSchedule]
  split
  · exact ⟨_, rfl, fun point => iff_of_false (outside point) (inner point)⟩
  · cases schedule with
    | singleStream =>
        refine ⟨_, rfl, fun point => iff_of_false (outside point) ?_⟩
        rw [List.mem_append]
        rintro (interior | boundary)
        · exact inner point interior
        · rw [singleBoundaryKernel, mem_columnKernel inPart] at boundary
          have zero := noPart 0 (by decide)
          omega
    | multiStream =>
        have whole : ∀ stream ∈ xStreams width ++ yzStreams width,
            stream.points dom width = some (streamKernel dom stream.block) := by
          intro stream member
          have below : stream.dim < 3 := by
            rcases mem_streams.mp member with
              ⟨_, _, _, rfl⟩ | ⟨_, rfl⟩ | ⟨_, rfl⟩
            · exact Nat.zero_lt_succ 2
            · exact Nat.one_lt_succ_succ 1
            · exact Nat.lt_succ_self 2
          rw [Stream.points, PSDomain.getBoundary,
            if_pos (noPart stream.dim below)]
          rfl
        obtain ⟨kernels, mapped⟩ := Option.isSome_iff_exists.mp
          (FallibleMaps.mapM_isSome_iff.mpr fun stream member =>
            Option.isSome_of_eq_some (whole stream member))
        refine ⟨runKernel space rank block (dom.shrink width) ++
          kernels.flatten, ?_, fun point => iff_of_false (outside point) ?_⟩
        · rw [multiBoundaryKernels, mapped]
          rfl
        rw [List.mem_append, List.mem_flatten]
        rintro (interior | ⟨kernel, listed, boundary⟩)
        · exact inner point interior
        · obtain ⟨stream, member, equal⟩ :=
            (FallibleMaps.mem_of_mapM mapped kernel).mp listed
          rw [whole stream member, Option.some_inj] at equal
          rw [← equal, mem_streamKernel] at boundary
          exact outside point boundary.2

end Schedules

/--
The overlapped schedule computes exactly the local domain, and its chunks are a
partition, exactly if the local domain is as wide as its slabs.  From a width
of five on, the streams of the first two dimensions have no threads, and the
two slabs of the third have to cover the domain.
-/
theorem overlapped_schedule_exact_iff
    (space : GridSpaceMPI) (three : space.numDims = 3) (rank : Nat)
    (block : BlockDim) (schedule : BoundarySchedule) (dom : PSDomain)
    (overlapWidth : Nat) :
    ComputesDomain space rank block schedule
        (space.psDomainSetLocalSizeCUDA rank dom) overlapWidth ↔
      BoundaryFits (space.psDomainSetLocalSizeCUDA rank dom) overlapWidth
        schedule := by
  have cases := localDomain_cases three rank dom
  have inPart := localDomain_inPart space rank dom
  rw [ComputesDomain, and_iff_left (chunks_partition cases)]
  rcases cases with noPart | occupied
  · have fits : BoundaryFits (space.psDomainSetLocalSizeCUDA rank dom)
        overlapWidth schedule := by
      cases schedule <;> exact .inl noPart
    exact iff_of_true (noPart_exact noPart inPart schedule) fits
  · have part : ¬ (space.psDomainSetLocalSizeCUDA rank dom).NoPart := by
      intro noPart
      have zero := noPart 0 (by decide)
      have points := occupied 0 (by decide)
      omega
    rcases Nat.eq_zero_or_pos overlapWidth with rfl | positive
    · have fits : BoundaryFits (space.psDomainSetLocalSizeCUDA rank dom) 0
          schedule := by
        cases schedule <;> exact .inr (.inl rfl)
      refine iff_of_true ⟨_, rfl, fun point => ?_⟩ fits
      rw [mem_runKernel (inPart.shrink 0), shrink_contains_iff]
      simp [PSDomain.Contains]
    · cases schedule with
      | multiStream =>
          rw [multiStream_exact_iff occupied inPart positive, BoundaryFits,
            or_iff_right part, or_iff_right positive.ne']
      | singleStream =>
          rw [singleStream_exact_iff occupied inPart positive, BoundaryFits,
            or_iff_right part, or_iff_right positive.ne']

theorem eightCubed_procPos : ∀ i < 3, 0 < (IntegerArray.mk3 1 1 1 : IntArray) i := by decide

/-- An 8 × 8 × 8 space on one process. -/
def eightCubed : GridSpaceMPI where
  numDims := 3
  globalSize := IntegerArray.mk3 8 8 8
  procSize := IntegerArray.mk3 1 1 1
  globalPos := by decide
  procPos := eightCubed_procPos

/-- A domain of `extent` points in every dimension, at the origin -/
def cubeDomain (extent : Int) : PSDomain where
  min _ := 0
  max := IntegerArray.mk3 extent extent extent
  localMin _ := 0
  localMax _ := 0

/-- With slabs of two points the streams compute the whole space exactly. -/
theorem eightCubed_streams_exact :
    ComputesDomain eightCubed 0 ⟨64, 4, by decide, by decide⟩ .multiStream
      (eightCubed.psDomainSetLocalSizeCUDA 0 (cubeDomain 8)) 2 :=
  (overlapped_schedule_exact_iff eightCubed rfl 0
    ⟨64, 4, by decide, by decide⟩ .multiStream (cubeDomain 8) 2).mpr (by decide)

/-- A domain of two points is narrower than slabs of three points. -/
theorem eightCubed_narrow_not_exact :
    ¬ ComputesDomain eightCubed 0 ⟨64, 4, by decide, by decide⟩ .singleStream
      (eightCubed.psDomainSetLocalSizeCUDA 0 (cubeDomain 2)) 3 := by
  rintro ⟨exact, -⟩
  have occupied :
      (eightCubed.psDomainSetLocalSizeCUDA 0 (cubeDomain 2)).Occupied := by
    rw [PSDomain.Occupied]
    decide
  have wide := (singleStream_exact_iff occupied
    (localDomain_inPart eightCubed 0 (cubeDomain 2)) (by decide)).mp exact
  exact absurd wide (by decide)

end Physis.Runtime
