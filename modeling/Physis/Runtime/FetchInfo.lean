import Physis.Runtime.Neighbors

/-!
# Which process holds what part of a region

`CollectPerProcSubgridInfo` cuts a region of a grid along the partitions of
every dimension and lists the pieces with the processes that hold them.  For a
region inside a grid at the origin the pieces are inside the local subgrids of
their owners, belong to different processes, and cover the region.
-/

namespace Physis.Runtime

open Physis.Library
open Physis.Library.RowMajor

/-- `FetchInfo` -/
structure FetchInfo where
  peerIndex : IntArray
  peerOffset : IndexArray
  peerSize : IndexArray

namespace GridSpaceMPI

variable (space : GridSpaceMPI)

/--
The loop over the partitions of dimension `d`, from partition `pidx` and
coordinate `x` on, with `remaining` partitions left.
-/
def collectPartitions
    (d : Nat) (globalOffset gridLim : Int) (fetchInfo : List FetchInfo) :
    (remaining pidx : Nat) → (x : Int) → List FetchInfo
  | 0, _, _ => []
  | remaining + 1, pidx, x =>
      if x < gridLim then
        let last := space.offsets d pidx + space.partitions d pidx
        if x < last then
          (fetchInfo.map fun info =>
            { peerIndex := Function.update info.peerIndex d pidx
              peerOffset := Function.update info.peerOffset d (x - globalOffset)
              peerSize := Function.update info.peerSize d
                (min (last - x) (gridLim - x)) }) ++
            collectPartitions d globalOffset gridLim fetchInfo remaining
              (pidx + 1) last
        else
          collectPartitions d globalOffset gridLim fetchInfo remaining
            (pidx + 1) x
      else []

/-- `CollectPerProcSubgridInfo` after its first `dims` dimensions. -/
def collectDimensions
    (globalOffset gridOffset gridSize : IndexArray) : Nat → List FetchInfo
  | 0 => [⟨fun _ => 0, fun _ => 0, fun _ => 0⟩]
  | d + 1 =>
      space.collectPartitions d (globalOffset d) (gridOffset d + gridSize d)
        (collectDimensions globalOffset gridOffset gridSize d)
        (space.procSize d) 0 (gridOffset d + globalOffset d)

/-- `CollectPerProcSubgridInfo` -/
def collectPerProcSubgridInfo
    (globalOffset gridOffset gridSize : IndexArray) : List FetchInfo :=
  space.collectDimensions globalOffset gridOffset gridSize space.numDims

/-- The peer a piece is fetched from. -/
def peerRank (info : FetchInfo) : Nat :=
  space.getProcessRank info.peerIndex

/-! ## One dimension -/

/-- A part of `[offset, lim)` in dimension `d`, in partition `pidx`. -/
structure Cut
    (d : Nat) (offset lim : Int) (pidx : Nat) (first extent : Int) : Prop where
  inside : pidx < space.procSize d
  first_eq : first = max offset (space.offsets d pidx)
  extent_eq : extent = min (space.offsets d (pidx + 1)) lim - first
  positive : 0 < extent

/-- A piece with its entries for dimension `d` set. -/
def extendFetchInfo
    (d pidx : Nat) (first extent : Int) (info : FetchInfo) : FetchInfo where
  peerIndex := Function.update info.peerIndex d pidx
  peerOffset := Function.update info.peerOffset d first
  peerSize := Function.update info.peerSize d extent

variable {space} {d : Nat} {offset lim : Int} {fetchInfo : List FetchInfo}

/-- The loop lists, for every part of the region from `pidx` on, every piece so far. -/
theorem mem_collectPartitions
    (below : d < space.numDims) (info : FetchInfo)
    {remaining pidx : Nat} (total : pidx + remaining = space.procSize d) :
    info ∈ space.collectPartitions d 0 lim fetchInfo remaining pidx
        (max offset (space.offsets d pidx)) ↔
      ∃ p first extent, pidx ≤ p ∧ space.Cut d offset lim p first extent ∧
        ∃ before ∈ fetchInfo,
          info = extendFetchInfo d p first extent before := by
  induction remaining generalizing pidx with
  | zero =>
      constructor
      · intro member
        cases member
      · rintro ⟨p, first, extent, from_, cut, _⟩
        have inside := cut.inside
        omega
  | succ remaining induction =>
      have nonneg := space.partitions_nonneg below pidx
      have next : space.offsets d (pidx + 1) =
          space.offsets d pidx + space.partitions d pidx :=
        rfl
      have later : ∀ p, pidx < p →
          space.offsets d (pidx + 1) ≤ space.offsets d p :=
        fun p more => space.offsets_mono below more
      simp only [collectPartitions]
      by_cases unfinished : max offset (space.offsets d pidx) < lim
      · rw [if_pos unfinished]
        by_cases meets : max offset (space.offsets d pidx) <
            space.offsets d pidx + space.partitions d pidx
        · rw [if_pos meets]
          have advanced : space.offsets d pidx + space.partitions d pidx =
              max offset (space.offsets d (pidx + 1)) := by
            omega
          rw [List.mem_append, advanced, induction (by omega)]
          constructor
          · rintro (here | ⟨p, first, extent, from_, cut, found⟩)
            · obtain ⟨before, member, rfl⟩ := List.mem_map.mp here
              refine ⟨pidx, max offset (space.offsets d pidx),
                min (space.offsets d (pidx + 1)) lim -
                  max offset (space.offsets d pidx), le_rfl,
                ⟨by omega, rfl, rfl, by omega⟩, before, member, ?_⟩
              simp only [extendFetchInfo]
              congr 2
              · omega
              · omega
            · exact ⟨p, first, extent, by omega, cut, found⟩
          · rintro ⟨p, first, extent, from_, cut, before, member, rfl⟩
            rcases Nat.lt_or_ge pidx p with more | same
            · exact Or.inr ⟨p, first, extent, more, cut, before, member, rfl⟩
            · obtain rfl : p = pidx := by omega
              refine Or.inl (List.mem_map.mpr ⟨before, member, ?_⟩)
              have firstEq := cut.first_eq
              have extentEq := cut.extent_eq
              simp only [extendFetchInfo]
              congr 2
              · omega
              · omega
        · rw [if_neg meets]
          have kept : max offset (space.offsets d pidx) =
              max offset (space.offsets d (pidx + 1)) := by
            omega
          rw [kept, induction (by omega)]
          constructor
          · rintro ⟨p, first, extent, from_, found⟩
            exact ⟨p, first, extent, by omega, found⟩
          · rintro ⟨p, first, extent, from_, cut, found⟩
            refine ⟨p, first, extent, ?_, cut, found⟩
            rcases Nat.lt_or_ge pidx p with more | same
            · exact more
            · obtain rfl : p = pidx := by omega
              have firstEq := cut.first_eq
              have extentEq := cut.extent_eq
              have positive := cut.positive
              omega
      · rw [if_neg unfinished]
        constructor
        · intro member
          cases member
        · rintro ⟨p, first, extent, from_, cut, _⟩
          have firstEq := cut.first_eq
          have extentEq := cut.extent_eq
          have positive := cut.positive
          have more : space.offsets d pidx ≤ space.offsets d p :=
            space.offsets_mono below from_
          omega

/-! ## The list of any region -/

/-- A piece after `dims` dimensions has a peer and is not empty. -/
structure Listed (space : GridSpaceMPI) (dims : Nat) (info : FetchInfo) : Prop where
  inside : ∀ d < dims, info.peerIndex d < space.procSize d
  positive : ∀ d < dims, 0 < info.peerSize d
  beyond : ∀ d, dims ≤ d → info.peerIndex d = 0

theorem Listed.extend
    {info : FetchInfo} (listed : space.Listed d info)
    {pidx : Nat} (inside : pidx < space.procSize d)
    {first extent : Int} (positive : 0 < extent) :
    space.Listed (d + 1) (extendFetchInfo d pidx first extent info) := by
  constructor
  · intro i below
    rcases Nat.lt_or_ge i d with less | same
    · simp only [extendFetchInfo, Function.update_of_ne (Nat.ne_of_lt less)]
      exact listed.inside i less
    · obtain rfl : i = d := by omega
      simpa only [extendFetchInfo, Function.update_self]
  · intro i below
    rcases Nat.lt_or_ge i d with less | same
    · simp only [extendFetchInfo, Function.update_of_ne (Nat.ne_of_lt less)]
      exact listed.positive i less
    · obtain rfl : i = d := by omega
      simpa only [extendFetchInfo, Function.update_self]
  · intro i beyond
    simp only [extendFetchInfo, Function.update_of_ne (show i ≠ d by omega)]
    exact listed.beyond i (by omega)

/-- Whatever the bounds, the loop lists pieces with peers from `pidx` on, each once. -/
theorem collectPartitions_listed
    {globalOffset : Int} (listed : ∀ info ∈ fetchInfo, space.Listed d info)
    (once : (fetchInfo.map FetchInfo.peerIndex).Nodup)
    {remaining pidx : Nat} (total : pidx + remaining = space.procSize d) (x : Int) :
    (∀ info ∈ space.collectPartitions d globalOffset lim fetchInfo remaining pidx x,
      space.Listed (d + 1) info ∧ pidx ≤ info.peerIndex d) ∧
    ((space.collectPartitions d globalOffset lim fetchInfo remaining pidx x).map
      FetchInfo.peerIndex).Nodup := by
  induction remaining generalizing pidx x with
  | zero => simp [collectPartitions]
  | succ remaining induction =>
      simp only [collectPartitions]
      split
      · rename_i unfinished
        split
        · rename_i meets
          obtain ⟨laterListed, laterOnce⟩ := @induction (pidx + 1) (by omega)
            (space.offsets d pidx + space.partitions d pidx)
          constructor
          · intro info member
            rcases List.mem_append.mp member with here | later
            · obtain ⟨before, isBefore, rfl⟩ := List.mem_map.mp here
              refine ⟨(listed before isBefore).extend (by omega) (by omega), ?_⟩
              simp only [Function.update_self, le_refl]
            · obtain ⟨isListed, from_⟩ := laterListed info later
              exact ⟨isListed, by omega⟩
          · rw [List.map_append, List.map_map]
            refine List.Nodup.append ?_ laterOnce ?_
            · have restored : (fetchInfo.map fun info =>
                  Function.update info.peerIndex d pidx).map
                    (fun index => Function.update index d 0) =
                  fetchInfo.map FetchInfo.peerIndex := by
                rw [List.map_map]
                apply List.map_congr_left
                intro info member
                rw [Function.comp_apply, Function.update_idem,
                  ← (listed info member).beyond d le_rfl, Function.update_eq_self]
              rw [← restored] at once
              exact once.of_map
            · intro index here later
              obtain ⟨before, _, rfl⟩ := List.mem_map.mp here
              obtain ⟨info, member, same⟩ := List.mem_map.mp later
              have from_ := (laterListed info member).2
              rw [same] at from_
              simp only [Function.comp_apply, Function.update_self] at from_
              omega
        · obtain ⟨laterListed, laterOnce⟩ := @induction (pidx + 1) (by omega) x
          refine ⟨fun info member => ?_, laterOnce⟩
          obtain ⟨isListed, from_⟩ := laterListed info member
          exact ⟨isListed, by omega⟩
      · simp

theorem collectDimensions_listed
    (globalOffset gridOffset gridSize : IndexArray) (dims : Nat) :
    (∀ info ∈ space.collectDimensions globalOffset gridOffset gridSize dims,
      space.Listed dims info) ∧
    ((space.collectDimensions globalOffset gridOffset gridSize dims).map
      FetchInfo.peerIndex).Nodup := by
  induction dims with
  | zero =>
      rw [collectDimensions]
      refine ⟨?_, List.nodup_singleton _⟩
      intro info member
      rw [List.mem_singleton] at member
      subst member
      exact ⟨fun _ impossible => absurd impossible (Nat.not_lt_zero _),
        fun _ impossible => absurd impossible (Nat.not_lt_zero _), fun _ _ => rfl⟩
  | succ dims induction =>
      rw [collectDimensions]
      obtain ⟨listed, once⟩ := collectPartitions_listed induction.1 induction.2
        (Nat.zero_add _) (gridOffset dims + globalOffset dims)
      exact ⟨fun info member => (listed info member).1, once⟩

theorem Listed.peerRank_lt
    {info : FetchInfo} (listed : space.Listed space.numDims info) :
    space.peerRank info < space.numProcs :=
  space.getProcessRank_lt listed.inside

/-- Different pieces have different peers. -/
theorem nodup_peers (globalOffset gridOffset gridSize : IndexArray) :
    ((space.collectPerProcSubgridInfo globalOffset gridOffset gridSize).map
      space.peerRank).Nodup := by
  obtain ⟨listed, once⟩ := space.collectDimensions_listed globalOffset gridOffset gridSize
    space.numDims
  apply once.of_map.map_on
  intro left leftMember right rightMember same
  apply List.inj_on_of_nodup_map once leftMember rightMember
  funext d
  by_cases below : d < space.numDims
  · rw [← space.procIndices_getProcessRank (listed left leftMember).inside below,
      ← space.procIndices_getProcessRank (listed right rightMember).inside below]
    exact congrArg (fun rank => space.procIndices rank d) same
  · rw [(listed left leftMember).beyond d (by omega),
      (listed right rightMember).beyond d (by omega)]

/-! ## The pieces -/

/-- A piece after `dims` dimensions: a part in each, and nothing beyond. -/
structure Piece
    (space : GridSpaceMPI) (dims : Nat) (gridOffset gridSize : IndexArray)
    (info : FetchInfo) : Prop where
  cut : ∀ d < dims, space.Cut d (gridOffset d) (gridOffset d + gridSize d)
    (info.peerIndex d) (info.peerOffset d) (info.peerSize d)
  unset : ∀ d, dims ≤ d →
    info.peerIndex d = 0 ∧ info.peerOffset d = 0 ∧ info.peerSize d = 0

/-- A region of a grid at the origin of the space. -/
structure RegionInside
    (space : GridSpaceMPI) (size globalOffset gridOffset gridSize : IndexArray) :
    Prop where
  origin : ∀ d < space.numDims, globalOffset d = 0
  lower : ∀ d < space.numDims, 0 ≤ gridOffset d
  extent : ∀ d < space.numDims, 0 ≤ gridSize d
  upper : ∀ d < space.numDims, gridOffset d + gridSize d ≤ size d

variable {size globalOffset gridOffset gridSize : IndexArray}

section Region

variable (region : space.RegionInside size globalOffset gridOffset gridSize)

include region

theorem RegionInside.collect_succ (below : d < space.numDims) :
    space.collectDimensions globalOffset gridOffset gridSize (d + 1) =
      space.collectPartitions d 0 (gridOffset d + gridSize d)
        (space.collectDimensions globalOffset gridOffset gridSize d)
        (space.procSize d) 0 (max (gridOffset d) (space.offsets d 0)) := by
  have lower := region.lower d below
  have start : max (gridOffset d) (space.offsets d 0) = gridOffset d := by
    simp only [offsets]
    omega
  rw [collectDimensions, region.origin d below, start, add_zero]

/-- The list is that of all pieces. -/
theorem RegionInside.mem_collectDimensions
    {dims : Nat} (bounded : dims ≤ space.numDims) (info : FetchInfo) :
    info ∈ space.collectDimensions globalOffset gridOffset gridSize dims ↔
      space.Piece dims gridOffset gridSize info := by
  induction dims generalizing info with
  | zero =>
      rw [collectDimensions, List.mem_singleton]
      constructor
      · rintro rfl
        exact ⟨fun _ impossible => absurd impossible (Nat.not_lt_zero _),
          fun _ _ => ⟨rfl, rfl, rfl⟩⟩
      · intro piece
        obtain ⟨index, offset, extent⟩ := info
        congr 1
        · funext d
          exact (piece.unset d (Nat.zero_le _)).1
        · funext d
          exact (piece.unset d (Nat.zero_le _)).2.1
        · funext d
          exact (piece.unset d (Nat.zero_le _)).2.2
  | succ dims induction =>
      rw [region.collect_succ (by omega), mem_collectPartitions (by omega) _ (by omega)]
      constructor
      · rintro ⟨p, first, extent, _, cut, before, member, rfl⟩
        have piece := (induction (by omega) before).mp member
        constructor
        · intro d below
          rcases Nat.lt_or_ge d dims with less | here
          · simp only [extendFetchInfo, Function.update_of_ne (Nat.ne_of_lt less)]
            exact piece.cut d less
          · obtain rfl : d = dims := by omega
            simp only [extendFetchInfo, Function.update_self]
            exact cut
        · intro d beyond
          simp only [extendFetchInfo,
            Function.update_of_ne (show d ≠ dims by omega)]
          exact piece.unset d (by omega)
      · intro piece
        refine ⟨info.peerIndex dims, info.peerOffset dims, info.peerSize dims,
          Nat.zero_le _, piece.cut dims (by omega),
          extendFetchInfo dims 0 0 0 info, ?_, ?_⟩
        · rw [induction (by omega)]
          constructor
          · intro d less
            simp only [extendFetchInfo, Function.update_of_ne (Nat.ne_of_lt less)]
            exact piece.cut d (by omega)
          · intro d beyond
            rcases Nat.lt_or_ge dims d with more | here
            · simp only [extendFetchInfo, Function.update_of_ne (Nat.ne_of_gt more)]
              exact piece.unset d (by omega)
            · obtain rfl : d = dims := by omega
              simp [extendFetchInfo]
        · simp [extendFetchInfo]

end Region

/-- The cell lies in the piece. -/
def InPiece (space : GridSpaceMPI) (info : FetchInfo) (cell : IndexArray) : Prop :=
  ∀ d < space.numDims,
    info.peerOffset d ≤ cell d ∧ cell d < info.peerOffset d + info.peerSize d

/-- The cell lies in the region. -/
def InRegion
    (space : GridSpaceMPI) (gridOffset gridSize cell : IndexArray) : Prop :=
  ∀ d < space.numDims, gridOffset d ≤ cell d ∧ cell d < gridOffset d + gridSize d

section Pieces

variable {info : FetchInfo}

theorem Piece.peerIndex_lt
    (piece : space.Piece space.numDims gridOffset gridSize info) :
    ∀ d < space.numDims, info.peerIndex d < space.procSize d :=
  fun d below => (piece.cut d below).inside

theorem Piece.peerRank_lt
    (piece : space.Piece space.numDims gridOffset gridSize info) :
    space.peerRank info < space.numProcs :=
  space.getProcessRank_lt piece.peerIndex_lt

variable (region : space.RegionInside size globalOffset gridOffset gridSize)

include region

theorem RegionInside.mem_iff (info : FetchInfo) :
    info ∈ space.collectPerProcSubgridInfo globalOffset gridOffset gridSize ↔
      space.Piece space.numDims gridOffset gridSize info :=
  region.mem_collectDimensions le_rfl info

/-- A piece lies in the region, and in the local subgrid of its peer. -/
theorem RegionInside.piece_bounds
    (piece : space.Piece space.numDims gridOffset gridSize info)
    (below : d < space.numDims) :
    gridOffset d ≤ info.peerOffset d ∧
      info.peerOffset d + info.peerSize d ≤ gridOffset d + gridSize d ∧
      space.localOffset (space.peerRank info) space.numDims globalOffset d ≤
        info.peerOffset d ∧
      info.peerOffset d + info.peerSize d ≤
        space.localOffset (space.peerRank info) space.numDims globalOffset d +
          space.localSize (space.peerRank info) space.numDims size globalOffset
            d := by
  have cut := piece.cut d below
  have first := cut.first_eq
  have extent := cut.extent_eq
  have positive := cut.positive
  have lower := region.lower d below
  have upper := region.upper d below
  have origin := region.origin d below
  have index : space.procIndices (space.peerRank info) d = info.peerIndex d :=
    space.procIndices_getProcessRank piece.peerIndex_lt below
  have owned : ∀ cell : Int, info.peerOffset d ≤ cell →
      cell < info.peerOffset d + info.peerSize d →
        space.localOffset (space.peerRank info) space.numDims globalOffset d ≤
            cell ∧
          cell < space.localOffset (space.peerRank info) space.numDims
              globalOffset d +
            space.localSize (space.peerRank info) space.numDims size
              globalOffset d := by
    intro cell atLeast less
    rw [space.mem_local_iff below (by omega) (by omega), index]
    omega
  have firstOwned := owned (info.peerOffset d) le_rfl (by omega)
  have lastOwned := owned (info.peerOffset d + info.peerSize d - 1) (by omega)
    (by omega)
  omega

/-- The cells of a piece belong to its peer. -/
theorem RegionInside.piece_owns
    (piece : space.Piece space.numDims gridOffset gridSize info)
    {cell : IndexArray} (inside : space.InPiece info cell) :
    space.Owns (space.peerRank info) size globalOffset cell := by
  intro d below
  have bounds := region.piece_bounds piece below
  have member := inside d below
  omega

/-- The pieces cover the region. -/
theorem RegionInside.exists_piece
    (fits : ∀ d < space.numDims, size d ≤ space.globalSize d)
    {cell : IndexArray} (inside : space.InRegion gridOffset gridSize cell) :
    ∃ info, space.Piece space.numDims gridOffset gridSize info ∧
      space.InPiece info cell := by
  have located : ∀ d, ∃ p, d < space.numDims →
      p < space.procSize d ∧ space.offsets d p ≤ cell d ∧
        cell d < space.offsets d (p + 1) := by
    intro d
    by_cases below : d < space.numDims
    · have bounds := inside d below
      have lower := region.lower d below
      have upper := region.upper d below
      have fit := fits d below
      obtain ⟨p, bound, member⟩ :=
        space.exists_partition below (show 0 ≤ cell d by omega) (by omega)
      exact ⟨p, fun _ => ⟨bound, member⟩⟩
    · exact ⟨0, fun impossible => absurd impossible below⟩
  choose peer located using located
  let first : Nat → Int := fun d => max (gridOffset d) (space.offsets d (peer d))
  let info : FetchInfo :=
    { peerIndex := fun d => if d < space.numDims then peer d else 0
      peerOffset := fun d => if d < space.numDims then first d else 0
      peerSize := fun d =>
        if d < space.numDims then
          min (space.offsets d (peer d + 1)) (gridOffset d + gridSize d) - first d
        else 0 }
  refine ⟨info, ⟨?_, ?_⟩, ?_⟩
  · intro d below
    have bounds := inside d below
    have found := located d below
    simp only [info, if_pos below]
    exact ⟨found.1, rfl, rfl, by simp only [first]; omega⟩
  · intro d beyond
    simp only [info, if_neg (Nat.not_lt_of_ge beyond)]
    exact ⟨trivial, trivial, trivial⟩
  · intro d below
    have bounds := inside d below
    have found := located d below
    simp only [info, if_pos below, first]
    omega

end Pieces

end GridSpaceMPI

end Physis.Runtime
