import Physis.Runtime.Neighbors
import Physis.Translator.StencilRange

/-!
# The region of a stencil that is not a neighbour stencil

For a stencil that uses every index variable in its own way, the translator
emits one index variable and the least and greatest offset for each dimension.
The runtime computes the region to load from them: the local subgrid along the
index variable, mirrored for a negative one, moved by the least offset.
-/

namespace Physis.Runtime

open Physis.Library
open Physis.Library.RowMajor
open Physis.Translator

variable {α : Type}

/-- `abs(dims[i])-1` -/
def sourceDim (dim : Int) : Nat :=
  dim.natAbs - 1

/-- `base_offset[i]` -/
def GridMPI.baseOffset (gm : GridMPI α) (dim : Int) : Int :=
  if dim ≠ 0 then gm.localOffset (sourceDim dim) else 0

/-- `base_size[i]` -/
def GridMPI.baseSize (gm : GridMPI α) (dim : Int) : Int :=
  if dim ≠ 0 then gm.localSize (sourceDim dim) else 1

/-- `offset[i]` before it is clipped -/
def GridMPI.regionStart (gm : GridMPI α) (dim minOffset : Int) : Int :=
  if 0 ≤ dim then gm.baseOffset dim + minOffset
  else -(gm.baseOffset dim + gm.baseSize dim) + 1 + minOffset

/--
The free function `LoadSubgrid`: the offset and the size of the region it asks
for; `none` where it reads beyond the array `dims`, or where
`GridSpaceMPI::LoadSubgrid` aborts because the size is negative.
-/
def loadSubgrid
    (gm : GridMPI α) (dims : List Int) (minOffsets _maxOffsets : IndexArray) :
    Option (IndexArray × IndexArray) :=
  if dims.length < gm.numDims then none
  else
    let offset : IndexArray := fun i =>
      if i < gm.numDims then gm.regionStart (dims.getD i 0) (minOffsets i)
      else 0
    let baseSize : IndexArray := fun i =>
      if i < gm.numDims then gm.baseSize (dims.getD i 0) else 0
    let right : IndexArray := fun i => offset i + baseSize i
    let offset : IndexArray := fun i => max (offset i) 0
    let right : IndexArray := fun i => min (right i) (gm.size i)
    let size : IndexArray := fun i => right i - offset i
    -- the assertion on the offset holds after the maximum with zero
    if ∀ i < psMaxDim, 0 ≤ size i then some (offset, size) else none

/--
`__PSLoadSubgrid2D` and `__PSLoadSubgrid3D`; `none` where the assertion on the
index variables fails.
-/
def psLoadSubgrid (gm : GridMPI α) (call : SubgridCall) :
    Option (IndexArray × IndexArray) :=
  if call.minDims = call.maxDims then
    loadSubgrid gm call.minDims (fun i => call.minOffsets.getD i 0)
      (fun i => call.maxOffsets.getD i 0)
  else none

/-! ## Accesses -/

/-- The position an index names at a point of the domain. -/
def position (si : StencilIndex) (point : IndexArray) : Int :=
  if si.dim = 0 then si.offset
  else if 0 < si.dim then point (sourceDim si.dim) + si.offset
  else -point (sourceDim si.dim) + si.offset

/-- The cell an access reads at a point of the domain. -/
def accessCell (access : StencilIndexList) (point : IndexArray) : IndexArray :=
  fun i =>
    match access[i]? with
    | some si => position si point
    | none => 0

/-- The point lies in the local subgrid. -/
def GridMPI.LocalPoint (gm : GridMPI α) (point : IndexArray) : Prop :=
  ∀ i < gm.numDims,
    gm.localOffset i ≤ point i ∧ point i < gm.localOffset i + gm.localSize i

/--
The region loaded for a stencil contains every cell inside the grid that an
access reads at a local point, and it lies inside the grid.
-/
def SubgridCovers
    (gm : GridMPI α) (numDims : Nat) (accesses : List StencilIndexList) :
    Prop :=
  ∃ call,
    buildCallLoadSubgridUniqueDim (.ofAccesses numDims accesses) = some call ∧
    ∃ offset size, psLoadSubgrid gm call = some (offset, size) ∧
      (∀ access ∈ accesses, ∀ point, gm.LocalPoint point →
        InBox gm.numDims gm.size (accessCell access point) →
          ∀ i < gm.numDims,
            offset i ≤ accessCell access point i ∧
              accessCell access point i < offset i + size i) ∧
      ∀ cell,
        (∀ i < gm.numDims, offset i ≤ cell i ∧ cell i < offset i + size i) →
          InBox gm.numDims gm.size cell

/--
The point moved by `excess` in the reading direction of an index is still
local; a fixed position cannot move.
-/
def StaysLocal
    (gm : GridMPI α) (dim excess : Int) (point : IndexArray) : Prop :=
  if dim = 0 then excess ≤ 0
  else if 0 < dim then
    point (sourceDim dim) + excess <
      gm.localOffset (sourceDim dim) + gm.localSize (sourceDim dim)
  else gm.localOffset (sourceDim dim) ≤ point (sourceDim dim) - excess

/--
Moving the local subgrid by the least offset is enough: the stencil names all
dimensions of the grid, and an access is inside the grid only at local points
that stay local when they are moved by how much its offset is above another's.
-/
def LeastOffsetSuffices
    (gm : GridMPI α) (numDims : Nat) (accesses : List StencilIndexList) :
    Prop :=
  gm.numDims ≤ numDims ∧
    ∀ access ∈ accesses, ∀ point, gm.LocalPoint point →
      InBox gm.numDims gm.size (accessCell access point) →
        ∀ other ∈ accesses, ∀ i < gm.numDims, ∀ si otherSi,
          access[i]? = some si → other[i]? = some otherSi →
            StaysLocal gm si.dim (si.offset - otherSi.offset) point

/--
The local subgrid moved by the least offset is not past the grid: in every
dimension, with the least offset, some local point reads a cell of the grid or
one next to it.
-/
structure LeastOffsetMeetsGrid
    (gm : GridMPI α) (accesses : List StencilIndexList) : Prop where
  meets : ∀ i < gm.numDims, ∃ access ∈ accesses, ∃ si,
    access[i]? = some si ∧
      (∀ other ∈ accesses, ∀ otherSi, other[i]? = some otherSi →
        si.offset ≤ otherSi.offset) ∧
      ∃ point, gm.LocalPoint point ∧
        -1 ≤ position si point ∧ position si point ≤ gm.size i
  extents : ∀ i < psMaxDim, 0 ≤ gm.size i

section Region

variable {gm : GridMPI α} {si : StencilIndex} {point : IndexArray}

/-- A read never lies before the start of the region. -/
theorem regionStart_le_position
    (isLocal : gm.LocalPoint point)
    (named : si.dim.natAbs ≤ gm.numDims)
    {minOffset : Int} (least : minOffset ≤ si.offset) :
    gm.regionStart si.dim minOffset ≤ position si point := by
  rw [GridMPI.regionStart, GridMPI.baseOffset, GridMPI.baseSize, position]
  by_cases fixed : si.dim = 0
  · simp [fixed, least]
  · have inside := isLocal (sourceDim si.dim) (by rw [sourceDim]; omega)
    rw [if_pos fixed, if_pos fixed, if_neg fixed]
    split <;> split <;> omega

/-- A read lies before the end of the region if its point stays local. -/
theorem position_lt_regionEnd_iff (minOffset : Int) :
    position si point <
        gm.regionStart si.dim minOffset + gm.baseSize si.dim ↔
      StaysLocal gm si.dim (si.offset - minOffset) point := by
  rw [GridMPI.regionStart, GridMPI.baseOffset, GridMPI.baseSize, position,
    StaysLocal]
  by_cases fixed : si.dim = 0
  · simp [fixed]
  · rw [if_pos fixed, if_pos fixed, if_neg fixed, if_neg fixed]
    split <;> split <;> omega

/-- What local points read with one index is an interval as long as the region. -/
theorem exists_position_iff
    (occupied : ∀ i < gm.numDims, 0 < gm.localSize i)
    (named : si.dim.natAbs ≤ gm.numDims) {upper : Int} (nonneg : 0 ≤ upper) :
    (∃ point, gm.LocalPoint point ∧
        -1 ≤ position si point ∧ position si point ≤ upper) ↔
      gm.regionStart si.dim si.offset ≤ upper ∧
        0 ≤ gm.regionStart si.dim si.offset + gm.baseSize si.dim := by
  rw [GridMPI.regionStart, GridMPI.baseOffset, GridMPI.baseSize]
  by_cases fixed : si.dim = 0
  · rw [if_neg (not_not.mpr fixed), if_neg (not_not.mpr fixed), if_pos fixed.ge]
    constructor
    · rintro ⟨point, _, lower, higher⟩
      rw [position, if_pos fixed] at lower higher
      omega
    · rintro ⟨higher, lower⟩
      refine ⟨gm.localOffset, fun i below => ?_, ?_⟩
      · have positive := occupied i below
        omega
      · rw [position, if_pos fixed]
        omega
  · have below : sourceDim si.dim < gm.numDims := by rw [sourceDim]; omega
    have positive := occupied _ below
    rw [if_pos fixed, if_pos fixed]
    constructor
    · rintro ⟨point, isLocal, lower, higher⟩
      have inside := isLocal _ below
      rw [position, if_neg fixed] at lower higher
      split at lower <;> split <;> omega
    · -- the local point whose read is closest to the grid
      rintro ⟨higher, lower⟩
      obtain ⟨along, start, finish, lands⟩ : ∃ along,
          gm.localOffset (sourceDim si.dim) ≤ along ∧
            along < gm.localOffset (sourceDim si.dim) +
              gm.localSize (sourceDim si.dim) ∧
            -1 ≤ (if 0 < si.dim then along + si.offset else -along + si.offset) ∧
            (if 0 < si.dim then along + si.offset else -along + si.offset) ≤
              upper := by
        by_cases ahead : 0 < si.dim
        · rw [if_pos (by omega)] at higher lower
          simp only [if_pos ahead]
          exact ⟨max (gm.localOffset (sourceDim si.dim)) (-1 - si.offset),
            by omega, by omega, by omega, by omega⟩
        · rw [if_neg (by omega)] at higher lower
          simp only [if_neg ahead]
          exact ⟨min (gm.localOffset (sourceDim si.dim) +
            gm.localSize (sourceDim si.dim) - 1) (si.offset + 1),
            by omega, by omega, by omega, by omega⟩
      refine ⟨Function.update gm.localOffset (sourceDim si.dim) along,
        fun i inner => ?_, ?_⟩
      · by_cases same : i = sourceDim si.dim
        · subst i
          rw [Function.update_self]
          exact ⟨start, finish⟩
        · have other := occupied i inner
          rw [Function.update_of_ne same]
          omega
      · rw [position, if_neg fixed, Function.update_self]
        exact lands

/-- A point that stays local for one excess stays local for a smaller one. -/
theorem StaysLocal.mono
    {dim excess smaller : Int} (stays : StaysLocal gm dim excess point)
    (order : smaller ≤ excess) : StaysLocal gm dim smaller point := by
  rw [StaysLocal] at stays ⊢
  split
  · rename_i fixed
    rw [if_pos fixed] at stays
    omega
  · rename_i moving
    rw [if_neg moving] at stays
    split
    · rename_i ahead
      rw [if_pos ahead] at stays
      omega
    · rename_i mirrored
      rw [if_neg mirrored] at stays
      omega

end Region

/-! ## The loaded region -/

section Table

variable
    {gm : GridMPI α} {sr : StencilRange} {accesses : List StencilIndexList}

/-- The arguments of the emitted call, dimension by dimension -/
theorem getD_map_range (f : Nat → Int) {count i : Nat} (below : i < count) :
    ((List.range count).map f).getD i 0 = f i := by
  simp [List.getD_eq_getElem?_getD, below]

/-- The assertions of the runtime hold for every emitted call. -/
theorem emitted_dims
    (tabulates : sr.Tabulates accesses) (unique : sr.isUniqueDim = true) :
    (List.range sr.numDims).map (fun i => (front (sr.minIndices i)).dim) =
      (List.range sr.numDims).map
        (fun i => (front (sr.maxIndices i)).dim) := by
  refine List.map_congr_left fun i member => ?_
  have below := List.mem_range.mp member
  obtain ⟨access, listed, found⟩ := tabulates.front_attained unique below
  exact (tabulates.front_max unique below listed found).1.symm

/-- The start and the right end of the region before the assertion on its size -/
def GridMPI.regionBounds (gm : GridMPI α) (dim minOffset : Int) (i : Nat) : Int × Int :=
  (max (gm.regionStart dim minOffset) 0,
    min (gm.regionStart dim minOffset + gm.baseSize dim) (gm.size i))

/-- The region of an emitted call, with its right end -/
theorem loadSubgrid_emitted
    (gm : GridMPI α) (enough : gm.numDims ≤ sr.numDims)
    (dims offsets : Nat → Int) (maxOffsets offset size : IndexArray)
    (loads : loadSubgrid gm ((List.range sr.numDims).map dims)
      (fun i => ((List.range sr.numDims).map offsets).getD i 0)
      maxOffsets = some (offset, size)) :
    ∀ i < gm.numDims,
      (offset i, offset i + size i) =
        gm.regionBounds (dims i) (offsets i) i := by
  rw [loadSubgrid, if_neg (by simpa using enough)] at loads
  dsimp only at loads
  split at loads
  · cases loads
    intro i below
    simp only [if_pos below, getD_map_range dims (below.trans_le enough),
      getD_map_range offsets (below.trans_le enough), GridMPI.regionBounds,
      Prod.mk.injEq, true_and]
    ring
  · cases loads

/-- The call is answered exactly if no extent of the region is negative. -/
theorem exists_loadSubgrid_emitted
    (gm : GridMPI α) (enough : gm.numDims ≤ sr.numDims)
    (dims offsets : Nat → Int) (maxOffsets : IndexArray) :
    (∃ offset size,
      loadSubgrid gm ((List.range sr.numDims).map dims)
        (fun i => ((List.range sr.numDims).map offsets).getD i 0)
        maxOffsets = some (offset, size)) ↔
      ∀ i < psMaxDim,
        if i < gm.numDims then
          (gm.regionBounds (dims i) (offsets i) i).1 ≤
            (gm.regionBounds (dims i) (offsets i) i).2
        else 0 ≤ gm.size i := by
  rw [loadSubgrid, if_neg (by simpa using enough)]
  have extent : ∀ i, 0 ≤ min ((if i < gm.numDims then
            gm.regionStart (((List.range sr.numDims).map dims).getD i 0)
              (((List.range sr.numDims).map offsets).getD i 0)
          else 0) + if i < gm.numDims then
            gm.baseSize (((List.range sr.numDims).map dims).getD i 0) else 0)
          (gm.size i) -
        max (if i < gm.numDims then
            gm.regionStart (((List.range sr.numDims).map dims).getD i 0)
              (((List.range sr.numDims).map offsets).getD i 0)
          else 0) 0 ↔
      if i < gm.numDims then
        (gm.regionBounds (dims i) (offsets i) i).1 ≤
          (gm.regionBounds (dims i) (offsets i) i).2
      else 0 ≤ gm.size i := by
    intro i
    by_cases below : i < gm.numDims
    · simp only [if_pos below, getD_map_range dims (below.trans_le enough),
        getD_map_range offsets (below.trans_le enough), GridMPI.regionBounds]
      exact sub_nonneg
    · simp only [if_neg below]
      omega
  simp only [extent]
  split
  · rename_i asserted
    exact ⟨fun _ => asserted, fun _ => ⟨_, _, rfl⟩⟩
  · rename_i aborts
    constructor
    · rintro ⟨_, _, impossible⟩
      cases impossible
    · intro asserted
      exact absurd asserted aborts

end Table

/-- The stencils of which the translator emits a table for the runtime. -/
structure TabulatedStencil
    (gm : GridMPI α) (numDims : Nat) (accesses : List StencilIndexList) :
    Prop where
  runtime : numDims = 2 ∨ numDims = 3
  complete : ∀ access ∈ accesses, access.length = numDims
  named : ∀ access ∈ accesses, ∀ si ∈ access, si.dim.natAbs ≤ gm.numDims
  unique : (StencilRange.ofAccesses numDims accesses).isUniqueDim = true

namespace TabulatedStencil

variable
    {gm : GridMPI α} {numDims : Nat} {accesses : List StencilIndexList}

/-- The index variable and the least offset of a dimension -/
def least (numDims : Nat) (accesses : List StencilIndexList) (i : Nat) :
    StencilIndex :=
  front ((StencilRange.ofAccesses numDims accesses).minIndices i)

theorem builds (stencil : TabulatedStencil gm numDims accesses) :
    buildCallLoadSubgridUniqueDim (.ofAccesses numDims accesses) =
      some (StencilRange.ofAccesses numDims accesses).arguments := by
  have dims := StencilRange.numDims_ofAccesses numDims accesses
  rw [buildCallLoadSubgridUniqueDim,
    if_pos ⟨stencil.unique, by rw [dims]; exact stencil.runtime⟩]

/-- The runtime's region, if the stencil names all dimensions of the grid. -/
theorem region
    (stencil : TabulatedStencil gm numDims accesses)
    (enough : gm.numDims ≤ numDims) {offset size : IndexArray}
    (loads : psLoadSubgrid gm (StencilRange.ofAccesses numDims accesses).arguments =
      some (offset, size)) :
    ∀ i < gm.numDims,
      offset i =
          max (gm.regionStart (least numDims accesses i).dim
            (least numDims accesses i).offset) 0 ∧
        offset i + size i =
          min (gm.regionStart (least numDims accesses i).dim
              (least numDims accesses i).offset +
            gm.baseSize (least numDims accesses i).dim) (gm.size i) := by
  have tabulates := StencilRange.tabulates_ofAccesses numDims accesses
  have dims := StencilRange.numDims_ofAccesses numDims accesses
  rw [psLoadSubgrid, StencilRange.arguments] at loads
  simp only [if_pos (emitted_dims tabulates stencil.unique)] at loads
  intro i below
  have bounds := loadSubgrid_emitted gm (enough.trans_eq dims.symm)
    (fun i => (least numDims accesses i).dim)
    (fun i => (least numDims accesses i).offset) _ offset size loads i below
  exact ⟨congrArg Prod.fst bounds, congrArg Prod.snd bounds⟩

/-- Without a dimension of the grid the runtime reads beyond its array. -/
theorem no_region
    (missing : numDims < gm.numDims) :
    psLoadSubgrid gm (StencilRange.ofAccesses numDims accesses).arguments =
      none := by
  have dims := StencilRange.numDims_ofAccesses numDims accesses
  rw [psLoadSubgrid]
  split
  · rw [loadSubgrid, if_pos (by simpa [StencilRange.arguments, dims])]
  · rfl

/-- Every access has the least index's variable, and at least its offset. -/
theorem least_le
    (stencil : TabulatedStencil gm numDims accesses)
    {access : StencilIndexList} (member : access ∈ accesses)
    {i : Nat} (below : i < numDims) {si : StencilIndex}
    (found : access[i]? = some si) :
    (least numDims accesses i).dim = si.dim ∧
      (least numDims accesses i).offset ≤ si.offset :=
  (StencilRange.tabulates_ofAccesses numDims accesses).front_min stencil.unique
    (below.trans_eq (StencilRange.numDims_ofAccesses _ _).symm) member found

theorem least_attained
    (stencil : TabulatedStencil gm numDims accesses)
    {i : Nat} (below : i < numDims) :
    ∃ access ∈ accesses, access[i]? = some (least numDims accesses i) :=
  (StencilRange.tabulates_ofAccesses numDims accesses).front_attained
    stencil.unique
    (below.trans_eq (StencilRange.numDims_ofAccesses _ _).symm)

/-- The load is answered exactly if the moved subgrid is not past the grid. -/
theorem exists_region_iff
    (stencil : TabulatedStencil gm numDims accesses)
    (enough : gm.numDims ≤ numDims)
    (occupied : ∀ i < gm.numDims, 0 < gm.localSize i) :
    (∃ offset size,
      psLoadSubgrid gm (StencilRange.ofAccesses numDims accesses).arguments =
        some (offset, size)) ↔
      LeastOffsetMeetsGrid gm accesses := by
  have tabulates := StencilRange.tabulates_ofAccesses numDims accesses
  have dims := StencilRange.numDims_ofAccesses numDims accesses
  have three : numDims ≤ psMaxDim := by
    rcases stencil.runtime with two | three
    · rw [two]
      decide
    · rw [three]
      decide
  rw [psLoadSubgrid, StencilRange.arguments]
  simp only [if_pos (emitted_dims tabulates stencil.unique)]
  refine (exists_loadSubgrid_emitted gm (enough.trans_eq dims.symm)
    (fun i => (least numDims accesses i).dim)
    (fun i => (least numDims accesses i).offset) _).trans ?_
  have named : ∀ i < gm.numDims,
      (least numDims accesses i).dim.natAbs ≤ gm.numDims := by
    intro i below
    obtain ⟨access, member, found⟩ := stencil.least_attained (below.trans_le enough)
    exact stencil.named access member _ (List.mem_of_getElem? found)
  have baseSize_pos : ∀ i < gm.numDims,
      0 < gm.baseSize (least numDims accesses i).dim := by
    intro i below
    rw [GridMPI.baseSize]
    split
    · rename_i moving
      have bound := named i below
      exact occupied _ (by rw [sourceDim]; omega)
    · exact Int.one_pos
  constructor
  · intro asserted
    have extents : ∀ i < psMaxDim, 0 ≤ gm.size i := by
      intro i below
      have extent := asserted i below
      split at extent
      · simp only [GridMPI.regionBounds] at extent
        omega
      · exact extent
    refine ⟨fun i below => ?_, extents⟩
    have extent := asserted i (by omega)
    rw [if_pos below] at extent
    simp only [GridMPI.regionBounds] at extent
    obtain ⟨access, member, found⟩ := stencil.least_attained (below.trans_le enough)
    refine ⟨access, member, _, found, ?_, ?_⟩
    · intro other otherMember otherSi otherFound
      exact (stencil.least_le otherMember (below.trans_le enough) otherFound).2
    · have upper := extents i (by omega)
      rw [exists_position_iff occupied (named i below) upper]
      omega
  · rintro ⟨meets, extents⟩ i below
    split
    · rename_i inner
      obtain ⟨access, member, si, found, smallest, reads⟩ := meets i inner
      -- the index with the least offset is the one in the table
      obtain ⟨entry, entryMember, entryFound⟩ :=
        stencil.least_attained (inner.trans_le enough)
      have listed := stencil.least_le member (inner.trans_le enough) found
      have offsets := smallest entry entryMember _ entryFound
      have bounds := (exists_position_iff occupied
        (stencil.named access member si (List.mem_of_getElem? found))
        (extents i below)).mp reads
      have positive := baseSize_pos i inner
      have upper := extents i below
      have sameOffset : (least numDims accesses i).offset = si.offset := by omega
      simp only [GridMPI.regionBounds, listed.1, sameOffset] at positive ⊢
      omega
    · exact extents i below

/-- A region that contains all reads names all dimensions of the grid. -/
theorem loaded
    (stencil : TabulatedStencil gm numDims accesses)
    (covers : SubgridCovers gm numDims accesses) :
    gm.numDims ≤ numDims ∧ ∃ offset size,
      psLoadSubgrid gm (StencilRange.ofAccesses numDims accesses).arguments =
        some (offset, size) := by
  obtain ⟨call, builds, offset, size, loads, -⟩ := covers
  rw [stencil.builds, Option.some.injEq] at builds
  rw [← builds] at loads
  refine ⟨?_, offset, size, loads⟩
  by_contra missing
  rw [no_region (by omega)] at loads
  cases loads

/-- If the region contains all reads, the least offset is enough. -/
theorem leastOffsetSuffices
    (stencil : TabulatedStencil gm numDims accesses)
    (covers : SubgridCovers gm numDims accesses) :
    LeastOffsetSuffices gm numDims accesses := by
  have enough := (stencil.loaded covers).1
  obtain ⟨call, builds, offset, size, loads, covers, -⟩ := covers
  rw [stencil.builds, Option.some.injEq] at builds
  rw [← builds] at loads
  have region := stencil.region enough loads
  refine ⟨enough, fun access member point isLocal inGrid other otherMember i
    below si otherSi found otherFound => ?_⟩
  have own := stencil.least_le member (below.trans_le enough) found
  have least :=
    stencil.least_le otherMember (below.trans_le enough) otherFound
  have inside := (covers access member point isLocal inGrid i below).2
  rw [(region i below).2, accessCell, found, own.1] at inside
  have stays := (position_lt_regionEnd_iff _).mp
    (inside.trans_le (min_le_left _ _))
  exact stays.mono (by omega)

/--
If the least offset is enough and does not move the subgrid past the grid, the
region contains all reads.
-/
theorem covers
    (stencil : TabulatedStencil gm numDims accesses)
    (occupied : ∀ i < gm.numDims, 0 < gm.localSize i)
    (enoughShift : LeastOffsetSuffices gm numDims accesses)
    (meets : LeastOffsetMeetsGrid gm accesses) :
    SubgridCovers gm numDims accesses := by
  obtain ⟨enough, shift⟩ := enoughShift
  obtain ⟨offset, size, loads⟩ := (stencil.exists_region_iff enough occupied).mpr meets
  have region := stencil.region enough loads
  refine ⟨_, stencil.builds, offset, size, loads, ?_, ?_⟩
  · intro access member point isLocal inGrid i below
    have length := stencil.complete access member
    obtain ⟨si, found⟩ : ∃ si, access[i]? = some si :=
      ⟨access.get ⟨i, by omega⟩, List.getElem?_eq_getElem _⟩
    have own := stencil.least_le member (below.trans_le enough) found
    obtain ⟨other, otherMember, otherFound⟩ :=
      stencil.least_attained (below.trans_le enough)
    have stays := shift access member point isLocal inGrid other otherMember i
      below si _ found otherFound
    have reads : accessCell access point i = position si point := by
      rw [accessCell, found]
    have grid := inGrid i below
    have start := regionStart_le_position isLocal
      (stencil.named access member si (List.mem_of_getElem? found)) own.2
    have last := (position_lt_regionEnd_iff _).mpr stays
    rw [(region i below).2, (region i below).1, own.1]
    rw [reads] at grid ⊢
    exact ⟨max_le start grid.1, lt_min last grid.2⟩
  · intro cell inside i below
    have bounds := inside i below
    rw [(region i below).2, (region i below).1] at bounds
    exact ⟨(le_max_right _ _).trans bounds.1,
      bounds.2.trans_le (min_le_right _ _)⟩

/-- One offset per dimension is its own least offset. -/
theorem leastOffsetSuffices_of_equal
    (stencil : TabulatedStencil gm numDims accesses)
    (enough : gm.numDims ≤ numDims)
    (equal : ∀ access ∈ accesses, ∀ other ∈ accesses, access = other) :
    LeastOffsetSuffices gm numDims accesses := by
  refine ⟨enough, fun access member point isLocal _ other otherMember i _ si
    otherSi found otherFound => ?_⟩
  rw [← equal access member other otherMember, found] at otherFound
  obtain rfl := Option.some.inj otherFound
  have named := stencil.named access member si (List.mem_of_getElem? found)
  rw [sub_self, StaysLocal]
  split
  · exact le_rfl
  · have inside := isLocal (sourceDim si.dim) (by rw [sourceDim]; omega)
    split <;> omega

end TabulatedStencil

/--
On a process with data the region contains every read inside the grid, and
nothing outside the grid, exactly if moving the local subgrid by the least
offset is enough and does not move it past the grid.
-/
theorem load_subgrid_covers_iff
    (gm : GridMPI α) (numDims : Nat) (accesses : List StencilIndexList)
    (stencil : TabulatedStencil gm numDims accesses)
    (occupied : ∀ i < gm.numDims, 0 < gm.localSize i) :
    SubgridCovers gm numDims accesses ↔
      LeastOffsetSuffices gm numDims accesses ∧
        LeastOffsetMeetsGrid gm accesses := by
  constructor
  · intro covers
    obtain ⟨enough, loads⟩ := stencil.loaded covers
    exact ⟨stencil.leastOffsetSuffices covers,
      (stencil.exists_region_iff enough occupied).mp loads⟩
  · rintro ⟨shift, meets⟩
    exact stencil.covers occupied shift meets

/-- An 8 × 8 grid that is whole on one process. -/
def wholeEightByEight : GridMPI Int :=
  .create 4 2 (IntegerArray.mk3 8 8 0) false (fun _ => 0) (fun _ => 0)
    (IntegerArray.mk3 8 8 0) fun _ _ => 0

/-- A stencil that reads the transposed point only -/
theorem transposed_covered :
    SubgridCovers wholeEightByEight 2 [[⟨2, 0⟩, ⟨1, 0⟩]] := by
  have stencil :
      TabulatedStencil wholeEightByEight 2 [[⟨2, 0⟩, ⟨1, 0⟩]] :=
    ⟨.inl rfl, by decide, by decide, by decide⟩
  have origin : wholeEightByEight.LocalPoint (fun _ => 0) := by
    rw [GridMPI.LocalPoint]
    decide
  refine (load_subgrid_covers_iff wholeEightByEight 2 [[⟨2, 0⟩, ⟨1, 0⟩]]
    stencil (by decide)).mpr
      ⟨stencil.leastOffsetSuffices_of_equal (by decide) (by decide), ?_, by decide⟩
  intro i below
  have two : i < 2 := below
  interval_cases i
  · exact ⟨_, List.mem_singleton_self _, ⟨2, 0⟩, rfl, by decide, _, origin, by decide⟩
  · exact ⟨_, List.mem_singleton_self _, ⟨1, 0⟩, rfl, by decide, _, origin, by decide⟩

/-- With a second offset the last row of the transposed reads is left out. -/
theorem transposed_pair_not_covered :
    ¬ SubgridCovers wholeEightByEight 2
        [[⟨2, -1⟩, ⟨1, 0⟩], [⟨2, 0⟩, ⟨1, 0⟩]] := by
  intro covers
  have stencil : TabulatedStencil wholeEightByEight 2
      [[⟨2, -1⟩, ⟨1, 0⟩], [⟨2, 0⟩, ⟨1, 0⟩]] :=
    ⟨.inl rfl, by decide, by decide, by decide⟩
  have isLocal :
      wholeEightByEight.LocalPoint (IntegerArray.mk3 0 7 0) := by
    rw [GridMPI.LocalPoint]
    decide
  have inGrid : InBox wholeEightByEight.numDims wholeEightByEight.size
      (accessCell [⟨2, 0⟩, ⟨1, 0⟩] (IntegerArray.mk3 0 7 0)) := by
    show ∀ i < 2, _ ∧ _
    decide
  have stays := (stencil.leastOffsetSuffices covers).2 [⟨2, 0⟩, ⟨1, 0⟩]
    (by decide) (IntegerArray.mk3 0 7 0) isLocal inGrid [⟨2, -1⟩, ⟨1, 0⟩]
    (by decide) 0 (by decide) ⟨2, 0⟩ ⟨2, -1⟩ rfl rfl
  exact absurd stays (by rw [StaysLocal]; decide)

end Physis.Runtime
