import Physis.Runtime.OverlapCoverage
import Physis.Translator.GetKernel

/-!
# Kernels without halo accesses

When communication and computation overlap, the interior kernel is a copy of the
kernel in which every access is redirected to an address function that knows no
halo.  In the copy for one side of the boundary those accesses are redirected
that point along its dimension, away from that side.  From a slab of a thin
subgrid such an access reaches the other side, and a grid smaller than the space
may have no part at all where the kernel runs.
-/

namespace Physis.Translator

open Physis.Runtime

/-! ## The stencil ranges of a kernel -/

namespace StencilRange

/-- `IsNeighborAccess` -/
def isNeighborAccess (sr : StencilRange) : Bool :=
  (List.range sr.numDims).all fun i =>
    decide ((sr.minIndices i).length = 1) &&
      decide ((front (sr.minIndices i)).dim = i + 1)

/-- `IsZero` -/
def isZero (sr : StencilRange) : Bool :=
  (sr.minIndices 0).isEmpty ||
    (sr.isNeighborAccess && (List.range sr.numDims).all fun i =>
      decide ((front (sr.minIndices i)).offset = 0) &&
        decide ((front (sr.maxIndices i)).offset = 0))

/-- `GetMaxWidth` -/
def getMaxWidth (sr : StencilRange) : Int :=
  (List.range sr.numDims).foldl (fun wd i =>
    (sr.maxIndices i).foldl (fun wd it => max wd it.offset)
      ((sr.minIndices i).foldl (fun wd it => max wd (-it.offset)) wd)) (-1)

end StencilRange

/-- A grid parameter that a kernel reads, with its accesses. -/
structure GridParam where
  numDims : Nat
  accesses : List StencilIndexList
  wellFormed : ∀ sil ∈ accesses, sil.length = numDims

namespace GridParam

/-- `GetStencilRange` -/
def range (param : GridParam) : StencilRange :=
  StencilRange.ofAccesses param.numDims param.accesses

/--
`GenerateLoadRemoteGridRegion` on one parameter of a kernel over three
dimensions: whether it allows to overlap, and its part of the width.
-/
def overlap (param : GridParam) (overlapEligible : Bool) (overlapWidth : Int) :
    Bool × Int :=
  if param.range.isNeighborAccess = true ∧ param.range.numDims = 3 then
    if param.range.isZero then (overlapEligible, overlapWidth)
    else (overlapEligible, max param.range.getMaxWidth overlapWidth)
  else (false, overlapWidth)

end GridParam

/-- A stencil kernel over three dimensions, by the grid parameters it reads. -/
structure StencilKernel where
  params : List GridParam

namespace StencilKernel

variable (kernel : StencilKernel)

/-- `overlap_eligible` and `overlap_width` of `GenerateLoadRemoteGridRegion` -/
def overlap : Bool × Int :=
  kernel.params.foldl (fun state param => param.overlap state.1 state.2) (true, 0)

def overlapWidth : Nat :=
  kernel.overlap.2.toNat

/-- The accesses of the kernel, each with the number of its parameter -/
def accesses : List (StencilIndexList × Nat) :=
  kernel.params.zipIdx.flatMap fun param => param.1.accesses.map (·, param.2)

end StencilKernel

/-! ## Redirected accesses -/

/-- An access that `BuildInteriorKernel` redirects -/
def redirectedInInterior (sil : StencilIndexList) : Bool :=
  decide (translateGetKernel sil 3 ≠ some .noHalo)

/-- An access that `BuildBoundaryKernel` redirects for a dimension and a side -/
def redirectedInBoundary (dim : Nat) (right : Bool) (sil : StencilIndexList) : Bool :=
  let offset := (StencilIndexList.at sil dim).offset
  let t := sil.set dim { StencilIndexList.at sil dim with offset := 0 }
  decide (translateGetKernel sil 3 ≠ some .noHalo) &&
    stencilIndexRegularOrder sil 3 && stencilIndexSelf t 3 &&
      !((!right && decide (offset < 0)) || (right && decide (0 < offset)))

/-! ## The points of the kernels -/

/-- The sides of the boundary in the order in which they are launched. -/
def boundaryOrder : List (Nat × Bool) :=
  [(0, false), (0, true), (1, false), (1, true), (2, false), (2, true)]

/--
The sides whose kernels are launched: none without a width, and none from the
first one on for which the host fails an assertion.
-/
def launchedBoundaries (dom : PSDomain) (overlapWidth : Nat) : List (Nat × Bool) :=
  if overlapWidth = 0 then []
  else boundaryOrder.takeWhile fun side =>
    (dom.getBoundary side.1 side.2 overlapWidth 1 0).isSome

/-- The points the streams of one side execute. -/
def boundaryPoints
    (dom : PSDomain) (overlapWidth : Nat) (side : Nat × Bool) : List Point :=
  ((xStreams overlapWidth ++ yzStreams overlapWidth).filter fun stream =>
    decide (stream.dim = side.1 ∧ stream.right = side.2)).flatMap fun stream =>
      (stream.points dom overlapWidth).getD []

/-- A grid that is passed for a parameter -/
structure GridArgument where
  size : IndexArray
  globalOffset : IndexArray

/-- The index lies in the part of the grid that is local to the rank. -/
def InSubgrid
    (space : GridSpaceMPI) (rank : Nat) (grid : GridArgument) (index : IndexArray) :
    Prop :=
  ∀ i < 3, space.localOffset rank 3 grid.globalOffset i ≤ index i ∧
    index i < space.localOffset rank 3 grid.globalOffset i +
      space.localSize rank 3 grid.size grid.globalOffset i

/--
Every redirected access of the interior kernel and of the kernels of all sides
stays in the subgrid, from every point they execute.  They are launched only for
kernels that can overlap.
-/
def HaloFreeStaysLocal
    (space : GridSpaceMPI) (rank : Nat) (block : BlockDim) (dom : PSDomain)
    (kernel : StencilKernel) (grids : Nat → GridArgument) : Prop :=
  kernel.overlap.1 = true →
    (∀ point ∈ runKernel space rank block (dom.shrink kernel.overlapWidth),
      ∀ access ∈ kernel.accesses, redirectedInInterior access.1 = true →
        InSubgrid space rank (grids access.2) (accessCell access.1 point.coord)) ∧
    ∀ side ∈ launchedBoundaries dom kernel.overlapWidth,
      ∀ point ∈ boundaryPoints dom kernel.overlapWidth side,
        ∀ access ∈ kernel.accesses,
          redirectedInBoundary side.1 side.2 access.1 = true →
            InSubgrid space rank (grids access.2) (accessCell access.1 point.coord)

/-- The bounds of a box, moved by the offsets of an access, are in the subgrid. -/
def ReachFits
    (space : GridSpaceMPI) (rank : Nat) (grid : GridArgument) (box : PSDomain)
    (sil : StencilIndexList) : Prop :=
  ∀ i < 3,
    space.localOffset rank 3 grid.globalOffset i ≤
        box.localMin i + (StencilIndexList.at sil i).offset ∧
      box.localMax i + (StencilIndexList.at sil i).offset ≤
        space.localOffset rank 3 grid.globalOffset i +
          space.localSize rank 3 grid.size grid.globalOffset i

instance
    (space : GridSpaceMPI) (rank : Nat) (grid : GridArgument) (box : PSDomain)
    (sil : StencilIndexList) : Decidable (ReachFits space rank grid box sil) :=
  inferInstanceAs (Decidable (∀ i < 3, _))

/-- The box has points. -/
def NonemptyBox (box : PSDomain) : Prop :=
  ∀ i < 3, box.localMin i < box.localMax i

instance (box : PSDomain) : Decidable (NonemptyBox box) :=
  inferInstanceAs (Decidable (∀ i < 3, _))

/-- Every redirected offset fits the shrunken domain, unless it has no points. -/
def InteriorReaches
    (space : GridSpaceMPI) (rank : Nat) (dom : PSDomain) (kernel : StencilKernel)
    (grids : Nat → GridArgument) : Prop :=
  NonemptyBox (dom.shrink kernel.overlapWidth) →
    ∀ access ∈ kernel.accesses, redirectedInInterior access.1 = true →
      ReachFits space rank (grids access.2) (dom.shrink kernel.overlapWidth) access.1

instance
    (space : GridSpaceMPI) (rank : Nat) (dom : PSDomain) (kernel : StencilKernel)
    (grids : Nat → GridArgument) :
    Decidable (InteriorReaches space rank dom kernel grids) :=
  inferInstanceAs (Decidable (_ → ∀ _ ∈ kernel.accesses, _))

/--
Every redirected offset fits the slab of every side that has threads: up to a
width of four, or in the last dimension.
-/
def SlabsReach
    (space : GridSpaceMPI) (rank : Nat) (dom : PSDomain) (kernel : StencilKernel)
    (grids : Nat → GridArgument) : Prop :=
  ∀ side ∈ launchedBoundaries dom kernel.overlapWidth,
    side.1 = 2 ∨ kernel.overlapWidth ≤ 4 →
      ∀ access ∈ kernel.accesses,
        redirectedInBoundary side.1 side.2 access.1 = true →
          ReachFits space rank (grids access.2)
            (dom.slab side.1 side.2 kernel.overlapWidth) access.1

instance
    (space : GridSpaceMPI) (rank : Nat) (dom : PSDomain) (kernel : StencilKernel)
    (grids : Nat → GridArgument) :
    Decidable (SlabsReach space rank dom kernel grids) :=
  inferInstanceAs (Decidable (∀ _ ∈ launchedBoundaries _ _, _))

/-! ## The width of the margin -/

/-- A loop whose steps do not decrease the width does not decrease it. -/
theorem le_foldl
    {β : Type} {step : Int → β → Int} (grows : ∀ width x, width ≤ step width x)
    (list : List β) (init : Int) : init ≤ list.foldl step init := by
  induction list generalizing init with
  | nil => exact le_refl init
  | cons x rest induction => exact (grows init x).trans (induction _)

/-- What one step of such a loop reaches, the whole loop reaches. -/
theorem le_foldl_of_mem
    {β : Type} {step : Int → β → Int} (grows : ∀ width x, width ≤ step width x)
    {list : List β} {x : β} (member : x ∈ list)
    {bound : Int} (reached : ∀ width, bound ≤ step width x) (init : Int) :
    bound ≤ list.foldl step init := by
  induction list generalizing init with
  | nil => cases member
  | cons y rest induction =>
      rcases List.mem_cons.mp member with rfl | later
      · exact (reached init).trans (le_foldl grows rest _)
      · exact induction later _

namespace StencilRange

theorem map_dim_insertIndex
    (better other : Int → Int → Bool) (si : StencilIndex)
    {first second : StencilIndexList}
    (same : first.map StencilIndex.dim = second.map StencilIndex.dim) :
    (insertIndex better si first).map StencilIndex.dim =
      (insertIndex other si second).map StencilIndex.dim := by
  induction first generalizing second with
  | nil =>
      obtain rfl : second = [] := by simpa using same.symm
      rfl
  | cons cur rest induction =>
      cases second with
      | nil => simp at same
      | cons cur' rest' =>
          simp only [List.map_cons, List.cons.injEq] at same
          by_cases here : cur.dim = si.dim
          · have here' : cur'.dim = si.dim := same.1.symm.trans here
            simp only [insertIndex, if_pos here, if_pos here', List.map_cons, same.2]
            congr 1
            split <;> split <;> simp [here, here']
          · have apart : ¬ cur'.dim = si.dim := fun equal => here (same.1.trans equal)
            simp only [insertIndex, if_neg apart, List.map_cons, same.1, induction same.2]

/-- The two lists of a dimension have the same index variables. -/
theorem map_dim_ofAccesses
    (numDims : Nat) (accesses : List StencilIndexList) (i : Nat) :
    ((ofAccesses numDims accesses).minIndices i).map StencilIndex.dim =
      ((ofAccesses numDims accesses).maxIndices i).map StencilIndex.dim := by
  have general : ∀ sr : StencilRange,
      (sr.minIndices i).map StencilIndex.dim = (sr.maxIndices i).map StencilIndex.dim →
        ((accesses.foldl insert sr).minIndices i).map StencilIndex.dim =
          ((accesses.foldl insert sr).maxIndices i).map StencilIndex.dim := by
    induction accesses with
    | nil => exact fun _ same => same
    | cons access accesses induction =>
        intro sr same
        apply induction (sr.insert access)
        simp only [insert]
        split
        · exact map_dim_insertIndex _ _ _ same
        · exact same
  exact general ⟨numDims, fun _ => [], fun _ => []⟩ rfl

/-- The width bounds every entry of the two lists. -/
theorem le_getMaxWidth
    {sr : StencilRange} {i : Nat} (below : i < sr.numDims) :
    (∀ entry ∈ sr.minIndices i, -entry.offset ≤ sr.getMaxWidth) ∧
      ∀ entry ∈ sr.maxIndices i, entry.offset ≤ sr.getMaxWidth := by
  have minGrows : ∀ (wd : Int) (it : StencilIndex), wd ≤ max wd (-it.offset) :=
    fun wd it => le_max_left wd (-it.offset)
  have maxGrows : ∀ (wd : Int) (it : StencilIndex), wd ≤ max wd it.offset :=
    fun wd it => le_max_left wd it.offset
  have grows : ∀ (width : Int) (k : Nat), width ≤
      (sr.maxIndices k).foldl (fun wd it => max wd it.offset)
        ((sr.minIndices k).foldl (fun wd it => max wd (-it.offset)) width) :=
    fun width k => (le_foldl minGrows _ width).trans (le_foldl maxGrows _ _)
  constructor
  · intro entry member
    apply le_foldl_of_mem grows (List.mem_range.mpr below)
    intro width
    have reached := le_foldl_of_mem minGrows member
      (fun wd => le_max_right wd (-entry.offset)) width
    exact reached.trans (le_foldl maxGrows _ _)
  · intro entry member
    apply le_foldl_of_mem grows (List.mem_range.mpr below)
    intro width
    exact le_foldl_of_mem maxGrows member (fun wd => le_max_right wd entry.offset) _

end StencilRange

namespace GridParam

variable {param : GridParam} {sil : StencilIndexList}

/-- In a neighbor access every index has the variable of its dimension. -/
theorem regular_of_isNeighborAccess
    (neighbor : param.range.isNeighborAccess = true) (three : param.range.numDims = 3)
    (member : sil ∈ param.accesses) : stencilIndexRegularOrder sil 3 = true := by
  have dims : param.numDims = 3 := by
    rwa [range, StencilRange.numDims_ofAccesses] at three
  have tabulates := StencilRange.tabulates_ofAccesses param.numDims param.accesses
  have length := param.wellFormed sil member
  simp only [StencilRange.isNeighborAccess, List.all_eq_true, List.mem_range,
    Bool.and_eq_true, decide_eq_true_eq, three] at neighbor
  simp only [stencilIndexRegularOrder, Bool.and_eq_true, decide_eq_true_eq,
    List.all_eq_true, List.mem_range]
  refine ⟨by omega, fun i inRange => ?_⟩
  have found : sil[i]? = some (StencilIndexList.at sil i) := by
    simp [StencilIndexList.at, inRange]
  obtain ⟨entry, listed, same, -⟩ := tabulates.least sil member i _ found
  obtain ⟨single, dim⟩ := neighbor i (by omega)
  obtain ⟨only, equal⟩ := List.length_eq_one_iff.mp single
  rw [range] at equal dim
  rw [equal] at listed dim
  rw [← same, List.mem_singleton.mp listed]
  exact dim

/-- The offsets of the accesses are within the width, or all are zero. -/
theorem offset_bounds
    (three : param.range.numDims = 3) (member : sil ∈ param.accesses) {width : Int}
    (nonneg : 0 ≤ width)
    (covers : param.range.isZero = true ∨ param.range.getMaxWidth ≤ width)
    {i : Nat} (below : i < 3) :
    -width ≤ (StencilIndexList.at sil i).offset ∧
      (StencilIndexList.at sil i).offset ≤ width := by
  have dims : param.numDims = 3 := by
    rwa [range, StencilRange.numDims_ofAccesses] at three
  have tabulates := StencilRange.tabulates_ofAccesses param.numDims param.accesses
  have length := param.wellFormed sil member
  have foundAt : ∀ k < 3, sil[k]? = some (StencilIndexList.at sil k) := by
    intro k inRange
    have bound : k < sil.length := by omega
    simp [StencilIndexList.at, bound]
  obtain ⟨least, leastListed, leastDim, atLeast⟩ :=
    tabulates.least sil member i _ (foundAt i below)
  obtain ⟨greatest, greatestListed, greatestDim, atMost⟩ :=
    tabulates.greatest sil member i _ (foundAt i below)
  rcases covers with zero | narrow
  · -- with one index variable a dimension has one entry in either list
    obtain ⟨first, firstListed, -, -⟩ :=
      tabulates.least sil member 0 _ (foundAt 0 (by decide))
    have filled : (param.range.minIndices 0).isEmpty = false := by
      rw [List.isEmpty_eq_false_iff]
      exact List.ne_nil_of_mem firstListed
    simp only [StencilRange.isZero, filled, Bool.false_or, Bool.and_eq_true,
      StencilRange.isNeighborAccess, List.all_eq_true, List.mem_range,
      decide_eq_true_eq, three] at zero
    obtain ⟨single, -⟩ := zero.1 i below
    obtain ⟨minZero, maxZero⟩ := zero.2 i below
    have lengths := congrArg List.length
      (StencilRange.map_dim_ofAccesses param.numDims param.accesses i)
    simp only [List.length_map] at lengths
    rw [range] at single minZero maxZero
    obtain ⟨minOnly, minEqual⟩ := List.length_eq_one_iff.mp single
    obtain ⟨maxOnly, maxEqual⟩ := List.length_eq_one_iff.mp (lengths.symm.trans single)
    rw [minEqual] at leastListed minZero
    rw [maxEqual] at greatestListed maxZero
    rw [List.mem_singleton.mp leastListed] at atLeast
    rw [List.mem_singleton.mp greatestListed] at atMost
    simp only [front, List.headD_cons] at minZero maxZero
    omega
  · have bounds := StencilRange.le_getMaxWidth (show i < param.range.numDims by omega)
    have lower := bounds.1 least leastListed
    have upper := bounds.2 greatest greatestListed
    omega

end GridParam

namespace StencilKernel

/-- What the loop over the parameters leaves of an eligible kernel. -/
theorem foldl_overlap
    (params : List GridParam) (state : Bool × Int)
    (eligible :
      (params.foldl (fun state param => param.overlap state.1 state.2) state).1 = true) :
    state.2 ≤
        (params.foldl (fun state param => param.overlap state.1 state.2) state).2 ∧
      ∀ param ∈ params,
        (param.range.isNeighborAccess = true ∧ param.range.numDims = 3) ∧
          (param.range.isZero = true ∨
            param.range.getMaxWidth ≤
              (params.foldl (fun state param => param.overlap state.1 state.2)
                state).2) := by
  have stays : ∀ (rest : List GridParam) (width : Int),
      (rest.foldl (fun state param => param.overlap state.1 state.2)
        (false, width)).1 = false := by
    intro rest
    induction rest with
    | nil => exact fun _ => rfl
    | cons param rest induction =>
        intro width
        rw [List.foldl_cons, GridParam.overlap]
        split
        · split <;> exact induction _
        · exact induction _
  induction params generalizing state with
  | nil => exact ⟨le_refl _, by simp⟩
  | cons param params induction =>
      rw [List.foldl_cons] at eligible ⊢
      have rest := induction _ eligible
      by_cases neighbor : param.range.isNeighborAccess = true ∧ param.range.numDims = 3
      · have own : state.2 ≤ (param.overlap state.1 state.2).2 ∧
            (param.range.isZero = true ∨
              param.range.getMaxWidth ≤ (param.overlap state.1 state.2).2) := by
          rw [GridParam.overlap, if_pos neighbor]
          split
          · rename_i zero
            exact ⟨le_refl _, .inl zero⟩
          · exact ⟨le_max_right _ _, .inr (le_max_left _ _)⟩
        refine ⟨own.1.trans rest.1, ?_⟩
        intro other member
        rcases List.mem_cons.mp member with rfl | later
        · exact ⟨neighbor, own.2.imp_right fun bound => bound.trans rest.1⟩
        · exact rest.2 other later
      · rw [GridParam.overlap, if_neg neighbor] at eligible
        simp [stays] at eligible

variable {kernel : StencilKernel}

/-- The accesses of a kernel that can overlap are in order and within its width. -/
theorem access_bounds
    (eligible : kernel.overlap.1 = true)
    {access : StencilIndexList × Nat} (member : access ∈ kernel.accesses) :
    stencilIndexRegularOrder access.1 3 = true ∧
      ∀ i < 3, -(kernel.overlapWidth : Int) ≤ (StencilIndexList.at access.1 i).offset ∧
        (StencilIndexList.at access.1 i).offset ≤ kernel.overlapWidth := by
  obtain ⟨⟨param, k⟩, numbered, listed⟩ := List.mem_flatMap.mp member
  obtain ⟨sil, access, rfl⟩ := List.mem_map.mp listed
  have inParams : param ∈ kernel.params := List.fst_mem_of_mem_zipIdx numbered
  obtain ⟨start, each⟩ := foldl_overlap kernel.params (true, 0) eligible
  obtain ⟨⟨neighbor, three⟩, covers⟩ := each param inParams
  have nonneg : 0 ≤ kernel.overlap.2 := start
  have width : (kernel.overlapWidth : Int) = kernel.overlap.2 :=
    Int.toNat_of_nonneg nonneg
  rw [width]
  exact ⟨param.regular_of_isNeighborAccess neighbor three access,
    fun i below => GridParam.offset_bounds three access nonneg covers below⟩

end StencilKernel

/-! ## The accesses of each kernel -/

section Kernels

variable
    {space : GridSpaceMPI} {rank : Nat} {block : BlockDim} {dom : PSDomain}
    {kernel : StencilKernel} {sil : StencilIndexList} {point : Point}
    {grid : GridArgument} {grids : Nat → GridArgument}

/-- The local domain lies in the part of the grid that is local to the rank. -/
def Within (space : GridSpaceMPI) (rank : Nat) (grid : GridArgument) (dom : PSDomain) :
    Prop :=
  ∀ i < 3, space.localOffset rank 3 grid.globalOffset i ≤ dom.localMin i ∧
    dom.localMax i ≤ space.localOffset rank 3 grid.globalOffset i +
      space.localSize rank 3 grid.size grid.globalOffset i

/-- In grids that hold the local domain every access of the interior kernel fits. -/
theorem interiorReaches_of_within
    (eligible : kernel.overlap.1 = true)
    (within : ∀ k < kernel.params.length, Within space rank (grids k) dom) :
    InteriorReaches space rank dom kernel grids := by
  intro _ access member _ i below
  have numbered : access.2 < kernel.params.length := by
    obtain ⟨⟨param, k⟩, numbered, listed⟩ := List.mem_flatMap.mp member
    obtain ⟨sil, -, rfl⟩ := List.mem_map.mp listed
    simpa using List.snd_lt_of_mem_zipIdx numbered
  have part := within access.2 numbered i below
  have offset := (kernel.access_bounds eligible member).2 i below
  have supported : i < psMaxDim := below
  simp only [PSDomain.shrink, if_pos supported]
  omega

/-- An access fits a box with points exactly if it stays inside from all of them. -/
theorem reachFits_iff
    (regular : stencilIndexRegularOrder sil 3 = true) {box : PSDomain}
    (points : NonemptyBox box) :
    ReachFits space rank grid box sil ↔
      ∀ point : Point, box.Contains point →
        InSubgrid space rank grid (accessCell sil point.coord) := by
  constructor
  · intro fits point inside i below
    have bounds := contains_iff.mp inside i below
    have reach := fits i below
    rw [accessCell_of_regular regular point.coord below]
    omega
  · intro stays i below
    -- the corners of the box are the points that reach furthest
    obtain ⟨first, firstCoord⟩ := exists_point box.localMin
    obtain ⟨last, lastCoord⟩ := exists_point fun i => box.localMax i - 1
    have firstInside : box.Contains first :=
      contains_iff.mpr fun k inRange => by
        have some_ := points k inRange
        rw [firstCoord k inRange]
        omega
    have lastInside : box.Contains last :=
      contains_iff.mpr fun k inRange => by
        have some_ := points k inRange
        rw [lastCoord k inRange]
        omega
    have low := (stays first firstInside i below).1
    have high := (stays last lastInside i below).2
    rw [accessCell_of_regular regular _ below, firstCoord i below] at low
    rw [accessCell_of_regular regular _ below, lastCoord i below] at high
    omega

/-- A launched side has passed its assertion. -/
theorem of_mem_launchedBoundaries
    {overlapWidth : Nat} {side : Nat × Bool}
    (launched : side ∈ launchedBoundaries dom overlapWidth) :
    0 < overlapWidth ∧ side.1 < 3 ∧
      (dom.getBoundary side.1 side.2 overlapWidth 1 0).isSome = true := by
  rw [launchedBoundaries] at launched
  split at launched
  · cases launched
  · rename_i positive
    have listed : side ∈ boundaryOrder := (List.takeWhile_sublist _).subset launched
    have passes := @List.mem_takeWhile_imp _
      (fun side : Nat × Bool => (dom.getBoundary side.1 side.2 overlapWidth 1 0).isSome)
      _ _ launched
    refine ⟨by omega, ?_, passes⟩
    simp only [boundaryOrder, List.mem_cons, List.not_mem_nil, or_false] at listed
    rcases listed with rfl | rfl | rfl | rfl | rfl | rfl <;> decide

/-- The streams of a launched side execute its slab, if they have threads. -/
theorem mem_boundaryPoints
    (occupied : dom.Occupied) {overlapWidth : Nat} {side : Nat × Bool}
    (launched : side ∈ launchedBoundaries dom overlapWidth) :
    point ∈ boundaryPoints dom overlapWidth side ↔
      (side.1 = 2 ∨ overlapWidth ≤ 4) ∧
        (dom.slab side.1 side.2 overlapWidth).Contains point := by
  obtain ⟨dim, right⟩ := side
  obtain ⟨positive, below, passes⟩ := of_mem_launchedBoundaries launched
  have wide : ¬ (right = true ∧ dom.localMax dim - overlapWidth < 0) := by
    intro short
    rw [getBoundary_of_occupied occupied below, if_pos short] at passes
    cases passes
  have points : ∀ factor offset threads,
      (Stream.points dom overlapWidth ⟨dim, right, factor, offset, threads⟩).getD [] =
        streamKernel
          (if 1 < factor then (dom.slab dim right overlapWidth).divide dom factor offset
          else dom.slab dim right overlapWidth) threads := by
    intro factor offset threads
    rw [Stream.points, getBoundary_of_occupied occupied below, if_neg wide]
    rfl
  have blocks := block_pos_iff positive
  simp only [boundaryPoints, List.mem_flatMap, List.mem_filter, decide_eq_true_eq]
  constructor
  · rintro ⟨stream, ⟨listed, same⟩, member⟩
    rcases mem_streams.mp listed with
      ⟨right', i, bound, rfl⟩ | ⟨right', rfl⟩ | ⟨right', rfl⟩
    · obtain ⟨rfl, rfl⟩ := same
      rw [points, if_pos (by decide), mem_streamKernel] at member
      exact ⟨.inr (blocks.mp member.1.2.2),
        (exists_chunk_iff occupied _ point).mp ⟨i, bound, member.2⟩⟩
    · obtain ⟨rfl, rfl⟩ := same
      rw [points, if_neg (by decide), mem_streamKernel] at member
      exact ⟨.inr (blocks.mp member.1.2.2), member.2⟩
    · obtain ⟨rfl, rfl⟩ := same
      rw [points, if_neg (by decide), mem_streamKernel] at member
      exact ⟨.inl rfl, member.2⟩
  · rintro ⟨threads, inside⟩
    rcases (by omega : dim = 0 ∨ dim = 1 ∨ dim = 2) with rfl | rfl | rfl
    · have small : overlapWidth ≤ 4 := by simpa using threads
      obtain ⟨i, bound, inChunk⟩ := (exists_chunk_iff occupied right point).mpr inside
      refine ⟨_, ⟨mem_streams.mpr (.inl ⟨right, i, bound, rfl⟩), rfl, rfl⟩, ?_⟩
      rw [points, if_pos (by decide), mem_streamKernel]
      exact ⟨⟨positive, Nat.succ_pos _, blocks.mpr small⟩, inChunk⟩
    · have small : overlapWidth ≤ 4 := by simpa using threads
      refine ⟨_, ⟨mem_streams.mpr (.inr (.inl ⟨right, rfl⟩)), rfl, rfl⟩, ?_⟩
      rw [points, if_neg (by decide), mem_streamKernel]
      exact ⟨⟨Nat.succ_pos _, positive, blocks.mpr small⟩, inside⟩
    · refine ⟨_, ⟨mem_streams.mpr (.inr (.inr ⟨right, rfl⟩)), rfl, rfl⟩, ?_⟩
      rw [points, if_neg (by decide), mem_streamKernel]
      exact ⟨⟨by decide, by decide, by decide⟩, inside⟩

/-- The slab of a side has points. -/
theorem nonemptyBox_slab
    (occupied : dom.Occupied) {overlapWidth : Nat} (positive : 0 < overlapWidth)
    (dim : Nat) (right : Bool) : NonemptyBox (dom.slab dim right overlapWidth) := by
  intro i below
  have points := occupied i below
  rw [PSDomain.slab_localMin, PSDomain.slab_localMax]
  by_cases own : i = dim
  · rw [if_pos own, if_pos own]
    cases right <;> simp [PSDomain.slabMin, PSDomain.slabMax] <;> omega
  · rw [if_neg own, if_neg own]
    omega

theorem nonemptyBox_of_contains (inside : dom.Contains point) : NonemptyBox dom := by
  intro i below
  have bounds := contains_iff.mp inside i below
  omega

end Kernels

/--
The redirected accesses of a kernel stay in the subgrids of the rank exactly if
the kernel cannot overlap, the rank has no part of the domain, or the shrunken
domain and the slab of every launched side, moved by the redirected offsets, lie
in the part of the grid that is local to the rank.
-/
theorem haloFree_staysLocal_iff
    (space : GridSpaceMPI) (three : space.numDims = 3) (rank : Nat) (block : BlockDim)
    (dom : PSDomain) (kernel : StencilKernel) (grids : Nat → GridArgument) :
    HaloFreeStaysLocal space rank block (space.psDomainSetLocalSizeCUDA rank dom) kernel
        grids ↔
      kernel.overlap.1 = false ∨ (space.psDomainSetLocalSizeCUDA rank dom).NoPart ∨
        (InteriorReaches space rank (space.psDomainSetLocalSizeCUDA rank dom) kernel
            grids ∧
          SlabsReach space rank (space.psDomainSetLocalSizeCUDA rank dom) kernel
            grids) := by
  have inPart := localDomain_inPart space rank dom
  rcases localDomain_cases three rank dom with noPart | occupied
  · refine iff_of_true (fun _ => ⟨?_, ?_⟩) (.inr (.inl noPart))
    · intro point member
      rw [mem_runKernel (inPart.shrink _), shrink_contains_iff] at member
      have zero := noPart 0 (by decide)
      omega
    · intro side launched point member
      obtain ⟨-, below, -⟩ := of_mem_launchedBoundaries launched
      simp only [boundaryPoints, List.mem_flatMap, List.mem_filter,
        decide_eq_true_eq] at member
      obtain ⟨stream, ⟨-, dim, -⟩, computed⟩ := member
      rw [← dim] at below
      rw [Stream.points, PSDomain.getBoundary, if_pos (noPart stream.dim below)]
        at computed
      exact absurd (mem_streamKernel.mp computed).2 (noPart.not_contains point)
  · have part : ¬ (space.psDomainSetLocalSizeCUDA rank dom).NoPart := by
      intro noPart
      have zero := noPart 0 (by decide)
      have points := occupied 0 (by decide)
      omega
    rw [or_iff_right part]
    constructor
    · intro stays
      rcases eligible : kernel.overlap.1 with _ | _
      · exact .inl rfl
      · obtain ⟨interior, boundary⟩ := stays eligible
        refine .inr ⟨fun points access member redirected => ?_,
          fun side launched threads access member redirected => ?_⟩
        · have regular := (kernel.access_bounds eligible member).1
          refine (reachFits_iff regular points).mpr fun point inside => ?_
          exact interior point ((mem_runKernel (inPart.shrink _)).mpr inside) access
            member redirected
        · have regular := (kernel.access_bounds eligible member).1
          obtain ⟨positive, -, -⟩ := of_mem_launchedBoundaries launched
          have points := nonemptyBox_slab occupied positive side.1 side.2
          refine (reachFits_iff regular points).mpr fun point inside => ?_
          exact boundary side launched point
            ((mem_boundaryPoints occupied launched).mpr ⟨threads, inside⟩) access member
            redirected
    · intro condition eligible
      obtain ⟨interior, boundary⟩ := condition.resolve_left (by simp [eligible])
      constructor
      · intro point executed access member redirected
        rw [mem_runKernel (inPart.shrink _)] at executed
        have regular := (kernel.access_bounds eligible member).1
        have points := nonemptyBox_of_contains executed
        exact (reachFits_iff regular points).mp
          (interior points access member redirected) point executed
      · intro side launched point executed access member redirected
        obtain ⟨threads, inside⟩ := (mem_boundaryPoints occupied launched).mp executed
        have regular := (kernel.access_bounds eligible member).1
        have points := nonemptyBox_of_contains inside
        exact (reachFits_iff regular points).mp
          (boundary side launched threads access member redirected) point inside

/-- A kernel that reads a point and its next one along the first dimension. -/
def nextKernel : StencilKernel where
  params :=
    [{ numDims := 3
       accesses := [[⟨1, 0⟩, ⟨2, 0⟩, ⟨3, 0⟩], [⟨1, 1⟩, ⟨2, 0⟩, ⟨3, 0⟩]]
       wellFormed := by decide }]

/-- A grid of the size of its space. -/
def spaceGrid (space : GridSpaceMPI) : GridArgument where
  size := fun i => space.globalSize i
  globalOffset := fun _ => 0

/-- In a subgrid of eight points every redirected access stays inside. -/
theorem eightCubed_haloFree_staysLocal :
    HaloFreeStaysLocal eightCubed 0 ⟨64, 4, by decide, by decide⟩
      (eightCubed.psDomainSetLocalSizeCUDA 0 (cubeDomain 8)) nextKernel
      fun _ => spaceGrid eightCubed :=
  (haloFree_staysLocal_iff eightCubed rfl 0 ⟨64, 4, by decide, by decide⟩ (cubeDomain 8)
    nextKernel fun _ => spaceGrid eightCubed).mpr (.inr (.inr (by decide)))

/-- Two planes along the first dimension, one for each of two processes. -/
def twoPlanes : GridSpaceMPI where
  numDims := 3
  globalSize := IntegerArray.mk3 2 8 8
  procSize := IntegerArray.mk3 2 1 1
  globalPos := by decide
  procPos := by decide

/--
There the left boundary of the first process is its whole plane, and the next
point along the first dimension belongs to the second process.
-/
theorem twoPlanes_not_haloFree_staysLocal :
    ¬ HaloFreeStaysLocal twoPlanes 0 ⟨64, 4, by decide, by decide⟩
      (twoPlanes.psDomainSetLocalSizeCUDA 0 (cubeDomain 8)) nextKernel
      fun _ => spaceGrid twoPlanes := by
  intro stays
  have occupied : (twoPlanes.psDomainSetLocalSizeCUDA 0 (cubeDomain 8)).Occupied := by
    rw [PSDomain.Occupied]
    decide
  have launched : ((0, false) : Nat × Bool) ∈
      launchedBoundaries (twoPlanes.psDomainSetLocalSizeCUDA 0 (cubeDomain 8))
        nextKernel.overlapWidth := by
    decide
  have executed : ((0, 0, 0) : Point) ∈
      boundaryPoints (twoPlanes.psDomainSetLocalSizeCUDA 0 (cubeDomain 8))
        nextKernel.overlapWidth (0, false) :=
    (mem_boundaryPoints occupied launched).mpr
      ⟨.inr (by decide), contains_iff.mpr (by decide)⟩
  have reached := (stays (by decide)).2 (0, false) launched (0, 0, 0) executed
    ([⟨1, 1⟩, ⟨2, 0⟩, ⟨3, 0⟩], 0) (by decide) (by decide) 0 (by decide)
  exact absurd reached.2 (by decide)

end Physis.Translator
