import Physis.Runtime.GridMPI

/-!
# What a packed halo holds

A process sees its own data and the halos it has received as one function of
local coordinates, some of which lie outside its own subgrid.  If the own data
and the halos of the later dimensions agree with such a view, then the elements
`CopyoutHalo` hands to a send are the view's values on the slab at the edge,
extended along the later dimensions when diagonal points are included.
-/

namespace Physis.Runtime

open Physis.Library
open Physis.Library.RowMajor

variable {α : Type}

/-! ## Boxes of two and three dimensions -/

theorem boxList_one (size : IndexArray) (point : IndexArray → α) :
    boxList 1 size point =
      (List.range (size 0).toNat).map fun (x : Nat) =>
        point (IntegerArray.mk3 (x : Int) 0 0) := by
  simp only [boxList]
  rw [List.map_eq_flatMap]
  apply List.flatMap_congr
  intro x _
  congr 2
  funext i
  rcases i with _ | _ | _ | i <;> simp [IntegerArray.mk3]

theorem boxList_two (size : IndexArray) (point : IndexArray → α) :
    boxList 2 size point =
      (List.range (size 1).toNat).flatMap fun (y : Nat) =>
        (List.range (size 0).toNat).map fun (x : Nat) =>
          point (IntegerArray.mk3 (x : Int) (y : Int) 0) := by
  rw [boxList]
  apply List.flatMap_congr
  intro y _
  rw [boxList_one]
  apply List.map_congr_left
  intro x _
  congr 1
  funext i
  rcases i with _ | _ | _ | i <;> simp [IntegerArray.mk3, Function.update]

theorem boxList_three (size : IndexArray) (point : IndexArray → α) :
    boxList 3 size point =
      (List.range (size 2).toNat).flatMap fun (z : Nat) =>
        (List.range (size 1).toNat).flatMap fun (y : Nat) =>
          (List.range (size 0).toNat).map fun (x : Nat) =>
            point (IntegerArray.mk3 (x : Int) (y : Int) (z : Int)) := by
  rw [boxList]
  apply List.flatMap_congr
  intro z _
  rw [boxList_two]
  apply List.flatMap_congr
  intro y _
  apply List.map_congr_left
  intro x _
  congr 1
  funext i
  rcases i with _ | _ | _ | i <;> simp [IntegerArray.mk3, Function.update]

/-- Rows copied line by line, when every cell copied is known. -/
theorem copyLines_eq
    {memory : Int → α} {stride : Int} {width lines : Nat} {t : Int}
    {cell : Nat → Nat → α}
    (cells : ∀ y < lines, ∀ x < width,
      memory (t + y * stride + x) = cell y x) :
    GridMPI.copyLines memory stride width lines t =
      (List.range lines).flatMap fun y =>
        (List.range width).map fun x => cell y x := by
  induction lines generalizing t cell with
  | zero => rfl
  | succ lines induction =>
      rw [GridMPI.copyLines, List.range_succ_eq_map, List.flatMap_cons,
        List.flatMap_map]
      congr 1
      · apply List.map_congr_left
        intro x member
        have first := cells 0 (Nat.succ_pos lines) x (List.mem_range.mp member)
        simpa using first
      · apply induction
        intro y below x bound
        have next := cells (y + 1) (Nat.succ_lt_succ below) x bound
        rw [← next]
        congr 1
        push_cast
        ring

namespace GridMPI

variable {grid : GridMPI α} {view : IndexArray → α}

/-! ## Coordinates of slabs and halos -/

/-- The local coordinates of a cell of the slab sent for dimension `dim`. -/
def slabPoint
    (grid : GridMPI α) (dim width : Nat) (dir : Dir) (diagonal : Bool)
    (index : IndexArray) : IndexArray :=
  fun i =>
    if i = dim then grid.slabOffset dim width dir + index i
    else if diagonal = true ∧ dim < i then index i - grid.haloWidth .bw i
    else index i

/-- Where along dimension `dim` the received halo starts. -/
def haloOffset (grid : GridMPI α) (dim width : Nat) : Dir → Int
  | .fw => grid.localSize dim
  | .bw => -(width : Int)

/-- The local coordinates of a cell of the halo received for `dim`. -/
def haloPoint
    (grid : GridMPI α) (dim width : Nat) (dir : Dir) (diagonal : Bool)
    (index : IndexArray) : IndexArray :=
  fun i =>
    if i = dim then grid.haloOffset dim width dir + index i
    else if diagonal = true ∧ dim < i then index i - grid.haloWidth .bw i
    else index i

/--
The own data and the halos received for the dimensions after `dim` agree with
one view of local coordinates.
-/
structure HaloReads
    (grid : GridMPI α) (dim : Nat) (diagonal : Bool)
    (view : IndexArray → α) : Prop where
  own : Reads grid.numDims grid.data grid.localSize view
  halo : diagonal = true → ∀ e, dim < e → e < grid.numDims → ∀ dir,
    Reads grid.numDims (grid.haloPeer dir e)
      (grid.haloExtent e (grid.haloWidth dir e) true)
      fun index => view (grid.haloPoint e (grid.haloWidth dir e) dir true index)

theorem calcHaloSize_eq_length
    {β : Type} (dim width : Nat) (diagonal : Bool) (point : IndexArray → β) :
    grid.calcHaloSize dim width diagonal =
      (boxList grid.numDims (grid.haloExtent dim width diagonal) point).length := by
  rw [length_boxList]
  exact IntegerArray.accumulate_eq_weight
    (fun i => (grid.haloExtent dim width diagonal i).toNat) grid.numDims

/-- The slab lies inside the local subgrid. -/
theorem slab_inside
    {dim width : Nat} (dir : Dir)
    (narrow : (width : Int) ≤ grid.localSize dim)
    (i : Nat) :
    0 ≤ Function.update (fun _ => (0 : Int)) dim (grid.slabOffset dim width dir) i ∧
      Function.update (fun _ => (0 : Int)) dim (grid.slabOffset dim width dir) i +
          Function.update grid.localSize dim (width : Int) i ≤
        grid.localSize i := by
  by_cases same : i = dim
  · subst i
    rw [Function.update_self, Function.update_self]
    cases dir <;> simp only [slabOffset] <;> omega
  · rw [Function.update_of_ne same, Function.update_of_ne same]
    omega

/-- Without diagonal points the slab of the own data is copied out. -/
theorem packedHalo_plain
    {dim width : Nat} {dir : Dir}
    (bound : dim < grid.numDims)
    (narrow : (width : Int) ≤ grid.localSize dim)
    (reads : grid.HaloReads dim false view) :
    grid.packedHalo dim width dir false =
      some (boxList grid.numDims (grid.haloExtent dim width false) fun index =>
        view (grid.slabPoint dim width dir false index)) := by
  simp only [packedHalo, if_true, Option.some.injEq]
  rw [copyoutSubgrid_eq_boxList_view (by omega) reads.own
    fun i _ => slab_inside dir narrow i]
  have sizes : ∀ i < grid.numDims,
      Function.update grid.localSize dim (width : Int) i =
        grid.haloExtent dim width false i := by
    intro i _
    by_cases same : i = dim
    · simp [haloExtent, same]
    · simp [haloExtent, same]
  apply boxList_congr sizes
  intro index _
  congr 1
  funext i
  by_cases same : i = dim
  · simp [slabPoint, same]
  · simp [slabPoint, same]

/-! ## Diagonal points -/

/-- The slab along dimension zero starts and ends inside the local extent. -/
theorem slabOffset_bounds
    {dim width : Nat} (dir : Dir)
    (narrow : (width : Int) ≤ grid.localSize dim) :
    0 ≤ grid.slabOffset dim width dir ∧
      grid.slabOffset dim width dir + width ≤ grid.localSize dim := by
  cases dir <;> simp only [slabOffset] <;> omega

section Diagonal

variable
    {width : Nat} {dir : Dir}
    (nonneg : ∀ i < grid.numDims, 0 ≤ grid.localSize i)
    (depends : Depends grid.numDims view)

/-- The rows copied from a halo of the second dimension of a 2-D grid. -/
theorem copyLines_halo2D
    (twoDims : grid.numDims = 2)
    (depends : Depends grid.numDims view)
    (narrow : (width : Int) ≤ grid.localSize 0)
    (reads : grid.HaloReads 0 true view) (side : Dir) :
    copyLines (grid.haloPeer side 1) (grid.localSize 0) width
        (grid.haloWidth side 1) (grid.slabOffset 0 width dir) =
      (List.range (grid.haloWidth side 1)).flatMap fun (y : Nat) =>
        (List.range width).map fun (x : Nat) =>
          view (IntegerArray.mk3 (grid.slabOffset 0 width dir + x)
            (grid.haloOffset 1 (grid.haloWidth side 1) side + y) 0) := by
  have halo := reads.halo rfl 1 (by omega) (by omega) side
  have start := slabOffset_bounds dir narrow
  rw [twoDims] at halo depends
  apply copyLines_eq
  intro y below x bound
  have read := halo
    (IntegerArray.mk3 (grid.slabOffset 0 width dir + x) (y : Int) 0) (by
      intro i less
      rcases i with _ | _ | i <;>
        simp [haloExtent, IntegerArray.mk3] <;> omega)
  have position :
      grid.slabOffset 0 width dir + y * grid.localSize 0 + x =
        linear (grid.haloExtent 1 (grid.haloWidth side 1) true)
          (IntegerArray.mk3 (grid.slabOffset 0 width dir + x) (y : Int) 0) 2 := by
    simp [linear_succ, volume_succ, haloExtent, IntegerArray.mk3]
    ring
  rw [position, read]
  apply depends
  intro i less
  rcases i with _ | _ | i <;> simp [haloPoint, IntegerArray.mk3]
  omega

include nonneg depends in
/-- `CopyoutHalo2D0` writes the slab with its diagonal points. -/
theorem copyoutHalo2D0_eq
    (twoDims : grid.numDims = 2)
    (narrow : (width : Int) ≤ grid.localSize 0)
    (reads : grid.HaloReads 0 true view) :
    grid.copyoutHalo2D0 width dir =
      boxList 2 (grid.haloExtent 0 width true) fun index =>
        view (grid.slabPoint 0 width dir true index) := by
  have own := reads.own
  have start := slabOffset_bounds dir narrow
  have rows := nonneg 1 (by omega)
  have target : ∀ (x y : Nat),
      view (grid.slabPoint 0 width dir true (IntegerArray.mk3 (x : Int) (y : Int) 0)) =
        view (IntegerArray.mk3 (grid.slabOffset 0 width dir + x)
          (y - grid.haloWidth .bw 1) 0) := by
    intro x y
    apply depends
    intro i below
    rcases i with _ | _ | i <;> simp [slabPoint, IntegerArray.mk3]
    omega
  have extent : (grid.haloExtent 0 width true 1).toNat =
      grid.haloWidth .bw 1 + ((grid.localSize 1).toNat + grid.haloWidth .fw 1) := by
    simp [haloExtent]
    omega
  have extentWidth : (grid.haloExtent 0 width true 0).toNat = width := by
    simp [haloExtent]
  rw [boxList_two]
  simp only [target]
  rw [extent, extentWidth, List.range_add, List.flatMap_append, List.range_add,
    List.map_append, List.flatMap_append, copyoutHalo2D0]
  -- the three parts are the backward halo, the own slab and the forward halo
  congr 1
  · rw [copyLines_halo2D twoDims depends narrow reads]
    simp only [haloOffset, neg_add_eq_sub]
  congr 1
  · rw [twoDims] at own
    rw [copyoutSubgrid_eq_boxList_view (by omega) own (by
        intro i less
        rcases i with _ | _ | i <;> simp [IntegerArray.mk3] <;> omega),
      boxList_two, List.flatMap_map]
    apply List.flatMap_congr
    intro y _
    simp only [IntegerArray.mk3, Int.toNat_natCast]
    apply List.map_congr_left
    intro x _
    apply depends
    intro i less
    rcases i with _ | _ | i <;> simp [IntegerArray.mk3]
    omega
  · rw [copyLines_halo2D twoDims depends narrow reads, List.map_map,
      List.flatMap_map]
    apply List.flatMap_congr
    intro y _
    apply List.map_congr_left
    intro x _
    congr 2
    simp [haloOffset]
    omega

/-! ### Three dimensions -/

include depends in
/-- The rows copied from a halo of the second dimension of a 3-D grid. -/
theorem copyLines_halo3D1
    (threeDims : grid.numDims = 3)
    (narrow : (width : Int) ≤ grid.localSize 0)
    (reads : grid.HaloReads 0 true view) (side : Dir)
    {plane : Nat}
    (planeBound : (plane : Int) <
      (grid.haloWidth .bw 2 : Int) + grid.localSize 2 + grid.haloWidth .fw 2) :
    copyLines (grid.haloPeer side 1) (grid.localSize 0) width
        (grid.haloWidth side 1)
        (grid.slabOffset 0 width dir +
          plane * (grid.localSize 0 * grid.haloWidth side 1)) =
      (List.range (grid.haloWidth side 1)).flatMap fun (y : Nat) =>
        (List.range width).map fun (x : Nat) =>
          view (IntegerArray.mk3 (grid.slabOffset 0 width dir + x)
            (grid.haloOffset 1 (grid.haloWidth side 1) side + y)
            (plane - grid.haloWidth .bw 2)) := by
  have halo := reads.halo rfl 1 (by omega) (by omega) side
  have start := slabOffset_bounds dir narrow
  rw [threeDims] at halo depends
  apply copyLines_eq
  intro y below x bound
  have read := halo
    (IntegerArray.mk3 (grid.slabOffset 0 width dir + x) (y : Int) (plane : Int)) (by
      intro i less
      rcases i with _ | _ | _ | i <;>
        simp [haloExtent, IntegerArray.mk3] <;> omega)
  have position :
      grid.slabOffset 0 width dir +
            plane * (grid.localSize 0 * grid.haloWidth side 1) +
          y * grid.localSize 0 + x =
        linear (grid.haloExtent 1 (grid.haloWidth side 1) true)
          (IntegerArray.mk3 (grid.slabOffset 0 width dir + x) (y : Int)
            (plane : Int)) 3 := by
    simp [linear_succ, volume_succ, haloExtent, IntegerArray.mk3]
    ring
  rw [position, read]
  apply depends
  intro i less
  rcases i with _ | _ | _ | i <;> simp [haloPoint, IntegerArray.mk3]
  omega

include depends in
/-- The rows copied from a halo of the last dimension of a 3-D grid. -/
theorem copyLines_halo3D2
    (threeDims : grid.numDims = 3)
    (narrow : (width : Int) ≤ grid.localSize 0)
    (reads : grid.HaloReads 0 true view) (side : Dir)
    {plane : Nat} (planeBound : plane < grid.haloWidth side 2) :
    copyLines (grid.haloPeer side 2) (grid.localSize 0) width
        (grid.localSize 1).toNat
        (grid.slabOffset 0 width dir +
          plane * (grid.localSize 0 * grid.localSize 1)) =
      (List.range (grid.localSize 1).toNat).flatMap fun (y : Nat) =>
        (List.range width).map fun (x : Nat) =>
          view (IntegerArray.mk3 (grid.slabOffset 0 width dir + x) (y : Int)
            (grid.haloOffset 2 (grid.haloWidth side 2) side + plane)) := by
  have halo := reads.halo rfl 2 (by omega) (by omega) side
  have start := slabOffset_bounds dir narrow
  rw [threeDims] at halo depends
  apply copyLines_eq
  intro y below x bound
  have read := halo
    (IntegerArray.mk3 (grid.slabOffset 0 width dir + x) (y : Int) (plane : Int)) (by
      intro i less
      rcases i with _ | _ | _ | i <;>
        simp [haloExtent, IntegerArray.mk3] <;> omega)
  have position :
      grid.slabOffset 0 width dir +
            plane * (grid.localSize 0 * grid.localSize 1) +
          y * grid.localSize 0 + x =
        linear (grid.haloExtent 2 (grid.haloWidth side 2) true)
          (IntegerArray.mk3 (grid.slabOffset 0 width dir + x) (y : Int)
            (plane : Int)) 3 := by
    simp [linear_succ, volume_succ, haloExtent, IntegerArray.mk3]
    ring
  rw [position, read]
  apply depends
  intro i less
  rcases i with _ | _ | _ | i <;> simp [haloPoint, IntegerArray.mk3]
  omega

/-- The rows copied from the own data of a 3-D grid. -/
theorem copyLines_own3D
    (threeDims : grid.numDims = 3)
    (narrow : (width : Int) ≤ grid.localSize 0)
    (reads : grid.HaloReads 0 true view)
    {plane : Nat} (planeBound : (plane : Int) < grid.localSize 2) :
    copyLines grid.data (grid.localSize 0) width
        (grid.localSize 1).toNat
        (grid.slabOffset 0 width dir +
          plane * (grid.localSize 0 * grid.localSize 1)) =
      (List.range (grid.localSize 1).toNat).flatMap fun (y : Nat) =>
        (List.range width).map fun (x : Nat) =>
          view (IntegerArray.mk3 (grid.slabOffset 0 width dir + x) (y : Int)
            (plane : Int)) := by
  have own := reads.own
  have start := slabOffset_bounds dir narrow
  rw [threeDims] at own
  apply copyLines_eq
  intro y below x bound
  have read := own
    (IntegerArray.mk3 (grid.slabOffset 0 width dir + x) (y : Int) (plane : Int)) (by
      intro i less
      rcases i with _ | _ | _ | i <;> simp [IntegerArray.mk3] <;> omega)
  have position :
      grid.slabOffset 0 width dir +
            plane * (grid.localSize 0 * grid.localSize 1) +
          y * grid.localSize 0 + x =
        linear grid.localSize
          (IntegerArray.mk3 (grid.slabOffset 0 width dir + x) (y : Int)
            (plane : Int)) 3 := by
    simp [linear_succ, volume_succ, IntegerArray.mk3]
    ring
  rw [position, read]

/-- The source pointers of `CopyoutHalo3D0` at the start of plane `k`. -/
def ptrsAt (grid : GridMPI α) (start : Int) (k : Nat) : Halo3D0Ptrs where
  haloBw1 := start + k * (grid.localSize 0 * grid.haloWidth .bw 1)
  haloFw1 := start + k * (grid.localSize 0 * grid.haloWidth .fw 1)
  haloBw2 :=
    start + (min k (grid.haloWidth .bw 2) : Nat) *
      (grid.localSize 0 * grid.localSize 1)
  halo0 :=
    start +
      (min (k - grid.haloWidth .bw 2) (grid.localSize 2).toNat : Nat) *
        (grid.localSize 0 * grid.localSize 1)
  haloFw2 :=
    start +
      (k - grid.haloWidth .bw 2 - (grid.localSize 2).toNat : Nat) *
        (grid.localSize 0 * grid.localSize 1)

/-- The cells of one plane of the slab, row by row. -/
def slabPlane
    (grid : GridMPI α) (view : IndexArray → α) (width : Nat) (dir : Dir)
    (plane : Int) : List α :=
  (List.range (grid.haloWidth .bw 1 +
      ((grid.localSize 1).toNat + grid.haloWidth .fw 1))).flatMap fun (y : Nat) =>
    (List.range width).map fun (x : Nat) =>
      view (IntegerArray.mk3 (grid.slabOffset 0 width dir + x)
        (y - grid.haloWidth .bw 1) (plane - grid.haloWidth .bw 2))

include nonneg depends in
/-- The rows of one plane between the halos of the second dimension. -/
theorem middleRows_eq
    (threeDims : grid.numDims = 3)
    (narrow : (width : Int) ≤ grid.localSize 0)
    (reads : grid.HaloReads 0 true view)
    {k : Nat}
    (bound : (k : Int) <
      (grid.haloWidth .bw 2 : Int) + grid.localSize 2 + grid.haloWidth .fw 2) :
    (if (k : Int) < grid.haloWidth .bw 2 then
        copyLines (grid.haloPeer .bw 2) (grid.localSize 0) width
          (grid.localSize 1).toNat
          (grid.ptrsAt (grid.slabOffset 0 width dir) k).haloBw2
      else if (k : Int) < grid.haloWidth .bw 2 + grid.localSize 2 then
        copyLines grid.data (grid.localSize 0) width (grid.localSize 1).toNat
          (grid.ptrsAt (grid.slabOffset 0 width dir) k).halo0
      else
        copyLines (grid.haloPeer .fw 2) (grid.localSize 0) width
          (grid.localSize 1).toNat
          (grid.ptrsAt (grid.slabOffset 0 width dir) k).haloFw2) =
      (List.range (grid.localSize 1).toNat).flatMap fun (y : Nat) =>
        (List.range width).map fun (x : Nat) =>
          view (IntegerArray.mk3 (grid.slabOffset 0 width dir + x) (y : Int)
            (k - grid.haloWidth .bw 2)) := by
  have depth := nonneg 2 (by omega)
  by_cases backward : (k : Int) < grid.haloWidth .bw 2
  · rw [if_pos backward]
    have pointer : min k (grid.haloWidth .bw 2) = k := by omega
    simp only [ptrsAt, pointer]
    rw [copyLines_halo3D2 depends threeDims narrow reads .bw (by omega)]
    simp only [haloOffset, neg_add_eq_sub]
  · rw [if_neg backward]
    by_cases own : (k : Int) < grid.haloWidth .bw 2 + grid.localSize 2
    · rw [if_pos own]
      have pointer :
          min (k - grid.haloWidth .bw 2) (grid.localSize 2).toNat =
            k - grid.haloWidth .bw 2 := by omega
      have plane :
          ((k - grid.haloWidth .bw 2 : Nat) : Int) = k - grid.haloWidth .bw 2 := by
        omega
      simp only [ptrsAt, pointer]
      rw [copyLines_own3D threeDims narrow reads (by omega), plane]
    · rw [if_neg own]
      have plane :
          grid.localSize 2 +
              ((k - grid.haloWidth .bw 2 - (grid.localSize 2).toNat : Nat) : Int) =
            k - grid.haloWidth .bw 2 := by
        omega
      simp only [ptrsAt]
      rw [copyLines_halo3D2 depends threeDims narrow reads .fw (by omega)]
      simp only [haloOffset, plane]

include nonneg in
/-- The pointers of the next plane. -/
theorem ptrsAt_succ (start : Int) (k : Nat)
    (threeDims : grid.numDims = 3) :
    (⟨(grid.ptrsAt start k).haloBw1 + grid.localSize 0 * grid.haloWidth .bw 1,
      (grid.ptrsAt start k).haloFw1 + grid.localSize 0 * grid.haloWidth .fw 1,
      if (k : Int) < grid.haloWidth .bw 2 then
        (grid.ptrsAt start k).haloBw2 + grid.localSize 0 * grid.localSize 1
      else (grid.ptrsAt start k).haloBw2,
      if (k : Int) < grid.haloWidth .bw 2 then (grid.ptrsAt start k).halo0
      else if (k : Int) < grid.haloWidth .bw 2 + grid.localSize 2 then
        (grid.ptrsAt start k).halo0 + grid.localSize 0 * grid.localSize 1
      else (grid.ptrsAt start k).halo0,
      if (k : Int) < grid.haloWidth .bw 2 then (grid.ptrsAt start k).haloFw2
      else if (k : Int) < grid.haloWidth .bw 2 + grid.localSize 2 then
        (grid.ptrsAt start k).haloFw2
      else
        (grid.ptrsAt start k).haloFw2 +
          grid.localSize 0 * grid.localSize 1⟩ : Halo3D0Ptrs) =
      grid.ptrsAt start (k + 1) := by
  have depth := nonneg 2 (by omega)
  have step : ∀ (lower upper : Nat) (area : Int), upper = lower + 1 →
      start + (lower : Int) * area + area = start + (upper : Int) * area := by
    intro lower upper area next
    subst upper
    push_cast
    ring
  have keep : ∀ (lower upper : Nat) (area : Int), upper = lower →
      start + (lower : Int) * area = start + (upper : Int) * area := by
    rintro lower upper area rfl
    rfl
  simp only [ptrsAt, Halo3D0Ptrs.mk.injEq]
  refine ⟨step _ _ _ rfl, step _ _ _ rfl, ?_, ?_, ?_⟩
  · split
    · exact step _ _ _ (by omega)
    · exact keep _ _ _ (by omega)
  · split
    · exact keep _ _ _ (by omega)
    · split
      · exact step _ _ _ (by omega)
      · exact keep _ _ _ (by omega)
  · split
    · exact keep _ _ _ (by omega)
    · split
      · exact keep _ _ _ (by omega)
      · exact step _ _ _ (by omega)

include nonneg depends

/-- The loop of `CopyoutHalo3D0` writes the remaining planes of the slab. -/
theorem copyoutHalo3D0Loop_eq
    (dir : Dir)
    (threeDims : grid.numDims = 3)
    (narrow : (width : Int) ≤ grid.localSize 0)
    (reads : grid.HaloReads 0 true view)
    {planes k : Nat}
    (bound : (k + planes : Int) ≤
      (grid.haloWidth .bw 2 : Int) + grid.localSize 2 + grid.haloWidth .fw 2) :
    grid.copyoutHalo3D0Loop width planes k
        (grid.ptrsAt (grid.slabOffset 0 width dir) k) =
      (List.range planes).flatMap fun (i : Nat) =>
        grid.slabPlane view width dir (k + i : Nat) := by
  induction planes generalizing k with
  | zero => rfl
  | succ planes induction =>
      have inside : (k : Int) <
          (grid.haloWidth .bw 2 : Int) + grid.localSize 2 +
            grid.haloWidth .fw 2 := by
        push_cast at bound
        omega
      have rows := nonneg 1 (by omega)
      rw [List.range_succ_eq_map, List.flatMap_cons, List.flatMap_map,
        copyoutHalo3D0Loop, ptrsAt_succ nonneg _ k threeDims]
      have shorter : ((k + 1 : Nat) + planes : Int) ≤
          (grid.haloWidth .bw 2 : Int) + grid.localSize 2 +
            grid.haloWidth .fw 2 := by
        push_cast at bound ⊢
        omega
      have next := induction shorter
      push_cast at next
      rw [next, middleRows_eq nonneg depends threeDims narrow reads inside]
      simp only [ptrsAt]
      rw [copyLines_halo3D1 depends threeDims narrow reads .bw inside,
        copyLines_halo3D1 depends threeDims narrow reads .fw inside]
      rw [slabPlane, List.range_add, List.flatMap_append, List.range_add,
        List.map_append, List.flatMap_append, List.flatMap_map, List.map_map,
        List.flatMap_map, List.append_assoc, List.append_assoc]
      -- backward halo rows, middle rows, forward halo rows, later planes
      congr 1
      · simp only [haloOffset, neg_add_eq_sub, Nat.add_zero]
      congr 1
      · simp
      congr 1
      · apply List.flatMap_congr
        intro y _
        apply List.map_congr_left
        intro x _
        congr 2
        simp [haloOffset]
        omega
      · apply List.flatMap_congr
        intro i _
        congr 1
        push_cast
        ring

/-- `CopyoutHalo3D0` writes the slab with its diagonal points. -/
theorem copyoutHalo3D0_eq
    (threeDims : grid.numDims = 3)
    (narrow : (width : Int) ≤ grid.localSize 0)
    (reads : grid.HaloReads 0 true view) :
    grid.copyoutHalo3D0 width dir =
      boxList 3 (grid.haloExtent 0 width true) fun index =>
        view (grid.slabPoint 0 width dir true index) := by
  have rows := nonneg 1 (by omega)
  have depth := nonneg 2 (by omega)
  have start : grid.ptrsAt (grid.slabOffset 0 width dir) 0 =
      ⟨grid.slabOffset 0 width dir, grid.slabOffset 0 width dir,
        grid.slabOffset 0 width dir, grid.slabOffset 0 width dir,
        grid.slabOffset 0 width dir⟩ := by
    simp [ptrsAt]
  have planes : ((0 : Nat) + (((grid.haloWidth .bw 2 : Int) + grid.localSize 2 +
        grid.haloWidth .fw 2).toNat : Nat) : Int) ≤
      (grid.haloWidth .bw 2 : Int) + grid.localSize 2 + grid.haloWidth .fw 2 := by
    omega
  have loop := copyoutHalo3D0Loop_eq nonneg depends dir threeDims narrow reads planes
  rw [start] at loop
  have extentDepth : (grid.haloExtent 0 width true 2).toNat =
      ((grid.haloWidth .bw 2 : Int) + grid.localSize 2 +
        grid.haloWidth .fw 2).toNat := by
    simp [haloExtent]
    omega
  have extentRows : (grid.haloExtent 0 width true 1).toNat =
      grid.haloWidth .bw 1 +
        ((grid.localSize 1).toNat + grid.haloWidth .fw 1) := by
    simp [haloExtent]
    omega
  have extentWidth : (grid.haloExtent 0 width true 0).toNat = width := by
    simp [haloExtent]
  rw [boxList_three, extentDepth, extentRows, extentWidth, copyoutHalo3D0]
  refine loop.trans ?_
  apply List.flatMap_congr
  intro z _
  rw [slabPlane, Nat.zero_add]
  apply List.flatMap_congr
  intro y _
  apply List.map_congr_left
  intro x _
  apply depends
  intro i below
  rcases i with _ | _ | _ | i <;> simp [slabPoint, IntegerArray.mk3]
  omega

/-- `CopyoutHalo3D1` writes the slab with its diagonal points. -/
theorem copyoutHalo3D1_eq
    (threeDims : grid.numDims = 3)
    (narrow : (width : Int) ≤ grid.localSize 1)
    (reads : grid.HaloReads 1 true view) :
    grid.copyoutHalo3D1 width dir =
      boxList 3 (grid.haloExtent 1 width true) fun index =>
        view (grid.slabPoint 1 width dir true index) := by
  have line := nonneg 0 (by omega)
  have depth := nonneg 2 (by omega)
  have start := slabOffset_bounds dir narrow
  have own := reads.own
  have halo := fun side => reads.halo rfl 2 (by omega) (by omega) side
  rw [threeDims] at own halo depends
  have haloPart : ∀ side,
      copyoutSubgrid 3 (grid.haloPeer side 2)
          (IntegerArray.mk3 (grid.localSize 0) (grid.localSize 1)
            (grid.haloWidth side 2))
          (IntegerArray.mk3 0 (grid.slabOffset 1 width dir) 0)
          (IntegerArray.mk3 (grid.localSize 0) (width : Int)
            (grid.haloWidth side 2)) =
        boxList 3
          (IntegerArray.mk3 (grid.localSize 0) (width : Int)
            (grid.haloWidth side 2)) fun index =>
          view (IntegerArray.mk3 (index 0) (grid.slabOffset 1 width dir + index 1)
            (grid.haloOffset 2 (grid.haloWidth side 2) side + index 2)) := by
    intro side
    have sizes : ∀ i < 3,
        grid.haloExtent 2 (grid.haloWidth side 2) true i =
          (IntegerArray.mk3 (grid.localSize 0) (grid.localSize 1)
            (grid.haloWidth side 2 : Int)) i := by
      intro i below
      rcases i with _ | _ | _ | i <;> simp [haloExtent, IntegerArray.mk3]
      omega
    have resized := (halo side).congr sizes fun _ _ => rfl
    rw [copyoutSubgrid_eq_boxList_view (by omega) resized
      (by
        intro i below
        rcases i with _ | _ | _ | i <;> simp [IntegerArray.mk3]
        omega)]
    apply boxList_congr fun _ _ => rfl
    intro index _
    apply depends
    intro i below
    rcases i with _ | _ | _ | i <;> simp [haloPoint, IntegerArray.mk3]
    omega
  have ownPart :
      copyoutSubgrid 3 grid.data grid.localSize
          (IntegerArray.mk3 0 (grid.slabOffset 1 width dir) 0)
          (IntegerArray.mk3 (grid.localSize 0) (width : Int) (grid.localSize 2)) =
        boxList 3
          (IntegerArray.mk3 (grid.localSize 0) (width : Int)
            (grid.localSize 2)) fun index =>
          view (IntegerArray.mk3 (index 0) (grid.slabOffset 1 width dir + index 1)
            (index 2)) := by
    rw [copyoutSubgrid_eq_boxList_view (by omega) own (by
        intro i below
        rcases i with _ | _ | _ | i <;> simp [IntegerArray.mk3] <;> omega)]
    apply boxList_congr fun _ _ => rfl
    intro index _
    apply depends
    intro i below
    rcases i with _ | _ | _ | i <;> simp [IntegerArray.mk3]
    omega
  have layered : ∀ extent : Int,
      IntegerArray.mk3 (grid.localSize 0) (width : Int) extent =
        Function.update
          (IntegerArray.mk3 (grid.localSize 0) (width : Int) 0) 2 extent := by
    intro extent
    funext i
    rcases i with _ | _ | _ | i <;> simp [IntegerArray.mk3, Function.update]
  have total : ∀ i < 3, grid.haloExtent 1 width true i =
      Function.update (IntegerArray.mk3 (grid.localSize 0) (width : Int) 0) 2
        ((grid.haloWidth .bw 2 : Int) +
          (grid.localSize 2 + grid.haloWidth .fw 2)) i := by
    intro i below
    rcases i with _ | _ | _ | i <;>
      simp [haloExtent, IntegerArray.mk3, Function.update] <;> omega
  rw [boxList_congr total fun _ _ => rfl,
    boxList_append (Int.natCast_nonneg _) (by omega),
    boxList_append depth (Int.natCast_nonneg _)]
  simp only [copyoutHalo3D1, threeDims]
  rw [haloPart .bw, haloPart .fw, ownPart]
  rw [layered (grid.haloWidth .bw 2 : Int), layered (grid.localSize 2),
    layered (grid.haloWidth .fw 2 : Int)]
  -- the three layers are the backward halo, the own slab and the forward halo
  congr 1
  · apply boxList_congr fun _ _ => rfl
    intro index _
    apply depends
    intro i below
    rcases i with _ | _ | _ | i <;>
      simp [slabPoint, haloOffset, IntegerArray.mk3] <;> omega
  congr 1
  · apply boxList_congr fun _ _ => rfl
    intro index _
    apply depends
    intro i below
    rcases i with _ | _ | _ | i <;>
      simp [slabPoint, IntegerArray.mk3, Function.update]
    omega
  · apply boxList_congr fun _ _ => rfl
    intro index _
    apply depends
    intro i below
    rcases i with _ | _ | _ | i <;>
      simp [slabPoint, haloOffset, IntegerArray.mk3, Function.update] <;> omega

end Diagonal

/-! ## The whole of `CopyoutHalo` -/

/-- The buffers of the dimensions other than the last are chunks. -/
def SelfChunks (grid : GridMPI α) : Prop :=
  ∀ dir e, e + 1 < grid.numDims → ∃ id, grid.haloSelf dir e = .chunk id

/-- The fields `CopyoutHalo` may change. -/
def withSendBuffers
    (grid : GridMPI α) (haloHasDiagonal : Bool)
    (haloSelf : Dir → Nat → HaloPtr) (haloSelfBufSize : Dir → SizeArray)
    (chunks : Nat → Int → α) (nextChunk : Nat) : GridMPI α :=
  { grid with
    haloHasDiagonal := haloHasDiagonal
    haloSelf := haloSelf
    haloSelfBufSize := haloSelfBufSize
    chunks := chunks
    nextChunk := nextChunk }

section CopyoutHalo

variable {dim width : Nat} {dir : Dir} {diagonal : Bool}

theorem packedHalo_eq
    (dir : Dir)
    (nonneg : ∀ i < grid.numDims, 0 ≤ grid.localSize i)
    (depends : Depends grid.numDims view)
    (dims : grid.numDims ≤ 3) (bound : dim + 1 < grid.numDims)
    (narrow : (width : Int) ≤ grid.localSize dim)
    (reads : grid.HaloReads dim diagonal view) :
    grid.packedHalo dim width dir diagonal =
      some (boxList grid.numDims (grid.haloExtent dim width diagonal) fun index =>
        view (grid.slabPoint dim width dir diagonal index)) := by
  cases diagonal with
  | false => exact packedHalo_plain (by omega) narrow reads
  | true =>
      simp only [packedHalo]
      rw [if_neg (by simp)]
      by_cases twoDims : grid.numDims = 2
      · have first : dim = 0 := by omega
        subst dim
        rw [if_pos twoDims,
          copyoutHalo2D0_eq nonneg depends twoDims narrow reads, twoDims]
      · have threeDims : grid.numDims = 3 := by omega
        rw [if_neg twoDims, if_pos threeDims]
        by_cases first : dim = 0
        · subst dim
          rw [if_pos rfl,
            copyoutHalo3D0_eq nonneg depends threeDims narrow reads, threeDims]
        · have second : dim = 1 := by omega
          subst dim
          rw [if_neg first, if_pos rfl,
            copyoutHalo3D1_eq nonneg depends threeDims narrow reads, threeDims]

/-- Sent straight out of the data, the last dimension's slab is the view's. -/
theorem readCells_last
    (nonneg : ∀ i < grid.numDims, 0 ≤ grid.localSize i)
    (last : dim + 1 = grid.numDims)
    (narrow : (width : Int) ≤ grid.localSize dim)
    (own : Reads grid.numDims grid.data grid.localSize view) :
    grid.readCells
        (.data (grid.dataId 0)
          (match dir with
          | .fw => 0
          | .bw =>
              IntegerArray.accumulate
                (Function.update grid.localSize dim
                  (grid.localSize dim - width)) grid.numDims))
        (grid.calcHaloSize dim width diagonal) =
      boxList grid.numDims (grid.haloExtent dim width diagonal) fun index =>
        view (grid.slabPoint dim width dir diagonal index) := by
  have extentBelow : ∀ i < dim,
      grid.haloExtent dim width diagonal i = grid.localSize i := by
    intro i below
    rw [haloExtent, if_neg (by omega), if_neg (by omega)]
  have extentDim : grid.haloExtent dim width diagonal dim = width := by
    simp [haloExtent]
  have extentNonneg : ∀ i < grid.numDims,
      0 ≤ grid.haloExtent dim width diagonal i := by
    intro i below
    rcases Nat.lt_or_ge i dim with lower | higher
    · rw [extentBelow i lower]
      exact nonneg i below
    · have same : i = dim := by omega
      rw [same, extentDim]
      omega
  have start : (match dir with
      | .fw => 0
      | .bw =>
          IntegerArray.accumulate
            (Function.update grid.localSize dim
              (grid.localSize dim - width)) grid.numDims) =
        grid.slabOffset dim width dir * volume grid.localSize dim := by
    cases dir with
    | fw => simp [slabOffset]
    | bw =>
        rw [IntegerArray.accumulate_eq_volume, ← last, volume_succ,
          Function.update_self, slabOffset,
          volume_congr fun i below => Function.update_of_ne (Nat.ne_of_lt below) _ _]
        ring
  have shifted : (boxList grid.numDims (grid.haloExtent dim width diagonal) fun index =>
        view (grid.slabPoint dim width dir diagonal index)) =
      boxList grid.numDims (grid.haloExtent dim width diagonal) fun index =>
        grid.data (grid.slabOffset dim width dir * volume grid.localSize dim +
          linear (grid.haloExtent dim width diagonal) index grid.numDims) := by
    apply boxList_congr fun _ _ => rfl
    intro index enumerated
    have inside : InBox grid.numDims grid.localSize
        (grid.slabPoint dim width dir diagonal index) := by
      intro i below
      have bounds := enumerated.1 i below
      have offset := slabOffset_bounds dir narrow
      rcases Nat.lt_or_ge i dim with lower | higher
      · rw [extentBelow i lower] at bounds
        rw [slabPoint, if_neg (by omega), if_neg (by omega)]
        exact bounds
      · have same : i = dim := by omega
        subst i
        rw [extentDim] at bounds
        rw [slabPoint, if_pos rfl]
        omega
    have sameIndex : ∀ i < dim,
        grid.slabPoint dim width dir diagonal index i = index i := by
      intro i below
      rw [slabPoint, if_neg (by omega), if_neg (by omega)]
    have slabLinear := linear_congr (fun i (_ : i < dim) => Eq.refl (grid.localSize i))
      sameIndex
    have extentLinear := linear_congr extentBelow
      fun i (_ : i < dim) => Eq.refl (index i)
    rw [← own _ inside, ← last, linear_succ, linear_succ, slabLinear, extentLinear,
      volume_congr extentBelow, slabPoint, if_pos rfl]
    congr 1
    ring
  rw [shifted, boxList_linear extentNonneg fun position =>
      grid.data (grid.slabOffset dim width dir * volume grid.localSize dim + position),
    readCells, start]
  have count : grid.calcHaloSize dim width diagonal =
      (volume (grid.haloExtent dim width diagonal) grid.numDims).toNat := by
    rw [calcHaloSize_eq_length dim width diagonal (fun _ => ()), length_boxList,
      volume_eq_weight extentNonneg, Int.toNat_natCast]
  rw [count]
  rfl

/-- What is packed does not depend on the send buffers. -/
theorem packedHalo_withSendBuffers
    (haloHasDiagonal : Bool) (haloSelf : Dir → Nat → HaloPtr)
    (haloSelfBufSize : Dir → SizeArray) (chunks : Nat → Int → α) (nextChunk : Nat) :
    (grid.withSendBuffers haloHasDiagonal haloSelf haloSelfBufSize chunks
        nextChunk).packedHalo dim width dir diagonal =
      grid.packedHalo dim width dir diagonal := by
  have loop : ∀ planes k ptrs,
      (grid.withSendBuffers haloHasDiagonal haloSelf haloSelfBufSize chunks
          nextChunk).copyoutHalo3D0Loop width planes k ptrs =
        grid.copyoutHalo3D0Loop width planes k ptrs := by
    intro planes
    induction planes with
    | zero => intro k ptrs; rfl
    | succ planes induction =>
        intro k ptrs
        simp only [copyoutHalo3D0Loop, induction]
        rfl
  simp only [packedHalo, copyoutHalo3D0, loop]
  rfl

/-- Allocating a send buffer leaves a chunk to write to. -/
theorem getHaloBuf_chunk
    (width : Nat) (dir : Dir) (diagonal : Bool)
    (chunks : grid.SelfChunks) (bound : dim + 1 < grid.numDims) :
    ∃ haloSelf haloSelfBufSize nextChunk id,
      grid.getHaloBuf dim width dir diagonal =
          grid.withSendBuffers grid.haloHasDiagonal haloSelf haloSelfBufSize
            grid.chunks nextChunk ∧
        haloSelf dir dim = .chunk id ∧
        ∀ side e, e + 1 < grid.numDims → ∃ id, haloSelf side e = .chunk id := by
  simp only [getHaloBuf]
  split
  · refine ⟨_, _, _, grid.nextChunk, rfl, by simp, ?_⟩
    intro side e below
    by_cases sameDir : side = dir
    · subst sameDir
      by_cases sameDim : e = dim
      · subst sameDim
        exact ⟨grid.nextChunk, by simp⟩
      · obtain ⟨id, equal⟩ := chunks side e below
        exact ⟨id, by simpa [sameDim] using equal⟩
    · obtain ⟨id, equal⟩ := chunks side e below
      exact ⟨id, by simpa [sameDir] using equal⟩
  · obtain ⟨id, equal⟩ := chunks dir dim bound
    exact ⟨grid.haloSelf, grid.haloSelfBufSize, grid.nextChunk, id, rfl, equal, chunks⟩

/--
`CopyoutHalo` succeeds, changes send buffers only, and leaves behind the send
pointer exactly the view's values on the slab.
-/
theorem copyoutHalo_spec
    (width : Nat) (dir : Dir)
    (nonneg : ∀ i < grid.numDims, 0 ≤ grid.localSize i)
    (depends : Depends grid.numDims view)
    (dims : grid.numDims ≤ 3) (bound : dim < grid.numDims)
    (narrow : (width : Int) ≤ grid.localSize dim)
    (chunks : grid.SelfChunks)
    (reads : grid.HaloReads dim diagonal view) :
    ∃ haloSelf haloSelfBufSize newChunks nextChunk,
      grid.copyoutHalo dim width dir diagonal =
          some (grid.withSendBuffers diagonal haloSelf haloSelfBufSize
            newChunks nextChunk) ∧
        (∀ side e, e + 1 < grid.numDims → ∃ id, haloSelf side e = .chunk id) ∧
        (grid.withSendBuffers diagonal haloSelf haloSelfBufSize newChunks
            nextChunk).readCells (haloSelf dir dim)
            (grid.calcHaloSize dim width diagonal) =
          boxList grid.numDims (grid.haloExtent dim width diagonal) fun index =>
            view (grid.slabPoint dim width dir diagonal index) := by
  by_cases last : dim = grid.numDims - 1
  · have lastDim : dim + 1 = grid.numDims := by omega
    refine ⟨Function.update grid.haloSelf dir
      (Function.update (grid.haloSelf dir) dim
        (.data (grid.dataId 0)
          (match dir with
          | .fw => 0
          | .bw =>
              IntegerArray.accumulate
                (Function.update grid.localSize dim
                  (grid.localSize dim - width)) grid.numDims))),
      grid.haloSelfBufSize, grid.chunks, grid.nextChunk, ?_, ?_, ?_⟩
    · simp only [copyoutHalo]
      rw [if_pos last]
      rfl
    · intro side e below
      obtain ⟨id, equal⟩ := chunks side e below
      refine ⟨id, ?_⟩
      by_cases sameDir : side = dir
      · subst sameDir
        simpa [Nat.ne_of_lt (show e < dim by omega)] using equal
      · simpa [sameDir] using equal
    · simp only [Function.update_self]
      exact readCells_last nonneg lastDim narrow reads.own
  · have notLast : dim + 1 < grid.numDims := by omega
    let marked : GridMPI α := { grid with haloHasDiagonal := diagonal }
    obtain ⟨haloSelf, sizes, next, id, allocated, here, allChunks⟩ :=
      marked.getHaloBuf_chunk width dir diagonal chunks notLast
    have packed := packedHalo_eq dir nonneg depends dims notLast narrow reads
    refine ⟨haloSelf, sizes, Function.update grid.chunks id
      (overwrite (grid.chunks id)
        (boxList grid.numDims (grid.haloExtent dim width diagonal) fun index =>
          view (grid.slabPoint dim width dir diagonal index))),
      next, ?_, allChunks, ?_⟩
    · have unfolded : grid.copyoutHalo dim width dir diagonal =
          ((marked.getHaloBuf dim width dir diagonal).packedHalo dim width dir
              diagonal).map fun cells =>
            (marked.getHaloBuf dim width dir diagonal).writePtr
              ((marked.getHaloBuf dim width dir diagonal).haloSelf dir dim) cells := by
        simp only [copyoutHalo]
        rw [if_neg last]
      have samePacked : marked.packedHalo dim width dir diagonal =
          grid.packedHalo dim width dir diagonal :=
        grid.packedHalo_withSendBuffers diagonal grid.haloSelf grid.haloSelfBufSize
          grid.chunks grid.nextChunk
      rw [unfolded, allocated, packedHalo_withSendBuffers, samePacked, packed]
      simp only [Option.map_some, withSendBuffers, writePtr, here]
      rfl
    · rw [here, readCells, calcHaloSize_eq_length dim width diagonal fun index =>
        view (grid.slabPoint dim width dir diagonal index)]
      simp only [readPtr, withSendBuffers, Function.update_self]
      exact map_range_overwrite _ _

end CopyoutHalo

end GridMPI

end Physis.Runtime
