import Physis.Library.StridedLoops
import Physis.Library.Stores
import Physis.Runtime.Buffer
import Physis.Runtime.GridRegistry
import Physis.Runtime.HaloPacking

/-!
# Halo packing on the device

`GridMPICUDA3D` keeps its cells in pitched device memory.  A halo is packed in
two steps: a kernel copies the slab of the own cells to pinned host memory, and
the host inserts the cells of the halos received before.  The elements sent are
those `GridMPI` packs in one pass over host memory.
-/

namespace Physis.Runtime

open Physis.Library
open Physis.Library.RowMajor
open Physis.Library.StridedLoops
open Physis.Library.Stores

variable {α : Type}

/-! ## The device buffer -/

/--
`BufferCUDADev3D`: device memory by elements, with `pp_.pitch / elm_size_` and
`pp_.ysize`.
-/
structure BufferCUDADev3D (α : Type) where
  elmSize : Nat
  size : IndexArray
  memory : Int → α
  pitch : Int
  ysize : Int

namespace BufferCUDADev3D

/-- What one thread of `BufferCUDADev3D_copyout_kernel` stores. -/
def copyoutKernelThread
    (src : Int → α) (pos extent : IndexArray) (xdim ydim : Int)
    (gridDim blockDimX blockDimY : Nat)
    (blockIdx threadIdxX threadIdxY : Nat) : List (Int × α) :=
  (strideLoop (blockIdx + 0) (extent 2) gridDim).flatMap fun k =>
    (strideLoop (threadIdxY + 0) (extent 1) blockDimY).flatMap fun j =>
      (strideLoop (threadIdxX + 0) (extent 0) blockDimX).map fun i =>
        (extent 0 * extent 1 * k + extent 0 * j + i,
          src (xdim * ydim * (k + pos 2) + xdim * (j + pos 1) + (i + pos 0)))

/-- What all threads of `BufferCUDADev3D_copyout_kernel` store. -/
def copyoutKernel
    (src : Int → α) (pos extent : IndexArray) (xdim ydim : Int)
    (gridDim blockDimX blockDimY : Nat) : List (Int × α) :=
  (List.range gridDim).flatMap fun blockIdx =>
    (List.range blockDimX).flatMap fun threadIdxX =>
      (List.range blockDimY).flatMap fun threadIdxY =>
        copyoutKernelThread src pos extent xdim ydim gridDim blockDimX blockDimY
          blockIdx threadIdxX threadIdxY

/-- What `cudaMemcpy3D` from pitched memory to a dense box stores. -/
def memcpy3D
    (src : Int → α) (pos extent : IndexArray) (pitch ysize : Int) :
    List (Int × α) :=
  boxList 3 extent fun index =>
    (linear extent index 3,
      src (linear (IntegerArray.mk3 pitch ysize 0) (pos + index) 3))

variable (buffer : BufferCUDADev3D α)

/--
`Copyout_Opt`, with the order in which the stores of the threads arrive.  There
is a kernel for elements of four and of eight bytes only.
-/
def copyoutOpt
    (schedule : List (Int × α) → List (Int × α))
    (dst : Int → α) (offset size : IndexArray) : Option (Int → α) :=
  let bdim : Int × Int := if size 0 < 4 then (size 0, 64) else (64, size 1)
  if buffer.elmSize = 4 ∨ buffer.elmSize = 8 then
    some (applyStores dst (schedule
      (copyoutKernel buffer.memory offset size buffer.pitch buffer.ysize
        (size 2).toNat bdim.1.toNat bdim.2.toNat)))
  else none

/-- `Copyout` to mapped host memory that has room for the box -/
def copyout
    (schedule : List (Int × α) → List (Int × α))
    (dst : Int → α) (offset size : IndexArray) : Option (Int → α) :=
  if IntegerArray.lessEqual (fun i => offset i + size i) buffer.size then
    if size 0 < 4 ∨ size 1 < 4 then buffer.copyoutOpt schedule dst offset size
    else some (applyStores dst
      (memcpy3D buffer.memory offset size buffer.pitch buffer.ysize))
  else none

end BufferCUDADev3D

/-! ## The grid -/

/--
`GridMPICUDA3D`: a `GridMPI` whose cells are in a device buffer, with the mapped
memory `halo_self_cuda_` and the received halos `halo_peer_cuda_` of the host.
-/
structure GridMPICUDA3D (α : Type) extends GridMPI α where
  buffer : BufferCUDADev3D α
  haloSelfCuda : Nat → Dir → Int → α
  haloPeerCuda : Nat → Dir → Int → α

namespace GridMPICUDA3D

variable (grid : GridMPICUDA3D α)

/-- The loop over `k` of `CopyoutHalo3D0`, for the last `planes` values of `k`. -/
def copyoutHalo3D0Loop (self : Int → α) (width : Nat) :
    Nat → Int → GridMPI.Halo3D0Ptrs → List α
  | 0, _, _ => []
  | planes + 1, k, ptrs =>
      let line := grid.localSize 0
      let rows := (grid.localSize 1).toNat
      let inBw := k < grid.haloWidth .bw 2
      let inOwn := k < grid.haloWidth .bw 2 + grid.localSize 2
      let haloXSize := if inBw then line else if inOwn then (width : Int) else line
      GridMPI.copyLines (grid.haloPeerCuda 1 .bw) line width
          (grid.haloWidth .bw 1) ptrs.haloBw1 ++
        ((if inBw then
            GridMPI.copyLines (grid.haloPeerCuda 2 .bw) haloXSize width rows
              ptrs.haloBw2
          else if inOwn then
            GridMPI.copyLines self haloXSize width rows ptrs.halo0
          else
            GridMPI.copyLines (grid.haloPeerCuda 2 .fw) haloXSize width rows
              ptrs.haloFw2) ++
          (GridMPI.copyLines (grid.haloPeerCuda 1 .fw) line width
              (grid.haloWidth .fw 1) ptrs.haloFw1 ++
            copyoutHalo3D0Loop self width planes (k + 1)
              { haloBw1 := ptrs.haloBw1 +
                  grid.localSize 0 * grid.haloWidth .bw 1
                haloFw1 := ptrs.haloFw1 +
                  grid.localSize 0 * grid.haloWidth .fw 1
                haloBw2 :=
                  if inBw then ptrs.haloBw2 + haloXSize * grid.localSize 1
                  else ptrs.haloBw2
                halo0 :=
                  if inBw then ptrs.halo0
                  else if inOwn then ptrs.halo0 + haloXSize * grid.localSize 1
                  else ptrs.halo0
                haloFw2 :=
                  if inBw then ptrs.haloFw2
                  else if inOwn then ptrs.haloFw2
                  else ptrs.haloFw2 + haloXSize * grid.localSize 1 }))

/-- `CopyoutHalo3D0`: the elements written, in order. -/
def copyoutHalo3D0 (self : Int → α) (width : Nat) (dir : Dir) : List α :=
  let xoffset := grid.slabOffset 0 width dir
  grid.copyoutHalo3D0Loop self width
    ((grid.haloWidth .bw 2 : Int) + grid.localSize 2 +
      grid.haloWidth .fw 2).toNat 0
    ⟨xoffset, xoffset, xoffset, 0, xoffset⟩

/-- `CopyoutHalo3D1`: the elements written, in order. -/
def copyoutHalo3D1 (self : Int → α) (width : Nat) (dir : Dir) : List α :=
  let sgOffset : IndexArray :=
    IntegerArray.mk3 0 (grid.slabOffset 1 width dir) 0
  let sgSize (extent : Int) : IndexArray :=
    IntegerArray.mk3 (grid.localSize 0) (width : Int) extent
  let haloSize (extent : Int) : IndexArray :=
    IntegerArray.mk3 (grid.localSize 0) (grid.localSize 1) extent
  copyoutSubgrid grid.numDims (grid.haloPeerCuda 2 .bw)
      (haloSize (grid.haloWidth .bw 2)) sgOffset (sgSize (grid.haloWidth .bw 2)) ++
    (((List.range (IntegerArray.accumulate (sgSize (grid.localSize 2)) 3).toNat).map
        fun (position : Nat) => self position) ++
      copyoutSubgrid grid.numDims (grid.haloPeerCuda 2 .fw)
        (haloSize (grid.haloWidth .fw 2)) sgOffset
        (sgSize (grid.haloWidth .fw 2)))

/--
`CopyoutHalo`: the elements of `halo_self_mpi_`; `none` where an assertion fails
or the source aborts.
-/
def copyoutHalo
    (schedule : List (Int × α) → List (Int × α))
    (dim width : Nat) (dir : Dir) (diagonal : Bool) : Option (List α) := do
  let haloOffset : IndexArray :=
    Function.update (fun _ => 0) dim (grid.slabOffset dim width dir)
  let haloSize : IndexArray :=
    Function.update grid.localSize dim (width : Int)
  let self ← grid.buffer.copyout schedule (grid.haloSelfCuda dim dir)
    haloOffset haloSize
  if dim = grid.numDims - 1 ∨ diagonal = false then
    some ((List.range (IntegerArray.accumulate haloSize grid.numDims).toNat).map
      fun (position : Nat) => self position)
  else if grid.numDims = 3 then
    if dim = 0 then some (grid.copyoutHalo3D0 self width dir)
    else if dim = 1 then some (grid.copyoutHalo3D1 self width dir)
    else none
  else none

end GridMPICUDA3D

/-! ## What reaches the pinned memory -/

/-- A position of a three-dimensional box, as the kernels compute it. -/
theorem linear_mk3 (size : IndexArray) (x y z : Int) :
    linear size (IntegerArray.mk3 x y z) 3 = size 0 * size 1 * z + size 0 * y + x := by
  simp [linear_succ, volume_succ, IntegerArray.mk3]
  ring

theorem inBox_mk3 {size : IndexArray} {x y z : Int} :
    InBox 3 size (IntegerArray.mk3 x y z) ↔
      (0 ≤ x ∧ x < size 0) ∧ (0 ≤ y ∧ y < size 1) ∧ 0 ≤ z ∧ z < size 2 := by
  constructor
  · intro member
    exact ⟨member 0 (by omega), member 1 (by omega), member 2 (by omega)⟩
  · rintro ⟨first, second, third⟩ i below
    rcases i with _ | _ | _ | i
    · exact first
    · exact second
    · exact third
    · omega

namespace BufferCUDADev3D

section Kernel

variable
    {src : Int → α} {pos extent : IndexArray} {xdim ydim : Int}
    {gridDim blockDimX blockDimY : Nat}

/-- Every store of the kernel copies one cell of the box. -/
theorem exists_index_of_mem_copyoutKernel
    {store : Int × α}
    (member : store ∈
      copyoutKernel src pos extent xdim ydim gridDim blockDimX blockDimY) :
    ∃ index, InBox 3 extent index ∧
      store = (linear extent index 3,
        src (linear (IntegerArray.mk3 xdim ydim 0) (pos + index) 3)) := by
  simp only [copyoutKernel, copyoutKernelThread, List.mem_flatMap, List.mem_map,
    List.mem_range] at member
  obtain ⟨block, blockBound, threadX, xBound, threadY, yBound, k, depth, j, row, i,
    column, rfl⟩ := member
  have depthBound := (exists_thread_iff (Nat.zero_lt_of_lt blockBound)).mp
    ⟨block, blockBound, depth⟩
  have rowBound := (exists_thread_iff (Nat.zero_lt_of_lt yBound)).mp
    ⟨threadY, yBound, row⟩
  have columnBound := (exists_thread_iff (Nat.zero_lt_of_lt xBound)).mp
    ⟨threadX, xBound, column⟩
  refine ⟨IntegerArray.mk3 i j k, inBox_mk3.mpr ⟨columnBound, rowBound, depthBound⟩, ?_⟩
  rw [linear_mk3]
  congr 2
  simp [linear_succ, volume_succ, IntegerArray.mk3]
  ring

/-- Every cell of the box is copied by some thread. -/
theorem mem_copyoutKernel
    {index : IndexArray} (member : InBox 3 extent index)
    (grid : 0 < gridDim) (columns : 0 < blockDimX) (rows : 0 < blockDimY) :
    ∃ store ∈ copyoutKernel src pos extent xdim ydim gridDim blockDimX blockDimY,
      store.1 = linear extent index 3 := by
  obtain ⟨block, blockBound, depth⟩ := (exists_thread_iff grid).mpr (member 2 (by omega))
  obtain ⟨threadX, xBound, column⟩ := (exists_thread_iff columns).mpr (member 0 (by omega))
  obtain ⟨threadY, yBound, row⟩ := (exists_thread_iff rows).mpr (member 1 (by omega))
  refine ⟨(extent 0 * extent 1 * index 2 + extent 0 * index 1 + index 0,
    src (xdim * ydim * (index 2 + pos 2) + xdim * (index 1 + pos 1) +
      (index 0 + pos 0))), ?_, ?_⟩
  · simp only [copyoutKernel, copyoutKernelThread, List.mem_flatMap, List.mem_map,
      List.mem_range]
    exact ⟨block, blockBound, threadX, xBound, threadY, yBound, index 2, depth,
      index 1, row, index 0, column, rfl⟩
  · simp [linear_succ, volume_succ]
    ring

end Kernel

variable {buffer : BufferCUDADev3D α}

/-- Stores that copy a box leave it in the memory, in whatever order they come. -/
theorem applyStores_box
    {src dst : Int → α} {pos extent dims : IndexArray}
    {stores scheduled : List (Int × α)}
    (order : scheduled.Perm stores)
    (sound : ∀ store ∈ stores, ∃ index, InBox 3 extent index ∧
      store = (linear extent index 3, src (linear dims (pos + index) 3)))
    {index : IndexArray} (member : InBox 3 extent index)
    (complete : ∃ store ∈ stores, store.1 = linear extent index 3) :
    applyStores dst scheduled (linear extent index 3) =
      src (linear dims (pos + index) 3) := by
  apply applyStores_perm_eq order ?_ complete
  intro store stored same
  obtain ⟨other, otherMember, rfl⟩ := sound store stored
  have equal := eq_of_linear_eq otherMember member same
  refine congrArg src (linear_congr (fun _ _ => rfl) fun i below => ?_)
  simp only [Pi.add_apply, equal i below]

/-- After `Copyout` the host memory holds the box, densely. -/
theorem copyout_eq_some
    {schedule : List (Int × α) → List (Int × α)}
    (order : ∀ stores, (schedule stores).Perm stores)
    (elements : buffer.elmSize = 4 ∨ buffer.elmSize = 8)
    (dst : Int → α) {offset size : IndexArray}
    (guard : IntegerArray.lessEqual (fun i => offset i + size i) buffer.size = true) :
    ∃ self, buffer.copyout schedule dst offset size = some self ∧
      ∀ index, InBox 3 size index →
        self (linear size index 3) =
          buffer.memory
            (linear (IntegerArray.mk3 buffer.pitch buffer.ysize 0)
              (offset + index) 3) := by
  by_cases narrow : size 0 < 4 ∨ size 1 < 4
  · refine ⟨_, by rw [copyout, if_pos guard, if_pos narrow, copyoutOpt, if_pos elements],
      ?_⟩
    intro index member
    apply applyStores_box (order _)
      (fun store stored => exists_index_of_mem_copyoutKernel stored) member
    have first := member 0 (by omega)
    have second := member 1 (by omega)
    have third := member 2 (by omega)
    apply mem_copyoutKernel member
    · omega
    · split <;> simp only <;> omega
    · split <;> simp only <;> omega
  · refine ⟨_, by rw [copyout, if_pos guard, if_neg narrow], ?_⟩
    intro index member
    apply applyStores_box (List.Perm.refl _) ?_ member
    · refine ⟨_, mem_boxList.mpr ⟨restrict 3 index, ⟨?_, ?_⟩, rfl⟩, ?_⟩
      · exact member.congr (fun _ _ => rfl) fun i below => by simp [restrict, below]
      · intro i above
        simp [restrict, not_lt.mpr above]
      · exact linear_congr (fun _ _ => rfl) fun i below => by simp [restrict, below]
    · intro store stored
      obtain ⟨other, enumerated, rfl⟩ := mem_boxList.mp stored
      exact ⟨other, enumerated.1, rfl⟩

end BufferCUDADev3D

/-! ## The two ways of packing -/

/-- The size of an element of a type -/
def PSType.elmSize : PSType → Nat
  | .psInt => 4
  | .psLong => 8
  | .psFloat => 4
  | .psDouble => 8

theorem PSType.elmSize_eq (type : PSType) : type.elmSize = 4 ∨ type.elmSize = 8 := by
  cases type <;> simp [PSType.elmSize]

/--
A device grid and a host grid of the same subgrid hold the same cells, their own
ones and those of the halos received.
-/
structure SameCells (cuda : GridMPICUDA3D α) (host : GridMPI α) : Prop where
  numDims : cuda.numDims = host.numDims
  localSize : cuda.localSize = host.localSize
  haloWidth : cuda.haloWidth = host.haloWidth
  own : ∀ index, InBox 3 host.localSize index →
    cuda.buffer.memory
        (linear (IntegerArray.mk3 cuda.buffer.pitch cuda.buffer.ysize 0) index 3) =
      host.data (linear host.localSize index 3)
  halo : ∀ dim dir position, 0 ≤ position →
    position < volume (host.haloExtent dim (host.haloWidth dir dim) true) 3 →
      cuda.haloPeerCuda dim dir position = host.haloPeer dir dim position

namespace GridMPICUDA3D

/-- The device buffer is the one `InitBuffer` allocates for elements of a type. -/
structure Allocated (cuda : GridMPICUDA3D α) : Prop where
  size : cuda.buffer.size = cuda.localSize
  elements : ∃ type : PSType, cuda.buffer.elmSize = type.elmSize

/-- Lines that hold the same cells are copied alike, whatever their strides. -/
theorem copyLines_congr
    {left right : Int → α} {leftStride rightStride leftStart rightStart : Int}
    {width lines : Nat}
    (cells : ∀ y < lines, ∀ x < width,
      left (leftStart + y * leftStride + x) = right (rightStart + y * rightStride + x)) :
    GridMPI.copyLines left leftStride width lines leftStart =
      GridMPI.copyLines right rightStride width lines rightStart := by
  rw [copyLines_eq cells, copyLines_eq fun _ _ _ _ => rfl]

section Packing

variable
    {cuda : GridMPICUDA3D α} {host : GridMPI α} {self : Int → α}
    {width : Nat} {dir : Dir}
    (same : SameCells cuda host)
    (threeDims : host.numDims = 3)
    (nonneg : ∀ i < host.numDims, 0 ≤ host.localSize i)

/-- The mapped memory holds the slab at the edge of a dimension. -/
def HoldsSlab
    (host : GridMPI α) (self : Int → α) (dim width : Nat) (dir : Dir) : Prop :=
  ∀ index, InBox 3 (Function.update host.localSize dim (width : Int)) index →
    self (linear (Function.update host.localSize dim (width : Int)) index 3) =
      host.data (linear host.localSize
        (Function.update (fun _ => (0 : Int)) dim (host.slabOffset dim width dir) + index) 3)

/-- A halo of the last dimension is as wide as the subgrid in the others. -/
theorem haloExtent_last (host : GridMPI α) (side : Dir) :
    ∀ i < 3, host.haloExtent 2 (host.haloWidth side 2) true i =
      IntegerArray.mk3 (host.localSize 0) (host.localSize 1)
        (host.haloWidth side 2 : Int) i := by
  intro i below
  rcases i with _ | _ | _ | i
  · simp [IntegerArray.mk3, GridMPI.haloExtent]
  · simp [IntegerArray.mk3, GridMPI.haloExtent]
  · simp [IntegerArray.mk3, GridMPI.haloExtent]
  · omega

include same in
/-- Lines of a plane of a halo whose planes have full lines. -/
theorem copyLines_halo
    (narrow : (width : Int) ≤ host.localSize 0) {dim : Nat} (side : Dir)
    {rows planes : Int}
    (extents : ∀ i < 3, host.haloExtent dim (host.haloWidth side dim) true i =
      IntegerArray.mk3 (host.localSize 0) rows planes i)
    {plane : Nat} (bound : (plane : Int) < planes) :
    GridMPI.copyLines (cuda.haloPeerCuda dim side) (host.localSize 0) width
        rows.toNat
        (host.slabOffset 0 width dir + plane * (host.localSize 0 * rows)) =
      GridMPI.copyLines (host.haloPeer side dim) (host.localSize 0) width
        rows.toNat
        (host.slabOffset 0 width dir + plane * (host.localSize 0 * rows)) := by
  have start := GridMPI.slabOffset_bounds dir narrow
  apply copyLines_congr
  intro y row x column
  have member : InBox 3 (host.haloExtent dim (host.haloWidth side dim) true)
      (IntegerArray.mk3 (host.slabOffset 0 width dir + x) (y : Int) (plane : Int)) := by
    rw [inBox_mk3, extents 0 (by omega), extents 1 (by omega), extents 2 (by omega)]
    simp [IntegerArray.mk3]
    omega
  have position :
      host.slabOffset 0 width dir + plane * (host.localSize 0 * rows) +
          y * host.localSize 0 + x =
        linear (host.haloExtent dim (host.haloWidth side dim) true)
          (IntegerArray.mk3 (host.slabOffset 0 width dir + x) (y : Int)
            (plane : Int)) 3 := by
    rw [linear_mk3, extents 0 (by omega), extents 1 (by omega)]
    simp [IntegerArray.mk3]
    ring
  rw [position]
  exact same.halo dim side _ (linear_nonneg member) (linear_lt_volume member)

include same in
/-- The lines inserted from a halo of the second dimension. -/
theorem copyLines_halo1
    (narrow : (width : Int) ≤ host.localSize 0) (side : Dir) {plane : Nat}
    (bound : (plane : Int) <
      (host.haloWidth .bw 2 : Int) + host.localSize 2 + host.haloWidth .fw 2) :
    GridMPI.copyLines (cuda.haloPeerCuda 1 side) (host.localSize 0) width
        (host.haloWidth side 1)
        (host.slabOffset 0 width dir +
          plane * (host.localSize 0 * host.haloWidth side 1)) =
      GridMPI.copyLines (host.haloPeer side 1) (host.localSize 0) width
        (host.haloWidth side 1)
        (host.slabOffset 0 width dir +
          plane * (host.localSize 0 * host.haloWidth side 1)) := by
  have extents : ∀ i < 3, host.haloExtent 1 (host.haloWidth side 1) true i =
      IntegerArray.mk3 (host.localSize 0) (host.haloWidth side 1 : Int)
        ((host.haloWidth .bw 2 : Int) + host.localSize 2 + host.haloWidth .fw 2) i := by
    intro i below
    rcases i with _ | _ | _ | i
    · simp [IntegerArray.mk3, GridMPI.haloExtent]
    · simp [IntegerArray.mk3, GridMPI.haloExtent]
    · simp [IntegerArray.mk3, GridMPI.haloExtent]
      ring
    · omega
  simpa using copyLines_halo same narrow side extents bound

include same in
/-- The lines inserted from a halo of the last dimension. -/
theorem copyLines_halo2
    (narrow : (width : Int) ≤ host.localSize 0) (side : Dir) {plane : Nat}
    (bound : plane < host.haloWidth side 2) :
    GridMPI.copyLines (cuda.haloPeerCuda 2 side) (host.localSize 0) width
        (host.localSize 1).toNat
        (host.slabOffset 0 width dir +
          plane * (host.localSize 0 * host.localSize 1)) =
      GridMPI.copyLines (host.haloPeer side 2) (host.localSize 0) width
        (host.localSize 1).toNat
        (host.slabOffset 0 width dir +
          plane * (host.localSize 0 * host.localSize 1)) :=
  copyLines_halo same narrow side (haloExtent_last host side) (by omega)

/-- The lines of one plane of the own slab, dense in the mapped memory. -/
theorem copyLines_own
    (holds : HoldsSlab host self 0 width dir)
    {plane : Nat} (bound : (plane : Int) < host.localSize 2) :
    GridMPI.copyLines self (width : Int) width (host.localSize 1).toNat
        (plane * (width * host.localSize 1)) =
      GridMPI.copyLines host.data (host.localSize 0) width
        (host.localSize 1).toNat
        (host.slabOffset 0 width dir +
          plane * (host.localSize 0 * host.localSize 1)) := by
  apply copyLines_congr
  intro y row x column
  have cell := holds (IntegerArray.mk3 (x : Int) (y : Int) (plane : Int)) (by
    rw [inBox_mk3]
    simp
    omega)
  have packed :
      plane * (width * host.localSize 1) + y * (width : Int) + x =
        linear (Function.update host.localSize 0 (width : Int))
          (IntegerArray.mk3 (x : Int) (y : Int) (plane : Int)) 3 := by
    rw [linear_mk3]
    simp
    ring
  rw [packed, cell]
  congr 1
  simp [linear_succ, volume_succ, IntegerArray.mk3]
  ring

/-- The source pointers of the device version at the start of plane `k`. -/
def ptrsAt
    (host : GridMPI α) (width : Nat) (start : Int) (k : Nat) :
    GridMPI.Halo3D0Ptrs :=
  { host.ptrsAt start k with
    halo0 :=
      (min (k - host.haloWidth .bw 2) (host.localSize 2).toNat : Nat) *
        (width * host.localSize 1) }

include threeDims nonneg in
/-- The pointers of the next plane. -/
theorem ptrsAt_succ (start : Int) (k : Nat) :
    let line := host.localSize 0
    let inBw := (k : Int) < host.haloWidth .bw 2
    let inOwn := (k : Int) < host.haloWidth .bw 2 + host.localSize 2
    let haloXSize := if inBw then line else if inOwn then (width : Int) else line
    let ptrs := ptrsAt host width start k
    (⟨ptrs.haloBw1 + host.localSize 0 * host.haloWidth .bw 1,
      ptrs.haloFw1 + host.localSize 0 * host.haloWidth .fw 1,
      if inBw then ptrs.haloBw2 + haloXSize * host.localSize 1 else ptrs.haloBw2,
      if inBw then ptrs.halo0
      else if inOwn then ptrs.halo0 + haloXSize * host.localSize 1 else ptrs.halo0,
      if inBw then ptrs.haloFw2
      else if inOwn then ptrs.haloFw2
      else ptrs.haloFw2 + haloXSize * host.localSize 1⟩ : GridMPI.Halo3D0Ptrs) =
      ptrsAt host width start (k + 1) := by
  have depth := nonneg 2 (by omega)
  have base := GridMPI.ptrsAt_succ nonneg start k threeDims
  intro line inBw inOwn haloXSize ptrs
  simp only [GridMPI.ptrsAt, GridMPI.Halo3D0Ptrs.mk.injEq] at base
  simp only [ptrs, ptrsAt, GridMPI.ptrsAt, GridMPI.Halo3D0Ptrs.mk.injEq]
  refine ⟨base.1, base.2.1, ?_, ?_, ?_⟩
  · refine Eq.trans ?_ base.2.2.1
    by_cases backward : (k : Int) < host.haloWidth .bw 2
    · simp only [inBw, haloXSize, line, if_pos backward]
    · simp only [inBw, if_neg backward]
  · by_cases backward : inBw
    · have stays : k + 1 - host.haloWidth .bw 2 = k - host.haloWidth .bw 2 := by
        simp only [inBw] at backward
        omega
      rw [if_pos backward, stays]
    · rw [if_neg backward]
      by_cases own : inOwn
      · have advances : min (k + 1 - host.haloWidth .bw 2) (host.localSize 2).toNat =
            min (k - host.haloWidth .bw 2) (host.localSize 2).toNat + 1 := by
          simp only [inBw, inOwn] at backward own
          omega
        simp only [haloXSize, if_pos own, if_neg backward, advances]
        push_cast
        ring
      · have stays : min (k + 1 - host.haloWidth .bw 2) (host.localSize 2).toNat =
            min (k - host.haloWidth .bw 2) (host.localSize 2).toNat := by
          simp only [inBw, inOwn] at backward own
          omega
        rw [if_neg own, stays]
  · refine Eq.trans ?_ base.2.2.2.2
    by_cases backward : (k : Int) < host.haloWidth .bw 2
    · simp only [inBw, if_pos backward]
    · by_cases own : (k : Int) < host.haloWidth .bw 2 + host.localSize 2
      · simp only [inBw, inOwn, if_neg backward, if_pos own]
      · simp only [inBw, inOwn, haloXSize, line, if_neg backward, if_neg own]

include same threeDims nonneg in
/-- The lines between the halos of the second dimension, on one plane. -/
theorem middleRows_eq
    (narrow : (width : Int) ≤ host.localSize 0)
    (holds : HoldsSlab host self 0 width dir)
    {k : Nat}
    (bound : (k : Int) <
      (host.haloWidth .bw 2 : Int) + host.localSize 2 + host.haloWidth .fw 2) :
    let inBw := (k : Int) < host.haloWidth .bw 2
    let inOwn := (k : Int) < host.haloWidth .bw 2 + host.localSize 2
    let haloXSize :=
      if inBw then host.localSize 0 else if inOwn then (width : Int) else host.localSize 0
    let device := ptrsAt host width (host.slabOffset 0 width dir) k
    let ptrs := host.ptrsAt (host.slabOffset 0 width dir) k
    (if inBw then
        GridMPI.copyLines (cuda.haloPeerCuda 2 .bw) haloXSize width
          (host.localSize 1).toNat device.haloBw2
      else if inOwn then
        GridMPI.copyLines self haloXSize width (host.localSize 1).toNat device.halo0
      else
        GridMPI.copyLines (cuda.haloPeerCuda 2 .fw) haloXSize width
          (host.localSize 1).toNat device.haloFw2) =
      (if inBw then
        GridMPI.copyLines (host.haloPeer .bw 2) (host.localSize 0) width
          (host.localSize 1).toNat ptrs.haloBw2
      else if inOwn then
        GridMPI.copyLines host.data (host.localSize 0) width
          (host.localSize 1).toNat ptrs.halo0
      else
        GridMPI.copyLines (host.haloPeer .fw 2) (host.localSize 0) width
          (host.localSize 1).toNat ptrs.haloFw2) := by
  have depth := nonneg 2 (by omega)
  intro inBw inOwn haloXSize device ptrs
  by_cases backward : inBw
  · simp only [haloXSize, if_pos backward, device, ptrs, ptrsAt, GridMPI.ptrsAt]
    simp only [inBw] at backward
    exact copyLines_halo2 same narrow .bw (by omega)
  · by_cases own : inOwn
    · simp only [haloXSize, if_neg backward, if_pos own, device, ptrs, ptrsAt,
        GridMPI.ptrsAt]
      simp only [inBw, inOwn] at backward own
      exact copyLines_own holds (by omega)
    · simp only [haloXSize, if_neg backward, if_neg own, device, ptrs, ptrsAt,
        GridMPI.ptrsAt]
      simp only [inBw, inOwn] at backward own
      exact copyLines_halo2 same narrow .fw (by omega)

include same threeDims nonneg in
/-- The loops of the two versions of `CopyoutHalo3D0` write the same elements. -/
theorem copyoutHalo3D0Loop_eq
    (narrow : (width : Int) ≤ host.localSize 0)
    (holds : HoldsSlab host self 0 width dir)
    {planes k : Nat}
    (bound : (k + planes : Int) ≤
      (host.haloWidth .bw 2 : Int) + host.localSize 2 + host.haloWidth .fw 2) :
    cuda.copyoutHalo3D0Loop self width planes k
        (ptrsAt host width (host.slabOffset 0 width dir) k) =
      host.copyoutHalo3D0Loop width planes k
        (host.ptrsAt (host.slabOffset 0 width dir) k) := by
  induction planes generalizing k with
  | zero => rfl
  | succ planes induction =>
      have inside : (k : Int) <
          (host.haloWidth .bw 2 : Int) + host.localSize 2 +
            host.haloWidth .fw 2 := by
        push_cast at bound
        omega
      have next := @induction (k + 1) (by push_cast at bound ⊢; omega)
      have middle := middleRows_eq same threeDims nonneg narrow holds inside
      have device := @ptrsAt_succ _ host width threeDims nonneg
        (host.slabOffset 0 width dir) k
      simp only at middle device
      rw [copyoutHalo3D0Loop, GridMPI.copyoutHalo3D0Loop,
        GridMPI.ptrsAt_succ nonneg _ k threeDims]
      simp only [same.localSize, same.haloWidth]
      rw [middle, device]
      push_cast at next
      rw [next]
      congr 1
      · exact copyLines_halo1 same narrow .bw inside
      congr 2
      exact copyLines_halo1 same narrow .fw inside

include same in
theorem slabOffset_eq (dim : Nat) :
    cuda.slabOffset dim width dir = host.slabOffset dim width dir := by
  cases dir <;> simp [GridMPI.slabOffset, same.localSize]

include same threeDims nonneg in
/-- `CopyoutHalo3D0` of the device grid writes what that of the host grid does. -/
theorem copyoutHalo3D0_eq
    (narrow : (width : Int) ≤ host.localSize 0)
    (holds : HoldsSlab host self 0 width dir) :
    cuda.copyoutHalo3D0 self width dir = host.copyoutHalo3D0 width dir := by
  have depth := nonneg 2 (by omega)
  have device : ptrsAt host width (host.slabOffset 0 width dir) 0 =
      ⟨host.slabOffset 0 width dir, host.slabOffset 0 width dir,
        host.slabOffset 0 width dir, 0, host.slabOffset 0 width dir⟩ := by
    simp [ptrsAt, GridMPI.ptrsAt]
  have start : host.ptrsAt (host.slabOffset 0 width dir) 0 =
      ⟨host.slabOffset 0 width dir, host.slabOffset 0 width dir,
        host.slabOffset 0 width dir, host.slabOffset 0 width dir,
        host.slabOffset 0 width dir⟩ := by
    simp [GridMPI.ptrsAt]
  have loop := @copyoutHalo3D0Loop_eq _ _ _ _ _ dir same threeDims nonneg narrow holds
    ((host.haloWidth .bw 2 : Int) + host.localSize 2 + host.haloWidth .fw 2).toNat 0
    (by omega)
  rw [device, start] at loop
  rw [copyoutHalo3D0, GridMPI.copyoutHalo3D0]
  simp only [same.localSize, same.haloWidth, slabOffset_eq same]
  exact loop

include same in
/-- The lines `CopyoutHalo3D1` inserts from a halo of the last dimension. -/
theorem copyoutSubgrid_halo2
    (narrow : (width : Int) ≤ host.localSize 1) (side : Dir) :
    copyoutSubgrid 3 (cuda.haloPeerCuda 2 side)
        (IntegerArray.mk3 (host.localSize 0) (host.localSize 1)
          (host.haloWidth side 2 : Int))
        (IntegerArray.mk3 0 (host.slabOffset 1 width dir) 0)
        (IntegerArray.mk3 (host.localSize 0) (width : Int)
          (host.haloWidth side 2 : Int)) =
      copyoutSubgrid 3 (host.haloPeer side 2)
        (IntegerArray.mk3 (host.localSize 0) (host.localSize 1)
          (host.haloWidth side 2 : Int))
        (IntegerArray.mk3 0 (host.slabOffset 1 width dir) 0)
        (IntegerArray.mk3 (host.localSize 0) (width : Int)
          (host.haloWidth side 2 : Int)) := by
  have start := GridMPI.slabOffset_bounds dir narrow
  rw [copyoutSubgrid_eq_boxList (by omega), copyoutSubgrid_eq_boxList (by omega)]
  apply boxList_congr fun _ _ => rfl
  intro index enumerated
  have column := enumerated.1 0 (by omega)
  have row := enumerated.1 1 (by omega)
  have plane := enumerated.1 2 (by omega)
  have member : InBox 3
      (IntegerArray.mk3 (host.localSize 0) (host.localSize 1)
        (host.haloWidth side 2 : Int))
      (IntegerArray.mk3 0 (host.slabOffset 1 width dir) 0 + index) := by
    intro i below
    simp only [IntegerArray.mk3] at column row plane
    rcases i with _ | _ | _ | i <;> simp [IntegerArray.mk3] <;> omega
  apply same.halo 2 side _ (linear_nonneg member)
  rw [volume_congr (haloExtent_last host side)]
  exact linear_lt_volume member

include nonneg threeDims in
/-- The own slab of `CopyoutHalo3D1`, dense in the mapped memory. -/
theorem range_map_own
    (holds : HoldsSlab host self 1 width dir) :
    ((List.range (IntegerArray.accumulate
          (IntegerArray.mk3 (host.localSize 0) (width : Int) (host.localSize 2))
          3).toNat).map fun (position : Nat) => self position) =
      copyoutSubgrid 3 host.data host.localSize
        (IntegerArray.mk3 0 (host.slabOffset 1 width dir) 0)
        (IntegerArray.mk3 (host.localSize 0) (width : Int) (host.localSize 2)) := by
  have extents : ∀ i < 3,
      IntegerArray.mk3 (host.localSize 0) (width : Int) (host.localSize 2) i =
        Function.update host.localSize 1 (width : Int) i := by
    intro i below
    rcases i with _ | _ | _ | i
    · simp [IntegerArray.mk3]
    · simp [IntegerArray.mk3]
    · simp [IntegerArray.mk3]
    · omega
  have extentsNonneg : ∀ i < 3,
      0 ≤ IntegerArray.mk3 (host.localSize 0) (width : Int) (host.localSize 2) i := by
    intro i below
    have first := nonneg 0 (by omega)
    have third := nonneg 2 (by omega)
    rcases i with _ | _ | _ | i <;> simp [IntegerArray.mk3] <;> omega
  rw [IntegerArray.accumulate_eq_volume, ← boxList_linear extentsNonneg,
    copyoutSubgrid_eq_boxList (by omega)]
  apply boxList_congr fun _ _ => rfl
  intro index enumerated
  have cell := holds index (enumerated.1.congr extents fun _ _ => rfl)
  rw [linear_congr extents fun _ _ => rfl, cell]
  refine congrArg host.data (linear_congr (fun _ _ => rfl) fun i below => ?_)
  rcases i with _ | _ | _ | i <;> simp [IntegerArray.mk3]

include same threeDims nonneg in
/-- `CopyoutHalo3D1` of the device grid writes what that of the host grid does. -/
theorem copyoutHalo3D1_eq
    (narrow : (width : Int) ≤ host.localSize 1)
    (holds : HoldsSlab host self 1 width dir) :
    cuda.copyoutHalo3D1 self width dir = host.copyoutHalo3D1 width dir := by
  rw [copyoutHalo3D1, GridMPI.copyoutHalo3D1]
  simp only [same.localSize, same.haloWidth, same.numDims, slabOffset_eq same, threeDims]
  rw [copyoutSubgrid_halo2 same narrow, copyoutSubgrid_halo2 same narrow,
    range_map_own threeDims nonneg holds]

/-- The shape the guard of the device copy compares fits the buffer. -/
theorem slab_lessEqual {size : IndexArray} {dim : Nat} {start : Int}
    (fits : start + width ≤ size dim) :
    IntegerArray.lessEqual
      (fun i => Function.update (fun _ => (0 : Int)) dim start i +
        Function.update size dim (width : Int) i) size = true := by
  rw [IntegerArray.lessEqual, Bool.not_eq_true', ← Bool.not_eq_true,
    IntegerArray.less_iff]
  rintro ⟨i, _, smaller, _⟩
  by_cases here : i = dim
  · subst i
    simp only [Function.update_self] at smaller
    omega
  · simp only [Function.update_of_ne here] at smaller
    omega

variable (dir) in
include same in
/-- The device copy leaves the slab of the own cells in the mapped memory. -/
theorem copyout_holdsSlab
    {schedule : List (Int × α) → List (Int × α)}
    (order : ∀ stores, (schedule stores).Perm stores)
    (allocated : cuda.Allocated)
    {dim : Nat} (narrow : (width : Int) ≤ host.localSize dim) (memory : Int → α) :
    ∃ self, cuda.buffer.copyout schedule memory
        (Function.update (fun _ => 0) dim (host.slabOffset dim width dir))
        (Function.update host.localSize dim (width : Int)) = some self ∧
      HoldsSlab host self dim width dir := by
  obtain ⟨type, elements⟩ := allocated.elements
  have start := GridMPI.slabOffset_bounds dir narrow
  have sizes : cuda.buffer.size = host.localSize := allocated.size.trans same.localSize
  have guard := @slab_lessEqual width host.localSize dim
    (host.slabOffset dim width dir) start.2
  rw [← sizes] at guard
  rw [← sizes]
  obtain ⟨self, copied, cells⟩ :=
    BufferCUDADev3D.copyout_eq_some order (elements ▸ type.elmSize_eq) memory guard
  refine ⟨self, copied, ?_⟩
  intro index member
  rw [sizes] at cells
  rw [cells index member]
  apply same.own
  intro i below
  have bounds := member i below
  have inside := GridMPI.slab_inside dir narrow i
  simp only [Pi.add_apply]
  omega

include same threeDims nonneg in
/--
For every width that the subgrid has, every direction and every order in which
the threads of the kernel store, a device grid packs the halo of a dimension
with its diagonal points as a host grid with the same cells does, by
`CopyoutHalo3D0` and `CopyoutHalo3D1`.
-/
theorem copyoutHalo_eq_packedHalo
    {schedule : List (Int × α) → List (Int × α)}
    (order : ∀ stores, (schedule stores).Perm stores)
    (allocated : cuda.Allocated) :
    ((width : Int) ≤ host.localSize 0 →
      cuda.copyoutHalo schedule 0 width dir true =
        some (host.copyoutHalo3D0 width dir)) ∧
    ((width : Int) ≤ host.localSize 1 →
      cuda.copyoutHalo schedule 1 width dir true =
        some (host.copyoutHalo3D1 width dir)) := by
  constructor
  · intro narrow
    obtain ⟨self, copied, holds⟩ :=
      copyout_holdsSlab dir same order allocated narrow (cuda.haloSelfCuda 0 dir)
    simp only [copyoutHalo, slabOffset_eq same, same.localSize, copied, same.numDims,
      threeDims]
    simp [copyoutHalo3D0_eq same threeDims nonneg narrow holds]
  · intro narrow
    obtain ⟨self, copied, holds⟩ :=
      copyout_holdsSlab dir same order allocated narrow (cuda.haloSelfCuda 1 dir)
    simp only [copyoutHalo, slabOffset_eq same, same.localSize, copied, same.numDims,
      threeDims]
    simp [copyoutHalo3D1_eq same threeDims nonneg narrow holds]

end Packing

/-- A host grid of two cells in every dimension, with halos of unequal widths. -/
def pairsHost : GridMPI Int :=
  { GridMPI.create 4 3 (IntegerArray.mk3 2 2 2) false (fun _ => 0) (fun _ => 0)
      (IntegerArray.mk3 2 2 2) (fun _ position => position) with
    haloWidth := fun dir dim =>
      if dim = 0 then 0 else match dir with | .fw => 1 | .bw => 2 }

/-- The same cells on the device, with a pitch of four elements. -/
def pairsCuda : GridMPICUDA3D Int :=
  { pairsHost with
    buffer :=
      { elmSize := 4
        size := IntegerArray.mk3 2 2 2
        memory := fun position => position % 4 + position / 4 * 2
        pitch := 4
        ysize := 2 }
    haloSelfCuda := fun _ _ _ => 0
    haloPeerCuda := fun dim dir => pairsHost.haloPeer dir dim }

theorem pairs_sameCells : SameCells pairsCuda pairsHost where
  numDims := rfl
  localSize := rfl
  haloWidth := rfl
  own := by
    intro index member
    have first := member 0 (by omega)
    have second := member 1 (by omega)
    have third := member 2 (by omega)
    simp only [pairsHost, GridMPI.create, IntegerArray.mk3] at first second third
    simp [pairsCuda, pairsHost, GridMPI.create, GridMPI.data, IntegerArray.mk3,
      linear_succ, volume_succ]
    omega
  halo _ _ _ _ _ := rfl

/-- The backward halo of the first dimension of the example, stored last thread first. -/
theorem pairs_copyoutHalo :
    pairsCuda.copyoutHalo List.reverse 0 1 .bw true =
      some (pairsHost.copyoutHalo3D0 1 .bw) :=
  (copyoutHalo_eq_packedHalo pairs_sameCells rfl
    (by
      intro i below
      rcases i with _ | _ | _ | i <;> simp [pairsHost, GridMPI.create, IntegerArray.mk3])
    List.reverse_perm ⟨rfl, .psFloat, rfl⟩).1 (by decide)

/--
A slab of three cells does not fit the two of the example.  Forward the device
grid fails the assertion on the end of the slab; backward it reads the padding
before a line where the host grid reads the line before.
-/
theorem pairs_wide_copyoutHalo :
    pairsCuda.copyoutHalo id 0 3 .fw true ≠ some (pairsHost.copyoutHalo3D0 3 .fw) ∧
      pairsCuda.copyoutHalo id 0 3 .bw true ≠
        some (pairsHost.copyoutHalo3D0 3 .bw) := by
  constructor
  · decide +kernel
  · decide +kernel

end GridMPICUDA3D

end Physis.Runtime
