import Physis.Runtime.GridUtil

/-!
# The distributed grid object

`GridMPI` is one process's part of a grid: its own data, the halo buffers of
every dimension and direction, and an optional remote grid.  Fields that exist
once for forward and once for backward accesses in the source
(`halo_fw_width_`, `halo_bw_width_`, ...) are one field indexed by the
direction here.
-/

namespace Physis.Runtime

open Physis.Library
open Physis.Library.RowMajor

/-- The accesses a halo serves: forward (`fw`) or backward (`bw`). -/
inductive Dir where
  | fw
  | bw
deriving DecidableEq, Repr

/-- The other direction. -/
def Dir.flip : Dir → Dir
  | .fw => .bw
  | .bw => .fw

@[simp]
theorem Dir.flip_flip (dir : Dir) : dir.flip.flip = dir := by
  cases dir <;> rfl

/--
Where a send buffer of a halo lives: in a chunk of its own, or inside one of
the grid's data buffers.  The null pointer is a chunk that is never read.
-/
inductive HaloPtr where
  | chunk (id : Nat)
  | data (buffer : Nat) (offset : Int)
deriving DecidableEq, Repr

/-- What accesses use of the grid behind `remote_grid_`. -/
structure RemoteGrid (α : Type) where
  localOffset : IndexArray
  localSize : IndexArray
  data : Int → α

/-- `GridMPI` -/
structure GridMPI (α : Type) where
  elmSize : Nat
  numDims : Nat
  size : IndexArray
  globalOffset : IndexArray
  localOffset : IndexArray
  localSize : IndexArray
  empty : Bool
  haloHasDiagonal : Bool
  /-- `halo_fw_width_` and `halo_bw_width_` -/
  haloWidth : Dir → UnsignedArray
  /-- `halo_fw_size_` and `halo_bw_size_` -/
  haloSize : Dir → Nat → IndexArray
  /-- `halo_self_fw_` and `halo_self_bw_` -/
  haloSelf : Dir → Nat → HaloPtr
  /-- `halo_self_fw_buf_size_` and `halo_self_bw_buf_size_` -/
  haloSelfBufSize : Dir → SizeArray
  /-- what `halo_peer_fw_` and `halo_peer_bw_` point to -/
  haloPeer : Dir → Nat → Int → α
  /-- `halo_peer_fw_buf_size_` and `halo_peer_bw_buf_size_` -/
  haloPeerBufSize : Dir → SizeArray
  /-- the allocated send buffers, and the number of the next one -/
  chunks : Nat → Int → α
  nextChunk : Nat
  /-- the two data buffers, and which of them `data_[0]`, `data_[1]` point to -/
  dataBuffer : Nat → Int → α
  dataId : Nat → Nat
  remoteGrid : Option (RemoteGrid α)
  remoteGridActive : Bool

namespace GridMPI

variable {α : Type}

/-- `_data()` -/
def data (grid : GridMPI α) : Int → α :=
  grid.dataBuffer (grid.dataId 0)

/-- The memory a send buffer points to. -/
def readPtr (grid : GridMPI α) : HaloPtr → Int → α
  | .chunk id => grid.chunks id
  | .data buffer offset => fun position => grid.dataBuffer buffer (offset + position)

/-- Write cells through a send buffer pointer. -/
def writePtr (grid : GridMPI α) (ptr : HaloPtr) (cells : List α) : GridMPI α :=
  match ptr with
  | .chunk id =>
      { grid with
        chunks := Function.update grid.chunks id
          (overwrite (grid.chunks id) cells) }
  | .data buffer offset =>
      { grid with
        dataBuffer := Function.update grid.dataBuffer buffer fun position =>
          overwrite (fun shifted => grid.dataBuffer buffer (offset + shifted))
            cells (position - offset) }

/--
`GridMPI::Create`: no halo buffers yet, and data buffers with whatever the
allocated memory holds.  Without double buffering there is one data buffer.
-/
def create
    (elmSize numDims : Nat) (size : IndexArray) (doubleBuffering : Bool)
    (globalOffset localOffset localSize : IndexArray)
    (memory : Nat → Int → α) : GridMPI α where
  elmSize := elmSize
  numDims := numDims
  size := size
  globalOffset := globalOffset
  localOffset := localOffset
  localSize := localSize
  empty := decide (IntegerArray.accumulate localSize numDims = 0)
  haloHasDiagonal := false
  haloWidth _ _ := 0
  haloSize _ _ _ := 0
  haloSelf _ _ := .chunk 0
  haloSelfBufSize _ _ := 0
  haloPeer _ _ := memory 0
  haloPeerBufSize _ _ := 0
  chunks := memory
  nextChunk := 1
  dataBuffer := memory
  dataId i := if doubleBuffering then i else 0
  remoteGrid := none
  remoteGridActive := false

/-- The extent of dimension `i` of the halo of dimension `dim`. -/
def haloExtent
    (grid : GridMPI α) (dim width : Nat) (diagonal : Bool) : IndexArray :=
  fun i =>
    if i = dim then (width : Int)
    else if diagonal = true ∧ dim < i then
      grid.localSize i + (grid.haloWidth .fw i + grid.haloWidth .bw i : Nat)
    else grid.localSize i

/-- `CalcHaloSize` -/
def calcHaloSize
    (grid : GridMPI α) (dim width : Nat) (diagonal : Bool) : Nat :=
  (List.range grid.numDims).foldl
    (fun s i => s * (grid.haloExtent dim width diagonal i).toNat) 1

/-- `SetHaloSize` -/
def setHaloSize
    (grid : GridMPI α) (dim : Nat) (dir : Dir) (width : Nat)
    (diagonal : Bool) : GridMPI α :=
  let s : IndexArray := fun i =>
    if i < grid.numDims then grid.haloExtent dim width diagonal i else 0
  { grid with
    haloSize := Function.update grid.haloSize dir
      (Function.update (grid.haloSize dir) dim s) }

/-- `GetHaloBuf`: a larger buffer is allocated, a large enough one is kept. -/
def getHaloBuf
    (grid : GridMPI α) (dim width : Nat) (dir : Dir)
    (diagonal : Bool) : GridMPI α :=
  let haloBytes := grid.calcHaloSize dim width diagonal * grid.elmSize
  if grid.haloSelfBufSize dir dim < haloBytes then
    { grid with
      haloSelfBufSize := Function.update grid.haloSelfBufSize dir
        (Function.update (grid.haloSelfBufSize dir) dim haloBytes)
      haloSelf := Function.update grid.haloSelf dir
        (Function.update (grid.haloSelf dir) dim (.chunk grid.nextChunk))
      nextChunk := grid.nextChunk + 1 }
  else grid

/--
The loop `for (...) { memcpy(buf, t, line_size); buf += line_size; t += ... }`:
the elements written, with the source pointer advancing by `stride`.
-/
def copyLines
    (memory : Int → α) (stride : Int) (width : Nat) : Nat → Int → List α
  | 0, _ => []
  | lines + 1, t =>
      ((List.range width).map fun (x : Nat) => memory (t + x)) ++
        copyLines memory stride width lines (t + stride)

/-- The offset along dimension `dim` at which the slab to send starts. -/
def slabOffset (grid : GridMPI α) (dim width : Nat) : Dir → Int
  | .fw => 0
  | .bw => grid.localSize dim - width

/-- `CopyoutHalo2D0`: the elements written, in order. -/
def copyoutHalo2D0 (grid : GridMPI α) (width : Nat) (dir : Dir) : List α :=
  let offset := grid.slabOffset 0 width dir
  copyLines (grid.haloPeer .bw 1) (grid.localSize 0) width
      (grid.haloWidth .bw 1) offset ++
    (copyoutSubgrid 2 grid.data grid.localSize
        (IntegerArray.mk3 offset 0 0)
        (IntegerArray.mk3 (width : Int) (grid.localSize 1) 0) ++
      copyLines (grid.haloPeer .fw 1) (grid.localSize 0) width
        (grid.haloWidth .fw 1) offset)

/-- The advancing source pointers of `CopyoutHalo3D0`. -/
structure Halo3D0Ptrs where
  haloBw1 : Int
  haloFw1 : Int
  haloBw2 : Int
  halo0 : Int
  haloFw2 : Int

/-- The loop over `k` of `CopyoutHalo3D0`, for the last `planes` values of `k`. -/
def copyoutHalo3D0Loop
    (grid : GridMPI α) (width : Nat) :
    Nat → Int → Halo3D0Ptrs → List α
  | 0, _, _ => []
  | planes + 1, k, ptrs =>
      let line := grid.localSize 0
      let plane := grid.localSize 0 * grid.localSize 1
      let rows := (grid.localSize 1).toNat
      let inBw := k < grid.haloWidth .bw 2
      let inOwn := k < grid.haloWidth .bw 2 + grid.localSize 2
      copyLines (grid.haloPeer .bw 1) line width (grid.haloWidth .bw 1)
          ptrs.haloBw1 ++
        ((if inBw then
            copyLines (grid.haloPeer .bw 2) line width rows ptrs.haloBw2
          else if inOwn then
            copyLines grid.data line width rows ptrs.halo0
          else
            copyLines (grid.haloPeer .fw 2) line width rows ptrs.haloFw2) ++
          (copyLines (grid.haloPeer .fw 1) line width (grid.haloWidth .fw 1)
              ptrs.haloFw1 ++
            copyoutHalo3D0Loop grid width planes (k + 1)
              { haloBw1 := ptrs.haloBw1 +
                  grid.localSize 0 * grid.haloWidth .bw 1
                haloFw1 := ptrs.haloFw1 +
                  grid.localSize 0 * grid.haloWidth .fw 1
                haloBw2 := if inBw then ptrs.haloBw2 + plane else ptrs.haloBw2
                halo0 :=
                  if inBw then ptrs.halo0
                  else if inOwn then ptrs.halo0 + plane else ptrs.halo0
                haloFw2 :=
                  if inBw then ptrs.haloFw2
                  else if inOwn then ptrs.haloFw2
                  else ptrs.haloFw2 + plane }))

/-- `CopyoutHalo3D0`: the elements written, in order. -/
def copyoutHalo3D0 (grid : GridMPI α) (width : Nat) (dir : Dir) : List α :=
  let xoffset := grid.slabOffset 0 width dir
  grid.copyoutHalo3D0Loop width
    ((grid.haloWidth .bw 2 : Int) + grid.localSize 2 +
      grid.haloWidth .fw 2).toNat 0
    ⟨xoffset, xoffset, xoffset, xoffset, xoffset⟩

/-- `CopyoutHalo3D1`: the elements written, in order. -/
def copyoutHalo3D1 (grid : GridMPI α) (width : Nat) (dir : Dir) : List α :=
  let sgOffset : IndexArray :=
    IntegerArray.mk3 0 (grid.slabOffset 1 width dir) 0
  let sgSize (extent : Int) : IndexArray :=
    IntegerArray.mk3 (grid.localSize 0) (width : Int) extent
  let haloSize (extent : Int) : IndexArray :=
    IntegerArray.mk3 (grid.localSize 0) (grid.localSize 1) extent
  copyoutSubgrid grid.numDims (grid.haloPeer .bw 2)
      (haloSize (grid.haloWidth .bw 2)) sgOffset (sgSize (grid.haloWidth .bw 2)) ++
    (copyoutSubgrid grid.numDims grid.data grid.localSize sgOffset
        (sgSize (grid.localSize 2)) ++
      copyoutSubgrid grid.numDims (grid.haloPeer .fw 2)
        (haloSize (grid.haloWidth .fw 2)) sgOffset
        (sgSize (grid.haloWidth .fw 2)))

/--
The elements `CopyoutHalo` packs for a dimension other than the last; `none`
where the source aborts.
-/
def packedHalo
    (grid : GridMPI α) (dim width : Nat) (dir : Dir)
    (diagonal : Bool) : Option (List α) :=
  if diagonal = false then
    some (copyoutSubgrid grid.numDims grid.data grid.localSize
      (Function.update (fun _ => 0) dim (grid.slabOffset dim width dir))
      (Function.update grid.localSize dim (width : Int)))
  else if grid.numDims = 2 then some (grid.copyoutHalo2D0 width dir)
  else if grid.numDims = 3 then
    if dim = 0 then some (grid.copyoutHalo3D0 width dir)
    else if dim = 1 then some (grid.copyoutHalo3D1 width dir)
    else none
  else none

/--
`CopyoutHalo`.  The last dimension is sent from the grid's own data; the others
are packed into the buffer of `GetHaloBuf`.
-/
def copyoutHalo
    (grid : GridMPI α) (dim width : Nat) (dir : Dir)
    (diagonal : Bool) : Option (GridMPI α) :=
  let grid := { grid with haloHasDiagonal := diagonal }
  if dim = grid.numDims - 1 then
    let s : IndexArray :=
      Function.update grid.localSize dim (grid.localSize dim - width)
    let offset : Int :=
      match dir with
      | .fw => 0
      | .bw => IntegerArray.accumulate s grid.numDims
    some
      { grid with
        haloSelf := Function.update grid.haloSelf dir
          (Function.update (grid.haloSelf dir) dim
            (.data (grid.dataId 0) offset)) }
  else
    let grid := grid.getHaloBuf dim width dir diagonal
    (grid.packedHalo dim width dir diagonal).map fun cells =>
      grid.writePtr (grid.haloSelf dir dim) cells

/-- The elements a send of `count` elements reads from a buffer. -/
def readCells (grid : GridMPI α) (ptr : HaloPtr) (count : Nat) : List α :=
  (List.range count).map fun (position : Nat) => grid.readPtr ptr position

end GridMPI

end Physis.Runtime
