import Physis.Library.FallibleMaps
import Physis.Library.StridedLoops
import Physis.Runtime.DomainBoundary

/-!
# The overlapped schedule

When communication and computation overlap, a three-dimensional stencil is run
on the shrunken local domain first, and then on the boundary: by one more
kernel over all threads, or by fourteen kernels with a stream each.  A kernel
is the list of the points it computes.  A launch with an extent of zero in its
configuration fails, and then it computes no point.
-/

namespace Physis.Runtime

open Physis.Library
open Physis.Library.StridedLoops

/-- `dim3` -/
structure Dim3 where
  x : Nat
  y : Nat
  z : Nat

/-- A point at which a kernel is called -/
abbrev Point := Int × Int × Int

/-- The point lies in the local domain. -/
def PSDomain.Contains (dom : PSDomain) (point : Point) : Prop :=
  (dom.localMin 0 ≤ point.1 ∧ point.1 < dom.localMax 0) ∧
    (dom.localMin 1 ≤ point.2.1 ∧ point.2.1 < dom.localMax 1) ∧
      (dom.localMin 2 ≤ point.2.2 ∧ point.2.2 < dom.localMax 2)

/-- The two boundary schedules -/
inductive BoundarySchedule where
  | multiStream
  | singleStream
deriving DecidableEq, Repr

/-- The block of the interior kernel, as configured -/
structure BlockDim where
  x : Nat
  y : Nat
  xPos : 0 < x
  yPos : 0 < y

/-! ## Kernels -/

/-- `(int)ceil(size / (double)block)` -/
def gridDim (size : Int) (block : Nat) : Nat :=
  (size.toNat + block - 1) / block

/-- The threads of a launch of `BuildGridDimDeclaration`, by their `x` and `y`. -/
def runThreads
    (space : GridSpaceMPI) (rank : Nat) (block : BlockDim) :
    List (Int × Int) :=
  (threads (gridDim (space.mySize rank 0) block.x) block.x
      (space.myOffset rank 0)).flatMap fun x =>
    (threads (gridDim (space.mySize rank 1) block.y) block.y
      (space.myOffset rank 1)).map fun y => (x, y)

/-- The test after which a kernel of `BuildRunKernelBody` returns at once. -/
def outsideDomain (dom : PSDomain) (x y : Int) : Bool :=
  decide (x < dom.localMin 0) || decide (dom.localMax 0 ≤ x) ||
    decide (y < dom.localMin 1) || decide (dom.localMax 1 ≤ y)

/-- A launch whose threads run some loop over `z` inside the domain. -/
def columnKernel
    (space : GridSpaceMPI) (rank : Nat) (block : BlockDim) (dom : PSDomain)
    (column : Int → Int → List Int) : List Point :=
  (runThreads space rank block).flatMap fun (x, y) =>
    if outsideDomain dom x y then []
    else (column x y).map fun z => (x, y, z)

/-- The kernel of `BuildRunKernelBody` and `BuildRunInteriorKernelBody` -/
def runKernel
    (space : GridSpaceMPI) (rank : Nat) (block : BlockDim) (dom : PSDomain) :
    List Point :=
  columnKernel space rank block dom fun _ _ =>
    strideLoop (dom.localMin 2) (dom.localMax 2) 1

/-- The condition of `BuildDomainInclusionInnerCheck` -/
def nearSide (dom : PSDomain) (width : Nat) (x y : Int) : Bool :=
  decide (x < dom.localMin 0 + width) || decide (dom.localMax 0 - width ≤ x) ||
    (decide (y < dom.localMin 1 + width) ||
      decide (dom.localMax 1 - width ≤ y))

/-- The kernel of `BuildRunBoundaryKernelBody` -/
def singleBoundaryKernel
    (space : GridSpaceMPI) (rank : Nat) (block : BlockDim) (dom : PSDomain)
    (width : Nat) : List Point :=
  columnKernel space rank block dom fun x y =>
    strideLoop (dom.localMin 2) (dom.localMin 2 + width) 1 ++
      (if nearSide dom width x y then
        strideLoop (dom.localMin 2 + width) (dom.localMax 2 - width) 1
      else []) ++
      strideLoop (dom.localMax 2 - width) (dom.localMax 2) 1

/-- The kernel of `BuildRunMultiStreamBoundaryKernelBody`, in one block -/
def streamKernel (dom : PSDomain) (block : Dim3) : List Point :=
  (List.range block.z).flatMap fun (tz : Nat) =>
    (List.range block.y).flatMap fun (ty : Nat) =>
      (List.range block.x).flatMap fun (tx : Nat) =>
        (strideLoop (tz + dom.localMin 2) (dom.localMax 2) block.z).flatMap
          fun z =>
            (strideLoop (ty + dom.localMin 1) (dom.localMax 1) block.y).flatMap
              fun y =>
                (strideLoop (tx + dom.localMin 0) (dom.localMax 0)
                  block.x).map fun x => (x, y, z)

/-! ## The schedule `ProcessStencilMap` emits -/

/-- One stream: the arguments of `__PSDomainGetBoundary`, and the block. -/
structure Stream where
  dim : Nat
  right : Bool
  factor : Nat
  offset : Nat
  block : Dim3

/-- `num_x_streams` -/
def numXStreams : Nat := 5

/-- The streams of the first dimension -/
def xStreams (overlapWidth : Nat) : List Stream :=
  [false, true].flatMap fun right =>
    (List.range numXStreams).map fun i =>
      ⟨0, right, numXStreams, i,
        ⟨overlapWidth, 128, 512 / (overlapWidth * 128)⟩⟩

/-- The streams of the other two dimensions -/
def yzStreams (overlapWidth : Nat) : List Stream :=
  [1, 2].flatMap fun dim =>
    [false, true].map fun right =>
      ⟨dim, right, 1, 0,
        if dim = 1 then ⟨128, overlapWidth, 512 / (overlapWidth * 128)⟩
        else ⟨128, 4, 1⟩⟩

/-- What a stream computes; `none` where the assertion fails on the host. -/
def Stream.points (dom : PSDomain) (overlapWidth : Nat) (stream : Stream) :
    Option (List Point) :=
  (dom.getBoundary stream.dim stream.right overlapWidth stream.factor
    stream.offset).map fun bd => streamKernel bd stream.block

/-- All streams -/
def multiBoundaryKernels (dom : PSDomain) (overlapWidth : Nat) :
    Option (List Point) :=
  ((xStreams overlapWidth ++ yzStreams overlapWidth).mapM
    (Stream.points dom overlapWidth)).map List.flatten

/-- Every point at which the overlapped schedule calls the kernel. -/
def overlappedSchedule
    (space : GridSpaceMPI) (rank : Nat) (block : BlockDim)
    (schedule : BoundarySchedule) (dom : PSDomain) (overlapWidth : Nat) :
    Option (List Point) :=
  let inner := runKernel space rank block (dom.shrink overlapWidth)
  if overlapWidth = 0 then some inner
  else
    match schedule with
    | .singleStream =>
        some (inner ++
          singleBoundaryKernel space rank block dom overlapWidth)
    | .multiStream =>
        (multiBoundaryKernels dom overlapWidth).map (inner ++ ·)

/-! ## The points of the kernels -/

section Kernels

variable
    {space : GridSpaceMPI} {rank : Nat} {block : BlockDim} {dom : PSDomain}

/-- The threads include every point of the rank's partition. -/
theorem le_gridDim_mul (size : Int) {block : Nat} (positive : 0 < block) :
    size ≤ (gridDim size block * block : Nat) := by
  have split := Nat.div_add_mod' (size.toNat + block - 1) block
  have below := Nat.mod_lt (size.toNat + block - 1) positive
  rw [gridDim]
  omega

theorem outsideDomain_eq_false {x y : Int} :
    outsideDomain dom x y = false ↔
      (dom.localMin 0 ≤ x ∧ x < dom.localMax 0) ∧
        (dom.localMin 1 ≤ y ∧ y < dom.localMax 1) := by
  simp [outsideDomain, and_assoc]

theorem nearSide_eq_true {width : Nat} {x y : Int} :
    nearSide dom width x y = true ↔
      (x < dom.localMin 0 + width ∨ dom.localMax 0 - width ≤ x) ∨
        (y < dom.localMin 1 + width ∨ dom.localMax 1 - width ≤ y) := by
  simp [nearSide]

/-- The domain lies in the partition of the rank, in `x` and `y`. -/
def PSDomain.InPart
    (space : GridSpaceMPI) (rank : Nat) (dom : PSDomain) : Prop :=
  ∀ i < 2, dom.localMin i < dom.localMax i →
    space.myOffset rank i ≤ dom.localMin i ∧
      dom.localMax i ≤ space.myOffset rank i + space.mySize rank i

/-- A kernel over all threads runs its column at every `x` and `y` inside. -/
theorem mem_columnKernel
    (inPart : dom.InPart space rank) {column : Int → Int → List Int}
    {point : Point} :
    point ∈ columnKernel space rank block dom column ↔
      (dom.localMin 0 ≤ point.1 ∧ point.1 < dom.localMax 0) ∧
        (dom.localMin 1 ≤ point.2.1 ∧ point.2.1 < dom.localMax 1) ∧
          point.2.2 ∈ column point.1 point.2.1 := by
  obtain ⟨x, y, z⟩ := point
  have xGrid := le_gridDim_mul (space.mySize rank 0) block.xPos
  have yGrid := le_gridDim_mul (space.mySize rank 1) block.yPos
  simp only [columnKernel, runThreads, List.mem_flatMap, List.mem_map,
    mem_threads]
  constructor
  · rintro ⟨⟨x', y'⟩, -, member⟩
    rcases outside : outsideDomain dom x' y' with _ | _
    · rw [outside] at member
      obtain ⟨z', inColumn, equal⟩ := List.mem_map.mp member
      obtain ⟨rfl, rfl, rfl⟩ : x' = x ∧ y' = y ∧ z' = z := by simpa using equal
      have inside := outsideDomain_eq_false.mp outside
      exact ⟨inside.1, inside.2, inColumn⟩
    · simp [outside] at member
  · rintro ⟨xInside, yInside, inColumn⟩
    have xPart := inPart 0 (by decide) (by omega)
    have yPart := inPart 1 (by decide) (by omega)
    refine ⟨(x, y), ⟨x, ⟨by omega, by omega⟩, y, ⟨by omega, by omega⟩, rfl⟩, ?_⟩
    have inside : outsideDomain dom x y = false :=
      outsideDomain_eq_false.mpr ⟨xInside, yInside⟩
    rw [inside]
    exact List.mem_map.mpr ⟨z, inColumn, rfl⟩

/-- The threads of one block compute exactly the points of the domain. -/
theorem mem_streamKernel {block : Dim3} {point : Point} :
    point ∈ streamKernel dom block ↔
      (0 < block.x ∧ 0 < block.y ∧ 0 < block.z) ∧ dom.Contains point := by
  obtain ⟨x, y, z⟩ := point
  simp only [streamKernel, List.mem_flatMap, List.mem_map, List.mem_range,
    Prod.mk.injEq]
  constructor
  · rintro ⟨tz, tzBound, ty, tyBound, tx, txBound, z, zLoop, y, yLoop, x,
      xLoop, rfl, rfl, rfl⟩
    have xPos : 0 < block.x := by omega
    have yPos : 0 < block.y := by omega
    have zPos : 0 < block.z := by omega
    exact ⟨⟨xPos, yPos, zPos⟩,
      (exists_thread_iff xPos).mp ⟨tx, txBound, xLoop⟩,
      (exists_thread_iff yPos).mp ⟨ty, tyBound, yLoop⟩,
      (exists_thread_iff zPos).mp ⟨tz, tzBound, zLoop⟩⟩
  · rintro ⟨⟨xPos, yPos, zPos⟩, xInside, yInside, zInside⟩
    obtain ⟨tx, txBound, xLoop⟩ := (exists_thread_iff xPos).mpr xInside
    obtain ⟨ty, tyBound, yLoop⟩ := (exists_thread_iff yPos).mpr yInside
    obtain ⟨tz, tzBound, zLoop⟩ := (exists_thread_iff zPos).mpr zInside
    exact ⟨tz, tzBound, ty, tyBound, tx, txBound, z, zLoop, y, yLoop, x, xLoop,
      rfl, rfl, rfl⟩

theorem mem_runKernel
    (inPart : dom.InPart space rank) {point : Point} :
    point ∈ runKernel space rank block dom ↔ dom.Contains point := by
  rw [runKernel, mem_columnKernel inPart, mem_strideLoop_one]
  exact Iff.rfl

/-- A shrunken domain lies in the partition if the domain does. -/
theorem PSDomain.InPart.shrink
    (inPart : dom.InPart space rank) (width : Nat) :
    (dom.shrink width).InPart space rank := by
  intro i below less
  have inside : i < psMaxDim := by rw [psMaxDim]; omega
  simp only [PSDomain.shrink, if_pos inside] at less ⊢
  have part := inPart i below (by omega)
  omega

end Kernels

end Physis.Runtime
