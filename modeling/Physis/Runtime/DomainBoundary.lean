import Physis.Library.Segments
import Physis.Runtime.Domain

/-!
# The interior and the boundary of a local domain

`__PSDomainShrink` takes a margin off a local domain, and
`__PSDomainGetBoundary` gives the slab at one side of it, or one of several
chunks of that slab along the third dimension.
-/

namespace Physis.Runtime

open Physis.Library

namespace PSDomain

/-- The extent of the local domain along a dimension -/
def extent (dom : PSDomain) (i : Nat) : Int :=
  dom.localMax i - dom.localMin i

/-- `__PSDomainShrink` -/
def shrink (dom : PSDomain) (width : Nat) : PSDomain :=
  { dom with
    localMin := fun i =>
      if i < psMaxDim then dom.localMin i + width else dom.localMin i
    localMax := fun i =>
      if i < psMaxDim then dom.localMax i - width else dom.localMax i }

/-- The part of `__PSDomainGetBoundary` for a factor above one -/
def divide (bd d : PSDomain) (factor offset : Nat) : PSDomain :=
  let dividingDim := 2
  let diff := d.localMax dividingDim - d.localMin dividingDim
  let chunk := diff.tdiv factor
  let rem := diff.tmod factor
  let first := bd.localMin dividingDim + chunk * offset +
    (if (offset : Int) < rem then (offset : Int) else rem)
  { bd with
    localMin := Function.update bd.localMin dividingDim first
    localMax := Function.update bd.localMax dividingDim
      (first + chunk + if (offset : Int) < rem then 1 else 0) }

/-- The slab of the given width at one side, before it is divided. -/
def slab (d : PSDomain) (dim : Nat) (right : Bool) (width : Nat) : PSDomain :=
  if right then
    { d with
      localMin :=
        Function.update d.localMin dim (d.localMax dim - width) }
  else
    { d with
      localMax :=
        Function.update d.localMax dim (d.localMin dim + width) }

/-- `__PSDomainGetBoundary`; `none` where the assertion fails. -/
def getBoundary
    (d : PSDomain) (dim : Nat) (right : Bool) (width factor offset : Nat) :
    Option PSDomain :=
  if d.localMin dim = 0 ∧ d.localMax dim = 0 then some d
  else if right = true ∧ d.localMax dim - width < 0 then none
  else
    let bd := d.slab dim right width
    some (if 1 < factor then bd.divide d factor offset else bd)

/-! ## Chunks -/

/-- Where the slab of a dimension starts and ends along that dimension. -/
def slabMin (d : PSDomain) (dim : Nat) (right : Bool) (width : Nat) : Int :=
  if right then d.localMax dim - width else d.localMin dim

def slabMax (d : PSDomain) (dim : Nat) (right : Bool) (width : Nat) : Int :=
  if right then d.localMax dim else d.localMin dim + width

theorem slab_localMin
    (d : PSDomain) (dim : Nat) (right : Bool) (width i : Nat) :
    (d.slab dim right width).localMin i =
      if i = dim then d.slabMin dim right width else d.localMin i := by
  cases right <;> simp [slab, slabMin, Function.update_apply]
  rintro rfl
  rfl

theorem slab_localMax
    (d : PSDomain) (dim : Nat) (right : Bool) (width i : Nat) :
    (d.slab dim right width).localMax i =
      if i = dim then d.slabMax dim right width else d.localMax i := by
  cases right <;> simp [slab, slabMax, Function.update_apply]
  rintro rfl
  rfl

/-- The extent of the chunk of each number. -/
def chunkExtent (d : PSDomain) (factor chunk : Nat) : Int :=
  (d.extent 2).tdiv factor +
    if (chunk : Int) < (d.extent 2).tmod factor then 1 else 0

theorem chunkExtent_nonneg
    {d : PSDomain} (nonneg : 0 ≤ d.extent 2) (factor chunk : Nat) :
    0 ≤ d.chunkExtent factor chunk := by
  have quotient : 0 ≤ (d.extent 2).tdiv factor :=
    Int.tdiv_nonneg nonneg (Int.natCast_nonneg _)
  simp only [chunkExtent]
  split <;> omega

/-- Where a chunk starts, relative to the slab, in closed form. -/
theorem start_chunkExtent
    {d : PSDomain} (nonneg : 0 ≤ d.extent 2) (factor count : Nat) :
    Segments.start (d.chunkExtent factor) count =
      (d.extent 2).tdiv factor * count +
        if (count : Int) < (d.extent 2).tmod factor then (count : Int)
        else (d.extent 2).tmod factor := by
  have remainder : 0 ≤ (d.extent 2).tmod factor := Int.tmod_nonneg _ nonneg
  induction count with
  | zero =>
      simp only [Segments.start]
      split
      · simp
      · simp
        omega
  | succ count induction =>
      rw [Segments.start, induction, chunkExtent]
      push_cast
      rw [mul_add, mul_one]
      split <;> split <;> omega

/-- The chunks end where the slab ends. -/
theorem start_chunkExtent_factor
    {d : PSDomain} (nonneg : 0 ≤ d.extent 2)
    {factor : Nat} (positive : 0 < factor) :
    Segments.start (d.chunkExtent factor) factor = d.extent 2 := by
  have below : (d.extent 2).tmod factor < factor :=
    Int.tmod_lt_of_pos _ (by exact_mod_cast positive)
  have whole := Int.mul_tdiv_add_tmod (d.extent 2) factor
  rw [start_chunkExtent nonneg, if_neg (by omega), mul_comm]
  exact whole

theorem divide_localMin
    {bd d : PSDomain} (nonneg : 0 ≤ d.extent 2) (factor offset : Nat) :
    (bd.divide d factor offset).localMin 2 =
      bd.localMin 2 + Segments.start (d.chunkExtent factor) offset := by
  rw [start_chunkExtent nonneg, ← add_assoc]
  simp only [divide, Function.update_self]
  rfl

theorem divide_localMax
    {bd d : PSDomain} (nonneg : 0 ≤ d.extent 2) (factor offset : Nat) :
    (bd.divide d factor offset).localMax 2 =
      bd.localMin 2 + Segments.start (d.chunkExtent factor) (offset + 1) := by
  rw [Segments.start, start_chunkExtent nonneg, chunkExtent, ← add_assoc,
    ← add_assoc, ← add_assoc]
  simp only [divide, Function.update_self]
  rfl

theorem divide_other
    (bd d : PSDomain) (factor offset : Nat) {i : Nat} (other : i ≠ 2) :
    (bd.divide d factor offset).localMin i = bd.localMin i ∧
      (bd.divide d factor offset).localMax i = bd.localMax i :=
  ⟨Function.update_of_ne other _ _, Function.update_of_ne other _ _⟩

/-- A chunk lies in the range of the third dimension. -/
theorem divide_bounds
    {bd d : PSDomain} (nonneg : 0 ≤ d.extent 2)
    (same : bd.localMin 2 = d.localMin 2)
    {factor offset : Nat} (bound : offset < factor) {z : Int}
    (inside : (bd.divide d factor offset).localMin 2 ≤ z ∧
      z < (bd.divide d factor offset).localMax 2) :
    d.localMin 2 ≤ z ∧ z < d.localMax 2 := by
  rw [divide_localMin nonneg, divide_localMax nonneg, same] at inside
  have extents := chunkExtent_nonneg nonneg factor
  have total := start_chunkExtent_factor nonneg (Nat.zero_lt_of_lt bound)
  have first := Segments.start_nonneg extents offset
  have last := Segments.start_mono extents (Nat.succ_le_of_lt bound)
  rw [total, extent] at last
  simp only [Nat.succ_eq_add_one] at last
  omega

/-- The chunks of a slab partition the range of the third dimension. -/
theorem divide_partitions
    {bd d : PSDomain} (nonneg : 0 ≤ d.extent 2)
    (same : bd.localMin 2 = d.localMin 2)
    {factor : Nat} (positive : 0 < factor) (z : Int) :
    d.localMin 2 ≤ z ∧ z < d.localMax 2 ↔
      ∃! offset, offset < factor ∧
        (bd.divide d factor offset).localMin 2 ≤ z ∧
          z < (bd.divide d factor offset).localMax 2 := by
  constructor
  · rintro ⟨lower, upper⟩
    have extents := chunkExtent_nonneg nonneg factor
    have below : z - d.localMin 2 <
        Segments.start (d.chunkExtent factor) factor := by
      rw [start_chunkExtent_factor nonneg positive, extent]
      omega
    obtain ⟨offset, bound, inside⟩ :=
      Segments.exists_segment (Int.sub_nonneg.mpr lower) below
    simp only [divide_localMin nonneg, divide_localMax nonneg, same]
    refine ⟨offset, ⟨bound, by omega, by omega⟩, ?_⟩
    rintro other ⟨-, otherLower, otherUpper⟩
    have lower : Segments.start (d.chunkExtent factor) other ≤
        z - d.localMin 2 := by omega
    have upper : z - d.localMin 2 <
        Segments.start (d.chunkExtent factor) (other + 1) := by omega
    exact Segments.segment_unique extents lower upper inside.1 inside.2
  · rintro ⟨offset, ⟨bound, inside⟩, -⟩
    exact divide_bounds nonneg same bound inside

end PSDomain

end Physis.Runtime
