import Physis.Runtime.AddressArithmetic

/-!
# Periodic offsets

An access `PSGridGetPeriodic` adds the extent once and takes the remainder,
whose sign is that of the dividend.  This wraps an index around as long as it
is not below zero by more than the extent.
-/

namespace Physis.Runtime

open Physis.Library
open Physis.Library.MachineIntegers
open Physis.Library.RowMajor
open Physis.Runtime.Arithmetic (psIndex)

/-! ## The offset functions -/

/-- `(i + PSGridDim(g, d)) % PSGridDim(g, d)` -/
def periodicCoordinate (extent i : Int) : Option Int := do
  let sum ← psIndex (i + extent)
  some (sum.tmod extent)

/-- `__PSGridGetOffsetPeriodic1D` -/
def psGridGetOffsetPeriodic1D (dim : IndexArray) (i1 : Int) : Option Int :=
  periodicCoordinate (dim 0) i1

/-- `__PSGridGetOffsetPeriodic2D` -/
def psGridGetOffsetPeriodic2D (dim : IndexArray) (i1 i2 : Int) : Option Int := do
  let x ← psGridGetOffsetPeriodic1D dim i1
  let y ← periodicCoordinate (dim 1) i2
  let row ← psIndex (y * dim 0)
  psIndex (x + row)

/-- `__PSGridGetOffsetPeriodic3D` -/
def psGridGetOffsetPeriodic3D (dim : IndexArray) (i1 i2 i3 : Int) : Option Int := do
  let xy ← psGridGetOffsetPeriodic2D dim i1 i2
  let z ← periodicCoordinate (dim 2) i3
  let line ← psIndex (z * dim 0)
  let plane ← psIndex (line * dim 1)
  psIndex (xy + plane)

/-- `__PSGridGetOffsetPeriodic1DDev`, the same of the grid on the device -/
def psGridGetOffsetPeriodic1DDev : IndexArray → Int → Option Int :=
  psGridGetOffsetPeriodic1D

/-- `__PSGridGetOffsetPeriodic2DDev`, the same of the grid on the device -/
def psGridGetOffsetPeriodic2DDev : IndexArray → Int → Int → Option Int :=
  psGridGetOffsetPeriodic2D

/-- `__PSGridGetOffsetPeriodic3DDev`, the same of the grid on the device -/
def psGridGetOffsetPeriodic3DDev : IndexArray → Int → Int → Int → Option Int :=
  psGridGetOffsetPeriodic3D

/-- The runtimes with periodic offset functions. -/
inductive PeriodicRuntime where
  | ref
  | cuda
  | cudaDev
deriving DecidableEq, Repr

/-- The periodic offset function of a runtime for a number of dimensions. -/
def PeriodicRuntime.gridOffset :
    PeriodicRuntime → (numDims : Nat) → (dim indices : IndexArray) → Option Int
  | .ref, 1, dim, i => psGridGetOffsetPeriodic1D dim (i 0)
  | .ref, 2, dim, i => psGridGetOffsetPeriodic2D dim (i 0) (i 1)
  | .ref, 3, dim, i => psGridGetOffsetPeriodic3D dim (i 0) (i 1) (i 2)
  | .cuda, 1, dim, i => psGridGetOffsetPeriodic1D dim (i 0)
  | .cuda, 2, dim, i => psGridGetOffsetPeriodic2D dim (i 0) (i 1)
  | .cuda, 3, dim, i => psGridGetOffsetPeriodic3D dim (i 0) (i 1) (i 2)
  | .cudaDev, 1, dim, i => psGridGetOffsetPeriodic1DDev dim (i 0)
  | .cudaDev, 2, dim, i => psGridGetOffsetPeriodic2DDev dim (i 0) (i 1)
  | .cudaDev, 3, dim, i => psGridGetOffsetPeriodic3DDev dim (i 0) (i 1) (i 2)
  | _, _, _, _ => none

/-- The offset of an access at a constant distance from an index. -/
def PeriodicRuntime.access
    (runtime : PeriodicRuntime) (numDims : Nat) (dim index offset : IndexArray) :
    Option Int := do
  let indices ← (List.range numDims).mapM fun d => psIndex (index d + offset d)
  runtime.gridOffset numDims dim fun d => indices.getD d 0

/-! ## One coordinate -/

section Coordinate

variable {extent i : Int}

/-- The remainder of the sum is the wrapped coordinate, or an extent below it. -/
theorem tmod_add_extent (positive : 0 < extent) :
    (i + extent).tmod extent =
      i % extent - if -extent ≤ i ∨ extent ∣ i then 0 else extent := by
  have natAbs : (extent.natAbs : Int) = extent := Int.natAbs_of_nonneg positive.le
  have divides : extent ∣ i + extent ↔ extent ∣ i := by simp
  have nonneg : 0 ≤ i + extent ↔ -extent ≤ i := by omega
  rw [Int.tmod_eq_emod, Int.add_emod_right]
  simp only [divides, nonneg]
  split <;> simp [natAbs]

theorem tmod_add_extent_le (positive : 0 < extent) :
    (i + extent).tmod extent ≤ i % extent := by
  rw [tmod_add_extent positive]
  split <;> omega

theorem tmod_add_extent_eq_iff (positive : 0 < extent) :
    (i + extent).tmod extent = i % extent ↔ -extent ≤ i ∨ extent ∣ i := by
  rw [tmod_add_extent positive]
  split
  · rename_i reached
    simpa using reached
  · rename_i beyond
    simp only [beyond, iff_false]
    omega

/-- What follows the coordinate sees the remainder. -/
theorem periodicCoordinate_bind_eq_some {rest : Int → Option Int} {value : Int} :
    (periodicCoordinate extent i).bind rest = some value ↔
      FitsSigned 32 (i + extent) ∧ rest ((i + extent).tmod extent) = some value := by
  rw [periodicCoordinate, Option.bind_eq_bind, Option.bind_assoc,
    signed_bind_eq_some]
  rfl

theorem periodicCoordinate_eq_some {value : Int} :
    periodicCoordinate extent i = some value ↔
      FitsSigned 32 (i + extent) ∧ (i + extent).tmod extent = value := by
  rw [periodicCoordinate, Option.bind_eq_bind, signed_bind_eq_some,
    Option.some_inj]

end Coordinate

/-! ## Accesses -/

section Access

variable
    {runtime : PeriodicRuntime} {numDims : Nat} {dim index offset : IndexArray}

/-- The coordinates the offset functions compute. -/
def remainders (dim i : IndexArray) : IndexArray :=
  fun d => (i d + dim d).tmod (dim d)

/-- The cell at a distance, with the coordinates taken modulo the extents. -/
def wrapped (dim index offset : IndexArray) : IndexArray :=
  fun d => (index d + offset d) % dim d

/-- The sums of an access that are taken before the remainder. -/
def SumsFit (numDims : Nat) (dim index offset : IndexArray) : Prop :=
  ∀ d < numDims, FitsSigned 32 (index d + offset d) ∧
    FitsSigned 32 (index d + offset d + dim d)

/-- All runtimes compute the same. -/
theorem gridOffset_eq_ref (indices : IndexArray) :
    runtime.gridOffset numDims dim indices =
      PeriodicRuntime.ref.gridOffset numDims dim indices := by
  match numDims with
  | 0 | 1 | 2 | 3 | _ + 4 => cases runtime <;> rfl

/-- The sums of an index and a distance. -/
theorem indices_eq_some {indices : List Int} :
    (List.range numDims).mapM (fun d => psIndex (index d + offset d)) = some indices ↔
      (∀ d < numDims, FitsSigned 32 (index d + offset d)) ∧
        indices = (List.range numDims).map fun d => index d + offset d := by
  have mapped (fits : ∀ d < numDims, FitsSigned 32 (index d + offset d)) :
      (List.range numDims).mapM (fun d => psIndex (index d + offset d)) =
        some ((List.range numDims).map fun d => index d + offset d) :=
    FallibleMaps.mapM_eq_some_map fun d member =>
      signed_of_fits (fits d (List.mem_range.mp member))
  constructor
  · intro succeeds
    have fits : ∀ d < numDims, FitsSigned 32 (index d + offset d) := by
      intro d below
      have isSome := FallibleMaps.mapM_isSome_iff.mp
        (Option.isSome_iff_exists.mpr ⟨indices, succeeds⟩) d (List.mem_range.mpr below)
      obtain ⟨value, found⟩ := Option.isSome_iff_exists.mp isSome
      exact (signed_eq_some.mp found).1
    rw [mapped fits] at succeeds
    exact ⟨fits, (Option.some.inj succeeds).symm⟩
  · rintro ⟨fits, rfl⟩
    exact mapped fits

/-- The products and sums of the linear offset of coordinates. -/
def linearTerms (dim coordinates : IndexArray) : (numDims : Nat) → List Int
  | 2 => [coordinates 1 * dim 0, linear dim coordinates 2]
  | 3 => [coordinates 1 * dim 0, linear dim coordinates 2, coordinates 2 * dim 0,
      coordinates 2 * dim 0 * dim 1, linear dim coordinates 3]
  | _ => []

/-- The offset functions compute the linear offset of the remainders. -/
theorem gridOffset_eq_some
    (dims : 0 < numDims ∧ numDims ≤ psMaxDim) {i : IndexArray} {value : Int} :
    runtime.gridOffset numDims dim i = some value ↔
      (∀ d < numDims, FitsSigned 32 (i d + dim d)) ∧
        (∀ term ∈ linearTerms dim (remainders dim i) numDims, FitsSigned 32 term) ∧
        linear dim (remainders dim i) numDims = value := by
  rw [gridOffset_eq_ref]
  obtain ⟨some, most⟩ := dims
  simp only [psMaxDim] at most
  interval_cases numDims
  · simp [PeriodicRuntime.gridOffset, psGridGetOffsetPeriodic1D,
      periodicCoordinate_eq_some, linearTerms, linear_succ, remainders]
  · have below (P : Nat → Prop) : (∀ d < 2, P d) ↔ P 0 ∧ P 1 := by
      simp only [Nat.forall_lt_succ_right, Nat.not_lt_zero, false_implies,
        implies_true, true_and]
    simp only [PeriodicRuntime.gridOffset, psGridGetOffsetPeriodic2D,
      psGridGetOffsetPeriodic1D, Option.bind_eq_bind, periodicCoordinate_bind_eq_some,
      signed_bind_eq_some, signed_eq_some, below, linearTerms, linear_succ,
      linear_zero, volume_zero, volume_succ, remainders, List.mem_cons,
      List.not_mem_nil, or_false, forall_eq_or_imp, forall_eq, mul_one, one_mul,
      zero_add]
    tauto
  · have below (P : Nat → Prop) : (∀ d < 3, P d) ↔ P 0 ∧ P 1 ∧ P 2 := by
      simp only [Nat.forall_lt_succ_right, Nat.not_lt_zero, false_implies,
        implies_true, true_and, and_assoc]
    simp only [PeriodicRuntime.gridOffset, psGridGetOffsetPeriodic3D,
      psGridGetOffsetPeriodic2D, psGridGetOffsetPeriodic1D, Option.bind_eq_bind,
      Option.bind_assoc, periodicCoordinate_bind_eq_some,
      signed_bind_eq_some, signed_eq_some, below, linearTerms, linear_succ,
      linear_zero, volume_zero, volume_succ, remainders, List.mem_cons,
      List.not_mem_nil, or_false, forall_eq_or_imp, forall_eq, mul_one, one_mul,
      zero_add, mul_assoc]
    tauto

theorem linearTerms_congr
    {left right : IndexArray} (same : ∀ d < numDims, left d = right d) :
    linearTerms dim left numDims = linearTerms dim right numDims := by
  have position {count : Nat} (within : count ≤ numDims) :
      linear dim left count = linear dim right count :=
    linear_congr (fun _ _ => rfl) fun d below => same d (below.trans_le within)
  match numDims with
  | 0 | 1 | _ + 4 => rfl
  | 2 => rw [linearTerms, linearTerms, position le_rfl, same 1 (by decide)]
  | 3 =>
      rw [linearTerms, linearTerms, position le_rfl, position (by decide : 2 ≤ 3),
        same 1 (by decide), same 2 (by decide)]

/-- An access computes the linear offset of the remainders. -/
theorem access_eq_some
    (dims : 0 < numDims ∧ numDims ≤ psMaxDim) {value : Int} :
    runtime.access numDims dim index offset = some value ↔
      SumsFit numDims dim index offset ∧
        (∀ term ∈ linearTerms dim (remainders dim (index + offset)) numDims,
          FitsSigned 32 term) ∧
        linear dim (remainders dim (index + offset)) numDims = value := by
  let listed : IndexArray := fun d =>
    ((List.range numDims).map fun d => index d + offset d).getD d 0
  have coordinates : ∀ d < numDims, listed d = (index + offset) d := by
    intro d below
    simp [listed, below]
  have same : ∀ d < numDims,
      remainders dim listed d = remainders dim (index + offset) d := by
    intro d below
    rw [remainders, remainders, coordinates d below]
  have sums : (∀ d < numDims, FitsSigned 32 (listed d + dim d)) ↔
      ∀ d < numDims, FitsSigned 32 (index d + offset d + dim d) :=
    forall₂_congr fun d below => by rw [coordinates d below, Pi.add_apply]
  simp only [PeriodicRuntime.access, Option.bind_eq_bind, Option.bind_eq_some_iff,
    indices_eq_some, and_assoc, exists_and_left, exists_eq_left]
  rw [gridOffset_eq_some dims, sums, linearTerms_congr same,
    linear_congr (fun _ _ => rfl) same, SumsFit]
  simp only [forall_and, and_assoc]

/-! ## Where an access wraps around -/

/--
The extents and distances at which every access wraps around.  A distance below
zero stays within one extent, the sum before the remainder and the offset of
the last element are in `PSIndex`.
-/
structure WrapsAround (numDims : Nat) (dim offset : IndexArray) : Prop where
  reach : ∀ d < numDims, dim d = 1 ∨ -dim d ≤ offset d
  room : ∀ d < numDims, 2 * dim d - 1 + offset d < 2 ^ 31
  elements : volume dim numDims ≤ 2 ^ 31

variable (positive : ∀ d < numDims, 0 < dim d ∧ dim d < 2 ^ 31)
  (constant : ∀ d < numDims, FitsSigned 32 (offset d))

include positive in
theorem wrapped_inBox : InBox numDims dim (wrapped dim index offset) := by
  intro d below
  have extent := (positive d below).1
  exact ⟨Int.emod_nonneg _ extent.ne', Int.emod_lt_of_pos _ extent⟩

include positive in
/-- Within these distances the remainders are the wrapped coordinates. -/
theorem WrapsAround.remainders_eq
    (wraps : WrapsAround numDims dim offset) (inside : InBox numDims dim index) :
    ∀ d < numDims, remainders dim (index + offset) d = wrapped dim index offset d := by
  intro d below
  rw [remainders, wrapped, Pi.add_apply, tmod_add_extent_eq_iff (positive d below).1]
  rcases wraps.reach d below with single | near
  · right
    simp [single]
  · left
    have start := (inside d below).1
    omega

include positive constant in
theorem WrapsAround.sumsFit
    (wraps : WrapsAround numDims dim offset) (inside : InBox numDims dim index) :
    SumsFit numDims dim index offset := by
  intro d below
  have room := wraps.room d below
  obtain ⟨least, -⟩ := constant d below
  have extent := positive d below
  have bounds := inside d below
  simp only [FitsSigned] at *
  omega

include positive in
/-- The products and sums for a cell of the grid. -/
theorem linearTerms_fit
    (dims : 0 < numDims ∧ numDims ≤ psMaxDim) (elements : volume dim numDims ≤ 2 ^ 31)
    {cell : IndexArray} (inside : InBox numDims dim cell) :
    ∀ term ∈ linearTerms dim cell numDims, FitsSigned 32 term := by
  obtain ⟨some, most⟩ := dims
  simp only [psMaxDim] at most
  have last := linear_lt_volume inside
  interval_cases numDims
  · simp [linearTerms]
  · have x := (inside 0 (by decide)).1
    have y := mul_nonneg (inside 1 (by decide)).1 (positive 0 (by decide)).1.le
    simp only [linearTerms, linear_succ, linear_zero, volume_succ, volume_zero,
      FitsSigned, List.mem_cons, List.not_mem_nil, or_false, forall_eq_or_imp,
      forall_eq, mul_one, one_mul, zero_add] at *
    omega
  · have x := (inside 0 (by decide)).1
    have extent := (positive 1 (by decide)).1
    have y := mul_nonneg (inside 1 (by decide)).1 (positive 0 (by decide)).1.le
    have z := mul_nonneg (inside 2 (by decide)).1 (positive 0 (by decide)).1.le
    have plane : cell 2 * dim 0 ≤ cell 2 * dim 0 * dim 1 :=
      le_mul_of_one_le_right z extent
    simp only [linearTerms, linear_succ, linear_zero, volume_succ, volume_zero,
      FitsSigned, List.mem_cons, List.not_mem_nil, or_false, forall_eq_or_imp,
      forall_eq, mul_one, one_mul, zero_add, ← mul_assoc] at *
    omega

/-- The access gives the position of the wrapped cell. -/
def AccessWraps
    (runtime : PeriodicRuntime) (numDims : Nat) (dim index offset : IndexArray) :
    Prop :=
  runtime.access numDims dim index offset =
      some (linear dim (wrapped dim index offset) numDims) ∧
    0 ≤ linear dim (wrapped dim index offset) numDims ∧
    linear dim (wrapped dim index offset) numDims < volume dim numDims

include positive constant in
theorem WrapsAround.accessWraps
    (dims : 0 < numDims ∧ numDims ≤ psMaxDim)
    (wraps : WrapsAround numDims dim offset) (inside : InBox numDims dim index) :
    AccessWraps runtime numDims dim index offset := by
  have cell := @wrapped_inBox numDims dim index offset positive
  have same := wraps.remainders_eq positive inside
  refine ⟨(access_eq_some dims).mpr ⟨wraps.sumsFit positive constant inside, ?_, ?_⟩,
    linear_nonneg cell, linear_lt_volume cell⟩
  · rw [linearTerms_congr same]
    exact linearTerms_fit positive dims wraps.elements cell
  · exact linear_congr (fun _ _ => rfl) same

/-! ## Where an access does not -/

/-- The index with one coordinate that is not zero. -/
def axisIndex (d : Nat) (i : Int) : IndexArray :=
  Function.update 0 d i

include positive in
theorem axisIndex_inBox {d : Nat} {i : Int} (inside : 0 ≤ i ∧ i < dim d) :
    InBox numDims dim (axisIndex d i) := by
  intro other below
  rcases eq_or_ne other d with rfl | distinct
  · simpa [axisIndex] using inside
  · simpa [axisIndex, distinct] using (positive other below).1

include positive in
/-- A remainder below the wrapped coordinate moves the offset down. -/
theorem reach_of_accessWraps
    (dims : 0 < numDims ∧ numDims ≤ psMaxDim) {d : Nat} (below : d < numDims)
    (all : ∀ index, InBox numDims dim index →
      AccessWraps runtime numDims dim index offset) :
    dim d = 1 ∨ -dim d ≤ offset d := by
  by_contra! far
  obtain ⟨several, beyond⟩ := far
  have extent := (positive d below).1
  -- one of the first two coordinates is not moved by a multiple of the extent
  obtain ⟨i, bounds, away, rest⟩ : ∃ i, (0 ≤ i ∧ i < dim d) ∧ i + offset d < -dim d ∧
      ¬dim d ∣ i + offset d := by
    by_cases multiple : dim d ∣ offset d
    · have next : ¬dim d ∣ 1 + offset d := by
        intro divides
        have one := (Int.dvd_iff_dvd_of_dvd_add divides).mpr multiple
        exact several (Int.eq_one_of_dvd_one extent.le one)
      have apart : 1 + offset d ≠ -dim d := by
        intro equal
        exact next (equal ▸ (dvd_neg.mpr dvd_rfl))
      exact ⟨1, by omega, by omega, next⟩
    · exact ⟨0, by omega, by omega, by simpa using multiple⟩
  have inside := axisIndex_inBox positive bounds
  obtain ⟨access, -, -⟩ := all _ inside
  obtain ⟨-, -, position⟩ := (access_eq_some dims).mp access
  have smaller : ∀ other < numDims,
      remainders dim (axisIndex d i + offset) other ≤
        wrapped dim (axisIndex d i) offset other :=
    fun other within => tmod_add_extent_le (positive other within).1
  have strict : remainders dim (axisIndex d i + offset) d <
      wrapped dim (axisIndex d i) offset d := by
    apply lt_of_le_of_ne (smaller d below)
    rw [remainders, wrapped, Pi.add_apply, Ne, tmod_add_extent_eq_iff extent]
    simp only [axisIndex, Function.update_self]
    exact not_or.mpr ⟨not_le.mpr away, rest⟩
  exact (linear_lt_of_le (fun other within => (positive other within).1) smaller below
    strict).ne position

include positive in
theorem room_of_accessWraps
    (dims : 0 < numDims ∧ numDims ≤ psMaxDim) {d : Nat} (below : d < numDims)
    (all : ∀ index, InBox numDims dim index →
      AccessWraps runtime numDims dim index offset) :
    2 * dim d - 1 + offset d < 2 ^ 31 := by
  have extent := (positive d below).1
  have inside := @axisIndex_inBox numDims dim positive d (dim d - 1) (by omega)
  obtain ⟨sums, -, -⟩ := (access_eq_some dims).mp (all _ inside).1
  have last := (sums d below).2.2
  simp only [axisIndex, Function.update_self] at last
  omega

include positive in
/-- The offset of the last element is one of the values computed. -/
theorem elements_of_accessWraps
    (dims : 0 < numDims ∧ numDims ≤ psMaxDim)
    (all : ∀ index, InBox numDims dim index →
      AccessWraps runtime numDims dim index offset) :
    volume dim numDims ≤ 2 ^ 31 := by
  let index : IndexArray := fun d => (dim d - 1 - offset d) % dim d
  have inside : InBox numDims dim index := by
    intro d below
    have extent := (positive d below).1
    exact ⟨Int.emod_nonneg _ extent.ne', Int.emod_lt_of_pos _ extent⟩
  have last : ∀ d < numDims, wrapped dim index offset d = dim d - 1 := by
    intro d below
    have extent := (positive d below).1
    simp only [wrapped, index, Int.emod_add_emod, sub_add_cancel]
    exact Int.emod_eq_of_lt (by omega) (by omega)
  have position : linear dim (wrapped dim index offset) numDims =
      volume dim numDims - 1 := by
    rw [linear_congr (fun _ _ => rfl) last, linear_last]
  obtain ⟨access, -, -⟩ := all index inside
  obtain ⟨-, terms, computed⟩ := (access_eq_some dims).mp access
  rw [position] at computed
  obtain ⟨some, most⟩ := dims
  simp only [psMaxDim] at most
  interval_cases numDims
  · have extent := (positive 0 (by decide)).2
    simp only [volume_succ, volume_zero, one_mul]
    omega
  · have fits := (terms (linear dim (remainders dim (index + offset)) 2)
      (by simp [linearTerms])).2
    rw [computed] at fits
    omega
  · have fits := (terms (linear dim (remainders dim (index + offset)) 3)
      (by simp [linearTerms])).2
    rw [computed] at fits
    omega

/--
Every access of a grid at a distance gives the position of the cell around the
ends exactly if the distance is at most one extent below zero, and the sum before
the remainder and the last offset are in `PSIndex`.
-/
theorem periodic_access_wraps_iff
    (dims : 0 < numDims ∧ numDims ≤ psMaxDim)
    (positive : ∀ d < numDims, 0 < dim d ∧ dim d < 2 ^ 31)
    (constant : ∀ d < numDims, FitsSigned 32 (offset d)) :
    (∀ index, InBox numDims dim index →
      AccessWraps runtime numDims dim index offset) ↔
      WrapsAround numDims dim offset := by
  constructor
  · intro all
    exact ⟨fun d below => reach_of_accessWraps positive dims below all,
      fun d below => room_of_accessWraps positive dims below all,
      elements_of_accessWraps positive dims all⟩
  · intro wraps index inside
    exact wraps.accessWraps positive constant dims inside

end Access

/-- In a grid of 5 by 4 cells all distances up to one extent below zero wrap around. -/
theorem fiveByFour_wraps :
    WrapsAround 2 (IntegerArray.mk3 5 4 0) (IntegerArray.mk3 (-5) 7 0) ∧
      ∀ index, InBox 2 (IntegerArray.mk3 5 4 0) index →
        AccessWraps .cuda 2 (IntegerArray.mk3 5 4 0) index
          (IntegerArray.mk3 (-5) 7 0) := by
  have wraps : WrapsAround 2 (IntegerArray.mk3 5 4 0) (IntegerArray.mk3 (-5) 7 0) :=
    ⟨by decide, by decide, by decide⟩
  exact ⟨wraps,
    (periodic_access_wraps_iff (by decide) (by decide) (by decide)).mpr wraps⟩

/-- Four cells back from the first of three, the offset is one before the grid. -/
theorem threeCells_outside :
    PeriodicRuntime.ref.access 1 (IntegerArray.mk3 3 0 0) (IntegerArray.mk3 0 0 0)
        (IntegerArray.mk3 (-4) 0 0) = some (-1) ∧
      ¬∀ index, InBox 1 (IntegerArray.mk3 3 0 0) index →
        AccessWraps .ref 1 (IntegerArray.mk3 3 0 0) index (IntegerArray.mk3 (-4) 0 0) := by
  refine ⟨by decide, fun all => ?_⟩
  have first := (all (IntegerArray.mk3 0 0 0) (by unfold InBox; decide)).1
  revert first
  decide

end Physis.Runtime
