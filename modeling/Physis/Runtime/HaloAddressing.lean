import Physis.Runtime.GridAddressing
import Physis.Runtime.LoadNeighbor

/-!
# Addresses outside the local subgrid

`GetAddress` and `__PSGridGetAddr` choose the halo of the first dimension in
which an index leaves the local subgrid.  With diagonal halos the generated
code moves the later coordinates, `GetAddress` the first one by mistake.  The
layout of a halo is fixed by the sizes recorded when it was received; the
generated code follows it if its flag for diagonal halos is that of the layout.
-/

namespace Physis.Runtime

open Physis.Library
open Physis.Library.RowMajor
open Physis.Runtime.HaloExchange

variable {α : Type}

namespace GridMPI

variable (grid : GridMPI α)

/-- The coordinates of an index from the local subgrid's first element on. -/
def localPoint (index : IndexArray) : IndexArray :=
  fun i => index i - grid.localOffset i

/-- The first dimension in which a point leaves the local subgrid. -/
def firstOutside (point : IndexArray) : Option Nat :=
  (List.range psMaxDim).find? fun i =>
    decide (point i < 0) || decide (grid.localSize i ≤ point i)

/-- The point lies in the local subgrid or in halos that were received. -/
def InExtended (point : IndexArray) : Prop :=
  ∀ i < psMaxDim, -(grid.haloWidth .bw i : Int) ≤ point i ∧
    point i < grid.localSize i + (grid.haloWidth .fw i : Int)

variable {grid}

theorem firstOutside_eq_some {point : IndexArray} {i : Nat} :
    grid.firstOutside point = some i ↔
      i < psMaxDim ∧ (point i < 0 ∨ grid.localSize i ≤ point i) ∧
        ∀ j < i, 0 ≤ point j ∧ point j < grid.localSize j := by
  simp only [firstOutside, List.find?_range_eq_some, Bool.or_eq_true,
    decide_eq_true_eq, List.mem_range, Bool.not_eq_true', Bool.or_eq_false_iff,
    decide_eq_false_iff_not, not_lt, not_le]
  tauto

theorem psGridGetAddr_eq
    (inactive : grid.remoteGridActive = false) (index : IndexArray) :
    grid.psGridGetAddr index =
      match grid.firstOutside (grid.localPoint index) with
      | some i => some (grid.psHaloAddr (grid.localPoint index) i)
      | none => some (.data (linear grid.localSize (grid.localPoint index) 3)) := by
  rw [psGridGetAddr, if_neg (by simp [inactive])]
  simp only [psGridCalcOffset3D_eq_linear]
  rfl

theorem getAddress_eq
    (three : grid.numDims = 3) (inactive : grid.remoteGridActive = false)
    (index : IndexArray) :
    grid.getAddress index =
      match grid.firstOutside (grid.localPoint index) with
      | some i => some (grid.haloAddress (grid.localPoint index) i)
      | none => some (.data (linear grid.localSize (grid.localPoint index) 3)) := by
  rw [getAddress, if_neg (by simp [inactive]), three]
  simp only [gridCalcOffset3D_eq_linear]
  rfl

/-! ## The two address functions -/

/-- In the last dimension or without diagonal halos both do the same. -/
theorem haloAddress_eq_of_unmoved
    {i : Nat} (unmoved : grid.haloHasDiagonal = false ∨ i = 2) (below : i < psMaxDim)
    (point : IndexArray) :
    grid.haloAddress point i = grid.psHaloAddr point i := by
  have later : ∀ j, ¬(i < j ∧ j < psMaxDim ∧ grid.haloHasDiagonal = true) := by
    rintro j ⟨more, less, diagonal⟩
    rcases unmoved with straight | last
    · simp [straight] at diagonal
    · simp only [psMaxDim] at less
      omega
  have kept : (if grid.haloHasDiagonal = true then
      point i + ((psMaxDim - (i + 1)) * grid.haloWidth .bw i : Nat) else point i) =
        point i := by
    rcases unmoved with straight | rfl
    · simp [straight]
    · simp [psMaxDim]
  simp only [haloAddress, psHaloAddr, kept, if_neg (later _)]
  rfl

/-- The position of a halo's cell, moved as `GetAddress` does. -/
theorem haloAddress_diagonal
    (diagonal : grid.haloHasDiagonal = true) {point : IndexArray} {i : Nat}
    (bounded : -(grid.haloWidth .bw i : Int) ≤ point i) (early : i < 2) :
    grid.haloAddress point i =
      .halo .fw i (linear (grid.haloSize .fw i) (Function.update point i
        (point i + ((2 - i) * grid.haloWidth .bw i : Nat) - grid.localSize i)) 3) := by
  have more : grid.haloWidth .bw i ≤ (2 - i) * grid.haloWidth .bw i :=
    Nat.le_mul_of_pos_left _ (by omega)
  have last : psMaxDim - (i + 1) = 2 - i := by
    simp only [psMaxDim]
    omega
  have forward : ¬(point i + ((2 - i) * grid.haloWidth .bw i : Nat) < 0) := by
    omega
  simp only [haloAddress, if_pos diagonal, last, if_neg forward,
    gridCalcOffset3D_eq_linear]

/-- What the moves of the two functions add to a position in a forward halo. -/
def SameShift (grid : GridMPI α) (i : Nat) : Prop :=
  ((2 - i) * grid.haloWidth .bw i : Nat) * volume (grid.haloSize .fw i) i =
    ∑ j ∈ Finset.Ioo i 3, (grid.haloWidth .bw j : Int) * volume (grid.haloSize .fw i) j

/--
The functions meet on an index: it is remote, there are no diagonal halos, or
the first dimension it leaves the local subgrid in is the last one, or it leaves
forwards where both moves add the same.
-/
def AddressesMeet (grid : GridMPI α) (index : IndexArray) : Prop :=
  grid.remoteGridActive = true ∨ grid.haloHasDiagonal = false ∨
    ∀ i < 2, grid.firstOutside (grid.localPoint index) = some i →
      0 ≤ grid.localPoint index i ∧ grid.SameShift i

/-- Forward halos of the first two dimensions, where the functions differ. -/
theorem haloAddress_eq_iff_forward
    (diagonal : grid.haloHasDiagonal = true) {point : IndexArray} {i : Nat}
    (bounded : -(grid.haloWidth .bw i : Int) ≤ point i) (early : i < 2)
    (forward : 0 ≤ point i) :
    grid.haloAddress point i = grid.psHaloAddr point i ↔ grid.SameShift i := by
  rw [haloAddress_diagonal diagonal bounded early, psHaloAddr,
    if_neg (not_lt.mpr forward), psGridCalcOffset3D_eq_linear,
    GridAddress.halo.injEq, SameShift]
  simp only [true_and]
  have plane : volume (grid.haloSize .fw i) 2 =
      grid.haloSize .fw i 0 * grid.haloSize .fw i 1 := by
    simp [volume_succ]
  have line : volume (grid.haloSize .fw i) 1 = grid.haloSize .fw i 0 := by
    simp [volume_succ]
  obtain rfl | rfl : i = 0 ∨ i = 1 := by omega
  · have later : Finset.Ioo 0 3 = {1, 2} := by decide
    simp only [linear_succ, linear_zero, later, psMaxDim, diagonal]
    simp [plane, line]
    constructor
    · intro equal
      linarith
    · intro equal
      linarith
  · have later : Finset.Ioo 1 3 = {2} := by decide
    simp only [linear_succ, linear_zero, later, psMaxDim, diagonal]
    simp [plane, line]
    constructor
    · intro equal
      linarith
    · intro equal
      linarith

/-- Backwards `GetAddress` returns a forward halo instead. -/
theorem haloAddress_ne_backward
    (diagonal : grid.haloHasDiagonal = true) {point : IndexArray} {i : Nat}
    (bounded : -(grid.haloWidth .bw i : Int) ≤ point i) (early : i < 2)
    (backward : point i < 0) :
    grid.haloAddress point i ≠ grid.psHaloAddr point i := by
  rw [haloAddress_diagonal diagonal bounded early, psHaloAddr, if_pos backward]
  simp

/--
For an index of the local subgrid, of the received halos or of the remote grid
both functions designate one element exactly if they meet on it.
-/
theorem getAddress_eq_psGridGetAddr_iff
    (three : grid.numDims = 3) {index : IndexArray}
    (known : grid.remoteGridActive = true ∨ grid.InExtended (grid.localPoint index)) :
    grid.getAddress index = grid.psGridGetAddr index ↔ grid.AddressesMeet index := by
  cases active : grid.remoteGridActive with
  | true =>
      refine ⟨fun _ => Or.inl active, fun _ => ?_⟩
      rw [getAddress, psGridGetAddr, if_pos active, if_pos active]
      rfl
  | false =>
      have extended := known.resolve_left (by simp [active])
      rw [getAddress_eq three active, psGridGetAddr_eq active, AddressesMeet]
      simp only [active, Bool.false_eq_true, false_or]
      cases straight : grid.haloHasDiagonal with
      | false =>
          refine ⟨fun _ => Or.inl rfl, fun _ => ?_⟩
          cases first : grid.firstOutside (grid.localPoint index) with
          | none => rfl
          | some i =>
              have below := (firstOutside_eq_some.mp first).1
              exact congrArg some (haloAddress_eq_of_unmoved (Or.inl straight) below _)
      | true =>
          simp only [Bool.true_eq_false, false_or]
          cases first : grid.firstOutside (grid.localPoint index) with
          | none => simp
          | some i =>
              have below := (firstOutside_eq_some.mp first).1
              have bounded := (extended i below).1
              simp only [Option.some.injEq]
              constructor
              · rintro equal j early rfl
                rcases lt_or_ge (grid.localPoint index i) 0 with backward | forward
                · exact absurd equal
                    (haloAddress_ne_backward straight bounded early backward)
                · exact ⟨forward, (haloAddress_eq_iff_forward straight bounded early
                    forward).mp equal⟩
              · intro meet
                rcases Nat.lt_or_ge i 2 with early | last
                · obtain ⟨forward, shift⟩ := meet i early rfl
                  exact (haloAddress_eq_iff_forward straight bounded early
                    forward).mpr shift
                · apply haloAddress_eq_of_unmoved (Or.inr _) below
                  simp only [psMaxDim] at below
                  omega

/-! ## The layout of received halos -/

/-- The side on which a coordinate leaves the local subgrid. -/
def side (point : IndexArray) (i : Nat) : Dir :=
  if point i < 0 then .bw else .fw

/--
The cell of a point in the box recorded for the halo of the first dimension it
leaves the local subgrid in, or in the own data.
-/
def layoutAddress (grid : GridMPI α) (diagonal : Bool) (point : IndexArray) :
    GridAddress :=
  match grid.firstOutside point with
  | none => .data (linear grid.localSize point 3)
  | some i =>
      .halo (side point i) i (linear (grid.haloSize (side point i) i)
        (haloIndex grid i (grid.haloWidth (side point i) i) (side point i) diagonal
          point) 3)

/-- `__PSGridGetAddr` follows the layout wherever halos have been received. -/
def FollowsLayout (grid : GridMPI α) (diagonal : Bool) : Prop :=
  ∀ index, grid.InExtended (grid.localPoint index) →
    (diagonal = false → ∀ i < psMaxDim, ∀ j < psMaxDim,
      ¬(0 ≤ grid.localPoint index i ∧
        grid.localPoint index i < grid.localSize i) →
      ¬(0 ≤ grid.localPoint index j ∧
        grid.localPoint index j < grid.localSize j) → i = j) →
    grid.psGridGetAddr index =
      some (grid.layoutAddress diagonal (grid.localPoint index))

/-- What an exchange leaves behind in a grid of three dimensions. -/
structure Recorded (grid : GridMPI α) (diagonal : Bool) : Prop where
  extent : ∀ i < psMaxDim, 0 < grid.localSize i
  size : ∀ dir, ∀ i < psMaxDim, 0 < grid.haloWidth dir i → ∀ j < psMaxDim,
    grid.haloSize dir i j = grid.haloExtent i (grid.haloWidth dir i) diagonal j

/-- No halo was received in two dimensions, backwards in the later one. -/
def NoCorner (grid : GridMPI α) : Prop :=
  ∀ j < psMaxDim, 0 < grid.haloWidth .bw j →
    ∀ i < j, ∀ dir, grid.haloWidth dir i = 0

/-- The coordinates `__PSGridGetAddr` computes for a point. -/
theorem psHaloAddr_eq
    {point : IndexArray} {i : Nat} (below : i < psMaxDim) :
    grid.psHaloAddr point i =
      .halo (side point i) i (linear (grid.haloSize (side point i) i)
        (haloIndex grid i (grid.haloWidth (side point i) i) (side point i)
          grid.haloHasDiagonal point) 3) := by
  have coordinates : ∀ first : Int,
      first = point i - grid.haloOffset i (grid.haloWidth (side point i) i)
        (side point i) →
      linear (grid.haloSize (side point i) i)
          (Function.update (fun j =>
            if i < j ∧ j < psMaxDim ∧ grid.haloHasDiagonal = true then
              point j + (grid.haloWidth .bw j : Nat)
            else point j) i first) 3 =
        linear (grid.haloSize (side point i) i)
          (haloIndex grid i (grid.haloWidth (side point i) i) (side point i)
            grid.haloHasDiagonal point) 3 := by
    rintro first rfl
    apply linear_congr fun _ _ => rfl
    intro j less
    by_cases same : j = i
    · subst same
      rw [Function.update_self, haloIndex, if_pos rfl]
    · rw [Function.update_of_ne same, haloIndex, if_neg same]
      by_cases later : grid.haloHasDiagonal = true ∧ i < j
      · rw [if_pos ⟨later.2, less, later.1⟩, if_pos later]
      · rw [if_neg fun all => later ⟨all.2.2, all.1⟩, if_neg later]
  simp only [psHaloAddr, psGridCalcOffset3D_eq_linear]
  by_cases backward : point i < 0
  · have bw : side point i = .bw := if_pos backward
    rw [if_pos backward]
    rw [bw] at coordinates ⊢
    rw [coordinates]
    simp only [haloOffset]
    omega
  · have fw : side point i = .fw := if_neg backward
    rw [if_neg backward]
    rw [fw] at coordinates ⊢
    rw [coordinates]
    simp only [haloOffset]
    omega

/-- Where a point leaves the subgrid first, a halo has been received. -/
theorem width_pos_of_outside
    {point : IndexArray} {i : Nat} (extended : grid.InExtended point)
    (first : grid.firstOutside point = some i) :
    0 < grid.haloWidth (side point i) i := by
  obtain ⟨below, outside, _⟩ := firstOutside_eq_some.mp first
  have bounds := extended i below
  by_cases backward : point i < 0
  · rw [side, if_pos backward]
    omega
  · rw [side, if_neg backward]
    omega

theorem followsLayout_of
    {diagonal : Bool} (inactive : grid.remoteGridActive = false)
    (condition : grid.haloHasDiagonal = diagonal ∨ grid.NoCorner) :
    grid.FollowsLayout diagonal := by
  intro index extended _
  rw [psGridGetAddr_eq inactive, layoutAddress]
  cases first : grid.firstOutside (grid.localPoint index) with
  | none => rfl
  | some i =>
      have below := (firstOutside_eq_some.mp first).1
      simp only [Option.some.injEq]
      rw [psHaloAddr_eq below]
      congr 1
      rcases condition with rfl | corner
      · rfl
      · have received := width_pos_of_outside extended first
        apply linear_congr fun _ _ => rfl
        intro j less
        have none_later : i < j → grid.haloWidth .bw j = 0 := by
          intro later
          by_contra nonzero
          have none := corner j less (Nat.pos_of_ne_zero nonzero) i later
            (side (grid.localPoint index) i)
          omega
        simp only [haloIndex]
        split
        · rfl
        · split <;> split <;> rename_i left right <;> first | rfl | skip
          · rw [none_later left.2]
            simp
          · rw [none_later right.2]
            simp

/-- The point one step out of the local subgrid in one dimension. -/
def stepOut (grid : GridMPI α) (i : Nat) : Dir → IndexArray
  | .fw => Function.update (fun _ => 0) i (grid.localSize i)
  | .bw => Function.update (fun _ => 0) i (-1)

theorem side_stepOut
    {diagonal : Bool} (recorded : grid.Recorded diagonal) {i : Nat}
    (below : i < psMaxDim) (dir : Dir) :
    side (grid.stepOut i dir) i = dir := by
  have extent := recorded.extent i below
  cases dir with
  | fw => simp [side, stepOut, extent.le]
  | bw => simp [side, stepOut]

/-- The step leaves the subgrid in that dimension only. -/
theorem stepOut_inside
    {diagonal : Bool} (recorded : grid.Recorded diagonal) {i j : Nat}
    (below : j < psMaxDim) (different : j ≠ i) (dir : Dir) :
    0 ≤ grid.stepOut i dir j ∧ grid.stepOut i dir j < grid.localSize j := by
  have extent := recorded.extent j below
  cases dir <;> simp [stepOut, different, extent]

theorem firstOutside_stepOut
    {diagonal : Bool} (recorded : grid.Recorded diagonal) {i : Nat}
    (below : i < psMaxDim) (dir : Dir) :
    grid.firstOutside (grid.stepOut i dir) = some i := by
  rw [firstOutside_eq_some]
  refine ⟨below, ?_, fun j earlier => ?_⟩
  · cases dir with
    | fw => exact Or.inr (by simp [stepOut])
    | bw => exact Or.inl (by simp [stepOut])
  · exact stepOut_inside recorded (earlier.trans below) (Nat.ne_of_lt earlier) dir

theorem stepOut_extended
    {diagonal : Bool} (recorded : grid.Recorded diagonal) {i : Nat} {dir : Dir}
    (received : 0 < grid.haloWidth dir i) :
    grid.InExtended (grid.stepOut i dir) := by
  intro j below
  by_cases same : j = i
  · subst same
    have extent := recorded.extent j below
    cases dir with
    | fw =>
        simp only [stepOut, Function.update_self]
        omega
    | bw =>
        simp only [stepOut, Function.update_self]
        omega
  · have inside := stepOut_inside recorded below same dir
    omega

/-- A halo that was received has extent in every dimension. -/
theorem Recorded.size_pos
    {diagonal : Bool} (recorded : grid.Recorded diagonal) {i : Nat}
    (below : i < psMaxDim) {dir : Dir} (received : 0 < grid.haloWidth dir i)
    {j : Nat} (less : j < psMaxDim) :
    0 < grid.haloSize dir i j := by
  have extent := recorded.extent j less
  rw [recorded.size dir i below received j less, haloExtent]
  split
  · exact_mod_cast received
  · split <;> omega

/-- Moving the later coordinates of a halo's cell moves its position. -/
theorem linear_haloIndex_ne
    {diagonal : Bool} (recorded : grid.Recorded diagonal) {i j : Nat}
    (later : i < j) (less : j < psMaxDim) (corner : 0 < grid.haloWidth .bw j)
    {dir : Dir} (received : 0 < grid.haloWidth dir i) (point : IndexArray) :
    linear (grid.haloSize dir i)
        (haloIndex grid i (grid.haloWidth dir i) dir false point) 3 <
      linear (grid.haloSize dir i)
        (haloIndex grid i (grid.haloWidth dir i) dir true point) 3 := by
  apply linear_lt_of_le
    (fun k below => recorded.size_pos (later.trans less) received below) ?_ less ?_
  · intro k _
    simp only [haloIndex, Bool.false_eq_true, false_and, if_false, true_and]
    split
    · exact le_rfl
    · split <;> omega
  · have different : j ≠ i := Nat.ne_of_gt later
    simp [haloIndex, different, later, corner]

/--
Without an active remote grid `__PSGridGetAddr` follows the layout left by an
exchange exactly if its flag is that of the layout, or no corner was received.
-/
theorem followsLayout_iff_of_recorded
    {diagonal : Bool} (recorded : grid.Recorded diagonal)
    (inactive : grid.remoteGridActive = false) :
    grid.FollowsLayout diagonal ↔
      grid.haloHasDiagonal = diagonal ∨ grid.NoCorner := by
  refine ⟨fun follows => ?_, followsLayout_of inactive⟩
  by_contra neither
  obtain ⟨flag, corners⟩ := not_or.mp neither
  simp only [NoCorner] at corners
  push Not at corners
  obtain ⟨j, less, corner, i, later, dir, nonzero⟩ := corners
  have received := Nat.pos_of_ne_zero nonzero
  have below := later.trans less
  let index : IndexArray := fun k => grid.localOffset k + grid.stepOut i dir k
  have point : grid.localPoint index = grid.stepOut i dir := by
    funext k
    simp [localPoint, index]
  have resolved := follows index
    (by rw [point]; exact stepOut_extended recorded received) (by
      intro _ k kBelow l lBelow kOutside lOutside
      rw [point] at kOutside lOutside
      have first : k = i := by
        by_contra different
        exact kOutside (stepOut_inside recorded kBelow different dir)
      have second : l = i := by
        by_contra different
        exact lOutside (stepOut_inside recorded lBelow different dir)
      rw [first, second])
  have outside := firstOutside_stepOut recorded below dir
  have moved := linear_haloIndex_ne recorded later less corner received
    (grid.stepOut i dir)
  rw [psGridGetAddr_eq inactive, point, layoutAddress, outside] at resolved
  simp only [psHaloAddr_eq below, side_stepOut recorded below dir,
    Option.some.injEq, GridAddress.halo.injEq, true_and] at resolved
  cases flagged : grid.haloHasDiagonal <;> cases diagonal
  · exact flag flagged
  · rw [flagged] at resolved
    omega
  · rw [flagged] at resolved
    omega
  · exact flag flagged

end GridMPI

end Physis.Runtime
