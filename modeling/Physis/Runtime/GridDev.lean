import Physis.Runtime.GridAddressing

/-!
# Address functions on the device

The device version of a grid has one address function that tests all
dimensions, one that tests none, and one for every dimension and direction,
which tests only where an access with a first offset there can leave the local
subgrid.  From a point of the local subgrid they all find the same element.
-/

namespace Physis.Runtime

/-- `__PSGridDev3DFloat`, without the pointers; `halo_width` is by dimension. -/
structure PSGridDev3D where
  localSize : IndexArray
  localOffset : IndexArray
  pitch : Int
  haloWidth : Nat → Dir → Nat
  diag : Bool

namespace PSGridDev3D

/-- `__PSGridCalcOffset3D` -/
def calcOffset3D (x y z pitch dimy : Int) : Int :=
  x + y * pitch + z * pitch * dimy

variable (g : PSGridDev3D)

/-- `__PSGridGetAddrNoHaloFloat3DLocal` -/
def getAddrNoHaloLocal (x y z : Int) : GridAddress :=
  .data (calcOffset3D x y z g.pitch (g.localSize 1))

/-- `__PSGridGetAddrNoHaloFloat3D` -/
def getAddrNoHalo (x y z : Int) : GridAddress :=
  let x := x - g.localOffset 0
  let y := y - g.localOffset 1
  let z := z - g.localOffset 2
  .data (calcOffset3D x y z g.pitch (g.localSize 1))

/-- `__PSGridGetAddrFloat3D_2_fw` -/
def getAddr2Fw (x y z : Int) : GridAddress :=
  let i0 := x - g.localOffset 0
  let i1 := y - g.localOffset 1
  let i2 := z - g.localOffset 2
  if i2 < g.localSize 2 then g.getAddrNoHaloLocal i0 i1 i2
  else .halo .fw 2
    (calcOffset3D i0 i1 (i2 - g.localSize 2) (g.localSize 0) (g.localSize 1))

/-- `__PSGridGetAddrFloat3D_2_bw` -/
def getAddr2Bw (x y z : Int) : GridAddress :=
  let i0 := x - g.localOffset 0
  let i1 := y - g.localOffset 1
  let i2 := z - g.localOffset 2
  if 0 ≤ i2 then g.getAddrNoHaloLocal i0 i1 i2
  else .halo .bw 2
    (calcOffset3D i0 i1 (i2 + g.haloWidth 2 .bw) (g.localSize 0) (g.localSize 1))

/-- `__PSGridGetAddrFloat3D_1_fw` -/
def getAddr1Fw (x y z : Int) : GridAddress :=
  let i0 := x - g.localOffset 0
  let i1 := y - g.localOffset 1
  let i2 := z - g.localOffset 2
  if i1 < g.localSize 1 then
    if i2 < g.localSize 2 ∧ 0 ≤ i2 then g.getAddrNoHaloLocal i0 i1 i2
    else if g.localSize 2 ≤ i2 then g.getAddr2Fw x y z
    else g.getAddr2Bw x y z
  else .halo .fw 1
    (calcOffset3D i0 (i1 - g.localSize 1)
      (if g.diag then i2 + g.haloWidth 2 .bw else i2)
      (g.localSize 0) (g.haloWidth 1 .fw))

/-- `__PSGridGetAddrFloat3D_1_bw` -/
def getAddr1Bw (x y z : Int) : GridAddress :=
  let i0 := x - g.localOffset 0
  let i1 := y - g.localOffset 1
  let i2 := z - g.localOffset 2
  if 0 ≤ i1 then
    if i2 < g.localSize 2 ∧ 0 ≤ i2 then g.getAddrNoHaloLocal i0 i1 i2
    else if g.localSize 2 ≤ i2 then g.getAddr2Fw x y z
    else g.getAddr2Bw x y z
  else .halo .bw 1
    (calcOffset3D i0 (i1 + g.haloWidth 1 .bw)
      (if g.diag then i2 + g.haloWidth 2 .bw else i2)
      (g.localSize 0) (g.haloWidth 1 .bw))

/-- The branch of both variants of dimension 0 inside that dimension. -/
def getAddr0Inside (x y z : Int) : GridAddress :=
  let i0 := x - g.localOffset 0
  let i1 := y - g.localOffset 1
  let i2 := z - g.localOffset 2
  if i1 < g.localSize 1 ∧ 0 ≤ i1 ∧ i2 < g.localSize 2 ∧ 0 ≤ i2 then
    g.getAddrNoHaloLocal i0 i1 i2
  else if g.localSize 1 ≤ i1 then g.getAddr1Fw x y z
  else if i1 < 0 then g.getAddr1Bw x y z
  else if g.localSize 2 ≤ i2 then g.getAddr2Fw x y z
  else g.getAddr2Bw x y z

/-- `halo_size1` of both variants of dimension 0 -/
def haloSize1 : Int :=
  if g.diag then g.localSize 1 + (g.haloWidth 1 .bw + g.haloWidth 1 .fw : Nat)
  else g.localSize 1

/-- `__PSGridGetAddrFloat3D_0_fw` -/
def getAddr0Fw (x y z : Int) : GridAddress :=
  let i0 := x - g.localOffset 0
  let i1 := y - g.localOffset 1
  let i2 := z - g.localOffset 2
  if i0 < g.localSize 0 then g.getAddr0Inside x y z
  else .halo .fw 0
    (calcOffset3D (i0 - g.localSize 0)
      (if g.diag then i1 + g.haloWidth 1 .bw else i1)
      (if g.diag then i2 + g.haloWidth 2 .bw else i2)
      (g.haloWidth 0 .fw) g.haloSize1)

/-- `__PSGridGetAddrFloat3D_0_bw` -/
def getAddr0Bw (x y z : Int) : GridAddress :=
  let i0 := x - g.localOffset 0
  let i1 := y - g.localOffset 1
  let i2 := z - g.localOffset 2
  if 0 ≤ i0 then g.getAddr0Inside x y z
  else .halo .bw 0
    (calcOffset3D (i0 + g.haloWidth 0 .bw)
      (if g.diag then i1 + g.haloWidth 1 .bw else i1)
      (if g.diag then i2 + g.haloWidth 2 .bw else i2)
      (g.haloWidth 0 .bw) g.haloSize1)

/-- The block of `__PSGridGetAddrFloat3D` for coordinate `i` outside. -/
def getAddrOutside (indices : IndexArray) (i : Nat) : GridAddress :=
  let moved : IndexArray := fun j =>
    if g.diag = true ∧ i < j ∧ j < 3 then indices j + g.haloWidth j .bw else indices j
  let haloSize : IndexArray := fun j =>
    if g.diag = true ∧ i < j ∧ j < 3 then
      g.localSize j + (g.haloWidth j .bw + g.haloWidth j .fw : Nat)
    else g.localSize j
  if indices i < 0 then
    let moved := Function.update moved i (moved i + g.haloWidth i .bw)
    let haloSize := Function.update haloSize i (g.haloWidth i .bw : Int)
    .halo .bw i
      (calcOffset3D (moved 0) (moved 1) (moved 2) (haloSize 0) (haloSize 1))
  else
    let moved := Function.update moved i (moved i - g.localSize i)
    let haloSize := Function.update haloSize i (g.haloWidth i .fw : Int)
    .halo .fw i
      (calcOffset3D (moved 0) (moved 1) (moved 2) (haloSize 0) (haloSize 1))

/-- The array `indices` of the general function. -/
def indices (x y z : Int) : IndexArray :=
  IntegerArray.mk3 (x - g.localOffset 0) (y - g.localOffset 1) (z - g.localOffset 2)

/-- `__PSGridGetAddrFloat3D` -/
def getAddr (x y z : Int) : GridAddress :=
  let indices := g.indices x y z
  match (List.range 3).find? fun i =>
      decide (indices i < 0) || decide (g.localSize i ≤ indices i) with
  | some i => g.getAddrOutside indices i
  | none => g.getAddrNoHalo x y z

/-! ## The variants and the general function -/

section Agreement

variable {g} {x y z : Int} (extent : ∀ i < 3, 0 < g.localSize i)

/-- The index lies in the local subgrid in one dimension. -/
def Inside (g : PSGridDev3D) (x y z : Int) (i : Nat) : Prop :=
  0 ≤ g.indices x y z i ∧ g.indices x y z i < g.localSize i

theorem getAddr_inside (inside : ∀ i < 3, g.Inside x y z i) :
    g.getAddr x y z = g.getAddrNoHaloLocal (x - g.localOffset 0)
      (y - g.localOffset 1) (z - g.localOffset 2) := by
  have found : (List.range 3).find? (fun i => decide (g.indices x y z i < 0) ||
      decide (g.localSize i ≤ g.indices x y z i)) = none := by
    rw [List.find?_eq_none]
    intro i member
    have bounds := inside i (List.mem_range.mp member)
    simp only [Inside] at bounds
    simp only [Bool.or_eq_true, decide_eq_true_eq]
    omega
  simp only [getAddr, found]
  rfl

theorem getAddr_outside
    {i : Nat} (below : i < 3) (earlier : ∀ j < i, g.Inside x y z j)
    (outside : ¬g.Inside x y z i) :
    g.getAddr x y z = g.getAddrOutside (g.indices x y z) i := by
  have found : (List.range 3).find? (fun i => decide (g.indices x y z i < 0) ||
      decide (g.localSize i ≤ g.indices x y z i)) = some i := by
    rw [List.find?_range_eq_some]
    simp only [Inside, not_and_or, not_le, not_lt] at outside
    refine ⟨?_, List.mem_range.mpr below, ?_⟩
    · simp only [Bool.or_eq_true, decide_eq_true_eq]
      exact outside
    · intro j less
      have bounds := earlier j less
      simp only [Inside] at bounds
      simp only [Bool.not_eq_true', Bool.or_eq_false_iff, decide_eq_false_iff_not]
      omega
  simp only [getAddr, found]

/-! The block for a coordinate outside, with its entries written out. -/

theorem getAddrOutside_two :
    g.getAddrOutside (g.indices x y z) 2 =
      if z - g.localOffset 2 < 0 then
        .halo .bw 2 (calcOffset3D (x - g.localOffset 0) (y - g.localOffset 1)
          (z - g.localOffset 2 + g.haloWidth 2 .bw) (g.localSize 0) (g.localSize 1))
      else
        .halo .fw 2 (calcOffset3D (x - g.localOffset 0) (y - g.localOffset 1)
          (z - g.localOffset 2 - g.localSize 2) (g.localSize 0) (g.localSize 1)) := by
  simp [getAddrOutside, indices, IntegerArray.mk3]

theorem getAddrOutside_one :
    g.getAddrOutside (g.indices x y z) 1 =
      let i2 := z - g.localOffset 2
      let moved := if g.diag then i2 + g.haloWidth 2 .bw else i2
      if y - g.localOffset 1 < 0 then
        .halo .bw 1 (calcOffset3D (x - g.localOffset 0)
          (y - g.localOffset 1 + g.haloWidth 1 .bw) moved (g.localSize 0)
          (g.haloWidth 1 .bw))
      else
        .halo .fw 1 (calcOffset3D (x - g.localOffset 0)
          (y - g.localOffset 1 - g.localSize 1) moved (g.localSize 0)
          (g.haloWidth 1 .fw)) := by
  cases diag : g.diag <;>
    simp [getAddrOutside, indices, IntegerArray.mk3, diag]

theorem getAddrOutside_zero :
    g.getAddrOutside (g.indices x y z) 0 =
      let i1 := y - g.localOffset 1
      let i2 := z - g.localOffset 2
      let moved1 := if g.diag then i1 + g.haloWidth 1 .bw else i1
      let moved2 := if g.diag then i2 + g.haloWidth 2 .bw else i2
      if x - g.localOffset 0 < 0 then
        .halo .bw 0 (calcOffset3D (x - g.localOffset 0 + g.haloWidth 0 .bw) moved1
          moved2 (g.haloWidth 0 .bw) g.haloSize1)
      else
        .halo .fw 0 (calcOffset3D (x - g.localOffset 0 - g.localSize 0) moved1
          moved2 (g.haloWidth 0 .fw) g.haloSize1) := by
  cases diag : g.diag <;>
    simp [getAddrOutside, indices, IntegerArray.mk3, haloSize1, diag]

/-- Inside the first two dimensions both variants of the last one are right. -/
theorem getAddr2_eq (inside : ∀ i < 2, g.Inside x y z i) :
    (0 ≤ z - g.localOffset 2 → g.getAddr2Fw x y z = g.getAddr x y z) ∧
      (z - g.localOffset 2 < g.localSize 2 →
        g.getAddr2Bw x y z = g.getAddr x y z) := by
  by_cases last : g.Inside x y z 2
  · have general := getAddr_inside fun i (below : i < 3) =>
      if less : i < 2 then inside i less else (show i = 2 by omega) ▸ last
    obtain ⟨lower, upper⟩ : 0 ≤ z - g.localOffset 2 ∧ z - g.localOffset 2 <
      g.localSize 2 := last
    rw [general]
    exact ⟨fun _ => if_pos upper, fun _ => if_pos lower⟩
  · rw [getAddr_outside (by decide) inside last, getAddrOutside_two]
    have outside : ¬(0 ≤ z - g.localOffset 2 ∧ z - g.localOffset 2 < g.localSize 2) :=
      last
    constructor
    · intro lower
      rw [if_neg (by omega)]
      exact if_neg (by omega)
    · intro upper
      rw [if_pos (by omega)]
      exact if_neg (by omega)

include extent in
/-- Inside the first dimension both variants of the second one are right. -/
theorem getAddr1_eq (inside : g.Inside x y z 0) :
    (0 ≤ y - g.localOffset 1 → g.getAddr1Fw x y z = g.getAddr x y z) ∧
      (y - g.localOffset 1 < g.localSize 1 →
        g.getAddr1Bw x y z = g.getAddr x y z) := by
  have first : ∀ j < 1, g.Inside x y z j := by
    intro j less
    obtain rfl : j = 0 := by omega
    exact inside
  by_cases second : g.Inside x y z 1
  · have both : ∀ j < 2, g.Inside x y z j := by
      intro j less
      rcases Nat.lt_or_ge j 1 with earlier | here
      · exact first j earlier
      · exact (show j = 1 by omega) ▸ second
    have last := getAddr2_eq both
    obtain ⟨lower, upper⟩ : 0 ≤ y - g.localOffset 1 ∧ y - g.localOffset 1 <
      g.localSize 1 := second
    have nested : (if z - g.localOffset 2 < g.localSize 2 ∧ 0 ≤ z - g.localOffset 2 then
          g.getAddrNoHaloLocal (x - g.localOffset 0) (y - g.localOffset 1)
            (z - g.localOffset 2)
        else if g.localSize 2 ≤ z - g.localOffset 2 then g.getAddr2Fw x y z
        else g.getAddr2Bw x y z) = g.getAddr x y z := by
      split
      · rename_i within
        have all : ∀ j < 3, g.Inside x y z j := by
          intro j less
          rcases Nat.lt_or_ge j 2 with earlier | here
          · exact both j earlier
          · exact (show j = 2 by omega) ▸ ⟨within.2, within.1⟩
        exact (getAddr_inside all).symm
      · rename_i leaves
        split
        · have positive := extent 2 (by decide)
          exact last.1 (by omega)
        · exact last.2 (by omega)
    exact ⟨fun _ => (if_pos upper).trans nested, fun _ => (if_pos lower).trans nested⟩
  · rw [getAddr_outside (by decide) first second, getAddrOutside_one]
    have outside : ¬(0 ≤ y - g.localOffset 1 ∧ y - g.localOffset 1 < g.localSize 1) :=
      second
    constructor
    · intro lower
      simp only
      rw [if_neg (by omega)]
      exact if_neg (by omega)
    · intro upper
      simp only
      rw [if_pos (by omega)]
      exact if_neg (by omega)

include extent in
/-- Inside the first dimension the common branch of its variants is right. -/
theorem getAddr0Inside_eq (inside : g.Inside x y z 0) :
    g.getAddr0Inside x y z = g.getAddr x y z := by
  have second := getAddr1_eq extent inside
  have extent1 := extent 1 (by decide)
  have extent2 := extent 2 (by decide)
  simp only [getAddr0Inside]
  by_cases forward : g.localSize 1 ≤ y - g.localOffset 1
  · rw [if_neg (by omega), if_pos forward]
    exact second.1 (by omega)
  · by_cases backward : y - g.localOffset 1 < 0
    · rw [if_neg (by omega), if_neg forward, if_pos backward]
      exact second.2 (by omega)
    · have both : ∀ j < 2, g.Inside x y z j := by
        intro j less
        match j, less with
        | 0, _ => exact inside
        | 1, _ => exact ⟨not_lt.mp backward, not_le.mp forward⟩
      have last := getAddr2_eq both
      by_cases within : 0 ≤ z - g.localOffset 2 ∧ z - g.localOffset 2 < g.localSize 2
      · rw [if_pos (by omega)]
        have all : ∀ j < 3, g.Inside x y z j := by
          intro j less
          rcases Nat.lt_or_ge j 2 with earlier | here
          · exact both j earlier
          · exact (show j = 2 by omega) ▸ within
        exact (getAddr_inside all).symm
      · rw [if_neg (by omega), if_neg forward, if_neg backward]
        split
        · exact last.1 (by omega)
        · exact last.2 (by omega)

include extent in
/-- Both variants of the first dimension are right on their side of it. -/
theorem getAddr0_eq :
    (0 ≤ x - g.localOffset 0 → g.getAddr0Fw x y z = g.getAddr x y z) ∧
      (x - g.localOffset 0 < g.localSize 0 →
        g.getAddr0Bw x y z = g.getAddr x y z) := by
  by_cases first : g.Inside x y z 0
  · have inner := getAddr0Inside_eq extent first
    obtain ⟨lower, upper⟩ : 0 ≤ x - g.localOffset 0 ∧ x - g.localOffset 0 <
      g.localSize 0 := first
    exact ⟨fun _ => (if_pos upper).trans inner, fun _ => (if_pos lower).trans inner⟩
  · have outside : ¬(0 ≤ x - g.localOffset 0 ∧ x - g.localOffset 0 < g.localSize 0) :=
      first
    rw [getAddr_outside (by decide) (fun j impossible => absurd impossible
      (Nat.not_lt_zero j)) first, getAddrOutside_zero]
    constructor
    · intro lower
      simp only
      rw [if_neg (by omega)]
      exact if_neg (by omega)
    · intro upper
      simp only
      rw [if_pos (by omega)]
      exact if_neg (by omega)

end Agreement

end PSGridDev3D

end Physis.Runtime
