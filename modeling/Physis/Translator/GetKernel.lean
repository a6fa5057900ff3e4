import Physis.Runtime.GridDev
import Physis.Runtime.LoadSubgridRegion

/-!
# Grid accesses of a kernel on the device

`translateGetKernel` replaces an access by a call of an address function of the
device grid: the one without halos for the point itself, the one for the first
dimension with an offset if the index variables are in order, and the general
one otherwise.
-/

namespace Physis.Translator

open Physis.Runtime

/-- `(*sil)[i]` -/
def StencilIndexList.at (sil : StencilIndexList) (i : Nat) : StencilIndex :=
  sil.getD i ⟨0, 0⟩

/-- `StencilIndexSelf` -/
def stencilIndexSelf (sil : StencilIndexList) (numDims : Nat) : Bool :=
  decide (sil.length = numDims) && (List.range sil.length).all fun i =>
    decide ((StencilIndexList.at sil i).dim = i + 1) &&
      decide ((StencilIndexList.at sil i).offset = 0)

/-- `StencilIndexRegularOrder` -/
def stencilIndexRegularOrder (sil : StencilIndexList) (numDims : Nat) : Bool :=
  decide (sil.length = numDims) && (List.range sil.length).all fun i =>
    decide ((StencilIndexList.at sil i).dim = i + 1)

/-- The name of an address function. -/
inductive GetAddress where
  | noHalo
  | offset (dim : Nat) (dir : Dir)
  | general
deriving DecidableEq, Repr

/-- The function `translateGetKernel` calls; none where it is left a null pointer. -/
def translateGetKernel (sil : StencilIndexList) (nd : Nat) : Option GetAddress :=
  if stencilIndexSelf sil nd then some .noHalo
  else if stencilIndexRegularOrder sil nd then
    ((List.range nd).find? fun i =>
        decide ((StencilIndexList.at sil i).offset ≠ 0)).map fun i =>
      .offset i (if (StencilIndexList.at sil i).offset < 0 then .bw else .fw)
  else some .general

/-- The device function of a name; there are six for an offset. -/
def GetAddress.call (g : PSGridDev3D) (x y z : Int) : GetAddress → Option GridAddress
  | .noHalo => some (g.getAddrNoHalo x y z)
  | .offset 0 .fw => some (g.getAddr0Fw x y z)
  | .offset 0 .bw => some (g.getAddr0Bw x y z)
  | .offset 1 .fw => some (g.getAddr1Fw x y z)
  | .offset 1 .bw => some (g.getAddr1Bw x y z)
  | .offset 2 .fw => some (g.getAddr2Fw x y z)
  | .offset 2 .bw => some (g.getAddr2Bw x y z)
  | .offset _ _ => none
  | .general => some (g.getAddr x y z)

/-- In regular order the index in a dimension is its variable and the offset. -/
theorem accessCell_of_regular
    {sil : StencilIndexList} {numDims : Nat}
    (regular : stencilIndexRegularOrder sil numDims = true) (point : IndexArray)
    {i : Nat} (below : i < numDims) :
    accessCell sil point i = point i + (StencilIndexList.at sil i).offset := by
  simp only [stencilIndexRegularOrder, Bool.and_eq_true, decide_eq_true_eq,
    List.all_eq_true, List.mem_range] at regular
  obtain ⟨length, order⟩ := regular
  have inRange : i < sil.length := by omega
  have dim := order i inRange
  have entry : sil[i]? = some (StencilIndexList.at sil i) := by
    simp [StencilIndexList.at, inRange]
  have positive : 0 < (StencilIndexList.at sil i).dim := by omega
  have source : sourceDim (StencilIndexList.at sil i).dim = i := by
    rw [sourceDim, dim]
    omega
  simp only [accessCell, entry, position]
  rw [if_neg (by omega), if_pos positive, source]

/-- The access of the point itself is in regular order. -/
theorem regular_of_self
    {sil : StencilIndexList} {numDims : Nat}
    (self : stencilIndexSelf sil numDims = true) :
    stencilIndexRegularOrder sil numDims = true ∧
      ∀ i < numDims, (StencilIndexList.at sil i).offset = 0 := by
  simp only [stencilIndexSelf, Bool.and_eq_true, decide_eq_true_eq, List.all_eq_true,
    List.mem_range] at self
  obtain ⟨length, entries⟩ := self
  constructor
  · simp only [stencilIndexRegularOrder, Bool.and_eq_true, decide_eq_true_eq,
      List.all_eq_true, List.mem_range]
    exact ⟨length, fun i inRange => (entries i inRange).1⟩
  · intro i below
    exact (entries i (by omega)).2

/-- The access of no other index in regular order is without offsets. -/
theorem exists_offset_of_not_self
    {sil : StencilIndexList} {numDims : Nat}
    (regular : stencilIndexRegularOrder sil numDims = true)
    (other : stencilIndexSelf sil numDims = false) :
    ∃ i < numDims, (StencilIndexList.at sil i).offset ≠ 0 := by
  by_contra none
  push Not at none
  apply Bool.eq_false_iff.mp other
  simp only [stencilIndexRegularOrder, Bool.and_eq_true, decide_eq_true_eq,
    List.all_eq_true, List.mem_range] at regular
  simp only [stencilIndexSelf, Bool.and_eq_true, decide_eq_true_eq, List.all_eq_true,
    List.mem_range]
  exact ⟨regular.1, fun i inRange => ⟨regular.2 i inRange, none i (by omega)⟩⟩

section Selection

variable
    {g : PSGridDev3D} {point : IndexArray} {sil : StencilIndexList}
    (inside : ∀ i < 3, g.localOffset i ≤ point i ∧
      point i < g.localOffset i + g.localSize i)

include inside in
/-- Before the first offset the index stays in the local subgrid. -/
theorem inside_of_no_offset
    (regular : stencilIndexRegularOrder sil 3 = true) {i : Nat} (below : i < 3)
    (straight : (StencilIndexList.at sil i).offset = 0) :
    g.Inside (accessCell sil point 0) (accessCell sil point 1) (accessCell sil point 2)
      i := by
  have bounds := inside i below
  have coordinate := accessCell_of_regular regular point below
  have index : g.indices (accessCell sil point 0) (accessCell sil point 1)
      (accessCell sil point 2) i = accessCell sil point i - g.localOffset i := by
    match i, below with
    | 0, _ => rfl
    | 1, _ => rfl
    | 2, _ => rfl
  rw [PSGridDev3D.Inside, index, coordinate, straight]
  omega

include inside in
/--
From a point of the local subgrid the function chosen for an access finds what
the general function finds.
-/
theorem translateGetKernel_eq_general :
    ∃ name, translateGetKernel sil 3 = some name ∧
      name.call g (accessCell sil point 0) (accessCell sil point 1)
          (accessCell sil point 2) =
        some (g.getAddr (accessCell sil point 0) (accessCell sil point 1)
          (accessCell sil point 2)) := by
  have extent : ∀ i < 3, 0 < g.localSize i := by
    intro i below
    have bounds := inside i below
    omega
  cases self : stencilIndexSelf sil 3 with
  | true =>
      refine ⟨.noHalo, by rw [translateGetKernel, if_pos self], ?_⟩
      obtain ⟨regular, straight⟩ := regular_of_self self
      rw [PSGridDev3D.getAddr_inside fun i below =>
        inside_of_no_offset inside regular below (straight i below)]
      rfl
  | false =>
      cases regular : stencilIndexRegularOrder sil 3 with
      | false =>
          exact ⟨.general, by
            rw [translateGetKernel, if_neg (by simp [self]), if_neg (by simp [regular])],
            rfl⟩
      | true =>
          obtain ⟨dim, found⟩ : ∃ dim, (List.range 3).find? (fun i =>
              decide ((StencilIndexList.at sil i).offset ≠ 0)) = some dim := by
            rw [← Option.isSome_iff_exists, List.find?_isSome]
            obtain ⟨i, below, offset⟩ := exists_offset_of_not_self regular self
            exact ⟨i, List.mem_range.mpr below, by simpa using offset⟩
          refine ⟨.offset dim
            (if (StencilIndexList.at sil dim).offset < 0 then .bw else .fw), by
              rw [translateGetKernel, if_neg (by simp [self]), if_pos regular, found]
              rfl, ?_⟩
          rw [List.find?_range_eq_some] at found
          obtain ⟨nonzero, member, earlier⟩ := found
          have below : dim < 3 := List.mem_range.mp member
          have offset : (StencilIndexList.at sil dim).offset ≠ 0 := by
            simpa using nonzero
          have first : ∀ i < dim, g.Inside (accessCell sil point 0)
              (accessCell sil point 1) (accessCell sil point 2) i := by
            intro i less
            exact inside_of_no_offset inside regular (less.trans below)
              (by simpa using earlier i less)
          have bounds := inside dim below
          have coordinate := accessCell_of_regular regular point below
          match dim, below with
          | 0, _ =>
              have variants := @PSGridDev3D.getAddr0_eq g (accessCell sil point 0)
                (accessCell sil point 1) (accessCell sil point 2) extent
              split
              · exact congrArg some (variants.2 (by omega))
              · exact congrArg some (variants.1 (by omega))
          | 1, _ =>
              have variants := PSGridDev3D.getAddr1_eq extent (first 0 (by decide))
              split
              · exact congrArg some (variants.2 (by omega))
              · exact congrArg some (variants.1 (by omega))
          | 2, _ =>
              have variants := PSGridDev3D.getAddr2_eq first
              split
              · exact congrArg some (variants.2 (by omega))
              · exact congrArg some (variants.1 (by omega))

end Selection

/-- A grid of 2 × 2 × 2 cells with halos of different widths. -/
def smallGridDev : PSGridDev3D where
  localSize := IntegerArray.mk3 2 2 2
  localOffset := IntegerArray.mk3 2 0 0
  pitch := 4
  haloWidth dim dir := if dir = .bw then 1 else dim + 1
  diag := true

/-- An access to a corner, backwards and forwards. -/
theorem smallGridDev_corner :
    ∃ name, translateGetKernel [⟨1, -1⟩, ⟨2, 1⟩, ⟨3, 0⟩] 3 = some name ∧
      name.call smallGridDev
          (accessCell [⟨1, -1⟩, ⟨2, 1⟩, ⟨3, 0⟩] (IntegerArray.mk3 2 1 0) 0)
          (accessCell [⟨1, -1⟩, ⟨2, 1⟩, ⟨3, 0⟩] (IntegerArray.mk3 2 1 0) 1)
          (accessCell [⟨1, -1⟩, ⟨2, 1⟩, ⟨3, 0⟩] (IntegerArray.mk3 2 1 0) 2) =
        some (smallGridDev.getAddr
          (accessCell [⟨1, -1⟩, ⟨2, 1⟩, ⟨3, 0⟩] (IntegerArray.mk3 2 1 0) 0)
          (accessCell [⟨1, -1⟩, ⟨2, 1⟩, ⟨3, 0⟩] (IntegerArray.mk3 2 1 0) 1)
          (accessCell [⟨1, -1⟩, ⟨2, 1⟩, ⟨3, 0⟩] (IntegerArray.mk3 2 1 0) 2)) :=
  translateGetKernel_eq_general (by decide)

end Physis.Translator
