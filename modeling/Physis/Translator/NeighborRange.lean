import Physis.Runtime.AddressArithmetic
import Physis.Translator.HaloFreeKernels

/-!
# Ranges of neighbor accesses

The stencil range of a grid parameter collects accesses and the ranges of other
calls, in any order.  If every index has the variable of its dimension, each
list has one entry, the least or the greatest offset; these become the arguments
of `__PSLoadNeighbor` and there the widths of the halos.
-/

namespace Physis.Translator

open Physis.Library
open Physis.Library.MachineIntegers
open Physis.Library.RowMajor
open Physis.Runtime
open Physis.Runtime.Arithmetic (psIndex)

/-! ## Collecting accesses -/

/-- `insert` of one index into the lists of a dimension, counted from zero here -/
def StencilRange.insertAt (table : StencilRange) (i : Nat) (si : StencilIndex) :
    StencilRange :=
  { table with
    minIndices := Function.update table.minIndices i
      (insertIndex (fun x cur => decide (x < cur)) si (table.minIndices i))
    maxIndices := Function.update table.maxIndices i
      (insertIndex (fun x cur => decide (cur < x)) si (table.maxIndices i)) }

/-- `StencilRange` with the flag `diagonal_` -/
structure NeighborRange where
  table : StencilRange
  diagonal : Bool

/-- `non_zero` of an access -/
def nonZero (access : StencilIndexList) : Nat :=
  access.countP fun si => decide (si.offset ≠ 0)

namespace NeighborRange

/-- The constructor of `StencilRange` -/
def ofDims (numDims : Nat) : NeighborRange where
  table := ⟨numDims, fun _ => [], fun _ => []⟩
  diagonal := false

/-- `insert`; `none` if the assertion on the size fails -/
def insert (sr : NeighborRange) (access : StencilIndexList) :
    Option NeighborRange := do
  guard (sr.table.numDims = access.length)
  some
    { table := sr.table.insert access
      diagonal := sr.diagonal || decide (1 < nonZero access) }

/-- `merge`; `none` if the assertion on the dimensions fails -/
def merge (self sr : NeighborRange) : Option NeighborRange := do
  guard (self.table.numDims = sr.table.numDims)
  some
    { table := (List.range self.table.numDims).foldl (fun table i =>
        (sr.table.maxIndices i).foldl (fun table it => table.insertAt i it)
          ((sr.table.minIndices i).foldl (fun table it => table.insertAt i it) table))
        self.table
      diagonal := self.diagonal || sr.diagonal }

/-- `GetNeighborAccess`; the offsets become elements of an `IntVector`. -/
def getNeighborAccess (sr : NeighborRange) : Option (List Int × List Int) :=
  if sr.table.isNeighborAccess then
    some
      ((List.range sr.table.numDims).map fun i =>
          toSigned 32 (front (sr.table.minIndices i)).offset,
        (List.range sr.table.numDims).map fun i =>
          toSigned 32 (front (sr.table.maxIndices i)).offset)
  else none

/-- `IsNeighborAccessDiagonalAccessed` -/
def isNeighborAccessDiagonalAccessed (sr : NeighborRange) : Bool :=
  sr.table.isNeighborAccess && sr.diagonal

end NeighborRange

/-- How a range came about: a new one, and what was put into it. -/
inductive Building where
  | empty
  | insert (building : Building) (access : StencilIndexList)
  | merge (building other : Building)

namespace Building

/-- The accesses a range was made of. -/
def accesses : Building → List StencilIndexList
  | empty => []
  | insert building access => building.accesses ++ [access]
  | merge building other => building.accesses ++ other.accesses

/-- The range of a grid parameter. -/
def range (numDims : Nat) : Building → Option NeighborRange
  | empty => some (NeighborRange.ofDims numDims)
  | insert building access => do
      let sr ← building.range numDims
      sr.insert access
  | merge building other => do
      let self ← building.range numDims
      let sr ← other.range numDims
      self.merge sr

end Building

/-! ## The load call -/

/-- The arguments of a call of `__PSLoadNeighbor` that come from the range. -/
structure NeighborCall where
  offsetMin : IndexArray
  offsetMax : IndexArray
  diagonal : Bool

/-- `BuildLoadNeighbor`; `none` if its assertion fails -/
def buildLoadNeighbor (sr : NeighborRange) : Option NeighborCall := do
  let (offsetMin, offsetMax) ← sr.getNeighborAccess
  some
    { offsetMin := fun i => offsetMin.getD i 0
      offsetMax := fun i => offsetMax.getD i 0
      diagonal := sr.isNeighborAccessDiagonalAccessed }

variable {α : Type}

/-- The sums of the test in `LoadNeighbor` -/
def overlapSum (space : GridSpaceMPI) (offsetMax : IndexArray) (i : Nat) : Option Int :=
  psIndex (offsetMax i + space.minPartition i)

/-- `abs(offset_min[i])` in the width -/
def backwardWidth (offsetMin : IndexArray) (i : Nat) : Option Int :=
  if offsetMin i ≤ 0 then psIndex (-offsetMin i) else some 0

/--
`LoadNeighbor` with its arithmetic in `PSIndex`; `none` where an operation is
not exact or an assertion fails.
-/
def loadNeighborExact
    (space : GridSpaceMPI) (grid : GridMPI α) (call : NeighborCall) (periodic : Bool) :
    Option NeighborPath := do
  let _ ← (List.range grid.numDims).mapM (overlapSum space call.offsetMax)
  let _ ← (List.range psMaxDim).mapM (backwardWidth call.offsetMin)
  space.loadNeighbor grid call.offsetMin call.offsetMax call.diagonal periodic

/-- The load of the neighborhood a range asks for. -/
def Building.load
    (building : Building) (space : GridSpaceMPI) (grid : GridMPI α) (periodic : Bool) :
    Option NeighborPath := do
  let sr ← building.range grid.numDims
  let call ← buildLoadNeighbor sr
  loadNeighborExact space grid call periodic

/-! ## One list -/

section Lists

/--
The list holds the extreme element of a set under the index variable of a
dimension, or nothing if there is none.
-/
def HoldsExtreme
    (order : Int → Int → Prop) (dim : Int) (offsets : Set Int)
    (list : StencilIndexList) : Prop :=
  (offsets = ∅ ∧ list = []) ∨
    ∃ extreme ∈ offsets, (∀ offset ∈ offsets, order extreme offset) ∧
      list = [⟨dim, extreme⟩]

/-- The comparison of an insertion keeps the extreme of a linear order. -/
structure Chooses (order : Int → Int → Prop) (better : Int → Int → Bool) : Prop where
  refl : ∀ x, order x x
  trans : ∀ x y z, order x y → order y z → order x z
  better_order : ∀ x cur, better x cur = true → order x cur
  total : ∀ x cur, better x cur = false → order cur x

theorem chooses_least : Chooses (· ≤ ·) fun x cur => decide (x < cur) where
  refl := le_refl
  trans _ _ _ := le_trans
  better_order _ _ better := (of_decide_eq_true better).le
  total _ _ worse := not_lt.mp (of_decide_eq_false worse)

theorem chooses_greatest : Chooses (· ≥ ·) fun x cur => decide (cur < x) where
  refl := le_refl
  trans _ _ _ := ge_trans
  better_order _ _ better := (of_decide_eq_true better).le
  total _ _ worse := not_lt.mp (of_decide_eq_false worse)

variable
    {order : Int → Int → Prop} {better : Int → Int → Bool} {dim : Int}
    {offsets others : Set Int} {list : StencilIndexList}

theorem HoldsExtreme.unique
    (antisymm : ∀ {x y}, order x y → order y x → x = y) {other : StencilIndexList}
    (holds : HoldsExtreme order dim offsets list)
    (holdsOther : HoldsExtreme order dim offsets other) : list = other := by
  rcases holds with ⟨empty, rfl⟩ | ⟨extreme, member, least, rfl⟩
  · rcases holdsOther with ⟨-, rfl⟩ | ⟨extreme, member, -⟩
    · rfl
    · rw [empty] at member
      cases member
  · rcases holdsOther with ⟨empty, -⟩ | ⟨otherExtreme, otherMember, otherLeast, rfl⟩
    · rw [empty] at member
      cases member
    · rw [antisymm (least _ otherMember) (otherLeast _ member)]

/-- An inserted offset belongs to the set from then on. -/
theorem HoldsExtreme.insertIndex
    (chooses : Chooses order better)
    (holds : HoldsExtreme order dim offsets list) (offset : Int) :
    HoldsExtreme order dim (Insert.insert offset offsets)
      (StencilRange.insertIndex better ⟨dim, offset⟩ list) := by
  right
  rcases holds with ⟨rfl, rfl⟩ | ⟨extreme, member, least, rfl⟩
  · refine ⟨offset, Set.mem_insert _ _, ?_, rfl⟩
    rintro other (rfl | impossible)
    · exact chooses.refl other
    · cases impossible
  · rw [StencilRange.insertIndex, if_pos rfl]
    rcases chosen : better offset extreme with _ | _
    · refine ⟨extreme, Set.mem_insert_of_mem _ member, ?_, by simp⟩
      rintro other (rfl | old)
      · exact chooses.total _ _ chosen
      · exact least other old
    · refine ⟨offset, Set.mem_insert _ _, ?_, by simp⟩
      rintro other (rfl | old)
      · exact chooses.refl other
      · exact chooses.trans _ _ _ (chooses.better_order _ _ chosen) (least other old)

/-- The two extremes of a set stand for all of it. -/
theorem HoldsExtreme.union
    (chooses : Chooses order better) {least greatest : Int}
    (holds : HoldsExtreme order dim
      (Insert.insert greatest (Insert.insert least offsets)) list)
    (leastMember : least ∈ others) (greatestMember : greatest ∈ others)
    (bounded : ∀ offset ∈ others, order least offset ∨ order greatest offset) :
    HoldsExtreme order dim (offsets ∪ others) list := by
  right
  rcases holds with ⟨empty, -⟩ | ⟨extreme, member, extremal, rfl⟩
  · exact absurd empty (Set.insert_nonempty _ _).ne_empty
  · refine ⟨extreme, ?_, ?_, rfl⟩
    · rcases member with rfl | rfl | old
      · exact .inr greatestMember
      · exact .inr leastMember
      · exact .inl old
    · rintro offset (old | other)
      · exact extremal offset (.inr (.inr old))
      · rcases bounded offset other with above | above
        · exact chooses.trans _ _ _ (extremal least (.inr (.inl rfl))) above
        · exact chooses.trans _ _ _ (extremal greatest (.inl rfl)) above

end Lists

/-! ## The effect of a merge -/

section Merges

/-- What a merge does to a list of a dimension. -/
def mergeLists
    (better : Int → Int → Bool) (least greatest list : StencilIndexList) :
    StencilIndexList :=
  greatest.foldl (fun list it => StencilRange.insertIndex better it list)
    (least.foldl (fun list it => StencilRange.insertIndex better it list) list)

/-- Indices inserted one after another change the lists of their dimension only. -/
theorem foldl_insertAt (table : StencilRange) (i : Nat) (entries : StencilIndexList) :
    entries.foldl (fun table it => table.insertAt i it) table =
      { table with
        minIndices := Function.update table.minIndices i
          (entries.foldl (fun list it =>
            StencilRange.insertIndex (fun x cur => decide (x < cur)) it list)
            (table.minIndices i))
        maxIndices := Function.update table.maxIndices i
          (entries.foldl (fun list it =>
            StencilRange.insertIndex (fun x cur => decide (cur < x)) it list)
            (table.maxIndices i)) } := by
  induction entries generalizing table with
  | nil => simp
  | cons entry entries induction =>
      rw [List.foldl_cons, induction]
      simp [StencilRange.insertAt]

/-- The loop of `merge` treats every dimension by itself. -/
theorem foldl_merge (table : StencilRange) (least greatest : Nat → StencilIndexList)
    (count : Nat) :
    (List.range count).foldl (fun table i =>
        (greatest i).foldl (fun table it => table.insertAt i it)
          ((least i).foldl (fun table it => table.insertAt i it) table)) table =
      { table with
        minIndices := fun i =>
          if i < count then
            mergeLists (fun x cur => decide (x < cur)) (least i) (greatest i)
              (table.minIndices i)
          else table.minIndices i
        maxIndices := fun i =>
          if i < count then
            mergeLists (fun x cur => decide (cur < x)) (least i) (greatest i)
              (table.maxIndices i)
          else table.maxIndices i } := by
  induction count with
  | zero => simp
  | succ count induction =>
      rw [List.range_succ, List.foldl_append, induction, List.foldl_cons,
        List.foldl_nil, foldl_insertAt, foldl_insertAt]
      congr 1
      · funext i
        rcases lt_trichotomy i count with below | rfl | above
        · simp [below, below.ne, below.trans (Nat.lt_succ_self count)]
        · simp [mergeLists]
        · simp [above.not_gt, above.ne', Nat.not_lt.mpr above]
      · funext i
        rcases lt_trichotomy i count with below | rfl | above
        · simp [below, below.ne, below.trans (Nat.lt_succ_self count)]
        · simp [mergeLists]
        · simp [above.not_gt, above.ne', Nat.not_lt.mpr above]

variable
    {order : Int → Int → Prop} {better : Int → Int → Bool} {dim : Int}
    {offsets others : Set Int} {list least greatest : StencilIndexList}

/-- Merged lists hold the extreme of both sets. -/
theorem HoldsExtreme.mergeLists
    (chooses : Chooses order better)
    (side : (∀ x y, x ≤ y → order x y) ∨ ∀ x y, x ≥ y → order x y)
    (holds : HoldsExtreme order dim offsets list)
    (holdsLeast : HoldsExtreme (· ≤ ·) dim others least)
    (holdsGreatest : HoldsExtreme (· ≥ ·) dim others greatest) :
    HoldsExtreme order dim (offsets ∪ others)
      (Physis.Translator.mergeLists better least greatest list) := by
  rcases holdsLeast with ⟨rfl, rfl⟩ | ⟨low, lowMember, lowest, rfl⟩
  · rcases holdsGreatest with ⟨-, rfl⟩ | ⟨high, impossible, -⟩
    · rw [Set.union_empty]
      exact holds
    · cases impossible
  · rcases holdsGreatest with ⟨rfl, -⟩ | ⟨high, highMember, highest, rfl⟩
    · cases lowMember
    · have both := (holds.insertIndex chooses low).insertIndex chooses high
      apply both.union chooses lowMember highMember
      intro offset member
      rcases side with up | down
      · exact .inl (up _ _ (lowest offset member))
      · exact .inr (down _ _ (highest offset member))

end Merges

/-! ## The range after a building -/

/-- The offsets of accesses in a dimension. -/
def offsetsAt (accesses : List StencilIndexList) (i : Nat) : Set Int :=
  {offset | ∃ access ∈ accesses, (StencilIndexList.at access i).offset = offset}

/-- The range holds the extremes of the accesses, and knows of diagonal ones. -/
structure NeighborRange.Collects
    (sr : NeighborRange) (numDims : Nat) (accesses : List StencilIndexList) :
    Prop where
  numDims_eq : sr.table.numDims = numDims
  least : ∀ i < numDims,
    HoldsExtreme (· ≤ ·) (i + 1) (offsetsAt accesses i) (sr.table.minIndices i)
  greatest : ∀ i < numDims,
    HoldsExtreme (· ≥ ·) (i + 1) (offsetsAt accesses i) (sr.table.maxIndices i)
  diagonal : sr.diagonal = true ↔ ∃ access ∈ accesses, 1 < nonZero access

section Collecting

variable
    {sr self other : NeighborRange} {numDims : Nat} {access : StencilIndexList}
    {accesses others : List StencilIndexList}

theorem offsetsAt_concat (i : Nat) :
    offsetsAt (accesses ++ [access]) i =
      insert (StencilIndexList.at access i).offset (offsetsAt accesses i) := by
  ext offset
  simp only [offsetsAt, List.mem_append, List.mem_singleton, Set.mem_ofPred_eq,
    Set.mem_insert_iff, or_and_right, exists_or, exists_eq_left]
  rw [or_comm, eq_comm]

theorem offsetsAt_append (i : Nat) :
    offsetsAt (accesses ++ others) i = offsetsAt accesses i ∪ offsetsAt others i := by
  ext offset
  simp only [offsetsAt, List.mem_append, Set.mem_ofPred_eq, Set.mem_union,
    or_and_right, exists_or]

theorem collects_ofDims : (NeighborRange.ofDims numDims).Collects numDims [] where
  numDims_eq := rfl
  least i below := .inl ⟨by simp [offsetsAt], rfl⟩
  greatest i below := .inl ⟨by simp [offsetsAt], rfl⟩
  diagonal := by simp [NeighborRange.ofDims]

/-- An index of a regular access is its offset under the variable in order. -/
theorem getElem?_of_regular
    (regular : stencilIndexRegularOrder access numDims = true)
    {i : Nat} (below : i < numDims) :
    access[i]? = some ⟨i + 1, (StencilIndexList.at access i).offset⟩ := by
  simp only [stencilIndexRegularOrder, Bool.and_eq_true, decide_eq_true_eq,
    List.all_eq_true, List.mem_range] at regular
  obtain ⟨length, dims⟩ := regular
  have within : i < access.length := by omega
  have found : access[i]? = some (StencilIndexList.at access i) := by
    simp [StencilIndexList.at, within]
  rw [found, ← dims i within]

theorem NeighborRange.Collects.insert
    (collects : sr.Collects numDims accesses)
    (regular : stencilIndexRegularOrder access numDims = true) :
    ∃ next, sr.insert access = some next ∧
      next.Collects numDims (accesses ++ [access]) := by
  have length : sr.table.numDims = access.length := by
    simp only [stencilIndexRegularOrder, Bool.and_eq_true, decide_eq_true_eq] at regular
    rw [collects.numDims_eq, regular.1]
  refine ⟨_, by simp only [NeighborRange.insert, guard, if_pos length]; rfl, ?_⟩
  refine ⟨collects.numDims_eq, fun i below => ?_, fun i below => ?_, ?_⟩
  · simp only [StencilRange.insert, getElem?_of_regular regular below]
    rw [offsetsAt_concat]
    exact (collects.least i below).insertIndex chooses_least _
  · simp only [StencilRange.insert, getElem?_of_regular regular below]
    rw [offsetsAt_concat]
    exact (collects.greatest i below).insertIndex chooses_greatest _
  · simp only [Bool.or_eq_true, collects.diagonal, decide_eq_true_eq, List.mem_append,
      List.mem_singleton, or_and_right, exists_or, exists_eq_left]

theorem NeighborRange.Collects.merge
    (collects : self.Collects numDims accesses)
    (collectsOther : other.Collects numDims others) :
    ∃ next, self.merge other = some next ∧
      next.Collects numDims (accesses ++ others) := by
  have same : self.table.numDims = other.table.numDims :=
    collects.numDims_eq.trans collectsOther.numDims_eq.symm
  refine ⟨_, by simp only [NeighborRange.merge, guard, if_pos same]; rfl, ?_⟩
  rw [foldl_merge, collects.numDims_eq]
  refine ⟨rfl, fun i below => ?_, fun i below => ?_, ?_⟩
  · simp only [if_pos below]
    rw [offsetsAt_append]
    exact (collects.least i below).mergeLists chooses_least (.inl fun _ _ => id)
      (collectsOther.least i below) (collectsOther.greatest i below)
  · simp only [if_pos below]
    rw [offsetsAt_append]
    exact (collects.greatest i below).mergeLists chooses_greatest (.inr fun _ _ => id)
      (collectsOther.least i below) (collectsOther.greatest i below)
  · simp only [Bool.or_eq_true, collects.diagonal, collectsOther.diagonal,
      List.mem_append, or_and_right, exists_or]

/-- Every building of regular accesses gives a range that collects them. -/
theorem Building.collects (building : Building)
    (regular : ∀ access ∈ building.accesses,
      stencilIndexRegularOrder access numDims = true) :
    ∃ sr, building.range numDims = some sr ∧ sr.Collects numDims building.accesses := by
  induction building with
  | empty => exact ⟨_, rfl, collects_ofDims⟩
  | insert building access induction =>
      obtain ⟨sr, found, collects⟩ :=
        induction fun other member => regular other (List.mem_append_left _ member)
      obtain ⟨next, inserted, collectsNext⟩ :=
        collects.insert (regular access (by simp [accesses]))
      exact ⟨next, by simp [range, found, inserted], collectsNext⟩
  | merge building other induction inductionOther =>
      obtain ⟨self, found, collects⟩ :=
        induction fun access member => regular access (List.mem_append_left _ member)
      obtain ⟨sr, foundOther, collectsOther⟩ :=
        inductionOther fun access member =>
          regular access (List.mem_append_right _ member)
      obtain ⟨next, merged, collectsNext⟩ := collects.merge collectsOther
      exact ⟨next, by simp [range, found, foundOther, merged], collectsNext⟩

theorem offsetsAt_congr (same : ∀ access, access ∈ accesses ↔ access ∈ others) (i : Nat) :
    offsetsAt accesses i = offsetsAt others i := by
  simp only [offsetsAt, same]

theorem front_singleton (si : StencilIndex) : front [si] = si :=
  rfl

/-- With an access, the first entries are the extremes. -/
theorem NeighborRange.Collects.extremes
    (collects : sr.Collects numDims accesses) (nonempty : accesses ≠ [])
    {i : Nat} (below : i < numDims) :
    (sr.table.minIndices i = [⟨i + 1, (front (sr.table.minIndices i)).offset⟩] ∧
      IsLeast (offsetsAt accesses i) (front (sr.table.minIndices i)).offset) ∧
      IsGreatest (offsetsAt accesses i) (front (sr.table.maxIndices i)).offset := by
  obtain ⟨access, member⟩ := List.exists_mem_of_ne_nil _ nonempty
  have inhabited : (StencilIndexList.at access i).offset ∈ offsetsAt accesses i :=
    ⟨access, member, rfl⟩
  constructor
  · rcases collects.least i below with ⟨empty, -⟩ | ⟨low, lowMember, lowest, equal⟩
    · rw [empty] at inhabited
      cases inhabited
    · rw [equal, front_singleton]
      exact ⟨rfl, lowMember, fun offset => lowest offset⟩
  · rcases collects.greatest i below with ⟨empty, -⟩ | ⟨high, highMember, highest, equal⟩
    · rw [empty] at inhabited
      cases inhabited
    · rw [equal, front_singleton]
      exact ⟨highMember, fun offset => highest offset⟩

theorem NeighborRange.Collects.isNeighborAccess
    (collects : sr.Collects numDims accesses) (nonempty : accesses ≠ []) :
    sr.table.isNeighborAccess = true := by
  simp only [StencilRange.isNeighborAccess, List.all_eq_true, List.mem_range,
    Bool.and_eq_true, decide_eq_true_eq, collects.numDims_eq]
  intro i below
  rw [(collects.extremes nonempty below).1.1]
  exact ⟨rfl, rfl⟩

/-- Ranges of the same accesses give the same offsets and the same flag. -/
theorem NeighborRange.Collects.same
    (collects : sr.Collects numDims accesses)
    (collectsOther : other.Collects numDims others)
    (same : ∀ access, access ∈ others ↔ access ∈ accesses) :
    other.getNeighborAccess = sr.getNeighborAccess ∧
      other.isNeighborAccessDiagonalAccessed = sr.isNeighborAccessDiagonalAccessed := by
  have least : ∀ i < numDims, other.table.minIndices i = sr.table.minIndices i :=
    fun i below => HoldsExtreme.unique le_antisymm
      (offsetsAt_congr same i ▸ collectsOther.least i below) (collects.least i below)
  have greatest : ∀ i < numDims, other.table.maxIndices i = sr.table.maxIndices i :=
    fun i below => HoldsExtreme.unique (fun above below => le_antisymm below above)
      (offsetsAt_congr same i ▸ collectsOther.greatest i below)
      (collects.greatest i below)
  have neighbor : other.table.isNeighborAccess = sr.table.isNeighborAccess := by
    rw [Bool.eq_iff_iff]
    simp only [StencilRange.isNeighborAccess, List.all_eq_true, List.mem_range,
      collects.numDims_eq, collectsOther.numDims_eq]
    exact forall₂_congr fun i below => by rw [least i below]
  have diagonal : other.diagonal = sr.diagonal := by
    rw [Bool.eq_iff_iff, collects.diagonal, collectsOther.diagonal]
    simp only [same]
  constructor
  · rw [NeighborRange.getNeighborAccess, NeighborRange.getNeighborAccess, neighbor,
      collects.numDims_eq, collectsOther.numDims_eq]
    have minOffsets : (List.range numDims).map (fun i =>
          toSigned 32 (front (other.table.minIndices i)).offset) =
        (List.range numDims).map fun i =>
          toSigned 32 (front (sr.table.minIndices i)).offset :=
      List.map_congr_left fun i member => by rw [least i (List.mem_range.mp member)]
    have maxOffsets : (List.range numDims).map (fun i =>
          toSigned 32 (front (other.table.maxIndices i)).offset) =
        (List.range numDims).map fun i =>
          toSigned 32 (front (sr.table.maxIndices i)).offset :=
      List.map_congr_left fun i member => by rw [greatest i (List.mem_range.mp member)]
    rw [minOffsets, maxOffsets]
  · rw [NeighborRange.isNeighborAccessDiagonalAccessed,
      NeighborRange.isNeighborAccessDiagonalAccessed, neighbor, diagonal]

end Collecting

/-! ## The widths cover the accesses -/

section Load

variable
    {space : GridSpaceMPI} {grid : GridMPI α} {call : NeighborCall} {periodic : Bool}
    {sr : NeighborRange} {numDims : Nat} {accesses : List StencilIndexList}

/-- The call built from a range of accesses. -/
def NeighborRange.loadCall (sr : NeighborRange) : NeighborCall where
  offsetMin := fun i =>
    if i < sr.table.numDims then toSigned 32 (front (sr.table.minIndices i)).offset
    else 0
  offsetMax := fun i =>
    if i < sr.table.numDims then toSigned 32 (front (sr.table.maxIndices i)).offset
    else 0
  diagonal := sr.diagonal

theorem getD_map_range (f : Nat → Int) (count i : Nat) :
    ((List.range count).map f).getD i 0 = if i < count then f i else 0 := by
  by_cases below : i < count
  · simp [below]
  · simp [below]

theorem buildLoadNeighbor_eq (neighbor : sr.table.isNeighborAccess = true) :
    buildLoadNeighbor sr = some sr.loadCall := by
  simp only [buildLoadNeighbor, NeighborRange.getNeighborAccess, neighbor, if_true,
    NeighborRange.isNeighborAccessDiagonalAccessed, Bool.true_and, NeighborRange.loadCall,
    Option.bind_eq_bind, Option.bind_some, getD_map_range]

/-- The load exchanges halos if its sums and absolute values are in `PSIndex`. -/
theorem loadNeighborExact_eq_some
    (dims : grid.numDims = space.numDims) {path : NeighborPath}
    (ordered : ∀ i < grid.numDims, call.offsetMin i ≤ call.offsetMax i) :
    loadNeighborExact space grid call periodic = some path ↔
      (∀ i < grid.numDims, FitsSigned 32 (call.offsetMax i + space.minPartition i)) ∧
        (∀ i < psMaxDim, call.offsetMin i ≤ 0 → FitsSigned 32 (-call.offsetMin i)) ∧
        .exchangeBoundaries (neighborExchange call.offsetMin call.offsetMax
          call.diagonal periodic) = path := by
  have overlaps : ∀ i < grid.numDims,
      space.Overlaps call.offsetMin call.offsetMax i := by
    intro i below
    have partition := space.minPartition_nonneg (dims ▸ below)
    have order := ordered i below
    simp only [GridSpaceMPI.Overlaps]
    omega
  have width (i : Nat) : (backwardWidth call.offsetMin i).isSome ↔
      (call.offsetMin i ≤ 0 → FitsSigned 32 (-call.offsetMin i)) := by
    rw [backwardWidth]
    split
    · rename_i before
      simp [signed, before]
    · rename_i after
      simp [after]
  have sums : ((List.range grid.numDims).mapM (overlapSum space call.offsetMax)).isSome ↔
      ∀ i < grid.numDims, FitsSigned 32 (call.offsetMax i + space.minPartition i) := by
    simp [FallibleMaps.mapM_isSome_iff, overlapSum, signed]
  have widths : ((List.range psMaxDim).mapM (backwardWidth call.offsetMin)).isSome ↔
      ∀ i < psMaxDim, call.offsetMin i ≤ 0 → FitsSigned 32 (-call.offsetMin i) := by
    simp only [FallibleMaps.mapM_isSome_iff, List.mem_range, width]
  rw [← sums, ← widths, loadNeighborExact, space.loadNeighbor_eq, if_pos overlaps]
  rcases (List.range grid.numDims).mapM (overlapSum space call.offsetMax) with _ | _
  · simp
  · rcases (List.range psMaxDim).mapM (backwardWidth call.offsetMin) with _ | _
    · simp
    · simp

/-- What the range of a grid parameter says about its accesses. -/
structure Building.Bounds
    (building : Building) (space : GridSpaceMPI) (grid : GridMPI α) (periodic : Bool) :
    Prop where
  /-- `GetNeighborAccess` gives the extremes in every dimension. -/
  extremes : ∃ sr offsetMin offsetMax,
    building.range grid.numDims = some sr ∧
      sr.getNeighborAccess = some (offsetMin, offsetMax) ∧
      offsetMin.length = grid.numDims ∧ offsetMax.length = grid.numDims ∧
      ∀ i < grid.numDims,
        IsLeast (offsetsAt building.accesses i) (offsetMin.getD i 0) ∧
          IsGreatest (offsetsAt building.accesses i) (offsetMax.getD i 0)
  /-- It does so for any other way to collect the same accesses. -/
  anyOrder : ∀ other : Building,
    (∀ access, access ∈ other.accesses ↔ access ∈ building.accesses) →
      (other.range grid.numDims).map (fun sr =>
          (sr.getNeighborAccess, sr.isNeighborAccessDiagonalAccessed)) =
        (building.range grid.numDims).map fun sr =>
          (sr.getNeighborAccess, sr.isNeighborAccessDiagonalAccessed)
  diagonal : ∃ sr, building.range grid.numDims = some sr ∧
    (sr.isNeighborAccessDiagonalAccessed = true ↔
      ∃ access ∈ building.accesses, 1 < nonZero access)
  /-- Every index an access reads lies in the subgrid or its halos. -/
  covers : ∃ exchange,
    building.load space grid periodic = some (.exchangeBoundaries exchange) ∧
      ∀ index, InBox grid.numDims grid.localSize index →
        ∀ access ∈ building.accesses, ∀ i < grid.numDims,
          -(exchange.width .bw i : Int) ≤
              index i + (StencilIndexList.at access i).offset ∧
            index i + (StencilIndexList.at access i).offset <
              grid.localSize i + exchange.width .fw i

/-- The offsets that the arithmetic of the load represents. -/
def Building.InRange (building : Building) (space : GridSpaceMPI) (numDims : Nat) : Prop :=
  ∀ access ∈ building.accesses, ∀ i < numDims,
    -2 ^ 31 < (StencilIndexList.at access i).offset ∧
      (StencilIndexList.at access i).offset + space.minPartition i < 2 ^ 31

namespace Building

variable {building : Building}
    (regular : ∀ access ∈ building.accesses,
      stencilIndexRegularOrder access grid.numDims = true)
    (nonempty : building.accesses ≠ [])

include nonempty

/-- The arguments of the call are the extremes if they are in `PSIndex`. -/
theorem loadCall_offsets {sr : NeighborRange}
    (collects : sr.Collects grid.numDims building.accesses)
    (fits : ∀ access ∈ building.accesses, ∀ i < grid.numDims,
      FitsSigned 32 (StencilIndexList.at access i).offset)
    {i : Nat} (below : i < grid.numDims) :
    IsLeast (offsetsAt building.accesses i) (sr.loadCall.offsetMin i) ∧
      IsGreatest (offsetsAt building.accesses i) (sr.loadCall.offsetMax i) := by
  obtain ⟨⟨-, least⟩, greatest⟩ := collects.extremes nonempty below
  have inType {offset : Int} (member : offset ∈ offsetsAt building.accesses i) :
      toSigned 32 offset = offset := by
    obtain ⟨access, listed, rfl⟩ := member
    exact (toSigned_eq_iff (by decide) _).mpr (fits access listed i below)
  simp only [NeighborRange.loadCall, collects.numDims_eq, if_pos below,
    inType least.1, inType greatest.1]
  exact ⟨least, greatest⟩

include regular

/-- The load of a building in terms of its range. -/
theorem load_eq :
    ∃ sr, building.range grid.numDims = some sr ∧
      sr.Collects grid.numDims building.accesses ∧
      building.load space grid periodic =
        loadNeighborExact space grid sr.loadCall periodic := by
  obtain ⟨sr, found, collects⟩ := building.collects regular
  refine ⟨sr, found, collects, ?_⟩
  rw [load, found, Option.bind_eq_bind, Option.bind_some,
    buildLoadNeighbor_eq (collects.isNeighborAccess nonempty), Option.bind_eq_bind,
    Option.bind_some]

/-- The range keeps its promises if the offsets are represented. -/
theorem InRange.bounds
    (dims : grid.numDims = space.numDims)
    (inRange : building.InRange space grid.numDims) :
    building.Bounds space grid periodic := by
  have fits : ∀ access ∈ building.accesses, ∀ i < grid.numDims,
      FitsSigned 32 (StencilIndexList.at access i).offset := by
    intro access member i below
    have partition := space.minPartition_nonneg (dims ▸ below)
    obtain ⟨above, sum⟩ := inRange access member i below
    simp only [FitsSigned]
    omega
  obtain ⟨sr, found, collects, load⟩ :=
    @load_eq _ space _ periodic _ regular nonempty
  have neighbor := collects.isNeighborAccess nonempty
  have offsets {i : Nat} (below : i < grid.numDims) :=
    loadCall_offsets nonempty collects fits below
  refine ⟨⟨sr, _, _, found, if_pos neighbor, by simp [collects.numDims_eq],
    by simp [collects.numDims_eq], fun i below => ?_⟩, ?_, ?_, ?_⟩
  · simpa only [getD_map_range, NeighborRange.loadCall] using offsets below
  · intro other same
    have regularOther : ∀ access ∈ other.accesses,
        stencilIndexRegularOrder access grid.numDims = true :=
      fun access member => regular access ((same access).mp member)
    obtain ⟨srOther, foundOther, collectsOther⟩ := other.collects regularOther
    obtain ⟨access, diagonal⟩ := collects.same collectsOther same
    rw [found, foundOther, Option.map_some, Option.map_some, access, diagonal]
  · refine ⟨sr, found, ?_⟩
    rw [NeighborRange.isNeighborAccessDiagonalAccessed, neighbor, Bool.true_and]
    exact collects.diagonal
  · have ordered : ∀ i < grid.numDims, sr.loadCall.offsetMin i ≤ sr.loadCall.offsetMax i :=
      fun i below => (offsets below).1.2 (offsets below).2.1
    refine ⟨_, load.trans ((loadNeighborExact_eq_some dims ordered).mpr
      ⟨fun i below => ?_, fun i below before => ?_, rfl⟩), ?_⟩
    · obtain ⟨access, member, equal⟩ := (offsets below).2.1
      have partition := space.minPartition_nonneg (dims ▸ below)
      obtain ⟨above, sum⟩ := inRange access member i below
      rw [← equal]
      simp only [FitsSigned]
      omega
    · by_cases inside : i < grid.numDims
      · obtain ⟨access, member, equal⟩ := (offsets inside).1.1
        obtain ⟨above, -⟩ := inRange access member i inside
        rw [← equal] at before ⊢
        simp only [FitsSigned]
        omega
      · simp [NeighborRange.loadCall, collects.numDims_eq, inside, FitsSigned]
    · intro index inside access member i below
      obtain ⟨start, stop⟩ := inside i below
      have least := (offsets below).1.2 ⟨access, member, rfl⟩
      have greatest := (offsets below).2.2 ⟨access, member, rfl⟩
      simp only [neighborExchange]
      split <;> split <;> omega

/-- An access beyond `PSIndex` breaks the extremes or the arithmetic of the load. -/
theorem Bounds.inRange
    (dims : grid.numDims = space.numDims) (most : grid.numDims ≤ psMaxDim)
    (bounds : building.Bounds space grid periodic) :
    building.InRange space grid.numDims := by
  obtain ⟨sr, found, collects, load⟩ :=
    @load_eq _ space _ periodic _ regular nonempty
  obtain ⟨same, offsetMin, offsetMax, foundSame, access, -, -, extremes⟩ := bounds.extremes
  obtain rfl : sr = same := Option.some.inj (found.symm.trans foundSame)
  rw [NeighborRange.getNeighborAccess, if_pos (collects.isNeighborAccess nonempty)]
    at access
  obtain ⟨rfl, rfl⟩ := Prod.mk.inj (Option.some.inj access)
  have offsets {i : Nat} (below : i < grid.numDims) :
      IsLeast (offsetsAt building.accesses i) (sr.loadCall.offsetMin i) ∧
        IsGreatest (offsetsAt building.accesses i) (sr.loadCall.offsetMax i) := by
    simpa only [getD_map_range, NeighborRange.loadCall] using extremes i below
  have ordered : ∀ i < grid.numDims, sr.loadCall.offsetMin i ≤ sr.loadCall.offsetMax i :=
    fun i below => (offsets below).1.2 (offsets below).2.1
  obtain ⟨exchange, loads, -⟩ := bounds.covers
  obtain ⟨sums, widths, -⟩ :=
    (loadNeighborExact_eq_some dims ordered).mp (load.symm.trans loads)
  intro access member i below
  have least := (offsets below).1.2 ⟨access, member, rfl⟩
  have greatest := (offsets below).2.2 ⟨access, member, rfl⟩
  have sum := (sums i below).2
  have width := widths i (below.trans_le most)
  simp only [FitsSigned] at width
  constructor
  · by_cases before : sr.loadCall.offsetMin i ≤ 0
    · have negated := (width before).2
      omega
    · omega
  · omega

end Building

/--
The range of regular accesses gives their extremes, the diagonal flag and widths
that cover them exactly if the absolute values of the offsets and their sums
with the smallest partition are in `PSIndex`.
-/
theorem stencilRange_bounds_iff
    {building : Building}
    (regular : ∀ access ∈ building.accesses,
      stencilIndexRegularOrder access grid.numDims = true)
    (nonempty : building.accesses ≠ [])
    (dims : grid.numDims = space.numDims) (most : grid.numDims ≤ psMaxDim) :
    building.Bounds space grid periodic ↔ building.InRange space grid.numDims :=
  ⟨Building.Bounds.inRange regular nonempty dims most,
    Building.InRange.bounds regular nonempty dims⟩

end Load

/-! ## A range from three accesses -/

/-- Two accesses of a kernel, and one of a kernel it calls. -/
def crossBuilding : Building :=
  ((Building.empty.insert [⟨1, -2⟩, ⟨2, 0⟩]).insert [⟨1, 0⟩, ⟨2, 3⟩]).merge
    (Building.empty.insert [⟨1, 1⟩, ⟨2, 1⟩])

theorem crossBuilding_bounds :
    crossBuilding.accesses = [[⟨1, -2⟩, ⟨2, 0⟩], [⟨1, 0⟩, ⟨2, 3⟩], [⟨1, 1⟩, ⟨2, 1⟩]] ∧
      ∀ grid : GridMPI Int, grid.numDims = 2 → ∀ periodic,
        crossBuilding.Bounds HaloExchange.twoByTwo grid periodic := by
  refine ⟨rfl, fun grid dims periodic => ?_⟩
  refine (stencilRange_bounds_iff ?_ (by decide) (dims.trans rfl) (by rw [dims]; decide)).mpr ?_
  · rw [dims]
    decide
  · rw [dims, Building.InRange]
    decide

/-- An access `2 ^ 31` cells ahead is taken for one as far back. -/
theorem farAccess_not_bounds :
    ((Building.empty.insert [⟨1, 2 ^ 31⟩]).range 1).bind NeighborRange.getNeighborAccess =
        some ([-2 ^ 31], [-2 ^ 31]) ∧
      ∀ (space : GridSpaceMPI) (grid : GridMPI Int), space.numDims = 1 →
        grid.numDims = 1 → ∀ periodic,
          ¬(Building.empty.insert [⟨1, 2 ^ 31⟩]).Bounds space grid periodic := by
  have truncated : ((Building.empty.insert [⟨1, 2 ^ 31⟩]).range 1).bind
      NeighborRange.getNeighborAccess = some ([-2 ^ 31], [-2 ^ 31]) := rfl
  refine ⟨truncated, fun space grid dims gridDims periodic bounds => ?_⟩
  obtain ⟨sr, offsetMin, offsetMax, found, access, -, -, extremes⟩ := bounds.extremes
  obtain ⟨member, -⟩ := (extremes 0 (by omega)).1
  rw [gridDims] at found
  rw [found, Option.bind_some, access] at truncated
  obtain ⟨rfl, rfl⟩ := Prod.mk.inj (Option.some.inj truncated)
  simp [offsetsAt, Building.accesses, StencilIndexList.at] at member

end Physis.Translator
