import Mathlib

/-!
# Stencil ranges

An access of a kernel to a grid has one index per dimension of the grid: an
index variable of the kernel with a sign and an offset, or a fixed position.
`StencilRange` keeps, for every dimension and every index variable used there,
the least and the greatest offset.
-/

namespace Physis.Translator

/--
`StencilIndex`: the index variable counted from one, negative for a mirrored
access and zero for a fixed position, and the offset.
-/
structure StencilIndex where
  dim : Int
  offset : Int
deriving DecidableEq, Repr

abbrev StencilIndexList := List StencilIndex

/-- `StencilRange`: the lists of every dimension. -/
structure StencilRange where
  numDims : Nat
  minIndices : Nat → StencilIndexList
  maxIndices : Nat → StencilIndexList

namespace StencilRange

/--
One half of the insertion of an index: the entry of the same index variable is
replaced if the new index is better, and without such an entry it is appended.
-/
def insertIndex
    (better : Int → Int → Bool) (si : StencilIndex) :
    StencilIndexList → StencilIndexList
  | [] => [si]
  | cur :: rest =>
      if cur.dim = si.dim then
        (if better si.offset cur.offset then si else cur) :: rest
      else cur :: insertIndex better si rest

/--
`insert`: the index of every dimension goes into the two lists of that
dimension, counted from zero here.
-/
def insert (sr : StencilRange) (access : StencilIndexList) : StencilRange :=
  { sr with
    minIndices := fun dim =>
      match access[dim]? with
      | some si =>
          insertIndex (fun x cur => decide (x < cur)) si (sr.minIndices dim)
      | none => sr.minIndices dim
    maxIndices := fun dim =>
      match access[dim]? with
      | some si =>
          insertIndex (fun x cur => decide (cur < x)) si (sr.maxIndices dim)
      | none => sr.maxIndices dim }

/-- The range of a grid parameter after all its accesses. -/
def ofAccesses (numDims : Nat) (accesses : List StencilIndexList) :
    StencilRange :=
  accesses.foldl insert ⟨numDims, fun _ => [], fun _ => []⟩

/-- `IsUniqueDim` -/
def isUniqueDim (sr : StencilRange) : Bool :=
  (List.range sr.numDims).all fun i =>
    (sr.minIndices i).length == 1 && (sr.maxIndices i).length == 1

end StencilRange

/--
The arguments `BuildCallLoadSubgridUniqueDim` emits: index variable and offset
of the least index of every dimension, then of the greatest.
-/
structure SubgridCall where
  minDims : List Int
  minOffsets : List Int
  maxDims : List Int
  maxOffsets : List Int

/-- `front()` of a list that is not empty -/
def front (list : StencilIndexList) : StencilIndex :=
  list.headD ⟨0, 0⟩

/-- The argument list of the call, from the first entries of the lists -/
def StencilRange.arguments (sr : StencilRange) : SubgridCall :=
  let dims := List.range sr.numDims
  { minDims := dims.map fun i => (front (sr.minIndices i)).dim
    minOffsets := dims.map fun i => (front (sr.minIndices i)).offset
    maxDims := dims.map fun i => (front (sr.maxIndices i)).dim
    maxOffsets := dims.map fun i => (front (sr.maxIndices i)).offset }

/--
`BuildCallLoadSubgridUniqueDim`; `none` where an assertion on the sizes fails or
the number of dimensions has no runtime function.
-/
def buildCallLoadSubgridUniqueDim (sr : StencilRange) : Option SubgridCall :=
  if sr.isUniqueDim = true ∧ (sr.numDims = 2 ∨ sr.numDims = 3) then
    some sr.arguments
  else none

/-! ## What the table says about the accesses -/

namespace StencilRange

/-- An inserted index is bounded by an entry, and entries come from indices. -/
theorem mem_insertIndex
    {better : Int → Int → Bool} {si : StencilIndex} {list : StencilIndexList} :
    ∀ entry ∈ insertIndex better si list, entry = si ∨ entry ∈ list := by
  induction list with
  | nil => simp [insertIndex]
  | cons cur rest induction =>
      intro entry member
      rw [insertIndex] at member
      split at member
      · rcases List.mem_cons.mp member with rfl | later
        · split
          · exact .inl rfl
          · exact .inr List.mem_cons_self
        · exact .inr (List.mem_cons_of_mem _ later)
      · rcases List.mem_cons.mp member with rfl | later
        · exact .inr List.mem_cons_self
        · rcases induction entry later with own | old
          · exact .inl own
          · exact .inr (List.mem_cons_of_mem _ old)

/-- The table of an order bounds the index by an entry of its variable. -/
def Bounds (order : Int → Int → Prop) (list : StencilIndexList)
    (si : StencilIndex) : Prop :=
  ∃ entry ∈ list, entry.dim = si.dim ∧ order entry.offset si.offset

/-- The new index is bounded after its insertion, and old ones stay bounded. -/
theorem bounds_insertIndex
    (order : Int → Int → Prop) (better : Int → Int → Bool)
    (refl : ∀ x, order x x) (trans : ∀ {x y z}, order x y → order y z → order x z)
    (better_order : ∀ x cur, better x cur = true → order x cur)
    (total : ∀ x cur, better x cur = false → order cur x)
    (si : StencilIndex) (list : StencilIndexList) :
    Bounds order (insertIndex better si list) si ∧
      ∀ other, Bounds order list other →
        Bounds order (insertIndex better si list) other := by
  induction list with
  | nil =>
      refine ⟨⟨si, List.mem_singleton.mpr rfl, rfl, refl _⟩, ?_⟩
      rintro other ⟨entry, impossible, -⟩
      cases impossible
  | cons cur rest induction =>
      rw [insertIndex]
      split
      · rename_i same
        rcases chosen : better si.offset cur.offset with _ | _
        · simp only [Bool.false_eq_true, if_false]
          exact ⟨⟨cur, List.mem_cons_self, same, total _ _ chosen⟩,
            fun _ bounds => bounds⟩
        · simp only [if_true]
          refine ⟨⟨si, List.mem_cons_self, rfl, refl _⟩, ?_⟩
          rintro other ⟨entry, member, equal, bound⟩
          rcases List.mem_cons.mp member with rfl | later
          · exact ⟨si, List.mem_cons_self, same.symm.trans equal,
              trans (better_order _ _ chosen) bound⟩
          · exact ⟨entry, List.mem_cons_of_mem _ later, equal, bound⟩
      · obtain ⟨⟨entry, member, own⟩, keep⟩ := induction
        refine ⟨⟨entry, List.mem_cons_of_mem _ member, own⟩, ?_⟩
        rintro other ⟨entry, member, equal, bound⟩
        rcases List.mem_cons.mp member with rfl | later
        · exact ⟨entry, List.mem_cons_self, equal, bound⟩
        · obtain ⟨kept, keptMember, keptOwn⟩ :=
            keep other ⟨entry, later, equal, bound⟩
          exact ⟨kept, List.mem_cons_of_mem _ keptMember, keptOwn⟩

/-- The table after some accesses: complete, and made of their indices. -/
structure Tabulates (sr : StencilRange) (accesses : List StencilIndexList) :
    Prop where
  least : ∀ access ∈ accesses, ∀ i si, access[i]? = some si →
    Bounds (· ≤ ·) (sr.minIndices i) si
  greatest : ∀ access ∈ accesses, ∀ i si, access[i]? = some si →
    Bounds (· ≥ ·) (sr.maxIndices i) si
  attained : ∀ i, ∀ entry ∈ sr.minIndices i,
    ∃ access ∈ accesses, access[i]? = some entry

theorem bounds_insertMin (si : StencilIndex) (list : StencilIndexList) :
    Bounds (· ≤ ·) (insertIndex (fun x cur => decide (x < cur)) si list) si ∧
      ∀ other, Bounds (· ≤ ·) list other →
        Bounds (· ≤ ·) (insertIndex (fun x cur => decide (x < cur)) si list)
          other :=
  bounds_insertIndex (· ≤ ·) _ le_refl le_trans
    (fun _ _ better => le_of_lt (of_decide_eq_true better))
    (fun _ _ worse => not_lt.mp (of_decide_eq_false worse)) si list

theorem bounds_insertMax (si : StencilIndex) (list : StencilIndexList) :
    Bounds (· ≥ ·) (insertIndex (fun x cur => decide (cur < x)) si list) si ∧
      ∀ other, Bounds (· ≥ ·) list other →
        Bounds (· ≥ ·) (insertIndex (fun x cur => decide (cur < x)) si list)
          other :=
  bounds_insertIndex (· ≥ ·) _ le_refl (fun first second => ge_trans first second)
    (fun _ _ better => le_of_lt (of_decide_eq_true better))
    (fun _ _ worse => not_lt.mp (of_decide_eq_false worse)) si list

/-- Old accesses stay tabulated, and the inserted one is tabulated too. -/
theorem Tabulates.insert
    {sr : StencilRange} {accesses : List StencilIndexList}
    (tabulates : sr.Tabulates accesses) (access : StencilIndexList) :
    (sr.insert access).Tabulates (accesses ++ [access]) where
  least other member i si found := by
    simp only [StencilRange.insert]
    rcases List.mem_append.mp member with old | new
    · have bounds := tabulates.least other old i si found
      split
      · exact (bounds_insertMin _ _).2 si bounds
      · exact bounds
    · obtain rfl := List.mem_singleton.mp new
      simp only [found]
      exact (bounds_insertMin _ _).1
  greatest other member i si found := by
    simp only [StencilRange.insert]
    rcases List.mem_append.mp member with old | new
    · have bounds := tabulates.greatest other old i si found
      split
      · exact (bounds_insertMax _ _).2 si bounds
      · exact bounds
    · obtain rfl := List.mem_singleton.mp new
      simp only [found]
      exact (bounds_insertMax _ _).1
  attained i entry member := by
    simp only [StencilRange.insert] at member
    split at member
    · rename_i si found
      rcases mem_insertIndex entry member with rfl | old
      · exact ⟨access, by simp, found⟩
      · obtain ⟨other, listed, own⟩ := tabulates.attained i entry old
        exact ⟨other, List.mem_append_left _ listed, own⟩
    · obtain ⟨other, listed, own⟩ := tabulates.attained i entry member
      exact ⟨other, List.mem_append_left _ listed, own⟩

theorem numDims_foldl
    (sr : StencilRange) (accesses : List StencilIndexList) :
    (accesses.foldl insert sr).numDims = sr.numDims := by
  induction accesses generalizing sr with
  | nil => rfl
  | cons access accesses induction => exact induction (sr.insert access)

@[simp]
theorem numDims_ofAccesses
    (numDims : Nat) (accesses : List StencilIndexList) :
    (ofAccesses numDims accesses).numDims = numDims :=
  numDims_foldl _ accesses

/-- The table of a grid parameter tabulates its accesses. -/
theorem tabulates_ofAccesses
    (numDims : Nat) (accesses : List StencilIndexList) :
    (ofAccesses numDims accesses).Tabulates accesses := by
  have general : ∀ (sr : StencilRange) (done : List StencilIndexList),
      sr.Tabulates done →
        (accesses.foldl insert sr).Tabulates (done ++ accesses) := by
    induction accesses with
    | nil =>
        intro sr done tabulates
        simpa using tabulates
    | cons access accesses induction =>
        intro sr done tabulates
        have next := induction _ _ (tabulates.insert access)
        simpa using next
  have start : StencilRange.Tabulates ⟨numDims, fun _ => [], fun _ => []⟩ [] :=
    ⟨by simp, by simp, by simp⟩
  exact general _ _ start

/-- The greatest entries are indices of accesses, too. -/
theorem maxIndices_attained
    {numDims : Nat} {accesses : List StencilIndexList} (i : Nat) :
    ∀ entry ∈ (ofAccesses numDims accesses).maxIndices i,
      ∃ access ∈ accesses, access[i]? = some entry := by
  have general : ∀ sr : StencilRange,
      ∀ entry ∈ (accesses.foldl insert sr).maxIndices i,
        entry ∈ sr.maxIndices i ∨ ∃ access ∈ accesses, access[i]? = some entry := by
    induction accesses with
    | nil => exact fun sr entry member => .inl member
    | cons access accesses induction =>
        intro sr entry member
        rcases induction (sr.insert access) entry member with before | ⟨other, listed, own⟩
        · simp only [insert] at before
          split at before
          · rename_i si found
            rcases mem_insertIndex entry before with rfl | old
            · exact .inr ⟨access, List.mem_cons_self, found⟩
            · exact .inl old
          · exact .inl before
        · exact .inr ⟨other, List.mem_cons_of_mem _ listed, own⟩
  intro entry member
  rcases general _ entry member with nothing | found
  · cases nothing
  · exact found

/-- With one index variable per dimension the table has one entry there. -/
theorem minIndices_of_isUniqueDim
    {sr : StencilRange} (unique : sr.isUniqueDim = true)
    {i : Nat} (below : i < sr.numDims) :
    sr.minIndices i = [front (sr.minIndices i)] := by
  simp only [isUniqueDim, List.all_eq_true, List.mem_range,
    Bool.and_eq_true, beq_iff_eq] at unique
  obtain ⟨only, equal⟩ := List.length_eq_one_iff.mp (unique i below).1
  rw [equal]
  rfl

theorem maxIndices_of_isUniqueDim
    {sr : StencilRange} (unique : sr.isUniqueDim = true)
    {i : Nat} (below : i < sr.numDims) :
    sr.maxIndices i = [front (sr.maxIndices i)] := by
  simp only [isUniqueDim, List.all_eq_true, List.mem_range,
    Bool.and_eq_true, beq_iff_eq] at unique
  obtain ⟨only, equal⟩ := List.length_eq_one_iff.mp (unique i below).2
  rw [equal]
  rfl

section UniqueDim

variable
    {sr : StencilRange} {accesses : List StencilIndexList}
    {access : StencilIndexList} {i : Nat} {si : StencilIndex}

/-- Every access has the table's index variable, and at least its offset. -/
theorem Tabulates.front_min
    (tabulates : sr.Tabulates accesses) (unique : sr.isUniqueDim = true)
    (below : i < sr.numDims) (member : access ∈ accesses)
    (found : access[i]? = some si) :
    (front (sr.minIndices i)).dim = si.dim ∧
      (front (sr.minIndices i)).offset ≤ si.offset := by
  obtain ⟨entry, listed, equal, bound⟩ :=
    tabulates.least access member i si found
  rw [minIndices_of_isUniqueDim unique below, List.mem_singleton] at listed
  rw [← listed]
  exact ⟨equal, bound⟩

theorem Tabulates.front_max
    (tabulates : sr.Tabulates accesses) (unique : sr.isUniqueDim = true)
    (below : i < sr.numDims) (member : access ∈ accesses)
    (found : access[i]? = some si) :
    (front (sr.maxIndices i)).dim = si.dim ∧
      si.offset ≤ (front (sr.maxIndices i)).offset := by
  obtain ⟨entry, listed, equal, bound⟩ :=
    tabulates.greatest access member i si found
  rw [maxIndices_of_isUniqueDim unique below, List.mem_singleton] at listed
  rw [← listed]
  exact ⟨equal, bound⟩

/-- The least offset is the offset of some access. -/
theorem Tabulates.front_attained
    (tabulates : sr.Tabulates accesses) (unique : sr.isUniqueDim = true)
    (below : i < sr.numDims) :
    ∃ access ∈ accesses, access[i]? = some (front (sr.minIndices i)) := by
  apply tabulates.attained
  rw [minIndices_of_isUniqueDim unique below]
  exact List.mem_singleton.mpr rfl

end UniqueDim

end StencilRange

end Physis.Translator
