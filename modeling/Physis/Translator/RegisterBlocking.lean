import Physis.Translator.GetKernel

/-!
# Register blocking

Accesses to a grid that differ only in the dimension of the innermost loop are
kept in registers: each iteration moves the registers by one and loads the
leading element.  The elements between two accessed ones are kept too, and
whether their loads are periodic is guessed from the other accesses.
-/

namespace Physis.Translator

/-- `StencilRegularIndexList`: the offset of every dimension, counted from zero. -/
abbrev RegularIndex := List Int

/-- The regular index list of an index list in regular order. -/
def toRegular (sil : StencilIndexList) : Option RegularIndex :=
  if stencilIndexRegularOrder sil sil.length then some (sil.map (·.offset)) else none

/-- `GetIndex` -/
def getIndex (il : RegularIndex) (dim : Nat) : Int :=
  il.getD dim 0

/-- `SetIndex` of a dimension the list has -/
def setIndex (il : RegularIndex) (dim : Nat) (index : Int) : RegularIndex :=
  il.set dim index

/-! ## The blocked indices -/

/-- Adds an index to the entry of its base in `grouped_indices`. -/
def addToGroup (base index : RegularIndex) :
    List (RegularIndex × List RegularIndex) → List (RegularIndex × List RegularIndex)
  | [] => [(base, [index])]
  | (key, members) :: rest =>
      if key = base then
        (key, if index ∈ members then members else members ++ [index]) :: rest
      else (key, members) :: addToGroup base index rest

/-- `grouped_indices`, before it is listed in the order of its keys. -/
def groupedIndices (indices : List StencilIndexList) (loopDim : Nat) :
    List (RegularIndex × List RegularIndex) :=
  (indices.filterMap toRegular).foldl
    (fun groups index => addToGroup (setIndex index loopDim 0) index groups) []

/-- `FindCandidateIndices` -/
def findCandidateIndices (indices : List StencilIndexList) (loopDim : Nat) :
    List (List RegularIndex) :=
  let groups := (groupedIndices indices loopDim).insertionSort (·.1 ≤ ·.1)
  (groups.filter fun group => 1 < group.2.length).map fun group =>
    group.2.insertionSort (· ≤ ·)

/-- The body of the loop in `FillStencilHole`: the missing indices are copied from the first. -/
def fillStencilHole (blockedDim : Nat) : List RegularIndex → List RegularIndex
  | [] => []
  | first :: rest =>
      let bil := first :: rest
      let idxSet := bil.map (getIndex · blockedDim)
      let minIdx := (rest.map (getIndex · blockedDim)).foldl min (getIndex first blockedDim)
      let maxIdx := (rest.map (getIndex · blockedDim)).foldl max (getIndex first blockedDim)
      let between := (List.range (maxIdx - minIdx - 1).toNat).map fun (i : Nat) => minIdx + 1 + i
      let missing := (between.filter (· ∉ idxSet)).map (setIndex first blockedDim ·)
      (bil ++ missing).insertionSort fun x y => getIndex x blockedDim ≤ getIndex y blockedDim

/-- `GridRangeMap`, as far as the pass uses it: a grid's `all_indices`. -/
structure GridRangeMap (Grid : Type) where
  ranges : List (Grid × List StencilIndexList)
  keys : (ranges.map Prod.fst).Nodup

/-- The lines `DoRegisterBlocking` blocks, in its order. -/
def GridRangeMap.lines {Grid : Type} (gr : GridRangeMap Grid) (loopDim : Nat) :
    List (Grid × List RegularIndex) :=
  gr.ranges.flatMap fun (gv, indices) =>
    ((findCandidateIndices indices loopDim).map (fillStencilHole loopDim)).map (gv, ·)

/-! ## The accesses of the loop -/

/-- A register variable: the line it belongs to and its number there. -/
structure Register where
  line : Nat
  slot : Nat
deriving DecidableEq, Repr

/--
An expression with a `GridGetAttribute` in the loop, and the register in its
place.  A load that the pass has inserted has neither a grid nor an offset.
-/
structure GetSite (Grid : Type) where
  gv : Option Grid
  indexList : Option StencilIndexList
  periodic : Option Bool
  register : Option Register

section Pass

variable {Grid : Type} [DecidableEq Grid]

/-- `*index_list == *get_attr->GetStencilIndexList()` -/
def GetSite.isAt (index : RegularIndex) (site : GetSite Grid) : Bool :=
  site.indexList.any fun sil => toRegular sil = some index

/-- `FindGetAtIndex` -/
def findGetAtIndex (sites : List (GetSite Grid)) (index : RegularIndex) : Option (GetSite Grid) :=
  sites.find? (·.isAt index)

/-- `IsSameGrid`; none where the grid is a null pointer -/
def isSameGrid (gv : Grid) (site : GetSite Grid) : Option Bool :=
  site.gv.map (· = gv)

/-- `ReplaceGetWithReg`: the loop afterwards and the first of the replaced gets -/
def replaceGetWithReg (gv : Grid) (index : RegularIndex) (reg : Register) :
    List (GetSite Grid) → Option (List (GetSite Grid) × Option (GetSite Grid))
  | [] => some ([], none)
  | site :: sites => do
      if site.isAt index then
        let same ← isSameGrid gv site
        let (later, replaced) ← replaceGetWithReg gv index reg sites
        if same then some ({ site with register := some reg } :: later, some site)
        else some (site :: later, replaced)
      else
        let (later, replaced) ← replaceGetWithReg gv index reg sites
        some (site :: later, replaced)

/-- `ShouldGetPeriodic` for a hole; none where an offset is a null pointer -/
def shouldGetPeriodic (sites : List (GetSite Grid)) (dim : Nat) (index : Int) :
    List RegularIndex → Option Bool
  | [] => some false
  | il :: bil =>
      if index = 0 then some false
      else if (0 < index ∧ 0 < getIndex il dim) ∨ (index < 0 ∧ getIndex il dim < 0) then
        match findGetAtIndex sites il with
        | none => shouldGetPeriodic sites dim index bil
        | some get => do
            if ← get.periodic then some true else shouldGetPeriodic sites dim index bil
      else shouldGetPeriodic sites dim index bil

/-- A blocked line: for each register the index it stands for and how it is loaded. -/
structure BlockedLine (Grid : Type) where
  gv : Grid
  loads : List (RegularIndex × Bool)

/-- The loop over the registers of `DoRegisterBlockingOneLine`. -/
def blockRegisters (gv : Grid) (dim line : Nat) (bil : List RegularIndex) :
    (slot : Nat) → List RegularIndex → List (GetSite Grid) →
      Option (List (GetSite Grid) × List (RegularIndex × Bool))
  | _, [], sites => some (sites, [])
  | slot, il :: rest, sites => do
      let (sites, originalGet) ← replaceGetWithReg gv il ⟨line, slot⟩ sites
      let isPeriodic ← match originalGet with
        | some get => get.periodic
        | none => shouldGetPeriodic sites dim (getIndex il dim) bil
      let (sites, loads) ← blockRegisters gv dim line bil (slot + 1) rest sites
      some (sites, (il, isPeriodic) :: loads)

/-- `SetStencilIndexList` -/
def setStencilIndexList (il : RegularIndex) : StencilIndexList :=
  il.mapIdx fun i offset => ⟨i + 1, offset⟩

/-- The load of the leading element, put at the start of the loop. -/
def leadingLoad (bil : List RegularIndex) : GetSite Grid where
  gv := none
  indexList := some (setStencilIndexList (bil.getLastD []))
  periodic := none
  register := none

/-- The loop and the lines blocked so far. -/
structure BlockedLoop (Grid : Type) where
  sites : List (GetSite Grid)
  lines : List (BlockedLine Grid)

/-- `DoRegisterBlockingOneLine` -/
def doRegisterBlockingOneLine (dim : Nat) (loop : BlockedLoop Grid)
    (line : Grid × List RegularIndex) : Option (BlockedLoop Grid) := do
  let (sites, loads) ← blockRegisters line.1 dim loop.lines.length line.2 0 line.2 loop.sites
  some ⟨leadingLoad line.2 :: sites, loop.lines ++ [⟨line.1, loads⟩]⟩

/-- A get of the kernel in the loop. -/
structure KernelGet (Grid : Type) where
  gv : Grid
  indexList : StencilIndexList
  periodic : Bool

def KernelGet.site (get : KernelGet Grid) : GetSite Grid where
  gv := some get.gv
  indexList := some get.indexList
  periodic := some get.periodic
  register := none

/-- `DoRegisterBlocking` -/
def doRegisterBlocking (gets : List (KernelGet Grid)) (gr : GridRangeMap Grid) (dim : Nat) :
    Option (BlockedLoop Grid) :=
  (gr.lines dim).foldlM (doRegisterBlockingOneLine dim) ⟨gets.map KernelGet.site, []⟩

end Pass

/-! ## The indices of a line -/

@[simp]
theorem getIndex_setIndex {il : RegularIndex} {dim : Nat} (inside : dim < il.length)
    (index : Int) : getIndex (setIndex il dim index) dim = index := by
  simp [getIndex, setIndex, inside]

@[simp]
theorem setIndex_setIndex (il : RegularIndex) (dim : Nat) (x y : Int) :
    setIndex (setIndex il dim x) dim y = setIndex il dim y := by
  simp [setIndex]

theorem setIndex_getIndex (il : RegularIndex) (dim : Nat) :
    setIndex il dim (getIndex il dim) = il := by
  apply List.ext_getElem
  · simp [setIndex]
  · intro i _ below
    by_cases same : dim = i
    · subst same
      simp [setIndex, getIndex, below]
    · simp [setIndex, same]

@[simp]
theorem length_setIndex (il : RegularIndex) (dim : Nat) (index : Int) :
    (setIndex il dim index).length = il.length := by
  simp [setIndex]

/-- An index is its base with its own entry in the blocked dimension. -/
theorem eq_setIndex_of_base {base il : RegularIndex} {dim : Nat}
    (same : setIndex il dim 0 = base) : il = setIndex base dim (getIndex il dim) := by
  rw [← same, setIndex_setIndex, setIndex_getIndex]

section Groups

variable {loopDim : Nat}

/-- The entries of the map: distinct bases, and distinct indices of each. -/
structure Grouped (loopDim : Nat) (groups : List (RegularIndex × List RegularIndex)) : Prop where
  keys : (groups.map Prod.fst).Nodup
  members : ∀ group ∈ groups, group.2.Nodup ∧ ∀ il ∈ group.2, setIndex il loopDim 0 = group.1

theorem mem_keys_addToGroup {base index key : RegularIndex}
    {groups : List (RegularIndex × List RegularIndex)}
    (member : key ∈ (addToGroup base index groups).map Prod.fst) :
    key = base ∨ key ∈ groups.map Prod.fst := by
  induction groups with
  | nil => simpa [addToGroup] using member
  | cons group rest induction =>
      rw [addToGroup] at member
      split at member
      · exact .inr member
      · rcases List.mem_cons.mp member with own | later
        · exact .inr (List.mem_cons.mpr (.inl own))
        · rcases induction later with new | old
          · exact .inl new
          · exact .inr (List.mem_cons_of_mem _ old)

theorem Grouped.addToGroup {groups : List (RegularIndex × List RegularIndex)}
    (grouped : Grouped loopDim groups) {base index : RegularIndex}
    (own : setIndex index loopDim 0 = base) :
    Grouped loopDim (addToGroup base index groups) := by
  induction groups with
  | nil => exact ⟨by simp [Translator.addToGroup], by simp [Translator.addToGroup, own]⟩
  | cons group rest induction =>
      obtain ⟨keys, members⟩ := grouped
      obtain ⟨fresh, others⟩ := List.nodup_cons.mp keys
      have head := members group List.mem_cons_self
      have tail : Grouped loopDim rest :=
        ⟨others, fun g member => members g (List.mem_cons_of_mem _ member)⟩
      rw [Translator.addToGroup]
      split
      · rename_i same
        refine ⟨keys, fun g member => ?_⟩
        rcases List.mem_cons.mp member with rfl | later
        · by_cases known : index ∈ group.2
          · simpa only [if_pos known] using head
          · simp only [if_neg known]
            refine ⟨?_, fun il inside => ?_⟩
            · rw [List.nodup_append]
              exact ⟨head.1, List.nodup_singleton _, by
                rintro x before y after rfl
                exact known (List.mem_singleton.mp after ▸ before)⟩
            · rcases List.mem_append.mp inside with old | new
              · exact head.2 il old
              · rw [List.mem_singleton.mp new, own, same]
        · exact members g (List.mem_cons_of_mem _ later)
      · rename_i distinct
        have inner := induction tail
        refine ⟨List.nodup_cons.mpr ⟨fun member => ?_, inner.keys⟩, fun g member => ?_⟩
        · rcases mem_keys_addToGroup member with new | old
          · exact distinct new
          · exact fresh old
        · rcases List.mem_cons.mp member with rfl | later
          · exact head
          · exact inner.members g later

theorem grouped_groupedIndices (indices : List StencilIndexList) :
    Grouped loopDim (groupedIndices indices loopDim) := by
  rw [groupedIndices]
  generalize indices.filterMap toRegular = regular
  suffices all : ∀ groups, Grouped loopDim groups →
      Grouped loopDim (regular.foldl
        (fun groups index => addToGroup (setIndex index loopDim 0) index groups) groups) from
    all [] ⟨List.nodup_nil, by simp⟩
  induction regular with
  | nil => exact fun _ grouped => grouped
  | cons index rest induction =>
      intro groups grouped
      exact induction _ (grouped.addToGroup rfl)

end Groups

/-! ## Filled holes -/

/-- A list of distinct numbers and the numbers it misses are all numbers in its range. -/
theorem sorted_filled {numbers : List Int} {least greatest : Int} (distinct : numbers.Nodup)
    (lower : least ∈ numbers ∧ ∀ x ∈ numbers, least ≤ x)
    (upper : greatest ∈ numbers ∧ ∀ x ∈ numbers, x ≤ greatest) :
    (numbers ++ ((List.range (greatest - least - 1).toNat).map
        fun (i : Nat) => least + 1 + i).filter (· ∉ numbers)).insertionSort (· ≤ ·) =
      (List.range (greatest - least + 1).toNat).map fun (i : Nat) => least + i := by
  have injective (start : Int) : Function.Injective fun (i : Nat) => start + (i : Int) :=
    fun i j same => by simpa using same
  have order := lower.2 greatest upper.1
  apply List.Perm.eq_of_sortedLE List.sortedLE_insertionSort
  · apply List.Pairwise.sortedLE
    rw [List.pairwise_map]
    exact List.pairwise_lt_range.imp fun less => by omega
  · refine (List.perm_insertionSort _ _).trans ?_
    rw [List.perm_ext_iff_of_nodup]
    · intro x
      simp only [List.mem_append, List.mem_filter, List.mem_map, List.mem_range,
        decide_eq_true_eq]
      constructor
      · rintro (inside | ⟨⟨i, below, rfl⟩, -⟩)
        · have first := lower.2 x inside
          have last := upper.2 x inside
          exact ⟨(x - least).toNat, by omega, by omega⟩
        · exact ⟨i + 1, by omega, by push_cast; ring⟩
      · rintro ⟨i, below, rfl⟩
        by_cases known : least + (i : Int) ∈ numbers
        · exact .inl known
        · refine .inr ⟨⟨i - 1, ?_, ?_⟩, known⟩
          · have notFirst : i ≠ 0 := by
              rintro rfl
              exact known (by simpa using lower.1)
            have notLast : least + (i : Int) ≠ greatest := fun same => known (same ▸ upper.1)
            omega
          · have notFirst : i ≠ 0 := by
              rintro rfl
              exact known (by simpa using lower.1)
            omega
    · rw [List.nodup_append]
      refine ⟨distinct, (List.nodup_range.map (injective _)).filter _, ?_⟩
      rintro x inside y missing rfl
      simp [inside] at missing
    · exact List.nodup_range.map (injective _)

/-- The indices of a line: consecutive in the blocked dimension, the same in the others. -/
def Contiguous (dim : Nat) (bil : List RegularIndex) : Prop :=
  ∃ base least, dim < base.length ∧ 1 < bil.length ∧
    bil = (List.range bil.length).map fun (i : Nat) => setIndex base dim (least + i)

section Filled

variable {dim : Nat} {base : RegularIndex} {bil : List RegularIndex}

/-- Two indices with one base differ in the blocked dimension, which they have. -/
theorem inside_of_bases (distinct : bil.Nodup) (more : 1 < bil.length)
    (bases : ∀ il ∈ bil, setIndex il dim 0 = base) : dim < base.length := by
  by_contra outside
  have same : ∀ il ∈ bil, il = base := by
    intro il member
    have length : il.length = base.length := by rw [← bases il member, length_setIndex]
    rw [← bases il member, setIndex, List.set_eq_of_length_le (by omega)]
  have equal : bil[0] = bil[1] := by
    rw [same _ (List.getElem_mem (by omega : 0 < bil.length)), same _ (List.getElem_mem more)]
  exact absurd ((distinct.getElem_inj_iff).mp equal) (by decide)

/-- Filling the holes of a group gives consecutive indices. -/
theorem fillStencilHole_contiguous (distinct : bil.Nodup) (more : 1 < bil.length)
    (bases : ∀ il ∈ bil, setIndex il dim 0 = base) :
    Contiguous dim (fillStencilHole dim bil) ∧
      ∀ il ∈ fillStencilHole dim bil, setIndex il dim 0 = base := by
  have inside := inside_of_bases distinct more bases
  obtain ⟨first, rest, rfl⟩ := List.exists_cons_of_length_pos (by omega : 0 < bil.length)
  have firstInside : dim < first.length := by
    rw [← bases first List.mem_cons_self, length_setIndex] at inside
    exact inside
  let idxSet := (first :: rest).map (getIndex · dim)
  let least := (rest.map (getIndex · dim)).foldl min (getIndex first dim)
  let greatest := (rest.map (getIndex · dim)).foldl max (getIndex first dim)
  let between := (List.range (greatest - least - 1).toNat).map fun (i : Nat) => least + 1 + i
  let all := first :: rest ++ (between.filter (· ∉ idxSet)).map (setIndex first dim ·)
  have lower : least ∈ idxSet ∧ ∀ x ∈ idxSet, least ≤ x :=
    List.min?_eq_some_iff.mp (rfl : idxSet.min? = some least)
  have upper : greatest ∈ idxSet ∧ ∀ x ∈ idxSet, x ≤ greatest :=
    List.max?_eq_some_iff.mp (rfl : idxSet.max? = some greatest)
  have ofBase : ∀ il ∈ all, setIndex il dim 0 = base := by
    intro il member
    rcases List.mem_append.mp member with own | copied
    · exact bases il own
    · obtain ⟨idx, -, rfl⟩ := List.mem_map.mp copied
      rw [setIndex_setIndex, bases first List.mem_cons_self]
  have keys : all.map (getIndex · dim) = idxSet ++ between.filter (· ∉ idxSet) := by
    rw [List.map_append, List.map_map]
    congr 1
    exact (List.map_congr_left fun idx _ => getIndex_setIndex firstInside idx).trans
      (List.map_id _)
  have keysDistinct : idxSet.Nodup := by
    refine distinct.map_on fun x xMember y yMember same => ?_
    rw [eq_setIndex_of_base (bases x xMember), eq_setIndex_of_base (bases y yMember), same]
  have sorted : (fillStencilHole dim (first :: rest)).map (getIndex · dim) =
      (List.range (greatest - least + 1).toNat).map fun (i : Nat) => least + i := by
    have mapped := List.map_insertionSort
      (fun x y => getIndex x dim ≤ getIndex y dim) (fun x y : Int => x ≤ y) (getIndex · dim) all
      fun _ _ _ _ => Iff.rfl
    rw [keys, sorted_filled keysDistinct lower upper] at mapped
    exact mapped
  have filledBase : ∀ il ∈ fillStencilHole dim (first :: rest), setIndex il dim 0 = base :=
    fun il member => ofBase il ((List.mem_insertionSort _).mp member)
  have filled : fillStencilHole dim (first :: rest) =
      (List.range (greatest - least + 1).toNat).map
        fun (i : Nat) => setIndex base dim (least + i) := by
    have rebuilt := congrArg (List.map (setIndex base dim)) sorted
    rw [List.map_map, List.map_map] at rebuilt
    refine Eq.trans ?_ rebuilt
    refine ((List.map_congr_left fun il member => ?_).trans (List.map_id _)).symm
    exact (eq_setIndex_of_base (filledBase il member)).symm
  have length : 1 < (fillStencilHole dim (first :: rest)).length := by
    have most : (first :: rest).length ≤ all.length := by simp [all]
    have same : (fillStencilHole dim (first :: rest)).length = all.length :=
      List.length_insertionSort _ _
    omega
  refine ⟨⟨base, least, inside, length, ?_⟩, filledBase⟩
  rw [filled, List.length_map, List.length_range]

end Filled

section Lines

variable {Grid : Type} {gr : GridRangeMap Grid} {dim : Nat}

theorem exists_group_of_mem_candidates {indices : List StencilIndexList}
    {bil : List RegularIndex} (member : bil ∈ findCandidateIndices indices dim) :
    ∃ group ∈ groupedIndices indices dim, 1 < group.2.length ∧
      bil = group.2.insertionSort (· ≤ ·) := by
  rw [findCandidateIndices, List.mem_map] at member
  obtain ⟨group, listed, rfl⟩ := member
  rw [List.mem_filter, List.mem_insertionSort] at listed
  exact ⟨group, listed.1, by simpa using listed.2, rfl⟩

/-- Every blocked line is contiguous. -/
theorem GridRangeMap.contiguous_of_mem {line : Grid × List RegularIndex}
    (member : line ∈ gr.lines dim) : Contiguous dim line.2 := by
  obtain ⟨range, -, inner⟩ := List.mem_flatMap.mp member
  obtain ⟨filled, listed, rfl⟩ := List.mem_map.mp inner
  obtain ⟨bil, candidate, rfl⟩ := List.mem_map.mp listed
  obtain ⟨group, known, more, rfl⟩ := exists_group_of_mem_candidates candidate
  obtain ⟨distinct, bases⟩ := (grouped_groupedIndices range.2).members group known
  exact (fillStencilHole_contiguous ((List.perm_insertionSort _ _).nodup_iff.mpr distinct)
    (by rwa [List.length_insertionSort])
    fun il inside => bases il ((List.mem_insertionSort _).mp inside)).1

/-- The lines of a grid share no index. -/
theorem GridRangeMap.eq_of_common {first second : Grid × List RegularIndex}
    (firstMember : first ∈ gr.lines dim) (secondMember : second ∈ gr.lines dim)
    (grid : first.1 = second.1) {il : RegularIndex}
    (inFirst : il ∈ first.2) (inSecond : il ∈ second.2) : first = second := by
  obtain ⟨range, rangeMember, inner⟩ := List.mem_flatMap.mp firstMember
  obtain ⟨filled, listed, rfl⟩ := List.mem_map.mp inner
  obtain ⟨bil, candidate, rfl⟩ := List.mem_map.mp listed
  obtain ⟨other, otherMember, otherInner⟩ := List.mem_flatMap.mp secondMember
  obtain ⟨otherFilled, otherListed, rfl⟩ := List.mem_map.mp otherInner
  obtain ⟨otherBil, otherCandidate, rfl⟩ := List.mem_map.mp otherListed
  have sameRange : range = other :=
    List.inj_on_of_nodup_map gr.keys rangeMember otherMember grid
  subst sameRange
  have base {bil : List RegularIndex} (candidate : bil ∈ findCandidateIndices range.2 dim)
      (inside : il ∈ fillStencilHole dim bil) : ∃ group ∈ groupedIndices range.2 dim,
        bil = group.2.insertionSort (· ≤ ·) ∧ setIndex il dim 0 = group.1 := by
    obtain ⟨group, known, more, rfl⟩ := exists_group_of_mem_candidates candidate
    obtain ⟨distinct, bases⟩ := (grouped_groupedIndices range.2).members group known
    refine ⟨group, known, rfl, ?_⟩
    exact (fillStencilHole_contiguous ((List.perm_insertionSort _ _).nodup_iff.mpr distinct)
      (by rwa [List.length_insertionSort])
      fun il inside => bases il ((List.mem_insertionSort _).mp inside)).2 il inside
  obtain ⟨group, known, rfl, own⟩ := base candidate inFirst
  obtain ⟨otherGroup, otherKnown, rfl, otherOwn⟩ := base otherCandidate inSecond
  have same := List.inj_on_of_nodup_map (grouped_groupedIndices range.2).keys known otherKnown
    (own.symm.trans otherOwn)
  rw [same]

end Lines

end Physis.Translator
