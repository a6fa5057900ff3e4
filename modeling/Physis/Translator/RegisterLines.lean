import Physis.Translator.RegisterBlocking

/-!
# The blocked lines of a loop

The accesses of the kernel decide how the element of each register is loaded.
The loads that the pass inserts have no grid: it succeeds exactly if no line
meets the leading load of an earlier one.
-/

namespace Physis.Translator

variable {Grid : Type} [DecidableEq Grid]

/-- The first get of the grid at the index, which its register replaces. -/
def GetSite.reads (gv : Grid) (index : RegularIndex) (site : GetSite Grid) : Bool :=
  site.isAt index && decide (site.gv = some gv)

/-- How the element at an index of a line is loaded. -/
def loadPeriodic (sites : List (GetSite Grid)) (gv : Grid) (dim : Nat)
    (bil : List RegularIndex) (il : RegularIndex) : Option Bool :=
  match sites.find? (·.reads gv il) with
  | some get => get.periodic
  | none => shouldGetPeriodic sites dim (getIndex il dim) bil

/-! ## One register -/

/-- A site after the gets at an index of the grid are replaced. -/
def GetSite.mark (gv : Grid) (index : RegularIndex) (reg : Register) (site : GetSite Grid) :
    GetSite Grid :=
  if site.reads gv index then { site with register := some reg } else site

/-- A site without the register in its place. -/
def GetSite.forget (site : GetSite Grid) : GetSite Grid :=
  { site with register := none }

theorem GetSite.forget_mark (gv : Grid) (index : RegularIndex) (reg : Register)
    (site : GetSite Grid) : (site.mark gv index reg).forget = site.forget := by
  rw [mark]
  split <;> rfl

/-- Replacing fails at a load without a grid, and else marks the gets of the grid. -/
theorem replaceGetWithReg_eq (gv : Grid) (index : RegularIndex) (reg : Register)
    (sites : List (GetSite Grid)) :
    replaceGetWithReg gv index reg sites =
      if ∃ site ∈ sites, site.isAt index = true ∧ site.gv = none then none
      else some (sites.map (·.mark gv index reg), sites.find? (·.reads gv index)) := by
  induction sites with
  | nil => simp [replaceGetWithReg]
  | cons site sites induction =>
      rw [replaceGetWithReg, induction]
      by_cases atIndex : site.isAt index = true
      · cases grid : site.gv with
        | none => simp [atIndex, isSameGrid, grid]
        | some other =>
            by_cases crash : ∃ site ∈ sites, site.isAt index = true ∧ site.gv = none
            · simp [atIndex, isSameGrid, grid, crash]
            · by_cases same : other = gv
              · simp [atIndex, isSameGrid, grid, crash, same, GetSite.mark, GetSite.reads]
              · simp [atIndex, isSameGrid, grid, crash, same, GetSite.mark, GetSite.reads]
      · by_cases crash : ∃ site ∈ sites, site.isAt index = true ∧ site.gv = none
        · simp [atIndex, crash]
        · simp [atIndex, crash, GetSite.mark, GetSite.reads]

/-! ## What does not depend on the registers -/

omit [DecidableEq Grid] in
@[simp]
theorem GetSite.isAt_forget (index : RegularIndex) (site : GetSite Grid) :
    site.forget.isAt index = site.isAt index := rfl

@[simp]
theorem GetSite.reads_forget (gv : Grid) (index : RegularIndex) (site : GetSite Grid) :
    site.forget.reads gv index = site.reads gv index := rfl

omit [DecidableEq Grid] in
theorem findGetAtIndex_forget (sites : List (GetSite Grid)) (index : RegularIndex) :
    findGetAtIndex (sites.map GetSite.forget) index =
      (findGetAtIndex sites index).map GetSite.forget := by
  simp [findGetAtIndex, List.find?_map, Function.comp_def]

omit [DecidableEq Grid] in
theorem shouldGetPeriodic_forget (sites : List (GetSite Grid)) (dim : Nat) (index : Int)
    (bil : List RegularIndex) :
    shouldGetPeriodic (sites.map GetSite.forget) dim index bil =
      shouldGetPeriodic sites dim index bil := by
  induction bil with
  | nil => rfl
  | cons il bil induction =>
      simp only [shouldGetPeriodic, findGetAtIndex_forget, induction]
      cases findGetAtIndex sites il <;> rfl

theorem loadPeriodic_forget (sites : List (GetSite Grid)) (gv : Grid) (dim : Nat)
    (bil : List RegularIndex) (il : RegularIndex) :
    loadPeriodic (sites.map GetSite.forget) gv dim bil il = loadPeriodic sites gv dim bil il := by
  simp only [loadPeriodic, List.find?_map, Function.comp_def, GetSite.reads_forget,
    shouldGetPeriodic_forget]
  cases sites.find? (·.reads gv il) <;> rfl

/-- Sites that differ in their registers only are loaded the same way. -/
theorem loadPeriodic_congr {left right : List (GetSite Grid)}
    (same : left.map GetSite.forget = right.map GetSite.forget) (gv : Grid) (dim : Nat)
    (bil : List RegularIndex) (il : RegularIndex) :
    loadPeriodic left gv dim bil il = loadPeriodic right gv dim bil il := by
  rw [← loadPeriodic_forget left, same, loadPeriodic_forget]

/-! ## A line -/

/-- A site after the registers of a line, from a slot on. -/
def GetSite.markLine (gv : Grid) (line : Nat) :
    (slot : Nat) → List RegularIndex → GetSite Grid → GetSite Grid
  | _, [], site => site
  | slot, il :: rest, site => (site.mark gv il ⟨line, slot⟩).markLine gv line (slot + 1) rest

theorem GetSite.forget_markLine (gv : Grid) (line slot : Nat) (bil : List RegularIndex)
    (site : GetSite Grid) : (site.markLine gv line slot bil).forget = site.forget := by
  induction bil generalizing slot site with
  | nil => rfl
  | cons il rest induction => rw [markLine, induction, forget_mark]

/-- A register of the line stands for the index of the get it replaces. -/
theorem GetSite.register_markLine {gv : Grid} {line slot : Nat} {bil : List RegularIndex}
    {site : GetSite Grid} {reg : Register}
    (replaced : (site.markLine gv line slot bil).register = some reg) :
    site.register = some reg ∨
      reg.line = line ∧ ∃ i il, reg.slot = slot + i ∧ bil[i]? = some il ∧
        site.reads gv il = true := by
  induction bil generalizing slot site with
  | nil => exact .inl replaced
  | cons il rest induction =>
      rw [markLine] at replaced
      rcases induction replaced with kept | ⟨own, i, other, position, listed, reads⟩
      · by_cases here : site.reads gv il = true
        · rw [mark, if_pos here] at kept
          obtain rfl := Option.some.inj kept
          exact .inr ⟨rfl, 0, il, rfl, rfl, here⟩
        · rw [mark, if_neg here] at kept
          exact .inl kept
      · refine .inr ⟨own, i + 1, other, by omega, listed, ?_⟩
        rwa [← reads_forget, forget_mark, reads_forget] at reads

/-- Every get of the grid at an index of the line gets a register. -/
theorem GetSite.register_markLine_ne_none {gv : Grid} {line slot : Nat}
    {bil : List RegularIndex} {site : GetSite Grid}
    (known : site.register ≠ none ∨ ∃ il ∈ bil, site.reads gv il = true) :
    (site.markLine gv line slot bil).register ≠ none := by
  induction bil generalizing slot site with
  | nil => simpa [markLine] using known
  | cons il rest induction =>
      rw [markLine]
      apply induction
      by_cases here : site.reads gv il = true
      · left
        simp [mark, here]
      · rw [mark, if_neg here]
        refine known.imp id ?_
        rintro ⟨other, member, reads⟩
        rcases List.mem_cons.mp member with rfl | later
        · exact absurd reads here
        · exact ⟨other, later, reads⟩

/-- No load without a grid is at an index of the line. -/
def LineClean (sites : List (GetSite Grid)) (bil : List RegularIndex) : Prop :=
  ∀ il ∈ bil, ∀ site ∈ sites, site.isAt il = true → site.gv ≠ none

/-- Only loads the pass has inserted have no offset. -/
def OffsetsKnown (sites : List (GetSite Grid)) : Prop :=
  ∀ site ∈ sites, site.gv ≠ none → site.periodic ≠ none

omit [DecidableEq Grid] in
theorem shouldGetPeriodic_isSome {sites : List (GetSite Grid)} {bil : List RegularIndex}
    (known : OffsetsKnown sites) (clean : LineClean sites bil) (dim : Nat) (index : Int) :
    (shouldGetPeriodic sites dim index bil).isSome := by
  induction bil with
  | nil => rfl
  | cons il bil induction =>
      have later := induction fun other member => clean other (List.mem_cons_of_mem _ member)
      rw [shouldGetPeriodic]
      split_ifs
      · rfl
      · cases found : findGetAtIndex sites il with
        | none => exact later
        | some get =>
            have member := List.mem_of_find?_eq_some found
            have offset := known get member
              (clean il List.mem_cons_self get member (by simpa using List.find?_some found))
            obtain ⟨periodic, value⟩ := Option.ne_none_iff_exists'.mp offset
            cases periodic
            · simpa [value] using later
            · simp [value]
      · exact later

theorem loadPeriodic_isSome {sites : List (GetSite Grid)} {bil : List RegularIndex}
    (known : OffsetsKnown sites) (clean : LineClean sites bil) (gv : Grid) (dim : Nat)
    (il : RegularIndex) : (loadPeriodic sites gv dim bil il).isSome := by
  rw [loadPeriodic]
  cases found : sites.find? (·.reads gv il) with
  | none => exact shouldGetPeriodic_isSome known clean dim _
  | some get =>
      have reads := List.find?_some found
      have own : get.gv = some gv := by
        simpa [GetSite.reads] using (Bool.and_eq_true_iff.mp reads).2
      have offset := known get (List.mem_of_find?_eq_some found) (by simp [own])
      simpa [Option.isSome_iff_ne_none] using offset

/-- A clean line marks its gets and loads each index as its accesses say. -/
theorem blockRegisters_of_clean {sites : List (GetSite Grid)} {bil rest : List RegularIndex}
    (known : OffsetsKnown sites) (clean : LineClean sites bil) (gv : Grid) (dim line slot : Nat)
    (within : rest ⊆ bil) :
    blockRegisters gv dim line bil slot rest sites =
      some (sites.map (·.markLine gv line slot rest),
        rest.map fun il => (il, (loadPeriodic sites gv dim bil il).getD false)) := by
  induction rest generalizing slot sites with
  | nil => simp [blockRegisters, GetSite.markLine]
  | cons il rest induction =>
      obtain ⟨own, others⟩ := List.cons_subset.mp within
      have noCrash : ¬ ∃ site ∈ sites, site.isAt il = true ∧ site.gv = none := by
        rintro ⟨site, member, atIndex, grid⟩
        exact clean il own site member atIndex grid
      let marked := sites.map (·.mark gv il ⟨line, slot⟩)
      have same : marked.map GetSite.forget = sites.map GetSite.forget := by
        simp [marked, GetSite.forget_mark]
      have kept {site : GetSite Grid} (member : site ∈ marked) :
          ∃ old ∈ sites, old.forget = site.forget := by
        obtain ⟨old, oldMember, rfl⟩ := List.mem_map.mp member
        exact ⟨old, oldMember, (GetSite.forget_mark _ _ _ _).symm⟩
      have markedKnown : OffsetsKnown marked := by
        intro site member
        obtain ⟨old, oldMember, equal⟩ := kept member
        have fields := GetSite.mk.inj equal
        rw [← fields.1, ← fields.2.2.1]
        exact known old oldMember
      have markedClean : LineClean marked bil := by
        intro other listed site member
        obtain ⟨old, oldMember, equal⟩ := kept member
        rw [← GetSite.isAt_forget, ← equal, GetSite.isAt_forget, ← (GetSite.mk.inj equal).1]
        exact clean other listed old oldMember
      obtain ⟨periodic, value⟩ := Option.isSome_iff_exists.mp
        (loadPeriodic_isSome known clean gv dim il)
      have loaded : (match sites.find? (·.reads gv il) with
          | some get => get.periodic
          | none => shouldGetPeriodic marked dim (getIndex il dim) bil) = some periodic := by
        rw [← shouldGetPeriodic_forget marked, same, shouldGetPeriodic_forget]
        exact value
      rw [blockRegisters, replaceGetWithReg_eq, if_neg noCrash]
      have later : (blockRegisters gv dim line bil (slot + 1) rest marked).bind
          (fun result => some (result.1, (il, periodic) :: result.2)) =
            some (sites.map (·.markLine gv line slot (il :: rest)),
              (il :: rest).map fun il => (il, (loadPeriodic sites gv dim bil il).getD false)) := by
        rw [induction markedKnown markedClean (slot + 1) others, Option.bind_some,
          List.map_cons, value]
        congr 2
        · simp [marked, GetSite.markLine]
        · simp [loadPeriodic_congr same]
      cases found : sites.find? (·.reads gv il) with
      | none =>
          rw [found] at loaded
          have guess : shouldGetPeriodic (sites.map (·.mark gv il ⟨line, slot⟩)) dim
              (getIndex il dim) bil = some periodic := loaded
          simpa only [Option.bind_eq_bind, Option.bind_some, guess] using later
      | some get =>
          rw [found] at loaded
          simpa only [Option.bind_eq_bind, Option.bind_some, loaded] using later

/-- A line that meets a load without a grid is not blocked. -/
theorem blockRegisters_of_crash {sites : List (GetSite Grid)} {bil rest : List RegularIndex}
    {gv : Grid} {dim line slot : Nat}
    (crash : ∃ il ∈ rest, ∃ site ∈ sites, site.isAt il = true ∧ site.gv = none) :
    blockRegisters gv dim line bil slot rest sites = none := by
  induction rest generalizing slot sites with
  | nil => simp at crash
  | cons il rest induction =>
      rw [blockRegisters, replaceGetWithReg_eq]
      split
      · rfl
      · rename_i noCrash
        have later : ∃ other ∈ rest, ∃ site ∈ sites.map (·.mark gv il ⟨line, slot⟩),
            site.isAt other = true ∧ site.gv = none := by
          obtain ⟨other, member, site, listed, atIndex, grid⟩ := crash
          rcases List.mem_cons.mp member with rfl | later
          · exact absurd ⟨site, listed, atIndex, grid⟩ noCrash
          · refine ⟨other, later, site, ?_, atIndex, grid⟩
            refine List.mem_map.mpr ⟨site, listed, ?_⟩
            simp [GetSite.mark, GetSite.reads, grid]
        have failed : blockRegisters gv dim line bil (slot + 1) rest
            (sites.map (·.mark gv il ⟨line, slot⟩)) = none := induction later
        cases found : sites.find? (·.reads gv il) <;> simp [failed]

/-! ## All lines -/

/-- The loads inserted for the lines, the last first. -/
def insertedLoads (lines : List (Grid × List RegularIndex)) : List (GetSite Grid) :=
  (lines.map fun line => leadingLoad line.2).reverse

/-- How the registers of a line are loaded in a loop with the gets. -/
def lineLoads (gets : List (KernelGet Grid)) (dim : Nat) (line : Grid × List RegularIndex) :
    BlockedLine Grid where
  gv := line.1
  loads := line.2.map fun il =>
    (il, (loadPeriodic (gets.map KernelGet.site) line.1 dim line.2 il).getD false)

/-- The loop after some of the lines. -/
structure Blocked (gets : List (KernelGet Grid)) (dim : Nat)
    (lines : List (Grid × List RegularIndex)) (loop : BlockedLoop Grid) : Prop where
  sites : loop.sites.map GetSite.forget = insertedLoads lines ++ gets.map KernelGet.site
  blocked : loop.lines = lines.map (lineLoads gets dim)
  sound : ∀ site ∈ loop.sites, ∀ reg, site.register = some reg →
    ∃ line il, lines[reg.line]? = some line ∧ line.2[reg.slot]? = some il ∧
      site.reads line.1 il = true
  complete : ∀ site ∈ loop.sites, ∀ line ∈ lines, ∀ il ∈ line.2,
    site.reads line.1 il = true → site.register ≠ none

theorem toRegular_setStencilIndexList (il : RegularIndex) :
    toRegular (setStencilIndexList il) = some il := by
  have regular : stencilIndexRegularOrder (setStencilIndexList il)
      (setStencilIndexList il).length = true := by
    simp only [stencilIndexRegularOrder, decide_true, Bool.true_and, List.all_eq_true,
      List.mem_range, decide_eq_true_eq]
    intro i below
    have inside : i < il.length := by simpa [setStencilIndexList] using below
    simp [StencilIndexList.at, setStencilIndexList, inside]
  rw [toRegular, if_pos regular]
  congr 1
  apply List.ext_getElem
  · simp [setStencilIndexList]
  · intro i _ _
    simp [setStencilIndexList]

omit [DecidableEq Grid] in
theorem isAt_leadingLoad {bil : List RegularIndex} {il : RegularIndex} :
    (leadingLoad bil : GetSite Grid).isAt il = true ↔ bil.getLastD [] = il := by
  simp only [GetSite.isAt, leadingLoad, Option.any_some, toRegular_setStencilIndexList,
    Option.some.injEq, decide_eq_true_eq]

section Lines

variable {gets : List (KernelGet Grid)} {dim : Nat} {lines : List (Grid × List RegularIndex)}
    {loop : BlockedLoop Grid}

omit [DecidableEq Grid] in
theorem mem_insertedLoads {site : GetSite Grid} :
    site ∈ insertedLoads lines ↔ ∃ line ∈ lines, leadingLoad line.2 = site := by
  simp [insertedLoads]

/-- What a site is apart from its register. -/
theorem Blocked.forget_mem (blocked : Blocked gets dim lines loop) {site : GetSite Grid}
    (member : site ∈ loop.sites) :
    site.forget ∈ insertedLoads lines ∨ site.forget ∈ gets.map KernelGet.site := by
  rw [← List.mem_append, ← blocked.sites]
  exact List.mem_map_of_mem member

theorem Blocked.offsetsKnown (blocked : Blocked gets dim lines loop) :
    OffsetsKnown loop.sites := by
  intro site member grid
  rcases blocked.forget_mem member with inserted | own
  · obtain ⟨line, -, equal⟩ := mem_insertedLoads.mp inserted
    exact absurd (congrArg GetSite.gv equal).symm grid
  · obtain ⟨get, -, equal⟩ := List.mem_map.mp own
    have offset := congrArg GetSite.periodic equal
    simp [KernelGet.site, GetSite.forget] at offset
    simp [← offset]

/-- A line is clean if it does not contain the leading index of an earlier one. -/
theorem Blocked.lineClean_iff (blocked : Blocked gets dim lines loop) (bil : List RegularIndex) :
    LineClean loop.sites bil ↔ ∀ earlier ∈ lines, earlier.2.getLastD [] ∉ bil := by
  constructor
  · intro clean earlier member listed
    have inserted : leadingLoad earlier.2 ∈ loop.sites.map GetSite.forget := by
      rw [blocked.sites]
      exact List.mem_append_left _ (mem_insertedLoads.mpr ⟨earlier, member, rfl⟩)
    obtain ⟨site, siteMember, equal⟩ := List.mem_map.mp inserted
    refine clean _ listed site siteMember ?_ (congrArg GetSite.gv equal)
    rw [← GetSite.isAt_forget, equal]
    exact isAt_leadingLoad.mpr rfl
  · intro fresh il listed site member atIndex grid
    rw [← GetSite.isAt_forget] at atIndex
    rcases blocked.forget_mem member with inserted | own
    · obtain ⟨line, lineMember, equal⟩ := mem_insertedLoads.mp inserted
      rw [← equal, isAt_leadingLoad] at atIndex
      exact fresh line lineMember (atIndex ▸ listed)
    · obtain ⟨get, -, equal⟩ := List.mem_map.mp own
      have offset := congrArg GetSite.gv equal
      rw [show site.forget.gv = site.gv from rfl, grid] at offset
      exact absurd offset (by simp [KernelGet.site])

omit [DecidableEq Grid] in
/-- Sites at none of the indices make no difference. -/
theorem shouldGetPeriodic_append {before sites : List (GetSite Grid)} {bil : List RegularIndex}
    (elsewhere : ∀ il ∈ bil, ∀ site ∈ before, site.isAt il ≠ true) (index : Int) :
    shouldGetPeriodic (before ++ sites) dim index bil =
      shouldGetPeriodic sites dim index bil := by
  induction bil with
  | nil => rfl
  | cons il bil induction =>
      have missed : before.find? (·.isAt il) = none :=
        List.find?_eq_none.mpr (elsewhere il List.mem_cons_self)
      have found : findGetAtIndex (before ++ sites) il = findGetAtIndex sites il := by
        rw [findGetAtIndex, List.find?_append, missed, Option.none_or, findGetAtIndex]
      simp only [shouldGetPeriodic, found,
        induction fun other member => elsewhere other (List.mem_cons_of_mem _ member)]

/-- The gets of the kernel decide: what the pass has inserted is at no index of the line. -/
theorem Blocked.loadPeriodic_eq (blocked : Blocked gets dim lines loop)
    {bil : List RegularIndex} (fresh : ∀ earlier ∈ lines, earlier.2.getLastD [] ∉ bil)
    (gv : Grid) (il : RegularIndex) :
    loadPeriodic loop.sites gv dim bil il =
      loadPeriodic (gets.map KernelGet.site) gv dim bil il := by
  have elsewhere : ∀ other ∈ bil, ∀ site ∈ insertedLoads lines, site.isAt other ≠ true := by
    intro other listed site member atIndex
    obtain ⟨line, lineMember, rfl⟩ := mem_insertedLoads.mp member
    exact fresh line lineMember (isAt_leadingLoad.mp atIndex ▸ listed)
  have missed : (insertedLoads lines).find? (·.reads gv il) = none := by
    rw [List.find?_eq_none]
    intro site member
    obtain ⟨line, -, rfl⟩ := mem_insertedLoads.mp member
    simp [GetSite.reads, leadingLoad]
  rw [← loadPeriodic_forget, blocked.sites]
  simp only [loadPeriodic, List.find?_append, missed, Option.none_or,
    shouldGetPeriodic_append elsewhere]

/-- Blocking one more line. -/
theorem Blocked.step (blocked : Blocked gets dim lines loop) {line : Grid × List RegularIndex}
    (fresh : ∀ earlier ∈ lines, earlier.2.getLastD [] ∉ line.2) :
    ∃ next, doRegisterBlockingOneLine dim loop line = some next ∧
      Blocked gets dim (lines ++ [line]) next := by
  have clean := (blocked.lineClean_iff line.2).mpr fresh
  have length : loop.lines.length = lines.length := by rw [blocked.blocked, List.length_map]
  have result := blockRegisters_of_clean blocked.offsetsKnown clean line.1 dim
    loop.lines.length 0 (List.Subset.refl line.2)
  refine ⟨_, by rw [doRegisterBlockingOneLine, result]; rfl, ?_, ?_, ?_, ?_⟩
  · have kept : (loop.sites.map (·.markLine line.1 loop.lines.length 0 line.2)).map
        GetSite.forget = loop.sites.map GetSite.forget := by
      simp [GetSite.forget_markLine]
    simp only [List.map_cons, kept, blocked.sites]
    simp [insertedLoads, leadingLoad, GetSite.forget]
  · simp [blocked.blocked, lineLoads, blocked.loadPeriodic_eq fresh]
  · intro site member reg replaced
    rcases List.mem_cons.mp member with rfl | old
    · simp [leadingLoad] at replaced
    · obtain ⟨before, beforeMember, rfl⟩ := List.mem_map.mp old
      rcases GetSite.register_markLine replaced with kept | ⟨own, i, il, slot, listed, reads⟩
      · obtain ⟨earlier, il, position, listed, reads⟩ :=
          blocked.sound before beforeMember reg kept
        have below := (List.getElem?_eq_some_iff.mp position).1
        refine ⟨earlier, il, (List.getElem?_append_left below).trans position, listed, ?_⟩
        rwa [← GetSite.reads_forget, GetSite.forget_markLine]
      · refine ⟨line, il, ?_, ?_, ?_⟩
        · rw [own, length, List.getElem?_concat_length]
        · rw [slot, zero_add, listed]
        · rwa [← GetSite.reads_forget, GetSite.forget_markLine]
  · intro site member earlier lineMember il listed reads
    rcases List.mem_cons.mp member with rfl | old
    · simp [leadingLoad, GetSite.reads] at reads
    · obtain ⟨before, beforeMember, rfl⟩ := List.mem_map.mp old
      rw [← GetSite.reads_forget, GetSite.forget_markLine, GetSite.reads_forget] at reads
      apply GetSite.register_markLine_ne_none
      rcases List.mem_append.mp lineMember with done | new
      · exact .inl (blocked.complete before beforeMember earlier done il listed reads)
      · rw [List.mem_singleton.mp new] at listed reads
        exact .inr ⟨il, listed, reads⟩

/-- A line that contains the leading index of an earlier one is not blocked. -/
theorem Blocked.step_none (blocked : Blocked gets dim lines loop)
    {line : Grid × List RegularIndex} {earlier : Grid × List RegularIndex}
    (member : earlier ∈ lines) (met : earlier.2.getLastD [] ∈ line.2) :
    doRegisterBlockingOneLine dim loop line = none := by
  have dirty : ¬ LineClean loop.sites line.2 := fun clean =>
    (blocked.lineClean_iff line.2).mp clean earlier member met
  simp only [LineClean, not_forall, not_not, exists_prop] at dirty
  rw [doRegisterBlockingOneLine, blockRegisters_of_crash dirty]
  rfl

/-- No line contains the leading index of an earlier one. -/
def LinesApart (lines : List (Grid × List RegularIndex)) : Prop :=
  lines.Pairwise fun earlier later => earlier.2.getLastD [] ∉ later.2

/-- The remaining lines are all blocked, or one of them is not. -/
theorem Blocked.run (blocked : Blocked gets dim lines loop)
    (apart : LinesApart lines) (rest : List (Grid × List RegularIndex)) :
    (LinesApart (lines ++ rest) → ∃ final,
      rest.foldlM (doRegisterBlockingOneLine dim) loop = some final ∧
        Blocked gets dim (lines ++ rest) final) ∧
    (¬ LinesApart (lines ++ rest) →
      rest.foldlM (doRegisterBlockingOneLine dim) loop = none) := by
  induction rest generalizing lines loop with
  | nil =>
      rw [List.append_nil]
      exact ⟨fun _ => ⟨loop, rfl, blocked⟩, fun met => absurd apart met⟩
  | cons line rest induction =>
      have joined : lines ++ line :: rest = (lines ++ [line]) ++ rest := by simp
      rw [joined, List.foldlM_cons]
      by_cases fresh : ∀ earlier ∈ lines, earlier.2.getLastD [] ∉ line.2
      · obtain ⟨next, stepped, later⟩ := blocked.step fresh
        have stillApart : LinesApart (lines ++ [line]) := by
          rw [LinesApart, List.pairwise_append]
          exact ⟨apart, List.pairwise_singleton _ _, fun earlier member other single => by
            rw [List.mem_singleton.mp single]
            exact fresh earlier member⟩
        rw [stepped]
        exact induction later stillApart
      · simp only [not_forall, not_not, exists_prop] at fresh
        obtain ⟨earlier, member, met⟩ := fresh
        constructor
        · intro whole
          rw [LinesApart, List.append_assoc, List.pairwise_append] at whole
          exact absurd met (whole.2.2 earlier member line (by simp))
        · intro _
          rw [blocked.step_none member met]
          rfl

end Lines

section Whole

variable {gets : List (KernelGet Grid)} {gr : GridRangeMap Grid} {dim : Nat}

/-- Before the first line. -/
theorem Blocked.start (gets : List (KernelGet Grid)) (dim : Nat) :
    Blocked gets dim [] ⟨gets.map KernelGet.site, []⟩ where
  sites := by simp [insertedLoads, GetSite.forget, KernelGet.site]
  blocked := rfl
  sound := by
    intro site member reg replaced
    obtain ⟨get, -, rfl⟩ := List.mem_map.mp member
    simp [KernelGet.site] at replaced
  complete := by simp

/-- The pass succeeds exactly if the lines are apart. -/
theorem doRegisterBlocking_eq_some_iff :
    (∃ loop, doRegisterBlocking gets gr dim = some loop) ↔ LinesApart (gr.lines dim) := by
  obtain ⟨succeeds, fails⟩ := (Blocked.start gets dim).run List.Pairwise.nil (gr.lines dim)
  constructor
  · rintro ⟨loop, result⟩
    by_contra met
    rw [doRegisterBlocking, fails met] at result
    cases result
  · intro apart
    obtain ⟨final, result, -⟩ := succeeds apart
    exact ⟨final, result⟩

/-- What the pass yields. -/
theorem blocked_of_doRegisterBlocking {loop : BlockedLoop Grid}
    (result : doRegisterBlocking gets gr dim = some loop) :
    Blocked gets dim (gr.lines dim) loop := by
  have apart := doRegisterBlocking_eq_some_iff.mp ⟨loop, result⟩
  obtain ⟨final, same, blocked⟩ :=
    ((Blocked.start gets dim).run List.Pairwise.nil (gr.lines dim)).1 apart
  rw [doRegisterBlocking, same] at result
  exact Option.some.inj result ▸ blocked

end Whole

end Physis.Translator
