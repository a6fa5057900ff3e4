import Physis.Runtime.PeriodicOffsets
import Physis.Translator.RegisterLines

/-!
# The values in the registers

In each iteration a register holds the element that a load brought into the
line: an initial load, or the load of the leading element in this iteration or
an earlier one.  The load may be periodic where the replaced get is not, or the
other way round.
-/

namespace Physis.Translator

open Physis.Library
open Physis.Library.RowMajor
open Physis.Runtime

/-! ## The emitted statements -/

/-- The extents and the contents of the grids. -/
structure GridValues (Grid α : Type) where
  numDims : Grid → Nat
  dim : Grid → IndexArray
  contents : Grid → Int → α

/-- The offset an access computes. -/
def accessOffset (numDims : Nat) (dim : IndexArray) (periodic : Bool) (indices : IndexArray) :
    Int :=
  linear dim (if periodic then remainders dim indices else indices) numDims

/-- The value of a `PSGridGet` or a `PSGridGetPeriodic`. -/
def GridValues.get {Grid α : Type} (grids : GridValues Grid α) (gv : Grid) (periodic : Bool)
    (indices : IndexArray) : α :=
  grids.contents gv (accessOffset (grids.numDims gv) (grids.dim gv) periodic indices)

/-- `OffsetIndices` -/
def offsetIndices (indices : IndexArray) (offset : RegularIndex) : IndexArray :=
  fun d => indices d + getIndex offset d

/-- The index variables where the loop variable has a value. -/
def loopIndices (index : IndexArray) (dim : Nat) (loopVar : Int) : IndexArray :=
  Function.update index dim loopVar

/-- A statement put at the start of the loop. -/
inductive MoveStmt where
  | move (dst src : Nat)
  | load (dst : Nat) (index : RegularIndex) (isPeriodic : Bool)

/-- `move_stmts` of a line, in the order of the loop body -/
def moveStmts (loads : List (RegularIndex × Bool)) : List MoveStmt :=
  (List.range loads.length).map fun i =>
    if i < loads.length - 1 then .move i (i + 1)
    else .load i (loads.getD i ([], false)).1 (loads.getD i ([], false)).2

section Execution

variable {Grid α : Type} (grids : GridValues Grid α) (index : IndexArray) (dim : Nat)

/-- The element a register of the line is loaded with. -/
def lineLoad (line : BlockedLine Grid) (slot : Nat) (loopVar : Int) : α :=
  let load := line.loads.getD slot ([], false)
  grids.get line.gv load.2 (offsetIndices (loopIndices index dim loopVar) load.1)

/-- The registers before the loop; the first is not initialised. -/
def initialRegisters (line : BlockedLine Grid) (start : Int) : Nat → Option α
  | 0 => none
  | i + 1 =>
      if i < line.loads.length - 1 then some (lineLoad grids index dim line i start) else none

def MoveStmt.exec (gv : Grid) (loopVar : Int) (registers : Nat → Option α) :
    MoveStmt → Nat → Option α
  | move dst src => Function.update registers dst (registers src)
  | load dst il isPeriodic => Function.update registers dst
      (some (grids.get gv isPeriodic (offsetIndices (loopIndices index dim loopVar) il)))

/-- The registers after the moves of an iteration. -/
def moveRegisters (line : BlockedLine Grid) (loopVar : Int) (registers : Nat → Option α) :
    Nat → Option α :=
  (moveStmts line.loads).foldl
    (fun registers stmt => stmt.exec grids index dim line.gv loopVar registers) registers

/-- The registers in an iteration of the loop, counted from zero. -/
def registersAt (line : BlockedLine Grid) (start : Int) : Nat → Nat → Option α
  | 0 => moveRegisters grids index dim line start (initialRegisters grids index dim line start)
  | k + 1 => moveRegisters grids index dim line (start + (k + 1 : Nat)) (registersAt line start k)

end Execution

/-! ## Moving the registers -/

section Moves

variable {Grid α : Type} (grids : GridValues Grid α) (index : IndexArray) (dim : Nat)

/-- The first statements move the first registers and leave the others. -/
theorem foldl_moves (line : BlockedLine Grid) (loopVar : Int) (registers : Nat → Option α)
    (count : Nat) :
    (((List.range count).map fun i =>
      if i < line.loads.length - 1 then MoveStmt.move i (i + 1)
      else .load i (line.loads.getD i ([], false)).1 (line.loads.getD i ([], false)).2).foldl
        (fun registers stmt => stmt.exec grids index dim line.gv loopVar registers) registers) =
      fun slot =>
        if slot < count then
          if slot < line.loads.length - 1 then registers (slot + 1)
          else some (lineLoad grids index dim line slot loopVar)
        else registers slot := by
  induction count with
  | zero => simp
  | succ count induction =>
      rw [List.range_succ, List.map_append, List.foldl_append, induction]
      funext slot
      rcases lt_trichotomy slot count with before | rfl | after
      · by_cases moved : count < line.loads.length - 1 <;>
          simp [MoveStmt.exec, moved, before, before.ne, Nat.lt_succ_of_lt before]
      · by_cases moved : slot < line.loads.length - 1 <;>
          simp [MoveStmt.exec, moved, lineLoad]
      · by_cases moved : count < line.loads.length - 1 <;>
          simp [MoveStmt.exec, moved, after.ne', not_lt.mpr after.le,
            show ¬ slot < count + 1 by omega]

/-- An iteration moves every register by one and loads the last. -/
theorem moveRegisters_apply (line : BlockedLine Grid) (loopVar : Int)
    (registers : Nat → Option α) {slot : Nat} (below : slot < line.loads.length) :
    moveRegisters grids index dim line loopVar registers slot =
      if slot < line.loads.length - 1 then registers (slot + 1)
      else some (lineLoad grids index dim line slot loopVar) := by
  rw [moveRegisters, moveStmts, foldl_moves]
  simp only [if_pos below]

end Moves

/-! ## What a register holds -/

section Registers

variable {Grid α : Type} {grids : GridValues Grid α} {index : IndexArray} {dim : Nat}

/-- An element of a contiguous line is the one at another slot in an earlier iteration. -/
theorem offsetIndices_shift {bil : List RegularIndex} (contiguous : Contiguous dim bil)
    {i j : Nat} (order : i ≤ j) (below : j < bil.length) (loopVar : Int) :
    offsetIndices (loopIndices index dim loopVar) (bil.getD j []) =
      offsetIndices (loopIndices index dim (loopVar + (j - i : Nat))) (bil.getD i []) := by
  obtain ⟨base, least, inside, -, listed⟩ := contiguous
  have entry {n : Nat} (less : n < bil.length) :
      bil.getD n [] = setIndex base dim (least + n) := by
    rw [listed, List.getD_eq_getElem?_getD, List.getElem?_map, List.getElem?_range (by simpa)]
    rfl
  rw [entry below, entry (order.trans_lt below)]
  funext d
  by_cases same : d = dim
  · subst same
    simp only [offsetIndices, loopIndices, Function.update_self, getIndex_setIndex inside]
    omega
  · have other (x : Int) : getIndex (setIndex base dim x) d = getIndex base d := by
      simp [getIndex, setIndex, List.getElem?_set_ne (Ne.symm same)]
    simp only [offsetIndices, loopIndices, Function.update_of_ne same, other]

/-- The slot whose load brought in the element a slot holds in an iteration. -/
def broughtInBy (count slot iteration : Nat) : Nat :=
  min (slot + iteration) (count - 1)

/-- In every iteration a slot holds its element, as the load that brought it in reads it. -/
theorem registersAt_eq {line : BlockedLine Grid}
    (contiguous : Contiguous dim (line.loads.map Prod.fst)) (start : Int) {k slot : Nat}
    (below : slot < line.loads.length) :
    registersAt grids index dim line start k slot =
      some (grids.get line.gv
        (line.loads.getD (broughtInBy line.loads.length slot k) ([], false)).2
        (offsetIndices (loopIndices index dim (start + k))
          (line.loads.getD slot ([], false)).1)) := by
  have first (n : Nat) : (line.loads.getD n ([], false)).1 =
      (line.loads.map Prod.fst).getD n [] := by
    simp only [List.getD_eq_getElem?_getD, List.getElem?_map]
    cases line.loads[n]? <;> rfl
  induction k generalizing slot with
  | zero =>
      rw [registersAt, moveRegisters_apply _ _ _ _ _ _ below]
      split
      · rename_i moved
        have own : broughtInBy line.loads.length slot 0 = slot := by
          rw [broughtInBy]
          omega
        rw [initialRegisters, if_pos moved, own]
        simp [lineLoad]
      · have own : broughtInBy line.loads.length slot 0 = slot := by
          rw [broughtInBy]
          omega
        rw [own]
        simp [lineLoad]
  | succ k induction =>
      rw [registersAt, moveRegisters_apply _ _ _ _ _ _ below]
      split
      · rename_i moved
        have next : slot + 1 < line.loads.length := by omega
        have same : broughtInBy line.loads.length (slot + 1) k =
            broughtInBy line.loads.length slot (k + 1) := by
          rw [broughtInBy, broughtInBy]
          omega
        have shifted := @offsetIndices_shift index dim _ contiguous slot (slot + 1)
          (Nat.le_succ _) (by simpa using next) (start + k)
        rw [induction next, same, first, first, shifted]
        congr 4
        push_cast
        omega
      · have own : broughtInBy line.loads.length slot (k + 1) = slot := by
          rw [broughtInBy]
          omega
        rw [own]
        simp [lineLoad]

end Registers

/-! ## The replaced gets -/

section Values

variable {Grid : Type} [DecidableEq Grid]

/--
The register in the place of a get holds what the get reads, in every iteration
in which the get may be executed: it is periodic or its element is in the grid.
-/
def RegistersHold {α : Type} (loop : BlockedLoop Grid) (grids : GridValues Grid α)
    (index : IndexArray) (dim : Nat) (start : Int) (iterations : Nat) : Prop :=
  ∀ k < iterations, ∀ site ∈ loop.sites, ∀ reg, site.register = some reg →
    ∀ gv il periodic, site.reads gv il = true → site.periodic = some periodic →
      (periodic = true ∨ InBox (grids.numDims gv) (grids.dim gv)
        (offsetIndices (loopIndices index dim (start + k)) il)) →
      ∃ line, loop.lines[reg.line]? = some line ∧
        registersAt grids index dim line start k reg.slot =
          some (grids.get gv periodic (offsetIndices (loopIndices index dim (start + k)) il))

/-- The same element is read with and without wrapping around. -/
def SameElement (numDims : Nat) (dim indices : IndexArray) : Prop :=
  accessOffset numDims dim true indices = accessOffset numDims dim false indices

/-- In the grid nothing wraps around. -/
theorem sameElement_of_inBox {numDims : Nat} {dim indices : IndexArray}
    (inside : InBox numDims dim indices) : SameElement numDims dim indices := by
  rw [SameElement, accessOffset, accessOffset]
  refine linear_congr (fun _ _ => rfl) fun d below => ?_
  obtain ⟨lower, upper⟩ := inside d below
  rw [if_pos rfl, if_neg (by decide), remainders, Int.tmod_eq_emod_of_nonneg (by omega),
    Int.add_emod_right, Int.emod_eq_of_lt lower upper]

/--
Whenever a periodic get has a register, the load that brought in its element is
periodic as well, or the element is the same without wrapping around.
-/
def PeriodicLoads (gets : List (KernelGet Grid)) (gr : GridRangeMap Grid)
    (numDims : Grid → Nat) (extents : Grid → IndexArray) (index : IndexArray) (dim : Nat)
    (start : Int) (iterations : Nat) : Prop :=
  ∀ line ∈ gr.lines dim, ∀ get ∈ gets, get.periodic = true → get.gv = line.1 →
    ∀ slot il, line.2[slot]? = some il → toRegular get.indexList = some il →
      ∀ k < iterations,
        loadPeriodic (gets.map KernelGet.site) line.1 dim line.2
            (line.2.getD (broughtInBy line.2.length slot k) []) = some true ∨
          SameElement (numDims line.1) (extents line.1)
            (offsetIndices (loopIndices index dim (start + k)) il)

variable {gets : List (KernelGet Grid)} {gr : GridRangeMap Grid} {dim : Nat}
    {loop : BlockedLoop Grid}

/-- The line and the slot of a register. -/
theorem Blocked.exists_line (blocked : Blocked gets dim (gr.lines dim) loop)
    {site : GetSite Grid} (member : site ∈ loop.sites) {reg : Register}
    (replaced : site.register = some reg) :
    ∃ line ∈ gr.lines dim, ∃ il, loop.lines[reg.line]? = some (lineLoads gets dim line) ∧
      line.2[reg.slot]? = some il ∧ site.reads line.1 il = true := by
  obtain ⟨line, il, position, listed, reads⟩ := blocked.sound site member reg replaced
  refine ⟨line, List.mem_of_getElem? position, il, ?_, listed, reads⟩
  rw [blocked.blocked, List.getElem?_map, position]
  rfl

theorem lineLoads_fst (line : Grid × List RegularIndex) :
    (lineLoads gets dim line).loads.map Prod.fst = line.2 := by
  simp [lineLoads, Function.comp_def]

theorem lineLoads_getD {line : Grid × List RegularIndex} {slot : Nat} {il : RegularIndex}
    (listed : line.2[slot]? = some il) :
    (lineLoads gets dim line).loads.getD slot ([], false) =
      (il, (loadPeriodic (gets.map KernelGet.site) line.1 dim line.2 il).getD false) := by
  simp [lineLoads, List.getD_eq_getElem?_getD, listed]

/-- What the register of a slot holds, in terms of the kernel's gets. -/
theorem registersAt_lineLoads {α : Type} (grids : GridValues Grid α) (index : IndexArray)
    {line : Grid × List RegularIndex} (member : line ∈ gr.lines dim) {slot : Nat}
    {il : RegularIndex} (listed : line.2[slot]? = some il) (start : Int) (k : Nat) :
    registersAt grids index dim (lineLoads gets dim line) start k slot =
      some (grids.get line.1
        ((loadPeriodic (gets.map KernelGet.site) line.1 dim line.2
          (line.2.getD (broughtInBy line.2.length slot k) [])).getD false)
        (offsetIndices (loopIndices index dim (start + k)) il)) := by
  have below : slot < line.2.length := (List.getElem?_eq_some_iff.mp listed).1
  have length : (lineLoads gets dim line).loads.length = line.2.length := by
    simp [lineLoads]
  have brought : broughtInBy line.2.length slot k < line.2.length := by
    rw [broughtInBy]
    omega
  have contiguous : Contiguous dim ((lineLoads gets dim line).loads.map Prod.fst) := by
    rw [lineLoads_fst]
    exact gr.contiguous_of_mem member
  rw [registersAt_eq contiguous start (by rwa [length]), length,
    lineLoads_getD (List.getElem?_eq_getElem brought), lineLoads_getD listed]
  simp [lineLoads, brought]

theorem GetSite.reads_iff {gv : Grid} {il : RegularIndex} {site : GetSite Grid} :
    site.reads gv il = true ↔
      (∃ sil, site.indexList = some sil ∧ toRegular sil = some il) ∧ site.gv = some gv := by
  simp [GetSite.reads, GetSite.isAt, Option.any_eq_true]

theorem GetSite.reads_unique {gv other : Grid} {il otherIl : RegularIndex}
    {site : GetSite Grid} (reads : site.reads gv il = true)
    (otherReads : site.reads other otherIl = true) : gv = other ∧ il = otherIl := by
  obtain ⟨⟨sil, listed, regular⟩, grid⟩ := reads_iff.mp reads
  obtain ⟨⟨otherSil, otherListed, otherRegular⟩, otherGrid⟩ := reads_iff.mp otherReads
  have sameList := Option.some.inj (listed.symm.trans otherListed)
  subst sameList
  exact ⟨Option.some.inj (grid.symm.trans otherGrid),
    Option.some.inj (regular.symm.trans otherRegular)⟩

/-- A site with a grid is a get of the kernel. -/
theorem Blocked.exists_get {lines : List (Grid × List RegularIndex)}
    (blocked : Blocked gets dim lines loop) {site : GetSite Grid} (member : site ∈ loop.sites)
    {gv : Grid} (grid : site.gv = some gv) : ∃ get ∈ gets, get.site = site.forget := by
  rcases blocked.forget_mem member with inserted | own
  · obtain ⟨line, -, equal⟩ := mem_insertedLoads.mp inserted
    have noGrid : site.gv = none := (congrArg GetSite.gv equal).symm
    rw [noGrid] at grid
    cases grid
  · exact List.mem_map.mp own

/-- Each get of the kernel has its site. -/
theorem Blocked.exists_site {lines : List (Grid × List RegularIndex)}
    (blocked : Blocked gets dim lines loop) {get : KernelGet Grid} (member : get ∈ gets) :
    ∃ site ∈ loop.sites, site.forget = get.site := by
  have listed : get.site ∈ loop.sites.map GetSite.forget := by
    rw [blocked.sites]
    exact List.mem_append_right _ (List.mem_map_of_mem member)
  exact List.mem_map.mp listed

/-- The slots of a contiguous line have different indices. -/
theorem Contiguous.nodup {bil : List RegularIndex} (contiguous : Contiguous dim bil) :
    bil.Nodup := by
  obtain ⟨base, least, inside, -, listed⟩ := contiguous
  rw [listed]
  refine List.nodup_range.map fun i j same => ?_
  have equal := congrArg (getIndex · dim) same
  simp only [getIndex_setIndex inside] at equal
  omega

omit [DecidableEq Grid] in
theorem GridValues.get_congr {α : Type} (grids : GridValues Grid α) {gv : Grid}
    {indices : IndexArray} (same : SameElement (grids.numDims gv) (grids.dim gv) indices)
    (first second : Bool) : grids.get gv first indices = grids.get gv second indices := by
  have equal : ∀ periodic, accessOffset (grids.numDims gv) (grids.dim gv) periodic indices =
      accessOffset (grids.numDims gv) (grids.dim gv) false indices := by
    intro periodic
    cases periodic
    · rfl
    · exact same
  rw [get, get, equal first, equal second]

/--
The pass yields a loop whose registers hold what the replaced gets read, for all
contents of the grids, exactly if the lines are apart and elements that wrap
around are brought in by periodic loads.
-/
theorem registersHold_iff {α : Type} [Nontrivial α] (numDims : Grid → Nat)
    (extents : Grid → IndexArray) (index : IndexArray) (start : Int) (iterations : Nat) :
    (∃ loop, doRegisterBlocking gets gr dim = some loop ∧
      ∀ contents : Grid → Int → α,
        RegistersHold loop ⟨numDims, extents, contents⟩ index dim start iterations) ↔
    LinesApart (gr.lines dim) ∧
      PeriodicLoads gets gr numDims extents index dim start iterations := by
  constructor
  · rintro ⟨loop, result, holds⟩
    have blocked := blocked_of_doRegisterBlocking result
    refine ⟨doRegisterBlocking_eq_some_iff.mp ⟨loop, result⟩, ?_⟩
    intro line lineMember get getMember periodic grid slot il listed regular k below
    by_contra neither
    obtain ⟨plainLoad, wraps⟩ := not_or.mp neither
    obtain ⟨site, siteMember, own⟩ := blocked.exists_site getMember
    have siteGrid : site.gv = some line.1 := (congrArg GetSite.gv own).trans (by
      rw [KernelGet.site, grid])
    have sitePeriodic : site.periodic = some true := (congrArg GetSite.periodic own).trans (by
      rw [KernelGet.site, periodic])
    have reads : site.reads line.1 il = true :=
      GetSite.reads_iff.mpr ⟨⟨get.indexList, congrArg GetSite.indexList own, regular⟩, siteGrid⟩
    obtain ⟨reg, replaced⟩ := Option.ne_none_iff_exists'.mp
      (blocked.complete site siteMember line lineMember il (List.mem_of_getElem? listed) reads)
    obtain ⟨other, otherMember, otherIl, position, otherListed, otherReads⟩ :=
      blocked.exists_line siteMember replaced
    obtain ⟨sameGrid, rfl⟩ := GetSite.reads_unique reads otherReads
    obtain rfl := gr.eq_of_common lineMember otherMember sameGrid
      (List.mem_of_getElem? listed) (List.mem_of_getElem? otherListed)
    have sameSlot : reg.slot = slot := by
      obtain ⟨otherBelow, otherAt⟩ := List.getElem?_eq_some_iff.mp otherListed
      obtain ⟨slotBelow, slotAt⟩ := List.getElem?_eq_some_iff.mp listed
      exact ((gr.contiguous_of_mem lineMember).nodup.getElem_inj_iff).mp
        (otherAt.trans slotAt.symm)
    obtain ⟨here, elsewhere, distinct⟩ := exists_pair_ne α
    -- Contents that tell the wrapped element from all others.
    let contents : Grid → Int → α := fun _ offset =>
      if offset = accessOffset (numDims line.1) (extents line.1) true
          (offsetIndices (loopIndices index dim (start + k)) il) then here else elsewhere
    obtain ⟨blockedLine, found, value⟩ := holds contents k below site siteMember reg replaced
      line.1 il true reads sitePeriodic (.inl rfl)
    rw [position, Option.some.injEq] at found
    subst found
    rw [registersAt_lineLoads _ index lineMember otherListed, sameSlot, Option.some.injEq] at value
    have plain : (loadPeriodic (gets.map KernelGet.site) line.1 dim line.2
        (line.2.getD (broughtInBy line.2.length slot k) [])).getD false = false := by
      cases load : loadPeriodic (gets.map KernelGet.site) line.1 dim line.2
          (line.2.getD (broughtInBy line.2.length slot k) []) with
      | none => rfl
      | some flag =>
          rw [load] at plainLoad
          simpa using plainLoad
    rw [plain] at value
    simp only [GridValues.get, contents, if_true, if_neg (Ne.symm wraps)] at value
    exact distinct value.symm
  · rintro ⟨apart, periodicLoads⟩
    obtain ⟨loop, result⟩ := doRegisterBlocking_eq_some_iff.mpr apart
    have blocked := blocked_of_doRegisterBlocking result
    refine ⟨loop, result, fun contents => ?_⟩
    intro k below site member reg replaced gv il periodic reads flag executable
    obtain ⟨line, lineMember, own, position, listed, ownReads⟩ :=
      blocked.exists_line member replaced
    obtain ⟨rfl, rfl⟩ := GetSite.reads_unique ownReads reads
    refine ⟨_, position, ?_⟩
    rw [registersAt_lineLoads _ index lineMember listed]
    congr 1
    cases periodic with
    | true =>
        obtain ⟨get, getMember, equal⟩ :=
          blocked.exists_get member (GetSite.reads_iff.mp reads).2
        obtain ⟨sil, siteIndex, regular⟩ := (GetSite.reads_iff.mp reads).1
        have getPeriodic : get.periodic = true := by
          have same := congrArg GetSite.periodic equal
          rw [show site.forget.periodic = site.periodic from rfl, flag] at same
          exact Option.some.inj same
        have getGrid : get.gv = line.1 := by
          have same := congrArg GetSite.gv equal
          rw [show site.forget.gv = site.gv from rfl, (GetSite.reads_iff.mp reads).2] at same
          exact Option.some.inj same
        have getIndexList : get.indexList = sil := by
          have same := congrArg GetSite.indexList equal
          rw [show site.forget.indexList = site.indexList from rfl, siteIndex] at same
          exact Option.some.inj same
        rcases periodicLoads line lineMember get getMember getPeriodic getGrid reg.slot own listed
          (getIndexList ▸ regular) k below with load | same
        · rw [load, Option.getD_some]
        · exact GridValues.get_congr _ same _ _
    | false =>
        have inside := executable.resolve_left Bool.false_ne_true
        exact GridValues.get_congr _ (sameElement_of_inBox inside) _ _

end Values

/-! ## A boundary condition with two gets -/

/-- The accesses `x` and `x + 1` of a grid with one dimension. -/
def rowRange : GridRangeMap Unit :=
  ⟨[((), [[⟨1, 0⟩], [⟨1, 1⟩]])], by simp⟩

/-- `x`, and `x + 1` with `PSGridGetPeriodic` -/
def periodicRow : List (KernelGet Unit) :=
  [⟨(), [⟨1, 0⟩], false⟩, ⟨(), [⟨1, 1⟩], true⟩]

/-- `x`, and `x + 1` with `PSGridGet` before the last cell and `PSGridGetPeriodic` there -/
def guardedRow : List (KernelGet Unit) :=
  [⟨(), [⟨1, 0⟩], false⟩, ⟨(), [⟨1, 1⟩], false⟩, ⟨(), [⟨1, 1⟩], true⟩]

/-- In a row of four cells the periodic loads bring in the periodic elements. -/
theorem registersHold_periodicRow :
    ∃ loop, doRegisterBlocking periodicRow rowRange 0 = some loop ∧
      ∀ contents : Unit → Int → Bool,
        RegistersHold loop ⟨fun _ => 1, fun _ _ => 4, contents⟩ (fun _ => 0) 0 0 4 := by
  have lines : rowRange.lines 0 = [((), [[0], [1]])] := by decide
  refine (registersHold_iff (fun _ => 1) (fun _ _ => 4) (fun _ => 0) 0 4).mpr ⟨?_, ?_⟩
  · rw [LinesApart, lines]
    exact List.pairwise_singleton _ _
  · intro line lineMember get getMember periodic grid slot il listed regular k below
    rw [lines, List.mem_singleton] at lineMember
    subst lineMember
    have last : il = [1] := by
      simp only [periodicRow, List.mem_cons, List.not_mem_nil, or_false] at getMember
      rcases getMember with rfl | rfl
      · exact absurd periodic (by decide)
      · exact (Option.some.inj regular).symm
    have leading : slot = 1 := by
      rcases slot with _ | _ | slot
      · simp [last] at listed
      · rfl
      · simp at listed
    left
    have brought : broughtInBy 2 slot k = 1 := by
      rw [leading, broughtInBy]
      omega
    show loadPeriodic (periodicRow.map KernelGet.site) () 0 [[0], [1]]
      ([[0], [1]].getD (broughtInBy 2 slot k) []) = some true
    rw [brought]
    decide

/-- The plain get decides the load for both, which reads behind the row of four cells. -/
theorem registersHold_guardedRow :
    ¬ ∃ loop, doRegisterBlocking guardedRow rowRange 0 = some loop ∧
      ∀ contents : Unit → Int → Bool,
        RegistersHold loop ⟨fun _ => 1, fun _ _ => 4, contents⟩ (fun _ => 0) 0 0 4 := by
  rintro ⟨loop, result, holds⟩
  have computed : doRegisterBlocking guardedRow rowRange 0 = some
      ⟨[leadingLoad [[0], [1]], ⟨some (), some [⟨1, 0⟩], some false, some ⟨0, 0⟩⟩,
        ⟨some (), some [⟨1, 1⟩], some false, some ⟨0, 1⟩⟩,
        ⟨some (), some [⟨1, 1⟩], some true, some ⟨0, 1⟩⟩],
        [⟨(), [([0], false), ([1], false)]⟩]⟩ := rfl
  obtain rfl := Option.some.inj (result.symm.trans computed)
  obtain ⟨line, found, value⟩ := holds (fun _ offset => offset == 0) 3 (by decide)
    ⟨some (), some [⟨1, 1⟩], some true, some ⟨0, 1⟩⟩ (by simp) ⟨0, 1⟩ rfl () [1] true
    (by decide) rfl (.inl rfl)
  obtain rfl := Option.some.inj found
  revert value
  decide

end Physis.Translator
