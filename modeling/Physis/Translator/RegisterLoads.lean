import Physis.Translator.KernelSummaries
import Physis.Translator.RegisterValues

/-!
# The loads of a blocked loop

A blocked line is loaded whether or not the gets it replaces are executed: all
but the leading element before the loop, the leading element in each iteration.
These loads can leave the grid where no read of the kernel does.
-/

namespace Physis.Translator

open Physis.Library
open Physis.Library.RowMajor
open Physis.Runtime

/-- An executed read of a grid. -/
structure GridRead (Grid : Type) where
  gv : Grid
  periodic : Bool
  indices : IndexArray

section Reads

variable {Grid : Type} (index : IndexArray) (dim : Nat) (start : Int)

/-- The read of a get where the loop variable has a value. -/
def KernelGet.read (loopVar : Int) (get : KernelGet Grid) : GridRead Grid where
  gv := get.gv
  periodic := get.periodic
  indices := fun d => (StencilIndexList.at get.indexList d).value fun v =>
    loopIndices index dim loopVar (v - 1)

/--
The reads of the loop before the pass.  A get is executed in an iteration or
not, as the conditions around it say.
-/
def originalReads (gets : List (KernelGet Grid)) (executed : (iteration get : Nat) → Bool)
    (iterations : Nat) : List (GridRead Grid) :=
  (List.range iterations).flatMap fun (k : Nat) =>
    (gets.zipIdx.filter fun (_, i) => executed k i).map fun (get, _) =>
      get.read index dim (start + k)

/-- The load of a register of a line. -/
def BlockedLine.read (loopVar : Int) (gv : Grid) (load : RegularIndex × Bool) : GridRead Grid where
  gv := gv
  periodic := load.2
  indices := offsetIndices (loopIndices index dim loopVar) load.1

/-- The loads before the loop. -/
def initialLoads (line : BlockedLine Grid) : List (GridRead Grid) :=
  line.loads.dropLast.map (BlockedLine.read index dim start line.gv)

/-- The load of an iteration. -/
def leadingLoads (loopVar : Int) (line : BlockedLine Grid) : List (GridRead Grid) :=
  line.loads.getLast?.toList.map (BlockedLine.read index dim loopVar line.gv)

/-- The gets that no register replaces; the inserted loads come before those of the kernel. -/
def remainingGets (loop : BlockedLoop Grid) (gets : List (KernelGet Grid)) :
    List (KernelGet Grid × Nat) :=
  gets.zipIdx.filter fun (_, i) =>
    match loop.sites[loop.lines.length + i]? with
    | some site => site.register.isNone
    | none => false

/-- The reads of the loop after the pass; the gets that remain run where they did. -/
def blockedReads (loop : BlockedLoop Grid) (gets : List (KernelGet Grid))
    (executed : (iteration get : Nat) → Bool) (iterations : Nat) : List (GridRead Grid) :=
  loop.lines.flatMap (initialLoads index dim start) ++
    (List.range iterations).flatMap fun (k : Nat) =>
      loop.lines.flatMap (leadingLoads index dim (start + k)) ++
        ((remainingGets loop gets).filter fun (_, i) => executed k i).map fun (get, _) =>
          get.read index dim (start + k)

end Reads

/-- The read is in its grid, or periodic. -/
def GridRead.Inside {Grid : Type} (numDims : Grid → Nat) (extents : Grid → IndexArray)
    (read : GridRead Grid) : Prop :=
  read.periodic = true ∨ InBox (numDims read.gv) (extents read.gv) read.indices

section Safety

variable {Grid : Type} [DecidableEq Grid] {gets : List (KernelGet Grid)}
    {gr : GridRangeMap Grid} {dim : Nat} {loop : BlockedLoop Grid}
    {executed : Nat → Nat → Bool} {numDims : Grid → Nat} {extents : Grid → IndexArray}
    {index : IndexArray} {start : Int} {iterations : Nat}

/-- What a line of the kernel's gets is loaded with. -/
def lineLoadAt (gets : List (KernelGet Grid)) (dim : Nat) (line : Grid × List RegularIndex)
    (slot : Nat) : RegularIndex × Bool :=
  (lineLoads gets dim line).loads.getD slot ([], false)

/--
The loads of a line are in the grid: the initial ones for the first value of the
loop variable, the leading one for the first and the last value of a loop that
is not empty.
-/
structure LineInside (gets : List (KernelGet Grid)) (numDims : Grid → Nat)
    (extents : Grid → IndexArray) (index : IndexArray) (dim : Nat) (start : Int)
    (iterations : Nat) (line : Grid × List RegularIndex) : Prop where
  initial : ∀ slot < line.2.length - 1,
    (BlockedLine.read index dim start line.1 (lineLoadAt gets dim line slot)).Inside
      numDims extents
  leading : 0 < iterations → ∀ loopVar ∈ [start, start + iterations - 1],
    (BlockedLine.read index dim loopVar line.1
      (lineLoadAt gets dim line (line.2.length - 1))).Inside numDims extents

omit [DecidableEq Grid] in
/-- The coordinates of a load between two values of the loop variable are between. -/
theorem inside_between {gv : Grid} {load : RegularIndex × Bool} {first last loopVar : Int}
    (atFirst : (BlockedLine.read index dim first gv load).Inside numDims extents)
    (atLast : (BlockedLine.read index dim last gv load).Inside numDims extents)
    (between : first ≤ loopVar ∧ loopVar ≤ last) :
    (BlockedLine.read index dim loopVar gv load).Inside numDims extents := by
  by_cases periodic : load.2 = true
  · exact .inl periodic
  · right
    have lower := atFirst.resolve_left periodic
    have upper := atLast.resolve_left periodic
    intro d below
    have least := (lower d below).1
    have most := (upper d below).2
    have leastUpper := (lower d below).2
    simp only [BlockedLine.read, offsetIndices, loopIndices] at *
    by_cases same : d = dim
    · subst same
      simp only [Function.update_self] at *
      omega
    · simp only [Function.update_of_ne same] at *
      omega

theorem mem_initialLoads {line : Grid × List RegularIndex} {read : GridRead Grid} :
    read ∈ initialLoads index dim start (lineLoads gets dim line) ↔
      ∃ slot < line.2.length - 1,
        BlockedLine.read index dim start line.1 (lineLoadAt gets dim line slot) = read := by
  have length : (lineLoads gets dim line).loads.length = line.2.length := by simp [lineLoads]
  have entry {slot : Nat} (less : slot < line.2.length - 1) :
      (lineLoads gets dim line).loads.dropLast[slot]? = some (lineLoadAt gets dim line slot) := by
    rw [List.getElem?_dropLast, if_pos (by rwa [length]), lineLoadAt,
      List.getD_eq_getElem?_getD, List.getElem?_eq_getElem (by omega), Option.getD_some]
  rw [initialLoads, List.mem_map]
  constructor
  · rintro ⟨load, member, rfl⟩
    obtain ⟨slot, less, rfl⟩ := List.getElem_of_mem member
    have below : slot < line.2.length - 1 := by
      rwa [List.length_dropLast, length] at less
    have same := entry below
    rw [List.getElem?_eq_getElem less, Option.some.injEq] at same
    exact ⟨slot, below, by rw [same]; rfl⟩
  · rintro ⟨slot, less, rfl⟩
    exact ⟨_, List.mem_of_getElem? (entry less), rfl⟩

theorem mem_leadingLoads {line : Grid × List RegularIndex} (some : 0 < line.2.length)
    {loopVar : Int} {read : GridRead Grid} :
    read ∈ leadingLoads index dim loopVar (lineLoads gets dim line) ↔
      BlockedLine.read index dim loopVar line.1
        (lineLoadAt gets dim line (line.2.length - 1)) = read := by
  have length : (lineLoads gets dim line).loads.length = line.2.length := by simp [lineLoads]
  have last : (lineLoads gets dim line).loads.getLast? =
      .some (lineLoadAt gets dim line (line.2.length - 1)) := by
    rw [List.getLast?_eq_getElem?, length, lineLoadAt, List.getD_eq_getElem?_getD,
      List.getElem?_eq_getElem (by omega), Option.getD_some]
  simp only [leadingLoads, last, Option.toList_some, List.map_singleton, List.mem_singleton]
  exact eq_comm

omit [DecidableEq Grid] in
/-- A get that no register replaces reads what it read before. -/
theorem mem_originalReads_of_remaining {k : Nat} (below : k < iterations)
    {entry : KernelGet Grid × Nat} (member : entry ∈ remainingGets loop gets)
    (runs : executed k entry.2 = true) :
    entry.1.read index dim (start + k) ∈
      originalReads index dim start gets executed iterations := by
  refine List.mem_flatMap.mpr ⟨k, List.mem_range.mpr below, List.mem_map.mpr ⟨entry, ?_, rfl⟩⟩
  exact List.mem_filter.mpr ⟨(List.mem_filter.mp member).1, runs⟩

/-- The loads of the lines are in their grids for all iterations. -/
theorem lineInside_iff {line : Grid × List RegularIndex} (some : 0 < line.2.length) :
    LineInside gets numDims extents index dim start iterations line ↔
      (∀ read ∈ initialLoads index dim start (lineLoads gets dim line),
        read.Inside numDims extents) ∧
      ∀ k < iterations, ∀ read ∈ leadingLoads index dim (start + k) (lineLoads gets dim line),
        read.Inside numDims extents := by
  constructor
  · rintro ⟨initial, leading⟩
    refine ⟨fun read member => ?_, fun k below read member => ?_⟩
    · obtain ⟨slot, less, rfl⟩ := mem_initialLoads.mp member
      exact initial slot less
    · rw [← (mem_leadingLoads some).mp member]
      have ends := leading (by omega)
      exact inside_between (ends start (by simp)) (ends (start + iterations - 1) (by simp))
        ⟨by omega, by omega⟩
  · rintro ⟨initial, leading⟩
    refine ⟨fun slot less => initial _ (mem_initialLoads.mpr ⟨slot, less, rfl⟩), ?_⟩
    intro positive loopVar member
    rcases List.mem_pair.mp member with rfl | rfl
    · have first := leading 0 positive _ ((mem_leadingLoads some).mpr rfl)
      simpa using first
    · have last := leading (iterations - 1) (by omega) _ ((mem_leadingLoads some).mpr rfl)
      have same : start + ((iterations - 1 : Nat) : Int) = start + iterations - 1 := by omega
      rwa [same] at last

/--
The blocked loop stays in the grids where the kernel does, exactly if then the
loads of all lines are in the grids.
-/
theorem blockedReads_inside_iff (result : doRegisterBlocking gets gr dim = some loop)
    (executed : Nat → Nat → Bool) (numDims : Grid → Nat) (extents : Grid → IndexArray)
    (index : IndexArray) (start : Int) (iterations : Nat) :
    ((∀ read ∈ originalReads index dim start gets executed iterations,
        read.Inside numDims extents) →
      ∀ read ∈ blockedReads index dim start loop gets executed iterations,
        read.Inside numDims extents) ↔
    ((∀ read ∈ originalReads index dim start gets executed iterations,
        read.Inside numDims extents) →
      ∀ line ∈ gr.lines dim, LineInside gets numDims extents index dim start iterations line) := by
  have blocked := blocked_of_doRegisterBlocking result
  have some {line : Grid × List RegularIndex} (member : line ∈ gr.lines dim) :
      0 < line.2.length := by
    obtain ⟨base, least, -, more, -⟩ := gr.contiguous_of_mem member
    omega
  have blockedLine {line : Grid × List RegularIndex} (member : line ∈ gr.lines dim) :
      lineLoads gets dim line ∈ loop.lines := by
    rw [blocked.blocked]
    exact List.mem_map_of_mem member
  refine imp_congr_right fun original => ?_
  constructor
  · intro safe line member
    refine (lineInside_iff (some member)).mpr
      ⟨fun read initial => ?_, fun k below read leading => ?_⟩
    · exact safe read (List.mem_append_left _
        (List.mem_flatMap.mpr ⟨_, blockedLine member, initial⟩))
    · refine safe read (List.mem_append_right _
        (List.mem_flatMap.mpr ⟨k, List.mem_range.mpr below, ?_⟩))
      exact List.mem_append_left _ (List.mem_flatMap.mpr ⟨_, blockedLine member, leading⟩)
  · intro lines read member
    have ofLine {blockedLine : BlockedLine Grid} (listed : blockedLine ∈ loop.lines) :
        ∃ line ∈ gr.lines dim, lineLoads gets dim line = blockedLine := by
      rw [blocked.blocked] at listed
      exact List.mem_map.mp listed
    rcases List.mem_append.mp member with initial | inLoop
    · obtain ⟨_, listed, read⟩ := List.mem_flatMap.mp initial
      obtain ⟨line, lineMember, rfl⟩ := ofLine listed
      exact ((lineInside_iff (some lineMember)).mp (lines line lineMember)).1 _ read
    · obtain ⟨k, range, body⟩ := List.mem_flatMap.mp inLoop
      have below := List.mem_range.mp range
      rcases List.mem_append.mp body with leading | remaining
      · obtain ⟨_, listed, read⟩ := List.mem_flatMap.mp leading
        obtain ⟨line, lineMember, rfl⟩ := ofLine listed
        exact ((lineInside_iff (some lineMember)).mp (lines line lineMember)).2 k below _ read
      · obtain ⟨entry, filtered, rfl⟩ := List.mem_map.mp remaining
        obtain ⟨kept, runs⟩ := List.mem_filter.mp filtered
        exact original _ (mem_originalReads_of_remaining below kept runs)

end Safety

/-! ## A guarded boundary -/

/-- With a periodic leading access the loads stay in the row. -/
theorem blockedReads_periodicRow :
    ∃ loop, doRegisterBlocking periodicRow rowRange 0 = some loop ∧
      ((∀ read ∈ originalReads (fun _ => 0) 0 0 periodicRow (fun _ _ => true) 4,
          read.Inside (fun _ => 1) (fun _ _ => 4)) →
        ∀ read ∈ blockedReads (fun _ => 0) 0 0 loop periodicRow (fun _ _ => true) 4,
          read.Inside (fun _ => 1) (fun _ _ => 4)) := by
  have lines : rowRange.lines 0 = [((), [[0], [1]])] := by decide
  have inside : LineInside periodicRow (fun _ => 1) (fun _ _ => 4) (fun _ => 0) 0 0 4
      ((), [[0], [1]]) := by
    constructor
    · intro slot less
      obtain rfl : slot = 0 := by simpa using less
      right
      intro d below
      obtain rfl : d = 0 := by simpa using below
      decide
    · intro _ loopVar _
      exact .inl (by decide : (lineLoadAt periodicRow 0 ((), [[0], [1]]) 1).2 = true)
  obtain ⟨loop, result⟩ : ∃ loop, doRegisterBlocking periodicRow rowRange 0 = some loop :=
    ⟨_, rfl⟩
  refine ⟨loop, result,
    (blockedReads_inside_iff result _ _ _ _ _ _).mpr fun _ line member => ?_⟩
  rw [lines, List.mem_singleton] at member
  rwa [member]

/-- `x`, and `x + 1` where it is in the row -/
def boundedRow : List (KernelGet Unit) :=
  [⟨(), [⟨1, 0⟩], false⟩, ⟨(), [⟨1, 1⟩], false⟩]

/-- The leading load of the last iteration is behind the row of four cells. -/
theorem blockedReads_boundedRow :
    ∃ loop, doRegisterBlocking boundedRow rowRange 0 = some loop ∧
      ¬ ((∀ read ∈ originalReads (fun _ => 0) 0 0 boundedRow
            (fun iteration get => get == 0 || decide (iteration < 3)) 4,
          read.Inside (fun _ => 1) (fun _ _ => 4)) →
        ∀ read ∈ blockedReads (fun _ => 0) 0 0 loop boundedRow
            (fun iteration get => get == 0 || decide (iteration < 3)) 4,
          read.Inside (fun _ => 1) (fun _ _ => 4)) := by
  refine ⟨_, rfl, fun safe => ?_⟩
  have original : ∀ read ∈ originalReads (fun _ => 0) 0 0 boundedRow
      (fun iteration get => get == 0 || decide (iteration < 3)) 4,
      read.Inside (fun _ => 1) (fun _ _ => 4) := by
    intro read member
    obtain ⟨k, range, inner⟩ := List.mem_flatMap.mp member
    obtain ⟨entry, listed, rfl⟩ := List.mem_map.mp inner
    have below := List.mem_range.mp range
    right
    intro d less
    obtain rfl : d = 0 := by simpa using less
    simp only [boundedRow, List.zipIdx_cons, List.zipIdx_nil, zero_add, List.mem_filter,
      List.mem_cons, List.not_mem_nil, or_false] at listed
    rcases listed with ⟨rfl | rfl, runs⟩
    · simp [KernelGet.read, StencilIndexList.at, StencilIndex.value, loopIndices]
      omega
    · have early : k < 3 := by simpa using runs
      simp [KernelGet.read, StencilIndexList.at, StencilIndex.value, loopIndices]
      omega
  have behind := safe original
    (BlockedLine.read (fun _ => 0) 0 (0 + (3 : Nat)) () ([1], false)) (by
      refine List.mem_append_right _ (List.mem_flatMap.mpr ⟨3, by decide, ?_⟩)
      refine List.mem_append_left _ (List.mem_flatMap.mpr
        ⟨⟨(), [([0], false), ([1], false)]⟩, List.mem_singleton.mpr rfl, ?_⟩)
      exact List.mem_singleton.mpr rfl)
  rcases behind with periodic | inside
  · exact absurd periodic (by decide)
  · exact absurd (inside 0 (by decide)).2 (by decide)

end Physis.Translator
