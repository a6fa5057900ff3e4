import Physis.Library.FallibleMaps
import Physis.Runtime.Neighbors

/-!
# Initialisation of the runtime

`PSInit` reads the process grid from the command line, or takes a row of all
processes, and builds the grid space.  The number of dimensions is asserted, and
an array of negative length cannot be allocated; nothing compares the product of
the dimensions with the number of processes, and a number is read from the start
of its text only.
-/

namespace Physis.Runtime

open Physis.Library

/-! ## Reading numbers -/

/-- `isspace` in the classic locale -/
def isSpace (c : Char) : Bool :=
  c.toNat = 32 || (9 ≤ c.toNat && c.toNat ≤ 13)

/--
`is >> i` for an `int`: white space, a sign and digits are consumed, the rest
stays in the stream.  No digits, or a number beyond the range, fail.
-/
def scanInt (s : List Char) : Option (Int × List Char) :=
  let field := s.dropWhile isSpace
  let negative : Bool := field.head? = some '-'
  let unsigned :=
    if field.head? = some '-' ∨ field.head? = some '+' then field.tail else field
  let digits := unsigned.takeWhile Char.isDigit
  let magnitude : Nat :=
    digits.foldl (fun value digit => 10 * value + (digit.toNat - '0'.toNat)) 0
  let value : Int := if negative then -magnitude else magnitude
  if digits = [] ∨ value < -2 ^ 31 ∨ 2 ^ 31 ≤ value then none
  else some (value, unsigned.dropWhile Char.isDigit)

/-- `toInteger`; `none` stands for the exception of the stream. -/
def toInteger (s : List Char) : Option Int :=
  (scanInt s).map Prod.fst

/-! ## Reading the process grid -/

/-- The texts between the separators of the option. -/
def components (s : String) : List (List Char) :=
  s.toList.splitOn 'x'

/-- `ParseProcDim`; `none` if the process exits or an exception is thrown. -/
def parseProcDim (s : String) : Option (List Int) :=
  if psMaxDim < (components s).length then none
  else (components s).mapM toInteger

/-- `PSInitCommon`: the first tracing option is taken from the arguments. -/
def psInitCommon (argv : List String) : List String :=
  argv.eraseP fun arg => arg = "-physis-trace" || arg = "--physis-trace"

/--
The argument after the first process option: `none` if there is no option, and
`some none` if it is the last argument.
-/
def procOption : List String → Option (Option String)
  | [] => none
  | arg :: rest =>
      if arg = "-physis-proc" ∨ arg = "--physis-proc" then some rest.head?
      else procOption rest

/--
`GetProcessDim`; `none` if the process ends, and `some none` for the return
value `-1`.  A string is not made from the null pointer after the arguments.
-/
def getProcessDim (argv : List String) : Option (Option (List Int)) :=
  match procOption argv with
  | none => some none
  | some none => none
  | some (some pp) => (parseProcDim pp).map some

/-! ## Building the grid space -/

/-- The members of the grid space that only depend on the process grid. -/
structure ProcessSpace where
  numDims : Nat
  procNumDims : Nat
  procSize : IntegerArray Int
  myRank : Nat

namespace ProcessSpace

variable (space : ProcessSpace)

/-- `num_procs_`, in machine arithmetic. -/
def numProcs : Int :=
  (IntegerArray.accumulate space.procSize space.procNumDims).bmod (2 ^ 32)

/-- The loop variable `t` of `partition` after `count` dimensions. -/
def remainingRank (rank : Nat) : Nat → Int
  | 0 => rank
  | count + 1 => (remainingRank rank count).tdiv (space.procSize count)

/-- `proc_indices_[rank]` -/
def procIndices (rank : Nat) : IntegerArray Int :=
  fun i =>
    if i < space.numDims then
      (space.remainingRank rank i).tmod (space.procSize i)
    else 0

/-- `GetProcessRank` -/
def getProcessRank (procIndex : IntegerArray Int) : Int :=
  ((List.range space.numDims).foldl
    (fun (rank, offset) i =>
      (rank + procIndex i * offset, offset * space.procSize i))
    ((0 : Int), (1 : Int))).1

/-- `my_idx_` -/
def myIdx : IntegerArray Int :=
  space.procIndices space.myRank

/-- `fw_neighbors_[i]` -/
def fwNeighbors (i : Nat) : Int :=
  space.getProcessRank
    (Function.update space.myIdx i
      ((space.myIdx i + 1).tmod (space.procSize i)))

/-- `bw_neighbors_[i]` -/
def bwNeighbors (i : Nat) : Int :=
  let neighbor := space.myIdx i - 1
  let wrapped :=
    if neighbor < 0 then (neighbor + space.procSize i).tmod (space.procSize i)
    else neighbor
  space.getProcessRank (Function.update space.myIdx i wrapped)

end ProcessSpace

/-- How the initialisation of a process ends. -/
inductive InitOutcome where
  /-- a failed assertion, an exception or an exit -/
  | rejected
  /-- a table is read at an index it does not have -/
  | outOfRange
  | returned (space : ProcessSpace)

/--
`GridSpaceMPI::GridSpaceMPI`.  An array of negative length is not allocated;
the process table has `num_procs_` rows, the partition tables one column for
each process index.
-/
def gridSpaceMPI
    (numDims procNumDims : Nat) (procSize : IntegerArray Int) (myRank : Nat) :
    InitOutcome :=
  let space : ProcessSpace := ⟨numDims, procNumDims, procSize, myRank⟩
  if numDims ≠ procNumDims then .rejected
  else if ∃ i < numDims, procSize i < 0 then .rejected
  else if space.numProcs ≤ myRank then .outOfRange
  else if ∀ i < numDims,
      0 ≤ space.myIdx i ∧ space.myIdx i < procSize i then .returned space
  else .outOfRange

/-- `PSInit` on one process, up to the start of the client or the master. -/
def psInit
    (argv : List String) (gridNumDims numProcs rank : Nat) : InitOutcome :=
  match getProcessDim (psInitCommon argv) with
  | none => .rejected
  | some none =>
      gridSpaceMPI gridNumDims gridNumDims
        (Function.update (fun _ => 1) (gridNumDims - 1) numProcs) rank
  | some (some dims) =>
      gridSpaceMPI gridNumDims dims.length (fun i => dims.getD i 1) rank

/-! ## Usable process grids -/

namespace ProcessSpace

variable {space : ProcessSpace}

/-- The process grid has the space's dimensions and a place for every process. -/
structure Usable (space : ProcessSpace) (numProcs : Nat) : Prop where
  numDims : space.procNumDims = space.numDims
  positive : ∀ i < space.numDims, 0 < space.procSize i
  product : ∏ i ∈ Finset.range space.procNumDims, space.procSize i = numProcs
  indices : ∀ rank < numProcs, ∀ i < space.numDims,
    0 ≤ space.procIndices rank i ∧ space.procIndices rank i < space.procSize i
  neighbors : ∀ i < space.numDims,
    (0 ≤ space.fwNeighbors i ∧ space.fwNeighbors i < numProcs) ∧
      0 ≤ space.bwNeighbors i ∧ space.bwNeighbors i < numProcs

/-- The grid space of the later modules that has this process grid. -/
def toGridSpace
    (space : ProcessSpace) (globalSize : IndexArray)
    (globalPos : ∀ i < space.numDims, 0 < globalSize i)
    (procPos : ∀ i < space.numDims, 0 < space.procSize i) : GridSpaceMPI where
  numDims := space.numDims
  globalSize := globalSize
  procSize i := (space.procSize i).toNat
  globalPos := globalPos
  procPos := fun i below => by
    have positive := procPos i below
    omega

section GridSpace

variable
    {globalSize : IndexArray}
    (globalPos : ∀ i < space.numDims, 0 < globalSize i)
    (procPos : ∀ i < space.numDims, 0 < space.procSize i)

theorem toGridSpace_procSize {i : Nat} (below : i < space.numDims) :
    ((space.toGridSpace globalSize globalPos procPos).procSize i : Int) =
      space.procSize i :=
  Int.toNat_of_nonneg (procPos i below).le

theorem toGridSpace_remainingRank
    (rank : Nat) {count : Nat} (bounded : count ≤ space.numDims) :
    ((space.toGridSpace globalSize globalPos procPos).remainingRank rank count :
        Int) =
      space.remainingRank rank count := by
  induction count with
  | zero => rfl
  | succ count induction =>
      rw [GridSpaceMPI.remainingRank, remainingRank, ← induction (by omega),
        ← toGridSpace_procSize globalPos procPos (show count < _ by omega)]
      exact Int.natCast_div _ _

/-- Both tables of process indices agree. -/
theorem toGridSpace_procIndices
    (rank : Nat) {i : Nat} (below : i < space.numDims) :
    ((space.toGridSpace globalSize globalPos procPos).procIndices rank i : Int) =
      space.procIndices rank i := by
  rw [GridSpaceMPI.procIndices, procIndices, if_pos below,
    if_pos (show i < (space.toGridSpace globalSize globalPos procPos).numDims from
      below),
    ← toGridSpace_remainingRank globalPos procPos rank below.le,
    ← toGridSpace_procSize globalPos procPos below]
  exact Int.natCast_mod _ _

theorem toGridSpace_getProcessRank
    {procIndex : IntegerArray Int} {natIndex : IntArray}
    (same : ∀ i < space.numDims, (natIndex i : Int) = procIndex i) :
    ((space.toGridSpace globalSize globalPos procPos).getProcessRank natIndex :
        Int) =
      space.getProcessRank procIndex := by
  have loop : ∀ count ≤ space.numDims,
      (List.range count).foldl
          (fun (pair : Int × Int) i =>
            (pair.1 + procIndex i * pair.2, pair.2 * space.procSize i))
          (0, 1) =
        Prod.map Nat.cast Nat.cast ((List.range count).foldl
          (fun (pair : Nat × Nat) i =>
            (pair.1 + natIndex i * pair.2, pair.2 *
              (space.toGridSpace globalSize globalPos procPos).procSize i))
          (0, 1)) := by
    intro count bounded
    induction count with
    | zero => rfl
    | succ count induction =>
        rw [List.range_succ, List.foldl_append, induction (by omega),
          List.foldl_append]
        simp only [List.foldl_cons, List.foldl_nil, Prod.map, Nat.cast_add,
          Nat.cast_mul, same count (by omega),
          toGridSpace_procSize globalPos procPos (show count < _ by omega)]
  exact (congrArg Prod.fst (loop space.numDims le_rfl)).symm

/-- Both compute the same neighbours. -/
theorem toGridSpace_neighbors {i : Nat} (below : i < space.numDims) :
    ((space.toGridSpace globalSize globalPos procPos).fwNeighbors space.myRank i :
          Int) = space.fwNeighbors i ∧
      ((space.toGridSpace globalSize globalPos procPos).bwNeighbors space.myRank i :
          Int) = space.bwNeighbors i := by
  have index := fun j inside =>
    toGridSpace_procIndices (i := j) globalPos procPos space.myRank inside
  have size := toGridSpace_procSize globalPos procPos below
  have positive := procPos i below
  constructor
  · apply toGridSpace_getProcessRank
    intro j inside
    by_cases same : j = i
    · subst j
      rw [Function.update_self, Function.update_self, myIdx, ← index i below,
        ← size]
      exact Int.natCast_mod _ _
    · rw [Function.update_of_ne same, Function.update_of_ne same]
      exact index j inside
  · apply toGridSpace_getProcessRank
    intro j inside
    by_cases same : j = i
    · subst j
      have own : ((space.toGridSpace globalSize globalPos procPos).procIndices
          space.myRank i : Int) = space.myIdx i := index i below
      have place : 0 ≤ space.myIdx i := by
        rw [← own]
        exact Int.natCast_nonneg _
      simp only [Function.update_self, own, size]
      by_cases before : space.myIdx i - 1 < 0
      · rw [if_pos before, if_pos before, Int.tmod_eq_emod_of_nonneg (by omega)]
        exact Int.toNat_of_nonneg (Int.emod_nonneg _ positive.ne')
      · rw [if_neg before, if_neg before]
        exact Int.toNat_of_nonneg (by omega)
    · rw [Function.update_of_ne same, Function.update_of_ne same]
      exact index j inside

end GridSpace

theorem procIndices_inside
    (procPos : ∀ i < space.numDims, 0 < space.procSize i) (rank : Nat)
    {i : Nat} (below : i < space.numDims) :
    0 ≤ space.procIndices rank i ∧
      space.procIndices rank i < space.procSize i := by
  have globalPos : ∀ i < space.numDims, 0 < (fun _ => 1 : IndexArray) i :=
    fun _ _ => Int.one_pos
  rw [← toGridSpace_procIndices globalPos procPos rank below,
    ← toGridSpace_procSize globalPos procPos below]
  have inside := (space.toGridSpace _ globalPos procPos).procIndices_lt rank below
  omega

/-- Positive dimensions with the right product make a usable process grid. -/
theorem usable_of_product
    {numProcs : Nat} (numDims : space.procNumDims = space.numDims)
    (procPos : ∀ i < space.numDims, 0 < space.procSize i)
    (product : ∏ i ∈ Finset.range space.procNumDims, space.procSize i = numProcs) :
    space.Usable numProcs := by
  have globalPos : ∀ i < space.numDims, 0 < (fun _ => 1 : IndexArray) i :=
    fun _ _ => Int.one_pos
  refine ⟨numDims, procPos, product, ?_, ?_⟩
  · exact fun rank _ i below => procIndices_inside procPos rank below
  · intro i below
    have procs : ((space.toGridSpace _ globalPos procPos).numProcs : Int) =
        numProcs := by
      rw [← product, numDims, GridSpaceMPI.numProcs_eq_weight, MixedRadix.weight,
        Nat.cast_prod]
      exact Finset.prod_congr rfl fun j member =>
        toGridSpace_procSize globalPos procPos (Finset.mem_range.mp member)
    obtain ⟨forward, backward⟩ := toGridSpace_neighbors globalPos procPos below
    rw [← forward, ← backward]
    have forwardBound :=
      (space.toGridSpace _ globalPos procPos).neighbor_lt space.myRank below .fw
    have backwardBound :=
      (space.toGridSpace _ globalPos procPos).neighbor_lt space.myRank below .bw
    simp only [GridSpaceMPI.neighbor] at forwardBound backwardBound
    omega

end ProcessSpace

/-! ## What `PSInit` accepts -/

/-- The number of dimensions matches, and no dimension is negative. -/
theorem gridSpaceMPI_of_nonneg
    {numDims : Nat} {procSize : IntegerArray Int} {numProcs myRank : Nat}
    (nonneg : ∀ i < numDims, 0 ≤ procSize i)
    (product : ∏ i ∈ Finset.range numDims, procSize i = numProcs)
    (machine : numProcs < 2 ^ 31) (bounded : myRank < numProcs) :
    gridSpaceMPI numDims numDims procSize myRank =
        .returned ⟨numDims, numDims, procSize, myRank⟩ ∧
      ProcessSpace.Usable ⟨numDims, numDims, procSize, myRank⟩ numProcs := by
  have positive : ∀ i < numDims, 0 < procSize i := by
    intro i below
    rcases (nonneg i below).lt_or_eq with positive | zero
    · exact positive
    · rw [Finset.prod_eq_zero (Finset.mem_range.mpr below) zero.symm] at product
      omega
  have usable : ProcessSpace.Usable ⟨numDims, numDims, procSize, myRank⟩ numProcs :=
    ProcessSpace.usable_of_product rfl positive product
  have procs : (⟨numDims, numDims, procSize, myRank⟩ : ProcessSpace).numProcs =
      numProcs := by
    rw [ProcessSpace.numProcs, IntegerArray.accumulate_eq_prod, product,
      Int.bmod_eq_of_le (by omega) (by omega)]
  refine ⟨?_, usable⟩
  simp only [gridSpaceMPI, procs]
  rw [if_neg (by simp), if_neg, if_neg (by omega), if_pos]
  · exact fun i below => ProcessSpace.procIndices_inside positive myRank below
  · rintro ⟨i, below, negative⟩
    exact absurd (nonneg i below) (by omega)

/-- Without a negative dimension nothing rejects the process grid. -/
theorem gridSpaceMPI_ne_rejected
    {numDims : Nat} {procSize : IntegerArray Int} {myRank : Nat}
    (nonneg : ∀ i < numDims, 0 ≤ procSize i) :
    gridSpaceMPI numDims numDims procSize myRank ≠ .rejected := by
  simp only [gridSpaceMPI]
  rw [if_neg (by simp), if_neg]
  · split
    · nofun
    · split <;> nofun
  · rintro ⟨i, below, negative⟩
    exact absurd (nonneg i below) (by omega)

theorem gridSpaceMPI_returned
    {numDims procNumDims : Nat} {procSize : IntegerArray Int} {myRank : Nat}
    {space : ProcessSpace}
    (returned : gridSpaceMPI numDims procNumDims procSize myRank =
      .returned space) :
    space = ⟨numDims, procNumDims, procSize, myRank⟩ := by
  simp only [gridSpaceMPI] at returned
  split at returned
  · cases returned
  · split at returned
    · cases returned
    · split at returned
      · cases returned
      · split at returned
        · cases returned
          rfl
        · cases returned

theorem prod_getD (dims : List Int) :
    ∏ i ∈ Finset.range dims.length, dims.getD i 1 = dims.prod := by
  induction dims with
  | nil => simp
  | cons first rest induction =>
      rw [List.length_cons, Finset.prod_range_succ', List.prod_cons, ← induction,
        mul_comm]
      simp

/--
The process grid that the arguments ask for: all processes in a row, or as many
positive numbers as dimensions, each the whole of its component, with the number
of processes as their product.
-/
def ProperProcessGrid
    (argv : List String) (gridNumDims numProcs : Nat) : Prop :=
  match procOption (psInitCommon argv) with
  | none => True
  | some none => False
  | some (some pp) =>
      ∃ dims : List Int,
        List.Forall₂ (fun component dim => scanInt component = some (dim, []))
            (components pp) dims ∧
          dims.length = gridNumDims ∧ (∀ dim ∈ dims, 0 < dim) ∧
          dims.prod = numProcs

/-- Only usable process grids are accepted, and every other one is rejected. -/
structure AcceptsOnlyUsable
    (argv : List String) (gridNumDims numProcs : Nat) : Prop where
  usable : ∀ rank < numProcs, ∀ space,
    psInit argv gridNumDims numProcs rank = .returned space →
      space.numDims = gridNumDims ∧ space.Usable numProcs
  inRange : ∀ rank < numProcs,
    psInit argv gridNumDims numProcs rank ≠ .outOfRange
  rejects : ¬ProperProcessGrid argv gridNumDims numProcs →
    ∀ rank < numProcs, psInit argv gridNumDims numProcs rank = .rejected

/--
A text that reads as non-negative numbers, as many as the space has dimensions,
reads as numbers without trailing text whose product is the number of processes.
-/
def UnambiguousDimensions
    (pp : String) (gridNumDims numProcs : Nat) : Prop :=
  ∀ dims, parseProcDim pp = some dims → dims.length = gridNumDims →
    (∀ dim ∈ dims, 0 ≤ dim) →
      dims.prod = numProcs ∧
        ∀ component ∈ components pp, ∀ dim rest,
          scanInt component = some (dim, rest) → rest = []

theorem getD_nonneg {dims : List Int} (nonneg : ∀ dim ∈ dims, 0 ≤ dim) (i : Nat) :
    0 ≤ dims.getD i 1 := by
  rcases Nat.lt_or_ge i dims.length with below | above
  · rw [List.getD_eq_getElem _ _ below]
    exact nonneg _ (List.getElem_mem below)
  · rw [List.getD_eq_default _ _ above]
    exact Int.one_nonneg

section Outcome

variable {argv : List String} {gridNumDims numProcs : Nat}

/-- Without the option the processes form a row. -/
theorem psInit_default
    (dimensions : 0 < gridNumDims) (machine : numProcs < 2 ^ 31)
    (absent : procOption (psInitCommon argv) = none)
    {rank : Nat} (bounded : rank < numProcs) :
    ∃ space, psInit argv gridNumDims numProcs rank = .returned space ∧
      space.numDims = gridNumDims ∧ space.Usable numProcs := by
  have nonneg : ∀ i < gridNumDims, 0 ≤
      Function.update (fun _ => (1 : Int)) (gridNumDims - 1) numProcs i := by
    intro i _
    by_cases last : i = gridNumDims - 1
    · rw [last, Function.update_self]
      exact Int.natCast_nonneg _
    · rw [Function.update_of_ne last]
      exact Int.one_nonneg
  have product : ∏ i ∈ Finset.range gridNumDims,
      Function.update (fun _ => (1 : Int)) (gridNumDims - 1) numProcs i =
        numProcs := by
    rw [Finset.prod_update_of_mem (Finset.mem_range.mpr (by omega))]
    simp
  obtain ⟨returned, usable⟩ :=
    gridSpaceMPI_of_nonneg nonneg product machine bounded
  refine ⟨_, ?_, rfl, usable⟩
  simp only [psInit, getProcessDim, absent]
  exact returned

/-- With the option the text decides. -/
theorem psInit_text
    {pp : String} (given : procOption (psInitCommon argv) = some (some pp))
    (rank : Nat) :
    psInit argv gridNumDims numProcs rank =
      match parseProcDim pp with
      | none => .rejected
      | some dims =>
          gridSpaceMPI gridNumDims dims.length (fun i => dims.getD i 1) rank := by
  simp only [psInit, getProcessDim, given]
  cases parseProcDim pp <;> rfl

/-- Another number of dimensions or a negative one is rejected. -/
theorem gridSpaceMPI_rejected
    {numDims procNumDims : Nat} {procSize : IntegerArray Int} {myRank : Nat}
    (unfit : numDims ≠ procNumDims ∨ ∃ i < numDims, procSize i < 0) :
    gridSpaceMPI numDims procNumDims procSize myRank = .rejected := by
  simp only [gridSpaceMPI]
  rcases unfit with different | negative
  · rw [if_pos different]
  · by_cases different : numDims ≠ procNumDims
    · rw [if_pos different]
    · rw [if_neg different, if_pos negative]

/-- An unambiguous text with a place for every process is a proper grid. -/
theorem properProcessGrid_of_unambiguous
    {pp : String} (given : procOption (psInitCommon argv) = some (some pp))
    {dims : List Int} (parsed : parseProcDim pp = some dims)
    (count : dims.length = gridNumDims) (positive : ∀ dim ∈ dims, 0 < dim)
    (product : dims.prod = numProcs)
    (whole : ∀ component ∈ components pp, ∀ dim rest,
      scanInt component = some (dim, rest) → rest = []) :
    ProperProcessGrid argv gridNumDims numProcs := by
  rw [ProperProcessGrid, given]
  refine ⟨dims, ?_, count, positive, product⟩
  have mapped : (components pp).mapM toInteger = some dims := by
    rw [parseProcDim] at parsed
    split at parsed
    · cases parsed
    · exact parsed
  have read := FallibleMaps.forall₂_of_mapM mapped
  rw [List.forall₂_iff_zip] at read ⊢
  refine ⟨read.1, ?_⟩
  intro component dim paired
  have found := read.2 paired
  obtain ⟨⟨number, rest⟩, scanned, rfl⟩ := Option.map_eq_some_iff.mp found
  rw [scanned, whole component (List.of_mem_zip paired).1 number rest scanned]

end Outcome

/--
Initialisation accepts only usable process grids exactly if the text of the
process option, where it is read as non-negative numbers for all dimensions, has
no trailing text and the number of processes as its product.
-/
theorem acceptsOnlyUsable_iff
    (argv : List String) {gridNumDims numProcs : Nat}
    (dimensions : 0 < gridNumDims) (processes : 0 < numProcs)
    (machine : numProcs < 2 ^ 31) :
    AcceptsOnlyUsable argv gridNumDims numProcs ↔
      ∀ pp, procOption (psInitCommon argv) = some (some pp) →
        UnambiguousDimensions pp gridNumDims numProcs := by
  constructor
  · intro accepts pp given dims parsed count nonneg
    have outcome : psInit argv gridNumDims numProcs 0 =
        gridSpaceMPI gridNumDims gridNumDims (fun i => dims.getD i 1) 0 := by
      rw [psInit_text given, parsed, ← count]
    have accepted : psInit argv gridNumDims numProcs 0 ≠ .rejected := by
      rw [outcome]
      exact gridSpaceMPI_ne_rejected fun i _ => getD_nonneg nonneg i
    have product : dims.prod = numProcs := by
      cases result : psInit argv gridNumDims numProcs 0 with
      | rejected => exact absurd result accepted
      | outOfRange => exact absurd result (accepts.inRange 0 processes)
      | returned space =>
          obtain ⟨_, usable⟩ := accepts.usable 0 processes space result
          rw [outcome] at result
          have total := usable.product
          rw [gridSpaceMPI_returned result, ← count] at total
          exact (prod_getD dims).symm.trans total
    refine ⟨product, ?_⟩
    -- a rank that is not rejected has been asked for a proper process grid
    have proper : ProperProcessGrid argv gridNumDims numProcs := by
      by_contra improper
      exact accepted (accepts.rejects improper 0 processes)
    rw [ProperProcessGrid, given] at proper
    obtain ⟨_, read, _⟩ := proper
    intro component listed dim rest scanned
    obtain ⟨place, bound, rfl⟩ := List.getElem_of_mem listed
    have whole := (List.forall₂_iff_get.mp read).2 place bound
      ((List.Forall₂.length_eq read) ▸ bound)
    simp only [List.get_eq_getElem] at whole
    rw [scanned, Option.some.injEq, Prod.mk.injEq] at whole
    exact whole.2
  · intro unambiguous
    -- each process is rejected, or returns with a usable and proper grid
    have outcome : ∀ rank < numProcs,
        psInit argv gridNumDims numProcs rank = .rejected ∨
          ProperProcessGrid argv gridNumDims numProcs ∧
            ∃ space, psInit argv gridNumDims numProcs rank = .returned space ∧
              space.numDims = gridNumDims ∧ space.Usable numProcs := by
      intro rank bounded
      rcases given : procOption (psInitCommon argv) with _ | _ | pp
      · right
        refine ⟨?_, psInit_default dimensions machine given bounded⟩
        rw [ProperProcessGrid, given]
        trivial
      · left
        simp only [psInit, getProcessDim, given]
      · rw [psInit_text given]
        cases parsed : parseProcDim pp with
        | none => exact Or.inl rfl
        | some dims =>
            by_cases fits : gridNumDims = dims.length ∧ ∀ dim ∈ dims, 0 ≤ dim
            · obtain ⟨count, nonneg⟩ := fits
              obtain ⟨product, whole⟩ :=
                unambiguous pp given dims parsed count.symm nonneg
              have positive : ∀ dim ∈ dims, 0 < dim := by
                intro dim listed
                rcases (nonneg dim listed).lt_or_eq with positive | zero
                · exact positive
                · rw [List.prod_eq_zero (zero ▸ listed)] at product
                  omega
              obtain ⟨returned, usable⟩ := gridSpaceMPI_of_nonneg
                (fun i _ => getD_nonneg nonneg i)
                (show ∏ i ∈ Finset.range dims.length, dims.getD i 1 = numProcs from
                  (prod_getD dims).trans product)
                machine bounded
              subst count
              exact Or.inr ⟨properProcessGrid_of_unambiguous given parsed rfl
                positive product whole, _, returned, rfl, usable⟩
            · left
              apply gridSpaceMPI_rejected
              by_contra fit
              push Not at fit
              apply fits
              refine ⟨fit.1, ?_⟩
              intro dim listed
              obtain ⟨place, bound, rfl⟩ := List.getElem_of_mem listed
              have nonneg := fit.2 place (by omega)
              rw [List.getD_eq_getElem _ _ bound] at nonneg
              exact nonneg
    constructor
    · intro rank bounded space returned
      rcases outcome rank bounded with rejected | ⟨_, other, same, fits⟩
      · rw [rejected] at returned
        cases returned
      · rw [same] at returned
        cases returned
        exact fits
    · intro rank bounded outOfRange
      rcases outcome rank bounded with rejected | ⟨_, other, same, _⟩
      · rw [rejected] at outOfRange
        cases outOfRange
      · rw [same] at outOfRange
        cases outOfRange
    · intro improper rank bounded
      rcases outcome rank bounded with rejected | ⟨proper, _⟩
      · exact rejected
      · exact absurd proper improper

/-- Six processes as two by three. -/
theorem acceptsOnlyUsable_two_by_three :
    AcceptsOnlyUsable ["a.out", "--physis-proc", "2x3"] 2 6 :=
  (acceptsOnlyUsable_iff _ (by decide) (by decide) (by decide)).mpr (by
    intro pp given dims parsed count nonneg
    cases given
    have read : parseProcDim "2x3" = some [2, 3] := by decide
    rw [read] at parsed
    cases parsed
    refine ⟨by decide, ?_⟩
    have texts : components "2x3" = [['2'], ['3']] := by decide
    have first : scanInt ['2'] = some (2, []) := by decide
    have second : scanInt ['3'] = some (3, []) := by decide
    rw [texts]
    intro component listed dim rest scanned
    rcases List.mem_pair.mp listed with rfl | rfl
    · rw [first] at scanned
      cases scanned
      rfl
    · rw [second] at scanned
      cases scanned
      rfl)

/--
Two by two processes are asked for and six are there: the first process returns
although the product of the dimensions is four.
-/
theorem not_acceptsOnlyUsable_two_by_two :
    ¬AcceptsOnlyUsable ["a.out", "--physis-proc", "2x2"] 2 6 := by
  intro accepts
  have read : parseProcDim "2x2" = some [2, 2] := by decide
  have returned : psInit ["a.out", "--physis-proc", "2x2"] 2 6 0 =
      .returned ⟨2, 2, fun i => [2, 2].getD i 1, 0⟩ := by
    rw [psInit_text (show procOption (psInitCommon
      ["a.out", "--physis-proc", "2x2"]) = some (some "2x2") by decide), read]
    rfl
  have product := (accepts.usable 0 (by decide) _ returned).2.product
  revert product
  decide

end Physis.Runtime
