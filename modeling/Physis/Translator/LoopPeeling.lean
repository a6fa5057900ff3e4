import Mathlib.Data.Int.Range
import Physis.Library.MachineIntegers
import Physis.Translator.GetKernel

/-!
# Loop peeling

The innermost loop of a run function is split into a loop for the first
iterations, a main loop and a loop for the last ones.  The three share the index
variable: a loop without initialization goes on where the one before it stopped.
The first loop does not test the end of the domain, and without it the last loop
keeps the initialization of the original.
-/

namespace Physis.Translator

open Physis.Library.MachineIntegers

/-! ## The loops -/

/-- The type of the index variable: of the reference translator and of the CUDA one. -/
inductive IndexType where
  | unsignedInt
  | signedInt
deriving DecidableEq, Repr

namespace IndexType

/-- An `int` converted to the type, in an assignment or a comparison. -/
def convert : IndexType → Int → Int
  | unsignedInt, value => value % 2 ^ 32
  | signedInt, value => value

/-- The index as the kernel sees it, which takes it as an `int`. -/
def index : IndexType → Int → Int
  | unsignedInt, value => toSigned 32 value
  | signedInt, value => value

end IndexType

/-- `RunKernelLoopAttribute::Kind` -/
inductive LoopKind where
  | main
  | first
  | last
deriving DecidableEq, Repr

/-- The expressions in the bounds of a loop; grids are numbered. -/
inductive BoundExp where
  | domMin
  | domMax
  | intVal (value : Int)
  | gridDim (grid : Nat)
  | subtract (lhs rhs : BoundExp)
  | min (x y : BoundExp)
  | max (x y : BoundExp)

/-- The bounds of the domain and the extents of the grids in the loop's dimension. -/
structure LoopEnv where
  domMin : Int
  domMax : Int
  gridDim : Nat → Int
  minInt : FitsSigned 32 domMin
  maxInt : FitsSigned 32 domMax
  dimInt : ∀ grid, 0 < gridDim grid ∧ gridDim grid < 2 ^ 31

/-- The value of a bound; `BuildMin` and `BuildMax` make conditional expressions. -/
def BoundExp.eval (env : LoopEnv) : BoundExp → Int
  | domMin => env.domMin
  | domMax => env.domMax
  | intVal value => value
  | gridDim grid => env.gridDim grid
  | subtract lhs rhs => lhs.eval env - rhs.eval env
  | min x y => if x.eval env < y.eval env then x.eval env else y.eval env
  | max x y => if x.eval env > y.eval env then x.eval env else y.eval env

/-- A loop of a run function with its attribute. -/
structure RunKernelLoop where
  /-- the value assigned first, if the initialization is not empty -/
  init : Option BoundExp
  /-- the right operand of the comparison with the index variable -/
  test : BoundExp
  beginBound : BoundExp
  endBound : BoundExp
  kind : LoopKind

/-- The loop of `BuildRunKernelBody`. -/
def runKernelLoop : RunKernelLoop where
  init := some .domMin
  test := .domMax
  beginBound := .domMin
  endBound := .domMax
  kind := .main

/-! ## The sizes of the peeled parts -/

/-- An access of the kernel body, and whether a conditional node is around it. -/
structure GridGetSite where
  grid : Nat
  indexList : StencilIndexList
  conditional : Bool

/-- `FindProfitablePeelSize`; the offset is returned as an `int`. -/
def findProfitablePeelSize (get : GridGetSite) (loopDim : Nat) : Int :=
  if stencilIndexRegularOrder get.indexList get.indexList.length then
    let offset := (StencilIndexList.at get.indexList (loopDim - 1)).offset
    if offset = 0 then 0
    else if get.conditional then toSigned 32 offset
    else 0
  else 0

/-- `peel_size_first`, `peel_size_last` and `peel_last_grid`. -/
structure PeelSizes where
  first : Int
  last : Int
  lastGrid : Option Nat
  firstInt : 0 ≤ first ∧ first < 2 ^ 31
  lastInt : 0 ≤ last ∧ last < 2 ^ 31
  grid : 0 < last → lastGrid.isSome

theorem toSigned_lt (value : Int) : toSigned 32 value < 2 ^ 31 := by
  have upper := Int.bmod_lt (x := value) (m := 2 ^ 32) (by decide)
  simpa [toSigned] using upper

theorem findProfitablePeelSize_lt (get : GridGetSite) (loopDim : Nat) :
    findProfitablePeelSize get loopDim < 2 ^ 31 := by
  simp only [findProfitablePeelSize]
  split_ifs
  · decide
  · exact toSigned_lt _
  · decide
  · decide

namespace PeelSizes

/-- No access seen yet. -/
def zero : PeelSizes where
  first := 0
  last := 0
  lastGrid := none
  firstInt := by decide
  lastInt := by decide
  grid positive := absurd positive (lt_irrefl 0)

/-- The body of the loop over the accesses in `PeelLoop`. -/
def consider (loopDim : Nat) (sizes : PeelSizes) (get : GridGetSite) : PeelSizes :=
  let peelSize := findProfitablePeelSize get loopDim
  have small : peelSize < 2 ^ 31 := findProfitablePeelSize_lt get loopDim
  if peelSize = 0 then sizes
  else if peelSize < 0 then
    { sizes with
      first := max sizes.first (toSigned 32 |peelSize|)
      firstInt := ⟨sizes.firstInt.1.trans (le_max_left _ _),
        max_lt sizes.firstInt.2 (toSigned_lt _)⟩ }
  else if ahead : 0 < peelSize then
    match sizes.lastGrid with
    | none =>
        { sizes with
          last := peelSize
          lastGrid := some get.grid
          lastInt := ⟨ahead.le, small⟩
          grid := fun _ => rfl }
    | some grid =>
        if grid = get.grid then
          { sizes with
            last := max peelSize sizes.last
            lastGrid := some grid
            lastInt := ⟨sizes.lastInt.1.trans (le_max_right _ _),
              max_lt small sizes.lastInt.2⟩
            grid := fun _ => rfl }
        else sizes
  else sizes

/-- The sizes `PeelLoop` finds. -/
def ofGets (loopDim : Nat) (gets : List GridGetSite) : PeelSizes :=
  gets.foldl (consider loopDim) zero

end PeelSizes

/-! ## Peeling -/

/-- `PeelFirstIterations`: the loop of the first iterations, and the rest. -/
def peelFirstIterations (loop : RunKernelLoop) (peelSize : Int) :
    RunKernelLoop × RunKernelLoop :=
  let loopEnd := BoundExp.intVal peelSize
  ({ loop with
      test := loopEnd
      endBound := loopEnd
      kind := .first },
    { loop with
      init := none
      beginBound := .max loop.beginBound loopEnd })

/-- `PeelLastIterations`: the rest, and the loop of the last iterations. -/
def peelLastIterations (loop : RunKernelLoop) (peelSize : Int) (peelGrid : Nat) :
    RunKernelLoop × RunKernelLoop :=
  let loopEnd := BoundExp.min loop.endBound
    (.subtract (.gridDim peelGrid) (.intVal peelSize))
  ({ loop with
      test := loopEnd
      endBound := loopEnd },
    { loop with
      beginBound := loopEnd
      kind := .last })

/-- `PeelLoop`: the loops in the order they are executed. -/
def peelLoop (sizes : PeelSizes) (loop : RunKernelLoop) : List RunKernelLoop :=
  let (before, loop) :=
    if 0 < sizes.first then
      let (peeled, rest) := peelFirstIterations loop sizes.first
      ([peeled], rest)
    else ([], loop)
  if positive : 0 < sizes.last then
    let (rest, peeled) :=
      peelLastIterations loop sizes.last (sizes.lastGrid.get (sizes.grid positive))
    before ++ [rest, peeled]
  else before ++ [loop]

/-! ## Running the loops -/

/--
`for (; i < bound; ++i)`: the values of the index variable in the body, and the
one after the loop.  Below a bound of its type the increment does not wrap.
-/
def runWhile (bound i : Int) : List Int × Int :=
  if i < bound then
    let rest := runWhile bound (i + 1)
    (i :: rest.1, rest.2)
  else ([], i)
termination_by (bound - i).toNat

/-- The value of the index variable at the first test. -/
def RunKernelLoop.start (type : IndexType) (env : LoopEnv) (loop : RunKernelLoop)
    (i : Int) : Int :=
  match loop.init with
  | some value => type.convert (value.eval env)
  | none => i

/-- One loop, from a value of the index variable. -/
def RunKernelLoop.run (type : IndexType) (env : LoopEnv) (loop : RunKernelLoop) (i : Int) :
    List Int × Int :=
  runWhile (type.convert (loop.test.eval env)) (loop.start type env i)

/-- Loops one after another. -/
def runLoops (type : IndexType) (env : LoopEnv) : List RunKernelLoop → Int → List Int × Int
  | [], i => ([], i)
  | loop :: loops, i =>
      let here := loop.run type env i
      let rest := runLoops type env loops here.2
      (here.1 ++ rest.1, rest.2)

/-! ## The values of the index variable -/

theorem range_of_le {first last : Int} (empty : last ≤ first) :
    Int.range first last = [] := by
  simp [Int.range, Int.toNat_of_nonpos (sub_nonpos.mpr empty)]

theorem range_succ_left {first last : Int} (below : first < last) :
    Int.range first last = first :: Int.range (first + 1) last := by
  have count : (last - first).toNat = (last - (first + 1)).toNat + 1 := by omega
  rw [Int.range, Int.range, count, List.range_succ_eq_map, List.map_cons, List.map_map]
  refine congrArg₂ List.cons (by simp) (List.map_congr_left fun k _ => ?_)
  simp only [Function.comp_apply]
  push_cast
  ring

theorem range_append {first mid last : Int} (before : first ≤ mid) (after : mid ≤ last) :
    Int.range first mid ++ Int.range mid last = Int.range first last := by
  obtain ⟨count, rfl⟩ : ∃ count : Nat, mid = first + count :=
    ⟨(mid - first).toNat, by omega⟩
  induction count generalizing first with
  | zero => simp [range_of_le]
  | succ count induction =>
      have next : first + 1 + (count : Int) = first + (count + 1 : Nat) := by omega
      rw [range_succ_left (by omega : first < first + ((count + 1 : Nat) : Int)),
        range_succ_left (by omega : first < last), List.cons_append, ← next,
        induction (by omega) (by omega)]

theorem runWhile_eq (bound i : Int) :
    runWhile bound i = (Int.range i bound, max i bound) := by
  induction i using runWhile.induct bound with
  | case1 i below induction =>
      rw [runWhile, if_pos below, range_succ_left below, induction,
        max_eq_right (by omega), max_eq_right below.le]
  | case2 i stopped =>
      rw [runWhile, if_neg stopped, range_of_le (by omega), max_eq_left (by omega)]

/-- A loop goes on where another one stopped. -/
theorem range_append_range (first mid last : Int) :
    Int.range first mid ++ Int.range (max first mid) last =
      Int.range first (max mid last) := by
  rcases le_total mid first with empty | before
  · rw [range_of_le empty, max_eq_left empty, List.nil_append]
    rcases le_total last mid with done | more
    · rw [max_eq_left done, range_of_le (done.trans empty), range_of_le empty]
    · rw [max_eq_right more]
  · rw [max_eq_right before]
    rcases le_total last mid with done | more
    · rw [max_eq_left done, range_of_le done, List.append_nil]
    · rw [max_eq_right more, range_append before more]

theorem nodup_range (first last : Int) : (Int.range first last).Nodup :=
  List.nodup_range.map fun x y equal => by simpa using equal

section Values

variable (type : IndexType) (env : LoopEnv) (sizes : PeelSizes)

/-- The extent of the grid the last iterations are peeled for. -/
def peelExtent : Int :=
  env.gridDim (sizes.lastGrid.getD 0)

/-- The bound of the main loop if the last iterations are peeled. -/
def lastBound : Int :=
  type.convert
    (if env.domMax < peelExtent env sizes - sizes.last then env.domMax
    else peelExtent env sizes - sizes.last)

/-- The values the index variable takes in the bodies of the loops. -/
def peeledValues : List Int :=
  let b := type.convert env.domMin
  let e := type.convert env.domMax
  if 0 < sizes.first then
    if 0 < sizes.last then
      Int.range b (max sizes.first (max (lastBound type env sizes) e))
    else Int.range b (max sizes.first e)
  else if 0 < sizes.last then
    Int.range b (lastBound type env sizes) ++ Int.range b e
  else Int.range b e

theorem convert_nonneg {value : Int} (bounds : 0 ≤ value ∧ value < 2 ^ 31) :
    type.convert value = value := by
  cases type with
  | unsignedInt => exact Int.emod_eq_of_lt bounds.1 (by omega)
  | signedInt => rfl

theorem runLoops_peelLoop (i : Int) :
    (runLoops type env (peelLoop sizes runKernelLoop) i).1 =
      peeledValues type env sizes := by
  have first : type.convert sizes.first = sizes.first :=
    convert_nonneg type sizes.firstInt
  have grid (positive : 0 < sizes.last) :
      sizes.lastGrid.get (sizes.grid positive) = sizes.lastGrid.getD 0 :=
    Option.get_eq_getD _
  by_cases before : 0 < sizes.first
  · by_cases after : 0 < sizes.last
    · simp only [peelLoop, before, after, if_true, dif_pos, peelFirstIterations,
        peelLastIterations, runLoops, RunKernelLoop.run, RunKernelLoop.start,
        runKernelLoop, runWhile_eq, BoundExp.eval, first, grid, List.cons_append,
        List.nil_append, List.append_nil, peeledValues, lastBound, peelExtent]
      rw [range_append_range, range_append_range]
      rfl
    · simp only [peelLoop, before, after, if_true, dif_neg, peelFirstIterations,
        runLoops, RunKernelLoop.run, RunKernelLoop.start, not_false_eq_true,
        runKernelLoop, runWhile_eq, BoundExp.eval, first, List.cons_append,
        List.nil_append, List.append_nil, peeledValues, if_false]
      exact range_append_range _ _ _
  · by_cases after : 0 < sizes.last
    · simp only [peelLoop, before, after, if_false, dif_pos, peelLastIterations,
        runLoops, RunKernelLoop.run, RunKernelLoop.start, runKernelLoop, runWhile_eq,
        BoundExp.eval, grid, List.nil_append, List.append_nil, peeledValues, lastBound,
        peelExtent, if_true]
      rfl
    · simp only [peelLoop, before, after, if_false, dif_neg, not_false_eq_true,
        runLoops, RunKernelLoop.run, RunKernelLoop.start, runKernelLoop, runWhile_eq,
        BoundExp.eval, List.nil_append, List.append_nil, peeledValues]

/-! ## The values the kernel sees -/

/-- Where the indices are those of an interval, their numbers agree. -/
theorem map_range_eq_iff {first last low high : Int} {f : Int → Int}
    (follows : ∀ k : Nat, first + k < last → low + k < high → f (first + k) = low + k) :
    (Int.range first last).map f = Int.range low high ↔
      (last - first).toNat = (high - low).toNat := by
  constructor
  · intro equal
    simpa [Int.range] using congrArg List.length equal
  · intro count
    rw [Int.range, Int.range, count, List.map_map]
    refine List.map_congr_left fun k member => ?_
    have below := List.mem_range.mp member
    exact follows k (by omega) (by omega)

theorem index_unsignedInt {value : Int} (bounds : 0 ≤ value ∧ value < 2 ^ 32) :
    IndexType.unsignedInt.index value =
      if value < 2 ^ 31 then value else value - 2 ^ 32 := by
  simp only [IndexType.index, toSigned]
  split
  · exact Int.bmod_eq_of_le (by omega) (by omega)
  · rename_i large
    rw [← Int.sub_bmod_right]
    exact Int.bmod_eq_of_le (by push_cast; omega) (by push_cast; omega)

/-- A stop value of the type; an unsigned one is below `2 ^ 32`. -/
def IndexType.Holds (value : Int) : Prop :=
  type = .unsignedInt → 0 ≤ value ∧ value < 2 ^ 32

theorem convert_holds (value : Int) : type.Holds (type.convert value) := by
  rintro rfl
  exact ⟨Int.emod_nonneg _ (by decide), Int.emod_lt_of_pos _ (by decide)⟩

/-- From the start of the domain the indices are right if their number is. -/
theorem indices_eq_iff {stop : Int} (holds : type.Holds stop) :
    (Int.range (type.convert env.domMin) stop).map type.index =
        Int.range env.domMin env.domMax ↔
      (stop - type.convert env.domMin).toNat = (env.domMax - env.domMin).toNat := by
  apply map_range_eq_iff
  intro k below inside
  cases type with
  | signedInt => rfl
  | unsignedInt =>
      have bounds := holds rfl
      obtain ⟨least, most⟩ := env.minInt
      have end_ := env.maxInt.2
      simp only [IndexType.convert] at below ⊢
      rw [index_unsignedInt (by omega)]
      split <;> omega

theorem lastBound_holds : type.Holds (lastBound type env sizes) :=
  convert_holds type _

/-! ## When the sequence is preserved -/

/--
The loops run the body for the indices of the domain, once each and in order,
whatever the index variable held before.
-/
def IterationsPreserved : Prop :=
  ∀ i, (runLoops type env (peelLoop sizes runKernelLoop) i).1.map type.index =
    Int.range env.domMin env.domMax

/--
The first part ends within the domain or before it, and last iterations alone
are peeled only where the main loop has none.  An unsigned index also needs
bounds of one sign and an extent of at least the last part.
-/
structure PeelsWithin : Prop where
  first : 0 < sizes.first → sizes.first ≤ max env.domMin env.domMax ∨
    (type = .unsignedInt ∧ env.domMin < 0)
  last : sizes.first = 0 → 0 < sizes.last → env.domMax ≤ env.domMin ∨
    peelExtent env sizes - sizes.last ≤ env.domMin
  sign : type = .unsignedInt → (env.domMin < 0 ↔ env.domMax < 0)
  extent : type = .unsignedInt → 0 < sizes.last → env.domMin < 0 ∨
    sizes.last ≤ peelExtent env sizes

/-- A value that comes twice is not in an interval. -/
theorem range_append_map_ne {first mid last low high : Int} {f : Int → Int}
    (some : first < mid) (more : first < last) :
    (Int.range first mid ++ Int.range first last).map f ≠ Int.range low high := by
  intro equal
  have nodup := (equal ▸ nodup_range low high).of_map f
  rw [List.nodup_append'] at nodup
  exact nodup.2.2 (Int.mem_range_iff.mpr ⟨le_rfl, some⟩)
    (Int.mem_range_iff.mpr ⟨le_rfl, more⟩)

theorem peelExtent_bounds :
    0 < peelExtent env sizes ∧ peelExtent env sizes < 2 ^ 31 :=
  env.dimInt _

theorem lastBound_signedInt :
    lastBound .signedInt env sizes =
      min env.domMax (peelExtent env sizes - sizes.last) := by
  rw [lastBound, IndexType.convert]
  split <;> omega

theorem lastBound_unsignedInt :
    lastBound .unsignedInt env sizes =
      min env.domMax (peelExtent env sizes - sizes.last) % 2 ^ 32 := by
  rw [lastBound, IndexType.convert]
  split <;> congr 1 <;> omega

/-- The numbers of indices agree if the first iterations are peeled. -/
theorem count_first_iff (before : 0 < sizes.first) :
    ((if 0 < sizes.last then
          max sizes.first (max (lastBound type env sizes) (type.convert env.domMax))
        else max sizes.first (type.convert env.domMax)) -
        type.convert env.domMin).toNat = (env.domMax - env.domMin).toNat ↔
      PeelsWithin type env sizes := by
  obtain ⟨least, most⟩ := env.minInt
  obtain ⟨leastMax, mostMax⟩ := env.maxInt
  have extent := peelExtent_bounds env sizes
  have first := sizes.firstInt
  have last := sizes.lastInt
  constructor
  · intro count
    cases type with
    | signedInt =>
        rw [lastBound_signedInt] at count
        simp only [IndexType.convert] at count
        refine ⟨fun _ => .inl ?_, fun none => absurd before (by omega),
          fun impossible => (nomatch impossible), fun impossible => (nomatch impossible)⟩
        split at count <;> omega
    | unsignedInt =>
        rw [lastBound_unsignedInt] at count
        simp only [IndexType.convert] at count
        refine ⟨fun _ => ?_, fun none => absurd before (by omega), fun _ => ?_,
          fun _ after => ?_⟩
        · simp only [true_and]
          split at count <;> omega
        · split at count <;> omega
        · rw [if_pos after] at count
          omega
  · rintro ⟨within, -, sign, room⟩
    have within := within before
    cases type with
    | signedInt =>
        simp only [reduceCtorEq, false_and, or_false] at within
        rw [lastBound_signedInt]
        simp only [IndexType.convert]
        split <;> omega
    | unsignedInt =>
        simp only [true_and] at within
        have sign := sign rfl
        have room := room rfl
        rw [lastBound_unsignedInt]
        simp only [IndexType.convert]
        split <;> omega

/-- They agree if only last iterations are peeled and one of the loops is empty. -/
theorem count_last_iff (none : sizes.first = 0) (after : 0 < sizes.last) :
    (lastBound type env sizes ≤ type.convert env.domMin ∧
        (type.convert env.domMax - type.convert env.domMin).toNat =
          (env.domMax - env.domMin).toNat) ∨
      (type.convert env.domMax ≤ type.convert env.domMin ∧
        (lastBound type env sizes - type.convert env.domMin).toNat =
          (env.domMax - env.domMin).toNat) ↔
      PeelsWithin type env sizes := by
  obtain ⟨least, most⟩ := env.minInt
  obtain ⟨leastMax, mostMax⟩ := env.maxInt
  have extent := peelExtent_bounds env sizes
  have last := sizes.lastInt
  constructor
  · intro count
    cases type with
    | signedInt =>
        rw [lastBound_signedInt] at count
        simp only [IndexType.convert] at count
        refine ⟨fun before => absurd before (by omega), fun _ _ => ?_,
          fun impossible => (nomatch impossible), fun impossible => (nomatch impossible)⟩
        omega
    | unsignedInt =>
        rw [lastBound_unsignedInt] at count
        simp only [IndexType.convert] at count
        refine ⟨fun before => absurd before (by omega), fun _ _ => ?_, fun _ => ?_,
          fun _ _ => ?_⟩ <;> omega
  · rintro ⟨-, within, sign, room⟩
    have within := within none after
    left
    cases type with
    | signedInt =>
        rw [lastBound_signedInt]
        simp only [IndexType.convert, and_true]
        omega
    | unsignedInt =>
        have sign := sign rfl
        have room := room rfl after
        rw [lastBound_unsignedInt]
        simp only [IndexType.convert]
        omega

/-- Without peeling only the sign matters, and only to an unsigned index. -/
theorem count_whole_iff (none : sizes.first = 0) (whole : sizes.last = 0) :
    (type.convert env.domMax - type.convert env.domMin).toNat =
        (env.domMax - env.domMin).toNat ↔ PeelsWithin type env sizes := by
  obtain ⟨least, most⟩ := env.minInt
  obtain ⟨leastMax, mostMax⟩ := env.maxInt
  constructor
  · intro count
    refine ⟨fun before => absurd before (by omega), fun _ after => absurd after (by omega),
      ?_, fun _ after => absurd after (by omega)⟩
    rintro rfl
    simp only [IndexType.convert] at count
    omega
  · rintro ⟨-, -, sign, -⟩
    cases type with
    | signedInt => rfl
    | unsignedInt =>
        have sign := sign rfl
        simp only [IndexType.convert]
        omega

/--
Peeling preserves the sequence of iterations exactly if it stays within the
domain.
-/
theorem peeling_preserves_iff :
    IterationsPreserved type env sizes ↔ PeelsWithin type env sizes := by
  have whole := convert_holds type env.domMax
  have rest := lastBound_holds type env sizes
  have first := sizes.firstInt
  have last := sizes.lastInt
  simp only [IterationsPreserved, runLoops_peelLoop, forall_const]
  rw [peeledValues]
  by_cases before : 0 < sizes.first
  · rw [if_pos before, ← count_first_iff type env sizes before]
    split
    · refine indices_eq_iff type env fun unsigned => ?_
      have wholeBounds := whole unsigned
      have restBounds := rest unsigned
      omega
    · refine indices_eq_iff type env fun unsigned => ?_
      have wholeBounds := whole unsigned
      omega
  · have none : sizes.first = 0 := by omega
    rw [if_neg before]
    by_cases after : 0 < sizes.last
    · rw [if_pos after, ← count_last_iff type env sizes none after]
      rcases le_or_gt (lastBound type env sizes) (type.convert env.domMin) with empty | some
      · rw [range_of_le empty, List.nil_append, indices_eq_iff type env whole]
        constructor
        · exact fun count => .inl ⟨empty, count⟩
        · rintro (⟨-, count⟩ | ⟨start, count⟩)
          · exact count
          · omega
      · rcases le_or_gt (type.convert env.domMax) (type.convert env.domMin) with done | more
        · rw [range_of_le done, List.append_nil, indices_eq_iff type env rest]
          constructor
          · exact fun count => .inr ⟨done, count⟩
          · rintro (⟨impossible, -⟩ | ⟨-, count⟩)
            · exact absurd impossible some.not_ge
            · exact count
        · constructor
          · exact fun equal => absurd equal (range_append_map_ne some more)
          · rintro (⟨impossible, -⟩ | ⟨impossible, -⟩)
            · exact absurd impossible some.not_ge
            · exact absurd impossible more.not_ge
    · rw [if_neg after, indices_eq_iff type env whole]
      exact count_whole_iff type env sizes none (by omega)

end Values

/-! ## A domain of four points -/

/-- A kernel with a conditional access one point ahead. -/
def aheadSizes : PeelSizes :=
  PeelSizes.ofGets 1 [⟨0, [⟨1, 1⟩], true⟩]

theorem fits_zero : FitsSigned 32 0 := by decide

/-- The whole of a grid of four points. -/
def fourPoints : LoopEnv where
  domMin := 0
  domMax := 4
  gridDim := fun _ => 4
  minInt := fits_zero
  maxInt := by decide
  dimInt := fun _ => by decide

/-- The last loop starts again at the first point. -/
theorem fourPoints_not_preserved :
    (runLoops .unsignedInt fourPoints (peelLoop aheadSizes runKernelLoop) 0).1 =
        [0, 1, 2, 0, 1, 2, 3] ∧
      ¬IterationsPreserved .unsignedInt fourPoints aheadSizes := by
  have values : (runLoops .unsignedInt fourPoints (peelLoop aheadSizes runKernelLoop) 0).1 =
      [0, 1, 2, 0, 1, 2, 3] := by
    rw [runLoops_peelLoop]
    decide
  refine ⟨values, fun preserved => ?_⟩
  have indices := preserved 0
  rw [values] at indices
  exact absurd indices (by decide)

end Physis.Translator
