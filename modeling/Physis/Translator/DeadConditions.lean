import Physis.Translator.LoopPeeling

/-!
# Dead conditions in peeled loops

In each of the peeled loops `RemoveDeadConditional` decides comparisons of the
index with a constant or with a distance from the end of a grid, from the sizes
of the peeled parts alone.  On small grids the parts overlap, the end may be that
of another grid, and a loop that starts again at the first index has not left
the last iterations to itself.
-/

namespace Physis.Translator

open Physis.Library.MachineIntegers

/-! ## Expressions of a condition -/

/--
The operands of a comparison.  The pass treats all operators but plus and minus
alike; of these `binary` is the product.
-/
inductive CondExp where
  | loopVar
  | varRef (v : Nat)
  | intVal (value : Int) (int : FitsSigned 32 value)
  | add (lhs rhs : CondExp)
  | subtract (lhs rhs : CondExp)
  | unaryAdd (operand : CondExp)
  /-- `PSGridDim(grid, dim)` -/
  | gridDim (grid dim : Nat)
  | binary (lhs rhs : CondExp)

/-- What an operand refers to when it is evaluated. -/
structure CondEnv where
  index : Int
  vars : Nat → Int
  gridDim : Nat → Nat → Int

namespace CondExp

/-- The value, in arithmetic that does not overflow. -/
def eval (env : CondEnv) : CondExp → Int
  | loopVar => env.index
  | varRef v => env.vars v
  | intVal value _ => value
  | add lhs rhs => lhs.eval env + rhs.eval env
  | subtract lhs rhs => lhs.eval env - rhs.eval env
  | unaryAdd operand => operand.eval env
  | gridDim grid dim => env.gridDim grid dim
  | binary lhs rhs => lhs.eval env * rhs.eval env

/-- The references to the index variable. -/
def loopVars : CondExp → Nat
  | loopVar => 1
  | add lhs rhs | subtract lhs rhs | binary lhs rhs => lhs.loopVars + rhs.loopVars
  | unaryAdd operand => operand.loopVars
  | varRef _ | intVal _ _ | gridDim _ _ => 0

/-- The references to other variables. -/
def varRefs : CondExp → Nat
  | varRef _ => 1
  | add lhs rhs | subtract lhs rhs | binary lhs rhs => lhs.varRefs + rhs.varRefs
  | unaryAdd operand => operand.varRefs
  | loopVar | intVal _ _ | gridDim _ _ => 0

/-- Without references the value depends on the grids only. -/
theorem eval_congr {e : CondExp} (index : e.loopVars = 0) (vars : e.varRefs = 0)
    {env other : CondEnv} (dims : env.gridDim = other.gridDim) :
    e.eval env = e.eval other := by
  induction e with
  | loopVar => simp [loopVars] at index
  | varRef v => simp [varRefs] at vars
  | intVal value int => rfl
  | gridDim grid dim => simp only [eval, dims]
  | unaryAdd operand induction => exact induction index vars
  | add lhs rhs left right | subtract lhs rhs left right | binary lhs rhs left right =>
      simp only [loopVars, varRefs, Nat.add_eq_zero_iff] at index vars
      simp only [eval, left index.1 vars.1, right index.2 vars.2]

end CondExp

/-! ## Variables with one definition -/

/-- A source of a variable in its scope. -/
inductive VarSource where
  | assignOp (rhs : CondExp)
  | initializer (operand : CondExp)
  /-- a compound assignment, an increment or a decrement -/
  | update (operand : CondExp)

/-- The operand `GetVariableSrc` collects. -/
def VarSource.operand : VarSource → CondExp
  | assignOp rhs => rhs
  | initializer operand => operand
  | update operand => operand

/-- The sources of all variables; one that is only updated has no value to update. -/
structure VarSources where
  sources : Nat → List VarSource
  defined : ∀ v source, sources v = [source] → ∀ operand, source ≠ .update operand

namespace VarSources

/-- `GetVariableSrc` -/
def getVariableSrc (defs : VarSources) (v : Nat) : List CondExp :=
  (defs.sources v).map VarSource.operand

/-- `GetDeterministicDefinition` -/
def getDeterministicDefinition (defs : VarSources) (v : Nat) : Option CondExp :=
  match defs.getVariableSrc v with
  | [src] => some src
  | _ => none

/--
A variable with one definition has the value it got there; the variables of the
definition may have changed since.
-/
def Consistent (defs : VarSources) (env : CondEnv) : Prop :=
  ∀ v definition, defs.getDeterministicDefinition v = some definition →
    ∃ earlier : CondEnv, earlier.gridDim = env.gridDim ∧
      env.vars v = definition.eval earlier

/-- An environment in which every definition was just evaluated. -/
def environment (defs : VarSources) (index : Int) (gridDim : Nat → Nat → Int) :
    CondEnv where
  index := index
  gridDim := gridDim
  vars v :=
    match defs.getDeterministicDefinition v with
    | some definition => definition.eval ⟨index, fun _ => 0, gridDim⟩
    | none => 0

theorem environment_consistent
    (defs : VarSources) (index : Int) (gridDim : Nat → Nat → Int) :
    defs.Consistent (defs.environment index gridDim) := by
  intro v definition found
  exact ⟨⟨index, fun _ => 0, gridDim⟩, rfl, by simp only [environment, found]⟩

end VarSources

/-! ## Reducing a comparison -/

/-- The local state of the loop over the nested expressions. -/
structure ScanState where
  loopVarRef : Bool
  safeToOpt : Bool
  stopped : Bool

/--
The loop over the nested expressions of a comparison, in preorder: a variable
with one definition is replaced, and the loop ends at an expression that is not
assumed, a variable without and at a second reference to the index.
-/
def CondExp.scan (defs : VarSources) : CondExp → ScanState → CondExp × ScanState
  | loopVar, s =>
      (loopVar,
        if s.stopped then s
        else if s.loopVarRef then { s with safeToOpt := false, stopped := true }
        else { s with loopVarRef := true })
  | varRef v, s =>
      if s.stopped then (varRef v, s)
      else
        match defs.getDeterministicDefinition v with
        | some vdef => (vdef, s)
        | none => (varRef v, { s with safeToOpt := false, stopped := true })
  | intVal value int, s => (intVal value int, s)
  | add lhs rhs, s =>
      let left := lhs.scan defs s
      let right := rhs.scan defs left.2
      (add left.1 right.1, right.2)
  | subtract lhs rhs, s =>
      let left := lhs.scan defs s
      let right := rhs.scan defs left.2
      (subtract left.1 right.1, right.2)
  | unaryAdd operand, s =>
      let inner := operand.scan defs s
      (unaryAdd inner.1, inner.2)
  | gridDim grid dim, s => (gridDim grid dim, { s with stopped := true })
  | binary lhs rhs, s => (binary lhs rhs, { s with stopped := true })

/-- `FindExresssionReferencingLoopVar`: the operand with the index, and the other. -/
def findExpressionReferencingLoopVar (lhs rhs : CondExp) : Option (CondExp × CondExp) :=
  if 0 < lhs.loopVars then some (lhs, rhs)
  else if 0 < rhs.loopVars then some (rhs, lhs)
  else none

/--
The loop that moves the terms other than the index to the right side, with
whether the operator still is the comparison: `FlipComparatorOp` of an equality
is a null pointer.  `none` where the translator aborts or follows that pointer.
-/
def moveTerms : (vExpr cExpr : CondExp) → (top : Bool) → Option (CondExp × Bool)
  | .loopVar, cExpr, top => some (cExpr, top)
  | .add lhs rhs, cExpr, top =>
      if 0 < lhs.loopVars then moveTerms lhs (.subtract cExpr rhs) top
      else if 0 < rhs.loopVars then moveTerms rhs (.subtract cExpr lhs) top
      else none
  | .subtract lhs rhs, cExpr, top =>
      if 0 < lhs.loopVars then moveTerms lhs (.add cExpr rhs) top
      else if 0 < rhs.loopVars ∧ top = true then
        moveTerms rhs (.subtract cExpr lhs) false
      else none
  | .unaryAdd operand, cExpr, top => moveTerms operand cExpr top
  | _, _, _ => none

/-- `InvolveGridSize` -/
def involveGridSize (exp : CondExp) (dim : Nat) : Int :=
  match exp with
  | .subtract (.gridDim _ dimArg) (.intVal value _) =>
      if (dimArg : Int) ≠ dim - 1 then -1 else value
  | _ => -1

/-- `Evaluate` of an equality -/
def evaluate (sizes : PeelSizes) (kind : LoopKind) (dim : Nat) (rhs : CondExp) : Int :=
  let minusOffset := involveGridSize rhs dim
  if 0 < minusOffset then
    match kind with
    | .first | .main => if minusOffset ≤ sizes.last then 0 else -1
    | .last => if minusOffset > sizes.last then 0 else -1
  else
    match rhs with
    | .intVal val _ =>
        match kind with
        | .first => if val < sizes.first then -1 else 0
        | .main | .last => if val < sizes.first then 0 else -1
    | _ => -1

/--
The right side that is evaluated for a comparison: nothing where it is left
alone before, `none` where the translator aborts.
-/
def reduceComparison
    (defs : VarSources) (constantFolding : CondExp → CondExp) (lhs rhs : CondExp) :
    Option (Option CondExp) :=
  let left := lhs.scan defs ⟨false, true, false⟩
  let right := rhs.scan defs left.2
  if right.2.safeToOpt = false ∨ right.2.loopVarRef = false then some none
  else do
    let (vExpr, cExpr) ← findExpressionReferencingLoopVar left.1 right.1
    let (cExpr, top) ← moveTerms vExpr cExpr true
    some (if top then some (constantFolding cExpr) else none)

/-- `evaluated_result` of a comparison; `none` where the translator aborts. -/
def evaluateComparison
    (defs : VarSources) (constantFolding : CondExp → CondExp) (sizes : PeelSizes)
    (kind : LoopKind) (dim : Nat) (lhs rhs : CondExp) : Option Int :=
  (reduceComparison defs constantFolding lhs rhs).map fun reduced =>
    match reduced with
    | some rhs => evaluate sizes kind dim rhs
    | none => -1

/-! ## The kernel body -/

/-- A comparison in a body; for the condition of an `if`, whether it has an `else`. -/
structure Comparison where
  lhs : CondExp
  rhs : CondExp
  hasElse : Option Bool

/-- The body of a loop; statements are numbered. -/
inductive KernelBody where
  | skip
  | seq (before after : KernelBody)
  /-- a statement without an equality -/
  | plain (n : Nat)
  /-- a statement with a comparison in an expression, and one with its value -/
  | compares (n : Nat) (lhs rhs : CondExp)
  | constant (n : Nat) (value : Bool)
  | ifEqual (lhs rhs : CondExp) (trueBody falseBody : KernelBody) (hasElse : Bool)

namespace KernelBody

def comparisons : KernelBody → List Comparison
  | skip | plain _ | constant _ _ => []
  | seq before after => before.comparisons ++ after.comparisons
  | compares _ lhs rhs => [⟨lhs, rhs, none⟩]
  | ifEqual lhs rhs trueBody falseBody hasElse =>
      ⟨lhs, rhs, some hasElse⟩ :: (trueBody.comparisons ++ falseBody.comparisons)

/-- What is executed in an iteration: the statements, with the values compared. -/
def trace (env : CondEnv) : KernelBody → List (Nat × Option Bool)
  | skip => []
  | seq before after => before.trace env ++ after.trace env
  | plain n => [(n, none)]
  | compares n lhs rhs => [(n, some (decide (lhs.eval env = rhs.eval env)))]
  | constant n value => [(n, some value)]
  | ifEqual lhs rhs trueBody falseBody hasElse =>
      if lhs.eval env = rhs.eval env then trueBody.trace env
      else if hasElse then falseBody.trace env
      else []

/--
`RemoveDeadConditional` with the results of its comparisons.  A branch that
replaces an `if` is a copy from before; `none` where the translator aborts, also
where there is no `else` to copy.
-/
def removeDeadConditional (result : CondExp → CondExp → Option Int) :
    KernelBody → Option KernelBody
  | skip => some skip
  | plain n => some (plain n)
  | constant n value => some (constant n value)
  | seq before after => do
      let before ← before.removeDeadConditional result
      let after ← after.removeDeadConditional result
      some (seq before after)
  | compares n lhs rhs => do
      let evaluatedResult ← result lhs rhs
      some (if evaluatedResult ≥ 0 then constant n (decide (evaluatedResult ≠ 0))
        else compares n lhs rhs)
  | ifEqual lhs rhs trueBody falseBody hasElse => do
      let evaluatedResult ← result lhs rhs
      let newTrue ← trueBody.removeDeadConditional result
      let newFalse ← falseBody.removeDeadConditional result
      if evaluatedResult ≥ 0 then
        if evaluatedResult ≠ 0 then some trueBody
        else if hasElse then some falseBody
        else none
      else some (ifEqual lhs rhs newTrue newFalse hasElse)

end KernelBody

/-! ## The iterations of the peeled loops -/

/-- The values of the index variable in each of the loops. -/
def valuesOf (type : IndexType) (env : LoopEnv) :
    List RunKernelLoop → Int → List (LoopKind × List Int)
  | [], _ => []
  | loop :: loops, i =>
      let here := loop.run type env i
      (loop.kind, here.1) :: valuesOf type env loops here.2

/-- The loop of a kind executes an iteration with this index. -/
def Executes (type : IndexType) (env : LoopEnv) (sizes : PeelSizes) (kind : LoopKind)
    (index : Int) : Prop :=
  ∃ i, ∃ part ∈ valuesOf type env (peelLoop sizes runKernelLoop) i,
    part.1 = kind ∧ ∃ value ∈ part.2, type.index value = index

/-- The loops `RemoveDeadConditional` is called for. -/
def PeelSizes.Processes (sizes : PeelSizes) : LoopKind → Prop
  | .first => 0 < sizes.first
  | .main => 0 < sizes.first ∨ 0 < sizes.last
  | .last => 0 < sizes.last

instance (sizes : PeelSizes) (kind : LoopKind) : Decidable (sizes.Processes kind) :=
  match kind with
  | .first => inferInstanceAs (Decidable (0 < sizes.first))
  | .main => inferInstanceAs (Decidable (_ ∨ _))
  | .last => inferInstanceAs (Decidable (0 < sizes.last))

section Parts

variable (type : IndexType) (env : LoopEnv) (sizes : PeelSizes)

/-- The first value of the index variable in a loop that is not empty. -/
def partStart (kind : LoopKind) : Int :=
  let b := type.convert env.domMin
  match kind with
  | .first => b
  | .main => if 0 < sizes.first then max b sizes.first else b
  | .last =>
      if 0 < sizes.first then max (max b sizes.first) (lastBound type env sizes) else b

/-- The bound of the loop. -/
def partStop (kind : LoopKind) : Int :=
  match kind with
  | .first => sizes.first
  | .main =>
      if 0 < sizes.last then lastBound type env sizes else type.convert env.domMax
  | .last => type.convert env.domMax

variable {kind : LoopKind} {index : Int}

theorem executes_iff (processed : sizes.Processes kind) :
    Executes type env sizes kind index ↔
      ∃ value, partStart type env sizes kind ≤ value ∧
        value < partStop type env sizes kind ∧ type.index value = index := by
  have first : type.convert sizes.first = sizes.first :=
    convert_nonneg type sizes.firstInt
  have grid (positive : 0 < sizes.last) :
      sizes.lastGrid.get (sizes.grid positive) = sizes.lastGrid.getD 0 :=
    Option.get_eq_getD _
  by_cases before : 0 < sizes.first
  · by_cases after : 0 < sizes.last
    · cases kind with
      | first =>
        simp [Executes, peelLoop, before, after, peelFirstIterations, peelLastIterations,
          valuesOf, RunKernelLoop.run, RunKernelLoop.start, runKernelLoop, runWhile_eq,
          BoundExp.eval, first, partStart, partStop, Int.mem_range_iff, and_assoc]
      | main | last =>
        simp [Executes, peelLoop, before, after, peelFirstIterations, peelLastIterations,
          valuesOf, RunKernelLoop.run, RunKernelLoop.start, runKernelLoop, runWhile_eq,
          BoundExp.eval, first, grid, lastBound, peelExtent, partStart, partStop,
          Int.mem_range_iff, and_assoc]
        rfl
    · cases kind with
      | last => exact absurd processed after
      | first | main =>
        simp [Executes, peelLoop, before, after, peelFirstIterations, valuesOf,
          RunKernelLoop.run, RunKernelLoop.start, runKernelLoop, runWhile_eq,
          BoundExp.eval, first, partStart, partStop, Int.mem_range_iff, and_assoc]
  · by_cases after : 0 < sizes.last
    · cases kind with
      | first => exact absurd processed before
      | main =>
        simp [Executes, peelLoop, before, after, peelLastIterations, valuesOf,
          RunKernelLoop.run, RunKernelLoop.start, runKernelLoop, runWhile_eq,
          BoundExp.eval, grid, lastBound, peelExtent, partStart, partStop,
          Int.mem_range_iff, and_assoc]
        rfl
      | last =>
        simp [Executes, peelLoop, before, after, peelLastIterations, valuesOf,
          RunKernelLoop.run, RunKernelLoop.start, runKernelLoop, runWhile_eq,
          BoundExp.eval, partStart, partStop, Int.mem_range_iff, and_assoc]
    · cases kind with
      | first => exact absurd processed before
      | last => exact absurd processed after
      | main => exact absurd processed (not_or.mpr ⟨before, after⟩)

/-- The values of an unsigned index variable are in its type. -/
theorem part_unsignedInt :
    0 ≤ partStart .unsignedInt env sizes kind ∧
      partStop .unsignedInt env sizes kind < 2 ^ 32 := by
  have domMin := convert_holds .unsignedInt env.domMin rfl
  have domMax := convert_holds .unsignedInt env.domMax rfl
  have bound := lastBound_holds .unsignedInt env sizes rfl
  have first := sizes.firstInt
  constructor
  · cases kind <;> simp only [partStart] <;> omega
  · cases kind <;> simp only [partStop] <;> omega

theorem executes_signedInt_iff (processed : sizes.Processes kind) :
    Executes .signedInt env sizes kind index ↔
      partStart .signedInt env sizes kind ≤ index ∧
        index < partStop .signedInt env sizes kind := by
  rw [executes_iff _ env sizes processed]
  constructor
  · rintro ⟨value, start, stop, rfl⟩
    exact ⟨start, stop⟩
  · rintro ⟨start, stop⟩
    exact ⟨index, start, stop, rfl⟩

/-- An index below zero has a value of the upper half. -/
theorem executes_unsignedInt_iff (processed : sizes.Processes kind) :
    Executes .unsignedInt env sizes kind index ↔
      -2 ^ 31 ≤ index ∧ index < 2 ^ 31 ∧
        partStart .unsignedInt env sizes kind ≤ index % 2 ^ 32 ∧
        index % 2 ^ 32 < partStop .unsignedInt env sizes kind := by
  have bounds := @part_unsignedInt env sizes kind
  rw [executes_iff _ env sizes processed]
  constructor
  · rintro ⟨value, start, stop, rfl⟩
    rw [index_unsignedInt (by omega)]
    split <;> omega
  · rintro ⟨least, most, start, stop⟩
    refine ⟨index % 2 ^ 32, start, stop, ?_⟩
    rw [index_unsignedInt (by omega)]
    split <;> omega

end Parts

/-! ## Which comparisons a loop decides rightly -/

/--
The right sides that no index of the loop equals, whatever the domain and the
extents are.  Only the sizes near `2 ^ 31` leave no room for an equal index
where another grid is compared or the index variable is unsigned.
-/
def Excluded (type : IndexType) (sizes : PeelSizes) (kind : LoopKind) : CondExp → Prop
  | .subtract (.gridDim grid _) (.intVal k _) =>
      match kind, type with
      | .first, _ => False
      | .main, .signedInt =>
          sizes.lastGrid = some grid ∨
            (sizes.first = 0 ∧ 2 ^ 31 - 2 ≤ sizes.last - k) ∨
            (0 < sizes.first ∧ 2 ^ 31 - 1 ≤ sizes.first + sizes.last)
      | .main, .unsignedInt =>
          2 ^ 31 ≤ sizes.first + k ∧ (sizes.lastGrid = some grid ∨ k < 3)
      | .last, type =>
          0 < sizes.first ∧ (sizes.lastGrid = some grid ∨
            (2 ^ 31 ≤ sizes.first + k ∧ (type = .signedInt ∨ sizes.last < 3)))
  | .intVal n _ =>
      match kind, type with
      | .first, _ => True
      | _, .signedInt => 0 < sizes.first
      | .main, .unsignedInt => -1 ≤ n
      | .last, .unsignedInt => -1 ≤ n ∨ (0 < sizes.first ∧ sizes.last + n ≤ 0)
  | _ => True

section Excluded

variable {type : IndexType} {sizes : PeelSizes} {kind : LoopKind}

/-- A domain and extents, one of the peeled grid and one of the others. -/
def loopEnv (sizes : PeelSizes) (domMin domMax peeled other : Int)
    (bounds : FitsSigned 32 domMin ∧ FitsSigned 32 domMax ∧
      (0 < peeled ∧ peeled < 2 ^ 31) ∧ (0 < other ∧ other < 2 ^ 31)) : LoopEnv where
  domMin := domMin
  domMax := domMax
  gridDim grid := if sizes.lastGrid.getD 0 = grid then peeled else other
  minInt := bounds.1
  maxInt := bounds.2.1
  dimInt grid := by
    split
    · exact bounds.2.2.1
    · exact bounds.2.2.2

@[simp]
theorem peelExtent_loopEnv {domMin domMax peeled other : Int} (bounds) :
    peelExtent (loopEnv sizes domMin domMax peeled other bounds) sizes = peeled := by
  simp [peelExtent, loopEnv]

/-- A constant that is not excluded is the index of an iteration. -/
theorem excluded_of_intVal_ne {n : Int} {int : FitsSigned 32 n}
    (processed : sizes.Processes kind)
    (decided : (kind = .first → sizes.first ≤ n) ∧ (kind ≠ .first → n < sizes.first))
    (all : ∀ env index, Executes type env sizes kind index → index ≠ n) :
    Excluded type sizes kind (.intVal n int) := by
  have first := sizes.firstInt
  have last := sizes.lastInt
  obtain ⟨least, most⟩ := int
  by_contra none
  cases kind with
  | first => exact none trivial
  | main =>
      have below := decided.2 (by decide)
      have room : 0 < sizes.first ∨ 0 < sizes.last := processed
      cases type with
      | signedInt =>
          simp only [Excluded] at none
          refine all (loopEnv sizes n (n + 1) sizes.last sizes.last ?_) n
            ((executes_signedInt_iff _ _ processed).mpr ?_) rfl
          · simp only [FitsSigned]
            omega
          · simp only [partStart, partStop, lastBound_signedInt, peelExtent_loopEnv]
            simp only [loopEnv, IndexType.convert]
            omega
      | unsignedInt =>
          simp only [Excluded] at none
          refine all (loopEnv sizes n (n + 1) (max sizes.last 1) 1 ?_) n
            ((executes_unsignedInt_iff _ _ processed).mpr ?_) rfl
          · simp only [FitsSigned]
            omega
          · simp only [partStart, partStop, lastBound_unsignedInt, peelExtent_loopEnv]
            simp only [loopEnv, IndexType.convert]
            omega
  | last =>
      have below := decided.2 (by decide)
      have room : 0 < sizes.last := processed
      cases type with
      | signedInt =>
          simp only [Excluded] at none
          refine all (loopEnv sizes n (n + 1) sizes.last sizes.last ?_) n
            ((executes_signedInt_iff _ _ processed).mpr ?_) rfl
          · simp only [FitsSigned]
            omega
          · simp only [partStart, partStop, lastBound_signedInt, peelExtent_loopEnv]
            simp only [loopEnv, IndexType.convert]
            omega
      | unsignedInt =>
          simp only [Excluded] at none
          refine all (loopEnv sizes n (n + 1) 1 1 ?_) n
            ((executes_unsignedInt_iff _ _ processed).mpr ?_) rfl
          · simp only [FitsSigned]
            omega
          · simp only [partStart, partStop, lastBound_unsignedInt, peelExtent_loopEnv]
            simp only [loopEnv, IndexType.convert]
            omega

/-- An excluded constant is the index of no iteration. -/
theorem intVal_ne_of_excluded {n : Int} {int : FitsSigned 32 n}
    (processed : sizes.Processes kind)
    (decided : (kind = .first → sizes.first ≤ n) ∧ (kind ≠ .first → n < sizes.first))
    (excluded : Excluded type sizes kind (.intVal n int)) (env : LoopEnv) :
    ¬Executes type env sizes kind n := by
  have first := sizes.firstInt
  have last := sizes.lastInt
  have domMin := env.minInt
  have domMax := env.maxInt
  have extent := peelExtent_bounds env sizes
  obtain ⟨least, most⟩ := int
  simp only [FitsSigned] at domMin domMax
  cases type with
  | signedInt =>
      rw [executes_signedInt_iff _ _ processed]
      rintro ⟨start, stop⟩
      cases kind with
      | first =>
          have above := decided.1 rfl
          simp only [partStop] at stop
          omega
      | main =>
          have below := decided.2 (by decide)
          simp only [Excluded] at excluded
          simp only [partStart] at start
          omega
      | last =>
          have below := decided.2 (by decide)
          simp only [Excluded] at excluded
          simp only [partStart] at start
          omega
  | unsignedInt =>
      rw [executes_unsignedInt_iff _ _ processed]
      rintro ⟨-, -, start, stop⟩
      cases kind with
      | first =>
          have above := decided.1 rfl
          simp only [partStop] at stop
          omega
      | main =>
          have below := decided.2 (by decide)
          simp only [Excluded] at excluded
          simp only [partStart, partStop, lastBound_unsignedInt, IndexType.convert]
            at start stop
          omega
      | last =>
          have below := decided.2 (by decide)
          simp only [Excluded] at excluded
          simp only [partStart, partStop, lastBound_unsignedInt, IndexType.convert]
            at start stop
          omega

theorem gridDim_loopEnv {domMin domMax peeled other : Int} (bounds) (grid : Nat) :
    (loopEnv sizes domMin domMax peeled other bounds).gridDim grid =
      if sizes.lastGrid.getD 0 = grid then peeled else other :=
  rfl

/-- A distance from the end that is not excluded is met on some domain. -/
theorem excluded_of_gridSize_ne {k : Int} {int : FitsSigned 32 k} {grid dim : Nat}
    (processed : sizes.Processes kind) (positive : 0 < k)
    (decided : (kind ≠ .last → k ≤ sizes.last) ∧ (kind = .last → sizes.last < k))
    (all : ∀ env index, Executes type env sizes kind index → index ≠ env.gridDim grid - k) :
    Excluded type sizes kind (.subtract (.gridDim grid dim) (.intVal k int)) := by
  have first := sizes.firstInt
  have last := sizes.lastInt
  obtain ⟨least, most⟩ := int
  by_contra none
  cases kind with
  | first =>
      have room : 0 < sizes.first := processed
      refine all (loopEnv sizes 0 0 k k ?_) 0 ?_ ?_
      · simp only [FitsSigned]
        omega
      · cases type with
        | signedInt =>
            refine (executes_signedInt_iff _ _ processed).mpr ?_
            simp only [partStart, partStop, loopEnv, IndexType.convert]
            omega
        | unsignedInt =>
            refine (executes_unsignedInt_iff _ _ processed).mpr ?_
            simp only [partStart, partStop, loopEnv, IndexType.convert]
            omega
      · rw [gridDim_loopEnv]
        split <;> omega
  | main =>
      have near := decided.1 (by decide)
      obtain ⟨peeled, known⟩ := Option.isSome_iff_exists.mp (sizes.grid (by omega))
      cases type with
      | signedInt =>
          simp only [Excluded, known, Option.some.injEq] at none
          obtain ⟨other, room⟩ := not_or.mp none
          by_cases before : 0 < sizes.first
          · refine all (loopEnv sizes 0 (sizes.first + 1) (sizes.first + sizes.last + 1)
              (sizes.first + k) ?_) sizes.first
              ((executes_signedInt_iff _ _ processed).mpr ?_) ?_
            · simp only [FitsSigned]
              omega
            · simp only [partStart, partStop, lastBound_signedInt, peelExtent_loopEnv]
              simp only [loopEnv, IndexType.convert]
              omega
            · rw [gridDim_loopEnv, known, Option.getD_some, if_neg other]
              omega
          · refine all (loopEnv sizes (1 - k) (2 - k) (2 ^ 31 - 1) 1 ?_) (1 - k)
              ((executes_signedInt_iff _ _ processed).mpr ?_) ?_
            · simp only [FitsSigned]
              omega
            · simp only [partStart, partStop, lastBound_signedInt, peelExtent_loopEnv]
              simp only [loopEnv, IndexType.convert]
              omega
            · rw [gridDim_loopEnv, known, Option.getD_some, if_neg other]
      | unsignedInt =>
          simp only [Excluded, known, Option.some.injEq] at none
          by_cases room : sizes.first + k < 2 ^ 31
          · -- the bound of an empty domain wraps around
            refine all (loopEnv sizes 0 (-1) (sizes.first + k) (sizes.first + k) ?_)
              sizes.first ((executes_unsignedInt_iff _ _ processed).mpr ?_) ?_
            · simp only [FitsSigned]
              omega
            · simp only [partStart, partStop, lastBound_unsignedInt, peelExtent_loopEnv]
              simp only [loopEnv, IndexType.convert]
              omega
            · rw [gridDim_loopEnv]
              split <;> omega
          · have other : peeled ≠ grid := fun equal => none ⟨by omega, .inl equal⟩
            have far : 3 ≤ k := by
              by_contra close
              exact none ⟨by omega, .inr (by omega)⟩
            refine all (loopEnv sizes (-2) (-1) sizes.last (k - 2) ?_) (-2)
              ((executes_unsignedInt_iff _ _ processed).mpr ?_) ?_
            · simp only [FitsSigned]
              omega
            · simp only [partStart, partStop, lastBound_unsignedInt, peelExtent_loopEnv]
              simp only [loopEnv, IndexType.convert]
              omega
            · rw [gridDim_loopEnv, known, Option.getD_some, if_neg other]
              omega
  | last =>
      have far := decided.2 rfl
      have positiveLast : 0 < sizes.last := processed
      obtain ⟨peeled, known⟩ := Option.isSome_iff_exists.mp (sizes.grid positiveLast)
      simp only [Excluded, known, Option.some.injEq] at none
      by_cases before : 0 < sizes.first
      · have other : peeled ≠ grid := fun equal => none ⟨before, .inl equal⟩
        by_cases room : sizes.first + k < 2 ^ 31
        · refine all (loopEnv sizes 0 (sizes.first + 1) sizes.last (sizes.first + k) ?_)
            sizes.first ?_ ?_
          · simp only [FitsSigned]
            omega
          · cases type with
            | signedInt =>
                refine (executes_signedInt_iff _ _ processed).mpr ?_
                simp only [partStart, partStop, lastBound_signedInt, peelExtent_loopEnv]
                simp only [loopEnv, IndexType.convert]
                omega
            | unsignedInt =>
                refine (executes_unsignedInt_iff _ _ processed).mpr ?_
                simp only [partStart, partStop, lastBound_unsignedInt, peelExtent_loopEnv]
                simp only [loopEnv, IndexType.convert]
                omega
          · rw [gridDim_loopEnv, known, Option.getD_some, if_neg other]
            omega
        · cases type with
          | signedInt => exact none ⟨before, .inr ⟨by omega, .inl rfl⟩⟩
          | unsignedInt =>
              have several : 3 ≤ sizes.last := by
                by_contra few
                exact none ⟨before, .inr ⟨by omega, .inr (by omega)⟩⟩
              refine all (loopEnv sizes (-2) (-1) 1 (k - 2) ?_) (-2)
                ((executes_unsignedInt_iff _ _ processed).mpr ?_) ?_
              · simp only [FitsSigned]
                omega
              · simp only [partStart, partStop, lastBound_unsignedInt, peelExtent_loopEnv]
                simp only [loopEnv, IndexType.convert]
                omega
              · rw [gridDim_loopEnv, known, Option.getD_some, if_neg other]
                omega
      · refine all (loopEnv sizes 0 1 k k ?_) 0 ?_ ?_
        · simp only [FitsSigned]
          omega
        · cases type with
          | signedInt =>
              refine (executes_signedInt_iff _ _ processed).mpr ?_
              simp only [partStart, partStop, loopEnv, IndexType.convert]
              omega
          | unsignedInt =>
              refine (executes_unsignedInt_iff _ _ processed).mpr ?_
              simp only [partStart, partStop, loopEnv, IndexType.convert]
              omega
        · rw [gridDim_loopEnv]
          split <;> omega

/-- An excluded distance from the end is met on no domain. -/
theorem gridSize_ne_of_excluded {k : Int} {int : FitsSigned 32 k} {grid dim : Nat}
    (processed : sizes.Processes kind) (positive : 0 < k)
    (decided : (kind ≠ .last → k ≤ sizes.last) ∧ (kind = .last → sizes.last < k))
    (excluded : Excluded type sizes kind (.subtract (.gridDim grid dim) (.intVal k int)))
    (env : LoopEnv) : ¬Executes type env sizes kind (env.gridDim grid - k) := by
  have first := sizes.firstInt
  have last := sizes.lastInt
  have domMin := env.minInt
  have domMax := env.maxInt
  have extent := peelExtent_bounds env sizes
  have own := env.dimInt grid
  have same (peeled : sizes.lastGrid = some grid) :
      peelExtent env sizes = env.gridDim grid := by
    rw [peelExtent, peeled, Option.getD_some]
  obtain ⟨least, most⟩ := int
  simp only [FitsSigned] at domMin domMax
  cases kind with
  | first => exact absurd excluded id
  | main =>
      have near := decided.1 (by decide)
      have positiveLast : 0 < sizes.last := by omega
      cases type with
      | signedInt =>
          rw [executes_signedInt_iff _ _ processed]
          rintro ⟨start, stop⟩
          simp only [partStart, partStop, if_pos positiveLast, lastBound_signedInt,
            IndexType.convert] at start stop
          rcases excluded with peeled | room
          · have equal := same peeled
            omega
          · omega
      | unsignedInt =>
          rw [executes_unsignedInt_iff _ _ processed]
          rintro ⟨-, -, start, stop⟩
          simp only [partStart, partStop, if_pos positiveLast, lastBound_unsignedInt,
            IndexType.convert] at start stop
          obtain ⟨room, peeled | close⟩ := excluded
          · have equal := same peeled
            omega
          · omega
  | last =>
      have far := decided.2 rfl
      obtain ⟨before, which⟩ := excluded
      cases type with
      | signedInt =>
          rw [executes_signedInt_iff _ _ processed]
          rintro ⟨start, stop⟩
          simp only [partStart, partStop, if_pos before, lastBound_signedInt,
            IndexType.convert] at start stop
          rcases which with peeled | room
          · have equal := same peeled
            omega
          · omega
      | unsignedInt =>
          rw [executes_unsignedInt_iff _ _ processed]
          rintro ⟨-, -, start, stop⟩
          simp only [partStart, partStop, if_pos before, lastBound_unsignedInt,
            IndexType.convert] at start stop
          rcases which with peeled | ⟨room, impossible | few⟩
          · have equal := same peeled
            omega
          · cases impossible
          · omega

end Excluded

/-! ## What a reduced comparison says -/

/-- Constant operands replaced by their value, in any part of an expression. -/
inductive FoldsConstants : CondExp → CondExp → Prop where
  | refl (e : CondExp) : FoldsConstants e e
  | constant {e : CondExp} (n : Int) (int : FitsSigned 32 n) (index : e.loopVars = 0)
      (vars : e.varRefs = 0) (value : ∀ env, e.eval env = n) :
      FoldsConstants e (.intVal n int)
  | add {lhs rhs newLhs newRhs : CondExp} (left : FoldsConstants lhs newLhs)
      (right : FoldsConstants rhs newRhs) :
      FoldsConstants (.add lhs rhs) (.add newLhs newRhs)
  | subtract {lhs rhs newLhs newRhs : CondExp} (left : FoldsConstants lhs newLhs)
      (right : FoldsConstants rhs newRhs) :
      FoldsConstants (.subtract lhs rhs) (.subtract newLhs newRhs)
  | unaryAdd {operand newOperand : CondExp} (inner : FoldsConstants operand newOperand) :
      FoldsConstants (.unaryAdd operand) (.unaryAdd newOperand)
  | binary {lhs rhs newLhs newRhs : CondExp} (left : FoldsConstants lhs newLhs)
      (right : FoldsConstants rhs newRhs) :
      FoldsConstants (.binary lhs rhs) (.binary newLhs newRhs)

/-- The expression has no references, and this value. -/
def CondExp.HasValue (e : CondExp) (value : CondEnv → Int) : Prop :=
  e.loopVars = 0 ∧ e.varRefs = 0 ∧ ∀ env, e.eval env = value env

theorem FoldsConstants.hasValue_intVal {e : CondExp} {n : Int} {int : FitsSigned 32 n}
    (folds : FoldsConstants e (.intVal n int)) : e.HasValue fun _ => n := by
  cases folds with
  | refl => exact ⟨rfl, rfl, fun _ => rfl⟩
  | constant n int index vars value => exact ⟨index, vars, value⟩

theorem FoldsConstants.hasValue_gridSize
    {e : CondExp} {grid dim : Nat} {k : Int} {int : FitsSigned 32 k}
    (folds : FoldsConstants e (.subtract (.gridDim grid dim) (.intVal k int))) :
    e.HasValue fun env => env.gridDim grid dim - k := by
  cases folds with
  | refl => exact ⟨rfl, rfl, fun _ => rfl⟩
  | subtract left right =>
      cases left
      obtain ⟨index, vars, value⟩ := right.hasValue_intVal
      exact ⟨by simp [CondExp.loopVars, index], by simp [CondExp.varRefs, vars],
        fun env => by simp [CondExp.eval, value]⟩

section Reduction

variable {defs : VarSources} {env : CondEnv}

/-- The reference to the index variable a state has seen. -/
def ScanState.seen (s : ScanState) : Nat :=
  if s.loopVarRef then 1 else 0

variable (defs) in
theorem seen_scan_le (e : CondExp) (s : ScanState) :
    (e.scan defs s).2.seen ≤ s.seen + (e.scan defs s).1.loopVars := by
  induction e generalizing s with
  | loopVar =>
      simp only [CondExp.scan, CondExp.loopVars]
      split
      · omega
      · split
        · exact Nat.le_succ _
        · simp only [ScanState.seen, if_true]
          omega
  | varRef v =>
      simp only [CondExp.scan]
      split
      · exact Nat.le_add_right _ _
      · split <;> exact Nat.le_add_right _ _
  | intVal value int => exact Nat.le_add_right _ _
  | gridDim grid dim | binary lhs rhs => exact Nat.le_add_right _ _
  | unaryAdd operand induction => exact induction s
  | add lhs rhs left right | subtract lhs rhs left right =>
      have before := left s
      have after := right (lhs.scan defs s).2
      simp only [CondExp.scan, CondExp.loopVars]
      omega

/--
The expression with the definitions has the same value, if they have no
references: none to variables are left, and those to the index were seen.
-/
theorem eval_scan (consistent : defs.Consistent env) (e : CondExp) (s : ScanState)
    (vars : (e.scan defs s).1.varRefs = 0)
    (count : (e.scan defs s).1.loopVars + s.seen ≤ (e.scan defs s).2.seen) :
    (e.scan defs s).1.eval env = e.eval env := by
  induction e generalizing s with
  | loopVar => rfl
  | intVal value int | gridDim grid dim | binary lhs rhs => rfl
  | unaryAdd operand induction => exact induction s vars count
  | varRef v =>
      rw [CondExp.scan] at vars count ⊢
      split at vars
      · rename_i stopped
        rw [if_pos stopped]
      · rename_i running
        rw [if_neg running] at count ⊢
        cases found : defs.getDeterministicDefinition v with
        | none => rfl
        | some definition =>
            simp only [found] at vars count ⊢
            obtain ⟨earlier, dims, value⟩ := consistent v definition found
            rw [CondExp.eval_congr (by omega) vars dims.symm, ← value, CondExp.eval]
  | add lhs rhs left right | subtract lhs rhs left right =>
      have before := seen_scan_le defs lhs s
      have after := seen_scan_le defs rhs (lhs.scan defs s).2
      simp only [CondExp.scan, CondExp.varRefs, CondExp.loopVars,
        Nat.add_eq_zero_iff] at vars count
      simp only [CondExp.scan, CondExp.eval]
      rw [left s vars.1 (by omega), right _ vars.2 (by omega)]

/-- With the comparison intact the terms are moved as in an equation. -/
theorem moveTerms_eq_some {vExpr cExpr result : CondExp} {top : Bool}
    (moved : moveTerms vExpr cExpr top = some (result, true)) :
    top = true ∧ vExpr.loopVars + cExpr.loopVars = result.loopVars + 1 ∧
      vExpr.varRefs + cExpr.varRefs = result.varRefs ∧
      ∀ env : CondEnv, vExpr.eval env = cExpr.eval env ↔ env.index = result.eval env := by
  induction vExpr generalizing cExpr top with
  | loopVar =>
      obtain ⟨rfl, rfl⟩ := Prod.mk.inj (Option.some.inj moved)
      exact ⟨rfl, by simp [CondExp.loopVars, Nat.add_comm], by simp [CondExp.varRefs],
        fun env => Iff.rfl⟩
  | varRef v | intVal value int | gridDim grid dim | binary lhs rhs => cases moved
  | unaryAdd operand induction => exact induction moved
  | add lhs rhs left right =>
      rw [moveTerms] at moved
      split at moved
      · obtain ⟨intact, index, vars, value⟩ := left moved
        simp only [CondExp.loopVars, CondExp.varRefs, CondExp.eval] at index vars value ⊢
        refine ⟨intact, by omega, by omega, fun env => ?_⟩
        rw [← value env]
        omega
      · split at moved
        · obtain ⟨intact, index, vars, value⟩ := right moved
          simp only [CondExp.loopVars, CondExp.varRefs, CondExp.eval] at index vars value ⊢
          refine ⟨intact, by omega, by omega, fun env => ?_⟩
          rw [← value env]
          omega
        · cases moved
  | subtract lhs rhs left right =>
      rw [moveTerms] at moved
      split at moved
      · obtain ⟨intact, index, vars, value⟩ := left moved
        simp only [CondExp.loopVars, CondExp.varRefs, CondExp.eval] at index vars value ⊢
        refine ⟨intact, by omega, by omega, fun env => ?_⟩
        rw [← value env]
        omega
      · split at moved
        · -- the flipped operator is a null pointer from here on
          obtain ⟨intact, -⟩ := right moved
          cases intact
        · cases moved

/-- A comparison is the equality of the index and its reduced right side. -/
theorem reduceComparison_eq_some
    {constantFolding : CondExp → CondExp}
    (folding : ∀ e, FoldsConstants e (constantFolding e)) {lhs rhs target : CondExp}
    (reduced : reduceComparison defs constantFolding lhs rhs = some (some target)) :
    ∃ source, FoldsConstants source target ∧
      ∀ value, source.HasValue value → ∀ env : CondEnv, defs.Consistent env →
        (lhs.eval env = rhs.eval env ↔ env.index = value env) := by
  rw [reduceComparison] at reduced
  split at reduced
  · cases reduced
  · rename_i passed
    simp only [Option.bind_eq_bind, Option.bind_eq_some_iff] at reduced
    obtain ⟨⟨vExpr, cExpr⟩, found, ⟨source, top⟩, moved, equal⟩ := reduced
    cases top with
    | false => cases Option.some.inj equal
    | true =>
        obtain rfl : constantFolding source = target := by simpa using equal
        refine ⟨source, folding source, fun value hasValue env consistent => ?_⟩
        obtain ⟨index, vars, evaluates⟩ := hasValue
        obtain ⟨-, count, names, equation⟩ := moveTerms_eq_some moved
        have seen : (rhs.scan defs (lhs.scan defs ⟨false, true, false⟩).2).2.seen = 1 := by
          rw [ScanState.seen, if_pos]
          simpa using (not_or.mp passed).2
        have before := seen_scan_le defs lhs ⟨false, true, false⟩
        have after := seen_scan_le defs rhs
          (lhs.scan defs ⟨false, true, false⟩).2
        have start : ScanState.seen ⟨false, true, false⟩ = 0 := rfl
        rw [findExpressionReferencingLoopVar] at found
        rw [← evaluates env, ← equation env]
        split at found
        · obtain ⟨rfl, rfl⟩ := Prod.mk.inj (Option.some.inj found)
          dsimp only at count names
          rw [eval_scan consistent lhs _ (by omega) (by omega),
            eval_scan consistent rhs _ (by omega) (by omega)]
        · split at found
          · obtain ⟨rfl, rfl⟩ := Prod.mk.inj (Option.some.inj found)
            dsimp only at count names
            rw [eval_scan consistent lhs _ (by omega) (by omega),
              eval_scan consistent rhs _ (by omega) (by omega), eq_comm]
          · cases found

end Reduction

/-! ## Removing the conditions of a body -/

theorem eq_of_involveGridSize {exp : CondExp} {dim : Nat} {k : Int}
    (involves : involveGridSize exp dim = k) (positive : 0 < k) :
    ∃ grid int, exp = .subtract (.gridDim grid (dim - 1)) (.intVal k int) := by
  unfold involveGridSize at involves
  split at involves
  · rename_i grid dimArg value int
    split at involves
    · omega
    · rename_i same
      obtain rfl : value = k := involves
      obtain rfl : dimArg = dim - 1 := by omega
      exact ⟨grid, int, rfl⟩
  · omega

/-- A comparison is decided only for constants and distances from an end. -/
theorem cases_of_evaluate
    {sizes : PeelSizes} {kind : LoopKind} {dim : Nat} {target : CondExp}
    (decided : evaluate sizes kind dim target = 0) :
    (∃ grid k int, target = .subtract (.gridDim grid (dim - 1)) (.intVal k int) ∧ 0 < k ∧
        (kind ≠ .last → k ≤ sizes.last) ∧ (kind = .last → sizes.last < k)) ∨
      ∃ n int, target = .intVal n int ∧
        (kind = .first → sizes.first ≤ n) ∧ (kind ≠ .first → n < sizes.first) := by
  simp only [evaluate] at decided
  split at decided
  · rename_i positive
    left
    obtain ⟨grid, int, equal⟩ := eq_of_involveGridSize rfl positive
    refine ⟨grid, _, int, equal, positive, ?_⟩
    cases kind with
    | first | main =>
        refine ⟨fun _ => ?_, fun impossible => (nomatch impossible)⟩
        by_contra beyond
        exact absurd decided (by simp [beyond])
    | last =>
        refine ⟨fun others => absurd rfl others, fun _ => ?_⟩
        by_contra beyond
        exact absurd decided (by simp [beyond])
  · right
    split at decided
    · rename_i n int _
      refine ⟨n, int, rfl, ?_⟩
      cases kind with
      | first =>
          refine ⟨fun _ => ?_, fun others => absurd rfl others⟩
          by_contra beyond
          exact absurd decided (by simp [lt_of_not_ge beyond])
      | main | last =>
          refine ⟨fun impossible => (nomatch impossible), fun _ => ?_⟩
          by_contra beyond
          exact absurd decided (by simp [beyond])
    · cases decided

theorem evaluate_eq (sizes : PeelSizes) (kind : LoopKind) (dim : Nat) (target : CondExp) :
    evaluate sizes kind dim target = 0 ∨ evaluate sizes kind dim target = -1 := by
  simp only [evaluate]
  split
  · cases kind <;> simp only <;> split <;> simp
  · split
    · cases kind <;> simp only <;> split <;> simp
    · exact .inr rfl

section Body

variable
    {type : IndexType} {sizes : PeelSizes} {kind : LoopKind} {dim : Nat}
    {defs : VarSources} {constantFolding : CondExp → CondExp} {body : KernelBody}

/-- An iteration of the loop of a kind, in dimension `dim`. -/
structure InIteration (type : IndexType) (sizes : PeelSizes) (kind : LoopKind) (dim : Nat)
    (defs : VarSources) (env : CondEnv) (loop : LoopEnv) : Prop where
  dims : ∀ grid, env.gridDim grid (dim - 1) = loop.gridDim grid
  executes : Executes type loop sizes kind env.index
  consistent : defs.Consistent env

/--
Every comparison that is replaced has the value that replaces it, in every
iteration of the loop, an `if` is replaced by the branch it takes, and so the
new body executes what the old one does.
-/
structure RemovesDead (type : IndexType) (sizes : PeelSizes) (dim : Nat)
    (defs : VarSources) (constantFolding : CondExp → CondExp) (body : KernelBody) :
    Prop where
  truth : ∀ kind, sizes.Processes kind → ∀ comparison ∈ body.comparisons, ∀ value,
    evaluateComparison defs constantFolding sizes kind dim comparison.lhs comparison.rhs =
      some value → 0 ≤ value →
    ∀ env loop, InIteration type sizes kind dim defs env loop →
      (comparison.lhs.eval env = comparison.rhs.eval env ↔ value ≠ 0)
  branch : ∀ kind, sizes.Processes kind → ∀ comparison ∈ body.comparisons,
    evaluateComparison defs constantFolding sizes kind dim comparison.lhs comparison.rhs =
      some 0 → comparison.hasElse ≠ some false
  trace : ∀ kind, sizes.Processes kind → ∀ newBody,
    body.removeDeadConditional (evaluateComparison defs constantFolding sizes kind dim) =
      some newBody →
    ∀ env loop, InIteration type sizes kind dim defs env loop →
      newBody.trace env = body.trace env

/--
The comparisons that are replaced in a loop have a right side that its indices
exclude, and where they are the condition of an `if` it has an `else`.
-/
def OnlyExcluded (type : IndexType) (sizes : PeelSizes) (dim : Nat)
    (defs : VarSources) (constantFolding : CondExp → CondExp) (body : KernelBody) : Prop :=
  ∀ kind, sizes.Processes kind → ∀ comparison ∈ body.comparisons, ∀ target,
    reduceComparison defs constantFolding comparison.lhs comparison.rhs =
      some (some target) → evaluate sizes kind dim target = 0 →
    Excluded type sizes kind target ∧ comparison.hasElse ≠ some false

theorem evaluateComparison_eq_zero {lhs rhs : CondExp}
    (decided : evaluateComparison defs constantFolding sizes kind dim lhs rhs = some 0) :
    ∃ target, reduceComparison defs constantFolding lhs rhs = some (some target) ∧
      evaluate sizes kind dim target = 0 := by
  obtain ⟨reduced, found, value⟩ := Option.map_eq_some_iff.mp decided
  cases reduced with
  | none => cases value
  | some target => exact ⟨target, found, value⟩

/-- A comparison is left alone or replaced by false. -/
theorem evaluateComparison_cases {lhs rhs : CondExp} {value : Int}
    (decided : evaluateComparison defs constantFolding sizes kind dim lhs rhs = some value)
    (nonneg : 0 ≤ value) : value = 0 := by
  obtain ⟨reduced, found, equal⟩ := Option.map_eq_some_iff.mp decided
  cases reduced with
  | none =>
      simp only at equal
      omega
  | some target =>
      rcases evaluate_eq sizes kind dim target with zero | minus
      · exact equal.symm.trans zero
      · simp only at equal
        omega

/-- The body behaves the same if every comparison has the value that replaces it. -/
theorem trace_removeDeadConditional {env : CondEnv} {result : CondExp → CondExp → Option Int}
    (truth : ∀ comparison ∈ body.comparisons, ∀ value,
      result comparison.lhs comparison.rhs = some value → 0 ≤ value →
        (comparison.lhs.eval env = comparison.rhs.eval env ↔ value ≠ 0))
    {newBody : KernelBody} (rewritten : body.removeDeadConditional result = some newBody) :
    newBody.trace env = body.trace env := by
  induction body generalizing newBody with
  | skip | plain n | constant n value =>
      obtain rfl := Option.some.inj rewritten
      rfl
  | seq before after first second =>
      simp only [KernelBody.removeDeadConditional, Option.bind_eq_bind,
        Option.bind_eq_some_iff] at rewritten
      obtain ⟨newBefore, rewrittenBefore, newAfter, rewrittenAfter, equal⟩ := rewritten
      obtain rfl := Option.some.inj equal
      simp only [KernelBody.trace]
      rw [first (fun comparison member => truth comparison
          (List.mem_append_left _ member)) rewrittenBefore,
        second (fun comparison member => truth comparison
          (List.mem_append_right _ member)) rewrittenAfter]
  | compares n lhs rhs =>
      simp only [KernelBody.removeDeadConditional, Option.bind_eq_bind,
        Option.bind_eq_some_iff] at rewritten
      obtain ⟨value, decided, equal⟩ := rewritten
      obtain rfl := Option.some.inj equal
      split
      · rename_i nonneg
        have same := truth ⟨lhs, rhs, none⟩ (by simp [KernelBody.comparisons]) value
          decided nonneg
        simp only [KernelBody.trace, same]
      · rfl
  | ifEqual lhs rhs trueBody falseBody hasElse taken other =>
      simp only [KernelBody.removeDeadConditional, Option.bind_eq_bind,
        Option.bind_eq_some_iff] at rewritten
      obtain ⟨value, decided, newTrue, rewrittenTrue, newFalse, rewrittenFalse, equal⟩ :=
        rewritten
      split at equal
      · rename_i nonneg
        have same := truth ⟨lhs, rhs, some hasElse⟩ (by simp [KernelBody.comparisons])
          value decided nonneg
        dsimp only at same
        split at equal
        · rename_i nonzero
          obtain rfl := Option.some.inj equal
          rw [KernelBody.trace, if_pos (same.mpr nonzero)]
        · rename_i zero
          split at equal
          · rename_i present
            obtain rfl := Option.some.inj equal
            rw [KernelBody.trace, if_neg (mt same.mp zero), if_pos present]
          · cases equal
      · obtain rfl := Option.some.inj equal
        have inner : ∀ comparison, comparison ∈ trueBody.comparisons ∨
            comparison ∈ falseBody.comparisons → comparison ∈
              (KernelBody.ifEqual lhs rhs trueBody falseBody hasElse).comparisons := by
          intro comparison member
          exact List.mem_cons_of_mem _ (List.mem_append.mpr member)
        simp only [KernelBody.trace]
        rw [taken (fun comparison member => truth comparison (inner _ (.inl member)))
            rewrittenTrue,
          other (fun comparison member => truth comparison (inner _ (.inr member)))
            rewrittenFalse]

variable (folding : ∀ e, FoldsConstants e (constantFolding e))

include folding in
/-- Excluded right sides make the replaced comparisons false. -/
theorem OnlyExcluded.removesDead
    (excluded : OnlyExcluded type sizes dim defs constantFolding body) :
    RemovesDead type sizes dim defs constantFolding body := by
  have truth : ∀ kind, sizes.Processes kind → ∀ comparison ∈ body.comparisons, ∀ value,
      evaluateComparison defs constantFolding sizes kind dim comparison.lhs
        comparison.rhs = some value → 0 ≤ value →
      ∀ env loop, InIteration type sizes kind dim defs env loop →
        (comparison.lhs.eval env = comparison.rhs.eval env ↔ value ≠ 0) := by
    intro kind processed comparison member value decided nonneg env loop iteration
    obtain rfl := evaluateComparison_cases decided nonneg
    obtain ⟨target, reduced, zero⟩ := evaluateComparison_eq_zero decided
    obtain ⟨outside, -⟩ := excluded kind processed comparison member target reduced zero
    obtain ⟨source, folds, equation⟩ := reduceComparison_eq_some folding reduced
    simp only [ne_eq, not_true_eq_false, iff_false]
    rcases cases_of_evaluate zero with
      ⟨grid, k, int, rfl, positive, decision⟩ | ⟨n, int, rfl, decision⟩
    · rw [equation _ folds.hasValue_gridSize env iteration.consistent, iteration.dims grid]
      intro equal
      exact gridSize_ne_of_excluded processed positive decision outside loop
        (equal ▸ iteration.executes)
    · rw [equation _ folds.hasValue_intVal env iteration.consistent]
      intro equal
      exact intVal_ne_of_excluded processed decision outside loop
        (equal ▸ iteration.executes)
  refine ⟨truth, ?_, ?_⟩
  · intro kind processed comparison member decided
    obtain ⟨target, reduced, zero⟩ := evaluateComparison_eq_zero decided
    exact (excluded kind processed comparison member target reduced zero).2
  · intro kind processed newBody rewritten env loop iteration
    exact trace_removeDeadConditional (fun comparison member value decided nonneg =>
      truth kind processed comparison member value decided nonneg env loop iteration)
      rewritten

include folding in
/-- A right side that is not excluded is met, on some domain and some extents. -/
theorem RemovesDead.onlyExcluded
    (removes : RemovesDead type sizes dim defs constantFolding body) :
    OnlyExcluded type sizes dim defs constantFolding body := by
  intro kind processed comparison member target reduced zero
  have decided : evaluateComparison defs constantFolding sizes kind dim comparison.lhs
      comparison.rhs = some 0 := by
    simp only [evaluateComparison, reduced, Option.map_some, zero]
  refine ⟨?_, removes.branch kind processed comparison member decided⟩
  obtain ⟨source, folds, equation⟩ := reduceComparison_eq_some folding reduced
  -- the comparison is false in the environment of every iteration
  have differs : ∀ (loop : LoopEnv) (index : Int), Executes type loop sizes kind index →
      ∀ value, source.HasValue value →
        index ≠ value (defs.environment index fun grid _ => loop.gridDim grid) := by
    intro loop index executes value hasValue equal
    have consistent :=
      defs.environment_consistent index fun grid _ => loop.gridDim grid
    have same := (equation value hasValue _ consistent).mpr equal
    exact (removes.truth kind processed comparison member 0 decided le_rfl _ loop
      ⟨fun _ => rfl, executes, consistent⟩).mp same rfl
  rcases cases_of_evaluate zero with
    ⟨grid, k, int, rfl, positive, decision⟩ | ⟨n, int, rfl, decision⟩
  · exact excluded_of_gridSize_ne processed positive decision
      fun loop index executes => differs loop index executes _ folds.hasValue_gridSize
  · exact excluded_of_intVal_ne processed decision
      fun loop index executes => differs loop index executes _ folds.hasValue_intVal

/--
The conditions removed from a body are dead exactly if every right side that is
decided is excluded, and every `if` that is replaced has an `else`.
-/
theorem removesDead_iff (folding : ∀ e, FoldsConstants e (constantFolding e)) :
    RemovesDead type sizes dim defs constantFolding body ↔
      OnlyExcluded type sizes dim defs constantFolding body :=
  ⟨RemovesDead.onlyExcluded folding, OnlyExcluded.removesDead folding⟩

end Body

/-! ## A kernel with conditions at both ends -/

/-- No variable but the index. -/
def noVariables : VarSources where
  sources _ := []
  defined _ _ impossible := nomatch impossible

/-- `if (i == 0) ... else ...` -/
def startCondition : KernelBody :=
  .ifEqual .loopVar (.intVal 0 fits_zero) (.plain 0) (.plain 1) true

/-- Conditional accesses one point back, and one point ahead too. -/
def backSizes : PeelSizes :=
  PeelSizes.ofGets 1 [⟨0, [⟨1, -1⟩], true⟩]

def bothSizes : PeelSizes :=
  PeelSizes.ofGets 1 [⟨0, [⟨1, -1⟩], true⟩, ⟨0, [⟨1, 1⟩], true⟩]

/-- The condition at the start is removed from the main loop, with a first part only. -/
theorem startCondition_removesDead :
    evaluateComparison noVariables id backSizes .main 1 .loopVar
        (.intVal 0 (by decide)) = some 0 ∧
      RemovesDead .unsignedInt backSizes 1 noVariables id startCondition := by
  refine ⟨by decide, (removesDead_iff FoldsConstants.refl).mpr ?_⟩
  intro kind processed comparison member target reduced decided
  obtain rfl := List.mem_singleton.mp member
  obtain rfl : CondExp.intVal 0 (by decide) = target :=
    Option.some.inj (Option.some.inj reduced)
  cases kind with
  | first => exact ⟨trivial, by simp⟩
  | main => exact ⟨show (-1 : Int) ≤ 0 by decide, by simp⟩
  | last => exact absurd processed (by decide)

/-- `if (i == PSGridDim(g, 0) - 1) ... else ...` -/
def endCondition : KernelBody :=
  .ifEqual .loopVar (.subtract (.gridDim 0 0) (.intVal 1 (by decide))) (.plain 0) (.plain 1)
    true

/-- The whole of a grid of one point. -/
def onePoint : LoopEnv where
  domMin := 0
  domMax := 1
  gridDim := fun _ => 1
  minInt := fits_zero
  maxInt := by decide
  dimInt := fun _ => by decide

/-- On one point the first loop executes the last index, and its condition is removed. -/
theorem endCondition_not_removesDead :
    evaluateComparison noVariables id bothSizes .first 1 .loopVar
        (.subtract (.gridDim 0 0) (.intVal 1 (by decide))) = some 0 ∧
      Executes .unsignedInt onePoint bothSizes .first (onePoint.gridDim 0 - 1) ∧
      ¬RemovesDead .unsignedInt bothSizes 1 noVariables id endCondition := by
  refine ⟨by decide, ?_, fun removes => ?_⟩
  · exact (executes_unsignedInt_iff onePoint bothSizes (by decide)).mpr (by decide)
  · have excluded := removes.onlyExcluded FoldsConstants.refl
    have never := (excluded .first (by decide)
      ⟨.loopVar, .subtract (.gridDim 0 0) (.intVal 1 (by decide)), some true⟩
      (List.mem_singleton.mpr rfl) (.subtract (.gridDim 0 0) (.intVal 1 (by decide)))
      rfl (by decide)).1
    exact never

end Physis.Translator
