import Mathlib.Logic.Function.Basic
import Mathlib.Logic.Function.Iterate
import Physis.Library.Runs

/-!
# Conditional gets

`unconditional_get` moves a get ahead of the `if` on whose branch it is, with a
new variable for its index.  The index is that of a get of the same grid on the
other branch, or the center point.  The condition goes to a variable of type
`int` first.

A get may have been replaced by a register.  It can be paired with another one,
but is not moved itself.  A get in the condition of an `if` is treated like one on
a branch, although the condition is evaluated before it.
-/

namespace Physis.Translator

open Physis.Library.Runs

/-! ## Kernels with gets -/

/-- An index of a get: a variable, the parameter of the kernel it stands for, and a constant. -/
structure GuardedIndex where
  v : Nat
  dim : Nat
  offset : Int
deriving DecidableEq, Repr

/-- The offset of a get: computed from its indices, or held in an index variable. -/
inductive GuardedOffset where
  | indices (list : List GuardedIndex)
  | var (y : Nat)
deriving DecidableEq, Repr

/-- A get of the kernel, or the register that register blocking has put in its place. -/
structure GuardedGet where
  id : Nat
  grid : Nat
  offset : GuardedOffset
  register : Option Nat
deriving DecidableEq, Repr

/-- An expression; `toInt` is the conversion to the type of an `int` variable. -/
inductive GuardedExp (V : Type) where
  | literal (value : V)
  | varRef (x : Nat)
  | op (n : Nat) (lhs rhs : GuardedExp V)
  | toInt (operand : GuardedExp V)
  | conditional (cond trueExp falseExp : GuardedExp V)
  | get (g : GuardedGet)

/-- A statement; the body of a loop is executed as often as its bound says. -/
inductive GuardedStmt (V : Type) where
  | skip
  | assign (x : Nat) (e : GuardedExp V)
  | setIndex (y : Nat) (offset : GuardedOffset)
  | seq (first second : GuardedStmt V)
  | ifStmt (cond : GuardedExp V) (trueBody falseBody : GuardedStmt V)
  | loop (bound : GuardedExp V) (body : GuardedStmt V)

section Rewriting

variable {V : Type}

namespace GuardedOffset

/-- `StencilIndexSelf`, for offsets with a stencil index list -/
def isSelf : GuardedOffset → Bool
  | indices list => list.zipIdx.all fun index => index.1.dim = index.2 + 1 && index.1.offset = 0
  | var _ => false

/-- `BuildGetOffsetCenter`: the variables of the indices -/
def center : GuardedOffset → Option GuardedOffset
  | indices list => some (indices (list.map fun index => { index with offset := 0 }))
  | var _ => none

/-- The variables of the indices. -/
def vars : GuardedOffset → List Nat
  | indices list => list.map (·.v)
  | var _ => []

/-- The index variable. -/
def indexVars : GuardedOffset → List Nat
  | indices _ => []
  | var y => [y]

end GuardedOffset

/-- The register and the variables of the indices. -/
def GuardedGet.vars (g : GuardedGet) : List Nat :=
  g.register.toList ++ g.offset.vars

namespace GuardedExp

/-- The gets, from left to right. -/
def gets : GuardedExp V → List GuardedGet
  | literal _ | varRef _ => []
  | op _ lhs rhs => lhs.gets ++ rhs.gets
  | toInt operand => operand.gets
  | conditional cond trueExp falseExp => cond.gets ++ trueExp.gets ++ falseExp.gets
  | get g => [g]

/-- The gets that are not in a conditional expression, registers left out. -/
def plainGets : GuardedExp V → List GuardedGet
  | literal _ | varRef _ | conditional _ _ _ => []
  | op _ lhs rhs => lhs.plainGets ++ rhs.plainGets
  | toInt operand => operand.plainGets
  | get g => if g.register = none then [g] else []

/-- Gets are replaced by a variable. -/
def replaceGets (replaced : Nat → Bool) (v : Nat) : GuardedExp V → GuardedExp V
  | literal value => literal value
  | varRef x => varRef x
  | op n lhs rhs => op n (lhs.replaceGets replaced v) (rhs.replaceGets replaced v)
  | toInt operand => toInt (operand.replaceGets replaced v)
  | conditional cond trueExp falseExp =>
      conditional (cond.replaceGets replaced v) (trueExp.replaceGets replaced v)
        (falseExp.replaceGets replaced v)
  | get g => if replaced g.id then varRef v else get g

def vars : GuardedExp V → List Nat
  | literal _ => []
  | varRef x => [x]
  | op _ lhs rhs => lhs.vars ++ rhs.vars
  | toInt operand => operand.vars
  | conditional cond trueExp falseExp => cond.vars ++ trueExp.vars ++ falseExp.vars
  | get g => g.vars

def indexVars : GuardedExp V → List Nat
  | literal _ | varRef _ => []
  | op _ lhs rhs => lhs.indexVars ++ rhs.indexVars
  | toInt operand => operand.indexVars
  | conditional cond trueExp falseExp =>
      cond.indexVars ++ trueExp.indexVars ++ falseExp.indexVars
  | get g => g.offset.indexVars

end GuardedExp

namespace GuardedStmt

/-- The gets in the order of the text. -/
def gets : GuardedStmt V → List GuardedGet
  | skip | setIndex _ _ => []
  | assign _ e => e.gets
  | seq first second => first.gets ++ second.gets
  | ifStmt cond trueBody falseBody => cond.gets ++ trueBody.gets ++ falseBody.gets
  | loop bound body => bound.gets ++ body.gets

/-- The gets of which no part of the statement is the conditional that `IsConditional` finds. -/
def plainGets : GuardedStmt V → List GuardedGet
  | skip | setIndex _ _ | ifStmt _ _ _ => []
  | assign _ e => e.plainGets
  | seq first second => first.plainGets ++ second.plainGets
  | loop bound body => bound.plainGets ++ body.plainGets

def replaceGets (replaced : Nat → Bool) (v : Nat) : GuardedStmt V → GuardedStmt V
  | skip => skip
  | assign x e => assign x (e.replaceGets replaced v)
  | setIndex y offset => setIndex y offset
  | seq first second => seq (first.replaceGets replaced v) (second.replaceGets replaced v)
  | ifStmt cond trueBody falseBody =>
      ifStmt (cond.replaceGets replaced v) (trueBody.replaceGets replaced v)
        (falseBody.replaceGets replaced v)
  | loop bound body => loop (bound.replaceGets replaced v) (body.replaceGets replaced v)

def vars : GuardedStmt V → List Nat
  | skip => []
  | assign x e => x :: e.vars
  | setIndex _ offset => offset.vars
  | seq first second => first.vars ++ second.vars
  | ifStmt cond trueBody falseBody => cond.vars ++ trueBody.vars ++ falseBody.vars
  | loop bound body => bound.vars ++ body.vars

def indexVars : GuardedStmt V → List Nat
  | skip => []
  | assign _ e => e.indexVars
  | setIndex y offset => y :: offset.indexVars
  | seq first second => first.indexVars ++ second.indexVars
  | ifStmt cond trueBody falseBody =>
      cond.indexVars ++ trueBody.indexVars ++ falseBody.indexVars
  | loop bound body => bound.indexVars ++ body.indexVars

end GuardedStmt

/-- The names of the new variables, and the number of the get that is moved. -/
structure NewNames where
  cond : Nat
  value : Nat
  index : Nat
  getId : Nat
  distinct : cond ≠ value

/-- The get `ProcessIfStmtStage1` pairs with one: the last of its grid that is not on its branch. -/
def pairedGet (g : GuardedGet) (cond : GuardedExp V) (other : GuardedStmt V) :
    Option GuardedGet :=
  ((cond.gets ++ other.gets).filter (·.grid = g.grid)).getLast?

/-- `ProcessIfStmtStage2`: the statements that give the index variable its value -/
def buildIndex (g : GuardedGet) (paired : Option GuardedGet) (onTrue : Bool) (names : NewNames) :
    Option (GuardedStmt V) :=
  match paired with
  | none =>
      if g.offset.isSelf then some (.setIndex names.index g.offset)
      else do
        let center ← g.offset.center
        return .seq (.setIndex names.index (.indices []))
          (if onTrue then .ifStmt (.varRef names.cond) (.setIndex names.index g.offset)
              (.setIndex names.index center)
            else .ifStmt (.varRef names.cond) (.setIndex names.index center)
              (.setIndex names.index g.offset))
  | some p =>
      some (.seq (.setIndex names.index (.indices []))
        (if onTrue then .ifStmt (.varRef names.cond) (.setIndex names.index g.offset)
            (.setIndex names.index p.offset)
          else .ifStmt (.varRef names.cond) (.setIndex names.index p.offset)
            (.setIndex names.index g.offset)))

/-- The paired get, if there is one -/
def isPaired (paired : Option GuardedGet) (id : Nat) : Bool :=
  paired.any fun p => p.id = id

/-- `ProcessIfStmt`, for a get on one of the branches -/
def processIfStmt (g : GuardedGet) (onTrue : Bool) (names : NewNames) (cond : GuardedExp V)
    (trueBody falseBody : GuardedStmt V) : Option (GuardedStmt V) := do
  let paired := pairedGet g cond (if onTrue then falseBody else trueBody)
  let index ← buildIndex g paired onTrue names
  let condition := cond.replaceGets (isPaired paired) names.value
  let rest := if onTrue
    then .ifStmt (.varRef names.cond) (trueBody.replaceGets (· = g.id) names.value)
      (falseBody.replaceGets (isPaired paired) names.value)
    else .ifStmt (.varRef names.cond) (trueBody.replaceGets (isPaired paired) names.value)
      (falseBody.replaceGets (· = g.id) names.value)
  return .seq (.assign names.cond (.toInt condition)) (.seq index
    (.seq (.assign names.value (.get ⟨names.getId, g.grid, .var names.index, none⟩)) rest))

/--
`ProcessIfStmt`, for a get in the condition.  With a get to pair it with, or with
an index other than the center, `IsInTrueBlock` fails.
-/
def processCondition (g : GuardedGet) (names : NewNames) (cond : GuardedExp V)
    (trueBody falseBody : GuardedStmt V) : Option (GuardedStmt V) :=
  if ((trueBody.gets ++ falseBody.gets).filter (·.grid = g.grid)).getLast? = none ∧
      g.offset.isSelf = true then
    -- the condition, which reads the new variable, comes before its declaration
    some (.seq (.assign names.cond (.toInt (cond.replaceGets (· = g.id) names.value)))
      (.seq (.setIndex names.index g.offset)
        (.seq (.assign names.value (.get ⟨names.getId, g.grid, .var names.index, none⟩))
          (.ifStmt (.varRef names.cond) trueBody falseBody))))
  else none

/-- The get with this number. -/
def findGet (id : Nat) (list : List GuardedGet) : Option GuardedGet :=
  list.find? (·.id = id)

/--
A step of `unconditional_get`: the `if` that `IsConditional` finds for the get is
processed.  A get that is in no `if` stays.
-/
def rewriteGet (id : Nat) (names : NewNames) : GuardedStmt V → Option (GuardedStmt V)
  | .skip => some .skip
  | .assign x e => some (.assign x e)
  | .setIndex y offset => some (.setIndex y offset)
  | .seq first second => do
      return .seq (← rewriteGet id names first) (← rewriteGet id names second)
  | .loop bound body => do return .loop bound (← rewriteGet id names body)
  | .ifStmt cond trueBody falseBody =>
      match findGet id cond.plainGets, findGet id trueBody.plainGets,
          findGet id falseBody.plainGets with
      | some g, _, _ => processCondition g names cond trueBody falseBody
      | none, some g, _ => processIfStmt g true names cond trueBody falseBody
      | none, none, some g => processIfStmt g false names cond trueBody falseBody
      | none, none, none => do
          return .ifStmt cond (← rewriteGet id names trueBody) (← rewriteGet id names falseBody)

/-! ## Gets in conditions -/

/-- The variable is there where a get is replaced. -/
theorem GuardedExp.mem_vars_replaceGets
    {e : GuardedExp V} {g : GuardedGet} (member : g ∈ e.gets) {replaced : Nat → Bool}
    (isReplaced : replaced g.id = true) (v : Nat) : v ∈ (e.replaceGets replaced v).vars := by
  induction e with
  | literal value => cases member
  | varRef x => cases member
  | op n lhs rhs left right =>
      rcases List.mem_append.mp member with first | second
      · exact List.mem_append_left _ (left first)
      · exact List.mem_append_right _ (right second)
  | toInt operand induction => exact induction member
  | conditional cond trueExp falseExp condition first second =>
      rcases List.mem_append.mp member with inner | last
      · rcases List.mem_append.mp inner with inCond | inTrue
        · exact List.mem_append_left _ (List.mem_append_left _ (condition inCond))
        · exact List.mem_append_left _ (List.mem_append_right _ (first inTrue))
      · exact List.mem_append_right _ (second last)
  | get h =>
      obtain rfl := List.mem_singleton.mp member
      rw [GuardedExp.replaceGets, if_pos isReplaced]
      exact List.mem_singleton_self v

/-- A get in a condition becomes a variable that is not declared yet. -/
theorem processCondition_uses_value
    {g : GuardedGet} {names : NewNames} {cond : GuardedExp V}
    {trueBody falseBody stmt : GuardedStmt V} (member : g ∈ cond.gets)
    (processed : processCondition g names cond trueBody falseBody = some stmt) :
    ∃ initial declaration rest,
      stmt = .seq (.assign names.cond initial) (.seq declaration
        (.seq (.assign names.value (.get ⟨names.getId, g.grid, .var names.index, none⟩))
          rest)) ∧ names.value ∈ initial.vars := by
  rw [processCondition] at processed
  split at processed
  · cases processed
    exact ⟨_, _, _, rfl, GuardedExp.mem_vars_replaceGets member (decide_eq_true rfl) _⟩
  · cases processed

/--
The `if` that is processed for the get has it on a branch, and pairs it with none
in its condition.
-/
def GuardedStmt.Movable (id : Nat) : GuardedStmt V → Prop
  | skip | assign _ _ | setIndex _ _ => True
  | seq first second => Movable id first ∧ Movable id second
  | loop _ body => Movable id body
  | ifStmt cond trueBody falseBody =>
      match findGet id cond.plainGets, findGet id trueBody.plainGets,
          findGet id falseBody.plainGets with
      | some _, _, _ => False
      | none, some g, _ => ∀ p, pairedGet g cond falseBody = some p →
          ∀ h ∈ cond.gets, h.id ≠ p.id
      | none, none, some g => ∀ p, pairedGet g cond trueBody = some p →
          ∀ h ∈ cond.gets, h.id ≠ p.id
      | none, none, none => Movable id trueBody ∧ Movable id falseBody

end Rewriting

end Physis.Translator
