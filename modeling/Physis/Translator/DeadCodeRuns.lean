import Mathlib.Logic.Function.Basic
import Physis.Translator.DeadCode

/-!
# Executions of code without its dead parts

Removing a dead variable is an instance of a relation between statement trees:
related trees do the same but for the values of some variables.  The relation
holds if the assignments to the variable are whole statements or conditions;
the elimination does not look at that.
-/

namespace Physis.Translator

open Physis.Library.Runs

/-! ## Executions -/

/-- What an execution does other than to change its variables. -/
inductive CodeEvent (V : Type) where
  | call (f : Nat) (args : V)
  | store (place value : V)
  /-- a condition of a statement is decided -/
  | branch (taken : Bool)
deriving DecidableEq, Repr

structure CodeState (V : Type) where
  vars : Nat → V
  memory : V → V
  trace : List (CodeEvent V)

/-- The meaning of the operators, the types of the variables and the functions that are called. -/
structure CodeWorld (V : Type) where
  constant : Int → V
  unary : Nat → V → V
  binary : Nat → V → V → V
  increment : V → V
  decrement : V → V
  place : V → V → V
  gridDim : V → V → V
  isTrue : V → Bool
  /-- the conversion to the type of the variable -/
  convert : Nat → V → V
  /-- the result of a call and the memory after it, from the memory and what was done before -/
  call : Nat → V → (V → V) → List (CodeEvent V) → V × (V → V)

/-- What an expression refers to. -/
inductive CodePlace (V : Type) where
  | var (x : Nat)
  | memory (p : V)
  | none

structure CodeResult (V : Type) where
  value : V
  place : CodePlace V
  state : CodeState V

section Executions

variable {V : Type} [DecidableEq V]

namespace CodeState

def log (s : CodeState V) (event : CodeEvent V) : CodeState V :=
  { s with trace := s.trace ++ [event] }

/-- The value is assigned; the result is what was stored. -/
def assign (w : CodeWorld V) (place : CodePlace V) (v : V) (s : CodeState V) : CodeResult V :=
  match place with
  | .var x => ⟨w.convert x v, .none, { s with vars := Function.update s.vars x (w.convert x v) }⟩
  | .memory p =>
      ⟨v, .none, { s with memory := Function.update s.memory p v }.log (.store p v)⟩
  | .none => ⟨v, .none, s⟩

end CodeState

/-- Operands are evaluated from left to right. -/
def CodeExp.eval (w : CodeWorld V) : CodeExp → CodeState V → CodeResult V
  | value c, s => ⟨w.constant c, .none, s⟩
  | varRef x, s => ⟨s.vars x, .var x, s⟩
  | unary n operand, s =>
      let a := operand.eval w s
      ⟨w.unary n a.value, .none, a.state⟩
  | binary n lhs rhs, s =>
      let a := lhs.eval w s
      let b := rhs.eval w a.state
      ⟨w.binary n a.value b.value, .none, b.state⟩
  | conditional cond trueExp falseExp, s =>
      let a := cond.eval w s
      if w.isTrue a.value then trueExp.eval w a.state else falseExp.eval w a.state
  | element lhs rhs, s =>
      let a := lhs.eval w s
      let b := rhs.eval w a.state
      ⟨b.state.memory (w.place a.value b.value), .memory (w.place a.value b.value), b.state⟩
  | psGridDim grid dim, s =>
      let a := grid.eval w s
      let b := dim.eval w a.state
      ⟨w.gridDim a.value b.value, .none, b.state⟩
  | call f args, s =>
      let a := args.eval w s
      let result := w.call f a.value a.state.memory a.state.trace
      ⟨result.1, .none, { a.state with memory := result.2 }.log (.call f a.value)⟩
  | assignOp lhs rhs, s =>
      let a := lhs.eval w s
      let b := rhs.eval w a.state
      b.state.assign w a.place b.value
  | compoundAssignOp n lhs rhs, s =>
      let a := lhs.eval w s
      let b := rhs.eval w a.state
      b.state.assign w a.place (w.binary n a.value b.value)
  | plusPlusOp operand, s =>
      let a := operand.eval w s
      { a.state.assign w a.place (w.increment a.value) with value := a.value }
  | minusMinusOp operand, s =>
      let a := operand.eval w s
      { a.state.assign w a.place (w.decrement a.value) with value := a.value }

/-- The initializers are evaluated; other variables keep what they have. -/
def declareAll (w : CodeWorld V) : List (Nat × Option CodeExp) → CodeState V → CodeState V
  | [], s => s
  | (_, none) :: rest, s => declareAll w rest s
  | (x, some e) :: rest, s =>
      declareAll w rest ((e.eval w s).state.assign w (.var x) (e.eval w s).value).state

/-- A condition is decided. -/
def decideCondition (w : CodeWorld V) (e : CodeExp) (s : CodeState V) : Bool × CodeState V :=
  (w.isTrue (e.eval w s).value, (e.eval w s).state.log (.branch (w.isTrue (e.eval w s).value)))

/-- The state after the statement, if its execution comes to an end within the bound. -/
def exec (w : CodeWorld V) : Nat → CodeStmt → CodeState V → Option (CodeState V)
  | 0, _, _ => none
  | fuel + 1, stmt, s =>
      match stmt with
      | .nullStmt => some s
      | .varDecl _ vars => some (declareAll w vars s)
      | .exprStmt _ e => some (e.eval w s).state
      | .ifStmt cond trueBody falseBody =>
          let a := decideCondition w cond s
          exec w fuel (if a.1 then trueBody else falseBody) a.2
      | .forStmt id init test increment body => do
          let s ← exec w fuel init s
          let a := decideCondition w test s
          if a.1 then do
            let s ← exec w fuel body a.2
            exec w fuel (.forStmt id .nullStmt test increment body) (increment.eval w s).state
          else some a.2
      | .whileStmt (.exprStmt id cond) body => do
          let a := decideCondition w cond s
          if a.1 then do
            let s ← exec w fuel body a.2
            exec w fuel (.whileStmt (.exprStmt id cond) body) s
          else some a.2
      | .doStmt body (.exprStmt id cond) => do
          let s ← exec w fuel body s
          let a := decideCondition w cond s
          if a.1 then exec w fuel (.doStmt body (.exprStmt id cond)) a.2 else some a.2
      | .whileStmt _ _ | .doStmt _ _ => none
      | .seq first second => do
          let s ← exec w fuel first s
          exec w fuel second s

/-! ## Related trees -/

/-- The states differ in these variables at most. -/
structure AgreeOff (xs : List Nat) (s t : CodeState V) : Prop where
  vars : ∀ x, x ∉ xs → s.vars x = t.vars x
  memory : s.memory = t.memory
  trace : s.trace = t.trace

/-- The results are the same, and the states differ in these variables at most. -/
structure ResultsAgree (xs : List Nat) (a b : CodeResult V) : Prop where
  value : a.value = b.value
  place : a.place = b.place
  state : AgreeOff xs a.state b.state

end Executions

/-- The variables that occur. -/
def CodeExp.vars : CodeExp → List Nat
  | value _ => []
  | varRef x => [x]
  | unary _ operand | call _ operand | plusPlusOp operand | minusMinusOp operand => operand.vars
  | binary _ lhs rhs | element lhs rhs | psGridDim lhs rhs | assignOp lhs rhs
  | compoundAssignOp _ lhs rhs => lhs.vars ++ rhs.vars
  | conditional cond trueExp falseExp => cond.vars ++ trueExp.vars ++ falseExp.vars

/-- None of the variables occurs. -/
def Clear (xs : List Nat) (e : CodeExp) : Prop :=
  ∀ x ∈ e.vars, x ∉ xs

/-- The variables occur at most as the left side of the whole expression. -/
def WholeAssignment (xs : List Nat) (e : CodeExp) : Prop :=
  Clear xs e ∨ ∃ x ∈ xs, ∃ rhs, e = .assignOp (.varRef x) rhs ∧ Clear xs rhs

section Related

variable {V : Type}

/-- A condition, or what is left of it: the type of the variable does not change what is true. -/
inductive RelatedCondition (w : CodeWorld V) (xs : List Nat) : CodeExp → CodeExp → Prop where
  | same {e : CodeExp} (whole : WholeAssignment xs e) : RelatedCondition w xs e e
  | source {x : Nat} {rhs : CodeExp} (member : x ∈ xs) (clear : Clear xs rhs)
      (truth : ∀ v, w.isTrue (w.convert x v) = w.isTrue v) :
      RelatedCondition w xs (.assignOp (.varRef x) rhs) rhs

/-- The second tree is left of the first if these variables are removed, or some of their parts. -/
inductive Related (w : CodeWorld V) (xs : List Nat) : CodeStmt → CodeStmt → Prop where
  | nullStmt : Related w xs .nullStmt .nullStmt
  | exprStmt {id : Nat} {e : CodeExp} (whole : WholeAssignment xs e) :
      Related w xs (.exprStmt id e) (.exprStmt id e)
  | source {id x : Nat} {rhs : CodeExp} (member : x ∈ xs) (clear : Clear xs rhs) :
      Related w xs (.exprStmt id (.assignOp (.varRef x) rhs)) (.exprStmt id rhs)
  | safe {id : Nat} {e : CodeExp} (safe : e.isSafeToEliminate = true) :
      Related w xs (.exprStmt id e) .nullStmt
  | varDecl {id : Nat} {vars : List (Nat × Option CodeExp)}
      (clear : ∀ e ∈ CodeStmt.initializers vars, Clear xs e) :
      Related w xs (.varDecl id vars) (.varDecl id vars)
  | initializer {id : Nat} {vars : List (Nat × Option CodeExp)} {e : CodeExp}
      (dead : ∀ v ∈ vars, v.1 ∈ xs) (only : CodeStmt.initializers vars = [e])
      (clear : Clear xs e) : Related w xs (.varDecl id vars) (.exprStmt id e)
  | uninitialized {id : Nat} {vars : List (Nat × Option CodeExp)}
      (none : CodeStmt.initializers vars = []) : Related w xs (.varDecl id vars) .nullStmt
  | ifStmt {cond cond' : CodeExp} {trueBody trueBody' falseBody falseBody' : CodeStmt}
      (condition : RelatedCondition w xs cond cond') (first : Related w xs trueBody trueBody')
      (second : Related w xs falseBody falseBody') :
      Related w xs (.ifStmt cond trueBody falseBody) (.ifStmt cond' trueBody' falseBody')
  | forStmt {id : Nat} {init init' body body' : CodeStmt} {test test' increment : CodeExp}
      (first : Related w xs init init') (condition : RelatedCondition w xs test test')
      (clear : Clear xs increment) (second : Related w xs body body') :
      Related w xs (.forStmt id init test increment body) (.forStmt id init' test' increment body')
  | whileStmt {id : Nat} {cond cond' : CodeExp} {body body' : CodeStmt}
      (condition : RelatedCondition w xs cond cond') (inner : Related w xs body body') :
      Related w xs (.whileStmt (.exprStmt id cond) body) (.whileStmt (.exprStmt id cond') body')
  | doStmt {id : Nat} {cond cond' : CodeExp} {body body' : CodeStmt}
      (condition : RelatedCondition w xs cond cond') (inner : Related w xs body body') :
      Related w xs (.doStmt body (.exprStmt id cond)) (.doStmt body' (.exprStmt id cond'))
  | seq {first first' second second' : CodeStmt} (left : Related w xs first first')
      (right : Related w xs second second') :
      Related w xs (.seq first second) (.seq first' second')

end Related

section Agreement

variable {V : Type} [DecidableEq V] {w : CodeWorld V} {xs : List Nat}

omit [DecidableEq V] in
theorem AgreeOff.refl (s : CodeState V) : AgreeOff xs s s :=
  ⟨fun _ _ => rfl, rfl, rfl⟩

omit [DecidableEq V] in
theorem AgreeOff.log {s t : CodeState V} (agree : AgreeOff xs s t) (event : CodeEvent V) :
    AgreeOff xs (s.log event) (t.log event) :=
  ⟨agree.vars, agree.memory, congrArg (· ++ [event]) agree.trace⟩

theorem AgreeOff.assign {s t : CodeState V} (agree : AgreeOff xs s t) (place : CodePlace V)
    (v : V) : ResultsAgree xs (s.assign w place v) (t.assign w place v) := by
  cases place with
  | var x =>
      refine ⟨rfl, rfl, fun y outside => ?_, agree.memory, agree.trace⟩
      by_cases same : y = x
      · subst same
        simp [CodeState.assign]
      · simp [CodeState.assign, Function.update_of_ne same, agree.vars y outside]
  | memory p =>
      refine ⟨rfl, rfl, agree.vars, ?_, ?_⟩
      · simp only [CodeState.assign, CodeState.log, agree.memory]
      · simp only [CodeState.assign, CodeState.log, agree.trace]
  | none => exact ⟨rfl, rfl, agree⟩

/-- An assignment to one of the variables cannot be seen outside. -/
theorem AgreeOff.assign_left {s t : CodeState V} (agree : AgreeOff xs s t) {x : Nat}
    (member : x ∈ xs) (v : V) : AgreeOff xs (s.assign w (.var x) v).state t := by
  refine ⟨fun y outside => ?_, agree.memory, agree.trace⟩
  have other : y ≠ x := by
    rintro rfl
    exact outside member
  simp [CodeState.assign, Function.update_of_ne other, agree.vars y outside]

/-- An expression without the variables has the same result. -/
theorem eval_agree {e : CodeExp} (clear : Clear xs e) {s t : CodeState V}
    (agree : AgreeOff xs s t) : ResultsAgree xs (e.eval w s) (e.eval w t) := by
  induction e generalizing s t with
  | value c => exact ⟨rfl, rfl, agree⟩
  | varRef x => exact ⟨agree.vars x (clear x List.mem_cons_self), rfl, agree⟩
  | unary n operand induction =>
      have inner := induction clear agree
      exact ⟨congrArg (w.unary n) inner.value, rfl, inner.state⟩
  | binary n lhs rhs left right =>
      obtain ⟨leftClear, rightClear⟩ := List.forall_mem_append.mp clear
      have first := left leftClear agree
      have second := right rightClear first.state
      exact ⟨congrArg₂ (w.binary n) first.value second.value, rfl, second.state⟩
  | conditional cond trueExp falseExp condition first second =>
      obtain ⟨clear, falseClear⟩ := List.forall_mem_append.mp clear
      obtain ⟨condClear, trueClear⟩ := List.forall_mem_append.mp clear
      have decided := condition condClear agree
      simp only [CodeExp.eval, decided.value]
      split
      · exact first trueClear decided.state
      · exact second falseClear decided.state
  | element lhs rhs left right =>
      obtain ⟨leftClear, rightClear⟩ := List.forall_mem_append.mp clear
      have first := left leftClear agree
      have second := right rightClear first.state
      simp only [CodeExp.eval, first.value, second.value, second.state.memory]
      exact ⟨rfl, rfl, second.state⟩
  | psGridDim grid dim left right =>
      obtain ⟨leftClear, rightClear⟩ := List.forall_mem_append.mp clear
      have first := left leftClear agree
      have second := right rightClear first.state
      exact ⟨congrArg₂ w.gridDim first.value second.value, rfl, second.state⟩
  | call f args induction =>
      have inner := induction clear agree
      simp only [CodeExp.eval, inner.value, inner.state.memory, inner.state.trace]
      exact ⟨rfl, rfl, inner.state.vars, rfl, rfl⟩
  | assignOp lhs rhs left right =>
      obtain ⟨leftClear, rightClear⟩ := List.forall_mem_append.mp clear
      have first := left leftClear agree
      have second := right rightClear first.state
      simp only [CodeExp.eval, first.place, second.value]
      exact second.state.assign _ _
  | compoundAssignOp n lhs rhs left right =>
      obtain ⟨leftClear, rightClear⟩ := List.forall_mem_append.mp clear
      have first := left leftClear agree
      have second := right rightClear first.state
      simp only [CodeExp.eval, first.place, first.value, second.value]
      exact second.state.assign _ _
  | plusPlusOp operand induction | minusMinusOp operand induction =>
      have inner := induction clear agree
      simp only [CodeExp.eval, inner.place, inner.value]
      have assigned := inner.state.assign (w := w)
      exact ⟨rfl, (assigned _ _).place, (assigned _ _).state⟩

/-- An assignment to one of the variables has a value of its own. -/
theorem eval_wholeAssignment {e : CodeExp} (whole : WholeAssignment xs e) {s t : CodeState V}
    (agree : AgreeOff xs s t) : ResultsAgree xs (e.eval w s) (e.eval w t) := by
  rcases whole with clear | ⟨x, member, rhs, rfl, clear⟩
  · exact eval_agree clear agree
  · have inner := eval_agree (w := w) clear agree
    simp only [CodeExp.eval, inner.value]
    exact inner.state.assign _ _

/-- The right side does the same but for the variable. -/
theorem eval_source {x : Nat} {rhs : CodeExp} (member : x ∈ xs) (clear : Clear xs rhs)
    {s t : CodeState V} (agree : AgreeOff xs s t) :
    ((CodeExp.assignOp (.varRef x) rhs).eval w s).value = w.convert x (rhs.eval w t).value ∧
      AgreeOff xs ((CodeExp.assignOp (.varRef x) rhs).eval w s).state (rhs.eval w t).state := by
  have inner := eval_agree (w := w) clear agree
  refine ⟨congrArg (w.convert x) inner.value, inner.state.assign_left member _⟩

/-- A safe expression has no effect. -/
theorem eval_safe {e : CodeExp} (safe : e.isSafeToEliminate = true) (s : CodeState V) :
    (e.eval w s).state = s := by
  induction e generalizing s with
  | value c => rfl
  | varRef x => rfl
  | unary n operand induction => exact induction safe s
  | binary n lhs rhs left right | element lhs rhs left right | psGridDim lhs rhs left right =>
      obtain ⟨first, second⟩ := Bool.and_eq_true_iff.mp safe
      simp only [CodeExp.eval, left first, right second]
  | conditional cond trueExp falseExp condition first second =>
      obtain ⟨safe, falseSafe⟩ := Bool.and_eq_true_iff.mp safe
      obtain ⟨condSafe, trueSafe⟩ := Bool.and_eq_true_iff.mp safe
      simp only [CodeExp.eval, condition condSafe]
      split
      · exact first trueSafe s
      · exact second falseSafe s
  | call f args induction => cases safe
  | assignOp lhs rhs left right => cases safe
  | compoundAssignOp n lhs rhs left right => cases safe
  | plusPlusOp operand induction => cases safe
  | minusMinusOp operand induction => cases safe

theorem RelatedCondition.decide {cond cond' : CodeExp} (related : RelatedCondition w xs cond cond')
    {s t : CodeState V} (agree : AgreeOff xs s t) :
    (decideCondition w cond s).1 = (decideCondition w cond' t).1 ∧
      AgreeOff xs (decideCondition w cond s).2 (decideCondition w cond' t).2 := by
  cases related with
  | same whole =>
      have result := eval_wholeAssignment (w := w) whole agree
      simp only [decideCondition, result.value]
      exact ⟨trivial, result.state.log _⟩
  | source member clear truth =>
      obtain ⟨value, state⟩ := eval_source (w := w) member clear agree
      simp only [decideCondition, value, truth]
      exact ⟨trivial, state.log _⟩

theorem declareAll_agree {vars : List (Nat × Option CodeExp)}
    (clear : ∀ e ∈ CodeStmt.initializers vars, Clear xs e) {s t : CodeState V}
    (agree : AgreeOff xs s t) : AgreeOff xs (declareAll w vars s) (declareAll w vars t) := by
  induction vars generalizing s t with
  | nil => exact agree
  | cons v rest induction =>
      match v, clear with
      | (x, none), clear => exact induction clear agree
      | (x, some e), clear =>
          obtain ⟨first, later⟩ := List.forall_mem_cons.mp clear
          have result := eval_agree (w := w) first agree
          simp only [declareAll, result.value]
          exact induction later (result.state.assign _ _).state

theorem declareAll_uninitialized {vars : List (Nat × Option CodeExp)}
    (empty : CodeStmt.initializers vars = []) (s : CodeState V) : declareAll w vars s = s := by
  induction vars generalizing s with
  | nil => rfl
  | cons v rest induction =>
      match v, empty with
      | (x, none), empty => exact induction empty s
      | (x, some e), empty => cases empty

/-- Of a declaration of removed variables the initializer is left. -/
theorem declareAll_initializer {vars : List (Nat × Option CodeExp)} {e : CodeExp}
    (dead : ∀ v ∈ vars, v.1 ∈ xs) (only : CodeStmt.initializers vars = [e]) (clear : Clear xs e)
    {s t : CodeState V} (agree : AgreeOff xs s t) :
    AgreeOff xs (declareAll w vars s) (e.eval w t).state := by
  induction vars with
  | nil => cases only
  | cons v rest induction =>
      obtain ⟨first, later⟩ := List.forall_mem_cons.mp dead
      match v, first, only with
      | (x, none), first, only => exact induction later only
      | (x, some e), first, only =>
          obtain ⟨rfl, empty⟩ := List.cons.inj only
          rw [declareAll, declareAll_uninitialized empty]
          exact (eval_agree clear agree).state.assign_left first _

omit [DecidableEq V] in
theorem rel_bind {S T : CodeState V → CodeState V → Prop} {a b : Option (CodeState V)}
    {f g : CodeState V → Option (CodeState V)} (same : Option.Rel S a b)
    (next : ∀ x y, S x y → Option.Rel T (f x) (g y)) : Option.Rel T (a.bind f) (b.bind g) := by
  cases same with
  | some related => exact next _ _ related
  | none => exact .none

/-- Related trees do the same but for the removed variables. -/
theorem exec_related {stmt stmt' : CodeStmt} (related : Related w xs stmt stmt') (fuel : Nat)
    {s t : CodeState V} (agree : AgreeOff xs s t) :
    Option.Rel (AgreeOff xs) (exec w fuel stmt s) (exec w fuel stmt' t) := by
  induction fuel generalizing stmt stmt' s t with
  | zero => exact .none
  | succ fuel induction =>
      cases related with
      | nullStmt => exact .some agree
      | exprStmt whole => exact .some (eval_wholeAssignment whole agree).state
      | source member clear => exact .some (eval_source member clear agree).2
      | safe safe =>
          simp only [exec, eval_safe safe]
          exact .some agree
      | varDecl clear => exact .some (declareAll_agree clear agree)
      | initializer dead only clear => exact .some (declareAll_initializer dead only clear agree)
      | uninitialized none =>
          simp only [exec, declareAll_uninitialized none]
          exact .some agree
      | ifStmt condition first second =>
          obtain ⟨same, state⟩ := condition.decide agree
          simp only [exec, same]
          split
          · exact induction first state
          · exact induction second state
      | forStmt first condition clear second =>
          refine rel_bind (induction first agree) fun x y agree => ?_
          obtain ⟨same, state⟩ := condition.decide agree
          simp only [same]
          split
          · refine rel_bind (induction second state) fun x y agree => ?_
            exact induction (.forStmt .nullStmt condition clear second)
              (eval_agree clear agree).state
          · exact .some state
      | whileStmt condition inner =>
          obtain ⟨same, state⟩ := condition.decide agree
          simp only [exec, same]
          split
          · exact rel_bind (induction inner state) fun x y agree =>
              induction (.whileStmt condition inner) agree
          · exact .some state
      | doStmt condition inner =>
          refine rel_bind (induction inner agree) fun x y agree => ?_
          obtain ⟨same, state⟩ := condition.decide agree
          simp only [same]
          split
          · exact induction (.doStmt condition inner) state
          · exact .some state
      | seq left right =>
          exact rel_bind (induction left agree) fun x y agree => induction right agree

end Agreement

/-! ## The condition -/

section Condition

variable {V : Type} (w : CodeWorld V)

/-- In a condition the variable has a type that does not change what is true. -/
def WholeCondition (xs : List Nat) (e : CodeExp) : Prop :=
  Clear xs e ∨ ∃ x ∈ xs, ∃ rhs, e = .assignOp (.varRef x) rhs ∧ Clear xs rhs ∧
    ∀ v, w.isTrue (w.convert x v) = w.isTrue v

/--
Assignments to the variables are whole expression statements or conditions,
`node` is their only declaration, and of its variables at most one, among
`initialized`, has an initializer.
-/
def StatementLevel (node : CodeStmt) (xs initialized : List Nat) : CodeStmt → Prop
  | .nullStmt => True
  | .varDecl id vars =>
      (∀ e ∈ CodeStmt.initializers vars, Clear xs e) ∧
        (.varDecl id vars = node ∨ ∀ v ∈ vars, v.1 ∉ xs) ∧
        (.varDecl id vars = node → (∀ v ∈ vars, v.1 ∈ xs) ∧
          (CodeStmt.initializers vars).length ≤ 1 ∧
          ∀ v ∈ vars, v.2.isSome = true → v.1 ∈ initialized)
  | .exprStmt _ e => WholeAssignment xs e
  | .ifStmt cond trueBody falseBody =>
      WholeCondition w xs cond ∧ StatementLevel node xs initialized trueBody ∧
        StatementLevel node xs initialized falseBody
  | .forStmt _ init test increment body =>
      StatementLevel node xs initialized init ∧ WholeCondition w xs test ∧ Clear xs increment ∧
        StatementLevel node xs initialized body
  | .whileStmt cond body | .doStmt body cond =>
      (∃ id e, cond = .exprStmt id e ∧ WholeCondition w xs e) ∧
        StatementLevel node xs initialized body
  | .seq first second =>
      StatementLevel node xs initialized first ∧ StatementLevel node xs initialized second

/-- The conditions of `while` and `do` are there, and the node is none of them. -/
def NotCondition (node : CodeStmt) : CodeStmt → Prop
  | .nullStmt | .varDecl _ _ | .exprStmt _ _ => True
  | .ifStmt _ first second | .forStmt _ first _ _ second | .seq first second =>
      NotCondition node first ∧ NotCondition node second
  | .whileStmt cond body | .doStmt body cond =>
      (∃ id e, cond = .exprStmt id e ∧ cond ≠ node) ∧ NotCondition node body

/-- What a step must meet: the condition of the node it looks at, if that is eliminated. -/
def MeetsCondition (tree : CodeStmt) : CodeStmt → Prop
  | .varDecl id vars =>
      (∀ v ∈ vars, tree.isDead v.1 = true) →
        StatementLevel w (.varDecl id vars) (vars.map Prod.fst) (vars.map Prod.fst) tree
  | .exprStmt id e => e.isSafeToEliminate = true → NotCondition (.exprStmt id e) tree
  | _ => True

/-- A step of the elimination that meets the condition. -/
def CarefulStep (s t : EliminationState) : Prop :=
  s.next = some t ∧ ∀ node rest, s.pending = node :: rest → MeetsCondition w s.tree node

end Condition

section Elimination

variable {V : Type} {w : CodeWorld V} {xs : List Nat}

/-- An expression in which a variable does not occur has no sources of it. -/
theorem assignSources_eq_nil {e : CodeExp} (clear : Clear xs e) {x : Nat} (member : x ∈ xs) :
    e.assignSources x = [] := by
  induction e with
  | value c => rfl
  | varRef y => rfl
  | unary n operand induction => exact induction clear
  | call f args induction => exact induction clear
  | plusPlusOp operand induction => exact induction clear
  | minusMinusOp operand induction => exact induction clear
  | binary n lhs rhs left right | element lhs rhs left right | psGridDim lhs rhs left right
  | compoundAssignOp n lhs rhs left right =>
      obtain ⟨leftClear, rightClear⟩ := List.forall_mem_append.mp clear
      simp only [CodeExp.assignSources, left leftClear, right rightClear, List.append_nil]
  | conditional cond trueExp falseExp condition first second =>
      obtain ⟨clear, falseClear⟩ := List.forall_mem_append.mp clear
      obtain ⟨condClear, trueClear⟩ := List.forall_mem_append.mp clear
      simp only [CodeExp.assignSources, condition condClear, first trueClear, second falseClear,
        List.append_nil]
  | assignOp lhs rhs left right =>
      obtain ⟨leftClear, rightClear⟩ := List.forall_mem_append.mp clear
      have other : lhs ≠ .varRef x := by
        rintro rfl
        exact leftClear x List.mem_cons_self member
      simp only [CodeExp.assignSources, if_neg other, left leftClear, right rightClear,
        List.append_nil]

theorem replaceSource_of_clear {e : CodeExp} (clear : Clear xs e) {x : Nat} (member : x ∈ xs) :
    e.replaceSource x = e := by
  rw [CodeExp.replaceSource, assignSources_eq_nil clear member, List.headD_nil]

/-- A whole assignment to another variable stays. -/
theorem replaceSource_assignOp {x y : Nat} {rhs : CodeExp} (member : x ∈ xs)
    (clear : Clear xs rhs) :
    (CodeExp.assignOp (.varRef y) rhs).replaceSource x =
      if y = x then rhs else .assignOp (.varRef y) rhs := by
  simp only [CodeExp.replaceSource, CodeExp.assignSources, assignSources_eq_nil clear member]
  by_cases same : y = x <;> simp [same]

theorem WholeCondition.replaceSource {e : CodeExp} (whole : WholeCondition w xs e) {x : Nat}
    (member : x ∈ xs) :
    RelatedCondition w xs e (e.replaceSource x) ∧ WholeCondition w xs (e.replaceSource x) := by
  rcases whole with clear | ⟨y, inner, rhs, rfl, clear, truth⟩
  · rw [replaceSource_of_clear clear member]
    exact ⟨.same (.inl clear), .inl clear⟩
  · rw [replaceSource_assignOp member clear]
    split
    · exact ⟨.source inner clear truth, .inl clear⟩
    · exact ⟨.same (.inr ⟨y, inner, rhs, rfl, clear⟩), .inr ⟨y, inner, rhs, rfl, clear, truth⟩⟩

theorem WholeCondition.related {e : CodeExp} (whole : WholeCondition w xs e) :
    RelatedCondition w xs e e := by
  rcases whole with clear | ⟨y, inner, rhs, same, clear, -⟩
  · exact .same (.inl clear)
  · exact .same (.inr ⟨y, inner, rhs, same, clear⟩)

/-- Replacing the sources of one of the variables keeps the condition for the others. -/
theorem StatementLevel.replaceSources {node : CodeStmt} {x : Nat} {todo : List Nat}
    {s : CodeStmt} (level : StatementLevel w node xs (x :: todo) s) (member : x ∈ xs) :
    Related w xs s (s.replaceSources x) ∧ StatementLevel w node xs todo (s.replaceSources x) := by
  induction s with
  | nullStmt => exact ⟨.nullStmt, trivial⟩
  | varDecl id vars =>
      obtain ⟨clear, alone, atNode⟩ := level
      have noAssignment : (CodeStmt.initializers vars).flatMap (·.assignSources x) = [] :=
        List.flatMap_eq_nil_iff.mpr fun e inner => assignSources_eq_nil (clear e inner) member
      rw [CodeStmt.replaceSources, noAssignment, List.nil_append]
      split
      · rename_i noInitializer
        refine ⟨.varDecl clear, clear, alone, fun same => ?_⟩
        obtain ⟨dead, few, initialized⟩ := atNode same
        refine ⟨dead, few, fun v inner isSome => ?_⟩
        refine (List.mem_cons.mp (initialized v inner isSome)).resolve_left fun equal => ?_
        obtain ⟨e, found⟩ := Option.isSome_iff_exists.mp isSome
        have listed : e ∈ CodeStmt.initializers (vars.filter (·.1 = x)) :=
          List.mem_filterMap.mpr ⟨v, List.mem_filter.mpr ⟨inner, by simpa using equal⟩, found⟩
        rw [noInitializer] at listed
        cases listed
      · rename_i source rest initializer
        have listed : source ∈ CodeStmt.initializers (vars.filter (·.1 = x)) :=
          initializer ▸ List.mem_cons_self
        obtain ⟨v, filtered, found⟩ := List.mem_filterMap.mp listed
        obtain ⟨inner, equal⟩ := List.mem_filter.mp filtered
        have same := alone.resolve_right fun others => others v inner (by
          rw [show v.1 = x by simpa using equal]
          exact member)
        obtain ⟨dead, few, -⟩ := atNode same
        have among : source ∈ CodeStmt.initializers vars := List.mem_filterMap.mpr ⟨v, inner, found⟩
        obtain ⟨e, only⟩ := List.length_eq_one_iff.mp
          (le_antisymm few (List.length_pos_of_mem among))
        obtain rfl : source = e := by simpa [only] using among
        exact ⟨.initializer dead only (clear source among), .inl (clear source among)⟩
  | exprStmt id e =>
      rw [CodeStmt.replaceSources]
      rcases level with clear | ⟨y, inner, rhs, rfl, clear⟩
      · rw [replaceSource_of_clear clear member]
        exact ⟨.exprStmt (.inl clear), .inl clear⟩
      · rw [replaceSource_assignOp member clear]
        split
        · exact ⟨.source inner clear, .inl clear⟩
        · exact ⟨.exprStmt (.inr ⟨y, inner, rhs, rfl, clear⟩), .inr ⟨y, inner, rhs, rfl, clear⟩⟩
  | ifStmt cond trueBody falseBody left right =>
      obtain ⟨condition, first, second⟩ := level
      obtain ⟨related, whole⟩ := condition.replaceSource member
      obtain ⟨leftRelated, leftLevel⟩ := left first
      obtain ⟨rightRelated, rightLevel⟩ := right second
      exact ⟨.ifStmt related leftRelated rightRelated, whole, leftLevel, rightLevel⟩
  | forStmt id init test increment body left right =>
      obtain ⟨first, condition, clear, second⟩ := level
      obtain ⟨related, whole⟩ := condition.replaceSource member
      obtain ⟨leftRelated, leftLevel⟩ := left first
      obtain ⟨rightRelated, rightLevel⟩ := right second
      rw [CodeStmt.replaceSources, assignSources_eq_nil clear member]
      exact ⟨.forStmt leftRelated related clear rightRelated, leftLevel, whole, clear, rightLevel⟩
  | whileStmt cond body _ induction =>
      obtain ⟨⟨id, e, rfl, condition⟩, inner⟩ := level
      obtain ⟨related, whole⟩ := condition.replaceSource member
      obtain ⟨bodyRelated, bodyLevel⟩ := induction inner
      exact ⟨.whileStmt related bodyRelated, ⟨id, _, rfl, whole⟩, bodyLevel⟩
  | doStmt body cond induction _ =>
      obtain ⟨⟨id, e, rfl, condition⟩, inner⟩ := level
      obtain ⟨related, whole⟩ := condition.replaceSource member
      obtain ⟨bodyRelated, bodyLevel⟩ := induction inner
      exact ⟨.doStmt related bodyRelated, ⟨id, _, rfl, whole⟩, bodyLevel⟩
  | seq first second left right =>
      obtain ⟨leftRelated, leftLevel⟩ := left level.1
      obtain ⟨rightRelated, rightLevel⟩ := right level.2
      exact ⟨.seq leftRelated rightRelated, leftLevel, rightLevel⟩

end Elimination

/-- The variables that are declared. -/
def CodeStmt.declared : CodeStmt → List Nat
  | .nullStmt | .exprStmt _ _ => []
  | .varDecl _ vars => vars.map Prod.fst
  | .ifStmt _ first second | .forStmt _ first _ _ second | .whileStmt first second
  | .doStmt first second | .seq first second => first.declared ++ second.declared

section Removal

variable {V : Type} {w : CodeWorld V} {xs : List Nat}

/-- The declaration without initializers can be removed, and with it the variables are gone. -/
theorem StatementLevel.removeStatement {id : Nat} {vars : List (Nat × Option CodeExp)}
    {s : CodeStmt} (level : StatementLevel w (.varDecl id vars) xs [] s) :
    Related w xs s (CodeStmt.removeStatement (.varDecl id vars) s) ∧
      ∀ x ∈ (CodeStmt.removeStatement (.varDecl id vars) s).declared, x ∉ xs := by
  induction s with
  | nullStmt => exact ⟨.nullStmt, by simp [CodeStmt.removeStatement, CodeStmt.declared]⟩
  | varDecl other others =>
      obtain ⟨clear, alone, atNode⟩ := level
      rw [CodeStmt.removeStatement]
      split
      · rename_i same
        obtain ⟨-, -, initialized⟩ := atNode same
        refine ⟨.uninitialized (List.filterMap_eq_nil_iff.mpr fun v inner => ?_), by
          simp [CodeStmt.declared]⟩
        by_contra isSome
        exact List.not_mem_nil (initialized v inner (Option.isSome_iff_ne_none.mpr isSome))
      · rename_i distinct
        refine ⟨.varDecl clear, fun x declared => ?_⟩
        obtain ⟨v, inner, rfl⟩ := List.mem_map.mp declared
        exact alone.resolve_left distinct v inner
  | exprStmt other e =>
      rw [CodeStmt.removeStatement, if_neg (by simp)]
      exact ⟨.exprStmt level, by simp [CodeStmt.declared]⟩
  | ifStmt cond trueBody falseBody left right =>
      obtain ⟨condition, first, second⟩ := level
      obtain ⟨leftRelated, leftGone⟩ := left first
      obtain ⟨rightRelated, rightGone⟩ := right second
      exact ⟨.ifStmt condition.related leftRelated rightRelated,
        List.forall_mem_append.mpr ⟨leftGone, rightGone⟩⟩
  | forStmt other init test increment body left right =>
      obtain ⟨first, condition, clear, second⟩ := level
      obtain ⟨leftRelated, leftGone⟩ := left first
      obtain ⟨rightRelated, rightGone⟩ := right second
      exact ⟨.forStmt leftRelated condition.related clear rightRelated,
        List.forall_mem_append.mpr ⟨leftGone, rightGone⟩⟩
  | whileStmt cond body _ induction =>
      obtain ⟨⟨other, e, rfl, condition⟩, inner⟩ := level
      obtain ⟨bodyRelated, bodyGone⟩ := induction inner
      simp only [CodeStmt.removeStatement, if_neg (show CodeStmt.exprStmt other e ≠
        .varDecl id vars by simp)]
      exact ⟨.whileStmt condition.related bodyRelated, bodyGone⟩
  | doStmt body cond induction _ =>
      obtain ⟨⟨other, e, rfl, condition⟩, inner⟩ := level
      obtain ⟨bodyRelated, bodyGone⟩ := induction inner
      simp only [CodeStmt.removeStatement, if_neg (show CodeStmt.exprStmt other e ≠
        .varDecl id vars by simp)]
      exact ⟨.doStmt condition.related bodyRelated,
        List.forall_mem_append.mpr ⟨bodyGone, by simp [CodeStmt.declared]⟩⟩
  | seq first second left right =>
      obtain ⟨leftRelated, leftGone⟩ := left level.1
      obtain ⟨rightRelated, rightGone⟩ := right level.2
      exact ⟨.seq leftRelated rightRelated, List.forall_mem_append.mpr ⟨leftGone, rightGone⟩⟩

/-- A safe expression statement that is no condition can be removed. -/
theorem NotCondition.removeStatement {id : Nat} {e : CodeExp}
    (safe : e.isSafeToEliminate = true) {s : CodeStmt} (no : NotCondition (.exprStmt id e) s) :
    Related w [] s (CodeStmt.removeStatement (.exprStmt id e) s) := by
  have clear (e : CodeExp) : Clear [] e := fun _ _ => List.not_mem_nil
  induction s with
  | nullStmt => exact .nullStmt
  | varDecl other vars =>
      rw [CodeStmt.removeStatement, if_neg (by simp)]
      exact .varDecl fun e _ => clear e
  | exprStmt other e' =>
      rw [CodeStmt.removeStatement]
      split
      · rename_i same
        cases same
        exact .safe safe
      · exact .exprStmt (.inl (clear e'))
  | ifStmt cond trueBody falseBody left right =>
      exact .ifStmt (.same (.inl (clear cond))) (left no.1) (right no.2)
  | forStmt other init test increment body left right =>
      exact .forStmt (left no.1) (.same (.inl (clear test))) (clear increment) (right no.2)
  | whileStmt cond body _ induction =>
      obtain ⟨⟨other, e', rfl, distinct⟩, inner⟩ := no
      simp only [CodeStmt.removeStatement, if_neg distinct]
      exact .whileStmt (.same (.inl (clear e'))) (induction inner)
  | doStmt body cond induction _ =>
      obtain ⟨⟨other, e', rfl, distinct⟩, inner⟩ := no
      simp only [CodeStmt.removeStatement, if_neg distinct]
      exact .doStmt (.same (.inl (clear e'))) (induction inner)
  | seq first second left right => exact .seq (left no.1) (right no.2)

end Removal

/-! ## The whole elimination -/

theorem append_subset_append {as bs cs ds : List Nat} (left : as ⊆ cs) (right : bs ⊆ ds) :
    as ++ bs ⊆ cs ++ ds :=
  List.append_subset.mpr ⟨List.subset_append_of_subset_left _ left,
    List.subset_append_of_subset_right _ right⟩

namespace CodeStmt

theorem declared_replaceSources (x : Nat) (s : CodeStmt) :
    (s.replaceSources x).declared ⊆ s.declared := by
  induction s with
  | nullStmt => exact List.Subset.refl _
  | varDecl id vars =>
      rw [replaceSources]
      split
      · exact List.Subset.refl _
      · exact List.nil_subset _
  | exprStmt id e => exact List.Subset.refl _
  | forStmt id init test increment body left right =>
      rw [replaceSources]
      split
      · exact append_subset_append left right
      · exact List.nil_subset _
  | ifStmt _ _ _ left right | whileStmt _ _ left right | doStmt _ _ left right
  | seq _ _ left right => exact append_subset_append left right

theorem declared_removeStatement (node s : CodeStmt) :
    (removeStatement node s).declared ⊆ s.declared := by
  induction s with
  | nullStmt => exact List.Subset.refl _
  | varDecl id vars =>
      rw [removeStatement]
      split
      · exact List.nil_subset _
      · exact List.Subset.refl _
  | exprStmt id e =>
      rw [removeStatement]
      split <;> exact List.nil_subset _
  | ifStmt _ _ _ left right | forStmt _ _ _ _ _ left right | whileStmt _ _ left right
  | doStmt _ _ left right | seq _ _ left right => exact append_subset_append left right

theorem declared_of_mem_nodes {node s : CodeStmt} (member : node ∈ s.nodes) :
    node.declared ⊆ s.declared := by
  induction s with
  | nullStmt => cases member
  | varDecl id vars => exact List.mem_singleton.mp member ▸ List.Subset.refl _
  | exprStmt id e => exact List.mem_singleton.mp member ▸ List.Subset.refl _
  | ifStmt _ _ _ left right | forStmt _ _ _ _ _ left right | whileStmt _ _ left right
  | doStmt _ _ left right | seq _ _ left right =>
      rcases List.mem_append.mp member with first | second
      · exact List.subset_append_of_subset_left _ (left first)
      · exact List.subset_append_of_subset_right _ (right second)

end CodeStmt

section Runs

variable {V : Type} [DecidableEq V] {w : CodeWorld V}

omit [DecidableEq V] in
theorem AgreeOff.trans {xs ys : List Nat} {s t u : CodeState V} (first : AgreeOff xs s t)
    (second : AgreeOff ys t u) : AgreeOff (xs ++ ys) s u where
  vars x outside := by
    rw [List.mem_append, not_or] at outside
    exact (first.vars x outside.1).trans (second.vars x outside.2)
  memory := first.memory.trans second.memory
  trace := first.trace.trans second.trace

omit [DecidableEq V] in
theorem AgreeOff.mono {xs ys : List Nat} {s t : CodeState V} (agree : AgreeOff xs s t)
    (sub : xs ⊆ ys) : AgreeOff ys s t :=
  ⟨fun x outside => agree.vars x fun inner => outside (sub inner), agree.memory, agree.trace⟩

omit [DecidableEq V] in
theorem rel_agree_trans {xs ys : List Nat} {a b c : Option (CodeState V)}
    (first : Option.Rel (AgreeOff xs) a b) (second : Option.Rel (AgreeOff ys) b c) :
    Option.Rel (AgreeOff (xs ++ ys)) a c := by
  cases first with
  | some one =>
      cases second with
      | some other => exact .some (one.trans other)
  | none =>
      cases second with
      | none => exact .none

/-- The trees do the same from every state but for these variables. -/
def SameBut (w : CodeWorld V) (xs : List Nat) (tree result : CodeStmt) : Prop :=
  ∀ fuel s, Option.Rel (AgreeOff xs) (exec w fuel tree s) (exec w fuel result s)

theorem SameBut.refl (xs : List Nat) (tree : CodeStmt) : SameBut w xs tree tree := by
  intro fuel s
  generalize exec w fuel tree s = a
  cases a with
  | none => exact .none
  | some t => exact .some (.refl t)

theorem SameBut.trans {xs ys : List Nat} {tree middle result : CodeStmt}
    (first : SameBut w xs tree middle) (second : SameBut w ys middle result) :
    SameBut w (xs ++ ys) tree result :=
  fun fuel s => rel_agree_trans (first fuel s) (second fuel s)

theorem SameBut.mono {xs ys : List Nat} {tree result : CodeStmt}
    (same : SameBut w xs tree result) (sub : xs ⊆ ys) : SameBut w ys tree result := by
  intro fuel s
  have related := same fuel s
  revert related
  generalize exec w fuel tree s = a
  generalize exec w fuel result s = b
  rintro (agree | _)
  · exact .some (agree.mono sub)
  · exact .none

theorem Related.sameBut {xs : List Nat} {tree result : CodeStmt}
    (related : Related w xs tree result) : SameBut w xs tree result :=
  fun fuel _ => exec_related related fuel (.refl _)

/-- Replacing the sources of all variables of a declaration. -/
theorem StatementLevel.replaceAll {node : CodeStmt} {xs todo : List Nat} (sub : todo ⊆ xs)
    {tree : CodeStmt} (level : StatementLevel w node xs todo tree) :
    SameBut w xs tree (todo.foldl (fun tree x => tree.replaceSources x) tree) ∧
      StatementLevel w node xs [] (todo.foldl (fun tree x => tree.replaceSources x) tree) := by
  induction todo generalizing tree with
  | nil => exact ⟨.refl xs tree, level⟩
  | cons x todo induction =>
      obtain ⟨inner, rest⟩ := List.cons_subset.mp sub
      obtain ⟨related, next⟩ := level.replaceSources inner
      obtain ⟨same, final⟩ := induction rest next
      exact ⟨(related.sameBut.trans same).mono (by simp), final⟩

/-- What a step that meets the condition does to the tree. -/
theorem visit_preserves {tree node result : CodeStmt}
    (visited : EliminationState.visit tree node = some result)
    (condition : MeetsCondition w tree node) :
    result.declared ⊆ tree.declared ∧
      ∃ xs ⊆ node.declared, (∀ x ∈ xs, x ∉ result.declared) ∧ SameBut w xs tree result := by
  rw [EliminationState.visit.eq_def] at visited
  split at visited
  · rename_i id vars
    split at visited
    · rename_i dead
      obtain rfl := Option.some.inj visited
      have level := condition fun v inner => List.all_eq_true.mp dead v inner
      obtain ⟨replaced, bare⟩ := level.replaceAll (List.Subset.refl _)
      obtain ⟨related, gone⟩ := bare.removeStatement
      refine ⟨?_, _, List.Subset.refl _, fun x inner declared => gone x declared inner,
        (replaced.trans related.sameBut).mono (by simp [CodeStmt.declared])⟩
      have folded (xs : List Nat) (t : CodeStmt) :
          (xs.foldl (fun tree x => tree.replaceSources x) t).declared ⊆ t.declared := by
        induction xs generalizing t with
        | nil => exact List.Subset.refl _
        | cons x xs induction =>
            exact List.Subset.trans (induction (t.replaceSources x)) (t.declared_replaceSources x)
      exact List.Subset.trans (CodeStmt.declared_removeStatement _ _) (folded _ _)
    · cases visited
  · rename_i id e
    split at visited
    · rename_i safe
      obtain rfl := Option.some.inj visited
      exact ⟨CodeStmt.declared_removeStatement _ _, [], List.nil_subset _, by simp,
        (NotCondition.removeStatement safe (condition safe)).sameBut⟩
    · cases visited
  · cases visited

/-- The tree that is left does what the first tree does, without some of its variables. -/
structure Reduces (w : CodeWorld V) (tree : CodeStmt) (s : EliminationState) : Prop where
  pending : ∀ node ∈ s.pending, node.declared ⊆ tree.declared
  declared : s.tree.declared ⊆ tree.declared
  same : ∃ removed ⊆ tree.declared, (∀ x ∈ removed, x ∉ s.tree.declared) ∧
    SameBut w removed tree s.tree

theorem declared_of_mem_querySubTree {node tree : CodeStmt} (member : node ∈ tree.querySubTree) :
    node.declared ⊆ tree.declared :=
  CodeStmt.declared_of_mem_nodes (tree.querySubTree_sublist_nodes.subset member)

theorem reduces_start (tree : CodeStmt) : Reduces w tree (EliminationState.start tree) :=
  ⟨fun _ => declared_of_mem_querySubTree, List.Subset.refl _, [], List.nil_subset _, by simp,
    .refl [] tree⟩

/-- A step that meets the condition keeps what the tree does. -/
theorem Reduces.step {tree : CodeStmt} {s t : EliminationState} (reduces : Reduces w tree s)
    (step : CarefulStep w s t) : Reduces w tree t := by
  obtain ⟨next, condition⟩ := step
  obtain ⟨current, pending, changed⟩ := s
  obtain ⟨pendingDeclared, currentDeclared, removed, fromTree, gone, same⟩ := reduces
  cases pending with
  | nil =>
      cases changed with
      | false => cases next
      | true =>
          obtain rfl := Option.some.inj next
          exact ⟨fun node member =>
              List.Subset.trans (declared_of_mem_querySubTree member) currentDeclared,
            currentDeclared, removed, fromTree, gone, same⟩
  | cons node rest =>
      have restDeclared : ∀ other ∈ rest, other.declared ⊆ tree.declared :=
        fun other member => pendingDeclared other (List.mem_cons_of_mem _ member)
      rw [EliminationState.next.eq_def] at next
      dsimp only at next
      split at next
      · rename_i result visited
        obtain rfl := Option.some.inj next
        obtain ⟨fewer, xs, ofNode, xsGone, step⟩ :=
          visit_preserves (w := w) visited (condition node rest rfl)
        refine ⟨restDeclared, List.Subset.trans fewer currentDeclared, removed ++ xs, ?_, ?_,
          same.trans step⟩
        · exact List.append_subset.mpr
            ⟨fromTree, List.Subset.trans ofNode (pendingDeclared node List.mem_cons_self)⟩
        · intro x member
          rcases List.mem_append.mp member with earlier | now
          · exact fun declared => gone x earlier (fewer declared)
          · exact xsGone x now
      · obtain rfl := Option.some.inj next
        exact ⟨restDeclared, currentDeclared, removed, fromTree, gone, same⟩

/--
The elimination comes to an end.  If its steps meet the condition, the tree
makes the same calls and stores and the same decisions as before, and leaves the
same values to all variables but some whose declarations are gone.
-/
theorem eliminateDeadCode_sound (w : CodeWorld V) (tree : CodeStmt) :
    Terminates (fun s t => EliminationState.next s = some t) (fun s => s.next = none)
        (EliminationState.start tree) ∧
      ∀ s, Reaches (CarefulStep w) (EliminationState.start tree) s →
        ∃ removed ⊆ tree.declared, (∀ x ∈ removed, x ∉ s.tree.declared) ∧
          SameBut w removed tree s.tree := by
  refine ⟨EliminationState.eliminateDeadCode_terminates tree, fun s reached => ?_⟩
  exact (reached.invariant (reduces_start tree) fun _ _ reduces step => reduces.step step).same

end Runs

/-- Sums of integers; what is called has no effect. -/
def integerWorld : CodeWorld Int where
  constant c := c
  unary _ a := a
  binary _ a b := a + b
  increment a := a + 1
  decrement a := a - 1
  place a b := a + b
  gridDim _ _ := 0
  isTrue a := a ≠ 0
  convert _ v := v
  call _ _ memory _ := (0, memory)

/-- `for (; n; n = 0) { first second emit(y); }`, with variables `x`, `y` and `n` -/
def loopAround (first second : CodeStmt) : CodeStmt :=
  .forStmt 0 .nullStmt (.varRef 2) (.assignOp (.varRef 2) (.value 0))
    (.seq first (.seq second (.exprStmt 3 (.call 0 (.varRef 1)))))

/-- `int x;` -/
def declarationOfX : CodeStmt := .varDecl 1 [(0, none)]

/-- `x = 3;` -/
def assignmentToX : CodeStmt := .exprStmt 2 (.assignOp (.varRef 0) (.value 3))

/-- A node that is not safe need not meet a condition. -/
theorem carefulStep_of_not_safe {V : Type} {w : CodeWorld V} {tree : CodeStmt} {id : Nat}
    {e : CodeExp} (notSafe : e.isSafeToEliminate = false) (rest : List CodeStmt) (changed : Bool) :
    CarefulStep w ⟨tree, .exprStmt id e :: rest, changed⟩ ⟨tree, rest, changed⟩ := by
  refine ⟨by simp [EliminationState.next, EliminationState.visit, notSafe], ?_⟩
  rintro node others ⟨⟩ safe
  rw [notSafe] at safe
  cases safe

/-- The declaration and the assignment are removed. -/
theorem eliminateDeadCode_assignmentToX :
    ∃ removed ⊆ [0], (∀ x ∈ removed, x ∉ ([] : List Nat)) ∧
      SameBut integerWorld removed (loopAround declarationOfX assignmentToX)
        (loopAround .nullStmt .nullStmt) := by
  let emit : CodeStmt := .exprStmt 3 (.call 0 (.varRef 1))
  let source : CodeStmt := .exprStmt 2 (.value 3)
  have first : CarefulStep integerWorld (.start (loopAround declarationOfX assignmentToX))
      ⟨loopAround .nullStmt source, [assignmentToX, emit], true⟩ := by
    refine ⟨by decide, ?_⟩
    rintro node others ⟨⟩ -
    simp [EliminationState.start, StatementLevel, loopAround, declarationOfX, assignmentToX,
      WholeCondition, WholeAssignment, Clear, CodeExp.vars, CodeStmt.initializers]
  have restart : CarefulStep integerWorld ⟨loopAround .nullStmt source, [], true⟩
      ⟨loopAround .nullStmt source, [source, emit], false⟩ :=
    ⟨rfl, fun node others same => by cases same⟩
  have second : CarefulStep integerWorld ⟨loopAround .nullStmt source, [source, emit], false⟩
      ⟨loopAround .nullStmt .nullStmt, [emit], true⟩ := by
    refine ⟨by decide, ?_⟩
    rintro node others ⟨⟩ -
    simp [NotCondition, loopAround, source]
  have reached : Reaches (CarefulStep integerWorld)
      (.start (loopAround declarationOfX assignmentToX))
      ⟨loopAround .nullStmt .nullStmt, [emit], true⟩ :=
    ((((Relation.ReflTransGen.single first).tail (carefulStep_of_not_safe rfl _ _)).tail
      (carefulStep_of_not_safe rfl _ _)).tail restart).tail second
  exact (eliminateDeadCode_sound integerWorld _).2 _ reached

/-- `y = (x = 3) + 1;` -/
def nestedAssignment : CodeStmt :=
  .exprStmt 2 (.assignOp (.varRef 1) (.binary 0 (.assignOp (.varRef 0) (.value 3)) (.value 1)))

/-- All variables are zero but `n`. -/
def enteringLoop : CodeState Int where
  vars x := if x = 2 then 1 else 0
  memory _ := 0
  trace := []

/-- An assignment to a dead variable inside another one takes that with it. -/
theorem eliminateDeadCode_nestedAssignment :
    Reaches (fun s t => EliminationState.next s = some t)
        (.start (loopAround declarationOfX nestedAssignment))
        ⟨loopAround .nullStmt .nullStmt, [], false⟩ ∧
      EliminationState.next ⟨loopAround .nullStmt .nullStmt, [], false⟩ = none ∧
      ((exec integerWorld 8 (loopAround declarationOfX nestedAssignment) enteringLoop).map
          (·.trace)) = some [.branch true, .call 0 4, .branch false] ∧
      ((exec integerWorld 8 (loopAround .nullStmt .nullStmt) enteringLoop).map (·.trace)) =
        some [.branch true, .call 0 0, .branch false] := by
  let emit : CodeStmt := .exprStmt 3 (.call 0 (.varRef 1))
  let source : CodeStmt := .exprStmt 2 (.value 3)
  refine ⟨?_, rfl, by decide, by decide⟩
  have first : EliminationState.next (.start (loopAround declarationOfX nestedAssignment)) =
      some ⟨loopAround .nullStmt source, [nestedAssignment, emit], true⟩ := by decide
  have second : EliminationState.next ⟨loopAround .nullStmt source, [source, emit], false⟩ =
      some ⟨loopAround .nullStmt .nullStmt, [emit], true⟩ := by decide
  refine .head first (.head (b := ⟨_, [emit], true⟩) rfl (.head (b := ⟨_, [], true⟩) rfl ?_))
  refine .head rfl (.head second (.head (b := ⟨_, [], true⟩) rfl (.head rfl ?_)))
  exact .single rfl

end Physis.Translator
