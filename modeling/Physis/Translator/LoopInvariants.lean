import Mathlib.Logic.Function.Basic
import Physis.Library.Runs

/-!
# Loop-invariant expressions

An expression of a loop is taken for invariant if the variables in it have one
source inside the loop at most, which is invariant again.  The test looks at
the operand of a compound assignment as at that of a plain one, and at the
sources in the order of their kinds, so it does not notice an assignment that
comes after a use or is not made in every iteration.
-/

namespace Physis.Translator

open Physis.Library.Runs

/-! ## Expressions and sources -/

/-- `SgUnaryOp`; a cast is arithmetic. -/
inductive LoopUnary where
  | arithmetic (n : Nat)
  | deref
  | plusPlus
  | minusMinus
deriving DecidableEq, Repr

/-- `SgBinaryOp`; `element` is an access through memory, by index or to a member. -/
inductive LoopBinary where
  | arithmetic (n : Nat)
  | element
  | assign
  | compound (n : Nat)
deriving DecidableEq, Repr

/--
An expression.  The address of an element is the sum of the two operands;
`other` is a conditional expression or a call of another function.
-/
inductive LoopExp where
  | value (c : Int)
  /-- an access to the stencil parameter -/
  | stencilField (field : Nat)
  | unary (op : LoopUnary) (operand : LoopExp)
  | binary (op : LoopBinary) (lhs rhs : LoopExp)
  | varRef (x : Nat)
  | psGridDim (grid dim : LoopExp)
  | other
deriving DecidableEq, Repr

/-- The node of a source, in the order in which `GetVariableSrc` queries them. -/
inductive SourceKind where
  | assignOp
  | compoundAssignOp (n : Nat)
  | plusPlusOp
  | minusMinusOp
  /-- a declaration with an initializer -/
  | declaration
deriving DecidableEq, Repr

/-- The place of the kind among the queries. -/
def SourceKind.query : SourceKind → Nat
  | assignOp => 0
  | compoundAssignOp _ => 1
  | plusPlusOp => 2
  | minusMinusOp => 3
  | declaration => 4

/-- The source gives the variable the value of its operand. -/
def SourceKind.isPlain : SourceKind → Bool
  | assignOp | declaration => true
  | compoundAssignOp _ | plusPlusOp | minusMinusOp => false

/-- A node that gives a variable a value; that of an increment has the variable as operand. -/
structure SourceSite where
  kind : SourceKind
  target : Nat
  operand : LoopExp
  inLoop : Bool
deriving DecidableEq, Repr

/-- A function with a loop: its sources in the order of the text, and its variables. -/
structure LoopFunction where
  sites : List SourceSite
  isParam : Nat → Bool
  /-- `IsAddressTaken` -/
  addressTaken : Nat → Bool
  /-- declared in the body of the loop -/
  localToLoop : Nat → Bool

namespace LoopFunction

variable (f : LoopFunction)

/-- `GetVariableSrc` -/
def getVariableSrc (x : Nat) : List SourceSite :=
  (List.range 5).flatMap fun query =>
    f.sites.filter fun site => site.kind.query = query ∧ site.target = x

/-- The sources of the variable that the loop contains. -/
def inLoopSources (x : Nat) : List SourceSite :=
  (f.getVariableSrc x).filter (·.inLoop)

/-- The loop over the sources in `IsLoopInvariant`, with the flag `assigned` -/
def checkSources (check : LoopExp → Option Bool) : Bool → List SourceSite → Option Bool
  | _, [] => some true
  | assigned, site :: rest =>
      if site.inLoop = false then checkSources check true rest
      else if assigned then some false
      else do
        if ← check site.operand then checkSources check true rest else some false

/-- `IsLoopInvariant`, with a bound on the depth -/
def isLoopInvariant : Nat → List Nat → LoopExp → Option Bool
  | 0, _, _ => none
  | fuel + 1, stack, e =>
      match e with
      | .value _ | .stencilField _ => some true
      | .unary _ operand => isLoopInvariant fuel stack operand
      | .binary _ lhs rhs => do
          if ← isLoopInvariant fuel stack lhs then isLoopInvariant fuel stack rhs else some false
      | .varRef x =>
          if x ∈ stack ∨ f.addressTaken x = true then some false
          else checkSources (isLoopInvariant fuel (stack ++ [x])) (f.isParam x) (f.getVariableSrc x)
      | .psGridDim _ dim => isLoopInvariant fuel stack dim
      | .other => some false

/--
`GetLoopInvariantExpression`, with a bound on the depth; the inner `none` is
the null pointer
-/
def getLoopInvariantExpression : Nat → LoopExp → Option (Option LoopExp)
  | 0, _ => none
  | fuel + 1, e =>
      match e with
      | .value _ | .stencilField _ => some (some e)
      | .varRef x =>
          match f.getVariableSrc x with
          | [] => some (if f.isParam x = true then some e else none)
          | sources =>
              match sources.find? (·.inLoop) with
              | none => some (some e)
              | some site => getLoopInvariantExpression fuel site.operand
      | .binary op lhs rhs => do
          let lhs ← getLoopInvariantExpression fuel lhs
          let rhs ← getLoopInvariantExpression fuel rhs
          return (do return .binary op (← lhs) (← rhs))
      | .unary op operand => do
          let operand ← getLoopInvariantExpression fuel operand
          return (do return .unary op (← operand))
      | .psGridDim grid dim => do
          match ← getLoopInvariantExpression fuel grid with
          | none => return none
          | some grid =>
              let dim ← getLoopInvariantExpression fuel dim
              return (do return .psGridDim grid (← dim))
      | .other => some none

end LoopFunction

/-! ## Executions of the loop -/

/-- The meaning of the operators, and the sizes of the grids. -/
structure LoopWorld where
  unary : Nat → Int → Int
  binary : Nat → Int → Int → Int
  place : Int → Int → Int
  gridDim : Int → Int → Int

/-- What an execution has reached; `assigned` is set by a plain source since the loop started. -/
structure LoopState where
  vars : Nat → Int
  fields : Nat → Int
  memory : Int → Int
  assigned : Nat → Bool

namespace LoopExp

/-- The value before the assignments the expression makes itself. -/
def eval (w : LoopWorld) (s : LoopState) : LoopExp → Int
  | value c => c
  | stencilField field => s.fields field
  | unary (.arithmetic n) operand => w.unary n (operand.eval w s)
  | unary .deref operand => s.memory (operand.eval w s)
  | unary .plusPlus operand => operand.eval w s + 1
  | unary .minusMinus operand => operand.eval w s - 1
  | binary (.arithmetic n) lhs rhs | binary (.compound n) lhs rhs =>
      w.binary n (lhs.eval w s) (rhs.eval w s)
  | binary .element lhs rhs => s.memory (w.place (lhs.eval w s) (rhs.eval w s))
  | binary .assign _ rhs => rhs.eval w s
  | varRef x => s.vars x
  | psGridDim grid dim => w.gridDim (grid.eval w s) (dim.eval w s)
  | other => 0

/-- The variables that occur. -/
def vars : LoopExp → List Nat
  | value _ | stencilField _ | other => []
  | unary _ operand => operand.vars
  | binary _ lhs rhs | psGridDim lhs rhs => lhs.vars ++ rhs.vars
  | varRef x => [x]

/-- The grids whose sizes are asked for. -/
def gridArgs : LoopExp → List LoopExp
  | value _ | stencilField _ | varRef _ | other => []
  | unary _ operand => operand.gridArgs
  | binary _ lhs rhs => lhs.gridArgs ++ rhs.gridArgs
  | psGridDim grid dim => grid :: dim.gridArgs

/-- No part is a conditional expression or a call of another function. -/
def Known : LoopExp → Prop
  | value _ | stencilField _ | varRef _ => True
  | unary _ operand => operand.Known
  | binary _ lhs rhs | psGridDim lhs rhs => lhs.Known ∧ rhs.Known
  | other => False

end LoopExp

/-- What a source gives its variable. -/
def SourceSite.stored (w : LoopWorld) (s : LoopState) (site : SourceSite) : Int :=
  match site.kind with
  | .assignOp | .declaration => site.operand.eval w s
  | .compoundAssignOp n => w.binary n (s.vars site.target) (site.operand.eval w s)
  | .plusPlusOp => s.vars site.target + 1
  | .minusMinusOp => s.vars site.target - 1

/-- The state after the source. -/
def SourceSite.execute (w : LoopWorld) (site : SourceSite) (s : LoopState) : LoopState :=
  { s with
    vars := Function.update s.vars site.target (site.stored w s)
    assigned := if site.kind.isPlain then Function.update s.assigned site.target true
      else s.assigned }

/-- A step of the loop. -/
inductive LoopAction where
  | execute (site : SourceSite)
  | declare (x : Nat)
  | write

/--
The steps of the loop, in any order: a source is executed, a variable of the
body is declared without initializer, or something else is written.
-/
inductive LoopStep (w : LoopWorld) (f : LoopFunction) :
    LoopAction → LoopState → LoopState → Prop where
  | execute {s : LoopState} (site : SourceSite)
      (member : site ∈ f.sites) (inLoop : site.inLoop = true) :
      LoopStep w f (.execute site) s (site.execute w s)
  | declare {s : LoopState} (x : Nat) (value : Int) (isLocal : f.localToLoop x = true) :
      LoopStep w f (.declare x) s
        { s with
          vars := Function.update s.vars x value
          assigned := Function.update s.assigned x false }
  | write {s : LoopState} (vars fields : Nat → Int) (memory : Int → Int)
      (kept : ∀ x, f.addressTaken x = false → vars x = s.vars x) :
      LoopStep w f .write s { s with vars := vars, fields := fields, memory := memory }

/-! ## The condition -/

/-- The expressions that a value comes from through the sources in the loop. -/
inductive Followed (f : LoopFunction) (e : LoopExp) : LoopExp → Prop where
  | self : Followed f e e
  | source {user : LoopExp} {x : Nat} {site : SourceSite} (earlier : Followed f e user)
      (occurs : x ∈ user.vars) (member : site ∈ f.inLoopSources x) : Followed f e site.operand

/-- Every variable has one source in the loop at most, and its address is not taken. -/
def Checked (f : LoopFunction) (e : LoopExp) : Prop :=
  e.Known ∧ ∀ x ∈ e.vars, f.addressTaken x = false ∧ (f.inLoopSources x).length ≤ 1

/-- All expressions that the value comes from are checked. -/
def Traced (f : LoopFunction) (e : LoopExp) : Prop :=
  ∀ user, Followed f e user → Checked f user

/-- The arguments that the test leaves out would pass it. -/
def GridsTraced (f : LoopFunction) (e : LoopExp) : Prop :=
  ∀ user, Followed f e user → ∀ grid ∈ user.gridArgs, Traced f grid

/-- Variables without any source that the value comes from are parameters. -/
def ParametersOnly (f : LoopFunction) (e : LoopExp) : Prop :=
  ∀ user, Followed f e user → ∀ x ∈ user.vars, f.getVariableSrc x = [] → f.isParam x = true

/--
At this state the expression assigns nothing, it reads from memory what was
there when the loop started, and its variables are from outside or have got
their values from plain sources since.
-/
def Settled (w : LoopWorld) (f : LoopFunction) (start s : LoopState) : LoopExp → Prop
  | .value _ | .other => True
  | .stencilField field => s.fields field = start.fields field
  | .unary (.arithmetic _) operand => Settled w f start s operand
  | .unary .deref operand =>
      Settled w f start s operand ∧
        s.memory (operand.eval w s) = start.memory (operand.eval w s)
  | .unary .plusPlus _ | .unary .minusMinus _ => False
  | .binary (.arithmetic _) lhs rhs => Settled w f start s lhs ∧ Settled w f start s rhs
  | .binary .element lhs rhs =>
      Settled w f start s lhs ∧ Settled w f start s rhs ∧
        s.memory (w.place (lhs.eval w s) (rhs.eval w s)) =
          start.memory (w.place (lhs.eval w s) (rhs.eval w s))
  | .binary .assign _ _ | .binary (.compound _) _ _ => False
  | .varRef x =>
      if f.inLoopSources x = [] then f.localToLoop x = false
      else s.assigned x = true ∧ ∀ site ∈ f.inLoopSources x, site.kind.isPlain = true
  | .psGridDim grid dim => Settled w f start s grid ∧ Settled w f start s dim

/-- A source of a variable the expression depends on is executed with a settled operand. -/
def SettledStep (w : LoopWorld) (f : LoopFunction) (start : LoopState) (e : LoopExp)
    (s t : LoopState) : Prop :=
  ∃ action, LoopStep w f action s t ∧
    ∀ site, action = .execute site →
      (∃ user, Followed f e user ∧ site.target ∈ user.vars) → Settled w f start s site.operand

/-! ## The test -/

section Test

variable {f : LoopFunction}

/-- Of the sources that pass one is in the loop at most. -/
theorem checkSources_eq_true {check : LoopExp → Option Bool} {assigned : Bool}
    {sites : List SourceSite}
    (passes : LoopFunction.checkSources check assigned sites = some true) :
    (sites.filter (·.inLoop)).length ≤ (if assigned then 0 else 1) ∧
      ∀ site ∈ sites.filter (·.inLoop), check site.operand = some true := by
  induction sites generalizing assigned with
  | nil => simp
  | cons site rest induction =>
      rw [LoopFunction.checkSources] at passes
      split at passes
      · rename_i outside
        obtain ⟨few, checked⟩ := induction passes
        rw [List.filter_cons_of_neg (by simp [outside])]
        exact ⟨le_trans few (by simp), checked⟩
      · rename_i inLoop
        split at passes
        · cases passes
        · rename_i unassigned
          rw [Option.bind_eq_bind, Option.bind_eq_some_iff] at passes
          obtain ⟨answer, first, rest⟩ := passes
          split at rest
          · rename_i yes
            obtain ⟨few, checked⟩ := induction rest
            rw [List.filter_cons_of_pos (by simpa using inLoop)]
            rw [if_pos rfl, Nat.le_zero, List.length_eq_zero_iff] at few
            rw [few, if_neg unassigned]
            refine ⟨le_rfl, fun other member => ?_⟩
            rw [List.mem_singleton.mp member, first, yes]
          · cases rest

/-- The test passes, at some depth and below some variables. -/
def Passes (f : LoopFunction) (e : LoopExp) : Prop :=
  ∃ fuel stack, f.isLoopInvariant fuel stack e = some true

theorem Passes.unary {op : LoopUnary} {operand : LoopExp}
    (passes : Passes f (.unary op operand)) : Passes f operand := by
  obtain ⟨_ | fuel, stack, answer⟩ := passes
  · cases answer
  · exact ⟨fuel, stack, answer⟩

theorem Passes.binary {op : LoopBinary} {lhs rhs : LoopExp}
    (passes : Passes f (.binary op lhs rhs)) : Passes f lhs ∧ Passes f rhs := by
  obtain ⟨_ | fuel, stack, answer⟩ := passes
  · cases answer
  · rw [LoopFunction.isLoopInvariant, Option.bind_eq_bind, Option.bind_eq_some_iff] at answer
    obtain ⟨left, first, second⟩ := answer
    split at second
    · rename_i yes
      exact ⟨⟨fuel, stack, yes ▸ first⟩, fuel, stack, second⟩
    · cases second

theorem Passes.psGridDim {grid dim : LoopExp}
    (passes : Passes f (.psGridDim grid dim)) : Passes f dim := by
  obtain ⟨_ | fuel, stack, answer⟩ := passes
  · cases answer
  · exact ⟨fuel, stack, answer⟩

theorem Passes.varRef {x : Nat} (passes : Passes f (.varRef x)) :
    f.addressTaken x = false ∧ (f.inLoopSources x).length ≤ 1 ∧
      ∀ site ∈ f.inLoopSources x, Passes f site.operand := by
  obtain ⟨_ | fuel, stack, answer⟩ := passes
  · cases answer
  · rw [LoopFunction.isLoopInvariant] at answer
    split at answer
    · cases answer
    · rename_i unseen
      obtain ⟨few, checked⟩ := checkSources_eq_true answer
      refine ⟨by simpa using fun taken => unseen (.inr taken), le_trans few ?_, ?_⟩
      · split <;> omega
      · intro site member
        exact ⟨fuel, stack ++ [x], checked site member⟩

theorem Passes.not_other (passes : Passes f .other) : False := by
  obtain ⟨_ | fuel, stack, answer⟩ := passes <;> cases answer

/-- A variable of an expression that passes was looked at, unless it is in the argument left out. -/
theorem Passes.varRef_or_grid {e : LoopExp} (passes : Passes f e) {x : Nat}
    (occurs : x ∈ e.vars) : Passes f (.varRef x) ∨ ∃ grid ∈ e.gridArgs, x ∈ grid.vars := by
  induction e with
  | value c => simp [LoopExp.vars] at occurs
  | stencilField field => simp [LoopExp.vars] at occurs
  | other => simp [LoopExp.vars] at occurs
  | varRef y =>
      obtain rfl := List.mem_singleton.mp occurs
      exact .inl passes
  | unary op operand induction => exact induction passes.unary occurs
  | binary op lhs rhs left right =>
      rcases List.mem_append.mp occurs with first | second
      · refine (left passes.binary.1 first).imp_right ?_
        rintro ⟨grid, member, inner⟩
        exact ⟨grid, List.mem_append_left _ member, inner⟩
      · refine (right passes.binary.2 second).imp_right ?_
        rintro ⟨grid, member, inner⟩
        exact ⟨grid, List.mem_append_right _ member, inner⟩
  | psGridDim grid dim _ induction =>
      rcases List.mem_append.mp occurs with first | second
      · exact .inr ⟨grid, List.mem_cons_self, first⟩
      · refine (induction passes.psGridDim second).imp_right ?_
        rintro ⟨arg, member, inner⟩
        exact ⟨arg, List.mem_cons_of_mem _ member, inner⟩

theorem Passes.known {e : LoopExp} (passes : Passes f e)
    (grids : ∀ grid ∈ e.gridArgs, grid.Known) : e.Known := by
  induction e with
  | value c => trivial
  | stencilField field => trivial
  | varRef y => trivial
  | other => exact passes.not_other
  | unary op operand induction => exact induction passes.unary grids
  | binary op lhs rhs left right =>
      obtain ⟨first, second⟩ := List.forall_mem_append.mp grids
      exact ⟨left passes.binary.1 first, right passes.binary.2 second⟩
  | psGridDim grid dim _ induction =>
      obtain ⟨first, second⟩ := List.forall_mem_cons.mp grids
      exact ⟨first, induction passes.psGridDim second⟩

/-- What an expression that passes comes from passes, or is of an argument left out. -/
theorem Passes.followed {e : LoopExp} (passes : Passes f e) {user : LoopExp}
    (follows : Followed f e user) :
    Passes f user ∨
      ∃ earlier, Followed f e earlier ∧ ∃ grid ∈ earlier.gridArgs, Followed f grid user := by
  induction follows with
  | self => exact .inl passes
  | source earlier occurs member induction =>
      rcases induction with pass | ⟨root, fromRoot, grid, isArg, inner⟩
      · rcases pass.varRef_or_grid occurs with direct | ⟨grid, isArg, inner⟩
        · exact .inl (direct.varRef.2.2 _ member)
        · exact .inr ⟨_, earlier, grid, isArg, .source .self inner member⟩
      · exact .inr ⟨root, fromRoot, grid, isArg, .source inner occurs member⟩

/-- The test and the condition on its gap trace the expression. -/
theorem Passes.traced {e : LoopExp} (passes : Passes f e) (grids : GridsTraced f e) :
    Traced f e := by
  intro user follows
  rcases passes.followed follows with pass | ⟨root, fromRoot, grid, isArg, inner⟩
  · refine ⟨pass.known fun grid isArg => (grids user follows grid isArg grid .self).1, ?_⟩
    intro x occurs
    rcases pass.varRef_or_grid occurs with direct | ⟨grid, isArg, inner⟩
    · exact ⟨direct.varRef.1, direct.varRef.2.1⟩
    · exact (grids user follows grid isArg grid .self).2 x inner
  · exact grids root fromRoot grid isArg user inner

end Test

/-! ## Values through the sources -/

/-- The value of an expression at the start of the loop, with the sources for the variables. -/
inductive LoopValue (w : LoopWorld) (f : LoopFunction) (start : LoopState) :
    LoopExp → Int → Prop where
  | value (c : Int) : LoopValue w f start (.value c) c
  | stencilField (field : Nat) : LoopValue w f start (.stencilField field) (start.fields field)
  | arithmetic {n : Nat} {operand : LoopExp} {v : Int} (inner : LoopValue w f start operand v) :
      LoopValue w f start (.unary (.arithmetic n) operand) (w.unary n v)
  | deref {operand : LoopExp} {v : Int} (inner : LoopValue w f start operand v) :
      LoopValue w f start (.unary .deref operand) (start.memory v)
  | binary {n : Nat} {lhs rhs : LoopExp} {a b : Int}
      (left : LoopValue w f start lhs a) (right : LoopValue w f start rhs b) :
      LoopValue w f start (.binary (.arithmetic n) lhs rhs) (w.binary n a b)
  | element {lhs rhs : LoopExp} {a b : Int}
      (left : LoopValue w f start lhs a) (right : LoopValue w f start rhs b) :
      LoopValue w f start (.binary .element lhs rhs) (start.memory (w.place a b))
  | outside {x : Nat} (none : f.inLoopSources x = [])
      (param : f.getVariableSrc x = [] → f.isParam x = true) :
      LoopValue w f start (.varRef x) (start.vars x)
  | inside {x : Nat} {site : SourceSite} {v : Int} (only : f.inLoopSources x = [site])
      (source : LoopValue w f start site.operand v) : LoopValue w f start (.varRef x) v
  | gridDim {grid dim : LoopExp} {a b : Int}
      (left : LoopValue w f start grid a) (right : LoopValue w f start dim b) :
      LoopValue w f start (.psGridDim grid dim) (w.gridDim a b)

section Values

variable {w : LoopWorld} {f : LoopFunction} {start : LoopState}

theorem LoopValue.unique {e : LoopExp} {a b : Int} (one : LoopValue w f start e a)
    (two : LoopValue w f start e b) : a = b := by
  induction one generalizing b with
  | value c => cases two; rfl
  | stencilField field => cases two; rfl
  | arithmetic _ induction =>
      cases two with
      | arithmetic inner => rw [induction inner]
  | deref _ induction =>
      cases two with
      | deref inner => rw [induction inner]
  | binary _ _ left right =>
      cases two with
      | binary first second => rw [left first, right second]
  | element _ _ left right =>
      cases two with
      | element first second => rw [left first, right second]
  | outside empty _ =>
      cases two with
      | outside _ _ => rfl
      | inside only _ => rw [empty] at only; cases only
  | inside only _ induction =>
      cases two with
      | outside empty _ => rw [only] at empty; cases empty
      | inside again source =>
          rw [only] at again
          obtain ⟨rfl, -⟩ := List.cons.inj again
          exact induction source
  | gridDim _ _ left right =>
      cases two with
      | gridDim first second => rw [left first, right second]

theorem getLoopInvariantExpression_outside {x : Nat} (empty : f.inLoopSources x = [])
    (param : f.getVariableSrc x = [] → f.isParam x = true) (fuel : Nat) :
    f.getLoopInvariantExpression (fuel + 1) (.varRef x) = some (some (.varRef x)) := by
  have outside : (f.getVariableSrc x).find? (·.inLoop) = none := by
    rw [← List.head?_filter]
    exact congrArg List.head? empty
  rw [LoopFunction.getLoopInvariantExpression]
  split
  · rename_i noSource
    rw [if_pos (param noSource)]
  · rw [outside]

theorem getLoopInvariantExpression_inside {x : Nat} {site : SourceSite}
    (only : f.inLoopSources x = [site]) (fuel : Nat) :
    f.getLoopInvariantExpression (fuel + 1) (.varRef x) =
      f.getLoopInvariantExpression fuel site.operand := by
  have inside : (f.getVariableSrc x).find? (·.inLoop) = some site := by
    rw [← List.head?_filter]
    exact congrArg List.head? only
  rw [LoopFunction.getLoopInvariantExpression]
  split
  · rename_i noSource
    rw [noSource] at inside
    cases inside
  · rw [inside]

theorem getLoopInvariantExpression_unary {op : LoopUnary} {operand inv : LoopExp} {bound : Nat}
    (builds : ∀ fuel, bound ≤ fuel →
      f.getLoopInvariantExpression fuel operand = some (some inv)) :
    ∀ fuel, bound + 1 ≤ fuel →
      f.getLoopInvariantExpression fuel (.unary op operand) = some (some (.unary op inv)) := by
  intro fuel enough
  obtain ⟨fuel, rfl⟩ := Nat.exists_eq_add_one_of_ne_zero (Nat.ne_zero_of_lt enough)
  rw [LoopFunction.getLoopInvariantExpression, builds fuel (by omega)]
  rfl

theorem getLoopInvariantExpression_binary {op : LoopBinary} {lhs rhs left right : LoopExp}
    {first second : Nat}
    (lhsBuilds : ∀ fuel, first ≤ fuel →
      f.getLoopInvariantExpression fuel lhs = some (some left))
    (rhsBuilds : ∀ fuel, second ≤ fuel →
      f.getLoopInvariantExpression fuel rhs = some (some right)) :
    ∀ fuel, first + second + 1 ≤ fuel →
      f.getLoopInvariantExpression fuel (.binary op lhs rhs) =
        some (some (.binary op left right)) := by
  intro fuel enough
  obtain ⟨fuel, rfl⟩ := Nat.exists_eq_add_one_of_ne_zero (Nat.ne_zero_of_lt enough)
  rw [LoopFunction.getLoopInvariantExpression, lhsBuilds fuel (by omega),
    rhsBuilds fuel (by omega)]
  rfl

/-- What is built evaluates to the value. -/
theorem LoopValue.eval_eq {e : LoopExp} {v : Int} (value : LoopValue w f start e v)
    {fuel : Nat} {inv : LoopExp}
    (built : f.getLoopInvariantExpression fuel e = some (some inv)) :
    inv.eval w start = v := by
  induction value generalizing fuel inv with
  | value c =>
      obtain _ | fuel := fuel
      · cases built
      · cases built; rfl
  | stencilField field =>
      obtain _ | fuel := fuel
      · cases built
      · cases built; rfl
  | arithmetic _ induction | deref _ induction =>
      obtain _ | fuel := fuel
      · cases built
      · simp only [LoopFunction.getLoopInvariantExpression, Option.bind_eq_bind, Option.pure_def,
          Option.bind_eq_some_iff, Option.some.injEq] at built
        obtain ⟨_, inner, operand, rfl, rfl⟩ := built
        simp only [LoopExp.eval, induction inner]
  | binary _ _ left right | element _ _ left right =>
      obtain _ | fuel := fuel
      · cases built
      · simp only [LoopFunction.getLoopInvariantExpression, Option.bind_eq_bind, Option.pure_def,
          Option.bind_eq_some_iff, Option.some.injEq] at built
        obtain ⟨_, first, _, second, lhs, rfl, rhs, rfl, rfl⟩ := built
        simp only [LoopExp.eval, left first, right second]
  | outside empty param =>
      obtain _ | fuel := fuel
      · cases built
      · rw [getLoopInvariantExpression_outside empty param fuel] at built
        cases built
        rfl
  | inside only _ induction =>
      obtain _ | fuel := fuel
      · cases built
      · rw [getLoopInvariantExpression_inside only] at built
        exact induction built
  | gridDim _ _ left right =>
      obtain _ | fuel := fuel
      · cases built
      · rw [LoopFunction.getLoopInvariantExpression, Option.bind_eq_bind,
          Option.bind_eq_some_iff] at built
        obtain ⟨_ | grid, first, rest⟩ := built
        · cases rest
        · simp only [Option.bind_eq_bind, Option.pure_def, Option.bind_eq_some_iff,
            Option.some.injEq] at rest
          obtain ⟨_, second, dim, rfl, rfl⟩ := rest
          simp only [LoopExp.eval, left first, right second]

/-- Building comes to an end with an expression. -/
theorem LoopValue.builds {e : LoopExp} {v : Int} (value : LoopValue w f start e v) :
    ∃ inv bound, ∀ fuel, bound ≤ fuel →
      f.getLoopInvariantExpression fuel e = some (some inv) := by
  induction value with
  | value c =>
      refine ⟨.value c, 1, fun fuel enough => ?_⟩
      obtain ⟨fuel, rfl⟩ := Nat.exists_eq_add_of_le' enough
      rfl
  | stencilField field =>
      refine ⟨.stencilField field, 1, fun fuel enough => ?_⟩
      obtain ⟨fuel, rfl⟩ := Nat.exists_eq_add_of_le' enough
      rfl
  | @outside x empty param =>
      refine ⟨.varRef x, 1, fun fuel enough => ?_⟩
      obtain ⟨fuel, rfl⟩ := Nat.exists_eq_add_of_le' enough
      exact getLoopInvariantExpression_outside empty param fuel
  | inside only _ induction =>
      obtain ⟨inv, bound, builds⟩ := induction
      refine ⟨inv, bound + 1, fun fuel enough => ?_⟩
      obtain ⟨fuel, rfl⟩ := Nat.exists_eq_add_one_of_ne_zero (Nat.ne_zero_of_lt enough)
      rw [getLoopInvariantExpression_inside only]
      exact builds fuel (by omega)
  | @arithmetic n _ _ _ induction =>
      obtain ⟨inv, bound, builds⟩ := induction
      exact ⟨.unary (.arithmetic n) inv, bound + 1, getLoopInvariantExpression_unary builds⟩
  | deref _ induction =>
      obtain ⟨inv, bound, builds⟩ := induction
      exact ⟨.unary .deref inv, bound + 1, getLoopInvariantExpression_unary builds⟩
  | @binary n _ _ _ _ _ _ left right =>
      obtain ⟨lhs, first, lhsBuilds⟩ := left
      obtain ⟨rhs, second, rhsBuilds⟩ := right
      exact ⟨.binary (.arithmetic n) lhs rhs, first + second + 1,
        getLoopInvariantExpression_binary lhsBuilds rhsBuilds⟩
  | element _ _ left right =>
      obtain ⟨lhs, first, lhsBuilds⟩ := left
      obtain ⟨rhs, second, rhsBuilds⟩ := right
      exact ⟨.binary .element lhs rhs, first + second + 1,
        getLoopInvariantExpression_binary lhsBuilds rhsBuilds⟩
  | gridDim _ _ left right =>
      obtain ⟨grid, first, gridBuilds⟩ := left
      obtain ⟨dim, second, dimBuilds⟩ := right
      refine ⟨.psGridDim grid dim, first + second + 1, fun fuel enough => ?_⟩
      obtain ⟨fuel, rfl⟩ := Nat.exists_eq_add_one_of_ne_zero (Nat.ne_zero_of_lt enough)
      rw [LoopFunction.getLoopInvariantExpression, gridBuilds fuel (by omega),
        Option.bind_eq_bind, Option.bind_some, dimBuilds fuel (by omega)]
      rfl

/-! ## Runs -/

/-- What holds of the variables after settled steps. -/
structure Follows (w : LoopWorld) (f : LoopFunction) (start : LoopState) (e : LoopExp)
    (s : LoopState) : Prop where
  outside : ∀ x, f.inLoopSources x = [] → f.addressTaken x = false → f.localToLoop x = false →
    s.vars x = start.vars x
  inside : ∀ user, Followed f e user → ∀ x ∈ user.vars, ∀ site, f.inLoopSources x = [site] →
    site.kind.isPlain = true → s.assigned x = true → LoopValue w f start site.operand (s.vars x)

/-- A settled expression has the value through its sources. -/
theorem Follows.loopValue {e : LoopExp} {s : LoopState} (params : ParametersOnly f e)
    (follows : Follows w f start e s) {user : LoopExp} (followed : Followed f e user)
    (checked : Checked f user) {part : LoopExp} (occurs : ∀ x ∈ part.vars, x ∈ user.vars)
    (known : part.Known) (settled : Settled w f start s part) :
    LoopValue w f start part (part.eval w s) := by
  induction part with
  | value c => exact .value c
  | stencilField field =>
      rw [LoopExp.eval, (settled : s.fields field = start.fields field)]
      exact .stencilField field
  | other => exact known.elim
  | varRef x =>
      have inUser := occurs x List.mem_cons_self
      obtain ⟨notTaken, few⟩ := checked.2 x inUser
      rw [Settled] at settled
      split at settled
      · rename_i empty
        rw [LoopExp.eval, follows.outside x empty notTaken settled]
        exact .outside empty (params user followed x inUser)
      · rename_i nonempty
        obtain ⟨site, only⟩ := List.length_eq_one_iff.mp
          (le_antisymm few (List.length_pos_iff.mpr nonempty))
        have plain := settled.2 site (only ▸ List.mem_cons_self)
        exact .inside only (follows.inside user followed x inUser site only plain settled.1)
  | unary op operand induction =>
      cases op with
      | arithmetic n => exact .arithmetic (induction occurs known settled)
      | deref =>
          rw [LoopExp.eval, settled.2]
          exact .deref (induction occurs known settled.1)
      | plusPlus => exact settled.elim
      | minusMinus => exact settled.elim
  | binary op lhs rhs left right =>
      obtain ⟨leftOccurs, rightOccurs⟩ := List.forall_mem_append.mp occurs
      cases op with
      | arithmetic n =>
          exact .binary (left leftOccurs known.1 settled.1) (right rightOccurs known.2 settled.2)
      | element =>
          rw [LoopExp.eval, settled.2.2]
          exact .element (left leftOccurs known.1 settled.1) (right rightOccurs known.2 settled.2.1)
      | assign => exact settled.elim
      | compound n => exact settled.elim
  | psGridDim grid dim left right =>
      obtain ⟨leftOccurs, rightOccurs⟩ := List.forall_mem_append.mp occurs
      exact .gridDim (left leftOccurs known.1 settled.1) (right rightOccurs known.2 settled.2)

theorem mem_inLoopSources {site : SourceSite} (member : site ∈ f.sites)
    (inLoop : site.inLoop = true) : site ∈ f.inLoopSources site.target := by
  rw [LoopFunction.inLoopSources, List.mem_filter, LoopFunction.getVariableSrc, List.mem_flatMap]
  refine ⟨⟨site.kind.query, ?_, ?_⟩, inLoop⟩
  · rw [List.mem_range]
    cases site.kind <;> simp [SourceKind.query]
  · exact List.mem_filter.mpr ⟨member, by simp⟩

/-- Settled steps keep what holds. -/
theorem Follows.step {e : LoopExp} (traced : Traced f e) (params : ParametersOnly f e)
    {s t : LoopState} (follows : Follows w f start e s) (step : SettledStep w f start e s t) :
    Follows w f start e t := by
  obtain ⟨action, move, condition⟩ := step
  cases move with
  | execute site member inLoop =>
      have source := mem_inLoopSources member inLoop
      refine ⟨fun x empty notTaken notLocal => ?_,
        fun user followed x occurs other only plain => ?_⟩
      · have distinct : x ≠ site.target := by
          rintro rfl
          rw [empty] at source
          cases source
        simp only [SourceSite.execute, Function.update_of_ne distinct,
          follows.outside x empty notTaken notLocal]
      · by_cases same : x = site.target
        · subst same
          intro _
          rw [only] at source
          obtain rfl := List.mem_singleton.mp source
          have settled := condition _ rfl ⟨user, followed, occurs⟩
          have operandFollowed : Followed f e site.operand :=
            .source followed occurs (only ▸ List.mem_cons_self)
          have operandChecked := traced _ operandFollowed
          have stored : site.stored w s = site.operand.eval w s := by
            revert plain
            rw [SourceSite.stored]
            cases site.kind <;> simp [SourceKind.isPlain]
          simp only [SourceSite.execute, Function.update_self, stored]
          exact follows.loopValue params operandFollowed operandChecked (fun _ => id)
            operandChecked.1 settled
        · intro assigned
          have earlier : s.assigned x = true := by
            revert assigned
            dsimp only [SourceSite.execute]
            split
            · rw [Function.update_of_ne same]; exact id
            · exact id
          simp only [SourceSite.execute, Function.update_of_ne same]
          exact follows.inside user followed x occurs other only plain earlier
  | declare y value isLocal =>
      refine ⟨fun x empty notTaken notLocal => ?_,
        fun user followed x occurs site only plain assigned => ?_⟩
      · have distinct : x ≠ y := by
          rintro rfl
          rw [isLocal] at notLocal
          cases notLocal
        simp only [Function.update_of_ne distinct, follows.outside x empty notTaken notLocal]
      · have distinct : x ≠ y := by
          rintro rfl
          simp at assigned
        simp only [Function.update_of_ne distinct] at assigned ⊢
        exact follows.inside user followed x occurs site only plain assigned
  | write vars fields memory kept =>
      refine ⟨fun x empty notTaken notLocal => ?_,
        fun user followed x occurs site only plain assigned => ?_⟩
      · exact (kept x notTaken).trans (follows.outside x empty notTaken notLocal)
      · have notTaken := ((traced user followed).2 x occurs).1
        simp only [kept x notTaken]
        exact follows.inside user followed x occurs site only plain assigned

theorem Follows.of_reaches {e : LoopExp} (traced : Traced f e) (params : ParametersOnly f e)
    {s : LoopState} (fresh : ∀ x, start.assigned x = false)
    (reached : Reaches (SettledStep w f start e) start s) : Follows w f start e s := by
  refine reached.invariant ⟨fun _ _ _ _ => rfl, ?_⟩
    fun _ _ follows step => follows.step traced params step
  intro user _ x _ site _ _ assigned
  rw [fresh x] at assigned
  cases assigned

end Values

/--
In a run of settled steps an expression that passes the test has one value at
all states at which it is settled.  Building the expression for this value
comes to an end, and what is built has it before the loop.
-/
theorem isLoopInvariant_sound {w : LoopWorld} {f : LoopFunction} {start : LoopState}
    {e : LoopExp} {fuel : Nat} (fresh : ∀ x, start.assigned x = false)
    (passes : f.isLoopInvariant fuel [] e = some true) (grids : GridsTraced f e)
    (params : ParametersOnly f e)
    {s t : LoopState} (sReached : Reaches (SettledStep w f start e) start s)
    (tReached : Reaches (SettledStep w f start e) start t)
    (sSettled : Settled w f start s e) (tSettled : Settled w f start t e) :
    e.eval w s = e.eval w t ∧
      ∃ inv bound, (∀ depth, bound ≤ depth →
        f.getLoopInvariantExpression depth e = some (some inv)) ∧
        inv.eval w start = e.eval w s := by
  have traced := Passes.traced ⟨fuel, [], passes⟩ grids
  have checked := traced e .self
  have value {u : LoopState} (reached : Reaches (SettledStep w f start e) start u)
      (settled : Settled w f start u e) : LoopValue w f start e (e.eval w u) :=
    (Follows.of_reaches traced params fresh reached).loopValue params .self checked
      (fun _ => id) checked.1 settled
  have first := value sReached sSettled
  obtain ⟨inv, bound, builds⟩ := first.builds
  exact ⟨first.unique (value tReached tSettled), inv, bound, builds,
    first.eval_eq (builds bound le_rfl)⟩

/-- Sums for all binary operators. -/
def sumWorld : LoopWorld where
  unary _ a := a
  binary _ a b := a + b
  place a b := a + b
  gridDim _ _ := 0

/-- `int v = n + 1;`, and `i++` -/
def sumDeclaration : SourceSite :=
  ⟨.declaration, 0, .binary (.arithmetic 0) (.varRef 1) (.value 1), true⟩

def indexIncrement : SourceSite := ⟨.plusPlusOp, 2, .varRef 2, true⟩

/-- A loop over `i` that declares `v`, in a function with a parameter `n` -/
def localSum : LoopFunction where
  sites := [⟨.assignOp, 2, .value 0, false⟩, indexIncrement, sumDeclaration]
  isParam x := x = 1
  addressTaken _ := false
  localToLoop x := x = 0

/-- Before a loop: `v` and `i` are zero, other variables `n`. -/
def beforeLoop (n : Int) : LoopState where
  vars x := if x = 1 then n else 0
  fields _ := 0
  memory _ := 0
  assigned _ := false

def firstPass : LoopState := sumDeclaration.execute sumWorld (beforeLoop 3)

def secondPass : LoopState :=
  sumDeclaration.execute sumWorld (indexIncrement.execute sumWorld firstPass)

/-- In two passes `v` has the value of the expression built, before the loop. -/
theorem isLoopInvariant_localSum :
    (LoopExp.varRef 0).eval sumWorld firstPass = (LoopExp.varRef 0).eval sumWorld secondPass ∧
      ∃ inv bound, (∀ depth, bound ≤ depth →
        localSum.getLoopInvariantExpression depth (.varRef 0) = some (some inv)) ∧
        inv.eval sumWorld (beforeLoop 3) = (LoopExp.varRef 0).eval sumWorld firstPass := by
  have followed (user : LoopExp) (follows : Followed localSum (.varRef 0) user) :
      user.gridArgs = [] ∧ ∀ x ∈ user.vars, x = 0 ∨ x = 1 := by
    induction follows with
    | self => exact ⟨rfl, by simp [LoopExp.vars]⟩
    | source _ occurs member induction =>
        rcases induction.2 _ occurs with rfl | rfl
        · have only : localSum.inLoopSources 0 = [sumDeclaration] := by decide
          rw [only, List.mem_singleton] at member
          subst member
          exact ⟨rfl, by simp [sumDeclaration, LoopExp.vars]⟩
        · have none : localSum.inLoopSources 1 = [] := by decide
          rw [none] at member
          cases member
  have declared (s : LoopState) : SettledStep sumWorld localSum (beforeLoop 3) (.varRef 0) s
      (sumDeclaration.execute sumWorld s) := by
    refine ⟨.execute sumDeclaration, .execute _ (by decide) rfl, ?_⟩
    rintro site ⟨⟩ -
    exact ⟨rfl, trivial⟩
  have incremented (s : LoopState) : SettledStep sumWorld localSum (beforeLoop 3) (.varRef 0) s
      (indexIncrement.execute sumWorld s) := by
    refine ⟨.execute indexIncrement, .execute _ (by decide) rfl, ?_⟩
    rintro site ⟨⟩ ⟨user, follows, occurs⟩
    rcases (followed user follows).2 _ occurs with same | same <;> cases same
  have first : Reaches (SettledStep sumWorld localSum (beforeLoop 3) (.varRef 0))
      (beforeLoop 3) firstPass := .single (declared _)
  have second : Reaches (SettledStep sumWorld localSum (beforeLoop 3) (.varRef 0))
      (beforeLoop 3) secondPass := (first.tail (incremented _)).tail (declared _)
  have passes : localSum.isLoopInvariant 4 [] (.varRef 0) = some true := by decide
  have grids : GridsTraced localSum (.varRef 0) := by
    intro user follows grid isArg
    rw [(followed user follows).1] at isArg
    cases isArg
  have params : ParametersOnly localSum (.varRef 0) := by
    intro user follows x occurs noSource
    rcases (followed user follows).2 x occurs with rfl | rfl
    · cases noSource
    · rfl
  exact isLoopInvariant_sound (fun _ => rfl) passes grids params first second
    ⟨rfl, by decide⟩ ⟨rfl, by decide⟩

/-- `v += 1` -/
def sumUpdate : SourceSite := ⟨.compoundAssignOp 0, 0, .value 1, true⟩

/-- `int v = 0;` before a loop with `v += 1` -/
def runningSum : LoopFunction where
  sites := [⟨.declaration, 0, .value 0, false⟩, sumUpdate]
  isParam _ := false
  addressTaken _ := false
  localToLoop _ := false

/-- A sum over the passes of the loop is taken for its summand. -/
theorem isLoopInvariant_runningSum :
    runningSum.isLoopInvariant 2 [] (.varRef 0) = some true ∧
      runningSum.getLoopInvariantExpression 2 (.varRef 0) = some (some (.value 1)) ∧
      ∃ s t : LoopState,
        Reaches (fun before after => ∃ action, LoopStep sumWorld runningSum action before after)
          (beforeLoop 0) s ∧
        LoopStep sumWorld runningSum (.execute sumUpdate) s t ∧
        (LoopExp.varRef 0).eval sumWorld s = 1 ∧ (LoopExp.varRef 0).eval sumWorld t = 2 := by
  refine ⟨by decide, by decide, sumUpdate.execute sumWorld (beforeLoop 0),
    sumUpdate.execute sumWorld (sumUpdate.execute sumWorld (beforeLoop 0)), ?_, ?_, ?_, ?_⟩
  · exact .single ⟨.execute sumUpdate, .execute _ (by decide) rfl⟩
  · exact .execute _ (by decide) rfl
  · decide
  · decide

end Physis.Translator
