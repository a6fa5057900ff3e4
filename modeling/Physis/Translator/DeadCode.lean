import Physis.Library.Runs

/-!
# Dead-code elimination

A variable is dead if it occurs only as the left side of assignments.  Its
declaration is removed, and of every statement with an assignment to it the
right side remains; expression statements without effects are removed.  This is
repeated as long as a pass over the statements changes something.
-/

namespace Physis.Translator

open Physis.Library.Runs

/-! ## Code -/

/-- An expression; several arguments of a call are joined by a binary operator. -/
inductive CodeExp where
  | value (c : Int)
  | varRef (x : Nat)
  | unary (n : Nat) (operand : CodeExp)
  | binary (n : Nat) (lhs rhs : CodeExp)
  | conditional (cond trueExp falseExp : CodeExp)
  /-- an access through memory -/
  | element (lhs rhs : CodeExp)
  | psGridDim (grid dim : CodeExp)
  | call (f : Nat) (args : CodeExp)
  | assignOp (lhs rhs : CodeExp)
  | compoundAssignOp (n : Nat) (lhs rhs : CodeExp)
  | plusPlusOp (operand : CodeExp)
  | minusMinusOp (operand : CodeExp)
deriving DecidableEq, Repr

/--
A statement tree.  Declarations and expression statements are told apart by
numbers.  A sequence ends with a null statement, and one is left where a
statement was removed.
-/
inductive CodeStmt where
  | nullStmt
  | varDecl (id : Nat) (vars : List (Nat × Option CodeExp))
  | exprStmt (id : Nat) (e : CodeExp)
  | ifStmt (cond : CodeExp) (trueBody falseBody : CodeStmt)
  | forStmt (id : Nat) (init : CodeStmt) (test increment : CodeExp) (body : CodeStmt)
  /-- the condition is an expression statement -/
  | whileStmt (cond body : CodeStmt)
  | doStmt (body cond : CodeStmt)
  | seq (first second : CodeStmt)
deriving DecidableEq, Repr

namespace CodeExp

/-- `IsSafeToEliminate` -/
def isSafeToEliminate : CodeExp → Bool
  | value _ | varRef _ => true
  | unary _ operand => operand.isSafeToEliminate
  | binary _ lhs rhs | element lhs rhs | psGridDim lhs rhs =>
      lhs.isSafeToEliminate && rhs.isSafeToEliminate
  | conditional cond trueExp falseExp =>
      cond.isSafeToEliminate && trueExp.isSafeToEliminate && falseExp.isSafeToEliminate
  | call _ _ | assignOp _ _ | compoundAssignOp _ _ _ | plusPlusOp _ | minusMinusOp _ => false

/-- The right sides of the assignments to the variable, as `GetVariableSrc` collects them. -/
def assignSources (x : Nat) : CodeExp → List CodeExp
  | value _ | varRef _ => []
  | unary _ operand | call _ operand | plusPlusOp operand | minusMinusOp operand =>
      operand.assignSources x
  | binary _ lhs rhs | element lhs rhs | psGridDim lhs rhs | compoundAssignOp _ lhs rhs =>
      lhs.assignSources x ++ rhs.assignSources x
  | conditional cond trueExp falseExp =>
      cond.assignSources x ++ trueExp.assignSources x ++ falseExp.assignSources x
  | assignOp lhs rhs =>
      (if lhs = varRef x then [rhs] else []) ++ lhs.assignSources x ++ rhs.assignSources x

/-- The variable occurs otherwise than as the left side of an assignment. -/
def isReferenced (x : Nat) : CodeExp → Bool
  | value _ => false
  | varRef y => y = x
  | unary _ operand | call _ operand | plusPlusOp operand | minusMinusOp operand =>
      operand.isReferenced x
  | binary _ lhs rhs | element lhs rhs | psGridDim lhs rhs | compoundAssignOp _ lhs rhs =>
      lhs.isReferenced x || rhs.isReferenced x
  | conditional cond trueExp falseExp =>
      cond.isReferenced x || trueExp.isReferenced x || falseExp.isReferenced x
  | assignOp (varRef _) rhs => rhs.isReferenced x
  | assignOp lhs rhs => lhs.isReferenced x || rhs.isReferenced x

/--
What is left of a statement of the expression: its first source replaces it, and
the others are then no longer in the tree.
-/
def replaceSource (x : Nat) (e : CodeExp) : CodeExp :=
  (e.assignSources x).headD e

end CodeExp

namespace CodeStmt

/-- The initializers of a declaration. -/
def initializers (vars : List (Nat × Option CodeExp)) : List CodeExp :=
  vars.filterMap Prod.snd

/-- The expressions of the statements. -/
def exps : CodeStmt → List CodeExp
  | nullStmt => []
  | varDecl _ vars => initializers vars
  | exprStmt _ e => [e]
  | ifStmt cond trueBody falseBody => cond :: (trueBody.exps ++ falseBody.exps)
  | forStmt _ init test increment body => init.exps ++ test :: increment :: body.exps
  | whileStmt cond body => cond.exps ++ body.exps
  | doStmt body cond => body.exps ++ cond.exps
  | seq first second => first.exps ++ second.exps

/-- The declarations and expression statements, but not the conditions of `if` and `for`. -/
def nodes : CodeStmt → List CodeStmt
  | nullStmt => []
  | varDecl id vars => [varDecl id vars]
  | exprStmt id e => [exprStmt id e]
  | ifStmt _ trueBody falseBody => trueBody.nodes ++ falseBody.nodes
  | forStmt _ init _ _ body => init.nodes ++ body.nodes
  | whileStmt cond body => cond.nodes ++ body.nodes
  | doStmt body cond => body.nodes ++ cond.nodes
  | seq first second => first.nodes ++ second.nodes

def isExprStmt : CodeStmt → Bool
  | exprStmt _ _ => true
  | _ => false

/--
The nodes a pass looks at; an expression statement is skipped if its parent is
an `if` or a `for`.
-/
def querySubTree : CodeStmt → List CodeStmt
  | nullStmt => []
  | varDecl id vars => [varDecl id vars]
  | exprStmt id e => [exprStmt id e]
  | ifStmt _ trueBody falseBody =>
      (if trueBody.isExprStmt then [] else trueBody.querySubTree) ++
        (if falseBody.isExprStmt then [] else falseBody.querySubTree)
  | forStmt _ init _ _ body =>
      init.querySubTree ++ (if body.isExprStmt then [] else body.querySubTree)
  | whileStmt cond body => cond.querySubTree ++ body.querySubTree
  | doStmt body cond => body.querySubTree ++ cond.querySubTree
  | seq first second => first.querySubTree ++ second.querySubTree

/-- `removeStatement` -/
def removeStatement (node : CodeStmt) : CodeStmt → CodeStmt
  | nullStmt => nullStmt
  | varDecl id vars => if varDecl id vars = node then nullStmt else varDecl id vars
  | exprStmt id e => if exprStmt id e = node then nullStmt else exprStmt id e
  | ifStmt cond trueBody falseBody =>
      ifStmt cond (removeStatement node trueBody) (removeStatement node falseBody)
  | forStmt id init test increment body =>
      forStmt id (removeStatement node init) test increment (removeStatement node body)
  | whileStmt cond body => whileStmt (removeStatement node cond) (removeStatement node body)
  | doStmt body cond => doStmt (removeStatement node body) (removeStatement node cond)
  | seq first second => seq (removeStatement node first) (removeStatement node second)

/--
The loop over the sources of a variable: the enclosing statement of each is
replaced by the source.  That of an increment is the whole loop.
-/
def replaceSources (x : Nat) : CodeStmt → CodeStmt
  | nullStmt => nullStmt
  | varDecl id vars =>
      match (initializers vars).flatMap (·.assignSources x) ++
          initializers (vars.filter (·.1 = x)) with
      | [] => varDecl id vars
      | source :: _ => exprStmt id source
  | exprStmt id e => exprStmt id (e.replaceSource x)
  | ifStmt cond trueBody falseBody =>
      ifStmt (cond.replaceSource x) (trueBody.replaceSources x) (falseBody.replaceSources x)
  | forStmt id init test increment body =>
      match increment.assignSources x with
      | [] => forStmt id (init.replaceSources x) (test.replaceSource x) increment
          (body.replaceSources x)
      | source :: _ => exprStmt id source
  | whileStmt cond body => whileStmt (cond.replaceSources x) (body.replaceSources x)
  | doStmt body cond => doStmt (body.replaceSources x) (cond.replaceSources x)
  | seq first second => seq (first.replaceSources x) (second.replaceSources x)

/-- The variable occurs only as the left side of assignments. -/
def isDead (x : Nat) (s : CodeStmt) : Bool :=
  s.exps.all fun e => !e.isReferenced x

/-- What `EliminateDeadCode` makes of a declaration of dead variables. -/
def eliminateVarDecl (id : Nat) (vars : List (Nat × Option CodeExp)) (s : CodeStmt) : CodeStmt :=
  removeStatement (varDecl id vars)
    ((vars.map Prod.fst).foldl (fun tree x => tree.replaceSources x) s)

end CodeStmt

/-! ## The elimination -/

/-- A pass over the nodes that were there when it started. -/
structure EliminationState where
  tree : CodeStmt
  pending : List CodeStmt
  changed : Bool
deriving DecidableEq, Repr

namespace EliminationState

/-- A pass starts. -/
def start (tree : CodeStmt) : EliminationState :=
  ⟨tree, tree.querySubTree, false⟩

/-- `EliminateDeadCode` of a declaration or of an expression statement -/
def visit (tree node : CodeStmt) : Option CodeStmt :=
  match node with
  | .varDecl id vars =>
      if vars.all fun v => tree.isDead v.1 then some (tree.eliminateVarDecl id vars) else none
  | .exprStmt id e =>
      if e.isSafeToEliminate then some (.removeStatement (.exprStmt id e) tree) else none
  | _ => none

/-- `EliminateDeadCode`, node after node -/
def next : EliminationState → Option EliminationState
  | ⟨tree, node :: rest, changed⟩ =>
      match visit tree node with
      | some tree' => some ⟨tree', rest, true⟩
      | none => some ⟨tree, rest, changed⟩
  | ⟨tree, [], true⟩ => some (start tree)
  | ⟨_, [], false⟩ => none

end EliminationState

/-! ## Termination -/

namespace CodeStmt

/-- What a pass that changes something makes smaller. -/
def weight : CodeStmt → Nat
  | nullStmt => 0
  | varDecl _ _ => 2
  | exprStmt _ _ => 1
  | ifStmt _ trueBody falseBody => trueBody.weight + falseBody.weight
  | forStmt _ init _ _ body => init.weight + body.weight + 1
  | whileStmt cond body => cond.weight + body.weight
  | doStmt body cond => body.weight + cond.weight
  | seq first second => first.weight + second.weight

theorem querySubTree_sublist_nodes (s : CodeStmt) : s.querySubTree.Sublist s.nodes := by
  induction s with
  | nullStmt => exact .refl _
  | varDecl id vars => exact .refl _
  | exprStmt id e => exact .refl _
  | ifStmt cond trueBody falseBody first second =>
      refine .append ?_ ?_
      · split
        · exact List.nil_sublist _
        · exact first
      · split
        · exact List.nil_sublist _
        · exact second
  | forStmt id init test increment body first second =>
      refine .append first ?_
      split
      · exact List.nil_sublist _
      · exact second
  | whileStmt cond body first second => exact .append first second
  | doStmt body cond first second => exact .append first second
  | seq first second left right => exact .append left right

theorem length_nodes_le (s : CodeStmt) : s.nodes.length ≤ s.weight := by
  induction s <;> simp only [nodes, weight, List.length_append, List.length_nil,
    List.length_singleton] <;> omega

/-- A node that is removed makes the tree lighter. -/
theorem weight_removeStatement (node s : CodeStmt) :
    (removeStatement node s).weight + s.nodes.count node ≤ s.weight := by
  induction s with
  | nullStmt => simp [removeStatement, nodes, weight]
  | varDecl id vars =>
      rw [removeStatement]
      split
      · rename_i same
        simp [nodes, weight, same]
      · rename_i other
        simp [nodes, weight, other]
  | exprStmt id e =>
      rw [removeStatement]
      split
      · rename_i same
        simp [nodes, weight, same]
      · rename_i other
        simp [nodes, weight, other]
  | ifStmt _ _ _ first second | forStmt _ _ _ _ _ first second | whileStmt _ _ first second
  | doStmt _ _ first second | seq _ _ first second =>
      simp only [removeStatement, nodes, weight, List.count_append]
      omega

/-- A declaration that is replaced makes the tree lighter. -/
theorem weight_replaceSources (x id : Nat) (vars : List (Nat × Option CodeExp)) (s : CodeStmt) :
    (s.replaceSources x).weight + s.nodes.count (.varDecl id vars) ≤
      s.weight + (s.replaceSources x).nodes.count (.varDecl id vars) := by
  induction s with
  | nullStmt => exact le_rfl
  | varDecl other others =>
      rw [replaceSources]
      split
      · exact le_rfl
      · have few := List.count_le_length (a := varDecl id vars) (l := [varDecl other others])
        simp only [nodes, weight, List.length_singleton] at few ⊢
        omega
  | exprStmt other e => simp [replaceSources, nodes, weight]
  | forStmt other init test increment body first second =>
      rw [replaceSources]
      split
      · simp only [nodes, weight, List.count_append]
        omega
      · have left := List.count_le_length (a := varDecl id vars) (l := init.nodes)
        have right := List.count_le_length (a := varDecl id vars) (l := body.nodes)
        have leftWeight := length_nodes_le init
        have rightWeight := length_nodes_le body
        simp only [nodes, weight, List.count_append]
        omega
  | ifStmt _ _ _ first second | whileStmt _ _ first second | doStmt _ _ first second
  | seq _ _ first second =>
      simp only [replaceSources, nodes, weight, List.count_append]
      omega

theorem weight_eliminateVarDecl {id : Nat} {vars : List (Nat × Option CodeExp)} {s : CodeStmt} :
    (s.eliminateVarDecl id vars).weight + s.nodes.count (.varDecl id vars) ≤ s.weight := by
  have replaced (xs : List Nat) (t : CodeStmt) :
      (xs.foldl (fun tree x => tree.replaceSources x) t).weight +
          t.nodes.count (.varDecl id vars) ≤
        t.weight +
          (xs.foldl (fun tree x => tree.replaceSources x) t).nodes.count (.varDecl id vars) := by
    induction xs generalizing t with
    | nil => exact le_rfl
    | cons x xs induction =>
        have one := weight_replaceSources x id vars t
        have rest := induction (t.replaceSources x)
        rw [List.foldl_cons]
        omega
  have removed := weight_removeStatement (varDecl id vars)
    ((vars.map Prod.fst).foldl (fun tree x => tree.replaceSources x) s)
  have all := replaced (vars.map Prod.fst) s
  rw [eliminateVarDecl]
  omega

end CodeStmt

namespace EliminationState

theorem weight_visit {tree node result : CodeStmt} (visited : visit tree node = some result) :
    result.weight + tree.nodes.count node ≤ tree.weight := by
  rw [visit.eq_def] at visited
  split at visited
  · split at visited
    · obtain rfl := Option.some.inj visited
      exact CodeStmt.weight_eliminateVarDecl
    · cases visited
  · split at visited
    · obtain rfl := Option.some.inj visited
      exact CodeStmt.weight_removeStatement _ _
    · cases visited
  · cases visited

/-- Until a pass changes something its nodes are in the tree. -/
structure Bounded (limit : Nat) (s : EliminationState) : Prop where
  present : s.changed = false → ∀ node ∈ s.pending, node ∈ s.tree.nodes
  light : s.tree.weight ≤ limit
  short : s.pending.length ≤ limit

theorem bounded_start {limit : Nat} {tree : CodeStmt} (light : tree.weight ≤ limit) :
    Bounded limit (start tree) where
  present _ _ member := tree.querySubTree_sublist_nodes.subset member
  light := light
  short := tree.querySubTree_sublist_nodes.length_le.trans (tree.length_nodes_le.trans light)

/-- Every step keeps the bounds and makes the rest of the work less. -/
theorem Bounded.next {limit : Nat} {s t : EliminationState} (bounded : Bounded limit s)
    (step : s.next = some t) :
    Bounded limit t ∧
      (limit + 2) * (t.tree.weight + t.changed.toNat) + t.pending.length <
        (limit + 2) * (s.tree.weight + s.changed.toNat) + s.pending.length := by
  obtain ⟨tree, pending, changed⟩ := s
  obtain ⟨present, light, short⟩ := bounded
  cases pending with
  | nil =>
      cases changed with
      | false => cases step
      | true =>
          obtain rfl := Option.some.inj step
          have again := bounded_start light
          refine ⟨again, ?_⟩
          have few := again.short
          simp only [start, Bool.toNat_true, Bool.toNat_false, List.length_nil,
            Nat.mul_add] at few ⊢
          omega
  | cons node rest =>
      rw [EliminationState.next.eq_def] at step
      simp only [List.length_cons] at short
      dsimp only at step
      split at step
      · rename_i result visited
        obtain rfl := Option.some.inj step
        have lighter := weight_visit visited
        -- The first change of a pass takes a node from the tree.
        have less : result.weight + 1 ≤ tree.weight + changed.toNat := by
          cases changed with
          | true => simpa using by omega
          | false =>
              have occurs : 0 < tree.nodes.count node :=
                List.count_pos_iff.mpr (present rfl node List.mem_cons_self)
              simpa using by omega
        refine ⟨⟨by simp, by dsimp only at light ⊢; omega, by dsimp only; omega⟩, ?_⟩
        have scaled := Nat.mul_le_mul_left (limit + 2) less
        simp only [Bool.toNat_true, List.length_cons]
        omega
      · obtain rfl := Option.some.inj step
        refine ⟨⟨fun unchanged other member => ?_, light, by dsimp only; omega⟩, ?_⟩
        · exact present unchanged other (List.mem_cons_of_mem _ member)
        · simp only [List.length_cons]
          omega

/-- The elimination comes to an end on every tree. -/
theorem eliminateDeadCode_terminates (tree : CodeStmt) :
    Terminates (fun s t => next s = some t) (fun s => s.next = none) (start tree) :=
  terminates_of_measure (fun s => (tree.weight + 2) * (s.tree.weight + s.changed.toNat) +
      s.pending.length)
    (bounded_start le_rfl) (fun _ _ bounded step => (bounded.next step).1)
    (fun _ _ bounded step => (bounded.next step).2) fun s _ => by
      cases s.next with
      | none => exact .inl rfl
      | some t => exact .inr ⟨t, rfl⟩

end EliminationState

end Physis.Translator
