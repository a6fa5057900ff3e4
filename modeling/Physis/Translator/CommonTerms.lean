import Mathlib

/-!
# Common terms of conditional assignments

`ProcessAssignment` takes the operands two sums on the branches of an `if` have
in common, assigns their sum before the `if`, and leaves the rest on the branches
or moves it out of the loop.  Equal operands at different positions leave the
wrong rest of the second sum, and the assignment passes everything that was
before it on the branches.
-/

namespace Physis.Translator

/-! ## Terms and statements -/

/-- The types of literals; `IsEquivalent` compares all but the last two. -/
inductive LiteralType where
  | int
  | longInt
  | bool
  | char
  | double
  | float
  | longLongInt
  | short
  | unsignedInt
  | unsignedLong
  | unsignedLongLongInt
  | unsignedShort
  | longDouble
deriving DecidableEq, Repr

def LiteralType.compared : LiteralType → Bool
  | unsignedShort | longDouble => false
  | _ => true

/-- An expression over values with an exact addition; operators are numbered. -/
inductive Term (V : Type) where
  | varRef (v : Nat)
  | literal (type : LiteralType) (value : V)
  | add (lhs rhs : Term V)
  | binaryOp (n : Nat) (lhs rhs : Term V)
  | unaryOp (n : Nat) (operand : Term V)
  | gridGet (grid : Nat) (index : Term V)

/-- The variables and the grids of a run function. -/
structure TermState (V : Type) where
  vars : Nat → V
  grids : Nat → V → V

/-- The operators other than the addition, and which values are true. -/
structure Operators (V : Type) where
  binary : Nat → V → V → V
  unary : Nat → V → V
  truth : V → Bool

variable {V : Type}

namespace TermState

def set (s : TermState V) (v : Nat) (x : V) : TermState V :=
  { s with vars := Function.update s.vars v x }

@[simp]
theorem set_vars_self (s : TermState V) (v : Nat) (x : V) : (s.set v x).vars v = x := by
  simp [set]

@[simp]
theorem set_grids (s : TermState V) (v : Nat) (x : V) : (s.set v x).grids = s.grids :=
  rfl

theorem set_vars_of_ne (s : TermState V) {v w : Nat} (x : V) (other : w ≠ v) :
    (s.set v x).vars w = s.vars w := by
  simp [set, other]

@[simp]
theorem set_set (s : TermState V) (v : Nat) (x y : V) : (s.set v x).set v y = s.set v y := by
  simp [set]

@[simp]
theorem set_eq_self (s : TermState V) (v : Nat) : s.set v (s.vars v) = s := by
  simp [set]

theorem set_comm (s : TermState V) {v w : Nat} (x y : V) (other : v ≠ w) :
    (s.set v x).set w y = (s.set w y).set v x := by
  simp [set, Function.update_comm other]

end TermState

namespace Term

/-- The variables a term reads. -/
def reads : Term V → Finset Nat
  | varRef v => {v}
  | literal _ _ => ∅
  | add lhs rhs | binaryOp _ lhs rhs => lhs.reads ∪ rhs.reads
  | unaryOp _ operand => operand.reads
  | gridGet _ index => index.reads

/-- The value of a term. -/
def eval [Add V] (ops : Operators V) (s : TermState V) : Term V → V
  | varRef v => s.vars v
  | literal _ value => value
  | add lhs rhs => lhs.eval ops s + rhs.eval ops s
  | binaryOp n lhs rhs => ops.binary n (lhs.eval ops s) (rhs.eval ops s)
  | unaryOp n operand => ops.unary n (operand.eval ops s)
  | gridGet grid index => s.grids grid (index.eval ops s)

/-- A term sees only the variables it reads. -/
theorem eval_congr [Add V] (ops : Operators V) {s t : TermState V} {e : Term V}
    (grids : s.grids = t.grids) (vars : ∀ v ∈ e.reads, s.vars v = t.vars v) :
    e.eval ops s = e.eval ops t := by
  induction e with
  | varRef v => exact vars v (Finset.mem_singleton_self v)
  | literal type value => rfl
  | unaryOp n operand induction =>
      simp only [eval, induction vars]
  | gridGet grid index induction =>
      simp only [eval, induction vars, grids]
  | add lhs rhs left right | binaryOp n lhs rhs left right =>
      simp only [eval,
        left fun v member => vars v (Finset.mem_union_left _ member),
        right fun v member => vars v (Finset.mem_union_right _ member)]

theorem eval_set [Add V] (ops : Operators V) (s : TermState V) {e : Term V} {v : Nat} (x : V)
    (unread : v ∉ e.reads) : e.eval ops (s.set v x) = e.eval ops s :=
  eval_congr ops rfl fun _ member =>
    s.set_vars_of_ne x fun equal => unread (equal ▸ member)

/-- A variable or a literal, the terms `IsEquivalent` knows. -/
def isAtom : Term V → Bool
  | varRef _ | literal _ _ => true
  | _ => false

theorem eval_congr_of_isAtom [Add V] (ops : Operators V) {s t : TermState V} {e : Term V}
    (atom : e.isAtom = true) (vars : ∀ v, e = varRef v → s.vars v = t.vars v) :
    e.eval ops s = e.eval ops t := by
  cases e with
  | varRef v => exact vars v rfl
  | literal type value => rfl
  | add | binaryOp | unaryOp | gridGet => cases atom

/-- The terms a sum is made of, itself included. -/
def parts : Term V → List (Term V)
  | add lhs rhs => add lhs rhs :: (lhs.parts ++ rhs.parts)
  | term => [term]

theorem self_mem_parts (e : Term V) : e ∈ e.parts := by
  cases e <;> simp [parts]

theorem reads_subset_of_mem_parts {e part : Term V} (member : part ∈ e.parts) :
    part.reads ⊆ e.reads := by
  induction e with
  | add lhs rhs left right =>
      simp only [parts, List.mem_cons, List.mem_append] at member
      rcases member with rfl | inLeft | inRight
      · exact subset_rfl
      · exact (left inLeft).trans Finset.subset_union_left
      · exact (right inRight).trans Finset.subset_union_right
  | varRef | literal | binaryOp | unaryOp | gridGet =>
      rw [List.mem_singleton.1 member]

/-- The number of nodes. -/
def size : Term V → Nat
  | varRef _ | literal _ _ => 1
  | add lhs rhs | binaryOp _ lhs rhs => lhs.size + rhs.size + 1
  | unaryOp _ operand => operand.size + 1
  | gridGet _ index => index.size + 1

theorem size_pos (e : Term V) : 0 < e.size := by
  cases e <;> simp [size]

end Term

/-- A statement of a kernel body; `other` is one of any other kind. -/
inductive TermStmt (V : Type) where
  | null
  | assign (v : Nat) (rhs : Term V)
  | seq (first second : TermStmt V)
  | ifElse (cond : Term V) (trueBody falseBody : TermStmt V)
  | other (effect : TermState V → TermState V)

def TermStmt.exec [Add V] (ops : Operators V) : TermStmt V → TermState V → TermState V
  | null, s => s
  | assign v rhs, s => s.set v (rhs.eval ops s)
  | seq first second, s => second.exec ops (first.exec ops s)
  | ifElse cond trueBody falseBody, s =>
      if ops.truth (cond.eval ops s) then trueBody.exec ops s else falseBody.exec ops s
  | other effect, s => effect s

namespace TermStmt

/-- The statement neither reads nor writes a variable. -/
def Avoids [Add V] (w : Nat) : TermStmt V → Prop
  | null => True
  | assign v rhs => v ≠ w ∧ w ∉ rhs.reads
  | seq first second => first.Avoids w ∧ second.Avoids w
  | ifElse cond trueBody falseBody =>
      w ∉ cond.reads ∧ trueBody.Avoids w ∧ falseBody.Avoids w
  | other effect => ∀ (s : TermState V) (x : V), effect (s.set w x) = (effect s).set w x

theorem exec_set [Add V] (ops : Operators V) {w : Nat} {stmt : TermStmt V}
    (avoids : stmt.Avoids w) (s : TermState V) (x : V) :
    stmt.exec ops (s.set w x) = (stmt.exec ops s).set w x := by
  induction stmt generalizing s with
  | null => rfl
  | assign v rhs =>
      simp only [exec, Term.eval_set ops s x avoids.2]
      exact s.set_comm x _ avoids.1.symm
  | seq first second left right =>
      simp only [exec, left avoids.1, right avoids.2]
  | ifElse cond trueBody falseBody left right =>
      simp only [exec, Term.eval_set ops s x avoids.1, left avoids.2.1, right avoids.2.2]
      split <;> rfl
  | other effect => exact avoids s x

end TermStmt

/-- A place of a statement in a block, also in a nested `if`, but not in an inner loop. -/
inductive Place (V : Type) where
  | here
  | before (place : Place V) (rest : TermStmt V)
  | after (first : TermStmt V) (place : Place V)
  | inTrue (cond : Term V) (place : Place V) (falseBody : TermStmt V)
  | inFalse (cond : Term V) (trueBody : TermStmt V) (place : Place V)

namespace Place

/-- The block with a statement at the place. -/
def fill (stmt : TermStmt V) : Place V → TermStmt V
  | here => stmt
  | before place rest => .seq (place.fill stmt) rest
  | after first place => .seq first (place.fill stmt)
  | inTrue cond place falseBody => .ifElse cond (place.fill stmt) falseBody
  | inFalse cond trueBody place => .ifElse cond trueBody (place.fill stmt)

section Runs

variable [Add V] (ops : Operators V)

/-- The state in which the run of the block comes to the place, if it does. -/
def arrive : Place V → TermState V → Option (TermState V)
  | here, s => some s
  | before place _, s => place.arrive s
  | after first place, s => place.arrive (first.exec ops s)
  | inTrue cond place _, s => if ops.truth (cond.eval ops s) then place.arrive s else none
  | inFalse cond _ place, s => if ops.truth (cond.eval ops s) then none else place.arrive s

/-- The run of the block from behind the place. -/
def resume : Place V → TermState V → TermState V
  | here, s => s
  | before place rest, s => rest.exec ops (place.resume s)
  | after _ place, s | inTrue _ place _, s | inFalse _ _ place, s => place.resume s

theorem exec_fill_of_arrive {place : Place V} {s t : TermState V} (stmt : TermStmt V)
    (arrives : place.arrive ops s = some t) :
    (place.fill stmt).exec ops s = place.resume ops (stmt.exec ops t) := by
  induction place generalizing s with
  | here =>
      cases arrives
      rfl
  | before place rest induction =>
      simp only [fill, TermStmt.exec, resume, induction arrives]
  | after first place induction =>
      simp only [fill, TermStmt.exec, resume, induction arrives]
  | inTrue cond place falseBody induction =>
      simp only [arrive, Option.ite_none_right_eq_some] at arrives
      simp only [fill, TermStmt.exec, resume, if_pos arrives.1, induction arrives.2]
  | inFalse cond trueBody place induction =>
      simp only [arrive, Option.ite_none_left_eq_some] at arrives
      simp only [fill, TermStmt.exec, resume, if_neg arrives.1, induction arrives.2]

theorem exec_fill_of_none {place : Place V} {s : TermState V} (stmt : TermStmt V)
    (missed : place.arrive ops s = none) :
    (place.fill stmt).exec ops s = (place.fill .null).exec ops s := by
  induction place generalizing s with
  | here => cases missed
  | before place rest induction =>
      simp only [fill, TermStmt.exec, induction missed]
  | after first place induction =>
      simp only [fill, TermStmt.exec, induction missed]
  | inTrue cond place falseBody induction =>
      simp only [fill, TermStmt.exec]
      split
      · next taken => exact induction (by simpa [arrive, taken] using missed)
      · rfl
  | inFalse cond trueBody place induction =>
      simp only [fill, TermStmt.exec]
      split
      · rfl
      · next untaken => exact induction (by simpa [arrive, untaken] using missed)

/-- The block around the place neither reads nor writes a variable. -/
def Avoids (w : Nat) (place : Place V) : Prop :=
  (place.fill .null).Avoids w

theorem avoids_fill {w : Nat} {place : Place V} {stmt : TermStmt V}
    (avoids : (place.fill stmt).Avoids w) : place.Avoids w ∧ stmt.Avoids w := by
  induction place with
  | here => exact ⟨trivial, avoids⟩
  | before place rest induction =>
      exact ⟨⟨(induction avoids.1).1, avoids.2⟩, (induction avoids.1).2⟩
  | after first place induction =>
      exact ⟨⟨avoids.1, (induction avoids.2).1⟩, (induction avoids.2).2⟩
  | inTrue cond place falseBody induction =>
      exact ⟨⟨avoids.1, (induction avoids.2.1).1, avoids.2.2⟩, (induction avoids.2.1).2⟩
  | inFalse cond trueBody place induction =>
      exact ⟨⟨avoids.1, avoids.2.1, (induction avoids.2.2).1⟩, (induction avoids.2.2).2⟩

theorem arrive_set {w : Nat} {place : Place V} (avoids : place.Avoids w)
    (s : TermState V) (x : V) :
    place.arrive ops (s.set w x) = (place.arrive ops s).map (·.set w x) := by
  induction place generalizing s with
  | here => rfl
  | before place rest induction => exact induction avoids.1 s
  | after first place induction =>
      simp only [arrive, TermStmt.exec_set ops avoids.1, induction avoids.2]
  | inTrue cond place falseBody induction =>
      simp only [arrive, Term.eval_set ops s x avoids.1, induction avoids.2.1]
      split <;> rfl
  | inFalse cond trueBody place induction =>
      simp only [arrive, Term.eval_set ops s x avoids.1, induction avoids.2.2]
      split <;> rfl

theorem resume_set {w : Nat} {place : Place V} (avoids : place.Avoids w)
    (s : TermState V) (x : V) :
    place.resume ops (s.set w x) = (place.resume ops s).set w x := by
  induction place generalizing s with
  | here => rfl
  | before place rest induction =>
      simp only [resume, induction avoids.1, TermStmt.exec_set ops avoids.2]
  | after first place induction => exact induction avoids.2 s
  | inTrue cond place falseBody induction => exact induction avoids.2.1 s
  | inFalse cond trueBody place induction => exact induction avoids.2.2 s

end Runs

end Place

/-! ## Reducing two sums -/

section Reduce

variable [DecidableEq V]

/-- `IsEquivalent` -/
def isEquivalent : Term V → Term V → Bool
  | .varRef v, .varRef w => decide (v = w)
  | .literal type x, .literal otherType y =>
      type.compared && decide (type = otherType) && decide (x = y)
  | _, _ => false

theorem eq_of_isEquivalent {t f : Term V} (equivalent : isEquivalent t f) : t = f := by
  cases t <;> cases f <;> simp_all [isEquivalent]

theorem isAtom_of_isEquivalent {t f : Term V} (equivalent : isEquivalent t f) :
    t.isAtom = true := by
  cases t <;> cases f <;> first | rfl | cases equivalent

/-- The arrays `te` and `fe`, indexed by a bit. -/
structure Operands (V : Type) where
  zero : Option (Term V)
  one : Option (Term V)

namespace Operands

def get (operands : Operands V) : Bool → Option (Term V)
  | false => operands.zero
  | true => operands.one

/-- The element is set to `NULL`. -/
def clear (operands : Operands V) : Bool → Operands V
  | false => { operands with zero := none }
  | true => { operands with one := none }

/-- The operands of a sum, or the term alone. -/
def ofTerm : Term V → Operands V
  | .add lhs rhs => ⟨some lhs, some rhs⟩
  | term => ⟨some term, none⟩

/-- The operands at two positions are there and equal. -/
def Same (te fe : Operands V) (i j : Bool) : Prop :=
  ∃ t ∈ te.get i, ∃ f ∈ fe.get j, isEquivalent t f

theorem Same.get_eq {te fe : Operands V} {i j : Bool} (same : Same te fe i j) :
    te.get i = fe.get j := by
  obtain ⟨t, isTrue, f, isFalse, equivalent⟩ := same
  rw [isTrue, isFalse, eq_of_isEquivalent equivalent]

theorem Same.isAtom {te fe : Operands V} {i j : Bool} {a : Term V} (same : Same te fe i j)
    (operand : te.get i = some a) : a.isAtom = true := by
  obtain ⟨t, isTrue, f, -, equivalent⟩ := same
  obtain rfl := Option.some.inj (isTrue.symm.trans operand)
  exact isAtom_of_isEquivalent equivalent

theorem not_same_of_left {te fe : Operands V} {i j : Bool} (absent : te.get i = none) :
    ¬Same te fe i j := by
  rintro ⟨t, isTrue, -⟩
  cases absent.symm.trans isTrue

theorem not_same_of_right {te fe : Operands V} {i j : Bool} (absent : fe.get j = none) :
    ¬Same te fe i j := by
  rintro ⟨-, -, f, isFalse, -⟩
  cases absent.symm.trans isFalse

end Operands

/-- The number of nodes of a rest. -/
def restSize : Option (Term V) → Nat
  | none => 0
  | some e => e.size

/-- The variables of one round of the loop in `ProcessAssignment`. -/
structure Round (V : Type) where
  te : Operands V
  fe : Operands V
  tReduced : Option (Term V)
  fReduced : Option (Term V)
  pushed : List (Term V)
  modified : Bool

namespace Round

/-- The body of the inner loop: both rests are taken from position `i ^ 1`. -/
def tryPair (round : Round V) (position : Bool × Bool) : Round V :=
  let (i, j) := position
  match round.te.get i, round.fe.get j with
  | some t, some f =>
      if isEquivalent t f then
        { te := round.te.clear i
          fe := round.fe.clear j
          tReduced := round.te.get !i
          fReduced := round.fe.get !i
          pushed := t :: round.pushed
          modified := true }
      else round
  | _, _ => round

def start (t f : Term V) : Round V where
  te := .ofTerm t
  fe := .ofTerm f
  tReduced := some t
  fReduced := some f
  pushed := []
  modified := false

/-- One round, over the four pairs of positions. -/
def run (t f : Term V) : Round V :=
  [(false, false), (false, true), (true, false), (true, true)].foldl tryPair (start t f)

open Operands

theorem tryPair_of_same {round : Round V} {i j : Bool} {t : Term V}
    (same : Same round.te round.fe i j) (operand : round.te.get i = some t) :
    round.tryPair (i, j) =
      { te := round.te.clear i
        fe := round.fe.clear j
        tReduced := round.te.get !i
        fReduced := round.fe.get !i
        pushed := t :: round.pushed
        modified := true } := by
  obtain ⟨t', isTrue, f, isFalse, equivalent⟩ := same
  obtain rfl := Option.some.inj (isTrue.symm.trans operand)
  simp [tryPair, operand, Option.mem_def.1 isFalse, equivalent]

theorem tryPair_of_not_same {round : Round V} {i j : Bool}
    (differ : ¬Same round.te round.fe i j) : round.tryPair (i, j) = round := by
  unfold tryPair
  dsimp only
  split
  · next t f isTrue isFalse =>
      exact if_neg fun equivalent => differ ⟨t, isTrue, f, isFalse, equivalent⟩
  · rfl

/-- Whatever pair is taken, the rest of the first sum has fewer nodes than `n`. -/
def Shrinks (n : Nat) (round : Round V) : Prop :=
  (∀ i, round.te.get i ≠ none → restSize (round.te.get !i) < n) ∧
    (round.modified = true → restSize round.tReduced < n)

theorem Shrinks.tryPair {n : Nat} {round : Round V} (shrinks : round.Shrinks n)
    (position : Bool × Bool) : (round.tryPair position).Shrinks n := by
  obtain ⟨i, j⟩ := position
  by_cases same : Same round.te round.fe i j
  · obtain ⟨t, isTrue, -⟩ := id same
    have smaller := shrinks.1 i (by simp [Option.mem_def.1 isTrue])
    rw [tryPair_of_same same isTrue]
    refine ⟨fun k present => ?_, fun _ => smaller⟩
    cases i <;> cases k <;> simp_all [Operands.get, Operands.clear, restSize] <;> omega
  · rwa [tryPair_of_not_same same]

theorem shrinks_run (t f : Term V) : (run t f).Shrinks t.size := by
  have initial : (start t f).Shrinks t.size := by
    refine ⟨fun i present => ?_, fun modified => by cases modified⟩
    cases t <;> cases i <;>
      simp_all [start, ofTerm, Operands.get, restSize, Term.size]
  exact (((initial.tryPair (false, false)).tryPair (false, true)).tryPair
    (true, false)).tryPair (true, true)

theorem run_apart {t f : Term V} (differ : ∀ i j, ¬Same (ofTerm t) (ofTerm f) i j) :
    run t f = start t f := by
  have unchanged (i j : Bool) : (start t f).tryPair (i, j) = start t f :=
    tryPair_of_not_same (differ i j)
  simp only [run, List.foldl, unchanged]

/-- The round after its first operands were taken. -/
def afterFirst (t f a : Term V) : Round V where
  te := (ofTerm t).clear false
  fe := (ofTerm f).clear false
  tReduced := (ofTerm t).one
  fReduced := (ofTerm f).one
  pushed := [a]
  modified := true

theorem run_of_first {t f a : Term V} (same : Same (ofTerm t) (ofTerm f) false false)
    (operand : (ofTerm t).zero = some a) :
    run t f = (afterFirst t f a).tryPair (true, true) := by
  have first : (start t f).tryPair (false, false) = afterFirst t f a :=
    tryPair_of_same same operand
  have second : (afterFirst t f a).tryPair (false, true) = afterFirst t f a :=
    tryPair_of_not_same (not_same_of_left rfl)
  have third : (afterFirst t f a).tryPair (true, false) = afterFirst t f a :=
    tryPair_of_not_same (not_same_of_right rfl)
  simp only [run, List.foldl, first, second, third]

theorem run_of_second {t f a : Term V} (zero : ¬Same (ofTerm t) (ofTerm f) false false)
    (crossed : ¬Same (ofTerm t) (ofTerm f) false true)
    (crossed' : ¬Same (ofTerm t) (ofTerm f) true false)
    (same : Same (ofTerm t) (ofTerm f) true true) (operand : (ofTerm t).one = some a) :
    run t f =
      { te := (ofTerm t).clear true
        fe := (ofTerm f).clear true
        tReduced := (ofTerm t).zero
        fReduced := (ofTerm f).zero
        pushed := [a]
        modified := true } := by
  have first : (start t f).tryPair (false, false) = start t f := tryPair_of_not_same zero
  have second : (start t f).tryPair (false, true) = start t f := tryPair_of_not_same crossed
  have third : (start t f).tryPair (true, false) = start t f := tryPair_of_not_same crossed'
  simp only [run, List.foldl, first, second, third]
  exact tryPair_of_same same operand

end Round

/-- A binary operator other than the addition, for which the function gives up. -/
def Term.notSum : Term V → Bool
  | .binaryOp _ _ _ => true
  | _ => false

/--
The loop over the rounds: the stack of common operands, the last one first, and
the two rests; `none` where the function gives up.
-/
def reduceTerms (t f : Option (Term V)) (stack : List (Term V)) :
    Option (List (Term V) × Option (Term V) × Option (Term V)) :=
  match t, f with
  | some t, some f =>
      if t.notSum || f.notSum then none
      else if (Round.run t f).modified then
        reduceTerms (Round.run t f).tReduced (Round.run t f).fReduced
          ((Round.run t f).pushed ++ stack)
      else some (stack, some t, some f)
  | t, f => some (stack, t, f)
termination_by restSize t
decreasing_by
  -- a round that took a pair leaves an operand of the first sum
  exact (Round.shrinks_run t f).2 ‹_›

/-- One turn of the loop, where a pair of operands was taken. -/
theorem reduceTerms_of_modified {t f : Term V} {stack : List (Term V)}
    {result : List (Term V) × Option (Term V) × Option (Term V)}
    (reduced : reduceTerms (some t) (some f) stack = some result)
    (modified : (Round.run t f).modified = true) :
    reduceTerms (Round.run t f).tReduced (Round.run t f).fReduced
      ((Round.run t f).pushed ++ stack) = some result := by
  rw [reduceTerms] at reduced
  split at reduced
  · cases reduced
  · exact reduced

/-- The sum of the stack, the last operand first; `none` of an empty one -/
def commonExpr : List (Term V) → Option (Term V)
  | [] => none
  | first :: rest => some (rest.foldl Term.add first)

/-! ## The rewrite -/

/-- `GetLoopInvariantExpression` of a rest, 0 of none -/
def movedRhs [Zero V] (getLoopInvariantExpression : Term V → Term V) : Option (Term V) → Term V
  | none => .literal .int 0
  | some e => getLoopInvariantExpression e

/--
`MoveRemainingAssignmentOutOfLoop`: the `if` that is put before the loop, with
both rests assigned to a new variable.
-/
def moveRemainingAssignmentOutOfLoop [Zero V] (isLoopInvariant : Term V → Bool)
    (getLoopInvariantExpression : Term V → Term V) (cond : Term V) (newVar : Nat)
    (tExp fExp : Option (Term V)) : Option (TermStmt V) :=
  if tExp.isNone && fExp.isNone then none
  else if tExp.all isLoopInvariant && fExp.all isLoopInvariant then
    some (.ifElse (getLoopInvariantExpression cond)
      (.assign newVar (movedRhs getLoopInvariantExpression tExp))
      (.assign newVar (movedRhs getLoopInvariantExpression fExp)))
  else none

/--
An `if` in the body of a loop, with an assignment to the same variable on each
branch.  Its condition is invariant, so it does not read the variable.
-/
structure AssignmentPair (V : Type) where
  body : Place V
  cond : Term V
  tPlace : Place V
  fPlace : Place V
  v : Nat
  tRhs : Term V
  fRhs : Term V
  cond_unread : v ∉ cond.reads

/-- What is left of an assignment after the common operands were taken. -/
def remaining (v : Nat) : Option (Term V) → TermStmt V
  | none => .null
  | some e => .assign v (.add (.varRef v) e)

namespace AssignmentPair

/-- The `if` with the two assignments. -/
def ifStmt (pair : AssignmentPair V) : TermStmt V :=
  .ifElse pair.cond (pair.tPlace.fill (.assign pair.v pair.tRhs))
    (pair.fPlace.fill (.assign pair.v pair.fRhs))

/-- The common assignment and the `if` with the rests. -/
def rewritten (pair : AssignmentPair V) (common : Term V) (tRest fRest : Option (Term V)) :
    TermStmt V :=
  .seq (.assign pair.v common)
    (.ifElse pair.cond (pair.tPlace.fill (remaining pair.v tRest))
      (pair.fPlace.fill (remaining pair.v fRest)))

/--
`ProcessAssignment`: the statement put before the loop and the one that replaces
the `if`; `none` where nothing is rewritten.
-/
def processAssignment [Zero V] (isLoopInvariant : Term V → Bool)
    (getLoopInvariantExpression : Term V → Term V) (newVar : Nat) (pair : AssignmentPair V) :
    Option (TermStmt V × TermStmt V) :=
  match reduceTerms (some pair.tRhs) (some pair.fRhs) [] with
  | none => none
  | some (stack, tReduced, fReduced) =>
      match commonExpr stack with
      | none => none
      | some common =>
          match moveRemainingAssignmentOutOfLoop isLoopInvariant getLoopInvariantExpression
              pair.cond newVar tReduced fReduced with
          | some moved => some (moved, pair.rewritten (.add common (.varRef newVar)) none none)
          | none => some (.null, pair.rewritten common tReduced fReduced)

end AssignmentPair

end Reduce

/-! ## Aligned sums -/

section Factors

variable [AddCommMonoid V]

/-- The value of a rest, 0 of none -/
def restEval (ops : Operators V) (s : TermState V) : Option (Term V) → V
  | none => 0
  | some e => e.eval ops s

@[simp]
theorem restEval_none (ops : Operators V) (s : TermState V) : restEval ops s none = 0 :=
  rfl

@[simp]
theorem restEval_some (ops : Operators V) (s : TermState V) (e : Term V) :
    restEval ops s (some e) = e.eval ops s :=
  rfl

def restParts : Option (Term V) → List (Term V)
  | none => []
  | some e => e.parts

theorem Operands.eval_ofTerm (ops : Operators V) (s : TermState V) (e : Term V) :
    e.eval ops s =
      restEval ops s ((ofTerm e).get false) + restEval ops s ((ofTerm e).get true) := by
  cases e <;> simp [ofTerm, get, restEval, Term.eval]

omit [AddCommMonoid V] in
theorem Operands.restParts_ofTerm (e : Term V) (i : Bool) :
    restParts ((ofTerm e).get i) ⊆ e.parts := by
  cases e <;> cases i <;> simp [ofTerm, get, restParts, Term.parts]

variable [DecidableEq V]

/-- No term of a rest reads a variable. -/
def Unread (v : Nat) (rest : Option (Term V)) : Prop :=
  ∀ e ∈ rest, v ∉ e.reads

/--
In every round the equal operands are the first ones or the second ones of both
sums, and what is left when no pair is equal does not read the variable.
-/
inductive Aligned (v : Nat) : Option (Term V) → Option (Term V) → Prop where
  | noTrue {f : Option (Term V)} (unread : Unread v f) : Aligned v none f
  | noFalse {t : Option (Term V)} (unread : Unread v t) : Aligned v t none
  | apart {t f : Term V}
      (differ : ∀ i j, ¬Operands.Same (.ofTerm t) (.ofTerm f) i j)
      (tUnread : v ∉ t.reads) (fUnread : v ∉ f.reads) : Aligned v (some t) (some f)
  | both {t f : Term V} (first : Operands.Same (.ofTerm t) (.ofTerm f) false false)
      (second : Operands.Same (.ofTerm t) (.ofTerm f) true true) : Aligned v (some t) (some f)
  | first {t f : Term V} (first : Operands.Same (.ofTerm t) (.ofTerm f) false false)
      (second : ¬Operands.Same (.ofTerm t) (.ofTerm f) true true)
      (rest : Aligned v (Operands.ofTerm t).one (Operands.ofTerm f).one) :
      Aligned v (some t) (some f)
  | second {t f : Term V} (first : ¬Operands.Same (.ofTerm t) (.ofTerm f) false false)
      (crossed : ¬Operands.Same (.ofTerm t) (.ofTerm f) false true)
      (crossed' : ¬Operands.Same (.ofTerm t) (.ofTerm f) true false)
      (second : Operands.Same (.ofTerm t) (.ofTerm f) true true)
      (rest : Aligned v (Operands.ofTerm t).zero (Operands.ofTerm f).zero) :
      Aligned v (some t) (some f)

/-- The sums are the common operands and the rests, which do not read the variable. -/
structure Factors (ops : Operators V) (v : Nat) (t f : Option (Term V))
    (common : List (Term V)) (tRest fRest : Option (Term V)) : Prop where
  t_eval : ∀ s, restEval ops s t = (common.map (·.eval ops s)).sum + restEval ops s tRest
  f_eval : ∀ s, restEval ops s f = (common.map (·.eval ops s)).sum + restEval ops s fRest
  atoms : ∀ e ∈ common, e.isAtom = true
  t_common : common ⊆ restParts t
  f_common : common ⊆ restParts f
  t_parts : restParts tRest ⊆ restParts t
  f_parts : restParts fRest ⊆ restParts f
  t_unread : Unread v tRest
  f_unread : Unread v fRest

namespace Factors

variable {ops : Operators V} {v : Nat}

omit [DecidableEq V] in
theorem nil {t f : Option (Term V)} (tUnread : Unread v t) (fUnread : Unread v f) :
    Factors ops v t f [] t f where
  t_eval s := by simp
  f_eval s := by simp
  atoms := by simp
  t_common := List.nil_subset _
  f_common := List.nil_subset _
  t_parts := List.Subset.refl _
  f_parts := List.Subset.refl _
  t_unread := tUnread
  f_unread := fUnread

/-- The equal operands at one position are taken, those at the other factored. -/
theorem cons {t f a : Term V} {common : List (Term V)} {tRest fRest : Option (Term V)}
    {i : Bool} (same : Operands.Same (.ofTerm t) (.ofTerm f) i i)
    (operand : (Operands.ofTerm t).get i = some a)
    (rest : Factors ops v ((Operands.ofTerm t).get !i) ((Operands.ofTerm f).get !i)
      common tRest fRest) :
    Factors ops v (some t) (some f) (common ++ [a]) tRest fRest := by
  have operand' : (Operands.ofTerm f).get i = some a := same.get_eq.symm.trans operand
  have value (e : Term V) (s : TermState V) (member : (Operands.ofTerm e).get i = some a) :
      e.eval ops s = a.eval ops s + restEval ops s ((Operands.ofTerm e).get !i) := by
    rw [Operands.eval_ofTerm]
    cases i
    · rw [member, restEval_some, Bool.not_false]
    · rw [member, restEval_some, Bool.not_true, add_comm]
  have part (e : Term V) (member : (Operands.ofTerm e).get i = some a) : a ∈ e.parts := by
    apply Operands.restParts_ofTerm e i
    rw [member]
    exact a.self_mem_parts
  refine ⟨fun s => ?_, fun s => ?_, ?_, ?_, ?_, ?_, ?_, rest.t_unread, rest.f_unread⟩
  · rw [restEval_some, value t s operand, rest.t_eval, List.map_append, List.sum_append,
      List.map_singleton, List.sum_singleton]
    ac_rfl
  · rw [restEval_some, value f s operand', rest.f_eval, List.map_append, List.sum_append,
      List.map_singleton, List.sum_singleton]
    ac_rfl
  · intro e member
    rcases List.mem_append.1 member with inRest | isOperand
    · exact rest.atoms e inRest
    · rw [List.mem_singleton.1 isOperand]
      exact same.isAtom operand
  · exact List.append_subset.2 ⟨List.Subset.trans rest.t_common (Operands.restParts_ofTerm t _),
      List.cons_subset.2 ⟨part t operand, List.nil_subset _⟩⟩
  · exact List.append_subset.2 ⟨List.Subset.trans rest.f_common (Operands.restParts_ofTerm f _),
      List.cons_subset.2 ⟨part f operand', List.nil_subset _⟩⟩
  · exact List.Subset.trans rest.t_parts (Operands.restParts_ofTerm t _)
  · exact List.Subset.trans rest.f_parts (Operands.restParts_ofTerm f _)

omit [DecidableEq V] in
/-- An atom is its own common operand. -/
theorem self {e : Term V} (atom : e.isAtom = true) :
    Factors ops v (some e) (some e) [e] none none where
  t_eval s := by simp
  f_eval s := by simp
  atoms := by simpa
  t_common := List.cons_subset.2 ⟨e.self_mem_parts, List.nil_subset _⟩
  f_common := List.cons_subset.2 ⟨e.self_mem_parts, List.nil_subset _⟩
  t_parts := List.nil_subset _
  f_parts := List.nil_subset _
  t_unread := by simp [Unread]
  f_unread := by simp [Unread]

end Factors

/-- Aligned sums lose nothing. -/
theorem factors_of_reduceTerms (ops : Operators V) {v : Nat} {t f : Option (Term V)}
    (aligned : Aligned v t f) {stack out : List (Term V)} {tRest fRest : Option (Term V)}
    (reduced : reduceTerms t f stack = some (out, tRest, fRest)) :
    ∃ common, out = common ++ stack ∧ Factors ops v t f common tRest fRest := by
  induction aligned generalizing stack with
  | noTrue unread =>
      simp only [reduceTerms, Option.some.injEq, Prod.mk.injEq] at reduced
      obtain ⟨rfl, rfl, rfl⟩ := reduced
      exact ⟨[], rfl, .nil (by simp [Unread]) unread⟩
  | noFalse unread =>
      simp only [reduceTerms, Option.some.injEq, Prod.mk.injEq] at reduced
      obtain ⟨rfl, rfl, rfl⟩ := reduced
      exact ⟨[], rfl, .nil unread (by simp [Unread])⟩
  | @apart t f differ tUnread fUnread =>
      rw [reduceTerms, Round.run_apart differ] at reduced
      split at reduced
      · cases reduced
      · simp only [Round.start, Bool.false_eq_true, if_false, Option.some.injEq,
          Prod.mk.injEq] at reduced
        obtain ⟨rfl, rfl, rfl⟩ := reduced
        exact ⟨[], rfl, .nil (by simpa [Unread]) (by simpa [Unread])⟩
  | @both t f first second =>
      obtain ⟨a, operand, -⟩ := id first
      obtain ⟨b, last, -⟩ := id second
      have run := Round.run_of_first first operand
      rw [Round.tryPair_of_same second last] at run
      have turn := reduceTerms_of_modified reduced (by rw [run])
      rw [run] at turn
      simp only [Operands.get, Operands.clear, Round.afterFirst, Bool.not_true, reduceTerms,
        Option.some.injEq, Prod.mk.injEq] at turn
      obtain ⟨rfl, rfl, rfl⟩ := turn
      refine ⟨[b] ++ [a], by simp, .cons first operand ?_⟩
      have last' : (Operands.ofTerm f).get true = some b := second.get_eq.symm.trans last
      rw [Bool.not_false, Option.mem_def.1 last, last']
      exact .self (second.isAtom last)
  | @first t f first second rest induction =>
      obtain ⟨a, operand, -⟩ := id first
      have run := Round.run_of_first first operand
      rw [Round.tryPair_of_not_same second] at run
      have turn := reduceTerms_of_modified reduced (by rw [run]; rfl)
      rw [run] at turn
      obtain ⟨common, rfl, factors⟩ := induction turn
      exact ⟨common ++ [a], (List.append_assoc common [a] stack).symm,
        .cons first operand factors⟩
  | @second t f first crossed crossed' second rest induction =>
      obtain ⟨a, operand, -⟩ := id second
      have run := Round.run_of_second first crossed crossed' second operand
      have turn := reduceTerms_of_modified reduced (by rw [run])
      rw [run] at turn
      obtain ⟨common, rfl, factors⟩ := induction turn
      exact ⟨common ++ [a], (List.append_assoc common [a] stack).symm,
        .cons second operand factors⟩

end Factors

/-! ## Runs of the rewritten loop -/

section Runs

variable [AddCommMonoid V]

theorem eval_foldl_add (ops : Operators V) (s : TermState V) (rest : List (Term V))
    (first : Term V) :
    (rest.foldl Term.add first).eval ops s =
      first.eval ops s + (rest.map (·.eval ops s)).sum := by
  induction rest generalizing first with
  | nil => simp
  | cons second rest induction =>
      rw [List.foldl_cons, induction, List.map_cons, List.sum_cons, Term.eval, add_assoc]

theorem eval_commonExpr (ops : Operators V) (s : TermState V) {stack : List (Term V)}
    {common : Term V} (built : commonExpr stack = some common) :
    common.eval ops s = (stack.map (·.eval ops s)).sum := by
  cases stack with
  | nil => cases built
  | cons first rest =>
      obtain rfl := Option.some.inj built
      rw [eval_foldl_add, List.map_cons, List.sum_cons]

/-- The rest is added to what was assigned before the `if`. -/
theorem exec_remaining (ops : Operators V) {v newVar : Nat} {rest : Option (Term V)}
    (t : TermState V) (c y : V) (other : newVar ≠ v) (unread : Unread v rest)
    (fresh : Unread newVar rest) :
    (remaining v rest).exec ops ((t.set v c).set newVar y) =
      (t.set v (c + restEval ops t rest)).set newVar y := by
  cases rest with
  | none => simp [remaining, TermStmt.exec]
  | some e =>
      have read : ((t.set v c).set newVar y).vars v = c := by
        rw [TermState.set_vars_of_ne _ _ other.symm, TermState.set_vars_self]
      have value : e.eval ops ((t.set v c).set newVar y) = e.eval ops t := by
        rw [Term.eval_set ops _ y (fresh e rfl), Term.eval_set ops t c (unread e rfl)]
      rw [remaining, TermStmt.exec, Term.eval, Term.eval, read, value,
        TermState.set_comm _ _ _ other, TermState.set_set, restEval_some]

/--
A branch with the rest, from the state with the common operands assigned, ends
as the branch with the whole assignment.
-/
theorem exec_branch (ops : Operators V) {place : Place V} {v newVar : Nat} {rhs : Term V}
    {rest : Option (Term V)} {s t : TermState V} {c : V} (y : V) (other : newVar ≠ v)
    (unread : Unread v rest) (fresh : Unread newVar rest) (avoids : place.Avoids newVar)
    (reached : place.arrive ops s = some t)
    (passes : place.arrive ops (s.set v c) = some (t.set v c))
    (value : rhs.eval ops t = c + restEval ops t rest) :
    (place.fill (remaining v rest)).exec ops ((s.set v c).set newVar y) =
      ((place.fill (.assign v rhs)).exec ops s).set newVar y := by
  have arrives : place.arrive ops ((s.set v c).set newVar y) =
      some ((t.set v c).set newVar y) := by
    rw [place.arrive_set ops avoids, passes, Option.map_some]
  rw [Place.exec_fill_of_arrive ops _ arrives, Place.exec_fill_of_arrive ops _ reached,
    exec_remaining ops t c y other unread fresh, place.resume_set ops avoids, ← value]
  rfl

namespace AssignmentPair

/-- The state in which iteration `k` of the loop comes to the statement in place of the `if`. -/
def arrival (ops : Operators V) (pair : AssignmentPair V) (stmt : TermStmt V)
    (s₀ : TermState V) (k : Nat) : Option (TermState V) :=
  pair.body.arrive ops (((pair.body.fill stmt).exec ops)^[k] s₀)

/-- The state behind that statement in iteration `k`, if the iteration comes to it. -/
def after (ops : Operators V) (pair : AssignmentPair V) (stmt : TermStmt V)
    (s₀ : TermState V) (k : Nat) : Option (TermState V) :=
  (pair.arrival ops stmt s₀ k).map (stmt.exec ops)

/--
In every iteration every variable but the new one, and every grid, has behind the
`if` the value of the original loop.
-/
def PreservesValues (ops : Operators V) (pair : AssignmentPair V) (newVar : Nat)
    (rewrite : TermStmt V × TermStmt V) (s₀ : TermState V) : Prop :=
  ∀ k, ∃ y, pair.after ops rewrite.2 (rewrite.1.exec ops s₀) k =
    (pair.after ops pair.ifStmt s₀ k).map (·.set newVar y)

/--
A branch taken at `s` comes to its assignment at `t`; what is before it neither
uses the assigned variable nor changes one that is an operand of both sums, and
what is found invariant has the value it has before the loop.
-/
structure Undisturbed (ops : Operators V) (isLoopInvariant : Term V → Bool)
    (getLoopInvariantExpression : Term V → Term V) (pair : AssignmentPair V)
    (place : Place V) (rhs : Term V) (s₀ s t : TermState V) : Prop where
  reached : place.arrive ops s = some t
  passes : ∀ c, place.arrive ops (s.set pair.v c) = some (t.set pair.v c)
  operands : ∀ w, .varRef w ∈ pair.tRhs.parts → .varRef w ∈ pair.fRhs.parts →
    t.vars w = s.vars w
  invariant : ∀ e ∈ rhs.parts, isLoopInvariant e = true →
    (getLoopInvariantExpression e).eval ops s₀ = e.eval ops t

/-- The condition has the truth it has before the loop, and its branch is undisturbed. -/
def StepMeets (ops : Operators V) (isLoopInvariant : Term V → Bool)
    (getLoopInvariantExpression : Term V → Term V) (pair : AssignmentPair V)
    (s₀ s : TermState V) : Prop :=
  ops.truth ((getLoopInvariantExpression pair.cond).eval ops s₀) =
      ops.truth (pair.cond.eval ops s) ∧
    if ops.truth (pair.cond.eval ops s) then
      ∃ t, pair.Undisturbed ops isLoopInvariant getLoopInvariantExpression
        pair.tPlace pair.tRhs s₀ s t
    else
      ∃ t, pair.Undisturbed ops isLoopInvariant getLoopInvariantExpression
        pair.fPlace pair.fRhs s₀ s t

section Step

variable {ops : Operators V} {isLoopInvariant : Term V → Bool}
  {getLoopInvariantExpression : Term V → Term V} {pair : AssignmentPair V} {newVar : Nat}

/-- The parts of the loop do not use the variable that is new to it. -/
structure Fresh (pair : AssignmentPair V) (newVar : Nat) : Prop where
  body : pair.body.Avoids newVar
  cond : newVar ∉ pair.cond.reads
  tPlace : pair.tPlace.Avoids newVar
  fPlace : pair.fPlace.Avoids newVar
  other : newVar ≠ pair.v
  tRhs : newVar ∉ pair.tRhs.reads
  fRhs : newVar ∉ pair.fRhs.reads

theorem fresh_of_avoids (avoids : (pair.body.fill pair.ifStmt).Avoids newVar) :
    pair.Fresh newVar := by
  obtain ⟨body, cond, trueBody, falseBody⟩ := Place.avoids_fill avoids
  obtain ⟨tPlace, other, tRhs⟩ := Place.avoids_fill trueBody
  obtain ⟨fPlace, -, fRhs⟩ := Place.avoids_fill falseBody
  exact ⟨body, cond, tPlace, fPlace, other.symm, tRhs, fRhs⟩

omit [AddCommMonoid V] in
theorem unread_of_parts {rest : Option (Term V)} {e : Term V} {w : Nat}
    (parts : restParts rest ⊆ e.parts) (unread : w ∉ e.reads) : Unread w rest := by
  rintro part rfl member
  exact unread (Term.reads_subset_of_mem_parts (parts part.self_mem_parts) member)

/-- The common operands are the same before the `if` and at the assignment. -/
theorem common_value {place : Place V} {rhs : Term V} {s₀ s t : TermState V}
    (undisturbed : pair.Undisturbed ops isLoopInvariant getLoopInvariantExpression
      place rhs s₀ s t)
    (fresh : pair.Fresh newVar) {common : List (Term V)}
    (atoms : ∀ e ∈ common, e.isAtom = true) (tCommon : common ⊆ pair.tRhs.parts)
    (fCommon : common ⊆ pair.fRhs.parts) (y : V) :
    (common.map (·.eval ops (s.set newVar y))).sum = (common.map (·.eval ops t)).sum := by
  congr 1
  refine List.map_congr_left fun e member => ?_
  have unread : newVar ∉ e.reads := fun read =>
    fresh.tRhs (Term.reads_subset_of_mem_parts (tCommon member) read)
  rw [Term.eval_set ops s y unread]
  refine Term.eval_congr_of_isAtom ops (atoms e member) fun w isVar => ?_
  subst isVar
  exact (undisturbed.operands w (tCommon member) (fCommon member)).symm

/-- A rest found invariant has before the loop the value it has at the assignment. -/
theorem eval_movedRhs {place : Place V} {rhs : Term V} {s₀ s t : TermState V}
    (undisturbed : pair.Undisturbed ops isLoopInvariant getLoopInvariantExpression
      place rhs s₀ s t)
    {rest : Option (Term V)} (parts : restParts rest ⊆ rhs.parts)
    (invariant : rest.all isLoopInvariant = true) :
    (movedRhs getLoopInvariantExpression rest).eval ops s₀ = restEval ops t rest := by
  cases rest with
  | none => rfl
  | some e => exact undisturbed.invariant e (parts e.self_mem_parts) invariant

/-- The common assignment and the `if` behind it, branch by branch. -/
theorem exec_rewritten (fresh : pair.Fresh newVar) {common : Term V}
    {tRest fRest : Option (Term V)} {s : TermState V} {c y : V}
    (value : common.eval ops (s.set newVar y) = c)
    (taken : ops.truth (pair.cond.eval ops s) = true →
      (pair.tPlace.fill (remaining pair.v tRest)).exec ops ((s.set pair.v c).set newVar y) =
        ((pair.tPlace.fill (.assign pair.v pair.tRhs)).exec ops s).set newVar y)
    (untaken : ¬ops.truth (pair.cond.eval ops s) = true →
      (pair.fPlace.fill (remaining pair.v fRest)).exec ops ((s.set pair.v c).set newVar y) =
        ((pair.fPlace.fill (.assign pair.v pair.fRhs)).exec ops s).set newVar y) :
    (pair.rewritten common tRest fRest).exec ops (s.set newVar y) =
      (pair.ifStmt.exec ops s).set newVar y := by
  have condition : pair.cond.eval ops ((s.set pair.v c).set newVar y) =
      pair.cond.eval ops s := by
    rw [Term.eval_set ops _ y fresh.cond, Term.eval_set ops s c pair.cond_unread]
  simp only [rewritten, ifStmt, TermStmt.exec, value, s.set_comm y c fresh.other, condition]
  by_cases truth : ops.truth (pair.cond.eval ops s) = true
  · rw [if_pos truth, if_pos truth, taken truth]
  · rw [if_neg truth, if_neg truth, untaken truth]

end Step

section Rewrite

variable [DecidableEq V] {ops : Operators V} {isLoopInvariant : Term V → Bool}
  {getLoopInvariantExpression : Term V → Term V} {pair : AssignmentPair V} {newVar : Nat}
  {common : List (Term V)} {tRest fRest : Option (Term V)}

omit [DecidableEq V] in
/-- The rests stay on the branches. -/
theorem exec_rewritten_of_stay (fresh : pair.Fresh newVar)
    (factors : Factors ops pair.v (some pair.tRhs) (some pair.fRhs) common tRest fRest)
    {sum : Term V} (built : commonExpr common = some sum) {s₀ s : TermState V}
    (meets : pair.StepMeets ops isLoopInvariant getLoopInvariantExpression s₀ s) (y : V) :
    (pair.rewritten sum tRest fRest).exec ops (s.set newVar y) =
      (pair.ifStmt.exec ops s).set newVar y := by
  obtain ⟨-, branch⟩ := meets
  have value := eval_commonExpr ops (s.set newVar y) built
  refine exec_rewritten fresh value (fun taken => ?_) fun untaken => ?_
  · rw [if_pos taken] at branch
    obtain ⟨t, undisturbed⟩ := branch
    refine exec_branch ops y fresh.other factors.t_unread
      (unread_of_parts factors.t_parts fresh.tRhs) fresh.tPlace undisturbed.reached
      (undisturbed.passes _) ?_
    rw [common_value undisturbed fresh factors.atoms factors.t_common factors.f_common]
    exact factors.t_eval t
  · rw [if_neg untaken] at branch
    obtain ⟨t, undisturbed⟩ := branch
    refine exec_branch ops y fresh.other factors.f_unread
      (unread_of_parts factors.f_parts fresh.fRhs) fresh.fPlace undisturbed.reached
      (undisturbed.passes _) ?_
    rw [common_value undisturbed fresh factors.atoms factors.t_common factors.f_common]
    exact factors.f_eval t

/-- The value the new variable gets before the loop. -/
def movedValue (ops : Operators V) (getLoopInvariantExpression : Term V → Term V)
    (pair : AssignmentPair V) (tRest fRest : Option (Term V)) (s₀ : TermState V) : V :=
  if ops.truth ((getLoopInvariantExpression pair.cond).eval ops s₀) then
    (movedRhs getLoopInvariantExpression tRest).eval ops s₀
  else (movedRhs getLoopInvariantExpression fRest).eval ops s₀

omit [DecidableEq V] in
/-- The rests are moved out of the loop. -/
theorem exec_rewritten_of_moved (fresh : pair.Fresh newVar)
    (factors : Factors ops pair.v (some pair.tRhs) (some pair.fRhs) common tRest fRest)
    {sum : Term V} (built : commonExpr common = some sum)
    (tInvariant : tRest.all isLoopInvariant = true)
    (fInvariant : fRest.all isLoopInvariant = true) {s₀ s : TermState V}
    (meets : pair.StepMeets ops isLoopInvariant getLoopInvariantExpression s₀ s) :
    (pair.rewritten (.add sum (.varRef newVar)) none none).exec ops
        (s.set newVar (movedValue ops getLoopInvariantExpression pair tRest fRest s₀)) =
      (pair.ifStmt.exec ops s).set newVar
        (movedValue ops getLoopInvariantExpression pair tRest fRest s₀) := by
  obtain ⟨truth, branch⟩ := meets
  generalize moved : movedValue ops getLoopInvariantExpression pair tRest fRest s₀ = y
  have value : (Term.add sum (.varRef newVar)).eval ops (s.set newVar y) =
      (common.map (·.eval ops (s.set newVar y))).sum + y := by
    rw [Term.eval, eval_commonExpr ops _ built, Term.eval, TermState.set_vars_self]
  refine exec_rewritten fresh value (fun taken => ?_) fun untaken => ?_
  · rw [if_pos taken] at branch
    obtain ⟨t, undisturbed⟩ := branch
    refine exec_branch ops y fresh.other (by simp [Unread]) (by simp [Unread]) fresh.tPlace
      undisturbed.reached (undisturbed.passes _) ?_
    rw [common_value undisturbed fresh factors.atoms factors.t_common factors.f_common,
      ← moved, movedValue, truth, if_pos taken,
      eval_movedRhs undisturbed factors.t_parts tInvariant, restEval_none, add_zero]
    exact factors.t_eval t
  · rw [if_neg untaken] at branch
    obtain ⟨t, undisturbed⟩ := branch
    refine exec_branch ops y fresh.other (by simp [Unread]) (by simp [Unread]) fresh.fPlace
      undisturbed.reached (undisturbed.passes _) ?_
    rw [common_value undisturbed fresh factors.atoms factors.t_common factors.f_common,
      ← moved, movedValue, truth, if_neg untaken,
      eval_movedRhs undisturbed factors.f_parts fInvariant, restEval_none, add_zero]
    exact factors.f_eval t

/-- What the rewrite does at every arrival that meets the condition. -/
theorem exec_processAssignment (fresh : pair.Fresh newVar)
    (aligned : Aligned pair.v (some pair.tRhs) (some pair.fRhs))
    {rewrite : TermStmt V × TermStmt V}
    (rewrites : pair.processAssignment isLoopInvariant getLoopInvariantExpression newVar =
      some rewrite) (s₀ : TermState V) :
    ∃ y, rewrite.1.exec ops s₀ = s₀.set newVar y ∧
      ∀ s, pair.StepMeets ops isLoopInvariant getLoopInvariantExpression s₀ s →
        rewrite.2.exec ops (s.set newVar y) = (pair.ifStmt.exec ops s).set newVar y := by
  unfold processAssignment at rewrites
  split at rewrites
  · cases rewrites
  next stack tRest fRest reduced =>
    obtain ⟨common, rfl, factors⟩ := factors_of_reduceTerms ops aligned reduced
    rw [List.append_nil] at rewrites
    split at rewrites
    · cases rewrites
    next sum built =>
      split at rewrites
      · next moved isMoved =>
        obtain rfl := Option.some.inj rewrites
        unfold moveRemainingAssignmentOutOfLoop at isMoved
        split at isMoved
        · cases isMoved
        split at isMoved
        · next invariant =>
          obtain ⟨tInvariant, fInvariant⟩ := Bool.and_eq_true_iff.1 invariant
          obtain rfl := Option.some.inj isMoved
          refine ⟨movedValue ops getLoopInvariantExpression pair tRest fRest s₀, ?_,
            fun s meets =>
              exec_rewritten_of_moved fresh factors built tInvariant fInvariant meets⟩
          simp only [TermStmt.exec, movedValue]
          split <;> rfl
        · cases isMoved
      · obtain rfl := Option.some.inj rewrites
        exact ⟨s₀.vars newVar, (s₀.set_eq_self newVar).symm,
          fun s meets => exec_rewritten_of_stay fresh factors built meets _⟩

end Rewrite

section Iterations

variable {ops : Operators V} {pair : AssignmentPair V} {newVar : Nat}

/-- One iteration, from states that differ in the new variable. -/
theorem exec_body_set (fresh : pair.Fresh newVar) {stmt stmt' : TermStmt V} {s : TermState V}
    {y : V}
    (step : ∀ t ∈ pair.body.arrive ops s,
      stmt'.exec ops (t.set newVar y) = (stmt.exec ops t).set newVar y) :
    (pair.body.fill stmt').exec ops (s.set newVar y) =
      ((pair.body.fill stmt).exec ops s).set newVar y := by
  have arrives := pair.body.arrive_set ops fresh.body s y
  cases reached : pair.body.arrive ops s with
  | none =>
      rw [reached, Option.map_none] at arrives
      rw [Place.exec_fill_of_none ops _ arrives, Place.exec_fill_of_none ops _ reached,
        TermStmt.exec_set ops fresh.body]
  | some t =>
      rw [reached, Option.map_some] at arrives
      rw [Place.exec_fill_of_arrive ops _ arrives, Place.exec_fill_of_arrive ops _ reached,
        step t reached, Place.resume_set ops fresh.body]

theorem iterate_body_set (fresh : pair.Fresh newVar) {stmt stmt' : TermStmt V}
    {s₀ : TermState V} {y : V}
    (step : ∀ k, ∀ t ∈ pair.arrival ops stmt s₀ k,
      stmt'.exec ops (t.set newVar y) = (stmt.exec ops t).set newVar y) (k : Nat) :
    ((pair.body.fill stmt').exec ops)^[k] (s₀.set newVar y) =
      (((pair.body.fill stmt).exec ops)^[k] s₀).set newVar y := by
  induction k with
  | zero => rfl
  | succ k induction =>
      rw [Function.iterate_succ_apply', Function.iterate_succ_apply', induction,
        exec_body_set fresh (step k)]

/--
In a loop whose arrivals at the `if` all meet the condition, and whose sums have
their equal operands at the same position, the rewrite preserves the values in
every iteration.
-/
theorem processAssignment_preserves [DecidableEq V] (ops : Operators V)
    (isLoopInvariant : Term V → Bool) (getLoopInvariantExpression : Term V → Term V)
    (pair : AssignmentPair V) (newVar : Nat) (rewrite : TermStmt V × TermStmt V)
    (s₀ : TermState V) (new : (pair.body.fill pair.ifStmt).Avoids newVar)
    (rewrites : pair.processAssignment isLoopInvariant getLoopInvariantExpression newVar =
      some rewrite)
    (aligned : Aligned pair.v (some pair.tRhs) (some pair.fRhs))
    (meets : ∀ k, ∀ s ∈ pair.arrival ops pair.ifStmt s₀ k,
      pair.StepMeets ops isLoopInvariant getLoopInvariantExpression s₀ s) :
    pair.PreservesValues ops newVar rewrite s₀ := by
  have fresh := fresh_of_avoids new
  obtain ⟨y, before, step⟩ := exec_processAssignment fresh aligned rewrites s₀
  intro k
  refine ⟨y, ?_⟩
  have start := iterate_body_set fresh (fun k s arrives => step s (meets k s arrives)) k
  have arrives := pair.body.arrive_set ops fresh.body
    (((pair.body.fill pair.ifStmt).exec ops)^[k] s₀) y
  simp only [after, arrival, before, start, arrives, Option.map_map]
  refine Option.map_congr fun s member => ?_
  exact step s (meets k s member)

end Iterations

end AssignmentPair

end Runs

/-! ## A loop over three grids -/

/-- The operators of exact integers. -/
def intOperators : Operators Int where
  binary _ x y := x * y
  unary _ x := -x
  truth x := x != 0

/-- A loop that reads `a`, `b` and `c` (2, 3, 4) from three grids at the index 5. -/
def threeGrids (tRhs fRhs : Term Int) : AssignmentPair Int where
  body :=
    .after (.assign 2 (.gridGet 0 (.varRef 5)))
      (.after (.assign 3 (.gridGet 1 (.varRef 5)))
        (.after (.assign 4 (.gridGet 2 (.varRef 5)))
          (.before .here (.assign 5 (.add (.varRef 5) (.literal .int 1))))))
  cond := .varRef 0
  tPlace := .here
  fPlace := .here
  v := 1
  tRhs := tRhs
  fRhs := fRhs
  cond_unread := by decide

/-- The grids are constant, and the condition is false. -/
def threeGridsState : TermState Int where
  vars _ := 0
  grids grid _ := grid + 1

/-- The variables the loop does not assign: the condition and the ones above 5. -/
def IsParameter (w : Nat) : Prop :=
  w = 0 ∨ 5 < w

theorem threeGrids_exec_vars {tRhs fRhs : Term Int} {w : Nat} (parameter : IsParameter w)
    (s : TermState Int) :
    (((threeGrids tRhs fRhs).body.fill (threeGrids tRhs fRhs).ifStmt).exec intOperators s).vars w =
      s.vars w := by
  have other : w ≠ 1 ∧ w ≠ 2 ∧ w ≠ 3 ∧ w ≠ 4 ∧ w ≠ 5 := by
    rcases parameter with rfl | above <;> omega
  have branches (t : TermState Int) :
      ((threeGrids tRhs fRhs).ifStmt.exec intOperators t).vars w = t.vars w := by
    simp only [threeGrids, AssignmentPair.ifStmt, Place.fill, TermStmt.exec]
    split <;> exact t.set_vars_of_ne _ other.1
  change (((threeGrids tRhs fRhs).ifStmt.exec intOperators _).set 5 _).vars w = s.vars w
  rw [TermState.set_vars_of_ne _ _ other.2.2.2.2, branches]
  simp [TermStmt.exec, TermState.set_vars_of_ne, other]

theorem threeGrids_arrive_vars {tRhs fRhs : Term Int} {s t : TermState Int}
    (arrives : t ∈ (threeGrids tRhs fRhs).body.arrive intOperators s) {w : Nat}
    (parameter : IsParameter w) : t.vars w = s.vars w := by
  obtain rfl := Option.some.inj arrives
  have other : w ≠ 2 ∧ w ≠ 3 ∧ w ≠ 4 := by
    rcases parameter with rfl | above <;> omega
  simp [TermStmt.exec, TermState.set_vars_of_ne, other]

/-- Parameters keep their values, and nothing is before the assignments. -/
theorem threeGrids_meets (tRhs fRhs : Term Int) {isLoopInvariant : Term Int → Bool}
    (parameters : ∀ e, isLoopInvariant e = true → ∃ w, e = .varRef w ∧ IsParameter w)
    (s₀ : TermState Int) (k : Nat) :
    ∀ s ∈ (threeGrids tRhs fRhs).arrival intOperators (threeGrids tRhs fRhs).ifStmt s₀ k,
      (threeGrids tRhs fRhs).StepMeets intOperators isLoopInvariant id s₀ s := by
  intro s arrives
  have same {w : Nat} (parameter : IsParameter w) : s.vars w = s₀.vars w := by
    rw [threeGrids_arrive_vars arrives parameter]
    clear arrives
    induction k with
    | zero => rfl
    | succ k induction =>
        rw [Function.iterate_succ_apply', threeGrids_exec_vars parameter, induction]
  have undisturbed (place : Place Int) (here : place = .here) (rhs : Term Int) :
      (threeGrids tRhs fRhs).Undisturbed intOperators isLoopInvariant id place rhs s₀ s s := by
    subst here
    refine ⟨rfl, fun _ => rfl, fun _ _ _ => rfl, fun e _ found => ?_⟩
    obtain ⟨w, rfl, parameter⟩ := parameters e found
    exact (same parameter).symm
  refine ⟨by simp [threeGrids, Term.eval, same (.inl rfl)], ?_⟩
  split
  · exact ⟨s, undisturbed _ rfl _⟩
  · exact ⟨s, undisturbed _ rfl _⟩

theorem aligned_firstOperands {x y : Nat} (differ : x ≠ y) (left : x ≠ 1) (right : y ≠ 1) :
    @Aligned Int _ 1 (some (.add (.varRef 2) (.varRef x)))
      (some (.add (.varRef 2) (.varRef y))) := by
  refine .first ⟨_, rfl, _, rfl, by simp [isEquivalent]⟩ ?_ ?_
  · rintro ⟨t, ⟨⟩, f, ⟨⟩, equivalent⟩
    simp [isEquivalent, differ] at equivalent
  · refine .apart ?_ (by simpa [Term.reads] using left.symm)
      (by simpa [Term.reads] using right.symm)
    rintro (_ | _) (_ | _) ⟨t, ⟨⟩, f, ⟨⟩, equivalent⟩
    simp [isEquivalent, differ] at equivalent

/-- `v = a + b` on the one branch and `v = a + c` on the other -/
def firstOperands : AssignmentPair Int :=
  threeGrids (.add (.varRef 2) (.varRef 3)) (.add (.varRef 2) (.varRef 4))

/-- `v = a + p` and `v = a + q`, with parameters `p` and `q` -/
def parameterRests : AssignmentPair Int :=
  threeGrids (.add (.varRef 2) (.varRef 6)) (.add (.varRef 2) (.varRef 7))

/-- The terms found invariant: the two parameters. -/
def isRestParameter : Term Int → Bool
  | .varRef v => decide (v = 6 ∨ v = 7)
  | _ => false

/-- Every parameter has its number as value, so the condition is false. -/
def numberedState : TermState Int where
  vars v := v
  grids grid _ := grid + 1

/-- The rests stay on the branches, and rests that are parameters move out of the loop. -/
theorem firstOperands_preserved :
    ((∃ rewrite, firstOperands.processAssignment (fun _ => false) id 9 = some rewrite) ∧
      ∀ rewrite, firstOperands.processAssignment (fun _ => false) id 9 = some rewrite →
        firstOperands.PreservesValues intOperators 9 rewrite threeGridsState) ∧
    (parameterRests.processAssignment isRestParameter id 9 =
        some (.ifElse (.varRef 0) (.assign 9 (.varRef 6)) (.assign 9 (.varRef 7)),
          parameterRests.rewritten (.add (.varRef 2) (.varRef 9)) none none)) ∧
      ∀ rewrite, parameterRests.processAssignment isRestParameter id 9 = some rewrite →
        parameterRests.PreservesValues intOperators 9 rewrite numberedState := by
  refine ⟨⟨⟨(.null, firstOperands.rewritten (.varRef 2) (some (.varRef 3)) (some (.varRef 4))), ?_⟩,
    fun rewrite rewrites => ?_⟩, ?_, fun rewrite rewrites => ?_⟩
  · simp [AssignmentPair.processAssignment, firstOperands, threeGrids, reduceTerms, Round.run,
      Round.start, Round.tryPair, Operands.ofTerm, Operands.get, Operands.clear, isEquivalent,
      Term.notSum, commonExpr, moveRemainingAssignmentOutOfLoop]
  · refine AssignmentPair.processAssignment_preserves intOperators _ _ firstOperands 9 rewrite
      threeGridsState ?_ rewrites ?_ (threeGrids_meets _ _ (fun _ found => by cases found) _)
    · simp [firstOperands, threeGrids, AssignmentPair.ifStmt, Place.fill, TermStmt.Avoids,
        Term.reads]
    · exact aligned_firstOperands (by decide) (by decide) (by decide)
  · simp [AssignmentPair.processAssignment, parameterRests, threeGrids, reduceTerms, Round.run,
      Round.start, Round.tryPair, Operands.ofTerm, Operands.get, Operands.clear, isEquivalent,
      Term.notSum, commonExpr, moveRemainingAssignmentOutOfLoop, isRestParameter, movedRhs]
  · have parameters (e : Term Int) (found : isRestParameter e = true) :
        ∃ w, e = .varRef w ∧ IsParameter w := by
      cases e with
      | varRef w =>
          have known : w = 6 ∨ w = 7 := of_decide_eq_true found
          exact ⟨w, rfl, .inr (by omega)⟩
      | literal | add | binaryOp | unaryOp | gridGet => cases found
    refine AssignmentPair.processAssignment_preserves intOperators _ _ parameterRests 9 rewrite
      numberedState ?_ rewrites ?_ (threeGrids_meets _ _ parameters _)
    · simp [parameterRests, threeGrids, AssignmentPair.ifStmt, Place.fill, TermStmt.Avoids,
        Term.reads]
    · exact aligned_firstOperands (by decide) (by decide) (by decide)

/-- `v = a + b` and `v = c + a` -/
def crossed : AssignmentPair Int :=
  threeGrids (.add (.varRef 2) (.varRef 3)) (.add (.varRef 4) (.varRef 2))

/-- The false branch of the rewrite adds `a` once more, and `c` is lost. -/
theorem crossed_not_preserved :
    ∃ rewrite, crossed.processAssignment (fun _ => false) id 9 = some rewrite ∧
      (crossed.body.fill crossed.ifStmt).Avoids 9 ∧
      (∀ k, ∀ s ∈ crossed.arrival intOperators crossed.ifStmt threeGridsState k,
        crossed.StepMeets intOperators (fun _ => false) id threeGridsState s) ∧
      ¬crossed.PreservesValues intOperators 9 rewrite threeGridsState := by
  refine ⟨(.null, crossed.rewritten (.varRef 2) (some (.varRef 3)) (some (.varRef 2))),
    ?_, ?_, threeGrids_meets _ _ (fun _ found => by cases found) _, fun preserved => ?_⟩
  · simp [AssignmentPair.processAssignment, crossed, threeGrids, reduceTerms, Round.run,
      Round.start, Round.tryPair, Operands.ofTerm, Operands.get, Operands.clear, isEquivalent,
      Term.notSum, commonExpr, moveRemainingAssignmentOutOfLoop]
  · simp [crossed, threeGrids, AssignmentPair.ifStmt, Place.fill, TermStmt.Avoids, Term.reads]
  · obtain ⟨y, equal⟩ := preserved 0
    have value := congrArg (Option.map fun s => s.vars 1) equal
    revert value
    simp [AssignmentPair.after, AssignmentPair.arrival, crossed, threeGrids, threeGridsState,
      AssignmentPair.ifStmt, AssignmentPair.rewritten, Place.arrive, Place.fill, remaining,
      TermStmt.exec, Term.eval, TermState.set, intOperators]

end Physis.Translator
