import Physis.Translator.ConditionalGets

/-!
# Executions with unconditional gets

A get that is moved ahead of an `if` reads what the branch reads if the branch
executes it, and always at the index it has before the `if`.  On the other
branch the new get reads at the index of the paired get, or at the center.  Where
the paired get has been replaced by a register, the register has to hold what the
get would read.
-/

namespace Physis.Translator

open Physis.Library.Runs

/-! ## Executions -/

/-- The meaning of the operators and the contents of the grids. -/
structure GuardedWorld (V : Type) where
  op : Nat → V → V → V
  /-- the conversion to `int` -/
  toInt : V → V
  isTrue : V → Bool
  index : V → Int
  times : V → Nat
  grid : Nat → List Int → V

/-- The variables of the kernel, and the index variables. -/
structure GuardedState (V : Type) where
  vars : Nat → V
  indices : Nat → List Int

/-- A get that is executed, from a grid or a register: where it reads, and what. -/
structure GuardedRead (V : Type) where
  id : Nat
  grid : Nat
  point : List Int
  value : V
deriving DecidableEq, Repr

section Executions

variable {V : Type} (w : GuardedWorld V)

def GuardedOffset.point (s : GuardedState V) : GuardedOffset → List Int
  | indices list => list.map fun index => w.index (s.vars index.v) + index.offset
  | var y => s.indices y

/-- The element of the grid that the get is for. -/
def GuardedGet.element (s : GuardedState V) (g : GuardedGet) : V :=
  w.grid g.grid (g.offset.point w s)

/-- The value of the get: that of the element, or of the register in its place. -/
def GuardedGet.value (s : GuardedState V) (g : GuardedGet) : V :=
  match g.register with
  | none => g.element w s
  | some x => s.vars x

/-- What the get reads. -/
def GuardedGet.read (s : GuardedState V) (g : GuardedGet) : GuardedRead V :=
  ⟨g.id, g.grid, g.offset.point w s, g.value w s⟩

namespace GuardedExp

def eval (s : GuardedState V) : GuardedExp V → V
  | literal value => value
  | varRef x => s.vars x
  | op n lhs rhs => w.op n (lhs.eval s) (rhs.eval s)
  | toInt operand => w.toInt (operand.eval s)
  | conditional cond trueExp falseExp =>
      if w.isTrue (cond.eval s) then trueExp.eval s else falseExp.eval s
  | get g => g.value w s

def reads (s : GuardedState V) : GuardedExp V → List (GuardedRead V)
  | literal _ | varRef _ => []
  | op _ lhs rhs => lhs.reads s ++ rhs.reads s
  | toInt operand => operand.reads s
  | conditional cond trueExp falseExp =>
      cond.reads s ++ if w.isTrue (cond.eval w s) then trueExp.reads s else falseExp.reads s
  | get g => [g.read w s]

end GuardedExp

namespace GuardedStmt

def exec : GuardedStmt V → GuardedState V → GuardedState V
  | skip, s => s
  | assign x e, s => { s with vars := Function.update s.vars x (e.eval w s) }
  | setIndex y offset, s => { s with indices := Function.update s.indices y (offset.point w s) }
  | seq first second, s => second.exec (first.exec s)
  | ifStmt cond trueBody falseBody, s =>
      if w.isTrue (cond.eval w s) then trueBody.exec s else falseBody.exec s
  | loop bound body, s => body.exec^[w.times (bound.eval w s)] s

/-- The reads of an execution. -/
def reads : GuardedStmt V → GuardedState V → List (GuardedRead V)
  | skip, _ | setIndex _ _, _ => []
  | assign _ e, s => e.reads w s
  | seq first second, s => first.reads s ++ second.reads (first.exec w s)
  | ifStmt cond trueBody falseBody, s =>
      cond.reads w s ++ if w.isTrue (cond.eval w s) then trueBody.reads s else falseBody.reads s
  | loop bound body, s =>
      bound.reads w s ++ (List.range (w.times (bound.eval w s))).flatMap fun pass =>
        body.reads ((body.exec w)^[pass] s)

end GuardedStmt

/-! ## The condition -/

/-- The statement executes the get, and always reads what the get reads at the state. -/
def Anticipated (branch : GuardedStmt V) (g : GuardedGet) (s : GuardedState V) : Prop :=
  (∃ r ∈ branch.reads w s, r.id = g.id) ∧ ∀ r ∈ branch.reads w s, r.id = g.id → r = g.read w s

/-- What processing an `if` for a get asks of the states in which the `if` is executed. -/
structure ProcessedWell (center : List Int) (g : GuardedGet) (onTrue : Bool)
    (cond : GuardedExp V) (trueBody falseBody : GuardedStmt V) (s : GuardedState V) : Prop where
  truth : w.isTrue (w.toInt (cond.eval w s)) = w.isTrue (cond.eval w s)
  own : w.isTrue (cond.eval w s) = onTrue →
    Anticipated w (if onTrue then trueBody else falseBody) g s
  paired : w.isTrue (cond.eval w s) ≠ onTrue →
    ∀ p, pairedGet g cond (if onTrue then falseBody else trueBody) = some p →
      Anticipated w (if onTrue then falseBody else trueBody) p s ∧ p.value w s = p.element w s
  unpaired : w.isTrue (cond.eval w s) ≠ onTrue →
    pairedGet g cond (if onTrue then falseBody else trueBody) = none →
      ∀ offset, g.offset.center = some offset → offset.point w s = center

/-- The condition holds whenever the `if` that is processed is executed. -/
def MeetsGetCondition (center : List Int) (id : Nat) : GuardedStmt V → GuardedState V → Prop
  | .skip, _ | .assign _ _, _ | .setIndex _ _, _ => True
  | .seq first second, s =>
      MeetsGetCondition center id first s ∧ MeetsGetCondition center id second (first.exec w s)
  | .loop bound body, s =>
      ∀ pass < w.times (bound.eval w s),
        MeetsGetCondition center id body ((body.exec w)^[pass] s)
  | .ifStmt cond trueBody falseBody, s =>
      match findGet id trueBody.plainGets, findGet id falseBody.plainGets with
      | some g, _ => ProcessedWell w center g true cond trueBody falseBody s
      | none, some g => ProcessedWell w center g false cond trueBody falseBody s
      | none, none =>
          if w.isTrue (cond.eval w s) then MeetsGetCondition center id trueBody s
          else MeetsGetCondition center id falseBody s

/-- The names occur neither among the variables nor in the statement. -/
structure Unused (scope : List Nat) (names : NewNames) (stmt : GuardedStmt V) : Prop where
  scopeCond : names.cond ∉ scope
  scopeValue : names.value ∉ scope
  cond : names.cond ∉ stmt.vars
  value : names.value ∉ stmt.vars
  index : names.index ∉ stmt.indexVars

/-- A step of the pass with names from `generateUniqueName`, for an input that meets the
condition. -/
def RewritesWell (center : List Int) (scope : List Nat) (input : GuardedState V)
    (stmt stmt' : GuardedStmt V) : Prop :=
  ∃ id names, Unused scope names stmt ∧ stmt.Movable id ∧
    rewriteGet id names stmt = some stmt' ∧ MeetsGetCondition w center id stmt input

end Executions

/-! ## Replacing a get -/

section Replacing

variable {V : Type} {w : GuardedWorld V} {names : NewNames}

/-- The states differ in the new variables at most. -/
structure AgreeButNew (names : NewNames) (s t : GuardedState V) : Prop where
  vars : ∀ x, x ≠ names.cond → x ≠ names.value → s.vars x = t.vars x
  indices : ∀ y, y ≠ names.index → s.indices y = t.indices y

/-- The names of the new variables are none of these. -/
structure Apart (names : NewNames) (vars indexVars : List Nat) : Prop where
  cond : names.cond ∉ vars
  value : names.value ∉ vars
  index : names.index ∉ indexVars

theorem Apart.left {as bs cs ds : List Nat} (apart : Apart names (as ++ bs) (cs ++ ds)) :
    Apart names as cs :=
  ⟨fun inner => apart.cond (List.mem_append_left _ inner),
    fun inner => apart.value (List.mem_append_left _ inner),
    fun inner => apart.index (List.mem_append_left _ inner)⟩

theorem Apart.right {as bs cs ds : List Nat} (apart : Apart names (as ++ bs) (cs ++ ds)) :
    Apart names bs ds :=
  ⟨fun inner => apart.cond (List.mem_append_right _ inner),
    fun inner => apart.value (List.mem_append_right _ inner),
    fun inner => apart.index (List.mem_append_right _ inner)⟩

theorem Apart.get {g : GuardedGet} (apart : Apart names g.vars g.offset.indexVars) :
    Apart names g.offset.vars g.offset.indexVars :=
  ⟨fun inner => apart.cond (List.mem_append_right _ inner),
    fun inner => apart.value (List.mem_append_right _ inner), apart.index⟩

theorem point_agree {offset : GuardedOffset} (apart : Apart names offset.vars offset.indexVars)
    {s t : GuardedState V} (agree : AgreeButNew names s t) :
    offset.point w s = offset.point w t := by
  cases offset with
  | indices list =>
      refine List.map_congr_left fun index member => ?_
      have inner : index.v ∈ list.map (·.v) := List.mem_map_of_mem member
      rw [agree.vars index.v (fun same => apart.cond (same ▸ inner))
        (fun same => apart.value (same ▸ inner))]
  | var y =>
      exact agree.indices y fun same => apart.index (same ▸ List.mem_cons_self)

theorem read_agree {g : GuardedGet} (apart : Apart names g.vars g.offset.indexVars)
    {s t : GuardedState V} (agree : AgreeButNew names s t) : g.read w t = g.read w s := by
  have point : g.offset.point w s = g.offset.point w t := point_agree apart.get agree
  have value : g.value w s = g.value w t := by
    rw [GuardedGet.value, GuardedGet.value]
    cases held : g.register with
    | none => exact congrArg (w.grid g.grid) point
    | some x =>
        have inner : x ∈ g.vars := List.mem_append_left _ (by simp [held])
        exact agree.vars x (fun same => apart.cond (same ▸ inner))
          (fun same => apart.value (same ▸ inner))
  rw [GuardedGet.read, GuardedGet.read, point, value]

/-- Gets may be replaced by a variable that holds whatever they read. -/
theorem eval_replaceGets {e : GuardedExp V} (apart : Apart names e.vars e.indexVars)
    {s t : GuardedState V} (agree : AgreeButNew names s t) (replaced : Nat → Bool)
    (held : ∀ r ∈ e.reads w s, replaced r.id = true →
      r.value = t.vars names.value) :
    (e.replaceGets replaced names.value).eval w t = e.eval w s ∧
      (e.replaceGets replaced names.value).reads w t ⊆ e.reads w s := by
  induction e with
  | literal value => exact ⟨rfl, List.Subset.refl _⟩
  | varRef x =>
      refine ⟨(agree.vars x ?_ ?_).symm, List.Subset.refl _⟩
      · rintro rfl
        exact apart.cond List.mem_cons_self
      · rintro rfl
        exact apart.value List.mem_cons_self
  | op n lhs rhs left right =>
      obtain ⟨leftHeld, rightHeld⟩ := List.forall_mem_append.mp held
      obtain ⟨leftValue, leftReads⟩ := left apart.left leftHeld
      obtain ⟨rightValue, rightReads⟩ := right apart.right rightHeld
      refine ⟨congrArg₂ (w.op n) leftValue rightValue, List.append_subset.mpr ⟨?_, ?_⟩⟩
      · exact List.subset_append_of_subset_left _ leftReads
      · exact List.subset_append_of_subset_right _ rightReads
  | toInt operand induction =>
      obtain ⟨value, reads⟩ := induction apart held
      exact ⟨congrArg w.toInt value, reads⟩
  | conditional cond trueExp falseExp condition first second =>
      obtain ⟨condHeld, branchHeld⟩ := List.forall_mem_append.mp held
      obtain ⟨value, reads⟩ := condition apart.left.left condHeld
      simp only [GuardedExp.replaceGets, GuardedExp.eval, GuardedExp.reads, value]
      split
      · rename_i taken
        rw [if_pos taken] at branchHeld
        obtain ⟨trueValue, trueReads⟩ := first apart.left.right branchHeld
        refine ⟨trueValue, List.append_subset.mpr ⟨?_, ?_⟩⟩
        · exact List.subset_append_of_subset_left _ reads
        · exact List.subset_append_of_subset_right _ trueReads
      · rename_i taken
        rw [if_neg taken] at branchHeld
        obtain ⟨falseValue, falseReads⟩ := second apart.right branchHeld
        refine ⟨falseValue, List.append_subset.mpr ⟨?_, ?_⟩⟩
        · exact List.subset_append_of_subset_left _ reads
        · exact List.subset_append_of_subset_right _ falseReads
  | get g =>
      have same : g.read w t = g.read w s := read_agree apart agree
      rw [GuardedExp.replaceGets]
      split
      · rename_i isId
        exact ⟨(held _ List.mem_cons_self isId).symm, List.nil_subset _⟩
      · simp only [GuardedExp.eval, GuardedExp.reads, same]
        exact ⟨congrArg GuardedRead.value same, List.Subset.refl _⟩

theorem GuardedExp.replaceGets_none (e : GuardedExp V) (v : Nat) :
    e.replaceGets (fun _ => false) v = e := by
  induction e <;> simp [GuardedExp.replaceGets, *]

theorem GuardedStmt.replaceGets_none (b : GuardedStmt V) (v : Nat) :
    b.replaceGets (fun _ => false) v = b := by
  induction b <;> simp only [GuardedStmt.replaceGets, GuardedExp.replaceGets_none, *]

/-- What every pass keeps holds after any number of passes. -/
theorem iterate_related {State : Type} {R : State → State → Prop} {f g : State → State}
    {s t : State} (start : R s t) {count : Nat}
    (pass : ∀ k < count, R (f^[k] s) (g^[k] t) → R (f (f^[k] s)) (g (g^[k] t)))
    {k : Nat} (below : k ≤ count) : R (f^[k] s) (g^[k] t) := by
  induction k with
  | zero => exact start
  | succ k induction =>
      rw [Function.iterate_succ_apply', Function.iterate_succ_apply']
      exact pass k below (induction (Nat.le_of_succ_le below))

/-- A statement with gets replaced does the same, and keeps the variable. -/
theorem exec_replaceGets {b : GuardedStmt V} (apart : Apart names b.vars b.indexVars)
    {s t : GuardedState V} (agree : AgreeButNew names s t) (replaced : Nat → Bool)
    (held : ∀ r ∈ b.reads w s, replaced r.id = true →
      r.value = t.vars names.value) :
    (AgreeButNew names (b.exec w s) ((b.replaceGets replaced names.value).exec w t) ∧
        ((b.replaceGets replaced names.value).exec w t).vars names.value = t.vars names.value) ∧
      (b.replaceGets replaced names.value).reads w t ⊆ b.reads w s := by
  induction b generalizing s t with
  | skip => exact ⟨⟨agree, rfl⟩, List.Subset.refl _⟩
  | assign x e =>
      have inner : Apart names e.vars e.indexVars :=
        ⟨fun occurs => apart.cond (List.mem_cons_of_mem _ occurs),
          fun occurs => apart.value (List.mem_cons_of_mem _ occurs), apart.index⟩
      obtain ⟨value, reads⟩ := eval_replaceGets inner agree _ held
      have notValue : names.value ≠ x := fun same => apart.value (same ▸ List.mem_cons_self)
      refine ⟨⟨⟨fun y notCond notNew => ?_, agree.indices⟩, Function.update_of_ne notValue _ _⟩,
        reads⟩
      simp only [GuardedStmt.exec, GuardedStmt.replaceGets, value]
      by_cases same : y = x
      · subst same
        simp
      · simp [Function.update_of_ne same, agree.vars y notCond notNew]
  | setIndex y offset =>
      have inner : Apart names offset.vars offset.indexVars :=
        ⟨apart.cond, apart.value, fun occurs => apart.index (List.mem_cons_of_mem _ occurs)⟩
      refine ⟨⟨⟨agree.vars, fun z other => ?_⟩, rfl⟩, List.Subset.refl _⟩
      simp only [GuardedStmt.exec, GuardedStmt.replaceGets, point_agree inner agree]
      by_cases same : z = y
      · subst same
        simp
      · simp [Function.update_of_ne same, agree.indices z other]
  | seq first second left right =>
      obtain ⟨firstHeld, secondHeld⟩ := List.forall_mem_append.mp held
      obtain ⟨⟨firstAgree, kept⟩, firstReads⟩ := left apart.left agree firstHeld
      obtain ⟨⟨secondAgree, keptAgain⟩, secondReads⟩ := right apart.right firstAgree
        (kept.symm ▸ secondHeld)
      refine ⟨⟨secondAgree, keptAgain.trans kept⟩, List.append_subset.mpr ⟨?_, ?_⟩⟩
      · exact List.subset_append_of_subset_left _ firstReads
      · exact List.subset_append_of_subset_right _ secondReads
  | ifStmt cond trueBody falseBody first second =>
      obtain ⟨condHeld, branchHeld⟩ := List.forall_mem_append.mp held
      obtain ⟨value, reads⟩ := eval_replaceGets apart.left.left agree _ condHeld
      simp only [GuardedStmt.replaceGets, GuardedStmt.exec, GuardedStmt.reads, value]
      split
      · rename_i taken
        rw [if_pos taken] at branchHeld
        obtain ⟨same, trueReads⟩ := first apart.left.right agree branchHeld
        refine ⟨same, List.append_subset.mpr ⟨?_, ?_⟩⟩
        · exact List.subset_append_of_subset_left _ reads
        · exact List.subset_append_of_subset_right _ trueReads
      · rename_i taken
        rw [if_neg taken] at branchHeld
        obtain ⟨same, falseReads⟩ := second apart.right agree branchHeld
        refine ⟨same, List.append_subset.mpr ⟨?_, ?_⟩⟩
        · exact List.subset_append_of_subset_left _ reads
        · exact List.subset_append_of_subset_right _ falseReads
  | loop bound body induction =>
      obtain ⟨boundHeld, bodyHeld⟩ := List.forall_mem_append.mp held
      obtain ⟨value, reads⟩ := eval_replaceGets apart.left agree _ boundHeld
      have passHeld (k : Nat) (below : k < w.times (bound.eval w s)) :
          ∀ r ∈ body.reads w ((body.exec w)^[k] s), replaced r.id = true →
            r.value = t.vars names.value := fun r member =>
        bodyHeld r (List.mem_flatMap.mpr ⟨k, List.mem_range.mpr below, member⟩)
      have passes {k : Nat} (below : k ≤ w.times (bound.eval w s)) :=
        iterate_related (R := fun x y => AgreeButNew names x y ∧
            y.vars names.value = t.vars names.value)
          (f := body.exec w) (g := (body.replaceGets replaced names.value).exec w)
          ⟨agree, rfl⟩
          (fun k below related => by
            obtain ⟨⟨next, kept⟩, -⟩ := induction apart.right related.1
              (related.2.symm ▸ passHeld k below)
            exact ⟨next, kept.trans related.2⟩) below
      simp only [GuardedStmt.replaceGets, GuardedStmt.exec, GuardedStmt.reads, value]
      refine ⟨passes le_rfl, List.append_subset.mpr ⟨?_, ?_⟩⟩
      · exact List.subset_append_of_subset_left _ reads
      · refine List.subset_append_of_subset_right _ fun r member => ?_
        obtain ⟨k, inRange, member⟩ := List.mem_flatMap.mp member
        have below := List.mem_range.mp inRange
        obtain ⟨related, kept⟩ := passes (Nat.le_of_lt below)
        have reads := (induction apart.right related (kept.symm ▸ passHeld k below)).2
        exact List.mem_flatMap.mpr ⟨k, inRange, reads member⟩

/-- Without the new variables a statement does the same. -/
theorem exec_agree {b : GuardedStmt V} (apart : Apart names b.vars b.indexVars)
    {s t : GuardedState V} (agree : AgreeButNew names s t) :
    AgreeButNew names (b.exec w s) (b.exec w t) ∧ b.reads w t ⊆ b.reads w s := by
  have same := exec_replaceGets (w := w) apart agree (fun _ => false)
    (fun r _ isReplaced => by cases isReplaced)
  rw [GuardedStmt.replaceGets_none] at same
  exact ⟨same.1.1, same.2⟩

theorem eval_agree_butNew {e : GuardedExp V} (apart : Apart names e.vars e.indexVars)
    {s t : GuardedState V} (agree : AgreeButNew names s t) :
    e.eval w t = e.eval w s ∧ e.reads w t ⊆ e.reads w s := by
  have same := eval_replaceGets (w := w) apart agree (fun _ => false)
    (fun r _ isReplaced => by cases isReplaced)
  rwa [GuardedExp.replaceGets_none] at same

end Replacing

/-! ## Processing an if -/

section Gets

variable {V : Type} {names : NewNames}

theorem GuardedExp.apart_of_mem_gets {e : GuardedExp V} (apart : Apart names e.vars e.indexVars)
    {g : GuardedGet} (member : g ∈ e.gets) : Apart names g.offset.vars g.offset.indexVars := by
  induction e with
  | literal value => cases member
  | varRef x => cases member
  | op n lhs rhs left right =>
      rcases List.mem_append.mp member with first | second
      · exact left apart.left first
      · exact right apart.right second
  | toInt operand induction => exact induction apart member
  | conditional cond trueExp falseExp condition first second =>
      rcases List.mem_append.mp member with inner | last
      · rcases List.mem_append.mp inner with inCond | inTrue
        · exact condition apart.left.left inCond
        · exact first apart.left.right inTrue
      · exact second apart.right last
  | get h =>
      obtain rfl := List.mem_singleton.mp member
      exact apart.get

theorem GuardedStmt.apart_of_mem_gets {b : GuardedStmt V}
    (apart : Apart names b.vars b.indexVars) {g : GuardedGet} (member : g ∈ b.gets) :
    Apart names g.offset.vars g.offset.indexVars := by
  induction b with
  | skip => cases member
  | setIndex y offset => cases member
  | assign x e =>
      refine GuardedExp.apart_of_mem_gets ⟨fun occurs => ?_, fun occurs => ?_, apart.index⟩ member
      · exact apart.cond (List.mem_cons_of_mem _ occurs)
      · exact apart.value (List.mem_cons_of_mem _ occurs)
  | seq first second left right =>
      rcases List.mem_append.mp member with inFirst | inSecond
      · exact left apart.left inFirst
      · exact right apart.right inSecond
  | ifStmt cond trueBody falseBody first second =>
      rcases List.mem_append.mp member with inner | last
      · rcases List.mem_append.mp inner with inCond | inTrue
        · exact GuardedExp.apart_of_mem_gets apart.left.left inCond
        · exact first apart.left.right inTrue
      · exact second apart.right last
  | loop bound body induction =>
      rcases List.mem_append.mp member with inBound | inBody
      · exact GuardedExp.apart_of_mem_gets apart.left inBound
      · exact induction apart.right inBody

theorem GuardedExp.plainGets_subset (e : GuardedExp V) : e.plainGets ⊆ e.gets := by
  induction e with
  | op n lhs rhs left right =>
      exact List.append_subset.mpr
        ⟨List.subset_append_of_subset_left _ left, List.subset_append_of_subset_right _ right⟩
  | toInt operand induction => exact induction
  | literal value => exact List.Subset.refl _
  | varRef x => exact List.Subset.refl _
  | conditional cond trueExp falseExp => exact List.nil_subset _
  | get g =>
      rw [GuardedExp.plainGets]
      split
      · exact List.Subset.refl _
      · exact List.nil_subset _

/-- A get that is moved is not a register. -/
theorem GuardedExp.register_of_mem_plainGets {e : GuardedExp V} {g : GuardedGet}
    (member : g ∈ e.plainGets) : g.register = none := by
  induction e with
  | op n lhs rhs left right => exact (List.mem_append.mp member).elim left right
  | toInt operand induction => exact induction member
  | literal value => cases member
  | varRef x => cases member
  | conditional cond trueExp falseExp => cases member
  | get h =>
      rw [GuardedExp.plainGets] at member
      split at member
      · rename_i real
        rw [List.mem_singleton.mp member]
        exact real
      · cases member

theorem GuardedStmt.register_of_mem_plainGets {b : GuardedStmt V} {g : GuardedGet}
    (member : g ∈ b.plainGets) : g.register = none := by
  induction b with
  | skip => cases member
  | setIndex y offset => cases member
  | assign x e => exact GuardedExp.register_of_mem_plainGets member
  | seq first second left right => exact (List.mem_append.mp member).elim left right
  | ifStmt cond trueBody falseBody => cases member
  | loop bound body induction =>
      exact (List.mem_append.mp member).elim GuardedExp.register_of_mem_plainGets induction

theorem GuardedStmt.plainGets_subset (b : GuardedStmt V) : b.plainGets ⊆ b.gets := by
  induction b with
  | skip => exact List.Subset.refl _
  | setIndex y offset => exact List.Subset.refl _
  | assign x e => exact e.plainGets_subset
  | seq first second left right =>
      exact List.append_subset.mpr
        ⟨List.subset_append_of_subset_left _ left, List.subset_append_of_subset_right _ right⟩
  | ifStmt cond trueBody falseBody => exact List.nil_subset _
  | loop bound body induction =>
      refine List.append_subset.mpr ⟨?_, List.subset_append_of_subset_right _ induction⟩
      exact List.subset_append_of_subset_left _ bound.plainGets_subset

/-- What is read is a get of the expression. -/
theorem GuardedExp.mem_gets_of_mem_reads {w : GuardedWorld V} {e : GuardedExp V}
    {s : GuardedState V} {r : GuardedRead V} (member : r ∈ e.reads w s) :
    ∃ g ∈ e.gets, g.id = r.id := by
  induction e with
  | literal value => cases member
  | varRef x => cases member
  | op n lhs rhs left right =>
      rcases List.mem_append.mp member with first | second
      · obtain ⟨g, inner, same⟩ := left first
        exact ⟨g, List.mem_append_left _ inner, same⟩
      · obtain ⟨g, inner, same⟩ := right second
        exact ⟨g, List.mem_append_right _ inner, same⟩
  | toInt operand induction => exact induction member
  | conditional cond trueExp falseExp condition first second =>
      rcases List.mem_append.mp member with inCond | inBranch
      · obtain ⟨g, inner, same⟩ := condition inCond
        exact ⟨g, List.mem_append_left _ (List.mem_append_left _ inner), same⟩
      · split at inBranch
        · obtain ⟨g, inner, same⟩ := first inBranch
          exact ⟨g, List.mem_append_left _ (List.mem_append_right _ inner), same⟩
        · obtain ⟨g, inner, same⟩ := second inBranch
          exact ⟨g, List.mem_append_right _ inner, same⟩
  | get g =>
      obtain rfl := List.mem_singleton.mp member
      exact ⟨g, List.mem_cons_self, rfl⟩

/-- An access to the center point is its own center. -/
theorem GuardedOffset.center_of_isSelf {offset : GuardedOffset} (self : offset.isSelf = true) :
    offset.center = some offset := by
  cases offset with
  | var y => cases self
  | indices list =>
      refine congrArg (some ∘ GuardedOffset.indices) ?_
      refine (List.map_congr_left fun index member => ?_).trans (List.map_id list)
      obtain ⟨i, below, rfl⟩ := List.getElem_of_mem member
      have zero := List.all_eq_true.mp self (list[i], i) (by
        rw [List.mem_zipIdx_iff_getElem?]
        exact List.getElem?_eq_getElem below)
      simp only [Bool.and_eq_true, decide_eq_true_eq] at zero
      rw [← zero.2, id]

theorem GuardedOffset.center_vars {offset center : GuardedOffset}
    (found : offset.center = some center) :
    center.vars = offset.vars ∧ center.indexVars = offset.indexVars := by
  cases offset with
  | var y => cases found
  | indices list =>
      obtain rfl := Option.some.inj found
      simp [GuardedOffset.vars, GuardedOffset.indexVars]

end Gets

section Processing

variable {V : Type} {w : GuardedWorld V} {names : NewNames}

theorem AgreeButNew.setNewIndex {s t : GuardedState V} (agree : AgreeButNew names s t)
    (point : List Int) :
    AgreeButNew names s { t with indices := Function.update t.indices names.index point } :=
  ⟨agree.vars, fun y other => by simp [Function.update_of_ne other, agree.indices y other]⟩

theorem AgreeButNew.setNewCond {s t : GuardedState V} (agree : AgreeButNew names s t) (v : V) :
    AgreeButNew names s { t with vars := Function.update t.vars names.cond v } :=
  ⟨fun x notCond notValue => by
    simp [Function.update_of_ne notCond, agree.vars x notCond notValue], agree.indices⟩

theorem AgreeButNew.setNewValue {s t : GuardedState V} (agree : AgreeButNew names s t) (v : V) :
    AgreeButNew names s { t with vars := Function.update t.vars names.value v } :=
  ⟨fun x notCond notValue => by
    simp [Function.update_of_ne notValue, agree.vars x notCond notValue], agree.indices⟩

/-- The index the new get reads at on the other branch. -/
def otherOffset (g : GuardedGet) (paired : Option GuardedGet) : Option GuardedOffset :=
  match paired with
  | none => g.offset.center
  | some p => some p.offset

/-- The state with this point in the new index variable. -/
def GuardedState.withIndex (t : GuardedState V) (names : NewNames) (point : List Int) :
    GuardedState V :=
  ⟨t.vars, Function.update t.indices names.index point⟩

theorem exec_chooseIndex {a b : GuardedOffset} {s t : GuardedState V}
    (agree : AgreeButNew names s t) (first : Apart names a.vars a.indexVars)
    (second : Apart names b.vars b.indexVars) :
    (GuardedStmt.seq (.setIndex names.index (.indices [])) (.ifStmt (.varRef names.cond)
        (.setIndex names.index a) (.setIndex names.index b))).exec w t =
      t.withIndex names
        (if w.isTrue (t.vars names.cond) then a.point w s else b.point w s) := by
  have cleared := agree.setNewIndex []
  have nothing : (GuardedOffset.indices []).point w t = [] := rfl
  simp only [GuardedStmt.exec, GuardedExp.eval, nothing, point_agree first cleared,
    point_agree second cleared]
  split <;> simp [GuardedState.withIndex]

/-- The statements before the get choose the index by the condition. -/
theorem exec_buildIndex {g : GuardedGet} {paired : Option GuardedGet} {onTrue : Bool}
    {index : GuardedStmt V} (built : buildIndex g paired onTrue names = some index)
    (own : Apart names g.offset.vars g.offset.indexVars)
    (others : ∀ p, paired = some p → Apart names p.offset.vars p.offset.indexVars)
    {s t : GuardedState V} (agree : AgreeButNew names s t) :
    ∃ other, otherOffset g paired = some other ∧ index.reads w t = [] ∧
      index.exec w t = t.withIndex names
        (if w.isTrue (t.vars names.cond) = onTrue then g.offset.point w s
          else other.point w s) := by
  have chosen (other : GuardedOffset) (apart : Apart names other.vars other.indexVars) :
      (GuardedStmt.seq (.setIndex names.index (.indices []))
        (if onTrue then .ifStmt (.varRef names.cond) (.setIndex names.index g.offset)
            (.setIndex names.index other)
          else .ifStmt (.varRef names.cond) (.setIndex names.index other)
            (.setIndex names.index g.offset))).exec w t =
      t.withIndex names
        (if w.isTrue (t.vars names.cond) = onTrue then g.offset.point w s
          else other.point w s) := by
    cases onTrue with
    | true => exact exec_chooseIndex agree own apart
    | false =>
        refine (exec_chooseIndex agree apart own).trans ?_
        cases w.isTrue (t.vars names.cond) <;> rfl
  have silent (other : GuardedOffset) :
      (GuardedStmt.seq (.setIndex names.index (.indices []))
        (if onTrue then .ifStmt (.varRef names.cond) (.setIndex names.index g.offset)
            (.setIndex names.index other)
          else .ifStmt (.varRef names.cond) (.setIndex names.index other)
            (.setIndex names.index g.offset))).reads w t = [] := by
    cases onTrue <;> simp [GuardedStmt.reads, GuardedExp.reads]
  cases paired with
  | some p =>
      obtain rfl := Option.some.inj built
      exact ⟨p.offset, rfl, silent _, chosen _ (others p rfl)⟩
  | none =>
      simp only [buildIndex] at built
      split at built
      · rename_i self
        obtain rfl := Option.some.inj built
        refine ⟨g.offset, GuardedOffset.center_of_isSelf self, rfl, ?_⟩
        simp [GuardedStmt.exec, GuardedState.withIndex, point_agree own agree]
      · obtain ⟨other, found, made⟩ := Option.bind_eq_some_iff.mp built
        obtain rfl := Option.some.inj made
        obtain ⟨sameVars, sameIndexVars⟩ := GuardedOffset.center_vars found
        exact ⟨other, found, silent _, chosen _ (sameVars ▸ sameIndexVars ▸ own)⟩

/-- A read of the rewritten kernel: one of these reads but for its number, or at the center. -/
def AllowedRead (center : List Int) (reads : List (GuardedRead V)) (r : GuardedRead V) : Prop :=
  r.point = center ∨ ∃ old ∈ reads, old.grid = r.grid ∧ old.point = r.point

theorem AllowedRead.mono {center : List Int} {reads reads' : List (GuardedRead V)}
    {r : GuardedRead V}
    (allowed : AllowedRead center reads r) (included : reads ⊆ reads') :
    AllowedRead center reads' r :=
  allowed.imp_right fun ⟨old, member, same⟩ => ⟨old, included member, same⟩

theorem AllowedRead.of_mem {center : List Int} {reads : List (GuardedRead V)} {r : GuardedRead V}
    (member : r ∈ reads) : AllowedRead center reads r :=
  .inr ⟨r, member, rfl, rfl⟩

theorem AllowedRead.trans {center : List Int} {reads reads' : List (GuardedRead V)}
    {r : GuardedRead V}
    (allowed : AllowedRead center reads' r) (each : ∀ r' ∈ reads', AllowedRead center reads r') :
    AllowedRead center reads r := by
  rcases allowed with atCenter | ⟨old, member, sameGrid, samePoint⟩
  · exact .inl atCenter
  · rcases each old member with atCenter | ⟨older, inner, olderGrid, olderPoint⟩
    · exact .inl (samePoint.symm.trans atCenter)
    · exact .inr ⟨older, inner, olderGrid.trans sameGrid, olderPoint.trans samePoint⟩

/-- On a branch that reads what the get reads, the variable may take the place of the get. -/
theorem anticipated_replace {branch : GuardedStmt V} {g : GuardedGet} {s t : GuardedState V}
    (apart : Apart names branch.vars branch.indexVars) (agree : AgreeButNew names s t)
    (anticipated : Anticipated w branch g s) (holds : t.vars names.value = g.value w s) :
    AgreeButNew names (branch.exec w s)
        ((branch.replaceGets (· = g.id) names.value).exec w t) ∧
      (branch.replaceGets (· = g.id) names.value).reads w t ⊆ branch.reads w s ∧
      ∃ old ∈ branch.reads w s, old.grid = g.grid ∧ old.point = g.offset.point w s := by
  obtain ⟨⟨old, member, isGet⟩, always⟩ := anticipated
  have replaced := exec_replaceGets (w := w) apart agree (· = g.id)
    fun r inner same => by
      rw [always r inner (of_decide_eq_true same), holds]
      rfl
  refine ⟨replaced.1.1, replaced.2, old, member, ?_⟩
  rw [always old member isGet]
  exact ⟨rfl, rfl⟩

theorem pairedGet_spec {g p : GuardedGet} {cond : GuardedExp V} {other : GuardedStmt V}
    (found : pairedGet g cond other = some p) :
    (p ∈ cond.gets ∨ p ∈ other.gets) ∧ p.grid = g.grid := by
  have inner := List.mem_filter.mp (List.mem_of_getLast? found)
  exact ⟨List.mem_append.mp inner.1, of_decide_eq_true inner.2⟩

/-- The branch the get is on is executed, or the other one. -/
theorem exec_either (onTrue : Bool) (cond : GuardedExp V) (own other : GuardedStmt V)
    (s : GuardedState V) :
    (if onTrue then GuardedStmt.ifStmt cond own other else .ifStmt cond other own).exec w s =
        (if w.isTrue (cond.eval w s) = onTrue then own.exec w s else other.exec w s) ∧
      (if onTrue then GuardedStmt.ifStmt cond own other else .ifStmt cond other own).reads w s =
        cond.reads w s ++
          (if w.isTrue (cond.eval w s) = onTrue then own.reads w s else other.reads w s) := by
  cases onTrue with
  | true => exact ⟨rfl, rfl⟩
  | false => cases truth : w.isTrue (cond.eval w s) <;>
      simp [GuardedStmt.exec, GuardedStmt.reads, truth]

section Branches

variable {center : List Int} {g : GuardedGet} {onTrue : Bool} {cond : GuardedExp V}
  {own other : GuardedStmt V} {s t : GuardedState V}

/-- The variable of the get may be used on either branch. -/
theorem branches_replace (apartOwn : Apart names own.vars own.indexVars)
    (apartOther : Apart names other.vars other.indexVars) (agree : AgreeButNew names s t)
    {point : GuardedOffset} (isOther : otherOffset g (pairedGet g cond other) = some point)
    (holds : t.vars names.value = w.grid g.grid
      (if w.isTrue (cond.eval w s) = onTrue then g.offset.point w s else point.point w s))
    (real : g.register = none)
    (taken : w.isTrue (cond.eval w s) = onTrue → Anticipated w own g s)
    (paired : w.isTrue (cond.eval w s) ≠ onTrue → ∀ p, pairedGet g cond other = some p →
      Anticipated w other p s ∧ p.value w s = p.element w s)
    (unpaired : w.isTrue (cond.eval w s) ≠ onTrue → pairedGet g cond other = none →
      ∀ offset, g.offset.center = some offset → offset.point w s = center) :
    AgreeButNew names
        (if w.isTrue (cond.eval w s) = onTrue then own.exec w s else other.exec w s)
        (if w.isTrue (cond.eval w s) = onTrue
          then (own.replaceGets (· = g.id) names.value).exec w t
          else (other.replaceGets (isPaired (pairedGet g cond other)) names.value).exec w t) ∧
      (if w.isTrue (cond.eval w s) = onTrue
          then (own.replaceGets (· = g.id) names.value).reads w t
          else (other.replaceGets (isPaired (pairedGet g cond other)) names.value).reads w t) ⊆
        (if w.isTrue (cond.eval w s) = onTrue then own.reads w s else other.reads w s) ∧
      AllowedRead center
        (if w.isTrue (cond.eval w s) = onTrue then own.reads w s else other.reads w s)
        ⟨names.getId, g.grid,
          if w.isTrue (cond.eval w s) = onTrue then g.offset.point w s else point.point w s,
          t.vars names.value⟩ := by
  by_cases first : w.isTrue (cond.eval w s) = onTrue
  · simp only [if_pos first] at holds ⊢
    have held : t.vars names.value = g.value w s := by
      rw [holds, GuardedGet.value, real]
      rfl
    obtain ⟨same, included, read⟩ := anticipated_replace apartOwn agree (taken first) held
    exact ⟨same, included, .inr read⟩
  · simp only [if_neg first] at holds ⊢
    cases found : pairedGet g cond other with
    | none =>
        rw [found] at isOther
        have kept : isPaired (none : Option GuardedGet) = fun _ => false := rfl
        rw [kept, GuardedStmt.replaceGets_none]
        obtain ⟨same, included⟩ := exec_agree (w := w) apartOther agree
        exact ⟨same, included, .inl (unpaired first found _ isOther)⟩
    | some p =>
        rw [found] at isOther
        obtain rfl := Option.some.inj isOther
        have sameGrid := (pairedGet_spec found).2
        have replaced : isPaired (some p) = fun id => decide (id = p.id) := by
          funext id
          simp [isPaired, eq_comm]
        rw [replaced]
        obtain ⟨anticipated, register⟩ := paired first p found
        have held : t.vars names.value = p.value w s := by
          rw [holds, register, GuardedGet.element, sameGrid]
        obtain ⟨same, included, old, member, oldGrid, oldPoint⟩ :=
          anticipated_replace apartOther agree anticipated held
        exact ⟨same, included, .inr ⟨old, member, oldGrid.trans sameGrid, oldPoint⟩⟩

/-- The condition, the index and the get, ahead of the branches. -/
theorem exec_processed {index : GuardedStmt V}
    (built : buildIndex g (pairedGet g cond other) onTrue names = some index)
    (member : g ∈ own.gets) (apartCond : Apart names cond.vars cond.indexVars)
    (apartOwn : Apart names own.vars own.indexVars)
    (apartOther : Apart names other.vars other.indexVars) (agree : AgreeButNew names s t)
    (truth : w.isTrue (w.toInt (cond.eval w s)) = w.isTrue (cond.eval w s))
    (outside : ∀ p, pairedGet g cond other = some p → ∀ h ∈ cond.gets, h.id ≠ p.id)
    (real : g.register = none)
    (taken : w.isTrue (cond.eval w s) = onTrue → Anticipated w own g s)
    (paired : w.isTrue (cond.eval w s) ≠ onTrue → ∀ p, pairedGet g cond other = some p →
      Anticipated w other p s ∧ p.value w s = p.element w s)
    (unpaired : w.isTrue (cond.eval w s) ≠ onTrue → pairedGet g cond other = none →
      ∀ offset, g.offset.center = some offset → offset.point w s = center)
    {before rest stmt' : GuardedStmt V}
    (isBefore : before = if onTrue then .ifStmt cond own other else .ifStmt cond other own)
    (isRest : rest = if onTrue
      then .ifStmt (.varRef names.cond) (own.replaceGets (· = g.id) names.value)
        (other.replaceGets (isPaired (pairedGet g cond other)) names.value)
      else .ifStmt (.varRef names.cond)
        (other.replaceGets (isPaired (pairedGet g cond other)) names.value)
        (own.replaceGets (· = g.id) names.value))
    (isStmt : stmt' = .seq (.assign names.cond (.toInt
        (cond.replaceGets (isPaired (pairedGet g cond other)) names.value))) (.seq index
      (.seq (.assign names.value (.get ⟨names.getId, g.grid, .var names.index, none⟩)) rest))) :
    AgreeButNew names (before.exec w s) (stmt'.exec w t) ∧
      ∀ r ∈ stmt'.reads w t, AllowedRead center (before.reads w s) r := by
  have apartGet := GuardedStmt.apart_of_mem_gets apartOwn member
  have apartPaired (p : GuardedGet) (found : pairedGet g cond other = some p) :
      Apart names p.offset.vars p.offset.indexVars :=
    (pairedGet_spec found).1.elim (GuardedExp.apart_of_mem_gets apartCond)
      (GuardedStmt.apart_of_mem_gets apartOther)
  -- the condition has none of the gets
  obtain ⟨condValue, condReads⟩ := eval_replaceGets (w := w) apartCond agree
    (isPaired (pairedGet g cond other)) fun r read isReplaced => by
      obtain ⟨p, found, same⟩ := (Option.any_eq_true _ _).mp isReplaced
      obtain ⟨h, inner, sameId⟩ := GuardedExp.mem_gets_of_mem_reads read
      exact absurd (sameId.trans (of_decide_eq_true same).symm) (outside p found h inner)
  have withCond := agree.setNewCond (w.toInt (cond.eval w s))
  obtain ⟨point, isOther, silent, chosen⟩ :=
    exec_buildIndex (w := w) built apartGet apartPaired withCond
  simp only [Function.update_self, truth] at chosen
  set place :=
    if w.isTrue (cond.eval w s) = onTrue then g.offset.point w s else point.point w s with isPlace
  set t1 : GuardedState V :=
    { t with vars := Function.update t.vars names.cond (w.toInt (cond.eval w s)) } with isFirst
  have withValue := (withCond.setNewIndex place).setNewValue (w.grid g.grid place)
  set t3 : GuardedState V := ⟨Function.update t1.vars names.value (w.grid g.grid place),
    Function.update t1.indices names.index place⟩ with isThird
  obtain ⟨same, included, allowed⟩ := branches_replace apartOwn apartOther withValue isOther
    (Function.update_self _ _ _) real taken paired unpaired
  have first : (GuardedStmt.assign names.cond (.toInt
      (cond.replaceGets (isPaired (pairedGet g cond other)) names.value))).exec w t = t1 := by
    simp only [GuardedStmt.exec, GuardedExp.eval, condValue, isFirst]
  have atIndex : (t1.withIndex names place).indices names.index = place :=
    Function.update_self _ _ _
  have newValue : (GuardedGet.mk names.getId g.grid (.var names.index) none).value w
      (t1.withIndex names place) = w.grid g.grid place := congrArg (w.grid g.grid) atIndex
  have third : (GuardedStmt.assign names.value
      (.get ⟨names.getId, g.grid, .var names.index, none⟩)).exec w
        (t1.withIndex names place) = t3 := by
    simp only [GuardedStmt.exec, GuardedExp.eval, newValue]
    rfl
  have condHolds : w.isTrue ((GuardedExp.varRef names.cond).eval w t3) =
      w.isTrue (cond.eval w s) := by
    have value : t3.vars names.cond = w.toInt (cond.eval w s) := by
      simp [isThird, isFirst, Function.update_of_ne names.distinct]
    simp only [GuardedExp.eval, value, truth]
  have execAll : stmt'.exec w t = rest.exec w t3 := by
    subst isStmt
    change rest.exec w (GuardedStmt.exec w _ (index.exec w (GuardedStmt.exec w _ t))) = _
    rw [first, chosen, third]
  have readsAll : stmt'.reads w t = (cond.replaceGets (isPaired (pairedGet g cond other))
      names.value).reads w t ++ (index.reads w t1 ++
        ([⟨names.getId, g.grid, place, t3.vars names.value⟩] ++ rest.reads w t3)) := by
    subst isStmt
    change _ ++ (index.reads w (GuardedStmt.exec w _ t) ++
      (GuardedStmt.reads w _ (index.exec w (GuardedStmt.exec w _ t)) ++
        rest.reads w (GuardedStmt.exec w _ (index.exec w (GuardedStmt.exec w _ t))))) = _
    rw [first, chosen, third]
    simp only [GuardedStmt.reads, GuardedExp.reads, GuardedGet.read, GuardedOffset.point, atIndex,
      newValue, isThird, Function.update_self]
  obtain ⟨execBefore, readsBefore⟩ := exec_either (w := w) onTrue cond own other s
  obtain ⟨execRest, readsRest⟩ := exec_either (w := w) onTrue (.varRef names.cond)
    (own.replaceGets (· = g.id) names.value)
    (other.replaceGets (isPaired (pairedGet g cond other)) names.value) t3
  rw [condHolds] at execRest readsRest
  rw [← isBefore] at execBefore readsBefore
  rw [← isRest] at execRest readsRest
  refine ⟨execBefore ▸ execAll ▸ execRest ▸ same, fun r read => ?_⟩
  rw [readsAll, silent, readsRest, List.nil_append] at read
  rw [readsBefore]
  rcases List.mem_append.mp read with inCond | inRest
  · exact .of_mem (List.mem_append_left _ (condReads inCond))
  · rcases List.mem_append.mp inRest with isNew | inBranch
    · obtain rfl := List.mem_singleton.mp isNew
      exact allowed.mono (List.subset_append_right _ _)
    · exact .of_mem (List.mem_append_right _ (included inBranch))

end Branches

/-- Processing an `if` keeps what it does to the other variables. -/
theorem processIfStmt_agrees {center : List Int} {g : GuardedGet} {onTrue : Bool}
    {cond : GuardedExp V} {trueBody falseBody stmt' : GuardedStmt V}
    (processed : processIfStmt g onTrue names cond trueBody falseBody = some stmt')
    (member : g ∈ (if onTrue then trueBody else falseBody).plainGets)
    (outside : ∀ p, pairedGet g cond (if onTrue then falseBody else trueBody) = some p →
      ∀ h ∈ cond.gets, h.id ≠ p.id)
    (apart : Apart names (GuardedStmt.ifStmt cond trueBody falseBody).vars
      (GuardedStmt.ifStmt cond trueBody falseBody).indexVars)
    {s t : GuardedState V} (agree : AgreeButNew names s t)
    (well : ProcessedWell w center g onTrue cond trueBody falseBody s) :
    AgreeButNew names ((GuardedStmt.ifStmt cond trueBody falseBody).exec w s) (stmt'.exec w t) ∧
      ∀ r ∈ stmt'.reads w t,
        AllowedRead center ((GuardedStmt.ifStmt cond trueBody falseBody).reads w s) r := by
  obtain ⟨index, built, made⟩ := Option.bind_eq_some_iff.mp processed
  have isStmt := (Option.some.inj made).symm
  have inner := GuardedStmt.plainGets_subset _ member
  have real := GuardedStmt.register_of_mem_plainGets member
  cases onTrue with
  | true =>
      exact exec_processed built inner apart.left.left apart.left.right apart.right agree
        well.truth outside real well.own well.paired well.unpaired rfl rfl isStmt
  | false =>
      exact exec_processed built inner apart.left.left apart.right apart.left.right agree
        well.truth outside real well.own well.paired well.unpaired rfl rfl isStmt

theorem findGet_mem {id : Nat} {list : List GuardedGet} {g : GuardedGet}
    (found : findGet id list = some g) : g ∈ list :=
  List.mem_of_find?_eq_some found

theorem unchanged_agrees {center : List Int} {b : GuardedStmt V}
    (apart : Apart names b.vars b.indexVars) {s t : GuardedState V}
    (agree : AgreeButNew names s t) :
    AgreeButNew names (b.exec w s) (b.exec w t) ∧
      ∀ r ∈ b.reads w t, AllowedRead center (b.reads w s) r := by
  obtain ⟨same, included⟩ := exec_agree (w := w) apart agree
  exact ⟨same, fun r read => .of_mem (included read)⟩

/-- A step of the pass keeps what the kernel does to the other variables. -/
theorem rewriteGet_agrees {center : List Int} {id : Nat} {stmt stmt' : GuardedStmt V}
    (rewritten : rewriteGet id names stmt = some stmt') (movable : stmt.Movable id)
    (apart : Apart names stmt.vars stmt.indexVars) {s t : GuardedState V}
    (agree : AgreeButNew names s t) (meets : MeetsGetCondition w center id stmt s) :
    AgreeButNew names (stmt.exec w s) (stmt'.exec w t) ∧
      ∀ r ∈ stmt'.reads w t, AllowedRead center (stmt.reads w s) r := by
  induction stmt generalizing stmt' s t with
  | skip =>
      obtain rfl := Option.some.inj rewritten
      exact unchanged_agrees apart agree
  | assign x e =>
      obtain rfl := Option.some.inj rewritten
      exact unchanged_agrees apart agree
  | setIndex y offset =>
      obtain rfl := Option.some.inj rewritten
      exact unchanged_agrees apart agree
  | seq first second left right =>
      obtain ⟨first', rewrittenFirst, rest⟩ := Option.bind_eq_some_iff.mp rewritten
      obtain ⟨second', rewrittenSecond, made⟩ := Option.bind_eq_some_iff.mp rest
      obtain rfl := Option.some.inj made
      obtain ⟨agreeFirst, readsFirst⟩ := left rewrittenFirst movable.1 apart.left agree meets.1
      obtain ⟨agreeSecond, readsSecond⟩ :=
        right rewrittenSecond movable.2 apart.right agreeFirst meets.2
      refine ⟨agreeSecond, fun r read => ?_⟩
      rcases List.mem_append.mp read with inFirst | inSecond
      · exact (readsFirst r inFirst).mono (List.subset_append_left _ _)
      · exact (readsSecond r inSecond).mono (List.subset_append_right _ _)
  | loop bound body induction =>
      obtain ⟨body', rewrittenBody, made⟩ := Option.bind_eq_some_iff.mp rewritten
      obtain rfl := Option.some.inj made
      obtain ⟨value, readsBound⟩ := eval_agree_butNew (w := w) apart.left agree
      have passes {k : Nat} (below : k ≤ w.times (bound.eval w s)) :
          AgreeButNew names ((body.exec w)^[k] s) ((body'.exec w)^[k] t) :=
        iterate_related agree
          (fun k below related =>
            (induction rewrittenBody movable apart.right related (meets k below)).1) below
      simp only [GuardedStmt.exec, GuardedStmt.reads, value]
      refine ⟨passes le_rfl, fun r read => ?_⟩
      rcases List.mem_append.mp read with inBound | inBody
      · exact .of_mem (List.mem_append_left _ (readsBound inBound))
      · obtain ⟨k, inRange, inPass⟩ := List.mem_flatMap.mp inBody
        have below := List.mem_range.mp inRange
        have allowed := (induction rewrittenBody movable apart.right (passes (Nat.le_of_lt below))
          (meets k below)).2 r inPass
        refine allowed.mono (List.subset_append_of_subset_right _ fun old member => ?_)
        exact List.mem_flatMap.mpr ⟨k, inRange, member⟩
  | ifStmt cond trueBody falseBody first second =>
      simp only [rewriteGet] at rewritten
      simp only [MeetsGetCondition] at meets
      simp only [GuardedStmt.Movable] at movable
      cases inCond : findGet id cond.plainGets with
      | some h => simp [inCond] at movable
      | none =>
          cases inTrue : findGet id trueBody.plainGets with
          | some g =>
              simp only [inCond, inTrue] at rewritten meets movable
              exact processIfStmt_agrees rewritten (findGet_mem inTrue) movable apart agree meets
          | none =>
              cases inFalse : findGet id falseBody.plainGets with
              | some g =>
                  simp only [inCond, inTrue, inFalse] at rewritten meets movable
                  exact processIfStmt_agrees rewritten (findGet_mem inFalse) movable apart agree
                    meets
              | none =>
                  simp only [inCond, inTrue, inFalse] at rewritten meets movable
                  obtain ⟨trueBody', rewrittenTrue, rest⟩ := Option.bind_eq_some_iff.mp rewritten
                  obtain ⟨falseBody', rewrittenFalse, made⟩ := Option.bind_eq_some_iff.mp rest
                  obtain rfl := Option.some.inj made
                  obtain ⟨value, readsCond⟩ := eval_agree_butNew (w := w) apart.left.left agree
                  simp only [GuardedStmt.exec, GuardedStmt.reads, value]
                  have inCondition {r : GuardedRead V} {rest : List (GuardedRead V)}
                      (read : r ∈ cond.reads w t) :
                      AllowedRead center (cond.reads w s ++ rest) r :=
                    .of_mem (List.mem_append_left _ (readsCond read))
                  split
                  · rename_i taken
                    rw [if_pos taken] at meets
                    obtain ⟨same, allowed⟩ :=
                      first rewrittenTrue movable.1 apart.left.right agree meets
                    refine ⟨same, fun r read => ?_⟩
                    rcases List.mem_append.mp read with isCond | isBranch
                    · exact inCondition isCond
                    · exact (allowed r isBranch).mono (List.subset_append_right _ _)
                  · rename_i taken
                    rw [if_neg taken] at meets
                    obtain ⟨same, allowed⟩ :=
                      second rewrittenFalse movable.2 apart.right agree meets
                    refine ⟨same, fun r read => ?_⟩
                    rcases List.mem_append.mp read with isCond | isBranch
                    · exact inCondition isCond
                    · exact (allowed r isBranch).mono (List.subset_append_right _ _)

/--
Any number of steps of the pass, each for an input that meets the condition of
its `if`: the kernel computes the same, and reads where it read before or at the
center.
-/
theorem unconditional_get_preserves {center : List Int} {scope : List Nat}
    {input : GuardedState V} {stmt stmt' : GuardedStmt V}
    (rewritten : Reaches (RewritesWell w center scope input) stmt stmt') :
    (∀ x ∈ scope, (stmt'.exec w input).vars x = (stmt.exec w input).vars x) ∧
      ∀ r ∈ stmt'.reads w input, AllowedRead center (stmt.reads w input) r := by
  induction rewritten with
  | refl => exact ⟨fun _ _ => rfl, fun _ => .of_mem⟩
  | tail _ step induction =>
      obtain ⟨same, allowed⟩ := induction
      obtain ⟨id, names, unused, movable, rewritten, meets⟩ := step
      obtain ⟨agree, reads⟩ := rewriteGet_agrees rewritten movable
        ⟨unused.cond, unused.value, unused.index⟩ (t := input)
        ⟨fun _ _ _ => rfl, fun _ _ => rfl⟩ meets
      refine ⟨fun x inScope => ?_, fun r read => (reads r read).trans allowed⟩
      have notCond : x ≠ names.cond := fun isCond => unused.scopeCond (isCond ▸ inScope)
      have notValue : x ≠ names.value := fun isValue => unused.scopeValue (isValue ▸ inScope)
      exact (agree.vars x notCond notValue).symm.trans (same x inScope)

end Processing

/-! ## A boundary condition -/

/-- Values are integers, and a grid has its index for its contents. -/
def guardedIntegers : GuardedWorld Int where
  op _ a b := a + b
  toInt a := a
  isTrue a := a != 0
  index a := a
  times a := a.toNat
  grid _ point := point.foldr Int.add 0

/-- A get of grid 0 at this distance from the point in variable 2. -/
def getBeside (id : Nat) (offset : Int) (register : Option Nat) : GuardedGet :=
  ⟨id, 0, .indices [⟨2, 1, offset⟩], register⟩

/-- `if (c) x = get(g, i + 1); else x = r;`, where `r` holds the element before the point -/
def upOrDown : GuardedStmt Int :=
  .ifStmt (.varRef 0) (.assign 1 (.get (getBeside 0 1 none)))
    (.assign 1 (.get (getBeside 1 (-1) (some 5))))

/-- The names of the variables that the pass adds to `upOrDown`. -/
def upOrDownNames : NewNames := ⟨3, 4, 0, 2, by decide⟩

/--
`int t = c; k = 0; if (t) k = i + 1; else k = i - 1; v = get(g, k);`
`if (t) x = v; else x = v;`
-/
def upOrDownMoved : GuardedStmt Int :=
  .seq (.assign 3 (.toInt (.varRef 0)))
    (.seq (.seq (.setIndex 0 (.indices []))
        (.ifStmt (.varRef 3) (.setIndex 0 (getBeside 0 1 none).offset)
          (.setIndex 0 (getBeside 1 (-1) (some 5)).offset)))
      (.seq (.assign 4 (.get ⟨2, 0, .var 0, none⟩))
        (.ifStmt (.varRef 3) (.assign 1 (.varRef 4)) (.assign 1 (.varRef 4)))))

/-- The point is 7, and the register holds the element before it. -/
def aboveBoundary : GuardedState Int :=
  ⟨fun x => if x = 2 then 7 else if x = 5 then 6 else 0, fun _ => []⟩

/-- On the false branch, the register is paired with the get that is moved. -/
theorem unconditional_get_upOrDown :
    (upOrDownMoved.exec guardedIntegers aboveBoundary).vars 1 = 6 ∧
      ∀ r ∈ upOrDownMoved.reads guardedIntegers aboveBoundary,
        AllowedRead [7] [⟨1, 0, [6], 6⟩] r := by
  have step : RewritesWell guardedIntegers [7] [0, 1, 2] aboveBoundary upOrDown
      upOrDownMoved := by
    refine ⟨0, upOrDownNames, ⟨by decide, by decide, by decide, by decide, by decide⟩,
      fun p found h member => (List.not_mem_nil member).elim, rfl, rfl, ?_, ?_, ?_⟩
    · intro taken
      exact absurd taken (by decide)
    · rintro - p ⟨⟩
      exact ⟨⟨⟨_, List.mem_cons_self, rfl⟩, fun r read _ => List.mem_singleton.mp read⟩, rfl⟩
    · intro taken none
      cases none
  obtain ⟨same, reads⟩ := unconditional_get_preserves (.single step)
  exact ⟨same 1 (by decide), reads⟩

end Physis.Translator
