import Mathlib.Data.Finset.Prod
import Physis.Library.GrowingLoops
import Physis.Library.Runs

/-!
# Grid variable analysis

`analyzeGridVars` associates every grid variable with the calls that may have
created its grid.  It repeats a pass over the declarations, the assignments, the
stencil maps and the calls of the program until no association is new.  Every
call on a right-hand side counts as the creation of a grid, also one of a
function of the program that returns a grid created elsewhere.
-/

namespace Physis.Translator

open Physis.Library.GrowingLoops
open Physis.Library.Runs

/-! ## Programs -/

/-- An expression of a grid type: a variable, a call, or of any other form. -/
inductive GridExpr (Var Call : Type) where
  | varRef (v : Var)
  | functionCall (c : Call)
  | other

/-- A declaration, with its own initializer as the definition. -/
structure GridDeclaration (Var Call : Type) where
  name : Var
  isFuncParam : Bool
  initializer : Option (GridExpr Var Call)

structure GridAssignOp (Var Call : Type) where
  lhs : Var
  rhs : GridExpr Var Call

/-- An argument: a variable, another expression of a grid type, or no grid. -/
inductive GridArg (Var : Type) where
  | varRef (v : Var)
  | gridExpr
  | other

/-- The arguments of a call and the parameters of the callee, if it is defined. -/
structure GridPassing (Var : Type) where
  args : List (GridArg Var)
  params : Option (List Var)

/-- The parts of a program that the analysis looks at, and the functions' results. -/
structure GridProgram (Var Call : Type) where
  vars : List (GridDeclaration Var Call)
  asns : List (GridAssignOp Var Call)
  maps : List (GridPassing Var)
  /-- the calls that are no maps and no reductions -/
  calls : List (GridPassing Var)
  /-- `findGridType` finds the type of the variable -/
  findGridType : Var → Bool
  /-- `GridType::isGridType` of the type of the variable -/
  isGridType : Var → Bool
  /-- the assertions of the constructor of `Grid` hold -/
  constructsGrid : Call → Bool
  isNewCall : Call → Bool
  /-- what the function called may return -/
  returns : Call → List (GridExpr Var Call)

/-! ## The analysis -/

section Analysis

variable {Var Call : Type} [DecidableEq Var] [DecidableEq Call]

/-- Variables and grid objects, which are known by their calls; `none` is `NULL`. -/
abbrev GridVarMap (Var Call : Type) :=
  Finset (Var × Option Call)

/-- The map while it is built, with the flag `changed`. -/
abbrev GridVarState (Var Call : Type) :=
  Growing (Var × Option Call)

/-- `findGrid`; no grid object stands for `NULL` too. -/
def findGrid (gridVarMap : GridVarMap Var Call) (var : Var) : Finset (Option Call) :=
  (gridVarMap.filter fun entry => entry.1 = var).image Prod.snd

/-- `associateVarWithGrid` for every grid object of a set -/
def associateVarWithGrid
    (var : Var) (grids : Finset (Option Call)) (s : GridVarState Var Call) :
    GridVarState Var Call :=
  s.add (grids.image fun g => (var, g))

/-- `handleGridAlias` -/
def handleGridAlias (dst src : Var) (s : GridVarState Var Call) : GridVarState Var Call :=
  associateVarWithGrid dst (findGrid s.elements src) s

namespace GridProgram

variable (prog : GridProgram Var Call)

/-- `handleGridNew` -/
def handleGridNew
    (var : Var) (callExp : Call) (s : GridVarState Var Call) :
    Option (GridVarState Var Call) :=
  if prog.constructsGrid callExp then some (associateVarWithGrid var {some callExp} s)
  else none

/-- `handleGridAssignment` -/
def handleGridAssignment
    (lhs : Var) (rhs : GridExpr Var Call) (s : GridVarState Var Call) :
    Option (GridVarState Var Call) :=
  match rhs with
  | .varRef src => some (handleGridAlias lhs src s)
  | .functionCall callExp => prog.handleGridNew lhs callExp s
  | .other => none

/-- `handleGridDeclaration`, for variables of a type that is found -/
def handleGridDeclaration
    (s : GridVarState Var Call) (decl : GridDeclaration Var Call) :
    Option (GridVarState Var Call) :=
  if prog.findGridType decl.name then
    match decl.initializer with
    | none =>
        if decl.isFuncParam then some s
        else some (associateVarWithGrid decl.name {none} s)
    | some rhs => prog.handleGridAssignment decl.name rhs s
  else some s

/-- The body of the loop over the assignments -/
def handleAssignOp (s : GridVarState Var Call) (asn : GridAssignOp Var Call) :
    Option (GridVarState Var Call) :=
  if prog.findGridType asn.lhs then prog.handleGridAssignment asn.lhs asn.rhs s
  else some s

/-- The argument has a grid type. -/
def isGridArg : GridArg Var → Bool
  | .varRef v => prog.isGridType v
  | .gridExpr => true
  | .other => false

/-- The body of the loop of `propagateGridVarMapAcrossCall` -/
def propagateArg (s : GridVarState Var Call) (passed : GridArg Var × Var) :
    Option (GridVarState Var Call) :=
  if prog.isGridArg passed.1 then
    match passed.1 with
    | .varRef src => some (handleGridAlias passed.2 src s)
    | _ => none
  else some s

/-- `propagateGridVarMapAcrossCall` -/
def propagateGridVarMapAcrossCall
    (args : List (GridArg Var)) (params : List Var) (s : GridVarState Var Call) :
    Option (GridVarState Var Call) :=
  if args.length = params.length then (args.zip params).foldlM prog.propagateArg s
  else none

/-- `propagateGridVarMapAcrossStencilCall` -/
def propagateGridVarMapAcrossStencilCall
    (s : GridVarState Var Call) (m : GridPassing Var) : Option (GridVarState Var Call) :=
  match m.params with
  | some params => prog.propagateGridVarMapAcrossCall m.args params s
  | none => none

/-- `propagateGridVarMapAcrossOrdinaryCall` -/
def propagateGridVarMapAcrossOrdinaryCall
    (s : GridVarState Var Call) (c : GridPassing Var) : Option (GridVarState Var Call) :=
  if c.args.any prog.isGridArg then
    match c.params with
    | some params => prog.propagateGridVarMapAcrossCall c.args params s
    | none => none
  else some s

/-- The body of the loop of `analyzeGridVars` -/
def pass (s : GridVarState Var Call) : Option (GridVarState Var Call) := do
  let s ← prog.vars.foldlM prog.handleGridDeclaration s
  let s ← prog.asns.foldlM prog.handleAssignOp s
  let s ← prog.maps.foldlM prog.propagateGridVarMapAcrossStencilCall s
  prog.calls.foldlM prog.propagateGridVarMapAcrossOrdinaryCall s

/-- `analyzeGridVars`, with a bound on the number of passes -/
def analyzeGridVars (fuel : Nat) : LoopEnd (Var × Option Call) :=
  whileChanged prog.pass fuel ∅

end GridProgram

end Analysis

/-! ## Executions -/

section Executions

variable {Var Call : Type}

/--
The call that has created the grid of a variable in an activation, and of the
result of an activation.
-/
structure GridMemory (Var Call : Type) where
  holds : Nat → Var → Option Call
  returned : Nat → Option Call

/-- Before the execution there is no grid. -/
def GridMemory.initial : GridMemory Var Call where
  holds _ _ := none
  returned _ := none

variable [DecidableEq Var]

def GridMemory.store
    (memory : GridMemory Var Call) (activation : Nat) (var : Var) (value : Option Call) :
    GridMemory Var Call :=
  { memory with
    holds := Function.update memory.holds activation
      (Function.update (memory.holds activation) var value) }

namespace GridProgram

/-- What a statement may do. -/
inductive Event (Var Call : Type) where
  | declare (decl : GridDeclaration Var Call) (rhs : GridExpr Var Call)
  | assign (asn : GridAssignOp Var Call)
  | passArgument (src param : Var)
  | returnFrom (c : Call) (rhs : GridExpr Var Call)

variable (prog : GridProgram Var Call)

/--
A value of an expression.  Which activation a variable belongs to is left open:
it is the current one, or the only one of a variable of the file.
-/
inductive Evaluates (memory : GridMemory Var Call) :
    GridExpr Var Call → Option Call → Prop
  | varRef (activation : Nat) (v : Var) :
      Evaluates memory (.varRef v) (memory.holds activation v)
  | newCall (c : Call) (isNew : prog.isNewCall c = true) :
      Evaluates memory (.functionCall c) (some c)
  | userCall (activation : Nat) (c : Call) (isUser : prog.isNewCall c = false) :
      Evaluates memory (.functionCall c) (memory.returned activation)
  | other (value : Option Call) : Evaluates memory .other value

/-- A step of the program, in some activations. -/
inductive Step : Event Var Call → GridMemory Var Call → GridMemory Var Call → Prop
  | declare {memory} {decl} {rhs} {value} (activation : Nat)
      (member : decl ∈ prog.vars) (init : decl.initializer = some rhs)
      (evaluates : prog.Evaluates memory rhs value) :
      Step (.declare decl rhs) memory (memory.store activation decl.name value)
  | assign {memory} {asn} {value} (activation : Nat)
      (member : asn ∈ prog.asns) (evaluates : prog.Evaluates memory asn.rhs value) :
      Step (.assign asn) memory (memory.store activation asn.lhs value)
  | passArgument {memory} {passing} {params} {src} {param} (caller callee : Nat)
      (member : passing ∈ prog.maps ∨ passing ∈ prog.calls)
      (defined : passing.params = some params)
      (passed : (GridArg.varRef src, param) ∈ passing.args.zip params) :
      Step (.passArgument src param) memory
        (memory.store callee param (memory.holds caller src))
  | returnFrom {memory} {c} {rhs} {value} (activation : Nat)
      (member : rhs ∈ prog.returns c) (evaluates : prog.Evaluates memory rhs value) :
      Step (.returnFrom c rhs) memory
        { memory with returned := Function.update memory.returned activation value }

/-- A call whose result is stored creates a grid. -/
def CreatesGrid (rhs : GridExpr Var Call) : Prop :=
  ∀ c, rhs = .functionCall c → prog.isNewCall c = true

/-- The step stores no result of a function, and its variables have grid types. -/
def Plain : Event Var Call → Prop
  | .declare decl rhs => prog.findGridType decl.name = true ∧ prog.CreatesGrid rhs
  | .assign asn => prog.findGridType asn.lhs = true ∧ prog.CreatesGrid asn.rhs
  | .passArgument src _ => prog.isGridType src = true
  | .returnFrom _ _ => True

/-- A step that is plain. -/
def PlainStep (before after : GridMemory Var Call) : Prop :=
  ∃ event, prog.Plain event ∧ prog.Step event before after

end GridProgram

end Executions

/-! ## The steps of the analysis -/

section Steps

variable {Var Call : Type} [DecidableEq Var] [DecidableEq Call]
  {prog : GridProgram Var Call} {gridVarMap : GridVarMap Var Call}

theorem mem_findGrid {var : Var} {g : Option Call} :
    g ∈ findGrid gridVarMap var ↔ (var, g) ∈ gridVarMap := by
  simp [findGrid]

theorem handleGridAlias_grows (dst src : Var) :
    Grows fun s : GridVarState Var Call => some (handleGridAlias dst src s) :=
  Growing.add_grows fun elements => (findGrid elements src).image fun g => (dst, g)

/-- An alias that adds nothing has all grids of its source. -/
theorem subset_of_alias_settles {dst src : Var}
    (settles : Settles (fun s => some (handleGridAlias dst src s)) gridVarMap) :
    findGrid gridVarMap src ⊆ findGrid gridVarMap dst := by
  intro g member
  have added := @Settles.subset _ _
    (fun elements : GridVarMap Var Call => (findGrid elements src).image fun g => (dst, g))
    gridVarMap settles
  exact mem_findGrid.mpr (added (Finset.mem_image_of_mem _ member))

namespace GridProgram

theorem handleGridAssignment_grows (lhs : Var) (rhs : GridExpr Var Call) :
    Grows (prog.handleGridAssignment lhs rhs) := by
  cases rhs with
  | varRef src => exact handleGridAlias_grows lhs src
  | functionCall callExp =>
      exact Grows.ite
        (fun _ => Growing.add_grows fun _ => Finset.image (fun g => (lhs, g)) {some callExp})
        (fun _ => grows_none)
  | other => exact grows_none

theorem handleGridDeclaration_grows (decl : GridDeclaration Var Call) :
    Grows fun s => prog.handleGridDeclaration s decl := by
  refine Grows.ite (fun _ => ?_) (fun _ => grows_some)
  rcases decl.initializer with _ | rhs
  · exact Grows.ite (fun _ => grows_some)
      (fun _ => Growing.add_grows fun _ => Finset.image (fun g => (decl.name, g)) {none})
  · exact handleGridAssignment_grows decl.name rhs

theorem handleAssignOp_grows (asn : GridAssignOp Var Call) :
    Grows fun s => prog.handleAssignOp s asn :=
  Grows.ite (fun _ => handleGridAssignment_grows asn.lhs asn.rhs) (fun _ => grows_some)

theorem propagateArg_grows (passed : GridArg Var × Var) :
    Grows fun s => prog.propagateArg s passed := by
  refine Grows.ite (fun _ => ?_) (fun _ => grows_some)
  rcases passed with ⟨src | _ | _, param⟩
  · exact handleGridAlias_grows param src
  · exact grows_none
  · exact grows_none

theorem propagateGridVarMapAcrossCall_grows (args : List (GridArg Var)) (params : List Var) :
    Grows (@propagateGridVarMapAcrossCall Var Call _ _ prog args params) :=
  Grows.ite (fun _ => Grows.foldlM fun passed _ => propagateArg_grows passed)
    (fun _ => grows_none)

theorem propagateGridVarMapAcrossStencilCall_grows (m : GridPassing Var) :
    Grows fun s => prog.propagateGridVarMapAcrossStencilCall s m := by
  unfold propagateGridVarMapAcrossStencilCall
  rcases m.params with _ | params
  · exact grows_none
  · exact propagateGridVarMapAcrossCall_grows m.args params

theorem propagateGridVarMapAcrossOrdinaryCall_grows (c : GridPassing Var) :
    Grows fun s => prog.propagateGridVarMapAcrossOrdinaryCall s c := by
  refine Grows.ite (fun _ => ?_) (fun _ => grows_some)
  rcases c.params with _ | params
  · exact grows_none
  · exact propagateGridVarMapAcrossCall_grows c.args params

theorem pass_grows : Grows prog.pass :=
  (Grows.foldlM fun decl _ => handleGridDeclaration_grows decl).bind <|
    (Grows.foldlM fun asn _ => handleAssignOp_grows asn).bind <|
      (Grows.foldlM fun m _ => propagateGridVarMapAcrossStencilCall_grows m).bind <|
        Grows.foldlM fun c _ => propagateGridVarMapAcrossOrdinaryCall_grows c

/-! ## Termination -/

/-- The variables that the analysis may associate with a grid. -/
def gridVars (prog : GridProgram Var Call) : Finset Var :=
  (prog.vars.map GridDeclaration.name ++ prog.asns.map GridAssignOp.lhs ++
    (prog.maps ++ prog.calls).flatMap fun passing => passing.params.getD []).toFinset

/-- The call of an expression. -/
def callOf : GridExpr Var Call → Option Call
  | .functionCall c => some c
  | _ => none

/-- The grid objects that the analysis may create, and `NULL`. -/
def grids (prog : GridProgram Var Call) : Finset (Option Call) :=
  insert none (((prog.vars.filterMap GridDeclaration.initializer ++
    prog.asns.map GridAssignOp.rhs).filterMap callOf).map some).toFinset

/-- The associations that the analysis may make. -/
def bound (prog : GridProgram Var Call) : GridVarMap Var Call :=
  prog.gridVars ×ˢ prog.grids

theorem handleGridAlias_staysIn {dst : Var} (src : Var) (known : dst ∈ prog.gridVars) :
    StaysIn prog.bound fun s => some (handleGridAlias dst src s) := by
  refine @Growing.add_staysIn _ _ _
    (fun elements => (findGrid elements src).image fun g => (dst, g)) fun elements inside => ?_
  intro entry member
  obtain ⟨g, among, rfl⟩ := Finset.mem_image.mp member
  have source := inside (mem_findGrid.mp among)
  exact Finset.mem_product.mpr ⟨known, (Finset.mem_product.mp source).2⟩

theorem associate_staysIn {var : Var} {g : Option Call}
    (known : var ∈ prog.gridVars) (listed : g ∈ prog.grids) :
    StaysIn prog.bound fun s => some (associateVarWithGrid var {g} s) := by
  refine @Growing.add_staysIn _ _ _ (fun _ => Finset.image (fun g => (var, g)) {g})
    fun elements _ => ?_
  rw [Finset.image_singleton, Finset.singleton_subset_iff]
  exact Finset.mem_product.mpr ⟨known, listed⟩

theorem handleGridAssignment_staysIn {lhs : Var} {rhs : GridExpr Var Call}
    (known : lhs ∈ prog.gridVars)
    (listed : ∀ c, callOf rhs = some c → some c ∈ prog.grids) :
    StaysIn prog.bound (prog.handleGridAssignment lhs rhs) := by
  cases rhs with
  | varRef src => exact handleGridAlias_staysIn src known
  | functionCall callExp =>
      exact StaysIn.ite (fun _ => associate_staysIn known (listed callExp rfl))
        (fun _ => staysIn_none)
  | other => exact staysIn_none

theorem propagate_staysIn {passing : GridPassing Var} {params : List Var}
    (member : passing ∈ prog.maps ++ prog.calls) (defined : passing.params = some params) :
    StaysIn prog.bound (prog.propagateGridVarMapAcrossCall passing.args params) := by
  refine StaysIn.ite (fun _ => StaysIn.foldlM ?_) (fun _ => staysIn_none)
  rintro ⟨arg, param⟩ zipped
  refine StaysIn.ite (fun _ => ?_) (fun _ => staysIn_some)
  have known : param ∈ prog.gridVars := by
    simp only [gridVars, List.mem_toFinset, List.mem_append, List.mem_flatMap] at member ⊢
    exact .inr ⟨passing, member, by rw [defined]; exact (List.of_mem_zip zipped).2⟩
  rcases arg with src | _ | _
  · exact handleGridAlias_staysIn src known
  · exact staysIn_none
  · exact staysIn_none

theorem pass_staysIn : StaysIn prog.bound prog.pass := by
  refine (StaysIn.foldlM fun decl member => ?_).bind <|
    (StaysIn.foldlM fun asn member => ?_).bind <|
      (StaysIn.foldlM fun m member => ?_).bind <| StaysIn.foldlM fun c member => ?_
  · have known : decl.name ∈ prog.gridVars := by
      simp only [gridVars, List.mem_toFinset, List.mem_append, List.mem_map]
      exact .inl (.inl ⟨decl, member, rfl⟩)
    refine StaysIn.ite (fun _ => ?_) (fun _ => staysIn_some)
    rcases init : decl.initializer with _ | rhs
    · exact StaysIn.ite (fun _ => staysIn_some)
        (fun _ => associate_staysIn known (Finset.mem_insert_self _ _))
    · refine handleGridAssignment_staysIn known fun c is => ?_
      simp only [grids, Finset.mem_insert, List.mem_toFinset, List.mem_map,
        List.mem_filterMap, List.mem_append]
      exact .inr ⟨c, ⟨rhs, .inl ⟨decl, member, init⟩, is⟩, rfl⟩
  · have known : asn.lhs ∈ prog.gridVars := by
      simp only [gridVars, List.mem_toFinset, List.mem_append, List.mem_map]
      exact .inl (.inr ⟨asn, member, rfl⟩)
    refine StaysIn.ite (fun _ => handleGridAssignment_staysIn known fun c is => ?_)
      (fun _ => staysIn_some)
    simp only [grids, Finset.mem_insert, List.mem_toFinset, List.mem_map,
      List.mem_filterMap, List.mem_append]
    exact .inr ⟨c, ⟨asn.rhs, .inr ⟨asn, member, rfl⟩, is⟩, rfl⟩
  · unfold propagateGridVarMapAcrossStencilCall
    rcases defined : m.params with _ | params
    · exact staysIn_none
    · exact propagate_staysIn (List.mem_append_left _ member) defined
  · refine StaysIn.ite (fun _ => ?_) (fun _ => staysIn_some)
    rcases defined : c.params with _ | params
    · exact staysIn_none
    · exact propagate_staysIn (List.mem_append_right _ member) defined

/-- The loop ends, with the associations or with an abort. -/
theorem analyzeGridVars_ends (prog : GridProgram Var Call) :
    prog.analyzeGridVars (prog.bound.card + 1) ≠ .outOfFuel :=
  whileChanged_ne_outOfFuel pass_grows pass_staysIn (Finset.empty_subset _) (by simp)

/-! ## What has been associated at the end -/

/-- The associations at the end cover all that a statement stores. -/
structure Closed (prog : GridProgram Var Call) (gridVarMap : GridVarMap Var Call) : Prop where
  declared : ∀ decl ∈ prog.vars, prog.findGridType decl.name = true →
    ∀ rhs, decl.initializer = some rhs →
      Settles (prog.handleGridAssignment decl.name rhs) gridVarMap
  assigned : ∀ asn ∈ prog.asns, prog.findGridType asn.lhs = true →
    Settles (prog.handleGridAssignment asn.lhs asn.rhs) gridVarMap
  passed : ∀ passing, passing ∈ prog.maps ∨ passing ∈ prog.calls →
    ∀ params, passing.params = some params →
      ∀ src param, (GridArg.varRef src, param) ∈ passing.args.zip params →
        prog.isGridType src = true →
          findGrid gridVarMap src ⊆ findGrid gridVarMap param

/-- A call whose propagation settles has passed on all grids. -/
theorem subset_of_propagate_settles {args : List (GridArg Var)} {params : List Var}
    (settles : Settles (prog.propagateGridVarMapAcrossCall args params) gridVarMap)
    {src param : Var} (zipped : (GridArg.varRef src, param) ∈ args.zip params)
    (isGrid : prog.isGridType src = true) :
    findGrid gridVarMap src ⊆ findGrid gridVarMap param := by
  rw [Settles, propagateGridVarMapAcrossCall] at settles
  split at settles
  · have each := Settles.of_foldlM (fun passed _ => propagateArg_grows passed) settles
      _ zipped
    apply subset_of_alias_settles
    rw [Settles, propagateArg, isGridArg, if_pos isGrid] at each
    exact each
  · cases settles

theorem closed_of_finished {fuel : Nat}
    (finished : prog.analyzeGridVars fuel = .finished gridVarMap) :
    prog.Closed gridVarMap := by
  have settles := settles_of_finished pass_grows finished
  have maps := Grows.foldlM fun m (_ : m ∈ prog.maps) =>
    @propagateGridVarMapAcrossStencilCall_grows Var Call _ _ prog m
  have calls := Grows.foldlM fun c (_ : c ∈ prog.calls) =>
    @propagateGridVarMapAcrossOrdinaryCall_grows Var Call _ _ prog c
  have asns := Grows.foldlM fun asn (_ : asn ∈ prog.asns) =>
    @handleAssignOp_grows Var Call _ _ prog asn
  have vars := Grows.foldlM fun decl (_ : decl ∈ prog.vars) =>
    @handleGridDeclaration_grows Var Call _ _ prog decl
  obtain ⟨ofVars, settles⟩ := Settles.of_bind vars (asns.bind (maps.bind calls)) settles
  obtain ⟨ofAsns, settles⟩ := Settles.of_bind asns (maps.bind calls) settles
  obtain ⟨ofMaps, ofCalls⟩ := Settles.of_bind maps calls settles
  constructor
  · intro decl member found rhs init
    have each := Settles.of_foldlM (fun decl _ => handleGridDeclaration_grows decl) ofVars
      decl member
    rw [Settles, handleGridDeclaration, if_pos found, init] at each
    exact each
  · intro asn member found
    have each := Settles.of_foldlM (fun asn _ => handleAssignOp_grows asn) ofAsns asn member
    rw [Settles, handleAssignOp, if_pos found] at each
    exact each
  · rintro passing (member | member) params defined src param zipped isGrid
    · have each := Settles.of_foldlM
        (fun m _ => propagateGridVarMapAcrossStencilCall_grows m) ofMaps passing member
      rw [Settles, propagateGridVarMapAcrossStencilCall, defined] at each
      exact subset_of_propagate_settles each zipped isGrid
    · have each := Settles.of_foldlM
        (fun c _ => propagateGridVarMapAcrossOrdinaryCall_grows c) ofCalls passing member
      have some : passing.args.any prog.isGridArg = true :=
        List.any_eq_true.mpr ⟨_, (List.of_mem_zip zipped).1, isGrid⟩
      rw [Settles, propagateGridVarMapAcrossOrdinaryCall, if_pos some, defined] at each
      exact subset_of_propagate_settles each zipped isGrid

/-! ## Soundness -/

/-- Every variable that holds a grid is associated with the call that created it. -/
def Sound (gridVarMap : GridVarMap Var Call) (memory : GridMemory Var Call) : Prop :=
  ∀ activation var c, memory.holds activation var = some c →
    some c ∈ findGrid gridVarMap var

theorem Sound.initial : Sound gridVarMap GridMemory.initial := by
  rintro activation var c ⟨⟩

/-- Storing an associated grid is sound. -/
theorem Sound.store {memory : GridMemory Var Call} (sound : Sound gridVarMap memory)
    {activation : Nat} {var : Var} {value : Option Call}
    (covered : ∀ c, value = some c → some c ∈ findGrid gridVarMap var) :
    Sound gridVarMap (memory.store activation var value) := by
  intro other name c holds
  simp only [GridMemory.store] at holds
  rcases eq_or_ne other activation with rfl | elsewhere
  · rcases eq_or_ne name var with rfl | different
    · rw [Function.update_self, Function.update_self] at holds
      exact covered c holds
    · rw [Function.update_self, Function.update_of_ne different] at holds
      exact sound other name c holds
  · rw [Function.update_of_ne elsewhere] at holds
    exact sound other name c holds

/-- What a settled assignment stores is associated, unless a function returned it. -/
theorem covered_of_settles {memory : GridMemory Var Call} (sound : Sound gridVarMap memory)
    {lhs : Var} {rhs : GridExpr Var Call}
    (settles : Settles (prog.handleGridAssignment lhs rhs) gridVarMap)
    (creates : prog.CreatesGrid rhs) {value : Option Call}
    (evaluates : prog.Evaluates memory rhs value) :
    ∀ c, value = some c → some c ∈ findGrid gridVarMap lhs := by
  intro c is
  cases evaluates with
  | varRef activation v =>
      exact subset_of_alias_settles settles (sound activation v c is)
  | newCall created isNew =>
      obtain rfl := Option.some.inj is
      rw [Settles, handleGridAssignment, handleGridNew] at settles
      split at settles
      · have added := @Settles.subset _ _ (fun _ => Finset.image (fun g => (lhs, g)) {some created})
          gridVarMap settles
        rw [mem_findGrid]
        exact added (by simp)
      · cases settles
  | userCall activation called isUser =>
      rw [creates called rfl] at isUser
      cases isUser
  | other value => cases settles

/-- Plain steps keep the associations sound. -/
theorem Closed.sound_step (closed : prog.Closed gridVarMap)
    {before after : GridMemory Var Call} (sound : Sound gridVarMap before)
    (step : prog.PlainStep before after) : Sound gridVarMap after := by
  obtain ⟨event, plain, step⟩ := step
  cases step with
  | declare activation member init evaluates =>
      exact sound.store (covered_of_settles sound
        (closed.declared _ member plain.1 _ init) plain.2 evaluates)
  | assign activation member evaluates =>
      exact sound.store (covered_of_settles sound
        (closed.assigned _ member plain.1) plain.2 evaluates)
  | passArgument caller callee member defined passed =>
      exact sound.store fun c is => closed.passed _ member _ defined _ _ passed plain
        (sound caller _ c is)
  | returnFrom activation member evaluates => exact sound

/--
The loop ends, and in every run of plain steps all grids that the variables hold are
associated with them.
-/
theorem analyzeGridVars_sound (prog : GridProgram Var Call) :
    (∃ fuel, prog.analyzeGridVars fuel ≠ .outOfFuel) ∧
      ∀ fuel gridVarMap, prog.analyzeGridVars fuel = .finished gridVarMap →
        ∀ memory, Reaches prog.PlainStep GridMemory.initial memory →
          Sound gridVarMap memory := by
  refine ⟨⟨_, prog.analyzeGridVars_ends⟩, ?_⟩
  intro fuel gridVarMap finished memory reached
  have closed := closed_of_finished finished
  exact reached.invariant Sound.initial fun before after sound step =>
    closed.sound_step sound step

/--
`g = PSGrid1DFloatNew(n)` in one function, passed to a function `update(a)` that
declares `b = a` and calls itself with `b`.
-/
def recursiveProgram : GridProgram String Nat where
  vars := [⟨"b", false, some (.varRef "a")⟩, ⟨"a", true, none⟩,
    ⟨"g", false, some (.functionCall 0)⟩]
  asns := []
  maps := []
  calls := [⟨[.varRef "b"], some ["a"]⟩, ⟨[.varRef "g"], some ["a"]⟩]
  findGridType _ := true
  isGridType _ := true
  constructsGrid _ := true
  isNewCall _ := true
  returns _ := []

/-- The analysis of the example follows the grid into the recursion. -/
theorem recursiveProgram_sound :
    ∃ gridVarMap, recursiveProgram.analyzeGridVars 4 = .finished gridVarMap ∧
      Sound gridVarMap
        ((GridMemory.initial.store 0 "g" (some 0)).store 1 "a" (some 0)) := by
  have created : recursiveProgram.PlainStep GridMemory.initial
      (GridMemory.initial.store 0 "g" (some 0)) :=
    ⟨.declare ⟨"g", false, some (.functionCall 0)⟩ (.functionCall 0), ⟨rfl, fun _ _ => rfl⟩,
      .declare 0 (by simp [recursiveProgram]) rfl (.newCall 0 rfl)⟩
  have passed : recursiveProgram.PlainStep (GridMemory.initial.store 0 "g" (some 0))
      ((GridMemory.initial.store 0 "g" (some 0)).store 1 "a" (some 0)) :=
    ⟨.passArgument "g" "a", rfl, .passArgument 0 1
      (.inr (List.mem_cons_of_mem _ List.mem_cons_self)) rfl (by simp)⟩
  exact ⟨_, rfl, (analyzeGridVars_sound recursiveProgram).2 4 _ rfl _
    (.tail (.tail .refl created) passed)⟩

/-- `g = make(n)`, where `make` declares `h = PSGrid1DFloatNew(n)` and returns `h`. -/
def makerProgram : GridProgram String Nat where
  vars := [⟨"g", false, some (.functionCall 0)⟩, ⟨"h", false, some (.functionCall 1)⟩]
  asns := []
  maps := []
  calls := [⟨[.other], some ["n"]⟩]
  findGridType _ := true
  isGridType _ := true
  constructsGrid _ := true
  isNewCall c := decide (c = 1)
  returns c := if c = 0 then [.varRef "h"] else []

/-- The variable holds the grid created in the function, and the analysis misses it. -/
theorem makerProgram_unsound :
    ∃ gridVarMap memory, makerProgram.analyzeGridVars 2 = .finished gridVarMap ∧
      Reaches (fun before after => ∃ event, makerProgram.Step event before after)
        GridMemory.initial memory ∧
      memory.holds 0 "g" = some 1 ∧ some 1 ∉ findGrid gridVarMap "g" := by
  let inner : GridMemory String Nat := GridMemory.initial.store 1 "h" (some 1)
  let back : GridMemory String Nat :=
    { inner with returned := Function.update inner.returned 1 (some 1) }
  have created : makerProgram.Step (.declare ⟨"h", false, some (.functionCall 1)⟩
      (.functionCall 1)) GridMemory.initial inner :=
    .declare 1 (by simp [makerProgram]) rfl (.newCall 1 rfl)
  have returned : makerProgram.Step (.returnFrom 0 (.varRef "h")) inner back :=
    .returnFrom 1 (by simp [makerProgram]) (.varRef 1 "h")
  have stored : makerProgram.Step (.declare ⟨"g", false, some (.functionCall 0)⟩
      (.functionCall 0)) back (back.store 0 "g" (some 1)) :=
    .declare 0 (by simp [makerProgram]) rfl (.userCall 1 0 rfl)
  refine ⟨_, back.store 0 "g" (some 1), rfl,
    .tail (.tail (.tail .refl ⟨_, created⟩) ⟨_, returned⟩) ⟨_, stored⟩, rfl, ?_⟩
  decide

end GridProgram

end Steps

end Physis.Translator
