import Physis.Library.GrowingLoops
import Physis.Translator.GridVars
import Physis.Translator.StencilRange

/-!
# Kernel summaries

A kernel is summarized by the grid parameters and grids that it reads and writes
and by the stencil range of every grid variable.  The parameters and the ranges
come from the body of the kernel alone; only the queries for grids follow the
calls, along a tree that has every inner kernel once, below its first caller.
-/

namespace Physis.Translator

open Physis.Library.GrowingLoops

/-! ## Kernels -/

/-- A `get` or `get_periodic` call with the analyzed indices. -/
structure GridGet (Var : Type) where
  gridVar : Var
  indices : StencilIndexList

/-- An argument of a call in a kernel: a grid, an analyzed index, or another value. -/
inductive KernelArg (Var : Type) where
  | gridVar (v : Var)
  | index (idx : StencilIndex)
  | other

/-- A call of another stencil function. -/
structure KernelCall (Func Var : Type) where
  callee : Func
  args : List (KernelArg Var)

/--
A function.  Local grid variables are aliases of others, assigned once; the last
declaration comes first.
-/
structure KernelDecl (Func Var : Type) where
  args : List Var
  aliases : List (Var × Var)
  gets : List (GridGet Var)
  periodicGets : List (GridGet Var)
  emits : List Var
  calls : List (KernelCall Func Var)
  /-- the kernels of the stencil maps in the body -/
  maps : List Func
  distinct : ∀ pair ∈ aliases, pair.1 ∉ args

/-- The functions in textual order, and their definitions. -/
structure KernelProgram (Func Var : Type) where
  funcs : List Func
  decl : Func → KernelDecl Func Var

section Model

variable {Func Var : Type} [DecidableEq Func] [DecidableEq Var]

/-- `findOriginalVar` of the alias graph -/
def findOriginalVar : List (Var × Var) → Var → Var
  | [], var => var
  | (name, origin) :: earlier, var =>
      if var = name then findOriginalVar earlier origin else findOriginalVar earlier var

namespace KernelDecl

variable (decl : KernelDecl Func Var)

def originalVar (var : Var) : Var :=
  findOriginalVar decl.aliases var

/-- The calls that `analyzeGridReads` and `AnalyzeStencilRange` go through. -/
def allGets : List (GridGet Var) :=
  decl.gets ++ decl.periodicGets

/-- `rGridVars` -/
def rGridVars : List Var :=
  decl.allGets.map fun get => decl.originalVar get.gridVar

/-- `wGridVars` -/
def wGridVars : List Var :=
  decl.emits.map decl.originalVar

/-- `isGridParamRead` -/
def isGridParamRead (v : Var) : Bool :=
  decide (v ∈ decl.rGridVars)

/-- `isGridParamModified` -/
def isGridParamModified (v : Var) : Bool :=
  decide (v ∈ decl.wGridVars)

/-- `AnalyzeStencilRange`: the range of a grid variable, if it is accessed. -/
def stencilRange (v : Var) : Option StencilRange :=
  match decl.allGets.filter fun get => decide (get.gridVar = v) with
  | [] => none
  | get :: rest => some (StencilRange.ofAccesses get.indices.length
      ((get :: rest).map GridGet.indices))

end KernelDecl

/-! ## The tree of kernels -/

/-- A `Kernel` object, known by its function and the map it is kept in. -/
inductive KernelId (Func : Type) where
  | entry (f : Func)
  | inner (f : Func)
deriving DecidableEq

/-- An entry of `entry_kernels_`, or one of `inner_kernels_` with its parent and call. -/
inductive Registered (Func : Type) where
  | entry (f : Func)
  | inner (f : Func) (parent : KernelId Func) (call : Nat)
deriving DecidableEq

/-- The function of an inner kernel. -/
def Registered.innerFunc {Func : Type} : Registered Func → Option Func
  | entry _ => none
  | inner f _ _ => some f

/-- `isEntryKernel` -/
def isEntryKernel (kernels : Finset (Registered Func)) (f : Func) : Prop :=
  .entry f ∈ kernels

/-- `isInnerKernel` -/
def isInnerKernel (kernels : Finset (Registered Func)) (f : Func) : Prop :=
  ∃ kernel ∈ kernels, kernel.innerFunc = some f

instance (kernels : Finset (Registered Func)) (f : Func) :
    Decidable (isEntryKernel kernels f) :=
  inferInstanceAs (Decidable (_ ∈ _))

instance (kernels : Finset (Registered Func)) (f : Func) :
    Decidable (isInnerKernel kernels f) :=
  inferInstanceAs (Decidable (∃ kernel ∈ kernels, kernel.innerFunc = some f))

/-- `findKernel` -/
def findKernel (kernels : Finset (Registered Func)) (f : Func) : Option (KernelId Func) :=
  if isEntryKernel kernels f then some (.entry f)
  else if isInnerKernel kernels f then some (.inner f)
  else none

/-- `registerEntryKernel` -/
def registerEntryKernel (f : Func) (s : Growing (Registered Func)) :
    Growing (Registered Func) :=
  s.add {.entry f}

/-- `registerInnerKernel` -/
def registerInnerKernel
    (f : Func) (call : Nat) (parent : KernelId Func) (s : Growing (Registered Func)) :
    Growing (Registered Func) :=
  s.add (if isInnerKernel s.elements f then ∅ else {.inner f parent call})

/-- A call expression of the program: a stencil map, or a call of a function. -/
inductive FuncCall (Func : Type) where
  | map (kernel : Func)
  | call (caller callee : Func) (number : Nat)

namespace KernelProgram

variable (prog : KernelProgram Func Var)

/-- The calls of the project, without grid functions and builtin functions. -/
def funcCalls : List (FuncCall Func) :=
  prog.funcs.flatMap fun f =>
    (prog.decl f).maps.map FuncCall.map ++
      ((prog.decl f).calls.zipIdx.map fun call => .call f call.1.callee call.2)

/-- The body of the loop of `analyzeKernelFunctions` over the calls -/
def registerCall (s : Growing (Registered Func)) (call : FuncCall Func) :
    Option (Growing (Registered Func)) :=
  match call with
  | .map kernel => some (registerEntryKernel kernel s)
  | .call caller callee number =>
      match findKernel s.elements caller with
      | none => some s
      | some parent => some (registerInnerKernel callee number parent s)

/-- `analyzeKernelFunctions`, with a bound on the number of passes -/
def analyzeKernelFunctions (fuel : Nat) : LoopEnd (Registered Func) :=
  whileChanged (fun s => prog.funcCalls.foldlM registerCall s) fuel ∅

/-- The kernels that a call may register. -/
def mayRegister : FuncCall Func → List (Registered Func)
  | .map kernel => [.entry kernel]
  | .call caller callee number =>
      [.inner callee (.entry caller) number, .inner callee (.inner caller) number]

omit [DecidableEq Var] in
/-- A call adds one of its kernels, or nothing. -/
theorem registerCall_eq (call : FuncCall Func) :
    ∃ new : Finset (Registered Func) → Finset (Registered Func),
      (∀ elements, new elements ⊆ (mayRegister call).toFinset) ∧
        (fun s => registerCall s call) = fun s => some (s.add (new s.elements)) := by
  cases call with
  | map kernel =>
      exact ⟨fun _ => {.entry kernel}, fun _ => by simp [mayRegister], rfl⟩
  | call caller callee number =>
      refine ⟨fun elements => match findKernel elements caller with
        | none => ∅
        | some parent => if isInnerKernel elements callee then ∅
            else {.inner callee parent number}, ?_, ?_⟩
      · intro elements
        beta_reduce
        rcases found : findKernel elements caller with _ | parent
        · simp
        · simp only
          split
          · simp
          · have own : parent = .entry caller ∨ parent = .inner caller := by
              rw [findKernel] at found
              split at found
              · exact .inl (Option.some.inj found).symm
              · split at found
                · exact .inr (Option.some.inj found).symm
                · cases found
            rcases own with rfl | rfl <;> simp [mayRegister]
      · funext s
        beta_reduce
        rw [registerCall]
        rcases findKernel s.elements caller with _ | parent
        · simp [Growing.add]
        · rfl

omit [DecidableEq Var] in
/-- The loop over the calls ends. -/
theorem analyzeKernelFunctions_ends :
    prog.analyzeKernelFunctions ((prog.funcCalls.flatMap mayRegister).toFinset.card + 1) ≠
      .outOfFuel := by
  apply whileChanged_ne_outOfFuel _ _ (Finset.empty_subset _) (Nat.lt_succ_self _)
  · refine Grows.foldlM fun call _ => ?_
    obtain ⟨new, -, same⟩ := registerCall_eq call
    rw [same]
    exact Growing.add_grows new
  · refine StaysIn.foldlM fun call member => ?_
    obtain ⟨new, within, same⟩ := registerCall_eq call
    rw [same]
    refine Growing.add_staysIn fun elements _ => (within elements).trans ?_
    intro kernel among
    rw [List.mem_toFinset] at among ⊢
    exact List.mem_flatMap.mpr ⟨call, member, among⟩

/-- The function of a kernel. -/
def declOf : KernelId Func → KernelDecl Func Var
  | .entry f => prog.decl f
  | .inner f => prog.decl f

variable {Grid : Type} (findGrid : Var → Finset Grid) (kernels : Finset (Registered Func))

/-- `rGrids` has a grid. -/
def readsGrid (kernel : KernelId Func) (g : Grid) : Prop :=
  ∃ get ∈ (prog.declOf kernel).allGets, g ∈ findGrid get.gridVar

/-- `wGrids` has a grid. -/
def writesGrid (kernel : KernelId Func) (g : Grid) : Prop :=
  ∃ v ∈ (prog.declOf kernel).emits, g ∈ findGrid v

/-- A query that asks the kernel and its children; the tree is as deep as the fuel. -/
def queries (own : KernelId Func → Grid → Prop) : Nat → KernelId Func → Grid → Prop
  | 0, kernel, g => own kernel g
  | depth + 1, kernel, g => own kernel g ∨
      ∃ f call, Registered.inner f kernel call ∈ kernels ∧ queries own depth (.inner f) g

/-- `isRead` -/
def IsRead (kernel : KernelId Func) (g : Grid) : Prop :=
  queries kernels (prog.readsGrid findGrid) kernels.card kernel g

/-- `isModified` -/
def IsModified (kernel : KernelId Func) (g : Grid) : Prop :=
  queries kernels (prog.writesGrid findGrid) kernels.card kernel g

end KernelProgram

/-! ## The accesses of a nest of kernels -/

/-- An index of the callee, in the index variables of the caller. -/
def KernelCall.substitute (call : KernelCall Func Var) (idx : StencilIndex) :
    Option StencilIndex :=
  if idx.dim = 0 then some idx
  else
    match call.args[idx.dim.natAbs - 1]? with
    | some (.index outer) =>
        some ⟨idx.dim.sign * outer.dim, idx.dim.sign * outer.offset + idx.offset⟩
    | _ => none

/-- The value of an index, by the values of the index variables. -/
def StencilIndex.value (variableValue : Nat → Int) (idx : StencilIndex) : Int :=
  idx.dim.sign * variableValue idx.dim.natAbs + idx.offset

omit [DecidableEq Func] [DecidableEq Var] in
/-- The index in the caller has the value that the index has in the callee. -/
theorem KernelCall.substitute_value {call : KernelCall Func Var} {idx seen : StencilIndex}
    {callerValue calleeValue : Nat → Int}
    (passed : ∀ i arg, call.args[i]? = some (.index arg) →
      calleeValue (i + 1) = arg.value callerValue)
    (substituted : call.substitute idx = some seen) :
    seen.value callerValue = idx.value calleeValue := by
  rw [substitute] at substituted
  split at substituted
  · rename_i constant
    obtain rfl := Option.some.inj substituted
    simp [StencilIndex.value, constant]
  · rename_i mentions
    split at substituted
    · rename_i outer found
      obtain rfl := Option.some.inj substituted
      have argument := passed _ outer found
      have unit : idx.dim.sign.natAbs = 1 := Int.natAbs_sign_of_ne_zero mentions
      rw [show idx.dim.natAbs - 1 + 1 = idx.dim.natAbs by omega] at argument
      simp only [StencilIndex.value, argument, Int.sign_mul, Int.sign_sign,
        Int.natAbs_mul, unit, one_mul]
      ring
    · cases substituted

namespace KernelProgram

variable (prog : KernelProgram Func Var)

/--
A grid variable of a function is read in it or in a function it calls, at indices in
the function's own index variables where they have this form.
-/
inductive NestGet : Func → Var → List (Option StencilIndex) → Prop
  | own {f : Func} {get : GridGet Var} (member : get ∈ (prog.decl f).allGets) :
      NestGet f ((prog.decl f).originalVar get.gridVar) (get.indices.map some)
  | inner {f : Func} {call : KernelCall Func Var} {param v : Var} {i : Nat}
      {indices : List (Option StencilIndex)}
      (member : call ∈ (prog.decl f).calls) (access : NestGet call.callee param indices)
      (isParam : (prog.decl call.callee).args[i]? = some param)
      (isArg : call.args[i]? = some (.gridVar v)) :
      NestGet f ((prog.decl f).originalVar v) (indices.map fun idx => idx.bind call.substitute)

/-- A grid variable of a function is written in it or in a function it calls. -/
inductive NestEmit : Func → Var → Prop
  | own {f : Func} {v : Var} (member : v ∈ (prog.decl f).emits) :
      NestEmit f ((prog.decl f).originalVar v)
  | inner {f : Func} {call : KernelCall Func Var} {param v : Var} {i : Nat}
      (member : call ∈ (prog.decl f).calls) (access : NestEmit call.callee param)
      (isParam : (prog.decl call.callee).args[i]? = some param)
      (isArg : call.args[i]? = some (.gridVar v)) :
      NestEmit f ((prog.decl f).originalVar v)

/-- A range bounds the indices of an access in every dimension. -/
def Contains (sr : StencilRange) (indices : List (Option StencilIndex)) : Prop :=
  ∀ i idx, indices[i]? = some idx → ∃ si, idx = some si ∧
    StencilRange.Bounds (· ≤ ·) (sr.minIndices i) si ∧
    StencilRange.Bounds (· ≥ ·) (sr.maxIndices i) si

variable {Grid : Type} (findGrid : Var → Finset Grid) (kernels : Finset (Registered Func))
  (f : Func)

/-- The summaries of an entry kernel include the accesses of its nest. -/
structure SummariesInclude : Prop where
  readParams : ∀ v ∈ (prog.decl f).args, ∀ indices, prog.NestGet f v indices →
    (prog.decl f).isGridParamRead v = true
  modifiedParams : ∀ v ∈ (prog.decl f).args, prog.NestEmit f v →
    (prog.decl f).isGridParamModified v = true
  readGrids : ∀ v ∈ (prog.decl f).args, ∀ indices, prog.NestGet f v indices →
    ∀ g ∈ findGrid v, prog.IsRead findGrid kernels (.entry f) g
  modifiedGrids : ∀ v ∈ (prog.decl f).args, prog.NestEmit f v →
    ∀ g ∈ findGrid v, prog.IsModified findGrid kernels (.entry f) g
  ranges : ∀ v ∈ (prog.decl f).args, ∀ indices, prog.NestGet f v indices →
    ∃ sr, (prog.decl f).stencilRange v = some sr ∧ Contains sr indices

/-- Another access of the parameter in the body has the index, or one beyond it. -/
def Reached (order : Int → Int → Prop) (v : Var) (i : Nat) (si : StencilIndex) : Prop :=
  ∃ get ∈ (prog.decl f).allGets, get.gridVar = v ∧
    ∃ own, get.indices[i]? = some own ∧ own.dim = si.dim ∧ order own.offset si.offset

/--
The body of the entry kernel itself has the accesses of its nest: it reads every
parameter under its own name on both sides of each index, and writes it.
-/
structure BodyIncludes : Prop where
  gets : ∀ v ∈ (prog.decl f).args, ∀ indices, prog.NestGet f v indices →
    (∃ get ∈ (prog.decl f).allGets, get.gridVar = v) ∧
      ∀ i idx, indices[i]? = some idx → ∃ si, idx = some si ∧
        prog.Reached f (· ≤ ·) v i si ∧ prog.Reached f (· ≥ ·) v i si
  emits : ∀ v ∈ (prog.decl f).args, prog.NestEmit f v →
    ∃ name ∈ (prog.decl f).emits, (prog.decl f).originalVar name = v

/-! ## When the summaries include the accesses -/

end KernelProgram

omit [DecidableEq Func] in
/-- A parameter is no alias. -/
theorem KernelDecl.originalVar_param (decl : KernelDecl Func Var) {v : Var}
    (param : v ∈ decl.args) : decl.originalVar v = v := by
  have general : ∀ aliases : List (Var × Var), (∀ pair ∈ aliases, pair.1 ≠ v) →
      findOriginalVar aliases v = v := by
    intro aliases
    induction aliases with
    | nil => exact fun _ => rfl
    | cons pair earlier induction =>
        intro different
        rw [findOriginalVar, if_neg (different pair List.mem_cons_self).symm]
        exact induction fun other member => different other (List.mem_cons_of_mem _ member)
  apply general
  rintro pair member rfl
  exact decl.distinct pair member param

omit [DecidableEq Func] in
/-- A recorded range tabulates the accesses under the name. -/
theorem KernelDecl.stencilRange_eq (decl : KernelDecl Func Var) (v : Var) :
    (decl.stencilRange v = none ∧ ∀ get ∈ decl.allGets, get.gridVar ≠ v) ∨
      ∃ numDims accesses,
        decl.stencilRange v = some (StencilRange.ofAccesses numDims accesses) ∧
        (∃ get ∈ decl.allGets, get.gridVar = v) ∧
        ∀ access, access ∈ accesses ↔
          ∃ get ∈ decl.allGets, get.gridVar = v ∧ get.indices = access := by
  rcases filtered : decl.allGets.filter fun get => decide (get.gridVar = v) with _ | ⟨get, rest⟩
  · left
    rw [List.filter_eq_nil_iff] at filtered
    rw [stencilRange, List.filter_eq_nil_iff.mpr filtered]
    exact ⟨rfl, fun get member same => filtered get member (decide_eq_true same)⟩
  · right
    have member : ∀ other, other ∈ get :: rest ↔ other ∈ decl.allGets ∧ other.gridVar = v := by
      intro other
      rw [← filtered, List.mem_filter, decide_eq_true_eq]
    refine ⟨get.indices.length, (get :: rest).map GridGet.indices, ?_, ?_, ?_⟩
    · rw [stencilRange, filtered]
    · exact ⟨get, (member get).mp List.mem_cons_self⟩
    · intro access
      simp only [List.mem_map, member, and_assoc]

namespace KernelProgram

variable {prog : KernelProgram Func Var} {f : Func}

omit [DecidableEq Func] in
/-- The range of a parameter contains an access exactly between two own accesses. -/
theorem stencilRange_contains_iff {v : Var} {indices : List (Option StencilIndex)} :
    (∃ sr, (prog.decl f).stencilRange v = some sr ∧ Contains sr indices) ↔
      (∃ get ∈ (prog.decl f).allGets, get.gridVar = v) ∧
        ∀ i idx, indices[i]? = some idx → ∃ si, idx = some si ∧
          prog.Reached f (· ≤ ·) v i si ∧ prog.Reached f (· ≥ ·) v i si := by
  rcases (prog.decl f).stencilRange_eq v with
    ⟨none, unused⟩ | ⟨numDims, accesses, range, used, listed⟩
  · rw [none]
    constructor
    · rintro ⟨sr, impossible, -⟩
      cases impossible
    · rintro ⟨⟨get, member, same⟩, -⟩
      exact absurd same (unused get member)
  · have tabulates := StencilRange.tabulates_ofAccesses numDims accesses
    have reached (order : Int → Int → Prop) (i : Nat) (si : StencilIndex) :
        prog.Reached f order v i si ↔ ∃ access ∈ accesses, ∃ own, access[i]? = some own ∧
          own.dim = si.dim ∧ order own.offset si.offset := by
      constructor
      · rintro ⟨get, member, same, own⟩
        exact ⟨get.indices, (listed _).mpr ⟨get, member, same, rfl⟩, own⟩
      · rintro ⟨access, among, own⟩
        obtain ⟨get, member, same, rfl⟩ := (listed access).mp among
        exact ⟨get, member, same, own⟩
    have least (i : Nat) (si : StencilIndex) :
        StencilRange.Bounds (· ≤ ·)
            ((StencilRange.ofAccesses numDims accesses).minIndices i) si ↔
          prog.Reached f (· ≤ ·) v i si := by
      rw [reached]
      constructor
      · rintro ⟨entry, member, same, order⟩
        obtain ⟨access, among, own⟩ := tabulates.attained i entry member
        exact ⟨access, among, entry, own, same, order⟩
      · rintro ⟨access, among, own, found, same, order⟩
        obtain ⟨entry, member, equal, below⟩ := tabulates.least access among i own found
        exact ⟨entry, member, equal.trans same, below.trans order⟩
    have greatest (i : Nat) (si : StencilIndex) :
        StencilRange.Bounds (· ≥ ·)
            ((StencilRange.ofAccesses numDims accesses).maxIndices i) si ↔
          prog.Reached f (· ≥ ·) v i si := by
      rw [reached]
      constructor
      · rintro ⟨entry, member, same, order⟩
        obtain ⟨access, among, own⟩ := StencilRange.maxIndices_attained i entry member
        exact ⟨access, among, entry, own, same, order⟩
      · rintro ⟨access, among, own, found, same, order⟩
        obtain ⟨entry, member, equal, above⟩ := tabulates.greatest access among i own found
        exact ⟨entry, member, equal.trans same, order.trans above⟩
    simp only [range, Option.some_inj, exists_eq_left', Contains, least, greatest]
    exact ⟨fun contains => ⟨used, contains⟩, fun both => both.2⟩

/-- The results of the analyses of a program. -/
structure Analyzed {Call : Type} [DecidableEq Call]
    (prog : KernelProgram Func Var) (gridProg : GridProgram Var Call)
    (gridVarMap : GridVarMap Var Call) (kernels : Finset (Registered Func)) : Prop where
  /-- the aliases in the functions are declarations of the program -/
  declares : ∀ f, ∀ pair ∈ (prog.decl f).aliases,
    ⟨pair.1, false, some (.varRef pair.2)⟩ ∈ gridProg.vars ∧
      gridProg.findGridType pair.1 = true
  gridVars : ∃ fuel, gridProg.analyzeGridVars fuel = .finished gridVarMap
  kernels : ∃ fuel, prog.analyzeKernelFunctions fuel = .finished kernels

section Grids

variable {Call : Type} [DecidableEq Call] {gridProg : GridProgram Var Call}
  {gridVarMap : GridVarMap Var Call} {kernels : Finset (Registered Func)}

/-- An alias has the grids of the variable it stands for. -/
theorem Analyzed.findGrid_originalVar
    (analyzed : prog.Analyzed gridProg gridVarMap kernels) (var : Var) :
    findGrid gridVarMap ((prog.decl f).originalVar var) ⊆ findGrid gridVarMap var := by
  obtain ⟨fuel, finished⟩ := analyzed.gridVars
  have closed := GridProgram.closed_of_finished finished
  have general : ∀ aliases : List (Var × Var), (∀ pair ∈ aliases,
      findGrid gridVarMap pair.2 ⊆ findGrid gridVarMap pair.1) →
        ∀ var, findGrid gridVarMap (findOriginalVar aliases var) ⊆ findGrid gridVarMap var := by
    intro aliases
    induction aliases with
    | nil => exact fun _ var => Finset.Subset.refl _
    | cons pair earlier induction =>
        intro each var
        have rest := induction fun other member => each other (List.mem_cons_of_mem _ member)
        rw [findOriginalVar]
        split
        · rename_i same
          rw [same]
          exact (rest pair.2).trans (each pair List.mem_cons_self)
        · exact rest var
  apply general
  intro pair member
  obtain ⟨declared, found⟩ := analyzed.declares f pair member
  exact subset_of_alias_settles (closed.declared _ declared found _ rfl)

omit [DecidableEq Func] [DecidableEq Var] [DecidableEq Call] in
/-- A query finds what the kernel itself does. -/
theorem queries_of_own {Grid : Type} {own : KernelId Func → Grid → Prop}
    {kernel : KernelId Func} {g : Grid} (holds : own kernel g) (depth : Nat) :
    queries kernels own depth kernel g := by
  cases depth with
  | zero => exact holds
  | succ depth => exact .inl holds

/--
The summaries of a kernel include all accesses in the functions it calls exactly if
its own body has them too.
-/
theorem summariesInclude_iff (analyzed : prog.Analyzed gridProg gridVarMap kernels) (f : Func) :
    prog.SummariesInclude (findGrid gridVarMap) kernels f ↔ prog.BodyIncludes f := by
  constructor
  · intro includes
    constructor
    · intro v param indices access
      exact stencilRange_contains_iff.mp (includes.ranges v param indices access)
    · intro v param access
      have modified := includes.modifiedParams v param access
      rw [KernelDecl.isGridParamModified, decide_eq_true_eq, KernelDecl.wGridVars,
        List.mem_map] at modified
      exact modified
  · intro body
    constructor
    · intro v param indices access
      obtain ⟨⟨get, member, same⟩, -⟩ := body.gets v param indices access
      rw [KernelDecl.isGridParamRead, decide_eq_true_eq, KernelDecl.rGridVars, List.mem_map]
      exact ⟨get, member, by rw [same, KernelDecl.originalVar_param _ param]⟩
    · intro v param access
      rw [KernelDecl.isGridParamModified, decide_eq_true_eq, KernelDecl.wGridVars, List.mem_map]
      exact body.emits v param access
    · intro v param indices access g holds
      obtain ⟨⟨get, member, same⟩, -⟩ := body.gets v param indices access
      exact queries_of_own ⟨get, member, same ▸ holds⟩ _
    · intro v param access g holds
      obtain ⟨name, member, same⟩ := body.emits v param access
      exact queries_of_own ⟨name, member, analyzed.findGrid_originalVar name (same ▸ holds)⟩ _
    · intro v param indices access
      exact stencilRange_contains_iff.mpr (body.gets v param indices access)

end Grids

/-- `inner(i, a, b)`, which writes the element of `a` to `b`. -/
def innerKernel : KernelDecl String String where
  args := ["i", "a", "b"]
  aliases := []
  gets := [⟨"a", [⟨1, 0⟩]⟩]
  periodicGets := []
  emits := ["b"]
  calls := []
  maps := []
  distinct := by simp

/-- `outer(x, g, h)`, which reads and writes as told and calls `inner(x, g, h)`. -/
def outerKernel (gets : List (GridGet String)) (emits : List String) :
    KernelDecl String String where
  args := ["x", "g", "h"]
  aliases := []
  gets := gets
  periodicGets := []
  emits := emits
  calls := [⟨"inner", [.index ⟨1, 0⟩, .gridVar "g", .gridVar "h"]⟩]
  maps := []
  distinct := by simp

/-- A program of both kernels with a stencil map of the outer one. -/
def outerInner (gets : List (GridGet String)) (emits : List String) :
    KernelProgram String String where
  funcs := ["inner", "outer", "main"]
  decl f :=
    if f = "inner" then innerKernel
    else if f = "outer" then outerKernel gets emits
    else { innerKernel with gets := [], emits := [], maps := ["outer"] }

/-- The grid variables of that program. -/
def outerInnerVars : GridProgram String Nat where
  vars := [⟨"p", false, some (.functionCall 0)⟩, ⟨"q", false, some (.functionCall 1)⟩]
  asns := []
  maps := [⟨[.varRef "p", .varRef "q"], some ["g", "h"]⟩]
  calls := [⟨[.other, .varRef "g", .varRef "h"], some ["i", "a", "b"]⟩]
  findGridType _ := true
  isGridType _ := true
  constructsGrid _ := true
  isNewCall _ := true
  returns _ := []

/-- What the inner kernel reads, as it is seen from itself. -/
theorem nestGet_inner {gets : List (GridGet String)} {emits : List String} {v : String}
    {indices : List (Option StencilIndex)}
    (access : (outerInner gets emits).NestGet "inner" v indices) :
    v = "a" ∧ indices = [some ⟨1, 0⟩] := by
  cases access with
  | own member =>
      simp [outerInner, innerKernel, KernelDecl.allGets] at member
      subst member
      exact ⟨rfl, rfl⟩
  | inner member access isParam isArg => simp [outerInner, innerKernel] at member

/-- What is written in the inner kernel, as it is seen from itself. -/
theorem nestEmit_inner {gets : List (GridGet String)} {emits : List String} {v : String}
    (access : (outerInner gets emits).NestEmit "inner" v) : v = "b" := by
  cases access with
  | own member =>
      simp [outerInner, innerKernel] at member
      subst member
      rfl
  | inner member access isParam isArg => simp [outerInner, innerKernel] at member

/-- The outer kernel of the example reads both neighbors and writes. -/
theorem outerInner_bodyIncludes :
    (outerInner [⟨"g", [⟨1, -1⟩]⟩, ⟨"g", [⟨1, 1⟩]⟩] ["h"]).BodyIncludes "outer" := by
  constructor
  · intro v param indices access
    have within : v = "g" ∧ ∃ offset, indices = [some ⟨1, offset⟩] ∧ -1 ≤ offset ∧
        offset ≤ 1 := by
      cases access with
      | own member =>
          simp [outerInner, outerKernel, KernelDecl.allGets] at member
          rcases member with rfl | rfl
          · exact ⟨rfl, -1, rfl, by decide, by decide⟩
          · exact ⟨rfl, 1, rfl, by decide, by decide⟩
      | @inner _ call _ _ i _ member access isParam isArg =>
          simp [outerInner, outerKernel] at member
          subst member
          obtain ⟨rfl, rfl⟩ := nestGet_inner access
          obtain rfl : i = 1 := by
            rcases i with _ | _ | _ | i <;> simp [outerInner, innerKernel] at isParam ⊢
          obtain rfl := KernelArg.gridVar.inj (Option.some.inj isArg)
          exact ⟨rfl, 0, rfl, by decide, by decide⟩
    obtain ⟨rfl, offset, rfl, least, greatest⟩ := within
    refine ⟨⟨_, List.mem_cons_self, rfl⟩, fun i idx found => ?_⟩
    obtain ⟨rfl, rfl⟩ : i = 0 ∧ some ⟨1, offset⟩ = idx := by
      rcases i with _ | i
      · simpa using found
      · simp at found
    exact ⟨_, rfl, ⟨_, List.mem_cons_self, rfl, _, rfl, rfl, least⟩,
      ⟨_, List.mem_cons_of_mem _ List.mem_cons_self, rfl, _, rfl, rfl, greatest⟩⟩
  · intro v param access
    refine ⟨"h", List.mem_singleton_self _, ?_⟩
    cases access with
    | own member =>
        obtain rfl := List.mem_singleton.mp member
        rfl
    | @inner _ call _ _ i member access isParam isArg =>
        simp [outerInner, outerKernel] at member
        subst member
        obtain rfl := nestEmit_inner access
        obtain rfl : i = 2 := by
          rcases i with _ | _ | _ | i <;> simp [outerInner, innerKernel] at isParam ⊢
        obtain rfl := KernelArg.gridVar.inj (Option.some.inj isArg)
        rfl

/-- Where the outer kernel reads on both sides and writes itself, all is included. -/
theorem outerInner_included :
    ∃ (gridVarMap : GridVarMap String Nat) (kernels : Finset (Registered String)),
      (outerInner [⟨"g", [⟨1, -1⟩]⟩, ⟨"g", [⟨1, 1⟩]⟩] ["h"]).SummariesInclude
        (findGrid gridVarMap) kernels "outer" := by
  have analyzed : (outerInner [⟨"g", [⟨1, -1⟩]⟩, ⟨"g", [⟨1, 1⟩]⟩] ["h"]).Analyzed
      outerInnerVars _ _ := ⟨?_, ⟨4, rfl⟩, ⟨4, rfl⟩⟩
  · exact ⟨_, _, (summariesInclude_iff analyzed "outer").mpr outerInner_bodyIncludes⟩
  · intro f pair member
    simp only [outerInner] at member
    split at member
    · cases member
    · split at member <;> cases member

/-- A read and a write of the inner kernel only are missed. -/
theorem outerInner_missed :
    (outerInner [] []).NestGet "outer" "g" [some ⟨1, 0⟩] ∧
      (outerInner [] []).NestEmit "outer" "h" ∧
      ((outerInner [] []).decl "outer").isGridParamRead "g" = false ∧
      ((outerInner [] []).decl "outer").isGridParamModified "h" = false ∧
      ((outerInner [] []).decl "outer").stencilRange "g" = none := by
  have call : ⟨"inner", [.index ⟨1, 0⟩, .gridVar "g", .gridVar "h"]⟩ ∈
      ((outerInner [] []).decl "outer").calls := List.mem_singleton_self _
  refine ⟨?_, ?_, by decide, by decide, rfl⟩
  · exact .inner (i := 1) call (@NestGet.own _ _ _ (outerInner [] []) "inner" ⟨"a", [⟨1, 0⟩]⟩
      (List.mem_singleton_self _)) rfl rfl
  · exact .inner (i := 2) call (.own (f := "inner") (v := "b")
      (List.mem_singleton_self _)) rfl rfl

end KernelProgram

end Model

end Physis.Translator
