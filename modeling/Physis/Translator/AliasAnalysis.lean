import Physis.Translator.GridVars

/-!
# Alias analysis

The alias graph has an edge from each grid variable of a kernel to whatever it
may be a copy of.  A kernel is rejected if a variable has several origins or
none.  The search for the original variable follows the only origins; it comes
to an end unless a variable is its own.
-/

namespace Physis.Translator

open Physis.Library.Runs

/-! ## The graph -/

/-- The nodes that an `AliasVarNode` can have as origins. -/
inductive AliasOrigin (Var : Type) where
  | var (v : Var)
  | funcParam
  | nullInit
  | unknown
deriving DecidableEq, Repr

/--
The grid variables of a function, in the order of its text, and the assignments
to variables of their types.  A parameter has no initializer, and a variable is
declared before it is used: its own initializer may use it too.
-/
structure GridFunction (Var Call : Type) where
  vars : List (GridDeclaration Var Call)
  asns : List (GridAssignOp Var Call)
  names : (vars.map (·.name)).Nodup
  params : ∀ decl ∈ vars, decl.isFuncParam = true → decl.initializer = none
  declared : ∀ (i j : Nat) (decl source : GridDeclaration Var Call),
    vars[i]? = some decl → vars[j]? = some source →
      decl.initializer = some (.varRef source.name) → j ≤ i

section Graph

variable {Var Call : Type} [DecidableEq Var]

/-- The sets `origins` of all variables, as far as they are built. -/
abbrev AliasGraph (Var : Type) := List (Var × AliasOrigin Var)

/-- The origins of a variable. -/
def AliasGraph.origins (graph : AliasGraph Var) (v : Var) : List (AliasOrigin Var) :=
  (graph.filter (·.1 = v)).map Prod.snd

/-- `addOrigin`, with the flag `changed` of `build` -/
def addOrigin (v : Var) (origin : AliasOrigin Var) (s : AliasGraph Var × Bool) :
    AliasGraph Var × Bool :=
  if (v, origin) ∈ s.1 then s else (s.1 ++ [(v, origin)], true)

/-- The origin that `handleVarDecl` adds. -/
def GridDeclaration.origin (decl : GridDeclaration Var Call) : AliasOrigin Var :=
  match decl.initializer with
  | none => if decl.isFuncParam then .funcParam else .nullInit
  | some (.varRef rhs) => .var rhs
  | some _ => .unknown

/-- `handleVarDecl` -/
def handleVarDecl (s : AliasGraph Var × Bool) (decl : GridDeclaration Var Call) :
    AliasGraph Var × Bool :=
  addOrigin decl.name decl.origin s

/-- `handleVarAssignment`; its assertion holds for variables only -/
def handleVarAssignment (s : AliasGraph Var × Bool) (asn : GridAssignOp Var Call) :
    Option (AliasGraph Var × Bool) :=
  match asn.rhs with
  | .varRef rhs => some (addOrigin asn.lhs (.var rhs) s)
  | _ => none

/-- The body of the loop of `build` -/
def buildPass (function : GridFunction Var Call) (graph : AliasGraph Var) :
    Option (AliasGraph Var × Bool) :=
  function.asns.foldlM handleVarAssignment (function.vars.foldl handleVarDecl (graph, false))

/-- How the loop of `build` ends. -/
inductive BuildEnd (Var : Type) where
  | built (graph : AliasGraph Var)
  | assertion
  | outOfFuel

/-- `build`, with a bound on the number of passes -/
def buildLoop (function : GridFunction Var Call) : Nat → AliasGraph Var → BuildEnd Var
  | 0, _ => .outOfFuel
  | fuel + 1, graph =>
      match buildPass function graph with
      | none => .assertion
      | some (next, changed) =>
          if changed then buildLoop function fuel next else .built next

/-- `hasMultipleOriginVar` -/
def AliasGraph.hasMultipleOriginVar (graph : AliasGraph Var) : Bool :=
  graph.any fun entry => 1 < (graph.origins entry.1).length

/-- `hasNullInitVar` -/
def AliasGraph.hasNullInitVar (graph : AliasGraph Var) : Bool :=
  graph.any fun entry => entry.2 = .nullInit

/-- How a search along the origins ends: at a variable with another origin, or at an assertion. -/
inductive SearchEnd (Var : Type) where
  | found (last : Var) (root : AliasOrigin Var)
  | assertion
deriving DecidableEq

/--
The loops of `findRoot` and `findOriginalVar`, which return the origin and the
last variable; none within the number of steps
-/
def search (graph : AliasGraph Var) : Nat → Var → Option (SearchEnd Var)
  | 0, _ => none
  | fuel + 1, v =>
      match graph.origins v with
      | [.var w] => search graph fuel w
      | [origin] => some (.found v origin)
      | _ => some .assertion

/-! ## Building -/

theorem mem_addOrigin {v : Var} {origin : AliasOrigin Var} {s : AliasGraph Var × Bool}
    {entry : Var × AliasOrigin Var} :
    entry ∈ (addOrigin v origin s).1 ↔ entry ∈ s.1 ∨ entry = (v, origin) := by
  rw [addOrigin]
  split
  · rename_i known
    constructor
    · exact .inl
    · rintro (old | rfl)
      · exact old
      · exact known
  · simp

theorem addOrigin_of_mem {v : Var} {origin : AliasOrigin Var} {s : AliasGraph Var × Bool}
    (known : (v, origin) ∈ s.1) : addOrigin v origin s = s :=
  if_pos known

theorem nodup_addOrigin {v : Var} {origin : AliasOrigin Var} {s : AliasGraph Var × Bool}
    (distinct : s.1.Nodup) : (addOrigin v origin s).1.Nodup := by
  rw [addOrigin]
  split
  · exact distinct
  · rename_i fresh
    rw [List.nodup_append]
    refine ⟨distinct, List.nodup_singleton _, ?_⟩
    rintro x member y single rfl
    exact fresh (List.mem_singleton.mp single ▸ member)

/-- The entries a function gives to its graph. -/
def GridFunction.Entry (function : GridFunction Var Call) (entry : Var × AliasOrigin Var) : Prop :=
  (∃ decl ∈ function.vars, entry = (decl.name, decl.origin)) ∨
    ∃ asn ∈ function.asns, ∃ rhs, asn.rhs = .varRef rhs ∧ entry = (asn.lhs, .var rhs)

theorem foldl_handleVarDecl (vars : List (GridDeclaration Var Call))
    (s : AliasGraph Var × Bool) (distinct : s.1.Nodup) :
    (vars.foldl handleVarDecl s).1.Nodup ∧
      (∀ entry, entry ∈ (vars.foldl handleVarDecl s).1 ↔
        entry ∈ s.1 ∨ ∃ decl ∈ vars, entry = (decl.name, decl.origin)) ∧
      ((∀ decl ∈ vars, (decl.name, decl.origin) ∈ s.1) → vars.foldl handleVarDecl s = s) := by
  induction vars generalizing s with
  | nil => simp [distinct]
  | cons decl vars induction =>
      obtain ⟨nodup, members, settled⟩ :=
        induction (handleVarDecl s decl) (nodup_addOrigin distinct)
      refine ⟨nodup, fun entry => ?_, fun known => ?_⟩
      · rw [List.foldl_cons, members, handleVarDecl, mem_addOrigin, or_assoc,
          List.exists_mem_cons_iff]
      · have same : handleVarDecl s decl = s := addOrigin_of_mem (known decl List.mem_cons_self)
        rw [List.foldl_cons]
        rw [same] at settled ⊢
        exact settled fun other member => known other (List.mem_cons_of_mem _ member)

theorem foldlM_handleVarAssignment (asns : List (GridAssignOp Var Call))
    (s : AliasGraph Var × Bool) (distinct : s.1.Nodup) :
    (∀ t, asns.foldlM handleVarAssignment s = some t → t.1.Nodup ∧
      (∀ entry, entry ∈ t.1 ↔
        entry ∈ s.1 ∨ ∃ asn ∈ asns, ∃ rhs, asn.rhs = .varRef rhs ∧ entry = (asn.lhs, .var rhs)) ∧
      ∀ asn ∈ asns, ∃ rhs, asn.rhs = .varRef rhs) ∧
      ((∀ asn ∈ asns, ∃ rhs, asn.rhs = .varRef rhs ∧ (asn.lhs, AliasOrigin.var rhs) ∈ s.1) →
        asns.foldlM handleVarAssignment s = some s) := by
  induction asns generalizing s with
  | nil =>
      refine ⟨?_, fun _ => rfl⟩
      rintro t ⟨⟩
      exact ⟨distinct, by simp⟩
  | cons asn asns induction =>
      constructor
      · intro t succeeds
        rw [List.foldlM_cons, Option.bind_eq_bind, Option.bind_eq_some_iff] at succeeds
        obtain ⟨next, first, rest⟩ := succeeds
        cases form : asn.rhs with
        | varRef rhs =>
            rw [handleVarAssignment, form] at first
            obtain rfl := Option.some.inj first
            obtain ⟨nodup, members, copies⟩ := (induction _ (nodup_addOrigin distinct)).1 t rest
            refine ⟨nodup, fun entry => ?_, fun other member => ?_⟩
            · rw [members, mem_addOrigin, or_assoc, List.exists_mem_cons_iff, form]
              simp
            · rcases List.mem_cons.mp member with rfl | later
              · exact ⟨rhs, form⟩
              · exact copies other later
        | functionCall c => simp [handleVarAssignment, form] at first
        | other => simp [handleVarAssignment, form] at first
      · intro known
        obtain ⟨rhs, form, member⟩ := known asn List.mem_cons_self
        have same : handleVarAssignment s asn = some s := by
          simp only [handleVarAssignment, form, addOrigin_of_mem member]
        rw [List.foldlM_cons, same]
        exact (induction s distinct).2 fun other later =>
          known other (List.mem_cons_of_mem _ later)

section Build

variable {function : GridFunction Var Call}

/-- What a pass yields. -/
theorem buildPass_eq_some {graph : AliasGraph Var} (distinct : graph.Nodup)
    {t : AliasGraph Var × Bool} (succeeds : buildPass function graph = some t) :
    t.1.Nodup ∧ (∀ entry, entry ∈ t.1 ↔ entry ∈ graph ∨ function.Entry entry) ∧
      ∀ asn ∈ function.asns, ∃ rhs, asn.rhs = .varRef rhs := by
  obtain ⟨nodup, members, -⟩ := foldl_handleVarDecl function.vars (graph, false) distinct
  obtain ⟨finalNodup, finalMembers, copies⟩ :=
    (foldlM_handleVarAssignment function.asns _ nodup).1 t succeeds
  refine ⟨finalNodup, fun entry => ?_, copies⟩
  rw [finalMembers, members, GridFunction.Entry, or_assoc]

/-- A pass over a graph with all entries changes nothing. -/
theorem buildPass_of_entries {graph : AliasGraph Var} (distinct : graph.Nodup)
    (copies : ∀ asn ∈ function.asns, ∃ rhs, asn.rhs = .varRef rhs)
    (entries : ∀ entry, function.Entry entry → entry ∈ graph) :
    buildPass function graph = some (graph, false) := by
  have settled := (foldl_handleVarDecl function.vars (graph, false) distinct).2.2
    fun decl member => entries _ (.inl ⟨decl, member, rfl⟩)
  rw [buildPass, settled]
  refine (foldlM_handleVarAssignment function.asns (graph, false) distinct).2 fun asn member => ?_
  obtain ⟨rhs, form⟩ := copies asn member
  exact ⟨rhs, form, entries _ (.inr ⟨asn, member, rhs, form, rfl⟩)⟩

/-- The graph that is built has the entries of the function and no others. -/
theorem built_entries {fuel : Nat} {graph final : AliasGraph Var} (distinct : graph.Nodup)
    (sound : ∀ entry ∈ graph, function.Entry entry)
    (built : buildLoop function fuel graph = .built final) :
    final.Nodup ∧ ∀ entry, entry ∈ final ↔ function.Entry entry := by
  induction fuel generalizing graph with
  | zero => cases built
  | succ fuel induction =>
      rw [buildLoop] at built
      split at built
      · cases built
      · rename_i next changed succeeds
        obtain ⟨nodup, members, -⟩ := buildPass_eq_some distinct succeeds
        have all : ∀ entry, entry ∈ next ↔ function.Entry entry := fun entry =>
          (members entry).trans ⟨fun known => known.elim (sound entry) id, .inr⟩
        split at built
        · exact induction nodup (fun entry member => (all entry).mp member) built
        · obtain rfl := BuildEnd.built.inj built
          exact ⟨nodup, all⟩

/-- The second pass changes nothing. -/
theorem buildLoop_terminates : buildLoop function 2 [] ≠ .outOfFuel := by
  rw [buildLoop]
  split
  · simp
  · rename_i next changed succeeds
    obtain ⟨nodup, members, copies⟩ := buildPass_eq_some List.nodup_nil succeeds
    split
    · rw [buildLoop, buildPass_of_entries nodup copies
        fun entry known => (members entry).mpr (.inr known)]
      simp
    · simp

end Build

/-! ## Accepted functions -/

/-- The function passes the checks of `analyzeGridAccess`. -/
structure Accepted (function : GridFunction Var Call) (graph : AliasGraph Var) : Prop where
  built : ∃ fuel, buildLoop function fuel [] = .built graph
  single : graph.hasMultipleOriginVar = false
  initialized : graph.hasNullInitVar = false

section Origins

variable {function : GridFunction Var Call} {graph : AliasGraph Var}

theorem Accepted.entries (accepted : Accepted function graph) (entry : Var × AliasOrigin Var) :
    entry ∈ graph ↔ function.Entry entry := by
  obtain ⟨fuel, built⟩ := accepted.built
  exact (built_entries List.nodup_nil (by simp) built).2 entry

/-- An entry is the only one of its variable. -/
theorem Accepted.origins_eq (accepted : Accepted function graph) {v : Var}
    {origin : AliasOrigin Var} (entry : function.Entry (v, origin)) :
    graph.origins v = [origin] := by
  have known := (accepted.entries _).mpr entry
  have member : origin ∈ graph.origins v := by
    rw [AliasGraph.origins, List.mem_map]
    exact ⟨(v, origin), by simpa using known, rfl⟩
  have few : ¬ 1 < (graph.origins v).length := by
    have none := List.any_eq_false.mp accepted.single _ known
    simpa using none
  match found : graph.origins v with
  | [] => simp [found] at member
  | [other] =>
      rw [found, List.mem_singleton] at member
      rw [member]
  | _ :: _ :: _ => simp [found] at few

theorem Accepted.eq_of_entries (accepted : Accepted function graph) {v : Var}
    {first second : AliasOrigin Var} (one : function.Entry (v, first))
    (other : function.Entry (v, second)) : first = second := by
  have same := (accepted.origins_eq one).symm.trans (accepted.origins_eq other)
  exact (List.cons.inj same).1

omit [DecidableEq Var] in
theorem entry_of_decl {decl : GridDeclaration Var Call} (member : decl ∈ function.vars) :
    function.Entry (decl.name, decl.origin) :=
  .inl ⟨decl, member, rfl⟩

end Origins

/-! ## The search -/

section Search

variable {function : GridFunction Var Call} {graph : AliasGraph Var}

/-- The first variable may be a copy of the second. -/
def GridFunction.Copies (function : GridFunction Var Call) (x y : Var) : Prop :=
  function.Entry (x, .var y)

/-- A search ends at a variable that is no copy, and follows copies. -/
theorem copies_of_search (accepted : Accepted function graph) {fuel : Nat} {v last : Var}
    {root : AliasOrigin Var} (found : search graph fuel v = some (.found last root)) :
    Relation.ReflTransGen function.Copies v last ∧ graph.origins last = [root] ∧
      ∀ w, root ≠ .var w := by
  induction fuel generalizing v with
  | zero => cases found
  | succ fuel induction =>
      rw [search] at found
      split at found
      · rename_i w single
        obtain ⟨copies, rest⟩ := induction found
        refine ⟨Relation.ReflTransGen.head ?_ copies, rest⟩
        have member : AliasOrigin.var w ∈ graph.origins v := by simp [single]
        rw [AliasGraph.origins, List.mem_map] at member
        obtain ⟨entry, filtered, second⟩ := member
        obtain ⟨known, first⟩ := List.mem_filter.mp filtered
        have whole : entry = (v, .var w) := Prod.ext (by simpa using first) second
        exact (accepted.entries _).mp (whole ▸ known)
      · rename_i origin notVar single
        obtain ⟨rfl, rfl⟩ := SearchEnd.found.inj (Option.some.inj found)
        exact ⟨.refl, single, fun w same => notVar w same⟩
      · cases found

/-- A variable that is its own origin is followed forever. -/
theorem search_of_self {v : Var} (self : graph.origins v = [.var v]) (fuel : Nat) :
    search graph fuel v = none := by
  induction fuel with
  | zero => rfl
  | succ fuel induction => simp only [search, self, induction]

/-- An initializer that is a variable is another one, which the function declares. -/
def GridFunction.ProperInitializers (function : GridFunction Var Call) : Prop :=
  ∀ decl ∈ function.vars, ∀ y, decl.initializer = some (.varRef y) →
    y ≠ decl.name ∧ y ∈ function.vars.map (·.name)

/-- The variable is a parameter, or declared with a grid that is no variable. -/
def GridFunction.Original (function : GridFunction Var Call) (v : Var)
    (root : AliasOrigin Var) : Prop :=
  ∃ decl ∈ function.vars, decl.name = v ∧
    (decl.isFuncParam = true ∧ root = .funcParam ∨
      (∃ rhs, decl.initializer = some rhs ∧ ∀ y, rhs ≠ .varRef y) ∧ root = .unknown)

/-- The copies of a function with proper initializers lead back in its text. -/
theorem search_terminates (accepted : Accepted function graph)
    (proper : function.ProperInitializers) {i : Nat} {decl : GridDeclaration Var Call}
    (position : function.vars[i]? = some decl) :
    ∃ fuel last root, search graph fuel decl.name = some (.found last root) ∧
      function.Original last root := by
  induction i using Nat.strong_induction_on generalizing decl with
  | _ i induction =>
      have member := List.mem_of_getElem? position
      have single := accepted.origins_eq (entry_of_decl member)
      match initializer : decl.initializer with
      | none =>
          by_cases param : decl.isFuncParam = true
          · have origin : decl.origin = .funcParam := by
              simp [GridDeclaration.origin, initializer, param]
            rw [origin] at single
            exact ⟨1, decl.name, .funcParam, by simp [search, single],
              decl, member, rfl, .inl ⟨param, rfl⟩⟩
          · have origin : decl.origin = .nullInit := by
              simp [GridDeclaration.origin, initializer, param]
            have known := (accepted.entries _).mpr (entry_of_decl member)
            have null := List.any_eq_false.mp accepted.initialized _ known
            exact absurd (by simp [origin]) null
      | some (.varRef y) =>
          obtain ⟨other, declared⟩ := proper decl member y initializer
          obtain ⟨source, sourceMember, rfl⟩ := List.mem_map.mp declared
          obtain ⟨j, below, at_⟩ := List.getElem_of_mem sourceMember
          have sourcePosition : function.vars[j]? = some source :=
            List.getElem?_eq_some_iff.mpr ⟨below, at_⟩
          have order := function.declared i j decl source position sourcePosition initializer
          have earlier : j < i := by
            refine lt_of_le_of_ne order fun same => other ?_
            rw [same, position] at sourcePosition
            rw [Option.some.inj sourcePosition]
          obtain ⟨fuel, last, root, found, original⟩ := induction j earlier sourcePosition
          have origin : decl.origin = .var source.name := by
            simp [GridDeclaration.origin, initializer]
          rw [origin] at single
          exact ⟨fuel + 1, last, root, by simpa only [search, single] using found, original⟩
      | some (.functionCall c) =>
          have origin : decl.origin = .unknown := by
            simp [GridDeclaration.origin, initializer]
          rw [origin] at single
          exact ⟨1, decl.name, .unknown, by simp [search, single],
            decl, member, rfl, .inr ⟨⟨_, initializer, by simp⟩, rfl⟩⟩
      | some .other =>
          have origin : decl.origin = .unknown := by
            simp [GridDeclaration.origin, initializer]
          rw [origin] at single
          exact ⟨1, decl.name, .unknown, by simp [search, single],
            decl, member, rfl, .inr ⟨⟨_, initializer, by simp⟩, rfl⟩⟩

end Search

/-! ## Executions -/

/-- The variables in scope, the last declared first, and the grids of all variables. -/
structure GridState (Var Grid : Type) where
  scope : List Var
  grid : Var → Grid

/--
The steps of a function: the control flow is left open, but a variable is only
used in its scope.  A variable of another function may have any grid.
-/
inductive GridStep (function : GridFunction Var Call) {Grid : Type} :
    GridState Var Grid → GridState Var Grid → Prop where
  | leave (s : GridState Var Grid) (count : Nat) :
      GridStep function s { s with scope := s.scope.drop count }
  | declare (s : GridState Var Grid) (decl : GridDeclaration Var Call) (value : Grid)
      (member : decl ∈ function.vars) (isLocal : decl.isFuncParam = false)
      (fresh : decl.name ∉ s.scope)
      (copied : ∀ y, decl.initializer = some (.varRef y) → y ≠ decl.name →
        y ∈ function.vars.map (·.name) → y ∈ s.scope ∧ value = s.grid y) :
      GridStep function s ⟨decl.name :: s.scope, Function.update s.grid decl.name value⟩
  | assign (s : GridState Var Grid) (asn : GridAssignOp Var Call) (rhs : Var) (value : Grid)
      (member : asn ∈ function.asns) (form : asn.rhs = .varRef rhs)
      (inScope : asn.lhs ∈ function.vars.map (·.name) → asn.lhs ∈ s.scope)
      (copied : rhs ∈ function.vars.map (·.name) → rhs ∈ s.scope ∧ value = s.grid rhs) :
      GridStep function s { s with grid := Function.update s.grid asn.lhs value }

/-- The function is called. -/
def GridFunction.start (function : GridFunction Var Call) {Grid : Type} (grid : Var → Grid) :
    GridState Var Grid where
  scope := (function.vars.filter (·.isFuncParam)).map (·.name)
  grid := grid

/-- Each copy in scope has its source below it, with the same grid. -/
structure CopiesHold (function : GridFunction Var Call) {Grid : Type}
    (s : GridState Var Grid) : Prop where
  distinct : s.scope.Nodup
  declared : ∀ x ∈ s.scope, x ∈ function.vars.map (·.name)
  copies : ∀ x rest, x :: rest <:+ s.scope → ∀ y, function.Copies x y →
    y ∈ rest ∧ s.grid x = s.grid y

section Executions

variable {function : GridFunction Var Call} {graph : AliasGraph Var} {Grid : Type}

/-- The source of a declared variable is its initializer. -/
theorem Accepted.initializer_of_copies (accepted : Accepted function graph)
    {decl : GridDeclaration Var Call} (member : decl ∈ function.vars) {y : Var}
    (copies : function.Copies decl.name y) : decl.initializer = some (.varRef y) := by
  have origin := accepted.eq_of_entries (entry_of_decl member) copies
  rw [GridDeclaration.origin] at origin
  split at origin
  · split at origin <;> cases origin
  · rename_i rhs initializer
    rw [initializer, AliasOrigin.var.inj origin]
  · cases origin

theorem copiesHold_start (accepted : Accepted function graph) (grid : Var → Grid) :
    CopiesHold function (function.start grid) where
  distinct := (function.names.sublist (List.filter_sublist.map _))
  declared := by
    intro x member
    obtain ⟨decl, filtered, rfl⟩ := List.mem_map.mp member
    exact List.mem_map_of_mem (List.mem_filter.mp filtered).1
  copies := by
    intro x rest suffix y copies
    have member : x ∈ (function.start grid).scope := suffix.subset List.mem_cons_self
    obtain ⟨decl, filtered, rfl⟩ := List.mem_map.mp member
    obtain ⟨declMember, param⟩ := List.mem_filter.mp filtered
    have initializer := accepted.initializer_of_copies declMember copies
    rw [function.params decl declMember param] at initializer
    cases initializer

/-- No step separates a copy from its source. -/
theorem copiesHold_step (accepted : Accepted function graph)
    (proper : function.ProperInitializers) {s t : GridState Var Grid}
    (holds : CopiesHold function s) (step : GridStep function s t) : CopiesHold function t := by
  cases step with
  | leave count =>
      have suffix := List.drop_suffix count s.scope
      exact ⟨holds.distinct.sublist suffix.sublist,
        fun x member => holds.declared x (suffix.subset member),
        fun x rest inner => holds.copies x rest (inner.trans suffix)⟩
  | declare decl value member isLocal fresh copied =>
      refine ⟨List.nodup_cons.mpr ⟨fresh, holds.distinct⟩, ?_, ?_⟩
      · intro x inScope
        rcases List.mem_cons.mp inScope with rfl | old
        · exact List.mem_map_of_mem member
        · exact holds.declared x old
      · intro x rest suffix y copies
        rcases List.suffix_cons_iff.mp suffix with whole | inner
        · obtain ⟨rfl, rfl⟩ := List.cons.inj whole
          have initializer := accepted.initializer_of_copies member copies
          obtain ⟨other, declared⟩ := proper decl member y initializer
          obtain ⟨inScope, same⟩ := copied y initializer other declared
          refine ⟨inScope, ?_⟩
          simp [Function.update_of_ne other, same]
        · obtain ⟨below, same⟩ := holds.copies x rest inner y copies
          have first : x ≠ decl.name := by
            rintro rfl
            exact fresh (inner.subset List.mem_cons_self)
          have second : y ≠ decl.name := by
            rintro rfl
            exact fresh (inner.subset (List.mem_cons_of_mem _ below))
          exact ⟨below, by simp [Function.update_of_ne first, Function.update_of_ne second, same]⟩
  | assign asn rhs value member form inScope copied =>
      by_cases declared : asn.lhs ∈ function.vars.map (·.name)
      · -- The assignment repeats the initializer, so it changes nothing.
        obtain ⟨decl, declMember, name⟩ := List.mem_map.mp declared
        have copies : function.Copies decl.name rhs :=
          .inr ⟨asn, member, rhs, form, by rw [name]⟩
        have initializer := accepted.initializer_of_copies declMember copies
        obtain ⟨-, rhsDeclared⟩ := proper decl declMember rhs initializer
        obtain ⟨before, after, split⟩ := List.append_of_mem (inScope declared)
        have suffix : asn.lhs :: after <:+ s.scope := ⟨before, split.symm⟩
        obtain ⟨-, same⟩ := holds.copies _ _ suffix rhs (name ▸ copies)
        have unchanged : Function.update s.grid asn.lhs value = s.grid := by
          rw [(copied rhsDeclared).2, ← same, Function.update_eq_self]
        rw [unchanged]
        exact holds
      · refine ⟨holds.distinct, holds.declared, ?_⟩
        intro x rest suffix y copies
        obtain ⟨below, same⟩ := holds.copies x rest suffix y copies
        have outside {z : Var} (inner : z ∈ s.scope) : z ≠ asn.lhs := by
          rintro rfl
          exact declared (holds.declared _ inner)
        refine ⟨below, ?_⟩
        simp only [Function.update_of_ne (outside (suffix.subset List.mem_cons_self)),
          Function.update_of_ne (outside (suffix.subset (List.mem_cons_of_mem _ below))), same]

omit [DecidableEq Var] in
/-- Along its copies a variable in scope keeps its grid. -/
theorem CopiesHold.same_grid {s : GridState Var Grid} (holds : CopiesHold function s)
    {x o : Var} (copies : Relation.ReflTransGen function.Copies x o) (inScope : x ∈ s.scope) :
    o ∈ s.scope ∧ s.grid x = s.grid o := by
  induction copies using Relation.ReflTransGen.head_induction_on with
  | refl => exact ⟨inScope, rfl⟩
  | head first _ induction =>
      obtain ⟨before, after, split⟩ := List.append_of_mem inScope
      obtain ⟨below, same⟩ := holds.copies _ _ ⟨before, split.symm⟩ _ first
      have sourceInScope : _ ∈ s.scope :=
        split ▸ List.mem_append_right _ (List.mem_cons_of_mem _ below)
      obtain ⟨found, rest⟩ := induction sourceInScope
      exact ⟨found, same.trans rest⟩

end Executions

/-! ## The original variable -/

/--
The search ends at a variable the function declares, from which the variable is
copied, and the two have the same grid in every state of every execution.
-/
structure Resolved (function : GridFunction Var Call) (graph : AliasGraph Var)
    (v last : Var) (root : AliasOrigin Var) : Prop where
  found : ∃ fuel, search graph fuel v = some (.found last root)
  original : function.Original last root
  copies : Relation.ReflTransGen function.Copies v last
  same : ∀ (Grid : Type) (grid : Var → Grid) (s : GridState Var Grid),
    Reaches (GridStep function) (function.start grid) s → v ∈ s.scope →
      last ∈ s.scope ∧ s.grid v = s.grid last

/--
The search resolves all grid variables of an accepted function exactly if no
initializer uses its own variable or one of another function.
-/
theorem resolved_iff {function : GridFunction Var Call} {graph : AliasGraph Var}
    (accepted : Accepted function graph) :
    (∀ v ∈ function.vars.map (·.name), ∃ last root, Resolved function graph v last root) ↔
      function.ProperInitializers := by
  constructor
  · intro resolved decl member y initializer
    have origin : decl.origin = .var y := by simp [GridDeclaration.origin, initializer]
    have single := accepted.origins_eq (entry_of_decl member)
    rw [origin] at single
    obtain ⟨last, root, ⟨fuel, found⟩, -, -, same⟩ :=
      resolved decl.name (List.mem_map_of_mem member)
    constructor
    · rintro rfl
      rw [search_of_self single] at found
      cases found
    · by_contra undeclared
      obtain ⟨-, lastOrigins, notVar⟩ := copies_of_search accepted found
      have distinct : last ≠ decl.name := by
        rintro rfl
        rw [single] at lastOrigins
        exact notVar y (List.cons.inj lastOrigins).1.symm
      have isLocal : decl.isFuncParam = false := by
        by_contra param
        rw [function.params decl member (by simpa using param)] at initializer
        cases initializer
      have fresh : decl.name ∉ (function.start fun _ => false).scope := by
        intro listed
        obtain ⟨other, filtered, name⟩ := List.mem_map.mp listed
        obtain ⟨otherMember, param⟩ := List.mem_filter.mp filtered
        have equal := List.inj_on_of_nodup_map function.names otherMember member name
        rw [equal, isLocal] at param
        cases param
      -- The other function's variable has a grid of its own.
      have step := GridStep.declare (function.start fun _ => false) decl true member isLocal fresh
        fun z same _ declared => absurd (by
          rw [initializer] at same
          cases same
          exact declared) undeclared
      obtain ⟨-, grids⟩ := same Bool _ _ (Relation.ReflTransGen.single step) List.mem_cons_self
      simp [Function.update_of_ne distinct, GridFunction.start] at grids
  · intro proper v declared
    obtain ⟨decl, member, rfl⟩ := List.mem_map.mp declared
    obtain ⟨i, below, at_⟩ := List.getElem_of_mem member
    obtain ⟨fuel, last, root, found, original⟩ :=
      search_terminates accepted proper (List.getElem?_eq_some_iff.mpr ⟨below, at_⟩)
    obtain ⟨copies, -⟩ := copies_of_search accepted found
    refine ⟨last, root, ⟨fuel, found⟩, original, copies, ?_⟩
    intro Grid grid s reached inScope
    have holds : CopiesHold function s :=
      reached.invariant (copiesHold_start accepted grid) fun before after holds step =>
        copiesHold_step accepted proper holds step
    exact holds.same_grid copies inScope

end Graph

/-- A parameter `g`, and `PSGrid h = g;` -/
def copiedParameter : GridFunction Nat Unit where
  vars := [⟨0, true, none⟩, ⟨1, false, some (.varRef 0)⟩]
  asns := [⟨1, .varRef 0⟩]
  names := by decide
  params := by simp
  declared := by
    intro i j decl source position sourcePosition initializer
    match i, position with
    | 0, position =>
        obtain rfl := Option.some.inj position
        cases initializer
    | 1, position =>
        obtain rfl := Option.some.inj position
        have name : source.name = 0 := by simpa using initializer.symm
        match j, sourcePosition with
        | 0, _ => exact Nat.zero_le _
        | 1, _ => exact le_rfl
        | _ + 2, sourcePosition => simp at sourcePosition
    | _ + 2, position => simp at position

theorem accepted_copiedParameter :
    Accepted copiedParameter [(0, .funcParam), (1, .var 0)] where
  built := ⟨2, rfl⟩
  single := by decide
  initialized := by decide

/-- A parameter and its copy are resolved. -/
theorem resolved_copiedParameter :
    (∃ last root, Resolved copiedParameter [(0, .funcParam), (1, .var 0)] 0 last root) ∧
      ∃ last root, Resolved copiedParameter [(0, .funcParam), (1, .var 0)] 1 last root := by
  have proper : copiedParameter.ProperInitializers := by
    intro decl member y initializer
    simp only [copiedParameter, List.mem_cons, List.not_mem_nil, or_false] at member
    rcases member with rfl | rfl
    · cases initializer
    · obtain rfl : y = 0 := by simpa using initializer.symm
      exact ⟨by decide, by decide⟩
  have resolved := (resolved_iff accepted_copiedParameter).mpr proper
  exact ⟨resolved 0 (by decide), resolved 1 (by decide)⟩

/-- `PSGrid g = g;` -/
def selfInitialized : GridFunction Nat Unit where
  vars := [⟨0, false, some (.varRef 0)⟩]
  asns := []
  names := by decide
  params := by simp
  declared := by
    intro i j decl source position sourcePosition _
    match i, j, position, sourcePosition with
    | 0, 0, _, _ => exact le_rfl
    | _ + 1, _, position, _ => simp at position
    | 0, _ + 1, _, sourcePosition => simp at sourcePosition

/-- The checks accept a variable that is initialized with itself; its search never ends. -/
theorem search_selfInitialized :
    Accepted selfInitialized [(0, .var 0)] ∧
      ∀ fuel, search [(0, .var 0)] fuel 0 = none :=
  ⟨⟨⟨2, rfl⟩, by decide, by decide⟩, search_of_self (by decide)⟩

end Physis.Translator
