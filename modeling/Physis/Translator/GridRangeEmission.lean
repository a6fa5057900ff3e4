import Physis.Library.MachineIntegers
import Physis.Runtime.IntegerArray
import Physis.Translator.StencilRange

/-!
# Emission of stencil ranges

`StencilRange::BuildPSGridRange` flattens the index lists of a range into the
slots of a `__PSGridRange`, and the emitter it calls writes one assignment for
each field.  The emitter takes the second slot of every pair from the first one,
which `BuildPSOffsets` does not.
-/

namespace Physis.Translator

open Physis.Library.MachineIntegers
open Physis.Runtime (psMaxDim)

/-- Which of the two lists of a dimension. -/
inductive Extreme where
  | min
  | max
deriving DecidableEq, Repr

/--
The fields of `__PSGridRange`: for the lists of every dimension their number of
pairs, and the slots of their array.
-/
inductive RangeField where
  | numDims
  | num (extreme : Extreme) (dim : Nat)
  | slot (extreme : Extreme) (dim position : Nat)
deriving DecidableEq, Repr

/-- `__PSGridRange` -/
abbrev GridRange := RangeField → Int

/-- The number of elements of `offsets` in `__PSOffsets`. -/
def offsetSlots : Nat := (psMaxDim * 2 + 1) * psMaxDim * 2

/-- The field lies in the arrays. -/
def RangeField.inArrays : RangeField → Bool
  | numDims => true
  | num _ dim => decide (dim < psMaxDim)
  | slot _ dim position => decide (dim < psMaxDim) && decide (position < offsetSlots)

/-- An emitted assignment of a literal to a field. -/
structure RangeAssign where
  field : RangeField
  value : Int
deriving DecidableEq, Repr

/-- Running the emitted assignments; `none` if one writes outside the arrays -/
def runAssigns : List RangeAssign → GridRange → Option GridRange
  | [], gr => some gr
  | stmt :: rest, gr =>
      if stmt.field.inArrays then runAssigns rest (Function.update gr stmt.field stmt.value)
      else none

/-! ## The emitters -/

/-- The assignments to one pair of slots: both take the value of the first. -/
def emitPair (v : GridRange) (extreme : Extreme) (dim j : Nat) : List RangeAssign :=
  [⟨.slot extreme dim (j * 2), v (.slot extreme dim (j * 2))⟩,
    ⟨.slot extreme dim (j * 2 + 1), v (.slot extreme dim (j * 2))⟩]

/-- The assignments to `min_offsets[dim]` or `max_offsets[dim]`. -/
def emitOffsets (v : GridRange) (extreme : Extreme) (dim : Nat) : List RangeAssign :=
  ⟨.num extreme dim, v (.num extreme dim)⟩ ::
    (List.range (v (.num extreme dim)).toNat).flatMap (emitPair v extreme dim)

/-- `BuildPSGridRange` -/
def buildPSGridRange (v : GridRange) : List RangeAssign :=
  ⟨.numDims, v .numDims⟩ ::
    (List.range (v .numDims).toNat).flatMap fun dim =>
      emitOffsets v .min dim ++ emitOffsets v .max dim

/-- The initialiser `BuildPSOffsets` emits for a list: every slot from its own. -/
def buildPSOffsets (v : GridRange) (extreme : Extreme) (dim : Nat) : List Int :=
  (List.range (v (.num extreme dim)).toNat).flatMap fun j =>
    [v (.slot extreme dim (j * 2)), v (.slot extreme dim (j * 2 + 1))]

namespace StencilRange

/-- The list of least or greatest indices of a dimension. -/
def indices (sr : StencilRange) : Extreme → Nat → StencilIndexList
  | .min => sr.minIndices
  | .max => sr.maxIndices

/-- The lists fit into the arrays. -/
def fits (sr : StencilRange) : Bool :=
  decide (sr.numDims ≤ psMaxDim) &&
    (List.range sr.numDims).all fun dim =>
      decide ((sr.indices .min dim).length * 2 ≤ offsetSlots) &&
        decide ((sr.indices .max dim).length * 2 ≤ offsetSlots)

/-- A slot of a list: the dimension of a pair, or in an odd slot its offset, as `PSIndex`. -/
def slotValue (list : StencilIndexList) (position : Nat) : Option Int :=
  list[position / 2]?.map fun si =>
    toSigned 32 (if position % 2 = 0 then si.dim else si.offset)

/--
The fields `StencilRange::BuildPSGridRange` fills, other slots are what they
were; `none` where it writes outside the arrays
-/
def toGridRange (sr : StencilRange) (gr : GridRange) : Option GridRange :=
  if sr.fits then
    some fun
      | .numDims => sr.numDims
      | .num extreme dim => (sr.indices extreme dim).length
      | .slot extreme dim position =>
          (slotValue (sr.indices extreme dim) position).getD (gr (.slot extreme dim position))
  else none

/-- What the emitted statements leave in a `__PSGridRange`. -/
def emitted (sr : StencilRange) (gr uninitialised : GridRange) : Option GridRange :=
  (sr.toGridRange gr).bind fun v => runAssigns (buildPSGridRange v) uninitialised

/-- The fields hold the pairs of the lists in their order, and the counts. -/
structure HoldsRange (sr : StencilRange) (gr : GridRange) : Prop where
  numDims : gr .numDims = sr.numDims
  num : ∀ dim < sr.numDims, ∀ extreme,
    gr (.num extreme dim) = (sr.indices extreme dim).length
  pairs : ∀ dim < sr.numDims, ∀ extreme j si, (sr.indices extreme dim)[j]? = some si →
    gr (.slot extreme dim (j * 2)) = si.dim ∧ gr (.slot extreme dim (j * 2 + 1)) = si.offset

/-- Whatever the structures held before, the emitted statements leave the range. -/
def ReproducesRange (sr : StencilRange) : Prop :=
  ∀ gr uninitialised, ∃ result,
    sr.emitted gr uninitialised = some result ∧ sr.HoldsRange result

end StencilRange

/-! ## Running assignments -/

theorem runAssigns_isSome {stmts : List RangeAssign} {gr : GridRange}
    (inside : ∀ stmt ∈ stmts, stmt.field.inArrays = true) :
    ∃ result, runAssigns stmts gr = some result := by
  induction stmts generalizing gr with
  | nil => exact ⟨gr, rfl⟩
  | cons stmt rest induction =>
      rw [runAssigns, if_pos (inside stmt List.mem_cons_self)]
      exact induction fun later member => inside later (List.mem_cons_of_mem _ member)

/-- A field nothing is assigned to keeps its value. -/
theorem runAssigns_other {stmts : List RangeAssign} {gr result : GridRange}
    (run : runAssigns stmts gr = some result) {field : RangeField}
    (other : ∀ stmt ∈ stmts, stmt.field ≠ field) : result field = gr field := by
  induction stmts generalizing gr with
  | nil => rw [← Option.some.inj run]
  | cons stmt rest induction =>
      rw [runAssigns] at run
      split at run
      · rw [induction run fun later member => other later (List.mem_cons_of_mem _ member),
          Function.update_of_ne (other stmt List.mem_cons_self).symm]
      · cases run

/-- A field all assignments agree on holds what they assign. -/
theorem runAssigns_assigned {stmts : List RangeAssign} {gr result : GridRange}
    (run : runAssigns stmts gr = some result) {field : RangeField} {value : Int}
    (assigned : ∃ stmt ∈ stmts, stmt.field = field)
    (agree : ∀ stmt ∈ stmts, stmt.field = field → stmt.value = value) :
    result field = value := by
  induction stmts generalizing gr with
  | nil =>
      obtain ⟨stmt, member, -⟩ := assigned
      cases member
  | cons stmt rest induction =>
      rw [runAssigns] at run
      split at run
      · by_cases later : ∃ stmt ∈ rest, stmt.field = field
        · exact induction run later fun stmt member =>
            agree stmt (List.mem_cons_of_mem _ member)
        · push Not at later
          obtain ⟨first, member, isField⟩ := assigned
          rcases List.mem_cons.mp member with rfl | inRest
          · rw [runAssigns_other run later, ← isField, Function.update_self]
            exact agree first List.mem_cons_self isField
          · exact absurd isField (later first inRest)
      · cases run

/-! ## What the emitter assigns -/

section Emission

variable {v : GridRange} {stmt : RangeAssign}

theorem mem_emitOffsets {extreme : Extreme} {dim : Nat} :
    stmt ∈ emitOffsets v extreme dim ↔
      stmt = ⟨.num extreme dim, v (.num extreme dim)⟩ ∨
        ∃ j < (v (.num extreme dim)).toNat,
          stmt = ⟨.slot extreme dim (j * 2), v (.slot extreme dim (j * 2))⟩ ∨
            stmt = ⟨.slot extreme dim (j * 2 + 1), v (.slot extreme dim (j * 2))⟩ := by
  simp [emitOffsets, emitPair]

theorem mem_buildPSGridRange :
    stmt ∈ buildPSGridRange v ↔
      stmt = ⟨.numDims, v .numDims⟩ ∨
        ∃ dim < (v .numDims).toNat, ∃ extreme, stmt ∈ emitOffsets v extreme dim := by
  simp only [buildPSGridRange, List.mem_cons, List.mem_flatMap, List.mem_range,
    List.mem_append]
  constructor
  · rintro (first | ⟨dim, below, least | greatest⟩)
    · exact .inl first
    · exact .inr ⟨dim, below, .min, least⟩
    · exact .inr ⟨dim, below, .max, greatest⟩
  · rintro (first | ⟨dim, below, extreme, member⟩)
    · exact .inl first
    · cases extreme with
      | min => exact .inr ⟨dim, below, .inl member⟩
      | max => exact .inr ⟨dim, below, .inr member⟩

/-- The value the emitter assigns to a field. -/
def assignedValue (v : GridRange) : RangeField → Int
  | .slot extreme dim position => v (.slot extreme dim (position / 2 * 2))
  | field => v field

theorem value_of_mem_buildPSGridRange (member : stmt ∈ buildPSGridRange v) :
    stmt.value = assignedValue v stmt.field := by
  rcases mem_buildPSGridRange.mp member with rfl | ⟨dim, -, extreme, inOffsets⟩
  · rfl
  · rcases mem_emitOffsets.mp inOffsets with rfl | ⟨j, -, rfl | rfl⟩
    · rfl
    · simp [assignedValue]
    · simp only [assignedValue]
      congr 3
      omega

/-- A field that is assigned holds its value after the run. -/
theorem run_buildPSGridRange {gr result : GridRange}
    (run : runAssigns (buildPSGridRange v) gr = some result) {field : RangeField}
    (assigned : ∃ stmt ∈ buildPSGridRange v, stmt.field = field) :
    result field = assignedValue v field :=
  runAssigns_assigned run assigned fun _ member isField =>
    isField ▸ value_of_mem_buildPSGridRange member

end Emission

namespace StencilRange

variable {sr : StencilRange}

theorem fits_iff :
    sr.fits = true ↔ sr.numDims ≤ psMaxDim ∧
      ∀ dim < sr.numDims, ∀ extreme, (sr.indices extreme dim).length * 2 ≤ offsetSlots := by
  simp only [fits, Bool.and_eq_true, decide_eq_true_eq, List.all_eq_true, List.mem_range]
  refine and_congr_right fun _ => forall_congr' fun dim => forall_congr' fun _ => ?_
  constructor
  · rintro ⟨least, greatest⟩ (_ | _)
    · exact least
    · exact greatest
  · exact fun both => ⟨both .min, both .max⟩

/-- The emitted statements stay in the arrays, and what they leave. -/
theorem emitted_eq (fit : sr.fits = true) (gr uninitialised : GridRange) :
    ∃ result, sr.emitted gr uninitialised = some result ∧
      result .numDims = sr.numDims ∧
      (∀ dim < sr.numDims, ∀ extreme,
        result (.num extreme dim) = (sr.indices extreme dim).length) ∧
      ∀ dim < sr.numDims, ∀ extreme j si, (sr.indices extreme dim)[j]? = some si →
        result (.slot extreme dim (j * 2)) = toSigned 32 si.dim ∧
          result (.slot extreme dim (j * 2 + 1)) = toSigned 32 si.dim := by
  obtain ⟨dims, lengths⟩ := fits_iff.mp fit
  obtain ⟨v, filled⟩ : ∃ v, sr.toGridRange gr = some v := ⟨_, if_pos fit⟩
  have fields := Option.some.inj ((if_pos fit).symm.trans filled)
  have count : v .numDims = sr.numDims := by rw [← fields]
  have num (extreme : Extreme) (dim : Nat) :
      v (.num extreme dim) = (sr.indices extreme dim).length := by rw [← fields]
  have inside : ∀ stmt ∈ buildPSGridRange v, stmt.field.inArrays = true := by
    intro stmt member
    rcases mem_buildPSGridRange.mp member with rfl | ⟨dim, below, extreme, inOffsets⟩
    · rfl
    · rw [count, Int.toNat_natCast] at below
      have short := lengths dim below extreme
      rcases mem_emitOffsets.mp inOffsets with rfl | ⟨j, within, rfl | rfl⟩
      · simp only [RangeField.inArrays, decide_eq_true_eq]
        omega
      · rw [num, Int.toNat_natCast] at within
        simp only [RangeField.inArrays, Bool.and_eq_true, decide_eq_true_eq]
        omega
      · rw [num, Int.toNat_natCast] at within
        simp only [RangeField.inArrays, Bool.and_eq_true, decide_eq_true_eq]
        omega
  obtain ⟨result, run⟩ : ∃ result, runAssigns (buildPSGridRange v) uninitialised = some result :=
    runAssigns_isSome inside
  refine ⟨result, by rw [emitted, filled, Option.bind_some, run], ?_, ?_, ?_⟩
  · rw [run_buildPSGridRange run ⟨_, mem_buildPSGridRange.mpr (.inl rfl), rfl⟩]
    exact count
  · intro dim below extreme
    rw [run_buildPSGridRange run ⟨_, mem_buildPSGridRange.mpr (.inr ⟨dim,
      by rwa [count, Int.toNat_natCast], extreme, mem_emitOffsets.mpr (.inl rfl)⟩), rfl⟩]
    exact num extreme dim
  · intro dim below extreme j si entry
    have within : j < (v (.num extreme dim)).toNat := by
      rw [num, Int.toNat_natCast]
      exact (List.getElem?_eq_some_iff.mp entry).1
    have slot : v (.slot extreme dim (j * 2)) = toSigned 32 si.dim := by
      rw [← fields]
      simp [slotValue, entry]
    have emits (stmt : RangeAssign)
        (pair : stmt = ⟨.slot extreme dim (j * 2), v (.slot extreme dim (j * 2))⟩ ∨
          stmt = ⟨.slot extreme dim (j * 2 + 1), v (.slot extreme dim (j * 2))⟩) :
        stmt ∈ buildPSGridRange v :=
      mem_buildPSGridRange.mpr (.inr ⟨dim, by rwa [count, Int.toNat_natCast], extreme,
        mem_emitOffsets.mpr (.inr ⟨j, within, pair⟩)⟩)
    constructor
    · rw [run_buildPSGridRange run ⟨_, emits _ (.inl rfl), rfl⟩, ← slot]
      simp [assignedValue]
    · rw [run_buildPSGridRange run ⟨_, emits _ (.inr rfl), rfl⟩, ← slot]
      simp only [assignedValue]
      congr 2
      omega

/--
The emitted structure holds the range exactly if the lists fit into the arrays
and every index has the offset that is also its dimension.
-/
theorem reproducesRange_iff (sr : StencilRange) :
    sr.ReproducesRange ↔
      sr.fits = true ∧
        ∀ dim < sr.numDims, ∀ extreme, ∀ si ∈ sr.indices extreme dim,
          FitsSigned 32 si.dim ∧ si.offset = si.dim := by
  constructor
  · intro reproduces
    have fit : sr.fits = true := by
      by_contra outside
      obtain ⟨result, run, -⟩ := reproduces (fun _ => 0) fun _ => 0
      rw [emitted, toGridRange, if_neg outside] at run
      cases run
    refine ⟨fit, fun dim below extreme si member => ?_⟩
    obtain ⟨j, within, rfl⟩ := List.mem_iff_getElem.mp member
    obtain ⟨result, run, -, -, slots⟩ := emitted_eq fit (fun _ => 0) fun _ => 0
    obtain ⟨same, run', holds⟩ := reproduces (fun _ => 0) fun _ => 0
    obtain rfl := Option.some.inj (run.symm.trans run')
    have left := slots dim below extreme j _ (List.getElem?_eq_getElem within)
    have right := holds.pairs dim below extreme j _ (List.getElem?_eq_getElem within)
    have kept := left.1.symm.trans right.1
    exact ⟨(toSigned_eq_iff (by decide) _).mp kept,
      right.2.symm.trans (left.2.trans kept)⟩
  · rintro ⟨fit, pairs⟩ gr uninitialised
    obtain ⟨result, run, count, num, slots⟩ := emitted_eq fit gr uninitialised
    refine ⟨result, run, count, num, fun dim below extreme j si entry => ?_⟩
    obtain ⟨small, same⟩ := pairs dim below extreme si (List.mem_of_getElem? entry)
    rw [(slots dim below extreme j si entry).1, (slots dim below extreme j si entry).2,
      (toSigned_eq_iff (by decide) _).mpr small]
    exact ⟨rfl, same.symm⟩

/-- The initialiser of `BuildPSOffsets` holds the pairs of every list. -/
theorem buildPSOffsets_eq {gr v : GridRange} (filled : sr.toGridRange gr = some v)
    (extreme : Extreme) (dim : Nat) :
    buildPSOffsets v extreme dim =
      (sr.indices extreme dim).flatMap fun si => [toSigned 32 si.dim, toSigned 32 si.offset] := by
  rw [toGridRange] at filled
  split at filled
  · obtain rfl := Option.some.inj filled
    rw [buildPSOffsets, Int.toNat_natCast, List.flatMap_def, List.flatMap_def]
    congr 1
    apply List.ext_getElem
    · simp
    · intro j within _
      have entry : j < (sr.indices extreme dim).length := by simpa using within
      have odd : (j * 2 + 1) / 2 = j := by omega
      simp [slotValue, entry, odd]
  · cases filled

/-! ## The ranges of accesses fit -/

theorem insertIndex_dims (better : Int → Int → Bool) (si : StencilIndex)
    (list : StencilIndexList) :
    (insertIndex better si list).map (·.dim) =
      if si.dim ∈ list.map (·.dim) then list.map (·.dim)
      else list.map (·.dim) ++ [si.dim] := by
  induction list with
  | nil => simp [insertIndex]
  | cons cur rest induction =>
      rw [insertIndex]
      by_cases same : cur.dim = si.dim
      · rw [if_pos same]
        split <;> simp [same]
      · rw [if_neg same, List.map_cons, induction]
        by_cases later : si.dim ∈ rest.map (·.dim)
        · simp [later]
        · simp [later, Ne.symm same]

/-- Different entries of a list have different index variables, three at most. -/
def VariesIn (list : StencilIndexList) : Prop :=
  (list.map (·.dim)).Nodup ∧ ∀ si ∈ list, -(psMaxDim : Int) ≤ si.dim ∧ si.dim ≤ psMaxDim

theorem VariesIn.insertIndex {list : StencilIndexList} (varies : VariesIn list)
    (better : Int → Int → Bool) {si : StencilIndex}
    (range : -(psMaxDim : Int) ≤ si.dim ∧ si.dim ≤ psMaxDim) :
    VariesIn (insertIndex better si list) := by
  refine ⟨?_, fun entry member => ?_⟩
  · rw [insertIndex_dims]
    split
    · exact varies.1
    · next fresh => exact varies.1.append (by simp) (by simpa using fresh)
  · rcases mem_insertIndex entry member with rfl | old
    · exact range
    · exact varies.2 entry old

theorem VariesIn.length_le {list : StencilIndexList} (varies : VariesIn list) :
    list.length ≤ psMaxDim * 2 + 1 := by
  have within : list.map (·.dim) ⊆ (List.range (psMaxDim * 2 + 1)).map fun (i : Nat) =>
      (i : Int) - psMaxDim := by
    intro dim member
    obtain ⟨si, inList, rfl⟩ := List.mem_map.mp member
    have range := varies.2 si inList
    refine List.mem_map.mpr ⟨(si.dim + psMaxDim).toNat, List.mem_range.mpr ?_, ?_⟩ <;> omega
  have short := (varies.1.subperm within).length_le
  simpa using short

theorem variesIn_insert {sr : StencilRange}
    (varies : ∀ extreme dim, VariesIn (sr.indices extreme dim)) {access : StencilIndexList}
    (range : ∀ si ∈ access, -(psMaxDim : Int) ≤ si.dim ∧ si.dim ≤ psMaxDim)
    (extreme : Extreme) (dim : Nat) : VariesIn ((sr.insert access).indices extreme dim) := by
  cases entry : access[dim]? with
  | none =>
      have kept := varies extreme dim
      cases extreme <;> simpa only [indices, StencilRange.insert, entry] using kept
  | some si =>
      have inRange := range si (List.mem_of_getElem? entry)
      cases extreme with
      | min =>
          simp only [indices, StencilRange.insert, entry]
          exact (varies .min dim).insertIndex _ inRange
      | max =>
          simp only [indices, StencilRange.insert, entry]
          exact (varies .max dim).insertIndex _ inRange

/-- Whatever accesses a kernel has, their range fits into the arrays. -/
theorem fits_ofAccesses {numDims : Nat} (dims : numDims ≤ psMaxDim)
    {accesses : List StencilIndexList}
    (range : ∀ access ∈ accesses, ∀ si ∈ access,
      -(psMaxDim : Int) ≤ si.dim ∧ si.dim ≤ psMaxDim) :
    (ofAccesses numDims accesses).fits = true := by
  have general : ∀ sr : StencilRange, (∀ extreme dim, VariesIn (sr.indices extreme dim)) →
      ∀ extreme dim, VariesIn ((accesses.foldl StencilRange.insert sr).indices extreme dim) := by
    induction accesses with
    | nil => exact fun _ varies => varies
    | cons access accesses induction =>
        exact fun sr varies =>
          induction (fun other member => range other (List.mem_cons_of_mem _ member))
            (sr.insert access) (variesIn_insert varies (range access List.mem_cons_self))
  have varies := general ⟨numDims, fun _ => [], fun _ => []⟩ fun extreme _ => by
    cases extreme <;> exact ⟨List.nodup_nil, by simp [indices]⟩
  refine fits_iff.mpr ⟨?_, fun dim _ extreme => ?_⟩
  · rw [numDims_ofAccesses]
    exact dims
  · have short : ((ofAccesses numDims accesses).indices extreme dim).length ≤
        psMaxDim * 2 + 1 := (varies extreme dim).length_le
    simp only [offsetSlots, psMaxDim] at short ⊢
    omega

/-- `g(x, y)` and `g(y, x)` in one kernel -/
def transposedAccesses : StencilRange :=
  ofAccesses 2 [[⟨1, 0⟩, ⟨2, 0⟩], [⟨2, 0⟩, ⟨1, 0⟩]]

/-- The offset of the first index comes out as its dimension. -/
theorem transposedAccesses_not_reproduced : ¬transposedAccesses.ReproducesRange := by
  intro reproduces
  have fit : transposedAccesses.fits = true := by decide
  obtain ⟨result, run, -, -, slots⟩ := emitted_eq fit (fun _ => 0) fun _ => 0
  obtain ⟨same, run', holds⟩ := reproduces (fun _ => 0) fun _ => 0
  obtain rfl := Option.some.inj (run.symm.trans run')
  have left := (slots 0 (by decide) .min 0 ⟨1, 0⟩ rfl).2
  have right := (holds.pairs 0 (by decide) .min 0 ⟨1, 0⟩ rfl).2
  rw [left] at right
  revert right
  decide

end StencilRange

end Physis.Translator
