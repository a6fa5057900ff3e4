import Physis.Library.Runs
import Physis.Runtime.ArrayOrder

/-!
# Host buffers

A `BufferHost` keeps a chunk of memory with the shape it was allocated for.
`EnsureCapacity` compares linear sizes and keeps a chunk of another shape, while
the guard of a copy compares shapes, and that lexicographically.  The number of
elements is a product of `PSIndex` values, which wraps around and becomes a
`size_t`.  Accesses stay inside the chunk as long as none of this matters.
-/

namespace Physis.Runtime

open Physis.Library
open Physis.Library.MachineIntegers
open Physis.Library.Runs

namespace IntegerArray

/-- `operator<=` of `boost::array` -/
def lessEqual (left right : IndexArray) : Bool :=
  !less right left

/-- `operator==` with one number -/
def allEqual (array : IndexArray) (x : Int) : Bool :=
  (List.range psMaxDim).all fun i => decide (array i = x)

end IntegerArray

/-- A number of dimensions that an array has elements for -/
abbrev NumDims := {count : Nat // 0 < count ∧ count ≤ psMaxDim}

/-- `BufferHost`, with the size of its chunk in bytes if it has one -/
structure BufferHost where
  numDims : NumDims
  elmSize : Nat
  size : IndexArray
  buf : Option Nat

namespace BufferHost

/-- The constructor: no chunk yet. -/
def create (numDims : NumDims) (elmSize : Nat) : BufferHost where
  numDims := numDims
  elmSize := elmSize
  size := fun _ => 0
  buf := none

/-- `size.accumulate(num_dims)` as a `size_t` -/
def elements (numDims : NumDims) (s : IndexArray) : Nat :=
  (IntegerArray.accumulatePSIndex s numDims % 2 ^ 64).toNat

/-- The static `GetLinearSize`, a product of `size_t` values -/
def linearSize (numDims : NumDims) (elmSize : Nat) (s : IndexArray) : Nat :=
  elements numDims s * elmSize % 2 ^ 64

variable (buffer : BufferHost)

/-- `GetLinearSize` of a size -/
def getLinearSizeOf (s : IndexArray) : Nat :=
  linearSize buffer.numDims buffer.elmSize s

/-- `GetLinearSize` -/
def getLinearSize : Nat :=
  buffer.getLinearSizeOf buffer.size

/-- The bytes that may be accessed. -/
def capacity : Nat :=
  buffer.buf.getD 0

/--
`Allocate`; without elements the dimensions and the element size stay.  None
where `calloc` cannot succeed, as no chunk has 2⁶³ bytes.
-/
def allocate (numDims : NumDims) (elmSize : Nat) (size : IndexArray) : Option BufferHost :=
  if elements numDims size ≠ 0 then
    if elements numDims size * elmSize < 2 ^ 63 then
      some
        { numDims := numDims
          elmSize := elmSize
          size := size
          buf := some (elements numDims size * elmSize) }
    else none
  else some { buffer with size := size, buf := none }

/-- `EnsureCapacity` -/
def ensureCapacity (numDims : NumDims) (elmSize : Nat) (size : IndexArray) :
    Option BufferHost :=
  if linearSize numDims elmSize size ≤ buffer.getLinearSize then some buffer
  else buffer.allocate numDims elmSize size

/-- `EnsureCapacity` with the buffer's own dimensions and element size -/
def ensureSize (size : IndexArray) : Option BufferHost :=
  buffer.ensureCapacity buffer.numDims buffer.elmSize size

/-- The calls on a buffer. -/
inductive Call where
  | allocate (numDims : NumDims) (elmSize : Nat) (size : IndexArray)
  | ensureCapacity (numDims : NumDims) (elmSize : Nat) (size : IndexArray)
  | copyin (offset size : IndexArray)
  | copyout (offset size : IndexArray)
  | mpiRecv (offset size : IndexArray)
  | mpiSend (offset size : IndexArray)

/-- A byte count as the `int` of an MPI call; none where it is negative, an error. -/
def mpiCount (bytes : Nat) : Option Nat :=
  if 0 ≤ toSigned 32 bytes then some (toSigned 32 bytes).toNat else none

/-- `Copyin`, with the bytes it writes; none where it aborts. -/
def copyin (offset size : IndexArray) : Option (BufferHost × Nat) := do
  let ensured ← buffer.ensureSize fun i => offset i + size i
  if IntegerArray.allEqual offset 0 then some (ensured, ensured.getLinearSizeOf size)
  else none

/-- `Copyout`, with the bytes it reads; none where it aborts. -/
def copyout (offset s : IndexArray) : Option (BufferHost × Nat) :=
  if IntegerArray.lessEqual (fun i => offset i + s i) buffer.size then
    if IntegerArray.allEqual offset 0 then some (buffer, buffer.getLinearSizeOf s)
    else none
  else none

/-- `MPIRecv`, with the bytes it receives; one assertion is there with `PS_DEBUG` only. -/
def mpiRecv (psDebug : Bool) (offset size : IndexArray) : Option (BufferHost × Nat) := do
  let ensured ← buffer.ensureSize fun i => offset i + size i
  if IntegerArray.allEqual offset 0 then
    if psDebug = true ∧ ensured.getLinearSize < ensured.getLinearSizeOf size then none
    else (mpiCount (ensured.getLinearSizeOf size)).map (ensured, ·)
  else none

/-- `MPISend`, with the bytes it sends; none where it aborts. -/
def mpiSend (offset s : IndexArray) : Option (BufferHost × Nat) :=
  if IntegerArray.lessEqual (fun i => offset i + s i) buffer.size then
    if IntegerArray.allEqual offset 0 then
      (mpiCount (buffer.getLinearSizeOf s)).map (buffer, ·)
    else none
  else none

/-- A call, with the bytes it accesses from the chunk's start on. -/
def perform (psDebug : Bool) : Call → Option (BufferHost × Nat)
  | .allocate numDims elmSize size => (buffer.allocate numDims elmSize size).map (·, 0)
  | .ensureCapacity numDims elmSize size =>
      (buffer.ensureCapacity numDims elmSize size).map (·, 0)
  | .copyin offset size => buffer.copyin offset size
  | .copyout offset size => buffer.copyout offset size
  | .mpiRecv offset size => buffer.mpiRecv psDebug offset size
  | .mpiSend offset size => buffer.mpiSend offset size

/-- The operations on a size at offset zero. -/
def operationsOn (size : IndexArray) : List Call :=
  [.copyin (fun _ => 0) size, .copyout (fun _ => 0) size,
    .mpiRecv (fun _ => 0) size, .mpiSend (fun _ => 0) size]

/--
A call that does not abort stays inside the chunk, and after `EnsureCapacity`
no operation on that size at offset zero aborts.
-/
structure StaysInside (psDebug : Bool) (call : Call) : Prop where
  inside : ∀ after bytes, buffer.perform psDebug call = some (after, bytes) →
    bytes ≤ after.capacity
  ensured : ∀ numDims elmSize size, call = .ensureCapacity numDims elmSize size →
    ∀ after, buffer.ensureCapacity numDims elmSize size = some after →
      ∀ operation ∈ operationsOn size, after.perform psDebug operation ≠ none

/-! ## The condition on a call -/

/-- So many elements of this size have less than 2³¹ bytes, in machine integers. -/
def Small (numDims : NumDims) (elmSize : Nat) (size : IndexArray) : Prop :=
  elements numDims size * elmSize < 2 ^ 31

/-- In every dimension the extent is not negative and not above the other. -/
def Within (numDims : NumDims) (s size : IndexArray) : Prop :=
  ∀ i < numDims.val, 0 ≤ s i ∧ s i ≤ size i

/--
Shapes agree with what the code makes of them: an allocation without elements
has none in the dimensions of the buffer either, a chunk that is kept is for no
smaller shape in the order of the guards, and a shape that passes a guard at
offset zero is no greater in any dimension than one whose elements `PSIndex`
can count.
-/
def Agrees : Call → Prop
  | .allocate numDims _ size =>
      elements numDims size = 0 → elements buffer.numDims size = 0
  | .ensureCapacity numDims elmSize size =>
      Small numDims elmSize size ∧
        (linearSize numDims elmSize size ≤ buffer.getLinearSize →
          IntegerArray.lessEqual size buffer.size = true ∧
            Small buffer.numDims buffer.elmSize size)
  | .copyin _ _ => True
  | .mpiRecv _ _ => True
  | .copyout offset s | .mpiSend offset s =>
      IntegerArray.lessEqual (fun i => offset i + s i) buffer.size = true →
        IntegerArray.allEqual offset 0 = true →
          Within buffer.numDims s buffer.size ∧
            RowMajor.volume buffer.size buffer.numDims < 2 ^ 31

/-! ## Numbers of elements -/

section Elements

variable {numDims : NumDims} {elmSize : Nat} {s size : IndexArray}

theorem Small.linearSize_eq (small : Small numDims elmSize size) :
    linearSize numDims elmSize size = elements numDims size * elmSize := by
  rw [Small] at small
  exact Nat.mod_eq_of_lt (by omega)

/-- A count of less than 2³¹ bytes is exact. -/
theorem mpiCount_of_lt {bytes : Nat} (few : bytes < 2 ^ 31) :
    mpiCount bytes = some bytes := by
  have exact_ : toSigned 32 bytes = bytes :=
    (toSigned_eq_iff (by decide) _).mpr ⟨by omega, by exact_mod_cast few⟩
  rw [mpiCount, exact_, if_pos (Int.natCast_nonneg _), Int.toNat_natCast]

/-- A count never exceeds the number of bytes. -/
theorem le_of_mpiCount {bytes count : Nat} (counted : mpiCount bytes = some count) :
    count ≤ bytes := by
  rw [mpiCount] at counted
  split at counted
  · rename_i nonneg
    obtain rfl := Option.some.inj counted
    rcases Nat.lt_or_ge bytes (2 ^ 31) with few | many
    · have exact_ : toSigned 32 bytes = bytes :=
        (toSigned_eq_iff (by decide) _).mpr ⟨by omega, by exact_mod_cast few⟩
      rw [exact_, Int.toNat_natCast]
    · have below := (fits_toSigned (show 0 < 32 by decide) (bytes : Int)).2
      omega
  · cases counted

/-- Without wrap-around the number of elements is the volume. -/
theorem elements_eq
    (nonneg : 0 ≤ RowMajor.volume size numDims)
    (few : RowMajor.volume size numDims < 2 ^ 31) :
    (elements numDims size : Int) = RowMajor.volume size numDims := by
  have exact_ : IntegerArray.accumulatePSIndex size numDims =
      RowMajor.volume size numDims :=
    (IntegerArray.accumulatePSIndex_eq_iff size numDims).mpr ⟨by omega, few⟩
  rw [elements, exact_, Int.emod_eq_of_lt nonneg (by omega), Int.toNat_of_nonneg nonneg]

/-- A shape within another has no more elements. -/
theorem elements_le_of_within
    (within : Within numDims s size)
    (few : RowMajor.volume size numDims < 2 ^ 31) :
    elements numDims s ≤ elements numDims size := by
  have smaller : RowMajor.volume s numDims ≤ RowMajor.volume size numDims :=
    Finset.prod_le_prod (fun i member => (within i (Finset.mem_range.mp member)).1)
      fun i member => (within i (Finset.mem_range.mp member)).2
  have nonneg : 0 ≤ RowMajor.volume s numDims :=
    RowMajor.volume_nonneg fun i below => (within i below).1
  have counted := elements_eq nonneg (smaller.trans_lt few)
  have countedSize := elements_eq (nonneg.trans smaller) few
  omega

end Elements

/-! ## What the linear size promises -/

/-- The chunk has as many bytes as the shape has elements. -/
structure Honest : Prop where
  capacity : buffer.capacity = elements buffer.numDims buffer.size * buffer.elmSize
  bounded : elements buffer.numDims buffer.size * buffer.elmSize < 2 ^ 63

theorem elements_zero (numDims : NumDims) : elements numDims (fun _ => 0) = 0 := by
  have positive := numDims.property.1
  have volume : RowMajor.volume (fun _ => 0) numDims = 0 :=
    Finset.prod_eq_zero (Finset.mem_range.mpr positive) rfl
  have counted := @elements_eq numDims (fun _ => 0) volume.ge (by rw [volume]; decide)
  rw [volume] at counted
  exact_mod_cast counted

theorem create_honest (numDims : NumDims) (elmSize : Nat) :
    (create numDims elmSize).Honest := by
  have none : elements (create numDims elmSize).numDims (create numDims elmSize).size = 0 :=
    elements_zero numDims
  constructor
  · rw [none, Nat.zero_mul]
    rfl
  · rw [none, Nat.zero_mul]
    decide

variable {buffer}

/-- On an honest buffer the linear size is the size of the chunk. -/
theorem Honest.linearSize_eq (honest : buffer.Honest) :
    buffer.getLinearSize = buffer.capacity := by
  have bounded := honest.bounded
  rw [honest.capacity]
  exact Nat.mod_eq_of_lt (by omega)

/-- An allocation with elements makes a chunk of its shape. -/
theorem allocate_eq_some
    {numDims : NumDims} {elmSize : Nat} {size : IndexArray} {after : BufferHost}
    (elements : elements numDims size ≠ 0)
    (allocated : buffer.allocate numDims elmSize size = some after) :
    after.numDims = numDims ∧ after.elmSize = elmSize ∧ after.size = size ∧
      after.Honest := by
  rw [BufferHost.allocate, if_pos elements] at allocated
  split at allocated
  · rename_i bounded
    obtain rfl := Option.some.inj allocated
    exact ⟨rfl, rfl, rfl, rfl, bounded⟩
  · cases allocated

theorem Honest.allocate
    {numDims : NumDims} {elmSize : Nat} {size : IndexArray} {after : BufferHost}
    (agrees : buffer.Agrees (.allocate numDims elmSize size))
    (allocated : buffer.allocate numDims elmSize size = some after) : after.Honest := by
  by_cases none : BufferHost.elements numDims size = 0
  · rw [BufferHost.allocate, if_neg (not_not.mpr none)] at allocated
    obtain rfl := Option.some.inj allocated
    have own : BufferHost.elements buffer.numDims size = 0 := agrees none
    constructor
    · rw [own, Nat.zero_mul]
      rfl
    · rw [own, Nat.zero_mul]
      decide
  · exact (allocate_eq_some none allocated).2.2.2

/-- `EnsureCapacity` keeps a large chunk or makes one of the shape asked for. -/
theorem ensureCapacity_cases
    {numDims : NumDims} {elmSize : Nat} {size : IndexArray} {after : BufferHost}
    (ensured : buffer.ensureCapacity numDims elmSize size = some after) :
    (linearSize numDims elmSize size ≤ buffer.getLinearSize ∧ after = buffer) ∨
      (buffer.getLinearSize < linearSize numDims elmSize size ∧
        after.numDims = numDims ∧ after.elmSize = elmSize ∧ after.size = size ∧
          after.Honest) := by
  rw [ensureCapacity] at ensured
  split at ensured
  · rename_i large
    exact .inl ⟨large, (Option.some.inj ensured).symm⟩
  · rename_i small
    have some_ : elements numDims size ≠ 0 := by
      intro none
      rw [linearSize, none] at small
      simp at small
    exact .inr ⟨by omega, allocate_eq_some some_ ensured⟩

/-- After `EnsureCapacity` in its own dimensions a buffer is large enough. -/
theorem Honest.ensureSize
    (honest : buffer.Honest) {size : IndexArray} {after : BufferHost}
    (ensured : buffer.ensureSize size = some after) :
    after.Honest ∧ after.numDims = buffer.numDims ∧
      after.getLinearSizeOf size ≤ after.getLinearSize := by
  rcases ensureCapacity_cases ensured with
    ⟨large, rfl⟩ | ⟨_, sameDims, _, sameSize, kept⟩
  · exact ⟨honest, rfl, large⟩
  · exact ⟨kept, sameDims, by rw [getLinearSize, sameSize]⟩

theorem allEqual_iff (array : IndexArray) (x : Int) :
    IntegerArray.allEqual array x = true ↔ ∀ i < psMaxDim, array i = x := by
  simp [IntegerArray.allEqual]

theorem lessEqual_self (size : IndexArray) :
    IntegerArray.lessEqual size size = true := by
  rw [IntegerArray.lessEqual, Bool.not_eq_true', ← Bool.not_eq_true,
    IntegerArray.less_iff]
  rintro ⟨d, _, smaller, _⟩
  exact lt_irrefl _ smaller

/-- A small size can always be ensured. -/
theorem exists_ensureSize
    {size : IndexArray} (small : Small buffer.numDims buffer.elmSize size) :
    ∃ after, buffer.ensureSize size = some after ∧
      after.numDims = buffer.numDims ∧ after.elmSize = buffer.elmSize := by
  simp only [ensureSize, ensureCapacity]
  split
  · exact ⟨buffer, rfl, rfl, rfl⟩
  · rw [BufferHost.allocate]
    rw [Small] at small
    split
    · rw [if_pos (by omega)]
      exact ⟨_, rfl, rfl, rfl⟩
    · exact ⟨_, rfl, rfl, rfl⟩

/-- Operations on a small size at offset zero abort only if their guard fails. -/
theorem Honest.operationsOn_return
    (honest : buffer.Honest) {size : IndexArray}
    (guard : IntegerArray.lessEqual size buffer.size = true)
    (small : Small buffer.numDims buffer.elmSize size)
    (psDebug : Bool) {operation : Call} (member : operation ∈ operationsOn size) :
    buffer.perform psDebug operation ≠ none := by
  have origin : IntegerArray.allEqual (fun _ => 0) 0 = true := by decide
  have unmoved : (fun i => 0 + size i) = size := by
    funext i
    exact zero_add _
  obtain ⟨ensured, isEnsured, sameDims, sameElm⟩ := exists_ensureSize small
  have enough := (honest.ensureSize isEnsured).2.2
  have bytes : ∀ other : BufferHost, other.numDims = buffer.numDims →
      other.elmSize = buffer.elmSize → other.getLinearSizeOf size < 2 ^ 31 := by
    intro other dims elm
    rw [getLinearSizeOf, dims, elm, small.linearSize_eq]
    exact small
  simp only [operationsOn, List.mem_cons, List.not_mem_nil, or_false] at member
  rcases member with rfl | rfl | rfl | rfl
  · simp only [perform, copyin, unmoved, isEnsured, if_pos origin]
    exact Option.some_ne_none _
  · simp only [perform, copyout, unmoved, if_pos guard, if_pos origin]
    exact Option.some_ne_none _
  · simp only [perform, mpiRecv, unmoved, isEnsured, if_pos origin, Option.bind_eq_bind,
      Option.bind_some]
    rw [if_neg (by omega), mpiCount_of_lt (bytes _ sameDims sameElm)]
    exact Option.some_ne_none _
  · simp only [perform, mpiSend, unmoved, if_pos guard, if_pos origin]
    rw [mpiCount_of_lt (bytes _ rfl rfl)]
    exact Option.some_ne_none _

/-- What `Copyin` and `MPIRecv` access is inside the chunk they have ensured. -/
theorem Honest.received_inside
    (honest : buffer.Honest) {offset size : IndexArray} {ensured : BufferHost}
    (isEnsured : (buffer.ensureSize fun i => offset i + size i) = some ensured)
    (origin : IntegerArray.allEqual offset 0 = true) :
    ensured.Honest ∧ ensured.getLinearSizeOf size ≤ ensured.capacity := by
  obtain ⟨kept, sameDims, enough⟩ := honest.ensureSize isEnsured
  have unmoved : ensured.getLinearSizeOf size =
      ensured.getLinearSizeOf fun i => offset i + size i := by
    have product : ∀ len ≤ psMaxDim, IntegerArray.accumulatePSIndex size len =
        IntegerArray.accumulatePSIndex (fun i => offset i + size i) len := by
      intro len inside
      simp only [IntegerArray.accumulatePSIndex]
      apply List.foldl_ext
      intro v i member
      rw [(allEqual_iff offset 0).mp origin i
        ((List.mem_range.mp member).trans_le inside), zero_add]
    simp only [getLinearSizeOf, linearSize, elements,
      product _ ensured.numDims.property.2]
  rw [unmoved, ← kept.linearSize_eq]
  exact ⟨kept, enough⟩

/-- A shape within the buffer's has no more bytes than the chunk. -/
theorem Honest.within_inside
    (honest : buffer.Honest) {s : IndexArray} (within : Within buffer.numDims s buffer.size)
    (few : RowMajor.volume buffer.size buffer.numDims < 2 ^ 31) :
    buffer.getLinearSizeOf s ≤ buffer.capacity := by
  have bounded := honest.bounded
  have fewer := Nat.mul_le_mul_right buffer.elmSize (elements_le_of_within within few)
  rw [honest.capacity]
  exact (Nat.mod_le _ _).trans fewer

/-- A call that agrees leaves an honest buffer honest. -/
theorem Honest.perform
    (honest : buffer.Honest) {psDebug : Bool} {call : Call} (agrees : buffer.Agrees call)
    {after : BufferHost} {bytes : Nat}
    (performed : buffer.perform psDebug call = some (after, bytes)) :
    after.Honest ∧ bytes ≤ after.capacity := by
  cases call with
  | allocate numDims elmSize size =>
      obtain ⟨made, allocated, equal⟩ := Option.map_eq_some_iff.mp performed
      cases equal
      exact ⟨Honest.allocate agrees allocated, Nat.zero_le _⟩
  | ensureCapacity numDims elmSize size =>
      obtain ⟨made, ensured, equal⟩ := Option.map_eq_some_iff.mp performed
      cases equal
      rcases ensureCapacity_cases ensured with ⟨_, rfl⟩ | ⟨_, _, _, _, kept⟩
      · exact ⟨honest, Nat.zero_le _⟩
      · exact ⟨kept, Nat.zero_le _⟩
  | copyin offset size =>
      simp only [BufferHost.perform, copyin, Option.bind_eq_bind,
        Option.bind_eq_some_iff] at performed
      obtain ⟨ensured, isEnsured, performed⟩ := performed
      split at performed
      · rename_i origin
        cases performed
        exact honest.received_inside isEnsured origin
      · cases performed
  | mpiRecv offset size =>
      simp only [BufferHost.perform, mpiRecv, Option.bind_eq_bind,
        Option.bind_eq_some_iff] at performed
      obtain ⟨ensured, isEnsured, performed⟩ := performed
      split at performed
      · rename_i origin
        split at performed
        · cases performed
        · obtain ⟨count, counted, equal⟩ := Option.map_eq_some_iff.mp performed
          cases equal
          obtain ⟨kept, inside⟩ := honest.received_inside isEnsured origin
          exact ⟨kept, (le_of_mpiCount counted).trans inside⟩
      · cases performed
  | copyout offset s =>
      simp only [BufferHost.perform, copyout] at performed
      split at performed
      · rename_i guard
        split at performed
        · rename_i origin
          cases performed
          obtain ⟨within, few⟩ := agrees guard origin
          exact ⟨honest, honest.within_inside within few⟩
        · cases performed
      · cases performed
  | mpiSend offset s =>
      simp only [BufferHost.perform, mpiSend] at performed
      split at performed
      · rename_i guard
        split at performed
        · rename_i origin
          obtain ⟨count, counted, equal⟩ := Option.map_eq_some_iff.mp performed
          cases equal
          obtain ⟨within, few⟩ := agrees guard origin
          exact ⟨honest, (le_of_mpiCount counted).trans (honest.within_inside within few)⟩
        · cases performed
      · cases performed

/-- On an honest buffer a call that agrees stays inside. -/
theorem Honest.staysInside
    (honest : buffer.Honest) (psDebug : Bool) {call : Call}
    (agrees : buffer.Agrees call) : buffer.StaysInside psDebug call := by
  constructor
  · intro after bytes performed
    exact (honest.perform agrees performed).2
  · rintro numDims elmSize size rfl after ensured operation member
    obtain ⟨small, keeps⟩ := agrees
    rcases ensureCapacity_cases ensured with
      ⟨large, rfl⟩ | ⟨_, sameDims, sameElm, sameSize, kept⟩
    · obtain ⟨guard, ownSmall⟩ := keeps large
      exact honest.operationsOn_return guard ownSmall psDebug member
    · apply kept.operationsOn_return ?_ ?_ psDebug member
      · rw [sameSize]
        exact lessEqual_self size
      · rw [sameDims, sameElm]
        exact small

/-! ## Runs of calls -/

/-- A call that agrees and does not abort. -/
def AgreeingStep (psDebug : Bool) (before after : BufferHost) : Prop :=
  ∃ call bytes, before.Agrees call ∧ before.perform psDebug call = some (after, bytes)

/-- After calls that agree, every call that agrees stays inside. -/
theorem calls_stay_inside
    {psDebug : Bool} {numDims : NumDims} {elmSize : Nat} {state : BufferHost}
    (reached : Reaches (AgreeingStep psDebug) (create numDims elmSize) state)
    {call : Call} (agrees : state.Agrees call) : state.StaysInside psDebug call := by
  have honest : state.Honest :=
    reached.invariant (create_honest numDims elmSize)
      fun _ _ before ⟨_, _, stepAgrees, performed⟩ =>
        (before.perform stepAgrees performed).1
  exact honest.staysInside psDebug agrees

/-- A buffer of four by three elements. -/
def fourByThree : BufferHost where
  numDims := ⟨2, by decide⟩
  elmSize := 8
  size := IntegerArray.mk3 4 3 0
  buf := some 96

theorem fourByThree_allocated (psDebug : Bool) :
    (create ⟨2, by decide⟩ 8).perform psDebug
        (.allocate ⟨2, by decide⟩ 8 (IntegerArray.mk3 4 3 0)) =
      some (fourByThree, 0) := by
  rfl

theorem fourByThree_reached :
    Reaches (AgreeingStep false) (create ⟨2, by decide⟩ 8) fourByThree :=
  .single ⟨.allocate ⟨2, by decide⟩ 8 (IntegerArray.mk3 4 3 0), 0,
    fun zero => absurd zero (by decide), fourByThree_allocated false⟩

theorem fourByThree_copyout_inside :
    fourByThree.StaysInside false
      (.copyout (fun _ => 0) (IntegerArray.mk3 2 3 0)) :=
  calls_stay_inside fourByThree_reached fun _ _ =>
    ⟨show ∀ i < 2, _ by decide, by decide⟩

/--
A size with fewer elements that is greater in its first extent aborts after
`EnsureCapacity`, and one with more elements that is smaller there passes the guard.
-/
theorem fourByThree_not_inside :
    Reaches (fun before after => ∃ call bytes,
        before.perform false call = some (after, bytes))
      (create ⟨2, by decide⟩ 8) fourByThree ∧
    ¬fourByThree.StaysInside false
      (.ensureCapacity ⟨2, by decide⟩ 8 (IntegerArray.mk3 5 1 0)) ∧
    ¬fourByThree.StaysInside false
      (.copyout (fun _ => 0) (IntegerArray.mk3 1 100 0)) := by
  refine ⟨.single ⟨.allocate ⟨2, by decide⟩ 8 (IntegerArray.mk3 4 3 0), 0,
    fourByThree_allocated false⟩, ?_, ?_⟩
  · intro stays
    exact stays.ensured _ _ _ rfl fourByThree rfl
      (.copyout (fun _ => 0) (IntegerArray.mk3 5 1 0)) (by simp [operationsOn]) rfl
  · intro stays
    have inside := stays.inside fourByThree 800 rfl
    exact absurd inside (by decide)

end BufferHost

end Physis.Runtime
