import Physis.Runtime.GridUtil

/-!
# Subgrid copies of bytes

`CopyoutSubgrid` and `CopyinSubgrid` work on bytes, for elements of any size,
and advance a pointer through the subgrid.  A memory of bytes is seen as one of
elements, and on elements the loops are those of the element copies.
-/

namespace Physis.Runtime.Bytes

open Physis.Library
open Physis.Library.MachineIntegers
open Physis.Library.RowMajor

variable {β : Type}

/--
The last assertion: the pointer has come to the end of the subgrid, whose number
of elements is a product of `PSIndex` values.  Addresses have 64 bits.
-/
def AtEnd (elmSize numDims : Nat) (subgridSize : IndexArray) (pointer : Int) : Prop :=
  pointer ≡ IntegerArray.accumulatePSIndex subgridSize numDims * elmSize [ZMOD 2 ^ 64]

instance (elmSize numDims : Nat) (subgridSize : IndexArray) (pointer : Int) :
    Decidable (AtEnd elmSize numDims subgridSize pointer) :=
  inferInstanceAs (Decidable (_ % _ = _ % _))

/--
For a box that has addresses, the pointer behind its last element is where the
assertion expects it exactly if the number of elements fits its type.
-/
theorem atEnd_iff
    {elmSize numDims : Nat} {size : IndexArray} (nonneg : ∀ i < numDims, 0 ≤ size i)
    (addressable : IntegerArray.accumulate size numDims * elmSize < 2 ^ 63) :
    AtEnd elmSize numDims size (IntegerArray.accumulate size numDims * elmSize) ↔
      elmSize = 0 ∨ FitsSigned 32 (IntegerArray.accumulate size numDims) := by
  rw [AtEnd]
  rw [IntegerArray.accumulate_eq_volume] at addressable ⊢
  have volumeNonneg := volume_nonneg nonneg
  obtain ⟨_, lower, upper⟩ := IntegerArray.accumulatePSIndex_spec size numDims
  constructor
  · intro atEnd
    rcases Nat.eq_zero_or_pos elmSize with none | positive
    · exact .inl none
    · right
      by_contra large
      have beyond : 2 ^ 31 ≤ volume size numDims := by
        rw [FitsSigned] at large
        omega
      -- the counts differ, and by less than there are addresses
      have divides : (2 : Int) ^ 64 ∣ (volume size numDims -
          IntegerArray.accumulatePSIndex size numDims) * elmSize := by
        rw [sub_mul]
        exact atEnd.symm.dvd
      have apart : 0 < volume size numDims -
          IntegerArray.accumulatePSIndex size numDims := by
        omega
      have wide : (volume size numDims -
          IntegerArray.accumulatePSIndex size numDims) * elmSize ≤
            2 * volume size numDims * elmSize :=
        mul_le_mul_of_nonneg_right (by omega) (by omega)
      have zero := Int.eq_zero_of_dvd_of_nonneg_of_lt
        (mul_nonneg apart.le (Int.natCast_nonneg _)) (by linarith) divides
      rcases mul_eq_zero.mp zero with same | none
      · omega
      · omega
  · rintro (rfl | fits)
    · simp
    · rw [(IntegerArray.accumulatePSIndex_eq_iff size numDims).mpr fits]

/-- The copy loop of `CopyoutSubgrid`: the subgrid and the pointer after it. -/
def copyoutLines
    (elmSize numDims : Nat) (grid : Int → β) (gridSize subgridSize : IndexArray) :
    List IndexArray → (pointer : Int) → (subgrid : Int → β) → (Int → β) × Int
  | [], pointer, subgrid => (subgrid, pointer)
  | offset :: rest, pointer, subgrid =>
      let lineSize := (subgridSize 0).toNat * elmSize
      copyoutLines elmSize numDims grid gridSize subgridSize rest (pointer + lineSize)
        (memcpy subgrid pointer grid (get1DOffset offset gridSize numDims * elmSize)
          lineSize)

/-- `CopyoutSubgrid`: the subgrid after it; none where the last assertion fails. -/
def copyoutSubgrid
    (elmSize numDims : Nat) (grid : Int → β) (gridSize : IndexArray)
    (subgrid : Int → β) (subgridOffset subgridSize : IndexArray) : Option (Int → β) :=
  let (written, pointer) := copyoutLines elmSize numDims grid gridSize subgridSize
    (collectOffsets subgridSize (numDims - 1) [subgridOffset]) 0 subgrid
  if AtEnd elmSize numDims subgridSize pointer then some written else none

/-- The copy loop of `CopyinSubgrid`: the grid and the pointer after it. -/
def copyinLines
    (elmSize numDims : Nat) (gridSize : IndexArray) (subgrid : Int → β)
    (subgridSize : IndexArray) :
    List IndexArray → (pointer : Int) → (grid : Int → β) → (Int → β) × Int
  | [], pointer, grid => (grid, pointer)
  | offset :: rest, pointer, grid =>
      let lineSize := (subgridSize 0).toNat * elmSize
      copyinLines elmSize numDims gridSize subgrid subgridSize rest (pointer + lineSize)
        (memcpy grid (get1DOffset offset gridSize numDims * elmSize) subgrid pointer
          lineSize)

/-- `CopyinSubgrid`: the grid after it; none where the last assertion fails. -/
def copyinSubgrid
    (elmSize numDims : Nat) (grid : Int → β) (gridSize : IndexArray)
    (subgrid : Int → β) (subgridOffset subgridSize : IndexArray) : Option (Int → β) :=
  let (written, pointer) := copyinLines elmSize numDims gridSize subgrid subgridSize
    (collectOffsets subgridSize (numDims - 1) [subgridOffset]) 0 grid
  if AtEnd elmSize numDims subgridSize pointer then some written else none

/-! ## Bytes as elements -/

/-- The element at a position: its bytes. -/
def elements (elmSize : Nat) (memory : Int → β) : Int → Fin elmSize → β :=
  fun position byte => memory (position * elmSize + (byte : Nat))

/-- Every byte is one of an element, unless elements have no bytes. -/
theorem exists_element
    {elmSize : Nat} (positive : 0 < elmSize) (position : Int) :
    ∃ (element : Int) (byte : Fin elmSize), position = element * elmSize + (byte : Nat) := by
  have nonneg := Int.emod_nonneg position (show (elmSize : Int) ≠ 0 by omega)
  have bounded := Int.emod_lt_of_pos position (show (0 : Int) < elmSize by omega)
  refine ⟨position / elmSize, ⟨(position % elmSize).toNat, by omega⟩, ?_⟩
  rw [Int.toNat_of_nonneg nonneg, mul_comm, Int.mul_ediv_add_emod]

/-- A byte of an element lies in a run of elements exactly if the element does. -/
theorem byte_in_run
    {elmSize : Nat} (first position : Int) (length : Nat) (byte : Fin elmSize) :
    (first * elmSize ≤ position * elmSize + (byte : Nat) ∧
        position * elmSize + (byte : Nat) <
          first * elmSize + (length * elmSize : Nat)) ↔
      first ≤ position ∧ position < first + length := by
  have bounded : ((byte : Nat) : Int) < elmSize := by exact_mod_cast byte.isLt
  have nonneg : (0 : Int) ≤ (byte : Nat) := Int.natCast_nonneg _
  have positive : (0 : Int) < elmSize := by omega
  push_cast
  constructor
  · rintro ⟨lower, upper⟩
    constructor
    · have before : first * elmSize < (position + 1) * elmSize := by linarith
      have := lt_of_mul_lt_mul_right before positive.le
      omega
    · have before : position * elmSize < (first + length) * elmSize := by linarith
      exact lt_of_mul_lt_mul_right before positive.le
  · rintro ⟨lower, upper⟩
    have start := mul_le_mul_of_nonneg_right lower positive.le
    have stop := mul_le_mul_of_nonneg_right (show position + 1 ≤ first + length by omega)
      positive.le
    constructor <;> linarith

/-- Copying whole elements is the copy of elements. -/
theorem elements_memcpy
    (elmSize : Nat) (dst src : Int → β) (dstPos srcPos : Int) (length : Nat) :
    elements elmSize
        (memcpy dst (dstPos * elmSize) src (srcPos * elmSize) (length * elmSize)) =
      memcpy (elements elmSize dst) dstPos (elements elmSize src) srcPos length := by
  funext position byte
  simp only [elements, memcpy, byte_in_run]
  split
  · simp only [elements]
    congr 1
    ring
  · rfl

/-- Elements without bytes are not copied. -/
theorem memcpy_zero (dst src : Int → β) (dstPos srcPos : Int) :
    memcpy dst dstPos src srcPos 0 = dst := by
  funext position
  rw [memcpy, if_neg]
  simp

/-! ## The loops on elements -/

section Loops

variable {elmSize numDims : Nat} {gridSize subgridSize : IndexArray}

theorem copyoutLines_pointer
    (grid : Int → β) (offsets : List IndexArray) (pointer : Int) (subgrid : Int → β) :
    (copyoutLines elmSize numDims grid gridSize subgridSize offsets pointer
        subgrid).2 =
      pointer + (offsets.length * ((subgridSize 0).toNat * elmSize) : Nat) := by
  induction offsets generalizing pointer subgrid with
  | nil => simp [copyoutLines]
  | cons offset rest induction =>
      rw [copyoutLines, induction, List.length_cons]
      push_cast
      ring

theorem copyinLines_pointer
    (subgrid : Int → β) (offsets : List IndexArray) (pointer : Int) (grid : Int → β) :
    (copyinLines elmSize numDims gridSize subgrid subgridSize offsets pointer
        grid).2 =
      pointer + (offsets.length * ((subgridSize 0).toNat * elmSize) : Nat) := by
  induction offsets generalizing pointer grid with
  | nil => simp [copyinLines]
  | cons offset rest induction =>
      rw [copyinLines, induction, List.length_cons]
      push_cast
      ring

/-- The elements of the grid after the loop are those of the copy of elements. -/
theorem elements_copyinLines
    (subgrid : Int → β) (offsets : List IndexArray) (source : Int) (grid : Int → β) :
    elements elmSize (copyinLines elmSize numDims gridSize subgrid subgridSize offsets
        (source * elmSize) grid).1 =
      Runtime.copyinLines numDims gridSize subgridSize (elements elmSize subgrid)
        offsets source (elements elmSize grid) := by
  induction offsets generalizing source grid with
  | nil => rfl
  | cons offset rest induction =>
      have advanced : source * elmSize + ((subgridSize 0).toNat * elmSize : Nat) =
          (source + (subgridSize 0).toNat) * elmSize := by
        push_cast
        ring
      rw [copyinLines, Runtime.copyinLines, ← elements_memcpy, ← induction, advanced]

/-- The loop writes the listed elements from the pointer on, and nothing else. -/
theorem elements_copyoutLines
    (grid : Int → β) (offsets : List IndexArray) (first : Int) (subgrid : Int → β)
    (position : Int) :
    elements elmSize (copyoutLines elmSize numDims grid gridSize subgridSize offsets
        (first * elmSize) subgrid).1 position =
      if first ≤ position then
        ((offsets.flatMap (copyoutLine numDims (elements elmSize grid) gridSize
          subgridSize))[(position - first).toNat]?).getD
            (elements elmSize subgrid position)
      else elements elmSize subgrid position := by
  induction offsets generalizing first subgrid with
  | nil => simp [copyoutLines]
  | cons offset rest induction =>
      have advanced : first * elmSize + ((subgridSize 0).toNat * elmSize : Nat) =
          (first + (subgridSize 0).toNat) * elmSize := by
        push_cast
        ring
      have lineLength : (copyoutLine numDims (elements elmSize grid) gridSize
          subgridSize offset).length = (subgridSize 0).toNat := by
        simp [copyoutLine]
      simp only [copyoutLines, advanced]
      rw [induction, elements_memcpy, List.flatMap_cons]
      rcases lt_or_ge position first with before | from_
      · rw [if_neg (by omega), if_neg (by omega), memcpy, if_neg (by omega)]
      · rw [if_pos from_]
        rcases lt_or_ge position (first + (subgridSize 0).toNat) with inLine | later
        · rw [if_neg (by omega), memcpy, if_pos ⟨from_, inLine⟩,
            List.getElem?_append_left (by omega)]
          have number : (position - first).toNat < (subgridSize 0).toNat := by omega
          simp only [copyoutLine, List.getElem?_map, List.getElem?_range number,
            Option.map_some, Option.getD_some]
          congr 1
          omega
        · rw [if_pos later, memcpy, if_neg (by omega),
            List.getElem?_append_right (by omega), lineLength]
          congr 3
          omega

/-- Elements without bytes change nothing. -/
theorem copyoutLines_zero
    (grid : Int → β) (offsets : List IndexArray) (pointer : Int) (subgrid : Int → β) :
    (copyoutLines 0 numDims grid gridSize subgridSize offsets pointer subgrid).1 =
      subgrid := by
  induction offsets generalizing pointer with
  | nil => rfl
  | cons offset rest induction =>
      simp only [copyoutLines, Nat.mul_zero, memcpy_zero]
      exact induction _

theorem copyinLines_zero
    (subgrid : Int → β) (offsets : List IndexArray) (pointer : Int) (grid : Int → β) :
    (copyinLines 0 numDims gridSize subgrid subgridSize offsets pointer grid).1 =
      grid := by
  induction offsets generalizing pointer with
  | nil => rfl
  | cons offset rest induction =>
      simp only [copyinLines, Nat.mul_zero, memcpy_zero]
      exact induction _

end Loops

section Ends

variable
    {elmSize numDims : Nat} {gridSize subgridOffset subgridSize : IndexArray}
    {grid subgrid written : Int → β}

/-- Where the pointer is after all lines. -/
def linesEnd (elmSize numDims : Nat) (subgridOffset subgridSize : IndexArray) : Int :=
  ((collectOffsets subgridSize (numDims - 1) [subgridOffset]).length *
    ((subgridSize 0).toNat * elmSize) : Nat)

/-- A copy out ends if the last assertion holds. -/
theorem copyoutSubgrid_eq_some :
    copyoutSubgrid elmSize numDims grid gridSize subgrid subgridOffset subgridSize =
        some written ↔
      AtEnd elmSize numDims subgridSize
          (linesEnd elmSize numDims subgridOffset subgridSize) ∧
        (copyoutLines elmSize numDims grid gridSize subgridSize
          (collectOffsets subgridSize (numDims - 1) [subgridOffset]) 0 subgrid).1 =
            written := by
  simp only [copyoutSubgrid, copyoutLines_pointer, zero_add]
  rw [Option.ite_none_right_eq_some, Option.some.injEq]
  rfl

/-- A copy in ends if the last assertion holds. -/
theorem copyinSubgrid_eq_some :
    copyinSubgrid elmSize numDims grid gridSize subgrid subgridOffset subgridSize =
        some written ↔
      AtEnd elmSize numDims subgridSize
          (linesEnd elmSize numDims subgridOffset subgridSize) ∧
        (copyinLines elmSize numDims gridSize subgrid subgridSize
          (collectOffsets subgridSize (numDims - 1) [subgridOffset]) 0 grid).1 =
            written := by
  simp only [copyinSubgrid, copyinLines_pointer, zero_add]
  rw [Option.ite_none_right_eq_some, Option.some.injEq]
  rfl

end Ends

/-! ## Boxes -/

/-- A box with or without cells inside a grid. -/
structure BoxInside
    (numDims : Nat) (gridSize subgridOffset subgridSize : IndexArray) : Prop where
  positive : 0 < numDims
  nonneg : ∀ i < numDims, 0 ≤ subgridSize i
  inside : ∀ i < numDims,
    0 ≤ subgridOffset i ∧ subgridOffset i + subgridSize i ≤ gridSize i

namespace BoxInside

variable
    {elmSize numDims : Nat} {gridSize subgridOffset subgridSize : IndexArray}
    (box : BoxInside numDims gridSize subgridOffset subgridSize)

include box

/-- The lines hold as many elements as the box. -/
theorem linesEnd_eq :
    linesEnd elmSize numDims subgridOffset subgridSize =
      IntegerArray.accumulate subgridSize numDims * elmSize := by
  have length := length_copyoutSubgrid box.positive (id : Int → Int) gridSize
    subgridOffset box.nonneg
  have lines : ∀ offset, (copyoutLine numDims (id : Int → Int) gridSize subgridSize
      offset).length = (subgridSize 0).toNat := by
    intro offset
    simp [copyoutLine]
  have volumeNonneg : 0 ≤ IntegerArray.accumulate subgridSize numDims := by
    rw [IntegerArray.accumulate_eq_volume]
    exact volume_nonneg box.nonneg
  simp only [Runtime.copyoutSubgrid, List.length_flatMap, lines, List.map_const',
    List.sum_replicate, smul_eq_mul] at length
  rw [linesEnd, ← Nat.mul_assoc, length]
  push_cast
  rw [Int.toNat_of_nonneg volumeNonneg]

/-- The last assertion holds exactly if the number of elements fits its type. -/
theorem atEnd_linesEnd_iff
    (addressable : IntegerArray.accumulate subgridSize numDims * elmSize < 2 ^ 63) :
    AtEnd elmSize numDims subgridSize
        (linesEnd elmSize numDims subgridOffset subgridSize) ↔
      elmSize = 0 ∨ FitsSigned 32 (IntegerArray.accumulate subgridSize numDims) := by
  rw [box.linesEnd_eq]
  exact atEnd_iff box.nonneg addressable

variable {grid subgrid written : Int → β}

/-- The elements copied out are those of the box in row-major order. -/
theorem elements_copyout
    (copied : copyoutSubgrid elmSize numDims grid gridSize subgrid subgridOffset
      subgridSize = some written) :
    elements elmSize written = overwrite (elements elmSize subgrid)
      (boxList numDims subgridSize fun index =>
        elements elmSize grid (linear gridSize (subgridOffset + index) numDims)) := by
  obtain ⟨_, rfl⟩ := copyoutSubgrid_eq_some.mp copied
  funext position
  have loop := @elements_copyoutLines β elmSize numDims gridSize subgridSize grid
    (collectOffsets subgridSize (numDims - 1) [subgridOffset]) 0 subgrid position
  rw [zero_mul] at loop
  rw [loop, ← copyoutSubgrid_eq_boxList box.positive, sub_zero]
  rfl

omit box in
/-- The elements of the grid after a copy in are those of the copy of elements. -/
theorem elements_copyin
    (copied : copyinSubgrid elmSize numDims grid gridSize subgrid subgridOffset
      subgridSize = some written) :
    elements elmSize written =
      Runtime.copyinSubgrid numDims (elements elmSize grid) gridSize
        (elements elmSize subgrid) subgridOffset subgridSize := by
  obtain ⟨_, rfl⟩ := copyinSubgrid_eq_some.mp copied
  have loop := @elements_copyinLines β elmSize numDims gridSize subgridSize subgrid
    (collectOffsets subgridSize (numDims - 1) [subgridOffset]) 0 grid
  rw [zero_mul] at loop
  exact loop

/-- An element copied out is the one of the grid. -/
theorem copyout_element
    (copied : copyoutSubgrid elmSize numDims grid gridSize subgrid subgridOffset
      subgridSize = some written)
    {index : IndexArray} (member : InBox numDims subgridSize index) :
    elements elmSize written (linear subgridSize index numDims) =
      elements elmSize grid (linear gridSize (subgridOffset + index) numDims) := by
  rw [box.elements_copyout copied, overwrite, if_pos (linear_nonneg member),
    getElem?_boxList _ member, Option.getD_some]
  congr 1
  apply linear_congr fun _ _ => rfl
  intro i below
  simp [restrict, below]

/-- Nothing is written before the subgrid or from its linear size on. -/
theorem copyout_frame
    (copied : copyoutSubgrid elmSize numDims grid gridSize subgrid subgridOffset
      subgridSize = some written)
    {position : Int}
    (outside : ¬(0 ≤ position ∧
      position < IntegerArray.accumulate subgridSize numDims * elmSize)) :
    written position = subgrid position := by
  rcases Nat.eq_zero_or_pos elmSize with rfl | positive
  · obtain ⟨_, rfl⟩ := copyoutSubgrid_eq_some.mp copied
    rw [copyoutLines_zero]
  · obtain ⟨element, byte, rfl⟩ := exists_element positive position
    have volumeNonneg := volume_nonneg box.nonneg
    have beyond := byte_in_run 0 element (volume subgridSize numDims).toNat byte
    rw [IntegerArray.accumulate_eq_volume] at outside
    push_cast [Int.toNat_of_nonneg volumeNonneg] at beyond
    rw [zero_mul, zero_add, zero_add] at beyond
    rw [beyond] at outside
    have same : elements elmSize written element = elements elmSize subgrid element := by
      rw [box.elements_copyout copied, overwrite]
      split
      · rename_i lower
        rw [List.getElem?_eq_none, Option.getD_none]
        rw [length_boxList]
        have size := volume_eq_weight box.nonneg
        omega
      · rfl
    exact congrFun same byte

/-- An element of the box takes the subgrid's element. -/
theorem copyin_element
    (copied : copyinSubgrid elmSize numDims grid gridSize subgrid subgridOffset
      subgridSize = some written)
    {index : IndexArray} (member : InBox numDims subgridSize index) :
    elements elmSize written (linear gridSize (subgridOffset + index) numDims) =
      elements elmSize subgrid (linear subgridSize index numDims) := by
  rw [elements_copyin copied]
  exact copyinSubgrid_inside box.positive box.inside member

/-- Bytes outside the box are left as they were. -/
theorem copyin_frame
    (copied : copyinSubgrid elmSize numDims grid gridSize subgrid subgridOffset
      subgridSize = some written)
    {position : Int}
    (outside : ∀ index, InBox numDims subgridSize index → ∀ byte : Fin elmSize,
      position ≠
        linear gridSize (subgridOffset + index) numDims * elmSize + (byte : Nat)) :
    written position = grid position := by
  rcases Nat.eq_zero_or_pos elmSize with rfl | positive
  · obtain ⟨_, rfl⟩ := copyinSubgrid_eq_some.mp copied
    rw [copyinLines_zero]
  · obtain ⟨element, byte, rfl⟩ := exists_element positive position
    have same : elements elmSize written element = elements elmSize grid element := by
      rw [elements_copyin copied]
      apply copyinSubgrid_outside box.positive
      rintro index member rfl
      exact outside index member byte rfl
    exact congrFun same byte

/-- Copying in what was copied out changes nothing. -/
theorem copyin_copyout
    (copied : copyoutSubgrid elmSize numDims grid gridSize subgrid subgridOffset
      subgridSize = some written) :
    copyinSubgrid elmSize numDims grid gridSize written subgridOffset subgridSize =
      some grid := by
  obtain ⟨atEnd, _⟩ := copyoutSubgrid_eq_some.mp copied
  obtain ⟨back, restored⟩ : ∃ back, copyinSubgrid elmSize numDims grid gridSize written
      subgridOffset subgridSize = some back :=
    ⟨_, copyinSubgrid_eq_some.mpr ⟨atEnd, rfl⟩⟩
  rw [restored]
  congr 1
  funext position
  by_cases inBox : ∃ index, InBox numDims subgridSize index ∧ ∃ byte : Fin elmSize,
      position =
        linear gridSize (subgridOffset + index) numDims * elmSize + (byte : Nat)
  · obtain ⟨index, member, byte, rfl⟩ := inBox
    have same := (box.copyin_element restored member).trans
      (box.copyout_element copied member)
    exact congrFun same byte
  · apply box.copyin_frame restored
    intro index member byte equal
    exact inBox ⟨index, member, byte, equal⟩

/-- Copying out what was copied in returns the buffer. -/
theorem copyout_copyin
    (copied : copyinSubgrid elmSize numDims grid gridSize subgrid subgridOffset
      subgridSize = some written)
    {other back : Int → β}
    (copiedBack : copyoutSubgrid elmSize numDims written gridSize other subgridOffset
      subgridSize = some back)
    {position : Int}
    (inside : 0 ≤ position ∧
      position < IntegerArray.accumulate subgridSize numDims * elmSize) :
    back position = subgrid position := by
  have positive : 0 < elmSize := by
    rcases Nat.eq_zero_or_pos elmSize with rfl | positive
    · simp only [Nat.cast_zero, mul_zero] at inside
      omega
    · exact positive
  obtain ⟨element, byte, rfl⟩ := exists_element positive position
  have volumeNonneg := volume_nonneg box.nonneg
  have within := byte_in_run 0 element (volume subgridSize numDims).toNat byte
  rw [IntegerArray.accumulate_eq_volume] at inside
  push_cast [Int.toNat_of_nonneg volumeNonneg] at within
  rw [zero_mul, zero_add, zero_add] at within
  rw [within] at inside
  have listed :
      (boxList numDims subgridSize fun index =>
        elements elmSize written (linear gridSize (subgridOffset + index) numDims)) =
      (List.range (volume subgridSize numDims).toNat).map fun (number : Nat) =>
        elements elmSize subgrid number := by
    rw [← boxList_linear box.nonneg (elements elmSize subgrid)]
    apply boxList_congr fun _ _ => rfl
    intro index enumerated
    exact box.copyin_element copied enumerated.1
  have same : elements elmSize back element = elements elmSize subgrid element := by
    have bound : element.toNat < (volume subgridSize numDims).toNat := by omega
    rw [box.elements_copyout copiedBack, overwrite, if_pos inside.1, listed,
      List.getElem?_map, List.getElem?_range bound, Option.map_some, Option.getD_some,
      Int.toNat_of_nonneg inside.1]
  exact congrFun same byte

end BoxInside

/--
Both copies end normally.  The copy out writes the elements of the box in
row-major order and nothing beyond them, the copy in changes the elements of the
box only, and each undoes the other.
-/
def CopiesInverse
    (elmSize numDims : Nat) (gridSize subgridOffset subgridSize : IndexArray)
    (grid subgrid : Int → β) : Prop :=
  ∃ out inn,
    copyoutSubgrid elmSize numDims grid gridSize subgrid subgridOffset subgridSize =
      some out ∧
    copyinSubgrid elmSize numDims grid gridSize subgrid subgridOffset subgridSize =
      some inn ∧
    (∀ index, InBox numDims subgridSize index →
      elements elmSize out (linear subgridSize index numDims) =
        elements elmSize grid (linear gridSize (subgridOffset + index) numDims)) ∧
    (∀ position : Int, ¬(0 ≤ position ∧
        position < IntegerArray.accumulate subgridSize numDims * elmSize) →
      out position = subgrid position) ∧
    (∀ index, InBox numDims subgridSize index →
      elements elmSize inn (linear gridSize (subgridOffset + index) numDims) =
        elements elmSize subgrid (linear subgridSize index numDims)) ∧
    (∀ position : Int, (∀ index, InBox numDims subgridSize index →
        ∀ byte : Fin elmSize, position ≠
          linear gridSize (subgridOffset + index) numDims * elmSize + (byte : Nat)) →
      inn position = grid position) ∧
    copyinSubgrid elmSize numDims grid gridSize out subgridOffset subgridSize =
      some grid ∧
    ∀ other, ∃ back,
      copyoutSubgrid elmSize numDims inn gridSize other subgridOffset subgridSize =
        some back ∧
      ∀ position : Int, 0 ≤ position ∧
          position < IntegerArray.accumulate subgridSize numDims * elmSize →
        back position = subgrid position

/--
For a box inside the grid the copies are inverse exactly if the number of its
elements fits `PSIndex`, in which the last assertions compute it.
-/
theorem copiesInverse_iff
    (elmSize : Nat) {numDims : Nat} {gridSize subgridOffset subgridSize : IndexArray}
    (box : BoxInside numDims gridSize subgridOffset subgridSize)
    (addressable : IntegerArray.accumulate subgridSize numDims * elmSize < 2 ^ 63)
    (grid subgrid : Int → β) :
    CopiesInverse elmSize numDims gridSize subgridOffset subgridSize grid subgrid ↔
      elmSize = 0 ∨ FitsSigned 32 (IntegerArray.accumulate subgridSize numDims) := by
  constructor
  · rintro ⟨_, _, copiedOut, _⟩
    exact (box.atEnd_linesEnd_iff addressable).mp (copyoutSubgrid_eq_some.mp copiedOut).1
  · intro fits
    have atEnd := (box.atEnd_linesEnd_iff addressable).mpr fits
    obtain ⟨out, copiedOut⟩ : ∃ out, copyoutSubgrid elmSize numDims grid gridSize subgrid
        subgridOffset subgridSize = some out :=
      ⟨_, copyoutSubgrid_eq_some.mpr ⟨atEnd, rfl⟩⟩
    obtain ⟨inn, copiedIn⟩ : ∃ inn, copyinSubgrid elmSize numDims grid gridSize subgrid
        subgridOffset subgridSize = some inn :=
      ⟨_, copyinSubgrid_eq_some.mpr ⟨atEnd, rfl⟩⟩
    refine ⟨out, inn, copiedOut, copiedIn, ?_, ?_, ?_, ?_, box.copyin_copyout copiedOut, ?_⟩
    · intro index member
      exact box.copyout_element copiedOut member
    · intro position outside
      exact box.copyout_frame copiedOut outside
    · intro index member
      exact box.copyin_element copiedIn member
    · intro position outside
      exact box.copyin_frame copiedIn outside
    · intro other
      obtain ⟨back, copiedBack⟩ : ∃ back, copyoutSubgrid elmSize numDims inn gridSize other
          subgridOffset subgridSize = some back :=
        ⟨_, copyoutSubgrid_eq_some.mpr ⟨atEnd, rfl⟩⟩
      exact ⟨back, copiedBack, fun position inside =>
        box.copyout_copyin copiedIn copiedBack inside⟩

/-- A 2 × 2 box at the upper corner of a 3 × 4 grid. -/
theorem cornerBox :
    BoxInside 2 (IntegerArray.mk3 3 4 0) (IntegerArray.mk3 1 2 0)
      (IntegerArray.mk3 2 2 0) :=
  ⟨by decide, by decide, by decide⟩

theorem cornerBox_copies :
    CopiesInverse 4 2 (IntegerArray.mk3 3 4 0) (IntegerArray.mk3 1 2 0)
      (IntegerArray.mk3 2 2 0) (id : Int → Int) (fun _ => -1) :=
  (copiesInverse_iff 4 cornerBox (by decide) (id : Int → Int) fun _ => -1).mpr
    (.inr (by decide))

/-- The elements of a 46341 × 46341 box are more than `PSIndex` counts. -/
theorem largeBox_not_copies :
    ¬CopiesInverse 4 2 (IntegerArray.mk3 46341 46341 0) (fun _ => 0)
      (IntegerArray.mk3 46341 46341 0) (id : Int → Int) (fun _ => -1) := by
  have box : BoxInside 2 (IntegerArray.mk3 46341 46341 0) (fun _ => 0)
      (IntegerArray.mk3 46341 46341 0) :=
    ⟨by decide, by decide, by decide⟩
  rintro ⟨_, _, copiedOut, _⟩
  have fits := (box.atEnd_linesEnd_iff (by decide)).mp
    (copyoutSubgrid_eq_some.mp copiedOut).1
  exact absurd fits (by decide)

end Physis.Runtime.Bytes
