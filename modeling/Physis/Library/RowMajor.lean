import Physis.Library.MixedRadix

/-!
# Boxes in row-major order

A box is a product of integer ranges starting at zero.  Its points are listed
with dimension zero running fastest, and the position of a point in that list
is the linearisation of its index.  A memory *reads* a function on a box when
the cell at each linearised index holds the function's value at the index.

Indices are functions on the natural numbers of which only the coordinates
below the number of dimensions matter.
-/

namespace Physis.Library.RowMajor

open Physis.Library

variable {α : Type} {count : Nat} {size otherSize : Nat → Int}

/-- The index lies in the box of the given size. -/
def InBox (count : Nat) (size index : Nat → Int) : Prop :=
  ∀ i < count, 0 ≤ index i ∧ index i < size i

/-- The number of cells of a box whose extents are not negative. -/
def volume (size : Nat → Int) (count : Nat) : Int :=
  ∏ i ∈ Finset.range count, size i

/-- The position of an index in the row-major listing of the box. -/
def linear (size index : Nat → Int) (count : Nat) : Int :=
  ∑ i ∈ Finset.range count, index i * volume size i

@[simp]
theorem volume_zero (size : Nat → Int) : volume size 0 = 1 := by
  simp [volume]

theorem volume_succ (size : Nat → Int) (count : Nat) :
    volume size (count + 1) = volume size count * size count := by
  simp [volume, Finset.prod_range_succ]

@[simp]
theorem linear_zero (size index : Nat → Int) : linear size index 0 = 0 := by
  simp [linear]

theorem linear_succ (size index : Nat → Int) (count : Nat) :
    linear size index (count + 1) =
      linear size index count + index count * volume size count := by
  simp [linear, Finset.sum_range_succ]

theorem InBox.lower
    {index : Nat → Int}
    (member : InBox (count + 1) size index) :
    InBox count size index :=
  fun i below => member i (Nat.lt_succ_of_lt below)

theorem InBox.congr
    {index otherIndex : Nat → Int}
    (sizeEq : ∀ i < count, size i = otherSize i)
    (indexEq : ∀ i < count, index i = otherIndex i)
    (member : InBox count size index) :
    InBox count otherSize otherIndex := by
  intro i below
  rw [← sizeEq i below, ← indexEq i below]
  exact member i below

theorem volume_congr
    (sizeEq : ∀ i < count, size i = otherSize i) :
    volume size count = volume otherSize count :=
  Finset.prod_congr rfl fun i member =>
    sizeEq i (Finset.mem_range.mp member)

theorem linear_congr
    {index otherIndex : Nat → Int}
    (sizeEq : ∀ i < count, size i = otherSize i)
    (indexEq : ∀ i < count, index i = otherIndex i) :
    linear size index count = linear otherSize otherIndex count := by
  apply Finset.sum_congr rfl
  intro i member
  have below : i < count := Finset.mem_range.mp member
  rw [indexEq i below,
    volume_congr fun j lower => sizeEq j (lower.trans below)]

theorem volume_nonneg
    (nonneg : ∀ i < count, 0 ≤ size i) :
    0 ≤ volume size count :=
  Finset.prod_nonneg fun i member =>
    nonneg i (Finset.mem_range.mp member)

theorem volume_pos
    (positive : ∀ i < count, 0 < size i) :
    0 < volume size count :=
  Finset.prod_pos fun i member =>
    positive i (Finset.mem_range.mp member)

/-- The first dimensions have no more cells than all. -/
theorem volume_le_volume
    (positive : ∀ i < count, 0 < size i) {dims : Nat} (within : dims ≤ count) :
    volume size dims ≤ volume size count := by
  induction within using Nat.decreasingInduction with
  | self => exact le_rfl
  | of_succ i less induction =>
      refine le_trans ?_ induction
      have stride := volume_pos fun j below => positive j (below.trans less)
      rw [volume_succ]
      exact le_mul_of_one_le_right stride.le (positive i less)

theorem volume_eq_weight
    (nonneg : ∀ i < count, 0 ≤ size i) :
    volume size count =
      (MixedRadix.weight (fun i => (size i).toNat) count : Nat) := by
  induction count with
  | zero => simp
  | succ count induction =>
      have top : 0 ≤ size count := nonneg count (Nat.lt_succ_self count)
      rw [volume_succ, MixedRadix.weight_succ,
        induction fun i below => nonneg i (Nat.lt_succ_of_lt below)]
      push_cast
      rw [Int.toNat_of_nonneg top]

/-- The linearisation of an index of the box is a mixed-radix numeral. -/
theorem linear_eq_value
    {index : Nat → Int}
    (member : InBox count size index) :
    linear size index count =
      (MixedRadix.value (fun i => (size i).toNat)
        (fun i => (index i).toNat) count : Nat) := by
  induction count with
  | zero => simp
  | succ count induction =>
      have top := member count (Nat.lt_succ_self count)
      have extents : ∀ i < count, 0 ≤ size i := by
        intro i below
        have bounds := member.lower i below
        omega
      rw [linear_succ, MixedRadix.value_succ, induction member.lower,
        volume_eq_weight extents]
      push_cast
      rw [Int.toNat_of_nonneg top.1]

theorem InBox.valid
    {index : Nat → Int}
    (member : InBox count size index) :
    MixedRadix.Valid (fun i => (size i).toNat)
      (fun i => (index i).toNat) count := by
  intro i below
  have bounds := member i below
  show (index i).toNat < (size i).toNat
  omega

theorem linear_nonneg
    {index : Nat → Int}
    (member : InBox count size index) :
    0 ≤ linear size index count := by
  rw [linear_eq_value member]
  exact Int.natCast_nonneg _

theorem linear_lt_volume
    {index : Nat → Int}
    (member : InBox count size index) :
    linear size index count < volume size count := by
  have extents : ∀ i < count, 0 ≤ size i := by
    intro i below
    have bounds := member i below
    omega
  rw [linear_eq_value member, volume_eq_weight extents]
  exact_mod_cast MixedRadix.value_lt member.valid

/-- Distinct indices of a box have distinct positions. -/
theorem eq_of_linear_eq
    {left right : Nat → Int}
    (leftMember : InBox count size left)
    (rightMember : InBox count size right)
    (equal : linear size left count = linear size right count) :
    ∀ i < count, left i = right i := by
  rw [linear_eq_value leftMember, linear_eq_value rightMember] at equal
  intro i below
  have digitEq :=
    MixedRadix.digits_eq_of_value_eq leftMember.valid rightMember.valid
      (by exact_mod_cast equal) i below
  have leftBounds := leftMember i below
  have rightBounds := rightMember i below
  omega

/-- The position of the last point. -/
theorem linear_last (size : Nat → Int) (count : Nat) :
    linear size (fun i => size i - 1) count = volume size count - 1 := by
  induction count with
  | zero => simp
  | succ count induction =>
      rw [linear_succ, volume_succ, induction]
      ring

/-- Moving along one dimension moves the position by multiples of its stride. -/
theorem linear_move
    {left right : Nat → Int} {moved : Nat}
    (inside : moved < count)
    (same : ∀ i < count, i ≠ moved → right i = left i) :
    linear size right count =
      linear size left count + volume size moved * (right moved - left moved) := by
  have difference :
      linear size right count - linear size left count =
        ∑ i ∈ Finset.range count, (right i - left i) * volume size i := by
    simp only [linear, ← Finset.sum_sub_distrib, sub_mul]
  have single :
      ∑ i ∈ Finset.range count, (right i - left i) * volume size i =
        (right moved - left moved) * volume size moved := by
    apply Finset.sum_eq_single_of_mem moved (Finset.mem_range.mpr inside)
    intro i member other
    rw [same i (Finset.mem_range.mp member) other, sub_self, zero_mul]
  linarith

/-- Moving up in some coordinates moves the position up. -/
theorem linear_lt_of_le
    {left right : Nat → Int}
    (positive : ∀ i < count, 0 < size i)
    (below : ∀ i < count, left i ≤ right i)
    {moved : Nat} (inside : moved < count) (strict : left moved < right moved) :
    linear size left count < linear size right count := by
  have strides : ∀ i < count, 0 < volume size i :=
    fun i less => volume_pos fun j before => positive j (before.trans less)
  apply Finset.sum_lt_sum
  · intro i member
    have less := Finset.mem_range.mp member
    exact mul_le_mul_of_nonneg_right (below i less) (strides i less).le
  · exact ⟨moved, Finset.mem_range.mpr inside,
      mul_lt_mul_of_pos_right strict (strides moved inside)⟩

/-! ## Listing a box -/

/-- The values of `point` over a box, dimension zero running fastest. -/
def boxList : (count : Nat) → (size : Nat → Int) → ((Nat → Int) → α) → List α
  | 0, _, point => [point fun _ => 0]
  | count + 1, size, point =>
      (List.range (size count).toNat).flatMap fun (top : Nat) =>
        boxList count size fun index =>
          point (Function.update index count (top : Int))

/-- A point of the box whose coordinates from `count` on are zero. -/
def Enumerated (count : Nat) (size index : Nat → Int) : Prop :=
  InBox count size index ∧ ∀ i, count ≤ i → index i = 0

theorem Enumerated.update
    {index : Nat → Int} {top : Nat}
    (member : Enumerated count size index)
    (below : top < (size count).toNat) :
    Enumerated (count + 1) size (Function.update index count top) := by
  constructor
  · intro i bound
    rcases Nat.lt_succ_iff_lt_or_eq.mp bound with lower | rfl
    · rw [Function.update_of_ne (Nat.ne_of_lt lower)]
      exact member.1 i lower
    · rw [Function.update_self]
      omega
  · intro i above
    rw [Function.update_of_ne (by omega)]
    exact member.2 i (by omega)

theorem boxList_congr
    {point otherPoint : (Nat → Int) → α}
    (sizeEq : ∀ i < count, size i = otherSize i)
    (pointEq : ∀ index, Enumerated count size index →
      point index = otherPoint index) :
    boxList count size point = boxList count otherSize otherPoint := by
  induction count generalizing point otherPoint with
  | zero =>
      simp only [boxList]
      rw [pointEq _ ⟨fun i below => absurd below (Nat.not_lt_zero i), fun _ _ => rfl⟩]
  | succ count induction =>
      simp only [boxList]
      rw [← sizeEq count (Nat.lt_succ_self count)]
      apply List.flatMap_congr
      intro top member
      apply induction
        (fun i below => sizeEq i (Nat.lt_succ_of_lt below))
      intro index inner
      exact pointEq _ (inner.update (List.mem_range.mp member))

/-- The listed values are those at the enumerated points. -/
theorem mem_boxList
    {point : (Nat → Int) → α} {value : α} :
    value ∈ boxList count size point ↔
      ∃ index, Enumerated count size index ∧ point index = value := by
  induction count generalizing point with
  | zero =>
      constructor
      · intro member
        have equal : value = point fun _ => 0 := by
          simpa [boxList] using member
        exact ⟨fun _ => 0,
          ⟨fun i below => absurd below (Nat.not_lt_zero i), fun _ _ => rfl⟩,
          equal.symm⟩
      · rintro ⟨index, enumerated, rfl⟩
        have zero : index = fun _ => 0 :=
          funext fun i => enumerated.2 i (Nat.zero_le i)
        simp [boxList, zero]
  | succ count induction =>
      simp only [boxList, List.mem_flatMap, List.mem_range]
      constructor
      · rintro ⟨top, below, member⟩
        obtain ⟨index, enumerated, rfl⟩ := induction.mp member
        exact ⟨_, enumerated.update below, rfl⟩
      · rintro ⟨index, enumerated, rfl⟩
        have bounds := enumerated.1 count (Nat.lt_succ_self count)
        refine ⟨(index count).toNat, by omega, induction.mpr
          ⟨Function.update index count 0, ⟨?_, ?_⟩, ?_⟩⟩
        · exact enumerated.1.lower.congr (fun _ _ => rfl) fun i below =>
            (Function.update_of_ne (Nat.ne_of_lt below) _ _).symm
        · intro i above
          rcases Nat.eq_or_lt_of_le above with rfl | higher
          · exact Function.update_self _ _ _
          · rw [Function.update_of_ne (Nat.ne_of_gt higher)]
            exact enumerated.2 i higher
        · congr 1
          rw [Function.update_idem, Int.toNat_of_nonneg bounds.1,
            Function.update_eq_self]

/-- A function that separates the enumerated points is listed without repeats. -/
theorem nodup_boxList
    {point : (Nat → Int) → α}
    (separates : ∀ left right,
      Enumerated count size left → Enumerated count size right →
        point left = point right → left = right) :
    (boxList count size point).Nodup := by
  induction count generalizing point with
  | zero => simp [boxList]
  | succ count induction =>
      simp only [boxList]
      rw [List.nodup_flatMap]
      constructor
      · intro top member
        apply induction
        intro left right leftMember rightMember equal
        have below := List.mem_range.mp member
        have same := separates _ _
          (leftMember.update below) (rightMember.update below) equal
        funext i
        by_cases top : i = count
        · subst i
          rw [leftMember.2 count le_rfl, rightMember.2 count le_rfl]
        · have coordinate := congrFun same i
          rwa [Function.update_of_ne top, Function.update_of_ne top] at coordinate
      · apply List.nodup_range.imp_of_mem
        intro first second firstMember secondMember different value inFirst inSecond
        obtain ⟨left, leftMember, leftEq⟩ := mem_boxList.mp inFirst
        obtain ⟨right, rightMember, rightEq⟩ := mem_boxList.mp inSecond
        have same := separates _ _
          (leftMember.update (List.mem_range.mp firstMember))
          (rightMember.update (List.mem_range.mp secondMember))
          (leftEq.trans rightEq.symm)
        have tops := congrFun same count
        rw [Function.update_self, Function.update_self] at tops
        exact different (by exact_mod_cast tops)

theorem length_boxList
    (point : (Nat → Int) → α) :
    (boxList count size point).length =
      MixedRadix.weight (fun i => (size i).toNat) count := by
  induction count generalizing point with
  | zero => simp [boxList]
  | succ count induction =>
      simp only [boxList, List.length_flatMap, induction]
      rw [MixedRadix.weight_succ]
      simp [Nat.mul_comm]

/-- Indexing a concatenation of rows of one length. -/
theorem getElem?_flatMap_range
    {row : Nat → List α} {rows length : Nat}
    (lengthEq : ∀ i < rows, (row i).length = length)
    {quotient remainder : Nat}
    (quotientBelow : quotient < rows)
    (remainderBelow : remainder < length) :
    ((List.range rows).flatMap row)[remainder + quotient * length]? =
      (row quotient)[remainder]? := by
  induction rows with
  | zero => omega
  | succ rows induction =>
      have earlier : ((List.range rows).flatMap row).length = rows * length := by
        rw [List.length_flatMap]
        have constant :
            (List.range rows).map (fun i => (row i).length) =
              (List.range rows).map fun _ => length := by
          apply List.map_congr_left
          intro i member
          exact lengthEq i (Nat.lt_succ_of_lt (List.mem_range.mp member))
        rw [constant]
        simp
      rw [List.range_succ, List.flatMap_append]
      rcases Nat.lt_succ_iff_lt_or_eq.mp quotientBelow with lower | rfl
      · have inside : remainder + quotient * length < rows * length := by
          calc remainder + quotient * length
              < length + quotient * length := by omega
            _ = (quotient + 1) * length := by ring
            _ ≤ rows * length := Nat.mul_le_mul_right _ lower
        rw [List.getElem?_append_left (by rw [earlier]; exact inside)]
        exact induction
          (fun i below => lengthEq i (Nat.lt_succ_of_lt below)) lower
      · rw [List.getElem?_append_right (by rw [earlier]; omega), earlier]
        simp

/-- The coordinates from `count` on are forgotten. -/
def restrict (count : Nat) (index : Nat → Int) : Nat → Int :=
  fun i => if i < count then index i else 0

theorem restrict_succ (count : Nat) (index : Nat → Int) :
    restrict (count + 1) index =
      Function.update (restrict count index) count (index count) := by
  funext i
  by_cases same : i = count
  · subst i
    simp [restrict]
  · have shifted : i < count + 1 ↔ i < count := by omega
    simp [restrict, same, shifted]

/-- A box list holds the value of an index at its linearised position. -/
theorem getElem?_boxList
    {index : Nat → Int}
    (point : (Nat → Int) → α)
    (member : InBox count size index) :
    (boxList count size point)[(linear size index count).toNat]? =
      some (point (restrict count index)) := by
  rw [linear_eq_value member, Int.toNat_natCast]
  induction count generalizing point with
  | zero =>
      have empty : restrict 0 index = fun _ => 0 := by
        funext i
        simp [restrict]
      simp [boxList, empty]
  | succ count induction =>
      have top := member count (Nat.lt_succ_self count)
      simp only [boxList]
      rw [MixedRadix.value_succ,
        getElem?_flatMap_range
          (fun _ _ => length_boxList _)
          (by omega) (MixedRadix.value_lt member.lower.valid),
        induction _ member.lower, restrict_succ,
        Int.toNat_of_nonneg top.1]

theorem map_boxList
    {β : Type} (image : α → β) (point : (Nat → Int) → α) :
    (boxList count size point).map image =
      boxList count size fun index => image (point index) := by
  induction count generalizing point with
  | zero => simp [boxList]
  | succ count induction =>
      simp only [boxList, List.map_flatMap, induction]

/-- A range of rows of one length is the range of all positions. -/
theorem flatMap_range_rows
    (image : Nat → α) (rows length : Nat) :
    ((List.range rows).flatMap fun row =>
        (List.range length).map fun position => image (position + row * length)) =
      (List.range (rows * length)).map image := by
  induction rows with
  | zero => simp
  | succ rows induction =>
      rw [List.range_succ, List.flatMap_append, induction, Nat.succ_mul,
        List.range_add, List.map_append, List.map_map]
      simp [Function.comp_def, Nat.add_comm]

/-- Listing a function of the position lists the positions in order. -/
theorem boxList_linear
    (nonneg : ∀ i < count, 0 ≤ size i) (image : Int → α) :
    (boxList count size fun index => image (linear size index count)) =
      (List.range (volume size count).toNat).map fun (position : Nat) =>
        image position := by
  induction count generalizing image with
  | zero => simp [boxList]
  | succ count induction =>
      have lower : ∀ i < count, 0 ≤ size i :=
        fun i below => nonneg i (Nat.lt_succ_of_lt below)
      have volumeNonneg := volume_nonneg lower
      have split : (volume size (count + 1)).toNat =
          (size count).toNat * (volume size count).toNat := by
        rw [volume_succ, Int.toNat_mul volumeNonneg
          (nonneg count (Nat.lt_succ_self count)), Nat.mul_comm]
      rw [split, ← flatMap_range_rows, boxList]
      apply List.flatMap_congr
      intro top _
      have shifted := induction lower fun position =>
        image (position + top * volume size count)
      have rowEq :
          (boxList count size fun index =>
            image (linear size (Function.update index count (top : Int)) (count + 1))) =
            boxList count size fun index =>
              image (linear size index count + top * volume size count) := by
        apply boxList_congr fun _ _ => rfl
        intro index _
        rw [linear_succ, Function.update_self]
        congr 2
        exact linear_congr (fun _ _ => rfl) fun i below =>
          Function.update_of_ne (Nat.ne_of_lt below) _ _
      rw [rowEq, shifted]
      apply List.map_congr_left
      intro position _
      congr 1
      push_cast
      rw [Int.toNat_of_nonneg volumeNonneg]

/-- A box splits into two along its last dimension. -/
theorem boxList_append
    {lower upper : Int}
    (lowerNonneg : 0 ≤ lower) (upperNonneg : 0 ≤ upper)
    (point : (Nat → Int) → α) :
    boxList (count + 1) (Function.update size count (lower + upper)) point =
      boxList (count + 1) (Function.update size count lower) point ++
        boxList (count + 1) (Function.update size count upper) fun index =>
          point (Function.update index count (index count + lower)) := by
  have below : ∀ extent, ∀ i < count,
      Function.update size count extent i = size i := by
    intro extent i less
    exact Function.update_of_ne (Nat.ne_of_lt less) _ _
  have inner : ∀ extent (other : (Nat → Int) → α),
      boxList count (Function.update size count extent) other =
        boxList count size other := by
    intro extent other
    exact boxList_congr (below extent) fun _ _ => rfl
  simp only [boxList, inner, Function.update_self]
  rw [Int.toNat_add lowerNonneg upperNonneg, List.range_add,
    List.flatMap_append, List.flatMap_map]
  congr 1
  apply List.flatMap_congr
  intro top _
  apply boxList_congr fun _ _ => rfl
  intro index _
  have shifted :
      ((lower.toNat + top : Nat) : Int) = (top : Int) + lower := by
    omega
  simp [shifted]

/-! ## Memories read through a base pointer -/

/-- The memory holds `view` on the box laid out from its base. -/
def Reads
    (count : Nat) (memory : Int → α) (size : Nat → Int)
    (view : (Nat → Int) → α) : Prop :=
  ∀ index, InBox count size index →
    memory (linear size index count) = view index

/-- Only the coordinates below `count` matter to the function. -/
def Depends (count : Nat) (view : (Nat → Int) → α) : Prop :=
  ∀ left right, (∀ i < count, left i = right i) → view left = view right

/-- The memory after a run of cells is written from its base on. -/
def overwrite (memory : Int → α) (cells : List α) : Int → α :=
  fun position =>
    if 0 ≤ position then
      (cells[position.toNat]?).getD (memory position)
    else memory position

/-- The cells just written are read back from the base on. -/
theorem map_range_overwrite (memory : Int → α) (cells : List α) :
    ((List.range cells.length).map fun (position : Nat) =>
      overwrite memory cells position) = cells := by
  apply List.ext_getElem
  · simp
  · intro position _ bound
    simp [overwrite, bound]

theorem Reads.congr
    {memory : Int → α} {view otherView : (Nat → Int) → α}
    (reads : Reads count memory size view)
    (sizeEq : ∀ i < count, size i = otherSize i)
    (viewEq : ∀ index, InBox count size index → view index = otherView index) :
    Reads count memory otherSize otherView := by
  intro index member
  have original : InBox count size index :=
    member.congr (fun i below => (sizeEq i below).symm) fun _ _ => rfl
  rw [← linear_congr sizeEq fun _ _ => rfl, ← viewEq index original]
  exact reads index original

/-- Storing a box list makes the memory read the listed function. -/
theorem reads_overwrite_boxList
    {memory : Int → α} {view : (Nat → Int) → α}
    (depends : Depends count view) :
    Reads count (overwrite memory (boxList count size view)) size view := by
  intro index member
  rw [overwrite, if_pos (linear_nonneg member), getElem?_boxList view member]
  apply depends
  intro i below
  simp [restrict, below]

end Physis.Library.RowMajor
