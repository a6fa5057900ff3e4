import Physis.Runtime.GridSpace

/-!
# Comparing integer arrays

`IntegerArray` has operators that compare every element with one number, and
`LessThan`, which compares the first elements of two arrays one by one.  Two
arrays compared by `<`, `>` or `>=` are compared lexicographically: these are
the operators of the base class, `boost::array`.
-/

namespace Physis.Runtime

open Physis.Library

namespace IntegerArray

/-- The `PS_MAX_DIM` elements in order. -/
def toList (array : IndexArray) : List Int :=
  (List.range psMaxDim).map array

/-- `operator<` of `boost::array` -/
def less (left right : IndexArray) : Bool :=
  decide (toList left < toList right)

/-- `operator>` of `boost::array` -/
def greater (left right : IndexArray) : Bool :=
  less right left

/-- `operator>=` of `boost::array` -/
def greaterEqual (left right : IndexArray) : Bool :=
  !less left right

/-- `operator>=` with one number -/
def allAtLeast (array : IndexArray) (x : Int) : Bool :=
  (List.range psMaxDim).all fun i => decide (x ≤ array i)

/-- `LessThan` -/
def lessThan (left right : IndexArray) (numDims : Nat) : Bool :=
  (List.range numDims).all fun i => decide (left i < right i)

/-- `SetNoLessThan` with an array -/
def setNoLessThan (array x : IndexArray) : IndexArray :=
  fun i => max (array i) (x i)

/-- `SetNoMoreThan` with an array -/
def setNoMoreThan (array x : IndexArray) : IndexArray :=
  fun i => min (array i) (x i)

/-- The first element in which two arrays differ decides. -/
theorem less_iff (left right : IndexArray) :
    less left right = true ↔
      ∃ d < psMaxDim, left d < right d ∧ ∀ e < d, left e = right e := by
  rw [less, decide_eq_true_eq, List.lt_iff_exists]
  simp only [toList, List.length_map, List.length_range, List.getElem_map,
    List.getElem_range, lt_irrefl, and_false, false_or]
  constructor
  · rintro ⟨d, inside, _, before, smaller⟩
    exact ⟨d, inside, smaller, before⟩
  · rintro ⟨d, inside, smaller, before⟩
    exact ⟨d, inside, inside, before, smaller⟩

theorem lessThan_iff (left right : IndexArray) (numDims : Nat) :
    lessThan left right numDims = true ↔ ∀ i < numDims, left i < right i := by
  simp [lessThan]

/-- Arrays that are not equal on the first elements are ordered one way. -/
theorem less_of_lessThan
    {left right : IndexArray} {numDims : Nat}
    (positive : 0 < numDims) (smaller : lessThan left right numDims = true) :
    less left right = true :=
  (less_iff left right).mpr
    ⟨0, by decide, (lessThan_iff _ _ _).mp smaller 0 positive,
      fun _ impossible => absurd impossible (Nat.not_lt_zero _)⟩

end IntegerArray

end Physis.Runtime
