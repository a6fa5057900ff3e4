import Mathlib.Algebra.BigOperators.Group.List.Basic
import Mathlib.Data.List.Induction
import Mathlib.Order.MinMax

/-!
# Reductions of lists

A reduction combines the values of a non-empty list with a binary operation.
When the operation is associative and commutative, the order in which the values
are combined does not matter, and a list may be reduced part by part.
-/

namespace Physis.Library.Reductions

variable {α : Type} {op : α → α → α}

/-- Values combined two at a time, in any order, into one. -/
inductive Combines (op : α → α → α) : List α → α → Prop
  | value (value : α) : Combines op [value] value
  | join
      {left right : List α} {leftValue rightValue : α}
      (leftCombines : Combines op left leftValue)
      (rightCombines : Combines op right rightValue) :
      Combines op (left ++ right) (op leftValue rightValue)
  | reorder
      {values others : List α} {result : α}
      (same : values.Perm others) (combines : Combines op values result) :
      Combines op others result

/-- The values combined from left to right; an empty list has no reduction. -/
def reduce (op : α → α → α) : List α → Option α
  | [] => none
  | first :: rest => some (rest.foldl op first)

@[simp]
theorem reduce_nil : reduce op [] = none := rfl

@[simp]
theorem reduce_singleton (value : α) : reduce op [value] = some value := rfl

/-- A reduction is one of the ways to combine the values. -/
theorem combines_foldl (first : α) (rest : List α) :
    Combines op (first :: rest) (rest.foldl op first) := by
  induction rest using List.reverseRecOn with
  | nil => exact .value first
  | append_singleton rest last induction =>
      rw [List.foldl_append]
      exact .join induction (.value last)

/-! ## Reduction part by part -/

section Associative

variable [Std.Associative op]

theorem foldl_op (left right : α) (values : List α) :
    values.foldl op (op left right) = op left (values.foldl op right) := by
  have assoc : ∀ a b c, op (op a b) c = op a (op b c) := Std.Associative.assoc
  induction values generalizing right with
  | nil => rfl
  | cons value values induction =>
      rw [List.foldl_cons, List.foldl_cons, assoc]
      exact induction (op right value)

theorem reduce_append (left right : List α) :
    reduce op (left ++ right) =
      Option.merge op (reduce op left) (reduce op right) := by
  cases left with
  | nil => cases right <;> rfl
  | cons first rest =>
      cases right with
      | nil => simp [reduce]
      | cons second others =>
          rw [List.cons_append]
          simp only [reduce, List.foldl_append, List.foldl_cons, Option.merge]
          rw [foldl_op]

/-- One more value is combined with the reduction of the others. -/
theorem reduce_cons {value result : α} {values : List α}
    (reduced : reduce op values = some result) :
    reduce op (value :: values) = some (op value result) := by
  rw [← List.singleton_append, reduce_append, reduced]
  rfl

/--
Reducing the parts first, with a default for the empty ones, is reducing one
list in which the default stands in for every empty part.
-/
theorem reduce_map_getD [DecidableEq α] (default : α) (parts : List (List α)) :
    reduce op (parts.map fun part => (reduce op part).getD default) =
      reduce op (parts.flatMap fun part =>
        if part = [] then [default] else part) := by
  induction parts with
  | nil => rfl
  | cons part parts induction =>
      rw [List.map_cons, List.flatMap_cons, reduce_append, ← induction,
        ← List.singleton_append, reduce_append]
      congr 1
      cases part with
      | nil => rfl
      | cons first rest => rfl

variable [Std.Commutative op]

theorem reduce_perm {values others : List α} (same : values.Perm others) :
    reduce op values = reduce op others := by
  induction same with
  | nil => rfl
  | cons value _ induction =>
      rw [← List.singleton_append, reduce_append, induction, ← reduce_append]
      rfl
  | swap first second rest =>
      have comm : op second first = op first second := Std.Commutative.comm _ _
      simp only [reduce, List.foldl_cons, comm]
  | trans _ _ first second => exact first.trans second

/-- In whatever order the values are combined, the reduction results. -/
theorem combines_iff {values : List α} {result : α} :
    Combines op values result ↔ reduce op values = some result := by
  constructor
  · intro combines
    induction combines with
    | value value => rfl
    | join _ _ left right => rw [reduce_append, left, right]; rfl
    | reorder same _ induction => rw [← reduce_perm same, induction]
  · intro reduced
    cases values with
    | nil => cases reduced
    | cons first rest =>
        cases reduced
        exact combines_foldl first rest

/-- A neutral default leaves the reduction of the elements as it is. -/
theorem reduce_padded [DecidableEq α]
    {default : α} (neutral : ∀ value, op default value = value)
    {parts : List (List α)} (nonempty : parts.flatten ≠ []) :
    reduce op (parts.flatMap fun part =>
        if part = [] then [default] else part) =
      reduce op parts.flatten := by
  have assoc : ∀ a b c : Option α,
      Option.merge op (Option.merge op a b) c =
        Option.merge op a (Option.merge op b c) := Std.Associative.assoc
  have comm : ∀ a b, op a b = op b a := Std.Commutative.comm
  have absorbed : ∀ (parts : List (List α)) (value : α),
      Option.merge op (some value) (reduce op (parts.flatMap fun part =>
          if part = [] then [default] else part)) =
        Option.merge op (some value) (reduce op parts.flatten) := by
    intro parts
    induction parts with
    | nil => exact fun _ => rfl
    | cons part parts induction =>
        intro value
        rw [List.flatMap_cons, List.flatten_cons, reduce_append, reduce_append,
          ← assoc, ← assoc]
        cases part with
        | nil =>
            have first := induction (op value default)
            rw [comm value default, neutral] at first
            simpa [Option.merge, comm value default, neutral] using first
        | cons head rest => exact induction _
  have left : ∀ list : List α, list ≠ [] →
      Option.merge op (some default) (reduce op list) = reduce op list := by
    intro list nonempty
    cases list with
    | nil => exact absurd rfl nonempty
    | cons head rest => simp [reduce, Option.merge, neutral]
  have padded : (parts.flatMap fun part =>
      if part = [] then [default] else part) ≠ [] := by
    intro none
    apply nonempty
    rw [List.flatten_eq_nil_iff]
    intro part member
    have nil := List.flatMap_eq_nil_iff.mp none part member
    by_contra occupied
    rw [if_neg occupied] at nil
    exact occupied nil
  rw [← left _ padded, absorbed, left _ nonempty]

end Associative

/-! ## The operations -/

/-- The largest value is the reduction with `max`. -/
theorem reduce_max_eq_some_iff
    [LinearOrder α] {values : List α} {result : α} :
    reduce max values = some result ↔
      result ∈ values ∧ ∀ value ∈ values, value ≤ result := by
  have reduced : ∀ (rest : List α) (first : α),
      rest.foldl max first ∈ first :: rest ∧
        ∀ value ∈ first :: rest, value ≤ rest.foldl max first := by
    intro rest
    induction rest with
    | nil => simp
    | cons second rest induction =>
        intro first
        obtain ⟨member, bounds⟩ := induction (max first second)
        rw [List.foldl_cons]
        constructor
        · rcases List.mem_cons.mp member with is | later
          · rcases max_choice first second with same | same
            · rw [is, same]; simp
            · rw [is, same]; simp
          · simp [later]
        · have base := bounds (max first second) List.mem_cons_self
          intro value among
          rcases List.mem_cons.mp among with rfl | among
          · exact (le_max_left _ _).trans base
          · rcases List.mem_cons.mp among with rfl | among
            · exact (le_max_right _ _).trans base
            · exact bounds value (List.mem_cons_of_mem _ among)
  cases values with
  | nil => simp
  | cons first rest =>
      obtain ⟨member, bounds⟩ := reduced rest first
      simp only [reduce, Option.some.injEq]
      constructor
      · rintro rfl
        exact ⟨member, bounds⟩
      · rintro ⟨among, upper⟩
        exact le_antisymm (upper _ member) (bounds _ among)

/-- The smallest value is the reduction with `min`. -/
theorem reduce_min_eq_some_iff
    [LinearOrder α] {values : List α} {result : α} :
    reduce min values = some result ↔
      result ∈ values ∧ ∀ value ∈ values, result ≤ value :=
  @reduce_max_eq_some_iff αᵒᵈ _ values result

end Physis.Library.Reductions
