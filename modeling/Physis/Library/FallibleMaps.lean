import Mathlib.Data.List.Forall2

/-!
# Fallible maps over a list

`mapM` with a function that may fail succeeds exactly if the function succeeds
on every item, and then its results are those of the items.
-/

namespace Physis.Library.FallibleMaps

variable {α β : Type} {f : α → Option β} {items : List α} {results : List β}

/-- The map succeeds exactly if every item does. -/
theorem mapM_isSome_iff :
    (items.mapM f).isSome ↔ ∀ item ∈ items, (f item).isSome := by
  induction items with
  | nil => simp
  | cons item items induction =>
      rw [List.mapM_cons, List.forall_mem_cons, ← induction]
      rcases f item with _ | first
      · simp
      · rcases items.mapM f with _ | rest <;> simp

/-- The results are those of the items. -/
theorem mem_of_mapM (succeeds : items.mapM f = some results) (result : β) :
    result ∈ results ↔ ∃ item ∈ items, f item = some result := by
  induction items generalizing results with
  | nil =>
      obtain rfl : [] = results := by simpa using succeeds
      simp
  | cons item items induction =>
      simp only [List.mapM_cons, Option.bind_eq_bind,
        Option.bind_eq_some_iff] at succeeds
      obtain ⟨first, found, rest, others, equal⟩ := succeeds
      obtain rfl := Option.some.inj equal
      have own : result = first ↔ f item = some result := by
        rw [found, Option.some_inj, eq_comm]
      rw [List.mem_cons, induction others, own]
      simp only [List.mem_cons, or_and_right, exists_or, exists_eq_left]

/-- Item by item, the results are what the function gives. -/
theorem forall₂_of_mapM (succeeds : items.mapM f = some results) :
    List.Forall₂ (fun item result => f item = some result) items results := by
  induction items generalizing results with
  | nil =>
      obtain rfl : [] = results := by simpa using succeeds
      exact .nil
  | cons item items induction =>
      simp only [List.mapM_cons, Option.bind_eq_bind,
        Option.bind_eq_some_iff] at succeeds
      obtain ⟨first, found, rest, others, equal⟩ := succeeds
      obtain rfl := Option.some.inj equal
      exact .cons found (induction others)

/-- A map that fails nowhere is an ordinary map. -/
theorem mapM_eq_some_map
    {total : α → β} (succeeds : ∀ item ∈ items, f item = some (total item)) :
    items.mapM f = some (items.map total) := by
  induction items with
  | nil => rfl
  | cons item items induction =>
      rw [List.mapM_cons, succeeds item List.mem_cons_self,
        induction fun other member => succeeds other (List.mem_cons_of_mem _ member)]
      rfl

end Physis.Library.FallibleMaps
