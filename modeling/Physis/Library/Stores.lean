import Mathlib

/-!
# Stores in any order

The threads of a parallel kernel store into one memory in an order nobody
chooses.  Where all stores to a position agree on the value, that value is what
the memory holds afterwards, whatever the order was.
-/

namespace Physis.Library.Stores

variable {ι α : Type} [DecidableEq ι]

/-- The memory after the stores of a list, the first one first. -/
def applyStores (memory : ι → α) (stores : List (ι × α)) : ι → α :=
  stores.foldl (fun current store => Function.update current store.1 store.2) memory

@[simp]
theorem applyStores_nil (memory : ι → α) : applyStores memory [] = memory :=
  rfl

theorem applyStores_concat
    (memory : ι → α) (stores : List (ι × α)) (store : ι × α) :
    applyStores memory (stores ++ [store]) =
      Function.update (applyStores memory stores) store.1 store.2 := by
  simp [applyStores]

/-- A position to which only one value is stored holds that value. -/
theorem applyStores_eq
    {memory : ι → α} {stores : List (ι × α)} {position : ι} {value : α}
    (agree : ∀ store ∈ stores, store.1 = position → store.2 = value)
    (stored : ∃ store ∈ stores, store.1 = position) :
    applyStores memory stores position = value := by
  induction stores using List.reverseRecOn with
  | nil => simp at stored
  | append_singleton stores store induction =>
      rw [applyStores_concat]
      by_cases here : store.1 = position
      · subst here
        rw [Function.update_self]
        exact agree store (by simp) rfl
      · rw [Function.update_of_ne (Ne.symm here)]
        apply induction
        · intro other member
          exact agree other (by simp [member])
        · obtain ⟨other, member, equal⟩ := stored
          rcases List.mem_append.mp member with earlier | last
          · exact ⟨other, earlier, equal⟩
          · rw [List.mem_singleton.mp last] at equal
            exact absurd equal here

/-- The order of the stores does not matter for such a position. -/
theorem applyStores_perm_eq
    {memory : ι → α} {stores scheduled : List (ι × α)} {position : ι} {value : α}
    (order : scheduled.Perm stores)
    (agree : ∀ store ∈ stores, store.1 = position → store.2 = value)
    (stored : ∃ store ∈ stores, store.1 = position) :
    applyStores memory scheduled position = value := by
  apply applyStores_eq
  · intro store member
    exact agree store (order.mem_iff.mp member)
  · obtain ⟨store, member, equal⟩ := stored
    exact ⟨store, order.mem_iff.mpr member, equal⟩

end Physis.Library.Stores
