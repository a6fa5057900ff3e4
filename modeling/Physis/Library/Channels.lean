import Mathlib.Data.List.Infix
import Mathlib.Logic.Function.Basic

/-!
# Histories of point-to-point channels

What processes have sent to each other so far is a list for every ordered pair
of processes.  Messages are only ever added at the end, and when every process
follows a script, each list is the script's projection to that channel.
-/

namespace Physis.Library.Channels

variable {Process Item : Type} [DecidableEq Process]

/-- A table by ordered pairs with one entry changed. -/
def assign
    {Value : Type} (table : Process → Process → Value)
    (source target : Process) (value : Value) :
    Process → Process → Value :=
  Function.update table source (Function.update (table source) target value)

theorem assign_apply
    {Value : Type} (table : Process → Process → Value)
    (source target : Process) (value : Value) (left right : Process) :
    assign table source target value left right =
      if left = source ∧ right = target then value else table left right := by
  by_cases sameSource : left = source
  · subst sameSource
    by_cases sameTarget : right = target
    · subst sameTarget
      simp [assign]
    · simp [assign, sameTarget]
  · simp [assign, sameSource]

/-- Add an item at the end of one channel. -/
def push
    (history : Process → Process → List Item)
    (source target : Process) (item : Item) :
    Process → Process → List Item :=
  Function.update history source
    (Function.update (history source) target (history source target ++ [item]))

@[simp]
theorem push_same
    (history : Process → Process → List Item)
    (source target : Process) (item : Item) :
    push history source target item source target =
      history source target ++ [item] := by
  simp [push]

theorem push_apply
    (history : Process → Process → List Item)
    (source target : Process) (item : Item) (left right : Process) :
    push history source target item left right =
      if left = source ∧ right = target then history source target ++ [item]
      else history left right :=
  assign_apply _ _ _ _ _ _

theorem push_other_source
    (history : Process → Process → List Item)
    {source other : Process} (different : other ≠ source)
    (target : Process) (item : Item) :
    push history source target item other = history other := by
  simp [push, different]

theorem push_other_target
    (history : Process → Process → List Item)
    (source : Process) {target other : Process} (different : other ≠ target)
    (item : Item) :
    push history source target item source other = history source other := by
  simp [push, different]

/-- A channel of the source holds what it held, or also what was pushed. -/
theorem mem_push
    {history : Process → Process → List Item} {source target other : Process}
    {item held : Item} (member : held ∈ push history source target item source other) :
    held ∈ history source other ∨ other = target ∧ held = item := by
  by_cases same : other = target
  · subst same
    rw [push_same, List.mem_append, List.mem_singleton] at member
    exact member.imp_right fun equal => ⟨rfl, equal⟩
  · rw [push_other_target history source same] at member
    exact Or.inl member

/-- Every channel only grows. -/
theorem prefix_push
    (history : Process → Process → List Item)
    (source target : Process) (item : Item) (left right : Process) :
    history left right <+: push history source target item left right := by
  by_cases sameSource : left = source
  · subst left
    by_cases sameTarget : right = target
    · subst right
      rw [push_same]
      exact List.prefix_append _ _
    · rw [push_other_target history source sameTarget]
  · rw [push_other_source history sameSource]

theorem map_push
    {Note : Type} (note : Item → Note)
    (history : Process → Process → List Item)
    (source target : Process) (item : Item) (left right : Process) :
    (push history source target item left right).map note =
      push (fun sender receiver => (history sender receiver).map note) source target
        (note item) left right := by
  by_cases sameSource : left = source
  · subst left
    by_cases sameTarget : right = target
    · subst right
      rw [push_same, push_same, List.map_append, List.map_singleton]
    · rw [push_other_target history source sameTarget,
        push_other_target _ source sameTarget]
  · rw [push_other_source history sameSource, push_other_source _ sameSource]

/--
A push as the next step of a script: the channels of the process are the
projections of the actions it has performed.
-/
theorem push_filterMap
    {Action : Type} {history : Process → Process → List Item}
    {source target : Process} {item : Item} {action : Action}
    {performed : List Action} {emit : Process → Action → Option Item}
    (projected : ∀ other, history source other =
      performed.filterMap (emit other))
    (emits : emit target action = some item)
    (only : ∀ other, other ≠ target → emit other action = none)
    (other : Process) :
    push history source target item source other =
      (performed ++ [action]).filterMap (emit other) := by
  by_cases same : other = target
  · subst other
    rw [push_same, projected, List.filterMap_append]
    simp [emits]
  · rw [push_other_target history source same, projected,
      List.filterMap_append]
    simp [only other same]

/-- What a channel holds stays where it is when the channel grows. -/
theorem getElem?_grown
    {shorter longer : List Item} (grown : shorter <+: longer)
    {ticket : Nat} {item : Item} (held : shorter[ticket]? = some item) :
    longer[ticket]? = some item := by
  obtain ⟨rest, rfl⟩ := grown
  obtain ⟨bound, _⟩ := List.getElem?_eq_some_iff.mp held
  rw [List.getElem?_append_left bound]
  exact held

/-- Two prefixes of one list agree wherever both are defined. -/
theorem getElem?_eq_grown
    {left right whole : List Item}
    (leftPrefix : left <+: whole) (rightPrefix : right <+: whole)
    {ticket : Nat} {item other : Item}
    (leftItem : left[ticket]? = some item)
    (rightItem : right[ticket]? = some other) :
    item = other := by
  have leftWhole := getElem?_grown leftPrefix leftItem
  have rightWhole := getElem?_grown rightPrefix rightItem
  rw [leftWhole] at rightWhole
  exact Option.some.inj rightWhole

/-- An item of a list modified at one place is one of its items, or the new one. -/
theorem exists_of_mem_modify
    {list : List Item} {place : Nat} {change : Item → Item} {item : Item}
    (member : item ∈ list.modify place change) :
    ∃ old ∈ list, item = old ∨ item = change old := by
  obtain ⟨i, bound, rfl⟩ := List.mem_iff_getElem.mp member
  rw [List.length_modify] at bound
  refine ⟨list[i], List.getElem_mem bound, ?_⟩
  rw [List.getElem_modify]
  split
  · exact Or.inr rfl
  · exact Or.inl rfl

end Physis.Library.Channels
