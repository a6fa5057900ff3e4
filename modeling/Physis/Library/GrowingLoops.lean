import Mathlib.Data.Finset.Card
import Mathlib.Data.List.Basic

/-!
# Loops until nothing changes

A pass of such a loop adds elements to a set and sets a flag when the set grows.
The loop repeats the pass as long as the flag is set.  It ends when the elements
come from a finite set, and then no step of the pass adds anything.
-/

namespace Physis.Library.GrowingLoops

variable {α ι : Type}

/-- A set and whether it has grown since the flag was cleared. -/
structure Growing (α : Type) where
  elements : Finset α
  changed : Bool

/-- Adds elements and sets the flag if one of them is new. -/
def Growing.add [DecidableEq α] (s : Growing α) (new : Finset α) : Growing α where
  elements := s.elements ∪ new
  changed := s.changed || !decide (new ⊆ s.elements)

/-! ## Steps -/

/-- A step, which may fail, only adds elements and sets the flag where it does. -/
structure Grows (step : Growing α → Option (Growing α)) : Prop where
  mono : ∀ {s t}, step s = some t → s.elements ⊆ t.elements
  flag : ∀ {s t}, step s = some t →
    (t.changed = true ↔ s.changed = true ∨ s.elements ≠ t.elements)

/-- A step stays within a set. -/
def StaysIn (bound : Finset α) (step : Growing α → Option (Growing α)) : Prop :=
  ∀ s t, s.elements ⊆ bound → step s = some t → t.elements ⊆ bound

theorem Growing.add_grows [DecidableEq α] (new : Finset α → Finset α) :
    Grows fun s : Growing α => some (s.add (new s.elements)) where
  mono := by
    rintro s t ⟨⟩
    exact Finset.subset_union_left
  flag := by
    rintro s t ⟨⟩
    simp [Growing.add, eq_comm (a := s.elements), Finset.union_eq_left]

theorem grows_none : Grows fun _ : Growing α => none where
  mono failed := by cases failed
  flag failed := by cases failed

theorem grows_some : Grows fun s : Growing α => some s where
  mono := by
    rintro s t ⟨⟩
    exact Finset.Subset.refl _
  flag := by
    rintro s t ⟨⟩
    simp

/-- A step chosen by a condition that the set does not decide. -/
theorem Grows.ite {condition : Prop} [Decidable condition]
    {first second : Growing α → Option (Growing α)}
    (ofFirst : condition → Grows first) (ofSecond : ¬condition → Grows second) :
    Grows fun s => if condition then first s else second s := by
  by_cases holds : condition
  · simpa only [if_pos holds] using ofFirst holds
  · simpa only [if_neg holds] using ofSecond holds

/-- Steps after each other. -/
theorem Grows.bind {first second : Growing α → Option (Growing α)}
    (ofFirst : Grows first) (ofSecond : Grows second) :
    Grows fun s => (first s).bind second where
  mono succeeds := by
    obtain ⟨between, before, after⟩ := Option.bind_eq_some_iff.mp succeeds
    exact (ofFirst.mono before).trans (ofSecond.mono after)
  flag {s t} succeeds := by
    obtain ⟨between, before, after⟩ := Option.bind_eq_some_iff.mp succeeds
    rw [ofSecond.flag after, ofFirst.flag before]
    constructor
    · rintro ((set | grown) | grown)
      · exact .inl set
      · refine .inr fun same => grown ?_
        exact (ofFirst.mono before).antisymm (same ▸ ofSecond.mono after)
      · refine .inr fun same => grown ?_
        exact (ofSecond.mono after).antisymm (same ▸ ofFirst.mono before)
    · rintro (set | grown)
      · exact .inl (.inl set)
      · by_cases same : s.elements = between.elements
        · exact .inr (same ▸ grown)
        · exact .inl (.inr same)

/-- A loop over items, one step for each. -/
theorem Grows.foldlM
    {step : Growing α → ι → Option (Growing α)} {items : List ι}
    (each : ∀ item ∈ items, Grows fun s => step s item) :
    Grows fun s => items.foldlM step s := by
  induction items with
  | nil => exact grows_some
  | cons item items induction =>
      have first := each item List.mem_cons_self
      exact first.bind (induction fun other member => each other (List.mem_cons_of_mem _ member))

theorem StaysIn.ite {condition : Prop} [Decidable condition] {bound : Finset α}
    {first second : Growing α → Option (Growing α)}
    (ofFirst : condition → StaysIn bound first) (ofSecond : ¬condition → StaysIn bound second) :
    StaysIn bound fun s => if condition then first s else second s := by
  by_cases holds : condition
  · simpa only [if_pos holds] using ofFirst holds
  · simpa only [if_neg holds] using ofSecond holds

theorem staysIn_none {bound : Finset α} : StaysIn bound fun _ => none := by
  rintro s t inside ⟨⟩

theorem staysIn_some {bound : Finset α} : StaysIn bound fun s => some s := by
  rintro s t inside ⟨⟩
  exact inside

/-- A step that adds elements of the set. -/
theorem Growing.add_staysIn [DecidableEq α] {bound : Finset α} {new : Finset α → Finset α}
    (within : ∀ elements, elements ⊆ bound → new elements ⊆ bound) :
    StaysIn bound fun s => some (s.add (new s.elements)) := by
  rintro s t inside ⟨⟩
  exact Finset.union_subset inside (within s.elements inside)

theorem StaysIn.bind {bound : Finset α} {first second : Growing α → Option (Growing α)}
    (ofFirst : StaysIn bound first) (ofSecond : StaysIn bound second) :
    StaysIn bound fun s => (first s).bind second := by
  intro s t inside succeeds
  obtain ⟨between, before, after⟩ := Option.bind_eq_some_iff.mp succeeds
  exact ofSecond _ _ (ofFirst _ _ inside before) after

theorem StaysIn.foldlM {bound : Finset α}
    {step : Growing α → ι → Option (Growing α)} {items : List ι}
    (each : ∀ item ∈ items, StaysIn bound fun s => step s item) :
    StaysIn bound fun s => items.foldlM step s := by
  induction items with
  | nil => exact staysIn_some
  | cons item items induction =>
      have first := each item List.mem_cons_self
      exact first.bind (induction fun other member => each other (List.mem_cons_of_mem _ member))

/-! ## Steps that add nothing -/

/-- The step adds nothing to the set. -/
def Settles (step : Growing α → Option (Growing α)) (elements : Finset α) : Prop :=
  step ⟨elements, false⟩ = some ⟨elements, false⟩

/-- A step that leaves the flag cleared adds nothing. -/
theorem Grows.settles {step : Growing α → Option (Growing α)} (grows : Grows step)
    {elements : Finset α} {t : Growing α}
    (succeeds : step ⟨elements, false⟩ = some t) (unchanged : t.changed = false) :
    Settles step elements ∧ t = ⟨elements, false⟩ := by
  have flag := grows.flag succeeds
  rw [unchanged] at flag
  have same : elements = t.elements := by
    by_contra grown
    exact absurd (flag.mpr (.inr grown)) (by decide)
  have whole : t = ⟨elements, false⟩ := by
    cases t
    simp_all
  subst whole
  exact ⟨succeeds, rfl⟩

/-- If nothing is added by two steps, nothing is added by either. -/
theorem Settles.of_bind {first second : Growing α → Option (Growing α)}
    {elements : Finset α} (ofFirst : Grows first) (ofSecond : Grows second)
    (settles : Settles (fun s => (first s).bind second) elements) :
    Settles first elements ∧ Settles second elements := by
  obtain ⟨between, before, after⟩ := Option.bind_eq_some_iff.mp settles
  have cleared : between.changed = false := by
    by_contra set
    have later := (ofSecond.flag after).mpr (.inl (by simpa using set))
    cases later
  obtain ⟨settled, rfl⟩ := ofFirst.settles before cleared
  exact ⟨settled, after⟩

/-- If nothing is added by a loop over items, nothing is added for any item. -/
theorem Settles.of_foldlM
    {step : Growing α → ι → Option (Growing α)} {items : List ι} {elements : Finset α}
    (each : ∀ item ∈ items, Grows fun s => step s item)
    (settles : Settles (fun s => items.foldlM step s) elements) :
    ∀ item ∈ items, Settles (fun s => step s item) elements := by
  induction items with
  | nil => simp
  | cons item items induction =>
      have rest : ∀ other ∈ items, Grows fun s => step s other :=
        fun other member => each other (List.mem_cons_of_mem _ member)
      obtain ⟨first, others⟩ := Settles.of_bind (each item List.mem_cons_self)
        (Grows.foldlM rest) settles
      intro other member
      rcases List.mem_cons.mp member with rfl | later
      · exact first
      · exact induction rest others other later

/-- What is added by a step that settles is there already. -/
theorem Settles.subset [DecidableEq α] {new : Finset α → Finset α} {elements : Finset α}
    (settles : Settles (fun s => some (s.add (new s.elements))) elements) :
    new elements ⊆ elements := by
  have same := congrArg Growing.elements (Option.some.inj settles)
  exact Finset.union_eq_left.mp same

/-! ## The loop -/

/-- How a loop ends. -/
inductive LoopEnd (α : Type) where
  | finished (elements : Finset α)
  | aborted
  | outOfFuel

/-- `while (changed) { changed = false; pass }` -/
def whileChanged (pass : Growing α → Option (Growing α)) :
    Nat → Finset α → LoopEnd α
  | 0, _ => .outOfFuel
  | fuel + 1, elements =>
      match pass ⟨elements, false⟩ with
      | none => .aborted
      | some s => if s.changed then whileChanged pass fuel s.elements
          else .finished s.elements

section Loop

variable {pass : Growing α → Option (Growing α)} {fuel : Nat} {elements final : Finset α}

/-- A loop that has finished is settled. -/
theorem settles_of_finished (grows : Grows pass)
    (finished : whileChanged pass fuel elements = .finished final) :
    Settles pass final := by
  induction fuel generalizing elements with
  | zero => cases finished
  | succ fuel induction =>
      rw [whileChanged] at finished
      split at finished
      · cases finished
      · rename_i s succeeds
        split at finished
        · exact induction finished
        · rename_i unchanged
          obtain ⟨settled, rfl⟩ := grows.settles succeeds (by simpa using unchanged)
          obtain rfl : elements = final := LoopEnd.finished.inj finished
          exact settled

/-- Within a finite set the loop ends after at most one pass for each element. -/
theorem whileChanged_ne_outOfFuel (grows : Grows pass) {bound : Finset α}
    (stays : StaysIn bound pass) (inside : elements ⊆ bound)
    (enough : bound.card < fuel + elements.card) :
    whileChanged pass fuel elements ≠ .outOfFuel := by
  induction fuel generalizing elements with
  | zero =>
      have small := Finset.card_le_card inside
      omega
  | succ fuel induction =>
      rw [whileChanged]
      split
      · simp
      · rename_i s succeeds
        split
        · rename_i set
          have grown : elements ⊂ s.elements := by
            apply Finset.ssubset_iff_subset_ne.mpr
            refine ⟨grows.mono succeeds, ?_⟩
            rcases (grows.flag succeeds).mp set with set | grown
            · cases set
            · exact grown
          have larger := Finset.card_lt_card grown
          exact induction (stays _ _ inside succeeds) (by omega)
        · simp

end Loop

end Physis.Library.GrowingLoops
