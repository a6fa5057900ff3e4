import Mathlib.Data.List.Infix

/-!
# Transfers that read memory late

A non-blocking send names the cells it sends and may read them at any time
until it completes.  A transfer records what the cells held when it was posted
and what has been read so far, cell by cell.  It is sound while what was read is
what was posted and, until it completes, the cells still hold it.
-/

namespace Physis.Library.Transfers

variable {Cell Value : Type}

/-- A transfer of the values of some cells. -/
structure Transfer (Cell Value : Type) where
  cells : List Cell
  posted : List Value
  read : List Value

namespace Transfer

/-- Some cells have not been read yet. -/
def Outstanding (transfer : Transfer Cell Value) : Prop :=
  transfer.read.length < transfer.cells.length

instance (transfer : Transfer Cell Value) : Decidable transfer.Outstanding :=
  inferInstanceAs (Decidable (_ < _))

/-- A transfer posted now. -/
def post (memory : Cell → Value) (cells : List Cell) : Transfer Cell Value where
  cells := cells
  posted := cells.map memory
  read := []

/-- The next cell is read. -/
def readNext
    (memory : Cell → Value) (transfer : Transfer Cell Value) :
    Transfer Cell Value :=
  match transfer.cells[transfer.read.length]? with
  | none => transfer
  | some cell => { transfer with read := transfer.read ++ [memory cell] }

/-- What was read is what was posted, and what is left to read still is. -/
structure Sound (memory : Cell → Value) (transfer : Transfer Cell Value) :
    Prop where
  carried : transfer.read <+: transfer.posted
  length : transfer.posted.length = transfer.cells.length
  held : transfer.Outstanding → transfer.posted = transfer.cells.map memory

variable {memory after : Cell → Value} {transfer : Transfer Cell Value}

theorem sound_post (memory : Cell → Value) (cells : List Cell) :
    Sound memory (post memory cells) where
  carried := List.nil_prefix
  length := List.length_map ..
  held _ := rfl

theorem Sound.readNext (sound : Sound memory transfer) :
    Sound memory (transfer.readNext memory) := by
  simp only [Transfer.readNext]
  cases next : transfer.cells[transfer.read.length]? with
  | none => exact sound
  | some cell =>
      obtain ⟨bound, _⟩ := List.getElem?_eq_some_iff.mp next
      have held := sound.held bound
      constructor
      · obtain ⟨rest, whole⟩ := sound.carried
        have here : transfer.posted[transfer.read.length]? = some (memory cell) := by
          rw [held, List.getElem?_map, next]
          rfl
        rw [← whole, List.getElem?_append_right le_rfl, Nat.sub_self] at here
        cases rest with
        | nil => cases here
        | cons value rest =>
            cases here
            exact ⟨rest, by rw [← whole, List.append_assoc]; rfl⟩
      · exact sound.length
      · intro _
        exact held

/-- A write that spares the cells of an outstanding transfer keeps it sound. -/
theorem Sound.write
    (sound : Sound memory transfer)
    (spared : transfer.Outstanding → ∀ cell ∈ transfer.cells,
      after cell = memory cell) :
    Sound after transfer where
  carried := sound.carried
  length := sound.length
  held outstanding := by
    rw [sound.held outstanding]
    exact List.map_congr_left fun cell member =>
      (spared outstanding cell member).symm

/-- A sound transfer that is complete has carried what was posted. -/
theorem Sound.complete
    (sound : Sound memory transfer) (complete : ¬transfer.Outstanding) :
    transfer.read = transfer.posted := by
  apply sound.carried.eq_of_length_le
  rw [sound.length]
  exact Nat.le_of_not_lt complete

/-- Reading never changes which cells are transferred or what was posted. -/
theorem readNext_cells :
    (transfer.readNext memory).cells = transfer.cells := by
  simp only [readNext]
  split <;> rfl

end Transfer

end Physis.Library.Transfers
