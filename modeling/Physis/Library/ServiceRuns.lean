import Physis.Library.ServiceSteps

/-!
# What the members of a service round can rely on

The invariant holds at any time.  So a member that all members have told that
they are done has nothing of the round left to expect, and what still comes
from a member that has told one so is an answer that one waits for.
-/

namespace Physis.Library.ServiceRounds

open Physis.Library.Channels

variable {Query Answer : Type}

section Steps

variable
    {count : Nat} {replies : Nat → Query → Answer → Prop}
    {round after : Round Query Answer}

/-! ## One step -/

theorem Sound.step
    (sound : Sound count replies round) (step : Step count replies round after) :
    Sound count replies after := by
  obtain ⟨served, told⟩ := sound
  cases step with
  | enter client todo bounded outside servers once =>
      have notFinished := (told.outside client outside).1
      constructor
      · apply served.enter outside servers once
        · intro rank different
          rw [Round.advance_member, if_neg different]
        · rw [Round.advance_member, if_pos rfl]
        · exact fun rank => Round.advance_field _ _ _ Member.todo rank
        · exact fun rank => Round.advance_kept _ _ _ Member.waiting (by rfl) rank
        · exact fun rank => Round.advance_kept _ _ _ Member.serving (by rfl) rank
        all_goals rfl
      · refine told.advance bounded (by rfl) (by rfl) (by rfl) ?_ id
        intro finished
        rw [show (round.member client).finished = true from finished] at notFinished
        cases notFinished
  | ask client server query todo next =>
      constructor
      · apply served.ask next
        · exact fun rank => Round.advance_kept _ _ _ Member.entered (by rfl) rank
        · exact fun rank => Round.advance_field _ _ _ Member.todo rank
        · intro rank
          refine (Round.advance_field _ _ _ Member.waiting rank).trans ?_
          split
          · rename_i same
            rw [same]
          · rfl
        · exact fun rank => Round.advance_kept _ _ _ Member.serving (by rfl) rank
        all_goals rfl
      · apply told.frame
        · exact Round.advance_keeps_notices _ _ _ rfl rfl rfl rfl
        · intro source target
          refine (congrArg dones (push_apply _ _ _ _ _ _)).trans ?_
          split
          · rename_i same
            rw [same.1, same.2, dones_append_singleton]
            rfl
          · rfl
        · intro rank finished
          have different : rank ≠ client := by
            rintro rfl
            have empty := (told.finished rank finished).1
            rw [next] at empty
            cases empty
          have kept : ∀ member : Member Query Answer,
              (round.advance client member).member rank = round.member rank := by
            intro member
            rw [Round.advance_member, if_neg different]
          exact (congrArg (fun member => member.todo = [] ∧ member.waiting = 0)
            (kept _)).mpr (told.finished rank finished)
  | serve server client query answer rest isIn free next right =>
      constructor
      · apply served.serve isIn free next right
        · exact fun rank => Round.advance_kept _ _ _ Member.entered (by rfl) rank
        · exact fun rank => Round.advance_kept _ _ _ Member.todo (by rfl) rank
        · exact fun rank => Round.advance_kept _ _ _ Member.waiting (by rfl) rank
        · exact fun rank => Round.advance_field _ _ _ Member.serving rank
        all_goals rfl
      · apply told.frame
        · exact Round.advance_keeps_notices _ _ _ rfl rfl rfl rfl
        · intro source target
          refine (congrArg dones (assign_apply _ _ _ _ _ _)).trans ?_
          split
          · rename_i same
            rw [same.1, same.2, next, dones_cons]
            rfl
          · rfl
        · intro rank finished
          rw [Round.advance_kept _ _ _ Member.todo (by rfl),
            Round.advance_kept _ _ _ Member.waiting (by rfl)]
          exact told.finished rank finished
  | reply server client answer busy =>
      constructor
      · apply served.reply busy
        · exact fun rank => Round.advance_kept _ _ _ Member.entered (by rfl) rank
        · exact fun rank => Round.advance_kept _ _ _ Member.todo (by rfl) rank
        · exact fun rank => Round.advance_kept _ _ _ Member.waiting (by rfl) rank
        · exact fun rank => Round.advance_field _ _ _ Member.serving rank
        all_goals rfl
      · apply told.frame
        · exact Round.advance_keeps_notices _ _ _ rfl rfl rfl rfl
        · intro source target
          refine (congrArg dones (push_apply _ _ _ _ _ _)).trans ?_
          split
          · rename_i same
            rw [same.1, same.2, dones_append_singleton]
            rfl
          · rfl
        · intro rank finished
          have todoSame := Round.advance_kept (round.send server client (.answer answer))
            server { round.member server with serving := none } Member.todo rfl rank
          have waitingSame := Round.advance_kept
            (round.send server client (.answer answer)) server
            { round.member server with serving := none } Member.waiting rfl rank
          exact ⟨todoSame.trans (told.finished rank finished).1,
            waitingSame.trans (told.finished rank finished).2⟩
  | take client server answer rest next =>
      constructor
      · apply served.take next
        · exact fun rank => Round.advance_kept _ _ _ Member.entered (by rfl) rank
        · exact fun rank => Round.advance_kept _ _ _ Member.todo (by rfl) rank
        · intro rank
          refine (Round.advance_field _ _ _ Member.waiting rank).trans ?_
          split
          · rename_i same
            rw [same]
          · rfl
        · exact fun rank => Round.advance_kept _ _ _ Member.serving (by rfl) rank
        all_goals rfl
      · apply told.frame
        · exact Round.advance_keeps_notices _ _ _ rfl rfl rfl rfl
        · intro source target
          refine (congrArg dones (assign_apply _ _ _ _ _ _)).trans ?_
          split
          · rename_i same
            rw [same.1, same.2, next, dones_cons]
            rfl
          · rfl
        · intro rank finished
          obtain ⟨todo, waiting⟩ := told.finished rank finished
          constructor
          · exact (Round.advance_kept _ _ _ Member.todo (by rfl) rank).trans todo
          · refine (Round.advance_field _ _ _ Member.waiting rank).trans ?_
            split
            · rename_i same
              subst same
              exact (congrArg (fun waiting => waiting - 1) waiting).trans rfl
            · exact waiting
  | finish rank entered sent answered =>
      have bounded : rank < count := by
        by_contra outside
        rw [told.members rank (by omega)] at entered
        cases entered
      constructor
      · apply served.frame
        · exact Round.advance_keeps_queries _ _ _ rfl rfl rfl rfl
        · rfl
        · rfl
        · rfl
        · exact fun _ _ => ⟨rfl, rfl, fun _ inChannel => Or.inr inChannel⟩
      · exact told.advance bounded entered rfl rfl (fun _ => ⟨sent, answered⟩)
          fun _ => rfl
  | notify rank finished room other =>
      constructor
      · apply served.frame
        · exact Round.advance_keeps_queries _ _ _ rfl rfl rfl rfl
        · rfl
        · rfl
        · rfl
        · intro source target
          have sent := push_apply round.channel rank (round.member rank).notified
            (.done : Parcel Query Answer) source target
          have counts : ∀ list : List (Parcel Query Answer),
              list = push round.channel rank (round.member rank).notified .done
                source target →
                queries list = queries (round.channel source target) ∧
                  answers list = answers (round.channel source target) ∧
                  ∀ parcel ∈ list, parcel = .done ∨
                    parcel ∈ round.channel source target := by
            rintro list rfl
            rw [sent]
            split
            · rename_i same
              rw [same.1, same.2, queries_append_singleton, answers_append_singleton]
              refine ⟨rfl, rfl, ?_⟩
              intro parcel member
              rw [List.mem_append, List.mem_singleton] at member
              exact member.symm
            · exact ⟨rfl, rfl, fun _ member => Or.inr member⟩
          exact counts _ rfl
      · apply told.notify finished room
        · exact fun rank => Round.advance_kept _ _ _ Member.entered (by rfl) rank
        · exact fun rank => Round.advance_kept _ _ _ Member.finished (by rfl) rank
        · exact fun rank => Round.advance_kept _ _ _ Member.todo (by rfl) rank
        · exact fun rank => Round.advance_kept _ _ _ Member.waiting (by rfl) rank
        · intro rank
          refine (Round.advance_field _ _ _ Member.notified rank).trans ?_
          split
          · rename_i same
            rw [same]
          · rfl
        · intro target
          rw [if_neg fun equal => other equal.2]
          exact Round.advance_kept _ _ _ Member.counted (by rfl) target
        · intro source target
          refine (congrArg dones (push_apply _ _ _ _ _ _)).trans ?_
          by_cases here : source = rank ∧ target = (round.member rank).notified
          · rw [if_pos here, if_pos ⟨here.1, here.2, other⟩, here.1, here.2,
              dones_append_singleton]
            rfl
          · rw [if_neg here, if_neg fun equal => here ⟨equal.1, equal.2.1⟩]
            rfl
  | notifySelf rank finished room self =>
      constructor
      · apply served.frame
        · exact Round.advance_keeps_queries _ _ _ rfl rfl rfl rfl
        · rfl
        · rfl
        · rfl
        · exact fun _ _ => ⟨rfl, rfl, fun _ inChannel => Or.inr inChannel⟩
      · apply told.notify finished room
        · exact fun rank => Round.advance_kept _ _ _ Member.entered (by rfl) rank
        · exact fun rank => Round.advance_kept _ _ _ Member.finished (by rfl) rank
        · exact fun rank => Round.advance_kept _ _ _ Member.todo (by rfl) rank
        · exact fun rank => Round.advance_kept _ _ _ Member.waiting (by rfl) rank
        · intro rank
          refine (Round.advance_field _ _ _ Member.notified rank).trans ?_
          split
          · rename_i same
            rw [same]
          · rfl
        · intro target
          refine (Round.advance_field _ _ _ Member.counted target).trans ?_
          by_cases same : target = rank
          · rw [if_pos same, if_pos ⟨same, self⟩, same]
          · rw [if_neg same, if_neg fun equal => same equal.1]
            rfl
        · intro source target
          rw [if_neg fun equal => equal.2.2 self]
          rfl
  | hear rank source rest isIn next =>
      have bounded : rank < count := by
        by_contra outside
        rw [told.members rank (by omega)] at isIn
        cases isIn
      constructor
      · apply served.frame
        · exact Round.advance_keeps_queries _ _ _ rfl rfl rfl rfl
        · rfl
        · rfl
        · rfl
        · intro left right
          have counts : ∀ list : List (Parcel Query Answer),
              list = assign round.channel source rank rest left right →
                queries list = queries (round.channel left right) ∧
                  answers list = answers (round.channel left right) ∧
                  ∀ parcel ∈ list, parcel = .done ∨
                    parcel ∈ round.channel left right := by
            rintro list rfl
            rw [assign_apply]
            split
            · rename_i same
              rw [same.1, same.2, next, queries_cons, answers_cons]
              exact ⟨rfl, rfl, fun _ member => Or.inr (List.mem_cons_of_mem _ member)⟩
            · exact ⟨rfl, rfl, fun _ member => Or.inr member⟩
          exact counts _ rfl
      · apply told.hear bounded isIn next
        · exact fun rank => Round.advance_kept _ _ _ Member.entered (by rfl) rank
        · exact fun rank => Round.advance_kept _ _ _ Member.finished (by rfl) rank
        · exact fun rank => Round.advance_kept _ _ _ Member.todo (by rfl) rank
        · exact fun rank => Round.advance_kept _ _ _ Member.waiting (by rfl) rank
        · exact fun rank => Round.advance_kept _ _ _ Member.notified (by rfl) rank
        · intro rank
          refine (Round.advance_field _ _ _ Member.counted rank).trans ?_
          split
          · rename_i same
            rw [same]
          · rfl
        · rfl

/-! ## What a member can rely on -/

/-- A member that waits for nothing has taken every answer. -/
theorem Served.taken_of_waiting
    (served : Served count replies round) {client : Nat}
    (answered : (round.member client).waiting = 0) (server : Nat) :
    round.taken client server = (round.asked client server).length := by
  have balance := served.balance client server
  rcases Nat.lt_or_ge (round.taken client server)
      (round.asked client server).length with less | equal
  · have positive := served.waiting_pos less
    omega
  · omega

/-- A member that waits has a query or its answer on the way, or being served. -/
theorem Served.exists_outstanding
    (served : Served count replies round) {client : Nat}
    (positive : 0 < (round.member client).waiting) :
    ∃ server < count, 0 < queries (round.channel client server) ∨
      0 < (round.member server).serves client ∨
      0 < answers (round.channel server client) := by
  by_contra none
  push Not at none
  have each : ∀ server ∈ Finset.range count,
      round.taken client server = (round.asked client server).length := by
    intro server member
    have nothing := none server (Finset.mem_range.mp member)
    have balance := served.balance client server
    omega
  have total := served.waiting client
  rw [Finset.sum_congr rfl each] at total
  omega

/-- Once all members have told one, none has a notice for it on the way. -/
theorem Told.told_all
    (told : Told count round) {rank : Nat} (bounded : rank < count)
    (full : (round.member rank).counted = count) :
    ∀ source < count, rank < (round.member source).notified ∧
      dones (round.channel source rank) = 0 := by
  have total := told.counted rank bounded
  rw [full] at total
  have each : ∀ source ∈ Finset.range count,
      (if rank < (round.member source).notified then 1 else 0) ≤ 1 := by
    intro source _
    split <;> omega
  have most := Finset.sum_le_sum each
  rw [← Finset.card_eq_sum_ones, Finset.card_range] at most
  intro source inside
  constructor
  · by_contra untold
    have fewer : ∑ other ∈ Finset.range count,
        (if rank < (round.member other).notified then 1 else 0) <
          ∑ other ∈ Finset.range count, 1 :=
      Finset.sum_lt_sum each ⟨source, Finset.mem_range.mpr inside, by
        rw [if_neg untold]
        omega⟩
    rw [← Finset.card_eq_sum_ones, Finset.card_range] at fewer
    omega
  · have zero : ∑ other ∈ Finset.range count, dones (round.channel other rank) = 0 := by
      omega
    exact Finset.sum_eq_zero_iff.mp zero source (Finset.mem_range.mpr inside)

/-- A member told by all that has no notice on the way has counted them all. -/
theorem Told.counted_of_told
    (told : Told count round) {rank : Nat} (bounded : rank < count)
    (all : ∀ source < count, rank < (round.member source).notified)
    (none : ∀ source < count, dones (round.channel source rank) = 0) :
    (round.member rank).counted = count := by
  have total := told.counted rank bounded
  rw [Finset.sum_eq_zero fun source member => none source (Finset.mem_range.mp member),
    Finset.sum_congr rfl fun source member =>
      if_pos (all source (Finset.mem_range.mp member))] at total
  simpa using total

/-- What a member that all have told can rely on. -/
structure Settled (count : Nat) (round : Round Query Answer) (rank : Nat) : Prop where
  finished : ∀ source < count, (round.member source).finished = true
  channel : ∀ source, round.channel source rank = []
  todo : ∀ client, (round.member client).todo = [] ∨ count ≤ client
  answered : ∀ client,
    (round.replied rank client).length = (round.asked client rank).length
  taken : ∀ server, round.taken rank server = (round.asked rank server).length

theorem Sound.settled
    (sound : Sound count replies round) {rank : Nat} (bounded : rank < count)
    (full : (round.member rank).counted = count) :
    Settled count round rank := by
  obtain ⟨served, told⟩ := sound
  have all := told.told_all bounded full
  have finished : ∀ source < count, (round.member source).finished = true :=
    fun source inside => told.notified source (by
      have notified := (all source inside).1
      omega)
  have taken : ∀ client server,
      round.taken client server = (round.asked client server).length := by
    intro client server
    apply served.taken_of_waiting
    rcases Nat.lt_or_ge client count with inside | outside
    · exact (told.finished client (finished client inside)).2
    · exact (served.outside client (told.members client outside)).2.1
  have noDones : ∀ source, dones (round.channel source rank) = 0 := by
    intro source
    rcases Nat.lt_or_ge source count with inside | outside
    · exact (all source inside).2
    · have notices := told.notices source rank
      have unentered := told.outside source (told.members source outside)
      split at notices
      · rename_i notified
        have impossible := told.notified source (by omega)
        rw [unentered.1] at impossible
        cases impossible
      · omega
  refine ⟨finished, ?_, ?_, ?_, taken rank⟩
  · intro source
    have toRank := served.balance source rank
    have fromRank := served.balance rank source
    have first := taken source rank
    have second := taken rank source
    exact eq_nil_of_counts (by omega) (by omega) (noDones source)
  · intro client
    rcases Nat.lt_or_ge client count with inside | outside
    · exact Or.inl (told.finished client (finished client inside)).1
    · exact Or.inr outside
  · intro client
    have replied := served.replied client rank
    have balance := served.balance client rank
    have all := taken client rank
    omega

end Steps

end Physis.Library.ServiceRounds
