import Physis.Library.ServiceRounds

/-!
# Every step of a service round keeps its invariant

One lemma for each step, about the part of the invariant the step touches.
-/

namespace Physis.Library.ServiceRounds

open Physis.Library.Channels

variable {Query Answer : Type}

section Steps

variable
    {count : Nat} {replies : Nat → Query → Answer → Prop}
    {round after : Round Query Answer}

theorem Member.serves_congr
    {left right : Member Query Answer} (same : left.serving = right.serving)
    (client : Nat) :
    left.serves client = right.serves client := by
  simp only [Member.serves, same]

theorem Served.enter
    (served : Served count replies round) {client : Nat} {todo : List (Nat × Query)}
    (outside : (round.member client).entered = false)
    (servers : ∀ entry ∈ todo, entry.1 < count)
    (once : (todo.map Prod.fst).Nodup)
    (enteredAt : ∀ rank, rank ≠ client →
      (after.member rank).entered = (round.member rank).entered)
    (entered : (after.member client).entered = true)
    (todoAt : ∀ rank, (after.member rank).todo =
      if rank = client then todo else (round.member rank).todo)
    (waiting : ∀ rank, (after.member rank).waiting = (round.member rank).waiting)
    (serving : ∀ rank, (after.member rank).serving = (round.member rank).serving)
    (asked : after.asked = round.asked) (replied : after.replied = round.replied)
    (taken : after.taken = round.taken) (channel : after.channel = round.channel) :
    Served count replies after := by
  constructor
  · intro rank stillOutside
    have different : rank ≠ client := by
      rintro rfl
      rw [entered] at stillOutside
      cases stillOutside
    rw [enteredAt rank different] at stillOutside
    rw [todoAt, if_neg different, waiting, serving, asked]
    exact served.outside rank stillOutside
  · intro rank
    rw [todoAt]
    split
    · exact servers
    · exact served.servers rank
  · intro rank
    rw [todoAt]
    split
    · exact once
    · exact served.once rank
  · intro rank
    rw [todoAt, asked]
    split
    · rename_i same
      subst same
      intro entry _
      exact (served.outside rank outside).2.2.2 entry.1
    · exact served.unasked rank
  · rw [asked]
    exact served.askedOnce
  · rw [asked]
    exact served.askedInside
  · intro asker server
    rw [asked, taken, channel, Member.serves_congr (serving server)]
    exact served.balance asker server
  · intro asker
    rw [waiting, asked, taken]
    exact served.waiting asker
  · rw [replied, taken, channel]
    exact served.replied
  · rw [channel, asked]
    exact served.query_asked
  · intro server
    rw [serving, asked]
    exact served.serving_right server
  · rw [channel, replied]
    exact served.answer_replied
  · rw [replied, asked]
    exact served.replied_right

theorem Served.ask
    (served : Served count replies round)
    {client server : Nat} {query : Query} {todo : List (Nat × Query)}
    (next : (round.member client).todo = (server, query) :: todo)
    (entered : ∀ rank, (after.member rank).entered = (round.member rank).entered)
    (todoAt : ∀ rank, (after.member rank).todo =
      if rank = client then todo else (round.member rank).todo)
    (waitingAt : ∀ rank, (after.member rank).waiting =
      (round.member rank).waiting + if rank = client then 1 else 0)
    (serving : ∀ rank, (after.member rank).serving = (round.member rank).serving)
    (asked : after.asked = push round.asked client server query)
    (replied : after.replied = round.replied) (taken : after.taken = round.taken)
    (channel : after.channel = push round.channel client server (.query query)) :
    Served count replies after := by
  have inside : server < count :=
    served.servers client (server, query) (by rw [next]; simp)
  have unasked : round.asked client server = [] :=
    served.unasked client (server, query) (by rw [next]; simp)
  have distinct := served.once client
  rw [next, List.map_cons, List.nodup_cons] at distinct
  have later : ∀ entry ∈ todo, entry ∈ (round.member client).todo := by
    intro entry member
    rw [next]
    exact List.mem_cons_of_mem _ member
  have grown : ∀ left right, round.asked left right <+: after.asked left right := by
    intro left right
    rw [asked]
    exact prefix_push _ _ _ _ _ _
  have answersSame : ∀ left right,
      answers (after.channel left right) = answers (round.channel left right) := by
    intro left right
    rw [channel, push_apply]
    split
    · rename_i same
      rw [same.1, same.2, answers_append_singleton]
      rfl
    · rfl
  constructor
  · intro rank outside
    rw [entered] at outside
    obtain ⟨todoNil, waiting, free, none⟩ := served.outside rank outside
    have different : rank ≠ client := by
      rintro rfl
      rw [next] at todoNil
      cases todoNil
    refine ⟨?_, ?_, ?_, ?_⟩
    · rw [todoAt, if_neg different, todoNil]
    · rw [waitingAt, if_neg different, waiting]
    · rw [serving, free]
    · intro other
      rw [asked, push_apply, if_neg fun equal => different equal.1, none]
  · intro rank entry
    rw [todoAt]
    split
    · exact fun member => served.servers client entry (later entry member)
    · exact served.servers rank entry
  · intro rank
    rw [todoAt]
    split
    · exact distinct.2
    · exact served.once rank
  · intro rank entry
    rw [todoAt, asked, push_apply]
    split
    · rename_i same
      subst same
      intro member
      rw [if_neg ?_]
      · exact served.unasked rank entry (later entry member)
      · rintro ⟨_, equal⟩
        exact distinct.1 (List.mem_map.mpr ⟨entry, member, equal⟩)
    · rename_i different
      rw [if_neg fun equal => different equal.1]
      exact served.unasked rank entry
  · intro left right
    rw [asked, push_apply]
    split
    · rw [unasked]
      exact le_rfl
    · exact served.askedOnce left right
  · intro left right outside
    rw [asked, push_apply, if_neg (by omega)]
    exact served.askedInside left right outside
  · intro left right
    have before := served.balance left right
    rw [Member.serves_congr (serving right), answersSame, taken, asked, channel,
      push_apply, push_apply]
    split
    · rename_i same
      obtain ⟨rfl, rfl⟩ := same
      rw [List.length_append, queries_append_singleton]
      simp only [List.length_singleton, Parcel.isQuery, if_true]
      omega
    · exact before
  · intro asker
    have before := served.waiting asker
    rw [waitingAt, taken]
    by_cases same : asker = client
    · subst same
      have changed := sum_range_changed inside
        (fun other => (round.asked asker other).length)
        (fun other => (after.asked asker other).length)
        (by
          intro other different
          simp only [asked, push_apply, if_neg fun equal : _ ∧ _ => different equal.2])
      have own : (after.asked asker server).length =
          (round.asked asker server).length + 1 := by
        rw [asked, push_same, List.length_append]
        rfl
      simp only [if_true]
      omega
    · rw [if_neg same, asked]
      simp only [push_apply, same, false_and, if_false]
      exact before
  · intro left right
    rw [replied, taken, answersSame]
    exact served.replied left right
  · intro left right other inChannel
    rw [channel, push_apply] at inChannel
    split at inChannel
    · rename_i same
      obtain ⟨rfl, rfl⟩ := same
      rw [List.mem_append, List.mem_singleton] at inChannel
      rcases inChannel with before | here
      · exact (grown _ _).subset (served.query_asked _ _ other before)
      · cases here
        rw [asked, push_same]
        exact List.mem_append_right _ (List.mem_singleton_self _)
    · exact (grown _ _).subset (served.query_asked _ _ other inChannel)
  · intro left right answer isServing
    rw [serving] at isServing
    obtain ⟨other, member, right⟩ := served.serving_right _ _ _ isServing
    exact ⟨other, (grown _ _).subset member, right⟩
  · intro left right answer inChannel
    rw [replied]
    rw [channel, push_apply] at inChannel
    apply served.answer_replied
    split at inChannel
    · rename_i same
      rw [List.mem_append, List.mem_singleton] at inChannel
      rcases inChannel with before | here
      · rw [same.1, same.2]
        exact before
      · cases here
    · exact inChannel
  · intro left right answer member
    rw [replied] at member
    obtain ⟨other, found, right⟩ := served.replied_right _ _ answer member
    exact ⟨other, (grown _ _).subset found, right⟩

theorem Served.serve
    (served : Served count replies round)
    {server client : Nat} {query : Query} {answer : Answer}
    {rest : List (Parcel Query Answer)}
    (isIn : (round.member server).entered = true)
    (free : (round.member server).serving = none)
    (next : round.channel client server = .query query :: rest)
    (right : replies server query answer)
    (entered : ∀ rank, (after.member rank).entered = (round.member rank).entered)
    (todo : ∀ rank, (after.member rank).todo = (round.member rank).todo)
    (waiting : ∀ rank, (after.member rank).waiting = (round.member rank).waiting)
    (servingAt : ∀ rank, (after.member rank).serving =
      if rank = server then some (client, answer) else (round.member rank).serving)
    (asked : after.asked = round.asked) (replied : after.replied = round.replied)
    (taken : after.taken = round.taken)
    (channel : after.channel = assign round.channel client server rest) :
    Served count replies after := by
  have answersSame : ∀ left right,
      answers (after.channel left right) = answers (round.channel left right) := by
    intro left right
    rw [channel, assign_apply]
    split
    · rename_i same
      rw [same.1, same.2, next, answers_cons]
      rfl
    · rfl
  have fewer : ∀ left right, ∀ parcel ∈ after.channel left right,
      parcel ∈ round.channel left right := by
    intro left right parcel
    rw [channel, assign_apply]
    split
    · rename_i same
      rw [same.1, same.2, next]
      exact List.mem_cons_of_mem _
    · exact id
  constructor
  · intro rank outside
    rw [entered] at outside
    have different : rank ≠ server := by
      rintro rfl
      rw [isIn] at outside
      cases outside
    rw [todo, waiting, servingAt, if_neg different, asked]
    exact served.outside rank outside
  · intro rank
    rw [todo]
    exact served.servers rank
  · intro rank
    rw [todo]
    exact served.once rank
  · intro rank
    rw [todo, asked]
    exact served.unasked rank
  · rw [asked]
    exact served.askedOnce
  · rw [asked]
    exact served.askedInside
  · intro left other
    have before := served.balance left other
    rw [asked, taken, answersSame]
    by_cases same : other = server
    · subst same
      have serving := servingAt other
      rw [if_pos rfl] at serving
      simp only [Member.serves, serving, free] at before ⊢
      rw [channel, assign_apply]
      by_cases here : left = client
      · subst here
        rw [if_pos rfl, if_pos ⟨rfl, rfl⟩]
        rw [next, queries_cons] at before
        simp only [Parcel.isQuery, if_true] at before
        omega
      · rw [if_neg fun equal => here equal.symm, if_neg fun equal => here equal.1]
        exact before
    · have serving := servingAt other
      rw [if_neg same] at serving
      rw [Member.serves_congr serving, channel, assign_apply,
        if_neg fun equal => same equal.2]
      exact before
  · intro asker
    rw [waiting, asked, taken]
    exact served.waiting asker
  · intro left other
    rw [replied, taken, answersSame]
    exact served.replied left other
  · intro left other found inChannel
    rw [asked]
    exact served.query_asked _ _ _ (fewer _ _ _ inChannel)
  · intro rank other given isServing
    rw [servingAt] at isServing
    rw [asked]
    split at isServing
    · rename_i same
      cases isServing
      subst same
      exact ⟨query, served.query_asked _ _ query (by rw [next]; simp), right⟩
    · exact served.serving_right _ _ _ isServing
  · intro left other given inChannel
    rw [replied]
    exact served.answer_replied _ _ _ (fewer _ _ _ inChannel)
  · rw [replied, asked]
    exact served.replied_right

theorem Served.reply
    (served : Served count replies round)
    {server client : Nat} {answer : Answer}
    (busy : (round.member server).serving = some (client, answer))
    (entered : ∀ rank, (after.member rank).entered = (round.member rank).entered)
    (todo : ∀ rank, (after.member rank).todo = (round.member rank).todo)
    (waiting : ∀ rank, (after.member rank).waiting = (round.member rank).waiting)
    (servingAt : ∀ rank, (after.member rank).serving =
      if rank = server then none else (round.member rank).serving)
    (asked : after.asked = round.asked)
    (replied : after.replied = push round.replied server client answer)
    (taken : after.taken = round.taken)
    (channel : after.channel = push round.channel server client (.answer answer)) :
    Served count replies after := by
  have queriesSame : ∀ left right,
      queries (after.channel left right) = queries (round.channel left right) := by
    intro left right
    rw [channel, push_apply]
    split
    · rename_i same
      rw [same.1, same.2, queries_append_singleton]
      rfl
    · rfl
  constructor
  · intro rank outside
    rw [entered] at outside
    have none := served.outside rank outside
    have different : rank ≠ server := by
      rintro rfl
      rw [busy] at none
      cases none.2.2.1
    rw [todo, waiting, servingAt, if_neg different, asked]
    exact none
  · intro rank
    rw [todo]
    exact served.servers rank
  · intro rank
    rw [todo]
    exact served.once rank
  · intro rank
    rw [todo, asked]
    exact served.unasked rank
  · rw [asked]
    exact served.askedOnce
  · rw [asked]
    exact served.askedInside
  · intro left other
    have before := served.balance left other
    rw [asked, taken, queriesSame]
    by_cases same : other = server
    · subst same
      have serving := servingAt other
      rw [if_pos rfl] at serving
      simp only [Member.serves, serving, busy] at before ⊢
      rw [channel, push_apply]
      by_cases here : left = client
      · subst here
        rw [if_pos ⟨rfl, rfl⟩, answers_append_singleton]
        rw [if_pos rfl] at before
        simp only [Parcel.isAnswer, if_true]
        omega
      · rw [if_neg fun equal => here equal.2]
        rw [if_neg fun equal => here equal.symm] at before
        exact before
    · have serving := servingAt other
      rw [if_neg same] at serving
      rw [Member.serves_congr serving, channel, push_apply,
        if_neg fun equal => same equal.1]
      exact before
  · intro asker
    rw [waiting, asked, taken]
    exact served.waiting asker
  · intro left other
    have before := served.replied left other
    rw [replied, taken, channel, push_apply, push_apply]
    split
    · rename_i same
      obtain ⟨rfl, rfl⟩ := same
      rw [List.length_append, answers_append_singleton]
      simp only [List.length_singleton, Parcel.isAnswer, if_true]
      omega
    · exact before
  · intro left other found inChannel
    rw [asked]
    rw [channel, push_apply] at inChannel
    apply served.query_asked
    split at inChannel
    · rename_i same
      rw [List.mem_append, List.mem_singleton] at inChannel
      rcases inChannel with before | here
      · rw [same.1, same.2]
        exact before
      · cases here
    · exact inChannel
  · intro rank other given isServing
    rw [servingAt] at isServing
    rw [asked]
    split at isServing
    · cases isServing
    · exact served.serving_right _ _ _ isServing
  · intro left other given inChannel
    rw [replied]
    rw [channel, push_apply] at inChannel
    split at inChannel
    · rename_i same
      obtain ⟨rfl, rfl⟩ := same
      rw [push_same]
      rw [List.mem_append, List.mem_singleton] at inChannel ⊢
      rcases inChannel with before | here
      · exact Or.inl (served.answer_replied _ _ _ before)
      · cases here
        exact Or.inr rfl
    · rename_i different
      rw [push_apply, if_neg different]
      exact served.answer_replied _ _ _ inChannel
  · intro left other given member
    rw [asked]
    rw [replied, push_apply] at member
    split at member
    · rename_i same
      obtain ⟨rfl, rfl⟩ := same
      rw [List.mem_append, List.mem_singleton] at member
      rcases member with before | rfl
      · exact served.replied_right _ _ _ before
      · exact served.serving_right _ _ _ busy
    · exact served.replied_right _ _ _ member

/-- A member with an answer on its way is waiting for it. -/
theorem Served.waiting_pos
    (served : Served count replies round) {client server : Nat}
    (outstanding : round.taken client server < (round.asked client server).length) :
    0 < (round.member client).waiting := by
  have inside : server < count := by
    by_contra outside
    rw [served.askedInside client server (by omega)] at outstanding
    exact absurd outstanding (Nat.not_lt_zero _)
  have total := served.waiting client
  have each : ∀ other ∈ Finset.range count,
      round.taken client other ≤ (round.asked client other).length := by
    intro other _
    have balance := served.balance client other
    omega
  have more := Finset.sum_lt_sum each ⟨server, Finset.mem_range.mpr inside, outstanding⟩
  omega

theorem Served.take
    (served : Served count replies round)
    {client server : Nat} {answer : Answer} {rest : List (Parcel Query Answer)}
    (next : round.channel server client = .answer answer :: rest)
    (entered : ∀ rank, (after.member rank).entered = (round.member rank).entered)
    (todo : ∀ rank, (after.member rank).todo = (round.member rank).todo)
    (waitingAt : ∀ rank, (after.member rank).waiting =
      (round.member rank).waiting - if rank = client then 1 else 0)
    (serving : ∀ rank, (after.member rank).serving = (round.member rank).serving)
    (asked : after.asked = round.asked) (replied : after.replied = round.replied)
    (taken : after.taken =
      assign round.taken client server (round.taken client server + 1))
    (channel : after.channel = assign round.channel server client rest) :
    Served count replies after := by
  have balanceHere := served.balance client server
  rw [next, answers_cons] at balanceHere
  simp only [Parcel.isAnswer, if_true] at balanceHere
  have positive := served.waiting_pos (show round.taken client server < _ by omega)
  have inside : server < count := by
    by_contra outside
    rw [served.askedInside client server (by omega), List.length_nil] at balanceHere
    omega
  have fewer : ∀ left right, ∀ parcel ∈ after.channel left right,
      parcel ∈ round.channel left right := by
    intro left right parcel
    rw [channel, assign_apply]
    split
    · rename_i same
      rw [same.1, same.2, next]
      exact List.mem_cons_of_mem _
    · exact id
  have moved : ∀ asker other,
      after.taken asker other + answers (after.channel other asker) =
        round.taken asker other + answers (round.channel other asker) := by
    intro asker other
    rw [taken, channel, assign_apply, assign_apply]
    by_cases same : asker = client ∧ other = server
    · obtain ⟨rfl, rfl⟩ := same
      rw [if_pos ⟨rfl, rfl⟩, if_pos ⟨rfl, rfl⟩, next, answers_cons]
      simp only [Parcel.isAnswer, if_true]
      omega
    · rw [if_neg same, if_neg fun equal => same ⟨equal.2, equal.1⟩]
  have queriesSame : ∀ left right,
      queries (after.channel left right) = queries (round.channel left right) := by
    intro left right
    rw [channel, assign_apply]
    split
    · rename_i same
      rw [same.1, same.2, next, queries_cons]
      rfl
    · rfl
  constructor
  · intro rank outside
    rw [entered] at outside
    have none := served.outside rank outside
    have different : rank ≠ client := by
      rintro rfl
      have waiting := none.2.1
      omega
    rw [todo, waitingAt, if_neg different, serving, asked]
    exact none
  · intro rank
    rw [todo]
    exact served.servers rank
  · intro rank
    rw [todo]
    exact served.once rank
  · intro rank
    rw [todo, asked]
    exact served.unasked rank
  · rw [asked]
    exact served.askedOnce
  · rw [asked]
    exact served.askedInside
  · intro asker other
    have before := served.balance asker other
    have same := moved asker other
    rw [asked, Member.serves_congr (serving other), queriesSame]
    omega
  · intro asker
    have before := served.waiting asker
    rw [waitingAt, asked]
    by_cases same : asker = client
    · subst same
      have changed := sum_range_changed inside (fun other => round.taken asker other)
        (fun other => after.taken asker other)
        (by
          intro other different
          simp only [taken, assign_apply, if_neg fun equal : _ ∧ _ => different equal.2])
      have own : after.taken asker server = round.taken asker server + 1 := by
        rw [taken, assign_apply, if_pos ⟨rfl, rfl⟩]
      simp only [if_true]
      omega
    · rw [if_neg same, taken]
      simp only [assign_apply, same, false_and, if_false]
      exact before
  · intro asker other
    rw [replied, moved]
    exact served.replied asker other
  · intro left other found inChannel
    rw [asked]
    exact served.query_asked _ _ _ (fewer _ _ _ inChannel)
  · intro rank
    rw [serving, asked]
    exact served.serving_right rank
  · intro left other given inChannel
    rw [replied]
    exact served.answer_replied _ _ _ (fewer _ _ _ inChannel)
  · rw [replied, asked]
    exact served.replied_right

/-- A member that enters or finishes tells nobody yet. -/
theorem Told.advance
    (told : Told count round) {rank : Nat} {member : Member Query Answer}
    (bounded : rank < count) (entered : member.entered = true)
    (notified : member.notified = (round.member rank).notified)
    (counted : member.counted = (round.member rank).counted)
    (finished : member.finished = true → member.todo = [] ∧ member.waiting = 0)
    (kept : (round.member rank).finished = true → member.finished = true) :
    Told count (round.advance rank member) := by
  have notifiedSame : ∀ other, ((round.advance rank member).member other).notified =
      (round.member other).notified := by
    intro other
    rw [Round.advance_member]
    split
    · rename_i same
      rw [notified, same]
    · rfl
  have countedSame : ∀ other, ((round.advance rank member).member other).counted =
      (round.member other).counted := by
    intro other
    rw [Round.advance_member]
    split
    · rename_i same
      rw [counted, same]
    · rfl
  constructor
  · intro other outside
    rw [Round.advance_member, if_neg (by omega)]
    exact told.members other outside
  · intro other
    rw [Round.advance_member]
    split
    · intro impossible
      rw [entered] at impossible
      cases impossible
    · exact told.outside other
  · intro source target
    rw [notifiedSame]
    exact told.notices source target
  · intro target inside
    simp only [notifiedSame, countedSame]
    exact told.counted target inside
  · intro other
    rw [Round.advance_member]
    split
    · exact finished
    · exact told.finished other
  · intro other
    rw [Round.advance_member]
    split
    · rename_i same
      subst same
      rw [notified]
      exact fun positive => kept (told.notified other positive)
    · exact told.notified other
  · intro other
    rw [notifiedSame]
    exact told.notified_le other

/-- A member tells the next one, itself or another. -/
theorem Told.notify
    (told : Told count round) {rank : Nat}
    (isFinished : (round.member rank).finished = true)
    (room : (round.member rank).notified < count)
    (entered : ∀ other, (after.member other).entered = (round.member other).entered)
    (finished : ∀ other, (after.member other).finished = (round.member other).finished)
    (todo : ∀ other, (after.member other).todo = (round.member other).todo)
    (waiting : ∀ other, (after.member other).waiting = (round.member other).waiting)
    (notifiedAt : ∀ other, (after.member other).notified =
      (round.member other).notified + if other = rank then 1 else 0)
    (countedAt : ∀ other, (after.member other).counted =
      (round.member other).counted +
        if other = rank ∧ (round.member rank).notified = rank then 1 else 0)
    (donesAt : ∀ source target, dones (after.channel source target) =
      dones (round.channel source target) +
        if source = rank ∧ target = (round.member rank).notified ∧
          (round.member rank).notified ≠ rank then 1 else 0) :
    Told count after := by
  have bounded : rank < count := by
    by_contra outside
    have notIn := told.outside rank (told.members rank (by omega))
    rw [isFinished] at notIn
    cases notIn.1
  constructor
  · intro other outside
    rw [entered]
    exact told.members other outside
  · intro other outside
    rw [entered] at outside
    have notIn := told.outside other outside
    have different : other ≠ rank := by
      rintro rfl
      rw [isFinished] at notIn
      cases notIn.1
    rw [finished, countedAt, if_neg fun equal => different equal.1]
    exact notIn
  · intro source target
    have before := told.notices source target
    rw [donesAt, notifiedAt]
    by_cases same : source = rank
    · subst same
      by_cases toldNow : target = (round.member source).notified
      · subst toldNow
        rw [if_neg (by omega)] at before
        simp only [true_and, if_true]
        split <;> split <;> omega
      · rw [if_neg fun equal => toldNow equal.2.1]
        simp only [if_true]
        split at before
        · rename_i already
          rw [if_pos (by omega)]
          omega
        · omega
    · rw [if_neg fun equal => same equal.1, if_neg same]
      exact before
  · intro target inside
    have before := told.counted target inside
    have noticesChanged := sum_range_changed bounded
      (fun source => dones (round.channel source target))
      (fun source => dones (after.channel source target))
      (by
        intro source different
        simp only [donesAt, if_neg fun equal : _ ∧ _ => different equal.1]
        rfl)
    have notifiedChanged := sum_range_changed bounded
      (fun source => if target < (round.member source).notified then 1 else 0)
      (fun source => if target < (after.member source).notified then 1 else 0)
      (by
        intro source different
        simp only [notifiedAt, if_neg different]
        rfl)
    simp only [donesAt rank target, notifiedAt rank, true_and, if_true]
      at noticesChanged notifiedChanged
    rw [countedAt]
    by_cases toldNow : target = (round.member rank).notified
    · subst toldNow
      rw [if_pos (Nat.lt_succ_self _), if_neg (lt_irrefl _)] at notifiedChanged
      by_cases self : (round.member rank).notified = rank
      · rw [if_neg fun equal => equal.2 self] at noticesChanged
        rw [if_pos ⟨self, self⟩]
        omega
      · rw [if_pos ⟨rfl, self⟩] at noticesChanged
        rw [if_neg fun equal => self equal.2]
        omega
    · rw [if_neg fun equal => toldNow equal.1] at noticesChanged
      rw [if_neg fun equal => toldNow (equal.1.trans equal.2.symm)]
      have sameIndicator :
          (if target < (round.member rank).notified + 1 then 1 else 0) =
            if target < (round.member rank).notified then 1 else 0 := by
        by_cases already : target < (round.member rank).notified
        · rw [if_pos already, if_pos (by omega)]
        · rw [if_neg already, if_neg (by omega)]
      rw [sameIndicator] at notifiedChanged
      omega
  · intro other
    rw [finished, todo, waiting]
    exact told.finished other
  · intro other positive
    rw [finished]
    rw [notifiedAt] at positive
    by_cases same : other = rank
    · rw [same]
      exact isFinished
    · rw [if_neg same] at positive
      exact told.notified other positive
  · intro other
    rw [notifiedAt]
    split
    · rename_i same
      rw [same]
      omega
    · exact told.notified_le other

/-- A member counts a notice. -/
theorem Told.hear
    (told : Told count round) {rank source : Nat} {rest : List (Parcel Query Answer)}
    (bounded : rank < count)
    (isIn : (round.member rank).entered = true)
    (next : round.channel source rank = .done :: rest)
    (entered : ∀ other, (after.member other).entered = (round.member other).entered)
    (finished : ∀ other, (after.member other).finished = (round.member other).finished)
    (todo : ∀ other, (after.member other).todo = (round.member other).todo)
    (waiting : ∀ other, (after.member other).waiting = (round.member other).waiting)
    (notified : ∀ other,
      (after.member other).notified = (round.member other).notified)
    (countedAt : ∀ other, (after.member other).counted =
      (round.member other).counted + if other = rank then 1 else 0)
    (channel : after.channel = assign round.channel source rank rest) :
    Told count after := by
  have noticesHere := told.notices source rank
  rw [next, dones_cons] at noticesHere
  simp only [Parcel.isDone, if_true] at noticesHere
  have sourceInside : source < count := by
    by_contra outside
    have positive : 0 < (round.member source).notified := by
      split at noticesHere <;> omega
    have notIn := told.outside source (told.members source (by omega))
    rw [told.notified source positive] at notIn
    cases notIn.1
  have donesAt : ∀ left right, dones (after.channel left right) +
      (if left = source ∧ right = rank then 1 else 0) =
        dones (round.channel left right) := by
    intro left right
    rw [channel, assign_apply]
    split
    · rename_i same
      rw [same.1, same.2, next, dones_cons]
      rfl
    · rfl
  constructor
  · intro other outside
    rw [entered]
    exact told.members other outside
  · intro other outside
    rw [entered] at outside
    have different : other ≠ rank := by
      rintro rfl
      rw [isIn] at outside
      cases outside
    rw [finished, countedAt, if_neg different]
    exact told.outside other outside
  · intro left right
    have before := told.notices left right
    have fewer := donesAt left right
    rw [notified]
    omega
  · intro target inside
    have before := told.counted target inside
    have changed := sum_range_changed sourceInside
      (fun left => dones (round.channel left target))
      (fun left => dones (after.channel left target))
      (by
        intro left different
        have same := donesAt left target
        rw [if_neg fun equal => different equal.1] at same
        exact same)
    have own := donesAt source target
    simp only [true_and] at own
    simp only [notified]
    rw [countedAt]
    omega
  · intro other
    rw [finished, todo, waiting]
    exact told.finished other
  · intro other
    rw [notified, finished]
    exact told.notified other
  · intro other
    rw [notified]
    exact told.notified_le other

end Steps

end Physis.Library.ServiceRounds
