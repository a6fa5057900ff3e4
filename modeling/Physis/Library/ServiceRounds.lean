import Mathlib.Algebra.BigOperators.Group.Finset.Basic
import Mathlib.Algebra.Order.BigOperators.Group.Finset
import Mathlib.Data.List.Nodup
import Physis.Library.Channels

/-!
# Rounds of mutual service

The members of a round send each other queries, answer the queries they get,
and tell every member when all their own queries are answered.  A member leaves
once all members have told it so.  Then nothing of the round is on its way to
it any more, and everything it was asked has been answered exactly once.
-/

namespace Physis.Library.ServiceRounds

open Physis.Library.Channels

/-- What members send each other. -/
inductive Parcel (Query Answer : Type) where
  | query (query : Query)
  | answer (answer : Answer)
  | done

/-- One member of a round. -/
structure Member (Query Answer : Type) where
  entered : Bool
  /-- the queries still to send, with their servers -/
  todo : List (Nat × Query)
  /-- how many queries have no answer yet -/
  waiting : Nat
  /-- the client being served and its answer -/
  serving : Option (Nat × Answer)
  /-- all queries are answered -/
  finished : Bool
  /-- the members below this one have been told -/
  notified : Nat
  /-- how many members have told this one -/
  counted : Nat

/-- A round: its members, what is on its way, and what has happened so far. -/
structure Round (Query Answer : Type) where
  member : Nat → Member Query Answer
  channel : Nat → Nat → List (Parcel Query Answer)
  /-- the queries sent, by client and server -/
  asked : Nat → Nat → List Query
  /-- the answers sent, by server and client -/
  replied : Nat → Nat → List Answer
  /-- how many answers were taken, by client and server -/
  taken : Nat → Nat → Nat

variable {Query Answer : Type}

namespace Parcel

def isQuery : Parcel Query Answer → Bool
  | .query _ => true
  | _ => false

def isAnswer : Parcel Query Answer → Bool
  | .answer _ => true
  | _ => false

def isDone : Parcel Query Answer → Bool
  | .done => true
  | _ => false

end Parcel

/-- How many queries are on their way. -/
def queries (channel : List (Parcel Query Answer)) : Nat :=
  channel.countP Parcel.isQuery

/-- How many answers are on their way. -/
def answers (channel : List (Parcel Query Answer)) : Nat :=
  channel.countP Parcel.isAnswer

/-- How many notices are on their way. -/
def dones (channel : List (Parcel Query Answer)) : Nat :=
  channel.countP Parcel.isDone

/-- Whether a member is serving a client. -/
def Member.serves (member : Member Query Answer) (client : Nat) : Nat :=
  match member.serving with
  | none => 0
  | some (served, _) => if served = client then 1 else 0

section Counts

variable (channel : List (Parcel Query Answer)) (parcel : Parcel Query Answer)

@[simp]
theorem queries_nil : queries ([] : List (Parcel Query Answer)) = 0 :=
  rfl

@[simp]
theorem answers_nil : answers ([] : List (Parcel Query Answer)) = 0 :=
  rfl

@[simp]
theorem dones_nil : dones ([] : List (Parcel Query Answer)) = 0 :=
  rfl

theorem queries_cons :
    queries (parcel :: channel) =
      queries channel + if parcel.isQuery then 1 else 0 := by
  simp [queries, List.countP_cons]

theorem answers_cons :
    answers (parcel :: channel) =
      answers channel + if parcel.isAnswer then 1 else 0 := by
  simp [answers, List.countP_cons]

theorem dones_cons :
    dones (parcel :: channel) =
      dones channel + if parcel.isDone then 1 else 0 := by
  simp [dones, List.countP_cons]

theorem queries_append_singleton :
    queries (channel ++ [parcel]) =
      queries channel + if parcel.isQuery then 1 else 0 := by
  simp [queries, List.countP_cons]

theorem answers_append_singleton :
    answers (channel ++ [parcel]) =
      answers channel + if parcel.isAnswer then 1 else 0 := by
  simp [answers, List.countP_cons]

theorem dones_append_singleton :
    dones (channel ++ [parcel]) =
      dones channel + if parcel.isDone then 1 else 0 := by
  simp [dones, List.countP_cons]

variable {channel}

/-- A channel without queries, answers and notices is empty. -/
theorem eq_nil_of_counts
    (noQueries : queries channel = 0) (noAnswers : answers channel = 0)
    (noDones : dones channel = 0) :
    channel = [] := by
  cases channel with
  | nil => rfl
  | cons parcel rest =>
      rw [queries_cons] at noQueries
      rw [answers_cons] at noAnswers
      rw [dones_cons] at noDones
      cases parcel <;> simp [Parcel.isQuery, Parcel.isAnswer, Parcel.isDone]
        at noQueries noAnswers noDones

end Counts

/-! ## Steps -/

namespace Round

variable (round : Round Query Answer)

/-- One member goes on. -/
def advance (rank : Nat) (member : Member Query Answer) : Round Query Answer :=
  { round with member := Function.update round.member rank member }

/-- A parcel is sent. -/
def send (source target : Nat) (parcel : Parcel Query Answer) :
    Round Query Answer :=
  { round with channel := push round.channel source target parcel }

/-- The first parcel of a channel is received. -/
def receive (source target : Nat) (rest : List (Parcel Query Answer)) :
    Round Query Answer :=
  { round with channel := assign round.channel source target rest }

end Round

/-- The steps of a round of `count` members; `replies` are the right answers. -/
inductive Step
    (count : Nat) (replies : Nat → Query → Answer → Prop)
    (round : Round Query Answer) : Round Query Answer → Prop
  | enter (client : Nat) (todo : List (Nat × Query))
      (bounded : client < count)
      (outside : (round.member client).entered = false)
      (servers : ∀ entry ∈ todo, entry.1 < count)
      (once : (todo.map Prod.fst).Nodup) :
      Step count replies round
        (round.advance client
          { round.member client with entered := true, todo := todo })
  | ask (client server : Nat) (query : Query) (todo : List (Nat × Query))
      (next : (round.member client).todo = (server, query) :: todo) :
      Step count replies round
        { (round.send client server (.query query)).advance client
            { round.member client with
              todo := todo
              waiting := (round.member client).waiting + 1 } with
          asked := push round.asked client server query }
  | serve (server client : Nat) (query : Query) (answer : Answer)
      (rest : List (Parcel Query Answer))
      (entered : (round.member server).entered = true)
      (free : (round.member server).serving = none)
      (next : round.channel client server = .query query :: rest)
      (right : replies server query answer) :
      Step count replies round
        ((round.receive client server rest).advance server
          { round.member server with serving := some (client, answer) })
  | reply (server client : Nat) (answer : Answer)
      (serving : (round.member server).serving = some (client, answer)) :
      Step count replies round
        { (round.send server client (.answer answer)).advance server
            { round.member server with serving := none } with
          replied := push round.replied server client answer }
  | take (client server : Nat) (answer : Answer)
      (rest : List (Parcel Query Answer))
      (next : round.channel server client = .answer answer :: rest) :
      Step count replies round
        { (round.receive server client rest).advance client
            { round.member client with
              waiting := (round.member client).waiting - 1 } with
          taken := assign round.taken client server
            (round.taken client server + 1) }
  | finish (rank : Nat)
      (entered : (round.member rank).entered = true)
      (sent : (round.member rank).todo = [])
      (answered : (round.member rank).waiting = 0) :
      Step count replies round
        (round.advance rank { round.member rank with finished := true })
  | notify (rank : Nat)
      (finished : (round.member rank).finished = true)
      (bounded : (round.member rank).notified < count)
      (other : (round.member rank).notified ≠ rank) :
      Step count replies round
        ((round.send rank (round.member rank).notified .done).advance rank
          { round.member rank with notified := (round.member rank).notified + 1 })
  | notifySelf (rank : Nat)
      (finished : (round.member rank).finished = true)
      (bounded : (round.member rank).notified < count)
      (self : (round.member rank).notified = rank) :
      Step count replies round
        (round.advance rank
          { round.member rank with
            notified := (round.member rank).notified + 1
            counted := (round.member rank).counted + 1 })
  | hear (rank source : Nat) (rest : List (Parcel Query Answer))
      (entered : (round.member rank).entered = true)
      (next : round.channel source rank = .done :: rest) :
      Step count replies round
        ((round.receive source rank rest).advance rank
          { round.member rank with
            counted := (round.member rank).counted + 1 })

/-! ## The invariant -/

/-- Queries and answers: each is sent once, and none is lost. -/
structure Served
    (count : Nat) (replies : Nat → Query → Answer → Prop)
    (round : Round Query Answer) : Prop where
  outside : ∀ rank, (round.member rank).entered = false →
    (round.member rank).todo = [] ∧ (round.member rank).waiting = 0 ∧
      (round.member rank).serving = none ∧ ∀ server, round.asked rank server = []
  servers : ∀ rank, ∀ entry ∈ (round.member rank).todo, entry.1 < count
  once : ∀ rank, ((round.member rank).todo.map Prod.fst).Nodup
  unasked : ∀ rank, ∀ entry ∈ (round.member rank).todo,
    round.asked rank entry.1 = []
  askedOnce : ∀ client server, (round.asked client server).length ≤ 1
  askedInside : ∀ client server, count ≤ server → round.asked client server = []
  balance : ∀ client server,
    (round.asked client server).length =
      round.taken client server + answers (round.channel server client) +
        (round.member server).serves client +
        queries (round.channel client server)
  waiting : ∀ client,
    (round.member client).waiting +
        ∑ server ∈ Finset.range count, round.taken client server =
      ∑ server ∈ Finset.range count, (round.asked client server).length
  replied : ∀ client server,
    (round.replied server client).length =
      round.taken client server + answers (round.channel server client)
  query_asked : ∀ client server query,
    .query query ∈ round.channel client server → query ∈ round.asked client server
  serving_right : ∀ server client answer,
    (round.member server).serving = some (client, answer) →
      ∃ query ∈ round.asked client server, replies server query answer
  answer_replied : ∀ client server answer,
    .answer answer ∈ round.channel server client →
      answer ∈ round.replied server client
  replied_right : ∀ server client, ∀ answer ∈ round.replied server client,
    ∃ query ∈ round.asked client server, replies server query answer

/-- Notices: each member tells every other one once, when it has finished. -/
structure Told (count : Nat) (round : Round Query Answer) : Prop where
  members : ∀ rank, count ≤ rank → (round.member rank).entered = false
  outside : ∀ rank, (round.member rank).entered = false →
    (round.member rank).finished = false ∧ (round.member rank).counted = 0
  notices : ∀ source target,
    dones (round.channel source target) ≤
      if target < (round.member source).notified ∧ target ≠ source then 1 else 0
  counted : ∀ target < count,
    (round.member target).counted +
        ∑ source ∈ Finset.range count, dones (round.channel source target) =
      ∑ source ∈ Finset.range count,
        if target < (round.member source).notified then 1 else 0
  finished : ∀ rank, (round.member rank).finished = true →
    (round.member rank).todo = [] ∧ (round.member rank).waiting = 0
  notified : ∀ rank, 0 < (round.member rank).notified →
    (round.member rank).finished = true
  notified_le : ∀ rank, (round.member rank).notified ≤ count

/-- What holds between the members of a round at any time. -/
structure Sound
    (count : Nat) (replies : Nat → Query → Answer → Prop)
    (round : Round Query Answer) : Prop where
  served : Served count replies round
  told : Told count round

/-- Before any member enters. -/
def Round.start : Round Query Answer where
  member _ :=
    { entered := false
      todo := []
      waiting := 0
      serving := none
      finished := false
      notified := 0
      counted := 0 }
  channel _ _ := []
  asked _ _ := []
  replied _ _ := []
  taken _ _ := 0

theorem sound_start
    (count : Nat) (replies : Nat → Query → Answer → Prop) :
    Sound count replies Round.start := by
  constructor
  · constructor <;> simp [Round.start, Member.serves]
  · constructor <;> simp [Round.start]

/-! ## Every step preserves it -/

/-- A sum changes by the change of the one term that changes. -/
theorem sum_range_changed
    {count i : Nat} (inside : i < count) (before after : Nat → Nat)
    (others : ∀ j, j ≠ i → after j = before j) :
    ∑ j ∈ Finset.range count, after j + before i =
      ∑ j ∈ Finset.range count, before j + after i := by
  have member := Finset.mem_range.mpr inside
  rw [← Finset.sum_erase_add _ after member, ← Finset.sum_erase_add _ before member]
  have same : ∑ j ∈ (Finset.range count).erase i, after j =
      ∑ j ∈ (Finset.range count).erase i, before j :=
    Finset.sum_congr rfl fun j inErased => others j (Finset.ne_of_mem_erase inErased)
  omega

namespace Round

variable (round : Round Query Answer) (rank : Nat) (member : Member Query Answer)

@[simp]
theorem send_replied (source target : Nat) (parcel : Parcel Query Answer) :
    (round.send source target parcel).replied = round.replied :=
  rfl

@[simp]
theorem send_taken (source target : Nat) (parcel : Parcel Query Answer) :
    (round.send source target parcel).taken = round.taken :=
  rfl

theorem advance_member (other : Nat) :
    (round.advance rank member).member other =
      if other = rank then member else round.member other :=
  Function.update_apply _ _ _ _

/-- A field of the members after one of them goes on. -/
theorem advance_field {Value : Type} (field : Member Query Answer → Value) (other : Nat) :
    field ((round.advance rank member).member other) =
      if other = rank then field member else field (round.member other) := by
  rw [advance_member]
  split <;> rfl

/-- A field that the member keeps is kept by all. -/
theorem advance_kept
    {Value : Type} (field : Member Query Answer → Value)
    (kept : field member = field (round.member rank)) (other : Nat) :
    field ((round.advance rank member).member other) =
      field (round.member other) := by
  rw [advance_member]
  split
  · rename_i same
    rw [kept, same]
  · rfl

/-- A member that keeps what it has told and heard leaves that of all. -/
theorem advance_keeps_notices
    (entered : member.entered = (round.member rank).entered)
    (finished : member.finished = (round.member rank).finished)
    (notified : member.notified = (round.member rank).notified)
    (counted : member.counted = (round.member rank).counted) (other : Nat) :
    ((round.advance rank member).member other).entered =
        (round.member other).entered ∧
      ((round.advance rank member).member other).finished =
        (round.member other).finished ∧
      ((round.advance rank member).member other).notified =
        (round.member other).notified ∧
      ((round.advance rank member).member other).counted =
        (round.member other).counted :=
  ⟨advance_kept _ _ _ Member.entered entered other,
    advance_kept _ _ _ Member.finished finished other,
    advance_kept _ _ _ Member.notified notified other,
    advance_kept _ _ _ Member.counted counted other⟩

/-- A member that keeps its queries and the one it serves leaves those of all. -/
theorem advance_keeps_queries
    (entered : member.entered = (round.member rank).entered)
    (todo : member.todo = (round.member rank).todo)
    (waiting : member.waiting = (round.member rank).waiting)
    (serving : member.serving = (round.member rank).serving) (other : Nat) :
    ((round.advance rank member).member other).entered =
        (round.member other).entered ∧
      ((round.advance rank member).member other).todo =
        (round.member other).todo ∧
      ((round.advance rank member).member other).waiting =
        (round.member other).waiting ∧
      ((round.advance rank member).member other).serving =
        (round.member other).serving :=
  ⟨advance_kept _ _ _ Member.entered entered other,
    advance_kept _ _ _ Member.todo todo other,
    advance_kept _ _ _ Member.waiting waiting other,
    advance_kept _ _ _ Member.serving serving other⟩

@[simp]
theorem advance_channel : (round.advance rank member).channel = round.channel :=
  rfl

@[simp]
theorem advance_asked : (round.advance rank member).asked = round.asked :=
  rfl

@[simp]
theorem advance_replied : (round.advance rank member).replied = round.replied :=
  rfl

@[simp]
theorem advance_taken : (round.advance rank member).taken = round.taken :=
  rfl

end Round

section Steps

variable
    {count : Nat} {replies : Nat → Query → Answer → Prop}
    {round after : Round Query Answer}

/-- A step that only moves notices keeps what concerns queries and answers. -/
theorem Served.frame
    (served : Served count replies round)
    (member : ∀ rank, (after.member rank).entered = (round.member rank).entered ∧
      (after.member rank).todo = (round.member rank).todo ∧
      (after.member rank).waiting = (round.member rank).waiting ∧
      (after.member rank).serving = (round.member rank).serving)
    (asked : after.asked = round.asked) (replied : after.replied = round.replied)
    (taken : after.taken = round.taken)
    (channel : ∀ source target,
      queries (after.channel source target) =
          queries (round.channel source target) ∧
        answers (after.channel source target) =
          answers (round.channel source target) ∧
        ∀ parcel ∈ after.channel source target, parcel = .done ∨
          parcel ∈ round.channel source target) :
    Served count replies after where
  outside rank := by
    obtain ⟨entered, todo, waiting, serving⟩ := member rank
    rw [entered, todo, waiting, serving, asked]
    exact served.outside rank
  servers rank := by
    rw [(member rank).2.1]
    exact served.servers rank
  once rank := by
    rw [(member rank).2.1]
    exact served.once rank
  unasked rank := by
    rw [(member rank).2.1, asked]
    exact served.unasked rank
  askedOnce := by
    rw [asked]
    exact served.askedOnce
  askedInside := by
    rw [asked]
    exact served.askedInside
  balance client server := by
    have serves : (after.member server).serves client =
        (round.member server).serves client := by
      simp only [Member.serves, (member server).2.2.2]
    rw [asked, taken, serves, (channel server client).2.1, (channel client server).1]
    exact served.balance client server
  waiting client := by
    rw [(member client).2.2.1, asked, taken]
    exact served.waiting client
  replied client server := by
    rw [replied, taken, (channel server client).2.1]
    exact served.replied client server
  query_asked client server query inChannel := by
    rw [asked]
    rcases (channel client server).2.2 _ inChannel with impossible | before
    · cases impossible
    · exact served.query_asked client server query before
  serving_right server := by
    rw [(member server).2.2.2, asked]
    exact served.serving_right server
  answer_replied client server answer inChannel := by
    rw [replied]
    rcases (channel server client).2.2 _ inChannel with impossible | before
    · cases impossible
    · exact served.answer_replied client server answer before
  replied_right := by
    rw [replied, asked]
    exact served.replied_right

/-- A step that only moves queries and answers keeps what concerns notices. -/
theorem Told.frame
    (told : Told count round)
    (member : ∀ rank, (after.member rank).entered = (round.member rank).entered ∧
      (after.member rank).finished = (round.member rank).finished ∧
      (after.member rank).notified = (round.member rank).notified ∧
      (after.member rank).counted = (round.member rank).counted)
    (channel : ∀ source target,
      dones (after.channel source target) = dones (round.channel source target))
    (finished : ∀ rank, (round.member rank).finished = true →
      (after.member rank).todo = [] ∧ (after.member rank).waiting = 0) :
    Told count after where
  members rank outside := by
    rw [(member rank).1]
    exact told.members rank outside
  outside rank := by
    rw [(member rank).1, (member rank).2.1, (member rank).2.2.2]
    exact told.outside rank
  notices source target := by
    rw [channel, (member source).2.2.1]
    exact told.notices source target
  counted target inside := by
    simp only [channel, (member _).2.2.1, (member _).2.2.2]
    exact told.counted target inside
  finished rank isFinished := by
    rw [(member rank).2.1] at isFinished
    exact finished rank isFinished
  notified rank := by
    rw [(member rank).2.2.1, (member rank).2.1]
    exact told.notified rank
  notified_le rank := by
    rw [(member rank).2.2.1]
    exact told.notified_le rank

end Steps

end Physis.Library.ServiceRounds
