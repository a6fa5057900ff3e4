import Physis.Library.Determinacy

/-!
# Programs that talk to each other

A talk is what one process still has to do: it sends a message, receives the
next message of a process it names, or returns.  If every send of a system can
be met by its receive at once, then every run of the system gets to the same
end, whether sends are buffered without bound or not at all.
-/

namespace Physis.Library.Talks

open Physis.Library.Channels
open Physis.Library.Networks
open Physis.Library.Determinacy
open Physis.Library.Runs

/-- The rest of a process's program; `fail` stands for an abort. -/
inductive Talk (Message Result : Type) where
  | ret (result : Result)
  | fail
  | send (target : Nat) (message : Message) (rest : Talk Message Result)
  | receive (source : Nat) (rest : Message → Talk Message Result)

variable {Message Result Final : Type}

namespace Talk

/-- One program after another. -/
def bind : Talk Message Result → (Result → Talk Message Final) → Talk Message Final
  | ret result, next => next result
  | fail, _ => fail
  | send target message rest, next => send target message (rest.bind next)
  | receive source rest, next => receive source fun message => (rest message).bind next

instance : Monad (Talk Message) where
  pure := ret
  bind := bind

@[simp]
theorem pure_eq (result : Result) : (pure result : Talk Message Result) = ret result := rfl

@[simp]
theorem ret_bind (result : Result) (next : Result → Talk Message Final) :
    (ret result >>= next) = next result := rfl

@[simp]
theorem fail_bind (next : Result → Talk Message Final) :
    ((fail : Talk Message Result) >>= next) = fail := rfl

@[simp]
theorem send_bind (target : Nat) (message : Message) (rest : Talk Message Result)
    (next : Result → Talk Message Final) :
    (send target message rest >>= next) = send target message (rest >>= next) := rfl

@[simp]
theorem receive_bind (source : Nat) (rest : Message → Talk Message Result)
    (next : Result → Talk Message Final) :
    (receive source rest >>= next) = receive source fun message => rest message >>= next := rfl

@[simp]
theorem bind_assoc {Middle : Type} (talk : Talk Message Result)
    (next : Result → Talk Message Middle) (last : Middle → Talk Message Final) :
    (talk >>= next >>= last) = talk >>= fun result => next result >>= last := by
  induction talk with
  | ret result => rfl
  | fail => rfl
  | send target message rest induction => exact congrArg (send target message) induction
  | receive source rest induction => exact congrArg (receive source) (funext induction)

/-- A result that may be missing; without it the program aborts. -/
def require : Option Result → Talk Message Result
  | some result => ret result
  | none => fail

@[simp]
theorem require_some (result : Result) :
    (require (some result) : Talk Message Result) = ret result := rfl

/-- The next message of a process, if it is what is expected. -/
def receiveAs (source : Nat) (expected : Message → Option Result) : Talk Message Result :=
  receive source fun message => require (expected message)

/-- What a process does next; one that has returned may be told to go on. -/
def behaviour (again : Nat → Result → Option (Talk Message Result)) (rank : Nat) :
    Talk Message Result → Effect (Talk Message Result) Message
  | ret result =>
      match again rank result with
      | none => .stop
      | some next => .silent next
  | fail => .stop
  | send target message rest => .send target message rest
  | receive source rest => .receive (some source) rest

theorem behaviour_named (again : Nat → Result → Option (Talk Message Result)) :
    Named (behaviour again) := by
  intro rank talk next does
  cases talk with
  | ret result =>
      simp only [behaviour] at does
      split at does <;> cases does
  | fail => cases does
  | send target message rest => cases does
  | receive source rest => cases does

end Talk

/-! ## Sends that are met at once -/

/-- A step without buffers: a message goes over, or a process is told to go on. -/
inductive Rendezvous (again : Nat → Result → Option (Talk Message Result)) (count : Nat)
    (talks : Nat → Talk Message Result) : (Nat → Talk Message Result) → Prop
  | exchange {source target : Nat} {message : Message} {rest : Talk Message Result}
      {next : Message → Talk Message Result} (different : source ≠ target)
      (bounded : source < count) (below : target < count)
      (sends : talks source = .send target message rest)
      (receives : talks target = .receive source next) :
      Rendezvous again count talks
        (Function.update (Function.update talks source rest) target (next message))
  | again {rank : Nat} {result : Result} {next : Talk Message Result} (bounded : rank < count)
      (returned : talks rank = .ret result) (resumes : again rank result = some next) :
      Rendezvous again count talks (Function.update talks rank next)

section Runs

variable {again : Nat → Result → Option (Talk Message Result)} {count : Nat}
  {talks final : Nat → Talk Message Result}

/-- Updates at different places may be done in either order. -/
theorem update_pairs {Value : Type} (f : Nat → Value) {a b c d : Nat} (x y z v : Value)
    (ac : a ≠ c) (ad : a ≠ d) (bc : b ≠ c) (bd : b ≠ d) :
    Function.update (Function.update (Function.update (Function.update f a x) b y) c z) d v =
      Function.update (Function.update (Function.update (Function.update f c z) d v) a x) b y := by
  rw [Function.update_comm bc, Function.update_comm ac, Function.update_comm bd,
    Function.update_comm ad]

/-- Steps without buffers that touch a common process are the same. -/
theorem rendezvous_diamond : Diamond (Rendezvous again count) := by
  rintro talks left right first second
  cases first with
  | @exchange source target message rest next different bounded below sends receives =>
      cases second with
      | @exchange source' target' message' rest' next' different' bounded' below' sends'
          receives' =>
          by_cases sameSource : source = source'
          · subst sameSource
            obtain ⟨rfl, rfl, rfl⟩ := Talk.send.inj (sends.symm.trans sends')
            obtain ⟨-, rfl⟩ := Talk.receive.inj (receives.symm.trans receives')
            exact .inl rfl
          have sameTarget : target ≠ target' := by
            rintro rfl
            exact sameSource (Talk.receive.inj (receives.symm.trans receives')).1
          have crossed : source ≠ target' := by
            rintro rfl
            cases sends.symm.trans receives'
          have crossed' : target ≠ source' := by
            rintro rfl
            cases receives.symm.trans sends'
          have stillSends : Function.update (Function.update talks source rest) target
              (next message) source' = .send target' message' rest' := by
            rw [Function.update_of_ne (Ne.symm crossed'),
              Function.update_of_ne (Ne.symm sameSource), sends']
          have stillReceives : Function.update (Function.update talks source rest) target
              (next message) target' = .receive source' next' := by
            rw [Function.update_of_ne (Ne.symm sameTarget),
              Function.update_of_ne (Ne.symm crossed), receives']
          refine .inr ⟨_, .exchange different' bounded' below' stillSends stillReceives, ?_⟩
          rw [update_pairs _ _ _ _ _ sameSource crossed crossed' sameTarget]
          refine .exchange different bounded below ?_ ?_
          · rw [Function.update_of_ne crossed, Function.update_of_ne sameSource, sends]
          · rw [Function.update_of_ne sameTarget, Function.update_of_ne crossed', receives]
      | @again rank result resumed bounded' returned resumes =>
          have notSource : rank ≠ source := by
            rintro rfl
            cases returned.symm.trans sends
          have notTarget : rank ≠ target := by
            rintro rfl
            cases returned.symm.trans receives
          have stillReturned : Function.update (Function.update talks source rest) target
              (next message) rank = .ret result := by
            rw [Function.update_of_ne notTarget, Function.update_of_ne notSource, returned]
          refine .inr ⟨_, .again bounded' stillReturned resumes, ?_⟩
          rw [Function.update_comm (Ne.symm notTarget), Function.update_comm (Ne.symm notSource)]
          refine .exchange different bounded below ?_ ?_
          · rw [Function.update_of_ne (Ne.symm notSource), sends]
          · rw [Function.update_of_ne (Ne.symm notTarget), receives]
  | @again rank result resumed bounded returned resumes =>
      cases second with
      | @exchange source target message rest next different bounded' below sends receives =>
          have notSource : rank ≠ source := by
            rintro rfl
            cases returned.symm.trans sends
          have notTarget : rank ≠ target := by
            rintro rfl
            cases returned.symm.trans receives
          refine .inr ⟨_, .exchange different bounded' below
            ((Function.update_of_ne (Ne.symm notSource) _ _).trans sends)
            ((Function.update_of_ne (Ne.symm notTarget) _ _).trans receives), ?_⟩
          rw [Function.update_comm notSource, Function.update_comm notTarget]
          refine .again bounded ?_ resumes
          rw [Function.update_of_ne notTarget, Function.update_of_ne notSource, returned]
      | @again rank' result' resumed' bounded' returned' resumes' =>
          by_cases same : rank = rank'
          · subst same
            obtain rfl := Talk.ret.inj (returned.symm.trans returned')
            obtain rfl := Option.some.inj (resumes.symm.trans resumes')
            exact .inl rfl
          · refine .inr ⟨_, .again bounded'
              ((Function.update_of_ne (Ne.symm same) _ _).trans returned') resumes', ?_⟩
            rw [Function.update_comm same]
            exact .again bounded ((Function.update_of_ne same _ _).trans returned) resumes

/-! ## Buffered sends -/

/-- The processes of a network have these talks, and no message is in flight. -/
structure Quiet (network : Network (Talk Message Result) Message)
    (talks : Nat → Talk Message Result) : Prop where
  process : ∀ rank, network.process rank = talks rank
  queue : ∀ source target, network.queue source target = []

/-- No message has been sent yet. -/
def start (talks : Nat → Talk Message Result) : Network (Talk Message Result) Message where
  process := talks
  sent _ _ := []
  queue _ _ := []

theorem start_quiet (talks : Nat → Talk Message Result) : Quiet (start talks) talks :=
  ⟨fun _ => rfl, fun _ _ => rfl⟩

/-- A message that is met at once is sent, and then received. -/
theorem Quiet.rendezvous {network : Network (Talk Message Result) Message}
    {next : Nat → Talk Message Result} (quiet : Quiet network talks)
    (step : Rendezvous again count talks next) :
    ∃ after, Reaches (SystemStep (Talk.behaviour again) count) network after ∧
      Quiet after next := by
  cases step with
  | @exchange source target message rest later different bounded below sends receives =>
      let sent := (network.send source target message).advance source rest
      have sendStep : SystemStep (Talk.behaviour again) count network sent := by
        refine ⟨source, bounded, .send target message rest ?_⟩
        rw [quiet.process, sends]
        rfl
      have waiting : sent.process target = .receive source later := by
        rw [Network.advance_process, if_neg (Ne.symm different)]
        exact (quiet.process target).trans receives
      have first : sent.queue source target = message :: [] := by
        change push network.queue source target message source target = _
        rw [push_same, quiet.queue]
        rfl
      refine ⟨(sent.receive source target []).advance target (later message),
        .tail (.single sendStep) ⟨target, below, .receive (some source) source message [] later
          ?_ (.inr rfl) first⟩, ?_, ?_⟩
      · rw [waiting]
        rfl
      · intro rank
        simp only [Network.advance_process, Network.receive, Function.update_apply]
        split
        · rfl
        · rw [Network.advance_process]
          split
          · rfl
          · exact quiet.process rank
      · intro left right
        change assign (push network.queue source target message) source target [] left right = _
        rw [assign_apply, push_apply]
        split
        · rfl
        · exact quiet.queue left right
  | @again rank result resumed bounded returned resumes =>
      refine ⟨network.advance rank resumed,
        .single ⟨rank, bounded, .silent resumed ?_⟩, fun other => ?_, quiet.queue⟩
      · rw [quiet.process, returned]
        simp [Talk.behaviour, resumes]
      · rw [Network.advance_process, Function.update_apply, quiet.process]

theorem Quiet.reaches {network : Network (Talk Message Result) Message}
    (quiet : Quiet network talks) (reached : Reaches (Rendezvous again count) talks final) :
    ∃ after, Reaches (SystemStep (Talk.behaviour again) count) network after ∧
      Quiet after final := by
  induction reached with
  | refl => exact ⟨network, .refl, quiet⟩
  | tail _ step induction =>
      obtain ⟨middle, first, quietMiddle⟩ := induction
      obtain ⟨after, second, quietAfter⟩ := quietMiddle.rendezvous step
      exact ⟨after, first.trans second, quietAfter⟩

/-- Every process has returned for good. -/
def Ended (again : Nat → Result → Option (Talk Message Result)) (count : Nat)
    (talks : Nat → Talk Message Result) : Prop :=
  ∀ rank < count, ∃ result, talks rank = .ret result ∧ again rank result = none

/-- Whether sends are buffered or not, every run comes to this end, and no process aborts. -/
structure Completes (again : Nat → Result → Option (Talk Message Result)) (count : Nat)
    (talks final : Nat → Talk Message Result) : Prop where
  buffered : Terminates (SystemStep (Talk.behaviour again) count)
    (fun network => Quiet network final) (start talks)
  unbuffered : Terminates (Rendezvous again count) (fun other => other = final) talks
  lives : ∀ network, Reaches (SystemStep (Talk.behaviour again) count) (start talks) network →
    ∀ rank < count, network.process rank ≠ .fail

/-- A process that has aborted, or returned for good, stays as it is. -/
theorem process_of_stop {network later : Network (Talk Message Result) Message} {rank : Nat}
    (reached : Reaches (SystemStep (Talk.behaviour again) count) network later)
    (stops : Talk.behaviour again rank (network.process rank) = .stop) :
    later.process rank = network.process rank := by
  induction reached with
  | refl => rfl
  | tail _ step induction =>
      obtain ⟨actor, -, step⟩ := step
      obtain ⟨move, enabled, rfl⟩ := step_iff_move.mp step
      have other : rank ≠ actor := by
        rintro rfl
        exact step.of_stop ((congrArg (Talk.behaviour again rank) induction).trans stops)
      simp only [Move.apply, Function.update_of_ne other]
      exact induction

/-- One run in which every send is met at once shows that all runs come to its end. -/
theorem completes_of_rendezvous (reached : Reaches (Rendezvous again count) talks final)
    (ended : Ended again count final) : Completes again count talks final := by
  obtain ⟨after, run, quiet⟩ := (start_quiet talks).reaches reached
  have diamond := diamond_of_named (Talk.behaviour_named again) count
  have stuck : ∀ next, ¬SystemStep (Talk.behaviour again) count after next := by
    rintro next ⟨rank, bounded, step⟩
    obtain ⟨result, returned, last⟩ := ended rank bounded
    refine step.of_stop ?_
    rw [quiet.process, returned]
    simp [Talk.behaviour, last]
  have terminates := diamond.terminates run stuck
  refine ⟨⟨fun state reachedState => ?_, terminates.finite⟩, ?_, fun network begun rank bounded
    failed => ?_⟩
  · rcases terminates.progress state reachedState with rfl | step
    · exact .inl quiet
    · exact .inr step
  · refine rendezvous_diamond.terminates reached fun next step => ?_
    cases step with
    | exchange different bounded below sends receives =>
        obtain ⟨result, returned, -⟩ := ended _ bounded
        cases returned.symm.trans sends
    | again bounded returned resumes =>
        obtain ⟨result, isResult, last⟩ := ended _ bounded
        obtain rfl := Talk.ret.inj (returned.symm.trans isResult)
        cases last.symm.trans resumes
  · obtain ⟨result, returned, -⟩ := ended rank bounded
    have rest := diamond.reaches_final run stuck begun
    have stays := process_of_stop rest (congrArg (Talk.behaviour again rank) failed)
    cases (stays.trans failed).symm.trans ((quiet.process rank).trans returned)

/-- Who has returned for good has returned what it does at the end of every run. -/
theorem Completes.eq_final (completes : Completes again count talks final)
    {network : Network (Talk Message Result) Message}
    (reached : Reaches (SystemStep (Talk.behaviour again) count) (start talks) network)
    {rank : Nat} {result : Result} (returned : network.process rank = .ret result)
    (last : again rank result = none) : final rank = .ret result := by
  obtain ⟨after, rest, quiet⟩ := (completes.buffered.of_reaches reached).reaches_final
  rw [← quiet.process, process_of_stop rest (by rw [returned]; simp [Talk.behaviour, last]),
    returned]

end Runs

/-! ## A master and its clients -/

open Talk

/-- Process zero is the master, the others are clients. -/
def parties (count : Nat) (master : Talk Message Result) (clients : Nat → Talk Message Result)
    (rank : Nat) : Talk Message Result :=
  if rank = 0 then master else if rank < count then clients rank else .fail

section Parties

variable {again : Nat → Result → Option (Talk Message Result)} {count : Nat}
  {master : Talk Message Result} {clients : Nat → Talk Message Result}

theorem parties_congr {others : Nat → Talk Message Result}
    (same : ∀ rank, 0 < rank → rank < count → clients rank = others rank) :
    parties count master clients = parties count master others := by
  funext rank
  simp only [parties]
  split
  · rfl
  · split
    · exact same rank (by omega) ‹_›
    · rfl

theorem parties_client {i : Nat} (client : 0 < i) (bounded : i < count) :
    parties count master clients i = clients i := by
  rw [parties, if_neg (by omega), if_pos bounded]

theorem update_parties {i : Nat} (client : 0 < i) (bounded : i < count)
    (rest : Talk Message Result) :
    Function.update (parties count master clients) i rest =
      parties count master (Function.update clients i rest) := by
  funext rank
  simp only [parties, Function.update_apply]
  split_ifs <;> first | rfl | omega

theorem update_master (rest : Talk Message Result) :
    Function.update (parties count master clients) 0 rest = parties count rest clients := by
  funext rank
  simp only [parties, Function.update_apply]
  split_ifs <;> rfl

/-- The master sends to a client what the client expects. -/
theorem Rendezvous.forth {Value : Type} {i : Nat} (client : 0 < i) (bounded : i < count)
    {message : Message} {value : Value} {expected : Message → Option Value}
    (meets : expected message = some value) (next : Value → Talk Message Result) :
    Rendezvous again count
      (parties count (.send i message master)
        (Function.update clients i (receiveAs 0 expected >>= next)))
      (parties count master (Function.update clients i (next value))) := by
  have waits : parties count (.send i message master)
      (Function.update clients i (receiveAs 0 expected >>= next)) i =
        .receive 0 fun message => require (expected message) >>= next := by
    rw [parties_client client bounded, Function.update_self]
    rfl
  have step : Rendezvous again count _ _ :=
    .exchange (by omega) (by omega) bounded rfl waits
  rwa [update_master, update_parties client bounded, Function.update_idem, meets, require_some,
    ret_bind] at step

/-- The master receives from a client what it expects. -/
theorem Rendezvous.back {Value : Type} {i : Nat} (client : 0 < i) (bounded : i < count)
    {message : Message} {value : Value} {expected : Message → Option Value}
    (meets : expected message = some value) (rest : Talk Message Result)
    (next : Value → Talk Message Result) :
    Rendezvous again count
      (parties count (receiveAs i expected >>= next)
        (Function.update clients i (.send 0 message rest)))
      (parties count (next value) (Function.update clients i rest)) := by
  have sends : parties count (receiveAs i expected >>= next)
      (Function.update clients i (.send 0 message rest)) i = .send 0 message rest := by
    rw [parties_client client bounded, Function.update_self]
  have receives : parties count (receiveAs i expected >>= next)
      (Function.update clients i (.send 0 message rest)) 0 =
        .receive i fun message => require (expected message) >>= next := rfl
  have step : Rendezvous again count _ _ :=
    .exchange (by omega) bounded (by omega) sends receives
  rwa [update_parties client bounded, Function.update_idem, update_master, meets, require_some,
    ret_bind] at step

/--
The master's loop over the clients: each client gets from one talk to another
while the master executes the loop body for it, and the bodies keep an invariant.
-/
theorem rounds {State : Type} {body : State → Nat → Talk Message State}
    {before after : Nat → Talk Message Result} {Inv : Nat → State → Prop} {initial : State}
    (positive : 0 < count)
    (round : ∀ i state, 0 < i → i < count → Inv i state → ∃ state', Inv (i + 1) state' ∧
      ∀ (next : State → Talk Message Result) (others : Nat → Talk Message Result),
        Reaches (Rendezvous again count)
          (parties count (body state i >>= next) (Function.update others i (before i)))
          (parties count (next state') (Function.update others i (after i))))
    (holds : Inv 1 initial) :
    ∃ state, Inv count state ∧ ∀ next : State → Talk Message Result,
      Reaches (Rendezvous again count)
        (parties count ((List.range' 1 (count - 1)).foldlM body initial >>= next) before)
        (parties count (next state) after) := by
  have loop : ∀ remaining i state, 0 < i → i + remaining = count → Inv i state →
      ∃ state', Inv count state' ∧
        ∀ (next : State → Talk Message Result) (others : Nat → Talk Message Result),
          (∀ rank, i ≤ rank → others rank = before rank) →
            Reaches (Rendezvous again count)
              (parties count ((List.range' i remaining).foldlM body state >>= next) others)
              (parties count (next state')
                fun rank => if i ≤ rank then after rank else others rank) := by
    intro remaining
    induction remaining with
    | zero =>
        intro i state client last inv
        refine ⟨state, by rwa [← last], fun next others _ => ?_⟩
        have same : parties count (next state) (fun rank => if i ≤ rank then after rank
            else others rank) = parties count (next state) others :=
          parties_congr fun rank _ bounded => if_neg (by omega)
        rw [same]
        exact .refl
    | succ remaining induction =>
        intro i state client last inv
        obtain ⟨middle, invMiddle, first⟩ := round i state client (by omega) inv
        obtain ⟨state', invLast, later⟩ :=
          induction (i + 1) middle (by omega) (by omega) invMiddle
        refine ⟨state', invLast, fun next others waits => ?_⟩
        rw [List.range'_succ, List.foldlM_cons, Talk.bind_assoc]
        have first := first
          (fun state => (List.range' (i + 1) remaining).foldlM body state >>= next) others
        rw [← waits i le_rfl, Function.update_eq_self] at first
        refine first.trans ?_
        refine (later next _ fun rank above => ?_).trans ?_
        · rw [Function.update_of_ne (by omega)]
          exact waits rank (by omega)
        · have same : parties count (next state') (fun rank => if i + 1 ≤ rank then after rank
              else Function.update others i (after i) rank) =
              parties count (next state') fun rank =>
                if i ≤ rank then after rank else others rank := by
            refine parties_congr fun rank _ _ => ?_
            by_cases here : rank = i
            · subst here
              simp
            · rw [Function.update_of_ne here]
              exact if_congr (by omega) rfl rfl
          rw [same]
  obtain ⟨state, inv, run⟩ := loop (count - 1) 1 initial (by omega) (by omega) holds
  refine ⟨state, inv, fun next => ?_⟩
  have same : parties count (next state) (fun rank => if 1 ≤ rank then after rank
      else before rank) = parties count (next state) after :=
    parties_congr fun rank client _ => if_pos client
  rw [← same]
  exact run next before fun _ _ => rfl

/-- Clients that go on by themselves. -/
theorem clients_go {before after : Nat → Talk Message Result} (positive : 0 < count)
    (goes : ∀ i, 0 < i → i < count → ∀ (master : Talk Message Result)
      (others : Nat → Talk Message Result), Reaches (Rendezvous again count)
        (parties count master (Function.update others i (before i)))
        (parties count master (Function.update others i (after i)))) :
    Reaches (Rendezvous again count) (parties count master before)
      (parties count master after) := by
  have bodies : ∀ i (_ : Unit), 0 < i → i < count → True → ∃ state' : Unit, True ∧
      ∀ (next : Unit → Talk Message Result) (others : Nat → Talk Message Result),
        Reaches (Rendezvous again count)
          (parties count (Talk.ret () >>= next) (Function.update others i (before i)))
          (parties count (next state') (Function.update others i (after i))) :=
    fun i _ client bounded _ =>
      ⟨(), trivial, fun next others => goes i client bounded _ others⟩
  obtain ⟨_, -, run⟩ := rounds positive bodies trivial
  have silent : (List.range' 1 (count - 1)).foldlM
      (fun (_ : Unit) (_ : Nat) => (Talk.ret () : Talk Message Unit)) () = Talk.ret () := by
    induction List.range' 1 (count - 1) with
    | nil => rfl
    | cons first rest induction => exact induction
  have run := run fun _ => master
  rwa [silent] at run

/-! ## Programs that go on -/

/-- A step of a part of each program is a step of the whole programs. -/
theorem Rendezvous.bind {before after : Nat → Talk Message Final}
    (step : Rendezvous (fun _ _ => none) count before after)
    (next : Nat → Final → Talk Message Result) :
    Rendezvous again count (fun rank => before rank >>= next rank)
      fun rank => after rank >>= next rank := by
  cases step with
  | @exchange source target message rest later different bounded below sends receives =>
      let whole : Nat → Talk Message Result := fun rank => before rank >>= next rank
      have sendsOn : whole source = .send target message (rest >>= next source) := by
        simp only [whole, sends, send_bind]
      have receivesOn : whole target = .receive source fun message =>
          later message >>= next target := by
        simp only [whole, receives, receive_bind]
      have step : Rendezvous again count whole _ :=
        .exchange different bounded below sendsOn receivesOn
      have same : (fun rank => Function.update (Function.update before source rest) target
          (later message) rank >>= next rank) =
            Function.update (Function.update whole source (rest >>= next source)) target
              (later message >>= next target) := by
        funext rank
        simp only [whole, Function.update_apply]
        split_ifs with isTarget isSource
        · rw [isTarget]
        · rw [isSource]
        · rfl
      rwa [same]
  | again bounded returned resumes => cases resumes

/-- A run of a part of each program is a run of the whole programs. -/
theorem reaches_bind {before after : Nat → Talk Message Final}
    (reached : Reaches (Rendezvous (fun _ _ => none) count) before after)
    (next : Nat → Final → Talk Message Result) :
    Reaches (Rendezvous again count) (fun rank => before rank >>= next rank)
      fun rank => after rank >>= next rank := by
  induction reached with
  | refl => exact .refl
  | tail _ step induction => exact induction.tail (step.bind next)

/-- The programs of master and clients go on differently. -/
theorem parties_bind (first : Talk Message Final) (firsts : Nat → Talk Message Final)
    (next : Final → Talk Message Result) (nexts : Nat → Final → Talk Message Result) :
    (fun rank => parties count first firsts rank >>= if rank = 0 then next else nexts rank) =
      parties count (first >>= next) fun rank => firsts rank >>= nexts rank := by
  funext rank
  simp only [parties]
  split_ifs <;> rfl

theorem reaches_parties_bind {first last : Talk Message Final}
    {firsts lasts : Nat → Talk Message Final}
    (reached : Reaches (Rendezvous (fun _ _ => none) count) (parties count first firsts)
      (parties count last lasts))
    (next : Final → Talk Message Result) (nexts : Nat → Final → Talk Message Result) :
    Reaches (Rendezvous again count)
      (parties count (first >>= next) fun rank => firsts rank >>= nexts rank)
      (parties count (last >>= next) fun rank => lasts rank >>= nexts rank) := by
  rw [← parties_bind, ← parties_bind]
  exact reaches_bind reached _

/-! ## Collective operations -/

/-- The master's part of a broadcast. -/
def broadcast (count : Nat) (message : Message) : Talk Message Unit :=
  (List.range' 1 (count - 1)).foldlM (fun _ i => .send i message (.ret ())) ()

/-- The master receives what it expects from each client. -/
def gather {Value : Type} (count : Nat) (expected : Message → Option Value) :
    Talk Message (List Value) :=
  (List.range' 1 (count - 1)).foldlM
    (fun values i => do return values ++ [← receiveAs i expected]) []

theorem reaches_broadcast {Value : Type} (positive : 0 < count) {message : Message}
    {value : Value} {expected : Message → Option Value} (meets : expected message = some value)
    (next : Unit → Talk Message Result) (rests : Nat → Value → Talk Message Result) :
    Reaches (Rendezvous again count)
      (parties count (broadcast count message >>= next)
        fun rank => receiveAs 0 expected >>= rests rank)
      (parties count (next ()) fun rank => rests rank value) := by
  have round : ∀ i (_ : Unit), 0 < i → i < count → True → ∃ state' : Unit, True ∧
      ∀ (later : Unit → Talk Message Result) (others : Nat → Talk Message Result),
        Reaches (Rendezvous again count)
          (parties count (Talk.send i message (.ret ()) >>= later)
            (Function.update others i (receiveAs 0 expected >>= rests i)))
          (parties count (later state') (Function.update others i (rests i value))) :=
    fun i _ client bounded _ =>
      ⟨(), trivial, fun later others => .single (.forth client bounded meets (rests i))⟩
  obtain ⟨_, -, run⟩ := rounds positive round trivial
  exact run next

theorem reaches_gather {Value : Type} {expected : Message → Option Value} (positive : 0 < count)
    {messages : Nat → Message} {values : Nat → Value}
    (meets : ∀ i, expected (messages i) = some (values i))
    (next : List Value → Talk Message Result) (rests : Nat → Talk Message Result) :
    Reaches (Rendezvous again count)
      (parties count (gather count expected >>= next)
        fun rank => .send 0 (messages rank) (rests rank))
      (parties count (next ((List.range' 1 (count - 1)).map values)) rests) := by
  have round : ∀ i (state : List Value), 0 < i → i < count →
      state = (List.range' 1 (i - 1)).map values → ∃ state',
        state' = (List.range' 1 (i + 1 - 1)).map values ∧
      ∀ (later : List Value → Talk Message Result) (others : Nat → Talk Message Result),
        Reaches (Rendezvous again count)
          (parties count ((do return state ++ [← receiveAs i expected]) >>= later)
            (Function.update others i (.send 0 (messages i) (rests i))))
          (parties count (later state') (Function.update others i (rests i))) := by
    intro i state client bounded collected
    refine ⟨state ++ [values i], ?_, fun later others => ?_⟩
    · obtain ⟨i, rfl⟩ : ∃ k, i = k + 1 := ⟨i - 1, by omega⟩
      rw [collected]
      simp [List.range'_concat, Nat.add_comm]
    · simp only [bind_assoc, pure_eq, ret_bind]
      exact .single (.back client bounded (meets i) _ _)
  obtain ⟨collected, rfl, run⟩ := rounds positive round rfl
  exact run next

end Parties

end Physis.Library.Talks
