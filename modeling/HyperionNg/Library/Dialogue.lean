import Mathlib.Tactic

/-! Programs that ask their surroundings, throw and send. A program is the tree
of its queries, one branch for every answer, so what it can send is read off
the tree, whatever the surroundings answer. -/

namespace HyperionNg.Library

/-- A query is answered with a value or with an exception. `lost` is a program
without a defined result, or without an end. -/
inductive Dialogue {Query : Type} (Answer : Query → Type) (Message α : Type)
  | done (a : α)
  | throw (what : String)
  | lost
  | send (message : Message) (rest : Dialogue Answer Message α)
  | ask (query : Query) (rest : Except String (Answer query) → Dialogue Answer Message α)

namespace Dialogue

variable {Query Message σ α β : Type} {Answer : Query → Type}

def bind : Dialogue Answer Message α → (α → Dialogue Answer Message β) →
    Dialogue Answer Message β
  | done a, next => next a
  | throw what, _ => throw what
  | lost, _ => lost
  | send message rest, next => send message (bind rest next)
  | ask query rest, next => ask query fun answer => bind (rest answer) next

instance : Monad (Dialogue Answer Message) where
  pure := done
  bind := bind

/-- `try program catch handler` -/
def catching : Dialogue Answer Message α → (String → Dialogue Answer Message α) →
    Dialogue Answer Message α
  | done a, _ => done a
  | throw what, handler => handler what
  | lost, _ => lost
  | send message rest, handler => send message (catching rest handler)
  | ask query rest, handler => ask query fun answer => catching (rest answer) handler

/-- A query whose exception is thrown on. -/
def call (query : Query) : Dialogue Answer Message (Answer query) :=
  ask query fun
    | .ok answer => done answer
    | .error what => throw what

def emit (message : Message) : Dialogue Answer Message Unit := send message (done ())

/-- How the surroundings answer in each of their states; `none` where the query
does not come back. -/
abbrev Surroundings (Answer : Query → Type) (σ : Type) :=
  (query : Query) → σ → Option (Except String (Answer query) × σ)

def sent (surroundings : Surroundings Answer σ) : Dialogue Answer Message α → σ → List Message
  | done _, _ | throw _, _ | lost, _ => []
  | send message rest, s => message :: sent surroundings rest s
  | ask query rest, s =>
    match surroundings query s with
    | none => []
    | some (answer, t) => sent surroundings (rest answer) t

/-- The state of the surroundings in which the program stops, if it does. -/
def reached (surroundings : Surroundings Answer σ) : Dialogue Answer Message α → σ → Option σ
  | done _, s | throw _, s => some s
  | lost, _ => none
  | send _ rest, s => reached surroundings rest s
  | ask query rest, s =>
    match surroundings query s with
    | none => none
    | some (answer, t) => reached surroundings (rest answer) t

def Answered (surroundings : Surroundings Answer σ) : Dialogue Answer Message α → σ → Prop
  | done _, _ | throw _, _ | lost, _ => True
  | send _ rest, s => Answered surroundings rest s
  | ask query rest, s =>
    ∃ answer t, surroundings query s = some (answer, t) ∧ Answered surroundings (rest answer) t

/-- Sends nothing and has a result whatever is answered. -/
inductive Quiet : Dialogue Answer Message α → Prop
  | done (a : α) : Quiet (done a)
  | throw (what : String) : Quiet (throw what)
  | ask {query : Query} {rest : Except String (Answer query) → Dialogue Answer Message α} :
    (∀ answer, Quiet (rest answer)) → Quiet (ask query rest)

/-- Whatever is answered, the program sends one message, with the property `P`,
as the last thing it does, or throws before; the latter only if `escapes`. -/
inductive SendsOnce (P : Message → Prop) (escapes : Prop) : Dialogue Answer Message α → Prop
  | throw (what : String) : escapes → SendsOnce P escapes (throw what)
  | send {message : Message} (a : α) : P message → SendsOnce P escapes (send message (done a))
  | ask {query : Query} {rest : Except String (Answer query) → Dialogue Answer Message α} :
    (∀ answer, SendsOnce P escapes (rest answer)) → SendsOnce P escapes (ask query rest)

theorem quiet_call (query : Query) : Quiet (call query : Dialogue Answer Message _) := by
  refine Quiet.ask fun answer => ?_
  cases answer with
  | ok a => exact .done a
  | error what => exact .throw what

theorem Quiet.bind {program : Dialogue Answer Message α} {next : α → Dialogue Answer Message β}
    (quiet : Quiet program) (rest : ∀ a, Quiet (next a)) : Quiet (program >>= next) := by
  induction quiet with
  | done a => exact rest a
  | throw what => exact .throw what
  | ask _ ih => exact .ask ih

theorem Quiet.catching {program : Dialogue Answer Message α}
    {handler : String → Dialogue Answer Message α} (quiet : Quiet program)
    (handles : ∀ what, Quiet (handler what)) : Quiet (program.catching handler) := by
  induction quiet with
  | done a => exact .done a
  | throw what => exact handles what
  | ask _ ih => exact .ask ih

theorem quiet_forM {items : List β} {program : β → Dialogue Answer Message PUnit}
    (quiet : ∀ item ∈ items, Quiet (program item)) : Quiet (items.forM program) := by
  induction items with
  | nil => exact .done _
  | cons item rest ih =>
    change Quiet (program item >>= fun _ => rest.forM program)
    exact (quiet item List.mem_cons_self).bind fun _ =>
      ih fun other member => quiet other (List.mem_cons_of_mem item member)

theorem answered_of_reached {surroundings : Surroundings Answer σ}
    {program : Dialogue Answer Message α} {s t : σ}
    (stops : reached surroundings program s = some t) : Answered surroundings program s := by
  induction program generalizing s with
  | done | throw | lost => trivial
  | send message rest ih => exact ih stops
  | ask query rest ih =>
    rw [reached] at stops
    cases back : surroundings query s with
    | none => simp [back] at stops
    | some answered =>
      obtain ⟨answer, u⟩ := answered
      rw [back] at stops
      exact ⟨answer, u, back, ih answer stops⟩

section Reached

variable {surroundings : Surroundings Answer σ} {query : Query} {s t : σ}
  (next : Answer query → Dialogue Answer Message α)

theorem reached_call_ok {a : Answer query} (back : surroundings query s = some (.ok a, t)) :
    reached surroundings (call query >>= next) s = reached surroundings (next a) t := by
  change reached surroundings (ask query _) s = _
  rw [reached, back]
  rfl

theorem reached_call_error {what : String} (back : surroundings query s = some (.error what, t)) :
    reached surroundings (call query >>= next) s = some t := by
  change reached surroundings (ask query _) s = _
  rw [reached, back]
  rfl

theorem reached_call_none (back : surroundings query s = none) :
    reached surroundings (call query >>= next) s = none := by
  change reached surroundings (ask query _) s = _
  rw [reached, back]

end Reached

/-! The queries on the way, under a handler of exceptions as well. -/

section Catching

variable {surroundings : Surroundings Answer σ} {query : Query} {s t : σ} {a : Answer query}
  (next : Answer query → Dialogue Answer Message α) (handler : String → Dialogue Answer Message α)

theorem reached_catching_call (back : surroundings query s = some (.ok a, t)) :
    reached surroundings ((call query >>= next).catching handler) s =
      reached surroundings ((next a).catching handler) t := by
  change reached surroundings (ask query _) s = _
  rw [reached, back]
  rfl

theorem sent_catching_call (back : surroundings query s = some (.ok a, t)) :
    sent surroundings ((call query >>= next).catching handler) s =
      sent surroundings ((next a).catching handler) t := by
  change sent surroundings (ask query _) s = _
  rw [sent, back]
  rfl

end Catching

inductive Asks (P : Query → Prop) : Dialogue Answer Message α → Prop
  | done (a : α) : Asks P (done a)
  | throw (what : String) : Asks P (throw what)
  | lost : Asks P lost
  | send (message : Message) {rest : Dialogue Answer Message α} : Asks P rest →
    Asks P (send message rest)
  | ask {query : Query} {rest : Except String (Answer query) → Dialogue Answer Message α} :
    P query → (∀ answer, Asks P (rest answer)) → Asks P (ask query rest)

section Asks

variable {P : Query → Prop}

theorem asks_call {query : Query} (holds : P query) :
    Asks P (call query : Dialogue Answer Message _) := by
  refine .ask holds fun answer => ?_
  cases answer with
  | ok a => exact .done a
  | error what => exact .throw what

theorem Asks.bind {program : Dialogue Answer Message α} {next : α → Dialogue Answer Message β}
    (asks : Asks P program) (rest : ∀ a, Asks P (next a)) : Asks P (program >>= next) := by
  induction asks with
  | done a => exact rest a
  | throw what => exact .throw what
  | lost => exact .lost
  | send message _ ih => exact .send message ih
  | ask holds _ ih => exact .ask holds ih

theorem Asks.catching {program : Dialogue Answer Message α}
    {handler : String → Dialogue Answer Message α} (asks : Asks P program)
    (handles : ∀ what, Asks P (handler what)) : Asks P (program.catching handler) := by
  induction asks with
  | done a => exact .done a
  | throw what => exact handles what
  | lost => exact .lost
  | send message _ ih => exact .send message ih
  | ask holds _ ih => exact .ask holds ih

theorem asks_ite {condition : Prop} [Decidable condition] {yes no : Dialogue Answer Message α}
    (ifYes : Asks P yes) (ifNo : Asks P no) : Asks P (if condition then yes else no) := by
  split_ifs
  · exact ifYes
  · exact ifNo

theorem asks_forM {items : List β} {program : β → Dialogue Answer Message PUnit}
    (asks : ∀ item, Asks P (program item)) : Asks P (items.forM program) := by
  induction items with
  | nil => exact .done _
  | cons item rest ih =>
    change Asks P (program item >>= fun _ => rest.forM program)
    exact (asks item).bind fun _ => ih

theorem Asks.reached_eq {γ : Type} {surroundings : Surroundings Answer σ} (part : σ → γ)
    (keeps : ∀ query s answer t, P query → surroundings query s = some (answer, t) →
      part t = part s)
    {program : Dialogue Answer Message α} (asks : Asks P program) {s t : σ}
    (stops : reached surroundings program s = some t) : part t = part s := by
  induction asks generalizing s with
  | done | throw => exact congrArg part (Option.some.inj stops).symm
  | lost => exact absurd stops nofun
  | send _ _ ih => exact ih stops
  | @ask query _ holds _ ih =>
    rw [reached] at stops
    cases back : surroundings query s with
    | none => simp [back] at stops
    | some answered =>
      obtain ⟨answer, u⟩ := answered
      rw [back] at stops
      exact (ih answer stops).trans (keeps query s answer u holds back)

end Asks

section SendsOnce

variable {P : Message → Prop} {escapes caught : Prop}

theorem sendsOnce_emit {message : Message} (holds : P message) :
    SendsOnce P escapes (emit message : Dialogue Answer Message Unit) := .send () holds

theorem Quiet.thenSends {program : Dialogue Answer Message α}
    {next : α → Dialogue Answer Message β} (quiet : Quiet program) (may : escapes)
    (sends : ∀ a, SendsOnce P escapes (next a)) : SendsOnce P escapes (program >>= next) := by
  induction quiet with
  | done a => exact sends a
  | throw what => exact .throw what may
  | ask _ ih => exact .ask ih

theorem SendsOnce.catching {program : Dialogue Answer Message α}
    {handler : String → Dialogue Answer Message α} (sends : SendsOnce P caught program)
    (handles : ∀ what, SendsOnce P escapes (handler what)) :
    SendsOnce P escapes (program.catching handler) := by
  induction sends with
  | throw what _ => exact handles what
  | send a holds => exact .send a holds
  | ask _ ih => exact .ask ih

theorem SendsOnce.sent_iff {program : Dialogue Answer Message α}
    (sends : SendsOnce P False program) (surroundings : Surroundings Answer σ) (s : σ) :
    (∃ message, P message ∧ sent surroundings program s = [message]) ↔
      Answered surroundings program s := by
  induction sends generalizing s with
  | throw what escaped => exact escaped.elim
  | @send message a holds => exact iff_of_true ⟨message, holds, rfl⟩ trivial
  | @ask query rest _ ih =>
    simp only [sent, Answered]
    cases back : surroundings query s with
    | none => simp
    | some answered =>
      obtain ⟨answer, t⟩ := answered
      simp only [ih answer t, Option.some.injEq, Prod.mk.injEq]
      constructor
      · intro rest
        exact ⟨answer, t, ⟨rfl, rfl⟩, rest⟩
      · rintro ⟨_, _, ⟨rfl, rfl⟩, rest⟩
        exact rest

end SendsOnce

end Dialogue

end HyperionNg.Library
