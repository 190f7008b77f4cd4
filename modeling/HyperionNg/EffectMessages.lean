import HyperionNg.EffectRegister
import HyperionNg.PriorityMuxerInvariant

/-! The effect threads beside the main thread. A script decides to send its
colours while it is not aborted, and emits them afterwards; the signals of one
thread are delivered in order, its finish last. What an abort finds on the way
is delivered all the same. The system also records for each channel which
effect wrote it last. -/

namespace HyperionNg

open Library Library.Execution

/-- The arguments of one queued `setColors` signal. -/
structure Message where
  priority : Int
  ledColors : List ColorRgb
  timeoutMs : Int
deriving DecidableEq

inductive ScriptState
  | idle
  | emitting (message : Message)
  | ended
deriving DecidableEq

structure EffectThread where
  script : ScriptState := .idle
  queue : List Message := []
deriving DecidableEq

def ScriptState.messages : ScriptState → List Message
  | .emitting message => [message]
  | _ => []

def EffectThread.messages (thread : EffectThread) : List Message :=
  thread.queue ++ thread.script.messages

namespace Effect

/-- `remaining` is `_endTime` less the time of the call. -/
def signal (e : Effect) (remaining : Int) (colors : List ColorRgb) : Option Message :=
  if 0 < e.timeout then
    if remaining ≤ 0 then none else some ⟨e.priority, colors, remaining⟩
  else some ⟨e.priority, colors, e.timeout⟩

def wrapSetColor (e : Effect) (remaining : Int) (colors : List ColorRgb) : Option Message :=
  if e.abortRequested then none else e.signal remaining colors

def wrapSetImage (e : Effect) (remaining : Int) (colors : List ColorRgb) : Option Message :=
  if e.abortRequested then none else e.signal remaining colors

def wrapImageShow (e : Effect) (remaining : Int) (colors : List ColorRgb) : Option Message :=
  e.signal remaining colors

def reachedEnd (e : Effect) (remaining : Int) : Bool := 0 < e.timeout && remaining < 0

def wrapAbort (e : Effect) (remaining : Int) : Effect :=
  if e.reachedEnd remaining then e.abort else e

theorem signal_priority {e : Effect} {remaining : Int} {colors : List ColorRgb} {m : Message}
    (h : e.signal remaining colors = some m) : m.priority = e.priority := by
  unfold signal at h
  split_ifs at h
  · rw [← Option.some.inj h]
  · rw [← Option.some.inj h]

end Effect

inductive Sender
  | setColor
  | setImage
  | imageShow
deriving DecidableEq

def Sender.run : Sender → Effect → Int → List ColorRgb → Option Message
  | .setColor => Effect.wrapSetColor
  | .setImage => Effect.wrapSetImage
  | .imageShow => Effect.wrapImageShow

theorem Sender.run_priority {sender : Sender} {e : Effect} {remaining : Int}
    {colors : List ColorRgb} {m : Message} (h : sender.run e remaining colors = some m) :
    m.priority = e.priority ∧ (e.abortRequested = true → sender = .imageShow) := by
  have checked : (if e.abortRequested then none else e.signal remaining colors) = some m →
      m.priority = e.priority ∧ (e.abortRequested = true → sender = .imageShow) := by
    intro h
    split_ifs at h with running
    exact ⟨Effect.signal_priority h, fun aborted => absurd aborted running⟩
  cases sender with
  | setColor => exact checked h
  | setImage => exact checked h
  | imageShow => exact ⟨Effect.signal_priority h, fun _ => rfl⟩

namespace EffectEngine

def wrapAbort (e : EffectEngine) (id : Nat) (remaining : Int) : EffectEngine :=
  { e with activeEffects := e.activeEffects.map fun effect =>
      if effect.id = id then effect.wrapAbort remaining else effect }

theorem wrapAbort_running {e : EffectEngine} {gone id : Nat} {remaining priority : Int}
    (running : e.Running id priority)
    (going : id = gone → ∀ effect ∈ e.activeEffects, effect.id = id → effect.priority = priority →
      effect.abortRequested = false → effect.reachedEnd remaining = false) :
    (e.wrapAbort gone remaining).Running id priority := by
  obtain ⟨effect, hmem, hid, hp, hrun⟩ := running
  refine ⟨effect, List.mem_map.mpr ⟨effect, hmem, ?_⟩, hid, hp, hrun⟩
  split_ifs with hgone
  · rw [Effect.wrapAbort, going (hid.symm.trans hgone) effect hmem hid hp hrun]
    rfl
  · rfl

@[simp] theorem wrapAbort_nextId (e : EffectEngine) (id : Nat) (remaining : Int) :
    (e.wrapAbort id remaining).nextId = e.nextId := rfl

@[simp] theorem wrapAbort_ids (e : EffectEngine) (id : Nat) (remaining : Int) :
    (e.wrapAbort id remaining).ids = e.ids := by
  simp only [ids, EffectEngine.wrapAbort, List.map_map]
  refine List.map_congr_left fun effect _ => ?_
  simp only [Function.comp, Effect.wrapAbort]
  split_ifs <;> rfl

theorem Allocated.wrapAbort {e : EffectEngine} (alloc : e.Allocated) (id : Nat)
    (remaining : Int) : (e.wrapAbort id remaining).Allocated :=
  ⟨by simpa using alloc.nodup, by simpa using alloc.fresh⟩

theorem Exclusive.wrapAbort {e : EffectEngine} (excl : e.Exclusive) (id : Nat)
    (remaining : Int) : (e.wrapAbort id remaining).Exclusive := by
  refine List.Pairwise.map _ (fun a b hab => ?_) excl
  simp only [Effect.wrapAbort]
  split_ifs <;> simp_all [Effect.abort]

theorem Below.wrapAbort {e : EffectEngine} {bound : Int} (below : e.Below bound) (id : Nat)
    (remaining : Int) : (e.wrapAbort id remaining).Below bound := by
  intro effect hmem
  obtain ⟨old, hold, rfl⟩ := List.mem_map.mp hmem
  simp only [Effect.wrapAbort]
  split_ifs <;> exact below old hold

end EffectEngine

namespace Hyperion

/-- No channel is active in `t` that is not active in `h`. -/
def ChannelsWithin (h t : Hyperion) : Prop :=
  ∀ k, t.muxer.activeInputs.contains k = true → h.muxer.activeInputs.contains k = true

theorem ChannelsWithin.trans {h t u : Hyperion} (first : h.ChannelsWithin t)
    (second : t.ChannelsWithin u) : h.ChannelsWithin u :=
  fun k active => first k (second k active)

theorem Updates.channelsWithin {h t : Hyperion} {now : Int} (updates : h.Updates t now) :
    h.ChannelsWithin t := by
  obtain ⟨_, _, _, _, _, rfl⟩ := updates
  intro k active
  obtain ⟨info, found, _⟩ := (PriorityMuxer.setCurrentTime_contains _ _ _).mp active
  exact PriorityMuxer.contains_of_find? found

theorem clearChannel_channelsWithin {h t : Hyperion} {p : Int} {clock : Nat → Int}
    (ends : Ends (h.clearChannel p clock) t) : h.ChannelsWithin t := by
  rcases clearChannel_ends ends with rfl | ⟨muxer, cleared, u, selected, ends⟩
  · exact fun _ active => active
  · have removed : h.ChannelsWithin { h with muxer } := by
      intro k active
      rw [SortedMap.contains, PriorityMuxer.clearInput_find? cleared] at active
      split_ifs at active
      · exact absurd active (by decide)
      · exact active
    have within : h.ChannelsWithin u := by
      rcases selected with rfl | selected
      · exact removed
      · exact removed.trans (update_ends selected).channelsWithin
    rcases ends with rfl | ends
    · exact within
    · exact within.trans (update_ends ends).channelsWithin

theorem clear_channelsWithin {h t : Hyperion} {p : Int} {clock : Nat → Int}
    (ends : Ends (h.clear p clock) t) : h.ChannelsWithin t := by
  obtain ⟨u, reached, rest⟩ := clear_ends ends
  have within : h.ChannelsWithin u := by
    rcases reached with rfl | reached
    · exact fun _ active => active
    · exact clearChannel_channelsWithin reached
  rcases rest with rfl | ⟨_, rfl⟩
  · exact within
  · exact within

theorem clear_ok_gone {h t : Hyperion} {p : Int} {clock : Nat → Int}
    (hp : p < PriorityMuxer.lowestPriority) (ok : h.clear p clock = .ok t) :
    t.muxer.activeInputs.contains p = false := by
  have expires : ∀ (m : PriorityMuxer) (now : Int), m.activeInputs.find? p = none →
      (m.setCurrentTime now).activeInputs.find? p = none := fun m now h => by
    rw [PriorityMuxer.setCurrentTime_find?, h, Option.filter_none]
  cases has : h.muxer.hasPriority p with
  | true =>
    obtain ⟨m, cleared, u, hu, ht⟩ := clear_ok_muxer has ok
    have inM : m.activeInputs.find? p = none := by
      rw [PriorityMuxer.clearInput_find? cleared, if_pos ⟨rfl, hp⟩]
    have inU : u.activeInputs.find? p = none := by
      rw [hu]
      split_ifs
      · exact expires m _ inM
      · exact inM
    rw [SortedMap.contains, ht]
    split_ifs
    · rw [expires u _ inU, Option.isSome_none]
    · rw [inU, Option.isSome_none]
  | false =>
    have inactive : h.muxer.activeInputs.contains p = false := by
      simpa [PriorityMuxer.hasPriority, hp.ne] using has
    cases reached : t.muxer.activeInputs.contains p with
    | false => rfl
    | true =>
      rw [clear_channelsWithin (Or.inl ok) p reached] at inactive
      exact inactive

theorem setColors_channels {h t : Hyperion} {p : Int} {ledColors : List ColorRgb} {timeout : Int}
    {clearEffects : Bool} {component : Components} {clock : Nat → Int}
    (ends : Ends (h.setColors p ledColors timeout clearEffects component clock) t) {k : Int}
    (hk : k ≠ p) (active : t.muxer.activeInputs.contains k = true) :
    h.muxer.activeInputs.contains k = true := by
  have stored : (h.storeColors p ledColors timeout clearEffects component
      (clock 0)).muxer.activeInputs.contains k = true := by
    rcases setColors_ends ends with rfl | ends
    · exact active
    · exact (update_ends ends).channelsWithin k active
  simpa [storeColors, PriorityMuxer.setInput, SortedMap.contains_insert, hk] using stored

theorem effectFinished_ok_channels {h t : Hyperion} {id : Nat} {clock : Nat → Int}
    (ok : h.effectFinished id clock = .ok t) :
    h.ChannelsWithin t ∧ ∀ effect, h.effectEngine.find? id = some effect →
      effect.abortRequested = false → effect.priority < PriorityMuxer.lowestPriority →
      t.muxer.activeInputs.contains effect.priority = false := by
  rcases effectFinished_ok ok with ⟨absent, rfl⟩ | ⟨effect, found, u, cleared, rfl⟩
  · exact ⟨fun _ active => active, fun _ found => nomatch absent.symm.trans found⟩
  · rcases cleared with ⟨haborted, rfl⟩ | ⟨_, cleared⟩
    · refine ⟨fun _ active => active, fun other hother running => ?_⟩
      rw [found] at hother
      rw [← Option.some.inj hother, haborted] at running
      exact absurd running (by decide)
    · have within : h.ChannelsWithin u := clear_channelsWithin (Or.inl cleared)
      refine ⟨within, fun other hother _ hp => ?_⟩
      rw [found] at hother
      rw [← Option.some.inj hother] at hp ⊢
      have gone : u.muxer.activeInputs.contains effect.priority = false := clear_ok_gone hp cleared
      exact gone

theorem stepCaught_channels {h t : Hyperion} {call : Call} (step : h.stepCaught call = .ok t) :
    match call.op with
    | .setColor p _ _ _ => ∀ k ≠ p, t.muxer.activeInputs.contains k = true →
        h.muxer.activeInputs.contains k = true
    | .setColors p _ _ _ _ => ∀ k ≠ p, t.muxer.activeInputs.contains k = true →
        h.muxer.activeInputs.contains k = true
    | .clearall => True
    | _ => h.ChannelsWithin t := by
  obtain ⟨ends, returns⟩ := stepCaught_ends step
  rcases call with ⟨op, clock⟩
  cases op with
  | setColor p color timeout clearEffects => exact fun k hk => setColors_channels ends hk
  | setColors p ledColors timeout clearEffects component =>
    exact fun k hk => setColors_channels ends hk
  | clear p => exact clear_channelsWithin ends
  | clearall => trivial
  | setSourceAutoSelectEnabled enabled =>
    obtain ⟨_, _, updates⟩ := setSourceAutoSelectEnabled_ends ends
    exact updates.channelsWithin
  | setCurrentSourcePriority p =>
    rw [← ends_ok.mp ends, setCurrentSourcePriority]
    split_ifs
    · exact fun _ active => active
    · exact fun _ active => active
  | runEffect name p timeout script =>
    rw [← ends_ok.mp ends]
    rcases runEffect_effects h name p timeout script with ⟨_, file, hrun⟩ | ⟨_, hrun⟩
    · rw [hrun]
      exact fun _ active => active
    · rw [hrun]
      exact fun _ active => active
  | effectFinished id => exact (effectFinished_ok_channels (returns rfl)).1
  | update => exact (update_ends ends).channelsWithin

end Hyperion

namespace Hyperion

def aborts (h : Hyperion) : Op → Effect → Bool
  | .setColor p _ _ clearEffects, effect => clearEffects && effect.priority = p
  | .setColors p _ _ clearEffects _, effect => clearEffects && effect.priority = p
  | .clear p, effect => effect.priority = p
  | .clearall, _ => true
  | .runEffect name p _ script, effect => h.knowsEffect name script && effect.priority = p
  | _, _ => false

def starts (h : Hyperion) : Op → Option Int
  | .runEffect name p _ script => if h.knowsEffect name script then some p else none
  | _ => none

end Hyperion

/-- The core, the threads of the effects, and the last writer of each channel:
an effect, or none when another source wrote it. -/
structure EffectSystem where
  hyperion : Hyperion
  threads : Nat → EffectThread
  writers : Int → Option Nat

namespace EffectSystem

/-- The steps of the main thread (`call`, `deliver`, `finish`) and of the effect
threads. A step that is not possible in the state it meets changes nothing. -/
inductive Event
  | call (request : Hyperion.Call)
  | send (id : Nat) (sender : Sender) (remaining : Int) (colors : List ColorRgb)
  | emit (id : Nat)
  | abort (id : Nat) (remaining : Int)
  | scriptEnd (id : Nat)
  | deliver (id : Nat) (clock : Nat → Int)
  | finish (id : Nat) (clock : Nat → Int)

def start (hyperion : Hyperion) : EffectSystem := ⟨hyperion, fun _ => {}, fun _ => none⟩

def setScript (s : EffectSystem) (id : Nat) (script : ScriptState) : EffectSystem :=
  { s with threads := Function.update s.threads id { s.threads id with script } }

def writersAfter (s : EffectSystem) : Hyperion.Op → Int → Option Nat
  | .setColor p _ _ _ => Function.update s.writers p none
  | .setColors p _ _ _ _ => Function.update s.writers p none
  | .clearall => fun _ => none
  | _ => s.writers

/-- The finish is the last signal of a thread, so it is delivered after all
others; an exception of a delivery is not caught. -/
def step (s : EffectSystem) : Event → Except Fault EffectSystem
  | .call request =>
      if request.op.isRequest then
        (s.hyperion.stepCaught request).map fun hyperion =>
          { s with hyperion, writers := s.writersAfter request.op }
      else .ok s
  | .send id sender remaining colors =>
      match s.hyperion.effectEngine.find? id, (s.threads id).script with
      | some effect, .idle =>
          match sender.run effect remaining colors with
          | some message => .ok (s.setScript id (.emitting message))
          | none => .ok s
      | _, _ => .ok s
  | .emit id =>
      match (s.threads id).script with
      | .emitting message => .ok { s with
          threads := Function.update s.threads id ⟨.idle, (s.threads id).queue ++ [message]⟩ }
      | _ => .ok s
  | .abort id remaining =>
      match (s.threads id).script with
      | .idle => .ok { s with hyperion := { s.hyperion with
          effectEngine := s.hyperion.effectEngine.wrapAbort id remaining } }
      | _ => .ok s
  | .scriptEnd id =>
      match s.hyperion.effectEngine.find? id, (s.threads id).script with
      | some _, .idle => .ok (s.setScript id .ended)
      | _, _ => .ok s
  | .deliver id clock =>
      match (s.threads id).queue with
      | message :: rest =>
          ((s.hyperion.setColors message.priority message.ledColors message.timeoutMs false .effect
            clock).mapError Thrown.fault).map fun hyperion =>
              { hyperion
                threads := Function.update s.threads id { s.threads id with queue := rest }
                writers := Function.update s.writers message.priority (some id) }
      | [] => .ok s
  | .finish id clock =>
      if s.threads id = ⟨.ended, []⟩ then
        ((s.hyperion.effectFinished id clock).mapError Thrown.fault).map fun hyperion =>
          { s with hyperion }
      else .ok s

def channel (s : EffectSystem) (p : Int) : Option InputInfo := s.hyperion.muxer.activeInputs.find? p

def Holds (s : EffectSystem) (id : Nat) (p : Int) : Prop :=
  s.hyperion.muxer.activeInputs.contains p = true ∧ s.writers p = some id

/-- A delivery for an aborted effect leaves the effect's channel as it is. -/
def IgnoresAborted (s : EffectSystem) (event : Event) (t : EffectSystem) : Prop :=
  match event with
  | .deliver id _ => ∀ effect, s.hyperion.effectEngine.find? id = some effect →
      effect.abortRequested = true → t.channel effect.priority = s.channel effect.priority
  | _ => True

/-- An effect that has started and is no longer listed holds no channel. -/
def FinishedHoldNothing (s : EffectSystem) : Prop :=
  ∀ id < s.hyperion.effectEngine.nextId, s.hyperion.effectEngine.find? id = none →
    ∀ p, ¬ s.Holds id p

def Settled (s : EffectSystem) (aborts : Effect → Bool) : Prop :=
  ∀ effect ∈ s.hyperion.effectEngine.activeEffects, aborts effect = true →
    effect.abortRequested = false → (s.threads effect.id).messages = []

def Unheld (s : EffectSystem) (p : Int) : Prop :=
  s.hyperion.muxer.activeInputs.contains p = true → s.writers p = none

instance (s : EffectSystem) (aborts : Effect → Bool) : Decidable (s.Settled aborts) :=
  inferInstanceAs (Decidable (∀ effect ∈ _, _ → _ → _))

instance (s : EffectSystem) (p : Int) : Decidable (s.Unheld p) :=
  inferInstanceAs (Decidable (_ → _))

/-- No effect is aborted with a message on its way, none sends afterwards, and
none is aborted while it holds a channel that the abort leaves. -/
def Orderly (s : EffectSystem) : Event → Prop
  | .call request => s.Settled (s.hyperion.aborts request.op) ∧
      ∀ p ∈ s.hyperion.starts request.op, p < PriorityMuxer.lowestPriority ∧ s.Unheld p
  | .send id sender _ _ => sender = .imageShow →
      ∀ effect ∈ s.hyperion.effectEngine.find? id, effect.abortRequested = false
  | .abort id remaining => ∀ effect ∈ s.hyperion.effectEngine.find? id,
      effect.reachedEnd remaining = true → effect.abortRequested = false →
      (s.threads id).messages = [] ∧ s.Unheld effect.priority
  | _ => True

instance (s : EffectSystem) : (event : Event) → Decidable (s.Orderly event)
  | .call _ => inferInstanceAs (Decidable (_ ∧ ∀ p ∈ _, _))
  | .send .. => inferInstanceAs (Decidable (_ → ∀ effect ∈ _, _))
  | .abort .. => inferInstanceAs (Decidable (∀ effect ∈ _, _ → _ → _))
  | .emit _ => isTrue trivial
  | .scriptEnd _ => isTrue trivial
  | .deliver .. => isTrue trivial
  | .finish .. => isTrue trivial

theorem Settled.not_onWay {s : EffectSystem} {aborts : Effect → Bool} (settled : s.Settled aborts)
    {id : Nat} {p : Int} (running : s.hyperion.effectEngine.Running id p)
    (affected : ∀ effect : Effect, effect.priority = p → aborts effect = true) :
    ¬ ∃ m ∈ (s.threads id).messages, m.priority = p := by
  obtain ⟨effect, hmem, rfl, hp, going⟩ := running
  rw [settled effect hmem (affected effect hp) going]
  simp

theorem Unheld.not_holds {s : EffectSystem} {p : Int} (unheld : s.Unheld p) (id : Nat) :
    ¬ s.Holds id p := by
  rintro ⟨active, writer⟩
  rw [unheld active] at writer
  exact nomatch writer

structure Tidy (s : EffectSystem) : Prop where
  kept : s.hyperion.EffectsKept
  below : s.hyperion.effectEngine.Below PriorityMuxer.lowestPriority
  sender : ∀ id, ∀ m ∈ (s.threads id).messages, s.hyperion.effectEngine.Running id m.priority
  holder : ∀ id p, s.Holds id p → s.hyperion.effectEngine.Running id p

theorem start_tidy {std : IndexSort} {config : HyperionConfig} {source now timerNow : Int}
    {h : Hyperion} (constructed : Hyperion.new std config source now timerNow = .ok h) :
    (start h).Tidy where
  kept := Hyperion.new_effectsKept constructed
  below effect hmem := by
    rw [start, (Hyperion.new_effects constructed).1] at hmem
    simp at hmem
  sender id m hm := by simp [start, EffectThread.messages, ScriptState.messages] at hm
  holder id p holds := by simp [start, Holds] at holds

theorem Tidy.of_running {s t : EffectSystem} (tidy : s.Tidy) (kept : t.hyperion.EffectsKept)
    (below : t.hyperion.effectEngine.Below PriorityMuxer.lowestPriority)
    (threads : t.threads = s.threads) (holds : ∀ id p, t.Holds id p → s.Holds id p)
    (runs : ∀ id p, s.hyperion.effectEngine.Running id p →
      (∃ m ∈ (s.threads id).messages, m.priority = p) ∨ t.Holds id p →
      t.hyperion.effectEngine.Running id p) : t.Tidy where
  kept
  below
  sender id m hm := by
    rw [threads] at hm
    exact runs id m.priority (tidy.sender id m hm) (Or.inl ⟨m, hm, rfl⟩)
  holder id p held := runs id p (tidy.holder id p (holds id p held)) (Or.inr held)

theorem quiet_below {h t : Hyperion} (quiet : h.QuietOnEffects t) {bound : Int}
    (below : h.effectEngine.Below bound) : t.effectEngine.Below bound := by
  rcases quiet.2 with same | ⟨p, cleared⟩ | cleared
  · exact same ▸ below
  · exact cleared ▸ below.channelCleared p
  · exact cleared ▸ below.allChannelsCleared

theorem Tidy.colors {s : EffectSystem} (tidy : s.Tidy) {h : Hyperion} {p : Int}
    {ledColors : List ColorRgb} {timeout : Int} {clearEffects : Bool} {component : Components}
    {clock : Nat → Int}
    (settled : s.Settled fun effect => clearEffects && effect.priority = p)
    (kept : h.EffectsKept)
    (ends : Ends (s.hyperion.setColors p ledColors timeout clearEffects component clock) h) :
    Tidy { s with hyperion := h, writers := Function.update s.writers p none } := by
  obtain ⟨hregister, hengine⟩ := Hyperion.setColors_ends_effects ends
  have quiet : s.hyperion.QuietOnEffects h := by
    refine ⟨hregister, ?_⟩
    split_ifs at hengine
    · exact Or.inr (Or.inl ⟨p, hengine⟩)
    · exact Or.inl hengine
  have others : ∀ id k, Holds { s with
      hyperion := h, writers := Function.update s.writers p none } id k → k ≠ p := by
    rintro id k ⟨_, writer⟩ rfl
    simp at writer
  refine tidy.of_running kept (quiet_below quiet tidy.below) rfl (fun id k held => ?_)
    (fun id k running still => ?_)
  · have hk := others id k held
    refine ⟨Hyperion.setColors_channels ends hk held.1, ?_⟩
    simpa [Function.update_of_ne hk] using held.2
  · simp only [hengine]
    split_ifs with hclear
    · refine (EffectEngine.channelCleared_running _ _ _ _).mpr ⟨running, ?_⟩
      rcases still with onWay | held
      · rintro rfl
        exact settled.not_onWay running (fun _ hp => by simp [hclear, hp]) onWay
      · exact others id k held
    · exact running

theorem Tidy.quietCall {s : EffectSystem} (tidy : s.Tidy) {h : Hyperion} (kept : h.EffectsKept)
    (engine : h.effectEngine = s.hyperion.effectEngine)
    (within : s.hyperion.ChannelsWithin h) : Tidy { s with hyperion := h } := by
  refine tidy.of_running kept (engine ▸ tidy.below) rfl
    (fun id k held => ⟨within k held.1, held.2⟩) (fun id k running _ => ?_)
  simpa only [engine] using running

theorem Tidy.call {s : EffectSystem} (tidy : s.Tidy) {request : Hyperion.Call} {h : Hyperion}
    (orderly : s.Orderly (.call request)) (isRequest : request.op.isRequest = true)
    (step : s.hyperion.stepCaught request = .ok h) :
    Tidy { s with hyperion := h, writers := s.writersAfter request.op } := by
  have kept := tidy.kept.step step
  have channels := Hyperion.stepCaught_channels step
  obtain ⟨ends, _⟩ := Hyperion.stepCaught_ends step
  rcases request with ⟨op, clock⟩
  cases op with
  | setColor p color timeout clearEffects => exact tidy.colors orderly.1 kept ends
  | setColors p ledColors timeout clearEffects component => exact tidy.colors orderly.1 kept ends
  | clear p =>
    obtain ⟨hregister, hengine⟩ := Hyperion.clear_ends_effects ends
    rcases hengine with same | ⟨ok, cleared⟩
    · exact tidy.quietCall kept same channels
    · refine tidy.of_running kept (quiet_below ⟨hregister, Or.inr (Or.inl ⟨p, cleared⟩)⟩ tidy.below)
        rfl (fun id k held => ⟨channels k held.1, held.2⟩) (fun id k running still => ?_)
      simp only [cleared]
      refine (EffectEngine.channelCleared_running _ _ _ _).mpr ⟨running, ?_⟩
      rintro rfl
      rcases still with onWay | held
      · exact orderly.1.not_onWay running (fun _ hp => by simp [Hyperion.aborts, hp]) onWay
      · obtain ⟨effect, hmem, _, rfl, _⟩ := running
        have gone := Hyperion.clear_ok_gone (tidy.below effect hmem) ok
        exact absurd held.1 (by simp [gone])
  | clearall =>
    obtain ⟨hregister, hengine⟩ := Hyperion.clearall_ends_effects ends
    have free : ∀ id k, ¬ Holds { s with hyperion := h, writers := fun _ => none } id k :=
      fun id k held => nomatch held.2
    have quiet : s.hyperion.QuietOnEffects h := ⟨hregister, hengine.imp (fun same => same) Or.inr⟩
    refine tidy.of_running kept (quiet_below quiet tidy.below) rfl
      (fun id k held => absurd held (free id k)) (fun id k running still => ?_)
    rcases still with onWay | held
    · exact absurd onWay (orderly.1.not_onWay running fun _ _ => rfl)
    · exact absurd held (free id k)
  | setSourceAutoSelectEnabled enabled =>
    obtain ⟨_, _, updates⟩ := Hyperion.setSourceAutoSelectEnabled_ends ends
    exact tidy.quietCall kept updates.sameEffects.1 channels
  | setCurrentSourcePriority p =>
    refine tidy.quietCall kept ?_ channels
    rw [← ends_ok.mp ends, Hyperion.setCurrentSourcePriority]
    split_ifs <;> rfl
  | runEffect name p timeout script =>
    rcases Hyperion.runEffect_effects s.hyperion name p timeout script with
      ⟨known, file, hrun⟩ | ⟨_, hrun⟩
    · obtain ⟨hp, unheld⟩ := orderly.2 p (by simp [Hyperion.starts, known])
      have hh : h = s.hyperion.runEffectScript file name p timeout :=
        (ends_ok.mp ends).symm.trans hrun
      subst hh
      refine tidy.of_running kept ((tidy.below.channelCleared p).push file name timeout hp) rfl
        (fun id k held => held) (fun id k running still => ?_)
      refine (EffectEngine.push_running _ _ _ _ _ _ _).mpr (Or.inl
        ((EffectEngine.channelCleared_running _ _ _ _).mpr ⟨running, ?_⟩))
      rintro rfl
      rcases still with onWay | held
      · exact orderly.1.not_onWay running (fun _ hp => by simp [Hyperion.aborts, known, hp]) onWay
      · exact unheld.not_holds id held
    · have hh : h = s.hyperion := (ends_ok.mp ends).symm.trans hrun
      exact tidy.quietCall kept (congrArg Hyperion.effectEngine hh) channels
  | effectFinished id => exact absurd isRequest Bool.false_ne_true
  | update => exact tidy.quietCall kept (Hyperion.update_ends ends).sameEffects.1 channels

theorem Tidy.setThread {s : EffectSystem} (tidy : s.Tidy) (id : Nat) (thread : EffectThread)
    (running : ∀ m ∈ thread.messages, s.hyperion.effectEngine.Running id m.priority) :
    Tidy { s with threads := Function.update s.threads id thread } where
  kept := tidy.kept
  below := tidy.below
  sender i m hm := by
    by_cases hi : i = id
    · subst hi
      simp only [Function.update_self] at hm
      exact running m hm
    · simp only [Function.update_of_ne hi] at hm
      exact tidy.sender i m hm
  holder := tidy.holder

theorem Tidy.deliver {s : EffectSystem} (tidy : s.Tidy) {id : Nat} {m : Message}
    {rest : List Message} {clock : Nat → Int} {h : Hyperion}
    (queued : (s.threads id).queue = m :: rest)
    (ok : s.hyperion.setColors m.priority m.ledColors m.timeoutMs false .effect clock = .ok h) :
    Tidy { hyperion := h
           threads := Function.update s.threads id { s.threads id with queue := rest }
           writers := Function.update s.writers m.priority (some id) } := by
  have engine : h.effectEngine = s.hyperion.effectEngine :=
    (Hyperion.setColors_ends_effects (Or.inl ok)).2
  have onWay : (s.threads id).messages = m :: (rest ++ (s.threads id).script.messages) := by
    rw [EffectThread.messages, queued, List.cons_append]
  constructor
  · exact ⟨engine ▸ tidy.kept.alloc, engine ▸ tidy.kept.exclusive⟩
  · exact engine ▸ tidy.below
  · intro i n hn
    simp only [engine]
    by_cases hi : i = id
    · subst hi
      simp only [Function.update_self] at hn
      exact tidy.sender i n (onWay ▸ List.mem_cons_of_mem _ hn)
    · simp only [Function.update_of_ne hi] at hn
      exact tidy.sender i n hn
  · rintro i k ⟨active, writer⟩
    simp only [engine]
    by_cases hk : k = m.priority
    · subst hk
      simp only [Function.update_self] at writer
      rw [← Option.some.inj writer]
      exact tidy.sender id m (onWay ▸ List.mem_cons_self)
    · simp only [Function.update_of_ne hk] at writer
      exact tidy.holder i k ⟨Hyperion.setColors_channels (Or.inl ok) hk active, writer⟩

theorem Tidy.finish {s : EffectSystem} (tidy : s.Tidy) {id : Nat} {clock : Nat → Int}
    {h : Hyperion} (drained : (s.threads id).messages = [])
    (ok : s.hyperion.effectFinished id clock = .ok h) : Tidy { s with hyperion := h } := by
  obtain ⟨within, gone⟩ := Hyperion.effectFinished_ok_channels ok
  rcases Hyperion.effectFinished_ok_effects ok with ⟨_, rfl⟩ | ⟨effect, found, _, hengine⟩
  · exact tidy
  · rw [tidy.kept.finish found] at hengine
    have kept : h.EffectsKept :=
      ⟨hengine ▸ tidy.kept.alloc.erase id, hengine ▸ tidy.kept.exclusive.erase id⟩
    refine tidy.of_running kept (hengine ▸ tidy.below.erase id) rfl
      (fun i k held => ⟨within k held.1, held.2⟩) (fun i k running still => ?_)
    simp only [hengine]
    refine (tidy.kept.alloc.erase_running id i k).mpr ⟨running, ?_⟩
    rintro rfl
    rcases still with ⟨m, hm, _⟩ | held
    · rw [drained] at hm
      exact absurd hm (by simp)
    · obtain ⟨other, hmem, hid, rfl, going⟩ := running
      have hfind := (tidy.kept.alloc.find?_eq_some_iff _ _).mpr ⟨hmem, hid⟩
      have inactive := gone other hfind going (tidy.below other hmem)
      exact absurd held.1 (by simp [inactive])

theorem Tidy.abort {s : EffectSystem} (tidy : s.Tidy) {id : Nat} {remaining : Int}
    (orderly : s.Orderly (.abort id remaining)) :
    Tidy { s with hyperion := { s.hyperion with
      effectEngine := s.hyperion.effectEngine.wrapAbort id remaining } } := by
  refine tidy.of_running ⟨tidy.kept.alloc.wrapAbort id remaining,
    tidy.kept.exclusive.wrapAbort id remaining⟩ (tidy.below.wrapAbort id remaining) rfl
    (fun i k held => held) (fun i k running still => ?_)
  refine EffectEngine.wrapAbort_running running ?_
  rintro rfl effect hmem hid hp going
  by_contra reached
  obtain ⟨empty, unheld⟩ := orderly effect
    ((tidy.kept.alloc.find?_eq_some_iff _ _).mpr ⟨hmem, hid⟩) (by simpa using reached) going
  rcases still with ⟨m, hm, _⟩ | held
  · rw [empty] at hm
    exact absurd hm (by simp)
  · exact unheld.not_holds i (hp ▸ held)

theorem Tidy.step {s t : EffectSystem} (tidy : s.Tidy) {event : Event}
    (orderly : s.Orderly event) (step : s.step event = .ok t) : t.Tidy := by
  cases event with
  | call request =>
    simp only [EffectSystem.step] at step
    split_ifs at step with isRequest
    · obtain ⟨h, hh, rfl⟩ := map_eq_ok.mp step
      exact tidy.call orderly isRequest hh
    · exact Except.ok.inj step ▸ tidy
  | send id sender remaining colors =>
    simp only [EffectSystem.step] at step
    split at step
    · rename_i effect found idle
      split at step
      · rename_i message sent
        rw [← Except.ok.inj step]
        obtain ⟨hp, unchecked⟩ := Sender.run_priority sent
        obtain ⟨hmem, hid⟩ := (tidy.kept.alloc.find?_eq_some_iff id effect).mp found
        have going : effect.abortRequested = false := by
          by_contra aborted
          exact aborted (orderly (unchecked (by simpa using aborted)) effect found)
        refine tidy.setThread id _ fun m hm => ?_
        rcases List.mem_append.mp hm with hold | hnew
        · exact tidy.sender id m (List.mem_append_left _ hold)
        · rw [List.mem_singleton.mp hnew]
          exact ⟨effect, hmem, hid, hp.symm, going⟩
      · exact Except.ok.inj step ▸ tidy
    · exact Except.ok.inj step ▸ tidy
  | emit id =>
    simp only [EffectSystem.step] at step
    split at step
    · rename_i message emitting
      rw [← Except.ok.inj step]
      refine tidy.setThread id _ fun m hm => tidy.sender id m ?_
      simpa [EffectThread.messages, emitting, ScriptState.messages] using hm
    · exact Except.ok.inj step ▸ tidy
  | abort id remaining =>
    simp only [EffectSystem.step] at step
    split at step
    · exact Except.ok.inj step ▸ tidy.abort orderly
    · exact Except.ok.inj step ▸ tidy
  | scriptEnd id =>
    simp only [EffectSystem.step] at step
    split at step
    · rename_i idle
      rw [← Except.ok.inj step]
      refine tidy.setThread id _ fun m hm => tidy.sender id m ?_
      simpa [EffectThread.messages, idle, ScriptState.messages] using hm
    · exact Except.ok.inj step ▸ tidy
  | deliver id clock =>
    simp only [EffectSystem.step] at step
    split at step
    · rename_i message rest queued
      obtain ⟨h, hh, rfl⟩ := map_eq_ok.mp step
      exact tidy.deliver queued (mapError_eq_ok.mp hh)
    · exact Except.ok.inj step ▸ tidy
  | finish id clock =>
    simp only [EffectSystem.step] at step
    split_ifs at step with drained
    · obtain ⟨h, hh, rfl⟩ := map_eq_ok.mp step
      refine tidy.finish ?_ (mapError_eq_ok.mp hh)
      rw [drained]
      rfl
    · exact Except.ok.inj step ▸ tidy

theorem Tidy.finishedHoldNothing {s : EffectSystem} (tidy : s.Tidy) : s.FinishedHoldNothing := by
  intro id _ gone p held
  obtain ⟨effect, hmem, hid, _, _⟩ := tidy.holder id p held
  rw [(tidy.kept.alloc.find?_eq_some_iff id effect).mpr ⟨hmem, hid⟩] at gone
  exact nomatch gone

theorem Tidy.ignoresAborted {s t : EffectSystem} (tidy : s.Tidy) {event : Event}
    (step : s.step event = .ok t) : s.IgnoresAborted event t := by
  cases event with
  | deliver id clock =>
    intro effect found aborted
    have empty : (s.threads id).queue = [] := by
      by_contra nonempty
      obtain ⟨m, hm⟩ := List.exists_mem_of_ne_nil _ nonempty
      obtain ⟨other, hmem, hid, _, going⟩ := tidy.sender id m (List.mem_append_left _ hm)
      have same := (tidy.kept.alloc.find?_eq_some_iff id other).mpr ⟨hmem, hid⟩
      rw [found] at same
      rw [← Option.some.inj same, aborted] at going
      exact absurd going (by decide)
    simp only [EffectSystem.step, empty] at step
    rw [Except.ok.inj step]
  | call request => trivial
  | send id sender remaining colors => trivial
  | emit id => trivial
  | abort id remaining => trivial
  | scriptEnd id => trivial
  | finish id clock => trivial

/-- In every run whose steps are orderly no delivery for an aborted effect
changes its channel, and no finished effect holds one. -/
theorem effects_leave_nothing {std : IndexSort} {config : HyperionConfig}
    {source now timerNow : Int} {h : Hyperion}
    (constructed : Hyperion.new std config source now timerNow = .ok h) {events : List Event}
    (orderly : Along step Orderly (start h) events) :
    Along step (fun s event => ∀ t, s.step event = .ok t →
      s.IgnoresAborted event t ∧ t.FinishedHoldNothing) (start h) events := by
  refine orderly.under_invariant (fun _ _ _ tidy orderly step => tidy.step orderly step)
    (fun s event tidy orderly t step => ?_) (start_tidy constructed)
  exact ⟨tidy.ignoresAborted step, (tidy.step orderly step).finishedHoldNothing⟩

def oneFrame : List Event :=
  [.call ⟨.runEffect "Snake" 5 0 "snake.py", fun _ => 0⟩,
    .send 0 .setColor 0 [⟨9, 9, 9⟩], .emit 0, .deliver 0 fun _ => 0,
    .scriptEnd 0, .finish 0 fun _ => 0]

theorem effects_leave_nothing_oneFrame : ∃ h : Hyperion,
    Hyperion.new .stable (.ofLeds [{ index := 0 }]) 0 0 0 = .ok h ∧
    Along step (fun s event => ∀ t, s.step event = .ok t →
      s.IgnoresAborted event t ∧ t.FinishedHoldNothing) (start h) oneFrame := by
  have returns : evaluates Hyperion.stepCaught
      (Hyperion.new .stable (.ofLeds [{ index := 0 }]) 0 0 0) []
      (fun h => checksAlong step (fun s event => decide (s.Orderly event)) (start h) oneFrame) =
        true := by decide +kernel
  obtain ⟨h, _, constructed, same, checked⟩ := exists_of_evaluates returns
  obtain rfl := reaches_nil.mp same
  exact ⟨h, constructed, effects_leave_nothing constructed
    (along_of_checks checked fun _ _ _ orderly => of_decide_eq_true orderly)⟩

def clearInFlight : List Event :=
  [.call ⟨.runEffect "Snake" 5 0 "snake.py", fun _ => 0⟩,
    .send 0 .setColor 0 [⟨9, 9, 9⟩], .emit 0, .call ⟨.clear 5, fun _ => 0⟩]

/-- The frame sets the cleared channel again, and the finished effect leaves
it there. -/
theorem clear_in_flight_undone : ∃ h : Hyperion,
    Hyperion.new .stable (.ofLeds [{ index := 0 }]) 0 0 0 = .ok h ∧
    (¬ Along step (fun s event => ∀ t, s.step event = .ok t → s.IgnoresAborted event t) (start h)
      (clearInFlight ++ [.deliver 0 fun _ => 0])) ∧
    ¬ Along step (fun s event => ∀ t, s.step event = .ok t → t.FinishedHoldNothing) (start h)
      (clearInFlight ++ [.deliver 0 fun _ => 0, .scriptEnd 0] ++ [.finish 0 fun _ => 0]) := by
  have delivered : evaluates step
      ((Hyperion.new .stable (.ofLeds [{ index := 0 }]) 0 0 0).map start) clearInFlight
      (fun s => (s.hyperion.effectEngine.find? 0).any
          (fun effect => effect.abortRequested && effect.priority = 5) &&
        returnsWith (s.step (.deliver 0 fun _ => 0)) fun t => decide (t.channel 5 ≠ s.channel 5)) =
      true := by decide +kernel
  have finished : evaluates step
      ((Hyperion.new .stable (.ofLeds [{ index := 0 }]) 0 0 0).map start)
      (clearInFlight ++ [.deliver 0 fun _ => 0, .scriptEnd 0])
      (fun s => returnsWith (s.step (.finish 0 fun _ => 0)) fun t =>
        decide (0 < t.hyperion.effectEngine.nextId) &&
          decide (t.hyperion.effectEngine.find? 0 = none) &&
          (t.hyperion.muxer.activeInputs.contains 5 && decide (t.writers 5 = some 0))) =
      true := by decide +kernel
  obtain ⟨_, s, started, run, stale⟩ := exists_of_evaluates delivered
  obtain ⟨_, u, started', run', left⟩ := exists_of_evaluates finished
  obtain ⟨h, constructed, rfl⟩ := map_eq_ok.mp started
  obtain ⟨h', constructed', rfl⟩ := map_eq_ok.mp started'
  obtain rfl : h = h' := Except.ok.inj (constructed.symm.trans constructed')
  refine ⟨h, constructed, fun along => ?_, fun along => ?_⟩
  · obtain ⟨aborted, changed⟩ := Bool.and_eq_true_iff.mp stale
    obtain ⟨effect, found, hany⟩ := Option.any_eq_true _ _ |>.mp aborted
    obtain ⟨haborted, hp⟩ := Bool.and_eq_true_iff.mp hany
    obtain ⟨t, ok, differs⟩ := exists_of_returnsWith changed
    have same := ((along_append.mp along).2 s run).1 t ok effect found haborted
    rw [of_decide_eq_true hp] at same
    exact of_decide_eq_true differs same
  · obtain ⟨t, ok, holds⟩ := exists_of_returnsWith left
    simp only [Bool.and_eq_true, decide_eq_true_eq] at holds
    exact ((along_append.mp along).2 u run').1 t ok 0 holds.1.1 holds.1.2 5 holds.2

end EffectSystem

end HyperionNg
