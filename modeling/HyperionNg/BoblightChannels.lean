import HyperionNg.BoblightClientConnection

/-! The channels of a boblight connection over every run of its messages. The
channel it has written and not cleared is the one of its priority, which it
clears whenever it gives the priority up. -/

namespace HyperionNg

open Library Library.Execution

namespace Hyperion

variable {h t : Hyperion} {p : Int}

theorem Updates.muxer {now : Int} (updates : h.Updates t now) :
    t.muxer = h.muxer.setCurrentTime now := by
  obtain ⟨_, _, _, _, _, rfl⟩ := updates
  rfl

theorem setColors_channel {ledColors : List ColorRgb} {clearEffects : Bool}
    {component : Components} {clock : Nat → Int}
    (ends : Ends (h.setColors p ledColors (-1) clearEffects component clock) t) :
    t.muxer.activeInputs.find? p = some ⟨p, -1, ledColors, component⟩ := by
  have stored : (h.storeColors p ledColors (-1) clearEffects component
      (clock 0)).muxer.activeInputs.find? p = some ⟨p, -1, ledColors, component⟩ := by
    simp [storeColors]
  rcases setColors_ends ends with rfl | ends
  · exact stored
  · rw [(update_ends ends).muxer, PriorityMuxer.setCurrentTime_find?, stored]
    rfl

theorem setColors_component {ledColors : List ColorRgb} {timeout : Int} {clearEffects : Bool}
    {component : Components} {clock : Nat → Int} {info : InputInfo}
    (ends : Ends (h.setColors p ledColors timeout clearEffects component clock) t)
    (found : t.muxer.activeInputs.find? p = some info) : info.componentId = component := by
  have stored : ∃ time, (h.storeColors p ledColors timeout clearEffects component
      (clock 0)).muxer.activeInputs.find? p = some ⟨p, time, ledColors, component⟩ :=
    ⟨_, by rw [storeColors, PriorityMuxer.setInput_find?, if_pos rfl]⟩
  obtain ⟨time, stored⟩ := stored
  rcases setColors_ends ends with rfl | ends
  · rw [← Option.some.inj (stored.symm.trans found)]
  · rw [(update_ends ends).muxer, PriorityMuxer.setCurrentTime_find?, stored,
      Option.filter_eq_some_iff] at found
    rw [← Option.some.inj found.1]

end Hyperion

namespace BoblightClientConnection

variable {platform : BoblightPlatform} {c t : BoblightClientConnection} {clock : Nat → Int}

/-- Whether a message sends colours: `sync`, or the last light with three
readable levels, below priority 255. -/
def outputs (platform : BoblightPlatform) (c : BoblightClientConnection) (message : List Char) :
    Bool :=
  let level := fun text => platform.level (decimalPoint text)
  decide (c.priority < 255) && match QString.words message with
    | ["set", "light", index, "rgb", red, green, blue] =>
      decide ((QString.toUInt? index.toList).filter (· < c.ledColors.length) =
          some (c.ledColors.length - 1)) &&
        ((level red).isSome && (level green).isSome && (level blue).isSome)
    | "sync" :: _ => true
    | _ => false

inductive Does (c t : BoblightClientConnection) (clock : Nat → Int) : Bool → Prop
  | quiet (hyperion : t.hyperion = c.hyperion) (priority : t.priority = c.priority)
      (calls : t.calls = c.calls) : Does c t clock false
  | outputs (below : c.priority < 255)
      (set : c.hyperion.setColors c.priority t.ledColors (-1) true .invalid clock = .ok t.hyperion)
      (priority : t.priority = c.priority)
      (calls : t.calls = c.calls ++ [.setColors c.priority]) : Does c t clock true
  | takes (above : ¬ c.priority < 255) (hyperion : t.hyperion = c.hyperion)
      (priority : t.priority ≠ c.priority) (calls : t.calls = c.calls) : Does c t clock false
  | moves (below : c.priority < 255) (cleared : c.hyperion.clear c.priority clock = .ok t.hyperion)
      (priority : t.priority ≠ c.priority)
      (calls : t.calls = c.calls ++ [.clear c.priority]) : Does c t clock false

theorem call_ok {made : ChannelCall} {result : Except (Thrown Fault Hyperion) Hyperion}
    (ok : c.call made result = .ok t) :
    ∃ hyperion, result = .ok hyperion ∧
      t = { c with hyperion, calls := c.calls ++ [made] } := by
  cases result with
  | ok hyperion => exact ⟨hyperion, rfl, (Except.ok.inj ok).symm⟩
  | error thrown => exact absurd ok nofun

private theorem setColors_does (below : c.priority < 255) (ok : c.setColors clock = .ok t) :
    c.Does t clock true ∧ t.closed = c.closed := by
  obtain ⟨hyperion, set, rfl⟩ := call_ok ok
  exact ⟨.outputs below set rfl rfl, rfl⟩

theorem sync_does (ok : c.sync clock = .ok t) :
    c.Does t clock (decide (c.priority < 255)) ∧ t.closed = c.closed := by
  unfold sync at ok
  by_cases below : c.priority < 255
  · rw [decide_eq_true below, optionally_true] at ok
    rw [decide_eq_true below]
    exact setColors_does below ok
  · rw [decide_eq_false below, optionally_false] at ok
    rw [decide_eq_false below, Except.ok.inj ok]
    exact ⟨.quiet rfl rfl rfl, rfl⟩

theorem setPriority_does {prio : Int} (ok : c.setPriority clock prio = .ok t) :
    c.Does t clock false ∧ t.closed = c.closed := by
  unfold setPriority at ok
  split_ifs at ok with same
  · rw [Except.ok.inj ok]
    exact ⟨.quiet rfl rfl rfl, rfl⟩
  · obtain ⟨u, left, done⟩ := bind_eq_ok.mp ok
    rw [← Except.ok.inj done]
    by_cases below : c.priority < 255
    · rw [decide_eq_true below, optionally_true] at left
      obtain ⟨hyperion, cleared, rfl⟩ := call_ok left
      exact ⟨.moves below cleared same rfl, rfl⟩
    · rw [decide_eq_false below, optionally_false] at left
      rw [← Except.ok.inj left]
      exact ⟨.takes below rfl same rfl, rfl⟩

private theorem switchLocale_eq (c : BoblightClientConnection) (red : Option Int) :
    ∃ locale, c.switchLocale red = { c with locale } := by
  cases red with
  | none => exact ⟨_, rfl⟩
  | some level => exact ⟨c.locale, rfl⟩

theorem setLight_does {ledIndex : Nat} {red green blue : String}
    (ok : c.setLight platform clock ledIndex red green blue = .ok t) :
    c.Does t clock (decide (c.priority < 255) && (decide (ledIndex = c.ledColors.length - 1) &&
      ((platform.level (decimalPoint red)).isSome && (platform.level (decimalPoint green)).isSome &&
        (platform.level (decimalPoint blue)).isSome))) ∧ t.closed = c.closed := by
  unfold setLight at ok
  obtain ⟨locale, switched⟩ := switchLocale_eq c (platform.level (decimalPoint red))
  simp only [switched, List.length_set] at ok
  split_ifs at ok with readable last
  · simp only [readable, last.1, decide_eq_true last.2, decide_true, Bool.and_true]
    obtain ⟨hyperion, set, rfl⟩ := call_ok ok
    exact ⟨.outputs last.2 set rfl rfl, rfl⟩
  · rw [← Except.ok.inj ok]
    simp only [readable, Bool.and_true]
    have quiet : (decide (c.priority < 255) && decide (ledIndex = c.ledColors.length - 1)) =
        false := by
      simpa [and_comm] using last
    rw [quiet]
    exact ⟨.quiet rfl rfl rfl, trivial⟩
  · rw [← Except.ok.inj ok]
    simp only [Bool.not_eq_true] at readable
    simp only [readable, Bool.and_false]
    exact ⟨.quiet rfl rfl rfl, trivial⟩

theorem handleMessage_does {message : List Char}
    (ok : c.handleMessage platform clock message = .ok t) :
    c.Does t clock (outputs platform c message) ∧ t.closed = c.closed := by
  have quiet : ∀ {u : BoblightClientConnection}, (.ok u : Handled) = .ok t →
      u.hyperion = c.hyperion → u.priority = c.priority → u.calls = c.calls →
      u.closed = c.closed →
      c.Does t clock (decide (c.priority < 255) && false) ∧ t.closed = c.closed := by
    intro u done hyperion priority calls closed
    rw [Bool.and_false, ← Except.ok.inj done]
    exact ⟨.quiet hyperion priority calls, closed⟩
  unfold handleMessage at ok
  unfold outputs
  generalize QString.words message = parts at ok ⊢
  split at ok
  · exact quiet ok rfl rfl rfl rfl
  · exact quiet ok rfl rfl rfl rfl
  · exact quiet ok rfl rfl rfl rfl
  · exact quiet ok rfl rfl rfl rfl
  · rename_i index red green blue
    cases found : (QString.toUInt? index.toList).filter (· < c.ledColors.length) with
    | none =>
      simp only [found] at ok
      simp only [found, reduceCtorEq, decide_false, Bool.false_and]
      exact quiet ok rfl rfl rfl rfl
    | some ledIndex =>
      simp only [found] at ok
      simp only [found, Option.some.injEq]
      exact setLight_does ok
  · rename_i prio
    cases read : QString.toInt? prio.toList with
    | none =>
      rw [read] at ok
      exact quiet ok rfl rfl rfl rfl
    | some p =>
      rw [read] at ok
      have moves := setPriority_does ok
      rwa [← Bool.and_false (decide (c.priority < 255))] at moves
  · simp only [Bool.and_true]
    exact sync_does ok
  · rename_i light _ sync
    have ignored : ∀ sent : Bool, sent = false →
        c.Does t clock (decide (c.priority < 255) && sent) ∧ t.closed = c.closed := by
      rintro _ rfl
      exact quiet ok rfl rfl rfl rfl
    refine ignored _ ?_
    split
    · exact absurd rfl (light _ _ _ _)
    · exact absurd rfl (sync _)
    · rfl

inductive Event
  | message (message : List Char) (clock : Nat → Int)
  | elsewhere (hyperion : Hyperion)
  | left (clock : Nat → Int)

def channel (c : BoblightClientConnection) : Option InputInfo :=
  c.hyperion.muxer.activeInputs.find? c.priority

/-- What the rest of the daemon does to the core; no one else writes to the
channel of the connection. -/
def elsewhere (c : BoblightClientConnection) (hyperion : Hyperion) : BoblightClientConnection :=
  { c with hyperion := { hyperion with muxer := { hyperion.muxer with
      activeInputs := hyperion.muxer.activeInputs.set c.priority c.channel } } }

@[simp] theorem elsewhere_channel (c : BoblightClientConnection) (hyperion : Hyperion) :
    (c.elsewhere hyperion).channel = c.channel := SortedMap.find?_set _ _ _

/-- A closed socket delivers nothing. -/
def step (platform : BoblightPlatform) (c : BoblightClientConnection) : Event → Handled
  | .message message clock => if c.closed then .ok c else c.handleMessage platform clock message
  | .elsewhere hyperion => .ok (c.elsewhere hyperion)
  | .left clock => c.leave clock

def sends (platform : BoblightPlatform) (c : BoblightClientConnection) : Event → Bool
  | .message message _ => !c.closed && c.outputs platform message
  | .elsewhere _ => false
  | .left _ => false

theorem message_does {message : List Char}
    (ok : c.step platform (.message message clock) = .ok t) :
    c.Does t clock (c.sends platform (.message message clock)) ∧ t.closed = c.closed := by
  simp only [step] at ok
  split_ifs at ok with closed
  · rw [← Except.ok.inj ok]
    simp only [sends, closed, Bool.not_true, Bool.false_and]
    exact ⟨.quiet rfl rfl rfl, trivial⟩
  · simp only [sends, closed, Bool.not_false, Bool.true_and]
    have does := handleMessage_does ok
    simpa [closed] using does

theorem leave_ok (ok : c.leave clock = .ok t) : t.closed = true ∧
    ((c.priority < 255 ∧ t.priority = 255 ∧ t.calls = c.calls ++ [.clear c.priority] ∧
        c.hyperion.clear c.priority clock = .ok t.hyperion) ∨
      (¬ c.priority < 255 ∧ t.priority = c.priority ∧ t.calls = c.calls ∧
        t.hyperion = c.hyperion)) := by
  obtain ⟨u, left, done⟩ := bind_eq_ok.mp ok
  rw [← Except.ok.inj done]
  refine ⟨rfl, ?_⟩
  by_cases below : c.priority < 255
  · rw [decide_eq_true below, optionally_true] at left
    obtain ⟨v, clearing, left⟩ := bind_eq_ok.mp left
    obtain ⟨hyperion, cleared, rfl⟩ := call_ok clearing
    rw [← Except.ok.inj left]
    exact Or.inl ⟨below, rfl, rfl, cleared⟩
  · rw [decide_eq_false below, optionally_false] at left
    rw [← Except.ok.inj left]
    exact Or.inr ⟨below, rfl, rfl, rfl⟩

end BoblightClientConnection

namespace BoblightClientConnection

variable {platform : BoblightPlatform} {c t : BoblightClientConnection} {event : Event}

def written (calls : List ChannelCall) : Finset Int :=
  calls.foldl (fun held made => match made with
    | .setColors p => insert p held
    | .clear p => held.erase p) ∅

/-- The invariant behind it: a closed connection has given its priority up. -/
structure Holds (c : BoblightClientConnection) : Prop where
  own : ∀ p ∈ written c.calls, p = c.priority ∧ c.priority < 255
  closed : c.closed = true → ¬ c.priority < 255

/-- No channel gets active but by the calls that the step logs. -/
def Leaves (c t : BoblightClientConnection) (made : List ChannelCall) : Prop :=
  ∀ p, t.hyperion.muxer.activeInputs.contains p = true →
    .setColors p ∈ made ∨
      c.hyperion.muxer.activeInputs.contains p = true ∧ .clear p ∉ made

def silentPlatform : BoblightPlatform := ⟨fun _ => none, fun _ _ => ""⟩

def syncEvent : Event := .message ['s', 'y', 'n', 'c'] fun _ => 0

end BoblightClientConnection

end HyperionNg
