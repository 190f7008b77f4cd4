import HyperionNg.BoblightChannels

/-! What a boblight connection shows on its channel: always the colours it has
last sent, without a timeout, but with the component id of nobody. -/

namespace HyperionNg

open Library Library.Execution

structure BoblightOutput where
  connection : BoblightClientConnection
  output : Option (List ColorRgb) := none

namespace BoblightOutput

open BoblightClientConnection

variable {platform : BoblightPlatform} {s t : BoblightOutput} {event : Event}

def step (platform : BoblightPlatform) (s : BoblightOutput) (event : Event) :
    Except (Thrown Fault BoblightClientConnection) BoblightOutput := do
  let connection ← s.connection.step platform event
  let output := if s.connection.sends platform event then some connection.ledColors
    else if connection.priority = s.connection.priority then s.output else none
  pure ⟨connection, output⟩

/-- Below priority 255 the channel shows the last colours sent to it, with this
component and no timeout. -/
def ShownAs (component : Components) (s : BoblightOutput) : Prop :=
  s.connection.priority < 255 → ∀ ledColors, s.output = some ledColors →
    s.connection.channel = some ⟨s.connection.priority, -1, ledColors, component⟩

theorem shownAs_of_channel {component : Components}
    {connection : BoblightClientConnection} (shown : s.ShownAs component)
    (priority : connection.priority = s.connection.priority)
    (channel : connection.channel = s.connection.channel) :
    ShownAs component ⟨connection, s.output⟩ := by
  intro below ledColors sent
  rw [priority] at below
  rw [priority, channel]
  exact shown below ledColors sent

theorem step_shownAs {component : Components} (shown : s.ShownAs component)
    (ok : s.step platform event = .ok t) :
    t.ShownAs component ↔ (s.connection.sends platform event = true → component = .invalid) := by
  obtain ⟨connection, stepped, done⟩ := bind_eq_ok.mp ok
  rw [← Except.ok.inj done]
  have ignored : ∀ output, ¬ connection.priority < 255 → ShownAs component ⟨connection, output⟩ :=
    fun output above below => absurd below above
  cases event with
  | message message clock =>
    obtain ⟨does, _⟩ := message_does stepped
    generalize s.connection.sends platform (.message message clock) = sent at does ⊢
    cases does with
    | quiet hyperion priority calls =>
      simp only [Bool.false_eq_true, if_false, priority, if_true, false_implies, iff_true]
      refine shownAs_of_channel shown priority ?_
      rw [channel, channel, hyperion, priority]
    | outputs below set priority calls =>
      have holds : connection.channel =
          some ⟨connection.priority, -1, connection.ledColors, .invalid⟩ := by
        rw [channel, priority]
        exact Hyperion.setColors_channel (Or.inl set)
      simp only [if_true, true_implies]
      constructor
      · intro shown
        have both := holds.symm.trans (shown (priority ▸ below) _ rfl)
        exact (congrArg InputInfo.componentId (Option.some.inj both)).symm
      · rintro rfl _ ledColors sent
        rw [← Option.some.inj sent]
        exact holds
    | takes above hyperion priority calls =>
      simp only [Bool.false_eq_true, if_false, priority, false_implies, iff_true]
      exact fun _ _ sent => absurd sent nofun
    | moves below cleared priority calls =>
      simp only [Bool.false_eq_true, if_false, priority, false_implies, iff_true]
      exact fun _ _ sent => absurd sent nofun
  | elsewhere hyperion =>
    rw [← Except.ok.inj stepped]
    simp only [sends, Bool.false_eq_true, if_false, false_implies, iff_true]
    have priority : (s.connection.elsewhere hyperion).priority = s.connection.priority := rfl
    rw [if_pos priority]
    exact shownAs_of_channel shown priority (elsewhere_channel _ hyperion)
  | left clock =>
    simp only [sends, Bool.false_eq_true, if_false, false_implies, iff_true]
    obtain ⟨_, ⟨_, priority, _, _⟩ | ⟨_, priority, _, hyperion⟩⟩ := leave_ok stepped
    · exact ignored _ (by omega)
    · rw [if_pos priority]
      refine shownAs_of_channel shown priority ?_
      rw [channel, channel, hyperion, priority]

/-- In every run, what the connection has sent to its channel is shown there, but
as of the boblight server exactly while nothing is ever sent. -/
theorem shownAs_boblightserver_iff (platform : BoblightPlatform)
    (connection : BoblightClientConnection) (events : List Event) :
    (Throughout (step platform) (ShownAs .boblightserver) ⟨connection, none⟩ events ↔
      Along (step platform) (fun s event => ∀ t, s.step platform event = .ok t →
        s.connection.sends platform event = false) ⟨connection, none⟩ events) ∧
    Throughout (step platform) (ShownAs .invalid) ⟨connection, none⟩ events := by
  have start : ∀ component, ShownAs component ⟨connection, none⟩ :=
    fun component _ _ sent => absurd sent nofun
  constructor
  · refine throughout_iff_along (I := fun _ => True) (fun _ _ _ _ _ => trivial) ?_ trivial
      (start _)
    intro s event t _ shown ok
    rw [step_shownAs shown ok]
    simp
  · exact throughout_of_invariant
      (fun _ _ _ shown ok => (step_shownAs shown ok).mpr fun _ => rfl) (fun _ shown => shown)
      (start _) events

/-- After one `sync` of a started daemon the channel has no component. -/
theorem sync_shows_nobody : ∃ h t,
    Hyperion.new .stable (.ofLeds [{ index := 0 }]) 0 0 0 = .ok h ∧
    Reaches (step silentPlatform) ⟨create h (.create h.ledString {}) 128, none⟩ [syncEvent] t ∧
    t.output = some [.black] ∧ t.connection.priority = 128 ∧
    t.connection.channel = some ⟨128, -1, [.black], .invalid⟩ ∧ ¬ t.ShownAs .boblightserver := by
  have computed : returnsWith (Hyperion.new .stable (.ofLeds [{ index := 0 }]) 0 0 0) (fun h =>
      returnsWith ([syncEvent].foldlM (step silentPlatform)
        ⟨create h (.create h.ledString {}) 128, none⟩) fun t =>
        decide (t.output = some [.black] ∧ t.connection.priority = 128 ∧
          t.connection.channel = some ⟨128, -1, [.black], .invalid⟩)) = true := by
    decide +kernel
  obtain ⟨h, started, computed⟩ := exists_of_returnsWith computed
  obtain ⟨t, run, ends⟩ := exists_of_returnsWith computed
  obtain ⟨output, priority, channel⟩ := of_decide_eq_true ends
  refine ⟨h, t, started, run, output, priority, channel, fun shown => ?_⟩
  have both := channel.symm.trans (shown (by rw [priority]; decide) _ output)
  exact absurd (congrArg InputInfo.componentId (Option.some.inj both)) nofun

end BoblightOutput

theorem UDPListener.processTheDatagram_component {clock : Nat → Int} {l : UDPListener}
    {datagram : List UInt8} {h : Hyperion} (ok : l.processTheDatagram clock datagram = .ok h)
    (info : InputInfo) (found : h.muxer.activeInputs.find? l.priority = some info) :
    info.componentId = .udplistener :=
  Hyperion.setColors_component (Or.inl ok) found

end HyperionNg
