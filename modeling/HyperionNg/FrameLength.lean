import HyperionNg.Hyperion
import HyperionNg.PriorityMuxerInvariant
import HyperionNg.LedDeviceWs2812SPI

/-! The length of the frames against the LED count the device was dimensioned
with. The device is told the number of normal LEDs; the frames also hold the
clones, and are padded to `device.ledCount`. -/

namespace HyperionNg.Hyperion

open Library Library.Execution

/-- The layout is that of `g`, and the frames are as long as the hardware, the
channel's colours and the clones can make them. -/
structure Framed (g h : Hyperion) : Prop where
  ledString : h.ledString = g.ledString
  ledStringClone : h.ledStringClone = g.ledStringClone
  hwLedCount : h.hwLedCount = g.hwLedCount
  ledCount : h.ledCount = g.ledCount
  orders : h.ledStringColorOrder.length ≤ g.ledString.length + g.ledStringClone.length
  frames : ∀ frame ∈ h.frames, g.hwLedCount ≤ frame.ledValues.length ∧
    frame.ledValues.length ≤ max g.hwLedCount (g.ledString.length + g.ledStringClone.length)

theorem colorOrders_length_le {h : Hyperion} {orders : List ColorOrder} {bound : Nat}
    (init : h.ledString.length + h.ledStringClone.length ≤ bound)
    (held : h.ledStringColorOrder.length ≤ bound) (ok : h.colorOrders = .ok orders) :
    orders.length ≤ bound := by
  unfold colorOrders at ok
  split_ifs at ok
  · rw [initLedStringColorOrder] at ok
    have := insertColorOrders_length ok
    rw [List.length_map] at this
    omega
  · rw [← Except.ok.inj ok]
    exact held

theorem Framed.update {g h t : Hyperion} (framed : g.Framed h) {now timerNow : Int}
    (ends : Ends (h.update now timerNow) t) : g.Framed t := by
  have expired : g.Framed (h.setCurrentTime now) :=
    ⟨framed.ledString, framed.ledStringClone, framed.hwLedCount, framed.ledCount, framed.orders,
      framed.frames⟩
  rcases ends_raise_bind ends with rfl | ⟨info, _, ends⟩
  · exact expired
  · obtain ⟨adjustment, prev, hsel⟩ := selectBacklight_eq (h.setCurrentTime now)
      (h.setCurrentTime now).getCurrentPriority info.componentId
    rw [hsel] at ends
    rcases ends_raise_bind ends with rfl | ⟨orders, horders, ends⟩
    · exact ⟨expired.ledString, expired.ledStringClone, expired.hwLedCount, expired.ledCount,
        expired.orders, expired.frames⟩
    · have bound : orders.length ≤ g.ledString.length + g.ledStringClone.length :=
        colorOrders_length_le (by rw [← framed.ledString, ← framed.ledStringClone])
          framed.orders horders
      rcases ends_raise_bind ends with rfl | ⟨frame, hframe, ends⟩
      · exact ⟨expired.ledString, expired.ledStringClone, expired.hwLedCount, expired.ledCount,
          bound, expired.frames⟩
      · rw [← ends_pure.mp ends]
        refine ⟨expired.ledString, expired.ledStringClone, expired.hwLedCount, expired.ledCount,
          bound, fun f hf => ?_⟩
        rcases List.mem_cons.mp hf with rfl | hold
        · have hlen := buildFrame_length hframe
          have hhw := expired.hwLedCount
          simp only at hlen ⊢
          omega
        · exact expired.frames f hold

theorem Framed.replaced {g h : Hyperion} (framed : g.Framed h) (muxer : PriorityMuxer)
    (effectEngine : EffectEngine) (priorityRegister : SortedMap String Int)
    (sourceAutoSelectEnabled : Bool) (currentSourcePriority : Int) :
    g.Framed { h with
      muxer, effectEngine, priorityRegister, sourceAutoSelectEnabled, currentSourcePriority } :=
  ⟨framed.ledString, framed.ledStringClone, framed.hwLedCount, framed.ledCount, framed.orders,
    framed.frames⟩

theorem Framed.reaches {g h t : Hyperion} (framed : g.Framed h) {calls : List Call}
    (run : Reaches stepCaught h calls t) : g.Framed t :=
  run.invariant (fun _ _ _ framed step =>
    step_invariant (fun _ _ _ _ framed ends => Framed.update framed ends)
      (fun _ m e r a c _ framed => Framed.replaced framed m e r a c) framed
      (stepCaught_ends step).1) framed

theorem new_framed {std : IndexSort} {config : HyperionConfig} {source now timerNow : Int}
    {h : Hyperion} (constructed : new std config source now timerNow = .ok h) :
    ∃ raw2led, (initial std config raw2led source).Framed h ∧
      ∃ frame, h.frames = [frame] ∧ frame.ledValues.length =
        max (initial std config raw2led source).hwLedCount
          ((initial std config raw2led source).ledString.length +
            (initial std config raw2led source).ledStringClone.length) := by
  obtain ⟨raw2led, _, rendered⟩ := (new_eq_ok_iff _ _ _ _ _ _).mp constructed
  refine ⟨raw2led, ?_, ?_⟩
  · exact Framed.update ⟨rfl, rfl, rfl, rfl, Nat.zero_le _, by simp [initial]⟩ (Or.inl rendered)
  · obtain ⟨info, _, _, _, frame, hinfo, _, hframe, rfl⟩ := update_ok rendered
    refine ⟨⟨_, frame⟩, rfl, ?_⟩
    have hcolors : info.ledColors.length =
        (initial std config raw2led source).ledString.length := by
      rw [setCurrentTime, PriorityMuxer.setCurrentTime_find?, Option.filter_eq_some_iff] at hinfo
      have hnew := hinfo.1
      rw [initial, PriorityMuxer.new_find?] at hnew
      split_ifs at hnew
      rw [← Option.some.inj hnew]
      simp [PriorityMuxer.new, initial]
    have hlen := (buildFrame_length hframe).1
    rw [channelColors_length, hcolors] at hlen
    exact hlen

/-- The frame has as many entries as the device's LED count, and the WS2812
driver initialised with that count stays in its buffer. -/
def FitsDevice (h : Hyperion) (frame : Frame) : Prop :=
  frame.ledValues.length = h.ledCount ∧
    ∃ out, LedDeviceWs2812SPI.write (LedDeviceWs2812SPI.init h.ledCount) frame.ledValues = .ok out

theorem fitsDevice_iff (h : Hyperion) (frame : Frame) :
    h.FitsDevice frame ↔ frame.ledValues.length = h.ledCount := by
  rw [FitsDevice, LedDeviceWs2812SPI.write_returns_iff]
  exact ⟨And.left, fun h => ⟨h, le_of_eq h⟩⟩

theorem createLedStringClone_eq_nil_iff (std : IndexSort) (leds : List LedConfig)
    (order : ColorOrder) :
    createLedStringClone std leds order = [] ↔
      ∀ led ∈ configuredLeds leds order, led.isNormal = true := by
  rw [createLedStringClone, ← List.length_eq_zero_iff, (std.perm _).length_eq,
    List.length_eq_zero_iff, List.filter_eq_nil_iff]
  simp

/-- All frames of all runs fit the device exactly when no LED is a clone and
the configuration asks for no more hardware LEDs than there are normal LEDs. -/
theorem frames_fitDevice_iff {std : IndexSort} {config : HyperionConfig}
    {source now timerNow : Int} {h₀ : Hyperion}
    (constructed : new std config source now timerNow = .ok h₀) :
    (∀ calls h, Reaches stepCaught h₀ calls h → ∀ frame ∈ h.frames, h.FitsDevice frame) ↔
      (∀ led ∈ configuredLeds config.leds (createColorOrder config), led.isNormal = true) ∧
        config.hwLedCount h₀.ledString.length ≤ h₀.ledString.length := by
  obtain ⟨raw2led, framed, frame, hframes, hlen⟩ := new_framed constructed
  rw [← createLedStringClone_eq_nil_iff std, ← List.length_eq_zero_iff, framed.ledString]
  have hclones : (initial std config raw2led source).ledStringClone.length =
      (createLedStringClone std config.leds (createColorOrder config)).length := rfl
  have hhw : (initial std config raw2led source).hwLedCount =
      max (config.hwLedCount (initial std config raw2led source).ledString.length)
        (initial std config raw2led source).ledString.length := rfl
  have hcount : (initial std config raw2led source).ledCount =
      (initial std config raw2led source).ledString.length := rfl
  constructor
  · intro fits
    have first :=
      (fitsDevice_iff _ _).mp (fits [] h₀ (reaches_nil.mpr rfl) frame (by simp [hframes]))
    rw [hlen, framed.ledCount] at first
    omega
  · rintro ⟨noClones, hardware⟩ calls h run f hf
    have reached := framed.reaches run
    have := reached.frames f hf
    rw [fitsDevice_iff, reached.ledCount]
    omega

theorem frames_fitDevice_one_led : ∃ h₀ : Hyperion,
    new .stable (.ofLeds [{ index := 0 }]) 0 0 0 = .ok h₀ ∧
    ∀ calls h, Reaches stepCaught h₀ calls h → ∀ frame ∈ h.frames, h.FitsDevice frame := by
  have checked : evaluates stepCaught (new .stable (.ofLeds [{ index := 0 }]) 0 0 0) []
      (fun h => decide (h.ledString.length = 1)) = true := by decide +kernel
  obtain ⟨h₀, _, constructed, same, one⟩ := exists_of_evaluates checked
  obtain rfl := reaches_nil.mp same
  refine ⟨h₀, constructed, (frames_fitDevice_iff constructed).mpr ⟨?_, ?_⟩⟩
  · decide +kernel
  · rw [of_decide_eq_true one]
    decide +kernel

/-- One LED and one clone of it: the first frame already overruns the device
that was dimensioned for one LED. -/
theorem clone_overruns_device : ∃ h₀ : Hyperion,
    new .stable (.ofLeds [{ index := 0 }, { index := 1, clone := 0 }]) 0 0 0 = .ok h₀ ∧
    ∃ frame ∈ h₀.frames, frame.ledValues.length = 2 ∧ h₀.ledCount = 1 ∧
      LedDeviceWs2812SPI.write (LedDeviceWs2812SPI.init h₀.ledCount) frame.ledValues =
        .error .undefinedBehaviour := by
  have checked : evaluates stepCaught
      (new .stable (.ofLeds [{ index := 0 }, { index := 1, clone := 0 }]) 0 0 0) []
      (fun h => decide (∃ frame ∈ h.frames, frame.ledValues.length = 2 ∧ h.ledCount = 1 ∧
        LedDeviceWs2812SPI.write (LedDeviceWs2812SPI.init h.ledCount) frame.ledValues =
          .error .undefinedBehaviour)) = true := by decide +kernel
  obtain ⟨h₀, _, constructed, same, overrun⟩ := exists_of_evaluates checked
  obtain rfl := reaches_nil.mp same
  exact ⟨h₀, constructed, of_decide_eq_true overrun⟩

end HyperionNg.Hyperion
