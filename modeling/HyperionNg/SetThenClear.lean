import HyperionNg.Hyperion
import HyperionNg.PriorityMuxerInvariant

/-! Setting an inactive channel and clearing it again. A clear has no effect
from the fallback priority on, while a set takes every priority, and the
daemon hands out priorities above the fallback unless they are configured. -/

namespace HyperionNg

open Library Library.Execution

/-- Where the daemon takes the priority of a source from the configuration. -/
inductive DaemonSource
  | boblightServer
  | udpListener
  | frameGrabber
  | amlogicGrabber
  | v4l2Grabber
deriving DecidableEq

def DaemonSource.priority (configured : Option Int) : DaemonSource → Int
  | .boblightServer => configured.getD 710
  | .udpListener => configured.getD 700
  | .frameGrabber => configured.getD 900
  | .amlogicGrabber => configured.getD 900 - 1
  | .v4l2Grabber => configured.getD 890

namespace PriorityMuxer

variable {m : PriorityMuxer} {p : Int} (colors : List ColorRgb) (timeout : Int)
  (component : Components)

private theorem erase_setInput (inactive : m.activeInputs.contains p = false) :
    (m.setInput p colors timeout component).activeInputs.erase p = m.activeInputs :=
  SortedMap.erase_insert_of_not_mem _ _ inactive

theorem setInput_clearInput_below {t : PriorityMuxer} (wf : m.WellFormed) (hp : p < lowestPriority)
    (inactive : m.activeInputs.contains p = false)
    (cleared : (m.setInput p colors timeout component).clearInput p = .ok t) :
    t.activeInputs = m.activeInputs ∧ t.lowestPriorityInfo = m.lowestPriorityInfo ∧
      (m.CurrentActive → t.currentPriority = m.currentPriority) ∧
      (¬ m.CurrentActive → p < m.currentPriority ∧ p < t.currentPriority ∧ t ≠ m) := by
  have erased := erase_setInput colors timeout component inactive
  have bound : ¬ m.CurrentActive → m.currentPriority = lowestPriority := fun h =>
    wf.cached.resolve_left h
  rcases clearInput_cases cleared with ⟨hge, _⟩ | ⟨_, hne, rfl⟩ | ⟨_, hcur, k, hk, rfl⟩
  · omega
  · have kept : min m.currentPriority p = m.currentPriority := by
      simp only [setInput] at hne
      omega
    refine ⟨erased, rfl, fun _ => kept, fun hactive => ?_⟩
    have := bound hactive
    omega
  · rw [erased] at hk
    have hset : min m.currentPriority p = p := hcur
    refine ⟨erased, rfl, fun hactive => ?_, fun hactive => ?_⟩
    · have hle := wf.least k hk.1
      have hge : k ≤ m.currentPriority := hk.2 hactive
      simp only
      omega
    · have hlowest := bound hactive
      have hle := wf.least k hk.1
      refine ⟨by omega, by simp only; omega, fun same => hactive ?_⟩
      have hcurrent := congrArg PriorityMuxer.currentPriority same
      simp only at hcurrent
      rw [CurrentActive, ← hcurrent]
      exact hk.1

theorem setInput_clearInput_iff (wf : m.WellFormed)
    (inactive : m.activeInputs.contains p = false) :
    (m.setInput p colors timeout component).clearInput p = .ok m ↔
      p < lowestPriority ∧ m.CurrentActive := by
  constructor
  · intro cleared
    have hp : p < lowestPriority := by
      by_contra hge
      have stays := clearInput_find? cleared p
      rw [if_neg (fun h => hge h.2), setInput_find?, if_pos rfl] at stays
      simp [SortedMap.contains, stays] at inactive
    refine ⟨hp, ?_⟩
    by_contra hactive
    exact (setInput_clearInput_below colors timeout component wf hp inactive cleared).2.2.2
      hactive |>.2.2 rfl
  · rintro ⟨hp, hactive⟩
    have sustains : (m.setInput p colors timeout component).Sustains (.clearInput p) := by
      intro _ _
      refine ⟨m.currentPriority, fun h => ?_, ?_⟩
      · rw [CurrentActive, h, inactive] at hactive
        exact Bool.false_ne_true hactive
      · simp [setInput, SortedMap.contains_insert, show m.activeInputs.contains
          m.currentPriority = true from hactive]
    obtain ⟨t, cleared, _⟩ := (clearInput_currentActive_iff
      (setInput_currentActive hactive p colors timeout component) p).mpr sustains
    obtain ⟨hinputs, hinfo, hcurrent, _⟩ :=
      setInput_clearInput_below colors timeout component wf hp inactive cleared
    rw [cleared]
    rcases t with ⟨current, inputs, info⟩
    simp only at hinputs hinfo hcurrent
    rw [hinputs, hinfo, hcurrent hactive]

theorem setCurrentTime_congr {m n : PriorityMuxer} (inputs : m.activeInputs = n.activeInputs)
    (info : m.lowestPriorityInfo = n.lowestPriorityInfo) (now : Int) :
    m.setCurrentTime now = n.setCurrentTime now := by
  simp only [setCurrentTime_eq, inputs, info]

theorem setCurrentTime_setCurrentTime_eq_self {m : PriorityMuxer} (wf : m.WellFormed) {t₁ t₂ : Int}
    (h : (m.setCurrentTime t₁).setCurrentTime t₂ = m) : m.setCurrentTime t₁ = m := by
  refine (wf.setCurrentTime_eq_self_iff t₁).mpr ⟨fun k info hk => ?_, ?_⟩
  · rw [← h, setCurrentTime_find?, Option.filter_eq_some_iff, setCurrentTime_find?,
      Option.filter_eq_some_iff] at hk
    simpa using hk.1.2
  · have bound := ((wf.setCurrentTime t₁).setCurrentTime_isLeast t₂).2 (Or.inl rfl)
    rwa [h] at bound

end PriorityMuxer

namespace Hyperion

/-- `h` with the channel `p` set in its muxer. -/
def withInput (h : Hyperion) (p : Int) (colors : List ColorRgb) (timeout : Int)
    (component : Components) : Hyperion :=
  { h with muxer := h.muxer.setInput p colors timeout component }

/-- The updates a `clear` of channel `p` runs find nothing to change: no
channel has expired, and the current priority is not above the fallback. -/
def UpdatesQuietly (h : Hyperion) (p : Int) (clock : Nat → Int) : Prop :=
  (h.sourceAutoSelectEnabled = false ∧ h.currentSourcePriority = p →
    h.muxer.Unexpired (clock 0) ∧ h.muxer.currentPriority ≤ PriorityMuxer.lowestPriority) ∧
  (p < h.muxer.currentPriority →
    h.muxer.Unexpired (clock 2) ∧ h.muxer.currentPriority ≤ PriorityMuxer.lowestPriority)

theorem clear_withInput_below_iff {h t : Hyperion} (wf : h.muxer.WellFormed) {p : Int}
    (hp : p < PriorityMuxer.lowestPriority) (inactive : h.muxer.activeInputs.contains p = false)
    (colors : List ColorRgb) (timeout : Int) (component : Components) {clock : Nat → Int}
    (ok : (h.withInput p colors timeout component).clear p clock = .ok t) :
    t.muxer = h.muxer ↔ h.UpdatesQuietly p clock := by
  have has : (h.withInput p colors timeout component).muxer.hasPriority p = true := by
    simp [PriorityMuxer.hasPriority, withInput, PriorityMuxer.setInput, SortedMap.contains_insert]
  obtain ⟨m, cleared, u, hu, ht⟩ := clear_ok_muxer has ok
  obtain ⟨hinputs, hinfo, hcurrent, hlost⟩ :=
    PriorityMuxer.setInput_clearInput_below colors timeout component wf hp inactive cleared
  have pass := PriorityMuxer.setCurrentTime_congr hinputs hinfo
  have same : h.muxer.CurrentActive → m = h.muxer := by
    intro hactive
    rcases m with ⟨current, inputs, info⟩
    simp only at hinputs hinfo hcurrent
    rw [hinputs, hinfo, hcurrent hactive]
  change u = (if h.sourceAutoSelectEnabled = false ∧ h.currentSourcePriority = p then _
    else _) at hu
  simp only [UpdatesQuietly, ← wf.setCurrentTime_eq_self_iff]
  by_cases hselected : h.sourceAutoSelectEnabled = false ∧ h.currentSourcePriority = p
  · rw [if_pos hselected, pass] at hu
    rw [ht, hu]
    simp only [hselected, and_self, forall_const]
    constructor
    · intro restored
      have first : h.muxer.setCurrentTime (clock 0) = h.muxer := by
        split_ifs at restored
        · exact PriorityMuxer.setCurrentTime_setCurrentTime_eq_self wf restored
        · exact restored
      refine ⟨first, fun habove => ?_⟩
      rw [first, if_pos habove] at restored
      exact restored
    · rintro ⟨first, second⟩
      rw [first]
      split_ifs with habove
      · exact second habove
      · rfl
  · rw [if_neg hselected] at hu
    rw [ht, hu]
    simp only [hselected, false_imp_iff, true_and]
    by_cases hactive : h.muxer.CurrentActive
    · rw [same hactive]
      split_ifs with habove
      · exact ⟨fun h _ => h, fun h => h habove⟩
      · exact ⟨fun _ h => absurd h habove, fun _ => rfl⟩
    · obtain ⟨habove, habove', _⟩ := hlost hactive
      rw [if_pos habove', pass]
      exact ⟨fun h _ => h, fun h => h habove⟩

theorem clear_withInput_above {h t : Hyperion} {p : Int}
    (hp : PriorityMuxer.lowestPriority < p) (inactive : h.muxer.activeInputs.contains p = false)
    (colors : List ColorRgb) (timeout : Int) (component : Components) {clock : Nat → Int}
    (live : ∀ i, InputInfo.expired ⟨p, timeout, colors, component⟩ (clock i) = false)
    (ok : (h.withInput p colors timeout component).clear p clock = .ok t) :
    t.muxer ≠ h.muxer := by
  have has : (h.withInput p colors timeout component).muxer.hasPriority p = true := by
    simp [PriorityMuxer.hasPriority, withInput, PriorityMuxer.setInput, SortedMap.contains_insert]
  obtain ⟨m, cleared, u, hu, ht⟩ := clear_ok_muxer has ok
  have inM : m.activeInputs.find? p = some ⟨p, timeout, colors, component⟩ := by
    rw [PriorityMuxer.clearInput_find? cleared, if_neg (fun h => by omega), withInput,
      PriorityMuxer.setInput_find?, if_pos rfl]
  have inU : u.activeInputs.find? p = some ⟨p, timeout, colors, component⟩ := by
    rw [hu]
    split_ifs
    · rw [PriorityMuxer.setCurrentTime_find?, inM]
      simp [live 0]
    · exact inM
  have inT : t.muxer.activeInputs.find? p = some ⟨p, timeout, colors, component⟩ := by
    rw [ht]
    split_ifs
    · rw [PriorityMuxer.setCurrentTime_find?, inU]
      simp [live 2]
    · exact inU
  intro same
  rw [same] at inT
  simp [SortedMap.contains, inT] at inactive

/-- On the muxer a clear undoes the set of an inactive channel exactly below
the fallback and while the current priority is active. Through the core it
does so exactly below the fallback and where the updates it runs find nothing
to change; above the fallback the channel stays. -/
theorem set_clear_restores_iff {ledCount : Nat} {ops : List PriorityMuxer.Op} {m : PriorityMuxer}
    (run : Reaches PriorityMuxer.step (PriorityMuxer.new ledCount) ops m) {p : Int}
    (notFallback : p ≠ PriorityMuxer.lowestPriority) (inactive : m.activeInputs.contains p = false)
    (colors : List ColorRgb) (timeout : Int) (component : Components) :
    ((m.setInput p colors timeout component).clearInput p = .ok m ↔
      p < PriorityMuxer.lowestPriority ∧ m.CurrentActive) ∧
    ∀ h : Hyperion, h.muxer = m → ∀ clock t,
      (h.withInput p colors timeout component).clear p clock = .ok t →
      (p < PriorityMuxer.lowestPriority → (t.muxer = h.muxer ↔ h.UpdatesQuietly p clock)) ∧
      (PriorityMuxer.lowestPriority ≤ p →
        (∀ i, InputInfo.expired ⟨p, timeout, colors, component⟩ (clock i) = false) →
        t.muxer ≠ h.muxer) := by
  refine ⟨PriorityMuxer.setInput_clearInput_iff colors timeout component
    (PriorityMuxer.reachable_wellFormed run) inactive, ?_⟩
  rintro h rfl clock t ok
  refine ⟨fun hp => ?_, fun hp live => ?_⟩
  · exact clear_withInput_below_iff (PriorityMuxer.reachable_wellFormed run) hp inactive colors
      timeout component ok
  · exact clear_withInput_above (lt_of_le_of_ne hp notFallback.symm) inactive colors timeout
      component live ok

theorem set_clear_restores_below :
    ((PriorityMuxer.new 1).setInput 5 [⟨9, 9, 9⟩] (-1) .color).clearInput 5 =
      .ok (PriorityMuxer.new 1) :=
  (set_clear_restores_iff (reaches_nil.mpr rfl : Reaches PriorityMuxer.step _ [] _) (by decide)
    (by decide) [⟨9, 9, 9⟩] (-1) .color).1.mpr ⟨by decide, PriorityMuxer.new_currentActive 1⟩

/-- At the UDP listener's own default priority the clear leaves the channel,
in the muxer and through the core. -/
theorem udpListener_default_not_cleared :
    ((PriorityMuxer.new 1).setInput (DaemonSource.udpListener.priority none) [⟨9, 9, 9⟩] (-1)
      .udplistener).clearInput (DaemonSource.udpListener.priority none) ≠
        .ok (PriorityMuxer.new 1) ∧
    ∃ h₀ : Hyperion, new .stable (.ofLeds [{ index := 0 }]) 0 0 0 = .ok h₀ ∧
      h₀.muxer = PriorityMuxer.new 1 ∧
      ∃ t, (h₀.withInput (DaemonSource.udpListener.priority none) [⟨9, 9, 9⟩] (-1)
        .udplistener).clear (DaemonSource.udpListener.priority none) (fun _ => 0) = .ok t ∧
        t.muxer ≠ h₀.muxer := by
  refine ⟨by decide, ?_⟩
  have checked : evaluates stepCaught (new .stable (.ofLeds [{ index := 0 }]) 0 0 0) []
      (fun h => decide (h.muxer = PriorityMuxer.new 1) &&
        returnsWith ((h.withInput (DaemonSource.udpListener.priority none) [⟨9, 9, 9⟩] (-1)
          .udplistener).clear (DaemonSource.udpListener.priority none) (fun _ => 0))
          fun t => decide (t.muxer ≠ h.muxer)) = true := by decide +kernel
  obtain ⟨h₀, _, constructed, same, passes⟩ := exists_of_evaluates checked
  obtain rfl := reaches_nil.mp same
  obtain ⟨fresh, left⟩ := Bool.and_eq_true_iff.mp passes
  obtain ⟨t, cleared, kept⟩ := exists_of_returnsWith left
  exact ⟨h₀, constructed, of_decide_eq_true fresh, t, cleared, of_decide_eq_true kept⟩

end Hyperion

end HyperionNg
