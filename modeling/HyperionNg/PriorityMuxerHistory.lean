import HyperionNg.PriorityMuxerInvariant

/-! The muxer against its history. The reference model has no state of its
own: a channel is live when some call set it and no later call ended it, and
the black fallback entry is always live. -/

namespace HyperionNg.PriorityMuxer

open Library Library.Execution

/-- The calls that end an entry of channel `p` with the given timeout. -/
def Op.Ends (p timeout : Int) : Op → Prop
  | .setInput q _ _ _ => q = p
  | .clearInput q => q = p
  | .clearAll => True
  | .setCurrentTime now => timeout ≠ -1 ∧ timeout ≤ now

/-- `info` was given to channel `p`, and no call since then ended it. -/
def SetSince (history : List Op) (p : Int) (info : InputInfo) : Prop :=
  ∃ before colors timeout component after,
    history = before ++ .setInput p colors timeout component :: after ∧
    info = ⟨p, timeout, colors, component⟩ ∧ ∀ op ∈ after, ¬ op.Ends p timeout

def black (ledCount : Nat) : InputInfo :=
  ⟨lowestPriority, -1, List.replicate ledCount .black, .invalid⟩

def Live (ledCount : Nat) (history : List Op) (p : Int) (info : InputInfo) : Prop :=
  (p = lowestPriority ∧ info = black ledCount) ∨ SetSince history p info

def Op.Below : Op → Prop
  | .setInput p _ _ _ => p < lowestPriority
  | _ => True

private theorem not_setSince_nil (p : Int) (info : InputInfo) : ¬ SetSince [] p info := by
  rintro ⟨before, _, _, _, after, h, _⟩
  simp at h

theorem setSince_concat (history : List Op) (op : Op) (p : Int) (info : InputInfo) :
    SetSince (history ++ [op]) p info ↔
      (∃ colors timeout component, op = .setInput p colors timeout component ∧
        info = ⟨p, timeout, colors, component⟩) ∨
      (SetSince history p info ∧ ¬ op.Ends p info.timeoutTimeMs) := by
  constructor
  · rintro ⟨before, colors, timeout, component, after, hsplit, rfl, lasts⟩
    rcases List.eq_nil_or_concat after with rfl | ⟨earlier, last, rfl⟩
    · have hop := List.append_inj_right' hsplit rfl
      exact Or.inl ⟨colors, timeout, component, by simpa using hop, rfl⟩
    · rw [List.concat_eq_append, ← List.cons_append, ← List.append_assoc] at hsplit
      obtain ⟨rfl, hop⟩ := List.append_inj' hsplit rfl
      obtain rfl : op = last := by simpa using hop
      refine Or.inr ⟨⟨before, colors, timeout, component, earlier, rfl, rfl, ?_⟩, ?_⟩
      · exact fun other hother => lasts other (by simp [hother])
      · exact lasts op (by simp)
  · rintro (⟨colors, timeout, component, rfl, rfl⟩ |
      ⟨⟨before, colors, timeout, component, after, rfl, rfl, lasts⟩, hop⟩)
    · exact ⟨history, colors, timeout, component, [], rfl, rfl, by simp⟩
    · refine ⟨before, colors, timeout, component, after ++ [op], by simp, rfl, ?_⟩
      intro other hother
      rcases List.mem_append.mp hother with hold | hnew
      · exact lasts other hold
      · rwa [List.mem_singleton.mp hnew]

private theorem setSince_below {history : List Op} (below : ∀ op ∈ history, op.Below)
    {p : Int} {info : InputInfo} (h : SetSince history p info) : p < lowestPriority := by
  obtain ⟨before, colors, timeout, component, after, rfl, _⟩ := h
  exact below (.setInput p colors timeout component) (by simp)

theorem find?_step {ledCount : Nat} {history : List Op} {m t : PriorityMuxer} {op : Op}
    (below : ∀ op ∈ history, op.Below) (belowOp : op.Below)
    (restored : m.lowestPriorityInfo = black ledCount)
    (shows : ∀ p info, m.activeInputs.find? p = some info ↔ Live ledCount history p info)
    (h : m.step op = .ok t) (p : Int) (info : InputInfo) :
    t.activeInputs.find? p = some info ↔ Live ledCount (history ++ [op]) p info := by
  rw [Live, setSince_concat]
  cases op with
  | setInput q colors timeout component =>
    obtain rfl := Except.ok.inj h
    have hq : q < lowestPriority := belowOp
    rw [setInput_find?]
    split_ifs with hp
    · subst hp
      have hne : p ≠ lowestPriority := ne_of_lt hq
      simp [hne, Op.Ends, eq_comm]
    · have hpq : ¬ q = p := fun hqp => hp hqp.symm
      simp [shows, Live, Op.Ends, hpq]
  | clearInput q =>
    rw [clearInput_find? h]
    by_cases hp : p = q
    · subst hp
      by_cases hlow : p < lowestPriority
      · simp [hlow, Op.Ends, ne_of_lt hlow]
      · have hset : ¬ SetSince history p info := fun hs => hlow (setSince_below below hs)
        simp [hlow, shows, Live, hset]
    · have hqp : ¬ q = p := fun hqp => hp hqp.symm
      simp [hp, hqp, shows, Live, Op.Ends]
  | clearAll =>
    obtain rfl := Except.ok.inj h
    rw [clearAll_find?, restored]
    split_ifs with hp <;> simp [hp, Op.Ends, eq_comm]
  | setCurrentTime now =>
    obtain rfl := Except.ok.inj h
    rw [setCurrentTime_find?, Option.filter_eq_some_iff, shows, Live]
    have hexp : (!info.expired now) = true ↔
        ¬ (info.timeoutTimeMs ≠ -1 ∧ info.timeoutTimeMs ≤ now) := by
      simp [InputInfo.expired, or_iff_not_imp_left]
    rw [hexp]
    constructor
    · rintro ⟨hblack | hset, hlasts⟩
      · exact Or.inl hblack
      · exact Or.inr (Or.inr ⟨hset, hlasts⟩)
    · rintro (⟨rfl, rfl⟩ | ⟨_, _, _, hop, _⟩ | ⟨hset, hlasts⟩)
      · exact ⟨Or.inl ⟨rfl, rfl⟩, fun ends => ends.1 rfl⟩
      · exact Op.noConfusion hop
      · exact ⟨Or.inr hset, hlasts⟩

theorem FallbackKept.currentActive {m : PriorityMuxer} (kept : m.FallbackKept)
    (wf : m.WellFormed) : m.CurrentActive := by
  rcases wf.cached with h | h
  · exact h
  · obtain ⟨info, hinfo, _⟩ := kept.active
    rw [CurrentActive, h]
    exact contains_of_find? hinfo

theorem Op.Below.keepsFallback {op : Op} (below : op.Below) : op.KeepsFallback := by
  cases op with
  | setInput p colors timeout component => exact fun hp => absurd hp (ne_of_lt below)
  | clearInput p => trivial
  | clearAll => trivial
  | setCurrentTime now => trivial

theorem exists_shows (ledCount : Nat) (history : List Op) (below : ∀ op ∈ history, op.Below) :
    ∃ m, Reaches step (new ledCount) history m ∧ m.WellFormed ∧ m.FallbackKept ∧
      m.lowestPriorityInfo = black ledCount ∧
      ∀ p info, m.activeInputs.find? p = some info ↔ Live ledCount history p info := by
  induction history using List.reverseRecOn with
  | nil =>
    refine ⟨new ledCount, reaches_nil.mpr rfl, new_wellFormed ledCount, new_fallbackKept ledCount,
      rfl, fun p info => ?_⟩
    simp only [new_find?, Live, not_setSince_nil, or_false]
    split_ifs with hp
    · simp [hp, black, new, eq_comm]
    · simp [hp]
  | append_singleton history op ih =>
    have belowHistory : ∀ op ∈ history, op.Below := fun o ho => below o (by simp [ho])
    have belowOp : op.Below := below op (by simp)
    obtain ⟨m, hrun, wf, kept, restored, shows⟩ := ih belowHistory
    obtain ⟨t, ht, _⟩ :=
      (step_currentActive_iff wf (kept.currentActive wf) op).mp (kept.sustains op)
    exact ⟨t, reaches_concat.mpr ⟨m, hrun, ht⟩, wf.step ht, kept.step belowOp.keepsFallback ht,
      (step_lowestPriorityInfo ht).trans restored,
        find?_step belowHistory belowOp restored shows ht⟩

/-- The muxer refines the history model: its channels are the live entries,
its current priority the least live channel. An expiry pass removes exactly
the expired channels, and a later pass subsumes an earlier one. -/
theorem refines_history (ledCount : Nat) (history : List Op) (below : ∀ op ∈ history, op.Below) :
    ∃ m, Reaches step (new ledCount) history m ∧
      (∀ p info, m.activeInputs.find? p = some info ↔ Live ledCount history p info) ∧
      IsLeast {p | ∃ info, Live ledCount history p info} m.currentPriority ∧
      (∀ now p info, (m.setCurrentTime now).activeInputs.find? p = some info ↔
        m.activeInputs.find? p = some info ∧ info.expired now = false) ∧
      ∀ t₁ t₂, t₁ ≤ t₂ → (m.setCurrentTime t₁).setCurrentTime t₂ = m.setCurrentTime t₂ := by
  obtain ⟨m, hrun, wf, kept, _, shows⟩ := exists_shows ledCount history below
  refine ⟨m, hrun, shows, ?_, ?_, fun t₁ t₂ h => setCurrentTime_setCurrentTime m h⟩
  · have live : ∀ p, (∃ info, Live ledCount history p info) ↔ m.activeInputs.contains p = true := by
      intro p
      simp only [← shows, SortedMap.contains, Option.isSome_iff_exists]
    simp only [live]
    exact ⟨kept.currentActive wf, wf.least⟩
  · intro now p info
    rw [setCurrentTime_find?, Option.filter_eq_some_iff, Bool.not_eq_true']

theorem refines_history_run :
    ∃ m, Reaches step (new 1)
        [.setInput 10 [⟨1, 2, 3⟩] 500 .color, .setInput 20 [⟨4, 5, 6⟩] (-1) .effect,
          .setCurrentTime 500, .clearInput 20] m ∧ m.currentPriority = 255 := by
  obtain ⟨m, hrun, _⟩ := refines_history 1
    [.setInput 10 [⟨1, 2, 3⟩] 500 .color, .setInput 20 [⟨4, 5, 6⟩] (-1) .effect,
      .setCurrentTime 500, .clearInput 20]
    (by simp [Op.Below, lowestPriority])
  refine ⟨m, hrun, ?_⟩
  have hm := Except.ok.inj hrun
  exact hm ▸ (by decide)

end HyperionNg.PriorityMuxer
