import HyperionNg.Types
import HyperionNg.Library.SortedMap
import HyperionNg.Library.Execution

/-! The priority muxer: one `InputInfo` for each priority channel, and the
current priority cached beside the map. Priorities and times are only compared
and stored, so `int` and `int64_t` are integers here. -/

namespace HyperionNg

open Library

structure InputInfo where
  priority : Int
  timeoutTimeMs : Int
  ledColors : List ColorRgb
  componentId : Components
deriving DecidableEq

namespace InputInfo

/-- The test of the expiry loop; `-1` stands for no timeout. -/
def expired (info : InputInfo) (now : Int) : Bool :=
  info.timeoutTimeMs ≠ -1 && info.timeoutTimeMs ≤ now

private theorem expired_mono {info : InputInfo} {t₁ t₂ : Int} (h : t₁ ≤ t₂)
    (expired : info.expired t₁ = true) : info.expired t₂ = true := by
  simp only [InputInfo.expired, Bool.and_eq_true, decide_eq_true_eq] at *
  exact ⟨expired.1, expired.2.trans h⟩

end InputInfo

structure PriorityMuxer where
  currentPriority : Int
  activeInputs : SortedMap Int InputInfo
  lowestPriorityInfo : InputInfo
deriving DecidableEq

namespace PriorityMuxer

/-- `LOWEST_PRIORITY`, the greatest `uint8_t`. -/
def lowestPriority : Int := 255

def new (ledCount : Nat) : PriorityMuxer :=
  let lowestPriorityInfo : InputInfo :=
    ⟨lowestPriority, -1, List.replicate ledCount .black, .invalid⟩
  ⟨lowestPriority, SortedMap.empty.insert lowestPriority lowestPriorityInfo, lowestPriorityInfo⟩

def hasPriority (m : PriorityMuxer) (priority : Int) : Bool :=
  if priority = lowestPriority then true else m.activeInputs.contains priority

def getInputInfo (m : PriorityMuxer) (priority : Int) : Except Fault InputInfo :=
  match m.activeInputs.find? priority with
  | some info => .ok info
  | none => .error .noSuchPriority

def setInput (m : PriorityMuxer) (priority : Int) (ledColors : List ColorRgb)
    (timeoutTimeMs : Int) (component : Components) : PriorityMuxer :=
  { m with
    activeInputs := m.activeInputs.insert priority ⟨priority, timeoutTimeMs, ledColors, component⟩
    currentPriority := min m.currentPriority priority }

/-- `*std::min_element(keys.begin(), keys.end())`: with no keys left the
past-the-end iterator is dereferenced. -/
def leastKey (activeInputs : SortedMap Int InputInfo) : Except Fault Int :=
  match activeInputs.keys.min? with
  | some key => .ok key
  | none => .error .undefinedBehaviour

def clearInput (m : PriorityMuxer) (priority : Int) : Except Fault PriorityMuxer :=
  if priority < lowestPriority then
    let activeInputs := m.activeInputs.erase priority
    if m.currentPriority = priority then
      (leastKey activeInputs).map fun key => { m with activeInputs, currentPriority := key }
    else .ok { m with activeInputs }
  else .ok m

def clearAll (m : PriorityMuxer) : PriorityMuxer :=
  { m with
    currentPriority := lowestPriority
    activeInputs := SortedMap.empty.insert lowestPriority m.lowestPriorityInfo }

def setCurrentTime (m : PriorityMuxer) (now : Int) : PriorityMuxer :=
  let swept := m.activeInputs.sweep (fun e => e.2.expired now)
    (fun current e => min current e.2.priority) lowestPriority
  { m with activeInputs := swept.1, currentPriority := swept.2 }

inductive Op
  | setInput (priority : Int) (ledColors : List ColorRgb) (timeoutTimeMs : Int)
      (component : Components)
  | clearInput (priority : Int)
  | clearAll
  | setCurrentTime (now : Int)
deriving DecidableEq

def step (m : PriorityMuxer) : Op → Except Fault PriorityMuxer
  | .setInput p colors timeout component => .ok (m.setInput p colors timeout component)
  | .clearInput p => m.clearInput p
  | .clearAll => .ok m.clearAll
  | .setCurrentTime now => .ok (m.setCurrentTime now)

@[simp] theorem setInput_find? (m : PriorityMuxer) (p : Int) (colors : List ColorRgb)
    (timeout : Int) (component : Components) (k : Int) :
    (m.setInput p colors timeout component).activeInputs.find? k =
      if k = p then some ⟨p, timeout, colors, component⟩ else m.activeInputs.find? k := by
  simp only [setInput, SortedMap.find?_insert]

@[simp] theorem setInput_lowestPriorityInfo (m : PriorityMuxer) (p : Int)
    (colors : List ColorRgb) (timeout : Int) (component : Components) :
    (m.setInput p colors timeout component).lowestPriorityInfo = m.lowestPriorityInfo := rfl

theorem leastKey_eq_ok_iff (activeInputs : SortedMap Int InputInfo) (k : Int) :
    leastKey activeInputs = .ok k ↔ IsLeast {k | activeInputs.contains k = true} k := by
  have h : leastKey activeInputs = .ok k ↔ activeInputs.keys.min? = some k := by
    unfold leastKey
    cases activeInputs.keys.min? <;> simp
  rw [h, List.min?_eq_some_iff]
  simp only [SortedMap.mem_keys_iff, IsLeast, Set.mem_ofPred_eq, lowerBounds]

theorem exists_leastKey_iff (activeInputs : SortedMap Int InputInfo) :
    (∃ k, leastKey activeInputs = .ok k) ↔ ∃ k, activeInputs.contains k = true := by
  constructor
  · rintro ⟨k, hk⟩
    exact ⟨k, ((leastKey_eq_ok_iff _ _).mp hk).1⟩
  · rintro ⟨k, hk⟩
    unfold leastKey
    cases hmin : activeInputs.keys.min? with
    | some least => exact ⟨least, rfl⟩
    | none =>
      have hnil := List.min?_eq_none_iff.mp hmin
      simp [← SortedMap.mem_keys_iff, hnil] at hk

theorem clearInput_cases {m t : PriorityMuxer} {p : Int} (h : m.clearInput p = .ok t) :
    (lowestPriority ≤ p ∧ t = m) ∨
    (p < lowestPriority ∧ m.currentPriority ≠ p ∧
      t = { m with activeInputs := m.activeInputs.erase p }) ∨
    (p < lowestPriority ∧ m.currentPriority = p ∧
      ∃ k, IsLeast {k | (m.activeInputs.erase p).contains k = true} k ∧
        t = { m with activeInputs := m.activeInputs.erase p, currentPriority := k }) := by
  unfold clearInput at h
  split_ifs at h with hp hcur
  · cases hk : leastKey (m.activeInputs.erase p) with
    | error e => simp [hk, Except.map] at h
    | ok k =>
      refine Or.inr (Or.inr ⟨hp, hcur, k, (leastKey_eq_ok_iff _ _).mp hk, ?_⟩)
      simpa [hk, Except.map] using h.symm
  · exact Or.inr (Or.inl ⟨hp, hcur, (Except.ok.inj h).symm⟩)
  · exact Or.inl ⟨not_lt.mp hp, (Except.ok.inj h).symm⟩

theorem clearInput_find? {m t : PriorityMuxer} {p : Int} (h : m.clearInput p = .ok t) (k : Int) :
    t.activeInputs.find? k =
      if k = p ∧ p < lowestPriority then none else m.activeInputs.find? k := by
  rcases clearInput_cases h with ⟨hp, rfl⟩ | ⟨hp, _, rfl⟩ | ⟨hp, _, _, _, rfl⟩
  · simp [not_lt.mpr hp]
  · simp [SortedMap.find?_erase, hp]
  · simp [SortedMap.find?_erase, hp]

theorem clearInput_lowestPriorityInfo {m t : PriorityMuxer} {p : Int}
    (h : m.clearInput p = .ok t) : t.lowestPriorityInfo = m.lowestPriorityInfo := by
  rcases clearInput_cases h with ⟨_, rfl⟩ | ⟨_, _, rfl⟩ | ⟨_, _, _, _, rfl⟩ <;> rfl

@[simp] theorem clearAll_find? (m : PriorityMuxer) (k : Int) :
    m.clearAll.activeInputs.find? k =
      if k = lowestPriority then some m.lowestPriorityInfo else none := by
  simp only [clearAll, SortedMap.find?_insert, SortedMap.find?_empty]

theorem setCurrentTime_eq (m : PriorityMuxer) (now : Int) :
    m.setCurrentTime now = { m with
      activeInputs := m.activeInputs.filter (fun e => !e.2.expired now)
      currentPriority := (m.activeInputs.filter (fun e => !e.2.expired now)).entries.foldl
        (fun current e => min current e.2.priority) lowestPriority } := by
  simp only [setCurrentTime, SortedMap.sweep_eq]

theorem setCurrentTime_find? (m : PriorityMuxer) (now : Int) (k : Int) :
    (m.setCurrentTime now).activeInputs.find? k =
      (m.activeInputs.find? k).filter (fun info => !info.expired now) := by
  rw [setCurrentTime_eq, SortedMap.find?_filter]

@[simp] theorem setCurrentTime_lowestPriorityInfo (m : PriorityMuxer) (now : Int) :
    (m.setCurrentTime now).lowestPriorityInfo = m.lowestPriorityInfo := by
  rw [setCurrentTime_eq]

theorem step_lowestPriorityInfo {m t : PriorityMuxer} {op : Op} (h : m.step op = .ok t) :
    t.lowestPriorityInfo = m.lowestPriorityInfo := by
  cases op with
  | setInput p colors timeout component => exact Except.ok.inj h ▸ rfl
  | clearInput p => exact clearInput_lowestPriorityInfo h
  | clearAll => exact Except.ok.inj h ▸ rfl
  | setCurrentTime now => exact Except.ok.inj h ▸ setCurrentTime_lowestPriorityInfo m now

theorem setCurrentTime_setCurrentTime (m : PriorityMuxer) {t₁ t₂ : Int} (h : t₁ ≤ t₂) :
    (m.setCurrentTime t₁).setCurrentTime t₂ = m.setCurrentTime t₂ := by
  have hkeep : (m.activeInputs.filter (fun e => !e.2.expired t₁)).filter
      (fun e => !e.2.expired t₂) = m.activeInputs.filter (fun e => !e.2.expired t₂) := by
    rw [SortedMap.filter_filter]
    congr 1
    funext e
    cases h₂ : e.2.expired t₂ with
    | true => simp
    | false =>
      have h₁ : e.2.expired t₁ = false := by
        by_contra h₁
        simp [InputInfo.expired_mono h (by simpa using h₁)] at h₂
      simp [h₁]
  simp only [setCurrentTime_eq, hkeep]

theorem getInputInfo_eq_ok_iff (m : PriorityMuxer) (p : Int) (info : InputInfo) :
    m.getInputInfo p = .ok info ↔ m.activeInputs.find? p = some info := by
  unfold getInputInfo
  cases m.activeInputs.find? p <;> simp

theorem getInputInfo_returns_iff (m : PriorityMuxer) (p : Int) :
    (∃ info, m.getInputInfo p = .ok info) ↔ m.activeInputs.contains p = true := by
  simp only [getInputInfo_eq_ok_iff, SortedMap.contains, Option.isSome_iff_exists]

end PriorityMuxer

end HyperionNg
