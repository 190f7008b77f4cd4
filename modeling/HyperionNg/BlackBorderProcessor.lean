import HyperionNg.BlackBorderDetector

/-! The black-border processor: the border of each frame, and the counters that
decide when a border that keeps being detected becomes the current one. -/

namespace HyperionNg

open Library

/-- The `blackborderdetector` object of the configuration, with the defaults
of `toBool`, `toInt` and `toDouble`. The counts come out of `toInt`. -/
structure BlackBorderConfig where
  enable : Bool := true
  unknownFrameCnt : Nat := 600
  borderFrameCnt : Nat := 50
  maxInconsistentCnt : Nat := 10
  blurRemoveCnt : Nat := 1
  blurRemoveCnt_lt : blurRemoveCnt < 2 ^ 31 := by decide
  mode : DetectionMode := .default
  threshold : ℚ := 1 / 100

structure BlackBorderProcessor where
  enabled : Bool
  unknownSwitchCnt : Nat
  borderSwitchCnt : Nat
  maxInconsistentCnt : Nat
  blurRemoveCnt : Nat
  detectionMode : DetectionMode
  detector : BlackBorderDetector
  currentBorder : BlackBorder
  previousDetectedBorder : BlackBorder
  consistentCnt : Nat
  inconsistentCnt : Nat

namespace BlackBorder

def addBlurTo (blurRemoveCnt : Nat) (size : Int) : Int :=
  if 0 < size then signed (size + blurRemoveCnt) else size

def addBlur (border : BlackBorder) (blurRemoveCnt : Nat) : BlackBorder :=
  { border with
    horizontalSize := addBlurTo blurRemoveCnt border.horizontalSize
    verticalSize := addBlurTo blurRemoveCnt border.verticalSize }

@[simp] theorem addBlur_unknown (border : BlackBorder) (blurRemoveCnt : Nat) :
    (border.addBlur blurRemoveCnt).unknown = border.unknown := rfl

end BlackBorder

namespace BlackBorderProcessor

def create (config : BlackBorderConfig) : BlackBorderProcessor where
  enabled := config.enable
  unknownSwitchCnt := config.unknownFrameCnt
  borderSwitchCnt := config.borderFrameCnt
  maxInconsistentCnt := config.maxInconsistentCnt
  blurRemoveCnt := config.blurRemoveCnt
  detectionMode := config.mode
  detector := .create config.threshold
  currentBorder := ⟨true, -1, -1⟩
  previousDetectedBorder := ⟨true, -1, -1⟩
  consistentCnt := 0
  inconsistentCnt := 10

def setEnabled (p : BlackBorderProcessor) (enable : Bool) : BlackBorderProcessor :=
  { p with enabled := enable }

/-- The second half of `updateBorder`: check if there is a change. -/
def checkChange (p : BlackBorderProcessor) (newDetectedBorder : BlackBorder) :
    Bool × BlackBorderProcessor :=
  if p.currentBorder == newDetectedBorder then (false, { p with inconsistentCnt := 0 })
  else if newDetectedBorder.unknown then
    if p.consistentCnt = p.unknownSwitchCnt then
      (true, { p with currentBorder := newDetectedBorder })
    else (false, p)
  else
    if p.currentBorder.unknown ∨ p.consistentCnt = p.borderSwitchCnt then
      (true, { p with currentBorder := newDetectedBorder })
    else (false, p)

def updateBorder (p : BlackBorderProcessor) (newDetectedBorder : BlackBorder) :
    Bool × BlackBorderProcessor :=
  if newDetectedBorder == p.previousDetectedBorder then
    checkChange { p with consistentCnt := p.consistentCnt + 1, inconsistentCnt := 0 }
      newDetectedBorder
  else if p.inconsistentCnt + 1 ≤ p.maxInconsistentCnt then
    (false, { p with inconsistentCnt := p.inconsistentCnt + 1 })
  else
    checkChange { p with
      inconsistentCnt := p.inconsistentCnt + 1
      previousDetectedBorder := newDetectedBorder
      consistentCnt := 0 } newDetectedBorder

variable {α : Type} [Pixel α]

def imageBorder (p : BlackBorderProcessor) (image : Image α) : Except ImageFault BlackBorder :=
  (p.detector.detect image p.detectionMode).map (BlackBorder.addBlur · p.blurRemoveCnt)

def process (p : BlackBorderProcessor) (image : Image α) :
    Except ImageFault (Bool × BlackBorderProcessor) :=
  if p.enabled then (p.imageBorder image).map p.updateBorder
  else .ok (true, { p with currentBorder := ⟨true, 0, 0⟩ })

/-! What one call of `updateBorder` can do. -/

def Considers (p : BlackBorderProcessor) (b : BlackBorder) : Prop :=
  (b == p.previousDetectedBorder) = true ∨ p.maxInconsistentCnt ≤ p.inconsistentCnt

/-- `_consistentCnt` once the border has passed the check. -/
def consistentAfter (p : BlackBorderProcessor) (b : BlackBorder) : Nat :=
  if b == p.previousDetectedBorder then p.consistentCnt + 1 else 0

def switchCnt (p : BlackBorderProcessor) (b : BlackBorder) : Nat :=
  if b.unknown then p.unknownSwitchCnt else p.borderSwitchCnt

def Reached (p : BlackBorderProcessor) (b : BlackBorder) (count : Nat) : Prop :=
  (b.unknown = false ∧ p.currentBorder.unknown = true) ∨ count = p.switchCnt b

instance (p : BlackBorderProcessor) (b : BlackBorder) (count : Nat) :
    Decidable (p.Reached b count) := inferInstanceAs (Decidable (_ ∨ _))

def SwitchDue (p : BlackBorderProcessor) (b : BlackBorder) : Prop :=
  p.Considers b ∧ (p.currentBorder == b) = false ∧ p.Reached b (p.consistentAfter b)

private theorem checkChange_same {p : BlackBorderProcessor} {b : BlackBorder}
    (same : (p.currentBorder == b) = true) :
    p.checkChange b = (false, { p with inconsistentCnt := 0 }) := by
  simp [checkChange, same]

theorem checkChange_reached {p : BlackBorderProcessor} {b : BlackBorder}
    (differs : (p.currentBorder == b) = false) (reached : p.Reached b p.consistentCnt) :
    p.checkChange b = (true, { p with currentBorder := b }) := by
  cases unknown : b.unknown with
  | true =>
    have count : p.consistentCnt = p.unknownSwitchCnt := by
      simpa [Reached, unknown, switchCnt] using reached
    simp [checkChange, differs, unknown, count]
  | false =>
    have known : p.currentBorder.unknown = true ∨ p.consistentCnt = p.borderSwitchCnt := by
      simpa [Reached, unknown, switchCnt] using reached
    simp [checkChange, differs, unknown, known]

theorem checkChange_waiting {p : BlackBorderProcessor} {b : BlackBorder}
    (differs : (p.currentBorder == b) = false) (waiting : ¬ p.Reached b p.consistentCnt) :
    p.checkChange b = (false, p) := by
  cases unknown : b.unknown with
  | true =>
    have count : ¬ p.consistentCnt = p.unknownSwitchCnt := by
      simpa [Reached, unknown, switchCnt] using waiting
    simp [checkChange, differs, unknown, count]
  | false =>
    have count : ¬ (p.currentBorder.unknown = true ∨ p.consistentCnt = p.borderSwitchCnt) := by
      simpa [Reached, unknown, switchCnt] using waiting
    simp [checkChange, differs, unknown, count]

def consider (p : BlackBorderProcessor) (b : BlackBorder) : BlackBorderProcessor :=
  if b == p.previousDetectedBorder then
    { p with consistentCnt := p.consistentCnt + 1, inconsistentCnt := 0 }
  else
    { p with
      inconsistentCnt := p.inconsistentCnt + 1
      previousDetectedBorder := b
      consistentCnt := 0 }

private theorem checkChange_frame (p : BlackBorderProcessor) (b : BlackBorder) :
    ∃ current inconsistent, (p.checkChange b).2 =
      { p with currentBorder := current, inconsistentCnt := inconsistent } := by
  unfold checkChange
  split_ifs <;> exact ⟨_, _, rfl⟩

theorem updateBorder_frame (p : BlackBorderProcessor) (b : BlackBorder) :
    ∃ current previous consistent inconsistent, (p.updateBorder b).2 =
      { p with
        currentBorder := current
        previousDetectedBorder := previous
        consistentCnt := consistent
        inconsistentCnt := inconsistent } := by
  unfold updateBorder
  split_ifs
  · obtain ⟨current, inconsistent, changed⟩ := checkChange_frame
      { p with consistentCnt := p.consistentCnt + 1, inconsistentCnt := 0 } b
    exact ⟨current, _, _, inconsistent, changed⟩
  · exact ⟨_, _, _, _, rfl⟩
  · obtain ⟨current, inconsistent, changed⟩ := checkChange_frame
      { p with inconsistentCnt := p.inconsistentCnt + 1, previousDetectedBorder := b
               consistentCnt := 0 } b
    exact ⟨current, _, _, inconsistent, changed⟩

theorem updateBorder_ignores {p : BlackBorderProcessor} {b : BlackBorder}
    (ignored : ¬ p.Considers b) :
    p.updateBorder b = (false, { p with inconsistentCnt := p.inconsistentCnt + 1 }) := by
  have differs : (b == p.previousDetectedBorder) = false := by
    simpa using fun same => ignored (Or.inl same)
  have few : p.inconsistentCnt + 1 ≤ p.maxInconsistentCnt := by
    have more := mt Or.inr ignored
    omega
  simp [updateBorder, differs, few]

theorem updateBorder_considers {p : BlackBorderProcessor} {b : BlackBorder}
    (considered : p.Considers b) : p.updateBorder b = (p.consider b).checkChange b := by
  by_cases same : (b == p.previousDetectedBorder) = true
  · simp [updateBorder, consider, same]
  · have many : ¬ (p.inconsistentCnt + 1 ≤ p.maxInconsistentCnt) := by
      have enough := considered.resolve_left same
      omega
    simp [updateBorder, consider, same, many]

section consider

variable (p : BlackBorderProcessor) (b : BlackBorder)

@[simp] theorem consider_currentBorder : (p.consider b).currentBorder = p.currentBorder := by
  unfold consider
  split_ifs <;> rfl

@[simp] theorem consider_consistentCnt : (p.consider b).consistentCnt = p.consistentAfter b := by
  unfold consider consistentAfter
  split_ifs <;> rfl

@[simp] theorem consider_maxInconsistentCnt :
    (p.consider b).maxInconsistentCnt = p.maxInconsistentCnt := by
  unfold consider
  split_ifs <;> rfl

@[simp] theorem consider_switchCnt (c : BlackBorder) :
    (p.consider b).switchCnt c = p.switchCnt c := by
  unfold consider
  split_ifs <;> rfl

private theorem consider_reached (c : BlackBorder) (count : Nat) :
    (p.consider b).Reached c count ↔ p.Reached c count := by
  simp [Reached]

theorem consider_previous : ((p.consider b).previousDetectedBorder == b) = true := by
  unfold consider
  split_ifs with same
  · exact BEq.symm same
  · exact BEq.rfl

end consider

theorem updateBorder_keeps {p : BlackBorderProcessor} {b : BlackBorder}
    (considered : p.Considers b) (same : (p.currentBorder == b) = true) :
    p.updateBorder b = (false, { p.consider b with inconsistentCnt := 0 }) := by
  rw [updateBorder_considers considered]
  exact checkChange_same (by simpa using same)

theorem updateBorder_switches {p : BlackBorderProcessor} {b : BlackBorder} (due : p.SwitchDue b) :
    p.updateBorder b = (true, { p.consider b with currentBorder := b }) := by
  obtain ⟨considered, differs, reached⟩ := due
  rw [updateBorder_considers considered]
  exact checkChange_reached (by simpa using differs)
    ((consider_reached p b b _).mpr (by simpa using reached))

theorem updateBorder_waits {p : BlackBorderProcessor} {b : BlackBorder}
    (considered : p.Considers b) (differs : (p.currentBorder == b) = false)
    (waiting : ¬ p.Reached b (p.consistentAfter b)) :
    p.updateBorder b = (false, p.consider b) := by
  rw [updateBorder_considers considered]
  exact checkChange_waiting (by simpa using differs)
    (mt (consider_reached p b b _).mp (by simpa using waiting))

theorem updateBorder_of_not_due {p : BlackBorderProcessor} {b : BlackBorder}
    (early : ¬ p.SwitchDue b) :
    (p.updateBorder b).1 = false ∧ (p.updateBorder b).2.currentBorder = p.currentBorder := by
  by_cases considered : p.Considers b
  · cases same : p.currentBorder == b with
    | true =>
      rw [updateBorder_keeps considered same]
      exact ⟨rfl, consider_currentBorder p b⟩
    | false =>
      have waiting : ¬ p.Reached b (p.consistentAfter b) := fun reached =>
        early ⟨considered, same, reached⟩
      rw [updateBorder_waits considered same waiting]
      exact ⟨rfl, consider_currentBorder p b⟩
  · rw [updateBorder_ignores considered]
    exact ⟨rfl, rfl⟩

theorem updateBorder_returns_iff {p : BlackBorderProcessor} {b : BlackBorder} :
    (p.updateBorder b).1 = true ↔ p.SwitchDue b := by
  constructor
  · intro updated
    by_contra early
    rw [(updateBorder_of_not_due early).1] at updated
    exact absurd updated (by decide)
  · intro due
    rw [updateBorder_switches due]

end BlackBorderProcessor

end HyperionNg
