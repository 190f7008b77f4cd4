import HyperionNg.LedAdjustments

/-! The ranges `createLedColorsAdjustment` assigns. The expression checks the
form of an index list only: the order of the two ends, the LED count and the
size of the numbers are left to the asserts of `setAdjustmentForLed`. -/

namespace HyperionNg

open Library.Execution QString

/-- The calls of `setAdjustmentForLed` for one entry, in order. -/
def ledCalls (ledCnt : Nat) (leds : List Char) : List (Nat × Nat) :=
  if trimmed leds = ['*'] then [(0, unsigned ((ledCnt : Int) - 1))]
  else if !IndexList.overallExp.rmatch (trimmed leds) then []
  else (IndexList.readItems (trimmed leds)).map fun (startInd, endInd) =>
    (unsigned startInd, unsigned endInd)

namespace MultiColorAdjustment

def setLeds (build : Build) (id : String) (m : MultiColorAdjustment) (call : Nat × Nat) :
    Except AdjustmentFault MultiColorAdjustment :=
  m.setAdjustmentForLed build id call.1 call.2

/-- What the asserts of `setAdjustmentForLed` demand. -/
def InRange (m : MultiColorAdjustment) (call : Nat × Nat) : Prop :=
  call.1 ≤ call.2 ∧ call.2 < m.ledAdjustments.length

theorem assignLeds_eq_calls (build : Build) (ledCnt : Nat) (m : MultiColorAdjustment)
    (id : String) (leds : List Char) :
    m.assignLeds build ledCnt id (trimmed leds) =
      (ledCalls ledCnt leds).foldlM (setLeds build id) m := by
  unfold assignLeds ledCalls
  split_ifs with star malformed
  · rw [List.foldlM_cons]
    exact (bind_pure _).symm
  · rfl
  · rw [List.foldlM_map]
    rfl

theorem setLeds_length {build : Build} {id : String} {m t : MultiColorAdjustment}
    {call : Nat × Nat} (ok : setLeds build id m call = .ok t) :
    t.ledAdjustments.length = m.ledAdjustments.length := by
  unfold setLeds setAdjustmentForLed at ok
  split_ifs at ok
  rw [← Except.ok.inj ok, List.length_mapIdx]

theorem assignLeds_length {build : Build} {ledCnt : Nat} {m t : MultiColorAdjustment}
    {id : String} {leds : List Char}
    (ok : m.assignLeds build ledCnt id (trimmed leds) = .ok t) :
    t.ledAdjustments.length = m.ledAdjustments.length := by
  rw [assignLeds_eq_calls] at ok
  have run : Reaches (setLeds build id) m (ledCalls ledCnt leds) t := ok
  exact run.invariant (I := fun u => u.ledAdjustments.length = m.ledAdjustments.length)
    (fun _ _ _ same step => (setLeds_length step).trans same) rfl

end MultiColorAdjustment

open MultiColorAdjustment

/-- Every call for the entries is in range, and the loop returns. -/
def AssignsInRange (build : Build) (std : StdPow) (ledCnt : Nat)
    (channelAdjustment : List AdjustmentConfig) : Prop :=
  Along (addChannelAdjustment build std ledCnt) (fun m config =>
      Along (setLeds build (config.id.getD "default")) InRange
        (m.addAdjustment (createColorAdjustment std config))
        (ledCalls ledCnt (config.leds.getD [])))
    (.new ledCnt) channelAdjustment ∧
  ∃ m, createLedColorsAdjustment build std ledCnt channelAdjustment = .ok m

/-- The ends of every range are in order and below the LED count, where a
number that does not fit an `int` counts as 0. -/
def RangesFit (ledCnt : Nat) (ranges : List (Nat × Nat)) : Prop :=
  ∀ range ∈ ranges, IndexList.asInt range.1 ≤ IndexList.asInt range.2 ∧
    IndexList.asInt range.2 < ledCnt

/-- What the text of `leds` has to be for its calls to be in range. -/
inductive LedsFit (ledCnt : Nat) (leds : List Char) : Prop
  | all (star : trimmed leds = ['*']) (some : 0 < ledCnt)
  | ranges {ranges : List (Nat × Nat)} (lists : IndexList.Lists (trimmed leds) ranges)
      (fit : RangesFit ledCnt ranges)

def LedsAccepted (leds : List Char) : Prop :=
  trimmed leds = ['*'] ∨ IndexList.overallExp.rmatch (trimmed leds) = true

private theorem ledCalls_of_star {ledCnt : Nat} {leds : List Char} (star : trimmed leds = ['*']) :
    ledCalls ledCnt leds = [(0, unsigned ((ledCnt : Int) - 1))] := if_pos star

theorem not_star_of_lists {leds : List Char} {ranges : List (Nat × Nat)}
    (lists : IndexList.Lists leds ranges) : leds ≠ ['*'] := by
  intro star
  have listed : IndexList.overallExp.rmatch leds = true :=
    (RegularExpression.rmatch_iff_matches' _ _).mpr (IndexList.mem_overallExp.mpr ⟨_, lists⟩)
  rw [star] at listed
  exact absurd listed (by decide)

theorem ledCalls_of_lists {ledCnt : Nat} {leds : List Char} {ranges : List (Nat × Nat)}
    (lists : IndexList.Lists (trimmed leds) ranges) : ledCalls ledCnt leds =
      ranges.map fun range => (IndexList.asInt range.1, IndexList.asInt range.2) := by
  have listed : IndexList.overallExp.rmatch (trimmed leds) = true :=
    (RegularExpression.rmatch_iff_matches' _ _).mpr (IndexList.mem_overallExp.mpr ⟨_, lists⟩)
  have items := IndexList.readItems_asInt lists 0
  rw [List.replicate_zero, List.nil_append] at items
  have value : ∀ n, unsigned (IndexList.asInt n) = IndexList.asInt n := fun n =>
    unsigned_of_lt (lt_trans (IndexList.asInt_lt n) (by decide))
  rw [ledCalls, if_neg (not_star_of_lists lists), listed, Bool.not_true,
    if_neg Bool.false_ne_true, items, List.map_map]
  apply List.map_congr_left
  intro range _
  simp [value]

theorem ledCalls_inRange_iff {ledCnt : Nat} {leds : List Char} (count : ledCnt < 2 ^ 32)
    (accepted : LedsAccepted leds) :
    (∀ call ∈ ledCalls ledCnt leds, call.1 ≤ call.2 ∧ call.2 < ledCnt) ↔
      LedsFit ledCnt leds := by
  rcases accepted with star | listed
  · have last : unsigned ((ledCnt : Int) - 1) < ledCnt ↔ 0 < ledCnt := by
      constructor
      · exact fun below => Nat.zero_lt_of_lt below
      · intro some
        have pred : (ledCnt : Int) - 1 = (ledCnt - 1 : Nat) := by omega
        rw [pred, unsigned_of_lt (by omega)]
        omega
    rw [ledCalls_of_star star]
    simp only [List.mem_singleton, forall_eq, Nat.zero_le, true_and, last]
    constructor
    · exact LedsFit.all star
    · intro fit
      cases fit with
      | all _ some => exact some
      | ranges lists _ => exact absurd star (not_star_of_lists lists)
  · obtain ⟨ranges, lists⟩ := IndexList.mem_overallExp.mp
      ((RegularExpression.rmatch_iff_matches' _ _).mp listed)
    have calls : ∀ {ranges}, IndexList.Lists (trimmed leds) ranges →
        ((∀ call ∈ ledCalls ledCnt leds, call.1 ≤ call.2 ∧ call.2 < ledCnt) ↔
          RangesFit ledCnt ranges) := by
      intro ranges lists
      rw [ledCalls_of_lists lists]
      simp only [List.forall_mem_map]
      exact Iff.rfl
    constructor
    · intro inRange
      exact .ranges lists ((calls lists).mp inRange)
    · intro fit
      cases fit with
      | all star _ => exact absurd star (not_star_of_lists lists)
      | ranges lists fit => exact (calls lists).mpr fit

section Loop

variable {build : Build} {std : StdPow} {ledCnt : Nat}

private theorem setLeds_returns {id : String} {m : MultiColorAdjustment} {call : Nat × Nat}
    (inRange : m.InRange call) : ∃ t, setLeds build id m call = .ok t :=
  ⟨_, setAdjustmentForLed_of_inRange inRange.1 inRange.2⟩

private theorem addChannelAdjustment_length {m t : MultiColorAdjustment} {config : AdjustmentConfig}
    (length : m.ledAdjustments.length = ledCnt)
    (ok : addChannelAdjustment build std ledCnt m config = .ok t) :
    t.ledAdjustments.length = ledCnt :=
  (assignLeds_length ok).trans length

theorem setLeds_along_iff {id : String} {m : MultiColorAdjustment}
    (length : m.ledAdjustments.length = ledCnt) (calls : List (Nat × Nat)) :
    Along (setLeds build id) InRange m calls ↔
      ∀ call ∈ calls, call.1 ≤ call.2 ∧ call.2 < ledCnt := by
  refine along_iff_forall (I := fun m => m.ledAdjustments.length = ledCnt) ?_ ?_ ?_ length
  · intro m call t length ok
    exact (setLeds_length ok).trans length
  · intro m call length
    rw [InRange, length]
  · intro m call length inRange
    rw [← length] at inRange
    exact setLeds_returns inRange

theorem addChannelAdjustment_returns {m : MultiColorAdjustment} {config : AdjustmentConfig}
    (length : m.ledAdjustments.length = ledCnt)
    (inRange : ∀ call ∈ ledCalls ledCnt (config.leds.getD []),
      call.1 ≤ call.2 ∧ call.2 < ledCnt) :
    ∃ t, addChannelAdjustment build std ledCnt m config = .ok t := by
  unfold addChannelAdjustment
  simp only [assignLeds_eq_calls]
  refine exists_reaches (I := fun m => m.ledAdjustments.length = ledCnt)
    (fun m call t length ok => (setLeds_length ok).trans length) ?_ length inRange
  intro m call length inRange
  rw [← length] at inRange
  exact setLeds_returns inRange

/-- For texts that are not skipped, every call is in range exactly when every
text fits. -/
theorem assignsInRange_iff (build : Build) (std : StdPow) (ledCnt : Nat)
    (channelAdjustment : List AdjustmentConfig) (count : ledCnt < 2 ^ 32)
    (accepted : ∀ config ∈ channelAdjustment, LedsAccepted (config.leds.getD [])) :
    AssignsInRange build std ledCnt channelAdjustment ↔
      ∀ config ∈ channelAdjustment, LedsFit ledCnt (config.leds.getD []) := by
  have start : (MultiColorAdjustment.new ledCnt).ledAdjustments.length = ledCnt :=
    List.length_replicate
  have calls : (∀ config ∈ channelAdjustment, ∀ call ∈ ledCalls ledCnt (config.leds.getD []),
      call.1 ≤ call.2 ∧ call.2 < ledCnt) ↔
        ∀ config ∈ channelAdjustment, LedsFit ledCnt (config.leds.getD []) :=
    forall₂_congr fun config mem => ledCalls_inRange_iff count (accepted config mem)
  have along : Along (addChannelAdjustment build std ledCnt) (fun m config =>
      Along (setLeds build (config.id.getD "default")) InRange
        (m.addAdjustment (createColorAdjustment std config))
        (ledCalls ledCnt (config.leds.getD [])))
      (MultiColorAdjustment.new ledCnt) channelAdjustment ↔
      ∀ config ∈ channelAdjustment, ∀ call ∈ ledCalls ledCnt (config.leds.getD []),
        call.1 ≤ call.2 ∧ call.2 < ledCnt := by
    refine along_iff_forall (I := fun m : MultiColorAdjustment => m.ledAdjustments.length = ledCnt)
      (R := fun config : AdjustmentConfig => ∀ call ∈ ledCalls ledCnt (config.leds.getD []),
        call.1 ≤ call.2 ∧ call.2 < ledCnt) ?_ ?_ ?_ start
    · exact fun m config t length ok => addChannelAdjustment_length length ok
    · exact fun m config length => setLeds_along_iff (m := m.addAdjustment _) length _
    · exact fun m config length inRange => addChannelAdjustment_returns length inRange
  rw [AssignsInRange, along, ← calls]
  refine and_iff_left_of_imp fun inRange => ?_
  refine exists_reaches (I := fun m => m.ledAdjustments.length = ledCnt)
    (R := fun config => ∀ call ∈ ledCalls ledCnt (config.leds.getD []),
      call.1 ≤ call.2 ∧ call.2 < ledCnt) ?_ ?_ start inRange
  · exact fun m config t length ok => addChannelAdjustment_length length ok
  · exact fun m config length inRange => addChannelAdjustment_returns length inRange

end Loop

theorem assignsInRange_three : (3 < 2 ^ 32 ∧
    ∀ config ∈ [{ leds := some ['0', '-', '2'] : AdjustmentConfig }],
      LedsAccepted (config.leds.getD [])) ∧
    (AssignsInRange ⟨true, 16, le_refl 16⟩ .natural 3 [{ leds := some ['0', '-', '2'] }] ↔
      ∀ config ∈ [{ leds := some ['0', '-', '2'] : AdjustmentConfig }],
        LedsFit 3 (config.leds.getD [])) := by
  have accepted : ∀ config ∈ [{ leds := some ['0', '-', '2'] : AdjustmentConfig }],
      LedsAccepted (config.leds.getD []) := by
    intro config mem
    rw [List.mem_singleton.mp mem]
    exact Or.inr (by decide)
  exact ⟨⟨by decide, accepted⟩, assignsInRange_iff _ _ 3 _ (by decide) accepted⟩

/-- `0-5` on three LEDs: an assert fails, or a write leaves the vector. -/
theorem range_beyond_leds : IndexList.overallExp.rmatch ['0', '-', '5'] = true ∧
    ¬ AssignsInRange ⟨true, 16, le_refl 16⟩ .natural 3 [{ leds := some ['0', '-', '5'] }] ∧
    createLedColorsAdjustment ⟨false, 16, le_refl 16⟩ .natural 3
      [{ leds := some ['0', '-', '5'] }] = .error .outsideBuffer := by
  refine ⟨by decide, ?_, ?_⟩
  · intro inRange
    have call := inRange.1.1.1
    exact absurd call.2 (by decide)
  · rfl

end HyperionNg
