import HyperionNg.ColorAdjustment
import HyperionNg.IndexList
import HyperionNg.Library.Execution

/-! The adjustments of the colour section: each entry of `channelAdjustment`
is registered and assigned to the LEDs of its index list by its id. An LED
ends up with the adjustment that the id of the last entry covering it names,
which is the first one registered under that id. -/

namespace HyperionNg

open Library.Execution

/-- `std::pow`, exact where the result has to be. -/
structure StdPow where
  pow : ℚ → ℚ → ℚ
  pow_zero : ∀ x, pow x 0 = 1
  pow_one : ∀ x, pow x 1 = x

def StdPow.natural : StdPow where
  pow x y := x ^ ⌊y⌋.toNat
  pow_zero x := by simp
  pow_one x := by simp

namespace RgbTransform

def sumBrightness (std : StdPow) (brightness : ℚ) : ℚ :=
  765 * ((std.pow 2 (brightness * 2) - 1) / 3)

/-- One entry of a table of `initializeMapping`; the cast to `int` truncates. -/
def gammaTable (std : StdPow) (gamma : ℚ) (i : UInt8) : UInt8 :=
  let value := std.pow (i.toNat / 255) gamma * 255
  UInt8.ofNat (min (max (Int.tdiv value.num value.den) 0) 255).toNat

def initializeMapping (std : StdPow) (t : RgbTransform) : RgbTransform :=
  { t with
    mappingR := gammaTable std t.gammaR
    mappingG := gammaTable std t.gammaG
    mappingB := gammaTable std t.gammaB }

def setGamma (std : StdPow) (t : RgbTransform) (gammaR gammaG gammaB : ℚ) : RgbTransform :=
  initializeMapping std { t with
    gammaR
    gammaG := if gammaG < 0 then gammaR else gammaG
    gammaB := if gammaB < 0 then gammaR else gammaB }

def setBacklightThreshold (std : StdPow) (t : RgbTransform) (backlightThreshold : ℚ) :
    RgbTransform :=
  { t with backlightThreshold, sumBrightnessLow := sumBrightness std backlightThreshold }

def setBacklightColored (t : RgbTransform) (backlightColored : Bool) : RgbTransform :=
  { t with backlightColored }

def setBrightness (std : StdPow) (t : RgbTransform) (brightness : ℚ) : RgbTransform :=
  { t with brightnessHigh := brightness, sumBrightnessHigh := sumBrightness std brightness }

def new (std : StdPow) (gammaR gammaG gammaB backlightThreshold : ℚ) (backlightColored : Bool)
    (brightnessHigh : ℚ) : RgbTransform :=
  let blank : RgbTransform :=
    { backlightThreshold := 0, backlightColored := false, brightnessHigh := 0
      sumBrightnessLow := 0, sumBrightnessHigh := 0, mappingR := id, mappingG := id
      mappingB := id, backLightEnabled := true }
  let t := setGamma std blank gammaR gammaG gammaB
  let t := setBacklightThreshold std t backlightThreshold
  let t := t.setBacklightColored backlightColored
  initializeMapping std (setBrightness std t brightnessHigh)

end RgbTransform

/-- One object of `channelAdjustment`; a colour holds the numbers of its array. -/
structure AdjustmentConfig where
  id : Option String := none
  leds : Option (List Char) := none
  black : List Int := []
  white : List Int := []
  red : List Int := []
  green : List Int := []
  blue : List Int := []
  cyan : List Int := []
  magenta : List Int := []
  yellow : List Int := []
  backlightThreshold : Option ℚ := none
  backlightColored : Option Bool := none
  brightness : Option ℚ := none
  gammaRed : Option ℚ := none
  gammaGreen : Option ℚ := none
  gammaBlue : Option ℚ := none

def createRgbTransform (std : StdPow) (colorConfig : AdjustmentConfig) : RgbTransform :=
  let backlightThreshold := colorConfig.backlightThreshold.getD 0
  let backlightColored := colorConfig.backlightColored.getD false
  let brightness := colorConfig.brightness.getD (1 / 2)
  let gammaR := colorConfig.gammaRed.getD 1
  let gammaG := colorConfig.gammaGreen.getD 1
  let gammaB := colorConfig.gammaBlue.getD 1
  .new std gammaR gammaG gammaB backlightThreshold backlightColored brightness

def createRgbChannelAdjustment (channelConfig : List Int) (defaultR defaultG defaultB : Int) :
    RgbChannelAdjustment :=
  ⟨.ofInt (channelConfig.getD 0 defaultR), .ofInt (channelConfig.getD 1 defaultG),
    .ofInt (channelConfig.getD 2 defaultB)⟩

def createColorAdjustment (std : StdPow) (adjustmentConfig : AdjustmentConfig) :
    ColorAdjustment where
  id := adjustmentConfig.id.getD "default"
  rgbBlackAdjustment := createRgbChannelAdjustment adjustmentConfig.black 0 0 0
  rgbWhiteAdjustment := createRgbChannelAdjustment adjustmentConfig.white 255 255 255
  rgbRedAdjustment := createRgbChannelAdjustment adjustmentConfig.red 255 0 0
  rgbGreenAdjustment := createRgbChannelAdjustment adjustmentConfig.green 0 255 0
  rgbBlueAdjustment := createRgbChannelAdjustment adjustmentConfig.blue 0 0 255
  rgbCyanAdjustment := createRgbChannelAdjustment adjustmentConfig.cyan 0 255 255
  rgbMagentaAdjustment := createRgbChannelAdjustment adjustmentConfig.magenta 255 0 255
  rgbYellowAdjustment := createRgbChannelAdjustment adjustmentConfig.yellow 255 255 0
  rgbTransform := createRgbTransform std adjustmentConfig

inductive AdjustmentFault
  | assertionFailed
  | outsideBuffer
deriving DecidableEq, Repr

namespace MultiColorAdjustment

def new (ledCnt : Nat) : MultiColorAdjustment := ⟨[], List.replicate ledCnt none⟩

def addAdjustment (m : MultiColorAdjustment) (adjustment : ColorAdjustment) :
    MultiColorAdjustment :=
  { m with adjustment := m.adjustment ++ [adjustment] }

def getAdjustment (m : MultiColorAdjustment) (id : String) : Option Nat :=
  m.adjustment.findIdx? fun adjustment => adjustment.id = id

/-- `none` stands for a null pointer, which is assigned like any other. -/
def setAdjustmentForLed (build : Build) (m : MultiColorAdjustment) (id : String)
    (startLed endLed : Nat) : Except AdjustmentFault MultiColorAdjustment :=
  if build.asserts && !(startLed ≤ endLed && endLed < m.ledAdjustments.length) then
    .error .assertionFailed
  else if startLed ≤ endLed ∧ m.ledAdjustments.length ≤ endLed then .error .outsideBuffer
  else
    let adjustment := m.getAdjustment id
    .ok { m with ledAdjustments := m.ledAdjustments.mapIdx fun iLed old =>
      if startLed ≤ iLed ∧ iLed ≤ endLed then adjustment else old }

def assignLeds (build : Build) (ledCnt : Nat) (m : MultiColorAdjustment) (id : String)
    (ledIndicesStr : List Char) : Except AdjustmentFault MultiColorAdjustment :=
  if ledIndicesStr = ['*'] then
    m.setAdjustmentForLed build id 0 (unsigned ((ledCnt : Int) - 1))
  else if !IndexList.overallExp.rmatch ledIndicesStr then .ok m
  else (IndexList.readItems ledIndicesStr).foldlM (fun m (startInd, endInd) =>
    m.setAdjustmentForLed build id (unsigned startInd) (unsigned endInd)) m

end MultiColorAdjustment

open MultiColorAdjustment

/-- One iteration of `createLedColorsAdjustment`. -/
def addChannelAdjustment (build : Build) (std : StdPow) (ledCnt : Nat)
    (adjustment : MultiColorAdjustment) (config : AdjustmentConfig) :
    Except AdjustmentFault MultiColorAdjustment :=
  let colorAdjustment := createColorAdjustment std config
  let ledIndicesStr := QString.trimmed (config.leds.getD [])
  (adjustment.addAdjustment colorAdjustment).assignLeds build ledCnt colorAdjustment.id
    ledIndicesStr

def createLedColorsAdjustment (build : Build) (std : StdPow) (ledCnt : Nat)
    (channelAdjustment : List AdjustmentConfig) : Except AdjustmentFault MultiColorAdjustment :=
  channelAdjustment.foldlM (addChannelAdjustment build std ledCnt)
    (MultiColorAdjustment.new ledCnt)

namespace RgbTransform

@[simp] theorem sumBrightness_zero (std : StdPow) : sumBrightness std 0 = 0 := by
  simp [sumBrightness, std.pow_zero]

@[simp] theorem sumBrightness_half (std : StdPow) : sumBrightness std (1 / 2) = 255 := by
  norm_num [sumBrightness, std.pow_one]

theorem gammaTable_one (std : StdPow) : gammaTable std 1 = fun i => i := by
  funext i
  have whole : std.pow (i.toNat / 255) 1 * 255 = (i.toNat : ℚ) := by
    rw [std.pow_one]
    exact div_mul_cancel₀ _ (by norm_num)
  have byte := i.toNat_lt
  unfold gammaTable
  simp only [whole, Rat.num_natCast, Rat.den_natCast, Nat.cast_one, Int.tdiv_one]
  rw [max_eq_left (by omega), min_eq_left (by omega), Int.toNat_natCast, UInt8.ofNat_toNat]

end RgbTransform

theorem createColorAdjustment_empty (std : StdPow) : createColorAdjustment std {} = .default := by
  have transform : createRgbTransform std {} = ColorAdjustment.default.rgbTransform := by
    simp only [createRgbTransform, Option.getD_none, RgbTransform.new, RgbTransform.setGamma,
      RgbTransform.setBacklightThreshold, RgbTransform.setBacklightColored,
      RgbTransform.setBrightness, RgbTransform.initializeMapping, RgbTransform.sumBrightness_zero,
      RgbTransform.sumBrightness_half, ColorAdjustment.default]
    norm_num [RgbTransform.gammaTable_one]
  rw [createColorAdjustment, transform]
  rfl

theorem MultiColorAdjustment.repairBrightness_eq (std : StdPow) (a : ColorAdjustment)
    (low : a.rgbTransform.brightnessHigh ≤ a.rgbTransform.backlightThreshold) :
    repairBrightness a = { a with rgbTransform :=
      (a.rgbTransform.setBacklightThreshold std 0).setBrightness std (1 / 2) } := by
  rw [repairBrightness, if_pos low]
  simp only [RgbTransform.setBacklightThreshold, RgbTransform.setBrightness,
    RgbTransform.sumBrightness_zero, RgbTransform.sumBrightness_half]

/-- What the text of `leds` says of a string of `ledCnt` LEDs. -/
inductive LedIndices (ledCnt : Nat) (leds : List Char) : List (Nat × Nat) → Prop
  | all (star : QString.trimmed leds = ['*']) : LedIndices ledCnt leds [(0, ledCnt - 1)]
  | ranges {ranges : List (Nat × Nat)} (lists : IndexList.Lists (QString.trimmed leds) ranges) :
      LedIndices ledCnt leds ranges

def Covered (ranges : List (Nat × Nat)) (i : Nat) : Prop :=
  ∃ range ∈ ranges, range.1 ≤ i ∧ i ≤ range.2

instance (ranges : List (Nat × Nat)) : DecidablePred (Covered ranges) :=
  fun i => inferInstanceAs (Decidable (∃ range ∈ ranges, range.1 ≤ i ∧ i ≤ range.2))

structure ChannelEntry (ledCnt : Nat) where
  config : AdjustmentConfig
  ranges : List (Nat × Nat)
  denotes : LedIndices ledCnt (config.leds.getD []) ranges
  inRange : ∀ range ∈ ranges, range.1 ≤ range.2 ∧ range.2 < ledCnt

namespace ChannelEntry

variable {ledCnt : Nat}

def id (entry : ChannelEntry ledCnt) : String := entry.config.id.getD "default"

def lastCovering (entries : List (ChannelEntry ledCnt)) (i : Nat) :
    Option (ChannelEntry ledCnt) :=
  entries.reverse.find? fun entry => Covered entry.ranges i

def firstNamed (entries : List (ChannelEntry ledCnt)) (id : String) :
    Option (ChannelEntry ledCnt) :=
  entries.find? fun entry => entry.id = id

theorem lastCovering_concat (entries : List (ChannelEntry ledCnt)) (entry : ChannelEntry ledCnt)
    (i : Nat) : lastCovering (entries ++ [entry]) i =
      if Covered entry.ranges i then some entry else lastCovering entries i := by
  unfold lastCovering
  rw [List.reverse_append, List.reverse_singleton, List.singleton_append, List.find?_cons]
  by_cases covered : Covered entry.ranges i
  · simp [covered]
  · simp [covered]

private theorem mem_of_lastCovering {entries : List (ChannelEntry ledCnt)} {i : Nat}
    {last : ChannelEntry ledCnt} (found : lastCovering entries i = some last) :
    last ∈ entries :=
  List.mem_reverse.mp (List.mem_of_find?_eq_some found)

end ChannelEntry

open ChannelEntry

namespace MultiColorAdjustment

def assign (m : MultiColorAdjustment) (id : String) (ranges : List (Nat × Nat)) :
    MultiColorAdjustment :=
  { m with ledAdjustments := m.ledAdjustments.mapIdx fun i old =>
      if Covered ranges i then m.getAdjustment id else old }

@[simp] theorem assign_getAdjustment (m : MultiColorAdjustment) (id id' : String)
    (ranges : List (Nat × Nat)) : (m.assign id ranges).getAdjustment id' = m.getAdjustment id' :=
  rfl

@[simp] theorem assign_length (m : MultiColorAdjustment) (id : String)
    (ranges : List (Nat × Nat)) :
    (m.assign id ranges).ledAdjustments.length = m.ledAdjustments.length := by
  simp [assign]

theorem assign_nil (m : MultiColorAdjustment) (id : String) : m.assign id [] = m := by
  have same : m.ledAdjustments.mapIdx (fun i old =>
      if Covered [] i then m.getAdjustment id else old) = m.ledAdjustments := by
    apply List.ext_getElem
    · simp
    · simp [Covered]
  rw [assign, same]

theorem assign_assign (m : MultiColorAdjustment) (id : String) (range : Nat × Nat)
    (ranges : List (Nat × Nat)) :
    (m.assign id [range]).assign id ranges = m.assign id (range :: ranges) := by
  have both : ∀ i, Covered (range :: ranges) i ↔ Covered ranges i ∨ Covered [range] i := by
    intro i
    simp only [Covered, List.exists_mem_cons_iff, List.not_mem_nil, false_and, exists_false,
      or_false]
    exact or_comm
  simp only [assign, MultiColorAdjustment.mk.injEq, true_and]
  rw [List.mapIdx_mapIdx]
  congr 1
  funext i old
  by_cases later : Covered ranges i
  · simp [both, later, getAdjustment]
  · simp [both, later, getAdjustment]

theorem setAdjustmentForLed_of_inRange {build : Build} {m : MultiColorAdjustment} {id : String}
    {startLed endLed : Nat} (ordered : startLed ≤ endLed)
    (within : endLed < m.ledAdjustments.length) :
    m.setAdjustmentForLed build id startLed endLed = .ok (m.assign id [(startLed, endLed)]) := by
  have passed : (build.asserts && !(startLed ≤ endLed && endLed < m.ledAdjustments.length)) =
      false := by simp [ordered, within]
  rw [setAdjustmentForLed, passed, if_neg Bool.false_ne_true, if_neg (by omega)]
  simp [assign, Covered]

theorem foldlM_setAdjustmentForLed {build : Build} {m : MultiColorAdjustment} {id : String}
    {ranges : List (Nat × Nat)} (count : m.ledAdjustments.length < 2 ^ 31)
    (inRange : ∀ range ∈ ranges, range.1 ≤ range.2 ∧ range.2 < m.ledAdjustments.length) :
    (ranges.map fun range => ((range.1 : Int), (range.2 : Int))).foldlM
      (fun m (startInd, endInd) =>
        m.setAdjustmentForLed build id (unsigned startInd) (unsigned endInd)) m =
      .ok (m.assign id ranges) := by
  induction ranges generalizing m with
  | nil =>
    rw [assign_nil]
    rfl
  | cons range rest ih =>
    obtain ⟨ordered, within⟩ := inRange range (by simp)
    have head : m.setAdjustmentForLed build id (unsigned range.1) (unsigned range.2) =
        .ok (m.assign id [range]) := by
      rw [unsigned_of_lt (by omega), unsigned_of_lt (by omega)]
      exact setAdjustmentForLed_of_inRange ordered within
    have tail := ih (m := m.assign id [range]) (by simpa using count)
      (by simpa using fun a b mem => inRange (a, b) (by simp [mem]))
    rw [List.map_cons, List.foldlM_cons]
    simp only [head, bind, Except.bind]
    rw [tail, assign_assign]

end MultiColorAdjustment

theorem setAdjustmentForLed_adjustment {build : Build} {m t : MultiColorAdjustment} {id : String}
    {startLed endLed : Nat} (ok : m.setAdjustmentForLed build id startLed endLed = .ok t) :
    t.adjustment = m.adjustment := by
  unfold setAdjustmentForLed at ok
  split_ifs at ok
  rw [← Except.ok.inj ok]

theorem assignLeds_adjustment {build : Build} {ledCnt : Nat} {m t : MultiColorAdjustment}
    {id : String} {ledIndicesStr : List Char}
    (ok : m.assignLeds build ledCnt id ledIndicesStr = .ok t) : t.adjustment = m.adjustment := by
  unfold assignLeds at ok
  split_ifs at ok
  · exact setAdjustmentForLed_adjustment ok
  · rw [← Except.ok.inj ok]
  · have run : Reaches _ m (IndexList.readItems ledIndicesStr) t := ok
    exact run.invariant (I := fun u => u.adjustment = m.adjustment)
      (fun _ _ _ same step => (setAdjustmentForLed_adjustment step).trans same) rfl

theorem createLedColorsAdjustment_backlight {build : Build} {std : StdPow} {ledCnt : Nat}
    {channelAdjustment : List AdjustmentConfig} {m : MultiColorAdjustment}
    (created : createLedColorsAdjustment build std ledCnt channelAdjustment = .ok m) :
    ∀ a ∈ m.adjustment, a.rgbTransform.backLightEnabled = true := by
  have run : Reaches (addChannelAdjustment build std ledCnt) (.new ledCnt) channelAdjustment m :=
    created
  refine run.invariant
    (I := fun u => ∀ a ∈ u.adjustment, a.rgbTransform.backLightEnabled = true) ?_ ?_
  · intro u config t enabled step a ha
    rw [assignLeds_adjustment step, addAdjustment] at ha
    cases List.mem_append.mp ha with
    | inl before => exact enabled a before
    | inr added =>
      rw [List.mem_singleton.mp added]
      rfl
  · intro a ha
    simp [MultiColorAdjustment.new] at ha

theorem assignLeds_of_ledIndices {build : Build} {ledCnt : Nat} {m : MultiColorAdjustment}
    {id : String} {leds : List Char} {ranges : List (Nat × Nat)} (count : ledCnt < 2 ^ 31)
    (length : m.ledAdjustments.length = ledCnt) (denotes : LedIndices ledCnt leds ranges)
    (inRange : ∀ range ∈ ranges, range.1 ≤ range.2 ∧ range.2 < ledCnt) :
    m.assignLeds build ledCnt id (QString.trimmed leds) = .ok (m.assign id ranges) := by
  subst length
  cases denotes with
  | all star =>
    obtain ⟨ordered, within⟩ := inRange (0, m.ledAdjustments.length - 1) (by simp)
    have last : unsigned ((m.ledAdjustments.length : Int) - 1) = m.ledAdjustments.length - 1 := by
      have pred : (m.ledAdjustments.length : Int) - 1 = (m.ledAdjustments.length - 1 : Nat) := by
        omega
      rw [pred, unsigned_of_lt (by omega)]
    rw [assignLeds, if_pos star, last]
    exact setAdjustmentForLed_of_inRange ordered within
  | ranges lists =>
    have listed : IndexList.overallExp.rmatch (QString.trimmed leds) = true :=
      (RegularExpression.rmatch_iff_matches' _ _).mpr (IndexList.mem_overallExp.mpr ⟨_, lists⟩)
    have notStar : QString.trimmed leds ≠ ['*'] := by
      intro star
      rw [star] at listed
      exact absurd listed (by decide)
    have items := IndexList.readItems_of_lists lists (fun range mem => by
      obtain ⟨ordered, within⟩ := inRange range mem
      omega) 0
    rw [List.replicate_zero, List.nil_append] at items
    rw [assignLeds, if_neg notStar, listed, Bool.not_true, if_neg Bool.false_ne_true, items]
    exact foldlM_setAdjustmentForLed count inRange

namespace ChannelEntry

variable {ledCnt : Nat} {std : StdPow}

structure Assigned (std : StdPow) (entries : List (ChannelEntry ledCnt))
    (m : MultiColorAdjustment) : Prop where
  adjustment : m.adjustment = entries.map fun entry => createColorAdjustment std entry.config
  length : m.ledAdjustments.length = ledCnt
  pointer : ∀ i < ledCnt, m.ledAdjustments[i]? =
    some ((lastCovering entries i).bind fun last => m.getAdjustment last.id)

private theorem assigned_new : Assigned std ([] : List (ChannelEntry ledCnt)) (.new ledCnt) where
  adjustment := rfl
  length := List.length_replicate
  pointer i lt := by simp [MultiColorAdjustment.new, lastCovering, lt]

theorem Assigned.getAdjustment_add {entries : List (ChannelEntry ledCnt)}
    {m : MultiColorAdjustment} (assigned : Assigned std entries m) {entry : ChannelEntry ledCnt}
    (mem : entry ∈ entries) (added : ColorAdjustment) :
    (m.addAdjustment added).getAdjustment entry.id = m.getAdjustment entry.id := by
  have registered : (m.getAdjustment entry.id).isSome = true := by
    rw [getAdjustment, List.findIdx?_isSome, List.any_eq_true]
    refine ⟨createColorAdjustment std entry.config, ?_, decide_eq_true rfl⟩
    rw [assigned.adjustment]
    exact List.mem_map_of_mem mem
  obtain ⟨k, found⟩ := Option.isSome_iff_exists.mp registered
  have here : m.adjustment.findIdx? (fun adjustment => adjustment.id = entry.id) = some k := found
  rw [found, getAdjustment, addAdjustment, List.findIdx?_append, here, Option.some_or]

theorem Assigned.step {entries : List (ChannelEntry ledCnt)} {m : MultiColorAdjustment}
    (assigned : Assigned std entries m) (build : Build) (count : ledCnt < 2 ^ 31)
    (entry : ChannelEntry ledCnt) :
    ∃ m', addChannelAdjustment build std ledCnt m entry.config = .ok m' ∧
      Assigned std (entries ++ [entry]) m' := by
  have length := assigned.length
  let added := m.addAdjustment (createColorAdjustment std entry.config)
  have addedLength : added.ledAdjustments.length = ledCnt := length
  refine ⟨added.assign entry.id entry.ranges, ?_, ?_, ?_, ?_⟩
  · exact assignLeds_of_ledIndices count addedLength entry.denotes entry.inRange
  · simp [assign, added, addAdjustment, assigned.adjustment]
  · rw [assign_length, addedLength]
  · intro i lt
    have old : added.ledAdjustments[i]? = _ := assigned.pointer i lt
    rw [lastCovering_concat]
    simp only [assign_getAdjustment]
    by_cases covered : Covered entry.ranges i
    · simp [assign, old, covered]
    · have kept : ((lastCovering entries i).bind fun last => m.getAdjustment last.id) =
          (lastCovering entries i).bind fun last => added.getAdjustment last.id := by
        cases found : lastCovering entries i with
        | none => rfl
        | some last => exact (assigned.getAdjustment_add (mem_of_lastCovering found) _).symm
      simp [assign, old, covered, kept]

theorem Assigned.run {done : List (ChannelEntry ledCnt)} {m : MultiColorAdjustment}
    (assigned : Assigned std done m) (build : Build) (count : ledCnt < 2 ^ 31)
    (entries : List (ChannelEntry ledCnt)) :
    ∃ m', (entries.map config).foldlM (addChannelAdjustment build std ledCnt) m = .ok m' ∧
      Assigned std (done ++ entries) m' := by
  induction entries generalizing done m with
  | nil => exact ⟨m, rfl, by simpa using assigned⟩
  | cons entry rest ih =>
    obtain ⟨next, here, assignedNext⟩ := assigned.step build count entry
    obtain ⟨m', later, assignedEnd⟩ := ih assignedNext
    refine ⟨m', ?_, by simpa using assignedEnd⟩
    rw [List.map_cons, List.foldlM_cons, here]
    exact later

private theorem firstNamed_config (entries : List (ChannelEntry ledCnt)) (id : String) :
    (entries.map fun entry => createColorAdjustment std entry.config).find?
      (fun adjustment => adjustment.id = id) =
      (firstNamed entries id).map fun first => createColorAdjustment std first.config := by
  rw [List.find?_map, firstNamed]
  rfl

theorem Assigned.adjustmentOfLed {entries : List (ChannelEntry ledCnt)}
    {m : MultiColorAdjustment} (assigned : Assigned std entries m) {i : Nat} (lt : i < ledCnt) :
    m.adjustmentOfLed i = (lastCovering entries i).bind fun last =>
      (firstNamed entries last.id).map fun first => createColorAdjustment std first.config := by
  rw [MultiColorAdjustment.adjustmentOfLed, assigned.pointer i lt, Option.join_some]
  cases lastCovering entries i with
  | none => rfl
  | some last =>
    rw [Option.bind_some, Option.bind_some, ← firstNamed_config, ← assigned.adjustment,
      List.find?_eq_bind_findIdx?_getElem?]
    rfl

theorem firstNamed_of_distinct {entries : List (ChannelEntry ledCnt)}
    (distinct : entries.Pairwise fun first second => first.id ≠ second.id)
    {entry : ChannelEntry ledCnt} (mem : entry ∈ entries) :
    firstNamed entries entry.id = some entry := by
  induction entries with
  | nil => cases mem
  | cons head rest ih =>
    obtain ⟨others, distinctRest⟩ := List.pairwise_cons.mp distinct
    cases List.mem_cons.mp mem with
    | inl here => simp [firstNamed, here]
    | inr later =>
      have different := others entry later
      rw [firstNamed, List.find?_cons_of_neg (by simpa using different)]
      exact ih distinctRest later

theorem Assigned.adjustmentOfLed_of_distinct {entries : List (ChannelEntry ledCnt)}
    {m : MultiColorAdjustment} (assigned : Assigned std entries m)
    (distinct : entries.Pairwise fun first second => first.id ≠ second.id) {i : Nat}
    (lt : i < ledCnt) : m.adjustmentOfLed i =
      (lastCovering entries i).map fun last => createColorAdjustment std last.config := by
  rw [assigned.adjustmentOfLed lt]
  cases found : lastCovering entries i with
  | none => rfl
  | some last => simp [firstNamed_of_distinct distinct (mem_of_lastCovering found)]

end ChannelEntry

/-- Every LED uses the parameters that the id of the last entry covering it
names, and none when no entry covers it. -/
theorem createLedColorsAdjustment_assigned (build : Build) (std : StdPow) (ledCnt : Nat)
    (entries : List (ChannelEntry ledCnt)) (count : ledCnt < 2 ^ 31) :
    ∃ m, createLedColorsAdjustment build std ledCnt (entries.map config) = .ok m ∧
      ∀ i < ledCnt, m.adjustmentOfLed i = (lastCovering entries i).bind fun last =>
        (firstNamed entries last.id).map fun first =>
          createColorAdjustment std first.config := by
  have start : Assigned std ([] : List (ChannelEntry ledCnt)) (.new ledCnt) := assigned_new
  obtain ⟨m, created, assigned⟩ := start.run build count entries
  exact ⟨m, created, fun i lt => assigned.adjustmentOfLed lt⟩

def overlapping : List (ChannelEntry 5) :=
  have digit {c : Char} (isDigit : c.isDigit = true) {n : Nat} (value : c.toNat - '0'.toNat = n) :
      IndexList.Numeral [c] n :=
    ⟨by simp, by simpa using isDigit, by simpa [QString.decimal] using value⟩
  [{ config := { id := some "a", leds := some "0-3, 4".toList }
     ranges := [(0, 3), (4, 4)]
     denotes := .ranges (.more 1 (.range (digit rfl rfl) (digit rfl rfl))
      (.one (.single (digit rfl rfl))))
     inRange := by decide },
   { config := { id := some "b", leds := some "2-4".toList }
     ranges := [(2, 4)]
     denotes := .ranges (.one (.range (digit rfl rfl) (digit rfl rfl)))
     inRange := by decide },
   { config := { id := some "a", leds := some "3".toList, brightness := some 1 }
     ranges := [(3, 3)]
     denotes := .ranges (.one (.single (digit rfl rfl)))
     inRange := by decide }]

theorem createLedColorsAdjustment_assigned_overlapping :
    ∃ m, createLedColorsAdjustment ⟨true, 16, le_refl 16⟩ .natural 5
        (overlapping.map config) = .ok m ∧
      (List.range 5).map m.adjustmentOfLed =
        [0, 0, 1, 0, 1].map fun k => (overlapping[k]?).map fun entry =>
          createColorAdjustment .natural entry.config := by
  obtain ⟨m, created, assigned⟩ :=
    createLedColorsAdjustment_assigned ⟨true, 16, le_refl 16⟩ .natural 5 overlapping (by decide)
  refine ⟨m, created, ?_⟩
  have each : ∀ i ∈ List.range 5, m.adjustmentOfLed i = _ := fun i mem =>
    assigned i (List.mem_range.mp mem)
  rw [List.map_congr_left each]
  rfl

/-- `"*"` on a single LED. -/
def ChannelEntry.forAll (config : AdjustmentConfig) (star : config.leds = some ['*']) :
    ChannelEntry 1 where
  config
  ranges := [(0, 0)]
  denotes := .all (by rw [star]; decide)
  inRange := by simp

/-- Of two entries with one id, the second covers the LED last, and the LED
uses the first. -/
theorem createLedColorsAdjustment_first_of_id :
    ∃ (entries : List (ChannelEntry 1)) (m : MultiColorAdjustment),
      createLedColorsAdjustment ⟨true, 16, le_refl 16⟩ .natural 1 (entries.map config) = .ok m ∧
      ¬ ∀ i < 1, m.adjustmentOfLed i = (lastCovering entries i).map fun last =>
        createColorAdjustment .natural last.config := by
  let dim : AdjustmentConfig := { id := some "a", leds := some ['*'] }
  let bright : AdjustmentConfig := { id := some "a", leds := some ['*'], brightness := some 1 }
  refine ⟨[.forAll dim rfl, .forAll bright rfl],
    ⟨[createColorAdjustment .natural dim, createColorAdjustment .natural bright], [some 0]⟩,
    rfl, ?_⟩
  intro all
  have brightness := congrArg (Option.map fun a => a.rgbTransform.brightnessHigh)
    (all 0 (by decide))
  have differ : some (1 / 2 : ℚ) = some 1 := brightness
  norm_num at differ

end HyperionNg
