import HyperionNg.BlackBorderProcessor
import HyperionNg.ImageToLedsMap
import HyperionNg.Library.Execution

/-! The image processor: it keeps a map for the size of the last image, looks
for black borders in every frame and rebuilds the map when the border changes. -/

namespace HyperionNg

def BlackBorder.mapBorders (border : BlackBorder) : Nat × Nat :=
  if border.unknown then (0, 0) else (unsigned border.horizontalSize, unsigned border.verticalSize)

structure ImageProcessor where
  ledString : List Led
  borderProcessor : BlackBorderProcessor
  imageToLeds : Option ImageToLedsMap
  mappingType : Int

namespace ImageProcessor

def create (ledString : List Led) (blackborderConfig : BlackBorderConfig) : ImageProcessor where
  ledString := ledString
  borderProcessor := .create blackborderConfig
  imageToLeds := none
  mappingType := 0

def mappingTypeToInt (mappingType : String) : Int :=
  if mappingType = "unicolor_mean" then 1 else 0

def enableBlackBorderDetector (s : ImageProcessor) (enable : Bool) : ImageProcessor :=
  { s with borderProcessor := s.borderProcessor.setEnabled enable }

def setLedMappingType (s : ImageProcessor) (mapType : Int) : ImageProcessor :=
  { s with mappingType := mapType }

def setSize (build : Build) (s : ImageProcessor) (width height : Nat) :
    Except ImageFault ImageProcessor :=
  if s.imageToLeds.any fun map => map.width == width && map.height == height then .ok s
  else do
    let map ← ImageToLedsMap.create build width height 0 0 s.ledString
    pure { s with imageToLeds := some map }

variable {α : Type} [Pixel α]

/-- The border processor after the frame, and the borders `verifyBorder` builds
a new map with, if it builds one. -/
def requestedBorders (s : ImageProcessor) (image : Image α) :
    Except ImageFault (BlackBorderProcessor × Option (Nat × Nat)) :=
  let hasBorder := s.imageToLeds.any fun map =>
    map.horizontalBorder != 0 || map.verticalBorder != 0
  if !s.borderProcessor.enabled && hasBorder then do
    -- disabled, reset border
    let (_, borderProcessor) ← s.borderProcessor.process image
    pure (borderProcessor, some (0, 0))
  else if s.borderProcessor.enabled then do
    let (updated, borderProcessor) ← s.borderProcessor.process image
    pure (borderProcessor, if updated then some borderProcessor.currentBorder.mapBorders else none)
  else pure (s.borderProcessor, none)

def verifyBorder (build : Build) (s : ImageProcessor) (image : Image α) :
    Except ImageFault ImageProcessor := do
  let (borderProcessor, request) ← s.requestedBorders image
  match request with
  | none => pure { s with borderProcessor }
  | some (horizontal, vertical) =>
    let map ← ImageToLedsMap.create build image.width image.height horizontal vertical s.ledString
    pure { s with borderProcessor, imageToLeds := some map }

/-- The LED colours of the map, which `setSize` has left non-null. -/
def ledColors (build : Build) (s : ImageProcessor) (image : Image α) :
    Except ImageFault (List ColorRgb) :=
  match s.imageToLeds with
  | none => .error .outsideBuffer
  | some map =>
    if s.mappingType = 1 then map.getUniLedColor build image else map.getMeanLedColor build image

def process (build : Build) (s : ImageProcessor) (image : Image α) :
    Except ImageFault (List ColorRgb × ImageProcessor) := do
  let s ← s.setSize build image.width image.height
  let s ← s.verifyBorder build image
  let colors ← s.ledColors build image
  pure (colors, s)

end ImageProcessor

inductive ImageProcessorCall (α : Type)
  | process (image : Image α)
  | enableBlackBorderDetector (enable : Bool)
  | setLedMappingType (mapType : Int)

namespace ImageProcessor

open Library Execution

variable {α : Type} [Pixel α] {build : Build}

def step (build : Build) (s : ImageProcessor) :
    ImageProcessorCall α → Except ImageFault ImageProcessor
  | .process image => (s.process build image).map Prod.snd
  | .enableBlackBorderDetector enable => .ok (s.enableBlackBorderDetector enable)
  | .setLedMappingType mapType => .ok (s.setLedMappingType mapType)

/-! What one process call can do. -/

theorem create_fields {width height horizontal vertical : Nat} {leds : List Led}
    {map : ImageToLedsMap}
    (ok : ImageToLedsMap.create build width height horizontal vertical leds = .ok map) :
    map.width = width ∧ map.height = height ∧ map.horizontalBorder = horizontal ∧
      map.verticalBorder = vertical ∧ map.colorsMap.length = leds.length := by
  obtain ⟨_, _, hrest⟩ := bind_eq_ok.mp ok
  obtain ⟨_, _, hpure⟩ := bind_eq_ok.mp hrest
  rw [← pure_eq_ok.mp hpure]
  exact ⟨rfl, rfl, rfl, rfl, List.length_map _⟩

theorem setSize_cases {s t : ImageProcessor} {width height : Nat}
    (ok : s.setSize build width height = .ok t) :
    ∃ map, t = { s with imageToLeds := some map } ∧ map.width = width ∧ map.height = height ∧
      ((s.imageToLeds = some map) ∨
        ((∀ old, s.imageToLeds = some old → ¬ (old.width = width ∧ old.height = height)) ∧
          map.horizontalBorder = 0 ∧ map.verticalBorder = 0 ∧
          map.colorsMap.length = s.ledString.length)) := by
  unfold setSize at ok
  split_ifs at ok with same
  · cases current : s.imageToLeds with
    | none => simp [current] at same
    | some map =>
      have size : map.width = width ∧ map.height = height := by simpa [current] using same
      refine ⟨map, ?_, size.1, size.2, Or.inl rfl⟩
      rw [← Except.ok.inj ok, ← current]
  · obtain ⟨map, built, hpure⟩ := bind_eq_ok.mp ok
    obtain ⟨hw, hh, hb, vb, length⟩ := create_fields built
    refine ⟨map, (pure_eq_ok.mp hpure).symm, hw, hh, Or.inr ⟨?_, hb, vb, length⟩⟩
    intro old current size
    simp [current, size] at same

theorem requestedBorders_disabled {s : ImageProcessor} (image : Image α) {map : ImageToLedsMap}
    (disabled : s.borderProcessor.enabled = false) (current : s.imageToLeds = some map) :
    (¬ (map.horizontalBorder = 0 ∧ map.verticalBorder = 0) ∧ s.requestedBorders image =
        .ok ({ s.borderProcessor with currentBorder := ⟨true, 0, 0⟩ }, some (0, 0))) ∨
      (map.horizontalBorder = 0 ∧ map.verticalBorder = 0 ∧
        s.requestedBorders image = .ok (s.borderProcessor, none)) := by
  by_cases none : map.horizontalBorder = 0 ∧ map.verticalBorder = 0
  · right
    refine ⟨none.1, none.2, ?_⟩
    simp [requestedBorders, disabled, current, none, pure, Except.pure]
  · left
    refine ⟨none, ?_⟩
    simp [requestedBorders, disabled, current, BlackBorderProcessor.process, bind,
      Except.bind, pure, Except.pure]
    omega

theorem requestedBorders_enabled {s : ImageProcessor} {image : Image α}
    {request : BlackBorderProcessor × Option (Nat × Nat)}
    (enabled : s.borderProcessor.enabled = true) (ok : s.requestedBorders image = .ok request) :
    ∃ b, s.borderProcessor.imageBorder image = .ok b ∧
      request.1 = (s.borderProcessor.updateBorder b).2 ∧
      ((s.borderProcessor.SwitchDue b ∧ request.1.currentBorder = b ∧
          request.2 = some b.mapBorders) ∨
        (¬ s.borderProcessor.SwitchDue b ∧
          request.1.currentBorder = s.borderProcessor.currentBorder ∧ request.2 = none)) := by
  have processed : (s.borderProcessor.process image >>= fun result =>
      pure (result.2, if result.1 then some result.2.currentBorder.mapBorders else none)) =
      .ok request := by
    simpa [requestedBorders, enabled] using ok
  obtain ⟨result, hresult, hpure⟩ := bind_eq_ok.mp processed
  rw [BlackBorderProcessor.process, if_pos enabled] at hresult
  obtain ⟨b, border, rfl⟩ := map_eq_ok.mp hresult
  rw [← pure_eq_ok.mp hpure]
  refine ⟨b, border, rfl, ?_⟩
  by_cases due : s.borderProcessor.SwitchDue b
  · left
    have updated := BlackBorderProcessor.updateBorder_switches due
    refine ⟨due, ?_, ?_⟩
    · rw [updated]
    · rw [updated]
      rfl
  · right
    obtain ⟨returned, stays⟩ := BlackBorderProcessor.updateBorder_of_not_due due
    refine ⟨due, stays, ?_⟩
    simp [returned]

theorem process_cases {s t : ImageProcessor} {image : Image α}
    (ok : step build s (.process image) = .ok t) :
    ∃ sized request, s.setSize build image.width image.height = .ok sized ∧
      sized.requestedBorders image = .ok request ∧
      t = { sized with borderProcessor := t.borderProcessor, imageToLeds := t.imageToLeds } ∧
      t.borderProcessor = request.1 ∧
      ((request.2 = none ∧ t.imageToLeds = sized.imageToLeds) ∨
        ∃ borders map, request.2 = some borders ∧ t.imageToLeds = some map ∧
          map.width = image.width ∧ map.height = image.height ∧
          (map.horizontalBorder, map.verticalBorder) = borders) := by
  obtain ⟨⟨colors, t'⟩, processed, rfl⟩ := map_eq_ok.mp ok
  obtain ⟨sized, hsized, hrest⟩ := bind_eq_ok.mp processed
  obtain ⟨verified, hverified, hrest⟩ := bind_eq_ok.mp hrest
  obtain ⟨_, _, hpure⟩ := bind_eq_ok.mp hrest
  have last : verified = t' := congrArg Prod.snd (pure_eq_ok.mp hpure)
  subst last
  obtain ⟨⟨borderProcessor, request⟩, hrequest, hbuild⟩ := bind_eq_ok.mp hverified
  refine ⟨sized, (borderProcessor, request), hsized, hrequest, ?_⟩
  cases request with
  | none =>
    rw [← pure_eq_ok.mp hbuild]
    exact ⟨rfl, rfl, Or.inl ⟨rfl, rfl⟩⟩
  | some borders =>
    obtain ⟨map, built, hpure⟩ := bind_eq_ok.mp hbuild
    obtain ⟨hw, hh, hb, vb, _⟩ := create_fields built
    rw [← pure_eq_ok.mp hpure]
    exact ⟨rfl, rfl, Or.inr ⟨borders, map, rfl, rfl, hw, hh, Prod.ext hb vb⟩⟩

end ImageProcessor

end HyperionNg
