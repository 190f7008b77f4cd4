import HyperionNg.ImageProcessor
import HyperionNg.DetectedBorder

/-! Whether the map carries the current border. A new image size rebuilds the
map without borders, and nothing puts a border back that is already current. -/

namespace HyperionNg.ImageProcessor

open Library Execution

variable {α : Type} [Pixel α] {build : Build}

def expectedBorders (s : ImageProcessor) : Nat × Nat :=
  if s.borderProcessor.enabled then s.borderProcessor.currentBorder.mapBorders else (0, 0)

/-- The map fits the image and the current border. -/
def MapAgrees (s : ImageProcessor) (image : Image α) : Prop :=
  ∃ map, s.imageToLeds = some map ∧ map.width = image.width ∧ map.height = image.height ∧
    (map.horizontalBorder, map.verticalBorder) = s.expectedBorders

def KeepsBorders (s : ImageProcessor) (image : Image α) : Prop :=
  ∃ map, s.imageToLeds = some map ∧ map.width = image.width ∧ map.height = image.height ∧
    (map.horizontalBorder, map.verticalBorder) ≠ (0, 0)

/-- The current border is known and not 0, the map does not carry it, and the
frame brings no new border. -/
def LosesBorder (s : ImageProcessor) (image : Image α) : Prop :=
  s.borderProcessor.enabled = true ∧ s.borderProcessor.currentBorder.mapBorders ≠ (0, 0) ∧
    ¬ s.KeepsBorders image ∧
    ∃ b, s.borderProcessor.imageBorder image = .ok b ∧ ¬ s.borderProcessor.SwitchDue b

def BordersKnown (s : ImageProcessor) : Prop :=
  ∀ map, s.imageToLeds = some map →
    (map.horizontalBorder, map.verticalBorder) = (0, 0) ∨
      (map.horizontalBorder, map.verticalBorder) = s.borderProcessor.currentBorder.mapBorders

theorem BordersKnown.setSize {s t : ImageProcessor} {width height : Nat} (known : s.BordersKnown)
    (ok : s.setSize build width height = .ok t) : t.BordersKnown := by
  obtain ⟨map, rfl, _, _, origin⟩ := setSize_cases ok
  intro map' current
  rw [← Option.some.inj current]
  cases origin with
  | inl old => exact known map old
  | inr new => exact Or.inl (Prod.ext new.2.1 new.2.2.1)

omit [Pixel α] in
theorem keepsBorders_setSize {s t : ImageProcessor} {image : Image α}
    (ok : s.setSize build image.width image.height = .ok t) :
    t.KeepsBorders image ↔ s.KeepsBorders image := by
  obtain ⟨map, rfl, hw, hh, origin⟩ := setSize_cases ok
  constructor
  · intro keeps
    obtain ⟨map', current, hw', hh', borders⟩ := keeps
    rw [← Option.some.inj current] at hw' hh' borders
    cases origin with
    | inl old => exact ⟨map, old, hw', hh', borders⟩
    | inr new => exact absurd (Prod.ext new.2.1 new.2.2.1) borders
  · intro keeps
    obtain ⟨old, current, hw', hh', borders⟩ := keeps
    cases origin with
    | inl same =>
      rw [same] at current
      rw [← Option.some.inj current] at hw' hh' borders
      exact ⟨map, rfl, hw', hh', borders⟩
    | inr new => exact absurd ⟨hw', hh'⟩ (new.1 old current)

theorem bordersKnown_of_map {t : ImageProcessor} {map : ImageToLedsMap}
    (current : t.imageToLeds = some map)
    (borders : (map.horizontalBorder, map.verticalBorder) = (0, 0) ∨
      (map.horizontalBorder, map.verticalBorder) =
        t.borderProcessor.currentBorder.mapBorders) : t.BordersKnown := by
  intro map' current'
  rw [current] at current'
  rw [← Option.some.inj current']
  exact borders

theorem process_disabled {s t : ImageProcessor} {image : Image α}
    (off : s.borderProcessor.enabled = false) (ok : step build s (.process image) = .ok t) :
    t.borderProcessor.enabled = false ∧ ∃ map, t.imageToLeds = some map ∧
      map.width = image.width ∧ map.height = image.height ∧
      (map.horizontalBorder, map.verticalBorder) = (0, 0) := by
  obtain ⟨sized, request, hsized, hrequest, _, borderProcessor, outcome⟩ := process_cases ok
  obtain ⟨map, sized_eq, hw, hh, _⟩ := setSize_cases hsized
  have current : sized.imageToLeds = some map := by rw [sized_eq]
  have disabled : sized.borderProcessor.enabled = false := by rw [sized_eq]; exact off
  cases requestedBorders_disabled image disabled current with
  | inl reset =>
    rw [reset.2] at hrequest
    rw [← Except.ok.inj hrequest] at borderProcessor outcome
    have stillOff : t.borderProcessor.enabled = false := by rw [borderProcessor]; exact disabled
    cases outcome with
    | inl none => cases none.1
    | inr built =>
      obtain ⟨borders, map', hborders, hmap', hw', hh', same⟩ := built
      rw [← Option.some.inj hborders] at same
      exact ⟨stillOff, map', hmap', hw', hh', same⟩
  | inr unchanged =>
    rw [unchanged.2.2] at hrequest
    rw [← Except.ok.inj hrequest] at borderProcessor outcome
    have stillOff : t.borderProcessor.enabled = false := by rw [borderProcessor]; exact disabled
    cases outcome with
    | inl same =>
      exact ⟨stillOff, map, same.2.trans current, hw, hh, Prod.ext unchanged.1 unchanged.2.1⟩
    | inr built =>
      obtain ⟨borders, _, hborders, _⟩ := built
      cases hborders

/-- With the detector on a process call switches to the border of the frame and
rebuilds the map with it, or keeps the border and the map of `setSize`. -/
theorem process_enabled {s t : ImageProcessor} {image : Image α}
    (on : s.borderProcessor.enabled = true) (ok : step build s (.process image) = .ok t) :
    ∃ b map, s.borderProcessor.imageBorder image = .ok b ∧ t.borderProcessor.enabled = true ∧
      t.imageToLeds = some map ∧ map.width = image.width ∧ map.height = image.height ∧
      ((s.borderProcessor.SwitchDue b ∧ (map.horizontalBorder, map.verticalBorder) =
          t.borderProcessor.currentBorder.mapBorders) ∨
        (¬ s.borderProcessor.SwitchDue b ∧
          t.borderProcessor.currentBorder = s.borderProcessor.currentBorder ∧
          ∃ sized, s.setSize build image.width image.height = .ok sized ∧
            sized.borderProcessor = s.borderProcessor ∧ sized.imageToLeds = some map)) := by
  obtain ⟨sized, request, hsized, hrequest, _, borderProcessor, outcome⟩ := process_cases ok
  obtain ⟨map, sized_eq, hw, hh, _⟩ := setSize_cases hsized
  have current : sized.imageToLeds = some map := by rw [sized_eq]
  have processor : sized.borderProcessor = s.borderProcessor := by rw [sized_eq]
  have sizedOn : sized.borderProcessor.enabled = true := by rw [processor, on]
  obtain ⟨b, border, updated, decision⟩ := requestedBorders_enabled sizedOn hrequest
  have stillOn : t.borderProcessor.enabled = true := by
    obtain ⟨_, _, _, _, same⟩ :=
      BlackBorderProcessor.updateBorder_frame sized.borderProcessor b
    rw [borderProcessor, updated, same]
    exact sizedOn
  rw [processor] at border decision
  cases decision with
  | inl switch =>
    obtain ⟨due, currentBorder, requested⟩ := switch
    rw [requested] at outcome
    cases outcome with
    | inl none => cases none.1
    | inr built =>
      obtain ⟨borders, map', hborders, hmap', hw', hh', same⟩ := built
      refine ⟨b, map', border, stillOn, hmap', hw', hh', Or.inl ⟨due, ?_⟩⟩
      rw [borderProcessor, currentBorder, same, ← Option.some.inj hborders]
  | inr wait =>
    obtain ⟨early, currentBorder, requested⟩ := wait
    rw [requested] at outcome
    cases outcome with
    | inl same =>
      refine ⟨b, map, border, stillOn, same.2.trans current, hw, hh, Or.inr ⟨early, ?_, ?_⟩⟩
      · rw [borderProcessor, currentBorder]
      · exact ⟨sized, hsized, processor, current⟩
    | inr built =>
      obtain ⟨borders, _, hborders, _⟩ := built
      cases hborders

theorem kept_borders_iff {s sized : ImageProcessor} {image : Image α} {map : ImageToLedsMap}
    {b : BlackBorder} (known : s.BordersKnown) (on : s.borderProcessor.enabled = true)
    (border : s.borderProcessor.imageBorder image = .ok b)
    (early : ¬ s.borderProcessor.SwitchDue b)
    (hsized : s.setSize build image.width image.height = .ok sized)
    (same : sized.borderProcessor = s.borderProcessor) (current : sized.imageToLeds = some map)
    (hw : map.width = image.width) (hh : map.height = image.height) :
    (map.horizontalBorder, map.verticalBorder) = s.borderProcessor.currentBorder.mapBorders ↔
      ¬ s.LosesBorder image := by
  have kept := keepsBorders_setSize hsized
  have borders := known.setSize hsized map current
  rw [same] at borders
  constructor
  · intro agrees loses
    apply loses.2.2.1
    apply kept.mp
    refine ⟨map, current, hw, hh, ?_⟩
    rw [agrees]
    exact loses.2.1
  · intro safe
    by_contra differs
    have none : (map.horizontalBorder, map.verticalBorder) = (0, 0) :=
      borders.resolve_right differs
    apply safe
    refine ⟨on, fun zero => differs (none.trans zero.symm), fun keeps => ?_, b, border, early⟩
    obtain ⟨map', current', _, _, some⟩ := kept.mpr keeps
    rw [current] at current'
    rw [← Option.some.inj current'] at some
    exact some none

theorem process_agrees_iff {s t : ImageProcessor} {image : Image α} (known : s.BordersKnown)
    (ok : step build s (.process image) = .ok t) :
    t.BordersKnown ∧ (t.MapAgrees image ↔ ¬ s.LosesBorder image) := by
  cases enabled : s.borderProcessor.enabled with
  | false =>
    obtain ⟨off, map, current, hw, hh, none⟩ := process_disabled enabled ok
    refine ⟨bordersKnown_of_map current (Or.inl none), iff_of_true ⟨map, current, hw, hh, ?_⟩ ?_⟩
    · simpa [expectedBorders, off] using none
    · intro loses
      rw [loses.1] at enabled
      exact absurd enabled (by decide)
  | true =>
    obtain ⟨b, map, border, on, current, hw, hh, outcome⟩ := process_enabled enabled ok
    have expected : t.expectedBorders = t.borderProcessor.currentBorder.mapBorders := by
      simp [expectedBorders, on]
    have agrees_iff : t.MapAgrees image ↔ (map.horizontalBorder, map.verticalBorder) =
        t.borderProcessor.currentBorder.mapBorders := by
      simp [MapAgrees, current, hw, hh, expected]
    rw [agrees_iff]
    cases outcome with
    | inl switch =>
      refine ⟨bordersKnown_of_map current (Or.inr switch.2), iff_of_true switch.2 ?_⟩
      intro loses
      obtain ⟨b', border', early⟩ := loses.2.2.2
      rw [Except.ok.inj (border.symm.trans border')] at switch
      exact early switch.1
    | inr wait =>
      obtain ⟨early, stays, sized, hsized, same, sizedMap⟩ := wait
      have borders := known.setSize hsized map sizedMap
      rw [same] at borders
      rw [stays]
      refine ⟨bordersKnown_of_map current (by rw [stays]; exact borders), ?_⟩
      exact kept_borders_iff known enabled border early hsized same sizedMap hw hh

theorem BordersKnown.step {s t : ImageProcessor} {call : ImageProcessorCall α}
    (known : s.BordersKnown) (ok : step build s call = .ok t) : t.BordersKnown := by
  cases call with
  | process image => exact (process_agrees_iff known ok).1
  | enableBlackBorderDetector enable =>
    rw [← Except.ok.inj ok]
    exact known
  | setLedMappingType mapType =>
    rw [← Except.ok.inj ok]
    exact known

/-- Over every run the map agrees with the current border after every process
call exactly when no process call loses the border. -/
theorem map_agrees_iff (build : Build) (leds : List Led) (config : BlackBorderConfig)
    (calls : List (ImageProcessorCall α)) :
    Along (step build) (fun s call => ∀ image t, call = .process image →
        step build s call = .ok t → t.MapAgrees image) (create leds config) calls ↔
      Along (step build) (fun s call => ∀ image t, call = .process image →
        step build s call = .ok t → ¬ s.LosesBorder image) (create leds config) calls := by
  have start : (create leds config).BordersKnown := by
    intro map current
    cases current
  apply along_congr (I := BordersKnown) (fun s call t known ok => known.step ok) _ start
  intro s call known
  refine forall_congr' fun image => forall_congr' fun t => forall_congr' fun process =>
    forall_congr' fun ok => ?_
  rw [process] at ok
  exact (process_agrees_iff known ok).2

/-- Two frames with the same border: the wider second one drops it from the map. -/
theorem map_loses_border :
    ¬ Along (step ⟨true, 64, by decide⟩) (fun s call => ∀ image t, call = .process image →
      step ⟨true, 64, by decide⟩ s call = .ok t → t.MapAgrees image) (create [] {})
      [.process (BlackBorderDetector.letterbox ColorRgb 12 9 2 1),
        .process (BlackBorderDetector.letterbox ColorRgb 13 9 2 1)] := by
  intro along
  have evaluated : evaluates (step ⟨true, 64, by decide⟩) (.ok (create [] {}))
      [.process (BlackBorderDetector.letterbox ColorRgb 12 9 2 1),
        .process (BlackBorderDetector.letterbox ColorRgb 13 9 2 1)]
      (fun t => t.expectedBorders == (3, 2) &&
        t.imageToLeds.map (fun map => (map.horizontalBorder, map.verticalBorder)) ==
          some (0, 0)) = true := by decide +kernel
  obtain ⟨s, t, hs, run, check⟩ := exists_of_evaluates evaluated
  rw [← Except.ok.inj hs] at run
  obtain ⟨u, first, rest⟩ := reaches_cons.mp run
  obtain ⟨v, second, last⟩ := reaches_cons.mp rest
  rw [reaches_nil.mp last] at second
  obtain ⟨map, current, _, _, agrees⟩ := (along.2 u first).1 _ t rfl second
  simp only [Bool.and_eq_true, beq_iff_eq, current, Option.map_some, Option.some.injEq] at check
  rw [check.1, check.2] at agrees
  exact absurd agrees (by decide)

end HyperionNg.ImageProcessor
