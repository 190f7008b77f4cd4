import HyperionNg.BorderSwitching
import HyperionNg.DetectedBorder
import HyperionNg.ImageProcessor

/-! Whether the borders `verifyBorder` asks for fit the image. The detectors
stay near a third of each size; what the blur adds on top is not limited, so
it depends on the largest border of a size whether every frame is safe. -/

namespace HyperionNg

open Library Execution BlackBorderProcessor

def enlarge (blurRemoveCnt size : Nat) : Nat := if size = 0 then 0 else size + blurRemoveCnt

private theorem enlarge_mono (blurRemoveCnt : Nat) {a b : Nat} (le : a ≤ b) :
    enlarge blurRemoveCnt a ≤ enlarge blurRemoveCnt b := by
  unfold enlarge
  split_ifs <;> omega

theorem unsigned_addBlurTo {blurRemoveCnt size : Nat} (fits : size + blurRemoveCnt < 2 ^ 32) :
    unsigned (BlackBorder.addBlurTo blurRemoveCnt size) = enlarge blurRemoveCnt size := by
  unfold BlackBorder.addBlurTo enlarge
  by_cases zero : size = 0
  · simp [zero, unsigned]
  · have positive : (0 : Int) < size := by omega
    have sum : (size : Int) + blurRemoveCnt = ((size + blurRemoveCnt : Nat) : Int) := by
      push_cast
      ring
    rw [if_pos positive, if_neg zero, unsigned_signed, sum]
    exact unsigned_of_lt fits

private theorem mapBorders_addBlur {blurRemoveCnt y x : Nat} (hy : y + blurRemoveCnt < 2 ^ 32)
    (hx : x + blurRemoveCnt < 2 ^ 32) :
    ((⟨false, y, x⟩ : BlackBorder).addBlur blurRemoveCnt).mapBorders =
      (enlarge blurRemoveCnt y, enlarge blurRemoveCnt x) := by
  simp [BlackBorder.mapBorders, BlackBorder.addBlur, unsigned_addBlurTo hy, unsigned_addBlurTo hx]

/-- The largest border of the size still fits with the blur. -/
def BlurFits (config : BlackBorderConfig) (width height : Nat) : Prop :=
  let largest := (BlackBorderDetector.create config.threshold).largestBorder config.mode
    width height
  2 * enlarge config.blurRemoveCnt largest.2 < width ∧
    2 * enlarge config.blurRemoveCnt largest.1 < height

instance (config : BlackBorderConfig) (width height : Nat) :
    Decidable (BlurFits config width height) := inferInstanceAs (Decidable (_ ∧ _))

theorem BlackBorderDetector.largestBorder_le (d : BlackBorderDetector) (mode : DetectionMode)
    (width height : Nat) : (d.largestBorder mode width height).1 ≤ height / 3 ∧
      (d.largestBorder mode width height).2 ≤ width / 3 := by
  unfold largestBorder
  cases mode <;> dsimp only <;> split_ifs <;> omega

namespace BlackBorderProcessor

variable {α : Type} [Pixel α]

theorem imageBorder_fits {config : BlackBorderConfig} {p : BlackBorderProcessor}
    {image : Image α} {b : BlackBorder} (configured : Configured config p)
    (complete : image.Complete) (fits : BlurFits config image.width image.height)
    (found : p.imageBorder image = .ok b) :
    2 * b.mapBorders.2 < image.width ∧ 2 * b.mapBorders.1 < image.height := by
  obtain ⟨detected, hdetected, rfl⟩ := map_eq_ok.mp found
  rw [configured.detector, configured.detectionMode] at hdetected
  rw [configured.blurRemoveCnt]
  cases known : detected.unknown with
  | true =>
    have none : (detected.addBlur config.blurRemoveCnt).mapBorders = (0, 0) := by
      simp [BlackBorder.mapBorders, known]
    rw [none]
    have width := complete.width_pos
    have height := complete.height_pos
    omega
  | false =>
    obtain ⟨y, x, rfl, yLe, xLe⟩ := BlackBorderDetector.detect_within hdetected known
    have third := (BlackBorderDetector.create config.threshold).largestBorder_le config.mode
      image.width image.height
    have wide := complete.width_lt
    have high := complete.height_lt
    have blur := config.blurRemoveCnt_lt
    rw [mapBorders_addBlur (by omega) (by omega)]
    have horizontal := enlarge_mono config.blurRemoveCnt yLe
    have vertical := enlarge_mono config.blurRemoveCnt xLe
    unfold BlurFits at fits
    dsimp only at fits ⊢
    omega

end BlackBorderProcessor

namespace ImageProcessor

variable {α : Type} [Pixel α] {build : Build}

/-- Borders that the map is asked for in a process call fit its image. -/
def BordersFit (build : Build) (s : ImageProcessor) (call : ImageProcessorCall α) : Prop :=
  ∀ image sized borderProcessor borders, call = .process image →
    s.setSize build image.width image.height = .ok sized →
    sized.requestedBorders image = .ok (borderProcessor, some borders) →
    2 * borders.2 < image.width ∧ 2 * borders.1 < image.height

def CallWithin (sizes : Nat → Nat → Prop) (call : ImageProcessorCall α) : Prop :=
  ∀ image, call = .process image → image.Complete ∧ sizes image.width image.height

theorem configured_step {config : BlackBorderConfig} {s t : ImageProcessor}
    {call : ImageProcessorCall α} (configured : Configured config s.borderProcessor)
    (ok : step build s call = .ok t) : Configured config t.borderProcessor := by
  cases call with
  | enableBlackBorderDetector enable =>
    rw [← Except.ok.inj ok]
    exact ⟨configured.1, configured.2, configured.3, configured.4, configured.5, configured.6⟩
  | setLedMappingType mapType =>
    rw [← Except.ok.inj ok]
    exact configured
  | process image =>
    obtain ⟨sized, request, hsized, hrequest, _, processor, _⟩ := process_cases ok
    obtain ⟨map, sized_eq, _⟩ := setSize_cases hsized
    have current : sized.imageToLeds = some map := by rw [sized_eq]
    have same : sized.borderProcessor = s.borderProcessor := by rw [sized_eq]
    rw [← same] at configured
    rw [processor]
    cases enabled : sized.borderProcessor.enabled with
    | true =>
      obtain ⟨b, _, updated, _⟩ := requestedBorders_enabled enabled hrequest
      rw [updated]
      exact configured.updateBorder b
    | false =>
      cases requestedBorders_disabled image enabled current with
      | inl reset =>
        rw [reset.2] at hrequest
        rw [← Except.ok.inj hrequest]
        exact ⟨configured.1, configured.2, configured.3, configured.4, configured.5, configured.6⟩
      | inr unchanged =>
        rw [unchanged.2.2] at hrequest
        rw [← Except.ok.inj hrequest]
        exact configured

theorem bordersFit_of_blurFits {config : BlackBorderConfig} {s : ImageProcessor}
    {call : ImageProcessorCall α} (configured : Configured config s.borderProcessor)
    (within : CallWithin (fun width height => BlurFits config width height) call) :
    BordersFit build s call := by
  intro image sized borderProcessor borders process hsized hrequest
  obtain ⟨complete, fits⟩ := within image process
  obtain ⟨map, sized_eq, _⟩ := setSize_cases hsized
  have current : sized.imageToLeds = some map := by rw [sized_eq]
  have same : sized.borderProcessor = s.borderProcessor := by rw [sized_eq]
  cases enabled : sized.borderProcessor.enabled with
  | false =>
    have width := complete.width_pos
    have height := complete.height_pos
    cases requestedBorders_disabled image enabled current with
    | inl reset =>
      rw [reset.2] at hrequest
      have none := Option.some.inj (congrArg Prod.snd (Except.ok.inj hrequest))
      rw [← none]
      omega
    | inr unchanged =>
      rw [unchanged.2.2] at hrequest
      cases congrArg Prod.snd (Except.ok.inj hrequest)
  | true =>
    obtain ⟨b, border, _, decision⟩ := requestedBorders_enabled enabled hrequest
    rw [same] at border
    have bound := imageBorder_fits configured complete fits border
    cases decision with
    | inl switch =>
      rw [Option.some.inj switch.2.2]
      exact bound
    | inr wait => cases wait.2.2

structure Idle (s : ImageProcessor) : Prop where
  enabled : s.borderProcessor.enabled = true
  noLeds : s.ledString = []
  mapping : s.mappingType = 0
  noColors : ∀ map, s.imageToLeds = some map → map.colorsMap = []

omit [Pixel α] in
theorem Idle.setSize (build : Build) {s : ImageProcessor} (idle : s.Idle) {image : Image α}
    (complete : image.Complete) :
    ∃ sized map, s.setSize build image.width image.height = .ok sized ∧ sized.Idle ∧
      sized.borderProcessor = s.borderProcessor ∧ sized.imageToLeds = some map := by
  have built : ImageToLedsMap.create build image.width image.height 0 0 s.ledString =
      .ok ⟨image.width, image.height, 0, 0, []⟩ := by
    rw [ImageToLedsMap.create_of_fits build complete.width_lt complete.height_lt
      (by simpa using complete.width_pos) (by simpa using complete.height_pos), idle.noLeds]
    rfl
  by_cases same : (s.imageToLeds.any fun map =>
      map.width == image.width && map.height == image.height) = true
  · cases current : s.imageToLeds with
    | none => simp [current] at same
    | some map => exact ⟨s, map, by rw [ImageProcessor.setSize, if_pos same], idle, rfl, current⟩
  · have sized : s.setSize build image.width image.height = .ok { s with
        imageToLeds := some ⟨image.width, image.height, 0, 0, []⟩ } := by
      rw [ImageProcessor.setSize, if_neg same, built]
      rfl
    refine ⟨_, _, sized, ⟨idle.enabled, idle.noLeds, idle.mapping, ?_⟩, rfl, rfl⟩
    intro map current
    rw [← Option.some.inj current]

theorem Idle.requestedBorders {s : ImageProcessor} (idle : s.Idle) (image : Image α)
    {b : BlackBorder} (found : s.borderProcessor.imageBorder image = .ok b) :
    s.requestedBorders image = .ok ((s.borderProcessor.updateBorder b).2,
      if (s.borderProcessor.updateBorder b).1 then
        some (s.borderProcessor.updateBorder b).2.currentBorder.mapBorders else none) := by
  simp [ImageProcessor.requestedBorders, BlackBorderProcessor.process, idle.enabled, found,
    Except.map, bind, Except.bind, pure, Except.pure]

theorem Idle.ledColors (build : Build) {s : ImageProcessor} (idle : s.Idle) (image : Image α)
    {map : ImageToLedsMap} (current : s.imageToLeds = some map) :
    s.ledColors build image = .ok [] := by
  simp [ImageProcessor.ledColors, current, idle.mapping, idle.noColors map current,
    ImageToLedsMap.getMeanLedColor, ImageToLedsMap.getMeanLedColorInto, Build.assert, bind,
    Except.bind, pure, Except.pure]

theorem Idle.process (build : Build) {s : ImageProcessor} (idle : s.Idle) {image : Image α}
    {b : BlackBorder} (complete : image.Complete)
    (found : s.borderProcessor.imageBorder image = .ok b)
    (early : ¬ s.borderProcessor.SwitchDue b) :
    ∃ t, step build s (.process image) = .ok t ∧ t.Idle ∧
      t.borderProcessor = (s.borderProcessor.updateBorder b).2 := by
  obtain ⟨sized, map, hsized, sizedIdle, same, current⟩ :=
    idle.setSize build complete
  obtain ⟨returned, _⟩ := updateBorder_of_not_due early
  obtain ⟨_, _, _, _, frame⟩ := updateBorder_frame s.borderProcessor b
  have request := sizedIdle.requestedBorders image (by rw [same]; exact found)
  rw [same, returned] at request
  have next : Idle { sized with borderProcessor := (s.borderProcessor.updateBorder b).2 } := by
    refine ⟨?_, sizedIdle.noLeds, sizedIdle.mapping, sizedIdle.noColors⟩
    rw [frame]
    exact idle.enabled
  have colors := next.ledColors build image current
  have verified : sized.verifyBorder build image =
      .ok { sized with borderProcessor := (s.borderProcessor.updateBorder b).2 } := by
    rw [verifyBorder, request]
    rfl
  refine ⟨_, ?_, next, rfl⟩
  simp [step, ImageProcessor.process, hsized, verified, colors, bind, Except.bind, pure,
    Except.pure, Except.map]

theorem Idle.not_along (build : Build) {s : ImageProcessor} (idle : s.Idle)
    (pending : s.borderProcessor.Pending) {image : Image α} {b : BlackBorder}
    (complete : image.Complete) (found : s.borderProcessor.imageBorder image = .ok b)
    (differs : (s.borderProcessor.currentBorder == b) = false)
    (large : ¬ (2 * b.mapBorders.2 < image.width ∧ 2 * b.mapBorders.1 < image.height))
    (n : Nat) (frames : s.borderProcessor.framesUntil b = n) :
    ¬ Along (step build) (BordersFit build) s (List.replicate n (.process image)) := by
  induction n generalizing s with
  | zero =>
    cases framesUntil_step pending differs with
    | inl switch => omega
    | inr wait => omega
  | succ n ih =>
    intro along
    rw [List.replicate_succ] at along
    cases framesUntil_step pending differs with
    | inl switch =>
      obtain ⟨sized, map, hsized, sizedIdle, same, _⟩ := idle.setSize build complete
      have request := sizedIdle.requestedBorders image (by rw [same]; exact found)
      rw [same, updateBorder_switches switch.1] at request
      exact large (along.1 image sized _ _ rfl hsized request)
    | inr wait =>
      obtain ⟨t, ok, next, processor⟩ := idle.process build complete found wait.1
      obtain ⟨_, stays⟩ := updateBorder_of_not_due wait.1
      obtain ⟨_, _, _, _, frame⟩ := updateBorder_frame s.borderProcessor b
      refine ih next ?_ ?_ ?_ ?_ (along.2 t ok)
      · rw [processor]
        exact pending.updateBorder b
      · rw [processor, frame]
        exact found
      · rw [processor, stays]
        exact differs
      · rw [processor]
        omega

theorem exists_unfit_run (build : Build) {config : BlackBorderConfig} {width height : Nat}
    (hw : 0 < width) (hh : 0 < height) (size : width * height + 1 < 2 ^ 32)
    (large : ¬ BlurFits config width height) :
    ∃ (image : Image α) (n : Nat), image.Complete ∧ image.width = width ∧
      image.height = height ∧ ¬ Along (step build) (BordersFit build) (create [] config)
        (.enableBlackBorderDetector true :: List.replicate n (.process image)) := by
  have some : (BlackBorderDetector.create config.threshold).largestBorder config.mode width
      height ≠ (0, 0) := by
    intro none
    apply large
    unfold BlurFits
    rw [none]
    exact ⟨by simpa [enlarge] using hw, by simpa [enlarge] using hh⟩
  have third := (BlackBorderDetector.create config.threshold).largestBorder_le config.mode
    width height
  obtain ⟨image, complete, rfl, rfl, detected⟩ :=
    BlackBorderDetector.exists_largest α config.mode hw hh size some
  unfold BlurFits at large
  generalize (BlackBorderDetector.create config.threshold).largestBorder config.mode image.width
    image.height = largest at detected large third
  have wide := complete.width_lt
  have high := complete.height_lt
  have blur := config.blurRemoveCnt_lt
  have borders := mapBorders_addBlur (show largest.1 + config.blurRemoveCnt < 2 ^ 32 by omega)
    (show largest.2 + config.blurRemoveCnt < 2 ^ 32 by omega)
  generalize hb : (⟨false, largest.1, largest.2⟩ : BlackBorder).addBlur config.blurRemoveCnt = b
    at borders
  have start : Idle ((create [] config).enableBlackBorderDetector true) :=
    ⟨rfl, rfl, rfl, fun map current => by cases current⟩
  have found : ((create [] config).enableBlackBorderDetector
      true).borderProcessor.imageBorder image = .ok b := map_eq_ok.mpr ⟨_, detected, hb⟩
  have known : b.unknown = false := by rw [← hb]; rfl
  have differs : ((⟨true, -1, -1⟩ : BlackBorder) == b) = false := by
    apply Bool.eq_false_iff.mpr
    intro same
    have kinds := BlackBorder.unknown_of_beq same
    rw [known] at kinds
    exact absurd kinds (by decide)
  refine ⟨image, ((create [] config).enableBlackBorderDetector
    true).borderProcessor.framesUntil b, complete, rfl, rfl, fun along => ?_⟩
  refine start.not_along build (Or.inl rfl) complete found differs ?_ _ rfl
    (along.2 _ rfl)
  rw [borders]
  exact large

/-- The borders fit in every run over real images of the given sizes exactly
when the blur fits every one of these sizes. -/
theorem borders_fit_iff (build : Build) (config : BlackBorderConfig) (sizes : Nat → Nat → Prop) :
    (∀ (leds : List Led) (calls : List (ImageProcessorCall α)),
      (∀ call ∈ calls, CallWithin sizes call) →
      Along (step build) (BordersFit build) (create leds config) calls) ↔
    ∀ width height, sizes width height → 0 < width → 0 < height → width * height + 1 < 2 ^ 32 →
      BlurFits config width height := by
  constructor
  · intro fit width height size hw hh representable
    by_contra large
    obtain ⟨image, n, complete, rfl, rfl, unfit⟩ :=
      exists_unfit_run (α := α) build hw hh representable large
    refine unfit (fit [] _ fun call hcall => ?_)
    cases List.mem_cons.mp hcall with
    | inl toggle =>
      intro other process
      rw [toggle] at process
      cases process
    | inr frame =>
      intro other process
      rw [List.eq_of_mem_replicate frame] at process
      cases process
      exact ⟨complete, size⟩
  · intro fits leds calls within
    refine along_of_forall (J := fun s => Configured config s.borderProcessor)
      (R := CallWithin fun width height => BlurFits config width height)
      (fun s call t configured _ ok => configured_step configured ok)
      (fun s call configured within => bordersFit_of_blurFits configured within)
      (Configured.create config) fun call hcall image process => ?_
    obtain ⟨complete, size⟩ := within call hcall image process
    exact ⟨complete, fits _ _ size complete.width_pos complete.height_pos complete.size_lt⟩

/-- Ten blur pixels are too many for the border of 8 in a 30 x 30 image. -/
theorem borders_do_not_fit : ¬ Along (step ⟨true, 64, by decide⟩) (BordersFit ⟨true, 64, by decide⟩)
    (create [] { blurRemoveCnt := 10 })
    [.process (BlackBorderDetector.letterbox ColorRgb 30 30 8 8)] := by
  intro along
  have evaluated : returnsWith
      (setSize ⟨true, 64, by decide⟩ (create [] { blurRemoveCnt := 10 }) 30 30 >>=
        fun sized => sized.requestedBorders (BlackBorderDetector.letterbox ColorRgb 30 30 8 8))
      (fun request => request.2 == some (18, 18)) = true := by decide +kernel
  obtain ⟨request, hrequest, check⟩ := exists_of_returnsWith evaluated
  obtain ⟨sized, hsized, hborders⟩ := bind_eq_ok.mp hrequest
  obtain ⟨borderProcessor, borders⟩ := request
  rw [show borders = some (18, 18) from eq_of_beq check] at hborders
  have fits := along.1 _ sized borderProcessor (18, 18) rfl hsized hborders
  exact absurd fits (by decide)

end ImageProcessor

end HyperionNg
