import HyperionNg.X11Grabber

/-! The sizes the X11 grabber computes. With XRender the grabbed picture has at
least one pixel, and nothing is divided by zero, exactly when each decimation is
at least 1 and at most what the crops leave of the screen; the configuration
schema asks for neither. -/

namespace HyperionNg

open Library.Execution QJsonSchemaChecker

def whole (bound : ℚ) : Schema := [.minimum bound, .type .integer]

/-- The properties of the member `framegrabber`, without what the checker ignores. -/
def framegrabberProperties : List (String × Schema) :=
  [("cropBottom", whole 0), ("cropLeft", whole 0), ("cropRight", whole 0), ("cropTop", whole 0),
    ("device", [.type .string]), ("display", whole 0), ("enable", [.type .boolean]),
    ("frequency_Hz", whole 1), ("height", whole 10), ("horizontalPixelDecimation", whole 0),
    ("priority", [.maximum 253, .minimum 100, .type .integer]),
    ("type", [.enum (["auto", "dispmanx", "amlogic", "x11", "framebuffer"].map Json.string),
      .type .string]),
    ("useXGetImage", [.type .boolean]), ("verticalPixelDecimation", whole 0), ("width", whole 10)]

def framegrabberSchema : Schema :=
  [.additionalProperties false, .properties framegrabberProperties, .type .object]

theorem PropertiesHold.of_mem {r : Reading} {members : List (String × Schema)}
    {object : QJsonObject} (holds : PropertiesHold r members object) {property : String}
    {schema : Schema} (mem : (property, schema) ∈ members) {member : Json}
    (found : object.value property = some member) : schema.Holds r member := by
  induction members with
  | nil => cases mem
  | cons first rest ih =>
    obtain ⟨here, later⟩ := holds
    cases List.mem_cons.mp mem with
    | inl same =>
      subst same
      exact here member found
    | inr other => exact ih later other

namespace X11Grabber

theorem intOf_range {r : Rendering} {grabberConfig : QJsonObject}
    (accepted : validate r (schemaToObject framegrabberSchema) grabberConfig false = true)
    {key : String} (declared : (key, whole 0) ∈ framegrabberProperties)
    {defaultValue : Int} (low : 0 ≤ defaultValue) (high : defaultValue < 2 ^ 31) :
    0 ≤ intOf grabberConfig key defaultValue ∧ intOf grabberConfig key defaultValue < 2 ^ 31 := by
  obtain ⟨-, ⟨-, properties⟩, -⟩ := (validate_iff r _ grabberConfig).mp accepted
  unfold intOf
  cases found : grabberConfig.value key with
  | none => exact ⟨low, high⟩
  | some member =>
    obtain ⟨⟨d, rfl, nonneg⟩, -⟩ := properties.of_mem declared found
    simp only [Option.getD_some, Json.toInt]
    split_ifs with fits
    · exact ⟨Rat.num_nonneg.mpr nonneg, fits.2.2⟩
    · exact ⟨low, high⟩

private theorem divide_of_ne {a b : Int} (some : b ≠ 0) : divide a b = .ok (a.tdiv b) := if_neg some

structure Configured (s : X11Grabber) : Prop where
  cropLeft : 0 ≤ s.cropLeft ∧ s.cropLeft < 2 ^ 31
  cropRight : 0 ≤ s.cropRight ∧ s.cropRight < 2 ^ 31
  cropTop : 0 ≤ s.cropTop ∧ s.cropTop < 2 ^ 31
  cropBottom : 0 ≤ s.cropBottom ∧ s.cropBottom < 2 ^ 31
  horizontalDecimation : 0 ≤ s.horizontalDecimation ∧ s.horizontalDecimation < 2 ^ 31
  verticalDecimation : 0 ≤ s.verticalDecimation ∧ s.verticalDecimation < 2 ^ 31

theorem createGrabberX11_configured {r : Rendering} {grabberConfig : QJsonObject}
    (accepted : validate r (schemaToObject framegrabberSchema) grabberConfig false = true)
    (xRenderAvailable : Bool) : (createGrabberX11 xRenderAvailable grabberConfig).Configured where
  cropLeft := intOf_range accepted (by simp [framegrabberProperties]) (by norm_num) (by norm_num)
  cropRight := intOf_range accepted (by simp [framegrabberProperties]) (by norm_num) (by norm_num)
  cropTop := intOf_range accepted (by simp [framegrabberProperties]) (by norm_num) (by norm_num)
  cropBottom := intOf_range accepted (by simp [framegrabberProperties]) (by norm_num) (by norm_num)
  horizontalDecimation :=
    intOf_range accepted (by simp [framegrabberProperties]) (by norm_num) (by norm_num)
  verticalDecimation :=
    intOf_range accepted (by simp [framegrabberProperties]) (by norm_num) (by norm_num)

def remaining (screen : Nat) (first last : Int) : Int :=
  if first + last < screen then screen - first - last else screen

private theorem inner_eq {screen : Nat} {first last : Int} (lt : screen < 2 ^ 31)
    (hfirst : 0 ≤ first ∧ first < 2 ^ 31) (hlast : 0 ≤ last ∧ last < 2 ^ 31) :
    (inner screen first last : Int) = remaining screen first last := by
  unfold inner remaining unsigned
  split_ifs <;> omega

theorem remaining_le (screen : Nat) {first last : Int} (hfirst : 0 ≤ first) (hlast : 0 ≤ last) :
    remaining screen first last ≤ screen := by
  unfold remaining
  split_ifs <;> omega

theorem cropped_within_iff {s : X11Grabber} {screen : Nat} {first last decimation : Int}
    (pos : 0 < screen) (lt : screen < 2 ^ 31) (hfirst : 0 ≤ first ∧ first < 2 ^ 31)
    (hlast : 0 ≤ last ∧ last < 2 ^ 31) (hdecimation : 0 ≤ decimation ∧ decimation < 2 ^ 31) :
    (∃ side, s.cropped screen first last decimation = .ok side ∧ 1 ≤ side ∧ side ≤ screen) ↔
      (s.usesXRender = true → 0 < decimation ∧ decimation ≤ remaining screen first last) := by
  have same := inner_eq lt hfirst hlast
  have bound := remaining_le screen hfirst.1 hlast.1
  have some : 0 < remaining screen first last := by
    unfold remaining
    split_ifs <;> omega
  unfold cropped
  cases used : s.usesXRender with
  | false => exact iff_of_true ⟨_, rfl, by omega, by omega⟩ (by simp)
  | true =>
    have converted : (unsigned decimation : Int) = decimation := by
      unfold unsigned
      omega
    simp only [if_true, true_imp_iff, divideUnsigned]
    split_ifs with zero
    · exact iff_of_false (by simp) (by omega)
    · constructor
      · rintro ⟨side, ok, one, -⟩
        rw [← Except.ok.inj ok, Nat.one_le_div_iff (by omega)] at one
        omega
      · rintro ⟨-, fits⟩
        refine ⟨_, rfl, (Nat.one_le_div_iff (by omega)).mpr (by omega), ?_⟩
        exact (Nat.div_le_self _ _).trans (by omega)

def sizes (s : X11Grabber) (size : ScreenSize) : Except GrabberFault (Nat × Nat) := do
  let croppedWidth ← s.cropped size.width s.cropLeft s.cropRight s.horizontalDecimation
  let croppedHeight ← s.cropped size.height s.cropTop s.cropBottom s.verticalDecimation
  pure (croppedWidth, croppedHeight)

theorem sizes_eq_ok {s : X11Grabber} {size : ScreenSize} {width height : Nat} :
    s.sizes size = .ok (width, height) ↔
      s.cropped size.width s.cropLeft s.cropRight s.horizontalDecimation = .ok width ∧
      s.cropped size.height s.cropTop s.cropBottom s.verticalDecimation = .ok height := by
  constructor
  · intro ok
    obtain ⟨w, wide, rest⟩ := bind_ok.mp ok
    obtain ⟨h, high, done⟩ := bind_ok.mp rest
    obtain ⟨rfl, rfl⟩ := Prod.mk.inj (Except.ok.inj done)
    exact ⟨wide, high⟩
  · rintro ⟨wide, high⟩
    exact bind_ok.mpr ⟨width, wide, bind_ok.mpr ⟨height, high, rfl⟩⟩

structure Computed (s : X11Grabber) : Prop extends Configured s where
  horizontal : s.resampler.horizontalDecimation =
    if s.xRenderAvailable then 1 else s.horizontalDecimation
  vertical : s.resampler.verticalDecimation =
    if s.xRenderAvailable then 1 else s.verticalDecimation
  unset : s.windowAttr = none → s.screenWidth = 0
  sized : ∀ attr ∈ s.windowAttr, s.screenWidth = attr.width ∧ s.screenHeight = attr.height ∧
    s.sizes attr = .ok (s.croppedWidth, s.croppedHeight)

theorem createGrabberX11_computed {r : Rendering} {grabberConfig : QJsonObject}
    (accepted : validate r (schemaToObject framegrabberSchema) grabberConfig false = true)
    (xRenderAvailable : Bool) : (createGrabberX11 xRenderAvailable grabberConfig).Computed where
  toConfigured := createGrabberX11_configured accepted xRenderAvailable
  horizontal := rfl
  vertical := rfl
  unset _ := rfl
  sized attr held := by cases held

variable {fresh : Nat → ColorRgb} {s t : X11Grabber}

def afterUpdate (s : X11Grabber) (size : ScreenSize) (croppedWidth croppedHeight : Nat)
    (image : Image ColorRgb) : X11Grabber :=
  { s with
    windowAttr := some size, screenWidth := size.width, screenHeight := size.height
    croppedWidth, croppedHeight, image }

theorem Computed.afterUpdate (computed : s.Computed) {size : ScreenSize} {width height : Nat}
    (ok : s.sizes size = .ok (width, height)) (image : Image ColorRgb) :
    (s.afterUpdate size width height image).Computed where
  toConfigured := ⟨computed.cropLeft, computed.cropRight, computed.cropTop, computed.cropBottom,
    computed.horizontalDecimation, computed.verticalDecimation⟩
  horizontal := computed.horizontal
  vertical := computed.vertical
  unset none := by cases none
  sized attr held := by
    cases held
    exact ⟨rfl, rfl, ok⟩

theorem Computed.sizes_of_same (computed : s.Computed) {size : ScreenSize}
    (same : s.screenWidth = size.width ∧ s.screenHeight = size.height) :
    s.sizes size = .ok (s.croppedWidth, s.croppedHeight) := by
  cases held : s.windowAttr with
  | none =>
    have zero := computed.unset held
    have pos := size.width_pos
    omega
  | some attr =>
    obtain ⟨wide, high, before⟩ := computed.sized attr held
    obtain rfl : attr = size := by
      cases attr
      cases size
      simp only [ScreenSize.mk.injEq]
      exact ⟨wide.symm.trans same.1, high.symm.trans same.2⟩
    exact before

theorem updateScreenDimensions_of_changed {size : ScreenSize}
    (changed : ¬ (s.screenWidth = size.width ∧ s.screenHeight = size.height)) :
    s.updateScreenDimensions fresh (some size) = (s.sizes size).map fun side =>
      (1, s.afterUpdate size side.1 side.2 (s.image.resize fresh side.1 side.2)) := by
  refine (if_neg changed).trans ?_
  change s.cropped size.width s.cropLeft s.cropRight s.horizontalDecimation >>= (fun width =>
    s.cropped size.height s.cropTop s.cropBottom s.verticalDecimation >>= fun height =>
      pure (1, s.afterUpdate size width height (s.image.resize fresh width height))) = _
  unfold sizes
  cases s.cropped size.width s.cropLeft s.cropRight s.horizontalDecimation with
  | error fault => rfl
  | ok width =>
    cases s.cropped size.height s.cropTop s.cropBottom s.verticalDecimation with
    | error fault => rfl
    | ok height => rfl

theorem updateScreenDimensions_of_ok (fresh : Nat → ColorRgb) (computed : s.Computed)
    {size : ScreenSize} {width height : Nat} (ok : s.sizes size = .ok (width, height)) :
    ∃ code image, s.updateScreenDimensions fresh (some size) =
      .ok (code, s.afterUpdate size width height image) := by
  by_cases same : s.screenWidth = size.width ∧ s.screenHeight = size.height
  · obtain ⟨rfl, rfl⟩ := Prod.mk.inj (Except.ok.inj ((computed.sizes_of_same same).symm.trans ok))
    refine ⟨0, s.image, (if_pos same).trans ?_⟩
    rw [X11Grabber.afterUpdate, ← same.1, ← same.2]
  · rw [updateScreenDimensions_of_changed same, ok]
    exact ⟨1, _, rfl⟩

private theorem cropped_eq_error {screen : Nat} {first last decimation : Int} {fault : GrabberFault}
    (error : s.cropped screen first last decimation = .error fault) : fault = .divisionByZero := by
  unfold cropped divideUnsigned at error
  split_ifs at error
  exact (Except.error.inj error).symm

theorem sizes_eq_error {size : ScreenSize} {fault : GrabberFault}
    (error : s.sizes size = .error fault) : fault = .divisionByZero := by
  unfold sizes at error
  cases wide : s.cropped size.width s.cropLeft s.cropRight s.horizontalDecimation with
  | error other =>
    rw [wide] at error
    exact (Except.error.inj error).symm.trans (cropped_eq_error wide)
  | ok width =>
    rw [wide, ok_bind] at error
    cases high : s.cropped size.height s.cropTop s.cropBottom s.verticalDecimation with
    | error other =>
      rw [high] at error
      exact (Except.error.inj error).symm.trans (cropped_eq_error high)
    | ok height =>
      rw [high] at error
      cases error

theorem updateScreenDimensions_of_error (fresh : Nat → ColorRgb) (computed : s.Computed)
    {size : ScreenSize} {fault : GrabberFault} (error : s.sizes size = .error fault) :
    s.updateScreenDimensions fresh (some size) = .error .divisionByZero := by
  have changed : ¬ (s.screenWidth = size.width ∧ s.screenHeight = size.height) := fun same =>
    absurd ((computed.sizes_of_same same).symm.trans error) (by simp)
  rw [updateScreenDimensions_of_changed changed, error, sizes_eq_error error]
  rfl

def SizesWithin (fresh : Nat → ColorRgb) (s : X11Grabber) (size : ScreenSize) : Prop :=
  ∃ code t, s.updateScreenDimensions fresh (some size) = .ok (code, t) ∧
    (1 ≤ t.croppedWidth ∧ t.croppedWidth ≤ size.width) ∧
    (1 ≤ t.croppedHeight ∧ t.croppedHeight ≤ size.height)

def DecimationsFit (s : X11Grabber) (size : ScreenSize) : Prop :=
  (0 < s.horizontalDecimation ∧
    s.horizontalDecimation ≤ remaining size.width s.cropLeft s.cropRight) ∧
  (0 < s.verticalDecimation ∧
    s.verticalDecimation ≤ remaining size.height s.cropTop s.cropBottom)

theorem sizesWithin_iff (computed : s.Computed) (size : ScreenSize) :
    s.SizesWithin fresh size ↔ (s.usesXRender = true → s.DecimationsFit size) := by
  have wide := cropped_within_iff (s := s) size.width_pos size.width_lt computed.cropLeft
    computed.cropRight computed.horizontalDecimation
  have high := cropped_within_iff (s := s) size.height_pos size.height_lt computed.cropTop
    computed.cropBottom computed.verticalDecimation
  rw [DecimationsFit, imp_and, ← wide, ← high]
  constructor
  · rintro ⟨code, t, ok, widthWithin, heightWithin⟩
    cases both : s.sizes size with
    | error fault =>
      have fault := updateScreenDimensions_of_error fresh computed both
      exact absurd (ok.symm.trans fault) (by simp)
    | ok side =>
      obtain ⟨width, height⟩ := side
      obtain ⟨code', image, ok'⟩ := updateScreenDimensions_of_ok fresh computed both
      obtain ⟨-, rfl⟩ := Prod.mk.inj (Except.ok.inj (ok.symm.trans ok'))
      obtain ⟨w, h⟩ := sizes_eq_ok.mp both
      exact ⟨⟨width, w, widthWithin⟩, height, h, heightWithin⟩
  · rintro ⟨⟨width, w, widthWithin⟩, height, h, heightWithin⟩
    obtain ⟨code, image, ok⟩ :=
      updateScreenDimensions_of_ok fresh computed (sizes_eq_ok.mpr ⟨w, h⟩)
    exact ⟨code, _, ok, widthWithin, heightWithin⟩

private theorem decimation_ne_zero (used : s.usesXRender = true) {screen side : Nat}
    {first last decimation : Int} (ok : s.cropped screen first last decimation = .ok side) :
    decimation ≠ 0 := by
  rintro rfl
  rw [cropped, if_pos used] at ok
  exact absurd ok (by simp [divideUnsigned, unsigned])

theorem compose_divides (computed : s.Computed) (used : s.usesXRender = true) :
    s.compose ≠ .error .divisionByZero := by
  unfold compose
  cases held : s.windowAttr with
  | none => simp
  | some attr =>
    obtain ⟨-, -, ok⟩ := computed.sized attr held
    obtain ⟨wide, high⟩ := sizes_eq_ok.mp ok
    have horizontal := decimation_ne_zero used wide
    have vertical := decimation_ne_zero used high
    have width : (attr.width : ℚ) ≠ 0 := Nat.cast_ne_zero.mpr attr.width_pos.ne'
    have height : (attr.height : ℚ) ≠ 0 := Nat.cast_ne_zero.mpr attr.height_pos.ne'
    simp only [divide_of_ne horizontal, divide_of_ne vertical, ok_bind]
    simp [divideDouble, width, height, bind, Except.bind, pure, Except.pure]

theorem resample_divides_iff (computed : s.Computed) (xImage : XImage) (image : Image ColorRgb) :
    s.resample fresh xImage image = .error .divisionByZero ↔
      s.xRenderAvailable = false ∧ (s.horizontalDecimation = 0 ∨ s.verticalDecimation = 0) := by
  unfold resample
  rw [computed.horizontal, computed.vertical]
  cases available : s.xRenderAvailable with
  | true =>
    simp only [if_true, one_ne_zero, or_self, if_false]
    cases s.resampler.processImage fresh xImage.data s.croppedWidth s.croppedHeight
      xImage.bytesPerLine .bgr32 image <;> simp [Except.mapError]
  | false =>
    simp only [Bool.false_eq_true, if_false, true_and]
    split_ifs with zero
    · exact iff_of_true rfl zero
    · refine iff_of_false ?_ zero
      cases s.resampler.processImage fresh xImage.data s.croppedWidth s.croppedHeight
        xImage.bytesPerLine .bgr32 image <;> simp [Except.mapError]

theorem Computed.frame (computed : s.Computed) (videoMode : VideoMode)
    (composite : Option Composite) (image : Image ColorRgb) :
    Computed { s with resampler := { s.resampler with videoMode }, composite, image } where
  toConfigured := ⟨computed.cropLeft, computed.cropRight, computed.cropTop, computed.cropBottom,
    computed.horizontalDecimation, computed.verticalDecimation⟩
  horizontal := computed.horizontal
  vertical := computed.vertical
  unset := computed.unset
  sized := computed.sized

theorem deliver_divides_iff (fresh : Nat → ColorRgb) (computed : s.Computed)
    (captured : Option XImage) (image : Image ColorRgb) :
    s.deliver fresh captured image = .error .divisionByZero ↔
      captured.isSome = true ∧ s.xRenderAvailable = false ∧
        (s.horizontalDecimation = 0 ∨ s.verticalDecimation = 0) := by
  cases captured with
  | none => simp [deliver]
  | some xImage =>
    rw [Option.isSome_some, eq_self, true_and, ← resample_divides_iff computed xImage image]
    simp only [deliver]
    cases s.resample fresh xImage image <;> simp [bind, Except.bind, pure, Except.pure]

theorem grabFrame_divides_iff (fresh : Nat → ColorRgb) (computed : s.Computed)
    (captured : Option XImage) (image : Image ColorRgb) :
    s.grabFrame fresh captured image = .error .divisionByZero ↔
      captured.isSome = true ∧ s.xRenderAvailable = false ∧
        (s.horizontalDecimation = 0 ∨ s.verticalDecimation = 0) := by
  have delivered := fun composite =>
    deliver_divides_iff fresh (computed.frame s.resampler.videoMode composite s.image) captured
      image
  unfold grabFrame composed
  split_ifs with used
  · have safe := compose_divides computed used
    cases drawn : s.compose with
    | error fault =>
      have available : s.xRenderAvailable = true := (Bool.and_eq_true_iff.mp used).1
      rw [drawn] at safe
      rw [available]
      exact iff_of_false (fun fault => safe (congrArg Except.error (Except.error.inj fault)))
        (by simp)
    | ok composite => exact delivered (some composite)
  · exact delivered s.composite

theorem grabFrame_state {captured : Option XImage} {image out : Image ColorRgb} {code : Int}
    (ok : s.grabFrame fresh captured image = .ok (code, t, out)) :
    ∃ composite, t = { s with composite } := by
  obtain ⟨composite, -, delivered⟩ := bind_ok.mp ok
  refine ⟨composite, ?_⟩
  cases captured with
  | none => exact (Prod.mk.inj (Prod.mk.inj (Except.ok.inj delivered)).2).1.symm
  | some xImage =>
    obtain ⟨scaled, -, done⟩ := bind_ok.mp delivered
    exact (Prod.mk.inj (Prod.mk.inj (Except.ok.inj done)).2).1.symm

theorem updateScreenDimensions_state (computed : s.Computed) {reply : Option ScreenSize}
    {code : Int} (ok : s.updateScreenDimensions fresh reply = .ok (code, t)) :
    t = s ∨ ∃ size width height image, s.sizes size = .ok (width, height) ∧
      t = s.afterUpdate size width height image := by
  cases reply with
  | none => exact Or.inl (Prod.mk.inj (Except.ok.inj ok)).2.symm
  | some size =>
    cases both : s.sizes size with
    | error fault =>
      have fault := updateScreenDimensions_of_error fresh computed both
      exact absurd (ok.symm.trans fault) (by simp)
    | ok side =>
      obtain ⟨code', image, ok'⟩ := updateScreenDimensions_of_ok fresh computed both
      have same := (Prod.mk.inj (Except.ok.inj (ok.symm.trans ok'))).2
      exact Or.inr ⟨size, side.1, side.2, image, both, same⟩

theorem updateScreenDimensions_computed (computed : s.Computed) {reply : Option ScreenSize}
    {code : Int} (ok : s.updateScreenDimensions fresh reply = .ok (code, t)) : t.Computed := by
  obtain rfl | ⟨size, width, height, image, both, rfl⟩ := updateScreenDimensions_state computed ok
  · exact computed
  · exact computed.afterUpdate both image

theorem grab_divides_iff (computed : s.Computed) (reply : Option ScreenSize)
    (captured : Option XImage) : s.grab fresh reply captured = .error .divisionByZero ↔
      s.updateScreenDimensions fresh reply = .error .divisionByZero ∨
      (∃ update, s.updateScreenDimensions fresh reply = .ok update) ∧
        captured.isSome = true ∧ s.xRenderAvailable = false ∧
        (s.horizontalDecimation = 0 ∨ s.verticalDecimation = 0) := by
  unfold grab
  cases updated : s.updateScreenDimensions fresh reply with
  | error fault => simp [bind, Except.bind]
  | ok update =>
    obtain ⟨code, t⟩ := update
    have grabbed := grabFrame_divides_iff fresh
      (updateScreenDimensions_computed computed updated) captured t.image
    have frame : t.xRenderAvailable = s.xRenderAvailable ∧
        t.horizontalDecimation = s.horizontalDecimation ∧
        t.verticalDecimation = s.verticalDecimation := by
      obtain rfl | ⟨size, width, height, image, both, rfl⟩ :=
        updateScreenDimensions_state computed updated
      · exact ⟨rfl, rfl, rfl⟩
      · exact ⟨rfl, rfl, rfl⟩
    rw [frame.1, frame.2.1, frame.2.2] at grabbed
    rw [← grabbed]
    change t.grabFrame fresh captured t.image >>= _ = _ ↔ _
    cases t.grabFrame fresh captured t.image <;> simp [bind, Except.bind, pure, Except.pure]

theorem step_computed (computed : s.Computed) {op : Op} (ok : s.step fresh op = .ok t) :
    t.Computed := by
  cases op with
  | updateScreenDimensions reply =>
    obtain ⟨⟨code, u⟩, updated, rfl⟩ := map_eq_ok.mp ok
    exact updateScreenDimensions_computed computed updated
  | grab reply captured =>
    obtain ⟨⟨code, u⟩, updated, rest⟩ := bind_ok.mp ok
    obtain ⟨⟨code', v, image⟩, grabbed, done⟩ := bind_ok.mp rest
    obtain ⟨composite, rfl⟩ := grabFrame_state grabbed
    cases done
    exact (updateScreenDimensions_computed computed updated).frame u.resampler.videoMode composite
      image
  | grabFrame captured image =>
    obtain ⟨⟨code, u, out⟩, grabbed, rfl⟩ := map_eq_ok.mp ok
    obtain ⟨composite, rfl⟩ := grabFrame_state grabbed
    exact computed.frame s.resampler.videoMode composite s.image
  | setVideoMode videoMode =>
    cases ok
    exact computed.frame videoMode s.composite s.image

/-- A call divides nothing by zero, and gives a picture within the screen it is
told, of at least one pixel. -/
def Sound (fresh : Nat → ColorRgb) (s : X11Grabber) (op : Op) : Prop :=
  s.step fresh op ≠ .error .divisionByZero ∧ ∀ size ∈ op.reply, s.SizesWithin fresh size

/-- With XRender the decimations fit the screen; where there is none, the
resampler is not given a zero. -/
def Fits (s : X11Grabber) (op : Op) : Prop :=
  (∀ size ∈ op.reply, s.usesXRender = true → s.DecimationsFit size) ∧
    (op.captures = true → s.xRenderAvailable = false →
      s.horizontalDecimation ≠ 0 ∧ s.verticalDecimation ≠ 0)

theorem step_divides_iff (computed : s.Computed) {op : Op}
    (within : ∀ size ∈ op.reply, s.SizesWithin fresh size) :
    s.step fresh op = .error .divisionByZero ↔
      op.captures = true ∧ s.xRenderAvailable = false ∧
        (s.horizontalDecimation = 0 ∨ s.verticalDecimation = 0) := by
  have updates : ∃ update, s.updateScreenDimensions fresh op.reply = .ok update := by
    cases told : op.reply with
    | none => exact ⟨_, rfl⟩
    | some size =>
      obtain ⟨code, t, ok, -⟩ := within size told
      exact ⟨_, ok⟩
  cases op with
  | updateScreenDimensions reply =>
    obtain ⟨update, ok⟩ := updates
    refine iff_of_false ?_ (by simp [Op.captures])
    change Prod.snd <$> s.updateScreenDimensions fresh reply ≠ _
    rw [show s.updateScreenDimensions fresh reply = .ok update from ok]
    simp [Functor.map, Except.map]
  | grab reply captured =>
    have safe : s.updateScreenDimensions fresh reply ≠ .error .divisionByZero := by
      obtain ⟨update, ok⟩ := updates
      rw [show s.updateScreenDimensions fresh reply = .ok update from ok]
      simp
    refine (grab_divides_iff computed reply captured).trans ?_
    rw [or_iff_right safe]
    exact and_iff_right updates
  | grabFrame captured image =>
    refine Iff.trans ?_ (grabFrame_divides_iff fresh computed captured image)
    change (fun result => result.2.1) <$> s.grabFrame fresh captured image = _ ↔ _
    cases s.grabFrame fresh captured image <;> simp [Functor.map, Except.map]
  | setVideoMode videoMode => exact iff_of_false (by simp [step]) (by simp [Op.captures])

theorem sound_iff_fits (computed : s.Computed) (op : Op) : s.Sound fresh op ↔ s.Fits op := by
  have sizes : (∀ size ∈ op.reply, s.SizesWithin fresh size) ↔
      ∀ size ∈ op.reply, s.usesXRender = true → s.DecimationsFit size :=
    forall_congr' fun size => imp_congr_right fun _ => sizesWithin_iff computed size
  rw [Sound, Fits, and_comm, ← sizes]
  refine and_congr_right fun within => ?_
  rw [Ne, step_divides_iff computed within]
  tauto

/-- Along a run under an accepted configuration every call is sound exactly when
the decimations fit all screens, or are not used. -/
theorem sizes_sound_iff {r : Rendering} {grabberConfig : QJsonObject}
    (accepted : validate r (schemaToObject framegrabberSchema) grabberConfig false = true)
    (xRenderAvailable : Bool) (fresh : Nat → ColorRgb) (ops : List Op) :
    Along (step fresh) (Sound fresh) (createGrabberX11 xRenderAvailable grabberConfig) ops ↔
      Along (step fresh) Fits (createGrabberX11 xRenderAvailable grabberConfig) ops :=
  along_congr (I := Computed) (fun _ _ _ computed ok => step_computed computed ok)
    (fun _ op computed => sound_iff_fits computed op)
    (createGrabberX11_computed accepted xRenderAvailable)

instance (s : X11Grabber) (op : Op) : Decidable (s.Fits op) :=
  inferInstanceAs (Decidable ((∀ size ∈ op.reply, s.usesXRender = true →
    (0 < s.horizontalDecimation ∧
      s.horizontalDecimation ≤ remaining size.width s.cropLeft s.cropRight) ∧
    (0 < s.verticalDecimation ∧
      s.verticalDecimation ≤ remaining size.height s.cropTop s.cropBottom)) ∧ _))

def sampleConfig : QJsonObject :=
  [("cropLeft", .double 1), ("horizontalPixelDecimation", .double 2),
    ("verticalPixelDecimation", .double 2)]

def sampleScreen : ScreenSize := ⟨5, 4, by decide, by decide, by decide, by decide⟩

def largerScreen : ScreenSize := ⟨7, 6, by decide, by decide, by decide, by decide⟩

theorem sizes_sound_resized :
    Along (step fun _ => ColorRgb.black) (Sound fun _ => ColorRgb.black)
      (createGrabberX11 true sampleConfig)
      [.updateScreenDimensions (some sampleScreen),
        .grab (some largerScreen) (some ⟨fun _ => 0, 12⟩), .grab none none] := by
  refine (sizes_sound_iff (r := .blank) (by decide +kernel) true _ _).mpr ?_
  have checked : checksAlong (step fun _ => ColorRgb.black) (fun s op => decide (s.Fits op))
      (createGrabberX11 true sampleConfig)
      [.updateScreenDimensions (some sampleScreen),
        .grab (some largerScreen) (some ⟨fun _ => 0, 12⟩), .grab none none] = true := by
    decide +kernel
  exact along_of_checks checked fun _ _ _ h => of_decide_eq_true h

/-- The schema accepts a decimation of 0, which divides by zero; and the default
of 8 leaves nothing of a small screen. -/
theorem sizes_not_sound :
    (validate .blank (schemaToObject framegrabberSchema)
        [("horizontalPixelDecimation", .double 0)] false = true ∧
      ¬ Along (step fun _ => ColorRgb.black) (Sound fun _ => ColorRgb.black)
        (createGrabberX11 true [("horizontalPixelDecimation", .double 0)])
        [.updateScreenDimensions (some sampleScreen)]) ∧
    (validate .blank (schemaToObject framegrabberSchema) [] false = true ∧
      ¬ Along (step fun _ => ColorRgb.black) (Sound fun _ => ColorRgb.black)
        (createGrabberX11 true []) [.updateScreenDimensions (some sampleScreen)]) := by
  have zero : validate .blank (schemaToObject framegrabberSchema)
      [("horizontalPixelDecimation", .double 0)] false = true := by decide +kernel
  have empty : validate .blank (schemaToObject framegrabberSchema) [] false = true := by
    decide +kernel
  refine ⟨⟨zero, fun sound => ?_⟩, empty, fun sound => ?_⟩
  · have fits := (sound_iff_fits (createGrabberX11_computed zero true) _).mp sound.1
    exact absurd fits (by decide +kernel)
  · have fits := (sound_iff_fits (createGrabberX11_computed empty true) _).mp sound.1
    exact absurd fits (by decide +kernel)

end X11Grabber

end HyperionNg
