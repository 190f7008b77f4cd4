import HyperionNg.ImageResampler
import HyperionNg.SchemaConformance

/-! The grabber of the X11 screen. The size of a grabbed picture is computed when
the screen has another size than before. The picture is scaled by XRender where
the server has it, and by the resampler otherwise. A division by zero is a fault;
sums of `int` are exact. -/

namespace HyperionNg

open Library.Execution

inductive GrabberFault
  | divisionByZero
  /-- the window attributes, before they were obtained once -/
  | indeterminate
  | resampler (fault : ImageFault)
deriving DecidableEq, Repr

/-- The size `XGetWindowAttributes` reports. -/
structure ScreenSize where
  width : Nat
  height : Nat
  width_pos : 0 < width
  height_pos : 0 < height
  width_lt : width < 2 ^ 31
  height_lt : height < 2 ^ 31

structure XImage where
  data : Int → UInt8
  bytesPerLine : Int

structure Composite where
  scale : ℚ
  srcX : Int
  srcY : Int
  width : Nat
  height : Nat
deriving DecidableEq

structure X11Grabber where
  useXGetImage : Bool
  cropLeft : Int
  cropRight : Int
  cropTop : Int
  cropBottom : Int
  horizontalDecimation : Int
  verticalDecimation : Int
  xRenderAvailable : Bool := false
  resampler : ImageResampler := {}
  windowAttr : Option ScreenSize := none
  screenWidth : Nat := 0
  screenHeight : Nat := 0
  croppedWidth : Nat := 0
  croppedHeight : Nat := 0
  composite : Option Composite := none
  image : Image ColorRgb := Image.ofSize 0 0

namespace X11Grabber

def setup (xRenderAvailable : Bool) (s : X11Grabber) : X11Grabber :=
  { s with
    xRenderAvailable
    resampler := { s.resampler with
      horizontalDecimation := if xRenderAvailable then 1 else s.horizontalDecimation
      verticalDecimation := if xRenderAvailable then 1 else s.verticalDecimation } }

/-- `grabberConfig[key].toInt(defaultValue)` -/
def intOf (grabberConfig : QJsonObject) (key : String) (defaultValue : Int) : Int :=
  ((grabberConfig.value key).getD .null).toInt defaultValue

/-- The grabber of `createGrabberX11`, with the crops of `createSystemFrameGrabber`. -/
def createGrabberX11 (xRenderAvailable : Bool) (grabberConfig : QJsonObject) : X11Grabber :=
  setup xRenderAvailable
    { useXGetImage := ((grabberConfig.value "useXGetImage").getD .null).toBool false
      cropLeft := intOf grabberConfig "cropLeft" 0
      cropRight := intOf grabberConfig "cropRight" 0
      cropTop := intOf grabberConfig "cropTop" 0
      cropBottom := intOf grabberConfig "cropBottom" 0
      horizontalDecimation := intOf grabberConfig "horizontalPixelDecimation" 8
      verticalDecimation := intOf grabberConfig "verticalPixelDecimation" 8 }

def divide (a b : Int) : Except GrabberFault Int :=
  if b = 0 then .error .divisionByZero else .ok (a.tdiv b)

/-- An `unsigned` divided by an `int`, which is converted. -/
def divideUnsigned (a : Nat) (b : Int) : Except GrabberFault Nat :=
  if unsigned b = 0 then .error .divisionByZero else .ok (a / unsigned b)

def divideDouble (a b : ℚ) : Except GrabberFault ℚ :=
  if b = 0 then .error .divisionByZero else .ok (a / b)

def usesXRender (s : X11Grabber) : Bool := s.xRenderAvailable && !s.useXGetImage

def inner (screen : Nat) (first last : Int) : Nat :=
  if unsigned (first + last) < screen then unsigned (screen - first - last) else screen

def cropped (s : X11Grabber) (screen : Nat) (first last decimation : Int) :
    Except GrabberFault Nat :=
  if s.usesXRender then divideUnsigned (inner screen first last) decimation
  else .ok (inner screen first last)

def updateScreenDimensions (fresh : Nat → ColorRgb) (s : X11Grabber) :
    Option ScreenSize → Except GrabberFault (Int × X11Grabber)
  | none => .ok (-1, s)
  | some size =>
    let s := { s with windowAttr := some size }
    if s.screenWidth = size.width ∧ s.screenHeight = size.height then .ok (0, s)
    else do
      let s := { s with screenWidth := size.width, screenHeight := size.height }
      let croppedWidth ← s.cropped s.screenWidth s.cropLeft s.cropRight s.horizontalDecimation
      let croppedHeight ← s.cropped s.screenHeight s.cropTop s.cropBottom s.verticalDecimation
      pure (1, { s with
        croppedWidth, croppedHeight, image := s.image.resize fresh croppedWidth croppedHeight })

def compose (s : X11Grabber) : Except GrabberFault Composite :=
  match s.windowAttr with
  | none => .error .indeterminate
  | some attr => do
    let scaleX ← divideDouble (← divide attr.width s.horizontalDecimation) attr.width
    let scaleY ← divideDouble (← divide attr.height s.verticalDecimation) attr.height
    let srcX ← divide s.cropLeft s.horizontalDecimation
    let srcY ← divide s.cropTop s.verticalDecimation
    pure
      { scale := min scaleY scaleX, srcX, srcY
        width := s.croppedWidth, height := s.croppedHeight }

def composed (s : X11Grabber) : Except GrabberFault (Option Composite) :=
  if s.usesXRender then s.compose.map some else .ok s.composite

def resample (fresh : Nat → ColorRgb) (s : X11Grabber) (xImage : XImage)
    (image : Image ColorRgb) : Except GrabberFault (Image ColorRgb) :=
  if s.resampler.horizontalDecimation = 0 ∨ s.resampler.verticalDecimation = 0 then
    .error .divisionByZero
  else (s.resampler.processImage fresh xImage.data s.croppedWidth s.croppedHeight
    xImage.bytesPerLine .bgr32 image).mapError .resampler

def deliver (fresh : Nat → ColorRgb) (s : X11Grabber) (captured : Option XImage)
    (image : Image ColorRgb) : Except GrabberFault (Int × X11Grabber × Image ColorRgb) :=
  match captured with
  | none => .ok (-1, s, image)
  | some xImage => do
    let image ← s.resample fresh xImage image
    pure (0, s, image)

def grabFrame (fresh : Nat → ColorRgb) (s : X11Grabber) (captured : Option XImage)
    (image : Image ColorRgb) : Except GrabberFault (Int × X11Grabber × Image ColorRgb) := do
  let composite ← s.composed
  deliver fresh { s with composite } captured image

def grab (fresh : Nat → ColorRgb) (s : X11Grabber) (reply : Option ScreenSize)
    (captured : Option XImage) : Except GrabberFault X11Grabber := do
  let (_, s) ← s.updateScreenDimensions fresh reply
  let (_, s, image) ← s.grabFrame fresh captured s.image
  pure { s with image }

def setVideoMode (s : X11Grabber) (videoMode : VideoMode) : X11Grabber :=
  { s with resampler := { s.resampler with videoMode } }

inductive Op
  | updateScreenDimensions (reply : Option ScreenSize)
  | grab (reply : Option ScreenSize) (captured : Option XImage)
  | grabFrame (captured : Option XImage) (image : Image ColorRgb)
  | setVideoMode (videoMode : VideoMode)

def Op.reply : Op → Option ScreenSize
  | .updateScreenDimensions reply => reply
  | .grab reply _ => reply
  | .grabFrame _ _ => none
  | .setVideoMode _ => none

def Op.captures : Op → Bool
  | .updateScreenDimensions _ => false
  | .grab _ captured => captured.isSome
  | .grabFrame captured _ => captured.isSome
  | .setVideoMode _ => false

def step (fresh : Nat → ColorRgb) (s : X11Grabber) : Op → Except GrabberFault X11Grabber
  | .updateScreenDimensions reply => Prod.snd <$> s.updateScreenDimensions fresh reply
  | .grab reply captured => s.grab fresh reply captured
  | .grabFrame captured image => (fun result => result.2.1) <$> s.grabFrame fresh captured image
  | .setVideoMode videoMode => .ok (s.setVideoMode videoMode)

end X11Grabber

end HyperionNg
