import HyperionNg.ImageProcessor
import HyperionNg.LedRegions

/-! The image commands of the two servers. Both compare the size of the data
with `width*height*3` in `int`; an accepted message is an image that can be
processed only if both sizes are positive and the product does not overflow. -/

namespace HyperionNg

open Library Execution

/-- `memcpy` into the pixels: three bytes a pixel, the rest stays. -/
def overlay : List ColorRgb → List UInt8 → List ColorRgb
  | pixels, [] => pixels
  | [], _ => []
  | p :: pixels, [red] => { p with red } :: pixels
  | p :: pixels, [red, green] => { p with red, green } :: pixels
  | _ :: pixels, red :: green :: blue :: bytes => ⟨red, green, blue⟩ :: overlay pixels bytes

@[simp] theorem overlay_length (pixels : List ColorRgb) (bytes : List UInt8) :
    (overlay pixels bytes).length = pixels.length := by
  fun_induction overlay pixels bytes <;> simp_all

def Image.memcpy (image : Image ColorRgb) (bytes : List UInt8) :
    Except ImageFault (Image ColorRgb) :=
  if 3 * image.pixels.length < bytes.length then .error .outsideBuffer
  else .ok { image with pixels := overlay image.pixels bytes }

/-- A byte string of a message; its container counts in `int`. -/
structure ImageData where
  bytes : List UInt8
  length_lt : bytes.length < 2 ^ 31

structure ImageMessage where
  priority : Int
  duration : Option Int
  imagewidth : Int
  imageheight : Int
  imagedata : ImageData

inductive ImageReply
  | success
  | error (message : String)
deriving DecidableEq

inductive HyperionRequest
  | setColors (priority : Int) (ledColors : List ColorRgb) (duration : Int)
  | setImage (priority : Int) (image : Image ColorRgb) (duration : Int)

/-- `Size of image data does not match with the width and height` -/
def sizeError : ImageReply := .error "Size of image data does not match with the width and height"

/-- The part the two handlers share: size, buffer, colours. -/
def processImage (build : Build) (s : ImageProcessor) (width height : Int) (data : ImageData) :
    Except ImageFault (Image ColorRgb × List ColorRgb × ImageProcessor) := do
  let s ← s.setSize build (unsigned width) (unsigned height)
  let image ← (Image.ofSize (unsigned width) (unsigned height)).memcpy data.bytes
  let (ledColors, s) ← s.process build image
  pure (image, ledColors, s)

namespace JsonClientConnection

/-- `data.size() != width*height*3`, negated -/
def sizeMatches (width height : Int) (data : ImageData) : Bool :=
  (data.bytes.length : Int) == signed (width * height * 3)

def handleImageCommand (build : Build) (s : ImageProcessor) (m : ImageMessage) :
    Except ImageFault (ImageReply × ImageProcessor × List HyperionRequest) := do
  if sizeMatches m.imagewidth m.imageheight m.imagedata then
    let (_, ledColors, s) ← processImage build s m.imagewidth m.imageheight m.imagedata
    pure (.success, s, [.setColors m.priority ledColors (m.duration.getD (-1))])
  else pure (sizeError, s, [])

end JsonClientConnection

namespace ProtoClientConnection

/-- `(int) imageData.size() != width*height*3`, negated -/
def sizeMatches (width height : Int) (data : ImageData) : Bool :=
  signed data.bytes.length == signed (width * height * 3)

def handleImageCommand (build : Build) (s : ImageProcessor) (m : ImageMessage) :
    Except ImageFault (ImageReply × ImageProcessor × List HyperionRequest) := do
  if sizeMatches m.imagewidth m.imageheight m.imagedata then
    let (image, ledColors, s) ← processImage build s m.imagewidth m.imageheight m.imagedata
    pure (.success, s, [.setColors m.priority ledColors (m.duration.getD (-1)),
      .setImage m.priority image (m.duration.getD (-1))])
  else pure (sizeError, s, [])

end ProtoClientConnection

inductive ImageServer
  | json
  | proto
deriving DecidableEq

namespace ImageServer

def sizeMatches : ImageServer → Int → Int → ImageData → Bool
  | .json => JsonClientConnection.sizeMatches
  | .proto => ProtoClientConnection.sizeMatches

def handleImageCommand : ImageServer → Build → ImageProcessor → ImageMessage →
    Except ImageFault (ImageReply × ImageProcessor × List HyperionRequest)
  | .json => JsonClientConnection.handleImageCommand
  | .proto => ProtoClientConnection.handleImageCommand

end ImageServer

theorem signed_of_lt {value : Int} (ge : -2 ^ 31 ≤ value) (lt : value < 2 ^ 31) :
    signed value = value := by
  apply Int.bmod_eq_of_le
  · have half : ((2 ^ 32 : Nat) : Int) / 2 = 2 ^ 31 := by decide
    omega
  · have half : ((2 ^ 32 : Nat) + 1 : Int) / 2 = 2 ^ 31 := by decide
    omega

theorem ImageServer.sizeMatches_iff (server : ImageServer) (width height : Int)
    (data : ImageData) : server.sizeMatches width height data = true ↔
      (data.bytes.length : Int) = signed (width * height * 3) := by
  cases server with
  | json => simp [sizeMatches, JsonClientConnection.sizeMatches]
  | proto =>
    have size := data.length_lt
    simp [sizeMatches, ProtoClientConnection.sizeMatches,
      signed_of_lt (show -2 ^ 31 ≤ (data.bytes.length : Int) by omega) (by omega)]

theorem ImageServer.handleImageCommand_rejects (server : ImageServer) (build : Build)
    (s : ImageProcessor) (m : ImageMessage)
    (fails : server.sizeMatches m.imagewidth m.imageheight m.imagedata = false) :
    server.handleImageCommand build s m = .ok (sizeError, s, []) := by
  cases server with
  | json =>
    have differs : JsonClientConnection.sizeMatches m.imagewidth m.imageheight m.imagedata =
        false := fails
    simp [handleImageCommand, JsonClientConnection.handleImageCommand, differs, pure, Except.pure]
  | proto =>
    have differs : ProtoClientConnection.sizeMatches m.imagewidth m.imageheight m.imagedata =
        false := fails
    simp [handleImageCommand, ProtoClientConnection.handleImageCommand, differs, pure, Except.pure]

/-- The picture alone, without the spare pixel of the buffer. -/
def Image.picture {α : Type} (image : Image α) : Image α :=
  { image with pixels := image.pixels.take (image.width * image.height) }

/-- What the size check is meant to establish: a nonempty picture of exactly
the data, for which every map with fitting borders is built and both means
return while they read the picture alone. -/
structure ImageAccepted (build : Build) (width height : Int) (data : ImageData) : Prop where
  width_pos : 1 ≤ width
  height_pos : 1 ≤ height
  size_eq : (data.bytes.length : Int) = 3 * width * height
  processed : ∀ (leds : List Led) (horizontalBorder verticalBorder : Nat),
    (∀ led ∈ leds, led.Valid) → 2 * (verticalBorder : Int) < width →
    2 * (horizontalBorder : Int) < height →
    ∃ image map multi uni,
      (Image.ofSize (unsigned width) (unsigned height)).memcpy data.bytes = .ok image ∧
      ImageToLedsMap.create build image.width image.height horizontalBorder verticalBorder leds =
        .ok map ∧
      map.getMeanLedColor build image.picture = .ok multi ∧
      map.getUniLedColor build image.picture = .ok uni

namespace ImageToLedsMap

variable {α : Type} [Pixel α] (build : Build)

theorem calcMeanColor_exists (image : Image α) {indices : List Nat}
    (readable : ∀ i ∈ indices, i < image.pixels.length) :
    ∃ color, calcMeanColor build image indices = .ok color := by
  by_cases none : indices = []
  · rw [none]
    exact ⟨_, calcMeanColor_nil build image⟩
  · obtain ⟨_, _, _, computed⟩ := calcMeanColor_returns build image readable none
    exact ⟨_, computed⟩

theorem getMeanLedColor_returns (map : ImageToLedsMap) (image : Image α)
    (readable : ∀ indices ∈ map.colorsMap, ∀ i ∈ indices, i < image.pixels.length) :
    ∃ colors, map.getMeanLedColor build image = .ok colors := by
  obtain ⟨colors, computed, _⟩ := exists_mapM fun indices hindices =>
    calcMeanColor_exists build image (readable indices hindices)
  refine ⟨colors ++ (List.replicate map.colorsMap.length ⟨0, 0, 0⟩).drop colors.length, ?_⟩
  simp [getMeanLedColor, getMeanLedColorInto, Build.assert, computed, bind, Except.bind, pure,
    Except.pure]

theorem getUniLedColor_returns (map : ImageToLedsMap) (image : Image α)
    (some : 0 < image.width * image.height) (size : image.width * image.height < 2 ^ 32)
    (whole : image.width * image.height ≤ image.pixels.length) :
    ∃ colors, map.getUniLedColor build image = .ok colors := by
  obtain ⟨pixels, read, length, _⟩ := exists_mapM (l := List.range (image.width * image.height))
    fun i hi => image.exists_read (lt_of_lt_of_le (List.mem_range.mp hi) whole)
  have nonempty : pixels.length ≠ 0 := by
    rw [length, List.length_range]
    omega
  have imageSize : unsigned ((image.width * image.height : Nat) : Int) =
      image.width * image.height := unsigned_of_lt size
  have mean : ∃ color, calcMeanColorOfImage build image = .ok color := by
    refine ⟨⟨average build Pixel.red pixels, average build Pixel.green pixels,
      average build Pixel.blue pixels⟩, ?_⟩
    unfold calcMeanColorOfImage
    rw [imageSize]
    simp [read, meanOf, nonempty, bind, Except.bind]
  obtain ⟨color, computed⟩ := mean
  refine ⟨List.replicate map.colorsMap.length color, ?_⟩
  simp [getUniLedColor, getUniLedColorInto, Build.assert, computed, bind, Except.bind, pure,
    Except.pure]

end ImageToLedsMap

theorem Image.memcpy_ofSize {width height : Nat} {bytes : List UInt8}
    (size : width * height + 1 < 2 ^ 32) (length : bytes.length = 3 * (width * height)) :
    ∃ image : Image ColorRgb, (Image.ofSize width height).memcpy bytes = .ok image ∧
      image.width = width ∧ image.height = height ∧
      image.pixels.length = width * height + 1 := by
  have buffer : unsigned ((width * height + 1 : Nat) : Int) = width * height + 1 :=
    unsigned_of_lt size
  have enough : ¬ 3 * (List.replicate (width * height + 1) (⟨0, 0, 0⟩ : ColorRgb)).length <
      bytes.length := by
    rw [List.length_replicate]
    omega
  refine ⟨⟨width, height, overlay (List.replicate (width * height + 1) ⟨0, 0, 0⟩) bytes⟩, ?_,
    rfl, rfl, by simp⟩
  unfold Image.memcpy Image.ofSize
  rw [buffer]
  exact if_neg enough

theorem exists_processed (build : Build) {width height : Nat} {bytes : List UInt8}
    (size : width * height + 1 < 2 ^ 32) (length : bytes.length = 3 * (width * height))
    {leds : List Led} (valid : ∀ led ∈ leds, led.Valid) {horizontalBorder verticalBorder : Nat}
    (vertical : 2 * verticalBorder < width) (horizontal : 2 * horizontalBorder < height) :
    ∃ image map multi uni, (Image.ofSize width height).memcpy bytes = .ok image ∧
      ImageToLedsMap.create build image.width image.height horizontalBorder verticalBorder leds =
        .ok map ∧
      map.getMeanLedColor build image.picture = .ok multi ∧
      map.getUniLedColor build image.picture = .ok uni := by
  have wide := Nat.le_mul_of_pos_right width (show 0 < height by omega)
  have high := Nat.le_mul_of_pos_left height (show 0 < width by omega)
  have some : 0 < width * height := Nat.mul_pos (by omega) (by omega)
  obtain ⟨image, copied, rfl, rfl, buffer⟩ := Image.memcpy_ofSize size length
  have created := ImageToLedsMap.create_of_fits build (show image.width < 2 ^ 32 by omega)
    (show image.height < 2 ^ 32 by omega) vertical horizontal leds
  generalize hmap : (⟨image.width, image.height, horizontalBorder, verticalBorder,
    leds.map (ImageToLedsMap.ledColors image.width verticalBorder
      (image.width - 2 * verticalBorder) horizontalBorder
      (image.height - 2 * horizontalBorder))⟩ : ImageToLedsMap) = map at created
  have taken : image.picture.pixels.length = image.width * image.height := by
    simp [Image.picture, buffer]
  have indices : ImageToLedsMap.IndicesFit image.width image.height horizontalBorder
      verticalBorder := by
    have last := Image.index_lt (show image.width - verticalBorder - 1 < image.width by omega)
      (show image.height - horizontalBorder - 1 < image.height by omega)
    unfold ImageToLedsMap.IndicesFit
    omega
  have readable : ∀ list ∈ map.colorsMap, ∀ i ∈ list, i < image.picture.pixels.length := by
    intro list hlist i hi
    rw [← hmap] at hlist
    obtain ⟨led, hled, rfl⟩ := List.mem_map.mp hlist
    rw [taken]
    exact ImageToLedsMap.ledColors_lt (by omega) (by omega) vertical horizontal indices
      (valid led hled) i hi
  obtain ⟨multi, hmulti⟩ := ImageToLedsMap.getMeanLedColor_returns build map image.picture readable
  obtain ⟨uni, huni⟩ := ImageToLedsMap.getUniLedColor_returns build map image.picture some
    (show image.width * image.height < 2 ^ 32 by omega) (le_of_eq taken.symm)
  exact ⟨image, map, multi, uni, copied, created, hmulti, huni⟩

/-- An accepted message is a picture that can be processed exactly when both
sizes are positive and `width*height*3` is an `int`. -/
theorem imageAccepted_iff (build : Build) (server : ImageServer) (width height : Int)
    (data : ImageData) (accepted : server.sizeMatches width height data = true) :
    ImageAccepted build width height data ↔
      1 ≤ width ∧ 1 ≤ height ∧ 3 * width * height < 2 ^ 31 := by
  constructor
  · intro image
    have size := image.size_eq
    have bound := data.length_lt
    exact ⟨image.width_pos, image.height_pos, by omega⟩
  · intro sizes
    obtain ⟨hw, hh, product⟩ := sizes
    obtain ⟨w, rfl⟩ := Int.eq_ofNat_of_zero_le (show 0 ≤ width by omega)
    obtain ⟨h, rfl⟩ := Int.eq_ofNat_of_zero_le (show 0 ≤ height by omega)
    have pixels : 3 * (w : Int) * h = ((3 * (w * h) : Nat) : Int) := by push_cast; ring
    have bytes : (w : Int) * h * 3 = ((3 * (w * h) : Nat) : Int) := by push_cast; ring
    rw [pixels] at product
    have length := (server.sizeMatches_iff w h data).mp accepted
    rw [bytes, signed_of_lt (by omega) (by omega)] at length
    have length : data.bytes.length = 3 * (w * h) := by omega
    have wide := Nat.le_mul_of_pos_right w (show 0 < h by omega)
    have high := Nat.le_mul_of_pos_left h (show 0 < w by omega)
    have widthUnsigned : unsigned (w : Int) = w := unsigned_of_lt (by omega)
    have heightUnsigned : unsigned (h : Int) = h := unsigned_of_lt (by omega)
    refine ⟨hw, hh, ?_, ?_⟩
    · rw [pixels, length]
    · intro leds horizontalBorder verticalBorder valid vertical horizontal
      rw [widthUnsigned, heightUnsigned]
      exact exists_processed build (by omega) length valid (by omega) (by omega)

theorem imageAccepted_2x1 : ImageAccepted ⟨true, 64, by decide⟩ 2 1
    ⟨[1, 2, 3, 4, 5, 6], by decide⟩ :=
  (imageAccepted_iff ⟨true, 64, by decide⟩ .json 2 1 ⟨[1, 2, 3, 4, 5, 6], by decide⟩
    (by decide)).mpr (by decide)

/-- An empty image, and two negative sizes with three bytes of data. -/
theorem emptyImage_accepted :
    (ImageServer.json.sizeMatches 0 0 ⟨[], by decide⟩ = true ∧
      ¬ ImageAccepted ⟨true, 64, by decide⟩ 0 0 ⟨[], by decide⟩) ∧
    (ImageServer.proto.sizeMatches (-1) (-1) ⟨[1, 2, 3], by decide⟩ = true ∧
      ¬ ImageAccepted ⟨true, 64, by decide⟩ (-1) (-1) ⟨[1, 2, 3], by decide⟩) :=
  ⟨⟨by decide, fun image => absurd image.width_pos (by decide)⟩,
    ⟨by decide, fun image => absurd image.width_pos (by decide)⟩⟩

end HyperionNg
