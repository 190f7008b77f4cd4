import HyperionNg.Image
import HyperionNg.ProtoMessages
import HyperionNg.Library.Execution

/-! Scaling a captured frame down into an output image that is used again for
the next frame. The frame's memory is read without checks; every pixel written
is checked against the output buffer. `int` arithmetic is exact. -/

namespace HyperionNg

open Library.Execution

inductive PixelFormat
  | yuyv
  | uyvy
  | bgr16
  | bgr24
  | rgb32
  | bgr32
  | noChange
deriving DecidableEq, Repr

namespace Image

variable {α : Type}

/-- `_endOfPixels - _pixels`, as `resize` compares it. -/
def capacity (image : Image α) : Nat := unsigned ((image.pixels.length : Int) - 1)

/-- A buffer that is too small is replaced by a new one, which holds `fresh`. -/
def resize (fresh : Nat → α) (image : Image α) (width height : Nat) : Image α :=
  if unsigned (width * height : Nat) > image.capacity then
    ⟨width, height, (List.range (unsigned (unsigned (width * height : Nat) + 1 : Nat))).map fresh⟩
  else { image with width, height }

/-- `_pixels[index] = value` -/
def write (image : Image α) (index : Nat) (value : α) : Except ImageFault (Image α) :=
  if index < image.pixels.length then
    .ok { image with pixels := image.pixels.set index value }
  else .error .outsideBuffer

theorem capacity_eq {image : Image α} {length : Nat} (held : image.pixels.length = length + 1)
    (below : length < 2 ^ 32) : image.capacity = length := by
  have last : (image.pixels.length : Int) - 1 = (length : Nat) := by omega
  rw [capacity, last, unsigned_of_lt below]

end Image

/-- The size fits the buffer, and the buffer's length is an `unsigned`. The
constructors and `resize` make such images for every size below 2^32 - 1. -/
structure Image.Allocated {α : Type} (image : Image α) : Prop where
  width_lt : image.width < 2 ^ 32
  height_lt : image.height < 2 ^ 32
  fits : unsigned (image.width * image.height : Nat) < image.pixels.length
  length_lt : image.pixels.length < 2 ^ 32

theorem Image.ofSize_allocated {width height : Nat} (wide : width < 2 ^ 32)
    (high : height < 2 ^ 32) (small : width * height + 1 < 2 ^ 32) :
    (Image.ofSize width height : Image ColorRgb).Allocated := by
  have length : (Image.ofSize width height : Image ColorRgb).pixels.length =
      width * height + 1 := by
    rw [Image.ofSize, List.length_replicate, unsigned_of_lt small]
  refine ⟨wide, high, ?_, by omega⟩
  rw [length]
  change unsigned (width * height : Nat) < _
  rw [unsigned_of_lt (by omega)]
  omega

theorem Image.Allocated.resize {α : Type} {image : Image α} (prior : image.Allocated)
    (fresh : Nat → α) {width height : Nat} (wide : width < 2 ^ 32) (high : height < 2 ^ 32)
    (small : width * height + 1 < 2 ^ 32) : (image.resize fresh width height).Allocated := by
  have below := prior.length_lt
  have some := prior.fits
  obtain ⟨length, hlength⟩ : ∃ length, image.pixels.length = length + 1 :=
    Nat.exists_eq_succ_of_ne_zero (by omega)
  have size := unsigned_of_lt (show width * height < 2 ^ 32 by omega)
  rw [Image.resize, Image.capacity_eq hlength (by omega), size, unsigned_of_lt small]
  split_ifs with short
  · refine ⟨wide, high, ?_, ?_⟩
    · rw [List.length_map, List.length_range, size]
      omega
    · rwa [List.length_map, List.length_range]
  · exact ⟨wide, high, by rw [size]; simp only; omega, below⟩

structure ImageResampler where
  horizontalDecimation : Int := 1
  verticalDecimation : Int := 1
  cropLeft : Int := 0
  cropRight : Int := 0
  cropTop : Int := 0
  cropBottom : Int := 0
  videoMode : VideoMode := .video2D

namespace ImageResampler

def clamp (x : Int) : UInt8 := if x < 0 then 0 else if x > 255 then 255 else UInt8.ofInt x

def yuv2rgb (y u v : UInt8) : ColorRgb :=
  let c : Int := y.toNat - 16
  let d : Int := u.toNat - 128
  let e : Int := v.toNat - 128
  { red := clamp ((298 * c + 409 * e + 128) >>> (8 : Nat))
    green := clamp ((298 * c - 100 * d - 208 * e + 128) >>> (8 : Nat))
    blue := clamp ((298 * c + 516 * d + 128) >>> (8 : Nat)) }

/-- The colour at a source position. Nothing is written for `noChange`. -/
def sample (data : Int → UInt8) (lineLength xSource ySource : Int) : PixelFormat → Option ColorRgb
  | .uyvy =>
    let index := lineLength * ySource + xSource * 2
    let y := data (index + 1)
    let u := if xSource % 2 = 0 then data index else data (index - 2)
    let v := if xSource % 2 = 0 then data (index + 2) else data index
    some (yuv2rgb y u v)
  | .yuyv =>
    let index := lineLength * ySource + xSource * 2
    let y := data index
    let u := if xSource % 2 = 0 then data (index + 1) else data (index - 1)
    let v := if xSource % 2 = 0 then data (index + 3) else data (index + 1)
    some (yuv2rgb y u v)
  | .bgr16 =>
    let index := lineLength * ySource + xSource * 2
    some {
      blue := (data index &&& 0x1f) <<< 3
      green := (((data (index + 1) &&& 0x7) <<< 3) ||| ((data index &&& 0xE0) >>> 5)) <<< 2
      red := data (index + 1) &&& 0xF8 }
  | .bgr24 =>
    let index := lineLength * ySource + xSource * 3
    some { blue := data index, green := data (index + 1), red := data (index + 2) }
  | .rgb32 =>
    let index := lineLength * ySource + xSource * 4
    some { red := data index, green := data (index + 1), blue := data (index + 2) }
  | .bgr32 =>
    let index := lineLength * ySource + xSource * 4
    some { blue := data index, green := data (index + 1), red := data (index + 2) }
  | .noChange => none

/-- The 3D modes crop to the first of the two pictures. -/
def outputWidth (resampler : ImageResampler) (width : Int) : Int :=
  let cropRight :=
    if resampler.videoMode = .video3DSBS then width.tdiv 2 else resampler.cropRight
  (width - resampler.cropLeft - cropRight - resampler.horizontalDecimation.tdiv 2 +
    resampler.horizontalDecimation - 1).tdiv resampler.horizontalDecimation

def outputHeight (resampler : ImageResampler) (height : Int) : Int :=
  let cropBottom :=
    if resampler.videoMode = .video3DTAB then height.tdiv 2 else resampler.cropBottom
  (height - resampler.cropTop - cropBottom - resampler.verticalDecimation.tdiv 2 +
    resampler.verticalDecimation - 1).tdiv resampler.verticalDecimation

def resized (fresh : Nat → ColorRgb) (outputWidth outputHeight : Int)
    (outputImage : Image ColorRgb) : Image ColorRgb :=
  if outputImage.height ≠ unsigned outputHeight ∧ outputImage.width ≠ unsigned outputWidth then
    outputImage.resize fresh (unsigned outputWidth) (unsigned outputHeight)
  else outputImage

def writePixel (resampler : ImageResampler) (data : Int → UInt8) (lineLength : Int)
    (pixelFormat : PixelFormat) (yDest : Nat) (outputImage : Image ColorRgb) (xDest : Nat) :
    Except ImageFault (Image ColorRgb) :=
  let xSource := resampler.cropLeft + resampler.horizontalDecimation.tdiv 2 +
    xDest * resampler.horizontalDecimation
  let ySource := resampler.cropTop + resampler.verticalDecimation.tdiv 2 +
    yDest * resampler.verticalDecimation
  match sample data lineLength xSource ySource pixelFormat with
  | none => .ok outputImage
  | some rgb => outputImage.write (outputImage.toIndex xDest yDest) rgb

def writeRow (resampler : ImageResampler) (data : Int → UInt8) (lineLength : Int)
    (pixelFormat : PixelFormat) (outputWidth : Int) (outputImage : Image ColorRgb) (yDest : Nat) :
    Except ImageFault (Image ColorRgb) :=
  (List.range outputWidth.toNat).foldlM
    (writePixel resampler data lineLength pixelFormat yDest) outputImage

def processImage (fresh : Nat → ColorRgb) (resampler : ImageResampler) (data : Int → UInt8)
    (width height lineLength : Int) (pixelFormat : PixelFormat) (outputImage : Image ColorRgb) :
    Except ImageFault (Image ColorRgb) :=
  let outputWidth := resampler.outputWidth width
  let outputHeight := resampler.outputHeight height
  (List.range outputHeight.toNat).foldlM
    (writeRow resampler data lineLength pixelFormat outputWidth)
    (resized fresh outputWidth outputHeight outputImage)

def shape (image : Image ColorRgb) : Nat × Nat × Nat :=
  (image.width, image.height, image.pixels.length)

theorem write_shape {image out : Image ColorRgb} {index : Nat} {rgb : ColorRgb}
    (ok : image.write index rgb = .ok out) : shape out = shape image := by
  unfold Image.write at ok
  split_ifs at ok
  rw [← Except.ok.inj ok, shape, List.length_set, shape]

theorem write_returns_iff (image : Image ColorRgb) (index : Nat) (rgb : ColorRgb) :
    (∃ out, image.write index rgb = .ok out) ↔ index < image.pixels.length := by
  unfold Image.write
  split_ifs with inside
  · exact iff_of_true ⟨_, rfl⟩ inside
  · exact iff_of_false nofun inside

theorem sample_eq_none_iff (data : Int → UInt8) (lineLength xSource ySource : Int)
    (pixelFormat : PixelFormat) :
    sample data lineLength xSource ySource pixelFormat = none ↔ pixelFormat = .noChange := by
  cases pixelFormat <;> simp [sample]

section Loops

variable {resampler : ImageResampler} {data : Int → UInt8} {lineLength : Int}
  {pixelFormat : PixelFormat}

theorem writePixel_shape {yDest xDest : Nat} {image out : Image ColorRgb}
    (ok : writePixel resampler data lineLength pixelFormat yDest image xDest = .ok out) :
    shape out = shape image := by
  unfold writePixel at ok
  simp only at ok
  split at ok
  · rw [Except.ok.inj ok]
  · exact write_shape ok

def Inside (pixelFormat : PixelFormat) (yDest : Nat) (size : Nat × Nat × Nat)
    (xDest : Nat) : Prop :=
  pixelFormat = .noChange ∨ unsigned (yDest * size.1 + xDest : Nat) < size.2.2

theorem writePixel_returns_iff (yDest xDest : Nat) (image : Image ColorRgb) :
    (∃ out, writePixel resampler data lineLength pixelFormat yDest image xDest = .ok out) ↔
      Inside pixelFormat yDest (shape image) xDest := by
  unfold writePixel Inside
  simp only
  split
  · next none => exact iff_of_true ⟨_, rfl⟩ (Or.inl ((sample_eq_none_iff _ _ _ _ _).mp none))
  · next rgb some =>
    have writes : pixelFormat ≠ .noChange := fun same => by
      rw [(sample_eq_none_iff _ _ _ _ _).mpr same] at some
      exact absurd some nofun
    rw [write_returns_iff, or_iff_right writes]
    exact Iff.rfl

private theorem writeRow_shape {outputWidth : Int} {yDest : Nat} {image out : Image ColorRgb}
    (ok : writeRow resampler data lineLength pixelFormat outputWidth image yDest = .ok out) :
    shape out = shape image :=
  Reaches.invariant (I := fun now => shape now = shape image)
    (fun _ _ _ same ok => (writePixel_shape ok).trans same) ok rfl

theorem writeRow_returns_iff (outputWidth : Int) (yDest : Nat) (image : Image ColorRgb) :
    (∃ out, writeRow resampler data lineLength pixelFormat outputWidth image yDest = .ok out) ↔
      ∀ xDest ∈ List.range outputWidth.toNat, Inside pixelFormat yDest (shape image) xDest :=
  foldlM_returns_iff (fun _ _ _ ok => writePixel_shape ok)
    fun image xDest => writePixel_returns_iff yDest xDest image

variable {fresh : Nat → ColorRgb} {width height : Int}

private theorem processImage_shape {image out : Image ColorRgb}
    (ok : processImage fresh resampler data width height lineLength pixelFormat image = .ok out) :
    shape out =
      shape (resized fresh (resampler.outputWidth width) (resampler.outputHeight height) image) :=
  Reaches.invariant (I := fun now => shape now = shape (resized fresh _ _ image))
    (fun _ _ _ same ok => (writeRow_shape ok).trans same) ok rfl

theorem processImage_returns_iff (image : Image ColorRgb) :
    (∃ out, processImage fresh resampler data width height lineLength pixelFormat image =
        .ok out) ↔
      ∀ yDest ∈ List.range (resampler.outputHeight height).toNat,
        ∀ xDest ∈ List.range (resampler.outputWidth width).toNat, Inside pixelFormat yDest
          (shape (resized fresh (resampler.outputWidth width)
            (resampler.outputHeight height) image))
          xDest := by
  unfold processImage
  exact foldlM_returns_iff
    (Q := fun size yDest => ∀ xDest ∈ List.range (resampler.outputWidth width).toNat,
      Inside pixelFormat yDest size xDest)
    (fun _ _ _ ok => writeRow_shape ok) fun image yDest => writeRow_returns_iff _ yDest image

end Loops

/-- All positions of the output are inside a buffer that `unsigned` can index
exactly when it has as many pixels. -/
theorem inside_iff {width height length : Nat} (some : 0 < width) (below : length < 2 ^ 32) :
    (∀ y ∈ List.range height, ∀ x ∈ List.range width, unsigned (y * width + x : Nat) < length) ↔
      width * height ≤ length := by
  constructor
  · intro inside
    by_contra short
    -- the position of the first pixel behind the buffer
    have row : length / width < height := Nat.div_lt_of_lt_mul (by omega)
    have here := inside (length / width) (List.mem_range.mpr row) (length % width)
      (List.mem_range.mpr (Nat.mod_lt length some))
    rw [Nat.div_add_mod', unsigned_of_lt below] at here
    exact absurd here (lt_irrefl _)
  · intro enough y hy x hx
    have position := Image.index_lt (List.mem_range.mp hx) (List.mem_range.mp hy)
    rw [unsigned_of_lt (by omega)]
    omega

theorem all_inside_iff {pixelFormat : PixelFormat} {width height length : Nat} (some : 0 < width)
    (below : length < 2 ^ 32) :
    (∀ y ∈ List.range height, ∀ x ∈ List.range width,
        Inside pixelFormat y (width, height, length) x) ↔
      width * height ≤ length ∨ pixelFormat = .noChange := by
  by_cases writes : pixelFormat = .noChange
  · exact iff_of_true (fun _ _ _ _ => Or.inl writes) (Or.inr writes)
  · rw [or_iff_left writes, ← inside_iff some below]
    simp only [Inside, or_iff_right writes]

theorem fits_iff {size length : Nat} (fits : unsigned (size : Nat) < length)
    (below : length < 2 ^ 32) : size ≤ length ↔ size + 1 < 2 ^ 32 := by
  constructor
  · intro enough
    rw [unsigned_of_lt (by omega)] at fits
    omega
  · intro small
    rw [unsigned_of_lt (by omega)] at fits
    omega

theorem resize_fits_iff (fresh : Nat → ColorRgb) {image : Image ColorRgb} (prior : image.Allocated)
    (width height : Nat) : (image.resize fresh width height).pixels.length < 2 ^ 32 ∧
      (width * height ≤ (image.resize fresh width height).pixels.length ↔
        width * height + 1 < 2 ^ 32) := by
  have below := prior.length_lt
  have some := prior.fits
  obtain ⟨length, hlength⟩ : ∃ length, image.pixels.length = length + 1 :=
    Nat.exists_eq_succ_of_ne_zero (by omega)
  rw [Image.resize, Image.capacity_eq hlength (by omega)]
  split_ifs with short
  · have bound := unsigned_lt (unsigned (width * height : Nat) + 1 : Nat)
    simp only [List.length_map, List.length_range]
    refine ⟨bound, fun enough => ?_, fun small => ?_⟩
    · by_contra wraps
      have whole : width * height + 1 = 2 ^ 32 := by omega
      rw [unsigned_of_lt (show width * height < 2 ^ 32 by omega), whole] at enough
      have none : unsigned ((2 ^ 32 : Nat) : Int) = 0 := by decide
      omega
    · rw [unsigned_of_lt (show width * height < 2 ^ 32 by omega), unsigned_of_lt small]
      omega
  · have fits : unsigned (width * height : Nat) < image.pixels.length := by omega
    exact ⟨below, fits_iff fits below⟩

/-- The resizing leaves the computed size when both dimensions differed or none
did; the buffer then has room exactly when the size did not wrap. -/
theorem resized_iff (fresh : Nat → ColorRgb) {image : Image ColorRgb} (prior : image.Allocated)
    {w h : Nat} (wide : w < 2 ^ 31) (high : h < 2 ^ 31) :
    ((resized fresh w h image).width = w ∧ (resized fresh w h image).height = h ↔
        (image.width = w ↔ image.height = h)) ∧
      (resized fresh w h image).pixels.length < 2 ^ 32 ∧
      ((image.width = w ↔ image.height = h) →
        (w * h ≤ (resized fresh w h image).pixels.length ↔ w * h + 1 < 2 ^ 32)) := by
  rw [resized, unsigned_of_lt (by omega), unsigned_of_lt (by omega)]
  split_ifs with differ
  · obtain ⟨below, fits⟩ := resize_fits_iff fresh prior w h
    refine ⟨iff_of_true ?_ ?_, below, fun _ => fits⟩
    · unfold Image.resize
      split_ifs <;> exact ⟨rfl, rfl⟩
    · exact iff_of_false differ.2 differ.1
  · refine ⟨by tauto, prior.length_lt, fun agree => ?_⟩
    have same : image.width = w ∧ image.height = h := by tauto
    rw [← same.1, ← same.2]
    exact fits_iff prior.fits prior.length_lt

/-- The image comes out in the computed size, written inside its buffer,
exactly when both dimensions differed or none did, and the size did not wrap. -/
theorem processImage_sized_iff (fresh : Nat → ColorRgb) (resampler : ImageResampler)
    (data : Int → UInt8) {width height : Int} (lineLength : Int) (pixelFormat : PixelFormat)
    {image : Image ColorRgb} (prior : image.Allocated)
    (wide : 0 < resampler.outputWidth width ∧ resampler.outputWidth width < 2 ^ 31)
    (high : 0 < resampler.outputHeight height ∧ resampler.outputHeight height < 2 ^ 31) :
    (∃ out, processImage fresh resampler data width height lineLength pixelFormat image = .ok out ∧
        out.width = resampler.outputWidth width ∧ out.height = resampler.outputHeight height) ↔
      (image.width = resampler.outputWidth width ↔
          image.height = resampler.outputHeight height) ∧
        (resampler.outputWidth width * resampler.outputHeight height + 1 < 2 ^ 32 ∨
          pixelFormat = .noChange) := by
  have returns : (∃ out, processImage fresh resampler data width height lineLength pixelFormat
      image = .ok out) ↔ _ := processImage_returns_iff image
  have shapes : ∀ out, processImage fresh resampler data width height lineLength pixelFormat
      image = .ok out → shape out = _ := fun out ok => processImage_shape ok
  obtain ⟨w, hw⟩ := Int.eq_ofNat_of_zero_le wide.1.le
  obtain ⟨h, hh⟩ := Int.eq_ofNat_of_zero_le high.1.le
  rw [hw] at wide returns shapes ⊢
  rw [hh] at high returns shapes ⊢
  obtain ⟨sized, below, room⟩ := resized_iff fresh prior (show w < 2 ^ 31 by omega)
    (show h < 2 ^ 31 by omega)
  rw [Int.toNat_natCast, Int.toNat_natCast] at returns
  rw [Int.natCast_inj, Int.natCast_inj]
  have product : (w * h : Int) + 1 < 2 ^ 32 ↔ w * h + 1 < 2 ^ 32 := by omega
  have positions (kept : (resized fresh w h image).width = w ∧
      (resized fresh w h image).height = h) : shape (resized fresh w h image) =
        (w, h, (resized fresh w h image).pixels.length) := by
    rw [shape, kept.1, kept.2]
  constructor
  · rintro ⟨out, ok, outWide, outHigh⟩
    obtain ⟨sameWidth, rest⟩ := Prod.mk.inj (shapes out ok)
    have kept := And.intro (sameWidth.symm.trans (Int.natCast_inj.mp outWide))
      ((Prod.mk.inj rest).1.symm.trans (Int.natCast_inj.mp outHigh))
    have agree := sized.mp kept
    have inside := returns.mp ⟨out, ok⟩
    rw [positions kept, all_inside_iff (by omega) below, room agree] at inside
    exact ⟨agree, inside.imp_left product.mpr⟩
  · rintro ⟨agree, small⟩
    have kept := sized.mpr agree
    rw [positions kept, all_inside_iff (by omega) below, room agree] at returns
    obtain ⟨out, ok⟩ := returns.mpr (small.imp_left product.mp)
    obtain ⟨sameWidth, rest⟩ := Prod.mk.inj (shapes out ok)
    exact ⟨out, ok, by rw [sameWidth, kept.1], by rw [(Prod.mk.inj rest).1, kept.2]⟩

/-- The image of a 2x2 picture takes a frame of the same height and twice the
width: only one dimension differs, so it is not resized. -/
theorem wider_frame_written_outside :
    processImage (fun _ => .black) {} (fun _ => 0) 4 2 16 .bgr32 (.ofSize 2 2) =
        .error .outsideBuffer ∧
      outputWidth {} 4 = 4 ∧ outputHeight {} 2 = 2 := by
  refine ⟨by rfl, by decide, by decide⟩

theorem processImage_sized_4_by_3 : ∃ out,
    processImage (fun _ => .black) {} (fun _ => 0) 4 3 16 .bgr32 (.ofSize 2 2) = .ok out ∧
      out.width = outputWidth {} 4 ∧ out.height = outputHeight {} 3 :=
  (processImage_sized_iff (fun _ => .black) {} (fun _ => 0) 16 .bgr32
    (Image.ofSize_allocated (by decide) (by decide) (by decide)) (by decide) (by decide)).mpr
    (by decide)

end ImageResampler

end HyperionNg
