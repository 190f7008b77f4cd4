import HyperionNg.ImageResampler
import HyperionNg.Library.Packets

/-! Which bytes of a captured frame are read, and which of its pixels the output
image shows. A frame has so many bytes in each line, of which its pixels take the
first; the packed formats hold two pixels in four bytes. -/

namespace HyperionNg.ImageResampler

open Library

def bytesPerPixel : PixelFormat → Int
  | .yuyv => 2
  | .uyvy => 2
  | .bgr16 => 2
  | .bgr24 => 3
  | .rgb32 => 4
  | .bgr32 => 4
  | .noChange => 0

section Reads

variable (read : Int → Except ImageFault UInt8)

/-- `sample`, with the reads of the frame as calls. -/
def sampleWith (lineLength xSource ySource : Int) :
    PixelFormat → Except ImageFault (Option ColorRgb)
  | .uyvy => do
    let index := lineLength * ySource + xSource * 2
    let y ← read (index + 1)
    let u ← if xSource % 2 = 0 then read index else read (index - 2)
    let v ← if xSource % 2 = 0 then read (index + 2) else read index
    pure (some (yuv2rgb y u v))
  | .yuyv => do
    let index := lineLength * ySource + xSource * 2
    let y ← read index
    let u ← if xSource % 2 = 0 then read (index + 1) else read (index - 1)
    let v ← if xSource % 2 = 0 then read (index + 3) else read (index + 1)
    pure (some (yuv2rgb y u v))
  | .bgr16 => do
    let index := lineLength * ySource + xSource * 2
    let low ← read index
    let high ← read (index + 1)
    pure (some {
      blue := (low &&& 0x1f) <<< 3
      green := (((high &&& 0x7) <<< 3) ||| ((low &&& 0xE0) >>> 5)) <<< 2
      red := high &&& 0xF8 })
  | .bgr24 => do
    let index := lineLength * ySource + xSource * 3
    pure (some { blue := ← read index, green := ← read (index + 1), red := ← read (index + 2) })
  | .rgb32 => do
    let index := lineLength * ySource + xSource * 4
    pure (some { red := ← read index, green := ← read (index + 1), blue := ← read (index + 2) })
  | .bgr32 => do
    let index := lineLength * ySource + xSource * 4
    pure (some { blue := ← read index, green := ← read (index + 1), red := ← read (index + 2) })
  | .noChange => pure none

variable (resampler : ImageResampler)

/-- The source column of a column of the output. -/
def column (xDest : Nat) : Int :=
  resampler.cropLeft + resampler.horizontalDecimation.tdiv 2 +
    xDest * resampler.horizontalDecimation

def row (yDest : Nat) : Int :=
  resampler.cropTop + resampler.verticalDecimation.tdiv 2 + yDest * resampler.verticalDecimation

def writePixelWith (lineLength : Int) (pixelFormat : PixelFormat) (yDest : Nat)
    (outputImage : Image ColorRgb) (xDest : Nat) : Except ImageFault (Image ColorRgb) := do
  match ← sampleWith read lineLength (resampler.column xDest) (resampler.row yDest) pixelFormat with
  | none => pure outputImage
  | some rgb => outputImage.write (outputImage.toIndex xDest yDest) rgb

/-- `processImage`, with the reads of the frame as calls. -/
def processImageWith (fresh : Nat → ColorRgb) (width height lineLength : Int)
    (pixelFormat : PixelFormat) (outputImage : Image ColorRgb) :
    Except ImageFault (Image ColorRgb) :=
  let outputWidth := resampler.outputWidth width
  let outputHeight := resampler.outputHeight height
  (List.range outputHeight.toNat).foldlM
    (fun outputImage yDest => (List.range outputWidth.toNat).foldlM
      (writePixelWith read resampler lineLength pixelFormat yDest) outputImage)
    (resized fresh outputWidth outputHeight outputImage)

end Reads

def rightEnd (resampler : ImageResampler) (width : Int) : Int :=
  width - if resampler.videoMode = .video3DSBS then width.tdiv 2 else resampler.cropRight

def bottomEnd (resampler : ImageResampler) (height : Int) : Int :=
  height - if resampler.videoMode = .video3DTAB then height.tdiv 2 else resampler.cropBottom

/-- A frame whose lines hold their pixels, in whole pairs where they are packed. -/
structure Lines (pixelFormat : PixelFormat) (width lineLength : Int) : Prop where
  long : width * bytesPerPixel pixelFormat ≤ lineLength
  even : pixelFormat = .yuyv ∨ pixelFormat = .uyvy → width % 2 = 0

/-- `data[index]`, where there is such a byte. -/
def readInside (data : Int → UInt8) (length index : Int) : Except ImageFault UInt8 :=
  if 0 ≤ index ∧ index < length then .ok (data index) else .error .outsideBuffer

theorem sampleWith_eq {read : Int → Except ImageFault UInt8} {data : Int → UInt8}
    {pixelFormat : PixelFormat} {width height lineLength x y : Int}
    (answers : ∀ i, 0 ≤ i → i < lineLength * height → read i = .ok (data i))
    (lines : Lines pixelFormat width lineLength) (hx : 0 ≤ x ∧ x < width)
    (hy : 0 ≤ y ∧ y < height) :
    sampleWith read lineLength x y pixelFormat = .ok (sample data lineLength x y pixelFormat) := by
  obtain ⟨long, even⟩ := lines
  have positive : 0 ≤ lineLength := by
    refine le_trans (mul_nonneg (by omega) ?_) long
    cases pixelFormat <;> decide
  have first : 0 ≤ lineLength * y := mul_nonneg positive hy.1
  have last : lineLength * y + lineLength ≤ lineLength * height := by
    calc lineLength * y + lineLength = lineLength * (y + 1) := by ring
      _ ≤ lineLength * height := mul_le_mul_of_nonneg_left (by omega) positive
  have here : ∀ i, lineLength * y ≤ i → i < lineLength * y + lineLength → read i = .ok (data i) :=
    fun i low high => answers i (by omega) (by omega)
  cases pixelFormat with
  | uyvy =>
    have pairs := even (Or.inr rfl)
    simp only [bytesPerPixel] at long
    have luma := here (lineLength * y + x * 2 + 1) (by omega) (by omega)
    have own := here (lineLength * y + x * 2) (by omega) (by omega)
    simp only [sampleWith, sample]
    by_cases first : x % 2 = 0
    · have v := here (lineLength * y + x * 2 + 2) (by omega) (by omega)
      simp only [if_pos first, luma, own, v]
      rfl
    · have u := here (lineLength * y + x * 2 - 2) (by omega) (by omega)
      simp only [if_neg first, luma, own, u]
      rfl
  | yuyv =>
    have pairs := even (Or.inl rfl)
    simp only [bytesPerPixel] at long
    have luma := here (lineLength * y + x * 2) (by omega) (by omega)
    have next := here (lineLength * y + x * 2 + 1) (by omega) (by omega)
    simp only [sampleWith, sample]
    by_cases first : x % 2 = 0
    · have v := here (lineLength * y + x * 2 + 3) (by omega) (by omega)
      simp only [if_pos first, luma, next, v]
      rfl
    · have u := here (lineLength * y + x * 2 - 1) (by omega) (by omega)
      simp only [if_neg first, luma, next, u]
      rfl
  | bgr16 =>
    simp only [bytesPerPixel] at long
    simp only [sampleWith, here (lineLength * y + x * 2) (by omega) (by omega),
      here (lineLength * y + x * 2 + 1) (by omega) (by omega)]
    rfl
  | bgr24 =>
    simp only [bytesPerPixel] at long
    simp only [sampleWith, here (lineLength * y + x * 3) (by omega) (by omega),
      here (lineLength * y + x * 3 + 1) (by omega) (by omega),
      here (lineLength * y + x * 3 + 2) (by omega) (by omega)]
    rfl
  | rgb32 =>
    simp only [bytesPerPixel] at long
    simp only [sampleWith, here (lineLength * y + x * 4) (by omega) (by omega),
      here (lineLength * y + x * 4 + 1) (by omega) (by omega),
      here (lineLength * y + x * 4 + 2) (by omega) (by omega)]
    rfl
  | bgr32 =>
    simp only [bytesPerPixel] at long
    simp only [sampleWith, here (lineLength * y + x * 4) (by omega) (by omega),
      here (lineLength * y + x * 4 + 1) (by omega) (by omega),
      here (lineLength * y + x * 4 + 2) (by omega) (by omega)]
    rfl
  | noChange => rfl

def packedPixel (data : Int → UInt8) (luma u v line x : Int) : ColorRgb :=
  let group := line + 4 * (x / 2)
  yuv2rgb (data (group + luma + 2 * (x % 2))) (data (group + u)) (data (group + v))

def framePixel (data : Int → UInt8) (lineLength x y : Int) : PixelFormat → Option ColorRgb
  | .uyvy => some (packedPixel data 1 0 2 (lineLength * y) x)
  | .yuyv => some (packedPixel data 0 1 3 (lineLength * y) x)
  | pixelFormat => sample data lineLength x y pixelFormat

theorem sample_eq_framePixel (data : Int → UInt8) (lineLength x y : Int)
    (pixelFormat : PixelFormat) :
    sample data lineLength x y pixelFormat = framePixel data lineLength x y pixelFormat := by
  -- the group of a pixel starts with it or two bytes before it
  rcases Int.emod_two_eq_zero_or_one x with even | odd
  · have group : lineLength * y + 4 * (x / 2) = lineLength * y + x * 2 := by omega
    cases pixelFormat with
    | uyvy => simp [sample, framePixel, packedPixel, even, group]
    | yuyv => simp [sample, framePixel, packedPixel, even, group]
    | _ => rfl
  · have group : lineLength * y + 4 * (x / 2) = lineLength * y + x * 2 - 2 := by omega
    cases pixelFormat with
    | uyvy =>
      simp only [sample, framePixel, packedPixel, odd, group]
      generalize lineLength * y + x * 2 = index
      rw [show index - 2 + 1 + 2 * 1 = index + 1 by ring, add_zero,
        show index - 2 + 2 = index by ring]
      rfl
    | yuyv =>
      simp only [sample, framePixel, packedPixel, odd, group]
      generalize lineLength * y + x * 2 = index
      rw [show index - 2 + 0 + 2 * 1 = index by ring, show index - 2 + 1 = index - 1 by ring,
        show index - 2 + 3 = index + 1 by ring]
      rfl
    | _ => rfl

theorem lt_count_iff {decimation extent : Int} (positive : 1 ≤ decimation)
    (some : decimation.tdiv 2 < extent) (k : Nat) :
    k < (extent - decimation.tdiv 2 + decimation - 1).tdiv decimation ↔
      decimation.tdiv 2 + k * decimation < extent := by
  rw [Int.tdiv_eq_ediv_of_nonneg (by omega), Int.lt_iff_add_one_le,
    Int.le_ediv_iff_mul_le (by omega), Int.add_mul]
  omega

theorem lt_outputWidth_iff {resampler : ImageResampler} {width : Int}
    (decimates : 1 ≤ resampler.horizontalDecimation)
    (some : resampler.column 0 < resampler.rightEnd width) (k : Nat) :
    k < resampler.outputWidth width ↔ resampler.column k < resampler.rightEnd width := by
  unfold outputWidth column rightEnd at *
  simp only at some ⊢
  split_ifs at some ⊢
  all_goals
    rw [lt_count_iff decimates (by omega)]
    omega

theorem lt_outputHeight_iff {resampler : ImageResampler} {height : Int}
    (decimates : 1 ≤ resampler.verticalDecimation)
    (some : resampler.row 0 < resampler.bottomEnd height) (l : Nat) :
    l < resampler.outputHeight height ↔ resampler.row l < resampler.bottomEnd height := by
  unfold outputHeight row bottomEnd at *
  simp only at some ⊢
  split_ifs at some ⊢
  all_goals
    rw [lt_count_iff decimates (by omega)]
    omega

theorem below_whole {mode : Prop} [Decidable mode] {size crop position : Int} (cropped : 0 ≤ crop)
    (positive : 0 ≤ position) (below : position < size - if mode then size.tdiv 2 else crop) :
    position < size := by
  split_ifs at below
  · rcases le_total 0 size with some | none
    · rw [Int.tdiv_eq_ediv_of_nonneg some] at below
      omega
    · have half : (-size).tdiv 2 = -size / 2 := Int.tdiv_eq_ediv_of_nonneg (by omega)
      rw [Int.neg_tdiv] at half
      omega
  · omega

theorem position_nonneg {crop decimation : Int} (cropped : 0 ≤ crop) (decimates : 1 ≤ decimation)
    (k : Nat) : 0 ≤ crop + decimation.tdiv 2 + k * decimation :=
  add_nonneg (add_nonneg cropped (Int.tdiv_nonneg (by omega) (by omega)))
    (mul_nonneg (Int.natCast_nonneg k) (by omega))

theorem column_inside {resampler : ImageResampler} {width : Int}
    (decimates : 1 ≤ resampler.horizontalDecimation)
    (crops : 0 ≤ resampler.cropLeft ∧ 0 ≤ resampler.cropRight) {k : Nat}
    (below : resampler.column k < resampler.rightEnd width) :
    0 ≤ resampler.column k ∧ resampler.column k < width :=
  have positive := position_nonneg crops.1 decimates k
  ⟨positive, below_whole crops.2 positive below⟩

theorem row_inside {resampler : ImageResampler} {height : Int}
    (decimates : 1 ≤ resampler.verticalDecimation)
    (crops : 0 ≤ resampler.cropTop ∧ 0 ≤ resampler.cropBottom) {l : Nat}
    (below : resampler.row l < resampler.bottomEnd height) :
    0 ≤ resampler.row l ∧ resampler.row l < height :=
  have positive := position_nonneg crops.1 decimates l
  ⟨positive, below_whole crops.2 positive below⟩

structure Fits (image : Image ColorRgb) (width height : Int) : Prop where
  width_eq : image.width = width
  height_eq : image.height = height
  room : image.width * image.height ≤ image.pixels.length
  below : image.pixels.length < 2 ^ 32

private theorem ofSize_fits {width height : Nat} (small : width * height + 1 < 2 ^ 32) :
    Fits (Image.ofSize width height) width height := by
  have length : (Image.ofSize width height : Image ColorRgb).pixels.length =
      width * height + 1 := by
    rw [Image.ofSize, List.length_replicate, unsigned_of_lt small]
  exact ⟨rfl, rfl, by rw [length]; exact Nat.le_succ _, by rw [length]; exact small⟩

structure Painted (color : Nat → Nat → Option ColorRgb) (size : Nat × Nat × Nat) (count : Nat)
    (image : Image ColorRgb) : Prop where
  size_eq : shape image = size
  painted : ∀ i < count, ∀ rgb, color (i % size.1) (i / size.1) = some rgb →
    image.pixels[i]? = some rgb

section Runs

variable {resampler : ImageResampler} {data : Int → UInt8} {width height lineLength : Int}
  {pixelFormat : PixelFormat}

theorem processImageWith_eq {read : Int → Except ImageFault UInt8} (fresh : Nat → ColorRgb)
    (image : Image ColorRgb)
    (same : ∀ k l : Nat, k < resampler.outputWidth width → l < resampler.outputHeight height →
      sampleWith read lineLength (resampler.column k) (resampler.row l) pixelFormat =
        .ok (sample data lineLength (resampler.column k) (resampler.row l) pixelFormat)) :
    processImageWith read resampler fresh width height lineLength pixelFormat image =
      processImage fresh resampler data width height lineLength pixelFormat image := by
  unfold processImageWith processImage
  refine Packets.foldlM_congr (fun l hl image => ?_) _
  unfold writeRow
  refine Packets.foldlM_congr (fun k hk image => ?_) image
  have column := List.mem_range.mp hk
  have row := List.mem_range.mp hl
  rw [writePixelWith, same k l (by omega) (by omega)]
  rfl

def sampled (resampler : ImageResampler) (data : Int → UInt8) (lineLength : Int)
    (pixelFormat : PixelFormat) (k l : Nat) : Option ColorRgb :=
  sample data lineLength (resampler.column k) (resampler.row l) pixelFormat

private theorem writePixel_of_none {k l : Nat}
    (color : sampled resampler data lineLength pixelFormat k l = none) (image : Image ColorRgb) :
    writePixel resampler data lineLength pixelFormat l image k = .ok image := by
  unfold sampled column row at color
  simp only [writePixel, color]

theorem writePixel_of_some {k l : Nat} {rgb : ColorRgb}
    (color : sampled resampler data lineLength pixelFormat k l = some rgb)
    (image : Image ColorRgb) :
    writePixel resampler data lineLength pixelFormat l image k =
      image.write (image.toIndex k l) rgb := by
  unfold sampled column row at color
  simp only [writePixel, color]

theorem writePixel_painted {w h length l k : Nat} {image : Image ColorRgb} (hk : k < w) (hl : l < h)
    (room : w * h ≤ length) (below : length < 2 ^ 32)
    (held : Painted (sampled resampler data lineLength pixelFormat) (w, h, length) (l * w + k)
      image) :
    ∃ out, writePixel resampler data lineLength pixelFormat l image k = .ok out ∧
      Painted (sampled resampler data lineLength pixelFormat) (w, h, length) (l * w + (k + 1))
        out := by
  obtain ⟨size, painted⟩ := held
  have inside := Image.index_lt hk hl
  have width : image.width = w := congrArg Prod.fst size
  have long : image.pixels.length = length := congrArg (fun part => part.2.2) size
  have here : image.toIndex k l = l * w + k := by
    rw [Image.toIndex, width, unsigned_of_lt (by omega)]
  have position : (l * w + k) % w = k ∧ (l * w + k) / w = l :=
    ⟨Nat.mul_add_mod_of_lt hk, Image.index_div hk l⟩
  cases color : sampled resampler data lineLength pixelFormat k l with
  | none =>
    refine ⟨image, writePixel_of_none color image, size, fun i hi rgb held => ?_⟩
    have before : i ≠ l * w + k := by
      rintro rfl
      rw [position.1, position.2, color] at held
      cases held
    exact painted i (by omega) rgb held
  | some rgb =>
    have written : image.write (l * w + k) rgb =
        .ok { image with pixels := image.pixels.set (l * w + k) rgb } := if_pos (by omega)
    rw [writePixel_of_some color, here]
    refine ⟨_, written, (write_shape written).trans size, fun i hi other held => ?_⟩
    by_cases last : i = l * w + k
    · rw [last, position.1, position.2, color] at held
      rw [last, List.getElem?_set_self (by omega), held]
    · rw [List.getElem?_set_ne (Ne.symm last)]
      exact painted i (by omega) other held

theorem writeRow_painted {w h length l : Nat} {image : Image ColorRgb} (hl : l < h)
    (room : w * h ≤ length) (below : length < 2 ^ 32)
    (held : Painted (sampled resampler data lineLength pixelFormat) (w, h, length) (l * w) image) :
    ∃ out, writeRow resampler data lineLength pixelFormat w image l = .ok out ∧
      Painted (sampled resampler data lineLength pixelFormat) (w, h, length) ((l + 1) * w) out := by
  rw [Nat.add_mul, Nat.one_mul]
  exact Packets.foldlM_range_invariant
    (P := fun k => Painted (sampled resampler data lineLength pixelFormat) (w, h, length)
      (l * w + k))
    held fun k hk now held => writePixel_painted hk hl room below held

theorem processImage_painted {fresh : Nat → ColorRgb} {image : Image ColorRgb}
    (fits : Fits image (resampler.outputWidth width) (resampler.outputHeight height)) :
    ∃ out, processImage fresh resampler data width height lineLength pixelFormat image = .ok out ∧
      Painted (sampled resampler data lineLength pixelFormat) (shape image)
        (image.height * image.width) out := by
  obtain ⟨wide, high, room, below⟩ := fits
  have kept : resized fresh (resampler.outputWidth width) (resampler.outputHeight height) image =
      image := by
    rw [resized, ← wide, ← high]
    refine if_neg ?_
    rintro ⟨otherHeight, otherWidth⟩
    rcases Nat.eq_zero_or_pos image.width with none | some
    · rw [none] at otherWidth
      exact otherWidth rfl
    · have tall := Nat.le_mul_of_pos_left image.height some
      exact otherHeight (unsigned_of_lt (by omega)).symm
  rw [processImage, kept, ← wide, ← high]
  exact Packets.foldlM_range_invariant
    (P := fun l => Painted (sampled resampler data lineLength pixelFormat) (shape image)
      (l * image.width))
    ⟨rfl, by simp⟩ fun l hl now held => writeRow_painted hl room below held

end Runs

/-- On an image of the computed size the pixels of the source columns and rows
between the crops are shown in order, one for each step of the decimation. The
bytes read for them are inside the frame. -/
theorem processImage_samples (fresh : Nat → ColorRgb) {resampler : ImageResampler}
    (data : Int → UInt8) {width height lineLength : Int} {pixelFormat : PixelFormat}
    {image : Image ColorRgb}
    (decimates : 1 ≤ resampler.horizontalDecimation ∧ 1 ≤ resampler.verticalDecimation)
    (crops : (0 ≤ resampler.cropLeft ∧ 0 ≤ resampler.cropRight) ∧
      0 ≤ resampler.cropTop ∧ 0 ≤ resampler.cropBottom)
    (nonempty : resampler.column 0 < resampler.rightEnd width ∧
      resampler.row 0 < resampler.bottomEnd height)
    (lines : Lines pixelFormat width lineLength)
    (fits : Fits image (resampler.outputWidth width) (resampler.outputHeight height)) :
    ∃ out, processImage fresh resampler data width height lineLength pixelFormat image = .ok out ∧
      processImageWith (readInside data (lineLength * height)) resampler fresh width height
        lineLength pixelFormat image = .ok out ∧
      out.width = resampler.outputWidth width ∧ out.height = resampler.outputHeight height ∧
      (∀ k : Nat, k < out.width ↔ resampler.column k < resampler.rightEnd width) ∧
      (∀ l : Nat, l < out.height ↔ resampler.row l < resampler.bottomEnd height) ∧
      ∀ k < out.width, ∀ l < out.height, ∀ rgb,
        framePixel data lineLength (resampler.column k) (resampler.row l) pixelFormat = some rgb →
          out.pixel k l = .ok rgb := by
  have columns := lt_outputWidth_iff decimates.1 nonempty.1
  have rows := lt_outputHeight_iff decimates.2 nonempty.2
  obtain ⟨out, ok, size, painted⟩ := processImage_painted fits
  have wide : out.width = image.width := congrArg Prod.fst size
  have high : out.height = image.height := congrArg (fun part => part.2.1) size
  have long : out.pixels.length = image.pixels.length := congrArg (fun part => part.2.2) size
  have inside : processImageWith (readInside data (lineLength * height)) resampler fresh
      width height
      lineLength pixelFormat image = .ok out := by
    refine (processImageWith_eq fresh image fun k l hk hl => ?_).trans ok
    exact sampleWith_eq (fun i low below => if_pos ⟨low, below⟩) lines
      (column_inside decimates.1 crops.1 ((columns k).mp hk))
      (row_inside decimates.2 crops.2 ((rows l).mp hl))
  have widthEq : (out.width : Int) = resampler.outputWidth width := by rw [wide, fits.width_eq]
  have heightEq : (out.height : Int) = resampler.outputHeight height := by rw [high, fits.height_eq]
  refine ⟨out, ok, inside, widthEq, heightEq, fun k => ?_, fun l => ?_,
    fun k hk l hl rgb held => ?_⟩
  · rw [← columns k, ← widthEq, Int.ofNat_lt]
  · rw [← rows l, ← heightEq, Int.ofNat_lt]
  · rw [wide] at hk
    rw [high] at hl
    have position := Image.index_lt hk hl
    have room := fits.room
    have below := fits.below
    have column : (l * image.width + k) % image.width = k := Nat.mul_add_mod_of_lt hk
    have row : (l * image.width + k) / image.width = l := Image.index_div hk l
    have found : out.pixels[l * image.width + k]? = some rgb := by
      refine painted _ (by rw [Nat.mul_comm image.height]; exact position) rgb ?_
      change resampler.sampled data lineLength pixelFormat ((l * image.width + k) % image.width)
        ((l * image.width + k) / image.width) = some rgb
      rw [column, row, sampled, sample_eq_framePixel, held]
    rw [Image.pixel, Image.toIndex, wide, unsigned_of_lt (by omega), Image.read, found]

theorem processImage_samples_uyvy : ∃ out,
    processImage (fun _ => .black) { cropLeft := 1 } (fun i => UInt8.ofInt (40 * i)) 2 1 4 .uyvy
        (.ofSize 1 1) = .ok out ∧
      out.pixel 0 0 = .ok (yuv2rgb 120 0 80) := by
  obtain ⟨out, ok, _, wide, high, _, _, shown⟩ := @processImage_samples (fun _ => .black)
    { cropLeft := 1 } (fun i => UInt8.ofInt (40 * i)) 2 1 4 .uyvy (.ofSize 1 1) (by decide)
    (by decide) (by decide) ⟨by decide, fun _ => by decide⟩ (ofSize_fits (by decide))
  have one : outputWidth { cropLeft := 1 } 2 = 1 ∧ outputHeight { cropLeft := 1 } 1 = 1 := by decide
  exact ⟨out, ok, shown 0 (by omega) 0 (by omega) _ rfl⟩

end HyperionNg.ImageResampler
