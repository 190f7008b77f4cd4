import HyperionNg.ImageToLedsMap
import HyperionNg.Library.Execution

/-! The pixels of a LED. Inside fitting borders every LED with an area gets a
nonempty list of distinct pixels of the inner rectangle, and their mean lies
between them, exactly when neither the unsigned index of the last inner pixel
nor the sum over the inner rectangle wraps. -/

namespace HyperionNg

open Library Execution

theorem roundHalfAway_natCast_mul {n : Nat} {frac : ℚ} (nonneg : 0 ≤ frac) :
    roundHalfAway (n * frac) = ⌊n * frac + 1 / 2⌋ := by
  have product : (0 : ℚ) ≤ n * frac := by positivity
  rw [roundHalfAway, if_pos product]

theorem roundHalfAway_mem {n : Nat} {frac : ℚ} (nonneg : 0 ≤ frac) (le_one : frac ≤ 1) :
    0 ≤ roundHalfAway (n * frac) ∧ roundHalfAway (n * frac) ≤ n := by
  have product : (0 : ℚ) ≤ n * frac := by positivity
  have bound : (n : ℚ) * frac ≤ n := mul_le_of_le_one_right (by positivity) le_one
  rw [roundHalfAway_natCast_mul nonneg]
  constructor
  · exact Int.floor_nonneg.mpr (by linarith)
  · apply Int.lt_add_one_iff.mp
    apply Int.floor_lt.mpr
    push_cast
    linarith

private theorem roundHalfAway_mono {n : Nat} {a b : ℚ} (nonneg : 0 ≤ a) (le : a ≤ b) :
    roundHalfAway (n * a) ≤ roundHalfAway (n * b) := by
  rw [roundHalfAway_natCast_mul nonneg, roundHalfAway_natCast_mul (nonneg.trans le)]
  have product : (n : ℚ) * a ≤ n * b := mul_le_mul_of_nonneg_left le (by positivity)
  exact Int.floor_mono (by linarith)

private theorem roundHalfAway_natCast (n : Nat) : roundHalfAway n = n := by
  have product : (0 : ℚ) ≤ n := by positivity
  rw [roundHalfAway, if_pos product]
  apply Int.floor_eq_iff.mpr
  constructor <;> push_cast <;> linarith

theorem Led.clamp_mem (x : ℚ) : 0 ≤ Led.clamp x ∧ Led.clamp x ≤ 1 := by
  unfold Led.clamp
  exact ⟨le_max_left _ _, max_le (by norm_num) (min_le_left _ _)⟩

theorem Led.ofConfig_valid (deviceOrder : ColorOrder) (maxLedId : Nat) (c : LedConfig) :
    (Led.ofConfig deviceOrder maxLedId c).Valid := by
  have hmin := Led.clamp_mem c.hscanMinimum
  have hmax := Led.clamp_mem c.hscanMaximum
  have vmin := Led.clamp_mem c.vscanMinimum
  have vmax := Led.clamp_mem c.vscanMaximum
  unfold Led.ofConfig
  dsimp only
  split_ifs
  · exact ⟨le_min hmin.1 hmax.1, min_le_max, max_le hmin.2 hmax.2, le_min vmin.1 vmax.1,
      min_le_max, max_le vmin.2 vmax.2⟩
  · exact ⟨le_rfl, le_rfl, zero_le_one, le_rfl, le_rfl, zero_le_one⟩

namespace ImageToLedsMap

theorem boundaries_eq (offset : Nat) {actual : Nat} {minFrac maxFrac : ℚ} (positive : 0 < actual)
    (size : offset + actual < 2 ^ 32) (nonneg : 0 ≤ minFrac) (le : minFrac ≤ maxFrac)
    (le_one : maxFrac ≤ 1) :
    ∃ lo hi : Nat, roundHalfAway (actual * minFrac) = lo ∧ roundHalfAway (actual * maxFrac) = hi ∧
      lo ≤ hi ∧ hi ≤ actual ∧ boundaries offset actual minFrac maxFrac =
        (offset + min lo (actual - 1), if min lo (actual - 1) = hi then
          offset + min lo (actual - 1) + 1 else offset + hi) := by
  have first := roundHalfAway_mem (n := actual) nonneg (le.trans le_one)
  have last := roundHalfAway_mem (n := actual) (nonneg.trans le) le_one
  have order := roundHalfAway_mono (n := actual) nonneg le
  obtain ⟨lo, hlo⟩ := Int.eq_ofNat_of_zero_le first.1
  obtain ⟨hi, hhi⟩ := Int.eq_ofNat_of_zero_le last.1
  rw [hlo] at first order
  rw [hhi] at last order
  have end_eq : ((offset + actual : Nat) : Int) - 1 = (offset + actual - 1 : Nat) := by omega
  have loUnsigned : unsigned (lo : Int) = lo := unsigned_of_lt (by omega)
  have hiUnsigned : unsigned (hi : Int) = hi := unsigned_of_lt (by omega)
  have loSum : unsigned ((offset + lo : Nat) : Int) = offset + lo := unsigned_of_lt (by omega)
  have hiSum : unsigned ((offset + hi : Nat) : Int) = offset + hi := unsigned_of_lt (by omega)
  have endSum : unsigned ((offset + actual - 1 : Nat) : Int) = offset + actual - 1 :=
    unsigned_of_lt (by omega)
  have start : min (offset + lo) (offset + actual - 1) = offset + min lo (actual - 1) := by omega
  have next : unsigned ((offset + min lo (actual - 1) + 1 : Nat) : Int) =
      offset + min lo (actual - 1) + 1 := unsigned_of_lt (by omega)
  refine ⟨lo, hi, hlo, hhi, by omega, by omega, ?_⟩
  unfold boundaries
  rw [hlo, hhi, end_eq, loUnsigned, hiUnsigned, loSum, hiSum, endSum]
  simp only [start, next, Nat.add_left_cancel_iff]

theorem boundaries_spec {offset actual : Nat} {minFrac maxFrac : ℚ} (positive : 0 < actual)
    (size : offset + actual < 2 ^ 32) (nonneg : 0 ≤ minFrac) (le : minFrac ≤ maxFrac)
    (le_one : maxFrac ≤ 1) :
    offset ≤ (boundaries offset actual minFrac maxFrac).1 ∧
      (boundaries offset actual minFrac maxFrac).1 < offset + actual ∧
      (boundaries offset actual minFrac maxFrac).1 <
        (boundaries offset actual minFrac maxFrac).2 := by
  obtain ⟨lo, hi, -, -, order, bound, same⟩ :=
    boundaries_eq offset positive size nonneg le le_one
  rw [same]
  dsimp only
  split_ifs <;> omega

theorem mem_visited {offset actual : Nat} {minFrac maxFrac : ℚ}
    (size : offset + actual < 2 ^ 32) {x : Nat} :
    x ∈ visited offset actual minFrac maxFrac ↔
      (boundaries offset actual minFrac maxFrac).1 ≤ x ∧
        x < (boundaries offset actual minFrac maxFrac).2 ∧ x < offset + actual := by
  have bound : unsigned ((offset + actual : Nat) : Int) = offset + actual := unsigned_of_lt size
  unfold visited
  rw [bound]
  simp only [List.mem_range'_1]
  omega

private theorem visited_nodup (offset actual : Nat) (minFrac maxFrac : ℚ) :
    (visited offset actual minFrac maxFrac).Nodup := List.nodup_range'

theorem visited_length_le {offset actual : Nat} {minFrac maxFrac : ℚ}
    (size : offset + actual < 2 ^ 32)
    (start : offset ≤ (boundaries offset actual minFrac maxFrac).1) :
    (visited offset actual minFrac maxFrac).length ≤ actual := by
  have bound : unsigned ((offset + actual : Nat) : Int) = offset + actual := unsigned_of_lt size
  unfold visited
  rw [bound]
  simp only [List.length_range']
  omega

variable {α : Type}

theorem accumulate_eq {build : Build} {channel : α → UInt8} {pixels : List α}
    (fits : (pixels.map fun p => (channel p).toNat).sum < 2 ^ build.fastBits) :
    accumulate build channel pixels = (pixels.map fun p => (channel p).toNat).sum := by
  have run : ∀ (rest : List α) (cumm : Nat),
      cumm + (rest.map fun p => (channel p).toNat).sum < 2 ^ build.fastBits →
      rest.foldl (fun cumm p => (cumm + (channel p).toNat) % 2 ^ build.fastBits) cumm =
        cumm + (rest.map fun p => (channel p).toNat).sum := by
    intro rest
    induction rest with
    | nil => simp
    | cons p rest ih =>
      intro cumm small
      simp only [List.map_cons, List.sum_cons] at small ⊢
      have step : (cumm + (channel p).toNat) % 2 ^ build.fastBits = cumm + (channel p).toNat :=
        Nat.mod_eq_of_lt (by omega)
      rw [List.foldl_cons, step, ih _ (by omega)]
      omega
  have total := run pixels 0 (by simpa using fits)
  simpa [accumulate] using total

theorem accumulate_lt (build : Build) (channel : α → UInt8) (pixels : List α) :
    accumulate build channel pixels < 2 ^ build.fastBits := by
  have positive : 0 < 2 ^ build.fastBits := Nat.two_pow_pos _
  unfold accumulate
  induction pixels using List.reverseRecOn with
  | nil => exact positive
  | append_singleton rest p ih =>
    rw [List.foldl_append]
    exact Nat.mod_lt _ positive

theorem average_mem {build : Build} {channel : α → UInt8} {pixels : List α} {lo hi : UInt8}
    (some : pixels ≠ []) (fits : 255 * pixels.length < 2 ^ build.fastBits)
    (range : ∀ p ∈ pixels, lo ≤ channel p ∧ channel p ≤ hi) :
    lo ≤ average build channel pixels ∧ average build channel pixels ≤ hi := by
  have positive : 0 < pixels.length := List.length_pos_iff.mpr some
  have byte : ∀ v ∈ pixels.map fun p => (channel p).toNat, v ≤ hi.toNat := by
    intro v hv
    obtain ⟨p, hp, rfl⟩ := List.mem_map.mp hv
    exact UInt8.le_iff_toNat_le.mp (range p hp).2
  have least : ∀ v ∈ pixels.map fun p => (channel p).toNat, lo.toNat ≤ v := by
    intro v hv
    obtain ⟨p, hp, rfl⟩ := List.mem_map.mp hv
    exact UInt8.le_iff_toNat_le.mp (range p hp).1
  have upper := List.sum_le_card_nsmul _ _ byte
  have lower := List.card_nsmul_le_sum _ _ least
  simp only [List.length_map, smul_eq_mul] at upper lower
  have hiByte : hi.toNat ≤ 255 := Nat.le_of_lt_succ hi.toNat_lt
  have total : (pixels.map fun p => (channel p).toNat).sum < 2 ^ build.fastBits := by
    have cap := Nat.mul_le_mul_left pixels.length hiByte
    rw [Nat.mul_comm pixels.length 255] at cap
    omega
  have quotientUpper : (pixels.map fun p => (channel p).toNat).sum / pixels.length ≤ hi.toNat := by
    apply Nat.div_le_of_le_mul
    exact upper
  have quotientLower : lo.toNat ≤ (pixels.map fun p => (channel p).toNat).sum / pixels.length := by
    rw [Nat.le_div_iff_mul_le positive, Nat.mul_comm]
    exact lower
  have value : (average build channel pixels).toNat =
      (pixels.map fun p => (channel p).toNat).sum / pixels.length := by
    rw [average, accumulate_eq total, UInt8.toNat_ofNat']
    exact Nat.mod_eq_of_lt (by omega)
  rw [UInt8.le_iff_toNat_le, UInt8.le_iff_toNat_le, value]
  exact ⟨quotientLower, quotientUpper⟩

variable [Pixel α]

structure Shows (image : Image α) (width height : Nat) : Prop where
  width_eq : image.width = width
  height_eq : image.height = height
  length_ge : width * height ≤ image.pixels.length

variable (α) in
structure RegionSound (build : Build) (width height horizontalBorder verticalBorder : Nat)
    (led : Led) (indices : List Nat) : Prop where
  skipped : indices = [] → led.skipped = true
  nodup : indices.Nodup
  inside : ∀ i ∈ indices, ∃ x y, verticalBorder ≤ x ∧ x < width - verticalBorder ∧
    horizontalBorder ≤ y ∧ y < height - horizontalBorder ∧ i = y * width + x
  mean : ∀ image : Image α, Shows image width height →
    ∃ color, calcMeanColor build image indices = .ok color ∧
      (indices ≠ [] → ∀ channel : Channel, ∀ lo hi : UInt8,
        (∀ i ∈ indices, ∀ p, image.read i = .ok p →
          lo ≤ channel.ofPixel p ∧ channel.ofPixel p ≤ hi) →
        lo ≤ channel.ofColor color ∧ channel.ofColor color ≤ hi)

theorem calcMeanColor_returns (build : Build) (image : Image α) {indices : List Nat}
    (readable : ∀ i ∈ indices, i < image.pixels.length) (some : indices ≠ []) :
    ∃ pixels, pixels.length = indices.length ∧
      (∀ p ∈ pixels, ∃ i ∈ indices, image.read i = .ok p) ∧
      calcMeanColor build image indices = .ok ⟨average build Pixel.red pixels,
        average build Pixel.green pixels, average build Pixel.blue pixels⟩ := by
  obtain ⟨pixels, read, length, source⟩ :=
    exists_mapM fun i hi => image.exists_read (readable i hi)
  have count : indices.length ≠ 0 := mt List.length_eq_zero_iff.mp some
  have nonempty : pixels.length ≠ 0 := by rwa [length]
  refine ⟨pixels, length, source, ?_⟩
  simp [calcMeanColor, count, read, meanOf, nonempty, bind, Except.bind]

theorem calcMeanColor_nil (build : Build) (image : Image α) :
    calcMeanColor build image [] = .ok ColorRgb.black := rfl

theorem mean_sound {build : Build} {image : Image α} {indices : List Nat}
    (readable : ∀ i ∈ indices, i < image.pixels.length)
    (fits : 255 * indices.length < 2 ^ build.fastBits) :
    ∃ color, calcMeanColor build image indices = .ok color ∧
      (indices ≠ [] → ∀ channel : Channel, ∀ lo hi : UInt8,
        (∀ i ∈ indices, ∀ p, image.read i = .ok p →
          lo ≤ channel.ofPixel p ∧ channel.ofPixel p ≤ hi) →
        lo ≤ channel.ofColor color ∧ channel.ofColor color ≤ hi) := by
  by_cases none : indices = []
  · rw [none]
    exact ⟨_, calcMeanColor_nil build image, fun some => absurd rfl some⟩
  · obtain ⟨pixels, length, source, computed⟩ := calcMeanColor_returns build image readable none
    refine ⟨_, computed, fun _ channel lo hi range => ?_⟩
    have some : pixels ≠ [] := by
      intro empty
      rw [empty] at length
      exact none (List.length_eq_zero_iff.mp length.symm)
    have total : 255 * pixels.length < 2 ^ build.fastBits := by rwa [length]
    have every : ∀ p ∈ pixels, lo ≤ channel.ofPixel p ∧ channel.ofPixel p ≤ hi := by
      intro p hp
      obtain ⟨i, hi', hread⟩ := source p hp
      exact range i hi' p hread
    cases channel with
    | red => exact average_mem some total every
    | green => exact average_mem some total every
    | blue => exact average_mem some total every

/-- The pixels of the inner rectangle are numbered without a wrap. -/
def IndicesFit (width height horizontalBorder verticalBorder : Nat) : Prop :=
  (height - horizontalBorder - 1) * width + (width - verticalBorder - 1) < 2 ^ 32

/-- The brightest possible sum over the inner rectangle does not wrap. -/
def SumsFit (build : Build) (width height horizontalBorder verticalBorder : Nat) : Prop :=
  255 * ((width - 2 * verticalBorder) * (height - 2 * horizontalBorder)) < 2 ^ build.fastBits

section region

variable {build : Build} {width height horizontalBorder verticalBorder : Nat}

theorem index_of_inner (indices : IndicesFit width height horizontalBorder verticalBorder)
    {x y : Nat} (hx : x < width - verticalBorder) (hy : y < height - horizontalBorder) :
    unsigned ((y * width + x : Nat) : Int) = y * width + x := by
  have row : y * width ≤ (height - horizontalBorder - 1) * width :=
    Nat.mul_le_mul_right width (by omega)
  unfold IndicesFit at indices
  exact unsigned_of_lt (by omega)

theorem index_injective {x y x' y' : Nat} (hx : x < width) (hx' : x' < width)
    (same : y * width + x = y' * width + x') : y = y' ∧ x = x' := by
  have column : (y * width + x) % width = (y' * width + x') % width := by rw [same]
  have row : (y * width + x) / width = (y' * width + x') / width := by rw [same]
  rw [Nat.mul_add_mod_of_lt hx, Nat.mul_add_mod_of_lt hx'] at column
  rw [Image.index_div hx, Image.index_div hx'] at row
  exact ⟨row, column⟩

private theorem positions_nodup (xOffset actualWidth yOffset actualHeight : Nat) (led : Led) :
    (positions xOffset actualWidth yOffset actualHeight led).Nodup :=
  (visited_nodup _ _ _ _).product (visited_nodup _ _ _ _)

def fullLed : Led := ⟨0, 0, 1, 0, 1, -1, .rgb⟩

theorem fullLed_valid : fullLed.Valid :=
  ⟨le_rfl, zero_le_one, le_rfl, le_rfl, zero_le_one, le_rfl⟩

theorem boundaries_full {offset actual : Nat} (positive : 0 < actual)
    (size : offset + actual < 2 ^ 32) :
    boundaries offset actual 0 1 = (offset, offset + actual) := by
  obtain ⟨lo, hi, start, stop, -, -, same⟩ :=
    boundaries_eq offset positive size le_rfl zero_le_one le_rfl
  rw [mul_zero] at start
  rw [mul_one, roundHalfAway_natCast] at stop
  obtain rfl : lo = 0 := by exact_mod_cast start.symm.trans (roundHalfAway_natCast 0)
  obtain rfl : hi = actual := by exact_mod_cast stop.symm
  rw [same, Nat.zero_min, if_neg (by omega), Nat.add_zero]

theorem visited_full_length (offset : Nat) {actual : Nat} (positive : 0 < actual)
    (size : offset + actual < 2 ^ 32) : (visited offset actual 0 1).length = actual := by
  have last : unsigned ((offset + actual : Nat) : Int) = offset + actual := unsigned_of_lt size
  unfold visited
  rw [boundaries_full positive size, last]
  simp only [List.length_range']
  omega

omit [Pixel α] in
theorem read_replicate {width height n i : Nat} {color p : α}
    (read : (⟨width, height, List.replicate n color⟩ : Image α).read i = .ok p) : p = color := by
  unfold Image.read at read
  cases found : (List.replicate n color)[i]? with
  | none => simp [found] at read
  | some q =>
    have same : q = p := by simpa [found] using read
    rw [← same]
    exact List.eq_of_mem_replicate (List.mem_of_getElem? found)

variable (hw : width < 2 ^ 32) (hh : height < 2 ^ 32) (vertical : 2 * verticalBorder < width)
  (horizontal : 2 * horizontalBorder < height)
include hw hh vertical horizontal

theorem led_boundaries {led : Led} (valid : led.Valid) :
    let columns := boundaries verticalBorder (width - 2 * verticalBorder) led.minXFrac led.maxXFrac
    let rows := boundaries horizontalBorder (height - 2 * horizontalBorder) led.minYFrac
      led.maxYFrac
    (verticalBorder ≤ columns.1 ∧ columns.1 < verticalBorder + (width - 2 * verticalBorder) ∧
      columns.1 < columns.2) ∧
    (horizontalBorder ≤ rows.1 ∧ rows.1 < horizontalBorder + (height - 2 * horizontalBorder) ∧
      rows.1 < rows.2) :=
  ⟨boundaries_spec (by omega) (by omega) valid.minX_nonneg valid.minX_le_maxX valid.maxX_le_one,
    boundaries_spec (by omega) (by omega) valid.minY_nonneg valid.minY_le_maxY valid.maxY_le_one⟩

theorem positions_inner {led : Led} (valid : led.Valid) {p : Nat × Nat}
    (hp : p ∈ positions verticalBorder (width - 2 * verticalBorder) horizontalBorder
      (height - 2 * horizontalBorder) led) :
    horizontalBorder ≤ p.1 ∧ p.1 < height - horizontalBorder ∧
      verticalBorder ≤ p.2 ∧ p.2 < width - verticalBorder := by
  obtain ⟨hy, hx⟩ := List.mem_product.mp hp
  have columns := (mem_visited (by omega)).mp hx
  have rows := (mem_visited (by omega)).mp hy
  obtain ⟨left, top⟩ := led_boundaries hw hh vertical horizontal valid
  omega

theorem positions_ne_nil {led : Led} (valid : led.Valid) :
    positions verticalBorder (width - 2 * verticalBorder) horizontalBorder
      (height - 2 * horizontalBorder) led ≠ [] := by
  obtain ⟨left, top⟩ := led_boundaries hw hh vertical horizontal valid
  have column := (mem_visited (by omega)).mpr ⟨le_rfl, left.2.2, left.2.1⟩
  have row := (mem_visited (by omega)).mpr ⟨le_rfl, top.2.2, top.2.1⟩
  exact List.ne_nil_of_mem (List.mem_product.mpr ⟨row, column⟩ :
    ((boundaries horizontalBorder (height - 2 * horizontalBorder) led.minYFrac led.maxYFrac).1,
      (boundaries verticalBorder (width - 2 * verticalBorder) led.minXFrac led.maxXFrac).1) ∈
        positions verticalBorder (width - 2 * verticalBorder) horizontalBorder
          (height - 2 * horizontalBorder) led)

theorem positions_length_le {led : Led} (valid : led.Valid) :
    (positions verticalBorder (width - 2 * verticalBorder) horizontalBorder
      (height - 2 * horizontalBorder) led).length ≤
        (width - 2 * verticalBorder) * (height - 2 * horizontalBorder) := by
  obtain ⟨left, top⟩ := led_boundaries hw hh vertical horizontal valid
  have columns := visited_length_le (by omega) left.1
  have rows := visited_length_le (by omega) top.1
  rw [positions, List.length_product, Nat.mul_comm]
  exact Nat.mul_le_mul columns rows

theorem ledColors_inside (indices : IndicesFit width height horizontalBorder verticalBorder)
    {led : Led} (valid : led.Valid) :
    ∀ i ∈ ledColors width verticalBorder (width - 2 * verticalBorder) horizontalBorder
      (height - 2 * horizontalBorder) led,
      ∃ x y, verticalBorder ≤ x ∧ x < width - verticalBorder ∧ horizontalBorder ≤ y ∧
        y < height - horizontalBorder ∧ i = y * width + x := by
  intro i hi
  by_cases skipped : led.skipped = true
  · rw [ledColors, if_pos skipped] at hi
    exact absurd hi List.not_mem_nil
  · rw [ledColors, if_neg skipped] at hi
    obtain ⟨p, hp, rfl⟩ := List.mem_map.mp hi
    have position := positions_inner hw hh vertical horizontal valid hp
    exact ⟨p.2, p.1, position.2.2.1, position.2.2.2, position.1, position.2.1,
      index_of_inner indices position.2.2.2 position.2.1⟩

theorem ledColors_nodup (indices : IndicesFit width height horizontalBorder verticalBorder)
    {led : Led} (valid : led.Valid) :
    (ledColors width verticalBorder (width - 2 * verticalBorder) horizontalBorder
      (height - 2 * horizontalBorder) led).Nodup := by
  by_cases skipped : led.skipped = true
  · rw [ledColors, if_pos skipped]
    exact List.nodup_nil
  · rw [ledColors, if_neg skipped]
    apply List.Nodup.map_on
    · intro p hp q hq same
      have left := positions_inner hw hh vertical horizontal valid hp
      have right := positions_inner hw hh vertical horizontal valid hq
      change unsigned ((p.1 * width + p.2 : Nat) : Int) =
        unsigned ((q.1 * width + q.2 : Nat) : Int) at same
      rw [index_of_inner indices left.2.2.2 left.2.1,
        index_of_inner indices right.2.2.2 right.2.1] at same
      obtain ⟨row, column⟩ := index_injective (by omega) (by omega) same
      exact Prod.ext row column
    · exact positions_nodup _ _ _ _ led

private theorem ledColors_eq_nil {led : Led} (valid : led.Valid)
    (none : ledColors width verticalBorder (width - 2 * verticalBorder) horizontalBorder
      (height - 2 * horizontalBorder) led = []) : led.skipped = true := by
  by_contra skipped
  rw [ledColors, if_neg skipped] at none
  exact positions_ne_nil hw hh vertical horizontal valid (List.map_eq_nil_iff.mp none)

theorem ledColors_length_le {led : Led} (valid : led.Valid) :
    (ledColors width verticalBorder (width - 2 * verticalBorder) horizontalBorder
      (height - 2 * horizontalBorder) led).length ≤
        (width - 2 * verticalBorder) * (height - 2 * horizontalBorder) := by
  unfold ledColors
  split_ifs
  · exact Nat.zero_le _
  · rw [List.length_map]
    exact positions_length_le hw hh vertical horizontal valid

theorem ledColors_lt (indices : IndicesFit width height horizontalBorder verticalBorder)
    {led : Led} (valid : led.Valid) :
    ∀ i ∈ ledColors width verticalBorder (width - 2 * verticalBorder) horizontalBorder
      (height - 2 * horizontalBorder) led, i < width * height := by
  intro i hi
  obtain ⟨x, y, _, hx, _, hy, rfl⟩ :=
    ledColors_inside hw hh vertical horizontal indices valid i hi
  exact Image.index_lt (by omega) (by omega)

theorem regionSound_of_fit (indices : IndicesFit width height horizontalBorder verticalBorder)
    (sums : SumsFit build width height horizontalBorder verticalBorder) {led : Led}
    (valid : led.Valid) :
    RegionSound α build width height horizontalBorder verticalBorder led
      (ledColors width verticalBorder (width - 2 * verticalBorder) horizontalBorder
        (height - 2 * horizontalBorder) led) where
  skipped := ledColors_eq_nil hw hh vertical horizontal valid
  nodup := ledColors_nodup hw hh vertical horizontal indices valid
  inside := ledColors_inside hw hh vertical horizontal indices valid
  mean image whole := by
    apply mean_sound
    · intro i hi
      exact lt_of_lt_of_le (ledColors_lt hw hh vertical horizontal indices valid i hi)
        whole.length_ge
    · have length := ledColors_length_le hw hh vertical horizontal valid
      unfold SumsFit at sums
      omega

theorem mem_positions_full {x y : Nat} (hx : verticalBorder ≤ x ∧ x < width - verticalBorder)
    (hy : horizontalBorder ≤ y ∧ y < height - horizontalBorder) :
    (y, x) ∈ positions verticalBorder (width - 2 * verticalBorder) horizontalBorder
      (height - 2 * horizontalBorder) fullLed := by
  apply List.mem_product.mpr
  constructor
  · apply (mem_visited (by omega)).mpr
    rw [show fullLed.minYFrac = 0 from rfl, show fullLed.maxYFrac = 1 from rfl,
      boundaries_full (by omega) (by omega)]
    omega
  · apply (mem_visited (by omega)).mpr
    rw [show fullLed.minXFrac = 0 from rfl, show fullLed.maxXFrac = 1 from rfl,
      boundaries_full (by omega) (by omega)]
    omega

theorem length_positions_full :
    (positions verticalBorder (width - 2 * verticalBorder) horizontalBorder
      (height - 2 * horizontalBorder) fullLed).length =
      (width - 2 * verticalBorder) * (height - 2 * horizontalBorder) := by
  have columns := visited_full_length verticalBorder (show 0 < width - 2 * verticalBorder by omega)
    (by omega)
  have rows := visited_full_length horizontalBorder
    (show 0 < height - 2 * horizontalBorder by omega) (by omega)
  rw [positions, List.length_product, show fullLed.minYFrac = 0 from rfl,
    show fullLed.maxYFrac = 1 from rfl, show fullLed.minXFrac = 0 from rfl,
    show fullLed.maxXFrac = 1 from rfl, columns, rows, Nat.mul_comm]

theorem indicesFit_of_full
    (sound : RegionSound α build width height horizontalBorder verticalBorder fullLed
      (ledColors width verticalBorder (width - 2 * verticalBorder) horizontalBorder
        (height - 2 * horizontalBorder) fullLed)) :
    IndicesFit width height horizontalBorder verticalBorder := by
  have unskipped : ¬ fullLed.skipped = true := by decide +kernel
  rw [ledColors, if_neg unskipped] at sound
  have listed := mem_positions_full hw hh vertical horizontal
    (x := width - verticalBorder - 1) (y := height - horizontalBorder - 1)
    (by omega) (by omega)
  obtain ⟨x, y, xGe, xLt, yGe, yLt, same⟩ := sound.inside _ (List.mem_map_of_mem listed)
  have other := mem_positions_full hw hh vertical horizontal ⟨xGe, xLt⟩ ⟨yGe, yLt⟩
  change unsigned (((height - horizontalBorder - 1) * width + (width - verticalBorder - 1) : Nat) :
    Int) = y * width + x at same
  have below := unsigned_lt (((height - horizontalBorder - 1) * width +
    (width - verticalBorder - 1) : Nat) : Int)
  have unwrapped : unsigned ((y * width + x : Nat) : Int) = y * width + x :=
    unsigned_of_lt (by omega)
  have equal := List.inj_on_of_nodup_map sound.nodup other listed (unwrapped.trans same.symm)
  obtain ⟨row, column⟩ := Prod.mk.inj equal
  unfold IndicesFit
  rw [← row, ← column]
  omega

theorem sumsFit_of_full
    (sound : RegionSound α build width height horizontalBorder verticalBorder fullLed
      (ledColors width verticalBorder (width - 2 * verticalBorder) horizontalBorder
        (height - 2 * horizontalBorder) fullLed)) :
    SumsFit build width height horizontalBorder verticalBorder := by
  have unskipped : ¬ fullLed.skipped = true := by decide +kernel
  rw [ledColors, if_neg unskipped] at sound
  have inside := sound.inside
  have mean := sound.mean ⟨width, height, List.replicate (width * height)
    (Pixel.ofRgb 255 255 255)⟩ ⟨rfl, rfl, by simp⟩
  have count : ((positions verticalBorder (width - 2 * verticalBorder) horizontalBorder
      (height - 2 * horizontalBorder) fullLed).map fun p =>
        unsigned ((p.1 * width + p.2 : Nat) : Int)).length =
      (width - 2 * verticalBorder) * (height - 2 * horizontalBorder) := by
    rw [List.length_map, length_positions_full hw hh vertical horizontal]
  have positive : 0 < (width - 2 * verticalBorder) * (height - 2 * horizontalBorder) :=
    Nat.mul_pos (by omega) (by omega)
  generalize (positions verticalBorder (width - 2 * verticalBorder) horizontalBorder
    (height - 2 * horizontalBorder) fullLed).map (fun p =>
      unsigned ((p.1 * width + p.2 : Nat) : Int)) = indices at inside mean count
  obtain ⟨color, computed, bounds⟩ := mean
  have some : indices ≠ [] := List.ne_nil_of_length_pos (by omega)
  obtain ⟨pixels, length, source, average_eq⟩ := calcMeanColor_returns build
    ⟨width, height, List.replicate (width * height) (Pixel.ofRgb 255 255 255 : α)⟩
    (fun i hi => by
      obtain ⟨x, y, _, hx, _, hy, rfl⟩ := inside i hi
      have bound := Image.index_lt (show x < width by omega) (show y < height by omega)
      simpa using bound) some
  have bright := (bounds some .red 255 255 fun i _ p hp => by
    rw [read_replicate hp]
    simp [Channel.ofPixel]).1
  rw [Except.ok.inj (computed.symm.trans average_eq)] at bright
  change (255 : UInt8) ≤ average build Pixel.red pixels at bright
  rw [UInt8.le_iff_toNat_le, average, UInt8.toNat_ofNat'] at bright
  have below := accumulate_lt build Pixel.red pixels
  have quotient : 255 ≤ accumulate build Pixel.red pixels / pixels.length :=
    le_trans bright (Nat.mod_le _ _)
  have product := (Nat.le_div_iff_mul_le (by omega)).mp quotient
  unfold SumsFit
  rw [← count, ← length]
  omega

end region

variable (α) in
/-- For every LED layout the map is built, and every index list is sound. -/
def MapSound (build : Build) (width height horizontalBorder verticalBorder : Nat) : Prop :=
  ∀ leds : List Led, (∀ led ∈ leds, led.Valid) →
    ∃ map, create build width height horizontalBorder verticalBorder leds = .ok map ∧
      List.Forall₂ (RegionSound α build width height horizontalBorder verticalBorder)
        leds map.colorsMap

theorem MapSound.full {build : Build} {width height horizontalBorder verticalBorder : Nat}
    (sound : MapSound α build width height horizontalBorder verticalBorder)
    (hw : width < 2 ^ 32) (hh : height < 2 ^ 32) (vertical : 2 * verticalBorder < width)
    (horizontal : 2 * horizontalBorder < height) :
    RegionSound α build width height horizontalBorder verticalBorder fullLed
      (ledColors width verticalBorder (width - 2 * verticalBorder) horizontalBorder
        (height - 2 * horizontalBorder) fullLed) := by
  obtain ⟨map, ok, regions⟩ := sound [fullLed] (by simpa using fullLed_valid)
  rw [create_of_fits build hw hh vertical horizontal] at ok
  rw [← Except.ok.inj ok] at regions
  exact (List.forall₂_cons.mp regions).1

/-- The map of a LED layout is right exactly when the indices and the sums over
the inner rectangle fit their types. -/
theorem mapSound_iff (build : Build) (width height horizontalBorder verticalBorder : Nat)
    (hw : width < 2 ^ 32) (hh : height < 2 ^ 32) (vertical : 2 * verticalBorder < width)
    (horizontal : 2 * horizontalBorder < height) :
    MapSound α build width height horizontalBorder verticalBorder ↔
      IndicesFit width height horizontalBorder verticalBorder ∧
        SumsFit build width height horizontalBorder verticalBorder := by
  constructor
  · intro sound
    have region := sound.full hw hh vertical horizontal
    exact ⟨indicesFit_of_full hw hh vertical horizontal region,
      sumsFit_of_full hw hh vertical horizontal region⟩
  · intro fits leds valid
    refine ⟨_, create_of_fits build hw hh vertical horizontal leds, ?_⟩
    apply List.forall₂_map_right_iff.mpr
    apply List.forall₂_same.mpr
    intro led hled
    exact regionSound_of_fit hw hh vertical horizontal fits.1 fits.2 (valid led hled)

theorem mapSound_64x48 : MapSound ColorRgb ⟨true, 64, by decide⟩ 64 48 2 4 :=
  (mapSound_iff ⟨true, 64, by decide⟩ 64 48 2 4 (by decide) (by decide) (by decide)
    (by decide)).mpr ⟨by unfold IndicesFit; decide, by unfold SumsFit; decide⟩

/-- With a 16-bit `uint_fast16_t` 258 white pixels are enough for a wrong mean;
with any other the unsigned index wraps beyond 2^32 pixels. -/
theorem mapSound_fails : ¬ MapSound ColorRgb ⟨true, 16, by decide⟩ 258 1 0 0 ∧
    ¬ MapSound ColorRgb ⟨true, 64, by decide⟩ 65536 65537 0 0 := by
  constructor
  · intro sound
    have fits := sumsFit_of_full (by decide) (by decide) (by decide) (by decide)
      (sound.full (by decide) (by decide) (by decide) (by decide))
    unfold SumsFit at fits
    exact absurd fits (by decide)
  · intro sound
    have fits := indicesFit_of_full (by decide) (by decide) (by decide) (by decide)
      (sound.full (by decide) (by decide) (by decide) (by decide))
    unfold IndicesFit at fits
    exact absurd fits (by decide)

end ImageToLedsMap

end HyperionNg
