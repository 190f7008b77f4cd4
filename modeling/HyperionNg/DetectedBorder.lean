import HyperionNg.BlackBorderDetector

/-! What the three detectors find. On a letterboxed picture all of them find
its border; on any picture the border they find stays below a third of the
image, or at it in the classic mode. -/

namespace HyperionNg

open Library Execution

namespace BlackBorderDetector

variable {α : Type} [Pixel α] {d : BlackBorderDetector} {image : Image α}

/-- The frame around the picture: `t` rows at the top and bottom, `l` columns
at the left and right. -/
def Margin (width height t l x y : Nat) : Prop :=
  y < t ∨ height ≤ y + t ∨ x < l ∨ width ≤ x + l

instance (width height t l x y : Nat) : Decidable (Margin width height t l x y) :=
  inferInstanceAs (Decidable (_ ∨ _ ∨ _ ∨ _))

def Letterboxed (d : BlackBorderDetector) (image : Image α) (t l : Nat) : Prop :=
  ∀ x y color, x < image.width → y < image.height → image.pixel x y = .ok color →
    (d.isBlack color = true ↔ Margin image.width image.height t l x y)

theorem isBlackAt_of_pixel {x y : Nat} {color : α} (h : image.pixel x y = .ok color) :
    d.isBlackAt image x y = .ok (d.isBlack color) := by
  rw [isBlackAt, h]
  rfl

theorem anyNotBlack_eq {points : List (Nat × Nat)} (black : Nat → Nat → Bool)
    (h : ∀ p ∈ points, d.isBlackAt image p.1 p.2 = .ok (black p.1 p.2)) :
    d.anyNotBlack image points = .ok (points.any fun p => !black p.1 p.2) := by
  induction points with
  | nil => rfl
  | cons p rest ih =>
    have head := h p (by simp)
    have tail := ih fun q hq => h q (by simp [hq])
    rw [anyNotBlack, head, List.any_cons]
    cases black p.1 p.2 with
    | true => simpa [bind, Except.bind] using tail
    | false => rfl

theorem Letterboxed.isBlackAt {t l x y : Nat} (boxed : Letterboxed d image t l)
    (complete : image.Complete) (hx : x < image.width) (hy : y < image.height) :
    d.isBlackAt image x y = .ok (decide (Margin image.width image.height t l x y)) := by
  obtain ⟨color, found⟩ := complete.exists_pixel hx hy
  rw [isBlackAt_of_pixel found]
  exact congrArg _ (Bool.eq_iff_iff.mpr ((boxed x y color hx hy found).trans (by simp)))

theorem Letterboxed.anyNotBlack {t l : Nat} (boxed : Letterboxed d image t l)
    (complete : image.Complete) {points : List (Nat × Nat)}
    (inside : ∀ p ∈ points, p.1 < image.width ∧ p.2 < image.height) :
    d.anyNotBlack image points =
      .ok (points.any fun p => !decide (Margin image.width image.height t l p.1 p.2)) :=
  anyNotBlack_eq (fun x y => decide (Margin image.width image.height t l x y)) fun p hp =>
    boxed.isBlackAt complete (inside p hp).1 (inside p hp).2

theorem unsigned_far {size i : Nat} (size_lt : size < 2 ^ 32) (lt : i < size) :
    unsigned ((size : Int) - 1 - i) = size - 1 - i := by
  have same : (size : Int) - 1 - i = ((size - 1 - i : Nat) : Int) := by omega
  rw [same]
  exact unsigned_of_lt (by omega)

/-- A scan whose points lie in the margin before step `n`, and not all of them
at it, ends there. -/
theorem Letterboxed.first_scan {t l : Nat} (boxed : Letterboxed d image t l)
    (complete : image.Complete) {points : Nat → List (Nat × Nat)} {count n : Nat}
    (lt : n < count)
    (inside : ∀ j < count, ∀ p ∈ points j, p.1 < image.width ∧ p.2 < image.height)
    (before : ∀ j < n, ∀ p ∈ points j, Margin image.width image.height t l p.1 p.2)
    (inner : ∃ p ∈ points n, ¬ Margin image.width image.height t l p.1 p.2) :
    Search.first (fun j => d.anyNotBlack image (points j)) 0 count = .ok (some n) := by
  apply Search.first_of_least (by omega) (by omega)
  · intro j _ hj
    rw [boxed.anyNotBlack complete (inside j (by omega))]
    have none : (points j).any (fun p =>
        !decide (Margin image.width image.height t l p.1 p.2)) = false := by
      apply List.any_eq_false.mpr
      intro p hp
      simp [before j hj p hp]
    rw [none]
  · rw [boxed.anyNotBlack complete (inside n lt)]
    have some : (points n).any (fun p =>
        !decide (Margin image.width image.height t l p.1 p.2)) = true := by
      obtain ⟨p, hp, picture⟩ := inner
      exact List.any_eq_true.mpr ⟨p, hp, by simp [picture]⟩
    rw [some]

theorem Letterboxed.columns {t l : Nat} (boxed : Letterboxed d image t l)
    (complete : image.Complete) (ht : t < image.height / 3) (hl : l < image.width / 3) :
    Search.first (fun x => d.anyNotBlack image
      [(unsigned ((image.width : Int) - 1 - x), image.height / 2), (x, image.height / 3),
        (x, image.height / 3 * 2)]) 0 (image.width / 3) = .ok (some l) := by
  have bound := complete.width_lt
  apply boxed.first_scan complete hl
  · intro x hx
    rw [unsigned_far bound (by omega)]
    simp only [List.forall_mem_cons, List.not_mem_nil, false_implies, implies_true, and_true]
    omega
  · intro x hx
    rw [unsigned_far bound (by omega)]
    simp only [List.forall_mem_cons, List.not_mem_nil, false_implies, implies_true, and_true,
      Margin]
    omega
  · refine ⟨(l, image.height / 3), by simp, ?_⟩
    unfold Margin
    omega

theorem Letterboxed.process {t l : Nat} (boxed : Letterboxed d image t l)
    (complete : image.Complete) (ht : t < image.height / 3) (hl : l < image.width / 3) :
    d.process image = .ok ⟨false, t, l⟩ := by
  have bound := complete.height_lt
  have rows : Search.first (fun y => d.anyNotBlack image
      [(image.width / 2, unsigned ((image.height : Int) - 1 - y)), (image.width / 3, y),
        (image.width / 3 * 2, y)]) 0 (image.height / 3) = .ok (some t) := by
    apply boxed.first_scan complete ht
    · intro y hy
      rw [unsigned_far bound (by omega)]
      simp only [List.forall_mem_cons, List.not_mem_nil, false_implies, implies_true, and_true]
      omega
    · intro y hy
      rw [unsigned_far bound (by omega)]
      simp only [List.forall_mem_cons, List.not_mem_nil, false_implies, implies_true, and_true,
        Margin]
      omega
    · refine ⟨(image.width / 3, t), by simp, ?_⟩
      unfold Margin
      omega
  rw [BlackBorderDetector.process]
  simp only [boxed.columns complete ht hl, rows, bind, Except.bind]
  rfl

/-- The classic walk over a known pattern: down the diagonal to step `i`, left
along its row to column `x`, up that column to row `y`. -/
theorem processClassic_eq {black : Nat → Nat → Bool} {i x y : Nat}
    (blackAt : ∀ x y, x ≤ image.width / 3 → y ≤ image.height / 3 →
      d.isBlackAt image x y = .ok (black x y))
    (lt : i < max (image.width / 3) (image.height / 3))
    (before : ∀ j < i, black (min j (image.width / 3)) (min j (image.height / 3)) = true)
    (stop : black (min i (image.width / 3)) (min i (image.height / 3)) = false)
    (xLe : x ≤ min i (image.width / 3))
    (row : ∀ x', x ≤ x' → x' < min i (image.width / 3) →
      black x' (min i (image.height / 3)) = false)
    (left : x = 0 ∨ black (x - 1) (min i (image.height / 3)) = true)
    (yLe : y ≤ min i (image.height / 3))
    (column : ∀ y', y ≤ y' → y' < min i (image.height / 3) → black x y' = false)
    (up : y = 0 ∨ black x (y - 1) = true) :
    d.processClassic image = .ok ⟨false, y, x⟩ := by
  have diagonal : Search.first (fun i =>
      return !(← d.isBlackAt image (min i (image.width / 3)) (min i (image.height / 3)))) 0
      (max (image.width / 3) (image.height / 3)) = .ok (some i) := by
    apply Search.first_of_least (by omega) (by omega)
    · intro j _ hj
      rw [blackAt _ _ (by omega) (by omega), before j hj]
      rfl
    · rw [blackAt _ _ (by omega) (by omega), stop]
      rfl
  have toColumn : Search.lower (fun x => d.isBlackAt image x (min i (image.height / 3)))
      (min i (image.width / 3)) = .ok x := by
    apply Search.lower_of_stop xLe
    · intro x' hle hlt
      rw [blackAt _ _ (by omega) (by omega), row x' hle hlt]
    · rw [blackAt _ _ (by omega) (by omega)]
      exact left.imp_right (congrArg Except.ok)
  have toRow : Search.lower (fun y => d.isBlackAt image x y) (min i (image.height / 3)) =
      .ok y := by
    apply Search.lower_of_stop yLe
    · intro y' hle hlt
      rw [blackAt _ _ (by omega) (by omega), column y' hle hlt]
    · rw [blackAt _ _ (by omega) (by omega)]
      exact up.imp_right (congrArg Except.ok)
  simp only [processClassic, diagonal]
  simp only [toColumn, toRow, bind, Except.bind]
  rfl

/-- The diagonal meets the picture at step `max l t`; going back left and up
from there ends at its corner. -/
theorem Letterboxed.processClassic {t l : Nat} (boxed : Letterboxed d image t l)
    (complete : image.Complete) (ht : t < image.height / 3) (hl : l < image.width / 3) :
    d.processClassic image = .ok ⟨false, t, l⟩ := by
  have blackAt : ∀ x y, x ≤ image.width / 3 → y ≤ image.height / 3 →
      d.isBlackAt image x y = .ok (decide (y < t ∨ x < l)) := by
    intro x y hx hy
    rw [boxed.isBlackAt complete (by omega) (by omega)]
    have same : Margin image.width image.height t l x y ↔ y < t ∨ x < l := by
      unfold Margin
      omega
    simp [same]
  refine processClassic_eq (i := max l t) blackAt (by omega) ?_ ?_ (by omega) ?_ ?_ (by omega)
    ?_ ?_
  · intro j hj
    exact decide_eq_true (by omega)
  · exact decide_eq_false (by omega)
  · intro x hle hlt
    exact decide_eq_false (by omega)
  · rw [decide_eq_true_eq]
    omega
  · intro y hle hlt
    exact decide_eq_false (by omega)
  · rw [decide_eq_true_eq]
    omega

theorem Letterboxed.processOsd {t l : Nat} (boxed : Letterboxed d image t l)
    (complete : image.Complete) (ht : t < image.height / 3) (hl : l < image.width / 3) :
    d.processOsd image = .ok ⟨false, t, l⟩ := by
  have wide := complete.width_lt
  have high := complete.height_lt
  have rows : Search.first (fun y => d.anyNotBlack image
      [(l, y), (l, unsigned ((image.height : Int) - 1 - y)),
        (unsigned ((image.width : Int) - 1 - l), y),
        (unsigned ((image.width : Int) - 1 - l), unsigned ((image.height : Int) - 1 - y))])
      0 (image.height / 3) = .ok (some t) := by
    apply boxed.first_scan complete ht
    · intro y hy
      rw [unsigned_far wide (by omega), unsigned_far high (by omega)]
      simp only [List.forall_mem_cons, List.not_mem_nil, false_implies, implies_true, and_true]
      omega
    · intro y hy
      rw [unsigned_far wide (by omega), unsigned_far high (by omega)]
      simp only [List.forall_mem_cons, List.not_mem_nil, false_implies, implies_true, and_true,
        Margin]
      omega
    · refine ⟨(l, t), by simp, ?_⟩
      unfold Margin
      omega
  rw [BlackBorderDetector.processOsd]
  simp only [boxed.columns complete ht hl, Option.getD_some, rows, bind, Except.bind]
  rfl

theorem detect_letterboxed {t l : Nat} (mode : DetectionMode) (boxed : Letterboxed d image t l)
    (complete : image.Complete) (ht : t < image.height / 3) (hl : l < image.width / 3) :
    d.detect image mode = .ok ⟨false, t, l⟩ := by
  cases mode with
  | default => exact boxed.process complete ht hl
  | classic => exact boxed.processClassic complete ht hl
  | osd => exact boxed.processOsd complete ht hl

/-- On every letterboxed picture the three detectors agree on its border. -/
theorem detectors_find_letterbox (d : BlackBorderDetector) (image : Image α)
    (complete : image.Complete) (t l : Nat) (ht : t < image.height / 3)
    (hl : l < image.width / 3) (boxed : Letterboxed d image t l) :
    d.process image = .ok ⟨false, t, l⟩ ∧ d.processClassic image = .ok ⟨false, t, l⟩ ∧
      d.processOsd image = .ok ⟨false, t, l⟩ :=
  ⟨boxed.process complete ht hl, boxed.processClassic complete ht hl,
    boxed.processOsd complete ht hl⟩

def letterbox (α : Type) [Pixel α] (width height t l : Nat) : Image α :=
  Image.ofColors width height fun x y =>
    if Margin width height t l x y then Pixel.ofRgb 0 0 0 else Pixel.ofRgb 255 255 255

private theorem isBlack_black (positive : d.blackborderThreshold ≠ 0) :
    d.isBlack (Pixel.ofRgb 0 0 0 : α) = true := by
  have lt : 0 < d.blackborderThreshold := UInt8.pos_iff_ne_zero.mpr positive
  simp [isBlack, lt]

private theorem isBlack_white : d.isBlack (Pixel.ofRgb 255 255 255 : α) = false := by
  have le : d.blackborderThreshold.toNat ≤ 255 := Nat.le_of_lt_succ d.blackborderThreshold.toNat_lt
  have above : ¬ (255 < d.blackborderThreshold) := by
    rw [UInt8.lt_iff_toNat_lt]
    exact Nat.not_lt.mpr le
  simp [isBlack, above]

theorem letterbox_letterboxed {width height t l : Nat} (size : width * height < 2 ^ 32)
    (positive : d.blackborderThreshold ≠ 0) :
    Letterboxed d (letterbox α width height t l) t l := by
  intro x y color hx hy found
  have shown := Image.ofColors_pixel (fun x y => if Margin width height t l x y
    then (Pixel.ofRgb 0 0 0 : α) else Pixel.ofRgb 255 255 255) size hx hy
  rw [Except.ok.inj (found.symm.trans shown)]
  change _ ↔ Margin width height t l x y
  split_ifs with margin
  · simp [margin, isBlack_black positive]
  · simp [margin, isBlack_white]

theorem detectors_find_letterbox_12x9 :
    (⟨3⟩ : BlackBorderDetector).process (letterbox ColorRgb 12 9 2 1) = .ok ⟨false, 2, 1⟩ :=
  (detectors_find_letterbox ⟨3⟩ (letterbox ColorRgb 12 9 2 1)
    (Image.ofColors_complete _ (by decide) (by decide) (by decide)) 2 1 (by decide) (by decide)
    (letterbox_letterboxed (by decide) (by decide))).1

variable (d) in
/-- The largest horizontal and vertical border a mode can find in an image of
this size. The diagonal of the classic mode may touch the third itself; with
threshold 0 nothing is black. -/
def largestBorder (mode : DetectionMode) (width height : Nat) : Nat × Nat :=
  if d.blackborderThreshold = 0 then (0, 0)
  else match mode with
    | .classic =>
      let last := max (width / 3) (height / 3) - 1
      (min last (height / 3), min last (width / 3))
    | _ => if width < 3 ∨ height < 3 then (0, 0) else (height / 3 - 1, width / 3 - 1)

private theorem largestBorder_of_lines {mode : DetectionMode} (lines : mode ≠ .classic)
    (positive : d.blackborderThreshold ≠ 0) (width height : Nat) :
    d.largestBorder mode width height =
      if width < 3 ∨ height < 3 then (0, 0) else (height / 3 - 1, width / 3 - 1) := by
  rw [largestBorder, if_neg positive]
  exact lines

theorem isBlackAt_threshold_zero (zero : d.blackborderThreshold = 0) {x y : Nat} {black : Bool}
    (h : d.isBlackAt image x y = .ok black) : black = false := by
  obtain ⟨color, _, hblack⟩ := bind_eq_ok.mp h
  have same : d.isBlack color = black := pure_eq_ok.mp hblack
  rw [← same, isBlack, zero]
  simp

theorem anyNotBlack_threshold_zero (zero : d.blackborderThreshold = 0) {p : Nat × Nat}
    {rest : List (Nat × Nat)} {passes : Bool}
    (h : d.anyNotBlack image (p :: rest) = .ok passes) : passes = true := by
  obtain ⟨black, hblack, hrest⟩ := bind_eq_ok.mp h
  rw [isBlackAt_threshold_zero zero hblack] at hrest
  exact (Except.ok.inj hrest).symm

theorem ofIndices_known {firstX firstY : Option Nat}
    (known : (BlackBorder.ofIndices firstX firstY).unknown = false) :
    ∃ x y, firstX = some x ∧ firstY = some y ∧
      BlackBorder.ofIndices firstX firstY = ⟨false, y, x⟩ := by
  cases firstX with
  | none => simp [BlackBorder.ofIndices] at known
  | some x =>
    cases firstY with
    | none => simp [BlackBorder.ofIndices] at known
    | some y => exact ⟨x, y, rfl, rfl, rfl⟩

theorem lines_within {mode : DetectionMode} (lines : mode ≠ .classic) {width height x y : Nat}
    {columns rows : Nat → Except ImageFault Bool}
    (hx : Search.first columns 0 (width / 3) = .ok (some x))
    (hy : Search.first rows 0 (height / 3) = .ok (some y))
    (columnsZero : d.blackborderThreshold = 0 → ∀ j passes, columns j = .ok passes → passes = true)
    (rowsZero : d.blackborderThreshold = 0 → ∀ j passes, rows j = .ok passes → passes = true) :
    y ≤ (d.largestBorder mode width height).1 ∧ x ≤ (d.largestBorder mode width height).2 := by
  have xRange := Search.first_range hx
  have yRange := Search.first_range hy
  by_cases zero : d.blackborderThreshold = 0
  · have xZero := Search.first_of_always (columnsZero zero) hx
    have yZero := Search.first_of_always (rowsZero zero) hy
    simp [largestBorder, zero, xZero, yZero]
  · have large : ¬ (width < 3 ∨ height < 3) := by omega
    rw [largestBorder_of_lines lines zero, if_neg large]
    dsimp only
    omega

theorem process_within {b : BlackBorder} (found : d.process image = .ok b)
    (known : b.unknown = false) : ∃ y x : Nat, b = ⟨false, y, x⟩ ∧
      y ≤ (d.largestBorder .default image.width image.height).1 ∧
      x ≤ (d.largestBorder .default image.width image.height).2 := by
  obtain ⟨firstX, columns, hrest⟩ := bind_eq_ok.mp found
  obtain ⟨firstY, rows, hpure⟩ := bind_eq_ok.mp hrest
  rw [← pure_eq_ok.mp hpure] at known ⊢
  obtain ⟨x, y, rfl, rfl, border⟩ := ofIndices_known known
  exact ⟨y, x, border, lines_within (by decide) columns rows
    (fun zero _ _ => anyNotBlack_threshold_zero zero)
    (fun zero _ _ => anyNotBlack_threshold_zero zero)⟩

theorem processOsd_within {b : BlackBorder} (found : d.processOsd image = .ok b)
    (known : b.unknown = false) : ∃ y x : Nat, b = ⟨false, y, x⟩ ∧
      y ≤ (d.largestBorder .osd image.width image.height).1 ∧
      x ≤ (d.largestBorder .osd image.width image.height).2 := by
  obtain ⟨firstX, columns, hrest⟩ := bind_eq_ok.mp found
  obtain ⟨firstY, rows, hpure⟩ := bind_eq_ok.mp hrest
  rw [← pure_eq_ok.mp hpure] at known ⊢
  obtain ⟨x, y, rfl, rfl, border⟩ := ofIndices_known known
  exact ⟨y, x, border, lines_within (by decide) columns rows
    (fun zero _ _ => anyNotBlack_threshold_zero zero)
    (fun zero _ _ => anyNotBlack_threshold_zero zero)⟩

theorem processClassic_within {b : BlackBorder} (found : d.processClassic image = .ok b)
    (known : b.unknown = false) : ∃ y x : Nat, b = ⟨false, y, x⟩ ∧
      y ≤ (d.largestBorder .classic image.width image.height).1 ∧
      x ≤ (d.largestBorder .classic image.width image.height).2 := by
  obtain ⟨start, diagonal, hrest⟩ := bind_eq_ok.mp found
  cases start with
  | none =>
    rw [← pure_eq_ok.mp hrest] at known
    exact absurd known (by decide)
  | some i =>
    obtain ⟨x, left, hrest⟩ := bind_eq_ok.mp hrest
    obtain ⟨y, up, hpure⟩ := bind_eq_ok.mp hrest
    have range := Search.first_range diagonal
    have xLe := Search.lower_le left
    have yLe := Search.lower_le up
    refine ⟨y, x, (pure_eq_ok.mp hpure).symm, ?_⟩
    by_cases zero : d.blackborderThreshold = 0
    · have iZero : i = 0 := Search.first_of_always (fun j passes h => by
        obtain ⟨black, hblack, hnot⟩ := bind_eq_ok.mp h
        rw [isBlackAt_threshold_zero zero hblack] at hnot
        exact (pure_eq_ok.mp hnot).symm) diagonal
      simp only [largestBorder, zero, ↓reduceIte]
      omega
    · simp only [largestBorder, zero, ↓reduceIte]
      omega

theorem detect_within {b : BlackBorder} {mode : DetectionMode}
    (found : d.detect image mode = .ok b) (known : b.unknown = false) :
    ∃ y x : Nat, b = ⟨false, y, x⟩ ∧
      y ≤ (d.largestBorder mode image.width image.height).1 ∧
      x ≤ (d.largestBorder mode image.width image.height).2 := by
  cases mode with
  | default => exact process_within found known
  | classic => exact processClassic_within found known
  | osd => exact processOsd_within found known

/-- One white pixel where the diagonal of the classic mode ends. -/
def corner (α : Type) [Pixel α] (width height : Nat) : Image α :=
  let last := max (width / 3) (height / 3) - 1
  Image.ofColors width height fun x y =>
    if x = min last (width / 3) ∧ y = min last (height / 3) then Pixel.ofRgb 255 255 255
    else Pixel.ofRgb 0 0 0

theorem corner_classic {width height : Nat} (size : width * height < 2 ^ 32) (hw : 0 < width)
    (hh : 0 < height) (positive : d.blackborderThreshold ≠ 0)
    (scanned : 0 < max (width / 3) (height / 3)) :
    d.processClassic (corner α width height) =
      .ok ⟨false, (min (max (width / 3) (height / 3) - 1) (height / 3) : Nat),
        (min (max (width / 3) (height / 3) - 1) (width / 3) : Nat)⟩ := by
  set last := max (width / 3) (height / 3) - 1 with hlast
  have blackAt : ∀ x y, x ≤ width / 3 → y ≤ height / 3 →
      d.isBlackAt (corner α width height) x y =
        .ok (decide ¬ (x = min last (width / 3) ∧ y = min last (height / 3))) := by
    intro x y hx hy
    have shown := Image.ofColors_pixel (fun x y =>
      if x = min last (width / 3) ∧ y = min last (height / 3) then (Pixel.ofRgb 255 255 255 : α)
      else Pixel.ofRgb 0 0 0) size (show x < width by omega) (show y < height by omega)
    have shown : (corner α width height).pixel x y = _ := shown
    rw [isBlackAt_of_pixel shown]
    split_ifs with white
    · simp [white, isBlack_white]
    · simp [white, isBlack_black positive]
  have wide : (corner α width height).width = width := rfl
  have high : (corner α width height).height = height := rfl
  refine processClassic_eq (i := last) blackAt (by omega) ?_ ?_ (by omega) ?_ ?_ (by omega) ?_ ?_
  · intro j hj
    exact decide_eq_true (by omega)
  · rw [wide, high]
    exact decide_eq_false (by simp)
  · intro x hle hlt
    omega
  · rw [decide_eq_true_eq]
    omega
  · intro y hle hlt
    omega
  · rw [decide_eq_true_eq]
    omega

theorem exists_largest (α : Type) [Pixel α] (mode : DetectionMode) {width height : Nat}
    (hw : 0 < width) (hh : 0 < height) (size : width * height + 1 < 2 ^ 32)
    (some : d.largestBorder mode width height ≠ (0, 0)) :
    ∃ image : Image α, image.Complete ∧ image.width = width ∧ image.height = height ∧
      d.detect image mode = .ok ⟨false, (d.largestBorder mode width height).1,
        (d.largestBorder mode width height).2⟩ := by
  have positive : d.blackborderThreshold ≠ 0 := by
    intro zero
    simp [largestBorder, zero] at some
  have lines : mode ≠ .classic → ¬ (width < 3 ∨ height < 3) ∧
      d.largestBorder mode width height = (height / 3 - 1, width / 3 - 1) := by
    intro lines
    rw [largestBorder_of_lines lines positive] at some ⊢
    split_ifs at some ⊢ with small
    · exact absurd rfl some
    · exact ⟨small, rfl⟩
  by_cases classic : mode = .classic
  · subst classic
    have scanned : 0 < max (width / 3) (height / 3) := by
      by_contra none
      have zero : max (width / 3) (height / 3) = 0 := by omega
      simp [largestBorder, zero] at some
    have found := corner_classic (α := α) (by omega) hw hh positive scanned
    have complete : (corner α width height).Complete := by
      unfold corner
      exact Image.ofColors_complete _ hw hh size
    refine ⟨corner α width height, complete, rfl, rfl, ?_⟩
    rw [largestBorder, if_neg positive]
    exact found
  · obtain ⟨large, border⟩ := lines classic
    have boxed : Letterboxed d (letterbox α width height (height / 3 - 1) (width / 3 - 1))
        (height / 3 - 1) (width / 3 - 1) := letterbox_letterboxed (by omega) positive
    have complete : (letterbox α width height (height / 3 - 1) (width / 3 - 1)).Complete :=
      Image.ofColors_complete _ hw hh size
    have t : height / 3 - 1 < height / 3 := by omega
    have l : width / 3 - 1 < width / 3 := by omega
    refine ⟨_, complete, rfl, rfl, ?_⟩
    rw [detect_letterboxed mode boxed complete t l, border]

end BlackBorderDetector

end HyperionNg
