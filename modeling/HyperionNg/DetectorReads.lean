import HyperionNg.DetectedBorder

/-! Where the detectors look. With their pixel test as a parameter they are
scans over coordinates; whatever the test answers, every coordinate lies in the
image and the sizes found stay within its thirds. -/

namespace HyperionNg

open Library Execution

namespace BlackBorderDetector

section scans

variable {ε : Type} (anyNotBlack : List (Nat × Nat) → Except ε Bool) (width height : Nat)

def columnsWith : Except ε (Option Nat) :=
  let right : Int := width - 1
  Search.first (fun x => anyNotBlack
    [(unsigned (right - x), height / 2), (x, height / 3), (x, height / 3 * 2)]) 0 (width / 3)

def processWith : Except ε BlackBorder := do
  let bottom : Int := height - 1
  let firstNonBlackX ← columnsWith anyNotBlack width height
  let firstNonBlackY ← Search.first (fun y => anyNotBlack
    [(width / 2, unsigned (bottom - y)), (width / 3, y), (width / 3 * 2, y)]) 0 (height / 3)
  pure (BlackBorder.ofIndices firstNonBlackX firstNonBlackY)

def processClassicWith : Except ε BlackBorder := do
  let some i ← Search.first (fun i => anyNotBlack [(min i (width / 3), min i (height / 3))]) 0
    (max (width / 3) (height / 3)) | pure (BlackBorder.ofIndices none none)
  let x ← Search.lower (fun x => (anyNotBlack [(x, min i (height / 3))]).map not)
    (min i (width / 3))
  let y ← Search.lower (fun y => (anyNotBlack [(x, y)]).map not) (min i (height / 3))
  pure (BlackBorder.ofIndices (some x) (some y))

def processOsdWith : Except ε BlackBorder := do
  let right : Int := width - 1
  let bottom : Int := height - 1
  let firstNonBlackX ← columnsWith anyNotBlack width height
  let x := firstNonBlackX.getD (width / 3)
  let firstNonBlackY ← Search.first (fun y => anyNotBlack
    [(x, y), (x, unsigned (bottom - y)), (unsigned (right - x), y),
      (unsigned (right - x), unsigned (bottom - y))]) 0 (height / 3)
  pure (BlackBorder.ofIndices firstNonBlackX firstNonBlackY)

def detectWith : DetectionMode → Except ε BlackBorder
  | .default => processWith anyNotBlack width height
  | .classic => processClassicWith anyNotBlack width height
  | .osd => processOsdWith anyNotBlack width height

end scans

variable {α : Type} [Pixel α]

private theorem anyNotBlack_single (d : BlackBorderDetector) (image : Image α) (x y : Nat) :
    d.anyNotBlack image [(x, y)] = (d.isBlackAt image x y).map not := by
  rw [anyNotBlack]
  cases d.isBlackAt image x y with
  | error fault => rfl
  | ok black => cases black <;> rfl

theorem detect_eq_detectWith (d : BlackBorderDetector) (image : Image α) (mode : DetectionMode) :
    d.detect image mode = detectWith (d.anyNotBlack image) image.width image.height mode := by
  cases mode with
  | default => rfl
  | osd => rfl
  | classic =>
    have back : ∀ x y, ((d.isBlackAt image x y).map not).map not = d.isBlackAt image x y := by
      intro x y
      cases d.isBlackAt image x y with
      | error fault => rfl
      | ok black => cases black <;> rfl
    have scans : processClassicWith (d.anyNotBlack image) image.width image.height =
        d.processClassic image := by
      simp only [processClassicWith, anyNotBlack_single, back]
      rfl
    exact scans.symm

def Inside (width height : Nat) (points : List (Nat × Nat)) : Prop :=
  ∀ p ∈ points, p.1 < width ∧ p.2 < height

instance (width height : Nat) (points : List (Nat × Nat)) :
    Decidable (Inside width height points) :=
  inferInstanceAs (Decidable (∀ _ ∈ _, _ ∧ _))

/-- The test as the source makes it: all pixels are looked up, then compared. A
look-up beside the image is a fault. -/
def anyNotBlackInside (d : BlackBorderDetector) (image : Image α) (points : List (Nat × Nat)) :
    Except ImageFault Bool :=
  if Inside image.width image.height points then d.anyNotBlack image points
  else .error .outsideBuffer

/-- A border as large as a third of the image at most, or not found. -/
structure Sized (width height : Nat) (border : BlackBorder) : Prop where
  vertical : border.verticalSize = -1 ∨
    0 ≤ border.verticalSize ∧ border.verticalSize ≤ (width / 3 : Nat)
  horizontal : border.horizontalSize = -1 ∨
    0 ≤ border.horizontalSize ∧ border.horizontalSize ≤ (height / 3 : Nat)
  unknown : border.unknown = true ↔ border.verticalSize = -1 ∨ border.horizontalSize = -1

theorem sized_ofIndices {width height : Nat} {x y : Option Nat} (hx : ∀ i ∈ x, i ≤ width / 3)
    (hy : ∀ i ∈ y, i ≤ height / 3) : Sized width height (BlackBorder.ofIndices x y) where
  vertical := by
    cases x with
    | none => exact Or.inl rfl
    | some i => exact Or.inr ⟨Int.natCast_nonneg i, Int.ofNat_le.mpr (hx i rfl)⟩
  horizontal := by
    cases y with
    | none => exact Or.inl rfl
    | some i => exact Or.inr ⟨Int.natCast_nonneg i, Int.ofNat_le.mpr (hy i rfl)⟩
  unknown := by
    have found : ∀ i : Nat, (i : Int) ≠ -1 := by omega
    cases x <;> cases y <;> simp [BlackBorder.ofIndices, found]

def Answers {ε : Type} (width height : Nat) (answer : List (Nat × Nat) → Bool)
    (test : List (Nat × Nat) → Except ε Bool) : Prop :=
  ∀ points, Inside width height points → test points = .ok (answer points)

section answers

variable {ε : Type} {width height : Nat} (answer : List (Nat × Nat) → Bool)

theorem exists_scan (points : Nat → List (Nat × Nat)) (count : Nat)
    (inside : ∀ j < count, Inside width height (points j)) :
    ∃ found : Option Nat, (∀ i ∈ found, i < count) ∧
      ∀ test : List (Nat × Nat) → Except ε Bool, Answers width height answer test →
        Search.first (fun j => test (points j)) 0 count = .ok found := by
  refine ⟨(List.range' 0 count).find? fun j => answer (points j), fun i mem => ?_,
    fun test answers => Search.first_of_answers fun j _ hj => answers _ (inside j (by omega))⟩
  have range : 0 ≤ i ∧ i < 0 + count := by simpa using List.mem_of_find?_eq_some mem
  omega

theorem exists_columns (wide : width < 2 ^ 32) (rows : 0 < height) :
    ∃ x : Option Nat, (∀ i ∈ x, i < width / 3) ∧
      ∀ test : List (Nat × Nat) → Except ε Bool, Answers width height answer test →
        columnsWith test width height = .ok x := by
  refine exists_scan answer _ _ fun x hx => ?_
  rw [unsigned_far wide (by omega)]
  simp only [Inside, List.forall_mem_cons, List.not_mem_nil, false_implies, implies_true, and_true]
  omega

theorem exists_process (wide : width < 2 ^ 32) (high : height < 2 ^ 32) (columns : 0 < width)
    (rows : 0 < height) : ∃ border, Sized width height border ∧
      ∀ test : List (Nat × Nat) → Except ε Bool, Answers width height answer test →
        processWith test width height = .ok border := by
  obtain ⟨x, xLt, hx⟩ := exists_columns (ε := ε) answer wide rows
  obtain ⟨y, yLt, hy⟩ := @exists_scan ε width height answer
    (fun y => [(width / 2, unsigned ((height : Int) - 1 - y)), (width / 3, y), (width / 3 * 2, y)])
    (height / 3) fun y hy => by
    rw [unsigned_far high (by omega)]
    simp only [Inside, List.forall_mem_cons, List.not_mem_nil, false_implies, implies_true,
      and_true]
    omega
  refine ⟨_, sized_ofIndices (fun i mem => (xLt i mem).le) (fun i mem => (yLt i mem).le),
    fun test answers => ?_⟩
  simp only [processWith, hx test answers, hy test answers, bind, Except.bind]
  rfl

theorem exists_processOsd (wide : width < 2 ^ 32) (high : height < 2 ^ 32) (columns : 0 < width)
    (rows : 0 < height) : ∃ border, Sized width height border ∧
      ∀ test : List (Nat × Nat) → Except ε Bool, Answers width height answer test →
        processOsdWith test width height = .ok border := by
  obtain ⟨x, xLt, hx⟩ := exists_columns (ε := ε) answer wide rows
  have last : x.getD (width / 3) < width := by
    cases x with
    | none => exact Nat.div_lt_self columns (by omega)
    | some i =>
      have below := xLt i rfl
      simp only [Option.getD_some]
      omega
  obtain ⟨y, yLt, hy⟩ := @exists_scan ε width height answer
    (fun y => [(x.getD (width / 3), y),
      (x.getD (width / 3), unsigned ((height : Int) - 1 - y)),
      (unsigned ((width : Int) - 1 - (x.getD (width / 3) : Nat)), y),
      (unsigned ((width : Int) - 1 - (x.getD (width / 3) : Nat)),
        unsigned ((height : Int) - 1 - y))]) (height / 3) fun y hy => by
    rw [unsigned_far high (by omega), unsigned_far wide last]
    simp only [Inside, List.forall_mem_cons, List.not_mem_nil, false_implies, implies_true,
      and_true]
    omega
  refine ⟨_, sized_ofIndices (fun i mem => (xLt i mem).le) (fun i mem => (yLt i mem).le),
    fun test answers => ?_⟩
  simp only [processOsdWith, hx test answers, hy test answers, bind, Except.bind]
  rfl

theorem exists_processClassic (columns : 0 < width) (rows : 0 < height) :
    ∃ border, Sized width height border ∧
      ∀ test : List (Nat × Nat) → Except ε Bool, Answers width height answer test →
        processClassicWith test width height = .ok border := by
  have inside : ∀ x y, x ≤ width / 3 → y ≤ height / 3 → Inside width height [(x, y)] := by
    intro x y hx hy
    simp only [Inside, List.forall_mem_cons, List.not_mem_nil, false_implies, implies_true,
      and_true]
    omega
  have single : ∀ test : List (Nat × Nat) → Except ε Bool, Answers width height answer test →
      ∀ x y, x ≤ width / 3 → y ≤ height / 3 →
        (test [(x, y)]).map not = .ok (!answer [(x, y)]) := by
    intro test answers x y hx hy
    rw [answers _ (inside x y hx hy)]
    rfl
  obtain ⟨found, -, hfound⟩ := @exists_scan ε width height answer
    (fun i => [(min i (width / 3), min i (height / 3))]) (max (width / 3) (height / 3)) fun i _ =>
      inside _ _ (min_le_right _ _) (min_le_right _ _)
  cases found with
  | none =>
    refine ⟨_, sized_ofIndices (x := none) (y := none) nofun nofun, fun test answers => ?_⟩
    simp only [processClassicWith, hfound test answers, bind, Except.bind]
    rfl
  | some i =>
    obtain ⟨x, xLe, hx⟩ := Search.exists_lower (ε := ε)
      (fun x => !answer [(x, min i (height / 3))]) (min i (width / 3))
    obtain ⟨y, yLe, hy⟩ := Search.exists_lower (ε := ε) (fun y => !answer [(x, y)])
      (min i (height / 3))
    have left : x ≤ width / 3 := xLe.trans (min_le_right _ _)
    have top : y ≤ height / 3 := yLe.trans (min_le_right _ _)
    refine ⟨_, sized_ofIndices (x := some x) (y := some y)
      (fun j mem => Option.some.inj mem ▸ left) (fun j mem => Option.some.inj mem ▸ top),
      fun test answers => ?_⟩
    have row := hx (fun x => (test [(x, min i (height / 3))]).map not) fun j hj =>
      single test answers j _ (by omega) (min_le_right _ _)
    have column := hy (fun y => (test [(x, y)]).map not) fun j hj =>
      single test answers x j left (by omega)
    simp only [processClassicWith, hfound test answers, row, column, bind, Except.bind]
    rfl

theorem exists_detect (wide : width < 2 ^ 32) (high : height < 2 ^ 32) (columns : 0 < width)
    (rows : 0 < height) (mode : DetectionMode) : ∃ border, Sized width height border ∧
      ∀ test : List (Nat × Nat) → Except ε Bool, Answers width height answer test →
        detectWith test width height mode = .ok border := by
  cases mode with
  | default => exact exists_process answer wide high columns rows
  | classic => exact exists_processClassic answer columns rows
  | osd => exact exists_processOsd answer wide high columns rows

end answers

theorem exists_answers (d : BlackBorderDetector) {image : Image α} (complete : image.Complete) :
    ∃ answer, Answers image.width image.height answer (d.anyNotBlack image) := by
  have pixels : ∀ x y, ∃ black, x < image.width → y < image.height →
      d.isBlackAt image x y = .ok black := by
    intro x y
    by_cases within : x < image.width ∧ y < image.height
    · obtain ⟨color, found⟩ := complete.exists_pixel within.1 within.2
      exact ⟨_, fun _ _ => isBlackAt_of_pixel found⟩
    · exact ⟨true, fun hx hy => absurd ⟨hx, hy⟩ within⟩
  choose black hblack using pixels
  exact ⟨_, fun points within => anyNotBlack_eq black fun p mem =>
    hblack p.1 p.2 (within p mem).1 (within p mem).2⟩

/-- In every mode the detector returns on every image, has then looked at pixels
inside it alone, and found sizes within its thirds. -/
theorem detect_reads_inside (d : BlackBorderDetector) {image : Image α}
    (complete : image.Complete) (mode : DetectionMode) :
    ∃ border, d.detect image mode = .ok border ∧
      detectWith (d.anyNotBlackInside image) image.width image.height mode = .ok border ∧
      Sized image.width image.height border := by
  obtain ⟨answer, answers⟩ := d.exists_answers complete
  obtain ⟨border, sized, ends⟩ := exists_detect (ε := ImageFault) answer complete.width_lt
    complete.height_lt complete.width_pos complete.height_pos mode
  have checked : Answers image.width image.height answer (d.anyNotBlackInside image) :=
    fun points within => (if_pos within).trans (answers points within)
  exact ⟨border, (detect_eq_detectWith d image mode).trans (ends _ answers), ends _ checked, sized⟩

theorem detect_reads_inside_12x9 : ∃ border,
    (⟨3⟩ : BlackBorderDetector).detect (letterbox ColorRgb 12 9 2 1) .osd = .ok border ∧
      detectWith ((⟨3⟩ : BlackBorderDetector).anyNotBlackInside (letterbox ColorRgb 12 9 2 1)) 12 9
        .osd = .ok border ∧ Sized 12 9 border ∧ border.unknown = false := by
  have complete : (letterbox ColorRgb 12 9 2 1).Complete :=
    Image.ofColors_complete _ (by decide) (by decide) (by decide)
  obtain ⟨border, detected, inside, sized⟩ := detect_reads_inside ⟨3⟩ complete .osd
  have boxed : Letterboxed ⟨3⟩ (letterbox ColorRgb 12 9 2 1) 2 1 :=
    letterbox_letterboxed (by decide) (by decide)
  have found := detect_letterboxed .osd boxed complete (by decide) (by decide)
  obtain rfl := Except.ok.inj (detected.symm.trans found)
  exact ⟨_, detected, inside, sized, rfl⟩

end BlackBorderDetector

end HyperionNg
