import HyperionNg.LedDevicePhilipsHue
import HyperionNg.Library.Triangle

/-! The colours that a lamp can show are a triangle. A colour outside is replaced
by the nearest one inside. -/

namespace HyperionNg

open Library.Triangle

def CiColor.point (p : CiColor) : ℚ × ℚ := (p.x, p.y)

inductive ArithmeticFault
  | divisionByZero
deriving DecidableEq

/-- A division whose divisor is looked at. -/
def divideChecked (a b : ℚ) : Except ArithmeticFault ℚ :=
  if b = 0 then .error .divisionByZero else .ok (a / b)

theorem divideChecked_bind {β : Type} {a b : ℚ} (h : b ≠ 0)
    (f : ℚ → Except ArithmeticFault β) : divideChecked a b >>= f = f (a / b) := by
  rw [divideChecked, if_neg h]
  rfl

private theorem getClosestPointToPoint_point (a b p : CiColor) :
    (getClosestPointToPoint a b p).point = nearest a.point b.point p.point := by
  ext
  · exact congrArg (a.x + ·) (mul_comm _ _)
  · exact congrArg (a.y + ·) (mul_comm _ _)

theorem closestPointChecked_eq {a b : CiColor} (distinct : a.point ≠ b.point) (p : CiColor) :
    closestPointToPoint divideChecked a b p = .ok (getClosestPointToPoint a b p) :=
  divideChecked_bind (lengthSq_ne_zero distinct) _

namespace CiColorTriangle

variable (lib : HueLibrary) (colorSpace : CiColorTriangle)

def region : Set (ℚ × ℚ) :=
  convexHull ℚ {colorSpace.red.point, colorSpace.green.point, colorSpace.blue.point}

def Proper : Prop :=
  cross (colorSpace.green.point - colorSpace.red.point)
    (colorSpace.blue.point - colorSpace.red.point) ≠ 0

variable {lib colorSpace}

theorem isPointInReach_iff (proper : colorSpace.Proper) (p : CiColor) :
    colorSpace.isPointInLampsReach p ↔ p.point ∈ colorSpace.region := by
  rw [region, ← inside_iff proper]
  exact decide_eq_true_iff

private theorem pointInReachChecked_eq (proper : colorSpace.Proper) (p : CiColor) :
    colorSpace.pointInLampsReach divideChecked p = .ok (colorSpace.isPointInLampsReach p) :=
  (divideChecked_bind proper _).trans (divideChecked_bind proper _)

theorem Proper.distinct (proper : colorSpace.Proper) :
    colorSpace.red.point ≠ colorSpace.green.point ∧ colorSpace.blue.point ≠ colorSpace.red.point ∧
      colorSpace.green.point ≠ colorSpace.blue.point := distinct_of_cross proper

theorem gamutStep_eq (p : CiColor) : colorSpace.gamutStep lib p =
    if colorSpace.isPointInLampsReach p then p
    else
      let closest := closestPoint lib p
        (getClosestPointToPoint colorSpace.red colorSpace.green p)
        (getClosestPointToPoint colorSpace.blue colorSpace.red p)
        (getClosestPointToPoint colorSpace.green colorSpace.blue p)
      { p with x := closest.x, y := closest.y } := rfl

theorem gamutChecked_eq (proper : colorSpace.Proper) (p : CiColor) :
    colorSpace.pointInGamut divideChecked lib p = .ok (colorSpace.gamutStep lib p) := by
  obtain ⟨redGreen, blueRed, greenBlue⟩ := proper.distinct
  rw [pointInGamut, gamutStep_eq, pointInReachChecked_eq proper,
    closestPointChecked_eq redGreen, closestPointChecked_eq blueRed,
    closestPointChecked_eq greenBlue]
  cases colorSpace.isPointInLampsReach p <;> rfl

private theorem gamutStep_of_mem (proper : colorSpace.Proper) {p : CiColor}
    (inside : p.point ∈ colorSpace.region) : colorSpace.gamutStep lib p = p := by
  rw [gamutStep_eq, if_pos ((isPointInReach_iff proper p).mpr inside)]

private theorem getDistance_eq (lib : HueLibrary) (p q : CiColor) :
    getDistanceBetweenTwoPoints lib p q = lib.sqrt (distSq p.point q.point) := by
  rw [getDistanceBetweenTwoPoints, distSq, sq, sq]
  rfl

theorem closestPoint_point (sqrt : StrictMonoOn lib.sqrt (Set.Ici 0)) (p pAB pAC pBC : CiColor) :
    (closestPoint lib p pAB pAC pBC).point =
      nearestOf p.point pAB.point pAC.point pBC.point := by
  have order : ∀ u v, lib.sqrt (distSq p.point u) < lib.sqrt (distSq p.point v) ↔
      distSq p.point u < distSq p.point v := fun u v =>
    sqrt.lt_iff_lt (Set.mem_Ici.mpr (distSq_nonneg _ u)) (Set.mem_Ici.mpr (distSq_nonneg _ v))
  simp only [closestPoint, getDistance_eq, order, nearestOf]
  by_cases first : distSq p.point pAC.point < distSq p.point pAB.point
  · simp only [if_pos first, order]
    split_ifs <;> rfl
  · simp only [if_neg first, order]
    split_ifs <;> rfl

theorem gamutStep_of_not_mem (sqrt : StrictMonoOn lib.sqrt (Set.Ici 0)) (proper : colorSpace.Proper)
    {p : CiColor} (outside : p.point ∉ colorSpace.region) :
    (colorSpace.gamutStep lib p).point =
      nearestOf p.point (nearest colorSpace.red.point colorSpace.green.point p.point)
        (nearest colorSpace.blue.point colorSpace.red.point p.point)
        (nearest colorSpace.green.point colorSpace.blue.point p.point) := by
  have beyond : ¬ colorSpace.isPointInLampsReach p :=
    fun inside => outside ((isPointInReach_iff proper p).mp inside)
  rw [gamutStep_eq, if_neg beyond]
  simp only [← getClosestPointToPoint_point]
  exact closestPoint_point sqrt p _ _ _

theorem gamutStep_nearest (sqrt : StrictMonoOn lib.sqrt (Set.Ici 0)) (proper : colorSpace.Proper)
    {p : CiColor} (outside : p.point ∉ colorSpace.region) :
    Nearest colorSpace.region p.point (colorSpace.gamutStep lib p).point := by
  rw [gamutStep_of_not_mem sqrt proper outside]
  exact nearestOf_edges proper outside

/-- From the chromaticity on, `rgbToCiColor` keeps a colour in the triangle and
replaces one outside by the nearest colour inside. The result is in the triangle, the
step changes it no more, and it divides by no zero. -/
theorem rgbToCiColor_projects (sqrt : StrictMonoOn lib.sqrt (Set.Ici 0))
    (proper : colorSpace.Proper) :
    (∀ red green blue, colorSpace.rgbToCiColor lib red green blue =
      colorSpace.gamutStep lib (chromaticity lib red green blue)) ∧
    ∀ p : CiColor,
      (p.point ∈ colorSpace.region → colorSpace.gamutStep lib p = p) ∧
      (p.point ∉ colorSpace.region →
        Nearest colorSpace.region p.point (colorSpace.gamutStep lib p).point) ∧
      (colorSpace.gamutStep lib p).point ∈ colorSpace.region ∧
      colorSpace.gamutStep lib (colorSpace.gamutStep lib p) = colorSpace.gamutStep lib p ∧
      colorSpace.pointInGamut divideChecked lib p = .ok (colorSpace.gamutStep lib p) := by
  refine ⟨fun _ _ _ => rfl, fun p => ?_⟩
  have mem : (colorSpace.gamutStep lib p).point ∈ colorSpace.region := by
    by_cases inside : p.point ∈ colorSpace.region
    · rwa [gamutStep_of_mem proper inside]
    · exact (gamutStep_nearest sqrt proper inside).mem
  exact ⟨gamutStep_of_mem proper, gamutStep_nearest sqrt proper, mem, gamutStep_of_mem proper mem,
    gamutChecked_eq proper p⟩

/-- A library whose `sqrt` is right at 1 and 4. -/
def linearLibrary : HueLibrary where
  fromJson _ := none
  toJson _ := []
  number _ := []
  powf x _ := x
  sqrt d := (d + 2) / 3

theorem rgbToCiColor_projects_unknown :
    Gamut.unknown.gamutStep linearLibrary ⟨1 / 4, 1 / 4, 1⟩ = ⟨1 / 4, 1 / 4, 1⟩ ∧
    Gamut.unknown.gamutStep linearLibrary ⟨2, 0, 1⟩ = ⟨1, 0, 1⟩ ∧
    Nearest Gamut.unknown.region (2, 0) (1, 0) ∧
    Gamut.unknown.pointInGamut divideChecked linearLibrary ⟨2, 0, 1⟩ = .ok ⟨1, 0, 1⟩ := by
  have proper : Gamut.unknown.Proper := by
    norm_num [Proper, cross, CiColor.point, Gamut.unknown]
  obtain ⟨_, projects⟩ := @rgbToCiColor_projects linearLibrary Gamut.unknown
    (fun a _ b _ less => by unfold linearLibrary; dsimp only; linarith) proper
  have inside : CiColor.point ⟨1 / 4, 1 / 4, 1⟩ ∈ Gamut.unknown.region :=
    (isPointInReach_iff proper _).mp (by decide +kernel)
  have outside : CiColor.point ⟨2, 0, 1⟩ ∉ Gamut.unknown.region :=
    fun mem => absurd ((isPointInReach_iff proper _).mpr mem) (by decide +kernel)
  have corner : Gamut.unknown.gamutStep linearLibrary ⟨2, 0, 1⟩ = ⟨1, 0, 1⟩ := by
    decide +kernel
  obtain ⟨kept, _⟩ := projects ⟨1 / 4, 1 / 4, 1⟩
  obtain ⟨_, nearest, _, _, divides⟩ := projects ⟨2, 0, 1⟩
  rw [corner] at nearest divides
  exact ⟨kept inside, corner, nearest outside, divides⟩

end CiColorTriangle

end HyperionNg
