import HyperionNg.ContentLeds
import Mathlib.Data.List.Rotate

/-! The LEDs around the screen: their order along its edges, the gap, and where
the wiring starts. -/

namespace HyperionNg.ContentLeds

open Library.ForLoop

namespace ClassicForm

variable (f : ClassicForm) (i : Int)

def topLed : Area :=
  ⟨⟨round (f.ovl '-' (f.Hdiff / f.top * i + f.edgeHGap)),
    round (f.ovl '+' (f.Hdiff / f.top * i + (f.Hmax - f.Hmin) / f.top + f.edgeHGap))⟩,
   ⟨round f.Vmin, round (f.Vmin + f.ledsHDepth)⟩⟩

def rightLed : Area :=
  ⟨⟨round (f.Hmax - f.ledsVDepth), round f.Hmax⟩,
   ⟨round (f.ovl '-' (f.Vdiff / f.right * i + f.edgeVGap)),
    round (f.ovl '+' (f.Vdiff / f.right * i + (f.Vmax - f.Vmin) / f.right + f.edgeVGap))⟩⟩

def bottomLed : Area :=
  ⟨⟨round (f.ovl '-' (f.Hdiff / f.bottom * i + f.edgeHGap)),
    round (f.ovl '+' (f.Hdiff / f.bottom * i + (f.Hmax - f.Hmin) / f.bottom + f.edgeHGap))⟩,
   ⟨round (f.Vmax - f.ledsHDepth), round f.Vmax⟩⟩

def leftLed : Area :=
  ⟨⟨round f.Hmin, round (f.Hmin + f.ledsVDepth)⟩,
   ⟨round (f.ovl '-' (f.Vdiff / f.left * i + f.edgeVGap)),
    round (f.ovl '+' (f.Vdiff / f.left * i + (f.Vmax - f.Vmin) / f.left + f.edgeVGap))⟩⟩

end ClassicForm

private theorem round_mono : Monotone round := by
  intro a b le
  unfold round
  gcongr

private theorem valScan_mono : Monotone valScan := by
  intro a b le
  unfold valScan
  split_ifs <;> linarith

private theorem ovl_mono (f : ClassicForm) (scan : Char) : Monotone (f.ovl scan) := by
  intro a b le
  unfold ClassicForm.ovl
  split_ifs
  · exact valScan_mono (by linarith)
  · exact valScan_mono (by linarith)

theorem leds_ordered {f : ClassicForm} (edgegap : f.edgegap ≤ 100) (top : 0 ≤ f.top)
    (bottom : 0 ≤ f.bottom) (left : 0 ≤ f.left) (right : 0 ≤ f.right) {i j : Int} (le : i ≤ j) :
    (f.topLed i).hscan.minimum ≤ (f.topLed j).hscan.minimum ∧
    (f.bottomLed i).hscan.minimum ≤ (f.bottomLed j).hscan.minimum ∧
    (f.leftLed i).vscan.minimum ≤ (f.leftLed j).vscan.minimum ∧
    (f.rightLed i).vscan.minimum ≤ (f.rightLed j).vscan.minimum := by
  have gap : (f.edgegap : ℚ) ≤ 100 := by exact_mod_cast edgegap
  have wide : 0 ≤ f.Hdiff := by
    simp only [ClassicForm.Hdiff, ClassicForm.Hmax, ClassicForm.Hmin, ClassicForm.edgeHGap,
      ClassicForm.edgeVGap]
    linarith
  have high : 0 ≤ f.Vdiff := by
    simp only [ClassicForm.Vdiff, ClassicForm.Vmax, ClassicForm.Vmin, ClassicForm.edgeVGap]
    linarith
  have along : ∀ (diff : ℚ) (n : Int) (offset : ℚ), 0 ≤ diff → 0 ≤ n →
      round (f.ovl '-' (diff / n * i + offset)) ≤ round (f.ovl '-' (diff / n * j + offset)) := by
    intro diff n offset hdiff hn
    have step : 0 ≤ diff / n := div_nonneg hdiff (by exact_mod_cast hn)
    exact round_mono (ovl_mono f '-' (by gcongr))
  exact ⟨along _ _ _ wide top, along _ _ _ wide bottom, along _ _ _ high left,
    along _ _ _ high right⟩

def ClassicForm.perimeter (f : ClassicForm) : List Area :=
  (List.range f.top.toNat).map (fun i : Nat => f.topLed i) ++
    (List.range f.right.toNat).map (fun i : Nat => f.rightLed i) ++
    (List.range f.bottom.toNat).reverse.map (fun i : Nat => f.bottomLed i) ++
    (List.range f.left.toNat).reverse.map (fun i : Nat => f.leftLed i)

section Lists

variable {α : Type}

def removeBlock (l : List α) (start count : Nat) : List α := l.take start ++ l.drop (start + count)

def rotateBy (l : List α) (position : Int) : List α := l.rotate (position % l.length).toNat

end Lists

def arrange (f : ClassicForm) (rest : List Area) : List Led :=
  let turned := rotateBy rest f.position
  (if f.reverse then turned.reverse else turned).zipIdx.map fun led => ⟨led.2, led.1⟩

/-- The layout that a form asks for. The block that is left out ends at the last
LED at the latest, and leaves one LED at least. -/
def layout (f : ClassicForm) : List Led :=
  let gap := min f.glength.toNat (f.perimeter.length - 1)
  arrange f (removeBlock f.perimeter (min f.gpos.toNat (f.perimeter.length - gap)) gap)

private theorem counter_up (n : Nat) : counter 0 1 n = (List.range n).map Nat.cast := by
  induction n with
  | zero => rfl
  | succ n ih =>
    rw [counter_concat, ih, List.range_succ, List.map_append]
    simp

theorem counter_down (n : Nat) : counter (n - 1) (-1) n = (List.range n).reverse.map Nat.cast := by
  rw [List.map_reverse, ← counter_up, reverse_counter]
  simp

theorem foldlM_push {α β : Type} (area : α → β) (l : List α) (array : List β) :
    l.foldlM (fun array i => some (array ++ [area i])) array = some (array ++ l.map area) := by
  induction l generalizing array with
  | nil => simp
  | cons i l ih =>
    rw [List.foldlM_cons]
    exact (ih _).trans (by simp)

section Loops

variable {fuel : Nat} {n : Int} (area : Int → Area) (array : List Area)

theorem loop_up (nonneg : 0 ≤ n) (enough : n < fuel) :
    forLoop (fun i => i < n) 1 (fun i array => some (array ++ [area i])) fuel 0 array =
      some (array ++ (List.range n.toNat).map fun i : Nat => area i) := by
  obtain ⟨n, rfl⟩ := Int.eq_ofNat_of_zero_le nonneg
  have runs : ∀ k < n, decide (0 + 1 * (k : Int) < n) := fun k lt => by simpa using lt
  have ends : ¬ decide (0 + 1 * (n : Int) < n) := by simp
  rw [forLoop_eq_foldlM runs ends (by omega), counter_up, foldlM_push, List.map_map]
  rfl

theorem loop_down (nonneg : 0 ≤ n) (enough : n < fuel) :
    forLoop (fun i => i > -1) (-1) (fun i array => some (array ++ [area i])) fuel (n - 1) array =
      some (array ++ (List.range n.toNat).reverse.map fun i : Nat => area i) := by
  obtain ⟨n, rfl⟩ := Int.eq_ofNat_of_zero_le nonneg
  have runs : ∀ k < n, decide ((n : Int) - 1 + -1 * k > -1) := fun k lt => by
    simp only [decide_eq_true_eq]
    omega
  have ends : ¬ decide ((n : Int) - 1 + -1 * n > -1) := by simp
  rw [forLoop_eq_foldlM runs ends (by omega), counter_down, foldlM_push, List.map_map]
  rfl

end Loops

theorem created_perimeter {f : ClassicForm} {fuel : Nat} (top : 0 ≤ f.top) (right : 0 ≤ f.right)
    (bottom : 0 ≤ f.bottom) (left : 0 ≤ f.left)
    (enough : f.top < fuel ∧ f.right < fuel ∧ f.bottom < fuel ∧ f.left < fuel) :
    ∃ a b c, createTopLeds fuel f [] = some a ∧ createRightLeds fuel f a = some b ∧
      createBottomLeds fuel f b = some c ∧ createLeftLeds fuel f c = some f.perimeter :=
  ⟨_, _, _, loop_up f.topLed [] top enough.1, loop_up f.rightLed _ right enough.2.1,
    loop_down f.bottomLed _ bottom enough.2.2.1, loop_down f.leftLed _ left enough.2.2.2⟩

section Arrays

variable {α : Type} {l : List α}

theorem pushShift_map (nonempty : l ≠ []) : pushShift (l.map some) = (l.rotate 1).map some := by
  cases l with
  | nil => exact absurd rfl nonempty
  | cons a rest => simp [pushShift]

private theorem unshiftPop_map (nonempty : l ≠ []) :
    unshiftPop (l.map some) = (l.rotate (l.length - 1)).map some := by
  obtain ⟨front, last, rfl⟩ := (List.eq_nil_or_concat l).resolve_left nonempty
  rw [List.concat_eq_append, List.length_append, List.length_singleton, Nat.add_sub_cancel,
    List.rotate_append_length_eq]
  simp [unshiftPop]

theorem iterate_rotate {step : List (Option α) → List (Option α)} {k : Nat}
    (one : ∀ l' : List α, l'.length = l.length → step (l'.map some) = (l'.rotate k).map some)
    (m : Nat) : step^[m] (l.map some) = (l.rotate (m * k)).map some := by
  induction m with
  | zero => simp
  | succ m ih =>
    rw [Function.iterate_succ_apply', ih, one _ (List.length_rotate l _), List.rotate_rotate,
      Nat.succ_mul]

theorem rotateArray_map (nonempty : l ≠ []) (times : Int) :
    rotateArray (l.map some) times = (rotateBy l times).map some := by
  have some : 0 < l.length := List.length_pos_iff.mpr nonempty
  have kept : ∀ l' : List α, l'.length = l.length → l' ≠ [] := fun l' same =>
    List.length_pos_iff.mp (same ▸ some)
  unfold rotateArray rotateBy
  split_ifs with positive
  · rw [iterate_rotate fun l' same => pushShift_map (kept l' same), mul_one, ← List.rotate_mod]
    congr 2
    zify
    rw [Int.toNat_of_nonneg positive.le, Int.toNat_of_nonneg (Int.emod_nonneg _ (by omega))]
  · rw [iterate_rotate (k := l.length - 1) fun l' same => same ▸ unshiftPop_map (kept l' same),
      ← List.rotate_mod]
    congr 2
    -- `k` steps of `length - 1` to the left are `k` steps to the right
    zify
    rw [Nat.cast_sub (by omega), Int.toNat_of_nonneg (by omega),
      Int.toNat_of_nonneg (Int.emod_nonneg _ (by omega)), Nat.cast_one,
      ← Int.add_mul_emod_self_right times (-times)]
    congr 1
    ring

theorem splice_eq {start count : Nat} (inside : start + count ≤ l.length) :
    splice l start count = removeBlock l start count := by
  have first : (if (start : Int) < 0 then max (l.length + (start : Int)) 0
      else min (start : Int) l.length) = start := by
    rw [if_neg (by omega)]
    omega
  have removed : min (max (count : Int) 0) (l.length - start) = count := by omega
  simp only [splice, removeBlock, first, removed]
  rw [Int.toNat_natCast, ← Nat.cast_add, Int.toNat_natCast]

theorem splice_of_nonpos (l : List α) (start : Int) {count : Int} (nothing : count ≤ 0) :
    splice l start count = l := by
  have first : (if start < 0 then max (l.length + start) 0 else min start l.length) ≤ l.length := by
    split_ifs <;> omega
  have removed : min (max count 0)
      (l.length - if start < 0 then max (l.length + start) 0 else min start l.length) = 0 := by
    rw [max_eq_right nothing]
    exact min_eq_left (by linarith)
  simp only [splice, removed, add_zero]
  exact List.take_append_drop _ l

end Arrays

private theorem mapM_some {α β : Type} (g : α → β) (l : List α) :
    l.mapM (fun a => some (g a)) = some (l.map g) := by
  induction l with
  | nil => rfl
  | cons a l ih => simp [ih]

private theorem createFinalArray_map (array : List Area) :
    createFinalArray (array.map some) = some (array.zipIdx.map fun led => ⟨led.2, led.1⟩) := by
  rw [createFinalArray, List.zipIdx_map, List.mapM_map]
  exact mapM_some (fun led : Area × Nat => Led.mk led.2 led.1) array.zipIdx

private theorem length_perimeter {f : ClassicForm} (top : 0 ≤ f.top) (right : 0 ≤ f.right)
    (bottom : 0 ≤ f.bottom) (left : 0 ≤ f.left) :
    (f.perimeter.length : Int) = f.top + f.right + f.bottom + f.left := by
  simp [ClassicForm.perimeter]
  omega

/-- What the checks of the gap and `splice` leave of the perimeter. -/
def cut (f : ClassicForm) : List Area :=
  let gap := correctGap f.perimeter.length f.gpos f.glength
  if gap.2 ≠ 0 then splice f.perimeter gap.1 gap.2 else f.perimeter

theorem createClassicLeds_eq {f : ClassicForm} {fuel : Nat} (top : 0 ≤ f.top) (right : 0 ≤ f.right)
    (bottom : 0 ≤ f.bottom) (left : 0 ≤ f.left)
    (enough : f.top < fuel ∧ f.right < fuel ∧ f.bottom < fuel ∧ f.left < fuel)
    (nonempty : cut f ≠ []) : createClassicLeds fuel f = some (arrange f (cut f)) := by
  have rotated : (if f.position ≠ 0 then rotateArray ((cut f).map some) f.position
      else (cut f).map some) = (rotateBy (cut f) f.position).map some := by
    split_ifs with moves
    · exact rotateArray_map nonempty f.position
    · rw [not_not.mp moves]
      simp [rotateBy]
  have turned : (if f.reverse then ((rotateBy (cut f) f.position).map some).reverse
      else (rotateBy (cut f) f.position).map some) =
      (if f.reverse then (rotateBy (cut f) f.position).reverse
        else rotateBy (cut f) f.position).map some := by
    split_ifs
    · rw [List.map_reverse]
    · rfl
  obtain ⟨a, b, c, first, second, third, fourth⟩ := created_perimeter top right bottom left enough
  simp only [createClassicLeds, first, second, third, fourth, Option.bind_eq_bind, Option.bind_some]
  refine Eq.trans ?_ (createFinalArray_map _)
  rw [← turned, ← rotated]
  rfl

theorem cut_of_lt {f : ClassicForm} (glength : 0 ≤ f.glength) (gpos : 0 ≤ f.gpos)
    (short : f.glength < f.perimeter.length) :
    arrange f (cut f) = layout f := by
  obtain ⟨gap, hgap⟩ := Int.eq_ofNat_of_zero_le glength
  obtain ⟨start, hstart⟩ := Int.eq_ofNat_of_zero_le gpos
  rw [hgap] at short
  have kept : correctGap f.perimeter.length f.gpos f.glength =
      (((min start (f.perimeter.length - gap) : Nat) : Int), (gap : Int)) := by
    unfold correctGap
    rw [hgap, hstart, if_neg (not_le.mpr short)]
    congr 1
    split_ifs <;> omega
  have block : min f.glength.toNat (f.perimeter.length - 1) = gap := by omega
  rw [layout, block, cut, kept, hstart, Int.toNat_natCast]
  split_ifs with some
  · rw [splice_eq (by omega)]
  · obtain rfl : gap = 0 := by simpa using some
    simp [removeBlock]

theorem cut_of_le {f : ClassicForm} (long : f.perimeter.length ≤ f.glength) :
    cut f = f.perimeter := by
  have negative : (correctGap f.perimeter.length f.gpos f.glength).2 ≤ 0 := by
    unfold correctGap
    rw [if_pos long]
    omega
  simp only [cut]
  split_ifs
  · exact splice_of_nonpos _ _ negative
  · rfl

theorem length_arrange (f : ClassicForm) (rest : List Area) :
    (arrange f rest).length = rest.length := by
  unfold arrange rotateBy
  split_ifs <;> simp

private theorem length_removeBlock {α : Type} {l : List α} {start count : Nat}
    (inside : start + count ≤ l.length) :
    (removeBlock l start count).length = l.length - count := by
  rw [removeBlock, List.length_append, List.length_take, List.length_drop]
  omega

theorem removeBlock_zero {α : Type} (l : List α) (start : Nat) : removeBlock l start 0 = l :=
  List.take_append_drop start l

private theorem length_layout (f : ClassicForm) : (layout f).length =
    f.perimeter.length - min f.glength.toNat (f.perimeter.length - 1) := by
  rw [layout, length_arrange, length_removeBlock (by omega)]

/-- The page generates the layout that its form asks for exactly when the gap is
shorter than the list, or the list is a single LED. -/
theorem createClassicLeds_iff {f : ClassicForm} {fuel : Nat} (top : 0 ≤ f.top)
    (bottom : 0 ≤ f.bottom) (left : 0 ≤ f.left) (right : 0 ≤ f.right)
    (some : 1 ≤ f.top + f.right + f.bottom + f.left) (glength : 0 ≤ f.glength) (gpos : 0 ≤ f.gpos)
    (enough : f.top < fuel ∧ f.right < fuel ∧ f.bottom < fuel ∧ f.left < fuel) :
    createClassicLeds fuel f = Option.some (layout f) ↔
      f.glength < f.top + f.right + f.bottom + f.left ∨
        f.top + f.right + f.bottom + f.left = 1 := by
  rw [← length_perimeter top right bottom left] at some ⊢
  have arranged : cut f ≠ [] → createClassicLeds fuel f = Option.some (arrange f (cut f)) :=
    createClassicLeds_eq top right bottom left enough
  rcases lt_or_ge f.glength f.perimeter.length with short | long
  · refine iff_of_true ?_ (.inl short)
    have same := cut_of_lt glength gpos short
    have left : cut f ≠ [] := by
      refine List.ne_nil_of_length_pos ?_
      rw [← length_arrange f (cut f), same, length_layout]
      omega
    rw [arranged left, same]
  · have whole := cut_of_le long
    have nonempty : f.perimeter ≠ [] := List.ne_nil_of_length_pos (by omega)
    rw [arranged (whole ▸ nonempty), whole, Option.some.injEq]
    constructor
    · intro same
      have lengths := congrArg List.length same
      rw [length_arrange, length_layout] at lengths
      omega
    · rintro (short | single)
      · omega
      · have nothing : min f.glength.toNat (f.perimeter.length - 1) = 0 := by omega
        rw [layout, nothing, removeBlock_zero]

theorem createClassicLeds_example :
    createClassicLeds 11 ⟨4, 2, 1, 1, 2, 7, -3, true, 5, 8, 0, 0⟩ =
      some (layout ⟨4, 2, 1, 1, 2, 7, -3, true, 5, 8, 0, 0⟩) :=
  (createClassicLeds_iff (by decide) (by decide) (by decide) (by decide) (by decide) (by decide)
    (by decide) (by decide)).mpr (.inl (by decide))

/-- Of four LEDs, a gap of four leaves all of them. -/
theorem createClassicLeds_keeps_all : createClassicLeds 3 ⟨2, 2, 0, 0, 4, 0, 0, false, 5, 8, 0, 0⟩ ≠
    some (layout ⟨2, 2, 0, 0, 4, 0, 0, false, 5, 8, 0, 0⟩) := by
  decide +kernel

end HyperionNg.ContentLeds
