import HyperionNg.ContentLeds
import HyperionNg.Library.Raster

/-! The order in which the LEDs of a matrix are wired. -/

namespace HyperionNg.ContentLeds

open Library.ForLoop Library.Raster

structure Corner where
  bottom : Bool
  right : Bool

def Corner.text (corner : Corner) : List Char :=
  (if corner.bottom then "bottom" else "top").toList ++
    '-' :: (if corner.right then "right" else "left").toList

def Corner.cell (corner : Corner) (w h : Int) : Int × Int :=
  (if corner.right then w - 1 else 0, if corner.bottom then h - 1 else 0)

def Corner.opposite (corner : Corner) (w h : Int) : Int × Int :=
  (if corner.right then 0 else w - 1, if corner.bottom then 0 else h - 1)

inductive Cabling where
  | snake
  | parallel
deriving DecidableEq

def Cabling.text : Cabling → List Char
  | .snake => "snake".toList
  | .parallel => "parallel".toList

def Neighbours (a b : Int × Int) : Prop := (a.1 - b.1).natAbs + (a.2 - b.2).natAbs = 1

structure Wiring (w h : Int) (corner : Corner) (cabling : Cabling) (cells : List (Int × Int)) :
    Prop where
  once : cells.Nodup
  all : ∀ x y, (x, y) ∈ cells ↔ (0 ≤ x ∧ x < w) ∧ 0 ≤ y ∧ y < h
  begins : cells.head? = some (corner.cell w h)
  snake : cabling = .snake → cells.IsChain Neighbours
  rows : cabling = .parallel → ∀ y, 0 ≤ y → y < h →
    (cells.filter fun cell => cell.2 = y).map Prod.fst =
      span (corner.cell w h).1 (corner.opposite w h).1

def place (ledshoriz ledsvert : Int) (cells : List (Int × Int)) (index : Nat) : List Led :=
  (cells.zipIdx index).map fun cell => addLed ledshoriz ledsvert cell.2 cell.1.1 cell.1.2

private theorem place_cons (w h x y : Int) (cells : List (Int × Int)) (index : Nat) :
    place w h ((x, y) :: cells) index = addLed w h index x y :: place w h cells (index + 1) := rfl

private theorem place_append (w h : Int) (first second : List (Int × Int)) (index : Nat) :
    place w h (first ++ second) index =
      place w h first index ++ place w h second (index + first.length) := by
  rw [place, List.zipIdx_append, List.map_append, place, place]

private theorem index_place (w h : Int) (cells : List (Int × Int)) :
    (place w h cells 0).map Led.index = List.range cells.length := by
  have indices : (place w h cells 0).map Led.index = cells.zipIdx.map Prod.snd := by
    rw [place, List.map_map]
    rfl
  rw [indices, List.zipIdx_map_snd, List.range_eq_range']

private theorem addLed_eq (w h : Int) (index : Nat) (x y : Int) :
    addLed w h index x y =
      ⟨index, ⟨round (x / w), round ((x + 1) / w)⟩, ⟨round (y / h), round ((y + 1) / h)⟩⟩ := by
  simp only [addLed, mul_one_div]

private theorem getElem?_place (w h : Int) {cells : List (Int × Int)} {k : Nat} {x y : Int}
    (cell : cells[k]? = some (x, y)) : (place w h cells 0)[k]? =
      some ⟨k, ⟨round (x / w), round ((x + 1) / w)⟩, ⟨round (y / h), round ((y + 1) / h)⟩⟩ := by
  rw [place, List.getElem?_map, List.getElem?_zipIdx, cell, Nat.zero_add, ← addLed_eq]
  rfl

structure Heads (s : MatrixState) (xs : List Int) : Prop where
  row : span s.startX s.endX = xs
  direction : if s.forward then s.startX ≤ s.endX else s.endX ≤ s.startX

theorem Heads.turn {s : MatrixState} {xs : List Int} (heads : Heads s xs) (leds : List Led)
    (index : Nat) : Heads ⟨index, leds, !s.forward, s.endX, s.startX⟩ xs.reverse where
  row := by rw [← heads.row, reverse_span]
  direction := by
    have direction := heads.direction
    cases forward : s.forward
    · simpa [forward] using direction
    · simpa [forward] using direction

def turn (parallel : Bool) (xs : List Int) : List Int := if parallel then xs else xs.reverse

theorem foldlM_addLed (w h y : Int) (xs : List Int) (s : MatrixState) :
    xs.foldlM (fun s x => some { s with
      leds := s.leds ++ [addLed w h s.index x y]
      index := s.index + 1 }) s =
    some { s with
      leds := s.leds ++ place w h (xs.map (·, y)) s.index
      index := s.index + xs.length } := by
  induction xs generalizing s with
  | nil => simp [place]
  | cons x xs ih =>
    rw [List.foldlM_cons]
    refine (ih _).trans ?_
    simp only [List.map_cons, place_cons, List.append_assoc, List.singleton_append,
      List.length_cons, Nat.add_assoc, Nat.add_comm 1]

theorem createRow_eq {fuel : Nat} {w h : Int} {parallel : Bool} {y : Int} {s : MatrixState}
    {xs : List Int} (heads : Heads s xs) (enough : xs.length < fuel) :
    ∃ t, createRow fuel w h parallel y s = some t ∧ Heads t (turn parallel xs) ∧
      t.leds = s.leds ++ place w h (xs.map (·, y)) s.index ∧ t.index = s.index + xs.length := by
  have bound : (s.endX - s.startX).natAbs + 1 < fuel := by
    rwa [← length_span, heads.row]
  unfold createRow
  rw [forLoop_span heads.direction bound, heads.row, foldlM_addLed]
  cases parallel with
  | true => exact ⟨_, rfl, ⟨heads.row, heads.direction⟩, rfl, rfl⟩
  | false => exact ⟨_, rfl, heads.turn _ _, rfl, rfl⟩

theorem length_turn (parallel : Bool) (xs : List Int) : (turn parallel xs).length = xs.length := by
  cases parallel <;> simp [turn]

theorem foldlM_createRow {fuel : Nat} (w h : Int) (parallel : Bool) (ys : List Int)
    {xs : List Int} {s : MatrixState} (heads : Heads s xs) (enough : xs.length < fuel) :
    ∃ t, ys.foldlM (fun s y => createRow fuel w h parallel y s) s = some t ∧
      t.leds = s.leds ++ place w h (raster (turn parallel) xs ys) s.index := by
  induction ys generalizing xs s with
  | nil => exact ⟨s, rfl, by simp [raster, place]⟩
  | cons y ys ih =>
    obtain ⟨next, made, heads, leds, index⟩ := createRow_eq (y := y) heads enough
    obtain ⟨t, rest, all⟩ := ih heads (by rwa [length_turn])
    refine ⟨t, ?_, ?_⟩
    · rw [List.foldlM_cons, made]
      exact rest
    · rw [all, leds, index, raster, place_append, List.length_map, List.append_assoc]

theorem mem_side {n x : Int} (positive : 1 ≤ n) (far : Bool) :
    x ∈ span (if far then n - 1 else 0) (if far then 0 else n - 1) ↔ 0 ≤ x ∧ x < n := by
  rw [mem_span]
  cases far
  · simp
    omega
  · simp
    omega

theorem length_side {n : Int} (positive : 1 ≤ n) (far : Bool) :
    (span (if far then n - 1 else 0) (if far then 0 else n - 1)).length = n.toNat := by
  rw [length_span]
  cases far
  · simp
    omega
  · simp
    omega

theorem mem_turn (parallel : Bool) (xs : List Int) (x : Int) : x ∈ turn parallel xs ↔ x ∈ xs := by
  cases parallel <;> simp [turn]

private theorem nodup_turn (parallel : Bool) (xs : List Int) (distinct : xs.Nodup) :
    (turn parallel xs).Nodup := by
  cases parallel
  · exact List.nodup_reverse.mpr distinct
  · exact distinct

private theorem startYX_eq (corner : Corner) :
    corner.text.splitOn '-' = [(if corner.bottom then "bottom" else "top").toList,
      (if corner.right then "right" else "left").toList] := by
  rcases corner with ⟨_ | _, _ | _⟩ <;> decide +kernel

def cells (w h : Int) (corner : Corner) (cabling : Cabling) : List (Int × Int) :=
  raster (turn (cabling = .parallel)) (span (corner.cell w h).1 (corner.opposite w h).1)
    (span (corner.cell w h).2 (corner.opposite w h).2)

theorem cells_wiring {w h : Int} (hw : 1 ≤ w) (hh : 1 ≤ h) (corner : Corner) (cabling : Cabling) :
    Wiring w h corner cabling (cells w h corner cabling) where
  once := nodup_raster (mem_turn _) (nodup_turn _) (nodup_span _ _) (nodup_span _ _)
  all x y := by
    rw [cells, mem_raster (mem_turn _)]
    exact and_congr (mem_side hw corner.right) (mem_side hh corner.bottom)
  begins := head?_raster _ (head?_span _ _) (head?_span _ _)
  snake := by
    rintro rfl
    have symm : ∀ a b : Int, (a - b).natAbs = 1 → (b - a).natAbs = 1 := by omega
    have chain := isChain_raster_reverse symm
      (List.ne_nil_of_length_pos (by rw [length_span]; omega)) (isChain_span
        (corner.cell w h).1 (corner.opposite w h).1)
      (isChain_span (corner.cell w h).2 (corner.opposite w h).2)
    refine chain.imp fun a b step => ?_
    unfold Neighbours
    rcases step with ⟨across, row⟩ | ⟨column, down⟩
    · rw [across, row, sub_self, Int.natAbs_zero]
    · rw [column, down, sub_self, Int.natAbs_zero]
  rows := by
    rintro rfl y low high
    exact filter_raster_id (nodup_span _ _) ((mem_side hh corner.bottom).mpr ⟨low, high⟩)

theorem side_eq (n : Int) (far : Bool) :
    (if (if far then n - 1 else 0) = 0 then n - 1 else 0) = (if far then 0 else n - 1) ∧
      if decide ((if far then n - 1 else 0) < (if far then 0 else n - 1)) then
        (if far then n - 1 else 0) ≤ (if far then 0 else n - 1)
      else (if far then 0 else n - 1) ≤ (if far then n - 1 else 0) := by
  constructor
  · cases far <;> simp
  · by_cases less : (if far then n - 1 else 0) < (if far then 0 else n - 1)
    · rw [if_pos (decide_eq_true less)]
      exact less.le
    · rw [if_neg (by simpa only [decide_eq_true_eq] using less)]
      exact not_lt.mp less

theorem createMatrixLeds_eq {w h : Int} (hw : 1 ≤ w) (hh : 1 ≤ h) (corner : Corner)
    (cabling : Cabling) {fuel : Nat} (enough : max w h < fuel) :
    createMatrixLeds fuel w h cabling.text corner.text =
      some (place w h (cells w h corner cabling) 0) := by
  have option : (cabling.text = "parallel".toList) ↔ cabling = .parallel := by
    cases cabling <;> decide
  have right : ([(if corner.bottom then "bottom" else "top").toList,
      (if corner.right then "right" else "left").toList] : List (List Char))[1]? =
        some "right".toList ↔ corner.right := by
    rcases corner with ⟨_, _ | _⟩ <;> simp
  have bottom : ([(if corner.bottom then "bottom" else "top").toList,
      (if corner.right then "right" else "left").toList] : List (List Char))[0]? =
        some "bottom".toList ↔ corner.bottom := by
    rcases corner with ⟨_ | _, _⟩ <;> simp
  obtain ⟨endX, forward⟩ := side_eq w corner.right
  obtain ⟨endY, downward⟩ := side_eq h corner.bottom
  unfold createMatrixLeds
  simp only [startYX_eq, right, bottom, option, endX, endY]
  have rows := length_side hh corner.bottom
  rw [length_span] at rows
  have columns : (span (corner.cell w h).1 (corner.opposite w h).1).length < fuel :=
    (length_side hw corner.right).trans_lt (by omega)
  have heads : Heads ⟨0, [], decide ((corner.cell w h).1 < (corner.opposite w h).1),
      (corner.cell w h).1, (corner.opposite w h).1⟩
      (span (corner.cell w h).1 (corner.opposite w h).1) := ⟨rfl, forward⟩
  obtain ⟨t, ran, leds⟩ := foldlM_createRow w h (cabling = .parallel)
    (span (corner.cell w h).2 (corner.opposite w h).2) heads columns
  rw [forLoop_span downward (by omega)]
  exact (congrArg (Option.bind · fun s => some s.leds) ran).trans (congrArg some leds)

theorem length_cells {w h : Int} (hw : 1 ≤ w) (hh : 1 ≤ h) (corner : Corner)
    (cabling : Cabling) : (cells w h corner cabling).length = (w * h).toNat := by
  rw [cells, length_raster (length_turn _)]
  refine (congrArg₂ (· * ·) (length_side hw corner.right)
    (length_side hh corner.bottom)).trans ?_
  zify
  rw [Int.toNat_of_nonneg, Int.toNat_of_nonneg, Int.toNat_of_nonneg]
  all_goals nlinarith

/-- Of every size, from every corner and with either cabling, the page generates
one LED for each cell of a wiring, numbered from 0 in its order; the LED's area has
the borders of its cell, rounded. -/
theorem createMatrixLeds_wiring {w h : Int} (hw : 1 ≤ w) (hh : 1 ≤ h) (corner : Corner)
    (cabling : Cabling) : ∃ cells, Wiring w h corner cabling cells ∧
      ∀ fuel : Nat, max w h < fuel →
        ∃ leds : List Led, createMatrixLeds fuel w h cabling.text corner.text = some leds ∧
          leds.map Led.index = List.range (w * h).toNat ∧ leds.length = cells.length ∧
          ∀ (k : Nat) (x y : Int), cells[k]? = some (x, y) → leds[k]? =
            some ⟨k, ⟨round (x / w), round ((x + 1) / w)⟩,
              ⟨round (y / h), round ((y + 1) / h)⟩⟩ := by
  refine ⟨_, cells_wiring hw hh corner cabling, fun fuel enough =>
    ⟨_, createMatrixLeds_eq hw hh corner cabling enough, ?_, ?_, ?_⟩⟩
  · rw [index_place, length_cells hw hh]
  · rw [place, List.length_map, List.length_zipIdx]
  · exact fun k x y cell => getElem?_place w h cell

theorem createMatrixLeds_wiring_3x2 : ∃ cells, Wiring 3 2 ⟨true, true⟩ .snake cells ∧
    ∃ leds : List Led, createMatrixLeds 4 3 2 "snake".toList "bottom-right".toList = some leds ∧
      leds.map Led.index = List.range 6 ∧
      leds[0]? = some ⟨0, ⟨6667 / 10000, 1⟩, ⟨1 / 2, 1⟩⟩ ∧
      ∀ (k : Nat) (x y : Int), cells[k]? = some (x, y) → leds[k]? =
        some ⟨k, ⟨round (x / 3), round ((x + 1) / 3)⟩, ⟨round (y / 2), round ((y + 1) / 2)⟩⟩ := by
  obtain ⟨cells, wiring, generates⟩ :=
    createMatrixLeds_wiring (w := 3) (h := 2) (by decide) (by decide) ⟨true, true⟩ .snake
  obtain ⟨leds, created, indices, _, areas⟩ := generates 4 (by decide)
  refine ⟨cells, wiring, leds, created, indices, ?_, areas⟩
  have first : cells[0]? = some (2, 1) := List.head?_eq_getElem?.symm.trans wiring.begins
  refine (areas 0 2 1 first).trans ?_
  decide +kernel

end HyperionNg.ContentLeds
