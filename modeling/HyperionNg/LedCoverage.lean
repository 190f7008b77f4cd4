import HyperionNg.LedRegions
import HyperionNg.Library.Rectangles

/-! Every inner pixel has a LED, and only one. A LED has the pixels whose centres
are in its rectangle, so LEDs that partition the image partition the pixels. -/

namespace HyperionNg

open Library.Rectangles

def Led.rectangle (led : Led) : Rectangle ℚ :=
  ⟨led.minXFrac, led.maxXFrac, led.minYFrac, led.maxYFrac⟩

/-- LEDs that partition the image, none of them thinner than `1e-6`. -/
structure Tiled (leds : List Led) : Prop where
  valid : ∀ led ∈ leds, led.Valid
  sides : ∀ led ∈ leds, 1 / 1000000 ≤ led.maxXFrac - led.minXFrac ∧
    1 / 1000000 ≤ led.maxYFrac - led.minYFrac
  partition : Partition ⟨0, 1, 0, 1⟩ (leds.map Led.rectangle)

namespace ImageToLedsMap

def Collapses (actualWidth actualHeight : Nat) (led : Led) : Prop :=
  roundHalfAway (actualWidth * led.minXFrac) = roundHalfAway (actualWidth * led.maxXFrac) ∨
    roundHalfAway (actualHeight * led.minYFrac) = roundHalfAway (actualHeight * led.maxYFrac)

def Assigned (map : ImageToLedsMap) (i x y : Nat) : Prop :=
  ∃ indices, map.colorsMap[i]? = some indices ∧ y * map.width + x ∈ indices

def centre (actual k : Nat) : ℚ := (k + 1 / 2) / actual

theorem round_le_iff {actual k : Nat} {frac : ℚ} (positive : 0 < actual) (nonneg : 0 ≤ frac) :
    roundHalfAway (actual * frac) ≤ k ↔ frac < centre actual k := by
  have size : (0 : ℚ) < actual := by exact_mod_cast positive
  rw [roundHalfAway_natCast_mul nonneg, ← Int.lt_add_one_iff, Int.floor_lt, centre,
    lt_div_iff₀ size]
  push_cast
  constructor <;> intro h <;> linarith

theorem lt_round_iff {actual k : Nat} {frac : ℚ} (positive : 0 < actual) (nonneg : 0 ≤ frac) :
    k < roundHalfAway (actual * frac) ↔ centre actual k ≤ frac := by
  rw [← not_le, round_le_iff positive nonneg, not_lt]

private theorem centre_mem {actual k : Nat} (inside : k < actual) :
    0 < centre actual k ∧ centre actual k ≤ 1 := by
  have size : (0 : ℚ) < actual := by exact_mod_cast Nat.zero_lt_of_lt inside
  have less : (k : ℚ) + 1 ≤ actual := by exact_mod_cast inside
  refine ⟨by unfold centre; positivity, (div_le_one size).mpr ?_⟩
  linarith

section Axis

variable {offset actual : Nat} {minFrac maxFrac : ℚ}

theorem mem_visited_of_centre (size : offset + actual < 2 ^ 32) (nonneg : 0 ≤ minFrac)
    (le_one : maxFrac ≤ 1) {k : Nat} (inside : k < actual)
    (between : minFrac < centre actual k ∧ centre actual k ≤ maxFrac) :
    offset + k ∈ visited offset actual minFrac maxFrac := by
  have positive := Nat.zero_lt_of_lt inside
  have le := (between.1.trans_le between.2).le
  obtain ⟨lo, hi, start, stop, order, bound, same⟩ :=
    boundaries_eq offset positive size nonneg le le_one
  have after := (round_le_iff positive nonneg).mpr between.1
  have before := (lt_round_iff positive (nonneg.trans le)).mpr between.2
  rw [start] at after
  rw [stop] at before
  rw [mem_visited size, same]
  dsimp only
  split_ifs <;> omega

theorem centre_of_mem_visited (positive : 0 < actual) (size : offset + actual < 2 ^ 32)
    (nonneg : 0 ≤ minFrac) (le : minFrac ≤ maxFrac) (le_one : maxFrac ≤ 1)
    (apart : roundHalfAway (actual * minFrac) ≠ roundHalfAway (actual * maxFrac)) {k : Nat}
    (mem : offset + k ∈ visited offset actual minFrac maxFrac) :
    minFrac < centre actual k ∧ centre actual k ≤ maxFrac := by
  obtain ⟨lo, hi, start, stop, order, bound, same⟩ :=
    boundaries_eq offset positive size nonneg le le_one
  rw [start, stop] at apart
  rw [mem_visited size, same] at mem
  rw [← round_le_iff positive nonneg, ← lt_round_iff positive (nonneg.trans le), start, stop]
  dsimp only at mem
  split_ifs at mem <;> omega

end Axis

section Image

variable {width height horizontalBorder verticalBorder : Nat}

theorem skipped_eq_false {leds : List Led} (tiled : Tiled leds) {led : Led} (mem : led ∈ leds) :
    led.skipped = false := by
  obtain ⟨wide, high⟩ := tiled.sides led mem
  rw [Led.skipped, decide_eq_false (not_lt.mpr wide), decide_eq_false (not_lt.mpr high)]
  rfl

variable (hw : width < 2 ^ 32) (hh : height < 2 ^ 32) (vertical : 2 * verticalBorder < width)
  (horizontal : 2 * horizontalBorder < height)

include hw hh vertical horizontal

theorem mem_positions_of_halfOpen {led : Led} (valid : led.Valid) {k m : Nat}
    (hk : k < width - 2 * verticalBorder) (hm : m < height - 2 * horizontalBorder)
    (inside : led.rectangle.HalfOpen (centre (width - 2 * verticalBorder) k)
      (centre (height - 2 * horizontalBorder) m)) :
    (horizontalBorder + m, verticalBorder + k) ∈ positions verticalBorder
      (width - 2 * verticalBorder) horizontalBorder (height - 2 * horizontalBorder) led :=
  List.mem_product.mpr
    ⟨mem_visited_of_centre (by omega) valid.minY_nonneg valid.maxY_le_one hm inside.2,
      mem_visited_of_centre (by omega) valid.minX_nonneg valid.maxX_le_one hk inside.1⟩

theorem halfOpen_of_mem_positions {led : Led} (valid : led.Valid)
    (long : ¬ Collapses (width - 2 * verticalBorder) (height - 2 * horizontalBorder) led)
    {k m : Nat} (mem : (horizontalBorder + m, verticalBorder + k) ∈ positions verticalBorder
      (width - 2 * verticalBorder) horizontalBorder (height - 2 * horizontalBorder) led) :
    led.rectangle.HalfOpen (centre (width - 2 * verticalBorder) k)
      (centre (height - 2 * horizontalBorder) m) := by
  obtain ⟨row, column⟩ := List.mem_product.mp mem
  obtain ⟨wide, high⟩ := not_or.mp long
  exact ⟨centre_of_mem_visited (by omega) (by omega) valid.minX_nonneg valid.minX_le_maxX
      valid.maxX_le_one wide column,
    centre_of_mem_visited (by omega) (by omega) valid.minY_nonneg valid.minY_le_maxY
      valid.maxY_le_one high row⟩

theorem mem_ledColors_iff (indices : IndicesFit width height horizontalBorder verticalBorder)
    {led : Led} (valid : led.Valid) (seen : led.skipped = false) {x y : Nat}
    (hx : x < width - verticalBorder) (hy : y < height - horizontalBorder) :
    y * width + x ∈ ledColors width verticalBorder (width - 2 * verticalBorder) horizontalBorder
        (height - 2 * horizontalBorder) led ↔
      (y, x) ∈ positions verticalBorder (width - 2 * verticalBorder) horizontalBorder
        (height - 2 * horizontalBorder) led := by
  rw [ledColors, if_neg (by simp [seen]), List.mem_map]
  constructor
  · rintro ⟨⟨y', x'⟩, mem, same⟩
    have inner := positions_inner hw hh vertical horizontal valid mem
    dsimp only at same inner
    rw [index_of_inner indices inner.2.2.2 inner.2.1] at same
    obtain ⟨rfl, rfl⟩ := index_injective (by omega) (by omega) same
    exact mem
  · intro mem
    exact ⟨(y, x), mem, index_of_inner indices hx hy⟩

theorem assigned_iff {build : Build} {leds : List Led} {map : ImageToLedsMap}
    (created : create build width height horizontalBorder verticalBorder leds = .ok map)
    {i x y : Nat} : map.Assigned i x y ↔ ∃ led, leds[i]? = some led ∧
      y * width + x ∈ ledColors width verticalBorder (width - 2 * verticalBorder) horizontalBorder
        (height - 2 * horizontalBorder) led := by
  rw [create_of_fits build hw hh vertical horizontal] at created
  obtain rfl := Except.ok.inj created
  constructor
  · rintro ⟨indices, found, mem⟩
    rw [List.getElem?_map] at found
    obtain ⟨led, here, rfl⟩ := Option.map_eq_some_iff.mp found
    exact ⟨led, here, mem⟩
  · rintro ⟨led, found, mem⟩
    exact ⟨_, by rw [List.getElem?_map, found]; rfl, mem⟩

theorem indicesFit_of_assigned {build : Build} {leds : List Led} {map : ImageToLedsMap}
    (created : create build width height horizontalBorder verticalBorder leds = .ok map) {i : Nat}
    (assigned : map.Assigned i (width - verticalBorder - 1) (height - horizontalBorder - 1)) :
    IndicesFit width height horizontalBorder verticalBorder := by
  obtain ⟨led, -, mem⟩ := (assigned_iff hw hh vertical horizontal created).mp assigned
  unfold ledColors at mem
  split_ifs at mem
  · cases mem
  · obtain ⟨p, -, same⟩ := List.mem_map.mp mem
    rw [IndicesFit, ← same]
    exact unsigned_lt _

end Image

/-- Every inner pixel has a LED, and only one when no side of a LED collapses. -/
def Covers (map : ImageToLedsMap) (leds : List Led) : Prop :=
  ∀ x y, map.verticalBorder ≤ x → x < map.width - map.verticalBorder →
    map.horizontalBorder ≤ y → y < map.height - map.horizontalBorder →
    (∃ i, map.Assigned i x y) ∧
      ((∀ led ∈ leds, ¬ Collapses (map.width - 2 * map.verticalBorder)
          (map.height - 2 * map.horizontalBorder) led) →
        ∀ i j, map.Assigned i x y → map.Assigned j x y → i = j)

section Layout

variable {build : Build} {width height horizontalBorder verticalBorder : Nat}
  (hw : width < 2 ^ 32) (hh : height < 2 ^ 32) (vertical : 2 * verticalBorder < width)
  (horizontal : 2 * horizontalBorder < height) {leds : List Led} (tiled : Tiled leds)
  {map : ImageToLedsMap}
  (created : create build width height horizontalBorder verticalBorder leds = .ok map)

include hw hh vertical horizontal tiled created

theorem exists_assigned (indices : IndicesFit width height horizontalBorder verticalBorder)
    {k m : Nat} (hk : k < width - 2 * verticalBorder) (hm : m < height - 2 * horizontalBorder) :
    ∃ i, map.Assigned i (verticalBorder + k) (horizontalBorder + m) := by
  obtain ⟨r, mem, inside⟩ := tiled.partition.exists_halfOpen
    (x := centre (width - 2 * verticalBorder) k) (y := centre (height - 2 * horizontalBorder) m)
    ⟨centre_mem hk, centre_mem hm⟩
  obtain ⟨led, hled, rfl⟩ := List.mem_map.mp mem
  obtain ⟨i, found⟩ := List.getElem?_of_mem hled
  have valid := tiled.valid led hled
  refine ⟨i, (assigned_iff hw hh vertical horizontal created).mpr ⟨led, found, ?_⟩⟩
  rw [mem_ledColors_iff hw hh vertical horizontal indices valid (skipped_eq_false tiled hled)
    (by omega) (by omega)]
  exact mem_positions_of_halfOpen hw hh vertical horizontal valid hk hm inside

theorem assigned_unique (indices : IndicesFit width height horizontalBorder verticalBorder)
    (long : ∀ led ∈ leds,
      ¬ Collapses (width - 2 * verticalBorder) (height - 2 * horizontalBorder) led)
    {k m i j : Nat} (hk : k < width - 2 * verticalBorder) (hm : m < height - 2 * horizontalBorder)
    (first : map.Assigned i (verticalBorder + k) (horizontalBorder + m))
    (second : map.Assigned j (verticalBorder + k) (horizontalBorder + m)) : i = j := by
  have halfOpen : ∀ {i : Nat}, map.Assigned i (verticalBorder + k) (horizontalBorder + m) →
      ∃ led, leds[i]? = some led ∧ led.rectangle.HalfOpen (centre (width - 2 * verticalBorder) k)
        (centre (height - 2 * horizontalBorder) m) := by
    intro i assigned
    obtain ⟨led, found, mem⟩ := (assigned_iff hw hh vertical horizontal created).mp assigned
    have hled := List.mem_of_getElem? found
    have valid := tiled.valid led hled
    rw [mem_ledColors_iff hw hh vertical horizontal indices valid (skipped_eq_false tiled hled)
      (by omega) (by omega)] at mem
    exact ⟨led, found,
      halfOpen_of_mem_positions hw hh vertical horizontal valid (long led hled) mem⟩
  obtain ⟨led, found, inside⟩ := halfOpen first
  obtain ⟨led', found', inside'⟩ := halfOpen second
  exact tiled.partition.halfOpen_unique (by rw [List.getElem?_map, found]; rfl)
    (by rw [List.getElem?_map, found']; rfl) inside inside'

end Layout

theorem indicesFit_of_covers {build : Build} {width height horizontalBorder verticalBorder : Nat}
    (hw : width < 2 ^ 32) (hh : height < 2 ^ 32) (vertical : 2 * verticalBorder < width)
    (horizontal : 2 * horizontalBorder < height) {leds : List Led} {map : ImageToLedsMap}
    (created : create build width height horizontalBorder verticalBorder leds = .ok map)
    (covers : map.Covers leds) : IndicesFit width height horizontalBorder verticalBorder := by
  have fields := create_of_fits build hw hh vertical horizontal leds
  rw [created, Except.ok.injEq] at fields
  have last : ∃ i, map.Assigned i (width - verticalBorder - 1) (height - horizontalBorder - 1) := by
    refine (covers _ _ ?_ ?_ ?_ ?_).1
    all_goals rw [fields]
    all_goals dsimp only
    all_goals omega
  obtain ⟨i, assigned⟩ := last
  exact indicesFit_of_assigned hw hh vertical horizontal created assigned

/-- A layout that partitions the image gives every inner pixel a LED, and one only
where no side collapses, exactly when the pixels are numbered without a wrap. -/
theorem covers_iff (build : Build) {width height horizontalBorder verticalBorder : Nat}
    (hw : width < 2 ^ 32) (hh : height < 2 ^ 32) (vertical : 2 * verticalBorder < width)
    (horizontal : 2 * horizontalBorder < height) {leds : List Led} (tiled : Tiled leds) :
    (∃ map, create build width height horizontalBorder verticalBorder leds = .ok map ∧
      map.Covers leds) ↔ IndicesFit width height horizontalBorder verticalBorder := by
  constructor
  · rintro ⟨map, created, covers⟩
    exact indicesFit_of_covers hw hh vertical horizontal created covers
  · intro indices
    have created := create_of_fits build hw hh vertical horizontal leds
    refine ⟨_, created, fun x y left right top bottom => ?_⟩
    obtain ⟨k, rfl⟩ := Nat.exists_eq_add_of_le left
    obtain ⟨m, rfl⟩ := Nat.exists_eq_add_of_le top
    dsimp only at right bottom
    exact ⟨exists_assigned hw hh vertical horizontal tiled created indices (by omega) (by omega),
      fun long i j => assigned_unique hw hh vertical horizontal tiled created indices long
        (by omega) (by omega)⟩

theorem fullLed_tiled : Tiled [fullLed] where
  valid led mem := by
    obtain rfl := List.mem_singleton.mp mem
    exact fullLed_valid
  sides led mem := by
    obtain rfl := List.mem_singleton.mp mem
    norm_num [fullLed]
  partition :=
    { cover := fun _ _ inside => ⟨_, List.mem_cons_self, inside⟩
      apart := List.pairwise_singleton _ _ }

def threeLeds : List Led :=
  [⟨0, 0, 1 / 3, 0, 1, -1, .rgb⟩, ⟨1, 1 / 3, 1, 0, 1 / 2, -1, .rgb⟩,
    ⟨2, 1 / 3, 1, 1 / 2, 1, -1, .rgb⟩]

theorem threeLeds_tiled : Tiled threeLeds where
  valid led mem := by
    simp only [threeLeds, List.mem_cons, List.not_mem_nil, or_false] at mem
    rcases mem with rfl | rfl | rfl <;> constructor <;> norm_num
  sides led mem := by
    simp only [threeLeds, List.mem_cons, List.not_mem_nil, or_false] at mem
    rcases mem with rfl | rfl | rfl <;> norm_num
  partition :=
    { cover := by
        rintro x y ⟨⟨left, right⟩, top, bottom⟩
        simp only [threeLeds, List.map_cons, List.map_nil, Led.rectangle, Rectangle.Closed,
          List.mem_cons, List.not_mem_nil, or_false, exists_eq_or_imp, exists_eq_left]
        rcases le_total x (1 / 3) with less | more
        · exact .inl ⟨⟨left, less⟩, top, bottom⟩
        · rcases le_total y (1 / 2) with above | below
          · exact .inr (.inl ⟨⟨more, right⟩, top, above⟩)
          · exact .inr (.inr ⟨⟨more, right⟩, below, bottom⟩)
      apart := by
        simp only [threeLeds, List.map_cons, List.map_nil, Led.rectangle, Rectangle.Interior,
          List.pairwise_cons, List.mem_cons, List.not_mem_nil, or_false, forall_eq_or_imp,
          forall_eq]
        refine ⟨⟨?_, ?_⟩, ?_, ?_⟩
        · rintro x y ⟨⟨⟨-, before⟩, -⟩, ⟨after, -⟩, -⟩
          exact absurd before (not_lt.mpr after.le)
        · rintro x y ⟨⟨⟨-, before⟩, -⟩, ⟨after, -⟩, -⟩
          exact absurd before (not_lt.mpr after.le)
        · rintro x y ⟨⟨-, -, before⟩, -, after, -⟩
          exact absurd before (not_lt.mpr after.le)
        · simp }

theorem covers_64x48 : ∃ map, create ⟨true, 64, by decide⟩ 64 48 2 4 threeLeds = .ok map ∧
    map.Covers threeLeds :=
  (covers_iff ⟨true, 64, by decide⟩ (by decide) (by decide) (by decide) (by decide)
    threeLeds_tiled).mpr (by unfold IndicesFit; decide)

/-- In a large image the last pixel has a number that no list holds. -/
theorem covers_fails : Tiled [fullLed] ∧
    ¬ ∃ map, create ⟨true, 64, by decide⟩ 65536 65537 0 0 [fullLed] = .ok map ∧
      map.Covers [fullLed] := by
  refine ⟨fullLed_tiled, ?_⟩
  rintro ⟨map, created, covers⟩
  have fits := indicesFit_of_covers (by decide) (by decide) (by decide) (by decide) created covers
  exact absurd fits (by unfold IndicesFit; decide)

end ImageToLedsMap

end HyperionNg
