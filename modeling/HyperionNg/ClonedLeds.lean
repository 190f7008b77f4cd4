import HyperionNg.LedFrame

/-! Which LED's colour each position of the frame shows. The insertion loop is
followed on labels: every normal LED starts as its own index, so the result
names, for each position, the LED whose colour ends up there. -/

namespace HyperionNg

open Library.Execution

/-- The colour a channel gives to the LED with index `i`. -/
def colorOfLed (ledString : List Led) (ledColors : List ColorRgb) (i : Nat) : Option ColorRgb :=
  ((ledString.map Led.index).zip ledColors).lookup i

/-- The LED whose colour a LED shows: itself, or the one its clone field names. -/
def Led.source (led : Led) : Nat := if led.isNormal then led.index else led.clone.toNat

def ShowsSources (leds ledString : List Led) (ledColors frame : List ColorRgb) : Prop :=
  ∀ led ∈ leds, ∃ color, colorOfLed ledString ledColors led.source = some color ∧
    frame[led.index]? = some (led.colorOrder.correct color)

/-- Indices are a permutation of `0..n-1`, and clones name normal LEDs. -/
structure ProperLayout (leds : List Led) : Prop where
  indices : (leds.map Led.index).Perm (List.range leds.length)
  sources : ∀ led ∈ leds, led.isNormal = false →
    ∃ source ∈ leds, source.isNormal = true ∧ source.index = led.clone.toNat

theorem insertIdx_append_length {α : Type} (first second : List α) (x : α) :
    (first ++ second).insertIdx first.length x = first ++ x :: second := by
  induction first with
  | nil => simp
  | cons a rest ih => simp [ih]

theorem insertClones_map {α β : Type} (f : α → β) {clones : List Led} {buffer out : List α}
    (h : insertClones clones buffer = .ok out) :
    insertClones clones (buffer.map f) = .ok (out.map f) := by
  induction clones generalizing buffer with
  | nil => rw [← Except.ok.inj h]; rfl
  | cons led rest ih =>
    obtain ⟨color, hcolor, hle, hrest⟩ := insertClones_cons_iff.mp h
    refine insertClones_cons_iff.mpr ⟨f color, by simp [hcolor], by simpa using hle, ?_⟩
    rw [← List.map_insertIdx]
    exact ih hrest

section Indexed

variable {pre suffix : List Led}

theorem insertColorOrders_indexed
    (indexed : suffix.map Led.index = List.range' pre.length suffix.length) :
    insertColorOrders (suffix.filter (fun led => !led.isNormal))
      (pre.map Led.colorOrder ++ (suffix.filter Led.isNormal).map Led.colorOrder) =
      .ok ((pre ++ suffix).map Led.colorOrder) := by
  induction suffix generalizing pre with
  | nil => simp [insertColorOrders]
  | cons led rest ih =>
    obtain ⟨hled, hrest⟩ : led.index = pre.length ∧
        rest.map Led.index = List.range' (pre.length + 1) rest.length := by
      simpa [List.range'_succ] using indexed
    have next := @ih (pre ++ [led]) (by simpa using hrest)
    cases hn : led.isNormal with
    | true => simpa [hn] using next
    | false =>
      simp only [hn, List.filter_cons, Bool.not_false, if_true, Bool.false_eq_true, if_false]
      refine insertColorOrders_cons_iff.mpr ⟨by simp [hled], ?_⟩
      have hlen : led.index = (pre.map Led.colorOrder).length := by simp [hled]
      rw [hlen, insertIdx_append_length]
      simpa using next

/-- Labels of an increasing suffix: the `j`-th of its normal LEDs has an index
at least `j` above the first position of the suffix. -/
theorem le_index_of_filter {m j : Nat} {leds : List Led} (keep : Led → Bool)
    (indexed : leds.map Led.index = List.range' m leds.length) {i : Nat}
    (h : ((leds.filter keep).map Led.index)[j]? = some i) : m + j ≤ i := by
  induction leds generalizing m j with
  | nil => simp at h
  | cons led rest ih =>
    obtain ⟨hled, hrest⟩ : led.index = m ∧
        rest.map Led.index = List.range' (m + 1) rest.length := by
      simpa [List.range'_succ] using indexed
    by_cases hk : keep led = true
    · cases j with
      | zero =>
        have : led.index = i := by simpa [hk] using h
        omega
      | succ j =>
        have := ih hrest (j := j) (by simpa [hk] using h)
        omega
    · have := ih hrest (j := j) (by simpa [hk] using h)
      omega

theorem getElem?_source (indexed : pre.map Led.index = List.range pre.length) {source : Led}
    (mem : source ∈ pre) (normal : source.isNormal = true) :
    (pre.map Led.source)[source.index]? = some source.index := by
  obtain ⟨j, hj, rfl⟩ := List.getElem_of_mem mem
  have hindex : pre[j].index = j := by
    have := congrArg (fun l : List Nat => l[j]?) indexed
    simpa [hj] using this
  have hsource : pre[j].source = j := by rw [Led.source, normal, if_pos rfl, hindex]
  rw [List.getElem?_map, hindex, List.getElem?_eq_getElem hj, Option.map_some, hsource]

theorem insertClones_labels
    (before : pre.map Led.index = List.range pre.length)
    (indexed : suffix.map Led.index = List.range' pre.length suffix.length)
    (sources : ∀ led ∈ suffix, led.isNormal = false →
      ∃ source ∈ pre ++ suffix, source.isNormal = true ∧ source.index = led.clone.toNat)
    (behind : ∀ led ∈ suffix, led.isNormal = false → led.clone.toNat < led.index) :
    insertClones (suffix.filter (fun led => !led.isNormal))
      (pre.map Led.source ++ (suffix.filter Led.isNormal).map Led.index) =
      .ok ((pre ++ suffix).map Led.source) := by
  induction suffix generalizing pre with
  | nil => simp [insertClones]
  | cons led rest ih =>
    obtain ⟨hled, hrest⟩ : led.index = pre.length ∧
        rest.map Led.index = List.range' (pre.length + 1) rest.length := by
      simpa [List.range'_succ] using indexed
    have next := @ih (pre ++ [led]) (by simp [before, hled, List.range_succ])
      (by simpa using hrest)
      (fun l hl hn => by simpa using sources l (by simp [hl]) hn)
      (fun l hl => behind l (by simp [hl]))
    cases hn : led.isNormal with
    | true => simpa [hn, Led.source] using next
    | false =>
      have hlt := behind led (by simp) hn
      obtain ⟨source, hmem, hnormal, hindex⟩ := sources led (by simp) hn
      have hpre : source ∈ pre := by
        rcases List.mem_append.mp hmem with hmem | hmem
        · exact hmem
        · have : source.index ∈ List.range' pre.length (led :: rest).length :=
            indexed ▸ List.mem_map_of_mem hmem
          have := (List.mem_range'_1.mp this).1
          omega
      have shown :
          (pre.map Led.source ++ (rest.filter Led.isNormal).map Led.index)[led.clone.toNat]? =
          some led.clone.toNat := by
        rw [List.getElem?_append_left (by rw [List.length_map]; omega), ← hindex]
        exact getElem?_source before hpre hnormal
      simp only [hn, List.filter_cons, Bool.not_false, if_true, Bool.false_eq_true, if_false]
      refine insertClones_cons_iff.mpr ⟨_, shown, by simp [hled], ?_⟩
      have hlen : led.index = (pre.map Led.source).length := by simp [hled]
      rw [hlen, insertIdx_append_length]
      simpa [Led.source, hn] using next

/-- Where every position shows its source, every clone is behind its source:
in front of it the buffer still lacks the clones in between, and the position
it reads holds a later LED. -/
theorem behind_of_labels
    (indexed : suffix.map Led.index = List.range' pre.length suffix.length) {out : List Nat}
    (inserted : insertClones (suffix.filter (fun led => !led.isNormal))
      (pre.map Led.source ++ (suffix.filter Led.isNormal).map Led.index) = .ok out)
    (shown : ∀ led ∈ suffix, out[led.index]? = some led.source) :
    ∀ led ∈ suffix, led.isNormal = false → led.clone.toNat < led.index := by
  induction suffix generalizing pre with
  | nil => simp
  | cons led rest ih =>
    obtain ⟨hled, hrest⟩ : led.index = pre.length ∧
        rest.map Led.index = List.range' (pre.length + 1) rest.length := by
      simpa [List.range'_succ] using indexed
    have shownRest : ∀ l ∈ rest, out[l.index]? = some l.source :=
      fun l hl => shown l (by simp [hl])
    have nextIndexed : rest.map Led.index = List.range' (pre ++ [led]).length rest.length := by
      simpa using hrest
    cases hn : led.isNormal with
    | true =>
      have tail := @ih (pre ++ [led]) nextIndexed
        (by simpa [hn, Led.source] using inserted) shownRest
      intro l hl hclone
      rcases List.mem_cons.mp hl with rfl | hl
      · simp [hn] at hclone
      · exact tail l hl hclone
    | false =>
      simp only [hn, List.filter_cons, Bool.not_false, if_true, Bool.false_eq_true, if_false]
        at inserted
      obtain ⟨color, hcolor, _, hinsert⟩ := insertClones_cons_iff.mp inserted
      have hlen : led.index = (pre.map Led.source).length := by simp [hled]
      rw [hlen, insertIdx_append_length] at hinsert
      have later : ∀ l ∈ rest.filter (fun led => !led.isNormal), pre.length < l.index := by
        intro l hl
        have : l.index ∈ List.range' (pre.length + 1) rest.length :=
          hrest ▸ List.mem_map_of_mem (List.mem_filter.mp hl).1
        exact (List.mem_range'_1.mp this).1
      have hread : color = led.clone.toNat := by
        have hk := insertClones_getElem?_of_lt later hinsert
        rw [← hled, shown led (by simp), hlen, List.getElem?_append_right le_rfl] at hk
        simpa [Led.source, hn, eq_comm] using hk
      have hlt : led.clone.toNat < pre.length := by
        by_contra hge
        rw [List.getElem?_append_right (by rw [List.length_map]; omega), List.length_map] at hcolor
        have := le_index_of_filter Led.isNormal hrest hcolor
        omega
      have tail := @ih (pre ++ [led]) nextIndexed
        (by simpa [hn, Led.source, hread] using hinsert) shownRest
      intro l hl hclone
      rcases List.mem_cons.mp hl with rfl | hl
      · omega
      · exact tail l hl hclone

end Indexed

theorem sort_filter (std : IndexSort) {leds : List Led} (distinct : (leds.map Led.index).Nodup)
    (keep : Led → Bool) : std.sort (leds.filter keep) = (std.sort leds).filter keep := by
  have perm : (std.sort (leds.filter keep)).Perm ((std.sort leds).filter keep) :=
    (std.perm _).trans ((std.perm leds).filter keep).symm
  refine perm.eq_of_pairwise (fun a b ha hb hab hba => ?_) (std.sorted _)
    ((std.sorted leds).filter _)
  have memA : a ∈ leds := (List.mem_filter.mp ((std.perm _).mem_iff.mp ha)).1
  have memB : b ∈ leds := (std.perm leds).mem_iff.mp (List.mem_filter.mp hb).1
  exact List.inj_on_of_nodup_map distinct memA memB (le_antisymm hab hba)

theorem ProperLayout.distinct {leds : List Led} (proper : ProperLayout leds) :
    (leds.map Led.index).Nodup :=
  proper.indices.nodup_iff.mpr List.nodup_range

theorem ProperLayout.sorted_index {leds : List Led} (proper : ProperLayout leds)
    (std : IndexSort) : (std.sort leds).map Led.index = List.range (std.sort leds).length := by
  rw [(std.perm leds).length_eq]
  refine (((std.perm leds).map Led.index).trans proper.indices).eq_of_pairwise
    (fun a b _ _ hab hba => le_antisymm hab hba) (List.pairwise_map.mpr (std.sorted leds)) ?_
  exact List.pairwise_lt_range.imp le_of_lt

theorem lookup_zip {keys : List Nat} {values : List ColorRgb} (distinct : keys.Nodup)
    (same : values.length = keys.length) {j : Nat} (hj : j < keys.length) :
    (keys.zip values).lookup keys[j] = values[j]? := by
  induction keys generalizing values j with
  | nil => simp at hj
  | cons k keys ih =>
    cases values with
    | nil => simp at same
    | cons v values =>
      obtain ⟨hk, hkeys⟩ := List.nodup_cons.mp distinct
      cases j with
      | zero => simp
      | succ j =>
        have hlt : j < keys.length := by simpa using hj
        have hne : (keys[j] == k) = false := by
          simpa using fun h : keys[j] = k => hk (h ▸ List.getElem_mem hlt)
        simpa [List.lookup_cons, hne] using ih hkeys (by simpa using same) hlt

section Composed

variable (std : IndexSort) {leds : List Led} (proper : ProperLayout leds)

include proper

theorem normal_distinct : ((std.sort (leds.filter Led.isNormal)).map Led.index).Nodup :=
  (((std.perm _).map Led.index).nodup_iff).mpr
    (proper.distinct.sublist (List.filter_sublist.map Led.index))

omit proper in
theorem colorOfLed_map (distinct : ((std.sort (leds.filter Led.isNormal)).map Led.index).Nodup)
    (color : Nat → ColorRgb) {i : Nat}
    (mem : i ∈ (std.sort (leds.filter Led.isNormal)).map Led.index) :
    colorOfLed (std.sort (leds.filter Led.isNormal))
      (((std.sort (leds.filter Led.isNormal)).map Led.index).map color) i = some (color i) := by
  obtain ⟨j, hj, rfl⟩ := List.getElem_of_mem mem
  rw [colorOfLed, lookup_zip distinct (by simp) hj, List.getElem?_map,
    List.getElem?_eq_getElem hj, Option.map_some]

theorem eq_map_colorOfLed {ledColors : List ColorRgb}
    (same : ledColors.length = (std.sort (leds.filter Led.isNormal)).length) :
    ledColors = ((std.sort (leds.filter Led.isNormal)).map Led.index).map
      (fun i => (colorOfLed (std.sort (leds.filter Led.isNormal)) ledColors i).getD .black) := by
  refine List.ext_getElem (by simpa using same) fun j hj hj' => ?_
  have hkeys : j < ((std.sort (leds.filter Led.isNormal)).map Led.index).length := by
    simpa using hj'
  have hlookup := lookup_zip (normal_distinct std proper) (by simpa using same) hkeys
  rw [List.getElem_map, colorOfLed, hlookup, List.getElem?_eq_getElem hj, Option.getD_some]

theorem source_mem {led : Led} (mem : led ∈ leds) :
    led.source ∈ (std.sort (leds.filter Led.isNormal)).map Led.index := by
  obtain ⟨source, hmem, hnormal, hindex⟩ :
      ∃ source ∈ leds, source.isNormal = true ∧ source.index = led.source := by
    cases hn : led.isNormal with
    | true => exact ⟨led, mem, hn, by simp [Led.source, hn]⟩
    | false => simpa [Led.source, hn] using proper.sources led mem hn
  rw [← hindex]
  exact List.mem_map_of_mem ((std.perm _).mem_iff.mpr (List.mem_filter.mpr ⟨hmem, hnormal⟩))

theorem composeFrame_of_labels (hwLedCount : Nat) {labels : List Nat}
    (inserted : insertClones (std.sort (leds.filter (fun led => !led.isNormal)))
      ((std.sort (leds.filter Led.isNormal)).map Led.index) = .ok labels)
    (color : Nat → ColorRgb) :
    ∃ frame, composeFrame (std.sort (leds.filter Led.isNormal))
        (std.sort (leds.filter (fun led => !led.isNormal))) hwLedCount
        (((std.sort (leds.filter Led.isNormal)).map Led.index).map color) = .ok frame ∧
      ∀ led ∈ leds, ∃ label, labels[led.index]? = some label ∧
        frame[led.index]? = some (led.colorOrder.correct (color label)) := by
  have hindex := proper.sorted_index std
  have orders : initLedStringColorOrder (std.sort (leds.filter Led.isNormal))
      (std.sort (leds.filter (fun led => !led.isNormal))) =
      .ok ((std.sort leds).map Led.colorOrder) := by
    rw [initLedStringColorOrder, sort_filter std proper.distinct, sort_filter std proper.distinct]
    exact @insertColorOrders_indexed [] _ (by rw [hindex, List.range_eq_range']; rfl)
  have hlabels : labels.length = (std.sort leds).length := by
    rw [insertClones_length inserted, List.length_map, sort_filter std proper.distinct,
      sort_filter std proper.distinct]
    exact (List.length_eq_length_filter_add Led.isNormal).symm
  refine ⟨padHardware hwLedCount
    (((std.sort leds).map Led.colorOrder).zipWith ColorOrder.correct (labels.map color)), ?_, ?_⟩
  · rw [composeFrame, orders]
    exact (buildFrame_eq_ok_iff _ _ _ _ _).mpr
      ⟨labels.map color, insertClones_map color inserted, by simp [hlabels], rfl⟩
  · intro led hled
    obtain ⟨j, hj, hget⟩ := List.getElem_of_mem ((std.perm leds).mem_iff.mpr hled)
    have hjIndex : led.index = j := by
      have := congrArg (fun l : List Nat => l[j]?) hindex
      simpa [hj, hget] using this
    have hjLabel : j < labels.length := hlabels ▸ hj
    refine ⟨labels[j], by rw [hjIndex, List.getElem?_eq_getElem hjLabel], ?_⟩
    rw [hjIndex, padHardware_getElem? (by simp [hj, hjLabel])]
    simp [hj, hjLabel, hget]

theorem labels_show_sources_iff :
    (∃ labels, insertClones (std.sort (leds.filter (fun led => !led.isNormal)))
        ((std.sort (leds.filter Led.isNormal)).map Led.index) = .ok labels ∧
      ∀ led ∈ leds, labels[led.index]? = some led.source) ↔
    ∀ led ∈ leds, led.isNormal = false → led.clone.toNat < led.index := by
  have hindex := proper.sorted_index std
  have indexed : (std.sort leds).map Led.index =
      List.range' ([] : List Led).length (std.sort leds).length := by
    rw [hindex, List.range_eq_range']; rfl
  have mem : ∀ led, led ∈ std.sort leds ↔ led ∈ leds := fun led => (std.perm leds).mem_iff
  rw [sort_filter std proper.distinct, sort_filter std proper.distinct]
  constructor
  · rintro ⟨labels, inserted, shown⟩ led hled
    exact behind_of_labels indexed inserted (fun l hl => shown l ((mem l).mp hl)) led
      ((mem led).mpr hled)
  · intro behind
    refine ⟨(std.sort leds).map Led.source, insertClones_labels rfl indexed ?_ ?_, ?_⟩
    · intro led hled hn
      obtain ⟨source, hmem, hsource⟩ := proper.sources led ((mem led).mp hled) hn
      exact ⟨source, (mem source).mpr hmem, hsource⟩
    · exact fun led hled => behind led ((mem led).mp hled)
    · intro led hled
      obtain ⟨j, hj, hget⟩ := List.getElem_of_mem ((mem led).mpr hled)
      have hjIndex : led.index = j := by
        have := congrArg (fun l : List Nat => l[j]?) hindex
        simpa [hj, hget] using this
      rw [hjIndex, List.getElem?_map, List.getElem?_eq_getElem hj, hget, Option.map_some]

/-- For every channel with one colour per normal LED the frame is built
without an access out of range and shows every LED's source. -/
def EveryChannelShows (std : IndexSort) (leds : List Led) (hwLedCount : Nat) : Prop :=
  ∀ raw2led priority ledColors,
    ledColors.length = (std.sort (leds.filter Led.isNormal)).length →
    ∃ frame, composeFrame (std.sort (leds.filter Led.isNormal))
        (std.sort (leds.filter (fun led => !led.isNormal))) hwLedCount
        (channelColors raw2led priority ledColors) = .ok frame ∧
      ShowsSources leds (std.sort (leds.filter Led.isNormal))
        (channelColors raw2led priority ledColors) frame

theorem everyChannelShows_of_labels {hwLedCount : Nat} {labels : List Nat}
    (inserted : insertClones (std.sort (leds.filter (fun led => !led.isNormal)))
      ((std.sort (leds.filter Led.isNormal)).map Led.index) = .ok labels)
    (shown : ∀ led ∈ leds, labels[led.index]? = some led.source) :
    EveryChannelShows std leds hwLedCount := by
  intro raw2led priority ledColors same
  have hcolors :=
    eq_map_colorOfLed std proper ((channelColors_length raw2led priority _).trans same)
  obtain ⟨frame, hframe, hget⟩ := composeFrame_of_labels std proper hwLedCount inserted
    (fun i => (colorOfLed (std.sort (leds.filter Led.isNormal))
      (channelColors raw2led priority ledColors) i).getD .black)
  rw [← hcolors] at hframe
  refine ⟨frame, hframe, fun led hled => ?_⟩
  have hcolor := colorOfLed_map std (normal_distinct std proper)
    (fun i => (colorOfLed (std.sort (leds.filter Led.isNormal))
      (channelColors raw2led priority ledColors) i).getD .black) (source_mem std proper hled)
  rw [← hcolors] at hcolor
  obtain ⟨label, hlabel, hshown⟩ := hget led hled
  have hsource : label = led.source := Option.some.inj (hlabel.symm.trans (shown led hled))
  exact ⟨_, hcolor, by rw [hshown, hsource]⟩

theorem labels_of_everyChannelShows {hwLedCount : Nat}
    (shows : EveryChannelShows std leds hwLedCount) :
    ∃ labels, insertClones (std.sort (leds.filter (fun led => !led.isNormal)))
        ((std.sort (leds.filter Led.isNormal)).map Led.index) = .ok labels ∧
      ∀ led ∈ leds, labels[led.index]? = some led.source := by
  -- the labels exist because the loop succeeds on some vector of this length
  obtain ⟨frame, hframe, _⟩ := shows ⟨[], []⟩ PriorityMuxer.lowestPriority
    (List.replicate (std.sort (leds.filter Led.isNormal)).length .black) (by simp)
  obtain ⟨orders, _, hbuild⟩ := bind_ok.mp hframe
  obtain ⟨buffer, hbuffer, _⟩ := (buildFrame_eq_ok_iff _ _ _ _ _).mp hbuild
  obtain ⟨labels, hlabels⟩ := insertClones_ok_of_length
    ((std.sort (leds.filter Led.isNormal)).map Led.index)
    (by simp [channelColors_length]) hbuffer
  refine ⟨labels, hlabels, fun led hled => ?_⟩
  -- a vector that is lit exactly at the source of `led` tells the label at `led`
  let lit : Nat → ColorRgb := fun i => if i = led.source then ⟨255, 255, 255⟩ else .black
  obtain ⟨frame, hframe, hshows⟩ := shows ⟨[], []⟩ PriorityMuxer.lowestPriority
    (((std.sort (leds.filter Led.isNormal)).map Led.index).map lit) (by simp)
  rw [channelColors, if_neg (lt_irrefl _)] at hframe hshows
  obtain ⟨frame', hframe', hget⟩ := composeFrame_of_labels std proper hwLedCount hlabels lit
  obtain rfl := Except.ok.inj (hframe.symm.trans hframe')
  obtain ⟨label, hlabel, hlabelled⟩ := hget led hled
  obtain ⟨color, hcolor, hshown⟩ := hshows led hled
  have hlit : color = lit led.source := Option.some.inj (hcolor.symm.trans
    (colorOfLed_map std (normal_distinct std proper) lit (source_mem std proper hled)))
  have hcorrect : lit label = lit led.source :=
    led.colorOrder.correct_injective (Option.some.inj (hlabelled.symm.trans (hlit ▸ hshown)))
  have hsource : label = led.source := by
    by_contra hne
    simp [lit, hne, ColorRgb.black] at hcorrect
  rw [hlabel, hsource]

end Composed

/-- Every frame of every channel shows the right LEDs exactly when every clone
has a greater index than the LED it names. -/
theorem everyChannelShows_iff (std : IndexSort) (ledsConfig : List LedConfig)
    (deviceOrder : ColorOrder) (hwLedCount : Nat)
    (proper : ProperLayout (configuredLeds ledsConfig deviceOrder)) :
    EveryChannelShows std (configuredLeds ledsConfig deviceOrder) hwLedCount ↔
      ∀ led ∈ configuredLeds ledsConfig deviceOrder,
        led.isNormal = false → led.clone < led.index := by
  have clones : ∀ led : Led, led.isNormal = false →
      (led.clone < led.index ↔ led.clone.toNat < led.index) := by
    intro led hn
    have : ¬ led.clone < 0 := by simpa [Led.isNormal] using hn
    omega
  have labels := labels_show_sources_iff std proper
  constructor
  · intro shows led hled hn
    exact (clones led hn).mpr (labels.mp (labels_of_everyChannelShows std proper shows) led hled hn)
  · intro behind
    obtain ⟨out, hout, hshown⟩ := labels.mpr fun led hled hn =>
      (clones led hn).mp (behind led hled hn)
    exact everyChannelShows_of_labels std proper hout hshown

theorem everyChannelShows_clone_behind :
    EveryChannelShows .stable
      (configuredLeds [{ index := 0 }, { index := 1, clone := 0 }] .rgb) 2 :=
  (everyChannelShows_iff .stable [{ index := 0 }, { index := 1, clone := 0 }] .rgb 2
    ⟨by decide, by decide⟩).mpr (by decide)

/-- With the clone in front of its source the first read of the loop is out of
range, and a third LED makes it read the wrong LED instead. -/
theorem not_everyChannelShows_clone_before :
    ProperLayout (configuredLeds [{ index := 0, clone := 1 }, { index := 1 }] .rgb) ∧
    composeFrame (createLedString .stable [{ index := 0, clone := 1 }, { index := 1 }] .rgb)
      (createLedStringClone .stable [{ index := 0, clone := 1 }, { index := 1 }] .rgb) 1
      (channelColors ⟨[], []⟩ 255 [⟨1, 1, 1⟩]) = .error .outOfRange ∧
    ¬ EveryChannelShows .stable
      (configuredLeds [{ index := 0, clone := 1 }, { index := 1 }] .rgb) 1 ∧
    composeFrame
      (createLedString .stable [{ index := 0, clone := 1 }, { index := 1 }, { index := 2 }] .rgb)
      (createLedStringClone .stable
        [{ index := 0, clone := 1 }, { index := 1 }, { index := 2 }] .rgb)
      2 (channelColors ⟨[], []⟩ 255 [⟨1, 1, 1⟩, ⟨2, 2, 2⟩]) =
        .ok [⟨2, 2, 2⟩, ⟨1, 1, 1⟩, ⟨2, 2, 2⟩] := by
  have outOfRange : composeFrame
      (createLedString .stable [{ index := 0, clone := 1 }, { index := 1 }] .rgb)
      (createLedStringClone .stable [{ index := 0, clone := 1 }, { index := 1 }] .rgb) 1
      (channelColors ⟨[], []⟩ 255 [⟨1, 1, 1⟩]) = .error .outOfRange := by decide
  refine ⟨⟨by decide, by decide⟩, outOfRange, fun shows => ?_, by decide⟩
  obtain ⟨frame, hframe, _⟩ := shows ⟨[], []⟩ 255 [⟨1, 1, 1⟩] (by decide)
  exact absurd (outOfRange.symm.trans hframe) (by simp)

end HyperionNg
