import HyperionNg.LedString
import HyperionNg.ColorAdjustment
import HyperionNg.PriorityMuxer

/-! From a channel's colours to the frame for the device: clone colours are
inserted one by one into the growing buffer, every colour is put into the byte
order of its LED, and the rest of the hardware LEDs is black. -/

namespace HyperionNg

open Library.Execution

/-- The colours `update` hands to the frame: adjusted above the fallback. -/
def channelColors (raw2led : MultiColorAdjustment) (priority : Int)
    (ledColors : List ColorRgb) : List ColorRgb :=
  if priority < PriorityMuxer.lowestPriority then raw2led.applyAdjustment ledColors else ledColors

/-- `std::vector::at` -/
def vectorAt {α : Type} (buffer : List α) (i : Nat) : Except Fault α :=
  match buffer[i]? with
  | some x => .ok x
  | none => .error .outOfRange

/-- `buffer.insert(buffer.begin() + i, x)`, defined up to the end of the buffer. -/
def vectorInsert {α : Type} (buffer : List α) (i : Nat) (x : α) : Except Fault (List α) :=
  if i ≤ buffer.length then .ok (buffer.insertIdx i x) else .error .undefinedBehaviour

def insertColorOrders : List Led → List ColorOrder → Except Fault (List ColorOrder)
  | [], orders => .ok orders
  | led :: rest, orders =>
      (vectorInsert orders led.index led.colorOrder).bind (insertColorOrders rest)

def initLedStringColorOrder (ledString ledStringClone : List Led) :
    Except Fault (List ColorOrder) :=
  insertColorOrders ledStringClone (ledString.map Led.colorOrder)

def insertClones {α : Type} : List Led → List α → Except Fault (List α)
  | [], buffer => .ok buffer
  | led :: rest, buffer =>
      (vectorAt buffer led.clone.toNat).bind fun color =>
        (vectorInsert buffer led.index color).bind (insertClones rest)

/-- The byte order loop from position `i` on. -/
def correctColors (orders : List ColorOrder) : Nat → List ColorRgb → Except Fault (List ColorRgb)
  | _, [] => .ok []
  | i, color :: rest =>
      (vectorAt orders i).bind fun order =>
        (correctColors orders (i + 1) rest).map (order.correct color :: ·)

def padHardware (hwLedCount : Nat) (buffer : List ColorRgb) : List ColorRgb :=
  if buffer.length < hwLedCount then
    buffer ++ List.replicate (hwLedCount - buffer.length) .black
  else buffer

/-- The part of `Hyperion::update` between the adjusted colours and the device. -/
def buildFrame (ledStringClone : List Led) (orders : List ColorOrder) (hwLedCount : Nat)
    (ledColors : List ColorRgb) : Except Fault (List ColorRgb) :=
  (insertClones ledStringClone ledColors).bind fun buffer =>
    (correctColors orders 0 buffer).map (padHardware hwLedCount)

def composeFrame (ledString ledStringClone : List Led) (hwLedCount : Nat)
    (ledColors : List ColorRgb) : Except Fault (List ColorRgb) :=
  (initLedStringColorOrder ledString ledStringClone).bind fun orders =>
    buildFrame ledStringClone orders hwLedCount ledColors

theorem channelColors_length (raw2led : MultiColorAdjustment) (priority : Int)
    (ledColors : List ColorRgb) :
    (channelColors raw2led priority ledColors).length = ledColors.length := by
  unfold channelColors
  split_ifs <;> simp

theorem vectorAt_eq_ok_iff {α : Type} (buffer : List α) (i : Nat) (x : α) :
    vectorAt buffer i = .ok x ↔ buffer[i]? = some x := by
  unfold vectorAt
  cases buffer[i]? <;> simp

theorem vectorInsert_eq_ok_iff {α : Type} (buffer out : List α) (i : Nat) (x : α) :
    vectorInsert buffer i x = .ok out ↔ i ≤ buffer.length ∧ buffer.insertIdx i x = out := by
  unfold vectorInsert
  split_ifs with h <;> simp [h]

theorem insertColorOrders_cons_iff {led : Led} {rest : List Led} {orders out : List ColorOrder} :
    insertColorOrders (led :: rest) orders = .ok out ↔
      led.index ≤ orders.length ∧
        insertColorOrders rest (orders.insertIdx led.index led.colorOrder) = .ok out := by
  simp only [insertColorOrders, bind_ok, vectorInsert_eq_ok_iff]
  constructor
  · rintro ⟨_, ⟨h, rfl⟩, hrest⟩
    exact ⟨h, hrest⟩
  · rintro ⟨h, hrest⟩
    exact ⟨_, ⟨h, rfl⟩, hrest⟩

theorem insertClones_cons_iff {α : Type} {led : Led} {rest : List Led} {buffer out : List α} :
    insertClones (led :: rest) buffer = .ok out ↔
      ∃ color, buffer[led.clone.toNat]? = some color ∧ led.index ≤ buffer.length ∧
        insertClones rest (buffer.insertIdx led.index color) = .ok out := by
  simp only [insertClones, bind_ok, vectorAt_eq_ok_iff, vectorInsert_eq_ok_iff]
  constructor
  · rintro ⟨color, hcolor, _, ⟨h, rfl⟩, hrest⟩
    exact ⟨color, hcolor, h, hrest⟩
  · rintro ⟨color, hcolor, h, hrest⟩
    exact ⟨color, hcolor, _, ⟨h, rfl⟩, hrest⟩

theorem insertColorOrders_length {clones : List Led} {orders out : List ColorOrder}
    (h : insertColorOrders clones orders = .ok out) :
    out.length = orders.length + clones.length := by
  induction clones generalizing orders with
  | nil => simp [Except.ok.inj h]
  | cons led rest ih =>
    obtain ⟨hle, hrest⟩ := insertColorOrders_cons_iff.mp h
    rw [ih hrest, List.length_insertIdx_of_le_length hle, List.length_cons]
    omega

theorem insertClones_length {α : Type} {clones : List Led} {buffer out : List α}
    (h : insertClones clones buffer = .ok out) : out.length = buffer.length + clones.length := by
  induction clones generalizing buffer with
  | nil => simp [Except.ok.inj h]
  | cons led rest ih =>
    obtain ⟨color, _, hle, hrest⟩ := insertClones_cons_iff.mp h
    rw [ih hrest, List.length_insertIdx_of_le_length hle, List.length_cons]
    omega

theorem insertClones_ok_of_length {α β : Type} {clones : List Led} {buffer : List α}
    (other : List β) (same : buffer.length = other.length) {out : List α}
    (h : insertClones clones buffer = .ok out) : ∃ out', insertClones clones other = .ok out' := by
  induction clones generalizing buffer other with
  | nil => exact ⟨other, rfl⟩
  | cons led rest ih =>
    obtain ⟨color, hcolor, hle, hrest⟩ := insertClones_cons_iff.mp h
    have hlt : led.clone.toNat < other.length := by
      have := (List.getElem?_eq_some_iff.mp hcolor).1
      omega
    obtain ⟨out', hout'⟩ := ih (other.insertIdx led.index other[led.clone.toNat]) (by
      rw [List.length_insertIdx_of_le_length hle,
        List.length_insertIdx_of_le_length (same ▸ hle), same]) hrest
    exact ⟨out', insertClones_cons_iff.mpr
      ⟨_, List.getElem?_eq_getElem hlt, same ▸ hle, hout'⟩⟩

theorem insertClones_getElem?_of_lt {α : Type} {clones : List Led} {buffer out : List α} {k : Nat}
    (before : ∀ led ∈ clones, k < led.index) (h : insertClones clones buffer = .ok out) :
    out[k]? = buffer[k]? := by
  induction clones generalizing buffer with
  | nil => rw [Except.ok.inj h]
  | cons led rest ih =>
    obtain ⟨color, _, _, hrest⟩ := insertClones_cons_iff.mp h
    rw [ih (fun l hl => before l (by simp [hl])) hrest,
      List.getElem?_insertIdx_of_lt (before led (by simp))]

theorem correctColors_eq_ok_iff (orders : List ColorOrder) (i : Nat) (buffer out : List ColorRgb) :
    correctColors orders i buffer = .ok out ↔
      (buffer = [] ∨ i + buffer.length ≤ orders.length) ∧
        out = (orders.drop i).zipWith ColorOrder.correct buffer := by
  induction buffer generalizing i out with
  | nil => simp [correctColors, eq_comm]
  | cons color rest ih =>
    have unfolded : correctColors orders i (color :: rest) = .ok out ↔
        ∃ order, orders[i]? = some order ∧
          ∃ tail, correctColors orders (i + 1) rest = .ok tail ∧
            order.correct color :: tail = out := by
      simp only [correctColors, bind_ok, vectorAt_eq_ok_iff]
      refine exists_congr fun order => and_congr_right fun _ => ?_
      cases correctColors orders (i + 1) rest <;> simp [Except.map]
    rw [unfolded]
    simp only [ih, List.length_cons, reduceCtorEq, false_or]
    constructor
    · rintro ⟨order, horder, tail, ⟨hlen, rfl⟩, rfl⟩
      obtain ⟨hi, hget⟩ := List.getElem?_eq_some_iff.mp horder
      refine ⟨?_, ?_⟩
      · rcases hlen with rfl | hlen
        · simp only [List.length_nil]; omega
        · omega
      · rw [List.drop_eq_getElem_cons hi, hget, List.zipWith_cons_cons]
    · rintro ⟨hlen, rfl⟩
      have hi : i < orders.length := by omega
      refine ⟨orders[i], List.getElem?_eq_getElem hi, _, ⟨Or.inr (by omega), rfl⟩, ?_⟩
      rw [List.drop_eq_getElem_cons hi, List.zipWith_cons_cons]

private theorem padHardware_length (hwLedCount : Nat) (buffer : List ColorRgb) :
    (padHardware hwLedCount buffer).length = max hwLedCount buffer.length := by
  unfold padHardware
  split_ifs with h
  · rw [List.length_append, List.length_replicate]; omega
  · omega

theorem padHardware_getElem? {hwLedCount i : Nat} {buffer : List ColorRgb} (h : i < buffer.length) :
    (padHardware hwLedCount buffer)[i]? = buffer[i]? := by
  unfold padHardware
  split_ifs
  · exact List.getElem?_append_left h
  · rfl

theorem buildFrame_eq_ok_iff (clones : List Led) (orders : List ColorOrder) (hwLedCount : Nat)
    (ledColors frame : List ColorRgb) :
    buildFrame clones orders hwLedCount ledColors = .ok frame ↔
      ∃ buffer, insertClones clones ledColors = .ok buffer ∧ buffer.length ≤ orders.length ∧
        frame = padHardware hwLedCount (orders.zipWith ColorOrder.correct buffer) := by
  simp only [buildFrame, bind_ok]
  refine exists_congr fun buffer => and_congr_right fun _ => ?_
  have mapped : (correctColors orders 0 buffer).map (padHardware hwLedCount) = .ok frame ↔
      ∃ out, correctColors orders 0 buffer = .ok out ∧ padHardware hwLedCount out = frame := by
    cases correctColors orders 0 buffer <;> simp [Except.map]
  rw [mapped]
  simp only [correctColors_eq_ok_iff, List.drop_zero, Nat.zero_add]
  constructor
  · rintro ⟨_, ⟨hlen, rfl⟩, rfl⟩
    refine ⟨?_, rfl⟩
    rcases hlen with rfl | hlen
    · simp
    · exact hlen
  · rintro ⟨hlen, rfl⟩
    exact ⟨_, ⟨Or.inr hlen, rfl⟩, rfl⟩

theorem buildFrame_length {clones : List Led} {orders : List ColorOrder} {hwLedCount : Nat}
    {ledColors frame : List ColorRgb}
    (h : buildFrame clones orders hwLedCount ledColors = .ok frame) :
    frame.length = max hwLedCount (ledColors.length + clones.length) ∧
      ledColors.length + clones.length ≤ orders.length := by
  obtain ⟨buffer, hbuffer, hlen, rfl⟩ := (buildFrame_eq_ok_iff _ _ _ _ _).mp h
  have hcount := insertClones_length hbuffer
  rw [padHardware_length, List.length_zipWith]
  omega

theorem buildFrame_ok_of_length {clones : List Led} {orders : List ColorOrder} {hwLedCount : Nat}
    {ledColors frame : List ColorRgb} (other : List ColorRgb)
    (same : ledColors.length = other.length)
    (h : buildFrame clones orders hwLedCount ledColors = .ok frame) :
    ∃ frame', buildFrame clones orders hwLedCount other = .ok frame' := by
  obtain ⟨buffer, hbuffer, hlen, _⟩ := (buildFrame_eq_ok_iff _ _ _ _ _).mp h
  obtain ⟨buffer', hbuffer'⟩ := insertClones_ok_of_length other same hbuffer
  have hcount := insertClones_length hbuffer
  have hcount' := insertClones_length hbuffer'
  exact ⟨_, (buildFrame_eq_ok_iff _ _ _ _ _).mpr ⟨buffer', hbuffer', by omega, rfl⟩⟩

end HyperionNg
