import HyperionNg.HueStates

/-! The lamps against the colours remembered for them. A command is sent where
the colour of a frame differs from the remembered one, which starts as black
while the lamps are switched on: a lamp whose first colour is black stays lit.
From its first other colour on, memory and lamp agree. -/

namespace HyperionNg

open Library.Execution

/-- The numbers of `xy` are held as they were sent. -/
structure HueLamp where
  on : Bool
  xy : List Char × List Char
  bri : Int
deriving DecidableEq

/-- The bridge applies a request to the lamp it names; what it makes of an
original state is left open. -/
structure HueBridge where
  initial : Nat → HueLamp
  restore : List Char → HueLamp → HueLamp

def HueBridge.apply (bridge : HueBridge) (lib : HueLibrary) (lamp : HueLamp) :
    HueRequest → HueLamp
  | .original originalState => bridge.restore originalState lamp
  | .on => { lamp with on := true }
  | .off => { lamp with on := false }
  | .color switchOn xy _ => {
      on := switchOn || lamp.on
      xy := (lib.number xy.x, lib.number xy.y)
      bri := qRound (xy.bri * 255) }

def requests (puts : List HuePut) (lightId : Nat) : List HueRequest :=
  (puts.filter fun put => put.lightId = lightId).map HuePut.request

def HueBridge.lamp (bridge : HueBridge) (lib : HueLibrary) (puts : List HuePut)
    (lightId : Nat) : HueLamp :=
  (requests puts lightId).foldl (bridge.apply lib) (bridge.initial lightId)

@[simp] theorem requests_append (first second : List HuePut) (lightId : Nat) :
    requests (first ++ second) lightId = requests first lightId ++ requests second lightId := by
  simp [requests]

private theorem requests_cons_self (lightId : Nat) (request : HueRequest) (puts : List HuePut) :
    requests (⟨lightId, request⟩ :: puts) lightId = request :: requests puts lightId := by
  simp [requests]

private theorem requests_cons_of_ne {put : HuePut} {lightId : Nat} (other : put.lightId ≠ lightId)
    (puts : List HuePut) : requests (put :: puts) lightId = requests puts lightId := by
  simp [requests, other]

theorem requests_eq_nil {puts : List HuePut} {lightId : Nat}
    (others : ∀ put ∈ puts, put.lightId ≠ lightId) : requests puts lightId = [] := by
  simpa [requests] using others

theorem requests_map {lights : List PhilipsHueLight} (request : PhilipsHueLight → HueRequest)
    (distinct : (lights.map PhilipsHueLight.id).Nodup) {light : PhilipsHueLight}
    (mem : light ∈ lights) :
    requests (lights.map fun light => ⟨light.id, request light⟩) light.id = [request light] := by
  induction lights with
  | nil => simp at mem
  | cons first others ih =>
    obtain ⟨absent, distinct⟩ := List.nodup_cons.mp distinct
    rcases List.mem_cons.mp mem with rfl | later
    · rw [List.map_cons, requests_cons_self, requests_eq_nil]
      intro put member
      obtain ⟨other, there, rfl⟩ := List.mem_map.mp member
      exact fun same => absent (same ▸ List.mem_map_of_mem there)
    · have differs : first.id ≠ light.id := fun same =>
        absent (same ▸ List.mem_map_of_mem later)
      rw [List.map_cons, requests_cons_of_ne differs, ih distinct later]

structure HueLamp.Lit (lib : HueLibrary) (lamp : HueLamp) (color : CiColor) : Prop where
  on : lamp.on = true
  xy : lamp.xy = (lib.number color.x, lib.number color.y)
  bri : lamp.bri = qRound (color.bri * 255)

def HueLamp.Shows (lib : HueLibrary) (lamp : HueLamp) (black color : CiColor) : Prop :=
  if color = black then lamp.on = false else lamp.Lit lib color

structure PhilipsHueLight.Remembers (lib : HueLibrary) (light : PhilipsHueLight)
    (sent : List HueRequest) (lamp : HueLamp) : Prop where
  lit : light.color ≠ light.black → lamp.Lit lib light.color
  colored : light.color ≠ light.black → sent.getLast? ≠ some .on
  dark : light.color = light.black → (lamp.on = true ↔ sent.getLast? = some .on)

namespace LedDevicePhilipsHue

theorem command_remembers {lib : HueLibrary} (bridge : HueBridge) {s : LedDevicePhilipsHue}
    (enabled : s.switchOffOnBlack = true) {light : PhilipsHueLight} {sent : List HueRequest}
    {lamp : HueLamp} (remembers : light.Remembers lib sent lamp) (xy : CiColor) :
    let request := (s.command light xy).toList
    let next := request.foldl (bridge.apply lib) lamp
    { light with color := xy }.Remembers lib (sent ++ request) next ∧
      (next.Shows lib light.black xy ↔ (xy = light.black → sent.getLast? ≠ some .on)) := by
  by_cases same : xy = light.color
  · have silent : s.command light xy = none := by rw [command, if_neg (not_not.mpr same)]
    rw [silent]
    subst same
    refine ⟨by simpa using remembers, ?_⟩
    by_cases black : light.color = light.black
    · have dark := remembers.dark black
      simp only [HueLamp.Shows, Option.toList_none, List.foldl_nil, black, ↓reduceIte,
        true_imp_iff, ne_eq, ← dark, Bool.not_eq_true]
    · simp only [HueLamp.Shows, if_neg black, Option.toList_none, List.foldl_nil]
      exact iff_of_true (remembers.lit black) fun h => absurd h black
  · by_cases black : xy = light.black
    · have before : light.color ≠ light.black := fun h => same (black.trans h.symm)
      have off : s.command light xy = some .off := by
        rw [command, if_pos same, if_pos ⟨enabled, before, black⟩]
      rw [off]
      refine ⟨⟨fun h => absurd black h, fun h => absurd black h, fun _ => ?_⟩, ?_⟩
      · simp [HueBridge.apply]
      · simp only [HueLamp.Shows, if_pos black]
        exact iff_of_true rfl fun _ => remembers.colored before
    · have on : ∃ switchOn, s.command light xy = some (.color switchOn xy s.transitiontime) ∧
          (switchOn || lamp.on) = true := by
        rw [command, if_pos same, if_neg fun h => black h.2.2]
        by_cases before : light.color = light.black
        · exact ⟨true, if_pos ⟨enabled, before, black⟩, rfl⟩
        · refine ⟨false, if_neg fun h => before h.2.1, ?_⟩
          exact (remembers.lit before).on
      obtain ⟨switchOn, colored, shines⟩ := on
      rw [colored]
      have lit : HueLamp.Lit lib
          (bridge.apply lib lamp (.color switchOn xy s.transitiontime)) xy := ⟨shines, rfl, rfl⟩
      refine ⟨⟨fun _ => lit, fun _ => by simp, fun h => absurd h black⟩, ?_⟩
      simp only [HueLamp.Shows, if_neg black]
      exact iff_of_true lit fun h => absurd h black

theorem writeColors_lamp {lib : HueLibrary} {s : LedDevicePhilipsHue} {ledValues : List ColorRgb}
    {lamps lights : List PhilipsHueLight} {puts : List HuePut}
    (distinct : (lamps.map PhilipsHueLight.id).Nodup)
    (ok : s.writeColors lib lamps ledValues = .ok (lights, puts)) :
    lights.length = lamps.length ∧
      (∀ put ∈ puts, put.lightId ∈ lamps.map PhilipsHueLight.id) ∧
      ∀ (i : Nat) (light : PhilipsHueLight), lamps[i]? = some light →
        match ledValues[i]? with
        | some color => lights[i]? = some { light with color := light.rgbToCiColor lib color } ∧
          requests puts light.id = (s.command light (light.rgbToCiColor lib color)).toList
        | none => lights[i]? = some light ∧ requests puts light.id = [] := by
  induction ledValues generalizing lamps lights puts with
  | nil =>
    have same : (lamps, []) = (lights, puts) := by
      cases lamps <;> exact Except.ok.inj ok
    obtain ⟨rfl, rfl⟩ := Prod.mk.inj same
    exact ⟨rfl, nofun, fun i light found => ⟨found, rfl⟩⟩
  | cons color ledValues ih =>
    cases lamps with
    | nil => cases ok
    | cons lamp lamps =>
      obtain ⟨absent, distinct⟩ := List.nodup_cons.mp distinct
      obtain ⟨others, later, rest, rfl, rfl⟩ := writeColors_cons ok
      obtain ⟨length, within, each⟩ := ih distinct rest
      have own : ∀ put ∈ ((s.command lamp (lamp.rgbToCiColor lib color)).map
          (HuePut.mk lamp.id)).toList, put.lightId = lamp.id := by
        cases s.command lamp (lamp.rgbToCiColor lib color) <;> simp
      refine ⟨congrArg Nat.succ length, fun put mem => ?_, fun i light found => ?_⟩
      · rcases List.mem_append.mp mem with mine | theirs
        · exact List.mem_cons.mpr (Or.inl (own put mine))
        · exact List.mem_cons_of_mem _ (within put theirs)
      · cases i with
        | zero =>
          obtain rfl : lamp = light := Option.some.inj found
          refine ⟨rfl, ?_⟩
          have none : requests later lamp.id = [] :=
            requests_eq_nil fun put mem same => absent (same ▸ within put mem)
          rw [requests_append, none, List.append_nil]
          cases s.command lamp (lamp.rgbToCiColor lib color) <;> simp [requests]
        | succ i =>
          have there : lamps[i]? = some light := found
          have differs : lamp.id ≠ light.id := fun same =>
            absent (same ▸ List.mem_map_of_mem (List.mem_of_getElem? there))
          have none : requests ((s.command lamp (lamp.rgbToCiColor lib color)).map
              (HuePut.mk lamp.id)).toList light.id = [] :=
            requests_eq_nil fun put mem same => differs ((own put mem).symm.trans same)
          simp only [requests_append, none, List.nil_append, List.getElem?_cons_succ]
          exact each i light there

theorem writeColors_returns_iff {lib : HueLibrary} {s : LedDevicePhilipsHue}
    {ledValues : List ColorRgb} {lamps : List PhilipsHueLight} :
    (∃ result, s.writeColors lib lamps ledValues = .ok result) ↔
      ledValues.length ≤ lamps.length := by
  induction ledValues generalizing lamps with
  | nil => cases lamps <;> exact iff_of_true ⟨_, rfl⟩ (Nat.zero_le _)
  | cons color ledValues ih =>
    cases lamps with
    | nil => exact iff_of_false nofun (Nat.not_succ_le_zero _)
    | cons lamp lamps =>
      rw [List.length_cons, List.length_cons, Nat.succ_le_succ_iff, ← ih]
      constructor
      · rintro ⟨⟨lights, puts⟩, ok⟩
        obtain ⟨others, later, rest, -⟩ := writeColors_cons ok
        exact ⟨_, rest⟩
      · rintro ⟨result, rest⟩
        exact ⟨_, bind_eq_ok.mpr ⟨result, rest, rfl⟩⟩

structure Remember (lib : HueLibrary) (bridge : HueBridge) (s : LedDevicePhilipsHue) : Prop where
  enabled : s.switchOffOnBlack = true
  distinct : (s.lights.map PhilipsHueLight.id).Nodup
  lamps : ∀ light ∈ s.lights,
    light.Remembers lib (requests s.puts light.id) (bridge.lamp lib s.puts light.id)

theorem remember_of_none {lib : HueLibrary} {bridge : HueBridge} {s : LedDevicePhilipsHue}
    (enabled : s.switchOffOnBlack = true) (none : s.lights = []) : s.Remember lib bridge where
  enabled := enabled
  distinct := by simp [none]
  lamps := by simp [none]

theorem color_of_saveLights {lib : HueLibrary} {get : List Char → List UInt8}
    {s : LedDevicePhilipsHue} {lightIds : List Nat} {light : PhilipsHueLight}
    (mem : light ∈ s.saveLights lib get lightIds) : light.color = light.black := by
  induction lightIds with
  | nil => cases mem
  | cons lightId rest ih =>
    unfold saveLights at mem
    split at mem
    · next first saved =>
      rcases List.mem_cons.mp mem with rfl | later
      · obtain ⟨_, _, saved⟩ := Option.bind_eq_some_iff.mp saved
        obtain ⟨_, _, saved⟩ := Option.bind_eq_some_iff.mp saved
        obtain ⟨_, _, saved⟩ := Option.bind_eq_some_iff.mp saved
        rw [← Option.some.inj saved]
        rfl
      · exact ih later
    · cases mem

theorem switchOn_remember {lib : HueLibrary} (bridge : HueBridge) {s : LedDevicePhilipsHue}
    (enabled : s.switchOffOnBlack = true) (distinct : (s.lights.map PhilipsHueLight.id).Nodup)
    (black : ∀ light ∈ s.lights, light.color = light.black) :
    s.switchOn.Remember lib bridge where
  enabled := enabled
  distinct := distinct
  lamps := by
    intro light mem
    have own : requests s.switchOn.puts light.id = requests s.puts light.id ++ [.on] := by
      rw [switchOn, requests_append, requests_map (fun _ => .on) distinct mem]
    refine ⟨fun h => absurd (black light mem) h, fun h => absurd (black light mem) h, fun _ => ?_⟩
    simp [HueBridge.lamp, own, HueBridge.apply]

/-- The ids of the lamps that a write finds or saves are distinct. -/
def Distinct (lib : HueLibrary) (s : LedDevicePhilipsHue) : Op → Prop
  | .write get _ => ∀ u, s.savedForWrite lib get = .ok u →
      (u.lights.map PhilipsHueLight.id).Nodup
  | _ => True

instance (lib : HueLibrary) (s : LedDevicePhilipsHue) : (op : Op) → Decidable (s.Distinct lib op)
  | .write get _ => inferInstanceAs (Decidable (∀ u, s.savedForWrite lib get = .ok u →
      (u.lights.map PhilipsHueLight.id).Nodup))
  | .timeout => isTrue trivial
  | .switchOff => isTrue trivial

theorem Remember.savedForWrite {lib : HueLibrary} {bridge : HueBridge}
    {s u : LedDevicePhilipsHue} (remember : s.Remember lib bridge) {get : List Char → List UInt8}
    (ok : s.savedForWrite lib get = .ok u) (distinct : (u.lights.map PhilipsHueLight.id).Nodup) :
    u.Remember lib bridge := by
  unfold LedDevicePhilipsHue.savedForWrite at ok
  split_ifs at ok
  · cases ok
    exact remember
  · obtain ⟨saved, save, done⟩ := bind_eq_ok.mp ok
    cases done
    obtain ⟨lightIds, -, rfl⟩ := saveStates_cases save
    exact switchOn_remember bridge remember.enabled distinct fun _ mem => color_of_saveLights mem

/-- Right after a write that found all lamps saved, each lamp of the frame
shows its colour. -/
def ShowsFrame (lib : HueLibrary) (bridge : HueBridge) (s : LedDevicePhilipsHue) : Op → Prop
  | .write get ledValues => ∀ t, s.write lib get ledValues = .ok t →
      ∀ (i : Nat) (light : PhilipsHueLight) (color : ColorRgb),
        t.lights[i]? = some light → ledValues[i]? = some color →
        (bridge.lamp lib t.puts light.id).Shows lib light.black (light.rgbToCiColor lib color)
  | _ => True

/-- No lamp of the frame is given black that was only switched on so far. -/
def NoFirstBlack (lib : HueLibrary) (s : LedDevicePhilipsHue) : Op → Prop
  | .write get ledValues => ∀ u, s.savedForWrite lib get = .ok u →
      u.lights.length = unsigned u.ledCount → ledValues.length ≤ u.lights.length →
      ∀ (i : Nat) (light : PhilipsHueLight) (color : ColorRgb),
        u.lights[i]? = some light → ledValues[i]? = some color →
        light.rgbToCiColor lib color = light.black →
        (requests u.puts light.id).getLast? ≠ some .on
  | _ => True

instance (lib : HueLibrary) (s : LedDevicePhilipsHue) :
    (op : Op) → Decidable (s.NoFirstBlack lib op)
  | .write get ledValues => decidable_of_iff (∀ u, s.savedForWrite lib get = .ok u →
      u.lights.length = unsigned u.ledCount → ledValues.length ≤ u.lights.length →
      ∀ pair ∈ u.lights.zip ledValues, pair.1.rgbToCiColor lib pair.2 = pair.1.black →
        (requests u.puts pair.1.id).getLast? ≠ some .on) <| by
    refine forall_congr' fun u => imp_congr_right fun _ => imp_congr_right fun _ =>
      imp_congr_right fun _ => ⟨fun all i light color found here => ?_, fun all pair mem => ?_⟩
    · exact all (light, color) (List.mem_of_getElem?
        (List.getElem?_zip_eq_some.mpr ⟨found, here⟩))
    · obtain ⟨i, both⟩ := List.mem_iff_getElem?.mp mem
      obtain ⟨found, here⟩ := List.getElem?_zip_eq_some.mp both
      exact all i pair.1 pair.2 found here
  | .timeout => isTrue trivial
  | .switchOff => isTrue trivial

theorem Remember.writeColors {lib : HueLibrary} {bridge : HueBridge} {u : LedDevicePhilipsHue}
    (remember : u.Remember lib bridge) {ledValues : List ColorRgb}
    {lights : List PhilipsHueLight} {puts : List HuePut}
    (ok : u.writeColors lib u.lights ledValues = .ok (lights, puts)) :
    Remember lib bridge { u with lights, puts := u.puts ++ puts, timer := true } ∧
      ((∀ (i : Nat) (light : PhilipsHueLight) (color : ColorRgb),
        lights[i]? = some light → ledValues[i]? = some color →
        (bridge.lamp lib (u.puts ++ puts) light.id).Shows lib light.black
          (light.rgbToCiColor lib color)) ↔
        ∀ (i : Nat) (light : PhilipsHueLight) (color : ColorRgb),
          u.lights[i]? = some light → ledValues[i]? = some color →
          light.rgbToCiColor lib color = light.black →
          (requests u.puts light.id).getLast? ≠ some .on) := by
  obtain ⟨length, -, each⟩ := writeColors_lamp remember.distinct ok
  -- what the write makes of the lamp at one position
  have given : ∀ (i : Nat) (light : PhilipsHueLight) (color : ColorRgb),
      u.lights[i]? = some light → ledValues[i]? = some color →
      lights[i]? = some { light with color := light.rgbToCiColor lib color } ∧
      PhilipsHueLight.Remembers lib { light with color := light.rgbToCiColor lib color }
        (requests (u.puts ++ puts) light.id) (bridge.lamp lib (u.puts ++ puts) light.id) ∧
      ((bridge.lamp lib (u.puts ++ puts) light.id).Shows lib light.black
          (light.rgbToCiColor lib color) ↔
        (light.rgbToCiColor lib color = light.black →
          (requests u.puts light.id).getLast? ≠ some .on)) := by
    intro i light color found here
    have step := command_remembers bridge remember.enabled
      (remember.lamps light (List.mem_of_getElem? found)) (light.rgbToCiColor lib color)
    have each := each i light found
    simp only [here] at each
    obtain ⟨same, own⟩ := each
    simp only [HueBridge.lamp, requests_append, own, List.foldl_append] at step ⊢
    exact ⟨same, step⟩
  have source : ∀ (i : Nat) (light : PhilipsHueLight), lights[i]? = some light →
      ∃ before, u.lights[i]? = some before := by
    intro i light found
    have bound : i < u.lights.length := length ▸ (List.getElem?_eq_some_iff.mp found).1
    exact ⟨_, List.getElem?_eq_getElem bound⟩
  refine ⟨⟨remember.enabled, ?_, fun light mem => ?_⟩, ?_⟩
  · have kept := congrArg (List.map Prod.fst) (writeColors_saved ok)
    simp only [List.map_map] at kept
    exact (show lights.map PhilipsHueLight.id = u.lights.map PhilipsHueLight.id from kept) ▸
      remember.distinct
  · obtain ⟨i, found⟩ := List.mem_iff_getElem?.mp mem
    obtain ⟨before, old⟩ := source i light found
    cases here : ledValues[i]? with
    | some color =>
      obtain ⟨same, remembers, -⟩ := given i before color old here
      obtain rfl := Option.some.inj (same.symm.trans found)
      exact remembers
    | none =>
      have each := each i before old
      simp only [here] at each
      obtain rfl := Option.some.inj (each.1.symm.trans found)
      simp only [HueBridge.lamp, requests_append, each.2, List.append_nil]
      exact remember.lamps before (List.mem_of_getElem? old)
  · constructor
    · intro shows i light color found here
      obtain ⟨same, -, meets⟩ := given i light color found here
      exact meets.mp (shows i { light with color := light.rgbToCiColor lib color } color same here)
    · intro first i light color found here
      obtain ⟨before, old⟩ := source i light found
      obtain ⟨same, -, meets⟩ := given i before color old here
      obtain rfl := Option.some.inj (same.symm.trans found)
      exact meets.mpr (first i before color old here)

private theorem restoreStates_remember {lib : HueLibrary} {bridge : HueBridge}
    {s : LedDevicePhilipsHue} (remember : s.Remember lib bridge) :
    s.restoreStates.Remember lib bridge :=
  remember_of_none remember.enabled rfl

theorem Remember.write {lib : HueLibrary} {bridge : HueBridge} {s : LedDevicePhilipsHue}
    (remember : s.Remember lib bridge) {get : List Char → List UInt8} {ledValues : List ColorRgb}
    (distinct : s.Distinct lib (.write get ledValues)) :
    (∀ t, s.write lib get ledValues = .ok t → t.Remember lib bridge) ∧
      (s.ShowsFrame lib bridge (.write get ledValues) ↔
        s.NoFirstBlack lib (.write get ledValues)) := by
  refine ⟨fun t ok => ?_, ?_, ?_⟩
  · obtain ⟨u, saved, cases⟩ := write_cases ok
    have remembered := remember.savedForWrite saved (distinct u saved)
    obtain ⟨-, rfl⟩ | ⟨-, lights, puts, colored, rfl⟩ := cases
    · exact restoreStates_remember remembered
    · exact (remembered.writeColors colored).1
  · intro shows u saved complete fits
    obtain ⟨⟨lights, puts⟩, colored⟩ := writeColors_returns_iff.mpr fits
    have remembered := remember.savedForWrite saved (distinct u saved)
    refine (remembered.writeColors colored).2.mp ?_
    refine shows { u with lights, puts := u.puts ++ puts, timer := true } ?_
    refine bind_eq_ok.mpr ⟨u, saved, ?_⟩
    rw [if_neg (not_not.mpr complete)]
    exact bind_eq_ok.mpr ⟨_, colored, rfl⟩
  · intro first t ok
    obtain ⟨u, saved, cases⟩ := write_cases ok
    have remembered := remember.savedForWrite saved (distinct u saved)
    obtain ⟨-, rfl⟩ | ⟨complete, lights, puts, colored, rfl⟩ := cases
    · exact fun i light color found => absurd found (by simp [restoreStates])
    · exact (remembered.writeColors colored).2.mpr
        (first u saved complete (writeColors_returns_iff.mp ⟨_, colored⟩))

theorem Remember.step {lib : HueLibrary} {bridge : HueBridge} {s t : LedDevicePhilipsHue}
    (remember : s.Remember lib bridge) {op : Op} (distinct : s.Distinct lib op)
    (ok : s.step lib op = .ok t) : t.Remember lib bridge := by
  cases op with
  | write get ledValues => exact (remember.write distinct).1 t ok
  | timeout =>
    cases ok
    unfold timeout
    split_ifs
    · exact remember_of_none remember.enabled rfl
    · exact remember
  | switchOff =>
    cases ok
    unfold switchOff
    dsimp only
    split_ifs
    · exact remember_of_none remember.enabled rfl
    · exact ⟨remember.enabled, remember.distinct, remember.lamps⟩

theorem Remember.exact {lib : HueLibrary} {bridge : HueBridge} {s : LedDevicePhilipsHue}
    (remember : s.Remember lib bridge) {op : Op} (distinct : s.Distinct lib op) :
    s.ShowsFrame lib bridge op ↔ s.NoFirstBlack lib op := by
  cases op with
  | write get ledValues => exact (remember.write distinct).2
  | timeout => exact Iff.rfl
  | switchOff => exact Iff.rfl

/-- Along a run over distinct lamps every write shows its frame exactly when
none gives black to a lamp that was only switched on since it was saved. -/
theorem shows_frames_iff {lib : HueLibrary} (bridge : HueBridge) {ledCount : Int}
    {deviceConfig : QJsonObject} {ops : List Op}
    (enabled : (init ledCount deviceConfig).switchOffOnBlack = true)
    (distinct : Along (step lib) (Distinct lib) (init ledCount deviceConfig) ops) :
    Along (step lib) (ShowsFrame lib bridge) (init ledCount deviceConfig) ops ↔
      Along (step lib) (NoFirstBlack lib) (init ledCount deviceConfig) ops := by
  have remember : (init ledCount deviceConfig).Remember lib bridge := remember_of_none enabled rfl
  generalize init ledCount deviceConfig = s at remember distinct
  induction ops generalizing s with
  | nil => exact Iff.rfl
  | cons op rest ih =>
    refine and_congr (remember.exact distinct.1) (forall_congr' fun t => forall_congr' fun ok => ?_)
    exact ih t (remember.step distinct.1 ok) (distinct.2 t ok)

/-- All lamps off at first; they ignore what they are restored to. -/
def sampleLamps : HueBridge where
  initial _ := ⟨false, ([], []), 0⟩
  restore _ lamp := lamp

theorem shows_frames_white :
    Along (step sampleLibrary) (ShowsFrame sampleLibrary sampleLamps) sampleDevice
      [.write sampleBridge [⟨255, 255, 255⟩], .write sampleBridge [⟨0, 0, 0⟩], .timeout,
        .write sampleBridge [⟨255, 255, 255⟩], .switchOff] := by
  have checked : checksAlong (step sampleLibrary)
      (fun s op => decide (s.Distinct sampleLibrary op ∧ s.NoFirstBlack sampleLibrary op))
      sampleDevice
      [.write sampleBridge [⟨255, 255, 255⟩], .write sampleBridge [⟨0, 0, 0⟩], .timeout,
        .write sampleBridge [⟨255, 255, 255⟩], .switchOff] = true := by decide +kernel
  exact (shows_frames_iff sampleLamps rfl
    (along_of_checks checked fun _ _ _ h => (of_decide_eq_true h).1)).mpr
      (along_of_checks checked fun _ _ _ h => (of_decide_eq_true h).2)

/-- The lamp was switched on, and its first colour is the one remembered. -/
theorem first_black_stays_lit :
    ¬ Along (step sampleLibrary) (ShowsFrame sampleLibrary sampleLamps) sampleDevice
      [.write sampleBridge [⟨0, 0, 0⟩]] := by
  have lit : returnsWith (sampleDevice.write sampleLibrary sampleBridge [⟨0, 0, 0⟩])
      (fun t => ∃ light ∈ t.lights[0]?,
        light.rgbToCiColor sampleLibrary ⟨0, 0, 0⟩ = light.black ∧
          (sampleLamps.lamp sampleLibrary t.puts light.id).on = true) = true := by decide +kernel
  intro shows
  obtain ⟨t, ok, facts⟩ := exists_of_returnsWith lit
  obtain ⟨light, found, black, on⟩ := of_decide_eq_true facts
  have off := shows.1 t ok 0 light ⟨0, 0, 0⟩ found rfl
  rw [HueLamp.Shows, if_pos black, on] at off
  exact absurd off (by decide)

end LedDevicePhilipsHue

end HyperionNg
