import HyperionNg.LedDevicePhilipsHue

/-! What the lamps get back of the states they reported. The model id of a lamp
is a string and is read as an object, so what is kept is the text of an empty
object: it is no state that could be put back, and the id of no set. -/

namespace HyperionNg

open Library.Execution

def Gamut.ofModel (modelId : List Char) : CiColorTriangle :=
  if modelId ∈ Gamut.a.modelIds then Gamut.a.triangle
  else if modelId ∈ Gamut.b.modelIds then Gamut.b.triangle
  else if modelId ∈ Gamut.c.modelIds then Gamut.c.triangle
  else Gamut.unknown

def emptyObject : List Char := "\x7b\n\x7d".toList

/-- `QJsonDocument` writes and reads the empty object. -/
structure HueLibrary.Faithful (lib : HueLibrary) : Prop where
  toJson_empty : lib.toJson [] = emptyObject ++ ['\n']
  fromJson_empty : lib.fromJson (emptyObject.map fun c => UInt8.ofNat c.toNat) = some (.object [])

def PhilipsHueLight.saved (light : PhilipsHueLight) :
    Nat × CiColor × CiColorTriangle × List Char :=
  (light.id, light.black, light.colorSpace, light.originalState)

namespace LedDevicePhilipsHue

/-- A reply of the bridge for one lamp: its state and its model. -/
structure Reports (json state : QJsonObject) (modelId : String) : Prop where
  holds : json.value "state" = some (.object state)
  on : ∃ on, state.value "on" = some (.bool on)
  xy : ∃ xy, state.value "xy" = some xy
  bri : ∃ bri, state.value "bri" = some bri
  modelid : json.value "modelid" = some (.string modelId)

/-- Where the reply for a lamp reports a state and a model, the lamp has the
triangle of the model, and restoring sends the state. -/
def RestoresReported (lib : HueLibrary) (get : List Char → List UInt8)
    (s : LedDevicePhilipsHue) (i : Nat) (light : PhilipsHueLight) : Prop :=
  ∀ json state modelId, lib.fromJson (get (s.getUrl (getRoute light.id))) = some (.object json) →
    Reports json state modelId →
    ∃ kept put content, s.lights[i]? = some kept ∧ kept.id = light.id ∧
      kept.colorSpace = Gamut.ofModel modelId.toList ∧
      s.restoreStates.puts[s.puts.length + i]? = some put ∧
      s.sent lib put = (s.getUrl (getStateRoute light.id), content) ∧
      lib.fromJson (content.map fun c => UInt8.ofNat c.toNat) = some (.object (changingState state))

theorem changingState_ne_nil {json state : QJsonObject} {modelId : String}
    (reports : Reports json state modelId) : changingState state ≠ [] := by
  obtain ⟨on, held⟩ := reports.on
  have listed : ("on", Json.bool on) ∈ changingState state := by
    unfold changingState
    split_ifs <;> simp [held]
  exact List.ne_nil_of_mem listed

theorem saveState_eq {lib : HueLibrary} (faithful : lib.Faithful) {get : List Char → List UInt8}
    {s : LedDevicePhilipsHue} {lightId : Nat} {json state : QJsonObject} {modelId : String}
    (reply : lib.fromJson (get (s.getUrl (getRoute lightId))) = some (.object json))
    (reports : Reports json state modelId) :
    s.saveState lib get lightId = some (.new lib lightId emptyObject emptyObject) := by
  obtain ⟨on, held⟩ := reports.on
  have kept : QString.trimmed (lib.toJson []) = emptyObject := by
    rw [faithful.toJson_empty]
    decide +kernel
  have unquoted : emptyObject.filter (fun c => c ≠ '"') = emptyObject := by decide +kernel
  simp only [saveState, reply, reports.holds, reports.modelid, Json.toObject, held, kept, unquoted,
    Option.bind_eq_bind, Option.bind_some, Option.getD_some]

theorem saveLights_eq {lib : HueLibrary} (faithful : lib.Faithful) {get : List Char → List UInt8}
    {s : LedDevicePhilipsHue} {lightIds : List Nat}
    (replies : ∀ lightId ∈ lightIds, ∃ json state modelId,
      lib.fromJson (get (s.getUrl (getRoute lightId))) = some (.object json) ∧
        Reports json state modelId) :
    s.saveLights lib get lightIds =
      lightIds.map fun lightId => .new lib lightId emptyObject emptyObject := by
  induction lightIds with
  | nil => rfl
  | cons lightId rest ih =>
    obtain ⟨json, state, modelId, reply, reports⟩ := replies lightId List.mem_cons_self
    rw [saveLights, saveState_eq faithful reply reports,
      ih fun other mem => replies other (List.mem_cons_of_mem _ mem)]
    rfl

theorem writeColors_saved {lib : HueLibrary} {s : LedDevicePhilipsHue}
    {ledValues : List ColorRgb} {lamps lights : List PhilipsHueLight} {puts : List HuePut}
    (ok : s.writeColors lib lamps ledValues = .ok (lights, puts)) :
    lights.map PhilipsHueLight.saved = lamps.map PhilipsHueLight.saved := by
  induction ledValues generalizing lamps lights puts with
  | nil =>
    have same : (lamps, []) = (lights, puts) := by
      cases lamps <;> exact Except.ok.inj ok
    rw [(Prod.mk.inj same).1]
  | cons color ledValues ih =>
    cases lamps with
    | nil => cases ok
    | cons lamp lamps =>
      obtain ⟨others, later, rest, rfl, -⟩ := writeColors_cons ok
      rw [List.map_cons, List.map_cons, ih rest]
      rfl

theorem saveStates_cases {lib : HueLibrary} {get : List Char → List UInt8}
    {s saved : LedDevicePhilipsHue} {nLights : Nat}
    (ok : s.saveStates lib get nLights = .ok saved) :
    ∃ lightIds : List Nat, lightIds.length = nLights ∧
      saved = { s with lightIds, lights := s.saveLights lib get lightIds } := by
  unfold saveStates at ok
  split_ifs at ok with missing
  · obtain ⟨lightIds, read, done⟩ := bind_eq_ok.mp ok
    refine ⟨lightIds, ?_, (pure_eq_ok.mp done).symm⟩
    unfold readLightIds at read
    split at read
    · cases read
    · dsimp only at read
      split_ifs at read with few
      cases read
      exact not_not.mp few
  · exact ⟨s.lightIds, not_not.mp missing, (pure_eq_ok.mp ok).symm⟩

private theorem getUrl_congr {s t : LedDevicePhilipsHue} (host : s.host = t.host)
    (username : s.username = t.username) (route : List Char) : s.getUrl route = t.getUrl route := by
  unfold getUrl
  rw [host, username]

theorem write_saved {lib : HueLibrary} {get : List Char → List UInt8} {s t : LedDevicePhilipsHue}
    {ledValues : List ColorRgb} (filled : s.lights ≠ [])
    (complete : s.lights.length = unsigned s.ledCount)
    (ok : s.write lib get ledValues = .ok t) :
    t.lights.map PhilipsHueLight.saved = s.lights.map PhilipsHueLight.saved ∧
      t.ledCount = s.ledCount ∧ t.host = s.host ∧ t.username = s.username := by
  obtain ⟨u, same, cases⟩ := write_cases ok
  obtain rfl : s = u := Except.ok.inj ((savedForWrite_of_saved filled).symm.trans same)
  obtain ⟨missing, -⟩ | ⟨-, lights, puts, colored, rfl⟩ := cases
  · exact absurd complete missing
  · exact ⟨writeColors_saved colored, rfl, rfl, rfl⟩

theorem writes_saved {lib : HueLibrary} {s t : LedDevicePhilipsHue}
    {writes : List ((List Char → List UInt8) × List ColorRgb)} (filled : s.lights ≠ [])
    (complete : s.lights.length = unsigned s.ledCount)
    (run : Reaches (step lib) s (writes.map fun write => .write write.1 write.2) t) :
    t.lights.map PhilipsHueLight.saved = s.lights.map PhilipsHueLight.saved ∧
      t.host = s.host ∧ t.username = s.username := by
  induction writes generalizing s with
  | nil =>
    obtain rfl := reaches_nil.mp run
    exact ⟨rfl, rfl, rfl⟩
  | cons write writes ih =>
    obtain ⟨u, ok, rest⟩ := reaches_cons.mp run
    obtain ⟨lights, count, host, username⟩ := write_saved filled complete ok
    have length : u.lights.length = s.lights.length := by
      simpa using congrArg List.length lights
    obtain ⟨later, hostT, usernameT⟩ := ih
      (List.ne_nil_of_length_pos (length ▸ List.length_pos_of_ne_nil filled))
      (length.trans (complete.trans (congrArg unsigned count).symm)) rest
    exact ⟨later.trans lights, hostT.trans host, usernameT.trans username⟩

/-- After any writes the lamps get their states back, under the triangles of
their models, only where there are no lamps. -/
theorem restores_reported_iff {lib : HueLibrary} (faithful : lib.Faithful)
    {get : List Char → List UInt8} {s saved t : LedDevicePhilipsHue}
    {writes : List ((List Char → List UInt8) × List ColorRgb)}
    (save : s.saveStates lib get (unsigned s.ledCount) = .ok saved)
    (replies : ∀ lightId ∈ saved.lightIds, ∃ json state modelId,
      lib.fromJson (get (saved.getUrl (getRoute lightId))) = some (.object json) ∧
        Reports json state modelId)
    (run : Reaches (step lib) saved (writes.map fun write => .write write.1 write.2) t) :
    (∀ i light, saved.lights[i]? = some light → t.RestoresReported lib get i light) ↔
      unsigned s.ledCount = 0 := by
  obtain ⟨lightIds, count, rfl⟩ := saveStates_cases save
  have lights := saveLights_eq (s := s) faithful replies
  rw [← count, List.length_eq_zero_iff]
  constructor
  · intro restores
    by_contra some
    obtain ⟨lightId, rest, rfl⟩ := List.exists_cons_of_ne_nil some
    obtain ⟨json, state, modelId, reply, reports⟩ := replies lightId List.mem_cons_self
    obtain ⟨kept, host, username⟩ := writes_saved (by simp [lights])
      (by simpa [lights] using count) run
    have url := getUrl_congr (s := t) (t := s) host username (getRoute lightId)
    have first := restores 0 (.new lib lightId emptyObject emptyObject) (by simp [lights])
    obtain ⟨lamp, put, content, held, -, -, restored, sent, parsed⟩ :=
      first json state modelId ((congrArg (fun url => lib.fromJson (get url)) url).trans reply)
        reports
    have original : lamp.originalState = emptyObject := by
      have head := congrArg (·[0]?) kept
      simp only [lights, List.getElem?_map, held, List.map_cons, List.getElem?_cons_zero,
        Option.map_some, Option.some.injEq] at head
      exact congrArg (fun saved => saved.2.2.2) head
    have request : put.request = .original emptyObject := by
      simp only [restoreStates, Nat.add_zero, List.getElem?_append_right le_rfl, Nat.sub_self,
        List.getElem?_map, held, Option.map_some, Option.some.injEq] at restored
      rw [← restored, original]
    have text : emptyObject = content := by
      rw [← (Prod.mk.inj sent).2, request, HueRequest.content_original]
    rw [← text, faithful.fromJson_empty] at parsed
    exact changingState_ne_nil reports (Json.object.inj (Option.some.inj parsed)).symm
  · intro none i light found
    have empty : s.saveLights lib get lightIds = [] := by rw [none, saveLights]
    exact absurd (found.symm.trans (congrArg (·[i]?) empty)) (Option.some_ne_none light)

def sampleReply : QJsonObject :=
  [("modelid", .string "LCT001"),
    ("state", .object [("bri", .double 254), ("on", .bool true),
      ("xy", .array [.double (1 / 2), .double (2 / 5)])])]

def sampleText : List UInt8 :=
  ("\x7b\"state\":\x7b\"on\":true,\"xy\":[0.5,0.4],\"bri\":254\x7d," ++
    "\"modelid\":\"LCT001\"\x7d").toList.map fun c => UInt8.ofNat c.toNat

/-- Six digits for fractions and roots; powers of 1 only. -/
def sampleLibrary : HueLibrary where
  fromJson text :=
    if text = sampleText then some (.object sampleReply)
    else if text = emptyObject.map fun c => UInt8.ofNat c.toNat then some (.object [])
    else none
  toJson object := if object = [] then emptyObject ++ ['\n'] else []
  number d := "0.".toList ++
    (toString ⌊d * 10 ^ 6 + 1 / 2⌋.toNat).toList.rdropWhile (· = '0')
  powf x _ := x
  sqrt d := Nat.sqrt ⌊d * 10 ^ 12⌋.toNat / 10 ^ 6

private theorem sampleLibrary_faithful : sampleLibrary.Faithful where
  toJson_empty := rfl
  fromJson_empty := by decide +kernel

def sampleBridge (url : List Char) : List UInt8 :=
  if url = "http://bridge/api/newdeveloper/lights/1".toList then sampleText else []

def sampleDevice : LedDevicePhilipsHue :=
  init 1 [("lightIds", .array [.double 1]), ("output", .string "bridge")]

def pairBridge (url : List Char) : List UInt8 :=
  if url ∈ ["http://bridge/api/newdeveloper/lights/1".toList,
    "http://bridge/api/newdeveloper/lights/2".toList] then sampleText else []

def pairDevice : LedDevicePhilipsHue :=
  init 2 [("lightIds", .array [.double 1, .double 2]), ("output", .string "bridge")]

theorem restores_reported_two : ∃ saved t,
    pairDevice.saveStates sampleLibrary pairBridge (unsigned pairDevice.ledCount) = .ok saved ∧
    Reaches (step sampleLibrary) saved [.write pairBridge [⟨255, 0, 0⟩, ⟨0, 0, 255⟩]] t ∧
    saved.lights.length = 2 ∧ t.puts.length = 2 ∧
    ¬ ∀ i light, saved.lights[i]? = some light →
      t.RestoresReported sampleLibrary pairBridge i light := by
  have checked : returnsWith
      (pairDevice.saveStates sampleLibrary pairBridge (unsigned pairDevice.ledCount))
      (fun saved => decide (saved.lightIds = [1, 2] ∧ saved.lights.length = 2 ∧
        sampleLibrary.fromJson (pairBridge (saved.getUrl (getRoute 1))) =
          some (.object sampleReply) ∧
        sampleLibrary.fromJson (pairBridge (saved.getUrl (getRoute 2))) =
          some (.object sampleReply)) &&
        returnsWith ([.write pairBridge [⟨255, 0, 0⟩, ⟨0, 0, 255⟩]].foldlM (step sampleLibrary)
          saved) fun t => decide (t.puts.length = 2)) = true := by
    decide +kernel
  obtain ⟨saved, save, checked⟩ := exists_of_returnsWith checked
  obtain ⟨facts, checked⟩ := Bool.and_eq_true_iff.mp checked
  obtain ⟨ids, lights, first, second⟩ := of_decide_eq_true facts
  obtain ⟨t, run, puts⟩ := exists_of_returnsWith checked
  have written : Reaches (step sampleLibrary) saved
      ([(pairBridge, [⟨255, 0, 0⟩, ⟨0, 0, 255⟩])].map fun write => .write write.1 write.2) t := run
  refine ⟨saved, t, save, run, lights, of_decide_eq_true puts, fun all => ?_⟩
  have restores := restores_reported_iff sampleLibrary_faithful save (fun lightId mem => by
    have reply : sampleLibrary.fromJson (pairBridge (saved.getUrl (getRoute lightId))) =
        some (.object sampleReply) := by
      rcases List.mem_pair.mp (ids ▸ mem) with rfl | rfl
      · exact first
      · exact second
    exact ⟨sampleReply, _, "LCT001", reply, rfl, ⟨true, rfl⟩, ⟨_, rfl⟩, ⟨_, rfl⟩, rfl⟩) written
  exact absurd (restores.mp all) (by decide)

/-- The lamp is sent an empty object, and has the triangle of the third set. -/
theorem restores_empty_object : ∃ saved,
    sampleDevice.saveStates sampleLibrary sampleBridge (unsigned sampleDevice.ledCount) =
      .ok saved ∧
    saved.restoreStates.puts = [⟨1, .original emptyObject⟩] ∧
    saved.lights.map PhilipsHueLight.colorSpace = [Gamut.c.triangle] ∧
    Gamut.ofModel "LCT001".toList = Gamut.b.triangle ∧
    Gamut.b.triangle ≠ Gamut.c.triangle := by
  have checked : returnsWith
      (sampleDevice.saveStates sampleLibrary sampleBridge (unsigned sampleDevice.ledCount))
      (fun saved => saved.restoreStates.puts = [⟨1, .original emptyObject⟩] ∧
        saved.lights.map PhilipsHueLight.colorSpace = [Gamut.c.triangle] ∧
        Gamut.ofModel "LCT001".toList = Gamut.b.triangle ∧
        Gamut.b.triangle ≠ Gamut.c.triangle) = true := by
    decide +kernel
  obtain ⟨saved, save, facts⟩ := exists_of_returnsWith checked
  exact ⟨saved, save, of_decide_eq_true facts⟩

end LedDevicePhilipsHue

end HyperionNg
