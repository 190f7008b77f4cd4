import HyperionNg.ProviderRs232

/-! When a new frame reaches the serial port. The frame before should be
written whole or have timed out; the flag `_blockedForDelay` stands for that,
and is cleared by counts and timers of earlier frames as well. -/

namespace HyperionNg.ProviderRs232

open Library.Execution

def Released (s : Session) : Prop :=
  ∀ frame, s.last = some frame → frame.left = 0 ∨ frame.deadline ≤ s.now

/-- No call can hand a frame to the port before the last one is released. -/
def SafeHandOver (s : Session) : Prop :=
  ∀ data answers accepted t, step s (.writeBytes data answers accepted) = .ok t →
    t.framesHanded ≠ s.framesHanded → Released s

/-- The step leaves no frame unreleased behind a cleared flag: a report clears
it with the last byte of the last frame or after its time, a timer that expires
and an opening without a delay find the last frame released. -/
def Meets (s : Session) : Event → Prop
  | .bytesWritten bytes => s.device.blockedForDelay = true →
      s.device.bytesWritten + bytes < s.device.bytesToWrite ∨ ∀ frame, s.last = some frame →
        (frame.report (s.device.rs232Port.queued - bytes)).left = 0 ∨ frame.deadline ≤ s.now
  | .timeout _ => s.device.blockedForDelay = true → s.device.rs232Port.isOpen = true → Released s
  | .open answers => s.device.blockedForDelay = false → s.device.delayAfterConnect_ms ≤ 0 →
      (s.tryOpen s.device.delayAfterConnect_ms answers).2 = true → Released s
  | _ => True

def Accepts (s : Session) : Prop :=
  s.device.blockedForDelay = false ∧ s.device.rs232Port.isOpen = true

private theorem namePort_same (device : ProviderRs232) (answers : Answers) :
    (Session.namePort device answers).1.blockedForDelay = device.blockedForDelay ∧
      (Session.namePort device answers).1.rs232Port.isOpen = device.rs232Port.isOpen := by
  simp only [Session.namePort]
  split_ifs <;> exact ⟨rfl, rfl⟩

theorem openPort_same (device : ProviderRs232) (now : Int) (answers : Answers) :
    (Session.openPort device now answers).1.blockedForDelay = device.blockedForDelay ∧
      (Session.openPort device now answers).1.rs232Port.isOpen =
        (device.rs232Port.isOpen || (Session.openPort device now answers).2) := by
  simp only [Session.openPort]
  cases held : device.rs232Port.isOpen with
  | true => exact ⟨rfl, held⟩
  | false =>
    rw [if_neg nofun]
    split_ifs
    · exact ⟨rfl, held⟩
    · exact ⟨rfl, rfl⟩
    · exact ⟨rfl, held⟩
    · exact ⟨rfl, held⟩

structure Opened (s : Session) (delay : Int) (t : Session) (success : Bool) : Prop where
  now : t.now = s.now
  last : t.last = s.last
  framesHanded : t.framesHanded = s.framesHanded
  isOpen : success = true → t.device.rs232Port.isOpen = true
  same : success = false → t.device.blockedForDelay = s.device.blockedForDelay ∧
    t.device.rs232Port.isOpen = s.device.rs232Port.isOpen
  blocked : success = true → 0 < delay → t.device.blockedForDelay = true
  unblocked : success = true → delay ≤ 0 → t.device.blockedForDelay = s.device.blockedForDelay

theorem tryOpen_opened (s : Session) (delay : Int) (answers : Answers) :
    Opened s delay (s.tryOpen delay answers).1 (s.tryOpen delay answers).2 := by
  have named := namePort_same s.device answers
  unfold Session.tryOpen
  cases hname : Session.namePort s.device answers with
  | mk device found =>
  rw [hname] at named
  cases found with
  | false => exact ⟨rfl, rfl, rfl, nofun, fun _ => named, nofun, nofun⟩
  | true =>
    have tried := openPort_same device s.now answers
    simp only
    cases hopen : Session.openPort device s.now answers with
    | mk opened success =>
    rw [hopen] at tried
    obtain ⟨flag, isOpen⟩ := tried
    have kept := flag.trans named.1
    cases success with
    | false =>
      rw [Bool.or_false] at isOpen
      exact ⟨rfl, rfl, rfl, nofun, fun _ => ⟨kept, isOpen.trans named.2⟩, nofun, nofun⟩
    | true =>
      rw [Bool.or_true] at isOpen
      simp only
      split_ifs with positive
      · exact ⟨rfl, rfl, rfl, fun _ => isOpen, nofun, fun _ _ => rfl,
          fun _ none => absurd none (not_le.mpr positive)⟩
      · exact ⟨rfl, rfl, rfl, fun _ => isOpen, nofun, fun _ some => absurd some positive,
          fun _ _ => kept⟩

theorem writeBytes_framesHanded (s : Session) (data : List UInt8) (answers : Answers)
    (accepted : Option Nat) :
    (s.writeBytes data answers accepted).1.framesHanded ≠ s.framesHanded ↔ Accepts s := by
  unfold Session.writeBytes Accepts
  cases flag : s.device.blockedForDelay with
  | true => simp
  | false =>
    cases held : s.device.rs232Port.isOpen with
    | true => simp [Session.handOver, Session.singleShot]
    | false =>
      have opened := (tryOpen_opened s 5000 answers).framesHanded
      simp only [Bool.false_eq_true, if_false, and_false, iff_false, not_not]
      exact opened

theorem safeHandOver_iff (s : Session) : SafeHandOver s ↔ (Accepts s → Released s) := by
  constructor
  · intro safe accepts
    have possible : Possible s (.writeBytes [] ⟨"", false, false⟩ none) :=
      fun _ accepted => absurd accepted (Option.some_ne_none _).symm
    refine safe [] ⟨"", false, false⟩ none _ (if_pos possible) ?_
    exact (writeBytes_framesHanded s [] _ none).mpr accepts
  · intro guarded data answers accepted t stepped handed
    unfold step at stepped
    split_ifs at stepped
    obtain rfl := Except.ok.inj stepped
    exact guarded ((writeBytes_framesHanded s data answers accepted).mp handed)

theorem Released.passes {s : Session} (released : Released s) (ms : Nat) :
    Released { s with now := s.now + ms } := by
  intro frame last
  rcases released frame last with written | late
  · exact Or.inl written
  · exact Or.inr (by simp only; omega)

theorem Released.report {s : Session} (released : Released s) (bytes : Nat) :
    Released (s.bytesWritten bytes) := by
  intro frame last
  obtain ⟨before, held, rfl⟩ := Option.map_eq_some_iff.mp last
  rcases released before held with written | late
  · exact Or.inl (by simp only [Frame.report, written, Nat.zero_sub])
  · exact Or.inr late

theorem bytesWritten_accepts {s : Session} (held : s.device.rs232Port.isOpen = true)
    (bytes : Nat) : Accepts (s.bytesWritten bytes) ↔
      (s.device.blockedForDelay = true →
        ¬ s.device.bytesWritten + bytes < s.device.bytesToWrite) := by
  unfold Session.bytesWritten Accepts
  simp only
  split_ifs with enough
  · exact iff_of_true ⟨rfl, held⟩ fun _ => not_lt.mpr enough
  · cases flag : s.device.blockedForDelay with
    | true =>
      exact iff_of_false (fun accepts => absurd accepts.1 nofun) fun all =>
        all rfl (not_le.mp enough)
    | false => exact iff_of_true ⟨rfl, held⟩ nofun

theorem bytesWritten_released (s : Session) (bytes : Nat) : Released (s.bytesWritten bytes) ↔
    ∀ frame, s.last = some frame →
      (frame.report (s.device.rs232Port.queued - bytes)).left = 0 ∨ frame.deadline ≤ s.now := by
  constructor
  · exact fun released frame last =>
      released _ (Option.map_eq_some_iff.mpr ⟨frame, last, rfl⟩)
  · intro all frame last
    obtain ⟨before, held, rfl⟩ := Option.map_eq_some_iff.mp last
    exact all before held

theorem not_accepts_writeBytes (s : Session) (data : List UInt8) (answers : Answers)
    (accepted : Option Nat) : ¬ Accepts (s.writeBytes data answers accepted).1 := by
  unfold Session.writeBytes
  rintro ⟨flag, held⟩
  cases blocked : s.device.blockedForDelay with
  | true =>
    rw [blocked, if_pos rfl] at flag
    exact absurd (blocked.symm.trans flag) nofun
  | false =>
    rw [blocked, if_neg nofun] at flag held
    cases isOpen : s.device.rs232Port.isOpen with
    | true =>
      rw [isOpen, if_pos rfl] at flag
      exact absurd flag nofun
    | false =>
      rw [isOpen, if_neg nofun] at flag held
      have opened := tryOpen_opened s 5000 answers
      cases success : (s.tryOpen 5000 answers).2 with
      | true => exact absurd ((opened.blocked success (by decide)).symm.trans flag) nofun
      | false => exact absurd (isOpen.symm.trans ((opened.same success).2.symm.trans held)) nofun

theorem error_accepts {s : Session} {e : SerialPortError} (accepts : Accepts (s.error e)) :
    s.error e = s := by
  unfold Session.error at accepts ⊢
  split_ifs at accepts ⊢ with fresh
  · obtain ⟨_, held⟩ := accepts
    unfold Session.closeDevice at held
    split_ifs at held with closed
    exact absurd held closed
  · rfl

theorem step_guarded_iff {s t : Session} {event : Event} (guarded : Accepts s → Released s)
    (stepped : step s event = .ok t) : (Accepts t → Released t) ↔ Meets s event := by
  unfold step at stepped
  split_ifs at stepped with possible
  obtain rfl := Except.ok.inj stepped
  cases event with
  | writeBytes data answers accepted =>
    exact iff_of_true
      (fun accepts => absurd accepts (not_accepts_writeBytes s data answers accepted)) trivial
  | bytesWritten bytes =>
    obtain ⟨held, _⟩ := possible
    change (Accepts (s.bytesWritten bytes) → Released (s.bytesWritten bytes)) ↔ _
    rw [bytesWritten_accepts held, Meets, ← bytesWritten_released]
    cases flag : s.device.blockedForDelay with
    | true =>
      rw [imp_iff_right rfl, imp_iff_right rfl, or_iff_not_imp_left]
    | false => exact iff_of_true (fun _ => (guarded ⟨flag, held⟩).report bytes) nofun
  | timeout i =>
    have accepts : Accepts (after s (.timeout i)) ↔ s.device.rs232Port.isOpen = true :=
      and_iff_right rfl
    rw [accepts]
    constructor
    · exact fun released _ => released
    · intro released held
      cases flag : s.device.blockedForDelay with
      | true => exact released flag held
      | false => exact guarded ⟨flag, held⟩
  | passes ms => exact iff_of_true (fun accepts => (guarded accepts).passes ms) trivial
  | «open» answers =>
    have opened := tryOpen_opened s s.device.delayAfterConnect_ms answers
    have released : Released (after s (.open answers)) ↔ Released s := by
      change Released (s.tryOpen s.device.delayAfterConnect_ms answers).1 ↔ _
      rw [Released, opened.last, opened.now, Released]
    rw [released, Meets]
    cases success : (s.tryOpen s.device.delayAfterConnect_ms answers).2 with
    | false =>
      obtain ⟨flag, held⟩ := opened.same success
      exact iff_of_true (fun accepts => guarded ⟨flag ▸ accepts.1, held ▸ accepts.2⟩) nofun
    | true =>
      rcases lt_or_ge 0 s.device.delayAfterConnect_ms with positive | none
      · have flag := opened.blocked success positive
        exact iff_of_true (fun accepts => absurd (flag.symm.trans accepts.1) nofun)
          fun _ none => absurd positive (not_lt.mpr none)
      · have flag := opened.unblocked success none
        constructor
        · exact fun released unblocked _ _ => released ⟨flag.trans unblocked, opened.isOpen success⟩
        · exact fun met accepts => met (flag.symm.trans accepts.1) none rfl
  | error e =>
    refine iff_of_true (fun accepts => ?_) trivial
    have same := error_accepts accepts
    change Released (s.error e)
    rw [same]
    exact guarded (same ▸ accepts)

/-- The session of a driver that has been initialised at `now`. -/
def Session.start (deviceConfig : QJsonObject) (now : Int) : Session where
  device := init deviceConfig
  now

/-- No frame of a run is handed over too early exactly when every step of it
meets the condition. -/
theorem safeHandOver_throughout_iff (deviceConfig : QJsonObject) (now : Int)
    (events : List Event) :
    Throughout step SafeHandOver (Session.start deviceConfig now) events ↔
      Along step (fun s event => ∀ t, step s event = .ok t → Meets s event)
        (Session.start deviceConfig now) events := by
  refine throughout_iff_along (I := fun _ => True) (fun _ _ _ _ _ => trivial) ?_ trivial ?_
  · intro s event t _ safe stepped
    rw [safeHandOver_iff] at safe ⊢
    exact step_guarded_iff safe stepped
  · rw [safeHandOver_iff]
    exact fun accepts => absurd accepts.2 nofun

/-- The second frame is handed over, one of its two bytes is reported, and with
the two of the first frame that is enough to clear the flag. -/
theorem third_frame_too_early : ∃ s, Reaches step
    (Session.start [("output", .string "/dev/ttyUSB0")] 0)
    [.open ⟨"", true, true⟩, .passes 1500, .timeout 0, .writeBytes [1, 2] ⟨"", true, true⟩ (some 2),
      .bytesWritten 2, .writeBytes [3, 4] ⟨"", true, true⟩ (some 2), .bytesWritten 1] s ∧
    s.last = some ⟨1, 1, 6500⟩ ∧ s.now = 1500 ∧ ¬ SafeHandOver s := by
  have checked : evaluates step
      (.ok (Session.start [("output", .string "/dev/ttyUSB0")] 0))
      [.open ⟨"", true, true⟩, .passes 1500, .timeout 0,
        .writeBytes [1, 2] ⟨"", true, true⟩ (some 2), .bytesWritten 2,
        .writeBytes [3, 4] ⟨"", true, true⟩ (some 2), .bytesWritten 1]
      (fun s => decide (s.last = some ⟨1, 1, 6500⟩ ∧ s.now = 1500 ∧
        s.device.blockedForDelay = false ∧ s.device.rs232Port.isOpen = true)) = true := by
    decide +kernel
  obtain ⟨_, s, started, run, found⟩ := exists_of_evaluates checked
  obtain rfl := Except.ok.inj started
  obtain ⟨last, now, flag, held⟩ := of_decide_eq_true found
  refine ⟨s, run, last, now, fun safe => ?_⟩
  rcases (safeHandOver_iff s).mp safe ⟨flag, held⟩ _ last with written | late
  · exact absurd written (by decide)
  · rw [now] at late
    exact absurd late (by decide)

end HyperionNg.ProviderRs232
