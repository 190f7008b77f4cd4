import HyperionNg.BlackBorderProcessor

/-! When the current border changes. From every reachable state a border that
keeps coming is taken over after the inconsistent frames and its switch count
at the latest, and exactly once; noise shorter than the inconsistency limit
never changes anything. -/

namespace HyperionNg

open Library Execution

inductive ProcessorEvent (α : Type)
  | process (image : Image α)
  | setEnabled (enable : Bool)

namespace BlackBorderProcessor

variable {α : Type} [Pixel α]

def step (p : BlackBorderProcessor) : ProcessorEvent α → Except ImageFault BlackBorderProcessor
  | .process image => (p.process image).map Prod.snd
  | .setEnabled enable => .ok (p.setEnabled enable)

/-- `updateBorder` for one border after the other, with what each call returns. -/
def feed (p : BlackBorderProcessor) : List BlackBorder → List Bool × BlackBorderProcessor
  | [] => ([], p)
  | b :: rest =>
    let (updated, next) := p.updateBorder b
    let (results, last) := next.feed rest
    (updated :: results, last)

@[simp] theorem feed_nil (p : BlackBorderProcessor) : p.feed [] = ([], p) := rfl

@[simp] theorem feed_cons (p : BlackBorderProcessor) (b : BlackBorder) (rest : List BlackBorder) :
    p.feed (b :: rest) = ((p.updateBorder b).1 :: ((p.updateBorder b).2.feed rest).1,
      ((p.updateBorder b).2.feed rest).2) := rfl

def Immediate (p : BlackBorderProcessor) (b : BlackBorder) : Prop :=
  b.unknown = false ∧ p.currentBorder.unknown = true

instance (p : BlackBorderProcessor) (b : BlackBorder) : Decidable (p.Immediate b) :=
  inferInstanceAs (Decidable (_ ∧ _))

def Pending (p : BlackBorderProcessor) : Prop :=
  (p.previousDetectedBorder == p.currentBorder) = true ∨ p.Immediate p.previousDetectedBorder ∨
    p.consistentCnt < p.switchCnt p.previousDetectedBorder

/-- The frames with border `b` up to the one that makes it the current border. -/
def framesUntil (p : BlackBorderProcessor) (b : BlackBorder) : Nat :=
  let proof := if p.Immediate b then 0 else p.switchCnt b
  if b == p.previousDetectedBorder then
    if p.Immediate b then 1 else p.switchCnt b - p.consistentCnt
  else p.maxInconsistentCnt - p.inconsistentCnt + 1 + proof

theorem switchCnt_congr (p : BlackBorderProcessor) {a b : BlackBorder} (same : (a == b) = true) :
    p.switchCnt a = p.switchCnt b := by
  rw [switchCnt, switchCnt, BlackBorder.unknown_of_beq same]

theorem immediate_congr (p : BlackBorderProcessor) {a b : BlackBorder} (same : (a == b) = true) :
    p.Immediate a ↔ p.Immediate b := by
  rw [Immediate, Immediate, BlackBorder.unknown_of_beq same]

theorem differs_congr (p : BlackBorderProcessor) {a b : BlackBorder} (same : (a == b) = true)
    (differs : (p.currentBorder == b) = false) : (a == p.currentBorder) = false := by
  by_contra equal
  have equal : (a == p.currentBorder) = true := by simpa using equal
  rw [BEq.trans (BEq.symm equal) same] at differs
  exact absurd differs (by decide)

private theorem updateBorder_maxInconsistentCnt (p : BlackBorderProcessor) (b : BlackBorder) :
    (p.updateBorder b).2.maxInconsistentCnt = p.maxInconsistentCnt := by
  obtain ⟨_, _, _, _, frame⟩ := updateBorder_frame p b
  rw [frame]

theorem Pending.below {p : BlackBorderProcessor} {b : BlackBorder} (pending : p.Pending)
    (again : (b == p.previousDetectedBorder) = true) (differs : (p.currentBorder == b) = false)
    (late : ¬ p.Immediate b) : p.consistentCnt < p.switchCnt b := by
  cases pending with
  | inl equal =>
    have other := differs_congr p (BEq.symm again) differs
    rw [equal] at other
    exact absurd other (by decide)
  | inr pending =>
    cases pending with
    | inl immediate => exact absurd ((immediate_congr p again).mpr immediate) late
    | inr below => rwa [switchCnt_congr p again]

theorem Pending.updateBorder {p : BlackBorderProcessor} (pending : p.Pending) (b : BlackBorder) :
    (p.updateBorder b).2.Pending := by
  have considered := consider_previous p b
  by_cases passes : p.Considers b
  · cases same : p.currentBorder == b with
    | true =>
      rw [updateBorder_keeps passes same]
      have current : ((p.consider b).currentBorder == b) = true := by simpa using same
      exact Or.inl (BEq.trans considered (BEq.symm current))
    | false =>
      by_cases reached : p.Reached b (p.consistentAfter b)
      · rw [updateBorder_switches ⟨passes, same, reached⟩]
        exact Or.inl considered
      · rw [updateBorder_waits passes same reached]
        obtain ⟨late, count⟩ := not_or.mp reached
        right
        right
        rw [switchCnt_congr _ considered, consider_switchCnt, consider_consistentCnt]
        unfold consistentAfter at count ⊢
        by_cases again : (b == p.previousDetectedBorder) = true
        · simp only [again, ↓reduceIte] at count ⊢
          have below := pending.below again same late
          omega
        · simp only [again, Bool.false_eq_true, ↓reduceIte] at count ⊢
          omega
  · rw [updateBorder_ignores passes]
    exact pending

theorem Pending.disabled {p : BlackBorderProcessor} :
    Pending { p with currentBorder := ⟨true, 0, 0⟩ } := by
  cases unknown : p.previousDetectedBorder.unknown with
  | true => exact Or.inl (BlackBorder.beq_iff.mpr ⟨unknown, fun known => by simp_all⟩)
  | false => exact Or.inr (Or.inl ⟨unknown, rfl⟩)

theorem Pending.step {p q : BlackBorderProcessor} (pending : p.Pending) (e : ProcessorEvent α)
    (ok : p.step e = .ok q) : q.Pending := by
  cases e with
  | setEnabled enable =>
    rw [← Except.ok.inj ok]
    exact pending
  | process image =>
    obtain ⟨⟨updated, next⟩, processed, rfl⟩ := map_eq_ok.mp ok
    unfold BlackBorderProcessor.process at processed
    by_cases enabled : p.enabled = true
    · rw [if_pos enabled] at processed
      obtain ⟨b, _, result⟩ := map_eq_ok.mp processed
      have next_eq : (p.updateBorder b).2 = next := congrArg Prod.snd result
      rw [← next_eq]
      exact pending.updateBorder b
    · rw [if_neg enabled] at processed
      have next_eq := congrArg Prod.snd (Except.ok.inj processed)
      change { p with currentBorder := _ } = next at next_eq
      rw [← next_eq]
      exact Pending.disabled

theorem Pending.create (config : BlackBorderConfig) : (create config).Pending := Or.inl rfl

structure Configured (config : BlackBorderConfig) (p : BlackBorderProcessor) : Prop where
  unknownSwitchCnt : p.unknownSwitchCnt = config.unknownFrameCnt
  borderSwitchCnt : p.borderSwitchCnt = config.borderFrameCnt
  maxInconsistentCnt : p.maxInconsistentCnt = config.maxInconsistentCnt
  blurRemoveCnt : p.blurRemoveCnt = config.blurRemoveCnt
  detectionMode : p.detectionMode = config.mode
  detector : p.detector = .create config.threshold

theorem Configured.create (config : BlackBorderConfig) : Configured config (create config) :=
  ⟨rfl, rfl, rfl, rfl, rfl, rfl⟩

theorem Configured.updateBorder {config : BlackBorderConfig} {p : BlackBorderProcessor}
    (configured : Configured config p) (b : BlackBorder) :
    Configured config (p.updateBorder b).2 := by
  obtain ⟨_, _, _, _, frame⟩ := updateBorder_frame p b
  rw [frame]
  exact ⟨configured.1, configured.2, configured.3, configured.4, configured.5, configured.6⟩

theorem Configured.process {config : BlackBorderConfig} {p q : BlackBorderProcessor}
    {image : Image α} {updated : Bool} (configured : Configured config p)
    (ok : p.process image = .ok (updated, q)) : Configured config q := by
  unfold BlackBorderProcessor.process at ok
  by_cases enabled : p.enabled = true
  · rw [if_pos enabled] at ok
    obtain ⟨b, _, result⟩ := map_eq_ok.mp ok
    have next : (p.updateBorder b).2 = q := congrArg Prod.snd result
    rw [← next]
    exact configured.updateBorder b
  · rw [if_neg enabled] at ok
    have next := congrArg Prod.snd (Except.ok.inj ok)
    change { p with currentBorder := _ } = q at next
    rw [← next]
    exact ⟨configured.1, configured.2, configured.3, configured.4, configured.5, configured.6⟩

theorem Configured.step {config : BlackBorderConfig} {p q : BlackBorderProcessor}
    (configured : Configured config p) (e : ProcessorEvent α) (ok : p.step e = .ok q) :
    Configured config q := by
  cases e with
  | setEnabled enable =>
    rw [← Except.ok.inj ok]
    exact ⟨configured.1, configured.2, configured.3, configured.4, configured.5, configured.6⟩
  | process image =>
    obtain ⟨⟨updated, next⟩, processed, rfl⟩ := map_eq_ok.mp ok
    exact configured.process processed

private theorem reaches_pending {config : BlackBorderConfig} {events : List (ProcessorEvent α)}
    {p : BlackBorderProcessor} (run : Reaches step (create config) events p) : p.Pending :=
  run.invariant (fun _ e _ pending ok => pending.step e ok) (Pending.create config)

private theorem reaches_configured {config : BlackBorderConfig} {events : List (ProcessorEvent α)}
    {p : BlackBorderProcessor} (run : Reaches step (create config) events p) :
    Configured config p :=
  run.invariant (fun _ e _ configured ok => configured.step e ok) (Configured.create config)

theorem framesUntil_step {p : BlackBorderProcessor} {b : BlackBorder} (pending : p.Pending)
    (differs : (p.currentBorder == b) = false) :
    (p.SwitchDue b ∧ p.framesUntil b = 1) ∨
      (¬ p.SwitchDue b ∧ (p.updateBorder b).2.framesUntil b + 1 = p.framesUntil b) := by
  by_cases passes : p.Considers b
  · by_cases reached : p.Reached b (p.consistentAfter b)
    · left
      refine ⟨⟨passes, differs, reached⟩, ?_⟩
      unfold framesUntil
      unfold consistentAfter at reached
      by_cases now : p.Immediate b
      · by_cases again : (b == p.previousDetectedBorder) = true
        · simp [again, now]
        · have used := passes.resolve_left again
          simp only [again, now, Bool.false_eq_true, ↓reduceIte]
          omega
      · have count := reached.resolve_left now
        by_cases again : (b == p.previousDetectedBorder) = true
        · simp only [again, now, ↓reduceIte] at count ⊢
          omega
        · have used := passes.resolve_left again
          simp only [again, now, Bool.false_eq_true, ↓reduceIte] at count ⊢
          omega
    · right
      refine ⟨fun due => reached due.2.2, ?_⟩
      rw [updateBorder_waits passes differs reached]
      obtain ⟨late, count⟩ := not_or.mp reached
      have waits : ¬ (p.consider b).Immediate b := by simpa [Immediate] using late
      have adopted : (b == (p.consider b).previousDetectedBorder) = true :=
        BEq.symm (consider_previous p b)
      have notNow : ¬ p.Immediate b := late
      unfold framesUntil
      simp only [adopted, waits, notNow, ↓reduceIte, consider_switchCnt, consider_consistentCnt]
      unfold consistentAfter at count ⊢
      by_cases again : (b == p.previousDetectedBorder) = true
      · simp only [again, ↓reduceIte] at count ⊢
        have below := pending.below again differs late
        omega
      · have used := passes.resolve_left again
        simp only [again, Bool.false_eq_true, ↓reduceIte] at count ⊢
        omega
  · right
    refine ⟨fun due => passes due.1, ?_⟩
    rw [updateBorder_ignores passes]
    obtain ⟨other, few⟩ := not_or.mp passes
    have same : Immediate { p with inconsistentCnt := p.inconsistentCnt + 1 } b ↔ p.Immediate b :=
      Iff.rfl
    unfold framesUntil
    simp only [other, Bool.false_eq_true, ↓reduceIte, same]
    change p.maxInconsistentCnt - (p.inconsistentCnt + 1) + 1 +
      (if p.Immediate b then 0 else p.switchCnt b) + 1 = _
    omega

private theorem framesUntil_le (p : BlackBorderProcessor) (b : BlackBorder) :
    p.framesUntil b ≤ p.maxInconsistentCnt + 1 + p.switchCnt b := by
  unfold framesUntil
  dsimp only
  split_ifs <;> omega

private theorem not_due_of_current {p : BlackBorderProcessor} {b : BlackBorder}
    (current : (p.currentBorder == b) = true) : ¬ p.SwitchDue b := by
  intro due
  rw [due.2.1] at current
  exact absurd current (by decide)

theorem feed_current {p : BlackBorderProcessor} {b : BlackBorder} (n : Nat)
    (current : (p.currentBorder == b) = true) :
    ((p.feed (List.replicate n b)).2.currentBorder == b) = true ∧
      (p.feed (List.replicate n b)).1.count true = 0 := by
  induction n generalizing p with
  | zero => exact ⟨current, rfl⟩
  | succ n ih =>
    obtain ⟨returned, stays⟩ := updateBorder_of_not_due (not_due_of_current current)
    have rest := ih (p := (p.updateBorder b).2) (by rw [stays]; exact current)
    simpa [List.replicate_succ, returned] using rest

theorem feed_switches {p : BlackBorderProcessor} {b : BlackBorder} {n : Nat} (pending : p.Pending)
    (differs : (p.currentBorder == b) = false) (enough : p.framesUntil b ≤ n) :
    ((p.feed (List.replicate n b)).2.currentBorder == b) = true ∧
      (p.feed (List.replicate n b)).1.count true = 1 := by
  induction n generalizing p with
  | zero =>
    cases framesUntil_step pending differs with
    | inl switch => omega
    | inr wait => omega
  | succ n ih =>
    cases framesUntil_step pending differs with
    | inl switch =>
      have updated := updateBorder_switches switch.1
      have current : ((p.updateBorder b).2.currentBorder == b) = true := by
        rw [updated]
        exact BEq.rfl
      have rest := feed_current n current
      simpa [List.replicate_succ, updateBorder_returns_iff.mpr switch.1] using rest
    | inr wait =>
      obtain ⟨returned, stays⟩ := updateBorder_of_not_due wait.1
      have rest := ih (pending.updateBorder b) (by rw [stays]; exact differs) (by omega)
      simpa [List.replicate_succ, returned] using rest

/-- From every reachable state a border that is detected long enough ends as
the current one, and is reported as new exactly once if it was not yet. -/
theorem steady_border_switches_once (config : BlackBorderConfig)
    (events : List (ProcessorEvent α)) (p : BlackBorderProcessor)
    (run : Reaches step (create config) events p) (b : BlackBorder) :
    let frames := config.maxInconsistentCnt + 1 +
      if b.unknown then config.unknownFrameCnt else config.borderFrameCnt
    ((p.feed (List.replicate frames b)).2.currentBorder == b) = true ∧
      ((p.currentBorder == b) = false → (p.feed (List.replicate frames b)).1.count true = 1) := by
  have configured := reaches_configured run
  have enough : p.framesUntil b ≤ config.maxInconsistentCnt + 1 +
      if b.unknown then config.unknownFrameCnt else config.borderFrameCnt := by
    have bound := framesUntil_le p b
    rwa [switchCnt, configured.unknownSwitchCnt, configured.borderSwitchCnt,
      configured.maxInconsistentCnt] at bound
  cases current : p.currentBorder == b with
  | true => exact ⟨(feed_current _ current).1, fun differs => by cases differs⟩
  | false =>
    have switched := feed_switches (reaches_pending run) current enough
    exact ⟨switched.1, fun _ => switched.2⟩

theorem steady_border_switches_once_at_start :
    (create {}).feed (List.replicate 61 ⟨false, 5, 4⟩) |>.1.count true = 1 :=
  (steady_border_switches_once (α := ColorRgb) {} [] (create {}) (reaches_nil.mpr rfl)
    ⟨false, 5, 4⟩).2 rfl

structure Steady (p : BlackBorderProcessor) (b : BlackBorder) (noise : Nat) : Prop where
  current : (p.currentBorder == b) = true
  previous : (p.previousDetectedBorder == b) = true
  inconsistent : p.inconsistentCnt = noise

theorem Steady.again {p : BlackBorderProcessor} {b n : BlackBorder} {noise : Nat}
    (steady : p.Steady b noise) (same : (n == b) = true) :
    (p.updateBorder n).1 = false ∧ (p.updateBorder n).2.Steady b 0 := by
  have again : (n == p.previousDetectedBorder) = true := BEq.trans same (BEq.symm steady.previous)
  have current : (p.currentBorder == n) = true := BEq.trans steady.current (BEq.symm same)
  rw [updateBorder_keeps (Or.inl again) current]
  refine ⟨rfl, by simpa using steady.current, ?_, rfl⟩
  exact BEq.trans (consider_previous p n) same

theorem Steady.noise {p : BlackBorderProcessor} {b n : BlackBorder} {noise : Nat}
    (steady : p.Steady b noise) (differs : (n == b) = false)
    (few : noise + 1 ≤ p.maxInconsistentCnt) :
    (p.updateBorder n).1 = false ∧ (p.updateBorder n).2.Steady b (noise + 1) := by
  have ignored : ¬ p.Considers n := by
    have other : (n == p.previousDetectedBorder) = false := by
      by_contra same
      have same : (n == p.previousDetectedBorder) = true := by simpa using same
      rw [BEq.trans same steady.previous] at differs
      exact absurd differs (by decide)
    have count := steady.inconsistent
    simp only [Considers, other, Bool.false_eq_true, false_or]
    omega
  rw [updateBorder_ignores ignored]
  exact ⟨rfl, steady.current, steady.previous, congrArg (· + 1) steady.inconsistent⟩

theorem feed_steady {p : BlackBorderProcessor} {b : BlackBorder} {noise borders : List BlackBorder}
    (steady : p.Steady b noise.length) (foreign : ∀ n ∈ noise, (n == b) = false)
    (few : ∀ run, run <:+: noise ++ borders → (∀ n ∈ run, (n == b) = false) →
      run.length ≤ p.maxInconsistentCnt) :
    ((p.feed borders).2.currentBorder == b) = true ∧ true ∉ (p.feed borders).1 := by
  induction borders generalizing p noise with
  | nil => exact ⟨steady.current, by simp⟩
  | cons n rest ih =>
    have limit := updateBorder_maxInconsistentCnt p n
    cases same : n == b with
    | true =>
      obtain ⟨returned, next⟩ := steady.again same
      have restFew : ∀ run, run <:+: [] ++ rest → (∀ m ∈ run, (m == b) = false) →
          run.length ≤ (p.updateBorder n).2.maxInconsistentCnt := by
        intro run infix_rest foreign
        rw [limit]
        exact few run (infix_rest.trans ⟨noise ++ [n], [], by simp⟩) foreign
      have tail := ih next (by simp) restFew
      simpa [returned] using tail
    | false =>
      have longer : ∀ m ∈ noise ++ [n], (m == b) = false := by
        intro m hm
        cases List.mem_append.mp hm with
        | inl before => exact foreign m before
        | inr last => rwa [List.mem_singleton.mp last]
      have count := few (noise ++ [n]) ⟨[], rest, by simp⟩ longer
      obtain ⟨returned, next⟩ := steady.noise same (by simpa using count)
      have restFew : ∀ run, run <:+: (noise ++ [n]) ++ rest → (∀ m ∈ run, (m == b) = false) →
          run.length ≤ (p.updateBorder n).2.maxInconsistentCnt := by
        intro run infix_rest foreign
        rw [limit]
        exact few run (by simpa using infix_rest) foreign
      have tail := ih (by simpa using next) longer restFew
      simpa [returned] using tail

/-- Noise immunity: after a frame that confirmed the current border `b`, frames
with other borders change nothing while at most `maxInconsistentCnt` of them
come in a row. -/
theorem noise_is_ignored (config : BlackBorderConfig) (events : List (ProcessorEvent α))
    (p : BlackBorderProcessor) (run : Reaches step (create config) events p) (b : BlackBorder)
    (current : (b == p.currentBorder) = true) (previous : (b == p.previousDetectedBorder) = true)
    (borders : List BlackBorder)
    (few : ∀ noise, noise <:+: borders → (∀ n ∈ noise, (n == b) = false) →
      noise.length ≤ config.maxInconsistentCnt)
    (first : List BlackBorder) (sofar : first <+: borders) :
    (((p.updateBorder b).2.feed first).2.currentBorder == b) = true ∧
      true ∉ ((p.updateBorder b).2.feed first).1 := by
  have steady : p.Steady b p.inconsistentCnt := ⟨BEq.symm current, BEq.symm previous, rfl⟩
  have limit : (p.updateBorder b).2.maxInconsistentCnt = config.maxInconsistentCnt :=
    ((reaches_configured run).updateBorder b).maxInconsistentCnt
  have confirmed := (steady.again BEq.rfl).2
  have firstFew : ∀ run, run <:+: [] ++ first → (∀ n ∈ run, (n == b) = false) →
      run.length ≤ (p.updateBorder b).2.maxInconsistentCnt := by
    intro run infix_first foreign
    rw [limit]
    exact few run (infix_first.trans sofar.isInfix) foreign
  exact feed_steady
    (show (p.updateBorder b).2.Steady b ([] : List BlackBorder).length from confirmed)
    (by simp) firstFew

theorem noise_is_ignored_at_start :
    true ∉ (((create {}).updateBorder ⟨true, 0, 0⟩).2.feed (List.replicate 10 ⟨false, 5, 4⟩)).1 :=
  (noise_is_ignored (α := ColorRgb) {} [] (create {}) (reaches_nil.mpr rfl) ⟨true, 0, 0⟩ rfl rfl
    (List.replicate 10 ⟨false, 5, 4⟩)
    (fun _ noise_infix _ => noise_infix.length_le.trans (by decide)) _ List.prefix_rfl).2

/-- `b` is adopted on exactly the `n`-th of the frames that show it: this call
returns true and makes it the current border, and no earlier one does. -/
structure AdoptedAt (p : BlackBorderProcessor) (b : BlackBorder) (n : Nat) : Prop where
  updated : (p.feed (List.replicate n b)).1 = List.replicate (n - 1) false ++ [true]
  current : (p.feed (List.replicate n b)).2.currentBorder = b
  before : ∀ m < n, ((p.feed (List.replicate m b)).2.currentBorder == b) = false

theorem AdoptedAt.unique {p : BlackBorderProcessor} {b : BlackBorder} {m n : Nat}
    (first : p.AdoptedAt b m) (second : p.AdoptedAt b n) : m = n := by
  have earliest : ∀ {i j : Nat}, p.AdoptedAt b i → p.AdoptedAt b j → ¬ i < j := by
    intro i j adopted other less
    have differs := other.before i less
    rw [adopted.current, BEq.rfl] at differs
    exact nomatch differs
  exact le_antisymm (not_lt.mp (earliest second first)) (not_lt.mp (earliest first second))

theorem adoptedAt_framesUntil {p : BlackBorderProcessor} {b : BlackBorder} {n : Nat}
    (pending : p.Pending) (differs : (p.currentBorder == b) = false)
    (count : p.framesUntil b = n + 1) : p.AdoptedAt b (n + 1) := by
  induction n generalizing p with
  | zero =>
    obtain switch | wait := framesUntil_step pending differs
    · refine ⟨?_, ?_, fun m early => ?_⟩
      · simp [updateBorder_switches switch.1]
      · simp [updateBorder_switches switch.1]
      · obtain rfl : m = 0 := Nat.lt_one_iff.mp early
        exact differs
    · obtain ⟨-, stays⟩ := updateBorder_of_not_due wait.1
      obtain switch | further := framesUntil_step (pending.updateBorder b)
        (by rw [stays]; exact differs)
      · omega
      · omega
  | succ n ih =>
    obtain switch | wait := framesUntil_step pending differs
    · omega
    · obtain ⟨returned, stays⟩ := updateBorder_of_not_due wait.1
      have rest := ih (pending.updateBorder b) (by rw [stays]; exact differs) (by omega)
      refine ⟨?_, rest.current, fun m early => ?_⟩
      · have updated := rest.updated
        simp only [List.replicate_succ (n := n + 1), feed_cons, returned, updated,
          Nat.add_sub_cancel]
        rfl
      · cases m with
        | zero => exact differs
        | succ m => exact rest.before m (by omega)

theorem feed_unknown (config : BlackBorderConfig) {unknowns : List BlackBorder}
    (unknown : ∀ b ∈ unknowns, b.unknown = true) :
    let p := ((create config).feed unknowns).2
    p.Pending ∧ p.currentBorder.unknown = true ∧ p.previousDetectedBorder.unknown = true ∧
      p.maxInconsistentCnt = config.maxInconsistentCnt ∧
      p.inconsistentCnt = if unknowns = [] then 10 else 0 := by
  have all : ∀ (p : BlackBorderProcessor) (bs : List BlackBorder), p.Pending →
      p.currentBorder.unknown = true → p.previousDetectedBorder.unknown = true →
      (∀ b ∈ bs, b.unknown = true) →
      (p.feed bs).2.Pending ∧ (p.feed bs).2.currentBorder.unknown = true ∧
        (p.feed bs).2.previousDetectedBorder.unknown = true ∧
        (p.feed bs).2.maxInconsistentCnt = p.maxInconsistentCnt ∧
        (p.feed bs).2.inconsistentCnt = if bs = [] then p.inconsistentCnt else 0 := by
    intro p bs pending current previous allUnknown
    induction bs generalizing p with
    | nil => exact ⟨pending, current, previous, rfl, rfl⟩
    | cons b bs ih =>
      obtain ⟨head, others⟩ := List.forall_mem_cons.mp allUnknown
      have same : (p.currentBorder == b) = true :=
        BlackBorder.beq_iff.mpr ⟨current.trans head.symm, fun known => by simp [current] at known⟩
      have again : (b == p.previousDetectedBorder) = true :=
        BlackBorder.beq_iff.mpr ⟨head.trans previous.symm, fun known => by simp [head] at known⟩
      have kept := updateBorder_keeps (Or.inl again) same
      have next := pending.updateBorder b
      rw [kept] at next
      obtain ⟨pending', current', previous', limit, count⟩ := ih _ next (by simpa using current)
        (by simpa [consider, again] using previous) others
      rw [feed_cons, kept]
      refine ⟨pending', current', previous', limit.trans (by simp), ?_⟩
      simpa using count
  exact all _ unknowns (Pending.create config) rfl rfl unknown

/-- A known border that follows `k` unknown ones is adopted on its first frame
for `k = 0`, and else on the first frame beyond the inconsistent ones, exactly
if there were unknown ones or the limit is within the initial count of 10. -/
theorem adopted_after_unknown_iff (config : BlackBorderConfig) {unknowns : List BlackBorder}
    (unknown : ∀ b ∈ unknowns, b.unknown = true) {b : BlackBorder} (known : b.unknown = false) :
    AdoptedAt ((create config).feed unknowns).2 b
        (if unknowns = [] then 1 else config.maxInconsistentCnt + 1) ↔
      unknowns ≠ [] ∨ config.maxInconsistentCnt ≤ 10 := by
  obtain ⟨pending, current, previous, limit, count⟩ := feed_unknown config unknown
  generalize ((create config).feed unknowns).2 = p at pending current previous limit count ⊢
  have differs : ∀ c : BlackBorder, c.unknown = true → (c == b) = false := by
    intro c unknown
    by_contra same
    have kind := BlackBorder.unknown_of_beq (Bool.not_eq_false _ |>.mp same)
    rw [unknown, known] at kind
    exact nomatch kind
  have other : (b == p.previousDetectedBorder) = false := by
    rw [BEq.comm]
    exact differs _ previous
  have frames : p.framesUntil b = config.maxInconsistentCnt - p.inconsistentCnt + 1 := by
    have now : p.Immediate b := ⟨known, current⟩
    simp only [framesUntil, other, Bool.false_eq_true, ↓reduceIte, now, limit]
  have adopted := adoptedAt_framesUntil pending (differs _ current) frames
  by_cases start : unknowns = []
  · rw [if_pos start] at count ⊢
    rw [count] at adopted
    constructor
    · intro first
      have same := first.unique adopted
      exact Or.inr (by omega)
    · intro condition
      have small := condition.resolve_left (not_not.mpr start)
      rwa [Nat.sub_eq_zero_of_le small] at adopted
  · rw [if_neg start] at count ⊢
    rw [count, Nat.sub_zero] at adopted
    exact iff_of_true adopted (Or.inl start)

theorem adopted_after_unknown_iff_three :
    AdoptedAt ((create { maxInconsistentCnt := 20 }).feed (List.replicate 3 ⟨true, -1, -1⟩)).2
        ⟨false, 5, 4⟩ 21 ↔
      List.replicate 3 (⟨true, -1, -1⟩ : BlackBorder) ≠ [] ∨ 20 ≤ 10 :=
  adopted_after_unknown_iff { maxInconsistentCnt := 20 }
    (show ∀ f ∈ List.replicate 3 (⟨true, -1, -1⟩ : BlackBorder), f.unknown = true by decide)
    (show (⟨false, 5, 4⟩ : BlackBorder).unknown = false from rfl)

/-- With a limit of 20 the very first border waits for 11 frames. -/
theorem not_adopted_at_start :
    ¬ AdoptedAt ((create { maxInconsistentCnt := 20 }).feed []).2 ⟨false, 5, 4⟩ 1 := fun adopted =>
  absurd adopted.updated (by decide)

end BlackBorderProcessor

end HyperionNg
