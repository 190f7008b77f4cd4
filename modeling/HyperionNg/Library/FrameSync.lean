import Mathlib.Tactic

/-! A receiver of a stream of frames. Where it is in step with a display that is
given the frames themselves it stays so. Elsewhere it is inside a frame it
believes in, and is ready again after a bounded number of symbols; frames that
hold nothing like a start of a frame let it find the next one. -/

namespace HyperionNg.Library.FrameSync

variable {α σ τ ω φ : Type}

def run (step : σ → α → σ × List ω) : σ → List α → σ × List ω
  | s, [] => (s, [])
  | s, a :: rest =>
    let (t, out) := step s a
    let (u, later) := run step t rest
    (u, out ++ later)

variable {step : σ → α → σ × List ω}

@[simp] theorem run_nil (s : σ) : run step s [] = (s, []) := rfl

theorem run_cons (s : σ) (a : α) (rest : List α) :
    run step s (a :: rest) =
      ((run step (step s a).1 rest).1, (step s a).2 ++ (run step (step s a).1 rest).2) := rfl

theorem run_append (s : σ) (first second : List α) :
    run step s (first ++ second) =
      ((run step (run step s first).1 second).1,
        (run step s first).2 ++ (run step (run step s first).1 second).2) := by
  induction first generalizing s with
  | nil => rfl
  | cons a rest ih => simp [run_cons, ih]

theorem run_invariant {valid : σ → Prop} (kept : ∀ s a, valid s → valid (step s a).1)
    {s : σ} (initial : valid s) (stream : List α) : valid (run step s stream).1 := by
  induction stream generalizing s with
  | nil => exact initial
  | cons a rest ih => exact ih (kept s a initial)

/-- Every symbol meets `P` in the state that it finds. -/
def Meets (step : σ → α → σ × List ω) (P : σ → α → Prop) : σ → List α → Prop
  | _, [] => True
  | s, a :: rest => P s a ∧ Meets step P (step s a).1 rest

theorem meets_append {P : σ → α → Prop} {s : σ} {first second : List α} :
    Meets step P s (first ++ second) ↔
      Meets step P s first ∧ Meets step P (run step s first).1 second := by
  induction first generalizing s with
  | nil => exact ⟨fun all => ⟨trivial, all⟩, And.right⟩
  | cons a rest ih =>
    rw [List.cons_append, run_cons, Meets, Meets, ih]
    exact and_assoc.symm

theorem meets_of_forall {P : σ → α → Prop} {s : σ} {stream : List α}
    (all : ∀ a ∈ stream, ∀ s, P s a) : Meets step P s stream := by
  induction stream generalizing s with
  | nil => trivial
  | cons a rest ih =>
    exact ⟨all a List.mem_cons_self s, ih fun b mem => all b (List.mem_cons_of_mem a mem)⟩

theorem exists_of_meets {P : σ → α → Prop} {s : σ} {stream : List α} (meets : Meets step P s stream)
    {a : α} (mem : a ∈ stream) : ∃ t, P t a := by
  induction stream generalizing s with
  | nil => exact absurd mem List.not_mem_nil
  | cons b rest ih =>
    rcases List.mem_cons.mp mem with rfl | mem
    · exact ⟨s, meets.1⟩
    · exact ih meets.2 mem

structure Displays (step : σ → α → σ × List ω) (display : τ → φ → τ × List ω)
    (encode : φ → List α) (inStep : σ → τ → Prop) (good : τ → φ → Prop) : Prop where
  again : ∀ {s d f}, inStep s d → good d f → inStep (run step s (encode f)).1 (display d f).1
  output : ∀ {s d f}, inStep s d → good d f → (run step s (encode f)).2 = (display d f).2

theorem Displays.run {display : τ → φ → τ × List ω} {encode : φ → List α}
    {inStep : σ → τ → Prop} {good : τ → φ → Prop}
    (displays : Displays step display encode inStep good) {s : σ} {d : τ} (start : inStep s d)
    {frames : List φ} (meets : Meets display good d frames) :
    inStep (FrameSync.run step s (frames.flatMap encode)).1 (FrameSync.run display d frames).1 ∧
      (FrameSync.run step s (frames.flatMap encode)).2 = (FrameSync.run display d frames).2 := by
  induction frames generalizing s d with
  | nil => exact ⟨start, rfl⟩
  | cons f rest ih =>
    obtain ⟨good, meets⟩ := meets
    obtain ⟨stays, outputs⟩ := ih (displays.again start good) meets
    rw [List.flatMap_cons, run_append, run_cons]
    exact ⟨stays, congrArg₂ (· ++ ·) (displays.output start good) outputs⟩

/-- A display without a state: each frame is put out by itself. -/
def plain (out : φ → List ω) (_ : Unit) (f : φ) : Unit × List ω := ((), out f)

theorem run_plain (out : φ → List ω) (frames : List φ) :
    (run (plain out) () frames).2 = frames.flatMap out := by
  induction frames with
  | nil => rfl
  | cons f rest ih =>
    rw [List.flatMap_cons, ← ih]
    rfl

theorem Displays.frames {encode : φ → List α} {out : φ → List ω} {ready : σ → Prop}
    {good : φ → Prop}
    (displays : Displays step (plain out) encode (fun s _ => ready s) fun _ f => good f) {s : σ}
    (atStart : ready s) {frames : List φ} (all : ∀ f ∈ frames, good f) :
    ready (FrameSync.run step s (frames.flatMap encode)).1 ∧
      (FrameSync.run step s (frames.flatMap encode)).2 = frames.flatMap out := by
  obtain ⟨isReady, outputs⟩ := displays.run (d := ()) atStart
    (meets_of_forall fun f mem _ => all f mem)
  exact ⟨isReady, outputs.trans (run_plain out frames)⟩

/-- Inside a frame at most `need` symbols are outstanding, and behind its last
one the receiver is as `fresh`, which finds no start of a frame in what is left
of the one that is being sent. -/
structure Resyncs (step : σ → α → σ × List ω) (valid ready : σ → Prop) (fresh : σ → Prop)
    (need : σ → Nat) (good : φ → Prop) (encode : φ → List α) : Prop where
  fresh_ready : ∀ {s}, fresh s → ready s
  need_pos : ∀ {s}, valid s → ¬ ready s → 0 < need s
  inside : ∀ {s}, valid s → ¬ ready s → ∀ a,
    (fresh (step s a).1 ∧ (step s a).2.length ≤ 1) ∨
      (valid (step s a).1 ∧ ¬ ready (step s a).1 ∧ need (step s a).1 < need s ∧ (step s a).2 = [])
  quiet : ∀ {f s front rest}, good f → fresh s → front ≠ [] → front ++ rest = encode f →
    ready (run step s rest).1 ∧ (run step s rest).2 = []

section Resyncs

variable {valid ready fresh : σ → Prop} {need : σ → Nat} {good : φ → Prop}
  {encode : φ → List α} {out : φ → List ω}

theorem Resyncs.run_inside (resyncs : Resyncs step valid ready fresh need good encode) {s : σ}
    (isValid : valid s) (inside : ¬ ready s) (symbols : List α) :
    (valid (run step s symbols).1 ∧ ¬ ready (run step s symbols).1 ∧
        need (run step s symbols).1 + symbols.length ≤ need s ∧ (run step s symbols).2 = []) ∨
      ∃ front rest, front ++ rest = symbols ∧ front ≠ [] ∧ fresh (run step s front).1 ∧
        (run step s front).2.length ≤ 1 := by
  induction symbols generalizing s with
  | nil => exact Or.inl ⟨isValid, inside, le_rfl, rfl⟩
  | cons a symbols ih =>
    rcases resyncs.inside isValid inside a with ⟨done, few⟩ | ⟨nextValid, nextInside, less, silent⟩
    · refine Or.inr ⟨[a], symbols, rfl, List.cons_ne_nil a [], done, ?_⟩
      rwa [run_cons, run_nil, List.append_nil]
    · rcases ih nextValid nextInside with ⟨laterValid, laterInside, rest, quiet⟩ | later
      · refine Or.inl ⟨laterValid, laterInside, ?_, ?_⟩
        · rw [run_cons, List.length_cons]
          change need (run step (step s a).1 symbols).1 + (symbols.length + 1) ≤ need s
          omega
        · rw [run_cons, silent, quiet]
          rfl
      · obtain ⟨front, rest, joined, some, done, few⟩ := later
        refine Or.inr ⟨a :: front, rest, congrArg (a :: ·) joined, List.cons_ne_nil a front, ?_, ?_⟩
        · rw [run_cons]
          exact done
        · rw [run_cons, silent, List.nil_append]
          exact few

theorem Resyncs.frames (resyncs : Resyncs step valid ready fresh need good encode)
    (displays : Displays step (plain out) encode (fun s _ => ready s) fun _ f => good f)
    {length : Nat} {s : σ} (isValid : valid s)
    {frames : List φ} (all : ∀ f ∈ frames, good f)
    (same : ∀ f ∈ frames, (encode f).length = length) :
    ∃ junk skipped, junk.length ≤ 1 ∧ (∀ n, skipped = n + 1 → n * length < need s) ∧
      (run step s (frames.flatMap encode)).2 = junk ++ (frames.drop skipped).flatMap out ∧
      (need s ≤ frames.length * length → ready (run step s (frames.flatMap encode)).1) := by
  by_cases atStart : ready s
  · obtain ⟨isReady, outputs⟩ := displays.frames atStart all
    exact ⟨[], 0, Nat.zero_le 1, nofun, outputs, fun _ => isReady⟩
  · have open_ := resyncs.need_pos isValid atStart
    induction frames generalizing s with
    | nil =>
      refine ⟨[], 0, Nat.zero_le 1, nofun, rfl, fun enough => ?_⟩
      rw [List.length_nil, zero_mul] at enough
      omega
    | cons f rest ih =>
      have isGood := all f List.mem_cons_self
      have later : ∀ g ∈ rest, good g := fun g mem => all g (List.mem_cons_of_mem f mem)
      have long := same f List.mem_cons_self
      rw [List.flatMap_cons, run_append]
      rcases resyncs.run_inside isValid atStart (encode f) with
        ⟨nextValid, inside, less, silent⟩ | ⟨front, back, joined, some, done, few⟩
      · obtain ⟨junk, skipped, few, bound, outputs, isReady⟩ :=
          ih nextValid later (fun g mem => same g (List.mem_cons_of_mem f mem)) inside
            (resyncs.need_pos nextValid inside)
        refine ⟨junk, skipped + 1, few, ?_, ?_, fun enough => isReady ?_⟩
        · intro n last
          obtain rfl : n = skipped := by omega
          cases n with
          | zero => omega
          | succ n =>
            have before := bound n rfl
            rw [add_mul, one_mul]
            omega
        · rw [silent, List.drop_succ_cons]
          exact outputs
        · rw [List.length_cons, add_mul, one_mul] at enough
          omega
      · obtain ⟨isReady, silent⟩ := resyncs.quiet isGood done some joined
        have whole : run step s (encode f) =
            ((run step (run step s front).1 back).1, (run step s front).2) := by
          rw [← joined, run_append, silent, List.append_nil]
        obtain ⟨stays, outputs⟩ := displays.frames isReady later
        refine ⟨(run step s front).2, 1, few, fun n last => ?_, ?_, fun _ => ?_⟩
        · obtain rfl : n = 0 := by omega
          omega
        · rw [whole]
          exact congrArg ((run step s front).2 ++ ·) outputs
        · rw [whole]
          exact stays

end Resyncs

end HyperionNg.Library.FrameSync
