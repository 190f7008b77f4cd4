import Mathlib.Tactic

/-! Runs of a partial step function `step : σ → α → Except ε σ`.
A run is a list of operations applied one after the other; it stops at the
first operation that faults. The rules turn a fact about one step into a fact
about every state of a run, with or without a condition on the steps. -/

namespace HyperionNg.Library.Execution

variable {σ α ε : Type} (step : σ → α → Except ε σ)

def Reaches (s : σ) (ops : List α) (t : σ) : Prop := ops.foldlM step s = .ok t

/-- Every operation of the run meets `Q` in the state it starts from. -/
def Along (Q : σ → α → Prop) : σ → List α → Prop
  | _, [] => True
  | s, a :: rest => Q s a ∧ ∀ t, step s a = .ok t → Along Q t rest

/-- The run never faults, and `P` holds at its start and after every operation. -/
def Always (P : σ → Prop) : σ → List α → Prop
  | s, [] => P s
  | s, a :: rest => P s ∧ ∃ t, step s a = .ok t ∧ Always P t rest

variable {step}

theorem bind_ok {β γ : Type} {x : Except ε β} {f : β → Except ε γ} {c : γ} :
    x.bind f = .ok c ↔ ∃ b, x = .ok b ∧ f b = .ok c := by
  cases x with
  | error e => simp [Except.bind]
  | ok b => simp [Except.bind]

theorem ok_bind {β γ : Type} (b : β) (f : β → Except ε γ) : (Except.ok b >>= f) = f b := rfl

@[simp] theorem reaches_nil {s t : σ} : Reaches step s [] t ↔ s = t := by
  simp [Reaches, pure, Except.pure]

theorem reaches_cons {s t : σ} {a : α} {rest : List α} :
    Reaches step s (a :: rest) t ↔ ∃ u, step s a = .ok u ∧ Reaches step u rest t := by
  rw [Reaches, List.foldlM_cons]
  exact bind_ok

theorem reaches_append {s t : σ} {first second : List α} :
    Reaches step s (first ++ second) t ↔
      ∃ u, Reaches step s first u ∧ Reaches step u second t := by
  induction first generalizing s with
  | nil => simp
  | cons a rest ih =>
    simp only [List.cons_append, reaches_cons, ih]
    constructor
    · rintro ⟨u, hu, v, hv, ht⟩
      exact ⟨v, ⟨u, hu, hv⟩, ht⟩
    · rintro ⟨v, ⟨u, hu, hv⟩, ht⟩
      exact ⟨u, hu, v, hv, ht⟩

theorem reaches_concat {s t : σ} {ops : List α} {a : α} :
    Reaches step s (ops ++ [a]) t ↔ ∃ u, Reaches step s ops u ∧ step u a = .ok t := by
  simp [reaches_append, reaches_cons]

theorem Reaches.invariant {I : σ → Prop}
    (preserved : ∀ s a t, I s → step s a = .ok t → I t)
    {s t : σ} {ops : List α} (run : Reaches step s ops t) (start : I s) : I t := by
  induction ops generalizing s with
  | nil => exact reaches_nil.mp run ▸ start
  | cons a rest ih =>
    obtain ⟨u, hu, hrest⟩ := reaches_cons.mp run
    exact ih hrest (preserved s a u start hu)

theorem Reaches.invariant_along {I : σ → Prop} {Q : σ → α → Prop}
    (preserved : ∀ s a t, I s → Q s a → step s a = .ok t → I t)
    {s t : σ} {ops : List α} (run : Reaches step s ops t)
    (cond : Along step Q s ops) (start : I s) : I t := by
  induction ops generalizing s with
  | nil => exact reaches_nil.mp run ▸ start
  | cons a rest ih =>
    obtain ⟨u, hu, hrest⟩ := reaches_cons.mp run
    exact ih hrest (cond.2 u hu) (preserved s a u start cond.1 hu)

theorem Reaches.map {τ : Type} {other : τ → α → Except ε τ} {f : σ → τ}
    (steps : ∀ s a t, step s a = .ok t → other (f s) a = .ok (f t)) {s t : σ} {ops : List α}
    (run : Reaches step s ops t) : Reaches other (f s) ops (f t) := by
  induction ops generalizing s with
  | nil => exact reaches_nil.mpr (congrArg f (reaches_nil.mp run))
  | cons a rest ih =>
    obtain ⟨u, hu, hrest⟩ := reaches_cons.mp run
    exact reaches_cons.mpr ⟨f u, steps s a u hu, ih hrest⟩

theorem Along.imp {P Q : σ → α → Prop} (h : ∀ s a, P s a → Q s a) {s : σ} {ops : List α}
    (along : Along step P s ops) : Along step Q s ops := by
  induction ops generalizing s with
  | nil => trivial
  | cons a rest ih => exact ⟨h s a along.1, fun t ht => ih (along.2 t ht)⟩

theorem Along.under_invariant {I : σ → Prop} {P Q : σ → α → Prop}
    (preserved : ∀ s a t, I s → Q s a → step s a = .ok t → I t)
    (meets : ∀ s a, I s → Q s a → P s a) {s : σ} {ops : List α}
    (along : Along step Q s ops) (inv : I s) : Along step P s ops := by
  induction ops generalizing s with
  | nil => trivial
  | cons a rest ih =>
    exact ⟨meets s a inv along.1, fun t ht =>
      ih (along.2 t ht) (preserved s a t inv along.1 ht)⟩

theorem along_congr {I : σ → Prop} {P Q : σ → α → Prop}
    (preserved : ∀ s a t, I s → step s a = .ok t → I t)
    (same : ∀ s a, I s → (P s a ↔ Q s a)) {s : σ} {ops : List α} (inv : I s) :
    Along step P s ops ↔ Along step Q s ops := by
  constructor
  · intro along
    exact along.under_invariant (fun s a t inv _ ok => preserved s a t inv ok)
      (fun s a inv p => (same s a inv).mp p) inv
  · intro along
    exact along.under_invariant (fun s a t inv _ ok => preserved s a t inv ok)
      (fun s a inv q => (same s a inv).mpr q) inv

theorem along_append {Q : σ → α → Prop} {s : σ} {first second : List α} :
    Along step Q s (first ++ second) ↔
      Along step Q s first ∧ ∀ t, Reaches step s first t → Along step Q t second := by
  induction first generalizing s with
  | nil => simp [Along]
  | cons a rest ih =>
    simp only [List.cons_append, Along, reaches_cons, ih]
    constructor
    · rintro ⟨head, tail⟩
      refine ⟨⟨head, fun u hu => (tail u hu).1⟩, ?_⟩
      rintro t ⟨u, hu, ht⟩
      exact (tail u hu).2 t ht
    · rintro ⟨⟨head, tail⟩, last⟩
      exact ⟨head, fun u hu => ⟨tail u hu, fun t ht => last t ⟨u, hu, ht⟩⟩⟩

theorem along_of_all {Q : σ → α → Prop} (all : ∀ s a, Q s a) (s : σ) (ops : List α) :
    Along step Q s ops := by
  induction ops generalizing s with
  | nil => trivial
  | cons a rest ih => exact ⟨all s a, fun t _ => ih t⟩

theorem along_of_forall {J : σ → Prop} {R : α → Prop} {Q : σ → α → Prop}
    (preserved : ∀ s a t, J s → R a → step s a = .ok t → J t)
    (meets : ∀ s a, J s → R a → Q s a) {s : σ} {ops : List α}
    (start : J s) (all : ∀ a ∈ ops, R a) : Along step Q s ops := by
  induction ops generalizing s with
  | nil => trivial
  | cons a rest ih =>
    have head := all a (by simp)
    exact ⟨meets s a start head, fun t ht =>
      ih (preserved s a t start head ht) (fun b hb => all b (by simp [hb]))⟩

theorem along_iff_forall {I : σ → Prop} {Q : σ → α → Prop} {R : α → Prop}
    (preserved : ∀ s a t, I s → step s a = .ok t → I t)
    (same : ∀ s a, I s → (Q s a ↔ R a))
    (returns : ∀ s a, I s → R a → ∃ t, step s a = .ok t) {s : σ} {ops : List α} (inv : I s) :
    Along step Q s ops ↔ ∀ a ∈ ops, R a := by
  constructor
  · intro along
    induction ops generalizing s with
    | nil => simp
    | cons a rest ih =>
      have head := (same s a inv).mp along.1
      obtain ⟨t, ht⟩ := returns s a inv head
      intro b hb
      cases List.mem_cons.mp hb with
      | inl here => exact here ▸ head
      | inr later => exact ih (preserved s a t inv ht) (along.2 t ht) b later
  · intro all
    exact along_of_forall (J := I) (R := R) (fun s a t inv _ ok => preserved s a t inv ok)
      (fun s a inv meets => (same s a inv).mpr meets) inv all

theorem exists_reaches_keeping {I : σ → Prop} {R : α → Prop}
    (returns : ∀ s a, I s → R a → ∃ t, step s a = .ok t ∧ I t) {s : σ} {ops : List α} (inv : I s)
    (all : ∀ a ∈ ops, R a) : ∃ t, Reaches step s ops t ∧ I t := by
  induction ops generalizing s with
  | nil => exact ⟨s, reaches_nil.mpr rfl, inv⟩
  | cons a rest ih =>
    obtain ⟨u, hu, next⟩ := returns s a inv (all a (by simp))
    obtain ⟨t, run, kept⟩ := ih next fun b hb => all b (by simp [hb])
    exact ⟨t, reaches_cons.mpr ⟨u, hu, run⟩, kept⟩

theorem exists_reaches {I : σ → Prop} {R : α → Prop}
    (preserved : ∀ s a t, I s → step s a = .ok t → I t)
    (returns : ∀ s a, I s → R a → ∃ t, step s a = .ok t) {s : σ} {ops : List α} (inv : I s)
    (all : ∀ a ∈ ops, R a) : ∃ t, Reaches step s ops t := by
  have keeping : ∀ s a, I s → R a → ∃ t, step s a = .ok t ∧ I t := fun s a inv meets =>
    (returns s a inv meets).imp fun t ok => ⟨ok, preserved s a t inv ok⟩
  exact (exists_reaches_keeping keeping inv all).imp fun _ run => run.1

theorem always_iff_along {I P : σ → Prop} {Q : σ → α → Prop}
    (preserved : ∀ s a t, I s → step s a = .ok t → I t)
    (exact : ∀ s a, I s → P s → (Q s a ↔ ∃ t, step s a = .ok t ∧ P t))
    {s : σ} {ops : List α} (inv : I s) (good : P s) :
    Always step P s ops ↔ Along step Q s ops := by
  induction ops generalizing s with
  | nil => exact ⟨fun _ => trivial, fun _ => good⟩
  | cons a rest ih =>
    constructor
    · rintro ⟨_, t, ht, hrest⟩
      have goodNext : P t := by
        cases rest with
        | nil => exact hrest
        | cons b rest => exact hrest.1
      refine ⟨(exact s a inv good).mpr ⟨t, ht, goodNext⟩, fun u hu => ?_⟩
      have same : u = t := Except.ok.inj (hu.symm.trans ht)
      subst same
      exact (ih (preserved s a u inv hu) goodNext).mp hrest
    · rintro ⟨hq, hrest⟩
      obtain ⟨t, ht, goodNext⟩ := (exact s a inv good).mp hq
      exact ⟨good, t, ht, (ih (preserved s a t inv ht) goodNext).mpr (hrest t ht)⟩

theorem always_of_along {P : σ → Prop} {Q : σ → α → Prop}
    (progress : ∀ s a, P s → Q s a → ∃ t, step s a = .ok t ∧ P t)
    {s : σ} {ops : List α} (good : P s) (along : Along step Q s ops) : Always step P s ops := by
  induction ops generalizing s with
  | nil => exact good
  | cons a rest ih =>
    obtain ⟨t, ht, goodNext⟩ := progress s a good along.1
    exact ⟨good, t, ht, ih goodNext (along.2 t ht)⟩

theorem Always.imp {P R : σ → Prop} (h : ∀ s, P s → R s) {s : σ} {ops : List α}
    (always : Always step P s ops) : Always step R s ops := by
  induction ops generalizing s with
  | nil => exact h s always
  | cons a rest ih =>
    obtain ⟨good, t, ht, hrest⟩ := always
    exact ⟨h s good, t, ht, ih hrest⟩

theorem Always.reaches {P : σ → Prop} {s t : σ} {ops : List α} (always : Always step P s ops)
    (run : Reaches step s ops t) : P t := by
  induction ops generalizing s with
  | nil => exact reaches_nil.mp run ▸ always
  | cons a rest ih =>
    obtain ⟨_, u, hu, hrest⟩ := always
    obtain ⟨v, hv, hrun⟩ := reaches_cons.mp run
    have same : u = v := Except.ok.inj (hu.symm.trans hv)
    exact ih hrest (same ▸ hrun)

/-- `P` holds at the start and after every operation that returns. -/
def Throughout (step : σ → α → Except ε σ) (P : σ → Prop) (s : σ) (ops : List α) : Prop :=
  P s ∧ Along step (fun s a => ∀ t, step s a = .ok t → P t) s ops

/-- A condition that characterises the steps from good states to good states
characterises the runs that stay good; a step that faults has no state to be
good, and no condition to meet. -/
theorem throughout_iff_along {I P : σ → Prop} {Q : σ → α → Prop}
    (preserved : ∀ s a t, I s → step s a = .ok t → I t)
    (exact : ∀ s a t, I s → P s → step s a = .ok t → (P t ↔ Q s a))
    {s : σ} {ops : List α} (inv : I s) (good : P s) :
    Throughout step P s ops ↔ Along step (fun s a => ∀ t, step s a = .ok t → Q s a) s ops := by
  rw [Throughout, and_iff_right good]
  induction ops generalizing s with
  | nil => exact Iff.rfl
  | cons a rest ih =>
    have head : (∀ t, step s a = .ok t → P t) ↔ ∀ t, step s a = .ok t → Q s a :=
      forall_congr' fun t => forall_congr' fun ht => exact s a t inv good ht
    constructor
    · rintro ⟨hgood, hrest⟩
      exact ⟨head.mp hgood, fun t ht => (ih (preserved s a t inv ht) (hgood t ht)).mp (hrest t ht)⟩
    · rintro ⟨hq, hrest⟩
      have hgood := head.mpr hq
      exact ⟨hgood, fun t ht => (ih (preserved s a t inv ht) (hgood t ht)).mpr (hrest t ht)⟩

theorem throughout_of_invariant {I P : σ → Prop}
    (preserved : ∀ s a t, I s → step s a = .ok t → I t) (meets : ∀ s, I s → P s)
    {s : σ} (start : I s) (ops : List α) : Throughout step P s ops :=
  ⟨meets s start, (along_of_all (Q := fun _ _ => True) (fun _ _ => trivial) s ops).under_invariant
    (fun s a t inv _ ok => preserved s a t inv ok)
    (fun s a inv _ t ok => meets t (preserved s a t inv ok)) start⟩

theorem Throughout.reaches {P : σ → Prop} {s t : σ} {ops : List α}
    (throughout : Throughout step P s ops) (run : Reaches step s ops t) : P t := by
  obtain ⟨good, along⟩ := throughout
  exact run.invariant_along (fun _ _ _ _ post h => post _ h) along good

theorem foldlM_returns_iff {γ : Type} {part : σ → γ} {Q : γ → α → Prop}
    (keeps : ∀ s a t, step s a = .ok t → part t = part s)
    (returns : ∀ s a, (∃ t, step s a = .ok t) ↔ Q (part s) a) {s : σ} {ops : List α} :
    (∃ t, ops.foldlM step s = .ok t) ↔ ∀ a ∈ ops, Q (part s) a := by
  induction ops generalizing s with
  | nil => exact iff_of_true ⟨s, rfl⟩ nofun
  | cons a rest ih =>
    rw [List.forall_mem_cons, ← returns]
    constructor
    · rintro ⟨t, run⟩
      obtain ⟨u, first, run⟩ := reaches_cons.mp run
      exact ⟨⟨u, first⟩, keeps s a u first ▸ ih.mp ⟨t, run⟩⟩
    · rintro ⟨⟨u, first⟩, others⟩
      obtain ⟨t, run⟩ := ih.mpr (keeps s a u first ▸ others)
      exact ⟨t, reaches_cons.mpr ⟨u, first, run⟩⟩

instance decidableForallOk {β : Type} {P : β → Prop} [DecidablePred P] :
    (x : Except ε β) → Decidable (∀ b, x = .ok b → P b)
  | .ok b => decidable_of_iff (P b)
      ⟨fun holds _ same => Except.ok.inj same ▸ holds, fun all => all b rfl⟩
  | .error _ => isTrue fun _ same => absurd same (by simp)

def returnsWith {β : Type} (x : Except ε β) (check : β → Bool) : Bool :=
  match x with
  | .ok b => check b
  | .error _ => false

theorem exists_of_returnsWith {β : Type} {x : Except ε β} {check : β → Bool}
    (h : returnsWith x check = true) : ∃ b, x = .ok b ∧ check b = true := by
  cases x with
  | ok b => exact ⟨b, rfl, h⟩
  | error e => exact absurd h Bool.false_ne_true

def evaluates (step : σ → α → Except ε σ) (start : Except ε σ) (ops : List α)
    (check : σ → Bool) : Bool :=
  returnsWith (start.bind fun s => ops.foldlM step s) check

theorem exists_of_evaluates {start : Except ε σ} {ops : List α} {check : σ → Bool}
    (h : evaluates step start ops check = true) :
    ∃ s t, start = .ok s ∧ Reaches step s ops t ∧ check t = true := by
  obtain ⟨t, hrun, hcheck⟩ := exists_of_returnsWith h
  obtain ⟨s, hs, ht⟩ := bind_ok.mp hrun
  exact ⟨s, t, hs, ht, hcheck⟩

def checksAlong (step : σ → α → Except ε σ) (check : σ → α → Bool) : σ → List α → Bool
  | _, [] => true
  | s, a :: rest => check s a &&
      match step s a with
      | .ok t => checksAlong step check t rest
      | .error _ => true

theorem along_of_checks {Q : σ → α → Prop} {check : σ → α → Bool} {s : σ} {ops : List α}
    (h : checksAlong step check s ops = true) (sound : ∀ a ∈ ops, ∀ s, check s a = true → Q s a) :
    Along step Q s ops := by
  induction ops generalizing s with
  | nil => trivial
  | cons a rest ih =>
    obtain ⟨head, tail⟩ := Bool.and_eq_true_iff.mp h
    refine ⟨sound a (by simp) s head, fun t ht => ?_⟩
    rw [ht] at tail
    exact ih tail fun b hb => sound b (by simp [hb])

/-! Calls that change a state and may throw: the exception carries the state
the call leaves behind. -/

structure Thrown (ε σ : Type) where
  fault : ε
  state : σ

def raise {β : Type} (s : σ) (x : Except ε β) : Except (Thrown ε σ) β :=
  x.mapError fun e => ⟨e, s⟩

/-- The call leaves state `t`, by returning it or by throwing. -/
def Ends (x : Except (Thrown ε σ) σ) (t : σ) : Prop :=
  x = .ok t ∨ ∃ e, x = .error ⟨e, t⟩

def optionally (condition : Bool) (call : σ → Except (Thrown ε σ) σ) (s : σ) :
    Except (Thrown ε σ) σ :=
  if condition then call s else .ok s

theorem bind_eq_ok {β γ : Type} {x : Except ε β} {f : β → Except ε γ} {c : γ} :
    (x >>= f) = .ok c ↔ ∃ b, x = .ok b ∧ f b = .ok c := bind_ok

theorem map_eq_ok {β γ : Type} {x : Except ε β} {f : β → γ} {c : γ} :
    x.map f = .ok c ↔ ∃ b, x = .ok b ∧ f b = c := by
  cases x <;> simp [Except.map]

theorem mapError_eq_ok {β ε' : Type} {x : Except ε β} {f : ε → ε'} {b : β} :
    x.mapError f = .ok b ↔ x = .ok b := by
  cases x <;> simp [Except.mapError]

theorem exists_mapM {β γ : Type} {f : β → Except ε γ} {l : List β}
    (returns : ∀ b ∈ l, ∃ c, f b = .ok c) :
    ∃ results, l.mapM f = .ok results ∧ results.length = l.length ∧
      ∀ c ∈ results, ∃ b ∈ l, f b = .ok c := by
  induction l with
  | nil => exact ⟨[], rfl, rfl, by simp⟩
  | cons b rest ih =>
    obtain ⟨c, hc⟩ := returns b (by simp)
    obtain ⟨results, hresults, length, source⟩ := ih fun b' hb' => returns b' (by simp [hb'])
    refine ⟨c :: results, ?_, by simp [length], ?_⟩
    · simp [List.mapM_cons, hc, hresults, bind, Except.bind, pure, Except.pure]
    · intro c' hc'
      cases List.mem_cons.mp hc' with
      | inl here => exact ⟨b, by simp, here ▸ hc⟩
      | inr later =>
        obtain ⟨b', hb', hf⟩ := source c' later
        exact ⟨b', by simp [hb'], hf⟩

theorem pure_eq_ok {β : Type} {b c : β} : (pure b : Except ε β) = .ok c ↔ b = c :=
  ⟨Except.ok.inj, congrArg _⟩

@[simp] theorem raise_eq_ok {β : Type} {s : σ} {x : Except ε β} {b : β} :
    raise s x = .ok b ↔ x = .ok b := mapError_eq_ok

@[simp] theorem ends_ok {s t : σ} : Ends (.ok s : Except (Thrown ε σ) σ) t ↔ s = t := by
  simp [Ends]

@[simp] theorem ends_pure {s t : σ} : Ends (pure s : Except (Thrown ε σ) σ) t ↔ s = t := ends_ok

theorem ends_bind {x : Except (Thrown ε σ) σ} {f : σ → Except (Thrown ε σ) σ} {t : σ}
    (h : Ends (x >>= f) t) : Ends x t ∨ ∃ u, x = .ok u ∧ Ends (f u) t := by
  cases x with
  | ok u => exact Or.inr ⟨u, rfl, h⟩
  | error e => exact Or.inl h

@[simp] theorem optionally_true (call : σ → Except (Thrown ε σ) σ) (s : σ) :
    optionally true call s = call s := rfl

@[simp] theorem optionally_false (call : σ → Except (Thrown ε σ) σ) (s : σ) :
    optionally false call s = .ok s := rfl

theorem ends_optionally {condition : Bool} {call : σ → Except (Thrown ε σ) σ} {s t : σ}
    (h : Ends (optionally condition call s) t) :
    (condition = true ∧ Ends (call s) t) ∨ (condition = false ∧ t = s) := by
  cases condition with
  | true => exact Or.inl ⟨rfl, h⟩
  | false => exact Or.inr ⟨rfl, (ends_ok.mp h).symm⟩

theorem ends_raise_bind {β : Type} {s : σ} {x : Except ε β} {f : β → Except (Thrown ε σ) σ} {t : σ}
    (h : Ends (raise s x >>= f) t) : t = s ∨ ∃ b, x = .ok b ∧ Ends (f b) t := by
  cases x with
  | ok b => exact Or.inr ⟨b, rfl, h⟩
  | error e =>
    rcases h with h | ⟨e', h⟩
    · exact absurd h (by simp [raise, Except.mapError, bind, Except.bind])
    · have hs : (⟨e, s⟩ : Thrown ε σ) = ⟨e', t⟩ := Except.error.inj h
      exact Or.inl (congrArg Thrown.state hs).symm

end HyperionNg.Library.Execution
