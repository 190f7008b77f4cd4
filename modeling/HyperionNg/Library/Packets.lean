import Mathlib.Tactic

/-! A sequence cut into packets of one size by a loop over its indices: a
packet is started at every multiple of the size, and sent at the last index
before the next multiple or at the last index of all. -/

namespace HyperionNg.Library.Packets

def count (size total : Nat) : Nat := (total + size - 1) / size

def chunk {α : Type} (size : Nat) (l : List α) (k : Nat) : List α := (l.drop (k * size)).take size

section Chunks

variable {α : Type} {size : Nat}

theorem le_count_mul (positive : 0 < size) (total : Nat) : total ≤ count size total * size := by
  have := Nat.lt_div_mul_add (a := total + size - 1) positive
  rw [count]
  omega

theorem lt_count_iff (positive : 0 < size) {total k : Nat} :
    k < count size total ↔ k * size < total := by
  rw [count, Nat.lt_iff_add_one_le, Nat.le_div_iff_mul_le positive, Nat.add_mul]
  omega

theorem count_pos (positive : 0 < size) {total : Nat} (some : 0 < total) :
    0 < count size total := by
  rw [lt_count_iff positive]
  omega

theorem count_of_dvd (positive : 0 < size) {total : Nat} (divides : size ∣ total) :
    count size total = total / size := by
  obtain ⟨k, rfl⟩ := divides
  rw [count, Nat.add_sub_assoc positive, Nat.mul_add_div positive,
    Nat.mul_div_cancel_left k positive,
    Nat.div_eq_of_lt (by omega), Nat.add_zero]

theorem count_of_not_dvd (positive : 0 < size) {total : Nat} (leaves : ¬ size ∣ total) :
    count size total = 1 + total / size := by
  have rest : 0 < total % size := Nat.pos_of_ne_zero fun h => leaves (Nat.dvd_of_mod_eq_zero h)
  have split := Nat.div_add_mod total size
  have below := Nat.mod_lt total positive
  rw [count, ← split, Nat.add_assoc, Nat.add_sub_assoc (by omega), Nat.mul_add_div positive,
    Nat.mul_add_div positive, Nat.div_eq_of_lt below]
  have : (total % size + size - 1) / size = 1 := by
    rw [Nat.div_eq_iff positive]
    omega
  omega

theorem chunk_length (size : Nat) (l : List α) (k : Nat) :
    (chunk size l k).length = min size (l.length - k * size) := by
  rw [chunk, List.length_take, List.length_drop]

theorem flatMap_chunk_range (size : Nat) (l : List α) (k : Nat) :
    (List.range k).flatMap (chunk size l) = l.take (k * size) := by
  induction k with
  | zero => simp
  | succ k ih =>
    rw [List.range_succ, List.flatMap_append, ih, Nat.add_mul, Nat.one_mul, List.take_add,
      List.flatMap_singleton, chunk]

theorem flatMap_chunk (positive : 0 < size) (l : List α) :
    (List.range (count size l.length)).flatMap (chunk size l) = l := by
  rw [flatMap_chunk_range, List.take_of_length_le (le_count_mul positive l.length)]

end Chunks

section Overwrite

variable {α : Type}

def overwrite (values l : List α) : List α := values ++ l.drop values.length

@[simp] theorem overwrite_nil (l : List α) : overwrite [] l = l := by
  simp [overwrite]

theorem overwrite_length {values l : List α} (fits : values.length ≤ l.length) :
    (overwrite values l).length = l.length := by
  rw [overwrite, List.length_append, List.length_drop]
  omega

theorem overwrite_set {values l : List α} (fits : values.length < l.length) (value : α) :
    (overwrite values l).set values.length value = overwrite (values ++ [value]) l := by
  rw [overwrite, overwrite, List.set_append_right _ _ le_rfl, Nat.sub_self,
    List.drop_eq_getElem_cons fits, List.set_cons_zero, List.length_append, List.length_singleton,
    List.append_assoc]
  rfl

@[simp] theorem take_overwrite (values l : List α) :
    (overwrite values l).take values.length = values := by
  rw [overwrite, List.take_left]

end Overwrite

section Loop

variable {m : Type → Type} [Monad m] {σ : Type}

def body (size total : Nat) (start put send : σ → Nat → m σ) (s : σ) (i : Nat) : m σ := do
  let s ← if i % size = 0 then start s i else pure s
  let s ← put s i
  if i + 1 = total ∨ i % size + 1 = size then send s i else pure s

/-- One packet: the indices from `k * size`, up to `size` of them. -/
def packet (size total : Nat) (start put send : σ → Nat → m σ) (s : σ) (k : Nat) : m σ := do
  let s ← start s (k * size)
  let s ← (List.range' (k * size) (min size (total - k * size))).foldlM put s
  send s (k * size + min size (total - k * size) - 1)

theorem foldlM_congr {α : Type} {f g : σ → α → m σ} {l : List α}
    (same : ∀ a ∈ l, ∀ s, f s a = g s a) (s : σ) : l.foldlM f s = l.foldlM g s := by
  induction l generalizing s with
  | nil => rfl
  | cons a l ih =>
    rw [List.foldlM_cons, List.foldlM_cons, same a (by simp)]
    exact congrArg _ (funext fun s => ih (fun b hb => same b (by simp [hb])) s)

variable [LawfulMonad m]

theorem foldlM_flatMap {α β : Type} (f : α → List β) (g : σ → β → m σ) (l : List α) (s : σ) :
    (l.flatMap f).foldlM g s = l.foldlM (fun s a => (f a).foldlM g s) s := by
  induction l generalizing s with
  | nil => rfl
  | cons a l ih => simp only [List.flatMap_cons, List.foldlM_append, List.foldlM_cons, ih]

theorem flatMap_range' (size total k : Nat) :
    (List.range k).flatMap (fun k => List.range' (k * size) (min size (total - k * size))) =
      List.range (min (k * size) total) := by
  induction k with
  | zero => simp
  | succ k ih =>
    rw [List.range_succ, List.flatMap_append, ih, List.flatMap_singleton, List.range_eq_range',
      List.range_eq_range', Nat.add_mul, Nat.one_mul]
    rcases Nat.le_total (k * size) total with le | le
    · have behind : min (k * size + size) total = k * size + min size (total - k * size) := by
        omega
      rw [behind, min_eq_left le, ← List.range'_append_1, Nat.zero_add]
    · rw [Nat.sub_eq_zero_of_le le, Nat.min_zero, min_eq_right le, min_eq_right (by omega),
        List.range'_zero, List.append_nil]

variable {size total : Nat} {start put send : σ → Nat → m σ}

theorem foldlM_body_of_lt {k j : Nat} (inside : j < min size (total - k * size)) (s : σ) :
    (List.range' (k * size) j).foldlM (body size total start put send) s =
      (if j = 0 then pure s else start s (k * size)) >>=
        (List.range' (k * size) j).foldlM put := by
  induction j with
  | zero => simp
  | succ j ih =>
    have residue : (k * size + j) % size = j := Nat.mul_add_mod_of_lt (by omega)
    have stays : ¬ (k * size + j + 1 = total ∨ j + 1 = size) := by omega
    rw [List.range'_concat, Nat.one_mul, List.foldlM_append, ih (by omega)]
    rcases Nat.eq_zero_or_pos j with rfl | later
    · simp [body, stays]
    · have open_ : j ≠ 0 := by omega
      simp [body, residue, stays, open_]

theorem foldlM_body {k : Nat} (nonempty : 0 < min size (total - k * size)) (s : σ) :
    (List.range' (k * size) (min size (total - k * size))).foldlM
      (body size total start put send) s = packet size total start put send s k := by
  obtain ⟨j, hj⟩ : ∃ j, min size (total - k * size) = j + 1 :=
    ⟨_, (Nat.sub_add_cancel nonempty).symm⟩
  have residue : (k * size + j) % size = j := Nat.mul_add_mod_of_lt (by omega)
  have last : k * size + j + 1 = total ∨ j + 1 = size := by omega
  rw [packet, hj, List.range'_concat, Nat.one_mul, List.foldlM_append, foldlM_body_of_lt (by omega)]
  rcases Nat.eq_zero_or_pos j with rfl | later
  · simp [body, last]
  · have open_ : j ≠ 0 := by omega
    simp [body, residue, last, open_]

theorem foldlM_range (positive : 0 < size) (s : σ) :
    (List.range total).foldlM (body size total start put send) s =
      (List.range (count size total)).foldlM (packet size total start put send) s := by
  rw [← min_eq_right (le_count_mul positive total), ← flatMap_range', foldlM_flatMap,
    min_eq_right (le_count_mul positive total)]
  refine foldlM_congr (fun k hk s => foldlM_body ?_ s) s
  have := (lt_count_iff positive).mp (List.mem_range.mp hk)
  omega

/-- Where `put` adds the next of the values to what the state shows, a packet
is sent with all of its chunk. -/
theorem packet_eq {α : Type} {l : List α} {s : σ} {k : Nat} (view : List α → σ)
    (started : start s (k * size) = pure (view []))
    (step : ∀ j, (inside : j < (chunk size l k).length) → put (view ((chunk size l k).take j))
      (k * size + j) = pure (view ((chunk size l k).take j ++ [(chunk size l k)[j]]))) :
    packet size l.length start put send s k =
      send (view (chunk size l k)) (k * size + (chunk size l k).length - 1) := by
  have puts : ∀ j ≤ (chunk size l k).length, (List.range' (k * size) j).foldlM put (view []) =
      pure (view ((chunk size l k).take j)) := by
    intro j
    induction j with
    | zero => simp
    | succ j ih =>
      intro within
      rw [List.range'_concat, Nat.one_mul, List.foldlM_append, ih (by omega), pure_bind,
        List.foldlM_cons, step j (by omega), pure_bind, List.foldlM_nil, List.take_concat_get']
  rw [packet, started, pure_bind, ← chunk_length, puts _ le_rfl, List.take_length, pure_bind]

theorem foldlM_range_invariant {P : Nat → σ → Prop} {f : σ → Nat → m σ} {n : Nat} {s : σ}
    (init : P 0 s) (step : ∀ k < n, ∀ s, P k s → ∃ t, f s k = pure t ∧ P (k + 1) t) :
    ∃ t, (List.range n).foldlM f s = pure t ∧ P n t := by
  induction n with
  | zero => exact ⟨s, rfl, init⟩
  | succ n ih =>
    obtain ⟨t, run, holds⟩ := ih fun k hk => step k (by omega)
    obtain ⟨u, next, holds⟩ := step n (by omega) t holds
    exact ⟨u, by rw [List.range_succ, List.foldlM_append, run, pure_bind]; simp [next], holds⟩

end Loop

end HyperionNg.Library.Packets
