import Mathlib.Tactic

/-! Numbers sent on a line as codes of their digits, most significant first, and
frames of words at equal distances. -/

namespace HyperionNg.Library.Waveform

/-- The `n` lowest digits of a number. -/
def digits (base : Nat) : Nat → Nat → List Nat
  | 0, _ => []
  | n + 1, value => digits base n (value / base) ++ [value % base]

def ofDigits (base : Nat) (digits : List Nat) : Nat := digits.foldl (fun n d => base * n + d) 0

section Digits

variable {base m n : Nat}

@[simp] theorem digits_length (base n value : Nat) : (digits base n value).length = n := by
  induction n generalizing value with
  | zero => rfl
  | succ n ih => simp [digits, ih]

private theorem ofDigits_concat (base : Nat) (l : List Nat) (d : Nat) :
    ofDigits base (l ++ [d]) = base * ofDigits base l + d := by
  simp [ofDigits, List.foldl_append]

theorem digits_lt (positive : 0 < base) {value d : Nat} (held : d ∈ digits base n value) :
    d < base := by
  induction n generalizing value with
  | zero => exact absurd held List.not_mem_nil
  | succ n ih =>
    rcases List.mem_append.mp held with before | last
    · exact ih before
    · rw [List.mem_singleton.mp last]
      exact Nat.mod_lt _ positive

private theorem ofDigits_digits (base n value : Nat) : ofDigits base (digits base n value) =
    value % base ^ n := by
  induction n generalizing value with
  | zero => simp [digits, ofDigits, Nat.mod_one]
  | succ n ih =>
    rw [digits, ofDigits_concat, ih, pow_succ, mul_comm (base ^ n) base, Nat.mod_mul, Nat.add_comm]

theorem digits_append (positive : 0 < base) (front : Nat) {back : Nat} (below : back < base ^ n) :
    digits base (m + n) (base ^ n * front + back) = digits base m front ++ digits base n back := by
  induction n generalizing back with
  | zero =>
    have zero : back = 0 := by simpa using below
    simp [digits, zero]
  | succ n ih =>
    have next : back / base < base ^ n := by
      rw [Nat.div_lt_iff_lt_mul positive]
      rwa [pow_succ] at below
    have value : base ^ (n + 1) * front + back = base * (base ^ n * front) + back := by ring
    rw [← Nat.add_assoc, digits, digits, value, Nat.mul_add_div positive, Nat.mul_add_mod, ih next,
      List.append_assoc]

theorem digits_ofDigits (positive : 0 < base) {l : List Nat} (below : ∀ d ∈ l, d < base ^ n) :
    digits base (l.length * n) (ofDigits (base ^ n) l) = l.flatMap (digits base n) := by
  induction l using List.reverseRecOn with
  | nil => simp [digits]
  | append_singleton l d ih =>
    rw [ofDigits_concat, List.length_append, List.length_singleton, Nat.add_mul, Nat.one_mul,
      digits_append positive _ (below d (by simp)), ih fun e held => below e (by simp [held]),
      List.flatMap_append, List.flatMap_singleton]

end Digits

structure Code (base : Nat) (β : Type) where
  encode : Nat → β
  decode : β → Option Nat
  decode_encode : ∀ digit < base, decode (encode digit) = some digit

namespace Code

variable {base n : Nat} {β : Type}

def word (code : Code base β) (n value : Nat) : List β := (digits base n value).map code.encode

def value? (code : Code base β) (symbols : List β) : Option Nat :=
  (symbols.mapM code.decode).map (ofDigits base)

@[simp] theorem word_length (code : Code base β) (n value : Nat) :
    (code.word n value).length = n := by
  rw [word, List.length_map, digits_length]

theorem mapM_decode (code : Code base β) {l : List Nat} (below : ∀ d ∈ l, d < base) :
    (l.map code.encode).mapM code.decode = some l := by
  induction l with
  | nil => rfl
  | cons d l ih =>
    rw [List.map_cons, List.mapM_cons, code.decode_encode d (below d List.mem_cons_self),
      ih fun e held => below e (List.mem_cons_of_mem d held)]
    rfl

theorem value?_word (code : Code base β) (positive : 0 < base) {value : Nat}
    (below : value < base ^ n) : code.value? (code.word n value) = some value := by
  rw [value?, word, mapM_decode code fun _ => digits_lt positive, Option.map_some, ofDigits_digits,
    Nat.mod_eq_of_lt below]

end Code

section Frames

variable {α β : Type}

/-- The words of the values with a gap behind each, and the tail behind all. -/
def frame (gap tail : List β) (word : α → List β) (values : List α) : List β :=
  values.flatMap (fun value => word value ++ gap) ++ tail

/-- `count` words of the size, each with the gap behind it, and the tail. -/
def frame? [DecidableEq β] (size : Nat) (gap tail : List β) (word? : List β → Option α) :
    Nat → List β → Option (List α)
  | 0, symbols => if symbols = tail then some [] else none
  | count + 1, symbols =>
    if (symbols.drop size).take gap.length = gap then
      (word? (symbols.take size)).bind fun value =>
        (frame? size gap tail word? count (symbols.drop (size + gap.length))).map (value :: ·)
    else none

theorem frame_cons (gap tail : List β) (word : α → List β) (value : α) (values : List α) :
    frame gap tail word (value :: values) = word value ++ (gap ++ frame gap tail word values) := by
  simp [frame]

theorem frame_map {γ : Type} (gap tail : List β) (word : α → List β) (f : γ → α)
    (values : List γ) :
    frame gap tail word (values.map f) = frame gap tail (fun value => word (f value)) values := by
  rw [frame, frame, List.flatMap_map]

theorem frame?_frame [DecidableEq β] {size : Nat} (gap tail : List β) {word : α → List β}
    {word? : List β → Option α} (sized : ∀ value, (word value).length = size)
    (reads : ∀ value, word? (word value) = some value) (values : List α) :
    frame? size gap tail word? values.length (frame gap tail word values) = some values := by
  induction values with
  | nil => simp [frame?, frame]
  | cons value values ih =>
    have front : (frame gap tail word (value :: values)).take size = word value := by
      rw [frame_cons, List.take_left' (sized value)]
    have behind : (frame gap tail word (value :: values)).drop size =
        gap ++ frame gap tail word values := by
      rw [frame_cons, List.drop_left' (sized value)]
    rw [List.length_cons, frame?, front, reads, ← List.drop_drop, behind, List.take_left,
      List.drop_left, if_pos rfl, ih]
    rfl

theorem frame_length {size : Nat} (gap tail : List β) {word : α → List β}
    (sized : ∀ value, (word value).length = size) (values : List α) :
    (frame gap tail word values).length =
      values.length * (size + gap.length) + tail.length := by
  induction values with
  | nil => simp [frame]
  | cons value values ih =>
    rw [frame_cons, List.length_append, List.length_append, ih, sized, List.length_cons,
      Nat.add_mul]
    omega

/-- The symbols are the words of the values at their places, and the tail. -/
structure Carries [DecidableEq β] (size : Nat) (gap tail : List β) (word? : List β → Option α)
    (values : List α) (symbols : List β) : Prop where
  words : frame? size gap tail word? values.length symbols = some values
  length : symbols.length = values.length * (size + gap.length) + tail.length
  behind : symbols.drop (values.length * (size + gap.length)) = tail

theorem carries_frame [DecidableEq β] {size : Nat} (gap tail : List β) {word : α → List β}
    {word? : List β → Option α} (sized : ∀ value, (word value).length = size)
    (reads : ∀ value, word? (word value) = some value) (values : List α) :
    Carries size gap tail word? values (frame gap tail word values) where
  words := frame?_frame gap tail sized reads values
  length := frame_length gap tail sized values
  behind := by
    have words := frame_length gap [] sized values
    rw [frame, List.append_nil, List.length_nil, Nat.add_zero] at words
    rw [frame, List.drop_left' words]

end Frames

end HyperionNg.Library.Waveform
