import Mathlib.Tactic

/-! Byte strings as lists: big-endian numbers, and prefixes of a stated length. -/

namespace HyperionNg.Library.Bytes

/-- The low `width` bytes of a number, most significant first. -/
def bigEndian : Nat → Nat → List UInt8
  | 0, _ => []
  | width + 1, n => bigEndian width (n / 256) ++ [UInt8.ofNat n]

def ofBigEndian (bytes : List UInt8) : Nat := bytes.foldl (fun n b => 256 * n + b.toNat) 0

@[simp] theorem bigEndian_length (width n : Nat) : (bigEndian width n).length = width := by
  induction width generalizing n with
  | zero => rfl
  | succ width ih => simp [bigEndian, ih]

private theorem ofBigEndian_concat (bytes : List UInt8) (b : UInt8) :
    ofBigEndian (bytes ++ [b]) = 256 * ofBigEndian bytes + b.toNat := by
  simp [ofBigEndian, List.foldl_append]

theorem ofBigEndian_bigEndian (width n : Nat) :
    ofBigEndian (bigEndian width n) = n % 256 ^ width := by
  induction width generalizing n with
  | zero => simp [bigEndian, ofBigEndian, Nat.mod_one]
  | succ width ih =>
    have last : (UInt8.ofNat n).toNat = n % 256 := by simp
    rw [bigEndian, ofBigEndian_concat, ih, last, pow_succ, mul_comm (256 ^ width) 256,
      Nat.mod_mul]
    omega

theorem ofBigEndian_of_lt {width n : Nat} (fits : n < 256 ^ width) :
    ofBigEndian (bigEndian width n) = n := by
  rw [ofBigEndian_bigEndian, Nat.mod_eq_of_lt fits]

theorem ofBigEndian_lt (bytes : List UInt8) : ofBigEndian bytes < 256 ^ bytes.length := by
  induction bytes using List.reverseRecOn with
  | nil => simp [ofBigEndian]
  | append_singleton bytes b ih =>
    have byte := b.toNat_lt
    rw [ofBigEndian_concat, List.length_append, List.length_singleton, pow_succ]
    omega

/-- The first `n` bytes and the others, when there are so many. -/
def split? (n : Nat) (bytes : List UInt8) : Option (List UInt8 × List UInt8) :=
  if n ≤ bytes.length then some (bytes.take n, bytes.drop n) else none

theorem split?_append {n : Nat} {front : List UInt8} (length : front.length = n)
    (rest : List UInt8) : split? n (front ++ rest) = some (front, rest) := by
  subst length
  simp [split?]

theorem split?_eq_whole {n : Nat} {bytes : List UInt8} :
    split? n bytes = some (bytes, []) ↔ n = bytes.length := by
  unfold split?
  split_ifs with enough
  · rw [Option.some.injEq, Prod.mk.injEq, List.take_eq_self_iff, List.drop_eq_nil_iff]
    omega
  · exact iff_of_false nofun (by omega)

/-- The big-endian number of `width` bytes behind the first `offset`. -/
def numberAt (offset width : Nat) (bytes : List UInt8) : Nat :=
  ofBigEndian ((bytes.drop offset).take width)

theorem numberAt_skip {front : List UInt8} {offset : Nat} (beyond : front.length ≤ offset)
    (width : Nat) (rest : List UInt8) :
    numberAt offset width (front ++ rest) = numberAt (offset - front.length) width rest := by
  rw [numberAt, List.drop_append, List.drop_of_length_le beyond, List.nil_append, numberAt]

theorem numberAt_zero {front : List UInt8} {width : Nat} (length : front.length = width)
    (rest : List UInt8) : numberAt 0 width (front ++ rest) = ofBigEndian front := by
  rw [numberAt, List.drop_zero, ← length, List.take_left]

def number? (width : Nat) (bytes : List UInt8) : Option (Nat × List UInt8) :=
  (split? width bytes).map (Prod.map ofBigEndian id)

theorem number?_bigEndian {width n : Nat} (fits : n < 256 ^ width) (rest : List UInt8) :
    number? width (bigEndian width n ++ rest) = some (n, rest) := by
  simp [number?, split?_append (bigEndian_length width n), ofBigEndian_of_lt fits]

end HyperionNg.Library.Bytes
