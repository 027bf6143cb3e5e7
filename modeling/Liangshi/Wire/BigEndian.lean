import Mathlib.Tactic.Lemma
import Mathlib.Algebra.Group.Int.Defs
import Mathlib.Algebra.Group.Nat.Defs
import Mathlib.Data.Nat.Log
import Mathlib.Data.List.Induction

/-!
# Byte strings and big-endian numbers

`bigEndian w n` writes the low `w` bytes of `n`, most significant first, and `ofBigEndian` reads
them back (`ofBigEndian_bigEndian`).
-/

namespace Wire

/-- A byte string. -/
abbrev Bytes := List UInt8

/-- The low `width` bytes of `n`, most significant byte first. -/
def bigEndian : Nat → Nat → Bytes
  | 0, _ => []
  | width + 1, n => bigEndian width (n / 256) ++ [UInt8.ofNat n]

/-- The number a byte string denotes, most significant byte first. -/
def ofBigEndian (bytes : Bytes) : Nat :=
  bytes.foldl (fun acc b => acc * 256 + b.toNat) 0

/-- `bigEndian` writes exactly the requested number of bytes. -/
@[simp] lemma length_bigEndian (width n : Nat) : (bigEndian width n).length = width := by
  induction width generalizing n with
  | zero => rfl
  | succ width ih => simp [bigEndian, ih]

/-- Appending a least significant byte shifts the number by one byte. -/
lemma ofBigEndian_append_singleton (bytes : Bytes) (b : UInt8) :
    ofBigEndian (bytes ++ [b]) = ofBigEndian bytes * 256 + b.toNat := by
  simp [ofBigEndian]

/-- Reading back a big-endian number gives it modulo the width. -/
lemma ofBigEndian_bigEndian_mod (width n : Nat) :
    ofBigEndian (bigEndian width n) = n % 256 ^ width := by
  induction width generalizing n with
  | zero => simp [bigEndian, ofBigEndian, Nat.mod_one]
  | succ width ih =>
    have hpow : 256 ^ (width + 1) = 256 * 256 ^ width := Nat.pow_succ'
    rw [bigEndian, ofBigEndian_append_singleton, ih, UInt8.toNat_ofNat', hpow, Nat.mod_mul]
    omega

/-- A number that fits its width is read back unchanged. -/
lemma ofBigEndian_bigEndian {width n : Nat} (h : n < 256 ^ width) :
    ofBigEndian (bigEndian width n) = n := by
  rw [ofBigEndian_bigEndian_mod, Nat.mod_eq_of_lt h]

/-- A byte string of length `w` denotes a number below `256 ^ w`. -/
lemma ofBigEndian_lt (bytes : Bytes) : ofBigEndian bytes < 256 ^ bytes.length := by
  induction bytes using List.reverseRecOn with
  | nil => simp [ofBigEndian]
  | append_singleton bytes b ih =>
    rw [ofBigEndian_append_singleton, List.length_append, List.length_singleton, Nat.pow_succ]
    have hb : b.toNat < 256 := b.toNat_lt
    omega

/-- Writing back the number a byte string denotes gives the byte string. -/
lemma bigEndian_ofBigEndian (bytes : Bytes) :
    bigEndian bytes.length (ofBigEndian bytes) = bytes := by
  induction bytes using List.reverseRecOn with
  | nil => rfl
  | append_singleton bytes b ih =>
    have hb : b.toNat < 256 := b.toNat_lt
    have hdiv : (ofBigEndian bytes * 256 + b.toNat) / 256 = ofBigEndian bytes := by omega
    rw [ofBigEndian_append_singleton, List.length_append, List.length_singleton, bigEndian,
      hdiv, ih]
    congr 2
    apply UInt8.toNat_inj.mp
    rw [UInt8.toNat_ofNat']
    omega

end Wire
