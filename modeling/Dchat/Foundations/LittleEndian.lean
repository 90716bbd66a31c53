import Dchat.Foundations.Bytes
import Mathlib.Data.Nat.Digits.Defs
import Mathlib.Tactic.Common

/-!
# Numbers in little-endian order

The bytes of an unsigned number as a little-endian machine stores it, least significant byte first.
`ofLittleEndian_littleEndian` and `littleEndian_ofLittleEndian` are the two round trips.
-/

namespace Dchat

/-- The `k` low bytes of a number. -/
def littleEndian : ℕ → ℕ → Bytes
  | 0, _ => []
  | k + 1, n => n.toUInt8 :: littleEndian k (n / 256)

/-- The number that a string of bytes stands for. -/
def ofLittleEndian (s : Bytes) : ℕ := Nat.ofDigits 256 (s.map UInt8.toNat)

@[simp] theorem length_littleEndian (k n : ℕ) : (littleEndian k n).length = k := by
  induction k generalizing n with
  | zero => rfl
  | succ k ih => rw [littleEndian, List.length_cons, ih]

theorem ofLittleEndian_cons (b : UInt8) (s : Bytes) :
    ofLittleEndian (b :: s) = b.toNat + 256 * ofLittleEndian s := by
  rw [ofLittleEndian, List.map_cons, Nat.ofDigits_cons, ofLittleEndian]

theorem ofLittleEndian_lt (s : Bytes) : ofLittleEndian s < Nat.pow 256 s.length := by
  induction s with
  | nil => simp [ofLittleEndian]
  | cons b s ih =>
    have hb := b.toNat_lt
    have hpow : Nat.pow 256 (s.length + 1) = Nat.pow 256 s.length * 256 := rfl
    rw [ofLittleEndian_cons, List.length_cons, hpow]
    omega

/-- A number that fits is read back. -/
theorem ofLittleEndian_littleEndian {k n : ℕ} (h : n < Nat.pow 256 k) :
    ofLittleEndian (littleEndian k n) = n := by
  induction k generalizing n with
  | zero =>
    obtain rfl : n = 0 := by simpa using h
    rfl
  | succ k ih =>
    have hpow : Nat.pow 256 (k + 1) = Nat.pow 256 k * 256 := rfl
    rw [hpow] at h
    rw [littleEndian, ofLittleEndian_cons, ih (by omega)]
    simp only [Nat.toUInt8_eq, UInt8.toNat_ofNat']
    omega

/-- Every string of bytes is the text of the number it stands for. -/
theorem littleEndian_ofLittleEndian (s : Bytes) :
    littleEndian s.length (ofLittleEndian s) = s := by
  induction s with
  | nil => rfl
  | cons b s ih =>
    have hb := b.toNat_lt
    have hdiv : ofLittleEndian (b :: s) / 256 = ofLittleEndian s := by
      rw [ofLittleEndian_cons]
      omega
    have hmod : (ofLittleEndian (b :: s)).toUInt8 = b := by
      rw [← UInt8.toNat_inj, ofLittleEndian_cons, Nat.toUInt8_eq, UInt8.toNat_ofNat']
      omega
    rw [List.length_cons, littleEndian, hdiv, hmod, ih]

end Dchat
