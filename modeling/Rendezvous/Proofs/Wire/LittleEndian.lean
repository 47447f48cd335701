import Mathlib.Data.Nat.Digits.Defs
import Rendezvous.Wire.LittleEndian

/-! # Writing and reading words

Writing digits and reading them back are inverse up to the width: `decode_encode`
says that writing keeps a number modulo `256 ^ width`, and `encode_decode` that
no other digits denote it.  The number is the one that the bytes are the digits of
(`decode_eq_ofDigits`).
-/

namespace Rendezvous.Wire.LittleEndian

@[simp] theorem length_encode (width n : Nat) : (encode width n).length = width := by
  induction width generalizing n with
  | zero => rfl
  | succ width inductionHypothesis => simp [encode, inductionHypothesis]

theorem decode_encode (width n : Nat) : decode (encode width n) = n % 256 ^ width := by
  induction width generalizing n with
  | zero => simp [encode, decode, Nat.mod_one]
  | succ width inductionHypothesis =>
    have power : 256 ^ (width + 1) = 256 * 256 ^ width := Nat.pow_succ'
    rw [power, Nat.mod_mul, encode, decode, inductionHypothesis, UInt8.toNat_ofNat']

theorem encode_decode (digits : Bytes) : encode digits.length (decode digits) = digits := by
  induction digits with
  | nil => rfl
  | cons digit digits inductionHypothesis =>
    have bound : digit.toNat < 256 := digit.toNat_lt
    have quotient : (digit.toNat + 256 * decode digits) / 256 = decode digits := by omega
    have remainder : UInt8.ofNat (digit.toNat + 256 * decode digits) = digit := by
      rw [← UInt8.toNat_inj, UInt8.toNat_ofNat']
      omega
    simp [encode, decode, quotient, remainder, inductionHypothesis]

theorem decode_eq_ofDigits (digits : Bytes) :
    decode digits = Nat.ofDigits 256 (digits.map UInt8.toNat) := by
  induction digits with
  | nil => rfl
  | cons digit digits inductionHypothesis =>
    rw [decode, List.map_cons, Nat.ofDigits_cons, inductionHypothesis]

theorem decode_lt (digits : Bytes) : decode digits < 256 ^ digits.length := by
  induction digits with
  | nil => simp [decode]
  | cons digit digits inductionHypothesis =>
    have bound : digit.toNat < 256 := digit.toNat_lt
    simp only [decode, List.length_cons, Nat.pow_succ']
    omega

end Rendezvous.Wire.LittleEndian
