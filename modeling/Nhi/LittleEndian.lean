import Mathlib.Algebra.Group.Nat.Defs
import Mathlib.Data.List.Basic

/-!
Little-endian bytes of fixed-width machine words, and reading a word back from
an offset inside a record.
-/

namespace LittleEndian

abbrev Byte := BitVec 8

def encode : Nat → Nat → List Byte
  | 0, _ => []
  | width + 1, value => BitVec.ofNat 8 value :: encode width (value / 256)

def decode : List Byte → Nat
  | [] => 0
  | byte :: rest => byte.toNat + 256 * decode rest

@[simp] theorem encode_length (width value : Nat) : (encode width value).length = width := by
  induction width generalizing value with
  | zero => rfl
  | succ width ih => simp [encode, ih]

theorem decode_encode (width value : Nat) :
    decode (encode width value) = value % 256 ^ width := by
  induction width generalizing value with
  | zero => simp [encode, decode, Nat.mod_one]
  | succ width ih =>
      have low : (BitVec.ofNat 8 value).toNat = value % 256 := BitVec.toNat_ofNat value 8
      calc decode (encode (width + 1) value)
          = value % 256 + 256 * (value / 256 % 256 ^ width) := by rw [encode, decode, low, ih]
        _ = value % (256 * 256 ^ width) := Nat.mod_mul.symm
        _ = value % 256 ^ (width + 1) := by rw [Nat.pow_succ, Nat.mul_comm]

def word {bits : Nat} (width : Nat) (value : BitVec bits) : List Byte := encode width value.toNat

def readWord (bits : Nat) (data : List Byte) (offset width : Nat) : BitVec bits :=
  BitVec.ofNat bits (decode ((data.drop offset).take width))

theorem readWord_word {bits : Nat} (before after : List Byte) (width : Nat)
    (value : BitVec bits) (fits : 2 ^ bits ≤ 256 ^ width) :
    readWord bits (before ++ word width value ++ after) before.length width = value := by
  have bound : value.toNat < 256 ^ width := Nat.lt_of_lt_of_le value.isLt fits
  simp [readWord, word, List.append_assoc, decode_encode,
    Nat.mod_eq_of_lt bound]

end LittleEndian
