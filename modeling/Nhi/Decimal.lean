import Nhi.Database

/-!
The numbers `%ld` prints, read back. A prefix of a number's digits is a number
that is not greater, which is all that is left of one cut short.
-/

namespace Nhi

def digitsValue (digits : Text) : Nat :=
  digits.foldl (fun value digit => 10 * value + (digit.toNat - 48)) 0

def decimalValue : Text → Int
  | [] => 0
  | first :: rest => if first = 45#8 then -(digitsValue rest) else digitsValue (first :: rest)

def digitBytes (value : Nat) : Text := (Nat.toDigits 10 value).map fun digit => BitVec.ofNat 8 digit.toNat

theorem decimal_eq (value : Long) :
    decimal value =
      if value.toInt < 0 then 45#8 :: digitBytes value.toInt.natAbs else digitBytes value.toInt.natAbs := rfl

section Digits

theorem toNat_digit {digit : Char} (isDigit : digit.isDigit) :
    (BitVec.ofNat 8 digit.toNat).toNat = digit.toNat ∧ 48 ≤ digit.toNat ∧ digit.toNat ≤ 57 := by
  have bounds : 48 ≤ digit.toNat ∧ digit.toNat ≤ 57 := by
    simpa [Char.isDigit, UInt32.le_iff_toNat_le] using isDigit
  refine ⟨?_, bounds⟩
  rw [BitVec.toNat_ofNat]
  exact Nat.mod_eq_of_lt (by omega)

theorem mem_digitBytes {value : Nat} {byte : Byte} (member : byte ∈ digitBytes value) :
    48 ≤ byte.toNat ∧ byte.toNat ≤ 57 := by
  obtain ⟨digit, inside, rfl⟩ := List.mem_map.mp member
  obtain ⟨same, low, high⟩ := toNat_digit (Nat.isDigit_of_mem_toDigits (by decide) (by decide) inside)
  rw [same]
  exact ⟨low, high⟩

theorem digitsValue_chars {digits : List Char} (all : ∀ digit ∈ digits, digit.isDigit) :
    digitsValue (digits.map fun digit => BitVec.ofNat 8 digit.toNat) = Nat.ofDigitChars 10 digits 0 := by
  rw [digitsValue, Nat.ofDigitChars_eq_foldl, List.foldl_map]
  generalize 0 = start
  induction digits generalizing start with
  | nil => rfl
  | cons digit rest ih =>
      obtain ⟨first, others⟩ := List.forall_mem_cons.mp all
      rw [List.foldl_cons, List.foldl_cons, (toNat_digit first).1]
      exact ih others _

theorem digitsValue_take (value count : Nat) : digitsValue ((digitBytes value).take count) ≤ value := by
  have all : ∀ digit ∈ Nat.toDigits 10 value, digit.isDigit :=
    fun digit => Nat.isDigit_of_mem_toDigits (by decide) (by decide)
  have split := List.take_append_drop count (Nat.toDigits 10 value)
  have whole : Nat.ofDigitChars 10 (Nat.toDigits 10 value) 0 = value := Nat.ofDigitChars_ten_toDigits
  rw [← split, Nat.ofDigitChars_append, Nat.ofDigitChars_eq_ofDigitChars_zero] at whole
  rw [digitBytes, ← List.map_take, digitsValue_chars fun digit member => all digit (List.mem_of_mem_take member)]
  have more := Nat.le_mul_of_pos_left (Nat.ofDigitChars 10 ((Nat.toDigits 10 value).take count) 0)
    (Nat.pow_pos (n := ((Nat.toDigits 10 value).drop count).length) (show 0 < 10 by decide))
  omega

theorem digitsValue_digitBytes (value : Nat) : digitsValue (digitBytes value) = value := by
  rw [digitBytes, digitsValue_chars fun digit => Nat.isDigit_of_mem_toDigits (by decide) (by decide)]
  exact Nat.ofDigitChars_ten_toDigits

end Digits

theorem decimalValue_digits {digits : Text} (all : ∀ byte ∈ digits, 48 ≤ byte.toNat) :
    decimalValue digits = digitsValue digits := by
  cases digits with
  | nil => rfl
  | cons first rest =>
      have apart : first ≠ 45#8 := by
        rintro rfl
        exact absurd (all _ (.head _)) (by decide)
      rw [decimalValue, if_neg apart]

theorem decimalValue_decimal (value : Long) : decimalValue (decimal value) = value.toInt := by
  rw [decimal_eq]
  split
  · rw [decimalValue, if_pos rfl, digitsValue_digitBytes]
    omega
  · rw [decimalValue_digits fun byte member => (mem_digitBytes member).1, digitsValue_digitBytes]
    omega

theorem decimal_injective {first second : Long} (same : decimal first = decimal second) :
    first = second := by
  apply BitVec.eq_of_toInt_eq
  rw [← decimalValue_decimal, same, decimalValue_decimal]

theorem mem_decimal {value : Long} {byte : Byte} (member : byte ∈ decimal value) :
    byte = 45#8 ∨ (48 ≤ byte.toNat ∧ byte.toNat ≤ 57) := by
  rw [decimal_eq] at member
  split at member
  · rcases List.mem_cons.mp member with rfl | digit
    · exact Or.inl rfl
    · exact Or.inr (mem_digitBytes digit)
  · exact Or.inr (mem_digitBytes member)

theorem decimal_noQuote (value : Long) : 96#8 ∉ decimal value := by
  intro member
  rcases mem_decimal member with same | bounds
  · exact absurd same (by decide)
  · exact absurd bounds (by decide)

theorem decimal_noNul (value : Long) : 0#8 ∉ decimal value := by
  intro member
  rcases mem_decimal member with same | bounds
  · exact absurd same (by decide)
  · exact absurd bounds (by decide)

/-- The first 11 characters of a number: the number itself when that is all, and
a greater one for a negative number that is longer. -/
theorem le_decimalValue_take {value : Long} (high : value.toInt ≤ 99999999999) :
    value.toInt ≤ decimalValue ((decimal value).take 11) := by
  rw [decimal_eq]
  split
  · rename_i negative
    have cut := digitsValue_take value.toInt.natAbs 10
    rw [List.take_succ_cons, decimalValue, if_pos rfl]
    omega
  · have short : (digitBytes value.toInt.natAbs).length ≤ 11 := by
      rw [digitBytes, List.length_map, Nat.length_toDigits_le_iff (by decide) (by decide)]
      omega
    rw [List.take_of_length_le short, decimalValue_digits fun byte member => (mem_digitBytes member).1,
      digitsValue_digitBytes]
    omega

theorem decimal_eleven {value : Long} (eleven : (decimal value).length = 11) : value.toInt ≤ 99999999999 := by
  rw [decimal_eq] at eleven
  split at eleven
  · omega
  · have few : (digitBytes value.toInt.natAbs).length ≤ 11 := Nat.le_of_eq eleven
    rw [digitBytes, List.length_map, Nat.length_toDigits_le_iff (by decide) (by decide)] at few
    omega

end Nhi
