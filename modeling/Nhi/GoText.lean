import Nhi.Decimal
import Nhi.SqlTokens

/-!
What pkg/ uses of Go's `strconv`, `strings` and `fmt`, on texts of bytes.
-/

namespace Nhi

open Sql (ascii isDigit unsigned signedNumber Spelled plainInteger maxInteger)

/-- `strconv.Atoi`: an optional sign and digits, within 64 bits. -/
def atoi (text : Text) : Option Int := plainInteger text

/-- A decimal integer of any size. -/
def integerOf (text : Text) : Option Int :=
  if unsigned text ≠ [] ∧ (unsigned text).all isDigit then some (signedNumber text) else none

def itoa (value : Int) : Text := decimal (BitVec.ofInt 64 value)

/-- `strings.TrimPrefix` and `strings.TrimSuffix` of one character. -/
def trimPrefix (first : Byte) (text : Text) : Text :=
  if text.head? = some first then text.tail else text

def trimSuffix (last : Byte) (text : Text) : Text :=
  if text.getLast? = some last then text.dropLast else text

/-- `strings.SplitN`. -/
def splitN (separator : Byte) : Nat → Text → List Text
  | 0, _ => []
  | 1, text => [text]
  | pieces + 2, text =>
      if separator ∈ text then
        text.takeWhile (· ≠ separator) ::
          splitN separator (pieces + 1) ((text.dropWhile (· ≠ separator)).drop 1)
      else [text]

section Texts

theorem bind_eq_ok {ε α β : Type} {first : Except ε α} {next : α → Except ε β} {result : β} :
    (first >>= next) = .ok result ↔ ∃ value, first = .ok value ∧ next value = .ok result := by
  cases first with
  | error message => simp [bind, Except.bind]
  | ok value => simp [bind, Except.bind]

theorem digitBytes_digits (value : Nat) : ∀ digit ∈ digitBytes value, isDigit digit := by
  intro digit member
  obtain ⟨low, high⟩ := mem_digitBytes member
  have bounds : 48#8 ≤ digit ∧ digit ≤ 57#8 := ⟨BitVec.le_def.mpr low, BitVec.le_def.mpr high⟩
  simp [isDigit, bounds]

theorem digitBytes_nonempty (value : Nat) : digitBytes value ≠ [] := by
  intro none
  have length : (digitBytes value).length = (Nat.toDigits 10 value).length := List.length_map _
  have positive : 0 < (Nat.toDigits 10 value).length := Nat.length_toDigits_pos
  rw [none] at length
  exact absurd length (by simp; omega)

/-- What `%ld` prints is read back as the number it was. -/
theorem decimal_spelled (value : Long) : Spelled (decimal value) value.toInt := by
  have low : -(9223372036854775808 : Int) ≤ value.toInt := BitVec.le_toInt value
  have high : value.toInt < 9223372036854775808 := BitVec.toInt_lt
  have read : Sql.digitsNumber 0 (digitBytes value.toInt.natAbs) = value.toInt.natAbs :=
    digitsValue_digitBytes _
  rw [decimal_eq]
  split
  · rename_i negative
    have same : value.toInt = -(Sql.digitsNumber 0 (digitBytes value.toInt.natAbs)) := by omega
    have bound : Sql.digitsNumber 0 (digitBytes value.toInt.natAbs) ≤ maxInteger + 1 := by
      rw [read, maxInteger]
      omega
    have spelled := Spelled.minus _ (digitBytes_nonempty _) (digitBytes_digits _) bound
    rwa [← same] at spelled
  · have same : value.toInt = Sql.digitsNumber 0 (digitBytes value.toInt.natAbs) := by omega
    have bound : Sql.digitsNumber 0 (digitBytes value.toInt.natAbs) ≤ maxInteger := by
      rw [read, maxInteger]
      omega
    have spelled := Spelled.plain _ (digitBytes_nonempty value.toInt.natAbs) (digitBytes_digits _) bound
    rwa [← same] at spelled

theorem itoa_spelled {value : Int} (low : -(maxInteger + 1) ≤ value) (high : value ≤ maxInteger) :
    Spelled (itoa value) value := by
  have spelled := decimal_spelled (BitVec.ofInt 64 value)
  have same : (BitVec.ofInt 64 value).toInt = value := by
    rw [maxInteger] at low high
    rw [BitVec.toInt_ofInt]
    exact Int.bmod_eq_of_le (by omega) (by omega)
  rwa [same] at spelled

theorem integerOf_atoi {text : Text} {value : Int} (read : atoi text = some value) : integerOf text = some value := by
  rw [atoi, Sql.plainInteger, Option.ite_none_right_eq_some] at read
  rw [integerOf, if_pos ⟨read.1.1, read.1.2.1⟩, read.2]

theorem integerOf_bytes {text : Text} {value : Int} (read : integerOf text = some value) :
    ∀ byte ∈ text, byte = 43#8 ∨ byte = 45#8 ∨ isDigit byte := by
  rw [integerOf, Option.ite_none_right_eq_some] at read
  have digits := List.all_eq_true.mp read.1.2
  intro byte member
  cases text with
  | nil => cases member
  | cons first rest =>
      rw [unsigned] at digits
      split_ifs at digits with sign
      · rcases List.mem_cons.mp member with rfl | later
        · exact sign.elim Or.inl fun minus => Or.inr (Or.inl minus)
        · exact Or.inr (Or.inr (digits byte later))
      · exact Or.inr (Or.inr (digits byte member))

theorem apart_of_bytes {text : Text} (bytes : ∀ byte ∈ text, byte = 43#8 ∨ byte = 45#8 ∨ isDigit byte = true)
    {byte : Byte} (other : byte ≠ 43#8 ∧ byte ≠ 45#8 ∧ isDigit byte = false) : byte ∉ text := by
  intro member
  rcases bytes byte member with rfl | rfl | digit
  · exact other.1 rfl
  · exact other.2.1 rfl
  · rw [other.2.2] at digit
    cases digit

theorem spelled_apart {text : Text} {value : Int} (spelled : Spelled text value) {byte : Byte}
    (other : byte ≠ 43#8 ∧ byte ≠ 45#8 ∧ isDigit byte = false) : byte ∉ text :=
  apart_of_bytes spelled.bytes other

theorem integerOf_apart {text : Text} {value : Int} (read : integerOf text = some value) {byte : Byte}
    (other : byte ≠ 43#8 ∧ byte ≠ 45#8 ∧ isDigit byte = false) : byte ∉ text :=
  apart_of_bytes (integerOf_bytes read) other

theorem splitN_cons {separator : Byte} {front : Text} (absent : separator ∉ front) (rest : Text) (pieces : Nat) :
    splitN separator (pieces + 2) (front ++ separator :: rest) = front :: splitN separator (pieces + 1) rest := by
  rw [splitN, if_pos (by simp), takeWhile_terminated absent, dropWhile_terminated absent, List.drop_one,
    List.tail_cons]

theorem splitN_two_iff {separator : Byte} {text front back : Text} :
    splitN separator 2 text = [front, back] ↔ text = front ++ separator :: back ∧ separator ∉ front := by
  constructor
  · intro split
    by_cases inside : separator ∈ text
    · obtain ⟨first, rest, rfl, absent⟩ := List.eq_append_cons_of_mem inside
      rw [splitN_cons absent, splitN, List.cons.injEq, List.cons.injEq] at split
      obtain ⟨rfl, rfl, _⟩ := split
      exact ⟨rfl, absent⟩
    · simp [splitN, inside] at split
  · rintro ⟨rfl, absent⟩
    rw [splitN_cons absent, splitN]

theorem cut_inj {separator : Byte} {front other back rest : Text} (absent : separator ∉ front)
    (absent' : separator ∉ other) (same : front ++ separator :: back = other ++ separator :: rest) :
    front = other ∧ back = rest := by
  have pieces : splitN separator 2 (front ++ separator :: back) = [front, back] :=
    splitN_two_iff.mpr ⟨rfl, absent⟩
  rw [splitN_two_iff.mpr ⟨same, absent'⟩, List.cons.injEq, List.cons.injEq] at pieces
  exact ⟨pieces.1.symm, pieces.2.1.symm⟩

theorem splitN_three_iff {separator : Byte} {text front middle back : Text} :
    splitN separator 3 text = [front, middle, back] ↔
      text = front ++ separator :: (middle ++ separator :: back) ∧ separator ∉ front ∧ separator ∉ middle := by
  constructor
  · intro split
    by_cases inside : separator ∈ text
    · obtain ⟨first, rest, rfl, absent⟩ := List.eq_append_cons_of_mem inside
      rw [splitN_cons absent, List.cons.injEq, splitN_two_iff] at split
      obtain ⟨rfl, rfl, absent'⟩ := split
      exact ⟨rfl, absent, absent'⟩
    · simp [splitN, inside] at split
  · rintro ⟨rfl, absent, absent'⟩
    rw [splitN_cons absent, splitN_two_iff.mpr ⟨rfl, absent'⟩]

end Texts

end Nhi
