import Nhi.GoText
import Nhi.SqlClauses

/-!
pkg/utils/gets.go: ranges of the form `start:end`, and the conditions built of
them. The texts of the endpoints, not the numbers, go into the queries.
-/

namespace Nhi

open Sql (ascii Comparator Numeral)

def billion : Int := 1000000000

/-- The two texts of a range; a border that is left out is 0 or one less than a
billion. -/
def getSliceStartEndRange (startEndRange : Text) (billion : Int) : Except Text (Text × Text) :=
  let startEndRange := trimSuffix 125#8 (trimPrefix 123#8 startEndRange)
  match splitN 58#8 2 startEndRange with
  | [start, stop] =>
      .ok (if start = [] then ascii "0" else start, if stop = [] then itoa (billion - 1) else stop)
  | _ => .error (ascii "Please specify range properly")

def getStartAndEndRangeInt (sliceStartEndRange : Text × Text) : Except Text (Int × Int) :=
  match atoi sliceStartEndRange.1 with
  | none => .error (ascii "Start range is not a number")
  | some start =>
      match atoi sliceStartEndRange.2 with
      | none => .error (ascii "End range is not a number")
      | some stop => .ok (start, stop)

/-- `GetRowidsFromRange`, one endpoint at a time. A border that was left out at
the end is not looked up. -/
def rowidStartRange (start : Text) (startInt billion : Int) (table : Text) : Text :=
  if startInt < 0 then
    ascii "(SELECT rowid FROM `" ++ table ++ ascii "` ORDER BY rowid DESC LIMIT 1 OFFSET " ++
      itoa (-1 * startInt - 1) ++ ascii ")"
  else if startInt < billion then
    ascii "(SELECT rowid FROM `" ++ table ++ ascii "` LIMIT 1 OFFSET " ++ start ++ ascii ")"
  else []

def rowidEndRange (stop : Text) (stopInt billion : Int) (table : Text) : Text :=
  if stopInt < 0 then
    ascii "(SELECT rowid FROM `" ++ table ++ ascii "` ORDER BY rowid DESC LIMIT 1 OFFSET " ++
      itoa (-1 * stopInt - 1) ++ ascii ")"
  else if stopInt < billion then
    if stopInt = billion - 1 then stop
    else ascii "(SELECT rowid FROM `" ++ table ++ ascii "` LIMIT 1 OFFSET " ++ stop ++ ascii ")"
  else []

def getRowidsFromRange (sliceStartEndRange : Text × Text) (startRangeInt endRangeInt billion : Int)
    (table : Text) : Text × Text :=
  (rowidStartRange sliceStartEndRange.1 startRangeInt billion table,
    rowidEndRange sliceStartEndRange.2 endRangeInt billion table)

def getWhereFromRange (sliceStartEndRange : Text × Text) (startRangeInt endRangeInt billion : Int)
    (table : Text) : Text :=
  let (rowidStartRange, rowidEndRange) :=
    getRowidsFromRange sliceStartEndRange startRangeInt endRangeInt billion table
  if startRangeInt < billion ∧ endRangeInt < billion then
    ascii "rowid >= " ++ rowidStartRange ++ ascii " AND rowid < " ++ rowidEndRange
  else if startRangeInt < billion then
    ascii "rowid >= " ++ rowidStartRange ++ ascii " AND indicator <= " ++ sliceStartEndRange.2
  else if endRangeInt < billion then
    ascii "indicator >= " ++ sliceStartEndRange.1 ++ ascii " AND rowid < " ++ rowidEndRange
  else
    ascii "indicator >= " ++ sliceStartEndRange.1 ++ ascii " AND indicator <= " ++ sliceStartEndRange.2

/-! The comparisons a range is made of. -/
section Comparators

def rowidFrom : Comparator := ⟨ascii "rowid >= ", ascii "rowid", .greaterEqual, fun _ => rfl⟩
def rowidAbove : Comparator := ⟨ascii "rowid > ", ascii "rowid", .greater, fun _ => rfl⟩
def rowidBelow : Comparator := ⟨ascii "rowid < ", ascii "rowid", .less, fun _ => rfl⟩
def rowidUpTo : Comparator := ⟨ascii "rowid <= ", ascii "rowid", .lessEqual, fun _ => rfl⟩
def indicatorFrom : Comparator :=
  ⟨ascii "indicator >= ", ascii "indicator", .greaterEqual, fun _ => rfl⟩
def indicatorUpTo : Comparator :=
  ⟨ascii "indicator <= ", ascii "indicator", .lessEqual, fun _ => rfl⟩

end Comparators

/-! The endpoints of a range as they are meant: left out, or a number. -/
section Endpoints

/-- A text that stands for an endpoint, below the bound when it is given. -/
inductive Endpoint (bound : Int) : Text → Option Int → Prop where
  | omitted : Endpoint bound [] none
  | given (text : Text) (value : Int) : atoi text = some value → value < bound →
      Endpoint bound text (some value)

def rangeText (braced : Bool) (start stop : Text) : Text :=
  let range := start ++ 58#8 :: stop
  if braced then 123#8 :: (range ++ [125#8]) else range

def borderText (given omitted : Text) : Text := if given = [] then omitted else given

theorem Endpoint.plain {bound : Int} {text : Text} {value : Option Int}
    (endpoint : Endpoint bound text value) {byte : Byte}
    (other : byte ≠ 43#8 ∧ byte ≠ 45#8 ∧ Sql.isDigit byte = false) : byte ∉ text := by
  cases endpoint with
  | omitted => exact List.not_mem_nil
  | given _ number read _ => exact spelled_apart (Sql.plainInteger_spelled read) other

theorem Endpoint.border_read {bound : Int} {text : Text} {value : Option Int}
    (endpoint : Endpoint bound text value) {omitted : Text} {usual : Int}
    (read : atoi omitted = some usual) :
    atoi (borderText text omitted) = some (value.getD usual) := by
  cases endpoint with
  | omitted => exact read
  | given _ value read' _ =>
      have nonempty : text ≠ [] := by
        rintro rfl
        cases read'
      rw [borderText, if_neg nonempty]
      exact read'

theorem Endpoint.numeral {bound : Int} {text : Text} {value : Option Int}
    (endpoint : Endpoint bound text value) {omitted : Text} {usual : Int}
    (spelled : Sql.Spelled omitted usual) :
    ∃ numeral : Numeral, numeral.text = borderText text omitted ∧
      atoi numeral.text = some numeral.value ∧ numeral.value = value.getD usual :=
  have read := endpoint.border_read spelled.read
  ⟨Numeral.ofText (Sql.plainInteger_spelled read), rfl, read, rfl⟩

theorem billion_spelled : Sql.Spelled (itoa (billion - 1)) (billion - 1) :=
  itoa_spelled (by decide) (by decide)

theorem backward_spelled {text : Text} {value : Int} (spelled : Sql.Spelled text value) :
    Sql.Spelled (itoa (-1 * value - 1)) (-1 * value - 1) := by
  have bounds := spelled.bounds
  exact itoa_spelled (by omega) (by omega)

section Range

variable {bound : Int} {start stop : Text} {startValue stopValue : Option Int}
  (starts : Endpoint bound start startValue) (stops : Endpoint bound stop stopValue)

include starts stops

theorem range_unbraced {brace : Byte} (other : brace ≠ 43#8 ∧ brace ≠ 45#8 ∧ Sql.isDigit brace = false)
    (noColon : brace ≠ 58#8) : brace ∉ start ++ 58#8 :: stop := by
  intro member
  rcases List.mem_append.mp member with front | back
  · exact starts.plain other front
  · rcases List.mem_cons.mp back with same | back
    · exact noColon same
    · exact stops.plain other back

theorem slice_rangeText (braced : Bool) (billion : Int) :
    getSliceStartEndRange (rangeText braced start stop) billion =
      .ok (borderText start (ascii "0"), borderText stop (itoa (billion - 1))) := by
  have colon : 58#8 ∉ start := starts.plain (by decide)
  have trimmed : trimSuffix 125#8 (trimPrefix 123#8 (rangeText braced start stop)) =
      start ++ 58#8 :: stop := by
    cases braced with
    | true =>
        have prefixed : trimPrefix 123#8 (rangeText true start stop) = start ++ 58#8 :: stop ++ [125#8] :=
          if_pos rfl
        rw [prefixed, trimSuffix, List.getLast?_concat, if_pos rfl, List.dropLast_concat]
    | false =>
        have noOpen : (start ++ 58#8 :: stop).head? ≠ some 123#8 := fun opened =>
          range_unbraced starts stops (by decide) (by decide) (List.mem_of_head? opened)
        have noClose : (start ++ 58#8 :: stop).getLast? ≠ some 125#8 := fun closed =>
          range_unbraced starts stops (by decide) (by decide) (List.mem_of_getLast? closed)
        rw [rangeText, if_neg (by decide), trimPrefix, if_neg noOpen, trimSuffix, if_neg noClose]
  rw [getSliceStartEndRange]
  simp only [trimmed, splitN_two_iff.mpr ⟨rfl, colon⟩]
  rfl

end Range

end Endpoints

end Nhi
