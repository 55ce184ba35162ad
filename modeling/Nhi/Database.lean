import Nhi.Common

/-!
daemon/src/sqlite.c over the part of SQLite it uses: one table of rows for each
session, named by the session's indicator, and the table `meta`. Rows are
oldest first, so the row with the greatest rowid is the last one. A statement
that fails (its table is missing, or is already there) is logged and has no
effect. `getenv` returns `none` for an unset variable; taking its length ends
the process.
-/

namespace Nhi

structure Row where
  PS1 : Option Text
  command : Option Text
  output : Text
  exitStatus : Option Text
  pwd : Option Text
  startTime : Option Long
  finishTime : Option Long
  indicator : Option Long
  deriving DecidableEq

structure MetaRow where
  indicator : Long
  name : Text
  startTime : Long
  finishTime : Option Long
  deriving DecidableEq

structure Database where
  tables : List (Long × List Row)
  metaTable : List MetaRow
  deriving DecidableEq

/-- `%ld`. -/
def decimal (value : Long) : Text :=
  let digits := (Nat.toDigits 10 value.toInt.natAbs).map fun digit => BitVec.ofNat 8 digit.toNat
  if value.toInt < 0 then 45#8 :: digits else digits

namespace Database

def empty : Database := ⟨[], []⟩

def rows (db : Database) (indicator : Long) : Option (List Row) :=
  (db.tables.find? fun table => table.1 = indicator).map Prod.snd

def lastRow (db : Database) (indicator : Long) : Option Row :=
  (db.rows indicator).bind List.getLast?

def mapTable (db : Database) (indicator : Long) (change : List Row → List Row) : Database :=
  { db with tables := db.tables.map fun table =>
      if table.1 = indicator then (table.1, change table.2) else table }

/-- `UPDATE .. WHERE rowid = (SELECT MAX(rowid) ..)`. -/
def updateLast (db : Database) (indicator : Long) (change : Row → Row) : Database :=
  db.mapTable indicator fun rows => rows.dropLast ++ (rows.getLast?.map change).toList

def createTable (db : Database) (indicator : Long) : Database :=
  if (db.rows indicator).isSome then db else { db with tables := db.tables ++ [(indicator, [])] }

def createRow (db : Database) (indicator : Long) : Database :=
  db.mapTable indicator fun rows => rows ++ [⟨none, none, [], none, none, none, none, none⟩]

def addPS1 (db : Database) (indicator : Long) (PS1 : Option Text) : Option Database :=
  PS1.map fun text => db.updateLast indicator fun row => { row with PS1 := some text }

def addCommand (db : Database) (indicator : Long) (command : Option Text) : Option Database :=
  command.map fun text => db.updateLast indicator fun row => { row with command := some text }

def addOutput (db : Database) (indicator : Long) (output : Text) : Database :=
  db.updateLast indicator fun row => { row with output := row.output ++ output }

def addExitStatus (db : Database) (indicator : Long) (exitStatus : Option Text) :
    Option Database :=
  exitStatus.map fun text =>
    db.updateLast indicator fun row => { row with exitStatus := some text }

def addPwd (db : Database) (indicator : Long) (pwd : Option Text) : Option Database :=
  pwd.map fun text => db.updateLast indicator fun row => { row with pwd := some text }

def addStartTime (db : Database) (indicator time : Long) : Database :=
  db.updateLast indicator fun row =>
    if row.startTime.isNone then { row with startTime := some time } else row

def addFinishTime (db : Database) (indicator time : Long) : Database :=
  db.updateLast indicator fun row => { row with finishTime := some time }

def addIndicator (db : Database) (indicator commandIndicator : Long) : Database :=
  db.updateLast indicator fun row => { row with indicator := some commandIndicator }

/-- The name is the first 11 bytes of a 16-byte array that `%ld` was printed to. -/
def metaCreateRow (db : Database) (indicator time : Long) (stack : Vector Byte 16) : Database :=
  { db with metaTable := db.metaTable ++
      [⟨indicator, (cString stack (decimal indicator)).toList.take 11, time, none⟩] }

def metaAddFinishTime (db : Database) (indicator time : Long) : Database :=
  { db with metaTable := db.metaTable.map fun row =>
      if row.indicator = indicator then { row with finishTime := some time } else row }

section Tables

variable (db : Database) (indicator : Long)

theorem contents_changed {α : Type} (tables : List (Long × α)) (indicator other : Long) (change : α → α) :
    ((tables.map fun table => if table.1 = indicator then (table.1, change table.2) else table).find?
        fun table => table.1 = other).map Prod.snd =
      ((tables.find? fun table => table.1 = other).map Prod.snd).map fun contents =>
        if other = indicator then change contents else contents := by
  induction tables with
  | nil => rfl
  | cons table rest ih =>
      by_cases here : table.1 = other
      · by_cases changed : table.1 = indicator
        · simp [here, ← changed]
        · have kept : other ≠ indicator := here ▸ changed
          simp [here, kept]
      · have passed : (if table.1 = indicator then (table.1, change table.2) else table).1 ≠ other := by
          split <;> exact here
        simpa [here, passed] using ih

theorem rows_mapTable (change : List Row → List Row) (other : Long) :
    (db.mapTable indicator change).rows other =
      (db.rows other).map fun rows => if other = indicator then change rows else rows :=
  contents_changed db.tables indicator other change

theorem lastRow_updateLast (change : Row → Row) (other : Long) :
    (db.updateLast indicator change).lastRow other =
      (db.lastRow other).map fun row => if other = indicator then change row else row := by
  simp only [lastRow, updateLast, rows_mapTable]
  cases db.rows other with
  | none => rfl
  | some contents =>
      by_cases same : other = indicator
      · rcases List.eq_nil_or_concat contents with rfl | ⟨front, last, rfl⟩
        · simp [same]
        · simp [same]
      · simp [same]

theorem updateLast_metaTable (change : Row → Row) :
    (db.updateLast indicator change).metaTable = db.metaTable := rfl

theorem lastRow_addOutput (output : Text) (other : Long) :
    (db.addOutput indicator output).lastRow other =
      (db.lastRow other).map fun row =>
        if other = indicator then { row with output := row.output ++ output } else row :=
  lastRow_updateLast db indicator _ other

end Tables

end Database

end Nhi
