import Nhi.FetchWhere
import Nhi.PythonSlice

/-!
A range of indices is a slice. Row k of a session has the rowid k + 1, and the
last row has no command yet: counting from the greatest rowid, a negative index
counts from the last command.
-/

namespace Nhi

open RowidTable
open Sql (ascii)

/-! Rows that are not shown print nothing. -/
section Shown

variable (platform : Platform) (nested : Text → Fetched) (options : Options)

end Shown

section Slices

variable {start stop : Text} {startValue stopValue : Option Int}

variable (platform : Platform) (options : Options) {completed : List Row} {pending : Row}

end Slices

end Nhi
