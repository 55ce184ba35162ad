import Nhi.FetchedRuns
import Nhi.OrderedKeys

/-!
When things happened. The times of a session are readings of the clock, in the
order in which the daemon took them, and so are the numbers of its commands. As
long as the clock does not go back, a range and dates select a piece of the session.
-/

namespace Nhi

open RunHistory RowidTable OrderedKeys
open Sql (ascii)

def Handling.time (handling : Handling) : Option Long :=
  match handling.call with
  | .handleKillSIGUSR _ => some handling.opening.time
  | .handleKillSIGRTMIN _ _ => some handling.outside.ending.time
  | .handleChildCreation _ | .handleShellExit _ => some handling.outside.time
  | .handleWrite _ _ _ => none

def Handling.number (handling : Handling) : Option Long :=
  match handling.call with
  | .handleKillSIGUSR _ => some (getIndicator handling.opening.now)
  | .handleKillSIGRTMIN _ _ => some (getIndicator handling.outside.ending.now)
  | .handleChildCreation _ | .handleShellExit _ | .handleWrite _ _ _ => none

def Row.times (row : Row) : List Long := row.startTime.toList ++ row.finishTime.toList

def SessionEvent.time : SessionEvent → Option Long
  | .started time => some time
  | .ended _ _ ending _ _ => some ending.time
  | .opened | .begun _ _ | .output _ => none

def SessionEvent.number : SessionEvent → Option Long
  | .ended _ _ ending _ _ => some (getIndicator ending.now)
  | .opened | .begun _ _ | .output _ | .started _ => none

structure Row.Open (row : Row) : Prop where
  finishTime : row.finishTime = none
  indicator : row.indicator = none

/-- What of a row comes from what the session is told. -/
structure Follows (kept : Row → List Long) (told : SessionEvent → Option Long) : Prop where
  blank : kept Row.blank = []
  begun : ∀ PS1 pwd row, kept (row.begun PS1 pwd) = kept row
  output : ∀ bytes row, kept (row.appendOutput bytes) = kept row
  started : ∀ time (row : Row), row.Open →
    (kept (row.setStartTime time)).Sublist (kept row ++ (told (.started time)).toList)
  ended : ∀ command exitStatus ending PS1 pwd (row : Row), row.Open →
    (kept (row.close command exitStatus ending)).Sublist
      (kept row ++ (told (.ended command exitStatus ending PS1 pwd)).toList)

theorem follows_times : Follows Row.times SessionEvent.time where
  blank := rfl
  begun _ _ _ := rfl
  output _ _ := rfl
  started time row unclosed := by
    rw [Row.setStartTime]
    split
    · rename_i unset
      simp [Row.times, SessionEvent.time, unclosed.finishTime, Option.isNone_iff_eq_none.mp unset]
    · exact List.sublist_append_left _ _
  ended command exitStatus ending PS1 pwd row unclosed := by
    simp [Row.times, Row.close, SessionEvent.time, unclosed.finishTime]

theorem follows_numbers : Follows (fun row => row.indicator.toList) SessionEvent.number where
  blank := rfl
  begun _ _ _ := rfl
  output _ _ := rfl
  started time row unclosed := by
    rw [Row.setStartTime]
    split <;> simp [SessionEvent.number]
  ended command exitStatus ending PS1 pwd row unclosed := by
    simp [Row.close, SessionEvent.number, unclosed.indicator]

def Session.column (kept : Row → List Long) (session : Session) : List Long :=
  session.flatMap fun recorded => kept recorded.row

def Session.Unclosed (session : Session) : Prop := ∀ recorded ∈ session.getLast?, recorded.row.Open

section Sessions

variable {kept : Row → List Long} {told : SessionEvent → Option Long} {session : Session}

theorem column_concat (front : Session) (last : Recorded) :
    Session.column kept (front ++ [last]) = front.column kept ++ kept last.row := by
  simp [Session.column]

theorem unclosed_concat {front : Session} {last : Recorded} :
    Session.Unclosed (front ++ [last]) ↔ last.row.Open := by
  simp [Session.Unclosed]

theorem changeLast_follows {change : Recorded → Recorded} {added : List Long} (unclosed : session.Unclosed)
    (more : ∀ recorded : Recorded, recorded.row.Open →
      (change recorded).row.Open ∧ (kept (change recorded).row).Sublist (kept recorded.row ++ added)) :
    Session.Unclosed (changeLast change session) ∧
      (Session.column kept (changeLast change session)).Sublist (session.column kept ++ added) := by
  rcases List.eq_nil_or_concat session with rfl | ⟨front, last, rfl⟩
  · exact ⟨unclosed, List.nil_sublist _⟩
  · rw [List.concat_eq_append] at unclosed ⊢
    obtain ⟨still, grown⟩ := more last (unclosed_concat.mp unclosed)
    rw [changeLast_concat, unclosed_concat, column_concat, column_concat, List.append_assoc]
    exact ⟨still, (List.append_sublist_append_left _).mpr grown⟩

theorem after_follows (follows : Follows kept told) (unclosed : session.Unclosed) (event : SessionEvent) :
    (session.after event).Unclosed ∧
      ((session.after event).column kept).Sublist (session.column kept ++ (told event).toList) := by
  have blank : Recorded.blank.row.Open := ⟨rfl, rfl⟩
  cases event with
  | opened =>
      rw [Session.after, unclosed_concat, column_concat, Recorded.blank, follows.blank, List.append_nil]
      exact ⟨blank, List.sublist_append_left _ _⟩
  | begun PS1 pwd =>
      refine changeLast_follows unclosed fun recorded waits => ⟨⟨waits.finishTime, waits.indicator⟩, ?_⟩
      rw [Recorded.change, follows.begun]
      exact List.sublist_append_left _ _
  | output event =>
      refine changeLast_follows unclosed fun recorded waits => ⟨⟨waits.finishTime, waits.indicator⟩, ?_⟩
      rw [Recorded.append, follows.output]
      exact List.sublist_append_left _ _
  | started time =>
      refine changeLast_follows unclosed fun recorded waits => ⟨?_, follows.started time recorded.row waits⟩
      obtain ⟨finishTime, indicator⟩ := waits
      simp only [Recorded.change, Row.setStartTime]
      split
      · exact ⟨finishTime, indicator⟩
      · exact ⟨finishTime, indicator⟩
  | ended command exitStatus ending PS1 pwd =>
      rw [Session.after]
      split
      · rename_i none
        subst none
        exact ⟨unclosed, List.nil_sublist _⟩
      · rw [unclosed_concat, column_concat]
        refine ⟨⟨rfl, rfl⟩, ?_⟩
        have begun : kept (Recorded.blank.change (Row.begun PS1 pwd) (begun_output PS1 pwd)).row = [] :=
          (follows.begun PS1 pwd Row.blank).trans follows.blank
        rw [begun, List.append_nil]
        -- the closed row is the last one, and was not closed before
        rcases List.eq_nil_or_concat session with rfl | ⟨front, last, rfl⟩
        · exact List.nil_sublist _
        · rw [List.concat_eq_append] at unclosed ⊢
          rw [changeLast_concat, column_concat, column_concat, List.append_assoc]
          exact (List.append_sublist_append_left _).mpr
            (follows.ended command exitStatus ending PS1 pwd last.row (unclosed_concat.mp unclosed))

theorem foldl_follows (follows : Follows kept told) (events : List SessionEvent) (unclosed : session.Unclosed) :
    ((events.foldl Session.after session).column kept).Sublist (session.column kept ++ events.filterMap told) := by
  induction events generalizing session with
  | nil => simp
  | cons event rest ih =>
      obtain ⟨still, grown⟩ := after_follows follows unclosed event
      have later := (ih still).trans (grown.append_right (rest.filterMap told))
      rw [List.foldl_cons]
      refine later.trans ?_
      rw [List.append_assoc]
      refine (List.append_sublist_append_left _).mpr ?_
      cases shown : told event <;> simp [shown]

end Sessions

section Runs

variable {past : List (World × Label)} {world : World}

theorem opening_silent {told : SessionEvent → Option Long} (opened : told .opened = none)
    (begun : ∀ PS1 pwd, told (.begun PS1 pwd) = none) (output : ∀ event, told (.output event) = none)
    {handling : Handling} {killEvent : KillEvent} (call : handling.call = .handleKillSIGUSR killEvent)
    (indicator : Long) : (handling.tells indicator).filterMap told = [] := by
  have closing : handling.closing.tells.filterMap told = [] := by
    rw [Closing.tells]
    split
    · rfl
    · split
      · simp [begun]
      · rfl
  simp only [Handling.tells, call, List.filterMap_append, List.append_eq_nil_iff]
  constructor
  · split <;> simp [output]
  · split
    · rw [List.filterMap_cons_none opened, closing]
    · rfl

theorem tells_time (indicator : Long) (handling : Handling) :
    ((handling.tells indicator).filterMap SessionEvent.time).Sublist handling.time.toList ∧
      ((handling.tells indicator).filterMap SessionEvent.number).Sublist handling.number.toList := by
  cases call : handling.call with
  | handleKillSIGUSR killEvent =>
      rw [opening_silent rfl (fun _ _ => rfl) (fun _ => rfl) call, opening_silent rfl (fun _ _ => rfl) (fun _ => rfl) call]
      exact ⟨List.nil_sublist _, List.nil_sublist _⟩
  | handleKillSIGRTMIN killEvent dataSz =>
      simp only [Handling.tells, Handling.time, Handling.number, call]
      split
      · rw [CommandEnd.tells]
        split <;> simp [SessionEvent.time, SessionEvent.number]
      · simp
  | handleChildCreation | handleWrite =>
      simp only [Handling.tells, Handling.time, Handling.number, call]
      split <;> simp [SessionEvent.time, SessionEvent.number]
  | handleShellExit => simp [Handling.tells, call]

theorem told_sublist (told : SessionEvent → Option Long) (read : Handling → Option Long) (indicator : Long)
    (tells : ∀ handling : Handling, ((handling.tells indicator).filterMap told).Sublist (read handling).toList)
    (list : List Handling) :
    ((list.flatMap (Handling.tells indicator)).filterMap told).Sublist (list.filterMap read) := by
  induction list with
  | nil => exact List.Sublist.refl _
  | cons handling rest ih =>
      have both := (tells handling).append ih
      rw [List.flatMap_cons, List.filterMap_append]
      refine both.trans ?_
      cases shown : read handling <;> simp [shown]

theorem recorded_follows {kept : Row → List Long} {told : SessionEvent → Option Long} (follows : Follows kept told)
    {read : Handling → Option Long} {indicator : Long}
    (tells : ∀ handling : Handling, ((handling.tells indicator).filterMap told).Sublist (read handling).toList)
    (past : List (World × Label)) :
    ((recorded past indicator).column kept).Sublist ((handlings past).reverse.filterMap read) := by
  have start : Session.Unclosed [] := fun _ none => absurd none (by simp)
  have events := foldl_follows follows ((handlings past).reverse.flatMap (Handling.tells indicator)) start
  exact events.trans (told_sublist told read indicator tells (handlings past).reverse)

theorem column_rows {kept : Row → List Long} (run : Run step World.start past world) (idle : world.daemon = .idle)
    {indicator : Long} {rows : List Row} (found : world.db.rows indicator = some rows) :
    rows.flatMap kept = (recorded past indicator).column kept := by
  rw [idle_table run idle, Session.table] at found
  split at found
  · cases found
  · obtain rfl := Option.some.inj found
    rw [List.flatMap_map, Session.column]

theorem rows_follow (run : Run step World.start past world) (idle : world.daemon = .idle)
    {indicator : Long} {rows : List Row} (found : world.db.rows indicator = some rows) :
    (rows.flatMap Row.times).Sublist ((handlings past).reverse.filterMap Handling.time) ∧
      (rows.filterMap Row.indicator).Sublist ((handlings past).reverse.filterMap Handling.number) := by
  have numbers : rows.filterMap Row.indicator = rows.flatMap fun row => row.indicator.toList :=
    List.filterMap_eq_flatMap_toList ..
  rw [numbers, column_rows run idle found, column_rows run idle found]
  exact ⟨recorded_follows follows_times (fun handling => (tells_time indicator handling).1) past,
    recorded_follows follows_numbers (fun handling => (tells_time indicator handling).2) past⟩

/-- The start and finish times of a session, row by row, are readings of the
clock in the order in which the daemon took them, none of them twice; and so are
the indicators of its commands. -/
theorem session_times (run : Run step World.start past world) (idle : world.daemon = .idle)
    {indicator : Long} {rows : List Row} (found : world.db.rows indicator = some rows) :
    (rows.flatMap Row.times).Sublist ((handlings past).reverse.filterMap Handling.time) ∧
      (rows.filterMap Row.indicator).Sublist ((handlings past).reverse.filterMap Handling.number) :=
  rows_follow run idle found

def timedOutside (seconds : Long) : Outside :=
  ⟨seconds, ⟨some [112#8], some [48#8], seconds, ⟨seconds, 0#64⟩, some [36#8], some [47#8]⟩⟩

def twoTimed : List Label :=
  registration 1#32 ++ [.fork 1#32 2#32 true, .take (timedOutside 1600000005#64), .kill 1#32 SIGRTMIN nhidHash true,
    .take (timedOutside 1600000006#64), .fork 1#32 3#32 true, .take (timedOutside 1600000007#64),
    .kill 1#32 SIGRTMIN nhidHash true, .take (timedOutside 1600000008#64)]

theorem session_times_two :
    ∃ past world rows, Run step World.start past world ∧ world.db.rows 16000000000#64 = some rows ∧
      (rows.flatMap Row.times).length = 4 ∧
      (rows.flatMap Row.times).Sublist ((handlings past).reverse.filterMap Handling.time) ∧
      (rows.filterMap Row.indicator).Sublist ((handlings past).reverse.filterMap Handling.number) := by
  obtain ⟨past, world, run, idle, times⟩ := replay_some step World.start twoTimed
    (fun _ world => world.daemon = .idle ∧
      (world.db.rows 16000000000#64).map (fun rows => (rows.flatMap Row.times).length) = some 4) (by decide +kernel)
  obtain ⟨rows, found, four⟩ := Option.map_eq_some_iff.mp times
  exact ⟨past, world, rows, run, found, four, session_times run idle found⟩

end Runs

/-! What is selected by place, by indicator and by date. -/
section Pieces

def byIndicator (value : Option Int) : Bool := value.any fun number => billion ≤ number

def Row.comparable (startValue stopValue : Option Int) (latest earliest : Option Long) (row : Row) : Bool :=
  (!byIndicator startValue || row.indicator.isSome) && (!byIndicator stopValue || row.indicator.isSome) &&
    ((latest.isNone || row.startTime.isSome) && (earliest.isNone || row.startTime.isSome))

/-- The clock does not go back between two readings of a run. -/
structure ClockOn (past : List (World × Label)) : Prop where
  times : ((handlings past).reverse.filterMap Handling.time).Pairwise fun earlier later => earlier.toInt ≤ later.toInt
  numbers : ((handlings past).reverse.filterMap Handling.number).Pairwise fun earlier later =>
    earlier.toInt ≤ later.toInt

def startKey (entry : Nat × Row) : Option Int := entry.2.startTime.map BitVec.toInt

def indicatorKey (entry : Nat × Row) : Option Int := entry.2.indicator.map BitVec.toInt

variable {rows : List Row}

theorem rowids_ordered (rows : List Row) : Ordered (fun entry : Nat × Row => some entry.1) (number rows) := by
  have rowids : (number rows).filterMap (fun entry => some entry.1) = List.range' 1 rows.length := by
    rw [List.filterMap_eq_map', rowids_number]
  rw [Ordered, rowids]
  exact List.pairwise_le_range'

theorem startTest_upward (highest : Option Nat) {value : Int} (small : value < billion) (lower upper : Nat)
    (less : lower ≤ upper) (above : startTest highest value lower Row.blank = true) :
    startTest highest value upper Row.blank = true := by
  by_cases negative : value < 0
  · rw [startTest, if_pos negative] at above ⊢
    cases highest with
    | none => cases above
    | some most =>
        simp only [Option.bind_eq_bind, Option.bind_some, Option.pure_def, Option.any_some, decide_eq_true_eq] at above ⊢
        omega
  · rw [startTest, if_neg negative, if_pos small, decide_eq_true_eq] at above ⊢
    omega

theorem stopTest_downward (highest : Option Nat) {value : Int} (small : value < billion) (lower upper : Nat)
    (less : lower ≤ upper) (below : stopTest highest value upper Row.blank = true) :
    stopTest highest value lower Row.blank = true := by
  by_cases negative : value < 0
  · rw [stopTest, if_pos negative] at below ⊢
    cases highest with
    | none => cases below
    | some most =>
        simp only [Option.bind_eq_bind, Option.bind_some, Option.pure_def, Option.any_some, decide_eq_true_eq] at below ⊢
        omega
  · rw [stopTest, if_neg negative, if_pos small, decide_eq_true_eq] at below ⊢
    omega

theorem byIndicator_iff (value : Option Int) {omitted : Int} (small : omitted < billion) :
    byIndicator value = true ↔ ¬ value.getD omitted < billion := by
  cases value with
  | none => simp [byIndicator, small]
  | some number => simp [byIndicator]

theorem startTest_cuts (numbered : Ordered indicatorKey (number rows)) (highest : Option Nat) (value : Option Int) :
    Cuts (fun entry => startTest highest (value.getD 0) entry.1 entry.2)
      (fun entry => !byIndicator value || entry.2.indicator.isSome) (number rows) := by
  have border := byIndicator_iff value (show (0 : Int) < billion by decide)
  by_cases small : value.getD 0 < billion
  · refine ((rowids_ordered rows).cuts_above _ (startTest_upward highest small)).congr ?_ ?_
    · intro entry _
      simp only [startTest, small, if_true, Option.any_some]
    · intro entry _
      simp [Bool.eq_false_iff.mpr (mt border.mp (not_not.mpr small))]
  · have upward (lower upper : Int) (less : lower ≤ upper) (above : decide (value.getD 0 ≤ lower) = true) :
        decide (value.getD 0 ≤ upper) = true := by
      rw [decide_eq_true_eq] at above ⊢
      omega
    refine (numbered.cuts_above _ upward).congr ?_ ?_
    · intro entry _
      have nonneg : ¬ value.getD 0 < 0 := fun negative => small (Int.lt_trans negative (by decide))
      rw [startTest, if_neg nonneg, if_neg small, indicatorKey, Option.any_map]
    · intro entry _
      simp [border.mpr small, indicatorKey]

theorem stopTest_cuts (numbered : Ordered indicatorKey (number rows)) (highest : Option Nat) (value : Option Int) :
    Cuts (fun entry => stopTest highest (value.getD (billion - 1)) entry.1 entry.2)
      (fun entry => !byIndicator value || entry.2.indicator.isSome) (number rows) := by
  have border := byIndicator_iff value (show billion - 1 < billion by decide)
  by_cases small : value.getD (billion - 1) < billion
  · refine ((rowids_ordered rows).cuts_below _ (stopTest_downward highest small)).congr ?_ ?_
    · intro entry _
      simp only [stopTest, small, if_true, Option.any_some]
    · intro entry _
      simp [Bool.eq_false_iff.mpr (mt border.mp (not_not.mpr small))]
  · have downward (lower upper : Int) (less : lower ≤ upper) (below : decide (upper ≤ value.getD (billion - 1)) = true) :
        decide (lower ≤ value.getD (billion - 1)) = true := by
      rw [decide_eq_true_eq] at below ⊢
      omega
    refine (numbered.cuts_below _ downward).congr ?_ ?_
    · intro entry _
      have nonneg : ¬ value.getD (billion - 1) < 0 := fun negative => small (Int.lt_trans negative (by decide))
      rw [stopTest, if_neg nonneg, if_neg small, indicatorKey, Option.any_map]
    · intro entry _
      simp [border.mpr small, indicatorKey]

theorem beforeTest_cuts (timed : Ordered startKey (number rows)) (latest : Option Long) :
    Cuts (fun entry => beforeTest latest entry.2) (fun entry => latest.isNone || entry.2.startTime.isSome)
      (number rows) := by
  cases latest with
  | none => exact (cuts_all (number rows)).congr (fun _ _ => rfl) fun _ _ => rfl
  | some seconds =>
      have downward (lower upper : Int) (less : lower ≤ upper) (below : decide (upper < seconds.toInt) = true) :
          decide (lower < seconds.toInt) = true := by
        rw [decide_eq_true_eq] at below ⊢
        omega
      refine (timed.cuts_below _ downward).congr (fun entry _ => ?_) fun entry _ => ?_
      · rw [beforeTest, Option.all_some, startKey, Option.any_map]
      · simp [startKey]

theorem afterTest_cuts (timed : Ordered startKey (number rows)) (earliest : Option Long) :
    Cuts (fun entry => afterTest earliest entry.2) (fun entry => earliest.isNone || entry.2.startTime.isSome)
      (number rows) := by
  cases earliest with
  | none => exact (cuts_all (number rows)).congr (fun _ _ => rfl) fun _ _ => rfl
  | some seconds =>
      have upward (lower upper : Int) (less : lower ≤ upper) (above : decide (seconds.toInt < lower) = true) :
          decide (seconds.toInt < upper) = true := by
        rw [decide_eq_true_eq] at above ⊢
        omega
      refine (timed.cuts_above _ upward).congr (fun entry _ => ?_) fun entry _ => ?_
      · rw [afterTest, Option.all_some, startKey, Option.any_map]
      · simp [startKey]

theorem tests_cut (timed : Ordered startKey (number rows)) (numbered : Ordered indicatorKey (number rows))
    (startValue stopValue : Option Int) (latest earliest : Option Long) :
    Cuts (fun entry => rangeTest (number rows) startValue stopValue entry.1 entry.2 &&
        (beforeTest latest entry.2 && afterTest earliest entry.2))
      (fun entry => entry.2.comparable startValue stopValue latest earliest) (number rows) :=
  ((startTest_cuts numbered _ startValue).and (stopTest_cuts numbered _ stopValue)).and
    ((beforeTest_cuts timed latest).and (afterTest_cuts timed earliest))

theorem keys_ordered {keys : List Long} (sorted : keys.Pairwise fun earlier later => earlier.toInt ≤ later.toInt)
    {column : Row → Option Long} (sublist : (rows.filterMap column).Sublist keys) :
    Ordered (fun entry : Nat × Row => (column entry.2).map BitVec.toInt) (number rows) := by
  have entries : (number rows).filterMap (fun entry => (column entry.2).map BitVec.toInt) =
      (rows.filterMap column).map BitVec.toInt := by
    conv_rhs => rw [← rows_number rows, List.filterMap_map, List.map_filterMap]
    rfl
  rw [Ordered, entries, List.pairwise_map]
  exact sorted.sublist sublist

variable {past : List (World × Label)} {world : World}

theorem starts_sublist (rows : List Row) : (rows.filterMap Row.startTime).Sublist (rows.flatMap Row.times) := by
  induction rows with
  | nil => exact List.Sublist.refl _
  | cons row rest ih =>
      rw [List.flatMap_cons, Row.times, List.append_assoc]
      cases started : row.startTime with
      | none =>
          rw [List.filterMap_cons_none started]
          exact ih.trans (List.sublist_append_right _ _)
      | some time =>
          rw [List.filterMap_cons_some started]
          exact (ih.trans (List.sublist_append_right _ _)).cons_cons time

/-- As long as the clock does not go back, whatever range and dates are given, by
place or by indicator, `nhi fetch` shows a piece of the session, less the commands
that have not got what they would be compared with and those of another directory. -/
theorem fetch_piece (platform : Platform) (localTime : LocalTime) (unread : Text → Except Text (List SelectedRow))
    (nested : Text → Fetched) (options : Options) (run : Run step World.start past world)
    (idle : world.daemon = .idle) (clock : ClockOn past) {indicator : Long} {rows : List Row}
    (found : world.db.rows indicator = some rows) {bound : Int} {start stop : Text} {startValue stopValue : Option Int}
    (starts : Endpoint bound start startValue) (stops : Endpoint bound stop stopValue) (braced : Bool)
    {directory before after : Text} (plain : Plain directory) {latest earliest : Option Civil}
    (untilThen : Moment (ascii "before") before latest) (since : Moment (ascii "after") after earliest) :
    ∃ piece, piece <:+: rows ∧
      fetchRequest platform localTime unread nested options world.db.numbered (decimal indicator)
          ⟨rangeText braced start stop, [], directory, before, after⟩ =
        .ok (printRows platform nested options ((piece.filter fun row => directoryTest directory row &&
          row.comparable startValue stopValue (latest.map localTime) (earliest.map localTime)).map Row.selected)) := by
  obtain ⟨times, numbers⟩ := rows_follow run idle found
  have timed : Ordered startKey (number rows) := keys_ordered clock.times ((starts_sublist rows).trans times)
  have numbered : Ordered indicatorKey (number rows) := keys_ordered clock.numbers numbers
  have table : world.db.numbered.table indicator = some (number rows) := by
    rw [numbered_table, found, Option.map_some]
  obtain ⟨text, written, selected⟩ := request_rows localTime table starts stops braced plain_nil plain untilThen since
  obtain ⟨part, inside, same⟩ := (tests_cut timed numbered startValue stopValue (latest.map localTime)
    (earliest.map localTime)).whole
  refine ⟨part.map Prod.snd, ?_, ?_⟩
  · have entries := inside.map Prod.snd
    rwa [rows_number] at entries
  · -- the directory is asked of the rows of the piece
    have directories : Sql.matching (fun rowid row => (([] : Text) ≠ [] ||
          rangeTest (number rows) startValue stopValue rowid row) &&
          meetsFilters [] directory (latest.map localTime) (earliest.map localTime) row) (number rows) =
        (part.filter fun entry => entry.2.comparable startValue stopValue (latest.map localTime)
          (earliest.map localTime)).filter fun entry => directoryTest directory entry.2 := by
      rw [← same, List.filter_filter]
      refine List.filter_congr fun entry _ => ?_
      have unfiltered : exitTest [] entry.2 = true := rfl
      simp only [ne_eq, not_true_eq_false, decide_false, Bool.false_or, meetsFilters, unfiltered, Bool.true_and]
      ac_rfl
    rw [directories] at selected
    simp only [fetchRequest, written, selected, bind, Except.bind, pure, Except.pure]
    rw [List.filter_filter, List.filter_map, List.map_map]
    rfl

theorem fetch_piece_later :
    ∃ past world rows piece, Run step World.start past world ∧ world.db.rows 16000000000#64 = some rows ∧
      piece <:+: rows ∧
      fetchRequest samplePlatform (fun _ => 1600000005#64) (fun _ => .error []) (fun _ => ⟨[], .failed⟩) ⟨[], true, true⟩
          world.db.numbered (decimal 16000000000#64)
          ⟨rangeText true (ascii "16000000060") [], [], ascii "/", [], ascii "2020-09-13 12:26:45"⟩ =
        .ok (printRows samplePlatform (fun _ => ⟨[], .failed⟩) ⟨[], true, true⟩ ((piece.filter fun row =>
          directoryTest (ascii "/") row &&
            row.comparable (some 16000000060) none none (some 1600000005#64)).map Row.selected)) := by
  obtain ⟨past, world, run, idle, times, numbers, there⟩ := replay_some step World.start twoTimed
    (fun past world => world.daemon = .idle ∧
      ((handlings past).reverse.filterMap Handling.time).Pairwise (fun earlier later => earlier.toInt ≤ later.toInt) ∧
      ((handlings past).reverse.filterMap Handling.number).Pairwise
        (fun earlier later => earlier.toInt ≤ later.toInt) ∧
      (world.db.rows 16000000000#64).isSome) (by decide +kernel)
  obtain ⟨rows, found⟩ := Option.isSome_iff_exists.mp there
  have starts : Endpoint 16000000061 (ascii "16000000060") (some 16000000060) :=
    .given (ascii "16000000060") 16000000060 (by decide) (by decide)
  have plain : Plain (ascii "/") := by decide
  have since : Moment (ascii "after") (ascii "2020-09-13 12:26:45") (some ⟨2020, 9, 13, 12, 26, 45⟩) :=
    .given _ _ (by decide) rfl
  obtain ⟨piece, inside, shown⟩ := fetch_piece samplePlatform (fun _ => 1600000005#64) (fun _ => .error [])
    (fun _ => ⟨[], .failed⟩) ⟨[], true, true⟩ run idle ⟨times, numbers⟩ found starts .omitted true plain .omitted since
  exact ⟨past, world, rows, piece, run, found, inside, shown⟩

end Pieces

end Nhi
