import Nhi.EscapeScan

/-!
How much of a recorded write depends on what earlier writes left in the per-CPU
buffer. The copied bytes end at `knownEnd`; the scan looks up to seven bytes
further, and a 7-byte write is sent with one byte more than was copied.
-/

namespace Nhi

open SlotTable

/-- The first position that still holds bytes of an earlier write. -/
def knownEnd (call : WriteCall) : Nat :=
  match call.buf with
  | some _ => cappedCount call.count + 1
  | none => 1

def clean (call : WriteCall) : Nat → Byte := filled call ⟨0#64, fun _ => 0#8⟩

theorem filled_known (call : WriteCall) (buffer : WriteBuffer) :
    ∀ p < knownEnd call, filled call buffer p = clean call p := by
  intro p known
  cases given : call.buf with
  | none =>
      have start : p = 0 := by
        simp only [knownEnd, given] at known
        omega
      simp [filled, clean, fillBuffer, given, start]
  | some readable =>
      simp only [knownEnd, given] at known
      by_cases start : p = 0
      · simp [filled, clean, fillBuffer, given, probeReadUser, start]
      · have copied : 1 ≤ p ∧ p < 1 + cappedCount call.count := by omega
        simp [filled, clean, fillBuffer, given, probeReadUser, copied]

theorem filled_stale (call : WriteCall) (buffer : WriteBuffer) {p : Nat}
    (stale : knownEnd call ≤ p) : filled call buffer p = buffer.output p := by
  cases given : call.buf with
  | none =>
      have notMarker : p ≠ 0 := by
        simp only [knownEnd, given] at stale
        omega
      simp [filled, fillBuffer, given, notMarker]
  | some readable =>
      simp only [knownEnd, given] at stale
      have notMarker : p ≠ 0 := by omega
      have notCopied : ¬ (1 ≤ p ∧ p < 1 + cappedCount call.count) := by omega
      simp [filled, fillBuffer, given, probeReadUser, notMarker, notCopied]

theorem filled_of_agree (call : WriteCall) {stream : Nat → Byte}
    (same : ∀ p < knownEnd call, stream p = clean call p) :
    filled call ⟨0#64, stream⟩ = stream := by
  funext p
  by_cases known : p < knownEnd call
  · rw [filled_known call _ p known, same p known]
  · exact filled_stale call _ (by omega)

theorem sent_past_known {call : WriteCall} (past : knownEnd call < outputSize (cappedCount call.count)) :
    knownEnd call ≤ 8 := by
  cases given : call.buf with
  | none => simp [knownEnd, given]
  | some readable =>
      simp only [knownEnd, given, outputSize] at past ⊢
      split at past <;> omega

def EntersInside (call : WriteCall) : Prop :=
  ∃ i < windowEnd call, 1 ≤ i ∧ i + alternateScreen.width ≤ knownEnd call ∧
    alternateScreen.OnAt (clean call) i

def LeadsInside (call : WriteCall) : Prop :=
  ∃ i < windowEnd call, 1 ≤ i ∧ i + alternateScreen.lead.length ≤ knownEnd call ∧
    alternateScreen.LeadAt (clean call) i

/-- The scan comes to a position where the stale bytes can complete a sequence. -/
def OpenInside (call : WriteCall) : Prop :=
  ∃ i < windowEnd call, 1 ≤ i ∧ alternateScreen.Open (clean call) (knownEnd call) i

instance (call : WriteCall) : Decidable (EntersInside call) :=
  inferInstanceAs (Decidable (∃ i < windowEnd call, _))

instance (call : WriteCall) : Decidable (OpenInside call) :=
  inferInstanceAs (Decidable (∃ i < windowEnd call, _))

theorem EntersInside.below {call : WriteCall} (enters : EntersInside call) (buffer : WriteBuffer) :
    EntersBelow (filled call buffer) (windowEnd call) := by
  obtain ⟨i, below, above, inside, on⟩ := enters
  exact ⟨i, below, above, (Switch.onAt_inside (filled_known call buffer) inside).mpr on⟩

section Closed

variable {call : WriteCall} (closed : ¬ OpenInside call) (buffer : WriteBuffer)

include closed

theorem closed_inside {i : Nat} (below : i < windowEnd call) (above : 1 ≤ i)
    (starts : alternateScreen.LeadAt (filled call buffer) i) :
    i + alternateScreen.width ≤ knownEnd call := by
  by_contra past
  exact closed ⟨i, below, above,
    Switch.leadAt_open (filled_known call buffer) starts (by omega)⟩

theorem closed_enters :
    EntersBelow (filled call buffer) (windowEnd call) ↔ EntersInside call := by
  constructor
  · rintro ⟨i, below, above, on⟩
    have inside := closed_inside closed buffer below above on.1
    exact ⟨i, below, above, inside, (Switch.onAt_inside (filled_known call buffer) inside).mp on⟩
  · exact fun enters => enters.below buffer

theorem closed_offAt {i : Nat} (below : i < windowEnd call) (above : 1 ≤ i) :
    alternateScreen.OffAt (filled call buffer) i ↔ alternateScreen.OffAt (clean call) i := by
  constructor
  · intro off
    have inside := closed_inside closed buffer below above off.1
    exact (Switch.offAt_inside (filled_known call buffer) inside).mp off
  · intro off
    have inside := closed_inside closed ⟨0#64, fun _ => 0#8⟩ below above off.1
    exact (Switch.offAt_inside (filled_known call buffer) inside).mpr off

theorem closed_leaves :
    LeavesBelow (filled call buffer) (windowEnd call) ↔
      LeavesBelow (clean call) (windowEnd call) :=
  exists_congr fun _ => and_congr_right fun below => and_congr_right fun above =>
    closed_offAt closed buffer below above

theorem closed_erase {p : Nat} (known : p < knownEnd call) :
    alternateScreen.erase (filled call buffer) 1 (windowEnd call) p =
      alternateScreen.erase (clean call) 1 (windowEnd call) p := by
  have same : alternateScreen.Erased (filled call buffer) 1 (windowEnd call) p ↔
      alternateScreen.Erased (clean call) 1 (windowEnd call) p :=
    exists_congr fun _ => and_congr_right fun below => and_congr_right fun above =>
      and_congr_left fun _ => closed_offAt closed buffer below above
  simp only [Switch.erase, same, filled_known call buffer p known]

theorem closed_erase_stale {p : Nat} (stale : knownEnd call ≤ p) :
    alternateScreen.erase (filled call buffer) 1 (windowEnd call) p = buffer.output p := by
  rw [Switch.erase, if_neg, filled_stale call buffer stale]
  rintro ⟨i, below, above, off, _, within⟩
  have inside := closed_inside closed buffer below above off.1
  omega

theorem closed_leads :
    LeadsBelow (filled call buffer) (windowEnd call) ↔ LeadsBelow (clean call) (windowEnd call) := by
  apply exists_congr
  intro i
  apply and_congr_right
  intro below
  apply and_congr_right
  intro above
  have congr (inside : i + alternateScreen.width ≤ knownEnd call) :
      alternateScreen.LeadAt (filled call buffer) i ↔ alternateScreen.LeadAt (clean call) i := by
    simp only [Switch.width] at inside
    exact Switch.leadAt_congr fun d within => filled_known call buffer _ (by omega)
  constructor
  · exact fun starts => (congr (closed_inside closed buffer below above starts)).mp starts
  · exact fun starts =>
      (congr (closed_inside closed ⟨0#64, fun _ => 0#8⟩ below above starts)).mpr starts

end Closed

def SameOutcome (first second : WriteResult) : Prop :=
  first.event = second.event ∧
    ∀ i, (first.shells.lookup i).map Shell.omitWrite = (second.shells.lookup i).map Shell.omitWrite

/-- The outcome is the same whatever the buffer held before. -/
def WriteAlone (call : WriteCall) (maps : Maps) : Prop :=
  ∀ room first second,
    SameOutcome (ksysWrite call room maps first) (ksysWrite call room maps second)

def SentKnown (call : WriteCall) : Prop := outputSize (cappedCount call.count) ≤ knownEnd call

/-- The copied bytes decide the outcome. Past the end of `shells` every lead
ends the program, without a flag to set. -/
def Settled (call : WriteCall) : Option Shell → Prop
  | some shell =>
      EntersInside call ∨
        ¬ OpenInside call ∧ (SentKnown call ∨ shell.omitWrite = 1#8)
  | none => LeadsInside call ∨ ¬ OpenInside call ∧ SentKnown call

/-- The first open sequence can be completed either way. -/
theorem open_completions {call : WriteCall} (opened : OpenInside call) (none : ¬ EntersInside call) :
    ∃ first second, EntersBelow (filled call first) (windowEnd call) ∧
      ¬ EntersBelow (filled call second) (windowEnd call) ∧
      LeavesBelow (filled call second) (windowEnd call) := by
  -- the first open position: no sequence starting earlier reaches past the copied bytes
  classical
  have below := (Nat.find_spec opened).1
  obtain ⟨above, opens⟩ := (Nat.find_spec opened).2
  have first : ∀ k < Nat.find opened, 1 ≤ k →
      ¬ alternateScreen.Open (clean call) (knownEnd call) k :=
    fun k before start openHere =>
      Nat.find_min opened before ⟨Nat.lt_trans before below, start, openHere⟩
  let completed (final : Byte) : Nat → Byte :=
    alternateScreen.complete (clean call) (knownEnd call) (Nat.find opened) final
  have seen (final : Byte) : filled call ⟨0#64, completed final⟩ = completed final :=
    filled_of_agree call (Switch.complete_known _ final)
  refine ⟨⟨0#64, completed 104#8⟩, ⟨0#64, completed 108#8⟩, ?_, ?_, ?_⟩
  · rw [seen]
    exact ⟨_, below, above, opens.leadAt _, opens.final _⟩
  · rw [seen]
    rintro ⟨j, belowJ, aboveJ, on⟩
    obtain ⟨known, inside⟩ := Switch.complete_off_onAt opens
      (fun k start before => first k before (Nat.le_trans aboveJ start)) on
    exact none ⟨j, belowJ, aboveJ, inside, known⟩
  · rw [seen]
    exact ⟨_, below, above, opens.leadAt _, opens.final _⟩

section Listed

variable {call : WriteCall} {found : Attribution} {shells : Shells} {shell : Shell}
  (entry : shells.lookup found.shellIndex = some shell) (positive : 1 ≤ call.count)

include entry positive

theorem enters_sameOutcome (enters : EntersInside call) (room : Bool) (first second : WriteBuffer) :
    SameOutcome (record call found room shells first) (record call found room shells second) := by
  have before := record_enter room entry positive (enters.below first)
  have after := record_enter room entry positive (enters.below second)
  exact ⟨before.2.trans after.2.symm, fun i => by rw [before.1, after.1]⟩

theorem open_separates (opened : OpenInside call) (none : ¬ EntersInside call) (room : Bool) :
    ∃ first second,
      ¬ SameOutcome (record call found room shells first) (record call found room shells second) := by
  obtain ⟨first, second, enters, passes, leaves⟩ := open_completions opened none
  refine ⟨first, second, ?_⟩
  rintro ⟨_, flags⟩
  have flag := flags found.shellIndex
  rw [(record_enter room entry positive enters).1, (record_pass room entry positive passes).1,
    lookup_setOmit entry, lookup_afterLeaves entry, if_pos leaves] at flag
  simp at flag

theorem stale_separates (closed : ¬ OpenInside call) (none : ¬ EntersInside call)
    (past : ¬ SentKnown call) (flag : shell.omitWrite ≠ 1#8) :
    ∃ first second,
      ¬ SameOutcome (record call found true shells first) (record call found true shells second) := by
  -- the first byte past the copied ones is sent as it was found
  refine ⟨⟨0#64, fun _ => 0#8⟩, ⟨0#64, fun _ => 1#8⟩, ?_⟩
  have event (buffer : WriteBuffer) :
      (record call found true shells buffer).event =
        emit true (cappedCount call.count)
          ⟨found.indicator, alternateScreen.erase (filled call buffer) 1 (windowEnd call)⟩ := by
    rw [(record_pass true entry positive (mt (closed_enters closed buffer).mp none)).2, if_neg]
    split
    · decide
    · exact flag
  rintro ⟨events, _⟩
  rw [event, event] at events
  have bytes := emit_output events (Nat.lt_of_not_le past)
  simp only [closed_erase_stale closed _ (Nat.le_refl _)] at bytes
  exact absurd bytes (by decide)

theorem closed_sameOutcome (closed : ¬ OpenInside call)
    (sent : SentKnown call ∨ shell.omitWrite = 1#8) (room : Bool) (first second : WriteBuffer) :
    SameOutcome (record call found room shells first) (record call found room shells second) := by
  by_cases enters : EntersInside call
  · exact enters_sameOutcome entry positive enters room first second
  have before := record_pass room entry positive
    (mt (closed_enters closed first).mp enters)
  have after := record_pass room entry positive
    (mt (closed_enters closed second).mp enters)
  constructor
  · rw [before.2, after.2]
    simp only [closed_leaves closed]
    by_cases omitted :
        (if LeavesBelow (clean call) (windowEnd call) then 0#8 else shell.omitWrite) = 1#8
    · rw [if_pos omitted, if_pos omitted]
    · rw [if_neg omitted, if_neg omitted]
      -- sent past the copied bytes and not omitted: too short for a leave
      have known : SentKnown call := by
        by_contra past
        have short := sent_past_known (Nat.lt_of_not_le past)
        have noLeave : ¬ LeavesBelow (clean call) (windowEnd call) := by
          rintro ⟨i, below, above, off⟩
          have inside := closed_inside closed ⟨0#64, fun _ => 0#8⟩ below above off.1
          have width8 : alternateScreen.width = 8 := rfl
          omega
        rw [if_neg noLeave] at omitted
        exact omitted (sent.resolve_left past)
      apply emit_congr
      · rfl
      intro p inside
      have below : p < knownEnd call := Nat.lt_of_lt_of_le inside known
      exact (closed_erase closed first below).trans (closed_erase closed second below).symm
  · intro i
    rw [before.1, after.1]
    simp only [afterLeaves, closed_leaves closed]

theorem listed_alone_iff :
    (∀ room first second,
      SameOutcome (record call found room shells first) (record call found room shells second)) ↔
      Settled call (some shell) := by
  constructor
  · intro alone
    by_cases enters : EntersInside call
    · exact Or.inl enters
    · have closed : ¬ OpenInside call := by
        intro opened
        obtain ⟨first, second, differ⟩ := open_separates entry positive opened enters true
        exact differ (alone true first second)
      apply Or.inr
      refine ⟨closed, ?_⟩
      by_contra neither
      obtain ⟨past, flag⟩ := not_or.mp neither
      obtain ⟨first, second, differ⟩ := stale_separates entry positive closed enters past flag
      exact differ (alone true first second)
  · rintro (enters | ⟨closed, sent⟩) room first second
    · exact enters_sameOutcome entry positive enters room first second
    · exact closed_sameOutcome entry positive closed sent room first second

end Listed

section Unlisted

variable {call : WriteCall} {found : Attribution} {shells : Shells}
  (missing : shells.lookup found.shellIndex = none) (positive : 1 ≤ call.count)

include missing positive

theorem leads_sameOutcome (leads : LeadsInside call) (room : Bool) (first second : WriteBuffer) :
    SameOutcome (record call found room shells first) (record call found room shells second) := by
  have seen (buffer : WriteBuffer) : LeadsBelow (filled call buffer) (windowEnd call) := by
    obtain ⟨i, below, above, inside, starts⟩ := leads
    have same : alternateScreen.LeadAt (filled call buffer) i ↔
        alternateScreen.LeadAt (clean call) i :=
      Switch.leadAt_congr fun d within => filled_known call buffer _ (by omega)
    exact ⟨i, below, above, same.mpr starts⟩
  have before := record_unlisted room first missing positive
  have after := record_unlisted room second missing positive
  rw [if_pos (seen _)] at before after
  exact ⟨before.2.trans after.2.symm, fun i => by rw [before.1, after.1]⟩

omit missing positive in
theorem clean_leads :
    LeadsBelow (clean call) (windowEnd call) ↔ LeadsInside call := by
  constructor
  · rintro ⟨i, below, above, starts⟩
    refine ⟨i, below, above, ?_, starts⟩
    by_contra past
    -- the first position past the copied bytes is still zero
    have zero : clean call (i + (knownEnd call - i)) = alternateScreen.blank :=
      filled_stale call _ (by omega)
    have seven : alternateScreen.lead.length = 7 := rfl
    have wanted := starts (knownEnd call - i) (by omega)
    rw [zero] at wanted
    exact alternateScreen.not_blank _ wanted
  · rintro ⟨i, below, above, _, starts⟩
    exact ⟨i, below, above, starts⟩

theorem unlisted_open_separates (opened : OpenInside call) (none : ¬ LeadsInside call) :
    ∃ first second,
      ¬ SameOutcome (record call found true shells first) (record call found true shells second) := by
  obtain ⟨i, below, above, opens⟩ := opened
  have seen : filled call ⟨0#64, alternateScreen.complete (clean call) (knownEnd call) i 104#8⟩ =
      alternateScreen.complete (clean call) (knownEnd call) i 104#8 :=
    filled_of_agree call (Switch.complete_known i _)
  refine ⟨⟨0#64, alternateScreen.complete (clean call) (knownEnd call) i 104#8⟩,
    ⟨0#64, fun _ => 0#8⟩, ?_⟩
  rintro ⟨events, _⟩
  have leads : LeadsBelow (alternateScreen.complete (clean call) (knownEnd call) i 104#8)
      (windowEnd call) := ⟨i, below, above, opens.leadAt _⟩
  have zeroed : filled call ⟨0#64, fun _ => 0#8⟩ = clean call := rfl
  rw [(record_unlisted true _ missing positive).2, (record_unlisted true _ missing positive).2,
    seen, if_pos leads, zeroed, if_neg (mt clean_leads.mp none)] at events
  simp [emit] at events

theorem unlisted_stale_separates (closed : ¬ OpenInside call) (none : ¬ LeadsInside call)
    (past : ¬ SentKnown call) :
    ∃ first second,
      ¬ SameOutcome (record call found true shells first) (record call found true shells second) := by
  refine ⟨⟨0#64, fun _ => 0#8⟩, ⟨0#64, fun _ => 1#8⟩, ?_⟩
  rintro ⟨events, _⟩
  rw [(record_unlisted true _ missing positive).2, (record_unlisted true _ missing positive).2,
    if_neg (mt ((closed_leads closed _).trans clean_leads).mp none),
    if_neg (mt ((closed_leads closed _).trans clean_leads).mp none)] at events
  have bytes := emit_output events (Nat.lt_of_not_le past)
  simp only [filled_stale call _ (Nat.le_refl _)] at bytes
  exact absurd bytes (by decide)

theorem unlisted_sameOutcome (closed : ¬ OpenInside call) (sent : SentKnown call) (room : Bool)
    (first second : WriteBuffer) :
    SameOutcome (record call found room shells first) (record call found room shells second) := by
  have before := record_unlisted room first missing positive
  have after := record_unlisted room second missing positive
  constructor
  · rw [before.2, after.2]
    simp only [closed_leads closed]
    by_cases leads : LeadsBelow (clean call) (windowEnd call)
    · rw [if_pos leads, if_pos leads]
    · rw [if_neg leads, if_neg leads]
      apply emit_congr
      · rfl
      intro p inside
      have below : p < knownEnd call := Nat.lt_of_lt_of_le inside sent
      exact (filled_known call first p below).trans (filled_known call second p below).symm
  · exact fun i => by rw [before.1, after.1]

theorem unlisted_alone_iff :
    (∀ room first second,
      SameOutcome (record call found room shells first) (record call found room shells second)) ↔
      Settled call none := by
  constructor
  · intro alone
    by_cases leads : LeadsInside call
    · exact Or.inl leads
    · have closed : ¬ OpenInside call := by
        intro opened
        obtain ⟨first, second, differ⟩ := unlisted_open_separates missing positive opened leads
        exact differ (alone true first second)
      apply Or.inr
      refine ⟨closed, ?_⟩
      by_contra past
      obtain ⟨first, second, differ⟩ :=
        unlisted_stale_separates missing positive closed leads past
      exact differ (alone true first second)
  · rintro (leads | ⟨closed, sent⟩) room first second
    · exact leads_sameOutcome missing positive leads room first second
    · exact unlisted_sameOutcome missing positive closed sent room first second

end Unlisted

theorem writeAlone_iff (call : WriteCall) (maps : Maps) :
    WriteAlone call maps ↔
      ∀ found, attributed call maps = some found →
        Settled call (maps.shells.lookup found.shellIndex) := by
  have cases (found : Attribution) (accepted : attributed call maps = some found) :
      WriteAlone call maps ↔ Settled call (maps.shells.lookup found.shellIndex) := by
    have positive := (ksysWrite_recorded accepted true ⟨0#64, fun _ => 0#8⟩).1
    have recorded (room : Bool) (buffer : WriteBuffer) :=
      (ksysWrite_recorded accepted room buffer).2
    unfold WriteAlone
    simp only [recorded]
    cases entry : maps.shells.lookup found.shellIndex with
    | none => exact unlisted_alone_iff entry positive
    | some shell => exact listed_alone_iff entry positive
  constructor
  · exact fun alone found accepted => (cases found accepted).mp alone
  · intro settled
    cases accepted : attributed call maps with
    | none =>
        intro room first second
        rw [ksysWrite_ignored accepted, ksysWrite_ignored accepted]
        exact ⟨rfl, fun _ => rfl⟩
    | some found => exact (cases found accepted).mpr (settled found accepted)

def leftBehind (bytes : Text) : WriteBuffer :=
  (ksysWrite (ttyWrite 3#32 bytes) true (tablesOf [1#32] [2#32, 3#32]) ⟨0#64, fun _ => 0#8⟩).buffer

/-- Process 2 writes `abcdefg`, then the first seven bytes of a sequence; both
times process 3 has written eight bytes before it. -/
theorem write_shows_leftover :
    ¬ SameOutcome
        (ksysWrite (ttyWrite 2#32 [97#8, 98#8, 99#8, 100#8, 101#8, 102#8, 103#8]) true
          (tablesOf [1#32] [2#32, 3#32]) (leftBehind (List.replicate 8 65#8)))
        (ksysWrite (ttyWrite 2#32 [97#8, 98#8, 99#8, 100#8, 101#8, 102#8, 103#8]) true
          (tablesOf [1#32] [2#32, 3#32]) (leftBehind (List.replicate 8 66#8))) ∧
      ¬ SameOutcome
        (ksysWrite (ttyWrite 2#32 alternateScreen.lead) true
          (tablesOf [1#32] [2#32, 3#32]) (leftBehind (List.replicate 8 104#8)))
        (ksysWrite (ttyWrite 2#32 alternateScreen.lead) true
          (tablesOf [1#32] [2#32, 3#32]) (leftBehind (List.replicate 8 108#8))) := by
  constructor
  · exact fun same => absurd same.1 (by decide)
  · exact fun same => absurd (same.2 0) (by decide)

end Nhi
