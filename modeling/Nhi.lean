import Nhi.BorrowedEnviron
import Nhi.DaemonLives
import Nhi.DatabaseChanges
import Nhi.DaemonProgress
import Nhi.DateTimes
import Nhi.DecoderBounds
import Nhi.DeletionExactness
import Nhi.FetchSlices
import Nhi.FilePointer
import Nhi.FilterValues
import Nhi.LoggedSessions
import Nhi.NewNames
import Nhi.OneEntry
import Nhi.OutputForgery
import Nhi.OutputRoundTrip
import Nhi.RegistrationGap
import Nhi.RemoveSlices
import Nhi.RemovedChildren
import Nhi.RingReservation
import Nhi.SameCommands
import Nhi.SessionArguments
import Nhi.SessionCreation
import Nhi.QueryTexts
import Nhi.SessionEnds
import Nhi.SessionNames
import Nhi.SessionPairs
import Nhi.SharedDatabase
import Nhi.ShellVariables
import Nhi.TerminalNames
import Nhi.TerminalRuns
import Nhi.SessionClock
import Nhi.SlotMap
import Nhi.SessionOrigins
import Nhi.ThreadTracking
import Nhi.SwitchText
import Nhi.TrackingMaps
import Nhi.WriteAttribution
import Nhi.ListedRuns
import Nhi.LoggedRuns
