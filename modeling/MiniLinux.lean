import MiniLinux.Laboratory.System
import MiniLinux.Laboratory.Spawning
import MiniLinux.Memory.VmRuns
import MiniLinux.Laboratory.KernelState
import MiniLinux.Laboratory.Processes
import MiniLinux.Laboratory.Switching
import MiniLinux.Laboratory.Waiting
import MiniLinux.Foundation.BoundedLog
import MiniLinux.Foundation.Dictionary
import MiniLinux.Observer.Guest
import MiniLinux.Observer.EventLog
import MiniLinux.Observer.Polling
import MiniLinux.Observer.Recording
import MiniLinux.Foundation.Rounding
import MiniLinux.Observer.Replay
import MiniLinux.Foundation.Lines
import MiniLinux.Observer.TraceText
import MiniLinux.Observer.TraceStream
import MiniLinux.Laboratory.RamFsStreams
import MiniLinux.Memory.Spaces
import MiniLinux.Memory.SpacesRuns
import MiniLinux.Memory.Translations
import MiniLinux.Laboratory.Ending
import MiniLinux.Laboratory.Calls
import MiniLinux.Laboratory.Dispatch
import MiniLinux.Laboratory.Runs
import MiniLinux.Laboratory.Scheduling
import MiniLinux.Laboratory.Effects
import MiniLinux.Laboratory.SpawnCalls
import MiniLinux.Laboratory.Bringup
import MiniLinux.Foundation.CyclicScan
import MiniLinux.Laboratory.RoundRobin
import MiniLinux.Laboratory.Guarantees
import MiniLinux.Memory.Exhaustion
import MiniLinux.Memory.KernelHalf
import MiniLinux.Foundation.EditedText
import MiniLinux.Observer.Console
import MiniLinux.Laboratory.ProcessIds
import MiniLinux.Observer.Command
import MiniLinux.User.TypedWords
import MiniLinux.Memory.PageOrder
import MiniLinux.Laboratory.Containment
import MiniLinux.Laboratory.Contexts
import MiniLinux.Laboratory.ExitStatus
import MiniLinux.Laboratory.FirstView
import MiniLinux.Observer.Mirror
import MiniLinux.Foundation.LastWriter
import MiniLinux.Observer.Snapshots
import MiniLinux.Observer.Agreement
import MiniLinux.User.Accounts
import MiniLinux.Foundation.Family
import MiniLinux.Laboratory.Families
import MiniLinux.Laboratory.Books
import MiniLinux.Laboratory.FrameCount
import MiniLinux.Laboratory.Serial
import MiniLinux.User.Execution
import MiniLinux.User.Served
import MiniLinux.User.Residents
import MiniLinux.User.Scripts
import MiniLinux.User.RestoredPrompt
import MiniLinux.Checks.Report
import MiniLinux.Checks.PageTest
import MiniLinux.Checks.PageVerdict
import MiniLinux.Checks.SpaceTest
import MiniLinux.Checks.SpaceVerdict
