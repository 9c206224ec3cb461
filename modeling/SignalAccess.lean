import SignalAccess.Data.Compression
import SignalAccess.Machine.FileTree
import SignalAccess.Path.Expansion
import SignalAccess.Request.AccessLog
import SignalAccess.Request.Parser
import SignalAccess.Proofs.Session.Run
import SignalAccess.Proofs.Data.Writable
import SignalAccess.Proofs.Data.Rewriting
import SignalAccess.Proofs.Data.Availability
import SignalAccess.Proofs.Wire.Layout
import SignalAccess.Proofs.Data.Sections
import SignalAccess.Proofs.MessagePack.ReadBack
import SignalAccess.Proofs.State.Length
import SignalAccess.Proofs.Session.Opening
import SignalAccess.Proofs.Session.Meeting
import SignalAccess.Proofs.Request.Resending
import SignalAccess.Proofs.State.Agreement
import SignalAccess.Proofs.Session.Calls
import SignalAccess.Proofs.Session.Correlation
import SignalAccess.Proofs.Session.Unsettled
import SignalAccess.Proofs.Failure.Recording
import SignalAccess.Proofs.Request.Failures
import SignalAccess.Proofs.Request.Groups
import SignalAccess.Proofs.Registry
import SignalAccess.Proofs.Request.Steps
import SignalAccess.Proofs.Request.Complete
import SignalAccess.Proofs.Request.Devices
import SignalAccess.Proofs.Request.Precedence
import SignalAccess.Proofs.Request.CallForms
import SignalAccess.Proofs.Data.WideCompression
import SignalAccess.Proofs.Data.Drift
import SignalAccess.Proofs.Data.Extent
import SignalAccess.Proofs.Text.Trim
import SignalAccess.Proofs.Text.Pieces
import SignalAccess.Proofs.Request.Quoting
import SignalAccess.Proofs.Request.Rendering
import SignalAccess.Proofs.Request.Rereading
import SignalAccess.Proofs.Request.Proposing
import SignalAccess.Proofs.Request.Subsets
import SignalAccess.Proofs.Request.Selections
import SignalAccess.Proofs.Request.Slices
import SignalAccess.Proofs.Request.Archives
import SignalAccess.Proofs.Request.ArchivedSignals
import SignalAccess.Proofs.Request.DefaultDevice
import SignalAccess.Proofs.Request.TreeAddresses
import SignalAccess.Proofs.Request.Paths
import SignalAccess.Proofs.Request.PulsePaths
import SignalAccess.Proofs.Request.FileFormats
import SignalAccess.Proofs.Request.DividedCalls
import SignalAccess.Proofs.Request.RemoteAddresses
import SignalAccess.Proofs.Path.RuleLists
import SignalAccess.Proofs.Path.FirstRule
import SignalAccess.Proofs.Path.Names
import SignalAccess.Proofs.Registry.Formats
import SignalAccess.Proofs.State.Report
import SignalAccess.Proofs.Data.ItemCount
import SignalAccess.Proofs.Data.Object
import SignalAccess.Proofs.Session.Ending
import SignalAccess.Proofs.Session.Sending
import SignalAccess.Proofs.Frame.Retention
import SignalAccess.Proofs.Data.Descent
import SignalAccess.Proofs.Path.Variables
