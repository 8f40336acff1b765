import OpenScumRcon.Library.LittleEndian
import OpenScumRcon.Library.Utf8
import OpenScumRcon.Library.Utf16
import OpenScumRcon.Library.Chunks
import OpenScumRcon.Library.Trim
import OpenScumRcon.Library.Transition
import OpenScumRcon.Library.Handoff
import OpenScumRcon.Library.Handles
import OpenScumRcon.Library.LinkedStack
import OpenScumRcon.Bytes
import OpenScumRcon.ResponseBuffer
import OpenScumRcon.RconProtocol
import OpenScumRcon.ResponsePackets
import OpenScumRcon.Socket
import OpenScumRcon.Framing
import OpenScumRcon.Strings
import OpenScumRcon.DispatchRequest
import OpenScumRcon.RequestGrammar
import OpenScumRcon.ExecRequest
import OpenScumRcon.GodmodeRequest
import OpenScumRcon.CommandAuthority
import OpenScumRcon.AdminDispatch
import OpenScumRcon.Routing
import OpenScumRcon.CommandQueue
import OpenScumRcon.Drain
import OpenScumRcon.Connection
import OpenScumRcon.System
import OpenScumRcon.Guarantees
import OpenScumRcon.ManualCapture
import OpenScumRcon.RequestLimit
import OpenScumRcon.Config
import OpenScumRcon.Handler
import OpenScumRcon.HandlerCalls
import OpenScumRcon.RconServer
import OpenScumRcon.ServerThreads
import OpenScumRcon.Shutdown
import OpenScumRcon.ServerSockets
import OpenScumRcon.WideStrings
import OpenScumRcon.ResponseScope
import OpenScumRcon.ResponseCapture
import OpenScumRcon.ReplyIsolation
import OpenScumRcon.World
import OpenScumRcon.Game
import OpenScumRcon.ConnectedPlayers
import OpenScumRcon.PlayerList
import OpenScumRcon.PlayerListFormat
import OpenScumRcon.CommandRegistry
import OpenScumRcon.NativeExecution
import OpenScumRcon.GodmodeDispatch
import OpenScumRcon.NativeRoutes
import OpenScumRcon.ExecutionGate
import OpenScumRcon.VerifiedGodmode
import OpenScumRcon.ResponseTruncation
import OpenScumRcon.BoundedRead
import OpenScumRcon.Library.Search
import OpenScumRcon.PatternSearch
import OpenScumRcon.Library.Cover
import OpenScumRcon.PeImage
import OpenScumRcon.AddressTranslation
import OpenScumRcon.Library.Fields
import OpenScumRcon.LoadPe
import OpenScumRcon.Library.Sweep
import OpenScumRcon.DumpContext
import OpenScumRcon.ConfigPort
import OpenScumRcon.Library.ScopedSlot
import OpenScumRcon.GodmodeTrace
import OpenScumRcon.TraceInvariant
import OpenScumRcon.TraceTransparency
import OpenScumRcon.Diagnostics
import OpenScumRcon.DispatchEffect
import OpenScumRcon.NativeRuns
import OpenScumRcon.Library.Ending
import OpenScumRcon.ReplyText
import OpenScumRcon.SendableReplies
import OpenScumRcon.SendableRuns
import OpenScumRcon.ClientView
import OpenScumRcon.Library.LeadsTo
import OpenScumRcon.Workers
import OpenScumRcon.Liveness
import OpenScumRcon.Backlog
import OpenScumRcon.HandlerBlocks
import OpenScumRcon.ServerProcess
import OpenScumRcon.ServerSteps
import OpenScumRcon.ServerRefinement
import OpenScumRcon.ProcessRuns
import OpenScumRcon.Startup
import OpenScumRcon.StartupChecks
import OpenScumRcon.BuildGate
import OpenScumRcon.Library.Numeral
import OpenScumRcon.Library.FlatJson
import OpenScumRcon.Library.Binary32
import OpenScumRcon.LiveQuery
import OpenScumRcon.WeatherReply
import OpenScumRcon.LiveQuery
import OpenScumRcon.WeatherReply
