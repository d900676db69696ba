import RtspRelay.General.ByteSearch
import RtspRelay.General.StreamDecoder
import RtspRelay.General.Transition
import RtspRelay.General.Ledger
import RtspRelay.General.Delivery
import RtspRelay.Machine
import RtspRelay.Buffer
import RtspRelay.MessageText
import RtspRelay.MessageFraming
import RtspRelay.Protocol
import RtspRelay.HttpMessage
import RtspRelay.Decoders
import RtspRelay.ParserSafety
import RtspRelay.EventLoop
import RtspRelay.Connection
import RtspRelay.ConnectionLoop
import RtspRelay.WriteDrain
import RtspRelay.Manager
import RtspRelay.Session
import RtspRelay.Downstream
import RtspRelay.Source
import RtspRelay.SourceSteps
import RtspRelay.Replacement
import RtspRelay.Recovery
import RtspRelay.Service
import RtspRelay.FanOut
import RtspRelay.Isolation
import RtspRelay.SessionOrder
import RtspRelay.Answers
import RtspRelay.Interleaving
import RtspRelay.Completion
import RtspRelay.PrintedText
import RtspRelay.RoundTrip
import RtspRelay.Exchange
import RtspRelay.ExchangeSteps
import RtspRelay.ResponseMatching
import RtspRelay.SessionOrigin
import RtspRelay.HandshakeProgress
import RtspRelay.ChannelSeparation
import RtspRelay.PrintedStream
import RtspRelay.HandshakeScript
import RtspRelay.HandshakeSides
import RtspRelay.HandshakeCaller
import RtspRelay.Handshake
import RtspRelay.Routing
import RtspRelay.StreamApi
import RtspRelay.ApiRequests
import RtspRelay.Endpoints
import RtspRelay.PlayUrl
import RtspRelay.SetupOutcome
import RtspRelay.AskedTransport
import RtspRelay.FailedRequests
import RtspRelay.SocketAccount
import RtspRelay.SendOrder
import RtspRelay.TaskQueue
import RtspRelay.Timers
import RtspRelay.RoutePriority
import RtspRelay.EntryDispatch
import RtspRelay.GracefulShutdown
import RtspRelay.ConnectionEnd
import RtspRelay.PipelinedRequests
import RtspRelay.Program
import RtspRelay.FanOutLocks
import RtspRelay.HeaderCase
import RtspRelay.RequestLine
import RtspRelay.RequestInjection
import RtspRelay.General.Json
import RtspRelay.General.JsonWriting
import RtspRelay.JsonBodies
import RtspRelay.JsonAnswers
import RtspRelay.General.BigEndian
import RtspRelay.RtpPacket
import RtspRelay.RtpFormat
import RtspRelay.General.CircularBuffer
import RtspRelay.ByteQueue
import RtspRelay.RingBuffer
import RtspRelay.IoShutdown
import RtspRelay.UpstreamUrl
import RtspRelay.General.Trimming
import RtspRelay.Config
import RtspRelay.TimerPass
import RtspRelay.NullConnection
import RtspRelay.General.WhileLoop
import RtspRelay.HeaderTokens
import RtspRelay.General.Transcript
import RtspRelay.General.Unwinding
import RtspRelay.SessionIndependence
import RtspRelay.UpstreamFaults
import RtspRelay.SourceReads
import RtspRelay.MediaPath
import RtspRelay.General.Simulation
import RtspRelay.Catalog
import RtspRelay.Registry
import RtspRelay.General.LockOrder
import RtspRelay.Mutexes
import RtspRelay.ParsedUnits
import RtspRelay.Handover
import RtspRelay.SessionStream
import RtspRelay.Reconnect
import RtspRelay.Acceptor
import RtspRelay.TimedLoop
import RtspRelay.Playback
import RtspRelay.ControlPlane
import RtspRelay.Datagrams
