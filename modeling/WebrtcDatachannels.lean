import WebrtcDatachannels.Adapter.Attempt
import WebrtcDatachannels.Adapter.Board
import WebrtcDatachannels.Adapter.Corpus
import WebrtcDatachannels.Adapter.Driver
import WebrtcDatachannels.Adapter.Gate
import WebrtcDatachannels.Adapter.Peer
import WebrtcDatachannels.Contract.Exchange
import WebrtcDatachannels.Contract.Fate
import WebrtcDatachannels.Contract.SendFailure
import WebrtcDatachannels.Contract.Sinks
import WebrtcDatachannels.Contract.Sources
import WebrtcDatachannels.Contract.StreamMessages
import WebrtcDatachannels.Contract.Transfer
import WebrtcDatachannels.Examples.CliSignaling
import WebrtcDatachannels.Examples.EchoDemo
import WebrtcDatachannels.Guest.Claim
import WebrtcDatachannels.Guest.Closed
import WebrtcDatachannels.Guest.Conn
import WebrtcDatachannels.Guest.Drain
import WebrtcDatachannels.Guest.Flush
import WebrtcDatachannels.Guest.Inbox
import WebrtcDatachannels.Guest.Incoming
import WebrtcDatachannels.Guest.Peer
import WebrtcDatachannels.Guest.Provider
import WebrtcDatachannels.Guest.Reopen
import WebrtcDatachannels.Guest.Runtime
import WebrtcDatachannels.Guest.SendStream
import WebrtcDatachannels.Guest.SendWake
import WebrtcDatachannels.Guest.SocketAddr
import WebrtcDatachannels.Guest.Wake
import WebrtcDatachannels.Guest.Wakeup
import WebrtcDatachannels.Host.Blocks
import WebrtcDatachannels.Host.Connection
import WebrtcDatachannels.Host.DataChannel
import WebrtcDatachannels.Host.InboundQueue
import WebrtcDatachannels.Host.IncomingOrder
import WebrtcDatachannels.Host.PendingOps
import WebrtcDatachannels.Host.Receive
import WebrtcDatachannels.Host.Send
import WebrtcDatachannels.Host.SendStream
import WebrtcDatachannels.Host.Streams
import WebrtcDatachannels.Host.Teardown
import WebrtcDatachannels.Host.WaitConnected
import WebrtcDatachannels.Jco.EventStream
import WebrtcDatachannels.Jco.IncomingQueue
import WebrtcDatachannels.Jco.PayloadBound
import WebrtcDatachannels.Jco.Send
import WebrtcDatachannels.Jco.SendBuffer
import WebrtcDatachannels.Jco.SendClose
import WebrtcDatachannels.Jco.SendStream
import WebrtcDatachannels.Jco.WaitConnected
import WebrtcDatachannels.Lib.BoundedLog
import WebrtcDatachannels.Lib.Decimal
import WebrtcDatachannels.Lib.Entries
import WebrtcDatachannels.Lib.Handoff
import WebrtcDatachannels.Lib.Keyed
import WebrtcDatachannels.Lib.Lines
import WebrtcDatachannels.Lib.LittleEndian
import WebrtcDatachannels.Lib.Mpsc
import WebrtcDatachannels.Lib.Notify
import WebrtcDatachannels.Lib.Relay
import WebrtcDatachannels.Lib.Runs
import WebrtcDatachannels.Lib.SealedLog
import WebrtcDatachannels.Lib.Table
import WebrtcDatachannels.Runner.Load
import WebrtcDatachannels.Runner.Manifest
import WebrtcDatachannels.Runner.Matrix
import WebrtcDatachannels.Signaling.Caps
import WebrtcDatachannels.Signaling.Eviction
import WebrtcDatachannels.Signaling.Fetch
import WebrtcDatachannels.Signaling.Handlers
import WebrtcDatachannels.Signaling.Http
import WebrtcDatachannels.Signaling.Isolation
import WebrtcDatachannels.Signaling.Log
import WebrtcDatachannels.Signaling.LongPoll
import WebrtcDatachannels.Signaling.Mailbox
import WebrtcDatachannels.Signaling.Rooms
import WebrtcDatachannels.Suite.Barrier
import WebrtcDatachannels.Suite.Completion
import WebrtcDatachannels.Suite.Exchange
import WebrtcDatachannels.Suite.Handshake
import WebrtcDatachannels.Suite.Payload
import WebrtcDatachannels.Suite.Rendezvous
import WebrtcDatachannels.Utf8
import WebrtcDatachannels.Wit
