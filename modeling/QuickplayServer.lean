import QuickplayServer.Lib.BitList
import QuickplayServer.Lib.Method
import QuickplayServer.Lib.Run
import QuickplayServer.Lib.Selection
import QuickplayServer.Lib.ToggleLink
import QuickplayServer.Lib.BitStream
import QuickplayServer.Lib.Flags
import QuickplayServer.Lib.FirstMax
import QuickplayServer.Lib.Registers
import QuickplayServer.Lib.Cover
import QuickplayServer.Lib.Transfer
import QuickplayServer.IoUtil
import QuickplayServer.Varint
import QuickplayServer.Configuration
import QuickplayServer.Connection
import QuickplayServer.Net.Message
import QuickplayServer.Net.TextMessage
import QuickplayServer.Net.NetChannel
import QuickplayServer.Net.ReadMessages
import QuickplayServer.Net.Grammar
import QuickplayServer.Net.Fragment
import QuickplayServer.Net.ReadFrame
import QuickplayServer.Net.Header
import QuickplayServer.Net.Bookkeeping
import QuickplayServer.Net.Calls
import QuickplayServer.Net.DropCount
import QuickplayServer.Net.Wire
import QuickplayServer.Net.ReadSection
import QuickplayServer.Net.Handover
import QuickplayServer.Net.Later
import QuickplayServer.Net.Filling
import QuickplayServer.Net.Arrival
import QuickplayServer.Net.Refused
import QuickplayServer.Net.WriteFrame
import QuickplayServer.Net.Receive
import QuickplayServer.Net.Abandoned
import QuickplayServer.Net.Completion
import QuickplayServer.Net.Acknowledged
import QuickplayServer.Net.TransferSize
import QuickplayServer.Net.Coverage
import QuickplayServer.Net.Replay
import QuickplayServer.Net.RoundTrip
import QuickplayServer.Net.WellFormed
import QuickplayServer.Net.SectionCodec
import QuickplayServer.Net.Writable
import QuickplayServer.Net.Peers
import QuickplayServer.Net.RawPacket
import QuickplayServer.Net.Connectionless
import QuickplayServer.Net.Answers
import QuickplayServer.Net.Handshake
import QuickplayServer.Net.Exchange
import QuickplayServer.Net.PeerLink
import QuickplayServer.Net.Reassembly
import QuickplayServer.Net.Delivery
import QuickplayServer.Net.Returned
import QuickplayServer.Net.Remaining
import QuickplayServer.Net.Drain
import QuickplayServer.Server
import QuickplayServer.Refusal
import QuickplayServer.Quickplay.Global
import QuickplayServer.Quickplay.Background
import QuickplayServer.Quickplay.Session
import QuickplayServer.Quickplay.FindServer
import QuickplayServer.Quickplay.Relax
import QuickplayServer.Quickplay.Preferences
import QuickplayServer.Matchmaking
import QuickplayServer.Lifetime
import QuickplayServer.Replies
import QuickplayServer.Service
import QuickplayServer.Admission
import QuickplayServer.Workers
import QuickplayServer.Redirects
import QuickplayServer.Isolation
import QuickplayServer.Cancellation
import QuickplayServer.Authenticity
import QuickplayServer.Progress
