import Iscp.Lib.Machine
import Iscp.Lib.GroupBy
import Iscp.Lib.Segments
import Iscp.Lib.Semaphore
import Iscp.Lib.Coder
import Iscp.Lib.OneShot
import Iscp.Lib.Stored
import Iscp.Lib.Pieces
import Iscp.Lib.Channel
import Iscp.Lib.PrefixCode
import Iscp.Lib.Progress
import Iscp.Message
import Iscp.DataId
import Iscp.Error
import Iscp.Metadata
import Iscp.Config
import Iscp.Resume
import Iscp.Wire.ReadLoop
import Iscp.Wire.Registry
import Iscp.Wire.Steps
import Iscp.Wire.Registration
import Iscp.Wire.Request
import Iscp.Wire.Matching
import Iscp.Wire.Leftover
import Iscp.Wire.Backpressure
import Iscp.Wire.Upstreams
import Iscp.Wire.WriteLoop
import Iscp.Wire.Tasks
import Iscp.Upstream.Storage
import Iscp.Upstream.Flusher
import Iscp.Upstream.Model
import Iscp.Upstream.Steps
import Iscp.Upstream.Shutdown
import Iscp.Upstream.Control
import Iscp.Upstream.Resumed
import Iscp.Upstream.Alias
import Iscp.Upstream.Numbering
import Iscp.Upstream.NoLoss
import Iscp.Upstream.Close
import Iscp.Upstream.Delivery
import Iscp.Upstream.Exhaustion
import Iscp.Upstream.Points
import Iscp.Upstream.LastAck
import Iscp.Upstream.Flush
import Iscp.Upstream.Refused
import Iscp.Upstream.ErrCounter
import Iscp.Upstream.TakeChunk
import Iscp.Upstream.WakeUp
import Iscp.Upstream.CloseTotals
import Iscp.Downstream.State
import Iscp.Downstream.Convert
import Iscp.Downstream.Tables
import Iscp.Downstream.Reorder
import Iscp.Downstream.ReorderSpec
import Iscp.Downstream.Late
import Iscp.Downstream.Conserve
import Iscp.Downstream.Independent
import Iscp.Downstream.OmitEmpty
import Iscp.Downstream.Model
import Iscp.Downstream.Steps
import Iscp.Downstream.Control
import Iscp.Downstream.Acks
import Iscp.Downstream.Delivery
import Iscp.Downstream.Complete
import Iscp.Downstream.Exits
import Iscp.Downstream.CloseRequest
import Iscp.Downstream.MetadataRounds
import Iscp.Downstream.Shutdown
import Iscp.Downstream.ReadChunk
import Iscp.Token
import Iscp.Latest
import Iscp.Waiters
import Iscp.E2e
import Iscp.Calls.Model
import Iscp.Calls.Steps
import Iscp.Calls.Acks
import Iscp.Calls.Replies
import Iscp.Conn.Model
import Iscp.Conn.Streams
import Iscp.Conn.Waiter
import Iscp.Conn.Builder
import Iscp.Conn.States
import Iscp.Transport.Datagram
import Iscp.Transport.Splitter
import Iscp.Transport.Reassembly
import Iscp.Transport.FrameBounds
import Iscp.Transport.Stream
import Iscp.Transport.Compression
import Iscp.Transport.Extraction
import Iscp.Transport.Takeover
import Iscp.Transport.Negotiation
import Iscp.Transport.Streams
import Iscp.Wire.Link
import Iscp.Wire.StreamLink
import Iscp.Wire.Keepalive
import Iscp.TokenSource
import Iscp.Transport.Datagrams
import Iscp.Wire.UnreliableLink
import Iscp.Transport.WebSocket
import Iscp.Wire.WebSocketLink
