import Iscp.Metadata

/-!
# The read loop's messages and channels

What a wire connection's `read_loop` reads, and `ReadLoopChannels`, which tells it where the messages of
the streams and the acks of the calls go. The entries are made by commands that other tasks send; a
sender is a name here, of whatever type the machine at hand uses.
-/

namespace Iscp

namespace Message

structure UpstreamCallAck where
  callId : String
  resultCode : Int
  resultString : String
deriving DecidableEq

/-- What a response has beside its request id and its result. -/
inductive ResponseBody
  | connect
  | upstreamOpen (assignedStreamId : Bytes) (assignedStreamIdAlias : UInt32) (serverTime : Int64)
      (resumeToken : String)
  | upstreamResume (assignedStreamIdAlias : UInt32) (resumeToken : String)
  | upstreamClose
  | upstreamMetadataAck
  | downstreamOpen (assignedStreamId : Bytes) (serverTime : Int64) (resumeToken : String)
  | downstreamResume (resumeToken : String)
  | downstreamClose
  | downstreamMetadataAck
deriving DecidableEq

structure Response where
  requestId : UInt32
  resultCode : Int
  resultString : String
  body : ResponseBody
deriving DecidableEq

/-- `MessageEnum`. The kinds that only the server has a use for are not told apart. -/
inductive MessageEnum
  | ping (requestId : UInt32)
  | pong (requestId : UInt32)
  | disconnect (resultCode : Int) (resultString : String)
  | downstreamCall (call : DownstreamCall)
  | upstreamChunkAck (ack : UpstreamChunkAck)
  | downstreamChunk (chunk : DownstreamChunk)
  | downstreamMetadata (metadata : DownstreamMetadata)
  | downstreamChunkAckComplete (complete : DownstreamChunkAckComplete)
  | upstreamCallAck (ack : UpstreamCallAck)
  | response (r : Response)
  | other (requestId : Option UInt32)
deriving DecidableEq

namespace MessageEnum

/-- `Message::request_id` -/
def requestId : MessageEnum → Option UInt32
  | ping requestId | pong requestId => some requestId
  | downstreamMetadata metadata => some metadata.requestId
  | response r => some r.requestId
  | other requestId => requestId
  | _ => none

end MessageEnum
end Message

inductive ReceivableDownstreamMsg
  | chunk (chunk : Message.DownstreamChunk)
  | metadata (metadata : Message.DownstreamMetadata)
  | chunkAckComplete (complete : Message.DownstreamChunkAckComplete)
deriving DecidableEq

namespace Message.MessageEnum

/-- A message for a downstream, with the alias it names. -/
def downstreamMsg? : MessageEnum → Option (UInt32 × ReceivableDownstreamMsg)
  | downstreamChunk chunk => some (chunk.streamIdAlias, .chunk chunk)
  | downstreamMetadata metadata => some (metadata.streamIdAlias, .metadata metadata)
  | downstreamChunkAckComplete complete => some (complete.streamIdAlias, .chunkAckComplete complete)
  | _ => none

end Message.MessageEnum

namespace Wire

variable {Tx : Type}

structure ReadLoopChannels (Tx : Type) where
  txUpstreamChunkAck : BTreeMap Tx := ∅
  txDownstreamMsg : BTreeMap Tx := ∅
  txCallAck : Std.ExtTreeMap String Tx compare := ∅

inductive ReadLoopCommand (Tx : Type)
  | addUpstream (streamIdAlias : UInt32) (txUpstreamChunkAck : Tx)
  | removeUpstream (streamIdAlias : UInt32)
  | addDownstream (streamIdAlias : UInt32) (txDownstreamMsg : Tx)
  | removeDownstream (streamIdAlias : UInt32)
  | subscribeCallAck (callId : String) (tx : Tx)
  | removeCallAck (callId : String)

/-- The alias whose entry among the downstreams the command is about. -/
def ReadLoopCommand.downstream? : ReadLoopCommand Tx → Option UInt32
  | addDownstream streamIdAlias _ | removeDownstream streamIdAlias => some streamIdAlias
  | _ => none

namespace ReadLoopChannels

def processCommand (ch : ReadLoopChannels Tx) : ReadLoopCommand Tx → ReadLoopChannels Tx
  | .addUpstream streamIdAlias tx =>
    { ch with txUpstreamChunkAck := ch.txUpstreamChunkAck.insert streamIdAlias tx }
  | .removeUpstream streamIdAlias =>
    { ch with txUpstreamChunkAck := ch.txUpstreamChunkAck.erase streamIdAlias }
  | .addDownstream streamIdAlias tx =>
    { ch with txDownstreamMsg := ch.txDownstreamMsg.insert streamIdAlias tx }
  | .removeDownstream streamIdAlias =>
    { ch with txDownstreamMsg := ch.txDownstreamMsg.erase streamIdAlias }
  | .subscribeCallAck callId tx => { ch with txCallAck := ch.txCallAck.insert callId tx }
  | .removeCallAck callId => { ch with txCallAck := ch.txCallAck.erase callId }

/-- What `process_message` does with a message, up to the send into the channel it found. -/
inductive Routed (Tx : Type)
  | upstreamChunkAck (tx : Tx) (ack : Message.UpstreamChunkAck)
  | downstreamMsg (tx : Tx) (msg : ReceivableDownstreamMsg)
  | callAck (tx : Tx) (ack : Message.UpstreamCallAck)
  /-- Nobody is registered for the message. -/
  | unknown
  /-- `Err(msg)`: not a message for a channel. -/
  | unhandled

def processMessage (ch : ReadLoopChannels Tx) : Message.MessageEnum → Routed Tx × ReadLoopChannels Tx
  | .upstreamChunkAck ack =>
    match ch.txUpstreamChunkAck[ack.streamIdAlias]? with
    | some tx => (.upstreamChunkAck tx ack, ch)
    | none => (.unknown, ch)
  | .downstreamChunk chunk =>
    match ch.txDownstreamMsg[chunk.streamIdAlias]? with
    | some tx => (.downstreamMsg tx (.chunk chunk), ch)
    | none => (.unknown, ch)
  | .downstreamMetadata metadata =>
    match ch.txDownstreamMsg[metadata.streamIdAlias]? with
    | some tx => (.downstreamMsg tx (.metadata metadata), ch)
    | none => (.unknown, ch)
  | .downstreamChunkAckComplete complete =>
    match ch.txDownstreamMsg[complete.streamIdAlias]? with
    | some tx => (.downstreamMsg tx (.chunkAckComplete complete), ch)
    | none => (.unknown, ch)
  | .upstreamCallAck ack =>
    match ch.txCallAck[ack.callId]? with
    | some tx => (.callAck tx ack, { ch with txCallAck := ch.txCallAck.erase ack.callId })
    | none => (.unknown, ch)
  | _ => (.unhandled, ch)

variable {ch : ReadLoopChannels Tx} {a b : UInt32} {tx : Tx}

theorem processCommand_add :
    (ch.processCommand (.addDownstream b tx)).txDownstreamMsg[a]? =
      if b = a then some tx else ch.txDownstreamMsg[a]? := by
  simp [processCommand, Std.ExtTreeMap.getElem?_insert]

theorem processCommand_remove :
    (ch.processCommand (.removeDownstream b)).txDownstreamMsg[a]? =
      if b = a then none else ch.txDownstreamMsg[a]? := by
  simp [processCommand, Std.ExtTreeMap.getElem?_erase]

theorem processCommand_of_ne {c : ReadLoopCommand Tx} (h : c.downstream? ≠ some a) :
    (ch.processCommand c).txDownstreamMsg[a]? = ch.txDownstreamMsg[a]? := by
  cases c with
  | addDownstream b tx =>
    rw [processCommand_add, if_neg fun he => h (by rw [← he]; rfl)]
  | removeDownstream b =>
    rw [processCommand_remove, if_neg fun he => h (by rw [← he]; rfl)]
  | _ => rfl

theorem processMessage_downstream {m : Message.MessageEnum} {msg : ReceivableDownstreamMsg}
    (h : m.downstreamMsg? = some (a, msg)) : ch.processMessage m =
      (match ch.txDownstreamMsg[a]? with
       | some tx => .downstreamMsg tx msg
       | none => .unknown, ch) := by
  cases m <;> cases h
  all_goals
    simp only [processMessage]
    split <;> rfl

/-- No message changes where the messages of the downstreams go. -/
theorem processMessage_txDownstreamMsg (m : Message.MessageEnum) :
    (ch.processMessage m).2.txDownstreamMsg = ch.txDownstreamMsg := by
  cases m <;> simp only [processMessage] <;> split <;> rfl

end ReadLoopChannels

end Wire
end Iscp
