import Iscp.Resume
import Iscp.Downstream.Reorder
import Iscp.Downstream.State
import Iscp.Wire.ReadLoop

/-!
# The downstream as a machine

`downstream_loop`, the application's calls on the `Downstream`, the messages that the connection's read
loop puts into the stream's channel, and the connections under it. As for the upstream, an action is
what one task does up to its next await or its next access to something that another task writes. The
resume loop is part of the loop itself here.
-/

namespace Iscp.Downstream

/-- A call of `close`, by the sender it made. -/
abbrev CallId := Nat

inductive LoopPc
  /-- In the resume loop. -/
  | resuming
  /-- In the `select!` of the read loop. -/
  | reading
  /-- Before the next chunk of the reorderer's iterator. -/
  | emitting (it : DownReordererIter)
  /-- In `tx_downstream_chunk.send`. -/
  | sending (chunk : DownstreamChunk) (it : DownReordererIter)
  | sendingMetadata (metadata : DownstreamMetadata) (ack : Message.DownstreamMetadataAck)
  | metadataAck (ack : Message.DownstreamMetadataAck)
  /-- In `wire_conn.send_message` of the periodic ack. -/
  | sendingAck (ack : Message.DownstreamChunkAck)
  /-- Before the next `rx_msg.try_recv`. -/
  | draining
  | drainEmitting (it : DownReordererIter)
  | drainMetadataAck (ack : Message.DownstreamMetadataAck)
  | drained
  /-- In `wire_conn.send_message` of the ack after the drain. -/
  | sendingLastAck (ack : Message.DownstreamChunkAck)
  | connEnd
  | waitComplete
  /-- In the close request. -/
  | closing
  /-- `downstream_loop` has returned; its `_ct_guard` is dropped next. -/
  | returned (result : Except Error Unit)
  /-- Before `close_cause` is stored. -/
  | guardDropped (result : Except Error Unit)
  | exited
deriving DecidableEq

/-- Where the application's call is. -/
inductive AppPc
  | idle
  | closeStored (call : CallId)
  | closeWaiting (call : CallId)
deriving DecidableEq

def AppPc.call? : AppPc → Option CallId
  | closeStored call | closeWaiting call => some call
  | idle => none

inductive LoopAction
  | joined
  | recv
  | cancelled
  | ackInterval
  | next
  | sent
  | metadataSent
  | wireSent (result : Except Error Unit)
  | drain
  | drainNext
  | ackAfterDrain
  | connEnd
  | completeRecv
  | completeDone
  | completeTimedOut
  | closeResponded (result : Except Error Unit)
  | exit
  | storeCause

inductive AppAction
  | read
  | readMetadata
  | dropMetadataReader
  | close
  | closeCancel
  | received
  | closeTimedOut
  /-- The future of a waiting `close` is dropped. -/
  | drop
  /-- The `Downstream` is dropped. -/
  | dropDownstream

inductive Action
  | loop (a : LoopAction)
  | resume (a : ResumeAction)
  | app (a : AppAction)
  | wire (a : WireAction)
  /-- The read loop puts a message into the stream's channel. -/
  | arrive (msg : ReceivableDownstreamMsg)
  /-- The read loop lets go of the sender of that channel. -/
  | senderDropped
  /-- `Conn::close` cancels the stream. -/
  | cancel

inductive Event
  | resume (e : ResumeEvent)
  /-- `add_sequence_number` -/
  | recorded (streamId : Uuid) (sequenceNumber : UInt32)
  /-- A chunk is put into the application's channel. -/
  | delivered (chunk : DownstreamChunk)
  /-- `try_send` has failed. -/
  | dropped (chunk : DownstreamChunk)
  | ackSent (conn : ConnId) (ack : Message.DownstreamChunkAck)
  | ackFailed (conn : ConnId) (ack : Message.DownstreamChunkAck)
  | metadataDelivered (metadata : DownstreamMetadata)
  | metadataAckSent (conn : ConnId) (ack : Message.DownstreamMetadataAck)
  | metadataAckFailed (conn : ConnId) (ack : Message.DownstreamMetadataAck)
  | read (result : Except Error DownstreamChunk)
  | readMetadata (result : Except Error DownstreamMetadata)
  | closeRequested (conn : ConnId)
  | closeResponded (result : Except Error Unit)
  | closeReturned (result : Except Error Unit)
deriving DecidableEq

structure State where
  wire : WireConns
  resume : Resume
  state : DownstreamState
  reorderer : DownReorderer
  ackIdComplete : UInt32 := 0
  loop : LoopPc := .resuming
  rxMsg : List ReceivableDownstreamMsg := []
  rxMsgClosed : Bool := false
  /-- The application's channels. -/
  chunks : List DownstreamChunk := []
  metadata : List DownstreamMetadata := []
  chunkReaderDropped : Bool := false
  metadataReaderDropped : Bool := false
  ct : Bool := false
  txResult : Option CallId := none
  closeCause : Option Error := none
  app : AppPc := .idle
  /-- What has been sent to the application's call. -/
  reply : Option (Except Error Unit) := none
  calls : CallId := 0

/-- A downstream that has just been opened: what `Downstream::new` starts the loop with. -/
structure Opened where
  config : DownstreamConfig
  channelSize : Nat
  conn : ConnId
  streamIdAlias : UInt32
  resumeToken : String
  dataIdAliases : BTreeMap DataId := ∅

namespace State

def connected (s : State) : Bool := s.wire.isConnected s.resume.wireConn

/-- A received chunk is converted and given to the reorderer; the loop goes on at `emit`, or at `skip` if
there is nothing to emit. A panic of the conversion unwinds the task. -/
def onChunk (config : DownstreamConfig) (s : State) (chunk : Message.DownstreamChunk) (skip : LoopPc)
    (emit : DownReordererIter → LoopPc) : State × List Event :=
  let omitEmptyChunk := config.omitEmptyChunk && !s.reorderer.enabled
  match s.state.convertDownstreamChunk omitEmptyChunk chunk with
  | some (.ok (some chunk), state) =>
    let recorded := Event.recorded chunk.upstream.streamId chunk.sequenceNumber
    match s.reorderer.iter chunk with
    | (.ok it, reorderer) =>
      ({ s with state := state, reorderer := reorderer, loop := emit it }, [recorded])
    | (.error e, reorderer) =>
      ({ s with state := state, reorderer := reorderer, loop := .returned (.error e) }, [recorded])
  | some (_, state) => ({ s with state := state, loop := skip }, [])
  | none => ({ s with loop := .returned (.ok ()) }, [])

/-- `check_chunk_ack_complete` -/
def checkChunkAckComplete (s : State) (complete : Message.DownstreamChunkAckComplete) : State :=
  { s with ackIdComplete := if s.ackIdComplete < complete.ackId then complete.ackId else s.ackIdComplete }

/-- The read loop on a message. -/
def onMsg (config : DownstreamConfig) (s : State) : ReceivableDownstreamMsg → State × List Event
  | .chunk chunk => s.onChunk config chunk .reading .emitting
  | .metadata metadata =>
    match convertDownstreamMetadata metadata with
    | .ok (metadata, ack) => ({ s with loop := .sendingMetadata metadata ack }, [])
    | .error _ => (s, [])
  | .chunkAckComplete complete => (s.checkChunkAckComplete complete, [])

/-- The drain on a message. -/
def onDrained (o : Opened) (s : State) : ReceivableDownstreamMsg → State × List Event
  | .chunk chunk => s.onChunk o.config chunk .draining .drainEmitting
  | .metadata metadata =>
    match convertDownstreamMetadata metadata with
    | .ok (metadata, ack) =>
      let loop := if s.connected then .drainMetadataAck ack else .draining
      if s.metadata.length < o.channelSize ∧ !s.metadataReaderDropped then
        ({ s with metadata := s.metadata ++ [metadata], loop := loop }, [.metadataDelivered metadata])
      else ({ s with loop := loop }, [])
    | .error _ => (s, [])
  | .chunkAckComplete complete => (s.checkChunkAckComplete complete, [])

/-- Whether the close phase still waits for a `DownstreamChunkAckComplete`. -/
def completeAwaited (s : State) : Bool :=
  match s.state.lastIssuedChunkAckId with
  | some lastIssued => s.ackIdComplete < lastIssued
  | none => false

/-- The close request; its result goes to the sender in `tx_result`. -/
def closeRequest (s : State) : State × List Event :=
  ({ s with loop := .closing }, [.closeRequested s.resume.wireConn])

def sendResult (s : State) (result : Except Error Unit) : State :=
  match s.txResult with
  | some call =>
    { s with txResult := none, reply := if s.app.call? = some call then some result else s.reply }
  | none => s

end State

def loopStep (o : Opened) (s : State) : LoopAction → Option (State × List Event)
  | .joined =>
    match s.loop, s.resume.pc with
    | .resuming, .registered => some ({ s with loop := .reading }, [])
    | .resuming, .gaveUp | .resuming, .failed _ => some ({ s with loop := .returned (.ok ()) }, [])
    | _, _ => none
  | .recv =>
    match s.loop, s.rxMsg with
    | .reading, msg :: rxMsg => some ({ s with rxMsg := rxMsg }.onMsg o.config msg)
    | .reading, [] => if s.rxMsgClosed then some ({ s with loop := .draining }, []) else none
    | _, _ => none
  | .cancelled =>
    match s.loop with
    | .reading => if s.ct then some ({ s with loop := .draining }, []) else none
    | _ => none
  | .ackInterval =>
    match s.loop, s.state.takeAck s.resume.streamIdAlias with
    | .reading, (some ack, state) => some ({ s with state := state, loop := .sendingAck ack }, [])
    | .reading, (none, state) => some ({ s with state := state }, [])
    | _, _ => none
  | .next =>
    match s.loop with
    | .emitting it =>
      match s.reorderer.iterNext it with
      | (some chunk, it, reorderer) =>
        some ({ s with reorderer := reorderer, loop := .sending chunk it }, [])
      | (none, _, reorderer) => some ({ s with reorderer := reorderer, loop := .reading }, [])
    | _ => none
  | .sent =>
    match s.loop with
    | .sending chunk it =>
      -- A reader that is gone closes the downstream; the rest of the iterator is left.
      if s.chunkReaderDropped then some ({ s with ct := true, loop := .reading }, [])
      else if s.chunks.length < o.channelSize then
        some ({ s with chunks := s.chunks ++ [chunk], loop := .emitting it }, [.delivered chunk])
      else none
    | _ => none
  | .metadataSent =>
    match s.loop with
    | .sendingMetadata metadata ack =>
      if s.metadataReaderDropped then some ({ s with ct := true, loop := .draining }, [])
      else if s.metadata.length < o.channelSize then
        some ({ s with metadata := s.metadata ++ [metadata], loop := .metadataAck ack },
          [.metadataDelivered metadata])
      else none
    | _ => none
  | .wireSent result =>
    let conn := s.resume.wireConn
    match s.loop, result with
    | .metadataAck ack, .ok () => some ({ s with loop := .reading }, [.metadataAckSent conn ack])
    | .metadataAck ack, .error _ => some ({ s with loop := .draining }, [.metadataAckFailed conn ack])
    | .sendingAck ack, .ok () => some ({ s with loop := .reading }, [.ackSent conn ack])
    | .sendingAck ack, .error _ => some ({ s with loop := .draining }, [.ackFailed conn ack])
    | .drainMetadataAck ack, .ok () => some ({ s with loop := .draining }, [.metadataAckSent conn ack])
    | .drainMetadataAck ack, .error _ => some ({ s with loop := .draining }, [.metadataAckFailed conn ack])
    | .sendingLastAck ack, .ok () => some ({ s with loop := .connEnd }, [.ackSent conn ack])
    | .sendingLastAck ack, .error _ => some ({ s with loop := .connEnd }, [.ackFailed conn ack])
    | _, _ => none
  | .drain =>
    match s.loop, s.rxMsg with
    | .draining, msg :: rxMsg => some ({ s with rxMsg := rxMsg }.onDrained o msg)
    | .draining, [] => some ({ s with loop := .drained }, [])
    | _, _ => none
  | .drainNext =>
    match s.loop with
    | .drainEmitting it =>
      match s.reorderer.iterNext it with
      | (some chunk, it, reorderer) =>
        if s.chunks.length < o.channelSize ∧ !s.chunkReaderDropped then
          some ({ s with reorderer := reorderer, chunks := s.chunks ++ [chunk], loop := .drainEmitting it },
            [.delivered chunk])
        else some ({ s with reorderer := reorderer, loop := .drainEmitting it }, [.dropped chunk])
      | (none, _, reorderer) => some ({ s with reorderer := reorderer, loop := .draining }, [])
    | _ => none
  | .ackAfterDrain =>
    match s.loop with
    | .drained =>
      if s.connected then
        match s.state.takeAck s.resume.streamIdAlias with
        | (some ack, state) => some ({ s with state := state, loop := .sendingLastAck ack }, [])
        | (none, state) => some ({ s with state := state, loop := .connEnd }, [])
      else some ({ s with loop := .connEnd }, [])
    | _ => none
  | .connEnd =>
    match s.loop with
    | .connEnd =>
      if o.config.expiryInterval = 0 ∨ s.ct then
        if s.connected then some ({ s with loop := .waitComplete }, [])
        else some ({ s with loop := .returned (.ok ()) }, [])
      else some ({ s with resume := s.resume.restart s.resume.seen, loop := .resuming }, [])
    | _ => none
  | .completeRecv =>
    match s.loop, s.rxMsg with
    | .waitComplete, .chunkAckComplete complete :: rxMsg =>
      if s.completeAwaited then some ({ s with rxMsg := rxMsg }.checkChunkAckComplete complete, []) else none
    | .waitComplete, _ :: rxMsg => if s.completeAwaited then some ({ s with rxMsg := rxMsg }, []) else none
    | .waitComplete, [] => if s.completeAwaited ∧ s.rxMsgClosed then some s.closeRequest else none
    | _, _ => none
  | .completeDone =>
    match s.loop with
    | .waitComplete => if s.completeAwaited then none else some s.closeRequest
    | _ => none
  | .completeTimedOut =>
    match s.loop with
    | .waitComplete => if s.completeAwaited then some s.closeRequest else none
    | _ => none
  | .closeResponded result =>
    match s.loop with
    | .closing =>
      let answer := match result with
        | .ok () => .ok ()
        | .error _ => .error .connectionClosed
      some ({ s.sendResult answer with loop := .returned (.ok ()) }, [.closeResponded result])
    | _ => none
  | .exit =>
    match s.loop with
    | .returned result => some ({ s with ct := true, loop := .guardDropped result }, [])
    | _ => none
  | .storeCause =>
    match s.loop with
    | .guardDropped (.error e) => some ({ s with closeCause := some e, loop := .exited }, [])
    | .guardDropped (.ok ()) => some ({ s with loop := .exited }, [])
    | _ => none

def appStep (s : State) : AppAction → Option (State × List Event)
  | .read =>
    match s.app, s.chunks with
    | .idle, chunk :: chunks => some ({ s with chunks := chunks }, [.read (.ok chunk)])
    | .idle, [] =>
      if s.ct then
        some ({ s with closeCause := none }, [.read (.error (s.closeCause.getD .streamClosed))])
      else none
    | _, _ => none
  | .readMetadata =>
    match s.metadata with
    | metadata :: rest => some ({ s with metadata := rest }, [.readMetadata (.ok metadata)])
    | [] => if s.ct then some (s, [.readMetadata (.error .streamClosed)]) else none
  | .dropMetadataReader => some ({ s with metadata := [], metadataReaderDropped := true }, [])
  | .close =>
    match s.app with
    | .idle =>
      some ({ s with txResult := some s.calls, reply := none, calls := s.calls + 1,
                     app := .closeStored s.calls }, [])
    | _ => none
  | .closeCancel =>
    match s.app with
    | .closeStored call => some ({ s with ct := true, app := .closeWaiting call }, [])
    | _ => none
  | .received =>
    match s.app, s.reply with
    | .closeWaiting _, some result => some ({ s with app := .idle }, [.closeReturned result])
    | _, _ => none
  | .closeTimedOut =>
    match s.app, s.reply with
    | .closeWaiting _, none =>
      some ({ s with app := .idle }, [.closeReturned (.error (.unexpected "close timeout"))])
    | _, _ => none
  | .drop =>
    match s.app with
    | .closeWaiting _ => some ({ s with app := .idle }, [])
    | _ => none
  | .dropDownstream =>
    match s.app with
    | .idle => some ({ s with chunks := [], chunkReaderDropped := true }, [])
    | _ => none

def step (o : Opened) (s : State) : Action → Option (State × List Event)
  | .loop a => loopStep o s a
  | .resume a =>
    match s.loop with
    | .resuming =>
      (s.resume.step .down (o.config.expiryInterval = 0) s.ct s.wire a).map fun (r, evs) =>
        -- The registration comes with a new channel.
        let s := if r.pc = .registered then { s with rxMsg := [], rxMsgClosed := false } else s
        ({ s with resume := r }, evs.map .resume)
    | _ => none
  | .app a => appStep s a
  | .wire a => (s.wire.step a).map fun w => ({ s with wire := w }, [])
  | .arrive msg =>
    if s.resume.pc = .registered ∧ !s.rxMsgClosed then some ({ s with rxMsg := s.rxMsg ++ [msg] }, [])
    else none
  | .senderDropped =>
    if s.resume.pc = .registered then some ({ s with rxMsgClosed := true }, []) else none
  | .cancel => some ({ s with ct := true }, [])

namespace Opened

def init (o : Opened) : State where
  wire := { version := o.conn }
  resume :=
    { pc := .poll, wireConn := o.conn, seen := 0, localToken := "", needResume := false,
      streamIdAlias := o.streamIdAlias, resumeToken := o.resumeToken }
  state := { dataIdAliases := o.dataIdAliases }
  reorderer := .new o.config

def machine (o : Opened) : Machine State Action Event where
  init := o.init
  log₀ := [.resume (.opened o.conn o.streamIdAlias o.resumeToken)]
  step := step o

end Opened

/-! ### Sample runs -/

/-- A downstream opened with the default configuration, with room for one chunk. -/
def defaultOpened : Opened where
  config := {}
  channelSize := 1
  conn := 0
  streamIdAlias := 1
  resumeToken := "a"

/-- A downstream that stores no chunk and wants them in order. -/
def strictOpened : Opened where
  config := { qos := .reliable, reordering := .strict, reorderingChunks := 0 }
  channelSize := 1
  conn := 0
  streamIdAlias := 1
  resumeToken := "a"

/-- The steps from the opening into the read loop. -/
def startRun : List Action := [.resume (.poll 0 true), .loop .joined]

/-- An empty chunk of one upstream. -/
def chunkMsg (n : UInt32) : ReceivableDownstreamMsg :=
  .chunk ⟨1, some ⟨[], n⟩, some (.upstreamInfo ⟨"s", List.replicate 16 0, "n"⟩)⟩

/-- A chunk is received and delivered. -/
def receiveRun (n : UInt32) : List Action :=
  [.arrive (chunkMsg n), .loop .recv, .loop .next, .loop .sent, .loop .next]

/-- The connection is lost, and the loop asks for a resume on the next one. -/
def reconnectRun : List Action :=
  [.wire (.disconnect 0), .wire .publish, .loop .drain, .loop .ackAfterDrain, .loop .connEnd,
    .resume (.poll 0 true), .resume (.updated 1), .resume (.poll 2 true)]

end Iscp.Downstream
