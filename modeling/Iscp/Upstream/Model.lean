import Iscp.Resume
import Iscp.Upstream.Flusher

/-!
# The upstream as a machine

`upstream_loop` with the resume task it spawns, the application's calls on the `Upstream`, and the
connections under it. An action is what one task does up to its next await, or up to its next access
to something that another task writes; the actions of all tasks interleave freely. The loop's locals
are `loop` (where it is), the flusher, and the connection, which is that of the finished resume task.
-/

namespace Iscp.Upstream

/-- A call of `flush` or `close`, by the sender it made. -/
abbrev CallId := Nat

/-- Where `upstream_loop` and the task around it are. -/
inductive LoopPc
  /-- In the `select!` beside the resume task. -/
  | offline
  /-- `flush(None)` has returned. -/
  | offlineFlushed
  /-- In `after_resume`, in its callback. -/
  | afterResume
  /-- In `after_resume`, sending the chunks `todo`. -/
  | resending (todo : List Message.UpstreamChunk)
  /-- In the `select!` of the flush loop. -/
  | flushLoop
  /-- In `flush(Some(_))`, sending. -/
  | sending (chunk : Message.UpstreamChunk) (close : Bool)
  /-- `flush(Some(_))` has returned. -/
  | flushed (result : Except Error Unit) (close : Bool)
  /-- Waiting for the last ack. -/
  | waitAck
  | closeRequest
  /-- In the close request. -/
  | closing
  /-- The close request has returned. -/
  | closed (result : Except Error Unit)
  /-- Behind the flush loop. -/
  | lost
  /-- `upstream_loop` has returned; its `_ct_guard` is dropped next. -/
  | returned
  /-- Before `process_remaining_data_points`. -/
  | remaining
  | exited
deriving DecidableEq

/-- Where the application's call is. -/
inductive AppPc
  | idle
  /-- `write_data_points` has pushed, the buffer's size then being `currentSize`. -/
  | written (currentSize : Nat)
  | writeChecked (currentSize : Nat)
  | flushChecked
  | flushStored (call : CallId)
  | flushWaiting (call : CallId)
  | closeOpts
  | closeChecked
  | closeStored (call : CallId)
  | closeWaiting (call : CallId)
deriving DecidableEq

namespace AppPc

def call? : AppPc → Option CallId
  | flushStored call | flushWaiting call | closeStored call | closeWaiting call => some call
  | _ => none

end AppPc

/-- What ended the `select!`. -/
inductive Wake
  | notified
  | interval
  | cancelled
deriving DecidableEq

inductive LoopAction
  | joined
  | flush (wake : Wake) (order : TakeOrder)
  | flushDone
  | resumedCallbackDone (order : TakeOrder)
  | sent (result : Except Error Unit)
  | resent
  | ack (ack : Message.UpstreamChunkAck)
  | ackClosed
  | ackWaited
  | ackTimedOut
  | closeRequest
  | closeResponded (result : Except Error Unit)
  | closeDone
  | recover
  | exit
  | processRemaining (order : TakeOrder)

inductive AppAction
  | write (dpg : DataPointGroup)
  | writeCheck
  | writeNotify
  | flush
  | flushStore
  | flushNotify
  | close (closeSession : Option Bool)
  | closeCheck
  | closeStore
  | closeCancel
  | received
  | closeTimedOut
  /-- The future of a waiting call is dropped. -/
  | drop

inductive Action
  | loop (a : LoopAction)
  | resume (a : ResumeAction)
  | app (a : AppAction)
  | wire (a : WireAction)
  /-- `Conn::close` cancels the stream. -/
  | cancel

/-- What took the buffer. -/
inductive TakeSite
  | offline
  | afterResume
  | flushLoop
  | remaining
deriving DecidableEq

inductive Event
  | resume (e : ResumeEvent)
  | pushed (dpg : DataPointGroup)
  | wrote (result : Except Error Unit)
  | took (site : TakeSite) (dpgs : List DataPointGroup) (chunk : Message.UpstreamChunk)
  | sendDataPointsCallback (chunk : UpstreamChunk)
  | handed (conn : ConnId) (chunk : Message.UpstreamChunk)
  | sendFailed (conn : ConnId) (chunk : Message.UpstreamChunk)
  | acked (sequenceNumber : UInt32)
  | receiveAckCallback (result : UpstreamChunkResult)
  /-- `after_resume` begins, with `resumed_callback`. -/
  | afterResume (conn : ConnId)
  | afterResumeDone (conn : ConnId) (ok : Bool)
  | closeRequested (totalDataPoints : UInt64) (finalSequenceNumber : UInt32)
      (closeSession : Option Bool)
  | closeResponded (result : Except Error Unit)
  | flushReturned (result : Except Error Unit)
  /-- `close` found the stream cancelled and returned `Ok`. -/
  | closeSkipped
  | closeReturned (result : Except Error Unit)
deriving DecidableEq

structure State where
  wire : WireConns
  resume : Resume
  flusher : UpstreamFlusher
  state : UpstreamState
  loop : LoopPc := .offline
  /-- The permit of `notify_flush`. -/
  notify : Bool := false
  isConnected : Bool := true
  txResult : Option CallId := none
  closeOpts : Option Bool := none
  ct : Bool := false
  app : AppPc := .idle
  /-- What has been sent to the application's call. -/
  reply : Option (Except Error Unit) := none
  calls : CallId := 0

namespace State

/-- What `may_send_err` does with `tx_result`: the sender in it is taken and the result sent. -/
def maySend (s : State) (result : Except Error Unit) : State :=
  match s.txResult with
  | some call =>
    { s with txResult := none, reply := if s.app.call? = some call then some result else s.reply }
  | none => s

/-- `take_chunk` and `add_chunk`. -/
def take (site : TakeSite) (order : TakeOrder) (s : State) :
    Option Message.UpstreamChunk × State × List Event :=
  match s.flusher.take order s.resume.streamIdAlias s.state with
  | (some t, flusher, state) =>
    (some t.chunk, { s with flusher := flusher, state := state },
      .took site t.dpgs t.chunk :: (t.call.map .sendDataPointsCallback).toList)
  | (none, flusher, state) => (none, { s with flusher := flusher, state := state }, [])

/-- Whether a `select!` may end by `wake`, which uses up a permit. -/
def wake (config : UpstreamConfig) (s : State) : Wake → Option State
  | .notified => if s.notify then some { s with notify := false } else none
  | .interval => if config.flushPolicy.interval.isSome then some s else none
  | .cancelled => if s.ct then some s else none

/-- The end of the connection loop's body: the stream is given up, or a resume task is spawned. -/
def recover (config : UpstreamConfig) (s : State) (needResume : Bool) : State :=
  if config.expiryInterval = 0 ∨ s.ct then { s with isConnected := false, loop := .returned }
  else
    let resume := { s.resume with needResume := s.resume.needResume || needResume }
    { s with isConnected := false, resume := resume.restart 0, loop := .offline }

/-- Whether the close phase still waits for the last ack. -/
def ackAwaited (s : State) : Prop :=
  0 < s.state.lastIssuedSequenceNumber ∧
    s.flusher.storage.lastReceivedSequenceNumber ≠ some s.state.lastIssuedSequenceNumber

instance (s : State) : Decidable s.ackAwaited := inferInstanceAs (Decidable (_ ∧ _))

def processAck (s : State) (ack : Message.UpstreamChunkAck) : State × List Event :=
  let (flusher, calls) := s.flusher.processAck ack
  ({ s with flusher := flusher },
    ack.results.map (fun r => .acked r.sequenceNumber) ++ calls.map .receiveAckCallback)

end State

def loopStep (config : UpstreamConfig) (s : State) : LoopAction → Option (State × List Event)
  | .joined =>
    match s.loop, s.resume.pc with
    | .offline, .registered =>
      some ({ s with isConnected := true, loop := .afterResume }, [.afterResume s.resume.wireConn])
    | .offline, .gaveUp | .offline, .failed _ => some ({ s with loop := .returned }, [])
    | _, _ => none
  | .flush wake order =>
    match s.loop, s.wake config wake with
    | .offline, some s =>
      if wake = .cancelled then none
      else
        let (_, s, evs) := s.take .offline order
        some ({ s with loop := .offlineFlushed }, evs)
    | .flushLoop, some s =>
      let close := decide (wake = .cancelled)
      match s.take .flushLoop order with
      | (some chunk, s, evs) => some ({ s with loop := .sending chunk close }, evs)
      | (none, s, evs) => some ({ s with loop := .flushed (.ok ()) close }, evs)
    | _, _ => none
  | .flushDone =>
    match s.loop with
    | .offlineFlushed => some ({ s.maySend (.ok ()) with loop := .offline }, [])
    | .flushed (.error e) _ => some ({ s.maySend (.error e) with loop := .lost }, [])
    | .flushed (.ok ()) close =>
      let close := close || s.state.lastIssuedSequenceNumber == 4294967295
      some ({ s.maySend (.ok ()) with loop := if close then .waitAck else .flushLoop }, [])
    | _ => none
  | .resumedCallbackDone order =>
    match s.loop with
    | .afterResume =>
      if config.qos = .reliable then
        some ({ s with loop := .resending s.flusher.storage.iterChunks }, [])
      else
        let (_, s, evs) := s.take .afterResume order
        some ({ s with loop := .flushLoop }, evs ++ [.afterResumeDone s.resume.wireConn true])
    | _ => none
  | .sent result =>
    let conn := s.resume.wireConn
    match s.loop, result with
    | .resending (chunk :: todo), .ok () =>
      some ({ s with loop := .resending todo }, [.handed conn chunk])
    | .resending (chunk :: _), .error _ =>
      some (s.recover config false, [.sendFailed conn chunk, .afterResumeDone conn false])
    | .sending chunk close, .ok () =>
      some ({ s with loop := .flushed (.ok ()) close }, [.handed conn chunk])
    | .sending chunk close, .error e =>
      some ({ s with loop := .flushed (.error e) close }, [.sendFailed conn chunk])
    | _, _ => none
  | .resent =>
    match s.loop with
    | .resending [] => some ({ s with loop := .flushLoop }, [.afterResumeDone s.resume.wireConn true])
    | _ => none
  | .ack ack =>
    match s.loop with
    | .flushLoop => some (s.processAck ack)
    | .waitAck => if s.ackAwaited then some (s.processAck ack) else none
    | _ => none
  | .ackClosed =>
    match s.loop with
    | .flushLoop => some ({ s with loop := .lost }, [])
    | .waitAck => if s.ackAwaited then some ({ s with loop := .closeRequest }, []) else none
    | _ => none
  | .ackWaited =>
    match s.loop with
    | .waitAck => if s.ackAwaited then none else some ({ s with loop := .closeRequest }, [])
    | _ => none
  | .ackTimedOut =>
    match s.loop with
    | .waitAck => if s.ackAwaited then some ({ s with loop := .closeRequest }, []) else none
    | _ => none
  | .closeRequest =>
    match s.loop with
    | .closeRequest =>
      some ({ s with closeOpts := none, loop := .closing },
        [.closeRequested s.state.totalDataPoints s.state.lastIssuedSequenceNumber s.closeOpts])
    | _ => none
  | .closeResponded result =>
    match s.loop with
    | .closing => some ({ s with loop := .closed result }, [.closeResponded result])
    | _ => none
  | .closeDone =>
    match s.loop with
    | .closed result => some ({ s.maySend result with loop := .returned }, [])
    | _ => none
  | .recover =>
    match s.loop with
    | .lost => some (s.recover config true, [])
    | _ => none
  | .exit =>
    match s.loop with
    | .returned => some ({ s with ct := true, loop := .remaining }, [])
    | _ => none
  | .processRemaining order =>
    match s.loop with
    | .remaining =>
      let (_, s, evs) := s.take .remaining order
      some ({ s with loop := .exited }, evs)
    | _ => none

def appStep (config : UpstreamConfig) (s : State) : AppAction → Option (State × List Event)
  | .write dpg =>
    match s.app with
    | .idle =>
      let size := s.state.bufferPayloadSize + payloadSize dpg.dataPoints
      let state := { s.state with
        dataPointsBuffer := s.state.dataPointsBuffer ++ [dpg]
        bufferPayloadSize := size }
      some ({ s with state := state, app := .written size }, [.pushed dpg])
    | _ => none
  | .writeCheck =>
    match s.app with
    | .written size =>
      if s.ct then some ({ s with app := .idle }, [.wrote (.error .streamClosed)])
      else some ({ s with app := .writeChecked size }, [])
    | _ => none
  | .writeNotify =>
    match s.app with
    | .writeChecked size =>
      let notify := s.notify || config.flushPolicy.needFlush size
      some ({ s with notify := notify, app := .idle }, [.wrote (.ok ())])
    | _ => none
  | .flush =>
    match s.app with
    | .idle =>
      if s.ct then some (s, [.flushReturned (.error .streamClosed)])
      else some ({ s with app := .flushChecked }, [])
    | _ => none
  | .flushStore =>
    match s.app with
    | .flushChecked =>
      some ({ s with txResult := some s.calls, reply := none, calls := s.calls + 1,
                     app := .flushStored s.calls }, [])
    | _ => none
  | .flushNotify =>
    match s.app with
    | .flushStored call => some ({ s with notify := true, app := .flushWaiting call }, [])
    | _ => none
  | .close closeSession =>
    match s.app with
    | .idle => some ({ s with closeOpts := closeSession, app := .closeOpts }, [])
    | _ => none
  | .closeCheck =>
    match s.app with
    | .closeOpts =>
      if s.ct then some ({ s with app := .idle }, [.closeSkipped])
      else some ({ s with app := .closeChecked }, [])
    | _ => none
  | .closeStore =>
    match s.app with
    | .closeChecked =>
      some ({ s with txResult := some s.calls, reply := none, calls := s.calls + 1,
                     app := .closeStored s.calls }, [])
    | _ => none
  | .closeCancel =>
    match s.app with
    | .closeStored call => some ({ s with ct := true, app := .closeWaiting call }, [])
    | _ => none
  | .received =>
    match s.app, s.reply with
    | .flushWaiting _, some result => some ({ s with app := .idle }, [.flushReturned result])
    | .closeWaiting _, some result => some ({ s with app := .idle }, [.closeReturned result])
    | _, _ => none
  | .closeTimedOut =>
    match s.app, s.reply with
    | .closeWaiting _, none =>
      some ({ s with app := .idle }, [.closeReturned (.error (.unexpected "close timeout"))])
    | _, _ => none
  | .drop =>
    match s.app with
    | .flushWaiting _ | .closeWaiting _ => some ({ s with app := .idle }, [])
    | _ => none

def step (config : UpstreamConfig) (s : State) : Action → Option (State × List Event)
  | .loop a => loopStep config s a
  | .resume a =>
    (s.resume.step .up (config.expiryInterval = 0) s.ct s.wire a).map fun (r, evs) =>
      ({ s with resume := r }, evs.map .resume)
  | .app a => appStep config s a
  | .wire a => (s.wire.step a).map fun w => ({ s with wire := w }, [])
  | .cancel => some ({ s with ct := true }, [])

/-- An upstream that has just been opened: what `Upstream::new` starts the loop with. -/
structure Opened where
  config : UpstreamConfig
  conn : ConnId
  streamIdAlias : UInt32
  resumeToken : String
  dataIdAliases : BTreeMap DataId := ∅
  order : IterOrder (UInt32 × DataId) := .asIs

namespace Opened

def init (o : Opened) : State where
  wire := { version := o.conn }
  resume :=
    { pc := .poll, wireConn := o.conn, seen := 0, localToken := "", needResume := false,
      streamIdAlias := o.streamIdAlias, resumeToken := o.resumeToken }
  flusher := .new o.config o.dataIdAliases o.order
  state := { dataIdAliases := o.dataIdAliases }

def machine (o : Opened) : Machine State Action Event where
  init := o.init
  log₀ := [.resume (.opened o.conn o.streamIdAlias o.resumeToken)]
  step := step o.config

end Opened

/-! ### Sample runs -/

def Event.isHandedOn (conn : ConnId) : Event → Bool
  | .handed c _ => c = conn
  | _ => false

/-- A stream opened with the default configuration. -/
def defaultOpened : Opened where
  config := {}
  conn := 0
  streamIdAlias := 1
  resumeToken := "a"

/-- The steps from there into the flush loop. -/
def startRun : List Action :=
  [.resume (.poll 0 true), .loop .joined, .loop (.resumedCallbackDone .asIs)]

/-- A reliable stream opened under alias 1 that flushes each write. -/
def reliableOpened : Opened where
  config := { qos := .reliable, flushPolicy := .immediately }
  conn := 0
  streamIdAlias := 1
  resumeToken := "a"

/-- A chunk is handed to the first connection, which is then lost, and to the second one, where the
stream has been resumed under the alias `idAlias`. -/
def resendRun (idAlias : UInt32) : List Action :=
  [.resume (.poll 0 true), .loop .joined, .loop (.resumedCallbackDone .asIs), .loop .resent,
    .app (.write ⟨⟨"a", "t"⟩, [⟨0, [7]⟩]⟩), .app .writeCheck, .app .writeNotify,
    .loop (.flush .notified .asIs), .loop (.sent (.ok ())), .loop .flushDone,
    .wire (.disconnect 0), .wire .publish, .loop .ackClosed, .loop .recover,
    .resume (.poll 0 true), .resume (.updated 1), .resume (.poll 0 true),
    .resume (.responded (.ok (idAlias, "b"))), .resume (.poll 0 true), .loop .joined,
    .loop (.resumedCallbackDone .asIs), .loop (.sent (.ok ())), .loop .resent]

end Iscp.Upstream
