import Iscp.E2e
import Iscp.Resume
import Iscp.Wire.ReadLoop

/-!
# Sending calls

`send_call`, `send_reply_call` and `send_call_and_wait_reply_call` as a machine: any number of invocations,
each with its attempts, the wire connections they use one after the other, and of each connection the read
loop with its queue of commands, its table of the calls that wait for an ack, and the broadcast channel of
the calls that arrive. The read loop's `select!` may take a command or a message when both are there. A
second, unreliable read loop gets no registration of a call and is left out.
-/

namespace Iscp

namespace Message

structure UpstreamCall where
  callId : String
  requestCallId : String
  destinationNodeId : String
  name : String
  type_ : String
  payload : Bytes
deriving DecidableEq

end Message

/-- `iscp::UpstreamCall` -/
structure UpstreamCall where
  destinationNodeId : String
  name : String
  type_ : String
  payload : Bytes
deriving DecidableEq

/-- `iscp::UpstreamReplyCall` -/
structure UpstreamReplyCall where
  requestCallId : String
  destinationNodeId : String
  name : String
  type_ : String
  payload : Bytes
deriving DecidableEq

/-- The call whose table entry a command is about. -/
def Wire.ReadLoopCommand.callId? {Tx : Type} : Wire.ReadLoopCommand Tx → Option String
  | subscribeCallAck callId _ | removeCallAck callId => some callId
  | _ => none

namespace Calls

open E2e (ConnectionState)
open Message (UpstreamCallAck)
open Wire (ReadLoopChannels ReadLoopCommand)

inductive Request
  | sendCall (call : UpstreamCall)
  | sendReplyCall (call : UpstreamReplyCall)
  | sendCallAndWaitReplyCall (call : UpstreamCall)
deriving DecidableEq

namespace Request

/-- The message of an attempt. -/
def message (callId : String) : Request → Message.UpstreamCall
  | sendCall call | sendCallAndWaitReplyCall call =>
    ⟨callId, "", call.destinationNodeId, call.name, call.type_, call.payload⟩
  | sendReplyCall call =>
    ⟨callId, call.requestCallId, call.destinationNodeId, call.name, call.type_, call.payload⟩

def waitsReply : Request → Bool
  | sendCallAndWaitReplyCall _ => true
  | _ => false

end Request

/-- An attempt from `subscribe_call_ack` on; `tx` is the oneshot of its ack, by the number of those made
before. -/
structure Attempt where
  request : Request
  callId : String
  conn : ConnId
  tx : Nat
deriving DecidableEq

inductive Phase
  /-- Before `subscribe_downstream_call`. -/
  | subscribed
  /-- In `send_message`. -/
  | sending
  | waitingAck
  /-- In `wait_matching_reply`. -/
  | waitingReply
deriving DecidableEq

inductive CallPc
  | idle
  /-- In `wait_for_state`. -/
  | waiting (request : Request)
  /-- Has a call id. -/
  | started (request : Request) (callId : String)
  /-- `rx` is what the broadcast subscription has not read, if there is one. -/
  | active (phase : Phase) (a : Attempt) (rx : Option (List Message.DownstreamCall))
  | ended
deriving DecidableEq

inductive Result
  | callId (callId : String)
  | reply (call : DownstreamReplyCall)
deriving DecidableEq

/-- The part of a wire connection that the calls use; of its read loop the queue and the tables. -/
structure WireConn where
  ct : Bool := false
  readerExited : Bool := false
  channels : ReadLoopChannels Nat := {}
  commands : List (ReadLoopCommand Nat) := []

structure State where
  state : ConnectionState := .connected
  ct : Bool := false
  conns : ConnId → WireConn := fun _ => {}
  /-- The connection in `shared_wire_conn`. -/
  current : ConnId := 0
  calls : Nat → CallPc := fun _ => .idle
  /-- The acks that were sent into the oneshots. -/
  acks : Nat → Option UpstreamCallAck := fun _ => none
  made : Nat := 0

inductive CallAction
  /-- The application calls one of the three methods. -/
  | invoke (request : Request)
  /-- `wait_for_state` returns, and `new_call_id` this id. -/
  | stateSeen (callId : String)
  /-- `wire_conn` and `subscribe_call_ack`. -/
  | subscribe
  | subscribeDownstreamCall
  | sent
  | sendFailed (e : Error)
  /-- The oneshot's receiver is woken. -/
  | ackReceived
  | receive
  | replyTimedOut
  /-- `inner.ct` is found cancelled. -/
  | cancelled
  /-- The application drops the future. -/
  | drop

inductive Action
  | call (i : Nat) (a : CallAction)
  /-- The read loop takes a command. -/
  | process (conn : ConnId)
  | read (conn : ConnId) (msg : Message.MessageEnum)
  /-- The read loop fails, or finds the connection cancelled. -/
  | exit (conn : ConnId)
  /-- A command of a stream. -/
  | command (conn : ConnId) (command : ReadLoopCommand Nat)
  | lost (conn : ConnId)
  /-- The next connection is published. -/
  | published
  | stateChanged (state : ConnectionState)
  | cancel

inductive Event
  | started (i : Nat) (callId : String)
  | subscribed (i : Nat) (a : Attempt)
  /-- The attempt has its subscription of the calls that arrive. -/
  | listening (i : Nat) (a : Attempt)
  | sent (conn : ConnId) (call : Message.UpstreamCall)
  | ackRead (conn : ConnId) (ack : UpstreamCallAck)
  /-- The ack is sent into the oneshot. -/
  | delivered (tx : Nat) (ack : UpstreamCallAck)
  /-- The attempt goes on, or is done, with its call acknowledged. -/
  | acknowledged (i : Nat) (a : Attempt) (ack : UpstreamCallAck)
  | arrived (conn : ConnId) (call : Message.DownstreamCall)
  /-- The attempt ends, with this result unless it is dropped; so does its guard. -/
  | left (i : Nat) (a : Attempt) (result : Option (Except Error Result))
  | returned (i : Nat) (result : Except Error Result)
deriving DecidableEq

/-- The reply as it is returned. -/
def replyOf (call : Message.DownstreamCall) : DownstreamReplyCall :=
  ⟨call.requestCallId, call.sourceNodeId, call.name, call.type_, call.payload⟩

/-- A call is sent to the subscriptions of its connection; one that is full loses its oldest call. -/
def CallPc.arrive (capacity : Nat) (conn : ConnId) (call : Message.DownstreamCall) : CallPc → CallPc
  | active phase a (some queue) =>
    if a.conn = conn then
      let queue := queue ++ [call]
      active phase a (some (queue.drop (queue.length - capacity)))
    else active phase a (some queue)
  | pc => pc

namespace State

def setCall (s : State) (i : Nat) (pc : CallPc) : State :=
  { s with calls := Function.update s.calls i pc }

def setConn (s : State) (conn : ConnId) (w : WireConn) : State :=
  { s with conns := Function.update s.conns conn w }

def setAck (s : State) (tx : Nat) (ack : UpstreamCallAck) : State :=
  { s with acks := Function.update s.acks tx (some ack) }

/-- Sends a command to the read loop. -/
def push (s : State) (conn : ConnId) (command : ReadLoopCommand Nat) : State :=
  s.setConn conn { s.conns conn with commands := (s.conns conn).commands ++ [command] }

/-- The guard of an attempt is dropped. -/
def dropGuard (s : State) (a : Attempt) : State :=
  if (s.conns a.conn).readerExited then s else s.push a.conn (.removeCallAck a.callId)

/-- An invocation's attempt has failed: it tries again or returns the error. -/
def retry (s : State) (i : Nat) (request : Request) (e : Error) : State × List Event :=
  if e.canRetry then (s.setCall i (.waiting request), []) else (s.setCall i .ended, [.returned i (.error e)])

def leaveOk (s : State) (i : Nat) (a : Attempt) (result : Result) : State × List Event :=
  ((s.dropGuard a).setCall i .ended, [.left i a (some (.ok result)), .returned i (.ok result)])

def leaveError (s : State) (i : Nat) (a : Attempt) (e : Error) : State × List Event :=
  match (s.dropGuard a).retry i a.request e with
  | (s, evs) => (s, .left i a (some (.error e)) :: evs)

/-- Whether the oneshot's sender is in the table or in the queue. -/
def senderAlive (s : State) (a : Attempt) : Bool :=
  let w := s.conns a.conn
  w.channels.txCallAck[a.callId]? = some a.tx ||
    w.commands.any fun
      | .subscribeCallAck callId tx => callId = a.callId ∧ tx = a.tx
      | _ => false

/-- The read loop ends: its guard cancels the connection, and its tables and its queue are dropped. -/
def exitReader (s : State) (conn : ConnId) : State :=
  s.setConn conn { ct := true, readerExited := true }

/-- The body of the read loop after a message is read. -/
def onMessage (capacity : Nat) (s : State) (conn : ConnId) (msg : Message.MessageEnum) :
    State × List Event :=
  let w := s.conns conn
  match msg with
  | .downstreamCall call =>
    ({ s with calls := fun i => (s.calls i).arrive capacity conn call }, [.arrived conn call])
  | .disconnect _ _ => (s.exitReader conn, [])
  | .upstreamCallAck ack =>
    match w.channels.processMessage (.upstreamCallAck ack) with
    | (.callAck tx ack, channels) =>
      ((s.setConn conn { w with channels := channels }).setAck tx ack,
        [.ackRead conn ack, .delivered tx ack])
    | (_, channels) => (s.setConn conn { w with channels := channels }, [.ackRead conn ack])
  | msg => (s.setConn conn { w with channels := (w.channels.processMessage msg).2 }, [])

end State

def callStep (s : State) (i : Nat) : CallAction → Option (State × List Event)
  | .invoke request =>
    match s.calls i with
    | .idle => some (s.setCall i (.waiting request), [])
    | _ => none
  | .stateSeen callId =>
    match s.calls i with
    | .waiting request =>
      match s.state with
      | .connected => some (s.setCall i (.started request callId), [.started i callId])
      | .closed => some (s.setCall i .ended, [.returned i (.error .connectionClosed)])
      | _ => none
    | _ => none
  | .subscribe =>
    match s.calls i with
    | .started request callId =>
      let conn := s.current
      if (s.conns conn).ct ∨ (s.conns conn).readerExited then some (s.retry i request .connectionClosed)
      else
        let a : Attempt := ⟨request, callId, conn, s.made⟩
        let phase := if request.waitsReply then Phase.subscribed else .sending
        some (({ s with made := s.made + 1 }.push conn (.subscribeCallAck callId a.tx)).setCall i
          (.active phase a none), [.subscribed i a])
    | _ => none
  | .subscribeDownstreamCall =>
    match s.calls i with
    | .active .subscribed a none => some (s.setCall i (.active .sending a (some [])), [.listening i a])
    | _ => none
  | .sent =>
    match s.calls i with
    | .active .sending a rx =>
      some (s.setCall i (.active .waitingAck a rx), [.sent a.conn (a.request.message a.callId)])
    | _ => none
  | .sendFailed e =>
    match s.calls i with
    | .active .sending a _ =>
      if e = .timeout "" ∨ e = .unexpected "write loop closed" ∨
          (s.conns a.conn).ct ∧ e = .cancelledByClose then some (s.leaveError i a e)
      else none
    | _ => none
  | .ackReceived =>
    match s.calls i with
    | .active .waitingAck a rx =>
      match s.acks a.tx with
      | some ack =>
        match rx with
        | none =>
          match s.leaveOk i a (.callId a.callId) with
          | (s, evs) => some (s, .acknowledged i a ack :: evs)
        | some queue =>
          some (s.setCall i (.active .waitingReply a (some queue)), [.acknowledged i a ack])
      | none => if s.senderAlive a then none else some (s.leaveError i a .connectionClosed)
    | _ => none
  | .receive =>
    match s.calls i with
    | .active .waitingReply a (some (call :: queue)) =>
      if call.requestCallId = a.callId then some (s.leaveOk i a (.reply (replyOf call)))
      else some (s.setCall i (.active .waitingReply a (some queue)), [])
    | .active .waitingReply a (some []) =>
      if (s.conns a.conn).readerExited then some (s.leaveError i a .connectionClosed) else none
    | _ => none
  -- The timeout polls the wait first, which returns a matching call that it has not read.
  | .replyTimedOut =>
    match s.calls i with
    | .active .waitingReply a (some queue) =>
      if queue.any (·.requestCallId = a.callId) then none
      else some (s.leaveError i a (.timeout "wait reply call"))
    | _ => none
  | .cancelled =>
    match s.calls i with
    | .started request _ => if s.ct then some (s.retry i request .cancelledByClose) else none
    | .active _ a _ => if s.ct then some (s.leaveError i a .cancelledByClose) else none
    | _ => none
  | .drop =>
    match s.calls i with
    | .waiting _ | .started _ _ => some (s.setCall i .ended, [])
    | .active _ a _ => some ((s.dropGuard a).setCall i .ended, [.left i a none])
    | _ => none

def step (c : E2e.Config) (s : State) : Action → Option (State × List Event)
  | .call i a => callStep s i a
  | .process conn =>
    let w := s.conns conn
    match w.commands with
    | command :: commands =>
      some (s.setConn conn { w with channels := w.channels.processCommand command, commands := commands }, [])
    | [] => none
  | .read conn msg =>
    if s.current < conn ∨ (s.conns conn).readerExited then none else some (s.onMessage c.capacity conn msg)
  | .exit conn =>
    if s.current < conn ∨ (s.conns conn).readerExited then none else some (s.exitReader conn, [])
  | .command conn command =>
    if s.current < conn ∨ (s.conns conn).readerExited ∨ command.callId?.isSome then none
    else some (s.push conn command, [])
  | .lost conn =>
    if s.current < conn then none else some (s.setConn conn { s.conns conn with ct := true }, [])
  | .published => if (s.conns s.current).ct then some ({ s with current := s.current + 1 }, []) else none
  | .stateChanged state => some ({ s with state := state }, [])
  | .cancel => some ({ s with ct := true }, [])

def machine (c : E2e.Config) : Machine State Action Event where
  init := {}
  log₀ := []
  step := step c

end Calls
end Iscp
