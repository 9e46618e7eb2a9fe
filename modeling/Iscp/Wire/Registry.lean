import Iscp.Lib.Machine
import Iscp.Wire.ReadLoop
import Mathlib.Logic.Function.Basic

/-!
# Downstreams on one wire connection

How the downstreams of one connection come to their messages: the requests that open or resume them and
carry the alias, the responses that the read loop hands to the requesting task through a oneshot, the
`add_downstream` of the stream's own task, its commands on their way to the read loops, and the messages
that the read loops read. There are any number of streams, and a second read loop if the transport has an
unreliable reader. A step is what one task does up to its next await.

A send of the read loop into an upstream's ack channel, a call ack's oneshot or the queue of pongs only
delays it and is not followed here. A command leaves the read loop's buffer empty, which decodes to a
message without content, and that is dropped.
-/

namespace Iscp.Wire

variable {n : Nat}

inductive Reader
  | main
  | unreliable
deriving DecidableEq

/-- A downstream's message channel, by its stream and the number of channels made before it. -/
structure Tx (n : Nat) where
  stream : Fin n
  made : Nat
deriving DecidableEq

structure Channel where
  msgs : List ReceivableDownstreamMsg := []
  rxDropped : Bool := false

inductive ReaderPc (n : Nat)
  /-- In the `select!`. -/
  | selecting
  /-- In `tx.send` of `process_message`, with the message read as number `read`. -/
  | sending (read : Nat) (tx : Tx n) (msg : ReceivableDownstreamMsg)
  | exited
deriving DecidableEq

structure ReadLoop (n : Nat) where
  pc : ReaderPc n := .selecting
  channels : ReadLoopChannels (Tx n) := {}
  commands : List (ReadLoopCommand (Tx n)) := []

inductive StreamPc (n : Nat)
  /-- Not asking for anything. -/
  | idle
  /-- In `request_message_need_response` of an open or resume request. -/
  | requesting (resume : Bool) (streamIdAlias requestId : UInt32)
  /-- There, with the response in the oneshot. -/
  | answered (resume : Bool) (streamIdAlias : UInt32) (response : Message.MessageEnum)
  /-- Before `add_downstream`. -/
  | opened (streamIdAlias : UInt32)
  /-- Past `add_downstream`; `unreliable` tells whether it registered with the unreliable reader too. -/
  | registered (streamIdAlias : UInt32) (tx : Tx n) (unreliable : Bool)
  | closed

inductive Action (n : Nat)
  | request (stream : Fin n) (resume : Bool)
  /-- The request fails, times out or is dropped. -/
  | requestFailed (stream : Fin n)
  | responded (stream : Fin n)
  | add (stream : Fin n) (unreliable : Bool)
  /-- The stream's loop goes back to its resume loop. -/
  | leave (stream : Fin n)
  | close (stream : Fin n)
  /-- The stream's loop takes a message from its channel. -/
  | recv (stream : Fin n)
  /-- A request of any other task. -/
  | otherRequest
  /-- A command of any other task. -/
  | command (command : ReadLoopCommand (Tx n))
  | process (reader : Reader)
  | read (reader : Reader) (msg : Message.MessageEnum)
  | sent (reader : Reader)
  | lost
  | exit (reader : Reader)

inductive Event (n : Nat)
  /-- The successful response to the request with this alias is read. -/
  | answered (stream : Fin n) (streamIdAlias : UInt32)
  | registered (stream : Fin n) (tx : Tx n)
  | closed (stream : Fin n)
  | read (reader : Reader) (read : Nat) (msg : Message.MessageEnum)
  /-- The message is put into the channel. -/
  | delivered (reader : Reader) (read : Nat) (tx : Tx n) (msg : ReceivableDownstreamMsg)
  | dropped (reader : Reader) (read : Nat)
  | lost
deriving DecidableEq

/-- The parts of `ConnInner` and of the tasks. A response sender with no stream belongs to another task. -/
structure State (n : Nat) where
  ct : Bool := false
  streamIdAliasCounter : UInt32 := 1
  requestIdCounter : UInt32 := 0
  responseSenders : BTreeMap (Option (Fin n)) := ∅
  streams : Fin n → StreamPc n := fun _ => .idle
  readers : Reader → ReadLoop n := fun _ => {}
  chans : Tx n → Channel := fun _ => {}
  made : Nat := 0
  reads : Nat := 0

/-- What the connection is made with. -/
structure Config where
  channelSize : Nat
  /-- Whether the transport has an unreliable reader. -/
  unreliable : Bool

/-- Whether `request_open` or `request_resume`, and what follows the former in `Downstream::new`, accept
the response. -/
def accepts (resume : Bool) : Message.MessageEnum → Bool
  | .response r =>
    ResultCode.ofI32 r.resultCode = some .succeeded &&
      match resume, r.body with
      | false, .downstreamOpen assignedStreamId serverTime _ =>
        (parseStreamId assignedStreamId).isOk && (unixEpochToSystemTime serverTime).isOk
      | true, .downstreamResume _ => true
      | _, _ => false
  | _ => false

namespace State

def setStream (s : State n) (stream : Fin n) (pc : StreamPc n) : State n :=
  { s with streams := Function.update s.streams stream pc }

def setReader (s : State n) (reader : Reader) (l : ReadLoop n) : State n :=
  { s with readers := Function.update s.readers reader l }

def setChannel (s : State n) (tx : Tx n) (chan : Channel) : State n :=
  { s with chans := Function.update s.chans tx chan }

/-- Sends a command to a reader; a reader that is gone will not take it. -/
def push (s : State n) (reader : Reader) (command : ReadLoopCommand (Tx n)) : State n :=
  s.setReader reader
    { s.readers reader with commands := (s.readers reader).commands ++ [command] }

/-- Sends a command to the readers that a stream registers with. -/
def pushAll (s : State n) (unreliable : Bool) (command : ReadLoopCommand (Tx n)) : State n :=
  (if unreliable then s.push .unreliable command else s).push .main command

/-- `add_downstream`; `extra` tells whether there is an unreliable reader to register with. When only the
main reader is gone, the guard of the other registration is dropped at once. -/
def addDownstream (s : State n) (stream : Fin n) (streamIdAlias : UInt32) (extra : Bool) :
    State n × List (Event n) :=
  let tx := ⟨stream, s.made⟩
  if extra ∧ (s.readers .unreliable).pc = .exited then (s, [])
  else if (s.readers .main).pc = .exited then
    if extra then
      ((s.push .unreliable (.addDownstream streamIdAlias tx)).push .unreliable
        (.removeDownstream streamIdAlias), [])
    else (s, [])
  else
    (({ s with made := s.made + 1 }.setChannel tx {}).pushAll extra
        (.addDownstream streamIdAlias tx) |>.setStream stream (.registered streamIdAlias tx extra),
      [.registered stream tx])

/-- The receiver and the guards of a registration are dropped. -/
def dropDownstream (s : State n) (streamIdAlias : UInt32) (tx : Tx n) (unreliable : Bool) : State n :=
  (s.setChannel tx { s.chans tx with rxDropped := true }).pushAll unreliable
    (.removeDownstream streamIdAlias)

/-- A message that is not for a channel goes to the task that waits for its request id. -/
def respond (s : State n) (msg : Message.MessageEnum) : State n × List (Event n) :=
  match msg.requestId with
  | none => (s, [])
  | some requestId =>
    if requestId % 2 = 0 then
      match s.responseSenders[requestId]? with
      | none => (s, [])
      | some waiter =>
        let s := { s with responseSenders := s.responseSenders.erase requestId }
        match waiter with
        | none => (s, [])
        | some stream =>
          match s.streams stream with
          | .requesting resume streamIdAlias id =>
            -- A sender of an earlier request of the stream has no receiver any more.
            if id = requestId then
              (s.setStream stream (.answered resume streamIdAlias msg),
                if accepts resume msg then [.answered stream streamIdAlias] else [])
            else (s, [])
          | _ => (s, [])
    else (s, [])

/-- The body of `read_loop` after a message is read. -/
def onMessage (s : State n) (reader : Reader) (msg : Message.MessageEnum) : State n × List (Event n) :=
  let l := s.readers reader
  let read := s.reads
  let s := { s with reads := s.reads + 1 }
  let event := Event.read reader read msg
  match msg with
  | .ping _ | .pong _ | .downstreamCall _ => (s, [event])
  | .disconnect _ _ => ({ s.setReader reader { l with pc := .exited } with ct := true }, [event, .lost])
  | msg =>
    match l.channels.processMessage msg with
    | (.downstreamMsg tx msg, channels) =>
      (s.setReader reader { l with channels := channels, pc := .sending read tx msg }, [event])
    | (.unknown, channels) =>
      (s.setReader reader { l with channels := channels }, [event, .dropped reader read])
    | (.unhandled, channels) =>
      match (s.setReader reader { l with channels := channels }).respond msg with
      | (s, evs) => (s, event :: evs)
    | (_, channels) => (s.setReader reader { l with channels := channels }, [event])

end State

def step (c : Config) (s : State n) : Action n → Option (State n × List (Event n))
  | .request stream resume =>
    match s.streams stream with
    | .idle =>
      let streamIdAlias := s.streamIdAliasCounter
      let s := { s with streamIdAliasCounter := streamIdAlias + 1 }
      -- "stream id alias max reached"
      if streamIdAlias = 0 then some (s, [])
      else
        let requestId := s.requestIdCounter
        some ({ s with
          requestIdCounter := requestId + 2
          responseSenders := s.responseSenders.insert requestId (some stream) }.setStream stream
            (.requesting resume streamIdAlias requestId), [])
    | _ => none
  | .requestFailed stream =>
    match s.streams stream with
    | .requesting _ _ _ => some (s.setStream stream .idle, [])
    | _ => none
  | .responded stream =>
    match s.streams stream with
    | .answered resume streamIdAlias response =>
      some (s.setStream stream (if accepts resume response then .opened streamIdAlias else .idle), [])
    | _ => none
  -- The connection may be lost between the check of `is_connected` and `add_downstream`.
  | .add stream unreliable =>
    match s.streams stream with
    | .opened streamIdAlias => some (s.addDownstream stream streamIdAlias (unreliable && c.unreliable))
    | _ => none
  | .leave stream =>
    match s.streams stream with
    | .registered streamIdAlias tx unreliable =>
      some ((s.dropDownstream streamIdAlias tx unreliable).setStream stream (.opened streamIdAlias), [])
    | _ => none
  | .close stream =>
    match s.streams stream with
    | .registered streamIdAlias tx unreliable =>
      some ((s.dropDownstream streamIdAlias tx unreliable).setStream stream .closed, [.closed stream])
    | .closed => none
    | _ => some (s.setStream stream .closed, [.closed stream])
  | .recv stream =>
    match s.streams stream with
    | .registered _ tx _ =>
      match (s.chans tx).msgs with
      | _ :: msgs => some (s.setChannel tx { s.chans tx with msgs := msgs }, [])
      | [] => none
    | _ => none
  | .otherRequest =>
    some ({ s with
      requestIdCounter := s.requestIdCounter + 2
      responseSenders := s.responseSenders.insert s.requestIdCounter none }, [])
  | .command command =>
    if command.downstream? = none then some (s.push .main command, []) else none
  | .process reader =>
    let l := s.readers reader
    match l.pc, l.commands with
    | .selecting, command :: commands =>
      some (s.setReader reader
        { l with channels := l.channels.processCommand command, commands := commands }, [])
    | _, _ => none
  | .read reader msg =>
    match (s.readers reader).pc with
    | .selecting => some (s.onMessage reader msg)
    | _ => none
  | .sent reader =>
    let l := s.readers reader
    match l.pc with
    | .sending read tx msg =>
      let s := s.setReader reader { l with pc := .selecting }
      let chan := s.chans tx
      if chan.rxDropped then some (s, [.dropped reader read])
      else if chan.msgs.length < c.channelSize then
        some (s.setChannel tx { chan with msgs := chan.msgs ++ [msg] }, [.delivered reader read tx msg])
      else none
    | _ => none
  | .lost => some ({ s with ct := true }, [.lost])
  | .exit reader =>
    let l := s.readers reader
    if s.ct then
      match l.pc with
      | .selecting => some (s.setReader reader { l with pc := .exited }, [])
      | .sending read _ _ => some (s.setReader reader { l with pc := .exited }, [.dropped reader read])
      | .exited => none
    else none

/-- A new connection with `n` streams to come. -/
def machine (n : Nat) (c : Config) : Machine (State n) (Action n) (Event n) where
  init := {}
  log₀ := []
  step := step c

end Iscp.Wire
