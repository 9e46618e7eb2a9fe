import Iscp.Lib.Machine
import Iscp.Wire.Registry
import Mathlib.Data.Fintype.Basic

/-!
# The read loop and the closing streams

The read loops of one wire connection put the messages for the streams into bounded channels and wait
where there is no room. A stream's loop takes them until it sends its close request; from then on it
waits for the response, and leaves its channel alone. There are any number of streams of both kinds, and
a second read loop if the transport has an unreliable reader. A stream registers with whatever alias it
was given; its flushes, acks and deliveries to the application only delay it and are not followed here.
-/

namespace Iscp.Wire.Backpressure

open Message (MessageEnum)

inductive StreamKind
  | upstream
  | downstream
deriving DecidableEq

structure StreamConfig where
  kind : StreamKind
  /-- `expiry_interval.is_zero()` -/
  expiryIntervalIsZero : Bool
  /-- Whether the QoS is unreliable. -/
  unreliable : Bool

structure Config (n : Nat) where
  channelSize : Nat
  /-- Whether the transport has an unreliable reader. -/
  unreliable : Bool
  streams : Fin n → StreamConfig

/-- What a channel of a stream holds. -/
inductive Item
  | ack (ack : Message.UpstreamChunkAck)
  | msg (msg : ReceivableDownstreamMsg)
deriving DecidableEq

structure Channel where
  msgs : List Item := []
  rxDropped : Bool := false

inductive StreamPc (n : Nat)
  /-- Not registered. -/
  | resuming
  | looping (streamIdAlias : UInt32) (tx : Tx n)
  /-- A downstream that has left its read loop and takes what is in the channel. -/
  | draining (streamIdAlias : UInt32) (tx : Tx n)
  | drained (streamIdAlias : UInt32) (tx : Tx n)
  /-- Waits for the last ack, or for the last ack to be completed. -/
  | awaitingAck (streamIdAlias : UInt32) (tx : Tx n)
  /-- In `request_message_need_response` of the close request. -/
  | closing (streamIdAlias : UInt32) (tx : Tx n) (requestId : UInt32)
  /-- There, with the response in the oneshot. -/
  | answered (streamIdAlias : UInt32) (tx : Tx n)
  | ended
deriving DecidableEq

inductive ReaderPc (n : Nat)
  /-- In the `select!`. -/
  | selecting
  /-- In `tx.send` of `process_message`. -/
  | sending (tx : Tx n) (item : Item)
  /-- Waits for room in the queue of the writer or of the ping task. -/
  | busy
  | exited
deriving DecidableEq

structure ReadLoop (n : Nat) where
  pc : ReaderPc n := .selecting
  channels : ReadLoopChannels (Tx n) := {}
  commands : List (ReadLoopCommand (Tx n)) := []

structure State (n : Nat) where
  ct : Bool := false
  requestIdCounter : UInt32 := 0
  /-- A sender with no stream belongs to a request of another kind. -/
  responseSenders : BTreeMap (Option (Fin n)) := ∅
  streams : Fin n → StreamPc n := fun _ => .resuming
  streamCt : Fin n → Bool := fun _ => false
  readers : Reader → ReadLoop n := fun _ => {}
  chans : Tx n → Channel := fun _ => {}
  made : Nat := 0

inductive Action (n : Nat)
  | register (stream : Fin n) (streamIdAlias : UInt32)
  | giveUp (stream : Fin n)
  | cancel (stream : Fin n)
  /-- The stream takes a message from its channel. -/
  | recv (stream : Fin n)
  /-- An upstream has flushed, with the last sequence number or not. -/
  | flushed (stream : Fin n) (maxSeqNumber : Bool)
  /-- The stream leaves its loop: it is cancelled, a send fails, or the channel is closed. -/
  | leaveLoop (stream : Fin n)
  /-- `try_recv` finds nothing. -/
  | drained (stream : Fin n)
  /-- A downstream has sent its last ack. -/
  | acked (stream : Fin n)
  /-- The wait for the last ack is over, or timed out. -/
  | request (stream : Fin n)
  | requestFailed (stream : Fin n)
  | responded (stream : Fin n)
  | otherRequest
  /-- A command of a task that is no stream. -/
  | command (command : ReadLoopCommand (Tx n))
  | process (reader : Reader)
  | read (reader : Reader) (msg : MessageEnum)
  | sent (reader : Reader)
  | resume (reader : Reader)
  | lost
  | exit (reader : Reader)

variable {n : Nat}

def StreamKind.add (kind : StreamKind) (streamIdAlias : UInt32) (tx : Tx n) : ReadLoopCommand (Tx n) :=
  match kind with
  | upstream => .addUpstream streamIdAlias tx
  | downstream => .addDownstream streamIdAlias tx

def StreamKind.remove (kind : StreamKind) (streamIdAlias : UInt32) : ReadLoopCommand (Tx n) :=
  match kind with
  | upstream => .removeUpstream streamIdAlias
  | downstream => .removeDownstream streamIdAlias

/-- Whether a stream registers with the unreliable reader, too. -/
def Config.extra (c : Config n) (stream : Fin n) : Bool :=
  c.unreliable && (c.streams stream).unreliable && (c.streams stream).kind == .downstream

namespace State

def setStream (s : State n) (stream : Fin n) (pc : StreamPc n) : State n :=
  { s with streams := Function.update s.streams stream pc }

def setReader (s : State n) (reader : Reader) (l : ReadLoop n) : State n :=
  { s with readers := Function.update s.readers reader l }

def setChannel (s : State n) (tx : Tx n) (chan : Channel) : State n :=
  { s with chans := Function.update s.chans tx chan }

def push (s : State n) (reader : Reader) (command : ReadLoopCommand (Tx n)) : State n :=
  s.setReader reader
    { s.readers reader with commands := (s.readers reader).commands ++ [command] }

def pushAll (s : State n) (extra : Bool) (command : ReadLoopCommand (Tx n)) : State n :=
  (if extra then s.push .unreliable command else s).push .main command

/-- `add_upstream` or `add_downstream`. When only the main reader is gone, the guard of the other
registration is dropped at once. -/
def register (s : State n) (c : Config n) (stream : Fin n) (streamIdAlias : UInt32) : State n :=
  let kind := (c.streams stream).kind
  let extra := c.extra stream
  let tx := ⟨stream, s.made⟩
  if extra ∧ (s.readers .unreliable).pc = .exited then s
  else if (s.readers .main).pc = .exited then
    if extra then
      (s.push .unreliable (kind.add streamIdAlias tx)).push .unreliable (kind.remove streamIdAlias)
    else s
  else
    ({ s with made := s.made + 1 }.setChannel tx {}).pushAll extra (kind.add streamIdAlias tx)
      |>.setStream stream (.looping streamIdAlias tx)

/-- The stream goes on to `pc` without its receiver and the guards of its registration. -/
def leave (s : State n) (c : Config n) (stream : Fin n) (streamIdAlias : UInt32) (tx : Tx n)
    (pc : StreamPc n) : State n :=
  ((s.setChannel tx { s.chans tx with rxDropped := true }).pushAll (c.extra stream)
    ((c.streams stream).kind.remove streamIdAlias)).setStream stream pc

/-- A message that is not for a channel goes to the task that waits for its request id. -/
def respond (s : State n) (msg : MessageEnum) : State n :=
  match msg.requestId with
  | none => s
  | some requestId =>
    if requestId % 2 = 0 then
      match s.responseSenders[requestId]? with
      | none => s
      | some waiter =>
        let s := { s with responseSenders := s.responseSenders.erase requestId }
        match waiter with
        | none => s
        | some stream =>
          match s.streams stream with
          | .closing streamIdAlias tx id =>
            if id = requestId then s.setStream stream (.answered streamIdAlias tx) else s
          | _ => s
    else s

end State

/-- The channel that a message goes into. -/
def route (ch : ReadLoopChannels (Tx n)) (msg : MessageEnum) : Option (Tx n × Item) :=
  match (ch.processMessage msg).1 with
  | .upstreamChunkAck tx ack => some (tx, .ack ack)
  | .downstreamMsg tx msg => some (tx, .msg msg)
  | _ => none

/-- The body of `read_loop` after a message is read. -/
def State.onMessage (s : State n) (reader : Reader) (msg : MessageEnum) : State n :=
  let l := s.readers reader
  match msg with
  | .ping _ | .pong _ => s.setReader reader { l with pc := .busy }
  | .downstreamCall _ => s
  | .disconnect _ _ => { s.setReader reader { l with pc := .exited } with ct := true }
  | msg =>
    let (routed, channels) := l.channels.processMessage msg
    match route l.channels msg, routed with
    | some (tx, item), _ =>
      s.setReader reader { l with channels := channels, pc := .sending tx item }
    | none, .unhandled => (s.setReader reader { l with channels := channels }).respond msg
    | none, _ => s.setReader reader { l with channels := channels }

def step (c : Config n) (s : State n) : Action n → Option (State n)
  | .register stream streamIdAlias =>
    if s.streams stream = .resuming then some (s.register c stream streamIdAlias) else none
  | .giveUp stream =>
    if s.streams stream = .resuming then some (s.setStream stream .ended) else none
  | .cancel stream => some { s with streamCt := Function.update s.streamCt stream true }
  | .recv stream =>
    match s.streams stream with
    | .looping _ tx | .draining _ tx | .awaitingAck _ tx =>
      match (s.chans tx).msgs with
      | _ :: msgs => some (s.setChannel tx { s.chans tx with msgs := msgs })
      | [] => none
    | _ => none
  | .flushed stream maxSeqNumber =>
    match s.streams stream, (c.streams stream).kind with
    | .looping streamIdAlias tx, .upstream =>
      if s.streamCt stream ∨ maxSeqNumber then
        some (s.setStream stream (.awaitingAck streamIdAlias tx))
      else some s
    | _, _ => none
  | .leaveLoop stream =>
    match s.streams stream, (c.streams stream).kind with
    | .looping streamIdAlias tx, .upstream =>
      some (s.leave c stream streamIdAlias tx
        (if (c.streams stream).expiryIntervalIsZero ∨ s.streamCt stream then .ended else .resuming))
    | .looping streamIdAlias tx, .downstream =>
      some (s.setStream stream (.draining streamIdAlias tx))
    | _, _ => none
  | .drained stream =>
    match s.streams stream with
    | .draining streamIdAlias tx =>
      if (s.chans tx).msgs = [] then some (s.setStream stream (.drained streamIdAlias tx)) else none
    | _ => none
  | .acked stream =>
    match s.streams stream with
    | .drained streamIdAlias tx =>
      if (c.streams stream).expiryIntervalIsZero ∨ s.streamCt stream then
        if s.ct then some (s.leave c stream streamIdAlias tx .ended)
        else some (s.setStream stream (.awaitingAck streamIdAlias tx))
      else some (s.leave c stream streamIdAlias tx .resuming)
    | _ => none
  | .request stream =>
    match s.streams stream with
    | .awaitingAck streamIdAlias tx =>
      let requestId := s.requestIdCounter
      some ({ s with
        requestIdCounter := requestId + 2
        responseSenders := s.responseSenders.insert requestId (some stream) }.setStream stream
          (.closing streamIdAlias tx requestId))
    | _ => none
  | .requestFailed stream =>
    match s.streams stream with
    | .closing streamIdAlias tx _ => some (s.leave c stream streamIdAlias tx .ended)
    | _ => none
  | .responded stream =>
    match s.streams stream with
    | .answered streamIdAlias tx => some (s.leave c stream streamIdAlias tx .ended)
    | _ => none
  | .otherRequest =>
    some { s with
      requestIdCounter := s.requestIdCounter + 2
      responseSenders := s.responseSenders.insert s.requestIdCounter none }
  | .command command =>
    match command with
    | .subscribeCallAck .. | .removeCallAck _ => some (s.push .main command)
    | _ => none
  | .process reader =>
    let l := s.readers reader
    match l.pc, l.commands with
    | .selecting, command :: commands =>
      some (s.setReader reader
        { l with channels := l.channels.processCommand command, commands := commands })
    | _, _ => none
  | .read reader msg =>
    if (s.readers reader).pc = .selecting then some (s.onMessage reader msg) else none
  | .sent reader =>
    let l := s.readers reader
    match l.pc with
    | .sending tx item =>
      let s := s.setReader reader { l with pc := .selecting }
      let chan := s.chans tx
      if chan.rxDropped then some s
      else if chan.msgs.length < c.channelSize then
        some (s.setChannel tx { chan with msgs := chan.msgs ++ [item] })
      else none
    | _ => none
  | .resume reader =>
    let l := s.readers reader
    if l.pc = .busy then some (s.setReader reader { l with pc := .selecting }) else none
  | .lost => some { s with ct := true }
  | .exit reader =>
    if s.ct then some (s.setReader reader { s.readers reader with pc := .exited }) else none

/-- A connection with `n` streams. No event is recorded. -/
def machine (c : Config n) : Machine (State n) (Action n) Empty where
  init := {}
  log₀ := []
  step s a := (step c s a).map fun s => (s, [])

/-! ### What a step does to the channels and the streams that wait -/

section

variable {c : Config n} {s s' : State n} {a : Action n} {stream : Fin n} {reader : Reader} {tx : Tx n}
  {item : Item} {pc : StreamPc n} {l : ReadLoop n} {command : ReadLoopCommand (Tx n)} {chan : Channel}
  {streamIdAlias : UInt32} {msg : MessageEnum}

/-- The channel of a stream that waits for its close response. -/
def StreamPc.closing? : StreamPc n → Option (Tx n)
  | closing _ tx _ => some tx
  | _ => none

/-- The channel of a stream that waits for the last ack. -/
def StreamPc.awaiting? : StreamPc n → Option (Tx n)
  | awaitingAck _ tx => some tx
  | _ => none

def ReaderPc.pending : ReaderPc n → Tx n → Nat
  | sending tx' _, tx => if tx' = tx then 1 else 0
  | _, _ => 0

namespace State

/-- What is in the channel, and what the readers are about to put there. -/
def load (s : State n) (tx : Tx n) : Nat :=
  (s.chans tx).msgs.length + (s.readers .main).pc.pending tx + (s.readers .unreliable).pc.pending tx

theorem load_setReader (s : State n) (reader : Reader) (l : ReadLoop n) (tx : Tx n) :
    (s.setReader reader l).load tx + (s.readers reader).pc.pending tx =
      s.load tx + l.pc.pending tx := by
  cases reader <;> simp only [load, setReader, Function.update_self, ne_eq, reduceCtorEq,
    not_false_eq_true, Function.update_of_ne] <;> omega

theorem load_setChannel (s : State n) (tx : Tx n) (chan : Channel) :
    (s.setChannel tx chan).load tx + (s.chans tx).msgs.length =
      s.load tx + chan.msgs.length := by
  simp only [load, setChannel, Function.update_self]
  omega

theorem load_setChannel_of_ne {tx' : Tx n} (h : tx' ≠ tx) :
    (s.setChannel tx chan).load tx' = s.load tx' := by
  simp only [load, setChannel, Function.update_of_ne h]

end State

/-- No channel gets more to hold, and no stream starts to wait for its close response. -/
structure Shrinks (s s' : State n) : Prop where
  load : ∀ tx, s'.load tx ≤ s.load tx
  closing : ∀ stream tx, (s'.streams stream).closing? = some tx →
    (s.streams stream).closing? = some tx

namespace Shrinks

theorem of_eq (hc : s'.chans = s.chans) (hr : s'.readers = s.readers) (hs : s'.streams = s.streams) :
    Shrinks s s' := by
  refine ⟨fun tx => ?_, fun stream tx h => hs ▸ h⟩
  simp only [State.load, hc, hr]
  exact Nat.le_refl _

theorem trans {s'' : State n} (h : Shrinks s s') (h' : Shrinks s' s'') : Shrinks s s'' :=
  ⟨fun tx => (h'.load tx).trans (h.load tx), fun _ _ hc => h.closing _ _ (h'.closing _ _ hc)⟩

theorem setReader (h : Shrinks s s')
    (hl : ∀ tx, l.pc.pending tx ≤ (s'.readers reader).pc.pending tx) :
    Shrinks s (s'.setReader reader l) := by
  refine ⟨fun tx => ?_, h.closing⟩
  have := State.load_setReader s' reader l tx
  have := hl tx
  have := h.load tx
  omega

theorem setChannel (h : Shrinks s s') (hl : chan.msgs.length ≤ (s'.chans tx).msgs.length) :
    Shrinks s (s'.setChannel tx chan) := by
  refine ⟨fun tx' => ?_, h.closing⟩
  have := h.load tx'
  by_cases he : tx' = tx
  · subst he
    have := State.load_setChannel s' tx' chan
    omega
  · rwa [State.load_setChannel_of_ne he]

theorem setStream (h : Shrinks s s') (hpc : pc.closing? = none) :
    Shrinks s (s'.setStream stream pc) := by
  refine ⟨h.load, fun σ tx hc => h.closing σ tx ?_⟩
  simp only [State.setStream] at hc
  by_cases he : σ = stream
  · subst he
    rw [Function.update_self, hpc] at hc
    cases hc
  · rwa [Function.update_of_ne he] at hc

theorem push (h : Shrinks s s') : Shrinks s (s'.push reader command) :=
  h.setReader fun _ => Nat.le_refl _

theorem pushAll {extra : Bool} (h : Shrinks s s') : Shrinks s (s'.pushAll extra command) := by
  cases extra with
  | true => exact h.push.push
  | false => exact h.push

theorem leave (h : pc.closing? = none) : Shrinks s (s.leave c stream streamIdAlias tx pc) :=
  .setStream (.pushAll (.setChannel (.of_eq rfl rfl rfl) (Nat.le_refl _))) h

theorem register : Shrinks s (s.register c stream streamIdAlias) := by
  have made : Shrinks s ({ s with made := s.made + 1 }.setChannel ⟨stream, s.made⟩ {}) :=
    setChannel (.of_eq rfl rfl rfl) (Nat.zero_le _)
  simp only [State.register]
  split_ifs
  · exact .of_eq rfl rfl rfl
  · exact .push (.push (.of_eq rfl rfl rfl))
  · exact .of_eq rfl rfl rfl
  · exact .setStream (.pushAll made) rfl

theorem respond : Shrinks s (s.respond msg) := by
  simp only [State.respond]
  split
  · exact .of_eq rfl rfl rfl
  · split_ifs
    · split
      · exact .of_eq rfl rfl rfl
      · split
        · exact .of_eq rfl rfl rfl
        · split
          · split_ifs
            · exact .setStream (.of_eq rfl rfl rfl) rfl
            · exact .of_eq rfl rfl rfl
          · exact .of_eq rfl rfl rfl
    · exact .of_eq rfl rfl rfl

end Shrinks

theorem onMessage_cases (s : State n) (reader : Reader) (msg : MessageEnum) :
    Shrinks s (s.onMessage reader msg) ∨
    ∃ tx item l, route (s.readers reader).channels msg = some (tx, item) ∧
      l.pc = .sending tx item ∧ s.onMessage reader msg = s.setReader reader l := by
  simp only [State.onMessage]
  split
  · exact .inl (.setReader (.of_eq rfl rfl rfl) fun _ => Nat.zero_le _)
  · exact .inl (.setReader (.of_eq rfl rfl rfl) fun _ => Nat.zero_le _)
  · exact .inl (.of_eq rfl rfl rfl)
  · refine .inl ?_
    exact (Shrinks.setReader (.of_eq rfl rfl rfl) fun _ => Nat.zero_le _).trans (.of_eq rfl rfl rfl)
  · split
    · rename_i tx item hr
      exact .inr ⟨tx, item, _, hr, rfl, rfl⟩
    · refine .inl (.trans ?_ .respond)
      exact .setReader (.of_eq rfl rfl rfl) fun _ => Nat.le_refl _
    · exact .inl (.setReader (.of_eq rfl rfl rfl) fun _ => Nat.le_refl _)

/-- A step shrinks, or a reader reads a message for a channel, or a stream sends its close request. -/
theorem step_cases (h : step c s a = some s') :
    Shrinks s s' ∨
    (∃ reader msg tx item, a = .read reader msg ∧
      route (s.readers reader).channels msg = some (tx, item) ∧ s'.streams = s.streams ∧
      s'.load tx ≤ s.load tx + 1 ∧ ∀ tx', tx' ≠ tx → s'.load tx' ≤ s.load tx') ∨
    ∃ stream streamIdAlias tx requestId, a = .request stream ∧
      s.streams stream = .awaitingAck streamIdAlias tx ∧
      s'.streams = Function.update s.streams stream (.closing streamIdAlias tx requestId) ∧
      ∀ tx', s'.load tx' = s.load tx' := by
  cases a with
  | register stream streamIdAlias =>
    simp only [step] at h
    split at h <;> cases h
    exact .inl .register
  | giveUp stream =>
    simp only [step] at h
    split at h <;> cases h
    exact .inl (.setStream (.of_eq rfl rfl rfl) rfl)
  | cancel stream | otherRequest | lost =>
    simp only [step, Option.some.injEq] at h
    subst h
    exact .inl (.of_eq rfl rfl rfl)
  | recv stream =>
    simp only [step] at h
    split at h
    all_goals try cases h
    all_goals
      split at h <;> cases h
      rename_i hm
      exact .inl (.setChannel (.of_eq rfl rfl rfl) (by simp [hm]))
  | flushed stream maxSeqNumber =>
    simp only [step] at h
    split at h
    · split at h <;> cases h
      · exact .inl (.setStream (.of_eq rfl rfl rfl) rfl)
      · exact .inl (.of_eq rfl rfl rfl)
    · cases h
  | leaveLoop stream =>
    simp only [step] at h
    split at h <;> cases h
    · refine .inl (.leave ?_)
      split <;> rfl
    · exact .inl (.setStream (.of_eq rfl rfl rfl) rfl)
  | drained stream =>
    simp only [step] at h
    split at h
    · split at h <;> cases h
      exact .inl (.setStream (.of_eq rfl rfl rfl) rfl)
    · cases h
  | acked stream =>
    simp only [step] at h
    split at h
    · split_ifs at h <;> cases h
      · exact .inl (.leave rfl)
      · exact .inl (.setStream (.of_eq rfl rfl rfl) rfl)
      · exact .inl (.leave rfl)
    · cases h
  | request stream =>
    simp only [step] at h
    split at h <;> cases h
    rename_i streamIdAlias tx hpc
    exact .inr (.inr ⟨stream, streamIdAlias, tx, _, rfl, hpc, rfl, fun _ => rfl⟩)
  | requestFailed stream | responded stream =>
    simp only [step] at h
    split at h <;> cases h
    exact .inl (.leave rfl)
  | command command =>
    simp only [step] at h
    split at h <;> cases h
    all_goals exact .inl (.setReader (.of_eq rfl rfl rfl) fun _ => Nat.le_refl _)
  | process reader =>
    simp only [step] at h
    split at h <;> cases h
    exact .inl (.setReader (.of_eq rfl rfl rfl) fun _ => Nat.le_refl _)
  | read reader msg =>
    simp only [step] at h
    split at h <;> cases h
    obtain h | ⟨tx, item, l, hr, hl, h⟩ := onMessage_cases s reader msg
    · exact .inl h
    · have hload (tx' : Tx n) := State.load_setReader s reader l tx'
      rw [← h] at hload
      refine .inr (.inl ⟨reader, msg, tx, item, rfl, hr, by rw [h]; rfl, ?_, fun tx' he => ?_⟩)
      · have := hload tx
        rw [hl, ReaderPc.pending, if_pos rfl] at this
        omega
      · have := hload tx'
        rw [hl, ReaderPc.pending, if_neg fun h => he h.symm] at this
        omega
  | sent reader =>
    simp only [step] at h
    split at h
    · rename_i tx item hpc
      have freed : Shrinks s (s.setReader reader { s.readers reader with pc := .selecting }) :=
        .setReader (.of_eq rfl rfl rfl) fun _ => Nat.zero_le _
      have hfreed (tx' : Tx n) := State.load_setReader s reader { s.readers reader with pc := .selecting } tx'
      simp only [hpc, ReaderPc.pending] at hfreed
      split_ifs at h <;> cases h
      · exact .inl freed
      · refine .inl ⟨fun tx' => ?_, freed.closing⟩
        by_cases he : tx' = tx
        · subst he
          refine Nat.le_of_add_le_add_right ((State.load_setChannel ..).trans_le ?_)
          have := hfreed tx'
          simp only [if_pos] at this
          simp only [List.length_append, List.length_singleton]
          omega
        · rw [State.load_setChannel_of_ne he]
          exact freed.load tx'
    · cases h
  | resume reader =>
    simp only [step] at h
    split at h <;> cases h
    exact .inl (.setReader (.of_eq rfl rfl rfl) fun _ => Nat.zero_le _)
  | exit reader =>
    simp only [step] at h
    split at h <;> cases h
    exact .inl (.setReader (.of_eq rfl rfl rfl) fun _ => Nat.zero_le _)

/-! ### A closing stream holds up no reader -/

/-- The reader waits for room in the channel of a stream that waits for its close response. -/
def Blocked (c : Config n) (s : State n) (reader : Reader) (stream : Fin n) : Prop :=
  ∃ tx item, (s.streams stream).closing? = some tx ∧ (s.readers reader).pc = .sending tx item ∧
    (s.chans tx).rxDropped = false ∧ c.channelSize ≤ (s.chans tx).msgs.length

/-- A message for a stream that waits for its close response is read only when there is room for it, and
a stream sends its close request only when there is room for all that the readers bring. -/
def Fits (c : Config n) (s : State n) : Action n → Prop
  | .read reader msg => ∀ x ∈ route (s.readers reader).channels msg,
      (∃ stream, (s.streams stream).closing? = some x.1) → s.load x.1 < c.channelSize
  | .request stream => ∀ tx ∈ (s.streams stream).awaiting?, s.load tx ≤ c.channelSize
  | _ => True

instance : ∀ a, Decidable (Fits c s a)
  | .read .. | .request _ => inferInstanceAs (Decidable (∀ _ ∈ _, _))
  | .register .. | .giveUp _ | .cancel _ | .recv _ | .flushed .. | .leaveLoop _ | .drained _
  | .acked _ | .requestFailed _ | .responded _ | .otherRequest | .command _ | .process _ | .sent _
  | .resume _ | .lost | .exit _ => inferInstanceAs (Decidable True)

/-- There is room for all that is on its way to a stream that waits for its close response. -/
def Room (c : Config n) (s : State n) : Prop :=
  ∀ stream tx, (s.streams stream).closing? = some tx → s.load tx ≤ c.channelSize

theorem Room.step (h : Room c s) (hC : Fits c s a) (hs : step c s a = some s') : Room c s' := by
  rcases step_cases hs with hs | ⟨reader, msg, tx, item, rfl, hr, hst, hload, hother⟩ |
    ⟨stream, streamIdAlias, tx, requestId, rfl, hpc, hst, hload⟩
  · intro stream tx hc
    exact (hs.load tx).trans (h stream tx (hs.closing stream tx hc))
  · intro stream tx' hc
    rw [hst] at hc
    by_cases he : tx' = tx
    · subst he
      exact hload.trans (hC _ hr ⟨stream, hc⟩)
    · exact (hother tx' he).trans (h stream tx' hc)
  · intro σ tx' hc
    rw [hload tx']
    rw [hst] at hc
    by_cases he : σ = stream
    · subst he
      rw [Function.update_self] at hc
      cases hc
      exact hC tx (by rw [hpc]; rfl)
    · rw [Function.update_of_ne he] at hc
      exact h σ tx' hc

/-- What waits for room is one more than what fits. -/
theorem Room.not_blocked (h : Room c s) : ¬ Blocked c s reader stream := by
  rintro ⟨tx, item, hclose, hpc, -, hfull⟩
  have hroom := h stream tx hclose
  have hp : (s.readers reader).pc.pending tx = 1 := by rw [hpc, ReaderPc.pending, if_pos rfl]
  unfold State.load at hroom
  cases reader <;> omega

/-- In every run whose steps meet `Fits`, no reader waits for room in the channel of a stream that waits
for its close response. -/
theorem reader_free {log : List Empty} (h : (machine c).Exec (fun _ s a => Fits c s a) log s)
    (reader : Reader) (stream : Fin n) : ¬ Blocked c s reader stream := by
  have hR : Room c s := by
    refine h.invariant (I := fun _ s => Room c s) ?_ ?_
    · intro stream tx hc
      cases hc
    · intro _ s a s' evs _ hR hC hs
      obtain ⟨s₁, hstep, he⟩ := Option.map_eq_some_iff.1 hs
      cases he
      exact hR.step hC hstep
  exact hR.not_blocked

end

/-- One downstream, and channels for one message. -/
def one : Config 1 := ⟨1, false, fun _ => ⟨.downstream, false, false⟩⟩

def chunk (streamIdAlias : UInt32) : Message.DownstreamChunk := ⟨streamIdAlias, none, none⟩

/-- The stream is cancelled and sends its close request. -/
def closeFirst : List (Action 1) :=
  [.register 0 7, .process .main, .cancel 0, .leaveLoop 0, .drained 0, .acked 0, .request 0]

/-- A chunk is read for the stream while it waits. -/
theorem reader_free_chunk :
    ∃ log s, (machine one).Exec (fun _ s a => Fits one s a) log s ∧
      ((s.streams 0).closing? = some ⟨0, 0⟩ ∧
        (s.readers .main).pc = .sending ⟨0, 0⟩ (.msg (.chunk (chunk 7)))) ∧
      ¬ Blocked one s .main 0 := by
  obtain ⟨log, s, h, hp⟩ := Machine.Exec.exists_of_any (M := machine one)
    (C := fun _ s a => Fits one s a) (closeFirst ++ ([.read .main (.downstreamChunk (chunk 7))] : List (Action 1)))
    (P := fun _ s => (s.streams 0).closing? = some ⟨0, 0⟩ ∧
      (s.readers .main).pc = .sending ⟨0, 0⟩ (.msg (.chunk (chunk 7)))) (by decide +kernel)
  exact ⟨log, s, h, hp, reader_free h .main 0⟩

/-- Two chunks are read while the stream waits, and there is room for one. -/
theorem reader_blocked : ∃ log s, (machine one).Run log s ∧ Blocked one s .main 0 := by
  obtain ⟨log, s, h, hp⟩ := Machine.Exec.exists_of_any (M := machine one) (C := fun _ _ _ => True)
    (closeFirst ++ ([.read .main (.downstreamChunk (chunk 7)), .sent .main,
      .read .main (.downstreamChunk (chunk 7))] : List (Action 1)))
    (P := fun _ s => (s.streams 0).closing? = some ⟨0, 0⟩ ∧
      (s.readers .main).pc = .sending ⟨0, 0⟩ (.msg (.chunk (chunk 7))) ∧
      (s.chans ⟨0, 0⟩).rxDropped = false ∧ one.channelSize ≤ (s.chans ⟨0, 0⟩).msgs.length)
    (by decide +kernel)
  exact ⟨log, s, h, _, _, hp⟩

end Iscp.Wire.Backpressure
