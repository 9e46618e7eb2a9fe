import Iscp.Error
import Iscp.Lib.Machine
import Iscp.Wire.ReadLoop
import Mathlib.Data.List.Nodup
import Mathlib.Data.List.Range
import Mathlib.Logic.Function.Basic

/-!
# Requests and their responses

`request_message_need_response` on one wire connection: any number of calls, the pings that share their
numbers with them, and the one or two read loops that look for the sender of a response. A call takes its
number, puts its sender into `response_senders`, sends and waits, each in a step of its own, and may give
up in between. Every message that is read is numbered, in the order of reading.
-/

namespace Iscp

/-- The kinds of responses, one for each kind of request. -/
inductive Message.ResponseKind
  | connect
  | upstreamOpen
  | upstreamResume
  | upstreamClose
  | upstreamMetadataAck
  | downstreamOpen
  | downstreamResume
  | downstreamClose
  | downstreamMetadataAck
deriving DecidableEq

def Message.ResponseBody.kind : Message.ResponseBody → Message.ResponseKind
  | connect => .connect
  | upstreamOpen .. => .upstreamOpen
  | upstreamResume .. => .upstreamResume
  | upstreamClose => .upstreamClose
  | upstreamMetadataAck => .upstreamMetadataAck
  | downstreamOpen .. => .downstreamOpen
  | downstreamResume .. => .downstreamResume
  | downstreamClose => .downstreamClose
  | downstreamMetadataAck => .downstreamMetadataAck

namespace Wire.Request

open Message (MessageEnum Response ResponseKind)

/-- What a call makes of the message that it is given. -/
def checkResponse (kind : ResponseKind) : MessageEnum → Except Error Response
  | .response r =>
    if r.body.kind = kind then
      match ResultCode.ofI32 r.resultCode with
      | none => .error (.invalidValue "unknown result code")
      | some .succeeded => .ok r
      | some code => .error (.failedMessage code r.resultString)
    else .error (.invalidValue "unexpected message returned")
  | _ => .error (.invalidValue "unexpected message returned")

inductive Phase
  /-- Before `add_response_sender`. -/
  | allocated
  /-- In `send_message`. -/
  | registered
  | waiting
deriving DecidableEq

inductive CallPc
  | idle
  | active (phase : Phase) (kind : ResponseKind) (requestId : UInt32)
  | ended
deriving DecidableEq

/-- The oneshot channel of a call. -/
inductive Rx
  | empty
  | message (k : Nat) (m : MessageEnum)
  /-- The sender was dropped. -/
  | closed
deriving DecidableEq

inductive ReaderName
  | reliable
  | unreliable
deriving DecidableEq

inductive ReaderPc
  | reading
  /-- Waits for room in a channel. -/
  | busy
  /-- Has taken the sender of a call out of `response_senders`. -/
  | answering (k : Nat) (m : MessageEnum) (call : Nat)
  | ended
deriving DecidableEq

structure Reader where
  channels : ReadLoopChannels Nat := {}
  pc : ReaderPc := .reading

structure State where
  requestIdCounter : UInt32 := 0
  responseSenders : UInt32 → Option Nat := fun _ => none
  calls : Nat → CallPc := fun _ => .idle
  rx : Nat → Rx := fun _ => .empty
  readers : ReaderName → Reader := fun _ => {}
  reads : Nat := 0
  ct : Bool := false

inductive Action
  | allocate (call : Nat) (kind : ResponseKind)
  | register (call : Nat)
  | sent (call : Nat)
  /-- A timeout, the cancellation or a closed write loop. -/
  | fail (call : Nat) (e : Error)
  | receive (call : Nat)
  | drop (call : Nat)
  | ping
  | command (reader : ReaderName) (command : ReadLoopCommand Nat)
  | read (reader : ReaderName) (m : MessageEnum)
  | answer (reader : ReaderName)
  /-- What the reader waited for is there. -/
  | resume (reader : ReaderName)
  | exit (reader : ReaderName)
  | cancel

inductive Event
  | allocated (call : Nat) (kind : ResponseKind) (requestId : UInt32)
  | pinged (requestId : UInt32)
  | read (k : Nat) (m : MessageEnum)
  | given (k : Nat) (m : MessageEnum) (call : Nat)
  | returned (call : Nat) (result : Except Error Response)
  | dropped (call : Nat)
deriving DecidableEq

namespace State

def setCall (s : State) (call : Nat) (pc : CallPc) : State :=
  { s with calls := Function.update s.calls call pc }

def setRx (s : State) (call : Nat) (rx : Rx) : State := { s with rx := Function.update s.rx call rx }

def setSender (s : State) (requestId : UInt32) (call : Option Nat) : State :=
  { s with responseSenders := Function.update s.responseSenders requestId call }

def setReader (s : State) (reader : ReaderName) (r : Reader) : State :=
  { s with readers := Function.update s.readers reader r }

/-- `RequestIdCounter::get` -/
def getRequestId (s : State) : UInt32 × State :=
  (s.requestIdCounter, { s with requestIdCounter := s.requestIdCounter + 2 })

/-- A sender that is replaced is dropped. -/
def dropSender (s : State) : Option Nat → State
  | some call => if s.rx call = .empty then s.setRx call .closed else s
  | none => s

def addResponseSender (s : State) (requestId : UInt32) (call : Nat) : State :=
  (s.dropSender (s.responseSenders requestId)).setSender requestId (some call)

/-- The end of the read loop's body: a message that `process_message` does not know. -/
def respond (s : State) (reader : ReaderName) (ch : ReadLoopChannels Nat) (k : Nat) (m : MessageEnum) :
    State :=
  match m.requestId with
  | some requestId =>
    if requestId % 2 = 0 then
      match s.responseSenders requestId with
      | some call => (s.setSender requestId none).setReader reader ⟨ch, .answering k m call⟩
      | none => s.setReader reader ⟨ch, .reading⟩
    else s.setReader reader ⟨ch, .reading⟩
  | none => s.setReader reader ⟨ch, .reading⟩

/-- The read loop's body for the `k`-th message. -/
def onMessage (s : State) (reader : ReaderName) (ch : ReadLoopChannels Nat) (k : Nat) (m : MessageEnum) :
    State :=
  match m with
  | .ping _ | .pong _ => s.setReader reader ⟨ch, .busy⟩
  | .disconnect .. => { s.setReader reader ⟨ch, .ended⟩ with ct := true }
  | .downstreamCall _ => s.setReader reader ⟨ch, .reading⟩
  | m =>
    match ch.processMessage m with
    | (.unhandled, ch) => s.respond reader ch k m
    | (.upstreamChunkAck .., ch) | (.downstreamMsg .., ch) => s.setReader reader ⟨ch, .busy⟩
    | (.callAck .., ch) | (.unknown, ch) => s.setReader reader ⟨ch, .reading⟩

/-- The errors of `send_message` and of waiting for the response. -/
def canFail (s : State) (phase : Phase) (e : Error) : Prop :=
  phase ≠ .allocated ∧ (e = .timeout "" ∨ s.ct ∧ e = .cancelledByClose ∨
    phase = .registered ∧ e = .unexpected "write loop closed")

instance (s : State) (phase : Phase) (e : Error) : Decidable (s.canFail phase e) :=
  inferInstanceAs (Decidable (_ ∧ _))

end State

def step (s : State) : Action → Option (State × List Event)
  | .allocate call kind =>
    match s.calls call with
    | .idle =>
      let (requestId, s) := s.getRequestId
      some (s.setCall call (.active .allocated kind requestId), [.allocated call kind requestId])
    | _ => none
  | .register call =>
    match s.calls call with
    | .active .allocated kind requestId =>
      some ((s.addResponseSender requestId call).setCall call (.active .registered kind requestId), [])
    | _ => none
  | .sent call =>
    match s.calls call with
    | .active .registered kind requestId => some (s.setCall call (.active .waiting kind requestId), [])
    | _ => none
  | .fail call e =>
    match s.calls call with
    | .active phase _ _ =>
      if s.canFail phase e then some (s.setCall call .ended, [.returned call (.error e)]) else none
    | _ => none
  | .receive call =>
    match s.calls call, s.rx call with
    | .active .waiting kind _, .message _ m =>
      some (s.setCall call .ended, [.returned call (checkResponse kind m)])
    | .active .waiting _ _, .closed =>
      some (s.setCall call .ended, [.returned call (.error (.unexpected "internal channel closed"))])
    | _, _ => none
  | .drop call =>
    match s.calls call with
    | .active .. => some (s.setCall call .ended, [.dropped call])
    | _ => none
  | .ping => some (s.getRequestId.2, [.pinged s.getRequestId.1])
  | .command reader command =>
    match s.readers reader with
    | ⟨ch, .reading⟩ => some (s.setReader reader ⟨ch.processCommand command, .reading⟩, [])
    | _ => none
  | .read reader m =>
    match s.readers reader with
    | ⟨ch, .reading⟩ =>
      some ({ s with reads := s.reads + 1 }.onMessage reader ch s.reads m, [.read s.reads m])
    | _ => none
  | .answer reader =>
    match s.readers reader with
    | ⟨ch, .answering k m call⟩ =>
      let s := s.setReader reader ⟨ch, .reading⟩
      -- `send` fails when the receiver was dropped.
      match s.calls call with
      | .active .. => some (s.setRx call (.message k m), [.given k m call])
      | _ => some (s, [])
    | _ => none
  | .resume reader =>
    match s.readers reader with
    | ⟨ch, .busy⟩ => some (s.setReader reader ⟨ch, .reading⟩, [])
    | _ => none
  | .exit reader =>
    match s.readers reader with
    | ⟨ch, .reading⟩ | ⟨ch, .busy⟩ => some ({ s.setReader reader ⟨ch, .ended⟩ with ct := true }, [])
    | _ => none
  | .cancel => some ({ s with ct := true }, [])

def machine : Machine State Action Event where
  init := {}
  log₀ := []
  step := step

/-! ### What a step can do -/

variable {s s' : State} {log evs pre post : List Event} {call k : Nat} {kind : ResponseKind}
  {phase : Phase} {requestId : UInt32} {m : MessageEnum} {reader : ReaderName} {e : Event}

/-- The event that ends a call, and where a response in it comes from. -/
inductive Ends (s : State) (call : Nat) (kind : ResponseKind) : Event → Prop
  | returned {k : Nat} {r : Response} : s.rx call = .message k (.response r) → r.body.kind = kind →
      ResultCode.ofI32 r.resultCode = some .succeeded → Ends s call kind (.returned call (.ok r))
  | failed {e : Error} : Ends s call kind (.returned call (.error e))
  | dropped : Ends s call kind (.dropped call)

def ReaderPc.isAnswering : ReaderPc → Bool
  | answering .. => true
  | _ => false

/-- What happens to a reader; it is not in the middle of an answer then. -/
structure Moves (s : State) (reader : ReaderName) (s' : State) : Prop where
  readers : ∀ q, q ≠ reader → s'.readers q = s.readers q
  reader : (s'.readers reader).pc.isAnswering = false
  requestIdCounter : s'.requestIdCounter = s.requestIdCounter
  responseSenders : s'.responseSenders = s.responseSenders
  calls : s'.calls = s.calls
  rx : s'.rx = s.rx
  reads : s'.reads = s.reads

inductive Step (s : State) : State → List Event → Prop
  | allocate {call : Nat} {kind : ResponseKind} : s.calls call = .idle →
      Step s (s.getRequestId.2.setCall call (.active .allocated kind s.requestIdCounter))
        [.allocated call kind s.requestIdCounter]
  | ping : Step s s.getRequestId.2 [.pinged s.requestIdCounter]
  | register {call : Nat} {kind : ResponseKind} {requestId : UInt32} :
      s.calls call = .active .allocated kind requestId →
      Step s ((s.addResponseSender requestId call).setCall call (.active .registered kind requestId)) []
  | sent {call : Nat} {kind : ResponseKind} {requestId : UInt32} :
      s.calls call = .active .registered kind requestId →
      Step s (s.setCall call (.active .waiting kind requestId)) []
  | finish {call : Nat} {phase : Phase} {kind : ResponseKind} {requestId : UInt32} {e : Event} :
      s.calls call = .active phase kind requestId → Ends s call kind e →
      Step s (s.setCall call .ended) [e]
  | move {reader : ReaderName} {s' : State} : Moves s reader s' → Step s s' []
  | read {reader : ReaderName} {m : MessageEnum} {s' : State} :
      Moves { s with reads := s.reads + 1 } reader s' → Step s s' [.read s.reads m]
  | found {reader : ReaderName} {ch : ReadLoopChannels Nat} {m : MessageEnum} {requestId : UInt32}
      {call : Nat} : m.requestId = some requestId → s.responseSenders requestId = some call →
      Step s (({ s with reads := s.reads + 1 }.setSender requestId none).setReader reader
        ⟨ch, .answering s.reads m call⟩) [.read s.reads m]
  | give {reader : ReaderName} {ch : ReadLoopChannels Nat} {k : Nat} {m : MessageEnum} {call : Nat}
      {phase : Phase} {kind : ResponseKind} {requestId : UInt32} :
      (s.readers reader).pc = .answering k m call → s.calls call = .active phase kind requestId →
      Step s ((s.setReader reader ⟨ch, .reading⟩).setRx call (.message k m)) [.given k m call]
  | cancel : Step s { s with ct := true } []

theorem moves_setReader {r : Reader} (h : r.pc.isAnswering = false) (ct : Bool) :
    Moves s reader { s.setReader reader r with ct := ct } := by
  refine ⟨fun q hq => Function.update_of_ne hq .., ?_, rfl, rfl, rfl, rfl, rfl⟩
  simpa [State.setReader] using h

theorem ends_receive {m : MessageEnum} (h : s.rx call = .message k m) :
    Ends s call kind (.returned call (checkResponse kind m)) := by
  unfold checkResponse
  split
  · split
    · rename_i hk
      split
      · exact .failed
      · rename_i hc
        exact .returned h hk hc
      · exact .failed
    · exact .failed
  · exact .failed

theorem respond_step {ch : ReadLoopChannels Nat} :
    Step s ({ s with reads := s.reads + 1 }.respond reader ch s.reads m) [.read s.reads m] := by
  have quiet : Step s ({ s with reads := s.reads + 1 }.setReader reader ⟨ch, .reading⟩) [.read s.reads m] :=
    .read (moves_setReader rfl _)
  unfold State.respond
  split
  · rename_i requestId hid
    split
    · split
      · rename_i call hs
        exact .found hid hs
      · exact quiet
    · exact quiet
  · exact quiet

theorem onMessage_step {ch : ReadLoopChannels Nat} :
    Step s ({ s with reads := s.reads + 1 }.onMessage reader ch s.reads m) [.read s.reads m] := by
  have quiet {r : Reader} (ct : Bool) (h : r.pc.isAnswering = false) :
      Step s { ({ s with reads := s.reads + 1 }.setReader reader r) with ct := ct } [.read s.reads m] :=
    .read (moves_setReader h _)
  unfold State.onMessage
  split
  · exact quiet _ rfl
  · exact quiet _ rfl
  · exact quiet _ rfl
  · exact quiet _ rfl
  · split
    · exact respond_step
    · exact quiet _ rfl
    · exact quiet _ rfl
    · exact quiet _ rfl
    · exact quiet _ rfl

theorem step_step {a : Action} (h : step s a = some (s', evs)) : Step s s' evs := by
  cases a with
  | allocate call kind =>
    simp only [step] at h
    split at h
    · rename_i hc
      cases h; exact .allocate hc
    · cases h
  | register call =>
    simp only [step] at h
    split at h
    · rename_i hc
      cases h; exact .register hc
    · cases h
  | sent call =>
    simp only [step] at h
    split at h
    · rename_i hc
      cases h; exact .sent hc
    · cases h
  | fail call e =>
    simp only [step] at h
    split at h
    · rename_i hc
      split at h
      · cases h; exact .finish hc .failed
      · cases h
    · cases h
  | receive call =>
    simp only [step] at h
    split at h
    · rename_i hc hr
      cases h; exact .finish hc (ends_receive hr)
    · rename_i hc hr
      cases h; exact .finish hc .failed
    · cases h
  | drop call =>
    simp only [step] at h
    split at h
    · rename_i hc
      cases h; exact .finish hc .dropped
    · cases h
  | ping => cases h; exact .ping
  | command reader command =>
    simp only [step] at h
    split at h
    · cases h; exact .move (moves_setReader rfl _)
    · cases h
  | read reader m =>
    simp only [step] at h
    split at h
    · cases h; exact onMessage_step
    · cases h
  | answer reader =>
    simp only [step] at h
    split at h
    · rename_i ch k m call hr
      split at h
      · rename_i hc
        cases h; exact .give (by rw [hr]) hc
      · cases h; exact .move (moves_setReader rfl _)
    · cases h
  | resume reader =>
    simp only [step] at h
    split at h
    · cases h; exact .move (moves_setReader rfl _)
    · cases h
  | exit reader =>
    simp only [step] at h
    split at h
    · cases h; exact .move (moves_setReader rfl _)
    · cases h; exact .move (moves_setReader rfl _)
    · cases h
  | cancel => cases h; exact .cancel

end Wire.Request
end Iscp
