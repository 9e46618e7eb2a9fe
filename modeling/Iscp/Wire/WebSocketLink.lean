import Iscp.Transport.WebSocket
import Iscp.Wire.Link

/-!
# The link over a WebSocket

The loops at the two ends of a connection over a WebSocket, which is the transport that goes with context takeover. The
binary messages share their way with whatever else is sent: pongs, the end's own and the peer's, and pings.
-/

namespace Iscp.Wire.WebSocketLink

open Iscp.Transport
open WebSocket (Message)
open LinkEvent (writerLog transportLog decodedLog)
open Link (sampleCodec sampleCodec_agrees)
open Coder (Parse)

variable {M σ τ ε ε' : Type}

/-! ### From one end to the other -/

structure State where
  near : WebSocket.State := {}
  /-- What is sent and has not arrived. -/
  wire : List Message := []
  far : WebSocket.State := {}

inductive Action
  | near (a : WebSocket.Action)
  | far (a : WebSocket.Action)
  /-- The reader at the far end gets the next message. -/
  | deliver
  /-- The WebSocket itself sends something. -/
  | other (msg : Message)

inductive Event
  | near (e : WebSocket.Event)
  | far (e : WebSocket.Event)

def binary? : Message → Option Bytes
  | .binary bin => some bin
  | _ => none

/-- The reader gets a message. -/
def gets : WebSocket.Action → Bool
  | .next (some (.ok _)) => true
  | _ => false

def step (s : State) : Action → Option (State × List Event)
  | .near a =>
    (WebSocket.step s.near a).map fun (near, evs) =>
      ({ s with near := near, wire := s.wire ++ WebSocket.sent evs }, evs.map .near)
  | .far a =>
    if gets a then none
    else (WebSocket.step s.far a).map fun (far, evs) => ({ s with far := far }, evs.map .far)
  | .deliver =>
    match s.wire with
    | msg :: wire =>
      (WebSocket.step s.far (.next (some (.ok msg)))).map fun (far, evs) =>
        ({ s with wire := wire, far := far }, evs.map .far)
    | [] => none
  | .other msg => if (binary? msg).isSome then none else some ({ s with wire := s.wire ++ [msg] }, [])

def machine : Machine State Action Event where
  init := {}
  log₀ := []
  step := step

inductive Step (s : State) : Action → State → List Event → Prop
  | near {a : WebSocket.Action} {near : WebSocket.State} {evs : List WebSocket.Event} :
      WebSocket.step s.near a = some (near, evs) →
      Step s (.near a) { s with near := near, wire := s.wire ++ WebSocket.sent evs } (evs.map .near)
  | far {a : WebSocket.Action} {far : WebSocket.State} {evs : List WebSocket.Event} : gets a = false →
      WebSocket.step s.far a = some (far, evs) → Step s (.far a) { s with far := far } (evs.map .far)
  | delivered {msg : Message} {wire : List Message} {far : WebSocket.State} {evs : List WebSocket.Event} :
      s.wire = msg :: wire → WebSocket.step s.far (.next (some (.ok msg))) = some (far, evs) →
      Step s .deliver { s with wire := wire, far := far } (evs.map .far)
  | other {msg : Message} : binary? msg = none → Step s (.other msg) { s with wire := s.wire ++ [msg] } []

variable {s s' : State} {act : Action} {log evs : List Event}

theorem step_step (h : step s act = some (s', evs)) : Step s act s' evs := by
  cases act with
  | near a =>
    obtain ⟨⟨near, es⟩, hs, he⟩ := Option.map_eq_some_iff.1 h
    cases he
    exact .near hs
  | far a =>
    simp only [step] at h
    split at h
    · cases h
    · rename_i hg
      obtain ⟨⟨far, es⟩, hs, he⟩ := Option.map_eq_some_iff.1 h
      cases he
      exact .far (Bool.eq_false_iff.2 hg) hs
  | deliver =>
    simp only [step] at h
    split at h
    · rename_i hw
      obtain ⟨⟨far, es⟩, hs, he⟩ := Option.map_eq_some_iff.1 h
      cases he
      exact .delivered hw hs
    · cases h
  | other msg =>
    simp only [step] at h
    split at h
    · cases h
    · rename_i hb
      cases h
      exact .other (by simpa using hb)

namespace Event

def near? : Event → Option WebSocket.Event
  | near e => some e
  | far _ => none

def far? : Event → Option WebSocket.Event
  | near _ => none
  | far e => some e

def read? : Event → Option Bytes
  | far e => e.read?
  | near _ => none

def written? : Event → Option Bytes
  | near e => e.accepted?.bind binary?
  | far _ => none

end Event

def nearLog (log : List Event) : List WebSocket.Event := log.filterMap Event.near?

def farLog (log : List Event) : List WebSocket.Event := log.filterMap Event.far?

theorem logs_near (es : List WebSocket.Event) : nearLog (es.map .near) = es ∧ farLog (es.map .near) = [] := by
  refine ⟨?_, List.filterMap_eq_nil_iff.2 (List.forall_mem_map.2 fun _ _ => rfl)⟩
  rw [nearLog, List.filterMap_map]
  exact List.filterMap_some

theorem logs_far (es : List WebSocket.Event) : farLog (es.map .far) = es ∧ nearLog (es.map .far) = [] := by
  refine ⟨?_, List.filterMap_eq_nil_iff.2 (List.forall_mem_map.2 fun _ _ => rfl)⟩
  rw [farLog, List.filterMap_map]
  exact List.filterMap_some

theorem near_run (h : machine.Run log s) : WebSocket.machine.Run (nearLog log) s.near := by
  refine h.project (N := WebSocket.machine) (π := State.near) (f := Event.near?) rfl rfl ?_
  rintro log s act s' evs - - hs
  have ran {a near es log'} (hstep : WebSocket.step s.near a = some (near, es)) (hlog : log' = es) :
      ∃ b, WebSocket.machine.step s.near b = some (near, log') := ⟨a, hlog ▸ hstep⟩
  cases step_step hs with
  | near hstep => exact .inr (ran hstep (logs_near _).1)
  | far => exact .inl ⟨rfl, (logs_far _).2⟩
  | delivered => exact .inl ⟨rfl, (logs_far _).2⟩
  | other => exact .inl ⟨rfl, rfl⟩

theorem far_run (h : machine.Run log s) : WebSocket.machine.Run (farLog log) s.far := by
  refine h.project (N := WebSocket.machine) (π := State.far) (f := Event.far?) rfl rfl ?_
  rintro log s act s' evs - - hs
  have ran {a far es log'} (hstep : WebSocket.step s.far a = some (far, es)) (hlog : log' = es) :
      ∃ b, WebSocket.machine.step s.far b = some (far, log') := ⟨a, hlog ▸ hstep⟩
  cases step_step hs with
  | near => exact .inl ⟨rfl, (logs_near _).2⟩
  | far _ hstep => exact .inr (ran hstep (logs_far _).1)
  | delivered _ hstep => exact .inr (ran hstep (logs_far _).1)
  | other => exact .inl ⟨rfl, rfl⟩

/-- Without a message there is no binary one. -/
theorem binaries_eq_nil {s s' : WebSocket.State} {a : WebSocket.Action} {evs : List WebSocket.Event} (hg : gets a = false)
    (h : WebSocket.Step s a s' evs) : WebSocket.binaries evs = [] := by
  cases h with
  | next _ hn =>
    cases hn with
    | binary => cases hg
    | _ => rfl
  | dropped =>
    cases s.reader <;> rfl
  | _ => rfl

theorem binaries_eq {s s' : WebSocket.State} {msg : Message} {evs : List WebSocket.Event}
    (h : WebSocket.step s (.next (some (.ok msg))) = some (s', evs)) : WebSocket.binaries evs = (binary? msg).toList := by
  simp only [WebSocket.step] at h
  split at h
  · obtain ⟨rfl, rfl⟩ := Prod.mk.inj (Option.some.inj h)
    cases msg <;> rfl
  · cases h

@[simp] theorem nearLog_append (log evs : List Event) : nearLog (log ++ evs) = nearLog log ++ nearLog evs :=
  List.filterMap_append

@[simp] theorem farLog_append (log evs : List Event) : farLog (log ++ evs) = farLog log ++ farLog evs := List.filterMap_append

/-- The binary messages on the wire are those that were sent and have not come. -/
theorem wire_eq (h : machine.Run log s) : WebSocket.binaries (farLog log) ++ s.wire.filterMap binary? =
    (WebSocket.sent (nearLog log)).filterMap binary? := by
  refine h.invariant (I := fun log s => WebSocket.binaries (farLog log) ++ s.wire.filterMap binary? =
    (WebSocket.sent (nearLog log)).filterMap binary?) rfl ?_
  rintro log s act s' evs - hi - hs
  rw [farLog_append, nearLog_append, WebSocket.binaries_append, WebSocket.sent_append, List.filterMap_append, ← hi]
  cases step_step hs with
  | near =>
    rw [(logs_near _).1, (logs_near _).2, List.filterMap_append, show WebSocket.binaries [] = [] from rfl, List.append_nil,
      List.append_assoc]
  | far hg hstep =>
    rw [(logs_far _).1, (logs_far _).2, binaries_eq_nil hg (WebSocket.step_step hstep), List.append_nil]
    exact (List.append_nil _).symm
  | delivered hw hstep =>
    rename_i msg wire far es
    rw [(logs_far _).1, (logs_far _).2, binaries_eq hstep, hw, List.append_assoc,
      show WebSocket.sent [] = [] from rfl, List.filterMap_nil, List.append_nil]
    cases hb : binary? msg with
    | none => rw [List.filterMap_cons_none hb]; rfl
    | some bin => rw [List.filterMap_cons_some hb]; rfl
  | other hb =>
    rw [List.filterMap_append, List.filterMap_cons_none hb, show farLog [] = [] from rfl, show nearLog [] = [] from rfl]
    simp [WebSocket.binaries, WebSocket.sent]

/-! ### As a transport of the link -/

def write? : Action → Option Bytes
  | .near (.write data) => some data
  | _ => none

/-- What the events say of the binary messages. -/
theorem events_near (es : List WebSocket.Event) : (es.map Event.near).filterMap Event.read? = [] ∧
    (es.map Event.near).filterMap Event.written? = (WebSocket.accepted es).filterMap binary? := by
  refine ⟨List.filterMap_eq_nil_iff.2 (List.forall_mem_map.2 fun _ _ => rfl), ?_⟩
  rw [List.filterMap_map, WebSocket.accepted, List.filterMap_filterMap]
  rfl

theorem events_far (es : List WebSocket.Event) : (es.map Event.far).filterMap Event.written? = [] ∧
    (es.map Event.far).filterMap Event.read? = WebSocket.read es := by
  refine ⟨List.filterMap_eq_nil_iff.2 (List.forall_mem_map.2 fun _ _ => rfl), ?_⟩
  rw [List.filterMap_map]
  rfl

theorem length_read_le {s s' : WebSocket.State} {a : WebSocket.Action} {evs : List WebSocket.Event}
    (h : WebSocket.Step s a s' evs) : (WebSocket.read evs).length ≤ 1 := by
  cases h with
  | next _ hn =>
    cases hn with
    | binary => exact Nat.le_refl 1
    | _ => exact Nat.zero_le 1
  | dropped => cases s.reader <;> exact Nat.zero_le 1
  | _ => exact Nat.zero_le 1

/-- Nobody but `write` puts a binary message into the channel. -/
theorem accepted_binary {s s' : WebSocket.State} {a : WebSocket.Action} {evs : List WebSocket.Event}
    (ha : ∀ data, a ≠ .write data) (h : WebSocket.Step s a s' evs) : (WebSocket.accepted evs).filterMap binary? = [] := by
  cases h with
  | accepted hm =>
    cases a with
    | write data => exact absurd rfl (ha data)
    | close =>
      cases hm
      rfl
    | _ => cases hm
  | next _ hn => cases hn <;> rfl
  | dropped => cases s.reader <;> rfl
  | _ => rfl

theorem writes_binary {s s' : WebSocket.State} {data : Bytes} {evs : List WebSocket.Event}
    (h : WebSocket.step s (.write data) = some (s', evs)) :
    (WebSocket.accepted evs).filterMap binary? = [data] ∨ (WebSocket.accepted evs).filterMap binary? = [] := by
  simp only [WebSocket.step, WebSocket.State.writerSend] at h
  split at h
  · cases h
  · split at h
    · cases h
      exact .inl rfl
    · cases h
      exact .inr rfl
    · cases h

def carrier : Carrier State Action Event where
  machine := machine
  write? := write?
  attempted? := Event.written?
  written? := Event.written?
  read? := Event.read?
  closed
    | .far (.failed _) => true
    | _ => false
  start := rfl
  writes s a s' evs packet hw h := by
    have hs : Step s a s' evs := step_step h
    cases hs with
    | near hstep =>
      rename_i a near es
      obtain rfl : a = .write packet := by
        cases a with
        | write data =>
          cases hw
          rfl
        | _ => cases hw
      refine ⟨?_, (events_near es).1⟩
      rw [(events_near es).2]
      rcases writes_binary hstep with he | he
      · rw [he]
        exact .written
      · rw [he]
        exact .refused
    | far | delivered | other => cases hw
  others s a s' evs hw h := by
    have hs : Step s a s' evs := step_step h
    cases hs with
    | near hstep =>
      rename_i a near es
      have ha (data : Bytes) : a ≠ .write data := by
        rintro rfl
        cases hw
      have he := accepted_binary ha (WebSocket.step_step hstep)
      rw [(events_near es).2, (events_near es).1]
      exact ⟨he, he, Nat.zero_le 1⟩
    | far _ hstep =>
      rw [(events_far _).1, (events_far _).2]
      exact ⟨rfl, rfl, length_read_le (WebSocket.step_step hstep)⟩
    | delivered _ hstep =>
      rw [(events_far _).1, (events_far _).2]
      exact ⟨rfl, rfl, length_read_le (WebSocket.step_step hstep)⟩
    | other => exact ⟨rfl, rfl, Nat.zero_le 1⟩

theorem read_eq (log : List Event) : carrier.read log = WebSocket.read (farLog log) := by
  rw [WebSocket.read, farLog, List.filterMap_filterMap]
  refine List.filterMap_congr fun e _ => ?_
  cases e <;> rfl

theorem written_eq (log : List Event) : carrier.written log = (WebSocket.accepted (nearLog log)).filterMap binary? := by
  rw [WebSocket.accepted, nearLog, List.filterMap_filterMap, List.filterMap_filterMap]
  refine List.filterMap_congr fun e _ => ?_
  cases e <;> rfl

theorem carrier_ordered : carrier.Ordered := by
  intro log s h
  have hsends := WebSocket.Sends.of_run (near_run h)
  have hread : carrier.read log <+: (WebSocket.sent (nearLog log)).filterMap binary? := by
    rw [read_eq, (WebSocket.Receives.of_run (far_run h)).read, ← wire_eq h]
    exact List.prefix_append _ _
  have hattempted : carrier.attempted log = (WebSocket.accepted (nearLog log)).filterMap binary? := written_eq log
  rw [hattempted]
  exact hread.trans ((hsends.first.trans hsends.carries.first).filterMap binary?)

/-! ### The link -/

/-- Nothing is on its way. -/
structure Quiet (s : Link.State State M σ τ) : Prop where
  writer : s.writer.pc = .selecting
  queue : s.writer.queue.recv = none
  task : s.transport.near.task = .receiving
  channel : s.transport.near.queue.recv = none
  wire : s.transport.wire = []
  returned : s.returned = false

/-- In every run of the two ends, with whatever else goes over the WebSocket and wherever a `read` is dropped: no packet
fails to be extracted or decoded, each of them is in finitely many rounds, and the messages that come out are the first ones
of those accepted that can be encoded; all of them, once nothing is on its way. -/
theorem web_socket_link_delivers {d : Codec M σ τ ε ε'} {parse : Bytes → Bytes → Parse UInt8} (hc : d.Agrees parse)
    {log : List (Link.Event M Event)} {s : Link.State State M σ τ} (h : (Link.machine carrier d).Run log s) :
    Link.Delivered carrier d log s ∧
      (Quiet s → decodedLog log = (WriteLoop.accepted (writerLog log)).filter d.writer.encodes) := by
  have hdelivered := Link.delivers carrier_ordered hc h
  refine ⟨hdelivered, fun hq => hdelivered.all hq.writer hq.queue hq.returned ?_⟩
  have hrun : machine.Run (transportLog log) s.transport := Link.transport_run h
  have hsends := WebSocket.Sends.of_run (near_run hrun)
  have hopen : s.transport.near.queue.rxDropped = false := by
    rw [hsends.opened, hq.task]
    rfl
  have hsent : WebSocket.sent (nearLog (transportLog log)) = WebSocket.accepted (nearLog (transportLog log)) := by
    have hheld := hsends.held (by rw [hq.task]; exact nofun)
    rw [hq.task, hsends.carries.all hopen hq.channel] at hheld
    rw [hheld]
    exact (List.append_nil _).symm
  have hwire := wire_eq hrun
  rw [hq.wire, List.filterMap_nil, List.append_nil, hsent] at hwire
  rw [read_eq, written_eq, (WebSocket.Receives.of_run (far_run hrun)).read, hwire]

instance (s : Link.State State Bytes σ τ) : Decidable (Quiet s) :=
  decidable_of_iff (s.writer.pc = .selecting ∧ s.writer.queue.recv = none ∧ s.transport.near.task = .receiving ∧
    s.transport.near.queue.recv = none ∧ s.transport.wire = [] ∧ s.returned = false)
    ⟨fun ⟨h1, h2, h3, h4, h5, h6⟩ => ⟨h1, h2, h3, h4, h5, h6⟩, fun h => ⟨h.1, h.2, h.3, h.4, h.5, h.6⟩⟩

/-- A message with its packet up to the wire. -/
def passRun (msg packet : Bytes) : List (Link.Action Bytes Action) :=
  [.writer (.send msg), .writer .recv, .write (.near (.write packet)), .transport (.near .recv) 0, .transport (.near .sent) 0,
    .transport (.near .flushed) 0]

/-- Between two messages a ping, in answer to which the peer sends a pong. -/
theorem web_socket_link_delivers_two : ∃ log s, (Link.machine carrier sampleCodec).Run log s ∧
    (Link.Delivered carrier sampleCodec log s ∧
      (Quiet s → decodedLog log = (WriteLoop.accepted (writerLog log)).filter sampleCodec.writer.encodes)) ∧
    Quiet s ∧ decodedLog log = [[65], [66, 67]] := by
  obtain ⟨log, s, h, hr⟩ := Machine.Exec.exists_of_any (M := Link.machine carrier sampleCodec) (C := fun _ _ _ => True)
    (passRun [65] [1, 1, 0, 254, 255, 65] ++ ([.transport (.other (.ping [7])) 0] : List (Link.Action Bytes Action)) ++
      passRun [66, 67] [1, 2, 0, 253, 255, 66, 67] ++
      ([.transport (.far .read) 0, .transport .deliver 4, .transport (.far .read) 0, .transport .deliver 0,
        .transport (.far .pong) 0, .transport .deliver 4] : List (Link.Action Bytes Action)))
    (P := fun log s => Quiet s ∧ decodedLog log = [[65], [66, 67]]) (by decide +kernel)
  exact ⟨log, s, h, web_socket_link_delivers sampleCodec_agrees h, hr⟩

end Iscp.Wire.WebSocketLink
