import Iscp.Transport.Streams
import Iscp.Wire.Link

/-!
# The link over a stream

The loops at the two ends of a connection over QUIC or WebTransport. The writer has one stream; the peer accepts whatever
streams are opened and takes the packets from the channel of their tasks.
-/

namespace Iscp.Wire.StreamLink

open Iscp.Transport
open LinkEvent (writerLog transportLog decodedLog)
open Link (sampleCodec sampleCodec_agrees)
open Coder (Parse)

variable {M σ τ ε ε' : Type}

/-- No stream is written but the one of the writer. -/
def oneStream : Streams.Action → Bool
  | .write k _ _ => k == 0
  | _ => true

theorem oneStream_step {c : Streams.Config} {s s' : Streams.State} {a : Streams.Action} {evs : List Streams.Event}
    (h : ((Streams.machine c).restrict oneStream).step s a = some (s', evs)) : oneStream a ∧ Streams.Step c s a s' evs := by
  obtain ⟨hone, hs⟩ := Machine.restrict_step h
  exact ⟨hone, Streams.step_step hs⟩

def write? : Streams.Action → Option Bytes
  | .write _ data _ => some data
  | _ => none

def carrier (c : Streams.Config) : Carrier Streams.State Streams.Action Streams.Event where
  machine := (Streams.machine c).restrict oneStream
  write? := write?
  attempted? := Streams.Event.attempted? 0
  written? := Streams.Event.written? 0
  read? := Streams.Event.read?
  closed
    | .closed _ => true
    | _ => false
  start := rfl
  writes s a s' evs packet hw h := by
    obtain ⟨hone, hs⟩ := oneStream_step h
    cases a with
    | write k data cut =>
      obtain rfl : k = 0 := of_decide_eq_true hone
      obtain rfl := Option.some.inj hw
      cases hs with
      | refused => exact ⟨.refused, rfl⟩
      | written => exact ⟨.written, rfl⟩
      | failed => exact ⟨.failed, rfl⟩
      | returned ha => rcases ha with ha | ha <;> cases ha
    | _ => cases hw
  others s a s' evs hw h := by
    obtain ⟨-, hs⟩ := oneStream_step h
    cases hs with
    | refused | written | failed => cases hw
    | read => exact ⟨rfl, rfl, Nat.le_refl 1⟩
    | _ => exact ⟨rfl, rfl, Nat.zero_le 1⟩

variable {c : Streams.Config} {log : List Streams.Event} {s : Streams.State}

/-- Nothing goes into any other stream. -/
theorem attempted_other (h : (carrier c).machine.Run log s) {k : Nat} (hk : k ≠ 0) : Streams.attempted k log = [] := by
  refine h.invariant (I := fun log _ => Streams.attempted k log = []) rfl ?_
  rintro log s a s' evs - hi - ha
  obtain ⟨hone, hs⟩ := oneStream_step ha
  rw [Streams.attempted_append, hi, List.nil_append]
  refine List.filterMap_eq_nil_iff.2 fun e he => ?_
  cases e with
  | attempted k' data =>
    refine if_neg fun hk' => ?_
    cases a with
    | write k'' data' cut =>
      obtain rfl : k'' = 0 := of_decide_eq_true hone
      cases hs with
      | refused | returned => simp at he
      | written | failed => simp_all
    | _ => exact ((hs.quiet nofun k').2 _ he data).1 rfl
  | _ => rfl

theorem allQueued_eq (h : (carrier c).machine.Run log s) : Streams.allQueued log = Streams.queued 0 log := by
  refine List.filterMap_congr fun e he => ?_
  cases e with
  | queued k buf =>
    have hqueued : buf ∈ Streams.queued k log := List.mem_filterMap.2 ⟨_, he, if_pos rfl⟩
    have hmem := ((Streams.Inv.of_run h.of_restrict).streams k).queued_first.subset hqueued
    have hk : k = 0 := by
      by_contra hk
      rw [attempted_other h hk] at hmem
      cases hmem
    exact (if_pos hk).symm
  | _ => rfl

theorem carrier_ordered (c : Streams.Config) : (carrier c).Ordered := by
  intro log s h
  have hinv := Streams.Inv.of_run h.of_restrict
  have hfirst := hinv.rx.first
  rw [allQueued_eq h] at hfirst
  exact hfirst.trans (hinv.streams 0).queued_first

/-- Nothing is on its way. -/
structure Quiet (s : Link.State Streams.State M σ τ) : Prop where
  writer : s.writer.pc = .selecting
  queue : s.writer.queue.recv = none
  transport : Streams.CaughtUp s.transport 0
  rx : s.transport.rx.recv = none
  opened : s.transport.rx.rxDropped = false
  returned : s.returned = false

/-- In every run of the two ends: no packet fails to be extracted or decoded, every one that has arrived is read in finitely
many rounds, and the messages that come out are the first ones of those accepted that can be encoded; all of them, once
nothing is on its way. -/
theorem stream_link_delivers {d : Codec M σ τ ε ε'} {parse : Bytes → Bytes → Parse UInt8} (hc : d.Agrees parse)
    {log : List (Link.Event M Streams.Event)} {s : Link.State Streams.State M σ τ}
    (h : (Link.machine (carrier c) d).Run log s) : Link.Delivered (carrier c) d log s ∧
      (Quiet s → decodedLog log = (WriteLoop.accepted (writerLog log)).filter d.writer.encodes) := by
  have hdelivered := Link.delivers (carrier_ordered c) hc h
  refine ⟨hdelivered, fun hq => hdelivered.all hq.writer hq.queue hq.returned ?_⟩
  have hrun := Link.transport_run h
  have hinv := Streams.Inv.of_run hrun.of_restrict
  have hread : Streams.read (transportLog log) = Streams.written 0 (transportLog log) := by
    rw [hinv.rx.all hq.opened hq.rx, allQueued_eq hrun]
    exact (hinv.streams 0).caught_up hq.transport.failed hq.transport.arrived hq.transport.recvStream hq.transport.task
  exact hread

instance (s : Link.State Streams.State Bytes σ τ) : Decidable (Quiet s) :=
  decidable_of_iff (s.writer.pc = .selecting ∧ s.writer.queue.recv = none ∧ Streams.CaughtUp s.transport 0 ∧
    s.transport.rx.recv = none ∧ s.transport.rx.rxDropped = false ∧ s.returned = false)
    ⟨fun ⟨h1, h2, h3, h4, h5, h6⟩ => ⟨h1, h2, h3, h4, h5, h6⟩, fun h => ⟨h.1, h.2, h.3, h.4, h.5, h.6⟩⟩

/-- A message with its packet up to the stream, and from there to the read loop. -/
def passRun (msg packet : Bytes) : List (Link.Action Bytes Streams.Action) :=
  [.writer (.send msg), .writer .recv, .write (.write 0 packet none), .transport (.arrive 0 3) 0,
    .transport (.arrive 0 (packet.length + 1)) 0, .transport (.readLen 0) 0, .transport (.readBuf 0) 0, .transport (.send 0) 0,
    .transport .read 4]

/-- Between two messages one that cannot be encoded, and a command. -/
theorem stream_link_delivers_two : ∃ log s, (Link.machine (carrier Quic.reader) sampleCodec).Run log s ∧
    (Link.Delivered (carrier Quic.reader) sampleCodec log s ∧
      (Quiet s → decodedLog log = (WriteLoop.accepted (writerLog log)).filter sampleCodec.writer.encodes)) ∧
    Quiet s ∧ decodedLog log = [[65], [66, 67]] := by
  obtain ⟨log, s, h, hr⟩ := Machine.Exec.exists_of_any (M := Link.machine (carrier Quic.reader) sampleCodec)
    (C := fun _ _ _ => True)
    ([.transport (.accept 0) 0] ++ passRun [65] [1, 1, 0, 254, 255, 65] ++
      ([.command 1, .writer (.send [1, 2, 3]), .writer .recv] : List (Link.Action Bytes Streams.Action)) ++
      passRun [66, 67] [1, 2, 0, 253, 255, 66, 67])
    (P := fun log s => Quiet s ∧ decodedLog log = [[65], [66, 67]]) (by decide +kernel)
  exact ⟨log, s, h, stream_link_delivers sampleCodec_agrees h, hr⟩

end Iscp.Wire.StreamLink
