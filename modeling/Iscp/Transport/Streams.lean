import Iscp.Lib.Channel
import Iscp.Lib.Machine
import Iscp.Lib.PrefixCode
import Iscp.Transport.Stream
import Mathlib.Logic.Function.Basic

/-!
# Reading from many streams

The readers of `quic.rs` and `webtransport.rs` with the tasks behind them: one accepts the streams that the peer
opens, and one for each stream reads the messages off it into a channel, from which `read` takes them. The peer
writes its streams as the writers of this side do, and they arrive in pieces. A write that fails has written a part
of its message, and is the last one on its stream.
-/

namespace Iscp

namespace Streams

open Iscp.Stream (encode)
open Datagram (putU32 readU32 readU32_putU32 putU32_readU32)

structure Config where
  /-- What `read` returns when no task is left. -/
  closed : String
  channelSize : Nat := 1024

/-- Where `read_recv_stream` is. -/
inductive TaskPc
  /-- The stream is not accepted. -/
  | idle
  | readingLen
  | readingBuf (len : Nat)
  | sending (buf : Bytes)
  | returned
deriving DecidableEq

structure StreamState where
  writer : Stream.Writer := {}
  /-- A write has failed. -/
  failed : Bool := false
  /-- How much of it has arrived. -/
  arrived : Nat := 0
  /-- What has arrived and is not read. -/
  recvStream : List Bytes := []
  task : TaskPc := .idle

structure State where
  streams : Nat → StreamState := fun _ => {}
  accepted : List Nat := []
  accepting : Bool := true
  rx : Mpsc Bytes := {}
  ct : Bool := false

inductive Action
  /-- The peer writes a message, or the first `cut` bytes of it with its length. -/
  | write (k : Nat) (data : Bytes) (cut : Option Nat)
  | arrive (k n : Nat)
  | accept (k : Nat)
  /-- The loop that accepts streams ends. -/
  | stopAccepting
  | readLen (k : Nat)
  | readBuf (k : Nat)
  | send (k : Nat)
  /-- The stream ends or is lost, or the token is cancelled. -/
  | stop (k : Nat)
  | read
  | close
  | dropReader

inductive Event
  /-- A message is written, or a part of it. -/
  | attempted (k : Nat) (data : Bytes)
  | written (k : Nat) (data : Bytes)
  | refused (k : Nat) (data : Bytes)
  | queued (k : Nat) (buf : Bytes)
  | read (buf : Bytes)
  | closed (msg : String)
deriving DecidableEq

def State.setStream (s : State) (k : Nat) (st : StreamState) : State :=
  { s with streams := Function.update s.streams k st }

def step (c : Config) (s : State) : Action → Option (State × List Event)
  | .write k data cut =>
    let st := s.streams k
    if st.failed then none else
    match st.writer.write data with
    | none => none
    | some (.error _, writer) => some (s.setStream k { st with writer := writer }, [.refused k data])
    | some (.ok (), writer) =>
      match cut with
      | none => some (s.setStream k { st with writer := writer }, [.attempted k data, .written k data])
      | some n =>
        let writer := { writer with sendStream := st.writer.sendStream ++ writer.buf.take n }
        some (s.setStream k { st with writer := writer, failed := true }, [.attempted k data])
  | .arrive k n =>
    let st := s.streams k
    if st.arrived + n ≤ st.writer.sendStream.length then
      let piece := (st.writer.sendStream.drop st.arrived).take n
      some (s.setStream k { st with arrived := st.arrived + n, recvStream := st.recvStream ++ [piece] }, [])
    else none
  | .accept k =>
    if s.accepting ∧ (s.streams k).task = .idle then
      some ({ s.setStream k { s.streams k with task := .readingLen } with accepted := s.accepted ++ [k] }, [])
    else none
  | .stopAccepting => if s.accepting then some ({ s with accepting := false }, []) else none
  | .readLen k =>
    let st := s.streams k
    match st.task, Pieces.readExact st.recvStream 4 with
    | .readingLen, some (len, rest) =>
      some (s.setStream k { st with task := .readingBuf (readU32 len).toNat, recvStream := rest }, [])
    | _, _ => none
  | .readBuf k =>
    let st := s.streams k
    match st.task with
    | .readingBuf len =>
      match Pieces.readExact st.recvStream len with
      | some (buf, rest) => some (s.setStream k { st with task := .sending buf, recvStream := rest }, [])
      | none => none
    | _ => none
  | .send k =>
    let st := s.streams k
    match st.task with
    | .sending buf =>
      match s.rx.send c.channelSize buf with
      | some (true, rx) => some ({ s.setStream k { st with task := .readingLen } with rx := rx }, [.queued k buf])
      | some (false, _) => some (s.setStream k { st with task := .returned }, [])
      | none => none
    | _ => none
  | .stop k =>
    let st := s.streams k
    match st.task with
    | .readingLen | .readingBuf _ => some (s.setStream k { st with task := .returned }, [])
    | _ => none
  | .read =>
    if s.rx.rxDropped then none else
    match s.rx.recv with
    | some (buf, rx) => some ({ s with rx := rx }, [.read buf])
    | none =>
      if s.accepting = false ∧ ∀ k ∈ s.accepted, (s.streams k).task = .returned then some (s, [.closed c.closed])
      else none
  | .close => some ({ s with ct := true }, [])
  | .dropReader => some ({ s with rx := s.rx.dropRx }, [])

def machine (c : Config) : Machine State Action Event where
  init := {}
  log₀ := []
  step := step c

end Streams

/-- `QuicReader`. -/
abbrev Quic.reader : Streams.Config := { closed := "quic stream closed" }

/-- `WebTransportReader`. -/
abbrev WebTransport.reader : Streams.Config := { closed := "webtransport stream closed" }

namespace Streams

open Iscp.Stream (encode)
open Datagram (putU32 readU32 readU32_putU32 putU32_readU32)

/-! ### What a step does -/

inductive Step (c : Config) (s : State) : Action → State → List Event → Prop
  | refused {k : Nat} {data buf : Bytes} {cut : Option Nat} : (s.streams k).failed = false → ¬ data.length < 2 ^ 32 →
      Step c s (.write k data cut) (s.setStream k { s.streams k with writer := ⟨(s.streams k).writer.sendStream, buf⟩ }) [.refused k data]
  | written {k : Nat} {data : Bytes} : (s.streams k).failed = false → data.length < 2 ^ 32 →
      Step c s (.write k data none) (s.setStream k { s.streams k with
        writer := ⟨(s.streams k).writer.sendStream ++ encode data, encode data⟩ }) [.attempted k data, .written k data]
  | failed {k : Nat} {data : Bytes} {n : Nat} : (s.streams k).failed = false → data.length < 2 ^ 32 →
      Step c s (.write k data (some n)) (s.setStream k { s.streams k with
        writer := ⟨(s.streams k).writer.sendStream ++ (encode data).take n, encode data⟩, failed := true })
        [.attempted k data]
  | arrived {k n : Nat} : (s.streams k).arrived + n ≤ (s.streams k).writer.sendStream.length →
      Step c s (.arrive k n) (s.setStream k { s.streams k with
        arrived := (s.streams k).arrived + n
        recvStream := (s.streams k).recvStream ++
          [((s.streams k).writer.sendStream.drop (s.streams k).arrived).take n] }) []
  | accepted {k : Nat} : s.accepting → (s.streams k).task = .idle →
      Step c s (.accept k) { s.setStream k { s.streams k with task := .readingLen } with accepted := s.accepted ++ [k] } []
  | stoppedAccepting : Step c s .stopAccepting { s with accepting := false } []
  | readLen {k : Nat} {len : Bytes} {rest : List Bytes} : (s.streams k).task = .readingLen →
      Pieces.readExact (s.streams k).recvStream 4 = some (len, rest) →
      Step c s (.readLen k) (s.setStream k { s.streams k with task := .readingBuf (readU32 len).toNat, recvStream := rest }) []
  | readBuf {k len : Nat} {buf : Bytes} {rest : List Bytes} : (s.streams k).task = .readingBuf len →
      Pieces.readExact (s.streams k).recvStream len = some (buf, rest) →
      Step c s (.readBuf k) (s.setStream k { s.streams k with task := .sending buf, recvStream := rest }) []
  | queued {k : Nat} {buf : Bytes} {rx : Mpsc Bytes} : (s.streams k).task = .sending buf →
      s.rx.send c.channelSize buf = some (true, rx) →
      Step c s (.send k) { s.setStream k { s.streams k with task := .readingLen } with rx := rx } [.queued k buf]
  | returned {act : Action} {k : Nat} : act = .send k ∨ act = .stop k → (s.streams k).task ≠ .idle →
      Step c s act (s.setStream k { s.streams k with task := .returned }) []
  | read {buf : Bytes} {rx : Mpsc Bytes} : s.rx.recv = some (buf, rx) →
      Step c s .read { s with rx := rx } [.read buf]
  | closed : s.rx.rxDropped = false → s.rx.recv = none → s.accepting = false →
      (∀ k ∈ s.accepted, (s.streams k).task = .returned) → Step c s .read s [.closed c.closed]
  | close : Step c s .close { s with ct := true } []
  | dropReader : Step c s .dropReader { s with rx := s.rx.dropRx } []

variable {c : Config} {s s' : State} {act : Action} {log evs : List Event} {k : Nat} {data buf : Bytes}

theorem step_step (h : step c s act = some (s', evs)) : Step c s act s' evs := by
  cases act with
  | write k data cut =>
    simp only [step, Stream.write_eq] at h
    split at h
    · cases h
    · rename_i hf
      rw [Bool.not_eq_true] at hf
      by_cases hlen : data.length < 2 ^ 32
      · rw [if_pos hlen] at h
        cases cut with
        | none =>
          cases h
          exact .written hf hlen
        | some n =>
          cases h
          exact .failed hf hlen
      · rw [if_neg hlen] at h
        cases h
        exact .refused hf hlen
  | arrive k n =>
    simp only [step] at h
    split at h
    · rename_i hle
      cases h
      exact .arrived hle
    · cases h
  | accept k =>
    simp only [step] at h
    split at h
    · rename_i hp
      cases h
      exact .accepted hp.1 hp.2
    · cases h
  | stopAccepting =>
    simp only [step] at h
    split at h
    · cases h
      exact .stoppedAccepting
    · cases h
  | readLen k =>
    simp only [step] at h
    split at h
    · rename_i hp hr
      cases h
      exact .readLen hp hr
    · cases h
  | readBuf k =>
    simp only [step] at h
    split at h
    · rename_i hp
      split at h
      · rename_i hr
        cases h
        exact .readBuf hp hr
      · cases h
    · cases h
  | send k =>
    simp only [step] at h
    split at h
    · rename_i hp
      split at h
      · rename_i hs
        cases h
        exact .queued hp hs
      · cases h
        exact .returned (.inl rfl) (by rw [hp]; exact nofun)
      · cases h
    · cases h
  | stop k =>
    simp only [step] at h
    split at h
    · rename_i hp
      cases h
      exact .returned (.inr rfl) (by rw [hp]; exact nofun)
    · rename_i hp
      cases h
      exact .returned (.inr rfl) (by rw [hp]; exact nofun)
    · cases h
  | read =>
    simp only [step] at h
    split at h
    · cases h
    · rename_i hd
      split at h
      · rename_i hr
        cases h
        exact .read hr
      · rename_i hr
        split at h
        · rename_i hp
          cases h
          exact .closed (Bool.eq_false_iff.2 hd) hr hp.1 hp.2
        · cases h
  | close =>
    cases h
    exact .close
  | dropReader =>
    cases h
    exact .dropReader

/-- What is written changes in a write only. -/
theorem Step.quiet (h : Step c s act s' evs) (ha : ∀ k data cut, act ≠ .write k data cut) (k : Nat) :
    (s'.streams k).failed = (s.streams k).failed ∧ ∀ e ∈ evs, ∀ data, e ≠ .attempted k data ∧ e ≠ .written k data := by
  have hset {k' : Nat} {st : StreamState} (hf : st.failed = (s.streams k').failed) :
      ((s.setStream k' st).streams k).failed = (s.streams k).failed := by
    by_cases hk : k = k'
    · subst hk
      simpa [State.setStream] using hf
    · simp [State.setStream, Function.update_of_ne hk]
  cases h with
  | refused | written | failed => exact absurd rfl (ha _ _ _)
  | queued => exact ⟨hset rfl, by simp⟩
  | accepted => exact ⟨hset rfl, nofun⟩
  | arrived | readLen | readBuf | returned => exact ⟨hset rfl, nofun⟩
  | read => exact ⟨rfl, by simp⟩
  | closed => exact ⟨rfl, by simp⟩
  | stoppedAccepting | close | dropReader => exact ⟨rfl, nofun⟩

/-! ### What is written and what is read -/

namespace Event

@[simp] def attempted? (k : Nat) : Event → Option Bytes
  | attempted k' data => if k' = k then some data else none
  | _ => none

@[simp] def written? (k : Nat) : Event → Option Bytes
  | written k' data => if k' = k then some data else none
  | _ => none

@[simp] def queued? (k : Nat) : Event → Option Bytes
  | queued k' buf => if k' = k then some buf else none
  | _ => none

@[simp] def anyQueued? : Event → Option Bytes
  | queued _ buf => some buf
  | _ => none

@[simp] def read? : Event → Option Bytes
  | read buf => some buf
  | _ => none

end Event

/-- The messages whose write began on a stream; it came to its end for all but the last one. -/
def attempted (k : Nat) (log : List Event) : List Bytes := log.filterMap (Event.attempted? k)

def written (k : Nat) (log : List Event) : List Bytes := log.filterMap (Event.written? k)

/-- The messages of a stream that are put into the channel. -/
def queued (k : Nat) (log : List Event) : List Bytes := log.filterMap (Event.queued? k)

def allQueued (log : List Event) : List Bytes := log.filterMap Event.anyQueued?

def read (log : List Event) : List Bytes := log.filterMap Event.read?

theorem Step.read_eq_nil (h : Step c s act s' evs) (ha : act ≠ .read) : Streams.read evs = [] := by
  cases h with
  | read | closed => exact absurd rfl ha
  | _ => rfl

/-- Of every stream the first messages come out, in their order, and so through the channel. -/
structure Delivered (log : List Event) : Prop where
  written : ∀ k, written k log <+: attempted k log
  queued : ∀ k, queued k log <+: attempted k log
  read : read log <+: allQueued log

/-- All of a stream has arrived and is read. -/
structure CaughtUp (s : State) (k : Nat) : Prop where
  failed : (s.streams k).failed = false
  arrived : (s.streams k).arrived = (s.streams k).writer.sendStream.length
  recvStream : (s.streams k).recvStream.flatten = []
  task : (s.streams k).task = .readingLen

theorem prefixCode : PrefixCode (fun data : Bytes => data.length < 2 ^ 32) encode := by
  have hinj (m n : Nat) (hm : m < 2 ^ 32) (hn : n < 2 ^ 32) (heq : putU32 (.ofNat m) = putU32 (.ofNat n)) : m = n := by
    have h := congrArg (fun bytes => (readU32 bytes).toNat) heq
    simp only [readU32_putU32, UInt32.toNat_ofNat'] at h
    rwa [Nat.mod_eq_of_lt hm, Nat.mod_eq_of_lt hn] at h
  exact .lengthPrefixed (k := 4) (by decide) (fun _ => rfl) hinj

/-- What the task has read of the message at hand. -/
def TaskPc.taken : TaskPc → Bytes
  | .readingBuf len => putU32 (.ofNat len)
  | .sending buf => encode buf
  | _ => []

structure StreamInv (log : List Event) (k : Nat) (st : StreamState) : Prop where
  attempted_lt : ∀ data ∈ attempted k log, data.length < 2 ^ 32
  queued_lt : ∀ buf ∈ queued k log, buf.length < 2 ^ 32
  written : written k log <+: attempted k log
  whole : st.failed = false → st.writer.sendStream = (attempted k log).flatMap encode ∧ Streams.written k log = attempted k log
  sent : st.writer.sendStream <+: (attempted k log).flatMap encode
  arrived : st.arrived ≤ st.writer.sendStream.length
  len : ∀ len, st.task = .readingBuf len → len < 2 ^ 32
  buf : ∀ buf, st.task = .sending buf → buf.length < 2 ^ 32
  taken : (queued k log).flatMap encode <+: st.writer.sendStream
  reading : st.task ≠ .returned →
    (queued k log).flatMap encode ++ (st.task.taken ++ st.recvStream.flatten) = st.writer.sendStream.take st.arrived

/-- An event of the stream `k`. -/
def Event.on (k : Nat) : Event → Prop
  | .attempted k' _ | .written k' _ | .queued k' _ => k' = k
  | _ => False

@[simp] theorem attempted_append (k : Nat) (log evs : List Event) : attempted k (log ++ evs) = attempted k log ++ attempted k evs :=
  List.filterMap_append

@[simp] theorem written_append (k : Nat) (log evs : List Event) : written k (log ++ evs) = written k log ++ written k evs :=
  List.filterMap_append

@[simp] theorem queued_append (k : Nat) (log evs : List Event) : queued k (log ++ evs) = queued k log ++ queued k evs :=
  List.filterMap_append

@[simp] theorem allQueued_append (log evs : List Event) : allQueued (log ++ evs) = allQueued log ++ allQueued evs :=
  List.filterMap_append

@[simp] theorem read_append (log evs : List Event) : read (log ++ evs) = read log ++ read evs := List.filterMap_append

theorem eq_nil_of_not_on (h : ∀ e ∈ evs, ¬ e.on k) : attempted k evs = [] ∧ written k evs = [] ∧ queued k evs = [] := by
  refine ⟨?_, ?_, ?_⟩ <;> refine List.filterMap_eq_nil_iff.2 fun e he => ?_ <;>
    cases e <;> first | rfl | exact if_neg (h _ he)

namespace StreamInv

variable {st st' : StreamState}

theorem init (k : Nat) : StreamInv [] k {} :=
  ⟨by simp [attempted], by simp [queued], List.prefix_rfl, fun _ => ⟨rfl, rfl⟩, List.prefix_rfl, Nat.le_refl _, nofun, nofun,
    List.prefix_rfl, fun _ => rfl⟩

/-- Nothing happens to the messages of the stream. -/
theorem quiet (h : StreamInv log k st) (hev : ∀ e ∈ evs, ¬ e.on k) : StreamInv (log ++ evs) k st := by
  obtain ⟨ha, hw, hq⟩ := eq_nil_of_not_on hev
  refine ⟨?_, ?_, ?_, ?_, ?_, h.arrived, h.len, h.buf, ?_, ?_⟩ <;>
    simp only [attempted_append, written_append, queued_append, ha, hw, hq, List.append_nil]
  · exact h.attempted_lt
  · exact h.queued_lt
  · exact h.written
  · exact h.whole
  · exact h.sent
  · exact h.taken
  · exact h.reading

/-- The task goes on, with what it has read. -/
theorem setTask (h : StreamInv log k st) {task : TaskPc} {recvStream : List Bytes} (hne : task ≠ .returned → st.task ≠ .returned)
    (hlen : ∀ len, task = .readingBuf len → len < 2 ^ 32) (hbuf : ∀ buf, task = .sending buf → buf.length < 2 ^ 32)
    (hread : task ≠ .returned → task.taken ++ recvStream.flatten = st.task.taken ++ st.recvStream.flatten) :
    StreamInv log k { st with task := task, recvStream := recvStream } := by
  refine ⟨h.attempted_lt, h.queued_lt, h.written, h.whole, h.sent, h.arrived, hlen, hbuf, h.taken, fun hr => ?_⟩
  rw [hread hr]
  exact h.reading (hne hr)

/-- The peer writes a message, or a part of it. -/
theorem write (h : StreamInv log k st) (hf : st.failed = false) {sent buf : Bytes} {failed : Bool}
    (hdata : data.length < 2 ^ 32) (hsent : sent <+: encode data)
    (hev : attempted k evs = [data] ∧ queued k evs = [] ∧
      (failed = false ∧ sent = encode data ∧ Streams.written k evs = [data] ∨ failed = true ∧ Streams.written k evs = [])) :
    StreamInv (log ++ evs) k { st with writer := ⟨st.writer.sendStream ++ sent, buf⟩, failed := failed } := by
  obtain ⟨ha, hq, hw⟩ := hev
  obtain ⟨hstream, hall⟩ := h.whole hf
  refine ⟨?_, ?_, ?_, ?_, ?_, ?_, h.len, h.buf, ?_, ?_⟩ <;>
    simp only [attempted_append, written_append, queued_append, ha, hq, List.append_nil, hall]
  · exact List.forall_mem_append.2 ⟨h.attempted_lt, List.forall_mem_singleton.2 hdata⟩
  · exact h.queued_lt
  · rcases hw with ⟨-, -, hw⟩ | ⟨-, hw⟩
    · exact hw ▸ List.prefix_rfl
    · rw [hw, List.append_nil]
      exact List.prefix_append _ _
  · intro hnot
    rcases hw with ⟨-, hs, hw⟩ | ⟨hfailed, -⟩
    · rw [hw, hs, hstream]
      exact ⟨by simp, rfl⟩
    · rw [hnot] at hfailed
      cases hfailed
  · rw [List.flatMap_append, hstream, List.prefix_append_right_inj]
    simpa using hsent
  · rw [List.length_append]
    exact Nat.le_add_right_of_le h.arrived
  · exact h.taken.trans (List.prefix_append _ _)
  · intro hr
    rw [List.take_append_of_le_length h.arrived]
    exact h.reading hr

theorem arrive (h : StreamInv log k st) {n : Nat} (hn : st.arrived + n ≤ st.writer.sendStream.length) :
    StreamInv log k { st with
      arrived := st.arrived + n
      recvStream := st.recvStream ++ [(st.writer.sendStream.drop st.arrived).take n] } := by
  refine ⟨h.attempted_lt, h.queued_lt, h.written, h.whole, h.sent, hn, h.len, h.buf, h.taken, fun hr => ?_⟩
  rw [List.flatten_append, List.flatten_singleton, List.take_add, ← h.reading hr]
  simp only [List.append_assoc]

/-- A message is put into the channel. -/
theorem send (h : StreamInv log k st) (ht : st.task = .sending buf) (hq : queued k evs = [buf])
    (ha : attempted k evs = [] ∧ Streams.written k evs = []) :
    StreamInv (log ++ evs) k { st with task := .readingLen } := by
  have hreading := h.reading (by rw [ht]; exact nofun)
  rw [ht, ← List.append_assoc] at hreading
  refine ⟨?_, ?_, ?_, ?_, ?_, h.arrived, nofun, nofun, ?_, fun _ => ?_⟩ <;>
    simp only [attempted_append, written_append, queued_append, ha, hq, List.append_nil]
  · exact h.attempted_lt
  · exact List.forall_mem_append.2 ⟨h.queued_lt, List.forall_mem_singleton.2 (h.buf buf ht)⟩
  · exact h.written
  · exact h.whole
  · exact h.sent
  · rw [List.flatMap_append, List.flatMap_singleton]
    exact (List.prefix_append _ _).trans (hreading ▸ List.take_prefix _ _)
  · rw [List.flatMap_append, List.flatMap_singleton]
    exact hreading

theorem queued_first (h : StreamInv log k st) : queued k log <+: attempted k log :=
  prefixCode.prefix_of_flatMap h.queued_lt h.attempted_lt (h.taken.trans h.sent)

/-- Nothing of the stream is lost. -/
theorem caught_up (h : StreamInv log k st) (hf : st.failed = false) (ha : st.arrived = st.writer.sendStream.length)
    (hr : st.recvStream.flatten = []) (ht : st.task = .readingLen) : queued k log = Streams.written k log := by
  have hreading := h.reading (by rw [ht]; exact nofun)
  rw [ht, hr, ha, List.take_length, (h.whole hf).1] at hreading
  rw [(h.whole hf).2]
  refine prefixCode.flatMap_inj h.queued_lt h.attempted_lt ?_
  simpa [TaskPc.taken] using hreading

end StreamInv

/-- `read` returns an error when all is read, and nothing comes after that. -/
def Final (pre : List Event) : Event → Prop
  | .closed _ => read pre = allQueued pre
  | .queued .. | .read _ => ∀ msg, .closed msg ∉ pre
  | _ => True

structure Inv (log : List Event) (s : State) : Prop where
  streams : ∀ k, StreamInv log k (s.streams k)
  rx : Mpsc.Carries (allQueued log) (read log) s.rx
  /-- A task that is at work was accepted. -/
  accepted : ∀ k, (s.streams k).task ≠ .idle → k ∈ s.accepted
  closed : ∀ msg, .closed msg ∈ log → s.accepting = false ∧
    (∀ k, (s.streams k).task = .idle ∨ (s.streams k).task = .returned) ∧ s.rx.items = []
  final : History.Each Final log

namespace Inv

theorem init (c : Config) : Inv [] (machine c).init :=
  ⟨StreamInv.init, .init, fun _ hk => absurd rfl hk, nofun, .nil⟩

/-- Something happens to one stream. -/
theorem setStream (h : Inv log s) {st : StreamState} (hst : StreamInv (log ++ evs) k st)
    (htask : (s.streams k).task = .idle ∨ (s.streams k).task = .returned → st.task = (s.streams k).task)
    (hidle : (s.streams k).task = .idle → st.task = .idle)
    (hev : ∀ e ∈ evs, e.on k ∨ ∃ data, e = .refused k data) (hq : ∀ e ∈ evs, ∀ buf, e ≠ .queued k buf) :
    Inv (log ++ evs) (s.setStream k st) := by
  have hother {e : Event} (he : e ∈ evs) {k' : Nat} (hk : k' ≠ k) : ¬ e.on k' := fun hon => by
    rcases hev e he with hon' | ⟨data, rfl⟩
    · cases e <;> first | exact hk (hon.symm.trans hon') | cases hon
    · cases hon
  have hnone {e : Event} (he : e ∈ evs) : e.anyQueued? = none ∧ e.read? = none ∧ (∀ msg, e ≠ .closed msg) := by
    rcases hev e he with hon | ⟨data, rfl⟩
    · cases e with
      | queued k' buf => exact absurd (by rw [← hon]) (hq _ he buf)
      | attempted | written => exact ⟨rfl, rfl, nofun⟩
      | _ => cases hon
    · exact ⟨rfl, rfl, nofun⟩
  have hall : allQueued evs = [] := List.filterMap_eq_nil_iff.2 fun e he => (hnone he).1
  have hread : read evs = [] := List.filterMap_eq_nil_iff.2 fun e he => (hnone he).2.1
  have hself : (s.setStream k st).streams k = st := Function.update_self ..
  have hne {k' : Nat} (hk : k' ≠ k) : (s.setStream k st).streams k' = s.streams k' := Function.update_of_ne hk ..
  refine ⟨fun k' => ?_, ?_, fun k' hk' => ?_, fun msg hm => ?_, h.final.append_of_forall fun pre e he => ?_⟩
  · by_cases hk : k' = k
    · rw [hk, hself]
      exact hst
    · rw [hne hk]
      exact (h.streams k').quiet fun e he => hother he hk
  · rw [allQueued_append, read_append, hall, hread, List.append_nil, List.append_nil]
    exact h.rx
  · by_cases hk : k' = k
    · rw [hk, hself] at hk'
      exact hk ▸ h.accepted k fun hi => hk' (hidle hi)
    · rw [hne hk] at hk'
      exact h.accepted k' hk'
  · rcases List.mem_append.1 hm with hm | hm
    · obtain ⟨haccepting, htasks, hitems⟩ := h.closed msg hm
      refine ⟨haccepting, fun k' => ?_, hitems⟩
      by_cases hk : k' = k
      · rw [hk, hself, htask (htasks k)]
        exact htasks k
      · rw [hne hk]
        exact htasks k'
    · exact absurd rfl ((hnone hm).2.2 msg)
  · have := hnone he
    cases e with
    | queued => cases this.1
    | read => cases this.2.1
    | closed msg => exact absurd rfl (this.2.2 msg)
    | _ => trivial

/-- `read` is not at its end while a task is at work. -/
theorem not_closed (h : Inv log s) (hi : (s.streams k).task ≠ .idle) (hr : (s.streams k).task ≠ .returned) (msg : String) :
    .closed msg ∉ log := fun hm => ((h.closed msg hm).2.1 k).elim hi hr

theorem send (h : Inv log s) {rx : Mpsc Bytes} (ht : (s.streams k).task = .sending buf)
    (hs : s.rx.send c.channelSize buf = some (true, rx)) :
    Inv (log ++ [.queued k buf]) { s.setStream k { s.streams k with task := .readingLen } with rx := rx } := by
  have hidle : (s.streams k).task ≠ .idle := by rw [ht]; exact nofun
  have hreturned : (s.streams k).task ≠ .returned := by rw [ht]; exact nofun
  have hst : StreamInv (log ++ [.queued k buf]) k { s.streams k with task := .readingLen } :=
    (h.streams k).send ht (by simp [queued]) ⟨rfl, rfl⟩
  refine ⟨fun k' => ?_, ?_, fun k' hk' => ?_, fun msg hm => ?_, History.each_append_singleton.2 ⟨h.final, h.not_closed hidle hreturned⟩⟩
  · by_cases hk : k' = k
    · subst hk
      simpa [State.setStream] using hst
    · have hother : StreamInv (log ++ [.queued k buf]) k' (s.streams k') :=
        (h.streams k').quiet (by simpa [Event.on] using Ne.symm hk)
      simpa [State.setStream, Function.update_of_ne hk] using hother
  · rw [allQueued_append, read_append]
    simpa [allQueued, read, List.filterMap_cons] using h.rx.send hs
  · by_cases hk : k' = k
    · exact hk ▸ h.accepted k hidle
    · exact h.accepted k' (by simpa [State.setStream, Function.update_of_ne hk] using hk')
  · rcases List.mem_append.1 hm with hm | hm
    · exact absurd hm (h.not_closed hidle hreturned msg)
    · simp at hm

theorem accept (h : Inv log s) (ha : s.accepting) (ht : (s.streams k).task = .idle) :
    Inv log { s.setStream k { s.streams k with task := .readingLen } with accepted := s.accepted ++ [k] } := by
  have hst : StreamInv log k { s.streams k with task := .readingLen } :=
    (h.streams k).setTask (fun _ => by rw [ht]; exact nofun) nofun nofun fun _ => by rw [ht]; rfl
  refine ⟨fun k' => ?_, h.rx, fun k' hk' => ?_, fun msg hm => ?_, h.final⟩
  · by_cases hk : k' = k
    · subst hk
      simpa [State.setStream] using hst
    · simpa [State.setStream, Function.update_of_ne hk] using h.streams k'
  · by_cases hk : k' = k
    · simp [hk]
    · exact List.mem_append_left _ (h.accepted k' (by simpa [State.setStream, Function.update_of_ne hk] using hk'))
  · have := (h.closed msg hm).1
    rw [ha] at this
    cases this

theorem step (h : Inv log s) (hs : Step c s act s' evs) : Inv (log ++ evs) s' := by
  cases hs with
  | refused hf hlen =>
    rename_i k data buf cut
    have hst : StreamInv (log ++ [.refused k data]) k (s.streams k) := (h.streams k).quiet (by simp [Event.on])
    refine h.setStream ?_ (fun _ => rfl) id (by simp) (by simp)
    exact ⟨hst.attempted_lt, hst.queued_lt, hst.written, hst.whole, hst.sent, hst.arrived, hst.len, hst.buf, hst.taken, hst.reading⟩
  | written hf hlen =>
    rename_i k data
    have hst : StreamInv (log ++ [.attempted k data, .written k data]) k
        { s.streams k with writer := ⟨(s.streams k).writer.sendStream ++ encode data, encode data⟩, failed := false } :=
      (h.streams k).write hf hlen List.prefix_rfl
        ⟨by simp [attempted], by simp [queued], .inl ⟨rfl, rfl, by simp [Streams.written, List.filterMap_cons]⟩⟩
    rw [← hf] at hst
    exact h.setStream hst (fun _ => rfl) id (by simp [Event.on]) (by simp)
  | failed hf hlen =>
    rename_i k data n
    refine h.setStream ((h.streams k).write hf hlen (List.take_prefix n _) ⟨?_, ?_, .inr ⟨rfl, ?_⟩⟩) (fun _ => rfl) id
      (by simp [Event.on]) (by simp)
    · simp [attempted]
    · simp [queued]
    · simp [Streams.written]
  | arrived hn =>
    rename_i k n
    refine h.setStream ?_ (fun _ => rfl) id (by simp) (by simp)
    rw [List.append_nil]
    exact (h.streams k).arrive hn
  | accepted ha ht =>
    rw [List.append_nil]
    exact h.accept ha ht
  | stoppedAccepting =>
    rw [List.append_nil]
    exact ⟨h.streams, h.rx, h.accepted, fun msg hm => ⟨rfl, (h.closed msg hm).2⟩, h.final⟩
  | readLen ht hr =>
    rename_i k len rest
    obtain ⟨hflat, hlen⟩ := Pieces.readExact_eq_some hr
    refine h.setStream ?_ (by rw [ht]; exact nofun) (by rw [ht]; exact nofun) (by simp) (by simp)
    rw [List.append_nil]
    refine (h.streams k).setTask (fun _ => by rw [ht]; exact nofun) (fun len heq => ?_) nofun fun _ => ?_
    · obtain rfl := TaskPc.readingBuf.inj heq
      exact UInt32.toNat_lt _
    · rw [ht, hflat, TaskPc.taken, UInt32.ofNat_toNat, putU32_readU32 hlen]
      rfl
  | readBuf ht hr =>
    rename_i k len buf rest
    obtain ⟨hflat, hlen⟩ := Pieces.readExact_eq_some hr
    refine h.setStream ?_ (by rw [ht]; exact nofun) (by rw [ht]; exact nofun) (by simp) (by simp)
    rw [List.append_nil]
    refine (h.streams k).setTask (fun _ => by rw [ht]; exact nofun) nofun (fun buf heq => ?_) fun _ => ?_
    · obtain rfl := TaskPc.sending.inj heq
      exact hlen ▸ (h.streams k).len len ht
    · rw [ht, hflat, TaskPc.taken, TaskPc.taken, encode, hlen, List.append_assoc]
  | queued ht hs => exact h.send ht hs
  | returned hact hi =>
    rename_i k
    refine h.setStream ?_ (fun ht => (ht.resolve_left hi).symm) (fun ht => absurd ht hi) (by simp) (by simp)
    rw [List.append_nil]
    exact (h.streams k).setTask (fun hr => absurd rfl hr) (by intro _ heq; cases heq) (by intro _ heq; cases heq) fun hr => absurd rfl hr
  | read hr =>
    rename_i buf rx
    refine ⟨fun k => (h.streams k).quiet (by simp [Event.on]), ?_, h.accepted, fun msg hm => ?_,
      History.each_append_singleton.2 ⟨h.final, fun msg hm => ?_⟩⟩
    · rw [allQueued_append, read_append]
      simpa [allQueued, Streams.read, List.filterMap_cons] using h.rx.recv hr
    · have hm : .closed msg ∈ log := by simpa using hm
      have hitems := (h.closed msg hm).2.2
      rw [(Mpsc.recv_eq_some hr).1] at hitems
      cases hitems
    · have hitems := (h.closed msg hm).2.2
      rw [(Mpsc.recv_eq_some hr).1] at hitems
      cases hitems
  | closed hd hr ha hall =>
    refine ⟨fun k => (h.streams k).quiet (by simp [Event.on]), ?_, h.accepted, fun msg hm => ⟨ha, fun k => ?_, Mpsc.recv_eq_none hr⟩,
      History.each_append_singleton.2 ⟨h.final, h.rx.all hd hr⟩⟩
    · rw [allQueued_append, read_append]
      simpa [allQueued, Streams.read, List.filterMap_cons] using h.rx
    · exact or_iff_not_imp_left.2 fun hi => hall k (h.accepted k hi)
  | close =>
    rw [List.append_nil]
    exact ⟨h.streams, h.rx, h.accepted, h.closed, h.final⟩
  | dropReader =>
    rw [List.append_nil]
    exact ⟨h.streams, h.rx.dropRx, h.accepted, fun msg hm => ⟨(h.closed msg hm).1, (h.closed msg hm).2.1, rfl⟩, h.final⟩

theorem of_run (h : (machine c).Run log s) : Inv log s := by
  refine h.invariant (I := Inv) (.init c) ?_
  rintro log s a s' evs - hi - ha
  exact hi.step (step_step ha)

end Inv

/-- In every run, whatever arrives when and whichever stream is read first: of every stream the first messages come
out in their order, all of them once it is read to its end, and `read` gives what the streams gave, to the last message
before it says that they are closed. -/
theorem streams_delivered (h : (machine c).Run log s) :
    Delivered log ∧ (∀ k, CaughtUp s k → queued k log = written k log) ∧ History.Each Final log := by
  have hinv := Inv.of_run h
  refine ⟨⟨fun k => (hinv.streams k).written, fun k => (hinv.streams k).queued_first, hinv.rx.first⟩, fun k hk => ?_, hinv.final⟩
  exact (hinv.streams k).caught_up hk.failed hk.arrived hk.recvStream hk.task

instance (s : State) (k : Nat) : Decidable (CaughtUp s k) :=
  decidable_of_iff ((s.streams k).failed = false ∧ (s.streams k).arrived = (s.streams k).writer.sendStream.length ∧
    (s.streams k).recvStream.flatten = [] ∧ (s.streams k).task = .readingLen)
    ⟨fun h => ⟨h.1, h.2.1, h.2.2.1, h.2.2.2⟩, fun h => ⟨h.1, h.2, h.3, h.4⟩⟩

/-- Two streams, of which the second one is read while a part of the first one is missing. -/
theorem streams_delivered_two : ∃ log s, (machine Quic.reader).Run log s ∧
    (Delivered log ∧ (∀ k, CaughtUp s k → queued k log = written k log) ∧ History.Each Final log) ∧
      CaughtUp s 0 ∧ read log = [[9], [7, 8]] := by
  obtain ⟨log, s, h, hr⟩ := Machine.Exec.exists_of_any (M := machine Quic.reader) (C := fun _ _ _ => True)
    [.write 0 [7, 8] none, .write 1 [9] none, .accept 0, .accept 1, .arrive 0 3, .arrive 1 5, .readLen 1, .readBuf 1, .send 1,
      .arrive 0 3, .readLen 0, .readBuf 0, .send 0, .read, .read]
    (P := fun log s => CaughtUp s 0 ∧ read log = [[9], [7, 8]]) (by decide +kernel)
  exact ⟨log, s, h, streams_delivered h, hr⟩

end Streams

end Iscp
