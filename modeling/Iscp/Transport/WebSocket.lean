import Iscp.Lib.Channel
import Iscp.Lib.Progress
import Iscp.Message

/-!
# The WebSocket transport

`websocket.rs`: the writer and the reader share a channel, from which a task of its own takes the messages and sends
them. The reader answers a ping through that channel before it goes on, which may take it as long as 10 seconds; all that
time its `read` may be dropped by the `select!` of the read loop, and so it may while it waits for a message.
-/

namespace Iscp.WebSocket

/-- `reqwest_websocket::Message`. -/
inductive Message
  | text (text : String)
  | binary (bin : Bytes)
  | ping (p : Bytes)
  | pong (p : Bytes)
  | close (code : UInt16) (reason : String)
deriving DecidableEq

def channelSize : Nat := 16

inductive TaskPc
  | receiving
  | sending (msg : Message)
  | flushing
  | ended
deriving DecidableEq

inductive ReaderPc
  /-- `read` is not called. -/
  | idle
  | waiting
  | ponging (p : Bytes)
deriving DecidableEq

structure State where
  queue : Mpsc Message := {}
  task : TaskPc := .receiving
  reader : ReaderPc := .idle
  writerDropped : Bool := false
  readerDropped : Bool := false

inductive Action
  | write (data : Bytes)
  /-- `close` of the writer. -/
  | close
  | recv
  | sent
  | flushed
  /-- `send` or `flush` of the sink gives an error. -/
  | sinkFailed
  | read
  /-- What the stream gives. -/
  | next (res : Option (Except String Message))
  | pong
  | timeout
  /-- The `read` that was called is dropped. -/
  | abandon
  | dropWriter
  | dropReader

inductive Event
  | accepted (msg : Message)
  | refused (msg : Message)
  | taken (msg : Message)
  | sent (msg : Message)
  | received (msg : Message)
  /-- `read` returns. -/
  | read (bin : Bytes)
  | failed (err : String)
  /-- A ping gets no answer. -/
  | unanswered (p : Bytes)
  | sinkFailed
  | ended
deriving DecidableEq

/-- What the writer sends. -/
def Action.message? : Action → Option Message
  | .write data => some (.binary data)
  | .close => some (.close 1000 "OK")
  | _ => none

/-- The ping that the reader is about to answer. -/
def ReaderPc.pending : ReaderPc → List Bytes
  | .ponging p => [p]
  | _ => []

/-- A send of the writer. -/
def State.writerSend (s : State) (msg : Message) : Option (State × List Event) :=
  if s.writerDropped then none else
  match s.queue.send channelSize msg with
  | some (true, queue) => some ({ s with queue := queue }, [.accepted msg])
  | some (false, _) => some (s, [.refused msg])
  | none => none

/-- `read` gets something from the stream. -/
def State.next (s : State) : Option (Except String Message) → State × List Event
  | none => ({ s with reader := .idle }, [.failed "web socket stream closed"])
  | some (.error e) => ({ s with reader := .idle }, [.failed e])
  | some (.ok (.close code reason)) =>
    ({ s with reader := .idle }, [.received (.close code reason), .failed "web socket stream closed"])
  | some (.ok (.ping p)) => ({ s with reader := .ponging p }, [.received (.ping p)])
  | some (.ok (.binary bin)) => ({ s with reader := .idle }, [.received (.binary bin), .read bin])
  | some (.ok msg) => (s, [.received msg])

def pongError : String := "websocket write task closed or timeout, cannot send pong"

def step (s : State) : Action → Option (State × List Event)
  | .write data => s.writerSend (.binary data)
  | .close => s.writerSend (.close 1000 "OK")
  | .recv =>
    match s.task, s.queue.recv with
    | .receiving, some (msg, queue) => some ({ s with task := .sending msg, queue := queue }, [.taken msg])
    | .receiving, none =>
      if s.writerDropped ∧ s.readerDropped then some ({ s with task := .ended, queue := s.queue.dropRx }, [.ended]) else none
    | _, _ => none
  | .sent =>
    match s.task with
    | .sending msg => some ({ s with task := .flushing }, [.sent msg])
    | _ => none
  | .flushed =>
    match s.task with
    | .flushing => some ({ s with task := .receiving }, [])
    | _ => none
  | .sinkFailed =>
    match s.task with
    | .sending _ | .flushing => some ({ s with task := .ended, queue := s.queue.dropRx }, [.sinkFailed, .ended])
    | _ => none
  | .read =>
    match s.reader with
    | .idle => if s.readerDropped then none else some ({ s with reader := .waiting }, [])
    | _ => none
  | .next res =>
    match s.reader with
    | .waiting => some (s.next res)
    | _ => none
  | .pong =>
    match s.reader with
    | .ponging p =>
      match s.queue.send channelSize (.pong p) with
      | some (true, queue) => some ({ s with queue := queue, reader := .waiting }, [.accepted (.pong p)])
      | some (false, _) => some ({ s with reader := .idle }, [.unanswered p, .failed pongError])
      | none => none
    | _ => none
  | .timeout =>
    match s.reader with
    | .ponging p => some ({ s with reader := .idle }, [.unanswered p, .failed pongError])
    | _ => none
  | .abandon => some ({ s with reader := .idle }, s.reader.pending.map .unanswered)
  | .dropWriter => some ({ s with writerDropped := true }, [])
  | .dropReader => some ({ s with reader := .idle, readerDropped := true }, s.reader.pending.map .unanswered)

def machine : Machine State Action Event where
  init := {}
  log₀ := []
  step := step

/-! ### What a step does -/

/-- What the reader gets from the stream, and what it does with it. -/
inductive Next : Option (Except String Message) → ReaderPc → List Event → Prop
  | ended {res : Option (Except String Message)} {err : String} : Next res .idle [.failed err]
  | closed {code : UInt16} {reason err : String} :
      Next (some (.ok (.close code reason))) .idle [.received (.close code reason), .failed err]
  | ping {p : Bytes} : Next (some (.ok (.ping p))) (.ponging p) [.received (.ping p)]
  | binary {bin : Bytes} : Next (some (.ok (.binary bin))) .idle [.received (.binary bin), .read bin]
  | text {text : String} : Next (some (.ok (.text text))) .waiting [.received (.text text)]
  | pong {p : Bytes} : Next (some (.ok (.pong p))) .waiting [.received (.pong p)]

inductive Step (s : State) : Action → State → List Event → Prop
  | accepted {act : Action} {msg : Message} {queue : Mpsc Message} : act.message? = some msg →
      s.queue.send channelSize msg = some (true, queue) → Step s act { s with queue := queue } [.accepted msg]
  | refused {act : Action} {msg : Message} : Step s act s [.refused msg]
  | taken {msg : Message} {queue : Mpsc Message} : s.task = .receiving → s.queue.recv = some (msg, queue) →
      Step s .recv { s with task := .sending msg, queue := queue } [.taken msg]
  | ended : s.task = .receiving → s.queue.recv = none →
      Step s .recv { s with task := .ended, queue := s.queue.dropRx } [.ended]
  | sent {msg : Message} : s.task = .sending msg → Step s .sent { s with task := .flushing } [.sent msg]
  | flushed : s.task = .flushing → Step s .flushed { s with task := .receiving } []
  | sinkFailed : s.task ≠ .ended →
      Step s .sinkFailed { s with task := .ended, queue := s.queue.dropRx } [.sinkFailed, .ended]
  | read : s.reader = .idle → Step s .read { s with reader := .waiting } []
  | next {res : Option (Except String Message)} {reader : ReaderPc} {evs : List Event} : s.reader = .waiting →
      Next res reader evs → Step s (.next res) { s with reader := reader } evs
  | ponged {p : Bytes} {queue : Mpsc Message} : s.reader = .ponging p →
      s.queue.send channelSize (.pong p) = some (true, queue) →
      Step s .pong { s with queue := queue, reader := .waiting } [.accepted (.pong p)]
  | pongFailed {act : Action} {p : Bytes} : s.reader = .ponging p →
      Step s act { s with reader := .idle } [.unanswered p, .failed pongError]
  | dropped {act : Action} {readerDropped : Bool} :
      Step s act { s with reader := .idle, readerDropped := readerDropped } (s.reader.pending.map .unanswered)
  | dropWriter : Step s .dropWriter { s with writerDropped := true } []

variable {s s' : State} {act : Action} {log evs : List Event}

theorem writerSend_step {msg : Message} (hm : act.message? = some msg) (h : s.writerSend msg = some (s', evs)) :
    Step s act s' evs := by
  simp only [State.writerSend] at h
  split at h
  · cases h
  · split at h
    · rename_i hs
      cases h
      exact .accepted hm hs
    · cases h
      exact .refused
    · cases h

theorem next_step (hr : s.reader = .waiting) (res : Option (Except String Message)) :
    Step s (.next res) (s.next res).1 (s.next res).2 := by
  have hself {res evs} (h : Step s (.next res) { s with reader := .waiting } evs) : Step s (.next res) s evs := by
    rwa [← hr] at h
  match res with
  | none => exact .next hr .ended
  | some (.error _) => exact .next hr .ended
  | some (.ok (.close _ _)) => exact .next hr .closed
  | some (.ok (.ping _)) => exact .next hr .ping
  | some (.ok (.binary _)) => exact .next hr .binary
  | some (.ok (.text _)) => exact hself (.next hr .text)
  | some (.ok (.pong _)) => exact hself (.next hr .pong)

theorem step_step (h : step s act = some (s', evs)) : Step s act s' evs := by
  cases act with
  | write data => exact writerSend_step rfl h
  | close => exact writerSend_step rfl h
  | recv =>
    simp only [step] at h
    split at h
    · rename_i ht hr
      cases h
      exact .taken ht hr
    · rename_i ht hr
      split at h
      · cases h
        exact .ended ht hr
      · cases h
    · cases h
  | sent =>
    simp only [step] at h
    split at h
    · rename_i ht
      cases h
      exact .sent ht
    · cases h
  | flushed =>
    simp only [step] at h
    split at h
    · rename_i ht
      cases h
      exact .flushed ht
    · cases h
  | sinkFailed =>
    simp only [step] at h
    split at h
    · rename_i ht
      cases h
      exact .sinkFailed (by rw [ht]; exact nofun)
    · rename_i ht
      cases h
      exact .sinkFailed (by rw [ht]; exact nofun)
    · cases h
  | read =>
    simp only [step] at h
    split at h
    · rename_i hr
      split at h
      · cases h
      · cases h
        exact .read hr
    · cases h
  | next res =>
    simp only [step] at h
    split at h
    · rename_i hr
      obtain ⟨rfl, rfl⟩ := Prod.mk.inj (Option.some.inj h)
      exact next_step hr res
    · cases h
  | pong =>
    simp only [step] at h
    split at h
    · rename_i hr
      split at h
      · rename_i hs
        cases h
        exact .ponged hr hs
      · cases h
        exact .pongFailed hr
      · cases h
    · cases h
  | timeout =>
    simp only [step] at h
    split at h
    · rename_i hr
      cases h
      exact .pongFailed hr
    · cases h
  | abandon =>
    cases h
    exact .dropped
  | dropWriter =>
    cases h
    exact .dropWriter
  | dropReader =>
    cases h
    exact .dropped

/-! ### What comes in and what goes out -/

namespace Event

@[simp] def accepted? : Event → Option Message
  | accepted msg => some msg
  | _ => none

@[simp] def taken? : Event → Option Message
  | taken msg => some msg
  | _ => none

@[simp] def sent? : Event → Option Message
  | sent msg => some msg
  | _ => none

@[simp] def read? : Event → Option Bytes
  | read bin => some bin
  | _ => none

@[simp] def binary? : Event → Option Bytes
  | received (.binary bin) => some bin
  | _ => none

@[simp] def ping? : Event → Option Bytes
  | received (.ping p) => some p
  | _ => none

/-- What becomes of a ping. -/
@[simp] def outcome? : Event → Option Bytes
  | accepted (.pong p) => some p
  | unanswered p => some p
  | _ => none

end Event

/-- The messages of the writer and the pongs that were taken into the channel. -/
def accepted (log : List Event) : List Message := log.filterMap Event.accepted?

def taken (log : List Event) : List Message := log.filterMap Event.taken?

def sent (log : List Event) : List Message := log.filterMap Event.sent?

def read (log : List Event) : List Bytes := log.filterMap Event.read?

/-- The binary messages that came. -/
def binaries (log : List Event) : List Bytes := log.filterMap Event.binary?

def pings (log : List Event) : List Bytes := log.filterMap Event.ping?

/-- The pings that were answered, and those that never will be. -/
def outcomes (log : List Event) : List Bytes := log.filterMap Event.outcome?

@[simp] theorem accepted_append (log evs : List Event) : accepted (log ++ evs) = accepted log ++ accepted evs :=
  List.filterMap_append

@[simp] theorem taken_append (log evs : List Event) : taken (log ++ evs) = taken log ++ taken evs := List.filterMap_append

@[simp] theorem sent_append (log evs : List Event) : sent (log ++ evs) = sent log ++ sent evs := List.filterMap_append

@[simp] theorem read_append (log evs : List Event) : read (log ++ evs) = read log ++ read evs := List.filterMap_append

@[simp] theorem binaries_append (log evs : List Event) : binaries (log ++ evs) = binaries log ++ binaries evs :=
  List.filterMap_append

@[simp] theorem pings_append (log evs : List Event) : pings (log ++ evs) = pings log ++ pings evs := List.filterMap_append

@[simp] theorem outcomes_append (log evs : List Event) : outcomes (log ++ evs) = outcomes log ++ outcomes evs :=
  List.filterMap_append

/-- The message that the task has taken and not sent. -/
def TaskPc.held : TaskPc → List Message
  | .sending msg => [msg]
  | _ => []

/-- Nothing is taken in after the end of the task. -/
def Open (pre : List Event) : Event → Prop
  | .accepted _ => .ended ∉ pre
  | _ => True

/-- The task and the channel before it. -/
structure Sends (log : List Event) (s : State) : Prop where
  carries : Mpsc.Carries (accepted log) (taken log) s.queue
  first : sent log <+: taken log
  held : s.task ≠ .ended → taken log = sent log ++ s.task.held
  opened : s.queue.rxDropped = decide (s.task = .ended)
  gone : .ended ∈ log → s.task = .ended
  /-- Without a failure the task comes to its end when all is sent. -/
  ended : s.task = .ended → .sinkFailed ∉ log → sent log = accepted log
  last : History.Each Open log

/-- The reader. -/
structure Receives (log : List Event) (s : State) : Prop where
  read : read log = binaries log
  pings : outcomes log ++ s.reader.pending = pings log

namespace Sends

theorem init : Sends [] machine.init := ⟨.init, List.prefix_rfl, fun _ => rfl, rfl, nofun, nofun, .nil⟩

/-- The task does nothing, and nothing comes into the channel. -/
theorem quiet (h : Sends log s) (hq : s'.queue = s.queue) (ht : s'.task = s.task)
    (he : ∀ e ∈ evs, e.accepted? = none ∧ e.taken? = none ∧ e.sent? = none ∧ e ≠ .sinkFailed ∧ e ≠ .ended) :
    Sends (log ++ evs) s' := by
  have ha : accepted evs = [] := List.filterMap_eq_nil_iff.2 fun e hm => (he e hm).1
  have hk : taken evs = [] := List.filterMap_eq_nil_iff.2 fun e hm => (he e hm).2.1
  have hs : sent evs = [] := List.filterMap_eq_nil_iff.2 fun e hm => (he e hm).2.2.1
  have hf : .sinkFailed ∈ log ++ evs ↔ .sinkFailed ∈ log :=
    List.mem_append.trans (or_iff_left fun hm => (he _ hm).2.2.2.1 rfl)
  have hend : .ended ∈ log ++ evs ↔ .ended ∈ log :=
    List.mem_append.trans (or_iff_left fun hm => (he _ hm).2.2.2.2 rfl)
  have hlast : History.Each Open (log ++ evs) := h.last.append_of_forall fun pre e hm => by
    have := (he e hm).1
    cases e with
    | accepted => cases this
    | _ => trivial
  refine ⟨?_, ?_, ?_, ?_, ?_, ?_, hlast⟩ <;>
    simp only [accepted_append, taken_append, sent_append, ha, hk, hs, List.append_nil, hq, ht, hf, hend]
  · exact h.carries
  · exact h.first
  · exact h.held
  · exact h.opened
  · exact h.gone
  · exact h.ended

theorem send (h : Sends log s) {msg : Message} {queue : Mpsc Message} (hs : s.queue.send channelSize msg = some (true, queue))
    (hq : s'.queue = queue) (ht : s'.task = s.task) : Sends (log ++ [.accepted msg]) s' := by
  have hopen : s.queue.rxDropped = false ∧ queue.rxDropped = false := by
    rcases Mpsc.send_cases hs with ⟨hf, -⟩ | ⟨-, hd, -, rfl⟩
    · cases hf
    · exact ⟨hd, rfl⟩
  have hne : s.task ≠ .ended := of_decide_eq_false (h.opened ▸ hopen.1)
  refine ⟨?_, ?_, ?_, ?_, ?_, ?_, History.each_append_singleton.2 ⟨h.last, fun hm => hne (h.gone hm)⟩⟩ <;>
    simp only [accepted_append, taken_append, sent_append, hq, ht]
  · simpa [accepted, taken, List.filterMap_cons] using h.carries.send hs
  · simpa [taken, sent, List.filterMap_cons] using h.first
  · simpa [taken, sent, List.filterMap_cons] using h.held
  · rw [hopen.2, ← h.opened, hopen.1]
  · exact fun hm => h.gone (by simpa using hm)
  · exact fun he => absurd he hne

theorem step (h : Sends log s) (hs : Step s act s' evs) : Sends (log ++ evs) s' := by
  cases hs with
  | accepted _ hs => exact h.send hs rfl rfl
  | refused => exact h.quiet rfl rfl (by simp)
  | taken ht hr =>
    rename_i msg queue
    obtain ⟨-, hd⟩ := Mpsc.recv_eq_some hr
    have hheld := h.held (by rw [ht]; exact nofun)
    rw [ht] at hheld
    refine ⟨?_, ?_, fun _ => ?_, ?_, ?_, nofun, History.each_append_singleton.2 ⟨h.last, trivial⟩⟩
    · simpa [WebSocket.accepted, WebSocket.taken, List.filterMap_cons] using h.carries.recv hr
    · rw [sent_append, taken_append]
      exact (List.append_nil (WebSocket.sent log)).symm ▸ h.first.trans (List.prefix_append _ _)
    · rw [taken_append, sent_append, hheld, List.append_assoc, List.append_assoc]
      rfl
    · rw [hd, h.opened, ht]
      rfl
    · intro hm
      have := h.gone (by simpa using hm)
      rw [ht] at this
      cases this
  | ended ht hr =>
    have hheld := h.held (by rw [ht]; exact nofun)
    rw [ht] at hheld
    have hopen : s.queue.rxDropped = false := by
      rw [h.opened, ht]
      rfl
    refine ⟨?_, ?_, fun hne => absurd rfl hne, rfl, fun _ => rfl, fun _ _ => ?_,
      History.each_append_singleton.2 ⟨h.last, trivial⟩⟩
    · simpa [WebSocket.accepted, WebSocket.taken, List.filterMap_cons] using h.carries.dropRx
    · simpa [WebSocket.taken, WebSocket.sent, List.filterMap_cons] using h.first
    · have hall := h.carries.all hopen hr
      rw [hheld] at hall
      simpa [WebSocket.accepted, WebSocket.sent, TaskPc.held, List.filterMap_cons] using hall
  | sent ht =>
    rename_i msg
    have hheld := h.held (by rw [ht]; exact nofun)
    rw [ht] at hheld
    have hall : WebSocket.taken (log ++ [.sent msg]) = WebSocket.sent (log ++ [.sent msg]) := by
      rw [taken_append, sent_append, hheld]
      exact List.append_nil _
    refine ⟨?_, ?_, fun _ => ?_, ?_, ?_, nofun, History.each_append_singleton.2 ⟨h.last, trivial⟩⟩
    · simpa [WebSocket.accepted, WebSocket.taken, List.filterMap_cons] using h.carries
    · exact hall ▸ List.prefix_rfl
    · rw [hall]
      exact (List.append_nil _).symm
    · rw [h.opened, ht]
      rfl
    · intro hm
      have := h.gone (by simpa using hm)
      rw [ht] at this
      cases this
  | flushed ht =>
    have hheld := h.held (by rw [ht]; exact nofun)
    rw [ht] at hheld
    rw [List.append_nil]
    refine ⟨h.carries, h.first, fun _ => hheld, ?_, fun hm => ?_, nofun, h.last⟩
    · rw [h.opened, ht]
      rfl
    · have := h.gone hm
      rw [ht] at this
      cases this
  | sinkFailed hne =>
    refine ⟨?_, ?_, fun hne => absurd rfl hne, rfl, fun _ => rfl, fun _ hn => absurd (by simp) hn,
      h.last.append_of_forall (by simp [Open])⟩
    · simpa [WebSocket.accepted, WebSocket.taken, List.filterMap_cons] using h.carries.dropRx
    · simpa [WebSocket.taken, WebSocket.sent, List.filterMap_cons] using h.first
  | read => exact h.quiet rfl rfl nofun
  | next _ hn => exact h.quiet rfl rfl (by cases hn <;> simp)
  | ponged _ hs => exact h.send hs rfl rfl
  | pongFailed => exact h.quiet rfl rfl (by simp)
  | dropped => exact h.quiet rfl rfl (by simp)
  | dropWriter => exact h.quiet rfl rfl nofun

theorem of_run (h : machine.Run log s) : Sends log s := by
  refine h.invariant (I := Sends) .init ?_
  rintro log s a s' evs - hi - ha
  exact hi.step (step_step ha)

end Sends

namespace Receives

/-- The reader does nothing. -/
theorem quiet (h : Receives log s) (hr : s'.reader = s.reader)
    (he : ∀ e ∈ evs, e.read? = none ∧ e.binary? = none ∧ e.outcome? = none ∧ e.ping? = none) : Receives (log ++ evs) s' := by
  have h₁ : WebSocket.read evs = [] := List.filterMap_eq_nil_iff.2 fun e hm => (he e hm).1
  have h₂ : binaries evs = [] := List.filterMap_eq_nil_iff.2 fun e hm => (he e hm).2.1
  have h₃ : outcomes evs = [] := List.filterMap_eq_nil_iff.2 fun e hm => (he e hm).2.2.1
  have h₄ : WebSocket.pings evs = [] := List.filterMap_eq_nil_iff.2 fun e hm => (he e hm).2.2.2
  refine ⟨?_, ?_⟩ <;>
    simp only [read_append, binaries_append, outcomes_append, pings_append, h₁, h₂, h₃, h₄, List.append_nil, hr]
  · exact h.read
  · exact h.pings

/-- The reader goes on, with what it gets and what becomes of the ping before. -/
theorem goes (h : Receives log s) (hr : WebSocket.read evs = binaries evs)
    (hp : outcomes evs ++ s'.reader.pending = s.reader.pending ++ WebSocket.pings evs) : Receives (log ++ evs) s' := by
  refine ⟨?_, ?_⟩
  · rw [read_append, binaries_append, h.read, hr]
  · rw [outcomes_append, pings_append, List.append_assoc, hp, ← List.append_assoc, h.pings]

theorem step (h : Receives log s) (hs : Step s act s' evs) : Receives (log ++ evs) s' := by
  cases hs with
  | accepted hm hs =>
    refine h.quiet rfl ?_
    rw [List.forall_mem_singleton]
    cases act with
    | write | close =>
      cases hm
      exact ⟨rfl, rfl, rfl, rfl⟩
    | _ => cases hm
  | refused | taken | ended | sent => exact h.quiet rfl (by simp)
  | flushed | dropWriter => exact h.quiet rfl nofun
  | sinkFailed => exact h.quiet rfl (by simp)
  | read hr => exact h.goes rfl (by rw [hr]; rfl)
  | next hr hn => cases hn <;> exact h.goes rfl (by rw [hr]; rfl)
  | ponged hr => exact h.goes rfl (by rw [hr]; rfl)
  | pongFailed hr => exact h.goes rfl (by rw [hr]; rfl)
  | dropped =>
    cases hr : s.reader with
    | ponging p => exact h.goes rfl (by rw [hr]; rfl)
    | _ => exact h.goes rfl (by rw [hr]; rfl)

theorem of_run (h : machine.Run log s) : Receives log s := by
  refine h.invariant (I := Receives) ⟨rfl, rfl⟩ ?_
  rintro log s a s' evs - hi - ha
  exact hi.step (step_step ha)

end Receives

/-! ### The messages on their way out -/

/-- What the task still has to do. -/
def TaskPc.rank : TaskPc → Nat
  | .ended => 0
  | .receiving => 1
  | .flushing => 2
  | .sending _ => 3

/-- All that was taken in is sent. -/
def Idle (s : State) : Prop := s.task = .ended ∨ s.task = .receiving ∧ s.queue.recv = none

/-- The steps of the task, as long as the sink does not fail. -/
def Action.ofTask : Action → Prop
  | .recv | .sent | .flushed => True
  | _ => False

def State.rank (s : State) : Nat := 3 * s.queue.items.length + s.task.rank

theorem step_rank (h : step s act = some (s', evs)) (ha : act.ofTask) : s'.rank < s.rank := by
  cases act with
  | recv =>
    simp only [step] at h
    split at h
    · rename_i ht hr
      cases h
      simp only [State.rank, ht, (Mpsc.recv_eq_some hr).1, List.length_cons, TaskPc.rank]
      omega
    · rename_i ht hr
      split at h
      · cases h
        simp only [State.rank, ht, Mpsc.dropRx, List.length_nil, TaskPc.rank]
        omega
      · cases h
    · cases h
  | sent =>
    simp only [step] at h
    split at h
    · rename_i ht
      cases h
      simp only [State.rank, ht, TaskPc.rank]
      omega
    · cases h
  | flushed =>
    simp only [step] at h
    split at h
    · rename_i ht
      cases h
      simp only [State.rank, ht, TaskPc.rank]
      omega
    · cases h
  | _ => cases ha

/-- While something is left to do, the task can do it. -/
theorem idle_of_stuck (h : ∀ act, act.ofTask → step s act = none) : Idle s := by
  cases ht : s.task with
  | ended => exact .inl ht
  | receiving =>
    refine .inr ⟨ht, ?_⟩
    have hrecv := h .recv trivial
    cases hr : s.queue.recv with
    | none => rfl
    | some r =>
      simp only [step, ht, hr] at hrecv
      cases hrecv
  | sending msg =>
    have hsent := h .sent trivial
    simp only [step, ht] at hsent
    cases hsent
  | flushing =>
    have hflushed := h .flushed trivial
    simp only [step, ht] at hflushed
    cases hflushed

theorem drains (s : State) : machine.Ends Action.ofTask Idle s :=
  .of_rank (I := fun _ => True) (μ := State.rank) (fun _ _ _ _ _ _ _ => trivial)
    (fun _ _ _ _ _ ha hs => step_rank hs ha) (fun _ _ hstuck => idle_of_stuck hstuck) trivial

/-- What a WebSocket does with the messages in its two directions. -/
structure Served (log : List Event) (s : State) : Prop where
  /-- No binary message is lost, wherever a `read` is dropped. -/
  read : read log = binaries log
  /-- The pings are answered in their order, or not at all. -/
  pings : outcomes log ++ s.reader.pending = pings log
  first : sent log <+: accepted log
  all : .sinkFailed ∉ log → Idle s → sent log = accepted log
  last : History.Each Open log
  drains : machine.Ends Action.ofTask Idle s

/-- In every run, whatever comes and wherever a `read` is dropped: the binary messages that came are those that `read`
returned; each ping is answered once or not at all, in their order; and what was taken in goes out in its order, all of it
unless the sink fails, in finitely many steps, and nothing is taken in that cannot go out. -/
theorem web_socket_serves (h : machine.Run log s) : Served log s where
  read := (Receives.of_run h).read
  pings := (Receives.of_run h).pings
  first := (Sends.of_run h).first.trans (Sends.of_run h).carries.first
  all hf hi := by
    have hsends := Sends.of_run h
    rcases hi with he | ⟨ht, hr⟩
    · exact hsends.ended he hf
    · have hheld := hsends.held (by rw [ht]; exact nofun)
      have hopen : s.queue.rxDropped = false := by
        rw [hsends.opened, ht]
        rfl
      rw [ht, hsends.carries.all hopen hr] at hheld
      rw [hheld]
      exact (List.append_nil _).symm
  last := (Sends.of_run h).last
  drains := drains s

instance (s : State) : Decidable (Idle s) := inferInstanceAs (Decidable (_ ∨ _))

/-- Two pings, of which the second gets no answer, since the `read` is dropped. -/
theorem web_socket_serves_two : ∃ log s, machine.Run log s ∧ Served log s ∧
    Idle s ∧ read log = [[1], [2]] ∧ sent log = [.binary [9], .pong [7]] := by
  obtain ⟨log, s, h, hr⟩ := Machine.Exec.exists_of_any (M := machine) (C := fun _ _ _ => True)
    [.read, .next (some (.ok (.binary [1]))), .read, .next (some (.ok (.ping [7]))), .write [9], .pong, .recv, .sent, .flushed,
      .next (some (.ok (.ping [8]))), .abandon, .recv, .sent, .flushed, .read, .next (some (.ok (.binary [2])))]
    (P := fun log s => Idle s ∧ read log = [[1], [2]] ∧ sent log = [.binary [9], .pong [7]]) (by decide +kernel)
  exact ⟨log, s, h, web_socket_serves h, hr⟩

end Iscp.WebSocket
