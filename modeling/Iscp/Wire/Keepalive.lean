import Iscp.Lib.Channel
import Iscp.Lib.Progress
import Iscp.Wire.ReadLoop

/-!
# Keepalive

The two ends of a connection, each with its `ping_pong_loop`, its write loop and the part of its read loop that
answers pings and hands over pongs. The request ids of the pings are those of all requests and start over at
`2 ^ 32`. Any task may return at any time, for whatever reason; what it had in its hands is lost then. Between
the ends the messages keep their order.
-/

namespace Iscp.Wire.Keepalive

open Message

inductive Side
  | near
  | far
deriving DecidableEq

def Side.other : Side → Side
  | near => far
  | far => near

structure Config where
  channelSize : Nat
  /-- How many messages can be on their way in one direction. -/
  linkSize : Nat
  requestIdCounter : Side → UInt32

inductive PingPc
  | sleeping
  /-- In `send_timeout`. -/
  | sending (requestId : UInt32)
  | waiting (requestId : UInt32)
  | returned
deriving DecidableEq

inductive WriterPc
  | selecting
  | writing (msg : MessageEnum)
  | returned
deriving DecidableEq

inductive ReaderPc
  | reading
  /-- Sending a pong to the write loop. -/
  | answering (requestId : UInt32)
  /-- Sending a pong to the ping loop. -/
  | forwarding (requestId : UInt32)
  /-- At work on another message. -/
  | handling (msg : MessageEnum)
  | returned
deriving DecidableEq

structure Party where
  requestIdCounter : UInt32
  ping : PingPc := .sleeping
  writer : WriterPc := .selecting
  reader : ReaderPc := .reading
  /-- `tx_write_message` -/
  queue : Mpsc MessageEnum := {}
  /-- Written, and not yet read at the other end. -/
  link : List MessageEnum := []
  /-- `tx_pong` -/
  pongs : Mpsc UInt32 := {}
deriving DecidableEq

abbrev State := Side → Party

def State.setParty (s : State) (x : Side) (p : Party) : State := Function.update s x p

def pingId? : MessageEnum → Option UInt32
  | .ping requestId => some requestId
  | _ => none

def pongId? : MessageEnum → Option UInt32
  | .pong requestId => some requestId
  | _ => none

inductive Action
  /-- Another task sends a message; none of them sends pings or pongs. -/
  | send (x : Side) (msg : MessageEnum)
  /-- Another request takes a request id. -/
  | takeRequestId (x : Side)
  /-- `ping_interval` is over. -/
  | wake (x : Side)
  | sendPing (x : Side)
  | recvPong (x : Side)
  | pingReturns (x : Side)
  | take (x : Side)
  | written (x : Side)
  | writerReturns (x : Side)
  | read (x : Side)
  | answer (x : Side)
  | forward (x : Side)
  | handled (x : Side)
  | readerReturns (x : Side)
deriving DecidableEq

inductive Event
  | pinged (x : Side) (requestId : UInt32)
  /-- A ping of the other side is answered. -/
  | answered (x : Side) (requestId : UInt32)
  /-- The ping loop takes a pong, and goes back to sleep. -/
  | ponged (x : Side) (requestId : UInt32)
  /-- The ping loop takes a pong, and waits for another one. -/
  | ignored (x : Side) (requestId : UInt32)
deriving DecidableEq

/-- The head of the read loop. -/
def ReaderPc.onMessage : MessageEnum → ReaderPc
  | .ping requestId => answering requestId
  | .pong requestId => forwarding requestId
  | .disconnect .. => returned
  | msg => handling msg

def step (c : Config) (s : State) : Action → Option (State × List Event)
  | .send x msg =>
    if (pingId? msg).isSome ∨ (pongId? msg).isSome then none
    else match (s x).queue.send c.channelSize msg with
      | some (_, queue) => some (s.setParty x { s x with queue := queue }, [])
      | none => none
  | .takeRequestId x =>
    some (s.setParty x { s x with requestIdCounter := (s x).requestIdCounter + 2 }, [])
  | .wake x =>
    match (s x).ping with
    | .sleeping =>
      let requestId := (s x).requestIdCounter
      some (s.setParty x { s x with ping := .sending requestId, requestIdCounter := requestId + 2 }, [])
    | _ => none
  | .sendPing x =>
    match (s x).ping with
    | .sending requestId =>
      match (s x).queue.send c.channelSize (.ping requestId) with
      | some (true, queue) =>
        some (s.setParty x { s x with ping := .waiting requestId, queue := queue }, [.pinged x requestId])
      | some (false, _) => some (s.setParty x { s x with ping := .returned, pongs := (s x).pongs.dropRx }, [])
      | none => none
    | _ => none
  | .recvPong x =>
    match (s x).ping, (s x).pongs.recv with
    | .waiting requestId, some (pong, pongs) =>
      if requestId ≤ pong then some (s.setParty x { s x with ping := .sleeping, pongs := pongs }, [.ponged x pong])
      else some (s.setParty x { s x with pongs := pongs }, [.ignored x pong])
    | _, _ => none
  | .pingReturns x => some (s.setParty x { s x with ping := .returned, pongs := (s x).pongs.dropRx }, [])
  | .take x =>
    match (s x).writer, (s x).queue.recv with
    | .selecting, some (msg, queue) => some (s.setParty x { s x with writer := .writing msg, queue := queue }, [])
    | _, _ => none
  | .written x =>
    match (s x).writer with
    | .writing msg =>
      if (s x).link.length < c.linkSize then
        some (s.setParty x { s x with writer := .selecting, link := (s x).link ++ [msg] }, [])
      else none
    | _ => none
  | .writerReturns x => some (s.setParty x { s x with writer := .returned, queue := (s x).queue.dropRx }, [])
  | .read x =>
    match (s x).reader, (s x.other).link with
    | .reading, msg :: link =>
      some ((s.setParty x { s x with reader := .onMessage msg }).setParty x.other { s x.other with link := link }, [])
    | _, _ => none
  | .answer x =>
    match (s x).reader with
    | .answering requestId =>
      match (s x).queue.send c.channelSize (.pong requestId) with
      | some (true, queue) => some (s.setParty x { s x with reader := .reading, queue := queue }, [.answered x requestId])
      | some (false, _) => some (s.setParty x { s x with reader := .returned }, [])
      | none => none
    | _ => none
  | .forward x =>
    match (s x).reader with
    | .forwarding requestId =>
      match (s x).pongs.send c.channelSize requestId with
      | some (true, pongs) => some (s.setParty x { s x with reader := .reading, pongs := pongs }, [])
      | some (false, _) => some (s.setParty x { s x with reader := .returned }, [])
      | none => none
    | _ => none
  | .handled x =>
    match (s x).reader with
    | .handling _ => some (s.setParty x { s x with reader := .reading }, [])
    | _ => none
  | .readerReturns x => some (s.setParty x { s x with reader := .returned }, [])

def machine (c : Config) : Machine State Action Event where
  init x := { requestIdCounter := c.requestIdCounter x }
  log₀ := []
  step := step c

/-- What a step does. -/
inductive Step (c : Config) (s : State) : Action → State → List Event → Prop
  | sent {x : Side} {msg : MessageEnum} {queue : Mpsc MessageEnum} : pingId? msg = none → pongId? msg = none →
      (s x).queue.send c.channelSize msg = some (true, queue) →
      Step c s (.send x msg) (s.setParty x { s x with queue := queue }) []
  | refused {x : Side} {msg : MessageEnum} : Step c s (.send x msg) s []
  | takeRequestId {x : Side} : Step c s (.takeRequestId x)
      (s.setParty x { s x with requestIdCounter := (s x).requestIdCounter + 2 }) []
  | wake {x : Side} : (s x).ping = .sleeping → Step c s (.wake x)
      (s.setParty x { s x with
        ping := .sending (s x).requestIdCounter, requestIdCounter := (s x).requestIdCounter + 2 }) []
  | pinged {x : Side} {requestId : UInt32} {queue : Mpsc MessageEnum} : (s x).ping = .sending requestId →
      (s x).queue.send c.channelSize (.ping requestId) = some (true, queue) →
      Step c s (.sendPing x) (s.setParty x { s x with ping := .waiting requestId, queue := queue }) [.pinged x requestId]
  | pingReturned {x : Side} {act : Action} :
      (act = .pingReturns x ∨ ∃ requestId, (s x).ping = .sending requestId) →
      Step c s act (s.setParty x { s x with ping := .returned, pongs := (s x).pongs.dropRx }) []
  | ponged {x : Side} {requestId pong : UInt32} {pongs : Mpsc UInt32} : (s x).ping = .waiting requestId →
      (s x).pongs.recv = some (pong, pongs) → requestId ≤ pong →
      Step c s (.recvPong x) (s.setParty x { s x with ping := .sleeping, pongs := pongs }) [.ponged x pong]
  | ignored {x : Side} {requestId pong : UInt32} {pongs : Mpsc UInt32} : (s x).ping = .waiting requestId →
      (s x).pongs.recv = some (pong, pongs) → ¬requestId ≤ pong →
      Step c s (.recvPong x) (s.setParty x { s x with pongs := pongs }) [.ignored x pong]
  | taken {x : Side} {msg : MessageEnum} {queue : Mpsc MessageEnum} : (s x).writer = .selecting →
      (s x).queue.recv = some (msg, queue) →
      Step c s (.take x) (s.setParty x { s x with writer := .writing msg, queue := queue }) []
  | written {x : Side} {msg : MessageEnum} : (s x).writer = .writing msg → (s x).link.length < c.linkSize →
      Step c s (.written x) (s.setParty x { s x with writer := .selecting, link := (s x).link ++ [msg] }) []
  | writerReturned {x : Side} : Step c s (.writerReturns x)
      (s.setParty x { s x with writer := .returned, queue := (s x).queue.dropRx }) []
  | read {x : Side} {msg : MessageEnum} {link : List MessageEnum} : (s x).reader = .reading →
      (s x.other).link = msg :: link →
      Step c s (.read x)
        ((s.setParty x { s x with reader := .onMessage msg }).setParty x.other { s x.other with link := link }) []
  | answered {x : Side} {requestId : UInt32} {queue : Mpsc MessageEnum} : (s x).reader = .answering requestId →
      (s x).queue.send c.channelSize (.pong requestId) = some (true, queue) →
      Step c s (.answer x) (s.setParty x { s x with reader := .reading, queue := queue }) [.answered x requestId]
  | forwarded {x : Side} {requestId : UInt32} {pongs : Mpsc UInt32} : (s x).reader = .forwarding requestId →
      (s x).pongs.send c.channelSize requestId = some (true, pongs) →
      Step c s (.forward x) (s.setParty x { s x with reader := .reading, pongs := pongs }) []
  | handled {x : Side} {msg : MessageEnum} : (s x).reader = .handling msg →
      Step c s (.handled x) (s.setParty x { s x with reader := .reading }) []
  | readerReturned {x : Side} {act : Action} :
      (act = .readerReturns x ∨ ∃ requestId, (s x).reader = .answering requestId ∨ (s x).reader = .forwarding requestId) →
      Step c s act (s.setParty x { s x with reader := .returned }) []

variable {c : Config} {s s' : State} {act : Action} {evs log : List Event}

theorem setParty_self (s : State) (x : Side) : s.setParty x (s x) = s := Function.update_eq_self x s

theorem step_step (h : step c s act = some (s', evs)) : Step c s act s' evs := by
  cases act with
  | send x msg =>
    simp only [step] at h
    split at h
    · cases h
    · rename_i hk
      simp only [not_or, Option.not_isSome_iff_eq_none] at hk
      split at h
      · rename_i ok queue hq
        cases h
        cases ok with
        | true => exact .sent hk.1 hk.2 hq
        | false =>
          rcases Mpsc.send_cases hq with ⟨-, -, rfl⟩ | ⟨hf, -⟩
          · rw [setParty_self]
            exact .refused
          · cases hf
      · cases h
  | sendPing x =>
    simp only [step] at h
    split at h
    · rename_i requestId hp
      split at h
      · rename_i queue hq
        cases h
        exact .pinged hp hq
      · rename_i queue hq
        cases h
        exact .pingReturned (.inr ⟨requestId, hp⟩)
      · cases h
    · cases h
  | recvPong x =>
    simp only [step] at h
    split at h
    · rename_i hp hr
      split at h
      · cases h
        exact .ponged hp hr ‹_›
      · cases h
        exact .ignored hp hr ‹_›
    · cases h
  | take x =>
    simp only [step] at h
    split at h
    · cases h
      exact .taken ‹_› ‹_›
    · cases h
  | written x =>
    simp only [step] at h
    split at h
    · split at h
      · cases h
        exact .written ‹_› ‹_›
      · cases h
    · cases h
  | read x =>
    simp only [step] at h
    split at h
    · cases h
      exact .read ‹_› ‹_›
    · cases h
  | answer x =>
    simp only [step] at h
    split at h
    · rename_i requestId hr
      split at h
      · cases h
        exact .answered hr ‹_›
      · cases h
        exact .readerReturned (.inr ⟨requestId, .inl hr⟩)
      · cases h
    · cases h
  | forward x =>
    simp only [step] at h
    split at h
    · rename_i requestId hr
      split at h
      · cases h
        exact .forwarded hr ‹_›
      · cases h
        exact .readerReturned (.inr ⟨requestId, .inr hr⟩)
      · cases h
    · cases h
  | handled x =>
    simp only [step] at h
    split at h
    · cases h
      exact .handled ‹_›
    · cases h
  | wake x =>
    simp only [step] at h
    split at h
    · cases h
      exact .wake ‹_›
    · cases h
  | takeRequestId x =>
    cases h
    exact .takeRequestId
  | pingReturns x =>
    cases h
    exact .pingReturned (.inl rfl)
  | writerReturns x =>
    cases h
    exact .writerReturned
  | readerReturns x =>
    cases h
    exact .readerReturned (.inl rfl)

/-! ### What is on its way -/

def WriterPc.msgs : WriterPc → List MessageEnum
  | writing msg => [msg]
  | _ => []

def ReaderPc.asked : ReaderPc → List UInt32
  | answering requestId => [requestId]
  | _ => []

def ReaderPc.told : ReaderPc → List UInt32
  | forwarding requestId => [requestId]
  | _ => []

/-- What is to be read at the other end, the oldest first. -/
def Party.outgoing (p : Party) : List MessageEnum := p.link ++ p.writer.msgs ++ p.queue.items

/-- The pongs that have come back to the party. -/
def Party.told (p : Party) : List UInt32 := p.pongs.items ++ p.reader.told

/-- The pings of `x` that are not yet answered. -/
def State.asked (s : State) (x : Side) : List UInt32 :=
  (s x.other).reader.asked ++ (s x).outgoing.filterMap pingId?

/-- The answers to pings of `x` that are not yet taken. -/
def State.told (s : State) (x : Side) : List UInt32 := (s x).told ++ (s x.other).outgoing.filterMap pongId?

def Party.Runs (p : Party) : Prop := p.ping ≠ .returned ∧ p.writer ≠ .returned ∧ p.reader ≠ .returned

def State.Runs (s : State) : Prop := ∀ x, (s x).Runs

def pinged (x : Side) (log : List Event) : List UInt32 :=
  log.filterMap fun
    | .pinged y requestId => if y = x then some requestId else none
    | _ => none

def answered (x : Side) (log : List Event) : List UInt32 :=
  log.filterMap fun
    | .answered y requestId => if y = x then some requestId else none
    | _ => none

def ponged (x : Side) (log : List Event) : List UInt32 :=
  log.filterMap fun
    | .ponged y requestId => if y = x then some requestId else none
    | _ => none

/-- The pongs that the ping loop of `x` takes are those of its pings. -/
structure Matched (log : List Event) (s : State) (x : Side) : Prop where
  answered : answered x.other log <+: pinged x log
  ponged : ponged x log <+: Keepalive.answered x.other log
  one : (pinged x log).length ≤ (Keepalive.ponged x log).length + 1
  ignored : ∀ requestId, .ignored x requestId ∉ log
  sleeping : (s x).ping = .sleeping → Keepalive.ponged x log = pinged x log
  /-- The read loop does not have to wait for the ping loop. -/
  forwarding : ∀ requestId, (s x).reader = .forwarding requestId →
    (s x).pongs.items = [] ∧ ((s x).ping = .waiting requestId ∨ (s x).ping = .returned)

section

variable {x y : Side} {p : Party} {untaken unanswered : List UInt32}

@[simp] theorem Side.other_other (x : Side) : x.other.other = x := by cases x <;> rfl

@[simp] theorem Side.other_ne (x : Side) : x.other ≠ x := by cases x <;> exact nofun

@[simp] theorem Side.ne_other (x : Side) : x ≠ x.other := x.other_ne.symm

theorem Side.eq_or_other (x y : Side) : x = y ∨ x = y.other := by cases x <;> cases y <;> decide

@[simp] theorem setParty_same : s.setParty x p x = p := Function.update_self ..

@[simp] theorem setParty_other : s.setParty x p x.other = s x.other := Function.update_of_ne x.other_ne ..

@[simp] theorem setParty_of_other : s.setParty x.other p x = s x := Function.update_of_ne x.ne_other ..

@[simp] theorem pinged_append (x : Side) (log evs : List Event) : pinged x (log ++ evs) = pinged x log ++ pinged x evs :=
  List.filterMap_append

@[simp] theorem answered_append (x : Side) (log evs : List Event) :
    answered x (log ++ evs) = answered x log ++ answered x evs := List.filterMap_append

@[simp] theorem ponged_append (x : Side) (log evs : List Event) : ponged x (log ++ evs) = ponged x log ++ ponged x evs :=
  List.filterMap_append

theorem asked_onMessage (msg : MessageEnum) : (ReaderPc.onMessage msg).asked = (pingId? msg).toList := by
  cases msg <;> rfl

theorem told_onMessage (msg : MessageEnum) : (ReaderPc.onMessage msg).told = (pongId? msg).toList := by
  cases msg <;> rfl

/-- What there can be of pings and pongs, by where the ping loop stands. -/
def PingPc.Outstanding : PingPc → List UInt32 → Prop
  | .sleeping, ids | .sending _, ids => ids = []
  | .waiting requestId, ids => ids = [requestId]
  | .returned, ids => ids.length ≤ 1

theorem PingPc.Outstanding.length_le {pc : PingPc} {ids : List UInt32} (h : pc.Outstanding ids) : ids.length ≤ 1 := by
  cases pc with
  | returned => exact h
  | sleeping | sending | waiting =>
    rw [show ids = _ from h]
    simp

/-- The keepalive of one side: what is on its way is what was sent and not yet taken, as long as no task has returned. -/
structure SideInv (log : List Event) (s : State) (x : Side) (untaken unanswered : List UInt32) : Prop where
  pinged : pinged x log = answered x.other log ++ unanswered
  answered : Keepalive.answered x.other log = ponged x log ++ untaken
  asked : (s.asked x).Sublist unanswered
  told : (s.told x).Sublist untaken
  whole : s.Runs → s.asked x = unanswered ∧ s.told x = untaken
  ping : (s x).ping.Outstanding (untaken ++ unanswered)

structure Inv (log : List Event) (s : State) : Prop where
  sides : ∀ x, ∃ untaken unanswered, SideInv log s x untaken unanswered
  ignored : ∀ x requestId, .ignored x requestId ∉ log

/-- Nothing of the keepalive is added, and without a task that returns nothing is lost. -/
structure PartyFrame (p p' : Party) : Prop where
  pings : (p'.outgoing.filterMap pingId?).Sublist (p.outgoing.filterMap pingId?)
  pongs : (p'.outgoing.filterMap pongId?).Sublist (p.outgoing.filterMap pongId?)
  asked : p'.reader.asked.Sublist p.reader.asked
  told : p'.told.Sublist p.told
  whole : p'.Runs → p.Runs ∧ p'.outgoing.filterMap pingId? = p.outgoing.filterMap pingId? ∧
    p'.outgoing.filterMap pongId? = p.outgoing.filterMap pongId? ∧ p'.reader.asked = p.reader.asked ∧ p'.told = p.told
  ping : ∀ ids, p.ping.Outstanding ids → p'.ping.Outstanding ids

structure Frame (s s' : State) (x : Side) : Prop where
  asked : (s'.asked x).Sublist (s.asked x)
  told : (s'.told x).Sublist (s.told x)
  whole : s'.Runs → s.Runs ∧ s'.asked x = s.asked x ∧ s'.told x = s.told x
  ping : ∀ ids, (s x).ping.Outstanding ids → (s' x).ping.Outstanding ids

theorem PartyFrame.frame (h : PartyFrame (s x) p) (y : Side) : Frame s (s.setParty x p) y := by
  have hruns (hr : (s.setParty x p).Runs) : p.Runs ∧ s.Runs := by
    have hp : p.Runs := by simpa using hr x
    refine ⟨hp, fun z => ?_⟩
    rcases z.eq_or_other x with rfl | rfl
    · exact (h.whole hp).1
    · simpa using hr x.other
  rcases y.eq_or_other x with rfl | rfl
  · refine ⟨?_, ?_, fun hr => ?_, by simpa using h.ping⟩
    · simpa [State.asked] using h.pings
    · simpa [State.told] using h.told
    · obtain ⟨-, hpings, -, -, htold⟩ := h.whole (hruns hr).1
      exact ⟨(hruns hr).2, by simp [State.asked, hpings], by simp [State.told, htold]⟩
  · refine ⟨?_, ?_, fun hr => ?_, by simp⟩
    · simpa [State.asked] using h.asked
    · simpa [State.told] using h.pongs
    · obtain ⟨-, -, hpongs, hasked, -⟩ := h.whole (hruns hr).1
      exact ⟨(hruns hr).2, by simp [State.asked, hasked], by simp [State.told, hpongs]⟩

theorem runs_of_setParty (hp : p.Runs → (s x).Runs) (h : (s.setParty x p).Runs) : s.Runs := fun z => by
  rcases z.eq_or_other x with rfl | rfl
  · exact hp (by simpa using h z)
  · simpa using h x.other

theorem Frame.of_eq (hr : s'.Runs → s.Runs) (ha : s'.asked x = s.asked x) (ht : s'.told x = s.told x)
    (hp : ∀ ids, (s x).ping.Outstanding ids → (s' x).ping.Outstanding ids) : Frame s s' x :=
  ⟨by rw [ha], by rw [ht], fun h => ⟨hr h, ha, ht⟩, hp⟩

namespace SideInv

theorem frame (h : SideInv log s x untaken unanswered) (hf : Frame s s' x) :
    SideInv log s' x untaken unanswered := by
  refine ⟨h.pinged, h.answered, hf.asked.trans h.asked, hf.told.trans h.told, fun hr => ?_, hf.ping _ h.ping⟩
  obtain ⟨hs, hasked, htold⟩ := hf.whole hr
  rw [hasked, htold]
  exact h.whole hs

/-- Events of the other side. -/
theorem quiet (h : SideInv log s x untaken unanswered) (hpinged : Keepalive.pinged x evs = [])
    (hanswered : Keepalive.answered x.other evs = []) (hponged : ponged x evs = []) (hf : Frame s s' x) :
    SideInv (log ++ evs) s' x untaken unanswered := by
  have h := h.frame hf
  refine ⟨?_, ?_, h.asked, h.told, h.whole, h.ping⟩
  · rw [pinged_append, answered_append, hpinged, hanswered, List.append_nil, List.append_nil]
    exact h.pinged
  · rw [answered_append, ponged_append, hanswered, hponged, List.append_nil, List.append_nil]
    exact h.answered

end SideInv

theorem PartyFrame.of_eq {p p' : Party} (ho : p'.outgoing = p.outgoing) (ha : p'.reader.asked = p.reader.asked)
    (ht : p'.told = p.told) (hr : p'.Runs → p.Runs)
    (hp : ∀ ids, p.ping.Outstanding ids → p'.ping.Outstanding ids) : PartyFrame p p' :=
  ⟨by rw [ho], by rw [ho], by rw [ha], by rw [ht], fun h => ⟨hr h, by rw [ho], by rw [ho], ha, ht⟩, hp⟩

/-- The steps that add nothing to the keepalive of either side. -/
theorem Step.frame (h : Step c s act s' evs) (hq : evs = []) (y : Side) : Frame s s' y := by
  cases h with
  | pinged | ponged | ignored | answered => cases hq
  | refused => exact ⟨.refl _, .refl _, fun hr => ⟨hr, rfl, rfl⟩, fun _ h => h⟩
  | sent hping hpong hs =>
    rename_i x msg queue
    obtain ⟨hf, -⟩ | ⟨-, -, -, rfl⟩ := Mpsc.send_cases hs
    · cases hf
    refine PartyFrame.frame ?_ y
    have hout : Party.outgoing { s x with queue := ⟨(s x).queue.items ++ [msg], false⟩ } = (s x).outgoing ++ [msg] := by
      simp [Party.outgoing]
    have hpings : ((s x).outgoing ++ [msg]).filterMap pingId? = (s x).outgoing.filterMap pingId? := by simp [hping]
    have hpongs : ((s x).outgoing ++ [msg]).filterMap pongId? = (s x).outgoing.filterMap pongId? := by simp [hpong]
    exact ⟨by rw [hout, hpings], by rw [hout, hpongs], .refl _, .refl _,
      fun hr => ⟨hr, by rw [hout, hpings], by rw [hout, hpongs], rfl, rfl⟩, fun _ h => h⟩
  | takeRequestId =>
    refine PartyFrame.frame ?_ y
    exact .of_eq rfl rfl rfl id fun _ h => h
  | wake hp =>
    refine PartyFrame.frame ?_ y
    refine .of_eq rfl rfl rfl (fun hr => ⟨by rw [hp]; exact nofun, hr.2⟩) fun ids h => ?_
    rw [hp] at h
    exact h
  | pingReturned =>
    refine PartyFrame.frame ?_ y
    refine ⟨.refl _, .refl _, .refl _, ?_, fun hr => absurd rfl hr.1, fun ids h => h.length_le⟩
    simp [Party.told, Mpsc.dropRx]
  | taken hw hr =>
    have hi := (Mpsc.recv_eq_some hr).1
    refine PartyFrame.frame ?_ y
    refine .of_eq ?_ rfl rfl (fun hr => ⟨hr.1, by rw [hw]; exact nofun, hr.2.2⟩) fun _ h => h
    simp [Party.outgoing, WriterPc.msgs, hw, hi]
  | written hw =>
    refine PartyFrame.frame ?_ y
    refine .of_eq ?_ rfl rfl (fun hr => ⟨hr.1, by rw [hw]; exact nofun, hr.2.2⟩) fun _ h => h
    simp [Party.outgoing, WriterPc.msgs, hw]
  | writerReturned =>
    rename_i x
    have hout : (Party.outgoing { s x with writer := .returned, queue := (s x).queue.dropRx }).Sublist (s x).outgoing := by
      simp [Party.outgoing, WriterPc.msgs, Mpsc.dropRx]
    refine PartyFrame.frame ?_ y
    exact ⟨hout.filterMap _, hout.filterMap _, .refl _, .refl _, fun hr => absurd rfl hr.2.1, fun _ h => h⟩
  | forwarded hr hs =>
    rename_i x requestId pongs
    obtain ⟨hf, -⟩ | ⟨-, -, -, rfl⟩ := Mpsc.send_cases hs
    · cases hf
    refine PartyFrame.frame ?_ y
    refine .of_eq rfl (by rw [hr]; rfl) ?_ (fun h => ⟨h.1, h.2.1, by rw [hr]; exact nofun⟩) fun _ h => h
    simp [Party.told, ReaderPc.told, hr]
  | handled hr =>
    refine PartyFrame.frame ?_ y
    refine .of_eq rfl (by rw [hr]; rfl) ?_ (fun h => ⟨h.1, h.2.1, by rw [hr]; exact nofun⟩) fun _ h => h
    simp [Party.told, ReaderPc.told, hr]
  | readerReturned =>
    refine PartyFrame.frame ?_ y
    refine ⟨.refl _, .refl _, List.nil_sublist _, ?_, fun hr => absurd rfl hr.2.2, fun _ h => h⟩
    simp [Party.told, ReaderPc.told]
  | read hr hl =>
    rename_i x msg link
    have hruns (h : (State.setParty (s.setParty x { s x with reader := .onMessage msg }) x.other
        { s x.other with link := link }).Runs) : s.Runs := by
      intro z
      rcases z.eq_or_other x with rfl | rfl
      · have := h z
        rw [setParty_of_other, setParty_same] at this
        exact ⟨this.1, this.2.1, by rw [hr]; exact nofun⟩
      · have := h x.other
        rw [setParty_same] at this
        exact this
    have hout : (s x.other).outgoing = msg :: Party.outgoing { s x.other with link := link } := by
      simp [Party.outgoing, hl]
    have hcons (f : MessageEnum → Option UInt32) (l : List MessageEnum) :
        (msg :: l).filterMap f = (f msg).toList ++ l.filterMap f := by
      cases hf : f msg with
      | none => rw [List.filterMap_cons_none hf]; rfl
      | some id => rw [List.filterMap_cons_some hf]; rfl
    rcases y.eq_or_other x with rfl | rfl
    · have hasked : State.asked (State.setParty (s.setParty y { s y with reader := .onMessage msg }) y.other
          { s y.other with link := link }) y = s.asked y := by
        rw [State.asked, State.asked, setParty_same, setParty_of_other, setParty_same]
        rfl
      have htold : State.told (State.setParty (s.setParty y { s y with reader := .onMessage msg }) y.other
          { s y.other with link := link }) y = s.told y := by
        rw [State.told, State.told, setParty_same, setParty_of_other, setParty_same, hout, hcons]
        show ((s y).pongs.items ++ (ReaderPc.onMessage msg).told) ++ _ = ((s y).pongs.items ++ (s y).reader.told) ++ _
        rw [hr, told_onMessage]
        simp [ReaderPc.told]
      exact ⟨by rw [hasked], by rw [htold], fun h => ⟨hruns h, hasked, htold⟩, by simp⟩
    · have hasked : State.asked (State.setParty (s.setParty x { s x with reader := .onMessage msg }) x.other
          { s x.other with link := link }) x.other = s.asked x.other := by
        rw [State.asked, State.asked, Side.other_other, setParty_of_other, setParty_same, setParty_same, hout, hcons, hr,
          asked_onMessage]
        rfl
      have htold : State.told (State.setParty (s.setParty x { s x with reader := .onMessage msg }) x.other
          { s x.other with link := link }) x.other = s.told x.other := by
        rw [State.told, State.told, Side.other_other, setParty_of_other, setParty_same, setParty_same]
        rfl
      exact ⟨by rw [hasked], by rw [htold], fun h => ⟨hruns h, hasked, htold⟩, by simp⟩

namespace Inv

theorem init (c : Config) : Inv [] (machine c).init :=
  ⟨fun _ => ⟨[], [], ⟨rfl, rfl, .refl _, .refl _, fun _ => ⟨rfl, rfl⟩, rfl⟩⟩, by simp⟩

theorem quiet (h : Inv log s) (hf : ∀ y, Frame s s' y) : Inv log s' := by
  refine ⟨fun y => ?_, h.ignored⟩
  obtain ⟨untaken, unanswered, hy⟩ := h.sides y
  exact ⟨untaken, unanswered, hy.frame (hf y)⟩

/-- A pong that has come back is the one the ping loop waits for. -/
theorem awaited (h : Inv log s) {n : UInt32} (ht : n ∈ (s x).told) :
    SideInv log s x [n] [] ∧ ((s x).ping = .waiting n ∨ (s x).ping = .returned) := by
  obtain ⟨untaken, unanswered, hx⟩ := h.sides x
  have hmem : n ∈ untaken := hx.told.subset (List.mem_append_left _ ht)
  have hlen := hx.ping.length_le
  rw [List.length_append] at hlen
  have hpos := List.length_pos_of_mem hmem
  obtain ⟨id, rfl⟩ : ∃ id, untaken = [id] := List.length_eq_one_iff.1 (by omega)
  obtain rfl : unanswered = [] := List.length_eq_zero_iff.1 (by rw [List.length_singleton] at hlen; omega)
  obtain rfl := List.mem_singleton.1 hmem
  refine ⟨hx, ?_⟩
  have hp := hx.ping
  cases hpc : (s x).ping with
  | sleeping | sending =>
    rw [hpc] at hp
    cases hp
  | waiting id =>
    rw [hpc] at hp
    cases hp
    exact .inl rfl
  | returned => exact .inr rfl

theorem setSides (h : Inv log s) (hi : ∀ y requestId, .ignored y requestId ∉ evs) (hother : Frame s s' x.other)
    (hev : pinged x.other evs = [] ∧ answered x evs = [] ∧ ponged x.other evs = [])
    (hx : ∃ untaken unanswered, SideInv (log ++ evs) s' x untaken unanswered) : Inv (log ++ evs) s' := by
  obtain ⟨hpinged, hanswered, hponged⟩ := hev
  refine ⟨fun y => ?_, fun y requestId hm => ?_⟩
  · rcases y.eq_or_other x with rfl | rfl
    · exact hx
    · obtain ⟨untaken, unanswered, hy⟩ := h.sides x.other
      exact ⟨untaken, unanswered, hy.quiet hpinged (by rwa [Side.other_other]) hponged hother⟩
  · rcases List.mem_append.1 hm with hm | hm
    · exact h.ignored y requestId hm
    · exact hi y requestId hm

theorem pinged (h : Inv log s) {requestId : UInt32} {queue : Mpsc MessageEnum} (hp : (s x).ping = .sending requestId)
    (hs : (s x).queue.send c.channelSize (.ping requestId) = some (true, queue)) :
    Inv (log ++ [.pinged x requestId]) (s.setParty x { s x with ping := .waiting requestId, queue := queue }) := by
  obtain ⟨hf, -⟩ | ⟨-, -, -, rfl⟩ := Mpsc.send_cases hs
  · cases hf
  have hout : Party.outgoing { s x with ping := .waiting requestId, queue := ⟨(s x).queue.items ++ [.ping requestId], false⟩ } =
      (s x).outgoing ++ [.ping requestId] := by
    simp [Party.outgoing]
  have hruns := runs_of_setParty (s := s) (x := x) (p := { s x with
    ping := .waiting requestId, queue := ⟨(s x).queue.items ++ [.ping requestId], false⟩ })
    fun hr => ⟨by rw [hp]; exact nofun, hr.2⟩
  refine h.setSides (x := x) (by simp) (.of_eq hruns ?_ ?_ (by simp)) (by simp [Keepalive.pinged, answered, ponged]) ⟨[], [requestId], ?_⟩
  · simp [State.asked]
  · simp [State.told, hout, pongId?]
  · obtain ⟨untaken, unanswered, hx⟩ := h.sides x
    have hnil := hx.ping
    rw [hp] at hnil
    obtain ⟨rfl, rfl⟩ := List.append_eq_nil_iff.1 hnil
    have hasked : State.asked (s.setParty x { s x with
        ping := .waiting requestId, queue := ⟨(s x).queue.items ++ [.ping requestId], false⟩ }) x = s.asked x ++ [requestId] := by
      simp [State.asked, hout, pingId?]
    have htold : State.told (s.setParty x { s x with
        ping := .waiting requestId, queue := ⟨(s x).queue.items ++ [.ping requestId], false⟩ }) x = s.told x := by
      simp [State.told, Party.told]
    refine ⟨?_, ?_, ?_, ?_, fun hr => ?_, by rw [setParty_same]; rfl⟩
    · rw [pinged_append, answered_append, hx.pinged]
      simp [Keepalive.pinged, answered]
    · rw [answered_append, ponged_append, hx.answered]
      simp [answered, ponged]
    · rw [hasked]
      exact hx.asked.append (.refl [requestId])
    · rw [htold]
      exact hx.told
    · obtain ⟨ha, ht⟩ := hx.whole (hruns hr)
      exact ⟨by rw [hasked, ha]; rfl, by rw [htold, ht]⟩

theorem answered (h : Inv log s) {requestId : UInt32} {queue : Mpsc MessageEnum} (hr : (s x).reader = .answering requestId)
    (hs : (s x).queue.send c.channelSize (.pong requestId) = some (true, queue)) :
    Inv (log ++ [.answered x requestId]) (s.setParty x { s x with reader := .reading, queue := queue }) := by
  obtain ⟨hf, -⟩ | ⟨-, -, -, rfl⟩ := Mpsc.send_cases hs
  · cases hf
  have hout : Party.outgoing { s x with reader := .reading, queue := ⟨(s x).queue.items ++ [.pong requestId], false⟩ } =
      (s x).outgoing ++ [.pong requestId] := by
    simp [Party.outgoing]
  have hruns := runs_of_setParty (s := s) (x := x) (p := { s x with
    reader := .reading, queue := ⟨(s x).queue.items ++ [.pong requestId], false⟩ })
    fun hp => ⟨hp.1, hp.2.1, by rw [hr]; exact nofun⟩
  have hx : Frame s (s.setParty x { s x with
      reader := .reading, queue := ⟨(s x).queue.items ++ [.pong requestId], false⟩ }) x := by
    refine .of_eq hruns ?_ ?_ (by simp)
    · simp [State.asked, hout, pingId?]
    · simp [State.told, Party.told, ReaderPc.told, hr]
  obtain ⟨y, rfl⟩ : ∃ y : Side, x = y.other := ⟨x.other, x.other_other.symm⟩
  refine h.setSides (x := y) (by simp) hx (by simp [Keepalive.pinged, Keepalive.answered, ponged]) ⟨[requestId], [], ?_⟩
  obtain ⟨untaken, unanswered, hy⟩ := h.sides y
  have hasked : s.asked y = requestId :: State.asked (s.setParty y.other { s y.other with
      reader := .reading, queue := ⟨(s y.other).queue.items ++ [.pong requestId], false⟩ }) y := by
    simp [State.asked, hr, ReaderPc.asked]
  have htold : State.told (s.setParty y.other { s y.other with
      reader := .reading, queue := ⟨(s y.other).queue.items ++ [.pong requestId], false⟩ }) y = s.told y ++ [requestId] := by
    simp [State.told, hout, pongId?]
  have hmem : requestId ∈ unanswered := hy.asked.subset (by rw [hasked]; exact List.mem_cons_self)
  have hlen := hy.ping.length_le
  rw [List.length_append] at hlen
  have hpos := List.length_pos_of_mem hmem
  obtain ⟨id, rfl⟩ : ∃ id, unanswered = [id] := List.length_eq_one_iff.1 (by omega)
  obtain rfl : untaken = [] := List.length_eq_zero_iff.1 (by rw [List.length_singleton] at hlen; omega)
  obtain rfl := List.mem_singleton.1 hmem
  refine ⟨?_, ?_, ?_, ?_, fun hs => ?_, by simpa using hy.ping⟩
  · rw [pinged_append, answered_append, hy.pinged]
    simp [Keepalive.pinged, Keepalive.answered]
  · rw [answered_append, ponged_append, hy.answered]
    simp [Keepalive.answered, ponged]
  · have := hy.asked
    rw [hasked] at this
    exact (List.cons_sublist_cons.1 this)
  · rw [htold]
    exact hy.told.append (.refl [requestId])
  · obtain ⟨ha, ht⟩ := hy.whole (hruns hs)
    rw [hasked] at ha
    exact ⟨(List.cons.inj ha).2, by rw [htold, ht]; rfl⟩

theorem ponged (h : Inv log s) {requestId pong : UInt32} {pongs : Mpsc UInt32} (hp : (s x).ping = .waiting requestId)
    (hr : (s x).pongs.recv = some (pong, pongs)) :
    Inv (log ++ [.ponged x pong]) (s.setParty x { s x with ping := .sleeping, pongs := pongs }) := by
  have hi := (Mpsc.recv_eq_some hr).1
  have hruns := runs_of_setParty (s := s) (x := x) (p := { s x with ping := .sleeping, pongs := pongs })
    fun hr => ⟨by rw [hp]; exact nofun, hr.2⟩
  refine h.setSides (x := x) (by simp) (.of_eq hruns ?_ ?_ (by simp)) (by simp [Keepalive.pinged, Keepalive.answered, Keepalive.ponged])
    ⟨[], [], ?_⟩
  · simp [State.asked]
  · simp [State.told, Party.outgoing]
  · obtain ⟨hx, -⟩ := h.awaited (x := x) (n := pong) (by simp [Party.told, hi])
    have hasked : State.asked (s.setParty x { s x with ping := .sleeping, pongs := pongs }) x = s.asked x := by
      simp [State.asked, Party.outgoing]
    have htold : s.told x = pong :: State.told (s.setParty x { s x with ping := .sleeping, pongs := pongs }) x := by
      simp [State.told, Party.told, hi]
    refine ⟨?_, ?_, ?_, ?_, fun hs => ?_, by rw [setParty_same]; rfl⟩
    · rw [pinged_append, answered_append, hx.pinged]
      simp [Keepalive.pinged, Keepalive.answered]
    · rw [answered_append, ponged_append, hx.answered]
      simp [Keepalive.answered, Keepalive.ponged]
    · rw [hasked]
      exact hx.asked
    · have := hx.told
      rw [htold] at this
      exact List.cons_sublist_cons.1 this
    · obtain ⟨ha, ht⟩ := hx.whole (hruns hs)
      rw [htold] at ht
      exact ⟨by rw [hasked, ha], (List.cons.inj ht).2⟩

theorem step (h : Inv log s) (hs : Step c s act s' evs) : Inv (log ++ evs) s' := by
  by_cases hq : evs = []
  · rw [hq, List.append_nil]
    exact h.quiet fun y => hs.frame hq y
  · cases hs with
    | pinged hp hs => exact h.pinged hp hs
    | answered hr hs => exact h.answered hr hs
    | ponged hp hr => exact h.ponged hp hr
    | ignored hp hr hlt =>
      rename_i x requestId pong pongs
      have hi := (Mpsc.recv_eq_some hr).1
      obtain ⟨-, hw | hw⟩ := h.awaited (x := x) (n := pong) (by simp [Party.told, hi])
      · rw [hp] at hw
        cases hw
        exact absurd (UInt32.le_refl _) hlt
      · rw [hp] at hw
        cases hw
    | _ => exact absurd rfl hq

theorem of_run (h : (machine c).Run log s) : Inv log s := by
  refine h.invariant (I := Inv) (.init c) ?_
  rintro log s a s' evs - hi - ha
  exact hi.step (step_step ha)

theorem matched (h : Inv log s) (x : Side) : Matched log s x := by
  obtain ⟨untaken, unanswered, hx⟩ := h.sides x
  have hlen := hx.ping.length_le
  have hall : Keepalive.pinged x log = Keepalive.ponged x log ++ (untaken ++ unanswered) := by
    rw [hx.pinged, hx.answered, List.append_assoc]
  refine ⟨⟨_, hx.pinged.symm⟩, ⟨_, hx.answered.symm⟩, ?_, h.ignored x, fun hp => ?_, fun requestId hr => ?_⟩
  · rw [hall, List.length_append]
    omega
  · have hnil := hx.ping
    rw [hp] at hnil
    rw [hall, show untaken ++ unanswered = [] from hnil, List.append_nil]
  · obtain ⟨hx, hw⟩ := h.awaited (x := x) (n := requestId) (by simp [Party.told, hr, ReaderPc.told])
    refine ⟨?_, hw⟩
    have hsub := hx.told.length_le
    rw [State.told, Party.told, hr] at hsub
    simp only [ReaderPc.told, List.length_append, List.length_singleton] at hsub
    exact List.length_eq_zero_iff.1 (by omega)

end Inv

end

/-- Over any interleaving of the two ends, also when the request ids start over: every pong that a ping loop takes is
the one for the ping it has just sent, and none is left over for a later one. -/
theorem pongs_match (h : (machine c).Run log s) (x : Side) : Matched log s x := (Inv.of_run h).matched x

/-- A ping of either side, and a request between them; the ids start over. -/
theorem pongs_match_both : ∃ log s, (machine ⟨1, 1, fun _ => 0xfffffffe⟩).Run log s ∧ (∀ x, Matched log s x) ∧
    log = [.pinged .near 0xfffffffe, .answered .far 0xfffffffe, .pinged .far 0, .answered .near 0,
      .ponged .near 0xfffffffe, .ponged .far 0] := by
  obtain ⟨log, s, h, hl⟩ := Machine.Exec.exists_of_any (M := machine ⟨1, 1, fun _ => 0xfffffffe⟩) (C := fun _ _ _ => True)
    [.takeRequestId .far, .wake .near, .sendPing .near, .take .near, .written .near, .read .far, .answer .far, .take .far,
      .wake .far, .sendPing .far, .written .far, .read .near, .forward .near, .take .far, .written .far, .read .near,
      .answer .near, .recvPong .near, .take .near, .written .near, .read .far, .forward .far, .recvPong .far]
    (P := fun log _ => log = [.pinged .near 0xfffffffe, .answered .far 0xfffffffe, .pinged .far 0, .answered .near 0,
      .ponged .near 0xfffffffe, .ponged .far 0]) (by decide +kernel)
  exact ⟨log, s, h, pongs_match h, hl⟩

/-! ### That the pings are answered -/

/-- What the tasks do of themselves, without a new message or request. -/
def Action.internal : Action → Bool
  | sendPing _ | recvPong _ | take _ | written _ | read _ | answer _ | forward _ | handled _ => true
  | send .. | takeRequestId _ | wake _ | pingReturns _ | writerReturns _ | readerReturns _ => false

/-- Nothing is on its way. -/
structure Quiet (s : State) (x : Side) : Prop where
  ping : (s x).ping = .sleeping
  outgoing : (s x).outgoing = []
  reader : (s x).reader = .reading
  pongs : (s x).pongs.items = []

/-- The read loop waits for the write loop, and the write loop for the other end. -/
structure Blocked (c : Config) (s : State) (x : Side) : Prop where
  reader : ∃ requestId, (s x).reader = .answering requestId
  queue : c.channelSize ≤ (s x).queue.items.length
  link : c.linkSize ≤ (s x).link.length

/-- Unless a task has returned, all pings are answered, or both ends wait for each other. -/
def Settled (c : Config) (s : State) : Prop := s.Runs → (∀ x, Quiet s x) ∨ ∀ x, Blocked c s x

def msgRank : MessageEnum → Nat
  | .ping _ => 7
  | .pong _ => 3
  | _ => 2

def WriterPc.rank : WriterPc → Nat
  | writing msg => msgRank msg + 1
  | _ => 0

def ReaderPc.rank : ReaderPc → Nat
  | answering _ => 6
  | forwarding _ => 2
  | handling _ => 1
  | _ => 0

def PingPc.rank : PingPc → Nat
  | sending _ => 10
  | _ => 0

/-- The messages that have `k` more steps before them each. -/
def msgsRank (k : Nat) : List MessageEnum → Nat
  | [] => 0
  | msg :: msgs => msgRank msg + k + msgsRank k msgs

theorem msgsRank_append (k : Nat) (msgs msgs' : List MessageEnum) :
    msgsRank k (msgs ++ msgs') = msgsRank k msgs + msgsRank k msgs' := by
  induction msgs with
  | nil => exact (Nat.zero_add _).symm
  | cons msg msgs ih =>
    rw [List.cons_append, msgsRank, msgsRank, ih]
    omega

def Party.rank (p : Party) : Nat :=
  p.ping.rank + p.writer.rank + p.reader.rank + msgsRank 2 p.queue.items + msgsRank 0 p.link + p.pongs.items.length

def State.rank (s : State) : Nat := (s .near).rank + (s .far).rank

theorem State.rank_eq (s : State) (x : Side) : s.rank = (s x).rank + (s x.other).rank := by
  cases x with
  | near => rfl
  | far => exact Nat.add_comm _ _

theorem State.rank_setParty {x : Side} {p : Party} (h : p.rank < (s x).rank) : (s.setParty x p).rank < s.rank := by
  rw [rank_eq _ x, rank_eq s x, setParty_same, setParty_other]
  omega

theorem rank_onMessage (msg : MessageEnum) : (ReaderPc.onMessage msg).rank < msgRank msg := by
  cases msg <;> simp only [ReaderPc.onMessage, ReaderPc.rank, msgRank] <;> omega

theorem Step.rank_lt (h : Step c s act s' evs) (ha : act.internal) : s'.rank < s.rank := by
  cases h with
  | sent | refused | takeRequestId | wake | writerReturned => cases ha
  | pinged hp hs =>
    obtain ⟨hf, -⟩ | ⟨-, -, -, rfl⟩ := Mpsc.send_cases hs
    · cases hf
    refine State.rank_setParty ?_
    simp only [Party.rank, hp, PingPc.rank, msgRank, msgsRank_append, msgsRank]
    omega
  | pingReturned hact =>
    rcases hact with rfl | ⟨requestId, hp⟩
    · cases ha
    · refine State.rank_setParty ?_
      simp only [Party.rank, hp, PingPc.rank, Mpsc.dropRx, List.length_nil]
      omega
  | ponged hp hr =>
    have hi := (Mpsc.recv_eq_some hr).1
    refine State.rank_setParty ?_
    simp only [Party.rank, hp, hi, PingPc.rank, List.length_cons]
    omega
  | ignored _ hr =>
    have hi := (Mpsc.recv_eq_some hr).1
    refine State.rank_setParty ?_
    simp only [Party.rank, hi, List.length_cons]
    omega
  | taken hw hr =>
    have hi := (Mpsc.recv_eq_some hr).1
    refine State.rank_setParty ?_
    simp only [Party.rank, hw, hi, WriterPc.rank, msgsRank]
    omega
  | written hw =>
    refine State.rank_setParty ?_
    simp only [Party.rank, hw, WriterPc.rank, msgsRank_append, msgsRank]
    omega
  | read hr hl =>
    rename_i x msg link
    have hlt := rank_onMessage msg
    rw [State.rank_eq _ x, State.rank_eq s x, setParty_of_other, setParty_same, setParty_same]
    simp only [Party.rank, hr, hl, msgsRank, show ReaderPc.reading.rank = 0 from rfl]
    omega
  | answered hr hs =>
    obtain ⟨hf, -⟩ | ⟨-, -, -, rfl⟩ := Mpsc.send_cases hs
    · cases hf
    refine State.rank_setParty ?_
    simp only [Party.rank, hr, ReaderPc.rank, msgRank, msgsRank_append, msgsRank]
    omega
  | forwarded hr hs =>
    obtain ⟨hf, -⟩ | ⟨-, -, -, rfl⟩ := Mpsc.send_cases hs
    · cases hf
    refine State.rank_setParty ?_
    simp only [Party.rank, hr, ReaderPc.rank, List.length_append, List.length_singleton]
    omega
  | handled hr =>
    refine State.rank_setParty ?_
    simp only [Party.rank, hr, ReaderPc.rank]
    omega
  | readerReturned hact =>
    rcases hact with rfl | ⟨requestId, hr | hr⟩
    · cases ha
    all_goals
      refine State.rank_setParty ?_
      simp only [Party.rank, hr, ReaderPc.rank]
      omega

section

variable {x : Side}

/-- Where nothing more can be done by the tasks of `x`. -/
structure Stuck (c : Config) (s : State) (x : Side) : Prop where
  sending : ∀ requestId, (s x).ping = .sending requestId → c.channelSize ≤ (s x).queue.items.length
  waiting : ∀ requestId, (s x).ping = .waiting requestId → (s x).pongs.items = []
  queue : (s x).writer = .selecting → (s x).queue.items = []
  link : ∀ msg, (s x).writer = .writing msg → c.linkSize ≤ (s x).link.length
  reading : (s x).reader = .reading → (s x.other).link = []
  answering : ∀ requestId, (s x).reader = .answering requestId → c.channelSize ≤ (s x).queue.items.length
  forwarding : ∀ requestId, (s x).reader = .forwarding requestId → c.channelSize ≤ (s x).pongs.items.length
  handling : ∀ msg, (s x).reader ≠ .handling msg

theorem stuck_of_none (h : ∀ act : Action, act.internal → step c s act = none) (x : Side) : Stuck c s x := by
  refine ⟨fun requestId hp => ?_, fun requestId hp => ?_, fun hw => ?_, fun msg hw => ?_, fun hr => ?_, fun requestId hr => ?_,
    fun requestId hr => ?_, fun msg hr => ?_⟩
  · have hs := h (.sendPing x) rfl
    simp only [step, hp] at hs
    split at hs
    · cases hs
    · cases hs
    · exact Mpsc.send_eq_none ‹_›
  · have hs := h (.recvPong x) rfl
    cases hi : (s x).pongs.items with
    | nil => rfl
    | cons pong items =>
      simp only [step, hp, Mpsc.recv, hi] at hs
      split at hs <;> cases hs
  · have hs := h (.take x) rfl
    cases hi : (s x).queue.items with
    | nil => rfl
    | cons msg items =>
      simp only [step, hw, Mpsc.recv, hi] at hs
      cases hs
  · have hs := h (.written x) rfl
    simp only [step, hw] at hs
    split at hs
    · cases hs
    · omega
  · have hs := h (.read x) rfl
    cases hl : (s x.other).link with
    | nil => rfl
    | cons msg link =>
      simp only [step, hr, hl] at hs
      cases hs
  · have hs := h (.answer x) rfl
    simp only [step, hr] at hs
    split at hs
    · cases hs
    · cases hs
    · exact Mpsc.send_eq_none ‹_›
  · have hs := h (.forward x) rfl
    simp only [step, hr] at hs
    split at hs
    · cases hs
    · cases hs
    · exact Mpsc.send_eq_none ‹_›
  · have hs := h (.handled x) rfl
    simp only [step, hr] at hs
    cases hs

/-- A read loop at its head has read all. -/
theorem Stuck.outgoing (hl : 0 < c.linkSize) (h : ∀ x, Stuck c s x) (hruns : s.Runs) (hr : (s x).reader = .reading) :
    (s x.other).outgoing = [] ∧ (s x.other).queue.items = [] := by
  have hlink := (h x).reading hr
  cases hw : (s x.other).writer with
  | selecting =>
    have hq := (h x.other).queue hw
    exact ⟨by rw [Party.outgoing, hlink, hq, hw]; rfl, hq⟩
  | writing msg =>
    have := (h x.other).link msg hw
    rw [hlink] at this
    simp at this
    omega
  | returned => exact absurd hw (hruns x.other).2.1

theorem Stuck.not_forwarding (hq : 0 < c.channelSize) (h : Stuck c s x) (hinv : Inv log s) (requestId : UInt32) :
    (s x).reader ≠ .forwarding requestId := by
  intro hr
  have hfull := h.forwarding requestId hr
  rw [((hinv.matched x).forwarding requestId hr).1, List.length_nil] at hfull
  omega

theorem quiet_of_stuck (hq : 0 < c.channelSize) (h : Stuck c s x) (hinv : Inv log s) (hruns : s.Runs)
    (hr : (s x).reader = .reading) (hother : (s x.other).reader = .reading) (ho : (s x).outgoing = [])
    (hqueue : (s x).queue.items = []) (hout : (s x.other).outgoing = []) : Quiet s x := by
  have hpongs : (s x).pongs.items = [] := by
    cases hi : (s x).pongs.items with
    | nil => rfl
    | cons pong pongs =>
      obtain ⟨-, hw | hw⟩ := hinv.awaited (x := x) (n := pong) (by simp [Party.told, hi])
      · rw [h.waiting pong hw] at hi
        cases hi
      · exact absurd hw (hruns x).1
  refine ⟨?_, ho, hr, hpongs⟩
  cases hp : (s x).ping with
  | sleeping => rfl
  | sending requestId =>
    have hfull := h.sending requestId hp
    rw [hqueue, List.length_nil] at hfull
    omega
  | waiting requestId =>
    obtain ⟨untaken, unanswered, hx⟩ := hinv.sides x
    obtain ⟨hasked, htold⟩ := hx.whole hruns
    have hids := hx.ping
    rw [hp, ← hasked, ← htold, State.asked, State.told, Party.told, hother, hr, ho, hout, hpongs] at hids
    cases hids
  | returned => exact absurd hp (hruns x).1

theorem blocked_of_stuck (hq : 0 < c.channelSize) (h : Stuck c s x) (hinv : Inv log s) (hruns : s.Runs)
    (hr : (s x).reader ≠ .reading) : Blocked c s x := by
  cases hpc : (s x).reader with
  | reading => exact absurd hpc hr
  | answering requestId =>
    have hfull := h.answering requestId hpc
    refine ⟨⟨requestId, hpc⟩, hfull, ?_⟩
    cases hw : (s x).writer with
    | selecting =>
      rw [h.queue hw, List.length_nil] at hfull
      omega
    | writing msg => exact h.link msg hw
    | returned => exact absurd hw (hruns x).2.1
  | forwarding requestId => exact absurd hpc (h.not_forwarding hq hinv requestId)
  | handling msg => exact absurd hpc (h.handling msg)
  | returned => exact absurd hpc (hruns x).2.2

/-- One read loop at its head is enough for both ends to come to rest. -/
theorem reading_of_stuck (hq : 0 < c.channelSize) (hl : 0 < c.linkSize) (h : ∀ x, Stuck c s x) (hinv : Inv log s)
    (hruns : s.Runs) (hr : (s x).reader = .reading) : (s x.other).reader = .reading := by
  by_contra hother
  have hfull := (blocked_of_stuck hq (h x.other) hinv hruns hother).queue
  rw [(Stuck.outgoing hl h hruns hr).2, List.length_nil] at hfull
  omega

theorem settled_of_stuck (hq : 0 < c.channelSize) (hl : 0 < c.linkSize) (hinv : Inv log s) (h : ∀ x, Stuck c s x) :
    Settled c s := by
  intro hruns
  by_cases hr : ∃ x, (s x).reader = .reading
  · obtain ⟨x, hx⟩ := hr
    have hreading (y : Side) : (s y).reader = .reading := by
      rcases y.eq_or_other x with rfl | rfl
      · exact hx
      · exact reading_of_stuck hq hl h hinv hruns hx
    have hout (y : Side) : (s y).outgoing = [] ∧ (s y).queue.items = [] := by
      have := Stuck.outgoing hl h hruns (hreading y.other)
      rwa [Side.other_other] at this
    exact .inl fun y => quiet_of_stuck hq (h y) hinv hruns (hreading y) (hreading y.other) (hout y).1 (hout y).2 (hout y.other).1
  · exact .inr fun y => blocked_of_stuck hq (h y) hinv hruns fun hy => hr ⟨y, hy⟩

end

/-- The way to where both ends wait for each other. -/
def jam : List Action :=
  [.wake .near, .sendPing .near, .take .near, .written .near, .read .far,
    .wake .far, .sendPing .far, .take .far, .written .far, .read .near] ++
  [Side.near, .far].flatMap fun x =>
    [.send x (.other none), .take x, .written x, .send x (.other none), .take x, .send x (.other none)]

instance (x : Side) : Decidable (Blocked c s x) :=
  match h : (s x).reader with
  | .answering requestId =>
    decidable_of_iff (c.channelSize ≤ (s x).queue.items.length ∧ c.linkSize ≤ (s x).link.length)
      ⟨fun hb => ⟨⟨requestId, h⟩, hb.1, hb.2⟩, fun hb => ⟨hb.queue, hb.link⟩⟩
  | .reading | .forwarding _ | .handling _ | .returned => .isFalse fun hb => by
    obtain ⟨requestId, hr⟩ := hb.reader
    rw [h] at hr
    cases hr

end Iscp.Wire.Keepalive
