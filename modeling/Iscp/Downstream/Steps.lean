import Iscp.Downstream.Model

/-!
# What the steps of a downstream do

`LoopStep` has one case for each thing the loop does with what it has recorded, what it holds and what it
has to acknowledge; everything else it does is `quiet`. `AppStep` has one for each thing a call of the
application does. As for the upstream, the invariants are derived from these cases.
-/

namespace Iscp.Downstream

variable {o : Opened} {s s' : State} {evs : List Event}

def LoopPc.over : LoopPc → Bool
  | .returned _ | .guardDropped _ | .exited => true
  | _ => false

namespace LoopPc

def ack? : LoopPc → Option Message.DownstreamChunkAck
  | .sendingAck ack | .sendingLastAck ack => some ack
  | _ => none

def iter? : LoopPc → Option DownReordererIter
  | .emitting it | .sending _ it | .drainEmitting it => some it
  | _ => none

def chunk? : LoopPc → Option DownstreamChunk
  | .sending chunk _ => some chunk
  | _ => none

/-- Whether the loop has an ack, an iterator or a chunk in its hands. -/
def idle (loop : LoopPc) : Prop := loop.ack? = none ∧ loop.iter? = none ∧ loop.chunk? = none

/-- Whether the loop has left the resume loop with a registration, and not ended since. -/
def connected : LoopPc → Bool
  | .resuming | .returned _ | .guardDropped _ | .exited => false
  | _ => true

theorem over_of_connected {loop : LoopPc} (h : loop.connected) : loop.over = false := by
  cases loop <;> first | rfl | cases h

end LoopPc

/-- The events about chunks and their acks. -/
def Event.chunks : Event → Prop
  | .resume _ | .recorded _ _ | .delivered _ | .dropped _ | .ackSent _ _ | .ackFailed _ _ => True
  | _ => False

/-- The parts of the state that a quiet step leaves alone. -/
structure Core where
  wire : WireConns
  resume : Resume
  state : DownstreamState
  reorderer : DownReorderer
  chunks : List DownstreamChunk
  chunkReaderDropped : Bool

def State.core (s : State) : Core :=
  ⟨s.wire, s.resume, s.state, s.reorderer, s.chunks, s.chunkReaderDropped⟩

theorem core_eq (h : s'.core = s.core) : s'.wire = s.wire ∧ s'.resume = s.resume ∧ s'.state = s.state ∧
    s'.reorderer = s.reorderer ∧ s'.chunks = s.chunks ∧ s'.chunkReaderDropped = s.chunkReaderDropped := by
  simpa [State.core] using h

inductive LoopStep (o : Opened) (s : State) : LoopAction → State → List Event → Prop
  | quiet {a} {s' : State} {evs : List Event} : s'.core = s.core → (∀ e ∈ evs, ¬ e.chunks) → s.loop.idle → s'.loop.idle →
      (s'.loop.connected → s.loop.connected ∨ s.resume.pc = .registered) →
      (s.loop.over → s'.loop.over) → LoopStep o s a s' evs
  | converted {a rxMsg chunk state it reorderer loop} : s.loop.idle → s.loop.connected →
      s.state.Converts (.ok (some chunk)) state → s.reorderer.iter chunk = (.ok it, reorderer) →
      loop = .emitting it ∨ loop = .drainEmitting it → LoopStep o s a
      { s with rxMsg := rxMsg, state := state, reorderer := reorderer, loop := loop }
      [.recorded chunk.upstream.streamId chunk.sequenceNumber]
  | refused {a rxMsg chunk state e reorderer} : s.loop.idle → s.loop.connected →
      s.state.Converts (.ok (some chunk)) state → s.reorderer.iter chunk = (.error e, reorderer) →
      LoopStep o s a
      { s with rxMsg := rxMsg, state := state, reorderer := reorderer, loop := .returned (.error e) }
      [.recorded chunk.upstream.streamId chunk.sequenceNumber]
  | ackTaken {a ack state loop} : s.loop.idle → s.loop.connected →
      s.state.TakesAck s.resume.streamIdAlias ack state →
      loop = .sendingAck ack ∨ loop = .sendingLastAck ack →
      LoopStep o s a { s with state := state, loop := loop } []
  | ackSent {a ack loop} : s.loop.ack? = some ack → s.loop.connected → loop.idle → loop.connected →
      LoopStep o s a { s with loop := loop } [.ackSent s.resume.wireConn ack]
  | ackFailed {a ack loop} : s.loop.ack? = some ack → s.loop.connected → loop.idle → loop.connected →
      LoopStep o s a { s with loop := loop } [.ackFailed s.resume.wireConn ack]
  | next {a it it' chunk reorderer} : s.loop = .emitting it →
      s.reorderer.iterNext it = (some chunk, it', reorderer) →
      LoopStep o s a { s with reorderer := reorderer, loop := .sending chunk it' } []
  | nextNone {a it it' reorderer loop} : s.loop = .emitting it ∨ s.loop = .drainEmitting it →
      s.reorderer.iterNext it = (none, it', reorderer) → loop.idle → loop.connected →
      LoopStep o s a { s with reorderer := reorderer, loop := loop } []
  | sent {a chunk it} : s.loop = .sending chunk it → s.chunks.length < o.channelSize →
      LoopStep o s a { s with chunks := s.chunks ++ [chunk], loop := .emitting it } [.delivered chunk]
  | readerGone {a chunk it} : s.loop = .sending chunk it → s.chunkReaderDropped →
      LoopStep o s a { s with ct := true, loop := .reading } []
  | drainSent {a it it' chunk reorderer} : s.loop = .drainEmitting it →
      s.reorderer.iterNext it = (some chunk, it', reorderer) → s.chunks.length < o.channelSize →
      LoopStep o s a
      { s with reorderer := reorderer, chunks := s.chunks ++ [chunk], loop := .drainEmitting it' }
      [.delivered chunk]
  | drainDropped {it it' chunk reorderer} : s.loop = .drainEmitting it →
      s.reorderer.iterNext it = (some chunk, it', reorderer) →
      ¬ (s.chunks.length < o.channelSize ∧ !s.chunkReaderDropped) →
      LoopStep o s .drainNext { s with reorderer := reorderer, loop := .drainEmitting it' } [.dropped chunk]
  | restart {a} : s.loop = .connEnd → LoopStep o s a
      { s with resume := s.resume.restart s.resume.seen, loop := .resuming } []

theorem quiet_at {a : LoopAction} {loop : LoopPc} (hl : s.loop = loop) (hs : s'.core = s.core)
    (he : ∀ e ∈ evs, ¬ e.chunks) (hi : loop.idle) (hi' : s'.loop.idle)
    (hc : loop.connected ∨ s'.loop.over) : LoopStep o s a s' evs := by
  subst hl
  rcases hc with hc | hc
  · refine .quiet hs he hi hi' (fun _ => .inl hc) fun ho => ?_
    cases hl : s.loop <;> simp [hl, LoopPc.connected, LoopPc.over] at hc ho
  · refine .quiet hs he hi hi' (fun hc' => ?_) fun _ => hc
    cases hl : s'.loop <;> simp [hl, LoopPc.connected, LoopPc.over] at hc hc'

theorem onChunk_step {a : LoopAction} {rxMsg : List ReceivableDownstreamMsg} {chunk : Message.DownstreamChunk} {skip : LoopPc}
    {emit : DownReordererIter → LoopPc} (hidle : s.loop.idle) (hcon : s.loop.connected)
    (hskip : skip.idle) (hemit : ∀ it, emit it = .emitting it ∨ emit it = .drainEmitting it)
    (h : { s with rxMsg := rxMsg }.onChunk o.config chunk skip emit = (s', evs)) : LoopStep o s a s' evs := by
  unfold State.onChunk at h
  dsimp only at h
  split at h
  · rename_i c state hc
    have hconv := DownstreamState.convertDownstreamChunk_converts hc
    split at h <;> rename_i hit <;> obtain ⟨rfl, rfl⟩ := Prod.mk.inj h
    · exact .converted hidle hcon hconv hit (hemit _)
    · exact .refused hidle hcon hconv hit
  · rename_i r state hno hc
    have hconv := DownstreamState.convertDownstreamChunk_converts hc
    obtain ⟨rfl, rfl⟩ := Prod.mk.inj h
    cases hconv with
    | error | empty => exact quiet_at rfl rfl (by simp) hidle hskip (.inl hcon)
    | chunk => exact (hno _ rfl).elim
  · obtain ⟨rfl, rfl⟩ := Prod.mk.inj h
    exact quiet_at rfl rfl (by simp) hidle ⟨rfl, rfl, rfl⟩ (.inl hcon)

@[simp] theorem core_sendResult (r : Except Error Unit) : (s.sendResult r).core = s.core := by
  unfold State.sendResult
  split <;> rfl

theorem loopStep_step {a : LoopAction} (h : loopStep o s a = some (s', evs)) : LoopStep o s a s' evs := by
  cases a with
  | joined =>
    simp only [loopStep] at h
    split at h
    all_goals cases h
    · rename_i hl hp
      exact .quiet rfl (by simp) (by rw [hl]; exact ⟨rfl, rfl, rfl⟩) ⟨rfl, rfl, rfl⟩ (fun _ => .inr hp)
        (by simp [hl, LoopPc.over])
    all_goals
      rename_i hl _
      exact quiet_at hl rfl (by simp) ⟨rfl, rfl, rfl⟩ ⟨rfl, rfl, rfl⟩ (.inr rfl)
  | recv =>
    simp only [loopStep] at h
    split at h
    · rename_i msg rxMsg hl _
      cases msg with
      | chunk chunk =>
        exact onChunk_step (by rw [hl]; exact ⟨rfl, rfl, rfl⟩) (by rw [hl]; rfl) ⟨rfl, rfl, rfl⟩
          (fun _ => .inl rfl) (Option.some.inj h)
      | metadata metadata =>
        simp only [State.onMsg] at h
        split at h <;> cases h <;>
          exact quiet_at hl rfl (by simp) ⟨rfl, rfl, rfl⟩
            (by first | exact ⟨rfl, rfl, rfl⟩ | (simp only [hl]; exact ⟨rfl, rfl, rfl⟩)) (.inl rfl)
      | chunkAckComplete complete =>
        cases h
        exact quiet_at hl rfl (by simp) ⟨rfl, rfl, rfl⟩
          (by simp only [State.checkChunkAckComplete, hl]; exact ⟨rfl, rfl, rfl⟩) (.inl rfl)
    · rename_i hl _
      split at h <;> cases h
      exact quiet_at hl rfl (by simp) ⟨rfl, rfl, rfl⟩ ⟨rfl, rfl, rfl⟩ (.inl rfl)
    · cases h
  | cancelled =>
    simp only [loopStep] at h
    split at h
    · rename_i hl
      split at h <;> cases h
      exact quiet_at hl rfl (by simp) ⟨rfl, rfl, rfl⟩ ⟨rfl, rfl, rfl⟩ (.inl rfl)
    · cases h
  | ackInterval =>
    simp only [loopStep] at h
    split at h <;> cases h
    · rename_i hl ht
      exact .ackTaken (by rw [hl]; exact ⟨rfl, rfl, rfl⟩) (by rw [hl]; rfl)
        (DownstreamState.takeAck_eq_some ht) (.inl rfl)
    · rename_i hl ht
      obtain rfl := DownstreamState.takeAck_eq_none ht
      exact quiet_at hl rfl (by simp) ⟨rfl, rfl, rfl⟩ (by simp only [hl]; exact ⟨rfl, rfl, rfl⟩) (.inl rfl)
  | next =>
    simp only [loopStep] at h
    split at h
    · rename_i hl
      split at h <;> rename_i hit <;> cases h
      · exact .next hl hit
      · exact .nextNone (.inl hl) hit ⟨rfl, rfl, rfl⟩ rfl
    · cases h
  | sent =>
    simp only [loopStep] at h
    split at h
    · rename_i hl
      split at h
      · rename_i hgone
        cases h
        exact .readerGone hl hgone
      · split at h <;> cases h
        rename_i hroom
        exact .sent hl hroom
    · cases h
  | metadataSent =>
    simp only [loopStep] at h
    split at h
    · rename_i hl
      split at h
      · cases h
        exact quiet_at hl rfl (by simp) ⟨rfl, rfl, rfl⟩ ⟨rfl, rfl, rfl⟩ (.inl rfl)
      · split at h <;> cases h
        exact quiet_at hl rfl (by simp [Event.chunks]) ⟨rfl, rfl, rfl⟩ ⟨rfl, rfl, rfl⟩
          (.inl rfl)
    · cases h
  | wireSent result =>
    simp only [loopStep] at h
    split at h
    all_goals cases h
    · rename_i hl
      exact quiet_at hl rfl (by simp [Event.chunks]) ⟨rfl, rfl, rfl⟩ ⟨rfl, rfl, rfl⟩ (.inl rfl)
    · rename_i hl
      exact quiet_at hl rfl (by simp [Event.chunks]) ⟨rfl, rfl, rfl⟩ ⟨rfl, rfl, rfl⟩ (.inl rfl)
    · rename_i hl
      exact .ackSent (by rw [hl]; rfl) (by rw [hl]; rfl) ⟨rfl, rfl, rfl⟩ rfl
    · rename_i hl
      exact .ackFailed (by rw [hl]; rfl) (by rw [hl]; rfl) ⟨rfl, rfl, rfl⟩ rfl
    · rename_i hl
      exact quiet_at hl rfl (by simp [Event.chunks]) ⟨rfl, rfl, rfl⟩ ⟨rfl, rfl, rfl⟩ (.inl rfl)
    · rename_i hl
      exact quiet_at hl rfl (by simp [Event.chunks]) ⟨rfl, rfl, rfl⟩ ⟨rfl, rfl, rfl⟩ (.inl rfl)
    · rename_i hl
      exact .ackSent (by rw [hl]; rfl) (by rw [hl]; rfl) ⟨rfl, rfl, rfl⟩ rfl
    · rename_i hl
      exact .ackFailed (by rw [hl]; rfl) (by rw [hl]; rfl) ⟨rfl, rfl, rfl⟩ rfl
  | drain =>
    simp only [loopStep] at h
    split at h
    · rename_i msg rxMsg hl _
      cases msg with
      | chunk chunk =>
        exact onChunk_step (by rw [hl]; exact ⟨rfl, rfl, rfl⟩) (by rw [hl]; rfl) ⟨rfl, rfl, rfl⟩
          (fun _ => .inr rfl) (Option.some.inj h)
      | metadata metadata =>
        have hpc : ∀ ack, LoopPc.idle
            (if State.connected { s with rxMsg := rxMsg } then .drainMetadataAck ack else .draining) := by
          intro ack
          split <;> exact ⟨rfl, rfl, rfl⟩
        simp only [State.onDrained] at h
        split at h
        · split at h <;> cases h <;>
            exact quiet_at hl rfl (by simp [Event.chunks]) ⟨rfl, rfl, rfl⟩ (hpc _) (.inl rfl)
        · cases h
          exact quiet_at hl rfl (by simp) ⟨rfl, rfl, rfl⟩
            (by simp only [hl]; exact ⟨rfl, rfl, rfl⟩) (.inl rfl)
      | chunkAckComplete complete =>
        cases h
        exact quiet_at hl rfl (by simp) ⟨rfl, rfl, rfl⟩
          (by simp only [State.checkChunkAckComplete, hl]; exact ⟨rfl, rfl, rfl⟩) (.inl rfl)
    · rename_i hl _
      cases h
      exact quiet_at hl rfl (by simp) ⟨rfl, rfl, rfl⟩ ⟨rfl, rfl, rfl⟩ (.inl rfl)
    · cases h
  | drainNext =>
    simp only [loopStep] at h
    split at h
    · rename_i hl
      split at h <;> rename_i hit
      · split at h <;> rename_i hroom <;> cases h
        · exact .drainSent hl hit hroom.1
        · exact .drainDropped hl hit hroom
      · cases h
        exact .nextNone (.inr hl) hit ⟨rfl, rfl, rfl⟩ rfl
    · cases h
  | ackAfterDrain =>
    simp only [loopStep] at h
    split at h
    · rename_i hl
      split at h
      · split at h <;> rename_i ht <;> cases h
        · exact .ackTaken (by rw [hl]; exact ⟨rfl, rfl, rfl⟩) (by rw [hl]; rfl)
            (DownstreamState.takeAck_eq_some ht) (.inr rfl)
        · obtain rfl := DownstreamState.takeAck_eq_none ht
          exact quiet_at hl rfl (by simp) ⟨rfl, rfl, rfl⟩ ⟨rfl, rfl, rfl⟩ (.inl rfl)
      · cases h
        exact quiet_at hl rfl (by simp) ⟨rfl, rfl, rfl⟩ ⟨rfl, rfl, rfl⟩ (.inl rfl)
    · cases h
  | connEnd =>
    simp only [loopStep] at h
    split at h
    · rename_i hl
      split at h
      · split at h <;> cases h <;>
          exact quiet_at hl rfl (by simp) ⟨rfl, rfl, rfl⟩ ⟨rfl, rfl, rfl⟩ (.inl rfl)
      · cases h
        exact .restart hl
    · cases h
  | completeRecv =>
    simp only [loopStep] at h
    split at h
    · rename_i hl _
      split at h <;> cases h
      exact quiet_at hl rfl (by simp) ⟨rfl, rfl, rfl⟩
        (by simp only [State.checkChunkAckComplete, hl]; exact ⟨rfl, rfl, rfl⟩) (.inl rfl)
    · rename_i hl _
      split at h <;> cases h
      exact quiet_at hl rfl (by simp) ⟨rfl, rfl, rfl⟩
        (by simp only [hl]; exact ⟨rfl, rfl, rfl⟩) (.inl rfl)
    · rename_i hl _
      split at h <;> cases h
      exact quiet_at hl rfl (by simp [Event.chunks]) ⟨rfl, rfl, rfl⟩ ⟨rfl, rfl, rfl⟩ (.inl rfl)
    · cases h
  | completeDone | completeTimedOut =>
    simp only [loopStep] at h
    split at h
    · rename_i hl
      split at h <;> cases h
      exact quiet_at hl rfl (by simp [Event.chunks]) ⟨rfl, rfl, rfl⟩ ⟨rfl, rfl, rfl⟩ (.inl rfl)
    · cases h
  | closeResponded result =>
    simp only [loopStep] at h
    split at h
    · rename_i hl
      cases h
      exact quiet_at hl (core_sendResult _) (by simp [Event.chunks]) ⟨rfl, rfl, rfl⟩ ⟨rfl, rfl, rfl⟩ (.inl rfl)
    · cases h
  | exit =>
    simp only [loopStep] at h
    split at h <;> rename_i hl <;> cases h
    exact quiet_at hl rfl (by simp) ⟨rfl, rfl, rfl⟩ ⟨rfl, rfl, rfl⟩ (.inr rfl)
  | storeCause =>
    simp only [loopStep] at h
    split at h <;> rename_i hl <;> cases h <;>
      exact quiet_at hl rfl (by simp) ⟨rfl, rfl, rfl⟩ ⟨rfl, rfl, rfl⟩ (.inr rfl)

theorem LoopStep.over {a : LoopAction} (h : LoopStep o s a s' evs) (ho : s.loop.over) : s'.loop.over := by
  cases h with
  | quiet _ _ _ _ _ hover => exact hover ho
  | refused => rfl
  | converted _ hcon | ackTaken _ hcon | ackSent _ hcon | ackFailed _ hcon =>
    rw [LoopPc.over_of_connected hcon] at ho
    cases ho
  | nextNone hl =>
    rcases hl with hl | hl <;> rw [hl] at ho <;> cases ho
  | next hl | sent hl | readerGone hl | drainSent hl | drainDropped hl | restart hl =>
    rw [hl] at ho
    cases ho

/-! ### What few steps touch -/

/-- The application's call, the slot for its sender, and what has been sent to it. -/
def State.slot (s : State) : AppPc × Option CallId × Option (Except Error Unit) :=
  (s.app, s.txResult, s.reply)

/-- The steps with which the loop takes a message of its channel or the answer to the close request. -/
def LoopAction.takes : LoopAction → Bool
  | .recv | .drain | .completeRecv | .closeResponded _ => true
  | _ => false

theorem loopStep_rest {a : LoopAction} (h : loopStep o s a = some (s', evs)) (ha : a.takes = false) :
    s'.slot = s.slot ∧ s'.ackIdComplete = s.ackIdComplete := by
  cases a with
  | recv | drain | completeRecv | closeResponded => cases ha
  | joined | ackInterval | wireSent | exit | storeCause =>
    simp only [loopStep] at h
    split at h <;> cases h <;> exact ⟨rfl, rfl⟩
  | cancelled | completeDone | completeTimedOut =>
    simp only [loopStep] at h
    split at h
    · split at h <;> cases h
      exact ⟨rfl, rfl⟩
    · cases h
  | next | drainNext | connEnd | ackAfterDrain =>
    simp only [loopStep] at h
    split at h
    · split at h <;> first
        | (cases h; exact ⟨rfl, rfl⟩)
        | (split at h <;> cases h <;> exact ⟨rfl, rfl⟩)
    · cases h
  | sent | metadataSent =>
    simp only [loopStep] at h
    split at h
    · split at h
      · cases h; exact ⟨rfl, rfl⟩
      · split at h <;> cases h
        exact ⟨rfl, rfl⟩
    · cases h

theorem onChunk_rest {config : DownstreamConfig} {chunk : Message.DownstreamChunk} {skip : LoopPc}
    {emit : DownReordererIter → LoopPc} : (s.onChunk config chunk skip emit).1.slot = s.slot ∧
      (s.onChunk config chunk skip emit).1.ackIdComplete = s.ackIdComplete := by
  unfold State.onChunk
  dsimp only
  split
  · split <;> exact ⟨rfl, rfl⟩
  · exact ⟨rfl, rfl⟩
  · exact ⟨rfl, rfl⟩

/-- What a call of the application does up to its next await. -/
inductive AppStep (s : State) : AppAction → State → List Event → Prop
  | read {chunk chunks} : s.app = .idle → s.chunks = chunk :: chunks →
      AppStep s .read { s with chunks := chunks } [.read (.ok chunk)]
  | readEnded : s.app = .idle → s.chunks = [] → s.ct → AppStep s .read
      { s with closeCause := none } [.read (.error (s.closeCause.getD .streamClosed))]
  | readMetadata {metadata rest} : s.metadata = metadata :: rest →
      AppStep s .readMetadata { s with metadata := rest } [.readMetadata (.ok metadata)]
  | readMetadataEnded : s.metadata = [] → s.ct →
      AppStep s .readMetadata s [.readMetadata (.error .streamClosed)]
  | dropMetadataReader :
      AppStep s .dropMetadataReader { s with metadata := [], metadataReaderDropped := true } []
  | close : s.app = .idle → AppStep s .close
      { s with txResult := some s.calls, reply := none, calls := s.calls + 1, app := .closeStored s.calls } []
  | closeCancel {call} : s.app = .closeStored call →
      AppStep s .closeCancel { s with ct := true, app := .closeWaiting call } []
  | received {call result} : s.app = .closeWaiting call → s.reply = some result →
      AppStep s .received { s with app := .idle } [.closeReturned result]
  | closeTimedOut {call} : s.app = .closeWaiting call → s.reply = none → AppStep s .closeTimedOut
      { s with app := .idle } [.closeReturned (.error (.unexpected "close timeout"))]
  | drop {call} : s.app = .closeWaiting call → AppStep s .drop { s with app := .idle } []
  | dropDownstream : s.app = .idle →
      AppStep s .dropDownstream { s with chunks := [], chunkReaderDropped := true } []

theorem appStep_step {a : AppAction} (h : appStep s a = some (s', evs)) : AppStep s a s' evs := by
  cases a with
  | read =>
    simp only [appStep] at h
    split at h
    · rename_i ha hc
      cases h
      exact .read ha hc
    · rename_i ha hc
      split at h <;> rename_i hct <;> cases h
      exact .readEnded ha hc hct
    · cases h
  | readMetadata =>
    simp only [appStep] at h
    split at h
    · rename_i hm
      cases h
      exact .readMetadata hm
    · rename_i hm
      split at h <;> rename_i hct <;> cases h
      exact .readMetadataEnded hm hct
  | dropMetadataReader =>
    cases h
    exact .dropMetadataReader
  | close =>
    simp only [appStep] at h
    split at h <;> rename_i ha <;> cases h
    exact .close ha
  | closeCancel =>
    simp only [appStep] at h
    split at h <;> rename_i ha <;> cases h
    exact .closeCancel ha
  | received =>
    simp only [appStep] at h
    split at h
    · rename_i ha hr
      cases h
      exact .received ha hr
    · cases h
  | closeTimedOut =>
    simp only [appStep] at h
    split at h
    · rename_i ha hr
      cases h
      exact .closeTimedOut ha hr
    · cases h
  | drop =>
    simp only [appStep] at h
    split at h <;> rename_i ha <;> cases h
    exact .drop ha
  | dropDownstream =>
    simp only [appStep] at h
    split at h <;> rename_i ha <;> cases h
    exact .dropDownstream ha

/-- The steps of everything but the loop leave alone what only the loop and its resume loop change. -/
structure SameLoop (s s' : State) : Prop where
  state : s'.state = s.state
  reorderer : s'.reorderer = s.reorderer
  loop : s'.loop = s.loop

theorem appStep_sameLoop {a : AppAction} (h : appStep s a = some (s', evs)) :
    SameLoop s s' ∧ s'.resume = s.resume ∧ (∀ e ∈ evs, ¬ e.chunks) ∧
      (a ≠ .dropDownstream → s'.chunkReaderDropped = s.chunkReaderDropped) := by
  cases appStep_step h with
  | dropDownstream => exact ⟨⟨rfl, rfl, rfl⟩, rfl, by simp, fun hne => absurd rfl hne⟩
  | read | readEnded | readMetadata | readMetadataEnded | dropMetadataReader | close | closeCancel | received
  | closeTimedOut | drop => exact ⟨⟨rfl, rfl, rfl⟩, rfl, by simp [Event.chunks], fun _ => rfl⟩

inductive Step (o : Opened) (s : State) : Action → State → List Event → Prop
  | loop {a s' evs} : LoopStep o s a s' evs → Step o s (.loop a) s' evs
  | resume {a r es s'} : s.loop = .resuming →
      s.resume.step .down (o.config.expiryInterval = 0) s.ct s.wire a = some (r, es) → SameLoop s s' →
      s'.resume = r → s'.chunkReaderDropped = s.chunkReaderDropped →
      Step o s (.resume a) s' (es.map .resume)
  | env {a s' evs} : (∀ b, a ≠ .loop b) → (∀ b, a ≠ .resume b) → SameLoop s s' → s'.resume = s.resume →
      (∀ e ∈ evs, ¬ e.chunks) →
      (a ≠ .app .dropDownstream → s'.chunkReaderDropped = s.chunkReaderDropped) → Step o s a s' evs

theorem step_step {a : Action} (h : step o s a = some (s', evs)) : Step o s a s' evs := by
  cases a with
  | loop a => exact .loop (loopStep_step h)
  | resume a =>
    simp only [step] at h
    split at h
    · rename_i hl
      simp only [Option.map_eq_some_iff, Prod.exists] at h
      obtain ⟨r, es, hr, he⟩ := h
      obtain ⟨rfl, rfl⟩ := Prod.mk.inj he
      refine .resume hl hr ?_ rfl ?_
      · split <;> exact ⟨rfl, rfl, rfl⟩
      · split <;> rfl
    · cases h
  | app a =>
    obtain ⟨hs, hr, he, hd⟩ := appStep_sameLoop h
    exact .env (by simp) (by simp) hs hr he fun hne => hd fun ha => hne (by rw [ha])
  | wire a =>
    simp only [step, Option.map_eq_some_iff] at h
    obtain ⟨w, -, he⟩ := h
    cases he
    exact .env (by simp) (by simp) ⟨rfl, rfl, rfl⟩ rfl (by simp) fun _ => rfl
  | arrive | senderDropped =>
    simp only [step, Option.ite_none_right_eq_some, Option.some.injEq, Prod.mk.injEq] at h
    obtain ⟨-, rfl, rfl⟩ := h
    exact .env (by simp) (by simp) ⟨rfl, rfl, rfl⟩ rfl (by simp) fun _ => rfl
  | cancel =>
    cases h
    exact .env (by simp) (by simp) ⟨rfl, rfl, rfl⟩ rfl (by simp) fun _ => rfl

/-- What the resume loop, the connections and their other tasks change. -/
theorem step_around {a : Action} (h : step o s a = some (s', evs)) (hl : ∀ b, a ≠ .loop b)
    (ha : ∀ b, a ≠ .app b) : (∃ wire resume rxMsg rxMsgClosed ct, s' = { s with
      wire := wire, resume := resume, rxMsg := rxMsg, rxMsgClosed := rxMsgClosed, ct := ct }) ∧
      ∀ e ∈ evs, ∃ r, e = .resume r := by
  cases a with
  | loop a => exact absurd rfl (hl a)
  | app a => exact absurd rfl (ha a)
  | resume a =>
    simp only [step] at h
    split at h
    · obtain ⟨⟨r, es⟩, -, he⟩ := Option.map_eq_some_iff.1 h
      obtain ⟨rfl, rfl⟩ := Prod.mk.inj he
      refine ⟨?_, ?_⟩
      · dsimp only
        split <;> exact ⟨_, _, _, _, _, rfl⟩
      · intro e hm
        obtain ⟨r, -, rfl⟩ := List.mem_map.1 hm
        exact ⟨r, rfl⟩
    · cases h
  | wire a =>
    obtain ⟨w, -, he⟩ := Option.map_eq_some_iff.1 h
    cases he
    exact ⟨⟨_, _, _, _, _, rfl⟩, by simp⟩
  | arrive | senderDropped =>
    simp only [step] at h
    split at h <;> cases h
    exact ⟨⟨_, _, _, _, _, rfl⟩, by simp⟩
  | cancel =>
    cases h
    exact ⟨⟨_, _, _, _, _, rfl⟩, by simp⟩

end Iscp.Downstream
