import Iscp.Upstream.Model

/-!
# What the steps of an upstream do

The inversion lemmas of the machine: `LoopStep` has one case for each thing the loop can do, `AppStep` one
for each thing a call of the application can do, and the other tasks leave the parts of the state they do
not own alone. The invariants of the upstream are derived from these.
-/

namespace Iscp.Upstream

variable {config : UpstreamConfig} {s s' : State} {evs : List Event}

inductive Take (site : TakeSite) (s : State) :
    State → Option Message.UpstreamChunk → List Event → Prop
  | empty : s.state.dataPointsBuffer = [] →
      Take site s { s with state := { s.state with bufferPayloadSize := 0 } } none []
  | found {t flusher state} : s.flusher.Takes s.resume.streamIdAlias s.state t flusher state →
      Take site s { s with flusher := flusher, state := state } (some t.chunk)
        (.took site t.dpgs t.chunk :: (t.call.map .sendDataPointsCallback).toList)

theorem take_take {site : TakeSite} {order : TakeOrder} {c : Option Message.UpstreamChunk}
    (h : s.take site order = (c, s', evs)) : Take site s s' c evs := by
  unfold State.take at h
  split at h
  · rename_i ht
    obtain ⟨rfl, rfl, rfl⟩ : _ ∧ _ ∧ _ := by simpa using h
    exact .found (UpstreamFlusher.take_eq_some ht)
  · rename_i ht
    obtain ⟨hb, rfl, rfl⟩ := UpstreamFlusher.take_eq_none ht
    obtain ⟨rfl, rfl, rfl⟩ : _ ∧ _ ∧ _ := by simpa using h
    exact .empty hb

theorem Take.event {site : TakeSite} {c : Option Message.UpstreamChunk} (h : Take site s s' c evs)
    {e : Event} (he : e ∈ evs) :
    (∃ dpgs chunk, e = .took site dpgs chunk) ∨ ∃ call, e = .sendDataPointsCallback call := by
  cases h with
  | empty => cases he
  | found ht =>
    simp only [List.mem_cons, Option.mem_toList, Option.map_eq_some_iff] at he
    rcases he with rfl | ⟨call, -, rfl⟩
    · exact .inl ⟨_, _, rfl⟩
    · exact .inr ⟨_, rfl⟩

theorem processAck_event {ack : Message.UpstreamChunkAck} {e : Event} (he : e ∈ (s.processAck ack).2) :
    (∃ n, e = .acked n) ∨ ∃ r, e = .receiveAckCallback r := by
  simp only [State.processAck, List.mem_append, List.mem_map] at he
  rcases he with ⟨r, -, rfl⟩ | ⟨r, -, rfl⟩
  · exact .inl ⟨_, rfl⟩
  · exact .inr ⟨_, rfl⟩

theorem wake_eq_some {w : Wake} (h : s.wake config w = some s') :
    (∃ notify, s' = { s with notify := notify }) ∧ (w = .cancelled → s.ct) := by
  cases w with
  | notified =>
    simp only [State.wake, Option.ite_none_right_eq_some, Option.some.injEq] at h
    exact ⟨⟨false, h.2.symm⟩, by simp⟩
  | interval =>
    simp only [State.wake, Option.ite_none_right_eq_some, Option.some.injEq] at h
    exact ⟨⟨s.notify, by rw [← h.2]⟩, by simp⟩
  | cancelled =>
    simp only [State.wake, Option.ite_none_right_eq_some, Option.some.injEq] at h
    exact ⟨⟨s.notify, by rw [← h.2]⟩, fun _ => h.1⟩

inductive LoopStep (config : UpstreamConfig) (s : State) :
    LoopAction → State → List Event → Prop
  | joined : s.loop = .offline → s.resume.pc = .registered → LoopStep config s .joined
      { s with isConnected := true, loop := .afterResume } [.afterResume s.resume.wireConn]
  | ended : s.loop = .offline → s.resume.pc ≠ .registered →
      LoopStep config s .joined { s with loop := .returned } []
  | flushOffline {wake order notify s₁ c evs} : s.loop = .offline →
      Take .offline { s with notify := notify } s₁ c evs →
      LoopStep config s (.flush wake order) { s₁ with loop := .offlineFlushed } evs
  | offlineFlushed : s.loop = .offlineFlushed →
      LoopStep config s .flushDone { s.maySend (.ok ()) with loop := .offline } []
  | resend {order} : s.loop = .afterResume → config.qos = .reliable →
      LoopStep config s (.resumedCallbackDone order)
        { s with loop := .resending s.flusher.storage.iterChunks } []
  | discard {order s₁ c evs} : s.loop = .afterResume → config.qos ≠ .reliable →
      Take .afterResume s s₁ c evs → LoopStep config s (.resumedCallbackDone order)
        { s₁ with loop := .flushLoop } (evs ++ [.afterResumeDone s₁.resume.wireConn true])
  | resent {chunk todo} : s.loop = .resending (chunk :: todo) → LoopStep config s (.sent (.ok ()))
      { s with loop := .resending todo } [.handed s.resume.wireConn chunk]
  | resendFailed {chunk todo e} : s.loop = .resending (chunk :: todo) →
      LoopStep config s (.sent (.error e)) (s.recover config false)
        [.sendFailed s.resume.wireConn chunk, .afterResumeDone s.resume.wireConn false]
  | resendDone : s.loop = .resending [] → LoopStep config s .resent { s with loop := .flushLoop }
      [.afterResumeDone s.resume.wireConn true]
  | flushEmpty {wake order notify close s₁ evs} : s.loop = .flushLoop → (close = true → s.ct) →
      Take .flushLoop { s with notify := notify } s₁ none evs →
      LoopStep config s (.flush wake order) { s₁ with loop := .flushed (.ok ()) close } evs
  | flushChunk {wake order notify close s₁ chunk evs} : s.loop = .flushLoop → (close = true → s.ct) →
      Take .flushLoop { s with notify := notify } s₁ (some chunk) evs →
      LoopStep config s (.flush wake order) { s₁ with loop := .sending chunk close } evs
  | sent {chunk close} : s.loop = .sending chunk close → LoopStep config s (.sent (.ok ()))
      { s with loop := .flushed (.ok ()) close } [.handed s.resume.wireConn chunk]
  | sendFailed {chunk close e} : s.loop = .sending chunk close →
      LoopStep config s (.sent (.error e)) { s with loop := .flushed (.error e) close }
        [.sendFailed s.resume.wireConn chunk]
  | flushed {close} : s.loop = .flushed (.ok ()) close →
      LoopStep config s .flushDone { s.maySend (.ok ()) with loop := .flushLoop } []
  | flushedLast {close} : s.loop = .flushed (.ok ()) close →
      LoopStep config s .flushDone { s.maySend (.ok ()) with loop := .waitAck } []
  | flushFailed {e close} : s.loop = .flushed (.error e) close →
      LoopStep config s .flushDone { s.maySend (.error e) with loop := .lost } []
  | ack {ack} : s.loop = .flushLoop ∨ s.loop = .waitAck →
      LoopStep config s (.ack ack) (s.processAck ack).1 (s.processAck ack).2
  | ackClosed : s.loop = .flushLoop → LoopStep config s .ackClosed { s with loop := .lost } []
  | acked {a} : s.loop = .waitAck → LoopStep config s a { s with loop := .closeRequest } []
  | closeRequest : s.loop = .closeRequest → LoopStep config s .closeRequest
      { s with closeOpts := none, loop := .closing }
      [.closeRequested s.state.totalDataPoints s.state.lastIssuedSequenceNumber s.closeOpts]
  | closeResponded {result} : s.loop = .closing → LoopStep config s (.closeResponded result)
      { s with loop := .closed result } [.closeResponded result]
  | closeDone {result} : s.loop = .closed result →
      LoopStep config s .closeDone { s.maySend result with loop := .returned } []
  | recover : s.loop = .lost → LoopStep config s .recover (s.recover config true) []
  | exit : s.loop = .returned → LoopStep config s .exit { s with ct := true, loop := .remaining } []
  | processRemaining {order s₁ c evs} : s.loop = .remaining → Take .remaining s s₁ c evs →
      LoopStep config s (.processRemaining order) { s₁ with loop := .exited } evs

theorem loopStep_step {a : LoopAction} (h : loopStep config s a = some (s', evs)) :
    LoopStep config s a s' evs := by
  cases a with
  | joined =>
    simp only [loopStep] at h
    split at h
    all_goals cases h
    · rename_i hl hp; exact .joined hl hp
    · rename_i hl hp; exact .ended hl (by simp [hp])
    · rename_i hl hp; exact .ended hl (by simp [hp])
  | flush wake order =>
    simp only [loopStep] at h
    split at h
    · rename_i s₁ hl hw
      obtain ⟨⟨notify, rfl⟩, -⟩ := wake_eq_some hw
      split at h
      · cases h
      · cases h
        exact .flushOffline hl (take_take rfl)
    · rename_i s₁ hl hw
      obtain ⟨⟨notify, rfl⟩, hct⟩ := wake_eq_some hw
      split at h <;> rename_i ht <;> cases h
      · exact .flushChunk hl (by simpa using hct) (take_take ht)
      · exact .flushEmpty hl (by simpa using hct) (take_take ht)
    · cases h
  | flushDone =>
    simp only [loopStep] at h
    split at h <;> rename_i hl <;> cases h
    · exact .offlineFlushed hl
    · exact .flushFailed hl
    · split
      · exact .flushedLast hl
      · exact .flushed hl
  | resumedCallbackDone order =>
    simp only [loopStep] at h
    split at h
    · rename_i hl
      split at h <;> rename_i hq
      · cases h; exact .resend hl hq
      · cases h
        exact .discard hl hq (take_take rfl)
    · cases h
  | sent result =>
    simp only [loopStep] at h
    split at h
    all_goals cases h
    · rename_i hl; exact .resent hl
    · rename_i hl; exact .resendFailed hl
    · rename_i hl; exact .sent hl
    · rename_i hl; exact .sendFailed hl
  | resent =>
    simp only [loopStep] at h
    split at h <;> rename_i hl <;> cases h
    exact .resendDone hl
  | ack ack =>
    simp only [loopStep] at h
    split at h <;> rename_i hl
    · cases h; exact .ack (.inl hl)
    · split at h <;> cases h
      exact .ack (.inr hl)
    · cases h
  | ackClosed =>
    simp only [loopStep] at h
    split at h <;> rename_i hl
    · cases h; exact .ackClosed hl
    · split at h <;> cases h
      exact .acked hl
    · cases h
  | ackWaited | ackTimedOut =>
    simp only [loopStep] at h
    split at h <;> rename_i hl
    · split at h <;> cases h
      exact .acked hl
    · cases h
  | closeRequest =>
    simp only [loopStep] at h
    split at h <;> rename_i hl <;> cases h
    exact .closeRequest hl
  | closeResponded result =>
    simp only [loopStep] at h
    split at h <;> rename_i hl <;> cases h
    exact .closeResponded hl
  | closeDone =>
    simp only [loopStep] at h
    split at h <;> rename_i hl <;> cases h
    exact .closeDone hl
  | recover =>
    simp only [loopStep] at h
    split at h <;> rename_i hl <;> cases h
    exact .recover hl
  | exit =>
    simp only [loopStep] at h
    split at h <;> rename_i hl <;> cases h
    exact .exit hl
  | processRemaining order =>
    simp only [loopStep] at h
    split at h
    · rename_i hl
      cases h
      exact .processRemaining hl (take_take rfl)
    · cases h

/-- What a call of the application does up to its next await. -/
inductive AppStep (config : UpstreamConfig) (s : State) : AppAction → State → List Event → Prop
  | write {dpg} : s.app = .idle → AppStep config s (.write dpg)
      { s with
        state := { s.state with
          dataPointsBuffer := s.state.dataPointsBuffer ++ [dpg]
          bufferPayloadSize := s.state.bufferPayloadSize + payloadSize dpg.dataPoints }
        app := .written (s.state.bufferPayloadSize + payloadSize dpg.dataPoints) } [.pushed dpg]
  | writeRefused {size} : s.app = .written size → s.ct →
      AppStep config s .writeCheck { s with app := .idle } [.wrote (.error .streamClosed)]
  | writeChecked {size} : s.app = .written size → s.ct = false →
      AppStep config s .writeCheck { s with app := .writeChecked size } []
  | writeNotify {size} : s.app = .writeChecked size → AppStep config s .writeNotify
      { s with notify := s.notify || config.flushPolicy.needFlush size, app := .idle } [.wrote (.ok ())]
  | flushRefused : s.app = .idle → s.ct →
      AppStep config s .flush s [.flushReturned (.error .streamClosed)]
  | flushChecked : s.app = .idle → s.ct = false →
      AppStep config s .flush { s with app := .flushChecked } []
  | flushStore : s.app = .flushChecked → AppStep config s .flushStore
      { s with txResult := some s.calls, reply := none, calls := s.calls + 1, app := .flushStored s.calls } []
  | flushNotify {call} : s.app = .flushStored call →
      AppStep config s .flushNotify { s with notify := true, app := .flushWaiting call } []
  | close {closeSession} : s.app = .idle →
      AppStep config s (.close closeSession) { s with closeOpts := closeSession, app := .closeOpts } []
  | closeSkipped : s.app = .closeOpts → s.ct →
      AppStep config s .closeCheck { s with app := .idle } [.closeSkipped]
  | closeChecked : s.app = .closeOpts → s.ct = false →
      AppStep config s .closeCheck { s with app := .closeChecked } []
  | closeStore : s.app = .closeChecked → AppStep config s .closeStore
      { s with txResult := some s.calls, reply := none, calls := s.calls + 1, app := .closeStored s.calls } []
  | closeCancel {call} : s.app = .closeStored call →
      AppStep config s .closeCancel { s with ct := true, app := .closeWaiting call } []
  | flushReceived {call result} : s.app = .flushWaiting call → s.reply = some result →
      AppStep config s .received { s with app := .idle } [.flushReturned result]
  | closeReceived {call result} : s.app = .closeWaiting call → s.reply = some result →
      AppStep config s .received { s with app := .idle } [.closeReturned result]
  | closeTimedOut {call} : s.app = .closeWaiting call → s.reply = none → AppStep config s .closeTimedOut
      { s with app := .idle } [.closeReturned (.error (.unexpected "close timeout"))]
  | drop {call} : s.app = .flushWaiting call ∨ s.app = .closeWaiting call →
      AppStep config s .drop { s with app := .idle } []

theorem appStep_step {a : AppAction} (h : appStep config s a = some (s', evs)) :
    AppStep config s a s' evs := by
  cases a with
  | write dpg =>
    simp only [appStep] at h
    split at h <;> rename_i ha <;> cases h
    exact .write ha
  | writeCheck =>
    simp only [appStep] at h
    split at h
    · rename_i ha
      split at h <;> rename_i hct <;> cases h
      · exact .writeRefused ha hct
      · exact .writeChecked ha (by simpa using hct)
    · cases h
  | writeNotify =>
    simp only [appStep] at h
    split at h <;> rename_i ha <;> cases h
    exact .writeNotify ha
  | flush =>
    simp only [appStep] at h
    split at h
    · rename_i ha
      split at h <;> rename_i hct <;> cases h
      · exact .flushRefused ha hct
      · exact .flushChecked ha (by simpa using hct)
    · cases h
  | flushStore =>
    simp only [appStep] at h
    split at h <;> rename_i ha <;> cases h
    exact .flushStore ha
  | flushNotify =>
    simp only [appStep] at h
    split at h <;> rename_i ha <;> cases h
    exact .flushNotify ha
  | close closeSession =>
    simp only [appStep] at h
    split at h <;> rename_i ha <;> cases h
    exact .close ha
  | closeCheck =>
    simp only [appStep] at h
    split at h
    · rename_i ha
      split at h <;> rename_i hct <;> cases h
      · exact .closeSkipped ha hct
      · exact .closeChecked ha (by simpa using hct)
    · cases h
  | closeStore =>
    simp only [appStep] at h
    split at h <;> rename_i ha <;> cases h
    exact .closeStore ha
  | closeCancel =>
    simp only [appStep] at h
    split at h <;> rename_i ha <;> cases h
    exact .closeCancel ha
  | received =>
    simp only [appStep] at h
    split at h
    · rename_i ha hr
      cases h
      exact .flushReceived ha hr
    · rename_i ha hr
      cases h
      exact .closeReceived ha hr
    · cases h
  | closeTimedOut =>
    simp only [appStep] at h
    split at h
    · rename_i ha hr
      cases h
      exact .closeTimedOut ha hr
    · cases h
  | drop =>
    simp only [appStep] at h
    split at h
    · rename_i ha
      cases h
      exact .drop (.inl ha)
    · rename_i ha
      cases h
      exact .drop (.inr ha)
    · cases h

/-! ### What a step leaves alone -/

def Event.isAfterResume : Event → Bool
  | .afterResume _ => true
  | _ => false

def Event.ofApp : Event → Prop
  | .pushed _ | .wrote _ | .flushReturned _ | .closeSkipped | .closeReturned _ => True
  | _ => False

/-- The application's steps do not touch the connections, nor the loop, its flusher and its resume task. -/
structure SameLoop (s s' : State) : Prop where
  wire : s'.wire = s.wire
  resume : s'.resume = s.resume
  flusher : s'.flusher = s.flusher
  lastIssued : s'.state.lastIssuedSequenceNumber = s.state.lastIssuedSequenceNumber
  loop : s'.loop = s.loop

theorem appStep_sameLoop {a : AppAction} (h : appStep config s a = some (s', evs)) :
    SameLoop s s' ∧ ∀ e ∈ evs, e.ofApp := by
  refine ⟨?_, fun e he => ?_⟩
  · cases appStep_step h <;> exact ⟨rfl, rfl, rfl, rfl, rfl⟩
  · cases appStep_step h with
    | write | writeRefused | writeNotify | flushRefused | closeSkipped | flushReceived | closeReceived
    | closeTimedOut =>
      rw [List.mem_singleton.1 he]
      trivial
    | _ => cases he

inductive Step (config : UpstreamConfig) (s : State) : Action → State → List Event → Prop
  | loop {a s' evs} : LoopStep config s a s' evs → Step config s (.loop a) s' evs
  | resume {a r es} : s.resume.pc ≠ .registered →
      s.resume.step .up (config.expiryInterval = 0) s.ct s.wire a = some (r, es) →
      Step config s (.resume a) { s with resume := r } (es.map .resume)
  | app {a s' evs} : appStep config s a = some (s', evs) → SameLoop s s' → (∀ e ∈ evs, e.ofApp) →
      Step config s (.app a) s' evs
  | wire {a w} : s.wire.step a = some w → Step config s (.wire a) { s with wire := w } []
  | cancel : Step config s .cancel { s with ct := true } []

theorem step_step {a : Action} (h : step config s a = some (s', evs)) : Step config s a s' evs := by
  cases a with
  | loop a => exact .loop (loopStep_step h)
  | resume a =>
    simp only [step, Option.map_eq_some_iff, Prod.exists] at h
    obtain ⟨r, es, hr, he⟩ := h
    cases he
    refine .resume (fun hpc => ?_) hr
    rw [Resume.step_of_registered hpc] at hr
    cases hr
  | app a => exact .app h (appStep_sameLoop h).1 (appStep_sameLoop h).2
  | wire a =>
    simp only [step, Option.map_eq_some_iff] at h
    obtain ⟨w, hw, he⟩ := h
    cases he
    exact .wire hw
  | cancel => cases h; exact .cancel

section
variable {r : Except Error Unit}

@[simp] theorem maySend_resume : (s.maySend r).resume = s.resume := by
  unfold State.maySend; split <;> rfl

@[simp] theorem maySend_flusher : (s.maySend r).flusher = s.flusher := by
  unfold State.maySend; split <;> rfl

@[simp] theorem maySend_state : (s.maySend r).state = s.state := by
  unfold State.maySend; split <;> rfl

@[simp] theorem maySend_loop : (s.maySend r).loop = s.loop := by
  unfold State.maySend; split <;> rfl

end

/-- After the connection is given up, the loop has ended or a new resume task runs. -/
theorem recover_cases (config : UpstreamConfig) (s : State) (b : Bool) :
    ∃ resume loop, s.recover config b = { s with isConnected := false, resume := resume, loop := loop } ∧
      (resume = s.resume ∧ loop = .returned ∨ resume =
        { s.resume with needResume := s.resume.needResume || b }.restart 0 ∧ loop = .offline) := by
  unfold State.recover
  split
  · exact ⟨_, _, rfl, .inl ⟨rfl, rfl⟩⟩
  · exact ⟨_, _, rfl, .inr ⟨rfl, rfl⟩⟩

end Iscp.Upstream
