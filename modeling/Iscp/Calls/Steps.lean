import Iscp.Calls.Model

/-!
# What the steps of the calls do

Every step is one of `Step`'s: an invocation moves on (`Move`), makes an attempt or ends one (`Leaves`),
the read loop of a connection reads an ack or a call, or the connection changes otherwise (`Changes`).
Each entry of a connection's table was registered by an attempt, and each ack in a oneshot was read for
the attempt that made it (`Inv`).
-/

namespace Iscp.Calls

open Message (UpstreamCallAck)
open Wire (ReadLoopChannels ReadLoopCommand)

variable {c : E2e.Config} {s s' : State} {log evs : List Event} {i j : Nat} {a b : Attempt} {conn : ConnId}
  {callId : String} {tx : Nat} {ack : UpstreamCallAck} {pc pc' : CallPc} {phase : Phase}
  {rx : Option (List Message.DownstreamCall)} {act : CallAction}

theorem calls_setCall : (s.setCall i pc).calls j = if j = i then pc else s.calls j := by
  rw [State.setCall]
  split
  · rename_i hj
    subst hj
    exact Function.update_self ..
  · rename_i hj
    exact Function.update_of_ne hj ..

@[simp] theorem calls_setCall_self : (s.setCall i pc).calls i = pc := Function.update_self ..

theorem calls_setCall_of_ne (h : j ≠ i) : (s.setCall i pc).calls j = s.calls j := Function.update_of_ne h ..

theorem calls_setCall_cases {pc' : CallPc} (h : (s.setCall i pc).calls j = pc') :
    j = i ∧ pc = pc' ∨ j ≠ i ∧ s.calls j = pc' := Table.update_cases h

def CallPc.attempt? : CallPc → Option Attempt
  | active _ a _ => some a
  | _ => none

/-- An invocation goes on, outside its attempts or within one. -/
inductive Move (s : State) (i : Nat) : CallAction → CallPc → CallPc → List Event → Prop
  | quiet {act : CallAction} {pc pc' : CallPc} : pc.attempt? = none → pc'.attempt? = none →
      (∀ request callId, pc' ≠ .started request callId) → Move s i act pc pc' []
  | returned {act : CallAction} {pc : CallPc} {e : Error} : pc.attempt? = none →
      Move s i act pc .ended [.returned i (.error e)]
  | started {request : Request} {callId : String} :
      Move s i (.stateSeen callId) (.waiting request) (.started request callId) [.started i callId]
  | listening {a : Attempt} : Move s i .subscribeDownstreamCall (.active .subscribed a none)
      (.active .sending a (some [])) [.listening i a]
  | sent {a : Attempt} {rx : Option (List Message.DownstreamCall)} :
      Move s i .sent (.active .sending a rx) (.active .waitingAck a rx)
        [.sent a.conn (a.request.message a.callId)]
  | acknowledged {a : Attempt} {queue : List Message.DownstreamCall} {ack : UpstreamCallAck} :
      s.acks a.tx = some ack → Move s i .ackReceived (.active .waitingAck a (some queue))
        (.active .waitingReply a (some queue)) [.acknowledged i a ack]
  | skipped {a : Attempt} {call : Message.DownstreamCall} {queue : List Message.DownstreamCall} :
      call.requestCallId ≠ a.callId → Move s i .receive (.active .waitingReply a (some (call :: queue)))
        (.active .waitingReply a (some queue)) []

/-- The errors with which an attempt ends. -/
inductive Fails (s : State) (a : Attempt) : Phase → Option (List Message.DownstreamCall) → Error → Prop
  | send {rx : Option (List Message.DownstreamCall)} {e : Error} :
      e = .timeout "" ∨ e = .unexpected "write loop closed" ∨
        (s.conns a.conn).ct ∧ e = .cancelledByClose → Fails s a .sending rx e
  | senderLost {rx : Option (List Message.DownstreamCall)} : s.acks a.tx = none → s.senderAlive a = false →
      Fails s a .waitingAck rx .connectionClosed
  | closed : (s.conns a.conn).readerExited → Fails s a .waitingReply (some []) .connectionClosed
  | timedOut {queue : List Message.DownstreamCall} : queue.any (·.requestCallId = a.callId) = false →
      Fails s a .waitingReply (some queue) (.timeout "wait reply call")
  | cancelled {phase : Phase} {rx : Option (List Message.DownstreamCall)} : s.ct → Fails s a phase rx .cancelledByClose

/-- How an attempt ends. -/
inductive Leaves (s : State) (i : Nat) (a : Attempt) :
    CallAction → Phase → Option (List Message.DownstreamCall) → CallPc → List Event → Prop
  | acknowledged {ack : UpstreamCallAck} : s.acks a.tx = some ack →
      Leaves s i a .ackReceived .waitingAck none .ended [.acknowledged i a ack,
        .left i a (some (.ok (.callId a.callId))), .returned i (.ok (.callId a.callId))]
  | replied {call : Message.DownstreamCall} {queue : List Message.DownstreamCall} : call.requestCallId = a.callId →
      Leaves s i a .receive .waitingReply (some (call :: queue)) .ended
        [.left i a (some (.ok (.reply (replyOf call)))), .returned i (.ok (.reply (replyOf call)))]
  | failed {act : CallAction} {phase : Phase} {rx : Option (List Message.DownstreamCall)} {e : Error} :
      Fails s a phase rx e → Leaves s i a act phase rx (if e.canRetry then .waiting a.request else .ended)
        (.left i a (some (.error e)) :: if e.canRetry then [] else [.returned i (.error e)])
  | dropped {phase : Phase} {rx : Option (List Message.DownstreamCall)} :
      Leaves s i a .drop phase rx .ended [.left i a none]

/-- What happens to a connection, but for acks. -/
inductive Changes (w : WireConn) : WireConn → Prop
  | process {command : ReadLoopCommand Nat} {commands : List (ReadLoopCommand Nat)} :
      w.commands = command :: commands →
      Changes w { w with channels := w.channels.processCommand command, commands := commands }
  | command {command : ReadLoopCommand Nat} : command.callId? = none →
      Changes w { w with commands := w.commands ++ [command] }
  | exit : Changes w { ct := true, readerExited := true }
  | lost : Changes w { w with ct := true }
  | other {channels : ReadLoopChannels Nat} : channels.txCallAck = w.channels.txCallAck →
      Changes w { w with channels := channels }

/-- A connection ends, or all calls are cancelled. -/
def Action.isEnd : Action → Bool
  | exit _ | lost _ | cancel | read _ (.disconnect _ _) => true
  | _ => false

inductive Step (c : E2e.Config) (s : State) : Action → State → List Event → Prop
  | move {i : Nat} {act : CallAction} {pc : CallPc} {evs : List Event} : Move s i act (s.calls i) pc evs →
      Step c s (.call i act) (s.setCall i pc) evs
  | subscribe {i : Nat} {request : Request} {callId : String} {phase : Phase} :
      s.calls i = .started request callId → (s.conns s.current).readerExited = false →
      Step c s (.call i .subscribe)
        (({ s with made := s.made + 1 }.push s.current (.subscribeCallAck callId s.made)).setCall i
          (.active phase ⟨request, callId, s.current, s.made⟩ none))
        [.subscribed i ⟨request, callId, s.current, s.made⟩]
  | leave {i : Nat} {act : CallAction} {a : Attempt} {phase : Phase} {rx : Option (List Message.DownstreamCall)}
      {pc : CallPc} {evs : List Event} : s.calls i = .active phase a rx → Leaves s i a act phase rx pc evs →
      Step c s (.call i act) ((s.dropGuard a).setCall i pc) evs
  | change {act : Action} {conn : ConnId} {w : WireConn} : Changes (s.conns conn) w →
      (act.isEnd = false → w.ct = (s.conns conn).ct ∧ w.readerExited = (s.conns conn).readerExited) →
      Step c s act (s.setConn conn w) []
  | ackFound {conn : ConnId} {ack : UpstreamCallAck} {tx : Nat} : (s.conns conn).readerExited = false →
      (s.conns conn).channels.txCallAck[ack.callId]? = some tx →
      Step c s (.read conn (.upstreamCallAck ack))
        ((s.setConn conn { s.conns conn with channels := { (s.conns conn).channels with
          txCallAck := (s.conns conn).channels.txCallAck.erase ack.callId } }).setAck tx ack)
        [.ackRead conn ack, .delivered tx ack]
  | ackDropped {conn : ConnId} {ack : UpstreamCallAck} : (s.conns conn).readerExited = false →
      (s.conns conn).channels.txCallAck[ack.callId]? = none →
      Step c s (.read conn (.upstreamCallAck ack)) (s.setConn conn (s.conns conn)) [.ackRead conn ack]
  | arrived {conn : ConnId} {call : Message.DownstreamCall} :
      Step c s (.read conn (.downstreamCall call))
        { s with calls := fun i => (s.calls i).arrive c.capacity conn call } [.arrived conn call]
  | outside {act : Action} {state : E2e.ConnectionState} {ct : Bool} {current : ConnId} :
      (act.isEnd = false → ct = s.ct) → Step c s act { s with state := state, ct := ct, current := current } []

theorem retry_step {act : CallAction} {request : Request} {e : Error} (hp : (s.calls i).attempt? = none)
    (h : some (s.retry i request e) = some (s', evs)) : Step c s (.call i act) s' evs := by
  rw [Option.some.injEq, State.retry] at h
  split at h
  · cases h
    exact .move (.quiet hp rfl nofun)
  · cases h
    exact .move (.returned hp)

theorem leaveError_step {act : CallAction} {e : Error} (hp : s.calls i = .active phase a rx)
    (hf : Fails s a phase rx e) (h : some (s.leaveError i a e) = some (s', evs)) :
    Step c s (.call i act) s' evs := by
  have hl := @Leaves.failed s i a act phase rx e hf
  rw [Option.some.injEq, State.leaveError, State.retry] at h
  by_cases he : e.canRetry
  · rw [if_pos he] at h hl
    rw [if_pos he] at hl
    cases h
    exact .leave hp hl
  · rw [if_neg he] at h hl
    rw [if_neg he] at hl
    cases h
    exact .leave hp hl

theorem callStep_step {act : CallAction} (h : callStep s i act = some (s', evs)) :
    Step c s (.call i act) s' evs := by
  cases act with
  | invoke request =>
    simp only [callStep] at h
    split at h
    · rename_i hpc
      cases h
      exact .move (.quiet (by rw [hpc]; rfl) rfl nofun)
    · cases h
  | stateSeen callId =>
    simp only [callStep] at h
    split at h
    · rename_i hpc
      split at h
      · cases h
        exact .move (by rw [hpc]; exact .started)
      · cases h
        exact .move (by rw [hpc]; exact .returned rfl)
      · cases h
    · cases h
  | subscribe =>
    simp only [callStep] at h
    split at h
    · rename_i request callId hpc
      split at h
      · exact retry_step (by rw [hpc]; rfl) h
      · rename_i hup
        rw [not_or, Bool.not_eq_true, Bool.not_eq_true] at hup
        cases h
        exact .subscribe hpc hup.2
    · cases h
  | subscribeDownstreamCall =>
    simp only [callStep] at h
    split at h
    · rename_i hpc
      cases h
      exact .move (by rw [hpc]; exact .listening)
    · cases h
  | sent =>
    simp only [callStep] at h
    split at h
    · rename_i hpc
      cases h
      exact .move (by rw [hpc]; exact .sent)
    · cases h
  | sendFailed e =>
    simp only [callStep] at h
    split at h
    · rename_i hpc
      split at h
      · rename_i he
        exact leaveError_step hpc (.send he) h
      · cases h
    · cases h
  | ackReceived =>
    simp only [callStep] at h
    split at h
    · rename_i hpc
      split at h
      · rename_i ack hack
        split at h
        · cases h
          exact .leave hpc (.acknowledged hack)
        · cases h
          exact .move (by rw [hpc]; exact .acknowledged hack)
      · rename_i hack
        split at h
        · cases h
        · rename_i hs
          exact leaveError_step hpc (.senderLost hack (by simpa using hs)) h
    · cases h
  | receive =>
    simp only [callStep] at h
    split at h
    · rename_i hpc
      split at h
      · rename_i hc
        cases h
        exact .leave hpc (.replied hc)
      · rename_i hc
        cases h
        exact .move (by rw [hpc]; exact .skipped hc)
    · rename_i hpc
      split at h
      · rename_i hx
        exact leaveError_step hpc (.closed hx) h
      · cases h
    · cases h
  | replyTimedOut =>
    simp only [callStep] at h
    split at h
    · rename_i hpc
      split at h
      · cases h
      · rename_i hq
        exact leaveError_step hpc (.timedOut (by simpa using hq)) h
    · cases h
  | cancelled =>
    simp only [callStep] at h
    split at h
    · rename_i hpc
      split at h
      · exact retry_step (by rw [hpc]; rfl) h
      · cases h
    · rename_i hpc
      split at h
      · rename_i hct
        exact leaveError_step hpc (.cancelled hct) h
      · cases h
    · cases h
  | drop =>
    simp only [callStep] at h
    split at h
    · rename_i hpc
      cases h
      exact .move (.quiet (by rw [hpc]; rfl) rfl nofun)
    · rename_i hpc
      cases h
      exact .move (.quiet (by rw [hpc]; rfl) rfl nofun)
    · rename_i hpc
      cases h
      exact .leave hpc .dropped
    · cases h

theorem txCallAck_processMessage {ch : ReadLoopChannels Nat} {msg : Message.MessageEnum}
    (h : ∀ ack, msg ≠ .upstreamCallAck ack) : (ch.processMessage msg).2.txCallAck = ch.txCallAck := by
  cases msg with
  | upstreamCallAck ack => exact absurd rfl (h ack)
  | _ => simp only [ReadLoopChannels.processMessage] <;> split <;> rfl

theorem onMessage_step {msg : Message.MessageEnum} (hx : (s.conns conn).readerExited = false)
    (h : s.onMessage c.capacity conn msg = (s', evs)) : Step c s (.read conn msg) s' evs := by
  unfold State.onMessage at h
  dsimp only at h
  split at h
  · cases h
    exact .arrived
  · cases h
    exact .change .exit nofun
  · rename_i ack
    rcases htx : (s.conns conn).channels.txCallAck[ack.callId]? with _ | tx
    · simp only [ReadLoopChannels.processMessage, htx] at h
      cases h
      exact .ackDropped hx htx
    · simp only [ReadLoopChannels.processMessage, htx] at h
      cases h
      exact .ackFound hx htx
  · rename_i hno
    cases h
    exact .change (.other (txCallAck_processMessage fun ack he => hno ack he)) fun _ => ⟨rfl, rfl⟩

theorem step_step {act : Action} (h : step c s act = some (s', evs)) : Step c s act s' evs := by
  cases act with
  | call i act => exact callStep_step h
  | process conn =>
    simp only [step] at h
    split at h
    · rename_i hc
      cases h
      exact .change (.process hc) fun _ => ⟨rfl, rfl⟩
    · cases h
  | read conn msg =>
    simp only [step] at h
    split at h
    · cases h
    · rename_i hx
      rw [not_or, Bool.not_eq_true] at hx
      exact onMessage_step hx.2 (Option.some.inj h)
  | exit conn =>
    simp only [step] at h
    split at h
    · cases h
    · cases h
      exact .change .exit nofun
  | command conn command =>
    simp only [step] at h
    split at h
    · cases h
    · rename_i hc
      cases h
      exact .change (.command (by simp only [not_or] at hc; simpa using hc.2.2)) fun _ => ⟨rfl, rfl⟩
  | lost conn =>
    simp only [step] at h
    split at h
    · cases h
    · cases h
      exact .change .lost nofun
  | published =>
    simp only [step] at h
    split at h
    · cases h
      exact .outside fun _ => rfl
    · cases h
  | stateChanged state =>
    cases h
    exact .outside fun _ => rfl
  | cancel =>
    cases h
    exact .outside nofun

namespace Leaves

theorem attempt? (h : Leaves s i a act phase rx pc evs) : pc.attempt? = none := by
  cases h with
  | acknowledged | replied | dropped => rfl
  | failed => split <;> rfl

theorem not_started (h : Leaves s i a act phase rx pc evs) (request : Request) (callId : String) :
    pc ≠ .started request callId := by
  cases h with
  | acknowledged | replied | dropped => nofun
  | failed => split <;> nofun

theorem not_subscribed (h : Leaves s i a act phase rx pc evs) (j : Nat) (b : Attempt) :
    .subscribed j b ∉ evs := by
  cases h with
  | acknowledged | replied | dropped => simp
  | failed => split <;> simp

theorem not_delivered (h : Leaves s i a act phase rx pc evs) (tx : Nat) (ack : UpstreamCallAck) :
    .delivered tx ack ∉ evs := by
  cases h with
  | acknowledged | replied | dropped => simp
  | failed => split <;> simp

theorem left_mem (h : Leaves s i a act phase rx pc evs) :
    ∃ r, .left i a r ∈ evs ∧ ∀ j b r', .left j b r' ∈ evs → j = i ∧ b = a := by
  cases h with
  | acknowledged =>
    refine ⟨_, List.mem_cons_of_mem _ List.mem_cons_self, fun j b r' h => ?_⟩
    simp at h
    exact ⟨h.1, h.2.1⟩
  | replied | dropped =>
    refine ⟨_, List.mem_cons_self, fun j b r' h => ?_⟩
    simp at h
    exact ⟨h.1, h.2.1⟩
  | failed =>
    refine ⟨_, List.mem_cons_self, fun j b r' h => ?_⟩
    split at h <;> simp at h <;> exact ⟨h.1, h.2.1⟩

end Leaves

/-! ### Where the entries and the acks come from -/

/-- The oneshot is in the table under the call id, or will be once the queue is processed. -/
def WireConn.Entry (w : WireConn) (callId : String) (tx : Nat) : Prop :=
  w.channels.txCallAck[callId]? = some tx ∨ .subscribeCallAck callId tx ∈ w.commands

/-- What an event says about the attempts. -/
def Event.isQuiet : Event → Bool
  | subscribed .. | left .. | delivered .. => false
  | _ => true

structure Inv (log : List Event) (s : State) : Prop where
  tx_lt : ∀ i a, .subscribed i a ∈ log → a.tx < s.made
  tx_inj : ∀ i a j b, .subscribed i a ∈ log → .subscribed j b ∈ log → a.tx = b.tx → i = j ∧ a = b
  active : ∀ i a, (s.calls i).attempt? = some a → .subscribed i a ∈ log ∧ ∀ r, .left i a r ∉ log
  left : ∀ i a r, .left i a r ∈ log → .subscribed i a ∈ log
  known : ∀ i a, .subscribed i a ∈ log → (∀ r, .left i a r ∉ log) → (s.calls i).attempt? = some a
  entry : ∀ conn callId tx, (s.conns conn).Entry callId tx →
    ∃ i a, .subscribed i a ∈ log ∧ a.conn = conn ∧ a.callId = callId ∧ a.tx = tx
  removal : ∀ conn callId, .removeCallAck callId ∈ (s.conns conn).commands →
    ∃ i a r, .subscribed i a ∈ log ∧ .left i a r ∈ log ∧ a.callId = callId
  ack : ∀ tx ack, s.acks tx = some ack →
    ∃ i a, .subscribed i a ∈ log ∧ a.tx = tx ∧ a.callId = ack.callId ∧ .ackRead a.conn ack ∈ log
  delivered : ∀ tx ack, .delivered tx ack ∈ log → (s.acks tx).isSome

theorem mem_append_quiet {e : Event} (hq : ∀ e ∈ evs, e.isQuiet) (he : e.isQuiet = false) :
    e ∈ log ++ evs ↔ e ∈ log := by
  rw [List.mem_append, or_iff_left]
  intro hm
  rw [hq e hm] at he
  cases he

theorem Move.quiet_events (hm : Move s i act pc pc' evs) : ∀ e ∈ evs, e.isQuiet := by
  cases hm <;> simp [Event.isQuiet]

theorem Move.attempt? (hm : Move s i act pc pc' evs) : pc'.attempt? = pc.attempt? := by
  cases hm with
  | quiet h h' => rw [h, h']
  | returned h => rw [h]; rfl
  | started | listening | sent | acknowledged | skipped => rfl

theorem attempt?_arrive (capacity : Nat) (conn : ConnId) (call : Message.DownstreamCall) (pc : CallPc) :
    (pc.arrive capacity conn call).attempt? = pc.attempt? := by
  unfold CallPc.arrive
  split
  · split <;> rfl
  · rfl

theorem arrive_started {capacity : Nat} {conn : ConnId} {call : Message.DownstreamCall} {pc : CallPc}
    {request : Request} (h : pc.arrive capacity conn call = .started request callId) :
    pc = .started request callId := by
  unfold CallPc.arrive at h
  split at h
  · split at h <;> cases h
  · exact h

namespace Changes

variable {w w' : WireConn}

theorem readerExited (h : Changes w w') (hx : w'.readerExited = false) : w.readerExited = false := by
  cases h with
  | exit => cases hx
  | process | command | lost | other => exact hx

theorem entry (h : Changes w w') (he : w'.Entry callId tx) : w.Entry callId tx := by
  cases h with
  | @process command commands hc =>
    rcases he with he | he
    · cases command with
      | subscribeCallAck id tx' =>
        simp only [ReadLoopChannels.processCommand, Std.ExtTreeMap.getElem?_insert] at he
        split at he
        · rename_i hid
          rw [Std.compare_eq_iff_eq] at hid
          cases he
          subst hid
          exact .inr (by rw [hc]; exact List.mem_cons_self)
        · exact .inl he
      | removeCallAck id =>
        simp only [ReadLoopChannels.processCommand, Std.ExtTreeMap.getElem?_erase] at he
        split at he
        · cases he
        · exact .inl he
      | _ => exact .inl he
    · exact .inr (by rw [hc]; exact List.mem_cons_of_mem _ he)
  | command hc =>
    rcases he with he | he
    · exact .inl he
    · rcases List.mem_append.1 he with he | he
      · exact .inr he
      · rw [← List.mem_singleton.1 he] at hc
        cases hc
  | exit =>
    rcases he with he | he
    · simp at he
    · cases he
  | lost => exact he
  | other hc =>
    rcases he with he | he
    · exact .inl (by rw [← hc]; exact he)
    · exact .inr he

theorem removal (h : Changes w w') (he : .removeCallAck callId ∈ w'.commands) :
    .removeCallAck callId ∈ w.commands := by
  cases h with
  | process hc =>
    rw [hc]
    exact List.mem_cons_of_mem _ he
  | command hc =>
    rcases List.mem_append.1 he with he | he
    · exact he
    · rw [← List.mem_singleton.1 he] at hc
      cases hc
  | exit => cases he
  | lost | other => exact he

end Changes

namespace Inv

theorem frame (hi : Inv log s) (hq : ∀ e ∈ evs, e.isQuiet) (hmade : s'.made = s.made)
    (hcalls : ∀ i, (s'.calls i).attempt? = (s.calls i).attempt?)
    (hentry : ∀ conn callId tx, (s'.conns conn).Entry callId tx → (s.conns conn).Entry callId tx)
    (hrem : ∀ conn callId, .removeCallAck callId ∈ (s'.conns conn).commands →
      .removeCallAck callId ∈ (s.conns conn).commands)
    (hacks : s'.acks = s.acks) : Inv (log ++ evs) s' := by
  have hsub (i a) : .subscribed i a ∈ log ++ evs ↔ .subscribed i a ∈ log := mem_append_quiet hq rfl
  have hleft (i a r) : .left i a r ∈ log ++ evs ↔ .left i a r ∈ log := mem_append_quiet hq rfl
  have hdel (tx ack) : .delivered tx ack ∈ log ++ evs ↔ .delivered tx ack ∈ log := mem_append_quiet hq rfl
  refine ⟨fun i a h => ?_, fun i a j b h h' => ?_, fun i a h => ?_, fun i a r h => ?_, fun i a h hl => ?_,
    fun conn callId tx h => ?_, fun conn callId h => ?_, fun tx ack h => ?_, fun tx ack h => ?_⟩
  · rw [hmade]
    exact hi.tx_lt i a ((hsub i a).1 h)
  · exact hi.tx_inj i a j b ((hsub i a).1 h) ((hsub j b).1 h')
  · simp only [hsub, hleft]
    exact hi.active i a (by rw [← hcalls, h])
  · exact (hsub i a).2 (hi.left i a r ((hleft i a r).1 h))
  · simp only [hleft] at hl
    rw [hcalls]
    exact hi.known i a ((hsub i a).1 h) hl
  · simp only [hsub]
    exact hi.entry conn callId tx (hentry conn callId tx h)
  · simp only [hsub, hleft]
    exact hi.removal conn callId (hrem conn callId h)
  · rw [hacks] at h
    obtain ⟨i, a, hs, ht, hc, hr⟩ := hi.ack tx ack h
    exact ⟨i, a, (hsub i a).2 hs, ht, hc, List.mem_append_left _ hr⟩
  · rw [hacks]
    exact hi.delivered tx ack ((hdel tx ack).1 h)

theorem entry_push {command : ReadLoopCommand Nat} (conn' : ConnId)
    (h : ((s.push conn command).conns conn').Entry callId tx) :
    (s.conns conn').Entry callId tx ∨ conn' = conn ∧ command = .subscribeCallAck callId tx := by
  simp only [State.push, State.setConn] at h
  by_cases hc : conn' = conn
  · subst hc
    rw [Function.update_self] at h
    rcases h with h | h
    · exact .inl (.inl h)
    · rcases List.mem_append.1 h with h | h
      · exact .inl (.inr h)
      · exact .inr ⟨rfl, (List.mem_singleton.1 h).symm⟩
  · rw [Function.update_of_ne hc] at h
    exact .inl h

theorem removal_push {command : ReadLoopCommand Nat} (conn' : ConnId)
    (h : .removeCallAck callId ∈ ((s.push conn command).conns conn').commands) :
    .removeCallAck callId ∈ (s.conns conn').commands ∨ command = .removeCallAck callId := by
  simp only [State.push, State.setConn] at h
  by_cases hc : conn' = conn
  · subst hc
    rw [Function.update_self] at h
    rcases List.mem_append.1 h with h | h
    · exact .inl h
    · exact .inr (List.mem_singleton.1 h).symm
  · rw [Function.update_of_ne hc] at h
    exact .inl h

theorem subscribe (hi : Inv log s) {request : Request} (hp : s.calls i = .started request callId) :
    Inv (log ++ [Event.subscribed i ⟨request, callId, s.current, s.made⟩])
      (({ s with made := s.made + 1 }.push s.current (.subscribeCallAck callId s.made)).setCall i
        (.active phase ⟨request, callId, s.current, s.made⟩ none)) := by
  set new : Attempt := ⟨request, callId, s.current, s.made⟩ with hnew
  have hsub (j b) : .subscribed j b ∈ log ++ [Event.subscribed i new] ↔ .subscribed j b ∈ log ∨ j = i ∧ b = new := by
    simp
  have hleft (j b r) : .left j b r ∈ log ++ [Event.subscribed i new] ↔ .left j b r ∈ log := by simp
  have hfresh (j) : .subscribed j new ∉ log := fun h => Nat.lt_irrefl _ (hi.tx_lt j new h)
  set s₁ := { s with made := s.made + 1 }.push s.current (.subscribeCallAck callId s.made) with hs₁
  have hcalls (j) : ((s₁.setCall i (.active phase new none)).calls j).attempt? =
      if j = i then some new else (s.calls j).attempt? := by
    rw [calls_setCall]
    split <;> rfl
  refine ⟨fun j b h => ?_, fun j b k d h h' ht => ?_, fun j b h => ?_, fun j b r h => ?_, fun j b h hl => ?_,
    fun conn callId tx h => ?_, fun conn callId h => ?_, fun tx ack h => ?_, fun tx ack h => ?_⟩
  · show b.tx < s.made + 1
    rcases (hsub j b).1 h with h | ⟨-, rfl⟩
    · exact Nat.lt_succ_of_lt (hi.tx_lt j b h)
    · exact Nat.lt_succ_self _
  · rcases (hsub j b).1 h with hb | ⟨rfl, rfl⟩ <;> rcases (hsub k d).1 h' with hd | ⟨rfl, rfl⟩
    · exact hi.tx_inj j b k d hb hd ht
    · have hlt := hi.tx_lt j b hb
      rw [ht] at hlt
      exact absurd hlt (Nat.lt_irrefl _)
    · have hlt := hi.tx_lt k d hd
      rw [← ht] at hlt
      exact absurd hlt (Nat.lt_irrefl _)
    · exact ⟨rfl, rfl⟩
  · simp only [hleft, hsub]
    rw [hcalls] at h
    split at h
    · rename_i hj
      cases h
      exact ⟨.inr ⟨hj, rfl⟩, fun r hr => hfresh j (hi.left j new r hr)⟩
    · exact ⟨.inl (hi.active j b h).1, (hi.active j b h).2⟩
  · rw [hsub]
    exact .inl (hi.left j b r ((hleft j b r).1 h))
  · simp only [hleft] at hl
    rw [hcalls]
    rcases (hsub j b).1 h with h | ⟨rfl, rfl⟩
    · have hk := hi.known j b h hl
      rw [if_neg, hk]
      rintro rfl
      rw [hp] at hk
      cases hk
    · rw [if_pos rfl]
  · simp only [hsub]
    rcases entry_push conn h with h | ⟨rfl, hc⟩
    · obtain ⟨j, b, hb, hrest⟩ := hi.entry conn callId tx h
      exact ⟨j, b, .inl hb, hrest⟩
    · cases hc
      exact ⟨i, new, .inr ⟨rfl, rfl⟩, rfl, rfl, rfl⟩
  · simp only [hsub, hleft]
    rcases removal_push conn h with h | h
    · obtain ⟨j, b, r, hb, hrest⟩ := hi.removal conn callId h
      exact ⟨j, b, r, .inl hb, hrest⟩
    · cases h
  · obtain ⟨j, b, hb, ht, hc, hr⟩ := hi.ack tx ack h
    exact ⟨j, b, (hsub j b).2 (.inl hb), ht, hc, List.mem_append_left _ hr⟩
  · exact hi.delivered tx ack (by simpa using h)

theorem entry_dropGuard (h : ((s.dropGuard a).conns conn).Entry callId tx) :
    (s.conns conn).Entry callId tx := by
  unfold State.dropGuard at h
  split at h
  · exact h
  · rcases entry_push conn h with h | ⟨-, hc⟩
    · exact h
    · cases hc

theorem removal_dropGuard (h : .removeCallAck callId ∈ ((s.dropGuard a).conns conn).commands) :
    .removeCallAck callId ∈ (s.conns conn).commands ∨ callId = a.callId := by
  unfold State.dropGuard at h
  split at h
  · exact .inl h
  · rcases removal_push conn h with h | hc
    · exact .inl h
    · cases hc
      exact .inr rfl

@[simp] theorem acks_dropGuard : (s.dropGuard a).acks = s.acks := by
  unfold State.dropGuard
  split <;> rfl

@[simp] theorem made_dropGuard : (s.dropGuard a).made = s.made := by
  unfold State.dropGuard
  split <;> rfl

@[simp] theorem calls_dropGuard : (s.dropGuard a).calls = s.calls := by
  unfold State.dropGuard
  split <;> rfl

theorem leave (hi : Inv log s) (hp : s.calls i = .active phase a rx) (hl : Leaves s i a act phase rx pc evs) :
    Inv (log ++ evs) ((s.dropGuard a).setCall i pc) := by
  have hpc := hl.attempt?
  obtain ⟨r₀, hr₀, honly⟩ := hl.left_mem
  obtain ⟨ha, -⟩ := hi.active i a (by rw [hp]; rfl)
  have hsub (j b) : .subscribed j b ∈ log ++ evs ↔ .subscribed j b ∈ log := by
    rw [List.mem_append, or_iff_left (hl.not_subscribed j b)]
  have hcalls (j) : (((s.dropGuard a).setCall i pc).calls j).attempt? =
      if j = i then none else (s.calls j).attempt? := by
    rw [calls_setCall, calls_dropGuard]
    split
    · exact hpc
    · rfl
  refine ⟨fun j b h => ?_, fun j b k d h h' => ?_, fun j b h => ?_, fun j b r h => ?_, fun j b h hnl => ?_,
    fun conn callId tx h => ?_, fun conn callId h => ?_, fun tx ack h => ?_, fun tx ack h => ?_⟩
  · simpa [State.setCall] using hi.tx_lt j b ((hsub j b).1 h)
  · exact hi.tx_inj j b k d ((hsub j b).1 h) ((hsub k d).1 h')
  · rw [hcalls] at h
    split at h
    · cases h
    · rename_i hj
      obtain ⟨hs, hnl⟩ := hi.active j b h
      refine ⟨(hsub j b).2 hs, fun r hr => ?_⟩
      rcases List.mem_append.1 hr with hr | hr
      · exact hnl r hr
      · exact hj (honly j b r hr).1
  · rw [hsub]
    rcases List.mem_append.1 h with h | h
    · exact hi.left j b r h
    · obtain ⟨rfl, rfl⟩ := honly j b r h
      exact ha
  · have hk := hi.known j b ((hsub j b).1 h) fun r hr => hnl r (List.mem_append_left _ hr)
    rw [hcalls, if_neg, hk]
    rintro rfl
    rw [hp] at hk
    cases hk
    exact hnl r₀ (List.mem_append_right _ hr₀)
  · simp only [hsub]
    exact hi.entry conn callId tx (entry_dropGuard h)
  · rcases removal_dropGuard h with h | rfl
    · obtain ⟨j, b, r, hb, hr, hc⟩ := hi.removal conn callId h
      exact ⟨j, b, r, (hsub j b).2 hb, List.mem_append_left _ hr, hc⟩
    · exact ⟨i, a, r₀, (hsub i a).2 ha, List.mem_append_right _ hr₀, rfl⟩
  · obtain ⟨j, b, hb, ht, hc, hr⟩ := hi.ack tx ack (by simpa [State.setCall] using h)
    exact ⟨j, b, (hsub j b).2 hb, ht, hc, List.mem_append_left _ hr⟩
  · have hd : .delivered tx ack ∈ log := by
      rwa [List.mem_append, or_iff_left (hl.not_delivered tx ack)] at h
    simpa [State.setCall] using hi.delivered tx ack hd

theorem ackFound (hi : Inv log s) (htx : (s.conns conn).channels.txCallAck[ack.callId]? = some tx) :
    Inv (log ++ [Event.ackRead conn ack, .delivered tx ack])
      ((s.setConn conn { s.conns conn with channels := { (s.conns conn).channels with
        txCallAck := (s.conns conn).channels.txCallAck.erase ack.callId } }).setAck tx ack) := by
  set s₁ := s.setConn conn { s.conns conn with channels := { (s.conns conn).channels with
    txCallAck := (s.conns conn).channels.txCallAck.erase ack.callId } } with hs₁
  have hentry (conn' callId tx') (h : (s₁.conns conn').Entry callId tx') : (s.conns conn').Entry callId tx' := by
    by_cases hc : conn' = conn
    · subst hc
      simp only [hs₁, State.setConn, Function.update_self, WireConn.Entry,
        Std.ExtTreeMap.getElem?_erase] at h
      rcases h with h | h
      · split at h
        · cases h
        · exact .inl h
      · exact .inr h
    · simpa only [hs₁, State.setConn, Function.update_of_ne hc] using h
  have hrem (conn' callId) (h : .removeCallAck callId ∈ (s₁.conns conn').commands) :
      .removeCallAck callId ∈ (s.conns conn').commands := by
    by_cases hc : conn' = conn
    · subst hc
      simpa only [hs₁, State.setConn, Function.update_self] using h
    · simpa only [hs₁, State.setConn, Function.update_of_ne hc] using h
  have hack (tx') : (s₁.setAck tx ack).acks tx' = if tx' = tx then some ack else s.acks tx' := by
    simp only [State.setAck]
    split
    · rename_i ht
      rw [ht, Function.update_self]
    · rename_i ht
      rw [Function.update_of_ne ht]
      rfl
  obtain ⟨i, a, ha, hac, hai, hat⟩ := hi.entry conn ack.callId tx (.inl htx)
  have hsub (j b) : .subscribed j b ∈ log ++ [Event.ackRead conn ack, .delivered tx ack] ↔ .subscribed j b ∈ log := by
    simp
  have hleft (j b r) : .left j b r ∈ log ++ [Event.ackRead conn ack, .delivered tx ack] ↔ .left j b r ∈ log := by
    simp
  refine ⟨fun j b h => hi.tx_lt j b ((hsub j b).1 h), fun j b k d h h' =>
      hi.tx_inj j b k d ((hsub j b).1 h) ((hsub k d).1 h'), fun j b h => ?_, fun j b r h => ?_,
    fun j b h hnl => ?_, fun conn' callId tx' h => ?_, fun conn' callId h => ?_, fun tx' ack' h => ?_,
    fun tx' ack' h => ?_⟩
  · simp only [hsub, hleft]
    exact hi.active j b h
  · exact (hsub j b).2 (hi.left j b r ((hleft j b r).1 h))
  · simp only [hleft] at hnl
    exact hi.known j b ((hsub j b).1 h) hnl
  · simp only [hsub]
    exact hi.entry conn' callId tx' (hentry conn' callId tx' h)
  · simp only [hsub, hleft]
    exact hi.removal conn' callId (hrem conn' callId h)
  · rw [hack] at h
    split at h
    · rename_i ht
      cases h
      exact ⟨i, a, (hsub i a).2 ha, by rw [hat, ht], hai, by rw [hac]; simp⟩
    · obtain ⟨j, b, hb, ht, hc, hr⟩ := hi.ack tx' ack' h
      exact ⟨j, b, (hsub j b).2 hb, ht, hc, List.mem_append_left _ hr⟩
  · rw [hack]
    split
    · rfl
    · rename_i ht
      refine hi.delivered tx' ack' ?_
      simp only [List.mem_append, List.mem_cons, reduceCtorEq, Event.delivered.injEq, List.not_mem_nil,
        or_false, false_or] at h
      rcases h with h | ⟨rfl, -⟩
      · exact h
      · exact absurd rfl ht

theorem step {act : Action} (hi : Inv log s) (h : Calls.step c s act = some (s', evs)) :
    Inv (log ++ evs) s' := by
  cases step_step h with
  | @move i act pc evs hm =>
    refine hi.frame hm.quiet_events rfl (fun j => ?_) (fun _ _ _ h => h) (fun _ _ h => h) rfl
    rw [calls_setCall]
    split
    · rename_i hj
      rw [hj, hm.attempt?]
    · rfl
  | subscribe hp hx => exact hi.subscribe hp
  | leave hp hl => exact hi.leave hp hl
  | @change _ conn w hw hup =>
    refine hi.frame (fun e he => by cases he) rfl (fun _ => rfl) (fun conn' callId tx he => ?_)
      (fun conn' callId he => ?_) rfl
    · by_cases hc : conn' = conn
      · subst hc
        simp only [State.setConn, Function.update_self] at he
        exact hw.entry he
      · simpa only [State.setConn, Function.update_of_ne hc] using he
    · by_cases hc : conn' = conn
      · subst hc
        simp only [State.setConn, Function.update_self] at he
        exact hw.removal he
      · simpa only [State.setConn, Function.update_of_ne hc] using he
  | ackFound hx htx => exact hi.ackFound htx
  | ackDropped hx htx =>
    refine hi.frame (by simp [Event.isQuiet]) rfl (fun _ => rfl) (fun conn' callId tx he => ?_)
      (fun conn' callId he => ?_) rfl
    · simpa only [State.setConn, Function.update_eq_self] using he
    · simpa only [State.setConn, Function.update_eq_self] using he
  | arrived =>
    exact hi.frame (by simp [Event.isQuiet]) rfl (fun _ => attempt?_arrive _ _ _ _) (fun _ _ _ h => h)
      (fun _ _ h => h) rfl
  | outside =>
    exact hi.frame (fun e he => by cases he) rfl (fun _ => rfl) (fun _ _ _ h => h) (fun _ _ h => h) rfl

end Inv

theorem inv_init : Inv [] {} := by
  refine ⟨nofun, nofun, nofun, by simp, nofun, fun conn callId tx h => ?_, nofun, nofun, by simp⟩
  rcases h with h | h
  · simp at h
  · cases h

theorem inv {C : List Event → State → Action → Prop} (h : (machine c).Exec C log s) : Inv log s := by
  refine h.invariant inv_init ?_
  intro log s act s' evs _ hi _ hs
  exact hi.step hs

end Iscp.Calls
