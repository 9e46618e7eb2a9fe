import Iscp.Downstream.Exits
import Iscp.Upstream.Delivery
import Iscp.Upstream.Flush

/-!
# Calls that wait for a loop that has ended

`flush` and `close` leave a sender in `tx_result`, which stays alive with the handle. The loops answer it
after a flush and after the close request; on every other way out they leave it where it is, and a call that
has looked at the token before may store its sender even later. If a loop returns in no such moment,
every call that waits has its result.
-/

namespace Iscp

namespace Upstream

variable {o : Opened} {config : UpstreamConfig} {s s' : State} {log evs : List Event}

/-- The call has passed its check of the token and has yet to store its sender. -/
def AppPc.checked : AppPc → Bool
  | .flushChecked | .closeChecked => true
  | _ => false

namespace State

/-- The sender of the call that waits is in `tx_result`. -/
def Waits (s : State) : Prop := s.txResult.isSome ∧ s.app.call? = s.txResult

/-- A call waits, or is about to. -/
def Pending (s : State) : Prop := s.app.checked ∨ s.Waits

instance (s : State) : Decidable s.Waits := inferInstanceAs (Decidable (_ ∧ _))

instance (s : State) : Decidable s.Pending := inferInstanceAs (Decidable (_ ∨ _))

end State

/-- The loop does not return past a pending call, and no call passes its check between the return of the
loop and the drop of its guard. -/
def ReturnsIdle (config : UpstreamConfig) (s : State) : Action → Prop
  | .loop .joined => s.resume.pc ≠ .registered → ¬ s.Pending
  | .loop (.sent (.error _)) =>
    s.loop matches .resending _ → config.expiryInterval = 0 ∨ s.ct → ¬ s.Pending
  | .loop .recover => config.expiryInterval = 0 ∨ s.ct → ¬ s.Pending
  | .loop .closeDone => s.app.checked = false
  | .app .flush | .app .closeCheck => s.loop = .returned → s.ct
  | _ => True

instance (s : State) (a : Action) : Decidable (ReturnsIdle config s a) := by
  unfold ReturnsIdle
  induction a using Action.casesOn with
  | loop a =>
    induction a using LoopAction.casesOn with
    | sent result => induction result using Except.casesOn <;> infer_instance
    | _ => infer_instance
  | app a => induction a using AppAction.casesOn <;> infer_instance
  | _ => infer_instance

structure WaitInv (s : State) : Prop where
  slot : ∀ call, s.app.call? = some call → s.txResult = some call ∨ s.reply.isSome
  done : s.loop.over → ¬ s.Pending
  ct : s.loop.over → s.loop ≠ .returned → s.ct

theorem maySend_reply_of {r : Except Error Unit} {call : CallId} (htx : s.txResult = some call)
    (ha : s.app.call? = some call) : (s.maySend r).reply = some r := by
  simp [State.maySend, htx, ha]

theorem over_of_recover {b : Bool} (h : (s.recover config b).loop.over) :
    config.expiryInterval = 0 ∨ s.ct := by
  unfold State.recover at h
  split at h
  · assumption
  · cases h

theorem pending_recover {b : Bool} : (s.recover config b).Pending ↔ s.Pending := by
  unfold State.recover
  split <;> exact Iff.rfl

theorem recover_returned {b : Bool} (h : (s.recover config b).loop.over) :
    (s.recover config b).loop = .returned := by
  unfold State.recover at h ⊢
  split at h
  · rw [if_pos ‹_›]
  · cases h

theorem not_waits_idle {app : AppPc} (h : app.call? = none) (tx : Option CallId) :
    ¬ (tx.isSome ∧ app.call? = tx) := by
  rintro ⟨hs, he⟩
  rw [← he, h] at hs
  cases hs

theorem WaitInv.loopStep {a : LoopAction} (h : WaitInv s) (hc : ReturnsIdle config s (.loop a))
    (hs : LoopStep config s a s' evs) : WaitInv s' := by
  obtain ⟨happ, hslot⟩ := hs.slot
  have slot (call : CallId) (hcall : s'.app.call? = some call) :
      s'.txResult = some call ∨ s'.reply.isSome := by
    rw [happ] at hcall
    rcases hslot with ⟨htx, hre⟩ | ⟨r, -, -, -, hre⟩
    · rw [htx, hre]
      exact h.slot call hcall
    · rw [hre]
      rcases h.slot call hcall with htx | hsome
      · exact .inr (by rw [maySend_reply_of htx hcall]; rfl)
      · rcases maySend_reply (s := s) (r := r) with he | ⟨he, -⟩
        · exact .inr (he ▸ hsome)
        · exact .inr (by rw [he]; rfl)
  -- A loop that is not over yet returns by one of the first five cases.
  cases hs with
  | ended hl hp => exact ⟨slot, fun _ => hc hp, fun _ hne => absurd rfl hne⟩
  | resendFailed hl =>
    refine ⟨slot, fun ho => ?_, fun ho hne => absurd (recover_returned ho) hne⟩
    rw [pending_recover]
    exact hc (by rw [hl]) (over_of_recover ho)
  | recover hl =>
    refine ⟨slot, fun ho => ?_, fun ho hne => absurd (recover_returned ho) hne⟩
    rw [pending_recover]
    exact hc (over_of_recover ho)
  | closeDone hl =>
    refine ⟨slot, fun _ => ?_, fun _ hne => absurd rfl hne⟩
    rintro (hck | ⟨hsome, -⟩)
    · have hck : s.app.checked := by simpa using hck
      rw [hc] at hck
      cases hck
    · simp at hsome
  | exit hl => exact ⟨slot, fun _ => h.done (by rw [hl]; rfl), fun _ _ => rfl⟩
  | processRemaining hl ht =>
    have hover := h.done (by rw [hl]; rfl)
    have hct := h.ct (by rw [hl]; rfl) (by rw [hl]; nofun)
    cases ht <;> exact ⟨slot, fun _ => hover, fun _ _ => hct⟩
  | ack hl =>
    have hno : s.loop.over = false := by rcases hl with hl | hl <;> rw [hl] <;> rfl
    refine ⟨slot, fun ho => ?_, fun ho => ?_⟩
    all_goals
      have ho : s.loop.over := ho
      rw [hno] at ho
      cases ho
  | _ => exact ⟨slot, fun ho => (by cases ho), fun ho => (by cases ho)⟩

theorem WaitInv.appStep {a : AppAction} (h : WaitInv s) (hc : ReturnsIdle config s (.app a))
    (hs : AppStep config s a s' evs) (hloop : s'.loop = s.loop) : WaitInv s' := by
  -- After the step no call is under way.
  have idle (hcall : s'.app.call? = none) (hck : s'.app.checked = false) (hct : s.ct → s'.ct) :
      WaitInv s' := by
    refine ⟨fun call he => ?_, fun _ => ?_, fun ho hne => ?_⟩
    · rw [hcall] at he; cases he
    · rintro (hck' | hw)
      · rw [hck] at hck'; cases hck'
      · exact not_waits_idle hcall _ hw
    · rw [hloop] at ho hne
      exact hct (h.ct ho hne)
  -- A call passes its check: the loop has not returned.
  have checked (hno : s.loop = .returned → s.ct) (hnc : ¬ s.ct) : s.loop.over = false := by
    by_contra ho
    have ho : s.loop.over := by simpa using ho
    by_cases hr : s.loop = .returned
    · exact hnc (hno hr)
    · exact hnc (h.ct ho hr)
  cases hs with
  | flushRefused => exact h
  | flushChecked _ hct | closeChecked _ hct =>
    have hover := checked hc (by simp [hct])
    exact ⟨by simp [AppPc.call?], fun ho => absurd ho (by simp [hover]),
      fun ho => absurd ho (by simp [hover])⟩
  | flushStore ha | closeStore ha =>
    have hover (ho : s.loop.over) : False := h.done ho (.inl (by rw [ha]; rfl))
    exact ⟨fun call he => .inl (by simpa [AppPc.call?] using he), fun ho => (hover ho).elim,
      fun ho => (hover ho).elim⟩
  | flushNotify ha =>
    refine ⟨fun c he => h.slot c (by rw [ha]; exact he), fun ho => ?_, h.ct⟩
    rintro (hck | hw)
    · cases hck
    · exact h.done ho (.inr (by rw [State.Waits, ha]; exact hw))
  | closeCancel ha =>
    refine ⟨fun c he => h.slot c (by rw [ha]; exact he), fun ho => ?_, fun _ _ => rfl⟩
    rintro (hck | hw)
    · cases hck
    · exact h.done ho (.inr (by rw [State.Waits, ha]; exact hw))
  | write | writeRefused | writeChecked | writeNotify | close | closeSkipped | flushReceived | closeReceived
  | closeTimedOut | drop => exact idle rfl rfl id

theorem waitInv (h : o.machine.Exec (fun _ => ReturnsIdle o.config) log s) : WaitInv s := by
  refine h.invariant (I := fun _ s => WaitInv s) ⟨?_, ?_, ?_⟩ ?_
  · intro call hcall
    cases hcall
  · intro ho
    cases ho
  · intro ho
    cases ho
  · intro log s a s' evs _ hi hc ha
    cases step_step ha with
    | loop hl => exact hi.loopStep hc hl
    | app hap hsame => exact hi.appStep hc (appStep_step hap) hsame.loop
    | resume | wire => exact ⟨hi.slot, hi.done, hi.ct⟩
    | cancel => exact ⟨hi.slot, hi.done, fun _ _ => rfl⟩

end Upstream

namespace Downstream

variable {o : Opened} {s s' : State} {log evs : List Event}

/-- The sender of the `close` that waits is in `tx_result`. -/
def State.Waits (s : State) : Prop := s.txResult.isSome ∧ s.app.call? = s.txResult

instance (s : State) : Decidable s.Waits := inferInstanceAs (Decidable (_ ∧ _))

/-- The loop returns past a `close` that waits only after the close request, and `close` is not called once
the loop has returned. -/
def ReturnsIdle (o : Opened) (s : State) : Action → Prop
  | .loop (.closeResponded _) => True
  | .loop a => Exit o s a → ¬ s.Waits
  | .app .close => s.loop.over = false
  | _ => True

instance (s : State) (a : Action) : Decidable (ReturnsIdle o s a) := by
  unfold ReturnsIdle
  induction a using Action.casesOn with
  | loop a => induction a using LoopAction.casesOn <;> infer_instance
  | app a => induction a using AppAction.casesOn <;> infer_instance
  | _ => infer_instance

structure WaitInv (s : State) : Prop where
  slot : ∀ call, s.app.call? = some call → s.txResult = some call ∨ s.reply.isSome
  done : s.loop.over → ¬ s.Waits

theorem WaitInv.congr (h : WaitInv s) (hs : s'.slot = s.slot) (ho : s'.loop.over → ¬ s.Waits) :
    WaitInv s' := by
  obtain ⟨happ, htx, hre⟩ : s'.app = s.app ∧ s'.txResult = s.txResult ∧ s'.reply = s.reply := by
    simpa [State.slot] using hs
  refine ⟨?_, ?_⟩
  · rw [happ, htx, hre]
    exact h.slot
  · rw [State.Waits, happ, htx]
    exact ho

/-- The answer to the close request reaches the call that waits, and empties the slot. -/
theorem WaitInv.answered (h : WaitInv s) {answer : Except Error Unit}
    (hs : s'.slot = (s.sendResult answer).slot) : WaitInv s' := by
  obtain ⟨happ, htx, hre⟩ : s'.app = (s.sendResult answer).app ∧
      s'.txResult = (s.sendResult answer).txResult ∧
      s'.reply = (s.sendResult answer).reply := by
    simpa [State.slot] using hs
  unfold State.sendResult at happ htx hre
  split at htx <;> rename_i hslot <;> simp only [hslot] at happ hre htx
  · rename_i call
    refine ⟨fun c hc => .inr ?_, fun _ hw => ?_⟩
    · rw [happ] at hc
      rw [hre]
      split
      · rfl
      · rename_i hne
        rcases h.slot c hc with htx | hsome
        · rw [hslot] at htx
          exact absurd (htx ▸ hc) hne
        · exact hsome
    · rw [State.Waits, htx] at hw
      cases hw.1
  · refine ⟨fun c hc => ?_, fun _ hw => ?_⟩
    · rw [happ] at hc
      rw [hre]
      refine (h.slot c hc).imp_left fun htx => ?_
      rw [hslot] at htx
      cases htx
    · rw [State.Waits, htx] at hw
      cases hw.1

theorem WaitInv.loopStep {a : LoopAction} (h : WaitInv s) (hc : ReturnsIdle o s (.loop a))
    (hs : loopStep o s a = some (s', evs)) : WaitInv s' := by
  rcases loopStep_slot hs with ⟨he, hne⟩ | ⟨answer, he⟩
  · refine h.congr he fun ho => ?_
    by_cases hover : s.loop.over
    · exact h.done hover
    · have hexit := loopStep_over hs (by simpa using hover) ho
      cases a with
      | closeResponded result => exact absurd rfl (hne result)
      | _ => exact hc hexit
  · exact h.answered he

theorem WaitInv.appStep {a : AppAction} (h : WaitInv s) (hc : ReturnsIdle o s (.app a))
    (hs : AppStep s a s' evs) : WaitInv s' := by
  have idle (ha : s'.app = .idle) : WaitInv s' := by
    refine ⟨fun call he => ?_, fun _ hw => ?_⟩
    · rw [ha] at he
      cases he
    · obtain ⟨hsome, he⟩ := hw
      rw [← he, ha] at hsome
      cases hsome
  cases hs with
  | close =>
    refine ⟨fun call he => .inl (by simpa [AppPc.call?] using he), fun ho => ?_⟩
    have hno : s.loop.over = false := hc
    exact absurd ho (by simp [hno])
  | closeCancel ha =>
    refine ⟨fun c he => h.slot c (by rw [ha]; exact he), fun ho hw => h.done ho ?_⟩
    rw [State.Waits, ha]
    exact hw
  | received | closeTimedOut | drop => exact idle rfl
  | read | readEnded | readMetadata | readMetadataEnded | dropMetadataReader | dropDownstream =>
    exact h.congr rfl h.done

theorem waitInv (h : o.machine.Exec (fun _ => ReturnsIdle o) log s) : WaitInv s := by
  refine h.invariant (I := fun _ s => WaitInv s) ⟨?_, ?_⟩ ?_
  · intro call hcall
    cases hcall
  · intro ho
    cases ho
  · intro log s a s' evs _ hi hc ha
    have ha : step o s a = some (s', evs) := ha
    cases a with
    | loop a => exact hi.loopStep hc ha
    | app a => exact hi.appStep hc (appStep_step ha)
    | _ =>
      obtain ⟨⟨_, _, _, _, _, rfl⟩, -⟩ := step_around ha (by simp) (by simp)
      exact hi.congr rfl hi.done

end Downstream

/-- In every run of an upstream or of a downstream whose loop returns in no such moment: once the loop has
returned, no sender of a waiting call is in `tx_result`, and every call that waits has its result. -/
theorem waiters_answered (up : Upstream.Opened) (down : Downstream.Opened) :
    (∀ log s, up.machine.Exec (fun _ => Upstream.ReturnsIdle up.config) log s → s.loop.over →
      ¬ s.Waits ∧ (s.app.call?.isSome → s.reply.isSome)) ∧
    ∀ log s, down.machine.Exec (fun _ => Downstream.ReturnsIdle down) log s → s.loop.over →
      ¬ s.Waits ∧ (s.app.call?.isSome → s.reply.isSome) := by
  constructor
  · intro log s h ho
    have hi := Upstream.waitInv h
    have hw : ¬ s.Waits := fun hw => hi.done ho (.inr hw)
    refine ⟨hw, fun hsome => ?_⟩
    obtain ⟨call, hcall⟩ := Option.isSome_iff_exists.1 hsome
    refine (hi.slot call hcall).resolve_left fun htx => hw ⟨by rw [htx]; rfl, hcall.trans htx.symm⟩
  · intro log s h ho
    have hi := Downstream.waitInv h
    refine ⟨hi.done ho, fun hsome => ?_⟩
    obtain ⟨call, hcall⟩ := Option.isSome_iff_exists.1 hsome
    refine (hi.slot call hcall).resolve_left fun htx => hi.done ho ⟨by rw [htx]; rfl, hcall.trans htx.symm⟩

/-- A `flush` and a `close` are answered by their loops, which then end. -/
theorem waiters_answered_closed :
    (∃ log s, Upstream.defaultOpened.machine.Exec (fun _ => Upstream.ReturnsIdle {}) log s ∧
      s.loop = .exited ∧ s.app = .closeWaiting 1 ∧ ¬ s.Waits ∧ (s.app.call?.isSome → s.reply.isSome)) ∧
    ∃ log s, Downstream.defaultOpened.machine.Exec
        (fun _ => Downstream.ReturnsIdle Downstream.defaultOpened) log s ∧
      s.loop = .exited ∧ s.app = .closeWaiting 0 ∧ ¬ s.Waits ∧ (s.app.call?.isSome → s.reply.isSome) := by
  constructor
  · obtain ⟨log, s, h, hl, ha⟩ := Machine.Exec.exists_of_any (M := Upstream.defaultOpened.machine)
      (C := fun _ => Upstream.ReturnsIdle {})
      (Upstream.startRun ++ ([.app .flush, .app .flushStore, .app .flushNotify,
        .loop (.flush .notified .asIs), .loop .flushDone, .app .received,
        .app (.close none), .app .closeCheck, .app .closeStore, .app .closeCancel,
        .loop (.flush .cancelled .asIs), .loop .flushDone, .loop .ackWaited, .loop .closeRequest,
        .loop (.closeResponded (.ok ())), .loop .closeDone, .loop .exit,
        .loop (.processRemaining .asIs)] : List Upstream.Action))
      (P := fun _ s => s.loop = .exited ∧ s.app = .closeWaiting 1) (by decide +kernel)
    exact ⟨log, s, h, hl, ha, (waiters_answered Upstream.defaultOpened Downstream.defaultOpened).1 log s h
      (by rw [hl]; rfl)⟩
  · obtain ⟨log, s, h, hl, ha⟩ := Machine.Exec.exists_of_any (M := Downstream.defaultOpened.machine)
      (C := fun _ => Downstream.ReturnsIdle Downstream.defaultOpened)
      (Downstream.startRun ++ ([.app .close, .app .closeCancel, .loop .cancelled, .loop .drain,
        .loop .ackAfterDrain, .loop .connEnd, .loop .completeDone, .loop (.closeResponded (.ok ())),
        .loop .exit, .loop .storeCause] : List Downstream.Action))
      (P := fun _ s => s.loop = .exited ∧ s.app = .closeWaiting 0) (by decide +kernel)
    exact ⟨log, s, h, hl, ha, (waiters_answered Upstream.defaultOpened Downstream.defaultOpened).2 log s h
      (by rw [hl]; rfl)⟩

/-- `flush` has stored its sender when the stream is cancelled and its resume task fails; `close` waits when
the connection is lost. Both loops end, and neither call is answered. -/
theorem waiters_stranded :
    (∃ log s, Upstream.defaultOpened.machine.Run log s ∧ s.loop = .exited ∧ s.app = .flushWaiting 0 ∧
      s.Waits) ∧
    ∃ log s, Downstream.defaultOpened.machine.Run log s ∧ s.loop = .exited ∧ s.app = .closeWaiting 0 ∧
      s.Waits := by
  constructor
  · exact Machine.Exec.exists_of_any
      [.app .flush, .app .flushStore, .app .flushNotify, .cancel, .resume .cancelled, .loop .joined,
        .loop .exit, .loop (.processRemaining .asIs)] (by decide +kernel)
  · exact Machine.Exec.exists_of_any (Downstream.startRun ++ ([.app .close, .app .closeCancel,
      .wire (.disconnect 0), .loop .cancelled, .loop .drain, .loop .ackAfterDrain, .loop .connEnd,
      .loop .exit, .loop .storeCause] : List Downstream.Action)) (by decide +kernel)

end Iscp
