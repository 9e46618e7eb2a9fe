import Iscp.Upstream.Steps

/-!
# What `Upstream::close` returns

`flush` and `close` share the slot `tx_result`, and whatever the loop finishes first answers the sender
in it: the flush that ends the flush loop answers `close` before the close request is even sent. If no
successful flush does so, and `close` has not given up before, its result is that of the close request.
-/

namespace Iscp.Upstream

variable {o : Opened} {config : UpstreamConfig} {s s' : State} {log evs : List Event}
  {r : Except Error Unit}

/-- `close` returns `Ok` only after a successful close response. -/
def CloseOk (pre : List Event) : Event → Prop
  | .closeReturned (.ok ()) => .closeResponded (.ok ()) ∈ pre
  | _ => True

instance (pre : List Event) (e : Event) : Decidable (CloseOk pre e) := by
  unfold CloseOk; split <;> infer_instance

/-- `close`, called on a stream that is not cancelled, returns `Ok` only after a successful close
response, and the error of the close request if that fails. -/
structure CloseFaithful (log : List Event) : Prop where
  ok : History.Each CloseOk log
  error : ∀ r e, .closeReturned r ∈ log → .closeResponded (.error e) ∈ log → r = .error e

/-- The call of `close` that has stored its sender and has not returned. -/
def AppPc.close? : AppPc → Option CallId
  | .closeStored call | .closeWaiting call => some call
  | _ => none

/-- The sender of a `close` that still waits is in `tx_result`. -/
def State.CloseRegistered (s : State) : Prop := s.txResult.isSome ∧ s.app.close? = s.txResult

instance : Decidable s.CloseRegistered := inferInstanceAs (Decidable (_ ∧ _))

def LoopPc.flushOk : LoopPc → Bool
  | .offlineFlushed | .flushed (.ok ()) _ => true
  | _ => false

def Event.isCloseReturned : Event → Bool
  | .closeReturned _ => true
  | _ => false

def Event.isCloseFailed : Event → Bool
  | .closeResponded (.error _) => true
  | _ => false

/-- No successful flush answers `close`; when the close request fails, `close` has neither been answered
(by a failed flush) nor returned, and its timeout does not fire after that. -/
def CloseUnanswered (log : List Event) (s : State) : Action → Prop
  | .loop .flushDone => s.loop.flushOk → ¬ s.CloseRegistered
  | .loop (.closeResponded (.error _)) =>
    (s.app.close?.isSome → s.reply = none) ∧ ∀ e ∈ log, ¬ e.isCloseReturned
  | .app .closeTimedOut => ∀ e ∈ log, ¬ e.isCloseFailed
  | _ => True

instance (log : List Event) (s : State) (a : Action) : Decidable (CloseUnanswered log s a) := by
  unfold CloseUnanswered; split <;> infer_instance

/-- A result that `close` may return now. -/
def Honest (log : List Event) (r : Except Error Unit) : Prop :=
  (r = .ok () → .closeResponded (.ok ()) ∈ log) ∧
    ∀ e, .closeResponded (.error e) ∈ log → r = .error e

/-- Whether the loop is behind the close request, or will never make one. -/
def LoopPc.done : LoopPc → Bool
  | .closed _ | .returned | .remaining | .exited => true
  | _ => false

structure CloseInv (log : List Event) (s : State) : Prop where
  none : s.loop.done = false → ∀ r, .closeResponded r ∉ log
  once : ∀ r r', .closeResponded r ∈ log → .closeResponded r' ∈ log → r = r'
  closed : ∀ r, s.loop = .closed r → .closeResponded r ∈ log
  reply : ∀ r, s.app.close?.isSome → s.reply = some r → Honest log r
  faithful : CloseFaithful log

/-- The events about the close request and about the return of `close`. -/
def Event.closes : Event → Prop
  | .closeResponded _ | .closeReturned _ => True
  | _ => False

theorem mem_append_of_not_closes (h : ∀ e ∈ evs, ¬ e.closes) (e : Event) (he : e.closes) :
    e ∈ log ++ evs ↔ e ∈ log := by
  rw [List.mem_append, or_iff_left fun hm => h e hm he]

theorem responded_mem (h : ∀ e ∈ evs, ¬ e.closes) :
    .closeResponded r ∈ log ++ evs ↔ .closeResponded r ∈ log :=
  mem_append_of_not_closes h (.closeResponded r) trivial

theorem returned_mem (h : ∀ e ∈ evs, ¬ e.closes) :
    .closeReturned r ∈ log ++ evs ↔ .closeReturned r ∈ log :=
  mem_append_of_not_closes h (.closeReturned r) trivial

theorem Honest.append (h : Honest log r) (he : ∀ e ∈ evs, ¬ e.closes) : Honest (log ++ evs) r :=
  ⟨fun hr => List.mem_append_left _ (h.1 hr), fun e hm =>
    h.2 e ((responded_mem he).1 hm)⟩

theorem CloseFaithful.append (h : CloseFaithful log) (he : ∀ e ∈ evs, ¬ e.closes) :
    CloseFaithful (log ++ evs) := by
  refine ⟨h.ok.append_of_forall fun pre e hm => ?_, fun r e hr hm => h.error r e ?_ ?_⟩
  · have := he e hm
    cases e <;> first | trivial | exact absurd trivial this
  · exact (returned_mem he).1 hr
  · exact (responded_mem he).1 hm

theorem CloseInv.quiet (h : CloseInv log s) (he : ∀ e ∈ evs, ¬ e.closes)
    (hd : s'.loop.done = false → s.loop.done = false) (hc : ∀ r, s'.loop = .closed r → s.loop = .closed r)
    (hr : ∀ r, s'.app.close?.isSome → s'.reply = some r → s.app.close?.isSome ∧ s.reply = some r) :
    CloseInv (log ++ evs) s' := by
  have hm (r : Except Error Unit) : Event.closeResponded r ∈ log ++ evs ↔ .closeResponded r ∈ log :=
    responded_mem he
  refine ⟨fun hl r => ?_, fun r r' => ?_, fun r hl => ?_, fun r ha hs => ?_, h.faithful.append he⟩
  · rw [hm]; exact h.none (hd hl) r
  · rw [hm, hm]; exact h.once r r'
  · rw [hm]; exact h.closed r (hc r hl)
  · obtain ⟨ha, hs⟩ := hr r ha hs
    exact (h.reply r ha hs).append he

theorem CloseInv.maySend (h : CloseInv log s) {loop : LoopPc} (hd : loop.done = false → s.loop.done = false)
    (hc : ∀ r, loop ≠ .closed r) (hr : s.CloseRegistered → Honest log r) :
    CloseInv (log ++ []) { s.maySend r with loop := loop } := by
  have happ : (s.maySend r).app = s.app := by unfold State.maySend; split <;> rfl
  refine ⟨by simpa using fun hl => h.none (hd hl), by simpa using h.once, fun r hl => absurd hl (hc r),
    fun r' ha hs => ?_, by simpa using h.faithful⟩
  simp only [happ] at ha
  rw [List.append_nil]
  unfold State.maySend at hs
  split at hs
  · rename_i call htx
    simp only at hs
    split at hs
    · rename_i hcall
      obtain rfl := Option.some.inj hs
      refine hr ⟨by simp [htx], ?_⟩
      rw [htx, ← hcall]
      revert ha hcall
      cases s.app <;> simp [AppPc.close?, AppPc.call?]
    · exact h.reply r' ha hs
  · exact h.reply r' ha hs

theorem CloseInv.loopStep {a : LoopAction} (h : CloseInv log s) (hc : CloseUnanswered log s (.loop a))
    (hs : LoopStep config s a s' evs) : CloseInv (log ++ evs) s' := by
  cases hs with
  | closeResponded hl =>
    rename_i result
    have hno := h.none (by simp [hl, LoopPc.done])
    -- The response is the only one in the history.
    have hm : ∀ r, Event.closeResponded r ∈ log ++ [Event.closeResponded result] ↔ r = result := fun r => by
      simp [hno r]
    refine ⟨by simp [LoopPc.done], fun r r' h1 h2 => ?_, fun r hl' => ?_, fun r ha hr => ?_, ?_, ?_⟩
    · rw [(hm r).1 h1, (hm r').1 h2]
    · rw [hm]; exact (LoopPc.closed.inj hl').symm
    · have hh := h.reply r ha hr
      refine ⟨fun hok => absurd (hh.1 hok) (hno _), fun e he => ?_⟩
      obtain rfl := (hm _).1 he
      have := hc.1 ha
      simp only at hr
      rw [hr] at this; cases this
    · exact h.faithful.ok.append_of_forall (by simp [CloseOk])
    · intro r e hr he
      obtain rfl := (hm _).1 he
      rcases List.mem_append.1 hr with hr | hr
      · exact absurd rfl (hc.2 _ hr)
      · simp at hr
  | offlineFlushed hl =>
    exact h.maySend (by simp [hl, LoopPc.done]) (by simp) fun hr => absurd hr (hc (by simp [hl, LoopPc.flushOk]))
  | flushed hl | flushedLast hl =>
    exact h.maySend (by simp [hl, LoopPc.done]) (by simp) fun hr => absurd hr (hc (by simp [hl, LoopPc.flushOk]))
  | flushFailed hl =>
    refine h.maySend (by simp [hl, LoopPc.done]) (by simp) fun _ => ⟨by simp, fun e he => ?_⟩
    exact absurd he (h.none (by simp [hl, LoopPc.done]) _)
  | closeDone hl =>
    rename_i result
    have hr := h.closed _ hl
    refine h.maySend (by simp [LoopPc.done]) (by simp) fun _ => ⟨fun hok => hok ▸ hr, fun e he => ?_⟩
    exact h.once _ _ hr he
  | flushOffline hl ht | flushEmpty hl _ ht | flushChunk hl _ ht | processRemaining hl ht =>
    refine h.quiet (fun e he => ?_) (by simp [hl, LoopPc.done]) (by simp) ?_
    · rcases ht.event he with ⟨_, _, rfl⟩ | ⟨_, rfl⟩ <;> exact id
    · cases ht <;> exact fun r ha hr => ⟨ha, hr⟩
  | discard hl _ ht =>
    refine h.quiet (fun e he => ?_) (by simp [hl, LoopPc.done]) (by simp) ?_
    · rcases List.mem_append.1 he with he | he
      · rcases ht.event he with ⟨_, _, rfl⟩ | ⟨_, rfl⟩ <;> exact id
      · rw [List.mem_singleton.1 he]; exact id
    · cases ht <;> exact fun r ha hr => ⟨ha, hr⟩
  | ack hl =>
    refine h.quiet (fun e he => ?_) (fun hd => hd) (fun r hr => hr) fun r ha hr => ⟨ha, hr⟩
    rcases processAck_event he with ⟨_, rfl⟩ | ⟨_, rfl⟩ <;> exact id
  | resendFailed hl | recover hl =>
    obtain ⟨resume, loop, he, hr⟩ := recover_cases config s _
    rw [he]
    refine h.quiet (by simp [Event.closes]) (by simp [hl, LoopPc.done]) ?_ fun r ha hr => ⟨ha, hr⟩
    rcases hr with ⟨-, rfl⟩ | ⟨-, rfl⟩ <;> simp
  | joined hl | ended hl | resend hl | resent hl | resendDone hl | sent hl | sendFailed hl | ackClosed hl
  | acked hl | closeRequest hl | exit hl =>
    exact h.quiet (by simp [Event.closes]) (by simp [hl, LoopPc.done]) (by simp) fun r ha hr => ⟨ha, hr⟩

theorem CloseInv.appStep {a : AppAction} (h : CloseInv log s) (hc : CloseUnanswered log s (.app a))
    (hs : AppStep config s a s' evs) (hl : s'.loop = s.loop) : CloseInv (log ++ evs) s' := by
  have quiet (he : ∀ e ∈ evs, ¬ e.closes)
      (hr : ∀ r, s'.app.close?.isSome → s'.reply = some r → s.app.close?.isSome ∧ s.reply = some r) :
      CloseInv (log ++ evs) s' :=
    h.quiet he (by rw [hl]; exact id) (by rw [hl]; exact fun _ => id) hr
  -- `close` returns `r`.
  have returned (r : Except Error Unit) (he : evs = [.closeReturned r]) (ha : s'.app = .idle)
      (hh : Honest log r) : CloseInv (log ++ evs) s' := by
    subst he
    have hm : ∀ r', Event.closeResponded r' ∈ log ++ [Event.closeReturned r] ↔ .closeResponded r' ∈ log :=
      fun r' => by simp
    refine ⟨fun hd r' => ?_, fun r₁ r₂ => ?_, fun r' hd => ?_, by simp [ha, AppPc.close?], ?_, ?_⟩
    · rw [hm]; exact h.none (by rw [← hl]; exact hd) r'
    · rw [hm, hm]; exact h.once r₁ r₂
    · rw [hm]; exact h.closed r' (by rw [← hl]; exact hd)
    · refine History.each_append_singleton.2 ⟨h.faithful.ok, ?_⟩
      unfold CloseOk
      split
      · rename_i heq
        cases heq
        exact hh.1 rfl
      · trivial
    · intro r' e hr he
      rw [hm] at he
      rcases List.mem_append.1 hr with hr | hr
      · exact h.faithful.error r' e hr he
      · obtain rfl := Event.closeReturned.inj (List.mem_singleton.1 hr)
        exact hh.2 e he
  cases hs with
  | closeReceived ha hr => exact returned _ rfl rfl (h.reply _ (by simp [ha, AppPc.close?]) hr)
  | closeTimedOut =>
    refine returned _ rfl rfl ⟨by simp, fun e he => ?_⟩
    exact absurd rfl (hc _ he)
  | closeCancel ha => exact quiet (by simp) fun r _ hr => ⟨by simp [ha, AppPc.close?], hr⟩
  | closeStore => exact quiet (by simp) (by simp)
  | flushRefused => exact quiet (by simp [Event.closes]) fun r ha hr => ⟨ha, hr⟩
  | write | writeRefused | writeChecked | writeNotify | flushChecked | flushStore | flushNotify | close
  | closeSkipped | closeChecked | flushReceived | drop =>
    exact quiet (by simp [Event.closes]) (by simp [AppPc.close?])

theorem closeInv (h : o.machine.Exec CloseUnanswered log s) : CloseInv log s := by
  refine h.invariant (I := CloseInv) ?_ ?_
  · exact ⟨by simp [Opened.machine], by simp [Opened.machine], by simp [Opened.machine, Opened.init],
      by simp [Opened.machine, Opened.init],
      ⟨History.each_singleton.2 trivial, by simp [Opened.machine]⟩⟩
  · intro log s a s' evs hr hi hc ha
    cases step_step ha with
    | loop hl => exact hi.loopStep hc hl
    | app hap hsame => exact hi.appStep hc (appStep_step hap) hsame.loop
    | resume =>
      exact hi.quiet (by simp [Event.closes]) (fun h => h) (fun _ h => h) fun r ha hr => ⟨ha, hr⟩
    | wire | cancel => exact hi.quiet (by simp) (fun h => h) (fun _ h => h) fun r ha hr => ⟨ha, hr⟩

/-- In every run in which no flush answers `close` before the close request does, what `close` returns is
what came of that request. -/
theorem close_faithful (o : Opened) (h : o.machine.Exec CloseUnanswered log s) : CloseFaithful log :=
  (closeInv h).faithful

/-- `Conn::close` cancels the stream while `close` is about to: the last flush finds no sender, and
`close` gets the result of the close request. -/
theorem close_faithful_late :
    ∃ log s, defaultOpened.machine.Exec CloseUnanswered log s ∧ .closeReturned (.ok ()) ∈ log ∧
      CloseFaithful log := by
  obtain ⟨log, s, h, hr⟩ := Machine.Exec.exists_of_any (M := defaultOpened.machine)
    (C := CloseUnanswered) (startRun ++
      ([.app (.close none), .app .closeCheck, .cancel, .loop (.flush .cancelled .asIs), .loop .flushDone,
        .app .closeStore, .app .closeCancel, .loop .ackWaited, .loop .closeRequest,
        .loop (.closeResponded (.ok ())), .loop .closeDone, .app .received] : List Action))
    (P := fun log _ => .closeReturned (.ok ()) ∈ log) (by decide +kernel)
  exact ⟨log, s, h, hr, close_faithful defaultOpened h⟩

/-- The last flush finds nothing to send, and `close` returns `Ok` before the loop asks for the close. -/
theorem close_before_response :
    ∃ log s, defaultOpened.machine.Run log s ∧ ¬ CloseFaithful log := by
  obtain ⟨log, s, h, hno⟩ := Machine.Exec.exists_of_any (M := defaultOpened.machine)
    (C := fun _ _ _ => True) (startRun ++
      ([.app (.close none), .app .closeCheck, .app .closeStore, .app .closeCancel,
        .loop (.flush .cancelled .asIs), .loop .flushDone, .app .received] : List Action))
    (P := fun log _ => ¬ History.Each CloseOk log) (by decide +kernel)
  exact ⟨log, s, h, fun hf => hno hf.ok⟩

end Iscp.Upstream
