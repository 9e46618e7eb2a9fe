import Iscp.Upstream.Buffer

/-!
# What `Upstream::flush` promises

`flush` leaves its sender in `tx_result`, and the next flush of the loop to finish answers it, also one
that took the buffer before the call. If the loop answers no waiting `flush` for something that it had
begun before the last writes, the buffer is empty when `flush` returns `Ok`.
-/

namespace Iscp.Upstream

variable {o : Opened} {config : UpstreamConfig} {s s' : State} {log evs : List Event}
  {r : Except Error Unit}

/-! ### The slot -/

/-- The result that the loop gives to the sender in `tx_result` next. -/
def LoopPc.answer? : LoopPc → Option (Except Error Unit)
  | .offlineFlushed => some (.ok ())
  | .flushed result _ | .closed result => some result
  | _ => none

/-- The call of `flush` that has stored its sender and has not returned. -/
def AppPc.flush? : AppPc → Option CallId
  | .flushStored call | .flushWaiting call => some call
  | _ => none

@[simp] theorem maySend_app : (s.maySend r).app = s.app := by
  unfold State.maySend; split <;> rfl

@[simp] theorem maySend_txResult : (s.maySend r).txResult = none := by
  unfold State.maySend; split
  · rfl
  · assumption

theorem maySend_reply : (s.maySend r).reply = s.reply ∨
    (s.maySend r).reply = some r ∧ s.txResult.isSome ∧ s.app.call? = s.txResult := by
  unfold State.maySend
  split
  · rename_i call htx
    dsimp only
    split
    · rename_i hcall
      exact .inr ⟨rfl, by rw [htx]; rfl, by rw [hcall, htx]⟩
    · exact .inl rfl
  · exact .inl rfl

/-- The loop touches the slot and the reply only to give its answer. -/
theorem LoopStep.slot {a : LoopAction} (h : LoopStep config s a s' evs) : s'.app = s.app ∧
    (s'.txResult = s.txResult ∧ s'.reply = s.reply ∨
      ∃ r, s.loop.answer? = some r ∧ s'.loop.answer? = none ∧ s'.txResult = none ∧
        s'.reply = (s.maySend r).reply) := by
  cases h with
  | offlineFlushed hl | flushed hl | flushedLast hl | flushFailed hl | closeDone hl =>
    exact ⟨maySend_app, .inr ⟨_, by rw [hl]; rfl, rfl, maySend_txResult, rfl⟩⟩
  | flushOffline _ ht | discard _ _ ht | flushEmpty _ _ ht | flushChunk _ _ ht | processRemaining _ ht =>
    cases ht <;> exact ⟨rfl, .inl ⟨rfl, rfl⟩⟩
  | resendFailed | recover =>
    obtain ⟨resume, loop, he, -⟩ := recover_cases config s _
    rw [he]
    exact ⟨rfl, .inl ⟨rfl, rfl⟩⟩
  | _ => exact ⟨rfl, .inl ⟨rfl, rfl⟩⟩

theorem LoopStep.buffer {a : LoopAction} (h : LoopStep config s a s' evs) :
    s'.state.dataPointsBuffer = s.state.dataPointsBuffer ∨ s'.state.dataPointsBuffer = [] := by
  rcases h.flusher_cases with ⟨-, hn, -⟩ | ⟨site, t, post, -, -, hT⟩ | ⟨ack, rfl, -⟩
  · exact .inl hn.2
  · exact .inr hT.buffer
  · exact .inl rfl

/-! ### The answers to `flush` -/

/-- A `flush` waits for its answer, and there are data points that no flush has taken. -/
def State.FlushPending (s : State) : Prop :=
  s.app.flush?.isSome ∧ s.reply = none ∧ s.state.dataPointsBuffer ≠ []

instance : Decidable s.FlushPending := inferInstanceAs (Decidable (_ ∧ _ ∧ _))

/-- Nothing that the loop had begun before succeeds for a pending `flush`: it is not about to answer with
`Ok` when `flush` stores its sender, and neither the send it is in nor the close request succeeds. -/
def FlushInTime (s : State) : Action → Prop
  | .app .flushStore => s.loop.answer? = some (.ok ()) → s.state.dataPointsBuffer = []
  | .loop (.sent (.ok ())) => s.loop matches .sending _ _ → ¬ s.FlushPending
  | .loop (.closeResponded (.ok ())) => ¬ s.FlushPending
  | _ => True

instance (s : State) (a : Action) : Decidable (FlushInTime s a) := by
  unfold FlushInTime; split <;> infer_instance

structure FlushInv (s : State) : Prop where
  slot : s.app.call?.isSome → s.reply.isSome → s.txResult = none
  buffer : s.app.flush?.isSome → s.reply = some (.ok ()) ∨ s.reply = none ∧ s.loop.answer? = some (.ok ()) →
    s.state.dataPointsBuffer = []

theorem Take.buffer {site : TakeSite} {c : Option Message.UpstreamChunk} (h : Take site s s' c evs) :
    s'.state.dataPointsBuffer = [] := by
  cases h with
  | empty hb => exact hb
  | found hT => exact hT.buffer

/-- The loop comes to answer `Ok` by a take, by a send or by the close request. -/
theorem LoopStep.decides {a : LoopAction} (h : LoopStep config s a s' evs)
    (hd : s'.loop.answer? = some (.ok ())) : s'.state.dataPointsBuffer = [] ∨
      a = .sent (.ok ()) ∧ s.loop matches .sending _ _ ∨ a = .closeResponded (.ok ()) := by
  cases h with
  | flushOffline _ ht | flushEmpty _ _ ht => exact .inl ht.buffer
  | sent hl => exact .inr (.inl ⟨rfl, by rw [hl]⟩)
  | closeResponded =>
    rename_i result _
    obtain rfl : result = .ok () := by simpa [LoopPc.answer?] using hd
    exact .inr (.inr rfl)
  | ack hl =>
    rw [processAck_loop] at hd
    rcases hl with hl | hl <;> rw [hl] at hd <;> cases hd
  | resendFailed | recover =>
    obtain ⟨resume, loop, he, hr⟩ := recover_cases config s _
    rw [he] at hd
    rcases hr with ⟨-, rfl⟩ | ⟨-, rfl⟩ <;> cases hd
  | sendFailed => simp [LoopPc.answer?] at hd
  | _ => cases hd

theorem FlushInv.loopStep {a : LoopAction} (h : FlushInv s) (hc : FlushInTime s (.loop a))
    (hs : LoopStep config s a s' evs) : FlushInv s' := by
  obtain ⟨happ, hslot⟩ := hs.slot
  have hbuffer (hb : s.state.dataPointsBuffer = []) : s'.state.dataPointsBuffer = [] := by
    rcases hs.buffer with h' | h'
    · rw [h', hb]
    · exact h'
  refine ⟨fun hcall hr => ?_, fun hflush hr => ?_⟩
  · rcases hslot with ⟨htx, hre⟩ | ⟨r, -, -, htx, -⟩
    · rw [htx]
      exact h.slot (happ ▸ hcall) (hre ▸ hr)
    · exact htx
  · rw [happ] at hflush
    rcases hslot with ⟨-, hre⟩ | ⟨r, hans, hans', -, hre⟩
    · rw [hre] at hr
      rcases hr with hr | ⟨hr, hd⟩
      · exact hbuffer (h.buffer hflush (.inl hr))
      · rcases hs.decides hd with hb | ⟨rfl, hl⟩ | rfl
        · exact hb
        · by_contra hne
          exact hc hl ⟨hflush, hr, fun hb => hne (hbuffer hb)⟩
        · by_contra hne
          exact hc ⟨hflush, hr, fun hb => hne (hbuffer hb)⟩
    · rw [hre] at hr
      rcases hr with hr | ⟨-, hd⟩
      · rcases maySend_reply (s := s) (r := r) with he | ⟨he, htx, hcall⟩
        · exact hbuffer (h.buffer hflush (.inl (he.symm.trans hr)))
        · -- The loop answers this call now.
          rw [he] at hr
          obtain rfl := Option.some.inj hr
          have hnone : s.reply = none := by
            by_contra hsome
            rw [h.slot (by rw [hcall]; exact htx) (Option.isSome_iff_ne_none.2 hsome)] at htx
            cases htx
          exact hbuffer (h.buffer hflush (.inr ⟨hnone, hans⟩))
      · rw [hans'] at hd
        cases hd

theorem FlushInv.appStep {a : AppAction} (h : FlushInv s) (hc : FlushInTime s (.app a))
    (hs : AppStep config s a s' evs) : FlushInv s' := by
  cases hs with
  | flushStore =>
    refine ⟨by simp, fun _ hr => ?_⟩
    rcases hr with hr | ⟨-, hd⟩
    · cases hr
    · exact hc hd
  | closeStore => exact ⟨by simp, by simp [AppPc.flush?]⟩
  | flushNotify ha =>
    exact ⟨fun hcall => h.slot (by rw [ha]; exact hcall), fun hf => h.buffer (by rw [ha]; exact hf)⟩
  | closeCancel ha => exact ⟨fun hcall => h.slot (by rw [ha]; exact hcall), by simp [AppPc.flush?]⟩
  | flushRefused => exact h
  | write | writeRefused | writeChecked | writeNotify | flushChecked | close | closeSkipped | closeChecked
  | flushReceived | closeReceived | closeTimedOut | drop =>
    exact ⟨by simp [AppPc.call?], by simp [AppPc.flush?]⟩

theorem flushInv (h : o.machine.Exec (fun _ => FlushInTime) log s) : FlushInv s := by
  refine h.invariant (I := fun _ s => FlushInv s) ⟨?_, ?_⟩ ?_
  · intro hc
    cases hc
  · intro hc
    cases hc
  · intro log s a s' evs _ hi hc ha
    cases step_step ha with
    | loop hl => exact hi.loopStep hc hl
    | app hap => exact hi.appStep hc (appStep_step hap)
    | resume | wire | cancel => exact ⟨hi.slot, hi.buffer⟩

/-- In every run in which nothing begun before succeeds for a pending `flush`: when `flush` returns `Ok`,
all groups pushed so far have been taken, each into the chunk issued then, and none is in the buffer. -/
theorem flush_complete (o : Opened) (h : o.machine.Exec (fun _ => FlushInTime) log s)
    (hs : o.machine.step s (.app .received) = some (s', [.flushReturned (.ok ())])) :
    s.state.dataPointsBuffer = [] ∧ pushes log = removed log ∧
      History.Each (TookAll o.init.flusher) log := by
  have hs : Upstream.appStep o.config s .received = some (s', [.flushReturned (.ok ())]) := hs
  have hb : s.state.dataPointsBuffer = [] := by
    cases appStep_step hs with
    | flushReceived ha hr => exact (flushInv h).buffer (by rw [ha]; rfl) (.inl hr)
  have hacc := account h
  refine ⟨hb, ?_, hacc.took⟩
  rw [hacc.pushes, hb, List.append_nil]

theorem received_flush (o : Opened) {call : CallId} (ha : s.app = .flushWaiting call) (hr : s.reply = some r) :
    o.machine.step s (.app .received) = some ({ s with app := .idle }, [.flushReturned r]) := by
  show Upstream.appStep o.config s .received = _
  simp only [Upstream.appStep, ha, hr]

/-- A group is written, and `flush` is called. -/
def flushRun (dpg : DataPointGroup) : List Action :=
  [.app (.write dpg), .app .writeCheck, .app .writeNotify, .app .flush, .app .flushStore, .app .flushNotify]

/-- The flush that `flush` asks for takes the group. -/
theorem flush_complete_notified :
    ∃ log s, defaultOpened.machine.Exec (fun _ => FlushInTime) log s ∧ pushes log ≠ [] ∧
      (∃ s', defaultOpened.machine.step s (.app .received) = some (s', [.flushReturned (.ok ())])) ∧
      s.state.dataPointsBuffer = [] ∧ pushes log = removed log ∧
      History.Each (TookAll defaultOpened.init.flusher) log := by
  obtain ⟨log, s, h, hp, ha, hr⟩ := Machine.Exec.exists_of_any (M := defaultOpened.machine)
    (C := fun _ => FlushInTime) (startRun ++ flushRun ⟨⟨"a", "t"⟩, [⟨0, [7]⟩]⟩ ++
      ([.loop (.flush .notified .asIs), .loop (.sent (.ok ())), .loop .flushDone] : List Action))
    (P := fun log s => pushes log ≠ [] ∧ s.app = .flushWaiting 0 ∧ s.reply = some (.ok ()))
    (by decide +kernel)
  have hs := received_flush defaultOpened ha hr
  exact ⟨log, s, h, hp, ⟨_, hs⟩, flush_complete defaultOpened h hs⟩

/-- The loop is sending a chunk when a group is written and `flush` is called; the end of that send
answers `flush`, and the group is still in the buffer. -/
theorem flush_incomplete :
    ∃ log s, defaultOpened.machine.Run log s ∧
      (∃ s', defaultOpened.machine.step s (.app .received) = some (s', [.flushReturned (.ok ())])) ∧
      s.state.dataPointsBuffer = [⟨⟨"b", "t"⟩, [⟨1, [8]⟩]⟩] ∧ ¬ pushes log = removed log := by
  obtain ⟨log, s, h, ha, hr, hb, hp⟩ := Machine.Exec.exists_of_any (M := defaultOpened.machine)
    (C := fun _ _ _ => True) (startRun ++
      ([.app (.write ⟨⟨"a", "t"⟩, [⟨0, [7]⟩]⟩), .app .writeCheck, .app .writeNotify,
        .loop (.flush .interval .asIs)] : List Action) ++ flushRun ⟨⟨"b", "t"⟩, [⟨1, [8]⟩]⟩ ++
      ([.loop (.sent (.ok ())), .loop .flushDone] : List Action))
    (P := fun log s => s.app = .flushWaiting 0 ∧ s.reply = some (.ok ()) ∧
      s.state.dataPointsBuffer = [⟨⟨"b", "t"⟩, [⟨1, [8]⟩]⟩] ∧ ¬ pushes log = removed log)
    (by decide +kernel)
  exact ⟨log, s, h, ⟨_, received_flush defaultOpened ha hr⟩, hb, hp⟩

end Iscp.Upstream
