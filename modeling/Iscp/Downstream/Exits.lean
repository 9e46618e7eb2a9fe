import Iscp.Downstream.Steps

/-!
# How `downstream_loop` ends

The loop returns when its resume loop has given up, on a chunk that the reorderer refuses (or that makes
the conversion panic), on a connection that is lost when the stream is to be closed, and after the close
request (`Exit`). Only the last of these looks at `tx_result`.
-/

namespace Iscp.Downstream

variable {o : Opened} {config : DownstreamConfig} {s s' : State} {evs : List Event}

/-- Whether the loop returns on a message that it takes from its channel. -/
def State.endsOn (config : DownstreamConfig) (s : State) : ReceivableDownstreamMsg → Bool
  | .chunk chunk =>
    match s.state.convertDownstreamChunk (config.omitEmptyChunk && !s.reorderer.enabled) chunk with
    | some (.ok (some chunk), _) =>
      match (s.reorderer.iter chunk).1 with
      | .ok _ => false
      | .error _ => true
    | some _ => false
    | none => true
  | _ => false

/-- The error with which the loop returns on a message: that of the reorderer. -/
def State.refusal? (config : DownstreamConfig) (s : State) : ReceivableDownstreamMsg → Option Error
  | .chunk chunk =>
    match s.state.convertDownstreamChunk (config.omitEmptyChunk && !s.reorderer.enabled) chunk with
    | some (.ok (some chunk), _) =>
      match (s.reorderer.iter chunk).1 with
      | .ok _ => none
      | .error e => some e
    | _ => none
  | _ => none

/-- When the loop returns. -/
def Exit (o : Opened) (s : State) : LoopAction → Prop
  | .joined => s.resume.pc ≠ .registered
  | .recv | .drain => s.rxMsg.head?.any (s.endsOn o.config)
  | .connEnd => (o.config.expiryInterval = 0 ∨ s.ct) ∧ s.connected = false
  | .closeResponded _ => True
  | _ => False

instance (s : State) (a : LoopAction) : Decidable (Exit o s a) := by
  unfold Exit; split <;> infer_instance

/-- Whether the loop returns with an error. -/
def refuses (o : Opened) (s : State) : LoopAction → Bool
  | .recv | .drain => s.rxMsg.head?.any fun msg => (s.refusal? o.config msg).isSome
  | _ => false

/-- What a step makes of the loop: it goes on, makes the close request, returns, or has returned before. -/
inductive Flow (o : Opened) (s : State) (a : LoopAction) (s' : State) (evs : List Event) : Prop
  | goes : s'.loop.over = false → s'.loop ≠ .closing → (∀ c, .closeRequested c ∉ evs) → Flow o s a s' evs
  | requests : (s', evs) = s.closeRequest → Flow o s a s' evs
  | returns : Exit o s a → s'.loop.over → (∀ e, s'.loop = .returned (.error e) → refuses o s a) →
      (∀ c, .closeRequested c ∉ evs) → Flow o s a s' evs
  | returned : s.loop.over → s'.loop.over → (∀ c, .closeRequested c ∉ evs) → Flow o s a s' evs

/-- The loop goes on in its select. -/
theorem Flow.stays {a : LoopAction} {loop : LoopPc} (hl : s.loop = loop) (hs : s'.loop = s.loop)
    (ho : loop.over = false) (hc : loop ≠ .closing) (he : ∀ c, .closeRequested c ∉ evs) :
    Flow o s a s' evs := by
  rw [hl] at hs
  exact .goes (hs ▸ ho) (hs ▸ hc) he

theorem onChunk_flow {a : LoopAction} {chunk : Message.DownstreamChunk}
    {rxMsg : List ReceivableDownstreamMsg} {skip : LoopPc} {emit : DownReordererIter → LoopPc}
    (ha : a = .recv ∨ a = .drain) (hm : s.rxMsg = .chunk chunk :: rxMsg)
    (hskip : skip.over = false ∧ skip ≠ .closing) (hemit : ∀ it, (emit it).over = false ∧ emit it ≠ .closing)
    (h : { s with rxMsg := rxMsg }.onChunk o.config chunk skip emit = (s', evs)) : Flow o s a s' evs := by
  have hexit : Exit o s a ↔ s.endsOn o.config (.chunk chunk) := by
    rcases ha with rfl | rfl <;> simp [Exit, hm]
  have hrefuses : refuses o s a ↔ (s.refusal? o.config (.chunk chunk)).isSome := by
    rcases ha with rfl | rfl <;> simp [refuses, hm]
  unfold State.onChunk at h
  dsimp only at h
  split at h
  · rename_i heq
    split at h <;> rename_i hit <;> cases h
    · exact .goes (hemit _).1 (hemit _).2 (by simp)
    · refine .returns (hexit.2 ?_) rfl (fun e _ => hrefuses.2 ?_) (by simp)
      · simp [State.endsOn, heq, hit]
      · simp [State.refusal?, heq, hit]
  · cases h
    exact .goes hskip.1 hskip.2 (by simp)
  · rename_i heq
    cases h
    exact .returns (hexit.2 (by simp [State.endsOn, heq])) rfl (by simp) (by simp)

theorem loopStep_flow {a : LoopAction} (h : loopStep o s a = some (s', evs)) : Flow o s a s' evs := by
  cases a with
  | joined =>
    simp only [loopStep] at h
    split at h <;> cases h
    · exact .goes rfl (by simp) (by simp)
    all_goals
      rename_i hpc
      refine .returns ?_ rfl (by simp) (by simp)
      show s.resume.pc ≠ .registered
      rw [hpc]
      simp
  | recv =>
    simp only [loopStep] at h
    split at h
    · rename_i msg rxMsg hl hm
      cases msg with
      | chunk chunk =>
        exact onChunk_flow (.inl rfl) hm ⟨rfl, by simp⟩ (fun _ => ⟨rfl, by simp⟩) (Option.some.inj h)
      | metadata metadata =>
        simp only [State.onMsg] at h
        split at h <;> cases h
        · exact .goes rfl (by simp) (by simp)
        · exact .stays hl rfl rfl (by simp) (by simp)
      | chunkAckComplete complete =>
        cases h
        exact .stays hl rfl rfl (by simp) (by simp)
    · split at h <;> cases h
      exact .goes rfl (by simp) (by simp)
    · cases h
  | drain =>
    simp only [loopStep] at h
    split at h
    · rename_i msg rxMsg hl hm
      cases msg with
      | chunk chunk =>
        exact onChunk_flow (.inr rfl) hm ⟨rfl, by simp⟩ (fun _ => ⟨rfl, by simp⟩) (Option.some.inj h)
      | metadata metadata =>
        simp only [State.onDrained] at h
        split at h
        · split at h <;> cases h <;> refine .goes ?_ ?_ (by simp) <;> dsimp only <;> split <;> simp [LoopPc.over]
        · cases h
          exact .stays hl rfl rfl (by simp) (by simp)
      | chunkAckComplete complete =>
        cases h
        exact .stays hl rfl rfl (by simp) (by simp)
    · cases h
      exact .goes rfl (by simp) (by simp)
    · cases h
  | connEnd =>
    simp only [loopStep] at h
    split at h
    · split at h
      · rename_i hend
        split at h <;> rename_i hcon <;> cases h
        · exact .goes rfl (by simp) (by simp)
        · exact .returns ⟨hend, by simpa using hcon⟩ rfl (by simp) (by simp)
      · cases h
        exact .goes rfl (by simp) (by simp)
    · cases h
  | closeResponded =>
    simp only [loopStep] at h
    split at h <;> cases h
    exact .returns trivial rfl (by simp) (by simp)
  | exit | storeCause =>
    simp only [loopStep] at h
    split at h <;> rename_i hl <;> cases h <;> exact .returned (by rw [hl]; rfl) rfl (by simp)
  | cancelled =>
    simp only [loopStep] at h
    split at h
    · split at h <;> cases h
      exact .goes rfl (by simp) (by simp)
    · cases h
  | completeDone | completeTimedOut =>
    simp only [loopStep] at h
    split at h
    · split at h <;> cases h
      exact .requests rfl
    · cases h
  | ackInterval =>
    simp only [loopStep] at h
    split at h <;> cases h
    · exact .goes rfl (by simp) (by simp)
    · rename_i hl _
      exact .stays hl rfl rfl (by simp) (by simp)
  | next | drainNext | ackAfterDrain =>
    simp only [loopStep] at h
    split at h
    · split at h <;> first
        | (cases h; exact .goes rfl (by simp) (by simp))
        | (split at h <;> cases h <;> exact .goes rfl (by simp) (by simp))
    · cases h
  | sent | metadataSent =>
    simp only [loopStep] at h
    split at h
    · split at h
      · cases h
        exact .goes rfl (by simp) (by simp)
      · split at h <;> cases h
        exact .goes rfl (by simp) (by simp)
    · cases h
  | wireSent =>
    simp only [loopStep] at h
    split at h <;> cases h <;> exact .goes rfl (by simp) (by simp)
  | completeRecv =>
    simp only [loopStep] at h
    split at h
    · rename_i hl _
      split at h <;> cases h
      exact .stays hl rfl rfl (by simp) (by simp)
    · rename_i hl _
      split at h <;> cases h
      exact .stays hl rfl rfl (by simp) (by simp)
    · split at h <;> cases h
      exact .requests rfl
    · cases h

/-- How the loop returns: an error is that of the reorderer. -/
theorem loopStep_exit {a : LoopAction} (h : loopStep o s a = some (s', evs)) (hno : s.loop.over = false)
    (ho : s'.loop.over) : Exit o s a ∧ ∀ e, s'.loop = .returned (.error e) → refuses o s a := by
  cases loopStep_flow h with
  | goes hgo =>
    rw [hgo] at ho
    cases ho
  | requests heq =>
    cases heq
    cases ho
  | returns hexit _ hrefuses => exact ⟨hexit, hrefuses⟩
  | returned hover =>
    rw [hno] at hover
    cases hover

theorem loopStep_over {a : LoopAction} (h : loopStep o s a = some (s', evs)) (hno : s.loop.over = false)
    (ho : s'.loop.over) : Exit o s a := (loopStep_exit h hno ho).1

/-! ### The slot -/

theorem slot_onMsg (msg : ReceivableDownstreamMsg) : (s.onMsg config msg).1.slot = s.slot := by
  cases msg with
  | chunk chunk => exact onChunk_rest.1
  | metadata metadata =>
    simp only [State.onMsg]
    split <;> rfl
  | chunkAckComplete complete => rfl

theorem slot_onDrained (msg : ReceivableDownstreamMsg) : (s.onDrained o msg).1.slot = s.slot := by
  cases msg with
  | chunk chunk => exact onChunk_rest.1
  | metadata metadata =>
    simp only [State.onDrained]
    split
    · split <;> rfl
    · rfl
  | chunkAckComplete complete => rfl

/-- The loop touches the slot only with the answer to the close request. -/
theorem loopStep_slot {a : LoopAction} (h : loopStep o s a = some (s', evs)) :
    s'.slot = s.slot ∧ (∀ result, a ≠ .closeResponded result) ∨
      ∃ answer, s'.slot = (s.sendResult answer).slot := by
  cases a with
  | closeResponded result =>
    simp only [loopStep] at h
    split at h <;> cases h
    exact .inr ⟨_, rfl⟩
  | recv =>
    refine .inl ⟨?_, by simp⟩
    simp only [loopStep] at h
    split at h
    · rename_i msg rxMsg hl hm
      obtain rfl := (Prod.mk.inj (Option.some.inj h)).1
      exact slot_onMsg msg
    · split at h <;> cases h
      rfl
    · cases h
  | drain =>
    refine .inl ⟨?_, by simp⟩
    simp only [loopStep] at h
    split at h
    · rename_i msg rxMsg hl hm
      obtain rfl := (Prod.mk.inj (Option.some.inj h)).1
      exact slot_onDrained msg
    · cases h
      rfl
    · cases h
  | completeRecv =>
    refine .inl ⟨?_, by simp⟩
    simp only [loopStep] at h
    split at h
    · split at h <;> cases h
      rfl
    · split at h <;> cases h
      rfl
    · split at h <;> cases h
      rfl
    · cases h
  | _ => exact .inl ⟨(loopStep_rest h rfl).1, by simp⟩

end Iscp.Downstream
