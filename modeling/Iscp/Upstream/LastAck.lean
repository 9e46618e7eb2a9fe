import Iscp.Upstream.NoLoss
import Iscp.Upstream.Points

/-!
# Waiting for the last ack

Before it asks for the close, the loop waits until the greatest number that an ack has named is the number
issued last. A reliable stream may still store other chunks then: the storage is not looked at.
-/

namespace Iscp.Upstream

variable {o : Opened} {config : UpstreamConfig} {s s' : State} {log evs : List Event}

/-- The wait for the last ack ends neither by `close_timeout` nor because the ack channel has closed. -/
def AwaitsAck (s : State) : Action → Prop
  | .loop .ackTimedOut => False
  | .loop .ackClosed => s.loop ≠ .waitAck
  | _ => True

instance (s : State) (a : Action) : Decidable (AwaitsAck s a) := by
  unfold AwaitsAck
  induction a using Action.casesOn with
  | loop a => induction a using LoopAction.casesOn <;> infer_instance
  | _ => infer_instance

/-- A result leaves the greatest number as it was, or makes it its own. -/
theorem lastReceived_processResult {st : UpstreamStorage} (r : Message.UpstreamChunkResult) :
    (st.processResult r).1.lastReceivedSequenceNumber = some r.sequenceNumber ∨
      (st.processResult r).1.lastReceivedSequenceNumber = st.lastReceivedSequenceNumber := by
  cases hl : st.lastReceivedSequenceNumber with
  | none =>
    refine .inl ?_
    simp only [UpstreamStorage.processResult, hl]
    split <;> rfl
  | some last =>
    by_cases hlt : last < r.sequenceNumber
    · refine .inl ?_
      simp only [UpstreamStorage.processResult, hl, if_pos hlt]
      split <;> rfl
    · refine .inr ?_
      simp only [UpstreamStorage.processResult, hl, if_neg hlt]
      split <;> rfl

theorem lastReceived_processResults {st : UpstreamStorage} {n : UInt32}
    {rs : List Message.UpstreamChunkResult}
    (h : (st.processResults rs).1.lastReceivedSequenceNumber = some n) :
    n ∈ rs.map (·.sequenceNumber) ∨ st.lastReceivedSequenceNumber = some n := by
  induction rs generalizing st with
  | nil => exact .inr h
  | cons r rs ih =>
    rw [List.map_cons, List.mem_cons]
    rcases ih h with hm | hr
    · exact .inl (.inr hm)
    · rcases lastReceived_processResult r with hl | hl
      · exact .inl (.inl (Option.some.inj (hr.symm.trans hl)))
      · exact .inr (hl.symm.trans hr)

theorem storage_takeChunk (order : TakeOrder) (streamIdAlias : UInt32) (f : UpstreamFlusher)
    (st : UpstreamState) : (f.takeChunk order streamIdAlias st).2.1.storage = f.storage := by
  simp only [UpstreamFlusher.takeChunk]
  split <;> rfl

theorem lastReceived_flusherTake (order : TakeOrder) (streamIdAlias : UInt32) (f : UpstreamFlusher)
    (st : UpstreamState) : (f.take order streamIdAlias st).2.1.storage.lastReceivedSequenceNumber =
      f.storage.lastReceivedSequenceNumber := by
  have hstorage := storage_takeChunk order streamIdAlias f st
  unfold UpstreamFlusher.take
  split
  · rename_i heq
    rw [heq] at hstorage
    simp only at hstorage
    simp only [UpstreamStorage.addChunk, hstorage]
    split <;> rfl
  · rename_i heq
    rw [heq] at hstorage
    simp only at hstorage ⊢
    rw [hstorage]

theorem lastReceived_loopStep {a : LoopAction} (h : loopStep config s a = some (s', evs)) {n : UInt32}
    (hn : s'.flusher.storage.lastReceivedSequenceNumber = some n) :
    .acked n ∈ evs ∨ s.flusher.storage.lastReceivedSequenceNumber = some n := by
  cases loopStep_flusher h with
  | @take site order t post ht =>
    have hlast := lastReceived_flusherTake order s.resume.streamIdAlias s.flusher s.state
    rw [ht] at hlast
    exact .inr (hlast.symm.trans hn)
  | @ack ack hs he =>
    subst hs he
    rcases lastReceived_processResults hn with hm | hl
    · simp only [State.processAck, List.mem_append, List.mem_map] at hm ⊢
      obtain ⟨r, hr, rfl⟩ := hm
      exact .inl (.inl ⟨r, hr, rfl⟩)
    · exact .inr hl
  | same hf =>
    rw [hf] at hn
    exact .inr hn

/-- The loop comes before the close request only from the wait for the last ack. -/
theorem LoopStep.waitAck {a : LoopAction} (h : LoopStep config s a s' evs) (hl : s'.loop = .closeRequest) :
    s.loop = .waitAck ∧ s'.state = s.state := by
  cases h with
  | acked hw => exact ⟨hw, rfl⟩
  | ack hw =>
    rw [processAck_loop] at hl
    rcases hw with hw | hw <;> rw [hw] at hl <;> cases hl
  | resendFailed | recover =>
    obtain ⟨resume, loop, he, hr⟩ := recover_cases config s _
    rw [he] at hl
    rcases hr with ⟨-, rfl⟩ | ⟨-, rfl⟩ <;> cases hl
  | _ => cases hl

theorem not_ackAwaited {a : LoopAction} (h : loopStep config s a = some (s', evs)) (hw : s.loop = .waitAck)
    (hl : s'.loop = .closeRequest) (hc : AwaitsAck s (.loop a)) : ¬ s.ackAwaited := by
  cases a with
  | ackWaited =>
    simp only [loopStep, hw] at h
    split at h
    · cases h
    · assumption
  | ackTimedOut => exact absurd hc id
  | ackClosed => exact absurd hw hc
  | ack ack =>
    simp only [loopStep, hw] at h
    split at h <;> cases h
    have hl : s.loop = .closeRequest := hl
    rw [hw] at hl
    cases hl
  | _ => simp [loopStep, hw] at h

/-- The greatest number received was received, and before the close request it is the last one. -/
structure LastAck (log : List Event) (s : State) : Prop where
  received : ∀ n, s.flusher.storage.lastReceivedSequenceNumber = some n → .acked n ∈ log
  acked : s.loop = .closeRequest →
    s.state.lastIssuedSequenceNumber = 0 ∨ .acked s.state.lastIssuedSequenceNumber ∈ log

theorem lastAck (h : o.machine.Exec (fun _ => AwaitsAck) log s) : LastAck log s := by
  refine h.invariant (I := LastAck) ⟨?_, ?_⟩ ?_
  · intro n hn
    cases hn
  · intro hl
    cases hl
  intro log s a s' evs _ hi hc ha
  have quiet (hf : s'.flusher = s.flusher)
      (hn : s'.state.lastIssuedSequenceNumber = s.state.lastIssuedSequenceNumber)
      (hl : s'.loop = s.loop) : LastAck (log ++ evs) s' := by
    refine ⟨fun n h => ?_, fun h => ?_⟩
    · exact List.mem_append_left _ (hi.received n (hf ▸ h))
    · rw [hn]
      exact (hi.acked (hl ▸ h)).imp_right (List.mem_append_left _)
  cases step_step ha with
  | loop hl =>
    refine ⟨fun n hn => ?_, fun hl' => ?_⟩
    · rw [List.mem_append]
      exact (lastReceived_loopStep ha hn).symm.imp_left (hi.received n)
    · obtain ⟨hw, hst⟩ := hl.waitAck hl'
      have hno := not_ackAwaited ha hw hl' hc
      rw [hst]
      by_cases h0 : s.state.lastIssuedSequenceNumber = 0
      · exact .inl h0
      · -- The loop no longer waits: the last number has been received.
        have hpos : 0 < s.state.lastIssuedSequenceNumber := UInt32.pos_iff_ne_zero.2 h0
        have hlast := not_not.1 fun hne => hno ⟨hpos, hne⟩
        exact .inr (List.mem_append_left _ (hi.received _ hlast))
  | app _ hs => exact quiet hs.flusher hs.lastIssued hs.loop
  | resume | wire | cancel => exact quiet rfl rfl rfl

/-- A reliable upstream whose wait for the last ack ends neither by the timeout nor with the ack channel asks
for the close only after an ack has named the number issued last, if any; it then stores exactly the
chunks that no ack has named since they were issued. -/
theorem close_request_last_acked (o : Opened) (hq : o.config.qos = .reliable)
    (h : o.machine.Exec (fun _ => AwaitsAck) log s)
    (hs : o.machine.step s (.loop .closeRequest) = some (s', evs)) :
    (s.state.lastIssuedSequenceNumber = 0 ∨ .acked s.state.lastIssuedSequenceNumber ∈ log) ∧
      ((issued log).length < 2 ^ 32 →
        ∀ chunk, chunk ∈ s.flusher.storage.iterChunks ↔ Unacked log chunk) := by
  refine ⟨(lastAck h).acked ?_, fun hlen chunk => (stored hq h hlen).mem_iterChunks⟩
  have hs : loopStep o.config s .closeRequest = some (s', evs) := hs
  simp only [loopStep] at hs
  split at hs
  · assumption
  · cases hs

/-- A chunk is issued and handed over. -/
def issueRun : List Action :=
  [.app (.write ⟨⟨"a", "t"⟩, [⟨0, [7]⟩]⟩), .app .writeCheck, .app .writeNotify,
    .loop (.flush .notified .asIs), .loop (.sent (.ok ())), .loop .flushDone]

/-- A reliable stream issues two chunks, is cancelled, and receives the acks `acks`. -/
def lastAckRun (acks : List Message.UpstreamChunkResult) : List Action :=
  startRun ++ ([.loop .resent] : List Action) ++ issueRun ++ issueRun ++
    ([.cancel, .loop (.flush .cancelled .asIs), .loop .flushDone, .loop (.ack ⟨1, acks⟩),
      .loop .ackWaited] : List Action)

/-- Both chunks are acknowledged, the second first. -/
theorem close_request_last_acked_swapped :
    ∃ log s, reliableOpened.machine.Exec (fun _ => AwaitsAck) log s ∧
      (reliableOpened.machine.step s (.loop .closeRequest)).isSome ∧
      (s.state.lastIssuedSequenceNumber = 0 ∨ .acked s.state.lastIssuedSequenceNumber ∈ log) ∧
      ∀ chunk, chunk ∈ s.flusher.storage.iterChunks ↔ Unacked log chunk := by
  obtain ⟨log, s, h, hs, hlen⟩ := Machine.Exec.exists_of_any (M := reliableOpened.machine)
    (C := fun _ => AwaitsAck) (lastAckRun [⟨2, 1, "OK"⟩, ⟨1, 1, "OK"⟩])
    (P := fun log s => (reliableOpened.machine.step s (.loop .closeRequest)).isSome ∧
      (issued log).length < 2 ^ 32) (by decide +kernel)
  obtain ⟨⟨s', evs⟩, hc⟩ := Option.isSome_iff_exists.1 hs
  obtain ⟨hlast, hstored⟩ := close_request_last_acked reliableOpened rfl h hc
  exact ⟨log, s, h, hs, hlast, hstored hlen⟩

/-- Only the second chunk is acknowledged, and the close is asked for while the first one is stored. -/
theorem close_request_unacked :
    ∃ log s, reliableOpened.machine.Exec (fun _ => AwaitsAck) log s ∧
      (reliableOpened.machine.step s (.loop .closeRequest)).isSome ∧
      s.flusher.storage.iterChunks.map (·.sequenceNumber) = [1] :=
  Machine.Exec.exists_of_any (lastAckRun [⟨2, 1, "OK"⟩]) (by decide +kernel)

end Iscp.Upstream
