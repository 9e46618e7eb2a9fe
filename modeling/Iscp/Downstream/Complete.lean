import Iscp.Downstream.Steps

/-!
# Waiting for the last ack to be complete

The close phase waits until the greatest id that a `DownstreamChunkAckComplete` has brought reaches the id
of the last ack. That greatest id starts at 0, which is also the id of the first ack: if only that one was
issued, the loop waits for nothing.
-/

namespace Iscp.Downstream

variable {o : Opened} {s s' : State} {evs : List Event} {log : List UInt32} {a : Action}

/-- The id that a `DownstreamChunkAckComplete` brings. -/
def completeId? : ReceivableDownstreamMsg → Option UInt32
  | .chunkAckComplete complete => some complete.ackId
  | _ => none

/-- Where the loop takes the messages of its channel. -/
def receives : LoopAction → Option LoopPc
  | .recv => some .reading
  | .drain => some .draining
  | .completeRecv => some .waitComplete
  | _ => none

/-- The id of the `DownstreamChunkAckComplete` that a step takes from the stream's channel. -/
def completeOf (s : State) : Action → List UInt32
  | .loop a => if receives a = some s.loop then (s.rxMsg.head?.bind completeId?).toList else []
  | _ => []

/-- The greatest id so far, from `n` on. -/
def greatest (n : UInt32) (ids : List UInt32) : UInt32 :=
  ids.foldl (fun n id => if n < id then id else n) n

theorem ackIdComplete_checkChunkAckComplete (complete : Message.DownstreamChunkAckComplete) :
    (s.checkChunkAckComplete complete).ackIdComplete = greatest s.ackIdComplete [complete.ackId] := rfl

theorem ackIdComplete_onMsg {config : DownstreamConfig} (msg : ReceivableDownstreamMsg) :
    (s.onMsg config msg).1.ackIdComplete = greatest s.ackIdComplete (completeId? msg).toList := by
  cases msg with
  | chunk chunk => exact onChunk_rest.2
  | metadata metadata =>
    simp only [State.onMsg]
    split <;> rfl
  | chunkAckComplete complete => rfl

theorem ackIdComplete_onDrained (msg : ReceivableDownstreamMsg) :
    (s.onDrained o msg).1.ackIdComplete = greatest s.ackIdComplete (completeId? msg).toList := by
  cases msg with
  | chunk chunk => exact onChunk_rest.2
  | metadata metadata =>
    simp only [State.onDrained]
    split
    · split <;> rfl
    · rfl
  | chunkAckComplete complete => rfl

@[simp] theorem ackIdComplete_sendResult (r : Except Error Unit) :
    (s.sendResult r).ackIdComplete = s.ackIdComplete := by
  unfold State.sendResult
  split <;> rfl

theorem ackIdComplete_loopStep {a : LoopAction} (h : loopStep o s a = some (s', evs)) :
    s'.ackIdComplete = greatest s.ackIdComplete (completeOf s (.loop a)) := by
  cases a with
  | recv =>
    simp only [loopStep] at h
    split at h
    · rename_i msg rxMsg hl hm
      obtain rfl := Prod.mk.inj (Option.some.inj h) |>.1
      simp only [completeOf, receives, hl, hm, ↓reduceIte, List.head?_cons, Option.bind_some]
      exact ackIdComplete_onMsg msg
    · rename_i hl hm
      split at h <;> cases h
      simp [completeOf, hm, greatest]
    · cases h
  | drain =>
    simp only [loopStep] at h
    split at h
    · rename_i msg rxMsg hl hm
      obtain rfl := Prod.mk.inj (Option.some.inj h) |>.1
      simp only [completeOf, receives, hl, hm, ↓reduceIte, List.head?_cons, Option.bind_some]
      exact ackIdComplete_onDrained msg
    · rename_i hl hm
      cases h
      simp [completeOf, hm, greatest]
    · cases h
  | completeRecv =>
    simp only [loopStep] at h
    split at h
    · rename_i complete rxMsg hl hm
      split at h <;> cases h
      simp [completeOf, receives, hl, hm, completeId?, ackIdComplete_checkChunkAckComplete]
    · rename_i msg rxMsg hno hl hm
      split at h <;> cases h
      have hno : completeId? msg = none := by
        cases msg with
        | chunkAckComplete complete => exact (hno complete rfl).elim
        | chunk | metadata => rfl
      simp [completeOf, hm, hno, greatest]
    · rename_i hl hm
      split at h <;> cases h
      simp [completeOf, hm, greatest]
    · cases h
  | closeResponded result =>
    simp only [loopStep] at h
    split at h <;> cases h
    exact ackIdComplete_sendResult _
  | _ => exact (loopStep_rest h rfl).2

theorem ackIdComplete_step (h : step o s a = some (s', evs)) :
    s'.ackIdComplete = greatest s.ackIdComplete (completeOf s a) := by
  cases a with
  | loop a => exact ackIdComplete_loopStep h
  | app a =>
    simp only [step] at h
    cases appStep_step h <;> rfl
  | _ =>
    obtain ⟨⟨_, _, _, _, _, rfl⟩, -⟩ := step_around h (by simp) (by simp)
    rfl

theorem le_greatest {n : UInt32} {ids : List UInt32} : n ≤ greatest n ids ∧
    (∀ id ∈ ids, id ≤ greatest n ids) ∧ (greatest n ids = n ∨ greatest n ids ∈ ids) := by
  induction ids generalizing n with
  | nil => exact ⟨UInt32.le_refl _, nofun, .inl rfl⟩
  | cons id ids ih =>
    obtain ⟨hle, hall, hmem⟩ := ih (n := if n < id then id else n)
    have hn : n ≤ if n < id then id else n := by
      split
      · exact UInt32.le_of_lt ‹_›
      · exact UInt32.le_refl _
    have hid : id ≤ if n < id then id else n := by
      split
      · exact UInt32.le_refl _
      · exact UInt32.not_lt.1 ‹_›
    refine ⟨UInt32.le_trans hn hle, fun k hk => ?_, ?_⟩
    · rcases List.mem_cons.1 hk with rfl | hk
      · exact UInt32.le_trans hid hle
      · exact hall k hk
    · show greatest (if n < id then id else n) ids = n ∨ greatest (if n < id then id else n) ids ∈ id :: ids
      rcases hmem with hmem | hmem
      · rw [hmem]
        split
        · exact .inr (List.mem_cons_self ..)
        · exact .inl rfl
      · exact .inr (List.mem_cons_of_mem _ hmem)

/-- The greatest id so far is what the loop keeps, over all connections of the stream. -/
theorem ackIdComplete_eq (h : (o.machine.watch completeOf).Run log s) :
    s.ackIdComplete = greatest 0 log := by
  refine h.invariant (I := fun log s => s.ackIdComplete = greatest 0 log) rfl ?_
  intro log s a s' evs _ hi _ ha
  obtain ⟨rfl, es, hs⟩ := Machine.watch_step ha
  rw [ackIdComplete_step hs, hi, greatest, greatest, greatest, List.foldl_append]

/-- When the close phase stops waiting because it need not wait, a completion for the last ack, or for
a later one, was received exactly if the last ack's id is not 0 or any completion was received. -/
theorem complete_received_iff (o : Opened) (h : (o.machine.watch completeOf).Run log s)
    (hd : o.machine.step s (.loop .completeDone) = some (s', evs)) {lastIssued : UInt32}
    (hn : s.state.lastIssuedChunkAckId = some lastIssued) :
    (∃ id ∈ log, lastIssued ≤ id) ↔ lastIssued ≠ 0 ∨ log ≠ [] := by
  have hg := ackIdComplete_eq h
  have hle : lastIssued ≤ s.ackIdComplete := by
    have hd : loopStep o s .completeDone = some (s', evs) := hd
    simp only [loopStep] at hd
    split at hd
    · split at hd
      · cases hd
      · rename_i hno
        simpa [State.completeAwaited, hn] using hno
    · cases hd
  obtain ⟨-, hall, hmem⟩ := @le_greatest 0 log
  rw [← hg] at hall hmem
  constructor
  · rintro ⟨id, hid, -⟩
    exact .inr (List.ne_nil_of_mem hid)
  · intro hc
    rcases hmem with h0 | hmem
    · -- Nothing greater than 0 was received.
      rw [h0] at hle hall
      have hz : lastIssued = 0 := UInt32.le_antisymm hle (UInt32.zero_le)
      obtain ⟨id, hid⟩ := List.exists_mem_of_ne_nil _ (hc.resolve_left (not_not.2 hz))
      exact ⟨id, hid, by rw [hz]; exact UInt32.zero_le⟩
    · exact ⟨_, hmem, hle⟩

/-- One ack is sent, and then the stream is closed. -/
def ackRun (complete : List Action) : List Action :=
  startRun ++ receiveRun 0 ++ ([.loop .ackInterval, .loop (.wireSent (.ok ()))] : List Action) ++ complete ++
    ([.cancel, .loop .cancelled, .loop .drain, .loop .ackAfterDrain, .loop .connEnd] : List Action)

/-- The completion of the only ack comes before the close. -/
theorem complete_received_first :
    ∃ log s, (defaultOpened.machine.watch completeOf).Run log s ∧
      s.state.lastIssuedChunkAckId = some 0 ∧
      (defaultOpened.machine.step s (.loop .completeDone)).isSome ∧ ∃ id ∈ log, (0 : UInt32) ≤ id := by
  obtain ⟨log, s, h, hn, hs, hlog⟩ := Machine.Exec.exists_of_any
    (M := defaultOpened.machine.watch completeOf) (C := fun _ _ _ => True)
    (ackRun [.arrive (.chunkAckComplete ⟨1, 0, 1, "OK"⟩), .loop .recv])
    (P := fun log s => s.state.lastIssuedChunkAckId = some 0 ∧
      (defaultOpened.machine.step s (.loop .completeDone)).isSome ∧ log ≠ []) (by decide +kernel)
  obtain ⟨⟨s', evs⟩, hd⟩ := Option.isSome_iff_exists.1 hs
  exact ⟨log, s, h, hn, hs, (complete_received_iff defaultOpened h hd hn).2 (.inr hlog)⟩

/-- No completion comes, and the loop does not wait for one. -/
theorem complete_not_awaited :
    ∃ log s, (defaultOpened.machine.watch completeOf).Run log s ∧
      s.state.lastIssuedChunkAckId = some 0 ∧
      (defaultOpened.machine.step s (.loop .completeDone)).isSome ∧
      ¬ ∃ id ∈ log, (0 : UInt32) ≤ id :=
  Machine.Exec.exists_of_any (M := defaultOpened.machine.watch completeOf) (ackRun []) (by decide +kernel)

end Iscp.Downstream
