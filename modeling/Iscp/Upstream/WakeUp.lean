import Iscp.Upstream.Delivery
import Iscp.Upstream.Flush
import Iscp.Upstream.Points

/-!
# No lost wake-up

A write that brings the buffer to the threshold of the flush policy leaves a permit in `notify_flush`. The
size it compares is the one it has made under the lock, and the permit is used up only by a select that
takes the buffer next; so as long as the stream is not cancelled, a buffer at the threshold has its permit
or is about to get it from the write that has filled it.
-/

namespace Iscp

/-- The payload bytes from which on a buffer is to be flushed. -/
def FlushPolicy.threshold? : FlushPolicy → Option Nat
  | immediately => some 0
  | bufferSizeOnly bufferSize => some bufferSize
  | intervalOrBufferSize _ bufferSize => some bufferSize
  | _ => Option.none

theorem FlushPolicy.needFlush_of_threshold {p : FlushPolicy} {b size : Nat} (hb : p.threshold? = some b)
    (hs : b ≤ size) : p.needFlush size = true := by
  cases p <;> simp_all [threshold?, needFlush]

/-- The payload bytes in a buffer. -/
def bufferedBytes (dpgs : List DataPointGroup) : Nat := (dpgs.map fun dpg => payloadSize dpg.dataPoints).sum

namespace Upstream

variable {o : Opened} {config : UpstreamConfig} {s s' : State} {log evs : List Event}

/-! ### The size and the permit -/

structure WakeInv (config : UpstreamConfig) (s : State) : Prop where
  size : s.state.bufferPayloadSize = bufferedBytes s.state.dataPointsBuffer
  pending : s.state.dataPointsBuffer ≠ [] → config.flushPolicy.needFlush s.state.bufferPayloadSize = true →
    s.ct = false → s.notify = true ∨ s.app = .written s.state.bufferPayloadSize ∨
      s.app = .writeChecked s.state.bufferPayloadSize

/-- While no write is under way, the permit is there. -/
theorem WakeInv.notify (h : WakeInv config s)
    (happ : ∀ size, s.app ≠ .written size ∧ s.app ≠ .writeChecked size)
    (hne : s.state.dataPointsBuffer ≠ [])
    (hneed : config.flushPolicy.needFlush s.state.bufferPayloadSize = true) (hct : s.ct = false) :
    s.notify = true := by
  rcases h.pending hne hneed hct with hn | hw | hw
  · exact hn
  · exact absurd hw (happ _).1
  · exact absurd hw (happ _).2

theorem take_emptied {f f' : UpstreamFlusher} {st st' : UpstreamState} {order : TakeOrder}
    {streamIdAlias : UInt32} {t : Option UpstreamFlusher.Taken}
    (h : f.take order streamIdAlias st = (t, f', st')) :
    st'.dataPointsBuffer = [] ∧ st'.bufferPayloadSize = 0 := by
  by_cases hb : st.dataPointsBuffer = []
  · rw [UpstreamFlusher.take_of_nil hb] at h
    cases h
    exact ⟨hb, rfl⟩
  · simp only [UpstreamFlusher.take, UpstreamFlusher.takeChunk, List.isEmpty_iff, hb, ↓reduceIte,
      Prod.mk.injEq] at h
    obtain ⟨-, -, rfl⟩ := h
    exact ⟨rfl, rfl⟩

/-- The loop uses up a permit only where it takes the buffer. -/
theorem LoopStep.notify {a : LoopAction} (h : LoopStep config s a s' evs) :
    s'.notify = s.notify ∨ s'.state.dataPointsBuffer = [] := by
  cases h with
  | flushOffline _ ht | flushEmpty _ _ ht | flushChunk _ _ ht | discard _ _ ht | processRemaining _ ht =>
    exact .inr ht.buffer
  | resendFailed | recover =>
    obtain ⟨resume, loop, he, -⟩ := recover_cases config s _
    rw [he]
    exact .inl rfl
  | offlineFlushed | flushed | flushedLast | flushFailed | closeDone =>
    unfold State.maySend
    split <;> exact .inl rfl
  | _ => exact .inl rfl

theorem loopStep_size {a : LoopAction} (h : loopStep config s a = some (s', evs)) :
    s'.state.dataPointsBuffer = [] ∧ s'.state.bufferPayloadSize = 0 ∨ s'.state = s.state := by
  cases loopStep_flusher h with
  | take ht => exact .inl (take_emptied ht)
  | ack hs => rw [hs]; exact .inr rfl
  | same _ hs => exact .inr hs

theorem WakeInv.loopStep {a : LoopAction} (h : WakeInv config s)
    (hs : loopStep config s a = some (s', evs)) : WakeInv config s' := by
  have hl := loopStep_step hs
  obtain ⟨happ, -, hct⟩ := hl.keeps
  rcases loopStep_size hs with ⟨hb, hsize⟩ | hst
  · exact ⟨by rw [hb, hsize]; rfl, fun hne => absurd hb hne⟩
  · refine ⟨by rw [hst]; exact h.size, fun hne hneed hct' => ?_⟩
    have hnot : s'.notify = s.notify := hl.notify.resolve_right hne
    rw [hst] at hne hneed ⊢
    rw [hnot, happ]
    refine h.pending hne hneed ?_
    by_contra hc
    rw [hct (by simpa using hc)] at hct'
    cases hct'

theorem WakeInv.appStep {a : AppAction} (h : WakeInv config s)
    (hs : AppStep config s a s' evs) : WakeInv config s' := by
  cases hs with
  | write =>
    refine ⟨?_, fun _ _ _ => .inr (.inl rfl)⟩
    simp [bufferedBytes, h.size]
  | writeRefused _ hct =>
    refine ⟨h.size, fun _ _ hc => ?_⟩
    have hc : s.ct = false := hc
    rw [hc] at hct
    cases hct
  | writeChecked ha =>
    refine ⟨h.size, fun hne hneed hc => ?_⟩
    rcases h.pending hne hneed hc with hn | hw | hw
    · exact .inl hn
    · rw [ha] at hw
      cases hw
      exact .inr (.inr rfl)
    · rw [ha] at hw
      cases hw
  | writeNotify ha =>
    refine ⟨h.size, fun hne hneed hc => .inl ?_⟩
    rcases h.pending hne hneed hc with hn | hw | hw
    · simp [hn]
    · rw [ha] at hw
      cases hw
    · -- The size that the write compares is still the buffer's.
      rw [ha] at hw
      cases hw
      simp [hneed]
  | flushNotify => exact ⟨h.size, fun _ _ _ => .inl rfl⟩
  | closeCancel => exact ⟨h.size, fun _ _ hc => by cases hc⟩
  | flushRefused => exact h
  | flushChecked ha | flushStore ha | close ha | closeSkipped ha | closeChecked ha | closeStore ha
  | flushReceived ha | closeReceived ha | closeTimedOut ha =>
    exact ⟨h.size, fun hne hneed hc => .inl (h.notify (by simp [ha]) hne hneed hc)⟩
  | drop ha =>
    rcases ha with ha | ha <;>
      exact ⟨h.size, fun hne hneed hc => .inl (h.notify (by simp [ha]) hne hneed hc)⟩

theorem wakeInv {C : List Event → State → Action → Prop} (h : o.machine.Exec C log s) :
    WakeInv o.config s := by
  refine h.invariant (I := fun _ s => WakeInv o.config s) ⟨rfl, fun hne => absurd rfl hne⟩ ?_
  intro log s a s' evs _ hi _ ha
  have ha : step o.config s a = some (s', evs) := ha
  cases step_step ha with
  | loop => exact hi.loopStep ha
  | app => exact hi.appStep (appStep_step ha)
  | resume | wire => exact ⟨hi.size, hi.pending⟩
  | cancel => exact ⟨hi.size, fun _ _ hc => by cases hc⟩

/-! ### Waiting selects -/

/-- A group is in the buffer that has been pushed since the last take. -/
theorem buffer_ne_nil {C : List Event → State → Action → Prop} {pre post : List Event}
    {dpg : DataPointGroup} (h : o.machine.Exec C (pre ++ Event.pushed dpg :: post) s) (hpost : issued post = []) :
    s.state.dataPointsBuffer ≠ [] := by
  have hacc := account h
  have hfirst : removed pre <+: pushes pre := by
    refine removed_prefix (f := o.init.flusher) fun pre' e post' hl => ?_
    exact hacc.took pre' e (post' ++ Event.pushed dpg :: post) (by simp [hl])
  intro hnil
  have hlen := congrArg List.length hacc.pushes
  have hpush : pushes (pre ++ Event.pushed dpg :: post) = pushes pre ++ dpg :: pushes post := by
    simp [pushes, Event.pushed?]
  have hrem : removed (pre ++ Event.pushed dpg :: post) = removed pre := by
    rw [List.append_cons, removed_append, removed_append, removed_of_issued_nil hpost]
    simp [removed, Event.removed]
  rw [hpush, hrem, hnil] at hlen
  have := hfirst.length_le
  simp at hlen
  omega

theorem flush_of_notify {order : TakeOrder} (hl : s.loop = .offline ∨ s.loop = .flushLoop)
    (hn : s.notify = true) : ∃ s' evs, step config s (.loop (.flush .notified order)) = some (s', evs) ∧
      s'.state.dataPointsBuffer = [] := by
  have hw : s.wake config .notified = some { s with notify := false } := by simp [State.wake, hn]
  rcases hl with hl | hl
  · simp only [step, Upstream.loopStep, hl, hw]
    exact ⟨_, _, if_neg (by simp), (take_take rfl).buffer⟩
  · simp only [step, Upstream.loopStep, hl, hw]
    split <;> rename_i ht <;> exact ⟨_, _, rfl, (take_take ht).buffer⟩

/-- In every run: where the loop waits, no write is under way and the stream is not cancelled, a buffer
written to since the last take and at the policy's threshold has a permit, with which the select can take
it. -/
theorem no_lost_wakeup (o : Opened) {pre post : List Event} {dpg : DataPointGroup} {b : Nat}
    (h : o.machine.Run (pre ++ .pushed dpg :: post) s) (hpost : issued post = [])
    (hb : o.config.flushPolicy.threshold? = some b) (hct : s.ct = false)
    (happ : ∀ size, s.app ≠ .written size ∧ s.app ≠ .writeChecked size)
    (hl : s.loop = .offline ∨ s.loop = .flushLoop) (hsize : b ≤ bufferedBytes s.state.dataPointsBuffer) :
    s.notify = true ∧ ∀ order, ∃ s' evs,
      o.machine.step s (.loop (.flush .notified order)) = some (s', evs) ∧
        s'.state.dataPointsBuffer = [] := by
  have hinv := wakeInv h
  rw [← hinv.size] at hsize
  have hneed := FlushPolicy.needFlush_of_threshold hb hsize
  have hn := hinv.notify happ (buffer_ne_nil h hpost) hneed hct
  exact ⟨hn, fun order => flush_of_notify hl hn⟩

/-- A stream that flushes from three bytes on. -/
def sizedOpened : Opened where
  config := { flushPolicy := .bufferSizeOnly 3 }
  conn := 0
  streamIdAlias := 1
  resumeToken := "a"

/-- The second of two writes comes to the threshold while the loop processes an ack. -/
theorem no_lost_wakeup_sized :
    ∃ log s, sizedOpened.machine.Run log s ∧ s.loop = .flushLoop ∧
      bufferedBytes s.state.dataPointsBuffer = 4 ∧
      (s.notify = true ∧ ∀ order, ∃ s' evs,
        sizedOpened.machine.step s (.loop (.flush .notified order)) = some (s', evs) ∧
          s'.state.dataPointsBuffer = []) := by
  obtain ⟨log, s, h, hlog, hpost, hct, happ, hl, hsize⟩ := Machine.Exec.exists_of_any
    (M := sizedOpened.machine) (C := fun _ _ _ => True) (startRun ++
      ([.app (.write ⟨⟨"a", "t"⟩, [⟨0, [7, 8]⟩]⟩), .app .writeCheck, .app .writeNotify,
        .app (.write ⟨⟨"a", "t"⟩, [⟨1, [9, 10]⟩]⟩), .loop (.ack ⟨1, []⟩), .app .writeCheck,
        .app .writeNotify] : List Action))
    (P := fun log s => log = log.take (log.length - 2) ++
        .pushed ⟨⟨"a", "t"⟩, [⟨1, [9, 10]⟩]⟩ :: log.drop (log.length - 1) ∧
      issued (log.drop (log.length - 1)) = [] ∧ s.ct = false ∧ s.app = .idle ∧ s.loop = .flushLoop ∧
      bufferedBytes s.state.dataPointsBuffer = 4)
    (by decide +kernel)
  refine ⟨log, s, h, hl, hsize, ?_⟩
  rw [hlog] at h
  exact no_lost_wakeup sizedOpened h hpost rfl hct (by simp [happ]) (.inr hl) (by rw [hsize]; decide)

end Upstream
end Iscp
