import Iscp.Upstream.Steps
import Iscp.Lib.Progress

/-!
# How a cancelled upstream ends

Wherever the loop of an upstream waits, it looks at its token, or the wait has an end of its own; so a cancelled
upstream comes to its end whatever the application does.
-/

namespace Iscp.Upstream

variable {o : Opened} {config : UpstreamConfig} {s s' : State} {log evs : List Event}

/-- How far it is from here to the end, if no chunk is stored. A cancellation is taken notice of in the flush loop. -/
def LoopPc.rank : LoopPc → Nat
  | .exited => 0
  | .remaining => 1
  | .returned => 2
  | .lost | .closed _ => 3
  | .closing => 4
  | .closeRequest => 5
  | .waitAck => 6
  | .flushed _ true => 7
  | .sending _ true => 8
  | .flushLoop => 9
  | .flushed _ false => 10
  | .sending _ false => 11
  | .resending todo => 10 + todo.length
  | .afterResume => 11
  | .offline => 12
  | .offlineFlushed => 13

/-- Whether the loop may still send again what is stored. -/
def LoopPc.resends : LoopPc → Bool
  | .afterResume | .offline | .offlineFlushed => true
  | _ => false

/-- A flush for which there is a permit stores a chunk. -/
def State.left (s : State) : Nat :=
  s.loop.rank + (if s.loop.resends then s.flusher.storage.chunks.size else 0) + (if s.notify then 3 else 0) +
    if s.resume.running then 1 else 0

/-- The steps that the loop takes without an ack, a connection, a timer or the application. -/
def Action.internal : Action → Bool
  | .loop (.flush .interval _) | .loop (.ack _) => false
  | .loop _ => true
  | .resume .cancelled => true
  | _ => false

/-- A flush stores one chunk at most, and has nothing to do with the resume loop. -/
theorem Take.size_le {site : TakeSite} {c : Option Message.UpstreamChunk} (h : Take site s s' c evs) :
    s'.flusher.storage.chunks.size ≤ s.flusher.storage.chunks.size + 1 ∧ s'.notify = s.notify ∧ s'.resume = s.resume ∧
      s'.ct = s.ct := by
  cases h with
  | empty => exact ⟨Nat.le_succ _, rfl, rfl, rfl⟩
  | found ht =>
    refine ⟨?_, rfl, rfl, rfl⟩
    rw [ht.chunks]
    split
    · exact Std.ExtTreeMap.size_insert_le
    · exact Nat.le_succ _

theorem maySend_same (result : Except Error Unit) : (s.maySend result).flusher = s.flusher ∧
    (s.maySend result).notify = s.notify ∧ (s.maySend result).resume = s.resume ∧ (s.maySend result).ct = s.ct := by
  unfold State.maySend
  split <;> exact ⟨rfl, rfl, rfl, rfl⟩

/-- A step that sees nothing of the permit and of the resume loop, and after which nothing more is stored that may be sent
again. -/
theorem left_lt {loop : LoopPc} (hl : s.loop = loop) (hs : s'.loop.resends = false ∨ loop.resends ∧ s'.flusher = s.flusher)
    (hn : s'.notify = s.notify) (hr : s'.resume = s.resume) (hrank : s'.loop.rank < loop.rank) : s'.left < s.left := by
  rw [State.left, State.left, hn, hr, hl]
  have hsize : (if s'.loop.resends then s'.flusher.storage.chunks.size else 0) ≤
      if loop.resends then s.flusher.storage.chunks.size else 0 := by
    rcases hs with hs | ⟨hloop, hf⟩
    · rw [hs]
      exact Nat.zero_le _
    · rw [hloop, hf]
      split
      · exact le_refl _
      · exact Nat.zero_le _
  omega

theorem flush_left {wake : Wake} {order : TakeOrder} (h : loopStep config s (.flush wake order) = some (s', evs))
    (hw : wake ≠ .interval) : s'.left < s.left ∧ s'.ct = s.ct := by
  simp only [loopStep] at h
  split at h
  · rename_i s₁ hl hwake
    split at h
    · cases h
    · rename_i hne
      cases wake with
      | interval => exact absurd rfl hw
      | cancelled => exact absurd rfl hne
      | notified =>
        simp only [State.wake, Option.ite_none_right_eq_some, Option.some.injEq] at hwake
        obtain ⟨hnotify, rfl⟩ := hwake
        rcases ht : State.take .offline order { s with notify := false } with ⟨c, s₂, es⟩
        rw [ht] at h
        cases h
        obtain ⟨hsize, hn, hr, hct⟩ := (take_take ht).size_le
        refine ⟨?_, hct⟩
        rw [State.left, State.left, hl, hnotify]
        simp only [hn, hr]
        simp only [LoopPc.rank, LoopPc.resends, Bool.false_eq_true, ↓reduceIte] at hsize ⊢
        omega
  · rename_i s₁ hl hwake
    have hflush {s₂ : State} {c : Option Message.UpstreamChunk} {es : List Event} {loop : LoopPc}
        (ht : s₁.take .flushLoop order = (c, s₂, es)) (hloop : loop.resends = false)
        (hrank : loop.rank ≤ if wake = .cancelled then 8 else 11) :
        State.left { s₂ with loop := loop } < s.left ∧ s₂.ct = s.ct := by
      obtain ⟨-, hn, hr, hct⟩ := (take_take ht).size_le
      cases wake with
      | interval => exact absurd rfl hw
      | cancelled =>
        simp only [State.wake, Option.ite_none_right_eq_some, Option.some.injEq] at hwake
        obtain ⟨-, rfl⟩ := hwake
        refine ⟨?_, hct⟩
        rw [State.left, State.left, hl]
        simp only [hn, hr, hloop]
        simp only [LoopPc.rank, LoopPc.resends, Bool.false_eq_true, ↓reduceIte] at hrank ⊢
        omega
      | notified =>
        simp only [State.wake, Option.ite_none_right_eq_some, Option.some.injEq] at hwake
        obtain ⟨hnotify, rfl⟩ := hwake
        refine ⟨?_, hct⟩
        rw [State.left, State.left, hl, hnotify]
        simp only [hn, hr, hloop]
        simp only [LoopPc.rank, LoopPc.resends, Bool.false_eq_true, reduceCtorEq, ↓reduceIte] at hrank ⊢
        omega
    split at h <;> rename_i ht <;> cases h
    · refine hflush ht rfl ?_
      cases wake <;> simp [LoopPc.rank]
    · refine hflush ht rfl ?_
      cases wake <;> simp [LoopPc.rank]
  · cases h

theorem recover_of_ct (hct : s.ct) (b : Bool) : s.recover config b = { s with isConnected := false, loop := .returned } := by
  rw [State.recover, if_pos (.inr hct)]

/-- With the token cancelled the loop does not start over, and every step leaves less to do. -/
theorem loopStep_left {a : LoopAction} (h : loopStep config s a = some (s', evs)) (hct : s.ct)
    (ha : (Action.loop a).internal) : s'.left < s.left ∧ s'.ct := by
  cases a with
  | flush wake order =>
    have hw : wake ≠ .interval := fun he => by rw [he] at ha; cases ha
    obtain ⟨hlt, hsame⟩ := flush_left h hw
    exact ⟨hlt, hsame.trans hct⟩
  | ack => cases ha
  | flushDone =>
    have hmay {loop loop' : LoopPc} {result : Except Error Unit} (hl : s.loop = loop)
        (hloop : loop'.resends = false ∨ loop.resends) (hrank : loop'.rank < loop.rank) :
        State.left { s.maySend result with loop := loop' } < s.left ∧ (s.maySend result).ct := by
      obtain ⟨hf, hn, hr, hsame⟩ := maySend_same (s := s) result
      exact ⟨left_lt hl (hloop.imp_right fun h => ⟨h, hf⟩) hn hr hrank, hsame.trans hct⟩
    simp only [loopStep] at h
    split at h <;> rename_i hl <;> cases h
    · exact hmay hl (.inr rfl) (by simp [LoopPc.rank])
    · rename_i close
      cases close <;> exact hmay hl (.inl rfl) (by simp [LoopPc.rank])
    · rename_i close
      cases close with
      | true => exact hmay hl (.inl rfl) (by simp [LoopPc.rank])
      | false =>
        refine hmay hl (.inl ?_) ?_
        · split <;> rfl
        · split <;> simp [LoopPc.rank]
  | resumedCallbackDone order =>
    simp only [loopStep] at h
    split at h
    · rename_i hl
      split at h
      · cases h
        refine ⟨?_, hct⟩
        rw [State.left, State.left, hl]
        simp only [LoopPc.rank, LoopPc.resends, UpstreamStorage.iterChunks, List.length_map, Std.ExtTreeMap.length_toList,
          Bool.false_eq_true, ↓reduceIte]
        omega
      · rcases ht : State.take .afterResume order s with ⟨c, s₂, es⟩
        rw [ht] at h
        cases h
        obtain ⟨-, hn, hr, hsame⟩ := (take_take ht).size_le
        exact ⟨left_lt hl (.inl rfl) hn hr (by simp [LoopPc.rank]), hsame.trans hct⟩
    · cases h
  | sent result =>
    simp only [loopStep] at h
    split at h
    · rename_i hl
      cases h
      exact ⟨left_lt hl (.inl rfl) rfl rfl (by simp [LoopPc.rank]), hct⟩
    · rename_i hl
      rw [recover_of_ct hct] at h
      cases h
      exact ⟨left_lt hl (.inl rfl) rfl rfl (by simp [LoopPc.rank]; omega), hct⟩
    · rename_i chunk close hl
      cases h
      cases close <;> exact ⟨left_lt hl (.inl rfl) rfl rfl (by simp [LoopPc.rank]), hct⟩
    · rename_i chunk close e hl
      cases h
      cases close <;> exact ⟨left_lt hl (.inl rfl) rfl rfl (by simp [LoopPc.rank]), hct⟩
    · cases h
  | processRemaining order =>
    simp only [loopStep] at h
    split at h
    · rename_i hl
      rcases ht : State.take .remaining order s with ⟨c, s₂, es⟩
      rw [ht] at h
      cases h
      obtain ⟨-, hn, hr, hsame⟩ := (take_take ht).size_le
      exact ⟨left_lt hl (.inl rfl) hn hr (by simp [LoopPc.rank]), hsame.trans hct⟩
    · cases h
  | closeDone =>
    simp only [loopStep] at h
    split at h <;> cases h
    rename_i hl
    obtain ⟨-, hn, hr, hsame⟩ := maySend_same (s := s) _
    exact ⟨left_lt hl (.inl rfl) hn hr (by simp [LoopPc.rank]), hsame.trans hct⟩
  | recover =>
    simp only [loopStep] at h
    split at h
    · rename_i hl
      rw [recover_of_ct hct] at h
      cases h
      exact ⟨left_lt hl (.inl rfl) rfl rfl (by simp [LoopPc.rank]), hct⟩
    · cases h
  | exit =>
    simp only [loopStep] at h
    split at h <;> cases h
    rename_i hl
    exact ⟨left_lt hl (.inl rfl) rfl rfl (by simp [LoopPc.rank]), rfl⟩
  | joined =>
    simp only [loopStep] at h
    split at h <;> cases h <;> rename_i hl _
    · exact ⟨left_lt hl (.inr ⟨rfl, rfl⟩) rfl rfl (by simp [LoopPc.rank]), hct⟩
    · exact ⟨left_lt hl (.inl rfl) rfl rfl (by simp [LoopPc.rank]), hct⟩
    · exact ⟨left_lt hl (.inl rfl) rfl rfl (by simp [LoopPc.rank]), hct⟩
  | resent | closeRequest | closeResponded =>
    simp only [loopStep] at h
    split at h <;> cases h
    rename_i hl
    exact ⟨left_lt hl (.inl rfl) rfl rfl (by simp [LoopPc.rank]), hct⟩
  | ackClosed =>
    simp only [loopStep] at h
    split at h <;> rename_i hl
    · cases h
      exact ⟨left_lt hl (.inl rfl) rfl rfl (by simp [LoopPc.rank]), hct⟩
    · split at h <;> cases h
      exact ⟨left_lt hl (.inl rfl) rfl rfl (by simp [LoopPc.rank]), hct⟩
    · cases h
  | ackWaited | ackTimedOut =>
    simp only [loopStep] at h
    split at h <;> rename_i hl
    · split at h <;> cases h
      exact ⟨left_lt hl (.inl rfl) rfl rfl (by simp [LoopPc.rank]), hct⟩
    · cases h

/-- Wherever the loop is, there is a step that it can take. -/
theorem exited_of_stuck (hct : s.ct) (h : ∀ a : Action, a.internal → step config s a = none) : s.loop = .exited := by
  have hloop (a : LoopAction) (ha : (Action.loop a).internal) : loopStep config s a = none := h (.loop a) ha
  cases hl : s.loop with
  | exited => rfl
  | offline =>
    have hj := hloop .joined rfl
    have hc : step config s (.resume .cancelled) = none := h _ rfl
    cases hp : s.resume.pc <;>
      simp [loopStep, step, Resume.step, Resume.waiting, hl, hp, hct] at hj hc
  | offlineFlushed =>
    have hd := hloop .flushDone rfl
    simp [loopStep, hl] at hd
  | afterResume =>
    have hd := hloop (.resumedCallbackDone .asIs) rfl
    simp only [loopStep, hl] at hd
    split at hd <;> cases hd
  | resending todo =>
    have hr := hloop .resent rfl
    have hs := hloop (.sent (.ok ())) rfl
    cases todo <;> simp [loopStep, hl] at hr hs
  | flushLoop =>
    have hf := hloop (.flush .cancelled .asIs) rfl
    simp only [loopStep, hl, State.wake, hct, ↓reduceIte] at hf
    split at hf <;> cases hf
  | sending chunk close =>
    have hs := hloop (.sent (.ok ())) rfl
    simp [loopStep, hl] at hs
  | flushed result close =>
    have hd := hloop .flushDone rfl
    cases result <;> simp [loopStep, hl] at hd
  | waitAck =>
    have hw := hloop .ackWaited rfl
    have ht := hloop .ackTimedOut rfl
    simp only [loopStep, hl] at hw ht
    split at hw
    · rename_i hawaited
      rw [if_pos hawaited] at ht
      cases ht
    · cases hw
  | closeRequest =>
    have hc := hloop .closeRequest rfl
    simp [loopStep, hl] at hc
  | closing =>
    have hc := hloop (.closeResponded (.ok ())) rfl
    simp [loopStep, hl] at hc
  | closed result =>
    have hd := hloop .closeDone rfl
    simp [loopStep, hl] at hd
  | lost =>
    have hr := hloop .recover rfl
    simp [loopStep, hl] at hr
  | returned =>
    have he := hloop .exit rfl
    simp [loopStep, hl] at he
  | remaining =>
    have hp := hloop (.processRemaining .asIs) rfl
    simp [loopStep, hl] at hp

theorem internal_left {a : Action} (h : step config s a = some (s', evs)) (hct : s.ct) (ha : a.internal) :
    s'.left < s.left ∧ s'.ct := by
  cases a with
  | loop a => exact loopStep_left h hct ha
  | resume a =>
    cases a with
    | cancelled =>
      simp only [step, Resume.step_cancelled] at h
      split at h
      · rename_i hrun
        cases h
        refine ⟨?_, hct⟩
        rw [State.left, State.left, hrun.2]
        exact Nat.lt_succ_self _
      · cases h
    | _ => cases ha
  | _ => cases ha

/-- Once an upstream is cancelled every order of its loop's own steps comes to an end, and it ends with the loop
gone. -/
theorem cancelled_ends (hct : s.ct) : o.machine.Ends (fun a => a.internal = true) (fun s => s.loop = .exited) s :=
  .of_rank (I := fun s => s.ct = true) (fun _ _ _ _ hct ha hs => (internal_left hs hct ha).2)
    (fun _ _ _ _ hct ha hs => (internal_left hs hct ha).1) (fun _ hct hstuck => exited_of_stuck hct hstuck) hct

/-- A stream with a chunk that has not been acknowledged is cancelled. -/
theorem cancelled_ends_resending : ∃ log s, reliableOpened.machine.Run log s ∧ s.ct ∧ s.flusher.storage.iterChunks.length = 1 ∧
    reliableOpened.machine.Ends (fun a => a.internal = true) (fun s => s.loop = .exited) s := by
  obtain ⟨log, s, h, hct, hlen⟩ := Machine.Exec.exists_of_any (M := reliableOpened.machine) (C := fun _ _ _ => True)
    (resendRun 2 ++ [.cancel]) (P := fun _ s => s.ct ∧ s.flusher.storage.iterChunks.length = 1) (by decide +kernel)
  exact ⟨log, s, h, hct, hlen, cancelled_ends hct⟩

end Iscp.Upstream
