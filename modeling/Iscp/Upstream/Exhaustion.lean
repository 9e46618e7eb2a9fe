import Iscp.Upstream.Delivery

/-!
# The last sequence number

The flush loop goes to the close request once it has seen the number `u32::MAX` issued. It looks after its
own flushes only: the flushes without a connection, the one after a registration and the last one take the
buffer whatever the counter is, and after `u32::MAX` the next chunk is number 0.
-/

namespace Iscp.Upstream

variable {o : Opened} {config : UpstreamConfig} {s s' : State} {log evs : List Event}

/-- The chunks are numbered 1, 2, 3, … as natural numbers, and none follows `u32::MAX`. -/
structure InOrder (log : List Event) : Prop where
  numbers : (issued log).map (·.sequenceNumber.toNat) = (List.range (issued log).length).map (· + 1)
  ne_zero : ∀ chunk ∈ issued log, chunk.sequenceNumber ≠ 0
  last : ∀ pre chunk post, issued log = pre ++ chunk :: post → chunk.sequenceNumber = 4294967295 → post = []

/-- The buffer is taken with data points in it only while a number is left. -/
def TakesBelowMax (config : UpstreamConfig) (s : State) : Action → Prop
  | .loop (.flush _ _) | .loop (.processRemaining _) =>
    s.state.lastIssuedSequenceNumber = 4294967295 → s.state.dataPointsBuffer = []
  | .loop (.resumedCallbackDone _) => config.qos ≠ .reliable →
    s.state.lastIssuedSequenceNumber = 4294967295 → s.state.dataPointsBuffer = []
  | _ => True

instance (config : UpstreamConfig) (s : State) (a : Action) : Decidable (TakesBelowMax config s a) := by
  unfold TakesBelowMax
  induction a using Action.casesOn with
  | loop a => induction a using LoopAction.casesOn <;> infer_instance
  | _ => infer_instance

/-! ### Chunks in order -/

namespace InOrder

theorem of_numbered (h : Numbered log s) (hl : (issued log).length < 2 ^ 32) : InOrder log := by
  have hn := h.number_toNat hl
  refine ⟨hn, fun chunk hc hz => ?_, fun pre chunk post hi hm => ?_⟩
  · have hm : chunk.sequenceNumber.toNat ∈ (issued log).map (·.sequenceNumber.toNat) :=
      List.mem_map_of_mem hc
    rw [hn, hz] at hm
    simp at hm
  · -- The number says how many chunks there are up to this one.
    have hget := congrArg (·[pre.length]?) hn
    simp only [List.getElem?_map, hi, List.length_append, List.length_cons] at hget
    rw [List.getElem?_append_right (Nat.le_refl _), List.getElem?_range (by omega)] at hget
    simp only [Nat.sub_self, List.getElem?_cons_zero, Option.map_some, Option.some.injEq, hm] at hget
    have : UInt32.toNat 4294967295 = 4294967295 := rfl
    rw [hi, List.length_append, List.length_cons] at hl
    rw [← List.length_eq_zero_iff]
    omega

/-- There are only so many numbers. -/
theorem length_lt (h : InOrder log) : (issued log).length < 2 ^ 32 := by
  by_contra hl
  have hm : 2 ^ 32 ∈ (issued log).map (·.sequenceNumber.toNat) := by
    rw [h.numbers]
    exact List.mem_map.2 ⟨2 ^ 32 - 1, List.mem_range.2 (by omega), rfl⟩
  obtain ⟨chunk, -, hc⟩ := List.mem_map.1 hm
  have := chunk.sequenceNumber.toNat_lt
  omega

end InOrder

theorem Take.below {site site' : TakeSite} {c : Option Message.UpstreamChunk} {dpgs : List DataPointGroup}
    {chunk : Message.UpstreamChunk} (h : Take site s s' c evs)
    (hc : s.state.lastIssuedSequenceNumber = 4294967295 → s.state.dataPointsBuffer = [])
    (hm : .took site' dpgs chunk ∈ evs) : s.state.lastIssuedSequenceNumber ≠ 4294967295 := by
  intro he
  cases h with
  | empty => cases hm
  | found ht => exact ht.nonempty (hc he)

theorem LoopStep.took_below {a : LoopAction} {site : TakeSite} {dpgs : List DataPointGroup}
    {chunk : Message.UpstreamChunk} (h : LoopStep config s a s' evs) (hc : TakesBelowMax config s (.loop a))
    (hm : .took site dpgs chunk ∈ evs) : s.state.lastIssuedSequenceNumber ≠ 4294967295 := by
  cases h with
  | flushOffline _ ht => exact ht.below hc hm
  | flushEmpty _ _ ht => exact ht.below hc hm
  | flushChunk _ _ ht => exact ht.below hc hm
  | processRemaining _ ht => exact ht.below hc hm
  | discard _ hq ht => exact ht.below (hc hq) (by simpa using hm)
  | ack =>
    rcases processAck_event hm with ⟨_, h⟩ | ⟨_, h⟩ <;> cases h
  | joined | ended | offlineFlushed | resend | resent | resendFailed | resendDone | sent | sendFailed | flushed
  | flushedLast | flushFailed | ackClosed | acked | closeRequest | closeResponded | closeDone | recover | exit =>
    simp at hm

theorem Numbered.length_step {a : Action} (h : Numbered log s) (hl : (issued log).length < 2 ^ 32)
    (hc : TakesBelowMax config s a) (st : Step config s a s' evs) : (issued (log ++ evs)).length < 2 ^ 32 := by
  have quiet (he : issued evs = []) : (issued (log ++ evs)).length < 2 ^ 32 := by
    rwa [issued_append, he, List.append_nil]
  cases st with
  | loop hs =>
    rcases hs.flusher_cases with ⟨-, -, he⟩ | ⟨site, t, post, rfl, hp, hT⟩ | ⟨ack, rfl, rfl⟩
    · exact quiet (issued_eq_nil he)
    · have hne := hs.took_below hc List.mem_cons_self
      have hlast := h.last_toNat hl
      rw [issued_append, issued_took hp, List.length_append, List.length_singleton]
      have hmax : s.state.lastIssuedSequenceNumber.toNat ≠ 4294967295 := fun he =>
        hne (UInt32.toNat_inj.1 he)
      omega
    · exact quiet (issued_processAck ack)
  | resume => exact quiet (by simp [issued, Event.issued?, List.filterMap_map, Function.comp_def])
  | app _ _ he => exact quiet (issued_eq_nil (not_stores_of_app he))
  | wire | cancel => exact quiet rfl

/-- As long as no buffer with data points in it is taken after `u32::MAX` was issued, the chunks are numbered
1, 2, 3, … and end with that number at the latest. -/
theorem chunks_numbered (o : Opened) (h : o.machine.Exec (fun _ => TakesBelowMax o.config) log s) :
    InOrder log := by
  have hl : (issued log).length < 2 ^ 32 := by
    refine h.invariant (I := fun log _ => (issued log).length < 2 ^ 32) ?_ ?_
    · exact Nat.two_pow_pos 32
    · intro log s a s' evs hr hl hc ha
      exact (issued_numbers hr).length_step hl hc (step_step ha)
  exact .of_numbered (issued_numbers h) hl

/-- A chunk before the registration, one in the flush loop and one of what the application wrote at the end. -/
theorem chunks_numbered_remaining :
    ∃ log s, reliableOpened.machine.Exec (fun _ => TakesBelowMax reliableOpened.config) log s ∧
      InOrder log ∧ (issued log).map (·.sequenceNumber) = [1, 2, 3] ∧ s.loop = .exited := by
  obtain ⟨log, s, h, hp⟩ := Machine.Exec.exists_of_any (M := reliableOpened.machine)
    (C := fun _ => TakesBelowMax reliableOpened.config)
    (writeRun ⟨⟨"a", "t"⟩, [⟨0, [7]⟩]⟩ ++
      ([.loop (.flush .notified .asIs), .loop .flushDone, .resume (.poll 0 true), .loop .joined,
        .loop (.resumedCallbackDone .asIs), .loop (.sent (.ok ())), .loop .resent] : List Action) ++
      writeRun ⟨⟨"b", "t"⟩, [⟨1, [8]⟩]⟩ ++
      ([.loop (.flush .notified .asIs), .loop (.sent (.ok ())), .loop .flushDone, .loop .ackClosed, .cancel,
        .loop .recover, .loop .exit] : List Action) ++
      ([.app (.write ⟨⟨"c", "t"⟩, [⟨2, [9]⟩]⟩), .loop (.processRemaining .asIs)] : List Action))
    (P := fun log s => (issued log).map (·.sequenceNumber) = [1, 2, 3] ∧ s.loop = .exited) (by decide +kernel)
  exact ⟨log, s, h, chunks_numbered reliableOpened h, hp⟩

/-! ### The number after the last -/

/-- A stream without a connection, ready for another write. -/
structure Idle (s : State) : Prop where
  loop : s.loop = .offline
  app : s.app = .idle
  ct : s.ct = false

/-- The application writes, and the flush of the interval issues a chunk. -/
theorem issue_offline (o : Opened) (hi : o.config.flushPolicy.interval.isSome) (h : o.machine.Run log s)
    (hs : Idle s) : ∃ log' s', o.machine.Run log' s' ∧ Idle s' ∧
      (issued log').length = (issued log).length + 1 := by
  set dpg : DataPointGroup := ⟨⟨"a", "t"⟩, []⟩ with hdpg
  set size := s.state.bufferPayloadSize + payloadSize dpg.dataPoints with hsize
  set state : UpstreamState := { s.state with
    dataPointsBuffer := s.state.dataPointsBuffer ++ [dpg]
    bufferPayloadSize := size } with hstate
  set notify := s.notify || o.config.flushPolicy.needFlush size with hnotify
  set s₃ : State := { s with state := state, notify := notify, app := .idle } with hs₃
  have hw : o.machine.Run (log ++ [Event.pushed dpg] ++ [] ++ [Event.wrote (.ok ())]) s₃ := by
    have h₁ : o.machine.step s (.app (.write dpg)) =
        some ({ s with state := state, app := .written size }, [.pushed dpg]) := by
      simp [Opened.machine, step, appStep, hs.app, hstate, hsize]
    have h₂ : o.machine.step { s with state := state, app := .written size } (.app .writeCheck) =
        some ({ s with state := state, app := .writeChecked size }, []) := by
      simp [Opened.machine, step, appStep, hs.ct]
    have h₃ : o.machine.step { s with state := state, app := .writeChecked size } (.app .writeNotify) =
        some (s₃, [.wrote (.ok ())]) := rfl
    exact ((h.step trivial h₁).step trivial h₂).step trivial h₃
  obtain ⟨t, flusher, state', ht, -⟩ := UpstreamFlusher.take_of_ne_nil .asIs s.resume.streamIdAlias s.flusher
    (s := state) (by simp [hstate])
  set s₄ : State := { s₃ with flusher := flusher, state := state', loop := .offlineFlushed } with hs₄
  have h₄ : o.machine.step s₃ (.loop (.flush .interval .asIs)) =
      some (s₄, .took .offline t.dpgs t.chunk :: (t.call.map .sendDataPointsCallback).toList) := by
    simp [Opened.machine, step, loopStep, State.wake, State.take, hi, hs.loop, ht, hs₃, hs₄]
  have h₅ : o.machine.step s₄ (.loop .flushDone) = some ({ s₄.maySend (.ok ()) with loop := .offline }, []) := rfl
  refine ⟨_, _, (hw.step trivial h₄).step trivial h₅, ⟨rfl, ?_, ?_⟩, ?_⟩
  · show (s₄.maySend (.ok ())).app = .idle
    unfold State.maySend
    split <;> rfl
  · show (s₄.maySend (.ok ())).ct = false
    unfold State.maySend
    split <;> exact hs.ct
  · have hpost : ∀ e ∈ (t.call.map Event.sendDataPointsCallback).toList, ¬ e.stores := by
      intro e he
      simp only [Option.mem_toList, Option.map_eq_some_iff] at he
      obtain ⟨c, -, rfl⟩ := he
      exact id
    have hpushed : issued [.pushed dpg] = [] := rfl
    have hwrote : issued [.wrote (.ok ())] = [] := rfl
    simp only [issued_append, issued_took hpost, hpushed, hwrote, List.append_nil, List.length_append,
      List.length_singleton]

theorem issues_any (o : Opened) (hi : o.config.flushPolicy.interval.isSome) (n : Nat) :
    ∃ log s, o.machine.Run log s ∧ Idle s ∧ (issued log).length = n := by
  induction n with
  | zero => exact ⟨_, _, .init, ⟨rfl, rfl, rfl⟩, rfl⟩
  | succ n ih =>
    obtain ⟨log, s, h, hs, hn⟩ := ih
    obtain ⟨log', s', h', hs', hn'⟩ := issue_offline o hi h hs
    exact ⟨log', s', h', hs', by rw [hn', hn]⟩

/-- Without a connection, `2^32` chunks are issued: the last of them has no number left. -/
theorem chunks_misnumbered : ¬ ∀ (o : Opened) log s, o.machine.Run log s → InOrder log := by
  intro h
  obtain ⟨log, s, hr, -, hn⟩ := issues_any defaultOpened rfl (2 ^ 32)
  have hlt := (h defaultOpened log s hr).length_lt
  rw [hn] at hlt
  exact Nat.lt_irrefl _ hlt

end Iscp.Upstream
