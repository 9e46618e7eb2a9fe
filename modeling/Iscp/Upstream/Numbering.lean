import Iscp.Upstream.Control
import Mathlib.Data.List.Range

/-!
# The chunks an upstream issues

`issued log` are the chunks that `take_chunk` built, in their order. They are numbered 1, 2, 3, … in
`u32`, whatever took the buffer (`issued_numbers`), so the first 2³² - 1 of them have different,
increasing numbers. `LoopStep.flusher_cases` says what a step does to the flusher and its storage.
-/

namespace Iscp.Upstream

variable {o : Opened} {config : UpstreamConfig} {s s' : State} {log evs : List Event}

/-- The events that tell of the storage's contents. -/
def Event.stores : Event → Prop
  | .took _ _ _ | .acked _ => True
  | _ => False

def Event.issued? : Event → Option Message.UpstreamChunk
  | .took _ _ chunk => some chunk
  | _ => none

def issued (log : List Event) : List Message.UpstreamChunk := log.filterMap Event.issued?

@[simp] theorem issued_append : issued (log ++ evs) = issued log ++ issued evs :=
  List.filterMap_append

theorem issued_eq_nil (h : ∀ e ∈ evs, ¬ e.stores) : issued evs = [] := by
  rw [issued, List.filterMap_eq_nil_iff]
  intro e he
  have := h e he
  cases e <;> first | rfl | exact absurd trivial this

theorem issued_took {site : TakeSite} {dpgs : List DataPointGroup} {chunk : Message.UpstreamChunk}
    (h : ∀ e ∈ evs, ¬ e.stores) : issued (.took site dpgs chunk :: evs) = [chunk] := by
  have := issued_eq_nil h
  rw [issued] at this ⊢
  simp [Event.issued?, this]

theorem mem_issued {chunk : Message.UpstreamChunk} :
    chunk ∈ issued log ↔ ∃ site dpgs, .took site dpgs chunk ∈ log := by
  rw [issued, List.mem_filterMap]
  constructor
  · rintro ⟨e, he, hc⟩
    cases e <;> simp only [Event.issued?, reduceCtorEq, Option.some.injEq] at hc
    subst hc; exact ⟨_, _, he⟩
  · rintro ⟨site, dpgs, he⟩
    exact ⟨_, he, rfl⟩

theorem not_stores_of_app (h : ∀ e ∈ evs, e.ofApp) : ∀ e ∈ evs, ¬ e.stores := by
  intro e he
  have := h e he
  cases e <;> first | exact id | cases this

theorem Take.cases {site : TakeSite} {c : Option Message.UpstreamChunk} (h : Take site s s' c evs) :
    (s'.flusher = s.flusher ∧ s'.state.SameCounts s.state ∧ evs = [] ∧ c = none) ∨
    ∃ t post, evs = .took site t.dpgs t.chunk :: post ∧ (∀ e ∈ post, ¬ e.stores) ∧ c = some t.chunk ∧
      s.flusher.Takes s.resume.streamIdAlias s.state t s'.flusher s'.state := by
  cases h with
  | empty => exact .inl ⟨rfl, ⟨rfl, rfl⟩, rfl, rfl⟩
  | @found t _ _ ht =>
    refine .inr ⟨t, _, rfl, fun e he => ?_, rfl, ht⟩
    simp only [Option.mem_toList, Option.map_eq_some_iff] at he
    obtain ⟨c, -, rfl⟩ := he
    exact id

theorem LoopStep.flusher_cases {a : LoopAction} (h : LoopStep config s a s' evs) :
    (s'.flusher = s.flusher ∧ s'.state.SameCounts s.state ∧ ∀ e ∈ evs, ¬ e.stores) ∨
    (∃ site t post, evs = .took site t.dpgs t.chunk :: post ∧ (∀ e ∈ post, ¬ e.stores) ∧
      s.flusher.Takes s.resume.streamIdAlias s.state t s'.flusher s'.state) ∨
    ∃ ack, s' = (s.processAck ack).1 ∧ evs = (s.processAck ack).2 := by
  cases h with
  | flushOffline _ ht | flushEmpty _ _ ht | flushChunk _ _ ht | processRemaining _ ht =>
    rcases ht.cases with ⟨hf, hn, rfl, -⟩ | ⟨t, post, rfl, hp, -, hT⟩
    · exact .inl ⟨hf, hn, by simp⟩
    · exact .inr (.inl ⟨_, t, post, rfl, hp, hT⟩)
  | discard _ _ ht =>
    rcases ht.cases with ⟨hf, hn, rfl, -⟩ | ⟨t, post, rfl, hp, -, hT⟩
    · exact .inl ⟨hf, hn, by simp [Event.stores]⟩
    · refine .inr (.inl ⟨_, t, _, rfl, fun e he => ?_, hT⟩)
      rcases List.mem_append.1 he with he | he
      · exact hp e he
      · rw [List.mem_singleton.1 he]; exact id
  | ack => exact .inr (.inr ⟨_, rfl, rfl⟩)
  | resendFailed | recover =>
    obtain ⟨resume, loop, he, -⟩ := recover_cases config s _
    rw [he]
    exact .inl ⟨rfl, ⟨rfl, rfl⟩, by simp [Event.stores]⟩
  | joined | ended | offlineFlushed | resend | resent | resendDone | sent | sendFailed | flushed
  | flushedLast | flushFailed | ackClosed | acked | closeRequest | closeResponded | closeDone | exit =>
    exact .inl ⟨by simp, by simp [UpstreamState.SameCounts], by simp [Event.stores]⟩

theorem issued_processAck (ack : Message.UpstreamChunkAck) : issued (s.processAck ack).2 = [] := by
  rw [issued, List.filterMap_eq_nil_iff]
  intro e he
  rcases processAck_event he with ⟨_, rfl⟩ | ⟨_, rfl⟩ <;> rfl

/-- The counter counts the chunks issued. -/
structure Numbered (log : List Event) (s : State) : Prop where
  last : s.state.lastIssuedSequenceNumber = .ofNat (issued log).length
  numbers : (issued log).map (·.sequenceNumber) =
    (List.range (issued log).length).map fun i => .ofNat (i + 1)

theorem Numbered.quiet (h : Numbered log s) (he : issued evs = [])
    (hl : s'.state.lastIssuedSequenceNumber = s.state.lastIssuedSequenceNumber) :
    Numbered (log ++ evs) s' :=
  ⟨by simpa [he, hl] using h.last, by simpa [he] using h.numbers⟩

theorem Numbered.step {a : Action} (h : Numbered log s) (st : Step config s a s' evs) :
    Numbered (log ++ evs) s' := by
  cases st with
  | loop hl =>
    rcases hl.flusher_cases with ⟨-, hn, he⟩ | ⟨site, t, post, rfl, hp, hT⟩ | ⟨ack, rfl, rfl⟩
    · exact h.quiet (issued_eq_nil he) hn.1
    · have hnum : t.chunk.sequenceNumber = .ofNat ((issued log).length + 1) := by
        rw [hT.sequenceNumber, h.last]
        simp
      refine ⟨?_, ?_⟩
      · rw [hT.lastIssued, hnum, issued_append, issued_took hp]
        simp
      · rw [issued_append, issued_took hp, List.map_append, h.numbers, List.length_append,
          List.length_singleton, List.range_succ, List.map_append]
        simp [hnum]
    · exact h.quiet (issued_processAck ack) rfl
  | resume => exact h.quiet (by simp [issued, Event.issued?, List.filterMap_map, Function.comp_def]) rfl
  | app _ hs he => exact h.quiet (issued_eq_nil (not_stores_of_app he)) hs.lastIssued
  | wire | cancel => exact h.quiet rfl rfl

theorem issued_numbers {C : List Event → State → Action → Prop} (h : o.machine.Exec C log s) :
    Numbered log s :=
  h.invariant ⟨rfl, rfl⟩ fun _ _ _ _ _ _ hi _ ha => hi.step (step_step ha)

namespace Numbered

theorem number_toNat (h : Numbered log s) (hf : (issued log).length < 2 ^ 32) :
    (issued log).map (·.sequenceNumber.toNat) = (List.range (issued log).length).map (· + 1) := by
  have := congrArg (List.map UInt32.toNat) h.numbers
  rw [List.map_map, List.map_map] at this
  rw [show (issued log).map (·.sequenceNumber.toNat) = _ from this]
  refine List.map_congr_left fun i hi => ?_
  have := List.mem_range.1 hi
  simp only [Function.comp_apply, UInt32.toNat_ofNat']
  omega

theorem last_toNat (h : Numbered log s) (hf : (issued log).length < 2 ^ 32) :
    s.state.lastIssuedSequenceNumber.toNat = (issued log).length := by
  rw [h.last, UInt32.toNat_ofNat']
  omega

/-- No number is issued twice, and later chunks have greater numbers. -/
theorem sorted (h : Numbered log s) (hf : (issued log).length < 2 ^ 32) :
    (issued log).Pairwise fun a b => a.sequenceNumber < b.sequenceNumber := by
  have := h.number_toNat hf
  have hs : ((issued log).map (·.sequenceNumber.toNat)).Pairwise (· < ·) := by
    rw [this, List.pairwise_map]
    exact List.pairwise_lt_range.imp (by omega)
  simpa [List.pairwise_map, UInt32.lt_iff_toNat_lt] using hs

theorem le_last (h : Numbered log s) (hf : (issued log).length < 2 ^ 32)
    {chunk : Message.UpstreamChunk} (hc : chunk ∈ issued log) :
    chunk.sequenceNumber ≤ s.state.lastIssuedSequenceNumber := by
  have hm : chunk.sequenceNumber.toNat ∈ (issued log).map (·.sequenceNumber.toNat) :=
    List.mem_map_of_mem hc
  rw [h.number_toNat hf] at hm
  obtain ⟨i, hi, he⟩ := List.mem_map.1 hm
  have := List.mem_range.1 hi
  rw [UInt32.le_iff_toNat_le, h.last_toNat hf]
  omega

theorem lt_next (h : Numbered log s) (hf : (issued log).length + 1 < 2 ^ 32) :
    s.state.lastIssuedSequenceNumber < s.state.lastIssuedSequenceNumber + 1 := by
  have := h.last_toNat (by omega)
  rw [UInt32.lt_iff_toNat_lt, UInt32.toNat_add]
  simp only [UInt32.toNat_one]
  omega

end Numbered

end Iscp.Upstream
