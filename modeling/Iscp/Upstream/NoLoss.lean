import Iscp.Upstream.Numbering

/-!
# A reliable upstream loses no unacknowledged chunk

The storage holds exactly the chunks that were issued and not acknowledged since (`Stored`). A connection
is given, after `after_resume` has begun on it, first the stored chunks in the order of their numbers and
then each new chunk, whose number is greater than all before (`Sent`).
-/

namespace Iscp.Upstream

variable {o : Opened} {config : UpstreamConfig} {s s' : State} {log evs : List Event}
  {chunk : Message.UpstreamChunk}

/-- `chunk` was issued, and no result for its number was processed since. -/
def Unacked (log : List Event) (chunk : Message.UpstreamChunk) : Prop :=
  ∃ pre site dpgs post, log = pre ++ .took site dpgs chunk :: post ∧
    .acked chunk.sequenceNumber ∉ post

theorem unacked_append_singleton {e : Event} : Unacked (log ++ [e]) chunk ↔
    (∃ site dpgs, e = .took site dpgs chunk) ∨
      (Unacked log chunk ∧ e ≠ .acked chunk.sequenceNumber) := by
  constructor
  · rintro ⟨pre, site, dpgs, post, h, hp⟩
    rcases List.eq_nil_or_concat post with rfl | ⟨post, x, rfl⟩
    · exact .inl ⟨site, dpgs, (List.singleton_inj.1 (List.append_inj' h rfl).2)⟩
    · rw [List.concat_eq_append, ← List.cons_append, ← List.append_assoc] at h
      obtain ⟨rfl, hx⟩ := List.append_inj' h rfl
      obtain rfl := List.singleton_inj.1 hx
      simp only [List.concat_eq_append, List.mem_append, List.mem_singleton, not_or] at hp
      exact .inr ⟨⟨pre, site, dpgs, post, rfl, hp.1⟩, Ne.symm hp.2⟩
  · rintro (⟨site, dpgs, rfl⟩ | ⟨⟨pre, site, dpgs, post, rfl, hp⟩, hne⟩)
    · exact ⟨log, site, dpgs, [], rfl, by simp⟩
    · exact ⟨pre, site, dpgs, post ++ [e], by simp, by simpa using ⟨hp, Ne.symm hne⟩⟩

theorem unacked_append (h : ∀ e ∈ evs, e.issued? = none) :
    Unacked (log ++ evs) chunk ↔ Unacked log chunk ∧ .acked chunk.sequenceNumber ∉ evs := by
  induction evs using List.reverseRecOn with
  | nil => simp
  | append_singleton evs e ih =>
    rw [← List.append_assoc, unacked_append_singleton, ih fun e he => h e (by simp [he])]
    have hne : ¬ ∃ site dpgs, e = Event.took site dpgs chunk := by
      rintro ⟨site, dpgs, rfl⟩
      simpa [Event.issued?] using h (.took site dpgs chunk) (by simp)
    simp only [hne, false_or, List.mem_append, List.mem_singleton, not_or, and_assoc, ne_eq]
    rw [eq_comm (a := e)]

theorem unacked_append_of_not_stores (h : ∀ e ∈ evs, ¬ e.stores) :
    Unacked (log ++ evs) chunk ↔ Unacked log chunk := by
  rw [unacked_append fun e he => ?_]
  · exact and_iff_left fun hm => h _ hm trivial
  · have := h e he
    cases e <;> first | rfl | exact absurd trivial this

theorem Unacked.mem_issued (h : Unacked log chunk) : chunk ∈ issued log := by
  obtain ⟨pre, site, dpgs, post, rfl, -⟩ := h
  exact Upstream.mem_issued.2 ⟨site, dpgs, by simp⟩

/-! ### The storage -/

/-- The storage holds exactly the unacknowledged chunks, each at its number. -/
structure Stored (log : List Event) (s : State) : Prop where
  reliable : s.flusher.storage.isReliable
  chunks : ∀ n chunk, s.flusher.storage.chunks[n]? = some chunk ↔
    chunk.sequenceNumber = n ∧ Unacked log chunk

theorem Stored.quiet (h : Stored log s) (hf : s'.flusher = s.flusher) (he : ∀ e ∈ evs, ¬ e.stores) :
    Stored (log ++ evs) s' :=
  ⟨by rw [hf]; exact h.reliable, fun n chunk => by
    rw [hf, unacked_append_of_not_stores he]; exact h.chunks n chunk⟩

theorem Stored.took {site : TakeSite} {t : UpstreamFlusher.Taken} {post : List Event}
    (h : Stored log s) (hn : Numbered log s) (hlen : (issued log).length + 1 < 2 ^ 32)
    (hT : s.flusher.Takes s.resume.streamIdAlias s.state t s'.flusher s'.state)
    (hp : ∀ e ∈ post, ¬ e.stores) : Stored (log ++ Event.took site t.dpgs t.chunk :: post) s' := by
  refine ⟨by rw [hT.isReliable]; exact h.reliable, fun n chunk => ?_⟩
  rw [List.append_cons, unacked_append_of_not_stores hp, unacked_append_singleton, hT.chunks,
    if_pos h.reliable, Std.ExtTreeMap.getElem?_insert]
  simp only [Std.compare_eq_iff_eq, ne_eq, reduceCtorEq, not_false_eq_true, and_true,
    Event.took.injEq, exists_and_left, exists_eq_left']
  -- An older chunk has another number than the one just issued.
  have hold : Unacked log chunk → chunk.sequenceNumber ≠ t.chunk.sequenceNumber := fun hu he => by
    have hle := hn.le_last (by omega) hu.mem_issued
    have hlt := hn.lt_next hlen
    rw [he, hT.sequenceNumber] at hle
    exact UInt32.lt_irrefl _ (UInt32.lt_of_le_of_lt hle hlt)
  split
  · rename_i he
    subst he
    constructor
    · intro hc
      obtain rfl := Option.some.inj hc
      exact ⟨rfl, .inl rfl⟩
    · rintro ⟨hc, rfl | hu⟩
      · rfl
      · exact absurd hc (hold hu)
  · rename_i hne
    rw [h.chunks]
    constructor
    · exact fun ⟨hc, hu⟩ => ⟨hc, .inr hu⟩
    · rintro ⟨hc, rfl | hu⟩
      · exact absurd hc hne
      · exact ⟨hc, hu⟩

theorem Stored.ack (h : Stored log s) (ack : Message.UpstreamChunkAck) :
    Stored (log ++ (s.processAck ack).2) (s.processAck ack).1 := by
  refine ⟨?_, fun n chunk => ?_⟩
  · simpa [State.processAck, UpstreamFlusher.processAck] using h.reliable
  · have hnone : ∀ e ∈ (s.processAck ack).2, e.issued? = none := by
      have := issued_processAck (s := s) ack
      rwa [issued, List.filterMap_eq_nil_iff] at this
    have hacked : Event.acked chunk.sequenceNumber ∈ (s.processAck ack).2 ↔
        chunk.sequenceNumber ∈ ack.results.map (·.sequenceNumber) := by
      simp [State.processAck]
    rw [unacked_append hnone, hacked]
    simp only [State.processAck, UpstreamFlusher.processAck]
    rw [UpstreamStorage.getElem?_processAck h.reliable]
    split
    · rename_i hm
      constructor
      · intro hc; cases hc
      · rintro ⟨rfl, -, hno⟩; exact absurd hm hno
    · rename_i hm
      rw [h.chunks]
      constructor
      · rintro ⟨rfl, hu⟩; exact ⟨rfl, hu, hm⟩
      · rintro ⟨hc, hu, -⟩; exact ⟨hc, hu⟩

theorem Stored.step {a : Action} (h : Stored log s) (hn : Numbered log s)
    (hlen : (issued (log ++ evs)).length < 2 ^ 32) (st : Step config s a s' evs) :
    Stored (log ++ evs) s' := by
  cases st with
  | loop hl =>
    rcases hl.flusher_cases with ⟨hf, -, he⟩ | ⟨site, t, post, rfl, hp, hT⟩ | ⟨ack, rfl, rfl⟩
    · exact h.quiet hf he
    · refine h.took hn ?_ hT hp
      simpa [issued_took hp] using hlen
    · exact h.ack ack
  | resume => exact h.quiet rfl (by simp [Event.stores])
  | app _ hs he => exact h.quiet hs.flusher (not_stores_of_app he)
  | wire | cancel => exact h.quiet rfl (by simp)

theorem stored {C : List Event → State → Action → Prop} (hq : o.config.qos = .reliable)
    (h : o.machine.Exec C log s) (hlen : (issued log).length < 2 ^ 32) : Stored log s := by
  revert hlen
  refine h.invariant (I := fun log s => (issued log).length < 2 ^ 32 → Stored log s) (fun _ => ?_) ?_
  · refine ⟨by simp [Opened.machine, Opened.init, UpstreamFlusher.new, UpstreamStorage.new, hq], ?_⟩
    intro n chunk
    have hno : ¬ Unacked o.machine.log₀ chunk := fun hu => by
      simpa [Opened.machine, issued, Event.issued?] using hu.mem_issued
    simp [Opened.machine, Opened.init, UpstreamFlusher.new, UpstreamStorage.new] at hno ⊢
    simp [hno]
  · intro log s a s' evs hr hi _ ha hlen
    have hlen' : (issued log).length < 2 ^ 32 := by
      rw [issued_append, List.length_append] at hlen; omega
    exact (hi hlen').step (issued_numbers hr) hlen (step_step ha)

/-! ### What a connection is given -/

def Event.handed? : Event → Option (ConnId × Message.UpstreamChunk)
  | .handed conn chunk => some (conn, chunk)
  | _ => none

/-- The chunks handed over since `after_resume` last began, with the connection that got them. -/
def handedSince (log : List Event) : List (ConnId × Message.UpstreamChunk) :=
  (History.since Event.isAfterResume log).filterMap Event.handed?

/-- The events that tell of what a connection was given. -/
def Event.sends : Event → Prop
  | .afterResume _ | .handed _ _ => True
  | _ => False

theorem handedSince_append (h : ∀ e ∈ evs, ¬ e.sends) : handedSince (log ++ evs) = handedSince log := by
  have hs : ∀ e ∈ evs, e.isAfterResume = false ∧ e.handed? = none := fun e he => by
    have := h e he
    cases e <;> first | exact ⟨rfl, rfl⟩ | exact absurd trivial this
  rw [handedSince, History.since_append_of_forall fun e he => (hs e he).1, List.filterMap_append,
    List.filterMap_eq_nil_iff.2 fun e he => (hs e he).2, List.append_nil, handedSince]

theorem handedSince_append_handed (conn : ConnId) :
    handedSince (log ++ [Event.handed conn chunk]) = handedSince log ++ [(conn, chunk)] := by
  simp [handedSince, History.since_append_singleton, Event.isAfterResume, Event.handed?]

theorem handedSince_append_afterResume (conn : ConnId) :
    handedSince (log ++ [Event.afterResume conn]) = [] := by
  simp [handedSince, History.since_append_singleton, Event.isAfterResume]

/-- What was handed over since `after_resume` began and what the loop has in its hands to send next. -/
def given (log : List Event) (s : State) : List Message.UpstreamChunk :=
  (handedSince log).map (·.2) ++ s.loop.toSend

structure Sent (log : List Event) (s : State) : Prop where
  sorted : (given log s).Pairwise fun a b => a.sequenceNumber < b.sequenceNumber
  issued : ∀ chunk ∈ given log s, chunk ∈ issued log
  begun : s.loop = .afterResume → handedSince log = []
  /-- While the stored chunks are sent again, those handed over and those left are the stored ones. -/
  resending : ∀ todo, s.loop = .resending todo → ∃ done,
    handedSince log = done.map (s.resume.wireConn, ·) ∧ done ++ todo = s.flusher.storage.iterChunks

theorem Sent.quiet (h : Sent log s) (he : ∀ e ∈ evs, ¬ e.sends) (ht : s'.loop.toSend = [])
    (hb : s'.loop ≠ .afterResume) (hr : ∀ todo, s'.loop ≠ .resending todo) : Sent (log ++ evs) s' := by
  have hg : given (log ++ evs) s' = (handedSince log).map (·.2) := by
    simp [given, handedSince_append he, ht]
  refine ⟨?_, fun chunk hc => ?_, fun hl => absurd hl hb, fun todo hl => absurd hl (hr todo)⟩
  · rw [hg]
    exact h.sorted.sublist (List.sublist_append_left _ _)
  · rw [hg] at hc
    rw [issued_append]
    exact List.mem_append_left _ (h.issued chunk (List.mem_append_left _ hc))

theorem Take.not_sends {site : TakeSite} {c : Option Message.UpstreamChunk} (h : Take site s s' c evs) :
    ∀ e ∈ evs, ¬ e.sends := by
  intro e he
  rcases h.event he with ⟨_, _, rfl⟩ | ⟨_, rfl⟩ <;> exact id

theorem not_sends_of_app (h : ∀ e ∈ evs, e.ofApp) : ∀ e ∈ evs, ¬ e.sends := by
  intro e he
  have := h e he
  cases e <;> first | exact id | cases this

theorem not_sends_processAck (ack : Message.UpstreamChunkAck) :
    ∀ e ∈ (s.processAck ack).2, ¬ e.sends := by
  intro e he
  rcases processAck_event he with ⟨_, rfl⟩ | ⟨_, rfl⟩ <;> exact id

theorem Sent.same (h : Sent log s) (he : ∀ e ∈ evs, ¬ e.sends) (hl : s'.loop = s.loop)
    (hr : s'.resume = s.resume) (hf : s'.flusher = s.flusher) : Sent (log ++ evs) s' := by
  have hh : handedSince (log ++ evs) = handedSince log := handedSince_append he
  have hg : given (log ++ evs) s' = given log s := by simp [given, hh, hl]
  refine ⟨by rw [hg]; exact h.sorted, fun chunk hc => ?_, ?_, ?_⟩
  · rw [hg] at hc
    rw [issued_append]
    exact List.mem_append_left _ (h.issued chunk hc)
  · rw [hl, hh]; exact h.begun
  · rw [hl, hr, hf, hh]; exact h.resending

theorem Sent.loopStep {a : LoopAction} (h : Sent log s) (hn : Numbered log s) (hst : Stored log s)
    (hq : config.qos = .reliable) (hlen : (Upstream.issued (log ++ evs)).length < 2 ^ 32)
    (hs : LoopStep config s a s' evs) : Sent (log ++ evs) s' := by
  cases hs with
  | joined hl hp =>
    have hh : handedSince (log ++ [Event.afterResume s.resume.wireConn]) = [] :=
      handedSince_append_afterResume _
    refine ⟨?_, ?_, fun _ => hh, by simp⟩ <;> simp [given, hh, LoopPc.toSend]
  | resend hl =>
    have hh := h.begun hl
    refine ⟨?_, fun chunk hc => ?_, by simp, fun todo ht => ⟨[], by simp [hh], by simpa using ht.symm⟩⟩
    · simpa [given, hh, LoopPc.toSend] using
        UpstreamStorage.iterChunks_sorted fun n chunk hc => ((hst.chunks n chunk).1 hc).1
    · simp only [given, List.append_nil, hh, List.map_nil, LoopPc.toSend, List.nil_append] at hc
      obtain ⟨n, hc⟩ := UpstreamStorage.mem_iterChunks.1 hc
      simpa using ((hst.chunks n chunk).1 hc).2.mem_issued
  | discard _ hne => exact absurd hq hne
  | @resent chunk todo hl =>
    have hh : handedSince (log ++ [Event.handed s.resume.wireConn chunk]) =
        handedSince log ++ [(s.resume.wireConn, chunk)] := handedSince_append_handed _
    have hg : given (log ++ [Event.handed s.resume.wireConn chunk]) { s with loop := .resending todo } =
        given log s := by
      simp [given, hh, hl, LoopPc.toSend]
    refine ⟨by rw [hg]; exact h.sorted, fun c hc => ?_, by simp, fun todo' ht => ?_⟩
    · rw [hg] at hc
      rw [issued_append]
      exact List.mem_append_left _ (h.issued c hc)
    · obtain ⟨done, hd, he⟩ := h.resending _ hl
      obtain rfl := LoopPc.resending.inj ht
      exact ⟨done ++ [chunk], by simp [hh, hd], by simpa using he⟩
  | @sent chunk close hl =>
    have hg : given (log ++ [Event.handed s.resume.wireConn chunk]) { s with loop := .flushed (.ok ()) close } =
        given log s := by
      simp [given, handedSince_append_handed, hl, LoopPc.toSend]
    refine ⟨by rw [hg]; exact h.sorted, fun c hc => ?_, by simp, by simp⟩
    rw [hg] at hc
    rw [issued_append]
    exact List.mem_append_left _ (h.issued c hc)
  | @flushChunk _ _ _ close s₁ chunk evs hl _ ht =>
    have hg : given (log ++ evs) { s₁ with loop := .sending chunk close } = given log s ++ [chunk] := by
      simp [given, handedSince_append ht.not_sends, hl, LoopPc.toSend]
    rcases ht.cases with ⟨-, -, -, hc⟩ | ⟨t, post, rfl, hp, hc, hT⟩
    · cases hc
    obtain rfl := Option.some.inj hc
    have hlen' : (Upstream.issued log).length + 1 < 2 ^ 32 := by simpa [issued_took hp] using hlen
    refine ⟨?_, fun c hc => ?_, by simp, by simp⟩
    · rw [hg, List.pairwise_append]
      refine ⟨h.sorted, List.pairwise_singleton _ _, fun c hc d hd => ?_⟩
      rw [List.mem_singleton.1 hd, hT.sequenceNumber]
      exact UInt32.lt_of_le_of_lt (hn.le_last (by omega) (h.issued c hc)) (hn.lt_next hlen')
    · rw [hg, List.mem_append, List.mem_singleton] at hc
      rw [issued_append, issued_took hp]
      rcases hc with hc | rfl
      · exact List.mem_append_left _ (h.issued c hc)
      · exact List.mem_append_right _ (by simp)
  | ack hl =>
    have he := not_sends_processAck (s := s)
    rcases hl with hl | hl <;>
      exact h.quiet (he _) (by simp [hl, LoopPc.toSend]) (by simp [hl]) (by simp [hl])
  | flushOffline _ ht | flushEmpty _ _ ht | processRemaining _ ht =>
    exact h.quiet ht.not_sends rfl (by simp) (by simp)
  | resendFailed | recover =>
    obtain ⟨resume, loop, he, hr⟩ := recover_cases config s _
    rw [he]
    rcases hr with ⟨-, rfl⟩ | ⟨-, rfl⟩ <;> exact h.quiet (by simp [Event.sends]) rfl (by simp) (by simp)
  | ended | offlineFlushed | resendDone | sendFailed | flushed | flushedLast | flushFailed
  | ackClosed | acked | closeRequest | closeResponded | closeDone | exit =>
    exact h.quiet (by simp [Event.sends]) rfl (by simp) (by simp)

theorem sent {C : List Event → State → Action → Prop} (hq : o.config.qos = .reliable)
    (h : o.machine.Exec C log s) (hlen : (issued log).length < 2 ^ 32) : Sent log s := by
  revert hlen
  refine h.invariant (I := fun log s => (issued log).length < 2 ^ 32 → Sent log s) (fun _ => ?_) ?_
  · have hg : given o.machine.log₀ o.machine.init = [] := rfl
    exact ⟨by simp [hg], by simp [hg], by simp [Opened.machine, Opened.init],
      by simp [Opened.machine, Opened.init]⟩
  · intro log s a s' evs hr hi _ ha hlen
    have hlen' : (issued log).length < 2 ^ 32 := by
      rw [issued_append, List.length_append] at hlen; omega
    have hi := hi hlen'
    cases step_step ha with
    | loop hl => exact hi.loopStep (issued_numbers hr) (stored hq hr hlen') hq hlen hl
    | resume hp hs =>
      have hl : s.loop.connected = false := by
        by_contra hl
        exact hp ((control hr).registered (by simpa using hl))
      refine hi.quiet (by simp [Event.sends]) ((control hr).toSend_eq_nil hp) ?_ ?_
      · intro h0; rw [show s.loop = _ from h0] at hl; cases hl
      · intro todo h0; rw [show s.loop = _ from h0] at hl; cases hl
    | app _ hs he => exact hi.same (not_sends_of_app he) hs.loop hs.resume hs.flusher
    | wire | cancel => exact hi.same (by simp) rfl rfl rfl

/-! ### After a resume -/

/-- When `after_resume` returns `Ok`, what was handed over since it began went to its connection, and is
exactly the unacknowledged chunks. -/
def Replayed (pre : List Event) : Event → Prop
  | .afterResumeDone conn true => ∃ chunks : List Message.UpstreamChunk,
    handedSince pre = chunks.map (conn, ·) ∧
    ∀ chunk, chunk ∈ chunks ↔ Unacked pre chunk
  | _ => True

theorem replayed_of_not_done {e : Event} (pre : List Event)
    (h : ∀ conn, e ≠ .afterResumeDone conn true) : Replayed pre e := by
  unfold Replayed
  split
  · exact absurd rfl (h _)
  · trivial

theorem replayed_append (h : ∀ e ∈ evs, ∀ conn, e ≠ .afterResumeDone conn true) :
    History.Each (fun pre e => Replayed (log ++ pre) e) evs :=
  fun _ e _ hl => replayed_of_not_done _ (h e (by simp [hl]))

theorem Stored.mem_iterChunks (h : Stored log s) :
    chunk ∈ s.flusher.storage.iterChunks ↔ Unacked log chunk := by
  rw [UpstreamStorage.mem_iterChunks]
  constructor
  · rintro ⟨n, hc⟩; exact ((h.chunks n chunk).1 hc).2
  · exact fun hu => ⟨_, (h.chunks _ chunk).2 ⟨rfl, hu⟩⟩

theorem LoopStep.replayed {a : LoopAction} (hst : Stored log s) (hsent : Sent log s)
    (hq : config.qos = .reliable) (hs : LoopStep config s a s' evs) :
    History.Each (fun pre e => Replayed (log ++ pre) e) evs := by
  have quiet (he : ∀ e ∈ evs, ∀ conn, e ≠ .afterResumeDone conn true) :
      History.Each (fun pre e => Replayed (log ++ pre) e) evs := replayed_append he
  cases hs with
  | resendDone hl =>
    obtain ⟨done, hd, he⟩ := hsent.resending _ hl
    refine History.each_singleton.2 ⟨done, by simpa using hd, fun chunk => ?_⟩
    rw [List.append_nil] at he
    rw [List.append_nil, he, hst.mem_iterChunks]
  | discard _ hne => exact absurd hq hne
  | flushOffline _ ht | flushEmpty _ _ ht | flushChunk _ _ ht | processRemaining _ ht =>
    refine quiet fun e he conn => ?_
    rcases ht.event he with ⟨_, _, rfl⟩ | ⟨_, rfl⟩ <;> simp
  | ack =>
    refine quiet fun e he conn => ?_
    rcases processAck_event he with ⟨_, rfl⟩ | ⟨_, rfl⟩ <;> simp
  | resendFailed | recover | joined | ended | offlineFlushed | resend | resent | sent | sendFailed
  | flushed | flushedLast | flushFailed | ackClosed | acked | closeRequest | closeResponded | closeDone
  | exit => exact quiet (by simp)

/-- In every run of a reliable upstream that issues fewer than 2³² chunks, the storage holds exactly the
chunks issued and not acknowledged since, an `after_resume` that succeeds has handed over exactly these,
and the numbers handed over since an `after_resume` began increase strictly. -/
theorem unacked_never_lost (o : Opened) (hq : o.config.qos = .reliable) (h : o.machine.Run log s)
    (hlen : (issued log).length < 2 ^ 32) :
    (∀ n chunk, s.flusher.storage.chunks[n]? = some chunk ↔
      chunk.sequenceNumber = n ∧ Unacked log chunk) ∧
    History.Each Replayed log ∧
    (handedSince log).Pairwise fun a b => a.2.sequenceNumber < b.2.sequenceNumber := by
  refine ⟨(stored hq h hlen).chunks, ?_, ?_⟩
  · revert hlen
    refine h.invariant (I := fun log _ => (issued log).length < 2 ^ 32 → History.Each Replayed log)
      (fun _ => History.each_singleton.2 trivial) ?_
    intro log s a s' evs hr hi _ ha hlen
    have hlen' : (issued log).length < 2 ^ 32 := by
      rw [issued_append, List.length_append] at hlen; omega
    refine History.each_append.2 ⟨hi hlen', ?_⟩
    cases step_step ha with
    | loop hl => exact hl.replayed (stored hq hr hlen') (sent hq hr hlen') hq
    | resume => exact replayed_append (by simp)
    | app _ _ he => exact replayed_append fun e hm conn hd => by subst hd; exact he _ hm
    | wire | cancel => exact .nil
  · have := (sent hq h hlen).sorted.sublist (List.sublist_append_left _ _)
    simpa [List.pairwise_map] using this

/-- A chunk is issued, sent on the first connection and again on the second. -/
theorem unacked_never_lost_resent :
    ∃ log s, reliableOpened.machine.Run log s ∧ log.any (·.isHandedOn 1) ∧
      (∀ n chunk, s.flusher.storage.chunks[n]? = some chunk ↔
        chunk.sequenceNumber = n ∧ Unacked log chunk) ∧
      History.Each Replayed log ∧
      (handedSince log).Pairwise fun a b => a.2.sequenceNumber < b.2.sequenceNumber := by
  obtain ⟨log, s, h, hsent, hlen⟩ := Machine.Exec.exists_of_any (M := reliableOpened.machine)
    (C := fun _ _ _ => True) (resendRun 2)
    (P := fun log _ => log.any (·.isHandedOn 1) ∧ (issued log).length < 2 ^ 32) (by decide +kernel)
  exact ⟨log, s, h, hsent, unacked_never_lost reliableOpened rfl h hlen⟩

end Iscp.Upstream
