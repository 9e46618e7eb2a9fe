import Iscp.Downstream.Steps

/-!
# The acknowledgements of a downstream

What `add_sequence_number` has recorded is in the acks taken so far, in the same order, followed by what
is still pending, and every registered upstream is announced in one of them or still to be announced
(`Accounted`). `take_ack` empties both tables before the ack is sent, so what is in an ack that
`send_message` refuses is lost; nothing else ever is (`acks_kept_iff`).
-/

namespace Iscp.Downstream

variable {o : Opened} {s s' : State} {log evs : List Event}

def Event.recorded? : Event → Option Message.DownstreamChunkResult
  | .recorded streamId n => some ⟨streamId.val, n, 0, "OK"⟩
  | _ => none

def Event.accepted? : Event → Option Message.DownstreamChunkAck
  | .ackSent _ ack => some ack
  | _ => none

def Event.issued? : Event → Option Message.DownstreamChunkAck
  | .ackSent _ ack | .ackFailed _ ack => some ack
  | _ => none

/-- The results that `add_sequence_number` has recorded. -/
def recorded (log : List Event) : List Message.DownstreamChunkResult := log.filterMap Event.recorded?

/-- The acks that `send_message` accepted. -/
def accepted (log : List Event) : List Message.DownstreamChunkAck := log.filterMap Event.accepted?

def issued (log : List Event) : List Message.DownstreamChunkAck := log.filterMap Event.issued?

@[simp] theorem recorded_append : recorded (log ++ evs) = recorded log ++ recorded evs :=
  List.filterMap_append

@[simp] theorem issued_append : issued (log ++ evs) = issued log ++ issued evs := List.filterMap_append

def results (acks : List Message.DownstreamChunkAck) : List Message.DownstreamChunkResult :=
  acks.flatMap (·.results)

@[simp] theorem results_append (as bs : List Message.DownstreamChunkAck) :
    results (as ++ bs) = results as ++ results bs := List.flatMap_append

/-- The info of an upstream is pending in `for_ack`, or announced in one of `acks`. -/
def Announced (st : DownstreamState) (acks : List Message.DownstreamChunkAck) : Prop :=
  ∀ (infoAlias : UInt32) info, st.infos[infoAlias]? = some info →
    st.forAck[infoAlias]? = some (DownstreamState.announcement info) ∨
      ∃ ack ∈ acks, ack.upstreamAliases[infoAlias]? = some (DownstreamState.announcement info)

/-- Everything recorded is in an ack that `send_message` accepted or is about to send, or pending. -/
structure AcksKept (log : List Event) (s : State) : Prop where
  results : recorded log = Downstream.results (accepted log ++ s.loop.ack?.toList) ++ s.state.results
  aliases : Announced s.state (accepted log ++ s.loop.ack?.toList)

/-- Where everything recorded is, whether or not the acks were accepted. -/
structure Accounted (log : List Event) (s : State) : Prop where
  results : recorded log = Downstream.results (issued log ++ s.loop.ack?.toList) ++ s.state.results
  aliases : Announced s.state (issued log ++ s.loop.ack?.toList)
  /-- With every alias that is to be announced the chunk that brought it is to be acknowledged. -/
  pending : s.state.forAck ≠ ∅ → s.state.results ≠ []
  nonempty : ∀ ack ∈ issued log ++ s.loop.ack?.toList, ack.results ≠ []

theorem Announced.adds {st st' : DownstreamState} {acks : List Message.DownstreamChunkAck}
    {r : Except Error UpstreamInfo} (h : Announced st acks) (ha : st.AddsUpstreamInfo r st') :
    Announced st' acks := by
  cases ha with
  | invalid | known => exact h
  | @registered info newAlias hnew =>
    intro infoAlias info' hi
    simp only [Std.ExtTreeMap.getElem?_insert, Std.compare_eq_iff_eq] at hi ⊢
    by_cases he : newAlias = infoAlias
    · rw [if_pos he] at hi ⊢
      obtain rfl := Option.some.inj hi
      exact .inl rfl
    · rw [if_neg he] at hi ⊢
      exact h infoAlias info' hi

theorem Announced.takes {st st' : DownstreamState} {acks : List Message.DownstreamChunkAck}
    {streamIdAlias : UInt32} {ack : Message.DownstreamChunkAck} (h : Announced st acks)
    (ht : st.TakesAck streamIdAlias ack st') : Announced st' (acks ++ [ack]) := by
  intro infoAlias info hi
  rw [ht.infos] at hi
  rcases h infoAlias info hi with hf | ⟨ack', hm, ha⟩
  · exact .inr ⟨ack, by simp, by rw [ht.upstreamAliases]; exact hf⟩
  · exact .inr ⟨ack', by simp [hm], ha⟩

theorem histories_eq_nil (h : ∀ e ∈ evs, ¬ e.chunks) : recorded evs = [] ∧ issued evs = [] := by
  constructor
  · rw [recorded, List.filterMap_eq_nil_iff]
    intro e he
    have := h e he
    cases e <;> first | rfl | exact absurd trivial this
  · rw [issued, List.filterMap_eq_nil_iff]
    intro e he
    have := h e he
    cases e <;> first | rfl | exact absurd trivial this

theorem recorded_map (es : List ResumeEvent) : recorded (es.map .resume) = [] := by
  simp [recorded, Event.recorded?, List.filterMap_map, Function.comp_def]

theorem issued_map (es : List ResumeEvent) : issued (es.map .resume) = [] := by
  simp [issued, Event.issued?, List.filterMap_map, Function.comp_def]

namespace Accounted

theorem quiet (h : Accounted log s) (hr : recorded evs = []) (hi : Downstream.issued evs = [])
    (hs : s'.state = s.state) (ha : s'.loop.ack? = s.loop.ack?) : Accounted (log ++ evs) s' := by
  refine ⟨?_, ?_, ?_, ?_⟩
  · rw [recorded_append, issued_append, hr, hi, hs, ha, List.append_nil, List.append_nil]
    exact h.results
  · rw [issued_append, hi, hs, ha, List.append_nil]
    exact h.aliases
  · rw [hs]
    exact h.pending
  · rw [issued_append, hi, ha, List.append_nil]
    exact h.nonempty

theorem converted {chunk : DownstreamChunk} {state : DownstreamState} (h : Accounted log s)
    (hc : s.state.Converts (.ok (some chunk)) state) (hs : s'.state = state)
    (hl : s.loop.ack? = none) (hl' : s'.loop.ack? = none) :
    Accounted (log ++ [Event.recorded chunk.upstream.streamId chunk.sequenceNumber]) s' := by
  have hissued : Downstream.issued (log ++ [Event.recorded chunk.upstream.streamId chunk.sequenceNumber]) ++
      s'.loop.ack?.toList = Downstream.issued log ++ s.loop.ack?.toList := by
    rw [issued_append, hl, hl']
    simp [Downstream.issued, Event.issued?]
  refine ⟨?_, ?_, ?_, ?_⟩
  · rw [hissued, recorded_append, h.results, hs, hc.results]
    simp [recorded, Event.recorded?]
  · rw [hissued, hs]
    cases hc with
    | @chunk _ st₁ hadds =>
      have hst₁ : Announced st₁ _ := h.aliases.adds hadds
      exact hst₁
  · rw [hs, hc.results]
    simp
  · rw [hissued]
    exact h.nonempty

theorem sent {ack : Message.DownstreamChunkAck} (h : Accounted log s) (hr : recorded evs = [])
    (hi : Downstream.issued evs = [ack]) (hs : s'.state = s.state) (hl : s.loop.ack? = some ack)
    (hl' : s'.loop.ack? = none) : Accounted (log ++ evs) s' := by
  have hissued : Downstream.issued (log ++ evs) ++ s'.loop.ack?.toList =
      Downstream.issued log ++ s.loop.ack?.toList := by
    rw [issued_append, hi, hl, hl']
    simp
  refine ⟨?_, ?_, ?_, ?_⟩
  · rw [hissued, recorded_append, hr, List.append_nil, hs]
    exact h.results
  · rw [hissued, hs]
    exact h.aliases
  · rw [hs]
    exact h.pending
  · rw [hissued]
    exact h.nonempty

theorem loopStep {a : LoopAction} (h : Accounted log s) (hl : LoopStep o s a s' evs) :
    Accounted (log ++ evs) s' := by
  cases hl with
  | quiet hcore he hi hi' =>
    obtain ⟨hr, hiss⟩ := histories_eq_nil he
    exact h.quiet hr hiss (core_eq hcore).2.2.1 (by rw [hi.1, hi'.1])
  | converted hi _ hc _ hloop =>
    refine h.converted hc rfl hi.1 ?_
    rcases hloop with rfl | rfl <;> rfl
  | refused hi _ hc => exact h.converted hc rfl hi.1 rfl
  | @ackTaken _ ack state loop hi _ ht hloop =>
    have hack : loop.ack? = some ack := by rcases hloop with rfl | rfl <;> rfl
    have hissued : Downstream.issued (log ++ []) ++ (some ack).toList =
        (Downstream.issued log ++ s.loop.ack?.toList) ++ [ack] := by simp [hi.1]
    refine ⟨?_, ?_, ?_, ?_⟩
    · rw [hack, hissued, results_append, ht.results', List.append_nil, List.append_nil, h.results]
      simp [Downstream.results, ht.results]
    · rw [hack, hissued]
      exact h.aliases.takes ht
    · intro hf
      exact absurd ht.forAck' hf
    · rw [hack, hissued]
      intro ack' hm
      rcases List.mem_append.1 hm with hm | hm
      · exact h.nonempty ack' hm
      · obtain rfl := List.mem_singleton.1 hm
        rw [ht.results]
        exact ht.nonempty.elim id h.pending
  | ackSent hack _ hi | ackFailed hack _ hi => exact h.sent rfl rfl rfl hack hi.1
  | next hl | sent hl | readerGone hl | drainSent hl | drainDropped hl | restart hl =>
    exact h.quiet rfl rfl rfl (by rw [hl]; rfl)
  | nextNone hl _ hi =>
    refine h.quiet rfl rfl rfl ?_
    rw [hi.1]
    rcases hl with hl | hl <;> rw [hl] <;> rfl

theorem step {a : Action} (h : Accounted log s) (st : Step o s a s' evs) : Accounted (log ++ evs) s' := by
  cases st with
  | loop hl => exact h.loopStep hl
  | resume _ _ hs =>
    exact h.quiet (recorded_map _) (issued_map _) hs.state (by rw [hs.loop])
  | env _ _ hs _ he =>
    obtain ⟨hr, hi⟩ := histories_eq_nil he
    exact h.quiet hr hi hs.state (by rw [hs.loop])

end Accounted

theorem accounted {C : List Event → State → Action → Prop} (h : o.machine.Exec C log s) :
    Accounted log s := by
  refine h.invariant ⟨rfl, ?_, ?_, ?_⟩ fun _ _ _ _ _ _ hi _ ha => hi.step (step_step ha)
  · intro infoAlias info hi
    simp [Opened.machine, Opened.init] at hi
  · simp [Opened.machine, Opened.init]
  · simp [Opened.machine, Opened.init, issued, Event.issued?, LoopPc.ack?]

/-! ### What a refused ack loses -/

def Event.refused? : Event → Option Message.DownstreamChunkAck
  | .ackFailed _ ack => some ack
  | _ => none

theorem length_results_issued (log : List Event) : (results (issued log)).length =
    (results (accepted log)).length + (results (log.filterMap Event.refused?)).length := by
  induction log with
  | nil => rfl
  | cons e log ih =>
    cases e with
    | ackSent conn ack | ackFailed conn ack =>
      simp only [issued, accepted, results, List.filterMap_cons, Event.issued?, Event.accepted?,
        Event.refused?, List.flatMap_cons, List.length_append] at ih ⊢
      omega
    | _ => exact ih

theorem issued_eq_accepted (h : ∀ conn ack, .ackFailed conn ack ∉ log) : issued log = accepted log := by
  refine List.filterMap_congr fun e he => ?_
  cases e with
  | ackFailed conn ack => exact absurd he (h conn ack)
  | _ => rfl

/-- In every run, nothing recorded has been lost exactly if `send_message` has refused no ack. -/
theorem acks_kept_iff (o : Opened) (h : o.machine.Run log s) :
    AcksKept log s ↔ ∀ conn ack, .ackFailed conn ack ∉ log := by
  have hacc := accounted h
  constructor
  · intro hk conn ack hm
    -- The refused ack acknowledged something, which is in no other ack and not pending.
    have hne : ack.results ≠ [] := by
      refine hacc.nonempty ack (List.mem_append_left _ ?_)
      exact List.mem_filterMap.2 ⟨_, hm, rfl⟩
    have hlen := congrArg List.length (hk.results.symm.trans hacc.results)
    have hissued := length_results_issued log
    have hlost : 0 < (results (log.filterMap Event.refused?)).length := by
      rw [List.length_pos_iff]
      intro hnil
      rw [results, List.flatMap_eq_nil_iff] at hnil
      exact hne (hnil ack (List.mem_filterMap.2 ⟨_, hm, rfl⟩))
    simp only [results_append, List.length_append] at hlen
    omega
  · intro hno
    have he := issued_eq_accepted hno
    exact ⟨by rw [← he]; exact hacc.results, by rw [← he]; exact hacc.aliases⟩

/-- A chunk is delivered and acknowledged, the connection is lost and the stream resumed. -/
theorem acks_kept_iff_resumed :
    ∃ log s, defaultOpened.machine.Run log s ∧ (accepted log).length = 1 ∧ s.loop = .reading ∧
      (AcksKept log s ↔ ∀ conn ack, .ackFailed conn ack ∉ log) := by
  obtain ⟨log, s, h, hlen, hs⟩ := Machine.Exec.exists_of_any (M := defaultOpened.machine)
    (C := fun _ _ _ => True)
    (startRun ++ receiveRun 1 ++
      ([.loop .ackInterval, .loop (.wireSent (.ok ())), .senderDropped, .loop .recv] : List Action) ++
      reconnectRun ++
      ([.resume (.responded (.ok (0, "b"))), .resume (.poll 0 true), .loop .joined] : List Action))
    (P := fun log s => (accepted log).length = 1 ∧ s.loop = .reading) (by decide +kernel)
  exact ⟨log, s, h, hlen, hs, acks_kept_iff defaultOpened h⟩

/-- The connection is lost while the ack is being sent. The stream is resumed, and neither the result nor
the upstream's alias is pending again. -/
theorem acks_kept_lost :
    ∃ log s, defaultOpened.machine.Run log s ∧ s.loop = .reading ∧ ¬ AcksKept log s := by
  obtain ⟨log, s, h, hs, hlost⟩ := Machine.Exec.exists_of_any (M := defaultOpened.machine)
    (C := fun _ _ _ => True)
    (startRun ++ receiveRun 1 ++
      ([.loop .ackInterval, .loop (.wireSent (.error .connectionClosed))] : List Action) ++ reconnectRun ++
      ([.resume (.responded (.ok (0, "b"))), .resume (.poll 0 true), .loop .joined] : List Action))
    (P := fun log s => s.loop = .reading ∧
      recorded log ≠ results (accepted log ++ s.loop.ack?.toList) ++ s.state.results)
    (by decide +kernel)
  exact ⟨log, s, h, hs, fun hk => hlost hk.results⟩

end Iscp.Downstream
