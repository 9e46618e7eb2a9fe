import Iscp.Downstream.Steps

/-!
# The metadata of a downstream

Of every metadata that the loop takes from its channel the history shows a round of its own: that it is taken, that it
is given to the application, that it is acknowledged. The rounds do not overlap. Beside the read loop there is the drain,
which waits for nothing, so it acknowledges also what the application can not get any more.
-/

namespace Iscp.Downstream

variable {o : Opened} {s s' : State} {evs : List Event}

/-- A metadata that the loop takes from its channel; if the drain does, whether there is room for it. -/
structure Taken where
  metadata : Message.DownstreamMetadata
  drain : Option Bool := none
deriving DecidableEq

/-- What the history shows of a metadata. -/
inductive MetadataEvent
  | taken (t : Taken)
  | delivered (metadata : DownstreamMetadata)
  /-- The ack is given to the connection, which may fail to send it. -/
  | acked (ack : Message.DownstreamMetadataAck)
deriving DecidableEq

def State.room (o : Opened) (s : State) : Bool := s.metadata.length < o.channelSize ∧ !s.metadataReaderDropped

/-- The metadata that a step takes. -/
def takes (o : Opened) (s : State) : Action → List Taken
  | .loop .recv =>
    match s.loop, s.rxMsg with
    | .reading, .metadata metadata :: _ => [{ metadata }]
    | _, _ => []
  | .loop .drain =>
    match s.loop, s.rxMsg with
    | .draining, .metadata metadata :: _ => [{ metadata, drain := some (s.room o) }]
    | _, _ => []
  | _ => []

def Event.metadata? : Event → Option MetadataEvent
  | .metadataDelivered metadata => some (.delivered metadata)
  | .metadataAckSent _ ack | .metadataAckFailed _ ack => some (.acked ack)
  | _ => none

def Event.metadataRead? : Event → Option DownstreamMetadata
  | .readMetadata (.ok metadata) => some metadata
  | _ => none

/-- What a history with the metadata that were taken shows of them. -/
def metadataEvents (log : List (Taken ⊕ Event)) : List MetadataEvent :=
  log.filterMap (Sum.elim (fun t => some (.taken t)) Event.metadata?)

@[simp] theorem metadataEvents_append (log log' : List (Taken ⊕ Event)) :
    metadataEvents (log ++ log') = metadataEvents log ++ metadataEvents log' := List.filterMap_append

theorem metadataEvents_step (ts : List Taken) (es : List Event) :
    metadataEvents (ts.map .inl ++ es.map .inr) = ts.map .taken ++ es.filterMap Event.metadata? := by
  rw [metadataEvents_append]
  congr 1
  · simp [metadataEvents, List.filterMap_map, Function.comp_def]
  · simp [metadataEvents, List.filterMap_map, Function.comp_def]

/-- A round. In the read loop a metadata is delivered, then acknowledged, unless the application's reader is `gone`; in
the drain it is delivered if there is room, and acknowledged in any case, if there is a connection. -/
inductive Round (gone : Bool) : List MetadataEvent → Prop
  | invalid {t e} : convertDownstreamMetadata t.metadata = .error e → Round gone [.taken t]
  | answered {msg metadata ack} : convertDownstreamMetadata msg = .ok (metadata, ack) →
      Round gone [.taken ⟨msg, none⟩, .delivered metadata, .acked ack]
  | readerGone {msg metadata ack} : convertDownstreamMetadata msg = .ok (metadata, ack) → gone →
      Round gone [.taken ⟨msg, none⟩]
  | drained {msg metadata ack acked} : convertDownstreamMetadata msg = .ok (metadata, ack) → acked = [] ∨ acked = [.acked ack] →
      Round gone (.taken ⟨msg, some true⟩ :: .delivered metadata :: acked)
  | lost {msg metadata ack acked} : convertDownstreamMetadata msg = .ok (metadata, ack) → acked = [] ∨ acked = [.acked ack] →
      Round gone (.taken ⟨msg, some false⟩ :: acked)

/-- Whether the loop has a metadata or its ack in its hands. -/
def LoopPc.holdsMetadata : LoopPc → Bool
  | .sendingMetadata _ _ | .metadataAck _ | .drainMetadataAck _ => true
  | _ => false

/-- The round that the loop is in. -/
inductive Begun : LoopPc → List MetadataEvent → Prop
  | sending {msg metadata ack} : convertDownstreamMetadata msg = .ok (metadata, ack) →
      Begun (.sendingMetadata metadata ack) [.taken ⟨msg, none⟩]
  | delivered {msg metadata ack} : convertDownstreamMetadata msg = .ok (metadata, ack) →
      Begun (.metadataAck ack) [.taken ⟨msg, none⟩, .delivered metadata]
  | drained {msg metadata ack} : convertDownstreamMetadata msg = .ok (metadata, ack) →
      Begun (.drainMetadataAck ack) [.taken ⟨msg, some true⟩, .delivered metadata]
  | lost {msg metadata ack} : convertDownstreamMetadata msg = .ok (metadata, ack) →
      Begun (.drainMetadataAck ack) [.taken ⟨msg, some false⟩]
  | idle {loop} : loop.holdsMetadata = false → Begun loop []

theorem Round.mono {gone gone' : Bool} {es : List MetadataEvent} (h : Round gone es) (hg : gone → gone') : Round gone' es := by
  cases h with
  | invalid he => exact .invalid he
  | answered hm => exact .answered hm
  | readerGone hm hgone => exact .readerGone hm (hg hgone)
  | drained hm ha => exact .drained hm ha
  | lost hm ha => exact .lost hm ha

/-- What a step of the loop does with a metadata. -/
inductive MetadataStep (o : Opened) (s : State) : List Taken → State → List Event → Prop
  | other {s' : State} {evs : List Event} : s.loop.holdsMetadata = false → s'.loop.holdsMetadata = false → evs.filterMap Event.metadata? = [] →
      evs.filterMap Event.metadataRead? = [] → s'.metadata = s.metadata →
      s'.metadataReaderDropped = s.metadataReaderDropped → MetadataStep o s [] s' evs
  | invalid {t rxMsg e} : s.loop.holdsMetadata = false → convertDownstreamMetadata t.metadata = .error e →
      MetadataStep o s [t] { s with rxMsg := rxMsg } []
  | took {msg metadata ack rxMsg} : s.loop.holdsMetadata = false → convertDownstreamMetadata msg = .ok (metadata, ack) →
      MetadataStep o s [⟨msg, none⟩] { s with rxMsg := rxMsg, loop := .sendingMetadata metadata ack } []
  | drained {msg metadata ack rxMsg loop} : s.loop.holdsMetadata = false → s.metadataReaderDropped = false →
      convertDownstreamMetadata msg = .ok (metadata, ack) → loop = .draining ∨ loop = .drainMetadataAck ack → MetadataStep o s [⟨msg, some true⟩]
        { s with rxMsg := rxMsg, metadata := s.metadata ++ [metadata], loop := loop } [.metadataDelivered metadata]
  | lost {msg metadata ack rxMsg loop} : s.loop.holdsMetadata = false → convertDownstreamMetadata msg = .ok (metadata, ack) →
      loop = .draining ∨ loop = .drainMetadataAck ack →
      MetadataStep o s [⟨msg, some false⟩] { s with rxMsg := rxMsg, loop := loop } []
  | delivered {metadata ack} : s.loop = .sendingMetadata metadata ack → s.metadataReaderDropped = false → MetadataStep o s []
      { s with metadata := s.metadata ++ [metadata], loop := .metadataAck ack } [.metadataDelivered metadata]
  | readerGone {metadata ack} : s.loop = .sendingMetadata metadata ack → s.metadataReaderDropped →
      MetadataStep o s [] { s with ct := true, loop := .draining } []
  | acked {ack loop e} : s.loop = .metadataAck ack ∨ s.loop = .drainMetadataAck ack → loop.holdsMetadata = false →
      e.metadata? = some (.acked ack) → e.metadataRead? = none → MetadataStep o s [] { s with loop := loop } [e]

theorem onChunk_metadata {rxMsg : List ReceivableDownstreamMsg} {chunk : Message.DownstreamChunk} {skip : LoopPc}
    {emit : DownReordererIter → LoopPc} (hl : s.loop.holdsMetadata = false) (hskip : skip.holdsMetadata = false)
    (hemit : ∀ it, (emit it).holdsMetadata = false)
    (h : { s with rxMsg := rxMsg }.onChunk o.config chunk skip emit = (s', evs)) : MetadataStep o s [] s' evs := by
  unfold State.onChunk at h
  dsimp only at h
  split at h
  · split at h <;> cases h
    · exact .other hl (hemit _) rfl rfl rfl rfl
    · exact .other hl rfl rfl rfl rfl rfl
  · cases h
    exact .other hl hskip rfl rfl rfl rfl
  · cases h
    exact .other hl rfl rfl rfl rfl rfl

theorem loopStep_metadata {a : LoopAction} (h : loopStep o s a = some (s', evs)) :
    MetadataStep o s (takes o s (.loop a)) s' evs := by
  have other {loop : LoopPc} (hl : s.loop = loop) (hh : loop.holdsMetadata = false) (hs : s'.loop.holdsMetadata = false)
      (he : evs.filterMap Event.metadata? = [] ∧ evs.filterMap Event.metadataRead? = [])
      (hm : s'.metadata = s.metadata ∧ s'.metadataReaderDropped = s.metadataReaderDropped) : MetadataStep o s [] s' evs :=
    .other (by rw [hl]; exact hh) hs he.1 he.2 hm.1 hm.2
  cases a with
  | recv =>
    simp only [loopStep] at h
    split at h
    · rename_i msg rxMsg hl hm
      cases msg with
      | chunk chunk =>
        simp only [takes, hl, hm]
        exact onChunk_metadata (by rw [hl]; rfl) rfl (fun _ => rfl) (Option.some.inj h)
      | metadata metadata =>
        simp only [takes, hl, hm]
        simp only [State.onMsg] at h
        split at h <;> rename_i hconv <;> cases h
        · exact .took (by rw [hl]; rfl) hconv
        · exact .invalid (by rw [hl]; rfl) hconv
      | chunkAckComplete complete =>
        have ht : takes o s (.loop .recv) = [] := by simp only [takes, hl, hm]
        rw [ht]
        cases h
        exact other hl rfl (by simp only [State.checkChunkAckComplete, hl]; rfl) ⟨rfl, rfl⟩ ⟨rfl, rfl⟩
    · rename_i hl hm
      have ht : takes o s (.loop .recv) = [] := by simp only [takes, hl, hm]
      rw [ht]
      split at h <;> cases h
      exact other hl rfl rfl ⟨rfl, rfl⟩ ⟨rfl, rfl⟩
    · cases h
  | drain =>
    simp only [loopStep] at h
    split at h
    · rename_i msg rxMsg hl hm
      cases msg with
      | chunk chunk =>
        simp only [takes, hl, hm]
        exact onChunk_metadata (by rw [hl]; rfl) rfl (fun _ => rfl) (Option.some.inj h)
      | metadata metadata =>
        have hloop (b : Bool) (ack : Message.DownstreamMetadataAck) : (if b then LoopPc.drainMetadataAck ack else .draining) = .draining ∨
            (if b then LoopPc.drainMetadataAck ack else .draining) = .drainMetadataAck ack := by
          cases b <;> simp
        simp only [takes, hl, hm]
        simp only [State.onDrained] at h
        split at h <;> rename_i hconv
        · split at h <;> rename_i hroom <;> cases h
          · rw [State.room, decide_eq_true hroom]
            exact .drained (by rw [hl]; rfl) (by simpa using hroom.2) hconv (hloop _ _)
          · rw [State.room, decide_eq_false hroom]
            exact .lost (by rw [hl]; rfl) hconv (hloop _ _)
        · cases h
          exact .invalid (by rw [hl]; rfl) hconv
      | chunkAckComplete complete =>
        have ht : takes o s (.loop .drain) = [] := by simp only [takes, hl, hm]
        rw [ht]
        cases h
        exact other hl rfl (by simp only [State.checkChunkAckComplete, hl]; rfl) ⟨rfl, rfl⟩ ⟨rfl, rfl⟩
    · rename_i hl hm
      have ht : takes o s (.loop .drain) = [] := by simp only [takes, hl, hm]
      rw [ht]
      cases h
      exact other hl rfl rfl ⟨rfl, rfl⟩ ⟨rfl, rfl⟩
    · cases h
  | metadataSent =>
    simp only [loopStep] at h
    split at h
    · rename_i hl
      split at h <;> rename_i hgone
      · cases h
        exact .readerGone hl hgone
      · split at h <;> cases h
        exact .delivered hl (by simpa using hgone)
    · cases h
  | wireSent result =>
    simp only [loopStep] at h
    split at h <;> cases h <;> rename_i hl
    · exact .acked (.inl hl) rfl rfl rfl
    · exact .acked (.inl hl) rfl rfl rfl
    · exact other hl rfl rfl ⟨rfl, rfl⟩ ⟨rfl, rfl⟩
    · exact other hl rfl rfl ⟨rfl, rfl⟩ ⟨rfl, rfl⟩
    · exact .acked (.inr hl) rfl rfl rfl
    · exact .acked (.inr hl) rfl rfl rfl
    · exact other hl rfl rfl ⟨rfl, rfl⟩ ⟨rfl, rfl⟩
    · exact other hl rfl rfl ⟨rfl, rfl⟩ ⟨rfl, rfl⟩
  | joined =>
    simp only [loopStep] at h
    split at h <;> cases h <;> rename_i hl _ <;> exact other hl rfl rfl ⟨rfl, rfl⟩ ⟨rfl, rfl⟩
  | ackInterval =>
    simp only [loopStep] at h
    split at h <;> cases h <;> rename_i hl _
    · exact other hl rfl rfl ⟨rfl, rfl⟩ ⟨rfl, rfl⟩
    · exact other hl rfl (by simp only [hl]; rfl) ⟨rfl, rfl⟩ ⟨rfl, rfl⟩
  | cancelled =>
    simp only [loopStep] at h
    split at h
    · rename_i hl
      split at h <;> cases h
      exact other hl rfl rfl ⟨rfl, rfl⟩ ⟨rfl, rfl⟩
    · cases h
  | next | connEnd =>
    simp only [loopStep] at h
    split at h
    · rename_i hl
      split at h
      · first
          | (split at h <;> cases h <;> exact other hl rfl rfl ⟨rfl, rfl⟩ ⟨rfl, rfl⟩)
          | (cases h; exact other hl rfl rfl ⟨rfl, rfl⟩ ⟨rfl, rfl⟩)
      · cases h
        exact other hl rfl rfl ⟨rfl, rfl⟩ ⟨rfl, rfl⟩
    · cases h
  | sent =>
    simp only [loopStep] at h
    split at h
    · rename_i hl
      split at h
      · cases h
        exact other hl rfl rfl ⟨rfl, rfl⟩ ⟨rfl, rfl⟩
      · split at h <;> cases h
        exact other hl rfl rfl ⟨rfl, rfl⟩ ⟨rfl, rfl⟩
    · cases h
  | drainNext | ackAfterDrain =>
    simp only [loopStep] at h
    split at h
    · rename_i hl
      split at h
      · split at h <;> cases h <;> exact other hl rfl rfl ⟨rfl, rfl⟩ ⟨rfl, rfl⟩
      · cases h
        exact other hl rfl rfl ⟨rfl, rfl⟩ ⟨rfl, rfl⟩
    · cases h
  | completeDone | completeTimedOut =>
    simp only [loopStep] at h
    split at h
    · rename_i hl
      split at h <;> cases h
      exact other hl rfl rfl ⟨rfl, rfl⟩ ⟨rfl, rfl⟩
    · cases h
  | completeRecv =>
    simp only [loopStep] at h
    split at h
    · rename_i hl _
      split at h <;> cases h
      exact other hl rfl (by simp only [State.checkChunkAckComplete, hl]; rfl) ⟨rfl, rfl⟩ ⟨rfl, rfl⟩
    · rename_i hl _
      split at h <;> cases h
      exact other hl rfl (by simp only [hl]; rfl) ⟨rfl, rfl⟩ ⟨rfl, rfl⟩
    · rename_i hl _
      split at h <;> cases h
      exact other hl rfl rfl ⟨rfl, rfl⟩ ⟨rfl, rfl⟩
    · cases h
  | closeResponded result =>
    have hsame (answer : Except Error Unit) : (s.sendResult answer).metadata = s.metadata ∧
        (s.sendResult answer).metadataReaderDropped = s.metadataReaderDropped := by
      unfold State.sendResult
      split <;> exact ⟨rfl, rfl⟩
    simp only [loopStep] at h
    split at h <;> cases h
    rename_i hl
    exact other hl rfl rfl ⟨rfl, rfl⟩ (hsame _)
  | exit | storeCause =>
    simp only [loopStep] at h
    split at h <;> cases h <;> rename_i hl <;> exact other hl rfl rfl ⟨rfl, rfl⟩ ⟨rfl, rfl⟩

/-! ### Over whole runs -/

def metadataRead (log : List (Taken ⊕ Event)) : List DownstreamMetadata :=
  log.filterMap (Sum.elim (fun _ => none) Event.metadataRead?)

def MetadataEvent.delivered? : MetadataEvent → Option DownstreamMetadata
  | .delivered metadata => some metadata
  | _ => none

/-- A sequence of rounds, the last of which may be at hand. -/
def InRounds (gone : Bool) (loop : LoopPc) (es : List MetadataEvent) : Prop :=
  ∃ (rounds : List (List MetadataEvent)) (begun : List MetadataEvent), es = rounds.flatten ++ begun ∧
    (∀ r ∈ rounds, Round gone r) ∧ Begun loop begun

namespace InRounds

variable {gone gone' : Bool} {loop loop' : LoopPc} {es new : List MetadataEvent}

theorem extend (h : InRounds gone loop es) (hb : ∀ begun, Begun loop begun → Begun loop' (begun ++ new)) :
    InRounds gone loop' (es ++ new) := by
  obtain ⟨rounds, begun, rfl, hrounds, hbegun⟩ := h
  exact ⟨rounds, begun ++ new, by rw [List.append_assoc], hrounds, hb begun hbegun⟩

theorem finish (h : InRounds gone loop es) (hr : ∀ begun, Begun loop begun → Round gone (begun ++ new))
    (hl : loop'.holdsMetadata = false) : InRounds gone loop' (es ++ new) := by
  obtain ⟨rounds, begun, rfl, hrounds, hbegun⟩ := h
  refine ⟨rounds ++ [begun ++ new], [], ?_, ?_, .idle hl⟩
  · simp
  · exact List.forall_mem_append.2 ⟨hrounds, List.forall_mem_singleton.2 (hr begun hbegun)⟩

theorem mono (h : InRounds gone loop es) (hg : gone → gone') : InRounds gone' loop es := by
  obtain ⟨rounds, begun, he, hrounds, hbegun⟩ := h
  exact ⟨rounds, begun, he, fun r hr => (hrounds r hr).mono hg, hbegun⟩

end InRounds

theorem Begun.eq_nil {loop : LoopPc} {es : List MetadataEvent} (h : Begun loop es) (hl : loop.holdsMetadata = false) : es = [] := by
  cases h with
  | idle => rfl
  | _ => cases hl

theorem MetadataStep.inRounds {ts : List Taken} {es : List MetadataEvent} (h : MetadataStep o s ts s' evs)
    (hi : InRounds s.metadataReaderDropped s.loop es) :
    InRounds s'.metadataReaderDropped s'.loop (es ++ (ts.map .taken ++ evs.filterMap Event.metadata?)) := by
  have starts {loop : LoopPc} {new : List MetadataEvent} (hl : s.loop.holdsMetadata = false) (hb : Begun loop new) :
      InRounds s.metadataReaderDropped loop (es ++ new) :=
    hi.extend fun begun hbegun => by rw [hbegun.eq_nil hl]; exact hb
  have passes {loop : LoopPc} {new : List MetadataEvent} (hl : s.loop.holdsMetadata = false) (hr : Round s.metadataReaderDropped new)
      (hl' : loop.holdsMetadata = false) : InRounds s.metadataReaderDropped loop (es ++ new) :=
    hi.finish (fun begun hbegun => by rw [hbegun.eq_nil hl]; exact hr) hl'
  cases h with
  | other hl hl' he _ _ hgone =>
    rw [he, hgone]
    exact starts hl (.idle hl')
  | invalid hl he => exact passes hl (.invalid he) hl
  | took hl hconv => exact starts hl (.sending hconv)
  | drained hl _ hconv hloop =>
    rcases hloop with rfl | rfl
    · exact passes hl (.drained hconv (.inl rfl)) rfl
    · exact starts hl (.drained hconv)
  | lost hl hconv hloop =>
    rcases hloop with rfl | rfl
    · exact passes hl (.lost hconv (.inl rfl)) rfl
    · exact starts hl (.lost hconv)
  | delivered hl =>
    refine hi.extend fun begun hbegun => ?_
    rw [hl] at hbegun
    cases hbegun with
    | sending hconv => exact .delivered hconv
    | idle hl => cases hl
  | readerGone hl hgone =>
    refine hi.finish (fun begun hbegun => ?_) rfl
    rw [hl] at hbegun
    cases hbegun with
    | sending hconv => exact .readerGone hconv hgone
    | idle hl => cases hl
  | acked hl hl' he =>
    rw [List.filterMap_cons_some he]
    refine hi.finish (fun begun hbegun => ?_) hl'
    rcases hl with hl | hl
    · rw [hl] at hbegun
      cases hbegun with
      | delivered hconv => exact .answered hconv
      | idle hl => cases hl
    · rw [hl] at hbegun
      cases hbegun with
      | drained hconv => exact .drained hconv (.inr rfl)
      | lost hconv => exact .lost hconv (.inr rfl)
      | idle hl => cases hl

/-- The application's channel gets what is delivered. -/
theorem MetadataStep.channel {ts : List Taken} (h : MetadataStep o s ts s' evs) :
    s'.metadata = s.metadata ++ (ts.map MetadataEvent.taken ++ evs.filterMap Event.metadata?).filterMap MetadataEvent.delivered? ∧
      evs.filterMap Event.metadataRead? = [] ∧ s'.metadataReaderDropped = s.metadataReaderDropped ∧
      (s.metadataReaderDropped → s'.metadata = s.metadata) := by
  cases h with
  | other _ _ he hr hm hgone => exact ⟨by rw [hm, he]; exact (List.append_nil _).symm, hr, hgone, fun _ => hm⟩
  | invalid | took | lost | readerGone => exact ⟨(List.append_nil _).symm, rfl, rfl, fun _ => rfl⟩
  | drained _ hgone | delivered _ hgone => exact ⟨rfl, rfl, rfl, fun h => by rw [hgone] at h; cases h⟩
  | acked _ _ he hr =>
    rw [List.filterMap_cons_some he, List.filterMap_cons_none hr]
    exact ⟨(List.append_nil _).symm, rfl, rfl, fun _ => rfl⟩

/-- The history of the metadata is a sequence of rounds, and the application reads what was delivered, in order. -/
structure Rounds (log : List (Taken ⊕ Event)) (s : State) : Prop where
  rounds : InRounds s.metadataReaderDropped s.loop (metadataEvents log)
  read : metadataRead log ++ s.metadata <+: (metadataEvents log).filterMap MetadataEvent.delivered?
  kept : s.metadataReaderDropped = false →
    metadataRead log ++ s.metadata = (metadataEvents log).filterMap MetadataEvent.delivered?

theorem metadataRead_step (log : List (Taken ⊕ Event)) (ts : List Taken) (es : List Event) :
    metadataRead (log ++ (ts.map .inl ++ es.map .inr)) = metadataRead log ++ es.filterMap Event.metadataRead? := by
  rw [metadataRead, List.filterMap_append, List.filterMap_append]
  congr 1
  simp [List.filterMap_map, Function.comp_def]

namespace Rounds

variable {log : List (Taken ⊕ Event)}

theorem metadataStep {ts : List Taken} (h : Rounds log s) (hs : MetadataStep o s ts s' evs) :
    Rounds (log ++ (ts.map .inl ++ evs.map .inr)) s' := by
  obtain ⟨hm, hr, hgone, hstays⟩ := hs.channel
  have he : metadataEvents (log ++ (ts.map .inl ++ evs.map .inr)) =
      metadataEvents log ++ (ts.map MetadataEvent.taken ++ evs.filterMap Event.metadata?) := by
    rw [metadataEvents_append, metadataEvents_step]
  have hread : metadataRead (log ++ (ts.map .inl ++ evs.map .inr)) = metadataRead log := by
    rw [metadataRead_step, hr, List.append_nil]
  have hkept (h0 : s.metadataReaderDropped = false) :
      metadataRead log ++ s'.metadata = (metadataEvents (log ++ (ts.map .inl ++ evs.map .inr))).filterMap MetadataEvent.delivered? := by
    rw [he, hm, ← List.append_assoc, h.kept h0, ← List.filterMap_append]
  refine ⟨?_, ?_, fun h0 => ?_⟩
  · rw [he]
    exact hs.inRounds h.rounds
  · rw [hread]
    cases h0 : s.metadataReaderDropped with
    | false => exact hkept h0 ▸ List.prefix_rfl
    | true =>
      rw [hstays h0, he, List.filterMap_append]
      exact h.read.trans (List.prefix_append _ _)
  · rw [hread]
    exact hkept (hgone ▸ h0)

/-- A step that takes from the application's channel, or leaves it alone. -/
theorem reads (h : Rounds log s) (hl : s'.loop = s.loop) (he : evs.filterMap Event.metadata? = [])
    (hgone : s.metadataReaderDropped → s'.metadataReaderDropped)
    (hread : evs.filterMap Event.metadataRead? ++ s'.metadata <+: s.metadata)
    (hkept : s'.metadataReaderDropped = false → evs.filterMap Event.metadataRead? ++ s'.metadata = s.metadata) :
    Rounds (log ++ evs.map .inr) s' := by
  have hevents : metadataEvents (log ++ evs.map .inr) = metadataEvents log := by
    have := metadataEvents_step [] evs
    rw [he] at this
    rw [metadataEvents_append]
    exact (congrArg _ this).trans (List.append_nil _)
  have hreads : metadataRead (log ++ evs.map .inr) = metadataRead log ++ evs.filterMap Event.metadataRead? :=
    metadataRead_step log [] evs
  refine ⟨?_, ?_, fun h0 => ?_⟩
  · rw [hevents, hl]
    exact h.rounds.mono hgone
  · rw [hevents, hreads, List.append_assoc]
    exact ((List.prefix_append_right_inj _).2 hread).trans h.read
  · have h0' : s.metadataReaderDropped = false := by
      by_contra hd
      rw [hgone (by simpa using hd)] at h0
      cases h0
    rw [hevents, hreads, List.append_assoc, hkept h0, h.kept h0']

theorem appStep {a : AppAction} (h : Rounds log s) (hs : AppStep s a s' evs) : Rounds (log ++ evs.map .inr) s' := by
  cases hs with
  | readMetadata hm => exact h.reads rfl rfl id (by rw [hm]; exact List.prefix_rfl) fun _ => by rw [hm]; rfl
  | dropMetadataReader => exact h.reads rfl rfl (fun _ => rfl) List.nil_prefix (by simp)
  | _ => exact h.reads rfl rfl id List.prefix_rfl fun _ => rfl

theorem step {a : Action} (h : Rounds log s) (hs : Downstream.step o s a = some (s', evs)) :
    Rounds (log ++ ((takes o s a).map .inl ++ evs.map .inr)) s' := by
  cases a with
  | loop a => exact h.metadataStep (loopStep_metadata hs)
  | app a => exact h.appStep (appStep_step hs)
  | _ =>
    obtain ⟨⟨_, _, _, _, _, rfl⟩, he⟩ := step_around hs (by simp) (by simp)
    have hnone : evs.filterMap Event.metadata? = [] ∧ evs.filterMap Event.metadataRead? = [] := by
      constructor <;> refine List.filterMap_eq_nil_iff.2 fun e hm => ?_ <;> obtain ⟨r, rfl⟩ := he e hm <;> rfl
    exact h.reads rfl hnone.1 id (by rw [hnone.2]; exact List.prefix_rfl) fun _ => by rw [hnone.2]; rfl

end Rounds

/-- In every run of a downstream its history of the metadata is a sequence of rounds, one after the other and one for each
that the loop has taken; and the application reads what is delivered, in order. -/
theorem metadata_rounds {log : List (Taken ⊕ Event)} (h : (o.machine.tap (takes o)).Run log s) : Rounds log s := by
  refine h.invariant (I := Rounds) ⟨⟨[], [], rfl, List.forall_mem_nil _, .idle rfl⟩, List.prefix_rfl, fun _ => rfl⟩ ?_
  intro log s a s' evs _ hi _ hs
  obtain ⟨es, hstep, rfl⟩ := Machine.tap_step hs
  exact hi.step hstep

/-- The metadata of a stream that was closed, with the request id `n`. -/
def closedMetadata (n : UInt32) : Message.DownstreamMetadata :=
  ⟨n, 1, "n", some (.downstreamAbnormalClose (List.replicate 16 0))⟩

/-- The second one is lost in the drain, and acknowledged like the first. -/
theorem metadata_rounds_lost : ∃ log s, (defaultOpened.machine.tap (takes defaultOpened)).Run log s ∧
    metadataEvents log =
      [.taken ⟨closedMetadata 1, none⟩, .delivered ⟨"n", .downstreamAbnormalClose ⟨List.replicate 16 0, rfl⟩⟩,
        .acked ⟨1, 0, "OK"⟩, .taken ⟨closedMetadata 2, some false⟩, .acked ⟨2, 0, "OK"⟩] ∧ Rounds log s := by
  obtain ⟨log, s, h, he⟩ := Machine.Exec.exists_of_any (M := defaultOpened.machine.tap (takes defaultOpened))
    (C := fun _ _ _ => True)
    (startRun ++ [.arrive (.metadata (closedMetadata 1)), .arrive (.metadata (closedMetadata 2)), .loop .recv, .loop .metadataSent,
      .loop (.wireSent (.ok ())), .cancel, .loop .cancelled, .loop .drain, .loop (.wireSent (.ok ()))])
    (P := fun log _ => metadataEvents log =
      [.taken ⟨closedMetadata 1, none⟩, .delivered ⟨"n", .downstreamAbnormalClose ⟨List.replicate 16 0, rfl⟩⟩,
        .acked ⟨1, 0, "OK"⟩, .taken ⟨closedMetadata 2, some false⟩, .acked ⟨2, 0, "OK"⟩]) (by decide +kernel)
  exact ⟨log, s, h, he, metadata_rounds h⟩

end Iscp.Downstream
