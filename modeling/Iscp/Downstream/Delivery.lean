import Iscp.Downstream.Acks
import Iscp.Downstream.ReorderSpec

/-!
# What a downstream acknowledges

A result is recorded when its chunk is converted, before the chunk is delivered. From then on the chunk is
in the reorderer or in the loop's hands until it is put into the application's channel; the one place where
it can get lost is the drain at the end of a connection, which does not wait for room in that channel.
-/

namespace Iscp.Downstream

variable {o : Opened} {s s' : State} {log evs : List Event} {u : Uuid} {n : UInt32}

/-- A chunk with this number of this upstream. -/
def Numbered (u : Uuid) (n : UInt32) (chunk : DownstreamChunk) : Prop :=
  chunk.upstream.streamId = u ∧ chunk.sequenceNumber = n

instance (u : Uuid) (n : UInt32) (chunk : DownstreamChunk) : Decidable (Numbered u n chunk) :=
  inferInstanceAs (Decidable (_ ∧ _))

def Event.delivered? : Event → Option DownstreamChunk
  | .delivered chunk => some chunk
  | _ => none

/-- The chunks that were put into the application's channel. -/
def delivered (log : List Event) : List DownstreamChunk := log.filterMap Event.delivered?

@[simp] theorem delivered_append : delivered (log ++ evs) = delivered log ++ delivered evs :=
  List.filterMap_append

/-- The chunks on their way from the reorderer to the channel. -/
def LoopPc.hands (loop : LoopPc) : List DownstreamChunk :=
  loop.chunk?.toList ++ loop.iter?.toList.flatMap DownReordererIter.held

/-- A chunk with this number is in the reorderer's store or on its way to the channel. -/
def Held (s : State) (u : Uuid) (n : UInt32) : Prop :=
  n ∈ s.reorderer.stored u ∨ ∃ chunk ∈ s.loop.hands, Numbered u n chunk

def Delivered (log : List Event) (u : Uuid) (n : UInt32) : Prop := ∃ chunk ∈ delivered log, Numbered u n chunk

instance (log : List Event) (u : Uuid) (n : UInt32) : Decidable (Delivered log u n) := by
  unfold Delivered; infer_instance

def Safe (log : List Event) (s : State) (u : Uuid) (n : UInt32) : Prop := Delivered log u n ∨ Held s u n

def Says (P : Uuid → UInt32 → Prop) (r : Message.DownstreamChunkResult) : Prop :=
  ∃ u : Uuid, r.streamIdOfUpstream = u.val ∧ P u r.sequenceNumberInUpstream

/-- Every chunk that an ack acknowledges was put into the application's channel or is held by the
reorderer, where it waits, unless the reorderer is just being drained, for the chunk that is expected. When
the loop has ended the reorderer is gone. -/
structure AckedDelivered (log : List Event) (s : State) : Prop where
  acked : ∀ r ∈ results (issued log),
    Says (fun u n => Delivered log u n ∨ s.loop.over = false ∧ Held s u n) r
  waiting : ∀ u, s.loop.iter? ≠ some (.reordered u) → s.reorderer.expected u ∉ s.reorderer.stored u

/-- The application neither closes nor drops the `Downstream`. -/
def KeepsOpen : Action → Prop
  | .app .close | .app .dropDownstream => False
  | _ => True

instance (a : Action) : Decidable (KeepsOpen a) := by
  unfold KeepsOpen; split <;> infer_instance

/-- A chunk that the drain takes from the reorderer finds room in the application's channel, unless one
with its number was put there before. -/
def DrainFits (o : Opened) (log : List Event) (s : State) : Action → Prop
  | .loop .drainNext =>
    ∀ it ∈ s.loop.iter?, ∀ chunk ∈ (s.reorderer.iterNext it).1,
      s.chunks.length < o.channelSize ∨ Delivered log chunk.upstream.streamId chunk.sequenceNumber
  | _ => True

instance (o : Opened) (log : List Event) (s : State) (a : Action) : Decidable (DrainFits o log s a) := by
  unfold DrainFits; split <;> infer_instance

/-- A loop that is about to end leaves no acknowledged chunk in its reorderer. -/
def EndsEmptied (o : Opened) (log : List Event) (s : State) : Action → Prop
  | .loop a => s.loop.over = false → ((loopStep o s a).any fun r => r.1.loop.over) →
    ∀ r ∈ results (issued log), ∀ u ∈ (parseStreamId r.streamIdOfUpstream).toOption,
      r.sequenceNumberInUpstream ∈ s.reorderer.stored u → Delivered log u r.sequenceNumberInUpstream
  | _ => True

instance (o : Opened) (log : List Event) (s : State) (a : Action) : Decidable (EndsEmptied o log s a) := by
  unfold EndsEmptied; split <;> infer_instance

abbrev Drains (o : Opened) (log : List Event) (s : State) (a : Action) : Prop :=
  KeepsOpen a ∧ DrainFits o log s a ∧ EndsEmptied o log s a

/-- What carries `AckedDelivered` over a run. -/
structure Holding (log : List Event) (s : State) : Prop where
  isOpen : s.chunkReaderDropped = false
  keyed : s.reorderer.Keyed
  acked : s.loop.over = false → ∀ r ∈ results (issued log ++ s.loop.ack?.toList), Says (Safe log s) r
  /-- What is pending is safe, unless the loop has ended: then it will not be acknowledged. -/
  pending : s.loop.over = false → ∀ r ∈ s.state.results, Says (Safe log s) r
  ended : s.loop.over → ∀ r ∈ results (issued log), Says (Delivered log) r
  waiting : ∀ u, s.loop.iter? ≠ some (.reordered u) → s.reorderer.expected u ∉ s.reorderer.stored u

theorem LoopPc.idle.hands {loop : LoopPc} (h : loop.idle) : loop.hands = [] := by
  simp [LoopPc.hands, h.2.1, h.2.2]

theorem LoopPc.hands_of_ack {loop : LoopPc} {ack : Message.DownstreamChunkAck} (h : loop.ack? = some ack) :
    loop.iter? = none ∧ loop.hands = [] := by
  cases loop <;> first | exact ⟨rfl, rfl⟩ | cases h

@[simp] theorem LoopPc.hands_sending (chunk : DownstreamChunk) (it : DownReordererIter) :
    (LoopPc.sending chunk it).hands = chunk :: it.held := by
  simp [LoopPc.hands, LoopPc.chunk?, LoopPc.iter?]

theorem LoopPc.hands_of_emitting {loop : LoopPc} {it : DownReordererIter}
    (h : loop = .emitting it ∨ loop = .drainEmitting it) : loop.hands = it.held := by
  rcases h with rfl | rfl <;> simp [LoopPc.hands, LoopPc.chunk?, LoopPc.iter?]

theorem Held.stored (h : Held s u n) (hh : s.loop.hands = []) : n ∈ s.reorderer.stored u := by
  rcases h with hm | ⟨c, hc, -⟩
  · exact hm
  · rw [hh] at hc
    cases hc

theorem Held.next {it it' : DownReordererIter} {chunk : DownstreamChunk} {r : DownReorderer}
    (h : Held s u n) (hl : s.loop = .emitting it ∨ s.loop = .drainEmitting it)
    (hn : s.reorderer.Nexts it chunk it' r) :
    n ∈ r.stored u ∨ Numbered u n chunk := by
  rcases h with hm | ⟨c, hc, hnum⟩
  · rcases hn.stored u n hm with hm | ⟨rfl, rfl⟩
    · exact .inl hm
    · exact .inr ⟨rfl, rfl⟩
  · rw [LoopPc.hands_of_emitting hl] at hc
    rcases hn.it with ⟨rfl, -⟩ | ⟨v, rfl, -⟩
    · obtain rfl : c = chunk := by simpa [DownReordererIter.held] using hc
      exact .inr hnum
    · simp [DownReordererIter.held] at hc

/-- Taking a chunk from an iterator does not make another upstream's expected chunk appear. -/
theorem waiting_next {it it' : DownReordererIter} {chunk : DownstreamChunk} {r r' : DownReorderer}
    (hn : r.Nexts it chunk it' r') (hu : it' ≠ .reordered u)
    (hw : it ≠ .reordered u → r.expected u ∉ r.stored u) : r'.expected u ∉ r'.stored u := by
  obtain ⟨hst, hex⟩ := hn.other u hu
  rw [hst, hex]
  refine hw fun he => hu ?_
  rcases hn.it with ⟨hi, -⟩ | ⟨v, -, hi⟩
  · rw [hi] at he
    cases he
  · rw [hi, he]

namespace Holding

/-- A step after which what was held is safe, and that acknowledges only what was pending; it ends the
loop only if what was acknowledged is delivered. -/
theorem step_of (h : Holding log s) (ho : s'.chunkReaderDropped = s.chunkReaderDropped)
    (hk : s'.reorderer.Keyed) (hheld : ∀ u n, Held s u n → Safe (log ++ evs) s' u n)
    (hover : s.loop.over → s'.loop.over)
    (hacks : issued evs ++ s'.loop.ack?.toList = s.loop.ack?.toList ∨
      results (issued evs ++ s'.loop.ack?.toList) = s.state.results)
    (hpend : s'.loop.over = false → ∀ r ∈ s'.state.results,
      r ∈ s.state.results ∨ Says (Safe (log ++ evs) s') r)
    (hend : s'.loop.over → issued evs = [] ∧
      (s.loop.over = false → ∀ r ∈ results (issued log), Says (Delivered log) r))
    (hwait : ∀ u, s'.loop.iter? ≠ some (.reordered u) →
      s'.reorderer.expected u ∉ s'.reorderer.stored u) : Holding (log ++ evs) s' := by
  have hdel {u : Uuid} {n : UInt32} (hd : Delivered log u n) : Delivered (log ++ evs) u n := by
    obtain ⟨chunk, hc, hn⟩ := hd
    exact ⟨chunk, by simp [hc], hn⟩
  have hsafe {r : Message.DownstreamChunkResult} (hr : Says (Safe log s) r) :
      Says (Safe (log ++ evs) s') r := by
    obtain ⟨u, hu, hd | hh⟩ := hr
    · exact ⟨u, hu, .inl (hdel hd)⟩
    · exact ⟨u, hu, hheld _ _ hh⟩
  have hbefore (hl : s'.loop.over = false) : s.loop.over = false :=
    Bool.eq_false_iff.2 fun ht => by simp [hover ht] at hl
  refine ⟨by rw [ho]; exact h.isOpen, hk, fun hl r hr => ?_, fun hl r hr => ?_, fun hl r hr => ?_, hwait⟩
  · have hl := hbefore hl
    rw [issued_append, List.append_assoc, results_append, List.mem_append] at hr
    rcases hr with hr | hr
    · exact hsafe (h.acked hl r (by rw [results_append]; exact List.mem_append_left _ hr))
    · rcases hacks with he | he <;> rw [he] at hr
      · exact hsafe (h.acked hl r (by rw [results_append]; exact List.mem_append_right _ hr))
      · exact hsafe (h.pending hl r hr)
  · rcases hpend hl r hr with hr | hr
    · exact hsafe (h.pending (hbefore hl) r hr)
    · exact hr
  · obtain ⟨hi, hend⟩ := hend hl
    rw [issued_append, hi, List.append_nil] at hr
    have hd : Says (Delivered log) r := by
      cases hs : s.loop.over with
      | false => exact hend hs r hr
      | true => exact h.ended hs r hr
    obtain ⟨u, hu, hd⟩ := hd
    exact ⟨u, hu, hdel hd⟩

/-- What an ending loop has acknowledged is delivered, since it leaves nothing of it in the reorderer. -/
theorem delivered_of_ends {a : LoopAction} (h : Holding log s) (hends : EndsEmptied o log s (.loop a))
    (hst : loopStep o s a = some (s', evs)) (hi : s.loop.hands = []) (hl : s.loop.over = false)
    (hl' : s'.loop.over) : ∀ r ∈ results (issued log), Says (Delivered log) r := by
  intro r hr
  obtain ⟨u, hu, hd | hh⟩ := h.acked hl r (by rw [results_append]; exact List.mem_append_left _ hr)
  · exact ⟨u, hu, hd⟩
  · refine ⟨u, hu, hends hl (by simp [hst, hl']) r hr u ?_ (hh.stored hi)⟩
    rw [hu, parseStreamId_val]
    rfl

/-- The loop takes a chunk from its iterator, and goes on with the chunk safe. -/
theorem nexts {it it' : DownReordererIter} {chunk : DownstreamChunk} {r : DownReorderer}
    (h : Holding log s) (hl : s.loop = .emitting it ∨ s.loop = .drainEmitting it)
    (hnext : s.reorderer.iterNext it = (some chunk, it', r)) (hr : s'.reorderer = r)
    (ho : s'.chunkReaderDropped = s.chunkReaderDropped) (hs : s'.state = s.state)
    (hit : s'.loop.iter? = some it') (hack : s'.loop.ack? = none) (hover : s'.loop.over = false)
    (he : issued evs = []) (hsafe : ∀ u n, Numbered u n chunk → Safe (log ++ evs) s' u n) :
    Holding (log ++ evs) s' := by
  have hn := h.keyed.iterNext hnext
  obtain ⟨hiter, hack', hover'⟩ : s.loop.iter? = some it ∧ s.loop.ack? = none ∧ s.loop.over = false := by
    rcases hl with hl | hl <;> rw [hl] <;> exact ⟨rfl, rfl, rfl⟩
  subst hr
  refine h.step_of ho hn.keyed (fun u n hh => ?_) (by simp [hover']) (.inl (by rw [he, hack, hack']; rfl))
    (fun _ r hm => .inl (by rwa [hs] at hm)) (by simp [hover]) fun u hu => ?_
  · rcases hh.next hl hn with hm | hnum
    · exact .inr (.inl hm)
    · exact hsafe u n hnum
  · exact waiting_next hn (by simpa [hit] using hu) fun hne => h.waiting u (by simpa [hiter] using hne)

theorem loopStep {a : LoopAction} (h : Holding log s) (hfit : DrainFits o log s (.loop a))
    (hends : EndsEmptied o log s (.loop a)) (hst : loopStep o s a = some (s', evs)) :
    Holding (log ++ evs) s' := by
  have hend := h.delivered_of_ends hends hst
  cases loopStep_step hst with
  | quiet hcore he hi hi' _ hover =>
    obtain ⟨-, -, hs, hr, -, hd⟩ := core_eq hcore
    have hiss := (histories_eq_nil he).2
    refine h.step_of hd (by rw [hr]; exact h.keyed) (fun u n hh => ?_) hover (.inl ?_) (fun _ r hm => ?_)
      (fun hl => ⟨hiss, fun h0 => hend hi.hands h0 hl⟩) fun u _ => ?_
    · exact .inr (.inl (by rw [hr]; exact hh.stored hi.hands))
    · rw [hiss, hi.1, hi'.1]
      rfl
    · rw [hs] at hm
      exact .inl hm
    · rw [hr]
      exact h.waiting u (by rw [hi.2.1]; simp)
  | @converted _ rxMsg chunk state it reorderer loop hi hcon hc hit hloop =>
    have hiter := h.keyed.iter hit
    have hhands := LoopPc.hands_of_emitting hloop
    obtain ⟨hit', hack, hl⟩ : loop.iter? = some it ∧ loop.ack? = none ∧ loop.over = false := by
      rcases hloop with rfl | rfl <;> exact ⟨rfl, rfl, rfl⟩
    refine h.step_of rfl hiter.keyed (fun u n hh => .inr (.inl (hiter.stored u n (hh.stored hi.hands))))
      (by simp [LoopPc.over_of_connected hcon]) (.inl ?_) (fun _ r hr => ?_) (by simp [hl]) fun u hu => ?_
    · rw [hi.1, hack]
      rfl
    · simp only [hc.results, List.mem_append, List.mem_singleton] at hr
      rcases hr with hr | rfl
      · exact .inl hr
      · refine .inr ⟨_, rfl, .inr ?_⟩
        rcases hiter.it with rfl | ⟨-, hm⟩
        · exact .inr ⟨chunk, by rw [hhands]; simp [DownReordererIter.held], rfl, rfl⟩
        · exact .inl hm
    · have hne : it ≠ .reordered u := fun he => hu (by rw [hit', he])
      have := h.waiting u (by rw [hi.2.1]; simp)
      rwa [← (hiter.other u hne).1, ← (hiter.other u hne).2] at this
  | @refused _ rxMsg chunk state e reorderer hi hcon hc hit =>
    obtain ⟨hk, hstored, hw⟩ := h.keyed.iter_error hit
    refine h.step_of rfl hk (fun u n hh => .inr (.inl ?_)) (fun _ => rfl) (.inl (by rw [hi.1]; rfl))
      (fun hl => by simp [LoopPc.over] at hl)
      (fun hl => ⟨rfl, fun h0 => hend hi.hands h0 hl⟩)
      fun u _ => hw u (h.waiting u (by rw [hi.2.1]; simp))
    rw [hstored]
    exact hh.stored hi.hands
  | @ackTaken _ ack state loop hi hcon ht hloop =>
    obtain ⟨hack, hl⟩ : loop.ack? = some ack ∧ loop.over = false := by
      rcases hloop with rfl | rfl <;> exact ⟨rfl, rfl⟩
    refine h.step_of rfl h.keyed (fun u n hh => .inr (.inl (hh.stored hi.hands)))
      (by simp [LoopPc.over_of_connected hcon]) (.inr ?_) (fun _ r hr => ?_) (by simp [hl]) fun u _ => ?_
    · simp [hack, issued, results, ht.results]
    · simp [ht.results'] at hr
    · exact h.waiting u (by rw [hi.2.1]; simp)
  | ackSent hack hcon hi hcon' | ackFailed hack hcon hi hcon' =>
    obtain ⟨hit, hhands⟩ := LoopPc.hands_of_ack hack
    refine h.step_of rfl h.keyed (fun u n hh => .inr (.inl (hh.stored hhands)))
      (by simp [LoopPc.over_of_connected hcon]) (.inl ?_) (fun _ r hr => .inl hr)
      (by simp [LoopPc.over_of_connected hcon']) fun u _ => h.waiting u (by rw [hit]; simp)
    rw [hack, hi.1]
    rfl
  | @next _ it it' chunk reorderer hl hnext =>
    exact h.nexts (.inl hl) hnext rfl rfl rfl rfl rfl rfl rfl
      fun u n hnum => .inr (.inr ⟨chunk, by simp, hnum⟩)
  | @nextNone _ it it' reorderer loop hl hnext hi hcon =>
    obtain ⟨rfl, hit⟩ := DownReorderer.iterNext_eq_none hnext
    have hheld : s.loop.hands = [] := by
      rw [LoopPc.hands_of_emitting hl]
      rcases hit with rfl | ⟨u, rfl, -⟩ <;> rfl
    obtain ⟨hit', hack, hover⟩ : s.loop.iter? = some it ∧ s.loop.ack? = none ∧ s.loop.over = false := by
      rcases hl with hl | hl <;> rw [hl] <;> exact ⟨rfl, rfl, rfl⟩
    refine h.step_of rfl h.keyed (fun u n hh => .inr (.inl (hh.stored hheld))) (by simp [hover])
      (.inl (by rw [hack, hi.1]; rfl)) (fun _ r hr => .inl hr)
      (by simp [LoopPc.over_of_connected hcon]) fun u _ => ?_
    by_cases he : it = .reordered u
    · subst he
      obtain ⟨v, hv, hw⟩ := hit.resolve_left (by simp)
      cases hv
      exact hw
    · exact h.waiting u (by simpa [hit'] using he)
  | @sent _ chunk it hl hroom =>
    refine h.step_of rfl h.keyed (fun u n hh => ?_) (by simp [hl, LoopPc.over]) (.inl (by rw [hl]; rfl))
      (fun _ r hr => .inl hr) (by simp [LoopPc.over]) fun u hu => ?_
    · rcases hh with hm | ⟨c, hc, hnum⟩
      · exact .inr (.inl hm)
      · rw [hl, LoopPc.hands_sending] at hc
        rcases List.mem_cons.1 hc with rfl | hc
        · exact .inl ⟨c, by simp [delivered, Event.delivered?], hnum⟩
        · refine .inr (.inr ⟨c, ?_, hnum⟩)
          rwa [LoopPc.hands_of_emitting (.inl rfl)]
    · exact h.waiting u (by simpa [hl, LoopPc.iter?] using hu)
  | readerGone hl hgone =>
    rw [h.isOpen] at hgone
    cases hgone
  | @drainSent _ it it' chunk reorderer hl hnext hroom =>
    exact h.nexts (.inr hl) hnext rfl rfl rfl rfl rfl rfl rfl
      fun u n hnum => .inl ⟨chunk, by simp [delivered, Event.delivered?], hnum⟩
  | @drainDropped it it' chunk reorderer hl hnext hroom =>
    -- There was no room, so a chunk with this number was delivered before.
    have hbefore : Delivered log chunk.upstream.streamId chunk.sequenceNumber := by
      refine (hfit it (by rw [hl]; rfl) chunk (by rw [hnext]; rfl)).resolve_left fun hlt => hroom ⟨hlt, ?_⟩
      simp [h.isOpen]
    refine h.nexts (.inr hl) hnext rfl rfl rfl rfl rfl rfl rfl fun u n hnum => ?_
    obtain ⟨rfl, rfl⟩ := hnum
    obtain ⟨c, hc, hnum⟩ := hbefore
    exact .inl ⟨c, by simp [hc], hnum⟩
  | restart hl =>
    exact h.step_of rfl h.keyed (fun u n hh => .inr (.inl (hh.stored (by rw [hl]; rfl))))
      (by simp [hl, LoopPc.over]) (.inl (by rw [hl]; rfl)) (fun _ r hr => .inl hr)
      (by simp [LoopPc.over]) fun u _ => h.waiting u (by simp [hl, LoopPc.iter?])

theorem sameLoop (h : Holding log s) (hs : SameLoop s s') (he : issued evs = [])
    (ho : s'.chunkReaderDropped = s.chunkReaderDropped) : Holding (log ++ evs) s' := by
  obtain ⟨hst, hr, hl⟩ := hs
  refine h.step_of ho (by rw [hr]; exact h.keyed) (fun u n hh => .inr ?_) (by rw [hl]; exact id)
    (.inl (by rw [he, hl]; rfl)) (fun _ r hm => .inl (by rwa [hst] at hm))
    (fun hover => ⟨he, fun h0 => ?_⟩) fun u hu => ?_
  · unfold Held
    rw [hr, hl]
    exact hh
  · rw [hl, h0] at hover
    cases hover
  · rw [hr]
    exact h.waiting u (by rwa [hl] at hu)

theorem step {a : Action} (h : Holding log s) (hd : Drains o log s a)
    (hst : Downstream.step o s a = some (s', evs)) : Holding (log ++ evs) s' := by
  obtain ⟨hopen, hfit, hends⟩ := hd
  cases step_step hst with
  | @loop a _ _ _ => exact h.loopStep hfit hends hst
  | resume _ _ hs _ ho => exact h.sameLoop hs (issued_map _) ho
  | env _ _ hs _ he ho =>
    refine h.sameLoop hs (histories_eq_nil he).2 (ho fun ha => ?_)
    rw [ha] at hopen
    exact hopen

end Holding

theorem holding (h : o.machine.Exec (Drains o) log s) : Holding log s := by
  refine h.invariant ?_ fun _ _ _ _ _ _ hi hd ha => hi.step hd ha
  refine ⟨rfl, DownReorderer.keyed_new _, fun _ r hr => ?_, fun _ r hr => ?_, fun _ r hr => ?_,
    fun u _ => ?_⟩
  · simp [Opened.machine, Opened.init, issued, results, Event.issued?, LoopPc.ack?] at hr
  · simp [Opened.machine, Opened.init] at hr
  · simp [Opened.machine, issued, results, Event.issued?] at hr
  · simp [Opened.machine, Opened.init, DownReorderer.new, DownReorderer.stored]

/-- In every run in which what is drained fits into the application's channel and the loop does not end
with an acknowledged chunk in its reorderer, an acknowledged chunk is delivered or held. -/
theorem acks_delivered (o : Opened) (h : o.machine.Exec (Drains o) log s) : AckedDelivered log s := by
  have hh := holding h
  refine ⟨fun r hr => ?_, hh.waiting⟩
  cases hl : s.loop.over with
  | true =>
    obtain ⟨u, hu, hd⟩ := hh.ended hl r hr
    exact ⟨u, hu, .inl hd⟩
  | false =>
    obtain ⟨u, hu, hd | hheld⟩ :=
      hh.acked hl r (by rw [results_append]; exact List.mem_append_left _ hr)
    · exact ⟨u, hu, .inl hd⟩
    · exact ⟨u, hu, .inr ⟨rfl, hheld⟩⟩

/-- A chunk arrives while an ack is being sent, whose send fails, and is drained. The stream is resumed and
the chunk acknowledged. -/
def drainRun (read : List Action) : List Action :=
  startRun ++ receiveRun 0 ++ ([.loop .ackInterval, .arrive (chunkMsg 1)] : List Action) ++ read ++
    ([.loop (.wireSent (.error .connectionClosed)), .loop .drain, .loop .drainNext,
      .loop .drainNext] : List Action) ++
    reconnectRun ++ ([.resume (.responded (.ok (0, "b"))), .resume (.poll 2 true), .loop .joined,
      .loop .ackInterval, .loop (.wireSent (.ok ()))] : List Action)

/-- The application reads before the drain. -/
theorem acks_delivered_drained :
    ∃ log s, defaultOpened.machine.Exec (Drains defaultOpened) log s ∧
      (results (accepted log)).map (·.sequenceNumberInUpstream) = [1] ∧ AckedDelivered log s := by
  obtain ⟨log, s, h, hacc⟩ := Machine.Exec.exists_of_any (M := defaultOpened.machine)
    (C := Drains defaultOpened) (drainRun [.app .read])
    (P := fun log _ => (results (accepted log)).map (·.sequenceNumberInUpstream) = [1]) (by decide +kernel)
  exact ⟨log, s, h, hacc, acks_delivered defaultOpened h⟩

/-- The application has not read, so the channel is full: the chunk is dropped, and acknowledged. -/
theorem acks_delivered_dropped :
    ∃ log s, defaultOpened.machine.Exec (fun _ _ a => KeepsOpen a) log s ∧ s.loop = .reading ∧
      ¬ AckedDelivered log s := by
  let u : Uuid := ⟨List.replicate 16 0, by decide⟩
  obtain ⟨log, s, h, hs, hr, hdel, hst⟩ := Machine.Exec.exists_of_any (M := defaultOpened.machine)
    (C := fun _ _ a => KeepsOpen a) (drainRun [])
    (P := fun log s => s.loop = .reading ∧ ⟨u.val, 1, 0, "OK"⟩ ∈ results (issued log) ∧
      (∀ chunk ∈ delivered log, chunk.sequenceNumber ≠ 1) ∧ 1 ∉ s.reorderer.stored u) (by decide +kernel)
  refine ⟨log, s, h, hs, fun hk => ?_⟩
  obtain ⟨v, hv, ⟨chunk, hc, -, hn⟩ | ⟨-, hheld⟩⟩ := hk.acked _ hr
  · exact hdel chunk hc hn
  · obtain rfl : u = v := Subtype.ext hv
    exact hst (hheld.stored (by rw [hs]; rfl))

end Iscp.Downstream
