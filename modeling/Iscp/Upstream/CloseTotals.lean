import Iscp.Upstream.Flush
import Iscp.Upstream.Points

/-!
# The totals of the close request

The close request carries what the counters say when it is sent. Behind it, the task takes the buffer once
more: what a refused write has left there after the last flush goes into a chunk that the request does not
count.
-/

namespace Iscp.Upstream

variable {o : Opened} {config : UpstreamConfig} {s s' : State} {log evs : List Event}

def Event.isCloseRequested : Event → Bool
  | .closeRequested _ _ _ => true
  | _ => false

/-- The close request counts the chunks issued so far and the data points in them, and none is issued
after it. -/
def CountsAll (pre : List Event) : Event → Prop
  | .closeRequested total final _ =>
    final.toNat = (issued pre).length ∧
      (issued pre).map (·.sequenceNumber.toNat) = (List.range final.toNat).map (· + 1) ∧
      total.toNat = ((issued pre).flatMap (·.points)).length
  | .took _ _ _ => ∀ e ∈ pre, e.isCloseRequested = false
  | _ => True

instance (pre : List Event) (e : Event) : Decidable (CountsAll pre e) := by
  unfold CountsAll; split <;> infer_instance

/-- The close request is sent with an empty buffer, no write is made from then on until the task has ended,
and `total_data_points` does not overflow. -/
def CloseAtRest (log : List Event) (s : State) : Action → Prop
  | .loop .closeRequest =>
    s.state.dataPointsBuffer = [] ∧ ((issued log).flatMap (·.points)).length < 2 ^ 64
  | .app (.write _) => s.loop = .exited ∨ ∀ e ∈ log, e.isCloseRequested = false
  | _ => True

instance (log : List Event) (s : State) (a : Action) : Decidable (CloseAtRest log s a) := by
  unfold CloseAtRest; split <;> infer_instance

/-- The loop has sent the close request, or may be past it. -/
def LoopPc.requested : LoopPc → Bool
  | .closing | .closed _ | .returned | .remaining | .exited => true
  | _ => false

structure RequestInv (log : List Event) (s : State) : Prop where
  requested : ∀ e ∈ log, e.isCloseRequested → s.loop.requested ∧
    (s.loop = .exited ∨ s.state.dataPointsBuffer = [])
  counts : (issued log).length < 2 ^ 32 → History.Each CountsAll log

/-! ### Steps -/

theorem Take.not_requested {site : TakeSite} {c : Option Message.UpstreamChunk} (h : Take site s s' c evs) :
    ∀ e ∈ evs, e.isCloseRequested = false := by
  intro e he
  rcases h.event he with ⟨_, _, rfl⟩ | ⟨_, rfl⟩ <;> rfl

theorem LoopStep.closeRequested {a : LoopAction} (h : LoopStep config s a s' evs) :
    (∀ e ∈ evs, e.isCloseRequested = false) ∨ a = .closeRequest ∧ s'.loop = .closing ∧ s'.state = s.state ∧
      evs = [.closeRequested s.state.totalDataPoints s.state.lastIssuedSequenceNumber s.closeOpts] := by
  cases h with
  | flushOffline _ ht | flushEmpty _ _ ht | flushChunk _ _ ht | processRemaining _ ht =>
    exact .inl ht.not_requested
  | discard _ _ ht =>
    refine .inl fun e he => ?_
    rcases List.mem_append.1 he with he | he
    · exact ht.not_requested e he
    · rw [List.mem_singleton.1 he]; rfl
  | ack =>
    refine .inl fun e he => ?_
    rcases processAck_event he with ⟨_, rfl⟩ | ⟨_, rfl⟩ <;> rfl
  | closeRequest => exact .inr ⟨rfl, rfl, rfl, rfl⟩
  | _ => exact .inl (by simp [Event.isCloseRequested])

/-- Past the close request the loop goes on to its end, and the last take finds nothing. -/
theorem LoopStep.requested {a : LoopAction} (h : LoopStep config s a s' evs) (hl : s.loop.requested)
    (hb : s.loop = .exited ∨ s.state.dataPointsBuffer = []) :
    s'.loop.requested ∧ s'.state.dataPointsBuffer = [] ∧ issued evs = [] := by
  have hb (hne : s.loop ≠ .exited) : s.state.dataPointsBuffer = [] := hb.resolve_left hne
  cases h with
  | processRemaining hp ht =>
    have hb := hb (by simp [hp])
    refine ⟨rfl, ht.buffer, ?_⟩
    cases ht with
    | empty => rfl
    | found hT => exact absurd hb hT.nonempty
  | closeResponded hp => exact ⟨rfl, hb (by simp [hp]), rfl⟩
  | closeDone hp => exact ⟨rfl, by simpa using hb (by simp [hp]), rfl⟩
  | exit hp => exact ⟨rfl, hb (by simp [hp]), rfl⟩
  | ack hp => rcases hp with hp | hp <;> simp [hp, LoopPc.requested] at hl
  | _ hp => simp [hp, LoopPc.requested] at hl

theorem CountsAll.append (h : History.Each CountsAll log) (he : ∀ e ∈ evs, e.isCloseRequested = false)
    (hi : issued evs = [] ∨ ∀ e ∈ log, e.isCloseRequested = false) :
    History.Each CountsAll (log ++ evs) := by
  refine History.each_append.2 ⟨h, fun pre e post hl => ?_⟩
  have hmem : e ∈ evs := by simp [hl]
  cases e with
  | closeRequested => exact absurd (he _ hmem) (by simp [Event.isCloseRequested])
  | took site dpgs chunk =>
    rcases hi with hi | hlog
    · have : chunk ∈ issued evs := mem_issued.2 ⟨site, dpgs, hmem⟩
      rw [hi] at this
      cases this
    · intro e' he'
      rcases List.mem_append.1 he' with he' | he'
      · exact hlog e' he'
      · exact he e' (by simp [hl, he'])
  | _ => trivial

theorem RequestInv.append (h : RequestInv log s) (he : ∀ e ∈ evs, e.isCloseRequested = false)
    (hs : (∃ e ∈ log, e.isCloseRequested) → s'.loop.requested ∧
      (s'.loop = .exited ∨ s'.state.dataPointsBuffer = []) ∧ issued evs = []) :
    RequestInv (log ++ evs) s' := by
  constructor
  · intro e hm hreq
    rcases List.mem_append.1 hm with hm | hm
    · obtain ⟨hl, hb, -⟩ := hs ⟨e, hm, hreq⟩
      exact ⟨hl, hb⟩
    · rw [he e hm] at hreq
      cases hreq
  · intro hlen
    rw [issued_append, List.length_append] at hlen
    refine CountsAll.append (h.counts (by omega)) he ?_
    by_cases hreq : ∃ e ∈ log, e.isCloseRequested
    · exact .inl (hs hreq).2.2
    · exact .inr fun e hm => by simpa using fun hr => hreq ⟨e, hm, hr⟩

/-- The counters say at the close request what has been issued. -/
theorem countsAll_closeRequested (hn : Numbered log s) (hc : Counted log s)
    (hlen : (issued log).length < 2 ^ 32) (hpoints : ((issued log).flatMap (·.points)).length < 2 ^ 64)
    (opts : Option Bool) :
    CountsAll log (.closeRequested s.state.totalDataPoints s.state.lastIssuedSequenceNumber opts) := by
  have hlast := hn.last_toNat hlen
  refine ⟨hlast, by rw [hlast]; exact hn.number_toNat hlen, ?_⟩
  rw [hc.total, ← hc.chunks.length_eq, UInt64.toNat_ofNat']
  exact Nat.mod_eq_of_lt hpoints

theorem requestInv (h : o.machine.Exec CloseAtRest log s) : RequestInv log s := by
  refine h.invariant (I := RequestInv) ?_ ?_
  · exact ⟨by simp [Opened.machine, Event.isCloseRequested], fun _ => History.each_singleton.2 trivial⟩
  · intro log s a s' evs hr hi hc ha
    cases step_step ha with
    | loop hs =>
      rcases hs.closeRequested with hev | ⟨rfl, hl, hst, rfl⟩
      · refine hi.append hev ?_
        rintro ⟨e, hm, he⟩
        obtain ⟨hl, hb⟩ := hi.requested e hm he
        obtain ⟨hl', hb', hn⟩ := hs.requested hl hb
        exact ⟨hl', .inr hb', hn⟩
      · obtain ⟨hb, hpoints⟩ := hc
        refine ⟨fun _ _ _ => ⟨by rw [hl]; rfl, .inr (by rw [hst]; exact hb)⟩, fun hlen => ?_⟩
        rw [issued_append, List.length_append] at hlen
        have hlen : (issued log).length < 2 ^ 32 := by omega
        exact History.each_append_singleton.2 ⟨hi.counts hlen,
          countsAll_closeRequested (issued_numbers hr) (counted hr) hlen hpoints _⟩
    | resume hpc hs =>
      refine hi.append (by simp [Event.isCloseRequested]) ?_
      rintro ⟨e, hm, he⟩
      obtain ⟨hl, hb⟩ := hi.requested e hm he
      exact ⟨hl, hb, issued_eq_nil (by simp [Event.stores])⟩
    | @app a _ _ hap hs hof =>
      refine hi.append ?_ ?_
      · intro e he
        have := hof e he
        cases e <;> first | rfl | exact absurd this id
      · rintro ⟨e, hm, he⟩
        obtain ⟨hl, hb⟩ := hi.requested e hm he
        refine ⟨by rw [hs.loop]; exact hl, ?_, issued_eq_nil (not_stores_of_app hof)⟩
        rw [hs.loop]
        rcases appStep_state hap with ⟨dpg, rfl, -, -⟩ | ⟨-, hsame⟩
        · rcases hc with hex | hno
          · exact .inl hex
          · rw [hno e hm] at he
            cases he
        · rw [hsame]
          exact hb
    | wire | cancel =>
      refine hi.append (by simp) ?_
      rintro ⟨e, hm, he⟩
      obtain ⟨hl, hb⟩ := hi.requested e hm he
      exact ⟨hl, hb, rfl⟩

/-- In every run that closes at rest and issues fewer than `2^32` chunks, each close request counts all chunks
of the stream and their data points. -/
theorem close_counts_all (o : Opened) (h : o.machine.Exec CloseAtRest log s)
    (hlen : (issued log).length < 2 ^ 32) : History.Each CountsAll log :=
  (requestInv h).counts hlen

/-- Two chunks with three data points between them, the second one taken by the flush that closes. -/
theorem close_counts_all_two :
    ∃ log s, defaultOpened.machine.Exec CloseAtRest log s ∧ .closeRequested 3 2 none ∈ log ∧
      s.loop = .exited ∧ History.Each CountsAll log := by
  obtain ⟨log, s, h, hreq, hl, hlen⟩ := Machine.Exec.exists_of_any (M := defaultOpened.machine)
    (C := CloseAtRest) (startRun ++
      ([.app (.write ⟨⟨"a", "t"⟩, [⟨0, [7]⟩, ⟨1, [8]⟩]⟩), .app .writeCheck, .app .writeNotify,
        .loop (.flush .interval .asIs), .loop (.sent (.ok ())), .loop .flushDone,
        .app (.write ⟨⟨"b", "t"⟩, [⟨2, [9]⟩]⟩), .app .writeCheck, .app .writeNotify, .cancel,
        .loop (.flush .cancelled .asIs), .loop (.sent (.ok ())), .loop .flushDone, .loop .ackTimedOut,
        .loop .closeRequest, .loop (.closeResponded (.ok ())), .loop .closeDone, .loop .exit,
        .loop (.processRemaining .asIs)] : List Action))
    (P := fun log s => .closeRequested 3 2 none ∈ log ∧ s.loop = .exited ∧ (issued log).length < 2 ^ 32)
    (by decide +kernel)
  exact ⟨log, s, h, hreq, hl, close_counts_all defaultOpened h hlen⟩

/-- A write is refused while the loop waits for the last ack, and its data point goes into a chunk after the
close request. -/
theorem close_miscounts : ¬ ∀ (o : Opened) log s, o.machine.Run log s → (issued log).length < 2 ^ 32 →
    History.Each CountsAll log := by
  intro hall
  obtain ⟨log, s, h, hlen, hno⟩ := Machine.Exec.exists_of_any (M := defaultOpened.machine)
    (C := fun _ _ _ => True) (startRun ++
      ([.app (.write ⟨⟨"a", "t"⟩, [⟨0, [7]⟩]⟩), .app .writeCheck, .app .writeNotify, .cancel,
        .loop (.flush .cancelled .asIs), .loop (.sent (.ok ())), .loop .flushDone,
        .app (.write ⟨⟨"b", "t"⟩, [⟨1, [8]⟩]⟩), .app .writeCheck, .loop .ackTimedOut,
        .loop .closeRequest, .loop (.closeResponded (.ok ())), .loop .closeDone, .loop .exit,
        .loop (.processRemaining .asIs)] : List Action))
    (P := fun log _ => (issued log).length < 2 ^ 32 ∧ ¬ History.Each CountsAll log) (by decide +kernel)
  exact hno (hall defaultOpened log s h hlen)

end Iscp.Upstream
