import Iscp.Downstream.Delivery
import Iscp.Downstream.Exits

/-!
# `read_chunk` step by step

`read_chunk` waits for a chunk and for the cancellation at once, and looks into the channel again when it is
woken by the latter; then it looks at `close_cause`. Here these are steps of their own between those of
the loop, which puts chunks into the channel long after the cancellation, and stores its error only
after it has dropped its guard. Leaving the loop's parameters, the channel's sender among them, is one step
with the drop of the guard.
-/

namespace Iscp.Downstream.ReadChunk

/-- Where `read_chunk` is. -/
inductive Pc
  | idle
  /-- In the `select!`. -/
  | selecting
  /-- Woken by the cancellation, before `try_recv`. -/
  | trying
  /-- There was no chunk; before `close_cause.take`. -/
  | failing
deriving DecidableEq

inductive Action
  /-- A step of anything else. -/
  | base (a : Downstream.Action)
  | call
  | recv
  /-- `recv` has returned `None`. -/
  | recvClosed
  | cancelled
  | tryRecv
  | takeCause
  /-- The future of a waiting `read_chunk` is dropped. -/
  | drop

inductive Event
  | base (e : Downstream.Event)
  /-- `downstream_loop` has returned. -/
  | ended (result : Except Error Unit)
  | read (result : Except Error DownstreamChunk)
deriving DecidableEq

structure State where
  base : Downstream.State
  pc : Pc := .idle

/-- `read_chunk` and the other calls borrow the `Downstream`; the metadata reader is apart. -/
def allowed (pc : Pc) : Downstream.Action → Bool
  | .app .read => false
  | .app .readMetadata | .app .dropMetadataReader => true
  | .app _ => pc = .idle
  | _ => true

/-- The result with which the loop returns in a step. -/
def endedBy (s s' : Downstream.State) : List Event :=
  match s.loop.over, s'.loop with
  | false, .returned result => [.ended result]
  | _, _ => []

def step (o : Opened) (s : State) : Action → Option (State × List Event)
  | .base a =>
    if allowed s.pc a then
      (Downstream.step o s.base a).map fun (b, evs) =>
        ({ s with base := b }, evs.map .base ++ endedBy s.base b)
    else none
  | .call =>
    if s.pc = .idle ∧ s.base.app = .idle ∧ !s.base.chunkReaderDropped then
      some ({ s with pc := .selecting }, [])
    else none
  | .recv =>
    match s.pc, s.base.chunks with
    | .selecting, chunk :: chunks =>
      some ({ base := { s.base with chunks := chunks }, pc := .idle }, [.read (.ok chunk)])
    | _, _ => none
  | .recvClosed =>
    match s.pc, s.base.chunks, s.base.loop with
    | .selecting, [], .guardDropped _ | .selecting, [], .exited => some ({ s with pc := .failing }, [])
    | _, _, _ => none
  | .cancelled => if s.pc = .selecting ∧ s.base.ct then some ({ s with pc := .trying }, []) else none
  | .tryRecv =>
    match s.pc, s.base.chunks with
    | .trying, chunk :: chunks =>
      some ({ base := { s.base with chunks := chunks }, pc := .idle }, [.read (.ok chunk)])
    | .trying, [] => some ({ s with pc := .failing }, [])
    | _, _ => none
  | .takeCause =>
    if s.pc = .failing then
      some ({ base := { s.base with closeCause := none }, pc := .idle },
        [.read (.error (s.base.closeCause.getD .streamClosed))])
    else none
  | .drop => if s.pc = .selecting then some ({ s with pc := .idle }, []) else none

def machine (o : Opened) : Machine State Action Event where
  init := { base := o.init }
  log₀ := o.machine.log₀.map .base
  step := step o

variable {o : Opened} {s s' : State} {log evs : List Event}

/-! ### The results -/

/-- The chunks put into the channel. -/
def delivered (log : List Event) : List DownstreamChunk :=
  log.filterMap fun
    | .base e => e.delivered?
    | _ => none

/-- The results of `read_chunk`. -/
def results (log : List Event) : List (Except Error DownstreamChunk) :=
  log.filterMap fun
    | .read result => some result
    | _ => none

def oks (log : List Event) : List DownstreamChunk :=
  (results log).filterMap fun
    | .ok chunk => some chunk
    | .error _ => none

def errors (log : List Event) : List Error :=
  (results log).filterMap fun
    | .error e => some e
    | .ok _ => none

@[simp] theorem delivered_append : delivered (log ++ evs) = delivered log ++ delivered evs :=
  List.filterMap_append

@[simp] theorem results_append : results (log ++ evs) = results log ++ results evs := List.filterMap_append

@[simp] theorem oks_append : oks (log ++ evs) = oks log ++ oks evs := by simp [oks]

@[simp] theorem errors_append : errors (log ++ evs) = errors log ++ errors evs := by simp [errors]

/-- The results are the chunks put into the channel, in order, and once all of them are returned, errors; the
first of these is the error that the loop ended with, if it did. -/
structure Faithful (log : List Event) : Prop where
  results : results log <+: (delivered log).map .ok ∨
    results log = (delivered log).map .ok ++ (errors log).map .error
  cause : ∀ e, .ended (.error e) ∈ log → ∀ e' ∈ (errors log).head?, e' = e

def Event.cause? : Event → Option Error
  | .ended (.error e) => some e
  | _ => none

theorem Event.cause?_eq {ev : Event} {e : Error} : ev.cause? = some e ↔ ev = .ended (.error e) := by
  unfold Event.cause?
  split <;> simp_all

instance (log : List Event) : Decidable (Faithful log) :=
  decidable_of_iff ((results log <+: (delivered log).map .ok ∨
      results log = (delivered log).map .ok ++ (errors log).map .error) ∧
      ∀ ev ∈ log, ∀ e ∈ ev.cause?, ∀ e' ∈ (errors log).head?, e' = e)
    ⟨fun ⟨hr, hc⟩ => ⟨hr, fun e he => hc _ he e rfl⟩,
      fun h => ⟨h.results, fun _ hev e he => h.cause e (Event.cause?_eq.1 he ▸ hev)⟩⟩

/-! ### When they are faithful -/

/-- Whether a step of the loop puts a chunk into the channel. -/
def delivers (o : Opened) (s : Downstream.State) : LoopAction → Bool
  | .sent => !s.chunkReaderDropped
  | .drainNext =>
    match s.loop with
    | .drainEmitting it =>
      (s.reorderer.iterNext it).1.isSome && decide (s.chunks.length < o.channelSize) && !s.chunkReaderDropped
    | _ => false
  | _ => false

/-- Whether the loop has returned with an error and not stored it. -/
def causeDue : LoopPc → Bool
  | .returned (.error _) | .guardDropped (.error _) => true
  | _ => false

/-- `read_chunk` fails only when the loop has put its last chunk into the channel, and neither looks at
`close_cause` nor has failed before while the loop has an error to store. -/
def ReadsThrough (o : Opened) (log : List Event) (s : State) : Action → Prop
  | .base (.loop a) =>
    (delivers o s.base a → s.pc ≠ .failing ∧ errors log = []) ∧ (refuses o s.base a → errors log = [])
  | .takeCause => causeDue s.base.loop = false
  | _ => True

instance (log : List Event) (s : State) (a : Action) : Decidable (ReadsThrough o log s a) := by
  unfold ReadsThrough; split <;> infer_instance

/-! ### The steps of the rest -/

/-- What `read_chunk` reads of the rest. -/
structure Frame (s s' : Downstream.State) : Prop where
  loop : s'.loop = s.loop
  closeCause : s'.closeCause = s.closeCause
  chunks : s'.chunks = s.chunks
  dropped : s'.chunkReaderDropped = s.chunkReaderDropped

theorem base_frame {b b' : Downstream.State} {es : List Downstream.Event} {a : Downstream.Action}
    (h : Downstream.step o b a = some (b', es)) (hl : ∀ c, a ≠ .loop c) (hr : a ≠ .app .read)
    (hd : a ≠ .app .dropDownstream) : Frame b b' ∧ Downstream.delivered es = [] := by
  cases a with
  | loop a => exact absurd rfl (hl a)
  | app a =>
    simp only [Downstream.step] at h
    cases appStep_step h with
    | read | readEnded => exact absurd rfl hr
    | dropDownstream => exact absurd rfl hd
    | readMetadata | readMetadataEnded | dropMetadataReader | close | closeCancel | received | closeTimedOut
    | drop => exact ⟨⟨rfl, rfl, rfl, rfl⟩, rfl⟩
  | _ =>
    obtain ⟨⟨_, _, _, _, _, rfl⟩, he⟩ := step_around h (by simp) (by simp)
    refine ⟨⟨rfl, rfl, rfl, rfl⟩, List.filterMap_eq_nil_iff.2 fun e hm => ?_⟩
    obtain ⟨r, rfl⟩ := he e hm
    rfl

/-- A step of the loop puts one chunk into the channel, or leaves it alone. -/
theorem loop_chunks {b b' : Downstream.State} {es : List Downstream.Event} {a : LoopAction}
    (h : loopStep o b a = some (b', es)) : b'.chunkReaderDropped = b.chunkReaderDropped ∧
      (b'.chunks = b.chunks ∧ Downstream.delivered es = [] ∨
        delivers o b a ∧ b.chunkReaderDropped = false ∧
          ∃ chunk, b'.chunks = b.chunks ++ [chunk] ∧ Downstream.delivered es = [chunk]) := by
  cases loopStep_step h with
  | quiet hcore he =>
    refine ⟨(core_eq hcore).2.2.2.2.2, .inl ⟨(core_eq hcore).2.2.2.2.1, ?_⟩⟩
    rw [Downstream.delivered, List.filterMap_eq_nil_iff]
    intro e hm
    have := he e hm
    cases e <;> first | rfl | exact absurd trivial this
  | sent hl =>
    refine ⟨rfl, .inr ?_⟩
    cases a with
    | sent =>
      simp only [loopStep, hl] at h
      split at h
      · simp at h
      · rename_i hno
        have hno : b.chunkReaderDropped = false := by simpa using hno
        exact ⟨by simp [delivers, hno], hno, _, rfl, rfl⟩
    | _ => simp [loopStep, hl] at h
  | drainSent hl hit hroom =>
    refine ⟨rfl, .inr ?_⟩
    cases a with
    | drainNext =>
      simp only [loopStep, hl, hit] at h
      split at h
      · rename_i hok
        have hno : b.chunkReaderDropped = false := by simpa using hok.2
        exact ⟨by simp [delivers, hl, hit, hno, hroom], hno, _, rfl, rfl⟩
      · simp at h
    | _ => simp [loopStep, hl] at h
  | _ => exact ⟨rfl, .inl ⟨rfl, rfl⟩⟩

/-- Where the error with which the loop has returned is. -/
def Causes (e : Error) (s : Downstream.State) : Prop :=
  s.loop = .returned (.error e) ∨ s.loop = .guardDropped (.error e) ∨ s.loop = .exited ∧ s.closeCause = some e

theorem Causes.over {e : Error} {b : Downstream.State} (h : Causes e b) : b.loop.over := by
  rcases h with h | h | ⟨h, -⟩ <;> rw [h] <;> rfl

/-- A loop that has returned keeps its error until it is stored. -/
theorem Causes.loopStep {b b' : Downstream.State} {es : List Downstream.Event} {a : LoopAction} {e : Error}
    (hc : Causes e b) (h : loopStep o b a = some (b', es)) : Causes e b' := by
  rcases hc with hl | hl | ⟨hl, -⟩
  · cases a <;> simp only [Downstream.loopStep, hl, reduceCtorEq] at h
    cases h
    exact .inr (.inl rfl)
  · cases a <;> simp only [Downstream.loopStep, hl, reduceCtorEq] at h
    cases h
    exact .inr (.inr ⟨rfl, rfl⟩)
  · cases a <;> simp only [Downstream.loopStep, hl, reduceCtorEq] at h

theorem Causes.frame {e : Error} {b b' : Downstream.State} (hc : Causes e b) (hf : Frame b b') :
    Causes e b' := by
  unfold Causes
  rwa [hf.loop, hf.closeCause]

/-! ### The run -/

structure Inv (log : List Event) (s : State) : Prop where
  shape : results log = (oks log).map .ok ++ (errors log).map .error
  waiting : s.base.chunkReaderDropped = false → delivered log = oks log ++ s.base.chunks
  returned : oks log <+: delivered log
  /-- A reader that is failing has returned all chunks. -/
  failed : s.pc = .failing ∨ errors log ≠ [] → s.base.chunks = [] ∧ delivered log = oks log
  dropped : s.base.chunkReaderDropped → s.pc = .idle ∧ s.base.chunks = []
  cause : ∀ e, .ended (.error e) ∈ log →
    errors log = [] ∧ Causes e s.base ∨ s.base.loop.over ∧ (errors log).head? = some e

theorem Inv.over (hi : Inv log s) {e : Error} (he : .ended (.error e) ∈ log) : s.base.loop.over := by
  rcases hi.cause e he with ⟨-, hc⟩ | ⟨ho, -⟩
  · exact hc.over
  · exact ho

theorem Inv.faithful (hi : Inv log s) : Faithful log := by
  refine ⟨?_, fun e he e' he' => ?_⟩
  · by_cases hne : errors log = []
    · rw [hi.shape, hne, List.map_nil, List.append_nil]
      exact .inl (hi.returned.map _)
    · rw [(hi.failed (.inr hne)).2]
      exact .inr hi.shape
  · rcases hi.cause e he with ⟨hno, -⟩ | ⟨-, hh⟩
    · rw [hno] at he'
      cases he'
    · rw [hh] at he'
      exact (Option.some.inj he').symm

/-- A step of `read_chunk` that returns nothing. -/
theorem Inv.moved {pc : Pc} (hi : Inv log s) (hd : s.base.chunkReaderDropped = false)
    (hf : pc = .failing → s.base.chunks = []) : Inv log { s with pc := pc } := by
  refine ⟨hi.shape, hi.waiting, hi.returned, fun h => ?_, fun h => ?_, hi.cause⟩
  · rcases h with h | h
    · refine ⟨hf h, ?_⟩
      rw [hi.waiting hd, hf h, List.append_nil]
    · exact hi.failed (.inr h)
  · rw [hd] at h
    cases h

/-- `read_chunk` returns a chunk. -/
theorem Inv.received {chunk : DownstreamChunk} {chunks : List DownstreamChunk} (hi : Inv log s)
    (hpc : s.pc ≠ .idle) (hc : s.base.chunks = chunk :: chunks) :
    Inv (log ++ [Event.read (.ok chunk)]) { base := { s.base with chunks := chunks }, pc := .idle } := by
  have hd : s.base.chunkReaderDropped = false := Bool.eq_false_iff.2 fun h => hpc (hi.dropped h).1
  have hno : errors log = [] := by
    by_contra hne
    rw [(hi.failed (.inr hne)).1] at hc
    cases hc
  have hev : oks [Event.read (.ok chunk)] = [chunk] ∧ errors [Event.read (.ok chunk)] = [] ∧
      delivered [Event.read (.ok chunk)] = [] := ⟨rfl, rfl, rfl⟩
  have hdel : delivered (log ++ [Event.read (.ok chunk)]) = oks (log ++ [Event.read (.ok chunk)]) ++ chunks := by
    simp [hev, hi.waiting hd, hc]
  have hno' : errors (log ++ [Event.read (.ok chunk)]) = [] := by simp [hev, hno]
  refine ⟨?_, fun _ => hdel, hdel ▸ List.prefix_append _ _, fun h => ?_, fun h => ?_, fun e he => ?_⟩
  · rw [hno', results_append, hi.shape, hno, oks_append, hev.1]
    simp [results]
  · rcases h with h | h
    · cases h
    · exact absurd hno' h
  · exact absurd h (by simp [hd])
  · have he : .ended (.error e) ∈ log := by simpa using he
    rcases hi.cause e he with ⟨-, h⟩ | ⟨-, h⟩
    · exact .inl ⟨hno', h⟩
    · rw [hno] at h
      cases h

/-- `read_chunk` fails when the loop has no error left to store. -/
theorem Inv.took {e : Error} {b : Downstream.State} (hi : Inv log s) (hpc : s.pc = .failing)
    (hdue : causeDue s.base.loop = false) (he : e = s.base.closeCause.getD .streamClosed)
    (hb : b = { s.base with closeCause := none }) :
    Inv (log ++ [Event.read (.error e)]) { base := b, pc := .idle } := by
  subst hb
  have hev : oks [Event.read (.error e)] = [] ∧ errors [Event.read (.error e)] = [e] ∧
      delivered [Event.read (.error e)] = [] := ⟨rfl, rfl, rfl⟩
  obtain ⟨hch, hdel⟩ := hi.failed (.inl hpc)
  refine ⟨?_, fun hd => ?_, ?_, fun _ => ⟨hch, ?_⟩, fun hd => ⟨rfl, hch⟩, fun e' he' => .inr ?_⟩
  · rw [results_append, hi.shape, oks_append, errors_append, hev.1, hev.2.1]
    simp [results]
  · simp [hev, hi.waiting hd]
  · simp [hev, hi.returned]
  · simp [hev, hdel]
  · have he' : .ended (.error e') ∈ log := by simpa using he'
    refine ⟨hi.over he', ?_⟩
    rw [errors_append, hev.2.1]
    rcases hi.cause e' he' with ⟨hno, hl | hl | ⟨-, hcc⟩⟩ | ⟨-, hh⟩
    · rw [hl] at hdue
      cases hdue
    · rw [hl] at hdue
      cases hdue
    · rw [hno, he, hcc]
      rfl
    · rw [List.head?_append, hh]
      rfl

@[simp] theorem results_base (es : List Downstream.Event) : results (es.map .base) = [] := by
  simp [results, List.filterMap_map]

@[simp] theorem delivered_base (es : List Downstream.Event) :
    delivered (es.map .base) = Downstream.delivered es := by
  rw [delivered, Downstream.delivered, List.filterMap_map]
  rfl

theorem endedBy_quiet (b b' : Downstream.State) :
    results (endedBy b b') = [] ∧ delivered (endedBy b b') = [] := by
  unfold endedBy
  split <;> exact ⟨rfl, rfl⟩

theorem endedBy_of_loop {b b' : Downstream.State} (h : b'.loop = b.loop) : endedBy b b' = [] := by
  unfold endedBy
  split
  · rename_i ho hl
    rw [← h, hl] at ho
    cases ho
  · rfl

theorem mem_endedBy {b b' : Downstream.State} {e : Error} (h : .ended (.error e) ∈ endedBy b b') :
    b.loop.over = false ∧ b'.loop = .returned (.error e) := by
  unfold endedBy at h
  split at h
  · rename_i ho hl
    cases List.mem_singleton.1 h
    exact ⟨ho, hl⟩
  · cases h

/-- The loop takes a step. -/
theorem Inv.loop {a : LoopAction} {b : Downstream.State} {es : List Downstream.Event} (hi : Inv log s)
    (hc : ReadsThrough o log s (.base (.loop a))) (ha : loopStep o s.base a = some (b, es)) :
    Inv (log ++ (es.map .base ++ endedBy s.base b)) { s with base := b } := by
  obtain ⟨hdelivers, hrefuses⟩ := hc
  obtain ⟨hd, hch⟩ := loop_chunks ha
  have hres : results (es.map .base ++ endedBy s.base b) = [] := by simp [endedBy_quiet]
  have hoks : oks (log ++ (es.map .base ++ endedBy s.base b)) = oks log := by simp [oks, hres]
  have herr : errors (log ++ (es.map .base ++ endedBy s.base b)) = errors log := by simp [errors, hres]
  have hdel : delivered (log ++ (es.map .base ++ endedBy s.base b)) =
      delivered log ++ Downstream.delivered es := by
    simp [endedBy_quiet]
  refine ⟨?_, fun h => ?_, ?_, fun h => ?_, fun h => ?_, fun e he => ?_⟩
  · rw [hoks, herr, results_append, hres, List.append_nil]
    exact hi.shape
  · rw [hoks, hdel, hi.waiting (hd ▸ h)]
    rcases hch with ⟨hb, he⟩ | ⟨-, -, chunk, hb, he⟩ <;> simp [hb, he]
  · rw [hoks, hdel]
    exact hi.returned.trans (List.prefix_append _ _)
  · rw [herr] at h
    rcases hch with ⟨hb, he⟩ | ⟨hdl, -⟩
    · rw [hoks, hdel, he, List.append_nil]
      exact hb ▸ hi.failed h
    · obtain ⟨hpc, hno⟩ := hdelivers hdl
      exact absurd h (by simp [hpc, hno])
  · obtain ⟨hpc, hb⟩ := hi.dropped (hd ▸ h)
    refine ⟨hpc, ?_⟩
    rcases hch with ⟨hb', -⟩ | ⟨-, hno, -⟩
    · exact hb'.trans hb
    · rw [← hd, show b.chunkReaderDropped = true from h] at hno
      cases hno
  · rw [herr]
    rcases List.mem_append.1 he with he | he
    · rcases hi.cause e he with ⟨hno, hcause⟩ | ⟨ho, hh⟩
      · exact .inl ⟨hno, hcause.loopStep ha⟩
      · exact .inr ⟨(loopStep_step ha).over ho, hh⟩
    · obtain ⟨ho, hl⟩ := mem_endedBy ((List.mem_append.1 he).resolve_left (by simp))
      exact .inl ⟨hrefuses ((loopStep_exit ha ho (by rw [hl]; rfl)).2 e hl), .inl hl⟩

/-- Something else takes a step. -/
theorem Inv.frame {b : Downstream.State} {es : List Downstream.Event} (hi : Inv log s) (hf : Frame s.base b)
    (hno : Downstream.delivered es = []) :
    Inv (log ++ (es.map .base ++ endedBy s.base b)) { s with base := b } := by
  rw [endedBy_of_loop hf.loop, List.append_nil]
  have hoks : oks (log ++ es.map .base) = oks log := by simp [oks]
  have herr : errors (log ++ es.map .base) = errors log := by simp [errors]
  have hdel : delivered (log ++ es.map .base) = delivered log := by simp [hno]
  refine ⟨?_, fun h => ?_, ?_, fun h => ?_, fun h => ?_, fun e he => ?_⟩
  · rw [hoks, herr, results_append, results_base, List.append_nil]
    exact hi.shape
  · rw [hoks, hdel]
    exact hf.chunks ▸ hi.waiting (hf.dropped ▸ h)
  · rw [hoks, hdel]
    exact hi.returned
  · rw [herr] at h
    rw [hoks, hdel]
    exact hf.chunks ▸ hi.failed h
  · exact hf.chunks ▸ hi.dropped (hf.dropped ▸ h)
  · rw [herr]
    have he : .ended (.error e) ∈ log := by simpa using he
    rcases hi.cause e he with ⟨hno, hc⟩ | ⟨ho, hh⟩
    · exact .inl ⟨hno, hc.frame hf⟩
    · exact .inr ⟨hf.loop ▸ ho, hh⟩

theorem Inv.dropDownstream {b : Downstream.State} {es : List Downstream.Event} (hi : Inv log s)
    (hpc : s.pc = .idle) (ha : Downstream.step o s.base (.app .dropDownstream) = some (b, es)) :
    Inv (log ++ (es.map .base ++ endedBy s.base b)) { s with base := b } := by
  simp only [Downstream.step] at ha
  cases appStep_step ha with
  | dropDownstream =>
    rw [endedBy_of_loop (by rfl), List.map_nil, List.append_nil, List.append_nil]
    refine ⟨hi.shape, fun h => (by cases h), hi.returned, fun h => ⟨rfl, ?_⟩, fun _ => ⟨hpc, rfl⟩, hi.cause⟩
    exact (hi.failed h).2

theorem inv (h : (machine o).Exec (ReadsThrough o) log s) : Inv log s := by
  refine h.invariant (I := Inv) ?_ fun log s a s' evs _ hi hc ha => ?_
  · refine ⟨rfl, fun _ => rfl, List.prefix_refl _, fun _ => ⟨rfl, rfl⟩, fun _ => ⟨rfl, rfl⟩, fun e he => ?_⟩
    simp [machine, Opened.machine] at he
  have hopen (hpc : s.pc ≠ .idle) : s.base.chunkReaderDropped = false :=
    Bool.eq_false_iff.2 fun hd => hpc (hi.dropped hd).1
  have ha : step o s a = some (s', evs) := ha
  cases a with
  | base a =>
    simp only [step] at ha
    split at ha
    · rename_i hallow
      obtain ⟨⟨b, es⟩, hb, he⟩ := Option.map_eq_some_iff.1 ha
      obtain ⟨rfl, rfl⟩ := Prod.mk.inj he
      by_cases hl : ∃ c, a = .loop c
      · obtain ⟨c, rfl⟩ := hl
        exact hi.loop hc hb
      by_cases hd : a = .app .dropDownstream
      · subst hd
        exact hi.dropDownstream (of_decide_eq_true hallow) hb
      · have hr : a ≠ .app .read := by
          rintro rfl
          cases hallow
        obtain ⟨hf, hno⟩ := base_frame hb (fun c hc => hl ⟨c, hc⟩) hr hd
        exact hi.frame hf hno
    · cases ha
  | call =>
    simp only [step] at ha
    split at ha <;> cases ha
    rename_i hcall
    rw [List.append_nil]
    exact hi.moved (by simpa using hcall.2.2) (by simp)
  | recv =>
    simp only [step] at ha
    split at ha <;> cases ha
    rename_i hpc hch
    exact hi.received (by simp [hpc]) hch
  | recvClosed =>
    simp only [step] at ha
    split at ha <;> cases ha
    all_goals
      rename_i hpc hch _
      rw [List.append_nil]
      exact hi.moved (hopen (by simp [hpc])) fun _ => hch
  | cancelled =>
    simp only [step] at ha
    split at ha <;> cases ha
    rename_i hpc
    rw [List.append_nil]
    exact hi.moved (hopen (by simp [hpc.1])) (by simp)
  | tryRecv =>
    simp only [step] at ha
    split at ha <;> cases ha
    · rename_i hpc hch
      exact hi.received (by simp [hpc]) hch
    · rename_i hpc hch
      rw [List.append_nil]
      exact hi.moved (hopen (by simp [hpc])) fun _ => hch
  | takeCause =>
    simp only [step] at ha
    split at ha <;> cases ha
    rename_i hpc
    exact hi.took hpc hc rfl rfl
  | drop =>
    simp only [step] at ha
    split at ha <;> cases ha
    rename_i hpc
    rw [List.append_nil]
    exact hi.moved (hopen (by simp [hpc])) (by simp)

/-- In every run in which `read_chunk` has not failed when the loop has a chunk or an error left, it returns
the chunks of the loop, and then its error. -/
theorem reads_faithful (o : Opened) (h : (machine o).Exec (ReadsThrough o) log s) : Faithful log :=
  (inv h).faithful

/-- A chunk is read; the next one is refused, and the loop has stored its error when `read_chunk` fails. -/
def refusedRun (rest : List Action) : List Action :=
  (startRun ++ receiveRun 0).map .base ++ ([.call, .recv, .base (.arrive (chunkMsg 2)),
    .base (.loop .recv), .base (.loop .exit)] : List Action) ++ rest

theorem reads_faithful_refused :
    ∃ log s, (machine strictOpened).Exec (ReadsThrough strictOpened) log s ∧ (results log).length = 2 ∧
      (∃ ev ∈ log, ev.cause?.isSome) ∧ Faithful log := by
  obtain ⟨log, s, h, hlen, hex⟩ := Machine.Exec.exists_of_any (M := machine strictOpened)
    (C := ReadsThrough strictOpened) (refusedRun [.base (.loop .storeCause), .call, .recvClosed, .takeCause])
    (P := fun log _ => (results log).length = 2 ∧ ∃ ev ∈ log, ev.cause?.isSome) (by decide +kernel)
  exact ⟨log, s, h, hlen, hex, reads_faithful strictOpened h⟩

/-- The stream is cancelled while a chunk is still in the loop's channel: `read_chunk` fails, and then returns
the chunk. And the loop ends with an error, which `read_chunk` looks for before it is stored. -/
theorem reads_unfaithful :
    (∃ log s, (machine defaultOpened).Run log s ∧ (results log).head? = some (.error .streamClosed) ∧
      (oks log).length = 1 ∧ ¬ Faithful log) ∧
    ∃ log s, (machine strictOpened).Run log s ∧ errors log = [.streamClosed] ∧
      (∃ ev ∈ log, ev.cause?.isSome) ∧ ¬ Faithful log := by
  constructor
  · exact Machine.Exec.exists_of_any (startRun.map .base ++ ([.call, .base (.arrive (chunkMsg 0)),
      .base .cancel, .cancelled, .tryRecv, .takeCause, .base (.loop .cancelled), .base (.loop .drain),
      .base (.loop .drainNext), .call, .recv] : List Action)) (by decide +kernel)
  · exact Machine.Exec.exists_of_any (refusedRun [.call, .cancelled, .tryRecv, .takeCause])
      (by decide +kernel)

end Iscp.Downstream.ReadChunk
