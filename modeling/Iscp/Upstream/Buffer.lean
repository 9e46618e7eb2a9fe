import Iscp.Upstream.Numbering

/-!
# The data points on their way through the buffer

The groups pushed are those that takes have removed, in the same order, followed by those still in the
buffer (`Account`). So the first take after a push contains the pushed group, and the chunk it makes
carries exactly the groups it removed (`TookAll`). `writes` are the results of the writes; the
application makes one write after the other, so the `i`-th result belongs to the `i`-th push.
-/

namespace Iscp.Upstream

variable {o : Opened} {config : UpstreamConfig} {s s' : State} {log evs pre : List Event}

def Event.pushed? : Event → Option DataPointGroup
  | .pushed dpg => some dpg
  | _ => none

def Event.wrote? : Event → Option (Except Error Unit)
  | .wrote result => some result
  | _ => none

def Event.removed : Event → List DataPointGroup
  | .took _ dpgs _ => dpgs
  | _ => []

def pushes (log : List Event) : List DataPointGroup := log.filterMap Event.pushed?

def writes (log : List Event) : List (Except Error Unit) := log.filterMap Event.wrote?

def removed (log : List Event) : List DataPointGroup := log.flatMap Event.removed

@[simp] theorem pushes_append : pushes (log ++ evs) = pushes log ++ pushes evs := List.filterMap_append

@[simp] theorem writes_append : writes (log ++ evs) = writes log ++ writes evs := List.filterMap_append

@[simp] theorem removed_append : removed (log ++ evs) = removed log ++ removed evs :=
  List.flatMap_append

theorem removed_of_issued_nil (h : issued evs = []) : removed evs = [] := by
  rw [issued, List.filterMap_eq_nil_iff] at h
  rw [removed, List.flatMap_eq_nil_iff]
  intro e he
  have := h e he
  cases e <;> first | rfl | cases this

theorem removed_eq_nil (h : ∀ e ∈ evs, ¬ e.stores) : removed evs = [] :=
  removed_of_issued_nil (issued_eq_nil h)

theorem removed_took {site : TakeSite} {dpgs : List DataPointGroup} {chunk : Message.UpstreamChunk}
    (h : ∀ e ∈ evs, ¬ e.stores) : removed (.took site dpgs chunk :: evs) = dpgs := by
  have := removed_eq_nil h
  rw [removed] at this ⊢
  simp [Event.removed, this]

theorem app_events_nil (h : ∀ e ∈ evs, ¬ e.ofApp) : pushes evs = [] ∧ writes evs = [] := by
  have hp : ∀ e ∈ evs, e.pushed? = none ∧ e.wrote? = none := by
    intro e he
    have := h e he
    cases e <;> first | exact ⟨rfl, rfl⟩ | exact absurd trivial this
  exact ⟨List.filterMap_eq_nil_iff.2 fun e he => (hp e he).1,
    List.filterMap_eq_nil_iff.2 fun e he => (hp e he).2⟩

theorem LoopStep.not_ofApp {a : LoopAction} (h : LoopStep config s a s' evs) :
    ∀ e ∈ evs, ¬ e.ofApp := by
  intro e he
  cases h with
  | flushOffline _ ht | flushEmpty _ _ ht | flushChunk _ _ ht | processRemaining _ ht =>
    rcases ht.event he with ⟨_, _, rfl⟩ | ⟨_, rfl⟩ <;> exact id
  | discard _ _ ht =>
    rcases List.mem_append.1 he with he | he
    · rcases ht.event he with ⟨_, _, rfl⟩ | ⟨_, rfl⟩ <;> exact id
    · rw [List.mem_singleton.1 he]; exact id
  | ack => rcases processAck_event he with ⟨_, rfl⟩ | ⟨_, rfl⟩ <;> exact id
  | resendFailed =>
    simp only [List.mem_cons, List.not_mem_nil, or_false] at he
    rcases he with rfl | rfl <;> exact id
  | joined | resent | resendDone | sent | sendFailed | closeRequest | closeResponded =>
    rw [List.mem_singleton.1 he]; exact id
  | ended | offlineFlushed | resend | flushed | flushedLast | flushFailed | ackClosed | acked | closeDone
  | recover | exit => cases he

/-! ### What is in the buffer -/

/-- Only a write touches what the flusher takes. -/
theorem appStep_state {a : AppAction} (h : appStep config s a = some (s', evs)) :
    (∃ dpg, a = .write dpg ∧ evs = [.pushed dpg] ∧ s'.state = { s.state with
        dataPointsBuffer := s.state.dataPointsBuffer ++ [dpg]
        bufferPayloadSize := s.state.bufferPayloadSize + payloadSize dpg.dataPoints }) ∨
      pushes evs = [] ∧ s'.state = s.state := by
  cases appStep_step h with
  | write => exact .inl ⟨_, rfl, rfl, rfl⟩
  | _ => exact .inr ⟨rfl, rfl⟩

/-- A take removed everything pushed and not removed before, and the chunk it issued carries that. -/
def TookAll (f : UpstreamFlusher) (pre : List Event) : Event → Prop
  | .took _ dpgs chunk => pushes pre = removed pre ++ dpgs ∧ f.Carries chunk dpgs
  | _ => True

theorem tookAll_of_not_stores {f : UpstreamFlusher} {e : Event} (h : ¬ e.stores) : TookAll f pre e := by
  cases e <;> first | trivial | exact absurd trivial h

structure Account (o : Opened) (log : List Event) (s : State) : Prop where
  pushes : pushes log = removed log ++ s.state.dataPointsBuffer
  rev : s.flusher.revDataIdAliases = o.init.flusher.revDataIdAliases
  took : History.Each (TookAll o.init.flusher) log

theorem carries_congr {f f' : UpstreamFlusher} {chunk : Message.UpstreamChunk}
    {dpgs : List DataPointGroup} (h : f.revDataIdAliases = f'.revDataIdAliases) :
    f.Carries chunk dpgs ↔ f'.Carries chunk dpgs := by
  simp only [UpstreamFlusher.Carries, UpstreamFlusher.dataIdOrAlias, h]

theorem Account.quiet (h : Account o log s) (he : ∀ e ∈ evs, ¬ e.stores) (hp : Upstream.pushes evs = [])
    (hf : s'.flusher.revDataIdAliases = s.flusher.revDataIdAliases)
    (hb : s'.state.dataPointsBuffer = s.state.dataPointsBuffer) : Account o (log ++ evs) s' := by
  refine ⟨?_, hf.trans h.rev, h.took.append_of_forall fun pre e hm => tookAll_of_not_stores (he e hm)⟩
  rw [pushes_append, removed_append, hp, removed_eq_nil he, hb]
  simpa using h.pushes

theorem Account.step {a : Action} (h : Account o log s) (st : Step config s a s' evs) :
    Account o (log ++ evs) s' := by
  cases st with
  | loop hl =>
    have hp := (app_events_nil hl.not_ofApp).1
    rcases hl.flusher_cases with ⟨hf, hn, he⟩ | ⟨site, t, post, rfl, hpost, hT⟩ | ⟨ack, rfl, rfl⟩
    · exact h.quiet he hp (by rw [hf]) hn.2
    · refine ⟨?_, hT.rev.trans h.rev, ?_⟩
      · rw [pushes_append, removed_append, hp, removed_took hpost, hT.buffer, hT.dpgs]
        simpa using h.pushes
      · have htook : TookAll o.init.flusher log (.took site t.dpgs t.chunk) :=
          ⟨by rw [hT.dpgs]; exact h.pushes, (carries_congr h.rev).1 hT.carries⟩
        rw [List.append_cons]
        exact (History.each_append_singleton.2 ⟨h.took, htook⟩).append_of_forall
          fun pre e hm => tookAll_of_not_stores (hpost e hm)
    · refine ⟨?_, h.rev, h.took.append_of_forall fun pre e hm => ?_⟩
      · have hr : removed (s.processAck ack).2 = [] := removed_of_issued_nil (issued_processAck ack)
        rw [pushes_append, removed_append, hp, hr, List.append_nil, List.append_nil]
        exact h.pushes
      · rcases processAck_event hm with ⟨_, rfl⟩ | ⟨_, rfl⟩ <;> trivial
  | resume => exact h.quiet (by simp [Event.stores]) (by simp [Upstream.pushes, Event.pushed?]) rfl rfl
  | app ha hs he =>
    rcases appStep_state ha with ⟨dpg, rfl, rfl, hst⟩ | ⟨hp, hst⟩
    · refine ⟨?_, by rw [hs.flusher]; exact h.rev, h.took.append_of_forall (by simp [TookAll])⟩
      rw [pushes_append, removed_append, hst, h.pushes]
      simp [Upstream.pushes, removed, Event.pushed?, Event.removed]
    · exact h.quiet (not_stores_of_app he) hp (by rw [hs.flusher]) (by rw [hst])
  | wire | cancel => exact h.quiet (by simp) rfl rfl rfl

theorem account {C : List Event → State → Action → Prop} (h : o.machine.Exec C log s) :
    Account o log s :=
  h.invariant ⟨rfl, rfl, History.each_singleton.2 trivial⟩
    fun _ _ _ _ _ _ hi _ ha => hi.step (step_step ha)

/-- What has been removed was pushed, in the same order. -/
theorem removed_prefix {f : UpstreamFlusher} (h : History.Each (TookAll f) log) :
    removed log <+: pushes log := by
  induction log using List.reverseRecOn with
  | nil => exact List.nil_prefix
  | append_singleton log e ih =>
    obtain ⟨hlog, he⟩ := History.each_append_singleton.1 h
    have ih := ih hlog
    rw [removed_append, pushes_append]
    cases e with
    | took site dpgs chunk =>
      have hd : pushes log = removed log ++ dpgs := he.1
      have hr : removed [Event.took site dpgs chunk] = dpgs := by simp [removed, Event.removed]
      rw [hd, hr]
      exact List.prefix_append _ _
    | _ =>
      simp only [removed, Event.removed, List.flatMap_singleton, List.append_nil] at ih ⊢
      exact ih.trans (List.prefix_append _ _)

/-- The first take after a push removes the pushed group. -/
theorem mem_of_first_take {f : UpstreamFlusher} {before between after : List Event} {dpg : DataPointGroup}
    {site : TakeSite} {dpgs : List DataPointGroup} {chunk : Message.UpstreamChunk}
    (h : History.Each (TookAll f)
      (before ++ Event.pushed dpg :: (between ++ Event.took site dpgs chunk :: after)))
    (hb : issued between = []) :
    dpg ∈ dpgs ∧ (removed (before ++ Event.pushed dpg :: between)).length ≤ (pushes before).length ∧
      (pushes before).length < (removed (before ++ Event.pushed dpg :: between) ++ dpgs).length := by
  have hpre : before ++ Event.pushed dpg :: (between ++ Event.took site dpgs chunk :: after) =
      (before ++ Event.pushed dpg :: between) ++ Event.took site dpgs chunk :: after := by simp
  obtain ⟨hall, -⟩ := h _ _ _ hpre
  have hbetween : removed between = [] := removed_of_issued_nil hb
  have hrem : removed (before ++ Event.pushed dpg :: between) = removed before := by
    rw [List.append_cons, removed_append, removed_append, hbetween]
    simp [removed, Event.removed]
  have hpush : pushes (before ++ Event.pushed dpg :: between) = pushes before ++ dpg :: pushes between := by
    simp [pushes, Event.pushed?]
  have hle : removed before <+: pushes before := by
    have hbefore : History.Each (TookAll f) before := fun pre e post hl =>
      h pre e (post ++ Event.pushed dpg :: (between ++ Event.took site dpgs chunk :: after)) (by simp [hl])
    exact removed_prefix hbefore
  refine ⟨?_, by rw [hrem]; exact hle.length_le, by rw [← hall, hpush]; simp⟩
  -- Beyond what was removed before the push lies the pushed group.
  obtain ⟨rest, hrest⟩ := hle
  rw [hrem, hpush, ← hrest, List.append_assoc, List.append_cancel_left_eq] at hall
  rw [← hall]
  simp

end Iscp.Upstream
