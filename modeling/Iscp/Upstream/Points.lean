import Iscp.Upstream.Buffer
import Mathlib.Data.List.Perm.Subperm

/-!
# Counting data points

A take makes all points of the buffer into one chunk, adds their number to `total_data_points` and gives
them to `send_data_points_callback`, if there is one. So the points of the groups taken are, over a whole
run, those of the issued chunks (`Counted`).
-/

namespace Iscp

def points (dpgs : List DataPointGroup) : List DataPoint := dpgs.flatMap (·.dataPoints)

def Message.UpstreamChunk.points (chunk : Message.UpstreamChunk) : List DataPoint :=
  chunk.streamChunk.dataPointGroups.flatMap (·.dataPoints)

@[simp] theorem points_append (a b : List DataPointGroup) : points (a ++ b) = points a ++ points b :=
  List.flatMap_append

namespace UpstreamFlusher

variable {f f' : UpstreamFlusher} {s s' : UpstreamState} {t : Taken} {order : TakeOrder}
  {streamIdAlias : UInt32}

theorem sortByElapsedTime_perm (dps : List DataPoint) : (sortByElapsedTime dps).Perm dps :=
  List.perm_insertionSort _ _

theorem chunkGroups_points (dpgs : List DataPointGroup) :
    ((f.chunkGroups order dpgs).flatMap (·.dataPoints)).Perm (points dpgs) := by
  rw [chunkGroups, List.flatMap_map]
  refine (List.Perm.flatMap_left _ fun e _ => sortByElapsedTime_perm e.2).trans ?_
  exact GroupBy.iter_values_perm order.chunk

theorem callbackGroups_points (dpgs : List DataPointGroup) :
    (points (callbackGroups order dpgs)).Perm (points dpgs) := by
  rw [points, callbackGroups, List.flatMap_map]
  refine (List.Perm.flatMap_left _ fun e _ => sortByElapsedTime_perm e.2).trans ?_
  exact GroupBy.iter_values_perm order.callback

theorem length_points (dpgs : List DataPointGroup) :
    (points dpgs).length = (dpgs.map (·.dataPoints.length)).sum := by
  simp [points, List.length_flatMap]

/-- What a take does with the points of the buffer. -/
structure Counts (s : UpstreamState) (t : Taken) (s' : UpstreamState) : Prop where
  dpgs : t.dpgs = s.dataPointsBuffer
  buffer : s'.dataPointsBuffer = []
  total : s'.totalDataPoints = s.totalDataPoints + .ofNat (points s.dataPointsBuffer).length
  chunk : t.chunk.points.Perm (points s.dataPointsBuffer)
  call : ∀ c ∈ t.call, (points c.dataPointGroups).Perm (points s.dataPointsBuffer)

theorem take_counts (h : f.take order streamIdAlias s = (some t, f', s')) : Counts s t s' := by
  by_cases hb : s.dataPointsBuffer = []
  · cases (take_of_nil hb).symm.trans h
  · simp only [take, takeChunk, List.isEmpty_iff, hb, ↓reduceIte, Prod.mk.injEq, Option.some.injEq] at h
    obtain ⟨rfl, -, rfl⟩ := h
    refine ⟨rfl, rfl, by rw [length_points], chunkGroups_points _, fun c hc => ?_⟩
    simp only [UpstreamStorage.addChunk, Option.mem_def, Option.ite_none_right_eq_some,
      Option.some.injEq] at hc
    obtain ⟨hcall, rfl⟩ := hc
    rw [if_pos hcall]
    exact callbackGroups_points _

end UpstreamFlusher

namespace Upstream

variable {o : Opened} {config : UpstreamConfig} {s s' : State} {log evs : List Event}

/-- The events of a take. -/
def takeEvents (site : TakeSite) : Option UpstreamFlusher.Taken → List Event
  | some t => .took site t.dpgs t.chunk :: (t.call.map .sendDataPointsCallback).toList
  | none => []

def Event.ofTake : Event → Bool
  | .took _ _ _ | .sendDataPointsCallback _ => true
  | _ => false

/-- A step of the loop takes from the buffer, processes an ack, or does neither. -/
inductive FlusherStep (s s' : State) (evs : List Event) : Prop
  | take {site order t post} :
      s.flusher.take order s.resume.streamIdAlias s.state = (t, s'.flusher, s'.state) →
      evs = takeEvents site t ++ post → (∀ e ∈ post, ¬ e.stores ∧ e.ofTake = false) → FlusherStep s s' evs
  | ack {ack} : s' = (s.processAck ack).1 → evs = (s.processAck ack).2 → FlusherStep s s' evs
  | same : s'.flusher = s.flusher → s'.state = s.state → (∀ e ∈ evs, ¬ e.stores ∧ e.ofTake = false) →
      FlusherStep s s' evs

theorem take_eq {site : TakeSite} {order : TakeOrder} {c : Option Message.UpstreamChunk}
    (h : s.take site order = (c, s', evs)) :
    ∃ t, s.flusher.take order s.resume.streamIdAlias s.state = (t, s'.flusher, s'.state) ∧
      evs = takeEvents site t := by
  unfold State.take at h
  split at h <;> rename_i heq
  · obtain ⟨-, rfl, rfl⟩ : _ ∧ _ ∧ _ := by simpa using h
    exact ⟨_, heq, rfl⟩
  · obtain ⟨-, rfl, rfl⟩ : _ ∧ _ ∧ _ := by simpa using h
    exact ⟨_, heq, rfl⟩

theorem loopStep_flusher {a : LoopAction} (h : loopStep config s a = some (s', evs)) :
    FlusherStep s s' evs := by
  have take {site : TakeSite} {order : TakeOrder} {c : Option Message.UpstreamChunk} (notify : Bool)
      {s₁ s₂ : State} {evs : List Event} (post : List Event)
      (h : { s with notify := notify }.take site order = (c, s₁, evs))
      (h₂ : s₂.flusher = s₁.flusher ∧ s₂.state = s₁.state)
      (hp : ∀ e ∈ post, ¬ e.stores ∧ e.ofTake = false) : FlusherStep s s₂ (evs ++ post) := by
    obtain ⟨t, ht, rfl⟩ := take_eq h
    rw [← h₂.1, ← h₂.2] at ht
    exact .take ht rfl hp
  cases a with
  | flush wake order =>
    simp only [loopStep] at h
    split at h
    · rename_i s₁ hl hw
      obtain ⟨⟨notify, rfl⟩, -⟩ := wake_eq_some hw
      split at h <;> cases h
      rw [← List.append_nil (State.take _ _ _).2.2]
      exact take notify [] rfl ⟨rfl, rfl⟩ (by simp)
    · rename_i s₁ hl hw
      obtain ⟨⟨notify, rfl⟩, -⟩ := wake_eq_some hw
      split at h <;> rename_i ht <;> cases h <;> rw [← List.append_nil evs]
      · exact take notify [] ht ⟨rfl, rfl⟩ (by simp)
      · exact take notify [] ht ⟨rfl, rfl⟩ (by simp)
    · cases h
  | resumedCallbackDone order =>
    simp only [loopStep] at h
    split at h
    · split at h <;> cases h
      · exact .same rfl rfl (by simp)
      · exact take s.notify [_] rfl ⟨rfl, rfl⟩ (by simp [Event.stores, Event.ofTake])
    · cases h
  | processRemaining order =>
    simp only [loopStep] at h
    split at h <;> cases h
    rw [← List.append_nil (State.take _ _ _).2.2]
    exact take s.notify [] rfl ⟨rfl, rfl⟩ (by simp)
  | ack ack =>
    simp only [loopStep] at h
    split at h
    · cases h
      exact .ack rfl rfl
    · split at h <;> cases h
      exact .ack rfl rfl
    · cases h
  | joined | resent | ackWaited | ackTimedOut | closeRequest | closeResponded | exit | ackClosed =>
    simp only [loopStep] at h
    split at h
    all_goals first
      | cases h; exact .same rfl rfl (by simp [Event.stores, Event.ofTake])
      | split at h <;> cases h; exact .same rfl rfl (by simp)
      | cases h
  | flushDone | closeDone =>
    simp only [loopStep] at h
    split at h <;> cases h <;> exact .same (by simp) (by simp) (by simp)
  | sent result =>
    simp only [loopStep] at h
    split at h <;> cases h
    all_goals first
      | exact .same rfl rfl (by simp [Event.stores, Event.ofTake])
      | obtain ⟨resume, loop, he, -⟩ := recover_cases config s false
        rw [he]
        exact .same rfl rfl (by simp [Event.stores, Event.ofTake])
  | recover =>
    simp only [loopStep] at h
    split at h <;> cases h
    obtain ⟨resume, loop, he, -⟩ := recover_cases config s true
    rw [he]
    exact .same rfl rfl (by simp)

/-! ### A whole run -/

/-- The groups given to `send_data_points_callback`. -/
def called (log : List Event) : List DataPointGroup :=
  log.flatMap fun
    | .sendDataPointsCallback chunk => chunk.dataPointGroups
    | _ => []

@[simp] theorem called_append : called (log ++ evs) = called log ++ called evs := List.flatMap_append

theorem called_eq_nil (h : ∀ e ∈ evs, e.ofTake = false) : called evs = [] := by
  rw [called, List.flatMap_eq_nil_iff]
  intro e he
  have := h e he
  cases e <;> first | rfl | cases this

/-- The points of the groups taken are in the chunks issued and in `total_data_points`, and the callback
gets no others. -/
structure Counted (log : List Event) (s : State) : Prop where
  chunks : ((issued log).flatMap (·.points)).Perm (points (removed log))
  total : s.state.totalDataPoints = .ofNat (points (removed log)).length
  called : (points (called log)).Subperm (points (removed log))

theorem Counted.quiet (h : Counted log s) (ht : s'.state.totalDataPoints = s.state.totalDataPoints)
    (hi : issued evs = []) (hc : Upstream.called evs = []) : Counted (log ++ evs) s' := by
  have hr := removed_of_issued_nil hi
  refine ⟨?_, ?_, ?_⟩
  · simpa [issued_append, hi, hr] using h.chunks
  · simpa [hr, ht] using h.total
  · simpa [hc, hr] using h.called

theorem Counted.took (h : Counted log s) {t : UpstreamFlusher.Taken} {site : TakeSite} {post : List Event}
    (ht : UpstreamFlusher.Counts s.state t s'.state) (hp : ∀ e ∈ post, ¬ e.stores ∧ e.ofTake = false) :
    Counted (log ++ (takeEvents site t ++ post)) s' := by
  have hrest : ∀ e ∈ (t.call.map .sendDataPointsCallback).toList ++ post, ¬ e.stores := by
    intro e he
    rcases List.mem_append.1 he with he | he
    · simp only [Option.mem_toList, Option.map_eq_some_iff] at he
      obtain ⟨c, -, rfl⟩ := he
      exact id
    · exact (hp e he).1
  have hr : removed (takeEvents site t ++ post) = s.state.dataPointsBuffer := by
    rw [takeEvents, List.cons_append, removed_took hrest, ht.dpgs]
  have hi : issued (takeEvents site t ++ post) = [t.chunk] := by
    rw [takeEvents, List.cons_append, issued_took hrest]
  have hc : (points (Upstream.called (takeEvents site t ++ post))).Subperm
      (points s.state.dataPointsBuffer) := by
    rw [called_append, called_eq_nil fun e he => (hp e he).2, List.append_nil, takeEvents]
    cases hcall : t.call with
    | none => exact List.nil_subperm
    | some c =>
      have := (ht.call c hcall).subperm
      simpa [Upstream.called] using this
  refine ⟨?_, ?_, ?_⟩
  · rw [issued_append, removed_append, hi, hr, List.flatMap_append, points_append, List.flatMap_singleton]
    exact h.chunks.append ht.chunk
  · rw [ht.total, h.total, removed_append, hr, points_append, List.length_append, UInt64.ofNat_add]
  · rw [called_append, removed_append, hr, points_append, points_append]
    exact List.Subperm.append h.called hc

theorem total_appStep {a : AppAction} (h : appStep config s a = some (s', evs)) :
    s'.state.totalDataPoints = s.state.totalDataPoints := by
  rcases appStep_state h with ⟨dpg, -, -, hs⟩ | ⟨-, hs⟩ <;> rw [hs]

theorem counted {C : List Event → State → Action → Prop} (h : o.machine.Exec C log s) : Counted log s := by
  refine h.invariant (I := Counted) ?_ ?_
  · exact ⟨List.Perm.refl [], rfl, List.nil_subperm⟩
  · intro log s a s' evs _ hi _ ha
    cases step_step ha with
    | loop =>
      cases loopStep_flusher ha with
      | @take site order t post ht he hp =>
        subst he
        cases t with
        | some t => exact hi.took (UpstreamFlusher.take_counts ht) hp
        | none =>
          obtain ⟨-, -, hs⟩ := UpstreamFlusher.take_eq_none ht
          exact hi.quiet (by rw [hs]) (issued_eq_nil fun e he => (hp e he).1)
            (called_eq_nil fun e he => (hp e he).2)
      | @ack ack hs he =>
        subst hs he
        refine hi.quiet rfl (issued_processAck ack) (called_eq_nil fun e he => ?_)
        rcases processAck_event he with ⟨_, rfl⟩ | ⟨_, rfl⟩ <;> rfl
      | same _ hs he =>
        exact hi.quiet (by rw [hs]) (issued_eq_nil fun e hm => (he e hm).1)
          (called_eq_nil fun e hm => (he e hm).2)
    | resume =>
      exact hi.quiet rfl (issued_eq_nil (by simp [Event.stores])) (called_eq_nil (by simp [Event.ofTake]))
    | app hap _ he =>
      refine hi.quiet (total_appStep hap) (issued_eq_nil (not_stores_of_app he)) (called_eq_nil fun e hm => ?_)
      have := he e hm
      cases e <;> first | rfl | exact absurd this id
    | wire | cancel => exact hi.quiet rfl rfl rfl

end Upstream
end Iscp
