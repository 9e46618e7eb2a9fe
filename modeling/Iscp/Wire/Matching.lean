import Iscp.Wire.Request

/-!
# Every call is given its own response or none

The numbers are all different, so a response can only be for the call that took its number; the sender of
a call is taken out with the first response for it, and a call that is over takes none.
-/

namespace Iscp
namespace Wire.Request

open Message (MessageEnum Response ResponseKind)

/-! ### What is to hold -/

def Event.requestId? : Event → Option UInt32
  | .allocated _ _ requestId | .pinged requestId => some requestId
  | _ => none

def requestIds (log : List Event) : List UInt32 := log.filterMap Event.requestId?

def Event.ends (call : Nat) : Event → Bool
  | .returned c _ | .dropped c => c = call
  | _ => false

/-- Every call is given its own response or none. -/
structure Matched (log : List Event) : Prop where
  ok : ∀ call r, .returned call (.ok r) ∈ log → ∃ k kind requestId, .allocated call kind requestId ∈ log ∧
    .read k (.response r) ∈ log ∧ .given k (.response r) call ∈ log ∧ r.requestId = requestId ∧
    r.body.kind = kind ∧ ResultCode.ofI32 r.resultCode = some .succeeded
  once : ∀ k m m' call call', .given k m call ∈ log → .given k m' call' ∈ log → call = call'
  /-- What comes for a call that is over is given to nobody. -/
  late : ∀ pre k m post call kind requestId, log = pre ++ .read k m :: post →
    .allocated call kind requestId ∈ pre → pre.any (Event.ends call) → m.requestId = some requestId →
    ∀ m' call', .given k m' call' ∉ log

variable {s s' : State} {log evs pre post : List Event} {call k : Nat} {kind : ResponseKind}
  {phase : Phase} {requestId : UInt32} {m : MessageEnum} {reader : ReaderName} {e : Event}

/-! ### The numbers -/

@[simp] theorem calls_setCall (s : State) (call : Nat) (pc : CallPc) :
    (s.setCall call pc).calls call = pc := Function.update_self ..

theorem calls_setCall_of_ne {c : Nat} (h : c ≠ call) (s : State) (pc : CallPc) :
    (s.setCall call pc).calls c = s.calls c := Function.update_of_ne h ..

theorem calls_setCall_cases {c : Nat} {pc pc' : CallPc} (h : (s.setCall call pc).calls c = pc') :
    c = call ∧ pc = pc' ∨ c ≠ call ∧ s.calls c = pc' :=
  Table.update_cases h

theorem addResponseSender_frame (s : State) (requestId : UInt32) (call : Nat) :
    (s.addResponseSender requestId call).requestIdCounter = s.requestIdCounter ∧
    (s.addResponseSender requestId call).calls = s.calls ∧
    (s.addResponseSender requestId call).readers = s.readers ∧
    (s.addResponseSender requestId call).reads = s.reads ∧
    (s.addResponseSender requestId call).responseSenders =
      Function.update s.responseSenders requestId (some call) ∧
    ∀ c k m, (s.addResponseSender requestId call).rx c = .message k m → s.rx c = .message k m := by
  unfold State.addResponseSender State.dropSender
  split
  · rename_i old _
    split
    · refine ⟨rfl, rfl, rfl, rfl, rfl, fun c k m h => ?_⟩
      by_cases hc : c = old
      · subst hc
        simp [State.setSender, State.setRx] at h
      · simpa [State.setSender, State.setRx, Function.update_of_ne hc] using h
    · exact ⟨rfl, rfl, rfl, rfl, rfl, fun _ _ _ h => h⟩
  · exact ⟨rfl, rfl, rfl, rfl, rfl, fun _ _ _ h => h⟩

theorem requestIds_append : requestIds (log ++ evs) = requestIds log ++ requestIds evs :=
  List.filterMap_append

/-- The calls and pings have taken the even numbers in order. -/
structure Numbered (log : List Event) (s : State) : Prop where
  counter : s.requestIdCounter = UInt32.ofNat (2 * (requestIds log).length)
  ids : requestIds log = (List.range (requestIds log).length).map fun j => UInt32.ofNat (2 * j)

theorem Numbered.take (h : Numbered log s) (he : e.requestId? = some s.requestIdCounter)
    (hs : s'.requestIdCounter = s.requestIdCounter + 2) : Numbered (log ++ [e]) s' := by
  have hids : requestIds (log ++ [e]) = requestIds log ++ [s.requestIdCounter] := by
    rw [requestIds_append, requestIds, requestIds, List.filterMap_cons, he]
    rfl
  constructor
  · rw [hs, h.counter, hids, List.length_append, List.length_singleton, Nat.mul_add, UInt32.ofNat_add]
    rfl
  · rw [hids, List.length_append, List.length_singleton, List.range_succ, List.map_append, ← h.ids, h.counter]
    rfl

theorem Numbered.keep (h : Numbered log s) (he : ∀ e ∈ evs, e.requestId? = none)
    (hs : s'.requestIdCounter = s.requestIdCounter) : Numbered (log ++ evs) s' := by
  have hids : requestIds (log ++ evs) = requestIds log := by
    rw [requestIds_append, requestIds, requestIds, List.filterMap_eq_nil_iff.2 he, List.append_nil]
  exact ⟨by rw [hs, hids, h.counter], by rw [hids]; exact h.ids⟩

theorem Ends.requestId? (h : Ends s call kind e) : e.requestId? = none := by
  cases h <;> rfl

theorem Numbered.step (h : Numbered log s) (hs : Step s s' evs) : Numbered (log ++ evs) s' := by
  cases hs with
  | allocate | ping => exact h.take rfl rfl
  | @register call kind requestId => exact h.keep (by simp) (addResponseSender_frame s requestId call).1
  | sent | cancel => exact h.keep (by simp) rfl
  | finish _ he =>
    refine h.keep (fun e' hm => ?_) rfl
    rw [List.mem_singleton.1 hm]
    exact he.requestId?
  | move hm => exact h.keep (by simp) hm.requestIdCounter
  | read hm => exact h.keep (by simp [Event.requestId?]) hm.requestIdCounter
  | found | give => exact h.keep (by simp [Event.requestId?]) rfl

theorem numbered {C : List Event → State → Action → Prop} (h : machine.Exec C log s) : Numbered log s := by
  have h0 : Numbered machine.log₀ machine.init := ⟨rfl, rfl⟩
  refine h.invariant h0 ?_
  intro log s a s' evs _ hi _ hs
  exact hi.step (step_step hs)

/-- Fewer than 2^31 numbers are all different. -/
theorem Numbered.nodup (h : Numbered log s) (hn : (requestIds log).length ≤ 2147483648) :
    (requestIds log).Nodup := by
  rw [h.ids]
  refine List.Nodup.map_on (fun i hi j hj hij => ?_) List.nodup_range
  have hi := List.mem_range.1 hi
  have hj := List.mem_range.1 hj
  have := congrArg UInt32.toNat hij
  rw [UInt32.toNat_ofNat', UInt32.toNat_ofNat'] at this
  omega

/-- Two events of a history that stand for one thing of which there are no two are one event. -/
theorem eq_of_nodup_filterMap {ε β : Type} {f : ε → Option β} {log : List ε} (h : (log.filterMap f).Nodup)
    {e e' : ε} {b : β} (he : e ∈ log) (he' : e' ∈ log) (hb : f e = some b) (hb' : f e' = some b) :
    e = e' := by
  induction log with
  | nil => cases he
  | cons x log ih =>
    rw [List.filterMap_cons] at h
    have hnot : f x = some b → ∀ y ∈ log, f y ≠ some b := by
      intro hx y hy hyb
      rw [hx] at h
      exact (List.nodup_cons.1 h).1 (List.mem_filterMap.2 ⟨y, hy, hyb⟩)
    have htail : (log.filterMap f).Nodup := by
      split at h
      · exact h
      · exact (List.nodup_cons.1 h).2
    rcases List.mem_cons.1 he with rfl | hm
    · rcases List.mem_cons.1 he' with rfl | hm'
      · rfl
      · exact absurd hb' (hnot hb _ hm')
    · rcases List.mem_cons.1 he' with rfl | hm'
      · exact absurd hb (hnot hb' _ hm)
      · exact ih htail hm hm'

/-! ### The calls -/

/-- What the history says of the calls. -/
structure Called (log : List Event) (s : State) : Prop where
  active : ∀ call phase kind requestId, s.calls call = .active phase kind requestId →
    .allocated call kind requestId ∈ log
  idle : ∀ call kind requestId, .allocated call kind requestId ∈ log → s.calls call ≠ .idle
  unique : ∀ call kind requestId kind' requestId', .allocated call kind requestId ∈ log →
    .allocated call kind' requestId' ∈ log → kind = kind' ∧ requestId = requestId'
  done : ∀ call, log.any (Event.ends call) → s.calls call = .ended

theorem Called.keep (h : Called log s) (ha : ∀ call kind requestId, .allocated call kind requestId ∉ evs)
    (he : ∀ call, evs.any (Event.ends call) = false) (hs : s'.calls = s.calls) :
    Called (log ++ evs) s' := by
  have mem {call kind requestId} (hm : Event.allocated call kind requestId ∈ log ++ evs) :
      Event.allocated call kind requestId ∈ log :=
    (List.mem_append.1 hm).resolve_right (ha _ _ _)
  refine ⟨fun call phase kind requestId hc => ?_, fun call kind requestId hm => ?_, ?_, fun call hc => ?_⟩
  · rw [hs] at hc
    exact List.mem_append_left _ (h.active _ _ _ _ hc)
  · rw [hs]
    exact h.idle _ _ _ (mem hm)
  · intro call kind requestId kind' requestId' hm hm'
    exact h.unique _ _ _ _ _ (mem hm) (mem hm')
  · rw [List.any_append, he, Bool.or_false] at hc
    rw [hs]
    exact h.done _ hc

/-- A call goes on or ends, and no other call is heard of. -/
theorem Called.setCall (h : Called log s) {pc : CallPc} (hs : s'.calls = s.calls)
    (ha : ∀ phase kind requestId, pc = .active phase kind requestId →
      .allocated call kind requestId ∈ log ++ evs)
    (hi : pc ≠ .idle) (hd : (log ++ evs).any (Event.ends call) → pc = .ended)
    (he : ∀ c, c ≠ call → evs.any (Event.ends c) = false ∧
      ∀ kind requestId, .allocated c kind requestId ∉ evs)
    (hu : ∀ call kind requestId kind' requestId', .allocated call kind requestId ∈ log ++ evs →
      .allocated call kind' requestId' ∈ log ++ evs → kind = kind' ∧ requestId = requestId') :
    Called (log ++ evs) (s'.setCall call pc) := by
  refine ⟨fun c phase kind requestId hc => ?_, fun c kind requestId hm => ?_, hu, fun c ho => ?_⟩
  · rcases calls_setCall_cases hc with ⟨rfl, hpc⟩ | ⟨-, hpc⟩
    · exact ha _ _ _ hpc
    · rw [hs] at hpc
      exact List.mem_append_left _ (h.active _ _ _ _ hpc)
  · intro hc
    rcases calls_setCall_cases hc with ⟨-, hc⟩ | ⟨hne, hc⟩
    · exact hi hc
    · rw [hs] at hc
      exact h.idle c kind requestId ((List.mem_append.1 hm).resolve_right ((he c hne).2 _ _)) hc
  · by_cases hne : c = call
    · subst hne
      rw [calls_setCall]
      exact hd ho
    · rw [List.any_append, (he c hne).1, Bool.or_false] at ho
      rw [calls_setCall_of_ne hne, hs]
      exact h.done c ho

theorem Called.advance (h : Called log s) {phase' : Phase}
    (hc : s.calls call = .active phase kind requestId) (hs : s'.calls = s.calls) :
    Called (log ++ []) (s'.setCall call (.active phase' kind requestId)) := by
  refine h.setCall hs ?_ nofun (fun ho => ?_) (fun _ _ => ⟨rfl, nofun⟩) (by simpa using h.unique)
  · intro _ _ _ hp
    cases hp
    exact List.mem_append_left _ (h.active _ _ _ _ hc)
  · rw [List.append_nil] at ho
    have hover := h.done _ ho
    rw [hc] at hover
    cases hover

theorem Ends.ends_eq (h : Ends s call kind e) (c : Nat) : e.ends c = decide (call = c) := by
  cases h <;> rfl

theorem Called.step (h : Called log s) (hs : Step s s' evs) : Called (log ++ evs) s' := by
  cases hs with
  | @allocate call kind hc =>
    have fresh : ∀ kind requestId, .allocated call kind requestId ∉ log :=
      fun kind requestId hm => h.idle _ _ _ hm hc
    refine h.setCall rfl ?_ nofun (fun ho => ?_) (fun c hne => ⟨rfl, fun k id hm => ?_⟩) ?_
    · intro _ _ _ hp
      cases hp
      simp
    · have hover : s.calls call = .ended := h.done call (by simpa [Event.ends] using ho)
      rw [hc] at hover
      cases hover
    · cases List.mem_singleton.1 hm
      exact hne rfl
    · intro c k id k' id' hm hm'
      rcases List.mem_append.1 hm with hm | hm
      · rcases List.mem_append.1 hm' with hm' | hm'
        · exact h.unique _ _ _ _ _ hm hm'
        · cases List.mem_singleton.1 hm'
          exact absurd hm (fresh _ _)
      · cases List.mem_singleton.1 hm
        rcases List.mem_append.1 hm' with hm' | hm'
        · exact absurd hm' (fresh _ _)
        · cases List.mem_singleton.1 hm'
          exact ⟨rfl, rfl⟩
  | ping => exact h.keep (by simp) (by simp [Event.ends]) rfl
  | register hc => exact h.advance hc (addResponseSender_frame ..).2.1
  | sent hc => exact h.advance hc rfl
  | @finish call phase kind requestId e hc he =>
    have notNew {c k id} : Event.allocated c k id ∉ [e] := by
      intro hm
      rw [← List.mem_singleton.1 hm] at he
      cases he
    refine h.setCall rfl nofun nofun (fun _ => rfl) (fun c hne => ⟨?_, fun _ _ => notNew⟩) ?_
    · simp [he.ends_eq, Ne.symm hne]
    · intro c k id k' id' hm hm'
      exact h.unique _ _ _ _ _ ((List.mem_append.1 hm).resolve_right notNew)
        ((List.mem_append.1 hm').resolve_right notNew)
  | move hm => exact h.keep (by simp) (fun _ => rfl) hm.calls
  | read hm => exact h.keep (by simp) (by simp [Event.ends]) hm.calls
  | found | give => exact h.keep (by simp) (by simp [Event.ends]) rfl
  | cancel => exact h.keep (by simp) (fun _ => rfl) rfl

theorem called {C : List Event → State → Action → Prop} (h : machine.Exec C log s) : Called log s := by
  have h0 : Called machine.log₀ machine.init := ⟨nofun, by simp [machine], by simp [machine], by simp [machine]⟩
  refine h.invariant h0 ?_
  intro log s a s' evs _ hi _ hs
  exact hi.step (step_step hs)

/-! ### The messages -/

def ForCall (log : List Event) (m : MessageEnum) (call : Nat) : Prop :=
  ∃ kind requestId, .allocated call kind requestId ∈ log ∧ m.requestId = some requestId

theorem ForCall.mono (h : ForCall log m call) : ForCall (log ++ evs) m call := by
  obtain ⟨kind, requestId, hm, hid⟩ := h
  exact ⟨kind, requestId, List.mem_append_left _ hm, hid⟩

/-- What may stand in the history: a message is read before it is given, to a call that is not over. -/
def Justified (pre : List Event) : Event → Prop
  | .read k _ => ∀ m', .read k m' ∉ pre
  | .given k m call => .read k m ∈ pre ∧ pre.any (Event.ends call) = false ∧ ForCall pre m call
  | .returned call (.ok r) => ∃ k kind requestId, .allocated call kind requestId ∈ pre ∧
      .given k (.response r) call ∈ pre ∧ r.body.kind = kind ∧
      ResultCode.ofI32 r.resultCode = some .succeeded
  | _ => True

structure Given (log : List Event) (s : State) : Prop where
  sender : ∀ requestId call, s.responseSenders requestId = some call →
    ∃ kind, .allocated call kind requestId ∈ log
  answering : ∀ q k m call, (s.readers q).pc = .answering k m call → .read k m ∈ log ∧ ForCall log m call
  rx : ∀ call k m, s.rx call = .message k m → .given k m call ∈ log
  reads : ∀ k m, .read k m ∈ log → k < s.reads
  history : History.Each Justified log

theorem Given.keep (h : Given log s) (hr : ∀ k m, .read k m ∈ evs → k < s'.reads)
    (hreads : s.reads ≤ s'.reads) (hj : History.Each (fun pre => Justified (log ++ pre)) evs)
    (hs : ∀ requestId call, s'.responseSenders requestId = some call →
      s.responseSenders requestId = some call ∨ ∃ kind, .allocated call kind requestId ∈ log)
    (ha : ∀ q k m call, (s'.readers q).pc = .answering k m call →
      (s.readers q).pc = .answering k m call ∨ .read k m ∈ evs ∧ ForCall log m call)
    (hx : ∀ call k m, s'.rx call = .message k m → s.rx call = .message k m ∨ .given k m call ∈ evs) :
    Given (log ++ evs) s' := by
  refine ⟨fun requestId call hc => ?_, fun q k m call hq => ?_, fun call k m hc => ?_, fun k m hm => ?_,
    History.each_append.2 ⟨h.history, hj⟩⟩
  · rcases hs _ _ hc with hc | ⟨kind, hm⟩
    · obtain ⟨kind, hm⟩ := h.sender _ _ hc
      exact ⟨kind, List.mem_append_left _ hm⟩
    · exact ⟨kind, List.mem_append_left _ hm⟩
  · rcases ha _ _ _ _ hq with hq | ⟨hm, hf⟩
    · obtain ⟨hr, hf⟩ := h.answering _ _ _ _ hq
      exact ⟨List.mem_append_left _ hr, hf.mono⟩
    · exact ⟨List.mem_append_right _ hm, hf.mono⟩
  · rcases hx _ _ _ hc with hc | hm
    · exact List.mem_append_left _ (h.rx _ _ _ hc)
    · exact List.mem_append_right _ hm
  · rcases List.mem_append.1 hm with hm | hm
    · exact Nat.lt_of_lt_of_le (h.reads _ _ hm) hreads
    · exact hr _ _ hm

theorem Moves.answering (h : Moves s reader s') {q : ReaderName}
    (hq : (s'.readers q).pc = .answering k m call) : (s.readers q).pc = .answering k m call := by
  by_cases he : q = reader
  · subst he
    have := h.reader
    rw [hq] at this
    cases this
  · rwa [h.readers q he] at hq

/-- The number of a message that is read is new. -/
theorem Given.read_fresh (h : Given log s) :
    History.Each (fun pre => Justified (log ++ pre)) [.read s.reads m] := by
  rw [History.each_singleton, List.append_nil]
  intro m' hm
  exact Nat.lt_irrefl _ (h.reads _ _ hm)

theorem Given.step (h : Given log s) (hc : Called log s) (hs : Step s s' evs) : Given (log ++ evs) s' := by
  cases hs with
  | allocate | ping =>
    exact h.keep (by simp) (Nat.le_refl _) (History.each_singleton.2 trivial) (fun _ _ h => .inl h)
      (fun _ _ _ _ h => .inl h) (fun _ _ _ h => .inl h)
  | @register call kind requestId hcall =>
    obtain ⟨-, -, hreaders, hreads, hsenders, hrx⟩ := addResponseSender_frame s requestId call
    refine h.keep (by simp) (Nat.le_of_eq hreads.symm) .nil (fun id c hs => ?_) (fun q k m c hq => ?_)
      (fun c k m hm => .inl (hrx c k m hm))
    · have hs : Function.update s.responseSenders requestId (some call) id = some c := hsenders ▸ hs
      rcases Table.update_cases hs with ⟨rfl, hnew⟩ | ⟨-, hold⟩
      · cases hnew
        exact .inr ⟨kind, hc.active _ _ _ _ hcall⟩
      · exact .inl hold
    · have hq : ((s.addResponseSender requestId call).readers q).pc = .answering k m c := hq
      rw [hreaders] at hq
      exact .inl hq
  | sent | cancel =>
    exact h.keep (by simp) (Nat.le_refl _) .nil (fun _ _ h => .inl h) (fun _ _ _ _ h => .inl h)
      (fun _ _ _ h => .inl h)
  | @finish call phase kind requestId e hcall he =>
    refine h.keep ?_ (Nat.le_refl _) (History.each_singleton.2 ?_) (fun _ _ h => .inl h)
      (fun _ _ _ _ h => .inl h) (fun _ _ _ h => .inl h)
    · intro k m hm
      rw [← List.mem_singleton.1 hm] at he
      cases he
    · rw [List.append_nil]
      cases he with
      | @returned k r hr hk hcode =>
        exact ⟨k, kind, requestId, hc.active _ _ _ _ hcall, h.rx _ _ _ hr, hk, hcode⟩
      | failed | dropped => trivial
  | move hm =>
    refine h.keep (by simp) (Nat.le_of_eq hm.reads.symm) .nil (fun _ _ hs => .inl ?_)
      (fun _ _ _ _ hq => .inl (hm.answering hq)) (fun _ _ _ hx => .inl ?_)
    · rwa [hm.responseSenders] at hs
    · rwa [hm.rx] at hx
  | @read reader m s' hm =>
    have hreads : s'.reads = s.reads + 1 := hm.reads
    refine h.keep ?_ (by omega) h.read_fresh (fun _ _ hs => .inl ?_) (fun _ _ _ _ hq => .inl (hm.answering hq))
      (fun _ _ _ hx => .inl ?_)
    · intro k m' hk
      cases List.mem_singleton.1 hk
      omega
    · rwa [hm.responseSenders] at hs
    · rwa [hm.rx] at hx
  | @found reader ch m requestId call hid hsend =>
    refine h.keep ?_ (Nat.le_succ _) h.read_fresh (fun id c hs => .inl ?_) (fun q k m' c hq => ?_)
      (fun _ _ _ hx => .inl hx)
    · intro k m' hk
      cases List.mem_singleton.1 hk
      exact Nat.lt_succ_self _
    · have hs : Function.update s.responseSenders requestId none id = some c := hs
      rcases Table.update_cases hs with ⟨-, hs⟩ | ⟨-, hs⟩
      · cases hs
      · exact hs
    · have hq : (Function.update s.readers reader ⟨ch, .answering s.reads m call⟩ q).pc = .answering k m' c := hq
      by_cases he : q = reader
      · subst he
        rw [Function.update_self] at hq
        cases hq
        obtain ⟨kind, hm⟩ := h.sender _ _ hsend
        exact .inr ⟨List.mem_singleton_self _, kind, requestId, hm, hid⟩
      · rw [Function.update_of_ne he] at hq
        exact .inl hq
  | @give reader ch k m call phase kind requestId hq hcall =>
    obtain ⟨hread, hfor⟩ := h.answering _ _ _ _ hq
    refine h.keep (by simp) (Nat.le_refl _) (History.each_singleton.2 ?_) (fun _ _ h => .inl h)
      (fun q' k' m' c hq' => .inl ?_) (fun c k' m' hx => ?_)
    · rw [List.append_nil]
      refine ⟨hread, ?_, hfor⟩
      by_contra hends
      have := hc.done call (Bool.not_eq_false _ ▸ hends)
      rw [hcall] at this
      cases this
    · have hq' : (Function.update s.readers reader ⟨ch, .reading⟩ q').pc = .answering k' m' c := hq'
      by_cases he : q' = reader
      · subst he
        rw [Function.update_self] at hq'
        cases hq'
      · rwa [Function.update_of_ne he] at hq'
    · have hx : Function.update s.rx call (.message k m) c = .message k' m' := hx
      rcases Table.update_cases hx with ⟨rfl, hnew⟩ | ⟨-, hold⟩
      · cases hnew
        exact .inr (List.mem_singleton_self _)
      · exact .inl hold

theorem given {C : List Event → State → Action → Prop} (h : machine.Exec C log s) : Given log s := by
  have h0 : Given machine.log₀ machine.init := ⟨nofun, by simp [machine], nofun, by simp [machine], .nil⟩
  refine h.invariant h0 ?_
  intro log s a s' evs hr hi _ hs
  exact hi.step (called hr) (step_step hs)

/-! ### Matching -/

/-- The numbers tell the calls apart. -/
theorem ForCall.unique {call' : Nat} (h : ForCall log m call) (h' : ForCall log m call')
    (hnodup : (requestIds log).Nodup) : call = call' := by
  obtain ⟨kind, requestId, ha, hid⟩ := h
  obtain ⟨kind', requestId', ha', hid'⟩ := h'
  obtain rfl : requestId = requestId' := Option.some.inj (hid.symm.trans hid')
  cases eq_of_nodup_filterMap hnodup ha ha' rfl rfl
  rfl

/-- A message is read once under its number. -/
theorem read_unique (h : History.Each Justified log) {m' : MessageEnum} (hm : .read k m ∈ log)
    (hm' : .read k m' ∈ log) : m = m' := by
  obtain ⟨pre, post, rfl⟩ := List.append_of_mem hm
  rcases List.mem_append.1 hm' with hm' | hm'
  · exact absurd hm' (h pre _ post rfl m')
  · rcases List.mem_cons.1 hm' with heq | hm'
    · cases heq
      rfl
    · obtain ⟨a, b, rfl⟩ := List.append_of_mem hm'
      have hj : Justified (pre ++ Event.read k m :: a) (.read k m') := h _ _ b (by simp)
      exact absurd (by simp) (hj m)

theorem Given.justified (h : Given log s) (he : e ∈ log) : ∃ pre post, log = pre ++ e :: post ∧ Justified pre e := by
  obtain ⟨pre, post, rfl⟩ := List.append_of_mem he
  exact ⟨pre, post, rfl, h.history pre e post rfl⟩

theorem Given.read (h : Given log s) (hm : .given k m call ∈ log) : .read k m ∈ log ∧ ForCall log m call := by
  obtain ⟨pre, post, rfl, hread, -, hfor⟩ := h.justified hm
  exact ⟨List.mem_append_left _ hread, hfor.mono⟩

/-- As long as the numbers do not run out, every call is given its own response or none. -/
theorem responses_matched (h : machine.Run log s) (hn : (requestIds log).length < 2147483648) :
    Matched log := by
  have hcalled := called h
  have hgiven := given h
  have hnodup := (numbered h).nodup (Nat.le_of_lt hn)
  refine ⟨?_, ?_, ?_⟩
  · intro call r hm
    obtain ⟨pre, post, hlog, k, kind, requestId, ha, hg, hkind, hcode⟩ := hgiven.justified hm
    have ha' : .allocated call kind requestId ∈ log := by rw [hlog]; exact List.mem_append_left _ ha
    have hg' : .given k (.response r) call ∈ log := by rw [hlog]; exact List.mem_append_left _ hg
    obtain ⟨hread, kind', requestId', ha'', hid⟩ := hgiven.read hg'
    obtain ⟨-, rfl⟩ := hcalled.unique _ _ _ _ _ ha' ha''
    exact ⟨k, kind, requestId, ha', hread, hg', Option.some.inj hid, hkind, hcode⟩
  · intro k m m' call call' hm hm'
    obtain ⟨hread, hfor⟩ := hgiven.read hm
    obtain ⟨hread', hfor'⟩ := hgiven.read hm'
    obtain rfl := read_unique hgiven.history hread hread'
    exact hfor.unique hfor' hnodup
  · intro pre k m post call kind requestId hlog ha hends hid m' call' hm
    have ha' : .allocated call kind requestId ∈ log := by rw [hlog]; exact List.mem_append_left _ ha
    have hread : .read k m ∈ log := by rw [hlog]; exact List.mem_append_right _ (List.mem_cons_self ..)
    obtain ⟨hread', hfor⟩ := hgiven.read hm
    obtain rfl := read_unique hgiven.history hread hread'
    obtain rfl := ForCall.unique ⟨kind, requestId, ha', hid⟩ hfor hnodup
    obtain ⟨pre', post', hlog', hr, hno, -⟩ := hgiven.justified hm
    -- The call is over before the message is read, and that is before it is given.
    rcases List.append_eq_append_iff.1 (hlog.symm.trans hlog') with ⟨as, rfl, -⟩ | ⟨as, rfl, -⟩
    · rw [List.any_append, hends] at hno
      cases hno
    · exact hgiven.history _ _ _ hlog m (List.mem_append_left _ hr)

def okResponse (requestId : UInt32) (body : Message.ResponseBody) : MessageEnum :=
  .response ⟨requestId, 0, "", body⟩

/-- Three calls and a ping: two responses in the other order, and one that comes too late. -/
theorem responses_matched_late : ∃ log s, machine.Run log s ∧ Matched log ∧
    .returned 0 (.ok ⟨0, 0, "", .upstreamClose⟩) ∈ log ∧
    .returned 2 (.ok ⟨6, 0, "", .downstreamClose⟩) ∈ log ∧ .returned 1 (.error (.timeout "")) ∈ log ∧
    .read 2 (okResponse 4 .upstreamMetadataAck) ∈ log := by
  obtain ⟨log, s, h, hn, hp⟩ := Machine.Exec.exists_of_any (M := machine) (C := fun _ _ _ => True)
    [.allocate 0 .upstreamClose, .ping, .allocate 1 .upstreamMetadataAck, .register 1,
      .allocate 2 .downstreamClose, .register 0, .register 2, .sent 1, .sent 0, .sent 2,
      .fail 1 (.timeout ""), .read .reliable (okResponse 6 .downstreamClose), .answer .reliable,
      .read .unreliable (okResponse 0 .upstreamClose), .answer .unreliable, .receive 0, .receive 2,
      .read .reliable (okResponse 4 .upstreamMetadataAck), .answer .reliable]
    (P := fun log _ => (requestIds log).length < 2147483648 ∧
      .returned 0 (.ok ⟨0, 0, "", .upstreamClose⟩) ∈ log ∧
      .returned 2 (.ok ⟨6, 0, "", .downstreamClose⟩) ∈ log ∧ .returned 1 (.error (.timeout "")) ∈ log ∧
      .read 2 (okResponse 4 .upstreamMetadataAck) ∈ log)
    (by decide +kernel)
  exact ⟨log, s, h, responses_matched h hn, hp⟩

end Wire.Request
end Iscp
