import Iscp.Wire.Matching

/-!
# What the calls leave in `response_senders`

Only a read loop takes a sender out of the table, for the first response that it reads under its number. A
call that ends without one, by a failure or because it is dropped, leaves its sender behind. As long as no
call ends so, and no number is given out twice, the senders in the table are of calls in progress.
-/

namespace Iscp
namespace Wire.Request

open Message (MessageEnum Response ResponseKind)

variable {s s' : State} {log evs : List Event} {call c k : Nat} {kind : ResponseKind} {phase : Phase}
  {requestId : UInt32} {m : MessageEnum} {reader : ReaderName} {act : Action}

def Event.callId? : Event → Option UInt32
  | .allocated _ _ requestId => some requestId
  | _ => none

def CallPc.isRegistered : CallPc → Bool
  | active .registered _ _ | active .waiting _ _ => true
  | _ => false

def ReaderPc.answers (call : Nat) : ReaderPc → Bool
  | answering _ _ c => c = call
  | _ => false

/-- A read loop has taken the sender of the call out of the table. -/
def State.Taken (s : State) (call : Nat) : Prop :=
  s.rx call ≠ .empty ∨ (s.readers .reliable).pc.answers call ∨ (s.readers .unreliable).pc.answers call

/-- A call gives up only before it is registered or once its response is read, and takes a number that no
call has had. -/
def EndsAnswered (log : List Event) (s : State) : Action → Prop
  | .allocate _ _ => s.requestIdCounter ∉ log.filterMap Event.callId?
  | .fail call _ | .drop call => (s.calls call).isRegistered → s.Taken call
  | _ => True

instance (call : Nat) : Decidable (s.Taken call) :=
  inferInstanceAs (Decidable (_ ∨ _ ∨ _))

instance (log : List Event) (s : State) (act : Action) : Decidable (EndsAnswered log s act) := by
  unfold EndsAnswered
  induction act using Action.casesOn <;> infer_instance

/-- The table has no sender of a call that has ended, and no more entries than there are calls in progress. -/
structure NoneLeft (log : List Event) (s : State) : Prop where
  ended : ∀ call kind requestId, .allocated call kind requestId ∈ log → log.any (Event.ends call) →
    s.responseSenders requestId = none
  bounded : ∀ keys : List UInt32, keys.Nodup → (∀ requestId ∈ keys, (s.responseSenders requestId).isSome) →
    ∃ calls : List Nat, calls.Nodup ∧ calls.length = keys.length ∧
      ∀ call ∈ calls, ∃ phase kind requestId, s.calls call = .active phase kind requestId

/-! ### The senders in the table -/

theorem not_taken (hx : s.rx call = .empty) (ha : ∀ q, (s.readers q).pc.answers call = false) :
    ¬ s.Taken call := by
  rintro (h | h | h)
  · exact h hx
  · rw [ha] at h
    cases h
  · rw [ha] at h
    cases h

theorem rx_of_not_taken (h : ¬ s.Taken call) : s.rx call = .empty := by
  by_contra hx
  exact h (.inl hx)

theorem answers_of_not_taken (h : ¬ s.Taken call) (q : ReaderName) : (s.readers q).pc.answers call = false := by
  rw [State.Taken, not_or, not_or, Bool.not_eq_true, Bool.not_eq_true] at h
  cases q
  · exact h.2.1
  · exact h.2.2

/-- Every sender in the table is the one of a call that waits for its response, under the call's number. -/
structure Senders (log : List Event) (s : State) : Prop where
  unique : ∀ call kind call' kind' requestId, .allocated call kind requestId ∈ log →
    .allocated call' kind' requestId ∈ log → call = call'
  entry : ∀ requestId call, s.responseSenders requestId = some call → ¬ s.Taken call ∧
    ∃ phase kind, phase ≠ .allocated ∧ s.calls call = .active phase kind requestId
  fresh : ∀ call, (s.calls call).isRegistered = false → s.calls call ≠ .ended → ¬ s.Taken call

namespace Senders

theorem init : Senders [] {} := by
  refine ⟨nofun, nofun, fun call _ _ => not_taken rfl fun q => ?_⟩
  cases q <;> rfl

/-- No call takes a number, and the senders in the table stay those of calls that wait. -/
theorem keep (h : Senders log s) (hev : ∀ call kind requestId, .allocated call kind requestId ∉ evs)
    (hentry : ∀ requestId call, s'.responseSenders requestId = some call → ¬ s'.Taken call ∧
      ∃ phase kind, phase ≠ .allocated ∧ s'.calls call = .active phase kind requestId)
    (hfresh : ∀ call, (s'.calls call).isRegistered = false → s'.calls call ≠ .ended → ¬ s'.Taken call) :
    Senders (log ++ evs) s' := by
  have mem {call kind requestId} (hm : Event.allocated call kind requestId ∈ log ++ evs) :
      Event.allocated call kind requestId ∈ log :=
    (List.mem_append.1 hm).resolve_right (hev _ _ _)
  exact ⟨fun call kind call' kind' requestId hm hm' => h.unique _ _ _ _ _ (mem hm) (mem hm'), hentry, hfresh⟩

/-- A reader goes on, and answers nobody. -/
theorem taken_of_moves (hm : Moves s reader s') (h : s'.Taken call) : s.Taken call := by
  have hans (q : ReaderName) (ha : (s'.readers q).pc.answers call) : (s.readers q).pc.answers call := by
    by_cases hq : q = reader
    · subst hq
      have hno := hm.reader
      cases hpc : (s'.readers q).pc with
      | answering k m c =>
        rw [hpc] at hno
        cases hno
      | _ =>
        rw [hpc] at ha
        cases ha
    · rwa [hm.readers q hq] at ha
  rcases h with h | h | h
  · rw [hm.rx] at h
    exact .inl h
  · exact .inr (.inl (hans _ h))
  · exact .inr (.inr (hans _ h))

theorem move (h : Senders log s) (hm : Moves s reader s')
    (hev : ∀ call kind requestId, .allocated call kind requestId ∉ evs) : Senders (log ++ evs) s' := by
  refine h.keep hev (fun id c hs => ?_) fun c hr he ht => ?_
  · rw [hm.responseSenders] at hs
    obtain ⟨ht, hrest⟩ := h.entry id c hs
    rw [hm.calls]
    exact ⟨fun ht' => ht (taken_of_moves hm ht'), hrest⟩
  · rw [hm.calls] at hr he
    exact h.fresh c hr he (taken_of_moves hm ht)

theorem allocate (h : Senders log s) (hcall : s.calls call = .idle)
    (hnew : s.requestIdCounter ∉ log.filterMap Event.callId?) :
    Senders (log ++ [Event.allocated call kind s.requestIdCounter])
      (s.getRequestId.2.setCall call (.active .allocated kind s.requestIdCounter)) := by
  have hfresh {c k} : .allocated c k s.requestIdCounter ∉ log :=
    fun hm => hnew (List.mem_filterMap.2 ⟨_, hm, rfl⟩)
  refine ⟨fun c k c' k' id hm hm' => ?_, fun id c hs => ?_, fun c hr he => ?_⟩
  · simp only [List.mem_append, List.mem_singleton, Event.allocated.injEq] at hm hm'
    rcases hm with hm | ⟨rfl, -, rfl⟩ <;> rcases hm' with hm' | ⟨rfl, -, hid⟩
    · exact h.unique _ _ _ _ _ hm hm'
    · subst hid
      exact absurd hm hfresh
    · exact absurd hm' hfresh
    · rfl
  · obtain ⟨ht, phase, k, hp, hc⟩ := h.entry id c hs
    refine ⟨ht, phase, k, hp, ?_⟩
    rw [calls_setCall_of_ne]
    · exact hc
    · rintro rfl
      rw [hcall] at hc
      cases hc
  · by_cases hne : c = call
    · subst hne
      exact h.fresh c (by rw [hcall]; rfl) (by rw [hcall]; nofun)
    · rw [calls_setCall_of_ne hne] at hr he
      exact h.fresh c hr he

/-- Nobody's sender is replaced. -/
theorem register (h : Senders log s) (hc : Called log s) (hcall : s.calls call = .active .allocated kind requestId) :
    Senders log ((s.addResponseSender requestId call).setCall call (.active .registered kind requestId)) := by
  have hnone : s.responseSenders requestId = none := by
    rw [Option.eq_none_iff_forall_not_mem]
    intro c hs
    obtain ⟨-, phase, k, hp, hc'⟩ := h.entry requestId c hs
    obtain rfl := h.unique _ _ _ _ _ (hc.active _ _ _ _ hc') (hc.active _ _ _ _ hcall)
    rw [hcall] at hc'
    cases hc'
    exact hp rfl
  have hadd : s.addResponseSender requestId call = s.setSender requestId (some call) := by
    rw [State.addResponseSender, hnone]
    rfl
  rw [hadd]
  refine ⟨h.unique, fun id c hs => ?_, fun c hr he => ?_⟩
  · have hs : Function.update s.responseSenders requestId (some call) id = some c := hs
    rcases Table.update_cases hs with ⟨rfl, hnew⟩ | ⟨-, hold⟩
    · cases hnew
      have ht := h.fresh call (by rw [hcall]; rfl) (by rw [hcall]; nofun)
      exact ⟨ht, .registered, kind, nofun, calls_setCall ..⟩
    · obtain ⟨ht, phase, k, hp, hc'⟩ := h.entry id c hold
      refine ⟨ht, phase, k, hp, ?_⟩
      rw [calls_setCall_of_ne]
      · exact hc'
      · rintro rfl
        rw [hcall] at hc'
        cases hc'
        exact hp rfl
  · by_cases hne : c = call
    · subst hne
      rw [calls_setCall] at hr
      cases hr
    · rw [calls_setCall_of_ne hne] at hr he
      exact h.fresh c hr he

theorem sent (h : Senders log s) (hcall : s.calls call = .active .registered kind requestId) :
    Senders log (s.setCall call (.active .waiting kind requestId)) := by
  refine ⟨h.unique, fun id c hs => ?_, fun c hr he => ?_⟩
  · obtain ⟨ht, phase, k, hp, hc⟩ := h.entry id c hs
    refine ⟨ht, ?_⟩
    by_cases hne : c = call
    · subst hne
      rw [hcall] at hc
      cases hc
      exact ⟨.waiting, kind, nofun, calls_setCall ..⟩
    · exact ⟨phase, k, hp, by rw [calls_setCall_of_ne hne, hc]⟩
  · by_cases hne : c = call
    · subst hne
      rw [calls_setCall] at hr
      cases hr
    · rw [calls_setCall_of_ne hne] at hr he
      exact h.fresh c hr he

/-- A call whose sender has been taken ends. -/
theorem finish {e : Event} (h : Senders log s) (hcall : s.calls call = .active phase kind requestId)
    (he : Ends s call kind e) (ht : (s.calls call).isRegistered → s.Taken call) :
    Senders (log ++ [e]) (s.setCall call .ended) := by
  refine h.keep (fun c k id hm => ?_) (fun id c hs => ?_) fun c hr hne' => ?_
  · rw [← List.mem_singleton.1 hm] at he
    cases he
  · obtain ⟨hnt, phase', k, hp, hc⟩ := h.entry id c hs
    refine ⟨hnt, phase', k, hp, ?_⟩
    rw [calls_setCall_of_ne]
    · exact hc
    · rintro rfl
      refine hnt (ht ?_)
      rw [hc]
      cases phase' with
      | allocated => exact absurd rfl hp
      | registered | waiting => rfl
  · by_cases hne : c = call
    · subst hne
      exact absurd (calls_setCall ..) hne'
    · rw [calls_setCall_of_ne hne] at hr hne'
      exact h.fresh c hr hne'

/-- A read loop takes out the sender of a call, and answers that call only. -/
theorem found {ch : ReadLoopChannels Nat} (h : Senders log s) (hsend : s.responseSenders requestId = some call) :
    Senders (log ++ [Event.read s.reads m]) (({ s with reads := s.reads + 1 }.setSender requestId none).setReader reader
      ⟨ch, .answering s.reads m call⟩) := by
  obtain ⟨-, phase, kind, hp, hcall⟩ := h.entry requestId call hsend
  have htaken {c} (hne : c ≠ call) (ht : ¬ s.Taken c) :
      ¬ (({ s with reads := s.reads + 1 }.setSender requestId none).setReader reader
        ⟨ch, .answering s.reads m call⟩).Taken c := by
    refine not_taken ?_ fun q => ?_
    · show s.rx c = .empty
      exact rx_of_not_taken ht
    · show (Function.update s.readers reader ⟨ch, .answering s.reads m call⟩ q).pc.answers c = false
      by_cases hq : q = reader
      · subst hq
        rw [Function.update_self]
        exact decide_eq_false (Ne.symm hne)
      · rw [Function.update_of_ne hq]
        exact answers_of_not_taken ht q
  refine h.keep (by simp) (fun id c hs => ?_) fun c hr he => htaken ?_ (h.fresh c hr he)
  · have hs : Function.update s.responseSenders requestId none id = some c := hs
    rcases Table.update_cases hs with ⟨-, hnew⟩ | ⟨hid, hold⟩
    · cases hnew
    · obtain ⟨ht, hrest⟩ := h.entry id c hold
      refine ⟨htaken ?_ ht, hrest⟩
      rintro rfl
      obtain ⟨phase', k, -, hc⟩ := hrest
      rw [hcall] at hc
      cases hc
      exact hid rfl
  · rintro rfl
    have hr : (s.calls c).isRegistered = false := hr
    rw [hcall] at hr
    cases phase with
    | allocated => exact absurd rfl hp
    | registered | waiting => cases hr

theorem give {ch : ReadLoopChannels Nat} (h : Senders log s) (hq : (s.readers reader).pc = .answering k m call)
    (hcall : s.calls call = .active phase kind requestId) :
    Senders (log ++ [Event.given k m call]) ((s.setReader reader ⟨ch, .reading⟩).setRx call (.message k m)) := by
  have htaken : s.Taken call := by
    have ha : (s.readers reader).pc.answers call := by
      rw [hq]
      exact decide_eq_true rfl
    cases reader
    · exact .inr (.inl ha)
    · exact .inr (.inr ha)
  have hnt {c} (ht : ¬ s.Taken c) : ¬ ((s.setReader reader ⟨ch, .reading⟩).setRx call (.message k m)).Taken c := by
    have hne : c ≠ call := by
      rintro rfl
      exact ht htaken
    refine not_taken ?_ fun q => ?_
    · show Function.update s.rx call (.message k m) c = .empty
      rw [Function.update_of_ne hne]
      exact rx_of_not_taken ht
    · show (Function.update s.readers reader ⟨ch, .reading⟩ q).pc.answers c = false
      by_cases hqr : q = reader
      · subst hqr
        rw [Function.update_self]
        rfl
      · rw [Function.update_of_ne hqr]
        exact answers_of_not_taken ht q
  refine h.keep (by simp) (fun id c hs => ?_) fun c hr he => hnt (h.fresh c hr he)
  obtain ⟨ht, hrest⟩ := h.entry id c hs
  exact ⟨hnt ht, hrest⟩

theorem step (h : Senders log s) (hc : Called log s)
    (hnew : ∀ call kind requestId, .allocated call kind requestId ∈ evs →
      requestId ∉ log.filterMap Event.callId?)
    (hend : ∀ call, evs.any (Event.ends call) → (s.calls call).isRegistered → s.Taken call)
    (hs : Step s s' evs) : Senders (log ++ evs) s' := by
  cases hs with
  | allocate hcall => exact h.allocate hcall (hnew _ _ _ (List.mem_singleton_self _))
  | ping => exact h.keep (by simp) h.entry h.fresh
  | register hcall =>
    rw [List.append_nil]
    exact h.register hc hcall
  | sent hcall =>
    rw [List.append_nil]
    exact h.sent hcall
  | finish hcall he => exact h.finish hcall he (hend _ (by simp [he.ends_eq]))
  | move hm => exact h.move hm (by simp)
  | @read reader m s' hm =>
    have hreads : Senders log { s with reads := s.reads + 1 } := ⟨h.unique, h.entry, h.fresh⟩
    exact hreads.move hm (by simp)
  | found _ hsend => exact h.found hsend
  | give hq hcall => exact h.give hq hcall
  | cancel => exact h.keep (by simp) h.entry h.fresh

end Senders

/-! ### The calls that end -/

/-- A call ends by giving up, or with what is in its oneshot. -/
theorem ends_of_step (h : step s act = some (s', evs)) (he : evs.any (Event.ends call)) :
    (∃ e, act = .fail call e) ∨ act = .drop call ∨ s.rx call ≠ .empty := by
  cases act with
  | fail c e =>
    simp only [step] at h
    split at h
    · split at h
      · cases h
        have hc : c = call := by simpa [Event.ends] using he
        exact .inl ⟨e, by rw [hc]⟩
      · cases h
    · cases h
  | drop c =>
    simp only [step] at h
    split at h
    · cases h
      have hc : c = call := by simpa [Event.ends] using he
      exact .inr (.inl (by rw [hc]))
    · cases h
  | receive c =>
    simp only [step] at h
    split at h
    · rename_i hx
      cases h
      have hc : c = call := by simpa [Event.ends] using he
      rw [← hc, hx]
      exact .inr (.inr (by simp))
    · rename_i hx
      cases h
      have hc : c = call := by simpa [Event.ends] using he
      rw [← hc, hx]
      exact .inr (.inr (by simp))
    · cases h
  | allocate c kind | register c | sent c | command q command | read q m | resume q | exit q =>
    simp only [step] at h
    split at h <;> cases h <;> simp [Event.ends] at he
  | answer q =>
    simp only [step] at h
    split at h
    · split at h <;> cases h <;> simp [Event.ends] at he
    · cases h
  | ping | cancel =>
    cases h
    simp [Event.ends] at he

theorem taken_of_ends (hc : EndsAnswered log s act) (h : step s act = some (s', evs))
    (he : evs.any (Event.ends call)) (hr : (s.calls call).isRegistered) : s.Taken call := by
  rcases ends_of_step h he with ⟨e, rfl⟩ | rfl | hx
  · exact hc hr
  · exact hc hr
  · exact .inl hx

theorem allocated_fresh (hc : EndsAnswered log s act) (h : step s act = some (s', evs))
    (he : .allocated call kind requestId ∈ evs) : requestId ∉ log.filterMap Event.callId? := by
  cases act with
  | allocate c kind =>
    simp only [step] at h
    split at h
    · cases h
      cases List.mem_singleton.1 he
      exact hc
    · cases h
  | fail c e | answer q =>
    simp only [step] at h
    split at h
    · split at h <;> cases h <;> simp at he
    · cases h
  | drop c | receive c | register c | sent c | command q command | read q m | resume q | exit q =>
    simp only [step] at h
    split at h <;> cases h <;> simp at he
  | ping | cancel =>
    cases h
    simp at he

/-- As long as the calls end with their responses, no call that has ended is in the table. -/
theorem none_left (h : machine.Exec EndsAnswered log s) : NoneLeft log s := by
  have hc := called h
  have hs : Senders log s := by
    refine h.invariant .init ?_
    intro log s act s' evs hr hs hend ha
    exact hs.step (called hr) (fun _ _ _ => allocated_fresh hend ha) (fun _ => taken_of_ends hend ha)
      (step_step ha)
  refine ⟨fun call kind requestId hm he => ?_, fun keys hn hk => ?_⟩
  · rw [Option.eq_none_iff_forall_not_mem]
    intro c hsend
    obtain ⟨-, phase, k, -, hcall⟩ := hs.entry requestId c hsend
    obtain rfl := hs.unique _ _ _ _ _ hm (hc.active _ _ _ _ hcall)
    rw [hc.done call he] at hcall
    cases hcall
  · refine ⟨keys.map fun requestId => (s.responseSenders requestId).getD 0, hn.map_on fun x hx y hy hxy => ?_,
      List.length_map .., fun call hm => ?_⟩
    · -- A call has one number, so two keys have the senders of two calls.
      obtain ⟨call, hcx⟩ := Option.isSome_iff_exists.1 (hk x hx)
      obtain ⟨call', hcy⟩ := Option.isSome_iff_exists.1 (hk y hy)
      obtain rfl : call = call' := by simpa [hcx, hcy] using hxy
      obtain ⟨-, phase, kind, -, hx'⟩ := hs.entry x call hcx
      obtain ⟨-, phase', kind', -, hy'⟩ := hs.entry y call hcy
      rw [hx'] at hy'
      cases hy'
      rfl
    · obtain ⟨requestId, hid, rfl⟩ := List.mem_map.1 hm
      obtain ⟨call, hsend⟩ := Option.isSome_iff_exists.1 (hk requestId hid)
      obtain ⟨-, phase, kind, -, hcall⟩ := hs.entry requestId call hsend
      rw [hsend]
      exact ⟨phase, kind, requestId, hcall⟩

/-- One call is answered, one gives up when its response is read, and one is dropped before it registers. -/
theorem none_left_answered : ∃ log s, machine.Exec EndsAnswered log s ∧ NoneLeft log s ∧
    .returned 0 (.ok ⟨0, 0, "", .upstreamClose⟩) ∈ log ∧ .returned 1 (.error (.timeout "")) ∈ log ∧
    .dropped 2 ∈ log := by
  obtain ⟨log, s, h, hp⟩ := Machine.Exec.exists_of_any (M := machine) (C := EndsAnswered)
    [.allocate 0 .upstreamClose, .allocate 1 .downstreamClose, .register 1, .register 0,
      .allocate 2 .upstreamMetadataAck, .sent 1, .sent 0, .read .reliable (okResponse 2 .downstreamClose),
      .fail 1 (.timeout ""), .read .unreliable (okResponse 0 .upstreamClose), .drop 2, .answer .unreliable, .receive 0]
    (P := fun log _ => .returned 0 (.ok ⟨0, 0, "", .upstreamClose⟩) ∈ log ∧
      .returned 1 (.error (.timeout "")) ∈ log ∧ .dropped 2 ∈ log)
    (by decide +kernel)
  exact ⟨log, s, h, none_left h, hp⟩

/-- A call times out, and its sender stays in the table. -/
theorem sender_left : ¬ ∀ log s, machine.Run log s → NoneLeft log s := by
  intro h
  obtain ⟨log, s, hr, hm, he, hs⟩ := Machine.Exec.exists_of_any (M := machine) (C := fun _ _ _ => True)
    [.allocate 0 .upstreamClose, .register 0, .sent 0, .fail 0 (.timeout "")]
    (P := fun log s => .allocated 0 .upstreamClose 0 ∈ log ∧ log.any (Event.ends 0) ∧
      s.responseSenders 0 = some 0) (by decide +kernel)
  have hnone := (h _ _ hr).ended 0 .upstreamClose 0 hm he
  rw [hs] at hnone
  cases hnone

end Wire.Request
end Iscp
