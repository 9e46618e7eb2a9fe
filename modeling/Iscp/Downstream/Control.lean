import Iscp.Downstream.Steps

/-!
# The loop of a downstream and its resume loop

As long as the loop works on a connection its resume loop is left with a registration, and no resume is
due (`Control`). So what the resume loop keeps about its token, the whole machine keeps.
-/

namespace Iscp.Downstream

variable {o : Opened} {s s' : State} {log evs : List Event}

structure Control (s : State) : Prop where
  registered : s.loop.connected → s.resume.pc = .registered
  needResume : s.resume.pc = .registered → s.resume.needResume = false

def resumeEvents (log : List Event) : List ResumeEvent :=
  log.filterMap fun
    | .resume e => some e
    | _ => none

@[simp] theorem resumeEvents_append :
    resumeEvents (log ++ evs) = resumeEvents log ++ resumeEvents evs := List.filterMap_append

@[simp] theorem resumeEvents_map (es : List ResumeEvent) : resumeEvents (es.map .resume) = es := by
  simp [resumeEvents, List.filterMap_map]

theorem resumeEvents_eq_nil (h : ∀ e ∈ evs, ¬ e.chunks) : resumeEvents evs = [] := by
  rw [resumeEvents, List.filterMap_eq_nil_iff]
  intro e he
  have := h e he
  split
  · exact absurd trivial this
  · rfl

/-- The loop leaves the resume loop's state alone, except that it starts it again at the end of a
connection; it works on a connection after a step only if it did before, or if one is registered. -/
theorem LoopStep.resume_eq {a : LoopAction} (h : LoopStep o s a s' evs) :
    resumeEvents evs = [] ∧
      (s'.resume = s.resume ∧ (s'.loop.connected → s.loop.connected ∨ s.resume.pc = .registered) ∨
        s.loop.connected ∧ s'.loop = .resuming ∧ s'.resume = s.resume.restart s.resume.seen) := by
  cases h with
  | quiet hcore he _ _ hc => exact ⟨resumeEvents_eq_nil he, .inl ⟨(core_eq hcore).2.1, hc⟩⟩
  | restart hl => exact ⟨rfl, .inr ⟨by rw [hl]; rfl, rfl, rfl⟩⟩
  | converted _ hcon | ackTaken _ hcon | ackSent _ hcon | ackFailed _ hcon =>
    exact ⟨rfl, .inl ⟨rfl, fun _ => .inl hcon⟩⟩
  | refused => exact ⟨rfl, .inl ⟨rfl, by simp [LoopPc.connected]⟩⟩
  | next hl | sent hl | readerGone hl | drainSent hl | drainDropped hl =>
    exact ⟨rfl, .inl ⟨rfl, fun _ => .inl (by rw [hl]; rfl)⟩⟩
  | nextNone hl =>
    refine ⟨rfl, .inl ⟨rfl, fun _ => .inl ?_⟩⟩
    rcases hl with hl | hl <;> rw [hl] <;> rfl

theorem Control.step {a : Action} (h : Control s) (st : Step o s a s' evs) : Control s' := by
  cases st with
  | loop hl =>
    obtain ⟨-, ⟨hr, hc⟩ | ⟨-, hres, hr⟩⟩ := hl.resume_eq
    · refine ⟨fun hc' => ?_, fun hp => ?_⟩
      · rw [hr]
        exact (hc hc').elim h.registered id
      · rw [hr] at hp ⊢
        exact h.needResume hp
    · refine ⟨fun hc' => ?_, fun hp => ?_⟩
      · simp [hres, LoopPc.connected] at hc'
      · simp [hr] at hp
  | resume hl hr hs hr' =>
    refine ⟨fun hc => ?_, fun hp => ?_⟩
    · simp [hs.loop, hl, LoopPc.connected] at hc
    · rw [hr'] at hp ⊢
      exact (Resume.step_step hr).needResume hp
  | env _ _ hs hr =>
    exact ⟨by rw [hs.loop, hr]; exact h.registered, by rw [hr]; exact h.needResume⟩

theorem control {C : List Event → State → Action → Prop} (h : o.machine.Exec C log s) : Control s := by
  refine h.invariant (I := fun _ s => Control s) ?_ fun _ _ _ _ _ _ hi _ ha => hi.step (step_step ha)
  exact ⟨by simp [Opened.machine, Opened.init, LoopPc.connected], by simp [Opened.machine, Opened.init]⟩

/-- What the open satisfies, every step of the resume loop keeps and a new loop too, holds of every run. -/
theorem resume_invariant {C : List Event → State → Action → Prop} {I : List ResumeEvent → Resume → Prop}
    (h : o.machine.Exec C log s) (h0 : I (resumeEvents o.machine.log₀) o.machine.init.resume)
    (hstep : ∀ log s a r es, C log s (.resume a) → I (resumeEvents log) s.resume →
      Resume.Step s.wire s.resume a r es → I (resumeEvents log ++ es) r)
    (hrestart : ∀ es r n, r.needResume = false → I es r → I es (r.restart n)) :
    I (resumeEvents log) s.resume := by
  refine h.invariant (I := fun log s => I (resumeEvents log) s.resume) h0 ?_
  intro log s a s' evs hr hi hc ha
  rw [resumeEvents_append]
  cases step_step ha with
  | loop hl =>
    obtain ⟨he, ⟨hres, -⟩ | ⟨hcon, -, hres⟩⟩ := hl.resume_eq
    · rwa [he, List.append_nil, hres]
    · rw [he, List.append_nil, hres]
      exact hrestart _ _ _ ((control hr).needResume ((control hr).registered hcon)) hi
  | resume hl hs _ hr' =>
    rw [resumeEvents_map, hr']
    exact hstep _ _ _ _ _ hc hi (Resume.step_step hs)
  | env _ _ _ hr' he => rwa [resumeEvents_eq_nil he, List.append_nil, hr']

/-- No resume loop finds its connection lost between a resume and the registration. -/
def NeverStale (s : State) : Action → Prop
  | .resume a => s.resume.NeverStale s.wire a
  | _ => True

instance (s : State) (a : Action) : Decidable (NeverStale s a) := by
  unfold NeverStale; split <;> infer_instance

theorem tokenInv (h : o.machine.Exec (fun _ => NeverStale) log s) :
    s.resume.TokenInv (resumeEvents log) := by
  refine resume_invariant (I := fun es r => r.TokenInv es) h ?_ ?_ ?_
  · refine ⟨?_, ?_, ?_, ?_, ?_⟩
    · exact History.each_singleton.2 trivial
    all_goals simp [Opened.machine, Opened.init, resumeEvents, ResumeEvent.token?]
  · intro log s a r es hc hi hs
    exact hi.step hc hs
  · intro es r n hn hi
    exact hi.restart hn r.needResume n

end Iscp.Downstream
