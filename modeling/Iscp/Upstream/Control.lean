import Iscp.Upstream.Steps

/-!
# The loop and its resume task

From the moment the loop has joined its resume task until it spawns the next one, the task is over,
`need_resume` is unset and the shared cells stay as the task left them (`Control`). So what the resume
loop keeps about tokens and aliases, the whole machine keeps.
-/

namespace Iscp.Upstream

variable {o : Opened} {config : UpstreamConfig} {s s' : State} {log evs : List Event}

def LoopPc.connected : LoopPc → Bool
  | .afterResume | .resending _ | .flushLoop | .sending _ _ | .flushed _ _ | .waitAck
  | .closeRequest | .closing | .closed _ | .lost => true
  | .offline | .offlineFlushed | .returned | .remaining | .exited => false

def LoopPc.toSend : LoopPc → List Message.UpstreamChunk
  | .sending chunk _ => [chunk]
  | .resending todo => todo
  | _ => []

structure Control (s : State) : Prop where
  registered : s.loop.connected → s.resume.pc = .registered
  needResume : s.resume.pc = .registered → s.resume.needResume = false

theorem Control.needResume_of_connected (h : Control s) (hl : s.loop.connected) :
    s.resume.needResume = false := h.needResume (h.registered hl)

def resumeEvents (log : List Event) : List ResumeEvent :=
  log.filterMap fun
    | .resume e => some e
    | _ => none

@[simp] theorem resumeEvents_append :
    resumeEvents (log ++ evs) = resumeEvents log ++ resumeEvents evs := List.filterMap_append

@[simp] theorem resumeEvents_map (es : List ResumeEvent) : resumeEvents (es.map .resume) = es := by
  simp [resumeEvents, List.filterMap_map]

theorem resumeEvents_eq_nil (h : ∀ e ∈ evs, ∀ r, e ≠ .resume r) : resumeEvents evs = [] := by
  rw [resumeEvents, List.filterMap_eq_nil_iff]
  intro e he
  split
  · exact absurd rfl (h _ he _)
  · rfl

theorem resumeEvents_of_app (h : ∀ e ∈ evs, e.ofApp) : resumeEvents evs = [] :=
  resumeEvents_eq_nil fun e he r hr => by subst hr; exact h _ he

theorem Take.frame {site : TakeSite} {c : Option Message.UpstreamChunk} (h : Take site s s' c evs) :
    s'.wire = s.wire ∧ s'.resume = s.resume ∧ s'.loop = s.loop ∧ resumeEvents evs = [] := by
  have he : resumeEvents evs = [] := resumeEvents_eq_nil fun e he r => by
    rcases h.event he with ⟨_, _, rfl⟩ | ⟨_, rfl⟩ <;> simp
  cases h <;> exact ⟨rfl, rfl, rfl, he⟩

@[simp] theorem processAck_resume (ack : Message.UpstreamChunkAck) :
    (s.processAck ack).1.resume = s.resume := rfl

@[simp] theorem processAck_loop (ack : Message.UpstreamChunkAck) :
    (s.processAck ack).1.loop = s.loop := rfl

theorem resumeEvents_processAck (ack : Message.UpstreamChunkAck) :
    resumeEvents (s.processAck ack).2 = [] := by
  refine resumeEvents_eq_nil fun e he r => ?_
  rcases processAck_event he with ⟨_, rfl⟩ | ⟨_, rfl⟩ <;> simp

/-- The loop leaves the resume task's state alone, except that it may start a new task when it was
connected; it is connected after a step only if it was, or if the task has registered. -/
theorem LoopStep.resume_eq {a : LoopAction} (h : LoopStep config s a s' evs) :
    resumeEvents evs = [] ∧
      (s'.resume = s.resume ∧ (s'.loop.connected → s.loop.connected ∨ s.resume.pc = .registered) ∨
        s.loop.connected ∧ s'.loop = .offline ∧ ∃ b, s'.resume =
          { s.resume with needResume := s.resume.needResume || b }.restart 0) := by
  cases h with
  | joined hl hp => exact ⟨rfl, .inl ⟨rfl, fun _ => .inr hp⟩⟩
  | flushOffline hl ht =>
    obtain ⟨-, hr, -, he⟩ := ht.frame
    exact ⟨he, .inl ⟨hr, by simp [LoopPc.connected]⟩⟩
  | discard hl hq ht =>
    obtain ⟨-, hr, -, he⟩ := ht.frame
    exact ⟨by rw [resumeEvents_append, he]; rfl, .inl ⟨hr, by simp [hl, LoopPc.connected]⟩⟩
  | flushEmpty hl _ ht | flushChunk hl _ ht =>
    obtain ⟨-, hr, -, he⟩ := ht.frame
    exact ⟨he, .inl ⟨hr, by simp [hl, LoopPc.connected]⟩⟩
  | processRemaining hl ht =>
    obtain ⟨-, hr, -, he⟩ := ht.frame
    exact ⟨he, .inl ⟨hr, by simp [LoopPc.connected]⟩⟩
  | ack hl =>
    exact ⟨resumeEvents_processAck _, .inl ⟨rfl, fun hc => .inl hc⟩⟩
  | resendFailed hl | recover hl =>
    obtain ⟨resume, loop, he, h⟩ := recover_cases config s _
    rw [he]
    rcases h with ⟨rfl, rfl⟩ | ⟨rfl, rfl⟩
    · exact ⟨rfl, .inl ⟨rfl, by simp [LoopPc.connected]⟩⟩
    · exact ⟨rfl, .inr ⟨by simp [hl, LoopPc.connected], rfl, _, rfl⟩⟩
  | ended | offlineFlushed | exit | closeDone =>
    exact ⟨rfl, .inl ⟨by simp, by simp [LoopPc.connected]⟩⟩
  | resend hl | resent hl | resendDone hl | sent hl | sendFailed hl | flushed hl | flushedLast hl
  | flushFailed hl | ackClosed hl | acked hl | closeRequest hl | closeResponded hl =>
    exact ⟨rfl, .inl ⟨by simp, by simp [hl, LoopPc.connected]⟩⟩

theorem Control.step {a : Action} (h : Control s) (st : Step config s a s' evs) : Control s' := by
  cases st with
  | loop hl =>
    obtain ⟨-, ⟨hr, hc⟩ | ⟨-, hoff, b, hr⟩⟩ := hl.resume_eq
    · refine ⟨fun hc' => ?_, fun hp => ?_⟩
      · rw [hr]
        exact (hc hc').elim h.registered id
      · rw [hr] at hp ⊢
        exact h.needResume hp
    · refine ⟨fun hc' => ?_, fun hp => ?_⟩
      · simp [hoff, LoopPc.connected] at hc'
      · simp [hr] at hp
  | resume hp hr =>
    refine ⟨fun hc => absurd (h.registered hc) hp, fun hp' => ?_⟩
    exact (Resume.step_step hr).needResume hp'
  | app _ hs =>
    exact ⟨by rw [hs.loop, hs.resume]; exact h.registered, by rw [hs.resume]; exact h.needResume⟩
  | wire | cancel => exact ⟨h.registered, h.needResume⟩

theorem control {C : List Event → State → Action → Prop} (h : o.machine.Exec C log s) : Control s := by
  refine h.invariant (I := fun _ s => Control s) ?_ fun _ _ _ _ _ _ hi _ ha => hi.step (step_step ha)
  exact ⟨by simp [Opened.machine, Opened.init, LoopPc.connected], by simp [Opened.machine, Opened.init]⟩

/-- While a resume task runs, the loop has no chunk in its hands. -/
theorem Control.toSend_eq_nil (h : Control s) (hp : s.resume.pc ≠ .registered) :
    s.loop.toSend = [] := by
  have : s.loop.connected = false := by
    by_contra hl
    exact hp (h.registered (by simpa using hl))
  revert this
  cases s.loop <;> simp [LoopPc.connected, LoopPc.toSend]

/-! ### The alias and the token -/

/-- What the open satisfies, every step of the resume task keeps and a new task too, holds of every run. -/
theorem resume_invariant {C : List Event → State → Action → Prop} {I : List ResumeEvent → Resume → Prop}
    (h : o.machine.Exec C log s) (h0 : I (resumeEvents o.machine.log₀) o.machine.init.resume)
    (hstep : ∀ log s a r es, C log s (.resume a) → I (resumeEvents log) s.resume →
      Resume.Step s.wire s.resume a r es → I (resumeEvents log ++ es) r)
    (hrestart : ∀ es r b n, r.needResume = false → I es r → I es ({ r with needResume := b }.restart n)) :
    I (resumeEvents log) s.resume := by
  refine h.invariant (I := fun log s => I (resumeEvents log) s.resume) h0 ?_
  intro log s a s' evs hr hi hc ha
  rw [resumeEvents_append]
  cases step_step ha with
  | loop hl =>
    obtain ⟨he, ⟨hres, -⟩ | ⟨hcon, -, b, hres⟩⟩ := hl.resume_eq
    · rwa [he, List.append_nil, hres]
    · rw [he, List.append_nil, hres]
      exact hrestart _ _ _ _ ((control hr).needResume_of_connected hcon) hi
  | resume hp hs =>
    rw [resumeEvents_map]
    exact hstep _ _ _ _ _ hc hi (Resume.step_step hs)
  | app hap hs he => rwa [resumeEvents_of_app he, List.append_nil, hs.resume]
  | wire | cancel => exact (List.append_nil _).symm ▸ hi

theorem aliasInv {C : List Event → State → Action → Prop} (h : o.machine.Exec C log s) :
    s.resume.AliasInv (resumeEvents log) := by
  refine resume_invariant (I := fun es r => r.AliasInv es) h ?_ ?_ ?_
  · simp [Resume.AliasInv, Opened.machine, Opened.init, resumeEvents, ResumeEvent.assigned?]
  · intro log s a r es _ hi hs
    exact hi.step hs
  · intro es r b n hn hi _
    exact hi hn

/-- No resume task finds its connection lost between a resume and the registration. -/
def NeverStale (s : State) : Action → Prop
  | .resume a => s.resume.NeverStale s.wire a
  | _ => True

instance (s : State) (a : Action) : Decidable (NeverStale s a) := by
  unfold NeverStale; split <;> infer_instance

theorem tokenInv (h : o.machine.Exec (fun _ => NeverStale) log s) :
    s.resume.TokenInv (resumeEvents log) := by
  refine resume_invariant (I := fun es r => r.TokenInv es) h ?_ ?_ ?_
  · refine ⟨?_, ?_, ?_, ?_, ?_⟩
    · exact History.each_singleton.2 trivial
    all_goals simp [Opened.machine, Opened.init, resumeEvents, ResumeEvent.token?]
  · intro log s a r es hc hi hs
    exact hi.step hc hs
  · intro es r b n hn hi
    exact hi.restart hn b n

end Iscp.Upstream
