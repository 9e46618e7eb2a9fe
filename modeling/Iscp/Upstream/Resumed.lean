import Iscp.Upstream.Control
import Mathlib.Data.List.Count

/-!
# `resumed_callback`

`after_resume` calls it after every registration, whatever led to it: the open, a resume, or a failed resend
on a connection that is still up. As long as every registration follows a resume of its resume task, and
every resume is followed by the registration, the callback is called once for each resume.
-/

namespace Iscp

/-- The resume loop has been left. -/
def ResumePc.isOver : ResumePc → Bool
  | registered | gaveUp | failed _ => true
  | _ => false

namespace ResumeEvent

def isResumed : ResumeEvent → Bool
  | resumed .. => true
  | _ => false

/-- Whether the resume task that is at work has resumed the stream; a task ends with the registration. -/
def hasResumed (b : Bool) : ResumeEvent → Bool
  | resumed .. => true
  | registered .. => false
  | _ => b

end ResumeEvent

namespace Upstream

variable {o : Opened} {config : UpstreamConfig} {s s' : State} {log evs : List Event} {es : List ResumeEvent}

/-- How often `resumed_callback` has been called. -/
def callbacks (config : UpstreamConfig) (log : List Event) : Nat :=
  if config.resumedCallback then log.countP Event.isAfterResume else 0

/-- How often the stream has been resumed. -/
def resumes (log : List Event) : Nat := (resumeEvents log).countP ResumeEvent.isResumed

def taskHasResumed (log : List Event) : Bool := (resumeEvents log).foldl ResumeEvent.hasResumed false

def LoopPc.isOffline : LoopPc → Bool
  | .offline | .offlineFlushed => true
  | _ => false

/-- A call follows a resume that has not been reported. -/
def Preceded (config : UpstreamConfig) (pre : List Event) (e : Event) : Prop :=
  e.isAfterResume → callbacks config pre < resumes pre

structure Reported (config : UpstreamConfig) (log : List Event) (s : State) : Prop where
  preceded : History.Each (Preceded config) log
  le_resumes : callbacks config log ≤ resumes log
  /-- At most the last resume is not reported yet. -/
  resumes_le : resumes log ≤ callbacks config log + 1
  eq_resumes : s.loop.isOffline = false → callbacks config log = resumes log

/-- A resume task registers after a resume of its own, and does register then: it finds neither the
connection lost nor the stream cancelled. -/
def RegistersResumed (log : List Event) (s : State) : Action → Prop
  | .resume (.poll _ added) =>
    if s.wire.isConnected s.resume.wireConn then s.resume.needResume = false → added → taskHasResumed log
    else taskHasResumed log = false
  | .resume .cancelled => taskHasResumed log = false
  | _ => True

instance (log : List Event) (s : State) (a : Action) : Decidable (RegistersResumed log s a) := by
  unfold RegistersResumed
  induction a using Action.casesOn with
  | resume a => induction a using ResumeAction.casesOn <;> infer_instance
  | _ => infer_instance

/-! ### Counting -/

theorem callbacks_append (hc : config.resumedCallback) :
    callbacks config (log ++ evs) = callbacks config log + evs.countP Event.isAfterResume := by
  rw [callbacks, callbacks, if_pos hc, if_pos hc, List.countP_append]

@[simp] theorem resumes_append : resumes (log ++ evs) = resumes log + resumes evs := by
  rw [resumes, resumes, resumes, resumeEvents_append, List.countP_append]

theorem resumes_of_nil (h : resumeEvents evs = []) : resumes evs = 0 := by
  rw [resumes, h]
  rfl

theorem taskHasResumed_append :
    taskHasResumed (log ++ evs) = (resumeEvents evs).foldl ResumeEvent.hasResumed (taskHasResumed log) := by
  rw [taskHasResumed, taskHasResumed, resumeEvents_append, List.foldl_append]

theorem taskHasResumed_of_nil (h : resumeEvents evs = []) : taskHasResumed (log ++ evs) = taskHasResumed log := by
  rw [taskHasResumed_append, h]
  rfl

/-- Nothing but the joining of the resume task calls `after_resume`. -/
theorem LoopStep.not_afterResume {a : LoopAction} (h : LoopStep config s a s' evs)
    (hj : a ≠ .joined) : ∀ e ∈ evs, e.isAfterResume = false := by
  intro e he
  cases h with
  | joined => exact absurd rfl hj
  | flushOffline _ ht | flushEmpty _ _ ht | flushChunk _ _ ht | processRemaining _ ht =>
    rcases ht.event he with ⟨_, _, rfl⟩ | ⟨_, rfl⟩ <;> rfl
  | discard _ _ ht =>
    rcases List.mem_append.1 he with he | he
    · rcases ht.event he with ⟨_, _, rfl⟩ | ⟨_, rfl⟩ <;> rfl
    · rw [List.mem_singleton.1 he]
      rfl
  | ack => rcases processAck_event he with ⟨_, rfl⟩ | ⟨_, rfl⟩ <;> rfl
  | resendFailed =>
    rcases List.mem_cons.1 he with rfl | he
    · rfl
    · rw [List.mem_singleton.1 he]
      rfl
  | resent | resendDone | sent | sendFailed | closeRequest | closeResponded =>
    rw [List.mem_singleton.1 he]
    rfl
  | ended | offlineFlushed | resend | flushed | flushedLast | flushFailed | ackClosed | acked | closeDone | recover
  | exit => cases he

theorem isAfterResume_of_app {e : Event} (h : e.ofApp) : e.isAfterResume = false := by
  cases e with
  | pushed | wrote | flushReturned | closeSkipped | closeReturned => rfl
  | _ => cases h

theorem preceded_of_not {e : Event} (h : e.isAfterResume = false) : Preceded config log e := by
  intro ha
  rw [h] at ha
  cases ha

/-! ### The resume task -/

/-- Where the callbacks and the resumes stand. -/
structure Balance (config : UpstreamConfig) (log : List Event) (s : State) : Prop where
  isOver : s.loop.isOffline = false → s.resume.pc.isOver
  online : s.loop.isOffline = false → resumes log = callbacks config log
  offline : s.loop.isOffline → resumes log =
    callbacks config log + if s.resume.pc = .registered ∨ taskHasResumed log then 1 else 0
  resumed : taskHasResumed log → s.resume.pc = .poll ∧ s.resume.needResume = false

namespace Balance

theorem init : Balance o.config o.machine.log₀ o.machine.init := by
  refine ⟨nofun, nofun, fun _ => ?_, nofun⟩
  simp [Opened.machine, Opened.init, resumes, callbacks, resumeEvents, taskHasResumed, ResumeEvent.isResumed,
    ResumeEvent.hasResumed, Event.isAfterResume]

theorem taskHasResumed_of_over (h : Balance config log s) (ho : s.resume.pc.isOver) : taskHasResumed log = false := by
  by_contra hr
  rw [Bool.not_eq_false] at hr
  rw [(h.resumed hr).1] at ho
  cases ho

/-- Neither a callback nor a resume. -/
theorem keep (h : Balance config log s) (hc : config.resumedCallback) (ha : ∀ e ∈ evs, e.isAfterResume = false)
    (hr : resumeEvents evs = []) (hres : s'.resume = s.resume) (hloop : s'.loop.isOffline = s.loop.isOffline) :
    Balance config (log ++ evs) s' := by
  have hcount : callbacks config (log ++ evs) = callbacks config log := by
    rw [callbacks_append hc, List.countP_eq_zero.2 (by simpa using ha), Nat.add_zero]
  have hresumes : resumes (log ++ evs) = resumes log := by
    rw [resumes_append, resumes_of_nil hr, Nat.add_zero]
  refine ⟨fun ho => ?_, fun ho => ?_, fun ho => ?_, fun ht => ?_⟩
  · rw [hres]
    exact h.isOver (hloop ▸ ho)
  · rw [hresumes, hcount]
    exact h.online (hloop ▸ ho)
  · rw [hresumes, hcount, hres, taskHasResumed_of_nil hr]
    exact h.offline (hloop ▸ ho)
  · rw [hres]
    exact h.resumed (taskHasResumed_of_nil hr ▸ ht)

theorem joined (h : Balance config log s) (hc : config.resumedCallback) (hl : s.loop = .offline)
    (hp : s.resume.pc = .registered) {conn : ConnId} : callbacks config log < resumes log ∧
    Balance config (log ++ [Event.afterResume conn]) { s with isConnected := true, loop := .afterResume } := by
  have hoff := h.offline (by rw [hl]; rfl)
  rw [if_pos (.inl hp)] at hoff
  have he : resumeEvents [.afterResume conn] = [] := rfl
  have hone : resumes (log ++ [Event.afterResume conn]) = callbacks config (log ++ [Event.afterResume conn]) := by
    rw [resumes_append, callbacks_append hc, hoff]
    rfl
  refine ⟨by omega, fun _ => ?_, fun _ => hone, nofun, fun ht => ?_⟩
  · show s.resume.pc.isOver
    rw [hp]
    rfl
  · exact h.resumed (taskHasResumed_of_nil he ▸ ht)

theorem ended (h : Balance config log s) (hl : s.loop = .offline) (hp : s.resume.pc ≠ .registered)
    (ho : s.resume.pc.isOver) : Balance config log { s with loop := .returned } := by
  have hoff := h.offline (by rw [hl]; rfl)
  rw [if_neg, Nat.add_zero] at hoff
  · exact ⟨fun _ => ho, fun _ => hoff, nofun, h.resumed⟩
  · rintro (hr | hr)
    · exact hp hr
    · rw [h.taskHasResumed_of_over ho] at hr
      cases hr

/-- A new resume task has not resumed. -/
theorem recover (h : Balance config log s) (hc : config.resumedCallback) (hl : s.loop.isOffline = false)
    (hr : s.resume.pc.isOver) (b : Bool) (ha : ∀ e ∈ evs, e.isAfterResume = false) (he : resumeEvents evs = []) :
    Balance config (log ++ evs) (s.recover config b) := by
  obtain ⟨resume, loop, heq, ⟨rfl, rfl⟩ | ⟨rfl, rfl⟩⟩ := recover_cases config s b
  · rw [heq]
    exact h.keep hc ha he rfl hl.symm
  · have ht := h.taskHasResumed_of_over hr
    have hcount : callbacks config (log ++ evs) = callbacks config log := by
      rw [callbacks_append hc, List.countP_eq_zero.2 (by simpa using ha), Nat.add_zero]
    rw [heq]
    refine ⟨nofun, nofun, fun _ => ?_, fun ht' => ?_⟩
    · rw [resumes_append, resumes_of_nil he, hcount, h.online hl, if_neg]
      rintro (hp | hp)
      · cases hp
      · rw [taskHasResumed_of_nil he, ht] at hp
        cases hp
    · rw [taskHasResumed_of_nil he, ht] at ht'
      cases ht'

theorem joined_over (h : loopStep config s .joined = some (s', evs)) : s.resume.pc.isOver := by
  simp only [loopStep] at h
  split at h
  · rename_i hp
    rw [hp]
    rfl
  · rename_i hp
    rw [hp]
    rfl
  · rename_i hp
    rw [hp]
    rfl
  · cases h

theorem loop {a : LoopAction} (h : Balance config log s) (hcon : Control s) (hc : config.resumedCallback)
    (he : History.Each (Preceded config) log) (hst : loopStep config s a = some (s', evs)) :
    History.Each (Preceded config) (log ++ evs) ∧ Balance config (log ++ evs) s' := by
  have hl := loopStep_step hst
  by_cases hj : a = .joined
  · subst hj
    have hover := joined_over hst
    cases hl with
    | joined hloop hp =>
      obtain ⟨hlt, hb⟩ := h.joined hc hloop hp
      exact ⟨History.each_append_singleton.2 ⟨he, fun _ => hlt⟩, hb⟩
    | ended hloop hp =>
      rw [List.append_nil]
      exact ⟨he, h.ended hloop hp hover⟩
    | acked hloop =>
      simp only [loopStep, hloop] at hst
      cases hst
  · have ha := hl.not_afterResume hj
    have hr := hl.resume_eq.1
    refine ⟨he.append_of_forall fun pre e hm => preceded_of_not (ha e hm), ?_⟩
    cases hl with
    | joined | ended => exact absurd rfl hj
    | resendFailed hloop | recover hloop =>
      refine h.recover hc (by rw [hloop]; rfl) ?_ _ ha hr
      rw [hcon.registered (by rw [hloop]; rfl)]
      rfl
    | flushOffline hloop ht | flushEmpty hloop _ ht | flushChunk hloop _ ht | processRemaining hloop ht
    | discard hloop _ ht =>
      obtain ⟨-, hres, -, -⟩ := ht.frame
      exact h.keep hc ha hr hres (by simp [hloop, LoopPc.isOffline])
    | ack hloop => exact h.keep hc ha hr rfl rfl
    | offlineFlushed hloop | resend hloop | resent hloop | resendDone hloop | sent hloop | sendFailed hloop
    | flushed hloop | flushedLast hloop | flushFailed hloop | ackClosed hloop | acked hloop | closeRequest hloop
    | closeResponded hloop | closeDone hloop | exit hloop =>
      exact h.keep hc ha hr (by simp) (by simp [hloop, LoopPc.isOffline])

section Resume

variable {r r' : Resume} {side : Side} {expiryZero ct : Bool} {wire : WireConns} {act : ResumeAction}

theorem step_of_over (h : r.pc.isOver) : r.step side expiryZero ct wire act = none := by
  cases hp : r.pc with
  | registered | gaveUp | failed => cases act <;> simp [Resume.step, hp, Resume.waiting]
  | poll | request | wait | update =>
    rw [hp] at h
    cases h

/-- A registration is made by a look at the connection that finds no resume due. -/
theorem poll_of_registered {conn : ConnId} {idAlias : UInt32}
    (h : r.step side expiryZero ct wire act = some (r', es)) (hm : .registered conn idAlias ∈ es) :
    ∃ desired, act = .poll desired true := by
  cases act with
  | poll desired added =>
    cases added with
    | true => exact ⟨desired, rfl⟩
    | false =>
      exfalso
      simp only [Resume.step, Resume.poll, Option.ite_none_right_eq_some] at h
      obtain ⟨-, h⟩ := h
      split at h
      · split at h
        · cases side with
          | up =>
            simp only [Resume.tryResume, Resume.requestResume] at h
            split at h <;> cases h <;> simp at hm
          | down =>
            simp only [Resume.tryResume, Resume.requestResume] at h
            split at h
            · cases h
              cases hm
            · split at h <;> cases h <;> simp at hm
        · cases h
          cases hm
      · cases h
        cases hm
  | responded result =>
    simp only [Resume.step] at h
    split at h
    · cases result <;> cases h <;> simp at hm
    · cases h
  | waited | updated | watchClosed | timedOut | cancelled =>
    simp only [Resume.step, Option.ite_none_right_eq_some] at h
    cases h.2
    cases hm

end Resume

/-- A resume task is at work only while the loop is offline. -/
theorem isOffline (h : Balance config log s) (hp : s.resume.pc.isOver = false) : s.loop.isOffline := by
  by_contra ho
  rw [Bool.not_eq_true] at ho
  have := h.isOver ho
  rw [hp] at this
  cases this

theorem callbacks_resume (hc : config.resumedCallback) :
    callbacks config (log ++ es.map .resume) = callbacks config log := by
  rw [callbacks_append hc, List.countP_eq_zero.2, Nat.add_zero]
  intro e he
  obtain ⟨r, -, rfl⟩ := List.mem_map.1 he
  exact Bool.false_ne_true

theorem resumes_resume : resumes (log ++ es.map .resume) = resumes log + es.countP ResumeEvent.isResumed := by
  rw [resumes_append]
  congr 1
  rw [resumes, resumeEvents_map]

theorem taskHasResumed_resume :
    taskHasResumed (log ++ es.map .resume) = es.foldl ResumeEvent.hasResumed (taskHasResumed log) := by
  rw [taskHasResumed_append, resumeEvents_map]

/-- A task that has resumed goes on to register. -/
theorem register (h : Balance config log s) (hc : config.resumedCallback) {act : ResumeAction} {r : Resume}
    (hcond : RegistersResumed log s (.resume act)) (ht : taskHasResumed log)
    (hst : s.resume.step .up (config.expiryInterval = 0) s.ct s.wire act = some (r, es)) :
    Balance config (log ++ es.map .resume) { s with resume := r } := by
  obtain ⟨hp, hn⟩ := h.resumed ht
  have hoff := h.isOffline (by rw [hp]; rfl)
  cases act with
  | poll desired added =>
    unfold RegistersResumed at hcond
    simp only at hcond
    split at hcond
    · rename_i hconn
      simp only [Resume.step, hp, if_true, Resume.poll, hconn, hn, Bool.false_eq_true, if_false] at hst
      cases added with
      | true =>
        cases hst
        have hno : s.loop.isOffline ≠ false := by simp [hoff]
        refine ⟨fun ho => absurd ho hno, fun ho => absurd ho hno, fun _ => ?_, fun ht' => ?_⟩
        · have := h.offline hoff
          rw [if_pos (.inr ht)] at this
          rw [resumes_resume, callbacks_resume hc, this, if_pos (.inl rfl)]
          rfl
        · rw [taskHasResumed_resume] at ht'
          cases ht'
      | false =>
        cases hst
        rw [List.map_nil, List.append_nil]
        exact h
    · rw [ht] at hcond
      cases hcond
  | cancelled =>
    have hcond : taskHasResumed log = false := hcond
    rw [ht] at hcond
    cases hcond
  | responded | waited | updated | watchClosed | timedOut => simp [Resume.step, hp, Resume.waiting] at hst

/-- A task that has not resumed does not register. -/
theorem resume (h : Balance config log s) (hc : config.resumedCallback) {act : ResumeAction} {r : Resume}
    (hcond : RegistersResumed log s (.resume act)) (hpc : s.resume.pc ≠ .registered)
    (hst : s.resume.step .up (config.expiryInterval = 0) s.ct s.wire act = some (r, es)) :
    Balance config (log ++ es.map .resume) { s with resume := r } := by
  by_cases ht : taskHasResumed log
  · exact h.register hc hcond ht hst
  have hover : s.resume.pc.isOver = false := by
    by_contra ho
    rw [Bool.not_eq_false] at ho
    rw [step_of_over ho] at hst
    cases hst
  have hoff := h.isOffline hover
  have hno : s.loop.isOffline ≠ false := by simp [hoff]
  have heq := h.offline hoff
  rw [if_neg (not_or.2 ⟨hpc, ht⟩), Nat.add_zero] at heq
  rw [Bool.not_eq_true] at ht
  have quiet (hnr : r.pc ≠ .registered) (hes : es.countP ResumeEvent.isResumed = 0)
      (hfold : es.foldl ResumeEvent.hasResumed false = false) :
      Balance config (log ++ es.map .resume) { s with resume := r } := by
    refine ⟨fun ho => absurd ho hno, fun ho => absurd ho hno, fun _ => ?_, fun ht' => ?_⟩
    · rw [resumes_resume, callbacks_resume hc, heq, hes, if_neg]
      rintro (hr | hr)
      · exact hnr hr
      · rw [taskHasResumed_resume, ht, hfold] at hr
        cases hr
    · rw [taskHasResumed_resume, ht, hfold] at ht'
      cases ht'
  cases Resume.step_step hst with
  | move hp => exact quiet (ResumePc.ne_registered hp) rfl rfl
  | take _ hp => exact quiet (ResumePc.ne_registered hp) rfl rfl
  | request | lost | updated => exact quiet nofun rfl rfl
  | resumed =>
    refine ⟨fun ho => absurd ho hno, fun ho => absurd ho hno, fun _ => ?_, fun _ => ⟨rfl, rfl⟩⟩
    rw [resumes_resume, callbacks_resume hc, heq, taskHasResumed_resume, if_pos (.inr rfl)]
    rfl
  | register hn hconn =>
    exfalso
    obtain ⟨desired, rfl⟩ := poll_of_registered hst (List.mem_singleton_self _)
    unfold RegistersResumed at hcond
    simp only [hconn, if_true] at hcond
    rw [hcond hn trivial] at ht
    cases ht

theorem step {a : Action} (h : Balance config log s) (hcon : Control s) (hc : config.resumedCallback)
    (he : History.Each (Preceded config) log) (hcond : RegistersResumed log s a)
    (hst : Upstream.step config s a = some (s', evs)) :
    History.Each (Preceded config) (log ++ evs) ∧ Balance config (log ++ evs) s' := by
  have quiet (ha : ∀ e ∈ evs, e.isAfterResume = false) : History.Each (Preceded config) (log ++ evs) :=
    he.append_of_forall fun pre e hm => preceded_of_not (ha e hm)
  have hstep := step_step hst
  cases hstep with
  | loop => exact h.loop hcon hc he hst
  | resume hpc hr =>
    refine ⟨quiet fun e hm => ?_, h.resume hc hcond hpc hr⟩
    obtain ⟨r, -, rfl⟩ := List.mem_map.1 hm
    rfl
  | app _ hs happ =>
    have ha : ∀ e ∈ evs, e.isAfterResume = false := fun e hm => isAfterResume_of_app (happ e hm)
    exact ⟨quiet ha, h.keep hc ha (resumeEvents_of_app happ) hs.resume (by rw [hs.loop])⟩
  | wire | cancel =>
    have ha : ∀ e ∈ ([] : List Event), e.isAfterResume = false := List.forall_mem_nil _
    exact ⟨quiet ha, h.keep hc ha rfl rfl rfl⟩

end Balance

/-- As long as every registration follows a resume and every resume leads to a registration,
`resumed_callback` is called once for each resume, after it. -/
theorem resumes_reported (o : Opened) (hc : o.config.resumedCallback)
    (h : o.machine.Exec RegistersResumed log s) : Reported o.config log s := by
  have hall : History.Each (Preceded o.config) log ∧ Balance o.config log s := by
    refine h.invariant (I := fun log s => History.Each (Preceded o.config) log ∧ Balance o.config log s)
      ⟨History.each_singleton.2 nofun, .init⟩ ?_
    rintro log s a s' evs hr ⟨he, hb⟩ hcond ha
    exact hb.step (control hr) hc he hcond ha
  obtain ⟨he, hb⟩ := hall
  have hbound : callbacks o.config log ≤ resumes log ∧ resumes log ≤ callbacks o.config log + 1 := by
    cases ho : s.loop.isOffline with
    | true =>
      rw [hb.offline ho]
      split <;> omega
    | false =>
      rw [hb.online ho]
      omega
  exact ⟨he, hbound.1, hbound.2, fun ho => (hb.online ho).symm⟩

/-- A stream that is told of its resumes. -/
def watchedOpened : Opened where
  config := { resumedCallback := true }
  conn := 0
  streamIdAlias := 1
  resumeToken := "a"

/-- The first connection is lost before the stream has registered on it, and the second one in the flush loop. -/
theorem resumes_reported_twice :
    ∃ log s, watchedOpened.machine.Exec RegistersResumed log s ∧ Reported watchedOpened.config log s ∧
      callbacks watchedOpened.config log = 2 := by
  obtain ⟨log, s, h, hp⟩ := Machine.Exec.exists_of_any (M := watchedOpened.machine) (C := RegistersResumed)
    [.wire (.disconnect 0), .wire .publish, .resume (.poll 0 true), .resume (.updated 1), .resume (.poll 0 true),
      .resume (.responded (.ok (1, "b"))), .resume (.poll 0 true), .loop .joined,
      .loop (.resumedCallbackDone .asIs), .wire (.disconnect 1), .wire .publish, .loop .ackClosed, .loop .recover,
      .resume (.poll 0 true), .resume (.updated 2), .resume (.poll 0 true),
      .resume (.responded (.ok (1, "c"))), .resume (.poll 0 true), .loop .joined]
    (P := fun log _ => callbacks watchedOpened.config log = 2) (by decide +kernel)
  exact ⟨log, s, h, resumes_reported watchedOpened rfl h, hp⟩

/-- The callback is called after the open. -/
theorem open_reported : ¬ ∀ (o : Opened) log s, o.config.resumedCallback → o.machine.Run log s →
    Reported o.config log s := by
  intro h
  obtain ⟨log, s, hr, hcb, hres⟩ := Machine.Exec.exists_of_any (M := watchedOpened.machine)
    (C := fun _ _ _ => True) [.resume (.poll 0 true), .loop .joined]
    (P := fun log _ => callbacks watchedOpened.config log = 1 ∧ resumes log = 0) (by decide +kernel)
  have hle := (h watchedOpened log s rfl hr).le_resumes
  rw [hcb, hres] at hle
  cases hle

end Upstream
end Iscp
