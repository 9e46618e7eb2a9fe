import Iscp.Downstream.Exits
import Iscp.Latest

/-!
# The close request of a downstream

The loop asks for the close in one place, behind the wait for the last completion. It gets there only from
the end of a connection: a resume loop that ends without a registration, a refused chunk and a panic
of the conversion let it return at once, also while the connection on which the stream is open is up.
-/

namespace Iscp.Downstream

variable {o : Opened} {s s' : State} {log evs : List Event}

/-- The exits that do not look at the connection. -/
def LoopAction.early : LoopAction → Bool
  | .joined | .recv | .drain => true
  | _ => false

/-- A step of the loop makes the close request, or it does not come to wait for its response. -/
theorem loopStep_closing {a : LoopAction} (h : loopStep o s a = some (s', evs)) :
    (s', evs) = s.closeRequest ∨ s'.loop ≠ .closing ∧ ∀ c, .closeRequested c ∉ evs := by
  have hne (ho : s'.loop.over) : s'.loop ≠ .closing := by
    intro hl
    rw [hl] at ho
    cases ho
  cases loopStep_flow h with
  | goes _ hc hevs => exact .inr ⟨hc, hevs⟩
  | requests heq => exact .inl heq
  | returns _ ho _ hevs => exact .inr ⟨hne ho, hevs⟩
  | returned _ ho hevs => exact .inr ⟨hne ho, hevs⟩

theorem over_of_closing {a : LoopAction} (h : loopStep o s a = some (s', evs)) (hl : s.loop = .closing) :
    s'.loop.over := by
  cases a with
  | closeResponded result =>
    simp only [loopStep, hl] at h
    cases h
    rfl
  | _ => simp [loopStep, hl] at h

theorem appStep_requests {a : AppAction} (h : appStep s a = some (s', evs)) (c : ConnId) :
    .closeRequested c ∉ evs := by
  cases appStep_step h <;> simp

/-- Where the loop is once it has made the close request, and the connection that it made it on. -/
structure RequestInv (log : List Event) (s : State) : Prop where
  requested : s.loop = .closing → .closeRequested s.resume.wireConn ∈ log
  place : ∀ c, .closeRequested c ∈ log → s.loop = .closing ∨ s.loop.over

theorem requestInv {C : List Event → State → Action → Prop} (h : o.machine.Exec C log s) :
    RequestInv log s := by
  refine h.invariant (I := RequestInv) ⟨?_, ?_⟩ ?_
  · intro hl
    cases hl
  · intro c hc
    simp [Opened.machine] at hc
  · intro log s a s' evs hr hi _ ha
    have ha : step o s a = some (s', evs) := ha
    have quiet (hl : s'.loop = s.loop) (hw : s.loop = .closing → s'.resume.wireConn = s.resume.wireConn)
        (he : ∀ c, .closeRequested c ∉ evs) : RequestInv (log ++ evs) s' := by
      refine ⟨fun h => ?_, fun c hc => ?_⟩
      · rw [hl] at h
        rw [hw h]
        exact List.mem_append_left _ (hi.requested h)
      · rw [hl]
        exact hi.place c ((List.mem_append.1 hc).resolve_right (he c))
    cases a with
    | loop a =>
      rcases loopStep_closing ha with hreq | ⟨hne, hno⟩
      · obtain ⟨rfl, rfl⟩ := Prod.mk.inj hreq
        exact ⟨fun _ => by simp, fun _ _ => .inl rfl⟩
      · refine ⟨fun h => absurd h hne, fun c hc => .inr ?_⟩
        rcases hi.place c ((List.mem_append.1 hc).resolve_right (hno c)) with hl | ho
        · exact over_of_closing ha hl
        · exact (loopStep_step ha).over ho
    | app a =>
      obtain ⟨hs, hres, -⟩ := appStep_sameLoop ha
      exact quiet hs.loop (fun _ => by rw [hres]) fun c => appStep_requests ha c
    | resume a =>
      cases step_step ha with
      | resume hl _ hs => exact quiet hs.loop (fun h => by rw [hl] at h; cases h) (by simp)
      | env _ hne => exact absurd rfl (hne a)
    | wire | arrive | senderDropped | cancel =>
      obtain ⟨-, he⟩ := step_around ha (by simp) (by simp)
      cases step_step ha with
      | env _ _ hs hres =>
        refine quiet hs.loop (fun _ => by rw [hres]) fun c hc => ?_
        obtain ⟨r, hr⟩ := he _ hc
        cases hr

theorem LoopStep.wire_eq {a : LoopAction} (h : LoopStep o s a s' evs) : s'.wire = s.wire := by
  cases h with
  | quiet hcore => exact (core_eq hcore).1
  | _ => rfl

/-- A loop that works on a connection works on the one on which the stream is open. -/
theorem open_eq_wireConn {C : List Event → State → Action → Prop} {conn : ConnId} {idAlias : UInt32}
    (h : o.machine.Exec C log s) (hl : s.loop.connected)
    (hopen : History.last ResumeEvent.success? (resumeEvents log) = some (conn, idAlias)) :
    conn = s.resume.wireConn := by
  have hn := (control h).needResume ((control h).registered hl)
  rw [(latestInv h).latest hn] at hopen
  exact (Prod.mk.inj (Option.some.inj hopen)).1.symm

end Iscp.Downstream
