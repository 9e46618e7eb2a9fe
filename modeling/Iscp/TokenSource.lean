import Iscp.Lib.Channel
import Iscp.Lib.Machine
import Mathlib.Data.List.Nodup
import Mathlib.Logic.Function.Basic

/-!
# The shared token source

`SharedTokenSource`: a task owns the application's token source, and each `token()` sends it a command with the
sender of a oneshot channel. Any number of calls may be under way, and a caller may drop its call while it waits.
What the source returns is up to the application, which may also panic; the task is gone then.
-/

namespace Iscp.TokenSource

variable {ρ : Type}

inductive TaskPc
  | receiving
  /-- In `token_source.token()` for a call. -/
  | working (call : Nat)
  | panicked
deriving DecidableEq

inductive CallPc
  | idle
  /-- In `tx_command.send`. -/
  | sending
  /-- In `rx.await`. -/
  | waiting
  | returned
  | dropped
deriving DecidableEq

structure State (ρ : Type) where
  txCommand : Mpsc Nat := {}
  task : TaskPc := .receiving
  calls : Nat → CallPc := fun _ => .idle
  /-- What was sent on the call's oneshot channel. -/
  replies : Nat → Option ρ := fun _ => none

inductive Action (ρ : Type)
  | token (call : Nat)
  | send (call : Nat)
  | recv
  | finish (result : ρ)
  | panic
  | reply (call : Nat)
  /-- The other end of the oneshot channel is gone. -/
  | closed (call : Nat)
  | drop (call : Nat)

inductive Event (ρ : Type)
  | called (call : Nat)
  | accepted (call : Nat)
  | started (call : Nat)
  | finished (call : Nat) (result : ρ)
  | panicked
  /-- `none`: "token source closed". -/
  | returned (call : Nat) (result : Option ρ)
deriving DecidableEq

namespace State

def setCall (s : State ρ) (call : Nat) (pc : CallPc) : State ρ := { s with calls := Function.update s.calls call pc }

/-- Whether the task still has the sender of the call's oneshot channel. -/
def hasTx (s : State ρ) (call : Nat) : Prop := call ∈ s.txCommand.items ∨ s.task = .working call

instance (s : State ρ) (call : Nat) : Decidable (s.hasTx call) := inferInstanceAs (Decidable (_ ∨ _))

end State

def step (s : State ρ) : Action ρ → Option (State ρ × List (Event ρ))
  | .token call =>
    match s.calls call with
    | .idle => some (s.setCall call .sending, [.called call])
    | _ => none
  | .send call =>
    match s.calls call, s.txCommand.send 1 call with
    | .sending, some (true, txCommand) => some ({ s.setCall call .waiting with txCommand := txCommand }, [.accepted call])
    | .sending, some (false, _) => some (s.setCall call .returned, [.returned call none])
    | _, _ => none
  | .recv =>
    match s.task, s.txCommand.recv with
    | .receiving, some (call, txCommand) =>
      some ({ s with task := .working call, txCommand := txCommand }, [.started call])
    | _, _ => none
  | .finish result =>
    match s.task with
    | .working call =>
      if s.calls call = .waiting then
        some ({ s with task := .receiving, replies := Function.update s.replies call (some result) }, [.finished call result])
      else some ({ s with task := .receiving }, [.finished call result])
    | _ => none
  | .panic =>
    match s.task with
    | .working _ => some ({ s with task := .panicked, txCommand := s.txCommand.dropRx }, [.panicked])
    | _ => none
  | .reply call =>
    match s.calls call, s.replies call with
    | .waiting, some result => some (s.setCall call .returned, [.returned call (some result)])
    | _, _ => none
  | .closed call =>
    match s.calls call, s.replies call with
    | .waiting, none => if s.hasTx call then none else some (s.setCall call .returned, [.returned call none])
    | _, _ => none
  | .drop call =>
    match s.calls call with
    | .sending | .waiting => some (s.setCall call .dropped, [])
    | _ => none

def machine (ρ : Type) : Machine (State ρ) (Action ρ) (Event ρ) where
  init := {}
  log₀ := []
  step := step

/-- What a step does. -/
inductive Step (s : State ρ) : State ρ → List (Event ρ) → Prop
  | called {call : Nat} : s.calls call = .idle → Step s (s.setCall call .sending) [.called call]
  | accepted {call : Nat} {txCommand : Mpsc Nat} : s.calls call = .sending →
      s.txCommand.send 1 call = some (true, txCommand) →
      Step s { s.setCall call .waiting with txCommand := txCommand } [.accepted call]
  | refused {call : Nat} : s.calls call = .sending → s.txCommand.rxDropped →
      Step s (s.setCall call .returned) [.returned call none]
  | started {call : Nat} {txCommand : Mpsc Nat} : s.task = .receiving → s.txCommand.recv = some (call, txCommand) →
      Step s { s with task := .working call, txCommand := txCommand } [.started call]
  | finished {call : Nat} {result : ρ} : s.task = .working call → s.calls call = .waiting →
      Step s { s with task := .receiving, replies := Function.update s.replies call (some result) } [.finished call result]
  | unheard {call : Nat} {result : ρ} : s.task = .working call → s.calls call ≠ .waiting →
      Step s { s with task := .receiving } [.finished call result]
  | panicked {call : Nat} : s.task = .working call →
      Step s { s with task := .panicked, txCommand := s.txCommand.dropRx } [.panicked]
  | replied {call : Nat} {result : ρ} : s.calls call = .waiting → s.replies call = some result →
      Step s (s.setCall call .returned) [.returned call (some result)]
  | closed {call : Nat} : s.calls call = .waiting → s.replies call = none → ¬s.hasTx call →
      Step s (s.setCall call .returned) [.returned call none]
  | dropped {call : Nat} : (s.calls call = .sending ∨ s.calls call = .waiting) → Step s (s.setCall call .dropped) []

variable {s s' : State ρ} {act : Action ρ} {evs log : List (Event ρ)} {call : Nat}

theorem step_step (h : step s act = some (s', evs)) : Step s s' evs := by
  cases act with
  | token call =>
    simp only [step] at h
    split at h
    · cases h
      exact .called ‹_›
    · cases h
  | send call =>
    simp only [step] at h
    split at h
    · cases h
      exact .accepted ‹_› ‹_›
    · rename_i hc hs
      cases h
      obtain ⟨-, hd, -⟩ | ⟨hf, -⟩ := Mpsc.send_cases hs
      · exact .refused hc hd
      · cases hf
    · cases h
  | recv =>
    simp only [step] at h
    split at h
    · cases h
      exact .started ‹_› ‹_›
    · cases h
  | finish result =>
    simp only [step] at h
    split at h
    · split at h
      · cases h
        exact .finished ‹_› ‹_›
      · cases h
        exact .unheard ‹_› ‹_›
    · cases h
  | panic =>
    simp only [step] at h
    split at h
    · cases h
      exact .panicked ‹_›
    · cases h
  | reply call =>
    simp only [step] at h
    split at h
    · cases h
      exact .replied ‹_› ‹_›
    · cases h
  | closed call =>
    simp only [step] at h
    split at h
    · split at h
      · cases h
      · cases h
        exact .closed ‹_› ‹_› ‹_›
    · cases h
  | drop call =>
    simp only [step] at h
    split at h
    · cases h
      exact .dropped (.inl ‹_›)
    · cases h
      exact .dropped (.inr ‹_›)
    · cases h

def accepted (log : List (Event ρ)) : List Nat :=
  log.filterMap fun
    | .accepted call => some call
    | _ => none

def started (log : List (Event ρ)) : List Nat :=
  log.filterMap fun
    | .started call => some call
    | _ => none

def finished (log : List (Event ρ)) : List (Nat × ρ) :=
  log.filterMap fun
    | .finished call result => some (call, result)
    | _ => none

/-- What an event of the history says about what was before it. -/
def Justified (pre : List (Event ρ)) : Event ρ → Prop
  -- a token is fetched for a call that has been made, and for no call twice
  | .started call => .called call ∈ pre ∧ .started call ∉ pre
  | .returned call (some result) => (call, result) ∈ finished pre ∧ ∀ r, .returned call r ∉ pre
  | .returned call none => .panicked ∈ pre ∧ ∀ r, .returned call r ∉ pre
  | _ => True

structure Served (log : List (Event ρ)) : Prop where
  started : started log <+: accepted log
  /-- One token after the other is fetched. -/
  finished : (finished log).map Prod.fst <+: TokenSource.started log
  one : (TokenSource.started log).length ≤ (TokenSource.finished log).length + 1
  justified : History.Each Justified log

/-- Where the task stands between the commands it has taken and the tokens it has fetched. -/
def TaskPc.Ok (log : List (Event ρ)) : TaskPc → Prop
  | .receiving => started log = (finished log).map Prod.fst
  | .working call => started log = (finished log).map Prod.fst ++ [call]
  | .panicked => ∃ call, started log = (finished log).map Prod.fst ++ [call]

/-- What is known of a call from where it stands. -/
def CallPc.Ok (log : List (Event ρ)) (call : Nat) : CallPc → Prop
  | .idle => call ∉ accepted log ∧ ∀ r, .returned call r ∉ log
  | .sending => .called call ∈ log ∧ call ∉ accepted log ∧ ∀ r, .returned call r ∉ log
  | .waiting => .called call ∈ log ∧ ∀ r, .returned call r ∉ log
  | .returned | .dropped => .called call ∈ log

structure Inv (log : List (Event ρ)) (s : State ρ) : Prop where
  rx : Mpsc.Carries (accepted log) (started log) s.txCommand
  task : s.task.Ok log
  panicked : .panicked ∈ log ↔ s.task = .panicked
  open_ : s.txCommand.rxDropped ↔ s.task = .panicked
  nodup : (accepted log).Nodup
  calls : ∀ call, (s.calls call).Ok log call
  replies : ∀ call result, s.replies call = some result → (call, result) ∈ finished log
  attended : ∀ call, s.calls call = .waiting → s.replies call = none → s.hasTx call ∨ s.task = .panicked
  justified : History.Each Justified log

@[simp] theorem accepted_append (log evs : List (Event ρ)) : accepted (log ++ evs) = accepted log ++ accepted evs :=
  List.filterMap_append

@[simp] theorem started_append (log evs : List (Event ρ)) : started (log ++ evs) = started log ++ started evs :=
  List.filterMap_append

@[simp] theorem finished_append (log evs : List (Event ρ)) : finished (log ++ evs) = finished log ++ finished evs :=
  List.filterMap_append

theorem CallPc.Ok.called {pc : CallPc} (h : pc.Ok log call) (hi : pc ≠ .idle) : .called call ∈ log := by
  cases pc with
  | idle => exact absurd rfl hi
  | sending => exact h.1
  | waiting => exact h.1
  | returned | dropped => exact h

/-- Events about other things. -/
theorem CallPc.Ok.append {pc : CallPc} (h : pc.Ok log call) (ha : call ∉ accepted evs)
    (hr : ∀ r, .returned call r ∉ evs) : pc.Ok (log ++ evs) call := by
  have hret (hl : ∀ r, .returned call r ∉ log) : ∀ r, .returned call r ∉ log ++ evs := fun r hm =>
    (List.mem_append.1 hm).elim (hl r) (hr r)
  have hacc (hl : call ∉ accepted log) : call ∉ accepted (log ++ evs) := by
    rw [accepted_append, List.mem_append]
    exact fun hm => hm.elim hl ha
  cases pc with
  | idle => exact ⟨hacc h.1, hret h.2⟩
  | sending => exact ⟨List.mem_append_left _ h.1, hacc h.2.1, hret h.2.2⟩
  | waiting => exact ⟨List.mem_append_left _ h.1, hret h.2⟩
  | returned | dropped => exact List.mem_append_left _ h

theorem TaskPc.Ok.quiet {pc : TaskPc} (h : pc.Ok log) (hs : started evs = []) (hf : finished evs = []) :
    pc.Ok (log ++ evs) := by
  cases pc <;> simpa [TaskPc.Ok, hs, hf] using h

namespace Inv

theorem init : Inv ([] : List (Event ρ)) {} where
  rx := .init
  task := rfl
  panicked := by simp
  open_ := by simp
  nodup := .nil
  calls _ := ⟨by simp [accepted], by simp⟩
  replies := nofun
  attended := nofun
  justified := .nil

/-- A step of one call, after which nobody else is answered any differently. -/
theorem setCall (h : Inv log s) {pc : CallPc} (hq : accepted evs = [] ∧ started evs = [] ∧ finished evs = [])
    (hp : .panicked ∉ evs) (hpc : pc ≠ .waiting) (hcall : pc.Ok (log ++ evs) call)
    (hr : ∀ other ≠ call, ∀ r, .returned other r ∉ evs) (hj : History.Each (fun pre => Justified (log ++ pre)) evs) :
    Inv (log ++ evs) (s.setCall call pc) := by
  obtain ⟨ha, hs, hf⟩ := hq
  have hother {other : Nat} (hne : other ≠ call) : (s.setCall call pc).calls other = s.calls other :=
    Function.update_of_ne hne ..
  have hself : (s.setCall call pc).calls call = pc := Function.update_self ..
  refine ⟨?_, h.task.quiet hs hf, ?_, h.open_, ?_, fun other => ?_, fun other result ho => ?_, fun other hw => ?_,
    History.each_append.2 ⟨h.justified, hj⟩⟩
  · rw [accepted_append, started_append, ha, hs, List.append_nil, List.append_nil]
    exact h.rx
  · rw [List.mem_append, or_iff_left hp]
    exact h.panicked
  · rw [accepted_append, ha, List.append_nil]
    exact h.nodup
  · by_cases hne : other = call
    · rw [hne, hself]
      exact hcall
    · rw [hother hne]
      exact (h.calls other).append (by simp [ha]) (hr other hne)
  · rw [finished_append, hf, List.append_nil]
    exact h.replies other result ho
  · by_cases hne : other = call
    · rw [hne, hself] at hw
      exact absurd hw hpc
    · rw [hother hne] at hw
      exact h.attended other hw

theorem accepted (h : Inv log s) {txCommand : Mpsc Nat} (hc : s.calls call = .sending)
    (hs : s.txCommand.send 1 call = some (true, txCommand)) :
    Inv (log ++ [.accepted call]) { s.setCall call .waiting with txCommand := txCommand } := by
  have hacc : TokenSource.accepted (log ++ [.accepted call]) = TokenSource.accepted log ++ [call] := accepted_append ..
  have hstarted : started (log ++ [.accepted call]) = started log := by simp [started]
  have hfinished : finished (log ++ [.accepted call]) = finished log := by simp [finished]
  have hcall := h.calls call
  rw [hc] at hcall
  obtain ⟨hf, -⟩ | ⟨-, hopen, -, htx⟩ := Mpsc.send_cases hs
  · cases hf
  refine ⟨?_, h.task.quiet (by simp [started]) (by simp [finished]), ?_, ?_, ?_, fun other => ?_, fun other result ho => ?_,
    fun other hw hn => ?_, History.each_append_singleton.2 ⟨h.justified, trivial⟩⟩
  · rw [hacc, hstarted]
    exact h.rx.send hs
  · show _ ↔ s.task = .panicked
    simpa using h.panicked
  · show txCommand.rxDropped ↔ s.task = .panicked
    rw [htx, ← h.open_, hopen]
  · rw [hacc, ← List.concat_eq_append]
    exact h.nodup.concat hcall.2.1
  · show CallPc.Ok _ other (Function.update s.calls call .waiting other)
    by_cases hne : other = call
    · rw [hne, Function.update_self]
      exact ⟨List.mem_append_left _ hcall.1, by simpa using hcall.2.2⟩
    · rw [Function.update_of_ne hne]
      exact (h.calls other).append (by simpa [TokenSource.accepted] using hne) (by simp)
  · rw [hfinished]
    exact h.replies other result ho
  · by_cases hne : other = call
    · exact .inl (.inl (by rw [hne, htx]; simp))
    · have hw : s.calls other = .waiting := by rwa [← Function.update_of_ne hne CallPc.waiting s.calls]
      rcases h.attended other hw hn with (hm | ht) | ht
      · exact .inl (.inl (by rw [htx]; exact List.mem_append_left _ hm))
      · exact .inl (.inr ht)
      · exact .inr ht

theorem started (h : Inv log s) {txCommand : Mpsc Nat} (ht : s.task = .receiving)
    (hr : s.txCommand.recv = some (call, txCommand)) :
    Inv (log ++ [.started call]) { s with task := .working call, txCommand := txCommand } := by
  obtain ⟨hitems, hdropped⟩ := Mpsc.recv_eq_some hr
  have hopen : s.txCommand.rxDropped = false := by
    rw [← Bool.not_eq_true, h.open_, ht]
    exact nofun
  have hacc : TokenSource.accepted (log ++ [.started call]) = TokenSource.accepted log := by simp [TokenSource.accepted]
  have hstarted : TokenSource.started (log ++ [.started call]) = TokenSource.started log ++ [call] := started_append ..
  have hfinished : finished (log ++ [.started call]) = finished log := by simp [finished]
  have hwhole := h.rx.whole hopen
  have hmem : call ∈ TokenSource.accepted log := by
    rw [hwhole, hitems]
    simp
  have hfresh : call ∉ TokenSource.started log := by
    have hnodup := h.nodup
    rw [hwhole, hitems] at hnodup
    exact fun hm => (List.nodup_append.1 hnodup).2.2 call hm call List.mem_cons_self rfl
  have hcalled : .called call ∈ log := by
    refine (h.calls call).called fun hi => ?_
    have hok := h.calls call
    rw [hi] at hok
    exact hok.1 hmem
  have htask := h.task
  rw [ht] at htask
  refine ⟨?_, ?_, by simpa [ht] using h.panicked, ?_, ?_, fun other => ?_, fun other result ho => ?_, fun other hw hn => ?_,
    History.each_append_singleton.2 ⟨h.justified, hcalled, fun hm => ?_⟩⟩
  · rw [hacc, hstarted]
    exact h.rx.recv hr
  · show TokenSource.started _ = _
    rw [hstarted, hfinished, htask]
  · show txCommand.rxDropped ↔ _
    rw [hdropped, hopen]
    simp
  · rw [hacc]
    exact h.nodup
  · exact (h.calls other).append (by simp [TokenSource.accepted]) (by simp)
  · rw [hfinished]
    exact h.replies other result ho
  · left
    rcases h.attended other hw hn with (hm | hwork) | hp
    · rw [hitems] at hm
      rcases List.mem_cons.1 hm with rfl | hm
      · exact .inr rfl
      · exact .inl hm
    · rw [ht] at hwork
      cases hwork
    · rw [ht] at hp
      cases hp
  · exact hfresh (List.mem_filterMap.2 ⟨_, hm, rfl⟩)

/-- The source has returned, and the reply is sent to whom still waits for it. -/
theorem finished (h : Inv log s) {result : ρ} {replies : Nat → Option ρ} (ht : s.task = .working call)
    (hsame : ∀ other ≠ call, replies other = s.replies other) (hreply : ∀ r, replies call = some r → r = result ∨ s.replies call = some r)
    (hwaits : s.calls call = .waiting → (replies call).isSome) :
    Inv (log ++ [.finished call result]) { s with task := .receiving, replies := replies } := by
  have hacc : TokenSource.accepted (log ++ [.finished call result]) = TokenSource.accepted log := by simp [TokenSource.accepted]
  have hstarted : TokenSource.started (log ++ [.finished call result]) = TokenSource.started log := by simp [TokenSource.started]
  have hfinished : TokenSource.finished (log ++ [.finished call result]) = TokenSource.finished log ++ [(call, result)] :=
    finished_append ..
  have htask := h.task
  rw [ht] at htask
  refine ⟨?_, ?_, by simpa [ht] using h.panicked, by simpa [ht] using h.open_, ?_, fun other => ?_, fun other r ho => ?_,
    fun other hw hn => ?_, History.each_append_singleton.2 ⟨h.justified, trivial⟩⟩
  · rw [hacc, hstarted]
    exact h.rx
  · show TokenSource.started _ = _
    rw [hstarted, hfinished, List.map_append, htask]
    rfl
  · rw [hacc]
    exact h.nodup
  · exact (h.calls other).append (by simp [TokenSource.accepted]) (by simp)
  · rw [hfinished]
    by_cases hne : other = call
    · subst hne
      rcases hreply r ho with rfl | ho
      · exact List.mem_append_right _ (List.mem_singleton_self _)
      · exact List.mem_append_left _ (h.replies other r ho)
    · exact List.mem_append_left _ (h.replies other r (by rw [← hsame other hne]; exact ho))
  · by_cases hne : other = call
    · subst hne
      have := hwaits hw
      rw [show replies other = none from hn] at this
      cases this
    · rcases h.attended other hw (by rw [← hsame other hne]; exact hn) with (hm | hwork) | hp
      · exact .inl (.inl hm)
      · rw [ht] at hwork
        exact absurd (TaskPc.working.inj hwork).symm hne
      · rw [ht] at hp
        cases hp

theorem panic (h : Inv log s) (ht : s.task = .working call) :
    Inv (log ++ [.panicked]) { s with task := .panicked, txCommand := s.txCommand.dropRx } := by
  have hacc : TokenSource.accepted (log ++ [.panicked]) = TokenSource.accepted log := by simp [TokenSource.accepted]
  have hstarted : TokenSource.started (log ++ [.panicked]) = TokenSource.started log := by simp [TokenSource.started]
  have hfinished : TokenSource.finished (log ++ [.panicked]) = TokenSource.finished log := by simp [TokenSource.finished]
  have htask := h.task
  rw [ht] at htask
  refine ⟨?_, ⟨call, ?_⟩, by simp, by simp [Mpsc.dropRx], ?_, fun other => ?_, fun other r ho => ?_, fun _ _ _ => .inr rfl,
    History.each_append_singleton.2 ⟨h.justified, trivial⟩⟩
  · rw [hacc, hstarted]
    exact h.rx.dropRx
  · rw [hstarted, hfinished]
    exact htask
  · rw [hacc]
    exact h.nodup
  · exact (h.calls other).append (by simp [TokenSource.accepted]) (by simp)
  · rw [hfinished]
    exact h.replies other r ho

/-- A call returns. -/
theorem returned (h : Inv log s) {result : Option ρ} (hc : s.calls call = .sending ∨ s.calls call = .waiting)
    (hr : ∀ r, result = some r → s.replies call = some r) (hn : result = none → s.task = .panicked) :
    Inv (log ++ [.returned call result]) (s.setCall call .returned) := by
  have hok := h.calls call
  have hnone : .called call ∈ log ∧ ∀ r, .returned call r ∉ log := by
    rcases hc with hc | hc
    · rw [hc] at hok
      exact ⟨hok.1, hok.2.2⟩
    · rw [hc] at hok
      exact hok
  refine h.setCall ⟨by simp [TokenSource.accepted], by simp [TokenSource.started], by simp [TokenSource.finished]⟩ (by simp) nofun
    (List.mem_append_left _ hnone.1) (fun other hne r hm => ?_) (History.each_singleton.2 ?_)
  · rw [List.mem_singleton] at hm
    exact hne (Event.returned.inj hm).1
  · rw [List.append_nil]
    cases result with
    | none => exact ⟨h.panicked.2 (hn rfl), hnone.2⟩
    | some r => exact ⟨h.replies call r (hr r rfl), hnone.2⟩

theorem step (h : Inv log s) (hs : Step s s' evs) : Inv (log ++ evs) s' := by
  cases hs with
  | called hc =>
    rename_i call
    have hok := h.calls call
    rw [hc] at hok
    refine h.setCall ⟨by simp [TokenSource.accepted], by simp [TokenSource.started], by simp [TokenSource.finished]⟩ (by simp) nofun
      ⟨by simp, ?_, ?_⟩ (by simp) (History.each_singleton.2 trivial)
    · simpa [TokenSource.accepted] using hok.1
    · simpa using hok.2
  | accepted hc hs => exact h.accepted hc hs
  | refused hc hd => exact h.returned (.inl hc) nofun fun _ => h.open_.1 hd
  | started ht hr => exact h.started ht hr
  | finished ht hc =>
    rename_i call result
    refine h.finished ht (fun other hne => Function.update_of_ne hne ..) (fun r hr => ?_) fun _ => by rw [Function.update_self]; rfl
    rw [Function.update_self] at hr
    exact .inl (Option.some.inj hr).symm
  | unheard ht hc => exact h.finished ht (fun _ _ => rfl) (fun _ hr => .inr hr) fun hw => absurd hw hc
  | panicked ht => exact h.panic ht
  | replied hc hr =>
    refine h.returned (.inr hc) (fun r he => ?_) nofun
    rw [hr, he]
  | closed hc hr htx => exact h.returned (.inr hc) nofun fun _ => (h.attended _ hc hr).resolve_left htx
  | dropped hc =>
    rename_i call
    refine h.setCall ⟨rfl, rfl, rfl⟩ nofun nofun ?_ nofun .nil
    rw [List.append_nil]
    exact (h.calls call).called (hc.elim (fun hc => by rw [hc]; exact nofun) fun hc => by rw [hc]; exact nofun)

theorem of_run (h : (machine ρ).Run log s) : Inv log s := by
  refine h.invariant (I := Inv) .init ?_
  rintro log s a s' evs - hi - ha
  exact hi.step (step_step ha)

theorem served (h : Inv log s) : Served log := by
  have hfin : (TokenSource.finished log).map Prod.fst <+: TokenSource.started log ∧
      (TokenSource.started log).length ≤ (TokenSource.finished log).length + 1 := by
    have htask := h.task
    cases ht : s.task with
    | receiving =>
      rw [ht] at htask
      rw [show TokenSource.started log = _ from htask, List.length_map]
      exact ⟨List.prefix_rfl, by omega⟩
    | working call =>
      rw [ht] at htask
      rw [show TokenSource.started log = _ from htask, List.length_append, List.length_map]
      exact ⟨List.prefix_append _ _, le_rfl⟩
    | panicked =>
      rw [ht] at htask
      obtain ⟨call, hs⟩ := htask
      rw [hs, List.length_append, List.length_map]
      exact ⟨List.prefix_append _ _, le_rfl⟩
  exact ⟨h.rx.first, hfin.1, hfin.2, h.justified⟩

end Inv

/-- Whatever calls of `token` come together, and whichever of them are dropped: the source is asked for one token at a
time, in the order of the commands; every call gets the token that was fetched for it, after it was made, or the error
that the source is closed, after the task has panicked; and as long as it has not, no call is forgotten. -/
theorem tokens_served (h : (machine ρ).Run log s) : Served log ∧ ∀ call, s.calls call = .waiting →
    (s.replies call).isSome ∨ s.hasTx call ∨ .panicked ∈ log := by
  have hinv := Inv.of_run h
  refine ⟨hinv.served, fun call hw => ?_⟩
  cases hr : s.replies call with
  | some r => exact .inl rfl
  | none =>
    rcases hinv.attended call hw hr with htx | hp
    · exact .inr (.inl htx)
    · exact .inr (.inr (hinv.panicked.2 hp))

/-- Three calls, the second of which is dropped; the source panics at the third one. -/
theorem tokens_served_three : ∃ log s, (machine Nat).Run log s ∧ (Served log ∧ ∀ call, s.calls call = .waiting →
    (s.replies call).isSome ∨ s.hasTx call ∨ .panicked ∈ log) ∧
      log = [.called 0, .called 1, .accepted 1, .started 1, .accepted 0, .finished 1 5, .started 0, .called 2, .accepted 2,
        .finished 0 6, .returned 0 (some 6), .started 2, .panicked, .returned 2 none] := by
  obtain ⟨log, s, h, hl⟩ := Machine.Exec.exists_of_any (M := machine Nat) (C := fun _ _ _ => True)
    [.token 0, .token 1, .send 1, .recv, .send 0, .drop 1, .finish 5, .recv, .token 2, .send 2, .finish 6, .reply 0, .recv,
      .panic, .closed 2]
    (P := fun log _ => log = [.called 0, .called 1, .accepted 1, .started 1, .accepted 0, .finished 1 5, .started 0, .called 2,
      .accepted 2, .finished 0 6, .returned 0 (some 6), .started 2, .panicked, .returned 2 none]) (by decide +kernel)
  exact ⟨log, s, h, tokens_served h, hl⟩

end Iscp.TokenSource
