import Iscp.Lib.Progress
import Iscp.Wire.WriteLoop
import Mathlib.Logic.Function.Basic

/-!
# The tasks of a wire connection

What `Conn::new` spawns: one or two read loops, one or two write loops, the ping loop and the task that closes
the transport, with one token for all of them and the two waiters. Every loop cancels the token when it
returns, whatever it returns for, so that no loop goes on without the others. The read loops and the ping loop
may return at any time here; the write loops are followed message by message. The close of the transport waits
for the reader and the writer, and `close` for all tasks; a `close` that finds the token cancelled waits for
nothing.
-/

namespace Iscp.Wire.Tasks

variable {M κ ε : Type}

inductive Loop
  | reader
  | unreliableReader
  | writer
  | unreliableWriter
  | ping
deriving DecidableEq

inductive Writer
  | reliable
  | unreliable
deriving DecidableEq

def Writer.loop : Writer → Loop
  | reliable => .writer
  | unreliable => .unreliableWriter

/-- Whether the task closes an end of the transport when its loop has returned. -/
def Loop.closesIo : Loop → Bool
  | reader | unreliableReader | writer => true
  | unreliableWriter | ping => false

/-- Whether the task holds `wg_rw`, and not `wg`. -/
def Loop.holdsRw : Loop → Bool
  | reader | unreliableReader | writer => true
  | unreliableWriter | ping => false

structure Config (M κ ε : Type) where
  /-- The two write loops have a compressor each, of the same settings. -/
  writer : WriteLoop.Config M κ ε
  unreliableReader : Bool
  unreliableWriter : Bool

/-- Whether the task is spawned. -/
def Config.spawns (c : Config M κ ε) : Loop → Bool
  | .unreliableReader => c.unreliableReader
  | .unreliableWriter => c.unreliableWriter
  | _ => true

inductive Phase
  | looping
  /-- The loop has returned; its `_ct_guard` is dropped next. -/
  | returned
  | guardDropped
  /-- The end of the transport is closed; the wait group is dropped next. -/
  | closed
  | done
deriving DecidableEq

/-- Where `close_task` is. -/
inductive CloserPc
  | waitingCt
  /-- In `waiter_rw.wait`. -/
  | waitingRw
  /-- In `closer.close`. -/
  | closing
  | closed
  | done
deriving DecidableEq

/-- Where a call of `close` is. -/
inductive CallPc
  | idle
  /-- The token was not cancelled. -/
  | checked
  /-- In `waiter.wait`. -/
  | waiting
  | returned
deriving DecidableEq

structure State (M κ : Type) where
  ct : Bool := false
  tasks : Loop → Phase
  writers : Writer → WriteLoop.State M κ
  closer : CloserPc := .waitingCt
  calls : Nat → CallPc := fun _ => .idle

inductive Action (M : Type)
  | writer (w : Writer) (a : WriteLoop.Action M)
  | loopEnded (w : Writer)
  /-- A read loop or the ping loop returns: it fails, or sees the token. -/
  | returnLoop (l : Loop)
  | dropGuard (l : Loop)
  | closeIo (l : Loop)
  | dropWg (l : Loop)
  | ctSeen
  | rwDone
  | transportClosed
  | dropCloserWg
  | close (call : Nat)
  | closeCancel (call : Nat)
  | closeDone (call : Nat)
  /-- `Conn::cancel`. -/
  | cancel

inductive Event (M : Type)
  | writer (w : Writer) (e : WriteLoop.Event M)
  | ended (l : Loop)
  | ioClosed (l : Loop)
  | transportClosed
  | closeCalled (call : Nat)
  /-- `close` has returned; `waited` if it did not find the token cancelled. -/
  | closeReturned (call : Nat) (waited : Bool)
deriving DecidableEq

namespace State

/-- The write loop, with the token that it shares. -/
def writeLoop (s : State M κ) (w : Writer) : WriteLoop.State M κ := { s.writers w with ct := s.ct }

def setTask (s : State M κ) (l : Loop) (phase : Phase) : State M κ :=
  { s with tasks := Function.update s.tasks l phase }

def setCall (s : State M κ) (call : Nat) (pc : CallPc) : State M κ :=
  { s with calls := Function.update s.calls call pc }

/-- No task holds `wg_rw`. -/
def rwDropped (s : State M κ) : Prop :=
  s.tasks .reader = .done ∧ s.tasks .unreliableReader = .done ∧ s.tasks .writer = .done

/-- No task holds `wg`. -/
def wgDropped (s : State M κ) : Prop :=
  s.closer = .done ∧ s.tasks .unreliableWriter = .done ∧ s.tasks .ping = .done

instance (s : State M κ) : Decidable s.rwDropped := inferInstanceAs (Decidable (_ ∧ _))

instance (s : State M κ) : Decidable s.wgDropped := inferInstanceAs (Decidable (_ ∧ _))

end State

def step (c : Config M κ ε) (s : State M κ) : Action M → Option (State M κ × List (Event M))
  | .writer _ .cancel => none
  | .writer w a =>
    if c.spawns w.loop then
      (WriteLoop.step c.writer (s.writeLoop w) a).map fun (writeLoop, evs) =>
        ({ s with ct := writeLoop.ct, writers := Function.update s.writers w writeLoop }, evs.map (.writer w))
    else none
  | .loopEnded w =>
    if s.tasks w.loop = .looping ∧ (s.writers w).pc = .ended then
      some (s.setTask w.loop .guardDropped, [.ended w.loop])
    else none
  | .returnLoop l =>
    match l with
    | .writer | .unreliableWriter => none
    | l => if s.tasks l = .looping then some (s.setTask l .returned, [.ended l]) else none
  | .dropGuard l =>
    if s.tasks l = .returned then some ({ s.setTask l .guardDropped with ct := true }, []) else none
  | .closeIo l =>
    if l.closesIo ∧ s.tasks l = .guardDropped then some (s.setTask l .closed, [.ioClosed l]) else none
  | .dropWg l =>
    if s.tasks l = (if l.closesIo then .closed else .guardDropped) then some (s.setTask l .done, []) else none
  | .ctSeen => if s.closer = .waitingCt ∧ s.ct then some ({ s with closer := .waitingRw }, []) else none
  | .rwDone => if s.closer = .waitingRw ∧ s.rwDropped then some ({ s with closer := .closing }, []) else none
  | .transportClosed =>
    if s.closer = .closing then some ({ s with closer := .closed }, [.transportClosed]) else none
  | .dropCloserWg => if s.closer = .closed then some ({ s with closer := .done }, []) else none
  | .close call =>
    if s.calls call = .idle then
      if s.ct then some (s.setCall call .returned, [.closeReturned call false])
      else some (s.setCall call .checked, [.closeCalled call])
    else none
  | .closeCancel call =>
    if s.calls call = .checked then some ({ s.setCall call .waiting with ct := true }, []) else none
  | .closeDone call =>
    if s.calls call = .waiting ∧ s.wgDropped then some (s.setCall call .returned, [.closeReturned call true])
    else none
  | .cancel => some ({ s with ct := true }, [])

def machine (c : Config M κ ε) : Machine (State M κ) (Action M) (Event M) where
  init :=
    { tasks := fun l => if c.spawns l then .looping else .done
      writers := fun _ => { compressor := c.writer.compressor } }
  log₀ := []
  step := step c

/-! ### What a step does -/

/-- The calls stay where they are, or the step is one of theirs. -/
inductive Step (c : Config M κ ε) (s : State M κ) : Action M → State M κ → List (Event M) → Prop
  | writer {w : Writer} {a : WriteLoop.Action M} {writeLoop : WriteLoop.State M κ} {evs : List (WriteLoop.Event M)} :
      c.spawns w.loop → WriteLoop.step c.writer (s.writeLoop w) a = some (writeLoop, evs) →
      Step c s (.writer w a) { s with ct := writeLoop.ct, writers := Function.update s.writers w writeLoop }
        (evs.map (.writer w))
  | loopEnded {w : Writer} : s.tasks w.loop = .looping → (s.writers w).pc = .ended →
      Step c s (.loopEnded w) (s.setTask w.loop .guardDropped) [.ended w.loop]
  | returned {l : Loop} : (∀ w : Writer, l ≠ w.loop) → s.tasks l = .looping →
      Step c s (.returnLoop l) (s.setTask l .returned) [.ended l]
  | guardDropped {l : Loop} : s.tasks l = .returned →
      Step c s (.dropGuard l) { s.setTask l .guardDropped with ct := true } []
  | ioClosed {l : Loop} : l.closesIo → s.tasks l = .guardDropped →
      Step c s (.closeIo l) (s.setTask l .closed) [.ioClosed l]
  | wgDropped {l : Loop} : s.tasks l = (if l.closesIo then .closed else .guardDropped) →
      Step c s (.dropWg l) (s.setTask l .done) []
  | ctSeen : s.closer = .waitingCt → s.ct → Step c s .ctSeen { s with closer := .waitingRw } []
  | rwDone : s.closer = .waitingRw → s.rwDropped → Step c s .rwDone { s with closer := .closing } []
  | transportClosed : s.closer = .closing →
      Step c s .transportClosed { s with closer := .closed } [.transportClosed]
  | closerDone : s.closer = .closed → Step c s .dropCloserWg { s with closer := .done } []
  | foundCancelled {call : Nat} : s.ct →
      Step c s (.close call) (s.setCall call .returned) [.closeReturned call false]
  | closeCalled {call : Nat} : s.ct = false →
      Step c s (.close call) (s.setCall call .checked) [.closeCalled call]
  | closeCancel {call : Nat} : s.calls call = .checked →
      Step c s (.closeCancel call) { s.setCall call .waiting with ct := true } []
  | closeDone {call : Nat} : s.calls call = .waiting → s.wgDropped →
      Step c s (.closeDone call) (s.setCall call .returned) [.closeReturned call true]
  | cancel : Step c s .cancel { s with ct := true } []

variable {c : Config M κ ε} {s s' : State M κ} {act : Action M} {log evs : List (Event M)}

theorem step_step (h : step c s act = some (s', evs)) : Step c s act s' evs := by
  cases act with
  | writer w a =>
    have hw : (if c.spawns w.loop then
        (WriteLoop.step c.writer (s.writeLoop w) a).map fun (writeLoop, evs) =>
          (({ s with ct := writeLoop.ct, writers := Function.update s.writers w writeLoop } : State M κ),
            evs.map (Event.writer w))
        else none) = some (s', evs) := by
      cases a with
      | cancel => cases h
      | _ => exact h
    split at hw
    · rename_i hspawns
      obtain ⟨⟨writeLoop, es⟩, hstep, he⟩ := Option.map_eq_some_iff.1 hw
      cases he
      exact .writer hspawns hstep
    · cases hw
  | returnLoop l =>
    cases l with
    | writer | unreliableWriter => cases h
    | reader | unreliableReader | ping =>
      simp only [step] at h
      split at h
      · rename_i hp
        cases h
        exact .returned (fun w => by cases w <;> exact nofun) hp
      · cases h
  | close call =>
    simp only [step] at h
    split at h
    · split at h
      · rename_i hct
        cases h
        exact .foundCancelled hct
      · rename_i hct
        cases h
        exact .closeCalled (Bool.eq_false_iff.2 hct)
    · cases h
  | cancel =>
    cases h
    exact .cancel
  | loopEnded w =>
    simp only [step] at h
    split at h
    · rename_i hp
      cases h
      exact .loopEnded hp.1 hp.2
    · cases h
  | dropGuard l =>
    simp only [step] at h
    split at h
    · rename_i hp
      cases h
      exact .guardDropped hp
    · cases h
  | closeIo l =>
    simp only [step] at h
    split at h
    · rename_i hp
      cases h
      exact .ioClosed hp.1 hp.2
    · cases h
  | dropWg l =>
    simp only [step] at h
    by_cases hp : s.tasks l = (if l.closesIo then .closed else .guardDropped)
    · rw [if_pos hp] at h
      cases h
      exact .wgDropped hp
    · rw [if_neg hp] at h
      cases h
  | ctSeen =>
    simp only [step] at h
    split at h
    · rename_i hp
      cases h
      exact .ctSeen hp.1 hp.2
    · cases h
  | rwDone =>
    simp only [step] at h
    split at h
    · rename_i hp
      cases h
      exact .rwDone hp.1 hp.2
    · cases h
  | transportClosed =>
    simp only [step] at h
    split at h
    · rename_i hp
      cases h
      exact .transportClosed hp
    · cases h
  | dropCloserWg =>
    simp only [step] at h
    split at h
    · rename_i hp
      cases h
      exact .closerDone hp
    · cases h
  | closeCancel call =>
    simp only [step] at h
    split at h
    · rename_i hp
      cases h
      exact .closeCancel hp
    · cases h
  | closeDone call =>
    simp only [step] at h
    split at h
    · rename_i hp
      cases h
      exact .closeDone hp.1 hp.2
    · cases h

/-! ### A writer by itself -/

@[simp] def Event.writer? (w : Writer) : Event M → Option (WriteLoop.Event M)
  | writer w' e => if w' = w then some e else none
  | _ => none

/-- What a writer has done. -/
def writerLog (w : Writer) (log : List (Event M)) : List (WriteLoop.Event M) := log.filterMap (Event.writer? w)

theorem mem_writerLog {w : Writer} {e : WriteLoop.Event M} : e ∈ writerLog w log ↔ .writer w e ∈ log := by
  rw [writerLog, List.mem_filterMap]
  constructor
  · rintro ⟨e', he', heq⟩
    cases e' with
    | writer w' e' =>
      simp only [Event.writer?] at heq
      split at heq
      · rename_i hw
        cases heq
        rwa [← hw]
      · cases heq
    | _ => cases heq
  · intro he
    exact ⟨_, he, if_pos rfl⟩

theorem writerLog_map (w w' : Writer) (evs : List (WriteLoop.Event M)) :
    writerLog w (evs.map (.writer w')) = if w' = w then evs else [] := by
  rw [writerLog, List.filterMap_map]
  split
  · rename_i hw
    subst hw
    exact (List.filterMap_congr fun e _ => if_pos rfl).trans List.filterMap_some
  · rename_i hw
    exact List.filterMap_eq_nil_iff.2 fun e _ => if_neg hw

/-- Another task cancels the token. -/
theorem cancel_of_ct (c : WriteLoop.Config M κ ε) {s : WriteLoop.State M κ} {ct : Bool}
    (h : ct = s.ct ∨ ct = true) :
    { s with ct := ct } = s ∨ WriteLoop.step c s .cancel = some ({ s with ct := ct }, []) := by
  rcases h with rfl | rfl
  · exact .inl rfl
  · exact .inr rfl

/-- Beside the others a write loop does what it does alone. -/
theorem writeLoop_run (h : (machine c).Run log s) (w : Writer) :
    (WriteLoop.machine c.writer).Run (writerLog w log) (s.writeLoop w) := by
  refine h.project (N := WriteLoop.machine c.writer) (π := fun s => s.writeLoop w) (f := Event.writer? w) rfl rfl ?_
  rintro log s act s' evs - - hs
  have hcancel (ct : Bool) (hct : ct = s.ct ∨ ct = true) :
      ({ s.writeLoop w with ct := ct } : WriteLoop.State M κ) = s.writeLoop w ∧
        ([] : List (Event M)).filterMap (Event.writer? w) = [] ∨
      ∃ b, WriteLoop.step c.writer (s.writeLoop w) b =
        some (({ s.writeLoop w with ct := ct } : WriteLoop.State M κ), ([] : List (Event M)).filterMap (Event.writer? w)) :=
    (cancel_of_ct c.writer hct).imp (fun heq => ⟨heq, rfl⟩) fun heq => ⟨.cancel, heq⟩
  cases step_step hs with
  | writer hspawns hstep =>
    rename_i w' a writeLoop es
    have hlog : (es.map (Event.writer w')).filterMap (Event.writer? w) = if w' = w then es else [] :=
      writerLog_map w w' es
    by_cases hw : w' = w
    · subst hw
      refine .inr ⟨a, ?_⟩
      have hself : ({ s with ct := writeLoop.ct, writers := Function.update s.writers w' writeLoop } :
          State M κ).writeLoop w' = writeLoop := by
        simp [State.writeLoop]
      rw [hlog, if_pos rfl, hself]
      exact hstep
    · have hself : ({ s with ct := writeLoop.ct, writers := Function.update s.writers w' writeLoop } :
          State M κ).writeLoop w = { s.writeLoop w with ct := writeLoop.ct } := by
        simp [State.writeLoop, Function.update_of_ne (Ne.symm hw)]
      rw [hlog, if_neg hw, hself]
      exact hcancel _ (WriteLoop.step_step hstep).ct
  | guardDropped | closeCancel | cancel => exact hcancel true (.inr rfl)
  | _ => exact .inl ⟨rfl, rfl⟩

/-! ### The order of the shutdown -/

namespace Phase

/-- After the guard was dropped. -/
def past : Phase → Bool
  | looping | returned => false
  | _ => true

def ioClosed : Phase → Bool
  | closed | done => true
  | _ => false

end Phase

/-- What has happened before an event. -/
def Orderly (c : Config M κ ε) (pre : List (Event M)) : Event M → Prop
  | .writer w (.handed ..) | .writer w (.written _) => .ended w.loop ∉ pre
  | .writer .. => True
  | .ended l => c.spawns l ∧ .ended l ∉ pre
  | .ioClosed l => l.closesIo ∧ .ended l ∈ pre ∧ .ioClosed l ∉ pre
  | .transportClosed => .transportClosed ∉ pre ∧ ∀ l, c.spawns l → l.closesIo → .ioClosed l ∈ pre
  | .closeCalled _ => (∀ l, .ioClosed l ∉ pre) ∧ ∀ w, .writer w (.returned true) ∉ pre
  | .closeReturned call true =>
    .closeCalled call ∈ pre ∧ .transportClosed ∈ pre ∧ ∀ l, c.spawns l → .ended l ∈ pre
  | .closeReturned _ false => True

/-- What a task has done. -/
structure TaskInv (c : Config M κ ε) (log : List (Event M)) (s : State M κ) (l : Loop) : Prop where
  ended : .ended l ∈ log ↔ c.spawns l ∧ s.tasks l ≠ .looping
  ioClosed : .ioClosed l ∈ log ↔ c.spawns l ∧ l.closesIo ∧ (s.tasks l).ioClosed
  spawned : c.spawns l = false → s.tasks l = .done
  closed : s.tasks l = .closed → l.closesIo
  cancelled : c.spawns l → (s.tasks l).past → s.ct

structure Inv (c : Config M κ ε) (log : List (Event M)) (s : State M κ) : Prop where
  tasks : ∀ l, TaskInv c log s l
  ended : ∀ w : Writer, c.spawns w.loop → s.tasks w.loop ≠ .looping → (s.writers w).pc = .ended
  closer : s.closer ≠ .waitingCt → s.ct
  rw : s.closer ≠ .waitingCt → s.closer ≠ .waitingRw → s.rwDropped
  transportClosed : .transportClosed ∈ log ↔ s.closer = .closed ∨ s.closer = .done
  called : ∀ call, s.calls call = .checked ∨ s.calls call = .waiting → .closeCalled call ∈ log
  orderly : History.Each (Orderly c) log

theorem TaskInv.congr {l : Loop} (h : TaskInv c log s l) (ht : s'.tasks l = s.tasks l) (hct : s.ct → s'.ct)
    (he : .ended l ∉ evs) (hio : .ioClosed l ∉ evs) : TaskInv c (log ++ evs) s' l := by
  refine ⟨?_, ?_, ht ▸ h.spawned, ht ▸ h.closed, fun hs hp => hct (h.cancelled hs (ht ▸ hp))⟩
  · rw [List.mem_append, or_iff_left he, ht]
    exact h.ended
  · rw [List.mem_append, or_iff_left hio, ht]
    exact h.ioClosed

namespace Inv

theorem spawns (h : Inv c log s) {l : Loop} (ht : s.tasks l ≠ .done) : c.spawns l := by
  by_contra hs
  exact ht ((h.tasks l).spawned (Bool.eq_false_iff.2 hs))

theorem not_ended (h : Inv c log s) {l : Loop} (ht : s.tasks l = .looping) : .ended l ∉ log := fun he =>
  ((h.tasks l).ended.1 he).2 ht

theorem io_open (h : Inv c log s) {l : Loop} (ht : (s.tasks l).ioClosed = false) : .ioClosed l ∉ log := fun hm => by
  have hio := ((h.tasks l).ioClosed.1 hm).2.2
  rw [ht] at hio
  cases hio

/-- A task goes from one phase to the next. -/
theorem setTask (h : Inv c log s) {l : Loop} {ct : Bool} {phase : Phase} (hl : s.tasks l ≠ .done) (hct : s.ct → ct)
    (hphase : phase ≠ .looping) (hended : s.tasks l = .looping → .ended l ∈ evs)
    (hio : .ioClosed l ∈ log ++ evs ↔ l.closesIo ∧ phase.ioClosed) (hclosed : phase = .closed → l.closesIo)
    (hpast : phase.past → ct) (hend : ∀ w : Writer, l = w.loop → (s.writers w).pc = .ended)
    (he : ∀ e ∈ evs, (e = .ended l ∨ e = .ioClosed l) ∧ Orderly c log e) (hlen : evs.length ≤ 1) :
    Inv c (log ++ evs) { s.setTask l phase with ct := ct } := by
  have hspawns := h.spawns hl
  have hself : TaskInv c (log ++ evs) { s.setTask l phase with ct := ct } l := by
    have htask : (s.setTask l phase).tasks l = phase := Function.update_self ..
    refine ⟨⟨fun _ => ⟨hspawns, by rwa [htask]⟩, fun _ => ?_⟩, ?_, fun hs => ?_, ?_, fun _ => ?_⟩
    · by_cases hlooping : s.tasks l = .looping
      · exact List.mem_append_right _ (hended hlooping)
      · exact List.mem_append_left _ ((h.tasks l).ended.2 ⟨hspawns, hlooping⟩)
    · rw [hio, htask]
      exact (and_iff_right hspawns).symm
    · rw [hspawns] at hs
      cases hs
    · rwa [htask]
    · rwa [htask]
  have hnot (e : Event M) (hne : e ≠ .ended l ∧ e ≠ .ioClosed l) : e ∉ evs := fun hm =>
    (he e hm).1.elim hne.1 hne.2
  have hother {l' : Loop} (hne : l' ≠ l) : (s.setTask l phase).tasks l' = s.tasks l' := Function.update_of_ne hne ..
  refine ⟨fun l' => ?_, fun w hs hw => ?_, fun hc => hct (h.closer hc), fun hc hr => ?_, ?_, fun call hc => ?_, ?_⟩
  · by_cases hne : l' = l
    · exact hne ▸ hself
    · exact (h.tasks l').congr (hother hne) hct (hnot _ ⟨by simpa using hne, nofun⟩) (hnot _ ⟨nofun, by simpa using hne⟩)
  · by_cases hne : w.loop = l
    · exact hend w hne.symm
    · exact h.ended w hs ((hother hne).symm ▸ hw)
  · obtain ⟨hreader, hunreliable, hwriter⟩ := h.rw hc hr
    have hdone {l' : Loop} (hd : s.tasks l' = .done) : (s.setTask l phase).tasks l' = .done := by
      rw [hother fun hne => hl (hne ▸ hd), hd]
    exact ⟨hdone hreader, hdone hunreliable, hdone hwriter⟩
  · rw [List.mem_append, or_iff_left (hnot .transportClosed ⟨nofun, nofun⟩)]
    exact h.transportClosed
  · exact List.mem_append_left _ (h.called call hc)
  · match evs, hlen with
    | [], _ => simpa using h.orderly
    | [e], _ => exact History.each_append_singleton.2 ⟨h.orderly, (he e (by simp)).2⟩

/-- The tasks stay where they are. -/
theorem keep (h : Inv c log s) (ht : s'.tasks = s.tasks) (hw : ∀ w, (s.writers w).pc = .ended → (s'.writers w).pc = .ended)
    (hct : s.ct → s'.ct) (hev : ∀ e ∈ evs, (∀ l, e ≠ .ended l) ∧ ∀ l, e ≠ .ioClosed l)
    (hcloser : s'.closer ≠ .waitingCt → s'.ct)
    (hrw : s'.closer ≠ .waitingCt → s'.closer ≠ .waitingRw → s.rwDropped)
    (hclosed : .transportClosed ∈ log ++ evs ↔ s'.closer = .closed ∨ s'.closer = .done)
    (hcalled : ∀ call, s'.calls call = .checked ∨ s'.calls call = .waiting → .closeCalled call ∈ log ++ evs)
    (ho : History.Each (fun pre e => Orderly c (log ++ pre) e) evs) : Inv c (log ++ evs) s' := by
  refine ⟨fun l => ?_, fun w hs hl => hw w (h.ended w hs (ht ▸ hl)), hcloser, fun hc hr => ?_, hclosed, hcalled, ?_⟩
  · exact (h.tasks l).congr (congrFun ht l) hct (fun hm => (hev _ hm).1 l rfl) fun hm => (hev _ hm).2 l rfl
  · rw [State.rwDropped, ht]
    exact hrw hc hr
  · exact History.each_append.2 ⟨h.orderly, ho⟩

theorem init (c : Config M κ ε) : Inv c [] (machine c).init := by
  refine ⟨fun l => ?_, fun w hs hl => ?_, fun hc => absurd rfl hc, fun hc => absurd rfl hc, ?_, ?_, .nil⟩
  · by_cases hs : c.spawns l
    · refine ⟨?_, ?_, ?_, ?_, ?_⟩ <;> simp [machine, hs, Phase.ioClosed, Phase.past]
    · rw [Bool.not_eq_true] at hs
      refine ⟨?_, ?_, ?_, ?_, ?_⟩ <;> simp [machine, hs]
  · simp [machine, hs] at hl
  · simp [machine]
  · simp [machine]

/-- An event that only the closer and the calls look at. -/
theorem quiet (h : Inv c log s) (ht : s'.tasks = s.tasks) (hw : s'.writers = s.writers) (hct : s.ct → s'.ct)
    (hcloser : s'.closer = s.closer) (hev : ∀ e ∈ evs, ∃ call, e = .closeCalled call ∨ ∃ waited, e = .closeReturned call waited)
    (hcalled : ∀ call, s'.calls call = .checked ∨ s'.calls call = .waiting → .closeCalled call ∈ log ++ evs)
    (ho : History.Each (fun pre e => Orderly c (log ++ pre) e) evs) : Inv c (log ++ evs) s' := by
  have hnot : .transportClosed ∉ evs := fun hm => by
    obtain ⟨call, he | ⟨waited, he⟩⟩ := hev _ hm <;> cases he
  refine h.keep ht (fun w he => by rw [hw]; exact he) hct (fun e he => ?_) (fun hc => hct (h.closer (hcloser ▸ hc)))
    (fun hc hr => h.rw (hcloser ▸ hc) (hcloser ▸ hr)) ?_ hcalled ho
  · obtain ⟨call, rfl | ⟨waited, rfl⟩⟩ := hev e he
    · exact ⟨nofun, nofun⟩
    · exact ⟨nofun, nofun⟩
  · rw [List.mem_append, or_iff_left hnot, hcloser]
    exact h.transportClosed

/-- The closer goes on, with the token cancelled. -/
theorem move (h : Inv c log s) {closer : CloserPc} (hct : s.ct)
    (hrw : closer ≠ .waitingCt → closer ≠ .waitingRw → s.rwDropped)
    (hclosed : .transportClosed ∈ log ++ evs ↔ closer = .closed ∨ closer = .done)
    (hev : ∀ e ∈ evs, e = .transportClosed) (ho : History.Each (fun pre e => Orderly c (log ++ pre) e) evs) :
    Inv c (log ++ evs) { s with closer := closer } := by
  refine h.keep rfl (fun _ => id) id (fun e he => ?_) (fun _ => hct) hrw hclosed
    (fun call hc => List.mem_append_left _ (h.called call hc)) ho
  rw [hev e he]
  exact ⟨nofun, nofun⟩

theorem writer (h : Inv c log s) {w : Writer} {a : WriteLoop.Action M} {writeLoop : WriteLoop.State M κ}
    {es : List (WriteLoop.Event M)} (hs : WriteLoop.step c.writer (s.writeLoop w) a = some (writeLoop, es)) :
    Inv c (log ++ es.map (.writer w))
      { s with ct := writeLoop.ct, writers := Function.update s.writers w writeLoop } := by
  have hstep := WriteLoop.step_step hs
  have hct : s.ct → writeLoop.ct := fun hc => hstep.ct.elim (fun heq => heq.trans hc) id
  have hnot (e : Event M) (hne : ∀ w' e', e ≠ .writer w' e') : e ∉ es.map (.writer w) := fun hm => by
    obtain ⟨e', -, rfl⟩ := List.mem_map.1 hm
    exact hne w e' rfl
  refine h.keep rfl (fun w' he => ?_) hct ?_ (fun hc => hct (h.closer hc)) h.rw ?_
    (fun call hc => List.mem_append_left _ (h.called call hc)) fun pre e post heq => ?_
  · by_cases hw : w' = w
    · subst hw
      simpa using hstep.ended_ended he
    · simpa [Function.update_of_ne hw] using he
  · rintro _ he
    obtain ⟨e, -, rfl⟩ := List.mem_map.1 he
    exact ⟨nofun, nofun⟩
  · rw [List.mem_append, or_iff_left (hnot .transportClosed nofun)]
    exact h.transportClosed
  · obtain ⟨e', he', rfl⟩ := List.mem_map.1 (heq ▸ List.mem_append_right pre List.mem_cons_self : e ∈ es.map (.writer w))
    have hpre : .ended w.loop ∉ pre := fun hm =>
      hnot (.ended w.loop) nofun (heq ▸ List.mem_append_left _ hm)
    have hlog (hwork : e'.handed?.isSome ∨ e'.written?.isSome) : .ended w.loop ∉ log ++ pre := by
      refine List.not_mem_append (fun hm => ?_) hpre
      obtain ⟨hspawns, hl⟩ := (h.tasks w.loop).ended.1 hm
      exact hstep.not_ended he' hwork (h.ended w hspawns hl)
    cases e' with
    | handed => exact hlog (.inl rfl)
    | written => exact hlog (.inr rfl)
    | _ => trivial

theorem closeDone (h : Inv c log s) {call : Nat} (hcall : s.calls call = .waiting) (hwg : s.wgDropped) :
    Orderly c log (.closeReturned call true) := by
  obtain ⟨hcloser, hunreliable, hping⟩ := hwg
  obtain ⟨hreader, hunreliableReader, hwriter⟩ := h.rw (by rw [hcloser]; exact nofun) (by rw [hcloser]; exact nofun)
  refine ⟨h.called call (.inr hcall), h.transportClosed.2 (.inr hcloser), fun l hl => (h.tasks l).ended.2 ⟨hl, ?_⟩⟩
  cases l with
  | reader => rw [hreader]; exact nofun
  | unreliableReader => rw [hunreliableReader]; exact nofun
  | writer => rw [hwriter]; exact nofun
  | unreliableWriter => rw [hunreliable]; exact nofun
  | ping => rw [hping]; exact nofun

theorem closing (h : Inv c log s) (hc : s.closer = .closing) : Orderly c log .transportClosed := by
  obtain ⟨hreader, hunreliable, hwriter⟩ := h.rw (by rw [hc]; exact nofun) (by rw [hc]; exact nofun)
  refine ⟨fun hm => ?_, fun l hs hl => (h.tasks l).ioClosed.2 ⟨hs, hl, ?_⟩⟩
  · have := h.transportClosed.1 hm
    simp [hc] at this
  · cases l with
    | reader => rw [hreader]; rfl
    | unreliableReader => rw [hunreliable]; rfl
    | writer => rw [hwriter]; rfl
    | unreliableWriter | ping => cases hl

/-- As long as the token is not cancelled. -/
theorem alive (h : Inv c log s) (hr : (machine c).Run log s) (hct : s.ct = false) (call : Nat) :
    Orderly c log (.closeCalled call) := by
  have hnot : ¬ s.ct = true := by rw [hct]; exact nofun
  refine ⟨fun l hm => hnot ?_, fun w hm => hnot ?_⟩
  · obtain ⟨hs, -, hio⟩ := (h.tasks l).ioClosed.1 hm
    refine (h.tasks l).cancelled hs ?_
    generalize s.tasks l = phase at hio
    cases phase <;> first | rfl | cases hio
  · exact (WriteLoop.Late.of_run (writeLoop_run hr w)).drained (mem_writerLog.2 hm)

theorem step (h : Inv c log s) (hr : (machine c).Run log s) (hs : Step c s act s' evs) : Inv c (log ++ evs) s' := by
  cases hs with
  | writer _ hstep => exact h.writer hstep
  | loopEnded hl hp =>
    rename_i w
    have hct : s.ct := (WriteLoop.Late.of_run (writeLoop_run hr w)).ct (by simp [State.writeLoop, hp, WriteLoop.Pc.late])
    refine h.setTask (by rw [hl]; exact nofun) id nofun (by simp) ?_ nofun (fun _ => hct) (fun w' hw => ?_) ?_ le_rfl
    · simpa [Phase.ioClosed] using h.io_open (by rw [hl]; rfl)
    · cases w <;> cases w' <;> first | exact hp | cases hw
    · simpa [Orderly, h.spawns (l := w.loop) (by rw [hl]; exact nofun)] using h.not_ended hl
  | returned hw hl =>
    rename_i l
    refine h.setTask (by rw [hl]; exact nofun) (id : s.ct → s.ct) nofun (by simp) ?_ nofun nofun
      (fun w' hl' => absurd hl' (hw w')) ?_ le_rfl
    · simpa [Phase.ioClosed] using h.io_open (by rw [hl]; rfl)
    · simpa [Orderly, h.spawns (l := l) (by rw [hl]; exact nofun)] using h.not_ended hl
  | guardDropped hl =>
    refine h.setTask (by rw [hl]; exact nofun) (fun _ => rfl) nofun (by simp [hl]) ?_ nofun (fun _ => rfl) (fun w hw => ?_)
      (by simp) (by simp)
    · simpa [Phase.ioClosed] using h.io_open (by rw [hl]; rfl)
    · subst hw
      exact h.ended w (h.spawns (by rw [hl]; exact nofun)) (by rw [hl]; exact nofun)
  | ioClosed hio hl =>
    rename_i l
    have hspawns := h.spawns (l := l) (by rw [hl]; exact nofun)
    refine h.setTask (by rw [hl]; exact nofun) id nofun (by simp [hl]) (by simp [hio, Phase.ioClosed]) (fun _ => hio) (fun _ => ?_)
      (fun w hw => ?_) ?_ le_rfl
    · exact (h.tasks l).cancelled hspawns (by rw [hl]; rfl)
    · subst hw
      exact h.ended w hspawns (by rw [hl]; exact nofun)
    · have hended := (h.tasks l).ended.2 ⟨hspawns, by rw [hl]; exact nofun⟩
      simpa [Orderly, hio, hended] using h.io_open (by rw [hl]; rfl)
  | wgDropped hl =>
    rename_i l
    have hne : s.tasks l ≠ .done := by
      rw [hl]
      split <;> exact nofun
    have hnl : s.tasks l ≠ .looping := by
      rw [hl]
      split <;> exact nofun
    have hspawns := h.spawns hne
    refine h.setTask hne id nofun (fun hlooping => absurd hlooping hnl) ?_ nofun (fun _ => ?_) (fun w hw => ?_) (by simp) (by simp)
    · rw [List.append_nil, (h.tasks l).ioClosed, hl]
      cases hio : l.closesIo <;> simp [hspawns, Phase.ioClosed]
    · refine (h.tasks l).cancelled hspawns ?_
      rw [hl]
      split <;> rfl
    · subst hw
      exact h.ended w hspawns hnl
  | ctSeen hc hct =>
    refine h.move hct (fun _ hr => absurd rfl hr) ?_ (by simp) .nil
    have := h.transportClosed
    simp_all
  | rwDone hc hrw =>
    refine h.move (h.closer (by rw [hc]; exact nofun)) (fun _ _ => hrw) ?_ (by simp) .nil
    have := h.transportClosed
    simp_all
  | transportClosed hc =>
    refine h.move (h.closer (by rw [hc]; exact nofun))
      (fun _ _ => h.rw (by rw [hc]; exact nofun) (by rw [hc]; exact nofun)) (by simp) (by simp) ?_
    exact History.each_singleton.2 (by simpa using h.closing hc)
  | closerDone hc =>
    refine h.move (h.closer (by rw [hc]; exact nofun))
      (fun _ _ => h.rw (by rw [hc]; exact nofun) (by rw [hc]; exact nofun)) ?_ (by simp) .nil
    have := h.transportClosed
    simp_all
  | foundCancelled hct =>
    rename_i call
    refine h.quiet rfl rfl id rfl (fun e he => ⟨call, .inr ⟨false, by simpa using he⟩⟩) (fun call' hc => ?_)
      (History.each_singleton.2 trivial)
    by_cases hne : call' = call
    · simp [State.setCall, hne] at hc
    · simp only [State.setCall, Function.update_of_ne hne] at hc
      exact List.mem_append_left _ (h.called call' hc)
  | closeCalled hct =>
    rename_i call
    refine h.quiet rfl rfl id rfl (fun e he => ⟨call, .inl (by simpa using he)⟩) (fun call' hc => ?_)
      (History.each_singleton.2 (by simpa using h.alive hr hct call))
    by_cases hne : call' = call
    · exact List.mem_append_right _ (by simp [hne])
    · simp only [State.setCall, Function.update_of_ne hne] at hc
      exact List.mem_append_left _ (h.called call' hc)
  | closeCancel hc =>
    rename_i call
    refine h.quiet rfl rfl (fun _ => rfl) rfl (by simp) (fun call' hc' => List.mem_append_left _ ?_) .nil
    by_cases hne : call' = call
    · exact hne ▸ h.called call (.inl hc)
    · simp only [State.setCall, Function.update_of_ne hne] at hc'
      exact h.called call' hc'
  | closeDone hc hwg =>
    rename_i call
    refine h.quiet rfl rfl id rfl (fun e he => ⟨call, .inr ⟨true, by simpa using he⟩⟩) (fun call' hc' => ?_)
      (History.each_singleton.2 (by simpa using h.closeDone hc hwg))
    by_cases hne : call' = call
    · simp [State.setCall, hne] at hc'
    · simp only [State.setCall, Function.update_of_ne hne] at hc'
      exact List.mem_append_left _ (h.called call' hc')
  | cancel =>
    exact h.quiet rfl rfl (fun _ => rfl) rfl (by simp) (fun call hc => List.mem_append_left _ (h.called call hc)) .nil

theorem of_run (h : (machine c).Run log s) : Inv c log s := by
  refine h.invariant (I := Inv c) (.init c) ?_
  rintro log s a s' evs hr hi - ha
  exact hi.step hr (step_step ha)

end Inv

/-- In every run the transport is closed once, after the ends of its read and write loops, these after their
loops have returned, and `close` waits for all of it; nothing is written by a loop that has returned. -/
theorem shuts_down_in_order (h : (machine c).Run log s) : History.Each (Orderly c) log := (Inv.of_run h).orderly

def sampleConfig : Config Bytes Unit Unit := ⟨WriteLoop.sampleConfig, true, false⟩

/-- A read loop sees the token, its end of the transport is closed, and its wait group dropped. -/
def readerRun (l : Loop) : List (Action Bytes) := [.returnLoop l, .dropGuard l, .closeIo l, .dropWg l]

/-- The write loop sees the token, with `left` messages in its queue. -/
def writerRun (left : Nat) : List (Action Bytes) :=
  [.writer .reliable .cancelled] ++
    (List.replicate left [.writer .reliable .tryRecv, .writer .reliable (.written true)]).flatten ++
    [.writer .reliable .tryRecv, .writer .reliable .dropGuard, .writer .reliable .dropRx, .loopEnded .reliable,
      .closeIo .writer, .dropWg .writer]

/-- A `close` with a message in the queue, to its return. -/
def closeRun : List (Action Bytes) :=
  [.writer .reliable (.send [7]), .close 0, .closeCancel 0, .ctSeen] ++ writerRun 1 ++ readerRun .unreliableReader ++
    readerRun .reader ++ [.returnLoop .ping, .dropGuard .ping, .dropWg .ping, .rwDone, .transportClosed, .dropCloserWg,
      .closeDone 0]

theorem shuts_down_in_order_close : ∃ log s, (machine sampleConfig).Run log s ∧
    History.Each (Orderly sampleConfig) log ∧ .closeReturned 0 true ∈ log := by
  obtain ⟨log, s, h, hr⟩ := Machine.Exec.exists_of_any (M := machine sampleConfig) (C := fun _ _ _ => True) closeRun
    (P := fun log _ => .closeReturned 0 true ∈ log) (by decide +kernel)
  exact ⟨log, s, h, shuts_down_in_order h, hr⟩

/-! ### What is written before the end -/

/-- `close` leaves nothing behind that was accepted before it, unless the write loop has failed. -/
def Graceful (c : Config M κ ε) (pre : List (Event M)) : Event M → Prop
  | .closeReturned call true => .writer .reliable (.returned false) ∉ pre →
    ∀ before after, pre = before ++ .closeCalled call :: after →
      WriteLoop.Covers c.writer (writerLog .reliable before) (writerLog .reliable pre)
  | _ => True

theorem close_is_graceful (h : (machine c).Run log s) : History.Each (Graceful c) log := by
  refine h.invariant (I := fun log _ => History.Each (Graceful c) log) .nil ?_
  rintro log s a s' evs hr hi - ha
  have hinv := Inv.of_run hr
  cases step_step ha with
  | closeDone hcall hwg =>
    refine History.each_append_singleton.2 ⟨hi, fun hf before after heq => ?_⟩
    have hwriter : (s.writers .reliable).pc = .ended := by
      obtain ⟨-, -, hdone⟩ := hinv.rw (by rw [hwg.1]; exact nofun) (by rw [hwg.1]; exact nofun)
      refine hinv.ended .reliable rfl ?_
      show s.tasks .writer ≠ .looping
      rw [hdone]
      exact nofun
    have hrun := writeLoop_run hr .reliable
    have hlog : writerLog .reliable log = writerLog .reliable before ++ writerLog .reliable after := by
      rw [heq, writerLog, List.filterMap_append, List.filterMap_cons_none rfl]
      rfl
    have hcalled := hinv.orderly before _ after heq
    rw [hlog] at hrun ⊢
    refine WriteLoop.covers_of_out hrun ?_ (fun hm => hf ?_) fun hm => hcalled.2 .reliable (mem_writerLog.1 hm)
    · show (s.writers .reliable).pc.out
      rw [hwriter]
      rfl
    · rw [← hlog] at hm
      exact mem_writerLog.1 hm
  | writer =>
    refine hi.append_of_forall fun pre e he => ?_
    obtain ⟨e', -, rfl⟩ := List.mem_map.1 he
    trivial
  | _ => exact hi.append_of_forall (by simp [Graceful])

theorem close_is_graceful_close : ∃ log s, (machine sampleConfig).Run log s ∧
    History.Each (Graceful sampleConfig) log ∧ .closeReturned 0 true ∈ log ∧
      .writer .reliable (.written [7]) ∈ log ∧ .writer .reliable (.returned false) ∉ log := by
  obtain ⟨log, s, h, hr⟩ := Machine.Exec.exists_of_any (M := machine sampleConfig) (C := fun _ _ _ => True) closeRun
    (P := fun log _ => .closeReturned 0 true ∈ log ∧ .writer .reliable (.written [7]) ∈ log ∧
      .writer .reliable (.returned false) ∉ log) (by decide +kernel)
  exact ⟨log, s, h, close_is_graceful h, hr⟩

/-! ### The end of the shutdown -/

/-- The tasks by themselves: no message is sent, and nobody closes or cancels. -/
def Action.internal : Action M → Bool
  | .writer _ a => a.internal
  | .close _ | .closeCancel _ | .closeDone _ | .cancel => false
  | _ => true

/-- The token is cancelled, or a loop that has returned is about to cancel it. -/
def Ending (c : Config M κ ε) (s : State M κ) : Prop :=
  s.ct ∨ (∃ l, s.tasks l = .returned) ∨ ∃ w : Writer, c.spawns w.loop ∧ (s.writers w).pc = .returned

/-- Nothing is left to be done but for the calls of `close` to return. -/
structure Shut (c : Config M κ ε) (s : State M κ) : Prop where
  tasks : ∀ l, s.tasks l = .done
  closer : s.closer = .done
  calls : ∀ call, s.calls call = .waiting → (step c s (.closeDone call)).isSome

def Phase.rank : Phase → Nat
  | looping => 4
  | returned => 3
  | guardDropped => 2
  | closed => 1
  | done => 0

def CloserPc.rank : CloserPc → Nat
  | waitingCt => 4
  | waitingRw => 3
  | closing => 2
  | closed => 1
  | done => 0

def State.taskRank (s : State M κ) : Nat :=
  (s.tasks .reader).rank + (s.tasks .unreliableReader).rank + (s.tasks .writer).rank +
    (s.tasks .unreliableWriter).rank + (s.tasks .ping).rank

def State.writerRank (s : State M κ) : Nat := (s.writers .reliable).rank + (s.writers .unreliable).rank

def State.rank (s : State M κ) : Nat := s.taskRank + s.writerRank + s.closer.rank

theorem State.taskRank_setTask {l : Loop} {phase : Phase} (h : phase.rank < (s.tasks l).rank) :
    (s.setTask l phase).taskRank < s.taskRank := by
  cases l <;> simp only [taskRank, setTask, Function.update, dite_eq_ite] <;> simp <;> omega

theorem State.writerRank_update {w : Writer} {writeLoop : WriteLoop.State M κ} {ct : Bool} (h : writeLoop.rank < (s.writers w).rank) :
    State.writerRank { s with ct := ct, writers := Function.update s.writers w writeLoop } < s.writerRank := by
  cases w <;> simp only [writerRank, Function.update] <;> simp <;> omega

theorem Step.rank_lt (h : Step c s act s' evs) (ha : act.internal) : s'.rank < s.rank := by
  have htask {l : Loop} {phase : Phase} (hl : phase.rank < (s.tasks l).rank) : (s.setTask l phase).rank < s.rank := by
    have := State.taskRank_setTask hl
    show _ + s.writerRank + s.closer.rank < _ + s.writerRank + s.closer.rank
    omega
  have hcloser {closer : CloserPc} (hc : closer.rank < s.closer.rank) : State.rank { s with closer := closer } < s.rank :=
    Nat.add_lt_add_left hc _
  cases h with
  | writer _ hstep =>
    exact Nat.add_lt_add_right (Nat.add_lt_add_left (State.writerRank_update ((WriteLoop.step_step hstep).rank_lt ha)) _) _
  | loopEnded hl => exact htask (by rw [hl]; decide)
  | returned _ hl => exact htask (by rw [hl]; decide)
  | guardDropped hl => exact htask (by rw [hl]; decide)
  | ioClosed _ hl => exact htask (by rw [hl]; decide)
  | wgDropped hl =>
    refine htask ?_
    rw [hl]
    split <;> decide
  | ctSeen hc => exact hcloser (by rw [hc]; decide)
  | rwDone hc => exact hcloser (by rw [hc]; decide)
  | transportClosed hc => exact hcloser (by rw [hc]; decide)
  | closerDone hc => exact hcloser (by rw [hc]; decide)
  | foundCancelled | closeCalled | closeCancel | closeDone | cancel => cases ha

/-- A loop that returns brings the connection to its end. -/
theorem Step.ending (h : Step c s act s' evs) (he : Ending c s) : Ending c s' := by
  have htask {l : Loop} {phase : Phase} (hl : s.tasks l ≠ .returned) : Ending c (s.setTask l phase) := by
    rcases he with hct | ⟨l', hl'⟩ | hw
    · exact .inl hct
    · have hne : l' ≠ l := fun heq => hl (heq ▸ hl')
      exact .inr (.inl ⟨l', (Function.update_of_ne hne ..).trans hl'⟩)
    · exact .inr (.inr hw)
  cases h with
  | writer hspawns hstep =>
    rename_i w a writeLoop es
    have hs := WriteLoop.step_step hstep
    rcases he with hct | hl | ⟨w', hspawns', hp⟩
    · exact .inl (hs.ct.elim (fun heq => heq.trans hct) id)
    · exact .inr (.inl hl)
    · by_cases hw : w' = w
      · subst hw
        rcases hs.returned hp with hr | hct
        · exact .inr (.inr ⟨w', hspawns', by simpa using hr⟩)
        · exact .inl hct
      · exact .inr (.inr ⟨w', hspawns', by simpa [Function.update_of_ne hw] using hp⟩)
  | loopEnded hl => exact htask (by rw [hl]; exact nofun)
  | returned _ hl => exact htask (by rw [hl]; exact nofun)
  | ioClosed _ hl => exact htask (by rw [hl]; exact nofun)
  | wgDropped hl =>
    refine htask ?_
    rw [hl]
    split <;> exact nofun
  | guardDropped | closeCancel | cancel => exact .inl rfl
  | _ => exact he

/-- Where nothing more can be done by the tasks, all of it is done. -/
theorem shut_of_stuck (hc : c.writer.Halts) (h : (machine c).Run log s) (he : Ending c s)
    (hstuck : ∀ act : Action M, act.internal → step c s act = none) : Shut c s := by
  have hinv := Inv.of_run h
  have hnone (act : Action M) {r : State M κ × List (Event M)} (ha : act.internal) (hs : step c s act = some r) : False := by
    rw [hstuck act ha] at hs
    cases hs
  have hreturned (l : Loop) : s.tasks l ≠ .returned := fun hl => hnone (.dropGuard l) rfl (if_pos hl)
  have hwriter (w : Writer) (hw : c.spawns w.loop) (a : WriteLoop.Action M) (ha : a.internal) :
      WriteLoop.step c.writer (s.writeLoop w) a = none := by
    have hs := hstuck (.writer w a) ha
    cases a with
    | cancel => cases ha
    | _ =>
      simp only [step, hw, if_true, Option.map_eq_none_iff] at hs
      exact hs
  have hct : s.ct := by
    rcases he with hct | ⟨l, hl⟩ | ⟨w, hw, hp⟩
    · exact hct
    · exact absurd hl (hreturned l)
    · have hs := hwriter w hw .dropGuard rfl
      simp [WriteLoop.step, State.writeLoop, hp] at hs
  have hlooping (l : Loop) : s.tasks l ≠ .looping := fun hl => by
    have hloop (w : Writer) (hw : l = w.loop) : False := by
      subst hw
      have hspawns := hinv.spawns (l := w.loop) fun hd => by
        rw [hl] at hd
        cases hd
      have hp := WriteLoop.ended_of_stuck (WriteLoop.compressing_of_run hc (writeLoop_run h w)) hct (hwriter w hspawns)
      exact hnone (.loopEnded w) rfl (if_pos ⟨hl, hp⟩)
    cases l with
    | writer => exact hloop .reliable rfl
    | unreliableWriter => exact hloop .unreliable rfl
    | reader => exact hnone (.returnLoop .reader) rfl (if_pos hl)
    | unreliableReader => exact hnone (.returnLoop .unreliableReader) rfl (if_pos hl)
    | ping => exact hnone (.returnLoop .ping) rfl (if_pos hl)
  have htasks (l : Loop) : s.tasks l = .done := by
    cases hl : s.tasks l with
    | looping => exact absurd hl (hlooping l)
    | returned => exact absurd hl (hreturned l)
    | guardDropped =>
      cases hio : l.closesIo with
      | true => exact (hnone (.closeIo l) rfl (if_pos ⟨hio, hl⟩)).elim
      | false => exact (hnone (.dropWg l) rfl (if_pos (by rw [hl, hio]; rfl))).elim
    | closed =>
      have hio := (hinv.tasks l).closed hl
      exact (hnone (.dropWg l) rfl (if_pos (by rw [hl, hio]; rfl))).elim
    | done => rfl
  have hcloser : s.closer = .done := by
    cases hcl : s.closer with
    | waitingCt => exact (hnone .ctSeen rfl (if_pos ⟨hcl, hct⟩)).elim
    | waitingRw => exact (hnone .rwDone rfl (if_pos ⟨hcl, htasks _, htasks _, htasks _⟩)).elim
    | closing => exact (hnone .transportClosed rfl (if_pos hcl)).elim
    | closed => exact (hnone .dropCloserWg rfl (if_pos hcl)).elim
    | done => rfl
  refine ⟨htasks, hcloser, fun call hcall => ?_⟩
  rw [step, if_pos ⟨hcall, hcloser, htasks _, htasks _⟩]
  rfl

end Iscp.Wire.Tasks
