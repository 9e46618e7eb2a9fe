import Iscp.Error
import Iscp.Lib.Machine
import Iscp.Lib.Semaphore
import Mathlib.Data.Fintype.Basic
import Mathlib.Logic.Function.Basic

/-!
# Opening streams and closing a connection

`Conn::open_upstream_with_config`, `Conn::open_downstream_with_config` and `Conn::close` on one
connection: `n` opens and `m` closes whose steps come in any order. An open reads the permits and the
cancellation token in `check_close`, clones the WaitGroup, asks the server, spawns the stream task and
pushes the token of the stream. A close gets the permit, takes the tokens and the waiter, cancels the
tokens and waits for the streams, then for the reconnection loop. The future of a call may be dropped
wherever it awaits. A stream task may end at any time.
-/

namespace Iscp.Conn

inductive OpenPc
  | idle
  /-- In `check_close`, a permit was there. -/
  | permitsRead
  | checked
  /-- Holds a clone of the WaitGroup, and waits for the open response. -/
  | requesting
  | spawned
  | ended
deriving DecidableEq

inductive ClosePc (n : Nat)
  | idle
  | queued
  /-- Has the permit, and was not polled yet. -/
  | granted
  | acquired
  /-- In `take_stream_waiter`, with the lock of `stream_ct`. -/
  | tokensTaken (streamCt : List (Fin n))
  | cancelling (streamCt : List (Fin n))
  | waitingStreams
  | waitingConn
  | semaphoreClosed
  | ended
deriving DecidableEq

/-- Where a future of `close` awaits. -/
inductive AwaitPoint
  | semaphore
  | streams
  | conn
deriving DecidableEq

/-- A `Mutex`, whose `lock` fails once somebody panicked with the lock. -/
structure Locked (α : Type) where
  value : α
  poisoned : Bool := false

structure State (n m : Nat) where
  ct : Bool := false
  /-- The reconnection loop has dropped its WaitGroup. -/
  loopExited : Bool := false
  streamCt : Locked (List (Fin n)) := { value := [] }
  /-- Whether `stream_close_waiter` is `Some`. -/
  streamCloseWaiter : Locked Bool := { value := true }
  closeSemaphore : Semaphore (Fin m) := { permits := 1 }
  opens : Fin n → OpenPc := fun _ => .idle
  closes : Fin m → ClosePc n := fun _ => .idle
  /-- Who holds a clone of the WaitGroup: the future of an open, then its stream task. -/
  waitGroup : Fin n → Bool := fun _ => false
  /-- The streams whose tokens were cancelled by a close. -/
  cancelled : Fin n → Bool := fun _ => false

inductive Action (n m : Nat)
  | readPermits (o : Fin n)
  | readCt (o : Fin n)
  | streamWaitGroup (o : Fin n)
  | openFailed (o : Fin n) (e : Error)
  | dropOpen (o : Fin n)
  | spawn (o : Fin n)
  | pushStreamCt (o : Fin n)
  | streamExit (o : Fin n)
  | acquire (c : Fin m)
  | poll (c : Fin m)
  | takeStreamCt (c : Fin m)
  | takeWaiter (c : Fin m)
  | cancel (c : Fin m)
  | streamsExited (c : Fin m)
  | connExited (c : Fin m)
  | dropPermit (c : Fin m)
  | dropClose (c : Fin m)
  | loopExit

inductive Event (n m : Nat)
  | opened (o : Fin n)
  | openFailed (o : Fin n) (e : Error)
  | closed (c : Fin m)
  | dropped (c : Fin m) (p : AwaitPoint)
  /-- The unwrap in `stream_wait_group`, or one in `push_stream_ct`. -/
  | openPanicked (o : Fin n)
  /-- An unwrap in `take_stream_waiter`. -/
  | closePanicked (c : Fin m)
deriving DecidableEq

variable {n m : Nat}

/-- The stream task of `o` runs, with its clone of the WaitGroup. -/
def State.streamRuns (s : State n m) (o : Fin n) : Bool :=
  s.waitGroup o && s.opens o != .requesting

def ClosePc.holdsPermit : ClosePc n → Bool
  | idle | queued | ended => false
  | _ => true

/-- Between taking the tokens and the end of the streams. -/
def ClosePc.closesStreams : ClosePc n → Bool
  | tokensTaken _ | cancelling _ | waitingStreams => true
  | _ => false

def ClosePc.locksStreamCt : ClosePc n → Bool
  | tokensTaken _ => true
  | _ => false

namespace State

def setOpen (s : State n m) (o : Fin n) (pc : OpenPc) : State n m :=
  { s with opens := Function.update s.opens o pc }

def setClose (s : State n m) (c : Fin m) (pc : ClosePc n) : State n m :=
  { s with closes := Function.update s.closes c pc }

def setWaitGroup (s : State n m) (o : Fin n) (b : Bool) : State n m :=
  { s with waitGroup := Function.update s.waitGroup o b }

/-- The future of `c` ends and with it its permit, which goes to the close that waits longest. -/
def endClose (s : State n m) (c : Fin m) : State n m :=
  { s with
    closeSemaphore := s.closeSemaphore.release.1
    closes := fun b =>
      if s.closeSemaphore.release.2 = some b then .granted
      else if b = c then .ended
      else s.closes b }

/-- `check_close`, its first half. -/
def readPermits (s : State n m) (o : Fin n) : State n m × List (Event n m) :=
  if s.closeSemaphore.permits = 0 then
    (s.setOpen o .ended, [.openFailed o .connectionClosed])
  else (s.setOpen o .permitsRead, [])

/-- `check_close`, its second half. -/
def readCt (s : State n m) (o : Fin n) : State n m × List (Event n m) :=
  if s.ct then (s.setOpen o .ended, [.openFailed o .connectionClosed])
  else (s.setOpen o .checked, [])

def streamWaitGroup (s : State n m) (o : Fin n) : State n m × List (Event n m) :=
  if s.streamCloseWaiter.value && !s.streamCloseWaiter.poisoned then
    ((s.setOpen o .requesting).setWaitGroup o true, [])
  else ({ s with streamCloseWaiter.poisoned := true }.setOpen o .ended, [.openPanicked o])

def pushStreamCt (s : State n m) (o : Fin n) : State n m × List (Event n m) :=
  if s.streamCt.poisoned then (s.setOpen o .ended, [.openPanicked o])
  else ({ s with streamCt.value := s.streamCt.value ++ [o] }.setOpen o .ended, [.opened o])

def acquire (s : State n m) (c : Fin m) : State n m × List (Event n m) :=
  match s.closeSemaphore.acquire c with
  | (_, .closed) => (s.setClose c .ended, [.closed c])
  | (sem, .permit) => ({ s with closeSemaphore := sem }.setClose c .acquired, [])
  | (sem, .queued) => ({ s with closeSemaphore := sem }.setClose c .queued, [])

/-- `take_stream_waiter`, its first half. -/
def takeStreamCt (s : State n m) (c : Fin m) : State n m × List (Event n m) :=
  if s.streamCt.poisoned then (s.endClose c, [.closePanicked c])
  else ({ s with streamCt.value := [] }.setClose c (.tokensTaken s.streamCt.value), [])

/-- `take_stream_waiter`, its second half, with the lock of `stream_ct`. -/
def takeWaiter (s : State n m) (c : Fin m) (streamCt : List (Fin n)) : State n m × List (Event n m) :=
  if s.streamCloseWaiter.value && !s.streamCloseWaiter.poisoned then
    ({ s with streamCloseWaiter.value := false }.setClose c (.cancelling streamCt), [])
  else
    ({ s with streamCt.poisoned := true, streamCloseWaiter.poisoned := true }.endClose c,
      [.closePanicked c])

end State

/-- A future of `close` that awaits is dropped. -/
def dropClose (s : State n m) (c : Fin m) : Option (State n m × List (Event n m)) :=
  match s.closes c with
  | .queued =>
    some ({ s with closeSemaphore := s.closeSemaphore.leave c }.setClose c .ended,
      [.dropped c .semaphore])
  | .granted => some (s.endClose c, [.dropped c .semaphore])
  | .waitingStreams => some (s.endClose c, [.dropped c .streams])
  | .waitingConn => some (s.endClose c, [.dropped c .conn])
  | _ => none

def step (s : State n m) : Action n m → Option (State n m × List (Event n m))
  | .readPermits o => if s.opens o = .idle then some (s.readPermits o) else none
  | .readCt o => if s.opens o = .permitsRead then some (s.readCt o) else none
  | .streamWaitGroup o => if s.opens o = .checked then some (s.streamWaitGroup o) else none
  | .openFailed o e =>
    if s.opens o = .requesting then
      some ((s.setOpen o .ended).setWaitGroup o false, [.openFailed o e])
    else none
  | .dropOpen o =>
    if s.opens o = .requesting then some ((s.setOpen o .ended).setWaitGroup o false, []) else none
  | .spawn o => if s.opens o = .requesting then some (s.setOpen o .spawned, []) else none
  | .pushStreamCt o =>
    if s.opens o = .spawned ∧ ∀ c, (s.closes c).locksStreamCt = false then some (s.pushStreamCt o)
    else none
  | .streamExit o => if s.streamRuns o then some (s.setWaitGroup o false, []) else none
  | .acquire c => if s.closes c = .idle then some (s.acquire c) else none
  | .poll c =>
    match s.closes c with
    | .granted => some (s.setClose c .acquired, [])
    | .queued =>
      if s.closeSemaphore.closed then some (s.setClose c .ended, [.closed c]) else none
    | _ => none
  | .takeStreamCt c => if s.closes c = .acquired then some (s.takeStreamCt c) else none
  | .takeWaiter c =>
    match s.closes c with
    | .tokensTaken streamCt => some (s.takeWaiter c streamCt)
    | _ => none
  | .cancel c =>
    match s.closes c with
    | .cancelling [] => some (s.setClose c .waitingStreams, [])
    | .cancelling (o :: streamCt) =>
      some ({ s with cancelled := Function.update s.cancelled o true }.setClose c
        (.cancelling streamCt), [])
    | _ => none
  | .streamsExited c =>
    if s.closes c = .waitingStreams ∧ ∀ o, s.waitGroup o = false then
      some ({ s with ct := true }.setClose c .waitingConn, [])
    else none
  | .connExited c =>
    if s.closes c = .waitingConn ∧ s.loopExited then
      some ({ s with closeSemaphore := s.closeSemaphore.close }.setClose c .semaphoreClosed, [])
    else none
  | .dropPermit c =>
    if s.closes c = .semaphoreClosed then some (s.endClose c, [.closed c]) else none
  | .dropClose c => dropClose s c
  | .loopExit => if s.ct then some ({ s with loopExited := true }, []) else none

def machine (n m : Nat) : Machine (State n m) (Action n m) (Event n m) where
  init := {}
  log₀ := []
  step := step

/-! ### What a step does -/

/-- The ways in which a close that has the permit ends. -/
inductive Ends (s : State n m) (c : Fin m) : Event n m → Prop
  | granted : s.closes c = .granted → Ends s c (.dropped c .semaphore)
  | streams : s.closes c = .waitingStreams → Ends s c (.dropped c .streams)
  | conn : s.closes c = .waitingConn → Ends s c (.dropped c .conn)
  | closed : s.closes c = .semaphoreClosed → Ends s c (.closed c)
  | panicked : s.closes c = .acquired → s.streamCt.poisoned = true → Ends s c (.closePanicked c)

inductive Step (s : State n m) : Action n m → State n m → List (Event n m) → Prop
  | permitsRead {o : Fin n} : s.opens o = .idle → 0 < s.closeSemaphore.permits →
      Step s (.readPermits o) (s.setOpen o .permitsRead) []
  | noPermits {o : Fin n} : s.opens o = .idle →
      Step s (.readPermits o) (s.setOpen o .ended) [.openFailed o .connectionClosed]
  | checked {o : Fin n} : s.opens o = .permitsRead → s.ct = false →
      Step s (.readCt o) (s.setOpen o .checked) []
  | ctCancelled {o : Fin n} : s.opens o = .permitsRead →
      Step s (.readCt o) (s.setOpen o .ended) [.openFailed o .connectionClosed]
  | streamWaitGroup {o : Fin n} : s.opens o = .checked → s.streamCloseWaiter.value = true →
      Step s (.streamWaitGroup o) ((s.setOpen o .requesting).setWaitGroup o true) []
  | noWaiter {o : Fin n} : s.opens o = .checked →
      s.streamCloseWaiter.value = false ∨ s.streamCloseWaiter.poisoned = true →
      Step s (.streamWaitGroup o) ({ s with streamCloseWaiter.poisoned := true }.setOpen o .ended)
        [.openPanicked o]
  | openFailed {o : Fin n} {e : Error} : s.opens o = .requesting →
      Step s (.openFailed o e) ((s.setOpen o .ended).setWaitGroup o false) [.openFailed o e]
  | dropOpen {o : Fin n} : s.opens o = .requesting →
      Step s (.dropOpen o) ((s.setOpen o .ended).setWaitGroup o false) []
  | spawn {o : Fin n} : s.opens o = .requesting → Step s (.spawn o) (s.setOpen o .spawned) []
  | push {o : Fin n} : s.opens o = .spawned → s.streamCt.poisoned = false →
      Step s (.pushStreamCt o)
        ({ s with streamCt.value := s.streamCt.value ++ [o] }.setOpen o .ended) [.opened o]
  | pushPanicked {o : Fin n} : s.opens o = .spawned → s.streamCt.poisoned = true →
      Step s (.pushStreamCt o) (s.setOpen o .ended) [.openPanicked o]
  | streamExit {o : Fin n} : s.streamRuns o = true →
      Step s (.streamExit o) (s.setWaitGroup o false) []
  | acquireClosed {c : Fin m} : s.closes c = .idle →
      Step s (.acquire c) (s.setClose c .ended) [.closed c]
  | acquire {c : Fin m} : s.closes c = .idle → s.closeSemaphore.closed = false →
      0 < s.closeSemaphore.permits →
      Step s (.acquire c)
        ({ s with closeSemaphore.permits := s.closeSemaphore.permits - 1 }.setClose c .acquired) []
  | queue {c : Fin m} : s.closes c = .idle → s.closeSemaphore.closed = false →
      Step s (.acquire c)
        ({ s with closeSemaphore.waiters := s.closeSemaphore.waiters ++ [c] }.setClose c .queued) []
  | pollGranted {c : Fin m} : s.closes c = .granted →
      Step s (.poll c) (s.setClose c .acquired) []
  | pollClosed {c : Fin m} : s.closes c = .queued →
      Step s (.poll c) (s.setClose c .ended) [.closed c]
  | takeStreamCt {c : Fin m} : s.closes c = .acquired → s.streamCt.poisoned = false →
      Step s (.takeStreamCt c)
        ({ s with streamCt.value := [] }.setClose c (.tokensTaken s.streamCt.value)) []
  | takeWaiter {c : Fin m} {streamCt : List (Fin n)} : s.closes c = .tokensTaken streamCt →
      s.streamCloseWaiter.value = true →
      Step s (.takeWaiter c)
        ({ s with streamCloseWaiter.value := false }.setClose c (.cancelling streamCt)) []
  | takePanicked {c : Fin m} {streamCt : List (Fin n)} : s.closes c = .tokensTaken streamCt →
      s.streamCloseWaiter.value = false ∨ s.streamCloseWaiter.poisoned = true →
      Step s (.takeWaiter c)
        ({ s with streamCt.poisoned := true, streamCloseWaiter.poisoned := true }.endClose c)
        [.closePanicked c]
  | cancel {c : Fin m} {o : Fin n} {streamCt : List (Fin n)} :
      s.closes c = .cancelling (o :: streamCt) →
      Step s (.cancel c)
        ({ s with cancelled := Function.update s.cancelled o true }.setClose c
          (.cancelling streamCt)) []
  | allCancelled {c : Fin m} : s.closes c = .cancelling [] →
      Step s (.cancel c) (s.setClose c .waitingStreams) []
  | streamsExited {c : Fin m} : s.closes c = .waitingStreams → (∀ o, s.waitGroup o = false) →
      Step s (.streamsExited c) ({ s with ct := true }.setClose c .waitingConn) []
  | connExited {c : Fin m} : s.closes c = .waitingConn →
      Step s (.connExited c)
        ({ s with closeSemaphore := s.closeSemaphore.close }.setClose c .semaphoreClosed) []
  | endClose {a : Action n m} {c : Fin m} {e : Event n m} : Ends s c e →
      Step s a (s.endClose c) [e]
  | dropQueued {c : Fin m} : s.closes c = .queued →
      Step s (.dropClose c)
        ({ s with closeSemaphore := s.closeSemaphore.leave c }.setClose c .ended)
        [.dropped c .semaphore]
  | loopExit : Step s .loopExit { s with loopExited := true } []

variable {s s' : State n m} {a : Action n m} {evs : List (Event n m)}

theorem Step.of_step (h : step s a = some (s', evs)) : Step s a s' evs := by
  cases a with
  | readPermits o =>
    simp only [step, State.readPermits] at h
    split at h
    · rename_i ho
      split at h
      · cases h; exact .noPermits ho
      · rename_i hp
        cases h; exact .permitsRead ho (Nat.pos_of_ne_zero hp)
    · cases h
  | readCt o =>
    simp only [step, State.readCt] at h
    split at h
    · rename_i ho
      split at h
      · cases h; exact .ctCancelled ho
      · rename_i hct
        cases h; exact .checked ho (Bool.not_eq_true _ ▸ hct)
    · cases h
  | streamWaitGroup o =>
    simp only [step, State.streamWaitGroup] at h
    split at h
    · rename_i ho
      split at h
      · rename_i hw
        cases h; exact .streamWaitGroup ho (Bool.and_eq_true_iff.1 hw).1
      · rename_i hw
        cases h; refine .noWaiter ho ?_
        simpa [Bool.and_eq_true_iff, or_iff_not_imp_left] using hw
    · cases h
  | openFailed o e =>
    simp only [step] at h
    split at h <;> cases h
    exact .openFailed ‹_›
  | dropOpen o =>
    simp only [step] at h
    split at h <;> cases h
    exact .dropOpen ‹_›
  | spawn o =>
    simp only [step] at h
    split at h <;> cases h
    exact .spawn ‹_›
  | pushStreamCt o =>
    simp only [step, State.pushStreamCt] at h
    split at h
    · rename_i ho
      split at h
      · rename_i hp
        cases h; exact .pushPanicked ho.1 hp
      · rename_i hp
        cases h; exact .push ho.1 (Bool.not_eq_true _ ▸ hp)
    · cases h
  | streamExit o =>
    simp only [step] at h
    split at h <;> cases h
    exact .streamExit ‹_›
  | acquire c =>
    simp only [step, State.acquire] at h
    split at h
    · rename_i hc
      obtain ⟨_, ha⟩ | ⟨hcl, hp, ha⟩ | ⟨hcl, _, ha⟩ := s.closeSemaphore.acquire_cases c
      · rw [ha] at h; cases h; exact .acquireClosed hc
      · rw [ha] at h; cases h; exact .acquire hc hcl hp
      · rw [ha] at h; cases h; exact .queue hc hcl
    · cases h
  | poll c =>
    simp only [step] at h
    split at h
    · cases h; exact .pollGranted ‹_›
    · split at h <;> cases h
      exact .pollClosed ‹_›
    · cases h
  | takeStreamCt c =>
    simp only [step, State.takeStreamCt] at h
    split at h
    · rename_i hc
      split at h
      · rename_i hp
        cases h; exact .endClose (.panicked hc hp)
      · rename_i hp
        cases h; exact .takeStreamCt hc (Bool.not_eq_true _ ▸ hp)
    · cases h
  | takeWaiter c =>
    simp only [step, State.takeWaiter] at h
    split at h
    · rename_i streamCt hc
      split at h
      · rename_i hw
        cases h; exact .takeWaiter hc (Bool.and_eq_true_iff.1 hw).1
      · rename_i hw
        cases h; refine .takePanicked hc ?_
        simpa [Bool.and_eq_true_iff, or_iff_not_imp_left] using hw
    · cases h
  | cancel c =>
    simp only [step] at h
    split at h
    · cases h; exact .allCancelled ‹_›
    · cases h; exact .cancel ‹_›
    · cases h
  | streamsExited c =>
    simp only [step] at h
    split at h
    · rename_i hc
      cases h; exact .streamsExited hc.1 hc.2
    · cases h
  | connExited c =>
    simp only [step] at h
    split at h
    · rename_i hc
      cases h; exact .connExited hc.1
    · cases h
  | dropPermit c =>
    simp only [step] at h
    split at h <;> cases h
    exact .endClose (.closed ‹_›)
  | dropClose c =>
    simp only [step, dropClose] at h
    split at h
    · cases h; exact .dropQueued ‹_›
    · cases h; exact .endClose (.granted ‹_›)
    · cases h; exact .endClose (.streams ‹_›)
    · cases h; exact .endClose (.conn ‹_›)
    · cases h
  | loopExit =>
    simp only [step] at h
    split at h <;> cases h
    exact .loopExit

/-! ### The permit -/

section

variable {s s' : State n m} {a : Action n m} {evs : List (Event n m)} {o : Fin n} {c : Fin m}
  {e : Event n m} {pc : ClosePc n}

theorem State.closes_setClose (b : Fin m) :
    (s.setClose c pc).closes b = if b = c then pc else s.closes b := by
  simp only [State.setClose, Function.update_apply]

theorem State.opens_setOpen {pc : OpenPc} (o' : Fin n) :
    (s.setOpen o pc).opens o' = if o' = o then pc else s.opens o' := by
  simp only [State.setOpen, Function.update_apply]

theorem State.waitGroup_setWaitGroup {b : Bool} (o' : Fin n) :
    (s.setWaitGroup o b).waitGroup o' = if o' = o then b else s.waitGroup o' := by
  simp only [State.setWaitGroup, Function.update_apply]

theorem State.closes_endClose {b : Fin m} (hpc : (s.endClose c).closes b = pc) :
    pc = .granted ∨ pc = .ended ∨ s.closes b = pc ∧ b ≠ c := by
  simp only [State.endClose] at hpc
  split at hpc
  · exact .inl hpc.symm
  · split at hpc
    · exact .inr (.inl hpc.symm)
    · exact .inr (.inr ⟨hpc, ‹_›⟩)

theorem Ends.holdsPermit (h : Ends s c e) : (s.closes c).holdsPermit = true := by
  cases h <;> simp [*, ClosePc.holdsPermit]

/-- At most one close has the permit. -/
def Guarded (s : State n m) : Prop :=
  s.closeSemaphore.Exclusive fun c => (s.closes c).holdsPermit = true

namespace Guarded

theorem setClose (h : Guarded s) (hpc : pc.holdsPermit = true → (s.closes c).holdsPermit = true) :
    Guarded (s.setClose c pc) := by
  refine h.congr fun b hb => ?_
  rw [State.closes_setClose] at hb
  split at hb
  · rename_i he
    exact he ▸ hpc hb
  · exact hb

theorem endClose (h : Guarded s) (hc : (s.closes c).holdsPermit = true) : Guarded (s.endClose c) := by
  refine h.release hc fun b hb => ?_
  show s.closeSemaphore.release.2 = some b ∨ _
  simp only [State.endClose] at hb
  split at hb
  · exact .inl ‹_›
  · split at hb
    · cases hb
    · exact .inr ⟨hb, ‹_›⟩

theorem step (h : Guarded s) (hs : Step s a s' evs) : Guarded s' := by
  cases hs with
  | permitsRead | noPermits | checked | ctCancelled | streamWaitGroup | noWaiter | openFailed
  | dropOpen | spawn | push | pushPanicked | streamExit | loopExit => exact h
  | acquireClosed | pollClosed => exact h.setClose nofun
  | @acquire c hc _ hp =>
    refine Semaphore.Exclusive.acquire (a := c) h hp fun b hb => ?_
    simp only [State.closes_setClose] at hb
    split at hb
    · exact .inl ‹_›
    · exact .inr hb
  | queue => exact Guarded.setClose (s := { s with closeSemaphore := _ }) (h.of_permits_eq rfl) nofun
  | dropQueued => exact Guarded.setClose (s := { s with closeSemaphore := _ }) (h.of_permits_eq rfl) nofun
  | connExited hc =>
    exact Guarded.setClose (s := { s with closeSemaphore := _ }) (h.of_permits_eq rfl)
      fun _ => by simp [hc, ClosePc.holdsPermit]
  | pollGranted hc | takeStreamCt hc | takeWaiter hc | cancel hc | allCancelled hc
  | streamsExited hc =>
    exact h.setClose fun _ => by simp [hc, ClosePc.holdsPermit]
  | takePanicked hc => exact Guarded.endClose h (by simp [hc, ClosePc.holdsPermit])
  | endClose he => exact h.endClose he.holdsPermit

theorem unique (h : Guarded s) {b : Fin m} (hb : (s.closes b).holdsPermit = true)
    (hc : (s.closes c).holdsPermit = true) : b = c :=
  Semaphore.Exclusive.unique h b c hb hc

theorem init : Guarded (machine n m).init :=
  ⟨nofun, Nat.le_refl 1, fun _ _ => nofun⟩

end Guarded

end

end Iscp.Conn
