import Iscp.Conn.Model

/-!
# Who unwraps the stream waiter

`stream_close_waiter` is emptied by the first close that gets that far, and two unwraps rely on it. They
are guarded by the permit and the cancellation token: an open that passes `check_close` finds the waiter
as long as no close takes it before the clone is made, and a close that has the permit finds it as long
as no close before was dropped between taking it and closing the semaphore.
-/

namespace Iscp.Conn

variable {n m : Nat} {s s' : State n m} {a : Action n m} {evs log : List (Event n m)} {c : Fin m}
  {pc : ClosePc n}

def Event.isPanic : Event n m → Bool
  | openPanicked _ | closePanicked _ => true
  | _ => false

def NoPanic (log : List (Event n m)) : Prop := ∀ e ∈ log, e.isPanic = false

instance : Decidable (NoPanic log) := inferInstanceAs (Decidable (∀ e ∈ log, _))

/-- Has the waiter, and has not cancelled the connection. -/
def ClosePc.beforeCt : ClosePc n → Bool
  | cancelling _ | waitingStreams => true
  | _ => false

/-- An open passes `check_close` only while no close is between taking the waiter and cancelling the
connection or was dropped there; no close goes on after one that was dropped with the waiter; and no
close takes the waiter while an open is between `check_close` and `stream_wait_group`. -/
def WaiterKept (log : List (Event n m)) (s : State n m) : Action n m → Prop
  | .readCt _ => ∀ c, (s.closes c).beforeCt = false ∧ .dropped c .streams ∉ log
  | .takeStreamCt _ => ∀ c, .dropped c .streams ∉ log ∧ .dropped c .conn ∉ log
  | .takeWaiter _ => ∀ o, s.opens o ≠ .checked
  | _ => True

instance : ∀ a, Decidable (WaiterKept log s a)
  | .readCt _ | .takeStreamCt _ | .takeWaiter _ => inferInstanceAs (Decidable (∀ _, _))
  | .readPermits _ | .streamWaitGroup _ | .openFailed .. | .dropOpen _ | .spawn _
  | .pushStreamCt _ | .streamExit _ | .acquire _ | .poll _ | .cancel _ | .streamsExited _
  | .connExited _ | .dropPermit _ | .dropClose _ | .loopExit => inferInstanceAs (Decidable True)

/-- Past `take_stream_waiter`. -/
def ClosePc.tookWaiter : ClosePc n → Bool
  | cancelling _ | waitingStreams | waitingConn | semaphoreClosed => true
  | _ => false

/-- What a close relies on where it is: whether the semaphore is closed, the connection is cancelled,
the waiter is there. -/
def ClosePc.Ok (closed ct waiter : Bool) : ClosePc n → Prop
  | idle | queued | ended => True
  | granted | acquired | cancelling _ | waitingStreams => closed = false
  | tokensTaken _ => closed = false ∧ waiter = true
  | waitingConn => closed = false ∧ ct = true
  | semaphoreClosed => closed = true

theorem ClosePc.Ok.of_holdsPermit {closed ct waiter : Bool} (h : pc.holdsPermit = false) :
    pc.Ok closed ct waiter := by
  cases pc with
  | idle | queued | ended => trivial
  | _ => cases h

theorem ClosePc.holdsPermit_of_tookWaiter (h : pc.tookWaiter = true) : pc.holdsPermit = true := by
  cases pc <;> first | rfl | cases h

/-- Where the waiter is once it was taken. -/
inductive Gone (log : List (Event n m)) (s : State n m) : Prop
  | held (c : Fin m) : (s.closes c).tookWaiter = true → Gone log s
  | closed : s.closeSemaphore.closed = true → Gone log s
  | droppedStreams (c : Fin m) : .dropped c .streams ∈ log → Gone log s
  | droppedConn (c : Fin m) : .dropped c .conn ∈ log → s.ct = true → Gone log s

structure Kept (log : List (Event n m)) (s : State n m) : Prop where
  guarded : Guarded s
  noPanic : NoPanic log
  streamCt : s.streamCt.poisoned = false
  waiter : s.streamCloseWaiter.poisoned = false
  pcs : ∀ c, (s.closes c).Ok s.closeSemaphore.closed s.ct s.streamCloseWaiter.value
  closed : s.closeSemaphore.closed = true → s.ct = true ∧ s.closeSemaphore.waiters = []
  taken : s.streamCloseWaiter.value = false → (∀ o, s.opens o ≠ .checked) ∧ Gone log s

theorem Gone.mono (h : Gone log s) (hc : ∀ c, (s.closes c).tookWaiter = true →
      (s'.closes c).tookWaiter = true)
    (hsem : s.closeSemaphore.closed = true → s'.closeSemaphore.closed = true)
    (hct : s.ct = true → s'.ct = true) : Gone (log ++ evs) s' := by
  cases h with
  | held c h => exact .held c (hc c h)
  | closed h => exact .closed (hsem h)
  | droppedStreams c h => exact .droppedStreams c (List.mem_append_left _ h)
  | droppedConn c h h' => exact .droppedConn c (List.mem_append_left _ h) (hct h')

theorem NoPanic.append (h : NoPanic log) (he : NoPanic evs) : NoPanic (log ++ evs) := by
  intro e hm
  rcases List.mem_append.1 hm with hm | hm
  · exact h e hm
  · exact he e hm

theorem NoPanic.singleton {e : Event n m} (h : e.isPanic = false) : NoPanic [e] := by
  intro e' he'
  rw [List.mem_singleton.1 he']
  exact h

theorem NoPanic.nil : NoPanic ([] : List (Event n m)) := nofun

namespace Kept

theorem ok (h : Kept log s) (hc : s.closes c = pc) :
    pc.Ok s.closeSemaphore.closed s.ct s.streamCloseWaiter.value := hc ▸ h.pcs c

theorem openMoves (h : Kept log s) (hg : Guarded s') (he : NoPanic evs)
    (ho : ∀ o, s'.opens o = .checked → s.opens o = .checked) (hc : s'.closes = s.closes)
    (hsem : s'.closeSemaphore = s.closeSemaphore) (hct : s'.ct = s.ct)
    (hw : s'.streamCloseWaiter = s.streamCloseWaiter)
    (hp : s'.streamCt.poisoned = s.streamCt.poisoned) : Kept (log ++ evs) s' where
  guarded := hg
  noPanic := h.noPanic.append he
  streamCt := hp ▸ h.streamCt
  waiter := hw ▸ h.waiter
  pcs := by rw [hc, hsem, hct, hw]; exact h.pcs
  closed := by rw [hsem, hct]; exact h.closed
  taken hv := by
    rw [hw] at hv
    obtain ⟨hn, hgone⟩ := h.taken hv
    exact ⟨fun o hc => hn o (ho o hc), hgone.mono (by simp [hc]) (by simp [hsem]) (by simp [hct])⟩

theorem checked_of_setOpen {o : Fin n} {pc : OpenPc} (hpc : pc ≠ .checked) (o' : Fin n)
    (h : (s.setOpen o pc).opens o' = .checked) : s.opens o' = .checked := by
  rw [State.opens_setOpen] at h
  split at h
  · exact absurd h hpc
  · exact h

theorem closeMoves (h : Kept log s) (hg : Guarded s') (he : NoPanic evs)
    (hc : s'.closes = Function.update s.closes c pc)
    (hpc : pc.Ok s.closeSemaphore.closed s.ct s.streamCloseWaiter.value)
    (htook : (s.closes c).tookWaiter = true → pc.tookWaiter = true)
    (hsem : s'.closeSemaphore.closed = s.closeSemaphore.closed)
    (hq : s.closeSemaphore.closed = true → s.closeSemaphore.waiters = [] →
      s'.closeSemaphore.waiters = [])
    (ho : s'.opens = s.opens) (hct : s'.ct = s.ct)
    (hw : s'.streamCloseWaiter = s.streamCloseWaiter)
    (hp : s'.streamCt.poisoned = s.streamCt.poisoned) : Kept (log ++ evs) s' where
  guarded := hg
  noPanic := h.noPanic.append he
  streamCt := hp ▸ h.streamCt
  waiter := hw ▸ h.waiter
  pcs b := by
    rw [hc, hsem, hct, hw, Function.update_apply]
    split
    · exact hpc
    · exact h.pcs b
  closed hcl := by
    rw [hsem] at hcl
    obtain ⟨h1, h2⟩ := h.closed hcl
    exact ⟨hct ▸ h1, hq hcl h2⟩
  taken hv := by
    rw [hw] at hv
    obtain ⟨hn, hgone⟩ := h.taken hv
    refine ⟨ho ▸ hn, hgone.mono (fun b hb => ?_) (by simp [hsem]) (by simp [hct])⟩
    rw [hc, Function.update_apply]
    split
    · rename_i hbc
      exact htook (hbc ▸ hb)
    · exact hb

/-- While a close has the permit, the others rely on nothing. -/
theorem pcs_of_holder (h : Kept log s) (hc : (s.closes c).holdsPermit = true)
    {closed ct waiter : Bool} (hpc : pc.Ok closed ct waiter) (b : Fin m) :
    (Function.update s.closes c pc b).Ok closed ct waiter := by
  rw [Function.update_apply]
  split
  · exact hpc
  · rename_i hne
    refine .of_holdsPermit ?_
    rw [Bool.eq_false_iff]
    exact fun hb => hne (h.guarded.unique hb hc)

/-- A close that has the permit and no waiter yet, with no close dropped before it, finds the waiter. -/
theorem value_of_acquired (h : Kept log s) (hc : s.closes c = .acquired)
    (hd : ∀ c, .dropped c .streams ∉ log ∧ .dropped c .conn ∉ log) :
    s.streamCloseWaiter.value = true := by
  rw [← Bool.not_eq_false]
  intro hv
  cases (h.taken hv).2 with
  | held b hb =>
    obtain rfl := h.guarded.unique (ClosePc.holdsPermit_of_tookWaiter hb)
      (show (s.closes c).holdsPermit = true by rw [hc]; rfl)
    rw [hc] at hb
    cases hb
  | closed hcl =>
    have hok : s.closeSemaphore.closed = false := h.ok hc
    rw [hcl] at hok
    cases hok
  | droppedStreams b hb => exact (hd b).1 hb
  | droppedConn b hb _ => exact (hd b).2 hb

/-- Before the connection is cancelled, the waiter is there unless a close has it or was dropped with
it. -/
theorem value_of_ct (h : Kept log s) (hct : s.ct = false)
    (hd : ∀ c, (s.closes c).beforeCt = false ∧ .dropped c .streams ∉ log) :
    s.streamCloseWaiter.value = true := by
  rw [← Bool.not_eq_false]
  intro hv
  cases (h.taken hv).2 with
  | held b hb =>
    have hbefore := (hd b).1
    cases hpc : s.closes b with
    | cancelling _ | waitingStreams => rw [hpc] at hbefore; cases hbefore
    | waitingConn =>
      have hct' : s.ct = true := (h.ok hpc).2
      rw [hct] at hct'
      cases hct'
    | semaphoreClosed =>
      have hct' := (h.closed (h.ok hpc)).1
      rw [hct] at hct'
      cases hct'
    | idle | queued | granted | acquired | tokensTaken _ | ended => rw [hpc] at hb; cases hb
  | closed hcl =>
    have := (h.closed hcl).1
    rw [hct] at this
    cases this
  | droppedStreams b hb => exact (hd b).2 hb
  | droppedConn _ _ hct' =>
    rw [hct] at hct'
    cases hct'

theorem endClose (h : Kept log s) {e : Event n m} (he : Ends s c e) :
    Kept (log ++ [e]) (s.endClose c) := by
  have hrel : s.closeSemaphore.release.1.closed = s.closeSemaphore.closed :=
    Semaphore.release_closed
  refine ⟨h.guarded.endClose he.holdsPermit, h.noPanic.append (.singleton ?_), h.streamCt, h.waiter,
    fun b => ?_, fun hcl => ?_, fun hv => ?_⟩
  · cases he with
    | panicked _ hp =>
      rw [h.streamCt] at hp
      cases hp
    | granted | streams | conn | closed => rfl
  · show (if s.closeSemaphore.release.2 = some b then ClosePc.granted
      else if b = c then .ended else s.closes b).Ok s.closeSemaphore.release.1.closed s.ct _
    rw [hrel]
    split
    · -- A permit is handed over while the semaphore is open: closing it woke all waiters.
      rename_i hb
      show s.closeSemaphore.closed = false
      rw [Bool.eq_false_iff]
      intro hcl
      obtain ⟨_, hr⟩ | ⟨d, waiters, hq, _⟩ := s.closeSemaphore.release_cases
      · rw [hr] at hb
        cases hb
      · rw [(h.closed hcl).2] at hq
        cases hq
    · split
      · trivial
      · exact h.pcs b
  · have hcl : s.closeSemaphore.release.1.closed = true := hcl
    rw [hrel] at hcl
    obtain ⟨h1, h2⟩ := h.closed hcl
    refine ⟨h1, ?_⟩
    show s.closeSemaphore.release.1.waiters = []
    obtain ⟨_, hr⟩ | ⟨_, _, hq, _⟩ := s.closeSemaphore.release_cases
    · rw [hr]; exact h2
    · rw [h2] at hq
      cases hq
  · obtain ⟨hn, hgone⟩ := h.taken hv
    refine ⟨hn, ?_⟩
    cases hgone with
    | held b hb =>
      obtain rfl := h.guarded.unique (ClosePc.holdsPermit_of_tookWaiter hb) he.holdsPermit
      cases he with
      | granted hc | panicked hc _ => rw [hc] at hb; cases hb
      | streams hc => exact .droppedStreams b (by simp)
      | conn hc => exact .droppedConn b (by simp) (h.ok hc).2
      | closed hc => exact .closed (hrel.trans (h.ok hc))
    | closed hcl => exact .closed (hrel.trans hcl)
    | droppedStreams b hb => exact .droppedStreams b (List.mem_append_left _ hb)
    | droppedConn b hb hct => exact .droppedConn b (List.mem_append_left _ hb) hct

theorem step (h : Kept log s) (hC : WaiterKept log s a) (hs : Step s a s' evs) :
    Kept (log ++ evs) s' := by
  have hg := h.guarded.step hs
  cases hs with
  | permitsRead | streamWaitGroup | dropOpen | spawn =>
    exact h.openMoves hg .nil (checked_of_setOpen nofun) rfl rfl rfl rfl rfl
  | noPermits | ctCancelled | openFailed | push =>
    exact h.openMoves hg (.singleton rfl) (checked_of_setOpen nofun) rfl rfl rfl rfl rfl
  | streamExit | loopExit => exact h.openMoves hg .nil (fun _ h => h) rfl rfl rfl rfl rfl
  | pushPanicked _ hp =>
    rw [h.streamCt] at hp
    cases hp
  | @checked o _ hct =>
    have hv := h.value_of_ct hct hC
    refine ⟨hg, h.noPanic.append .nil, h.streamCt, h.waiter, h.pcs, h.closed, fun hv' => ?_⟩
    have hv' : s.streamCloseWaiter.value = false := hv'
    rw [hv] at hv'
    cases hv'
  | @noWaiter o ho hw =>
    rcases hw with hw | hw
    · exact absurd ho ((h.taken hw).1 o)
    · rw [h.waiter] at hw
      cases hw
  | acquireClosed hc | pollClosed hc =>
    exact h.closeMoves hg (.singleton rfl) rfl trivial (by simp [hc, ClosePc.tookWaiter]) rfl
      (fun _ hq => hq) rfl rfl rfl rfl
  | dropQueued hc =>
    exact h.closeMoves hg (.singleton rfl) rfl trivial (by simp [hc, ClosePc.tookWaiter]) rfl
      (fun _ hq => by simp [Semaphore.leave, hq, State.setClose]) rfl rfl rfl rfl
  | acquire hc hcl _ =>
    exact h.closeMoves hg .nil rfl hcl (by simp [hc, ClosePc.tookWaiter]) rfl (fun _ hq => hq)
      rfl rfl rfl rfl
  | queue hc hcl =>
    exact h.closeMoves hg .nil rfl trivial (by simp [hc, ClosePc.tookWaiter]) rfl
      (fun h' => by simp [hcl] at h') rfl rfl rfl rfl
  | @pollGranted c hc =>
    have hok := h.ok hc
    exact h.closeMoves hg .nil rfl hok (by simp [hc, ClosePc.tookWaiter]) rfl (fun _ hq => hq)
      rfl rfl rfl rfl
  | @takeStreamCt c hc _ =>
    have hok := h.ok hc
    exact h.closeMoves hg .nil rfl ⟨hok, h.value_of_acquired hc hC⟩
      (by simp [hc, ClosePc.tookWaiter]) rfl (fun _ hq => hq) rfl rfl rfl rfl
  | @takeWaiter c streamCt hc hv =>
    have hok := h.ok hc
    refine ⟨hg, h.noPanic.append .nil, h.streamCt, h.waiter, ?_, h.closed, fun _ => ⟨hC, ?_⟩⟩
    · exact h.pcs_of_holder (by simp [hc, ClosePc.holdsPermit]) hok.1
    · exact .held c (by simp [State.closes_setClose, ClosePc.tookWaiter])
  | @takePanicked c streamCt hc hw =>
    have hok := h.ok hc
    rcases hw with hw | hw
    · rw [hok.2] at hw
      cases hw
    · rw [h.waiter] at hw
      cases hw
  | @cancel c _ _ hc | @allCancelled c hc =>
    have hok := h.ok hc
    exact h.closeMoves hg .nil rfl hok (fun _ => rfl) rfl (fun _ hq => hq) rfl rfl rfl rfl
  | @streamsExited c hc _ =>
    have hok : s.closeSemaphore.closed = false := h.ok hc
    refine ⟨hg, h.noPanic.append .nil, h.streamCt, h.waiter, ?_, fun hcl => ?_, fun hv => ?_⟩
    · exact h.pcs_of_holder (by simp [hc, ClosePc.holdsPermit]) ⟨hok, rfl⟩
    · have hcl : s.closeSemaphore.closed = true := hcl
      rw [hok] at hcl
      cases hcl
    · exact ⟨(h.taken hv).1, .held c (by simp [State.closes_setClose, ClosePc.tookWaiter])⟩
  | @connExited c hc =>
    have hok := h.ok hc
    refine ⟨hg, h.noPanic.append .nil, h.streamCt, h.waiter, ?_, fun _ => ⟨hok.2, rfl⟩, fun hv => ?_⟩
    · exact h.pcs_of_holder (by simp [hc, ClosePc.holdsPermit]) rfl
    · exact ⟨(h.taken hv).1, .held c (by simp [State.closes_setClose, ClosePc.tookWaiter])⟩
  | endClose he => exact h.endClose he

theorem init : Kept (machine n m).log₀ (machine n m).init :=
  ⟨Guarded.init, nofun, rfl, rfl, fun _ => trivial, nofun, nofun⟩

end Kept

/-- In every run whose steps meet `WaiterKept`, no open and no close panics. -/
theorem no_panic (h : (machine n m).Exec WaiterKept log s) : NoPanic log := by
  have hK : Kept log s := by
    refine h.invariant Kept.init ?_
    intro _ s a s' evs _ hK hC hs
    exact hK.step hC (.of_step hs)
  exact hK.noPanic

/-- A close is dropped while it waits for the permit and another ends; a stream is opened before, and an
open after them is refused. -/
theorem no_panic_closed :
    ∃ log, ∃ s : State 2 2, (machine 2 2).Exec WaiterKept log s ∧
      (.opened 0 ∈ log ∧ .dropped 1 .semaphore ∈ log ∧ .closed 0 ∈ log ∧
        .openFailed 1 .connectionClosed ∈ log) ∧ NoPanic log := by
  obtain ⟨log, s, h, hp⟩ := Machine.Exec.exists_of_any (M := machine 2 2) (C := WaiterKept)
    [.readPermits 0, .readCt 0, .streamWaitGroup 0, .spawn 0, .pushStreamCt 0, .acquire 0,
      .acquire 1, .takeStreamCt 0, .takeWaiter 0, .cancel 0, .cancel 0, .dropClose 1, .streamExit 0,
      .streamsExited 0, .loopExit, .connExited 0, .dropPermit 0, .readPermits 1, .readCt 1]
    (P := fun log _ => .opened 0 ∈ log ∧ .dropped 1 .semaphore ∈ log ∧ .closed 0 ∈ log ∧
      .openFailed 1 .connectionClosed ∈ log) (by decide +kernel)
  exact ⟨log, s, h, hp, no_panic h⟩

/-- A close is dropped while it waits for a stream, and the next open finds no waiter. -/
theorem no_panic_dropped :
    ¬ ∀ (n m : Nat) (log : List (Event n m)) (s : State n m), (machine n m).Run log s →
      NoPanic log := by
  intro h
  obtain ⟨log, s, hr, hp⟩ := Machine.Exec.exists_of_any (M := machine 2 1)
    (C := fun _ _ _ => True)
    [.readPermits 0, .readCt 0, .streamWaitGroup 0, .spawn 0, .pushStreamCt 0, .acquire 0,
      .takeStreamCt 0, .takeWaiter 0, .cancel 0, .cancel 0, .dropClose 0, .readPermits 1, .readCt 1,
      .streamWaitGroup 1]
    (P := fun log _ => ¬ NoPanic log) (by decide +kernel)
  exact hp (h 2 1 log s hr)

end Iscp.Conn
