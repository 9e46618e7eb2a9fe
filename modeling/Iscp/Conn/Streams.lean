import Iscp.Conn.Model

/-!
# The streams that a close waits for

A stream is known to a close by its token in `stream_ct`, and holds up the close by its clone of the
WaitGroup, which it has from the start. A stream that is spawned while a close is on its way, or whose
token is not pushed when the tokens are taken, is waited for and never cancelled. In runs without such
streams the tokens taken by a close are those of all streams that run.
-/

namespace Iscp.Conn

variable {n m : Nat} {s s' : State n m} {a : Action n m} {evs log : List (Event n m)} {c : Fin m}
  {pc : ClosePc n}

/-- The streams that a close waits for were cancelled by it or by a close before. -/
def StreamsCancelled (s : State n m) : Prop :=
  ∀ c, s.closes c = .waitingStreams → ∀ o, s.streamRuns o = true → s.cancelled o = true

/-- No stream is spawned while a close ends the streams, and no close takes the tokens while that of a
running stream is not pushed. -/
def SpawnsOutside (s : State n m) : Action n m → Prop
  | .spawn _ => ∀ c, (s.closes c).closesStreams = false
  | .takeStreamCt _ => ∀ o, s.streamRuns o = true → s.opens o ≠ .spawned
  | _ => True

instance : ∀ a, Decidable (SpawnsOutside s a)
  | .spawn _ => inferInstanceAs (Decidable (∀ _, _))
  | .takeStreamCt _ => inferInstanceAs (Decidable (∀ _, _))
  | .readPermits _ | .readCt _ | .streamWaitGroup _ | .openFailed .. | .dropOpen _
  | .pushStreamCt _ | .streamExit _ | .acquire _ | .poll _ | .takeWaiter _ | .cancel _
  | .streamsExited _ | .connExited _ | .dropPermit _ | .dropClose _ | .loopExit =>
    inferInstanceAs (Decidable True)

/-- The tokens that are still to be cancelled. -/
def ClosePc.tokens : ClosePc n → List (Fin n)
  | tokensTaken streamCt | cancelling streamCt => streamCt
  | _ => []

theorem ClosePc.holdsPermit_of_closesStreams (h : pc.closesStreams = true) :
    pc.holdsPermit = true := by
  cases pc <;> first | rfl | cases h

/-- Every stream that runs was cancelled, or its token is where a close finds it. -/
structure Accounted (s : State n m) : Prop where
  guarded : Guarded s
  poisoned : s.streamCt.poisoned = true → ∀ c, (s.closes c).closesStreams = false
  /-- Between two closes. -/
  outside : (∀ c, (s.closes c).closesStreams = false) → s.streamCt.poisoned = false →
    ∀ o, s.streamRuns o = true →
      s.cancelled o = true ∨ o ∈ s.streamCt.value ∨ s.opens o = .spawned
  inside : ∀ c, (s.closes c).closesStreams = true → ∀ o, s.streamRuns o = true →
    s.cancelled o = true ∨ o ∈ (s.closes c).tokens

theorem State.streamRuns_of {o : Fin n} (hr : s'.streamRuns o = true)
    (hw : s'.waitGroup o = s.waitGroup o) (ho : s.opens o ≠ .requesting) : s.streamRuns o = true := by
  have hw : s.waitGroup o = true := hw ▸ (Bool.and_eq_true_iff.1 hr).1
  simp [streamRuns, hw, ho]

theorem Guarded.closesStreams_eq_false (h : Guarded s) (hc : (s.closes c).holdsPermit = true)
    (hs : (s.closes c).closesStreams = false) (b : Fin m) : (s.closes b).closesStreams = false := by
  rw [Bool.eq_false_iff]
  intro hb
  obtain rfl := h.unique (ClosePc.holdsPermit_of_closesStreams hb) hc
  rw [hs] at hb
  cases hb

theorem Guarded.closesStreams_endClose (h : Guarded s) (hc : (s.closes c).holdsPermit = true)
    (b : Fin m) : ((s.endClose c).closes b).closesStreams = false := by
  rw [Bool.eq_false_iff]
  intro hb
  obtain hpc | hpc | ⟨hpc, hne⟩ := State.closes_endClose (s := s) (c := c) (b := b) rfl
  · rw [hpc] at hb; cases hb
  · rw [hpc] at hb; cases hb
  · rw [← hpc] at hb
    exact hne (h.unique (ClosePc.holdsPermit_of_closesStreams hb) hc)

namespace Accounted

/-- A step that leaves the closes which end streams as they are, and loses no token. -/
theorem frame (h : Accounted s) (hg : Guarded s')
    (hc : ∀ b, (s.closes b).closesStreams = true ∨ (s'.closes b).closesStreams = true →
      s'.closes b = s.closes b)
    (hp : s'.streamCt.poisoned = s.streamCt.poisoned) (hcan : s'.cancelled = s.cancelled)
    (ho : ∀ o, s'.streamRuns o = true → s.streamRuns o = true ∧ (s.streamCt.poisoned = false →
      o ∈ s.streamCt.value ∨ s.opens o = .spawned →
        o ∈ s'.streamCt.value ∨ s'.opens o = .spawned)) : Accounted s' where
  guarded := hg
  poisoned hp' b := by
    rw [Bool.eq_false_iff]
    intro hb
    have hn := h.poisoned (hp ▸ hp') b
    rw [← hc b (.inr hb)] at hn
    exact absurd hb (Bool.eq_false_iff.1 hn)
  outside hn hp' o hr := by
    obtain ⟨hr, hm⟩ := ho o hr
    rw [hp] at hp'
    rw [hcan]
    refine (h.outside (fun b => ?_) hp' o hr).imp_right (hm hp')
    rw [Bool.eq_false_iff]
    intro hb
    have := hn b
    rw [hc b (.inl hb), hb] at this
    cases this
  inside b hb o hr := by
    rw [hcan, hc b (.inr hb)]
    rw [hc b (.inr hb)] at hb
    exact h.inside b hb o (ho o hr).1

theorem openMoves (h : Accounted s) (hg : Guarded s') {o : Fin n} {pc : OpenPc}
    (h1 : s.opens o ≠ .requesting) (h2 : s.opens o ≠ .spawned)
    (ho : s'.opens = Function.update s.opens o pc) (hw : s'.waitGroup = s.waitGroup)
    (hc : s'.closes = s.closes) (hct : s'.streamCt = s.streamCt) (hcan : s'.cancelled = s.cancelled) :
    Accounted s' := by
  refine h.frame hg (fun _ _ => by rw [hc]) (by rw [hct]) hcan fun o' hr => ?_
  rw [hct]
  by_cases he : o' = o
  · subst he
    exact ⟨State.streamRuns_of hr (by rw [hw]) h1, fun _ hm => .inl (hm.resolve_right h2)⟩
  · rw [State.streamRuns, hw, ho, Function.update_of_ne he] at hr
    rw [ho, Function.update_of_ne he]
    exact ⟨hr, fun _ hm => hm⟩

theorem release (h : Accounted s) {o : Fin n} (hs : s'.waitGroup o = false)
    (hw : ∀ o', o' ≠ o → s'.waitGroup o' = s.waitGroup o' ∧ s'.opens o' = s.opens o')
    (hc : s'.closes = s.closes) (hsem : s'.closeSemaphore = s.closeSemaphore)
    (hct : s'.streamCt = s.streamCt) (hcan : s'.cancelled = s.cancelled) : Accounted s' := by
  refine h.frame ?_ (fun _ _ => by rw [hc]) (by rw [hct]) hcan fun o' hr => ?_
  · have := h.guarded
    rwa [Guarded, ← hsem, ← hc] at this
  · have he : o' ≠ o := by
      rintro rfl
      simp [State.streamRuns, hs] at hr
    obtain ⟨h1, h2⟩ := hw o' he
    rw [State.streamRuns, h1, h2] at hr
    rw [hct, h2]
    exact ⟨hr, fun _ hm => hm⟩

theorem closeMoves (h : Accounted s) (hg : Guarded s') (h1 : (s.closes c).closesStreams = false)
    (h2 : pc.closesStreams = false) (hc : s'.closes = Function.update s.closes c pc)
    (hw : s'.waitGroup = s.waitGroup) (ho : s'.opens = s.opens) (hct : s'.streamCt = s.streamCt)
    (hcan : s'.cancelled = s.cancelled) : Accounted s' := by
  refine h.frame hg (fun b hb => ?_) (by rw [hct]) hcan fun o hr => ?_
  · rw [hc] at hb ⊢
    by_cases he : b = c
    · subst he
      simp [h1, h2] at hb
    · rw [Function.update_of_ne he]
  · rw [State.streamRuns, hw, ho] at hr
    rw [hct, ho]
    exact ⟨hr, fun _ hm => hm⟩

theorem at_close (h : Accounted s) (hc : s.closes c = pc) (hpc : pc.closesStreams = true) {o : Fin n}
    (hr : s.streamRuns o = true) : s.cancelled o = true ∨ o ∈ pc.tokens := by
  have hm := h.inside c (by rw [hc, hpc]) o hr
  rwa [hc] at hm

theorem goOn (h : Accounted s) (hg : Guarded s') (hc : (s.closes c).closesStreams = true)
    (hpc : s'.closes c = pc) (hcs : pc.closesStreams = true)
    (hp : s'.streamCt.poisoned = s.streamCt.poisoned)
    (ho : ∀ o, s'.streamRuns o = true → s'.cancelled o = true ∨ o ∈ pc.tokens) : Accounted s' where
  guarded := hg
  poisoned hp' := by
    have := h.poisoned (hp ▸ hp') c
    rw [hc] at this
    cases this
  outside hn := by
    have := hn c
    rw [hpc, hcs] at this
    cases this
  inside b hb o hr := by
    obtain rfl := hg.unique (ClosePc.holdsPermit_of_closesStreams hb)
      (ClosePc.holdsPermit_of_closesStreams (hpc ▸ hcs))
    rw [hpc]
    exact ho o hr

theorem endClose (h : Accounted s) {e : Event n m} (he : Ends s c e) : Accounted (s.endClose c) where
  guarded := h.guarded.endClose he.holdsPermit
  poisoned _ := h.guarded.closesStreams_endClose he.holdsPermit
  inside b hb := by
    rw [h.guarded.closesStreams_endClose he.holdsPermit] at hb
    cases hb
  outside _ hp o hr := by
    cases hcs : (s.closes c).closesStreams with
    | true =>
      cases he with
      | streams hc => exact .inl ((h.at_close hc rfl hr).resolve_right List.not_mem_nil)
      | granted hc | conn hc | closed hc | panicked hc _ => rw [hc] at hcs; cases hcs
    | false =>
      exact h.outside (h.guarded.closesStreams_eq_false he.holdsPermit hcs) hp o hr

theorem step (h : Accounted s) (hC : SpawnsOutside s a) (hs : Step s a s' evs) : Accounted s' := by
  have hg := h.guarded.step hs
  cases hs with
  | permitsRead ho | noPermits ho | checked ho | ctCancelled ho | noWaiter ho _ =>
    exact h.openMoves hg (by simp [ho]) (by simp [ho]) rfl rfl rfl rfl rfl
  | @streamWaitGroup o ho =>
    refine h.frame hg (fun _ _ => rfl) rfl rfl fun o' hr => ?_
    have he : o' ≠ o := by
      rintro rfl
      simp [State.streamRuns, State.setWaitGroup, State.setOpen] at hr
    simp only [State.streamRuns, State.waitGroup_setWaitGroup, if_neg he] at hr
    have hr' : (s.waitGroup o' && (s.setOpen o .requesting).opens o' != .requesting) = true := hr
    have hm : (s.setOpen o .requesting).opens o' = s.opens o' := by
      rw [State.opens_setOpen, if_neg he]
    rw [hm] at hr'
    refine ⟨hr', fun _ h => ?_⟩
    show _ ∨ (s.setOpen o .requesting).opens o' = _
    rw [hm]
    exact h
  | @openFailed o _ _ | @dropOpen o _ =>
    refine h.release (o := o) (by simp [State.setWaitGroup]) (fun o' he => ?_) rfl rfl rfl rfl
    refine ⟨?_, ?_⟩
    · rw [State.waitGroup_setWaitGroup, if_neg he]; rfl
    · show (s.setOpen o .ended).opens o' = _
      rw [State.opens_setOpen, if_neg he]
  | @streamExit o _ =>
    refine h.release (o := o) (by simp [State.setWaitGroup]) (fun o' he => ?_) rfl rfl rfl rfl
    rw [State.waitGroup_setWaitGroup, if_neg he]
    exact ⟨rfl, rfl⟩
  | @spawn o ho =>
    refine ⟨hg, fun _ => hC, fun _ hp o' hr => ?_, fun b hb => ?_⟩
    · by_cases he : o' = o
      · exact .inr (.inr (by rw [State.opens_setOpen, if_pos he]))
      · simp only [State.streamRuns, State.opens_setOpen, if_neg he] at hr ⊢
        exact h.outside hC hp o' hr
    · have hb : (s.closes b).closesStreams = true := hb
      rw [hC b] at hb
      cases hb
  | @push o ho hp =>
    refine h.frame hg (fun _ _ => rfl) rfl rfl fun o' hr => ?_
    by_cases he : o' = o
    · subst he
      exact ⟨State.streamRuns_of hr rfl (by simp [ho]), fun _ _ => .inl (by simp [State.setOpen])⟩
    · simp only [State.streamRuns, State.opens_setOpen, if_neg he] at hr ⊢
      exact ⟨hr, fun _ hm => hm.imp_left (List.mem_append_left _)⟩
  | @pushPanicked o ho hp =>
    refine h.frame hg (fun _ _ => rfl) rfl rfl fun o' hr => ?_
    refine ⟨?_, fun hp' => absurd hp (by simp [hp'])⟩
    by_cases he : o' = o
    · subst he
      exact State.streamRuns_of hr rfl (by simp [ho])
    · simp only [State.streamRuns, State.opens_setOpen, if_neg he] at hr
      exact hr
  | acquireClosed hc | acquire hc _ _ | queue hc _ | pollGranted hc | pollClosed hc | connExited hc
  | dropQueued hc =>
    exact h.closeMoves hg (by simp [hc, ClosePc.closesStreams]) rfl rfl rfl rfl rfl rfl
  | @takeStreamCt c hc hp =>
    have hn := h.guarded.closesStreams_eq_false (c := c) (by simp [hc, ClosePc.holdsPermit])
      (by simp [hc, ClosePc.closesStreams])
    refine ⟨hg, fun hp' => ?_, fun hn' => ?_, fun b hb o hr => ?_⟩
    · have : s.streamCt.poisoned = true := hp'
      simp [hp] at this
    · have := hn' c
      simp [State.closes_setClose, ClosePc.closesStreams] at this
    · by_cases he : b = c
      · rw [State.closes_setClose, if_pos he]
        exact (h.outside hn hp o hr).imp_right fun hm => hm.resolve_right (hC o hr)
      · rw [State.closes_setClose, if_neg he] at hb
        exact absurd hb (Bool.eq_false_iff.1 (hn b))
  | @takeWaiter c streamCt hc _ =>
    exact h.goOn (c := c) hg (by rw [hc]; rfl) (Function.update_self ..) rfl rfl
      fun o hr => h.at_close hc rfl hr
  | @cancel c o streamCt hc =>
    refine h.goOn (c := c) hg (by rw [hc]; rfl) (Function.update_self ..) rfl rfl fun o' hr => ?_
    have hm := h.at_close hc rfl hr
    by_cases he : o' = o
    · subst he
      exact .inl (by simp [State.setClose])
    · refine hm.imp (fun hm => ?_) fun hm => ?_
      · simpa [State.setClose, he] using hm
      · exact (List.mem_cons.1 hm).resolve_left he
  | @allCancelled c hc =>
    exact h.goOn (c := c) hg (by rw [hc]; rfl) (Function.update_self ..) rfl rfl
      fun o hr => h.at_close hc rfl hr
  | @streamsExited c hc hw =>
    -- Nothing is left that a close would have to find.
    have hr : ∀ o, s.streamRuns o = false := fun o => by simp [State.streamRuns, hw o]
    refine ⟨hg, fun hp b => ?_, fun _ _ o ho => ?_, fun b _ o ho => ?_⟩
    · have := h.poisoned hp c
      simp [hc, ClosePc.closesStreams] at this
    · exact absurd ho (Bool.eq_false_iff.1 (hr o))
    · exact absurd ho (Bool.eq_false_iff.1 (hr o))
  | @takePanicked c streamCt hc _ =>
    have hn := h.guarded.closesStreams_endClose (c := c) (by simp [hc, ClosePc.holdsPermit])
    refine ⟨hg, fun _ => hn, fun _ hp => ?_, fun b hb => ?_⟩
    · cases hp
    · exact absurd hb (Bool.eq_false_iff.1 (hn b))
  | endClose he => exact h.endClose he
  | loopExit => exact h.frame hg (fun _ _ => rfl) rfl rfl fun o hr => ⟨hr, fun _ hm => hm⟩

theorem init : Accounted (machine n m).init :=
  ⟨Guarded.init, nofun, fun _ _ _ => nofun, fun _ => nofun⟩

end Accounted

/-- In every run whose steps meet `SpawnsOutside`, no stream that a close waits for is left out of those
that it cancels. -/
theorem streams_cancelled (h : (machine n m).Exec (fun _ => SpawnsOutside) log s) :
    StreamsCancelled s := by
  have hA : Accounted s := by
    refine h.invariant (I := fun _ s => Accounted s) Accounted.init ?_
    intro _ s a s' evs _ hA hC hs
    exact hA.step hC (.of_step hs)
  intro c hc o hr
  exact (hA.at_close hc rfl hr).resolve_right List.not_mem_nil

/-- A close waits for a stream that it has cancelled. -/
theorem streams_cancelled_one :
    ∃ log, ∃ s : State 1 1, (machine 1 1).Exec (fun _ => SpawnsOutside) log s ∧
      (s.closes 0 = .waitingStreams ∧ s.streamRuns 0 = true) ∧ StreamsCancelled s := by
  obtain ⟨log, s, h, hp⟩ := Machine.Exec.exists_of_any (M := machine 1 1)
    (C := fun _ => SpawnsOutside)
    [.readPermits 0, .readCt 0, .streamWaitGroup 0, .spawn 0, .pushStreamCt 0, .acquire 0,
      .takeStreamCt 0, .takeWaiter 0, .cancel 0, .cancel 0]
    (P := fun _ s => s.closes 0 = .waitingStreams ∧ s.streamRuns 0 = true) (by decide +kernel)
  exact ⟨log, s, h, hp, streams_cancelled h⟩

/-- The open response comes while a close waits for the streams. -/
theorem streams_cancelled_late :
    ¬ ∀ (n m : Nat) (log : List (Event n m)) (s : State n m), (machine n m).Run log s →
      StreamsCancelled s := by
  intro h
  obtain ⟨log, s, hr, hc, ho, hcan⟩ := Machine.Exec.exists_of_any (M := machine 1 1)
    (C := fun _ _ _ => True)
    [.readPermits 0, .readCt 0, .streamWaitGroup 0, .acquire 0, .takeStreamCt 0, .takeWaiter 0,
      .cancel 0, .spawn 0, .pushStreamCt 0]
    (P := fun _ s => s.closes 0 = .waitingStreams ∧ s.streamRuns 0 = true ∧ s.cancelled 0 = false)
    (by decide +kernel)
  have := h 1 1 log s hr 0 hc 0 ho
  rw [hcan] at this
  cases this

end Iscp.Conn
