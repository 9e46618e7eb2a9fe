import Iscp.Downstream.Exits
import Iscp.Downstream.MetadataRounds
import Iscp.Downstream.ReorderSpec
import Iscp.Lib.Progress

/-!
# How a cancelled downstream ends

Once its token is cancelled the loop needs nobody to come to its end, with one exception: it does not look at
the token while it waits for room in a channel of the application. There it is held up (`HeldUp`) until the
application reads from that channel or drops it.
-/

namespace Iscp

/-! ### How many chunks are stored -/

namespace DownReorderer

variable {r r' : DownReorderer} {u v : Uuid} {n : Nat} {k : UInt32} {chunk : DownstreamChunk} {it it' : DownReordererIter}

/-- `n` bounds the number of the chunks that are stored, for all upstreams together. -/
def Holds (r : DownReorderer) (n : Nat) : Prop :=
  ∃ keys : List (Uuid × UInt32), keys.length = n ∧ ∀ u k, k ∈ r.stored u → (u, k) ∈ keys

theorem holds_new (config : DownstreamConfig) : (new config).Holds 0 := by
  refine ⟨[], rfl, fun u k hk => ?_⟩
  rw [stored, new] at hk
  exact absurd hk Std.ExtTreeMap.not_mem_empty

theorem mem_stored_register {n : UInt32} (h : k ∈ (r.register v n).stored u) : k ∈ r.stored u := by
  unfold register at h
  split at h
  · exact h
  · by_cases hu : u = v
    · subst hu
      simp [stored] at h
    · simpa [stored, Function.update_of_ne hu] using h

theorem Holds.iter (h : r.Holds n) (hi : r.iter chunk = (.ok it, r')) :
    ∃ m, r'.Holds m ∧ m + it.held.length ≤ n + 1 := by
  obtain ⟨keys, rfl, hkeys⟩ := h
  unfold DownReorderer.iter at hi
  split at hi
  · dsimp only at hi
    split at hi
    · cases hi
    · obtain ⟨hit, rfl⟩ := Prod.mk.inj hi
      obtain rfl := Except.ok.inj hit
      refine ⟨_, ⟨(chunk.upstream.streamId, chunk.sequenceNumber) :: keys, rfl, fun u k hk => ?_⟩, le_refl _⟩
      by_cases hu : u = chunk.upstream.streamId
      · subst hu
        rw [stored_setStore, Std.ExtTreeMap.mem_insert, Std.compare_eq_iff_eq] at hk
        rcases hk with rfl | hk
        · exact List.mem_cons_self
        · exact List.mem_cons_of_mem _ (hkeys _ _ (mem_stored_register hk))
      · rw [stored_setStore_of_ne hu] at hk
        exact List.mem_cons_of_mem _ (hkeys _ _ (mem_stored_register hk))
  · obtain ⟨hit, rfl⟩ := Prod.mk.inj hi
    obtain rfl := Except.ok.inj hit
    exact ⟨_, ⟨keys, rfl, hkeys⟩, le_refl _⟩

theorem Holds.iter_error {e : Error} (h : r.Holds n) (hi : r.iter chunk = (.error e, r')) : r'.Holds n := by
  obtain ⟨keys, hn, hkeys⟩ := h
  unfold DownReorderer.iter at hi
  split at hi
  · dsimp only at hi
    split at hi
    · obtain ⟨-, rfl⟩ := Prod.mk.inj hi
      exact ⟨keys, hn, fun u k hk => hkeys u k (mem_stored_register hk)⟩
    · cases hi
  · cases hi

/-- What an iterator gives out is one chunk less, of those stored and of that which it holds itself. -/
theorem Holds.iterNext (h : r.Holds n) (hi : r.iterNext it = (some chunk, it', r')) :
    ∃ m, r'.Holds m ∧ m + it'.held.length < n + it.held.length := by
  cases it with
  | notReordered c =>
    cases hi
    exact ⟨n, h, Nat.lt_succ_self n⟩
  | reordered u =>
    obtain ⟨hc, hi⟩ := Prod.mk.inj hi
    obtain ⟨rfl, hr⟩ := Prod.mk.inj hi
    obtain ⟨j, next, hj, rfl⟩ := pop_eq_some (Prod.ext hc hr)
    obtain ⟨keys, rfl, hkeys⟩ := h
    have hmem : (u, j) ∈ keys := hkeys u j (Std.ExtTreeMap.mem_iff_isSome_getElem?.2 (by rw [hj]; rfl))
    refine ⟨_, ⟨keys.erase (u, j), rfl, fun v k hk => ?_⟩, ?_⟩
    · rw [stored_setNext] at hk
      by_cases hv : v = u
      · subst hv
        rw [stored_setStore, Std.ExtTreeMap.mem_erase] at hk
        refine (List.mem_erase_of_ne fun he => ?_).2 (hkeys v k hk.2)
        rw [(Prod.mk.inj he).2] at hk
        exact hk.1 Std.compare_self
      · rw [stored_setStore_of_ne hv] at hk
        exact (List.mem_erase_of_ne fun he => hv (Prod.mk.inj he).1).2 (hkeys v k hk)
    · have := List.length_erase_of_mem hmem
      have := List.length_pos_of_mem hmem
      show (keys.erase (u, j)).length + 0 < keys.length + 0
      omega

end DownReorderer

/-! ### What the loop has left to do -/

namespace Downstream

variable {o : Opened} {s s' : State} {log evs later : List Event} {n : Nat}

namespace LoopPc

/-- How far it is from here to the end, with nothing received and nothing to emit. -/
def rank : LoopPc → Nat
  | .exited => 0
  | .guardDropped _ => 1
  | .returned _ => 2
  | .closing => 3
  | .waitComplete => 4
  | .connEnd => 5
  | .sendingLastAck _ => 6
  | .drained => 7
  | .draining => 8
  | .drainEmitting _ | .drainMetadataAck _ => 9
  | .reading => 10
  | .emitting _ | .metadataAck _ | .sendingAck _ => 11
  | .sending _ _ | .sendingMetadata _ _ => 12
  | .resuming => 13

/-- The chunks that the loop's iterator holds itself. -/
def held (loop : LoopPc) : List DownstreamChunk := (loop.iter?.map (·.held)).getD []

end LoopPc

/-- A message may be a chunk, which is stored, and a stored chunk may have to be sent. -/
def State.left (s : State) (n : Nat) : Nat :=
  5 * s.rxMsg.length + 2 * (n + s.loop.held.length) + s.loop.rank + if s.resume.running then 1 else 0

/-- The steps that the loop takes without a message, a connection, a timer or the application. -/
def Action.internal : Action → Bool
  | .loop .ackInterval => false
  | .loop _ => true
  | .resume .cancelled => true
  | _ => false

theorem left_lt {loop : LoopPc} (hl : s.loop = loop) (hn : s.reorderer.Holds n) (hr : s'.reorderer = s.reorderer)
    (hres : s'.resume = s.resume) (hrx : s'.rxMsg.length ≤ s.rxMsg.length) (hheld : s'.loop.held.length ≤ loop.held.length)
    (hrank : s'.loop.rank < loop.rank) : ∃ m, s'.reorderer.Holds m ∧ s'.left m < s.left n := by
  refine ⟨n, hr ▸ hn, ?_⟩
  rw [State.left, State.left, hres, hl]
  omega

theorem left_taken {loop : LoopPc} {msg : ReceivableDownstreamMsg} {rxMsg : List ReceivableDownstreamMsg} (hl : s.loop = loop)
    (hm : s.rxMsg = msg :: rxMsg) (hn : s.reorderer.Holds n) (hr : s'.reorderer = s.reorderer) (hres : s'.resume = s.resume)
    (hrx : s'.rxMsg = rxMsg) (hheld : s'.loop.held = []) (hrank : s'.loop.rank < loop.rank + 5) :
    ∃ m, s'.reorderer.Holds m ∧ s'.left m < s.left n := by
  refine ⟨n, hr ▸ hn, ?_⟩
  rw [State.left, State.left, hres, hl, hm, hrx, hheld, List.length_cons, List.length_nil]
  omega

theorem onChunk_left {loop : LoopPc} {chunk : Message.DownstreamChunk} {rxMsg : List ReceivableDownstreamMsg} {skip : LoopPc}
    {emit : DownReordererIter → LoopPc} (hl : s.loop = loop) (hm : s.rxMsg = .chunk chunk :: rxMsg) (hn : s.reorderer.Holds n)
    (hloop : 2 ≤ loop.rank) (hskip : skip.rank = loop.rank ∧ skip.held = [])
    (hemit : ∀ it, (emit it).rank = loop.rank + 1 ∧ (emit it).held = it.held)
    (h : { s with rxMsg := rxMsg }.onChunk o.config chunk skip emit = (s', evs)) :
    ∃ m, s'.reorderer.Holds m ∧ s'.left m < s.left n := by
  unfold State.onChunk at h
  dsimp only at h
  split at h
  · split at h <;> rename_i hit <;> obtain ⟨rfl, -⟩ := Prod.mk.inj h
    · obtain ⟨m, hm', hle⟩ := hn.iter hit
      refine ⟨m, hm', ?_⟩
      rw [State.left, State.left, hl, hm, List.length_cons]
      dsimp only
      rw [(hemit _).1, (hemit _).2]
      omega
    · refine ⟨n, hn.iter_error hit, ?_⟩
      rw [State.left, State.left, hl, hm, List.length_cons]
      show 5 * rxMsg.length + 2 * (n + 0) + 2 + _ < _
      dsimp only
      omega
  · obtain ⟨rfl, -⟩ := Prod.mk.inj h
    exact left_taken hl hm hn rfl rfl rfl hskip.2 (by show skip.rank < _; omega)
  · obtain ⟨rfl, -⟩ := Prod.mk.inj h
    exact left_taken hl hm hn rfl rfl rfl rfl (by show 2 < _; omega)

/-- With the token cancelled the loop does not start over, and every step leaves less to do. -/
theorem loopStep_left {a : LoopAction} (h : loopStep o s a = some (s', evs)) (hct : s.ct) (ha : a ≠ .ackInterval)
    (hn : s.reorderer.Holds n) : ∃ m, s'.reorderer.Holds m ∧ s'.left m < s.left n := by
  have lower {loop : LoopPc} (hl : s.loop = loop) (hr : s'.reorderer = s.reorderer) (hres : s'.resume = s.resume)
      (hrx : s'.rxMsg = s.rxMsg) (hheld : s'.loop.held = []) (hrank : s'.loop.rank < loop.rank) :
      ∃ m, s'.reorderer.Holds m ∧ s'.left m < s.left n :=
    left_lt hl hn hr hres (by rw [hrx]) (by rw [hheld]; exact Nat.zero_le _) hrank
  cases a with
  | ackInterval => exact absurd rfl ha
  | joined =>
    simp only [loopStep] at h
    split at h <;> cases h <;> rename_i hl _ <;> exact lower hl rfl rfl rfl rfl (by simp [LoopPc.rank])
  | recv =>
    simp only [loopStep] at h
    split at h
    · rename_i msg rxMsg hl hm
      cases msg with
      | chunk chunk =>
        exact onChunk_left hl hm hn (by simp [LoopPc.rank]) ⟨rfl, rfl⟩ (fun _ => ⟨rfl, rfl⟩) (Option.some.inj h)
      | metadata metadata =>
        simp only [State.onMsg] at h
        split at h <;> cases h
        · exact left_taken hl hm hn rfl rfl rfl rfl (by simp [LoopPc.rank])
        · exact left_taken hl hm hn rfl rfl rfl (by simp only [hl]; rfl) (by simp [hl])
      | chunkAckComplete complete =>
        cases h
        exact left_taken hl hm hn rfl rfl rfl (by simp only [State.checkChunkAckComplete, hl]; rfl)
          (by simp [State.checkChunkAckComplete, hl])
    · rename_i hl _
      split at h <;> cases h
      exact lower hl rfl rfl rfl rfl (by simp [LoopPc.rank])
    · cases h
  | cancelled =>
    simp only [loopStep] at h
    split at h
    · rename_i hl
      rw [if_pos hct] at h
      cases h
      exact lower hl rfl rfl rfl rfl (by simp [LoopPc.rank])
    · cases h
  | next =>
    simp only [loopStep] at h
    split at h
    · rename_i it hl
      split at h <;> rename_i hit <;> cases h
      · obtain ⟨m, hm, hlt⟩ := hn.iterNext hit
        refine ⟨m, hm, ?_⟩
        rw [State.left, State.left, hl]
        simp only [LoopPc.rank, LoopPc.held, LoopPc.iter?, Option.map_some, Option.getD_some]
        omega
      · obtain ⟨rfl, -⟩ := DownReorderer.iterNext_eq_none hit
        exact lower hl rfl rfl rfl rfl (by simp [LoopPc.rank])
    · cases h
  | sent =>
    simp only [loopStep] at h
    split at h
    · rename_i hl
      split at h
      · cases h
        exact lower hl rfl rfl rfl rfl (by simp [LoopPc.rank])
      · split at h <;> cases h
        exact left_lt hl hn rfl rfl (le_refl _) (le_refl _) (by simp [LoopPc.rank])
    · cases h
  | metadataSent =>
    simp only [loopStep] at h
    split at h
    · rename_i hl
      split at h
      · cases h
        exact lower hl rfl rfl rfl rfl (by simp [LoopPc.rank])
      · split at h <;> cases h
        exact lower hl rfl rfl rfl rfl (by simp [LoopPc.rank])
    · cases h
  | wireSent result =>
    simp only [loopStep] at h
    split at h <;> cases h <;> rename_i hl <;> exact lower hl rfl rfl rfl rfl (by simp [LoopPc.rank])
  | drain =>
    simp only [loopStep] at h
    split at h
    · rename_i msg rxMsg hl hm
      cases msg with
      | chunk chunk =>
        exact onChunk_left hl hm hn (by simp [LoopPc.rank]) ⟨rfl, rfl⟩ (fun _ => ⟨rfl, rfl⟩) (Option.some.inj h)
      | metadata metadata =>
        have hpc (b : Bool) (ack : Message.DownstreamMetadataAck) :
            LoopPc.held (if b then .drainMetadataAck ack else .draining) = [] ∧
              LoopPc.rank (if b then .drainMetadataAck ack else .draining) < LoopPc.draining.rank + 5 := by
          cases b <;> exact ⟨rfl, by simp [LoopPc.rank]⟩
        simp only [State.onDrained] at h
        split at h
        · split at h <;> cases h <;> exact left_taken hl hm hn rfl rfl rfl (hpc _ _).1 (hpc _ _).2
        · cases h
          exact left_taken hl hm hn rfl rfl rfl (by simp only [hl]; rfl) (by simp [hl])
      | chunkAckComplete complete =>
        cases h
        exact left_taken hl hm hn rfl rfl rfl (by simp only [State.checkChunkAckComplete, hl]; rfl)
          (by simp [State.checkChunkAckComplete, hl])
    · rename_i hl _
      cases h
      exact lower hl rfl rfl rfl rfl (by simp [LoopPc.rank])
    · cases h
  | drainNext =>
    simp only [loopStep] at h
    split at h
    · rename_i it hl
      split at h <;> rename_i hit
      · obtain ⟨m, hm, hlt⟩ := hn.iterNext hit
        split at h <;> cases h <;> refine ⟨m, hm, ?_⟩ <;> rw [State.left, State.left, hl] <;>
          simp only [LoopPc.rank, LoopPc.held, LoopPc.iter?, Option.map_some, Option.getD_some] <;> omega
      · obtain ⟨rfl, -⟩ := DownReorderer.iterNext_eq_none hit
        cases h
        exact lower hl rfl rfl rfl rfl (by simp [LoopPc.rank])
    · cases h
  | ackAfterDrain =>
    simp only [loopStep] at h
    split at h
    · rename_i hl
      split at h
      · split at h <;> cases h <;> exact lower hl rfl rfl rfl rfl (by simp [LoopPc.rank])
      · cases h
        exact lower hl rfl rfl rfl rfl (by simp [LoopPc.rank])
    · cases h
  | connEnd =>
    simp only [loopStep] at h
    split at h
    · rename_i hl
      rw [if_pos (.inr hct)] at h
      split at h <;> cases h <;> exact lower hl rfl rfl rfl rfl (by simp [LoopPc.rank])
    · cases h
  | completeRecv =>
    simp only [loopStep] at h
    split at h
    · rename_i hl hm
      split at h <;> cases h
      exact left_taken hl hm hn rfl rfl rfl (by simp only [State.checkChunkAckComplete, hl]; rfl)
        (by simp [State.checkChunkAckComplete, hl])
    · rename_i hl hm
      split at h <;> cases h
      exact left_taken hl hm hn rfl rfl rfl (by simp only [hl]; rfl) (by simp [hl])
    · rename_i hl _
      split at h <;> cases h
      exact lower hl rfl rfl rfl rfl (by simp [LoopPc.rank])
    · cases h
  | completeDone | completeTimedOut =>
    simp only [loopStep] at h
    split at h
    · rename_i hl
      split at h <;> cases h
      exact lower hl rfl rfl rfl rfl (by simp [LoopPc.rank])
    · cases h
  | closeResponded result =>
    have hsame (answer : Except Error Unit) : (s.sendResult answer).reorderer = s.reorderer ∧
        (s.sendResult answer).resume = s.resume ∧ (s.sendResult answer).rxMsg = s.rxMsg := by
      unfold State.sendResult
      split <;> exact ⟨rfl, rfl, rfl⟩
    simp only [loopStep] at h
    split at h
    · rename_i hl
      cases h
      obtain ⟨hr, hres, hrx⟩ := hsame _
      exact lower hl hr hres hrx rfl (by simp [LoopPc.rank])
    · cases h
  | exit | storeCause =>
    simp only [loopStep] at h
    split at h <;> cases h <;> rename_i hl <;> exact lower hl rfl rfl rfl rfl (by simp [LoopPc.rank])

theorem LoopStep.exists_holds {a : LoopAction} (h : LoopStep o s a s' evs) (hn : s.reorderer.Holds n) :
    ∃ m, s'.reorderer.Holds m := by
  have hnext {it it' : DownReordererIter} {chunk : DownstreamChunk} {r : DownReorderer}
      (hit : s.reorderer.iterNext it = (some chunk, it', r)) : ∃ m, r.Holds m :=
    (hn.iterNext hit).imp fun _ hm => hm.1
  cases h with
  | quiet hcore => exact ⟨n, (core_eq hcore).2.2.2.1 ▸ hn⟩
  | converted _ _ _ hit => exact (hn.iter hit).imp fun _ hm => hm.1
  | refused _ _ _ hit => exact ⟨n, hn.iter_error hit⟩
  | next _ hit | drainSent _ hit | drainDropped _ hit => exact hnext hit
  | nextNone _ hit =>
    obtain ⟨rfl, -⟩ := DownReorderer.iterNext_eq_none hit
    exact ⟨n, hn⟩
  | ackTaken | ackSent | ackFailed | sent | readerGone | restart => exact ⟨n, hn⟩

theorem exists_holds {C : List Event → State → Action → Prop} (h : o.machine.Exec C log s) :
    ∃ n, s.reorderer.Holds n := by
  refine h.invariant (I := fun _ s => ∃ n, s.reorderer.Holds n) ⟨0, DownReorderer.holds_new o.config⟩ ?_
  rintro log s a s' evs - ⟨n, hn⟩ - ha
  cases step_step ha with
  | loop hl => exact hl.exists_holds hn
  | resume _ _ hs => exact ⟨n, hs.reorderer ▸ hn⟩
  | env _ _ hs => exact ⟨n, hs.reorderer ▸ hn⟩

theorem onChunk_ct {config : DownstreamConfig} {chunk : Message.DownstreamChunk} {skip : LoopPc}
    {emit : DownReordererIter → LoopPc} : (s.onChunk config chunk skip emit).1.ct = s.ct := by
  unfold State.onChunk
  dsimp only
  split
  · split <;> rfl
  · rfl
  · rfl

theorem onMsg_ct (config : DownstreamConfig) (msg : ReceivableDownstreamMsg) : (s.onMsg config msg).1.ct = s.ct := by
  cases msg with
  | chunk chunk => exact onChunk_ct
  | metadata metadata =>
    simp only [State.onMsg]
    split <;> rfl
  | chunkAckComplete complete => rfl

theorem onDrained_ct (msg : ReceivableDownstreamMsg) : (s.onDrained o msg).1.ct = s.ct := by
  cases msg with
  | chunk chunk => exact onChunk_ct
  | metadata metadata =>
    simp only [State.onDrained]
    split
    · split <;> rfl
    · rfl
  | chunkAckComplete complete => rfl

theorem loopStep_ct {a : LoopAction} (h : loopStep o s a = some (s', evs)) (hct : s.ct) : s'.ct := by
  cases a with
  | recv =>
    simp only [loopStep] at h
    split at h
    · obtain rfl := (Prod.mk.inj (Option.some.inj h)).1
      exact (onMsg_ct _ _).trans hct
    · split at h <;> cases h
      exact hct
    · cases h
  | drain =>
    simp only [loopStep] at h
    split at h
    · obtain rfl := (Prod.mk.inj (Option.some.inj h)).1
      exact (onDrained_ct _).trans hct
    · cases h
      exact hct
    · cases h
  | closeResponded result =>
    simp only [loopStep] at h
    split at h <;> cases h
    show (s.sendResult _).ct
    unfold State.sendResult
    split <;> exact hct
  | joined | ackInterval | wireSent | storeCause =>
    simp only [loopStep] at h
    split at h <;> cases h <;> exact hct
  | exit =>
    simp only [loopStep] at h
    split at h <;> cases h
    rfl
  | cancelled | completeDone | completeTimedOut | completeRecv =>
    simp only [loopStep] at h
    split at h
    all_goals first | cases h | (split at h <;> cases h <;> exact hct)
  | next | drainNext | connEnd | ackAfterDrain =>
    simp only [loopStep] at h
    split at h
    · split at h <;> first
        | (cases h; exact hct)
        | (split at h <;> cases h <;> exact hct)
    · cases h
  | sent | metadataSent =>
    simp only [loopStep] at h
    split at h
    · split at h
      · cases h
        rfl
      · split at h <;> cases h
        exact hct
    · cases h

/-- Nobody takes a cancellation back. -/
theorem step_ct {a : Action} (h : step o s a = some (s', evs)) (hct : s.ct) : s'.ct := by
  cases a with
  | loop a => exact loopStep_ct h hct
  | app a =>
    cases appStep_step h with
    | closeCancel => rfl
    | _ => exact hct
  | cancel =>
    cases h
    rfl
  | resume a =>
    simp only [step] at h
    split at h
    · obtain ⟨_, -, he⟩ := Option.map_eq_some_iff.1 h
      cases he
      split <;> exact hct
    · cases h
  | wire a =>
    obtain ⟨_, -, he⟩ := Option.map_eq_some_iff.1 h
    cases he
    exact hct
  | arrive | senderDropped =>
    simp only [step] at h
    split at h <;> cases h
    exact hct

/-- The loop waits for room in a channel that the application does not read. -/
def Opened.HeldUp (o : Opened) (s : State) : Prop :=
  match s.loop with
  | .sending _ _ => o.channelSize ≤ s.chunks.length ∧ s.chunkReaderDropped = false
  | .sendingMetadata _ _ => o.channelSize ≤ s.metadata.length ∧ s.metadataReaderDropped = false
  | _ => False

instance (o : Opened) (s : State) : Decidable (o.HeldUp s) := by
  unfold Opened.HeldUp; split <;> infer_instance

/-- Unless it is held up there is a step that the loop can take. -/
theorem heldUp_of_stuck (hct : s.ct) (h : ∀ a : Action, a.internal → step o s a = none) :
    s.loop = .exited ∨ o.HeldUp s := by
  have hloop (a : LoopAction) (ha : (Action.loop a).internal) : loopStep o s a = none := h (.loop a) ha
  cases hl : s.loop with
  | exited => exact .inl rfl
  | resuming =>
    have hj := hloop .joined rfl
    have hc : step o s (.resume .cancelled) = none := h _ rfl
    cases hp : s.resume.pc <;>
      simp [loopStep, step, Resume.step, Resume.waiting, hl, hp, hct] at hj hc
  | reading =>
    have hc := hloop .cancelled rfl
    simp [loopStep, hl, hct] at hc
  | emitting it =>
    have hn := hloop .next rfl
    simp only [loopStep, hl] at hn
    split at hn <;> cases hn
  | drainEmitting it =>
    have hn := hloop .drainNext rfl
    simp only [loopStep, hl] at hn
    split at hn
    · split at hn <;> cases hn
    · cases hn
  | sending chunk it =>
    have hs := hloop .sent rfl
    simp only [loopStep, hl] at hs
    split at hs
    · cases hs
    · rename_i hgone
      split at hs
      · cases hs
      · rename_i hroom
        refine .inr ?_
        rw [Opened.HeldUp, hl]
        exact ⟨Nat.le_of_not_lt hroom, by simpa using hgone⟩
  | sendingMetadata metadata ack =>
    have hs := hloop .metadataSent rfl
    simp only [loopStep, hl] at hs
    split at hs
    · cases hs
    · rename_i hgone
      split at hs
      · cases hs
      · rename_i hroom
        refine .inr ?_
        rw [Opened.HeldUp, hl]
        exact ⟨Nat.le_of_not_lt hroom, by simpa using hgone⟩
  | metadataAck ack | sendingAck ack | drainMetadataAck ack | sendingLastAck ack =>
    have hw := hloop (.wireSent (.ok ())) rfl
    simp [loopStep, hl] at hw
  | draining =>
    have hd := hloop .drain rfl
    cases hm : s.rxMsg <;> simp [loopStep, hl, hm] at hd
  | drained =>
    have ha := hloop .ackAfterDrain rfl
    simp only [loopStep, hl] at ha
    split at ha
    · split at ha <;> cases ha
    · cases ha
  | connEnd =>
    have hc := hloop .connEnd rfl
    simp only [loopStep, hl, hct] at hc
    split at hc
    · split at hc <;> cases hc
    · cases hc
  | waitComplete =>
    have hd := hloop .completeDone rfl
    have ht := hloop .completeTimedOut rfl
    simp only [loopStep, hl] at hd ht
    split at hd
    · rename_i hw
      rw [if_pos hw] at ht
      cases ht
    · cases hd
  | closing =>
    have hc := hloop (.closeResponded (.ok ())) rfl
    simp [loopStep, hl] at hc
  | returned result =>
    have he := hloop .exit rfl
    simp [loopStep, hl] at he
  | guardDropped result =>
    have hs := hloop .storeCause rfl
    cases result <;> simp [loopStep, hl] at hs

/-- The channel has room for one chunk, and the loop has another one in its hands. -/
def fullRun : List Action :=
  startRun ++ receiveRun 0 ++ [.arrive (chunkMsg 1), .loop .recv, .loop .next, .cancel]

/-- Once a downstream is cancelled every order of its loop's own steps comes to an end; and it ends with the
loop gone, or waiting for room in a channel that the application neither reads nor drops. -/
theorem cancelled_ends_or_heldUp (h : o.machine.Run log s) (hct : s.ct) :
    o.machine.Ends (fun a => a.internal = true) (fun s => s.loop = .exited ∨ o.HeldUp s) s := by
  obtain ⟨n, hn⟩ := exists_holds h
  refine .of_potential (I := fun s => s.ct = true) (R := fun s k => ∃ n, s.reorderer.Holds n ∧ k = s.left n) ?_ ?_ ?_ hct ⟨n, hn, rfl⟩
  · intro s a s' evs hct _ hs
    exact step_ct hs hct
  · rintro s a s' evs _ hct ⟨n, hn, rfl⟩ ha hs
    have hs : step o s a = some (s', evs) := hs
    cases a with
    | loop a =>
      obtain ⟨m, hm, hlt⟩ := loopStep_left hs hct (fun he => by rw [he] at ha; cases ha) hn
      exact ⟨_, hlt, m, hm, rfl⟩
    | resume a =>
      cases a with
      | cancelled =>
        simp only [step, Resume.step_cancelled] at hs
        split at hs
        · split at hs
          · rename_i hrun
            cases hs
            refine ⟨_, ?_, n, hn, rfl⟩
            rw [State.left, State.left, hrun.2]
            exact Nat.lt_succ_self _
          · cases hs
        · cases hs
      | _ => cases ha
    | _ => cases ha
  · intro s hct hstuck
    exact heldUp_of_stuck hct hstuck

/-- With a full channel the loop is held up. -/
theorem cancelled_ends_or_heldUp_full : ∃ log s, defaultOpened.machine.Run log s ∧ s.ct ∧ defaultOpened.HeldUp s ∧
    defaultOpened.machine.Ends (fun a => a.internal = true) (fun s => s.loop = .exited ∨ defaultOpened.HeldUp s) s := by
  obtain ⟨log, s, h, hct, hheld⟩ := Machine.Exec.exists_of_any (M := defaultOpened.machine) (C := fun _ _ _ => True) fullRun
    (P := fun _ s => s.ct ∧ defaultOpened.HeldUp s) (by decide +kernel)
  exact ⟨log, s, h, hct, hheld, cancelled_ends_or_heldUp h hct⟩

/-! ### While it is held up -/

/-- The calls that a loop which is held up waits for. -/
def LoopPc.awaits : LoopPc → Action → Bool
  | .sending _ _, .app .read | .sending _ _, .app .dropDownstream => true
  | .sendingMetadata _ _, .app .readMetadata | .sendingMetadata _ _, .app .dropMetadataReader => true
  | _, _ => false

/-- The events of the application's calls. -/
def Event.ofApp : Event → Bool
  | .read _ | .readMetadata _ | .closeReturned _ => true
  | _ => false

def Event.chunkRead? : Event → Option DownstreamChunk
  | .read (.ok chunk) => some chunk
  | _ => none

/-- What comes after a state in which the loop is held up: it still is, the application reads what was in its channels
then, and a call of `close` is not answered. -/
structure Stalled (o : Opened) (s : State) (later : List Event) (s' : State) : Prop where
  loop : s'.loop = s.loop
  held : o.HeldUp s'
  reply : s'.reply = none
  calls : ∀ e ∈ later, e.ofApp
  close : ∀ result, .closeReturned result ∈ later → result = .error (.unexpected "close timeout")
  chunks : later.filterMap Event.chunkRead? ++ s'.chunks <+: s.chunks
  metadata : later.filterMap Event.metadataRead? ++ s'.metadata <+: s.metadata

/-- The loop answers a call on its way out only. -/
theorem loopStep_reply {a : LoopAction} (h : loopStep o s a = some (s', evs)) :
    s'.reply = s.reply ∨ s'.loop = .returned (.ok ()) := by
  have same (hs : s'.slot = s.slot) : s'.reply = s.reply := (Prod.mk.inj (Prod.mk.inj hs).2).2
  cases a with
  | closeResponded result =>
    simp only [loopStep] at h
    split at h <;> cases h
    exact .inr rfl
  | recv =>
    simp only [loopStep] at h
    split at h
    · obtain rfl := (Prod.mk.inj (Option.some.inj h)).1
      exact .inl (same (slot_onMsg _))
    · split at h <;> cases h
      exact .inl rfl
    · cases h
  | drain =>
    simp only [loopStep] at h
    split at h
    · obtain rfl := (Prod.mk.inj (Option.some.inj h)).1
      exact .inl (same (slot_onDrained _))
    · cases h
      exact .inl rfl
    · cases h
  | completeRecv =>
    simp only [loopStep] at h
    split at h
    all_goals first | cases h | (split at h <;> cases h; exact .inl rfl)
  | _ => exact .inl (same (loopStep_rest h rfl).1)

theorem reply_eq_none {C : List Event → State → Action → Prop} (h : o.machine.Exec C log s) (hl : s.loop.over = false) :
    s.reply = none := by
  refine h.invariant (I := fun _ s => s.loop.over = false → s.reply = none) (fun _ => rfl) ?_ hl
  intro log s a s' evs _ hi _ hs hl
  have hs : step o s a = some (s', evs) := hs
  cases a with
  | loop a =>
    have hover : s.loop.over = false := by
      by_contra ho
      rw [(loopStep_step hs).over (by simpa using ho)] at hl
      cases hl
    rcases loopStep_reply hs with hr | hr
    · rw [hr, hi hover]
    · rw [hr] at hl
      cases hl
  | app a =>
    cases appStep_step hs with
    | close => rfl
    | _ => exact hi hl
  | _ =>
    obtain ⟨⟨_, _, _, _, _, rfl⟩, -⟩ := step_around hs (by simp) (by simp)
    exact hi hl

theorem Opened.HeldUp.loopStep (h : o.HeldUp s) (a : LoopAction) : loopStep o s a = none := by
  unfold Opened.HeldUp at h
  split at h
  · rename_i hl
    cases a <;> simp [Downstream.loopStep, hl, h.1, h.2]
  · rename_i hl
    cases a <;> simp [Downstream.loopStep, hl, h.1, h.2]
  · cases h

/-- Waiting for room for a metadata has nothing to do with the channel of the chunks. -/
theorem Opened.HeldUp.of_metadata (h : o.HeldUp s) (hne : ∀ chunk it, s.loop ≠ .sending chunk it) (hl : s'.loop = s.loop)
    (hm : s'.metadata = s.metadata ∧ s'.metadataReaderDropped = s.metadataReaderDropped) : o.HeldUp s' := by
  unfold Opened.HeldUp at h ⊢
  rw [hl, hm.1, hm.2]
  split at h
  · exact absurd ‹_› (hne _ _)
  · exact h
  · cases h

theorem Opened.HeldUp.of_chunks (h : o.HeldUp s) (hne : ∀ metadata ack, s.loop ≠ .sendingMetadata metadata ack) (hl : s'.loop = s.loop)
    (hc : s'.chunks = s.chunks ∧ s'.chunkReaderDropped = s.chunkReaderDropped) : o.HeldUp s' := by
  unfold Opened.HeldUp at h ⊢
  rw [hl, hc.1, hc.2]
  split at h
  · exact h
  · exact absurd ‹_› (hne _ _)
  · cases h

namespace Stalled

theorem refl (h : o.HeldUp s) (hr : s.reply = none) : Stalled o s [] s :=
  ⟨rfl, h, hr, by simp, by simp, List.prefix_rfl, List.prefix_rfl⟩

theorem moves {t : State} (h : Stalled o s later t) (hl : s'.loop = t.loop) (hheld : o.HeldUp s') (hr : s'.reply = none)
    (hc : evs.filterMap Event.chunkRead? ++ s'.chunks <+: t.chunks)
    (hm : evs.filterMap Event.metadataRead? ++ s'.metadata <+: t.metadata)
    (he : ∀ e ∈ evs, e.ofApp ∧ ∀ result, e = .closeReturned result → result = .error (.unexpected "close timeout")) :
    Stalled o s (later ++ evs) s' := by
  refine ⟨hl.trans h.loop, hheld, hr, ?_, ?_, ?_, ?_⟩
  · exact List.forall_mem_append.2 ⟨h.calls, fun e hm => (he e hm).1⟩
  · intro result hm
    exact (List.mem_append.1 hm).elim (h.close result) fun hm => (he _ hm).2 result rfl
  · rw [List.filterMap_append, List.append_assoc]
    exact ((List.prefix_append_right_inj _).2 hc).trans h.chunks
  · rw [List.filterMap_append, List.append_assoc]
    exact ((List.prefix_append_right_inj _).2 hm).trans h.metadata

theorem appStep {a : AppAction} {t : State} (h : Stalled o s later t) (ha : t.loop.awaits (.app a) = false)
    (hs : AppStep t a s' evs) : Stalled o s (later ++ evs) s' := by
  cases hs with
  | read _ hc =>
    have hne (chunk it) : t.loop ≠ .sending chunk it := fun hl => by rw [hl] at ha; cases ha
    exact h.moves rfl (h.held.of_metadata hne rfl ⟨rfl, rfl⟩) h.reply (by rw [hc]; exact List.prefix_rfl) List.prefix_rfl
      (by simp [Event.ofApp])
  | dropDownstream =>
    have hne (chunk it) : t.loop ≠ .sending chunk it := fun hl => by rw [hl] at ha; cases ha
    exact h.moves rfl (h.held.of_metadata hne rfl ⟨rfl, rfl⟩) h.reply List.nil_prefix List.prefix_rfl (by simp)
  | readMetadata hm =>
    have hne (metadata ack) : t.loop ≠ .sendingMetadata metadata ack := fun hl => by rw [hl] at ha; cases ha
    exact h.moves rfl (h.held.of_chunks hne rfl ⟨rfl, rfl⟩) h.reply List.prefix_rfl (by rw [hm]; exact List.prefix_rfl)
      (by simp [Event.ofApp])
  | dropMetadataReader =>
    have hne (metadata ack) : t.loop ≠ .sendingMetadata metadata ack := fun hl => by rw [hl] at ha; cases ha
    exact h.moves rfl (h.held.of_chunks hne rfl ⟨rfl, rfl⟩) h.reply List.prefix_rfl List.nil_prefix (by simp)
  | received _ hr =>
    rw [h.reply] at hr
    cases hr
  | readEnded | readMetadataEnded | closeCancel | drop | closeTimedOut =>
    exact h.moves rfl h.held h.reply List.prefix_rfl List.prefix_rfl (by simp [Event.ofApp])
  | close => exact h.moves rfl h.held rfl List.prefix_rfl List.prefix_rfl (by simp)

theorem step {a : Action} {t : State} (h : Stalled o s later t) (ha : t.loop.awaits a = false)
    (hs : step o t a = some (s', evs)) : Stalled o s (later ++ evs) s' := by
  cases a with
  | loop a =>
    rw [Downstream.step, h.held.loopStep a] at hs
    cases hs
  | app a => exact h.appStep ha (appStep_step hs)
  | resume a =>
    simp only [Downstream.step] at hs
    split at hs
    · rename_i hl
      have hheld := h.held
      rw [Opened.HeldUp, hl] at hheld
      cases hheld
    · cases hs
  | wire a =>
    obtain ⟨_, -, he⟩ := Option.map_eq_some_iff.1 hs
    cases he
    exact h.moves rfl h.held h.reply List.prefix_rfl List.prefix_rfl (by simp)
  | arrive | senderDropped =>
    simp only [Downstream.step] at hs
    split at hs <;> cases hs
    exact h.moves rfl h.held h.reply List.prefix_rfl List.prefix_rfl (by simp)
  | cancel =>
    cases hs
    exact h.moves rfl h.held h.reply List.prefix_rfl List.prefix_rfl (by simp)

end Stalled

/-- A downstream that is held up does nothing else: whatever happens to its connection, to its token and to the other
of the application's channels, nothing is delivered, acknowledged or asked for any more, and every call of `close`
times out, as long as the application leaves that one channel alone. -/
theorem heldUp_stalls (h : o.machine.Run log s) (hheld : o.HeldUp s)
    (hlater : (o.machine.startAt s).Exec (fun _ t a => t.loop.awaits a = false) later s') : Stalled o s later s' := by
  have hover : s.loop.over = false := by
    unfold Opened.HeldUp at hheld
    split at hheld
    · rename_i hl
      rw [hl]
      rfl
    · rename_i hl
      rw [hl]
      rfl
    · cases hheld
  refine hlater.invariant (I := fun later t => Stalled o s later t) (.refl hheld (reply_eq_none h hover)) ?_
  intro later t a s' evs _ hi ha hs
  exact hi.step ha hs

/-- A downstream held up with its second chunk: `close` is called, and nothing comes of it. -/
theorem heldUp_stalls_close : ∃ log s, defaultOpened.machine.Run log s ∧ s.ct ∧ defaultOpened.HeldUp s ∧
    ∃ later s', (defaultOpened.machine.startAt s).Exec (fun _ t a => t.loop.awaits a = false) later s' ∧
      .closeReturned (.error (.unexpected "close timeout")) ∈ later ∧ Stalled defaultOpened s later s' := by
  let C : List Event → State → Action → Prop := fun _ t a => t.loop.awaits a = false
  let timesOut (r : List Event × State) : Prop := .closeReturned (.error (.unexpected "close timeout")) ∈ r.1
  let acts : List Action := [.app .close, .app .closeCancel, .app .closeTimedOut]
  obtain ⟨log, s, h, hct, hheld, hlater⟩ := Machine.Exec.exists_of_any (M := defaultOpened.machine)
    (C := fun _ _ _ => True) fullRun
    (P := fun _ s => s.ct ∧ defaultOpened.HeldUp s ∧
      ((defaultOpened.machine.startAt s).exec C acts [] s).any fun r => decide (timesOut r)) (by decide +kernel)
  obtain ⟨later, s', hexec, hclose⟩ := Machine.Exec.exists_of_any (M := defaultOpened.machine.startAt s)
    (C := C) acts (P := fun log s => timesOut (log, s)) hlater
  exact ⟨log, s, h, hct, hheld, later, s', hexec, hclose, heldUp_stalls h hheld hexec⟩

end Downstream
end Iscp
