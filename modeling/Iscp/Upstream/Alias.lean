import Iscp.Upstream.Control

/-!
# The aliases of the chunks an upstream sends

A chunk gets the alias that is in the cell when it is built. The loop builds the chunks it sends at once
while no resume task runs, so their alias is the one that belongs to the connection. What `after_resume`
sends again was built earlier, and only carries the right alias if the resume did not change it.
-/

namespace Iscp.Upstream

variable {o : Opened} {config : UpstreamConfig} {s s' : State} {log evs : List Event}

/-- A chunk handed to a connection carries the alias last assigned on it. -/
def Aliased (pre : List Event) : Event → Prop
  | .handed conn chunk =>
    History.last (ResumeEvent.assigned? conn) (resumeEvents pre) = some chunk.streamIdAlias
  | _ => True

instance (pre : List Event) (e : Event) : Decidable (Aliased pre e) := by
  unfold Aliased; split <;> infer_instance

abbrev ChunksAliased (log : List Event) : Prop := History.Each Aliased log

/-- Where the stored chunks are about to be sent again, they all carry the alias now in the cell. -/
def ResendsCurrent (config : UpstreamConfig) (s : State) : Action → Prop
  | .loop (.resumedCallbackDone _) => config.qos = .reliable →
    ∀ chunk ∈ s.flusher.storage.iterChunks, chunk.streamIdAlias = s.resume.streamIdAlias
  | _ => True

instance (config : UpstreamConfig) (s : State) (a : Action) : Decidable (ResendsCurrent config s a) := by
  unfold ResendsCurrent; split <;> infer_instance

structure AliasedInv (log : List Event) (s : State) : Prop where
  toSend : ∀ chunk ∈ s.loop.toSend, chunk.streamIdAlias = s.resume.streamIdAlias
  handed : ChunksAliased log

theorem Take.aliased {site : TakeSite} {c : Option Message.UpstreamChunk} (h : Take site s s' c evs) :
    ∀ pre, ∀ e ∈ evs, Aliased pre e := by
  intro pre e he
  rcases h.event he with ⟨_, _, rfl⟩ | ⟨_, rfl⟩ <;> trivial

theorem Take.chunk_streamIdAlias {site : TakeSite} {chunk : Message.UpstreamChunk}
    (h : Take site s s' (some chunk) evs) : chunk.streamIdAlias = s.resume.streamIdAlias := by
  cases h with
  | found ht => exact ht.streamIdAlias

theorem AliasedInv.quiet (h : AliasedInv log s) (hl : s'.loop.toSend = [])
    (he : ∀ pre, ∀ e ∈ evs, Aliased pre e) : AliasedInv (log ++ evs) s' :=
  ⟨by simp [hl], h.handed.append_of_forall he⟩

theorem AliasedInv.loopStep {a : LoopAction} (h : AliasedInv log s) (hcon : Control s)
    (halias : s.resume.AliasInv (resumeEvents log)) (hc : ResendsCurrent config s (.loop a))
    (hs : LoopStep config s a s' evs) : AliasedInv (log ++ evs) s' := by
  -- The alias of the connection, as soon as the resume task has been joined.
  have cell : s.loop.connected → History.last (ResumeEvent.assigned? s.resume.wireConn)
      (resumeEvents log) = some s.resume.streamIdAlias := fun hl =>
    halias (hcon.needResume_of_connected hl)
  cases hs with
  | resend hl hq => exact ⟨hc hq, by simpa using h.handed⟩
  | flushChunk hl _ ht =>
    obtain ⟨-, hr, -, -⟩ := ht.frame
    refine ⟨?_, h.handed.append_of_forall ht.aliased⟩
    simp only [LoopPc.toSend, List.mem_singleton, forall_eq, hr]
    exact ht.chunk_streamIdAlias
  | resent hl =>
    have htodo := h.toSend
    simp only [hl, LoopPc.toSend, List.mem_cons, forall_eq_or_imp] at htodo
    refine ⟨htodo.2, History.each_append_singleton.2 ⟨h.handed, ?_⟩⟩
    rw [Aliased, htodo.1]
    exact cell (by simp [hl, LoopPc.connected])
  | sent hl =>
    have hchunk := h.toSend
    simp only [hl, LoopPc.toSend, List.mem_singleton, forall_eq] at hchunk
    refine ⟨by simp [LoopPc.toSend], History.each_append_singleton.2 ⟨h.handed, ?_⟩⟩
    rw [Aliased, hchunk]
    exact cell (by simp [hl, LoopPc.connected])
  | ack hl =>
    refine ⟨by simpa using h.toSend, h.handed.append_of_forall fun pre e he => ?_⟩
    rcases processAck_event he with ⟨_, rfl⟩ | ⟨_, rfl⟩ <;> trivial
  | discard hl hq ht =>
    refine h.quiet rfl fun pre e he => ?_
    rcases List.mem_append.1 he with he | he
    · exact ht.aliased pre e he
    · rw [List.mem_singleton.1 he]; trivial
  | flushOffline _ ht | flushEmpty _ _ ht | processRemaining _ ht => exact h.quiet rfl ht.aliased
  | resendFailed | recover =>
    obtain ⟨resume, loop, he, hr⟩ := recover_cases config s _
    rw [he]
    refine h.quiet ?_ (by simp [Aliased])
    rcases hr with ⟨-, rfl⟩ | ⟨-, rfl⟩ <;> rfl
  | joined | ended | offlineFlushed | resendDone | sendFailed | flushed | flushedLast | flushFailed
  | ackClosed | acked | closeRequest | closeResponded | closeDone | exit =>
    exact h.quiet rfl (by simp [Aliased])

theorem aliasedInv (h : o.machine.Exec (fun _ => ResendsCurrent o.config) log s) :
    AliasedInv log s := by
  refine h.invariant ⟨by simp [Opened.machine, Opened.init, LoopPc.toSend],
    History.each_singleton.2 trivial⟩ ?_
  intro log s a s' evs hr hi hc ha
  cases step_step ha with
  | loop hl => exact hi.loopStep (control hr) (aliasInv hr) hc hl
  | resume hp hs => exact hi.quiet ((control hr).toSend_eq_nil hp) (by simp [Aliased])
  | app hap hs he =>
    refine ⟨by rw [hs.loop, hs.resume]; exact hi.toSend, hi.handed.append_of_forall ?_⟩
    intro pre e hm
    have := he e hm
    cases e <;> trivial
  | wire | cancel => exact ⟨hi.toSend, by simpa using hi.handed⟩

/-- Every chunk that the loop hands to a connection carries the alias last assigned on that connection,
as long as no stored chunk is sent again under another alias than it was built with. -/
theorem chunks_aliased (o : Opened) (h : o.machine.Exec (fun _ => ResendsCurrent o.config) log s) :
    ChunksAliased log := (aliasedInv h).handed

/-- The server keeps the alias: the chunk is handed over twice, each time under it. -/
theorem chunks_aliased_same_alias :
    ∃ log s, reliableOpened.machine.Exec (fun _ => ResendsCurrent reliableOpened.config) log s ∧
      log.any (·.isHandedOn 1) ∧
      ChunksAliased log := by
  obtain ⟨log, s, h, hsent⟩ := Machine.Exec.exists_of_any (M := reliableOpened.machine)
    (C := fun _ => ResendsCurrent reliableOpened.config) (resendRun 1)
    (P := fun log _ => log.any (·.isHandedOn 1)) (by decide +kernel)
  exact ⟨log, s, h, hsent, chunks_aliased reliableOpened h⟩

/-- The server assigns another alias, and the chunk goes out under the old one. -/
theorem chunks_aliased_new_alias :
    ∃ log s, reliableOpened.machine.Run log s ∧ ¬ ChunksAliased log :=
  Machine.Exec.exists_of_any (resendRun 2) (by decide +kernel)

end Iscp.Upstream
