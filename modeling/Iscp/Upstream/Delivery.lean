import Iscp.Upstream.Buffer
import Iscp.Upstream.NoLoss

/-!
# What reaches a connection that stays up

As long as its first connection lasts an upstream goes through one pass: it waits for the registration
and flushes into the storage, then after `after_resume` it hands over what it takes at once, and ends. A
reliable stream sends in `after_resume` what it took before; every other stream has dropped that, and
drops what `after_resume` finds in the buffer (`TakeSite.sends`). If nothing that was accepted is dropped
(`KeepsOwed`), every accepted group reaches the connection once (`writes_delivered`).
-/

namespace Iscp.Upstream

variable {o : Opened} {config : UpstreamConfig} {s s' : State} {log evs pre : List Event} {i : Nat}
  {chunk : Message.UpstreamChunk}

/-- Whether the chunk of such a take is handed to the connection, now or by `after_resume`. -/
def TakeSite.sends (config : UpstreamConfig) : TakeSite → Bool
  | .flushLoop => true
  | .offline => config.qos = .reliable
  | .afterResume | .remaining => false

def Event.owed? (config : UpstreamConfig) : Event → Option Message.UpstreamChunk
  | .took site _ chunk => if site.sends config then some chunk else none
  | _ => none

def owed (config : UpstreamConfig) (log : List Event) : List Message.UpstreamChunk :=
  log.filterMap (Event.owed? config)

/-- The chunks handed over, with the connection that got them. -/
def handed (log : List Event) : List (ConnId × Message.UpstreamChunk) := log.filterMap Event.handed?

def AppPc.isWritten : AppPc → Bool
  | .written _ => true
  | _ => false

/-- The write of the `i`-th group has returned an error, or is about to find the stream cancelled. -/
def Refused (log : List Event) (s : State) (i : Nat) : Prop :=
  (writes log)[i]?.any (!·.isOk) ∨ i = (writes log).length ∧ s.ct ∧ s.app.isWritten

instance (log : List Event) (s : State) (i : Nat) : Decidable (Refused log s i) :=
  inferInstanceAs (Decidable (_ ∨ _ ∧ _ ∧ _))

/-- The groups from the `lo`-th to before the `hi`-th were refused. -/
def AllRefused (log : List Event) (s : State) (lo hi : Nat) : Prop :=
  ∀ i < hi, lo ≤ i → Refused log s i

instance (log : List Event) (s : State) (lo hi : Nat) : Decidable (AllRefused log s lo hi) :=
  inferInstanceAs (Decidable (∀ i < hi, _))

abbrev BufferRefused (log : List Event) (s : State) : Prop :=
  AllRefused log s (removed log).length (pushes log).length

/-- The connection of the open request stays up, and no send on it fails. -/
def StaysUp (o : Opened) : Action → Prop
  | .wire (.disconnect conn) => conn ≠ o.conn
  | .loop (.sent (.error _)) | .loop .ackClosed => False
  | _ => True

instance (o : Opened) (a : Action) : Decidable (StaysUp o a) := by
  unfold StaysUp; split <;> infer_instance

/-- Nothing that was accepted is thrown away: not by a flush before the registration or by `after_resume`,
unless the stream is reliable, not by a loop that ends before `after_resume`, and not at the end. -/
def KeepsOwed (config : UpstreamConfig) (log : List Event) (s : State) : Action → Prop
  | .loop (.flush _ _) => s.loop = .offline → config.qos ≠ .reliable → BufferRefused log s
  | .loop (.resumedCallbackDone _) => config.qos ≠ .reliable → BufferRefused log s
  | .loop .joined => s.resume.pc ≠ .registered → AllRefused log s 0 (removed log).length
  | .loop (.processRemaining _) => BufferRefused log s
  | _ => True

instance (config : UpstreamConfig) (log : List Event) (s : State) (a : Action) :
    Decidable (KeepsOwed config log s a) := by
  unfold KeepsOwed
  induction a using Action.casesOn with
  | loop a => induction a using LoopAction.casesOn <;> infer_instance
  | _ => infer_instance

/-- Before `after_resume` has sent or dropped what was taken so far. -/
def LoopPc.unsent : LoopPc → Bool
  | .offline | .offlineFlushed | .afterResume => true
  | _ => false

def LoopPc.over : LoopPc → Bool
  | .returned | .remaining | .exited => true
  | _ => false

/-- Whether the loop has handed over all that it took to send. -/
def LoopPc.settled (loop : LoopPc) : Bool := !loop.unsent && loop.toSend.isEmpty

/-- Every group that was accepted and then taken is in exactly one chunk, and that has been handed once to
the connection of the open request, when the loop is not just about to send it. -/
structure Delivered (o : Opened) (log : List Event) (s : State) : Prop where
  /-- Each take removes all that was pushed and not removed before, and its chunk carries that. -/
  took : History.Each (TookAll o.init.flusher) log
  once : (handed log).Nodup
  handed : ∀ before dpg between site dpgs chunk after,
    log = before ++ .pushed dpg :: (between ++ .took site dpgs chunk :: after) → issued between = [] →
    (writes log)[(pushes before).length]? = some (.ok ()) → s.loop.settled →
    dpg ∈ dpgs ∧ (o.conn, chunk) ∈ handed log

@[simp] theorem owed_append : owed config (log ++ evs) = owed config log ++ owed config evs :=
  List.filterMap_append

@[simp] theorem handed_append : handed (log ++ evs) = handed log ++ handed evs := List.filterMap_append

theorem owed_sublist_issued : (owed config log).Sublist (issued log) := by
  induction log with
  | nil => exact .refl _
  | cons e log ih =>
    cases e with
    | took site dpgs chunk =>
      by_cases hs : site.sends config
      · simpa [owed, issued, Event.owed?, Event.issued?, hs] using ih
      · simpa [owed, issued, Event.owed?, Event.issued?, hs] using ih.cons chunk
    | _ => exact ih

theorem owed_eq_nil (h : issued evs = []) : owed config evs = [] := by
  have hsub : (owed config evs).Sublist (issued evs) := owed_sublist_issued
  rw [h] at hsub
  exact List.sublist_nil.1 hsub

theorem owed_append_of_issued_nil (h : issued evs = []) : owed config (log ++ evs) = owed config log := by
  rw [owed_append, owed_eq_nil h, List.append_nil]

theorem handed_eq_nil (h : ∀ e ∈ evs, ¬ e.sends) : handed evs = [] := by
  rw [handed, List.filterMap_eq_nil_iff]
  intro e he
  have := h e he
  cases e <;> first | rfl | exact absurd trivial this

theorem owed_took {site : TakeSite} {dpgs : List DataPointGroup} (h : ∀ e ∈ evs, ¬ e.stores) :
    owed config (.took site dpgs chunk :: evs) = if site.sends config then [chunk] else [] := by
  have hnil : owed config evs = [] := owed_eq_nil (issued_eq_nil h)
  rw [owed] at hnil ⊢
  rw [List.filterMap_cons]
  by_cases hs : site.sends config <;> simp [Event.owed?, hs, hnil]

/-! ### What was refused stays refused -/

theorem LoopStep.keeps {a : LoopAction} (h : LoopStep config s a s' evs) :
    s'.app = s.app ∧ s'.wire = s.wire ∧ (s.ct → s'.ct) := by
  cases h with
  | flushOffline _ ht | flushEmpty _ _ ht | flushChunk _ _ ht | discard _ _ ht | processRemaining _ ht =>
    cases ht <;> exact ⟨rfl, rfl, id⟩
  | resendFailed | recover =>
    obtain ⟨resume, loop, he, -⟩ := recover_cases config s _
    rw [he]
    exact ⟨rfl, rfl, id⟩
  | offlineFlushed | flushed | flushedLast | flushFailed | closeDone =>
    unfold State.maySend
    split <;> exact ⟨rfl, rfl, id⟩
  | exit => exact ⟨rfl, rfl, fun _ => rfl⟩
  | joined | ended | resend | resent | resendDone | sent | sendFailed | ack | ackClosed | acked
  | closeRequest | closeResponded => exact ⟨rfl, rfl, id⟩

theorem Refused.append (h : (writes log)[i]?.any (!·.isOk)) : (writes (log ++ evs))[i]?.any (!·.isOk) := by
  obtain ⟨r, hr, hok⟩ := Option.any_eq_true _ _ |>.1 h
  have hi := (List.getElem?_eq_some_iff.1 hr).1
  rw [writes_append, List.getElem?_append_left hi, hr]
  exact hok

theorem Refused.step {a : Action} (h : Refused log s i) (st : Step config s a s' evs) :
    Refused (log ++ evs) s' i := by
  rcases h with h | ⟨hi, hct, happ⟩
  · exact .inl (Refused.append h)
  · -- The write that is about to be refused is either refused now or left alone.
    have quiet (hw : writes evs = []) (ha : s'.app = s.app) (hc : s'.ct) : Refused (log ++ evs) s' i :=
      .inr ⟨by rw [writes_append, hw, List.append_nil]; exact hi, hc, by rw [ha]; exact happ⟩
    cases st with
    | loop hl =>
      obtain ⟨ha, -, hc⟩ := hl.keeps
      exact quiet (app_events_nil hl.not_ofApp).2 ha (hc hct)
    | resume => exact quiet (by simp [writes, Event.wrote?]) rfl hct
    | wire | cancel => exact quiet rfl rfl (by simp [hct])
    | app hap =>
      obtain ⟨size, hsize⟩ : ∃ size, s.app = .written size := by
        cases hp : s.app <;> simp [hp, AppPc.isWritten] at happ ⊢
      cases appStep_step hap with
      | writeRefused =>
        refine .inl ?_
        simp [hi, writes, Event.wrote?, Except.isOk, Except.toBool]
      | writeChecked _ hopen => simp [hct] at hopen
      | drop hp => simp [hsize] at hp
      | write hp | writeNotify hp | flushRefused hp | flushChecked hp | flushStore hp | flushNotify hp
      | close hp | closeSkipped hp | closeChecked hp | closeStore hp | closeCancel hp | flushReceived hp
      | closeReceived hp | closeTimedOut hp => simp [hsize] at hp

theorem AllRefused.step {a : Action} {lo hi : Nat} (h : AllRefused log s lo hi)
    (st : Step config s a s' evs) : AllRefused (log ++ evs) s' lo hi :=
  fun i hi hlo => (h i hi hlo).step st

theorem Refused.not_ok (h : Refused log s i) : (writes log)[i]? ≠ some (.ok ()) := by
  intro hok
  rcases h with h | ⟨rfl, -, -⟩
  · simp [hok, Except.isOk, Except.toBool] at h
  · simp at hok

def Discarded (config : UpstreamConfig) (log : List Event) (s : State) (pre : List Event) : Event → Prop
  | .took site dpgs _ => site.sends config = false →
    AllRefused log s (removed pre).length (removed pre ++ dpgs).length
  | _ => True

theorem each_discarded_append (h : History.Each (Discarded config log s) pre) (he : issued evs = []) :
    History.Each (Discarded config log s) (pre ++ evs) := by
  rw [issued, List.filterMap_eq_nil_iff] at he
  refine h.append_of_forall fun pre e hm => ?_
  have := he e hm
  cases e <;> trivial

theorem Discarded.step {a : Action} {e : Event} (h : Discarded config log s pre e)
    (st : Step config s a s' evs) : Discarded config (log ++ evs) s' pre e := by
  cases e with
  | took site dpgs chunk => exact fun hs => (h hs).step st
  | _ => trivial

/-! ### The pass -/

/-- The resume task registers on the first connection, and the loop sends on it. -/
structure FirstPass (o : Opened) (s : State) : Prop where
  needResume : s.resume.needResume = false
  wireConn : s.resume.wireConn = o.conn
  connected : s.wire.isConnected o.conn
  update : s.resume.pc ≠ .update
  request : ∀ desired, s.resume.pc ≠ .request desired
  lost : s.loop ≠ .lost
  sent : ∀ e close, s.loop ≠ .flushed (.error e) close

theorem isConnected_step {wire wire' : WireConns} {a : WireAction} {conn : ConnId}
    (h : wire.isConnected conn) (hc : a ≠ .disconnect conn) (hs : wire.step a = some wire') :
    wire'.isConnected conn := by
  cases a with
  | disconnect lost =>
    have hne : conn ≠ lost := fun he => hc (by rw [he])
    obtain rfl := Option.some.inj hs
    simpa [WireConns.isConnected, hne] using h
  | publish =>
    simp only [WireConns.step, Option.ite_none_left_eq_some, Option.some.injEq] at hs
    obtain ⟨-, rfl⟩ := hs
    exact h
  | close =>
    obtain rfl := Option.some.inj hs
    exact h

/-- The resume loop, on a connection that is up and without a resume due, only registers or gives up. -/
theorem FirstPass.resume {a : ResumeAction} {r : Resume} {es : List ResumeEvent} (h : FirstPass o s)
    (st : Resume.Step s.wire s.resume a r es) : FirstPass o { s with resume := r } := by
  cases st with
  | move hp =>
    exact ⟨h.needResume, h.wireConn, h.connected, ResumePc.ne_update hp,
      fun _ => ResumePc.ne_request hp, h.lost, h.sent⟩
  | take hn | request hn => rw [h.needResume] at hn; cases hn
  | resumed hp => exact absurd hp (h.request _)
  | register =>
    exact ⟨h.needResume, h.wireConn, h.connected, by simp, by simp, h.lost, h.sent⟩
  | lost _ hconn =>
    rw [h.wireConn, h.connected] at hconn
    cases hconn
  | updated hp => exact absurd hp h.update

theorem FirstPass.step {a : Action} (h : FirstPass o s) (hup : StaysUp o a)
    (st : Step config s a s' evs) : FirstPass o s' := by
  cases st with
  | loop hl =>
    have hw := hl.keeps.2.1
    -- The loop keeps to its connection: neither a send nor the ack channel has failed.
    have quiet (hr : s'.resume = s.resume) (hlost : s'.loop ≠ .lost)
        (hsent : ∀ e close, s'.loop ≠ .flushed (.error e) close) : FirstPass o s' :=
      ⟨by rw [hr]; exact h.needResume, by rw [hr]; exact h.wireConn, by rw [hw]; exact h.connected,
        by rw [hr]; exact h.update, by rw [hr]; exact h.request, hlost, hsent⟩
    cases hl with
    | resendFailed | sendFailed | ackClosed => exact absurd hup id
    | flushFailed hl => exact absurd hl (h.sent _ _)
    | recover hl => exact absurd hl h.lost
    | flushOffline _ ht | flushEmpty _ _ ht | flushChunk _ _ ht | discard _ _ ht
    | processRemaining _ ht => exact quiet ht.frame.2.1 (by simp) (by simp)
    | ack hl => exact quiet rfl h.lost h.sent
    | joined | ended | offlineFlushed | resend | resent | resendDone | sent | flushed | flushedLast | acked
    | closeRequest | closeResponded | closeDone | exit => exact quiet (by simp) (by simp) (by simp)
  | resume _ hr => exact h.resume (Resume.step_step hr)
  | app _ hs =>
    exact ⟨by rw [hs.resume]; exact h.needResume, by rw [hs.resume]; exact h.wireConn,
      by rw [hs.wire]; exact h.connected, by rw [hs.resume]; exact h.update,
      by rw [hs.resume]; exact h.request, by rw [hs.loop]; exact h.lost, by rw [hs.loop]; exact h.sent⟩
  | @wire a w hw =>
    refine ⟨h.needResume, h.wireConn, isConnected_step h.connected ?_ hw, h.update, h.request, h.lost,
      h.sent⟩
    rintro rfl
    exact hup rfl
  | cancel => exact ⟨h.needResume, h.wireConn, h.connected, h.update, h.request, h.lost, h.sent⟩

/-- The chunks in the order of their numbers. -/
def NumberLt (a b : Message.UpstreamChunk) : Prop := a.sequenceNumber < b.sequenceNumber

instance : Std.Irrefl NumberLt := ⟨fun _ => UInt32.lt_irrefl _⟩

instance : Std.Antisymm NumberLt :=
  ⟨fun _ _ h h' => absurd (UInt32.lt_trans h h') (UInt32.lt_irrefl _)⟩

/-- As long as nothing has been acknowledged, the storage holds all chunks, in the order they were issued. -/
theorem Stored.iterChunks_eq (h : Stored log s) (hn : Numbered log s) (hlen : (issued log).length < 2 ^ 32)
    (hno : ∀ n, .acked n ∉ log) : s.flusher.storage.iterChunks = issued log := by
  have hst : s.flusher.storage.iterChunks.Pairwise NumberLt :=
    UpstreamStorage.iterChunks_sorted fun n chunk hc => ((h.chunks n chunk).1 hc).1
  refine hst.eq_of_mem_iff (hn.sorted hlen) fun chunk => ?_
  rw [h.mem_iterChunks]
  refine ⟨Unacked.mem_issued, fun hc => ?_⟩
  obtain ⟨site, dpgs, hm⟩ := mem_issued.1 hc
  obtain ⟨pre, post, rfl⟩ := List.append_of_mem hm
  exact ⟨pre, site, dpgs, post, rfl, fun ha => hno chunk.sequenceNumber (by simp [ha])⟩

structure Delivery (o : Opened) (log : List Event) (s : State) : Prop where
  discarded : History.Each (Discarded o.config log s) log
  unsent : s.loop.unsent → handed log = [] ∧ (∀ n, .acked n ∉ log) ∧
    owed o.config log = if o.config.qos = .reliable then issued log else []
  sent : s.loop.unsent = false → s.loop.over = false →
    handed log ++ s.loop.toSend.map (o.conn, ·) = (owed o.config log).map (o.conn, ·)
  ended : s.loop.over → handed log = (owed o.config log).map (o.conn, ·) ∨
    handed log = [] ∧ AllRefused log s 0 (removed log).length

namespace Delivery

theorem discarded_quiet {a : Action} (h : Delivery o log s) (st : Step o.config s a s' evs)
    (hi : issued evs = []) : History.Each (Discarded o.config (log ++ evs) s') (log ++ evs) :=
  each_discarded_append (fun pre e post hl => (h.discarded pre e post hl).step st) hi

theorem discarded_took {a : Action} {site : TakeSite} {t : UpstreamFlusher.Taken} {post : List Event}
    (h : Delivery o log s) (hacc : Account o log s) (hd : t.dpgs = s.state.dataPointsBuffer)
    (st : Step o.config s a s' (.took site t.dpgs t.chunk :: post)) (hp : ∀ e ∈ post, ¬ e.stores)
    (hr : site.sends o.config = false → BufferRefused log s) :
    History.Each (Discarded o.config (log ++ Event.took site t.dpgs t.chunk :: post) s')
      (log ++ Event.took site t.dpgs t.chunk :: post) := by
  have hold : History.Each (Discarded o.config (log ++ Event.took site t.dpgs t.chunk :: post) s') log :=
    fun pre e post hl => (h.discarded pre e post hl).step st
  have htook : Discarded o.config (log ++ Event.took site t.dpgs t.chunk :: post) s' log
      (.took site t.dpgs t.chunk) := fun hs => by
    have hall : removed log ++ t.dpgs = pushes log := by rw [hd, hacc.pushes]
    rw [hall]
    exact (hr hs).step st
  have hnew := History.each_append_singleton.2 ⟨hold, htook⟩
  have := each_discarded_append hnew (issued_eq_nil hp)
  rwa [List.append_assoc, List.singleton_append] at this

theorem quiet {a : Action} (h : Delivery o log s) (st : Step o.config s a s' evs)
    (hi : issued evs = []) (ha : s.loop.unsent → ∀ n, .acked n ∉ evs) (hs : Upstream.handed evs = [])
    (hu : s'.loop.unsent = s.loop.unsent) (ho : s'.loop.over = s.loop.over)
    (ht : s'.loop.toSend = s.loop.toSend) : Delivery o (log ++ evs) s' := by
  have hh : handed (log ++ evs) = handed log := by simp [hs]
  have hw : owed o.config (log ++ evs) = owed o.config log := owed_append_of_issued_nil hi
  have hr : removed (log ++ evs) = removed log := by simp [removed_of_issued_nil hi]
  refine ⟨h.discarded_quiet st hi, fun hl => ?_, fun hl hl' => ?_, fun hl => ?_⟩
  · obtain ⟨h1, h2, h3⟩ := h.unsent (hu ▸ hl)
    refine ⟨hh.trans h1, fun n hn => ?_, ?_⟩
    · rcases List.mem_append.1 hn with hn | hn
      · exact h2 n hn
      · exact ha (hu ▸ hl) n hn
    · rw [hw, h3, issued_append, hi, List.append_nil]
  · rw [hh, hw, ht]
    exact h.sent (hu ▸ hl) (ho ▸ hl')
  · rw [hh, hw, hr]
    rcases h.ended (ho ▸ hl) with h1 | ⟨h1, h2⟩
    · exact .inl h1
    · exact .inr ⟨h1, h2.step st⟩

theorem hand {a : Action} (h : Delivery o log s) (hf : FirstPass o s)
    (st : Step o.config s a s' [.handed s.resume.wireConn chunk]) (hu : s.loop.unsent = false)
    (ho : s.loop.over = false) (hu' : s'.loop.unsent = false) (ho' : s'.loop.over = false)
    (ht : s.loop.toSend = chunk :: s'.loop.toSend) :
    Delivery o (log ++ [Event.handed s.resume.wireConn chunk]) s' := by
  refine ⟨h.discarded_quiet st rfl, by simp [hu'], fun _ _ => ?_, by simp [ho']⟩
  rw [owed_append_of_issued_nil rfl, ← h.sent hu ho, ht, handed_append, hf.wireConn]
  simp [Upstream.handed, Event.handed?]

theorem loopStep {a : LoopAction} (h : Delivery o log s) (hf : FirstPass o s) (hacc : Account o log s)
    (hstore : o.config.qos = .reliable → (∀ n, .acked n ∉ log) →
      s.flusher.storage.iterChunks = issued log)
    (hup : StaysUp o (.loop a)) (hkeep : KeepsOwed o.config log s (.loop a))
    (hl : LoopStep o.config s a s' evs) : Delivery o (log ++ evs) s' := by
  have st : Step o.config s (.loop a) s' evs := .loop hl
  cases hl with
  | joined hl | offlineFlushed hl | resendDone hl | flushed hl | flushedLast hl | acked hl | closeRequest hl
  | closeResponded hl | exit hl =>
    refine h.quiet st rfl (by simp) rfl ?_ ?_ ?_ <;> simp [hl, LoopPc.unsent, LoopPc.over, LoopPc.toSend]
  | ended hl hp =>
    refine ⟨h.discarded_quiet st rfl, by simp [LoopPc.unsent], by simp [LoopPc.over], fun _ => ?_⟩
    have hhanded := (h.unsent (by rw [hl]; rfl)).1
    have hrefused := (hkeep hp).step st
    exact .inr ⟨by simpa using hhanded, by simpa using hrefused⟩
  | flushOffline hl ht =>
    rcases ht.cases with ⟨-, -, rfl, -⟩ | ⟨t, post, rfl, hp, -, hT⟩
    · exact h.quiet st rfl (by simp) rfl (by rw [hl]; rfl) (by rw [hl]; rfl) (by rw [hl]; rfl)
    · obtain ⟨h1, h2, h3⟩ := h.unsent (by rw [hl]; rfl)
      refine ⟨h.discarded_took hacc hT.dpgs st hp fun hs => hkeep hl (by simpa [TakeSite.sends] using hs),
        fun _ => ⟨?_, fun n hn => ?_, ?_⟩, by simp [LoopPc.unsent], by simp [LoopPc.over]⟩
      · rw [handed_append, h1, handed_eq_nil ht.not_sends, List.append_nil]
      · rcases List.mem_append.1 hn with hn | hn
        · exact h2 n hn
        · rcases ht.event hn with ⟨_, _, he⟩ | ⟨_, he⟩ <;> cases he
      · rw [owed_append, h3, owed_took hp, issued_append, issued_took hp]
        by_cases hq : o.config.qos = .reliable <;> simp [hq, TakeSite.sends]
  | resend hl hq =>
    obtain ⟨h1, h2, h3⟩ := h.unsent (by rw [hl]; rfl)
    refine ⟨h.discarded_quiet st rfl, by simp [LoopPc.unsent], fun _ _ => ?_, by simp [LoopPc.over]⟩
    rw [List.append_nil, h1, h3, if_pos hq, List.nil_append]
    exact congrArg _ (hstore hq h2)
  | @discard _ s₁ _ evs hl hq ht =>
    obtain ⟨h1, h2, h3⟩ := h.unsent (by rw [hl]; rfl)
    have hhanded : handed (log ++ (evs ++ [Event.afterResumeDone s₁.resume.wireConn true])) = [] := by
      rw [handed_append, handed_append, h1, handed_eq_nil ht.not_sends]
      rfl
    rcases ht.cases with ⟨-, -, rfl, -⟩ | ⟨t, post, rfl, hp, -, hT⟩
    · refine ⟨h.discarded_quiet st rfl, by simp [LoopPc.unsent], fun _ _ => ?_,
        by simp [LoopPc.over]⟩
      rw [hhanded, owed_append_of_issued_nil rfl, h3, if_neg hq]
      rfl
    · have hp' : ∀ e ∈ post ++ [Event.afterResumeDone s₁.resume.wireConn true], ¬ e.stores := by
        intro e he
        rcases List.mem_append.1 he with he | he
        · exact hp e he
        · rw [List.mem_singleton.1 he]; exact id
      refine ⟨h.discarded_took hacc hT.dpgs st hp' fun _ => hkeep hq, by simp [LoopPc.unsent],
        fun _ _ => ?_, by simp [LoopPc.over]⟩
      rw [hhanded, owed_append, h3, if_neg hq, List.cons_append, owed_took hp']
      rfl
  | resent hl => exact h.hand hf st (by rw [hl]; rfl) (by rw [hl]; rfl) rfl rfl (by rw [hl]; rfl)
  | flushEmpty hl _ ht =>
    rcases ht.cases with ⟨-, -, rfl, -⟩ | ⟨t, post, -, -, hc, -⟩
    · exact h.quiet st rfl (by simp) rfl (by rw [hl]; rfl) (by rw [hl]; rfl) (by rw [hl]; rfl)
    · cases hc
  | flushChunk hl _ ht =>
    rcases ht.cases with ⟨-, -, -, hc⟩ | ⟨t, post, rfl, hp, hc, hT⟩
    · cases hc
    · obtain rfl := Option.some.inj hc
      refine ⟨h.discarded_took hacc hT.dpgs st hp (by simp [TakeSite.sends]), by simp [LoopPc.unsent],
        fun _ _ => ?_, by simp [LoopPc.over]⟩
      have hsent := h.sent (by rw [hl]; rfl) (by rw [hl]; rfl)
      rw [handed_append, handed_eq_nil ht.not_sends, owed_append, owed_took hp, List.map_append, ← hsent, hl]
      simp [TakeSite.sends, LoopPc.toSend]
  | sent hl => exact h.hand hf st (by rw [hl]; rfl) (by rw [hl]; rfl) rfl rfl (by rw [hl]; rfl)
  | @ack ack hl =>
    have hh := handed_eq_nil (not_sends_processAck (s := s) ack)
    rcases hl with hl | hl <;>
      exact h.quiet st (issued_processAck _) (by simp [hl, LoopPc.unsent]) hh rfl rfl rfl
  | closeDone hl =>
    refine ⟨h.discarded_quiet st rfl, by simp [LoopPc.unsent], by simp [LoopPc.over], fun _ => .inl ?_⟩
    have hsent := h.sent (by rw [hl]; rfl) (by rw [hl]; rfl)
    simpa [hl, LoopPc.toSend] using hsent
  | processRemaining hl ht =>
    rcases ht.cases with ⟨-, -, rfl, -⟩ | ⟨t, post, rfl, hp, -, hT⟩
    · exact h.quiet st rfl (by simp) rfl (by rw [hl]; rfl) (by rw [hl]; rfl) (by rw [hl]; rfl)
    · refine ⟨h.discarded_took hacc hT.dpgs st hp fun _ => hkeep, by simp [LoopPc.unsent],
        by simp [LoopPc.over], fun _ => ?_⟩
      rw [handed_append, handed_eq_nil ht.not_sends, owed_append, owed_took hp, removed_append,
        removed_took hp, List.append_nil]
      rcases h.ended (by rw [hl]; rfl) with h1 | ⟨h1, h2⟩
      · exact .inl (by simpa [TakeSite.sends] using h1)
      · refine .inr ⟨h1, fun i hi hlo => ?_⟩
        by_cases hlt : i < (removed log).length
        · exact (h2 i hlt hlo).step st
        · rw [hT.dpgs, ← hacc.pushes] at hi
          exact (hkeep i hi (by omega)).step st
  | resendFailed | sendFailed | ackClosed => exact absurd hup id
  | flushFailed hl => exact absurd hl (hf.sent _ _)
  | recover hl => exact absurd hl hf.lost

theorem step {a : Action} (h : Delivery o log s) (hf : FirstPass o s) (hacc : Account o log s)
    (hstore : o.config.qos = .reliable → (∀ n, .acked n ∉ log) →
      s.flusher.storage.iterChunks = issued log)
    (hup : StaysUp o a) (hkeep : KeepsOwed o.config log s a) (st : Step o.config s a s' evs) :
    Delivery o (log ++ evs) s' := by
  cases st with
  | loop hl => exact h.loopStep hf hacc hstore hup hkeep hl
  | resume hp hr =>
    exact h.quiet (.resume hp hr) (issued_eq_nil (by simp [Event.stores])) (by simp)
      (handed_eq_nil (by simp [Event.sends])) rfl rfl rfl
  | app ha hs he =>
    have hstores := not_stores_of_app he
    exact h.quiet (.app ha hs he) (issued_eq_nil hstores) (fun _ n hn => hstores _ hn trivial)
      (handed_eq_nil (not_sends_of_app he)) (by rw [hs.loop]) (by rw [hs.loop]) (by rw [hs.loop])
  | wire hw => exact h.quiet (.wire hw) rfl (by simp) rfl rfl rfl rfl
  | cancel => exact h.quiet .cancel rfl (by simp) rfl rfl rfl rfl

theorem handed_prefix (h : Delivery o log s) : handed log <+: (owed o.config log).map (o.conn, ·) := by
  by_cases hu : s.loop.unsent
  · rw [(h.unsent hu).1]
    exact List.nil_prefix
  · by_cases ho : s.loop.over
    · rcases h.ended ho with h1 | ⟨h1, -⟩
      · exact ⟨[], by rw [h1, List.append_nil]⟩
      · rw [h1]; exact List.nil_prefix
    · exact ⟨_, h.sent (by simpa using hu) (by simpa using ho)⟩

end Delivery

/-- The first connection stays up, and nothing that is owed is thrown away. -/
abbrev Kept (o : Opened) (log : List Event) (s : State) (a : Action) : Prop :=
  StaysUp o a ∧ KeepsOwed o.config log s a

theorem firstPass {C : List Event → State → Action → Prop} (hC : ∀ log s a, C log s a → StaysUp o a)
    (h : o.machine.Exec C log s) : FirstPass o s := by
  refine h.invariant (I := fun _ s => FirstPass o s) ?_ fun _ _ _ _ _ _ hi hc ha =>
    hi.step (hC _ _ _ hc) (step_step ha)
  refine ⟨rfl, rfl, ?_, ?_, ?_, ?_, ?_⟩ <;> simp [Opened.machine, Opened.init, WireConns.isConnected]

theorem delivery (h : o.machine.Exec (Kept o) log s) (hlen : (issued log).length < 2 ^ 32) :
    Delivery o log s := by
  revert hlen
  refine h.invariant (I := fun log s => (issued log).length < 2 ^ 32 → Delivery o log s) (fun _ => ?_) ?_
  · refine ⟨History.each_singleton.2 trivial, fun _ => ⟨rfl, ?_, ?_⟩, ?_, ?_⟩
    · simp [Opened.machine]
    · split <;> rfl
    · simp [Opened.machine, Opened.init, LoopPc.unsent]
    · simp [Opened.machine, Opened.init, LoopPc.over]
  · intro log s a s' evs hr hi hc ha hlen
    have hlen' : (issued log).length < 2 ^ 32 := by
      rw [issued_append, List.length_append] at hlen; omega
    have hstore (hq : o.config.qos = .reliable) (hno : ∀ n, .acked n ∉ log) :
        s.flusher.storage.iterChunks = issued log :=
      (stored hq hr hlen').iterChunks_eq (issued_numbers hr) hlen' hno
    exact (hi hlen').step (firstPass (fun _ _ _ hc => hc.1) hr) (account hr) hstore hc.1 hc.2 (step_step ha)

/-- In every run in which the connection of the open request stays up, no send fails and nothing that was
accepted is thrown away, every group whose write returned `Ok` and that was then taken is in exactly one
chunk, and that has been handed to the connection exactly once. -/
theorem writes_delivered (o : Opened) (h : o.machine.Exec (Kept o) log s)
    (hlen : (issued log).length < 2 ^ 32) : Delivered o log s := by
  have hd := delivery h hlen
  have hacc := account h
  have hsorted : (owed o.config log).Pairwise NumberLt :=
    ((issued_numbers h).sorted hlen).sublist owed_sublist_issued
  refine ⟨hacc.took, ?_, ?_⟩
  · refine List.Sublist.nodup hd.handed_prefix.sublist ?_
    exact hsorted.nodup.map (Prod.mk_right_injective o.conn)
  · intro before dpg between site dpgs chunk after hlog hb hok hset
    rw [hlog] at hacc
    obtain ⟨hmem, hle, hlt⟩ := mem_of_first_take hacc.took hb
    refine ⟨hmem, ?_⟩
    have hpre : log = (before ++ Event.pushed dpg :: between) ++ Event.took site dpgs chunk :: after := by
      rw [hlog]; simp
    have hsite : site.sends o.config := by
      by_contra hs
      exact (hd.discarded _ _ _ hpre (by simpa using hs) _ hlt hle).not_ok hok
    have howed : chunk ∈ owed o.config log :=
      List.mem_filterMap.2 ⟨.took site dpgs chunk, by rw [hpre]; simp, by simp [Event.owed?, hsite]⟩
    obtain ⟨hunsent, htoSend⟩ : s.loop.unsent = false ∧ s.loop.toSend = [] := by
      simpa [LoopPc.settled] using hset
    by_cases hover : s.loop.over
    · rcases hd.ended hover with hh | ⟨-, hr⟩
      · rw [hh]
        exact List.mem_map_of_mem howed
      · have hi : (pushes before).length < (removed log).length := by
          rw [hpre, removed_append]
          simp only [removed, Event.removed, List.flatMap_cons, List.length_append] at hlt ⊢
          omega
        exact absurd hok (hr _ hi (Nat.zero_le _)).not_ok
    · have hh := hd.sent hunsent (by simpa using hover)
      rw [htoSend, List.map_nil, List.append_nil] at hh
      rw [hh]
      exact List.mem_map_of_mem howed

/-- The application writes one group. -/
def writeRun (dpg : DataPointGroup) : List Action :=
  [.app (.write dpg), .app .writeCheck, .app .writeNotify]

/-- A reliable stream sends what was flushed before the registration, and then what is flushed after. -/
theorem writes_delivered_reliable :
    ∃ log s, reliableOpened.machine.Exec (Kept reliableOpened) log s ∧ (handed log).length = 2 ∧
      s.loop.settled ∧ Delivered reliableOpened log s := by
  obtain ⟨log, s, h, hh, hs, hlen⟩ := Machine.Exec.exists_of_any (M := reliableOpened.machine)
    (C := Kept reliableOpened)
    (writeRun ⟨⟨"a", "t"⟩, [⟨0, [7]⟩]⟩ ++
      ([.loop (.flush .notified .asIs), .loop .flushDone, .resume (.poll 0 true), .loop .joined,
        .loop (.resumedCallbackDone .asIs), .loop (.sent (.ok ())), .loop .resent] : List Action) ++
      writeRun ⟨⟨"b", "t"⟩, [⟨1, [8]⟩]⟩ ++
      ([.loop (.flush .notified .asIs), .loop (.sent (.ok ())), .loop .flushDone] : List Action))
    (P := fun log s => (handed log).length = 2 ∧ s.loop.settled ∧ (issued log).length < 2 ^ 32)
    (by decide +kernel)
  exact ⟨log, s, h, hh, hs, writes_delivered reliableOpened h hlen⟩

/-- A write right after the open is accepted, and `after_resume` throws it away. -/
theorem writes_delivered_dropped :
    ∃ log s, defaultOpened.machine.Exec (fun _ _ => StaysUp defaultOpened) log s ∧
      ¬ Delivered defaultOpened log s := by
  obtain ⟨log, s, h, hlog, hs⟩ := Machine.Exec.exists_of_any (M := defaultOpened.machine)
    (C := fun _ _ => StaysUp defaultOpened) (writeRun ⟨⟨"a", "t"⟩, [⟨0, [7]⟩]⟩ ++ startRun)
    (P := fun log s => log = [Event.resume (.opened 0 1 "a")] ++ Event.pushed ⟨⟨"a", "t"⟩, [⟨0, [7]⟩]⟩ ::
      ([Event.wrote (.ok ()), .resume (.registered 0 1), .afterResume 0] ++
        Event.took .afterResume [⟨⟨"a", "t"⟩, [⟨0, [7]⟩]⟩]
          ⟨1, [⟨some (.dataId ⟨"a", "t"⟩), [⟨0, [7]⟩]⟩], 1⟩ :: [.afterResumeDone 0 true]) ∧
      s.loop.settled)
    (by decide +kernel)
  refine ⟨log, s, h, fun hd => ?_⟩
  have := (hd.handed _ _ _ _ _ _ _ hlog rfl (by rw [hlog]; rfl) hs).2
  rw [hlog] at this
  simp [handed, Event.handed?] at this

end Iscp.Upstream
