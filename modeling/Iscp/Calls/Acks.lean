import Iscp.Calls.Steps

/-!
# Acks of calls

An ack is taken by the call whose id it names, whatever result code it carries. It is delivered only if the
read loop has taken the registration from its queue when it reads the ack; nothing makes it take the one
before the other.
-/

namespace Iscp.Calls

open Message (UpstreamCallAck)
open Wire (ReadLoopChannels ReadLoopCommand)

variable {c : E2e.Config} {s s' : State} {log evs : List Event} {i j : Nat} {a b : Attempt} {conn : ConnId}
  {callId : String} {tx : Nat} {ack : UpstreamCallAck} {act : Action}
  {rx : Option (List Message.DownstreamCall)}

namespace Event

def started? : Event → Option String
  | started _ callId => some callId
  | _ => none

def subscribed? : Event → Option (Nat × Attempt)
  | subscribed i a => some (i, a)
  | _ => none

def left? : Event → Option (Nat × Attempt)
  | left i a _ => some (i, a)
  | _ => none

def ackRead? : Event → Option (ConnId × UpstreamCallAck)
  | ackRead conn ack => some (conn, ack)
  | _ => none

end Event

/-- `new_call_id` never makes an id twice. -/
def DistinctIds (log : List Event) : Action → Prop
  | .call _ (.stateSeen callId) => callId ∉ log.filterMap Event.started?
  | _ => True

instance (log : List Event) (act : Action) : Decidable (DistinctIds log act) := by
  unfold DistinctIds
  induction act using Action.casesOn with
  | call i act => induction act using CallAction.casesOn <;> infer_instance
  | _ => infer_instance

/-! ### Result codes -/

/-- A call goes on as acknowledged with an ack that was read for it and reports success; a call id is
returned for a call that has gone on so. -/
structure Granted (pre : List Event) (e : Event) : Prop where
  ack : ∀ i a ack, e = .acknowledged i a ack → .ackRead a.conn ack ∈ pre ∧ ack.callId = a.callId ∧
    ResultCode.ofI32 ack.resultCode = some .succeeded
  callId : ∀ i callId, e = .returned i (.ok (.callId callId)) →
    ∃ a ack, .acknowledged i a ack ∈ pre ∧ a.callId = callId

/-- The ack that an invocation takes from its oneshot reports success. -/
def AckSucceeds (s : State) : Action → Prop
  | .call i .ackReceived => ∀ a ∈ (s.calls i).attempt?, ∀ ack ∈ s.acks a.tx,
      ResultCode.ofI32 ack.resultCode = some .succeeded
  | _ => True

instance (s : State) (act : Action) : Decidable (AckSucceeds s act) := by
  unfold AckSucceeds
  induction act using Action.casesOn with
  | call i act => induction act using CallAction.casesOn <;> infer_instance
  | _ => infer_instance

/-- An ack in the oneshot of an attempt was read for it. -/
theorem Inv.ack_read (hi : Inv log s) (ha : (s.calls i).attempt? = some a) (hack : s.acks a.tx = some ack) :
    .ackRead a.conn ack ∈ log ∧ ack.callId = a.callId := by
  obtain ⟨j, b, hb, ht, hc, hr⟩ := hi.ack a.tx ack hack
  obtain ⟨-, rfl⟩ := hi.tx_inj j b i a hb (hi.active i a ha).1 ht
  exact ⟨hr, hc.symm⟩

theorem granted_of {pre : List Event} {e : Event} (h : ∀ i a ack, e ≠ .acknowledged i a ack)
    (h' : ∀ i callId, e ≠ .returned i (.ok (.callId callId))) : Granted pre e :=
  ⟨fun i a ack he => absurd he (h i a ack), fun i callId he => absurd he (h' i callId)⟩

theorem Inv.granted (hi : Inv log s) (ha : s.calls i = .active .waitingAck a rx)
    (hack : s.acks a.tx = some ack) (hs : AckSucceeds s (.call i .ackReceived)) :
    Granted log (.acknowledged i a ack) := by
  have hat : (s.calls i).attempt? = some a := by rw [ha]; rfl
  obtain ⟨hr, hc⟩ := hi.ack_read hat hack
  refine ⟨fun j b ack' he => ?_, nofun⟩
  cases he
  exact ⟨hr, hc, hs a hat ack hack⟩

theorem Inv.step_granted (hi : Inv log s) (hg : History.Each Granted log) (hs : AckSucceeds s act)
    (h : Calls.step c s act = some (s', evs)) : History.Each Granted (log ++ evs) := by
  have hst := step_step h
  generalize hpc : act = act' at hst
  cases hst with
  | @move i act pc evs hm =>
    generalize hc : s.calls i = pc₀ at hm
    cases hm with
    | acknowledged hack =>
      subst hpc
      exact History.each_append_singleton.2 ⟨hg, hi.granted hc hack hs⟩
    | quiet | returned | started | listening | sent | skipped =>
      exact hg.append_of_forall fun pre e he => granted_of (by rintro _ _ _ rfl; simp at he)
        (by rintro _ _ rfl; simp at he)
  | @leave i act a phase rx pc evs ha hl =>
    cases hl with
    | @acknowledged ack hack =>
      subst hpc
      rw [History.each_append]
      refine ⟨hg, History.each_cons.2 ⟨?_, History.each_cons.2 ⟨?_, History.each_singleton.2 ?_⟩⟩⟩
      · rw [List.append_nil]
        exact hi.granted ha hack hs
      · exact granted_of nofun nofun
      · refine ⟨nofun, fun j callId he => ?_⟩
        cases he
        exact ⟨a, ack, by simp, rfl⟩
    | replied | dropped =>
      exact hg.append_of_forall fun pre e he => granted_of (by rintro _ _ _ rfl; simp at he)
        (by rintro _ _ rfl; simp at he)
    | failed =>
      refine hg.append_of_forall fun pre e he => granted_of ?_ ?_
      · rintro _ _ _ rfl
        split at he <;> simp at he
      · rintro _ _ rfl
        split at he <;> simp at he
  | subscribe | change | ackFound | ackDropped | arrived | outside =>
    exact hg.append_of_forall fun pre e he => granted_of (by rintro _ _ _ rfl; simp at he)
      (by rintro _ _ rfl; simp at he)

/-- As long as every ack that a call takes reports success, a call is taken for acknowledged only with an
ack of its own that reports success. -/
theorem acknowledged_by_success (h : (machine c).Exec (fun _ s act => AckSucceeds s act) log s) :
    History.Each Granted log := by
  refine h.invariant (I := fun log _ => History.Each Granted log) .nil ?_
  intro log s act s' evs hr hg hs ha
  exact (inv hr).step_granted hg hs ha

def sampleConfig : E2e.Config := ⟨1024, 1024, Nat.le_refl _⟩

def sampleCall : UpstreamCall := ⟨"node", "name", "type", []⟩

/-- An invocation up to its registration for the ack. -/
def startRun (i : Nat) (request : Request) (callId : String) : List Action :=
  [.call i (.invoke request), .call i (.stateSeen callId), .call i .subscribe]

/-- The acks of two calls come in the other order. -/
theorem acknowledged_by_success_two : ∃ log s,
    (machine sampleConfig).Exec (fun _ s act => AckSucceeds s act) log s ∧ History.Each Granted log ∧
      .returned 0 (.ok (.callId "a")) ∈ log ∧ .returned 1 (.ok (.callId "b")) ∈ log := by
  obtain ⟨log, s, h, hr⟩ := Machine.Exec.exists_of_any (M := machine sampleConfig)
    (C := fun _ s act => AckSucceeds s act)
    (startRun 0 (.sendCall sampleCall) "a" ++ startRun 1 (.sendReplyCall ⟨"x", "node", "name", "type", []⟩) "b" ++
      ([.call 0 .sent, .call 1 .sent, .process 0, .process 0, .read 0 (.upstreamCallAck ⟨"b", 0, "OK"⟩),
        .read 0 (.upstreamCallAck ⟨"a", 0, "OK"⟩), .call 0 .ackReceived, .call 1 .ackReceived] : List Action))
    (P := fun log _ => .returned 0 (.ok (.callId "a")) ∈ log ∧ .returned 1 (.ok (.callId "b")) ∈ log)
    (by decide +kernel)
  exact ⟨log, s, h, acknowledged_by_success h, hr⟩

/-- The ack reports a failure, and the call id is returned all the same. -/
theorem acknowledged_by_failure : ¬ ∀ c log s, (machine c).Exec (fun log _ act => DistinctIds log act) log s →
    History.Each Granted log := by
  intro h
  obtain ⟨log, s, hr, hm⟩ := Machine.Exec.exists_of_any (M := machine sampleConfig)
    (C := fun log _ act => DistinctIds log act)
    (startRun 0 (.sendCall sampleCall) "a" ++ ([.call 0 .sent, .process 0,
      .read 0 (.upstreamCallAck ⟨"a", 64, "error"⟩), .call 0 .ackReceived] : List Action))
    (P := fun log _ => .acknowledged 0 ⟨.sendCall sampleCall, "a", 0, 0⟩ ⟨"a", 64, "error"⟩ ∈ log ∧
      .returned 0 (.ok (.callId "a")) ∈ log) (by decide +kernel)
  obtain ⟨pre, post, hlog⟩ := List.append_of_mem hm.1
  obtain ⟨-, -, hcode⟩ := (h _ _ _ hr pre _ post hlog).ack _ _ _ rfl
  exact absurd hcode (by decide)

/-! ### Registrations in time -/

/-- The attempts that have registered for their ack and have their guard, with their invocations. -/
def live (log : List Event) : List (Nat × Attempt) :=
  (log.filterMap Event.subscribed?).filter (· ∉ log.filterMap Event.left?)

/-- The attempts to which an ack is addressed. -/
def addressed (log : List Event) (conn : ConnId) (ack : UpstreamCallAck) : List (Nat × Attempt) :=
  (live log).filter fun x => x.2.conn = conn ∧ x.2.callId = ack.callId

/-- Every ack that is read is delivered to the attempt that it is addressed to. -/
def AcksDelivered (log : List Event) : Prop :=
  History.Each (fun pre e => ∀ r ∈ e.ackRead?, ∀ x ∈ addressed pre r.1 r.2, .delivered x.2.tx r.2 ∈ log) log

instance (log : List Event) : Decidable (AcksDelivered log) :=
  inferInstanceAs (Decidable (History.Each _ log))

/-- No invocation waits for an ack that has been read. -/
def NoneThrownAway (log : List Event) (s : State) : Prop :=
  ∀ i a rx, s.calls i = .active .waitingAck a rx → s.acks a.tx = none →
    ∀ pre ack post, log = pre ++ .ackRead a.conn ack :: post → .subscribed i a ∈ pre → ack.callId ≠ a.callId

/-- The read loop reads an ack only when it has taken the registration of the attempt from its queue, and
reads one ack for it. -/
def ReadsRegistered (log : List Event) (s : State) : Action → Prop
  | .read conn (.upstreamCallAck ack) => ∀ x ∈ addressed log conn ack,
      (∀ command ∈ (s.conns conn).commands, command.callId? ≠ some ack.callId) ∧ s.acks x.2.tx = none
  | _ => True

instance (log : List Event) (s : State) (act : Action) : Decidable (ReadsRegistered log s act) := by
  unfold ReadsRegistered
  induction act using Action.casesOn with
  | read conn msg => induction msg using Message.MessageEnum.casesOn <;> infer_instance
  | _ => infer_instance

theorem mem_live : (i, a) ∈ live log ↔ .subscribed i a ∈ log ∧ ∀ r, .left i a r ∉ log := by
  have hsub : (i, a) ∈ log.filterMap Event.subscribed? ↔ .subscribed i a ∈ log := by
    rw [List.mem_filterMap]
    constructor
    · rintro ⟨e, he, hs⟩
      cases e <;> cases hs
      exact he
    · intro h
      exact ⟨_, h, rfl⟩
  have hleft : (i, a) ∈ log.filterMap Event.left? ↔ ∃ r, .left i a r ∈ log := by
    rw [List.mem_filterMap]
    constructor
    · rintro ⟨e, he, hs⟩
      cases e <;> cases hs
      exact ⟨_, he⟩
    · rintro ⟨r, h⟩
      exact ⟨_, h, rfl⟩
  rw [live, List.mem_filter, hsub, decide_eq_true_eq, hleft, not_exists]

theorem mem_addressed : (i, a) ∈ addressed log conn ack ↔
    (i, a) ∈ live log ∧ a.conn = conn ∧ a.callId = ack.callId := by
  rw [addressed, List.mem_filter, decide_eq_true_eq]

/-- With distinct ids, the registration of a live attempt is in the table or in the queue until its ack is
delivered. -/
structure Unique (log : List Event) (s : State) : Prop where
  starter : ∀ i j callId, .started i callId ∈ log → .started j callId ∈ log → i = j
  pending : ∀ i request callId, s.calls i = .started request callId →
    .started i callId ∈ log ∧ ∀ j b, .subscribed j b ∈ log → b.callId ≠ callId
  started : ∀ i a, .subscribed i a ∈ log → .started i a.callId ∈ log
  inj : ∀ i a j b, .subscribed i a ∈ log → .subscribed j b ∈ log → a.callId = b.callId → i = j ∧ a = b
  kept : ∀ i a, (s.calls i).attempt? = some a → s.acks a.tx = none → (s.conns a.conn).readerExited = false →
    (s.conns a.conn).Entry a.callId a.tx

namespace Unique

theorem init : Unique [] {} := ⟨nofun, nofun, nofun, nofun, nofun⟩

/-- No call id is made and nothing registered, and what is kept stays. -/
theorem frame (hu : Unique log s) (hstart : ∀ i callId, .started i callId ∉ evs)
    (hsub : ∀ i a, .subscribed i a ∉ evs)
    (hpend : ∀ i request callId, s'.calls i = .started request callId → s.calls i = .started request callId)
    (hkept : ∀ i a, (s'.calls i).attempt? = some a → s'.acks a.tx = none →
      (s'.conns a.conn).readerExited = false → (s'.conns a.conn).Entry a.callId a.tx) :
    Unique (log ++ evs) s' := by
  have hst (i callId) : .started i callId ∈ log ++ evs ↔ .started i callId ∈ log := by
    rw [List.mem_append, or_iff_left (hstart i callId)]
  have hsb (i a) : .subscribed i a ∈ log ++ evs ↔ .subscribed i a ∈ log := by
    rw [List.mem_append, or_iff_left (hsub i a)]
  refine ⟨fun i j callId h h' => ?_, fun i request callId h => ?_, fun i a h => ?_, fun i a j b h h' => ?_, hkept⟩
  · exact hu.starter i j callId ((hst i callId).1 h) ((hst j callId).1 h')
  · obtain ⟨hs, hne⟩ := hu.pending i request callId (hpend i request callId h)
    exact ⟨(hst i callId).2 hs, fun j b hb => hne j b ((hsb j b).1 hb)⟩
  · exact (hst i a.callId).2 (hu.started i a ((hsb i a).1 h))
  · exact hu.inj i a j b ((hsb i a).1 h) ((hsb j b).1 h')

theorem entry_push_of {conn' : ConnId} {command : ReadLoopCommand Nat} (h : (s.conns conn').Entry callId tx) :
    ((s.push conn command).conns conn').Entry callId tx := by
  simp only [State.push, State.setConn]
  by_cases hc : conn' = conn
  · subst hc
    rw [Function.update_self]
    exact h.imp_right (List.mem_append_left _)
  · rwa [Function.update_of_ne hc]

theorem readerExited_push {conn' : ConnId} {command : ReadLoopCommand Nat} :
    ((s.push conn command).conns conn').readerExited = (s.conns conn').readerExited := by
  simp only [State.push, State.setConn]
  by_cases hc : conn' = conn
  · subst hc
    rw [Function.update_self]
  · rw [Function.update_of_ne hc]

theorem started_step (hu : Unique log s) {request : Request} (hp : s.calls i = .waiting request)
    (hd : callId ∉ log.filterMap Event.started?) :
    Unique (log ++ [Event.started i callId]) (s.setCall i (.started request callId)) := by
  have hnew (j) : .started j callId ∉ log := fun h => hd (List.mem_filterMap.2 ⟨_, h, rfl⟩)
  refine ⟨fun j k id h h' => ?_, fun j request' id h => ?_, fun j b h => ?_, fun j b k d h h' => ?_,
    fun j b h => ?_⟩
  · simp only [List.mem_append, List.mem_singleton, Event.started.injEq] at h h'
    rcases h with h | ⟨rfl, rfl⟩ <;> rcases h' with h' | ⟨rfl, hid⟩
    · exact hu.starter j k id h h'
    · rw [hid] at h
      exact absurd h (hnew j)
    · exact absurd h' (hnew k)
    · rfl
  · rcases calls_setCall_cases h with ⟨rfl, hpc⟩ | ⟨-, hpc⟩
    · cases hpc
      refine ⟨by simp, fun k b hb => ?_⟩
      have hs := hu.started k b (by simpa using hb)
      rintro rfl
      exact hnew k hs
    · obtain ⟨hs, hne⟩ := hu.pending j request' id hpc
      exact ⟨List.mem_append_left _ hs, fun k b hb => hne k b (by simpa using hb)⟩
  · exact List.mem_append_left _ (hu.started j b (by simpa using h))
  · exact hu.inj j b k d (by simpa using h) (by simpa using h')
  · by_cases hj : j = i
    · subst hj
      simp [CallPc.attempt?] at h
    · rw [calls_setCall_of_ne hj] at h
      exact hu.kept j b h

theorem subscribe (hu : Unique log s) {request : Request} {phase : Phase}
    (hp : s.calls i = .started request callId) :
    Unique (log ++ [Event.subscribed i ⟨request, callId, s.current, s.made⟩])
      (({ s with made := s.made + 1 }.push s.current (.subscribeCallAck callId s.made)).setCall i
        (.active phase ⟨request, callId, s.current, s.made⟩ none)) := by
  set new : Attempt := ⟨request, callId, s.current, s.made⟩ with hnew
  obtain ⟨hst, hne⟩ := hu.pending i request callId hp
  have hsub (j b) : .subscribed j b ∈ log ++ [Event.subscribed i new] ↔ .subscribed j b ∈ log ∨ j = i ∧ b = new := by
    simp
  refine ⟨fun j k id h h' => ?_, fun j request' id h => ?_, fun j b h => ?_, fun j b k d h h' hid => ?_,
    fun j b h hack hx => ?_⟩
  · exact hu.starter j k id (by simpa using h) (by simpa using h')
  · rcases calls_setCall_cases h with ⟨-, hpc⟩ | ⟨hj, hpc⟩
    · cases hpc
    · obtain ⟨hs, hne'⟩ := hu.pending j request' id hpc
      refine ⟨by simpa using hs, fun k b hb => ?_⟩
      rcases (hsub k b).1 hb with hb | ⟨rfl, rfl⟩
      · exact hne' k b hb
      · rintro rfl
        exact hj (hu.starter j k callId hs hst)
  · rcases (hsub j b).1 h with h | ⟨rfl, rfl⟩
    · exact List.mem_append_left _ (hu.started j b h)
    · exact List.mem_append_left _ hst
  · rcases (hsub j b).1 h with hb | ⟨rfl, rfl⟩ <;> rcases (hsub k d).1 h' with hd | ⟨rfl, rfl⟩
    · exact hu.inj j b k d hb hd hid
    · exact absurd hid (hne j b hb)
    · exact absurd hid.symm (hne k d hd)
    · exact ⟨rfl, rfl⟩
  · by_cases hj : j = i
    · subst hj
      rw [calls_setCall_self] at h
      cases h
      refine .inr ?_
      simp [new, State.setCall, State.push, State.setConn]
    · rw [calls_setCall_of_ne hj] at h
      exact entry_push_of (hu.kept j b h hack (by rwa [← readerExited_push]))

theorem move_cases {act : CallAction} {pc pc' : CallPc} (hm : Move s i act pc pc' evs) :
    (∃ request callId, act = .stateSeen callId ∧ pc = .waiting request ∧ pc' = .started request callId ∧
      evs = [.started i callId]) ∨
    ((∀ request callId, pc' ≠ .started request callId) ∧ ∀ j callId, .started j callId ∉ evs) := by
  cases hm with
  | started => exact .inl ⟨_, _, rfl, rfl, rfl, rfl⟩
  | quiet _ _ hno => exact .inr ⟨hno, by simp⟩
  | returned | listening | sent | acknowledged | skipped => exact .inr ⟨nofun, by simp⟩

theorem not_started_of_leaves {act : CallAction} {phase : Phase} {pc : CallPc}
    (hl : Leaves s i a act phase rx pc evs) : ∀ j callId, .started j callId ∉ evs := by
  cases hl with
  | acknowledged | replied | dropped => simp
  | failed => split <;> simp

/-- What happens to a connection keeps the registrations of the live attempts. -/
theorem entry_change {w : WireConn} (hu : Unique log s) (hi : Inv log s)
    (hw : Changes (s.conns conn) w) (ha : (s.calls i).attempt? = some a) (hc : a.conn = conn)
    (hx : w.readerExited = false) (he : (s.conns conn).Entry a.callId a.tx) : w.Entry a.callId a.tx := by
  obtain ⟨hs, hnl⟩ := hi.active i a ha
  cases hw with
  | @process command commands hcmd =>
    cases command with
    | subscribeCallAck id tx' =>
      by_cases hid : id = a.callId
      · obtain ⟨j, b, hb, -, hbid, hbtx⟩ := hi.entry conn id tx' (.inr (by rw [hcmd]; exact List.mem_cons_self))
        obtain ⟨-, rfl⟩ := hu.inj j b i a hb hs (hbid.trans hid)
        left
        simp [ReadLoopChannels.processCommand, hid, hbtx]
      · rcases he with he | he
        · left
          simpa [ReadLoopChannels.processCommand, Std.ExtTreeMap.getElem?_insert, hid] using he
        · right
          rw [hcmd] at he
          rcases List.mem_cons.1 he with he | he
          · cases he
            exact absurd rfl hid
          · exact he
    | removeCallAck id =>
      have hid : id ≠ a.callId := by
        rintro rfl
        obtain ⟨j, b, r, hb, hr, hbid⟩ := hi.removal conn a.callId (by rw [hcmd]; exact List.mem_cons_self)
        obtain ⟨rfl, rfl⟩ := hu.inj j b i a hb hs hbid
        exact hnl r hr
      rcases he with he | he
      · left
        simpa [ReadLoopChannels.processCommand, Std.ExtTreeMap.getElem?_erase, hid] using he
      · right
        rw [hcmd] at he
        rcases List.mem_cons.1 he with he | he
        · cases he
        · exact he
    | _ =>
      rcases he with he | he
      · exact .inl he
      · right
        rw [hcmd] at he
        rcases List.mem_cons.1 he with he | he
        · cases he
        · exact he
  | command => exact he.imp_right (List.mem_append_left _)
  | exit => cases hx
  | lost => exact he
  | other hch => exact he.imp_left fun he => by rw [hch]; exact he

theorem step {act : Action} (hu : Unique log s) (hi : Inv log s) (hd : DistinctIds log act)
    (h : Calls.step c s act = some (s', evs)) : Unique (log ++ evs) s' := by
  have hst := step_step h
  clear h
  cases hst with
  | @move i act pc evs hm =>
    have hmove := move_cases hm
    generalize hc : s.calls i = pc₀ at hm hmove
    rcases hmove with ⟨request, callId, rfl, rfl, rfl, rfl⟩ | ⟨hpc, hev⟩
    · exact hu.started_step hc hd
    · have hq := hm.quiet_events
      refine hu.frame hev (fun j b hb => by have := hq _ hb; cases this) (fun j request id hj => ?_)
        (fun j b hb hack hx => hu.kept j b ?_ hack hx)
      · rw [calls_setCall] at hj
        split at hj
        · exact absurd hj (hpc request id)
        · exact hj
      · rw [calls_setCall] at hb
        split at hb
        · rename_i he
          rwa [hm.attempt?, ← hc, ← he] at hb
        · exact hb
  | subscribe hp hx => exact hu.subscribe hp
  | @leave i act a phase rx pc evs hp hl =>
    have hcalls (j) : ((s.dropGuard a).setCall i pc).calls j = if j = i then pc else s.calls j := by
      rw [calls_setCall, Inv.calls_dropGuard]
    refine hu.frame (not_started_of_leaves hl) hl.not_subscribed (fun j request id hj => ?_)
      (fun j b hb hack hx => ?_)
    · rw [hcalls] at hj
      split at hj
      · exact absurd hj (hl.not_started request id)
      · exact hj
    · rw [hcalls] at hb
      split at hb
      · rw [hl.attempt?] at hb
        cases hb
      · have hack' : s.acks b.tx = none := by simpa [State.setCall] using hack
        unfold State.dropGuard at hx ⊢
        split
        · rename_i hexit
          rw [if_pos hexit] at hx
          exact hu.kept j b hb hack' hx
        · rename_i hexit
          rw [if_neg hexit] at hx
          exact entry_push_of (hu.kept j b hb hack' (by rwa [← readerExited_push]))
  | @change act conn w hw hup =>
    refine hu.frame (by simp) (by simp) (fun _ _ _ h => h) (fun j b hb hack hx => ?_)
    by_cases hc : b.conn = conn
    · simp only [State.setConn, hc, Function.update_self] at hx ⊢
      refine hu.entry_change hi hw hb hc hx ?_
      rw [← hc]
      refine hu.kept j b hb hack ?_
      rw [hc]
      exact hw.readerExited hx
    · simp only [State.setConn, Function.update_of_ne hc] at hx ⊢
      exact hu.kept j b hb hack hx
  | @ackFound conn ack tx hx₀ htx =>
    refine hu.frame (by simp) (by simp) (fun _ _ _ h => h) (fun j b hb hack hx => ?_)
    obtain ⟨k, d, hd, hdc, hdid, hdtx⟩ := hi.entry conn ack.callId tx (.inl htx)
    have hne : b.tx ≠ tx := by
      rintro rfl
      simp [State.setAck] at hack
    replace hack : Function.update s.acks tx (some ack) b.tx = none := hack
    rw [Function.update_of_ne hne] at hack
    have hkept := hu.kept j b hb hack
    by_cases hc : b.conn = conn
    · -- The entry that is taken is another attempt's.
      have hid : ack.callId ≠ b.callId := by
        intro hid
        obtain ⟨-, rfl⟩ := hu.inj k d j b hd (hi.active j b hb).1 (hdid.trans hid)
        exact hne hdtx
      subst hc
      refine (hkept hx₀).imp (fun he => ?_) fun he => ?_
      · simpa [State.setAck, State.setConn, Std.ExtTreeMap.getElem?_erase, hid] using he
      · simpa [State.setAck, State.setConn] using he
    · have hconn : ((s.setConn conn { s.conns conn with channels := { (s.conns conn).channels with
          txCallAck := (s.conns conn).channels.txCallAck.erase ack.callId } }).setAck tx ack).conns b.conn =
          s.conns b.conn := Function.update_of_ne hc ..
      rw [hconn] at hx ⊢
      exact hkept hx
  | ackDropped hx htx =>
    refine hu.frame (by simp) (by simp) (fun _ _ _ h => h) ?_
    simpa only [State.setConn, Function.update_eq_self] using hu.kept
  | @arrived conn call =>
    refine hu.frame (by simp) (by simp) (fun j request id hj => ?_) (fun j b hb => ?_)
    · exact arrive_started hj
    · refine hu.kept j b ?_
      rwa [← attempt?_arrive c.capacity conn call]
  | outside => exact hu.frame (by simp) (by simp) (fun _ _ _ h => h) hu.kept

end Unique

theorem unique {C : List Event → State → Action → Prop} (hC : ∀ log s act, C log s act → DistinctIds log act)
    (h : (machine c).Exec C log s) : Unique log s := by
  refine h.invariant .init ?_
  intro log s act s' evs hr hu hc ha
  exact hu.step (inv hr) (hC _ _ _ hc) ha

/-- The ack is delivered to every attempt that it is addressed to. -/
theorem addressed_of_found (hi : Inv log s) (hu : Unique log s)
    (htx : (s.conns conn).channels.txCallAck[ack.callId]? = some tx) :
    ∀ x ∈ addressed log conn ack, x.2.tx = tx := by
  rintro ⟨i, a⟩ hx
  obtain ⟨hl, -, hid⟩ := mem_addressed.1 hx
  obtain ⟨j, b, hb, -, hbid, rfl⟩ := hi.entry conn ack.callId tx (.inl htx)
  obtain ⟨-, rfl⟩ := hu.inj j b i a hb (mem_live.1 hl).1 (hbid.trans hid.symm)
  rfl

/-- There is no attempt that an ack is addressed to that finds no entry. -/
theorem addressed_of_dropped (hi : Inv log s) (hu : Unique log s) (hx : (s.conns conn).readerExited = false)
    (htx : (s.conns conn).channels.txCallAck[ack.callId]? = none)
    (hr : ReadsRegistered log s (.read conn (.upstreamCallAck ack))) : addressed log conn ack = [] := by
  rw [List.eq_nil_iff_forall_not_mem]
  rintro ⟨i, a⟩ hm
  obtain ⟨hqueue, hack⟩ := hr (i, a) hm
  obtain ⟨hl, rfl, hid⟩ := mem_addressed.1 hm
  obtain ⟨hs, hnl⟩ := mem_live.1 hl
  rcases hu.kept i a (hi.known i a hs hnl) hack hx with he | he
  · rw [hid, htx] at he
    cases he
  · exact hqueue _ he (by rw [← hid]; rfl)

theorem AcksDelivered.nil : AcksDelivered [] :=
  History.Each.nil

theorem AcksDelivered.mono (h : AcksDelivered log) (evs : List Event) (hq : ∀ e ∈ evs, e.ackRead? = none) :
    AcksDelivered (log ++ evs) := by
  refine History.each_append.2 ⟨fun pre e post he r hr x hx => ?_, fun pre e post he r hr x hx => ?_⟩
  · exact List.mem_append_left _ (h pre e post he r hr x hx)
  · rw [hq e (by simp [he])] at hr
    cases hr

theorem acksDelivered_read (h : AcksDelivered log) (hev : ∀ e ∈ evs, e.ackRead? = none)
    (ha : ∀ x ∈ addressed log conn ack, .delivered x.2.tx ack ∈ log ++ Event.ackRead conn ack :: evs) :
    AcksDelivered (log ++ Event.ackRead conn ack :: evs) := by
  refine History.each_append.2 ⟨fun pre e post he r hr x hx => ?_, History.each_cons.2 ⟨?_, ?_⟩⟩
  · exact List.mem_append_left _ (h pre e post he r hr x hx)
  · intro r hr x hx
    cases hr
    rw [List.append_nil] at hx
    exact ha x hx
  · intro pre e post he r hr
    rw [hev e (by simp [he])] at hr
    cases hr

theorem step_acksDelivered (hi : Inv log s) (hu : Unique log s) (hr : ReadsRegistered log s act)
    (hd : AcksDelivered log) (h : step c s act = some (s', evs)) : AcksDelivered (log ++ evs) := by
  have hst := step_step h
  clear h
  cases hst with
  | @move i act pc evs hm =>
    refine hd.mono _ ?_
    generalize s.calls i = pc₀ at hm
    cases hm <;> simp [Event.ackRead?]
  | leave hp hl =>
    refine hd.mono _ ?_
    cases hl with
    | acknowledged | replied | dropped => simp [Event.ackRead?]
    | failed => split <;> simp [Event.ackRead?]
  | @ackFound conn ack tx hx htx =>
    refine acksDelivered_read hd (by simp [Event.ackRead?]) fun x hm => ?_
    rw [addressed_of_found hi hu htx x hm]
    simp
  | @ackDropped conn ack hx htx =>
    refine acksDelivered_read hd (List.forall_mem_nil _) fun x hm => ?_
    rw [addressed_of_dropped hi hu hx htx hr] at hm
    cases hm
  | subscribe | change | arrived | outside => exact hd.mono _ (by simp [Event.ackRead?])

theorem noneThrownAway (hi : Inv log s) (hd : AcksDelivered log) : NoneThrownAway log s := by
  rintro i a rx ha hack pre ack post rfl hs hid
  obtain ⟨-, hnl⟩ := hi.active i a (by rw [ha]; rfl)
  have hlive : (i, a) ∈ live pre := mem_live.2 ⟨hs, fun r hr => hnl r (List.mem_append_left _ hr)⟩
  have hdel := hd pre _ post rfl (a.conn, ack) rfl (i, a) (mem_addressed.2 ⟨hlive, rfl, hid.symm⟩)
  have := hi.delivered a.tx ack hdel
  rw [hack] at this
  cases this

/-- Every ack that is read for an attempt is delivered to it, and none waits for an ack that was read, as
long as the read loop takes the registration before it reads the ack. -/
theorem read_acks_delivered (h : (machine c).Exec
      (fun log s act => DistinctIds log act ∧ ReadsRegistered log s act) log s) :
    AcksDelivered log ∧ NoneThrownAway log s := by
  have hd : AcksDelivered log := by
    refine h.invariant (I := fun log _ => AcksDelivered log) AcksDelivered.nil ?_
    rintro log s act s' evs hrun hd ⟨-, hr⟩ ha
    exact step_acksDelivered (inv hrun) (unique (fun _ _ _ hc => hc.1) hrun) hr hd ha
  exact ⟨hd, noneThrownAway (inv h) hd⟩

/-- Two calls register, and their acks are read after that. -/
theorem read_acks_delivered_two : ∃ log s, (machine sampleConfig).Exec
      (fun log s act => DistinctIds log act ∧ ReadsRegistered log s act) log s ∧
    (AcksDelivered log ∧ NoneThrownAway log s) ∧ .returned 1 (.ok (.callId "b")) ∈ log := by
  obtain ⟨log, s, h, hr⟩ := Machine.Exec.exists_of_any (M := machine sampleConfig)
    (C := fun log s act => DistinctIds log act ∧ ReadsRegistered log s act)
    (startRun 0 (.sendCall sampleCall) "a" ++ startRun 1 (.sendCall sampleCall) "b" ++
      ([.call 1 .sent, .process 0, .process 0, .call 0 .sent, .read 0 (.upstreamCallAck ⟨"b", 0, "OK"⟩),
        .read 0 (.upstreamCallAck ⟨"a", 0, "OK"⟩), .call 1 .ackReceived] : List Action))
    (P := fun log _ => .returned 1 (.ok (.callId "b")) ∈ log) (by decide +kernel)
  exact ⟨log, s, h, read_acks_delivered h, hr⟩

/-- The ack is read while the registration is in the queue. -/
theorem ack_thrown_away : ¬ ∀ c log s, (machine c).Exec (fun log _ act => DistinctIds log act) log s →
    AcksDelivered log ∧ NoneThrownAway log s := by
  intro h
  obtain ⟨log, s, hr, hn⟩ := Machine.Exec.exists_of_any (M := machine sampleConfig)
    (C := fun log _ act => DistinctIds log act)
    (startRun 0 (.sendCall sampleCall) "a" ++
      ([.call 0 .sent, .read 0 (.upstreamCallAck ⟨"a", 0, "OK"⟩), .process 0] : List Action))
    (P := fun log _ => ¬ AcksDelivered log) (by decide +kernel)
  exact hn (h _ _ _ hr).1

end Iscp.Calls
