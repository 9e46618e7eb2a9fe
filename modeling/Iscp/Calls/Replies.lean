import Iscp.Calls.Acks

/-!
# Replies to calls

Every `send_call_and_wait_reply_call` has a subscription of its own to the calls that arrive, from before its
message is sent to the end of the attempt. Nobody else reads from it, so what it passes over is lost for no
other; as long as the subscription has room for what arrives, it holds what has arrived and is not read, and
the first call that is a reply to its own is returned.
-/

namespace Iscp.Calls

open Message (UpstreamCallAck)

variable {c : E2e.Config} {s s' : State} {log evs : List Event} {i j : Nat} {a b : Attempt} {conn : ConnId}
  {act : Action} {phase : Phase} {rx : Option (List Message.DownstreamCall)} {queue : List Message.DownstreamCall}
  {call : Message.DownstreamCall}

namespace Event

def isLeft (i : Nat) (a : Attempt) : Event → Bool
  | left j b _ => j = i ∧ b = a
  | _ => false

def arrived? (conn : ConnId) : Event → Option Message.DownstreamCall
  | arrived conn' call => if conn' = conn then some call else none
  | _ => none

end Event

/-- The calls that arrive on the connection of an attempt from its subscription to its end. -/
def heard (log : List Event) (i : Nat) (a : Attempt) : List Message.DownstreamCall :=
  ((log.takeWhile fun e => !e.isLeft i a).dropWhile (· ≠ .listening i a)).filterMap (Event.arrived? a.conn)

/-- The first of them that is a reply to its call. -/
def firstReply (log : List Event) (i : Nat) (a : Attempt) : Option Message.DownstreamCall :=
  (heard log i a).find? (·.requestCallId = a.callId)

/-- The invocation comes to return the reply, by steps of its own. -/
def Returns (c : E2e.Config) (log : List Event) (s : State) (i : Nat) (call : Message.DownstreamCall) : Prop :=
  ∃ acts : List CallAction, (∀ act ∈ acts, act = .ackReceived ∨ act = .receive) ∧
    ∃ log' s', (machine c).exec (fun _ _ _ => True) (acts.map (.call i)) log s = some (log', s') ∧
      .returned i (.ok (.reply (replyOf call))) ∈ log'

structure Replied (c : E2e.Config) (log : List Event) (s : State) : Prop where
  /-- A reply that is returned is the first to the call of the invocation. -/
  own : ∀ i r, .returned i (.ok (.reply r)) ∈ log → ∃ a call, .listening i a ∈ log ∧
    firstReply log i a = some call ∧ r = replyOf call
  /-- An attempt whose reply arrives before its end has ended with it, unless its message was not sent or the
  application has dropped it. -/
  answered : ∀ i a call r, .listening i a ∈ log → firstReply log i a = some call →
    .sent a.conn (a.request.message a.callId) ∈ log → .left i a r ∈ log → r ≠ none →
      r = some (.ok (.reply (replyOf call))) ∧ .returned i (.ok (.reply (replyOf call))) ∈ log
  /-- One that has not ended comes to return it once the ack is delivered. -/
  returns : ∀ i a call ack, .listening i a ∈ log → firstReply log i a = some call →
    .sent a.conn (a.request.message a.callId) ∈ log → .delivered a.tx ack ∈ log → (∀ r, .left i a r ∉ log) →
      Returns c log s i call

def CallPc.HasRoom (channelSize : Nat) : CallPc → Prop
  | active _ _ (some queue) => queue.length < channelSize
  | _ => True

instance (n : Nat) (pc : CallPc) : Decidable (pc.HasRoom n) := by
  unfold CallPc.HasRoom
  split <;> infer_instance

/-- Every attempt has room for each call that arrives. -/
def NeverFull (c : E2e.Config) (log : List Event) (s : State) : Action → Prop
  | .read _ (.downstreamCall _) => ∀ x ∈ live log, (s.calls x.1).HasRoom c.channelSize
  | _ => True

instance (log : List Event) (s : State) (act : Action) : Decidable (NeverFull c log s act) := by
  unfold NeverFull
  induction act using Action.casesOn with
  | read conn msg => induction msg using Message.MessageEnum.casesOn <;> infer_instance
  | _ => infer_instance

/-- The connection stays up, each call has an id of its own, and no subscription overflows. -/
def StaysUp (c : E2e.Config) (log : List Event) (s : State) (act : Action) : Prop :=
  act.isEnd = false ∧ DistinctIds log act ∧ NeverFull c log s act

instance (log : List Event) (s : State) (act : Action) : Decidable (StaysUp c log s act) :=
  inferInstanceAs (Decidable (_ ∧ _))

/-! ### What an attempt hears -/

theorem isLeft_iff {e : Event} : e.isLeft i a ↔ ∃ r, e = .left i a r := by
  cases e with
  | left j b r =>
    rw [Event.isLeft, decide_eq_true_eq]
    constructor
    · rintro ⟨rfl, rfl⟩
      exact ⟨r, rfl⟩
    · rintro ⟨r', h⟩
      cases h
      exact ⟨rfl, rfl⟩
  | _ => simp [Event.isLeft]

theorem takeWhile_of_not_left (h : ∀ r, .left i a r ∉ log) :
    (log ++ evs).takeWhile (fun e => !e.isLeft i a) = log ++ evs.takeWhile fun e => !e.isLeft i a := by
  refine List.takeWhile_append_of_pos fun e he => ?_
  rw [Bool.not_eq_true', ← Bool.not_eq_true, isLeft_iff]
  rintro ⟨r, rfl⟩
  exact h r he

theorem heard_of_left {r : Option (Except Error Result)} (h : .left i a r ∈ log) :
    heard (log ++ evs) i a = heard log i a := by
  obtain ⟨pre, post, rfl⟩ := List.append_of_mem h
  have htake (l : List Event) : (pre ++ Event.left i a r :: l).takeWhile (fun e => !e.isLeft i a) =
      pre.takeWhile fun e => !e.isLeft i a := by
    rw [List.takeWhile_append]
    split
    · rename_i hp
      rw [List.takeWhile_cons_of_neg (by simp [Event.isLeft]), List.append_nil]
      exact ((List.takeWhile_prefix _).eq_of_length hp).symm
    · rfl
  rw [heard, heard, List.append_assoc, List.cons_append, htake, htake]

theorem heard_append (hl : .listening i a ∈ log) (h : ∀ r, .left i a r ∉ log) :
    heard (log ++ evs) i a =
      heard log i a ++ (evs.takeWhile fun e => !e.isLeft i a).filterMap (Event.arrived? a.conn) := by
  have hlog : log.takeWhile (fun e => !e.isLeft i a) = log := by
    have := @takeWhile_of_not_left log [] i a h
    simpa using this
  have hd : log.dropWhile (· ≠ .listening i a) ≠ [] := by
    intro hd
    have := List.dropWhile_eq_nil_iff.1 hd _ hl
    simp at this
  rw [heard, heard, takeWhile_of_not_left h, hlog, List.dropWhile_append, if_neg (by simpa using hd),
    List.filterMap_append]

/-- Nothing arrives for the attempt with these events. -/
theorem heard_append_quiet (hl : .listening i a ∈ log) (hq : ∀ e ∈ evs, e.arrived? a.conn = none) :
    heard (log ++ evs) i a = heard log i a := by
  by_cases h : ∃ r, .left i a r ∈ log
  · obtain ⟨r, hr⟩ := h
    exact heard_of_left hr
  · rw [heard_append hl (not_exists.1 h), List.filterMap_eq_nil_iff.2, List.append_nil]
    intro e he
    exact hq e ((List.takeWhile_prefix _).subset he)

/-- An attempt that begins to listen has heard nothing. -/
theorem heard_listening (hl : .listening i a ∉ log) (h : ∀ r, .left i a r ∉ log) :
    heard (log ++ [Event.listening i a]) i a = [] := by
  have hd : log.dropWhile (· ≠ .listening i a) = [] := by
    rw [List.dropWhile_eq_nil_iff]
    intro e he
    have hne : e ≠ .listening i a := by
      rintro rfl
      exact hl he
    simpa using hne
  rw [heard, takeWhile_of_not_left h, List.dropWhile_append, hd]
  simp [Event.isLeft, Event.arrived?]

/-! ### What a subscription holds -/

structure Up (s : State) : Prop where
  ct : s.ct = false
  conn : ∀ conn, (s.conns conn).ct = false ∧ (s.conns conn).readerExited = false

theorem Up.congr (hu : Up s) (hct : s'.ct = s.ct) (hconns : s'.conns = s.conns) : Up s' := by
  constructor
  · rw [hct, hu.ct]
  · rw [hconns]
    exact hu.conn

theorem Up.push {command : Wire.ReadLoopCommand Nat} (hu : Up s) : Up (s.push conn command) := by
  refine ⟨hu.ct, fun conn' => ?_⟩
  simp only [State.push, State.setConn]
  by_cases hc : conn' = conn
  · subst hc
    rw [Function.update_self]
    exact hu.conn conn'
  · rw [Function.update_of_ne hc]
    exact hu.conn conn'

theorem Up.setConn {w : WireConn} (hu : Up s)
    (hw : w.ct = (s.conns conn).ct ∧ w.readerExited = (s.conns conn).readerExited) : Up (s.setConn conn w) := by
  refine ⟨hu.ct, fun conn' => ?_⟩
  simp only [State.setConn]
  by_cases hc : conn' = conn
  · subst hc
    rw [Function.update_self, hw.1, hw.2]
    exact hu.conn conn'
  · rw [Function.update_of_ne hc]
    exact hu.conn conn'

theorem Up.setAck {tx : Nat} {ack : UpstreamCallAck} (hu : Up s) : Up (s.setAck tx ack) :=
  hu.congr rfl rfl

theorem Up.step (hu : Up s) (he : act.isEnd = false) (h : Calls.step c s act = some (s', evs)) : Up s' := by
  have hst := step_step h
  clear h
  cases hst with
  | move | arrived => exact hu.congr rfl rfl
  | subscribe =>
    have hm : Up { s with made := s.made + 1 } := hu.congr rfl rfl
    exact hm.push.congr rfl rfl
  | leave =>
    unfold State.dropGuard
    split
    · exact hu.congr rfl rfl
    · exact hu.push.congr rfl rfl
  | change hw hup => exact hu.setConn (hup he)
  | ackFound => exact Up.setAck (hu.setConn ⟨rfl, rfl⟩)
  | ackDropped => exact hu.setConn ⟨rfl, rfl⟩
  | outside hct => exact ⟨(hct he).trans hu.ct, hu.conn⟩

/-- What holds of an attempt while it is active. -/
structure Listens (log : List Event) (i : Nat) (phase : Phase) (a : Attempt)
    (rx : Option (List Message.DownstreamCall)) : Prop where
  unsent : phase = .subscribed ∨ phase = .sending → ∀ conn call, .sent conn call ∈ log → call.callId ≠ a.callId
  /-- The subscription holds what was heard but for some calls that are no reply. -/
  holds : ∀ queue, rx = some queue → .listening i a ∈ log ∧ ∃ skipped, heard log i a = skipped ++ queue ∧
    ∀ call ∈ skipped, call.requestCallId ≠ a.callId
  deaf : rx = none → .listening i a ∉ log

structure Hears (log : List Event) (s : State) : Prop where
  sent : ∀ conn call, .sent conn call ∈ log → ∃ j b, .subscribed j b ∈ log ∧ b.callId = call.callId
  listening : ∀ i a, .listening i a ∈ log → .subscribed i a ∈ log
  active : ∀ i phase a rx, s.calls i = .active phase a rx → Listens log i phase a rx

/-- The reply is the first call in the subscription that matches. -/
theorem Listens.firstReply (hl : Listens log i phase a (some queue)) :
    firstReply log i a = queue.find? (·.requestCallId = a.callId) := by
  obtain ⟨-, skipped, hh, hs⟩ := hl.holds queue rfl
  rw [Calls.firstReply, hh, List.find?_append, List.find?_eq_none.2, Option.none_or]
  intro call hc
  simpa using hs call hc

def Event.isMute : Event → Bool
  | sent .. | listening .. | arrived .. => false
  | _ => true

theorem arrived?_of_mute {e : Event} (he : e.isMute) : e.arrived? conn = none := by
  cases e with
  | sent | listening | arrived => cases he
  | _ => rfl

theorem mem_append_mute {e : Event} (hq : ∀ e ∈ evs, e.isMute) (he : e.isMute = false) :
    e ∈ log ++ evs ↔ e ∈ log := by
  rw [List.mem_append, or_iff_left]
  intro hm
  rw [hq e hm] at he
  cases he

theorem Listens.append (hl : Listens log i phase a rx) (hq : ∀ e ∈ evs, e.isMute) :
    Listens (log ++ evs) i phase a rx := by
  refine ⟨fun hp conn call hs => ?_, fun queue hr => ?_, fun hr => ?_⟩
  · exact hl.unsent hp conn call ((mem_append_mute hq rfl).1 hs)
  · obtain ⟨hli, hh⟩ := hl.holds queue hr
    refine ⟨List.mem_append_left _ hli, ?_⟩
    rwa [heard_append_quiet hli fun e he => arrived?_of_mute (hq e he)]
  · rw [mem_append_mute hq rfl]
    exact hl.deaf hr

namespace Hears

theorem init : Hears [] {} := ⟨nofun, nofun, nofun⟩

theorem frame (hh : Hears log s) (hq : ∀ e ∈ evs, e.isMute)
    (ha : ∀ i phase a rx, s'.calls i = .active phase a rx → Listens (log ++ evs) i phase a rx) :
    Hears (log ++ evs) s' := by
  refine ⟨fun conn call h => ?_, fun i a h => ?_, ha⟩
  · obtain ⟨j, b, hb, hc⟩ := hh.sent conn call ((mem_append_mute hq rfl).1 h)
    exact ⟨j, b, List.mem_append_left _ hb, hc⟩
  · exact List.mem_append_left _ (hh.listening i a ((mem_append_mute hq rfl).1 h))

/-- One invocation changes. -/
theorem frame_call {pc : CallPc} (hh : Hears log s) (hq : ∀ e ∈ evs, e.isMute)
    (hcalls : s'.calls = (s.setCall i pc).calls)
    (ha : ∀ phase a rx, pc = .active phase a rx → Listens log i phase a rx) : Hears (log ++ evs) s' := by
  refine hh.frame hq fun j phase a rx h => ?_
  rw [hcalls, calls_setCall] at h
  split at h
  · rename_i hj
    subst hj
    exact (ha phase a rx h).append hq
  · exact (hh.active j phase a rx h).append hq

theorem subscribe (hh : Hears log s) (hi : Inv log s) (hu : Unique log s) {request : Request} {callId : String}
    (hp : s.calls i = .started request callId) :
    Hears (log ++ [Event.subscribed i ⟨request, callId, s.current, s.made⟩])
      (({ s with made := s.made + 1 }.push s.current (.subscribeCallAck callId s.made)).setCall i
        (.active phase ⟨request, callId, s.current, s.made⟩ none)) := by
  refine hh.frame_call (by simp [Event.isMute]) rfl fun phase' a rx h => ?_
  cases h
  refine ⟨fun _ conn call hs => ?_, nofun, fun _ hl => ?_⟩
  · obtain ⟨j, b, hb, hc⟩ := hh.sent conn call hs
    rw [← hc]
    exact (hu.pending i request callId hp).2 j b hb
  · exact Nat.lt_irrefl _ (hi.tx_lt i _ (hh.listening i _ hl))

theorem listen (hh : Hears log s) (hi : Inv log s) (hp : s.calls i = .active .subscribed a none) :
    Hears (log ++ [Event.listening i a]) (s.setCall i (.active .sending a (some []))) := by
  obtain ⟨hs, hnl⟩ := hi.active i a (by rw [hp]; rfl)
  have hl := hh.active i _ a _ hp
  refine ⟨fun conn call h => ?_, fun j b h => ?_, fun j phase b rx h => ?_⟩
  · obtain ⟨j, b, hb, hc⟩ := hh.sent conn call (by simpa using h)
    exact ⟨j, b, List.mem_append_left _ hb, hc⟩
  · simp only [List.mem_append, List.mem_singleton, Event.listening.injEq] at h
    rcases h with h | ⟨rfl, rfl⟩
    · exact List.mem_append_left _ (hh.listening j b h)
    · exact List.mem_append_left _ hs
  · rcases calls_setCall_cases h with ⟨rfl, hpc⟩ | ⟨hj, hpc⟩
    · cases hpc
      refine ⟨fun _ conn call hs => ?_, fun queue hq => ?_, nofun⟩
      · exact hl.unsent (.inl rfl) conn call (by simpa using hs)
      · cases hq
        refine ⟨by simp, [], ?_, nofun⟩
        rw [heard_listening (hl.deaf rfl) hnl, List.append_nil]
    · have hlj := hh.active j phase b rx hpc
      refine ⟨fun hph conn call hs => ?_, fun queue hq => ?_, fun hr => ?_⟩
      · exact hlj.unsent hph conn call (by simpa using hs)
      · obtain ⟨hli, hhe⟩ := hlj.holds queue hq
        refine ⟨List.mem_append_left _ hli, ?_⟩
        rwa [heard_append_quiet hli (by simp [Event.arrived?])]
      · have hn := hlj.deaf hr
        simpa [hj] using hn

theorem send (hh : Hears log s) (hi : Inv log s) (hu : Unique log s) (hp : s.calls i = .active .sending a rx) :
    Hears (log ++ [Event.sent a.conn (a.request.message a.callId)]) (s.setCall i (.active .waitingAck a rx)) := by
  have hs := (hi.active i a (by rw [hp]; rfl)).1
  have hid : (a.request.message a.callId).callId = a.callId := by cases a.request <;> rfl
  refine ⟨fun conn call h => ?_, fun j b h => ?_, fun j phase b rx' h => ?_⟩
  · simp only [List.mem_append, List.mem_singleton, Event.sent.injEq] at h
    rcases h with h | ⟨rfl, rfl⟩
    · obtain ⟨j, b, hb, hc⟩ := hh.sent conn call h
      exact ⟨j, b, List.mem_append_left _ hb, hc⟩
    · exact ⟨i, a, List.mem_append_left _ hs, hid.symm⟩
  · exact List.mem_append_left _ (hh.listening j b (by simpa using h))
  · have hlj : Listens log j (if j = i then .sending else phase) b rx' := by
      rw [calls_setCall] at h
      split at h
      · rename_i hj
        cases h
        subst hj
        rw [if_pos rfl]
        exact hh.active j _ a _ hp
      · rename_i hj
        rw [if_neg hj]
        exact hh.active j phase b rx' h
    refine ⟨fun hph conn call hs' => ?_, fun queue hq => ?_, fun hr => ?_⟩
    · have hj : j ≠ i := by
        rintro rfl
        rw [calls_setCall_self] at h
        cases h
        rcases hph with hph | hph <;> cases hph
      rw [if_neg hj] at hlj
      rw [calls_setCall_of_ne hj] at h
      simp only [List.mem_append, List.mem_singleton, Event.sent.injEq] at hs'
      rcases hs' with hs' | ⟨rfl, rfl⟩
      · exact hlj.unsent hph conn call hs'
      · rw [hid]
        intro he
        exact hj (hu.inj i a j b hs (hi.active j b (by rw [h]; rfl)).1 he).1.symm
    · obtain ⟨hli, hhe⟩ := hlj.holds queue hq
      refine ⟨List.mem_append_left _ hli, ?_⟩
      rwa [heard_append_quiet hli (by simp [Event.arrived?])]
    · have hn := hlj.deaf hr
      simpa using hn

theorem arrive_active {capacity : Nat} {pc : CallPc} (h : pc.arrive capacity conn call = .active phase a rx) :
    ∃ rx₀, pc = .active phase a rx₀ ∧ rx = rx₀.map fun queue =>
      if a.conn = conn then (queue ++ [call]).drop ((queue ++ [call]).length - capacity) else queue := by
  unfold CallPc.arrive at h
  split at h
  · rename_i queue
    refine ⟨some queue, ?_⟩
    split at h
    · rename_i hc
      cases h
      exact ⟨rfl, by rw [Option.map_some, if_pos hc]⟩
    · rename_i hc
      cases h
      exact ⟨rfl, by rw [Option.map_some, if_neg hc]⟩
  · rename_i hno
    subst h
    cases rx with
    | none => exact ⟨none, rfl, rfl⟩
    | some queue => exact absurd rfl (hno phase a queue)

/-- A call arrives: it is heard by the attempts on its connection, and they have room for it. -/
theorem arrive (hh : Hears log s) (hi : Inv log s) (hr : NeverFull c log s (.read conn (.downstreamCall call))) :
    Hears (log ++ [Event.arrived conn call])
      { s with calls := fun i => (s.calls i).arrive c.capacity conn call } := by
  refine ⟨fun conn' call' h => ?_, fun j b h => ?_, fun j phase b rx h => ?_⟩
  · obtain ⟨j, b, hb, hc⟩ := hh.sent conn' call' (by simpa using h)
    exact ⟨j, b, List.mem_append_left _ hb, hc⟩
  · exact List.mem_append_left _ (hh.listening j b (by simpa using h))
  · obtain ⟨rx₀, hp, rfl⟩ := arrive_active h
    have hl := hh.active j phase b rx₀ hp
    obtain ⟨hs, hnl⟩ := hi.active j b (by rw [hp]; rfl)
    refine ⟨fun hph conn' call' hs' => hl.unsent hph conn' call' (by simpa using hs'), fun queue hq => ?_,
      fun hn => ?_⟩
    · obtain ⟨queue₀, rfl, rfl⟩ := Option.map_eq_some_iff.1 hq
      obtain ⟨hli, skipped, hhe, hsk⟩ := hl.holds queue₀ rfl
      refine ⟨List.mem_append_left _ hli, skipped, ?_, hsk⟩
      have hroom : queue₀.length < c.channelSize := by
        have := hr (j, b) (mem_live.2 ⟨hs, hnl⟩)
        rwa [hp] at this
      rw [heard_append hli hnl, hhe, List.append_assoc]
      by_cases hc : b.conn = conn
      · have hle := c.le_capacity
        rw [if_pos hc, show (queue₀ ++ [call]).length - c.capacity = 0 by simp; omega, List.drop_zero]
        simp [Event.isLeft, Event.arrived?, hc]
      · rw [if_neg hc]
        simp [Event.isLeft, Event.arrived?, Ne.symm hc]
    · have hn' := hl.deaf (Option.map_eq_none_iff.1 hn)
      simpa using hn'

theorem leaves_mute {act : CallAction} {pc : CallPc} (hl : Leaves s i a act phase rx pc evs) :
    ∀ e ∈ evs, e.isMute := by
  cases hl with
  | acknowledged | replied | dropped => simp [Event.isMute]
  | failed => split <;> simp [Event.isMute]

theorem step (hh : Hears log s) (hi : Inv log s) (hu : Unique log s) (hr : NeverFull c log s act)
    (h : Calls.step c s act = some (s', evs)) : Hears (log ++ evs) s' := by
  have hst := step_step h
  clear h
  cases hst with
  | @move i act pc evs hm =>
    generalize hc : s.calls i = pc₀ at hm
    cases hm with
    | quiet _ hpc =>
      refine hh.frame_call (List.forall_mem_nil _) rfl fun phase a rx h => ?_
      rw [h] at hpc
      cases hpc
    | returned | started => exact hh.frame_call (by simp [Event.isMute]) rfl nofun
    | listening => exact hh.listen hi hc
    | sent => exact hh.send hi hu hc
    | acknowledged =>
      refine hh.frame_call (by simp [Event.isMute]) rfl fun phase a rx h => ?_
      cases h
      have hl := hh.active _ _ _ _ hc
      exact ⟨by simp, hl.holds, hl.deaf⟩
    | skipped hne =>
      refine hh.frame_call (List.forall_mem_nil _) rfl fun phase a rx h => ?_
      cases h
      have hl := hh.active _ _ _ _ hc
      refine ⟨hl.unsent, fun queue hq => ?_, nofun⟩
      cases hq
      obtain ⟨hli, skipped, hhe, hs⟩ := hl.holds _ rfl
      refine ⟨hli, skipped ++ [_], by rw [hhe, List.append_assoc]; rfl, fun call hm => ?_⟩
      rcases List.mem_append.1 hm with hm | hm
      · exact hs call hm
      · rw [List.mem_singleton.1 hm]
        exact hne
  | subscribe hp => exact hh.subscribe hi hu hp
  | @leave i act a phase rx pc evs hp hl =>
    have hpc := hl.attempt?
    have hcalls : ((s.dropGuard a).setCall i pc).calls = (s.setCall i pc).calls := by
      rw [State.setCall, State.setCall, Inv.calls_dropGuard]
    refine hh.frame_call (leaves_mute hl) hcalls fun phase a rx h => ?_
    rw [h] at hpc
    cases hpc
  | change | outside =>
    have hq : ∀ e ∈ ([] : List Event), e.isMute := List.forall_mem_nil _
    exact hh.frame hq fun j phase b rx h => (hh.active j phase b rx h).append hq
  | ackFound | ackDropped =>
    refine hh.frame (by simp [Event.isMute]) fun j phase b rx h => ?_
    exact (hh.active j phase b rx h).append (by simp [Event.isMute])
  | arrived => exact hh.arrive hi hr

end Hears

/-! ### How attempts end -/

/-- The part of `Replied` that is about the history. -/
structure Ended (log : List Event) : Prop where
  own : ∀ i r, .returned i (.ok (.reply r)) ∈ log → ∃ a x call, .listening i a ∈ log ∧ .left i a x ∈ log ∧
    firstReply log i a = some call ∧ r = replyOf call
  answered : ∀ i a call r, .listening i a ∈ log → firstReply log i a = some call →
    .sent a.conn (a.request.message a.callId) ∈ log → .left i a r ∈ log → r ≠ none →
      r = some (.ok (.reply (replyOf call))) ∧ .returned i (.ok (.reply (replyOf call))) ∈ log

theorem senderAlive_of_entry (h : (s.conns a.conn).Entry a.callId a.tx) : s.senderAlive a := by
  rcases h with h | h
  · simp [State.senderAlive, h]
  · rw [State.senderAlive, Bool.or_eq_true, List.any_eq_true]
    exact .inr ⟨_, h, by simp⟩

namespace Ended

theorem init : Ended [] := ⟨by simp, by simp⟩

theorem append (he : Ended log) (hl : ∀ i a, .listening i a ∈ evs → ∀ r, .left i a r ∉ log)
    (hs : ∀ i a r, .left i a r ∈ log → .sent a.conn (a.request.message a.callId) ∉ evs)
    (hown : ∀ i r, .returned i (.ok (.reply r)) ∈ evs → ∃ a x call, .listening i a ∈ log ∧
      .left i a x ∈ log ++ evs ∧ firstReply (log ++ evs) i a = some call ∧ r = replyOf call)
    (hans : ∀ i a call r, .listening i a ∈ log ++ evs → firstReply (log ++ evs) i a = some call →
      .sent a.conn (a.request.message a.callId) ∈ log ++ evs → .left i a r ∈ evs → r ≠ none →
        r = some (.ok (.reply (replyOf call))) ∧ .returned i (.ok (.reply (replyOf call))) ∈ evs) :
    Ended (log ++ evs) := by
  have hfirst {i a r} (h : .left i a r ∈ log) : firstReply (log ++ evs) i a = firstReply log i a := by
    rw [firstReply, firstReply, heard_of_left h]
  refine ⟨fun i r h => ?_, fun i a call r hli hf hse h hr => ?_⟩
  · rcases List.mem_append.1 h with h | h
    · obtain ⟨a, x, call, hli, hle, hf, hc⟩ := he.own i r h
      exact ⟨a, x, call, List.mem_append_left _ hli, List.mem_append_left _ hle, (hfirst hle).trans hf, hc⟩
    · obtain ⟨a, x, call, hli, hrest⟩ := hown i r h
      exact ⟨a, x, call, List.mem_append_left _ hli, hrest⟩
  · rcases List.mem_append.1 h with h | h
    · rw [hfirst h] at hf
      have hli' : .listening i a ∈ log := by
        rcases List.mem_append.1 hli with hli | hli
        · exact hli
        · exact absurd h (hl i a hli r)
      have hse' : .sent a.conn (a.request.message a.callId) ∈ log := by
        rcases List.mem_append.1 hse with hse | hse
        · exact hse
        · exact absurd hse (hs i a r h)
      obtain ⟨hr', hret⟩ := he.answered i a call r hli' hf hse' h hr
      exact ⟨hr', List.mem_append_left _ hret⟩
    · obtain ⟨hr', hret⟩ := hans i a call r hli hf hse h hr
      exact ⟨hr', List.mem_append_right _ hret⟩

/-- No attempt begins, is sent or ends, and no reply is returned. -/
theorem quiet (he : Ended log) (hl : ∀ i a, .listening i a ∉ evs) (hs : ∀ conn call, .sent conn call ∉ evs)
    (hown : ∀ i r, .returned i (.ok (.reply r)) ∉ evs) (hleft : ∀ i a r, .left i a r ∉ evs) :
    Ended (log ++ evs) := by
  refine he.append (fun i a h => ?_) (fun i a r _ => hs _ _) (fun i r h => ?_) fun i a call r _ _ _ h => ?_
  · exact absurd h (hl i a)
  · exact absurd h (hown i r)
  · exact absurd h (hleft i a r)

/-- An attempt ends: if it has been sent and its reply is in the subscription, then with that. -/
theorem leave (he : Ended log) (hu : Unique log s) (hh : Hears log s) (hup : Up s)
    {act : CallAction} {pc : CallPc} (hp : s.calls i = .active phase a rx) (hl : Leaves s i a act phase rx pc evs) :
    Ended (log ++ evs) := by
  have hq := Hears.leaves_mute hl
  have hat : (s.calls i).attempt? = some a := by rw [hp]; rfl
  have hlis := hh.active i phase a rx hp
  have hfirst {queue} (hrx : rx = some queue) :
      firstReply (log ++ evs) i a = queue.find? (·.requestCallId = a.callId) := by
    subst hrx
    exact (hlis.append hq).firstReply
  have hlisten {j b} (h : .listening j b ∈ log ++ evs) : .listening j b ∈ log := (mem_append_mute hq rfl).1 h
  have hsent {conn call} (h : .sent conn call ∈ log ++ evs) : .sent conn call ∈ log :=
    (mem_append_mute hq rfl).1 h
  obtain ⟨-, -, honly⟩ := hl.left_mem
  refine he.append (fun j b h => ?_) (fun j b r _ h => ?_) (fun j r h => ?_) (fun j b call r hli hf hse h hr => ?_)
  · have := hq _ h
    cases this
  · have := hq _ h
    cases this
  · cases hl with
    | @replied call queue hc =>
      simp only [List.mem_cons, Event.returned.injEq, reduceCtorEq, false_or, List.not_mem_nil, or_false] at h
      obtain ⟨rfl, h⟩ := h
      cases h
      refine ⟨a, some (.ok (.reply (replyOf call))), call, (hlis.holds _ rfl).1, by simp, ?_, rfl⟩
      rw [hfirst rfl, List.find?_cons_of_pos (by simpa using hc)]
    | acknowledged | dropped => simp at h
    | failed => split at h <;> simp at h
  · obtain ⟨rfl, rfl⟩ := honly j b r h
    cases hrx : rx with
    | none => exact absurd (hlisten hli) (hlis.deaf hrx)
    | some queue =>
      rw [hfirst hrx] at hf
      subst hrx
      cases hl with
      | replied hc =>
        rw [List.find?_cons_of_pos (by simpa using hc)] at hf
        cases hf
        simp only [List.mem_cons, Event.left.injEq, reduceCtorEq, List.not_mem_nil, or_false, true_and] at h
        exact ⟨h, by simp⟩
      | dropped =>
        simp only [List.mem_singleton, Event.left.injEq, true_and] at h
        exact absurd h hr
      | failed hfail =>
        exfalso
        cases hfail with
        | send => exact hlis.unsent (.inr rfl) _ _ (hsent hse) (by cases b.request <;> rfl)
        | senderLost hack halive =>
          rw [senderAlive_of_entry (hu.kept j b hat hack (hup.conn _).2)] at halive
          cases halive
        | closed hx =>
          rw [(hup.conn _).2] at hx
          cases hx
        | timedOut hno =>
          have := List.find?_some hf
          rw [List.any_eq_false] at hno
          exact hno call (List.mem_of_find?_eq_some hf) this
        | cancelled hct =>
          rw [hup.ct] at hct
          cases hct

theorem step (he : Ended log) (hi : Inv log s) (hu : Unique log s) (hh : Hears log s) (hup : Up s)
    (h : Calls.step c s act = some (s', evs)) : Ended (log ++ evs) := by
  have hst := step_step h
  clear h
  cases hst with
  | @move i act pc evs hm =>
    generalize hc : s.calls i = pc₀ at hm
    cases hm with
    | @listening a =>
      have hnl := (hi.active i a (by rw [hc]; rfl)).2
      refine he.append (fun j b h => ?_) (by simp) (by simp) fun j b call r _ _ _ h => absurd h (by simp)
      simp only [List.mem_singleton, Event.listening.injEq] at h
      obtain ⟨rfl, rfl⟩ := h
      exact hnl
    | @sent a rx =>
      obtain ⟨hs, hnl⟩ := hi.active i a (by rw [hc]; rfl)
      refine he.append (by simp) (fun j b r hr h => ?_) (by simp) fun j b call r _ _ _ h => absurd h (by simp)
      simp only [List.mem_singleton, Event.sent.injEq] at h
      have hid : b.callId = a.callId := by
        have := congrArg Message.UpstreamCall.callId h.2
        cases hb : b.request <;> cases ha : a.request <;> rw [hb, ha] at this <;> exact this
      obtain ⟨rfl, rfl⟩ := hu.inj j b i a (hi.left j b r hr) hs hid
      exact hnl r hr
    | quiet | returned | started | acknowledged | skipped =>
      exact he.quiet (by simp) (by simp) (by simp) (by simp)
  | subscribe | change | ackFound | ackDropped | arrived | outside =>
    exact he.quiet (by simp) (by simp) (by simp) (by simp)
  | leave hp hl => exact he.leave hu hh hup hp hl

end Ended

/-! ### An attempt comes to return its reply -/

namespace Returns

theorem cons {act : CallAction} (ha : act = .ackReceived ∨ act = .receive)
    (hs : Calls.step c s (.call i act) = some (s', evs)) (h : Returns c (log ++ evs) s' i call) :
    Returns c log s i call := by
  obtain ⟨acts, hacts, log', s'', he, hr⟩ := h
  refine ⟨act :: acts, fun act' h => ?_, log', s'', ?_, hr⟩
  · rcases List.mem_cons.1 h with rfl | h
    · exact ha
    · exact hacts act' h
  · have hs' : (machine c).step s (.call i act) = some (s', evs) := hs
    rw [List.map_cons, Machine.exec_cons trivial hs']
    exact he

/-- It passes over the calls before the reply. -/
theorem of_waitingReply (hp : s.calls i = .active .waitingReply a (some queue))
    (hf : queue.find? (·.requestCallId = a.callId) = some call) : Returns c log s i call := by
  induction queue generalizing s log with
  | nil => cases hf
  | cons head queue ih =>
    by_cases hc : head.requestCallId = a.callId
    · rw [List.find?_cons_of_pos (by simpa using hc)] at hf
      cases hf
      have hs : (machine c).step s (.call i .receive) =
          some ((s.dropGuard a).setCall i .ended, [.left i a (some (.ok (.reply (replyOf call)))),
            .returned i (.ok (.reply (replyOf call)))]) := by
        simp [machine, Calls.step, callStep, hp, hc, State.leaveOk]
      refine ⟨[.receive], by simp, _, _, Machine.exec_cons trivial hs, ?_⟩
      simp
    · rw [List.find?_cons_of_neg (by simpa using hc)] at hf
      have hs : Calls.step c s (.call i .receive) =
          some (s.setCall i (.active .waitingReply a (some queue)), []) := by
        simp [Calls.step, callStep, hp, hc]
      exact .cons (.inr rfl) hs (ih calls_setCall_self hf)

theorem of_active {ack : UpstreamCallAck} (hh : Hears log s) (hi : Inv log s)
    (hli : .listening i a ∈ log) (hf : firstReply log i a = some call)
    (hse : .sent a.conn (a.request.message a.callId) ∈ log) (hd : .delivered a.tx ack ∈ log)
    (hnl : ∀ r, .left i a r ∉ log) : Returns c log s i call := by
  have hk := hi.known i a (hh.listening i a hli) hnl
  obtain ⟨phase, rx, hp⟩ : ∃ phase rx, s.calls i = .active phase a rx := by
    rcases hc : s.calls i with _ | _ | _ | ⟨phase, b, rx⟩ | _
    case active =>
      rw [hc] at hk
      cases hk
      exact ⟨phase, rx, rfl⟩
    all_goals rw [hc] at hk; cases hk
  have hl := hh.active i phase a rx hp
  have hid : (a.request.message a.callId).callId = a.callId := by cases a.request <;> rfl
  cases hrx : rx with
  | none => exact absurd hli (hl.deaf hrx)
  | some queue =>
    subst hrx
    rw [hl.firstReply] at hf
    cases phase with
    | subscribed => exact absurd hid (hl.unsent (.inl rfl) _ _ hse)
    | sending => exact absurd hid (hl.unsent (.inr rfl) _ _ hse)
    | waitingAck =>
      obtain ⟨ack', hack⟩ := Option.isSome_iff_exists.1 (hi.delivered a.tx ack hd)
      have hs : Calls.step c s (.call i .ackReceived) =
          some (s.setCall i (.active .waitingReply a (some queue)), [.acknowledged i a ack']) := by
        simp [Calls.step, callStep, hp, hack]
      exact .cons (.inl rfl) hs (of_waitingReply calls_setCall_self hf)
    | waitingReply => exact of_waitingReply hp hf

end Returns

/-- On a connection that stays up, every attempt returns the first reply to its own call, as long as its
subscription has room for the calls that arrive. -/
theorem replies_returned (h : (machine c).Exec (StaysUp c) log s) : Replied c log s := by
  have hall : Up s ∧ Hears log s ∧ Ended log := by
    refine h.invariant (I := fun log s => Up s ∧ Hears log s ∧ Ended log)
      ⟨⟨rfl, fun _ => ⟨rfl, rfl⟩⟩, .init, .init⟩ ?_
    rintro log s act s' evs hrun ⟨hup, hh, he⟩ ⟨hend, hids, hroom⟩ ha
    have hi := inv hrun
    have hu := unique (fun _ _ _ hc => hc.2.1) hrun
    exact ⟨hup.step hend ha, hh.step hi hu hroom ha, he.step hi hu hh hup ha⟩
  have hi := inv h
  obtain ⟨-, hh, he⟩ := hall
  refine ⟨fun i r hr => ?_, he.answered, fun i a call ack hli hf hse hd hnl => ?_⟩
  · obtain ⟨a, -, call, hli, -, hrest⟩ := he.own i r hr
    exact ⟨a, call, hli, hrest⟩
  · exact .of_active hh hi hli hf hse hd hnl

/-- Two calls are answered in the other order, one before its ack, with a call of a third party between. -/
theorem replies_returned_swapped : ∃ log s, (machine sampleConfig).Exec (StaysUp sampleConfig) log s ∧
    Replied sampleConfig log s ∧ .returned 0 (.ok (.reply ⟨"a", "node", "name", "type", [1]⟩)) ∈ log ∧
      .returned 1 (.ok (.reply ⟨"b", "node", "name", "type", [2]⟩)) ∈ log := by
  obtain ⟨log, s, h, hr⟩ := Machine.Exec.exists_of_any (M := machine sampleConfig) (C := StaysUp sampleConfig)
    (startRun 0 (.sendCallAndWaitReplyCall sampleCall) "a" ++
      ([.call 0 .subscribeDownstreamCall, .call 0 .sent] : List Action) ++
      startRun 1 (.sendCallAndWaitReplyCall sampleCall) "b" ++
      ([.call 1 .subscribeDownstreamCall, .call 1 .sent,
        .process 0, .process 0, .read 0 (.downstreamCall ⟨"x", "b", "node", "name", "type", [2]⟩),
        .read 0 (.upstreamCallAck ⟨"a", 0, "OK"⟩), .read 0 (.downstreamCall ⟨"y", "", "node", "name", "type", []⟩),
        .read 0 (.downstreamCall ⟨"z", "a", "node", "name", "type", [1]⟩), .read 0 (.upstreamCallAck ⟨"b", 0, "OK"⟩),
        .call 0 .ackReceived, .call 0 .receive, .call 0 .receive, .call 0 .receive, .call 1 .ackReceived,
        .call 1 .receive] : List Action))
    (P := fun log _ => .returned 0 (.ok (.reply ⟨"a", "node", "name", "type", [1]⟩)) ∈ log ∧
      .returned 1 (.ok (.reply ⟨"b", "node", "name", "type", [2]⟩)) ∈ log) (by decide +kernel)
  exact ⟨log, s, h, replies_returned h, hr⟩

end Iscp.Calls
