import Iscp.Error
import Iscp.Lib.Machine
import Mathlib.Logic.Function.Basic

/-!
# Receiving calls

`recv_call` and `recv_reply_call`: two loops over the broadcast channel in which the read loop puts every
`DownstreamCall`. Each attempt makes a subscription of its own, which sees the calls that are sent after
it, and is given up with the first call it receives, whether that is one to return or one to pass over. A
call that is sent while there is no subscription, or that is unread when one is given up, is lost.
-/

namespace Iscp

/-- `iscp::DownstreamCall` -/
structure DownstreamCall where
  callId : String
  sourceNodeId : String
  name : String
  type_ : String
  payload : Bytes
deriving DecidableEq

/-- `iscp::DownstreamReplyCall` -/
structure DownstreamReplyCall where
  requestCallId : String
  sourceNodeId : String
  name : String
  type_ : String
  payload : Bytes
deriving DecidableEq

namespace E2e

/-- The two ways to receive. -/
inductive Kind
  | call
  | reply
deriving DecidableEq

inductive Received
  | call (call : DownstreamCall)
  | reply (call : DownstreamReplyCall)
deriving DecidableEq

/-- What `try_recv_call` or `try_recv_reply_call` makes of a call; `none` if it passes it over. -/
def Kind.accept : Kind → Message.DownstreamCall → Option Received
  | .call, m =>
    if m.requestCallId ≠ "" then none
    else some (.call ⟨m.callId, m.sourceNodeId, m.name, m.type_, m.payload⟩)
  | .reply, m =>
    if m.requestCallId = "" then none
    else some (.reply ⟨m.requestCallId, m.sourceNodeId, m.name, m.type_, m.payload⟩)

inductive ConnectionState
  | connected
  | reconnecting
  | closing
  | closed
deriving DecidableEq

inductive RecvPc
  | idle
  /-- In `wait_for_state`. -/
  | waiting
  /-- Before `subscribe_downstream_call`. -/
  | subscribing
  /-- In `recv` of a subscription, with what it has not read; `closed` if the channel is. -/
  | receiving (queue : List Message.DownstreamCall) (closed : Bool)
deriving DecidableEq

inductive Action
  /-- The application calls `recv_call` or `recv_reply_call`. -/
  | recv (kind : Kind)
  | stateSeen (kind : Kind)
  | subscribe (kind : Kind)
  | receive (kind : Kind)
  /-- `inner.ct` is found cancelled. -/
  | cancelled (kind : Kind)
  /-- The application drops the future. -/
  | drop (kind : Kind)
  /-- The read loop sends a call into the channel. -/
  | arrive (call : Message.DownstreamCall)
  /-- The wire connection is lost. -/
  | lost
  /-- The next one is published. -/
  | published
  | stateChanged (state : ConnectionState)
  | cancel

inductive Event
  | subscribed (kind : Kind)
  | arrived (call : Message.DownstreamCall)
  | returned (kind : Kind) (result : Except Error Received)

/-- The channel holds at least `channel_size` calls for a receiver, and then drops the oldest. -/
structure Config where
  channelSize : Nat
  capacity : Nat
  le_capacity : channelSize ≤ capacity

structure State where
  state : ConnectionState := .connected
  isConnected : Bool := true
  ct : Bool := false
  pcs : Kind → RecvPc := fun _ => .idle

namespace State

def setPc (s : State) (kind : Kind) (pc : RecvPc) : State :=
  { s with pcs := Function.update s.pcs kind pc }

/-- The end of an attempt with an error: `recv_call` tries again or returns it. -/
def retry (s : State) (kind : Kind) (e : Error) : State × List Event :=
  if e.canRetry then (s.setPc kind .waiting, []) else (s.setPc kind .idle, [.returned kind (.error e)])

end State

/-- A call is sent to a subscription of the current connection. -/
def RecvPc.arrive (capacity : Nat) (call : Message.DownstreamCall) : RecvPc → RecvPc
  | receiving queue false =>
    let queue := queue ++ [call]
    -- `Lagged` only makes `recv` go on from the oldest call that is left.
    receiving (queue.drop (queue.length - capacity)) false
  | pc => pc

def RecvPc.lost : RecvPc → RecvPc
  | receiving queue _ => receiving queue true
  | pc => pc

def step (c : Config) (s : State) : Action → Option (State × List Event)
  | .recv kind =>
    match s.pcs kind with
    | .idle => some (s.setPc kind .waiting, [])
    | _ => none
  | .stateSeen kind =>
    match s.pcs kind with
    | .waiting =>
      match s.state with
      | .connected => some (s.setPc kind .subscribing, [])
      | .closed => some (s.setPc kind .idle, [.returned kind (.error .connectionClosed)])
      | _ => none
    | _ => none
  | .subscribe kind =>
    match s.pcs kind with
    | .subscribing =>
      if s.isConnected then some (s.setPc kind (.receiving [] false), [.subscribed kind])
      else some (s.retry kind .connectionClosed)
    | _ => none
  | .receive kind =>
    match s.pcs kind with
    | .receiving (call :: _) _ =>
      -- The subscription is dropped with what it has not read.
      match kind.accept call with
      | some result => some (s.setPc kind .idle, [.returned kind (.ok result)])
      | none => some (s.setPc kind .subscribing, [])
    | .receiving [] true => some (s.retry kind .connectionClosed)
    | _ => none
  | .cancelled kind =>
    match s.pcs kind with
    | .subscribing | .receiving _ _ => if s.ct then some (s.retry kind .cancelledByClose) else none
    | _ => none
  | .drop kind =>
    match s.pcs kind with
    | .idle => none
    | _ => some (s.setPc kind .idle, [])
  | .arrive call =>
    if s.isConnected then
      some ({ s with pcs := fun kind => (s.pcs kind).arrive c.capacity call }, [.arrived call])
    else none
  | .lost => some ({ s with isConnected := false, pcs := fun kind => (s.pcs kind).lost }, [])
  | .published => if s.isConnected then none else some ({ s with isConnected := true }, [])
  | .stateChanged state => some ({ s with state := state }, [])
  | .cancel => some ({ s with ct := true }, [])

def machine (c : Config) : Machine State Action Event where
  init := {}
  log₀ := []
  step := step c

/-! ### What is to be returned -/

variable {c : Config} {s s' : State} {log evs : List Event} {kind : Kind} {call : Message.DownstreamCall}
  {pc pc' pc₁ pc₂ : RecvPc}

def Event.returned? (kind : Kind) : Event → Option Received
  | .returned k (.ok result) => if k = kind then some result else none
  | _ => none

def returned (kind : Kind) (log : List Event) : List Received := log.filterMap (Event.returned? kind)

def Event.isSubscribed (kind : Kind) : Event → Bool
  | .subscribed k => k = kind
  | _ => false

def Event.arrived? (kind : Kind) : Event → Option Received
  | .arrived call => kind.accept call
  | _ => none

/-- The calls of this kind that have arrived since the first subscription. -/
def due (kind : Kind) (log : List Event) : List Received :=
  (log.dropWhile fun e => !e.isSubscribed kind).filterMap (Event.arrived? kind)

/-- The calls of this kind that the subscription has not read. -/
def RecvPc.unread (kind : Kind) : RecvPc → List Received
  | receiving queue _ => queue.filterMap kind.accept
  | _ => []

abbrev unread (kind : Kind) (s : State) : List Received := (s.pcs kind).unread kind

/-- Everything that is due is returned once, in order, or can still be. -/
def Returned (log : List Event) (s : State) : Prop :=
  ∀ kind, returned kind log ++ unread kind s = due kind log

/-- There is room for another call. -/
def RecvPc.HasRoom (channelSize : Nat) : RecvPc → Prop
  | receiving queue _ => queue.length < channelSize
  | _ => True

/-- The connection stays up, and there is always room for a call. -/
def StaysUp (c : Config) (s : State) : Action → Prop
  | .lost | .cancel | .stateChanged _ => False
  | .arrive _ => ∀ kind, (s.pcs kind).HasRoom c.channelSize
  | _ => True

/-- A call arrives when the receive that is to return it is subscribed and has nothing to read, or has
not subscribed yet at all; no receive is dropped that has one to return. -/
def Awaited (log : List Event) (s : State) : Action → Prop
  | .drop kind => unread kind s = []
  | .arrive call => ∀ kind : Kind, (kind.accept call).isSome → log.any (Event.isSubscribed kind) →
    s.pcs kind = .receiving [] false
  | _ => True

instance decidableForallKind {P : Kind → Prop} [∀ kind, Decidable (P kind)] :
    Decidable (∀ kind, P kind) :=
  decidable_of_iff (P .call ∧ P .reply)
    ⟨fun ⟨hc, hr⟩ kind => by cases kind <;> assumption, fun h => ⟨h _, h _⟩⟩

instance (n : Nat) : (pc : RecvPc) → Decidable (pc.HasRoom n)
  | .receiving queue _ => inferInstanceAs (Decidable (queue.length < n))
  | .idle | .waiting | .subscribing => .isTrue trivial

instance (c : Config) (s : State) : (a : Action) → Decidable (StaysUp c s a)
  | .lost | .cancel | .stateChanged _ => .isFalse id
  | .arrive _ => inferInstanceAs (Decidable (∀ kind, (s.pcs kind).HasRoom c.channelSize))
  | .recv _ | .stateSeen _ | .subscribe _ | .receive _ | .cancelled _ | .drop _ | .published =>
    .isTrue trivial

instance (log : List Event) (s : State) : (a : Action) → Decidable (Awaited log s a)
  | .arrive call => inferInstanceAs (Decidable (∀ kind : Kind, (kind.accept call).isSome →
      log.any (Event.isSubscribed kind) → s.pcs kind = .receiving [] false))
  | .drop kind => inferInstanceAs (Decidable (unread kind s = []))
  | .lost | .cancel | .stateChanged _ | .recv _ | .stateSeen _ | .subscribe _ | .receive _
  | .cancelled _ | .published => .isTrue trivial

@[simp] theorem pcs_setPc (s : State) (kind : Kind) (pc : RecvPc) :
    (s.setPc kind pc).pcs kind = pc := Function.update_self ..

@[simp] theorem ct_setPc (s : State) (kind : Kind) (pc : RecvPc) : (s.setPc kind pc).ct = s.ct := rfl

theorem pcs_setPc_of_ne {k : Kind} (h : k ≠ kind) (s : State) (pc : RecvPc) :
    (s.setPc kind pc).pcs k = s.pcs k := Function.update_of_ne h ..

theorem returned_append : returned kind (log ++ evs) = returned kind log ++ returned kind evs :=
  List.filterMap_append

theorem due_append (h : log.any (Event.isSubscribed kind)) :
    due kind (log ++ evs) = due kind log ++ evs.filterMap (Event.arrived? kind) := by
  obtain ⟨e, he, hs⟩ := List.any_eq_true.1 h
  have hd : (log.dropWhile fun e => !e.isSubscribed kind) ≠ [] := by
    intro hd
    have := List.dropWhile_eq_nil_iff.1 hd e he
    simp [hs] at this
  rw [due, List.dropWhile_append, if_neg (by simpa using hd), List.filterMap_append]
  rfl

theorem due_append_of_not (h : ¬ log.any (Event.isSubscribed kind)) :
    due kind (log ++ evs) = due kind evs := by
  have hd : (log.dropWhile fun e => !e.isSubscribed kind) = [] := by
    rw [List.dropWhile_eq_nil_iff]
    intro e he
    have : e.isSubscribed kind = false := by simp at h; exact h e he
    simp [this]
  rw [due, List.dropWhile_append, hd]
  rfl

theorem due_of_not (h : ¬ log.any (Event.isSubscribed kind)) : due kind log = [] := by
  have hd : due kind (log ++ []) = due kind [] := due_append_of_not h
  rwa [List.append_nil] at hd

theorem due_append_of_quiet (h : ∀ e ∈ evs, e.arrived? kind = none) :
    due kind (log ++ evs) = due kind log := by
  by_cases hs : log.any (Event.isSubscribed kind)
  · rw [due_append hs, List.filterMap_eq_nil_iff.2 h, List.append_nil]
  · rw [due_append_of_not hs, due_of_not hs]
    refine List.filterMap_eq_nil_iff.2 fun e he => h e ?_
    exact (List.dropWhile_sublist _).subset he

instance (log : List Event) (s : State) : Decidable (Returned log s) :=
  inferInstanceAs (Decidable (∀ kind, returned kind log ++ unread kind s = due kind log))

/-! ### What a step can do -/

/-- What happens to one receive; with `evs`, the events of it. -/
inductive Move (kind : Kind) : RecvPc → RecvPc → List Event → Prop
  | subscribe : Move kind .subscribing (.receiving [] false) [.subscribed kind]
  | accept {call : Message.DownstreamCall} {queue closed result} : kind.accept call = some result →
      Move kind (.receiving (call :: queue) closed) .idle [.returned kind (.ok result)]
  | pass {call : Message.DownstreamCall} {queue closed} : kind.accept call = none →
      Move kind (.receiving (call :: queue) closed) .subscribing []
  | quiet {pc pc' : RecvPc} : pc.unread kind = [] → (∀ queue closed, pc' ≠ .receiving queue closed) →
      Move kind pc pc' []
  | fail {pc pc' : RecvPc} {e : Error} : pc.unread kind = [] → (∀ queue closed, pc' ≠ .receiving queue closed) →
      Move kind pc pc' [.returned kind (.error e)]

inductive Step (c : Config) (s : State) : Action → State → List Event → Prop
  | move {a : Action} {kind : Kind} {pc : RecvPc} {evs : List Event} : Move kind (s.pcs kind) pc evs → Step c s a (s.setPc kind pc) evs
  | arrive {call : Message.DownstreamCall} :
      Step c s (.arrive call) { s with pcs := fun kind => (s.pcs kind).arrive c.capacity call }
        [.arrived call]
  | published : Step c s .published { s with isConnected := true } []

theorem retry_step {a : Action} {e : Error} (hp : (s.pcs kind).unread kind = [])
    (h : some (s.retry kind e) = some (s', evs)) : Step c s a s' evs := by
  rw [Option.some.injEq, State.retry] at h
  split at h
  · cases h; exact .move (.quiet hp nofun)
  · cases h; exact .move (.fail hp nofun)

theorem step_step {a : Action} (h : step c s a = some (s', evs)) (hu : StaysUp c s a)
    (hw : Awaited log s a) (hct : s.ct = false) : Step c s a s' evs := by
  cases a with
  | recv kind =>
    simp only [step] at h
    split at h
    · rename_i hpc
      cases h
      exact .move (.quiet (by rw [hpc]; rfl) nofun)
    · cases h
  | stateSeen kind =>
    simp only [step] at h
    split at h
    · rename_i hpc
      have hp : (s.pcs kind).unread kind = [] := by rw [hpc]; rfl
      split at h
      · cases h; exact .move (.quiet hp nofun)
      · cases h; exact .move (.fail hp nofun)
      · cases h
    · cases h
  | subscribe kind =>
    simp only [step] at h
    split at h
    · rename_i hpc
      split at h
      · cases h; exact .move (by rw [hpc]; exact .subscribe)
      · exact retry_step (by rw [hpc]; rfl) h
    · cases h
  | receive kind =>
    simp only [step] at h
    split at h
    · rename_i call queue closed hpc
      split at h
      · rename_i result hr
        cases h; exact .move (by rw [hpc]; exact .accept hr)
      · rename_i hr
        cases h; exact .move (by rw [hpc]; exact .pass hr)
    · rename_i hpc
      exact retry_step (by rw [hpc]; rfl) h
    · cases h
  | cancelled kind =>
    simp only [step, hct] at h
    split at h <;> simp at h
  | arrive call =>
    simp only [step] at h
    split at h
    · cases h; exact .arrive
    · cases h
  | published =>
    simp only [step] at h
    split at h
    · cases h
    · cases h; exact .published
  | drop kind =>
    simp only [step] at h
    split at h
    · cases h
    · cases h; exact .move (.quiet hw nofun)
  | lost | stateChanged _ | cancel => exact hu.elim

/-! ### The invariant -/

structure RecvInv (kind : Kind) (log : List Event) (pc : RecvPc) : Prop where
  accounted : returned kind log ++ pc.unread kind = due kind log
  /-- Only the call to be read next is one to return. -/
  tail : ∀ queue closed, pc = .receiving queue closed → queue.tail.filterMap kind.accept = []
  subscribed : ∀ queue closed, pc = .receiving queue closed → log.any (Event.isSubscribed kind)

theorem unread_eq_nil (h : ∀ queue closed, pc ≠ .receiving queue closed) : pc.unread kind = [] := by
  cases pc with
  | receiving queue closed => exact absurd rfl (h queue closed)
  | idle | waiting | subscribing => rfl

theorem arrive_of_room {queue : List Message.DownstreamCall}
    (h : (RecvPc.receiving queue false).HasRoom c.channelSize) :
    (RecvPc.receiving queue false).arrive c.capacity call = .receiving (queue ++ [call]) false := by
  have hl : queue.length < c.channelSize := h
  have hc := c.le_capacity
  have hz : (queue ++ [call]).length - c.capacity = 0 := by
    rw [List.length_append, List.length_singleton]; omega
  rw [RecvPc.arrive]
  simp only [hz, List.drop_zero]

theorem Move.not_arrived (hm : Move kind pc pc' evs) (k : Kind) : ∀ e ∈ evs, e.arrived? k = none := by
  cases hm <;> simp [Event.arrived?]

theorem Move.returned_of_ne (hm : Move kind pc pc' evs) {k : Kind} (h : k ≠ kind) :
    returned k evs = [] := by
  cases hm <;> simp [returned, Event.returned?, h.symm]

namespace RecvInv

theorem any_append (hi : RecvInv kind log pc) :
    ∀ queue closed, pc = .receiving queue closed → (log ++ evs).any (Event.isSubscribed kind) := by
  intro queue closed hp
  rw [List.any_append, hi.subscribed queue closed hp, Bool.true_or]

theorem move (hi : RecvInv kind log pc) (hm : Move kind pc pc' evs) :
    RecvInv kind (log ++ evs) pc' := by
  have hd : due kind (log ++ evs) = due kind log := due_append_of_quiet (hm.not_arrived kind)
  have ha := hi.accounted
  cases hm with
  | subscribe =>
    refine ⟨?_, ?_, ?_⟩
    · rw [hd, ← ha, returned_append]
      simp [returned, Event.returned?, RecvPc.unread]
    · intro queue closed hp
      cases hp; rfl
    · intro queue closed hp
      simp [Event.isSubscribed]
  | @accept call queue closed result hr =>
    refine ⟨?_, nofun, nofun⟩
    have ht : queue.filterMap kind.accept = [] := hi.tail _ _ rfl
    rw [hd, ← ha, returned_append]
    simp [returned, Event.returned?, RecvPc.unread, hr, ht]
  | @pass call queue closed hr =>
    refine ⟨?_, nofun, nofun⟩
    have ht : queue.filterMap kind.accept = [] := hi.tail _ _ rfl
    rw [hd, ← ha, returned_append]
    simp [returned, RecvPc.unread, hr, ht]
  | quiet hu hp =>
    refine ⟨?_, fun queue closed he => absurd he (hp _ _), fun queue closed he => absurd he (hp _ _)⟩
    have hu' : pc'.unread kind = [] := unread_eq_nil hp
    rw [hd, ← ha, hu, hu', List.append_nil]
    simp only [List.append_nil]
  | fail hu hp =>
    refine ⟨?_, fun queue closed he => absurd he (hp _ _), fun queue closed he => absurd he (hp _ _)⟩
    have hu' : pc'.unread kind = [] := unread_eq_nil hp
    rw [hd, ← ha, hu, hu', returned_append]
    simp [returned, Event.returned?]

theorem move_of_ne {k : Kind} (hi : RecvInv k log pc) (hm : Move kind pc₁ pc₂ evs) (h : k ≠ kind) :
    RecvInv k (log ++ evs) pc := by
  refine ⟨?_, hi.tail, hi.any_append⟩
  rw [returned_append, hm.returned_of_ne h, List.append_nil, due_append_of_quiet (hm.not_arrived k)]
  exact hi.accounted

theorem arrive (hi : RecvInv kind log pc) (hr : pc.HasRoom c.channelSize)
    (hw : (kind.accept call).isSome → log.any (Event.isSubscribed kind) → pc = .receiving [] false) :
    RecvInv kind (log ++ [Event.arrived call]) (pc.arrive c.capacity call) := by
  have ha := hi.accounted
  have hret : returned kind (log ++ [Event.arrived call]) = returned kind log := by
    simp [returned, Event.returned?]
  by_cases hs : log.any (Event.isSubscribed kind)
  · have hd : due kind (log ++ [Event.arrived call]) = due kind log ++ (kind.accept call).toList := by
      rw [due_append hs]
      cases h : kind.accept call <;> simp [Event.arrived?, h]
    rcases h : kind.accept call with _ | result
    · -- A call to pass over goes to the end of the queue.
      rw [h, Option.toList_none, List.append_nil] at hd
      cases pc with
      | idle | waiting | subscribing => exact ⟨by rw [hret, hd]; exact ha, nofun, nofun⟩
      | receiving queue closed =>
        have hs' : (log ++ [Event.arrived call]).any (Event.isSubscribed kind) := hi.any_append _ _ rfl
        have ht : queue.tail.filterMap kind.accept = [] := hi.tail _ _ rfl
        cases closed with
        | true => exact ⟨by rw [hret, hd]; exact ha, hi.tail, fun _ _ _ => hs'⟩
        | false =>
          rw [arrive_of_room hr]
          refine ⟨?_, ?_, fun _ _ _ => hs'⟩
          · rw [hret, hd, ← ha]
            simp [RecvPc.unread, h]
          · intro queue' closed he
            cases he
            cases queue with
            | nil => rfl
            | cons head queue => simpa [h] using ht
    · obtain rfl := hw (by simp [h]) hs
      have hs' : (log ++ [Event.arrived call]).any (Event.isSubscribed kind) := hi.any_append _ _ rfl
      rw [arrive_of_room hr]
      refine ⟨?_, ?_, fun _ _ _ => hs'⟩
      · rw [hret, hd, ← ha]
        simp [RecvPc.unread, h]
      · intro queue closed he
        cases he; rfl
  · have hp : ∀ queue closed, pc ≠ .receiving queue closed := fun queue closed he =>
      hs (hi.subscribed queue closed he)
    have hd : due kind (log ++ [Event.arrived call]) = due kind log := by
      rw [due_append_of_not hs, due_of_not hs]
      rfl
    have he : pc.arrive c.capacity call = pc := by
      cases pc with
      | receiving queue closed => exact absurd rfl (hp queue closed)
      | idle | waiting | subscribing => rfl
    rw [he]
    exact ⟨by rw [hret, hd]; exact ha, hi.tail, hi.any_append⟩

end RecvInv

theorem RecvInv.idle : RecvInv kind [] .idle := ⟨rfl, nofun, nofun⟩

structure Inv (log : List Event) (s : State) : Prop where
  recv : ∀ kind, RecvInv kind log (s.pcs kind)
  ct : s.ct = false

theorem Inv.step {a : Action} (hi : Inv log s) (hu : StaysUp c s a) (hw : Awaited log s a)
    (h : step c s a = some (s', evs)) : Inv (log ++ evs) s' := by
  rcases step_step h hu hw hi.ct with ⟨hm⟩ | _ | _
  · rename_i kind pc
    refine ⟨fun k => ?_, hi.ct⟩
    by_cases hk : k = kind
    · obtain rfl := hk
      rw [pcs_setPc]
      exact (hi.recv k).move hm
    · rw [pcs_setPc_of_ne hk]
      exact (hi.recv k).move_of_ne hm hk
  · exact ⟨fun k => (hi.recv k).arrive (hu k) (hw k), hi.ct⟩
  · rw [List.append_nil]
    exact ⟨hi.recv, hi.ct⟩

/-- Every call that is due is returned once and in order, as long as each finds its receive waiting. -/
theorem calls_returned
    (h : (machine c).Exec (fun log s a => StaysUp c s a ∧ Awaited log s a) log s) :
    Returned log s := by
  have hi : Inv log s := by
    refine h.invariant ⟨fun _ => .idle, rfl⟩ ?_
    intro log s a s' evs _ hi hc hs
    exact hi.step hc.1 hc.2 hs
  exact fun kind => (hi.recv kind).accounted

def downstreamCall (callId requestCallId : String) : Message.DownstreamCall :=
  ⟨callId, requestCallId, "", "", "", []⟩

/-- Two calls and a reply, each of which finds its receive waiting. -/
theorem calls_returned_mixed : ∃ log s,
    (machine ⟨1024, 1024, Nat.le_refl _⟩).Exec
      (fun log s a => StaysUp ⟨1024, 1024, Nat.le_refl _⟩ s a ∧ Awaited log s a) log s ∧
    Returned log s ∧ (returned .call log).length = 2 ∧ (returned .reply log).length = 1 := by
  obtain ⟨log, s, h, hr⟩ := Machine.Exec.exists_of_any
    (M := machine ⟨1024, 1024, Nat.le_refl _⟩)
    (C := fun log s a => StaysUp ⟨1024, 1024, Nat.le_refl _⟩ s a ∧ Awaited log s a)
    [.recv .call, .stateSeen .call, .subscribe .call, .recv .reply, .stateSeen .reply, .subscribe .reply,
      .arrive (downstreamCall "a" ""), .receive .call, .recv .call, .stateSeen .call, .subscribe .call,
      .receive .reply, .subscribe .reply, .arrive (downstreamCall "b" "x"), .receive .reply,
      .receive .call, .subscribe .call, .arrive (downstreamCall "c" ""), .receive .call]
    (P := fun log _ => (returned .call log).length = 2 ∧ (returned .reply log).length = 1)
    (by decide +kernel)
  exact ⟨log, s, h, calls_returned h, hr⟩

/-- Of two calls that arrive at one subscription the second is lost. -/
theorem calls_returned_burst : ¬ ∀ c log s,
    (machine c).Exec (fun _ s a => StaysUp c s a) log s → Returned log s := by
  intro h
  obtain ⟨log, s, hr, hn⟩ := Machine.Exec.exists_of_any
    (M := machine ⟨1024, 1024, Nat.le_refl _⟩)
    (C := fun _ s a => StaysUp ⟨1024, 1024, Nat.le_refl _⟩ s a)
    [.recv .call, .stateSeen .call, .subscribe .call, .arrive (downstreamCall "a" ""),
      .arrive (downstreamCall "b" ""), .receive .call, .recv .call, .stateSeen .call, .subscribe .call]
    (P := fun log s => ¬ Returned log s) (by decide +kernel)
  exact hn (h _ _ _ hr)

end E2e
end Iscp
