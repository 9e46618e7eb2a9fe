import Iscp.E2e
import Iscp.Resume

/-!
# Building a connection and keeping it up

`ConnBuilder::build` and the `reconnection_loop` that it starts, with `ConnBuilder::connect` in both: the
transport connects, `WireConn::new` starts the tasks of a wire connection, and then the ping settings are
checked, the token is fetched and the connect request is answered. None of the returns after `WireConn::new`
cancels the connection, and its tasks run on: another attempt makes another one beside it. Proved here: while
an attempt fails only before that, or with its connection cancelled already, at most one is not cancelled.
-/

namespace Iscp.ConnBuilder

open E2e (ConnectionState)

/-- What of a `ConnBuilder` decides how an attempt goes; the durations are in nanoseconds. -/
structure Config where
  /-- `compression.window_bits().is_some()` -/
  windowBits : Bool := false
  compatWithContextTakeover : Bool := false
  pingInterval : Nat := 10000000000
  pingTimeout : Nat := 1000000000
  /-- There is a token source. -/
  tokenSource : Bool := false
deriving DecidableEq

/-- `as_secs().try_into()` -/
def asSecs (duration : Nat) : Option UInt32 :=
  if duration / 1000000000 < 4294967296 then some (.ofNat (duration / 1000000000)) else none

/-- The checks of the ping settings, with their values for the connect request. -/
def Config.checkPing (c : Config) : Except Error (UInt32 × UInt32) :=
  match asSecs c.pingInterval with
  | none => .error (.invalidValue "invalid ping_interval")
  | some pingInterval =>
    if pingInterval = 0 then .error (.invalidValue "invalid ping_interval")
    else
      match asSecs c.pingTimeout with
      | none => .error (.invalidValue "invalid ping_timeout")
      | some pingTimeout =>
        if pingTimeout = 0 then .error (.invalidValue "invalid ping_timeout") else .ok (pingInterval, pingTimeout)

/-- Where `connect` is. -/
inductive AttemptPc
  /-- In `connector.connect`. -/
  | transport
  /-- Behind `WireConn::new`. -/
  | created (conn : ConnId)
  | token (conn : ConnId) (pingInterval pingTimeout : UInt32)
  /-- In `request_message_need_response`. -/
  | request (conn : ConnId)
deriving DecidableEq

inductive Pc
  | start
  | building (a : AttemptPc)
  /-- `build` has returned an error, or was dropped. -/
  | buildFailed
  | buildDropped
  /-- At the head of the reconnection loop. -/
  | top (conn : ConnId)
  | selecting (conn : ConnId)
  /-- Sends the disconnect message. -/
  | disconnecting (conn : ConnId)
  /-- In `wire_conn.close`. -/
  | closing (conn : ConnId)
  /-- Behind the `select!`, with the connection cancelled. -/
  | lost
  /-- In `ReconnectWaiter::wait`. -/
  | waiting
  | reconnecting (a : AttemptPc)
  /-- Before `tx_wire_conn.send`. -/
  | publishing (conn : ConnId)
  /-- `reconnection_loop` has returned. -/
  | returned
  | exited
deriving DecidableEq

structure State where
  pc : Pc := .start
  ct : Bool := false
  /-- The number of wire connections created. -/
  made : Nat := 0
  cancelled : ConnId → Bool := fun _ => false

inductive Action
  | build
  | transport (result : Except Error Unit)
  | check
  | token (result : Except Error Unit)
  | respond (result : Except Error Unit)
  | dropBuild
  | connected
  /-- `wire_conn.cancelled` ends the `select!`. -/
  | connLost
  /-- `ct.cancelled` ends one of the two. -/
  | ctSeen
  | disconnectSent
  | connClosed
  | reconnecting
  | waited
  /-- `tx_wire_conn.send`, which fails without receivers. -/
  | publish (received : Bool)
  | exit
  /-- The tasks of a connection cancel it. -/
  | lost (conn : ConnId)
  | cancel

inductive Event
  | created (conn : ConnId)
  | requested (conn : ConnId) (pingInterval pingTimeout : UInt32)
  | buildReturned (result : Except Error ConnId)
  | attemptFailed (e : Error)
  | published (conn : ConnId)
  | stateSent (state : ConnectionState)
deriving DecidableEq

namespace AttemptPc

def conn? : AttemptPc → Option ConnId
  | transport => none
  | created conn | token conn _ _ | request conn => some conn

/-- At an await, where the future can be dropped. -/
def awaits : AttemptPc → Bool
  | created _ => false
  | _ => true

end AttemptPc

namespace Pc

def attempt? : Pc → Option AttemptPc
  | building a | reconnecting a => some a
  | _ => none

/-- The same call of `connect`, further on. -/
def withAttempt (a : AttemptPc) : Pc → Pc
  | building _ => building a
  | _ => reconnecting a

/-- The connection in hand. -/
def conn? : Pc → Option ConnId
  | building a | reconnecting a => a.conn?
  | top conn | selecting conn | disconnecting conn | closing conn | publishing conn => some conn
  | _ => none

def isOver : Pc → Bool
  | buildDropped | returned | exited => true
  | _ => false

end Pc

namespace State

/-- An attempt has failed. -/
def fail (s : State) (e : Error) : State × List Event :=
  match s.pc with
  | .building _ => ({ s with pc := .buildFailed }, [.buildReturned (.error e)])
  | _ => ({ s with pc := .waiting }, [.attemptFailed e])

/-- An attempt has a connection for `build` or for the reconnection loop. -/
def succeed (s : State) (conn : ConnId) : State × List Event :=
  match s.pc with
  | .building _ => ({ s with pc := .top conn }, [.buildReturned (.ok conn)])
  | _ => ({ s with pc := .publishing conn }, [])

def cancelConn (s : State) (conn : ConnId) : State :=
  { s with cancelled := Function.update s.cancelled conn true }

/-- The connection has been created and is not cancelled. -/
def Alive (s : State) (conn : ConnId) : Prop := conn < s.made ∧ s.cancelled conn = false

instance (s : State) (conn : ConnId) : Decidable (s.Alive conn) := inferInstanceAs (Decidable (_ ∧ _))

end State

def step (c : Config) (s : State) : Action → Option (State × List Event)
  | .build =>
    if s.pc = .start then
      if c.windowBits && !c.compatWithContextTakeover then
        some ({ s with pc := .buildFailed },
          [.buildReturned (.error (.unexpected "using window bits for unsupported transport"))])
      else some ({ s with pc := .building .transport }, [])
    else none
  | .transport result =>
    match s.pc.attempt?, result with
    | some .transport, .ok () =>
      some ({ s with pc := s.pc.withAttempt (.created s.made), made := s.made + 1 }, [.created s.made])
    | some .transport, .error e => some (s.fail e)
    | _, _ => none
  | .check =>
    match s.pc.attempt? with
    | some (.created conn) =>
      match c.checkPing with
      | .error e => some (s.fail e)
      | .ok (pingInterval, pingTimeout) =>
        if c.tokenSource then some ({ s with pc := s.pc.withAttempt (.token conn pingInterval pingTimeout) }, [])
        else some ({ s with pc := s.pc.withAttempt (.request conn) }, [.requested conn pingInterval pingTimeout])
    | _ => none
  | .token result =>
    match s.pc.attempt?, result with
    | some (.token conn pingInterval pingTimeout), .ok () =>
      some ({ s with pc := s.pc.withAttempt (.request conn) }, [.requested conn pingInterval pingTimeout])
    -- The source's error, or the timeout's.
    | some (.token _ _ _), .error e => some (s.fail e)
    | _, _ => none
  | .respond result =>
    match s.pc.attempt?, result with
    | some (.request conn), .ok () => some (s.succeed conn)
    | some (.request _), .error e => some (s.fail e)
    | _, _ => none
  | .dropBuild =>
    match s.pc with
    | .building a => if a.awaits then some ({ s with pc := .buildDropped }, []) else none
    | _ => none
  | .connected =>
    match s.pc with
    | .top conn => some ({ s with pc := .selecting conn }, [.stateSent .connected])
    | _ => none
  | .connLost =>
    match s.pc with
    | .selecting conn => if s.cancelled conn then some ({ s with pc := .lost }, []) else none
    | _ => none
  | .ctSeen =>
    if s.ct then
      match s.pc with
      | .selecting conn => some ({ s with pc := .disconnecting conn }, [])
      | .reconnecting a => if a.awaits then some ({ s with pc := .returned }, []) else none
      | _ => none
    else none
  | .disconnectSent =>
    match s.pc with
    | .disconnecting conn => some ({ s.cancelConn conn with pc := .closing conn }, [])
    | _ => none
  | .connClosed =>
    match s.pc with
    | .closing _ => some ({ s with pc := .returned }, [])
    | _ => none
  | .reconnecting =>
    match s.pc with
    | .lost => some ({ s with pc := .waiting }, [.stateSent .reconnecting])
    | _ => none
  | .waited =>
    match s.pc with
    | .waiting => some ({ s with pc := .reconnecting .transport }, [])
    | _ => none
  | .publish received =>
    match s.pc with
    | .publishing conn =>
      if received then some ({ s with pc := .top conn }, [.published conn])
      else some ({ s with pc := .returned }, [])
    | _ => none
  | .exit =>
    match s.pc with
    | .returned => some ({ s with pc := .exited }, [.stateSent .closed])
    | _ => none
  | .lost conn => if conn < s.made then some (s.cancelConn conn, []) else none
  | .cancel => some ({ s with ct := true }, [])

def machine (c : Config) : Machine State Action Event where
  init := {}
  log₀ := []
  step := step c

variable {c : Config} {s s' : State} {log evs : List Event} {conn : ConnId} {pc : Pc} {a : AttemptPc} {e : Error}
  {act : Action}

/-! ### What a step does -/

/-- The returns with an error in `connect`. -/
inductive Fails (c : Config) (s : State) : Action → Error → Prop
  | transport {e : Error} : s.pc.attempt? = some .transport → Fails c s (.transport (.error e)) e
  | check {conn : ConnId} {e : Error} : s.pc.attempt? = some (.created conn) → c.checkPing = .error e →
      Fails c s .check e
  | token {conn : ConnId} {pingInterval pingTimeout : UInt32} {e : Error} :
      s.pc.attempt? = some (.token conn pingInterval pingTimeout) → Fails c s (.token (.error e)) e
  | respond {conn : ConnId} {e : Error} : s.pc.attempt? = some (.request conn) →
      Fails c s (.respond (.error e)) e

inductive Step (c : Config) (s : State) : Action → State → List Event → Prop
  | refused {e : Error} : s.pc = .start →
      Step c s .build { s with pc := .buildFailed } [.buildReturned (.error e)]
  | build : s.pc = .start → Step c s .build { s with pc := .building .transport } []
  | create : s.pc.attempt? = some .transport →
      Step c s (.transport (.ok ()))
        { s with pc := s.pc.withAttempt (.created s.made), made := s.made + 1 } [.created s.made]
  /-- `connect` goes on with the connection that it has made. -/
  | advance {act : Action} {a a' : AttemptPc} {conn : ConnId} : s.pc.attempt? = some a → a.conn? = some conn →
      a'.conn? = some conn → Step c s act { s with pc := s.pc.withAttempt a' } []
  | request {act : Action} {a : AttemptPc} {conn : ConnId} {pingInterval pingTimeout : UInt32} :
      s.pc.attempt? = some a → a.conn? = some conn →
      Step c s act { s with pc := s.pc.withAttempt (.request conn) } [.requested conn pingInterval pingTimeout]
  | fail {act : Action} {e : Error} : Fails c s act e → Step c s act (s.fail e).1 (s.fail e).2
  | succeed {conn : ConnId} : s.pc.attempt? = some (.request conn) →
      Step c s (.respond (.ok ())) (s.succeed conn).1 (s.succeed conn).2
  | dropBuild {a : AttemptPc} : s.pc = .building a → Step c s .dropBuild { s with pc := .buildDropped } []
  | connected {conn : ConnId} : s.pc = .top conn →
      Step c s .connected { s with pc := .selecting conn } [.stateSent .connected]
  | connLost {conn : ConnId} : s.pc = .selecting conn → s.cancelled conn = true →
      Step c s .connLost { s with pc := .lost } []
  | disconnect {conn : ConnId} : s.pc = .selecting conn →
      Step c s .ctSeen { s with pc := .disconnecting conn } []
  | stopped {a : AttemptPc} : s.pc = .reconnecting a → Step c s .ctSeen { s with pc := .returned } []
  | disconnectSent {conn : ConnId} : s.pc = .disconnecting conn →
      Step c s .disconnectSent { s.cancelConn conn with pc := .closing conn } []
  | connClosed {conn : ConnId} : s.pc = .closing conn → Step c s .connClosed { s with pc := .returned } []
  | reconnecting : s.pc = .lost → Step c s .reconnecting { s with pc := .waiting } [.stateSent .reconnecting]
  | waited : s.pc = .waiting → Step c s .waited { s with pc := .reconnecting .transport } []
  | published {conn : ConnId} : s.pc = .publishing conn →
      Step c s (.publish true) { s with pc := .top conn } [.published conn]
  | unpublished {conn : ConnId} : s.pc = .publishing conn →
      Step c s (.publish false) { s with pc := .returned } []
  | exit : s.pc = .returned → Step c s .exit { s with pc := .exited } [.stateSent .closed]
  | lost {conn : ConnId} : conn < s.made → Step c s (.lost conn) (s.cancelConn conn) []
  | cancel : Step c s .cancel { s with ct := true } []

theorem step_step (h : step c s act = some (s', evs)) : Step c s act s' evs := by
  cases act with
  | build =>
    simp only [step] at h
    split at h
    · rename_i hp
      split at h
      · cases h
        exact .refused hp
      · cases h
        exact .build hp
    · cases h
  | transport result =>
    simp only [step] at h
    split at h
    · rename_i ha
      cases h
      exact .create ha
    · rename_i ha
      obtain ⟨rfl, rfl⟩ := Prod.mk.inj (Option.some.inj h)
      exact .fail (.transport ha)
    · cases h
  | check =>
    simp only [step] at h
    split at h
    · rename_i ha
      split at h
      · rename_i hcheck
        obtain ⟨rfl, rfl⟩ := Prod.mk.inj (Option.some.inj h)
        exact .fail (.check ha hcheck)
      · split at h
        · cases h
          exact .advance ha rfl rfl
        · cases h
          exact .request ha rfl
    · cases h
  | token result =>
    simp only [step] at h
    split at h
    · rename_i ha
      cases h
      exact .request ha rfl
    · rename_i ha
      obtain ⟨rfl, rfl⟩ := Prod.mk.inj (Option.some.inj h)
      exact .fail (.token ha)
    · cases h
  | respond result =>
    simp only [step] at h
    split at h
    · rename_i ha
      obtain ⟨rfl, rfl⟩ := Prod.mk.inj (Option.some.inj h)
      exact .succeed ha
    · rename_i ha
      obtain ⟨rfl, rfl⟩ := Prod.mk.inj (Option.some.inj h)
      exact .fail (.respond ha)
    · cases h
  | dropBuild =>
    simp only [step] at h
    split at h
    · rename_i hp
      split at h
      · cases h
        exact .dropBuild hp
      · cases h
    · cases h
  | connLost =>
    simp only [step] at h
    split at h
    · rename_i hp
      split at h
      · rename_i hcan
        cases h
        exact .connLost hp hcan
      · cases h
    · cases h
  | ctSeen =>
    simp only [step] at h
    split at h
    · split at h
      · rename_i hp
        cases h
        exact .disconnect hp
      · rename_i hp
        split at h
        · cases h
          exact .stopped hp
        · cases h
      · cases h
    · cases h
  | publish received =>
    simp only [step] at h
    split at h
    · rename_i hp
      cases received with
      | true =>
        cases h
        exact .published hp
      | false =>
        cases h
        exact .unpublished hp
    · cases h
  | connected | disconnectSent | connClosed | reconnecting | waited | exit =>
    simp only [step] at h
    split at h
    · rename_i hp
      cases h
      constructor
      exact hp
    · cases h
  | lost conn =>
    simp only [step] at h
    split at h
    · rename_i hlt
      cases h
      exact .lost hlt
    · cases h
  | cancel =>
    cases h
    exact .cancel

theorem Fails.attempt (h : Fails c s act e) : ∃ a, s.pc.attempt? = some a := by
  cases h with
  | transport ha | check ha | token ha | respond ha => exact ⟨_, ha⟩

/-! ### The connections that are not cancelled -/

/-- Of the connections created at most one is not cancelled, and none is after a failed attempt. -/
structure OneAlive (s : State) : Prop where
  unique : ∀ conn conn', s.Alive conn → s.Alive conn' → conn = conn'
  failed : s.pc = .buildFailed → ∀ conn, ¬ s.Alive conn
  between : s.pc = .waiting → ∀ conn, ¬ s.Alive conn

/-- An attempt fails only before it has created its connection, or once that is cancelled. -/
def FailsCancelled (c : Config) (s : State) : Action → Prop
  | .check => c.checkPing.isOk = false → ∀ conn ∈ s.pc.conn?, s.cancelled conn
  | .token (.error _) | .respond (.error _) => ∀ conn ∈ s.pc.conn?, s.cancelled conn
  | _ => True

instance (c : Config) (s : State) (a : Action) : Decidable (FailsCancelled c s a) := by
  unfold FailsCancelled
  induction a using Action.casesOn with
  | token result | respond result => induction result using Except.casesOn <;> infer_instance
  | _ => infer_instance

/-- What the connections and the place in the code have to do with each other. -/
structure Held (s : State) : Prop where
  unique : ∀ conn conn', s.Alive conn → s.Alive conn' → conn = conn'
  held : s.pc.isOver = false → ∀ conn, s.Alive conn → s.pc.conn? = some conn

theorem Pc.withAttempt_frame (pc : Pc) (a : AttemptPc) :
    (pc.withAttempt a).isOver = false ∧ (pc.withAttempt a).conn? = a.conn? := by
  cases pc <;> exact ⟨rfl, rfl⟩

theorem isOver_of_attempt (h : s.pc.attempt? = some a) : s.pc.isOver = false ∧ s.pc.conn? = a.conn? := by
  cases hp : s.pc with
  | building b | reconnecting b =>
    rw [hp] at h
    cases h
    exact ⟨rfl, rfl⟩
  | _ =>
    rw [hp] at h
    cases h

namespace Held

theorem init : Held {} := ⟨fun _ _ h => absurd h.1 (Nat.not_lt_zero _), fun _ _ h => absurd h.1 (Nat.not_lt_zero _)⟩

/-- The connections stay, and so does the one in hand. -/
theorem move (h : Held s) (hp : pc.isOver = false → s.pc.isOver = false ∧ pc.conn? = s.pc.conn?) :
    Held { s with pc := pc } := by
  refine ⟨h.unique, fun ho conn ha => ?_⟩
  obtain ⟨hs, hc⟩ := hp ho
  rw [show ({ s with pc := pc } : State).pc.conn? = s.pc.conn? from hc]
  exact h.held hs conn ha

/-- The connection in hand is given up, being cancelled. -/
theorem release (h : Held s) (ho : s.pc.isOver = false) (hc : ∀ conn ∈ s.pc.conn?, s.cancelled conn) (pc : Pc) :
    Held { s with pc := pc } := by
  refine ⟨h.unique, fun _ conn ha => ?_⟩
  have hcan := hc conn (h.held ho conn ha)
  rw [ha.2] at hcan
  cases hcan

theorem fail (h : Held s) (hf : Fails c s act e) (hc : FailsCancelled c s act) : Held (s.fail e).1 := by
  obtain ⟨a, ha⟩ := hf.attempt
  obtain ⟨ho, hconn⟩ := isOver_of_attempt ha
  have hcan : ∀ conn ∈ s.pc.conn?, s.cancelled conn := by
    cases hf with
    | transport ht =>
      rw [(isOver_of_attempt ht).2]
      exact nofun
    | check _ hcheck => exact hc (by rw [hcheck]; rfl)
    | token | respond => exact hc
  unfold State.fail
  split
  · exact h.release ho hcan _
  · exact h.release ho hcan _

theorem succeed (h : Held s) (ha : s.pc.attempt? = some (.request conn)) : Held (s.succeed conn).1 := by
  obtain ⟨ho, hconn⟩ := isOver_of_attempt ha
  unfold State.succeed
  split
  · exact h.move fun _ => ⟨ho, hconn.symm⟩
  · exact h.move fun _ => ⟨ho, hconn.symm⟩

theorem create (h : Held s) (ha : s.pc.attempt? = some .transport) :
    Held { s with pc := s.pc.withAttempt (.created s.made), made := s.made + 1 } := by
  obtain ⟨ho, hc⟩ := isOver_of_attempt ha
  have hnew (conn) (hal : ({ s with pc := s.pc.withAttempt (.created s.made), made := s.made + 1 } : State).Alive conn) :
      conn = s.made := by
    rcases Nat.lt_succ_iff_lt_or_eq.1 hal.1 with hlt | heq
    · have hheld := h.held ho conn ⟨hlt, hal.2⟩
      rw [hc] at hheld
      cases hheld
    · exact heq
  refine ⟨fun conn conn' hal hal' => (hnew conn hal).trans (hnew conn' hal').symm, fun _ conn hal => ?_⟩
  rw [hnew conn hal]
  exact (Pc.withAttempt_frame s.pc _).2

theorem cancelConn (h : Held s) (conn : ConnId) : Held (s.cancelConn conn) := by
  have hold {conn'} (ha : (s.cancelConn conn).Alive conn') : s.Alive conn' := by
    refine ⟨ha.1, ?_⟩
    have hc : Function.update s.cancelled conn true conn' = false := ha.2
    by_cases he : conn' = conn
    · subst he
      rw [Function.update_self] at hc
      cases hc
    · rwa [Function.update_of_ne he] at hc
  exact ⟨fun _ _ ha ha' => h.unique _ _ (hold ha) (hold ha'), fun ho _ ha => h.held ho _ (hold ha)⟩

theorem advance (h : Held s) {a' : AttemptPc} (ha : s.pc.attempt? = some a) (hc : a.conn? = a'.conn?) :
    Held { s with pc := s.pc.withAttempt a' } := by
  obtain ⟨ho, hconn⟩ := isOver_of_attempt ha
  refine h.move fun _ => ⟨ho, ?_⟩
  rw [hconn, hc]
  exact (Pc.withAttempt_frame ..).2

theorem step (h : Held s) (hc : FailsCancelled c s act) (hs : Step c s act s' evs) : Held s' := by
  cases hs with
  | refused hp | build hp | connected hp | disconnect hp | reconnecting hp | waited hp | published hp =>
    exact h.move fun _ => by rw [hp]; exact ⟨rfl, rfl⟩
  | create ha => exact h.create ha
  | advance ha hconn hconn' => exact h.advance ha (hconn.trans hconn'.symm)
  | request ha hconn => exact h.advance ha hconn
  | fail hf => exact h.fail hf hc
  | succeed ha => exact h.succeed ha
  | dropBuild | stopped | connClosed | unpublished | exit => exact h.move nofun
  | connLost hp hcan =>
    refine h.release (by rw [hp]; rfl) (fun conn hm => ?_) _
    rw [hp] at hm
    cases hm
    exact hcan
  | disconnectSent hp =>
    refine (h.cancelConn _).move fun _ => ?_
    show s.pc.isOver = false ∧ _ = s.pc.conn?
    rw [hp]
    exact ⟨rfl, rfl⟩
  | lost => exact h.cancelConn _
  | cancel => exact ⟨h.unique, h.held⟩

/-- Where no connection is in hand, none is alive. -/
theorem not_alive (h : Held s) (ho : s.pc.isOver = false) (hc : s.pc.conn? = none) (conn : ConnId) :
    ¬ s.Alive conn := by
  intro ha
  have hheld := h.held ho conn ha
  rw [hc] at hheld
  cases hheld

end Held

/-- As long as no attempt fails with a connection that is not cancelled, at most one connection is not, and
none when `build` has failed or between two attempts. -/
theorem one_alive (c : Config) (h : (machine c).Exec (fun _ => FailsCancelled c) log s) : OneAlive s := by
  have hh : Held s := by
    refine h.invariant (I := fun _ s => Held s) .init ?_
    rintro log s act s' evs - hh hc ha
    exact hh.step hc (step_step ha)
  refine ⟨hh.unique, fun hp => hh.not_alive ?_ ?_, fun hp => hh.not_alive ?_ ?_⟩
  all_goals rw [hp]; rfl

/-- The transport fails once, and the connection of another attempt is lost before its response. -/
theorem one_alive_reconnected : ∃ log s, (machine {}).Exec (fun _ => FailsCancelled {}) log s ∧ OneAlive s ∧
    .attemptFailed .cancelledByClose ∈ log ∧ .published 2 ∈ log := by
  obtain ⟨log, s, h, hp⟩ := Machine.Exec.exists_of_any (M := machine {}) (C := fun _ => FailsCancelled {})
    [.build, .transport (.ok ()), .check, .respond (.ok ()), .connected, .lost 0, .connLost, .reconnecting, .waited,
      .transport (.error (.transport "refused")), .waited, .transport (.ok ()), .check, .lost 1,
      .respond (.error .cancelledByClose), .waited, .transport (.ok ()), .check, .respond (.ok ()), .publish true]
    (P := fun log _ => .attemptFailed .cancelledByClose ∈ log ∧ .published 2 ∈ log) (by decide +kernel)
  exact ⟨log, s, h, one_alive {} h, hp⟩

/-- The connect request is refused: `build` returns the error, and its connection goes on. -/
theorem failed_alive : ¬ ∀ c log s, (machine c).Run log s → OneAlive s := by
  intro h
  obtain ⟨log, s, hr, hp, ha⟩ := Machine.Exec.exists_of_any (M := machine {}) (C := fun _ _ _ => True)
    [.build, .transport (.ok ()), .check, .respond (.error (.failedMessage .authFailed "denied"))]
    (P := fun _ s => s.pc = .buildFailed ∧ s.Alive 0) (by decide +kernel)
  exact (h {} log s hr).failed hp 0 ha

end Iscp.ConnBuilder
