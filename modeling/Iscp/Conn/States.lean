import Iscp.Conn.Builder
import Iscp.Conn.Model

/-!
# The states that are published

`close` and `reconnection_loop` send into one watch channel, and neither looks at what is in it: a connection
that is lost while `close` waits for the streams, or a loop that has not made its first step, puts another
state over `Closing`. As long as the loop has nothing to send when `Closing` is sent, and only the token ends
its waits after that, `Closed` is the only state that follows.
-/

namespace Iscp.Closing

open E2e (ConnectionState)

variable {n m : Nat}

/-- A connection that has just been built, with `n` opens and `m` closes to come. -/
structure State (n m : Nat) where
  conn : Conn.State n m := {}
  loop : ConnBuilder.State := { pc := .top 0, made := 1 }

inductive Action (n m : Nat)
  | conn (a : Conn.Action n m)
  | loop (a : ConnBuilder.Action)

inductive Event (n m : Nat)
  | conn (e : Conn.Event n m)
  | loop (e : ConnBuilder.Event)
  /-- `close` sends `Closing`. -/
  | closing (c : Fin m)
deriving DecidableEq

namespace Event

/-- The state that is sent into the watch channel. -/
def sent? : Event n m → Option ConnectionState
  | closing _ => some .closing
  | loop (.stateSent state) => some state
  | _ => none

def isClosing : Event n m → Bool
  | closing _ => true
  | _ => false

end Event

/-- `close` sends `Closing` when it has its permit, before it takes the streams. -/
def closingEvents : Conn.Action n m → List (Event n m)
  | .takeStreamCt c => [.closing c]
  | _ => []

def step (c : ConnBuilder.Config) (s : State n m) : Action n m → Option (State n m × List (Event n m))
  -- The loop's exit is the loop's own step, and its token is cancelled by a close.
  | .conn .loopExit | .loop .cancel => none
  | .conn a => (Conn.step s.conn a).map fun (conn, evs) =>
    (⟨conn, { s.loop with ct := conn.ct }⟩, closingEvents a ++ evs.map .conn)
  | .loop a => (ConnBuilder.step c s.loop a).map fun (loop, evs) =>
    (⟨{ s.conn with loopExited := s.conn.loopExited || loop.pc == .exited }, loop⟩, evs.map .loop)

def machine (c : ConnBuilder.Config) (n m : Nat) : Machine (State n m) (Action n m) (Event n m) where
  init := {}
  log₀ := []
  step := step c

/-- What is in the watch channel. -/
def current (log : List (Event n m)) : ConnectionState := (History.last Event.sent? log).getD .connected

/-- `Conn::wait_for_state`, when it looks; `none` if it waits on. -/
def waitForState (state current : ConnectionState) : Option (Except Error Unit) :=
  if current = state then some (.ok ())
  else if current = .closed then some (.error .connectionClosed)
  else none

/-- After `Closing` only `Closed` is sent, and nobody finds the connection connected. -/
structure ClosesFinally (log : List (Event n m)) : Prop where
  sent : History.Each (fun pre e => pre.any Event.isClosing → ∀ state ∈ e.sent?, state = .closed) log
  waits : log.any Event.isClosing → waitForState .connected (current log) ≠ some (.ok ())

/-- Where the loop is about to send a state. -/
def sendsState : ConnBuilder.Pc → Bool
  | .top _ | .lost => true
  | _ => false

/-- `Closing` is sent once, when the loop is not about to send a state; after that the loop neither finds its
connection lost nor publishes another one. -/
def ClosesQuietly (log : List (Event n m)) (s : State n m) : Action n m → Prop
  | .conn (.takeStreamCt _) => sendsState s.loop.pc = false ∧ log.any Event.isClosing = false
  | .loop .connLost | .loop (.publish true) => log.any Event.isClosing = false
  | _ => True

instance (log : List (Event n m)) (s : State n m) (a : Action n m) : Decidable (ClosesQuietly log s a) := by
  unfold ClosesQuietly
  induction a using Action.casesOn with
  | conn a => induction a using Conn.Action.casesOn <;> infer_instance
  | loop a =>
    induction a using ConnBuilder.Action.casesOn with
    | publish received => cases received <;> infer_instance
    | _ => infer_instance

variable {c : ConnBuilder.Config} {s s' : State n m} {log : List (Event n m)} {evs : List (Event n m)}

/-! ### What the loop sends -/

section Loop

variable {l l' : ConnBuilder.State} {a : ConnBuilder.Action} {es : List ConnBuilder.Event}

def isBuilding : ConnBuilder.Pc → Bool
  | .start | .building _ => true
  | _ => false

/-- What a step of the loop does for the channel. -/
structure LoopStep (l : ConnBuilder.State) (a : ConnBuilder.Action) (l' : ConnBuilder.State)
    (es : List ConnBuilder.Event) : Prop where
  building : isBuilding l'.pc = false
  /-- The loop comes to send a state when it has lost its connection or has another one. -/
  sends : sendsState l'.pc → sendsState l.pc ∨ a = .connLost ∨ a = .publish true
  sent : ∀ state, .stateSent state ∈ es → sendsState l.pc ∨ state = .closed

theorem LoopStep.quiet (hb : isBuilding l'.pc = false) (hs : sendsState l'.pc = false)
    (he : ∀ state, .stateSent state ∉ es) : LoopStep l a l' es := by
  refine ⟨hb, fun h => ?_, fun state h => absurd h (he state)⟩
  rw [hs] at h
  cases h

theorem reconnecting_of_attempt {at' : ConnBuilder.AttemptPc} (hb : isBuilding l.pc = false)
    (ha : l.pc.attempt? = some at') : l.pc = .reconnecting at' := by
  cases hp : l.pc with
  | building b =>
    rw [hp] at hb
    cases hb
  | reconnecting b =>
    rw [hp] at ha
    cases ha
    rfl
  | _ =>
    rw [hp] at ha
    cases ha

theorem fail_step {e : Error} (hf : ConnBuilder.Fails c l a e) (hb : isBuilding l.pc = false) :
    LoopStep l a (l.fail e).1 (l.fail e).2 := by
  obtain ⟨at', ha⟩ := hf.attempt
  simp only [ConnBuilder.State.fail, reconnecting_of_attempt hb ha]
  exact .quiet rfl rfl (by simp)

theorem succeed_step {conn : ConnId} (ha : l.pc.attempt? = some (.request conn)) (hb : isBuilding l.pc = false) :
    LoopStep l a (l.succeed conn).1 (l.succeed conn).2 := by
  simp only [ConnBuilder.State.succeed, reconnecting_of_attempt hb ha]
  exact .quiet rfl rfl (by simp)

theorem loop_step (h : ConnBuilder.Step c l a l' es) (hb : isBuilding l.pc = false) : LoopStep l a l' es := by
  cases h with
  | refused hp | build hp | dropBuild hp =>
    rw [hp] at hb
    cases hb
  | create ha | advance ha | request ha =>
    rw [reconnecting_of_attempt hb ha]
    exact .quiet rfl rfl (by simp)
  | fail hf => exact fail_step hf hb
  | succeed ha => exact succeed_step ha hb
  | connected hp | reconnecting hp =>
    refine ⟨rfl, (by intro h; cases h), fun _ _ => ?_⟩
    rw [hp]
    exact .inl rfl
  | connLost => exact ⟨rfl, fun _ => .inr (.inl rfl), by simp⟩
  | published => exact ⟨rfl, fun _ => .inr (.inr rfl), by simp⟩
  | exit =>
    refine ⟨rfl, (by intro h; cases h), fun state hm => .inr ?_⟩
    cases List.mem_singleton.1 hm
    rfl
  | disconnect | stopped | disconnectSent | connClosed | waited | unpublished => exact .quiet rfl rfl (by simp)
  | lost | cancel => exact ⟨hb, .inl, by simp⟩

end Loop

/-! ### The channel -/

/-- Once `Closing` is sent the loop has no state to send but its last. -/
structure Quiet (log : List (Event n m)) (s : State n m) : Prop where
  building : isBuilding s.loop.pc = false
  quiet : log.any Event.isClosing → sendsState s.loop.pc = false
  sent : History.Each (fun pre e => pre.any Event.isClosing → ∀ state ∈ e.sent?, state = .closed) log

namespace Quiet

theorem init : Quiet ([] : List (Event n m)) {} := ⟨rfl, nofun, .nil⟩

theorem any_append_of_map {α : Type} {f : α → Event n m} {es : List α} (hf : ∀ e, (f e).isClosing = false) :
    (log ++ es.map f).any Event.isClosing = log.any Event.isClosing := by
  have hmap : (es.map f).any Event.isClosing = false := by
    rw [List.any_map, List.any_eq_false]
    intro e _
    rw [Function.comp_apply, hf]
    exact Bool.false_ne_true
  rw [List.any_append, hmap, Bool.or_false]

/-- What an open or a close does in the machine of the connection sends no state. -/
theorem append_conn (h : Quiet log s) (es : List (Conn.Event n m)) : Quiet (log ++ es.map .conn) s := by
  refine ⟨h.building, fun hcl => h.quiet ?_, h.sent.append_of_forall fun pre e hm _ state hs => ?_⟩
  · rwa [any_append_of_map fun _ => rfl] at hcl
  · obtain ⟨e, -, rfl⟩ := List.mem_map.1 hm
    cases hs

theorem append_closing (h : Quiet log s) {c : Fin m} (hp : sendsState s.loop.pc = false)
    (hn : log.any Event.isClosing = false) : Quiet (log ++ [Event.closing c]) s := by
  refine ⟨h.building, fun _ => hp, History.each_append_singleton.2 ⟨h.sent, fun hcl => ?_⟩⟩
  rw [hn] at hcl
  cases hcl

theorem conn (h : Quiet log s) {a : Conn.Action n m} {conn : Conn.State n m} {es : List (Conn.Event n m)}
    (hc : ClosesQuietly log s (.conn a)) :
    Quiet (log ++ (closingEvents a ++ es.map .conn)) ⟨conn, { s.loop with ct := conn.ct }⟩ := by
  have hq : Quiet log (⟨conn, { s.loop with ct := conn.ct }⟩ : State n m) := ⟨h.building, h.quiet, h.sent⟩
  rw [← List.append_assoc]
  refine append_conn ?_ es
  cases a with
  | takeStreamCt c =>
    obtain ⟨hp, hn⟩ := hc
    exact hq.append_closing hp hn
  | _ =>
    show Quiet (log ++ []) _
    rwa [List.append_nil]

theorem loop (h : Quiet log s) {a : ConnBuilder.Action} {l : ConnBuilder.State} {es : List ConnBuilder.Event}
    {conn : Conn.State n m} (hc : ClosesQuietly log s (.loop a)) (hs : ConnBuilder.Step c s.loop a l es) :
    Quiet (log ++ es.map .loop) ⟨conn, l⟩ := by
  have hl := loop_step hs h.building
  have hmap {pre : List ConnBuilder.Event} (hcl : (log ++ pre.map Event.loop).any Event.isClosing) :
      log.any Event.isClosing := by
    rwa [any_append_of_map fun _ => rfl] at hcl
  refine ⟨hl.building, fun hcl => ?_, History.each_append.2 ⟨h.sent, fun pre e post he hcl state hst => ?_⟩⟩
  · have hcl := hmap hcl
    have hlost (hn : log.any Event.isClosing = false) : False := by
      rw [hn] at hcl
      cases hcl
    by_contra hsend
    rcases hl.sends (Bool.not_eq_false _ ▸ hsend) with hsent | rfl | rfl
    · rw [h.quiet hcl] at hsent
      cases hsent
    · exact hlost hc
    · exact hlost hc
  · obtain ⟨es₁, es₂, rfl, rfl, he₂⟩ := List.map_eq_append_iff.1 he
    obtain ⟨e', es₃, rfl, rfl, -⟩ := List.map_eq_cons_iff.1 he₂
    cases e' with
    | stateSent state' =>
      obtain rfl : state' = state := Option.some.inj hst
      rcases hl.sent state' (by simp) with hsend | hclosed
      · rw [h.quiet (hmap hcl)] at hsend
        cases hsend
      · exact hclosed
    | _ => cases hst

theorem step {a : Action n m} (h : Quiet log s) (hc : ClosesQuietly log s a)
    (hs : Closing.step c s a = some (s', evs)) : Quiet (log ++ evs) s' := by
  unfold Closing.step at hs
  split at hs
  · cases hs
  · cases hs
  · obtain ⟨⟨conn, es⟩, -, he⟩ := Option.map_eq_some_iff.1 hs
    cases he
    exact h.conn hc
  · obtain ⟨⟨l, es⟩, hl, he⟩ := Option.map_eq_some_iff.1 hs
    cases he
    exact h.loop hc (ConnBuilder.step_step hl)

end Quiet

/-- What is in the channel once `Closing` was sent. -/
theorem current_of_sent
    (h : History.Each (fun pre e => pre.any Event.isClosing → ∀ state ∈ e.sent?, state = .closed) log)
    (hc : log.any Event.isClosing) : current log = .closing ∨ current log = .closed := by
  induction log using List.reverseRecOn with
  | nil => cases hc
  | append_singleton log e ih =>
    obtain ⟨hlog, he⟩ := History.each_append_singleton.1 h
    rw [current, History.last_append, History.last_singleton]
    cases hs : e.sent? with
    | some state =>
      cases e with
      | closing c =>
        cases hs
        exact .inl rfl
      | _ =>
        rw [List.any_append] at hc
        exact .inr (he ((Bool.or_false _).symm.trans hc) state hs)
    | none =>
      refine ih hlog ?_
      rw [List.any_append] at hc
      cases e with
      | closing c => cases hs
      | _ => exact (Bool.or_false _).symm.trans hc

/-- As long as the loop has no state to send when `Closing` is sent, and from then on neither finds its
connection lost nor publishes another, `Closed` is all that follows. -/
theorem closes_finally (h : (machine c n m).Exec ClosesQuietly log s) :
    ClosesFinally log := by
  have hq : Quiet log s := by
    refine h.invariant (I := Quiet) .init ?_
    rintro log s a s' evs - hq hc ha
    exact hq.step hc ha
  refine ⟨hq.sent, fun hc => ?_⟩
  rcases current_of_sent hq.sent hc with hcur | hcur
  all_goals
    rw [hcur]
    exact nofun

/-- A connection is lost and made again, and then closed. -/
theorem closes_finally_reconnected : ∃ (log : List (Event 1 1)) (s : State 1 1),
    (machine {} 1 1).Exec ClosesQuietly log s ∧ ClosesFinally log ∧
      log.filterMap Event.sent? = [.connected, .reconnecting, .connected, .closing, .closed] ∧
      .conn (.closed 0) ∈ log := by
  obtain ⟨log, s, h, hp⟩ := Machine.Exec.exists_of_any (M := machine {} 1 1) (C := ClosesQuietly)
    [.loop .connected, .loop (.lost 0), .loop .connLost, .loop .reconnecting, .loop .waited,
      .loop (.transport (.ok ())), .loop .check, .loop (.respond (.ok ())), .loop (.publish true), .loop .connected,
      .conn (.acquire 0), .conn (.takeStreamCt 0), .conn (.takeWaiter 0), .conn (.cancel 0), .conn (.streamsExited 0),
      .loop .ctSeen, .loop .disconnectSent, .loop .connClosed, .loop .exit, .conn (.connExited 0),
      .conn (.dropPermit 0)]
    (P := fun log _ => log.filterMap Event.sent? = [.connected, .reconnecting, .connected, .closing, .closed] ∧
      .conn (.closed 0) ∈ log) (by decide +kernel)
  exact ⟨log, s, h, closes_finally h, hp⟩

/-- The connection is lost and made again while a close waits for a stream: `Connected` follows `Closing`. -/
theorem connected_after_closing : ¬ ∀ c n m (log : List (Event n m)) s, (machine c n m).Run log s →
    ClosesFinally log := by
  intro h
  obtain ⟨log, s, hr, hc, hw⟩ := Machine.Exec.exists_of_any (M := machine {} 1 1) (C := fun _ _ _ => True)
    [.loop .connected, .conn (.readPermits 0), .conn (.readCt 0), .conn (.streamWaitGroup 0), .conn (.spawn 0),
      .conn (.pushStreamCt 0), .conn (.acquire 0), .conn (.takeStreamCt 0), .conn (.takeWaiter 0),
      .conn (.cancel 0), .conn (.cancel 0), .loop (.lost 0), .loop .connLost, .loop .reconnecting, .loop .waited,
      .loop (.transport (.ok ())), .loop .check, .loop (.respond (.ok ())), .loop (.publish true), .loop .connected]
    (P := fun log _ => log.any Event.isClosing ∧ current log = .connected) (by decide +kernel)
  refine (h {} 1 1 log s hr).waits hc ?_
  rw [hw]
  rfl

end Iscp.Closing
