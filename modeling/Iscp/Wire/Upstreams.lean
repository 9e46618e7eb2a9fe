import Iscp.Lib.Machine
import Iscp.Wire.ReadLoop
import Mathlib.Logic.Function.Basic

/-!
# Upstreams on one wire connection

The upstreams of one connection, the aliases that the server assigns to them, and the commands of
`add_upstream` and of its guard on their way to the read loop. There are any number of upstreams. The guard
removes what the alias stands for when its command is taken from the queue; that is the guard's own
registration as long as nobody has registered under this alias in between.

A send of the read loop into a channel only delays it and is not followed here.
-/

namespace Iscp.Wire

/-- The alias whose entry among the upstreams the command is about. -/
def ReadLoopCommand.upstream? {Tx : Type} : ReadLoopCommand Tx → Option UInt32
  | addUpstream streamIdAlias _ | removeUpstream streamIdAlias => some streamIdAlias
  | _ => none

namespace ReadLoopChannels

variable {Tx : Type} {ch : ReadLoopChannels Tx} {a : UInt32} {tx : Tx}

theorem processCommand_addUpstream :
    (ch.processCommand (.addUpstream a tx)).txUpstreamChunkAck[a]? = some tx := by
  simp [processCommand]

theorem processCommand_of_upstream {c : ReadLoopCommand Tx} (h : c.upstream? ≠ some a) :
    (ch.processCommand c).txUpstreamChunkAck[a]? = ch.txUpstreamChunkAck[a]? := by
  cases c with
  | addUpstream b tx | removeUpstream b =>
    have hb : b ≠ a := fun he => h (by rw [← he]; rfl)
    simp [processCommand, Std.ExtTreeMap.getElem?_insert, Std.ExtTreeMap.getElem?_erase, hb]
  | _ => rfl

theorem processMessage_txUpstreamChunkAck (m : Message.MessageEnum) :
    (ch.processMessage m).2.txUpstreamChunkAck = ch.txUpstreamChunkAck := by
  cases m <;> simp only [processMessage] <;> split <;> rfl

end ReadLoopChannels

namespace Upstreams

variable {n : Nat}

/-- An upstream's ack channel, by its stream and the number of channels made before it. -/
structure Tx (n : Nat) where
  stream : Fin n
  made : Nat
deriving DecidableEq

inductive StreamPc (n : Nat)
  /-- Before an open or resume request. -/
  | idle
  | requesting
  /-- In the request, with the server's answer on its way. -/
  | answered (streamIdAlias : UInt32)
  /-- Before `add_upstream`. -/
  | opened (streamIdAlias : UInt32)
  /-- Past `add_upstream`, with its guard. -/
  | registered (streamIdAlias : UInt32) (tx : Tx n)
  /-- In the close request. -/
  | closing (streamIdAlias : UInt32) (tx : Tx n)
  /-- Past the close request, before the guard is dropped. -/
  | returning (streamIdAlias : UInt32) (tx : Tx n)
  | closed

/-- The alias that the guard is for, and the ack channel registered with it. -/
def StreamPc.guard? : StreamPc n → Option (UInt32 × Tx n)
  | registered streamIdAlias tx | closing streamIdAlias tx | returning streamIdAlias tx =>
    some (streamIdAlias, tx)
  | _ => none

inductive Action (n : Nat)
  | request (stream : Fin n)
  /-- The server answers the open or resume request. -/
  | assign (stream : Fin n) (streamIdAlias : UInt32)
  /-- The request fails, times out or is dropped. -/
  | requestFailed (stream : Fin n)
  | responded (stream : Fin n)
  | add (stream : Fin n)
  /-- The stream's loop goes back to its resume loop, where it asks for a resume or not. -/
  | leave (stream : Fin n) (resume : Bool)
  | closeRequest (stream : Fin n)
  /-- The server answers the close request. -/
  | answerClose (stream : Fin n)
  /-- The close request returns, with the answer or an error. -/
  | closeResponded (stream : Fin n)
  /-- `upstream_loop` returns. -/
  | returned (stream : Fin n)
  /-- A command of any other task. -/
  | command (command : ReadLoopCommand (Tx n))
  | process
  | read (msg : Message.MessageEnum)
  | exit

inductive Event (n : Nat)
  | assigned (stream : Fin n) (streamIdAlias : UInt32)
  | registered (stream : Fin n) (tx : Tx n)
  | closeAnswered (stream : Fin n)
  | guardDropped (stream : Fin n) (streamIdAlias : UInt32)

structure ReadLoop (n : Nat) where
  exited : Bool := false
  channels : ReadLoopChannels (Tx n) := {}
  commands : List (ReadLoopCommand (Tx n)) := []

structure State (n : Nat) where
  streams : Fin n → StreamPc n := fun _ => .idle
  made : Nat := 0
  loop : ReadLoop n := {}
  /-- The server's: to which stream an alias is assigned, and the close requests it has not answered. -/
  assigned : UInt32 → Option (Fin n) := fun _ => none
  closeRequests : Fin n → Bool := fun _ => false

namespace State

def setStream (s : State n) (stream : Fin n) (pc : StreamPc n) : State n :=
  { s with streams := Function.update s.streams stream pc }

/-- Sends a command to the read loop. -/
def push (s : State n) (command : ReadLoopCommand (Tx n)) : State n :=
  { s with loop.commands := s.loop.commands ++ [command] }

def addUpstream (s : State n) (stream : Fin n) (streamIdAlias : UInt32) : State n × List (Event n) :=
  let tx := ⟨stream, s.made⟩
  if s.loop.exited then (s, [])
  else
    ({ s with made := s.made + 1 }.push (.addUpstream streamIdAlias tx) |>.setStream stream
      (.registered streamIdAlias tx), [.registered stream tx])

/-- The guard is dropped, and the stream goes on at `pc`. -/
def dropGuard (s : State n) (stream : Fin n) (streamIdAlias : UInt32) (pc : StreamPc n) :
    State n × List (Event n) :=
  (s.push (.removeUpstream streamIdAlias) |>.setStream stream pc, [.guardDropped stream streamIdAlias])

end State

def step (s : State n) : Action n → Option (State n × List (Event n))
  | .request stream =>
    match s.streams stream with
    | .idle => some (s.setStream stream .requesting, [])
    | _ => none
  | .assign stream streamIdAlias =>
    match s.streams stream with
    | .requesting =>
      some ({ s with assigned := Function.update s.assigned streamIdAlias (some stream) }.setStream stream
        (.answered streamIdAlias), [.assigned stream streamIdAlias])
    | _ => none
  | .requestFailed stream =>
    match s.streams stream with
    | .requesting | .answered _ => some (s.setStream stream .idle, [])
    | _ => none
  | .responded stream =>
    match s.streams stream with
    | .answered streamIdAlias => some (s.setStream stream (.opened streamIdAlias), [])
    | _ => none
  | .add stream =>
    match s.streams stream with
    | .opened streamIdAlias => some (s.addUpstream stream streamIdAlias)
    | _ => none
  | .leave stream resume =>
    match s.streams stream with
    | .registered streamIdAlias _ =>
      some (s.dropGuard stream streamIdAlias (if resume then .idle else .opened streamIdAlias))
    | _ => none
  | .closeRequest stream =>
    match s.streams stream with
    | .registered streamIdAlias tx =>
      some ({ s with closeRequests := Function.update s.closeRequests stream true }.setStream stream
        (.closing streamIdAlias tx), [])
    | _ => none
  | .answerClose stream =>
    if s.closeRequests stream then
      some ({ s with
        closeRequests := Function.update s.closeRequests stream false
        assigned := fun a => if s.assigned a = some stream then none else s.assigned a },
        [.closeAnswered stream])
    else none
  | .closeResponded stream =>
    match s.streams stream with
    | .closing streamIdAlias tx => some (s.setStream stream (.returning streamIdAlias tx), [])
    | _ => none
  | .returned stream =>
    match s.streams stream with
    | .registered streamIdAlias _ | .returning streamIdAlias _ =>
      some (s.dropGuard stream streamIdAlias .closed)
    | .closing _ _ | .closed => none
    | _ => some (s.setStream stream .closed, [])
  | .command command => if command.upstream? = none then some (s.push command, []) else none
  | .process =>
    match s.loop.exited, s.loop.commands with
    | false, command :: commands =>
      some ({ s with loop := { s.loop with
        channels := s.loop.channels.processCommand command, commands := commands } }, [])
    | _, _ => none
  | .read msg =>
    if s.loop.exited then none
    else some ({ s with loop.channels := (s.loop.channels.processMessage msg).2 }, [])
  | .exit => if s.loop.exited then none else some ({ s with loop.exited := true }, [])

/-- A new connection with `n` streams to come. -/
def machine (n : Nat) : Machine (State n) (Action n) (Event n) where
  init := {}
  log₀ := []
  step := step

/-! ### The assumption and the property -/

/-- The server does not assign an alias to a second upstream before it has answered the first one's close
request. -/
def AssignsFree (s : State n) : Action n → Prop
  | .assign stream streamIdAlias =>
    s.assigned streamIdAlias = none ∨ s.assigned streamIdAlias = some stream
  | _ => True

instance (s : State n) (a : Action n) : Decidable (AssignsFree s a) := by
  unfold AssignsFree; split <;> infer_instance

/-- Every upstream whose guard is not dropped is in the table with its own channel, once its command has
been processed. -/
def AllRegistered (s : State n) : Prop :=
  ∀ σ a tx, (s.streams σ).guard? = some (a, tx) → .addUpstream a tx ∉ s.loop.commands →
    s.loop.channels.txUpstreamChunkAck[a]? = some tx

/-- No upstream registers under an alias for which another one has a guard. -/
def AddsApart (s : State n) : Action n → Prop
  | .add stream =>
    match s.streams stream with
    | .opened streamIdAlias =>
      s.loop.exited = false → ∀ τ, (s.streams τ).guard?.map Prod.fst ≠ some streamIdAlias
    | _ => True
  | _ => True

instance (s : State n) (a : Action n) : Decidable (AddsApart s a) := by
  unfold AddsApart
  split
  · split <;> infer_instance
  · infer_instance

/-! ### One registration -/

variable {s s' : State n} {log evs : List (Event n)} {a b : UInt32} {tx : Tx n} {σ τ : Fin n} {l : ReadLoop n}
  {c : ReadLoopCommand (Tx n)}

/-- The alias will stand for the channel when all commands are processed, and does so from its own command
on. -/
def ReadLoop.Registers (l : ReadLoop n) (a : UInt32) (tx : Tx n) : Prop :=
  (∃ pre post, l.commands = pre ++ .addUpstream a tx :: post ∧ ∀ c ∈ post, c.upstream? ≠ some a) ∨
    (∀ c ∈ l.commands, c.upstream? ≠ some a) ∧ l.channels.txUpstreamChunkAck[a]? = some tx

namespace ReadLoop.Registers

theorem table (h : l.Registers a tx) (hp : .addUpstream a tx ∉ l.commands) :
    l.channels.txUpstreamChunkAck[a]? = some tx := by
  rcases h with ⟨pre, post, he, -⟩ | ⟨-, ht⟩
  · exact absurd (by simp [he]) hp
  · exact ht

theorem push (h : l.Registers a tx) (hc : c.upstream? ≠ some a) :
    ({ l with commands := l.commands ++ [c] } : ReadLoop n).Registers a tx := by
  have hlast {cs : List (ReadLoopCommand (Tx n))} (hcs : ∀ c ∈ cs, c.upstream? ≠ some a) :
      ∀ c' ∈ cs ++ [c], c'.upstream? ≠ some a := by
    intro c' hm
    rcases List.mem_append.1 hm with hm | hm
    · exact hcs c' hm
    · rw [List.mem_singleton.1 hm]
      exact hc
  rcases h with ⟨pre, post, he, hpost⟩ | ⟨hno, ht⟩
  · exact .inl ⟨pre, post ++ [c], by simp [he], hlast hpost⟩
  · exact .inr ⟨hlast hno, ht⟩

theorem added : ({ l with commands := l.commands ++ [.addUpstream a tx] } : ReadLoop n).Registers a tx :=
  .inl ⟨l.commands, [], rfl, by simp⟩

theorem process {cs : List (ReadLoopCommand (Tx n))} (h : l.Registers a tx) (hl : l.commands = c :: cs) :
    ({ l with channels := l.channels.processCommand c, commands := cs } : ReadLoop n).Registers a tx := by
  rcases h with ⟨pre, post, he, hpost⟩ | ⟨hno, ht⟩
  · rw [hl] at he
    cases pre with
    | nil =>
      obtain ⟨rfl, rfl⟩ := List.cons.inj he
      exact .inr ⟨hpost, ReadLoopChannels.processCommand_addUpstream⟩
    | cons x pre => exact .inl ⟨pre, post, (List.cons.inj he).2, hpost⟩
  · rw [hl] at hno
    refine .inr ⟨fun c' hm => hno c' (List.mem_cons_of_mem _ hm), ?_⟩
    rw [← ht]
    exact ReadLoopChannels.processCommand_of_upstream (hno c (List.mem_cons_self ..))

end ReadLoop.Registers

/-! ### All of them -/

structure Inv (s : State n) : Prop where
  apart : ∀ σ τ a tx tx', (s.streams σ).guard? = some (a, tx) → (s.streams τ).guard? = some (a, tx') → σ = τ
  registers : ∀ σ a tx, (s.streams σ).guard? = some (a, tx) → s.loop.Registers a tx

namespace Inv

/-- A step that leaves the guards alone. -/
theorem of_guards (h : Inv s) (hg : ∀ σ, (s'.streams σ).guard? = (s.streams σ).guard?)
    (hl : ∀ a tx, s.loop.Registers a tx → s'.loop.Registers a tx) : Inv s' := by
  refine ⟨fun σ τ a tx tx' hσ hτ => ?_, fun σ a tx hσ => ?_⟩
  · rw [hg] at hσ hτ
    exact h.apart σ τ a tx tx' hσ hτ
  · rw [hg] at hσ
    exact hl a tx (h.registers σ a tx hσ)

/-- A stream moves on with its guard, or still without one. -/
theorem moved {pc : StreamPc n} (h : Inv s) (hpc : pc.guard? = (s.streams σ).guard?)
    (hs : s'.streams = Function.update s.streams σ pc) (hl : s'.loop = s.loop) : Inv s' := by
  refine h.of_guards (fun τ => ?_) fun a tx hr => hl ▸ hr
  rw [hs]
  by_cases he : τ = σ
  · subst he
    rw [Function.update_self, hpc]
  · rw [Function.update_of_ne he]

/-- A guard is dropped: the aliases of the others are other aliases. -/
theorem dropped {pc : StreamPc n} (h : Inv s) (hσ : (s.streams σ).guard? = some (a, tx))
    (hpc : pc.guard? = none) : Inv (s.dropGuard σ a pc).1 := by
  have hother {τ : Fin n} {b : UInt32} {tx' : Tx n}
      (hτ : (Function.update s.streams σ pc τ).guard? = some (b, tx')) :
      b ≠ a ∧ (s.streams τ).guard? = some (b, tx') := by
    by_cases he : τ = σ
    · subst he
      rw [Function.update_self, hpc] at hτ
      cases hτ
    · rw [Function.update_of_ne he] at hτ
      refine ⟨?_, hτ⟩
      rintro rfl
      exact he (h.apart τ σ b tx' tx hτ hσ)
  refine ⟨fun τ τ' b tx₁ tx₂ h₁ h₂ => ?_, fun τ b tx' hτ => ?_⟩
  · exact h.apart τ τ' b tx₁ tx₂ (hother h₁).2 (hother h₂).2
  · obtain ⟨hb, hτ⟩ := hother hτ
    exact (h.registers τ b tx' hτ).push (by simpa [ReadLoopCommand.upstream?] using hb.symm)

theorem added (h : Inv s)
    (ha : s.loop.exited = false → ∀ τ, (s.streams τ).guard?.map Prod.fst ≠ some a) :
    Inv (s.addUpstream σ a).1 := by
  unfold State.addUpstream
  split
  · exact h
  rename_i hrun
  have hfree {τ : Fin n} {b : UInt32} {tx : Tx n} (hτ : (s.streams τ).guard? = some (b, tx)) : b ≠ a := by
    rintro rfl
    exact ha (by simpa using hrun) τ (by rw [hτ]; rfl)
  have hold {τ : Fin n} (hne : τ ≠ σ) :
      Function.update s.streams σ (.registered a ⟨σ, s.made⟩) τ = s.streams τ := Function.update_of_ne hne _ _
  refine ⟨fun τ τ' b tx₁ tx₂ h₁ h₂ => ?_, fun τ b tx' hτ => ?_⟩
  · simp only [State.setStream, State.push] at h₁ h₂
    by_cases he₁ : τ = σ <;> by_cases he₂ : τ' = σ
    · rw [he₁, he₂]
    · rw [he₁, Function.update_self] at h₁
      rw [hold he₂] at h₂
      cases h₁
      exact absurd rfl (hfree h₂)
    · rw [he₂, Function.update_self] at h₂
      rw [hold he₁] at h₁
      cases h₂
      exact absurd rfl (hfree h₁)
    · rw [hold he₁] at h₁
      rw [hold he₂] at h₂
      exact h.apart τ τ' b tx₁ tx₂ h₁ h₂
  · simp only [State.setStream, State.push] at hτ ⊢
    by_cases he : τ = σ
    · rw [he, Function.update_self] at hτ
      cases hτ
      exact .added
    · rw [hold he] at hτ
      exact (h.registers τ b tx' hτ).push (by simpa [ReadLoopCommand.upstream?] using (hfree hτ).symm)

theorem step {act : Action n} (h : Inv s) (hc : AddsApart s act)
    (ha : Upstreams.step s act = some (s', evs)) : Inv s' := by
  cases act with
  | request σ | assign σ | responded σ | closeRequest σ | closeResponded σ =>
    simp only [Upstreams.step] at ha
    split at ha <;> rename_i hσ <;> cases ha
    exact h.moved (by rw [hσ]; rfl) rfl rfl
  | requestFailed σ =>
    simp only [Upstreams.step] at ha
    split at ha <;> rename_i hσ <;> cases ha <;> exact h.moved (by rw [hσ]; rfl) rfl rfl
  | add σ =>
    simp only [Upstreams.step] at ha
    split at ha
    · rename_i a hσ
      obtain rfl := (Prod.mk.inj (Option.some.inj ha)).1
      simp only [AddsApart, hσ] at hc
      exact h.added hc
    · cases ha
  | leave σ resume =>
    simp only [Upstreams.step] at ha
    split at ha
    · rename_i a tx hσ
      obtain rfl := (Prod.mk.inj (Option.some.inj ha)).1
      exact h.dropped (by rw [hσ]; rfl) (by cases resume <;> rfl)
    · cases ha
  | answerClose σ =>
    simp only [Upstreams.step] at ha
    split at ha <;> cases ha
    exact h.of_guards (fun _ => rfl) fun _ _ hr => hr
  | returned σ =>
    simp only [Upstreams.step] at ha
    split at ha
    · rename_i a tx hσ
      obtain rfl := (Prod.mk.inj (Option.some.inj ha)).1
      exact h.dropped (by rw [hσ]; rfl) rfl
    · rename_i a tx hσ
      obtain rfl := (Prod.mk.inj (Option.some.inj ha)).1
      exact h.dropped (by rw [hσ]; rfl) rfl
    · cases ha
    · cases ha
    · rename_i hreg hret hclosing hclosed
      cases ha
      refine h.moved ?_ rfl rfl
      -- The stream has no guard.
      cases hσ : s.streams σ with
      | registered a tx => exact absurd hσ (hreg a tx)
      | closing a tx => exact absurd hσ (hclosing a tx)
      | returning a tx => exact absurd hσ (hret a tx)
      | _ => rfl
  | command c =>
    simp only [Upstreams.step] at ha
    split at ha <;> cases ha
    rename_i hc
    exact h.of_guards (fun _ => rfl) fun a tx hr => hr.push (by simp [hc])
  | process =>
    simp only [Upstreams.step] at ha
    split at ha <;> cases ha
    rename_i hl
    exact h.of_guards (fun _ => rfl) fun a tx hr => hr.process hl
  | read msg =>
    simp only [Upstreams.step] at ha
    split at ha <;> cases ha
    refine h.of_guards (fun _ => rfl) fun a tx hr => ?_
    unfold ReadLoop.Registers
    rwa [ReadLoopChannels.processMessage_txUpstreamChunkAck]
  | exit =>
    simp only [Upstreams.step] at ha
    split at ha <;> cases ha
    exact h.of_guards (fun _ => rfl) fun _ _ hr => hr

end Inv

/-- In every run in which no upstream registers under the alias of another one's guard, whatever the server
assigns, a registration stays as long as its guard. -/
theorem registrations_kept (h : (machine n).Exec (fun _ => AddsApart) log s) : AllRegistered s := by
  have hi : Inv s := by
    refine h.invariant (I := fun _ s => Inv s) ⟨fun σ τ a tx tx' hσ => ?_, fun σ a tx hσ => ?_⟩
      fun _ _ _ _ _ _ hi hc ha => hi.step hc ha
    · cases hσ
    · cases hσ
  intro σ a tx hσ hp
  exact (hi.registers σ a tx hσ).table hp

/-- The first upstream closes, and the second one is opened with its alias and registers; the guard of the
first one is dropped before that, or after. -/
def reuseRun (before after : List (Action 2)) : List (Action 2) :=
  ([.request 0, .assign 0 7, .responded 0, .add 0, .process, .closeRequest 0, .answerClose 0,
    .closeResponded 0, .request 1, .assign 1 7, .responded 1] : List (Action 2)) ++ before ++
    ([.add 1, .process] : List (Action 2)) ++ after

theorem registrations_kept_reused :
    ∃ log s, (machine 2).Exec (fun _ => AddsApart) log s ∧ (s.streams 1).guard? = some (7, ⟨1, 1⟩) ∧
      AllRegistered s := by
  obtain ⟨log, s, h, hg⟩ := Machine.Exec.exists_of_any (M := machine 2) (C := fun _ => AddsApart)
    (reuseRun [.returned 0] [.process])
    (P := fun _ s => (s.streams 1).guard? = some (7, ⟨1, 1⟩)) (by decide +kernel)
  exact ⟨log, s, h, hg, registrations_kept h⟩

/-- The guard of the closed upstream removes the registration of the open one. -/
theorem registration_removed :
    ∃ log s, (machine 2).Exec (fun _ => AssignsFree) log s ∧ ¬ AllRegistered s := by
  obtain ⟨log, s, h, hg, hc, ht⟩ := Machine.Exec.exists_of_any (M := machine 2) (C := fun _ => AssignsFree)
    (reuseRun [] [.returned 0, .process])
    (P := fun _ s => (s.streams 1).guard? = some (7, ⟨1, 1⟩) ∧ s.loop.commands.isEmpty ∧
      s.loop.channels.txUpstreamChunkAck[(7 : UInt32)]? = none) (by decide +kernel)
  refine ⟨log, s, h, fun hall => ?_⟩
  have hin := hall 1 7 ⟨1, 1⟩ hg (by simp [List.isEmpty_iff.1 hc])
  rw [ht] at hin
  cases hin

end Upstreams
end Iscp.Wire
