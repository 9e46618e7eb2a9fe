import Iscp.Wire.Registry

/-!
# What the steps of the connection do

What a reader's table says of an alias is said of the table as it will be once the pending commands are
taken (`ReadLoop.table`), so only the sending of a command changes it, not the taking. `Step` has one case
for each thing a step does to the streams, the readers and the channels.
-/

namespace Iscp

/-- A chunk or metadata, with the alias of the downstream it is for. -/
def Message.MessageEnum.streamMsg? (m : Message.MessageEnum) : Option (UInt32 × ReceivableDownstreamMsg) :=
  match m with
  | downstreamChunk _ | downstreamMetadata _ => m.downstreamMsg?
  | _ => none

theorem Message.MessageEnum.downstreamMsg?_of_streamMsg? {m : Message.MessageEnum}
    {x : UInt32 × ReceivableDownstreamMsg} (h : m.streamMsg? = some x) : m.downstreamMsg? = some x := by
  cases m <;> first | exact h | cases h

namespace Wire

variable {n : Nat} {c : Config} {s s' : State n} {log evs : List (Event n)} {a b : UInt32}
  {r r' : Reader} {σ τ : Fin n} {tx : Tx n} {u : Bool}

namespace StreamPc

def alias? : StreamPc n → Option UInt32
  | requesting _ a _ | answered _ a _ | opened a | registered a _ _ => some a
  | idle | closed => none

def carried? : StreamPc n → Option UInt32
  | answered resume a response => if accepts resume response then some a else none
  | opened a | registered a _ _ => some a
  | _ => none

def tx? : StreamPc n → Option (Tx n)
  | registered _ tx _ => some tx
  | _ => none

end StreamPc

def ReaderPc.tx? : ReaderPc n → Option (Tx n)
  | sending _ tx _ => some tx
  | _ => none

/-- The readers that a registration is sent to. -/
def readsFrom (unreliable : Bool) : Reader → Bool
  | .main => true
  | .unreliable => unreliable

/-- Where the messages for `a` go once the pending commands are taken. -/
def ReadLoop.table (l : ReadLoop n) (a : UInt32) : Option (Tx n) :=
  (l.commands.foldl .processCommand l.channels).txDownstreamMsg[a]?

/-! ### The tables -/

namespace ReadLoop

variable {l : ReadLoop n} {command : ReadLoopCommand (Tx n)}

theorem table_append : ({ l with commands := l.commands ++ [command] } : ReadLoop n).table a =
    ((l.commands.foldl .processCommand l.channels).processCommand command).txDownstreamMsg[a]? := by
  simp [table]

theorem table_append_of_ne (h : command.downstream? ≠ some a) :
    ({ l with commands := l.commands ++ [command] } : ReadLoop n).table a = l.table a := by
  rw [table_append, ReadLoopChannels.processCommand_of_ne h]
  rfl

/-- Without a pending command about `a`, the table is as it will be. -/
theorem table_of_forall (h : ∀ command ∈ l.commands, command.downstream? ≠ some a) :
    l.table a = l.channels.txDownstreamMsg[a]? := by
  obtain ⟨pc, ch, commands⟩ := l
  unfold table
  induction commands generalizing ch with
  | nil => rfl
  | cons command commands ih =>
    rw [List.foldl_cons, ih _ fun command' hm => h command' (List.mem_cons_of_mem _ hm)]
    exact ReadLoopChannels.processCommand_of_ne (h command List.mem_cons_self)

end ReadLoop

namespace State

variable {command : ReadLoopCommand (Tx n)} {pc : StreamPc n} {chan : Channel} {l : ReadLoop n}

@[simp] theorem readers_setStream : (s.setStream σ pc).readers = s.readers := rfl

@[simp] theorem chans_setStream : (s.setStream σ pc).chans = s.chans := rfl

@[simp] theorem ct_setStream : (s.setStream σ pc).ct = s.ct := rfl

@[simp] theorem streams_setStream : (s.setStream σ pc).streams = Function.update s.streams σ pc := rfl

@[simp] theorem readers_setChannel : (s.setChannel tx chan).readers = s.readers := rfl

@[simp] theorem streams_setChannel : (s.setChannel tx chan).streams = s.streams := rfl

@[simp] theorem ct_setChannel : (s.setChannel tx chan).ct = s.ct := rfl

@[simp] theorem chans_setReader : (s.setReader r l).chans = s.chans := rfl

@[simp] theorem streams_setReader : (s.setReader r l).streams = s.streams := rfl

@[simp] theorem ct_setReader : (s.setReader r l).ct = s.ct := rfl

@[simp] theorem chans_push : (s.push r command).chans = s.chans := rfl

@[simp] theorem streams_push : (s.push r command).streams = s.streams := rfl

@[simp] theorem ct_push : (s.push r command).ct = s.ct := rfl

@[simp] theorem pc_push : ((s.push r command).readers r').pc = (s.readers r').pc := by
  by_cases h : r' = r
  · subst h
    simp [push, setReader]
  · simp [push, setReader, Function.update_of_ne h]

theorem table_push_of_ne (h : command.downstream? ≠ some a) :
    ((s.push r command).readers r').table a = (s.readers r').table a := by
  by_cases hr : r' = r
  · subst hr
    simp only [push, setReader, Function.update_self]
    exact ReadLoop.table_append_of_ne h
  · simp [push, setReader, Function.update_of_ne hr]

@[simp] theorem chans_pushAll : (s.pushAll u command).chans = s.chans := by
  cases u <;> rfl

@[simp] theorem streams_pushAll : (s.pushAll u command).streams = s.streams := by
  cases u <;> rfl

@[simp] theorem ct_pushAll : (s.pushAll u command).ct = s.ct := by
  cases u <;> rfl

@[simp] theorem pc_pushAll : ((s.pushAll u command).readers r).pc = (s.readers r).pc := by
  cases u <;> simp [pushAll]

theorem table_pushAll_of_ne (h : command.downstream? ≠ some a) :
    ((s.pushAll u command).readers r).table a = (s.readers r).table a := by
  cases u <;> simp [pushAll, table_push_of_ne h]

theorem table_pushAll_add (hr : readsFrom u r) :
    ((s.pushAll u (.addDownstream a tx)).readers r).table a = some tx := by
  have hadd (l : ReadLoop n) :
      ({ l with commands := l.commands ++ [.addDownstream a tx] } : ReadLoop n).table a = some tx := by
    rw [ReadLoop.table_append, ReadLoopChannels.processCommand_add, if_pos rfl]
  cases r with
  | main =>
    simp only [pushAll, push, setReader, Function.update_self]
    exact hadd _
  | unreliable =>
    obtain rfl : u = true := hr
    simp only [pushAll, push, setReader, ↓reduceIte]
    rw [Function.update_of_ne (by simp), Function.update_self]
    exact hadd _

end State

/-! ### The steps -/

structure Frame (s s' : State n) : Prop where
  ct : s'.ct = s.ct
  pc : ∀ r, (s'.readers r).pc = (s.readers r).pc
  rxDropped : ∀ tx, (s'.chans tx).rxDropped = (s.chans tx).rxDropped

def SameTable (s s' : State n) : Prop := ∀ r a, (s'.readers r).table a = (s.readers r).table a

def Event.quiet : Event n → Prop
  | .read _ _ m => m.streamMsg? = none
  | .dropped _ _ => True
  | _ => False

inductive Step (c : Config) (s : State n) : Action n → State n → List (Event n) → Prop
  | quiet {act : Action n} {s' : State n} {evs : List (Event n)} : s'.streams = s.streams → Frame s s' →
      SameTable s s' → (∀ e ∈ evs, e.quiet) → Step c s act s' evs
  | requested {σ : Fin n} {resume : Bool} {requestId : UInt32} {s' : State n} :
      s'.streams = Function.update s.streams σ (.requesting resume s.streamIdAliasCounter requestId) →
      s.streams σ = .idle → Frame s s' → SameTable s s' → Step c s (.request σ resume) s' []
  | moved {act : Action n} {σ : Fin n} {pc : StreamPc n} : (s.streams σ).tx? = none → pc.tx? = none →
      (∀ a, pc.alias? = some a → (s.streams σ).alias? = some a) → pc.carried? = (s.streams σ).carried? →
      Step c s act (s.setStream σ pc) []
  | answered {r : Reader} {k : Nat} {m : Message.MessageEnum} {σ : Fin n} {resume : Bool}
      {a requestId : UInt32} {s' : State n} : m.streamMsg? = none →
      s'.streams = Function.update s.streams σ (.answered resume a m) →
      s.streams σ = .requesting resume a requestId → Frame s s' → SameTable s s' →
      Step c s (.read r m) s' (.read r k m :: if accepts resume m then [.answered σ a] else [])
  | added {σ : Fin n} {u : Bool} {a : UInt32} : s.streams σ = .opened a → Step c s (.add σ u)
      (({ s with made := s.made + 1 }.setChannel ⟨σ, s.made⟩ {}).pushAll (u && c.unreliable)
        (.addDownstream a ⟨σ, s.made⟩) |>.setStream σ (.registered a ⟨σ, s.made⟩ (u && c.unreliable)))
      [.registered σ ⟨σ, s.made⟩]
  | addFailed {σ : Fin n} {u : Bool} {a : UInt32} {s' : State n} : s.streams σ = .opened a → s'.streams = s.streams → Frame s s' →
      (∀ r b, b ≠ a → (s'.readers r).table b = (s.readers r).table b) → Step c s (.add σ u) s' []
  | left {σ : Fin n} {a : UInt32} {tx : Tx n} {u : Bool} : s.streams σ = .registered a tx u →
      Step c s (.leave σ) ((s.dropDownstream a tx u).setStream σ (.opened a)) []
  | closed {σ : Fin n} {a : UInt32} {tx : Tx n} {u : Bool} : s.streams σ = .registered a tx u →
      Step c s (.close σ) ((s.dropDownstream a tx u).setStream σ .closed) [.closed σ]
  | closedEarly {σ : Fin n} : (s.streams σ).tx? = none → Step c s (.close σ) (s.setStream σ .closed) [.closed σ]
  | routed {r : Reader} {m : Message.MessageEnum} {a : UInt32} {msg : ReceivableDownstreamMsg} {tx : Tx n}
      {s' : State n} : (s.readers r).pc = .selecting → m.downstreamMsg? = some (a, msg) →
      (s.readers r).channels.txDownstreamMsg[a]? = some tx → s'.streams = s.streams → s'.ct = s.ct →
      s'.chans = s.chans → SameTable s s' → (s'.readers r).pc = .sending s.reads tx msg →
      (∀ r', r' ≠ r → (s'.readers r').pc = (s.readers r').pc) →
      Step c s (.read r m) s' [.read r s.reads m]
  | unknown {r : Reader} {k : Nat} {m : Message.MessageEnum} {a : UInt32} {msg : ReceivableDownstreamMsg}
      {s' : State n} : m.downstreamMsg? = some (a, msg) →
      (s.readers r).channels.txDownstreamMsg[a]? = none → s'.streams = s.streams → Frame s s' →
      SameTable s s' → Step c s (.read r m) s' [.read r k m, .dropped r k]
  | sent {r : Reader} {k : Nat} {tx : Tx n} {msg : ReceivableDownstreamMsg} {evs : List (Event n)}
      {s' : State n} : (s.readers r).pc = .sending k tx msg → s'.streams = s.streams →
      s'.ct = s.ct → (∀ tx, (s'.chans tx).rxDropped = (s.chans tx).rxDropped) → SameTable s s' →
      (∀ r', r' ≠ r → (s'.readers r').pc = (s.readers r').pc) →
      (evs = [.delivered r k tx msg] ∨ evs = [.dropped r k] ∧ (s.chans tx).rxDropped) →
      Step c s (.sent r) s' evs
  | lost {act : Action n} {s' : State n} {evs : List (Event n)} : s'.streams = s.streams → s'.ct = true →
      s'.chans = s.chans → SameTable s s' →
      (∀ r, (s.readers r).pc ≠ .selecting → (s'.readers r).pc = (s.readers r).pc) →
      (∀ e ∈ evs, e.quiet ∨ e = .lost) → .lost ∈ evs → Step c s act s' evs
  | exited {r : Reader} {s' : State n} {evs : List (Event n)} : s'.streams = s.streams → s'.ct = s.ct →
      s'.chans = s.chans → SameTable s s' → (∀ r', r' ≠ r → (s'.readers r').pc = (s.readers r').pc) →
      (∀ e ∈ evs, e.quiet) → Step c s (.exit r) s' evs

theorem Frame.refl : Frame s s := ⟨rfl, fun _ => rfl, fun _ => rfl⟩

theorem sameTable_of_update {l : ReadLoop n} (hs : s'.readers = Function.update s.readers r l)
    (h : ∀ a, l.table a = (s.readers r).table a) : SameTable s s' := by
  intro r' a
  by_cases hr : r' = r
  · subst hr
    rw [hs, Function.update_self, h]
  · rw [hs, Function.update_of_ne hr]

theorem pc_of_update {l : ReadLoop n} (hs : s'.readers = Function.update s.readers r l) (h : r' ≠ r) :
    (s'.readers r').pc = (s.readers r').pc := by
  rw [hs, Function.update_of_ne h]

theorem frame_of_update {l : ReadLoop n} (hs : s'.readers = Function.update s.readers r l)
    (h : l.pc = (s.readers r).pc) (hct : s'.ct = s.ct) (hc : s'.chans = s.chans) : Frame s s' := by
  refine ⟨hct, fun r' => ?_, fun tx => by rw [hc]⟩
  by_cases hr : r' = r
  · subst hr
    rw [hs, Function.update_self, h]
  · exact pc_of_update hs hr

/-- What a message does to the reader's channels leaves the table alone. -/
theorem table_processMessage {l : ReadLoop n} (m : Message.MessageEnum) (pc : ReaderPc n) :
    ({ l with channels := (l.channels.processMessage m).2, pc := pc } : ReadLoop n).table a = l.table a := by
  obtain ⟨pc', ch, commands⟩ := l
  unfold ReadLoop.table
  have h : (ch.processMessage m).2.txDownstreamMsg = ch.txDownstreamMsg :=
    ReadLoopChannels.processMessage_txDownstreamMsg m
  generalize (ch.processMessage m).2 = ch' at h
  induction commands generalizing ch ch' with
  | nil => exact congrArg (·[a]?) h
  | cons command commands ih =>
    refine ih _ _ ?_
    cases command with
    | addDownstream b tx | removeDownstream b =>
      simp only [h]
    | _ => exact h

theorem rxDropped_of_update {chan : Channel} (hc : s'.chans = Function.update s.chans tx chan)
    (h : chan.rxDropped = (s.chans tx).rxDropped) (tx' : Tx n) :
    (s'.chans tx').rxDropped = (s.chans tx').rxDropped := by
  rw [hc]
  by_cases ht : tx' = tx
  · subst ht
    rw [Function.update_self, h]
  · rw [Function.update_of_ne ht]

/-- A response ends in the oneshot of the request that waits for it, or changes nothing but the senders. -/
theorem respond_cases {m : Message.MessageEnum} (h : s.respond m = (s', evs)) :
    s'.readers = s.readers ∧ s'.chans = s.chans ∧ s'.ct = s.ct ∧
      (s'.streams = s.streams ∧ evs = [] ∨
        ∃ σ resume a requestId, s.streams σ = .requesting resume a requestId ∧
          s'.streams = Function.update s.streams σ (.answered resume a m) ∧
          evs = if accepts resume m then [.answered σ a] else []) := by
  unfold State.respond at h
  split at h
  · cases h
    exact ⟨rfl, rfl, rfl, .inl ⟨rfl, rfl⟩⟩
  · split at h
    · split at h
      · cases h
        exact ⟨rfl, rfl, rfl, .inl ⟨rfl, rfl⟩⟩
      · dsimp only at h
        split at h
        · cases h
          exact ⟨rfl, rfl, rfl, .inl ⟨rfl, rfl⟩⟩
        · split at h
          · rename_i σ _ _ resume a id hσ
            split at h <;> cases h
            · exact ⟨rfl, rfl, rfl, .inr ⟨σ, resume, a, id, hσ, rfl, rfl⟩⟩
            · exact ⟨rfl, rfl, rfl, .inl ⟨rfl, rfl⟩⟩
          · cases h
            exact ⟨rfl, rfl, rfl, .inl ⟨rfl, rfl⟩⟩
    · cases h
      exact ⟨rfl, rfl, rfl, .inl ⟨rfl, rfl⟩⟩

theorem streamMsg?_of_downstreamMsg? {m : Message.MessageEnum} (h : m.downstreamMsg? = none) :
    m.streamMsg? = none := by
  cases m <;> first | rfl | cases h

theorem downstreamMsg?_of_processMessage {ch ch' : ReadLoopChannels (Tx n)} {m : Message.MessageEnum}
    {msg : ReceivableDownstreamMsg} (h : ch.processMessage m = (.downstreamMsg tx msg, ch')) :
    m.downstreamMsg? ≠ none := by
  cases m with
  | downstreamChunk | downstreamMetadata | downstreamChunkAckComplete => exact fun hn => nomatch hn
  | upstreamChunkAck | upstreamCallAck =>
    simp only [ReadLoopChannels.processMessage] at h
    split at h <;> cases h
  | _ => cases h

theorem onMessage_other {m : Message.MessageEnum} (hm : m.downstreamMsg? = none)
    (hpc : (s.readers r).pc = .selecting) (h : s.onMessage r m = (s', evs)) : Step c s (.read r m) s' evs := by
  have hquiet : (Event.read r s.reads m : Event n).quiet := streamMsg?_of_downstreamMsg? hm
  have hq {evs : List (Event n)} (he : evs = [Event.read r s.reads m]) : ∀ e ∈ evs, e.quiet := by
    subst he
    simpa using hquiet
  -- The reader, whose channels the message may have changed.
  have hframe {s₁ : State n} (hr : s₁.readers = Function.update s.readers r
      { s.readers r with channels := ((s.readers r).channels.processMessage m).2 })
      (hct : s₁.ct = s.ct) (hc : s₁.chans = s.chans) : Frame s s₁ ∧ SameTable s s₁ :=
    ⟨frame_of_update hr rfl hct hc, sameTable_of_update hr fun a => table_processMessage m _⟩
  cases m with
  | ping | pong | downstreamCall =>
    cases h
    exact .quiet rfl ⟨rfl, fun _ => rfl, fun _ => rfl⟩ (fun _ _ => rfl) (hq rfl)
  | disconnect =>
    cases h
    refine .lost rfl rfl rfl (sameTable_of_update rfl fun _ => rfl) (fun r' hr => ?_) ?_ (by simp)
    · exact pc_of_update rfl fun he => hr (by rw [he]; exact hpc)
    · simpa using hquiet
  | downstreamChunk | downstreamMetadata | downstreamChunkAckComplete => cases hm
  | upstreamChunkAck | upstreamCallAck | response | other =>
    simp only [State.onMessage] at h
    split at h <;> rename_i hp
    · exact absurd hm (downstreamMsg?_of_processMessage hp)
    · obtain ⟨hs, rfl⟩ := Prod.mk.inj h
      obtain ⟨hf, ht⟩ := @hframe s' (by rw [← hs, hp]; rfl) (by rw [← hs]; rfl) (by rw [← hs]; rfl)
      exact .quiet (by rw [← hs]; rfl) hf ht (by simpa [Event.quiet] using hquiet)
    · generalize hresp : State.respond _ _ = x at h
      obtain ⟨s₁, es⟩ := x
      obtain ⟨rfl, rfl⟩ := Prod.mk.inj h
      obtain ⟨hr, hc, hct, hcases⟩ := respond_cases hresp
      obtain ⟨hf, ht⟩ := hframe (hr.trans (by rw [hp]; rfl)) hct hc
      rcases hcases with ⟨hs, he⟩ | ⟨σ, resume, a, id, hσ, hs, he⟩
      · exact .quiet hs hf ht (hq (by rw [he]))
      · rw [he]
        exact .answered (streamMsg?_of_downstreamMsg? hm) hs hσ hf ht
    · obtain ⟨hs, rfl⟩ := Prod.mk.inj h
      obtain ⟨hf, ht⟩ := @hframe s' (by rw [← hs, hp]; rfl) (by rw [← hs]; rfl) (by rw [← hs]; rfl)
      exact .quiet (by rw [← hs]; rfl) hf ht (hq rfl)

theorem onMessage_step {m : Message.MessageEnum} (hpc : (s.readers r).pc = .selecting)
    (h : s.onMessage r m = (s', evs)) : Step c s (.read r m) s' evs := by
  cases hm : m.downstreamMsg? with
  | none => exact onMessage_other hm hpc h
  | some x =>
    obtain ⟨a, msg⟩ := x
    have hp : (s.readers r).channels.processMessage m = _ := ReadLoopChannels.processMessage_downstream hm
    cases hl : (s.readers r).channels.txDownstreamMsg[a]? with
    | some tx =>
      rw [hl] at hp
      have hs : s.onMessage r m = ({ s with reads := s.reads + 1 }.setReader r
          { s.readers r with pc := .sending s.reads tx msg }, [.read r s.reads m]) := by
        cases m <;> cases hm <;> simp only [State.onMessage, hp]
      rw [hs] at h
      obtain ⟨rfl, rfl⟩ := Prod.mk.inj h
      exact .routed hpc hm hl rfl rfl rfl (sameTable_of_update rfl fun _ => rfl)
        (by simp [State.setReader]) fun r' hr => pc_of_update rfl hr
    | none =>
      rw [hl] at hp
      have hs : s.onMessage r m = ({ s with reads := s.reads + 1 }.setReader r (s.readers r),
          [.read r s.reads m, .dropped r s.reads]) := by
        cases m <;> cases hm <;> simp only [State.onMessage, hp]
      rw [hs] at h
      obtain ⟨rfl, rfl⟩ := Prod.mk.inj h
      exact .unknown hm hl rfl (frame_of_update rfl rfl rfl rfl) (sameTable_of_update rfl fun _ => rfl)

theorem addDownstream_step (hσ : s.streams σ = .opened a)
    (h : s.addDownstream σ a (u && c.unreliable) = (s', evs)) : Step c s (.add σ u) s' evs := by
  unfold State.addDownstream at h
  dsimp only at h
  split at h
  · cases h
    exact .addFailed hσ rfl .refl fun _ _ _ => rfl
  · split at h
    · split at h <;> cases h
      · refine .addFailed hσ rfl ⟨rfl, by simp, fun _ => rfl⟩ fun r b hb => ?_
        rw [State.table_push_of_ne (by simpa [ReadLoopCommand.downstream?] using hb.symm),
          State.table_push_of_ne (by simpa [ReadLoopCommand.downstream?] using hb.symm)]
      · exact .addFailed hσ rfl .refl fun _ _ _ => rfl
    · cases h
      exact .added hσ

theorem step_step {act : Action n} (h : step c s act = some (s', evs)) : Step c s act s' evs := by
  cases act with
  | request σ resume =>
    simp only [step] at h
    split at h
    · rename_i hσ
      split at h <;> cases h
      · exact .quiet rfl ⟨rfl, fun _ => rfl, fun _ => rfl⟩ (fun _ _ => rfl) (by simp)
      · exact .requested rfl hσ ⟨rfl, fun _ => rfl, fun _ => rfl⟩ fun _ _ => rfl
    · cases h
  | requestFailed σ =>
    simp only [step] at h
    split at h <;> cases h
    rename_i hσ
    exact .moved (by rw [hσ]; rfl) rfl (by simp [StreamPc.alias?]) (by rw [hσ]; rfl)
  | responded σ =>
    simp only [step] at h
    split at h <;> cases h
    rename_i resume b response hσ
    refine .moved (by rw [hσ]; rfl) ?_ (fun a ha => ?_) ?_
    · split <;> rfl
    · rw [hσ]
      split at ha <;> cases ha
      rfl
    · rw [hσ]
      cases hacc : accepts resume response <;> simp [StreamPc.carried?, hacc]
  | add σ u =>
    simp only [step] at h
    split at h
    · rename_i hσ
      exact addDownstream_step hσ (Option.some.inj h)
    · cases h
  | leave σ =>
    simp only [step] at h
    split at h <;> cases h
    rename_i hσ
    exact .left hσ
  | close σ =>
    simp only [step] at h
    split at h
    · rename_i hσ
      cases h
      exact .closed hσ
    · cases h
    · rename_i hreg _
      cases h
      refine .closedEarly ?_
      cases hσ : s.streams σ with
      | registered a tx u => exact absurd hσ (hreg a tx u)
      | _ => rfl
  | recv σ =>
    simp only [step] at h
    split at h
    · split at h <;> cases h
      exact .quiet rfl ⟨rfl, fun _ => rfl, rxDropped_of_update rfl rfl⟩ (fun _ _ => rfl) (by simp)
    · cases h
  | otherRequest =>
    cases h
    exact .quiet rfl ⟨rfl, fun _ => rfl, fun _ => rfl⟩ (fun _ _ => rfl) (by simp)
  | command command =>
    simp only [step] at h
    split at h <;> cases h
    rename_i hc
    exact .quiet rfl ⟨rfl, by simp, fun _ => rfl⟩
      (fun r a => State.table_push_of_ne (by rw [hc]; simp)) (by simp)
  | process r =>
    simp only [step] at h
    split at h <;> cases h
    rename_i hpc hcmd
    refine .quiet rfl (frame_of_update rfl rfl rfl rfl) (sameTable_of_update rfl fun a => ?_) (by simp)
    simp [ReadLoop.table, hcmd]
  | read r m =>
    simp only [step] at h
    split at h
    · rename_i hpc
      exact onMessage_step hpc (Option.some.inj h)
    · cases h
  | sent r =>
    simp only [step] at h
    split at h
    · rename_i k tx msg hpc
      have ht {s₁ : State n} (hs : s₁.readers = Function.update s.readers r
          { s.readers r with pc := .selecting }) : SameTable s s₁ :=
        sameTable_of_update hs fun _ => rfl
      split at h
      · rename_i hd
        cases h
        exact .sent hpc rfl rfl (fun _ => rfl) (ht rfl) (fun r' hr => pc_of_update rfl hr) (.inr ⟨rfl, hd⟩)
      · split at h <;> cases h
        exact .sent hpc rfl rfl (rxDropped_of_update rfl rfl) (ht rfl)
          (fun r' hr => pc_of_update rfl hr) (.inl rfl)
    · cases h
  | lost =>
    cases h
    exact .lost rfl rfl rfl (fun _ _ => rfl) (fun _ _ => rfl) (by simp) (by simp)
  | exit r =>
    simp only [step] at h
    split at h
    · split at h <;> cases h
      · exact .exited rfl rfl rfl (sameTable_of_update rfl fun _ => rfl)
          (fun r' hr => pc_of_update rfl hr) (by simp)
      · exact .exited rfl rfl rfl (sameTable_of_update rfl fun _ => rfl)
          (fun r' hr => pc_of_update rfl hr) (by simp [Event.quiet])
    · cases h

end Wire
end Iscp
