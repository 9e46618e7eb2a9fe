import Iscp.Wire.Steps

/-!
# Messages that find their stream

The alias of a downstream is in the read loop's table only after the response has reached the requesting
task through the oneshot and that task's command has been taken from the queue, while the read loop goes
on reading. A message that is read in between is dropped.
-/

namespace Iscp.Wire

variable {n : Nat} {c : Config} {s s' : State n} {log evs : List (Event n)} {a b : UInt32}
  {r r' : Reader} {σ τ : Fin n} {tx : Tx n} {u : Bool}

/-- The alias of the stream changes to this one, or to none. -/
def Event.carries? (σ : Fin n) : Event n → Option (Option UInt32)
  | .answered τ a => if τ = σ then some (some a) else none
  | .closed τ => if τ = σ then some none else none
  | _ => none

/-- The response that carried `a` has been read, and since then neither is the stream closed nor the
connection lost. -/
def OpenAt (log : List (Event n)) (σ : Fin n) (a : UInt32) : Prop :=
  .lost ∉ log ∧ History.last (Event.carries? σ) log = some (some a)

/-- The message read as number `k` is in a channel of the stream, or about to be put there. -/
def Reaches (pre log : List (Event n)) (s : State n) (r : Reader) (k : Nat) (σ : Fin n)
    (msg : ReceivableDownstreamMsg) : Prop :=
  ∃ tx, .registered σ tx ∈ pre ∧
    (.delivered r k tx msg ∈ log ∨ (s.readers r).pc = .sending k tx msg)

/-- Every chunk and metadata that is read for an open stream reaches it. -/
def Delivers (log : List (Event n)) (s : State n) : Prop :=
  History.Each (fun pre e => ∀ r k m, e = .read r k m → ∀ a msg, m.streamMsg? = some (a, msg) →
    ∀ σ, OpenAt pre σ a → Reaches pre log s r k σ msg) log

/-- The stream has registered, and the reader has taken every command about its alias. -/
def Attached (s : State n) (r : Reader) (σ : Fin n) (a : UInt32) : Prop :=
  match s.streams σ with
  | .registered b _ u =>
    b = a ∧ readsFrom u r ∧ ∀ command ∈ (s.readers r).commands, command.downstream? ≠ some a
  | _ => False

instance : Decidable (Attached s r σ a) := by
  unfold Attached; split <;> infer_instance

/-- No reader is about to put a message into the channel. -/
def Unsent (s : State n) (tx : Tx n) : Prop :=
  (s.readers .main).pc.tx? ≠ some tx ∧ (s.readers .unreliable).pc.tx? ≠ some tx

/-- What is read for a stream is read when the stream is attached, no channel is given up while a reader
puts a message into it, and an alias is not asked for while another stream has it. -/
def Ready (s : State n) : Action n → Prop
  | .request _ _ => ∀ τ, (s.streams τ).alias? ≠ some s.streamIdAliasCounter
  | .read r m => s.ct = false → ∀ x ∈ m.streamMsg?, ∀ σ, (s.streams σ).carried? = some x.1 →
      Attached s r σ x.1
  | .leave σ | .close σ => ∀ tx ∈ (s.streams σ).tx?, Unsent s tx
  | .exit r => ∀ tx ∈ (s.readers r).pc.tx?, (s.chans tx).rxDropped
  | _ => True

instance (s : State n) (a : Action n) : Decidable (Ready s a) := by
  unfold Ready Unsent; split <;> infer_instance

/-! ### What holds of the registrations -/

structure Routes (s : State n) : Prop where
  unique : ∀ σ τ a, (s.streams σ).alias? = some a → (s.streams τ).alias? = some a → σ = τ
  own : ∀ σ a tx u, s.streams σ = .registered a tx u → tx.stream = σ
  rxDropped : ∀ σ a tx u, s.streams σ = .registered a tx u → (s.chans tx).rxDropped = false
  table : ∀ σ a tx u, s.streams σ = .registered a tx u → ∀ r, readsFrom u r →
    (s.readers r).table a = some tx

namespace Routes

theorem of (h : Routes s)
    (ha : ∀ σ a, (s'.streams σ).alias? = some a → (s.streams σ).alias? = some a)
    (hreg : ∀ σ a tx u, s'.streams σ = .registered a tx u → s.streams σ = .registered a tx u ∧
      (s'.chans tx).rxDropped = (s.chans tx).rxDropped ∧
      ∀ r, (s'.readers r).table a = (s.readers r).table a) : Routes s' := by
  refine ⟨fun σ τ a hσ hτ => h.unique σ τ a (ha σ a hσ) (ha τ a hτ), fun σ a tx u hσ => ?_,
    fun σ a tx u hσ => ?_, fun σ a tx u hσ r hr => ?_⟩
  · exact h.own σ a tx u (hreg σ a tx u hσ).1
  · obtain ⟨hs, hd, -⟩ := hreg σ a tx u hσ
    rw [hd]
    exact h.rxDropped σ a tx u hs
  · obtain ⟨hs, -, ht⟩ := hreg σ a tx u hσ
    rw [ht]
    exact h.table σ a tx u hs r hr

theorem of_update (h : Routes s) (σ : Fin n) (p : StreamPc n) (hs : s'.streams = Function.update s.streams σ p)
    (htx : p.tx? = none) (ha : ∀ a, p.alias? = some a → (s.streams σ).alias? = some a)
    (hreg : ∀ τ b tx u, τ ≠ σ → s.streams τ = .registered b tx u →
      (s'.chans tx).rxDropped = (s.chans tx).rxDropped ∧
      ∀ r, (s'.readers r).table b = (s.readers r).table b) : Routes s' := by
  refine h.of (fun τ b hb => ?_) fun τ b tx u hτ => ?_
  · rw [hs] at hb
    by_cases he : τ = σ
    · subst he
      rw [Function.update_self] at hb
      exact ha b hb
    · rwa [Function.update_of_ne he] at hb
  · rw [hs] at hτ
    rcases Table.update_cases hτ with ⟨-, hnew⟩ | ⟨he, hold⟩
    · rw [hnew] at htx
      cases htx
    · exact ⟨hold, hreg τ b tx u he hold⟩

theorem dropDownstream (h : Routes s) {pc : StreamPc n} (hσ : s.streams σ = .registered a tx u)
    (htx : pc.tx? = none) (ha : ∀ b, pc.alias? = some b → b = a) :
    Routes ((s.dropDownstream a tx u).setStream σ pc) := by
  refine h.of_update σ pc (by simp [State.dropDownstream]) htx (fun b hb => ?_)
    fun τ b tx' u' hne hτ => ⟨?_, fun r => ?_⟩
  · rw [hσ, ha b hb]
    rfl
  · have htx' : tx' ≠ tx := fun he => hne (by rw [← h.own τ b tx' u' hτ, ← h.own σ a tx u hσ, he])
    simp [State.dropDownstream, State.setChannel, Function.update_of_ne htx']
  · have hb : a ≠ b := fun he => hne (h.unique τ σ a (by rw [hτ, he]; rfl) (by rw [hσ]; rfl))
    exact State.table_pushAll_of_ne (by simpa [ReadLoopCommand.downstream?] using hb)

theorem added {e : Bool} (h : Routes s) (hσ : s.streams σ = .opened a) :
    Routes (({ s with made := s.made + 1 }.setChannel ⟨σ, s.made⟩ {}).pushAll e
      (.addDownstream a ⟨σ, s.made⟩) |>.setStream σ (.registered a ⟨σ, s.made⟩ e)) := by
  -- The other streams have other channels and other aliases.
  have hother {τ b tx u} (hne : τ ≠ σ) (hτ : s.streams τ = .registered b tx u) :
      tx ≠ ⟨σ, s.made⟩ ∧ a ≠ b :=
    ⟨fun he => hne (by rw [← h.own τ b tx u hτ, he]),
      fun he => hne (h.unique τ σ a (by rw [hτ, he]; rfl) (by rw [hσ]; rfl))⟩
  have halias (τ : Fin n) : (Function.update s.streams σ (.registered a ⟨σ, s.made⟩ e) τ).alias? =
      (s.streams τ).alias? := by
    by_cases he : τ = σ
    · subst he
      rw [Function.update_self, hσ]
      rfl
    · rw [Function.update_of_ne he]
  refine ⟨fun τ₁ τ₂ b h₁ h₂ => ?_, fun τ b tx u hτ => ?_, fun τ b tx u hτ => ?_, fun τ b tx u hτ r hr => ?_⟩
  · simp only [State.streams_setStream, State.streams_pushAll, State.streams_setChannel, halias] at h₁ h₂
    exact h.unique τ₁ τ₂ b h₁ h₂
  all_goals
    simp only [State.streams_setStream, State.streams_pushAll, State.streams_setChannel] at hτ
    rcases Table.update_cases hτ with ⟨rfl, hnew⟩ | ⟨he, hold⟩
  · cases hnew
    rfl
  · exact h.own τ b tx u hold
  · cases hnew
    simp [State.setChannel]
  · simp only [State.chans_setStream, State.chans_pushAll, State.setChannel]
    rw [Function.update_of_ne (hother he hold).1]
    exact h.rxDropped τ b tx u hold
  · cases hnew
    exact State.table_pushAll_add hr
  · rw [State.readers_setStream, State.table_pushAll_of_ne]
    · exact h.table τ b tx u hold r hr
    · simpa [ReadLoopCommand.downstream?] using (hother he hold).2

theorem step {act : Action n} (h : Routes s) (hready : Ready s act) (hst : Step c s act s' evs) :
    Routes s' := by
  cases hst with
  | quiet hs hf ht | unknown _ _ hs hf ht =>
    exact h.of (fun σ a ha => by rwa [hs] at ha) fun σ a tx u hσ => ⟨by rwa [hs] at hσ, hf.rxDropped tx, fun r => ht r a⟩
  | @requested σ resume requestId _ hs hidle hf ht =>
    have hold {τ : Fin n} (hne : τ ≠ σ) : s'.streams τ = s.streams τ := by
      rw [hs, Function.update_of_ne hne]
    have hnew : (s'.streams σ).alias? = some s.streamIdAliasCounter := by
      rw [hs, Function.update_self]
      rfl
    have hreg {τ b tx u} (hτ : s'.streams τ = .registered b tx u) : s.streams τ = .registered b tx u := by
      rw [hs] at hτ
      rcases Table.update_cases hτ with ⟨-, hnew⟩ | ⟨-, hold⟩
      · cases hnew
      · exact hold
    refine ⟨fun τ₁ τ₂ b h₁ h₂ => ?_, fun τ b tx u hτ => h.own τ b tx u (hreg hτ), fun τ b tx u hτ => ?_,
      fun τ b tx u hτ r hr => (ht r b).trans (h.table τ b tx u (hreg hτ) r hr)⟩
    · by_cases he₁ : τ₁ = σ <;> by_cases he₂ : τ₂ = σ
      · rw [he₁, he₂]
      · rw [he₁, hnew] at h₁
        rw [hold he₂, ← h₁] at h₂
        exact absurd h₂ (hready τ₂)
      · rw [he₂, hnew] at h₂
        rw [hold he₁, ← h₂] at h₁
        exact absurd h₁ (hready τ₁)
      · rw [hold he₁] at h₁
        rw [hold he₂] at h₂
        exact h.unique τ₁ τ₂ b h₁ h₂
    · rw [hf.rxDropped]
      exact h.rxDropped τ b tx u (hreg hτ)
  | moved _ hpc ha => exact h.of_update _ _ rfl hpc ha fun _ _ _ _ _ _ => ⟨rfl, fun _ => rfl⟩
  | answered _ hs hσ hf ht =>
    exact h.of_update _ _ hs rfl (fun b hb => by rw [hσ]; exact hb) fun τ b tx u _ _ =>
      ⟨hf.rxDropped tx, fun r => ht r b⟩
  | added hσ => exact h.added hσ
  | @addFailed σ _ a _ hσ hs hf ht =>
    refine h.of (fun σ a ha => by rwa [hs] at ha) fun τ b tx u hτ => ?_
    rw [hs] at hτ
    refine ⟨hτ, hf.rxDropped tx, fun r => ht r b fun he => ?_⟩
    obtain rfl := h.unique τ σ b (by rw [hτ]; rfl) (by rw [hσ, he]; rfl)
    rw [hσ] at hτ
    cases hτ
  | left hσ => exact h.dropDownstream hσ rfl fun b hb => (Option.some.inj hb).symm
  | closed hσ => exact h.dropDownstream hσ rfl fun b hb => by cases hb
  | closedEarly => exact h.of_update _ _ rfl rfl (fun b hb => by cases hb) fun _ _ _ _ _ _ => ⟨rfl, fun _ => rfl⟩
  | routed _ _ _ hs _ hc ht =>
    exact h.of (fun σ a ha => by rwa [hs] at ha) fun σ a tx u hσ => ⟨by rwa [hs] at hσ, by rw [hc], fun r => ht r a⟩
  | sent _ hs _ hd ht =>
    exact h.of (fun σ a ha => by rwa [hs] at ha) fun σ a tx u hσ => ⟨by rwa [hs] at hσ, hd tx, fun r => ht r a⟩
  | lost hs _ hc ht | exited hs _ hc ht =>
    exact h.of (fun σ a ha => by rwa [hs] at ha) fun σ a tx u hσ => ⟨by rwa [hs] at hσ, by rw [hc], fun r => ht r a⟩

end Routes

/-! ### What the history says of the streams -/

theorem OpenAt.of_append (h : OpenAt (log ++ evs) σ a) (he : ∀ e ∈ evs, Event.carries? σ e = none) :
    OpenAt log σ a := by
  obtain ⟨hl, ho⟩ := h
  refine ⟨fun hm => hl (List.mem_append_left _ hm), ?_⟩
  rwa [History.last_append, History.last_eq_none he, Option.none_or] at ho

theorem carries?_of_quiet {e : Event n} (h : e.quiet) : e.carries? σ = none := by
  cases e <;> first | rfl | cases h

structure Tracks (log : List (Event n)) (s : State n) : Prop where
  carried : ∀ σ a, OpenAt log σ a → (s.streams σ).carried? = some a
  lost : s.ct → .lost ∈ log
  registered : ∀ σ a tx u, s.streams σ = .registered a tx u → .registered σ tx ∈ log

namespace Tracks

theorem quiet (h : Tracks log s) (hc : ∀ σ, (s'.streams σ).carried? = (s.streams σ).carried?)
    (hct : s'.ct = s.ct)
    (hreg : ∀ σ a tx u, s'.streams σ = .registered a tx u → s.streams σ = .registered a tx u)
    (he : ∀ e ∈ evs, ∀ σ, Event.carries? σ e = none) : Tracks (log ++ evs) s' := by
  refine ⟨fun σ a ho => ?_, fun hl => List.mem_append_left _ (h.lost (by rwa [hct] at hl)),
    fun σ a tx u hσ => List.mem_append_left _ (h.registered σ a tx u (hreg σ a tx u hσ))⟩
  rw [hc]
  exact h.carried σ a (ho.of_append fun e hm => he e hm σ)

theorem of_update (h : Tracks log s) (σ : Fin n) (p : StreamPc n) (hs : s'.streams = Function.update s.streams σ p)
    (hct : s'.ct = s.ct) (hσ : ∀ a, OpenAt (log ++ evs) σ a → p.carried? = some a)
    (hpc : ∀ a tx u, p = .registered a tx u → .registered σ tx ∈ evs)
    (he : ∀ e ∈ evs, ∀ τ, τ ≠ σ → Event.carries? τ e = none) : Tracks (log ++ evs) s' := by
  refine ⟨fun τ a ho => ?_, fun hl => List.mem_append_left _ (h.lost (by rwa [hct] at hl)),
    fun τ a tx u hτ => ?_⟩
  · rw [hs]
    by_cases hne : τ = σ
    · subst hne
      rw [Function.update_self]
      exact hσ a ho
    · rw [Function.update_of_ne hne]
      exact h.carried τ a (ho.of_append fun e hm => he e hm τ hne)
  · rw [hs] at hτ
    rcases Table.update_cases hτ with ⟨rfl, hnew⟩ | ⟨-, hold⟩
    · exact List.mem_append_right _ (hpc a tx u hnew)
    · exact List.mem_append_left _ (h.registered τ a tx u hold)

theorem step {act : Action n} (h : Tracks log s) (hst : Step c s act s' evs) : Tracks (log ++ evs) s' := by
  cases hst with
  | quiet hs hf _ he =>
    exact h.quiet (by simp [hs]) hf.ct (by simp [hs]) fun e hm σ => carries?_of_quiet (he e hm)
  | @requested σ _ _ _ hs hidle hf =>
    refine h.of_update _ _ hs hf.ct (fun a ho => ?_) (by simp) (by simp)
    have := h.carried σ a (by simpa using ho)
    rw [hidle] at this
    cases this
  | @moved _ σ pc _ hpc _ hc =>
    refine h.of_update σ pc rfl rfl (fun a ho => ?_) (fun a tx u he => ?_) (by simp)
    · rw [hc]
      exact h.carried σ a (by simpa using ho)
    · rw [he] at hpc
      cases hpc
  | @answered r k m σ resume a id _ hm hs hσ hf =>
    refine h.of_update _ _ hs hf.ct (fun b ho => ?_) (by simp) fun e he τ hτ => ?_
    · cases hacc : accepts resume m with
      | true =>
        obtain ⟨-, hl⟩ := ho
        have hb : a = b := by
          simpa [hacc, History.last_append, History.last_cons, Event.carries?] using hl
        simp [StreamPc.carried?, hacc, hb]
      | false =>
        have := h.carried σ b (ho.of_append (by simp [hacc, Event.carries?]))
        rw [hσ] at this
        cases this
    · rcases List.mem_cons.1 he with rfl | he
      · rfl
      · split at he
        · rw [List.mem_singleton.1 he]
          exact if_neg fun hσ => hτ hσ.symm
        · cases he
  | @added σ u a hσ =>
    refine h.of_update σ (.registered a ⟨σ, s.made⟩ (u && c.unreliable)) (by simp) (by simp)
      (fun b ho => ?_) (by simp) (by simp [Event.carries?])
    have := h.carried σ b (ho.of_append (by simp [Event.carries?]))
    rw [hσ] at this
    exact this
  | addFailed _ hs hf => exact h.quiet (by simp [hs]) hf.ct (by simp [hs]) (by simp)
  | @left σ a tx u hσ =>
    refine h.of_update σ (.opened a) (by simp [State.dropDownstream])
      (by simp [State.dropDownstream]) (fun b ho => ?_) (by simp) (by simp)
    have := h.carried σ b (by simpa using ho)
    rw [hσ] at this
    exact this
  | @closed σ _ _ _ _ | @closedEarly σ _ =>
    refine h.of_update σ .closed (by simp [State.dropDownstream])
      (by simp [State.dropDownstream]) (fun b ho => ?_) (by simp) fun e he τ hτ => ?_
    · obtain ⟨-, hl⟩ := ho
      simp [Event.carries?] at hl
    · rw [List.mem_singleton.1 he]
      exact if_neg fun hσ => hτ hσ.symm
  | routed _ _ _ hs hct | unknown _ _ hs hf =>
    exact h.quiet (by simp [hs]) (by first | exact hct | exact hf.ct) (by simp [hs]) (by simp [Event.carries?])
  | sent _ hs hct _ _ _ he =>
    refine h.quiet (by simp [hs]) hct (by simp [hs]) fun e hm σ => ?_
    rcases he with rfl | ⟨rfl, -⟩ <;> rw [List.mem_singleton.1 hm] <;> rfl
  | lost hs _ _ _ _ he hl =>
    refine ⟨fun σ a ho => absurd (List.mem_append_right _ hl) ho.1, fun _ => List.mem_append_right _ hl,
      fun σ a tx u hσ => List.mem_append_left _ (h.registered σ a tx u (by rwa [hs] at hσ))⟩
  | exited hs hct _ _ _ he =>
    exact h.quiet (by simp [hs]) hct (by simp [hs]) fun e hm σ => carries?_of_quiet (he e hm)

end Tracks

/-! ### Every message reaches its stream -/

/-- `Reaches`, with a channel whose receiver is there as long as the message is not in it. -/
def ReachesAlive (pre log : List (Event n)) (s : State n) (r : Reader) (k : Nat) (σ : Fin n)
    (msg : ReceivableDownstreamMsg) : Prop :=
  ∃ tx, .registered σ tx ∈ pre ∧
    (.delivered r k tx msg ∈ log ∨
      (s.readers r).pc = .sending k tx msg ∧ (s.chans tx).rxDropped = false)

def Delivering (log : List (Event n)) (s : State n) : Prop :=
  History.Each (fun pre e => ∀ r k m, e = .read r k m → ∀ a msg, m.streamMsg? = some (a, msg) →
    ∀ σ, OpenAt pre σ a → ReachesAlive pre log s r k σ msg) log

theorem Delivering.delivers (h : Delivering log s) : Delivers log s := by
  intro pre e post hl r k m he a msg hm σ ho
  obtain ⟨tx, hreg, hd⟩ := h pre e post hl r k m he a msg hm σ ho
  exact ⟨tx, hreg, hd.imp_right And.left⟩

namespace Delivering

theorem of (h : Delivering log s)
    (hkeep : ∀ r k tx msg, (s.readers r).pc = .sending k tx msg → (s.chans tx).rxDropped = false →
      .delivered r k tx msg ∈ evs ∨
        (s'.readers r).pc = .sending k tx msg ∧ (s'.chans tx).rxDropped = false)
    (hnew : History.Each (fun pre e => ∀ r k m, e = .read r k m → ∀ a msg, m.streamMsg? = some (a, msg) →
      ∀ σ, OpenAt (log ++ pre) σ a → ReachesAlive (log ++ pre) (log ++ evs) s' r k σ msg) evs) :
    Delivering (log ++ evs) s' := by
  refine History.each_append.2 ⟨fun pre e post hl r k m he a msg hm σ ho => ?_, hnew⟩
  obtain ⟨tx, hreg, hd | ⟨hpc, hrx⟩⟩ := h pre e post hl r k m he a msg hm σ ho
  · exact ⟨tx, hreg, .inl (List.mem_append_left _ hd)⟩
  · exact ⟨tx, hreg, (hkeep r k tx msg hpc hrx).imp_left (List.mem_append_right _)⟩

theorem of_unread (he : ∀ e ∈ evs, ∀ r k m, e = .read r k m → m.streamMsg? = none) :
    History.Each (fun pre e => ∀ r k m, e = .read r k m → ∀ a msg, m.streamMsg? = some (a, msg) →
      ∀ σ, OpenAt (log ++ pre) σ a → ReachesAlive (log ++ pre) (log ++ evs) s' r k σ msg) evs := by
  intro pre e post hl r k m hr a msg hm
  rw [he e (by simp [hl]) r k m hr] at hm
  cases hm

theorem route {m : Message.MessageEnum} {msg : ReceivableDownstreamMsg} (ht : Tracks log s) (hr : Routes s)
    (hready : Ready s (.read r m)) (hm : m.streamMsg? = some (a, msg)) (ho : OpenAt log σ a) :
    ∃ tx, .registered σ tx ∈ log ∧ (s.chans tx).rxDropped = false ∧
      (s.readers r).channels.txDownstreamMsg[a]? = some tx := by
  have hct : s.ct = false := Bool.eq_false_iff.2 fun hc => ho.1 (ht.lost hc)
  have hatt := hready hct _ hm σ (ht.carried σ a ho)
  unfold Attached at hatt
  split at hatt
  · rename_i b tx u hσ
    obtain ⟨rfl, hu, hno⟩ := hatt
    refine ⟨tx, ht.registered σ b tx u hσ, hr.rxDropped σ b tx u hσ, ?_⟩
    rw [← ReadLoop.table_of_forall hno]
    exact hr.table σ b tx u hσ r hu
  · exact hatt.elim

theorem keep_of_unsent {r : Reader} {k : Nat} {tx' : Tx n} {msg : ReceivableDownstreamMsg} (h : Unsent s tx)
    (hpc : (s.readers r).pc = .sending k tx' msg) : tx' ≠ tx := by
  rintro rfl
  obtain ⟨hmain, hunreliable⟩ := h
  cases r with
  | main => exact hmain (by rw [hpc]; rfl)
  | unreliable => exact hunreliable (by rw [hpc]; rfl)

theorem dropDownstream {p : StreamPc n} (h : Delivering log s) (hu : Unsent s tx)
    (he : ∀ e ∈ evs, ∀ r k m, e = .read r k m → m.streamMsg? = none) :
    Delivering (log ++ evs) ((s.dropDownstream a tx u).setStream σ p) := by
  refine h.of (fun r k tx' msg hpc hrx => .inr ⟨by simpa [State.dropDownstream] using hpc, ?_⟩) (of_unread he)
  simp only [State.dropDownstream, State.chans_setStream, State.chans_pushAll, State.setChannel]
  rw [Function.update_of_ne (keep_of_unsent hu hpc)]
  exact hrx

theorem step {act : Action n} (h : Delivering log s) (ht : Tracks log s) (hr : Routes s)
    (hready : Ready s act) (hst : Step c s act s' evs) : Delivering (log ++ evs) s' := by
  have hframe (hf : Frame s s') r k tx msg (hpc : (s.readers r).pc = .sending k tx msg)
      (hrx : (s.chans tx).rxDropped = false) : .delivered r k tx msg ∈ evs ∨
        (s'.readers r).pc = .sending k tx msg ∧ (s'.chans tx).rxDropped = false :=
    .inr ⟨by rw [hf.pc, hpc], by rw [hf.rxDropped, hrx]⟩
  cases hst with
  | quiet _ hf _ he =>
    refine h.of (hframe hf) (of_unread fun e hm r k m hr => ?_)
    have := he e hm
    rwa [hr] at this
  | requested _ _ hf => exact h.of (hframe hf) (of_unread (by simp))
  | moved => exact h.of (hframe ⟨rfl, fun _ => rfl, fun _ => rfl⟩) (of_unread (by simp))
  | @answered r k m _ resume _ _ _ hm _ _ hf =>
    refine h.of (hframe hf) (of_unread fun e he r k m' hr => ?_)
    rcases List.mem_cons.1 he with rfl | he
    · cases hr
      exact hm
    · split at he <;> simp [hr] at he
  | @added σ u a hσ =>
    refine h.of (fun r k tx msg hpc hrx => .inr ⟨by simpa using hpc, ?_⟩) (of_unread (by simp))
    simp only [State.chans_setStream, State.chans_pushAll, State.setChannel]
    by_cases he : tx = ⟨σ, s.made⟩
    · rw [he, Function.update_self]
    · rw [Function.update_of_ne he]
      exact hrx
  | addFailed _ _ hf => exact h.of (hframe hf) (of_unread (by simp))
  | left hσ => exact h.dropDownstream (hready _ (by rw [hσ]; rfl)) (by simp)
  | closed hσ => exact h.dropDownstream (hready _ (by rw [hσ]; rfl)) (by simp)
  | closedEarly => exact h.of (hframe ⟨rfl, fun _ => rfl, fun _ => rfl⟩) (of_unread (by simp))
  | @routed r m a msg tx _ hsel hm hl _ _ hc _ hpc hpc' =>
    refine h.of (fun r' k tx' msg' hp hrx => .inr ⟨?_, by rw [hc]; exact hrx⟩)
      (History.each_singleton.2 fun r' k m' he b msg' hm' σ ho => ?_)
    · rw [hpc' r' fun he => by rw [he, hsel] at hp; cases hp]
      exact hp
    · cases he
      obtain ⟨rfl, rfl⟩ : b = a ∧ msg' = msg := by
        simpa [Message.MessageEnum.downstreamMsg?_of_streamMsg? hm'] using hm
      obtain ⟨tx', hreg, hrx, hl'⟩ := route ht hr hready hm' (by simpa using ho)
      obtain rfl : tx' = tx := by simpa [hl'] using hl
      exact ⟨tx', List.mem_append_left _ hreg, .inr ⟨hpc, by rw [hc]; exact hrx⟩⟩
  | @unknown r k m a msg _ hm hl _ hf =>
    refine h.of (hframe hf) fun pre e post hevs r' k' m' he b msg' hm' σ ho => ?_
    subst he
    rcases pre with - | ⟨e', pre⟩
    · cases hevs
      obtain ⟨rfl, rfl⟩ : b = a ∧ msg' = msg := by
        simpa [Message.MessageEnum.downstreamMsg?_of_streamMsg? hm'] using hm
      obtain ⟨tx', -, -, hl'⟩ := route ht hr hready hm' (by simpa using ho)
      rw [hl] at hl'
      cases hl'
    · have : Event.read r' k' m' ∈ ([.dropped r k] : List (Event n)) := by
        obtain ⟨-, hevs⟩ := List.cons.inj hevs
        rw [hevs]
        simp
      cases List.mem_singleton.1 this
  | @sent r k tx msg _ _ hpc _ _ hd _ hpc' he =>
    refine h.of (fun r' k' tx' msg' hp hrx => ?_) (of_unread fun e hm r' k' m' hr' => ?_)
    · by_cases hr' : r' = r
      · subst hr'
        rw [hpc] at hp
        cases hp
        rcases he with rfl | ⟨-, hgone⟩
        · exact .inl (List.mem_singleton_self _)
        · rw [hrx] at hgone
          cases hgone
      · exact .inr ⟨by rw [hpc' r' hr']; exact hp, by rw [hd]; exact hrx⟩
    · subst hr'
      rcases he with rfl | ⟨rfl, -⟩ <;> cases List.mem_singleton.1 hm
  | lost _ _ hc _ hpc he =>
    refine h.of (fun r k tx msg hp hrx => .inr ⟨?_, by rw [hc]; exact hrx⟩) (of_unread fun e hm r k m hr' => ?_)
    · rw [hpc r (by rw [hp]; simp)]
      exact hp
    · subst hr'
      exact (he _ hm).resolve_right (by simp)
  | @exited r _ _ _ _ hc _ hpc he =>
    refine h.of (fun r' k tx msg hp hrx => .inr ⟨?_, by rw [hc]; exact hrx⟩) (of_unread fun e hm r' k m hr' => ?_)
    · refine (hpc r' fun hr' => ?_).trans hp
      -- The reader's send would be cut off.
      subst hr'
      have := hready tx (by rw [hp]; rfl)
      rw [hrx] at this
      cases this
    · subst hr'
      exact he _ hm

end Delivering

/-- In every run in which what is read for a stream is read when it is attached, every chunk and metadata
that is read after the response and before the end of the stream or the connection reaches the stream. -/
theorem messages_delivered (c : Config) (h : (machine n c).Exec (fun _ s a => Ready s a) log s) :
    Delivers log s := by
  have hinv : Delivering log s ∧ Tracks log s ∧ Routes s := by
    refine Machine.Exec.invariant (I := fun log s => Delivering log s ∧ Tracks log s ∧ Routes s) ?_
      (fun log s act s' evs _ hi hready ha => ?_) h
    · refine ⟨.nil, ⟨fun σ a ho => ?_, by simp [machine], by simp [machine]⟩, ?_, ?_, ?_, ?_⟩
      · have := ho.2
        simp [machine] at this
      all_goals simp [machine, StreamPc.alias?]
    · obtain ⟨hd, ht, hr⟩ := hi
      have hst := step_step ha
      exact ⟨hd.step ht hr hready hst, ht.step hst, hr.step hready hst⟩
  exact hinv.1.delivers

/-- The response to the open request with id 0. -/
def openResponse : Message.MessageEnum :=
  .response ⟨0, 0, "", .downstreamOpen (List.replicate 16 0) 0 "a"⟩

/-- A chunk for the first alias. -/
def firstChunk : Message.MessageEnum := .downstreamChunk ⟨1, none, none⟩

/-- An unreliable stream is opened and registered with both readers, which each read a message for it. -/
theorem messages_delivered_attached :
    ∃ log s, (machine 2 ⟨1, true⟩).Exec (fun _ s a => Ready s a) log s ∧
      log.length = 6 ∧ Delivers log s := by
  obtain ⟨log, s, h, hlen⟩ := Machine.Exec.exists_of_any (M := machine 2 ⟨1, true⟩)
    (C := fun _ s a => Ready s a)
    [.request 0 false, .read .main openResponse, .responded 0, .add 0 true, .process .main,
      .process .unreliable, .read .unreliable firstChunk, .sent .unreliable, .recv 0,
      .read .main (.downstreamMetadata ⟨2, 1, "", none⟩)]
    (P := fun log s => log.length = 6 ∧ (s.readers .main).pc.tx? = some ⟨0, 0⟩) (by decide +kernel)
  exact ⟨log, s, h, hlen.1, messages_delivered _ h⟩

/-- The read loop reads a chunk right after the response, before the requesting task has run. -/
theorem messages_delivered_unregistered :
    ∃ log s, (machine 1 ⟨1024, false⟩).Run log s ∧ ¬ Delivers log s := by
  obtain ⟨log, s, h, hlog⟩ := Machine.Exec.exists_of_any (M := machine 1 ⟨1024, false⟩)
    (C := fun _ _ _ => True)
    [.request 0 false, .read .main openResponse, .read .main firstChunk]
    (P := fun log _ => log = [Event.read .main 0 openResponse, .answered 0 1] ++
      Event.read .main 1 firstChunk :: [.dropped .main 1]) (by decide +kernel)
  refine ⟨log, s, h, fun hd => ?_⟩
  obtain ⟨tx, hreg, -⟩ := hd _ _ _ hlog .main 1 firstChunk rfl 1 _ rfl 0 ⟨by decide, by decide +kernel⟩
  simp at hreg

end Iscp.Wire
