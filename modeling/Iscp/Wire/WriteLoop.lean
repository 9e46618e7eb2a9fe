import Iscp.Lib.Channel
import Iscp.Lib.Machine
import Iscp.Message

/-!
# The write loop

`write_loop`, with the tasks that send messages into its queue. Each message is encoded, compressed and written
before the next one is taken; one that cannot be encoded is passed over, and a failure of the compressor or of
the transport ends the loop at once. When the token is cancelled the loop takes what is in the queue to the
last message. The loop holds a sender of its own queue, which therefore is never closed from that side.
-/

namespace Iscp.Wire.WriteLoop

variable {M κ ε : Type}

/-- What the loop is started with. Where `compress` gives `none`, it does not come to an end. -/
structure Config (M κ ε : Type) where
  encode : M → Except String Bytes
  compress : κ → Bytes → Option (κ × Except ε Bytes)
  compressor : κ
  channelSize : Nat

inductive Pc
  /-- In the `select!`. -/
  | selecting
  /-- Before the next `try_recv`. -/
  | draining
  /-- In `writer.write`, from the first loop or from the second one. -/
  | writing (drain : Bool) (packet : Bytes)
  | compressing
  /-- `write_loop` has returned; its `_ct_guard` is dropped next, and then `rx_write_message`. -/
  | returned
  | guardDropped
  | ended
deriving DecidableEq

/-- Back to the head of one of the two loops. -/
def Pc.head (drain : Bool) : Pc := if drain then draining else selecting

structure State (M κ : Type) where
  pc : Pc := .selecting
  compressor : κ
  queue : Mpsc M := {}
  ct : Bool := false

inductive Action (M : Type)
  /-- A task sends a message. -/
  | send (msg : M)
  | recv
  | cancelled
  | tryRecv
  | written (ok : Bool)
  | dropGuard
  | dropRx
  /-- Another task cancels the token. -/
  | cancel

/-- The loop by itself: `writer.write` does not return. -/
def Action.alone : Action M → Bool
  | written _ => false
  | _ => true

inductive Event (M : Type)
  | accepted (msg : M)
  | refused (msg : M)
  | taken (msg : M)
  /-- `writer.write` is called. -/
  | handed (msg : M) (packet : Bytes)
  | written (packet : Bytes)
  /-- After the last `try_recv`, or with an error. -/
  | returned (drained : Bool)
deriving DecidableEq

/-- The loop's body for a message. -/
def State.take (c : Config M κ ε) (s : State M κ) (drain : Bool) (msg : M) : State M κ × List (Event M) :=
  match c.encode msg with
  | .error _ => ({ s with pc := .head drain }, [.taken msg])
  | .ok buf =>
    match c.compress s.compressor buf with
    | none => ({ s with pc := .compressing }, [.taken msg])
    | some (compressor, .error _) =>
      ({ s with pc := .returned, compressor := compressor }, [.taken msg, .returned false])
    | some (compressor, .ok packet) =>
      ({ s with pc := .writing drain packet, compressor := compressor }, [.taken msg, .handed msg packet])

def step (c : Config M κ ε) (s : State M κ) : Action M → Option (State M κ × List (Event M))
  | .send msg =>
    match s.queue.send c.channelSize msg with
    | some (true, queue) => some ({ s with queue := queue }, [.accepted msg])
    | some (false, _) => some (s, [.refused msg])
    | none => none
  | .recv =>
    match s.pc, s.queue.recv with
    | .selecting, some (msg, queue) => some ({ s with queue := queue }.take c false msg)
    | _, _ => none
  | .cancelled =>
    match s.pc with
    | .selecting => if s.ct then some ({ s with pc := .draining }, []) else none
    | _ => none
  | .tryRecv =>
    match s.pc, s.queue.recv with
    | .draining, some (msg, queue) => some ({ s with queue := queue }.take c true msg)
    | .draining, none => some ({ s with pc := .returned }, [.returned true])
    | _, _ => none
  | .written ok =>
    match s.pc with
    | .writing drain packet =>
      if ok then some ({ s with pc := .head drain }, [.written packet])
      else some ({ s with pc := .returned }, [.returned false])
    | _ => none
  | .dropGuard =>
    match s.pc with
    | .returned => some ({ s with pc := .guardDropped, ct := true }, [])
    | _ => none
  | .dropRx =>
    match s.pc with
    | .guardDropped => some ({ s with pc := .ended, queue := s.queue.dropRx }, [])
    | _ => none
  | .cancel => some ({ s with ct := true }, [])

def machine (c : Config M κ ε) : Machine (State M κ) (Action M) (Event M) where
  init := { compressor := c.compressor }
  log₀ := []
  step := step c

/-! ### What a step does -/

namespace Event

@[simp] def accepted? : Event M → Option M
  | accepted msg => some msg
  | _ => none

@[simp] def taken? : Event M → Option M
  | taken msg => some msg
  | _ => none

@[simp] def handed? : Event M → Option (M × Bytes)
  | handed msg packet => some (msg, packet)
  | _ => none

@[simp] def written? : Event M → Option Bytes
  | written packet => some packet
  | _ => none

end Event

/-- What becomes of a message that is taken from the queue. -/
inductive Takes (c : Config M κ ε) (s : State M κ) (drain : Bool) (msg : M) :
    State M κ → List (Event M) → Prop
  | skipped {e : String} : c.encode msg = .error e → Takes c s drain msg { s with pc := .head drain } [.taken msg]
  | stuck {buf : Bytes} : c.compress s.compressor buf = none → Takes c s drain msg { s with pc := .compressing } [.taken msg]
  | failed {buf : Bytes} {compressor : κ} {e : ε} : c.compress s.compressor buf = some (compressor, .error e) →
      Takes c s drain msg { s with pc := .returned, compressor := compressor } [.taken msg, .returned false]
  | handed {buf packet : Bytes} {compressor : κ} : c.encode msg = .ok buf →
      c.compress s.compressor buf = some (compressor, .ok packet) →
      Takes c s drain msg { s with pc := .writing drain packet, compressor := compressor }
        [.taken msg, .handed msg packet]

theorem take_takes (c : Config M κ ε) (s : State M κ) (drain : Bool) (msg : M) :
    Takes c s drain msg (s.take c drain msg).1 (s.take c drain msg).2 := by
  unfold State.take
  split
  · rename_i he
    exact .skipped he
  · rename_i buf he
    split
    · rename_i hc
      exact .stuck hc
    · rename_i hc
      exact .failed hc
    · rename_i hc
      exact .handed he hc

inductive Step (c : Config M κ ε) (s : State M κ) : Action M → State M κ → List (Event M) → Prop
  | accepted {msg : M} {queue : Mpsc M} : s.queue.send c.channelSize msg = some (true, queue) →
      Step c s (.send msg) { s with queue := queue } [.accepted msg]
  | refused {msg : M} {queue : Mpsc M} : s.queue.send c.channelSize msg = some (false, queue) →
      Step c s (.send msg) s [.refused msg]
  | take {act : Action M} {msg : M} {queue : Mpsc M} {s' : State M κ} {evs : List (Event M)} (drain : Bool) :
      act = (if drain then .tryRecv else .recv) → s.pc = .head drain → s.queue.recv = some (msg, queue) →
      Takes c { s with queue := queue } drain msg s' evs → Step c s act s' evs
  | cancelled : s.pc = .selecting → s.ct → Step c s .cancelled { s with pc := .draining } []
  | drained : s.pc = .draining → s.queue.recv = none → Step c s .tryRecv { s with pc := .returned } [.returned true]
  | written {drain : Bool} {packet : Bytes} : s.pc = .writing drain packet →
      Step c s (.written true) { s with pc := .head drain } [.written packet]
  | failed {drain : Bool} {packet : Bytes} : s.pc = .writing drain packet →
      Step c s (.written false) { s with pc := .returned } [.returned false]
  | guardDropped : s.pc = .returned → Step c s .dropGuard { s with pc := .guardDropped, ct := true } []
  | ended : s.pc = .guardDropped → Step c s .dropRx { s with pc := .ended, queue := s.queue.dropRx } []
  | cancel : Step c s .cancel { s with ct := true } []

variable {c : Config M κ ε} {s s' : State M κ} {act : Action M} {log evs : List (Event M)} {msg : M}

theorem step_step (h : step c s act = some (s', evs)) : Step c s act s' evs := by
  cases act with
  | send msg =>
    simp only [step] at h
    split at h
    · rename_i hs
      cases h
      exact .accepted hs
    · rename_i hs
      cases h
      exact .refused hs
    · cases h
  | recv =>
    simp only [step] at h
    split at h
    · rename_i msg queue hp hr
      obtain ⟨rfl, rfl⟩ := Prod.mk.inj (Option.some.inj h)
      exact .take false rfl hp hr (take_takes ..)
    · cases h
  | tryRecv =>
    simp only [step] at h
    split at h
    · rename_i msg queue hp hr
      obtain ⟨rfl, rfl⟩ := Prod.mk.inj (Option.some.inj h)
      exact .take true rfl hp hr (take_takes ..)
    · rename_i hp hr
      cases h
      exact .drained hp hr
    · cases h
  | cancelled =>
    simp only [step] at h
    split at h
    · rename_i hp
      split at h
      · rename_i hct
        cases h
        exact .cancelled hp hct
      · cases h
    · cases h
  | written ok =>
    simp only [step] at h
    split at h
    · rename_i hp
      cases ok with
      | true =>
        cases h
        exact .written hp
      | false =>
        cases h
        exact .failed hp
    · cases h
  | dropGuard =>
    simp only [step] at h
    split at h
    · rename_i hp
      cases h
      exact .guardDropped hp
    · cases h
  | dropRx =>
    simp only [step] at h
    split at h
    · rename_i hp
      cases h
      exact .ended hp
    · cases h
  | cancel =>
    cases h
    exact .cancel

/-! ### The messages and their packets -/

/-- The messages that were taken into the queue. -/
def accepted (log : List (Event M)) : List M := log.filterMap Event.accepted?

def taken (log : List (Event M)) : List M := log.filterMap Event.taken?

/-- The messages for which the transport was called, with their packets. -/
def handed (log : List (Event M)) : List (M × Bytes) := log.filterMap Event.handed?

def written (log : List (Event M)) : List Bytes := log.filterMap Event.written?

def Config.encodes (c : Config M κ ε) (msg : M) : Bool := (c.encode msg).isOk

/-- The packets are those that one compressor after the other makes of the messages. -/
inductive Compresses (c : Config M κ ε) : List (M × Bytes) → κ → Prop
  | nil : Compresses c [] c.compressor
  | snoc {pairs : List (M × Bytes)} {msg : M} {buf packet : Bytes} {compressor compressor' : κ} : Compresses c pairs compressor →
      c.encode msg = .ok buf → c.compress compressor buf = some (compressor', .ok packet) →
      Compresses c (pairs ++ [(msg, packet)]) compressor'

namespace Compresses

variable {pairs pairs' : List (M × Bytes)} {compressor compressor' : κ} {packet : Bytes}

theorem snoc_inv (h : Compresses c (pairs ++ [(msg, packet)]) compressor') : ∃ compressor buf, Compresses c pairs compressor ∧
    c.encode msg = .ok buf ∧ c.compress compressor buf = some (compressor', .ok packet) := by
  generalize heq : pairs ++ [(msg, packet)] = all at h
  cases h with
  | nil => simp at heq
  | snoc h he hc =>
    obtain ⟨rfl, hlast⟩ := List.append_inj' heq rfl
    cases hlast
    exact ⟨_, _, h, he, hc⟩

theorem of_prefix (h : Compresses c pairs compressor) (hp : pairs' <+: pairs) :
    ∃ compressor', Compresses c pairs' compressor' := by
  induction h with
  | nil =>
    obtain rfl := List.prefix_nil.1 hp
    exact ⟨_, .nil⟩
  | snoc h he hc ih =>
    rcases List.prefix_concat_iff.1 hp with rfl | hp
    · exact ⟨_, h.snoc he hc⟩
    · exact ih hp

theorem unique (h : Compresses c pairs compressor) (h' : Compresses c pairs compressor') : compressor = compressor' := by
  induction h generalizing compressor' with
  | nil =>
    generalize heq : ([] : List (M × Bytes)) = pairs at h'
    cases h' with
    | nil => rfl
    | snoc => simp at heq
  | snoc h he hc ih =>
    obtain ⟨_, _, h', he', hc'⟩ := h'.snoc_inv
    obtain rfl := ih h'
    rw [he] at he'
    cases he'
    rw [hc] at hc'
    cases hc'
    rfl

end Compresses

/-- The transport is called for the messages that can be encoded, in the order in which they were accepted. -/
structure InOrder (c : Config M κ ε) (log : List (Event M)) : Prop where
  handed : (handed log).map Prod.fst <+: (accepted log).filter c.encodes
  packets : ∃ compressor, Compresses c (WriteLoop.handed log) compressor
  written : written log <+: (WriteLoop.handed log).map Prod.snd

/-- All of the accepted messages that can be encoded are written. -/
structure Flushed (c : Config M κ ε) (log : List (Event M)) : Prop where
  handed : (handed log).map Prod.fst = (accepted log).filter c.encodes
  packets : ∃ compressor, Compresses c (WriteLoop.handed log) compressor
  written : written log = (WriteLoop.handed log).map Prod.snd

/-- Where the loop is at work, and the message at hand is not left behind. -/
def Pc.runs : Pc → Bool
  | selecting | draining | writing .. => true
  | _ => false

/-- The packet that `writer.write` is called with. -/
def Pc.packets : Pc → List Bytes
  | writing _ packet => [packet]
  | _ => []

structure Inv (c : Config M κ ε) (log : List (Event M)) (s : State M κ) : Prop where
  carries : Mpsc.Carries (accepted log) (taken log) s.queue
  opened : s.pc ≠ .ended → s.queue.rxDropped = false
  handed : (handed log).map Prod.fst <+: (taken log).filter c.encodes
  written : written log <+: (WriteLoop.handed log).map Prod.snd
  packets : ∃ compressor, Compresses c (WriteLoop.handed log) compressor
  runs : s.pc.runs → (WriteLoop.handed log).map Prod.fst = (taken log).filter c.encodes ∧
    (WriteLoop.handed log).map Prod.snd = WriteLoop.written log ++ s.pc.packets ∧
    Compresses c (WriteLoop.handed log) s.compressor
  drained : History.Each (fun pre e => e = .returned true → Flushed c pre) log

@[simp] theorem accepted_concat (log : List (Event M)) (e : Event M) :
    accepted (log ++ [e]) = accepted log ++ e.accepted?.toList := History.filterMap_concat ..

@[simp] theorem taken_concat (log : List (Event M)) (e : Event M) :
    taken (log ++ [e]) = taken log ++ e.taken?.toList := History.filterMap_concat ..

@[simp] theorem handed_concat (log : List (Event M)) (e : Event M) :
    handed (log ++ [e]) = handed log ++ e.handed?.toList := History.filterMap_concat ..

@[simp] theorem written_concat (log : List (Event M)) (e : Event M) :
    written (log ++ [e]) = written log ++ e.written?.toList := History.filterMap_concat ..

theorem Pc.runs_head (drain : Bool) : (Pc.head drain).runs = true ∧ (Pc.head drain).packets = [] := by
  cases drain <;> exact ⟨rfl, rfl⟩

namespace Inv

theorem init (c : Config M κ ε) : Inv c [] { compressor := c.compressor } :=
  ⟨.init, fun _ => rfl, List.prefix_rfl, List.prefix_rfl, ⟨_, .nil⟩, fun _ => ⟨rfl, rfl, .nil⟩, .nil⟩

/-- The messages are where they were. -/
theorem move (h : Inv c log s) (hq : s'.queue = s.queue) (hp : s.pc = .ended → s'.pc = .ended)
    (hruns : s'.pc.runs → s.pc.runs ∧ s'.pc.packets = s.pc.packets ∧ s'.compressor = s.compressor) :
    Inv c log s' := by
  refine ⟨hq ▸ h.carries, fun he => ?_, h.handed, h.written, h.packets, fun hrun => ?_, h.drained⟩
  · rw [hq]
    exact h.opened fun heq => he (hp heq)
  · obtain ⟨hrun, hpackets, hcomp⟩ := hruns hrun
    rw [hpackets, hcomp]
    exact h.runs hrun

/-- Nothing happens to a message. -/
theorem note (h : Inv c log s) {e : Event M} (ha : e.accepted? = none) (ht : e.taken? = none)
    (hh : e.handed? = none) (hw : e.written? = none) (hr : e = .returned true → Flushed c log) :
    Inv c (log ++ [e]) s := by
  have hacc : accepted (log ++ [e]) = accepted log := by
    rw [accepted_concat, ha, Option.toList_none, List.append_nil]
  have htaken : taken (log ++ [e]) = taken log := by
    rw [taken_concat, ht, Option.toList_none, List.append_nil]
  have hhanded : WriteLoop.handed (log ++ [e]) = WriteLoop.handed log := by
    rw [handed_concat, hh, Option.toList_none, List.append_nil]
  have hwritten : WriteLoop.written (log ++ [e]) = WriteLoop.written log := by
    rw [written_concat, hw, Option.toList_none, List.append_nil]
  refine ⟨?_, h.opened, ?_, ?_, ?_, ?_, History.each_append_singleton.2 ⟨h.drained, hr⟩⟩
  · rw [hacc, htaken]
    exact h.carries
  · rw [hhanded, htaken]
    exact h.handed
  · rw [hhanded, hwritten]
    exact h.written
  · rw [hhanded]
    exact h.packets
  · rw [hhanded, hwritten, htaken]
    exact h.runs

theorem accept {queue : Mpsc M} (h : Inv c log s) (hs : s.queue.send c.channelSize msg = some (true, queue)) :
    Inv c (log ++ [.accepted msg]) { s with queue := queue } := by
  have hopen : queue.rxDropped = false := by
    rcases Mpsc.send_cases hs with ⟨hf, -⟩ | ⟨-, -, -, rfl⟩
    · cases hf
    · rfl
  refine ⟨?_, fun _ => hopen, ?_, ?_, ?_, ?_, h.drained.append_of_forall (by simp)⟩
  · simpa using h.carries.send hs
  · simpa using h.handed
  · simpa using h.written
  · simpa using h.packets
  · simpa using h.runs

/-- The message at the head of the queue is taken, and the transport is not called for it. -/
theorem drop {queue : Mpsc M} (h : Inv c log s) (hr : s.queue.recv = some (msg, queue)) (hruns : s.pc.runs)
    (hpackets : s.pc.packets = []) (hq : s'.queue = queue)
    (hskip : s'.pc.runs → c.encodes msg = false ∧ s'.pc.packets = [] ∧ s'.compressor = s.compressor) :
    Inv c (log ++ [.taken msg]) s' := by
  have hopen : queue.rxDropped = false := by
    rw [(Mpsc.recv_eq_some hr).2]
    exact h.opened fun he => by rw [he] at hruns; cases hruns
  refine ⟨?_, fun _ => hq ▸ hopen, ?_, ?_, ?_, fun hrun => ?_, h.drained.append_of_forall (by simp)⟩
  · rw [hq]
    simpa using h.carries.recv hr
  · simpa using h.handed.trans (List.prefix_append _ _)
  · simpa using h.written
  · simpa using h.packets
  · obtain ⟨hskip, hpackets', hcomp⟩ := hskip hrun
    obtain ⟨hhanded, hwritten, hcompresses⟩ := h.runs hruns
    rw [hpackets] at hwritten
    rw [hpackets', hcomp]
    exact ⟨by simpa [hskip] using hhanded, by simpa using hwritten, by simpa using hcompresses⟩

/-- The message at the head of the queue is taken, and the transport is called for it. -/
theorem hand {queue : Mpsc M} {drain : Bool} {buf packet : Bytes} {compressor : κ} (h : Inv c log s)
    (hr : s.queue.recv = some (msg, queue)) (hruns : s.pc.runs) (hpackets : s.pc.packets = [])
    (he : c.encode msg = .ok buf) (hc : c.compress s.compressor buf = some (compressor, .ok packet)) :
    Inv c (log ++ [.taken msg, .handed msg packet])
      { s with pc := .writing drain packet, compressor := compressor, queue := queue } := by
  obtain ⟨hhanded, hwritten, hcompresses⟩ := h.runs hruns
  have hencodes : c.encodes msg = true := by rw [Config.encodes, he]; rfl
  have hopen : queue.rxDropped = false := by
    rw [(Mpsc.recv_eq_some hr).2]
    exact h.opened fun he => by rw [he] at hruns; cases hruns
  rw [hpackets, List.append_nil] at hwritten
  have hacc : accepted (log ++ [.taken msg, .handed msg packet]) = accepted log ++ [] := List.filterMap_append
  have htaken : taken (log ++ [.taken msg, .handed msg packet]) = taken log ++ [msg] := List.filterMap_append
  have hhand : WriteLoop.handed (log ++ [.taken msg, .handed msg packet]) =
      WriteLoop.handed log ++ [(msg, packet)] := List.filterMap_append
  have hwrit : WriteLoop.written (log ++ [.taken msg, .handed msg packet]) = WriteLoop.written log ++ [] :=
    List.filterMap_append
  have hall : (WriteLoop.handed log ++ [(msg, packet)]).map Prod.fst =
      (taken log ++ [msg]).filter c.encodes := by
    rw [List.map_append, List.filter_append, hhanded, List.filter_cons_of_pos hencodes]
    rfl
  have hpacket : (WriteLoop.handed log ++ [(msg, packet)]).map Prod.snd = WriteLoop.written log ++ [packet] := by
    rw [List.map_append, hwritten]
    rfl
  have hcompresses' := hcompresses.snoc he hc
  refine ⟨?_, fun _ => hopen, ?_, ?_, ?_, fun _ => ?_, h.drained.append_of_forall (by simp)⟩
  · rw [hacc, htaken, List.append_nil]
    exact h.carries.recv hr
  · rw [hhand, htaken]
    exact hall ▸ List.prefix_rfl
  · rw [hhand, hwrit, hpacket, List.append_nil]
    exact List.prefix_append _ _
  · rw [hhand]
    exact ⟨compressor, hcompresses'⟩
  · rw [hhand, htaken, hwrit, List.append_nil]
    exact ⟨hall, hpacket, hcompresses'⟩

theorem write {drain : Bool} {packet : Bytes} (h : Inv c log s) (hp : s.pc = .writing drain packet) :
    Inv c (log ++ [.written packet]) { s with pc := .head drain } := by
  obtain ⟨hhanded, hwritten, hcompresses⟩ := h.runs (by rw [hp]; rfl)
  rw [hp] at hwritten
  have hne : s.pc ≠ .ended := by rw [hp]; exact nofun
  refine ⟨?_, fun _ => h.opened hne, ?_, ?_, ?_, fun _ => ?_, h.drained.append_of_forall (by simp)⟩
  · simpa using h.carries
  · simpa using h.handed
  · simpa using hwritten ▸ List.prefix_rfl
  · simpa using h.packets
  · rw [(Pc.runs_head drain).2]
    refine ⟨by simpa using hhanded, ?_, by simpa using hcompresses⟩
    simpa [Pc.packets] using hwritten

/-- The queue is found empty. -/
theorem flushed (h : Inv c log s) (hruns : s.pc.runs) (hpackets : s.pc.packets = [])
    (hr : s.queue.recv = none) : Flushed c log := by
  obtain ⟨hhanded, hwritten, hcompresses⟩ := h.runs hruns
  have hopen := h.opened fun he => by rw [he] at hruns; cases hruns
  refine ⟨?_, ⟨_, hcompresses⟩, ?_⟩
  · rw [← h.carries.all hopen hr]
    exact hhanded
  · rw [hwritten, hpackets, List.append_nil]

theorem take {queue : Mpsc M} {drain : Bool} (h : Inv c log s) (hp : s.pc = .head drain)
    (hr : s.queue.recv = some (msg, queue)) (ht : Takes c { s with queue := queue } drain msg s' evs) :
    Inv c (log ++ evs) s' := by
  obtain ⟨hruns, hpackets⟩ := hp ▸ Pc.runs_head drain
  cases ht with
  | skipped he =>
    refine h.drop hr hruns hpackets rfl fun _ => ⟨?_, (Pc.runs_head drain).2, rfl⟩
    rw [Config.encodes, he]
    rfl
  | stuck => exact h.drop hr hruns hpackets rfl (by simp [Pc.runs])
  | failed =>
    show Inv c (log ++ ([.taken msg] ++ [.returned false])) _
    rw [← List.append_assoc]
    exact (h.drop hr hruns hpackets rfl (by simp [Pc.runs])).note rfl rfl rfl rfl (by simp)
  | handed he hc => exact h.hand hr hruns hpackets he hc

theorem step (h : Inv c log s) (hs : Step c s act s' evs) : Inv c (log ++ evs) s' := by
  cases hs with
  | accepted hs => exact h.accept hs
  | refused => exact h.note rfl rfl rfl rfl (by simp)
  | take drain _ hp hr ht => exact h.take hp hr ht
  | cancelled hp =>
    rw [List.append_nil]
    refine h.move rfl (by rw [hp]; exact nofun) fun _ => ?_
    rw [hp]
    exact ⟨rfl, rfl, rfl⟩
  | drained hp hr =>
    have hflushed := h.flushed (by rw [hp]; rfl) (by rw [hp]; rfl) hr
    exact (h.note rfl rfl rfl rfl fun _ => hflushed).move rfl (by rw [hp]; exact nofun) nofun
  | written hp => exact h.write hp
  | failed hp => exact (h.note rfl rfl rfl rfl (by simp)).move rfl (by rw [hp]; exact nofun) nofun
  | guardDropped hp =>
    rw [List.append_nil]
    exact h.move rfl (by rw [hp]; exact nofun) nofun
  | ended hp =>
    rw [List.append_nil]
    exact ⟨h.carries.dropRx, fun he => absurd rfl he, h.handed, h.written, h.packets, nofun, h.drained⟩
  | cancel =>
    rw [List.append_nil]
    exact h.move rfl id fun hrun => ⟨hrun, rfl, rfl⟩

theorem of_run (h : (machine c).Run log s) : Inv c log s := by
  refine h.invariant (I := Inv c) (.init c) ?_
  rintro log s a s' evs - hi - ha
  exact hi.step (step_step ha)

theorem inOrder (h : Inv c log s) : InOrder c log := by
  refine ⟨h.handed.trans ?_, h.packets, h.written⟩
  exact h.carries.first.filter _

end Inv

/-- In every run the transport is given the messages in the order in which they were accepted, none twice and
none left out but those that cannot be encoded; and a loop that ends with its queue empty has written them all. -/
theorem writes_in_order (h : (machine c).Run log s) :
    InOrder c log ∧ History.Each (fun pre e => e = .returned true → Flushed c pre) log :=
  ⟨(Inv.of_run h).inOrder, (Inv.of_run h).drained⟩

/-- A message that cannot be encoded is one with a byte too many; nothing is compressed. -/
def sampleConfig : Config Bytes Unit Unit where
  encode msg := if msg.length < 3 then .ok msg else .error "too long"
  compress _ buf := some ((), .ok buf)
  compressor := ()
  channelSize := 2

/-- The second of three messages cannot be encoded, and the third one is written after the token was cancelled. -/
theorem writes_in_order_three : ∃ log s, (machine sampleConfig).Run log s ∧
    (InOrder sampleConfig log ∧ History.Each (fun pre e => e = .returned true → Flushed sampleConfig pre) log) ∧
      written log = [[1], [5]] ∧ .returned true ∈ log := by
  obtain ⟨log, s, h, hr⟩ := Machine.Exec.exists_of_any (M := machine sampleConfig) (C := fun _ _ _ => True)
    [.send [1], .send [2, 3, 4], .recv, .send [5], .written true, .recv, .cancel, .cancelled, .tryRecv, .written true,
      .tryRecv, .dropGuard, .dropRx]
    (P := fun log _ => written log = [[1], [5]] ∧ .returned true ∈ log) (by decide +kernel)
  exact ⟨log, s, h, writes_in_order h, hr⟩

/-! ### How the loop comes to its end -/

theorem Takes.ct {drain : Bool} (h : Takes c s drain msg s' evs) : s'.ct = s.ct := by cases h <;> rfl

theorem Step.ct (h : Step c s act s' evs) : s'.ct = s.ct ∨ s'.ct = true := by
  cases h with
  | take drain _ _ _ ht => exact .inl ht.ct
  | guardDropped | cancel => exact .inr rfl
  | _ => exact .inl rfl

/-- A loop that has ended does nothing more. -/
theorem Step.not_ended (h : Step c s act s' evs) {e : Event M} (he : e ∈ evs)
    (hw : e.handed?.isSome ∨ e.written?.isSome) : s.pc ≠ .ended := by
  cases h with
  | take drain _ hp =>
    rw [hp]
    cases drain <;> exact nofun
  | written hp =>
    rw [hp]
    exact nofun
  | _ => simp_all

theorem Step.ended_ended (h : Step c s act s' evs) (hp : s.pc = .ended) : s'.pc = .ended := by
  cases h with
  | take drain _ hp' =>
    rw [hp] at hp'
    cases drain <;> cases hp'
  | accepted | refused | cancel => exact hp
  | _ => simp_all

/-- A loop that does no work does not begin again. -/
theorem Step.runs (h : Step c s act s' evs) (hp : s.pc.runs = false) : s'.pc.runs = false := by
  cases h with
  | take drain _ hp' =>
    rw [hp', (Pc.runs_head drain).1] at hp
    cases hp
  | accepted | refused | cancel => exact hp
  | cancelled hp' | written hp' =>
    rw [hp'] at hp
    cases hp
  | _ => rfl

theorem Step.written_eq_nil (h : Step c s act s' evs) (ha : ∀ ok, act ≠ .written ok) : WriteLoop.written evs = [] := by
  cases h with
  | take drain _ _ _ ht => cases ht <;> rfl
  | written | failed => exact absurd rfl (ha _)
  | _ => rfl

theorem Step.returned (h : Step c s act s' evs) (hp : s.pc = .returned) : s'.pc = .returned ∨ s'.ct := by
  cases h with
  | take drain _ hp' =>
    rw [hp] at hp'
    cases drain <;> cases hp'
  | accepted | refused => exact .inl hp
  | guardDropped | cancel => exact .inr rfl
  | _ => simp_all

/-- Only where the token is cancelled. -/
def Pc.late : Pc → Bool
  | draining | writing true _ | guardDropped | ended => true
  | _ => false

def Pc.out : Pc → Bool
  | returned | guardDropped | ended => true
  | _ => false

/-- A loop that has not failed has returned from an empty queue, and nothing was written since. -/
structure Late (c : Config M κ ε) (log : List (Event M)) (s : State M κ) : Prop where
  ct : s.pc.late → s.ct
  drained : .returned true ∈ log → s.ct
  out : s.pc.out → .returned false ∉ log → ∃ pre post, log = pre ++ .returned true :: post ∧
    handed post = [] ∧ written post = []

namespace Late

theorem init (c : Config M κ ε) : Late c [] { compressor := c.compressor } := ⟨nofun, nofun, nofun⟩

theorem move (h : Late c log s) (hct : s.ct → s'.ct) (hlate : s'.pc.late → s.pc.late ∨ s'.ct)
    (hout : s'.pc.out → s.pc.out) (hh : ∀ e ∈ evs, e.handed? = none ∧ e.written? = none)
    (hr : ∀ e ∈ evs, ∀ drained, e ≠ .returned drained) : Late c (log ++ evs) s' := by
  refine ⟨fun hl => ?_, fun hd => ?_, fun ho hf => ?_⟩
  · rcases hlate hl with hl | hl
    · exact hct (h.ct hl)
    · exact hl
  · rcases List.mem_append.1 hd with hd | hd
    · exact hct (h.drained hd)
    · exact absurd rfl (hr _ hd true)
  · obtain ⟨pre, post, rfl, hhanded, hwritten⟩ := h.out (hout ho) fun hm => hf (List.mem_append_left _ hm)
    refine ⟨pre, post ++ evs, by rw [List.append_assoc, List.cons_append], ?_, ?_⟩
    · rw [handed, List.filterMap_append, ← handed, hhanded, List.nil_append]
      exact List.filterMap_eq_nil_iff.2 fun e he => (hh e he).1
    · rw [written, List.filterMap_append, ← written, hwritten, List.nil_append]
      exact List.filterMap_eq_nil_iff.2 fun e he => (hh e he).2

/-- The loop is at work after the step. -/
theorem work (h : Late c log s) (hct : s.ct → s'.ct) (hlate : s'.pc.late → s.pc.late) (hout : s'.pc.out = false)
    (hr : .returned true ∉ evs) : Late c (log ++ evs) s' := by
  refine ⟨fun hl => hct (h.ct (hlate hl)), fun hd => ?_, fun ho => ?_⟩
  · rcases List.mem_append.1 hd with hd | hd
    · exact hct (h.drained hd)
    · exact absurd hd hr
  · rw [hout] at ho
    cases ho

/-- The loop fails. -/
theorem fail (h : Late c log s) (hct : s.ct → s'.ct) (hp : s'.pc = .returned) (hf : .returned false ∈ evs)
    (hr : .returned true ∉ evs) : Late c (log ++ evs) s' := by
  refine ⟨fun hl => ?_, fun hd => ?_, fun _ hn => absurd (List.mem_append_right _ hf) hn⟩
  · rw [hp] at hl
    cases hl
  · rcases List.mem_append.1 hd with hd | hd
    · exact hct (h.drained hd)
    · exact absurd hd hr

theorem take {drain : Bool} {queue : Mpsc M} (h : Late c log s) (hp : s.pc = .head drain)
    (ht : Takes c { s with queue := queue } drain msg s' evs) : Late c (log ++ evs) s' := by
  have hct : s.ct → s'.ct := fun hct => ht.ct ▸ hct
  cases ht with
  | skipped =>
    exact h.work hct (fun hl => hp ▸ hl) (by cases drain <;> rfl) (by simp)
  | stuck => exact h.work hct nofun rfl (by simp)
  | failed => exact h.fail hct rfl (by simp) (by simp)
  | handed =>
    refine h.work hct (fun hl => ?_) rfl (by simp)
    rw [hp]
    cases drain with
    | true => rfl
    | false => cases hl

theorem step (h : Late c log s) (hs : Step c s act s' evs) : Late c (log ++ evs) s' := by
  cases hs with
  | accepted => exact h.move id .inl id (by simp) (by simp)
  | refused => exact h.move id .inl id (by simp) (by simp)
  | take drain _ hp _ ht => exact h.take hp ht
  | cancelled hp hct => exact h.move id (fun _ => .inr hct) nofun (by simp) (by simp)
  | drained hp hr =>
    have hct : s.ct := h.ct (by rw [hp]; rfl)
    exact ⟨nofun, fun _ => hct, fun _ _ => ⟨log, [], rfl, rfl, rfl⟩⟩
  | written hp =>
    rename_i drain packet
    refine h.work id (fun hl => ?_) (by cases drain <;> rfl) (by simp)
    rw [hp]
    cases drain with
    | true => rfl
    | false => cases hl
  | failed => exact h.fail id rfl (by simp) (by simp)
  | guardDropped hp =>
    exact h.move (fun _ => rfl) (fun _ => .inr rfl) (fun _ => by rw [hp]; rfl) (by simp) (by simp)
  | ended hp =>
    exact h.move id (fun _ => .inl (by rw [hp]; rfl)) (fun _ => by rw [hp]; rfl) (by simp) (by simp)
  | cancel => exact h.move (fun _ => rfl) .inl id (by simp) (by simp)

theorem of_run (h : (machine c).Run log s) : Late c log s := by
  refine h.invariant (I := Late c) (.init c) ?_
  rintro log s a s' evs - hi - ha
  exact hi.step (step_step ha)

end Late

/-- Of the messages accepted in `before`, those that can be encoded are written in `log`. -/
structure Covers (c : Config M κ ε) (before log : List (Event M)) : Prop where
  handed : (accepted before).filter c.encodes <+: (handed log).map Prod.fst
  packets : ∃ compressor, Compresses c (WriteLoop.handed log) compressor
  written : written log = (WriteLoop.handed log).map Prod.snd

/-- A loop that is out of work without a failure has written what was accepted before its token was cancelled. -/
theorem covers_of_out {before after : List (Event M)} (h : (machine c).Run (before ++ after) s) (hp : s.pc.out)
    (hf : .returned false ∉ before ++ after) (hb : .returned true ∉ before) : Covers c before (before ++ after) := by
  obtain ⟨pre, post, heq, hhanded, hwritten⟩ := (Late.of_run h).out hp hf
  have hflushed := (Inv.of_run h).drained pre _ post heq rfl
  have hpre : before <+: pre := by
    rcases List.append_eq_append_iff.1 heq with ⟨l, hpre, -⟩ | ⟨l, hbefore, htail⟩
    · exact ⟨l, hpre.symm⟩
    · cases l with
      | nil => exact ⟨[], by rw [hbefore, List.append_nil, List.append_nil]⟩
      | cons e l =>
        rw [List.cons_append] at htail
        obtain ⟨rfl, -⟩ := List.cons.inj htail
        exact absurd (by simp [hbefore]) hb
  have hpost : WriteLoop.handed (before ++ after) = WriteLoop.handed pre := by
    rw [heq, WriteLoop.handed, List.filterMap_append, List.filterMap_cons_none rfl, ← WriteLoop.handed, ← WriteLoop.handed,
      hhanded, List.append_nil]
  have hwrit : WriteLoop.written (before ++ after) = WriteLoop.written pre := by
    rw [heq, WriteLoop.written, List.filterMap_append, List.filterMap_cons_none rfl, ← WriteLoop.written, ← WriteLoop.written,
      hwritten, List.append_nil]
  refine ⟨?_, ?_, ?_⟩
  · rw [hpost, hflushed.handed]
    exact (hpre.filterMap _).filter _
  · rw [hpost]
    exact hflushed.packets
  · rw [hpost, hwrit]
    exact hflushed.written

/-! ### The loop by itself comes to its end -/

/-- The compressor always comes to an end. -/
def Config.Halts (c : Config M κ ε) : Prop := ∀ compressor data, c.compress compressor data ≠ none

/-- Neither a message is sent nor the token cancelled. -/
def Action.internal : Action M → Bool
  | send _ | cancel => false
  | _ => true

/-- The number of steps that the loop can take for a message, or without one. -/
def Pc.rank : Pc → Nat
  | writing false _ => 7
  | writing true _ => 6
  | selecting => 5
  | draining => 4
  | returned => 3
  | guardDropped => 2
  | ended => 1
  | compressing => 0

def State.rank (s : State M κ) : Nat := 3 * s.queue.items.length + s.pc.rank

theorem Takes.rank {drain : Bool} (h : Takes c s drain msg s' evs) :
    s'.queue = s.queue ∧ s'.pc.rank < (Pc.head drain).rank + 3 := by
  cases h <;> cases drain <;> exact ⟨rfl, by simp [Pc.head, Pc.rank]⟩

theorem Step.rank_lt (h : Step c s act s' evs) (ha : act.internal) : s'.rank < s.rank := by
  unfold State.rank
  cases h with
  | accepted | refused | cancel => cases ha
  | take drain _ hp hr ht =>
    obtain ⟨hq, hrank⟩ := ht.rank
    have hlen := congrArg List.length (Mpsc.recv_eq_some hr).1
    rw [List.length_cons] at hlen
    simp only [hp, hq, hlen]
    omega
  | cancelled hp => rw [hp]; exact Nat.lt_succ_self _
  | drained hp => rw [hp]; exact Nat.lt_succ_self _
  | written hp =>
    rename_i drain packet
    rw [hp]
    cases drain <;> simp [Pc.head, Pc.rank]
  | failed hp =>
    rename_i drain packet
    rw [hp]
    cases drain <;> simp [Pc.rank]
  | guardDropped hp => rw [hp]; exact Nat.lt_succ_self _
  | ended hp =>
    rw [hp]
    simp only [Mpsc.dropRx, List.length_nil, Pc.rank]
    omega

theorem Step.compressing (hc : c.Halts) (h : Step c s act s' evs) (hp : s.pc ≠ .compressing) : s'.pc ≠ .compressing := by
  cases h with
  | accepted | refused | cancel => exact hp
  | take drain _ _ _ ht =>
    cases ht with
    | stuck hstuck => exact absurd hstuck (hc _ _)
    | skipped => cases drain <;> simp [Pc.head]
    | failed | handed => exact nofun
  | written hw =>
    rename_i drain packet
    cases drain <;> simp [Pc.head]
  | _ => exact nofun

theorem compressing_of_run (hc : c.Halts) (h : (machine c).Run log s) : s.pc ≠ .compressing := by
  refine h.invariant (I := fun _ s => s.pc ≠ .compressing) (by simp [machine]) ?_
  rintro log s a s' evs - hi - ha
  exact (step_step ha).compressing hc hi

/-- Where the loop does not go on it has ended, once the token is cancelled. -/
theorem ended_of_stuck (hp : s.pc ≠ .compressing) (hct : s.ct)
    (hstuck : ∀ act : Action M, act.internal → step c s act = none) : s.pc = .ended := by
  cases hpc : s.pc with
  | selecting =>
    have := hstuck .cancelled rfl
    simp [step, hpc, hct] at this
  | draining =>
    have := hstuck .tryRecv rfl
    cases hr : s.queue.recv <;> simp [step, hpc, hr] at this
  | writing drain packet =>
    have := hstuck (.written true) rfl
    simp [step, hpc] at this
  | compressing => exact absurd hpc hp
  | returned =>
    have := hstuck .dropGuard rfl
    simp [step, hpc] at this
  | guardDropped =>
    have := hstuck .dropRx rfl
    simp [step, hpc] at this
  | ended => rfl

end Iscp.Wire.WriteLoop
