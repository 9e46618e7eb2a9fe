import Iscp.Lib.Progress
import Iscp.Wire.Codec

/-!
# From the write loop to the read loop of the peer

Both ends of a connection over some transport: the write loop with its compressor, the transport, and the head of the
read loop of the peer, which reads a packet or takes a command, and in both cases extracts and decodes what is in its
buffer.
-/

namespace Iscp.Wire

open Iscp.Transport
open LinkEvent (writerLog transportLog decodedLog logs_writer logs_transport writerLog_append transportLog_append decodedLog_append)
open Coder (Parse)

variable {T A E M σ τ ε ε' : Type}

/-! ### Transports -/

/-- What becomes of a packet in a write, as what was begun and what came to its end. -/
inductive Writes (packet : Bytes) : List Bytes → List Bytes → Prop
  | refused : Writes packet [] []
  | failed : Writes packet [packet] []
  | written : Writes packet [packet] [packet]

/-- A transport as the loops at its two ends see it. -/
structure Carrier (T A E : Type) where
  machine : Machine T A E
  /-- The packet with which `write` is called. -/
  write? : A → Option Bytes
  attempted? : E → Option Bytes
  written? : E → Option Bytes
  read? : E → Option Bytes
  /-- `read` returns an error. -/
  closed : E → Bool
  start : machine.log₀ = []
  writes : ∀ s a s' evs packet, write? a = some packet → machine.step s a = some (s', evs) →
    Writes packet (evs.filterMap attempted?) (evs.filterMap written?) ∧ evs.filterMap read? = []
  others : ∀ s a s' evs, write? a = none → machine.step s a = some (s', evs) →
    evs.filterMap attempted? = [] ∧ evs.filterMap written? = [] ∧ (evs.filterMap read?).length ≤ 1

namespace Carrier

variable (N : Carrier T A E)

/-- The packets whose write began; it came to its end for those in `written`. -/
def attempted (log : List E) : List Bytes := log.filterMap N.attempted?

def written (log : List E) : List Bytes := log.filterMap N.written?

def read (log : List E) : List Bytes := log.filterMap N.read?

@[simp] theorem attempted_append (log evs : List E) : N.attempted (log ++ evs) = N.attempted log ++ N.attempted evs :=
  List.filterMap_append

@[simp] theorem written_append (log evs : List E) : N.written (log ++ evs) = N.written log ++ N.written evs :=
  List.filterMap_append

@[simp] theorem read_append (log evs : List E) : N.read (log ++ evs) = N.read log ++ N.read evs := List.filterMap_append

/-- The packets come out in the order in which they went in, and none is missing between them. -/
def Ordered : Prop := ∀ log s, N.machine.Run log s → N.read log <+: N.attempted log

end Carrier

/-! ### The two ends -/

namespace Link

structure State (T M σ τ : Type) where
  writer : WriteLoop.State M (Compressor σ)
  transport : T
  extractor : Extractor τ
  /-- The read loop of the peer has returned. -/
  returned : Bool := false

inductive Action (M A : Type)
  /-- Of the write loop, all but the call of `writer.write`. -/
  | writer (a : WriteLoop.Action M)
  | write (a : A)
  /-- Of the transport, all but the write; the peer goes on with a packet that is read. -/
  | transport (a : A) (fuel : Nat)
  | command (fuel : Nat)
  /-- The read loop sees its token. -/
  | stop

abbrev Event (M E : Type) := LinkEvent M E

def step (N : Carrier T A E) (c : Codec M σ τ ε ε') (s : State T M σ τ) :
    Action M A → Option (State T M σ τ × List (Event M E))
  | .writer a =>
    if a.alone then
      (WriteLoop.step c.writer s.writer a).map fun (writer, evs) => ({ s with writer := writer }, evs.map .writer)
    else none
  | .write a =>
    match s.writer.pc with
    | .writing _ packet =>
      if N.write? a = some packet then
        match N.machine.step s.transport a with
        | some (transport, tevs) =>
          (WriteLoop.step c.writer s.writer (.written (decide (packet ∈ N.written tevs)))).map fun (writer, evs) =>
            ({ s with writer := writer, transport := transport }, tevs.map .transport ++ evs.map .writer)
        | none => none
      else none
    | _ => none
  | .transport a fuel =>
    match N.write? a, N.machine.step s.transport a with
    | none, some (transport, tevs) =>
      match N.read tevs with
      | [] => some ({ s with transport := transport, returned := s.returned || tevs.any N.closed }, tevs.map .transport)
      | packet :: _ =>
        if s.returned then none else
        match c.convert fuel s.extractor packet with
        | some (extractor, some msg) =>
          some ({ s with transport := transport, extractor := extractor }, tevs.map .transport ++ [.decoded msg])
        | some (extractor, none) =>
          some ({ s with transport := transport, extractor := extractor, returned := true }, tevs.map .transport ++ [.failed])
        | none => none
    | _, _ => none
  | .command fuel =>
    if s.returned then none else
    match c.convert fuel s.extractor [] with
    | some (extractor, some msg) => some ({ s with extractor := extractor }, [.blank msg])
    | some (extractor, none) => some ({ s with extractor := extractor, returned := true }, [.failed])
    | none => none
  | .stop => some ({ s with returned := true }, [])

def machine (N : Carrier T A E) (c : Codec M σ τ ε ε') : Machine (State T M σ τ) (Action M A) (Event M E) where
  init := { writer := { compressor := c.compressor }, transport := N.machine.init, extractor := c.extractor }
  log₀ := []
  step := step N c

/-! ### What a step does -/

inductive Step (N : Carrier T A E) (c : Codec M σ τ ε ε') (s : State T M σ τ) : State T M σ τ → List (Event M E) → Prop
  | writer {a : WriteLoop.Action M} {writer : WriteLoop.State M (Compressor σ)} {evs : List (WriteLoop.Event M)} :
      a.alone → WriteLoop.step c.writer s.writer a = some (writer, evs) →
      Step N c s { s with writer := writer } (evs.map .writer)
  | wrote {drain : Bool} {packet : Bytes} {a : A} {transport : T} {tevs : List E}
      {writer : WriteLoop.State M (Compressor σ)} {evs : List (WriteLoop.Event M)} : s.writer.pc = .writing drain packet →
      N.write? a = some packet → N.machine.step s.transport a = some (transport, tevs) →
      WriteLoop.step c.writer s.writer (.written (decide (packet ∈ N.written tevs))) = some (writer, evs) →
      Step N c s { s with writer := writer, transport := transport } (tevs.map .transport ++ evs.map .writer)
  | transport {a : A} {transport : T} {tevs : List E} : N.write? a = none →
      N.machine.step s.transport a = some (transport, tevs) → N.read tevs = [] →
      Step N c s { s with transport := transport, returned := s.returned || tevs.any N.closed } (tevs.map .transport)
  | read {a : A} {fuel : Nat} {transport : T} {tevs : List E} {packet : Bytes} {extractor : Extractor τ} {msg : M} :
      s.returned = false → N.write? a = none → N.machine.step s.transport a = some (transport, tevs) →
      N.read tevs = [packet] → c.convert fuel s.extractor packet = some (extractor, some msg) →
      Step N c s { s with transport := transport, extractor := extractor } (tevs.map .transport ++ [.decoded msg])
  | failed {a : A} {fuel : Nat} {transport : T} {tevs : List E} {packet : Bytes} {extractor : Extractor τ} :
      s.returned = false → N.write? a = none → N.machine.step s.transport a = some (transport, tevs) →
      N.read tevs = [packet] → c.convert fuel s.extractor packet = some (extractor, none) →
      Step N c s { s with transport := transport, extractor := extractor, returned := true } (tevs.map .transport ++ [.failed])
  | blank {fuel : Nat} {extractor : Extractor τ} {msg : M} : s.returned = false →
      c.convert fuel s.extractor [] = some (extractor, some msg) → Step N c s { s with extractor := extractor } [.blank msg]
  | blankFailed {fuel : Nat} {extractor : Extractor τ} : s.returned = false →
      c.convert fuel s.extractor [] = some (extractor, none) →
      Step N c s { s with extractor := extractor, returned := true } [.failed]
  | stopped : Step N c s { s with returned := true } []

variable {N : Carrier T A E} {c : Codec M σ τ ε ε'} {s s' : State T M σ τ} {act : Action M A} {log evs : List (Event M E)} {msg : M}

theorem step_step (h : step N c s act = some (s', evs)) : Step N c s s' evs := by
  cases act with
  | writer a =>
    simp only [step] at h
    split at h
    · rename_i ha
      obtain ⟨⟨writer, es⟩, hs, he⟩ := Option.map_eq_some_iff.1 h
      cases he
      exact .writer ha hs
    · cases h
  | write a =>
    simp only [step] at h
    split at h
    · rename_i hp
      split at h
      · rename_i hw
        split at h
        · rename_i hs
          obtain ⟨⟨writer, es⟩, hwriter, he⟩ := Option.map_eq_some_iff.1 h
          cases he
          exact .wrote hp hw hs hwriter
        · cases h
      · cases h
    · cases h
  | transport a fuel =>
    simp only [step] at h
    split at h
    · rename_i transport tevs hw hs
      split at h
      · rename_i hr
        cases h
        exact .transport hw hs hr
      · rename_i packet rest hr
        obtain rfl : rest = [] := by
          have hlen := (N.others _ _ _ _ hw hs).2.2
          rw [← Carrier.read, hr, List.length_cons] at hlen
          exact List.eq_nil_of_length_eq_zero (by omega)
        split at h
        · cases h
        · rename_i hret
          rw [Bool.not_eq_true] at hret
          split at h
          · rename_i hc
            cases h
            exact .read hret hw hs hr hc
          · rename_i hc
            cases h
            exact .failed hret hw hs hr hc
          · cases h
    · cases h
  | command fuel =>
    simp only [step] at h
    split at h
    · cases h
    · rename_i hr
      rw [Bool.not_eq_true] at hr
      split at h
      · rename_i hc
        cases h
        exact .blank hr hc
      · rename_i hc
        cases h
        exact .blankFailed hr hc
      · cases h
  | stop =>
    cases h
    exact .stopped

/-! ### The parts by themselves -/

/-- The write loop does what it does alone. -/
theorem writer_run (h : (machine N c).Run log s) : (WriteLoop.machine c.writer).Run (writerLog log) s.writer := by
  refine h.project (N := WriteLoop.machine c.writer) (π := fun s => s.writer) (f := LinkEvent.writer?) rfl rfl ?_
  rintro log s act s' evs - - hs
  have ran {a writer es log'} (hstep : WriteLoop.step c.writer s.writer a = some (writer, es)) (hlog : log' = es) :
      ∃ b, (WriteLoop.machine c.writer).step s.writer b = some (writer, log') := ⟨a, hlog ▸ hstep⟩
  have quiet (tevs : List E) {es : List (Event M E)} (he : writerLog es = []) :
      (tevs.map LinkEvent.transport ++ es).filterMap LinkEvent.writer? = [] := by
    rw [← writerLog, writerLog_append, (logs_transport _).2.1, he, List.append_nil]
  cases step_step hs with
  | writer ha hstep => exact .inr (ran hstep (logs_writer _).1)
  | wrote _ _ _ hstep =>
    refine .inr (ran hstep ?_)
    rw [← writerLog, writerLog_append, (logs_transport _).2.1, (logs_writer _).1, List.nil_append]
  | transport => exact .inl ⟨rfl, (logs_transport _).2.1⟩
  | read => exact .inl ⟨rfl, quiet _ rfl⟩
  | failed => exact .inl ⟨rfl, quiet _ rfl⟩
  | blank | blankFailed | stopped => exact .inl ⟨rfl, rfl⟩

/-- So does the transport. -/
theorem transport_run (h : (machine N c).Run log s) : N.machine.Run (transportLog log) s.transport := by
  refine h.project (N := N.machine) (π := fun s => s.transport) (f := LinkEvent.transport? (M := M)) rfl (by rw [N.start]; rfl) ?_
  rintro log s act s' evs - - hs
  have ran {a transport es log'} (hstep : N.machine.step s.transport a = some (transport, es)) (hlog : log' = es) :
      ∃ b, N.machine.step s.transport b = some (transport, log') := ⟨a, hlog ▸ hstep⟩
  have one (tevs : List E) {es : List (Event M E)} (he : transportLog es = []) :
      (tevs.map LinkEvent.transport ++ es).filterMap LinkEvent.transport? = tevs := by
    rw [← transportLog, transportLog_append, (logs_transport _).1, he, List.append_nil]
  cases step_step hs with
  | writer => exact .inl ⟨rfl, (logs_writer _).2.1⟩
  | wrote _ _ hstep =>
    refine .inr (ran hstep ?_)
    rw [← transportLog, transportLog_append, (logs_transport _).1, (logs_writer _).2.1, List.append_nil]
  | transport _ hstep => exact .inr (ran hstep (logs_transport _).1)
  | read _ _ hstep => exact .inr (ran hstep (one _ rfl))
  | failed _ _ hstep => exact .inr (ran hstep (one _ rfl))
  | blank | blankFailed | stopped => exact .inl ⟨rfl, rfl⟩

/-! ### What is written goes into the transport -/

structure Sync (N : Carrier T A E) (c : Codec M σ τ ε ε') (log : List (Event M E)) (s : State T M σ τ) : Prop where
  written : N.written (transportLog log) = WriteLoop.written (writerLog log)
  attempted : N.attempted (transportLog log) <+: (WriteLoop.handed (writerLog log)).map Prod.snd
  /-- After a write that failed there is no other. -/
  whole : s.writer.pc.runs → N.attempted (transportLog log) = N.written (transportLog log)

namespace Sync

/-- Nothing is written. -/
theorem quiet (h : Sync N c log s) (hw : WriteLoop.written (writerLog evs) = []) (ha : N.attempted (transportLog evs) = [])
    (ht : N.written (transportLog evs) = []) (hp : s'.writer.pc.runs → s.writer.pc.runs) : Sync N c (log ++ evs) s' := by
  refine ⟨?_, ?_, fun hr => ?_⟩
  · rw [transportLog_append, writerLog_append, Carrier.written_append, ht, WriteLoop.written, List.filterMap_append,
      ← WriteLoop.written, ← WriteLoop.written, hw, List.append_nil, List.append_nil]
    exact h.written
  · rw [transportLog_append, Carrier.attempted_append, ha, List.append_nil, writerLog_append, WriteLoop.handed,
      List.filterMap_append, List.map_append]
    exact h.attempted.trans (List.prefix_append _ _)
  · rw [transportLog_append, Carrier.attempted_append, Carrier.written_append, ha, ht, List.append_nil, List.append_nil]
    exact h.whole (hp hr)

/-- The transport takes a packet, or a part of it, or refuses it. -/
theorem wrote (h : Sync N c log s) (hr : (machine N c).Run log s) {drain : Bool} {packet : Bytes} {a : A} {transport : T}
    {tevs : List E} {writer : WriteLoop.State M (Compressor σ)} {es : List (WriteLoop.Event M)}
    (hp : s.writer.pc = .writing drain packet) (hw : N.write? a = some packet)
    (ht : N.machine.step s.transport a = some (transport, tevs))
    (hs : WriteLoop.step c.writer s.writer (.written (decide (packet ∈ N.written tevs))) = some (writer, es)) :
    Sync N c (log ++ (tevs.map .transport ++ es.map .writer)) { s with writer := writer, transport := transport } := by
  have hruns := (WriteLoop.Inv.of_run (writer_run hr)).runs (by rw [hp]; rfl)
  have hwhole := h.whole (by rw [hp]; rfl)
  have hall : N.attempted (transportLog log) ++ [packet] = (WriteLoop.handed (writerLog log)).map Prod.snd := by
    rw [hruns.2.1, hp, hwhole, h.written]
    rfl
  have hlogs : transportLog (tevs.map .transport ++ es.map (.writer (M := M))) = tevs ∧
      writerLog (tevs.map .transport ++ es.map (.writer (M := M))) = es := by
    rw [transportLog_append, writerLog_append, (logs_transport _).1, (logs_transport _).2.1, (logs_writer _).1,
      (logs_writer _).2.1]
    exact ⟨List.append_nil _, rfl⟩
  -- What the transport does decides what the write loop does.
  have hwriter (ok : Bool) (hs : WriteLoop.step c.writer s.writer (.written ok) = some (writer, es)) :
      (ok = true → es = [.written packet]) ∧ (ok = false → writer.pc = .returned ∧ es = [.returned false]) := by
    cases WriteLoop.step_step hs with
    | take d ha => cases d <;> cases ha
    | written hp' =>
      rw [hp] at hp'
      cases hp'
      exact ⟨fun _ => rfl, nofun⟩
    | failed hp' => exact ⟨nofun, fun _ => ⟨rfl, rfl⟩⟩
  have hsync (hattempted : N.attempted tevs = [] ∨ N.attempted tevs = [packet])
      (hwritten : N.written tevs = WriteLoop.written es)
      (hruns' : writer.pc.runs → N.attempted tevs = N.written tevs) :
      Sync N c (log ++ (tevs.map .transport ++ es.map .writer)) { s with writer := writer, transport := transport } := by
    refine ⟨?_, ?_, fun hrun => ?_⟩
    · rw [transportLog_append, writerLog_append, hlogs.1, hlogs.2, Carrier.written_append, hwritten, h.written,
        WriteLoop.written, WriteLoop.written, WriteLoop.written, List.filterMap_append]
    · rw [transportLog_append, writerLog_append, hlogs.1, hlogs.2, Carrier.attempted_append, WriteLoop.handed,
        List.filterMap_append, List.map_append]
      refine List.IsPrefix.trans ?_ (List.prefix_append _ _)
      rcases hattempted with hnil | hpacket
      · rw [hnil, List.append_nil]
        exact h.attempted
      · rw [hpacket]
        exact hall ▸ List.prefix_rfl
    · rw [transportLog_append, hlogs.1, Carrier.attempted_append, Carrier.written_append, hruns' hrun, hwhole]
  obtain ⟨hwrites, -⟩ := N.writes _ _ _ _ _ hw ht
  generalize hattempted : tevs.filterMap N.attempted? = attempted at hwrites
  generalize hwritten : tevs.filterMap N.written? = written at hwrites
  rw [← Carrier.attempted] at hattempted
  rw [← Carrier.written] at hwritten
  rw [hwritten] at hs
  cases hwrites with
  | refused =>
    obtain ⟨hpc, rfl⟩ := (hwriter _ hs).2 (by simp)
    exact hsync (.inl hattempted) hwritten fun hrun => by rw [hpc] at hrun; cases hrun
  | failed =>
    obtain ⟨hpc, rfl⟩ := (hwriter _ hs).2 (by simp)
    exact hsync (.inr hattempted) hwritten fun hrun => by rw [hpc] at hrun; cases hrun
  | written =>
    obtain rfl := (hwriter _ hs).1 (by simp)
    exact hsync (.inr hattempted) hwritten fun _ => hattempted.trans hwritten.symm

theorem step (h : Sync N c log s) (hr : (machine N c).Run log s) (hs : Step N c s s' evs) : Sync N c (log ++ evs) s' := by
  have quiet {a : A} {transport : T} {tevs : List E} {es : List (Event M E)} (hw : N.write? a = none)
      (ht : N.machine.step s.transport a = some (transport, tevs)) (he : transportLog es = [] ∧ writerLog es = [])
      (hp : s'.writer.pc.runs → s.writer.pc.runs) : Sync N c (log ++ (tevs.map .transport ++ es)) s' := by
    obtain ⟨hattempted, hwritten, -⟩ := N.others _ _ _ _ hw ht
    refine h.quiet ?_ ?_ ?_ hp
    · rw [writerLog_append, (logs_transport _).2.1, he.2]
      rfl
    · rw [transportLog_append, (logs_transport _).1, he.1, List.append_nil]
      exact hattempted
    · rw [transportLog_append, (logs_transport _).1, he.1, List.append_nil]
      exact hwritten
  cases hs with
  | writer ha hstep =>
    have hs := WriteLoop.step_step hstep
    refine h.quiet ?_ ?_ ?_ fun hr' => ?_
    · rw [(logs_writer _).1]
      exact hs.written_eq_nil (by rintro _ rfl; cases ha)
    · rw [(logs_writer _).2.1]
      rfl
    · rw [(logs_writer _).2.1]
      rfl
    · by_contra hn
      rw [Bool.not_eq_true] at hn
      rw [hs.runs hn] at hr'
      cases hr'
  | wrote hp hw ht hs => exact h.wrote hr hp hw ht hs
  | transport hw ht =>
    rename_i tevs _
    rw [← List.append_nil (tevs.map LinkEvent.transport)]
    exact quiet hw ht ⟨rfl, rfl⟩ id
  | read _ hw ht => exact quiet hw ht ⟨rfl, rfl⟩ id
  | failed _ hw ht => exact quiet hw ht ⟨rfl, rfl⟩ id
  | blank | blankFailed | stopped => exact h.quiet rfl rfl rfl id

theorem of_run (h : (machine N c).Run log s) : Sync N c log s := by
  refine h.invariant (I := Sync N c) ⟨rfl, List.prefix_rfl, fun _ => rfl⟩ ?_
  rintro log s a s' evs hr hi - ha
  exact hi.step hr (step_step ha)

end Sync

/-! ### What is read comes out -/

variable {parse : Bytes → Bytes → Parse UInt8}

theorem read_first (hN : N.Ordered) (h : (machine N c).Run log s) :
    N.read (transportLog log) <+: (WriteLoop.handed (writerLog log)).map Prod.snd :=
  (hN _ _ (transport_run h)).trans (Sync.of_run h).attempted

/-- The peer has read the messages of `pairs`, and its extractor goes with the compressor after them. -/
structure HasRead (N : Carrier T A E) (c : Codec M σ τ ε ε') (log : List (Event M E)) (s : State T M σ τ)
    (pairs : List (M × Bytes)) (compressor : Compressor σ) : Prop where
  handed : pairs <+: WriteLoop.handed (writerLog log)
  compresses : WriteLoop.Compresses c.writer pairs compressor
  paired : Paired compressor s.extractor
  decoded : decodedLog log = pairs.map Prod.fst
  read : N.read (transportLog log) = pairs.map Prod.snd

structure Reading (N : Carrier T A E) (c : Codec M σ τ ε ε') (log : List (Event M E)) (s : State T M σ τ) : Prop where
  failed : .failed ∉ log
  first : decodedLog log <+: (WriteLoop.handed (writerLog log)).map Prod.fst
  pairs : s.returned = false → ∃ pairs compressor, HasRead N c log s pairs compressor

namespace HasRead

variable {pairs : List (M × Bytes)} {compressor : Compressor σ}

/-- The packet that is read next is that of the next message. -/
theorem next (h : HasRead N c log s pairs compressor) (hr : (machine N c).Run log s) (hc : c.Agrees parse) {packet : Bytes}
    (hp : N.read (transportLog log) ++ [packet] <+: (WriteLoop.handed (writerLog log)).map Prod.snd) :
    ∃ msg compressor' x', pairs ++ [(msg, packet)] <+: WriteLoop.handed (writerLog log) ∧
      WriteLoop.Compresses c.writer (pairs ++ [(msg, packet)]) compressor' ∧ Paired compressor' x' ∧
      (∃ fuel₀, ∀ fuel ≥ fuel₀, c.convert fuel s.extractor packet = some (x', some msg)) ∧
      ∀ fuel r, c.convert fuel s.extractor packet = some r → r = (x', some msg) := by
  obtain ⟨rest, hrest⟩ := h.handed
  rw [h.read, ← hrest, List.map_append, List.prefix_append_right_inj] at hp
  obtain ⟨⟨msg, packet'⟩, rest', rfl⟩ : ∃ pair rest', rest = pair :: rest' := by
    cases rest with
    | nil => simp at hp
    | cons pair rest' => exact ⟨pair, rest', rfl⟩
  obtain rfl : packet = packet' := by simpa using hp
  have hpre : pairs ++ [(msg, packet)] <+: WriteLoop.handed (writerLog log) := ⟨rest', by rw [← hrest, List.append_assoc]; rfl⟩
  obtain ⟨_, hall⟩ := (WriteLoop.Inv.of_run (writer_run hr)).packets
  obtain ⟨compressor', hcompresses⟩ := hall.of_prefix hpre
  obtain ⟨_, buf, hbefore, he, hs⟩ := hcompresses.snoc_inv
  obtain rfl := h.compresses.unique hbefore
  obtain ⟨x', hp', hconvert⟩ := Codec.convert_packet hc h.paired he hs
  exact ⟨msg, compressor', x', hpre, hcompresses, hp', hconvert⟩

theorem mono (h : HasRead N c log s pairs compressor) (hp : Paired compressor s'.extractor) (hd : decodedLog evs = [])
    (hr : N.read (transportLog evs) = []) : HasRead N c (log ++ evs) s' pairs compressor := by
  refine ⟨?_, h.compresses, hp, ?_, ?_⟩
  · rw [writerLog_append, WriteLoop.handed, List.filterMap_append]
    exact h.handed.trans (List.prefix_append _ _)
  · rw [decodedLog_append, hd, List.append_nil]
    exact h.decoded
  · rw [transportLog_append, Carrier.read_append, hr, List.append_nil]
    exact h.read

end HasRead

namespace Reading

theorem init : Reading N c [] (machine N c).init := by
  have hread : N.read [] = [] := rfl
  exact ⟨nofun, List.prefix_rfl, fun _ => ⟨[], c.compressor, List.prefix_rfl, .nil, .of_converters c.converters, rfl, hread⟩⟩

/-- Nothing is read. -/
theorem keep (h : Reading N c log s) (hret : s'.returned = false → s.returned = false)
    (hx : ∀ compressor : Compressor σ, Paired compressor s.extractor → s'.returned = false → Paired compressor s'.extractor)
    (hf : .failed ∉ evs) (hd : decodedLog evs = []) (hr : N.read (transportLog evs) = []) :
    Reading N c (log ++ evs) s' := by
  refine ⟨fun hm => (List.mem_append.1 hm).elim h.failed hf, ?_, fun hret' => ?_⟩
  · rw [decodedLog_append, hd, List.append_nil, writerLog_append, WriteLoop.handed, List.filterMap_append, List.map_append]
    exact h.first.trans (List.prefix_append _ _)
  · obtain ⟨pairs, compressor, hread⟩ := h.pairs (hret hret')
    exact ⟨pairs, compressor, hread.mono (hx _ hread.paired hret') hd hr⟩

theorem step (h : Reading N c log s) (hN : N.Ordered) (hc : c.Agrees parse) (hr : (machine N c).Run log s)
    (ha : Link.step N c s act = some (s', evs)) : Reading N c (log ++ evs) s' := by
  have hpre {packet : Bytes} {tevs : List E} {es : List (Event M E)} (he : evs = tevs.map .transport ++ es)
      (hes : transportLog es = [] ∧ writerLog es = []) (ht : N.read tevs = [packet]) :
      N.read (transportLog log) ++ [packet] <+: (WriteLoop.handed (writerLog log)).map Prod.snd := by
    have hpre := read_first hN (hr.step trivial ha)
    rwa [he, transportLog_append, transportLog_append, (logs_transport _).1, hes.1, List.append_nil, writerLog_append,
      writerLog_append, (logs_transport _).2.1, hes.2, List.append_nil, List.append_nil, Carrier.read_append, ht] at hpre
  cases step_step ha with
  | writer =>
    exact h.keep id (fun _ hp _ => hp) (by simp) (logs_writer _).2.2 (by rw [(logs_writer _).2.1]; rfl)
  | wrote _ hw ht =>
    refine h.keep id (fun _ hp _ => hp) (by simp) ?_ ?_
    · rw [decodedLog_append, (logs_transport _).2.2, (logs_writer _).2.2, List.append_nil]
    · rw [transportLog_append, (logs_transport _).1, (logs_writer _).2.1, List.append_nil]
      exact (N.writes _ _ _ _ _ hw ht).2
  | transport _ _ hnone =>
    refine h.keep (fun hret => (Bool.or_eq_false_iff.1 hret).1) (fun _ hp _ => hp) (by simp) (logs_transport _).2.2 ?_
    rw [(logs_transport _).1]
    exact hnone
  | stopped => exact h.keep nofun (fun _ _ => nofun) (by simp) rfl rfl
  | blank _ hconvert =>
    exact h.keep id (fun _ hp _ => (Codec.convert_nil hc hp hconvert).1) (by simp) rfl rfl
  | blankFailed hret hconvert =>
    obtain ⟨pairs, compressor, hread⟩ := h.pairs hret
    cases (Codec.convert_nil hc hread.paired hconvert).2
  | failed hret _ _ htevs hconvert =>
    obtain ⟨pairs, compressor, hread⟩ := h.pairs hret
    obtain ⟨msg, compressor', x', -, -, -, -, hunique⟩ := hread.next hr hc (hpre rfl ⟨rfl, rfl⟩ htevs)
    cases hunique _ _ hconvert
  | read hret hw ht htevs hconvert =>
    rename_i a fuel transport tevs packet extractor msg
    obtain ⟨pairs, compressor, hread⟩ := h.pairs hret
    obtain ⟨msg', compressor', x', hhanded, hcompresses, hp, -, hunique⟩ := hread.next hr hc (hpre rfl ⟨rfl, rfl⟩ htevs)
    cases hunique _ _ hconvert
    have hlogs : writerLog (tevs.map .transport ++ [.decoded msg]) = [] ∧
        transportLog (tevs.map .transport ++ [.decoded msg]) = tevs ∧ decodedLog (tevs.map .transport ++ [.decoded msg]) = [msg] := by
      rw [writerLog_append, transportLog_append, decodedLog_append, (logs_transport _).1, (logs_transport _).2.1,
        (logs_transport _).2.2]
      exact ⟨rfl, List.append_nil _, rfl⟩
    have hnew : HasRead N c (log ++ (tevs.map .transport ++ [.decoded msg]))
        { s with transport := transport, extractor := extractor } (pairs ++ [(msg, packet)]) compressor' := by
      refine ⟨?_, hcompresses, hp, ?_, ?_⟩
      · rw [writerLog_append, hlogs.1, List.append_nil]
        exact hhanded
      · rw [decodedLog_append, hlogs.2.2, hread.decoded, List.map_append]
        rfl
      · rw [transportLog_append, hlogs.2.1, Carrier.read_append, htevs, hread.read, List.map_append]
        rfl
    refine ⟨?_, ?_, fun _ => ⟨_, _, hnew⟩⟩
    · simpa using h.failed
    · rw [hnew.decoded]
      exact hnew.handed.map _

theorem of_run (hN : N.Ordered) (hc : c.Agrees parse) (h : (machine N c).Run log s) : Reading N c log s := by
  refine h.invariant (I := Reading N c) .init ?_
  rintro log s a s' evs hr hi - ha
  exact hi.step hN hc hr ha

end Reading

/-- The peer gets the messages that can be encoded, in the order in which they were accepted. -/
structure Delivered (N : Carrier T A E) (c : Codec M σ τ ε ε') (log : List (Event M E)) (s : State T M σ τ) : Prop where
  first : decodedLog log <+: (WriteLoop.accepted (writerLog log)).filter c.writer.encodes
  failed : .failed ∉ log
  /-- A packet that the transport gives is extracted and decoded in enough rounds. -/
  next : ∀ a transport tevs packet, s.returned = false → N.write? a = none →
    N.machine.step s.transport a = some (transport, tevs) → N.read tevs = [packet] →
    ∃ fuel₀ x' msg, ∀ fuel ≥ fuel₀, step N c s (.transport a fuel) =
      some ({ s with transport := transport, extractor := x' }, tevs.map .transport ++ [.decoded msg])
  /-- Nothing is missing when the write loop waits for a message and `read` has returned all that was written. -/
  all : s.writer.pc = .selecting → s.writer.queue.recv = none → s.returned = false →
    N.read (transportLog log) = N.written (transportLog log) →
    decodedLog log = (WriteLoop.accepted (writerLog log)).filter c.writer.encodes

/-- Over a transport that keeps the order: no packet fails to be extracted or decoded, each of them is in finitely many
rounds, and the messages that come out are the first ones of those accepted that can be encoded; all of them, once nothing
is on its way. -/
theorem delivers (hN : N.Ordered) (hc : c.Agrees parse) (h : (machine N c).Run log s) : Delivered N c log s where
  first := (Reading.of_run hN hc h).first.trans (WriteLoop.Inv.of_run (writer_run h)).inOrder.handed
  failed := (Reading.of_run hN hc h).failed
  next a transport tevs packet hret hw hs hr := by
    obtain ⟨pairs, compressor, hread⟩ := (Reading.of_run hN hc h).pairs hret
    have hpre : N.read (transportLog log) ++ [packet] <+: (WriteLoop.handed (writerLog log)).map Prod.snd := by
      have hfirst := hN _ _ ((transport_run h).step trivial hs)
      rw [Carrier.read_append, Carrier.attempted_append, hr, Carrier.attempted, Carrier.attempted,
        (N.others _ _ _ _ hw hs).1, List.append_nil] at hfirst
      exact hfirst.trans (Sync.of_run h).attempted
    obtain ⟨msg, -, x', -, -, -, ⟨fuel₀, hfuel⟩, -⟩ := hread.next h hc hpre
    refine ⟨fuel₀, x', msg, fun fuel hf => ?_⟩
    simp only [step, hw, hs, hr, hret, hfuel fuel hf]
    rfl
  all hp hq hret hr := by
    have hwriter := WriteLoop.Inv.of_run (writer_run h)
    obtain ⟨hhanded, hwritten, -⟩ := hwriter.runs (by rw [hp]; rfl)
    have htaken := hwriter.carries.all (hwriter.opened (by rw [hp]; exact nofun)) hq
    obtain ⟨pairs, compressor, hhas⟩ := (Reading.of_run hN hc h).pairs hret
    have hpackets : N.read (transportLog log) = (WriteLoop.handed (writerLog log)).map Prod.snd := by
      rw [hr, (Sync.of_run h).written, hwritten, hp]
      exact (List.append_nil _).symm
    have hpairs : pairs = WriteLoop.handed (writerLog log) := by
      refine hhas.handed.eq_of_length ?_
      have hlen := congrArg List.length (hhas.read.symm.trans hpackets)
      simpa using hlen
    rw [hhas.decoded, hpairs, hhanded, htaken]

/-- Stored blocks with context takeover, and no message of more than two bytes. -/
def sampleCodec : Codec Bytes (Coder.OneShot UInt8) (Coder.OneShot UInt8) String String where
  encode := WriteLoop.sampleConfig.encode
  decode := .ok
  compression := Compression.new.enableWithWindowBits 6 9
  initC _ _ := {}
  initD _ := {}
  C := storedDeflater
  D := storedInflater
  compressor := { compressState := some {}, dictionary := some ⟨512, [], Nat.zero_le _⟩ }
  extractor := { decompressState := some {}, dictionary := some ⟨512, [], Nat.zero_le _⟩ }
  converters := rfl
  fuel := 4
  channelSize := 2

theorem sampleCodec_agrees : sampleCodec.Agrees parseStored where
  deflates := storedDeflater_deflates
  inflates := storedInflater_inflates
  decode msg buf he := by
    simp only [sampleCodec, WriteLoop.sampleConfig] at he
    split at he <;> cases he
    rfl
  blank := ⟨[], rfl⟩

end Link

end Iscp.Wire
