import Iscp.Transport.Datagrams
import Iscp.Wire.Link

/-!
# The link over datagrams

The loops at the two ends of the unreliable part of a connection. What arrives is some of the messages in some order, so
that they can be extracted only where no message needs the ones before it: without context takeover.
-/

namespace Iscp.Wire.UnreliableLink

open Iscp.Transport
open LinkEvent (writerLog transportLog decodedLog logs_writer logs_transport writerLog_append transportLog_append decodedLog_append)
open Coder (Parse)

variable {M σ τ ε ε' : Type}

def write? : Datagrams.Action → Option Bytes
  | .write data _ => some data
  | .arrive .. => none

def sent? : Datagrams.Event → Option Bytes
  | .sent data => some data
  | _ => none

def written? : Datagrams.Event → Option Bytes
  | .written data => some data
  | _ => none

def read? : Datagrams.Event → Option Bytes
  | .read data => some data
  | _ => none

/-- `read` does not come to an end by itself. -/
def carrier (n : Datagrams.Config) : Carrier Datagrams.State Datagrams.Action Datagrams.Event where
  machine := Datagrams.machine n
  write? := write?
  attempted? := sent?
  written? := written?
  read? := read?
  closed _ := false
  start := rfl
  writes s a s' evs packet hw h := by
    have hs : Datagrams.Step s a s' evs := Datagrams.step_step h
    cases hs with
    | refused =>
      obtain rfl := Option.some.inj hw
      exact ⟨.refused, rfl⟩
    | written =>
      obtain rfl := Option.some.inj hw
      exact ⟨.written, rfl⟩
    | failed =>
      obtain rfl := Option.some.inj hw
      exact ⟨.failed, rfl⟩
    | arrived => cases hw
  others s a s' evs hw h := by
    have hs : Datagrams.Step s a s' evs := Datagrams.step_step h
    cases hs with
    | refused | written | failed => cases hw
    | arrived =>
      rename_i data _ _ _ _
      cases data with
      | none => exact ⟨rfl, rfl, Nat.zero_le 1⟩
      | some packet => exact ⟨rfl, rfl, Nat.le_refl 1⟩

variable {n : Datagrams.Config} {c : Codec M σ τ ε ε'} {s s' : Link.State Datagrams.State M σ τ}
  {log evs : List (Link.Event M Datagrams.Event)} {parse : Bytes → Bytes → Parse UInt8}

/-! ### What is read -/

/-- What the unreliable part is used for: messages that are encoded to something, without context takeover. -/
structure Unordered (c : Codec M σ τ ε ε') (parse : Bytes → Bytes → Parse UInt8) : Prop where
  agrees : c.Agrees parse
  windowBits : c.compression.windowBits = none
  encode : ∀ msg, c.encode msg ≠ .ok []

theorem reads_handed (hc : Unordered c parse) (h : (Link.machine (carrier n) c).Run log s) :
    ∀ pair ∈ WriteLoop.handed (writerLog log), c.Reads pair.2 pair.1 := by
  obtain ⟨compressor, hcompresses⟩ := (WriteLoop.Inv.of_run (Link.writer_run h)).packets
  exact (Codec.reads_of_compresses hc.agrees hc.windowBits hc.encode hcompresses).2

section

variable {tlog : List Datagrams.Event} {t : Datagrams.State}

/-- Each packet that is read is one of those that were sent. -/
theorem exists_places (hc : Unordered c parse) (h : (Link.machine (carrier n) c).Run log s)
    (hl : (WriteLoop.accepted (writerLog log)).length < 2 ^ 32) (ht : (Datagrams.machine n).Run tlog t)
    (hsent : Datagrams.sent tlog <+: (WriteLoop.handed (writerLog log)).map Prod.snd) :
    ∃ frames is, (Datagram.Splitter.new n.maxDatagramSize n.pos).splitAll (Datagrams.sent tlog) = some frames ∧
      Datagrams.Reads tlog frames is ∧
      (Datagrams.read tlog).map some = is.map fun i => ((WriteLoop.handed (writerLog log)).map Prod.snd)[i]? := by
  have hhanded := (WriteLoop.Inv.of_run (Link.writer_run h)).inOrder.handed
  have hne (data : Bytes) (hd : data ∈ Datagrams.sent tlog) : data ≠ [] := by
    obtain ⟨pair, hm, rfl⟩ := List.mem_map.1 (hsent.subset hd)
    exact (reads_handed hc h pair hm).ne_nil
  have hlen : (Datagrams.sent tlog).length < 2 ^ 32 := by
    have h₁ := hsent.length_le
    have h₂ := hhanded.length_le
    have h₃ := List.length_filter_le c.writer.encodes (WriteLoop.accepted (writerLog log))
    rw [List.length_map] at h₁ h₂
    omega
  obtain ⟨frames, is, hframes, hreads⟩ := Datagrams.exists_reads ht hne hlen
  refine ⟨frames, is, hframes, hreads, hreads.read.trans (List.map_congr_left fun i hi => ?_)⟩
  have hm : (Datagrams.sent tlog)[i]? ∈ (Datagrams.read tlog).map some :=
    hreads.read ▸ List.mem_map_of_mem (f := fun i => (Datagrams.sent tlog)[i]?) hi
  obtain ⟨packet, -, hp⟩ := List.mem_map.1 hm
  obtain ⟨rest, hrest⟩ := hsent
  rw [← hrest, List.getElem?_append_left (List.getElem?_eq_some_iff.1 hp.symm).1]

theorem reads_packet (hc : Unordered c parse) (h : (Link.machine (carrier n) c).Run log s)
    (hl : (WriteLoop.accepted (writerLog log)).length < 2 ^ 32) (ht : (Datagrams.machine n).Run tlog t)
    (hsent : Datagrams.sent tlog <+: (WriteLoop.handed (writerLog log)).map Prod.snd) {packet : Bytes}
    (hp : packet ∈ Datagrams.read tlog) : ∃ msg, c.Reads packet msg := by
  obtain ⟨-, is, -, -, hplaces⟩ := exists_places hc h hl ht hsent
  obtain ⟨i, -, hi⟩ := List.mem_map.1 (hplaces ▸ List.mem_map_of_mem hp)
  obtain ⟨pair, hm, rfl⟩ := List.mem_map.1 (List.mem_of_getElem? hi)
  exact ⟨pair.1, reads_handed hc h pair hm⟩

end

/-- A packet that a datagram completes, which is read next, is one of those that were sent. -/
theorem reads_next (hc : Unordered c parse) (h : (Link.machine (carrier n) c).Run log s)
    (hl : (WriteLoop.accepted (writerLog log)).length < 2 ^ 32) {a : Datagrams.Action} {transport : Datagrams.State}
    {tevs : List Datagrams.Event} {packet : Bytes} (hw : write? a = none)
    (hs : (Datagrams.machine n).step s.transport a = some (transport, tevs)) (hr : Datagrams.read tevs = [packet]) :
    ∃ msg, c.Reads packet msg := by
  refine reads_packet hc h hl ((Link.transport_run h).step (a := a) trivial hs) ?_ ?_
  · rw [Datagrams.sent_append, show Datagrams.sent tevs = [] from ((carrier n).others _ _ _ _ hw hs).1, List.append_nil]
    exact (Link.Sync.of_run h).attempted
  · rw [Datagrams.read_append, hr]
    exact List.mem_append_right _ (List.mem_singleton_self _)

/-- Nothing fails, and the packets that were read are decoded one by one. -/
structure Reading (c : Codec M σ τ ε ε') (log : List (Link.Event M Datagrams.Event)) (s : Link.State Datagrams.State M σ τ) :
    Prop where
  failed : .failed ∉ log
  paired : s.returned = false → Paired c.compressor s.extractor
  reads : List.Forall₂ c.Reads (Datagrams.read (transportLog log)) (decodedLog log)

namespace Reading

/-- Nothing is read. -/
theorem keep (h : Reading c log s) (hx : s'.returned = false → Paired c.compressor s'.extractor) (hf : .failed ∉ evs)
    (hd : decodedLog evs = []) (hr : Datagrams.read (transportLog evs) = []) : Reading c (log ++ evs) s' := by
  refine ⟨fun hm => (List.mem_append.1 hm).elim h.failed hf, hx, ?_⟩
  rw [decodedLog_append, hd, transportLog_append, Datagrams.read_append, hr, List.append_nil, List.append_nil]
  exact h.reads

theorem step (h : Reading c log s) (hc : Unordered c parse) (hr : (Link.machine (carrier n) c).Run log s)
    (hs : Link.Step (carrier n) c s s' evs) (hl : (WriteLoop.accepted (writerLog log)).length < 2 ^ 32) :
    Reading c (log ++ evs) s' := by
  cases hs with
  | writer =>
    exact h.keep h.paired (by simp) (logs_writer _).2.2 (by rw [(logs_writer _).2.1]; rfl)
  | wrote _ hw ht =>
    refine h.keep h.paired (by simp) ?_ ?_
    · rw [decodedLog_append, (logs_transport _).2.2, (logs_writer _).2.2, List.append_nil]
    · rw [transportLog_append, (logs_transport _).1, (logs_writer _).2.1, List.append_nil]
      exact ((carrier n).writes _ _ _ _ _ hw ht).2
  | transport _ _ hnone =>
    refine h.keep (fun hret => h.paired (Bool.or_eq_false_iff.1 hret).1) (by simp) (logs_transport _).2.2 ?_
    rw [(logs_transport _).1]
    exact hnone
  | stopped => exact h.keep nofun (by simp) rfl rfl
  | blank hret hconvert =>
    exact h.keep (fun _ => (Codec.convert_nil hc.agrees (h.paired hret) hconvert).1) (by simp) rfl rfl
  | blankFailed hret hconvert => cases (Codec.convert_nil hc.agrees (h.paired hret) hconvert).2
  | failed hret hw ht hread hconvert =>
    obtain ⟨msg, hreads⟩ := reads_next hc hr hl hw ht hread
    obtain ⟨x', -, -, hunique⟩ := hreads.convert _ (h.paired hret)
    cases hunique _ _ hconvert
  | read hret hw ht hread hconvert =>
    obtain ⟨msg, hreads⟩ := reads_next hc hr hl hw ht hread
    obtain ⟨x', hp, -, hunique⟩ := hreads.convert _ (h.paired hret)
    cases hunique _ _ hconvert
    refine ⟨by simpa using h.failed, fun _ => hp, ?_⟩
    rw [transportLog_append, transportLog_append, (logs_transport _).1, decodedLog_append, decodedLog_append,
      (logs_transport _).2.2, Datagrams.read_append, Datagrams.read_append, show Datagrams.read _ = [_] from hread]
    exact List.rel_append h.reads (.cons hreads .nil)

theorem of_run (hc : Unordered c parse) (h : (Link.machine (carrier n) c).Run log s)
    (hl : (WriteLoop.accepted (writerLog log)).length < 2 ^ 32) : Reading c log s := by
  refine h.invariant (I := fun log s => (WriteLoop.accepted (writerLog log)).length < 2 ^ 32 → Reading c log s)
    (fun _ => ⟨List.not_mem_nil, fun _ => .of_converters c.converters, .nil⟩) ?_ hl
  rintro log s a s' evs hr hi - ha hl
  rw [writerLog_append, WriteLoop.accepted, List.filterMap_append, List.length_append] at hl
  have hbefore := (Nat.le_add_right _ _).trans_lt hl
  exact (hi hbefore).step hc hr (Link.step_step ha) hbefore

end Reading

/-- What is decoded, by its places among the packets. -/
theorem decoded_places {packets : List Bytes} {msgs : List M} {pairs : List (M × Bytes)} (h : List.Forall₂ c.Reads packets msgs)
    (hall : ∀ pair ∈ pairs, c.Reads pair.2 pair.1) {is : List Nat}
    (hp : packets.map some = is.map fun i => (pairs.map Prod.snd)[i]?) :
    msgs.map some = is.map fun i => (pairs.map Prod.fst)[i]? := by
  induction h generalizing is with
  | nil =>
    obtain rfl := List.map_eq_nil_iff.1 hp.symm
    rfl
  | cons hr _ ih =>
    obtain ⟨i, is, rfl, hi, hrest⟩ := List.map_eq_cons_iff.1 hp.symm
    rw [List.getElem?_map] at hi
    obtain ⟨pair, hm, rfl⟩ := Option.map_eq_some_iff.1 hi
    rw [List.map_cons, List.map_cons, ih hrest.symm, List.getElem?_map, hm,
      hr.unique (hall pair (List.mem_of_getElem? hm))]
    rfl

/-- The peer gets some of the messages that can be encoded, in some order: those of which all datagrams arrive in time. -/
structure Delivered (n : Datagrams.Config) (c : Codec M σ τ ε ε') (log : List (Link.Event M Datagrams.Event))
    (s : Link.State Datagrams.State M σ τ) : Prop where
  failed : .failed ∉ log
  places : ∃ frames is, (Datagram.Splitter.new n.maxDatagramSize n.pos).splitAll (Datagrams.sent (transportLog log)) = some frames ∧
    Datagrams.Reads (transportLog log) frames is ∧
    (decodedLog log).map some = is.map fun i => ((WriteLoop.accepted (writerLog log)).filter c.writer.encodes)[i]?
  /-- A packet that a datagram completes is extracted and decoded in enough rounds. -/
  next : ∀ a transport tevs packet, s.returned = false → write? a = none →
    (Datagrams.machine n).step s.transport a = some (transport, tevs) → Datagrams.read tevs = [packet] →
    ∃ fuel₀ x' msg, ∀ fuel ≥ fuel₀, Link.step (carrier n) c s (.transport a fuel) =
      some ({ s with transport := transport, extractor := x' }, tevs.map .transport ++ [.decoded msg])

/-- Without context takeover, in every run in which fewer than 2^32 messages are accepted: the extraction and the decoding
never fail, and what comes out are messages that were accepted, each at most once, among them every one whose datagrams
arrive in time. -/
theorem unreliable_link_delivers (hc : Unordered c parse) (h : (Link.machine (carrier n) c).Run log s)
    (hl : (WriteLoop.accepted (writerLog log)).length < 2 ^ 32) : Delivered n c log s where
  failed := (Reading.of_run hc h hl).failed
  places := by
    obtain ⟨frames, is, hframes, hreads, hplaces⟩ :=
      exists_places hc h hl (Link.transport_run h) (Link.Sync.of_run h).attempted
    refine ⟨frames, is, hframes, hreads, ?_⟩
    have hdecoded := decoded_places (Reading.of_run hc h hl).reads (reads_handed hc h) hplaces
    refine hdecoded.trans (List.map_congr_left fun i hi => ?_)
    have hm : ((WriteLoop.handed (writerLog log)).map Prod.fst)[i]? ∈ (decodedLog log).map some :=
      hdecoded ▸ List.mem_map_of_mem (f := fun i => ((WriteLoop.handed (writerLog log)).map Prod.fst)[i]?) hi
    obtain ⟨msg, -, hmsg⟩ := List.mem_map.1 hm
    obtain ⟨rest, hrest⟩ := (WriteLoop.Inv.of_run (Link.writer_run h)).inOrder.handed
    rw [← hrest, List.getElem?_append_left (List.getElem?_eq_some_iff.1 hmsg.symm).1]
  next a transport tevs packet hret hw hs hr := by
    obtain ⟨msg, hreads⟩ := reads_next hc h hl hw hs hr
    obtain ⟨x', -, ⟨fuel₀, hfuel⟩, -⟩ := hreads.convert _ ((Reading.of_run hc h hl).paired hret)
    refine ⟨fuel₀, x', msg, fun fuel hf => ?_⟩
    have hw' : (carrier n).write? a = none := hw
    have hs' : (carrier n).machine.step s.transport a = some (transport, tevs) := hs
    have hr' : (carrier n).read tevs = [packet] := hr
    simp only [Link.step, hw', hs', hr', hret, hfuel fuel hf]
    rfl

/-- Stored blocks without context takeover; every message is encoded, with a byte before it. -/
def sampleCodec : Codec Bytes (Coder.OneShot UInt8) (Coder.OneShot UInt8) String String where
  encode msg := .ok (0 :: msg)
  decode buf := .ok buf.tail
  compression := Compression.new.enable 6
  initC _ _ := {}
  initD _ := {}
  C := storedDeflater
  D := storedInflater
  compressor := { compressState := some {}, dictionary := none }
  extractor := { decompressState := some {}, dictionary := none }
  converters := rfl
  fuel := 4
  channelSize := 2

theorem sampleCodec_unordered : Unordered sampleCodec parseStored where
  agrees :=
    { deflates := storedDeflater_deflates
      inflates := storedInflater_inflates
      decode := fun msg buf he => by
        cases he
        rfl
      blank := ⟨[], rfl⟩ }
  windowBits := rfl
  encode := nofun

/-- A message with its packet up to the network. -/
def passRun (msg packet : Bytes) : List (Link.Action Bytes Datagrams.Action) :=
  [.writer (.send msg), .writer .recv, .write (.write packet none)]

/-- The second message comes first; of the third one of two datagrams is lost. -/
theorem unreliable_link_delivers_three : ∃ log s, (Link.machine (carrier ⟨16, by decide, 0⟩) sampleCodec).Run log s ∧
    Delivered ⟨16, by decide, 0⟩ sampleCodec log s ∧ WriteLoop.accepted (writerLog log) = [[1], [2], [3, 4, 5]] ∧
      decodedLog log = [[2], [1]] := by
  obtain ⟨log, s, h, hr⟩ := Machine.Exec.exists_of_any (M := Link.machine (carrier ⟨16, by decide, 0⟩) sampleCodec)
    (C := fun _ _ _ => True)
    (passRun [1] [1, 2, 0, 253, 255, 0, 1] ++ passRun [2] [1, 2, 0, 253, 255, 0, 2] ++
      passRun [3, 4, 5] [1, 4, 0, 251, 255, 0, 3, 4, 5] ++
      ([.transport (.arrive 1 1 1) 4, .command 1, .transport (.arrive 0 1 2) 4, .transport (.arrive 0 2 3) 4] :
        List (Link.Action Bytes Datagrams.Action)))
    (P := fun log _ => WriteLoop.accepted (writerLog log) = [[1], [2], [3, 4, 5]] ∧ decodedLog log = [[2], [1]])
    (by decide +kernel)
  exact ⟨log, s, h, unreliable_link_delivers sampleCodec_unordered h (by rw [hr.1]; decide), hr⟩

end Iscp.Wire.UnreliableLink
