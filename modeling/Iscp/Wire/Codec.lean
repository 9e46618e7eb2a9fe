import Iscp.Transport.Takeover
import Iscp.Wire.WriteLoop

/-!
# From a message to a packet and back

What the two ends of a connection are set up with, and what becomes of a message between the write loop of the one and
the read loop of the other: it is encoded and compressed, and extracted and decoded. `fuel` bounds the rounds of the
loops in `compress` and `extract`.
-/

namespace Iscp.Wire

open Iscp.Transport
open Coder (Inflates Deflates Parse)

variable {M σ τ ε ε' : Type}

/-- The settings of the two ends, which are the same. -/
structure Codec (M σ τ ε ε' : Type) where
  encode : M → Except String Bytes
  decode : Bytes → Except String M
  compression : Compression
  initC : Int8 → Option UInt8 → σ
  initD : Option UInt8 → τ
  C : Coder σ UInt8 ε
  D : Coder τ UInt8 ε'
  compressor : Compressor σ
  extractor : Extractor τ
  converters : compression.converters initC initD = some (compressor, extractor)
  fuel : Nat
  channelSize : Nat

namespace Codec

variable {c : Codec M σ τ ε ε'} {msg : M}

def writer (c : Codec M σ τ ε ε') : WriteLoop.Config M (Compressor σ) ε where
  encode := c.encode
  compress compressor buf := compressor.compress c.C c.fuel buf
  compressor := c.compressor
  channelSize := c.channelSize

/-- The extraction and the decoding of the buffer, with the message if neither fails; `none` if `fuel` rounds are not
enough. -/
def convert (c : Codec M σ τ ε ε') (fuel : Nat) (extractor : Extractor τ) (buf : Bytes) :
    Option (Extractor τ × Option M) :=
  match extractor.extract c.D fuel buf with
  | none => none
  | some (extractor, .error _) => some (extractor, none)
  | some (extractor, .ok buf) => some (extractor, (c.decode buf).toOption)

/-- The coders keep to the deflate format, and the decoder reads what the encoder writes; an empty buffer is decoded to
some message. -/
structure Agrees (c : Codec M σ τ ε ε') (parse : Bytes → Bytes → Parse UInt8) : Prop where
  deflates : Deflates c.C parse
  inflates : Inflates c.D parse
  decode : ∀ msg buf, c.encode msg = .ok buf → c.decode buf = .ok msg
  blank : ∃ msg, c.decode [] = .ok msg

variable {parse : Bytes → Bytes → Parse UInt8}

/-- What the compressor made of a message is extracted and decoded to that message, with enough rounds, and with no
number of rounds to anything else. -/
theorem convert_packet (hc : c.Agrees parse) {compressor compressor' : Compressor σ} {x : Extractor τ} {buf packet : Bytes}
    (hp : Paired compressor x) (he : c.encode msg = .ok buf)
    (hs : compressor.compress c.C c.fuel buf = some (compressor', .ok packet)) :
    ∃ x', Paired compressor' x' ∧ (∃ fuel₀, ∀ fuel ≥ fuel₀, c.convert fuel x packet = some (x', some msg)) ∧
      ∀ fuel r, c.convert fuel x packet = some r → r = (x', some msg) := by
  obtain ⟨fuel₀, compressor'', packet', hpass⟩ := Paired.passes (D := c.D) hc.deflates hc.inflates compressor buf
  obtain ⟨hcompress, hextract⟩ := hpass (max fuel₀ c.fuel) (le_max_left ..)
  rw [Compressor.compress_mono hs (le_max_right ..)] at hcompress
  cases hcompress
  obtain ⟨x', hx, hp'⟩ := hextract x hp
  have hconvert {fuel : Nat} (hf : x.extract c.D fuel packet = some (x', .ok buf)) :
      c.convert fuel x packet = some (x', some msg) := by
    rw [convert, hf]
    simp only [hc.decode msg buf he]
    rfl
  refine ⟨x', hp', ⟨max fuel₀ c.fuel, fun fuel hf => hconvert (Extractor.extract_mono hx hf)⟩, fun fuel r hr => ?_⟩
  cases hxf : x.extract c.D fuel packet with
  | none =>
    rw [convert, hxf] at hr
    cases hr
  | some r' =>
    have hr' := Extractor.extract_mono hxf (le_max_right (max fuel₀ c.fuel) fuel)
    rw [Extractor.extract_mono hx (le_max_left ..)] at hr'
    cases hr'
    rw [hconvert hxf] at hr
    exact (Option.some.inj hr).symm

/-- Of an empty buffer no harm is done. -/
theorem convert_nil (hc : c.Agrees parse) {compressor : Compressor σ} {x : Extractor τ} {fuel : Nat}
    {r : Extractor τ × Option M} (hp : Paired compressor x) (hr : c.convert fuel x [] = some r) :
    Paired compressor r.1 ∧ r.2.isSome := by
  obtain ⟨x', hx, hp'⟩ := hp.extract_nil hc.inflates (Nat.succ_pos fuel)
  obtain ⟨msg, hmsg⟩ := hc.blank
  cases hxf : x.extract c.D fuel [] with
  | none =>
    rw [convert, hxf] at hr
    cases hr
  | some r' =>
    have hr' := Extractor.extract_mono hxf (Nat.le_succ fuel)
    rw [hx] at hr'
    cases hr'
    rw [convert, hxf] at hr
    simp only [hmsg] at hr
    cases hr
    exact ⟨hp', rfl⟩

/-! ### Without context takeover -/

theorem dictionary_eq_none (hw : c.compression.windowBits = none) : c.compressor.dictionary = none := by
  have h := c.converters
  unfold Compression.converters at h
  cases hl : c.compression.level with
  | none =>
    rw [hl] at h
    exact congrArg (fun p => p.1.dictionary) (Option.some.inj h).symm
  | some level =>
    rw [hl, hw] at h
    exact congrArg (fun p => p.1.dictionary) (Option.some.inj h).symm

/-- As good as the compressor at the start. -/
structure Plain (c : Codec M σ τ ε ε') (compressor : Compressor σ) : Prop where
  on : compressor.compressState.isSome = c.compressor.compressState.isSome
  dictionary : compressor.dictionary = none

namespace Plain

variable {compressor compressor' : Compressor σ} {x : Extractor τ}

theorem compress (h : Plain c compressor) {fuel : Nat} {buf : Bytes} {r : Except ε Bytes}
    (hs : compressor.compress c.C fuel buf = some (compressor', r)) : Plain c compressor' := by
  have hon := h.on
  unfold Compressor.compress at hs
  split at hs
  · cases hs
    exact h
  · rename_i hst
    rw [hst] at hon
    split at hs
    · cases hs
      exact ⟨hon, h.dictionary⟩
    · split at hs
      · cases hs
      all_goals
        cases hs
        exact ⟨hon, by rw [h.dictionary]; rfl⟩

theorem paired (h : Plain c compressor) (hw : c.compression.windowBits = none) :
    Paired compressor x ↔ Paired c.compressor x := by
  have hdictionary := h.dictionary.trans (dictionary_eq_none hw).symm
  exact ⟨fun hp => ⟨h.on ▸ hp.on, hdictionary ▸ hp.dictionary⟩, fun hp => ⟨h.on ▸ hp.on, hdictionary ▸ hp.dictionary⟩⟩

end Plain

/-- The packet is read as the message, whatever was read before it. -/
structure Reads (c : Codec M σ τ ε ε') (packet : Bytes) (msg : M) : Prop where
  ne_nil : packet ≠ []
  convert : ∀ x, Paired c.compressor x → ∃ x', Paired c.compressor x' ∧
    (∃ fuel₀, ∀ fuel ≥ fuel₀, c.convert fuel x packet = some (x', some msg)) ∧
      ∀ fuel r, c.convert fuel x packet = some r → r = (x', some msg)

theorem Reads.unique {packet : Bytes} {msg msg' : M} (h : c.Reads packet msg) (h' : c.Reads packet msg') : msg = msg' := by
  obtain ⟨x, -, ⟨fuel, hx⟩, -⟩ := h.convert c.extractor (.of_converters c.converters)
  obtain ⟨x', -, -, hunique⟩ := h'.convert c.extractor (.of_converters c.converters)
  cases hunique fuel _ (hx fuel le_rfl)
  rfl

theorem reads_of_compresses (hc : c.Agrees parse) (hw : c.compression.windowBits = none)
    (hne : ∀ msg, c.encode msg ≠ .ok []) {pairs : List (M × Bytes)} {compressor : Compressor σ}
    (h : WriteLoop.Compresses c.writer pairs compressor) :
    Plain c compressor ∧ ∀ pair ∈ pairs, c.Reads pair.2 pair.1 := by
  induction h with
  | nil => exact ⟨⟨rfl, dictionary_eq_none hw⟩, nofun⟩
  | snoc h he hs ih =>
    rename_i pairs msg buf packet compressor compressor'
    obtain ⟨hplain, hall⟩ := ih
    have hplain' := hplain.compress hs
    refine ⟨hplain', List.forall_mem_append.2 ⟨hall, List.forall_mem_singleton.2 ⟨?_, fun x hx => ?_⟩⟩⟩
    · -- An empty packet would be extracted to nothing.
      rintro rfl
      obtain ⟨fuel₀, _, _, hpass⟩ := Paired.passes (D := c.D) hc.deflates hc.inflates compressor buf
      obtain ⟨hcompress, hextract⟩ := hpass (max (fuel₀ + 1) c.fuel) (by omega)
      rw [Compressor.compress_mono hs (le_max_right ..)] at hcompress
      cases hcompress
      have hp : Paired compressor c.extractor := (hplain.paired hw).2 (.of_converters c.converters)
      obtain ⟨x', hx, -⟩ := hextract _ hp
      obtain ⟨x'', hnil, -⟩ := hp.extract_nil hc.inflates (show 0 < max (fuel₀ + 1) c.fuel by omega)
      rw [hx] at hnil
      cases hnil
      exact hne msg he
    · obtain ⟨x', hp', hconvert⟩ := convert_packet hc ((hplain.paired hw).2 hx) he hs
      exact ⟨x', (hplain'.paired hw).1 hp', hconvert⟩

end Codec

/-! ### Histories of a link -/

/-- What happens at the two ends of a link, with the events `T` of what is between them. -/
inductive LinkEvent (M T : Type)
  | writer (e : WriteLoop.Event M)
  | transport (e : T)
  /-- A message that was read, or what an empty buffer is decoded to. -/
  | decoded (msg : M)
  | blank (msg : M)
  /-- The extraction or the decoding of a packet fails, or that of an empty buffer. -/
  | failed

namespace LinkEvent

variable {T : Type}

def writer? : LinkEvent M T → Option (WriteLoop.Event M)
  | writer e => some e
  | _ => none

def transport? : LinkEvent M T → Option T
  | transport e => some e
  | _ => none

def decoded? : LinkEvent M T → Option M
  | decoded msg => some msg
  | _ => none

def writerLog (log : List (LinkEvent M T)) : List (WriteLoop.Event M) := log.filterMap writer?

def transportLog (log : List (LinkEvent M T)) : List T := log.filterMap transport?

/-- The messages that the read loop of the peer goes on with. -/
def decodedLog (log : List (LinkEvent M T)) : List M := log.filterMap decoded?

theorem logs_writer (es : List (WriteLoop.Event M)) : writerLog (es.map (writer (T := T))) = es ∧
    transportLog (es.map (writer (T := T))) = [] ∧ decodedLog (es.map (writer (T := T))) = [] := by
  refine ⟨?_, ?_, ?_⟩
  · rw [writerLog, List.filterMap_map]
    exact List.filterMap_some
  · exact List.filterMap_eq_nil_iff.2 (List.forall_mem_map.2 fun _ _ => rfl)
  · exact List.filterMap_eq_nil_iff.2 (List.forall_mem_map.2 fun _ _ => rfl)

theorem logs_transport (es : List T) : transportLog (es.map (transport (M := M))) = es ∧
    writerLog (es.map (transport (M := M))) = [] ∧ decodedLog (es.map (transport (M := M))) = [] := by
  refine ⟨?_, ?_, ?_⟩
  · rw [transportLog, List.filterMap_map]
    exact List.filterMap_some
  · exact List.filterMap_eq_nil_iff.2 (List.forall_mem_map.2 fun _ _ => rfl)
  · exact List.filterMap_eq_nil_iff.2 (List.forall_mem_map.2 fun _ _ => rfl)

@[simp] theorem writerLog_append (log evs : List (LinkEvent M T)) :
    writerLog (log ++ evs) = writerLog log ++ writerLog evs := List.filterMap_append

@[simp] theorem transportLog_append (log evs : List (LinkEvent M T)) :
    transportLog (log ++ evs) = transportLog log ++ transportLog evs := List.filterMap_append

@[simp] theorem decodedLog_append (log evs : List (LinkEvent M T)) :
    decodedLog (log ++ evs) = decodedLog log ++ decodedLog evs := List.filterMap_append

end LinkEvent

end Iscp.Wire
