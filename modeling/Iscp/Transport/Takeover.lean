import Iscp.Transport.Extraction
import Mathlib.Data.List.ReduceOption

/-!
# Messages through a compressor and an extractor

The two ends of a connection keep a dictionary each, and nothing but the messages themselves keeps the
two equal: the compressor adds a message before it codes it, with the dictionary before, and the
extractor when it has decoded it. An empty buffer, which the read loop extracts after every command,
leaves the dictionary as it is.
-/

namespace Iscp.Transport

open Coder (Inflates Deflates Parse)

variable {σ τ ε ε' : Type} {C : Coder σ UInt8 ε} {D : Coder τ UInt8 ε'}
  {parse : Bytes → Bytes → Parse UInt8} {c c' : Compressor σ} {x : Extractor τ} {fuel : Nat}

/-- What the messages become, each with the dictionary of the compressor after it. -/
def Compressor.compressAll (C : Coder σ UInt8 ε) (fuel : Nat) :
    Compressor σ → List Bytes → Option (List (Bytes × Option DictionaryBuffer))
  | _, [] => some []
  | c, msg :: msgs =>
    match c.compress C fuel msg with
    | some (c, .ok packet) => (c.compressAll C fuel msgs).map ((packet, c.dictionary) :: ·)
    | _ => none

/-- What is extracted, each with the dictionary of the extractor after it. Where there is `none` in place
of a packet, the buffer is empty, and so it is to remain. -/
def Extractor.extractAll (D : Coder τ UInt8 ε) (fuel : Nat) :
    Extractor τ → List (Option Bytes) → Option (List (Bytes × Option DictionaryBuffer))
  | _, [] => some []
  | x, none :: packets =>
    match x.extract D fuel [] with
    | some (x, .ok []) => x.extractAll D fuel packets
    | _ => none
  | x, some packet :: packets =>
    match x.extract D fuel packet with
    | some (x, .ok msg) => (x.extractAll D fuel packets).map ((msg, x.dictionary) :: ·)
    | _ => none

/-- The two ends have the same setting and the same dictionary. -/
structure Paired (c : Compressor σ) (x : Extractor τ) : Prop where
  on : c.compressState.isSome = x.decompressState.isSome
  dictionary : c.dictionary = x.dictionary

namespace Paired

theorem extract_nil (h : Paired c x) (hD : Inflates D parse) (hf : 0 < fuel) :
    ∃ x', x.extract D fuel [] = some (x', .ok []) ∧ Paired c x' := by
  obtain ⟨fuel, rfl⟩ : ∃ n, fuel = n + 1 := ⟨fuel - 1, by omega⟩
  rcases hx : x.decompressState with _ | st
  · exact ⟨x, by rw [Extractor.extract, hx], h⟩
  · obtain ⟨x', hr, hon, hdict⟩ := Extractor.extract_nil hD hx fuel
    exact ⟨x', hr, by rw [h.on, hx, hon]; rfl, h.dictionary.trans hdict.symm⟩

/-- One message, from the one end to the other. -/
theorem passes (hC : Deflates C parse) (hD : Inflates D parse) (c : Compressor σ) (msg : Bytes) :
    ∃ fuel₀ c' packet, ∀ fuel ≥ fuel₀, c.compress C fuel msg = some (c', .ok packet) ∧
      ∀ x : Extractor τ, Paired c x →
        ∃ x', x.extract D fuel packet = some (x', .ok msg) ∧ Paired c' x' := by
  rcases hc : c.compressState with _ | st
  · refine ⟨0, c, msg, fun fuel _ => ⟨by rw [Compressor.compress, hc], fun x h => ⟨x, ?_, h⟩⟩⟩
    have hx : x.decompressState = none := by
      have := h.on
      rw [hc] at this
      exact Option.not_isSome_iff_eq_none.1 (by simp [← this])
    rw [Extractor.extract, hx]
  · obtain ⟨st', hs⟩ := hC.start st (dictionaryBytes c.dictionary)
    have hroom : msg = [] ∨ 0 < (c.buffer.clear.reserve msg.length).room := by
      refine or_iff_not_imp_left.2 fun hm => ?_
      exact Nat.lt_of_lt_of_le (List.length_pos_iff.2 hm) (Vec.le_room_reserve ..)
    obtain ⟨fuel₀, st'', buffer, hr, hp⟩ := hC.drive_ends
      bufferIncrementSize_pos hs (by rw [Vec.items_reserve, Vec.items_clear]) hroom
    refine ⟨max fuel₀ (buffer.items.length + msg.length + 1),
      { compressState := some st'', buffer, dictionary := c.dictionary.map (·.pushMsg msg) },
      buffer.items, fun fuel hf => ⟨?_, fun x h => ?_⟩⟩
    · simp only [Compressor.compress, hc, hs, hr fuel (by omega)]
    · obtain ⟨st, hx⟩ : ∃ st, x.decompressState = some st := by
        have := h.on
        rw [hc] at this
        exact Option.isSome_iff_exists.1 this.symm
      rw [h.dictionary] at hp ⊢
      rcases hp with hp | ⟨rfl, hp⟩
      · obtain ⟨x', r, hx', hspec⟩ := Extractor.extract_spec hD hx buffer.items
          (by rw [Extractor.verdict, hp]; simp)
          (show _ < fuel by rw [hp]; show buffer.items.length + msg.length < fuel; omega)
        rw [Extractor.verdict, hp] at hspec
        cases r with
        | ok out =>
          obtain ⟨hon, _, rfl, hdict⟩ := hspec
          exact ⟨x', hx', hon.symm, hdict.symm⟩
        | error e => cases hspec
      · -- Nothing was sent for an empty message.
        obtain ⟨fuel, rfl⟩ : ∃ n, fuel = n + 1 := ⟨fuel - 1, by omega⟩
        obtain ⟨x', hr, hon, hdict⟩ := Extractor.extract_nil hD hx fuel
        rw [hp]
        refine ⟨x', hr, hon.symm, ?_⟩
        rw [hdict]
        cases x.dictionary <;> simp

theorem extractAll_of_reduceOption {D : Coder τ UInt8 ε'} {packet : Bytes} {packets : List Bytes}
    {msg : Bytes} {rest : List (Bytes × Option DictionaryBuffer)} (hD : Inflates D parse)
    (hf : 0 < fuel)
    (hpass : ∀ x : Extractor τ, Paired c x →
      ∃ x', x.extract D fuel packet = some (x', .ok msg) ∧ Paired c' x')
    (hrest : ∀ x : Extractor τ, Paired c' x → ∀ ins, ins.reduceOption = packets →
      x.extractAll D fuel ins = some rest)
    {ins : List (Option Bytes)} (hins : ins.reduceOption = packet :: packets) (h : Paired c x) :
    x.extractAll D fuel ins = some ((msg, c'.dictionary) :: rest) := by
  induction ins generalizing x with
  | nil => cases hins
  | cons i ins ih =>
    cases i with
    | none =>
      obtain ⟨x', hr, h'⟩ := h.extract_nil hD hf
      simp only [Extractor.extractAll, hr]
      exact ih (by rwa [List.reduceOption_cons_of_none] at hins) h'
    | some p =>
      rw [List.reduceOption_cons_of_some] at hins
      obtain ⟨rfl, hrem⟩ := List.cons.inj hins
      obtain ⟨x', hr, h'⟩ := hpass x h
      simp only [Extractor.extractAll, hr, hrest x' h' ins hrem, Option.map_some, h'.dictionary]

theorem extractAll_nil (hD : Inflates D parse) (hf : 0 < fuel) {ins : List (Option Bytes)}
    (hins : ins.reduceOption = []) (h : Paired c x) : x.extractAll D fuel ins = some [] := by
  induction ins generalizing x with
  | nil => rfl
  | cons i ins ih =>
    cases i with
    | none =>
      obtain ⟨x', hr, h'⟩ := h.extract_nil hD hf
      simp only [Extractor.extractAll, hr]
      exact ih (by rwa [List.reduceOption_cons_of_none] at hins) h'
    | some p => rw [List.reduceOption_cons_of_some] at hins; cases hins

/-- All messages, whatever empty buffers come between them. -/
theorem passes_all (hC : Deflates C parse) (hD : Inflates D parse) (msgs : List Bytes) :
    ∀ c : Compressor σ, ∃ fuel₀, ∀ fuel ≥ fuel₀, ∃ packets,
      c.compressAll C fuel msgs = some packets ∧
      ∀ x : Extractor τ, Paired c x → ∀ ins : List (Option Bytes),
        ins.reduceOption = packets.map (·.1) →
          x.extractAll D fuel ins = some (msgs.zip (packets.map (·.2))) := by
  induction msgs with
  | nil =>
    refine fun c => ⟨1, fun fuel hf => ⟨[], rfl, fun x h ins hins => ?_⟩⟩
    exact extractAll_nil hD hf hins h
  | cons msg msgs ih =>
    intro c
    obtain ⟨fuel₁, c', packet, hpass⟩ := passes (D := D) hC hD c msg
    obtain ⟨fuel₂, hall⟩ := ih c'
    refine ⟨max (max fuel₁ fuel₂) 1, fun fuel hf => ?_⟩
    obtain ⟨hr, hx⟩ := hpass fuel (by omega)
    obtain ⟨packets, hp, hrest⟩ := hall fuel (by omega)
    refine ⟨(packet, c'.dictionary) :: packets, ?_, fun x h ins hins => ?_⟩
    · simp only [Compressor.compressAll, hr, hp, Option.map_some]
    · exact extractAll_of_reduceOption hD (by omega) hx hrest hins h

theorem converters (s : Compression) (hw : ∀ w ∈ s.windowBits, 9 ≤ w ∧ w ≤ 15)
    (initC : Int8 → Option UInt8 → σ) (initD : Option UInt8 → τ) :
    ∃ c x, s.converters initC initD = some (c, x) ∧ Paired c x := by
  have hdict : ∃ d, newDictionary s.windowBits = some d := by
    rcases h : s.windowBits with _ | w
    · exact ⟨none, rfl⟩
    · rw [newDictionary, DictionaryBuffer.new, if_pos (hw w h)]
      exact ⟨_, rfl⟩
  obtain ⟨d, hd⟩ := hdict
  rcases hl : s.level with _ | level
  · exact ⟨_, _, by simp only [Compression.converters, hl]; rfl, rfl, rfl⟩
  · exact ⟨_, _, by simp only [Compression.converters, hl, Compressor.new, Extractor.new, hd]; rfl,
      rfl, rfl⟩

/-- What is made of one setting goes together. -/
theorem of_converters {s : Compression} {initC : Int8 → Option UInt8 → σ} {initD : Option UInt8 → τ}
    (h : s.converters initC initD = some (c, x)) : Paired c x := by
  unfold Compression.converters at h
  rcases hl : s.level with _ | level
  · rw [hl] at h
    cases h
    exact ⟨rfl, rfl⟩
  · rcases hd : newDictionary s.windowBits with _ | dictionary
    · simp [hl, Compressor.new, hd] at h
    · simp only [hl, Compressor.new, Extractor.new, hd] at h
      cases h
      exact ⟨rfl, rfl⟩

end Paired

/-- With any setting, what comes out of the extractor is what went into the compressor, message for
message and with equal dictionaries, however many empty buffers are extracted in between. -/
theorem extract_compress (hC : Deflates C parse) (hD : Inflates D parse) (s : Compression)
    (hw : ∀ w ∈ s.windowBits, 9 ≤ w ∧ w ≤ 15) (initC : Int8 → Option UInt8 → σ)
    (initD : Option UInt8 → τ) (msgs : List Bytes) :
    ∃ c x, s.converters initC initD = some (c, x) ∧
      ∃ fuel₀, ∀ fuel ≥ fuel₀, ∃ packets, c.compressAll C fuel msgs = some packets ∧
        ∀ ins : List (Option Bytes), ins.reduceOption = packets.map (·.1) →
          x.extractAll D fuel ins = some (msgs.zip (packets.map (·.2))) := by
  obtain ⟨c, x, hs, h⟩ := Paired.converters s hw initC initD
  obtain ⟨fuel₀, hall⟩ := Paired.passes_all hC hD msgs c
  refine ⟨c, x, hs, fuel₀, fun fuel hf => ?_⟩
  obtain ⟨packets, hp, hx⟩ := hall fuel hf
  exact ⟨packets, hp, hx x h⟩

def storedDeflater : Coder (Coder.OneShot UInt8) UInt8 String :=
  Coder.deflater fun _ => Stored.encode

theorem storedDeflater_deflates : Deflates storedDeflater parseStored :=
  Coder.deflater_deflates fun _ => Stored.parse_encode

/-- Two messages with context takeover, in stored blocks. -/
theorem extract_compress_two :
    ∃ c x, (Compression.new.enableWithWindowBits 6 9).converters (fun _ _ => {}) (fun _ => {}) =
        some (c, x) ∧
      ∃ fuel₀, ∀ fuel ≥ fuel₀, ∃ packets,
        c.compressAll storedDeflater fuel [[65], [66, 67]] = some packets ∧
        ∀ ins : List (Option Bytes), ins.reduceOption = packets.map (·.1) →
          x.extractAll storedInflater fuel ins =
            some ([[65], [66, 67]].zip (packets.map (·.2))) :=
  extract_compress storedDeflater_deflates storedInflater_inflates _
    (fun w hw => by obtain rfl := Option.some.inj hw; decide) _ _ _

example : (Compressor.new (fun _ _ => {}) (some 6) (some 9)).bind
    (fun c => (c.compressAll storedDeflater 4 [[65], [66, 67]]).map fun packets =>
      packets.map fun p => (p.1, dictionaryBytes p.2)) =
    some [([1, 1, 0, 254, 255, 65], [65]), ([1, 2, 0, 253, 255, 66, 67], [65, 66, 67])] := by
  decide +kernel

end Iscp.Transport
