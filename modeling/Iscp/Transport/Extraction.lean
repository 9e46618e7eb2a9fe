import Iscp.Lib.OneShot
import Iscp.Lib.Stored
import Iscp.Transport.Compression

/-!
# When extraction ends

The loop of `extract` goes on after `BufError` as soon as something was consumed, to make room for more
output. At the end of the input nothing but the end of the stream stops it: of a stream that was cut off
it waits for the rest for ever.
-/

namespace Iscp.Transport

open Coder (Inflates Session Parse Verdict)

variable {τ ε : Type} {D : Coder τ UInt8 ε} {parse : Bytes → Bytes → Parse UInt8} {x : Extractor τ}
  {data : Bytes} {st st' : τ} {fuel : Nat}

namespace Extractor

/-- What the received bytes are, by the dictionary of the extractor. -/
def verdict (parse : Bytes → Bytes → Parse UInt8) (x : Extractor τ) (data : Bytes) : Verdict :=
  (parse (dictionaryBytes x.dictionary) data).verdict

theorem room_pos (x : Extractor τ) (hd : data ≠ []) :
    0 < (x.buffer.clear.reserve (data.length * 2)).room := by
  have := Vec.le_room_reserve x.buffer.clear (data.length * 2)
  have := List.length_pos_iff.2 hd
  omega

theorem extract_spec (h : Inflates D parse) (hx : x.decompressState = some st) (data : Bytes)
    (hv : x.verdict parse data ≠ .truncated)
    (hfuel : data.length + (parse (dictionaryBytes x.dictionary) data).output.length < fuel) :
    ∃ x' r, x.extract D fuel data = some (x', r) ∧
      match r with
      | .ok out => x'.decompressState.isSome ∧ x.verdict parse data = .complete ∧
          out = (parse (dictionaryBytes x.dictionary) data).output ∧
          x'.dictionary = x.dictionary.map (·.pushMsg out)
      | .error _ => x.verdict parse data = .malformed := by
  obtain ⟨st', hs⟩ := h.start st (dictionaryBytes x.dictionary)
  have hd : data ≠ [] := by
    rintro rfl
    exact hv (by rw [verdict, h.nil])
  obtain ⟨⟨st'', buffer, result⟩, hr, hfits⟩ := h.drive_ends bufferIncrementSize_pos hv
    (by rw [Vec.items_reserve, Vec.items_clear]; exact .start hs) (x.room_pos hd)
    (show _ < fuel by rw [Vec.items_reserve, Vec.items_clear, Coder.remaining, List.length_nil]; omega)
  simp only [extract, hx, hs, hr]
  cases result with
  | ok _ => exact ⟨_, _, rfl, rfl, hfits.1, hfits.2, rfl⟩
  | error e => exact ⟨_, _, rfl, hfits⟩

/-- Of an empty buffer nothing is extracted, and nothing but the coder changes. -/
theorem extract_nil (h : Inflates D parse) (hx : x.decompressState = some st) (fuel : Nat) :
    ∃ x', x.extract D (fuel + 1) [] = some (x', .ok []) ∧ x'.decompressState.isSome ∧
      x'.dictionary = x.dictionary := by
  obtain ⟨st', hs⟩ := h.start st (dictionaryBytes x.dictionary)
  obtain ⟨st'', buffer, hr, hb⟩ := h.drive_nil bufferIncrementSize fuel hs
    (show (x.buffer.clear.reserve ([] : Bytes).length).items = [] by
      rw [Vec.items_reserve, Vec.items_clear])
  refine ⟨{ decompressState := some st'', buffer, dictionary := x.dictionary }, ?_, rfl, rfl⟩
  have hdict : x.dictionary.map (·.pushMsg []) = x.dictionary := by
    cases x.dictionary <;> simp
  simp only [extract, hx, hs, List.length_nil, Nat.zero_mul] at hr ⊢
  simp only [hr, hb, hdict]

theorem extract_truncated (h : Inflates D parse) (hx : x.decompressState = some st)
    (hd : data ≠ []) (hv : x.verdict parse data = .truncated) : x.extract D fuel data = none := by
  obtain ⟨st', hs⟩ := h.start st (dictionaryBytes x.dictionary)
  have hr := h.drive_truncated bufferIncrementSize_pos fuel hv hd
    (by rw [Vec.items_reserve, Vec.items_clear]; exact .start hs) (x.room_pos hd)
  simp only [extract, hx, hs, hr]

end Extractor

/-- The loop of `extract` ends exactly when compression is off, or the bytes are none at all, or they are
not the beginning of a stream that goes on. -/
theorem extract_ends_iff (h : Inflates D parse) (x : Extractor τ) (data : Bytes) :
    (∃ fuel r, x.extract D fuel data = some r) ↔
      x.decompressState = none ∨ data = [] ∨ x.verdict parse data ≠ .truncated := by
  constructor
  · rintro ⟨fuel, r, hr⟩
    rcases hx : x.decompressState with _ | st
    · exact .inl rfl
    · refine .inr (or_iff_not_imp_left.2 fun hd hv => ?_)
      rw [Extractor.extract_truncated h hx hd hv] at hr
      cases hr
  · intro hc
    rcases hx : x.decompressState with _ | st
    · exact ⟨0, _, by rw [Extractor.extract, hx]⟩
    · rcases hc with hc | rfl | hv
      · rw [hx] at hc
        cases hc
      · obtain ⟨x', hr, -⟩ := Extractor.extract_nil h hx 0
        exact ⟨1, _, hr⟩
      · obtain ⟨x', r, hr, -⟩ := Extractor.extract_spec h hx data hv (Nat.lt_succ_self _)
        exact ⟨_, _, hr⟩

/-! ### A coder of stored blocks -/

/-- Stored blocks need no dictionary. -/
def parseStored (_ data : Bytes) : Parse UInt8 := Stored.parse data

def storedInflater : Coder (Coder.OneShot UInt8) UInt8 String :=
  Coder.inflater parseStored "deflate decompression error"

theorem storedInflater_inflates : Inflates storedInflater parseStored :=
  Coder.inflater_inflates (fun _ => Stored.parse_nil) _

/-- An extractor of the setting without context takeover. -/
def freshExtractor : Extractor (Coder.OneShot UInt8) :=
  { decompressState := some {}, dictionary := none }

/-- A block of two bytes, of which one is there. -/
def cutOff : Bytes := [1, 2, 0, 253, 255, 65]

/-- The stored byte 65 is extracted, and the block that is cut off is waited for. -/
theorem extract_ends_iff_stored :
    (∃ fuel r, freshExtractor.extract storedInflater fuel [1, 1, 0, 254, 255, 65] = some r) ∧
      ¬ ∃ fuel r, freshExtractor.extract storedInflater fuel cutOff = some r := by
  refine ⟨(extract_ends_iff storedInflater_inflates _ _).2 (.inr (.inr (by decide))), fun h => ?_⟩
  have := (extract_ends_iff storedInflater_inflates _ _).1 h
  revert this
  decide

/-- The loop never ends, for a coder that keeps to the contract. -/
theorem extract_cut_off :
    ¬ ∀ (parse : Bytes → Bytes → Parse UInt8) (D : Coder (Coder.OneShot UInt8) UInt8 String),
      Inflates D parse → ∀ (x : Extractor (Coder.OneShot UInt8)) (data : Bytes),
        ∃ fuel r, x.extract D fuel data = some r := by
  intro h
  obtain ⟨fuel, r, hr⟩ := h parseStored storedInflater storedInflater_inflates freshExtractor cutOff
  rw [Extractor.extract_truncated storedInflater_inflates rfl (by decide) (by decide)] at hr
  cases hr

end Iscp.Transport
