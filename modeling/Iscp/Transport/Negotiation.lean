import Iscp.Lib.PrefixCode
import Iscp.Transport.Datagram
import Iscp.Transport.Takeover

/-!
# Negotiation

What a connection says of its encoding and its compression when it is opened, in the form in which `quic.rs` writes it:
texts with their lengths before them, name after value. From it the peer makes its own compressor and extractor.
-/

namespace Iscp.Transport

open Datagram (putU16 readU16 readU16_putU16)

inductive EncodingName
  | protobuf

inductive CompressionType
  | perMessage
  | contextTakeover

structure NegotiationParams where
  encodingName : EncodingName
  compressionType : Option CompressionType
  compressionLevel : Option Int8
  compressionWindowBits : Option UInt8

/-- `ConnBuilder::negotiation_params`. -/
def Compression.negotiationParams (s : Compression) (encodingName : EncodingName) : NegotiationParams :=
  if s.enabled then
    { encodingName
      compressionType := some (if s.windowBits.isNone then .perMessage else .contextTakeover)
      compressionLevel := s.level
      compressionWindowBits := s.windowBits }
  else ⟨encodingName, none, none, none⟩

/-- The values of `serde_json` that the parameters are made into. -/
inductive Value
  | null
  | string (s : String)
  | number (n : Int)
deriving DecidableEq

/-- What is written of a value; `null` is passed over. -/
def Value.text? : Value → Option String
  | null => none
  | string s => some s
  | number n => some (toString n)

def EncodingName.value : EncodingName → Value
  | protobuf => .string "proto"

def CompressionType.value : CompressionType → Value
  | perMessage => .string "per-message"
  | contextTakeover => .string "context-takeover"

namespace NegotiationParams

/-- The map of `serde_json`, in the order of its keys. What is `None` is left out. -/
def toMap (p : NegotiationParams) : List (String × Value) :=
  (p.compressionLevel.map fun level => ("clevel", .number level.toInt)).toList ++
    (p.compressionType.map fun type => ("comp", type.value)).toList ++
    (p.compressionWindowBits.map fun windowBits => ("cwinbits", .number windowBits.toNat)).toList ++
    [("enc", p.encodingName.value)]

/-- A text with its length before it. -/
def put (err : String) (buf : Bytes) (text : String) : Except String Bytes :=
  if text.utf8ByteSize < 65536 then .ok (buf ++ putU16 (.ofNat text.utf8ByteSize) ++ text.toUTF8.data.toList)
  else .error err

/-- A round of the loop of `to_bytes`. -/
def putField (buf : Bytes) (f : String × Value) : Except String Bytes :=
  match f.2.text? with
  | none => .ok buf
  | some v => do
    let buf ← put "too long key for negotiation" buf f.1
    put "too long value for negotiation" buf v

def toBytes (p : NegotiationParams) : Except String Bytes := p.toMap.foldlM putField []

/-! ### What is written can be read -/

def utf8 (text : String) : Bytes := text.toUTF8.data.toList

theorem length_utf8 (text : String) : (utf8 text).length = text.utf8ByteSize := rfl

theorem utf8_inj {s t : String} (h : utf8 s = utf8 t) : s = t :=
  String.toByteArray_inj.1 (ByteArray.ext (Array.toList_inj.1 h))

/-- The code of a text of less than 2^16 bytes. -/
def word (text : Bytes) : Bytes := putU16 (.ofNat text.length) ++ text

theorem prefixCode_word : PrefixCode (fun text : Bytes => text.length < 65536) word := by
  have hinj (m n : Nat) (hm : m < 65536) (hn : n < 65536) (heq : putU16 (.ofNat m) = putU16 (.ofNat n)) : m = n := by
    have h := congrArg (fun bytes => (readU16 bytes).toNat) heq
    simp only [readU16_putU16, UInt16.toNat_ofNat'] at h
    rwa [Nat.mod_eq_of_lt hm, Nat.mod_eq_of_lt hn] at h
  exact .lengthPrefixed (k := 2) (by decide) (fun _ => rfl) hinj

theorem put_eq {err text : String} (h : text.utf8ByteSize < 65536) (buf : Bytes) :
    put err buf text = .ok (buf ++ word (utf8 text)) := by
  rw [put, if_pos h, List.append_assoc]
  rfl

/-- A byte has few decimal digits. -/
theorem size_int8 (n : Int8) : (toString n.toInt).utf8ByteSize < 65536 := by
  have hall : ∀ k : Fin 256, (toString (Int8.ofBitVec (.ofFin k)).toInt).utf8ByteSize < 65536 := by decide +kernel
  exact hall n.toBitVec.toFin

theorem size_uint8 (n : UInt8) : (toString (n.toNat : Int)).utf8ByteSize < 65536 := by
  have hall : ∀ k : Fin 256, (toString (k.val : Int)).utf8ByteSize < 65536 := by decide +kernel
  exact hall n.toFin

theorem natRepr_inj {m n : Nat} (h : m.repr = n.repr) : m = n := by
  have hdigits := congrArg (fun s => Nat.ofDigitChars 10 s.toList 0) h
  simpa using hdigits

/-- The decimal digits tell the number. -/
theorem toString_inj {m n : Int} (h : toString m = toString n) : m = n := by
  have hsign (k l : Nat) : k.repr ≠ "-" ++ l.repr := fun heq => by
    have hm : '-' ∈ Nat.toDigits 10 k := by
      rw [← Nat.toList_repr, heq, String.toList_append]
      exact List.mem_append_left _ (by decide)
    exact absurd (Nat.isDigit_of_mem_toDigits (by decide) (by decide) hm) (by decide)
  rw [Int.toString_eq_repr, Int.toString_eq_repr, Int.repr_eq_if, Int.repr_eq_if] at h
  split at h <;> split at h
  · have := natRepr_inj h
    omega
  · exact absurd h (hsign _ _)
  · exact absurd h.symm (hsign _ _)
  · have := natRepr_inj ((String.append_right_inj _).1 h)
    omega

/-- A name with the text of its value. -/
def field? (f : String × Value) : Option (String × String) := f.2.text?.map (f.1, ·)

/-- The names and the texts of the values. -/
def fields (p : NegotiationParams) : List (String × String) := p.toMap.filterMap field?

theorem fields_eq (p : NegotiationParams) : p.fields =
    (p.compressionLevel.map fun level => ("clevel", toString level.toInt)).toList ++
      (p.compressionType.map fun
        | .perMessage => ("comp", "per-message")
        | .contextTakeover => ("comp", "context-takeover")).toList ++
      (p.compressionWindowBits.map fun windowBits => ("cwinbits", toString (windowBits.toNat : Int))).toList ++
      [("enc", "proto")] := by
  obtain ⟨⟨⟩, type, level, windowBits⟩ := p
  rcases type with _ | ⟨⟨⟩⟩ <;> cases level <;> cases windowBits <;> rfl

theorem fields_lt (p : NegotiationParams) : ∀ f ∈ p.fields, f.1.utf8ByteSize < 65536 ∧ f.2.utf8ByteSize < 65536 := by
  obtain ⟨⟨⟩, type, level, windowBits⟩ := p
  rw [fields_eq]
  refine List.forall_mem_append.2 ⟨List.forall_mem_append.2 ⟨List.forall_mem_append.2 ⟨?_, ?_⟩, ?_⟩, ?_⟩
  · cases level with
    | none => exact nofun
    | some level => exact List.forall_mem_singleton.2 ⟨show "clevel".utf8ByteSize < 65536 by decide, size_int8 level⟩
  · rcases type with _ | ⟨⟨⟩⟩
    · exact nofun
    · exact List.forall_mem_singleton.2 (by decide)
    · exact List.forall_mem_singleton.2 (by decide)
  · cases windowBits with
    | none => exact nofun
    | some windowBits => exact List.forall_mem_singleton.2 ⟨show "cwinbits".utf8ByteSize < 65536 by decide, size_uint8 windowBits⟩
  · exact List.forall_mem_singleton.2 (by decide)

def fieldWord (f : String × String) : Bytes := word (utf8 f.1) ++ word (utf8 f.2)

theorem foldlM_putField {fs : List (String × Value)} (buf : Bytes)
    (h : ∀ f ∈ fs.filterMap field?, f.1.utf8ByteSize < 65536 ∧ f.2.utf8ByteSize < 65536) :
    fs.foldlM putField buf = .ok (buf ++ (fs.filterMap field?).flatMap fieldWord) := by
  induction fs generalizing buf with
  | nil =>
    rw [List.filterMap_nil, List.flatMap_nil, List.append_nil]
    rfl
  | cons f fs ih =>
    rw [List.foldlM_cons]
    cases hv : f.2.text? with
    | none =>
      have hf : field? f = none := by rw [field?, hv]; rfl
      rw [List.filterMap_cons_none hf] at h ⊢
      rw [putField, hv]
      exact ih buf h
    | some v =>
      have hf : field? f = some (f.1, v) := by rw [field?, hv]; rfl
      rw [List.filterMap_cons_some hf] at h ⊢
      obtain ⟨⟨hk, hlt⟩, hrest⟩ := List.forall_mem_cons.1 h
      have hput : putField buf f = .ok (buf ++ fieldWord (f.1, v)) := by
        rw [putField, hv]
        show (put _ buf f.1).bind (fun buf => put _ buf v) = _
        rw [put_eq hk]
        show put _ _ v = _
        rw [put_eq hlt, List.append_assoc]
        rfl
      rw [hput, List.flatMap_cons, ← List.append_assoc]
      exact ih _ hrest

/-- Nothing is too long to be written. -/
theorem toBytes_eq (p : NegotiationParams) : p.toBytes = .ok (p.fields.flatMap fieldWord) :=
  foldlM_putField [] p.fields_lt

theorem prefixCode_fieldWord :
    PrefixCode (fun f : String × String => f.1.utf8ByteSize < 65536 ∧ f.2.utf8ByteSize < 65536) fieldWord := by
  have hpair := prefixCode_word.pair prefixCode_word
  refine ⟨fun f hf => hpair.ne_nil (utf8 f.1, utf8 f.2) hf, ?_⟩
  rintro ⟨k, v⟩ ⟨k', v'⟩ x y hf hg heq
  have hutf8 := hpair.inj (utf8 k, utf8 v) (utf8 k', utf8 v') x y hf hg heq
  rw [utf8_inj (Prod.mk.inj hutf8).1, utf8_inj (Prod.mk.inj hutf8).2]

theorem lookup_fields (p : NegotiationParams) :
    p.fields.lookup "clevel" = p.compressionLevel.map (fun level => toString level.toInt) ∧
      p.fields.lookup "comp" = (p.compressionType.map fun
        | .perMessage => "per-message"
        | .contextTakeover => "context-takeover") ∧
      p.fields.lookup "cwinbits" = p.compressionWindowBits.map fun windowBits => toString (windowBits.toNat : Int) := by
  obtain ⟨⟨⟩, type, level, windowBits⟩ := p
  rw [fields_eq]
  rcases type with _ | ⟨⟨⟩⟩ <;> cases level <;> cases windowBits <;> exact ⟨rfl, rfl, rfl⟩

theorem fields_inj {p q : NegotiationParams} (h : p.fields = q.fields) : p = q := by
  obtain ⟨hlevel, htype, hbits⟩ := p.lookup_fields
  obtain ⟨hlevel', htype', hbits'⟩ := q.lookup_fields
  rw [h, hlevel'] at hlevel
  rw [h, htype'] at htype
  rw [h, hbits'] at hbits
  have h₁ : q.compressionLevel = p.compressionLevel :=
    Option.map_injective (fun m n hmn => Int8.toInt_inj.1 (toString_inj hmn)) hlevel
  have h₂ : q.compressionType = p.compressionType :=
    Option.map_injective (fun m n hmn => by cases m <;> cases n <;> first | rfl | exact absurd hmn (by decide)) htype
  have h₃ : q.compressionWindowBits = p.compressionWindowBits :=
    Option.map_injective (fun m n hmn => UInt8.toNat_inj.1 (Int.ofNat.inj (toString_inj hmn))) hbits
  obtain ⟨⟨⟩, _, _, _⟩ := p
  obtain ⟨⟨⟩, _, _, _⟩ := q
  cases h₁
  cases h₂
  cases h₃
  rfl

theorem toBytes_inj {p q : NegotiationParams} (h : p.toBytes = q.toBytes) : p = q := by
  rw [toBytes_eq, toBytes_eq] at h
  exact fields_inj (prefixCode_fieldWord.flatMap_inj p.fields_lt q.fields_lt (Except.ok.inj h))

end NegotiationParams

/-! ### The settings of the two ends -/

/-- The settings that can be made with the methods of `Compression`. -/
inductive Compression.Built : Compression → Prop
  | new : Built .new
  | enable (s : Compression) (level : Int8) : Built (s.enable level)
  | enableWithWindowBits (s : Compression) (level : Int8) (windowBits : UInt8) : Built (s.enableWithWindowBits level windowBits)
  | disable (s : Compression) : Built s.disable

namespace Compression

variable {s s' : Compression}

theorem negotiationParams_inj {e : EncodingName} (h : s.Built) (h' : s'.Built)
    (heq : s.negotiationParams e = s'.negotiationParams e) : s = s' := by
  cases h <;> cases h' <;> simp_all [negotiationParams, Compression.new, enable, enableWithWindowBits, disable]

theorem Built.level_isSome (h : s.Built) : s.level.isSome = s.enabled ∧ (s.windowBits.isSome → s.enabled) := by
  cases h with
  | new | disable => exact ⟨rfl, nofun⟩
  | enable | enableWithWindowBits => exact ⟨rfl, fun _ => rfl⟩

end Compression

theorem newDictionary_inj {w w' : Option UInt8} {d : Option DictionaryBuffer} (h : newDictionary w = some d)
    (h' : newDictionary w' = some d) : w = w' := by
  have hnew {w : UInt8} {d : DictionaryBuffer} (h : DictionaryBuffer.new w = some d) :
      1 ≤ w.toNat ∧ d.size = 2 ^ w.toNat := by
    have hr : 9 ≤ w ∧ w ≤ 15 := by
      rw [DictionaryBuffer.new] at h
      split at h
      · assumption
      · cases h
    rw [DictionaryBuffer.new_eq_some hr.1 hr.2] at h
    cases h
    exact ⟨(show 1 ≤ 9 by decide).trans (UInt8.le_iff_toNat_le.1 hr.1), rfl⟩
  rcases w with _ | w <;> rcases w' with _ | w'
  · rfl
  · cases h
    obtain ⟨_, -, hd⟩ := Option.map_eq_some_iff.1 h'
    cases hd
  · cases h'
    obtain ⟨_, -, hd⟩ := Option.map_eq_some_iff.1 h
    cases hd
  · obtain ⟨d₁, hd₁, rfl⟩ := Option.map_eq_some_iff.1 h
    obtain ⟨d₂, hd₂, heq⟩ := Option.map_eq_some_iff.1 h'
    obtain rfl := Option.some.inj heq
    have hsize := (hnew hd₁).2.symm.trans (hnew hd₂).2
    rw [UInt8.toNat_inj.1 (Nat.pow_right_injective (le_refl 2) hsize)]

variable {σ τ : Type} {initC : Int8 → Option UInt8 → σ} {initD : Option UInt8 → τ} {c c' : Compressor σ} {x x' : Extractor τ}

theorem converters_eq_some {s : Compression} (h : s.converters initC initD = some (c, x)) :
    c.compressState.isSome = s.level.isSome ∧
      newDictionary (if s.level.isSome then s.windowBits else none) = some c.dictionary := by
  unfold Compression.converters at h
  rcases hl : s.level with _ | level
  · rw [hl] at h
    cases h
    exact ⟨rfl, rfl⟩
  · rcases hd : newDictionary s.windowBits with _ | dictionary
    · simp [hl, Compressor.new, hd] at h
    · simp only [hl, Compressor.new, Extractor.new, hd] at h
      cases h
      exact ⟨rfl, hd⟩

/-- A compressor goes with an extractor that is made of the same type and the same window bits, and with no other. -/
theorem paired_iff {s s' : Compression} (h : s.Built) (h' : s'.Built) (hc : s.converters initC initD = some (c, x))
    (hc' : s'.converters initC initD = some (c', x')) :
    Paired c x' ↔ s.enabled = s'.enabled ∧ s.windowBits = s'.windowBits := by
  have hp := Paired.of_converters hc'
  obtain ⟨hon, hd⟩ := converters_eq_some hc
  obtain ⟨hon', hd'⟩ := converters_eq_some hc'
  have hbits {s : Compression} (h : s.Built) : (if s.level.isSome then s.windowBits else none) = s.windowBits := by
    rw [h.level_isSome.1]
    split
    · rfl
    · rename_i hn
      cases hw : s.windowBits with
      | none => rfl
      | some w => exact absurd (h.level_isSome.2 (by rw [hw]; rfl)) hn
  rw [hbits h] at hd
  rw [hbits h'] at hd'
  rw [h.level_isSome.1] at hon
  rw [h'.level_isSome.1] at hon'
  constructor
  · intro hcx
    refine ⟨?_, newDictionary_inj hd ?_⟩
    · rw [← hon, ← hon', hcx.on, hp.on]
    · rw [hd', hp.dictionary, hcx.dictionary]
  · rintro ⟨he, hw⟩
    rw [hw, hd'] at hd
    refine ⟨?_, ?_⟩
    · rw [hon, he, ← hon', hp.on]
    · rw [← hp.dictionary, Option.some.inj hd]

end Iscp.Transport
