import Iscp.Message
import Iscp.Lib.Coder
import Mathlib.Algebra.Group.Nat.Defs
import Mathlib.Data.List.DropRight

/-!
# Compression

`compression.rs`: the settings, the compressor of the sender and the extractor of the receiver, which make
a raw deflate stream of every message, and with window bits keep the end of what was sent before as the
dictionary of the next one. The coders of flate2 are parameters; a state of one comes with the settings
that it was made with. The one `buffer_increment_size` that is used outside tests is a constant.
-/

namespace Iscp.Transport

/-! ### The dictionary -/

/-- A subtraction in `usize`; `none` where it overflows. -/
def checkedSub (a b : Nat) : Option Nat := if b ≤ a then some (a - b) else none

/-- `buf.copy_within(start.., dest)`; `none` where it panics. -/
def copyWithin (buf : Bytes) (start dest : Nat) : Option Bytes :=
  if start ≤ buf.length ∧ dest + (buf.length - start) ≤ buf.length then
    some (buf.take dest ++ buf.drop start ++ buf.drop (dest + (buf.length - start)))
  else none

/-- `buf.resize_with(size, || unreachable!())`; `none` where it panics. -/
def shrinkTo (buf : Bytes) (size : Nat) : Option Bytes :=
  if size ≤ buf.length then some (buf.take size) else none

/-- `DictionaryBuffer::push_msg` on the fields; `none` where it panics. -/
def pushMsg? (size : Nat) (buf msg : Bytes) : Option Bytes := do
  let remaining ← checkedSub size buf.length
  let buf ←
    if size ≤ msg.length then do
      let start ← checkedSub msg.length size
      pure (msg.drop start)
    else if msg.length ≤ remaining then pure (buf ++ msg)
    else do
      let buf := buf ++ msg
      let start ← checkedSub buf.length size
      let buf ← copyWithin buf start 0
      shrinkTo buf size
  -- The `debug_assert!`.
  if buf.length ≤ size then some buf else none

/-- The new buffer is the end of the old one with the message. -/
theorem pushMsg?_eq {size : Nat} {buf : Bytes} (h : buf.length ≤ size) (msg : Bytes) :
    pushMsg? size buf msg = some ((buf ++ msg).rtake size) := by
  have hlen : (buf ++ msg).length = buf.length + msg.length := List.length_append
  simp only [pushMsg?, checkedSub, if_pos h, Option.bind_eq_bind, Option.bind_some, List.rtake]
  split_ifs with h1 h2 h3
  · have hdrop : (buf ++ msg).drop ((buf ++ msg).length - size) = msg.drop (msg.length - size) := by
      rw [List.drop_append, List.drop_eq_nil_of_le (by omega), List.nil_append]
      congr 1
      omega
    have hle : (msg.drop (msg.length - size)).length ≤ size := by rw [List.length_drop]; omega
    simp only [Option.bind_some, Option.pure_def, if_pos hle, hdrop]
  · have hle : (buf ++ msg).length ≤ size := by omega
    simp only [Option.bind_some, Option.pure_def, if_pos hle, Nat.sub_eq_zero_of_le hle,
      List.drop_zero]
  · have hcopy : copyWithin (buf ++ msg) ((buf ++ msg).length - size) 0 =
        some ((buf ++ msg).drop ((buf ++ msg).length - size) ++ (buf ++ msg).drop size) := by
      rw [copyWithin, if_pos ⟨by omega, by omega⟩, List.take_zero, List.nil_append, Nat.zero_add,
        Nat.sub_sub_self h3]
    have hdrop : ((buf ++ msg).drop ((buf ++ msg).length - size)).length = size := by
      rw [List.length_drop]
      omega
    have hshrink : shrinkTo ((buf ++ msg).drop ((buf ++ msg).length - size) ++
        (buf ++ msg).drop size) size = some ((buf ++ msg).drop ((buf ++ msg).length - size)) := by
      rw [shrinkTo, if_pos (by rw [List.length_append]; omega), List.take_left' hdrop]
    simp only [Option.bind_some, hcopy, hshrink, if_pos (Nat.le_of_eq hdrop)]
  · omega

/-- What comes before the end of a text does not matter to the end of a longer one. -/
theorem rtake_rtake_append {α : Type*} (n : Nat) (xs ys : List α) :
    (xs.rtake n ++ ys).rtake n = (xs ++ ys).rtake n := by
  have hlen : (xs ++ ys).length = xs.length + ys.length := List.length_append
  have hsub : (xs ++ ys).drop (xs.length - n) = xs.rtake n ++ ys :=
    List.drop_append_of_le_length (Nat.sub_le _ _)
  rw [← hsub, List.rtake, List.rtake, List.length_drop, List.drop_drop]
  congr 1
  omega

structure DictionaryBuffer where
  size : Nat
  buf : Bytes
  length_le : buf.length ≤ size

namespace DictionaryBuffer

/-- `none` where the assertion fails. -/
def new (windowBits : UInt8) : Option DictionaryBuffer :=
  if 9 ≤ windowBits ∧ windowBits ≤ 15 then
    some { size := 2 <<< (windowBits.toNat - 1), buf := [], length_le := Nat.zero_le _ }
  else none

def pushMsg (d : DictionaryBuffer) (msg : Bytes) : DictionaryBuffer where
  size := d.size
  buf := (pushMsg? d.size d.buf msg).get (by rw [pushMsg?_eq d.length_le]; rfl)
  length_le := by
    simp only [pushMsg?_eq d.length_le, Option.get_some, List.rtake, List.length_drop]
    omega

@[simp] theorem buf_pushMsg (d : DictionaryBuffer) (msg : Bytes) :
    (d.pushMsg msg).buf = (d.buf ++ msg).rtake d.size := by
  simp only [pushMsg, pushMsg?_eq d.length_le, Option.get_some]

theorem ext {d d' : DictionaryBuffer} (hs : d.size = d'.size) (hb : d.buf = d'.buf) : d = d' := by
  cases d
  cases d'
  cases hs
  cases hb
  rfl

@[simp] theorem pushMsg_nil (d : DictionaryBuffer) : d.pushMsg [] = d := by
  refine ext rfl ?_
  rw [buf_pushMsg, List.append_nil, List.rtake, Nat.sub_eq_zero_of_le d.length_le, List.drop_zero]

def dictionary (d : DictionaryBuffer) : Bytes := d.buf

theorem pushMsg?_pushMsg (d : DictionaryBuffer) (msg : Bytes) :
    pushMsg? d.size d.buf msg = some (d.pushMsg msg).buf := by
  rw [buf_pushMsg, pushMsg?_eq d.length_le]

theorem new_eq_some {windowBits : UInt8} (h9 : 9 ≤ windowBits) (h15 : windowBits ≤ 15) :
    new windowBits = some ⟨2 ^ windowBits.toNat, [], Nat.zero_le _⟩ := by
  have hsize : 2 <<< (windowBits.toNat - 1) = 2 ^ windowBits.toNat := by
    have h1 : 1 ≤ windowBits.toNat := Nat.le_trans (by decide) (UInt8.le_iff_toNat_le.1 h9)
    rw [Nat.shiftLeft_eq, ← Nat.pow_succ', Nat.succ_eq_add_one, Nat.sub_add_cancel h1]
  rw [new, if_pos ⟨h9, h15⟩]
  exact congrArg some (ext hsize rfl)

/-- After any messages: the end of what was there with them. -/
theorem foldl_pushMsg (d : DictionaryBuffer) (msgs : List Bytes) :
    (msgs.foldl pushMsg d).size = d.size ∧
      (msgs.foldl pushMsg d).buf = (d.buf ++ msgs.flatten).rtake d.size ∧
      msgs.foldlM (pushMsg? d.size) d.buf = some (msgs.foldl pushMsg d).buf := by
  induction msgs generalizing d with
  | nil =>
    have hnil := congrArg buf (pushMsg_nil d)
    rw [buf_pushMsg] at hnil
    exact ⟨rfl, hnil.symm, rfl⟩
  | cons msg msgs ih =>
    obtain ⟨hsize, hbuf, hrun⟩ := ih (d.pushMsg msg)
    refine ⟨hsize, ?_, ?_⟩
    · rw [List.foldl_cons, hbuf, buf_pushMsg, List.flatten_cons, ← List.append_assoc]
      exact rtake_rtake_append d.size (d.buf ++ msg) msgs.flatten
    · rw [List.foldlM_cons, pushMsg?_pushMsg]
      exact hrun

/-- Whatever messages are pushed, of whatever lengths: nothing panics, and the dictionary is the window over
the end of them all. -/
theorem dictionary_window (windowBits : UInt8) (h9 : 9 ≤ windowBits) (h15 : windowBits ≤ 15)
    (msgs : List Bytes) : ∃ d, new windowBits = some d ∧
      msgs.foldlM (pushMsg? d.size) d.dictionary = some (msgs.foldl pushMsg d).dictionary ∧
      (msgs.foldl pushMsg d).dictionary =
        msgs.flatten.rtake (min (2 ^ windowBits.toNat) msgs.flatten.length) ∧
      (msgs.foldl pushMsg d).dictionary.length ≤ 2 ^ windowBits.toNat := by
  obtain ⟨hsize, hbuf, hrun⟩ := foldl_pushMsg ⟨2 ^ windowBits.toNat, [], Nat.zero_le _⟩ msgs
  refine ⟨_, new_eq_some h9 h15, hrun, ?_, ?_⟩
  · rw [dictionary, hbuf, List.nil_append, List.rtake, List.rtake]
    congr 1
    show msgs.flatten.length - 2 ^ windowBits.toNat = _
    omega
  · exact Nat.le_trans (length_le _) (Nat.le_of_eq hsize)

/-- A message that fits, one that overflows the window, and one that is longer than it. -/
theorem dictionary_window_nine :
    ∃ d, new 9 = some d ∧
      ([List.replicate 300 1, List.replicate 300 2].foldl pushMsg d).dictionary =
        List.replicate 212 1 ++ List.replicate 300 2 ∧
      ([List.replicate 300 1, List.replicate 300 2, List.replicate 600 3].foldl pushMsg d).dictionary =
        List.replicate 512 3 := by
  obtain ⟨d, hd, -, hwindow, -⟩ := dictionary_window 9 (by decide) (by decide)
    [List.replicate 300 1, List.replicate 300 2]
  obtain ⟨d', hd', -, hwindow', -⟩ := dictionary_window 9 (by decide) (by decide)
    [List.replicate 300 1, List.replicate 300 2, List.replicate 600 3]
  obtain rfl : d = d' := Option.some.inj (hd.symm.trans hd')
  refine ⟨d, hd, hwindow.trans ?_, hwindow'.trans ?_⟩
  · decide +kernel
  · decide +kernel

end DictionaryBuffer

/-! ### Settings -/

structure Compression where
  enabled : Bool := false
  level : Option Int8 := none
  windowBits : Option UInt8 := none

namespace Compression

def new : Compression := {}

def enable (_ : Compression) (level : Int8) : Compression := ⟨true, some level, none⟩

def enableWithWindowBits (_ : Compression) (level : Int8) (windowBits : UInt8) : Compression :=
  ⟨true, some level, some windowBits⟩

def disable (_ : Compression) : Compression := ⟨false, none, none⟩

end Compression

/-! ### Compressing and extracting -/

variable {σ τ ε : Type}

def bufferIncrementSize : Nat := 128

theorem bufferIncrementSize_pos : 0 < bufferIncrementSize := by decide

structure Compressor (σ : Type) where
  compressState : Option σ
  buffer : Vec UInt8 := {}
  dictionary : Option DictionaryBuffer

structure Extractor (τ : Type) where
  decompressState : Option τ
  buffer : Vec UInt8 := {}
  dictionary : Option DictionaryBuffer

/-- The dictionary of the settings: `none` where the window bits are refused. -/
def newDictionary : Option UInt8 → Option (Option DictionaryBuffer)
  | none => some none
  | some windowBits => (DictionaryBuffer.new windowBits).map some

/-- What the coder is given as the dictionary; it is not given an empty one. -/
def dictionaryBytes (dictionary : Option DictionaryBuffer) : Bytes := (dictionary.map (·.buf)).getD []

/-- `init` makes a state of `Compress`; `none` is a panic. -/
def Compressor.new (init : Int8 → Option UInt8 → σ) (level : Option Int8) (windowBits : Option UInt8) :
    Option (Compressor σ) :=
  match level with
  | none => some { compressState := none, dictionary := none }
  | some level => (newDictionary windowBits).map fun dictionary =>
    { compressState := some (init level windowBits), dictionary }

/-- `init` makes a state of `Decompress`; `none` is a panic. -/
def Extractor.new (init : Option UInt8 → τ) (level : Option Int8) (windowBits : Option UInt8) :
    Option (Extractor τ) :=
  match level with
  | none => some { decompressState := none, dictionary := none }
  | some _ => (newDictionary windowBits).map fun dictionary =>
    { decompressState := some (init windowBits), dictionary }

def Compression.converters (s : Compression) (initC : Int8 → Option UInt8 → σ)
    (initD : Option UInt8 → τ) : Option (Compressor σ × Extractor τ) := do
  let c ← Compressor.new initC s.level s.windowBits
  let x ← Extractor.new initD s.level s.windowBits
  pure (c, x)

/-- What is left in `data`; `none` if `fuel` rounds of the loop are not enough. -/
def Compressor.compress (C : Coder σ UInt8 ε) (fuel : Nat) (c : Compressor σ) (data : Bytes) :
    Option (Compressor σ × Except ε Bytes) :=
  match c.compressState with
  | none => some (c, .ok data)
  | some st =>
    match C.start st (dictionaryBytes c.dictionary) with
    | .error e => some ({ c with compressState := some (C.reset st) }, .error e)
    | .ok st =>
      let dictionary := c.dictionary.map (·.pushMsg data)
      match C.drive bufferIncrementSize data fuel st (c.buffer.clear.reserve data.length) with
      | none => none
      | some (st, buffer, .error e) =>
        some ({ compressState := some st, buffer, dictionary }, .error e)
      | some (st, buffer, .ok ()) =>
        some ({ compressState := some st, buffer, dictionary }, .ok buffer.items)

/-- What is left in `data`; `none` if `fuel` rounds of the loop are not enough. -/
def Extractor.extract (D : Coder τ UInt8 ε) (fuel : Nat) (x : Extractor τ) (data : Bytes) :
    Option (Extractor τ × Except ε Bytes) :=
  match x.decompressState with
  | none => some (x, .ok data)
  | some st =>
    match D.start st (dictionaryBytes x.dictionary) with
    | .error e => some ({ x with decompressState := some (D.reset st) }, .error e)
    | .ok st =>
      match D.drive bufferIncrementSize data fuel st (x.buffer.clear.reserve (data.length * 2)) with
      | none => none
      | some (st, buffer, .error e) =>
        some ({ x with decompressState := some st, buffer }, .error e)
      | some (st, buffer, .ok ()) =>
        let dictionary := x.dictionary.map (·.pushMsg buffer.items)
        some ({ decompressState := some st, buffer, dictionary }, .ok buffer.items)

/-- More rounds change nothing. -/
theorem Compressor.compress_mono {C : Coder σ UInt8 ε} {fuel fuel' : Nat} {c : Compressor σ} {data : Bytes}
    {r : Compressor σ × Except ε Bytes} (h : c.compress C fuel data = some r) (hle : fuel ≤ fuel') :
    c.compress C fuel' data = some r := by
  unfold compress at h ⊢
  split at h
  · exact h
  · split at h
    · exact h
    · split at h
      · cases h
      · rename_i hd
        rw [C.drive_mono hd hle]
        exact h
      · rename_i hd
        rw [C.drive_mono hd hle]
        exact h

theorem Extractor.extract_mono {D : Coder τ UInt8 ε} {fuel fuel' : Nat} {x : Extractor τ} {data : Bytes}
    {r : Extractor τ × Except ε Bytes} (h : x.extract D fuel data = some r) (hle : fuel ≤ fuel') :
    x.extract D fuel' data = some r := by
  unfold extract at h ⊢
  split at h
  · exact h
  · split at h
    · exact h
    · split at h
      · cases h
      · rename_i hd
        rw [D.drive_mono hd hle]
        exact h
      · rename_i hd
        rw [D.drive_mono hd hle]
        exact h

end Iscp.Transport
