import Iscp.Lib.Pieces
import Iscp.Transport.Datagram

/-!
# Messages on a stream

The writers of `quic.rs` and `webtransport.rs`, which write each message with its length before it, and the
loops that read the messages from the other end. The token is not cancelled, and what the loop reads is
taken from it.
-/

namespace Iscp

namespace Stream

open Datagram (putU32 readU32 readU32_putU32)

/-- `BytesMut::resize`. -/
def resize (buf : Bytes) (length : Nat) (value : UInt8) : Bytes :=
  if length ≤ buf.length then buf.take length else buf ++ List.replicate (length - buf.length) value

/-- `BigEndian::write_u32`; `none` where it panics. -/
def writeU32 (buf : Bytes) (n : UInt32) : Option Bytes :=
  if 4 ≤ buf.length then some (putU32 n ++ buf.drop 4) else none

/-- A writer, with what has been written to its stream. -/
structure Writer where
  sendStream : Bytes := []
  buf : Bytes := []

/-- `none` where it panics. -/
def Writer.write (w : Writer) (data : Bytes) : Option (Except String Unit × Writer) :=
  let buf := resize w.buf 4 0
  if data.length < 2 ^ 32 then do
    let buf ← writeU32 buf (.ofNat data.length)
    let buf := buf ++ data
    return (.ok (), ⟨w.sendStream ++ buf, buf⟩)
  else some (.error "too large message size", { w with buf := buf })

/-- The messages that are read until the stream ends. -/
def readRecvStream (recvStream : List Bytes) : List Bytes :=
  match _hread : Pieces.readExact recvStream 4 with
  | none => []
  | some (len, recvStream₁) =>
    match _hread₁ : Pieces.readExact recvStream₁ (readU32 len).toNat with
    | none => []
    | some (buf, recvStream₂) => buf :: readRecvStream recvStream₂
termination_by recvStream.flatten.length
decreasing_by
  have := Pieces.length_readExact _hread
  have := Pieces.length_readExact _hread₁
  omega

end Stream

namespace Quic

abbrev QuicWriter := Stream.Writer

def QuicWriter.write (w : QuicWriter) (data : Bytes) : Option (Except String Unit × QuicWriter) :=
  Stream.Writer.write w data

def readRecvStream : List Bytes → List Bytes := Stream.readRecvStream

end Quic

namespace WebTransport

abbrev WebTransportWriter := Stream.Writer

def WebTransportWriter.write (w : WebTransportWriter) (data : Bytes) :
    Option (Except String Unit × WebTransportWriter) :=
  Stream.Writer.write w data

def readRecvStream : List Bytes → List Bytes := Stream.readRecvStream

end WebTransport

namespace Stream

open Datagram (putU32 readU32 readU32_putU32)

/-- The results of all writes, and the writer after them; `none` where one panics. -/
def writeAll (write : Writer → Bytes → Option (Except String Unit × Writer)) (w : Writer) :
    List Bytes → Option (List (Except String Unit) × Writer)
  | [] => some ([], w)
  | data :: datas => do
    let (result, w) ← write w data
    let (results, w) ← writeAll write w datas
    return (result :: results, w)

/-- What is written comes out again: the messages that are not too long, all of them from the whole stream
and the first ones from a stream that ends before, wherever the transport cuts it. -/
structure Delivers (write : Writer → Bytes → Option (Except String Unit × Writer))
    (read : List Bytes → List Bytes) (datas : List Bytes) : Prop where
  written : ∃ w, writeAll write {} datas = some (datas.map fun data =>
      if data.length < 2 ^ 32 then .ok () else .error "too large message size", w) ∧
    ∀ recvStream : List Bytes, recvStream.flatten <+: w.sendStream →
      read recvStream <+: datas.filter (·.length < 2 ^ 32) ∧
      (recvStream.flatten = w.sendStream → read recvStream = datas.filter (·.length < 2 ^ 32))

/-! ### Writing -/

def encode (data : Bytes) : Bytes := putU32 (.ofNat data.length) ++ data

theorem length_resize (buf : Bytes) (length : Nat) (value : UInt8) :
    (resize buf length value).length = length := by
  unfold resize
  split
  · rw [List.length_take]
    omega
  · rw [List.length_append, List.length_replicate]
    omega

/-- A write leaves nothing of the buffer's old content. -/
theorem write_eq (w : Writer) (data : Bytes) : w.write data = some (
    if data.length < 2 ^ 32 then (.ok (), ⟨w.sendStream ++ encode data, encode data⟩)
    else (.error "too large message size", { w with buf := resize w.buf 4 0 })) := by
  have hlen := length_resize w.buf 4 0
  have hbuf : writeU32 (resize w.buf 4 0) (.ofNat data.length) = some (putU32 (.ofNat data.length)) := by
    rw [writeU32, if_pos (Nat.le_of_eq hlen.symm), List.drop_eq_nil_of_le (Nat.le_of_eq hlen),
      List.append_nil]
  unfold Writer.write
  split
  · dsimp only
    rw [hbuf]
    rfl
  · rfl

theorem writeAll_eq (w : Writer) (datas : List Bytes) : ∃ buf, writeAll Writer.write w datas = some (
    datas.map fun data => if data.length < 2 ^ 32 then .ok () else .error "too large message size",
    ⟨w.sendStream ++ (datas.filter (·.length < 2 ^ 32)).flatMap encode, buf⟩) := by
  induction datas generalizing w with
  | nil => exact ⟨w.buf, by simp [writeAll]⟩
  | cons data datas ih =>
    by_cases h : data.length < 2 ^ 32
    · obtain ⟨buf, hrest⟩ := ih ⟨w.sendStream ++ encode data, encode data⟩
      refine ⟨buf, ?_⟩
      rw [writeAll, write_eq, if_pos h, Option.bind_eq_bind, Option.bind_some]
      dsimp only
      have hfilter : (data :: datas).filter (·.length < 2 ^ 32) = data :: datas.filter (·.length < 2 ^ 32) :=
        List.filter_cons_of_pos (decide_eq_true h)
      rw [hrest, hfilter, List.flatMap_cons, List.map_cons, if_pos h, ← List.append_assoc]
      rfl
    · obtain ⟨buf, hrest⟩ := ih { w with buf := resize w.buf 4 0 }
      refine ⟨buf, ?_⟩
      rw [writeAll, write_eq, if_neg h, Option.bind_eq_bind, Option.bind_some]
      dsimp only
      have hfilter : (data :: datas).filter (·.length < 2 ^ 32) = datas.filter (·.length < 2 ^ 32) :=
        List.filter_cons_of_neg (by simpa using h)
      rw [hrest, hfilter, List.map_cons, if_neg h]
      rfl

/-! ### Reading -/

section

variable {recvStream recvStream₁ recvStream₂ : List Bytes} {len buf : Bytes}

theorem readRecvStream_of_lt (h : recvStream.flatten.length < 4) : readRecvStream recvStream = [] := by
  rw [readRecvStream]
  split
  · rfl
  · rename_i hread
    rw [Pieces.readExact_of_lt h] at hread
    cases hread

theorem readRecvStream_of_none (h : Pieces.readExact recvStream 4 = some (len, recvStream₁))
    (h₁ : Pieces.readExact recvStream₁ (readU32 len).toNat = none) : readRecvStream recvStream = [] := by
  rw [readRecvStream]
  split
  · rfl
  · rename_i hread
    rw [h] at hread
    cases hread
    split
    · rfl
    · rename_i hread₁
      rw [h₁] at hread₁
      cases hread₁

theorem readRecvStream_of_some (h : Pieces.readExact recvStream 4 = some (len, recvStream₁))
    (h₁ : Pieces.readExact recvStream₁ (readU32 len).toNat = some (buf, recvStream₂)) :
    readRecvStream recvStream = buf :: readRecvStream recvStream₂ := by
  rw [readRecvStream]
  split
  · rename_i hread
    rw [h] at hread
    cases hread
  · rename_i hread
    rw [h] at hread
    cases hread
    split
    · rename_i hread₁
      rw [h₁] at hread₁
      cases hread₁
    · rename_i hread₁
      rw [h₁] at hread₁
      cases hread₁
      rfl

end

/-- The next message, or nothing where its end has not come. -/
theorem readRecvStream_step {recvStream : List Bytes} {data rest : Bytes} (hlen : data.length < 2 ^ 32)
    (h : recvStream.flatten <+: encode data ++ rest) :
    readRecvStream recvStream = [] ∧ recvStream.flatten.length < (encode data).length ∨
      ∃ recvStream', readRecvStream recvStream = data :: readRecvStream recvStream' ∧
        recvStream.flatten = encode data ++ recvStream'.flatten := by
  have hput : (putU32 (.ofNat data.length)).length = 4 := rfl
  have henc : (encode data).length = 4 + data.length := by
    rw [encode, List.length_append, hput]
  by_cases h4 : recvStream.flatten.length < 4
  · exact .inl ⟨readRecvStream_of_lt h4, by omega⟩
  · obtain ⟨recvStream₁, hread, hrest⟩ := Pieces.readExact_of_le (Nat.not_lt.1 h4)
    -- The length is whole, and it is that of `data`.
    obtain ⟨body, hbody⟩ : ∃ body, recvStream.flatten = putU32 (.ofNat data.length) ++ body := by
      have hputs : putU32 (.ofNat data.length) <+: encode data ++ rest :=
        (List.prefix_append _ data).trans (List.prefix_append _ rest)
      obtain ⟨body, hbody⟩ := List.prefix_of_prefix_length_le hputs h (by omega)
      exact ⟨body, hbody.symm⟩
    have hbody₁ : recvStream₁.flatten = body := by
      rw [hrest, hbody, List.drop_left' hput]
    have hread₁ : Pieces.readExact recvStream 4 = some (putU32 (.ofNat data.length), recvStream₁) := by
      rw [hread, hbody, List.take_left' hput]
    have htoNat : (readU32 (putU32 (.ofNat data.length))).toNat = data.length := by
      rw [readU32_putU32, UInt32.toNat_ofNat']
      exact Nat.mod_eq_of_lt hlen
    rw [hbody, encode, List.append_assoc, List.prefix_append_right_inj, ← hbody₁] at h
    by_cases hshort : recvStream₁.flatten.length < data.length
    · refine .inl ⟨readRecvStream_of_none hread₁ ?_, ?_⟩
      · rw [htoNat, Pieces.readExact_of_lt hshort]
      · rw [hbody, henc, List.length_append, hput, ← hbody₁]
        omega
    · have hle := Nat.not_lt.1 hshort
      obtain ⟨recvStream₂, hread₂, hrest₂⟩ := Pieces.readExact_of_le hle
      obtain ⟨tail, htail⟩ := List.prefix_of_prefix_length_le (List.prefix_append data rest) h hle
      rw [← htail, List.take_left] at hread₂
      rw [← htail, List.drop_left] at hrest₂
      refine .inr ⟨recvStream₂, readRecvStream_of_some hread₁ (by rw [htoNat, hread₂]), ?_⟩
      rw [hbody, ← hbody₁, ← htail, hrest₂, encode, List.append_assoc]

/-- What comes out of a stream that ends early. -/
theorem readRecvStream_prefix {recvStream : List Bytes} {datas : List Bytes}
    (hlen : ∀ data ∈ datas, data.length < 2 ^ 32) (h : recvStream.flatten <+: datas.flatMap encode) :
    readRecvStream recvStream <+: datas ∧
      (recvStream.flatten = datas.flatMap encode → readRecvStream recvStream = datas) := by
  induction datas generalizing recvStream with
  | nil =>
    have hnil : readRecvStream recvStream = [] := by
      refine readRecvStream_of_lt ?_
      have := h.length_le
      simp only [List.flatMap_nil, List.length_nil] at this
      omega
    exact ⟨hnil ▸ List.nil_prefix, fun _ => hnil⟩
  | cons data datas ih =>
    obtain ⟨hdata, hdatas⟩ := List.forall_mem_cons.1 hlen
    rw [List.flatMap_cons] at h ⊢
    rcases readRecvStream_step hdata h with ⟨hnil, hlt⟩ | ⟨recvStream', hread, hflat⟩
    · refine ⟨by rw [hnil]; exact List.nil_prefix, fun heq => ?_⟩
      rw [heq, List.length_append] at hlt
      omega
    · rw [hflat, List.prefix_append_right_inj] at h
      obtain ⟨hfirst, hall⟩ := ih hdatas h
      rw [hread, hflat, List.append_cancel_left_eq]
      exact ⟨List.cons_prefix_cons.2 ⟨rfl, hfirst⟩, fun heq => by rw [hall heq]⟩

theorem delivers (datas : List Bytes) : Delivers Writer.write readRecvStream datas := by
  obtain ⟨buf, hw⟩ := writeAll_eq {} datas
  refine ⟨_, hw, fun recvStream h => ?_⟩
  rw [List.nil_append] at h ⊢
  exact readRecvStream_prefix (fun data hd => by simpa using (List.mem_filter.1 hd).2) h

/-- For every list of messages, those too long among them: QUIC and WebTransport deliver the others. -/
theorem streams_deliver (datas : List Bytes) :
    Delivers Quic.QuicWriter.write Quic.readRecvStream datas ∧
      Delivers WebTransport.WebTransportWriter.write WebTransport.readRecvStream datas :=
  ⟨delivers datas, delivers datas⟩

end Stream
end Iscp
