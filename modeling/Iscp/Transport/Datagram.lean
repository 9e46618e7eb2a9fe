import Iscp.Message
import Iscp.Lib.Segments
import Mathlib.Algebra.Group.Nat.Defs
import Mathlib.Logic.Function.Basic

/-!
# Datagrams

`Splitter` and `FrameBuf` of `datagram.rs`. A frame is a header of 8 bytes (sequence number, index of the
last segment, index of its own segment) and a segment of the message. Instants and durations are counts
of nanoseconds; the difference of two instants is zero when it would be negative.
-/

namespace Iscp
namespace Datagram

/-- `BufMut::put_u32`. -/
def putU32 (n : UInt32) : Bytes :=
  [UInt8.ofNat (n.toNat / 16777216), UInt8.ofNat (n.toNat / 65536), UInt8.ofNat (n.toNat / 256),
    UInt8.ofNat n.toNat]

/-- `BufMut::put_u16`. -/
def putU16 (n : UInt16) : Bytes := [UInt8.ofNat (n.toNat / 256), UInt8.ofNat n.toNat]

/-- The number that bytes in big-endian order make up. -/
def bigEndian (bytes : Bytes) : Nat := bytes.foldl (fun n byte => n * 256 + byte.toNat) 0

/-- `BigEndian::read_u32`. -/
def readU32 (bytes : Bytes) : UInt32 := UInt32.ofNat (bigEndian bytes)

/-- `BigEndian::read_u16`. -/
def readU16 (bytes : Bytes) : UInt16 := UInt16.ofNat (bigEndian bytes)

/-- `&data[i..j]`; `none` where it panics. -/
def slice (data : Bytes) (i j : Nat) : Option Bytes :=
  if i ≤ j ∧ j ≤ data.length then some ((data.drop i).take (j - i)) else none

/-! ### Sending -/

structure Splitter where
  sequenceNumber : UInt32
  maxSegmentSize : Nat
  maxMessageSize : Nat
  pos : 0 < maxSegmentSize
  le : maxMessageSize ≤ maxSegmentSize * 65535

namespace Splitter

/-- The assertion of the source is an argument; the product is taken in `usize`. -/
def new (maxDatagramSize : Nat) (h : 8 < maxDatagramSize) : Splitter where
  sequenceNumber := 0
  maxSegmentSize := maxDatagramSize - 8
  maxMessageSize := (maxDatagramSize - 8) * 65535 % 2 ^ 64
  pos := Nat.sub_pos_of_lt h
  le := Nat.mod_le ..

/-- The index of the last segment. -/
def maxSegmentI (s : Splitter) (data : Bytes) : Nat :=
  let maxSegmentI := data.length / s.maxSegmentSize
  if data.length % s.maxSegmentSize = 0 ∧ 0 < maxSegmentI then maxSegmentI - 1 else maxSegmentI

def segmentData (s : Splitter) (data : Bytes) (maxSegmentI i : Nat) : Option Bytes :=
  if i = maxSegmentI then slice data (i * s.maxSegmentSize) data.length
  else slice data (i * s.maxSegmentSize) ((i + 1) * s.maxSegmentSize)

def frame (sequenceNumber : UInt32) (maxSegmentI i : UInt16) (segmentData : Bytes) : Bytes :=
  putU32 sequenceNumber ++ putU16 maxSegmentI ++ putU16 i ++ segmentData

/-- `none` where it panics. -/
def split (s : Splitter) (data : Bytes) (frames : List Bytes) :
    Option (Except Unit Unit × Splitter × List Bytes) :=
  if s.maxMessageSize ≤ data.length then some (.error (), s, frames)
  else
    let maxSegmentI := s.maxSegmentI data
    -- `try_into().unwrap()`
    if maxSegmentI < 65536 then
      ((List.range (maxSegmentI + 1)).mapM fun i =>
        (s.segmentData data maxSegmentI i).map
          (frame s.sequenceNumber (UInt16.ofNat maxSegmentI) (UInt16.ofNat i))).map fun new =>
      (.ok (), { s with sequenceNumber := s.sequenceNumber + 1 }, frames ++ new)
    else none

/-- The frames of messages that are all accepted, message by message. -/
def splitAll (s : Splitter) : List Bytes → Option (List (List Bytes))
  | [] => some []
  | data :: messages =>
    match s.split data [] with
    | some (.ok _, s, frames) => (s.splitAll messages).map (frames :: ·)
    | _ => none

end Splitter

/-! ### Receiving -/

/-- A datagram with a header and a byte of data at least. -/
abbrev Frame := { bytes : Bytes // 9 ≤ bytes.length }

namespace Frame

def sequenceNumber (f : Frame) : UInt32 := readU32 (f.val.take 4)

def maxSegmentIndex (f : Frame) : UInt16 := readU16 ((f.val.drop 4).take 2)

def segmentIndex (f : Frame) : UInt16 := readU16 ((f.val.drop 6).take 2)

def payload (f : Frame) : Bytes := f.val.drop 8

end Frame

/-- What is kept of a message: when its first frame came, how many it has, and those that came. -/
structure Entry where
  time : Nat
  neededFrame : Nat
  frames : List Frame

structure FrameBuf where
  expire : Nat
  checkedAt : Nat
  frames : UInt32 → Option Entry

/-- `join_frames`. The source's sort is not stable, which shows only where two frames have one index. -/
def joinFrames (frames : List Frame) : Bytes :=
  ((frames.mergeSort fun a b => a.segmentIndex.toNat ≤ b.segmentIndex.toNat).map Frame.payload).flatten

namespace FrameBuf

def new (now : Nat) : FrameBuf where
  expire := 20000000000
  checkedAt := now
  frames _ := none

/-- Forgets what has expired, not more often than things expire. -/
def check (b : FrameBuf) (now : Nat) : FrameBuf :=
  if b.expire < now - b.checkedAt then
    { b with
      checkedAt := now
      frames := fun n => (b.frames n).filter fun e => now - e.time ≤ b.expire }
  else b

def setEntry (b : FrameBuf) (n : UInt32) (e : Option Entry) : FrameBuf :=
  { b with frames := Function.update b.frames n e }

/-- A frame that is long enough; `later` is the second time that the clock is read. -/
def add (b : FrameBuf) (later : Nat) (f : Frame) : Option Bytes × FrameBuf :=
  if f.maxSegmentIndex = 0 then (some f.payload, b)
  else
    match b.frames f.sequenceNumber with
    | some e =>
      let frames := e.frames ++ [f]
      if e.neededFrame = frames.length then
        (some (joinFrames frames), b.setEntry f.sequenceNumber none)
      else (none, b.setEntry f.sequenceNumber (some { e with frames := frames }))
    | none =>
      (none, b.setEntry f.sequenceNumber (some ⟨later, f.maxSegmentIndex.toNat + 1, [f]⟩))

def push (b : FrameBuf) (now later : Nat) (bytes : Bytes) : Option Bytes × FrameBuf :=
  if h : 9 ≤ bytes.length then (b.check now).add later ⟨bytes, h⟩ else (none, b)

end FrameBuf

/-! ### The header -/

theorem readU32_putU32 (n : UInt32) : readU32 (putU32 n) = n := by
  have hn := n.toNat_lt
  refine UInt32.toNat_inj.1 ?_
  simp only [readU32, putU32, bigEndian, List.foldl_cons, List.foldl_nil, UInt8.toNat_ofNat',
    UInt32.toNat_ofNat']
  omega

theorem putU32_readU32 {bytes : Bytes} (h : bytes.length = 4) : putU32 (readU32 bytes) = bytes := by
  match bytes, h with
  | [a, b, c, d], _ =>
    have ha := a.toNat_lt
    have hb := b.toNat_lt
    have hc := c.toNat_lt
    have hd := d.toNat_lt
    have hn : (readU32 [a, b, c, d]).toNat = ((a.toNat * 256 + b.toNat) * 256 + c.toNat) * 256 + d.toNat := by
      rw [readU32, UInt32.toNat_ofNat', Nat.mod_eq_of_lt]
      · simp [bigEndian]
      · simp only [bigEndian, List.foldl_cons, List.foldl_nil]
        omega
    simp only [putU32, hn, List.cons.injEq, and_true]
    refine ⟨?_, ?_, ?_, ?_⟩ <;> refine UInt8.toNat_inj.1 ?_ <;> rw [UInt8.toNat_ofNat'] <;> omega
theorem readU16_putU16 (n : UInt16) : readU16 (putU16 n) = n := by
  have hn := n.toNat_lt
  refine UInt16.toNat_inj.1 ?_
  simp only [readU16, putU16, bigEndian, List.foldl_cons, List.foldl_nil, UInt8.toNat_ofNat',
    UInt16.toNat_ofNat']
  omega

section

variable {n : UInt32} {m i : UInt16} {data : Bytes}

theorem length_frame : (Splitter.frame n m i data).length = data.length + 8 := by
  simp [Splitter.frame, putU32, putU16]

variable (h : 9 ≤ (Splitter.frame n m i data).length)

@[simp] theorem sequenceNumber_frame : Frame.sequenceNumber ⟨_, h⟩ = n :=
  readU32_putU32 n

@[simp] theorem maxSegmentIndex_frame : Frame.maxSegmentIndex ⟨_, h⟩ = m :=
  readU16_putU16 m

@[simp] theorem segmentIndex_frame : Frame.segmentIndex ⟨_, h⟩ = i :=
  readU16_putU16 i

@[simp] theorem payload_frame : Frame.payload ⟨_, h⟩ = data := rfl

end

end Datagram
end Iscp
