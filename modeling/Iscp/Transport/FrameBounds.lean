import Iscp.Transport.Reassembly

/-!
# What a `FrameBuf` may hold

`FrameBuf` over plain byte strings, with every slice of the source checked. It does what the one of
`Datagram` does, whose frames are long enough by their type, and so no slice fails. What is stored is less
than a message, and never much older than things may get before they expire.
-/

namespace Iscp
namespace Datagram

structure RawEntry where
  time : Nat
  neededFrame : Nat
  frames : List Bytes

structure RawFrameBuf where
  expire : Nat
  checkedAt : Nat
  frames : UInt32 → Option RawEntry

/-- `join_frames`; `none` where a slice is out of bounds. -/
def joinBytes (frames : List Bytes) : Option Bytes := do
  let keyed ← frames.mapM fun frame => (slice frame 6 8).map fun bytes => (readU16 bytes, frame)
  let sorted := keyed.mergeSort fun a b => a.1.toNat ≤ b.1.toNat
  let payloads ← sorted.mapM fun e => slice e.2 8 e.2.length
  return payloads.flatten

namespace RawFrameBuf

def new (now : Nat) : RawFrameBuf where
  expire := 20000000000
  checkedAt := now
  frames _ := none

def check (b : RawFrameBuf) (now : Nat) : RawFrameBuf :=
  if b.expire < now - b.checkedAt then
    { b with
      checkedAt := now
      frames := fun n => (b.frames n).filter fun e => now - e.time ≤ b.expire }
  else b

def setEntry (b : RawFrameBuf) (n : UInt32) (e : Option RawEntry) : RawFrameBuf :=
  { b with frames := Function.update b.frames n e }

/-- `none` where a slice is out of bounds. -/
def push (b : RawFrameBuf) (now later : Nat) (frame : Bytes) : Option (Option Bytes × RawFrameBuf) :=
  if frame.length < 9 then some (none, b)
  else do
    let b := b.check now
    let sequenceNumber := readU32 (← slice frame 0 4)
    let maxSegmentIndex := readU16 (← slice frame 4 6)
    if maxSegmentIndex = 0 then return (some (← slice frame 8 frame.length), b)
    else
      match b.frames sequenceNumber with
      | some e =>
        let frames := e.frames ++ [frame]
        if e.neededFrame = frames.length then
          return (some (← joinBytes frames), b.setEntry sequenceNumber none)
        else return (none, b.setEntry sequenceNumber (some { e with frames := frames }))
      | none =>
        return (none, b.setEntry sequenceNumber (some ⟨later, maxSegmentIndex.toNat + 1, [frame]⟩))

/-- `none` where one of the pushes panics. -/
def after (b : RawFrameBuf) (ds : List Arrival) : Option RawFrameBuf :=
  ds.foldlM (fun b d => (b.push d.now d.later d.frame).map (·.2)) b

end RawFrameBuf

/-! ### No slice is out of bounds -/

def Entry.raw (e : Entry) : RawEntry := ⟨e.time, e.neededFrame, e.frames.map Subtype.val⟩

def FrameBuf.raw (b : FrameBuf) : RawFrameBuf := ⟨b.expire, b.checkedAt, fun n => (b.frames n).map Entry.raw⟩

variable {b : FrameBuf} {f : Frame} {n : UInt32} {now later : Nat}

theorem slice_eq_some {data : Bytes} {i j : Nat} (hi : i ≤ j) (hj : j ≤ data.length) :
    slice data i j = some ((data.drop i).take (j - i)) := if_pos ⟨hi, hj⟩

theorem slice_payload (f : Frame) : slice f.val 8 f.val.length = some f.payload := by
  have := f.property
  rw [slice_eq_some (by omega) (Nat.le_refl _), List.take_of_length_le (by rw [List.length_drop])]
  rfl

theorem joinBytes_frames (frames : List Frame) :
    joinBytes (frames.map Subtype.val) = some (joinFrames frames) := by
  have hkeyed : (frames.map Subtype.val).mapM (fun frame => (slice frame 6 8).map fun bytes =>
      (readU16 bytes, frame)) = some (frames.map fun f => (f.segmentIndex, f.val)) := by
    rw [List.mapM_map]
    refine Splitter.mapM_eq_some fun f _ => ?_
    have := f.property
    show (slice f.val 6 8).map _ = _
    rw [slice_eq_some (by omega) (by omega)]
    rfl
  have hsorted : (frames.map fun f => (f.segmentIndex, f.val)).mergeSort (fun a b => a.1.toNat ≤ b.1.toNat) =
      (frames.mergeSort fun a b => a.segmentIndex.toNat ≤ b.segmentIndex.toNat).map
        fun f => (f.segmentIndex, f.val) := by
    rw [List.map_mergeSort]
    exact fun _ _ _ _ => rfl
  have hpayloads : ((frames.mergeSort fun a b => a.segmentIndex.toNat ≤ b.segmentIndex.toNat).map
      fun f => (f.segmentIndex, f.val)).mapM (fun e => slice e.2 8 e.2.length) =
      some ((frames.mergeSort fun a b => a.segmentIndex.toNat ≤ b.segmentIndex.toNat).map Frame.payload) := by
    rw [List.mapM_map]
    exact Splitter.mapM_eq_some fun f _ => slice_payload f
  simp only [joinBytes, hkeyed, Option.bind_eq_bind, Option.bind_some, hsorted, hpayloads]
  rfl

namespace FrameBuf

theorem raw_check : b.raw.check now = (b.check now).raw := by
  simp only [RawFrameBuf.check, check]
  split
  · rename_i h
    rw [if_pos (show b.expire < now - b.checkedAt from h)]
    simp only [raw, RawFrameBuf.mk.injEq, true_and]
    funext n
    cases b.frames n with
    | none => rfl
    | some e =>
      rw [Option.map_some, Option.filter_some, Option.filter_some, apply_ite (Option.map Entry.raw)]
      rfl
  · rename_i h
    rw [if_neg (show ¬ b.expire < now - b.checkedAt from h)]

theorem raw_setEntry (e : Option Entry) : b.raw.setEntry n (e.map Entry.raw) = (b.setEntry n e).raw := by
  simp only [RawFrameBuf.setEntry, setEntry, raw, RawFrameBuf.mk.injEq, true_and]
  funext m
  by_cases hm : m = n
  · subst hm
    simp
  · simp [Function.update_of_ne hm]

/-- Checked or not, a push does the same. -/
theorem raw_push (bytes : Bytes) :
    b.raw.push now later bytes = some ((b.push now later bytes).1, (b.push now later bytes).2.raw) := by
  by_cases hlen : 9 ≤ bytes.length
  · obtain ⟨f, rfl⟩ : ∃ f : Frame, f.val = bytes := ⟨⟨bytes, hlen⟩, rfl⟩
    rw [push_frame]
    generalize hb : b.check now = b'
    have hnumber : slice f.val 0 4 = some (f.val.take 4) := slice_eq_some (by omega) (by omega)
    have hlast : slice f.val 4 6 = some ((f.val.drop 4).take 2) := slice_eq_some (by omega) (by omega)
    simp only [RawFrameBuf.push, if_neg (Nat.not_lt.2 hlen), raw_check, hb, hnumber, hlast, slice_payload,
      Option.bind_eq_bind, Option.bind_some]
    show (if f.maxSegmentIndex = 0 then some (some f.payload, b'.raw) else _) = _
    unfold add
    split
    · rfl
    · have hraw : b'.raw.frames (readU32 (f.val.take 4)) = (b'.frames f.sequenceNumber).map Entry.raw := rfl
      rw [hraw]
      cases b'.frames f.sequenceNumber with
      | none =>
        simp only [Option.map_none, ← raw_setEntry, Option.map_some]
        rfl
      | some e =>
        have hframes : e.raw.frames ++ [f.val] = (e.frames ++ [f]).map Subtype.val := by
          rw [List.map_append]
          rfl
        simp only [Option.map_some, hframes, List.length_map, joinBytes_frames,
          Option.bind_some]
        show (if e.neededFrame = (e.frames ++ [f]).length then _ else _) = _
        split
        · rw [← raw_setEntry]
          rfl
        · rw [← raw_setEntry]
          rfl
  · rw [RawFrameBuf.push, if_pos (Nat.lt_of_not_le hlen), push, dif_neg hlen]

theorem raw_after (ds : List Arrival) : b.raw.after ds = some (b.after ds).raw := by
  induction ds generalizing b with
  | nil => rfl
  | cons d ds ih =>
    rw [RawFrameBuf.after, List.foldlM_cons, raw_push]
    exact ih

end FrameBuf

/-! ### What is stored -/

/-- An entry under the number `n` holds some of the frames it needs, and not all. -/
structure RawEntry.Partial (n : UInt32) (e : RawEntry) : Prop where
  length_pos : 0 < e.frames.length
  length_lt : e.frames.length < e.neededFrame
  le_needed : 2 ≤ e.neededFrame
  needed_le : e.neededFrame ≤ 65536
  frames : ∀ bytes ∈ e.frames, 9 ≤ bytes.length ∧ readU32 (bytes.take 4) = n

/-- What holds of a buffer at a time from the last push on. -/
structure FrameBuf.Bounded (b : FrameBuf) (now : Nat) : Prop where
  entries : ∀ n e, b.frames n = some e → e.raw.Partial n
  checkedAt : b.checkedAt ≤ now
  /-- What was expired at the last check is gone. -/
  time : ∀ n e, b.frames n = some e → b.checkedAt ≤ e.time + b.expire

/-- No entry is older than twice the expiry. -/
def FrameBuf.Young (b : FrameBuf) (now : Nat) : Prop :=
  ∀ n e, b.frames n = some e → now ≤ e.time + 2 * b.expire

namespace FrameBuf.Bounded

theorem check {t : Nat} (h : b.Bounded t) (ht : t ≤ now) :
    (b.check now).Bounded now ∧ (b.check now).Young now := by
  have hchecked := h.checkedAt
  unfold FrameBuf.check
  split
  · -- Everything that is still there is younger than the expiry.
    have hkept {n : UInt32} {e : Entry} (he : ((b.frames n).filter fun e => now - e.time ≤ b.expire) = some e) :
        b.frames n = some e ∧ now - e.time ≤ b.expire := by
      obtain ⟨he, ht⟩ := Option.filter_eq_some_iff.1 he
      exact ⟨he, of_decide_eq_true ht⟩
    refine ⟨⟨fun n e he => h.entries n e (hkept he).1, Nat.le_refl _, fun n e he => ?_⟩, fun n e he => ?_⟩
    · have := (hkept he).2
      show now ≤ e.time + b.expire
      omega
    · have := (hkept he).2
      show now ≤ e.time + 2 * b.expire
      omega
  · refine ⟨⟨h.entries, by omega, h.time⟩, fun n e he => ?_⟩
    have := h.time n e he
    omega

theorem partial_more {e : Entry} (h : e.raw.Partial f.sequenceNumber)
    (hn : e.neededFrame ≠ e.frames.length + 1) :
    ({ e with frames := e.frames ++ [f] } : Entry).raw.Partial f.sequenceNumber := by
  have hlen : e.raw.frames.length = e.frames.length := List.length_map _
  have hlt : e.raw.frames.length < e.neededFrame := h.length_lt
  refine ⟨by simp [Entry.raw], ?_, h.le_needed, h.needed_le, ?_⟩
  · show ((e.frames ++ [f]).map Subtype.val).length < e.neededFrame
    rw [List.length_map, List.length_append, List.length_singleton]
    omega
  · intro bytes hb
    have hb : bytes ∈ (e.frames ++ [f]).map Subtype.val := hb
    rw [List.map_append, List.mem_append] at hb
    rcases hb with hb | hb
    · exact h.frames bytes hb
    · obtain rfl := List.mem_singleton.1 hb
      exact ⟨f.property, rfl⟩

theorem partial_first (h0 : f.maxSegmentIndex ≠ 0) :
    (⟨later, f.maxSegmentIndex.toNat + 1, [f]⟩ : Entry).raw.Partial f.sequenceNumber := by
  have hpos : f.maxSegmentIndex.toNat ≠ 0 := fun h => h0 (UInt16.toNat_inj.1 h)
  have hlt := f.maxSegmentIndex.toNat_lt
  refine ⟨Nat.one_pos, ?_, ?_, ?_, ?_⟩
  · show 1 < f.maxSegmentIndex.toNat + 1
    omega
  · show 2 ≤ f.maxSegmentIndex.toNat + 1
    omega
  · show f.maxSegmentIndex.toNat + 1 ≤ 65536
    omega
  · intro bytes hb
    obtain rfl := List.mem_singleton.1 hb
    exact ⟨f.property, rfl⟩

theorem setEntry {o : Option Entry} (h : b.Bounded now) (hy : b.Young now) (hl : now ≤ later)
    (ho : ∀ e ∈ o, e.raw.Partial n ∧ b.checkedAt ≤ e.time + b.expire ∧ now ≤ e.time + 2 * b.expire) :
    (b.setEntry n o).Bounded later ∧ (b.setEntry n o).Young now := by
  have hentry {m : UInt32} {e : Entry} (he : (b.setEntry n o).frames m = some e) :
      e.raw.Partial m ∧ b.checkedAt ≤ e.time + b.expire ∧ now ≤ e.time + 2 * b.expire := by
    by_cases hm : m = n
    · subst hm
      rw [frames_setEntry] at he
      exact ho e he
    · rw [frames_setEntry_of_ne hm] at he
      exact ⟨h.entries m e he, h.time m e he, hy m e he⟩
  exact ⟨⟨fun _ _ he => (hentry he).1, Nat.le_trans h.checkedAt hl, fun _ _ he => (hentry he).2.1⟩,
    fun _ _ he => (hentry he).2.2⟩

theorem adds {o : Option Bytes} {b' : FrameBuf} (h : b.Bounded now) (hy : b.Young now) (hl : now ≤ later)
    (ha : b.Adds later f o b') : b'.Bounded later ∧ b'.Young now := by
  have hchecked := h.checkedAt
  cases ha with
  | single => exact ⟨⟨h.entries, Nat.le_trans hchecked hl, h.time⟩, hy⟩
  | fill => exact h.setEntry hy hl (by simp)
  | @more e h0 he hn =>
    refine h.setEntry hy hl fun e' he' => ?_
    obtain rfl := Option.some.inj he'
    exact ⟨partial_more (h.entries _ e he) hn, h.time _ e he, hy _ e he⟩
  | first h0 =>
    refine h.setEntry hy hl fun e' he' => ?_
    obtain rfl := Option.some.inj he'
    refine ⟨partial_first h0, ?_, ?_⟩
    · show b.checkedAt ≤ later + b.expire
      omega
    · show now ≤ later + 2 * b.expire
      omega

theorem push {t : Nat} (h : b.Bounded t) (ht : t ≤ now) (hl : now ≤ later) (bytes : Bytes) :
    (b.push now later bytes).2.Bounded later ∧
      (9 ≤ bytes.length → (b.push now later bytes).2.Young now) := by
  by_cases hlen : 9 ≤ bytes.length
  · obtain ⟨hb, hy⟩ := h.check ht
    rw [FrameBuf.push, dif_pos hlen]
    obtain ⟨hb', hy'⟩ := hb.adds hy hl (add_adds (f := ⟨bytes, hlen⟩))
    exact ⟨hb', fun _ => hy'⟩
  · rw [FrameBuf.push, dif_neg hlen]
    exact ⟨⟨h.entries, Nat.le_trans h.checkedAt (Nat.le_trans ht hl), h.time⟩, fun h => absurd h hlen⟩

theorem after {t u : Nat} {ds : List Arrival} (h : b.Bounded t) (hc : Clock ds) (ht : ∀ d ∈ ds, t ≤ d.now)
    (hu : ∀ d ∈ ds, d.later ≤ u) (htu : t ≤ u) : (b.after ds).Bounded u := by
  induction ds generalizing b t with
  | nil => exact ⟨h.entries, Nat.le_trans h.checkedAt htu, h.time⟩
  | cons d ds ih =>
    obtain ⟨hd, hpushes⟩ := List.pairwise_cons.1 hc.pushes
    have hpush := (h.push (ht d (by simp)) (hc.within d (by simp)) d.frame).1
    exact ih hpush ⟨hpushes, fun d' hd' => hc.within d' (by simp [hd'])⟩ hd
      (fun d' hd' => hu d' (by simp [hd'])) (hu d (by simp))

end FrameBuf.Bounded

namespace FrameBuf

theorem expire_push (bytes : Bytes) : (b.push now later bytes).2.expire = b.expire := by
  unfold push
  split
  · rw [add_adds.expire, expire_check]
  · rfl

theorem expire_after (ds : List Arrival) : (b.after ds).expire = b.expire := by
  induction ds using List.reverseRecOn with
  | nil => rfl
  | append_singleton ds d ih => rw [after_concat, expire_push, ih]

end FrameBuf

theorem bounded_new (expire t : Nat) : ({ FrameBuf.new t with expire } : FrameBuf).Bounded t :=
  ⟨by simp [FrameBuf.new], Nat.le_refl _, by simp [FrameBuf.new]⟩

/-- Whatever is pushed at times that do not go back: no slice is out of bounds, every entry stored is partial,
and after a push of nine bytes or more none is older than twice the expiry. -/
theorem pushes_bounded (expire t : Nat) (ds : List Arrival) (hc : Clock ds) (ht : ∀ d ∈ ds, t ≤ d.now) :
    ∃ b, ({ RawFrameBuf.new t with expire } : RawFrameBuf).after ds = some b ∧
      (∀ n e, b.frames n = some e → e.Partial n) ∧
      ∀ d ∈ ds.getLast?, 9 ≤ d.frame.length →
        ∀ n e, b.frames n = some e → d.now ≤ e.time + 2 * expire := by
  have hnew := bounded_new expire t
  refine ⟨_, FrameBuf.raw_after (b := { FrameBuf.new t with expire }) ds, ?_⟩
  rcases List.eq_nil_or_concat ds with rfl | ⟨ds, d, rfl⟩
  · exact ⟨by simp [FrameBuf.after, FrameBuf.raw, FrameBuf.new], by simp⟩
  · rw [List.concat_eq_append] at hc ht ⊢
    obtain ⟨hpushes, -, hlast⟩ := List.pairwise_append.1 hc.pushes
    have hbefore := hnew.after ⟨hpushes, fun d' hd' => hc.within d' (by simp [hd'])⟩
      (fun d' hd' => ht d' (by simp [hd'])) (fun d' hd' => hlast d' hd' d (by simp)) (ht d (by simp))
    obtain ⟨hb, hy⟩ := hbefore.push (Nat.le_refl _) (hc.within d (by simp)) d.frame
    rw [FrameBuf.after_concat]
    constructor
    · intro n raw hraw
      obtain ⟨e, he, rfl⟩ := Option.map_eq_some_iff.1 hraw
      exact hb.entries n e he
    · intro d' hd' hlen n raw hraw
      obtain rfl : d' = d := by simpa using hd'.symm
      obtain ⟨e, he, rfl⟩ := Option.map_eq_some_iff.1 hraw
      have hage := hy hlen n e he
      rwa [FrameBuf.expire_push, FrameBuf.expire_after] at hage

/-- A message of three frames of which two have come, a malformed byte string, and a frame that comes when all
of this has expired. -/
theorem pushes_bounded_three :
    ∃ b, ({ RawFrameBuf.new 0 with expire := 10 } : RawFrameBuf).after
        [⟨1, 1, [0, 0, 0, 7, 0, 2, 0, 0, 1]⟩, ⟨2, 3, [0, 0, 0, 7, 0, 2, 0, 1, 2]⟩, ⟨3, 3, [1]⟩,
          ⟨40, 41, [0, 0, 0, 8, 0, 9, 0, 0, 3]⟩] = some b ∧
      (∀ n e, b.frames n = some e → e.Partial n) ∧
      ∀ n e, b.frames n = some e → 40 ≤ e.time + 2 * 10 := by
  obtain ⟨b, hb, hp, hy⟩ := pushes_bounded 10 0 [⟨1, 1, [0, 0, 0, 7, 0, 2, 0, 0, 1]⟩,
    ⟨2, 3, [0, 0, 0, 7, 0, 2, 0, 1, 2]⟩, ⟨3, 3, [1]⟩, ⟨40, 41, [0, 0, 0, 8, 0, 9, 0, 0, 3]⟩]
    ⟨by decide, by decide⟩ (by decide)
  exact ⟨b, hb, hp, hy ⟨40, 41, [0, 0, 0, 8, 0, 9, 0, 0, 3]⟩ rfl (by decide)⟩

end Datagram
end Iscp
