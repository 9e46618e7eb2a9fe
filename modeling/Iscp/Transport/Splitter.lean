import Iscp.Transport.Datagram

/-!
# What `Splitter` sends

The frames of a message that is accepted carry its number, the index of the last of them and their own
indices in order, and their payloads make up the message.
-/

namespace Iscp
namespace Datagram

/-- The frames of the message `data` with the number `n`. -/
structure Segmented (n : UInt32) (data : Bytes) (frames : List Frame) : Prop where
  number : ∀ f ∈ frames, f.sequenceNumber = n
  last : ∀ f ∈ frames, f.maxSegmentIndex.toNat + 1 = frames.length
  index : frames.map (·.segmentIndex.toNat) = List.range frames.length
  data : (frames.map Frame.payload).flatten = data

namespace Splitter

variable {s s' : Splitter} {data : Bytes} {frames : List Bytes} {i : Nat}

/-- Where the last segment of a message begins and ends. -/
theorem maxSegmentI_bounds (s : Splitter) (data : Bytes) :
    s.maxSegmentI data * s.maxSegmentSize ≤ data.length ∧
      data.length ≤ (s.maxSegmentI data + 1) * s.maxSegmentSize ∧
      (data ≠ [] → s.maxSegmentI data * s.maxSegmentSize < data.length) := by
  have hpos := s.pos
  rw [ne_eq, ← List.length_eq_zero_iff]
  have hdiv := Nat.div_add_mod' data.length s.maxSegmentSize
  have hmod := Nat.mod_lt data.length hpos
  simp only [maxSegmentI]
  split
  · rename_i h
    obtain ⟨k, hk⟩ := Nat.exists_eq_succ_of_ne_zero (Nat.ne_of_gt h.2)
    rw [hk, Nat.succ_sub_one]
    rw [hk, h.1] at hdiv
    rw [Nat.succ_mul] at hdiv ⊢
    omega
  · rename_i h
    rw [Nat.succ_mul]
    refine ⟨by omega, by omega, fun hne => ?_⟩
    by_cases h0 : data.length % s.maxSegmentSize = 0
    · have hz : data.length / s.maxSegmentSize = 0 := by
        by_contra hne
        exact h ⟨h0, Nat.pos_of_ne_zero hne⟩
      rw [hz]
      omega
    · omega

theorem maxSegmentI_lt (h : data.length < s.maxMessageSize) : s.maxSegmentI data < 65535 := by
  have hb := (s.maxSegmentI_bounds data).1
  have hle := s.le
  have hlt : s.maxSegmentI data * s.maxSegmentSize < 65535 * s.maxSegmentSize := by
    rw [Nat.mul_comm 65535]
    omega
  exact Nat.lt_of_mul_lt_mul_right hlt

/-- No slice is out of bounds, and each is its segment of the message. -/
theorem segmentData_eq (hi : i ≤ s.maxSegmentI data) :
    s.segmentData data (s.maxSegmentI data) i = some (Segments.segment s.maxSegmentSize data i) := by
  obtain ⟨hlo, hhi, -⟩ := s.maxSegmentI_bounds data
  rw [segmentData]
  split
  · rename_i h
    subst h
    rw [slice, if_pos ⟨hlo, Nat.le_refl _⟩, Segments.segment_eq_drop hhi,
      List.take_of_length_le (by rw [List.length_drop])]
  · have hle : (i + 1) * s.maxSegmentSize ≤ s.maxSegmentI data * s.maxSegmentSize :=
      Nat.mul_le_mul_right _ (by omega)
    rw [Nat.succ_mul] at hle
    rw [slice, Nat.succ_mul, if_pos (by omega), Nat.add_sub_cancel_left, Segments.segment]

theorem segment_ne_nil (hne : data ≠ []) (hi : i ≤ s.maxSegmentI data) :
    Segments.segment s.maxSegmentSize data i ≠ [] := by
  have hlo := (s.maxSegmentI_bounds data).2.2 hne
  have hpos := s.pos
  have hle : i * s.maxSegmentSize ≤ s.maxSegmentI data * s.maxSegmentSize := Nat.mul_le_mul_right _ hi
  rw [← List.length_pos_iff, Segments.segment, List.length_take, List.length_drop]
  omega

theorem mapM_eq_some {α β : Type} {f : α → Option β} {g : α → β} {l : List α}
    (h : ∀ a ∈ l, f a = some (g a)) : l.mapM f = some (l.map g) := by
  induction l with
  | nil => rfl
  | cons a l ih =>
    rw [List.mapM_cons, h a (by simp), ih fun b hb => h b (List.mem_cons_of_mem _ hb)]
    rfl

/-- The frames of a message that is accepted. -/
theorem split_eq (h : data.length < s.maxMessageSize) :
    s.split data frames = some (.ok (), { s with sequenceNumber := s.sequenceNumber + 1 },
      frames ++ (List.range (s.maxSegmentI data + 1)).map fun i =>
        frame s.sequenceNumber (UInt16.ofNat (s.maxSegmentI data)) (UInt16.ofNat i)
          (Segments.segment s.maxSegmentSize data i)) := by
  have hlt := maxSegmentI_lt h
  rw [split, if_neg (Nat.not_le.2 h)]
  simp only
  rw [if_pos (by omega), mapM_eq_some (g := fun i =>
    frame s.sequenceNumber (UInt16.ofNat (s.maxSegmentI data)) (UInt16.ofNat i)
      (Segments.segment s.maxSegmentSize data i))]
  · rfl
  · intro i hi
    rw [segmentData_eq (by have := List.mem_range.1 hi; omega), Option.map_some]

theorem split_segmented (hne : data ≠ []) (h : s.split data [] = some (.ok (), s', frames)) :
    s' = { s with sequenceNumber := s.sequenceNumber + 1 } ∧
    ∃ fs : List Frame, fs.map Subtype.val = frames ∧ Segmented s.sequenceNumber data fs := by
  have hlen : data.length < s.maxMessageSize := by
    by_contra hle
    rw [split, if_pos (Nat.not_lt.1 hle)] at h
    cases h
  have hlt := maxSegmentI_lt hlen
  rw [split_eq hlen] at h
  simp only [List.nil_append, Option.some.injEq, Prod.mk.injEq, true_and] at h
  obtain ⟨rfl, rfl⟩ := h
  refine ⟨rfl, ?_⟩
  -- Every frame has a byte of data.
  have hf : ∀ i ∈ List.range (s.maxSegmentI data + 1),
      9 ≤ (frame s.sequenceNumber (UInt16.ofNat (s.maxSegmentI data)) (UInt16.ofNat i)
        (Segments.segment s.maxSegmentSize data i)).length := by
    intro i hi
    have := List.length_pos_iff.2 (segment_ne_nil (s := s) hne (i := i) (by
      have := List.mem_range.1 hi; omega))
    rw [length_frame]
    omega
  refine ⟨(List.range (s.maxSegmentI data + 1)).pmap (fun i hi => ⟨_, hi⟩) hf, ?_, ?_⟩
  · rw [List.map_pmap, List.pmap_eq_map]
  · refine ⟨?_, ?_, ?_, ?_⟩
    · intro f hm
      obtain ⟨i, -, rfl⟩ := List.mem_pmap.1 hm
      exact sequenceNumber_frame _
    · intro f hm
      obtain ⟨i, -, rfl⟩ := List.mem_pmap.1 hm
      rw [maxSegmentIndex_frame, List.length_pmap, List.length_range, UInt16.toNat_ofNat',
        Nat.mod_eq_of_lt (by omega)]
    · rw [List.map_pmap, List.length_pmap, List.length_range]
      simp only [segmentIndex_frame]
      rw [List.pmap_eq_map]
      refine (List.map_congr_left fun i hi => ?_).trans (List.map_id _)
      have := List.mem_range.1 hi
      rw [UInt16.toNat_ofNat', Nat.mod_eq_of_lt (by omega), id]
    · rw [List.map_pmap]
      simp only [payload_frame]
      rw [List.pmap_eq_map]
      exact Segments.flatten_segments (s.maxSegmentI_bounds data).2.1

/-! ### Every message -/

/-- The frames for the message `data`, also for an empty one, whose only frame is a header. -/
structure Splits (maxDatagramSize : Nat) (n : UInt32) (data : Bytes) (new : List Bytes) : Prop where
  count : new.length = max 1 ((data.length + (maxDatagramSize - 8) - 1) / (maxDatagramSize - 8))
  count_le : new.length ≤ 65535
  size : ∀ bytes ∈ new, bytes.length ≤ maxDatagramSize
  number : ∀ bytes ∈ new, readU32 (bytes.take 4) = n
  lastIndex : ∀ bytes ∈ new, (readU16 ((bytes.drop 4).take 2)).toNat + 1 = new.length
  index : new.map (fun bytes => (readU16 ((bytes.drop 6).take 2)).toNat) = List.range new.length
  payload : (new.map (·.drop 8)).flatten = data
  full : ∀ bytes ∈ new.dropLast, bytes.length = maxDatagramSize
  last : data ≠ [] → ∀ bytes ∈ new.getLast?, 8 < bytes.length

theorem maxSegmentI_succ (s : Splitter) (data : Bytes) :
    s.maxSegmentI data + 1 = max 1 ((data.length + s.maxSegmentSize - 1) / s.maxSegmentSize) := by
  obtain ⟨-, hhi, hlo⟩ := s.maxSegmentI_bounds data
  have hpos := s.pos
  by_cases hne : data = []
  · subst hne
    have : (0 + s.maxSegmentSize - 1) / s.maxSegmentSize = 0 := Nat.div_eq_of_lt (by omega)
    rw [List.length_nil, this]
    simp [maxSegmentI]
  · have hlo := hlo hne
    have hceil : (data.length + s.maxSegmentSize - 1) / s.maxSegmentSize = s.maxSegmentI data + 1 := by
      rw [Nat.succ_mul] at hhi
      refine Nat.div_eq_of_lt_le ?_ ?_ <;> rw [Nat.succ_mul]
      · omega
      · rw [Nat.succ_mul]
        omega
    rw [hceil]
    omega

theorem length_segment_of_lt (h : i < s.maxSegmentI data) :
    (Segments.segment s.maxSegmentSize data i).length = s.maxSegmentSize := by
  have hlo := (s.maxSegmentI_bounds data).1
  have hle : (i + 1) * s.maxSegmentSize ≤ s.maxSegmentI data * s.maxSegmentSize := Nat.mul_le_mul_right _ h
  rw [Nat.succ_mul] at hle
  rw [Segments.segment, List.length_take, List.length_drop]
  omega

theorem splits_frames {maxDatagramSize : Nat} {n : UInt32} (hm : 8 < maxDatagramSize)
    (hs : s.maxSegmentSize = maxDatagramSize - 8) (h : data.length < s.maxMessageSize) :
    Splits maxDatagramSize n data ((List.range (s.maxSegmentI data + 1)).map fun i =>
      frame n (UInt16.ofNat (s.maxSegmentI data)) (UInt16.ofNat i) (Segments.segment s.maxSegmentSize data i)) := by
  have hlt := maxSegmentI_lt h
  have htoNat {i : Nat} (hi : i ≤ s.maxSegmentI data) : (UInt16.ofNat i).toNat = i := by
    rw [UInt16.toNat_ofNat', Nat.mod_eq_of_lt (by omega)]
  have hlen (i : Nat) : (Segments.segment s.maxSegmentSize data i).length ≤ maxDatagramSize - 8 := by
    rw [Segments.segment, ← hs]
    exact List.length_take_le _ _
  constructor
  · rw [List.length_map, List.length_range, s.maxSegmentI_succ, hs]
  · rw [List.length_map, List.length_range]
    omega
  · simp only [List.forall_mem_map, length_frame]
    intro i _
    have := hlen i
    omega
  · simp only [List.forall_mem_map]
    exact fun i _ => readU32_putU32 n
  · simp only [List.forall_mem_map, List.length_map, List.length_range]
    intro i _
    exact congrArg (· + 1) ((congrArg UInt16.toNat (readU16_putU16 _)).trans (htoNat (Nat.le_refl _)))
  · rw [List.map_map, List.length_map, List.length_range]
    refine (List.map_congr_left fun i hi => ?_).trans (List.map_id _)
    exact (congrArg UInt16.toNat (readU16_putU16 _)).trans (htoNat (Nat.le_of_lt_succ (List.mem_range.1 hi)))
  · rw [List.map_map]
    exact Segments.flatten_segments (s.maxSegmentI_bounds data).2.1
  · rw [List.range_succ, List.map_append, List.map_singleton, List.dropLast_concat]
    simp only [List.forall_mem_map, length_frame]
    intro i hi
    rw [length_segment_of_lt (List.mem_range.1 hi)]
    omega
  · intro hne
    rw [List.range_succ, List.map_append, List.map_singleton, List.getLast?_concat]
    simp only [Option.mem_def, Option.some.injEq, forall_eq', length_frame]
    have := List.length_pos_iff.2 (segment_ne_nil (s := s) hne (Nat.le_refl _))
    omega

/-- For every datagram size whose product fits into `usize`, every number and every message: `split` refuses a
message that is too long and changes nothing, and appends the frames of every other one. -/
theorem split_splits (maxDatagramSize : Nat) (hm : 8 < maxDatagramSize)
    (hfit : (maxDatagramSize - 8) * 65535 < 2 ^ 64) (n : UInt32) (data : Bytes) (frames : List Bytes) :
    let s := { new maxDatagramSize hm with sequenceNumber := n }
    ((maxDatagramSize - 8) * 65535 ≤ data.length ∧ s.split data frames = some (.error (), s, frames)) ∨
      ∃ added, s.split data frames = some (.ok (), { s with sequenceNumber := n + 1 }, frames ++ added) ∧
        Splits maxDatagramSize n data added := by
  intro s
  have hmax : s.maxMessageSize = (maxDatagramSize - 8) * 65535 := Nat.mod_eq_of_lt hfit
  by_cases hlen : s.maxMessageSize ≤ data.length
  · exact .inl ⟨hmax ▸ hlen, if_pos hlen⟩
  · have hlen := Nat.lt_of_not_le hlen
    exact .inr ⟨_, split_eq hlen, splits_frames hm rfl hlen⟩

/-- A message of two full segments, in datagrams of 12 bytes. -/
theorem split_splits_two :
    ∃ added, ({ new 12 (by decide) with sequenceNumber := 7 }).split [0, 1, 2, 3, 4, 5, 6, 7] [] =
        some (.ok (), { new 12 (by decide) with sequenceNumber := 8 }, added) ∧
      Splits 12 7 [0, 1, 2, 3, 4, 5, 6, 7] added := by
  rcases split_splits 12 (by decide) (by decide) 7 [0, 1, 2, 3, 4, 5, 6, 7] [] with ⟨h, -⟩ | h
  · exact absurd h (by decide)
  · exact h

end Splitter
end Datagram
end Iscp
