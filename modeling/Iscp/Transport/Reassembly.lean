import Iscp.Lib.Machine
import Iscp.Transport.Splitter
import Mathlib.Data.List.Perm.Subperm
import Mathlib.Data.List.Induction

/-!
# What `FrameBuf` puts together

The frames of numbered messages arrive in any order. An entry holds frames of one message and goes when
there are as many of them as the message has; as long as no frame comes twice those are all of them.
-/

namespace Iscp
namespace Datagram

/-- A frame that comes, with the two times at which `push` reads the clock. -/
structure Arrival where
  now : Nat
  later : Nat
  frame : Bytes
deriving DecidableEq

/-- The clock never goes back. -/
structure Clock (ds : List Arrival) : Prop where
  pushes : ds.Pairwise fun d d' => d.later ≤ d'.now
  within : ∀ d ∈ ds, d.now ≤ d.later

/-- The messages of a sender, by their numbers, with their frames. -/
abbrev Sent := UInt32 → Option (Bytes × List Frame)

namespace FrameBuf

def returned (b : FrameBuf) (d : Arrival) : Option Bytes := (b.push d.now d.later d.frame).1

def after (b : FrameBuf) (ds : List Arrival) : FrameBuf :=
  ds.foldl (fun b d => (b.push d.now d.later d.frame).2) b

theorem after_concat (b : FrameBuf) (ds : List Arrival) (d : Arrival) :
    b.after (ds ++ [d]) = ((b.after ds).push d.now d.later d.frame).2 := List.foldl_append

end FrameBuf

variable {b : FrameBuf} {f g : Frame} {fs : List Frame} {n : UInt32} {data v : Bytes} {e : Entry}
  {now later : Nat} {sent : Sent}

/-! ### The frames of a message -/

namespace Segmented

theorem nodup (h : Segmented n data fs) : fs.Nodup := Segments.nodup_of_numbered h.index

theorem joinFrames_eq (h : Segmented n data fs) {gs : List Frame} (hp : gs.Perm fs) :
    joinFrames gs = data := by
  rw [joinFrames, Segments.mergeSort_eq_of_numbered h.index hp, h.data]

theorem eq_singleton (h : Segmented n data fs) (hf : f ∈ fs) (h0 : f.maxSegmentIndex = 0) :
    fs = [f] ∧ f.payload = data := by
  have hl := h.last f hf
  rw [h0] at hl
  obtain ⟨g, rfl⟩ := List.length_eq_one_iff.1 hl.symm
  obtain rfl := List.mem_singleton.1 hf
  exact ⟨rfl, by simpa using h.data⟩

theorem length_ne_one (h : Segmented n data fs) (hf : f ∈ fs) (h0 : f.maxSegmentIndex ≠ 0) :
    fs.length ≠ 1 := by
  intro hl
  have := h.last f hf
  refine h0 (UInt16.toNat_inj.1 ?_)
  show f.maxSegmentIndex.toNat = 0
  omega

end Segmented

/-! ### One push -/

namespace FrameBuf

theorem push_frame : b.push now later f.val = (b.check now).add later f := dif_pos f.property

theorem check_eq_none (h : b.frames n = none) : (b.check now).frames n = none := by
  unfold check
  split
  · simp [h]
  · exact h

theorem check_eq_some (h : (b.check now).frames n = some e) : b.frames n = some e := by
  unfold check at h
  split at h
  · exact (Option.filter_eq_some_iff.1 h).1
  · exact h

theorem check_of_le (h : b.frames n = some e) (ht : now ≤ e.time + b.expire) :
    (b.check now).frames n = some e := by
  unfold check
  split
  · refine Option.filter_eq_some_iff.2 ⟨h, decide_eq_true ?_⟩
    omega
  · exact h

@[simp] theorem expire_check : (b.check now).expire = b.expire := by
  unfold check; split <;> rfl

@[simp] theorem frames_setEntry {o : Option Entry} : (b.setEntry n o).frames n = o := by
  simp [setEntry]

theorem frames_setEntry_of_ne {m : UInt32} (h : m ≠ n) {o : Option Entry} :
    (b.setEntry n o).frames m = b.frames m := Function.update_of_ne h ..

inductive Adds (b : FrameBuf) (later : Nat) (f : Frame) : Option Bytes → FrameBuf → Prop
  | single : f.maxSegmentIndex = 0 → Adds b later f (some f.payload) b
  | fill {e : Entry} : f.maxSegmentIndex ≠ 0 → b.frames f.sequenceNumber = some e →
      e.neededFrame = e.frames.length + 1 →
      Adds b later f (some (joinFrames (e.frames ++ [f]))) (b.setEntry f.sequenceNumber none)
  | more {e : Entry} : f.maxSegmentIndex ≠ 0 → b.frames f.sequenceNumber = some e →
      e.neededFrame ≠ e.frames.length + 1 →
      Adds b later f none (b.setEntry f.sequenceNumber (some { e with frames := e.frames ++ [f] }))
  | first : f.maxSegmentIndex ≠ 0 → b.frames f.sequenceNumber = none →
      Adds b later f none
        (b.setEntry f.sequenceNumber (some ⟨later, f.maxSegmentIndex.toNat + 1, [f]⟩))

theorem add_adds : Adds b later f (b.add later f).1 (b.add later f).2 := by
  unfold add
  split
  · rename_i h0
    exact .single h0
  · rename_i h0
    split
    · rename_i e he
      simp only [List.length_append, List.length_singleton]
      split
      · rename_i hn; exact .fill h0 he hn
      · rename_i hn; exact .more h0 he hn
    · rename_i he
      exact .first h0 he

theorem Adds.expire {o : Option Bytes} {b' : FrameBuf} (h : Adds b later f o b') : b'.expire = b.expire := by
  cases h <;> rfl

theorem Adds.frames_of_ne {o : Option Bytes} {b' : FrameBuf} (h : Adds b later f o b')
    (hn : n ≠ f.sequenceNumber) : b'.frames n = b.frames n := by
  cases h with
  | single => rfl
  | fill | more | first => exact frames_setEntry_of_ne hn

end FrameBuf

/-! ### What is held -/

def Sent.Valid (sent : Sent) : Prop := ∀ n data fs, sent n = some (data, fs) → Segmented n data fs

def Sent.Has (sent : Sent) (f : Frame) : Prop :=
  ∃ data fs, sent f.sequenceNumber = some (data, fs) ∧ f ∈ fs

/-- An entry holds frames of its message and knows how many there are. -/
def Held (sent : Sent) (b : FrameBuf) : Prop := ∀ n e, b.frames n = some e →
  ∃ data fs, sent n = some (data, fs) ∧ e.neededFrame = fs.length ∧ ∀ f ∈ e.frames, f ∈ fs

namespace Held

theorem check (h : Held sent b) : Held sent (b.check now) :=
  fun n e he => h n e (FrameBuf.check_eq_some he)

theorem adds (h : Held sent b) (hv : sent.Valid) (hf : sent.Has f) {o : Option Bytes} {b' : FrameBuf}
    (ha : b.Adds later f o b') : Held sent b' := by
  obtain ⟨data, fs, hs, hm⟩ := hf
  intro n e he
  by_cases hn : n = f.sequenceNumber
  · subst hn
    cases ha with
    | single => exact h _ _ he
    | fill => simp at he
    | @more e₀ h0 h₀ =>
      rw [FrameBuf.frames_setEntry] at he
      obtain rfl := Option.some.inj he
      obtain ⟨data', fs', hs', hneed, hin⟩ := h _ _ h₀
      obtain ⟨rfl, rfl⟩ := Prod.mk.inj (Option.some.inj (hs.symm.trans hs'))
      refine ⟨data, fs, hs, hneed, fun g hg => ?_⟩
      rcases List.mem_append.1 hg with hg | hg
      · exact hin g hg
      · rwa [List.mem_singleton.1 hg]
    | first h0 =>
      rw [FrameBuf.frames_setEntry] at he
      obtain rfl := Option.some.inj he
      refine ⟨data, fs, hs, (hv _ _ _ hs).last f hm, fun g hg => ?_⟩
      rwa [List.mem_singleton.1 hg]
  · rw [ha.frames_of_ne hn] at he
    exact h n e he

end Held

/-! ### Repeated frames -/

/-- The frames of its message that are there when `f` has come. -/
def FrameBuf.gathered (b : FrameBuf) (f : Frame) : List Frame :=
  (match b.frames f.sequenceNumber with
    | some e => e.frames
    | none => []) ++ [f]

def FrameBuf.Fills (b : FrameBuf) (f : Frame) : Prop :=
  match b.frames f.sequenceNumber with
  | some e => e.neededFrame = e.frames.length + 1
  | none => False

theorem FrameBuf.gathered_of_some (h : b.frames f.sequenceNumber = some e) :
    b.gathered f = e.frames ++ [f] := by
  rw [gathered, h]

/-- A push that fills an entry which holds no frame twice returns the message. -/
theorem add_eq_data (h : Held sent b) (hv : sent.Valid) (hs : sent f.sequenceNumber = some (data, fs))
    (hm : f ∈ fs) (hnd : b.Fills f → (b.gathered f).Nodup) (hr : (b.add later f).1 = some v) :
    v = data ∧ ∀ g ∈ fs, g ∈ b.gathered f := by
  have hseg := hv _ _ _ hs
  have ha : b.Adds later f (b.add later f).1 (b.add later f).2 := FrameBuf.add_adds
  rw [hr] at ha
  generalize (b.add later f).2 = b' at ha
  cases ha with
  | single h0 =>
    obtain ⟨rfl, rfl⟩ := hseg.eq_singleton hm h0
    refine ⟨rfl, fun g hg => ?_⟩
    rw [List.mem_singleton.1 hg, FrameBuf.gathered]
    exact List.mem_append_right _ (List.mem_singleton_self f)
  | @fill e h0 he hn =>
    obtain ⟨_, fs', hs', hneed, hin⟩ := h _ _ he
    obtain ⟨rfl, rfl⟩ := Prod.mk.inj (Option.some.inj (hs.symm.trans hs'))
    have hsub : ∀ g ∈ e.frames ++ [f], g ∈ fs := by
      intro g hg
      rcases List.mem_append.1 hg with hg | hg
      · exact hin g hg
      · rwa [List.mem_singleton.1 hg]
    have hlen : fs.length ≤ (e.frames ++ [f]).length := by
      rw [List.length_append, List.length_singleton, ← hn, hneed]
    have hfill : b.Fills f := by
      unfold FrameBuf.Fills
      rw [he]
      exact hn
    rw [FrameBuf.gathered_of_some he] at hnd ⊢
    have hp := (List.subperm_of_subset (hnd hfill) hsub).perm_of_length_le hlen
    exact ⟨hseg.joinFrames_eq hp, fun g hg => hp.mem_iff.2 hg⟩

/-- A frame that an entry holds twice takes the place of another. -/
theorem nodup_of_add (h : Held sent b) (hv : sent.Valid) (hs : sent f.sequenceNumber = some (data, fs))
    (hm : f ∈ fs) (hall : ∀ v, (b.add later f).1 = some v → ∀ g ∈ fs, g ∈ b.gathered f)
    (hfill : b.Fills f) : (b.gathered f).Nodup := by
  have hseg := hv _ _ _ hs
  unfold FrameBuf.Fills at hfill
  split at hfill
  · rename_i e he
    obtain ⟨_, fs', hs', hneed, hin⟩ := h _ _ he
    obtain ⟨-, rfl⟩ := Prod.mk.inj (Option.some.inj (hs.symm.trans hs'))
    rw [FrameBuf.gathered_of_some he] at hall ⊢
    by_cases h0 : f.maxSegmentIndex = 0
    · -- A message of one frame leaves no place for a second.
      obtain ⟨rfl, -⟩ := hseg.eq_singleton hm h0
      rw [List.length_singleton] at hneed
      rw [List.length_eq_zero_iff.1 (show e.frames.length = 0 by omega)]
      exact List.nodup_singleton f
    · have hr : (b.add later f).1 = some (joinFrames (e.frames ++ [f])) := by
        have hlen : e.neededFrame = (e.frames ++ [f]).length := by
          rw [hfill, List.length_append, List.length_singleton]
        simp only [FrameBuf.add, if_neg h0, he, if_pos hlen]
      have hlen : (e.frames ++ [f]).length ≤ fs.length := by
        rw [List.length_append, List.length_singleton, ← hfill, hneed]
      have hp := (List.subperm_of_subset hseg.nodup (hall _ hr)).perm_of_length_le hlen
      exact hp.nodup_iff.1 hseg.nodup
  · exact hfill.elim

/-! ### The frames of a sender -/

theorem Splitter.splitAll_segmented {s : Splitter} {messages : List Bytes} {frames : List (List Bytes)}
    (hne : ∀ data ∈ messages, data ≠ []) (h : s.splitAll messages = some frames) :
    ∃ fss : List (List Frame), fss.map (·.map Subtype.val) = frames ∧ fss.length = messages.length ∧
      ∀ i data fs, (messages.zip fss)[i]? = some (data, fs) →
        Segmented (s.sequenceNumber + UInt32.ofNat i) data fs := by
  induction messages generalizing s frames with
  | nil =>
    simp only [splitAll, Option.some.injEq] at h
    exact ⟨[], by simp [← h], rfl, fun i data fs hi => by simp at hi⟩
  | cons data messages ih =>
    rw [splitAll] at h
    split at h
    · rename_i s' fs₀ heq
      obtain ⟨rfl, fs, rfl, hseg⟩ := split_segmented (hne data (by simp)) heq
      obtain ⟨rest, hrest, rfl⟩ := Option.map_eq_some_iff.1 h
      obtain ⟨fss, rfl, hlen, hall⟩ := ih (fun d hd => hne d (List.mem_cons_of_mem _ hd)) hrest
      refine ⟨fs :: fss, rfl, by simp [hlen], fun i data' fs' hi => ?_⟩
      cases i with
      | zero =>
        simp only [List.zip_cons_cons, List.getElem?_cons_zero, Option.some.injEq, Prod.mk.injEq] at hi
        obtain ⟨rfl, rfl⟩ := hi
        rw [show UInt32.ofNat 0 = 0 from rfl, UInt32.add_zero]
        exact hseg
      | succ i =>
        rw [List.zip_cons_cons, List.getElem?_cons_succ] at hi
        have := hall i data' fs' hi
        rwa [UInt32.add_assoc, UInt32.add_comm 1, ← UInt32.ofNat_one, ← UInt32.ofNat_add] at this
    · cases h

/-- The messages with their frames, by the numbers that they are sent with. -/
def sentOf (messages : List Bytes) (fss : List (List Frame)) : Sent :=
  fun n => (messages.zip fss)[n.toNat]?

/-- What is known of messages that one splitter accepted. -/
structure Accepted (messages : List Bytes) (frames : List (List Bytes)) (sent : Sent) : Prop where
  valid : sent.Valid
  /-- The frames of the `i`-th message are those under its number. -/
  numbered : ∀ i fs, frames[i]? = some fs → ∃ data gs, messages[i]? = some data ∧ fs = gs.map Subtype.val ∧
    sent (UInt32.ofNat i) = some (data, gs) ∧ (UInt32.ofNat i).toNat = i
  listed : ∀ n data gs, sent n = some (data, gs) →
    messages[n.toNat]? = some data ∧ frames[n.toNat]? = some (gs.map Subtype.val)

theorem accepted {maxDatagramSize : Nat} {h8 : 8 < maxDatagramSize} {messages : List Bytes}
    {frames : List (List Bytes)} (hne : ∀ data ∈ messages, data ≠ []) (hl : messages.length < 4294967296)
    (h : (Splitter.new maxDatagramSize h8).splitAll messages = some frames) :
    ∃ sent, Accepted messages frames sent := by
  obtain ⟨fss, rfl, hlen, hall⟩ := Splitter.splitAll_segmented hne h
  refine ⟨sentOf messages fss, fun n data fs hs => ?_, fun i fs hi => ?_, fun n data gs hs => ?_⟩
  · have := hall _ _ _ hs
    rwa [show (Splitter.new maxDatagramSize h8).sequenceNumber = 0 from rfl, UInt32.zero_add,
      UInt32.ofNat_toNat] at this
  · rw [List.getElem?_map, Option.map_eq_some_iff] at hi
    obtain ⟨gs, hg, rfl⟩ := hi
    obtain ⟨hlt, -⟩ := List.getElem?_eq_some_iff.1 hg
    have hm : messages[i]? = some messages[i] := List.getElem?_eq_getElem (by omega)
    have hn : (UInt32.ofNat i).toNat = i := by
      rw [UInt32.toNat_ofNat']
      exact Nat.mod_eq_of_lt (by omega)
    refine ⟨_, gs, hm, rfl, ?_, hn⟩
    rw [sentOf, hn]
    exact List.getElem?_zip_eq_some.2 ⟨hm, hg⟩
  · obtain ⟨hm, hg⟩ := List.getElem?_zip_eq_some.1 hs
    exact ⟨hm, by rw [List.getElem?_map, hg, Option.map_some]⟩

theorem Accepted.has {messages : List Bytes} {frames : List (List Bytes)} (h : Accepted messages frames sent)
    {bytes : Bytes} (hb : bytes ∈ frames.flatten) : ∃ f, sent.Has f ∧ f.val = bytes := by
  obtain ⟨fs, hfs, hb⟩ := List.mem_flatten.1 hb
  obtain ⟨i, hi⟩ := List.mem_iff_getElem?.1 hfs
  obtain ⟨data, gs, -, rfl, hs, -⟩ := h.numbered i fs hi
  obtain ⟨f, hf, rfl⟩ := List.mem_map.1 hb
  refine ⟨f, ⟨data, gs, ?_, hf⟩, rfl⟩
  rw [(h.valid _ _ _ hs).number f hf, hs]

theorem Accepted.number {messages : List Bytes} {frames : List (List Bytes)}
    (h : Accepted messages frames sent) {i : Nat} {fs : List Bytes} (hi : frames[i]? = some fs)
    (hf : f.val ∈ fs) : f.sequenceNumber = UInt32.ofNat i := by
  obtain ⟨data, gs, -, rfl, hs, -⟩ := h.numbered i fs hi
  obtain ⟨g, hg, he⟩ := List.mem_map.1 hf
  obtain rfl := Subtype.ext he
  exact (h.valid _ _ _ hs).number g hg

namespace FrameBuf

/-- The entry that `push` finds for the number in the header. -/
def entryFor (b : FrameBuf) (d : Arrival) : Option Entry :=
  (b.check d.now).frames (readU32 (d.frame.take 4))

/-- The frames of its message that are there when a frame has come. -/
def there (b : FrameBuf) (d : Arrival) : List Bytes :=
  ((b.entryFor d).elim [] fun e => e.frames.map Subtype.val) ++ [d.frame]

def FillsEntry (b : FrameBuf) (d : Arrival) : Prop :=
  ∃ e ∈ b.entryFor d, e.neededFrame = e.frames.length + 1

instance (b : FrameBuf) (d : Arrival) : Decidable (b.FillsEntry d) :=
  match h : b.entryFor d with
  | some e => decidable_of_iff (e.neededFrame = e.frames.length + 1) (by simp [FillsEntry, h])
  | none => .isFalse (by simp [FillsEntry, h])

end FrameBuf

theorem held_after (hv : sent.Valid) {ds : List Arrival} (hin : ∀ d ∈ ds, ∃ f, sent.Has f ∧ f.val = d.frame)
    (h : Held sent b) : Held sent (b.after ds) := by
  induction ds using List.reverseRecOn with
  | nil => exact h
  | append_singleton ds d ih =>
    have hd := ih fun d hd => hin d (List.mem_append_left _ hd)
    obtain ⟨f, hf, he⟩ := hin d (by simp)
    rw [FrameBuf.after_concat, ← he, FrameBuf.push_frame]
    exact hd.check.adds hv hf FrameBuf.add_adds

/-- A value that is returned is a message, and no frame of it is lacking. -/
def Whole (messages : List Bytes) (frames : List (List Bytes)) (b : FrameBuf) (d : Arrival) : Prop :=
  ∀ v ∈ b.returned d, v ∈ messages ∧ ∀ fs ∈ frames, d.frame ∈ fs → ∀ g ∈ fs, g ∈ b.there d

theorem Held.whole_iff {messages : List Bytes} {frames : List (List Bytes)} (held : Held sent b)
    (hsent : Accepted messages frames sent) (hf : sent.Has f) {d : Arrival} (he : f.val = d.frame) :
    Whole messages frames b d ↔ (b.FillsEntry d → (b.there d).Nodup) := by
  obtain ⟨now, later, bytes⟩ := d
  obtain rfl : f.val = bytes := he
  obtain ⟨data, gs, hs, hm⟩ := hf
  obtain ⟨hdata, hgs⟩ := hsent.listed _ _ _ hs
  have held' : Held sent (b.check now) := held.check
  have hthere : b.there ⟨now, later, f.val⟩ = ((b.check now).gathered f).map Subtype.val := by
    rw [FrameBuf.there, FrameBuf.gathered, List.map_append]
    show ((b.check now).frames f.sequenceNumber).elim _ _ ++ _ = _
    cases (b.check now).frames f.sequenceNumber <;> rfl
  have hfills : b.FillsEntry ⟨now, later, f.val⟩ ↔ (b.check now).Fills f := by
    show (∃ e ∈ (b.check now).frames f.sequenceNumber, _) ↔ _
    unfold FrameBuf.Fills
    cases (b.check now).frames f.sequenceNumber <;> simp
  have hret : b.returned ⟨now, later, f.val⟩ = ((b.check now).add later f).1 := by
    rw [FrameBuf.returned, FrameBuf.push_frame]
  rw [Whole, hthere, hfills, hret, List.nodup_map_iff Subtype.val_injective]
  constructor
  · intro hw hfill
    have hall : ∀ v, ((b.check now).add later f).1 = some v → ∀ g ∈ gs, g ∈ (b.check now).gathered f := ?_
    · exact nodup_of_add held' hsent.valid hs hm hall hfill
    intro v hv g hg
    have := (hw v hv).2 _ (List.mem_of_getElem? hgs) (List.mem_map_of_mem hm) _ (List.mem_map_of_mem hg)
    obtain ⟨g', hg', he⟩ := List.mem_map.1 this
    rwa [← Subtype.ext he]
  · intro hnd v hv
    obtain ⟨rfl, hall⟩ := add_eq_data held' hsent.valid hs hm hnd hv
    refine ⟨List.mem_of_getElem? hdata, fun fs hfs hmem g hg => ?_⟩
    obtain ⟨i, hi⟩ := List.mem_iff_getElem?.1 hfs
    obtain ⟨data', gs', -, rfl, hs', -⟩ := hsent.numbered i fs hi
    rw [hsent.number hi hmem] at hs
    obtain ⟨-, rfl⟩ := Prod.mk.inj (Option.some.inj (hs.symm.trans hs'))
    obtain ⟨g', hg', rfl⟩ := List.mem_map.1 hg
    exact List.mem_map_of_mem (hall g' hg')

/-- However frames are lost, moved or repeated, what is returned is whole exactly if no entry is filled
that holds a frame twice. -/
theorem repeats_harmless_iff (maxDatagramSize : Nat) (h8 : 8 < maxDatagramSize) (messages : List Bytes)
    (hne : ∀ data ∈ messages, data ≠ []) (hl : messages.length < 4294967296) (frames : List (List Bytes))
    (hs : (Splitter.new maxDatagramSize h8).splitAll messages = some frames) (t₀ : Nat) (ds : List Arrival)
    (hin : ∀ d ∈ ds, d.frame ∈ frames.flatten) :
    History.Each (fun pre d => Whole messages frames ((FrameBuf.new t₀).after pre) d) ds ↔
    History.Each (fun pre d => ((FrameBuf.new t₀).after pre).FillsEntry d →
      (((FrameBuf.new t₀).after pre).there d).Nodup) ds := by
  obtain ⟨sent, hsent⟩ := accepted hne hl hs
  refine forall_congr' fun pre => forall_congr' fun d => forall_congr' fun post => forall_congr' fun h => ?_
  have hin' : ∀ d ∈ pre, ∃ f, sent.Has f ∧ f.val = d.frame :=
    fun d hd => hsent.has (hin d (by simp [h, hd]))
  have held : Held sent ((FrameBuf.new t₀).after pre) :=
    held_after hsent.valid hin' fun n e he => by cases he
  obtain ⟨f, hf, he⟩ := hsent.has (hin d (by simp [h]))
  exact held.whole_iff hsent hf he

/-- A frame that comes again after its message is complete. -/
theorem repeats_harmless_iff_late :
    History.Each (fun pre d => Whole [[1, 2, 3, 4, 5, 6]]
      [[[0, 0, 0, 0, 0, 1, 0, 0, 1, 2, 3, 4], [0, 0, 0, 0, 0, 1, 0, 1, 5, 6]]]
      ((FrameBuf.new 0).after pre) d)
      [⟨1, 1, [0, 0, 0, 0, 0, 1, 0, 1, 5, 6]⟩, ⟨2, 2, [0, 0, 0, 0, 0, 1, 0, 0, 1, 2, 3, 4]⟩,
        ⟨3, 3, [0, 0, 0, 0, 0, 1, 0, 1, 5, 6]⟩] :=
  (repeats_harmless_iff 12 (by decide) [[1, 2, 3, 4, 5, 6]] (by decide) (by decide) _ (by decide +kernel) 0 _
    (by decide)).2 (by decide +kernel)

/-- The first of two frames, sent once and delivered twice. -/
theorem repeats_harmless_twice :
    ¬ ∀ (maxDatagramSize : Nat) (h8 : 8 < maxDatagramSize) (messages : List Bytes),
      (∀ data ∈ messages, data ≠ []) → messages.length < 4294967296 → ∀ frames : List (List Bytes),
      (Splitter.new maxDatagramSize h8).splitAll messages = some frames → ∀ (t₀ : Nat) (ds : List Arrival),
      (∀ d ∈ ds, d.frame ∈ frames.flatten) →
      History.Each (fun pre d => Whole messages frames ((FrameBuf.new t₀).after pre) d) ds := by
  intro h
  let d : Arrival := ⟨0, 0, [0, 0, 0, 0, 0, 1, 0, 0, 1, 2, 3, 4]⟩
  have hw := h 12 (by decide) [[1, 2, 3, 4, 5, 6]] (by decide) (by decide)
    [[[0, 0, 0, 0, 0, 1, 0, 0, 1, 2, 3, 4], [0, 0, 0, 0, 0, 1, 0, 1, 5, 6]]] (by decide +kernel) 0 [d, d]
    (by decide) [d] d [] rfl
  have hr : (((FrameBuf.new 0).after [d]).returned d).isSome := by decide +kernel
  obtain ⟨v, hv⟩ := Option.isSome_iff_exists.1 hr
  have hall := (hw v hv).2 _ (List.mem_singleton_self _) (by decide) _
    (List.mem_cons_of_mem _ (List.mem_singleton_self _))
  revert hall
  decide +kernel

/-! ### Every frame once -/

/-- A message some of whose frames have come, and some have not. -/
def Partial (fs : List Frame) (ds : List Arrival) : Prop :=
  (∃ f ∈ fs, f.val ∈ ds.map Arrival.frame) ∧ ∃ f ∈ fs, f.val ∉ ds.map Arrival.frame

/-- No entry holds a frame twice, or one that has not come. -/
def HeldOnce (ds : List Arrival) (b : FrameBuf) : Prop := ∀ n e, b.frames n = some e →
  e.frames.Nodup ∧ ∀ f ∈ e.frames, f.val ∈ ds.map Arrival.frame

/-- The entry of a message holds all its frames that have come, from the time of the first. -/
def Collects (n : UInt32) (fs : List Frame) (ds : List Arrival) (b : FrameBuf) : Prop :=
  (¬ Partial fs ds → b.frames n = none) ∧
  (Partial fs ds → ∃ e, b.frames n = some e ∧ (∀ f ∈ fs, f.val ∈ ds.map Arrival.frame → f ∈ e.frames) ∧
    ∃ d ∈ ds, ∃ f ∈ fs, d.frame = f.val ∧ e.time = d.later)

variable {ds pre post : List Arrival} {d : Arrival}

theorem HeldOnce.check (h : HeldOnce ds b) : HeldOnce ds (b.check now) :=
  fun n e he => h n e (FrameBuf.check_eq_some he)

theorem HeldOnce.adds (h : HeldOnce ds b) (hd : d.frame = f.val) (hf : f.val ∉ ds.map Arrival.frame)
    {o : Option Bytes} {b' : FrameBuf} (ha : b.Adds later f o b') : HeldOnce (ds ++ [d]) b' := by
  have mono {g : Frame} (hg : g.val ∈ ds.map Arrival.frame) : g.val ∈ (ds ++ [d]).map Arrival.frame := by
    rw [List.map_append]
    exact List.mem_append_left _ hg
  have new : f.val ∈ (ds ++ [d]).map Arrival.frame := by simp [hd]
  intro n e he
  by_cases hn : n = f.sequenceNumber
  · subst hn
    cases ha with
    | single => exact ⟨(h _ _ he).1, fun g hg => mono ((h _ _ he).2 g hg)⟩
    | fill => simp at he
    | @more e₀ h0 h₀ =>
      rw [FrameBuf.frames_setEntry] at he
      obtain rfl := Option.some.inj he
      obtain ⟨hnd, hin⟩ := h _ _ h₀
      refine ⟨?_, fun g hg => ?_⟩
      · rw [List.nodup_append_comm]
        exact List.nodup_cons.2 ⟨fun hm => hf (hin f hm), hnd⟩
      · rcases List.mem_append.1 hg with hg | hg
        · exact mono (hin g hg)
        · rwa [List.mem_singleton.1 hg]
    | first h0 =>
      rw [FrameBuf.frames_setEntry] at he
      obtain rfl := Option.some.inj he
      refine ⟨List.nodup_singleton f, fun g hg => ?_⟩
      rwa [List.mem_singleton.1 hg]
  · rw [ha.frames_of_ne hn] at he
    exact ⟨(h _ _ he).1, fun g hg => mono ((h _ _ he).2 g hg)⟩

theorem mem_came {g : Frame} (hd : d.frame = f.val) :
    g.val ∈ (ds ++ [d]).map Arrival.frame ↔ g.val ∈ ds.map Arrival.frame ∨ g = f := by
  rw [List.map_append, List.mem_append, List.map_singleton, List.mem_singleton, hd]
  exact or_congr_right Subtype.ext_iff.symm

/-- A message of more frames than there is room for those that came is not complete. -/
theorem Segmented.incomplete_of_lt (hseg : Segmented n data fs) (hf : f ∈ fs)
    (hin : f.val ∈ ds.map Arrival.frame) {gs : List Frame}
    (hall : ∀ g ∈ fs, g.val ∈ ds.map Arrival.frame → g ∈ gs) (hlt : gs.length < fs.length) :
    Partial fs ds := by
  refine ⟨⟨f, hf, hin⟩, ?_⟩
  by_contra hnone
  have hevery : ∀ g ∈ fs, g ∈ gs := by
    intro g hg
    refine hall g hg ?_
    by_contra hout
    exact hnone ⟨g, hg, hout⟩
  have hle := (List.subperm_of_subset hseg.nodup hevery).length_le
  omega

namespace Collects

theorem check (h : Collects n fs ds b)
    (ht : Partial fs ds → ∀ d ∈ ds, ∀ f ∈ fs, d.frame = f.val → now ≤ d.later + b.expire) :
    Collects n fs ds (b.check now) := by
  refine ⟨fun hp => FrameBuf.check_eq_none (h.1 hp), fun hp => ?_⟩
  obtain ⟨e, he, hall, d, hd, f, hf, heq, htime⟩ := h.2 hp
  refine ⟨e, FrameBuf.check_of_le he ?_, hall, d, hd, f, hf, heq, htime⟩
  rw [htime]
  exact ht hp d hd f hf heq

theorem adds_of_ne (h : Collects n fs ds b) (hseg : Segmented n data fs) (hn : n ≠ f.sequenceNumber)
    (hd : d.frame = f.val) {o : Option Bytes} {b' : FrameBuf} (ha : b.Adds later f o b') :
    Collects n fs (ds ++ [d]) b' := by
  have hcame {g : Frame} (hg : g ∈ fs) :
      g.val ∈ (ds ++ [d]).map Arrival.frame ↔ g.val ∈ ds.map Arrival.frame := by
    rw [mem_came hd, or_iff_left]
    intro he
    exact hn (by rw [← he, hseg.number g hg])
  have hpart : Partial fs (ds ++ [d]) ↔ Partial fs ds := by
    refine and_congr (exists_congr fun g => and_congr_right fun hg => hcame hg)
      (exists_congr fun g => and_congr_right fun hg => not_congr (hcame hg))
  rw [Collects, ha.frames_of_ne hn, hpart]
  refine ⟨h.1, fun hp => ?_⟩
  obtain ⟨e, he, hall, d', hd', hrest⟩ := h.2 hp
  exact ⟨e, he, fun g hg hin => hall g hg ((hcame hg).1 hin), d', List.mem_append_left _ hd', hrest⟩

theorem entry (h : Collects n fs ds b) (held : ∀ e, b.frames n = some e →
      e.neededFrame = fs.length ∧ ∀ g ∈ e.frames, g ∈ fs)
    (once : HeldOnce ds b) (hf : f ∈ fs) (hnew : f.val ∉ ds.map Arrival.frame) (he : b.frames n = some e) :
    (e.frames ++ [f]).Nodup ∧ (∀ g ∈ e.frames ++ [f], g ∈ fs) ∧
    (∀ g ∈ fs, g.val ∈ ds.map Arrival.frame → g ∈ e.frames) ∧
    ∃ d ∈ ds, ∃ f ∈ fs, d.frame = f.val ∧ e.time = d.later := by
  have hpart : Partial fs ds := by
    by_contra hp
    rw [h.1 hp] at he
    cases he
  obtain ⟨e', he', hall, hold⟩ := h.2 hpart
  obtain rfl : e = e' := Option.some.inj (he.symm.trans he')
  obtain ⟨hnd, hin⟩ := once _ _ he
  refine ⟨?_, fun g hg => ?_, hall, hold⟩
  · rw [List.nodup_append_comm]
    exact List.nodup_cons.2 ⟨fun hm => hnew (hin f hm), hnd⟩
  · rcases List.mem_append.1 hg with hg | hg
    · exact (held e he).2 g hg
    · rwa [List.mem_singleton.1 hg]

theorem adds (h : Collects n fs ds b) (hseg : Segmented n data fs) (held : ∀ e, b.frames n = some e →
      e.neededFrame = fs.length ∧ ∀ g ∈ e.frames, g ∈ fs)
    (once : HeldOnce ds b) (hf : f ∈ fs) (hd : d.frame = f.val) (hnew : f.val ∉ ds.map Arrival.frame)
    {o : Option Bytes} {b' : FrameBuf} (ha : b.Adds d.later f o b') :
    Collects n fs (ds ++ [d]) b' ∧ (¬ Partial fs (ds ++ [d]) → o = some data) := by
  obtain rfl : f.sequenceNumber = n := hseg.number f hf
  have hin : f.val ∈ (ds ++ [d]).map Arrival.frame := (mem_came hd).2 (.inr rfl)
  cases ha with
  | single h0 =>
    obtain ⟨rfl, hdata⟩ := hseg.eq_singleton hf h0
    have hnot (l : List Arrival) : ¬ Partial [f] l := by
      rintro ⟨⟨g, hg, hin⟩, g', hg', hout⟩
      rw [List.mem_singleton.1 hg] at hin
      rw [List.mem_singleton.1 hg'] at hout
      exact hout hin
    exact ⟨⟨fun _ => h.1 (hnot _), fun hp => absurd hp (hnot _)⟩, fun _ => by rw [hdata]⟩
  | @fill e h0 he hn =>
    obtain ⟨hnd, hsub, hall, -⟩ := h.entry held once hf hnew he
    have hlen : fs.length ≤ (e.frames ++ [f]).length := by
      rw [List.length_append, List.length_singleton, ← hn, (held e he).1]
    have hp := (List.subperm_of_subset hnd hsub).perm_of_length_le hlen
    have hnot : ¬ Partial fs (ds ++ [d]) := by
      rintro ⟨-, g, hg, hout⟩
      refine hout ((mem_came hd).2 ?_)
      rcases List.mem_append.1 (hp.mem_iff.2 hg) with hg | hg
      · exact .inl ((once _ _ he).2 g hg)
      · exact .inr (List.mem_singleton.1 hg)
    exact ⟨⟨fun _ => FrameBuf.frames_setEntry, fun hp => absurd hp hnot⟩,
      fun _ => by rw [hseg.joinFrames_eq hp]⟩
  | @more e h0 he hn =>
    obtain ⟨hnd, hsub, hall, hold⟩ := h.entry held once hf hnew he
    have hall' : ∀ g ∈ fs, g.val ∈ (ds ++ [d]).map Arrival.frame → g ∈ e.frames ++ [f] := by
      intro g hg hcame
      rcases (mem_came hd).1 hcame with hg' | rfl
      · exact List.mem_append_left _ (hall g hg hg')
      · exact List.mem_append_right _ (List.mem_singleton_self g)
    have hpart : Partial fs (ds ++ [d]) := by
      refine hseg.incomplete_of_lt hf hin hall' (Nat.lt_of_le_of_ne ?_ ?_)
      · exact (List.subperm_of_subset hnd hsub).length_le
      · rw [List.length_append, List.length_singleton, ← (held e he).1]
        exact fun h => hn h.symm
    refine ⟨⟨fun hp => absurd hpart hp, fun _ => ⟨_, FrameBuf.frames_setEntry, hall', ?_⟩⟩,
      fun hp => absurd hpart hp⟩
    obtain ⟨d', hd', hrest⟩ := hold
    exact ⟨d', List.mem_append_left _ hd', hrest⟩
  | first h0 he =>
    have hout : ∀ g ∈ fs, g.val ∉ ds.map Arrival.frame := by
      intro g hg hcame
      obtain ⟨e, he', -⟩ := h.2 ⟨⟨g, hg, hcame⟩, f, hf, hnew⟩
      rw [he] at he'
      cases he'
    have hone : ∀ g ∈ fs, g.val ∈ (ds ++ [d]).map Arrival.frame → g ∈ [f] := fun g hg hcame =>
      List.mem_singleton.2 (((mem_came hd).1 hcame).resolve_left (hout g hg))
    have hpart : Partial fs (ds ++ [d]) := by
      refine hseg.incomplete_of_lt hf hin hone (Nat.lt_of_le_of_ne (List.length_pos_of_mem hf) ?_)
      exact fun h => hseg.length_ne_one hf h0 h.symm
    refine ⟨⟨fun hp => absurd hpart hp, fun _ => ⟨_, FrameBuf.frames_setEntry, hone,
      d, by simp, f, hf, hd, rfl⟩⟩, fun hp => absurd hpart hp⟩

end Collects

/-! ### A whole delivery -/

/-- A condition that holds in the end and not in the beginning starts to hold at one of the items. -/
theorem exists_starts {α : Type} {P : List α → Prop} {l : List α} (h0 : ¬ P []) (h : P l) :
    ∃ pre a post, l = pre ++ a :: post ∧ ¬ P pre ∧ P (pre ++ [a]) := by
  induction l using List.reverseRecOn with
  | nil => exact absurd h h0
  | append_singleton l a ih =>
    by_cases hl : P l
    · obtain ⟨pre, x, post, rfl, hn, hp⟩ := ih hl
      exact ⟨pre, x, post ++ [a], by simp, hn, hp⟩
    · exact ⟨l, a, [], rfl, hl, h⟩

/-- Frames that were sent come, none of them twice. -/
structure Delivery (sent : Sent) (ds : List Arrival) : Prop where
  sent : ∀ d ∈ ds, ∃ f, sent.Has f ∧ f.val = d.frame
  once : (ds.map Arrival.frame).Nodup

namespace Delivery

theorem not_mem (h : Delivery sent ds) (hds : ds = pre ++ d :: post) : d.frame ∉ pre.map Arrival.frame := by
  have hn := h.once
  rw [hds, List.map_append, List.map_cons] at hn
  intro hm
  exact (List.disjoint_of_nodup_append hn) hm (List.mem_cons_self ..)

theorem held (h : Delivery sent ds) (hv : sent.Valid) (h0 : ∀ n, b.frames n = none) :
    ∀ pre post, ds = pre ++ post → Held sent (b.after pre) ∧ HeldOnce pre (b.after pre) ∧
      (b.after pre).expire = b.expire := by
  intro pre
  induction pre using List.reverseRecOn with
  | nil =>
    have hnone (n : UInt32) (e : Entry) : b.frames n ≠ some e := by
      rw [h0]
      exact nofun
    exact fun _ _ => ⟨fun n e he => absurd he (hnone n e), fun n e he => absurd he (hnone n e), rfl⟩
  | append_singleton pre d ih =>
    intro post hds
    rw [List.append_assoc] at hds
    obtain ⟨held, once, hexp⟩ := ih _ hds
    obtain ⟨f, hf, heq⟩ := h.sent d (by simp [hds])
    have hnew := h.not_mem hds
    rw [← heq] at hnew
    have ha : ((b.after pre).check d.now).Adds d.later f _ _ := FrameBuf.add_adds
    rw [FrameBuf.after_concat, ← heq, FrameBuf.push_frame]
    refine ⟨held.check.adds hv hf ha, once.check.adds heq.symm hnew ha, ?_⟩
    rw [ha.expire, FrameBuf.expire_check, hexp]

/-- What is returned is the message of the frame that came, all of whose frames are there. -/
theorem sound (h : Delivery sent ds) (hv : sent.Valid) (h0 : ∀ n, b.frames n = none)
    (hds : ds = pre ++ d :: post) (heq : f.val = d.frame) (hs : sent f.sequenceNumber = some (data, fs))
    (hm : f ∈ fs) (hr : (b.after pre).returned d = some v) :
    v = data ∧ ∀ g ∈ fs, g.val ∈ (pre ++ [d]).map Arrival.frame := by
  obtain ⟨held, once, -⟩ := h.held hv h0 pre _ hds
  have hnew := h.not_mem hds
  rw [← heq] at hnew
  rw [FrameBuf.returned, ← heq, FrameBuf.push_frame] at hr
  have hnd : (((b.after pre).check d.now).gathered f).Nodup ∧
      ∀ g ∈ ((b.after pre).check d.now).gathered f, g.val ∈ (pre ++ [d]).map Arrival.frame := by
    unfold FrameBuf.gathered
    split
    · rename_i e he
      obtain ⟨hn, hin⟩ := once.check _ _ he
      refine ⟨?_, fun g hg => (mem_came heq.symm).2 ?_⟩
      · rw [List.nodup_append_comm]
        exact List.nodup_cons.2 ⟨fun hm => hnew (hin f hm), hn⟩
      · rcases List.mem_append.1 hg with hg | hg
        · exact .inl (hin g hg)
        · exact .inr (List.mem_singleton.1 hg)
    · exact ⟨List.nodup_singleton f, fun g hg => (mem_came heq.symm).2 (.inr (List.mem_singleton.1 hg))⟩
  obtain ⟨hv', hall⟩ := add_eq_data held.check hv hs hm (fun _ => hnd.1) hr
  exact ⟨hv', fun g hg => hnd.2 g (hall g hg)⟩

theorem sound_accepted {messages : List Bytes} {frames : List (List Bytes)} (h : Delivery sent ds)
    (ha : Accepted messages frames sent) (h0 : ∀ n, b.frames n = none) (hds : ds = pre ++ d :: post)
    (hr : (b.after pre).returned d = some v) {i : Nat} {fs : List Bytes} (hi : frames[i]? = some fs)
    (hd : d.frame ∈ fs) : messages[i]? = some v ∧ ∀ g ∈ fs, g ∈ (pre ++ [d]).map Arrival.frame := by
  obtain ⟨data, gs, hdata, rfl, hs, -⟩ := ha.numbered i fs hi
  obtain ⟨f, hf, heq⟩ := List.mem_map.1 hd
  have hs' := hs
  rw [← (ha.valid _ _ _ hs).number f hf] at hs'
  obtain ⟨rfl, hall⟩ := h.sound ha.valid h0 hds heq hs' hf hr
  refine ⟨hdata, fun g hg => ?_⟩
  obtain ⟨g', hg', rfl⟩ := List.mem_map.1 hg
  exact hall g' hg'

/-- All frames of a message come before an entry that waits for one of them expires. -/
def InTime (expire : Nat) (fs : List Frame) (ds : List Arrival) : Prop :=
  ∀ d ∈ ds, ∀ d' ∈ ds, d.frame ∈ fs.map Subtype.val → d'.frame ∈ fs.map Subtype.val →
    d'.now ≤ d.later + expire

/-- As the frames come, the entry of a message that is in time collects them. -/
theorem collects (h : Delivery sent ds) (hc : Clock ds) (hv : sent.Valid) (h0 : ∀ n, b.frames n = none)
    (hs : sent n = some (data, fs)) (hall : ∀ f ∈ fs, f.val ∈ ds.map Arrival.frame)
    (ht : InTime b.expire fs ds) :
    ∀ pre post, ds = pre ++ post → Collects n fs pre (b.after pre) ∧
      ∀ d post', post = d :: post' → (∃ f ∈ fs, f.val = d.frame) → ¬ Partial fs (pre ++ [d]) →
        (b.after pre).returned d = some data := by
  have hseg := hv _ _ _ hs
  have step (pre d post) (hds : ds = pre ++ d :: post) (hcol : Collects n fs pre (b.after pre)) :
      Collects n fs (pre ++ [d]) (b.after (pre ++ [d])) ∧
      ((∃ f ∈ fs, f.val = d.frame) → ¬ Partial fs (pre ++ [d]) → (b.after pre).returned d = some data) := by
    obtain ⟨held, once, hexp⟩ := h.held hv h0 pre _ hds
    obtain ⟨f, ⟨data', gs, hs', hf⟩, heq⟩ := h.sent d (by simp [hds])
    have hnew := h.not_mem hds
    rw [← heq] at hnew
    have ha : ((b.after pre).check d.now).Adds d.later f _ _ := FrameBuf.add_adds
    have hcol' : Collects n fs pre ((b.after pre).check d.now) := by
      refine hcol.check fun ⟨_, g, hg, hout⟩ d' hd' f' hf' heq' => ?_
      -- The frame that is missing comes with `d` or after it.
      obtain ⟨d'', hd'', hg''⟩ := List.mem_map.1 (hall g hg)
      have hle : d.now ≤ d''.now := by
        rw [hds] at hd'' hc
        rcases List.mem_append.1 hd'' with hd'' | hd''
        · exact absurd (hg'' ▸ List.mem_map_of_mem hd'') hout
        · rcases List.mem_cons.1 hd'' with rfl | hd''
          · exact Nat.le_refl _
          · have hw := hc.within d (by simp)
            have hp := (List.pairwise_cons.1 (List.pairwise_append.1 hc.pushes).2.1).1 d'' hd''
            exact Nat.le_trans hw hp
      have := ht d' (by simp [hds, hd']) d'' hd'' (heq' ▸ List.mem_map_of_mem hf')
        (hg'' ▸ List.mem_map_of_mem hg)
      rw [hexp]
      omega
    rw [FrameBuf.after_concat, ← heq, FrameBuf.push_frame, FrameBuf.returned, ← heq, FrameBuf.push_frame]
    by_cases hn : n = f.sequenceNumber
    · subst hn
      obtain ⟨rfl, rfl⟩ := Prod.mk.inj (Option.some.inj (hs.symm.trans hs'))
      have hheld : ∀ e, ((b.after pre).check d.now).frames f.sequenceNumber = some e →
          e.neededFrame = fs.length ∧ ∀ g ∈ e.frames, g ∈ fs := by
        intro e he
        obtain ⟨_, gs, hs', hneed, hin⟩ := held.check _ _ he
        obtain ⟨-, rfl⟩ := Prod.mk.inj (Option.some.inj (hs.symm.trans hs'))
        exact ⟨hneed, hin⟩
      obtain ⟨hc', hr⟩ := hcol'.adds hseg hheld once.check hf heq.symm hnew ha
      exact ⟨hc', fun _ => hr⟩
    · refine ⟨hcol'.adds_of_ne hseg hn heq.symm ha, fun ⟨g, hg, hge⟩ => ?_⟩
      obtain rfl : g = f := Subtype.ext hge
      exact absurd (hseg.number g hg).symm hn
  have hcol : ∀ pre post, ds = pre ++ post → Collects n fs pre (b.after pre) := by
    intro pre
    induction pre using List.reverseRecOn with
    | nil => exact fun _ _ => ⟨fun _ => h0 n, fun ⟨⟨f, _, hf⟩, _⟩ => by simp at hf⟩
    | append_singleton pre d ih =>
      intro post hds
      rw [List.append_assoc] at hds
      exact (step pre d post hds (ih _ hds)).1
  refine fun pre post hds => ⟨hcol pre post hds, fun d post' hpost hin hnot => ?_⟩
  subst hpost
  exact (step pre d post' hds (hcol pre _ hds)).2 hin hnot

/-- A message in time is returned with the last of its frames, and nothing of it is left. -/
theorem completes (h : Delivery sent ds) (hc : Clock ds) (hv : sent.Valid) (h0 : ∀ n, b.frames n = none)
    (hs : sent n = some (data, fs)) (hne : data ≠ []) (hall : ∀ f ∈ fs, f.val ∈ ds.map Arrival.frame)
    (ht : InTime b.expire fs ds) :
    ∃ pre d post, ds = pre ++ d :: post ∧ d.frame ∈ fs.map Subtype.val ∧
      (b.after pre).returned d = some data ∧
      ∀ post', post' <+: post → (b.after (pre ++ d :: post')).frames n = none := by
  have hcol := h.collects hc hv h0 hs hall ht
  have hfs : fs ≠ [] := by
    rintro rfl
    exact hne (hv _ _ _ hs).data.symm
  obtain ⟨f, hf⟩ := List.exists_mem_of_ne_nil _ hfs
  obtain ⟨pre, d, post, hds, hpre, hpost⟩ := exists_starts
    (P := fun l => ∀ f ∈ fs, f.val ∈ l.map Arrival.frame) (fun h => by simpa using h f hf) hall
  have hnot (l : List Arrival) (hl : (pre ++ [d]) <+: l) : ¬ Partial fs l := fun ⟨_, g, hg, hout⟩ =>
    hout ((hl.map _).subset (hpost g hg))
  have hd : ∃ f ∈ fs, f.val = d.frame := by
    by_contra hno
    refine hpre fun g hg => ?_
    have := hpost g hg
    rw [List.map_append, List.mem_append, List.map_singleton, List.mem_singleton] at this
    exact this.resolve_right fun he => hno ⟨g, hg, he⟩
  refine ⟨pre, d, post, hds, List.mem_map.2 hd, (hcol pre _ hds).2 d post rfl hd (hnot _ (List.prefix_refl _)),
    ?_⟩
  rintro post' ⟨rest, rfl⟩
  refine ((hcol (pre ++ d :: post') rest (by simp [hds])).1).1 (hnot _ ⟨post', by simp⟩)

end Delivery

/-- Of two items of a list one comes before the other, unless they are in one place. -/
theorem prefix_cases {α : Type} {pre post pre' post' : List α} {a a' : α}
    (h : pre ++ a :: post = pre' ++ a' :: post') :
    pre = pre' ∨ (pre ++ [a]) <+: pre' ∨ (pre' ++ [a']) <+: pre := by
  rcases List.append_eq_append_iff.1 h with ⟨as, has, hrest⟩ | ⟨as, has, hrest⟩
  · cases as with
    | nil => exact .inl (by rw [has, List.append_nil])
    | cons b as =>
      obtain ⟨rfl, -⟩ := List.cons.inj hrest
      exact .inr (.inl ⟨as, by simp [has]⟩)
  · cases as with
    | nil => exact .inl (by rw [has, List.append_nil])
    | cons b as =>
      obtain ⟨rfl, -⟩ := List.cons.inj hrest
      exact .inr (.inr ⟨as, by simp [has]⟩)

/-- What a receiver makes of the messages, whose frames come as `ds`. -/
structure Reassembles (messages : List Bytes) (frames : List (List Bytes)) (ds : List Arrival)
    (b : FrameBuf) : Prop where
  /-- A value that is returned is the message whose last missing frame has come. -/
  sound : ∀ pre d post, ds = pre ++ d :: post → ∀ v, (b.after pre).returned d = some v →
    ∃ (i : Nat) (fs : List Bytes), messages[i]? = some v ∧ frames[i]? = some fs ∧ d.frame ∈ fs ∧
      d.frame ∉ pre.map Arrival.frame ∧ ∀ g ∈ fs, g ∈ (pre ++ [d]).map Arrival.frame
  once : ∀ (i : Nat) fs, frames[i]? = some fs → ∀ pre d post pre' d' post', ds = pre ++ d :: post →
    ds = pre' ++ d' :: post' → d.frame ∈ fs → d'.frame ∈ fs → ((b.after pre).returned d).isSome →
    ((b.after pre').returned d').isSome → pre = pre'
  lost : ∀ (i : Nat) fs, frames[i]? = some fs → (∃ g ∈ fs, g ∉ ds.map Arrival.frame) →
    ∀ pre d post, ds = pre ++ d :: post → d.frame ∈ fs → (b.after pre).returned d = none
  complete : ∀ (i : Nat) data fs, messages[i]? = some data → frames[i]? = some fs →
    (∀ g ∈ fs, g ∈ ds.map Arrival.frame) →
    (∀ d ∈ ds, ∀ d' ∈ ds, d.frame ∈ fs → d'.frame ∈ fs → d'.now ≤ d.later + b.expire) →
    ∃ pre d post, ds = pre ++ d :: post ∧ d.frame ∈ fs ∧ (b.after pre).returned d = some data ∧
      ∀ post', post' <+: post → (b.after (pre ++ d :: post')).frames (UInt32.ofNat i) = none

/-- Messages are put together from their frames, whichever of them come and in whatever order. -/
theorem messages_reassembled (maxDatagramSize : Nat) (h8 : 8 < maxDatagramSize) (messages : List Bytes)
    (hne : ∀ data ∈ messages, data ≠ []) (hl : messages.length < 4294967296) (frames : List (List Bytes))
    (hs : (Splitter.new maxDatagramSize h8).splitAll messages = some frames) (t₀ : Nat) (ds : List Arrival)
    (hin : ∀ d ∈ ds, d.frame ∈ frames.flatten) (hnd : (ds.map Arrival.frame).Nodup) (hc : Clock ds) :
    Reassembles messages frames ds (FrameBuf.new t₀) := by
  obtain ⟨sent, hsent⟩ := accepted hne hl hs
  have hdel : Delivery sent ds := ⟨fun d hd => hsent.has (hin d hd), hnd⟩
  have h0 : ∀ n, (FrameBuf.new t₀).frames n = none := fun _ => rfl
  -- A second frame of the message cannot come after the last one.
  have once : ∀ (i : Nat) fs, frames[i]? = some fs → ∀ pre d post pre' d' post', ds = pre ++ d :: post →
      ds = pre' ++ d' :: post' → d.frame ∈ fs → d'.frame ∈ fs →
      (((FrameBuf.new t₀).after pre).returned d).isSome → ¬ (pre ++ [d]) <+: pre' := by
    intro i fs hi pre d post pre' d' post' hds hds' hd hd' hsome hpre
    obtain ⟨v, hv⟩ := Option.isSome_iff_exists.1 hsome
    have hmem := (hdel.sound_accepted hsent h0 hds hv hi hd).2 _ hd'
    exact hdel.not_mem hds' ((hpre.map _).subset hmem)
  refine ⟨?_, ?_, ?_, ?_⟩
  · intro pre d post hds v hv
    obtain ⟨fs, hfs, hd⟩ := List.mem_flatten.1 (hin d (by simp [hds]))
    obtain ⟨i, hi⟩ := List.mem_iff_getElem?.1 hfs
    obtain ⟨hm, hall⟩ := hdel.sound_accepted hsent h0 hds hv hi hd
    exact ⟨i, fs, hm, hi, hd, hdel.not_mem hds, hall⟩
  · intro i fs hi pre d post pre' d' post' hds hds' hd hd' hsome hsome'
    rcases prefix_cases (hds.symm.trans hds') with he | hpre | hpre
    · exact he
    · exact absurd hpre (once i fs hi pre d post pre' d' post' hds hds' hd hd' hsome)
    · exact absurd hpre (once i fs hi pre' d' post' pre d post hds' hds hd' hd hsome')
  · intro i fs hi ⟨g, hg, hout⟩ pre d post hds hd
    by_contra hsome
    obtain ⟨v, hv⟩ := Option.ne_none_iff_exists'.1 hsome
    have hmem := (hdel.sound_accepted hsent h0 hds hv hi hd).2 g hg
    have hpre : (pre ++ [d]) <+: ds := ⟨post, by simp [hds]⟩
    exact hout ((hpre.map _).subset hmem)
  · intro i data fs hdata hi hall ht
    obtain ⟨data', gs, hdata', rfl, hs, -⟩ := hsent.numbered i fs hi
    obtain rfl := Option.some.inj (hdata.symm.trans hdata')
    exact hdel.completes hc hsent.valid h0 hs (hne data (List.mem_of_getElem? hdata))
      (fun f hf => hall _ (List.mem_map_of_mem hf)) ht

/-- Of two messages, one whose frames come in the wrong order and one with a lost frame. -/
theorem messages_reassembled_lost :
    Reassembles [[1, 2, 3, 4, 5, 6], [7, 8, 9, 10, 11]]
      [[[0, 0, 0, 0, 0, 1, 0, 0, 1, 2, 3, 4], [0, 0, 0, 0, 0, 1, 0, 1, 5, 6]],
        [[0, 0, 0, 1, 0, 1, 0, 0, 7, 8, 9, 10], [0, 0, 0, 1, 0, 1, 0, 1, 11]]]
      [⟨1, 1, [0, 0, 0, 0, 0, 1, 0, 1, 5, 6]⟩, ⟨2, 3, [0, 0, 0, 1, 0, 1, 0, 1, 11]⟩,
        ⟨3, 3, [0, 0, 0, 0, 0, 1, 0, 0, 1, 2, 3, 4]⟩] (FrameBuf.new 0) :=
  messages_reassembled 12 (by decide) _ (by decide) (by decide) _ (by decide +kernel) 0 _ (by decide)
    (by decide) ⟨by decide, by decide⟩

end Datagram
end Iscp
