import Iscp.Downstream.ReorderSpec
import Mathlib.Data.List.Induction

/-!
# Late chunks

A chunk is late when its number is behind the expected one. `iter` stores it like any other. In strict
mode no pop ever takes it out, so that it counts against the limit for good; with best effort the limit
takes it, after chunks with greater numbers.
-/

namespace Iscp
namespace DownReorderer

variable {r r' r'' : DownReorderer} {u : Uuid} {n : UInt32} {chunk : DownstreamChunk}
  {chunks out out' : List DownstreamChunk}

/-- The state after a sequence of calls, each drained; a call that fails does not end it. -/
def after (r : DownReorderer) (chunks : List DownstreamChunk) : DownReorderer :=
  chunks.foldl (fun r chunk => (r.push chunk).2) r

def emit (r : DownReorderer) (chunk : DownstreamChunk) : List DownstreamChunk :=
  (r.push chunk).1.toOption.getD []

def emitted (r : DownReorderer) : List DownstreamChunk → List DownstreamChunk
  | [] => []
  | chunk :: chunks => r.emit chunk ++ emitted (r.push chunk).2 chunks

/-- The last number is not emitted, after which the numbers start again. -/
def NoWrap (out : List DownstreamChunk) : Prop := ∀ chunk ∈ out, chunk.sequenceNumber ≠ 0xffffffff

@[simp] theorem after_nil : r.after [] = r := rfl

theorem after_append (pre post : List DownstreamChunk) :
    r.after (pre ++ post) = (r.after pre).after post := List.foldl_append

theorem after_concat (pre : List DownstreamChunk) (chunk : DownstreamChunk) :
    r.after (pre ++ [chunk]) = ((r.after pre).push chunk).2 := after_append ..

theorem emitted_append (pre post : List DownstreamChunk) :
    r.emitted (pre ++ post) = r.emitted pre ++ (r.after pre).emitted post := by
  induction pre generalizing r with
  | nil => rfl
  | cons chunk pre ih =>
    rw [List.cons_append, emitted, emitted, ih, List.append_assoc]
    rfl

theorem emitted_concat (pre : List DownstreamChunk) (chunk : DownstreamChunk) :
    r.emitted (pre ++ [chunk]) = r.emitted pre ++ (r.after pre).emit chunk := by
  rw [emitted_append, emitted, emitted, List.append_nil]

/-- What a call emits, with what was emitted before it. -/
theorem emitted_sublist (pre : List DownstreamChunk) (chunk : DownstreamChunk) (post : List DownstreamChunk) :
    (r.emitted pre ++ (r.after pre).emit chunk).Sublist (r.emitted (pre ++ chunk :: post)) := by
  rw [emitted_append, emitted, ← List.append_assoc]
  exact List.sublist_append_left ..

theorem NoWrap.sublist (h : NoWrap out) (hs : out'.Sublist out) : NoWrap out' :=
  fun chunk hc => h chunk (hs.subset hc)

theorem toNat_succ (h : n ≠ 0xffffffff) : (n + 1).toNat = n.toNat + 1 := by
  have hn : n.toNat ≠ 4294967295 := fun he => h (UInt32.toNat_inj.1 he)
  have hlt := n.toNat_lt
  rw [UInt32.toNat_add]
  show (n.toNat + 1) % 4294967296 = n.toNat + 1
  omega

/-! ### One upstream -/

/-- A reorderer that knows `u` and stores its chunks under their own numbers. -/
structure Knows (r : DownReorderer) (u : Uuid) : Prop where
  enabled : r.enabled
  known : (r.next u).isSome
  keyed : ∀ (n : UInt32) (chunk : DownstreamChunk), (r.stored u)[n]? = some chunk →
    chunk.sequenceNumber = n

/-- The limit has a pop take the first chunk that is stored, whichever it is. -/
def Forced (r : DownReorderer) (u : Uuid) : Prop := ¬ r.strict ∧ r.limit ≤ (r.stored u).size

structure Pops (r : DownReorderer) (u : Uuid) (chunk : DownstreamChunk) (r' : DownReorderer) : Prop where
  knows : r'.Knows u
  stored : (r.stored u)[chunk.sequenceNumber]? = some chunk
  eq : r' = (r.setStore u ((r.stored u).erase chunk.sequenceNumber)).setNext u (chunk.sequenceNumber + 1)
  number : r.Forced u ∧ (r.stored u).minKey? = some chunk.sequenceNumber ∨
    chunk.sequenceNumber = r.expected u

theorem Knows.pop (hr : r.Knows u) (h : r.pop u = (some chunk, r')) : Pops r u chunk r' := by
  have knows (k n : UInt32) : ((r.setStore u ((r.stored u).erase k)).setNext u n).Knows u := by
    refine ⟨hr.enabled, by simp, fun m c hm => hr.keyed m c ?_⟩
    simp only [stored_setNext, stored_setStore, Std.ExtTreeMap.getElem?_erase] at hm
    split at hm
    · cases hm
    · exact hm
  unfold DownReorderer.pop at h
  split at h
  · rename_i hf
    split at h
    · rename_i k c m hp
      obtain ⟨hk, rfl⟩ := BTreeMap.popFirst_eq_some hp
      have hmin : (r.stored u).minKey? = some k := by
        simp only [BTreeMap.popFirst, Option.bind_eq_some_iff, Option.map_eq_some_iff, Prod.mk.injEq] at hp
        obtain ⟨k', hk', -, -, ⟨rfl, -⟩, -⟩ := hp
        exact hk'
      obtain ⟨hc, rfl⟩ := Prod.mk.inj h
      obtain rfl := Option.some.inj hc
      obtain rfl := hr.keyed _ _ hk
      exact ⟨knows _ _, hk, rfl, .inl ⟨hf, hmin⟩⟩
    · cases (Prod.mk.inj h).1
  · split at h
    · rename_i c hk
      obtain ⟨hc, rfl⟩ := Prod.mk.inj h
      obtain rfl := Option.some.inj hc
      have hn := hr.keyed _ _ hk
      exact ⟨knows _ _, by rw [hn]; exact hk, by rw [hn], .inr hn⟩
    · cases (Prod.mk.inj h).1

theorem Pops.expected (h : Pops r u chunk r') : r'.expected u = chunk.sequenceNumber + 1 := by
  rw [h.eq, expected_setNext]

theorem Knows.popN (hr : r.Knows u) (k : Nat) : (r.popN u k).2.Knows u := by
  induction k generalizing r with
  | zero => exact hr
  | succ k ih =>
    match hp : r.pop u with
    | (none, r') =>
      obtain rfl := pop_eq_none hp
      simpa only [DownReorderer.popN, hp] using hr
    | (some c, r') => simpa only [DownReorderer.popN, hp] using ih (hr.pop hp).knows

theorem popN_succ (k : Nat) : r.popN u (k + 1) =
    match (r.popN u k).2.pop u with
    | (none, _) => r.popN u k
    | (some chunk, r') => ((r.popN u k).1 ++ [chunk], r') := by
  induction k generalizing r with
  | zero =>
    match hp : r.pop u with
    | (none, r') => obtain rfl := pop_eq_none hp; simp [popN, hp]
    | (some c, r') => simp [popN, hp]
  | succ k ih =>
    match hp : r.pop u with
    | (none, r') => obtain rfl := pop_eq_none hp; simp [popN, hp]
    | (some c, r') =>
      have h (j : Nat) : r.popN u (j + 1) = (c :: (r'.popN u j).1, (r'.popN u j).2) := by
        rw [popN, hp]
      rw [h (k + 1), h k, ih]
      rcases hq : (r'.popN u k).2.pop u with ⟨_ | c', r₂⟩
      · rfl
      · rfl

theorem popN_prefix {j k : Nat} (h : j ≤ k) : (r.popN u j).1 <+: (r.popN u k).1 := by
  induction h with
  | refl => exact List.prefix_refl _
  | step _ ih =>
    refine ih.trans ?_
    rw [popN_succ]
    split
    · exact List.prefix_refl _
    · exact List.prefix_append ..

theorem popN_drained {k : Nat} (h : (r.stored u).size ≤ k) :
    r.popN u k = r.popN u (r.stored u).size := by
  induction h with
  | refl => rfl
  | @step k hk ih =>
    have hp := pop_popN (r := r) (u := u) k hk
    rw [popN_succ]
    split
    · exact ih
    · rename_i c r' he
      rw [he] at hp
      cases hp

/-- What the iterator of a drained call emits begins with what its first pops emit. -/
theorem popN_prefix_drain (k : Nat) : (r.popN u k).1 <+: (r.popN u (r.stored u).size).1 := by
  rcases Nat.le_total k (r.stored u).size with h | h
  · exact popN_prefix h
  · exact ⟨[], by rw [popN_drained h, List.append_nil]⟩

/-! ### One call -/

/-- With the chunk stored, before any pop. -/
def insert (r : DownReorderer) (u : Uuid) (chunk : DownstreamChunk) : DownReorderer :=
  r.setStore u ((r.stored u).insert chunk.sequenceNumber chunk)

theorem Knows.insert (hr : r.Knows u) (chunk : DownstreamChunk) : (r.insert u chunk).Knows u := by
  refine ⟨hr.enabled, hr.known, fun n c hn => ?_⟩
  simp only [DownReorderer.insert, stored_setStore, Std.ExtTreeMap.getElem?_insert,
    Std.compare_eq_iff_eq] at hn
  split at hn
  · rename_i hk; obtain rfl := Option.some.inj hn; exact hk
  · exact hr.keyed n c hn

theorem mem_insert {m : UInt32} :
    m ∈ (r.insert u chunk).stored u ↔ m = chunk.sequenceNumber ∨ m ∈ r.stored u := by
  rw [insert, stored_setStore, Std.ExtTreeMap.mem_insert, Std.compare_eq_iff_eq, eq_comm]

theorem Knows.push_cases (hr : r.Knows u) (hu : chunk.upstream.streamId = u) :
    (r.strict ∧ r.limit ≤ (r.stored u).size ∧ r.expected u ≠ chunk.sequenceNumber ∧
      r.iter chunk = (.error (.reordering u), r) ∧ r.emit chunk = [] ∧ (r.push chunk).2 = r) ∨
    (¬ (r.strict ∧ r.limit ≤ (r.stored u).size ∧ r.expected u ≠ chunk.sequenceNumber) ∧
      r.iter chunk = (.ok (.reordered u), r.insert u chunk) ∧
      r.emit chunk = ((r.insert u chunk).popN u ((r.insert u chunk).stored u).size).1 ∧
      (r.push chunk).2 = ((r.insert u chunk).popN u ((r.insert u chunk).stored u).size).2) := by
  subst hu
  have hi : r.iter chunk =
      if r.strict ∧ r.limit ≤ (r.stored chunk.upstream.streamId).size ∧
        r.expected chunk.upstream.streamId ≠ chunk.sequenceNumber then
        (.error (.reordering chunk.upstream.streamId), r)
      else (.ok (.reordered chunk.upstream.streamId), r.insert chunk.upstream.streamId chunk) := by
    simp only [iter, hr.enabled, ↓reduceIte, register_of_isSome hr.known]
    rfl
  by_cases hf : r.strict ∧ r.limit ≤ (r.stored chunk.upstream.streamId).size ∧
      r.expected chunk.upstream.streamId ≠ chunk.sequenceNumber
  · rw [if_pos hf] at hi
    exact .inl ⟨hf.1, hf.2.1, hf.2.2, hi, by simp [emit, push, hi, Except.toOption],
      by simp [push, hi]⟩
  · rw [if_neg hf] at hi
    exact .inr ⟨hf, hi, by simp [emit, push, hi, Except.toOption, drain], by simp [push, hi, drain]⟩

/-- What a reorderer keeps over any calls on chunks of `u`. -/
structure Feeds (r : DownReorderer) (u : Uuid) : Prop where
  enabled : r.enabled
  knows : (r.next u).isSome → r.Knows u
  unknown : r.next u = none → r.stored u = ∅

theorem Knows.feeds (h : r.Knows u) : r.Feeds u :=
  ⟨h.enabled, fun _ => h, fun hn => by simpa [hn] using h.known⟩

theorem feeds_new (config : DownstreamConfig) (h : (new config).enabled) (u : Uuid) :
    (new config).Feeds u :=
  ⟨h, fun hn => by simp [new] at hn, fun _ => rfl⟩

theorem Feeds.register (h : r.Feeds u) (n : UInt32) :
    (r.register u n).Knows u ∧ (r.register u n).stored u = r.stored u ∧
      ((r.next u).isSome ∧ (r.register u n).expected u = r.expected u ∨
        r.next u = none ∧ r.stored u = ∅ ∧ (r.register u n).expected u = n) := by
  cases hn : r.next u with
  | some k =>
    rw [register_of_isSome (by simp [hn])]
    exact ⟨h.knows (by simp [hn]), rfl, .inl ⟨rfl, rfl⟩⟩
  | none =>
    have hs := stored_register_of_none (n := n) hn
    refine ⟨⟨by simpa using h.enabled, next_register_isSome, fun m c hm => ?_⟩, ?_,
      .inr ⟨rfl, h.unknown hn, expected_register_of_none hn⟩⟩
    · simp [hs] at hm
    · rw [hs, h.unknown hn]

theorem limit_register : (r.register u n).limit = r.limit := by
  unfold DownReorderer.register; split <;> rfl

theorem push_register (he : r.enabled) (hu : chunk.upstream.streamId = u) :
    (r.register u chunk.sequenceNumber).push chunk = r.push chunk := by
  subst hu
  rw [push, push, iter_register chunk he]

theorem Knows.push (hr : r.Knows u) (hu : chunk.upstream.streamId = u) : (r.push chunk).2.Knows u := by
  rcases hr.push_cases hu with ⟨-, -, -, -, -, h⟩ | ⟨-, -, -, h⟩
  · rwa [h]
  · rw [h]
    exact (hr.insert chunk).popN _

theorem Feeds.push (hr : r.Feeds u) (hu : chunk.upstream.streamId = u) : (r.push chunk).2.Knows u := by
  rw [← push_register hr.enabled hu]
  exact (hr.register _).1.push hu

theorem Feeds.after (hr : r.Feeds u) (hu : ∀ c ∈ chunks, c.upstream.streamId = u) :
    (r.after chunks).Feeds u := by
  induction chunks generalizing r with
  | nil => exact hr
  | cons chunk chunks ih =>
    exact ih (hr.push (hu chunk (by simp))).feeds fun c hc => hu c (List.mem_cons_of_mem _ hc)

/-! ### Strict reordering -/

/-- Every chunk of the upstream that is stored waits for an earlier one. -/
def AllWait (r : DownReorderer) (u : Uuid) : Prop := ∀ n ∈ r.stored u, r.expected u < n

/-- The numbers of the chunks that wait for an earlier one. -/
def waiting (r : DownReorderer) (u : Uuid) : List UInt32 :=
  (r.stored u).keys.filter fun n => r.expected u < n

theorem AllWait.length_waiting (h : r.AllWait u) : (r.waiting u).length = (r.stored u).size := by
  rw [waiting, List.filter_eq_self.2, Std.ExtTreeMap.length_keys]
  intro n hn
  exact decide_eq_true (h n (Std.ExtTreeMap.mem_keys.1 hn))

theorem Pops.seq (h : Pops r u chunk r') (hs : r.strict) : chunk.sequenceNumber = r.expected u :=
  h.number.resolve_left fun hf => hf.1.1 hs

theorem Pops.mem (h : Pops r u chunk r') :
    n ∈ r'.stored u ↔ n ∈ r.stored u ∧ n ≠ chunk.sequenceNumber := by
  rw [h.eq, stored_setNext, stored_setStore, Std.ExtTreeMap.mem_erase, ne_eq, Std.compare_eq_iff_eq,
    and_comm, eq_comm]

theorem Pops.strict (h : Pops r u chunk r') : r'.strict = r.strict := by
  rw [h.eq]; rfl

theorem Pops.limit (h : Pops r u chunk r') : r'.limit = r.limit := by
  rw [h.eq]; rfl

theorem Knows.popN_config (hr : r.Knows u) (k : Nat) :
    (r.popN u k).2.strict = r.strict ∧ (r.popN u k).2.limit = r.limit := by
  induction k with
  | zero => exact ⟨rfl, rfl⟩
  | succ k ih =>
    rw [popN_succ]
    split
    · exact ih
    · rename_i c r' hp
      have hpop := (hr.popN k).pop hp
      exact ⟨hpop.strict.trans ih.1, hpop.limit.trans ih.2⟩

theorem Feeds.push_config (hr : r.Feeds u) (hu : chunk.upstream.streamId = u) :
    (r.push chunk).2.strict = r.strict ∧ (r.push chunk).2.limit = r.limit := by
  have hk := (hr.register chunk.sequenceNumber).1
  rw [← push_register hr.enabled hu]
  rcases hk.push_cases hu with ⟨-, -, -, -, -, h⟩ | ⟨-, -, -, h⟩
  · rw [h]
    exact ⟨strict_register, limit_register⟩
  · obtain ⟨hs, hl⟩ := (hk.insert chunk).popN_config _
    rw [h, hs, hl]
    exact ⟨strict_register, limit_register⟩

theorem Feeds.after_config (hr : r.Feeds u) (hu : ∀ c ∈ chunks, c.upstream.streamId = u) :
    (r.after chunks).strict = r.strict ∧ (r.after chunks).limit = r.limit := by
  induction chunks generalizing r with
  | nil => exact ⟨rfl, rfl⟩
  | cons chunk chunks ih =>
    obtain ⟨hs, hl⟩ := hr.push_config (hu chunk (by simp))
    obtain ⟨hs', hl'⟩ := ih (hr.push (hu chunk (by simp))).feeds fun c hc =>
      hu c (List.mem_cons_of_mem _ hc)
    exact ⟨hs'.trans hs, hl'.trans hl⟩

/-- While chunks are popped in strict mode, what is stored stays at or above the expected number, and
what is below it stays. -/
theorem popN_strict (hr : r.Knows u) (hs : r.strict) (k : Nat) (hw : NoWrap (r.popN u k).1) :
    (r.popN u k).2.strict ∧ r.expected u ≤ (r.popN u k).2.expected u ∧
    ((∀ n ∈ r.stored u, r.expected u ≤ n) →
      ∀ n ∈ (r.popN u k).2.stored u, (r.popN u k).2.expected u ≤ n) ∧
    ∀ n ∈ r.stored u, n < r.expected u → n ∈ (r.popN u k).2.stored u := by
  induction k generalizing r with
  | zero => exact ⟨hs, UInt32.le_refl _, id, fun n hn _ => hn⟩
  | succ k ih =>
    match hp : r.pop u with
    | (none, r') =>
      obtain rfl := pop_eq_none hp
      simpa only [popN, hp] using ⟨hs, UInt32.le_refl _, id, fun n hn _ => hn⟩
    | (some c, r') =>
      have hpop := hr.pop hp
      simp only [popN, hp] at hw ⊢
      have hc : c.sequenceNumber ≠ 0xffffffff := hw c (by simp)
      have hseq := hpop.seq hs
      have hnext : (r'.expected u).toNat = (r.expected u).toNat + 1 := by
        rw [hpop.expected, toNat_succ hc, hseq]
      obtain ⟨hs', hle, hup, hdown⟩ := ih hpop.knows (hpop.strict.trans hs)
        fun chunk hm => hw chunk (List.mem_cons_of_mem _ hm)
      refine ⟨hs', ?_, fun h => hup ?_, fun n hn hlt => hdown n ?_ ?_⟩
      · rw [UInt32.le_iff_toNat_le] at hle ⊢; omega
      · intro n hn
        obtain ⟨hn, hne⟩ := hpop.mem.1 hn
        have := h n hn
        rw [UInt32.le_iff_toNat_le] at this ⊢
        have hne' : n.toNat ≠ (r.expected u).toNat := fun he =>
          hne (by rw [hseq]; exact UInt32.toNat_inj.1 he)
        omega
      · exact hpop.mem.2 ⟨hn, by rw [hseq]; exact UInt32.ne_of_lt hlt⟩
      · rw [UInt32.lt_iff_toNat_lt] at hlt ⊢; omega

/-- The limit does not stop the chunk, or the chunk is the one that is expected or a later one. -/
def InTime (r : DownReorderer) (u : Uuid) (chunk : DownstreamChunk) : Prop :=
  (r.stored u).size < r.limit → r.expected u ≤ chunk.sequenceNumber

theorem not_mem_popN : (r.popN u (r.stored u).size).2.expected u ∉
    (r.popN u (r.stored u).size).2.stored u := by
  have hp := pop_popN (r := r) (u := u) _ le_rfl
  have hn : (r.popN u (r.stored u).size).2.iterNext (.reordered u) =
      (none, .reordered u, ((r.popN u (r.stored u).size).2.pop u).2) := by
    simp only [iterNext, hp]
  rcases (iterNext_eq_none hn).2 with h | ⟨v, h, hv⟩
  · cases h
  · cases h; exact hv

theorem Knows.push_strict (hr : r.Knows u) (hs : r.strict) (hu : chunk.upstream.streamId = u)
    (hw : NoWrap (r.emit chunk)) :
    (r.push chunk).2.strict ∧ (r.AllWait u → r.InTime u chunk → (r.push chunk).2.AllWait u) ∧
    ((r.stored u).size < r.limit → chunk.sequenceNumber < r.expected u →
      ¬ (r.push chunk).2.AllWait u) := by
  rcases hr.push_cases hu with ⟨-, hfull, -, -, -, hp⟩ | ⟨hn, -, he, hp⟩
  · rw [hp]
    exact ⟨hs, fun h _ => h, fun hlt => absurd hlt (Nat.not_lt.2 hfull)⟩
  · rw [he] at hw
    obtain ⟨hs', hle, hup, hdown⟩ := popN_strict (hr.insert chunk) hs _ hw
    rw [hp]
    refine ⟨hs', fun ha hin => ?_, fun hlt hlate ha => ?_⟩
    · have hstored : ∀ n ∈ (r.insert u chunk).stored u, r.expected u ≤ n := by
        intro n hm
        rcases mem_insert.1 hm with rfl | hm
        · -- A chunk that gets past the limit is the expected one.
          by_cases hl : (r.stored u).size < r.limit
          · exact hin hl
          · have heq : r.expected u = chunk.sequenceNumber :=
              Classical.not_not.1 fun hne => hn ⟨hs, Nat.not_lt.1 hl, hne⟩
            rw [heq]
            exact UInt32.le_refl _
        · exact UInt32.le_of_lt (ha n hm)
      intro n hm
      have hge := hup hstored n hm
      refine UInt32.lt_of_le_of_ne hge fun he => ?_
      rw [← he] at hm
      exact not_mem_popN hm
    · have hm := hdown chunk.sequenceNumber (mem_insert.2 (.inl rfl)) hlate
      have := ha _ hm
      have hle' : r.expected u ≤ _ := hle
      rw [UInt32.lt_iff_toNat_lt] at this hlate
      rw [UInt32.le_iff_toNat_le] at hle'
      omega

theorem push_strict (hr : r.Feeds u) (hs : r.strict) (hu : chunk.upstream.streamId = u)
    (hw : NoWrap (r.emit chunk)) :
    (r.push chunk).2.strict ∧ (r.AllWait u → r.InTime u chunk → (r.push chunk).2.AllWait u) ∧
    ((r.stored u).size < r.limit → chunk.sequenceNumber < r.expected u →
      ¬ (r.push chunk).2.AllWait u) := by
  obtain ⟨hk, hst, hex⟩ := hr.register chunk.sequenceNumber
  have hp := push_register hr.enabled hu
  have hw' : NoWrap ((r.register u chunk.sequenceNumber).emit chunk) := by rwa [emit, hp]
  obtain ⟨hs', hin, hlate⟩ := hk.push_strict (by simpa using hs) hu hw'
  rw [hp] at hs' hin hlate
  rw [hst, limit_register] at hlate
  refine ⟨hs', fun ha hi => hin ?_ ?_, fun hlt hl => hlate hlt ?_⟩
  · intro n hn
    rw [hst] at hn
    rcases hex with ⟨-, he⟩ | ⟨-, he, -⟩
    · rw [he]; exact ha n hn
    · simp [he] at hn
  · intro hlt
    rw [hst, limit_register] at hlt
    rcases hex with ⟨-, he⟩ | ⟨-, -, he⟩
    · rw [he]; exact hi hlt
    · rw [he]; exact UInt32.le_refl _
  · rcases hex with ⟨-, he⟩ | ⟨hn, -, -⟩
    · rwa [he]
    · have h0 : r.expected u = 0 := by simp [expected, hn]
      rw [h0, UInt32.lt_iff_toNat_lt] at hl
      exact absurd hl (Nat.not_lt_zero _)

/-- `iter` fails only at the limit. -/
theorem Feeds.limit_le_of_error (hr : r.Feeds u) (hu : chunk.upstream.streamId = u) {e : Error}
    (h : (r.iter chunk).1 = .error e) : r.limit ≤ (r.stored u).size := by
  obtain ⟨hk, hst, -⟩ := hr.register chunk.sequenceNumber
  subst hu
  rw [← iter_register chunk hr.enabled] at h
  rcases hk.push_cases rfl with ⟨-, hl, -⟩ | ⟨-, hi, -⟩
  · rwa [hst, limit_register] at hl
  · rw [hi] at h
    cases h

/-- Only chunks that wait for an earlier one are stored, and `iter` fails only for as many of them as the
limit says. -/
structure OnlyWaits (config : DownstreamConfig) (u : Uuid) (chunks : List DownstreamChunk) : Prop where
  stored : ∀ pre post, chunks = pre ++ post → ((new config).after pre).AllWait u
  errors : ∀ pre chunk post, chunks = pre ++ chunk :: post →
    (((new config).after pre).iter chunk).1 = .error (.reordering u) →
    config.reorderingChunks ≤ (((new config).after pre).waiting u).length

/-- What a strict reorderer stores waits exactly if no late chunk gets past the limit. -/
theorem strict_waits_iff (config : DownstreamConfig) (hq : config.qos = .reliable)
    (hc : config.reordering = .strict) (u : Uuid) (chunks : List DownstreamChunk)
    (hu : ∀ c ∈ chunks, c.upstream.streamId = u) (hw : NoWrap ((new config).emitted chunks)) :
    OnlyWaits config u chunks ↔
      ∀ pre chunk post, chunks = pre ++ chunk :: post → ((new config).after pre).InTime u chunk := by
  have he : (new config).enabled := by simp [new, hq, hc]
  have hs : (new config).strict := by simp [new, hc]
  have feeds (pre post) (h : chunks = pre ++ post) : ((new config).after pre).Feeds u ∧
      ((new config).after pre).strict ∧ ((new config).after pre).limit = config.reorderingChunks := by
    have hu' : ∀ c ∈ pre, c.upstream.streamId = u := fun c hm => hu c (by simp [h, hm])
    have hf := feeds_new config he u
    exact ⟨hf.after hu', (hf.after_config hu').1.trans hs, (hf.after_config hu').2⟩
  have step (pre chunk post) (h : chunks = pre ++ chunk :: post) :=
    push_strict (feeds pre _ h).1 (feeds pre _ h).2.1 (hu chunk (by simp [h])) <| by
      refine hw.sublist ?_
      rw [h, emitted_append, emitted]
      exact (List.sublist_append_left _ _).trans (List.sublist_append_right _ _)
  constructor
  · intro hall pre chunk post h hlt
    by_contra hlate
    refine (step pre chunk post h).2.2 hlt (UInt32.not_le.1 hlate) ?_
    rw [← after_concat]
    exact hall.stored _ post (by simp [h])
  · intro hin
    have hall : ∀ pre post, chunks = pre ++ post → ((new config).after pre).AllWait u := by
      intro pre
      induction pre using List.reverseRecOn with
      | nil => intro _ _ n hn; simp [stored, new] at hn
      | append_singleton pre chunk ih =>
        intro post h
        rw [List.append_assoc] at h
        rw [after_concat]
        exact (step pre chunk post h).2.1 (ih _ h) (hin pre chunk post h)
    refine ⟨hall, fun pre chunk post h herr => ?_⟩
    obtain ⟨hf, -, hl⟩ := feeds pre _ h
    rw [(hall pre _ h).length_waiting, ← hl]
    exact hf.limit_le_of_error (hu chunk (by simp [h])) herr

def chunkOf (n : UInt32) : DownstreamChunk := ⟨n, [], ⟨"", ⟨List.replicate 16 0, by decide⟩, ""⟩⟩

/-- With a repetition that the limit keeps out. -/
theorem strict_waits_iff_full :
    let config : DownstreamConfig := { qos := .reliable, reordering := .strict, reorderingChunks := 1 }
    let chunks := [chunkOf 1, chunkOf 3, chunkOf 1, chunkOf 2]
    OnlyWaits config (chunkOf 0).upstream.streamId chunks ↔
      ∀ pre chunk post, chunks = pre ++ chunk :: post →
        ((new config).after pre).InTime (chunkOf 0).upstream.streamId chunk := by
  intro config chunks
  have hw : ∀ c ∈ (new config).emitted chunks, c.sequenceNumber ≠ 0xffffffff := by decide +kernel
  exact strict_waits_iff config rfl rfl _ chunks (by decide) hw

/-- A chunk below the first one stays in the store, and the one after it meets the limit. -/
theorem strict_waits_late :
    ¬ ∀ (config : DownstreamConfig) (u : Uuid) (chunks : List DownstreamChunk), config.qos = .reliable →
      config.reordering = .strict → 0 < config.reorderingChunks →
      (∀ c ∈ chunks, c.upstream.streamId = u) → NoWrap ((new config).emitted chunks) →
      OnlyWaits config u chunks := by
  intro h
  let config : DownstreamConfig := { qos := .reliable, reordering := .strict, reorderingChunks := 1 }
  have hw : ∀ c ∈ (new config).emitted [chunkOf 1, chunkOf 0, chunkOf 3], c.sequenceNumber ≠ 0xffffffff := by
    decide +kernel
  have ho := h config (chunkOf 0).upstream.streamId [chunkOf 1, chunkOf 0, chunkOf 3] rfl rfl (by decide)
    (by decide) hw
  have herr := ho.errors [chunkOf 1, chunkOf 0] (chunkOf 3) [] rfl (by decide +kernel)
  revert herr
  decide +kernel

/-! ### Best effort -/

/-- If the limit has the next pop take a chunk, it is not a late one. -/
def TakesForward (r : DownReorderer) (u : Uuid) : Prop :=
  r.Forced u → ∀ n, (r.stored u).minKey? = some n → r.expected u ≤ n

/-- After `k` pops of the iterator that a call returns. -/
def popped (r : DownReorderer) (chunk : DownstreamChunk) (k : Nat) : DownReorderer :=
  ((r.iter chunk).2.popN chunk.upstream.streamId k).2

/-- The numbers that are emitted go up, and the expected number does not go down. -/
structure EmitsForward (r : DownReorderer) (u : Uuid) (chunks : List DownstreamChunk) : Prop where
  increasing : ((r.emitted chunks).map (·.sequenceNumber)).Pairwise (· < ·)
  next : ∀ pre chunk post, chunks = pre ++ chunk :: post →
    (r.after pre).expected u ≤ ((r.after pre).popped chunk 0).expected u ∧
    ∀ k, ((r.after pre).popped chunk k).expected u ≤ ((r.after pre).popped chunk (k + 1)).expected u

/-- With the chunk of a call on `u` stored, before any pop. -/
def entered (r : DownReorderer) (u : Uuid) (chunk : DownstreamChunk) : DownReorderer :=
  (r.register u chunk.sequenceNumber).insert u chunk

theorem expected_entered : (r.entered u chunk).expected u =
    (r.register u chunk.sequenceNumber).expected u := rfl

namespace Feeds

theorem entered (hr : r.Feeds u) : (r.entered u chunk).Knows u := (hr.register _).1.insert chunk

theorem push_loose (hr : r.Feeds u) (hs : ¬ r.strict) (hu : chunk.upstream.streamId = u) :
    (∀ k, r.popped chunk k = ((r.entered u chunk).popN u k).2) ∧
    r.emit chunk = ((r.entered u chunk).popN u ((r.entered u chunk).stored u).size).1 ∧
    (r.push chunk).2 = ((r.entered u chunk).popN u ((r.entered u chunk).stored u).size).2 := by
  have hp := push_register hr.enabled hu
  rcases (hr.register chunk.sequenceNumber).1.push_cases hu with ⟨h, -⟩ | ⟨-, hi, he, h⟩
  · exact absurd (by simpa using h) hs
  · rw [emit, hp] at he
    rw [hp] at h
    refine ⟨fun k => ?_, he, h⟩
    subst hu
    rw [iter_register chunk hr.enabled] at hi
    rw [popped, hi]
    rfl

theorem expected_le_entered (hr : r.Feeds u) : r.expected u ≤ (r.entered u chunk).expected u := by
  rcases (hr.register chunk.sequenceNumber).2.2 with ⟨-, he⟩ | ⟨hn, -, -⟩
  · rw [expected_entered, he]
    exact UInt32.le_refl _
  · have h0 : r.expected u = 0 := by simp [expected, hn]
    rw [h0, UInt32.le_iff_toNat_le]
    exact Nat.zero_le _

end Feeds

/-- From `r` to `r'` the numbers of `out` were emitted, upwards from the expected one. -/
structure Forward (r : DownReorderer) (u : Uuid) (out : List DownstreamChunk) (r' : DownReorderer) :
    Prop where
  increasing : (out.map (·.sequenceNumber)).Pairwise (· < ·)
  le : ∀ c ∈ out, r.expected u ≤ c.sequenceNumber
  lt : ∀ c ∈ out, c.sequenceNumber < r'.expected u
  next : r.expected u ≤ r'.expected u

namespace Forward

theorem of_le (h : r.expected u ≤ r'.expected u) : Forward r u [] r' := ⟨.nil, nofun, nofun, h⟩

theorem trans (h : Forward r u out r') (h' : Forward r' u out' r'') : Forward r u (out ++ out') r'' := by
  refine ⟨?_, fun c hc => ?_, fun c hc => ?_, UInt32.le_trans h.next h'.next⟩
  · rw [List.map_append, List.pairwise_append]
    refine ⟨h.increasing, h'.increasing, fun a ha b hb => ?_⟩
    obtain ⟨c, hc, rfl⟩ := List.mem_map.1 ha
    obtain ⟨d, hd, rfl⟩ := List.mem_map.1 hb
    exact UInt32.lt_of_lt_of_le (h.lt c hc) (h'.le d hd)
  · rcases List.mem_append.1 hc with hc | hc
    · exact h.le c hc
    · exact UInt32.le_trans h.next (h'.le c hc)
  · rcases List.mem_append.1 hc with hc | hc
    · exact UInt32.lt_of_lt_of_le (h.lt c hc) h'.next
    · exact h'.lt c hc

end Forward

theorem Pops.forward (h : Pops r u chunk r') (ht : r.TakesForward u)
    (hc : chunk.sequenceNumber ≠ 0xffffffff) : Forward r u [chunk] r' := by
  have hle : r.expected u ≤ chunk.sequenceNumber := by
    rcases h.number with ⟨hf, hn⟩ | hn
    · exact ht hf _ hn
    · rw [hn]; exact UInt32.le_refl _
  have hlt : chunk.sequenceNumber < r'.expected u := by
    rw [h.expected, UInt32.lt_iff_toNat_lt, toNat_succ hc]
    omega
  refine ⟨List.pairwise_singleton .., ?_, ?_, UInt32.le_of_lt (UInt32.lt_of_le_of_lt hle hlt)⟩
  · intro c hm
    rwa [List.mem_singleton.1 hm]
  · intro c hm
    rwa [List.mem_singleton.1 hm]

theorem Knows.popN_forward (hr : r.Knows u) (k : Nat) (hw : NoWrap (r.popN u k).1)
    (ht : ∀ j, (r.popN u j).2.TakesForward u) : Forward r u (r.popN u k).1 (r.popN u k).2 := by
  induction k with
  | zero => exact .of_le (UInt32.le_refl _)
  | succ k ih =>
    have hp := popN_prefix (r := r) (u := u) (Nat.le_succ k)
    have hk := ih (hw.sublist hp.sublist)
    rw [popN_succ] at hw ⊢
    split
    · exact hk
    · rename_i c r' he
      rw [he] at hw
      exact hk.trans (((hr.popN k).pop he).forward (ht k) (hw c (by simp)))

theorem Feeds.push_forward (hr : r.Feeds u) (hs : ¬ r.strict) (hu : chunk.upstream.streamId = u)
    (hw : NoWrap (r.emit chunk)) (ht : ∀ k, (r.popped chunk k).TakesForward u) :
    Forward r u (r.emit chunk) (r.push chunk).2 := by
  obtain ⟨hk, he, hp⟩ := hr.push_loose hs hu
  rw [he] at hw ⊢
  rw [hp]
  exact (Forward.of_le hr.expected_le_entered).trans
    (hr.entered.popN_forward _ hw fun j => by rw [← hk]; exact ht j)

theorem Feeds.forward (hr : r.Feeds u) (hs : ¬ r.strict) (hu : ∀ c ∈ chunks, c.upstream.streamId = u)
    (hw : NoWrap (r.emitted chunks)) (ht : ∀ pre chunk post, chunks = pre ++ chunk :: post →
      ∀ k, ((r.after pre).popped chunk k).TakesForward u) :
    Forward r u (r.emitted chunks) (r.after chunks) := by
  induction chunks using List.reverseRecOn with
  | nil => exact .of_le (UInt32.le_refl _)
  | append_singleton chunks chunk ih =>
    have hu' : ∀ c ∈ chunks, c.upstream.streamId = u := fun c hm => hu c (List.mem_append_left _ hm)
    rw [emitted_concat] at hw
    rw [after_concat, emitted_concat]
    refine (ih hu' (hw.sublist (List.sublist_append_left ..)) fun pre c post h =>
      ht pre c (post ++ [chunk]) (by simp [h])).trans ?_
    exact (hr.after hu').push_forward (by rwa [(hr.after_config hu').1]) (hu chunk (by simp))
      (hw.sublist (List.sublist_append_right ..)) (ht chunks chunk [] rfl)

/-- The chunk before the expected one is the latest of `out`, or none was emitted and only the expected
one is stored. -/
def Follows (out : List DownstreamChunk) (r : DownReorderer) (u : Uuid) : Prop :=
  (∃ c ∈ out, c.sequenceNumber + 1 = r.expected u) ∨
    r.expected u ∈ r.stored u ∧ ∀ n ∈ r.stored u, n = r.expected u

theorem Follows.popN (h : Follows out r u) (hr : r.Knows u) (k : Nat) :
    Follows (out ++ (r.popN u k).1) (r.popN u k).2 u := by
  induction k with
  | zero => rwa [DownReorderer.popN, List.append_nil]
  | succ k ih =>
    rw [popN_succ]
    split
    · exact ih
    · rename_i c r' he
      exact .inl ⟨c, by simp, ((hr.popN k).pop he).expected.symm⟩

/-- Between two calls the last number that was emitted is the one before the expected one. -/
def Settled (out : List DownstreamChunk) (r : DownReorderer) (u : Uuid) : Prop :=
  (r.next u).isSome → ∃ c ∈ out, c.sequenceNumber + 1 = r.expected u

theorem Settled.entered (h : Settled out r u) (hr : r.Feeds u) : Follows out (r.entered u chunk) u := by
  obtain ⟨-, hst, hex⟩ := hr.register chunk.sequenceNumber
  rcases hex with ⟨hk, he⟩ | ⟨-, h0, he⟩
  · obtain ⟨c, hc, hn⟩ := h hk
    exact .inl ⟨c, hc, by rw [expected_entered, he, hn]⟩
  · -- The first chunk of an upstream has the expected number.
    have hstored : ∀ n, n ∈ (r.entered u chunk).stored u ↔ n = (r.entered u chunk).expected u := by
      intro n
      rw [DownReorderer.entered, mem_insert, hst, h0]
      show _ ↔ n = (r.register u chunk.sequenceNumber).expected u
      rw [he]
      simp
    exact .inr ⟨(hstored _).2 rfl, fun n hn => (hstored n).1 hn⟩

theorem Settled.push (h : Settled out r u) (hr : r.Feeds u) (hs : ¬ r.strict)
    (hu : chunk.upstream.streamId = u) : Settled (out ++ r.emit chunk) (r.push chunk).2 u := by
  intro _
  obtain ⟨-, he, hp⟩ := hr.push_loose hs hu
  rw [he, hp]
  refine ((h.entered hr).popN hr.entered _).resolve_right fun hf => ?_
  exact not_mem_popN hf.1

theorem Feeds.settled (hr : r.Feeds u) (hs : ¬ r.strict) (hn : r.next u = none)
    (hu : ∀ c ∈ chunks, c.upstream.streamId = u) : Settled (r.emitted chunks) (r.after chunks) u := by
  induction chunks using List.reverseRecOn with
  | nil =>
    intro h
    rw [after_nil, hn] at h
    cases h
  | append_singleton chunks chunk ih =>
    have hu' : ∀ c ∈ chunks, c.upstream.streamId = u := fun c hm => hu c (List.mem_append_left _ hm)
    rw [after_concat, emitted_concat]
    exact (ih hu').push (hr.after hu') (by rwa [(hr.after_config hu').1]) (hu chunk (by simp))

theorem pop_of_forced (hf : r.Forced u) (hn : (r.stored u).minKey? = some n)
    (hc : (r.stored u)[n]? = some chunk) :
    r.pop u = (some chunk, (r.setStore u ((r.stored u).erase n)).setNext u (n + 1)) := by
  rw [pop, if_pos (show ¬ r.strict = true ∧ r.limit ≤ _ from hf), BTreeMap.popFirst, hn,
    Option.bind_some, hc, Option.map_some]

/-- A pop that the limit has take a late chunk repeats a number or goes back behind one. -/
theorem Follows.takesForward (h : Follows out r u) (hr : r.Knows u) (hw : NoWrap out)
    (hi : ∀ c r', r.pop u = (some c, r') → ((out ++ [c]).map (·.sequenceNumber)).Pairwise (· < ·)) :
    r.TakesForward u := by
  intro hf n hn
  have hmem := (Std.ExtTreeMap.minKey?_eq_some_iff_mem_and_forall.1 hn).1
  rcases h with ⟨c, hc, hnext⟩ | ⟨-, hall⟩
  · obtain ⟨c', hc'⟩ := Option.isSome_iff_exists.1 (Std.ExtTreeMap.mem_iff_isSome_getElem?.1 hmem)
    have hlt := hi _ _ (pop_of_forced hf hn hc')
    rw [List.map_append, List.pairwise_append] at hlt
    have hlt : c.sequenceNumber < c'.sequenceNumber :=
      hlt.2.2 _ (List.mem_map_of_mem hc) _ (List.mem_singleton.2 rfl)
    rw [hr.keyed _ _ hc', UInt32.lt_iff_toNat_lt] at hlt
    rw [← hnext, UInt32.le_iff_toNat_le, toNat_succ (hw c hc)]
    omega
  · rw [hall n hmem]
    exact UInt32.le_refl _

/-- A best-effort reorderer emits forward exactly if the limit never has it take a late chunk. -/
theorem bestEffort_forward_iff (config : DownstreamConfig) (hq : config.qos = .reliable)
    (hc : config.reordering = .bestEffort) (u : Uuid) (chunks : List DownstreamChunk)
    (hu : ∀ c ∈ chunks, c.upstream.streamId = u) (hw : NoWrap ((new config).emitted chunks)) :
    EmitsForward (new config) u chunks ↔ ∀ pre chunk post, chunks = pre ++ chunk :: post →
      ∀ k, (((new config).after pre).popped chunk k).TakesForward u := by
  have hnew := feeds_new config (by simp [new, hq, hc]) u
  have hs : ¬ (new config).strict := by simp [new, hc]
  have before (pre post) (h : chunks = pre ++ post) : ∀ c ∈ pre, c.upstream.streamId = u :=
    fun c hm => hu c (by simp [h, hm])
  have feeds (pre post) (h : chunks = pre ++ post) :
      ((new config).after pre).Feeds u ∧ ¬ ((new config).after pre).strict :=
    ⟨hnew.after (before pre post h), by rwa [(hnew.after_config (before pre post h)).1]⟩
  -- What was emitted before a pop, and what it emits, is part of all that is emitted.
  have sub (pre chunk post) (h : chunks = pre ++ chunk :: post) (j : Nat) :
      ((new config).emitted pre ++ ((((new config).after pre).entered u chunk).popN u j).1).Sublist
        ((new config).emitted chunks) := by
    obtain ⟨hf, hl⟩ := feeds pre _ h
    obtain ⟨-, hemit, -⟩ := hf.push_loose hl (hu chunk (by simp [h]))
    have hcall := emitted_sublist (r := new config) pre chunk post
    rw [← h, hemit] at hcall
    exact ((List.Sublist.refl _).append (popN_prefix_drain j).sublist).trans hcall
  constructor
  · intro hinc pre chunk post h k
    obtain ⟨hf, hl⟩ := feeds pre _ h
    obtain ⟨hk, -, -⟩ := hf.push_loose hl (hu chunk (by simp [h]))
    have settled := hnew.settled hs rfl (before pre _ h)
    rw [hk]
    refine ((settled.entered hf).popN hf.entered k).takesForward (hf.entered.popN k)
      (hw.sublist (sub pre chunk post h k)) fun c r' hp => ?_
    have hsub := sub pre chunk post h (k + 1)
    rw [popN_succ, hp, ← List.append_assoc] at hsub
    exact hinc.increasing.sublist (hsub.map _)
  · intro ht
    refine ⟨(hnew.forward hs hu hw ht).increasing, fun pre chunk post h => ?_⟩
    obtain ⟨hf, hl⟩ := feeds pre _ h
    obtain ⟨hk, -, -⟩ := hf.push_loose hl (hu chunk (by simp [h]))
    refine ⟨by rw [hk]; exact hf.expected_le_entered, fun k => ?_⟩
    have htk := ht pre chunk post h k
    rw [hk] at htk
    rw [hk, hk, popN_succ]
    split
    · exact UInt32.le_refl _
    · rename_i c r' hp
      have hc : NoWrap ((((new config).after pre).entered u chunk).popN u (k + 1)).1 :=
        hw.sublist ((List.sublist_append_right _ _).trans (sub pre chunk post h (k + 1)))
      rw [popN_succ, hp] at hc
      exact (((hf.entered.popN k).pop hp).forward htk (hc c (by simp))).next

/-- At a limit of one every chunk is passed on at once. -/
theorem emitted_of_limit_le_one (hr : r.Feeds u) (hs : ¬ r.strict) (hl : r.limit ≤ 1)
    (h0 : r.stored u = ∅) (hu : ∀ c ∈ chunks, c.upstream.streamId = u) : r.emitted chunks = chunks := by
  induction chunks generalizing r with
  | nil => rfl
  | cons chunk chunks ih =>
    have huc := hu chunk (by simp)
    obtain ⟨-, he, hp⟩ := hr.push_loose hs huc
    have hst : (r.entered u chunk).stored u = (∅ : BTreeMap DownstreamChunk).insert chunk.sequenceNumber chunk := by
      rw [entered, insert, stored_setStore, (hr.register _).2.1, h0]
    have hsize : ((r.entered u chunk).stored u).size = 1 := by
      rw [hst, Std.ExtTreeMap.size_insert]; rfl
    have hlim : (r.entered u chunk).limit = r.limit := limit_register
    have hstr : (r.entered u chunk).strict = r.strict := strict_register
    have hmin : ((r.entered u chunk).stored u).minKey? = some chunk.sequenceNumber := by
      rw [hst, Std.ExtTreeMap.minKey?_eq_some_iff_mem_and_forall]
      refine ⟨by simp, fun k hk => ?_⟩
      simp only [Std.ExtTreeMap.mem_insert, Std.compare_eq_iff_eq] at hk
      rcases hk with rfl | hk
      · simp
      · simp at hk
    have hpop : (r.entered u chunk).pop u = (some chunk,
        ((r.entered u chunk).setStore u (((r.entered u chunk).stored u).erase chunk.sequenceNumber)).setNext u
          (chunk.sequenceNumber + 1)) := by
      refine pop_of_forced ⟨by rwa [hstr], by rw [hsize, hlim]; exact hl⟩ hmin ?_
      rw [hst]; simp
    rw [hsize, popN, hpop] at he hp
    obtain ⟨hs', hl'⟩ := hr.push_config huc
    rw [emitted, he, ih (hr.push huc).feeds (by rwa [hs']) (by rwa [hl']) ?_
      fun c hc => hu c (List.mem_cons_of_mem _ hc)]
    · rfl
    · rw [hp]
      simp only [popN, stored_setNext, stored_setStore]
      rw [hst, Std.ExtTreeMap.eq_empty_iff_forall_not_mem]
      intro k hk
      simp only [Std.ExtTreeMap.mem_erase, Std.ExtTreeMap.mem_insert, Std.compare_eq_iff_eq] at hk
      rcases hk with ⟨hne, rfl | hk⟩
      · exact hne (by simp)
      · simp at hk

/-- A gap that the limit passes over. -/
theorem bestEffort_forward_iff_gap :
    let config : DownstreamConfig := { qos := .reliable, reordering := .bestEffort, reorderingChunks := 1 }
    let chunks := [chunkOf 1, chunkOf 3, chunkOf 4]
    EmitsForward (new config) (chunkOf 0).upstream.streamId chunks ↔
      ∀ pre chunk post, chunks = pre ++ chunk :: post →
        ∀ k, (((new config).after pre).popped chunk k).TakesForward (chunkOf 0).upstream.streamId := by
  intro config chunks
  have he : (new config).emitted chunks = chunks :=
    emitted_of_limit_le_one (feeds_new config rfl (chunkOf 0).upstream.streamId) (by decide) (by decide) rfl
      (by decide)
  have hw : NoWrap ((new config).emitted chunks) := by
    rw [he]
    show ∀ c ∈ chunks, c.sequenceNumber ≠ 0xffffffff
    decide
  exact bestEffort_forward_iff config rfl rfl _ chunks (by decide) hw

/-- At a limit of one a late chunk is passed on as well. -/
theorem bestEffort_forward_late :
    ¬ ∀ (config : DownstreamConfig) (u : Uuid) (chunks : List DownstreamChunk), config.qos = .reliable →
      config.reordering = .bestEffort → (∀ c ∈ chunks, c.upstream.streamId = u) →
      NoWrap ((new config).emitted chunks) → EmitsForward (new config) u chunks := by
  intro h
  let config : DownstreamConfig := { qos := .reliable, reordering := .bestEffort, reorderingChunks := 1 }
  have he : (new config).emitted [chunkOf 1, chunkOf 0] = [chunkOf 1, chunkOf 0] :=
    emitted_of_limit_le_one (feeds_new config rfl (chunkOf 0).upstream.streamId) (by decide) (by decide) rfl
      (by decide)
  have hw : NoWrap ((new config).emitted [chunkOf 1, chunkOf 0]) := by
    rw [he]
    show ∀ c ∈ [chunkOf 1, chunkOf 0], c.sequenceNumber ≠ 0xffffffff
    decide
  have hi := (h config (chunkOf 0).upstream.streamId [chunkOf 1, chunkOf 0] rfl rfl (by decide) hw).increasing
  rw [he] at hi
  exact absurd hi (by decide)

end DownReorderer
end Iscp
