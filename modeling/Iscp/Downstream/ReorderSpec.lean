import Iscp.Downstream.Reorder
import Mathlib.Tactic.Set

/-!
# What `DownReorderer` emits

A pop takes one stored chunk away, so draining ends. In strict mode a pop takes the chunk with the
expected number and moves on to the next number, so everything emitted for an upstream is a run of
consecutive numbers (`Emits`), which composes over the calls of a whole sequence of chunks.
-/

namespace Iscp

theorem BTreeMap.popFirst_eq_some {β : Type} {m m' : BTreeMap β} {k : UInt32} {v : β}
    (h : m.popFirst = some ((k, v), m')) : m[k]? = some v ∧ m' = m.erase k := by
  simp only [popFirst, Option.bind_eq_some_iff, Option.map_eq_some_iff, Prod.mk.injEq] at h
  obtain ⟨k', -, v', hv, ⟨rfl, rfl⟩, rfl⟩ := h
  exact ⟨hv, rfl⟩

theorem BTreeMap.size_erase_add_one {β : Type} {m : BTreeMap β} {k : UInt32} {v : β}
    (h : m[k]? = some v) : (m.erase k).size + 1 = m.size := by
  have hk : k ∈ m := Std.ExtTreeMap.mem_iff_isSome_getElem?.2 (by simp [h])
  have hpos : m.size ≠ 0 := fun h0 => by
    rw [← Std.ExtTreeMap.eq_empty_iff_size_eq_zero] at h0; simp [h0] at hk
  rw [Std.ExtTreeMap.size_erase]
  split
  · omega
  · contradiction

/-- The chunk that an iterator holds itself. -/
def DownReordererIter.held : DownReordererIter → List DownstreamChunk
  | .notReordered chunk => chunk.toList
  | .reordered _ => []

namespace DownReorderer

variable {r r' r'' : DownReorderer} {u : Uuid} {m : BTreeMap DownstreamChunk} {n : UInt32}

@[simp] theorem stored_setStore : (r.setStore u m).stored u = m := by simp [stored, setStore]

@[simp] theorem expected_setStore : (r.setStore u m).expected u = r.expected u := rfl

@[simp] theorem next_setStore : (r.setStore u m).next = r.next := rfl

@[simp] theorem strict_setStore : (r.setStore u m).strict = r.strict := rfl

@[simp] theorem enabled_setStore : (r.setStore u m).enabled = r.enabled := rfl

@[simp] theorem stored_setNext {v : Uuid} : (r.setNext u n).stored v = r.stored v := rfl

@[simp] theorem expected_setNext : (r.setNext u n).expected u = n := by simp [expected, setNext]

@[simp] theorem next_setNext : (r.setNext u n).next u = some n := by simp [setNext]

@[simp] theorem strict_setNext : (r.setNext u n).strict = r.strict := rfl

@[simp] theorem enabled_setNext : (r.setNext u n).enabled = r.enabled := rfl

/-! ### Registering an upstream -/

theorem register_of_isSome (h : (r.next u).isSome) : r.register u n = r := by
  obtain ⟨k, hk⟩ := Option.isSome_iff_exists.1 h
  simp [register, hk]

theorem next_register_isSome : ((r.register u n).next u).isSome := by
  unfold register
  split
  · rename_i h; simp [h]
  · simp

theorem expected_register_of_none (h : r.next u = none) : (r.register u n).expected u = n := by
  simp [register, h, expected]

theorem stored_register_of_none (h : r.next u = none) : (r.register u n).stored u = ∅ := by
  simp [register, h, stored]

@[simp] theorem strict_register : (r.register u n).strict = r.strict := by
  unfold register; split <;> rfl

@[simp] theorem enabled_register : (r.register u n).enabled = r.enabled := by
  unfold register; split <;> rfl

/-- Registering the upstream of a chunk ahead of the call that does so changes nothing. -/
theorem iter_register (chunk : DownstreamChunk) (he : r.enabled) :
    (r.register chunk.upstream.streamId chunk.sequenceNumber).iter chunk = r.iter chunk := by
  simp only [iter, enabled_register, he, ↓reduceIte, register_of_isSome next_register_isSome]

/-! ### Pops -/

theorem size_pop_lt {chunk : DownstreamChunk} (h : r.pop u = (some chunk, r')) :
    (r'.stored u).size + 1 = (r.stored u).size := by
  unfold pop at h
  split at h
  · split at h
    · rename_i k c m hp
      obtain ⟨hk, rfl⟩ := BTreeMap.popFirst_eq_some hp
      obtain ⟨-, rfl⟩ := Prod.mk.inj h
      simpa using BTreeMap.size_erase_add_one hk
    · cases (Prod.mk.inj h).1
  · split at h
    · rename_i c hc
      obtain ⟨-, rfl⟩ := Prod.mk.inj h
      simpa using BTreeMap.size_erase_add_one hc
    · cases (Prod.mk.inj h).1

theorem pop_eq_none (h : r.pop u = (none, r')) : r' = r := by
  unfold pop at h
  split at h <;> split at h
  all_goals first | exact (Prod.mk.inj h).2.symm | cases (Prod.mk.inj h).1

/-- The pops allowed to a drain are enough: the pop after them returns nothing. -/
theorem pop_popN (k : Nat) (hk : (r.stored u).size ≤ k) : ((r.popN u k).2.pop u).1 = none := by
  induction k generalizing r with
  | zero =>
    match hp : r.pop u with
    | (none, r') => rfl
    | (some c, r') => have := size_pop_lt hp; omega
  | succ k ih =>
    match hp : r.pop u with
    | (none, r') => obtain rfl := pop_eq_none hp; simp [popN, hp]
    | (some c, r') =>
      have := size_pop_lt hp
      simpa [popN, hp] using ih (r := r') (by omega)

theorem pop_of_strict (hs : r.strict) : r.pop u =
    match (r.stored u)[r.expected u]? with
    | some chunk =>
      (some chunk, (r.setStore u ((r.stored u).erase (r.expected u))).setNext u (r.expected u + 1))
    | none => (none, r) := by
  unfold pop
  exact if_neg (by simp [hs])

/-! ### What is stored -/

/-- Every chunk lies at its number under its upstream, and an upstream that is not known has none. -/
structure Keyed (r : DownReorderer) : Prop where
  keyed : ∀ u (n : UInt32) chunk, (r.stored u)[n]? = some chunk →
    chunk.upstream.streamId = u ∧ chunk.sequenceNumber = n
  unknown : ∀ u, r.next u = none → r.stored u = ∅

theorem stored_setStore_of_ne {v : Uuid} (h : v ≠ u) : (r.setStore u m).stored v = r.stored v := by
  simp [stored, setStore, Function.update_of_ne h]

theorem expected_setNext_of_ne {v : Uuid} (h : v ≠ u) : (r.setNext u n).expected v = r.expected v := by
  simp [expected, setNext, Function.update_of_ne h]

theorem keyed_new (config : DownstreamConfig) : (new config).Keyed :=
  ⟨fun u n chunk h => by simp [stored, new] at h, fun _ _ => rfl⟩

theorem Keyed.stored_register (h : r.Keyed) (v : Uuid) : (r.register u n).stored v = r.stored v := by
  unfold register
  split
  · rfl
  · rename_i hn
    by_cases hv : v = u
    · subst hv
      rw [h.unknown v hn]
      simp [stored]
    · simp [stored, Function.update_of_ne hv]

theorem expected_register_of_ne {v : Uuid} (h : v ≠ u) : (r.register u n).expected v = r.expected v := by
  unfold register
  split
  · rfl
  · simp [expected, Function.update_of_ne h]

theorem Keyed.register (h : r.Keyed) : (r.register u n).Keyed := by
  refine ⟨fun v k chunk hk => h.keyed v k chunk (by rwa [h.stored_register] at hk), fun v hv => ?_⟩
  rw [h.stored_register]
  refine h.unknown v ?_
  unfold DownReorderer.register at hv
  split at hv
  · exact hv
  · by_cases hvu : v = u
    · subst hvu
      simp at hv
    · simpa [Function.update_of_ne hvu] using hv

structure Iters (r : DownReorderer) (chunk : DownstreamChunk) (it : DownReordererIter)
    (r' : DownReorderer) : Prop where
  keyed : r'.Keyed
  stored : ∀ u n, n ∈ r.stored u → n ∈ r'.stored u
  other : ∀ u, it ≠ .reordered u → r'.stored u = r.stored u ∧ r'.expected u = r.expected u
  it : it = .notReordered (some chunk) ∨
    it = .reordered chunk.upstream.streamId ∧ chunk.sequenceNumber ∈ r'.stored chunk.upstream.streamId

theorem Keyed.iter {chunk : DownstreamChunk} {it : DownReordererIter} (h : r.Keyed)
    (hi : r.iter chunk = (.ok it, r')) : Iters r chunk it r' := by
  unfold DownReorderer.iter at hi
  split at hi
  · dsimp only at hi
    split at hi
    · cases hi
    · obtain ⟨hit, rfl⟩ := Prod.mk.inj hi
      obtain rfl := Except.ok.inj hit
      have hr := h.register (u := chunk.upstream.streamId) (n := chunk.sequenceNumber)
      refine ⟨⟨fun u n c hc => ?_, fun u hu => ?_⟩, fun u n hn => ?_, fun u hu => ?_, .inr ⟨rfl, ?_⟩⟩
      · by_cases hu : u = chunk.upstream.streamId
        · subst hu
          simp only [stored_setStore, Std.ExtTreeMap.getElem?_insert, Std.compare_eq_iff_eq] at hc
          split at hc
          · rename_i he
            obtain rfl := Option.some.inj hc
            exact ⟨rfl, he⟩
          · exact hr.keyed _ n c hc
        · rw [stored_setStore_of_ne hu] at hc
          exact hr.keyed u n c hc
      · by_cases he : u = chunk.upstream.streamId
        · subst he
          have := next_register_isSome (r := r) (u := chunk.upstream.streamId) (n := chunk.sequenceNumber)
          rw [next_setStore] at hu
          simp [hu] at this
        · rw [stored_setStore_of_ne he]
          exact hr.unknown u hu
      · by_cases hu : u = chunk.upstream.streamId
        · subst hu
          rw [stored_setStore, h.stored_register]
          exact Std.ExtTreeMap.mem_insert.2 (.inr hn)
        · rw [stored_setStore_of_ne hu, h.stored_register]
          exact hn
      · have hu : u ≠ chunk.upstream.streamId := fun he => hu (by rw [he])
        rw [stored_setStore_of_ne hu, h.stored_register]
        exact ⟨rfl, expected_register_of_ne hu⟩
      · simp
  · obtain ⟨hit, rfl⟩ := Prod.mk.inj hi
    obtain rfl := Except.ok.inj hit
    exact ⟨h, fun _ _ hn => hn, fun _ _ => ⟨rfl, rfl⟩, .inl rfl⟩

/-- A call of `iter` that fails at most registers the upstream. -/
theorem Keyed.iter_error {chunk : DownstreamChunk} {e : Error} (h : r.Keyed)
    (hi : r.iter chunk = (.error e, r')) : r'.Keyed ∧ (∀ u, r'.stored u = r.stored u) ∧
      ∀ u, r.expected u ∉ r.stored u → r'.expected u ∉ r'.stored u := by
  unfold DownReorderer.iter at hi
  split at hi
  · dsimp only at hi
    split at hi
    · obtain ⟨-, rfl⟩ := Prod.mk.inj hi
      refine ⟨h.register, h.stored_register, fun u hu => ?_⟩
      rw [h.stored_register]
      cases hn : r.next chunk.upstream.streamId with
      | some k => rwa [register_of_isSome (by simp [hn])]
      | none =>
        by_cases he : u = chunk.upstream.streamId
        · rw [he, h.unknown _ hn]
          simp
        · rwa [expected_register_of_ne he]
    · cases hi
  · cases hi

structure Nexts (r : DownReorderer) (it : DownReordererIter) (chunk : DownstreamChunk)
    (it' : DownReordererIter) (r' : DownReorderer) : Prop where
  keyed : r'.Keyed
  stored : ∀ u n, n ∈ r.stored u → n ∈ r'.stored u ∨
    u = chunk.upstream.streamId ∧ n = chunk.sequenceNumber
  other : ∀ u, it' ≠ .reordered u → r'.stored u = r.stored u ∧ r'.expected u = r.expected u
  it : it = .notReordered (some chunk) ∧ it' = .notReordered none ∨ ∃ u, it = .reordered u ∧ it' = it

/-- A pop takes a chunk from the store of its upstream and leaves everything else there. -/
theorem pop_eq_some {chunk : DownstreamChunk} (h : r.pop u = (some chunk, r')) :
    ∃ k n, (r.stored u)[k]? = some chunk ∧ r' = (r.setStore u ((r.stored u).erase k)).setNext u n := by
  unfold pop at h
  split at h
  · split at h
    · rename_i k c m hp
      obtain ⟨hk, rfl⟩ := BTreeMap.popFirst_eq_some hp
      obtain ⟨hc, rfl⟩ := Prod.mk.inj h
      exact ⟨k, k + 1, hk.trans hc, rfl⟩
    · cases (Prod.mk.inj h).1
  · split at h
    · rename_i c hk
      obtain ⟨hc, rfl⟩ := Prod.mk.inj h
      exact ⟨_, _, hk.trans hc, rfl⟩
    · cases (Prod.mk.inj h).1

theorem Keyed.iterNext {chunk : DownstreamChunk} {it it' : DownReordererIter} (h : r.Keyed)
    (hi : r.iterNext it = (some chunk, it', r')) : Nexts r it chunk it' r' := by
  cases it with
  | notReordered c =>
    simp only [DownReorderer.iterNext, Prod.mk.injEq] at hi
    obtain ⟨rfl, rfl, rfl⟩ := hi
    exact ⟨h, fun _ _ hn => .inl hn, fun _ _ => ⟨rfl, rfl⟩, .inl ⟨rfl, rfl⟩⟩
  | reordered u =>
    simp only [DownReorderer.iterNext, Prod.mk.injEq] at hi
    obtain ⟨hc, rfl, hr⟩ := hi
    obtain ⟨k, n, hk, rfl⟩ := pop_eq_some (Prod.ext hc hr)
    obtain ⟨rfl, rfl⟩ := h.keyed u k chunk hk
    refine ⟨⟨fun v j c hj => ?_, fun v hv => ?_⟩, fun v j hj => ?_, fun v hv => ?_, .inr ⟨_, rfl, rfl⟩⟩
    · by_cases hv : v = chunk.upstream.streamId
      · subst hv
        simp only [stored_setNext, stored_setStore, Std.ExtTreeMap.getElem?_erase] at hj
        split at hj
        · cases hj
        · exact h.keyed _ j c hj
      · rw [stored_setNext, stored_setStore_of_ne hv] at hj
        exact h.keyed v j c hj
    · by_cases he : v = chunk.upstream.streamId
      · subst he
        simp at hv
      · rw [stored_setNext, stored_setStore_of_ne he]
        refine h.unknown v ?_
        simpa [setNext, Function.update_of_ne he] using hv
    · by_cases he : v = chunk.upstream.streamId
      · subst he
        by_cases hj' : j = chunk.sequenceNumber
        · exact .inr ⟨rfl, hj'⟩
        · left
          simp only [stored_setNext, stored_setStore, Std.ExtTreeMap.mem_erase]
          exact ⟨by simpa using fun he => hj' he.symm, hj⟩
      · left
        rwa [stored_setNext, stored_setStore_of_ne he]
    · have he : v ≠ chunk.upstream.streamId := fun he => hv (by rw [he])
      exact ⟨stored_setStore_of_ne he, by rw [expected_setNext_of_ne he]; rfl⟩

/-- A call of `next` that returns nothing changes nothing, and the expected number is not stored. -/
theorem iterNext_eq_none {it it' : DownReordererIter} (hi : r.iterNext it = (none, it', r')) :
    r' = r ∧ (it = .notReordered none ∨ ∃ u, it = .reordered u ∧ r.expected u ∉ r.stored u) := by
  cases it with
  | notReordered c =>
    simp only [DownReorderer.iterNext, Prod.mk.injEq] at hi
    obtain ⟨rfl, -, rfl⟩ := hi
    exact ⟨rfl, .inl rfl⟩
  | reordered u =>
    simp only [DownReorderer.iterNext, Prod.mk.injEq] at hi
    obtain ⟨hc, -, hr⟩ := hi
    have hp : r.pop u = (none, r') := Prod.ext hc hr
    refine ⟨pop_eq_none hp, .inr ⟨u, rfl, fun hm => ?_⟩⟩
    obtain ⟨c, hget⟩ := Option.isSome_iff_exists.1 (Std.ExtTreeMap.mem_iff_isSome_getElem?.1 hm)
    unfold pop at hp
    split at hp
    · split at hp
      · cases (Prod.mk.inj hp).1
      · rename_i hfirst
        -- A store with a chunk in it has a first one.
        have hne : r.stored u ≠ ∅ := fun h0 => by simp [h0] at hm
        obtain ⟨k, hk⟩ := Option.isSome_iff_exists.1 (Std.ExtTreeMap.isSome_minKey?_iff_ne_empty.2 hne)
        have hmem := (Std.ExtTreeMap.minKey?_eq_some_iff_mem_and_forall.1 hk).1
        obtain ⟨c', hc'⟩ := Option.isSome_iff_exists.1 (Std.ExtTreeMap.mem_iff_isSome_getElem?.1 hmem)
        simp [BTreeMap.popFirst, hk, hc'] at hfirst
    · simp [hget] at hp

/-! ### Strict reordering -/

/-- A strict reorderer that knows `u` and stores its chunks under their own numbers. -/
structure Strict (r : DownReorderer) (u : Uuid) : Prop where
  enabled : r.enabled
  strict : r.strict
  known : (r.next u).isSome
  keyed : ∀ (n : UInt32) (chunk : DownstreamChunk), (r.stored u)[n]? = some chunk →
    chunk.sequenceNumber = n

/-- From `r` to `r'` exactly `out` was emitted: consecutive numbers from the expected one on. -/
structure Emits (r : DownReorderer) (u : Uuid) (out : List DownstreamChunk) (r' : DownReorderer) :
    Prop where
  seqs : out.map (·.sequenceNumber) = List.iterate (· + 1) (r.expected u) out.length
  next : r'.expected u = (· + 1)^[out.length] (r.expected u)

theorem Emits.refl : Emits r u [] r := ⟨rfl, rfl⟩

theorem Emits.trans {out out' : List DownstreamChunk} (h : Emits r u out r')
    (h' : Emits r' u out' r'') : Emits r u (out ++ out') r'' := by
  constructor
  · rw [List.map_append, h.seqs, h'.seqs, h.next, List.length_append, List.iterate_add]
  · rw [h'.next, h.next, List.length_append, Nat.add_comm, Function.iterate_add_apply]

namespace Strict

theorem pop {chunk : DownstreamChunk} (hr : r.Strict u) (h : r.pop u = (some chunk, r')) :
    r'.Strict u ∧ Emits r u [chunk] r' := by
  rw [pop_of_strict hr.strict] at h
  split at h
  · rename_i c hc
    obtain ⟨hcc, rfl⟩ := Prod.mk.inj h
    obtain rfl := Option.some.inj hcc
    refine ⟨⟨hr.enabled, hr.strict, by simp, fun n chunk' hn => hr.keyed n chunk' ?_⟩,
      by simp [List.iterate, hr.keyed _ _ hc], by simp⟩
    simp only [stored_setNext, stored_setStore, Std.ExtTreeMap.getElem?_erase] at hn
    split at hn
    · cases hn
    · exact hn
  · cases (Prod.mk.inj h).1

theorem popN (hr : r.Strict u) (k : Nat) :
    (r.popN u k).2.Strict u ∧ Emits r u (r.popN u k).1 (r.popN u k).2 := by
  induction k generalizing r with
  | zero => exact ⟨hr, .refl⟩
  | succ k ih =>
    match hp : r.pop u with
    | (none, r') =>
      obtain rfl := pop_eq_none hp
      simpa only [DownReorderer.popN, hp] using ⟨hr, Emits.refl⟩
    | (some c, r') =>
      obtain ⟨hr', he⟩ := hr.pop hp
      obtain ⟨hr'', he'⟩ := ih hr'
      simpa only [DownReorderer.popN, hp] using ⟨hr'', he.trans he'⟩

/-- After a drain the expected number is not stored. -/
theorem not_mem_drain (hr : r.Strict u) :
    (r.drain (.reordered u)).2.expected u ∉ (r.drain (.reordered u)).2.stored u := by
  have hs := (hr.popN (r.stored u).size).1.strict
  have hp := pop_popN (r := r) (u := u) _ le_rfl
  rw [pop_of_strict hs] at hp
  intro hm
  obtain ⟨c, hc⟩ := Option.isSome_iff_exists.1 (Std.ExtTreeMap.mem_iff_isSome_getElem?.1 hm)
  simp only [drain] at hc
  simp [hc] at hp

theorem setStore_insert (hr : r.Strict u) (chunk : DownstreamChunk) :
    (r.setStore u ((r.stored u).insert chunk.sequenceNumber chunk)).Strict u := by
  refine ⟨hr.enabled, hr.strict, hr.known, fun n c hn => ?_⟩
  simp only [stored_setStore, Std.ExtTreeMap.getElem?_insert, Std.compare_eq_iff_eq] at hn
  split at hn
  · rename_i hk; obtain rfl := Option.some.inj hn; exact hk
  · exact hr.keyed n c hn

theorem push (hr : r.Strict u) {chunk : DownstreamChunk} (hu : chunk.upstream.streamId = u)
    {out : List DownstreamChunk} (h : r.push chunk = (.ok out, r')) :
    r'.Strict u ∧ Emits r u out r' ∧ r'.expected u ∉ r'.stored u := by
  subst hu
  simp only [DownReorderer.push, iter, hr.enabled, ↓reduceIte, register_of_isSome hr.known] at h
  split at h
  · rename_i heq
    split at heq
    · cases h
    · cases heq
  · rename_i it r₁ heq
    split at heq
    · cases heq
    · obtain ⟨hit, rfl⟩ := Prod.mk.inj heq
      obtain rfl := Except.ok.inj hit
      obtain ⟨ho, rfl⟩ := Prod.mk.inj h
      obtain rfl := Except.ok.inj ho
      have hr₁ := hr.setStore_insert chunk
      exact ⟨(hr₁.popN _).1, ⟨(hr₁.popN _).2.seqs, (hr₁.popN _).2.next⟩, hr₁.not_mem_drain⟩

theorem feed (hr : r.Strict u) (hw : r.expected u ∉ r.stored u) {chunks out : List DownstreamChunk}
    (hu : ∀ c ∈ chunks, c.upstream.streamId = u) (h : r.feed chunks = some (out, r')) :
    r'.Strict u ∧ Emits r u out r' ∧ r'.expected u ∉ r'.stored u := by
  induction chunks generalizing r out with
  | nil =>
    obtain ⟨rfl, rfl⟩ := Prod.mk.inj (Option.some.inj h)
    exact ⟨hr, .refl, hw⟩
  | cons chunk chunks ih =>
    simp only [DownReorderer.feed] at h
    split at h
    · cases h
    · rename_i out₁ r₁ hp
      obtain ⟨⟨outs, r₂⟩, hf, heq⟩ := Option.map_eq_some_iff.1 h
      obtain ⟨rfl, rfl⟩ := Prod.mk.inj heq
      obtain ⟨hr₁, he, hw₁⟩ := hr.push (hu chunk (by simp)) hp
      obtain ⟨hr₂, he', hw₂⟩ := ih hr₁ hw₁ (fun c hc => hu c (by simp [hc])) hf
      exact ⟨hr₂, he.trans he', hw₂⟩

end Strict

/-- Feeding a sequence may start from a reorderer in which the first chunk's upstream is registered. -/
theorem feed_register (chunk : DownstreamChunk) (chunks : List DownstreamChunk) (he : r.enabled) :
    (r.register chunk.upstream.streamId chunk.sequenceNumber).feed (chunk :: chunks) =
      r.feed (chunk :: chunks) := by
  simp only [feed, push, iter_register chunk he]

theorem Strict.register (he : r.enabled) (hs : r.strict) (hn : r.next u = none) :
    (r.register u n).Strict u := by
  refine ⟨by simpa using he, by simpa using hs, next_register_isSome, fun k c hk => ?_⟩
  simp [stored_register_of_none hn] at hk

/-- A strict reorderer emits the numbers `f, f + 1, f + 2, …` from the first number `f` it was given,
each once and in this order, and as far as it can: the number to come next is not stored. -/
theorem strict_emits_consecutively (config : DownstreamConfig) (hq : config.qos = .reliable)
    (hr : config.reordering = .strict) (first : DownstreamChunk) (rest : List DownstreamChunk)
    (hu : ∀ c ∈ rest, c.upstream.streamId = first.upstream.streamId)
    {out : List DownstreamChunk} {r : DownReorderer}
    (h : (new config).feed (first :: rest) = some (out, r)) :
    out.map (·.sequenceNumber) = List.iterate (· + 1) first.sequenceNumber out.length ∧
      r.next first.upstream.streamId = some ((· + 1)^[out.length] first.sequenceNumber) ∧
      (· + 1)^[out.length] first.sequenceNumber ∉ r.stored first.upstream.streamId := by
  have he : (new config).enabled := by simp [new, hq, hr]
  have hs : (new config).strict := by simp [new, hr]
  have hn : (new config).next first.upstream.streamId = none := rfl
  rw [← feed_register first rest he] at h
  set r₀ := (new config).register first.upstream.streamId first.sequenceNumber with hr₀
  have hr₀s : r₀.Strict first.upstream.streamId := .register he hs hn
  have hf : r₀.expected first.upstream.streamId = first.sequenceNumber := expected_register_of_none hn
  have hw : r₀.expected first.upstream.streamId ∉ r₀.stored first.upstream.streamId := by
    rw [hr₀, stored_register_of_none hn]; simp
  obtain ⟨hst, hem, hw'⟩ := hr₀s.feed hw (by simpa using hu) h
  rw [hem.next, hf] at hw'
  refine ⟨by rw [hem.seqs, hf], ?_, hw'⟩
  obtain ⟨k, hk⟩ := Option.isSome_iff_exists.1 hst.known
  have hke : r.expected first.upstream.streamId = k := by simp [expected, hk]
  rw [hk, ← hke, hem.next, hf]

/-- Across the end of the number range, with a gap that is filled and a late repetition. -/
theorem strict_emits_consecutively_wrap :
    let config : DownstreamConfig := { qos := .reliable, reordering := .strict }
    let chunk (n : UInt32) : DownstreamChunk := ⟨n, [], ⟨"", ⟨List.replicate 16 0, by decide⟩, ""⟩⟩
    ∃ out r, (new config).feed [chunk 4294967295, chunk 1, chunk 0, chunk 1] = some (out, r) ∧
      out.map (·.sequenceNumber) = List.iterate (· + 1) 4294967295 out.length ∧
      r.next (chunk 0).upstream.streamId = some ((· + 1)^[out.length] 4294967295) ∧
      (· + 1)^[out.length] 4294967295 ∉ r.stored (chunk 0).upstream.streamId := by
  intro config chunk
  have hs : ((new config).feed
      [chunk 4294967295, chunk 1, chunk 0, chunk 1]).isSome := by decide +kernel
  obtain ⟨⟨out, r⟩, h⟩ := Option.isSome_iff_exists.1 hs
  exact ⟨out, r, h, strict_emits_consecutively config rfl rfl _ _ (by decide) h⟩

end DownReorderer
end Iscp
