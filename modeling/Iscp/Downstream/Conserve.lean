import Iscp.Downstream.Late
import Mathlib.Data.List.Nodup

/-!
# What becomes of the chunks that are accepted

In both modes, and whatever the upstreams: a chunk that `iter` accepts lies in the store of its upstream
until a pop emits it, so what was accepted is what was emitted and what is stored (`Held`). A push may
exceed the limit by one chunk, and the drain that follows takes it back below (`Bounded`).
-/

namespace Iscp
namespace DownReorderer

variable {r r' : DownReorderer} {u v : Uuid} {n : UInt32} {chunk : DownstreamChunk}
  {chunks out out' acc : List DownstreamChunk}

/-- Whether `iter` returns `Ok`. -/
def accepts (r : DownReorderer) (chunk : DownstreamChunk) : Bool := (r.iter chunk).1.isOk

/-- The chunks of a sequence of drained calls for which `iter` returns `Ok`. -/
def accepted (r : DownReorderer) : List DownstreamChunk → List DownstreamChunk
  | [] => []
  | chunk :: chunks =>
    (if r.accepts chunk then [chunk] else []) ++ accepted (r.push chunk).2 chunks

theorem accepted_append (pre post : List DownstreamChunk) :
    r.accepted (pre ++ post) = r.accepted pre ++ (r.after pre).accepted post := by
  induction pre generalizing r with
  | nil => rfl
  | cons chunk pre ih =>
    rw [List.cons_append, accepted, accepted, ih, List.append_assoc]
    rfl

theorem accepted_concat (pre : List DownstreamChunk) (chunk : DownstreamChunk) :
    r.accepted (pre ++ [chunk]) = r.accepted pre ++ if (r.after pre).accepts chunk then [chunk] else [] := by
  rw [accepted_append, accepted, accepted, List.append_nil]

theorem mem_of_mem_accepted (h : chunk ∈ r.accepted chunks) : chunk ∈ chunks := by
  induction chunks generalizing r with
  | nil => cases h
  | cons c chunks ih =>
    rcases List.mem_append.1 h with h | h
    · split at h
      · rw [List.mem_singleton.1 h]
        exact List.mem_cons_self
      · cases h
    · exact List.mem_cons_of_mem _ (ih h)

/-- The chunks of an upstream that wait, in the order of their numbers. -/
def waitingChunks (r : DownReorderer) (u : Uuid) : List DownstreamChunk :=
  (r.stored u).toList.map (·.2)

/-- No two chunks of one upstream have the same number. -/
def Distinct (chunks : List DownstreamChunk) : Prop :=
  chunks.Pairwise fun a b => a.upstream.streamId = b.upstream.streamId → a.sequenceNumber ≠ b.sequenceNumber

instance : Decidable (Distinct chunks) := inferInstanceAs (Decidable (List.Pairwise _ _))

/-! ### The two halves of a push -/

/-- The settings are the same. -/
structure SameConfig (r r' : DownReorderer) : Prop where
  enabled : r'.enabled = r.enabled
  strict : r'.strict = r.strict
  limit : r'.limit = r.limit

theorem SameConfig.refl : SameConfig r r := ⟨rfl, rfl, rfl⟩

theorem SameConfig.trans {r'' : DownReorderer} (h : SameConfig r r') (h' : SameConfig r' r'') :
    SameConfig r r'' :=
  ⟨h'.enabled.trans h.enabled, h'.strict.trans h.strict, h'.limit.trans h.limit⟩

/-- A call that is accepted puts the chunk at its number, and leaves everything else that is stored. -/
structure Stores (r : DownReorderer) (chunk : DownstreamChunk) (r' : DownReorderer) : Prop where
  keyed : r'.Keyed
  get : ∀ v n, (r'.stored v)[n]? =
    if v = chunk.upstream.streamId ∧ n = chunk.sequenceNumber then some chunk else (r.stored v)[n]?
  size : ∀ v, (r'.stored v).size ≤ (r.stored v).size +
    if v = chunk.upstream.streamId then 1 else 0
  config : SameConfig r r'
  room : r.strict → (r.stored chunk.upstream.streamId).size < r.limit ∨
    r'.expected chunk.upstream.streamId = chunk.sequenceNumber

theorem Keyed.stores {it : DownReordererIter} (h : r.Keyed) (he : r.enabled)
    (hi : r.iter chunk = (.ok it, r')) : it = .reordered chunk.upstream.streamId ∧ r.Stores chunk r' := by
  have keyed := (h.iter hi).keyed
  simp only [DownReorderer.iter, he, ↓reduceIte] at hi
  split at hi
  · cases hi
  · rename_i hroom
    obtain ⟨hit, rfl⟩ := Prod.mk.inj hi
    obtain rfl := Except.ok.inj hit
    refine ⟨rfl, keyed, fun v n => ?_, fun v => ?_, ⟨enabled_register, strict_register, limit_register⟩,
      fun hs => ?_⟩
    · by_cases hv : v = chunk.upstream.streamId
      · subst hv
        rw [stored_setStore, h.stored_register, Std.ExtTreeMap.getElem?_insert]
        simp only [Std.compare_eq_iff_eq, true_and, eq_comm (a := n)]
      · rw [stored_setStore_of_ne hv, h.stored_register, if_neg fun he => hv he.1]
    · by_cases hv : v = chunk.upstream.streamId
      · subst hv
        rw [stored_setStore, h.stored_register, if_pos rfl]
        exact Std.ExtTreeMap.size_insert_le
      · rw [stored_setStore_of_ne hv, h.stored_register, if_neg hv]
        exact Nat.le_refl _
    · rw [h.stored_register, strict_register, limit_register] at hroom
      by_contra hno
      rw [not_or, Nat.not_lt] at hno
      exact hroom ⟨hs, hno⟩

/-- A pop takes the chunk away from its number, and leaves everything else that is stored. -/
structure Emitted (r : DownReorderer) (u : Uuid) (chunk : DownstreamChunk) (r' : DownReorderer) : Prop where
  keyed : r'.Keyed
  upstream : chunk.upstream.streamId = u
  mem : (r.stored u)[chunk.sequenceNumber]? = some chunk
  get : ∀ v n, (r'.stored v)[n]? =
    if v = u ∧ n = chunk.sequenceNumber then none else (r.stored v)[n]?
  other : ∀ v, v ≠ u → r'.stored v = r.stored v
  config : SameConfig r r'

theorem Keyed.emitted (h : r.Keyed) (hp : r.pop u = (some chunk, r')) : r.Emitted u chunk r' := by
  have hi : r.iterNext (.reordered u) = (some chunk, .reordered u, r') := by
    rw [DownReorderer.iterNext, hp]
  have keyed := (h.iterNext hi).keyed
  obtain ⟨k, m, hk, rfl⟩ := pop_eq_some hp
  obtain ⟨rfl, rfl⟩ := h.keyed u k chunk hk
  refine ⟨keyed, rfl, hk, fun v n => ?_, fun v hv => ?_, ⟨rfl, rfl, rfl⟩⟩
  · rw [stored_setNext]
    by_cases hv : v = chunk.upstream.streamId
    · subst hv
      rw [stored_setStore, Std.ExtTreeMap.getElem?_erase]
      simp only [Std.compare_eq_iff_eq, true_and, eq_comm (a := n)]
    · rw [stored_setStore_of_ne hv, if_neg fun he => hv he.1]
  · rw [stored_setNext, stored_setStore_of_ne hv]

theorem Keyed.popN (h : r.Keyed) (k : Nat) :
    (r.popN u k).2.Keyed ∧ SameConfig r (r.popN u k).2 ∧
    (∀ v, v ≠ u → (r.popN u k).2.stored v = r.stored v) ∧
    ((r.popN u k).2.stored u).size + (r.popN u k).1.length = (r.stored u).size := by
  induction k generalizing r with
  | zero => exact ⟨h, .refl, fun _ _ => rfl, rfl⟩
  | succ k ih =>
    match hp : r.pop u with
    | (none, r') =>
      obtain rfl := pop_eq_none hp
      simpa [DownReorderer.popN, hp] using ⟨h, SameConfig.refl⟩
    | (some c, r') =>
      have e := h.emitted hp
      obtain ⟨hk, hc, ho, hz⟩ := ih e.keyed
      have hlt := size_pop_lt hp
      simp only [DownReorderer.popN, hp]
      refine ⟨hk, e.config.trans hc, fun v hv => (ho v hv).trans (e.other v hv), ?_⟩
      rw [List.length_cons]
      omega

/-- A push is refused and does nothing, or stores the chunk and drains its upstream. -/
theorem Keyed.push_cases (h : r.Keyed) (he : r.enabled) (chunk : DownstreamChunk) :
    (r.accepts chunk = false ∧ (r.push chunk).2 = r ∧ r.emit chunk = []) ∨
      ∃ r', r.accepts chunk = true ∧ r.Stores chunk r' ∧
        let u := chunk.upstream.streamId
        let k := (r'.stored u).size
        (r.push chunk).2 = (r'.popN u k).2 ∧ r.emit chunk = (r'.popN u k).1 := by
  match hi : r.iter chunk with
  | (.error e, r') =>
    left
    have hr : r' = r := by
      simp only [DownReorderer.iter, he, ↓reduceIte] at hi
      split at hi
      · rename_i hfull
        obtain ⟨-, rfl⟩ := Prod.mk.inj hi
        -- The first chunk of an upstream has the expected number.
        have hn : r.next chunk.upstream.streamId ≠ none := fun hn =>
          hfull.2.2 (expected_register_of_none hn)
        exact register_of_isSome (Option.isSome_iff_ne_none.2 hn)
      · cases hi
    refine ⟨by simp [accepts, hi, Except.isOk, Except.toBool], ?_, ?_⟩
    · simp [push, hi, hr]
    · simp [emit, push, hi, Except.toOption]
  | (.ok it, r') =>
    obtain ⟨rfl, hs⟩ := h.stores he hi
    right
    refine ⟨r', by simp [accepts, hi, Except.isOk, Except.toBool], hs, ?_, ?_⟩
    · simp [push, hi, drain]
    · simp [emit, push, hi, drain, Except.toOption]

/-! ### What is emitted and what is stored -/

/-- What was accepted is what was emitted and what is stored, and nothing is both. -/
structure Held (r : DownReorderer) (out acc : List DownstreamChunk) : Prop where
  mem : ∀ c, c ∈ acc ↔ c ∈ out ∨ (r.stored c.upstream.streamId)[c.sequenceNumber]? = some c
  gone : ∀ c ∈ out, (r.stored c.upstream.streamId)[c.sequenceNumber]? = none
  nodup : out.Nodup

namespace Held

theorem pop (h : Held r out acc) (e : r.Emitted u chunk r') : Held r' (out ++ [chunk]) acc := by
  obtain rfl := e.upstream
  refine ⟨fun c => ?_, fun c hc => ?_, ?_⟩
  · rw [h.mem, List.mem_append, List.mem_singleton, e.get, or_assoc]
    by_cases hc : c.upstream.streamId = chunk.upstream.streamId ∧ c.sequenceNumber = chunk.sequenceNumber
    · rw [if_pos hc, hc.1, hc.2, e.mem]
      simp [eq_comm]
    · have hne : c ≠ chunk := fun he => hc (by rw [he]; exact ⟨rfl, rfl⟩)
      simp [if_neg hc, hne]
  · rw [e.get]
    split
    · rfl
    · rename_i hne
      rcases List.mem_append.1 hc with hc | hc
      · exact h.gone c hc
      · rw [List.mem_singleton.1 hc] at hne
        exact absurd ⟨rfl, rfl⟩ hne
  · rw [List.nodup_append_comm]
    refine List.nodup_cons.2 ⟨fun hm => ?_, h.nodup⟩
    have hgone := h.gone chunk hm
    rw [e.mem] at hgone
    cases hgone

theorem popN (h : Held r out acc) (hk : r.Keyed) (k : Nat) :
    Held (r.popN u k).2 (out ++ (r.popN u k).1) acc := by
  induction k generalizing r out with
  | zero => simpa [DownReorderer.popN] using h
  | succ k ih =>
    rcases hp : r.pop u with ⟨_ | c, r'⟩
    · obtain rfl := pop_eq_none hp
      simpa [DownReorderer.popN, hp] using h
    · have e := hk.emitted hp
      simpa [DownReorderer.popN, hp] using ih (h.pop e) e.keyed

theorem stores (h : Held r out acc) (hs : r.Stores chunk r')
    (hnew : ∀ c ∈ acc, c.upstream.streamId = chunk.upstream.streamId →
      c.sequenceNumber ≠ chunk.sequenceNumber) : Held r' out (acc ++ [chunk]) := by
  have hout : ∀ c ∈ out, ¬ (c.upstream.streamId = chunk.upstream.streamId ∧
      c.sequenceNumber = chunk.sequenceNumber) :=
    fun c hc he => hnew c ((h.mem c).2 (.inl hc)) he.1 he.2
  refine ⟨fun c => ?_, fun c hc => ?_, h.nodup⟩
  · rw [List.mem_append, List.mem_singleton, h.mem, hs.get]
    by_cases hc : c.upstream.streamId = chunk.upstream.streamId ∧ c.sequenceNumber = chunk.sequenceNumber
    · have hno : c ∉ out := fun hm => hout c hm hc
      have hst : (r.stored c.upstream.streamId)[c.sequenceNumber]? ≠ some c := fun hst =>
        hnew c ((h.mem c).2 (.inr hst)) hc.1 hc.2
      simp only [if_pos hc, hno, hst, or_self, false_or, Option.some.injEq]
      exact eq_comm
    · have hne : c ≠ chunk := fun he => hc (by rw [he]; exact ⟨rfl, rfl⟩)
      simp [if_neg hc, hne]
  · rw [hs.get, if_neg (hout c hc)]
    exact h.gone c hc

theorem push (h : Held r out acc) (hk : r.Keyed) (he : r.enabled)
    (hnew : ∀ c ∈ acc, c.upstream.streamId = chunk.upstream.streamId →
      c.sequenceNumber ≠ chunk.sequenceNumber) :
    Held (r.push chunk).2 (out ++ r.emit chunk) (acc ++ if r.accepts chunk then [chunk] else []) := by
  rcases hk.push_cases he chunk with ⟨ha, hr, hem⟩ | ⟨r', ha, hs, hr, hem⟩
  · simpa [ha, hr, hem] using h
  · rw [ha, hr, hem]
    exact (h.stores hs hnew).popN hs.keyed _

end Held

theorem Keyed.mem_waitingChunks (h : r.Keyed) : chunk ∈ r.waitingChunks u ↔
    chunk.upstream.streamId = u ∧ (r.stored u)[chunk.sequenceNumber]? = some chunk := by
  simp only [waitingChunks, List.mem_map, Prod.exists, exists_eq_right,
    Std.ExtTreeMap.mem_toList_iff_getElem?_eq_some]
  constructor
  · rintro ⟨n, hn⟩
    obtain ⟨hu, rfl⟩ := h.keyed u n chunk hn
    exact ⟨hu, hn⟩
  · rintro ⟨-, hn⟩
    exact ⟨_, hn⟩

theorem Keyed.nodup_waitingChunks (h : r.Keyed) : (r.waitingChunks u).Nodup := by
  rw [waitingChunks, List.Nodup, List.pairwise_map]
  refine (Std.ExtTreeMap.ordered_keys_toList (t := r.stored u)).imp_of_mem fun {a b} ha hb hlt he => ?_
  have hka := (h.keyed u _ _ (Std.ExtTreeMap.mem_toList_iff_getElem?_eq_some.1 ha)).2
  have hkb := (h.keyed u _ _ (Std.ExtTreeMap.mem_toList_iff_getElem?_eq_some.1 hb)).2
  rw [he, hkb] at hka
  rw [hka, Std.compare_eq_lt] at hlt
  exact absurd hlt (UInt32.lt_irrefl _)

theorem Held.perm (h : Held r out acc) (hk : r.Keyed) (hn : acc.Nodup) (u : Uuid) :
    (out.filter (·.upstream.streamId = u) ++ r.waitingChunks u).Perm
      (acc.filter (·.upstream.streamId = u)) := by
  refine (List.perm_ext_iff_of_nodup ?_ (hn.filter _)).2 fun c => ?_
  · refine List.nodup_append.2 ⟨h.nodup.filter _, hk.nodup_waitingChunks, ?_⟩
    rintro a ha b hb rfl
    obtain ⟨hu, hst⟩ := hk.mem_waitingChunks.1 hb
    have hgone := h.gone a (List.mem_filter.1 ha).1
    rw [hu, hst] at hgone
    cases hgone
  · rw [List.mem_append, List.mem_filter, List.mem_filter, hk.mem_waitingChunks, h.mem]
    simp only [decide_eq_true_eq]
    constructor
    · rintro (⟨ho, hu⟩ | ⟨hu, hst⟩)
      · exact ⟨.inl ho, hu⟩
      · exact ⟨.inr (by rwa [hu]), hu⟩
    · rintro ⟨ho | hst, hu⟩
      · exact .inl ⟨ho, hu⟩
      · exact .inr ⟨hu, by rwa [hu] at hst⟩

/-! ### The limit -/

/-- How many chunks of one upstream may lie in the store after a drain. -/
def Bounded (r : DownReorderer) : Prop :=
  ∀ u, if r.strict then (r.stored u).size ≤ r.limit else (r.stored u).size < max r.limit 1

theorem size_lt_of_pop_none (hs : ¬ r.strict) (hp : (r.pop u).1 = none) :
    (r.stored u).size < max r.limit 1 := by
  by_contra hno
  rw [Nat.not_lt, Nat.max_le] at hno
  have hne : r.stored u ≠ ∅ := fun h0 => by
    rw [h0, Std.ExtTreeMap.size_empty] at hno
    omega
  obtain ⟨n, hn⟩ := Option.isSome_iff_exists.1 (Std.ExtTreeMap.isSome_minKey?_iff_ne_empty.2 hne)
  have hmem := (Std.ExtTreeMap.minKey?_eq_some_iff_mem_and_forall.1 hn).1
  obtain ⟨c, hc⟩ := Option.isSome_iff_exists.1 (Std.ExtTreeMap.mem_iff_isSome_getElem?.1 hmem)
  simp [DownReorderer.pop, hs, hno.1, BTreeMap.popFirst, hn, hc] at hp

theorem Bounded.push (h : r.Bounded) (hk : r.Keyed) (he : r.enabled) : (r.push chunk).2.Bounded := by
  rcases hk.push_cases he chunk with ⟨-, hr, -⟩ | ⟨r', -, hs, hr, -⟩
  · rwa [hr]
  · have hpop := pop_popN (r := r') (u := chunk.upstream.streamId) _ le_rfl
    obtain ⟨-, hc, ho, hz⟩ := hs.keyed.popN (u := chunk.upstream.streamId)
      (r'.stored chunk.upstream.streamId).size
    have hc := hs.config.trans hc
    intro u
    have hu := h u
    have hsize := hs.size u
    rw [hr, hc.strict, hc.limit]
    by_cases hne : u = chunk.upstream.streamId
    · subst hne
      rw [if_pos rfl] at hsize
      by_cases hstrict : r.strict
      · rw [if_pos hstrict] at hu ⊢
        rcases hs.room hstrict with hroom | hroom
        · omega
        · -- The chunk has the expected number, so that it is the first one popped.
          have hmem := hs.get chunk.upstream.streamId chunk.sequenceNumber
          rw [if_pos ⟨rfl, rfl⟩] at hmem
          have hfirst : (r'.popN chunk.upstream.streamId
              (r'.stored chunk.upstream.streamId).size).1.length ≠ 0 := by
            have hpos : (r'.stored chunk.upstream.streamId).size ≠ 0 := fun h0 => by
              rw [← Std.ExtTreeMap.eq_empty_iff_size_eq_zero] at h0
              simp [h0] at hmem
            obtain ⟨k, hk⟩ := Nat.exists_eq_succ_of_ne_zero hpos
            rw [hk, DownReorderer.popN, pop_of_strict (by rw [hs.config.strict, hstrict]), hroom, hmem]
            simp
          omega
      · rw [if_neg hstrict]
        have hlt := size_lt_of_pop_none (by rwa [hc.strict]) hpop
        rwa [hc.limit] at hlt
    · rw [if_neg hne, Nat.add_zero] at hsize
      rw [ho u hne]
      by_cases hstrict : r.strict
      · rw [if_pos hstrict] at hu ⊢
        exact Nat.le_trans hsize hu
      · rw [if_neg hstrict] at hu ⊢
        exact Nat.lt_of_le_of_lt hsize hu

/-! ### A whole sequence of chunks -/

structure Conserved (config : DownstreamConfig) (chunks : List DownstreamChunk) : Prop where
  /-- For each upstream, what was emitted and what is stored is what was accepted. -/
  kept : ∀ u, (((new config).emitted chunks).filter (·.upstream.streamId = u) ++
      ((new config).after chunks).waitingChunks u).Perm
    (((new config).accepted chunks).filter (·.upstream.streamId = u))
  once : ((new config).accepted chunks).Nodup
  bounded : ∀ u, if config.reordering = .strict
    then (((new config).after chunks).stored u).size ≤ config.reorderingChunks
    else (((new config).after chunks).stored u).size < max config.reorderingChunks 1
  /-- A call that returns `Err` leaves everything as it was. -/
  refused : ∀ chunk, ((new config).after chunks).accepts chunk = false →
    (((new config).after chunks).push chunk).2 = (new config).after chunks

theorem Distinct.accepted (h : Distinct chunks) : Distinct (r.accepted chunks) := by
  induction chunks generalizing r with
  | nil => exact .nil
  | cons chunk chunks ih =>
    obtain ⟨hne, h⟩ := List.pairwise_cons.1 h
    rw [DownReorderer.accepted]
    split
    · exact List.pairwise_cons.2 ⟨fun c hc => hne c (mem_of_mem_accepted hc), ih h⟩
    · exact ih h

theorem Distinct.nodup (h : Distinct chunks) : chunks.Nodup :=
  h.imp fun {a b} hne hab => hne (by rw [hab]) (by rw [hab])

/-- What holds after any sequence of drained calls. -/
structure Steady (config : DownstreamConfig) (r : DownReorderer) (out acc : List DownstreamChunk) : Prop where
  keyed : r.Keyed
  held : Held r out acc
  bounded : r.Bounded
  config : SameConfig (new config) r

theorem Steady.push {config : DownstreamConfig} (h : Steady config r out acc) (he : (new config).enabled)
    (hnew : ∀ c ∈ acc, c.upstream.streamId = chunk.upstream.streamId →
      c.sequenceNumber ≠ chunk.sequenceNumber) :
    Steady config (r.push chunk).2 (out ++ r.emit chunk)
      (acc ++ if r.accepts chunk then [chunk] else []) := by
  have he : r.enabled := h.config.enabled.trans he
  have hk : (r.push chunk).2.Keyed ∧ SameConfig r (r.push chunk).2 := by
    rcases h.keyed.push_cases he chunk with ⟨-, hr, -⟩ | ⟨r', -, hs, hr, -⟩
    · rw [hr]
      exact ⟨h.keyed, .refl⟩
    · obtain ⟨hk, hc, -⟩ := hs.keyed.popN (u := chunk.upstream.streamId)
        (r'.stored chunk.upstream.streamId).size
      rw [hr]
      exact ⟨hk, hs.config.trans hc⟩
  exact ⟨hk.1, h.held.push h.keyed he hnew, h.bounded.push h.keyed he, h.config.trans hk.2⟩

theorem steady (config : DownstreamConfig) (he : (new config).enabled) (hd : Distinct chunks) :
    Steady config ((new config).after chunks) ((new config).emitted chunks)
      ((new config).accepted chunks) := by
  induction chunks using List.reverseRecOn with
  | nil =>
    refine ⟨keyed_new config, ⟨fun c => by simp [accepted, emitted, stored, new], nofun, .nil⟩,
      fun u => ?_, .refl⟩
    have h0 : ((new config).stored u).size = 0 := rfl
    rw [after_nil, h0]
    split <;> omega
  | append_singleton chunks chunk ih =>
    obtain ⟨hd, -, hnew⟩ := List.pairwise_append.1 hd
    rw [after_concat, emitted_concat, accepted_concat]
    exact (ih hd).push he fun c hc => hnew c (mem_of_mem_accepted hc) chunk (List.mem_singleton_self _)

/-- With either mode, any limit and any upstreams, as long as no number comes twice: what is accepted is
emitted or stored, each chunk once; after each drain the limit is kept, and a refusal changes nothing. -/
theorem chunks_conserved (config : DownstreamConfig) (hq : config.qos = .reliable)
    (hr : config.reordering ≠ .none) (chunks : List DownstreamChunk) (hd : Distinct chunks) :
    Conserved config chunks := by
  have he : (new config).enabled := by simp [new, hq, hr]
  have h := steady config he hd
  have hn : ((new config).accepted chunks).Nodup := hd.accepted.nodup
  refine ⟨h.held.perm h.keyed hn, hn, fun u => ?_, fun chunk ha => ?_⟩
  · have hb := h.bounded u
    rw [h.config.strict, h.config.limit] at hb
    simpa [new] using hb
  · rcases h.keyed.push_cases (h.config.enabled.trans he) chunk with ⟨-, hr, -⟩ | ⟨_, ha', -⟩
    · exact hr
    · rw [ha] at ha'
      cases ha'

/-- Two upstreams; the store of the first is full when its third chunk comes, which is refused. -/
theorem chunks_conserved_refused :
    let config : DownstreamConfig := { qos := .reliable, reordering := .strict, reorderingChunks := 1 }
    let chunk (u : UInt8) (n : UInt32) : DownstreamChunk :=
      ⟨n, [], ⟨"", ⟨List.replicate 16 u, List.length_replicate⟩, ""⟩⟩
    let chunks := [chunk 1 5, chunk 1 7, chunk 2 0, chunk 1 8, chunk 2 1, chunk 1 6]
    (new config).accepted chunks ≠ chunks ∧ Conserved config chunks := by
  intro config chunk chunks
  exact ⟨by decide +kernel, chunks_conserved config rfl nofun chunks (by decide +kernel)⟩

end DownReorderer
end Iscp
