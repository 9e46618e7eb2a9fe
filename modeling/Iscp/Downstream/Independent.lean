import Iscp.Downstream.Conserve

/-!
# The upstreams of one `DownReorderer`

The maps of a reorderer are read and written at the upstream of the call only. So two reorderers that
agree at `u` (`Agree`) answer every call with a chunk of `u` alike and agree afterwards, and a call with
a chunk of another upstream keeps the agreement. A reorderer shared by many upstreams therefore emits
for each of them what one of its own would have emitted.
-/

namespace Iscp
namespace DownReorderer

variable {r r' r₀ : DownReorderer} {u v : Uuid} {n : UInt32} {chunk : DownstreamChunk}
  {chunks out : List DownstreamChunk}

/-- The same settings, and the same entries at `u`. -/
structure Agree (r r₀ : DownReorderer) (u : Uuid) : Prop where
  config : SameConfig r r₀
  next : r₀.next u = r.next u
  store : r₀.store u = r.store u

/-- The iterator of a call pops the upstream of the chunk, or none. -/
theorem iter_reordered {it : DownReordererIter} (hi : r.iter chunk = (.ok it, r'))
    (hv : it = .reordered v) : v = chunk.upstream.streamId := by
  subst hv
  simp only [iter] at hi
  split at hi
  · split at hi
    · cases hi
    · cases hi
      rfl
  · cases hi

namespace Agree

theorem refl : Agree r r u := ⟨.refl, rfl, rfl⟩

theorem symm (h : Agree r r₀ u) : Agree r₀ r u :=
  ⟨⟨h.config.enabled.symm, h.config.strict.symm, h.config.limit.symm⟩, h.next.symm, h.store.symm⟩

theorem trans (h : Agree r r' u) (h' : Agree r' r₀ u) : Agree r r₀ u :=
  ⟨h.config.trans h'.config, h'.next.trans h.next, h'.store.trans h.store⟩

theorem stored (h : Agree r r₀ u) : r₀.stored u = r.stored u := by
  rw [DownReorderer.stored, DownReorderer.stored, h.store]

theorem expected (h : Agree r r₀ u) : r₀.expected u = r.expected u := by
  rw [DownReorderer.expected, DownReorderer.expected, h.next]

theorem setStore (h : Agree r r₀ u) (m : BTreeMap DownstreamChunk) :
    Agree (r.setStore u m) (r₀.setStore u m) u :=
  ⟨⟨h.config.enabled, h.config.strict, h.config.limit⟩, h.next, by simp [DownReorderer.setStore]⟩

theorem setNext (h : Agree r r₀ u) (n : UInt32) : Agree (r.setNext u n) (r₀.setNext u n) u :=
  ⟨⟨h.config.enabled, h.config.strict, h.config.limit⟩, by simp, h.store⟩

theorem register (h : Agree r r₀ u) (n : UInt32) : Agree (r.register u n) (r₀.register u n) u := by
  unfold DownReorderer.register
  rw [h.next]
  split
  · exact h
  · exact ⟨⟨h.config.enabled, h.config.strict, h.config.limit⟩, by simp, by simp⟩

/-! ### A call with a chunk of the upstream -/

theorem iter (h : Agree r r₀ u) (hu : chunk.upstream.streamId = u) :
    (r₀.iter chunk).1 = (r.iter chunk).1 ∧ Agree (r.iter chunk).2 (r₀.iter chunk).2 u := by
  subst hu
  have hr := h.register chunk.sequenceNumber
  simp only [DownReorderer.iter, h.config.enabled, hr.config.strict, hr.config.limit, hr.stored, hr.expected]
  split
  · split
    · exact ⟨rfl, hr⟩
    · exact ⟨rfl, hr.setStore _⟩
  · exact ⟨rfl, h⟩

theorem pop (h : Agree r r₀ u) : (r₀.pop u).1 = (r.pop u).1 ∧ Agree (r.pop u).2 (r₀.pop u).2 u := by
  simp only [DownReorderer.pop, h.config.strict, h.config.limit, h.stored, h.expected]
  split
  · split
    · exact ⟨rfl, (h.setStore _).setNext _⟩
    · exact ⟨rfl, h⟩
  · split
    · exact ⟨rfl, (h.setStore _).setNext _⟩
    · exact ⟨rfl, h⟩

theorem popN (h : Agree r r₀ u) (k : Nat) :
    (r₀.popN u k).1 = (r.popN u k).1 ∧ Agree (r.popN u k).2 (r₀.popN u k).2 u := by
  induction k generalizing r r₀ with
  | zero => exact ⟨rfl, h⟩
  | succ k ih =>
    obtain ⟨hc, hr⟩ := h.pop
    rcases hp : r.pop u with ⟨c, r'⟩
    rcases hp₀ : r₀.pop u with ⟨c₀, r₀'⟩
    rw [hp, hp₀] at hc hr
    dsimp only at hc
    subst hc
    rcases c₀ with _ | c
    · simp only [DownReorderer.popN, hp, hp₀]
      exact ⟨trivial, hr⟩
    · obtain ⟨hout, hr'⟩ := ih hr
      simp only [DownReorderer.popN, hp, hp₀, hout]
      exact ⟨trivial, hr'⟩

theorem drain (h : Agree r r₀ u) {it : DownReordererIter} (hit : ∀ v, it = .reordered v → v = u) :
    (r₀.drain it).1 = (r.drain it).1 ∧ Agree (r.drain it).2 (r₀.drain it).2 u := by
  cases it with
  | notReordered c => exact ⟨rfl, h⟩
  | reordered v =>
    obtain rfl := hit v rfl
    rw [DownReorderer.drain, DownReorderer.drain, h.stored]
    exact h.popN _

theorem push (h : Agree r r₀ u) (hu : chunk.upstream.streamId = u) :
    (r₀.push chunk).1 = (r.push chunk).1 ∧ Agree (r.push chunk).2 (r₀.push chunk).2 u := by
  obtain ⟨hres, hr⟩ := h.iter hu
  rcases hi : r.iter chunk with ⟨res, r'⟩
  rcases hi₀ : r₀.iter chunk with ⟨res₀, r₀'⟩
  rw [hi, hi₀] at hres hr
  dsimp only at hres
  subst hres
  rcases res₀ with e | it
  · simp only [DownReorderer.push, hi, hi₀]
    exact ⟨trivial, hr⟩
  · have hit : ∀ v, it = .reordered v → v = u := fun v hv => (iter_reordered hi hv).trans hu
    obtain ⟨hout, hr'⟩ := hr.drain hit
    simp only [DownReorderer.push, hi, hi₀, hout]
    exact ⟨trivial, hr'⟩

/-! ### A call with a chunk of another upstream -/

theorem of_setStore (hv : v ≠ u) (m : BTreeMap DownstreamChunk) : Agree r (r.setStore v m) u :=
  ⟨⟨rfl, rfl, rfl⟩, rfl, by simp [DownReorderer.setStore, Function.update_of_ne hv.symm]⟩

theorem of_setNext (hv : v ≠ u) (n : UInt32) : Agree r (r.setNext v n) u :=
  ⟨⟨rfl, rfl, rfl⟩, by simp [DownReorderer.setNext, Function.update_of_ne hv.symm], rfl⟩

theorem of_register (hv : v ≠ u) (n : UInt32) : Agree r (r.register v n) u := by
  unfold DownReorderer.register
  split
  · exact .refl
  · exact ⟨⟨rfl, rfl, rfl⟩, by simp [Function.update_of_ne hv.symm], by simp [Function.update_of_ne hv.symm]⟩

theorem of_iter (hv : chunk.upstream.streamId ≠ u) : Agree r (r.iter chunk).2 u := by
  have hr := of_register (r := r) hv chunk.sequenceNumber
  simp only [DownReorderer.iter]
  split
  · split
    · exact hr
    · exact hr.trans (of_setStore hv _)
  · exact .refl

theorem of_pop (hv : v ≠ u) : Agree r (r.pop v).2 u := by
  rcases hp : r.pop v with ⟨_ | c, r'⟩
  · rw [pop_eq_none hp]
    exact .refl
  · obtain ⟨k, n, -, rfl⟩ := pop_eq_some hp
    exact (of_setStore hv _).trans (of_setNext hv n)

theorem of_popN (hv : v ≠ u) (k : Nat) : Agree r (r.popN v k).2 u := by
  induction k generalizing r with
  | zero => exact .refl
  | succ k ih =>
    have hr := of_pop (r := r) hv
    rcases hp : r.pop v with ⟨_ | c, r'⟩
    · simpa only [DownReorderer.popN, hp] using hr
    · rw [hp] at hr
      simpa only [DownReorderer.popN, hp] using hr.trans ih

theorem of_push (hv : chunk.upstream.streamId ≠ u) : Agree r (r.push chunk).2 u := by
  have hr := of_iter (r := r) hv
  rcases hi : r.iter chunk with ⟨e | it, r'⟩
  · simpa only [DownReorderer.push, hi] using hr
  · rw [hi] at hr
    simp only [DownReorderer.push, hi]
    cases it with
    | notReordered c => exact hr
    | reordered v =>
      obtain rfl := iter_reordered hi rfl
      exact hr.trans (of_popN hv _)

end Agree

/-! ### What is emitted -/

theorem Keyed.popN_upstream (h : r.Keyed) (k : Nat) : ∀ c ∈ (r.popN u k).1, c.upstream.streamId = u := by
  induction k generalizing r with
  | zero =>
    intro c hc
    cases hc
  | succ k ih =>
    intro c hc
    rcases hp : r.pop u with ⟨_ | c', r'⟩
    · simp [DownReorderer.popN, hp] at hc
    · have he := h.emitted hp
      simp only [DownReorderer.popN, hp] at hc
      rcases List.mem_cons.1 hc with rfl | hc
      · exact he.upstream
      · exact ih he.keyed c hc

theorem Keyed.push_upstream (h : r.Keyed) (hp : r.push chunk = (.ok out, r')) :
    r'.Keyed ∧ ∀ c ∈ out, c.upstream.streamId = chunk.upstream.streamId := by
  rcases hi : r.iter chunk with ⟨e | it, r₁⟩
  · simp [DownReorderer.push, hi] at hp
  · simp only [DownReorderer.push, hi, Prod.mk.injEq, Except.ok.injEq] at hp
    obtain ⟨rfl, rfl⟩ := hp
    have hit := h.iter hi
    rcases hit.it with rfl | ⟨rfl, -⟩
    · refine ⟨hit.keyed, fun c hc => ?_⟩
      rw [drain, Option.toList_some, List.mem_singleton] at hc
      rw [hc]
    · exact ⟨(hit.keyed.popN _).1, hit.keyed.popN_upstream _⟩

/-- The chunks of one upstream. -/
def ofUpstream (u : Uuid) (chunks : List DownstreamChunk) : List DownstreamChunk :=
  chunks.filter (·.upstream.streamId = u)

theorem ofUpstream_cons (hu : chunk.upstream.streamId = u) :
    ofUpstream u (chunk :: chunks) = chunk :: ofUpstream u chunks :=
  List.filter_cons_of_pos (by simpa using hu)

theorem ofUpstream_cons_of_ne (hu : chunk.upstream.streamId ≠ u) :
    ofUpstream u (chunk :: chunks) = ofUpstream u chunks :=
  List.filter_cons_of_neg (by simpa using hu)

theorem ofUpstream_append (out out' : List DownstreamChunk) :
    ofUpstream u (out ++ out') = ofUpstream u out ++ ofUpstream u out' := List.filter_append ..

theorem ofUpstream_self (h : ∀ c ∈ out, c.upstream.streamId = u) : ofUpstream u out = out :=
  List.filter_eq_self.2 (by simpa using h)

theorem ofUpstream_other (h : ∀ c ∈ out, c.upstream.streamId = v) (hv : v ≠ u) : ofUpstream u out = [] :=
  List.filter_eq_nil_iff.2 fun c hc => by simpa using fun he => hv ((h c hc).symm.trans he)

theorem Agree.feed (ha : Agree r r₀ u) (hk : r.Keyed) (h : r.feed chunks = some (out, r')) :
    ∃ r₀', r₀.feed (ofUpstream u chunks) = some (ofUpstream u out, r₀') ∧ Agree r' r₀' u := by
  induction chunks generalizing r r₀ out with
  | nil =>
    obtain ⟨rfl, rfl⟩ := Prod.mk.inj (Option.some.inj h)
    exact ⟨r₀, rfl, ha⟩
  | cons chunk chunks ih =>
    rcases hp : r.push chunk with ⟨e | out₁, r₁⟩
    · simp [DownReorderer.feed, hp] at h
    · simp only [DownReorderer.feed, hp] at h
      obtain ⟨⟨outs, r₂⟩, hf, heq⟩ := Option.map_eq_some_iff.1 h
      obtain ⟨rfl, rfl⟩ := Prod.mk.inj heq
      obtain ⟨hk₁, hout⟩ := hk.push_upstream hp
      rw [ofUpstream_append]
      by_cases hu : chunk.upstream.streamId = u
      · obtain ⟨hres, ha₁⟩ := ha.push hu
        rcases hp₀ : r₀.push chunk with ⟨res, r₀₁⟩
        rw [hp, hp₀] at hres ha₁
        dsimp only at hres
        subst hres
        obtain ⟨r₀', hf₀, ha'⟩ := ih ha₁ hk₁ hf
        refine ⟨r₀', ?_, ha'⟩
        rw [ofUpstream_cons hu, ofUpstream_self fun c hc => (hout c hc).trans hu]
        simp [DownReorderer.feed, hp₀, hf₀]
      · have ha₁ : Agree r r₁ u := by
          have := Agree.of_push (r := r) hu
          rwa [hp] at this
        obtain ⟨r₀', hf₀, ha'⟩ := ih (ha₁.symm.trans ha) hk₁ hf
        refine ⟨r₀', ?_, ha'⟩
        rw [ofUpstream_cons_of_ne hu, ofUpstream_other hout hu, List.nil_append, hf₀]

/-- A reorderer that many upstreams share emits for each of them what a reorderer with the same
configuration emits that is given the chunks of that upstream alone, and what waits is the same. -/
theorem feed_emits_as_alone (config : DownstreamConfig) {chunks out : List DownstreamChunk}
    {r : DownReorderer} (h : (new config).feed chunks = some (out, r)) (u : Uuid) :
    ∃ r₀, (new config).feed (ofUpstream u chunks) = some (ofUpstream u out, r₀) ∧
      r₀.next u = r.next u ∧ r₀.stored u = r.stored u := by
  obtain ⟨r₀, hf, ha⟩ := Agree.refl.feed (keyed_new config) h
  exact ⟨r₀, hf, ha.next, ha.stored⟩

/-- Two upstreams in turn, the first with a gap and a full store while the second fills its own. -/
theorem feed_emits_as_alone_interleaved :
    let config : DownstreamConfig := { qos := .reliable, reordering := .strict, reorderingChunks := 2 }
    let a : Uuid := ⟨List.replicate 16 0, by decide⟩
    let b : Uuid := ⟨List.replicate 16 1, by decide⟩
    let chunk (u : Uuid) (n : UInt32) : DownstreamChunk := ⟨n, [], ⟨"", u, ""⟩⟩
    let chunks := [chunk a 1, chunk b 7, chunk a 4, chunk b 9, chunk a 3, chunk b 8, chunk a 2]
    ∃ out r r₀, (new config).feed chunks = some (out, r) ∧
      (new config).feed (ofUpstream a chunks) = some (ofUpstream a out, r₀) ∧
      r₀.next a = r.next a ∧ r₀.stored a = r.stored a := by
  intro config a b chunk chunks
  have hs : ((new config).feed chunks).isSome := by decide +kernel
  obtain ⟨⟨out, r⟩, h⟩ := Option.isSome_iff_exists.1 hs
  obtain ⟨r₀, hf, hn, hst⟩ := feed_emits_as_alone config h a
  exact ⟨out, r, r₀, h, hf, hn, hst⟩

end DownReorderer
end Iscp
