import Iscp.Downstream.Late
import Iscp.Downstream.Model
import Mathlib.Data.List.Chain

/-!
# Empty chunks and reordering

The open request passes `omit_empty_chunk` on as it is configured, and the server then leaves out the
empty chunks of an upstream; the loop's own filter is switched off when chunks are reordered. The
reorderer takes a number that the server has left out for a chunk that is late, and holds what follows
it back.
-/

namespace Iscp

namespace Message

structure DownstreamOpenRequest where
  desiredStreamIdAlias : UInt32
  downstreamFilters : List DownstreamFilter
  expiryInterval : UInt32
  qos : QoS
  omitEmptyChunk : Bool
  dataIdAliases : BTreeMap DataId
deriving DecidableEq

end Message

namespace Downstream

/-- A configuration with the fields that only the open request is made from. -/
structure OpenConfig extends DownstreamConfig where
  filters : List Message.DownstreamFilter := []
  dataIds : List DataId := []
deriving DecidableEq

/-- `Conn::downstream_stream_id_alias`, with the counter that it leaves. -/
def downstreamStreamIdAlias (counter : UInt32) : Except Error UInt32 × UInt32 :=
  if counter = 0 then (.error (.unexpected "stream id alias max reached"), counter + 1)
  else (.ok counter, counter + 1)

/-- The request that `request_open` sends. -/
def requestOpen (config : OpenConfig) (counter : UInt32) :
    Except Error Message.DownstreamOpenRequest × UInt32 :=
  let expiryInterval := config.expiryInterval / 1000000000
  if 4294967295 < expiryInterval then (.error (.invalidValue "expiry_interval overflow"), counter)
  else
    match downstreamStreamIdAlias counter with
    | (.error e, counter) => (.error e, counter)
    | (.ok desiredStreamIdAlias, counter) =>
      (.ok {
        desiredStreamIdAlias := desiredStreamIdAlias
        downstreamFilters := config.filters
        expiryInterval := UInt32.ofNat expiryInterval
        qos := config.qos
        omitEmptyChunk := config.omitEmptyChunk
        dataIdAliases := .ofList (config.dataIds.zipIdx.map fun (dataId, i) => (UInt32.ofNat i + 1, dataId)) },
        counter)

theorem requestOpen_ok {config : OpenConfig} {counter : UInt32} {request : Message.DownstreamOpenRequest}
    (h : (requestOpen config counter).1 = .ok request) : request.omitEmptyChunk = config.omitEmptyChunk := by
  simp only [requestOpen] at h
  split at h
  · cases h
  · split at h
    · cases h
    · cases h
      rfl

/-- What the loop does with the message of a chunk: the conversion, then a drained call of the reorderer.
`none` if the conversion panics. -/
def receiveChunk (config : DownstreamConfig) (st : DownstreamState) (r : DownReorderer)
    (chunk : Message.DownstreamChunk) :
    Option (Except Error (List DownstreamChunk) × DownstreamState × DownReorderer) :=
  let omitEmptyChunk := config.omitEmptyChunk && !r.enabled
  match st.convertDownstreamChunk omitEmptyChunk chunk with
  | some (.ok (some chunk), st) => some ((r.push chunk).1, st, (r.push chunk).2)
  | some (_, st) => some (.ok [], st, r)
  | none => none

/-- The loop, on the message, leaves the reorderer with an iterator whose drain is that of `receiveChunk`,
or goes on at once. -/
theorem onChunk_receiveChunk {config : DownstreamConfig} {s : State} {chunk : Message.DownstreamChunk}
    {skip : LoopPc} {emit : DownReordererIter → LoopPc} {out : List DownstreamChunk}
    {st : DownstreamState} {r : DownReorderer}
    (h : receiveChunk config s.state s.reorderer chunk = some (.ok out, st, r)) :
    let s' := (s.onChunk config chunk skip emit).1
    s'.state = st ∧ (s'.loop = skip ∧ s'.reorderer = r ∧ out = [] ∨
      ∃ it, s'.loop = emit it ∧ s'.reorderer.drain it = (out, r)) := by
  simp only [receiveChunk] at h
  simp only [State.onChunk]
  rcases hc : s.state.convertDownstreamChunk (config.omitEmptyChunk && !s.reorderer.enabled) chunk with
    _ | ⟨_ | (_ | c), st'⟩
  · simp [hc] at h
  · simp only [hc] at h
    cases h
    exact ⟨rfl, .inl ⟨rfl, rfl, rfl⟩⟩
  · simp only [hc] at h
    cases h
    exact ⟨rfl, .inl ⟨rfl, rfl, rfl⟩⟩
  · simp only [hc] at h
    rcases hi : s.reorderer.iter c with ⟨e | it, r'⟩
    · simp [DownReorderer.push, hi] at h
    · simp only [DownReorderer.push, hi, Option.some.injEq, Prod.mk.injEq, Except.ok.injEq] at h
      obtain ⟨rfl, rfl, rfl⟩ := h
      simp only [hi]
      exact ⟨trivial, .inr ⟨it, rfl, rfl⟩⟩

end Downstream

/-! ### A call when nothing is stored -/

namespace DownReorderer

variable {r r' : DownReorderer} {u : Uuid} {n : UInt32} {chunk : DownstreamChunk}

/-- The limit has every chunk emitted at once. -/
def AtOnce (r : DownReorderer) : Prop := ¬ r.strict ∧ r.limit ≤ 1

/-- The chunk of number `n` is not held back when nothing of its upstream is stored. -/
def Passes (r : DownReorderer) (u : Uuid) (n : UInt32) : Prop := r.expected u = n ∨ r.AtOnce

theorem eq_empty_of_popFirst {m : BTreeMap DownstreamChunk} (h : m.popFirst = none) : m = ∅ := by
  by_contra hne
  obtain ⟨k, hk⟩ := Option.isSome_iff_exists.1 (Std.ExtTreeMap.isSome_minKey?_iff_ne_empty.2 hne)
  have hmem := (Std.ExtTreeMap.minKey?_eq_some_iff_mem_and_forall.1 hk).1
  obtain ⟨c, hc⟩ := Option.isSome_iff_exists.1 (Std.ExtTreeMap.mem_iff_isSome_getElem?.1 hmem)
  simp [BTreeMap.popFirst, hk, hc] at h

theorem not_forced_of_pop (h : r.pop u = (none, r')) (hne : r.stored u ≠ ∅) : ¬ r.Forced u := by
  intro hf
  unfold pop at h
  rw [Forced] at hf
  rw [if_pos hf] at h
  split at h
  · cases (Prod.mk.inj h).1
  · rename_i hp
    exact hne (eq_empty_of_popFirst hp)

theorem not_mem_of_pop (h : r.pop u = (none, r')) : r.expected u ∉ r.stored u := by
  have hi : r.iterNext (.reordered u) = (none, .reordered u, r') := by rw [iterNext, h]
  rcases (iterNext_eq_none hi).2 with he | ⟨v, he, hv⟩
  · cases he
  · cases he
    exact hv

/-- Nothing of `u` is stored, and the number after `n` is expected. -/
structure Onward (r r' : DownReorderer) (u : Uuid) (n : UInt32) : Prop where
  knows : r'.Knows u
  stored : r'.stored u = ∅
  expected : r'.expected u = n + 1
  strict : r'.strict = r.strict
  limit : r'.limit = r.limit

theorem getElem_insert_of_empty (h0 : r.stored u = ∅) :
    ((r.insert u chunk).stored u)[n]? = if chunk.sequenceNumber = n then some chunk else none := by
  rw [insert, stored_setStore, h0, Std.ExtTreeMap.getElem?_insert]
  simp

theorem size_insert_of_empty (h0 : r.stored u = ∅) : ((r.insert u chunk).stored u).size = 1 := by
  rw [insert, stored_setStore, h0, Std.ExtTreeMap.size_insert]
  simp

theorem Knows.pop_insert (hr : r.Knows u) (chunk : DownstreamChunk) (h0 : r.stored u = ∅) :
    (r.Passes u chunk.sequenceNumber ∧ ∃ r', (r.insert u chunk).pop u = (some chunk, r') ∧
      Onward r r' u chunk.sequenceNumber) ∨
    (¬ r.Passes u chunk.sequenceNumber ∧ (r.insert u chunk).pop u = (none, r.insert u chunk)) := by
  have hz : ((r.insert u chunk).stored u).size = 1 := size_insert_of_empty h0
  rcases hp : (r.insert u chunk).pop u with ⟨_ | c, r'⟩
  · right
    obtain rfl := pop_eq_none hp
    have hn : r.expected u ∉ (r.insert u chunk).stored u := not_mem_of_pop hp
    have hf := not_forced_of_pop hp fun he => by
      rw [he, Std.ExtTreeMap.size_empty] at hz
      cases hz
    refine ⟨?_, rfl⟩
    rintro (he | ha)
    · exact hn (mem_insert.2 (.inl he))
    · exact hf ⟨ha.1, by rw [hz]; exact ha.2⟩
  · left
    have hpop := (hr.insert chunk).pop hp
    have hc := hpop.stored
    rw [getElem_insert_of_empty h0] at hc
    split at hc
    · cases hc
      have hlt := size_pop_lt hp
      refine ⟨?_, r', rfl, hpop.knows, ?_, hpop.expected, hpop.strict, hpop.limit⟩
      · rcases hpop.number with ⟨⟨hs, hl⟩, -⟩ | he
        · exact .inr ⟨hs, by rw [hz] at hl; exact hl⟩
        · exact .inl he.symm
      · rw [Std.ExtTreeMap.eq_empty_iff_size_eq_zero]
        omega
    · cases hc

/-- A chunk is emitted at once if it passes, and otherwise refused or held back. -/
theorem Knows.push_of_empty (hr : r.Knows u) (hu : chunk.upstream.streamId = u) (h0 : r.stored u = ∅) :
    (r.Passes u chunk.sequenceNumber ∧ ∃ r', r.push chunk = (.ok [chunk], r') ∧
      Onward r r' u chunk.sequenceNumber) ∨
    (¬ r.Passes u chunk.sequenceNumber ∧ ∀ out r', r.push chunk = (.ok out, r') → r'.stored u ≠ ∅) := by
  rcases hr.push_cases hu with ⟨hs, -, hne, hi, -⟩ | ⟨-, hi, -⟩
  · right
    refine ⟨?_, fun out r' hp => ?_⟩
    · rintro (he | ha)
      · exact hne he
      · exact ha.1 hs
    · simp [DownReorderer.push, hi] at hp
  · have hpush : r.push chunk = (.ok ((r.insert u chunk).popN u 1).1, ((r.insert u chunk).popN u 1).2) := by
      rw [DownReorderer.push, hi]
      simp only [drain, size_insert_of_empty h0]
    rcases hr.pop_insert chunk h0 with ⟨hpass, r', hp, hr'⟩ | ⟨hpass, hp⟩
    · exact .inl ⟨hpass, r', by rw [hpush]; simp [DownReorderer.popN, hp], hr'⟩
    · refine .inr ⟨hpass, fun out r' he => ?_⟩
      rw [hpush] at he
      simp only [DownReorderer.popN, hp, Prod.mk.injEq] at he
      rw [← he.2]
      intro hemp
      have hz : ((r.insert u chunk).stored u).size = 1 := size_insert_of_empty h0
      rw [hemp, Std.ExtTreeMap.size_empty] at hz
      cases hz

end DownReorderer

namespace Downstream

/-! ### A stream of chunks of which the server forwards some -/

/-- A chunk of an upstream as the server has it, with the way in which it names the upstream. -/
structure ServedChunk where
  streamChunk : Message.StreamChunk
  upstream : Message.UpstreamOrAlias
deriving DecidableEq

namespace ServedChunk

def isEmpty (c : ServedChunk) : Bool := c.streamChunk.dataPointGroups.isEmpty

def sequenceNumber (c : ServedChunk) : UInt32 := c.streamChunk.sequenceNumber

def message (streamIdAlias : UInt32) (c : ServedChunk) : Message.DownstreamChunk :=
  ⟨streamIdAlias, some c.streamChunk, some c.upstream⟩

end ServedChunk

/-- What the server forwards under an open request: it leaves out the empty chunks if it is told to. -/
def forwarded (request : Message.DownstreamOpenRequest) (chunks : List ServedChunk) : List ServedChunk :=
  if request.omitEmptyChunk then chunks.filter (!·.isEmpty) else chunks

def Consecutive (chunks : List ServedChunk) : Prop :=
  chunks.IsChain fun c d => d.sequenceNumber = c.sequenceNumber + 1

instance {chunks : List ServedChunk} : Decidable (Consecutive chunks) :=
  inferInstanceAs (Decidable (List.IsChain _ _))

/-- No empty chunk lies between two that are not empty, but for whole rounds of the numbers. -/
def Gapless (chunks : List ServedChunk) : Prop :=
  ∀ pre c mid d post, chunks = pre ++ c :: (mid ++ d :: post) → ¬ c.isEmpty → ¬ d.isEmpty →
    (∀ e ∈ mid, e.isEmpty) → 4294967296 ∣ mid.length

/-- From this state on, the messages convert to chunks of the upstream, if none is filtered. -/
def namesUpstream (info : UpstreamInfo) (streamIdAlias : UInt32) : DownstreamState → List ServedChunk → Bool
  | _, [] => true
  | st, c :: chunks =>
    match st.convertDownstreamChunk false (c.message streamIdAlias) with
    | some (.ok (some chunk), st) => chunk.upstream = info && namesUpstream info streamIdAlias st chunks
    | _ => false

/-- `iter` refuses none of the chunks that are received, and after none of them a chunk of the upstream
waits. -/
def neverWaits (config : DownstreamConfig) (streamId : Uuid) (streamIdAlias : UInt32) :
    DownstreamState → DownReorderer → List ServedChunk → Bool
  | _, _, [] => true
  | st, r, c :: chunks =>
    match receiveChunk config st r (c.message streamIdAlias) with
    | some (.ok _, st, r) => r.stored streamId = ∅ && neverWaits config streamId streamIdAlias st r chunks
    | _ => false

variable {config : DownstreamConfig} {info : UpstreamInfo} {a : UInt32} {st : DownstreamState}
  {r r' : DownReorderer} {chunks : List ServedChunk}

theorem sequenceNumber_of_convert {chunk : DownstreamChunk} {c : ServedChunk} {st' : DownstreamState}
    (h : st.convertDownstreamChunk false (c.message a) = some (.ok (some chunk), st')) :
    chunk.sequenceNumber = c.sequenceNumber := by
  simp only [DownstreamState.convertDownstreamChunk, ServedChunk.message, Bool.false_eq_true, false_and,
    ↓reduceIte] at h
  split at h
  · cases h
  · obtain ⟨⟨res, st₁⟩, -, he⟩ := Option.map_eq_some_iff.1 h
    cases res with
    | error e => cases (Prod.mk.inj he).1
    | ok upstream =>
      cases he
      rfl

/-- With chunks reordered, the loop's filter is off. -/
theorem receiveChunk_of_convert {chunk : DownstreamChunk} {c : ServedChunk} {st' : DownstreamState}
    (he : r.enabled) (h : st.convertDownstreamChunk false (c.message a) = some (.ok (some chunk), st')) :
    receiveChunk config st r (c.message a) = some ((r.push chunk).1, st', (r.push chunk).2) := by
  simp only [receiveChunk, he, Bool.not_true, Bool.and_false, h]

theorem neverWaits_iff_of_knows (hr : r.Knows info.streamId) (h0 : r.stored info.streamId = ∅)
    (hn : namesUpstream info a st chunks) :
    neverWaits config info.streamId a st r chunks ↔ r.AtOnce ∨
      (∀ c ∈ chunks.head?, c.sequenceNumber = r.expected info.streamId) ∧ Consecutive chunks := by
  induction chunks generalizing st r with
  | nil => simp [neverWaits, Consecutive]
  | cons c chunks ih =>
    rw [namesUpstream] at hn
    split at hn
    · rename_i chunk st' hconv
      simp only [Bool.and_eq_true, decide_eq_true_eq] at hn
      obtain ⟨rfl, hn⟩ := hn
      have hseq := sequenceNumber_of_convert hconv
      rw [neverWaits, receiveChunk_of_convert hr.enabled hconv, Consecutive, List.isChain_cons]
      rcases hr.push_of_empty rfl h0 with ⟨hpass, r', hp, hr'⟩ | ⟨hpass, hp⟩
      · have hih := ih hr'.knows hr'.stored hn
        rw [hr'.expected, hseq] at hih
        rw [hseq] at hpass
        have hat : r'.AtOnce ↔ r.AtOnce := by
          rw [DownReorderer.AtOnce, DownReorderer.AtOnce, hr'.strict, hr'.limit]
        simp only [hp, hr'.stored, decide_true, Bool.true_and, hih, hat, List.head?_cons,
          Option.mem_some_iff, forall_eq']
        rcases hpass with he | ha
        · rw [he]
          exact ⟨fun h => h.imp_right fun h => ⟨rfl, h⟩, fun h => h.imp_right fun h => h.2⟩
        · exact ⟨fun _ => .inl ha, fun _ => .inl ha⟩
      · rw [hseq] at hpass
        have hno : ¬ (r.AtOnce ∨ (∀ d ∈ (c :: chunks).head?, d.sequenceNumber = r.expected chunk.upstream.streamId) ∧
            (∀ d ∈ chunks.head?, d.sequenceNumber = c.sequenceNumber + 1) ∧
              chunks.IsChain fun c d => d.sequenceNumber = c.sequenceNumber + 1) := by
          rintro (ha | ⟨hh, -⟩)
          · exact hpass (.inr ha)
          · exact hpass (.inl (hh c rfl).symm)
        refine ⟨fun h => ?_, fun h => absurd h hno⟩
        rcases hp' : r.push chunk with ⟨e | out, r'⟩
        · simp [hp'] at h
        · simp [hp', hp out r' hp'] at h
    · cases hn

theorem neverWaits_iff (he : (DownReorderer.new config).enabled) (hn : namesUpstream info a st chunks) :
    neverWaits config info.streamId a st (.new config) chunks ↔
      (DownReorderer.new config).AtOnce ∨ Consecutive chunks := by
  cases chunks with
  | nil => simp [neverWaits, Consecutive]
  | cons c chunks =>
    have hn' := hn
    rw [namesUpstream] at hn'
    split at hn'
    · rename_i chunk st' hconv
      simp only [Bool.and_eq_true, decide_eq_true_eq] at hn'
      obtain ⟨rfl, -⟩ := hn'
      have hseq := sequenceNumber_of_convert hconv
      -- The first chunk's number is the one that is expected.
      let u := chunk.upstream.streamId
      have hnone : (DownReorderer.new config).next u = none := rfl
      obtain ⟨hk, h0, -⟩ := (DownReorderer.feeds_new config he u).register chunk.sequenceNumber
      have hexp : ((DownReorderer.new config).register u chunk.sequenceNumber).expected u =
          chunk.sequenceNumber := DownReorderer.expected_register_of_none hnone
      have hfirst : neverWaits config u a st (.new config) (c :: chunks) =
          neverWaits config u a st ((DownReorderer.new config).register u chunk.sequenceNumber) (c :: chunks) := by
        rw [neverWaits, receiveChunk_of_convert he hconv, neverWaits, receiveChunk_of_convert hk.enabled hconv,
          DownReorderer.push_register he rfl]
      rw [hfirst, neverWaits_iff_of_knows hk h0 hn, DownReorderer.AtOnce, DownReorderer.strict_register,
        DownReorderer.limit_register, hexp]
      exact or_congr_right ⟨fun h => h.2, fun h => ⟨fun d hd => by cases hd; exact hseq.symm, h⟩⟩
    · cases hn'

/-! ### The numbers that the server forwards -/

theorem isChain_filter {α : Type} {R : α → α → Prop} {p : α → Bool} {l : List α} :
    (l.filter p).IsChain R ↔ ∀ pre x mid y post, l = pre ++ x :: (mid ++ y :: post) → p x → p y →
      (∀ z ∈ mid, ¬ p z) → R x y := by
  constructor
  · rintro h pre x mid y post rfl hx hy hmid
    have hf : (mid ++ y :: post).filter p = y :: post.filter p := by
      rw [List.filter_append, List.filter_eq_nil_iff.2 (by simpa using hmid), List.nil_append,
        List.filter_cons_of_pos hy]
    rw [List.filter_append, List.filter_cons_of_pos hx, hf, List.isChain_append_cons_cons] at h
    exact h.2.1
  · intro h
    induction l with
    | nil => exact .nil
    | cons x l ih =>
      have hl := ih fun pre y mid z post he => h (x :: pre) y mid z post (by rw [he, List.cons_append])
      by_cases hx : p x
      · rw [List.filter_cons_of_pos hx, List.isChain_cons]
        refine ⟨fun y hy => ?_, hl⟩
        rcases hf : l.filter p with _ | ⟨z, rest⟩
        · simp [hf] at hy
        · obtain ⟨mid, post, rfl, hmid, hz, -⟩ := List.filter_eq_cons_iff.1 hf
          rw [hf, List.head?_cons, Option.mem_some_iff] at hy
          subst hy
          exact h [] x mid z post rfl hx hz hmid
      · rwa [List.filter_cons_of_neg hx]

theorem sequenceNumber_of_consecutive {c d : ServedChunk} {mid post : List ServedChunk}
    (h : Consecutive (c :: (mid ++ d :: post))) :
    d.sequenceNumber = c.sequenceNumber + UInt32.ofNat mid.length + 1 := by
  induction mid generalizing c with
  | nil =>
    have := (List.isChain_cons_cons.1 h).1
    simpa using this
  | cons e mid ih =>
    obtain ⟨he, htail⟩ := List.isChain_cons_cons.1 h
    rw [ih htail, he, List.length_cons, UInt32.ofNat_add]
    grind

theorem consecutive_filter_iff (hc : Consecutive chunks) :
    Consecutive (chunks.filter (!·.isEmpty)) ↔ Gapless chunks := by
  -- The numbers of two chunks are one apart if the number of those between is a multiple of `2 ^ 32`.
  have hstep {pre mid post : List ServedChunk} {c d : ServedChunk} (he : chunks = pre ++ c :: (mid ++ d :: post)) :
      d.sequenceNumber = c.sequenceNumber + 1 ↔ 4294967296 ∣ mid.length := by
    rw [he] at hc
    rw [sequenceNumber_of_consecutive hc.right_of_append, ← UInt32.toNat_inj]
    simp only [UInt32.toNat_add, UInt32.toNat_ofNat', UInt32.toNat_one]
    have hlt := c.sequenceNumber.toNat_lt
    omega
  rw [Consecutive, isChain_filter]
  refine ⟨fun h pre c mid d post he hcn hdn hmid => ?_, fun h pre c mid d post he hcn hdn hmid => ?_⟩
  · exact (hstep he).1 (h pre c mid d post he (by simpa using hcn) (by simpa using hdn) (by simpa using hmid))
  · exact (hstep he).2 (h pre c mid d post he (by simpa using hcn) (by simpa using hdn) (by simpa using hmid))

theorem atOnce_new (hr : config.reordering ≠ .none) : (DownReorderer.new config).AtOnce ↔
    config.reordering = .bestEffort ∧ config.reorderingChunks ≤ 1 := by
  simp only [DownReorderer.AtOnce, DownReorderer.new, decide_eq_true_eq]
  refine and_congr_left fun _ => ⟨fun h => ?_, fun h => by rw [h]; simp⟩
  rcases hc : config.reordering with _ | _ | _
  · exact absurd hc hr
  · rfl
  · exact absurd hc h

/-- Of consecutive chunks that the server forwards as the open request asks for, none is refused or held
back in the reorderer, if and only if the request does not have it leave out empty chunks, or none of
them lies between others, or every chunk is emitted at once anyway. -/
theorem forwarded_never_wait_iff (config : OpenConfig) (hq : config.qos = .reliable)
    (hr : config.reordering ≠ .none) {counter : UInt32} {request : Message.DownstreamOpenRequest}
    (hreq : (requestOpen config counter).1 = .ok request) (hc : Consecutive chunks)
    (hn : namesUpstream info a st (forwarded request chunks)) :
    neverWaits config.toDownstreamConfig info.streamId a st (.new config.toDownstreamConfig)
        (forwarded request chunks) ↔
      config.omitEmptyChunk = false ∨ Gapless chunks ∨
        config.reordering = .bestEffort ∧ config.reorderingChunks ≤ 1 := by
  have he : (DownReorderer.new config.toDownstreamConfig).enabled := by simp [DownReorderer.new, hq, hr]
  rw [neverWaits_iff he hn, atOnce_new hr, forwarded, requestOpen_ok hreq]
  cases ho : config.omitEmptyChunk with
  | false => simp [hc]
  | true =>
    rw [if_pos rfl, consecutive_filter_iff hc, or_comm]
    simp

/-- The chunk of number `n`, with a data point group or empty, of an upstream that is named in full. -/
def servedChunk (n : UInt32) (empty : Bool) : ServedChunk :=
  ⟨⟨if empty then [] else [⟨some (.dataId ⟨"d", "t"⟩), []⟩], n⟩,
    .upstreamInfo ⟨"s", List.replicate 16 0, "n"⟩⟩

def servedInfo : UpstreamInfo := ⟨"s", ⟨List.replicate 16 0, rfl⟩, "n"⟩

/-- A strict downstream that does not want empty chunks. -/
def omitConfig : OpenConfig where
  qos := .reliable
  reordering := .strict
  omitEmptyChunk := true

/-- The empty chunk comes last. -/
theorem forwarded_never_wait_iff_last : ∃ request, (requestOpen omitConfig 1).1 = .ok request ∧
    let chunks := [servedChunk 1 false, servedChunk 2 false, servedChunk 3 true]
    (neverWaits omitConfig.toDownstreamConfig servedInfo.streamId 1 { dataIdAliases := ∅ }
        (.new omitConfig.toDownstreamConfig) (forwarded request chunks) ↔
      omitConfig.omitEmptyChunk = false ∨ Gapless chunks ∨
        omitConfig.reordering = .bestEffort ∧ omitConfig.reorderingChunks ≤ 1) := by
  refine ⟨_, rfl, ?_⟩
  exact forwarded_never_wait_iff omitConfig rfl (by decide) (show (requestOpen omitConfig 1).1 = .ok _ from rfl)
    (by decide) (by decide +kernel)

/-- Of three chunks the second is empty. The server leaves it out, and the third one waits for it. -/
theorem forwarded_waits_for_omitted : ¬ ∀ (config : OpenConfig) (counter : UInt32)
    (request : Message.DownstreamOpenRequest) (chunks : List ServedChunk) (info : UpstreamInfo) (a : UInt32)
    (st : DownstreamState), config.qos = .reliable → config.reordering ≠ .none →
      (requestOpen config counter).1 = .ok request → Consecutive chunks →
      namesUpstream info a st (forwarded request chunks) →
      neverWaits config.toDownstreamConfig info.streamId a st (.new config.toDownstreamConfig)
        (forwarded request chunks) := by
  intro h
  have hw := h omitConfig 1 _ [servedChunk 1 false, servedChunk 2 true, servedChunk 3 false] servedInfo 1
    { dataIdAliases := ∅ } rfl (by decide) rfl (by decide) (by decide +kernel)
  exact absurd hw (by decide +kernel)

end Downstream
end Iscp
