import Iscp.Metadata

/-!
# The state of a downstream

`State` of `down_state.rs`: the alias tables of a downstream and what it has to acknowledge, and
`convert_downstream_chunk`, which reads the former and records the latter. `none` stands for the panic
of `add_upstream_info` when the aliases run out.
-/

namespace Iscp

/-- `State` of `down_state.rs`. -/
structure DownstreamState where
  dataIdAliases : BTreeMap DataId
  infos : BTreeMap UpstreamInfo := ∅
  forAck : BTreeMap Message.UpstreamInfo := ∅
  lastIssuedUpstreamInfoAlias : Option UInt32 := none
  lastIssuedChunkAckId : Option UInt32 := none
  results : List Message.DownstreamChunkResult := []
deriving DecidableEq

namespace DownstreamState

def addSequenceNumber (st : DownstreamState) (streamId : Uuid) (sequenceNumber : UInt32) :
    DownstreamState :=
  { st with results := st.results ++ [⟨streamId.val, sequenceNumber, 0, "OK"⟩] }

/-- The next alias, `None` when `checked_add` overflows. -/
def nextUpstreamInfoAlias (st : DownstreamState) : Option UInt32 :=
  match st.lastIssuedUpstreamInfoAlias with
  | some last => if last = 4294967295 then none else some (last + 1)
  | none => some 0

def addUpstreamInfo (st : DownstreamState) (upstreamInfo : Message.UpstreamInfo) :
    Option (Except Error UpstreamInfo × DownstreamState) :=
  match parseStreamId upstreamInfo.streamId with
  | .error e => some (.error e, st)
  | .ok streamId =>
    let info : UpstreamInfo := ⟨upstreamInfo.sessionId, streamId, upstreamInfo.sourceNodeId⟩
    match st.infos.values.find? (· = info) with
    | some info => some (.ok info, st)
    | none =>
      st.nextUpstreamInfoAlias.map fun infoAlias =>
        (.ok info, { st with
          lastIssuedUpstreamInfoAlias := some infoAlias
          infos := st.infos.insert infoAlias info
          forAck := st.forAck.insert infoAlias ⟨info.sessionId, info.streamId.val, info.sourceNodeId⟩ })

def getUpstreamInfo (st : DownstreamState) (infoAlias : UInt32) : Except Error UpstreamInfo :=
  match st.infos[infoAlias]? with
  | some info => .ok info
  | none => .error (.invalidValue s!"unknown upstream info alias ({infoAlias})")

def takeAck (st : DownstreamState) (streamIdAlias : UInt32) :
    Option Message.DownstreamChunkAck × DownstreamState :=
  let taken := { st with results := [], forAck := ∅ }
  if st.results.isEmpty ∧ st.forAck.isEmpty then (none, taken)
  else
    let ackId := match st.lastIssuedChunkAckId with
      | some ackId => ackId + 1
      | none => 0
    (some ⟨streamIdAlias, ackId, st.results, st.forAck⟩, { taken with lastIssuedChunkAckId := some ackId })

def getDataId (st : DownstreamState) (idAlias : UInt32) : Option DataId := st.dataIdAliases[idAlias]?

/-- The loop over the groups of a chunk in `convert_downstream_chunk`. -/
def convertGroups (st : DownstreamState) :
    List Message.DataPointGroup → Except Error (List DataPointGroup)
  | [] => .ok []
  | dpg :: dpgs => do
    let dataId ← match dpg.dataIdOrAlias with
      | some (.dataId dataId) => .ok dataId
      | some (.dataIdAlias idAlias) =>
        match st.getDataId idAlias with
        | some dataId => .ok dataId
        | none => .error (.invalidValue s!"unknown data id {idAlias}")
      | none => .error (.invalidValue "invalid data_id_or_alias")
    return ⟨dataId, dpg.dataPoints⟩ :: (← st.convertGroups dpgs)

/-- Which upstream a chunk is from. -/
def upstream (st : DownstreamState) :
    Option Message.UpstreamOrAlias → Option (Except Error UpstreamInfo × DownstreamState)
  | some (.upstreamInfo info) => st.addUpstreamInfo info
  | some (.upstreamAlias infoAlias) => some (st.getUpstreamInfo infoAlias, st)
  | none => some (.error (.invalidValue "invalid upstream_or_alias"), st)

def convertDownstreamChunk (omitEmptyChunk : Bool) (st : DownstreamState)
    (chunk : Message.DownstreamChunk) :
    Option (Except Error (Option DownstreamChunk) × DownstreamState) :=
  match chunk.streamChunk with
  | none => some (.ok none, st)
  | some streamChunk =>
    if omitEmptyChunk ∧ streamChunk.dataPointGroups.isEmpty then some (.ok none, st)
    else
      match st.convertGroups streamChunk.dataPointGroups with
      | .error e => some (.error e, st)
      | .ok dataPointGroups =>
        (st.upstream chunk.upstreamOrAlias).map fun
          | (.error e, st) => (.error e, st)
          | (.ok upstream, st) =>
            (.ok (some ⟨streamChunk.sequenceNumber, dataPointGroups, upstream⟩),
              st.addSequenceNumber upstream.streamId streamChunk.sequenceNumber)

/-! ### What the operations do -/

variable {st st' : DownstreamState} {n : UInt32}

@[simp] theorem results_addSequenceNumber (u : Uuid) :
    (st.addSequenceNumber u n).results = st.results ++ [⟨u.val, n, 0, "OK"⟩] := rfl

@[simp] theorem infos_addSequenceNumber (u : Uuid) : (st.addSequenceNumber u n).infos = st.infos := rfl

@[simp] theorem forAck_addSequenceNumber (u : Uuid) : (st.addSequenceNumber u n).forAck = st.forAck := rfl

/-- The wire form of an upstream's info, as it is announced. -/
def announcement (info : UpstreamInfo) : Message.UpstreamInfo :=
  ⟨info.sessionId, info.streamId.val, info.sourceNodeId⟩

/-- What `add_upstream_info` does: it fails, it finds the info, or it gives it the next alias. -/
inductive AddsUpstreamInfo (st : DownstreamState) : Except Error UpstreamInfo → DownstreamState → Prop
  | invalid {e} : AddsUpstreamInfo st (.error e) st
  | known {info : UpstreamInfo} : AddsUpstreamInfo st (.ok info) st
  | registered {info : UpstreamInfo} {infoAlias : UInt32} : st.nextUpstreamInfoAlias = some infoAlias →
      AddsUpstreamInfo st (.ok info) { st with
        lastIssuedUpstreamInfoAlias := some infoAlias
        infos := st.infos.insert infoAlias info
        forAck := st.forAck.insert infoAlias (announcement info) }

theorem upstream_adds {upstreamOrAlias : Option Message.UpstreamOrAlias}
    {r : Except Error UpstreamInfo} (h : st.upstream upstreamOrAlias = some (r, st')) :
    st.AddsUpstreamInfo r st' := by
  unfold upstream at h
  split at h
  · unfold addUpstreamInfo at h
    split at h
    · cases h
      exact .invalid
    · dsimp only at h
      split at h
      · cases h
        exact .known
      · obtain ⟨infoAlias, ha, he⟩ := Option.map_eq_some_iff.1 h
        cases he
        exact .registered ha
  · simp only [Option.some.injEq, Prod.mk.injEq] at h
    obtain ⟨rfl, rfl⟩ := h
    unfold getUpstreamInfo
    split
    · exact .known
    · exact .invalid
  · cases h
    exact .invalid

/-- A conversion that yields a chunk records its number, and perhaps its upstream; every other conversion
leaves the state as it is. -/
inductive Converts (st : DownstreamState) : Except Error (Option DownstreamChunk) → DownstreamState → Prop
  | error {e} : Converts st (.error e) st
  | empty : Converts st (.ok none) st
  | chunk {chunk : DownstreamChunk} {st' : DownstreamState} : st.AddsUpstreamInfo (.ok chunk.upstream) st' → Converts st (.ok (some chunk))
      (st'.addSequenceNumber chunk.upstream.streamId chunk.sequenceNumber)

theorem AddsUpstreamInfo.results {r : Except Error UpstreamInfo} (h : st.AddsUpstreamInfo r st') :
    st'.results = st.results := by
  cases h <;> rfl

theorem Converts.results {chunk : DownstreamChunk} (h : st.Converts (.ok (some chunk)) st') :
    st'.results = st.results ++ [⟨chunk.upstream.streamId.val, chunk.sequenceNumber, 0, "OK"⟩] := by
  cases h with
  | chunk hadds => rw [results_addSequenceNumber, hadds.results]

theorem convertDownstreamChunk_converts {omitEmptyChunk : Bool} {wireChunk : Message.DownstreamChunk}
    {r : Except Error (Option DownstreamChunk)}
    (h : st.convertDownstreamChunk omitEmptyChunk wireChunk = some (r, st')) : st.Converts r st' := by
  unfold convertDownstreamChunk at h
  split at h
  · cases h
    exact .empty
  · split at h
    · cases h
      exact .empty
    · split at h
      · cases h
        exact .error
      · obtain ⟨⟨u, st₁⟩, hu, he⟩ := Option.map_eq_some_iff.1 h
        have hadds := upstream_adds hu
        cases u with
        | error e =>
          obtain ⟨rfl, rfl⟩ := Prod.mk.inj he
          cases hadds
          exact .error
        | ok info =>
          obtain ⟨rfl, rfl⟩ := Prod.mk.inj he
          exact .chunk hadds

theorem takeAck_eq_none {streamIdAlias : UInt32} (h : st.takeAck streamIdAlias = (none, st')) :
    st' = st := by
  unfold takeAck at h
  split at h
  · rename_i he
    obtain ⟨-, rfl⟩ := Prod.mk.inj h
    have hr : st.results = [] := by simpa using he.1
    have hf : st.forAck = ∅ := Std.ExtTreeMap.isEmpty_iff.1 he.2
    cases st
    simp_all
  · cases (Prod.mk.inj h).1

/-- The specification of a `take_ack` that finds something to acknowledge. -/
structure TakesAck (st : DownstreamState) (streamIdAlias : UInt32) (ack : Message.DownstreamChunkAck)
    (st' : DownstreamState) : Prop where
  streamIdAlias : ack.streamIdAlias = streamIdAlias
  results : ack.results = st.results
  upstreamAliases : ack.upstreamAliases = st.forAck
  nonempty : st.results ≠ [] ∨ st.forAck ≠ ∅
  results' : st'.results = []
  forAck' : st'.forAck = ∅
  infos : st'.infos = st.infos
  lastIssuedUpstreamInfoAlias : st'.lastIssuedUpstreamInfoAlias = st.lastIssuedUpstreamInfoAlias

theorem takeAck_eq_some {streamIdAlias : UInt32} {ack : Message.DownstreamChunkAck}
    (h : st.takeAck streamIdAlias = (some ack, st')) : st.TakesAck streamIdAlias ack st' := by
  unfold takeAck at h
  split at h
  · cases (Prod.mk.inj h).1
  · rename_i he
    obtain ⟨ha, rfl⟩ := Prod.mk.inj h
    obtain rfl := Option.some.inj ha
    refine ⟨rfl, rfl, rfl, ?_, rfl, rfl, rfl, rfl⟩
    by_cases hr : st.results = []
    · exact .inr fun hf => he ⟨by simp [hr], by simp [hf]⟩
    · exact .inl hr

end DownstreamState
end Iscp
