import Iscp.Downstream.State

/-!
# What a downstream reads in a chunk

`convert_downstream_chunk` checks the groups of a chunk, looks up or registers its upstream and records its
number, in this order. Whatever it refuses, it has not touched the state before.
-/

namespace Iscp.DownstreamState

variable {st st' : DownstreamState}

/-- `chunk` has what the wire chunk says to a downstream in the state `st`. -/
structure Reads (st : DownstreamState) (wireChunk : Message.DownstreamChunk) (chunk : DownstreamChunk) :
    Prop where
  streamChunk : ∃ streamChunk, wireChunk.streamChunk = some streamChunk ∧
    chunk.sequenceNumber = streamChunk.sequenceNumber ∧
    streamChunk.dataPointGroups.map (·.resolve st.dataIdAliases) = chunk.dataPointGroups.map some
  upstream : wireChunk.upstreamOrAlias = some (.upstreamInfo (announcement chunk.upstream)) ∨
    ∃ infoAlias, wireChunk.upstreamOrAlias = some (.upstreamAlias infoAlias) ∧
      st.infos[infoAlias]? = some chunk.upstream

/-- A conversion reads the chunk and records it, or leaves the state as it is. It panics only once the last
alias is issued. -/
def ReadsOrKeeps (st : DownstreamState) (wireChunk : Message.DownstreamChunk) :
    Option (Except Error (Option DownstreamChunk) × DownstreamState) → Prop
  | some (.ok (some chunk), st') => st.Reads wireChunk chunk ∧
    st'.results = st.results ++ [⟨chunk.upstream.streamId.val, chunk.sequenceNumber, 0, "OK"⟩]
  | some (.ok none, st') | some (.error _, st') => st' = st
  | none => st.lastIssuedUpstreamInfoAlias = some 4294967295

theorem convertGroups_eq_ok {dpgs : List Message.DataPointGroup} {groups : List DataPointGroup}
    (h : st.convertGroups dpgs = .ok groups) :
    dpgs.map (·.resolve st.dataIdAliases) = groups.map some := by
  induction dpgs generalizing groups with
  | nil =>
    cases h
    rfl
  | cons dpg dpgs ih =>
    have read {id : DataId} (hid : dpg.dataIdOrAlias.bind (·.resolve st.dataIdAliases) = some id)
        (h : (do return ⟨id, dpg.dataPoints⟩ :: (← st.convertGroups dpgs)) = Except.ok groups) :
        (dpg :: dpgs).map (·.resolve st.dataIdAliases) = groups.map some := by
      cases hrest : st.convertGroups dpgs with
      | error e =>
        rw [hrest] at h
        cases h
      | ok rest =>
        rw [hrest] at h
        cases h
        rw [List.map_cons, List.map_cons, ih hrest, Message.DataPointGroup.resolve, hid]
        rfl
    rw [convertGroups] at h
    cases hid : dpg.dataIdOrAlias with
    | none =>
      rw [hid] at h
      cases h
    | some dataIdOrAlias =>
      rw [hid] at h
      cases dataIdOrAlias with
      | dataId id => exact read (by rw [hid]; rfl) h
      | dataIdAlias idAlias =>
        cases halias : st.getDataId idAlias with
        | none =>
          simp only [halias] at h
          cases h
        | some id =>
          simp only [halias] at h
          exact read (by rw [hid]; exact halias) h

/-! ### Upstreams -/

/-- The info that `add_upstream_info` makes of a wire info is the wire info itself. -/
theorem announcement_parsed {wire : Message.UpstreamInfo} {streamId : Uuid}
    (h : parseStreamId wire.streamId = .ok streamId) :
    announcement ⟨wire.sessionId, streamId, wire.sourceNodeId⟩ = wire := by
  rw [announcement, ← parseStreamId_eq_ok h]

theorem nextUpstreamInfoAlias_eq_none :
    st.nextUpstreamInfoAlias = none ↔ st.lastIssuedUpstreamInfoAlias = some 4294967295 := by
  unfold nextUpstreamInfoAlias
  split
  · rename_i last hlast
    rw [hlast]
    split <;> simp_all
  · rename_i hnone
    simp [hnone]

/-- `add_upstream_info` rejects the info, knows it already or registers it under the next alias. -/
theorem addUpstreamInfo_cases {wire : Message.UpstreamInfo} {r : Except Error UpstreamInfo}
    (h : st.addUpstreamInfo wire = some (r, st')) :
    (∃ e, r = .error e ∧ st' = st) ∨
    ∃ info, r = .ok info ∧ announcement info = wire ∧
      ((∃ infoAlias : UInt32, st.infos[infoAlias]? = some info) ∧ st' = st ∨
      ∃ infoAlias, (∀ b : UInt32, st.infos[b]? ≠ some info) ∧ st.nextUpstreamInfoAlias = some infoAlias ∧
        st' = { st with
          lastIssuedUpstreamInfoAlias := some infoAlias
          infos := st.infos.insert infoAlias info
          forAck := st.forAck.insert infoAlias wire }) := by
  unfold addUpstreamInfo at h
  split at h
  · cases h
    exact .inl ⟨_, rfl, rfl⟩
  · rename_i streamId hs
    have hwire := announcement_parsed hs
    dsimp only at h
    split at h
    · rename_i info hf
      cases h
      have hinfo := List.find?_some hf
      obtain rfl := of_decide_eq_true hinfo
      exact .inr ⟨_, rfl, hwire, .inl ⟨BTreeMap.mem_values.1 (List.mem_of_find?_eq_some hf), rfl⟩⟩
    · rename_i hf
      obtain ⟨infoAlias, ha, he⟩ := Option.map_eq_some_iff.1 h
      cases he
      refine .inr ⟨_, rfl, hwire, .inr ⟨infoAlias, fun b hb => ?_, ha, by rw [← hwire]; rfl⟩⟩
      have := List.find?_eq_none.1 hf _ (BTreeMap.mem_values.2 ⟨b, hb⟩)
      simp at this

theorem addUpstreamInfo_eq_none {wire : Message.UpstreamInfo} (h : st.addUpstreamInfo wire = none) :
    st.lastIssuedUpstreamInfoAlias = some 4294967295 := by
  unfold addUpstreamInfo at h
  split at h
  · cases h
  · dsimp only at h
    split at h
    · cases h
    · exact nextUpstreamInfoAlias_eq_none.1 (Option.map_eq_none_iff.1 h)

theorem upstream_cases {upstreamOrAlias : Option Message.UpstreamOrAlias} {r : Except Error UpstreamInfo}
    (h : st.upstream upstreamOrAlias = some (r, st')) :
    (∃ e, r = .error e ∧ st' = st) ∨ ∃ info, r = .ok info ∧ st'.results = st.results ∧
      (upstreamOrAlias = some (.upstreamInfo (announcement info)) ∨
        ∃ infoAlias, upstreamOrAlias = some (.upstreamAlias infoAlias) ∧ st.infos[infoAlias]? = some info) := by
  unfold upstream at h
  split at h
  · rcases addUpstreamInfo_cases h with hinvalid | ⟨info, rfl, rfl, hst⟩
    · exact .inl hinvalid
    · refine .inr ⟨info, rfl, ?_, .inl rfl⟩
      rcases hst with ⟨-, rfl⟩ | ⟨infoAlias, -, -, rfl⟩ <;> rfl
  · rename_i infoAlias
    rw [Option.some.injEq, Prod.mk.injEq] at h
    obtain ⟨rfl, rfl⟩ := h
    unfold getUpstreamInfo
    split
    · rename_i info hinfo
      exact .inr ⟨info, rfl, rfl, .inr ⟨infoAlias, rfl, hinfo⟩⟩
    · exact .inl ⟨_, rfl, rfl⟩
  · cases h
    exact .inl ⟨_, rfl, rfl⟩

theorem upstream_eq_none {upstreamOrAlias : Option Message.UpstreamOrAlias}
    (h : st.upstream upstreamOrAlias = none) : st.lastIssuedUpstreamInfoAlias = some 4294967295 := by
  unfold upstream at h
  split at h
  · exact addUpstreamInfo_eq_none h
  · cases h
  · cases h

/-- For every state and every chunk: `convert_downstream_chunk` passes on what it has read and records it, or
changes nothing. -/
theorem convertDownstreamChunk_readsOrKeeps (st : DownstreamState) (omitEmptyChunk : Bool)
    (wireChunk : Message.DownstreamChunk) :
    st.ReadsOrKeeps wireChunk (st.convertDownstreamChunk omitEmptyChunk wireChunk) := by
  unfold convertDownstreamChunk
  split
  · rfl
  · rename_i streamChunk hs
    split
    · rfl
    · split
      · rfl
      · rename_i groups hgroups
        have hresolve := convertGroups_eq_ok hgroups
        cases hu : st.upstream wireChunk.upstreamOrAlias with
        | none => exact upstream_eq_none hu
        | some r =>
          obtain ⟨r, st'⟩ := r
          rcases upstream_cases hu with ⟨e, rfl, rfl⟩ | ⟨info, rfl, hresults, hupstream⟩
          · rfl
          · refine ⟨⟨⟨streamChunk, hs, rfl, hresolve⟩, hupstream⟩, ?_⟩
            rw [results_addSequenceNumber, hresults]

end Iscp.DownstreamState
