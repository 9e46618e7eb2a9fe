import Iscp.Upstream.Points

/-!
# What `take_chunk` sends for a buffer

`take_chunk` groups the buffer twice: by data id for the callback, and by data id or alias for the chunk,
with the table of aliases turned around. Whichever of several aliases of a data id stays in the turned
table, it stands for that data id alone, so both groupings are the same.
-/

namespace Iscp.UpstreamFlusher

variable {f : UpstreamFlusher} {s : UpstreamState} {order : TakeOrder} {dpgs : List DataPointGroup}

/-! ### Resolving aliases -/

/-- For each data id that was written, all points written for it. -/
def regrouped (dpgs : List DataPointGroup) : List DataPointGroup :=
  (dpgs.map (·.dataId)).dedup.map fun id =>
    ⟨id, sortByElapsedTime (GroupBy.valuesAt (·.dataId) (·.dataPoints) id dpgs)⟩

/-- Sorting by time keeps the order of the points of one time. -/
theorem sortByElapsedTime_stable (dps : List DataPoint) :
    (sortByElapsedTime dps).Pairwise (fun a b => a.elapsedTime ≤ b.elapsedTime) ∧
      ∀ t, (sortByElapsedTime dps).filter (·.elapsedTime = t) = dps.filter (·.elapsedTime = t) := by
  have : Std.Total fun a b : DataPoint => a.elapsedTime ≤ b.elapsedTime :=
    ⟨fun a b => Int.le_total _ _⟩
  have : IsTrans DataPoint fun a b => a.elapsedTime ≤ b.elapsedTime := ⟨fun _ _ _ => Int.le_trans⟩
  refine ⟨List.pairwise_insertionSort _ dps, fun t => ?_⟩
  have hall : ∀ a ∈ dps.filter (·.elapsedTime = t), a.elapsedTime = t := fun a ha => by
    simpa using (List.mem_filter.1 ha).2
  have hpair : (dps.filter (·.elapsedTime = t)).Pairwise fun a b => a.elapsedTime ≤ b.elapsedTime :=
    List.pairwise_of_forall_mem_list fun a ha b hb => (hall a ha).trans_le (hall b hb).ge
  have hsub := (List.sublist_insertionSort hpair List.filter_sublist).filter (·.elapsedTime = t)
  simp only [List.filter_filter, Bool.and_self] at hsub
  exact (hsub.eq_of_length ((sortByElapsedTime_perm dps).filter _).length_eq.symm).symm

/-- The turned table gives back entries of the table. -/
theorem lookup_turned {es : List (UInt32 × DataId)} {m : HashMap DataId UInt32} {id : DataId}
    {idAlias : UInt32} (h : (es.foldl (fun m e => m.insert e.2 e.1) m).lookup id = some idAlias) :
    (idAlias, id) ∈ es ∨ m.lookup id = some idAlias := by
  induction es generalizing m with
  | nil => exact .inr h
  | cons e es ih =>
    rcases ih h with hes | hm
    · exact .inl (List.mem_cons_of_mem e hes)
    · by_cases hid : id = e.2
      · subst hid
        rw [AList.lookup_insert, Option.some.injEq] at hm
        subst hm
        exact .inl List.mem_cons_self
      · rw [AList.lookup_insert_ne hid] at hm
        exact .inr hm

/-- A flusher writes every data id so that the receiver reads it. -/
def Resolvable (f : UpstreamFlusher) (dataIdAliases : BTreeMap DataId) : Prop :=
  ∀ id, (f.dataIdOrAlias id).resolve dataIdAliases = some id

theorem resolvable_new (config : UpstreamConfig) (turn : IterOrder (UInt32 × DataId))
    {dataIdAliases : BTreeMap DataId}
    (hf : f.revDataIdAliases = (new config dataIdAliases turn).revDataIdAliases) :
    f.Resolvable dataIdAliases := by
  intro id
  rw [dataIdOrAlias, hf]
  split
  · rename_i idAlias h
    rcases lookup_turned h with hmem | hnil
    · exact Std.ExtTreeMap.mem_toList_iff_getElem?_eq_some.1 ((turn.perm _).mem_iff.1 hmem)
    · simp at hnil
  · rfl

theorem Resolvable.injective {dataIdAliases : BTreeMap DataId} (h : f.Resolvable dataIdAliases) :
    Function.Injective f.dataIdOrAlias := by
  intro a b hab
  have hb := h b
  rw [← hab, h a] at hb
  exact Option.some.inj hb

/-! ### The two groupings -/

theorem callbackGroups_perm : (callbackGroups order dpgs).Perm (regrouped dpgs) := by
  have h := ((order.callback.perm _).trans (GroupBy.group_entries_perm
    (·.dataId) (·.dataPoints) dpgs)).map fun e =>
      (⟨e.1, sortByElapsedTime e.2⟩ : DataPointGroup)
  rwa [List.map_map] at h

theorem chunkGroups_perm {dataIdAliases : BTreeMap DataId} (h : f.Resolvable dataIdAliases) :
    ((f.chunkGroups order dpgs).map (·.resolve dataIdAliases)).Perm ((regrouped dpgs).map some) := by
  have hp := (order.chunk.perm _).trans (GroupBy.group_entries_perm
    (fun dpg => f.dataIdOrAlias dpg.dataId) (·.dataPoints) dpgs)
  have hkeys : (dpgs.map fun dpg => f.dataIdOrAlias dpg.dataId).dedup =
      (dpgs.map (·.dataId)).dedup.map f.dataIdOrAlias := by
    rw [← List.dedup_map_of_injective h.injective, List.map_map]
    rfl
  have hvals (id : DataId) : GroupBy.valuesAt (fun dpg => f.dataIdOrAlias dpg.dataId) (·.dataPoints)
      (f.dataIdOrAlias id) dpgs = GroupBy.valuesAt (·.dataId) (·.dataPoints) id dpgs := by
    simp only [GroupBy.valuesAt, h.injective.eq_iff]
  rw [hkeys, List.map_map] at hp
  rw [chunkGroups, List.map_map]
  refine (hp.map _).trans (.of_eq ?_)
  rw [regrouped, List.map_map, List.map_map]
  refine List.map_congr_left fun id _ => ?_
  simp [Message.DataPointGroup.resolve, hvals, h id]

/-! ### The take -/

/-- The chunk and the groups for the callback that `take_chunk` makes of the buffer of `s`. -/
structure Regroups (f : UpstreamFlusher) (s : UpstreamState) (chunk : Message.UpstreamChunk)
    (dpgs : List DataPointGroup) (s' : UpstreamState) : Prop where
  nonempty : s.dataPointsBuffer ≠ []
  keys : (chunk.streamChunk.dataPointGroups.map (·.dataIdOrAlias)).Nodup
  groups : (chunk.streamChunk.dataPointGroups.map (·.resolve s.dataIdAliases)).Perm
    ((regrouped s.dataPointsBuffer).map some)
  call : f.storage.sendDataPointsCallback = true → ∃ call, (f.storage.addChunk chunk dpgs).2 = some call ∧
    call.dataPointGroups.Perm (regrouped s.dataPointsBuffer)
  buffer : s'.dataPointsBuffer = [] ∧ s'.bufferPayloadSize = 0
  total : s'.totalDataPoints = s.totalDataPoints + .ofNat (points s.dataPointsBuffer).length

/-- `take_chunk` regroups a buffer with groups in it, and does nothing about one without. -/
def TakesBuffer (f : UpstreamFlusher) (s : UpstreamState) :
    Option (Message.UpstreamChunk × List DataPointGroup) × UpstreamFlusher × UpstreamState → Prop
  | (some (chunk, dpgs), _, s') => f.Regroups s chunk dpgs s'
  | (none, f', s') => s.dataPointsBuffer = [] ∧ f' = f ∧ s' = { s with bufferPayloadSize := 0 }

/-- For every buffer and every table of aliases: what `take_chunk` issues are the points written, by data
id and sorted by time. -/
theorem takeChunk_regroups (config : UpstreamConfig) (turn : IterOrder (UInt32 × DataId))
    (order : TakeOrder) (streamIdAlias : UInt32) (dataSize : UInt64) (storage : UpstreamStorage)
    (s : UpstreamState) :
    TakesBuffer { new config s.dataIdAliases turn with dataSize, storage } s
      (takeChunk order streamIdAlias { new config s.dataIdAliases turn with dataSize, storage } s) := by
  have hres : Resolvable { new config s.dataIdAliases turn with dataSize, storage } s.dataIdAliases :=
    resolvable_new config turn rfl
  generalize { new config s.dataIdAliases turn with dataSize, storage } = f at hres
  by_cases hb : s.dataPointsBuffer = []
  · simp only [takeChunk, List.isEmpty_iff, hb, ↓reduceIte]
    exact ⟨hb, rfl, by rw [← hb]⟩
  · simp only [takeChunk, List.isEmpty_iff, hb, ↓reduceIte]
    refine ⟨hb, ?_, chunkGroups_perm hres, ?_, ⟨rfl, rfl⟩, ?_⟩
    · simpa [chunkGroups, Function.comp_def] using
        (GroupBy.iter_keys_nodup order.chunk).map (Option.some_injective _)
    · intro hcall
      simp only [UpstreamStorage.addChunk, hcall, if_true]
      exact ⟨_, rfl, callbackGroups_perm⟩
    · rw [length_points]

/-- An empty buffer gives no chunk. -/
theorem takeChunk_empty : ¬ ∀ (config : UpstreamConfig) (order : TakeOrder) (streamIdAlias : UInt32)
    (s : UpstreamState), ∃ r f' s',
      takeChunk order streamIdAlias (new config s.dataIdAliases .asIs) s = (some r, f', s') := by
  intro h
  obtain ⟨r, f', s', hr⟩ := h {} .asIs 0 { dataIdAliases := ∅ }
  cases hr

end Iscp.UpstreamFlusher
