import Iscp.Lib.GroupBy
import Iscp.Upstream.Storage
import Mathlib.Algebra.GroupWithZero.Nat
import Mathlib.Data.List.Sort

/-!
# `UpstreamFlusher`

The counters and the buffer of `UpstreamInner.state`, and the flusher that turns the buffer into chunks.
`takeChunk` empties the buffer, groups what was in it and numbers the chunk; the iteration orders of its
two hash maps are parameters. What it computes is `takeChunk_eq`.
-/

namespace Iscp

/-- `State` of `upstream.rs`. -/
structure UpstreamState where
  dataIdAliases : BTreeMap DataId
  totalDataPoints : UInt64 := 0
  lastIssuedSequenceNumber : UInt32 := 0
  dataPointsBuffer : List DataPointGroup := []
  bufferPayloadSize : Nat := 0
deriving DecidableEq

def UpstreamState.SameCounts (a b : UpstreamState) : Prop :=
  a.lastIssuedSequenceNumber = b.lastIssuedSequenceNumber ∧ a.dataPointsBuffer = b.dataPointsBuffer

def payloadSize (dps : List DataPoint) : Nat := (dps.map fun dp => dp.payload.length).sum

/-- `data_points.sort_by_key(|dp| dp.elapsed_time)`, which is stable. -/
def sortByElapsedTime (dps : List DataPoint) : List DataPoint :=
  dps.insertionSort fun a b => a.elapsedTime ≤ b.elapsedTime

@[simp] theorem sortByElapsedTime_nil : sortByElapsedTime [] = [] := rfl

/-- The iteration orders of the hash maps of one `take_chunk`. -/
structure TakeOrder where
  callback : IterOrder (Sigma fun _ : DataId => List DataPoint)
  chunk : IterOrder (Sigma fun _ : Message.DataIdOrAlias => List DataPoint)

def TakeOrder.asIs : TakeOrder := ⟨.asIs, .asIs⟩

structure UpstreamFlusher where
  revDataIdAliases : HashMap DataId UInt32
  dataSize : UInt64
  storage : UpstreamStorage
deriving DecidableEq

namespace UpstreamFlusher

/-- The alias table is turned around in some order, and of several aliases the last one stays. -/
def new (config : UpstreamConfig) (dataIdAliases : BTreeMap DataId) (order : IterOrder (UInt32 × DataId)) :
    UpstreamFlusher where
  revDataIdAliases := (order dataIdAliases.toList).foldl (fun m e => m.insert e.2 e.1) ∅
  dataSize := 0
  storage := .new config

def dataIdOrAlias (f : UpstreamFlusher) (id : DataId) : Message.DataIdOrAlias :=
  match f.revDataIdAliases.lookup id with
  | some idAlias => .dataIdAlias idAlias
  | none => .dataId id

/-- The data points for the callback, by data id. -/
def callbackGroups (order : TakeOrder) (dpgs : List DataPointGroup) : List DataPointGroup :=
  (order.callback (GroupBy.group (·.dataId) (·.dataPoints) dpgs).entries).map fun e =>
    ⟨e.1, sortByElapsedTime e.2⟩

/-- The data points for the chunk, by data id or its alias. -/
def chunkGroups (order : TakeOrder) (f : UpstreamFlusher) (dpgs : List DataPointGroup) :
    List Message.DataPointGroup :=
  (order.chunk (GroupBy.group (fun dpg => f.dataIdOrAlias dpg.dataId) (·.dataPoints) dpgs).entries).map
    fun e => ⟨some e.1, sortByElapsedTime e.2⟩

/-- `dpg_callback` is built only for a configured callback, of which the storage has a copy. -/
def takeChunk (order : TakeOrder) (streamIdAlias : UInt32) (f : UpstreamFlusher) (s : UpstreamState) :
    Option (Message.UpstreamChunk × List DataPointGroup) × UpstreamFlusher × UpstreamState :=
  let dpgs := s.dataPointsBuffer
  let s := { s with dataPointsBuffer := [], bufferPayloadSize := 0 }
  if dpgs.isEmpty then (none, f, s)
  else
    let dpgCallback := if f.storage.sendDataPointsCallback then callbackGroups order dpgs else []
    let additionalDataPoints := (dpgs.map (·.dataPoints.length)).sum
    let size := (dpgs.map fun dpg => payloadSize dpg.dataPoints).sum
    let sequenceNumber := s.lastIssuedSequenceNumber + 1
    let chunk := ⟨streamIdAlias, f.chunkGroups order dpgs, sequenceNumber⟩
    (some (chunk, dpgCallback), { f with dataSize := f.dataSize + .ofNat size },
      { s with
        lastIssuedSequenceNumber := sequenceNumber
        totalDataPoints := s.totalDataPoints + .ofNat additionalDataPoints })

/-- What a call of `take_chunk` that found data took, the chunk it made of that, and the call of
`send_data_points_callback` that followed. -/
structure Taken where
  dpgs : List DataPointGroup
  chunk : Message.UpstreamChunk
  call : Option UpstreamChunk
deriving DecidableEq

/-- `take_chunk` followed by `add_chunk`, which is how `flush`, `after_resume` and
`process_remaining_data_points` use it. -/
def take (order : TakeOrder) (streamIdAlias : UInt32) (f : UpstreamFlusher) (s : UpstreamState) :
    Option Taken × UpstreamFlusher × UpstreamState :=
  match f.takeChunk order streamIdAlias s with
  | (some (chunk, dpg), f, s') =>
    let (storage, call) := f.storage.addChunk chunk dpg
    (some ⟨s.dataPointsBuffer, chunk, call⟩, { f with storage := storage }, s')
  | (none, f, s') => (none, f, s')

def processAck (f : UpstreamFlusher) (ack : Message.UpstreamChunkAck) :
    UpstreamFlusher × List UpstreamChunkResult :=
  let (storage, calls) := f.storage.processAck ack
  ({ f with storage := storage }, calls)

/-! ### What a take does -/

variable {order : TakeOrder} {streamIdAlias : UInt32} {f f' : UpstreamFlusher} {s s' : UpstreamState}
  {t : Taken}

/-- The chunk carries exactly the data points of `dpgs`: under each data id or alias those written for
it, each as often as written, sorted by time. -/
def Carries (f : UpstreamFlusher) (chunk : Message.UpstreamChunk) (dpgs : List DataPointGroup) : Prop :=
  (chunk.streamChunk.dataPointGroups.map (·.dataIdOrAlias)).Nodup ∧
    ∀ k, GroupBy.valuesAt (·.dataIdOrAlias) (·.dataPoints) (some k) chunk.streamChunk.dataPointGroups =
      sortByElapsedTime (GroupBy.valuesAt (fun dpg => f.dataIdOrAlias dpg.dataId) (·.dataPoints) k dpgs)

theorem carries_chunkGroups (dpgs : List DataPointGroup) (n : UInt32) :
    f.Carries ⟨streamIdAlias, f.chunkGroups order dpgs, n⟩ dpgs := by
  refine ⟨?_, fun k => ?_⟩
  · simpa [chunkGroups, Function.comp_def] using
      (GroupBy.iter_keys_nodup order.chunk).map (Option.some_injective _)
  · rw [← GroupBy.iter_valuesAt sortByElapsedTime sortByElapsedTime_nil order.chunk]
    simp [chunkGroups, GroupBy.valuesAt, List.filter_map, List.flatMap_map, Function.comp_def]

/-- The specification of a take that finds data. -/
structure Takes (streamIdAlias : UInt32) (f : UpstreamFlusher) (s : UpstreamState) (t : Taken)
    (f' : UpstreamFlusher) (s' : UpstreamState) : Prop where
  dpgs : t.dpgs = s.dataPointsBuffer
  nonempty : s.dataPointsBuffer ≠ []
  streamIdAlias : t.chunk.streamIdAlias = streamIdAlias
  sequenceNumber : t.chunk.sequenceNumber = s.lastIssuedSequenceNumber + 1
  carries : f.Carries t.chunk t.dpgs
  isReliable : f'.storage.isReliable = f.storage.isReliable
  chunks : f'.storage.chunks = if f.storage.isReliable then
    f.storage.chunks.insert t.chunk.sequenceNumber t.chunk else f.storage.chunks
  rev : f'.revDataIdAliases = f.revDataIdAliases
  buffer : s'.dataPointsBuffer = []
  lastIssued : s'.lastIssuedSequenceNumber = t.chunk.sequenceNumber

theorem take_of_nil (h : s.dataPointsBuffer = []) :
    f.take order streamIdAlias s = (none, f, { s with bufferPayloadSize := 0 }) := by
  simp [take, takeChunk, h]

theorem take_of_ne_nil (order : TakeOrder) (streamIdAlias : UInt32) (f : UpstreamFlusher)
    (h : s.dataPointsBuffer ≠ []) :
    ∃ t f' s', f.take order streamIdAlias s = (some t, f', s') ∧ f.Takes streamIdAlias s t f' s' := by
  simp only [take, takeChunk, List.isEmpty_iff, h, ↓reduceIte]
  refine ⟨_, _, _, rfl, rfl, h, rfl, rfl, carries_chunkGroups _ _, ?_, ?_, rfl, rfl, rfl⟩
  · simp only [UpstreamStorage.isReliable_addChunk]
  · simp only [UpstreamStorage.chunks_addChunk]

theorem take_eq_none (h : f.take order streamIdAlias s = (none, f', s')) :
    s.dataPointsBuffer = [] ∧ f' = f ∧ s' = { s with bufferPayloadSize := 0 } := by
  by_cases hb : s.dataPointsBuffer = []
  · rw [take_of_nil hb] at h
    obtain ⟨-, rfl, rfl⟩ : True ∧ f = f' ∧ { s with bufferPayloadSize := 0 } = s' := by simpa using h
    exact ⟨hb, rfl, rfl⟩
  · obtain ⟨t, f₁, s₁, ht, -⟩ := take_of_ne_nil order streamIdAlias f hb
    cases ht.symm.trans h

theorem take_eq_some (h : f.take order streamIdAlias s = (some t, f', s')) :
    f.Takes streamIdAlias s t f' s' := by
  by_cases hb : s.dataPointsBuffer = []
  · cases (take_of_nil hb).symm.trans h
  · obtain ⟨t, f₁, s₁, ht, hs⟩ := take_of_ne_nil order streamIdAlias f hb
    cases ht.symm.trans h
    exact hs

end UpstreamFlusher
end Iscp
