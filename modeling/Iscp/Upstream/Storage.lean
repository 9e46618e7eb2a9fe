import Iscp.Config
import Iscp.Error

/-!
# `UpstreamStorage`

The storage of `storage.rs`. The futures that the callbacks return are awaited one after the other while
nothing else may touch the storage, so one acknowledgement is one step; the calls made are returned.
-/

namespace Iscp

/-- `iscp::UpstreamChunk`, the chunk as the flush callback gets it. -/
structure UpstreamChunk where
  sequenceNumber : UInt32
  dataPointGroups : List DataPointGroup
deriving DecidableEq, Repr

/-- `iscp::UpstreamChunkResult`, an acknowledged chunk as the ack callback gets it. -/
structure UpstreamChunkResult where
  sequenceNumber : UInt32
  resultCode : ResultCode
  resultString : String
deriving DecidableEq, Repr

def convertUpstreamChunkResult (r : Message.UpstreamChunkResult) : Except Error UpstreamChunkResult :=
  match ResultCode.ofI32 r.resultCode with
  | some code => .ok ⟨r.sequenceNumber, code, r.resultString⟩
  | none => .error (.invalidValue "invalid result_code")

structure UpstreamStorage where
  isReliable : Bool
  sendDataPointsCallback : Bool
  receiveAckCallback : Bool
  chunks : BTreeMap Message.UpstreamChunk
  lastReceivedSequenceNumber : Option UInt32
deriving DecidableEq

namespace UpstreamStorage

def new (config : UpstreamConfig) : UpstreamStorage where
  isReliable := config.qos = .reliable
  sendDataPointsCallback := config.sendDataPointsCallback
  receiveAckCallback := config.receiveAckCallback
  chunks := ∅
  lastReceivedSequenceNumber := none

def addChunk (st : UpstreamStorage) (chunk : Message.UpstreamChunk) (dpgs : List DataPointGroup) :
    UpstreamStorage × Option UpstreamChunk :=
  let n := chunk.sequenceNumber
  (if st.isReliable then { st with chunks := st.chunks.insert n chunk } else st,
    if st.sendDataPointsCallback then some ⟨n, dpgs⟩ else none)

def processResult (st : UpstreamStorage) (r : Message.UpstreamChunkResult) :
    UpstreamStorage × Option UpstreamChunkResult :=
  let n := r.sequenceNumber
  let last := match st.lastReceivedSequenceNumber with
    | none => n
    | some last => if last < n then n else last
  let st := { st with lastReceivedSequenceNumber := some last }
  let st := if st.isReliable then { st with chunks := st.chunks.erase n } else st
  (st, if st.receiveAckCallback then (convertUpstreamChunkResult r).toOption else none)

/-- Processes the results of an ack, in their order. -/
def processResults (st : UpstreamStorage) :
    List Message.UpstreamChunkResult → UpstreamStorage × List UpstreamChunkResult
  | [] => (st, [])
  | r :: rs =>
    let (st, call) := st.processResult r
    let (st, calls) := st.processResults rs
    (st, call.toList ++ calls)

def processAck (st : UpstreamStorage) (ack : Message.UpstreamChunkAck) :
    UpstreamStorage × List UpstreamChunkResult :=
  st.processResults ack.results

/-- `self.chunks.values()`: the chunks in the order of their numbers. -/
def iterChunks (st : UpstreamStorage) : List Message.UpstreamChunk := st.chunks.toList.map (·.2)

variable {st : UpstreamStorage} {chunk : Message.UpstreamChunk} {dpgs : List DataPointGroup}
  {config : UpstreamConfig} {ack : Message.UpstreamChunkAck} {n : UInt32}

@[simp] theorem isReliable_addChunk : (st.addChunk chunk dpgs).1.isReliable = st.isReliable := by
  simp only [addChunk]; split <;> rfl

theorem chunks_addChunk : (st.addChunk chunk dpgs).1.chunks =
    if st.isReliable then st.chunks.insert chunk.sequenceNumber chunk else st.chunks := by
  simp only [addChunk]; split <;> rfl

@[simp] theorem isReliable_processResult (r : Message.UpstreamChunkResult) :
    (st.processResult r).1.isReliable = st.isReliable := by
  simp only [processResult]; split <;> rfl

theorem chunks_processResult (h : st.isReliable) (r : Message.UpstreamChunkResult) :
    (st.processResult r).1.chunks = st.chunks.erase r.sequenceNumber := by
  simp [processResult, h]

@[simp] theorem isReliable_processResults (rs : List Message.UpstreamChunkResult) :
    (st.processResults rs).1.isReliable = st.isReliable := by
  induction rs generalizing st with
  | nil => rfl
  | cons r rs ih => simp [processResults, ih]

@[simp] theorem isReliable_processAck : (st.processAck ack).1.isReliable = st.isReliable :=
  isReliable_processResults _

/-- An ack takes away the chunks it names, and no others. -/
theorem getElem?_processResults (h : st.isReliable) (rs : List Message.UpstreamChunkResult) :
    (st.processResults rs).1.chunks[n]? =
      if n ∈ rs.map (·.sequenceNumber) then none else st.chunks[n]? := by
  induction rs generalizing st with
  | nil => simp [processResults]
  | cons r rs ih =>
    rw [processResults, ih (by simpa using h), chunks_processResult h,
      Std.ExtTreeMap.getElem?_erase]
    simp only [Std.compare_eq_iff_eq, List.map_cons, List.mem_cons]
    by_cases hr : r.sequenceNumber = n
    · simp [hr]
    · simp [hr, Ne.symm hr]

theorem getElem?_processAck (h : st.isReliable) :
    (st.processAck ack).1.chunks[n]? =
      if n ∈ ack.results.map (·.sequenceNumber) then none else st.chunks[n]? :=
  getElem?_processResults h _

/-! ### Iterating over the chunks -/

/-- The chunks come out in the order of their numbers, if each lies at its own. -/
theorem iterChunks_sorted (hk : ∀ (n : UInt32) chunk, st.chunks[n]? = some chunk →
    chunk.sequenceNumber = n) :
    st.iterChunks.Pairwise fun a b => a.sequenceNumber < b.sequenceNumber := by
  rw [iterChunks, List.pairwise_map]
  refine (Std.ExtTreeMap.ordered_keys_toList (t := st.chunks)).imp_of_mem fun ha hb hlt => ?_
  rw [hk _ _ (Std.ExtTreeMap.mem_toList_iff_getElem?_eq_some.1 ha),
    hk _ _ (Std.ExtTreeMap.mem_toList_iff_getElem?_eq_some.1 hb)]
  exact Std.compare_eq_lt.1 hlt

theorem mem_iterChunks : chunk ∈ st.iterChunks ↔ ∃ n : UInt32, st.chunks[n]? = some chunk := by
  simp only [iterChunks, List.mem_map, Prod.exists, exists_eq_right,
    Std.ExtTreeMap.mem_toList_iff_getElem?_eq_some]

end UpstreamStorage
end Iscp
