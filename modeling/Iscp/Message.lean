import Std.Data.ExtTreeMap.Lemmas

/-!
# Messages

The wire messages the stream code builds and reads, with the fields it uses. `BTreeMap` is an ordered
map; a `HashMap` with `u32` keys is one too wherever its iteration order is not observed. Byte strings
are lists of bytes, `u32` and `u64` are Lean's own fixed-width types, and so wrap as they do.
-/

namespace Iscp

/-- `std::collections::BTreeMap` with `u32` keys. -/
abbrev BTreeMap (β : Type) := Std.ExtTreeMap UInt32 β compare

abbrev Bytes := List UInt8

namespace BTreeMap

variable {β : Type}

theorem foldr_values (t : Std.DTreeMap.Internal.Impl UInt32 fun _ => β) (es : List (UInt32 × β)) :
    t.foldr (fun _ b l => b :: l) (es.map (·.2)) = (t.foldr (fun n b l => (n, b) :: l) es).map (·.2) := by
  induction t generalizing es with
  | leaf => rfl
  | inner size n b l r ihl ihr =>
    show l.foldr _ (b :: r.foldr _ (es.map (·.2))) = (l.foldr _ ((n, b) :: r.foldr _ es)).map (·.2)
    rw [ihr]
    exact ihl ((n, b) :: r.foldr (fun n b l => (n, b) :: l) es)

theorem values_eq (t : BTreeMap β) : t.values = t.toList.map (·.2) := by
  obtain ⟨⟨t⟩⟩ := t
  induction t using Quotient.inductionOn with
  | h t => exact foldr_values t.inner []

theorem mem_values {t : BTreeMap β} {b : β} : b ∈ t.values ↔ ∃ n : UInt32, t[n]? = some b := by
  rw [values_eq]
  simp only [List.mem_map, Prod.exists, exists_eq_right, Std.ExtTreeMap.mem_toList_iff_getElem?_eq_some]

end BTreeMap

theorem isOk_iff {ε α : Type} {r : Except ε α} : r.isOk ↔ ∃ a, r = .ok a := by
  cases r with
  | error e => exact ⟨nofun, nofun⟩
  | ok a => exact ⟨fun _ => ⟨a, rfl⟩, fun _ => rfl⟩

/-- A `uuid::Uuid`: sixteen bytes. -/
abbrev Uuid := { bytes : Bytes // bytes.length = 16 }

/-- `Uuid::from_slice`. -/
def Uuid.fromSlice (bytes : Bytes) : Option Uuid :=
  if h : bytes.length = 16 then some ⟨bytes, h⟩ else none

@[simp] theorem Uuid.fromSlice_val (u : Uuid) : Uuid.fromSlice u.val = some u := by
  simp [Uuid.fromSlice, u.property]

inductive QoS
  | unreliable
  | reliable
  | partially
deriving DecidableEq, Repr

inductive ResultCode
  | succeeded
  | incompatibleVersion
  | maximumDataIdAlias
  | maximumUpstreamAlias
  | unspecifiedError
  | noNodeId
  | authFailed
  | connectTimeout
  | malformedMessage
  | protocolError
  | ackTimeout
  | invalidPayload
  | invalidDataId
  | invalidDataIdAlias
  | invalidDataFilter
  | streamNotFound
  | resumeRequestConflict
  | processFailed
  | desiredQosNotSupported
  | pingTimeout
  | tooLargeMessageSize
  | tooManyDataIdAliases
  | tooManyStreams
  | tooLongAckInterval
  | tooManyDownstreamFilters
  | tooManyDataFilters
  | tooLongExpiryInterval
  | tooLongPingTimeout
  | tooShortPingInterval
  | tooShortPingTimeout
  | rateLimitReached
  | tooLargeFeedId
  | tooManyTargetNodes
  | feedNotFound
  | invalidResumeToken
  | nodeIdMismatch
  | sessionNotFound
  | sessionAlreadyClosed
  | sessionCannotClosed
deriving DecidableEq, Repr

namespace ResultCode

/-- `i32 as ResultCode` of the protobuf enumeration. -/
def ofI32 : Int → Option ResultCode
  | 0 => some succeeded
  | 1 => some incompatibleVersion
  | 2 => some maximumDataIdAlias
  | 3 => some maximumUpstreamAlias
  | 64 => some unspecifiedError
  | 65 => some noNodeId
  | 66 => some authFailed
  | 67 => some connectTimeout
  | 68 => some malformedMessage
  | 69 => some protocolError
  | 70 => some ackTimeout
  | 71 => some invalidPayload
  | 72 => some invalidDataId
  | 73 => some invalidDataIdAlias
  | 74 => some invalidDataFilter
  | 75 => some streamNotFound
  | 76 => some resumeRequestConflict
  | 77 => some processFailed
  | 78 => some desiredQosNotSupported
  | 79 => some pingTimeout
  | 80 => some tooLargeMessageSize
  | 81 => some tooManyDataIdAliases
  | 82 => some tooManyStreams
  | 83 => some tooLongAckInterval
  | 84 => some tooManyDownstreamFilters
  | 85 => some tooManyDataFilters
  | 86 => some tooLongExpiryInterval
  | 87 => some tooLongPingTimeout
  | 88 => some tooShortPingInterval
  | 89 => some tooShortPingTimeout
  | 90 => some rateLimitReached
  | 91 => some tooLargeFeedId
  | 92 => some tooManyTargetNodes
  | 93 => some feedNotFound
  | 94 => some invalidResumeToken
  | 128 => some nodeIdMismatch
  | 129 => some sessionNotFound
  | 130 => some sessionAlreadyClosed
  | 131 => some sessionCannotClosed
  | _ => none

end ResultCode

structure DataId where
  name : String
  type_ : String
deriving DecidableEq, Repr

structure DataPoint where
  elapsedTime : Int
  payload : Bytes
deriving DecidableEq, Repr

/-- `iscp::DataPointGroup`: the data points of one data id, as the application writes and reads them. -/
structure DataPointGroup where
  dataId : DataId
  dataPoints : List DataPoint
deriving DecidableEq, Repr

/-- `iscp::UpstreamInfo`. -/
structure UpstreamInfo where
  sessionId : String
  streamId : Uuid
  sourceNodeId : String
deriving DecidableEq

/-- `iscp::DownstreamChunk`, the chunk as the application reads it. -/
structure DownstreamChunk where
  sequenceNumber : UInt32
  dataPointGroups : List DataPointGroup
  upstream : UpstreamInfo
deriving DecidableEq

namespace Message

inductive DataIdOrAlias
  | dataId (id : DataId)
  | dataIdAlias (idAlias : UInt32)
deriving DecidableEq, Repr

/-- The data id that a party with the table `dataIdAliases` reads. -/
def DataIdOrAlias.resolve (dataIdAliases : BTreeMap DataId) : DataIdOrAlias → Option DataId
  | dataId id => some id
  | dataIdAlias idAlias => dataIdAliases[idAlias]?

structure DataPointGroup where
  dataIdOrAlias : Option DataIdOrAlias
  dataPoints : List DataPoint
deriving DecidableEq, Repr

def DataPointGroup.resolve (dataIdAliases : BTreeMap DataId) (dpg : DataPointGroup) :
    Option Iscp.DataPointGroup :=
  (dpg.dataIdOrAlias.bind (·.resolve dataIdAliases)).map fun id => ⟨id, dpg.dataPoints⟩

structure StreamChunk where
  dataPointGroups : List DataPointGroup
  sequenceNumber : UInt32
deriving DecidableEq, Repr

/-- `take_chunk` builds every chunk with its `stream_chunk` filled, so the `Option` of the wire type
is left out here. -/
structure UpstreamChunk where
  streamIdAlias : UInt32
  streamChunk : StreamChunk
deriving DecidableEq, Repr

def UpstreamChunk.sequenceNumber (c : UpstreamChunk) : UInt32 := c.streamChunk.sequenceNumber

structure UpstreamChunkResult where
  sequenceNumber : UInt32
  resultCode : Int
  resultString : String
deriving DecidableEq, Repr

structure UpstreamChunkAck where
  streamIdAlias : UInt32
  results : List UpstreamChunkResult
deriving DecidableEq, Repr

/-- The wire's `UpstreamInfo`, whose stream id is any byte string. -/
structure UpstreamInfo where
  sessionId : String
  streamId : Bytes
  sourceNodeId : String
deriving DecidableEq, Repr

inductive UpstreamOrAlias
  | upstreamInfo (info : UpstreamInfo)
  | upstreamAlias (infoAlias : UInt32)
deriving DecidableEq, Repr

structure DownstreamChunk where
  streamIdAlias : UInt32
  streamChunk : Option StreamChunk
  upstreamOrAlias : Option UpstreamOrAlias
deriving DecidableEq, Repr

structure DownstreamChunkResult where
  streamIdOfUpstream : Bytes
  sequenceNumberInUpstream : UInt32
  resultCode : Int
  resultString : String
deriving DecidableEq, Repr

structure DownstreamChunkAck where
  streamIdAlias : UInt32
  ackId : UInt32
  results : List DownstreamChunkResult
  upstreamAliases : BTreeMap UpstreamInfo
deriving DecidableEq

structure DownstreamChunkAckComplete where
  streamIdAlias : UInt32
  ackId : UInt32
  resultCode : Int
  resultString : String
deriving DecidableEq, Repr

structure DownstreamCall where
  callId : String
  requestCallId : String
  sourceNodeId : String
  name : String
  type_ : String
  payload : Bytes
deriving DecidableEq, Repr

end Message
end Iscp
