import Iscp.Error

/-!
# Metadata

The conversions of `misc.rs` and, with them, `ReceivableMetadata::from_prost`: how a downstream reads
the metadata it is sent; and `convert_to_upstream_metadata`, which makes the request that sends it. A
`SystemTime` is a number of nanoseconds around the epoch, a `Duration` a number of nanoseconds.
-/

namespace Iscp

abbrev SystemTime := Int

abbrev Duration := Nat

/-- The text after the colon is that of the `uuid` crate. -/
def parseStreamId (bytes : Bytes) : Except Error Uuid :=
  match Uuid.fromSlice bytes with
  | some streamId => .ok streamId
  | none => .error (.invalidValue
      s!"invalid bytes for stream id: invalid length: expected 16 bytes, found {bytes.length}")

/-- The addition to the epoch does not fail, since a `SystemTime` has room for every `i64`. -/
def unixEpochToSystemTime (nsecs : Int64) : Except Error SystemTime :=
  if nsecs.toInt < 0 then .error (.invalidValue "server time overflow") else .ok nsecs.toInt

def fromQosI32 : Int → Except Error QoS
  | 0 => .ok .unreliable
  | 1 => .ok .reliable
  | 2 => .ok .partially
  | qos => .error (.invalidValue s!"unknown enumeration value {qos}")

@[simp] theorem parseStreamId_val (u : Uuid) : parseStreamId u.val = .ok u := by
  simp [parseStreamId]

theorem parseStreamId_eq_ok {bytes : Bytes} {u : Uuid} (h : parseStreamId bytes = .ok u) :
    bytes = u.val := by
  unfold parseStreamId Uuid.fromSlice at h
  split at h
  · rename_i hs
    split at hs
    · cases h
      cases hs
      rfl
    · cases hs
  · cases h

namespace Message

structure DataFilter where
  name : String
  type_ : String
deriving DecidableEq

structure DownstreamFilter where
  sourceNodeId : String
  dataFilters : List DataFilter
deriving DecidableEq

/-- `downstream_metadata::Metadata`. -/
inductive Metadata
  | baseTime (sessionId name : String) (priority : UInt32) (elapsedTime : UInt64) (baseTime : Int64)
  | upstreamOpen (streamId : Bytes) (sessionId : String) (qos : Int)
  | upstreamAbnormalClose (streamId : Bytes) (sessionId : String)
  | upstreamResume (streamId : Bytes) (sessionId : String) (qos : Int)
  | upstreamNormalClose (streamId : Bytes) (sessionId : String) (totalDataPoints : UInt64)
      (finalSequenceNumber : UInt32)
  | downstreamOpen (streamId : Bytes) (downstreamFilters : List DownstreamFilter) (qos : Int)
  | downstreamAbnormalClose (streamId : Bytes)
  | downstreamResume (streamId : Bytes) (downstreamFilters : List DownstreamFilter) (qos : Int)
  | downstreamNormalClose (streamId : Bytes)
deriving DecidableEq

structure DownstreamMetadata where
  requestId : UInt32
  streamIdAlias : UInt32
  sourceNodeId : String
  metadata : Option Metadata
deriving DecidableEq

structure DownstreamMetadataAck where
  requestId : UInt32
  resultCode : Int
  resultString : String
deriving DecidableEq

end Message

inductive ReceivableMetadata
  | baseTime (sessionId name : String) (priority : UInt32) (elapsedTime : Duration)
      (baseTime : SystemTime)
  | upstreamOpen (streamId : Uuid) (sessionId : String) (qos : QoS)
  | upstreamAbnormalClose (streamId : Uuid) (sessionId : String)
  | upstreamResume (streamId : Uuid) (sessionId : String) (qos : QoS)
  | upstreamNormalClose (streamId : Uuid) (sessionId : String) (totalDataPoints : UInt64)
      (finalSequenceNumber : UInt32)
  | downstreamOpen (streamId : Uuid) (downstreamFilters : List Message.DownstreamFilter) (qos : QoS)
  | downstreamAbnormalClose (streamId : Uuid)
  | downstreamResume (streamId : Uuid) (downstreamFilters : List Message.DownstreamFilter) (qos : QoS)
  | downstreamNormalClose (streamId : Uuid)
deriving DecidableEq

def ReceivableMetadata.fromProst : Message.Metadata → Except Error ReceivableMetadata
  | .baseTime sessionId name priority elapsedTime nsecs => do
    return .baseTime sessionId name priority elapsedTime.toNat (← unixEpochToSystemTime nsecs)
  | .upstreamOpen streamId sessionId qos => do
    return .upstreamOpen (← parseStreamId streamId) sessionId (← fromQosI32 qos)
  | .upstreamAbnormalClose streamId sessionId => do
    return .upstreamAbnormalClose (← parseStreamId streamId) sessionId
  | .upstreamResume streamId sessionId qos => do
    return .upstreamResume (← parseStreamId streamId) sessionId (← fromQosI32 qos)
  | .upstreamNormalClose streamId sessionId totalDataPoints finalSequenceNumber => do
    return .upstreamNormalClose (← parseStreamId streamId) sessionId totalDataPoints finalSequenceNumber
  | .downstreamOpen streamId downstreamFilters qos => do
    return .downstreamOpen (← parseStreamId streamId) downstreamFilters (← fromQosI32 qos)
  | .downstreamAbnormalClose streamId => do
    return .downstreamAbnormalClose (← parseStreamId streamId)
  | .downstreamResume streamId downstreamFilters qos => do
    return .downstreamResume (← parseStreamId streamId) downstreamFilters (← fromQosI32 qos)
  | .downstreamNormalClose streamId => do
    return .downstreamNormalClose (← parseStreamId streamId)

/-- `iscp::DownstreamMetadata`. -/
structure DownstreamMetadata where
  sourceNodeId : String
  metadata : ReceivableMetadata
deriving DecidableEq

def convertDownstreamMetadata (metadata : Message.DownstreamMetadata) :
    Except Error (DownstreamMetadata × Message.DownstreamMetadataAck) :=
  match metadata.metadata with
  | none => .error (.invalidValue "invalid metadata")
  | some m => do
    let m ← ReceivableMetadata.fromProst m
    return (⟨metadata.sourceNodeId, m⟩, ⟨metadata.requestId, 0, "OK"⟩)

/-- What is acknowledged is the request that was converted, and it is acknowledged as succeeded. -/
theorem convertDownstreamMetadata_ack {metadata : Message.DownstreamMetadata} {m : DownstreamMetadata}
    {ack : Message.DownstreamMetadataAck} (h : convertDownstreamMetadata metadata = .ok (m, ack)) :
    ack.requestId = metadata.requestId ∧ ResultCode.ofI32 ack.resultCode = some .succeeded := by
  unfold convertDownstreamMetadata at h
  split at h
  · cases h
  · rename_i m' _
    cases hm : ReceivableMetadata.fromProst m' with
    | error e => simp [hm, bind, Except.bind] at h
    | ok m =>
      simp only [hm, bind, Except.bind, pure, Except.pure, Except.ok.injEq, Prod.mk.injEq] at h
      obtain ⟨-, rfl⟩ := h
      exact ⟨rfl, rfl⟩

/-! ### Sending -/

/-- `iscp::BaseTime`. -/
structure BaseTime where
  sessionId : String
  name : String
  priority : UInt32
  elapsedTime : Duration
  baseTime : SystemTime
deriving DecidableEq

inductive SendableMetadata
  | baseTime (baseTime : BaseTime)

def ReceivableMetadata.ofBaseTime (m : BaseTime) : ReceivableMetadata :=
  .baseTime m.sessionId m.name m.priority m.elapsedTime m.baseTime

namespace Message

structure BaseTime where
  sessionId : String
  name : String
  priority : UInt32
  elapsedTime : UInt64
  baseTime : Int64
deriving DecidableEq

def Metadata.ofBaseTime (m : BaseTime) : Metadata :=
  .baseTime m.sessionId m.name m.priority m.elapsedTime m.baseTime

/-- `upstream_metadata::Metadata`. -/
inductive UpstreamMetadataEnum
  | baseTime (baseTime : BaseTime)
deriving DecidableEq

structure UpstreamMetadataExtensionFields where
  persist : Bool
deriving DecidableEq

structure UpstreamMetadata where
  requestId : UInt32 := 0
  extensionFields : Option UpstreamMetadataExtensionFields := none
  metadata : Option UpstreamMetadataEnum := none
deriving DecidableEq

end Message

/-- `u64::try_from`. -/
def u64TryFrom (n : Nat) : Option UInt64 := if n < UInt64.size then some (.ofNat n) else none

/-- `i64::try_from`. -/
def i64TryFrom (n : Nat) : Option Int64 :=
  if (n : Int) ≤ Int64.maxValue.toInt then some (.ofNat n) else none

/-- `duration_since(UNIX_EPOCH)`; the text is that of a `SystemTimeError`. -/
def SystemTime.durationSinceEpoch (t : SystemTime) : Except String Duration :=
  if 0 ≤ t then .ok t.toNat else .error "second time provided was later than self"

/-- Both overflows have the text of the first. -/
def convertToUpstreamMetadata : SendableMetadata → Except Error Message.UpstreamMetadata
  | .baseTime baseTime =>
    match u64TryFrom baseTime.elapsedTime with
    | none => .error (.invalidValue "elapsed_time overflow")
    | some elapsedTime =>
      match SystemTime.durationSinceEpoch baseTime.baseTime with
      | .error e => .error (.invalidValue e)
      | .ok sinceEpoch =>
        match i64TryFrom sinceEpoch with
        | none => .error (.invalidValue "elapsed_time overflow")
        | some baseTimeNsec =>
          .ok { metadata := some (.baseTime {
            sessionId := baseTime.sessionId
            name := baseTime.name
            priority := baseTime.priority
            elapsedTime
            baseTime := baseTimeNsec }) }

/-! ### What is sent and what is read -/

theorem u64TryFrom_eq_some {n : Nat} {m : UInt64} : u64TryFrom n = some m ↔ n = m.toNat := by
  rw [u64TryFrom]
  split
  · rename_i h
    rw [Option.some.injEq, ← UInt64.toNat_inj, UInt64.toNat_ofNat', Nat.mod_eq_of_lt h]
  · rename_i h
    refine ⟨nofun, fun hn => ?_⟩
    rw [hn] at h
    exact absurd m.toNat_lt h

theorem i64TryFrom_eq_some {n : Nat} {m : Int64} : i64TryFrom n = some m ↔ (n : Int) = m.toInt := by
  rw [i64TryFrom]
  split
  · rename_i h
    have hlt : n < 2 ^ 63 := by
      rw [Int64.toInt_maxValue] at h
      omega
    rw [Option.some.injEq, ← Int64.toInt_inj, Int64.toInt_ofNat_of_lt hlt]
  · rename_i h
    refine ⟨nofun, fun hn => ?_⟩
    rw [hn] at h
    exact absurd m.toInt_le h

theorem durationSinceEpoch_eq_ok {t : SystemTime} {d : Duration} :
    SystemTime.durationSinceEpoch t = .ok d ↔ t = d := by
  rw [SystemTime.durationSinceEpoch]
  split
  · rename_i h
    rw [Except.ok.injEq]
    constructor
    · rintro rfl
      exact (Int.toNat_of_nonneg h).symm
    · intro ht
      rw [ht]
      exact Int.toNat_natCast d
  · rename_i h
    refine ⟨nofun, fun ht => ?_⟩
    rw [ht] at h
    exact absurd (Int.natCast_nonneg d) h

theorem unixEpochToSystemTime_eq_ok {nsecs : Int64} {t : SystemTime} :
    unixEpochToSystemTime nsecs = .ok t ↔ t = nsecs.toInt ∧ 0 ≤ nsecs.toInt := by
  rw [unixEpochToSystemTime]
  split
  · rename_i h
    exact ⟨nofun, fun ht => absurd h (Int.not_lt.2 ht.2)⟩
  · rename_i h
    rw [Except.ok.injEq, eq_comm]
    exact (and_iff_left (Int.not_lt.1 h)).symm

/-- The base time that a wire base time stands for. -/
def Message.BaseTime.value (m : Message.BaseTime) : Iscp.BaseTime :=
  ⟨m.sessionId, m.name, m.priority, m.elapsedTime.toNat, m.baseTime.toInt⟩

theorem fromProst_eq_ok {m : Message.BaseTime} {r : ReceivableMetadata} :
    ReceivableMetadata.fromProst (.ofBaseTime m) = .ok r ↔
      r = .ofBaseTime m.value ∧ 0 ≤ m.baseTime.toInt := by
  rw [Message.Metadata.ofBaseTime, ReceivableMetadata.fromProst]
  cases ht : unixEpochToSystemTime m.baseTime with
  | error e =>
    refine ⟨nofun, fun ⟨_, h⟩ => ?_⟩
    rw [unixEpochToSystemTime_eq_ok.2 ⟨rfl, h⟩] at ht
    cases ht
  | ok t =>
    obtain ⟨rfl, h⟩ := unixEpochToSystemTime_eq_ok.1 ht
    constructor
    · intro hr
      cases hr
      exact ⟨rfl, h⟩
    · rintro ⟨rfl, -⟩
      rfl

/-- What is converted is what the request stands for. -/
theorem convertToUpstreamMetadata_eq_ok {b : BaseTime} {request : Message.UpstreamMetadata} :
    convertToUpstreamMetadata (.baseTime b) = .ok request ↔
      ∃ m : Message.BaseTime, request = { metadata := some (.baseTime m) } ∧ b = m.value ∧
        0 ≤ m.baseTime.toInt := by
  constructor
  · intro h
    rw [convertToUpstreamMetadata] at h
    split at h
    · cases h
    · rename_i elapsedTime helapsed
      split at h
      · cases h
      · rename_i sinceEpoch hsince
        split at h
        · cases h
        · rename_i baseTimeNsec hnsec
          cases h
          have hbase : b.baseTime = baseTimeNsec.toInt :=
            (durationSinceEpoch_eq_ok.1 hsince).trans (i64TryFrom_eq_some.1 hnsec)
          refine ⟨_, rfl, ?_, ?_⟩
          · rw [Message.BaseTime.value, ← u64TryFrom_eq_some.1 helapsed, ← hbase]
          · rw [← i64TryFrom_eq_some.1 hnsec]
            exact Int.natCast_nonneg sinceEpoch
  · rintro ⟨m, rfl, rfl, h⟩
    have helapsed := u64TryFrom_eq_some.2 (rfl : m.elapsedTime.toNat = _)
    have hnat : ((m.baseTime.toInt.toNat : Nat) : Int) = m.baseTime.toInt := Int.toNat_of_nonneg h
    have hsince := durationSinceEpoch_eq_ok.2 hnat.symm
    have hnsec := i64TryFrom_eq_some.2 hnat
    simp only [convertToUpstreamMetadata, Message.BaseTime.value, helapsed, hsince, hnsec]

/-- A base time can be written in 64 bits each. -/
theorem exists_value_iff {b : BaseTime} :
    (∃ m : Message.BaseTime, b = m.value ∧ 0 ≤ m.baseTime.toInt) ↔
      b.elapsedTime < UInt64.size ∧ 0 ≤ b.baseTime ∧ b.baseTime ≤ Int64.maxValue.toInt := by
  constructor
  · rintro ⟨m, rfl, h⟩
    exact ⟨m.elapsedTime.toNat_lt, h, m.baseTime.toInt_le⟩
  · rintro ⟨helapsed, h, hmax⟩
    have hnat : ((b.baseTime.toNat : Nat) : Int) = b.baseTime := Int.toNat_of_nonneg h
    obtain ⟨elapsedTime, hu⟩ : ∃ elapsedTime, u64TryFrom b.elapsedTime = some elapsedTime :=
      ⟨_, if_pos helapsed⟩
    obtain ⟨baseTime, hi⟩ : ∃ baseTime, i64TryFrom b.baseTime.toNat = some baseTime :=
      ⟨_, if_pos (hnat ▸ hmax)⟩
    have hbase : b.baseTime = baseTime.toInt := hnat.symm.trans (i64TryFrom_eq_some.1 hi)
    refine ⟨⟨b.sessionId, b.name, b.priority, elapsedTime, baseTime⟩, ?_, hbase ▸ h⟩
    rw [Message.BaseTime.value, ← u64TryFrom_eq_some.1 hu, ← hbase]

/-- What is sent is what is read, and what is read can be sent again as it was. -/
theorem baseTime_roundTrip :
    (∀ b : BaseTime,
      ((convertToUpstreamMetadata (.baseTime b)).isOk ↔
        b.elapsedTime < UInt64.size ∧ 0 ≤ b.baseTime ∧ b.baseTime ≤ Int64.maxValue.toInt) ∧
      ∀ request, convertToUpstreamMetadata (.baseTime b) = .ok request →
        ∃ m : Message.BaseTime, request = { metadata := some (.baseTime m) } ∧
          ReceivableMetadata.fromProst (.ofBaseTime m) = .ok (.ofBaseTime b)) ∧
    ∀ m : Message.BaseTime,
      ((ReceivableMetadata.fromProst (.ofBaseTime m)).isOk ↔ ¬ m.baseTime.toInt < 0) ∧
      ∀ r, ReceivableMetadata.fromProst (.ofBaseTime m) = .ok r →
        ∃ b, r = .ofBaseTime b ∧
          convertToUpstreamMetadata (.baseTime b) = .ok { metadata := some (.baseTime m) } := by
  refine ⟨fun b => ⟨?_, fun request h => ?_⟩, fun m => ⟨?_, fun r h => ?_⟩⟩
  · rw [isOk_iff, ← exists_value_iff]
    simp only [convertToUpstreamMetadata_eq_ok]
    exact ⟨fun ⟨_, m, _, hm⟩ => ⟨m, hm⟩, fun ⟨m, hm⟩ => ⟨_, m, rfl, hm⟩⟩
  · obtain ⟨m, rfl, rfl, hm⟩ := convertToUpstreamMetadata_eq_ok.1 h
    exact ⟨m, rfl, fromProst_eq_ok.2 ⟨rfl, hm⟩⟩
  · rw [isOk_iff, Int.not_lt]
    simp only [fromProst_eq_ok]
    exact ⟨fun ⟨_, _, hm⟩ => hm, fun hm => ⟨_, rfl, hm⟩⟩
  · obtain ⟨rfl, hm⟩ := fromProst_eq_ok.1 h
    exact ⟨m.value, rfl, convertToUpstreamMetadata_eq_ok.2 ⟨m, rfl, rfl, hm⟩⟩

end Iscp
