import Iscp.Message

/-!
# Stream configurations

`Duration`s are counts of nanoseconds and `usize`s are natural numbers; a callback is only present or
absent. Fields that no modelled function reads are left out.
-/

namespace Iscp

inductive FlushPolicy
  | none
  | intervalOnly (interval : Nat)
  | bufferSizeOnly (bufferSize : Nat)
  | intervalOrBufferSize (interval bufferSize : Nat)
  | immediately
deriving DecidableEq, Repr

namespace FlushPolicy

def interval : FlushPolicy → Option Nat
  | intervalOnly interval => some interval
  | intervalOrBufferSize interval _ => some interval
  | _ => Option.none

def bufferSize : FlushPolicy → Option Nat
  | bufferSizeOnly bufferSize => some bufferSize
  | intervalOrBufferSize _ bufferSize => some bufferSize
  | _ => Option.none

def needFlush (p : FlushPolicy) (currentBufferSize : Nat) : Bool :=
  match p with
  | immediately => true
  | bufferSizeOnly bufferSize => bufferSize ≤ currentBufferSize
  | intervalOrBufferSize _ bufferSize => bufferSize ≤ currentBufferSize
  | _ => false

end FlushPolicy

structure UpstreamConfig where
  expiryInterval : Nat := 60000000000
  qos : QoS := .unreliable
  flushPolicy : FlushPolicy := .intervalOnly 100000000
  closeTimeout : Nat := 10000000000
  sendDataPointsCallback : Bool := false
  receiveAckCallback : Bool := false
  resumedCallback : Bool := false
deriving DecidableEq, Repr

inductive DownstreamReordering
  | none
  | bestEffort
  | strict
deriving DecidableEq, Repr

structure DownstreamConfig where
  expiryInterval : Nat := 60000000000
  qos : QoS := .unreliable
  ackInterval : Nat := 100000000
  omitEmptyChunk : Bool := false
  reordering : DownstreamReordering := .none
  reorderingChunks : Nat := 0xFF
  closeTimeout : Nat := 10000000000
deriving DecidableEq, Repr

end Iscp
