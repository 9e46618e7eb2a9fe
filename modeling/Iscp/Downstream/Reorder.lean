import Iscp.Config
import Iscp.Error
import Mathlib.Data.List.Iterate
import Mathlib.Logic.Function.Basic

/-!
# `DownReorderer`

The reorderer of `down_order.rs`. Its two hash maps get their entry for an upstream in the same call
(`iter`), so the `unwrap`s of the source always find one; `expected` and `stored` read them.
-/

namespace Iscp

/-- `BTreeMap::pop_first`. -/
def BTreeMap.popFirst {β : Type} (m : BTreeMap β) : Option ((UInt32 × β) × BTreeMap β) :=
  m.minKey?.bind fun k => m[k]?.map fun v => ((k, v), m.erase k)

structure DownReorderer where
  enabled : Bool
  strict : Bool
  limit : Nat
  next : Uuid → Option UInt32
  store : Uuid → Option (BTreeMap DownstreamChunk)

inductive DownReordererIter
  | notReordered (chunk : Option DownstreamChunk)
  | reordered (streamUuid : Uuid)
deriving DecidableEq

namespace DownReorderer

def new (config : DownstreamConfig) : DownReorderer where
  enabled := config.qos = .reliable ∧ config.reordering ≠ .none
  strict := config.reordering = .strict
  limit := config.reorderingChunks
  next _ := none
  store _ := none

/-- The number the upstream's next chunk must have. -/
def expected (r : DownReorderer) (u : Uuid) : UInt32 := (r.next u).getD 0

/-- The chunks of the upstream that wait. -/
def stored (r : DownReorderer) (u : Uuid) : BTreeMap DownstreamChunk := (r.store u).getD ∅

/-- The vacant entry of `iter`: the first chunk of an upstream fixes its first number. -/
def register (r : DownReorderer) (u : Uuid) (n : UInt32) : DownReorderer :=
  match r.next u with
  | some _ => r
  | none => { r with
      next := Function.update r.next u (some n)
      store := Function.update r.store u (some ∅) }

def setStore (r : DownReorderer) (u : Uuid) (m : BTreeMap DownstreamChunk) : DownReorderer :=
  { r with store := Function.update r.store u (some m) }

def setNext (r : DownReorderer) (u : Uuid) (n : UInt32) : DownReorderer :=
  { r with next := Function.update r.next u (some n) }

def iter (r : DownReorderer) (chunk : DownstreamChunk) :
    Except Error DownReordererIter × DownReorderer :=
  if r.enabled then
    let u := chunk.upstream.streamId
    let r := r.register u chunk.sequenceNumber
    if r.strict ∧ r.limit ≤ (r.stored u).size ∧ r.expected u ≠ chunk.sequenceNumber then
      (.error (.reordering u), r)
    else
      (.ok (.reordered u), r.setStore u ((r.stored u).insert chunk.sequenceNumber chunk))
  else
    (.ok (.notReordered (some chunk)), r)

def pop (r : DownReorderer) (u : Uuid) : Option DownstreamChunk × DownReorderer :=
  if ¬ r.strict ∧ r.limit ≤ (r.stored u).size then
    match (r.stored u).popFirst with
    | some ((n, chunk), m) => (some chunk, (r.setStore u m).setNext u (n + 1))
    | none => (none, r)
  else
    match (r.stored u)[r.expected u]? with
    | some chunk =>
      (some chunk, (r.setStore u ((r.stored u).erase (r.expected u))).setNext u (r.expected u + 1))
    | none => (none, r)

/-- `Iterator::next`. -/
def iterNext (r : DownReorderer) : DownReordererIter →
    Option DownstreamChunk × DownReordererIter × DownReorderer
  | .notReordered chunk => (chunk, .notReordered none, r)
  | .reordered u => ((r.pop u).1, .reordered u, (r.pop u).2)

/-- Pops until `None`, at most `n` times. -/
def popN (r : DownReorderer) (u : Uuid) : Nat → List DownstreamChunk × DownReorderer
  | 0 => ([], r)
  | n + 1 =>
    match r.pop u with
    | (none, r) => ([], r)
    | (some chunk, r) => (chunk :: (r.popN u n).1, (r.popN u n).2)

/-- Drains an iterator. A pop takes a stored chunk away (`size_pop_lt`), so the number of stored
chunks bounds the number of pops. -/
def drain (r : DownReorderer) : DownReordererIter → List DownstreamChunk × DownReorderer
  | .notReordered chunk => (chunk.toList, r)
  | .reordered u => r.popN u (r.stored u).size

/-- One call of `iter` with the returned iterator drained. -/
def push (r : DownReorderer) (chunk : DownstreamChunk) :
    Except Error (List DownstreamChunk) × DownReorderer :=
  match r.iter chunk with
  | (.error e, r) => (.error e, r)
  | (.ok it, r) => (.ok (r.drain it).1, (r.drain it).2)

/-- Pushes a sequence of chunks; `none` when some call returns `Err`. -/
def feed (r : DownReorderer) : List DownstreamChunk → Option (List DownstreamChunk × DownReorderer)
  | [] => some ([], r)
  | chunk :: chunks =>
    match r.push chunk with
    | (.error _, _) => none
    | (.ok out, r) => (r.feed chunks).map fun (outs, r) => (out ++ outs, r)

end DownReorderer
end Iscp
