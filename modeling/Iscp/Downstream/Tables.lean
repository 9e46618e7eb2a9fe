import Iscp.Downstream.Convert
import Iscp.Lib.Machine
import Mathlib.Algebra.Group.Nat.Defs
import Mathlib.Data.List.Nodup

/-!
# The tables of a downstream over many calls

`State` of `down_state.rs` as a machine: its operations, called in any order. A call that panics ends the
run. Aliases are given out as 0, 1, 2, …, each to one info for ever, and what is to be acknowledged leaves
the state once, in the next ack.
-/

namespace Iscp.DownstreamState

inductive Call
  | addUpstreamInfo (info : Message.UpstreamInfo)
  | getUpstreamInfo (infoAlias : UInt32)
  | addSequenceNumber (streamId : Uuid) (sequenceNumber : UInt32)
  | takeAck (streamIdAlias : UInt32)

inductive CallEvent
  /-- `infos` got an entry. -/
  | registered (infoAlias : UInt32) (info : UpstreamInfo)
  | added (info : Message.UpstreamInfo) (result : Except Error UpstreamInfo)
  | got (infoAlias : UInt32) (result : Except Error UpstreamInfo)
  | recorded (result : Message.DownstreamChunkResult)
  | taken (ack : Message.DownstreamChunkAck)

/-- The entries of `after` that are not in `before`. -/
def newInfos (before after : BTreeMap UpstreamInfo) : List (UInt32 × UpstreamInfo) :=
  after.toList.filter fun e => before[e.1]? ≠ some e.2

def callStep (st : DownstreamState) : Call → Option (DownstreamState × List CallEvent)
  | .addUpstreamInfo info =>
    (st.addUpstreamInfo info).map fun (r, st') =>
      (st', (newInfos st.infos st'.infos).map (fun e => .registered e.1 e.2) ++ [.added info r])
  | .getUpstreamInfo infoAlias => some (st, [.got infoAlias (st.getUpstreamInfo infoAlias)])
  | .addSequenceNumber streamId n =>
    some (st.addSequenceNumber streamId n, [.recorded ⟨streamId.val, n, 0, "OK"⟩])
  | .takeAck streamIdAlias =>
    let (ack, st') := st.takeAck streamIdAlias
    some (st', ack.toList.map .taken)

def callMachine (dataIdAliases : BTreeMap DataId) : Machine DownstreamState Call CallEvent where
  init := { dataIdAliases }
  log₀ := []
  step := callStep

/-! ### What the history says -/

variable {st st' : DownstreamState} {log evs : List CallEvent}

def registrations (log : List CallEvent) : List (UInt32 × UpstreamInfo) :=
  log.filterMap fun
    | .registered infoAlias info => some (infoAlias, info)
    | _ => none

def recordings (log : List CallEvent) : List Message.DownstreamChunkResult :=
  log.filterMap fun
    | .recorded result => some result
    | _ => none

def acks (log : List CallEvent) : List Message.DownstreamChunkAck :=
  log.filterMap fun
    | .taken ack => some ack
    | _ => none

/-- A call gives what has been registered before it, and nothing else. -/
def Resolves (pre : List CallEvent) : CallEvent → Prop
  | .got infoAlias r => ∀ info, r = .ok info ↔ (infoAlias, info) ∈ registrations pre
  | .added wire (.ok info) => announcement info = wire ∧ ∃ infoAlias, (infoAlias, info) ∈ registrations pre
  | _ => True

/-- The tables and the acks against the calls made. -/
structure Tables (log : List CallEvent) (st : DownstreamState) : Prop where
  /-- The aliases are 0, 1, 2, …, each for one info, and these are the entries of `infos`. -/
  aliases : (registrations log).map (·.1.toNat) = List.range (registrations log).length
  infos : ∀ (infoAlias : UInt32) info,
    st.infos[infoAlias]? = some info ↔ (infoAlias, info) ∈ registrations log
  distinct : ((registrations log).map (·.2)).Nodup
  last : ∀ infoAlias : UInt32, (st.infos[infoAlias]?).isSome ↔
    ∃ last, st.lastIssuedUpstreamInfoAlias = some last ∧ infoAlias ≤ last
  resolves : History.Each Resolves log
  /-- An alias is in one ack or still pending if it is registered, and nowhere otherwise. -/
  announced : ∀ infoAlias : UInt32,
    (acks log).filterMap (·.upstreamAliases[infoAlias]?) ++ st.forAck[infoAlias]?.toList =
      (st.infos[infoAlias]?.map announcement).toList
  results : (acks log).flatMap (·.results) ++ st.results = recordings log
  ackIds : (acks log).map (·.ackId) = (List.range (acks log).length).map .ofNat
  /-- No call panics while an alias is left. -/
  total : (registrations log).length < 2 ^ 32 → ∀ call, (st.callStep call).isSome

@[simp] theorem registrations_append : registrations (log ++ evs) = registrations log ++ registrations evs :=
  List.filterMap_append

@[simp] theorem recordings_append : recordings (log ++ evs) = recordings log ++ recordings evs :=
  List.filterMap_append

@[simp] theorem acks_append : acks (log ++ evs) = acks log ++ acks evs := List.filterMap_append

/-! ### The aliases -/

theorem newInfos_self (infos : BTreeMap UpstreamInfo) : newInfos infos infos = [] := by
  rw [newInfos, List.filter_eq_nil_iff]
  rintro ⟨infoAlias, info⟩ he
  simpa using Std.ExtTreeMap.mem_toList_iff_getElem?_eq_some.1 he

theorem newInfos_insert {infos : BTreeMap UpstreamInfo} {infoAlias : UInt32} {info : UpstreamInfo}
    (h : infos[infoAlias]? = none) :
    newInfos infos (infos.insert infoAlias info) = [(infoAlias, info)] := by
  have hnodup : (infos.insert infoAlias info).toList.Nodup :=
    Std.ExtTreeMap.distinct_keys_toList.imp fun hne heq => hne (by rw [heq, Std.compare_self])
  refine List.perm_singleton.1 ((List.perm_ext_iff_of_nodup (hnodup.filter _) (List.nodup_singleton _)).2 ?_)
  rintro ⟨b, info'⟩
  rw [List.mem_filter, Std.ExtTreeMap.mem_toList_iff_getElem?_eq_some,
    Std.ExtTreeMap.getElem?_insert, List.mem_singleton]
  by_cases hb : infoAlias = b
  · subst hb
    simp [h, eq_comm]
  · simp [hb, Ne.symm hb]

structure Registered (log : List CallEvent) (st : DownstreamState) : Prop where
  aliases : (registrations log).map (·.1.toNat) = List.range (registrations log).length
  infos : ∀ (infoAlias : UInt32) info,
    st.infos[infoAlias]? = some info ↔ (infoAlias, info) ∈ registrations log
  distinct : ((registrations log).map (·.2)).Nodup
  count : (registrations log).length = (st.lastIssuedUpstreamInfoAlias.map (·.toNat + 1)).getD 0
  resolves : History.Each Resolves log

theorem Registered.lt_iff (h : Registered log st) (infoAlias : UInt32) :
    (st.infos[infoAlias]?).isSome ↔ infoAlias.toNat < (registrations log).length := by
  rw [← List.mem_range, ← h.aliases, List.mem_map, Option.isSome_iff_exists]
  constructor
  · rintro ⟨info, hi⟩
    exact ⟨(infoAlias, info), (h.infos _ _).1 hi, rfl⟩
  · rintro ⟨⟨b, info⟩, hm, hb⟩
    obtain rfl := UInt32.toNat_inj.1 hb
    exact ⟨info, (h.infos _ _).2 hm⟩

theorem Registered.quiet (h : Registered log st) (hr : registrations evs = []) (hi : st'.infos = st.infos)
    (hl : st'.lastIssuedUpstreamInfoAlias = st.lastIssuedUpstreamInfoAlias)
    (he : History.Each (fun pre e => Resolves (log ++ pre) e) evs) : Registered (log ++ evs) st' := by
  refine ⟨?_, ?_, ?_, ?_, History.each_append.2 ⟨h.resolves, he⟩⟩
  all_goals rw [registrations_append, hr, List.append_nil]
  · exact h.aliases
  · rw [hi]; exact h.infos
  · exact h.distinct
  · rw [hl]; exact h.count

theorem nextUpstreamInfoAlias_toNat {infoAlias : UInt32} (h : st.nextUpstreamInfoAlias = some infoAlias) :
    infoAlias.toNat = (st.lastIssuedUpstreamInfoAlias.map (·.toNat + 1)).getD 0 := by
  unfold nextUpstreamInfoAlias at h
  split at h
  · rename_i last hlast
    split at h
    · cases h
    · rename_i hne
      cases h
      rw [hlast]
      have hmax : last.toNat ≠ 4294967295 := fun he => hne (UInt32.toNat_inj.1 he)
      have := last.toNat_lt
      show (last + 1).toNat = last.toNat + 1
      rw [UInt32.toNat_add, UInt32.toNat_one]
      omega
  · rename_i hnone
    cases h
    rw [hnone]
    rfl

theorem Registered.register (h : Registered log st) {wire : Message.UpstreamInfo} {info : UpstreamInfo}
    {infoAlias : UInt32} (hw : announcement info = wire) (hnew : ∀ b : UInt32, st.infos[b]? ≠ some info)
    (hnext : st.nextUpstreamInfoAlias = some infoAlias) (hi : st'.infos = st.infos.insert infoAlias info)
    (hl : st'.lastIssuedUpstreamInfoAlias = some infoAlias) :
    Registered (log ++ [CallEvent.registered infoAlias info, .added wire (.ok info)]) st' := by
  have hcount : infoAlias.toNat = (registrations log).length := by
    rw [h.count, nextUpstreamInfoAlias_toNat hnext]
  have hregs : registrations (log ++ [CallEvent.registered infoAlias info, .added wire (.ok info)]) =
      registrations log ++ [(infoAlias, info)] := by
    rw [registrations_append]
    rfl
  refine ⟨?_, ?_, ?_, ?_, ?_⟩
  · rw [hregs, List.map_append, h.aliases, List.length_append, List.length_singleton, List.range_succ, ← hcount]
    rfl
  · intro b info'
    rw [hregs, hi, Std.ExtTreeMap.getElem?_insert, List.mem_append, List.mem_singleton, ← h.infos]
    by_cases hb : infoAlias = b
    · subst hb
      have hfree := (h.lt_iff infoAlias).not.2 (by omega)
      simp only [Option.isSome_iff_ne_none, ne_eq, not_not] at hfree
      simp [hfree, eq_comm]
    · simp [hb, Ne.symm hb]
  · rw [hregs, List.map_append, List.nodup_append]
    refine ⟨h.distinct, List.nodup_singleton _, ?_⟩
    rintro _ hmem _ hone rfl
    obtain ⟨⟨b, info'⟩, hm, rfl⟩ := List.mem_map.1 hmem
    obtain rfl := List.mem_singleton.1 hone
    exact hnew b ((h.infos _ _).2 hm)
  · rw [hregs, hl, List.length_append, List.length_singleton, ← hcount]
    rfl
  · refine History.each_append.2 ⟨h.resolves, History.each_cons.2 ⟨trivial, History.each_singleton.2 ?_⟩⟩
    refine ⟨hw, infoAlias, ?_⟩
    rw [registrations_append]
    exact List.mem_append_right _ List.mem_cons_self

/-! ### The acks -/

structure Acknowledged (log : List CallEvent) (st : DownstreamState) : Prop where
  announced : ∀ infoAlias : UInt32,
    (acks log).filterMap (·.upstreamAliases[infoAlias]?) ++ st.forAck[infoAlias]?.toList =
      (st.infos[infoAlias]?.map announcement).toList
  results : (acks log).flatMap (·.results) ++ st.results = recordings log
  ackIds : (acks log).map (·.ackId) = (List.range (acks log).length).map .ofNat
  nextAckId : (st.lastIssuedChunkAckId.map (· + 1)).getD 0 = .ofNat (acks log).length

namespace Acknowledged

theorem quiet (h : Acknowledged log st) (ha : acks evs = []) (hr : recordings evs = []) :
    Acknowledged (log ++ evs) st := by
  refine ⟨?_, ?_, ?_, ?_⟩
  all_goals rw [acks_append, ha, List.append_nil]
  · exact h.announced
  · rw [recordings_append, hr, List.append_nil]
    exact h.results
  · exact h.ackIds
  · exact h.nextAckId

theorem register (h : Acknowledged log st) {wire : Message.UpstreamInfo} {info : UpstreamInfo}
    {infoAlias : UInt32} (hw : announcement info = wire) (hfree : st.infos[infoAlias]? = none) :
    Acknowledged log { st with
      lastIssuedUpstreamInfoAlias := some infoAlias
      infos := st.infos.insert infoAlias info
      forAck := st.forAck.insert infoAlias wire } := by
  refine ⟨fun b => ?_, h.results, h.ackIds, h.nextAckId⟩
  have hann := h.announced b
  simp only [Std.ExtTreeMap.getElem?_insert, Std.compare_eq_iff_eq]
  by_cases hb : infoAlias = b
  · -- Nothing has been announced under an alias that was not given out.
    subst hb
    rw [hfree, Option.map_none, Option.toList_none, List.append_eq_nil_iff] at hann
    rw [if_pos rfl, if_pos rfl, hann.1, Option.map_some, hw]
    rfl
  · rw [if_neg hb, if_neg hb]
    exact hann

theorem record (h : Acknowledged log st) (streamId : Uuid) (n : UInt32) :
    Acknowledged (log ++ [CallEvent.recorded ⟨streamId.val, n, 0, "OK"⟩]) (st.addSequenceNumber streamId n) := by
  refine ⟨?_, ?_, ?_, ?_⟩
  all_goals rw [acks_append, show acks [.recorded ⟨streamId.val, n, 0, "OK"⟩] = [] from rfl, List.append_nil]
  · exact h.announced
  · rw [recordings_append, results_addSequenceNumber, ← List.append_assoc, h.results]
    rfl
  · exact h.ackIds
  · exact h.nextAckId

theorem take (h : Acknowledged log st) {streamIdAlias : UInt32} {ack : Message.DownstreamChunkAck}
    (ht : st.takeAck streamIdAlias = (some ack, st')) : Acknowledged (log ++ [CallEvent.taken ack]) st' := by
  have hT := takeAck_eq_some ht
  have hid : ack.ackId = .ofNat (acks log).length ∧ st'.lastIssuedChunkAckId = some ack.ackId := by
    rw [← h.nextAckId]
    unfold takeAck at ht
    split at ht
    · cases ht
    · obtain ⟨ha, rfl⟩ := Prod.mk.inj ht
      obtain rfl := Option.some.inj ha
      cases hlast : st.lastIssuedChunkAckId <;> exact ⟨rfl, rfl⟩
  have hacks : acks (log ++ [CallEvent.taken ack]) = acks log ++ [ack] := by
    rw [acks_append]
    rfl
  refine ⟨fun b => ?_, ?_, ?_, ?_⟩
  · rw [hacks, List.filterMap_append, hT.infos, ← h.announced b, hT.forAck', ← hT.upstreamAliases]
    cases hb : ack.upstreamAliases[b]? <;> simp [hb]
  · rw [hacks, List.flatMap_append, List.flatMap_singleton, hT.results, hT.results', List.append_nil,
      recordings_append, ← h.results]
    simp [recordings]
  · rw [hacks, List.map_append, h.ackIds, List.length_append, List.length_singleton, List.range_succ,
      List.map_append, List.map_singleton, List.map_singleton, hid.1]
  · rw [hacks, hid.2, Option.map_some, Option.getD_some, hid.1, List.length_append, List.length_singleton,
      UInt32.ofNat_add]
    rfl

end Acknowledged

/-! ### Runs -/

structure CallInv (log : List CallEvent) (st : DownstreamState) : Prop where
  registered : Registered log st
  acknowledged : Acknowledged log st

theorem resolves_get (h : Registered log st) (infoAlias : UInt32) :
    Resolves log (.got infoAlias (st.getUpstreamInfo infoAlias)) := by
  intro info
  rw [← h.infos, getUpstreamInfo]
  split
  · rename_i info' hi
    rw [hi]
    simp
  · rename_i hi
    rw [hi]
    simp

theorem CallInv.step {call : Call} (h : CallInv log st) (hs : st.callStep call = some (st', evs)) :
    CallInv (log ++ evs) st' := by
  obtain ⟨hreg, hack⟩ := h
  cases call with
  | addUpstreamInfo wire =>
    obtain ⟨⟨r, st₁⟩, hadd, he⟩ := Option.map_eq_some_iff.1 hs
    cases he
    rcases addUpstreamInfo_cases hadd with ⟨e, rfl, rfl⟩ | ⟨info, rfl, hw, hst⟩
    · rw [newInfos_self]
      exact ⟨hreg.quiet rfl rfl rfl (History.each_singleton.2 trivial), hack.quiet rfl rfl⟩
    · rcases hst with ⟨⟨b, hb⟩, rfl⟩ | ⟨infoAlias, hnew, hnext, rfl⟩
      · rw [newInfos_self]
        refine ⟨hreg.quiet rfl rfl rfl (History.each_singleton.2 ?_), hack.quiet rfl rfl⟩
        exact ⟨hw, b, by rw [List.append_nil]; exact (hreg.infos _ _).1 hb⟩
      · have hfree : st.infos[infoAlias]? = none := by
          have := (hreg.lt_iff infoAlias).not.2
            (by rw [hreg.count, nextUpstreamInfoAlias_toNat hnext]; exact Nat.lt_irrefl _)
          simpa using this
        rw [newInfos_insert hfree]
        exact ⟨hreg.register hw hnew hnext rfl rfl, (hack.register hw hfree).quiet rfl rfl⟩
  | getUpstreamInfo infoAlias =>
    cases hs
    refine ⟨hreg.quiet rfl rfl rfl (History.each_singleton.2 ?_), hack.quiet rfl rfl⟩
    rw [List.append_nil]
    exact resolves_get hreg infoAlias
  | addSequenceNumber streamId n =>
    cases hs
    exact ⟨hreg.quiet rfl rfl rfl (History.each_singleton.2 trivial), hack.record streamId n⟩
  | takeAck streamIdAlias =>
    rcases ht : st.takeAck streamIdAlias with ⟨ack, st₁⟩
    rw [callStep, ht] at hs
    cases hs
    cases ack with
    | none =>
      obtain rfl := takeAck_eq_none ht
      exact ⟨hreg.quiet rfl rfl rfl .nil, hack.quiet rfl rfl⟩
    | some ack =>
      have hT := takeAck_eq_some ht
      exact ⟨hreg.quiet rfl hT.infos hT.lastIssuedUpstreamInfoAlias (History.each_singleton.2 trivial),
        hack.take ht⟩

variable {dataIdAliases : BTreeMap DataId}

theorem callInv (h : (callMachine dataIdAliases).Run log st) : CallInv log st := by
  refine h.invariant (I := CallInv) ?_ ?_
  · exact ⟨⟨rfl, by simp [callMachine, registrations], List.nodup_nil, rfl, .nil⟩,
      by simp [callMachine, acks], rfl, rfl, rfl⟩
  · intro log st call st' evs _ hi _ hs
    exact hi.step hs

theorem callStep_isSome (h : Registered log st) (hlen : (registrations log).length < 2 ^ 32) (call : Call) :
    (st.callStep call).isSome := by
  cases call with
  | addUpstreamInfo wire =>
    cases hadd : st.addUpstreamInfo wire with
    | some r => simp [callStep, hadd]
    | none =>
      have hcount := h.count
      rw [addUpstreamInfo_eq_none hadd] at hcount
      have : (4294967295 : UInt32).toNat = 4294967295 := rfl
      simp only [Option.map_some, Option.getD_some] at hcount
      omega
  | getUpstreamInfo | addSequenceNumber | takeAck => rfl

/-- Over every sequence of calls, the tables of a downstream agree with the calls made. -/
theorem call_tables (h : (callMachine dataIdAliases).Run log st) : Tables log st := by
  obtain ⟨hreg, hack⟩ := callInv h
  refine ⟨hreg.aliases, hreg.infos, hreg.distinct, fun infoAlias => ?_, hreg.resolves, hack.announced,
    hack.results, hack.ackIds, callStep_isSome hreg⟩
  rw [hreg.lt_iff, hreg.count]
  cases st.lastIssuedUpstreamInfoAlias with
  | none => simp
  | some last =>
    have hsucc : infoAlias.toNat < last.toNat + 1 ↔ infoAlias ≤ last := by
      rw [UInt32.le_iff_toNat_le, Nat.lt_succ_iff]
    simpa using hsucc

/-- Two upstreams are announced, one of them twice, in two acks; a third announcement is malformed. -/
theorem call_tables_two :
    ∃ log st, (callMachine ∅).Run log st ∧ (registrations log).map (·.1) = [0, 1] ∧
      (acks log).map (·.ackId) = [0, 1] ∧ (recordings log).length = 2 ∧ Tables log st := by
  let streamId : Uuid := ⟨List.replicate 16 7, rfl⟩
  obtain ⟨log, st, h, hr, ha, hn⟩ := Machine.Exec.exists_of_any (M := callMachine ∅)
    (C := fun _ _ _ => True)
    [.addUpstreamInfo ⟨"a", List.replicate 16 7, "n"⟩, .addSequenceNumber streamId 1, .takeAck 0, .takeAck 0,
      .addUpstreamInfo ⟨"a", List.replicate 16 7, "n"⟩, .addUpstreamInfo ⟨"b", List.replicate 16 7, "n"⟩,
      .addUpstreamInfo ⟨"c", [], "n"⟩, .getUpstreamInfo 1, .addSequenceNumber streamId 2, .takeAck 0]
    (P := fun log _ => (registrations log).map (·.1) = [0, 1] ∧ (acks log).map (·.ackId) = [0, 1] ∧
      (recordings log).length = 2) (by decide +kernel)
  exact ⟨log, st, h, hr, ha, hn, call_tables h⟩

end Iscp.DownstreamState
