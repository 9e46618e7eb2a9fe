import Iscp.Lib.Machine
import Iscp.Transport.Reassembly

/-!
# Messages in datagrams

The unreliable writers and readers of the transports, `QuicUnreliableWriter` and `WebTransportUnreliableWriter` with
the readers of the same names, over a network that delivers a datagram at most once, at any time and in any order. A
datagram that stays in the network is lost. What a failed `send_datagram` leaves in `frames` goes out with the next
message.
-/

namespace Iscp.Datagrams

open Datagram

structure Config where
  maxDatagramSize : Nat
  pos : 8 < maxDatagramSize
  now : Nat

structure State where
  splitter : Splitter
  frames : List Bytes := []
  network : List Bytes := []
  frameBuf : FrameBuf
  clock : Nat

inductive Action
  /-- `write`, in which `send_datagram` fails after `cut` datagrams, or not at all. -/
  | write (data : Bytes) (cut : Option Nat)
  /-- The `i`-th datagram of those in the network arrives; `push` reads the clock twice. -/
  | arrive (i now later : Nat)

inductive Event
  | refused (data : Bytes)
  | sent (data : Bytes)
  | written (data : Bytes)
  | arrived (d : Arrival)
  /-- `read` returns. -/
  | read (data : Bytes)
deriving DecidableEq

def step (s : State) : Action → Option (State × List Event)
  | .write data cut =>
    match s.splitter.split data s.frames with
    | some (.error _, splitter, frames) => some ({ s with splitter := splitter, frames := frames }, [.refused data])
    | some (.ok _, splitter, frames) =>
      match cut with
      | none =>
        some ({ s with splitter := splitter, frames := [], network := s.network ++ frames }, [.sent data, .written data])
      | some cut =>
        if cut < frames.length then
          some ({ s with splitter := splitter, frames := frames.drop (cut + 1), network := s.network ++ frames.take cut },
            [.sent data])
        else none
    | none => none
  | .arrive i now later =>
    match s.network[i]? with
    | some frame =>
      if s.clock ≤ now ∧ now ≤ later then
        let (data, frameBuf) := s.frameBuf.push now later frame
        some ({ s with network := s.network.eraseIdx i, frameBuf := frameBuf, clock := later },
          .arrived ⟨now, later, frame⟩ :: (data.map Event.read).toList)
      else none
    | none => none

def machine (c : Config) : Machine State Action Event where
  init := { splitter := .new c.maxDatagramSize c.pos, frameBuf := .new c.now, clock := c.now }
  log₀ := []
  step := step

/-- The messages that were split, the last of which may not have gone out as a whole. -/
def sent (log : List Event) : List Bytes :=
  log.filterMap fun
    | .sent data => some data
    | _ => none

def written (log : List Event) : List Bytes :=
  log.filterMap fun
    | .written data => some data
    | _ => none

def arrivals (log : List Event) : List Arrival :=
  log.filterMap fun
    | .arrived d => some d
    | _ => none

def read (log : List Event) : List Bytes :=
  log.filterMap fun
    | .read data => some data
    | _ => none

/-- `is` are the messages that were read, by their places among those that were sent. -/
structure Reads (log : List Event) (frames : List (List Bytes)) (is : List Nat) : Prop where
  read : (read log).map some = is.map fun i => (sent log)[i]?
  once : is.Nodup
  /-- A message is read when all its frames arrive, with less than 20 seconds between the first and the last. -/
  inTime : ∀ (i : Nat) fs, frames[i]? = some fs → (∀ g ∈ fs, g ∈ (arrivals log).map Arrival.frame) →
    (∀ d ∈ arrivals log, ∀ d' ∈ arrivals log, d.frame ∈ fs → d'.frame ∈ fs → d'.now ≤ d.later + 20000000000) → i ∈ is

/-! ### Frames of messages -/

section

variable {messages : List Bytes} {frames : List (List Bytes)} {sentBy : Sent} {ds : List Arrival} {b : FrameBuf}
  {s s' : Splitter} {data : Bytes} {fs frames' : List Bytes}

theorem split_ok (h : s.split data fs = some (.ok (), s', frames')) :
    s' = { s with sequenceNumber := s.sequenceNumber + 1 } ∧
      ∃ new, frames' = fs ++ new ∧ s.split data [] = some (.ok (), s', new) := by
  have hlen : data.length < s.maxMessageSize := by
    by_contra hle
    rw [Splitter.split, if_pos (Nat.not_lt.1 hle)] at h
    cases h
  rw [Splitter.split_eq hlen] at h
  simp only [Option.some.injEq, Prod.mk.injEq, true_and] at h
  obtain ⟨rfl, rfl⟩ := h
  exact ⟨rfl, _, rfl, by rw [Splitter.split_eq hlen, List.nil_append]⟩

theorem splitAll_concat (h : s.splitAll messages = some frames)
    (hs : { s with sequenceNumber := s.sequenceNumber + UInt32.ofNat messages.length }.split data [] =
      some (.ok (), s', fs)) : s.splitAll (messages ++ [data]) = some (frames ++ [fs]) := by
  induction messages generalizing s frames with
  | nil =>
    cases h
    rw [List.length_nil, show UInt32.ofNat 0 = 0 from rfl, UInt32.add_zero] at hs
    simp [Splitter.splitAll, hs]
  | cons msg messages ih =>
    rw [Splitter.splitAll] at h
    split at h
    · rename_i s₁ fs₁ heq
      obtain ⟨rest, hrest, rfl⟩ := Option.map_eq_some_iff.1 h
      obtain ⟨rfl, -⟩ := split_ok heq
      have := ih hrest (by
        rw [List.length_cons, UInt32.ofNat_add, UInt32.add_comm (UInt32.ofNat _), ← UInt32.add_assoc] at hs
        exact hs)
      rw [List.cons_append, Splitter.splitAll, heq]
      simp [this]
    · cases h

namespace Accepted

/-- A frame belongs to one message. -/
theorem place_unique (h : Accepted messages frames sentBy) {i j : Nat} {gs : List Bytes} {bytes : Bytes}
    (hi : frames[i]? = some fs) (hj : frames[j]? = some gs) (hb : bytes ∈ fs) (hb' : bytes ∈ gs) : i = j := by
  obtain ⟨-, fs', -, rfl, -, hn⟩ := h.numbered i fs hi
  obtain ⟨-, -, -, -, -, hn'⟩ := h.numbered j gs hj
  obtain ⟨f, -, rfl⟩ := List.mem_map.1 hb
  have heq := (h.number hi hb).symm.trans (h.number hj hb')
  rw [← hn, heq, hn']

theorem nodup (h : Accepted messages frames sentBy) : frames.flatten.Nodup := by
  refine List.nodup_flatten.2 ⟨fun fs hfs => ?_, List.pairwise_iff_getElem.2 fun i j hi hj hij => ?_⟩
  · obtain ⟨i, hi⟩ := List.mem_iff_getElem?.1 hfs
    obtain ⟨data, gs, -, rfl, hs, -⟩ := h.numbered i fs hi
    exact (h.valid _ _ _ hs).nodup.map Subtype.val_injective
  · rintro bytes hb hb'
    exact absurd (place_unique h (List.getElem?_eq_getElem hi) (List.getElem?_eq_getElem hj) hb hb') (Nat.ne_of_lt hij)

end Accepted

/-- What comes out as the frames arrive. -/
def returnedAll (b : FrameBuf) : List Arrival → List Bytes
  | [] => []
  | d :: ds => (b.returned d).toList ++ returnedAll (b.after [d]) ds

theorem returnedAll_concat (b : FrameBuf) (ds : List Arrival) (d : Arrival) :
    returnedAll b (ds ++ [d]) = returnedAll b ds ++ ((b.after ds).returned d).toList := by
  induction ds generalizing b with
  | nil => simp [returnedAll, FrameBuf.after]
  | cons d' ds ih => rw [List.cons_append, returnedAll, returnedAll, ih, List.append_assoc]; rfl

/-- The messages behind what comes out, each of them once. -/
theorem exists_places (h : Delivery sentBy ds) (ha : Accepted messages frames sentBy) (h0 : ∀ n, b.frames n = none) :
    ∀ pre post, ds = pre ++ post → ∃ is : List Nat, is.Nodup ∧
      (returnedAll b pre).map some = is.map (fun i => messages[i]?) ∧
      (∀ i ∈ is, ∀ fs, frames[i]? = some fs → ∀ g ∈ fs, g ∈ pre.map Arrival.frame) ∧
      History.Each (fun pre d => ∀ v, (b.after pre).returned d = some v →
        ∀ (i : Nat) fs, frames[i]? = some fs → d.frame ∈ fs → i ∈ is) pre := by
  intro pre
  induction pre using List.reverseRecOn with
  | nil => exact fun _ _ => ⟨[], .nil, rfl, nofun, .nil⟩
  | append_singleton pre d ih =>
    intro post hds
    rw [List.append_assoc] at hds
    obtain ⟨is, hnodup, hreturned, hin, heach⟩ := ih _ hds
    rw [returnedAll_concat]
    have hmap (g : Bytes) (hg : g ∈ pre.map Arrival.frame) : g ∈ (pre ++ [d]).map Arrival.frame := by
      rw [List.map_append]
      exact List.mem_append_left _ hg
    cases hr : (b.after pre).returned d with
    | none =>
      refine ⟨is, hnodup, by simpa using hreturned, fun i hi fs hfs g hg => hmap g (hin i hi fs hfs g hg),
        History.each_append_singleton.2 ⟨heach, fun v hv => ?_⟩⟩
      rw [hr] at hv
      cases hv
    | some v =>
      obtain ⟨f, ⟨data, gs, hs, hf⟩, heq⟩ := h.sent d (by simp [hds])
      obtain ⟨-, hfs⟩ := ha.listed _ _ _ hs
      have hd : d.frame ∈ gs.map Subtype.val := heq ▸ List.mem_map_of_mem hf
      obtain ⟨hm, hall⟩ := h.sound_accepted ha h0 hds hr hfs hd
      -- All frames of the message were there before, if it was returned before, and now another one comes.
      have hnew : f.sequenceNumber.toNat ∉ is := fun hi => h.not_mem hds (hin _ hi _ hfs _ hd)
      refine ⟨is ++ [f.sequenceNumber.toNat], ?_, ?_, ?_, History.each_append_singleton.2 ⟨?_, ?_⟩⟩
      · rw [← List.concat_eq_append]
        exact hnodup.concat hnew
      · rw [List.map_append, List.map_append, hreturned, List.map_singleton, hm]
        rfl
      · refine List.forall_mem_append.2 ⟨fun i hi fs hfs g hg => hmap g (hin i hi fs hfs g hg), ?_⟩
        refine List.forall_mem_singleton.2 fun fs hfs' g hg => ?_
        rw [hfs] at hfs'
        cases hfs'
        exact hall g hg
      · exact fun pre' d' post' hpre v hv i fs hi hd' =>
          List.mem_append_left _ (heach pre' d' post' hpre v hv i fs hi hd')
      · intro v _ i fs hi hd'
        rw [Accepted.place_unique ha hi hfs hd' hd]
        exact List.mem_append_right _ (List.mem_singleton_self _)

end

/-! ### Runs -/

/-- What a step does. -/
inductive Step (s : State) : Action → State → List Event → Prop
  | refused {data : Bytes} {cut : Option Nat} : Step s (.write data cut) s [.refused data]
  | written {data : Bytes} {splitter : Splitter} {frames : List Bytes} :
      s.splitter.split data s.frames = some (.ok (), splitter, frames) →
      Step s (.write data none) { s with splitter := splitter, frames := [], network := s.network ++ frames }
        [.sent data, .written data]
  | failed {data : Bytes} {splitter : Splitter} {frames : List Bytes} {cut : Nat} :
      s.splitter.split data s.frames = some (.ok (), splitter, frames) →
      Step s (.write data (some cut))
        { s with splitter := splitter, frames := frames.drop (cut + 1), network := s.network ++ frames.take cut }
        [.sent data]
  | arrived {i now later : Nat} {frame : Bytes} {frameBuf : FrameBuf} {data : Option Bytes} :
      s.network[i]? = some frame → s.clock ≤ now → now ≤ later → s.frameBuf.push now later frame = (data, frameBuf) →
      Step s (.arrive i now later)
        { s with network := s.network.eraseIdx i, frameBuf := frameBuf, clock := later }
        (.arrived ⟨now, later, frame⟩ :: (data.map Event.read).toList)

variable {c : Config} {s s' : State} {act : Action} {log evs : List Event}

theorem split_error {s s' : Splitter} {data : Bytes} {frames frames' : List Bytes} {e : Unit}
    (h : s.split data frames = some (.error e, s', frames')) : s' = s ∧ frames' = frames := by
  rw [Splitter.split] at h
  split at h
  · cases h
    exact ⟨rfl, rfl⟩
  · simp only at h
    split at h
    · obtain ⟨_, -, he⟩ := Option.map_eq_some_iff.1 h
      cases he
    · cases h

theorem step_step (h : step s act = some (s', evs)) : Step s act s' evs := by
  cases act with
  | write data cut =>
    simp only [step] at h
    split at h
    · rename_i hs
      cases h
      obtain ⟨rfl, rfl⟩ := split_error hs
      exact .refused
    · rename_i hs
      split at h
      · cases h
        exact .written hs
      · split at h
        · cases h
          exact .failed hs
        · cases h
    · cases h
  | arrive i now later =>
    simp only [step] at h
    split at h
    · split at h
      · rename_i hn ht
        cases h
        exact .arrived hn ht.1 ht.2 rfl
      · cases h
    · cases h

@[simp] theorem sent_append (log evs : List Event) : sent (log ++ evs) = sent log ++ sent evs := List.filterMap_append

@[simp] theorem written_append (log evs : List Event) : written (log ++ evs) = written log ++ written evs :=
  List.filterMap_append

@[simp] theorem arrivals_append (log evs : List Event) : arrivals (log ++ evs) = arrivals log ++ arrivals evs :=
  List.filterMap_append

@[simp] theorem read_append (log evs : List Event) : read (log ++ evs) = read log ++ read evs := List.filterMap_append

/-- What went in, where it is, and what came out. -/
structure Inv (c : Config) (log : List Event) (s : State) : Prop where
  splitter : s.splitter = { Splitter.new c.maxDatagramSize c.pos with
    sequenceNumber := UInt32.ofNat (sent log).length }
  frames : ∃ frames, (Splitter.new c.maxDatagramSize c.pos).splitAll (sent log) = some frames ∧
    ((arrivals log).map Arrival.frame ++ s.network ++ s.frames).Subperm frames.flatten
  frameBuf : s.frameBuf = (FrameBuf.new c.now).after (arrivals log)
  read : read log = returnedAll (FrameBuf.new c.now) (arrivals log)
  clock : Clock (arrivals log)
  late : ∀ d ∈ arrivals log, d.later ≤ s.clock

namespace Inv

theorem init (c : Config) : Inv c [] (machine c).init :=
  ⟨rfl, ⟨[], rfl, .refl _⟩, rfl, rfl, ⟨.nil, nofun⟩, nofun⟩

/-- A message is split; its frames and those that were left go into the network, or are lost. -/
theorem send (h : Inv c log s) {data : Bytes} {splitter : Splitter} {frames network left : List Bytes}
    (hs : s.splitter.split data s.frames = some (.ok (), splitter, frames)) (hsent : sent evs = [data])
    (ha : arrivals evs = []) (hr : Datagrams.read evs = []) (hn : (network ++ left).Subperm (s.network ++ frames)) :
    Inv c (log ++ evs) { s with splitter := splitter, frames := left, network := network } := by
  obtain ⟨rfl, new, rfl, hnew⟩ := split_ok hs
  obtain ⟨all, hall, hsub⟩ := h.frames
  rw [h.splitter] at hnew
  have hstart : ({ Splitter.new c.maxDatagramSize c.pos with sequenceNumber := UInt32.ofNat (sent log).length } : Splitter) =
      { Splitter.new c.maxDatagramSize c.pos with
        sequenceNumber := (Splitter.new c.maxDatagramSize c.pos).sequenceNumber + UInt32.ofNat (sent log).length } := by
    rw [show (Splitter.new c.maxDatagramSize c.pos).sequenceNumber = 0 from rfl, UInt32.zero_add]
  rw [hstart] at hnew
  refine ⟨?_, ⟨all ++ [new], ?_, ?_⟩, ?_, ?_, ?_, ?_⟩
  · rw [h.splitter, sent_append, hsent, List.length_append, List.length_singleton, UInt32.ofNat_add]
    rfl
  · rw [sent_append, hsent]
    exact splitAll_concat hall hnew
  · rw [arrivals_append, ha, List.append_nil, List.append_assoc, List.flatten_append, List.flatten_singleton]
    refine (List.Subperm.append (.refl _) hn).trans ?_
    rw [← List.append_assoc, ← List.append_assoc]
    exact hsub.append (.refl _)
  · rw [arrivals_append, ha, List.append_nil]
    exact h.frameBuf
  · rw [arrivals_append, ha, read_append, hr, List.append_nil, List.append_nil]
    exact h.read
  · rw [arrivals_append, ha, List.append_nil]
    exact h.clock
  · rw [arrivals_append, ha, List.append_nil]
    exact h.late

theorem step (h : Inv c log s) (hs : Step s act s' evs) : Inv c (log ++ evs) s' := by
  cases hs with
  | refused =>
    refine ⟨?_, ?_, ?_, ?_, ?_, ?_⟩ <;> simp only [sent_append, arrivals_append, read_append]
    · simpa [sent] using h.splitter
    · simpa [sent, arrivals] using h.frames
    · simpa [arrivals] using h.frameBuf
    · simpa [arrivals, Datagrams.read] using h.read
    · simpa [arrivals] using h.clock
    · simpa [arrivals] using h.late
  | written hs =>
    exact h.send hs rfl rfl rfl (by rw [List.append_nil])
  | failed hs =>
    rename_i data splitter frames cut
    refine h.send hs rfl rfl rfl ?_
    have hsub : (frames.take cut ++ frames.drop (cut + 1)).Sublist frames := by
      conv => rhs; rw [← List.take_append_drop cut frames]
      exact (List.Sublist.refl _).append (by rw [← List.drop_drop]; exact List.drop_sublist 1 _)
    rw [List.append_assoc]
    exact List.Subperm.append (.refl _) hsub.subperm
  | arrived hn hc hl hp =>
    rename_i i now later frame frameBuf data
    have hsent : sent (.arrived ⟨now, later, frame⟩ :: (data.map Event.read).toList) = [] := by cases data <;> rfl
    have harr : arrivals (.arrived ⟨now, later, frame⟩ :: (data.map Event.read).toList) = [⟨now, later, frame⟩] := by
      cases data <;> rfl
    have hread : Datagrams.read (.arrived ⟨now, later, frame⟩ :: (data.map Event.read).toList) = data.toList := by
      cases data <;> rfl
    have hbuf : frameBuf = (s.frameBuf.push now later frame).2 := by rw [hp]
    have hdata : data = s.frameBuf.returned ⟨now, later, frame⟩ := by rw [FrameBuf.returned, hp]
    obtain ⟨all, hall, hsub⟩ := h.frames
    refine ⟨?_, ⟨all, ?_, ?_⟩, ?_, ?_, ⟨?_, ?_⟩, ?_⟩ <;>
      simp only [sent_append, arrivals_append, read_append, hsent, harr, hread, List.append_nil]
    · exact h.splitter
    · exact hall
    · refine .trans ?_ hsub
      have hperm : (frame :: s.network.eraseIdx i).Perm s.network := by
        obtain ⟨hi, rfl⟩ := List.getElem?_eq_some_iff.1 hn
        exact List.getElem_cons_eraseIdx_perm hi
      rw [List.map_append, List.map_singleton, List.append_assoc, List.append_assoc, List.append_assoc]
      refine (List.Perm.append_left _ ?_).subperm
      rw [← List.append_assoc]
      exact hperm.append_right _
    · rw [FrameBuf.after_concat, ← h.frameBuf, hbuf]
    · rw [returnedAll_concat, ← h.frameBuf, h.read, hdata]
    · exact List.pairwise_append.2 ⟨h.clock.pushes, List.pairwise_singleton .., fun d hd d' hd' => by
        obtain rfl := List.mem_singleton.1 hd'
        exact (h.late d hd).trans hc⟩
    · exact List.forall_mem_append.2 ⟨h.clock.within, List.forall_mem_singleton.2 hl⟩
    · exact List.forall_mem_append.2 ⟨fun d hd => (h.late d hd).trans (hc.trans hl), List.forall_mem_singleton.2 le_rfl⟩

theorem of_run (h : (machine c).Run log s) : Inv c log s := by
  refine h.invariant (I := Inv c) (.init c) ?_
  rintro log s a s' evs - hi - ha
  exact hi.step (step_step ha)

end Inv

/-- The places of the messages that were read, as long as the numbers do not start over. -/
theorem exists_reads (h : (machine c).Run log s) (hne : ∀ data ∈ sent log, data ≠ []) (hl : (sent log).length < 2 ^ 32) :
    ∃ frames is, (Splitter.new c.maxDatagramSize c.pos).splitAll (sent log) = some frames ∧ Reads log frames is := by
  have hinv := Inv.of_run h
  obtain ⟨frames, hall, hsub⟩ := hinv.frames
  obtain ⟨sentBy, hacc⟩ := accepted hne hl hall
  have hframes : ((arrivals log).map Arrival.frame).Subperm frames.flatten := by
    rw [List.append_assoc] at hsub
    exact (List.sublist_append_left _ _).subperm.trans hsub
  have hnodup : ((arrivals log).map Arrival.frame).Nodup := by
    obtain ⟨_, hperm, hsublist⟩ := hframes
    exact hperm.nodup_iff.1 (hsublist.nodup (Accepted.nodup hacc))
  have hdel : Delivery sentBy (arrivals log) :=
    ⟨fun d hd => hacc.has (hframes.subset (List.mem_map_of_mem hd)), hnodup⟩
  obtain ⟨is, honce, hreturned, -, heach⟩ := exists_places (b := .new c.now) hdel hacc (fun _ => rfl) (arrivals log) [] (by simp)
  refine ⟨frames, is, hall, by rw [hinv.read, hreturned], honce, fun i fs hi hcame ht => ?_⟩
  obtain ⟨data, gs, hdata, rfl, hs, -⟩ := hacc.numbered i fs hi
  obtain ⟨pre, d, post, hds, hd, hr, -⟩ := hdel.completes (b := .new c.now) hinv.clock hacc.valid (fun _ => rfl) hs
    (hne data (List.mem_of_getElem? hdata)) (fun f hf => hcame _ (List.mem_map_of_mem hf)) ht
  exact heach pre d post hds data hr i _ hi hd

/-- Whatever the network does with the datagrams and wherever a write fails: what is read are messages that were sent, each
of them at most once and as a whole, and every message is read whose frames arrive in time; as long as the numbers of the
messages do not start over. -/
theorem datagrams_read (h : (machine c).Run log s) (hne : ∀ data ∈ sent log, data ≠ []) (hl : (sent log).length < 2 ^ 32) :
    ∃ frames is, (Splitter.new c.maxDatagramSize c.pos).splitAll (sent log) = some frames ∧ Reads log frames is :=
  exists_reads h hne hl

/-- Three messages: the last is read before the first, and the second never as a datagram of it is not sent. -/
theorem datagrams_read_three : ∃ log s, (machine ⟨12, by decide, 0⟩).Run log s ∧
    (∃ frames is, (Splitter.new 12 (by decide)).splitAll (sent log) = some frames ∧ Reads log frames is) ∧
      sent log = [[1, 2, 3, 4, 5, 6], [7, 8, 9, 10, 11], [12]] ∧ (read log).length = 2 := by
  obtain ⟨log, s, h, hsent, hread⟩ := Machine.Exec.exists_of_any (M := machine ⟨12, by decide, 0⟩) (C := fun _ _ _ => True)
    [.write [1, 2, 3, 4, 5, 6] none, .write [7, 8, 9, 10, 11] (some 1), .arrive 1 5 5, .arrive 1 5 6, .write [12] none,
      .arrive 1 7 8, .arrive 0 9 9]
    (P := fun log _ => sent log = [[1, 2, 3, 4, 5, 6], [7, 8, 9, 10, 11], [12]] ∧ (read log).length = 2)
    (by decide +kernel)
  refine ⟨log, s, h, datagrams_read h ?_ ?_, hsent, hread⟩
  · rw [hsent]
    decide
  · rw [hsent]
    decide

end Iscp.Datagrams
