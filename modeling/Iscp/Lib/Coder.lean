import Mathlib.Data.List.Basic

/-!
# Streaming coders

A coder takes its input and gives its output in pieces, as far as there is room, and says after each call
how it stands. `drive` calls one with what is left of the input, into a growing buffer, until it says that
the stream is at its end. What an encoded byte string means is a `Parse` by a dictionary: `Inflates` and
`Deflates` say of a coder that its calls decode, or encode, according to one.
-/

structure Vec (β : Type*) where
  items : List β := []
  capacity : Nat := 0

namespace Vec

variable {β : Type*} (v : Vec β)

def room : Nat := v.capacity - v.items.length

def clear : Vec β := { v with items := [] }

/-- At least doubles the capacity where there is not enough room. -/
def reserve (additional : Nat) : Vec β :=
  if v.room < additional then
    { v with capacity := max (max (2 * v.capacity) (v.items.length + additional)) 8 }
  else v

def extend (items : List β) : Vec β := { v with items := v.items ++ items }

@[simp] theorem items_clear : v.clear.items = [] := rfl

@[simp] theorem items_reserve (additional : Nat) : (v.reserve additional).items = v.items := by
  unfold reserve
  split <;> rfl

@[simp] theorem items_extend (items : List β) : (v.extend items).items = v.items ++ items := rfl

theorem le_room_reserve (additional : Nat) : additional ≤ (v.reserve additional).room := by
  unfold reserve
  split
  · simp only [room]
    omega
  · omega

end Vec

namespace Coder

inductive Flush
  | none
  | finish
deriving DecidableEq

inductive Status
  | ok
  | bufError
  | streamEnd
deriving DecidableEq

end Coder

/-- A coder with states `σ` for strings over `β`; `code` gets the rest of the input and the room there is,
and gives the output of the call. -/
structure Coder (σ β ε : Type*) where
  reset : σ → σ
  setDictionary : σ → List β → Except ε σ
  totalIn : σ → Nat
  code : σ → List β → Nat → Coder.Flush → Except ε (σ × List β × Coder.Status)

namespace Coder

variable {σ β ε : Type*} {k : Coder σ β ε} {dict data out o : List β} {st st' : σ} {room : Nat}
  {status : Status} {e : ε}

def start (k : Coder σ β ε) (st : σ) (dict : List β) : Except ε σ :=
  if dict.isEmpty then .ok (k.reset st) else k.setDictionary (k.reset st) dict

/-- Once the input is used up the stream is to be finished. -/
def flush (k : Coder σ β ε) (data : List β) (st : σ) : Flush :=
  if k.totalIn st < data.length then .none else .finish

/-- The next call, with all of the input that is left. -/
def call (k : Coder σ β ε) (data : List β) (st : σ) (room : Nat) :
    Except ε (σ × List β × Status) :=
  k.code st (data.drop (k.totalIn st)) room (k.flush data st)

/-- Calls until the end of the stream, or until the first input is refused; `none` if `fuel` calls are
not enough. -/
def drive (k : Coder σ β ε) (increment : Nat) (data : List β) :
    Nat → σ → Vec β → Option (σ × Vec β × Except ε Unit)
  | 0, _, _ => none
  | fuel + 1, st, buffer =>
    match k.call data st buffer.room with
    | .error e => some (st, buffer, .error e)
    | .ok (st, o, status) =>
      let buffer := buffer.extend o
      match status with
      | .ok => k.drive increment data fuel st (buffer.reserve increment)
      | .bufError =>
        if k.totalIn st = 0 then some (st, buffer, .ok ())
        else k.drive increment data fuel st (buffer.reserve increment)
      | .streamEnd => some (st, buffer, .ok ())

/-- More fuel changes no result. -/
theorem drive_mono {increment fuel fuel' : Nat} {buffer : Vec β} {r : σ × Vec β × Except ε Unit}
    (h : k.drive increment data fuel st buffer = some r) (hle : fuel ≤ fuel') :
    k.drive increment data fuel' st buffer = some r := by
  induction fuel generalizing st buffer fuel' with
  | zero => cases h
  | succ fuel ih =>
    obtain ⟨fuel', rfl⟩ : ∃ n, fuel' = n + 1 := ⟨fuel' - 1, by omega⟩
    have hle : fuel ≤ fuel' := Nat.le_of_succ_le_succ hle
    unfold drive at h ⊢
    split at h
    · exact h
    · split at h
      · exact ih h hle
      · split at h
        · rename_i h0
          rw [if_pos h0]
          exact h
        · rename_i h0
          rw [if_neg h0]
          exact ih h hle
      · exact h

/-- The states of a coder that codes `data` with `dict`, with the output so far. -/
inductive Session (k : Coder σ β ε) (dict data : List β) : σ → List β → Prop
  | start {st st' : σ} : k.start st dict = .ok st' → Session k dict data st' []
  | call {st st' : σ} {out o : List β} {room : Nat} {status : Status} :
      Session k dict data st out → k.call data st room = .ok (st', o, status) →
      status ≠ .streamEnd → Session k dict data st' (out ++ o)

/-! ### What an encoded string means -/

inductive Verdict
  | complete
  | malformed
  /-- A proper beginning of a stream. -/
  | truncated
deriving DecidableEq

structure Parse (β : Type*) where
  verdict : Verdict
  output : List β

/-- The calls of `k` decode, as `parse` says. -/
structure Inflates (k : Coder σ β ε) (parse : List β → List β → Parse β) : Prop where
  nil : ∀ dict, parse dict [] = ⟨.truncated, []⟩
  start : ∀ st dict, ∃ st', k.start st dict = .ok st'
  totalIn_start : ∀ {st st' dict}, k.start st dict = .ok st' → k.totalIn st' = 0
  error : ∀ {dict data st out room e}, Session k dict data st out →
    k.call data st room = .error e → (parse dict data).verdict = .malformed
  taken : ∀ {dict data st out room st' o status}, Session k dict data st out →
    k.call data st room = .ok (st', o, status) →
    k.totalIn st ≤ k.totalIn st' ∧ k.totalIn st' ≤ data.length
  output : ∀ {dict data st out room st' o status}, Session k dict data st out →
    k.call data st room = .ok (st', o, status) → out ++ o <+: (parse dict data).output
  progress : ∀ {dict data st out room st' o}, Session k dict data st out →
    k.call data st room = .ok (st', o, .ok) → k.totalIn st < k.totalIn st' ∨ o ≠ []
  streamEnd : ∀ {dict data st out room st' o}, Session k dict data st out →
    k.call data st room = .ok (st', o, .streamEnd) →
    (parse dict data).verdict = .complete ∧ out ++ o = (parse dict data).output
  /-- Before the input is used up, `bufError` says that nothing happened. -/
  bufError : ∀ {dict data st out room st' o}, Session k dict data st out →
    k.call data st room = .ok (st', o, .bufError) → k.flush data st = .none →
    k.totalIn st' = k.totalIn st ∧ o = []
  /-- With room, nothing happens only when the input is used up before the end of the stream. -/
  stuck : ∀ {dict data st out room st'}, Session k dict data st out → 0 < room →
    k.call data st room = .ok (st', [], .bufError) → k.totalIn st' = k.totalIn st →
    (parse dict data).verdict = .truncated ∧ k.totalIn st = data.length
  /-- When the input is used up and all of its output is given, nothing happens. -/
  drained : ∀ {dict data st out room}, Session k dict data st out →
    (parse dict data).verdict = .truncated → k.totalIn st = data.length →
    out = (parse dict data).output →
    ∃ st', k.call data st room = .ok (st', [], .bufError) ∧ k.totalIn st' = k.totalIn st

/-- The calls of `k` encode what `parse` decodes. -/
structure Deflates (k : Coder σ β ε) (parse : List β → List β → Parse β) : Prop where
  start : ∀ st dict, ∃ st', k.start st dict = .ok st'
  totalIn_start : ∀ {st st' dict}, k.start st dict = .ok st' → k.totalIn st' = 0
  call : ∀ {dict data st out}, Session k dict data st out → ∀ room,
    ∃ r, k.call data st room = .ok r
  taken : ∀ {dict data st out room st' o status}, Session k dict data st out →
    k.call data st room = .ok (st', o, status) →
    k.totalIn st ≤ k.totalIn st' ∧ k.totalIn st' ≤ data.length
  room : ∀ {dict data st out room st' o status}, Session k dict data st out →
    k.call data st room = .ok (st', o, status) → o.length ≤ room
  progress : ∀ {dict data st out room st' o}, Session k dict data st out →
    k.call data st room = .ok (st', o, .ok) → k.totalIn st < k.totalIn st' ∨ o ≠ []
  /-- Nothing happens only where there is no room. -/
  bufError : ∀ {dict data st out room st' o}, Session k dict data st out →
    k.call data st room = .ok (st', o, .bufError) → room = 0
  streamEnd : ∀ {dict data st out room st' o}, Session k dict data st out →
    k.call data st room = .ok (st', o, .streamEnd) → parse dict (out ++ o) = ⟨.complete, data⟩
  bound : ∀ dict data, ∃ n, ∀ st out, Session k dict data st out → out.length ≤ n

/-! ### What `drive` does -/

variable {parse : List β → List β → Parse β} {increment fuel : Nat} {buffer : Vec β}

/-- What is left to take and to give. -/
def remaining (k : Coder σ β ε) (data : List β) (n : Nat) (st : σ) (out : List β) : Nat :=
  (data.length - k.totalIn st) + (n - out.length)

theorem remaining_lt {n : Nat} (ht : k.totalIn st ≤ k.totalIn st' ∧ k.totalIn st' ≤ data.length)
    (hn : (out ++ o).length ≤ n) (hp : k.totalIn st < k.totalIn st' ∨ o ≠ []) :
    k.remaining data n st' (out ++ o) < k.remaining data n st out := by
  simp only [remaining, List.length_append] at hn ⊢
  rcases hp with hp | hp
  · omega
  · have := List.length_pos_iff.2 hp
    omega

/-- A result that is what `parse` says of `data`. -/
def Fits (p : Parse β) : Vec β × Except ε Unit → Prop
  | (buffer, .ok ()) => p.verdict = .complete ∧ buffer.items = p.output
  | (_, .error _) => p.verdict = .malformed

namespace Inflates

/-- A complete stream is decoded, and a malformed one is refused. -/
theorem drive_ends (h : Inflates k parse) (hi : 0 < increment)
    (hv : (parse dict data).verdict ≠ .truncated) (hs : Session k dict data st buffer.items)
    (hroom : 0 < buffer.room)
    (hfuel : k.remaining data (parse dict data).output.length st buffer.items < fuel) :
    ∃ r, k.drive increment data fuel st buffer = some r ∧ Fits (parse dict data) r.2 := by
  induction fuel generalizing st buffer with
  | zero => omega
  | succ fuel ih =>
    unfold drive
    cases hc : k.call data st buffer.room with
    | error e => exact ⟨_, rfl, h.error hs hc⟩
    | ok r =>
      obtain ⟨st', o, status⟩ := r
      have ht := h.taken hs hc
      have ho := (h.output hs hc).length_le
      have again (hp : k.totalIn st < k.totalIn st' ∨ o ≠ []) (hne : status ≠ .streamEnd) :
          ∃ r, k.drive increment data fuel st' ((buffer.extend o).reserve increment) = some r ∧
            Fits (parse dict data) r.2 := by
        have hlt := remaining_lt ht ho hp
        refine ih ?_ (Nat.lt_of_lt_of_le hi (Vec.le_room_reserve ..)) ?_
        · rw [Vec.items_reserve]
          exact hs.call hc hne
        · rw [Vec.items_reserve, Vec.items_extend]
          omega
      cases status with
      | ok => exact again (h.progress hs hc) nofun
      | streamEnd => exact ⟨_, rfl, h.streamEnd hs hc⟩
      | bufError =>
        -- A call for which there is room and input changes something.
        have hp : k.totalIn st < k.totalIn st' ∨ o ≠ [] := by
          rcases Nat.lt_or_eq_of_le ht.1 with hlt | heq
          · exact .inl hlt
          · refine .inr ?_
            rintro rfl
            exact hv (h.stuck hs hroom hc heq.symm).1
        have h0 : k.totalIn st' ≠ 0 := by
          intro h0
          have hd : data ≠ [] := by
            rintro rfl
            exact hv (by rw [h.nil])
          have hflush : k.flush data st = .none := by
            have := List.length_pos_iff.2 hd
            rw [flush, if_pos (by omega)]
          obtain ⟨heq, rfl⟩ := h.bufError hs hc hflush
          exact hp.elim (by omega) (· rfl)
        simp only [if_neg h0]
        exact again hp nofun

/-- A stream that stops before its end is waited for. -/
theorem drive_truncated (h : Inflates k parse) (hi : 0 < increment) (fuel : Nat)
    (hv : (parse dict data).verdict = .truncated) (hd : data ≠ [])
    (hs : Session k dict data st buffer.items) (hroom : 0 < buffer.room) :
    k.drive increment data fuel st buffer = none := by
  induction fuel generalizing st buffer with
  | zero => rfl
  | succ fuel ih =>
    unfold drive
    cases hc : k.call data st buffer.room with
    | error e =>
      rw [h.error hs hc] at hv
      cases hv
    | ok r =>
      obtain ⟨st', o, status⟩ := r
      have again (hne : status ≠ .streamEnd) :
          k.drive increment data fuel st' ((buffer.extend o).reserve increment) = none := by
        refine ih ?_ (Nat.lt_of_lt_of_le hi (Vec.le_room_reserve ..))
        rw [Vec.items_reserve]
        exact hs.call hc hne
      cases status with
      | ok => exact again nofun
      | streamEnd =>
        rw [(h.streamEnd hs hc).1] at hv
        cases hv
      | bufError =>
        have h0 : k.totalIn st' ≠ 0 := by
          intro h0
          have hlen := List.length_pos_iff.2 hd
          have hst : k.totalIn st = 0 := by
            have := (h.taken hs hc).1
            omega
          have hflush : k.flush data st = .none := by rw [flush, if_pos (by omega)]
          obtain ⟨heq, rfl⟩ := h.bufError hs hc hflush
          have := (h.stuck hs hroom hc heq).2
          omega
        simp only [if_neg h0]
        exact again nofun

/-- Of an empty input nothing is made. -/
theorem drive_nil (h : Inflates k parse) (increment fuel : Nat) (hs : k.start st dict = .ok st')
    (hb : buffer.items = []) :
    ∃ st'' buffer', k.drive increment [] (fuel + 1) st' buffer = some (st'', buffer', .ok ()) ∧
      buffer'.items = [] := by
  have hcall : ∃ st'', k.call [] st' buffer.room = .ok (st'', [], .bufError) ∧
      k.totalIn st'' = k.totalIn st' :=
    h.drained (.start hs) (congrArg Parse.verdict (h.nil dict)) (h.totalIn_start hs)
      (congrArg Parse.output (h.nil dict)).symm
  obtain ⟨st'', hc, h0⟩ := hcall
  rw [h.totalIn_start hs] at h0
  refine ⟨st'', buffer.extend [], ?_, by simp [hb]⟩
  simp only [drive, hc, h0, if_true]

end Inflates

namespace Deflates

theorem drive_pos (h : Deflates k parse) (hi : 0 < increment) {n : Nat}
    (hn : ∀ st out, Session k dict data st out → out.length ≤ n)
    (hs : Session k dict data st buffer.items) (hroom : 0 < buffer.room)
    (hfuel : k.remaining data n st buffer.items + 1 < fuel) :
    ∃ st' buffer', k.drive increment data fuel st buffer = some (st', buffer', .ok ()) ∧
      parse dict buffer'.items = ⟨.complete, data⟩ := by
  induction fuel generalizing st buffer with
  | zero => omega
  | succ fuel ih =>
    obtain ⟨⟨st', o, status⟩, hc⟩ := h.call hs buffer.room
    simp only [drive, hc]
    cases status with
    | ok =>
      have hs' := hs.call hc nofun
      have hlt := remaining_lt (h.taken hs hc) (hn _ _ hs') (h.progress hs hc)
      refine ih ?_ (Nat.lt_of_lt_of_le hi (Vec.le_room_reserve ..)) ?_
      · rw [Vec.items_reserve]
        exact hs'
      · rw [Vec.items_reserve, Vec.items_extend]
        omega
    | streamEnd => exact ⟨_, _, rfl, h.streamEnd hs hc⟩
    | bufError =>
      rw [h.bufError hs hc] at hroom
      omega

/-- What is coded from the start is a complete stream; with no input and no room it may be nothing. -/
theorem drive_ends (h : Deflates k parse) (hi : 0 < increment) (hs : k.start st dict = .ok st')
    (hb : buffer.items = []) (hroom : data = [] ∨ 0 < buffer.room) :
    ∃ fuel₀ st'' buffer', (∀ fuel ≥ fuel₀,
        k.drive increment data fuel st' buffer = some (st'', buffer', .ok ())) ∧
      (parse dict buffer'.items = ⟨.complete, data⟩ ∨ data = [] ∧ buffer'.items = []) := by
  have hs' : Session k dict data st' buffer.items := by rw [hb]; exact .start hs
  rcases Nat.eq_zero_or_pos buffer.room with h0 | hpos
  · obtain rfl : data = [] := hroom.resolve_right (by omega)
    obtain ⟨⟨st'', o, status⟩, hc⟩ := h.call hs' buffer.room
    have ht := h.taken hs' hc
    rw [List.length_nil] at ht
    have ho : o = [] := by
      have := h.room hs' hc
      rw [h0] at this
      exact List.length_eq_zero_iff.1 (Nat.le_zero.1 this)
    subst ho
    refine ⟨1, st'', buffer.extend [], fun fuel hf => drive_mono ?_ hf, ?_⟩
    · cases status with
      | ok =>
        rcases h.progress hs' hc with hp | hp
        · omega
        · exact absurd rfl hp
      | bufError => simp only [drive, hc, Nat.le_zero.1 ht.2, if_true]
      | streamEnd => simp only [drive, hc]
    · exact .inr ⟨rfl, by rw [Vec.items_extend, hb, List.append_nil]⟩
  · obtain ⟨n, hn⟩ := h.bound dict data
    obtain ⟨st'', buffer', hr, hp⟩ := h.drive_pos hi hn hs' hpos (Nat.lt_succ_self _)
    exact ⟨_, st'', buffer', fun fuel hf => drive_mono hr hf, .inl hp⟩

end Deflates

end Coder
