import Iscp.Lib.Coder

/-!
# Coders of functions

A function that decodes, or encodes, a whole string makes a streaming coder: it takes all the input that
it is offered and gives the output as far as there is room.
-/

namespace Coder

structure OneShot (β : Type*) where
  dict : List β := []
  fed : List β := []
  given : Nat := 0

variable {β ε : Type*}

/-- The next piece of the output `z`. -/
def OneShot.next (st : OneShot β) (z : List β) (room : Nat) : List β := (z.drop st.given).take room

def OneShot.take (st : OneShot β) (input : List β) : OneShot β := { st with fed := st.fed ++ input }

def OneShot.give (st : OneShot β) (o : List β) : OneShot β :=
  { st with given := st.given + o.length }

def inflater (parse : List β → List β → Parse β) (e : ε) : Coder (OneShot β) β ε where
  reset _ := {}
  setDictionary st dict := .ok { st with dict }
  totalIn st := st.fed.length
  code st input room flush :=
    let p := parse st.dict (st.fed ++ input)
    let o := st.next p.output room
    let st := (st.take input).give o
    if st.given < p.output.length ∨ p.verdict = .truncated then
      .ok (st, o, if flush = .finish then .bufError else .ok)
    else if p.verdict = .malformed then .error e
    else .ok (st, o, .streamEnd)

def deflater (encode : List β → List β → List β) : Coder (OneShot β) β ε where
  reset _ := {}
  setDictionary st dict := .ok { st with dict }
  totalIn st := st.fed.length
  code st input room flush :=
    match flush with
    | .none => .ok (st.take input, [], if input.isEmpty then .bufError else .ok)
    | .finish =>
      let z := encode st.dict (st.fed ++ input)
      let o := st.next z room
      let st := (st.take input).give o
      .ok (st, o, if st.given = z.length then .streamEnd else if o.isEmpty then .bufError else .ok)

/-- The session of a one-shot coder whose whole output is `z`. -/
structure OneShot.Holds (dict data z : List β) (st : OneShot β) (out : List β) : Prop where
  dict : st.dict = dict
  fed : st.fed = [] ∨ st.fed = data
  given : st.given ≤ z.length
  out : out = z.take st.given

namespace OneShot.Holds

variable {dict data z out : List β} {st : OneShot β}

theorem init : Holds dict data z { dict } [] := ⟨rfl, .inl rfl, Nat.zero_le _, rfl⟩

theorem append_drop (h : Holds dict data z st out) : st.fed ++ data.drop st.fed.length = data := by
  rcases h.fed with hf | hf <;> simp [hf]

theorem length_le (h : Holds dict data z st out) : st.fed.length ≤ data.length := by
  rcases h.fed with hf | hf <;> simp [hf]

theorem length_next (st : OneShot β) (z : List β) (room : Nat) :
    (st.next z room).length = min room (z.length - st.given) := by
  simp [next]

theorem append_next (h : Holds dict data z st out) (room : Nat) :
    out ++ st.next z room = z.take (st.given + (st.next z room).length) := by
  rw [h.out, length_next, next, List.take_add]
  congr 1
  rw [List.take_eq_take_iff, List.length_drop]
  omega

theorem give (h : Holds dict data z st out) (room : Nat) :
    Holds dict data z ((st.take (data.drop st.fed.length)).give (st.next z room))
      (out ++ st.next z room) := by
  refine ⟨h.dict, .inr h.append_drop, ?_, h.append_next room⟩
  show st.given + (st.next z room).length ≤ z.length
  have := h.given
  rw [length_next]
  omega

theorem next_eq_nil (h : Holds dict data z st out) {room : Nat} (hroom : 0 < room)
    (hn : st.next z room = []) : st.given = z.length := by
  have hl := congrArg List.length hn
  have := h.given
  rw [length_next, List.length_nil] at hl
  omega

theorem out_eq (h : Holds dict data z st out) (hg : st.given = z.length) : out = z := by
  rw [h.out, hg, List.take_length]

end OneShot.Holds

section Inflater

variable {parse : List β → List β → Parse β} {e e' : ε} {dict data out o : List β} {st st' : OneShot β}
  {room : Nat} {status : Status}

theorem inflater_start (st : OneShot β) (dict : List β) :
    (inflater parse e).start st dict = .ok { dict } := by
  unfold start
  split
  · rename_i h
    rw [List.isEmpty_iff.1 h]
    rfl
  · rfl

theorem inflater_call (h : OneShot.Holds dict data (parse dict data).output st out) :
    let o := st.next (parse dict data).output room
    let st' := (st.take (data.drop st.fed.length)).give o
    (inflater parse e).call data st room =
      if st'.given < (parse dict data).output.length ∨ (parse dict data).verdict = .truncated then
        .ok (st', o, if data.length ≤ st.fed.length then .bufError else .ok)
      else if (parse dict data).verdict = .malformed then .error e
      else .ok (st', o, .streamEnd) := by
  have hflush : (inflater parse e).flush data st = .finish ↔ data.length ≤ st.fed.length := by
    show (if st.fed.length < data.length then Flush.none else Flush.finish) = .finish ↔ _
    split <;> simp <;> omega
  unfold call
  show (inflater parse e).code st (data.drop st.fed.length) room _ = _
  simp only [inflater, h.dict, h.append_drop] at hflush ⊢
  simp only [hflush]

theorem inflater_call_ok (h : OneShot.Holds dict data (parse dict data).output st out)
    (hc : (inflater parse e).call data st room = .ok (st', o, status)) :
    o = st.next (parse dict data).output room ∧
    st' = (st.take (data.drop st.fed.length)).give o ∧
    (status = .streamEnd ∧ st'.given = (parse dict data).output.length ∧
        (parse dict data).verdict = .complete ∨
      status = (if data.length ≤ st.fed.length then .bufError else .ok) ∧
        (st'.given < (parse dict data).output.length ∨ (parse dict data).verdict = .truncated)) := by
  rw [inflater_call h] at hc
  split_ifs at hc with ht _ hm <;> injection hc with hc <;> cases hc
  · exact ⟨rfl, rfl, .inr ⟨(if_pos ‹_›).symm, ht⟩⟩
  · exact ⟨rfl, rfl, .inr ⟨(if_neg ‹_›).symm, ht⟩⟩
  · rw [not_or] at ht
    refine ⟨rfl, rfl, .inl ⟨rfl, Nat.le_antisymm (h.give room).given (Nat.le_of_not_lt ht.1), ?_⟩⟩
    cases hv : (parse dict data).verdict with
    | complete => rfl
    | malformed => exact absurd hv hm
    | truncated => exact absurd hv ht.2

theorem inflater_holds (hs : Session (inflater parse e) dict data st out) :
    OneShot.Holds dict data (parse dict data).output st out := by
  induction hs with
  | start hs =>
    rw [inflater_start] at hs
    cases hs
    exact .init
  | call _ hc _ ih =>
    obtain ⟨rfl, rfl, _⟩ := inflater_call_ok ih hc
    exact ih.give _

/-- The coder of `parse` decodes as it says. -/
theorem inflater_inflates (hnil : ∀ dict, parse dict [] = ⟨.truncated, []⟩) (e : ε) :
    Inflates (inflater parse e) parse where
  nil := hnil
  start st dict := ⟨_, inflater_start st dict⟩
  totalIn_start hs := by
    rw [inflater_start] at hs
    cases hs
    rfl
  error hs hc := by
    rw [inflater_call (inflater_holds hs)] at hc
    split_ifs at hc
    assumption
  taken {dict data st out room st' o status} hs hc := by
    have h := inflater_holds hs
    obtain ⟨_, rfl, _⟩ := inflater_call_ok h hc
    show st.fed.length ≤ (st.fed ++ data.drop st.fed.length).length ∧
      (st.fed ++ data.drop st.fed.length).length ≤ data.length
    rw [h.append_drop]
    exact ⟨h.length_le, Nat.le_refl _⟩
  output {dict data st out room st' o status} hs hc := by
    have h := inflater_holds hs
    obtain ⟨rfl, _, _⟩ := inflater_call_ok h hc
    rw [h.append_next]
    exact List.take_prefix _ _
  progress {dict data st out room st' o} hs hc := by
    have h := inflater_holds hs
    obtain ⟨_, rfl, ⟨hst, _⟩ | ⟨hst, _⟩⟩ := inflater_call_ok h hc
    · cases hst
    · left
      show st.fed.length < (st.fed ++ data.drop st.fed.length).length
      rw [h.append_drop]
      by_contra hn
      rw [if_pos (Nat.le_of_not_lt hn)] at hst
      cases hst
  streamEnd {dict data st out room st' o} hs hc := by
    have h := inflater_holds hs
    obtain ⟨rfl, rfl, ⟨_, hg, hv⟩ | ⟨hst, _⟩⟩ := inflater_call_ok h hc
    · exact ⟨hv, (h.give room).out_eq hg⟩
    · split at hst <;> cases hst
  bufError {dict data st out room st' o} hs hc hf := by
    have h := inflater_holds hs
    have hlt : st.fed.length < data.length := by
      by_contra hn
      rw [flush, show (inflater parse e).totalIn st = st.fed.length from rfl, if_neg hn] at hf
      cases hf
    obtain ⟨_, _, ⟨hst, _⟩ | ⟨hst, _⟩⟩ := inflater_call_ok h hc
    · cases hst
    · rw [if_neg (Nat.not_le_of_lt hlt)] at hst
      cases hst
  stuck {dict data st out room st'} hs hroom hc heq := by
    have h := inflater_holds hs
    obtain ⟨hnext, rfl, ⟨hst, _⟩ | ⟨_, ht⟩⟩ := inflater_call_ok h hc
    · cases hst
    · refine ⟨ht.resolve_left ?_, ?_⟩
      · have := h.next_eq_nil hroom hnext.symm
        show ¬ st.given + 0 < _
        omega
      · have heq : (st.fed ++ data.drop st.fed.length).length = st.fed.length := heq
        rw [h.append_drop] at heq
        exact heq.symm
  drained {dict data st out room} hs hv hl hout := by
    have h := inflater_holds hs
    have hg : st.given = (parse dict data).output.length := by
      have := congrArg List.length (h.out.symm.trans hout)
      rw [List.length_take] at this
      have := h.given
      omega
    have hnext : st.next (parse dict data).output room = [] := by
      rw [OneShot.next, hg, List.drop_length, List.take_nil]
    refine ⟨(st.take (data.drop st.fed.length)).give [], ?_, ?_⟩
    · have hl : st.fed.length = data.length := hl
      rw [inflater_call h, if_pos (.inr hv), hnext, if_pos (Nat.le_of_eq hl.symm)]
    · show (st.fed ++ data.drop st.fed.length).length = st.fed.length
      rw [h.append_drop, ← hl]
      rfl

end Inflater

section Deflater

variable {encode : List β → List β → List β} {dict data out o : List β} {st st' : OneShot β}
  {room : Nat} {status : Status}

theorem deflater_start (st : OneShot β) (dict : List β) :
    (deflater encode : Coder _ β ε).start st dict = .ok { dict } := by
  unfold start
  split
  · rename_i h
    rw [List.isEmpty_iff.1 h]
    rfl
  · rfl

/-- A call takes what is left of the input, or gives a piece of the output. -/
theorem deflater_call (h : OneShot.Holds dict data (encode dict data) st out) :
    (deflater encode : Coder _ β ε).call data st room =
      if st.fed.length < data.length then .ok (st.take (data.drop st.fed.length), [], .ok)
      else
        let o := st.next (encode dict data) room
        let st' := (st.take (data.drop st.fed.length)).give o
        .ok (st', o, if st'.given = (encode dict data).length then .streamEnd
          else if o.isEmpty then .bufError else .ok) := by
  unfold call flush
  show (deflater encode : Coder _ β ε).code st (data.drop st.fed.length) room
    (if st.fed.length < data.length then Flush.none else Flush.finish) = _
  split
  · rename_i hlt
    have hne : (data.drop st.fed.length).isEmpty = false := by
      rw [List.isEmpty_eq_false_iff_exists_mem]
      exact List.exists_mem_of_length_pos (by rw [List.length_drop]; omega)
    simp only [deflater, hne, Bool.false_eq_true, if_false]
  · simp only [deflater, h.dict, h.append_drop]

theorem deflater_call_ok (h : OneShot.Holds dict data (encode dict data) st out)
    (hc : (deflater encode : Coder _ β ε).call data st room = .ok (st', o, status)) :
    st.fed.length < data.length ∧ o = [] ∧ st' = st.take (data.drop st.fed.length) ∧ status = .ok ∨
    o = st.next (encode dict data) room ∧ st' = (st.take (data.drop st.fed.length)).give o ∧
      status = if st'.given = (encode dict data).length then .streamEnd
        else if o.isEmpty then .bufError else .ok := by
  rw [deflater_call h] at hc
  split at hc
  · rename_i hlt
    cases hc
    exact .inl ⟨hlt, rfl, rfl, rfl⟩
  · cases hc
    exact .inr ⟨rfl, rfl, rfl⟩

theorem deflater_holds (hs : Session (deflater encode : Coder _ β ε) dict data st out) :
    OneShot.Holds dict data (encode dict data) st out := by
  induction hs with
  | start hs =>
    rw [deflater_start] at hs
    cases hs
    exact .init
  | call _ hc _ ih =>
    obtain ⟨_, rfl, rfl, _⟩ | ⟨rfl, rfl, _⟩ := deflater_call_ok ih hc
    · rw [List.append_nil]
      exact ⟨ih.dict, .inr ih.append_drop, ih.given, ih.out⟩
    · exact ih.give _

/-- The coder of `encode` encodes what `parse` decodes. -/
theorem deflater_deflates {parse : List β → List β → Parse β}
    (hp : ∀ dict data, parse dict (encode dict data) = ⟨.complete, data⟩) :
    Deflates (deflater encode : Coder _ β ε) parse where
  start st dict := ⟨_, deflater_start st dict⟩
  totalIn_start hs := by
    rw [deflater_start] at hs
    cases hs
    rfl
  call hs room := by
    rw [deflater_call (deflater_holds hs)]
    split <;> exact ⟨_, rfl⟩
  taken {dict data st out room st' o status} hs hc := by
    have h := deflater_holds hs
    have taken : st'.fed = data := by
      obtain ⟨_, _, rfl, _⟩ | ⟨_, rfl, _⟩ := deflater_call_ok h hc <;> exact h.append_drop
    show st.fed.length ≤ st'.fed.length ∧ st'.fed.length ≤ data.length
    rw [taken]
    exact ⟨h.length_le, Nat.le_refl _⟩
  room hs hc := by
    obtain ⟨_, rfl, _⟩ | ⟨rfl, _⟩ := deflater_call_ok (deflater_holds hs) hc
    · exact Nat.zero_le _
    · exact List.length_take_le _ _
  progress {dict data st out room st' o} hs hc := by
    have h := deflater_holds hs
    obtain ⟨hlt, _, rfl, _⟩ | ⟨_, _, hst⟩ := deflater_call_ok h hc
    · left
      show st.fed.length < (st.fed ++ data.drop st.fed.length).length
      rwa [h.append_drop]
    · right
      rintro rfl
      split at hst <;> cases hst
  bufError {dict data st out room st' o} hs hc := by
    have h := deflater_holds hs
    obtain ⟨_, _, _, hst⟩ | ⟨ho, rfl, hst⟩ := deflater_call_ok h hc
    · cases hst
    · split_ifs at hst with hg hn
      rw [List.isEmpty_iff] at hn
      subst hn
      rcases Nat.eq_zero_or_pos room with h0 | hpos
      · exact h0
      · exact absurd (h.next_eq_nil hpos ho.symm) hg
  streamEnd {dict data st out room st' o} hs hc := by
    have h := deflater_holds hs
    obtain ⟨_, _, _, hst⟩ | ⟨rfl, rfl, hst⟩ := deflater_call_ok h hc
    · cases hst
    · split_ifs at hst with hg _
      rw [(h.give room).out_eq hg]
      exact hp dict data
  bound dict data := by
    refine ⟨(encode dict data).length, fun st out hs => ?_⟩
    rw [(deflater_holds hs).out]
    exact List.length_take_le' _ _

end Deflater

end Coder
