import Mathlib.Data.List.Basic

/-!
# Channels

A bounded queue with one receiver. A send waits for room, and is refused once the receiver is gone; what
the receiver had not taken is gone with it. `Carries sent received c`: of the items `sent` into `c` those
in `received` came out, in the order in which they went in.
-/

structure Mpsc (α : Type*) where
  items : List α := []
  rxDropped : Bool := false
deriving DecidableEq

namespace Mpsc

variable {α : Type*} {c c' : Mpsc α} {a : α} {capacity : Nat} {ok : Bool} {sent received : List α}

/-- Whether the item was taken in; `none` where there is no room. -/
def send (capacity : Nat) (c : Mpsc α) (a : α) : Option (Bool × Mpsc α) :=
  if c.rxDropped then some (false, c)
  else if c.items.length < capacity then some (true, { c with items := c.items ++ [a] })
  else none

/-- The oldest item; `none` where there is none. -/
def recv (c : Mpsc α) : Option (α × Mpsc α) :=
  match c.items with
  | a :: items => some (a, { c with items := items })
  | [] => none

def dropRx (_ : Mpsc α) : Mpsc α := { items := [], rxDropped := true }

/-- What a send can do. -/
theorem send_cases (h : c.send capacity a = some (ok, c')) :
    ok = false ∧ c.rxDropped ∧ c' = c ∨
      ok = true ∧ c.rxDropped = false ∧ c.items.length < capacity ∧ c' = ⟨c.items ++ [a], false⟩ := by
  unfold send at h
  split at h
  · rename_i hd
    cases h
    exact .inl ⟨rfl, hd, rfl⟩
  · rename_i hd
    rw [Bool.not_eq_true] at hd
    split at h
    · rename_i hlt
      cases h
      exact .inr ⟨rfl, hd, hlt, by rw [hd]⟩
    · cases h

/-- A send that waits finds no room. -/
theorem send_eq_none (h : c.send capacity a = none) : capacity ≤ c.items.length := by
  unfold send at h
  split at h
  · cases h
  · split at h
    · cases h
    · omega

/-- What a receive can do. -/
theorem recv_eq_some (h : c.recv = some (a, c')) :
    c.items = a :: c'.items ∧ c'.rxDropped = c.rxDropped := by
  unfold recv at h
  split at h
  · rename_i items hi
    cases h
    exact ⟨hi, rfl⟩
  · cases h

theorem recv_eq_none (h : c.recv = none) : c.items = [] := by
  unfold recv at h
  split at h
  · cases h
  · assumption

/-- First in, first out. -/
structure Carries (sent received : List α) (c : Mpsc α) : Prop where
  whole : c.rxDropped = false → sent = received ++ c.items
  first : received <+: sent
  dropped : c.rxDropped → c.items = []

namespace Carries

theorem init : Carries ([] : List α) [] {} := ⟨fun _ => rfl, List.prefix_rfl, fun _ => rfl⟩

theorem send (h : Carries sent received c) (hs : c.send capacity a = some (true, c')) :
    Carries (sent ++ [a]) received c' := by
  rcases send_cases hs with ⟨hf, -⟩ | ⟨-, hd, -, rfl⟩
  · cases hf
  · refine ⟨fun _ => ?_, h.first.trans (List.prefix_append _ _), nofun⟩
    rw [h.whole hd, List.append_assoc]

theorem refused (h : Carries sent received c) (hs : c.send capacity a = some (false, c')) :
    Carries sent received c' := by
  rcases send_cases hs with ⟨-, -, rfl⟩ | ⟨hf, -⟩
  · exact h
  · cases hf

theorem recv (h : Carries sent received c) (hr : c.recv = some (a, c')) :
    Carries sent (received ++ [a]) c' := by
  obtain ⟨hi, hd⟩ := recv_eq_some hr
  have hopen : c.rxDropped = false := by
    by_contra hdrop
    have := h.dropped (Bool.not_eq_false _ ▸ hdrop)
    rw [hi] at this
    cases this
  have hsent : sent = received ++ [a] ++ c'.items := by
    rw [h.whole hopen, hi, List.append_assoc, List.singleton_append]
  exact ⟨fun _ => hsent, ⟨c'.items, hsent.symm⟩, fun hdrop => by rw [hd, hopen] at hdrop; cases hdrop⟩

theorem dropRx (h : Carries sent received c) : Carries sent received c.dropRx :=
  ⟨nofun, h.first, fun _ => rfl⟩

/-- With nothing left in the channel, all has come out. -/
theorem all (h : Carries sent received c) (hd : c.rxDropped = false) (hr : c.recv = none) :
    received = sent := by
  rw [h.whole hd, recv_eq_none hr, List.append_nil]

end Carries

/-- The queue keeps to its capacity. -/
theorem length_send (h : c.items.length ≤ capacity) (hs : c.send capacity a = some (ok, c')) :
    c'.items.length ≤ capacity := by
  rcases send_cases hs with ⟨-, -, rfl⟩ | ⟨-, -, hlt, rfl⟩
  · exact h
  · rw [List.length_append, List.length_singleton]
    omega

end Mpsc
