import Mathlib.Data.List.Basic

/-!
# A fair semaphore

Permits are handed to the waiters in their order of arrival: a permit that is released while somebody
waits never becomes available. `Exclusive`: the semaphore guards one permit, and `holds` says who has it.
-/

structure Semaphore (α : Type*) where
  permits : Nat
  waiters : List α := []
  closed : Bool := false
deriving DecidableEq

namespace Semaphore

variable {α : Type*} {s : Semaphore α} {a b : α} {holds holds' : α → Prop}

inductive Acquired
  | permit
  | queued
  | closed
deriving DecidableEq

def acquire (s : Semaphore α) (a : α) : Semaphore α × Acquired :=
  if s.closed then (s, .closed)
  else if 0 < s.permits then ({ s with permits := s.permits - 1 }, .permit)
  else ({ s with waiters := s.waiters ++ [a] }, .queued)

/-- Gives a permit back; the waiter that it goes to, if any. -/
def release (s : Semaphore α) : Semaphore α × Option α :=
  match s.waiters with
  | [] => ({ s with permits := s.permits + 1 }, none)
  | a :: waiters => ({ s with waiters }, some a)

/-- `a` stops waiting. -/
def leave [DecidableEq α] (s : Semaphore α) (a : α) : Semaphore α :=
  { s with waiters := s.waiters.erase a }

/-- Every waiter is woken with an error. -/
def close (s : Semaphore α) : Semaphore α := { s with waiters := [], closed := true }

theorem acquire_cases (s : Semaphore α) (a : α) :
    (s.closed = true ∧ s.acquire a = (s, .closed)) ∨
    (s.closed = false ∧ 0 < s.permits ∧
      s.acquire a = ({ s with permits := s.permits - 1 }, .permit)) ∨
    (s.closed = false ∧ s.permits = 0 ∧
      s.acquire a = ({ s with waiters := s.waiters ++ [a] }, .queued)) := by
  unfold acquire
  rcases h : s.closed with _ | _
  · by_cases hp : 0 < s.permits
    · simp [hp]
    · simp [Nat.eq_zero_of_not_pos hp]
  · simp

theorem release_cases (s : Semaphore α) :
    (s.waiters = [] ∧ s.release = ({ s with permits := s.permits + 1 }, none)) ∨
    ∃ a waiters, s.waiters = a :: waiters ∧ s.release = ({ s with waiters }, some a) := by
  unfold release
  rcases h : s.waiters with _ | ⟨a, waiters⟩ <;> simp

@[simp] theorem release_closed : s.release.1.closed = s.closed := by
  obtain ⟨_, h⟩ | ⟨a, waiters, _, h⟩ := s.release_cases <;> rw [h]

/-- At most one has the permit, and nobody while it is available. -/
structure Exclusive (s : Semaphore α) (holds : α → Prop) : Prop where
  unique : ∀ a b, holds a → holds b → a = b
  permits_le : s.permits ≤ 1
  taken : 0 < s.permits → ∀ a, ¬ holds a

namespace Exclusive

theorem congr (h : s.Exclusive holds) (hh : ∀ a, holds' a → holds a) : s.Exclusive holds' where
  unique a b ha hb := h.unique a b (hh a ha) (hh b hb)
  permits_le := h.permits_le
  taken hp a ha := h.taken hp a (hh a ha)

theorem of_permits_eq {s' : Semaphore α} (h : s.Exclusive holds) (hp : s'.permits = s.permits) :
    s'.Exclusive holds where
  unique := h.unique
  permits_le := hp ▸ h.permits_le
  taken h0 := h.taken (hp ▸ h0)

/-- The permit goes to `a`, who is the only one to have it. -/
theorem acquire (h : s.Exclusive holds) (hp : 0 < s.permits) (hh : ∀ b, holds' b → b = a ∨ holds b) :
    Exclusive { s with permits := s.permits - 1 } holds' := by
  have hn : ∀ b, holds' b → b = a := fun b hb => (hh b hb).resolve_right (h.taken hp b)
  have hle := h.permits_le
  refine ⟨fun b c hb hc => (hn b hb).trans (hn c hc).symm, ?_, ?_⟩
  · show s.permits - 1 ≤ 1
    omega
  · intro h1
    have h2 : 0 < s.permits - 1 := h1
    omega

/-- The one that has the permit gives it to the first waiter, or leaves it. -/
theorem release (h : s.Exclusive holds) (ha : holds a)
    (hh : ∀ b, holds' b → s.release.2 = some b ∨ holds b ∧ b ≠ a) :
    s.release.1.Exclusive holds' := by
  have h0 : s.permits = 0 := by
    by_contra hp
    exact h.taken (Nat.pos_of_ne_zero hp) a ha
  have hn : ∀ b, holds' b → s.release.2 = some b := fun b hb =>
    (hh b hb).resolve_right fun ⟨hb, hne⟩ => hne (h.unique b a hb ha)
  obtain ⟨_, hr⟩ | ⟨c, waiters, _, hr⟩ := s.release_cases
  · rw [hr] at hn ⊢
    refine ⟨fun b c hb => ?_, ?_, fun _ b hb => ?_⟩
    · exact absurd (hn b hb) (by simp)
    · show s.permits + 1 ≤ 1
      omega
    · exact absurd (hn b hb) (by simp)
  · rw [hr] at hn ⊢
    refine ⟨fun b d hb hd => ?_, h.permits_le, fun hp => ?_⟩
    · have h1 := hn b hb
      have h2 := hn d hd
      simp only [Option.some.injEq] at h1 h2
      exact h1.symm.trans h2
    · have hp : 0 < s.permits := hp
      omega

end Exclusive

end Semaphore
