import Iscp.Lib.Machine

/-!
# Machines that come to an end

Some of a machine's actions, left to themselves, come to an end when each of them lowers a rank; and where
they end is final when everywhere else one of them can be taken. Also how a machine appears to somebody who
sees a part of it.
-/

namespace Machine

variable {σ α ε : Type*} {M : Machine σ α ε} {p : α → Prop} {s s' : σ} {n : Nat}

/-- `n` steps, all of them by actions of `p`. -/
inductive Steps (M : Machine σ α ε) (p : α → Prop) (s : σ) : Nat → σ → Prop
  | refl : M.Steps p s 0 s
  | step {n s₁ a s₂ evs} : M.Steps p s n s₁ → p a → M.step s₁ a = some (s₂, evs) → M.Steps p s (n + 1) s₂

/-- The actions of `p` come to an end, and where none of them can be taken any more is in `Final`. -/
structure Ends (M : Machine σ α ε) (p : α → Prop) (Final : σ → Prop) (s : σ) : Prop where
  bounded : ∃ N, ∀ n s', M.Steps p s n s' → n ≤ N
  final : ∀ n s', M.Steps p s n s' → (∀ a, p a → M.step s' a = none) → Final s'

variable {I Final : σ → Prop} {μ : σ → Nat}

theorem Steps.invariant (hI : ∀ s a s' evs, I s → p a → M.step s a = some (s', evs) → I s') (h0 : I s)
    (h : M.Steps p s n s') : I s' := by
  induction h with
  | refl => exact h0
  | step _ hp hs ih => exact hI _ _ _ _ ih hp hs

/-- The potential rule: what a state has left is known by bounds, and every step has a lower one. -/
theorem Ends.of_potential {R : σ → Nat → Prop} (hI : ∀ s a s' evs, I s → p a → M.step s a = some (s', evs) → I s')
    (hR : ∀ s a s' evs n, I s → R s n → p a → M.step s a = some (s', evs) → ∃ m < n, R s' m)
    (hprogress : ∀ s, I s → (∀ a, p a → M.step s a = none) → Final s) (h0 : I s) (hn : R s n) :
    M.Ends p Final s := by
  refine ⟨⟨n, fun k s' h => ?_⟩, fun k s' h hstuck => hprogress s' (h.invariant hI h0) hstuck⟩
  have hleft : ∃ m, k + m ≤ n ∧ R s' m := by
    induction h with
    | refl => exact ⟨n, by omega, hn⟩
    | step hr hp hs ih =>
      obtain ⟨m, hle, hm⟩ := ih
      obtain ⟨m', hlt, hm'⟩ := hR _ _ _ _ _ (hr.invariant hI h0) hm hp hs
      exact ⟨m', by omega, hm'⟩
  obtain ⟨m, hle, -⟩ := hleft
  omega

/-- The ranking rule. -/
theorem Ends.of_rank (hI : ∀ s a s' evs, I s → p a → M.step s a = some (s', evs) → I s')
    (hμ : ∀ s a s' evs, I s → p a → M.step s a = some (s', evs) → μ s' < μ s)
    (hprogress : ∀ s, I s → (∀ a, p a → M.step s a = none) → Final s) (h0 : I s) : M.Ends p Final s := by
  refine .of_potential (R := fun s n => n = μ s) hI (fun s a s' evs n hi hn hp hs => ?_) hprogress h0 rfl
  exact ⟨μ s', by rw [hn]; exact hμ s a s' evs hi hp hs, rfl⟩

/-- The projection rule: where a part `π` of `M`, with what `f` keeps of the events, only moves as `N` does,
it runs through what `N` can run through. -/
theorem Exec.project {τ β δ : Type*} {N : Machine τ β δ} {C : List ε → σ → α → Prop} {log : List ε}
    {π : σ → τ} {f : ε → Option δ} (h0 : π M.init = N.init) (hl : M.log₀.filterMap f = N.log₀)
    (hs : ∀ log s a s' evs, M.Exec C log s → C log s a → M.step s a = some (s', evs) →
      π s' = π s ∧ evs.filterMap f = [] ∨ ∃ b, N.step (π s) b = some (π s', evs.filterMap f))
    (h : M.Exec C log s) : N.Run (log.filterMap f) (π s) := by
  refine h.invariant (I := fun log s => N.Run (log.filterMap f) (π s)) ?_ ?_
  · rw [h0, hl]
    exact .init
  · intro log s a s' evs hr hrun hc ha
    rw [List.filterMap_append]
    rcases hs log s a s' evs hr hc ha with ⟨hp, he⟩ | ⟨b, hb⟩
    · rwa [hp, he, List.append_nil]
    · exact hrun.step trivial hb

/-- `M` as it goes on from `s`. -/
def startAt {σ α ε : Type*} (M : Machine σ α ε) (s : σ) : Machine σ α ε :=
  { M with init := s, log₀ := [] }

/-- `M` without the actions outside of `q`. -/
def restrict {σ α ε : Type*} (M : Machine σ α ε) (q : α → Bool) : Machine σ α ε :=
  { M with step := fun s a => if q a then M.step s a else none }

theorem restrict_step {q : α → Bool} {a : α} {evs : List ε} (h : (M.restrict q).step s a = some (s', evs)) :
    q a ∧ M.step s a = some (s', evs) := by
  simp only [restrict] at h
  split at h
  · rename_i hq
    exact ⟨hq, h⟩
  · cases h

theorem Exec.of_restrict {q : α → Bool} {log : List ε} (h : (M.restrict q).Run log s) : M.Run log s := by
  have h0 : M.Run (M.restrict q).log₀ (M.restrict q).init := .init
  refine h.invariant (I := fun log s => M.Run log s) h0 ?_
  rintro log s a s' evs - hi - ha
  exact hi.step trivial (restrict_step ha).2

end Machine
