import Mathlib.Data.List.DropRight
import Mathlib.Data.List.Basic

/-!
# Machines with a history

A machine takes actions from a state; every step emits events, and a run keeps the list of all events
emitted so far. `Exec C log s`: some run of actions, each of which met the condition `C` when it was
taken, ends in state `s` after emitting `log`. The history is kept outside the state, so a property
of a whole run is a relation between `log` and `s`, proved by `Exec.invariant`.
-/

/-- A machine over states `σ`, actions `α` and events `ε`; `log₀` is what happened before the start. -/
structure Machine (σ α ε : Type*) where
  init : σ
  log₀ : List ε
  step : σ → α → Option (σ × List ε)

namespace Machine

variable {σ α ε : Type*} {M : Machine σ α ε}

/-- Runs whose every step meets `C` in the history and state before it. -/
inductive Exec (M : Machine σ α ε) (C : List ε → σ → α → Prop) : List ε → σ → Prop
  | init : M.Exec C M.log₀ M.init
  | step {log s a s' evs} : M.Exec C log s → C log s a → M.step s a = some (s', evs) →
      M.Exec C (log ++ evs) s'

/-- All runs. -/
abbrev Run (M : Machine σ α ε) : List ε → σ → Prop := M.Exec fun _ _ _ => True

variable {C : List ε → σ → α → Prop} {log : List ε} {s : σ}

namespace Exec

/-- The invariant rule: what the start satisfies and every step of a run keeps holds after every run. -/
theorem invariant {I : List ε → σ → Prop} (h0 : I M.log₀ M.init)
    (hs : ∀ log s a s' evs, M.Exec C log s → I log s → C log s a → M.step s a = some (s', evs) →
      I (log ++ evs) s')
    (h : M.Exec C log s) : I log s := by
  induction h with
  | init => exact h0
  | step hr hc ha ih => exact hs _ _ _ _ _ hr ih hc ha

end Exec

/-- Executes `acts` from `s` after `log`, as long as every action meets `C` and is enabled. -/
def exec (M : Machine σ α ε) (C : List ε → σ → α → Prop) [∀ log s a, Decidable (C log s a)] :
    List α → List ε → σ → Option (List ε × σ)
  | [], log, s => some (log, s)
  | a :: acts, log, s =>
    if C log s a then
      match M.step s a with
      | some (s', evs) => M.exec C acts (log ++ evs) s'
      | none => none
    else none

theorem exec_cons [∀ log s a, Decidable (C log s a)] {a : α} {acts : List α} {s' : σ} {evs : List ε}
    (hc : C log s a) (h : M.step s a = some (s', evs)) :
    M.exec C (a :: acts) log s = M.exec C acts (log ++ evs) s' := by
  rw [exec, if_pos hc, h]

theorem Exec.of_exec_from [∀ log s a, Decidable (C log s a)] {acts : List α} {log' : List ε} {s' : σ}
    (h : M.Exec C log s) (he : M.exec C acts log s = some (log', s')) : M.Exec C log' s' := by
  induction acts generalizing log s with
  | nil =>
    simp only [exec, Option.some.injEq, Prod.mk.injEq] at he
    obtain ⟨rfl, rfl⟩ := he
    exact h
  | cons a acts ih =>
    rw [exec] at he
    split at he
    · rename_i hc
      split at he
      · rename_i s₁ evs ha
        exact ih (h.step hc ha) he
      · cases he
    · cases he

theorem Exec.of_exec [∀ log s a, Decidable (C log s a)] {acts : List α}
    (he : M.exec C acts M.log₀ M.init = some (log, s)) : M.Exec C log s :=
  Exec.init.of_exec_from he

/-- A run with the property `P`, found by executing `acts`. -/
theorem Exec.exists_of_any [∀ log s a, Decidable (C log s a)] (acts : List α)
    {P : List ε → σ → Prop} [∀ log s, Decidable (P log s)]
    (h : (M.exec C acts M.log₀ M.init).any fun r => decide (P r.1 r.2)) :
    ∃ log s, M.Exec C log s ∧ P log s := by
  obtain ⟨⟨log, s⟩, he, hp⟩ := (Option.any_eq_true _ _).1 h
  exact ⟨log, s, .of_exec he, of_decide_eq_true hp⟩

/-! ### Watching a machine -/

/-- `M` with the history of what `f` sees of its steps. -/
def watch {β : Type*} (M : Machine σ α ε) (f : σ → α → List β) : Machine σ α β where
  init := M.init
  log₀ := []
  step s a := (M.step s a).map fun (s', _) => (s', f s a)

theorem watch_step {β : Type*} {f : σ → α → List β} {a : α} {s' : σ} {evs : List β}
    (h : (M.watch f).step s a = some (s', evs)) : evs = f s a ∧ ∃ es, M.step s a = some (s', es) := by
  simp only [watch, Option.map_eq_some_iff, Prod.mk.injEq] at h
  obtain ⟨⟨s₁, es⟩, hs, rfl, rfl⟩ := h
  exact ⟨rfl, es, hs⟩

/-- `M` with what `f` sees of its steps before what they emit. -/
def tap {β : Type*} (M : Machine σ α ε) (f : σ → α → List β) : Machine σ α (β ⊕ ε) where
  init := M.init
  log₀ := M.log₀.map .inr
  step s a := (M.step s a).map fun (s', evs) => (s', (f s a).map .inl ++ evs.map .inr)

theorem tap_step {β : Type*} {f : σ → α → List β} {a : α} {s' : σ} {evs : List (β ⊕ ε)}
    (h : (M.tap f).step s a = some (s', evs)) :
    ∃ es, M.step s a = some (s', es) ∧ evs = (f s a).map .inl ++ es.map .inr := by
  simp only [tap, Option.map_eq_some_iff, Prod.mk.injEq] at h
  obtain ⟨⟨s₁, es⟩, hs, rfl, rfl⟩ := h
  exact ⟨es, hs, rfl⟩

end Machine

/-! ### Tables -/

/-- What is read after one entry was written is what was written, or what another entry held before. -/
theorem Table.update_cases {α β : Type*} [DecidableEq α] {f : α → β} {a x : α} {b c : β}
    (h : Function.update f a b x = c) : x = a ∧ b = c ∨ x ≠ a ∧ f x = c := by
  by_cases hx : x = a
  · subst hx
    rw [Function.update_self] at h
    exact .inl ⟨rfl, h⟩
  · rw [Function.update_of_ne hx] at h
    exact .inr ⟨hx, h⟩

/-! ### Histories -/

namespace History

variable {ε β : Type*}

/-- Every event of `log` stands in relation `P` to the history before it. -/
def Each (P : List ε → ε → Prop) (log : List ε) : Prop :=
  ∀ pre e post, log = pre ++ e :: post → P pre e

theorem Each.nil {P : List ε → ε → Prop} : Each P [] := by
  intro pre e post h; simp at h

theorem each_append_singleton {P : List ε → ε → Prop} {log : List ε} {e : ε} :
    Each P (log ++ [e]) ↔ Each P log ∧ P log e := by
  constructor
  · intro h
    refine ⟨fun pre e' post hl => h pre e' (post ++ [e]) (by simp [hl]), h log e [] rfl⟩
  · rintro ⟨h, he⟩ pre e' post hl
    rcases List.eq_nil_or_concat post with rfl | ⟨post, x, rfl⟩
    · obtain ⟨rfl, hx⟩ := List.append_inj' hl rfl
      rw [← (List.singleton_inj.1 hx)]; exact he
    · rw [List.concat_eq_append, ← List.cons_append, ← List.append_assoc] at hl
      exact h pre e' post (List.append_inj' hl rfl).1

theorem each_append {P : List ε → ε → Prop} {log evs : List ε} :
    Each P (log ++ evs) ↔ Each P log ∧ Each (fun pre e => P (log ++ pre) e) evs := by
  induction evs using List.reverseRecOn with
  | nil => simp [Each.nil]
  | append_singleton evs e ih =>
    rw [← List.append_assoc, each_append_singleton, ih, each_append_singleton, and_assoc]

theorem each_singleton {P : List ε → ε → Prop} {e : ε} : Each P [e] ↔ P [] e := by
  rw [← List.nil_append [e], each_append_singleton]
  exact and_iff_right .nil

theorem each_cons {P : List ε → ε → Prop} {e : ε} {log : List ε} :
    Each P (e :: log) ↔ P [] e ∧ Each (fun pre => P (e :: pre)) log := by
  rw [← List.singleton_append, each_append, each_singleton]
  rfl

def decidableEach : (log : List ε) → (P : List ε → ε → Prop) → [∀ pre e, Decidable (P pre e)] →
    Decidable (Each P log)
  | [], _, _ => .isTrue .nil
  | e :: log, P, _ =>
    have := decidableEach log fun pre => P (e :: pre)
    decidable_of_iff _ each_cons.symm

instance {P : List ε → ε → Prop} [∀ pre e, Decidable (P pre e)] {log : List ε} :
    Decidable (Each P log) := decidableEach log P

theorem Each.append_of_forall {P : List ε → ε → Prop} {log evs : List ε} (h : Each P log)
    (he : ∀ pre, ∀ e ∈ evs, P pre e) : Each P (log ++ evs) :=
  each_append.2 ⟨h, fun pre e post hl => he _ e (by simp [hl])⟩

theorem filterMap_concat (f : ε → Option β) (log : List ε) (e : ε) :
    (log ++ [e]).filterMap f = log.filterMap f ++ (f e).toList := by
  rw [List.filterMap_append]
  cases h : f e with
  | none => rw [List.filterMap_cons_none h]; rfl
  | some b => rw [List.filterMap_cons_some h]; rfl

/-- The latest value that `f` reads off an event. -/
def last (f : ε → Option β) (log : List ε) : Option β := log.reverse.findSome? f

@[simp] theorem last_nil (f : ε → Option β) : last f [] = none := rfl

@[simp] theorem last_append (f : ε → Option β) (log evs : List ε) :
    last f (log ++ evs) = (last f evs).or (last f log) := by
  simp [last, List.findSome?_append]

@[simp] theorem last_singleton (f : ε → Option β) (e : ε) : last f [e] = f e := by
  simp [last]

theorem last_cons (f : ε → Option β) (e : ε) (log : List ε) :
    last f (e :: log) = (last f log).or (f e) := by
  rw [← List.singleton_append, last_append, last_singleton]

theorem last_eq_none {f : ε → Option β} {log : List ε} (h : ∀ e ∈ log, f e = none) :
    last f log = none := by
  simpa [last, List.findSome?_eq_none_iff] using h

/-- The events after the latest one that satisfies `p`. -/
def since (p : ε → Bool) (log : List ε) : List ε := log.rtakeWhile fun e => !p e

@[simp] theorem since_nil (p : ε → Bool) : since p [] = [] := rfl

theorem since_append_singleton (p : ε → Bool) (log : List ε) (e : ε) :
    since p (log ++ [e]) = if p e then [] else since p log ++ [e] := by
  cases h : p e with
  | true => simp [since, h]
  | false => simp [since, h]

theorem since_append_of_forall {p : ε → Bool} {log evs : List ε} (h : ∀ e ∈ evs, p e = false) :
    since p (log ++ evs) = since p log ++ evs := by
  induction evs using List.reverseRecOn with
  | nil => simp
  | append_singleton evs e ih =>
    rw [← List.append_assoc, since_append_singleton, if_neg (by simp [h e]),
      ih fun e he => h e (by simp [he]), List.append_assoc]

end History
