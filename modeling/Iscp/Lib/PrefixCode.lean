import Mathlib.Data.List.Basic

/-!
# Prefix codes

A code whose words can be told apart as soon as they are read to their end. What is written word after word
can then be read back in one way only, and a beginning of it contains the words of a beginning.
-/

variable {α β : Type*}

/-- No word of `P` is the beginning of another one, and none is empty. -/
structure PrefixCode (P : α → Prop) (e : α → List β) : Prop where
  ne_nil : ∀ a, P a → e a ≠ []
  inj : ∀ a b x y, P a → P b → e a ++ x = e b ++ y → a = b

namespace PrefixCode

variable {P : α → Prop} {e : α → List β} {as bs : List α}

/-- Words at the beginning of others are the first of these. -/
theorem prefix_of_flatMap (h : PrefixCode P e) (ha : ∀ a ∈ as, P a) (hb : ∀ b ∈ bs, P b)
    (hp : as.flatMap e <+: bs.flatMap e) : as <+: bs := by
  induction as generalizing bs with
  | nil => exact List.nil_prefix
  | cons a as ih =>
    obtain ⟨hPa, has⟩ := List.forall_mem_cons.1 ha
    cases bs with
    | nil =>
      rw [List.flatMap_cons, List.flatMap_nil, List.prefix_nil, List.append_eq_nil_iff] at hp
      exact absurd hp.1 (h.ne_nil a hPa)
    | cons b bs =>
      obtain ⟨hPb, hbs⟩ := List.forall_mem_cons.1 hb
      rw [List.flatMap_cons, List.flatMap_cons] at hp
      obtain ⟨rest, hrest⟩ := hp
      rw [List.append_assoc] at hrest
      obtain rfl := h.inj a b _ _ hPa hPb hrest
      rw [List.append_cancel_left_eq] at hrest
      exact List.cons_prefix_cons.2 ⟨rfl, ih has hbs ⟨rest, hrest⟩⟩

/-- What is written can be read in one way. -/
theorem flatMap_inj (h : PrefixCode P e) (ha : ∀ a ∈ as, P a) (hb : ∀ b ∈ bs, P b)
    (he : as.flatMap e = bs.flatMap e) : as = bs := by
  have hab := h.prefix_of_flatMap ha hb (he ▸ List.prefix_rfl)
  have hba := h.prefix_of_flatMap hb ha (he ▸ List.prefix_rfl)
  exact hab.eq_of_length_le hba.length_le

/-- Two codes, one word after the other. -/
theorem pair {γ : Type*} {Q : γ → Prop} {f : γ → List β} (h : PrefixCode P e) (hf : PrefixCode Q f) :
    PrefixCode (fun p : α × γ => P p.1 ∧ Q p.2) fun p => e p.1 ++ f p.2 := by
  refine ⟨fun p hp he => h.ne_nil p.1 hp.1 (List.append_eq_nil_iff.1 he).1, ?_⟩
  rintro ⟨a, c⟩ ⟨b, d⟩ x y ⟨ha, hc⟩ ⟨hb, hd⟩ heq
  simp only [List.append_assoc] at heq
  obtain rfl := h.inj a b _ _ ha hb heq
  rw [List.append_cancel_left_eq] at heq
  obtain rfl := hf.inj c d _ _ hc hd heq
  rfl

/-- Words with their lengths before them, where `len` writes a length in a fixed number of items. -/
theorem lengthPrefixed {len : Nat → List β} {k limit : Nat} (hk : 0 < k) (hlen : ∀ n, (len n).length = k)
    (hinj : ∀ m n, m < limit → n < limit → len m = len n → m = n) :
    PrefixCode (fun w : List β => w.length < limit) fun w => len w.length ++ w := by
  refine ⟨fun w _ he => ?_, fun a b x y ha hb heq => ?_⟩
  · have := congrArg List.length he
    rw [List.length_append, hlen, List.length_nil] at this
    omega
  · rw [List.append_assoc, List.append_assoc] at heq
    obtain ⟨hhead, hrest⟩ := List.append_inj heq (by rw [hlen, hlen])
    exact (List.append_inj hrest (hinj _ _ ha hb hhead)).1

end PrefixCode
