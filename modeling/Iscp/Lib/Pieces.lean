import Mathlib.Data.List.Basic

/-!
# Sequences in pieces

A stream that comes in pieces of any size, and reads of a given length from it. What is read depends on
what the pieces make up, and not on where they are cut. And the pieces between the separators of a text.
-/

namespace Pieces

variable {β : Type*} {pieces rest : List (List β)} {read : List β} {n : Nat}

/-- The first `n` items, with the pieces that are left; `none` where the stream ends before. -/
def readExact : List (List β) → Nat → Option (List β × List (List β))
  | pieces, 0 => some ([], pieces)
  | [], _ + 1 => none
  | piece :: pieces, n + 1 =>
    if n + 1 < piece.length then some (piece.take (n + 1), piece.drop (n + 1) :: pieces)
    else (readExact pieces (n + 1 - piece.length)).map fun (read, rest) => (piece ++ read, rest)

theorem readExact_of_le (h : n ≤ pieces.flatten.length) :
    ∃ rest, readExact pieces n = some (pieces.flatten.take n, rest) ∧
      rest.flatten = pieces.flatten.drop n := by
  induction pieces generalizing n with
  | nil =>
    obtain rfl : n = 0 := by simpa using h
    exact ⟨[], rfl, rfl⟩
  | cons piece pieces ih =>
    cases n with
    | zero => exact ⟨piece :: pieces, by simp [readExact], rfl⟩
    | succ n =>
      rw [List.flatten_cons, List.length_append] at h
      rw [readExact, List.flatten_cons]
      split
      · rename_i hlt
        refine ⟨_, by rw [List.take_append_of_le_length (by omega)], ?_⟩
        rw [List.flatten_cons, List.drop_append_of_le_length (by omega)]
      · rename_i hge
        have hle : piece.length ≤ n + 1 := Nat.not_lt.1 hge
        obtain ⟨rest, hread, hrest⟩ := ih (n := n + 1 - piece.length) (by omega)
        refine ⟨rest, ?_, ?_⟩
        · rw [hread, Option.map_some, List.take_append, List.take_of_length_le hle]
        · rw [hrest, List.drop_append, List.drop_eq_nil_of_le hle, List.nil_append]

theorem readExact_of_lt (h : pieces.flatten.length < n) : readExact pieces n = none := by
  induction pieces generalizing n with
  | nil =>
    obtain ⟨n, rfl⟩ := Nat.exists_eq_succ_of_ne_zero (Nat.ne_of_gt h)
    rfl
  | cons piece pieces ih =>
    obtain ⟨n, rfl⟩ := Nat.exists_eq_succ_of_ne_zero (Nat.ne_of_gt (Nat.lt_of_le_of_lt (Nat.zero_le _) h))
    rw [List.flatten_cons, List.length_append] at h
    rw [readExact, if_neg (by omega), ih (by omega), Option.map_none]

theorem length_readExact (h : readExact pieces n = some (read, rest)) :
    rest.flatten.length + n = pieces.flatten.length := by
  by_cases hn : n ≤ pieces.flatten.length
  · obtain ⟨rest', hread, hrest⟩ := readExact_of_le hn
    rw [h] at hread
    cases hread
    rw [hrest, List.length_drop]
    omega
  · rw [readExact_of_lt (by omega)] at h
    cases h

/-- What is read is the beginning. -/
theorem readExact_eq_some (h : readExact pieces n = some (read, rest)) :
    pieces.flatten = read ++ rest.flatten ∧ read.length = n := by
  have hlen := length_readExact h
  have hle : n ≤ pieces.flatten.length := by omega
  obtain ⟨rest', hread, hrest⟩ := readExact_of_le hle
  rw [h] at hread
  cases hread
  exact ⟨by rw [hrest, List.take_append_drop], List.length_take_of_le (by omega)⟩

section

variable {a : β} {xs l r : List β} [BEq β]

theorem length_splitOn (a : β) (xs : List β) : (xs.splitOn a).length = xs.count a + 1 := by
  induction xs with
  | nil => rfl
  | cons x xs ih =>
    rw [List.splitOn_cons_eq_if_modifyHead, List.count_cons]
    split
    · rw [List.length_cons, ih]
    · rw [List.length_modifyHead, ih, Nat.add_zero]

theorem splitOn_eq_pair [LawfulBEq β] : xs.splitOn a = [l, r] ↔ xs = l ++ a :: r ∧ a ∉ l ∧ a ∉ r := by
  constructor
  · intro h
    have hxs : xs = l ++ a :: r := by
      have hjoin : [a].intercalate (xs.splitOn a) = xs := List.intercalate_splitOn a
      rw [← hjoin, h]
      simp
    have hcount := length_splitOn a xs
    rw [h, hxs, List.count_append, List.count_cons_self] at hcount
    simp only [List.length_cons, List.length_nil] at hcount
    refine ⟨hxs, List.count_eq_zero.1 ?_, List.count_eq_zero.1 ?_⟩ <;> omega
  · rintro ⟨rfl, hl, hr⟩
    rw [List.splitOn_append_cons_self_of_not_mem hl, List.splitOn_eq_singleton hr]

end

end Pieces
