import Mathlib.Data.List.Basic
import Mathlib.Data.List.Nodup
import Mathlib.Data.List.Range

/-!
# Segments of a list

A list cut into pieces of one size, and numbered items that are put back into their order by a sort.
-/

namespace Segments

variable {α β : Type*}

/-- The `i`-th piece of size `m`. -/
def segment (m : Nat) (data : List α) (i : Nat) : List α := (data.drop (i * m)).take m

theorem flatten_segments_take (m n : Nat) (data : List α) :
    ((List.range n).map (segment m data)).flatten = data.take (n * m) := by
  induction n with
  | zero => simp
  | succ n ih =>
    rw [List.range_succ, List.map_append, List.flatten_append, ih, Nat.succ_mul, List.take_add]
    simp [segment]

/-- Enough pieces make up the whole. -/
theorem flatten_segments {m n : Nat} {data : List α} (h : data.length ≤ n * m) :
    ((List.range n).map (segment m data)).flatten = data := by
  rw [flatten_segments_take, List.take_of_length_le h]

theorem segment_eq_drop {m i : Nat} {data : List α} (h : data.length ≤ (i + 1) * m) :
    segment m data i = data.drop (i * m) := by
  refine List.take_of_length_le ?_
  rw [List.length_drop]
  rw [Nat.succ_mul] at h
  omega

variable {key : α → Nat} {l l' : List α}

/-- A numbered list has no two items of one number. -/
theorem inj_of_numbered (hl : l.map key = List.range l.length) :
    ∀ a ∈ l, ∀ b ∈ l, key a = key b → a = b := by
  have hn : (l.map key).Nodup := by rw [hl]; exact List.nodup_range
  exact fun a ha b hb h => List.inj_on_of_nodup_map hn ha hb h

theorem nodup_of_numbered (hl : l.map key = List.range l.length) : l.Nodup := by
  have hn : (l.map key).Nodup := by rw [hl]; exact List.nodup_range
  exact hn.of_map

/-- A sort by number puts the items of a numbered list back into their places. -/
theorem mergeSort_eq_of_numbered (hl : l.map key = List.range l.length) (hp : l'.Perm l) :
    l'.mergeSort (fun a b => key a ≤ key b) = l := by
  have hsorted : l.Pairwise fun a b => (decide (key a ≤ key b)) = true := by
    have hr : (l.map key).Pairwise (· ≤ ·) := by
      rw [hl]; exact List.pairwise_le_range
    exact (List.pairwise_map.1 hr).imp fun h => decide_eq_true h
  have hms : (l'.mergeSort fun a b => key a ≤ key b).Pairwise fun a b => (decide (key a ≤ key b)) = true :=
    List.pairwise_mergeSort (by simpa using fun a b c => Nat.le_trans)
      (by simpa using fun a b => Nat.le_total _ _) l'
  have hperm := (List.mergeSort_perm l' fun a b => key a ≤ key b).trans hp
  refine List.Perm.eq_of_pairwise ?_ hms hsorted hperm
  intro a b ha hb hab hba
  refine inj_of_numbered hl a (hperm.subset ha) b hb ?_
  exact Nat.le_antisymm (of_decide_eq_true hab) (of_decide_eq_true hba)

end Segments
