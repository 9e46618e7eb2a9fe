import Mathlib.Data.List.AList
import Mathlib.Data.List.Dedup
import Mathlib.Data.List.Induction

/-!
# Grouping by key into a hash map

A `HashMap` with list values is filled by appending, key by key, and then iterated in an order that
nobody knows: an `IterOrder`. Whatever the order, each key that occurs comes out once, with the values
of all elements of that key in the order of the list (`iter_valuesAt`).
-/

/-- An iteration order of a hash map: some permutation of its entries. -/
def IterOrder (ε : Type*) := { f : List ε → List ε // ∀ l, (f l).Perm l }

namespace IterOrder

variable {ε : Type*}

instance : CoeFun (IterOrder ε) fun _ => List ε → List ε := ⟨Subtype.val⟩

theorem perm (order : IterOrder ε) (l : List ε) : (order l).Perm l := order.2 l

/-- The entries as they lie. -/
def asIs : IterOrder ε := ⟨id, fun _ => .refl _⟩

end IterOrder

/-- A hash map, whose entries lie in no particular order. -/
abbrev HashMap (κ β : Type*) := AList fun _ : κ => β

namespace GroupBy

variable {α β κ : Type*} [DecidableEq κ]

/-- The values of the elements with key `k`, in their order. -/
def valuesAt (key : α → κ) (vals : α → List β) (k : κ) (l : List α) : List β :=
  (l.filter fun a => key a = k).flatMap vals

def push (m : HashMap κ (List β)) (k : κ) (vs : List β) : HashMap κ (List β) :=
  match m.lookup k with
  | some old => m.insert k (old ++ vs)
  | none => m.insert k vs

def group (key : α → κ) (vals : α → List β) (l : List α) : HashMap κ (List β) :=
  l.foldl (fun m a => push m (key a) (vals a)) ∅

variable {key : α → κ} {vals : α → List β} {m : HashMap κ (List β)} {k k' : κ} {l : List α}

theorem lookup_push (vs : List β) :
    (push m k vs).lookup k' = if k' = k then some ((m.lookup k).getD [] ++ vs) else m.lookup k' := by
  unfold push
  split <;> rename_i h <;> rw [h] <;> split <;> rename_i hk
  · subst hk; simp
  · exact AList.lookup_insert_ne hk
  · subst hk; simp
  · exact AList.lookup_insert_ne hk

theorem lookup_group :
    (group key vals l).lookup k = if ∃ a ∈ l, key a = k then some (valuesAt key vals k l) else none := by
  induction l using List.reverseRecOn with
  | nil => simp [group]
  | append_singleton l a ih =>
    have hfold : group key vals (l ++ [a]) = push (group key vals l) (key a) (vals a) := by
      simp [group]
    rw [hfold, lookup_push]
    by_cases hk : k = key a
    · subst hk
      have hv : ((group key vals l).lookup (key a)).getD [] = valuesAt key vals (key a) l := by
        rw [ih]
        split
        · rfl
        · rename_i hn
          have : l.filter (fun b => key b = key a) = [] := by
            simpa [List.filter_eq_nil_iff] using hn
          simp [valuesAt, this]
      simp [hv, valuesAt]
    · simp [hk, Ne.symm hk, ih, valuesAt]

/-- In a list of entries with distinct keys, the values at a key are those of its one entry. -/
theorem valuesAt_entries {γ : Type*} (f : List β → List γ) {es : List (Sigma fun _ : κ => List β)}
    (h : es.NodupKeys) (hf : f [] = []) :
    valuesAt (·.1) (fun e => f e.2) k es = f ((es.dlookup k).getD []) := by
  induction es with
  | nil => simp [valuesAt, hf]
  | cons e es ih =>
    obtain ⟨a, vs⟩ := e
    have hes := List.nodupKeys_of_nodupKeys_cons h
    by_cases ha : a = k
    · subst ha
      have hnone : es.filter (fun e => e.1 = a) = [] := by
        rw [List.filter_eq_nil_iff]
        intro e he
        simp only [decide_eq_true_eq]
        intro hea
        exact List.notMem_keys_of_nodupKeys_cons h (List.mem_map.2 ⟨e, he, hea⟩)
      simp [valuesAt, hnone]
    · rw [List.dlookup_cons_ne _ _ (Ne.symm ha), ← ih hes]
      simp [valuesAt, ha]

/-- Grouping and iterating keeps the values at every key, whatever `f` then does to each group. -/
theorem iter_valuesAt {γ : Type*} (f : List β → List γ) (hf : f [] = [])
    (order : IterOrder (Sigma fun _ : κ => List β)) :
    valuesAt (·.1) (fun e => f e.2) k (order (group key vals l).entries) =
      f (valuesAt key vals k l) := by
  have hp := order.perm (group key vals l).entries
  have hn : (order (group key vals l).entries).NodupKeys :=
    (List.perm_nodupKeys hp).2 (group key vals l).nodupKeys
  rw [valuesAt_entries f hn hf, List.perm_dlookup k hn hp]
  have hl : (group key vals l).entries.dlookup k = (group key vals l).lookup k := rfl
  rw [hl, lookup_group]
  split
  · rfl
  · rename_i hno
    have : l.filter (fun b => key b = k) = [] := by simpa [List.filter_eq_nil_iff] using hno
    simp [valuesAt, this]

/-- No key comes out twice. -/
theorem iter_keys_nodup (order : IterOrder (Sigma fun _ : κ => List β)) :
    ((order (group key vals l).entries).map (·.1)).Nodup :=
  (List.perm_nodupKeys (order.perm _)).2 (group key vals l).nodupKeys

/-- There is one entry for each key that occurs. -/
theorem group_entries_perm (key : α → κ) (vals : α → List β) (l : List α) : (group key vals l).entries.Perm
    ((l.map key).dedup.map fun k => ⟨k, valuesAt key vals k l⟩) := by
  have hnodup : ((l.map key).dedup.map fun k =>
      (⟨k, valuesAt key vals k l⟩ : Sigma fun _ : κ => List β)).Nodup :=
    (List.nodup_dedup _).map fun k k' h => (Sigma.mk.inj h).1
  refine (List.perm_ext_iff_of_nodup (group key vals l).nodupKeys.nodup hnodup).2 ?_
  rintro ⟨k, vs⟩
  have hmem : ⟨k, vs⟩ ∈ (group key vals l).entries ↔ (group key vals l).lookup k = some vs :=
    (AList.mem_lookup_iff (s := group key vals l)).symm
  rw [hmem, lookup_group]
  constructor
  · intro h
    obtain ⟨hk, hv⟩ := Option.ite_none_right_eq_some.1 h
    obtain rfl := Option.some.inj hv
    exact List.mem_map_of_mem (List.mem_dedup.2 (List.mem_map.2 hk))
  · intro h
    obtain ⟨k', hk', heq⟩ := List.mem_map.1 h
    cases heq
    rw [if_pos (List.mem_map.1 (List.mem_dedup.1 hk'))]

/-! ### All values -/

theorem values_kerase {es : List (Sigma fun _ : κ => List β)} {vs : List β} (h : es.dlookup k = some vs) :
    (es.flatMap (·.2)).Perm (vs ++ (es.kerase k).flatMap (·.2)) := by
  induction es with
  | nil => cases h
  | cons e es ih =>
    obtain ⟨a, ws⟩ := e
    by_cases ha : k = a
    · subst ha
      rw [List.dlookup_cons_eq] at h
      obtain rfl := Option.some.inj h
      have he : (⟨k, ws⟩ :: es : List (Sigma fun _ : κ => List β)).kerase k = es := List.kerase_cons_eq rfl
      rw [he, List.flatMap_cons]
    · rw [List.dlookup_cons_ne _ _ ha] at h
      rw [List.kerase_cons_ne ha, List.flatMap_cons, List.flatMap_cons]
      exact ((ih h).append_left ws).trans (List.perm_append_comm_assoc ..)

theorem values_push (vs : List β) :
    ((push m k vs).entries.flatMap (·.2)).Perm (m.entries.flatMap (·.2) ++ vs) := by
  unfold push
  split <;> rename_i h <;> rw [AList.entries_insert, List.flatMap_cons]
  · rw [List.append_assoc]
    have hold := (values_kerase h).symm.append_left vs
    exact (List.perm_append_comm_assoc ..).trans (hold.trans List.perm_append_comm)
  · rw [List.kerase_of_notMem_keys (AList.lookup_eq_none.1 h)]
    exact List.perm_append_comm

/-- Grouping and iterating keeps all values. -/
theorem iter_values_perm (order : IterOrder (Sigma fun _ : κ => List β)) :
    ((order (group key vals l).entries).flatMap (·.2)).Perm (l.flatMap vals) := by
  refine ((order.perm _).flatMap_right _).trans ?_
  induction l using List.reverseRecOn with
  | nil => simp [group]
  | append_singleton l a ih =>
    have hfold : group key vals (l ++ [a]) = push (group key vals l) (key a) (vals a) := by
      simp [group]
    rw [hfold, List.flatMap_append, List.flatMap_singleton]
    exact (values_push _).trans (ih.append_right _)

end GroupBy
