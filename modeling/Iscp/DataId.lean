import Iscp.Lib.Pieces
import Iscp.Message

/-!
# Data ids as text

`DataId::validate`, and the conversions of a data id from and to text.
-/

namespace Iscp

inductive DataIdParseError
  | splitterNotFound
  | multipleSplitterFound
  | invalidChar (c : Char)
deriving DecidableEq, Repr

namespace DataId

def validate (self : DataId) : Except DataIdParseError Unit :=
  ['#', '+', ':'].forM fun c =>
    if self.name.contains c || self.type_.contains c then .error (.invalidChar c) else .ok ()

def fromStr (s : String) : Except DataIdParseError DataId :=
  match (s.split ':').toList with
  | type_ :: name :: split =>
    if split.isEmpty then do
      let id : DataId := { type_ := type_.copy, name := name.copy }
      id.validate
      return id
    else .error .multipleSplitterFound
  | _ => .error .splitterNotFound

/-- `Display`. -/
def fmt (self : DataId) : String := s!"{self.type_}:{self.name}"

variable {s : String} {id : DataId}

@[simp] theorem toList_fmt (id : DataId) : id.fmt.toList = id.type_.toList ++ ':' :: id.name.toList := by
  change (id.type_ ++ ":" ++ id.name).toList = _
  simp

/-! ### The loop of `validate` -/

theorem forM_eq_ok {α ε : Type*} {f : α → Except ε Unit} {xs : List α} :
    xs.forM f = .ok () ↔ ∀ x ∈ xs, f x = .ok () := by
  induction xs with
  | nil => simp [pure, Except.pure]
  | cons x xs ih =>
    rw [List.forM_eq_forM, List.forM_cons, List.forall_mem_cons, ← ih]
    cases hx : f x with
    | error e => simp [bind, Except.bind]
    | ok _ => simp [bind, Except.bind]

theorem validate_eq_ok : id.validate = .ok () ↔
    ∀ c ∈ ['#', '+', ':'], c ∉ id.name.toList ∧ c ∉ id.type_.toList := by
  rw [validate, forM_eq_ok]
  refine forall₂_congr fun c _ => ?_
  rw [String.contains_char_eq, String.contains_char_eq]
  split
  · rename_i hc
    rw [Bool.or_eq_true, decide_eq_true_iff, decide_eq_true_iff] at hc
    simp only [reduceCtorEq, false_iff]
    tauto
  · rename_i hc
    rw [Bool.or_eq_true, decide_eq_true_iff, decide_eq_true_iff, not_or] at hc
    simp only [true_iff]
    exact hc

/-- The text shows whether the id is valid. -/
theorem validate_eq_ok_iff_fmt : id.validate = .ok () ↔
    id.fmt.toList.count ':' = 1 ∧ '#' ∉ id.fmt.toList ∧ '+' ∉ id.fmt.toList := by
  have hcount : id.fmt.toList.count ':' = 1 ↔ ':' ∉ id.name.toList ∧ ':' ∉ id.type_.toList := by
    rw [toList_fmt, List.count_append, List.count_cons_self, ← List.count_eq_zero, ← List.count_eq_zero]
    omega
  have hmem {c : Char} (hc : c ≠ ':') : c ∉ id.fmt.toList ↔ c ∉ id.name.toList ∧ c ∉ id.type_.toList := by
    rw [toList_fmt, List.mem_append, List.mem_cons]
    tauto
  rw [validate_eq_ok, hcount, hmem (by decide), hmem (by decide)]
  simp only [List.forall_mem_cons, List.not_mem_nil, false_imp_iff, implies_true, and_true]
  tauto

/-! ### Reading -/

theorem fromStr_of_splitOn {type_ name : String}
    (h : s.toList.splitOn ':' = [type_.toList, name.toList]) : fromStr s = (do
      DataId.validate ⟨name, type_⟩
      return ⟨name, type_⟩) := by
  have hcopy := String.toList_split_char (s := s) (c := ':')
  rw [h] at hcopy
  obtain ⟨type', rest, hsplit, htype, hrest⟩ := List.map_eq_cons_iff.1 hcopy
  obtain ⟨name', rest, rfl, hname, hrest⟩ := List.map_eq_cons_iff.1 hrest
  obtain rfl := List.map_eq_nil_iff.1 hrest
  rw [String.ofList_toList] at htype hname
  simp only [fromStr, hsplit, List.isEmpty_nil, if_true, htype, hname]

theorem splitOn_of_fromStr (h : fromStr s = .ok id) :
    s.toList.splitOn ':' = [id.type_.toList, id.name.toList] ∧ id.validate = .ok () := by
  have hcopy := String.toList_split_char (s := s) (c := ':')
  unfold fromStr at h
  split at h
  · rename_i type_ name split hsplit
    split at h
    · rename_i hnil
      dsimp only at h
      rw [hsplit, List.isEmpty_iff.1 hnil] at hcopy
      cases hvalid : DataId.validate ⟨name.copy, type_.copy⟩ with
      | error e =>
        rw [hvalid] at h
        cases h
      | ok _ =>
        rw [hvalid] at h
        cases h
        have hmap := congrArg (List.map String.toList) hcopy
        rw [List.map_map, List.map_map, Function.comp_def, Function.comp_def] at hmap
        simp only [String.toList_ofList, List.map_id', List.map_cons, List.map_nil] at hmap
        exact ⟨hmap.symm, hvalid⟩
    · cases h
  · cases h

/-- What is read is what is written. -/
theorem fromStr_eq_ok : fromStr s = .ok id ↔ s = id.fmt ∧ id.validate = .ok () := by
  constructor
  · intro h
    obtain ⟨hsplit, hvalid⟩ := splitOn_of_fromStr h
    refine ⟨String.toList_inj.1 ?_, hvalid⟩
    rw [toList_fmt]
    exact (Pieces.splitOn_eq_pair.1 hsplit).1
  · rintro ⟨rfl, hvalid⟩
    obtain ⟨hname, htype⟩ := validate_eq_ok.1 hvalid ':' (by simp)
    rw [fromStr_of_splitOn (Pieces.splitOn_eq_pair.2 ⟨toList_fmt id, htype, hname⟩), hvalid]
    rfl

theorem fromStr_isOk : (fromStr s).isOk ↔
    s.toList.count ':' = 1 ∧ '#' ∉ s.toList ∧ '+' ∉ s.toList := by
  rw [isOk_iff]
  constructor
  · rintro ⟨id, hread⟩
    obtain ⟨rfl, hvalid⟩ := fromStr_eq_ok.1 hread
    exact validate_eq_ok_iff_fmt.1 hvalid
  · rintro ⟨hcount, hchars⟩
    obtain ⟨type_, name, hsplit⟩ : ∃ type_ name, s.toList.splitOn ':' = [type_, name] := by
      rw [← List.length_eq_two, Pieces.length_splitOn, hcount]
    obtain rfl : s = fmt ⟨.ofList name, .ofList type_⟩ := by
      rw [← String.toList_inj, toList_fmt, String.toList_ofList, String.toList_ofList]
      exact (Pieces.splitOn_eq_pair.1 hsplit).1
    exact ⟨_, fromStr_eq_ok.2 ⟨rfl, validate_eq_ok_iff_fmt.2 ⟨hcount, hchars⟩⟩⟩

/-- The grammar of `from_str`, that of `Display` and that of `validate` are the same. -/
theorem fromStr_grammar :
    (∀ s, ((fromStr s).isOk ↔ s.toList.count ':' = 1 ∧ '#' ∉ s.toList ∧ '+' ∉ s.toList) ∧
      ∀ id, fromStr s = .ok id → id.fmt = s) ∧
    ∀ id : DataId, (fromStr id.fmt = .ok id ↔ id.validate = .ok ()) ∧
      (id.validate ≠ .ok () → ∃ e, fromStr id.fmt = .error e) := by
  refine ⟨fun s => ⟨fromStr_isOk, fun id h => (fromStr_eq_ok.1 h).1.symm⟩, fun id => ⟨?_, fun hinvalid => ?_⟩⟩
  · rw [fromStr_eq_ok, eq_self, true_and]
  · cases hread : fromStr id.fmt with
    | error e => exact ⟨e, rfl⟩
    | ok id' => exact absurd (validate_eq_ok_iff_fmt.2 (fromStr_isOk.1 (isOk_iff.2 ⟨_, hread⟩))) hinvalid

end DataId
end Iscp
