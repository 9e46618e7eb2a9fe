import Iscp.Lib.Coder

/-!
# Stored blocks

The part of the deflate format that does not compress: a stream of blocks, each with its length, the
complement of the length and the bytes themselves. A block of any other kind counts as malformed here.
-/

namespace Stored

/-- The largest block. -/
def maxBlock : Nat := 65535

def header (final : Bool) (length : Nat) : List UInt8 :=
  let low := UInt8.ofNat length
  let high := UInt8.ofNat (length / 256)
  [if final then 1 else 0, low, high, 255 - low, 255 - high]

def encodeBlocks : Nat → List UInt8 → List UInt8
  | 0, _ => []
  | fuel + 1, data =>
    if data.length ≤ maxBlock then header true data.length ++ data
    else header false maxBlock ++ data.take maxBlock ++ encodeBlocks fuel (data.drop maxBlock)

def encode (data : List UInt8) : List UInt8 := encodeBlocks (data.length + 1) data

def parseBlocks : Nat → List UInt8 → Coder.Parse UInt8
  | 0, _ => ⟨.truncated, []⟩
  | _ + 1, [] => ⟨.truncated, []⟩
  | fuel + 1, first :: rest =>
    -- The kind of the block.
    if first / 2 % 4 ≠ 0 then ⟨.malformed, []⟩
    else
      match rest with
      | low :: high :: low' :: high' :: body =>
        if low' ≠ 255 - low ∨ high' ≠ 255 - high then ⟨.malformed, []⟩
        else
          let length := low.toNat + 256 * high.toNat
          if body.length < length then ⟨.truncated, body⟩
          else if first % 2 = 1 then ⟨.complete, body.take length⟩
          else
            let p := parseBlocks fuel (body.drop length)
            ⟨p.verdict, body.take length ++ p.output⟩
      | _ => ⟨.truncated, []⟩

def parse (data : List UInt8) : Coder.Parse UInt8 := parseBlocks (data.length + 1) data

@[simp] theorem parse_nil : parse [] = ⟨.truncated, []⟩ := rfl

/-- A header announces its block. -/
theorem parseBlocks_header (fuel : Nat) (final : Bool) {length : Nat} (hl : length ≤ maxBlock)
    (body : List UInt8) (hb : length ≤ body.length) :
    parseBlocks (fuel + 1) (header final length ++ body) =
      if final then ⟨.complete, body.take length⟩
      else
        let p := parseBlocks fuel (body.drop length)
        ⟨p.verdict, body.take length ++ p.output⟩ := by
  have hlen : (UInt8.ofNat length).toNat + 256 * (UInt8.ofNat (length / 256)).toNat = length := by
    simp only [UInt8.toNat_ofNat']
    unfold maxBlock at hl
    omega
  have hkind : (if final then (1 : UInt8) else 0) / 2 % 4 = 0 := by cases final <;> rfl
  have hfinal : (if final then (1 : UInt8) else 0) % 2 = 1 ↔ final = true := by
    cases final <;> decide
  simp only [header, List.cons_append, List.nil_append, parseBlocks, hkind, ne_eq, not_true_eq_false,
    or_self, if_false, hlen, if_neg (Nat.not_lt.2 hb), hfinal]

theorem parseBlocks_encodeBlocks {n fuel : Nat} {data : List UInt8} (hn : data.length < n)
    (hf : data.length < fuel) : parseBlocks fuel (encodeBlocks n data) = ⟨.complete, data⟩ := by
  induction n generalizing fuel data with
  | zero => omega
  | succ n ih =>
    obtain ⟨fuel, rfl⟩ : ∃ m, fuel = m + 1 := ⟨fuel - 1, by omega⟩
    unfold encodeBlocks
    split
    · rename_i hle
      rw [parseBlocks_header fuel true hle data (Nat.le_refl _), if_pos rfl, List.take_length]
    · rename_i hgt
      have hpos : 0 < maxBlock := by decide
      have hlen : (data.take maxBlock).length = maxBlock := by
        rw [List.length_take]
        omega
      rw [List.append_assoc, parseBlocks_header fuel false (Nat.le_refl _) _
        (by rw [List.length_append]; omega), if_neg Bool.false_ne_true]
      have hdrop : (data.take maxBlock ++ encodeBlocks n (data.drop maxBlock)).drop maxBlock =
          encodeBlocks n (data.drop maxBlock) := List.drop_left' hlen
      have htake : (data.take maxBlock ++ encodeBlocks n (data.drop maxBlock)).take maxBlock =
          data.take maxBlock := List.take_left' hlen
      have hrest : parseBlocks fuel (encodeBlocks n (data.drop maxBlock)) =
          ⟨.complete, data.drop maxBlock⟩ :=
        ih (by rw [List.length_drop]; omega) (by rw [List.length_drop]; omega)
      simp only [hdrop, htake, hrest, List.take_append_drop]

theorem length_le_encodeBlocks {n : Nat} {data : List UInt8} (hn : data.length < n) :
    data.length ≤ (encodeBlocks n data).length := by
  induction n generalizing data with
  | zero => omega
  | succ n ih =>
    unfold encodeBlocks
    split
    · simp
    · rename_i hgt
      have hpos : 0 < maxBlock := by decide
      have hrest : (data.drop maxBlock).length ≤ (encodeBlocks n (data.drop maxBlock)).length :=
        ih (by rw [List.length_drop]; omega)
      simp only [List.length_append, List.length_take]
      rw [List.length_drop] at hrest
      omega

theorem parse_encode (data : List UInt8) : parse (encode data) = ⟨.complete, data⟩ :=
  parseBlocks_encodeBlocks (Nat.lt_succ_self _)
    (Nat.lt_succ_of_le (length_le_encodeBlocks (Nat.lt_succ_self _)))

example : encode [65] = [1, 1, 0, 254, 255, 65] := by decide

end Stored
