import Mathlib.Data.List.Basic
import Mathlib.Tactic.Common

/-!
# Byte strings and their case

A string is a list of bytes, read as UTF-8 from left to right: a byte below 128 is a character of
its own, a lead byte with the continuation bytes it asks for is one, and any other byte is
malformed and stands alone.

* `toLower f` lowers ASCII letters, replaces a malformed byte by U+FFFD and every other character by
  what `f` makes of its bytes. The table of cases beyond ASCII is this parameter.
* `toLower_map_lowerByte`: it does not depend on the case of ASCII letters.
* `toLower_append`: it works piece by piece, if the second piece begins with an ASCII byte.
* `trimSuffix` takes a suffix off that is there, and nothing else.
-/

namespace OutRelayAgent.Lib

abbrev Bytes := List UInt8

namespace Bytes

/-- `A` to `Z` become `a` to `z`. -/
def lowerByte (b : UInt8) : UInt8 := if 65 ≤ b.toNat ∧ b.toNat ≤ 90 then b + 32 else b

/-- How many bytes have to follow the lead byte `b`, and the range of the first of them. -/
def lead (b : UInt8) : Option (ℕ × ℕ × ℕ) :=
  if 0xC2 ≤ b.toNat ∧ b.toNat ≤ 0xDF then some (1, 0x80, 0xBF)
  else if b.toNat = 0xE0 then some (2, 0xA0, 0xBF)
  else if b.toNat = 0xED then some (2, 0x80, 0x9F)
  else if 0xE1 ≤ b.toNat ∧ b.toNat ≤ 0xEF then some (2, 0x80, 0xBF)
  else if b.toNat = 0xF0 then some (3, 0x90, 0xBF)
  else if 0xF1 ≤ b.toNat ∧ b.toNat ≤ 0xF3 then some (3, 0x80, 0xBF)
  else if b.toNat = 0xF4 then some (3, 0x80, 0x8F)
  else none

/-- The string begins with `n` continuation bytes, the first of them in the range given. -/
def continues (lo hi : ℕ) : ℕ → Bytes → Bool
  | 0, _ => true
  | _ + 1, [] => false
  | n + 1, c :: s => decide (lo ≤ c.toNat ∧ c.toNat ≤ hi) && continues 0x80 0xBF n s

/-- How many bytes of `s` belong to the character that `b` begins, `none` if `b` is malformed. -/
def runeTail (b : UInt8) (s : Bytes) : Option ℕ :=
  match lead b with
  | some (n, lo, hi) => if continues lo hi n s then some n else none
  | none => none

/-- U+FFFD. -/
def replacement : Bytes := [0xEF, 0xBF, 0xBD]

/-- The string without its first `k` bytes, lowered. -/
def toLowerFrom (f : Bytes → Bytes) : ℕ → Bytes → Bytes
  | _, [] => []
  | k + 1, _ :: s => toLowerFrom f k s
  | 0, b :: s =>
    if b.toNat < 0x80 then lowerByte b :: toLowerFrom f 0 s
    else
      match runeTail b s with
      | some n => f (b :: s.take n) ++ toLowerFrom f n s
      | none => replacement ++ toLowerFrom f 0 s

def toLower (f : Bytes → Bytes) (s : Bytes) : Bytes := toLowerFrom f 0 s

variable {f : Bytes → Bytes} {b : UInt8} {s t : Bytes} {n k lo hi : ℕ}

/-! ## The case of ASCII letters -/

theorem lowerByte_of_le (h : 0x80 ≤ b.toNat) : lowerByte b = b := by
  unfold lowerByte
  rw [if_neg]
  omega

theorem toNat_lowerByte (b : UInt8) :
    (lowerByte b).toNat = if 65 ≤ b.toNat ∧ b.toNat ≤ 90 then b.toNat + 32 else b.toNat := by
  unfold lowerByte
  by_cases h : 65 ≤ b.toNat ∧ b.toNat ≤ 90
  · rw [if_pos h, if_pos h, UInt8.toNat_add]
    have h32 : (32 : UInt8).toNat = 32 := rfl
    omega
  · rw [if_neg h, if_neg h]

theorem lowerByte_lowerByte (b : UInt8) : lowerByte (lowerByte b) = lowerByte b := by
  have hb := toNat_lowerByte b
  rw [lowerByte.eq_1 (lowerByte b), if_neg]
  split at hb <;> omega

theorem toNat_lowerByte_lt_iff (b : UInt8) : (lowerByte b).toNat < 0x80 ↔ b.toNat < 0x80 := by
  rw [toNat_lowerByte]
  split <;> omega

/-- Continuation bytes are not ASCII. -/
theorem le_of_lead {lo hi : ℕ} (h : lead b = some (n, lo, hi)) : 0x80 ≤ lo := by
  unfold lead at h
  repeat' split at h
  all_goals cases h
  all_goals decide

theorem inRange_lowerByte (hlo : 0x80 ≤ lo) (b : UInt8) :
    (lo ≤ (lowerByte b).toNat ∧ (lowerByte b).toNat ≤ hi) ↔ (lo ≤ b.toNat ∧ b.toNat ≤ hi) := by
  rw [toNat_lowerByte]
  split <;> omega

theorem continues_map (hlo : 0x80 ≤ lo) :
    continues lo hi n (s.map lowerByte) = continues lo hi n s := by
  induction n generalizing s lo hi with
  | zero => rfl
  | succ n ih =>
    cases s with
    | nil => rfl
    | cons c s =>
      rw [List.map_cons, continues, continues, ih (Nat.le_refl _),
        decide_eq_decide.mpr (inRange_lowerByte hlo c)]

/-- Continuation bytes are left as they are. -/
theorem take_map_lowerByte (hlo : 0x80 ≤ lo) (h : continues lo hi n s = true) :
    (s.map lowerByte).take n = s.take n := by
  induction n generalizing s lo hi with
  | zero => rfl
  | succ n ih =>
    cases s with
    | nil => rfl
    | cons c s =>
      rw [continues, Bool.and_eq_true, decide_eq_true_eq] at h
      obtain ⟨⟨hc, -⟩, hs⟩ := h
      rw [List.map_cons, List.take_succ_cons, List.take_succ_cons, ih (Nat.le_refl _) hs,
        lowerByte_of_le (Nat.le_trans hlo hc)]

theorem toLowerFrom_map (f : Bytes → Bytes) (k : ℕ) (s : Bytes) :
    toLowerFrom f k (s.map lowerByte) = toLowerFrom f k s := by
  induction s generalizing k with
  | nil => cases k <;> rfl
  | cons b s ih =>
    cases k with
    | succ k => exact ih k
    | zero =>
      rw [List.map_cons, toLowerFrom, toLowerFrom]
      by_cases hb : b.toNat < 0x80
      · rw [if_pos hb, if_pos ((toNat_lowerByte_lt_iff b).mpr hb), lowerByte_lowerByte, ih]
      · rw [if_neg hb, if_neg fun h => hb ((toNat_lowerByte_lt_iff b).mp h),
          lowerByte_of_le (Nat.le_of_not_lt hb)]
        unfold runeTail
        cases hl : lead b with
        | none => simp only [ih]
        | some r =>
          obtain ⟨n, lo, hi⟩ := r
          have hlo := le_of_lead hl
          simp only [continues_map hlo]
          by_cases hc : continues lo hi n s = true
          · simp only [if_pos hc, take_map_lowerByte hlo hc, ih]
          · simp only [if_neg hc, ih]

/-- The case of ASCII letters does not matter. -/
theorem toLower_map_lowerByte (f : Bytes → Bytes) (s : Bytes) :
    toLower f (s.map lowerByte) = toLower f s :=
  toLowerFrom_map f 0 s

/-! ## Piece by piece -/

/-- The string is empty or begins with an ASCII byte. -/
def Boundary (t : Bytes) : Prop := ∀ b ∈ t.head?, b.toNat < 0x80

theorem continues_append (ht : Boundary t) (hlo : 0x80 ≤ lo) :
    continues lo hi n (s ++ t) = continues lo hi n s := by
  induction n generalizing s lo hi with
  | zero => rfl
  | succ n ih =>
    cases s with
    | cons c s => rw [List.cons_append, continues, continues, ih (Nat.le_refl _)]
    | nil =>
      -- A continuation byte would be the first of `t`.
      cases t with
      | nil => rfl
      | cons c t =>
        have hc : c.toNat < 0x80 := ht c rfl
        rw [List.nil_append, continues, continues, decide_eq_false (by omega), Bool.false_and]

theorem le_length_of_continues (h : continues lo hi n s = true) : n ≤ s.length := by
  induction n generalizing s lo hi with
  | zero => exact Nat.zero_le _
  | succ n ih =>
    cases s with
    | nil => cases h
    | cons c s =>
      rw [continues, Bool.and_eq_true] at h
      exact Nat.succ_le_succ (ih h.2)

theorem toLowerFrom_append (ht : Boundary t) (hk : k ≤ s.length) :
    toLowerFrom f k (s ++ t) = toLowerFrom f k s ++ toLowerFrom f 0 t := by
  induction s generalizing k with
  | nil =>
    obtain rfl : k = 0 := Nat.le_zero.mp hk
    rfl
  | cons b s ih =>
    cases k with
    | succ k => exact ih (Nat.le_of_succ_le_succ hk)
    | zero =>
      rw [List.cons_append, toLowerFrom, toLowerFrom]
      by_cases hb : b.toNat < 0x80
      · rw [if_pos hb, if_pos hb, ih (Nat.zero_le _), List.cons_append]
      · rw [if_neg hb, if_neg hb]
        unfold runeTail
        cases hl : lead b with
        | none => simp only [ih (Nat.zero_le _), List.append_assoc]
        | some r =>
          obtain ⟨n, lo, hi⟩ := r
          simp only [continues_append ht (le_of_lead hl)]
          by_cases hc : continues lo hi n s = true
          · have hn := le_length_of_continues hc
            simp only [if_pos hc, List.take_append_of_le_length hn, ih hn, List.append_assoc]
          · simp only [if_neg hc, ih (Nat.zero_le _), List.append_assoc]

theorem toLower_append (f : Bytes → Bytes) (s : Bytes) (ht : Boundary t) :
    toLower f (s ++ t) = toLower f s ++ toLower f t :=
  toLowerFrom_append ht (Nat.zero_le _)

/-! ## Suffixes -/

/-- `s` without `suf` at its end, or `s` if it does not end with it. -/
def trimSuffix (s suf : Bytes) : Bytes :=
  if suf.isSuffixOf s then s.take (s.length - suf.length) else s

theorem trimSuffix_append (s suf : Bytes) : trimSuffix (s ++ suf) suf = s := by
  unfold trimSuffix
  rw [if_pos (List.isSuffixOf_iff_suffix.mpr (List.suffix_append s suf)), List.length_append,
    Nat.add_sub_cancel, List.take_left]

theorem trimSuffix_of_not {suf : Bytes} (h : ¬ suf <:+ s) : trimSuffix s suf = s := by
  unfold trimSuffix
  rw [if_neg fun hs => h (List.isSuffixOf_iff_suffix.mp hs)]

end Bytes

end OutRelayAgent.Lib
