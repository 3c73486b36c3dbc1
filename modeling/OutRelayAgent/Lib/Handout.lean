import Mathlib.Data.List.Dedup
import Mathlib.Data.List.Nodup
import Mathlib.Tactic.Common

/-!
# Handing out a list

Callers give their names, one after the other, and each new name gets the next item of a list `U`.
What has been handed out is then `U` zipped with the names in the order of their first appearance.

* `handout U calls`: the pairs, after these calls.
* `turn calls n`: the place of `n` among the names, if `n` is the next to call. It gets `U[turn]`,
  if there is such an item.
* `mem_handout_iff`: a name has the item of its turn.
* `getElem?_turn_eq_none`: a name gets nothing exactly if it has nothing and all of `U` is gone.
-/

namespace OutRelayAgent.Lib

variable {α β : Type*} [DecidableEq α] {U : List β} {calls : List α} {n : α} {v : β}

/-! ## Names in the order of their first appearance -/

/-- The names of the calls, each where it appears first. -/
def distinct (calls : List α) : List α := calls.reverse.dedup.reverse

theorem nodup_distinct (calls : List α) : (distinct calls).Nodup :=
  List.nodup_reverse.mpr (List.nodup_dedup _)

@[simp] theorem mem_distinct : n ∈ distinct calls ↔ n ∈ calls := by
  simp [distinct]

theorem distinct_snoc_of_mem (h : n ∈ calls) : distinct (calls ++ [n]) = distinct calls := by
  unfold distinct
  rw [List.reverse_append, List.reverse_singleton, List.singleton_append,
    List.dedup_cons_of_mem (List.mem_reverse.mpr h)]

theorem distinct_snoc_of_notMem (h : n ∉ calls) :
    distinct (calls ++ [n]) = distinct calls ++ [n] := by
  unfold distinct
  rw [List.reverse_append, List.reverse_singleton, List.singleton_append,
    List.dedup_cons_of_notMem (mt List.mem_reverse.mp h), List.reverse_cons]

/-- The place of `n` among the names, if `n` calls next. -/
def turn (calls : List α) (n : α) : ℕ := (distinct (calls ++ [n])).idxOf n

theorem turn_of_mem (h : n ∈ calls) : turn calls n = (distinct calls).idxOf n := by
  rw [turn, distinct_snoc_of_mem h]

theorem turn_of_notMem (h : n ∉ calls) : turn calls n = (distinct calls).length := by
  rw [turn, distinct_snoc_of_notMem h, List.idxOf_append_of_notMem (mt mem_distinct.mp h),
    List.idxOf_cons_self, Nat.add_zero]

/-- More calls come behind. -/
theorem exists_distinct_append (calls more : List α) :
    ∃ rest, distinct (calls ++ more) = distinct calls ++ rest := by
  induction more generalizing calls with
  | nil => exact ⟨[], by rw [List.append_nil, List.append_nil]⟩
  | cons n more ih =>
    obtain ⟨rest, hrest⟩ := ih (calls ++ [n])
    rw [List.append_cons, hrest]
    by_cases hn : n ∈ calls
    · exact ⟨rest, by rw [distinct_snoc_of_mem hn]⟩
    · exact ⟨n :: rest, by rw [distinct_snoc_of_notMem hn, List.append_assoc]; rfl⟩

theorem turn_append (h : n ∈ calls) (more : List α) : turn (calls ++ more) n = turn calls n := by
  obtain ⟨rest, hrest⟩ := exists_distinct_append calls more
  rw [turn_of_mem h, turn_of_mem (List.mem_append_left more h), hrest,
    List.idxOf_append_of_mem (mem_distinct.mpr h)]

theorem turn_lt (h : n ∈ calls) : turn calls n < (distinct calls).length := by
  rw [turn_of_mem h]
  exact List.idxOf_lt_length_of_mem (mem_distinct.mpr h)

theorem turn_le (calls : List α) (n : α) : turn calls n ≤ (distinct calls).length := by
  by_cases h : n ∈ calls
  · exact Nat.le_of_lt (turn_lt h)
  · exact Nat.le_of_eq (turn_of_notMem h)

/-- One more name is one too many exactly if there is no item for its turn. -/
theorem length_distinct_snoc_le_iff {k : ℕ} (h : (distinct calls).length ≤ k) :
    (distinct (calls ++ [n])).length ≤ k ↔ turn calls n < k := by
  by_cases hn : n ∈ calls
  · have hlt := turn_lt hn
    rw [distinct_snoc_of_mem hn]
    omega
  · rw [distinct_snoc_of_notMem hn, turn_of_notMem hn, List.length_append, List.length_singleton]
    omega

/-! ## What has been handed out -/

/-- The pairs of a name and the item it got. -/
def handout (U : List β) (calls : List α) : List (α × β) := (distinct calls).zip U

theorem length_handout (U : List β) (calls : List α) :
    (handout U calls).length = min (distinct calls).length U.length :=
  List.length_zip

omit [DecidableEq α] in
/-- One more name gets the first item that is left. -/
theorem zip_snoc (ns : List α) (U : List β) (n : α) :
    (ns ++ [n]).zip U = ns.zip U ++ U[ns.length]?.toList.map (n, ·) := by
  induction ns generalizing U with
  | nil => cases U <;> rfl
  | cons m ns ih =>
    cases U with
    | nil => rfl
    | cons u U => exact congrArg ((m, u) :: ·) (ih U)

theorem handout_snoc_of_mem (h : n ∈ calls) : handout U (calls ++ [n]) = handout U calls := by
  rw [handout, distinct_snoc_of_mem h, handout]

theorem handout_snoc_of_notMem (h : n ∉ calls) :
    handout U (calls ++ [n]) = handout U calls ++ U[turn calls n]?.toList.map (n, ·) := by
  rw [handout, distinct_snoc_of_notMem h, zip_snoc, turn_of_notMem h, handout]

theorem mem_handout_iff :
    (n, v) ∈ handout U calls ↔ n ∈ calls ∧ U[turn calls n]? = some v := by
  rw [handout, List.mem_iff_getElem?]
  simp only [List.getElem?_zip_eq_some]
  constructor
  · rintro ⟨k, hk, hv⟩
    have hn : n ∈ calls := mem_distinct.mp (List.mem_of_getElem? hk)
    have hlt : k < (distinct calls).length := (List.getElem?_eq_some_iff.mp hk).1
    have hidx : (distinct calls)[k]? = (distinct calls)[(distinct calls).idxOf n]? := by
      rw [hk, List.getElem?_idxOf (mem_distinct.mpr hn)]
    rw [turn_of_mem hn, ← (List.getElem?_inj hlt (nodup_distinct calls)).mp hidx]
    exact ⟨hn, hv⟩
  · rintro ⟨hn, hv⟩
    rw [turn_of_mem hn] at hv
    exact ⟨_, List.getElem?_idxOf (mem_distinct.mpr hn), hv⟩

theorem mem_handout_append (h : (n, v) ∈ handout U calls) (more : List α) :
    (n, v) ∈ handout U (calls ++ more) := by
  obtain ⟨hn, hv⟩ := mem_handout_iff.mp h
  exact mem_handout_iff.mpr ⟨List.mem_append_left more hn, (turn_append hn more).symm ▸ hv⟩

/-- The item of the name is among those at the front that are gone. -/
theorem mem_take_of_mem_handout (h : (n, v) ∈ handout U calls) :
    v ∈ U.take (distinct calls).length := by
  obtain ⟨hn, hv⟩ := mem_handout_iff.mp h
  rw [turn_of_mem hn] at hv
  refine List.mem_of_getElem? (?_ : (U.take _)[(distinct calls).idxOf n]? = some v)
  rw [List.getElem?_take_of_lt (List.idxOf_lt_length_of_mem (mem_distinct.mpr hn)), hv]

/-- A name gets nothing exactly if it has nothing and all of the list is gone. -/
theorem getElem?_turn_eq_none :
    U[turn calls n]? = none ↔
      (∀ v, (n, v) ∉ handout U calls) ∧ (handout U calls).length = U.length := by
  rw [length_handout]
  constructor
  · intro h
    have hle := List.getElem?_eq_none_iff.mp h
    have hturn := turn_le calls n
    refine ⟨fun v hv => ?_, by omega⟩
    rw [mem_handout_iff, h] at hv
    cases hv.2
  · rintro ⟨hno, hall⟩
    by_cases hn : n ∈ calls
    · exact Option.eq_none_iff_forall_ne_some.mpr fun v hv => hno v (mem_handout_iff.mpr ⟨hn, hv⟩)
    · rw [List.getElem?_eq_none_iff, turn_of_notMem hn]
      omega

/-- A name that has nothing gets the first item that is left. -/
theorem getElem?_turn_of_forall_notMem (h : ∀ v, (n, v) ∉ handout U calls) :
    U[turn calls n]? = U[(distinct calls).length]? := by
  by_cases hn : n ∈ calls
  · have hnone : U[turn calls n]? = none :=
      Option.eq_none_iff_forall_ne_some.mpr fun v hv => h v (mem_handout_iff.mpr ⟨hn, hv⟩)
    have hle := List.getElem?_eq_none_iff.mp hnone
    have hturn := turn_le calls n
    rw [hnone, List.getElem?_eq_none_iff.mpr (by omega)]
  · rw [turn_of_notMem hn]

end OutRelayAgent.Lib
