import Mathlib.Data.List.AList

/-!
# Tables

A table has at most one value under a key. An entry after `insert` is the new one or an old one
under another key (`lookup_insert_eq_some`), and an entry after `erase` is an old one under another
key (`lookup_erase_eq_some`). So what holds of every entry, with its key, is kept by `erase`, and by
`insert` if it holds of the new entry (`forall_lookup_erase`, `forall_lookup_insert`).
-/

namespace OutRelayAgent.Lib

variable {α β : Type*} [DecidableEq α] {m : AList fun _ : α => β} {k k' : α} {v v' : β}

theorem lookup_insert_eq_some :
    (m.insert k v).lookup k' = some v' ↔ k' = k ∧ v = v' ∨ k' ≠ k ∧ m.lookup k' = some v' := by
  rcases eq_or_ne k' k with rfl | hne
  · simp
  · simp [AList.lookup_insert_ne hne, hne]

theorem lookup_erase_eq_some :
    (m.erase k).lookup k' = some v ↔ k' ≠ k ∧ m.lookup k' = some v := by
  rcases eq_or_ne k' k with rfl | hne
  · simp
  · simp [AList.lookup_erase_ne hne, hne]

variable {P : α → β → Prop}

theorem forall_lookup_insert (h : ∀ k v, m.lookup k = some v → P k v) (hnew : P k v) :
    ∀ k' v', (m.insert k v).lookup k' = some v' → P k' v' := by
  intro k' v' hv'
  rcases lookup_insert_eq_some.mp hv' with ⟨rfl, rfl⟩ | ⟨-, hold⟩
  · exact hnew
  · exact h k' v' hold

theorem forall_lookup_erase (h : ∀ k v, m.lookup k = some v → P k v) :
    ∀ k' v', (m.erase k).lookup k' = some v' → P k' v' := by
  intro k' v' hv'
  exact h k' v' (lookup_erase_eq_some.mp hv').2

end OutRelayAgent.Lib
