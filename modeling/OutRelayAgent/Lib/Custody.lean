import Mathlib.Logic.Function.Basic
import Mathlib.Tactic.Common

/-!
# Who has what

Resources are numbered in the order in which they come into being. A party holds one of them or
none. `Custody` says that the two views agree, from the parties and from the resources: a resource
has one holder, or has been disposed of.

* `mint_disposed`, `take_up`, `dispose`: a new resource that nobody holds, one that is taken, one
  that is given up.
* `mint`, `move`: a new resource for a party, one that is handed over.
-/

namespace OutRelayAgent.Lib

/-- `holds` is the view from the parties, `holder` the one from the `count` resources. -/
structure Custody {H : Type*} (holds : H → Option ℕ) (count : ℕ) (holder : ℕ → Option H) :
    Prop where
  holds_iff : ∀ h c, holds h = some c ↔ c < count ∧ holder c = some h

namespace Custody

variable {H : Type*} [DecidableEq H] {holds : H → Option ℕ} {count c : ℕ}
  {holder : ℕ → Option H} {h h' : H}

omit [DecidableEq H] in
theorem init {holder : ℕ → Option H} : Custody (fun _ : H => none) 0 holder :=
  ⟨fun _ _ => ⟨nofun, fun hc => absurd hc.1 (Nat.not_lt_zero _)⟩⟩

omit [DecidableEq H] in
/-- A resource is in one hand only. -/
theorem unique (hC : Custody holds count holder) (hh : holds h = some c) (hh' : holds h' = some c) :
    h' = h := by
  obtain ⟨-, hplace⟩ := (hC.holds_iff h c).mp hh
  obtain ⟨-, hplace'⟩ := (hC.holds_iff h' c).mp hh'
  rw [hplace] at hplace'
  exact (Option.some.inj hplace').symm

omit [DecidableEq H] in
/-- A new resource that is disposed of at once. -/
theorem mint_disposed (hC : Custody holds count holder) :
    Custody holds (count + 1) (Function.update holder count none) := by
  refine ⟨fun k c => ?_⟩
  rw [hC.holds_iff]
  rcases eq_or_ne c count with rfl | hc
  · simp
  · rw [Function.update_of_ne hc]
    exact and_congr_left fun _ => by omega

theorem dispose (hC : Custody holds count holder) (hh : holds h = some c) :
    Custody (Function.update holds h none) count (Function.update holder c none) := by
  refine ⟨fun k d => ?_⟩
  rcases eq_or_ne k h with rfl | hk
  · rw [Function.update_self]
    refine ⟨nofun, ?_⟩
    rintro ⟨hlt, hplace⟩
    rcases eq_or_ne d c with rfl | hd
    · rw [Function.update_self] at hplace
      cases hplace
    · rw [Function.update_of_ne hd] at hplace
      have hsame := (hC.holds_iff k d).mpr ⟨hlt, hplace⟩
      rw [hh] at hsame
      exact absurd (Option.some.inj hsame).symm hd
  · rw [Function.update_of_ne hk]
    rcases eq_or_ne d c with rfl | hd
    · rw [Function.update_self]
      exact ⟨fun hk' => absurd (hC.unique hh hk') hk, nofun⟩
    · rw [Function.update_of_ne hd, hC.holds_iff]

/-- A resource that nobody has is taken up. -/
theorem take_up (hC : Custody holds count holder) (hfree : holds h = none) (hc : c < count)
    (hnone : holder c = none) :
    Custody (Function.update holds h (some c)) count (Function.update holder c (some h)) := by
  refine ⟨fun k d => ?_⟩
  rcases eq_or_ne d c with rfl | hd
  · rw [Function.update_self]
    rcases eq_or_ne k h with rfl | hk
    · simp [hc]
    · have hnot : holds k ≠ some d := by
        intro hk'
        rw [((hC.holds_iff k d).mp hk').2] at hnone
        cases hnone
      simp [hk, hnot, hk.symm]
  · rw [Function.update_of_ne hd]
    rcases eq_or_ne k h with rfl | hk
    · have hnot : ¬ (d < count ∧ holder d = some k) := by
        rw [← hC.holds_iff, hfree]
        nofun
      simp [hnot, hd.symm]
    · rw [Function.update_of_ne hk, hC.holds_iff]

/-- A party that has nothing gets a new resource. -/
theorem mint (hC : Custody holds count holder) (hfree : holds h = none) :
    Custody (Function.update holds h (some count)) (count + 1)
      (Function.update holder count (some h)) := by
  have htake := hC.mint_disposed.take_up hfree (Nat.lt_succ_self count)
    (Function.update_self count none holder)
  rwa [Function.update_idem] at htake

/-- A resource is handed over to a party that has nothing. -/
theorem move (hC : Custody holds count holder) (hh : holds h = some c) (hfree : holds h' = none) :
    Custody (Function.update (Function.update holds h none) h' (some c)) count
      (Function.update holder c (some h')) := by
  have hne : h' ≠ h := by
    rintro rfl
    rw [hh] at hfree
    cases hfree
  obtain ⟨hlt, -⟩ := (hC.holds_iff h c).mp hh
  have htake := (hC.dispose hh).take_up (h := h') (c := c)
    (by rw [Function.update_of_ne hne, hfree]) hlt (Function.update_self c none holder)
  rwa [Function.update_idem] at htake

end Custody

end OutRelayAgent.Lib
