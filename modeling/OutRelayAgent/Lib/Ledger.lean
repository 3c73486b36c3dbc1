import Mathlib.Data.List.Basic
import Mathlib.Tactic.Common

/-!
# What is held

A log of resources that are taken and given back. `held` is what is held at the end of it, the
latest first. A resource may rest on another, as a connection does on a socket; `Orderly` says that
nothing was given back while something that rests on it was held.

`held_take`, `held_give`, `orderly_take`, `orderly_give`: one more entry.
-/

namespace OutRelayAgent.Lib

inductive Move (R : Type*)
  | take (r : R)
  | give (r : R)

namespace Ledger

variable {R : Type*} [DecidableEq R]

def hold (rs : List R) : Move R → List R
  | .take r => r :: rs
  | .give r => rs.erase r

/-- What is held at the end of a log. -/
def held (log : List (Move R)) : List R := log.foldl hold []

/-- What is given back at any moment has nothing resting on it then. -/
def Orderly (rests : R → R → Bool) (log : List (Move R)) : Prop :=
  ∀ before r after, log = before ++ .give r :: after → ∀ x ∈ held before, rests x r = false

variable {rests : R → R → Bool} {log : List (Move R)} {r : R}

@[simp] theorem held_nil : held ([] : List (Move R)) = [] := rfl

@[simp] theorem held_take : held (log ++ [.take r]) = r :: held log := by
  simp [held, hold]

@[simp] theorem held_give : held (log ++ [.give r]) = (held log).erase r := by
  simp [held, hold]

@[simp] theorem orderly_nil : Orderly rests [] := by
  intro before r after h
  simp at h

theorem orderly_concat {m : Move R} : Orderly rests (log ++ [m]) ↔
    Orderly rests log ∧ ∀ r, m = .give r → ∀ x ∈ held log, rests x r = false := by
  constructor
  · intro h
    refine ⟨?_, fun r hm => h log r [] (by rw [hm])⟩
    rintro before s after rfl
    exact h before s (after ++ [m]) (by simp)
  · rintro ⟨h, hlast⟩ before s after heq
    rcases List.eq_nil_or_concat after with rfl | ⟨after, last, rfl⟩
    · obtain ⟨rfl, hs⟩ := List.append_inj' heq rfl
      exact hlast s (List.singleton_inj.mp hs)
    · rw [List.concat_eq_append, ← List.cons_append, ← List.append_assoc] at heq
      exact h before s after (List.append_inj' heq rfl).1

@[simp] theorem orderly_take : Orderly rests (log ++ [.take r]) ↔ Orderly rests log := by
  simp [orderly_concat]

@[simp] theorem orderly_give :
    Orderly rests (log ++ [.give r]) ↔ Orderly rests log ∧ ∀ x ∈ held log, rests x r = false := by
  simp [orderly_concat]

end Ledger

end OutRelayAgent.Lib
