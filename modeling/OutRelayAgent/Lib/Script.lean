import Mathlib.Tactic.Common

/-!
# Sequential code among others

A `Script` is the code of one goroutine over a state that others change too. It is a tree: each step
asks the environment for an outcome, changes the state, and goes on by the outcome and the state it
found. Steps have labels, and code is written with `do`.

`Runs R x s tr s' r`: `x`, begun in `s`, returns `r` in `s'`, having made the steps `tr`, while the
others make changes in `R` before, between and after its steps.

* `Spec R s x Q`: the steps, the result and the final state of every run from `s` meet `Q`.
  `spec_pure`, `spec_step` and `spec_bind` are the rules for the ways code is put together.
* `Runs.invariant`: what the others and the code's own steps keep holds at the end.
* `Runs.after`: what a step brings about, and all keep from then on, holds at the end.
-/

namespace OutRelayAgent.Lib

/-- Code that returns a `ρ`, over the state `S`, with steps labelled by `E`. -/
inductive Script (S E ρ : Type) : Type 1
  | ret (r : ρ)
  | act {C : Type} (f : C → S → E × S) (k : C → S → Script S E ρ)

namespace Script

variable {S E α ρ : Type}

def bind (x : Script S E α) (g : α → Script S E ρ) : Script S E ρ :=
  match x with
  | ret a => g a
  | act f k => act f fun c s => (k c s).bind g

instance : Monad (Script S E) where
  pure := ret
  bind := bind

/-- One step, which returns what `g` makes of the outcome and the state it found. -/
def step {C : Type} (f : C → S → E × S) (g : C → S → α) : Script S E α :=
  act f fun c s => ret (g c s)

/-- A step that was made: the state it found, its label, the state it left. -/
structure Event (S E : Type) where
  pre : S
  label : E
  post : S

/-- The runs of a piece of code, among others that make changes in `R`. -/
inductive Runs (R : S → S → Prop) : Script S E ρ → S → List (Event S E) → S → ρ → Prop
  | ret {s s' : S} {r : ρ} : R s s' → Runs R (.ret r) s [] s' r
  | act {C : Type} {f : C → S → E × S} {k : C → S → Script S E ρ} {s t s' : S}
      {tr : List (Event S E)} {r : ρ} (c : C) : R s t → Runs R (k c t) (f c t).2 tr s' r →
      Runs R (.act f k) s (⟨t, (f c t).1, (f c t).2⟩ :: tr) s' r

variable {R : S → S → Prop} {s s' : S} {tr : List (Event S E)}

/-! ## Specifications -/

/-- The steps, the result and the final state of every run of `x` from `s` meet `Q`. -/
def Spec (R : S → S → Prop) (s : S) (x : Script S E α) (Q : List (Event S E) → α → S → Prop) :
    Prop :=
  ∀ tr s' a, Runs R x s tr s' a → Q tr a s'

theorem Spec.mono {x : Script S E α} {Q Q' : List (Event S E) → α → S → Prop} (h : Spec R s x Q)
    (himp : ∀ tr a s', Q tr a s' → Q' tr a s') : Spec R s x Q' :=
  fun tr s' a hruns => himp tr a s' (h tr s' a hruns)

theorem spec_pure {a : α} {Q : List (Event S E) → α → S → Prop} (h : ∀ s', R s s' → Q [] a s') :
    Spec R s (pure a : Script S E α) Q := by
  intro tr s' r hruns
  cases hruns with
  | ret hR => exact h s' hR

theorem spec_step {C : Type} {f : C → S → E × S} {g : C → S → α}
    {Q : List (Event S E) → α → S → Prop}
    (h : ∀ c t s', R s t → R (f c t).2 s' → Q [⟨t, (f c t).1, (f c t).2⟩] (g c t) s') :
    Spec R s (step f g) Q := by
  intro tr s' r hruns
  cases hruns with
  | act c hR hrest =>
    cases hrest with
    | ret hR' => exact h c _ s' hR hR'

/-- The run of two pieces of code, one after the other. The others may do nothing in between. -/
theorem runs_bind (hrefl : ∀ s, R s s) {x : Script S E α} {g : α → Script S E ρ} {r : ρ}
    (h : Runs R (x >>= g) s tr s' r) :
    ∃ t tr₁ tr₂ a, Runs R x s tr₁ t a ∧ Runs R (g a) t tr₂ s' r ∧ tr = tr₁ ++ tr₂ := by
  induction x generalizing s tr with
  | ret a => exact ⟨s, [], tr, a, .ret (hrefl s), h, rfl⟩
  | act f k ih =>
    cases h with
    | act c hR hrest =>
      obtain ⟨t, tr₁, tr₂, a, hx, hg, rfl⟩ := ih _ _ hrest
      exact ⟨t, _, tr₂, a, .act c hR hx, hg, rfl⟩

theorem spec_bind (hrefl : ∀ s, R s s) {x : Script S E α} {g : α → Script S E ρ}
    {M : List (Event S E) → α → S → Prop} {Q : List (Event S E) → ρ → S → Prop}
    (hx : Spec R s x M)
    (hg : ∀ tr a t, M tr a t → Spec R t (g a) fun tr' r s' => Q (tr ++ tr') r s') :
    Spec R s (x >>= g) Q := by
  intro tr s' r hruns
  obtain ⟨t, tr₁, tr₂, a, h₁, h₂, rfl⟩ := runs_bind hrefl hruns
  exact hg tr₁ a t (hx tr₁ t a h₁) tr₂ s' r h₂

/-! ## Invariants -/

/-- What the others keep, and every step of the code, holds at the end. -/
theorem Runs.invariant {I : S → Prop} {x : Script S E ρ} {r : ρ} (h : Runs R x s tr s' r)
    (hothers : ∀ s t, R s t → I s → I t) (hown : ∀ e ∈ tr, I e.pre → I e.post) (hs : I s) :
    I s' := by
  induction h with
  | ret hR => exact hothers _ _ hR hs
  | act c hR hrest ih =>
    refine ih (fun e he => hown e (List.mem_cons_of_mem _ he)) ?_
    exact hown _ List.mem_cons_self (hothers _ _ hR hs)

/-- What a step brings about, and the others and every step keep, holds at the end. -/
theorem Runs.after {I : S → Prop} {x : Script S E ρ} {r : ρ} (h : Runs R x s tr s' r)
    (hothers : ∀ s t, R s t → I s → I t) (hown : ∀ e ∈ tr, I e.pre → I e.post)
    {e : Event S E} (he : e ∈ tr) (hpost : I e.post) : I s' := by
  induction h with
  | ret hR => cases he
  | act c hR hrest ih =>
    have hown' := fun e he => hown e (List.mem_cons_of_mem _ he)
    rcases List.mem_cons.mp he with rfl | he
    · exact hrest.invariant hothers hown' hpost
    · exact ih hown' he

end Script

end OutRelayAgent.Lib
