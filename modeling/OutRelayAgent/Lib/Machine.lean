import Mathlib.Logic.Relation
import Mathlib.Tactic.Common

/-!
# Machines: runs, invariants, refinement

A machine is an initial state and a partial step function: `step s a = none` when the action `a`
is not enabled at `s`. A concurrent system is a machine whose actions name the party that moves
and the choices of its environment, so "every interleaving" is "every list of actions".

* `run` executes a list of actions, `runWhile` one whose steps meet a condition; both are
  structurally recursive, so a concrete run is decided by evaluation (`reach_of_run`,
  `reachWhile_of_run`).
* `ReachWhile C` are the states of the runs all of whose steps meet the condition `C`; `Reach` is
  the unconditional case, `ReachFrom` what follows a given state. `ReachWhile.invariant` is the
  induction over runs.
* `run_rel` and `run_filter` compare two runs: actions exchanged for others, actions left out.
* `reachFrom_terminal`, `run_length_le_terminal`: a machine without choices has one run, up to where
  it is stopped.
* `run_length_le`, `exists_run_until`, `exists_terminal`: under a decreasing measure runs are short,
  and some run reaches its aim or ends.
* `guard C` is the machine that only makes the steps that meet `C`; it reaches the states of the
  runs that meet `C`.
* `Refines R` relates a machine to an abstract one, each step being an abstract step or nothing.
  `Maps f` sends the states of a machine to those of another one, each step to a run.
-/

namespace OutRelayAgent.Lib

/-- An initial state and a partial step function. -/
structure Machine (σ α : Type*) where
  init : σ
  step : σ → α → Option σ

namespace Machine

variable {σ α : Type*}

/-- Execute a list of actions, `none` as soon as one is not enabled. -/
def run (M : Machine σ α) : σ → List α → Option σ
  | s, [] => some s
  | s, a :: as =>
    match M.step s a with
    | some s' => M.run s' as
    | none => none

/-- One step whose action meets `C` at the state it leaves. -/
def Next (M : Machine σ α) (C : σ → α → Prop) (s s' : σ) : Prop :=
  ∃ a, C s a ∧ M.step s a = some s'

/-- The states of the runs whose steps all meet `C`. -/
def ReachWhile (M : Machine σ α) (C : σ → α → Prop) : σ → Prop :=
  Relation.ReflTransGen (M.Next C) M.init

/-- The reachable states. -/
def Reach (M : Machine σ α) : σ → Prop := M.ReachWhile fun _ _ => True

/-- The states reachable from `s`. -/
def ReachFrom (M : Machine σ α) (s : σ) : σ → Prop :=
  Relation.ReflTransGen (M.Next fun _ _ => True) s

variable {M : Machine σ α} {C : σ → α → Prop}

theorem ReachWhile.init : M.ReachWhile C M.init := Relation.ReflTransGen.refl

theorem ReachWhile.step {s s' : σ} {a : α} (h : M.ReachWhile C s) (hC : C s a)
    (hs : M.step s a = some s') : M.ReachWhile C s' :=
  Relation.ReflTransGen.tail h ⟨a, hC, hs⟩

theorem Reach.step {s s' : σ} {a : α} (h : M.Reach s) (hs : M.step s a = some s') : M.Reach s' :=
  ReachWhile.step h trivial hs

theorem ReachWhile.mono {C' : σ → α → Prop} {s : σ} (h : M.ReachWhile C s)
    (hC : ∀ s a, C s a → C' s a) : M.ReachWhile C' s := by
  induction h with
  | refl => exact ReachWhile.init
  | tail _ hst ih =>
    obtain ⟨a, ha, hs⟩ := hst
    exact ih.step (hC _ a ha) hs

theorem ReachWhile.reach {s : σ} (h : M.ReachWhile C s) : M.Reach s :=
  h.mono fun _ _ _ => trivial

/-- **The invariant rule.** What holds initially and is kept by every step that meets `C` holds
in every state of a run that meets `C`. The step is taken from a state of such a run, so other
invariants may be used on it. -/
theorem ReachWhile.invariant {I : σ → Prop} (h0 : I M.init)
    (hstep : ∀ s a s', M.ReachWhile C s → I s → C s a → M.step s a = some s' → I s') {s : σ}
    (h : M.ReachWhile C s) : I s := by
  induction h with
  | refl => exact h0
  | tail hr hst ih =>
    obtain ⟨a, hC, hs⟩ := hst
    exact hstep _ a _ hr ih hC hs

theorem Reach.invariant {I : σ → Prop} (h0 : I M.init)
    (hstep : ∀ s a s', I s → M.step s a = some s' → I s') {s : σ} (h : M.Reach s) : I s :=
  ReachWhile.invariant h0 (fun s a s' _ hI _ hs => hstep s a s' hI hs) h

theorem Reach.trans {s s' : σ} (h : M.Reach s) (hf : M.ReachFrom s s') : M.Reach s' :=
  Relation.ReflTransGen.trans h hf

/-- What holds at a reachable state and is kept by every step from there holds ever after. -/
theorem ReachFrom.invariant {I : σ → Prop} {s s' : σ} (hs : M.Reach s) (h0 : I s)
    (hstep : ∀ t a t', M.Reach t → I t → M.step t a = some t' → I t') (h : M.ReachFrom s s') :
    I s' := by
  induction h with
  | refl => exact h0
  | tail hr hst ih =>
    obtain ⟨a, -, ha⟩ := hst
    exact hstep _ a _ (hs.trans hr) ih ha

theorem run_cons {a : α} {as : List α} {s s' : σ} :
    M.run s (a :: as) = some s' ↔ ∃ t, M.step s a = some t ∧ M.run t as = some s' := by
  rw [run]
  cases M.step s a <;> simp

theorem run_append {as bs : List α} {s s' : σ} :
    M.run s (as ++ bs) = some s' ↔ ∃ t, M.run s as = some t ∧ M.run t bs = some s' := by
  induction as generalizing s with
  | nil => simp [run]
  | cons a as ih =>
    rw [List.cons_append, run_cons]
    constructor
    · rintro ⟨u, hu, hr⟩
      obtain ⟨t, ht, hs⟩ := ih.mp hr
      exact ⟨t, run_cons.mpr ⟨u, hu, ht⟩, hs⟩
    · rintro ⟨t, ht, hs⟩
      obtain ⟨u, hu, hr⟩ := run_cons.mp ht
      exact ⟨u, hu, ih.mpr ⟨t, hr, hs⟩⟩

theorem run_concat {a : α} {as : List α} {s s' : σ} :
    M.run s (as ++ [a]) = some s' ↔ ∃ t, M.run s as = some t ∧ M.step t a = some s' := by
  have hone (t : σ) : M.run t [a] = some s' ↔ M.step t a = some s' := by
    rw [run_cons]
    simp [run]
  simp only [run_append, hone]

/-- A run that evaluates to a state leads to it. -/
theorem reachFrom_of_run (as : List α) : ∀ {s s' : σ}, M.run s as = some s' → M.ReachFrom s s' := by
  induction as with
  | nil =>
    intro s s' hr
    rw [run, Option.some.injEq] at hr
    exact hr ▸ Relation.ReflTransGen.refl
  | cons a as ih =>
    intro s s' hr
    obtain ⟨t, ht, hr⟩ := run_cons.mp hr
    exact Relation.ReflTransGen.head ⟨a, trivial, ht⟩ (ih hr)

/-- A run that evaluates to a state reaches it. -/
theorem reach_of_run (as : List α) {s : σ} (h : M.run M.init as = some s) : M.Reach s :=
  reachFrom_of_run as h

theorem exists_run {s t : σ} (h : M.ReachFrom s t) : ∃ as, M.run s as = some t := by
  refine Relation.ReflTransGen.head_induction_on h ⟨[], rfl⟩ ?_
  rintro s s' ⟨a, -, ha⟩ - ⟨as, has⟩
  exact ⟨a :: as, run_cons.mpr ⟨s', ha, has⟩⟩

/-! ### Machines without choices -/

/-- When all actions do the same, every reachable state leads to the state in which a run ends. -/
theorem reachFrom_terminal (hdet : ∀ (s : σ) (a b : α), M.step s a = M.step s b) {s t : σ}
    (hs : M.Reach s) (ht : M.Reach t) (hend : ∀ a, M.step t a = none) : M.ReachFrom s t := by
  refine Reach.invariant (I := fun s => M.ReachFrom s t) ht ?_ hs
  intro s a s' h hst
  rcases Relation.ReflTransGen.cases_head h with rfl | ⟨s'', ⟨b, -, hb⟩, h'⟩
  · rw [hend a] at hst
    cases hst
  · rw [hdet s a b, hb] at hst
    exact Option.some.inj hst ▸ h'

/-- No run is longer than one that ends. -/
theorem run_length_le_terminal (hdet : ∀ (s : σ) (a b : α), M.step s a = M.step s b) {t : σ}
    (hend : ∀ a, M.step t a = none) (bs : List α) : ∀ {s s' : σ} {as : List α},
      M.run s bs = some t → M.run s as = some s' → as.length ≤ bs.length := by
  induction bs with
  | nil =>
    intro s s' as ht hs
    obtain rfl := Option.some.inj ht
    cases as with
    | nil => exact Nat.le_refl _
    | cons a as =>
      obtain ⟨u, hu, -⟩ := run_cons.mp hs
      rw [hend a] at hu
      cases hu
  | cons b bs ih =>
    intro s s' as ht hs
    obtain ⟨u, hu, ht⟩ := run_cons.mp ht
    cases as with
    | nil => exact Nat.zero_le _
    | cons a as =>
      obtain ⟨v, hv, hs⟩ := run_cons.mp hs
      rw [hdet s a b, hu] at hv
      obtain rfl := Option.some.inj hv
      exact Nat.succ_le_succ (ih ht hs)

/-! ### Two runs -/

/-- **Two runs in step**, of one machine or of two. When actions related by `P` keep states related
by `R`, so do lists of such actions. -/
theorem run_rel {τ β : Type*} {N : Machine τ β} {R : σ → τ → Prop} {P : α → β → Prop}
    (hstep : ∀ {s t a b s'}, R s t → P a b → M.step s a = some s' →
      ∃ t', N.step t b = some t' ∧ R s' t')
    {as : List α} {bs : List β} (h : List.Forall₂ P as bs) : ∀ {s : σ} {t : τ} {s' : σ},
      R s t → M.run s as = some s' → ∃ t', N.run t bs = some t' ∧ R s' t' := by
  induction h with
  | nil =>
    intro s t s' hR hr
    cases hr
    exact ⟨t, rfl, hR⟩
  | cons hP _ ih =>
    intro s t s' hR hr
    obtain ⟨s₁, hs, hr⟩ := run_cons.mp hr
    obtain ⟨t₁, ht, hR₁⟩ := hstep hR hP hs
    obtain ⟨t', hr', hR'⟩ := ih hR₁ hr
    exact ⟨t', run_cons.mpr ⟨t₁, ht, hr'⟩, hR'⟩

/-- **A run with actions left out.** When the actions that are kept keep states related by `R`, and
the others do so on one side alone, the run without the others ends in a related state. -/
theorem run_filter {R : σ → σ → Prop} {P : α → Prop} (keep : α → Bool)
    (hkeep : ∀ {s t a s'}, R s t → P a → keep a = true → M.step s a = some s' →
      ∃ t', M.step t a = some t' ∧ R s' t')
    (hskip : ∀ {s t a s'}, R s t → P a → keep a = false → M.step s a = some s' → R s' t)
    {as : List α} (h : ∀ a ∈ as, P a) :
    ∀ {s t s' : σ}, R s t → M.run s as = some s' →
      ∃ t', M.run t (as.filter keep) = some t' ∧ R s' t' := by
  induction as with
  | nil =>
    intro s t s' hR hr
    cases hr
    exact ⟨t, rfl, hR⟩
  | cons a as ih =>
    intro s t s' hR hr
    obtain ⟨s₁, hs, hr⟩ := run_cons.mp hr
    have hP := h a List.mem_cons_self
    have ih := @ih fun b hb => h b (List.mem_cons_of_mem _ hb)
    cases hk : keep a with
    | true =>
      obtain ⟨t₁, ht, hR₁⟩ := hkeep hR hP hk hs
      obtain ⟨t', hr', hR'⟩ := ih hR₁ hr
      exact ⟨t', by rw [List.filter_cons_of_pos hk]; exact run_cons.mpr ⟨t₁, ht, hr'⟩, hR'⟩
    | false =>
      rw [List.filter_cons_of_neg (by simp [hk])]
      exact ih (hskip hR hP hk hs) hr

/-- Execute a list of actions as long as they meet `C`. -/
def runWhile (M : Machine σ α) (C : σ → α → Bool) : σ → List α → Option σ
  | s, [] => some s
  | s, a :: as =>
    match C s a, M.step s a with
    | true, some s' => M.runWhile C s' as
    | _, _ => none

/-- A run that evaluates under a condition reaches its state under that condition. -/
theorem reachWhile_of_run {C : σ → α → Bool} (as : List α) {s : σ}
    (h : M.runWhile C M.init as = some s) : M.ReachWhile (fun s a => C s a = true) s := by
  have key : ∀ (as : List α) {t : σ}, M.ReachWhile (fun s a => C s a = true) t →
      M.runWhile C t as = some s → M.ReachWhile (fun s a => C s a = true) s := by
    intro as
    induction as with
    | nil =>
      intro t ht hr
      rw [runWhile, Option.some.injEq] at hr
      exact hr ▸ ht
    | cons a as ih =>
      intro t ht hr
      rw [runWhile] at hr
      split at hr
      · rename_i hC hs
        exact ih (ht.step hC hs) hr
      · exact absurd hr (by simp)
  exact key as ReachWhile.init h

/-- The machine that only makes the steps that meet `C`. -/
def guard (M : Machine σ α) (C : σ → α → Bool) : Machine σ α where
  init := M.init
  step s a := if C s a = true then M.step s a else none

theorem guard_step {C : σ → α → Bool} {s s' : σ} {a : α} :
    (M.guard C).step s a = some s' ↔ C s a = true ∧ M.step s a = some s' :=
  Option.ite_none_right_eq_some

theorem reach_guard {C : σ → α → Bool} {s : σ} (h : M.ReachWhile (fun s a => C s a = true) s) :
    (M.guard C).Reach s := by
  induction h with
  | refl => exact ReachWhile.init
  | tail _ hst ih =>
    obtain ⟨a, hC, hs⟩ := hst
    exact ih.step (guard_step.mpr ⟨hC, hs⟩)

/-- A run is no longer than a measure that all its steps decrease. -/
theorem run_length_le (μ : σ → ℕ) (hdec : ∀ s a s', M.step s a = some s' → μ s' < μ s)
    (as : List α) : ∀ {s s' : σ}, M.run s as = some s' → as.length + μ s' ≤ μ s := by
  induction as with
  | nil =>
    intro s s' hr
    cases hr
    simp
  | cons a as ih =>
    intro s s' hr
    obtain ⟨t, ht, hr⟩ := run_cons.mp hr
    have hlt := hdec s a t ht
    have hle := ih hr
    rw [List.length_cons]
    omega

/-- **The progress rule.** Where a step by an action in `A` that decreases a measure can be made as
long as `Q` does not hold, a run of such actions leads to `Q`. -/
theorem exists_run_until {I Q : σ → Prop} {A : α → Prop} (μ : σ → ℕ)
    (hstep : ∀ s, I s → ¬ Q s → ∃ a s', A a ∧ M.step s a = some s' ∧ I s' ∧ μ s' < μ s) {s : σ}
    (hs : I s) : ∃ as s', (∀ a ∈ as, A a) ∧ M.run s as = some s' ∧ I s' ∧ Q s' := by
  induction hn : μ s using Nat.strongRecOn generalizing s with
  | _ n ih =>
    by_cases hQ : Q s
    · exact ⟨[], s, nofun, rfl, hs, hQ⟩
    · obtain ⟨a, t, ha, hst, ht, hlt⟩ := hstep s hs hQ
      obtain ⟨as, s', has, hr, hs'⟩ := ih (μ t) (hn ▸ hlt) ht rfl
      exact ⟨a :: as, s', List.forall_mem_cons.mpr ⟨ha, has⟩, run_cons.mpr ⟨t, hst, hr⟩, hs'⟩

/-- A machine all of whose steps decrease a measure can be run until no action is enabled. -/
theorem exists_terminal (μ : σ → ℕ) (hdec : ∀ s a s', M.step s a = some s' → μ s' < μ s) :
    ∃ s, M.Reach s ∧ ∀ a, M.step s a = none := by
  obtain ⟨-, s, -, -, hs, hend⟩ := exists_run_until (M := M) (I := M.Reach)
    (Q := fun s => ∀ a, M.step s a = none) (A := fun _ => True) μ
    (fun s hs hnot => by
      obtain ⟨a, ha⟩ := not_forall.mp hnot
      obtain ⟨s', hst⟩ := Option.ne_none_iff_exists'.mp ha
      exact ⟨a, s', trivial, hst, hs.step hst, hdec s a s' hst⟩) ReachWhile.init
  exact ⟨s, hs, hend⟩

/-! ## Refinement -/

/-- `R` relates `M` to the abstract machine `A`: it holds initially, and every step of `M` is
matched by one step of `A` or by none. -/
structure Refines {τ γ : Type*} (M : Machine σ α) (A : Machine τ γ) (R : σ → τ → Prop) :
    Prop where
  init : R M.init A.init
  step : ∀ s t a s', M.Reach s → R s t → M.step s a = some s' →
    R s' t ∨ ∃ c t', A.step t c = some t' ∧ R s' t'

/-- Every reachable state of the concrete machine is matched by a reachable abstract state. -/
theorem Refines.reach {τ γ : Type*} {A : Machine τ γ} {R : σ → τ → Prop} (h : M.Refines A R)
    {s : σ} (hs : M.Reach s) : ∃ t, A.Reach t ∧ R s t := by
  refine ReachWhile.invariant (I := fun s => ∃ t, A.Reach t ∧ R s t)
    ⟨A.init, ReachWhile.init, h.init⟩ ?_ hs
  rintro s a s' hr ⟨t, ht, hR⟩ - hst
  rcases h.step s t a s' hr hR hst with hR' | ⟨c, t', hc, hR'⟩
  · exact ⟨t, ht, hR'⟩
  · exact ⟨t', ht.step hc, hR'⟩

/-- `f` sends the steps of `M`, from the states where `P` holds, to runs of `A`. -/
structure Maps {τ γ : Type*} (M : Machine σ α) (A : Machine τ γ) (P : σ → Prop) (f : σ → τ) :
    Prop where
  keeps : ∀ s a s', P s → M.step s a = some s' → P s'
  step : ∀ s a s', P s → M.step s a = some s' → ∃ cs, A.run (f s) cs = some (f s')

/-- It sends runs to runs. -/
theorem Maps.run {τ γ : Type*} {A : Machine τ γ} {P : σ → Prop} {f : σ → τ}
    (h : M.Maps A P f) {s s' : σ} (hs : P s) (hr : M.ReachFrom s s') :
    ∃ cs, A.run (f s) cs = some (f s') := by
  have hboth : P s' ∧ ∃ cs, A.run (f s) cs = some (f s') := by
    induction hr with
    | refl => exact ⟨hs, [], rfl⟩
    | tail _ hst ih =>
      obtain ⟨a, -, ha⟩ := hst
      obtain ⟨hP, cs, hcs⟩ := ih
      obtain ⟨ds, hds⟩ := h.step _ a _ hP ha
      exact ⟨h.keeps _ a _ hP ha, cs ++ ds, run_append.mpr ⟨_, hcs, hds⟩⟩
  exact hboth.2

end Machine

end OutRelayAgent.Lib
