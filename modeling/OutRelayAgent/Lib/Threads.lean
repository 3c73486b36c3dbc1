import OutRelayAgent.Lib.Machine
import Mathlib.Logic.Function.Basic

/-!
# Threads over a shared state

Any number of threads run one program, each in a local state of its own. A step of a thread reads
the shared state, goes to its next local state and has one effect on the shared state; the steps
of all threads interleave. A critical section is one step.

* `Program`: the local states, where a thread may start, what a step does. `Program.machine` is
  the pool of threads as a machine.
* `Program.invariant`: the proof rule. `G` is about the shared state, `J` about the shared state and
  one thread, `K` about two different threads. A step has to keep `G`, its own `J`, and the `J`
  and `K` of every other thread (non-interference). `D` is a condition on the steps of the run.
-/

namespace OutRelayAgent.Lib

/-- A program over a shared state `σ`: local states `τ`, choices of the environment `γ`, effects
`ε`. -/
structure Program (σ τ γ ε : Type*) where
  idle : τ
  /-- Where a thread may start. -/
  entry : σ → τ → Bool
  next : σ → τ → γ → Option (τ × ε)
  effect : ε → σ → σ

namespace Program

variable {σ τ γ ε : Type*}

/-- The shared state, the threads, and how many of them have been started. -/
structure Pool (σ τ : Type*) where
  shared : σ
  threads : ℕ → τ
  count : ℕ

inductive Act (τ γ : Type*)
  | start (t : τ)
  | run (i : ℕ) (c : γ)

def step (P : Program σ τ γ ε) (p : Pool σ τ) : Act τ γ → Option (Pool σ τ)
  | .start t =>
    if P.entry p.shared t then
      some { p with threads := Function.update p.threads p.count t, count := p.count + 1 }
    else none
  | .run i c =>
    match P.next p.shared (p.threads i) c with
    | some (t, e) =>
      some { p with shared := P.effect e p.shared, threads := Function.update p.threads i t }
    | none => none

/-- The pool from the shared state `s₀`, no thread started. -/
def machine (P : Program σ τ γ ε) (s₀ : σ) : Machine (Pool σ τ) (Act τ γ) where
  init := ⟨s₀, fun _ => P.idle, 0⟩
  step := P.step

variable {P : Program σ τ γ ε} {s₀ : σ} {p p' : Pool σ τ}

/-- What a thread's step does to the pool. -/
theorem run_cases {i : ℕ} {c : γ} (h : P.step p (.run i c) = some p') :
    ∃ t e, P.next p.shared (p.threads i) c = some (t, e) ∧
      p' = { p with shared := P.effect e p.shared, threads := Function.update p.threads i t } := by
  simp only [step] at h
  split at h
  · rename_i t e hn
    cases h
    exact ⟨t, e, hn, rfl⟩
  · cases h

theorem start_cases {t : τ} (h : P.step p (.start t) = some p') :
    P.entry p.shared t = true ∧
      p' = { p with threads := Function.update p.threads p.count t, count := p.count + 1 } := by
  simp only [step] at h
  split at h
  · rename_i he
    cases h
    exact ⟨he, rfl⟩
  · cases h

/-- The condition `D` on the steps of threads, as a condition on actions. -/
def allowed (D : σ → τ → γ → Bool) (p : Pool σ τ) : Act τ γ → Bool
  | .start _ => true
  | .run i c => D p.shared (p.threads i) c

/-- What a proof of `invariant` has to give. -/
structure Sound (P : Program σ τ γ ε) (s₀ : σ) (D : σ → τ → γ → Bool) (G : σ → Prop)
    (J : σ → τ → Prop) (K : τ → τ → Prop) : Prop where
  init : G s₀
  idle : J s₀ P.idle ∧ K P.idle P.idle
  start : ∀ {s t}, G s → P.entry s t = true → J s t
  start_other : ∀ {s t u}, P.entry s t = true → J s u → K t u ∧ K u t
  step : ∀ {s t c t' e}, G s → J s t → D s t c = true → P.next s t c = some (t', e) →
    G (P.effect e s) ∧ J (P.effect e s) t'
  other : ∀ {s t u c t' e}, G s → J s t → J s u → K t u → D s t c = true →
    P.next s t c = some (t', e) → J (P.effect e s) u ∧ K t' u ∧ K u t'

/-- The three kinds of facts about a pool. -/
structure Holds (G : σ → Prop) (J : σ → τ → Prop) (K : τ → τ → Prop) (p : Pool σ τ) : Prop where
  shared : G p.shared
  thread : ∀ i, J p.shared (p.threads i)
  pair : ∀ i j, i ≠ j → K (p.threads i) (p.threads j)

/-- A thread replaced by one that fits the others. -/
theorem Holds.update {G : σ → Prop} {J : σ → τ → Prop} {K : τ → τ → Prop} {s : σ} {n i : ℕ} {t : τ}
    {threads : ℕ → τ} (hG : G s) (hJ : J s t)
    (hother : ∀ j, j ≠ i → J s (threads j) ∧ K t (threads j) ∧ K (threads j) t)
    (hpair : ∀ j k, j ≠ i → k ≠ i → j ≠ k → K (threads j) (threads k)) :
    Holds G J K ⟨s, Function.update threads i t, n⟩ := by
  refine ⟨hG, fun j => ?_, fun j k hjk => ?_⟩
  · rcases eq_or_ne j i with rfl | hj
    · simpa using hJ
    · simpa [hj] using (hother j hj).1
  · rcases eq_or_ne j i with rfl | hj
    · simpa [hjk.symm] using (hother k hjk.symm).2.1
    · rcases eq_or_ne k i with rfl | hk
      · simpa [hj] using (hother j hj).2.2
      · simpa [hj, hk] using hpair j k hj hk hjk

/-- **The invariant rule for threads.** -/
theorem invariant {D : σ → τ → γ → Bool} {G : σ → Prop} {J : σ → τ → Prop} {K : τ → τ → Prop}
    (hs : P.Sound s₀ D G J K) (h : (P.machine s₀).ReachWhile (fun p a => allowed D p a = true) p) :
    Holds G J K p := by
  refine Machine.ReachWhile.invariant (M := P.machine s₀) ⟨hs.init, fun _ => hs.idle.1,
    fun _ _ _ => hs.idle.2⟩ ?_ h
  rintro p (t | ⟨i, c⟩) p' - hi hD hst
  · obtain ⟨he, rfl⟩ := start_cases hst
    refine Holds.update hi.shared (hs.start hi.shared he) (fun j _ => ⟨hi.thread j, ?_⟩)
      (fun j k _ _ hjk => hi.pair j k hjk)
    exact hs.start_other he (hi.thread j)
  · obtain ⟨t, e, hn, rfl⟩ := run_cases hst
    obtain ⟨hG, hJ⟩ := hs.step hi.shared (hi.thread i) hD hn
    refine Holds.update hG hJ (fun j hj => ?_) (fun j k _ _ hjk => hi.pair j k hjk)
    exact hs.other hi.shared (hi.thread i) (hi.thread j) (hi.pair i j hj.symm) hD hn

/-- The rule for all runs. -/
theorem invariant_reach {G : σ → Prop} {J : σ → τ → Prop} {K : τ → τ → Prop}
    (hs : P.Sound s₀ (fun _ _ _ => true) G J K) (h : (P.machine s₀).Reach p) : Holds G J K p := by
  refine invariant hs (Machine.ReachWhile.mono h ?_)
  rintro s (t | ⟨i, c⟩) - <;> rfl

/-- A thread that has not been started is idle, when idle threads do not move. -/
theorem idle_of_count_le (hidle : ∀ s c, P.next s P.idle c = none)
    (h : (P.machine s₀).Reach p) : ∀ i, p.count ≤ i → p.threads i = P.idle := by
  refine Machine.Reach.invariant (M := P.machine s₀)
    (I := fun p => ∀ i, p.count ≤ i → p.threads i = P.idle) (fun _ _ => rfl) ?_ h
  rintro p (t | ⟨j, c⟩) p' hi hst i hle
  · obtain ⟨-, rfl⟩ := start_cases hst
    have hne : i ≠ p.count := by rintro rfl; exact absurd hle (Nat.not_succ_le_self _)
    simpa [hne] using hi i (Nat.le_of_succ_le hle)
  · obtain ⟨t, e, hn, rfl⟩ := run_cases hst
    have hne : i ≠ j := by
      rintro rfl
      rw [hi i hle, hidle] at hn
      cases hn
    simpa [hne] using hi i hle

/-- A step of the pool leaves a started thread where it is, or is a step of that thread. -/
theorem thread_cases {a : Act τ γ} (hst : P.step p a = some p') {i : ℕ} (hi : i < p.count) :
    p'.threads i = p.threads i ∨
      ∃ c e, P.next p.shared (p.threads i) c = some (p'.threads i, e) := by
  rcases a with t | ⟨j, c⟩
  · obtain ⟨-, rfl⟩ := start_cases hst
    have hne : i ≠ p.count := Nat.ne_of_lt hi
    exact .inl (by simp [hne])
  · obtain ⟨t, e, hn, rfl⟩ := run_cases hst
    rcases eq_or_ne i j with rfl | hne
    · exact .inr ⟨c, e, by simpa using hn⟩
    · exact .inl (by simp [hne])

/-- Replacing a thread of which `Q` does not hold keeps the one of which it holds. -/
theorem exists_update {Q : τ → Prop} {threads : ℕ → τ} {i : ℕ} {t : τ}
    (h : ∃ j, Q (threads j)) (hi : ¬ Q (threads i)) : ∃ j, Q (Function.update threads i t j) := by
  obtain ⟨j, hj⟩ := h
  have hne : j ≠ i := by
    rintro rfl
    exact hi hj
  exact ⟨j, by simpa [hne] using hj⟩

/-- A thread in a local state without steps stays there. -/
theorem final_thread {t : τ} (hidle : ∀ s c, P.next s P.idle c = none) (ht : t ≠ P.idle)
    (hfinal : ∀ s c, P.next s t c = none) {i : ℕ} (h : (P.machine s₀).Reach p)
    (hi : p.threads i = t) (hr : (P.machine s₀).ReachFrom p p') : p'.threads i = t := by
  refine Machine.ReachFrom.invariant (M := P.machine s₀) (I := fun p => p.threads i = t) h hi ?_ hr
  intro q a q' hq hqi hst
  have hlt : i < q.count := by
    by_contra hle
    exact ht (hqi.symm.trans (idle_of_count_le hidle hq i (Nat.le_of_not_lt hle)))
  rcases thread_cases hst hlt with hsame | ⟨c, e, hn⟩
  · exact hsame.trans hqi
  · rw [hqi, hfinal] at hn
    cases hn

end Program

end OutRelayAgent.Lib
