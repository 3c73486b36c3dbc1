import OutRelayAgent.Lib.Rendezvous
import Mathlib.Algebra.BigOperators.Group.Finset.Basic
import Mathlib.Algebra.Order.BigOperators.Group.Finset
import Mathlib.Data.Fintype.BigOperators

/-!
# The resume loop of `Reconnect`: when can the agents wait for each other

Model of the loop `for _, rs := range streams { s.Resume(ctx, rs) … }` (`session.go:784-797`) on
any number of agents at once. `Resume` opens a stream, sends `STREAM_RESUME` and blocks in
`completeResume`'s `ParseFrame` until the relay echoes the peer's (`session.go:633-683`); the
relay's matcher does so once both halves of the stream id have arrived. An agent takes its
streams one at a time, in the order `ActiveStreams` listed them, a map iteration
(`session.go:856-867`).

* `fails a k`: opening the stream, or writing the frame, fails for agent `a` and stream `k`. The
  source logs it, forgets the stream and goes on (`openErr`, `writeErr`). An error after the
  echo (`retransmitErr`) does the same; it is a choice of the run.
* The loop is a process of `Lib.Agenda`: its meetings are the streams whose half it gets to send.
* `resume_deadlock_free_iff`: the agents can never all come to wait for each other exactly when
  each half is sent by both its agents or by neither, and all agents list the streams they send in
  an order compatible with a common one.
* `crossed_deadlock`: two agents, two streams, listed in opposite orders.
-/

namespace OutRelayAgent.Reconnect

open Lib

/-- Agents, and the streams that each two of them share. -/
structure Fleet (ι κ : Type) where
  /-- What `ActiveStreams()` returned to each agent's `Reconnect`. -/
  activeStreams : ι → List κ
  consumer : κ → ι
  provider : κ → ι
  nodup : ∀ a, (activeStreams a).Nodup
  two_ends : ∀ k, consumer k ≠ provider k
  shared : ∀ {a k}, k ∈ activeStreams a → a = consumer k ∨ a = provider k
  both : ∀ {a k}, k ∈ activeStreams a →
    k ∈ activeStreams (consumer k) ∧ k ∈ activeStreams (provider k)

/-- Where an agent's loop stands with the first of its remaining streams. -/
inductive Pc
  | next
  | opened
  | waiting
  | echoed
  deriving DecidableEq

/-- An agent's loop: the streams it has still to resume, and those it has forgotten. -/
structure Agent (κ : Type) where
  todo : List κ
  pc : Pc
  forgotten : List κ

/-- The agents, and for each stream id whose half has arrived at the relay's matcher. -/
structure World (ι κ : Type) where
  agents : ι → Agent κ
  halves : κ → Finset ι

inductive Act (ι : Type)
  | openStream (a : ι)
  | openErr (a : ι)
  | writeResume (a : ι)
  | writeErr (a : ι)
  | parseEcho (a : ι)
  | swapInner (a : ι)
  | retransmitErr (a : ι)

variable {ι κ : Type} [DecidableEq ι]

def World.set (s : World ι κ) (a : ι) (g : Agent κ) : World ι κ :=
  { s with agents := Function.update s.agents a g }

/-- The two agents that share `k`. -/
def Fleet.ends (F : Fleet ι κ) (k : κ) : Finset ι := {F.consumer k, F.provider k}

@[simp] theorem World.set_agents (s : World ι κ) (a : ι) (g : Agent κ) :
    (s.set a g).agents = Function.update s.agents a g := rfl

@[simp] theorem World.set_halves (s : World ι κ) (a : ι) (g : Agent κ) :
    (s.set a g).halves = s.halves := rfl

variable [DecidableEq κ]

/-- One step of an agent's loop. -/
def step (F : Fleet ι κ) (fails : ι → κ → Bool) (s : World ι κ) : Act ι → Option (World ι κ)
  | .openStream a =>
    match s.agents a with
    | ⟨k :: rest, .next, fs⟩ => some (s.set a ⟨k :: rest, .opened, fs⟩)
    | _ => none
  | .openErr a =>
    match s.agents a with
    | ⟨k :: rest, .next, fs⟩ => if fails a k then some (s.set a ⟨rest, .next, k :: fs⟩) else none
    | _ => none
  | .writeResume a =>
    match s.agents a with
    | ⟨k :: rest, .opened, fs⟩ =>
      if fails a k then none
      else some { s.set a ⟨k :: rest, .waiting, fs⟩ with
        halves := Function.update s.halves k (insert a (s.halves k)) }
    | _ => none
  | .writeErr a =>
    match s.agents a with
    | ⟨k :: rest, .opened, fs⟩ =>
      if fails a k then some (s.set a ⟨rest, .next, k :: fs⟩) else none
    | _ => none
  | .parseEcho a =>
    match s.agents a with
    | ⟨k :: rest, .waiting, fs⟩ =>
      if F.ends k ⊆ s.halves k then some (s.set a ⟨k :: rest, .echoed, fs⟩) else none
    | _ => none
  | .swapInner a =>
    match s.agents a with
    | ⟨_ :: rest, .echoed, fs⟩ => some (s.set a ⟨rest, .next, fs⟩)
    | _ => none
  | .retransmitErr a =>
    match s.agents a with
    | ⟨k :: rest, .echoed, fs⟩ => some (s.set a ⟨rest, .next, k :: fs⟩)
    | _ => none

/-- Every agent at the start of its loop, nothing sent. -/
def machine (F : Fleet ι κ) (fails : ι → κ → Bool) : Machine (World ι κ) (Act ι) where
  init := ⟨fun a => ⟨F.activeStreams a, .next, []⟩, fun _ => ∅⟩
  step := step F fails

/-- The agent is in `ParseFrame`, waiting for a half that has not been sent. -/
def Blocked (F : Fleet ι κ) (s : World ι κ) (a : ι) : Prop :=
  (s.agents a).pc = .waiting ∧ ∃ k rest, (s.agents a).todo = k :: rest ∧ ¬ F.ends k ⊆ s.halves k

/-- Some agent has not finished its loop, and each that has not is blocked. -/
def Deadlock (F : Fleet ι κ) (s : World ι κ) : Prop :=
  (∃ a, (s.agents a).todo ≠ []) ∧ ∀ a, (s.agents a).todo ≠ [] → Blocked F s a

/-- The half of `k` is sent by both agents that share it or by neither. -/
def SentByBoth (F : Fleet ι κ) (fails : ι → κ → Bool) : Prop :=
  ∀ a k, k ∈ F.activeStreams a → fails (F.consumer k) k = fails (F.provider k) k

/-- The streams whose half `a` gets to send, in the order it lists them. -/
def sends (F : Fleet ι κ) (fails : ι → κ → Bool) (a : ι) : List κ :=
  (F.activeStreams a).filter fun k => !fails a k

/-- The orders of all agents are compatible with one. -/
def CommonOrder (F : Fleet ι κ) (fails : ι → κ → Bool) : Prop :=
  ∃ rank : κ → ℕ, ∀ a, (sends F fails a).Pairwise fun j k => rank j < rank k

/-! ## What one step can do -/

variable {F : Fleet ι κ} {fails : ι → κ → Bool} {s s' : World ι κ}

/-- What one step of the loop of `a`, whose first stream is `k`, does to it. -/
inductive Moves (F : Fleet ι κ) (fails : ι → κ → Bool) (s : World ι κ) (a : ι) :
    Agent κ → World ι κ → Prop
  | opened {k rest fs} : Moves F fails s a ⟨k :: rest, .next, fs⟩
      (s.set a ⟨k :: rest, .opened, fs⟩)
  | unsent {k rest pc fs} (hpc : pc = .next ∨ pc = .opened) (hf : fails a k = true) :
      Moves F fails s a ⟨k :: rest, pc, fs⟩ (s.set a ⟨rest, .next, k :: fs⟩)
  | sent {k rest fs} (hf : fails a k = false) : Moves F fails s a ⟨k :: rest, .opened, fs⟩
      { s.set a ⟨k :: rest, .waiting, fs⟩ with
        halves := Function.update s.halves k (insert a (s.halves k)) }
  | echoed {k rest fs} (hm : F.ends k ⊆ s.halves k) : Moves F fails s a ⟨k :: rest, .waiting, fs⟩
      (s.set a ⟨k :: rest, .echoed, fs⟩)
  | returned {k rest fs} (fs' : List κ) : Moves F fails s a ⟨k :: rest, .echoed, fs⟩
      (s.set a ⟨rest, .next, fs'⟩)

theorem step_cases {c : Act ι} (h : step F fails s c = some s') :
    ∃ a, Moves F fails s a (s.agents a) s' := by
  cases c with
  | openStream a =>
    simp only [step] at h
    split at h <;> cases h
    rename_i hg
    exact ⟨a, hg ▸ .opened⟩
  | openErr a =>
    simp only [step] at h
    split at h
    · rename_i hg
      split at h <;> cases h
      rename_i hf
      exact ⟨a, hg ▸ .unsent (Or.inl rfl) hf⟩
    · cases h
  | writeResume a =>
    simp only [step] at h
    split at h
    · rename_i hg
      split at h <;> cases h
      rename_i hf
      exact ⟨a, hg ▸ .sent (by simpa using hf)⟩
    · cases h
  | writeErr a =>
    simp only [step] at h
    split at h
    · rename_i hg
      split at h <;> cases h
      rename_i hf
      exact ⟨a, hg ▸ .unsent (Or.inr rfl) hf⟩
    · cases h
  | parseEcho a =>
    simp only [step] at h
    split at h
    · rename_i hg
      split at h <;> cases h
      rename_i hm
      exact ⟨a, hg ▸ .echoed hm⟩
    · cases h
  | swapInner a =>
    simp only [step] at h
    split at h <;> cases h
    rename_i hg
    exact ⟨a, hg ▸ .returned _⟩
  | retransmitErr a =>
    simp only [step] at h
    split at h <;> cases h
    rename_i hg
    exact ⟨a, hg ▸ .returned _⟩

/-! ## The loops as an agenda -/

/-- The streams as meetings of the two agents that share them. -/
def agenda (F : Fleet ι κ) (fails : ι → κ → Bool) : Agenda ι κ where
  order := sends F fails
  parties := F.ends
  nodup a := (F.nodup a).filter _
  invited h := by
    have := F.shared (List.mem_of_mem_filter h)
    simpa [Fleet.ends] using this

/-- The agent has sent its half and `Resume` has not returned. -/
def Agent.waits (g : Agent κ) : Bool :=
  match g.pc with
  | .waiting | .echoed => true
  | .next | .opened => false

/-- An agent is at a meeting from sending its half until `Resume` returns. -/
def view (fails : ι → κ → Bool) (s : World ι κ) : Agenda.State ι κ where
  todo a := (s.agents a).todo.filter fun k => !fails a k
  waiting a := (s.agents a).waits
  arrived := s.halves

omit [DecidableEq κ] in
theorem view_set (a : ι) (g : Agent κ) : view fails (s.set a g) =
    { todo := Function.update (view fails s).todo a (g.todo.filter fun k => !fails a k)
      waiting := Function.update (view fails s).waiting a g.waits
      arrived := s.halves } := by
  simp only [view, World.set_agents, World.set_halves, Agenda.State.mk.injEq, and_true]
  refine ⟨funext fun b => ?_, funext fun b => ?_⟩ <;>
    rcases eq_or_ne b a with rfl | hb <;> simp [*]

omit [DecidableEq κ] in
/-- A step the agenda does not see. -/
theorem view_set_same {a : ι} {g : Agent κ}
    (ht : (g.todo.filter fun k => !fails a k) = (s.agents a).todo.filter fun k => !fails a k)
    (hw : g.waits = (s.agents a).waits) : view fails (s.set a g) = view fails s := by
  rw [view_set, ht, hw]
  simp only [view, Agenda.State.mk.injEq, and_true]
  exact ⟨Function.update_eq_self .., Function.update_eq_self ..⟩

/-- What an agent knows of the stream it has sent its half of. -/
def Staged (F : Fleet ι κ) (fails : ι → κ → Bool) (halves : κ → Finset ι) (a : ι)
    (g : Agent κ) : Prop :=
  match g with
  | ⟨k :: _, .waiting, _⟩ => fails a k = false
  | ⟨k :: _, .echoed, _⟩ => fails a k = false ∧ F.ends k ⊆ halves k
  | _ => True

omit [DecidableEq κ] in
theorem Staged.mono {halves halves' : κ → Finset ι} {a : ι} {g : Agent κ}
    (h : Staged F fails halves a g) (hm : ∀ k, halves k ⊆ halves' k) :
    Staged F fails halves' a g := by
  unfold Staged at h ⊢
  split
  · exact h
  · exact ⟨h.1, h.2.trans (hm _)⟩
  · trivial

omit [DecidableEq κ] in
theorem Staged.set {a : ι} {g : Agent κ} (hi : ∀ a, Staged F fails s.halves a (s.agents a))
    (hg : Staged F fails s.halves a g) (b : ι) :
    Staged F fails s.halves b ((s.set a g).agents b) := by
  rcases eq_or_ne b a with rfl | hb
  · simpa using hg
  · simpa [hb] using hi b

theorem staged_step {c : Act ι} (hi : ∀ a, Staged F fails s.halves a (s.agents a))
    (h : step F fails s c = some s') : ∀ a, Staged F fails s'.halves a (s'.agents a) := by
  obtain ⟨a, hm⟩ := step_cases h
  have ha := hi a
  generalize s.agents a = g at hm ha
  cases hm with
  | opened => exact Staged.set hi trivial
  | unsent _ _ => exact Staged.set hi (by unfold Staged; split <;> simp_all)
  | sent hf =>
    rename_i k rest fs
    intro b
    have hg : Staged F fails s.halves a ⟨k :: rest, .waiting, fs⟩ := hf
    refine Staged.mono (Staged.set hi hg b) fun j => ?_
    rcases eq_or_ne j k with rfl | hj
    · simp
    · simp [hj]
  | echoed hm => exact Staged.set hi ⟨ha, hm⟩
  | returned _ => exact Staged.set hi (by unfold Staged; split <;> simp_all)

theorem staged_reach (h : (machine F fails).Reach s) (a : ι) :
    Staged F fails s.halves a (s.agents a) :=
  Machine.Reach.invariant (I := fun s => ∀ a, Staged F fails s.halves a (s.agents a))
    (fun _ => by unfold Staged; split <;> simp_all [machine])
    (fun _ _ _ hi hs => staged_step hi hs) h a

/-- **The loops refine the agenda**: sending a half is arriving, `Resume`'s return is leaving. -/
theorem machine_refines_agenda :
    (machine F fails).Refines (agenda F fails).machine fun s v => v = view fails s where
  init := rfl
  step s v c s' hs hv hst := by
    subst hv
    obtain ⟨a, hm⟩ := step_cases hst
    have ha := staged_reach hs a
    generalize hg : s.agents a = g at hm ha
    cases hm with
    | opened => exact Or.inl (view_set_same (by rw [hg]) (by rw [hg]; rfl)).symm
    | unsent hpc hf =>
      refine Or.inl (view_set_same ?_ ?_).symm
      · rw [hg, List.filter_cons_of_neg (by simp [hf])]
      · rw [hg]; rcases hpc with rfl | rfl <;> rfl
    | @sent k rest fs hf =>
      have ht : (view fails s).todo a = k :: rest.filter fun k => !fails a k := by
        simp [view, hg, hf]
      have hw : (view fails s).waiting a = false := by simp [view, hg, Agent.waits]
      refine Or.inr ⟨.arrive a, _, Agenda.step_arrive ht hw, ?_⟩
      have hv : view fails (s.set a ⟨k :: rest, .waiting, fs⟩) = _ := view_set a _
      have hself : Function.update (view fails s).todo a ((k :: rest).filter fun k => !fails a k) =
          (view fails s).todo := Function.update_eq_self_iff.mpr (by simp [view, hg])
      rw [hself] at hv
      exact (congrArg (fun v : Agenda.State ι κ =>
        { v with arrived := Function.update s.halves k (insert a (s.halves k)) }) hv).symm
    | echoed hm => exact Or.inl (view_set_same (by rw [hg]) (by rw [hg]; rfl)).symm
    | @returned k rest fs fs' =>
      have ht : (view fails s).todo a = k :: rest.filter fun k => !fails a k := by
        simp [view, hg, ha.1]
      have hw : (view fails s).waiting a = true := by simp [view, hg, Agent.waits]
      refine Or.inr ⟨.leave a, _, Agenda.step_leave ht hw ha.2, ?_⟩
      rw [view_set]
      rfl

/-! ## Deadlocks and termination -/

theorem deadlock_view (h : Deadlock F s) (hr : (machine F fails).Reach s) :
    (agenda F fails).Deadlock (view fails s) := by
  obtain ⟨⟨a, ha⟩, hall⟩ := h
  have hblock : ∀ a, (s.agents a).todo ≠ [] → (agenda F fails).Blocked (view fails s) a := by
    intro a ha
    obtain ⟨hpc, k, rest, ht, hm⟩ := hall a ha
    have hst := staged_reach hr a
    generalize hg : s.agents a = g at hpc ht hst
    obtain ⟨_, _, fs⟩ := g
    dsimp only at hpc ht
    subst hpc ht
    exact ⟨k, rest.filter fun k => !fails a k, by simp [view, hg, show fails a k = false from hst],
      by simp [view, hg, Agent.waits], hm⟩
  refine ⟨⟨a, ?_⟩, fun b hb => hblock b fun h0 => hb (by simp [view, h0])⟩
  obtain ⟨k, rest, ht, -⟩ := hblock a ha
  rw [ht]
  exact List.cons_ne_nil _ _

/-- How much of its loop an agent has left. -/
def Agent.left (g : Agent κ) : ℕ :=
  4 * g.todo.length +
    match g.pc with
    | .next => 3
    | .opened => 2
    | .waiting => 1
    | .echoed => 0

theorem left_lt [Fintype ι] {c : Act ι} (h : step F fails s c = some s') :
    ∑ a, (s'.agents a).left < ∑ a, (s.agents a).left := by
  obtain ⟨a, hm⟩ := step_cases h
  obtain ⟨g, hs', hlt⟩ : ∃ g, s'.agents = Function.update s.agents a g ∧
      g.left < (s.agents a).left := by
    generalize s.agents a = g at hm
    cases hm with
    | opened => exact ⟨_, rfl, by simp [Agent.left]⟩
    | unsent hpc _ =>
      refine ⟨_, rfl, ?_⟩
      rcases hpc with rfl | rfl <;> simp only [Agent.left, List.length_cons] <;> omega
    | sent _ => exact ⟨_, rfl, by simp [Agent.left]⟩
    | echoed _ => exact ⟨_, rfl, by simp [Agent.left]⟩
    | returned _ => exact ⟨_, rfl, by simp only [Agent.left, List.length_cons]; omega⟩
  refine Finset.sum_lt_sum (fun b _ => ?_) ⟨a, Finset.mem_univ a, ?_⟩
  · rw [hs']
    rcases eq_or_ne b a with rfl | hb
    · rw [Function.update_self]; exact hlt.le
    · rw [Function.update_of_ne hb]
  · rw [hs', Function.update_self]
    exact hlt

/-- Where no step is possible, an agent that has not finished is blocked. -/
theorem blocked_of_terminal (h : ∀ c, step F fails s c = none) {a : ι}
    (ha : (s.agents a).todo ≠ []) : Blocked F s a := by
  unfold Blocked
  generalize hg : s.agents a = g at ha
  obtain ⟨_ | ⟨k, rest⟩, pc, fs⟩ := g
  · exact absurd rfl ha
  cases pc with
  | next => exact absurd (h (.openStream a)) (by simp [step, hg])
  | opened =>
    cases hf : fails a k with
    | true => exact absurd (h (.writeErr a)) (by simp [step, hg, hf])
    | false => exact absurd (h (.writeResume a)) (by simp [step, hg, hf])
  | waiting =>
    refine ⟨rfl, k, rest, rfl, fun hm => ?_⟩
    exact absurd (h (.parseEcho a)) (by simp [step, hg, hm])
  | echoed => exact absurd (h (.swapInner a)) (by simp [step, hg])

omit [DecidableEq ι] [DecidableEq κ] in
theorem mem_sends {a : ι} {k : κ} :
    k ∈ sends F fails a ↔ k ∈ F.activeStreams a ∧ fails a k = false := by
  simp [sends]

omit [DecidableEq κ] in
theorem served_agenda_iff : (agenda F fails).Served ↔ SentByBoth F fails := by
  constructor
  · intro h a k hk
    obtain ⟨hc, hp⟩ := F.both hk
    -- a half that one of the two sends is sent by the other
    have hdir : ∀ b, b ∈ F.ends k → k ∈ F.activeStreams b → fails b k = false →
        fails (F.consumer k) k = false ∧ fails (F.provider k) k = false := by
      intro b hb hkb hf
      have hall := h (mem_sends.mpr ⟨hkb, hf⟩)
      exact ⟨(mem_sends.mp (hall _ (by simp [agenda, Fleet.ends]))).2,
        (mem_sends.mp (hall _ (by simp [agenda, Fleet.ends]))).2⟩
    cases hfc : fails (F.consumer k) k with
    | false => rw [(hdir _ (by simp [Fleet.ends]) hc hfc).2]
    | true =>
      cases hfp : fails (F.provider k) k with
      | false => rw [(hdir _ (by simp [Fleet.ends]) hp hfp).1] at hfc; exact hfc.symm
      | true => rfl
  · intro h a k hk b hb
    obtain ⟨hka, hf⟩ := mem_sends.mp hk
    have heq := h a k hka
    obtain ⟨hc, hp⟩ := F.both hka
    have hfc : fails (F.consumer k) k = false := by
      rcases F.shared hka with rfl | rfl
      · exact hf
      · rw [heq]; exact hf
    have hb' : b = F.consumer k ∨ b = F.provider k := by simpa [agenda, Fleet.ends] using hb
    rcases hb' with rfl | rfl
    · exact mem_sends.mpr ⟨hc, hfc⟩
    · exact mem_sends.mpr ⟨hp, heq ▸ hfc⟩

/-- **When the resume phase is deadlock-free.** No reachable state has every unfinished agent
waiting for a half that has not been sent, exactly when each half is sent by both agents that share
the stream or by neither, and the orders in which the agents send are compatible with one. -/
theorem resume_deadlock_free_iff [Fintype ι] (F : Fleet ι κ) (fails : ι → κ → Bool) :
    (∀ s, (machine F fails).Reach s → ¬ Deadlock F s) ↔
      SentByBoth F fails ∧ CommonOrder F fails := by
  constructor
  · intro hfree
    obtain ⟨s, hs, hterm⟩ := Machine.exists_terminal (M := machine F fails)
      (fun s => ∑ a, (s.agents a).left) fun _ _ _ => left_lt
    -- the run ends with every loop finished
    have hdone : ∀ a, (s.agents a).todo = [] := fun a => by
      by_contra ha
      exact hfree s hs ⟨⟨a, ha⟩, fun b hb => blocked_of_terminal hterm hb⟩
    obtain ⟨v, hv, rfl⟩ := machine_refines_agenda.reach hs
    have hview : ∀ a, (view fails s).todo a = [] := fun a => by simp [view, hdone a]
    exact ⟨served_agenda_iff.mp (Agenda.served_of_done hv hview), Agenda.ranked_of_done hv hview⟩
  · rintro ⟨hsent, horder⟩ s hs hd
    obtain ⟨v, hv, rfl⟩ := machine_refines_agenda.reach hs
    exact Agenda.not_deadlock_of_ranked (served_agenda_iff.mpr hsent) horder hv
      (deadlock_view hd hs)

/-- Two agents that share the streams 1 and 2 and list them in opposite orders. -/
def crossed : Fleet (Fin 2) ℕ where
  activeStreams a := if a = 0 then [1, 2] else [2, 1]
  consumer _ := 0
  provider _ := 1
  nodup a := by revert a; decide
  two_ends _ := by decide
  shared {a k} _ := by
    have h : ∀ a : Fin 2, a = 0 ∨ a = 1 := by decide
    exact h a
  both {a k} h := by
    have hk : k = 1 ∨ k = 2 := by
      split at h <;> simp at h <;> omega
    rcases hk with rfl | rfl <;> decide

/-- Each agent sends the half of its first stream; neither is the other's first. -/
theorem crossed_deadlock :
    ∃ s, (machine crossed fun _ _ => false).Reach s ∧ Deadlock crossed s := by
  refine ⟨_, Machine.reach_of_run
    [.openStream 0, .writeResume 0, .openStream 1, .writeResume 1] rfl, ⟨0, by simp [crossed]⟩, ?_⟩
  intro a _
  match a with
  | 0 => exact ⟨rfl, 1, [2], rfl, by decide⟩
  | 1 => exact ⟨rfl, 2, [1], rfl, by decide⟩

end OutRelayAgent.Reconnect
