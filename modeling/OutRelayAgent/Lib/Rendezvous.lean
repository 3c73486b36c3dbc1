import OutRelayAgent.Lib.Machine
import Mathlib.Data.Finset.Insert
import Mathlib.Data.List.Nodup
import Mathlib.Tactic.Common

/-!
# Processes that meet one another, one meeting after the other

Every process attends its meetings in an order of its own. It arrives at a meeting, waits there
until every party of the meeting has arrived, and only then goes on to its next one. The question
is whether the processes can come to wait for each other in a circle.

* `Agenda`: the orders and the parties; `Agenda.machine`: arriving and leaving.
* `Inv`: a process has arrived at the meetings it has left and at the one it waits at, and has
  left only meetings at which everyone had arrived.
* `not_deadlock_of_ranked`: no deadlock when every party of a meeting attends it (`Served`) and the
  meetings have ranks that increase along every process's order (`Ranked`). A process that waits
  for another waits for one that stands at a meeting of lower rank, so there is no circle.
* `served_of_done`, `ranked_of_done`: one run in which everyone finishes is enough for both. The
  rank of a meeting is the moment its last party arrives; read backwards along the run, a meeting
  that fills up is the first open one of each of its parties (`Fits.of_step`).
-/

namespace OutRelayAgent.Lib

variable {ι κ : Type*}

/-- The meetings of each process, in its order, and the parties of each meeting. -/
structure Agenda (ι κ : Type*) where
  order : ι → List κ
  parties : κ → Finset ι
  nodup : ∀ a, (order a).Nodup
  invited : ∀ {a k}, k ∈ order a → a ∈ parties k

namespace Agenda

/-- Every party of a meeting that someone attends attends it. -/
def Served (A : Agenda ι κ) : Prop := ∀ {a k}, k ∈ A.order a → ∀ b ∈ A.parties k, k ∈ A.order b

/-- The orders of all processes are compatible with one. -/
def Ranked (A : Agenda ι κ) : Prop :=
  ∃ rank : κ → ℕ, ∀ a, (A.order a).Pairwise fun j k => rank j < rank k

/-- The meetings a process has still to leave, whether it waits at the first of them, and who has
arrived at each meeting. -/
structure State (ι κ : Type*) where
  todo : ι → List κ
  waiting : ι → Bool
  arrived : κ → Finset ι

inductive Act (ι : Type*)
  | arrive (a : ι)
  | leave (a : ι)

variable [DecidableEq ι] [DecidableEq κ]

def machine (A : Agenda ι κ) : Machine (State ι κ) (Act ι) where
  init := ⟨A.order, fun _ => false, fun _ => ∅⟩
  step v
    | .arrive a =>
      match v.todo a with
      | k :: _ =>
        if v.waiting a = true then none
        else some { v with
          waiting := Function.update v.waiting a true
          arrived := Function.update v.arrived k (insert a (v.arrived k)) }
      | [] => none
    | .leave a =>
      match v.todo a with
      | k :: rest =>
        if v.waiting a = true ∧ A.parties k ⊆ v.arrived k then
          some { v with
            todo := Function.update v.todo a rest
            waiting := Function.update v.waiting a false }
        else none
      | [] => none

variable {A : Agenda ι κ} {v v' : State ι κ} {a : ι} {k : κ} {rest : List κ}

/-- Everyone has arrived. -/
abbrev Full (A : Agenda ι κ) (v : State ι κ) (k : κ) : Prop := A.parties k ⊆ v.arrived k

/-- `a` waits at a meeting a party of which has not arrived. -/
def Blocked (A : Agenda ι κ) (v : State ι κ) (a : ι) : Prop :=
  ∃ k rest, v.todo a = k :: rest ∧ v.waiting a = true ∧ ¬ A.Full v k

/-- Someone has meetings left, and everyone who has is blocked. -/
def Deadlock (A : Agenda ι κ) (v : State ι κ) : Prop :=
  (∃ a, v.todo a ≠ []) ∧ ∀ a, v.todo a ≠ [] → A.Blocked v a

theorem step_arrive (ht : v.todo a = k :: rest) (hw : v.waiting a = false) :
    A.machine.step v (.arrive a) = some { v with
      waiting := Function.update v.waiting a true
      arrived := Function.update v.arrived k (insert a (v.arrived k)) } := by
  simp [machine, ht, hw]

theorem step_leave (ht : v.todo a = k :: rest) (hw : v.waiting a = true) (hf : A.Full v k) :
    A.machine.step v (.leave a) = some { v with
      todo := Function.update v.todo a rest
      waiting := Function.update v.waiting a false } := by
  simp only [machine, ht]
  exact if_pos ⟨hw, hf⟩

/-- What one step can do. -/
theorem step_cases {c : Act ι} (h : A.machine.step v c = some v') :
    (∃ a k rest, v.todo a = k :: rest ∧ v.waiting a = false ∧
      v' = { v with
        waiting := Function.update v.waiting a true
        arrived := Function.update v.arrived k (insert a (v.arrived k)) }) ∨
    (∃ a k rest, v.todo a = k :: rest ∧ v.waiting a = true ∧ A.Full v k ∧
      v' = { v with
        todo := Function.update v.todo a rest
        waiting := Function.update v.waiting a false }) := by
  cases c with
  | arrive a =>
    simp only [machine] at h
    split at h
    · rename_i k rest ht
      split at h
      · cases h
      · rename_i hw
        cases h
        exact Or.inl ⟨a, k, rest, ht, by simpa using hw, rfl⟩
    · cases h
  | leave a =>
    simp only [machine] at h
    split at h
    · rename_i k rest ht
      split at h
      · rename_i hc
        cases h
        exact Or.inr ⟨a, k, rest, ht, hc.1, hc.2, rfl⟩
      · cases h
    · cases h

/-- How the position of a process and its arrivals hang together. -/
structure Inv (A : Agenda ι κ) (v : State ι κ) : Prop where
  suffix : ∀ a, v.todo a <:+ A.order a
  listed : ∀ {a k}, a ∈ v.arrived k → k ∈ A.order a
  standing : ∀ {a k}, k ∈ v.todo a →
    (a ∈ v.arrived k ↔ v.waiting a = true ∧ (v.todo a).head? = some k)
  left : ∀ {a k}, k ∈ A.order a → k ∉ v.todo a → A.Full v k

theorem inv_init : A.Inv A.machine.init where
  suffix _ := List.suffix_rfl
  listed h := absurd h (by simp [machine])
  standing _ := by simp [machine]
  left h hn := absurd h hn

theorem inv_step {c : Act ι} (hi : A.Inv v) (h : A.machine.step v c = some v') : A.Inv v' := by
  rcases step_cases h with ⟨a, k, rest, ht, hw, rfl⟩ | ⟨a, k, rest, ht, hw, hf, rfl⟩
  · have hka : k ∈ v.todo a := ht ▸ List.mem_cons_self
    -- arrivals only grow
    have hmono : ∀ j, v.arrived j ⊆ Function.update v.arrived k (insert a (v.arrived k)) j := by
      intro j
      rcases eq_or_ne j k with rfl | hj
      · rw [Function.update_self]; exact Finset.subset_insert _ _
      · rw [Function.update_of_ne hj]
    refine ⟨hi.suffix, ?_, ?_, fun h1 h2 => (hi.left h1 h2).trans (hmono _)⟩
    · intro b j hb
      dsimp only at hb
      rcases eq_or_ne j k with rfl | hj
      · rw [Function.update_self, Finset.mem_insert] at hb
        rcases hb with rfl | hb
        · exact (hi.suffix b).subset hka
        · exact hi.listed hb
      · rw [Function.update_of_ne hj] at hb
        exact hi.listed hb
    · intro b j hj
      have hs := hi.standing hj
      dsimp only at hj ⊢
      rcases eq_or_ne b a with rfl | hb
      · rw [Function.update_self, ht, List.head?_cons]
        rcases eq_or_ne j k with rfl | hjk
        · simp
        · rw [Function.update_of_ne hjk, hs, hw]
          simp [hjk.symm]
      · rw [Function.update_of_ne hb, ← hs]
        rcases eq_or_ne j k with rfl | hjk
        · simp [hb]
        · rw [Function.update_of_ne hjk]
  · have hnd : (k :: rest).Nodup := ht ▸ (A.nodup a).sublist (hi.suffix a).sublist
    have hk : k ∉ rest := (List.nodup_cons.mp hnd).1
    refine ⟨?_, hi.listed, ?_, ?_⟩
    · intro b
      dsimp only
      rcases eq_or_ne b a with rfl | hb
      · rw [Function.update_self]
        exact (ht ▸ List.suffix_cons k rest).trans (hi.suffix b)
      · rw [Function.update_of_ne hb]
        exact hi.suffix b
    · intro b j hj
      dsimp only at hj ⊢
      rcases eq_or_ne b a with rfl | hb
      · rw [Function.update_self] at hj ⊢
        have hjk : k ≠ j := fun h => hk (h ▸ hj)
        rw [hi.standing (by rw [ht]; exact List.mem_cons_of_mem k hj), ht]
        simp [hjk]
      · rw [Function.update_of_ne hb] at hj
        rw [Function.update_of_ne hb, Function.update_of_ne hb]
        exact hi.standing hj
    · intro b j hj hn
      dsimp only at hn
      rcases eq_or_ne b a with rfl | hb
      · rw [Function.update_self] at hn
        rcases eq_or_ne j k with rfl | hjk
        · exact hf
        · exact hi.left hj (by rw [ht]; simp [hjk, hn])
      · rw [Function.update_of_ne hb] at hn
        exact hi.left hj hn

theorem reach_inv (h : A.machine.Reach v) : A.Inv v :=
  Machine.Reach.invariant inv_init (fun _ _ _ hi hs => inv_step hi hs) h

/-! ## Ranks exclude a circle -/

/-- **No deadlock under a common order.** -/
theorem not_deadlock_of_ranked (hs : A.Served) (hr : A.Ranked) (h : A.machine.Reach v) :
    ¬ A.Deadlock v := by
  have hi := reach_inv h
  obtain ⟨rank, hrank⟩ := hr
  rintro ⟨⟨a, ha⟩, hall⟩
  -- descent on the rank of the meeting a blocked process waits at
  have key : ∀ n a k rest, v.todo a = k :: rest → rank k = n → False := by
    intro n
    induction n using Nat.strongRecOn with
    | _ n ih =>
      intro a k rest ht hn
      obtain ⟨k', rest', ht', -, hfull⟩ := hall a (by rw [ht]; simp)
      rw [ht] at ht'
      obtain ⟨rfl, rfl⟩ := List.cons.inj ht'
      obtain ⟨b, hb, hnb⟩ := Finset.not_subset.mp hfull
      have hka : k ∈ A.order a := (hi.suffix a).subset (ht ▸ List.mem_cons_self)
      have hkb : k ∈ v.todo b := by
        by_contra hn'
        exact hnb (hi.left (hs hka b hb) hn' hb)
      obtain ⟨j, restb, htb, hwb, -⟩ := hall b (List.ne_nil_of_mem hkb)
      have hj : b ∈ v.arrived j :=
        (hi.standing (htb ▸ List.mem_cons_self)).mpr ⟨hwb, by rw [htb, List.head?_cons]⟩
      have hkr : k ∈ restb := by
        rw [htb] at hkb
        exact (List.mem_cons.mp hkb).resolve_left fun h => hnb (h ▸ hj)
      have hp : (j :: restb).Pairwise fun j k => rank j < rank k :=
        htb ▸ (hrank b).sublist (hi.suffix b).sublist
      exact ih (rank j) (hn ▸ (List.pairwise_cons.mp hp).1 k hkr) b j restb htb rfl
  obtain ⟨k, rest, ht, -⟩ := hall a ha
  exact key _ a k rest ht rfl

/-! ## A run that finishes yields ranks -/

theorem served_of_done (h : A.machine.Reach v) (hd : ∀ a, v.todo a = []) : A.Served := by
  intro a k hk b hb
  have hi := reach_inv h
  exact hi.listed (hi.left hk (by rw [hd a]; exact List.not_mem_nil) hb)

/-- The meetings `a` has still to leave and that someone has still to come to. -/
def pending (A : Agenda ι κ) (v : State ι κ) (a : ι) : List κ :=
  (v.todo a).filter fun k => ¬ A.Full v k

/-- What is pending has ranks. -/
def Fits (A : Agenda ι κ) (v : State ι κ) : Prop :=
  ∃ rank : κ → ℕ, ∀ a, (A.pending v a).Pairwise fun j k => rank j < rank k

/-- The ranks with `k` put before everything else. -/
def first (k : κ) (rank : κ → ℕ) (j : κ) : ℕ := if j = k then 0 else rank j + 1

theorem first_lt_first {rank : κ → ℕ} {i j : κ} (hi : i ≠ k) (hj : j ≠ k)
    (h : rank i < rank j) : first k rank i < first k rank j := by
  simp only [first, if_neg hi, if_neg hj]
  omega

theorem first_self_lt {rank : κ → ℕ} {j : κ} (hj : j ≠ k) : first k rank k < first k rank j := by
  simp only [first, if_neg hj, if_pos]
  omega

/-- A meeting that fills up comes first in every party's pending ones. -/
theorem Fits.of_full {w : State ι κ} (hi : A.Inv w) (hf : A.Full w k)
    (htodo : v.todo = w.todo) (hfull : ∀ j, j ≠ k → (A.Full v j ↔ A.Full w j))
    (h : A.Fits w) : A.Fits v := by
  obtain ⟨rank, hrank⟩ := h
  refine ⟨first k rank, fun b => ?_⟩
  have hb := hrank b
  unfold pending at hb ⊢
  rw [htodo]
  -- where `k` does not occur nothing has changed
  have hup : ∀ l : List κ, k ∉ l →
      (l.filter fun j => ¬ A.Full w j).Pairwise (fun i j => rank i < rank j) →
      (l.filter fun j => ¬ A.Full v j).Pairwise fun i j => first k rank i < first k rank j := by
    intro l hl hp
    have hne : ∀ j ∈ l, j ≠ k := fun j hj h => hl (h ▸ hj)
    have heq : (l.filter fun j => ¬ A.Full v j) = l.filter fun j => ¬ A.Full w j := by
      refine List.filter_congr fun j hj => ?_
      rw [decide_eq_decide, hfull j (hne j hj)]
    rw [heq]
    exact hp.imp_of_mem fun hmi hmj hij => first_lt_first (hne _ (List.mem_of_mem_filter hmi))
      (hne _ (List.mem_of_mem_filter hmj)) hij
  by_cases hk : k ∈ w.todo b
  · have hin : b ∈ w.arrived k := hf (A.invited ((hi.suffix b).subset hk))
    obtain ⟨-, hhead⟩ := (hi.standing hk).mp hin
    obtain ⟨rest, ht⟩ : ∃ rest, w.todo b = k :: rest := List.head?_eq_some_iff.mp hhead
    have hnd : (k :: rest).Nodup := ht ▸ (A.nodup b).sublist (hi.suffix b).sublist
    have hkr : k ∉ rest := (List.nodup_cons.mp hnd).1
    rw [ht] at hb ⊢
    have hp := hup rest hkr (hb.sublist ((List.sublist_cons_self k rest).filter _))
    rw [List.filter_cons]
    split
    · refine List.pairwise_cons.mpr ⟨fun j hj => first_self_lt fun h => ?_, hp⟩
      exact hkr (h ▸ List.mem_of_mem_filter hj)
    · exact hp
  · exact hup _ hk hb

/-- Read backwards, a step keeps the ranks. -/
theorem Fits.of_step {c : Act ι} (hi : A.Inv v) (hs : A.machine.step v c = some v')
    (h : A.Fits v') : A.Fits v := by
  have hi' := inv_step hi hs
  rcases step_cases hs with ⟨a, k, rest, ht, -, rfl⟩ | ⟨a, k, rest, ht, -, hf, rfl⟩
  · set w : State ι κ := { v with
      waiting := Function.update v.waiting a true
      arrived := Function.update v.arrived k (insert a (v.arrived k)) } with hw
    have hother : ∀ j, j ≠ k → (A.Full v j ↔ A.Full w j) := by
      intro j hj
      simp only [Full, hw, Function.update_of_ne hj]
    by_cases hf : A.Full w k
    · exact Fits.of_full hi' hf rfl hother h
    · -- the meeting is not full yet: nothing changes
      have hk : ¬ A.Full v k := fun h1 => hf <| h1.trans <| by
        simp only [hw, Function.update_self]; exact Finset.subset_insert _ _
      obtain ⟨rank, hrank⟩ := h
      refine ⟨rank, fun b => ?_⟩
      have heq : A.pending v b = A.pending w b := by
        refine List.filter_congr fun j _ => ?_
        rw [decide_eq_decide]
        rcases eq_or_ne j k with rfl | hj
        · exact not_congr (iff_of_false hk hf)
        · rw [hother j hj]
      rw [heq]
      exact hrank b
  · obtain ⟨rank, hrank⟩ := h
    refine ⟨rank, fun b => ?_⟩
    have heq := hrank b
    unfold pending at heq ⊢
    dsimp only [Full] at heq
    rcases eq_or_ne b a with rfl | hb
    · rw [Function.update_self] at heq
      rw [ht, List.filter_cons_of_neg (by simpa using hf)]
      exact heq
    · rw [Function.update_of_ne hb] at heq
      exact heq

/-- **A run that finishes gives every meeting a rank.** -/
theorem ranked_of_done (h : A.machine.Reach v) (hd : ∀ a, v.todo a = []) : A.Ranked := by
  have hfits : A.machine.Reach A.machine.init → A.Fits A.machine.init := by
    refine Relation.ReflTransGen.head_induction_on
      (motive := fun w _ => A.machine.Reach w → A.Fits w) h ?_ ?_
    · exact fun _ => ⟨fun _ => 0, fun a => by simp [pending, hd a]⟩
    · rintro w w' ⟨c, -, hs⟩ - ih hw
      exact Fits.of_step (reach_inv hw) hs (ih (hw.step hs))
  obtain ⟨rank, hrank⟩ := hfits Machine.ReachWhile.init
  refine ⟨rank, fun a => ?_⟩
  have hall : A.pending A.machine.init a = A.order a := by
    refine List.filter_eq_self.mpr fun k hk => ?_
    have := A.invited hk
    simp only [decide_eq_true_eq]
    exact fun hsub => absurd (hsub this) (Finset.notMem_empty a)
  exact hall ▸ hrank a

end Agenda

end OutRelayAgent.Lib
