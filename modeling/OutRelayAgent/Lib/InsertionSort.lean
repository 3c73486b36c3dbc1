import OutRelayAgent.Lib.Machine
import Mathlib.Data.List.Induction
import Mathlib.Data.List.Pairwise
import Mathlib.Data.List.Perm.Basic
import Mathlib.Order.Lattice

/-!
# Insertion sort by swaps

The two nested loops that sort an array in place, greatest key first: each entry in turn is swapped
down while the one before it has a smaller key. The sort is stable. `Before key S` is the order of
the result, where `S` is the order of the input.

* `sift_append`: where the inner loop leaves an entry.
* `sort_spec`: the result has the same entries, in the order `Before key S`.
* `sort_zipIdx`: the result with the positions its entries come from.
* `filter_sort`: entries with one key stay in their order. `sort_of_sorted`: entries in order stay.
* `sort_eq_flatMap`: the result as the entries of each key, for the keys in descending order.
* `loops_end`: the loops, in which an index out of range is a panic, end without one.
-/

namespace OutRelayAgent.Lib.InsertionSort

variable {α β κ : Type*} [LinearOrder κ] (key : α → κ)

/-- The inner loop, from position `j`. -/
def sift (l : List α) : ℕ → List α
  | 0 => l
  | j + 1 =>
    match l[j]?, l[j + 1]? with
    | some a, some b => if key a < key b then sift ((l.set (j + 1) a).set j b) j else l
    | _, _ => l

/-- The outer loop. -/
def sort (l : List α) : List α := (List.range' 1 (l.length - 1)).foldl (sift key) l

/-- `a` has the greater key, or the keys are equal and `a` was first. -/
def Before (S : α → α → Prop) (a b : α) : Prop := key b < key a ∨ (key a = key b ∧ S a b)

theorem sift_succ {l : List α} {j : ℕ} {a b : α} (ha : l[j]? = some a) (hb : l[j + 1]? = some b) :
    sift key l (j + 1) =
      if key a < key b then sift key ((l.set (j + 1) a).set j b) j else l := by
  rw [sift, ha, hb]

/-- The entry `x` ends up before the last entries with smaller keys. -/
theorem sift_append (pre : List α) (x : α) (post : List α) :
    ∃ l₁ l₂, pre = l₁ ++ l₂ ∧ sift key (pre ++ x :: post) pre.length = l₁ ++ x :: (l₂ ++ post) ∧
      (∀ b ∈ l₂, key b < key x) ∧ ∀ a ∈ l₁.getLast?, key x ≤ key a := by
  induction pre using List.reverseRecOn generalizing post with
  | nil => exact ⟨[], [], rfl, rfl, by simp, by simp⟩
  | append_singleton pre a ih =>
    have ha : ((pre ++ [a]) ++ x :: post)[pre.length]? = some a := by simp
    have hx : ((pre ++ [a]) ++ x :: post)[pre.length + 1]? = some x := by simp
    rw [List.length_append, List.length_singleton, sift_succ key ha hx]
    by_cases hlt : key a < key x
    · have hswap : (((pre ++ [a]) ++ x :: post).set (pre.length + 1) a).set pre.length x =
          pre ++ x :: (a :: post) := by
        simp
      obtain ⟨l₁, l₂, hpre, hsift, hl₂, hl₁⟩ := ih (a :: post)
      refine ⟨l₁, l₂ ++ [a], by rw [hpre, List.append_assoc], ?_, ?_, hl₁⟩
      · rw [if_pos hlt, hswap, hsift]
        simp
      · simpa [or_imp, forall_and, hlt] using hl₂
    · exact ⟨pre ++ [a], [], by simp, by simp [hlt], by simp, by simpa using hlt⟩

variable {key} {S : α → α → Prop}

/-- An entry put at its place among entries in order. -/
theorem pairwise_insert {l₁ l₂ : List α} {x : α} (hpre : (l₁ ++ l₂).Pairwise (Before key S))
    (hS : ∀ a ∈ l₁ ++ l₂, S a x) (hl₂ : ∀ b ∈ l₂, key b < key x)
    (hl₁ : ∀ a ∈ l₁.getLast?, key x ≤ key a) : (l₁ ++ x :: l₂).Pairwise (Before key S) := by
  obtain ⟨h₁, h₂, h₁₂⟩ := List.pairwise_append.mp hpre
  -- The keys decrease along `l₁`, so the last one bounds them all.
  have hge : ∀ a ∈ l₁, key x ≤ key a := by
    intro a ha
    induction l₁ using List.reverseRecOn with
    | nil => cases ha
    | append_singleton l c _ =>
      have hc : key x ≤ key c := hl₁ c (by simp)
      rcases List.mem_append.mp ha with ha | ha
      · rcases (List.pairwise_append.mp h₁).2.2 a ha c List.mem_cons_self with hlt | ⟨heq, -⟩
        · exact hc.trans hlt.le
        · exact heq ▸ hc
      · exact List.mem_singleton.mp ha ▸ hc
  refine List.pairwise_append.mpr ⟨h₁, List.pairwise_cons.mpr ⟨fun b hb => .inl (hl₂ b hb), h₂⟩, ?_⟩
  intro a ha b hb
  rcases List.mem_cons.mp hb with rfl | hb
  · rcases (hge a ha).lt_or_eq with hlt | heq
    · exact .inl hlt
    · exact .inr ⟨heq.symm, hS a (List.mem_append_left _ ha)⟩
  · exact h₁₂ a ha b hb

variable (key)

/-- After `k` rounds the first `k + 1` entries are in order and the others as they were. -/
theorem foldl_sift (l : List α) (hl : l.Pairwise S) :
    ∀ k < l.length, ∃ pre, (List.range' 1 k).foldl (sift key) l = pre ++ l.drop (k + 1) ∧
      pre.Perm (l.take (k + 1)) ∧ pre.Pairwise (Before key S) := by
  intro k
  induction k with
  | zero =>
    intro hk
    refine ⟨l.take 1, (List.take_append_drop 1 l).symm, .refl _, ?_⟩
    cases l <;> simp
  | succ k ih =>
    intro hk
    obtain ⟨pre, hfold, hperm, hpre⟩ := ih (Nat.lt_of_succ_lt hk)
    have hlen : pre.length = 1 + k := by
      rw [hperm.length_eq, List.length_take]
      omega
    have hdrop : l.drop (k + 1) = l[k + 1] :: l.drop (k + 1 + 1) := List.drop_eq_getElem_cons hk
    obtain ⟨l₁, l₂, rfl, hsift, hl₂, hl₁⟩ := sift_append key pre l[k + 1] (l.drop (k + 1 + 1))
    rw [hlen] at hsift
    have hS : ∀ a ∈ l₁ ++ l₂, S a l[k + 1] := by
      intro a ha
      have hsplit := hl
      rw [← List.take_append_drop (k + 1) l, hdrop] at hsplit
      exact (List.pairwise_append.mp hsplit).2.2 a (hperm.mem_iff.mp ha) _ List.mem_cons_self
    refine ⟨l₁ ++ l[k + 1] :: l₂, ?_, ?_, pairwise_insert hpre hS hl₂ hl₁⟩
    · rw [List.range'_1_concat, List.foldl_append, hfold, hdrop, List.foldl_cons, List.foldl_nil,
        hsift]
      simp
    · rw [List.take_add_one, List.getElem?_eq_getElem hk]
      exact List.perm_middle.trans ((hperm.cons _).trans (List.perm_append_singleton _ _).symm)

theorem sort_spec (l : List α) (hl : l.Pairwise S) :
    (sort key l).Perm l ∧ (sort key l).Pairwise (Before key S) := by
  rcases l with _ | ⟨a, l⟩
  · simp [sort]
  · obtain ⟨pre, hfold, hperm, hpre⟩ := foldl_sift key (a :: l) hl l.length (by simp)
    have hsort : sort key (a :: l) = pre := by
      rw [sort, List.length_cons, Nat.add_sub_cancel, hfold]
      simp
    rw [hsort]
    exact ⟨by simpa using hperm, hpre⟩

/-! ### Entries with more than is sorted by -/

theorem sift_map (f : β → α) (l : List β) (j : ℕ) :
    (sift (key ∘ f) l j).map f = sift key (l.map f) j := by
  induction j generalizing l with
  | zero => rfl
  | succ j ih =>
    rw [sift, sift, List.getElem?_map, List.getElem?_map]
    cases l[j]? with
    | none => rfl
    | some a =>
      cases l[j + 1]? with
      | none => rfl
      | some b =>
        by_cases hlt : key (f a) < key (f b)
        · simp only [Function.comp_apply, hlt, if_true, Option.map_some]
          rw [ih, List.map_set, List.map_set]
        · simp [hlt]

theorem sort_map (f : β → α) (l : List β) : (sort (key ∘ f) l).map f = sort key (l.map f) := by
  have hfold : ∀ (is : List ℕ) (l : List β),
      (is.foldl (sift (key ∘ f)) l).map f = is.foldl (sift key) (l.map f) := by
    intro is
    induction is with
    | nil => exact fun _ => rfl
    | cons i is ih => exact fun l => by rw [List.foldl_cons, List.foldl_cons, ih, sift_map key]
  rw [sort, sort, hfold, List.length_map]

/-- **The sort is stable.** Its result, with the positions its entries come from, is in order. -/
theorem sort_zipIdx (l : List α) :
    ∃ t : List (α × ℕ), t.map Prod.fst = sort key l ∧ t.Perm l.zipIdx ∧
      t.Pairwise fun x y => key y.1 < key x.1 ∨ (key x.1 = key y.1 ∧ x.2 < y.2) := by
  have hidx : l.zipIdx.Pairwise fun x y => x.2 < y.2 := by
    have h := List.pairwise_lt_range' (s := 0) (n := l.length)
    rw [← List.zipIdx_map_snd] at h
    exact List.pairwise_map.mp h
  obtain ⟨hperm, hsorted⟩ := sort_spec (key ∘ Prod.fst) l.zipIdx hidx
  refine ⟨sort (key ∘ Prod.fst) l.zipIdx, ?_, hperm, hsorted⟩
  rw [sort_map key, List.zipIdx_map_fst]

/-! ### Entries that stay in their order -/

theorem filter_sort (l : List α) (k : κ) :
    (sort key l).filter (key · = k) = l.filter (key · = k) := by
  obtain ⟨t, ht, hperm, hsorted⟩ := sort_zipIdx key l
  -- With their positions the entries of one key are increasing on both sides.
  have hleft : (t.filter (key ·.1 = k)).Pairwise fun x y => x.2 < y.2 := by
    refine (hsorted.filter _).imp_of_mem ?_
    intro x y hx hy hxy
    have hxk := of_decide_eq_true (List.mem_filter.mp hx).2
    have hyk := of_decide_eq_true (List.mem_filter.mp hy).2
    rcases hxy with hlt | ⟨-, hlt⟩
    · exact absurd (hyk.trans hxk.symm) (ne_of_lt hlt)
    · exact hlt
  have hright : (l.zipIdx.filter (key ·.1 = k)).Pairwise fun x y => x.2 < y.2 := by
    have h := List.pairwise_lt_range' (s := 0) (n := l.length)
    rw [← List.zipIdx_map_snd] at h
    exact (List.pairwise_map.mp h).filter _
  have heq : t.filter (key ·.1 = k) = l.zipIdx.filter (key ·.1 = k) :=
    List.Perm.eq_of_pairwise (fun x y _ _ hxy hyx => absurd hyx (Nat.lt_asymm hxy)) hleft hright
      (hperm.filter _)
  have hmap : ∀ s : List (α × ℕ),
      (s.map Prod.fst).filter (key · = k) = (s.filter (key ·.1 = k)).map Prod.fst :=
    fun s => List.filter_map
  rw [← ht, hmap, heq, ← hmap, List.zipIdx_map_fst]

theorem sift_of_sorted {l : List α} (hl : l.Pairwise fun a b => key b ≤ key a) (j : ℕ) :
    sift key l j = l := by
  cases j with
  | zero => rfl
  | succ j =>
    rw [sift]
    split
    · rename_i a b ha hb
      obtain ⟨hj, rfl⟩ := List.getElem?_eq_some_iff.mp ha
      obtain ⟨hj', rfl⟩ := List.getElem?_eq_some_iff.mp hb
      exact if_neg (not_lt_of_ge (List.pairwise_iff_getElem.mp hl _ _ hj hj' (Nat.lt_succ_self j)))
    · rfl

theorem sort_of_sorted {l : List α} (hl : l.Pairwise fun a b => key b ≤ key a) :
    sort key l = l := by
  have hfold : ∀ is : List ℕ, is.foldl (sift key) l = l := by
    intro is
    induction is with
    | nil => rfl
    | cons i is ih => rw [List.foldl_cons, sift_of_sorted key hl, ih]
  exact hfold _

/-! ### The result, key by key -/

/-- Entries in order are determined by the entries of each key. -/
theorem eq_of_filter_eq {l₁ l₂ : List α} (h₁ : l₁.Pairwise fun a b => key b ≤ key a)
    (h₂ : l₂.Pairwise fun a b => key b ≤ key a)
    (h : ∀ k, l₁.filter (key · = k) = l₂.filter (key · = k)) : l₁ = l₂ := by
  have hmem : ∀ x, x ∈ l₁ ↔ x ∈ l₂ := fun x => by
    have hx := congrArg (x ∈ ·) (h (key x))
    simpa using hx
  induction l₁ generalizing l₂ with
  | nil =>
    cases l₂ with
    | nil => rfl
    | cons b l₂ => exact absurd ((hmem b).mpr List.mem_cons_self) List.not_mem_nil
  | cons a l₁ ih =>
    cases l₂ with
    | nil => exact absurd ((hmem a).mp List.mem_cons_self) List.not_mem_nil
    | cons b l₂ =>
      rw [List.pairwise_cons] at h₁ h₂
      -- The first entry on each side has the greatest key there is.
      have hkey : key a = key b := by
        apply le_antisymm
        · rcases List.mem_cons.mp ((hmem a).mp List.mem_cons_self) with hab | hab
          · exact le_of_eq (congrArg key hab)
          · exact h₂.1 a hab
        · rcases List.mem_cons.mp ((hmem b).mpr List.mem_cons_self) with hab | hab
          · exact le_of_eq (congrArg key hab)
          · exact h₁.1 b hab
      have hhead : a = b := by
        have hk := h (key a)
        rw [List.filter_cons_of_pos (by simp), List.filter_cons_of_pos (by simp [hkey])] at hk
        exact (List.cons.inj hk).1
      subst hhead
      have htail : ∀ k, l₁.filter (key · = k) = l₂.filter (key · = k) := fun k => by
        have hk := h k
        by_cases hak : key a = k
        · rw [List.filter_cons_of_pos (by simpa using hak),
            List.filter_cons_of_pos (by simpa using hak)] at hk
          exact (List.cons.inj hk).2
        · rwa [List.filter_cons_of_neg (by simpa using hak),
            List.filter_cons_of_neg (by simpa using hak)] at hk
      rw [ih h₁.2 h₂.2 htail fun x => ?_]
      have hx := congrArg (x ∈ ·) (htail (key x))
      simpa using hx

/-- The entries of each key, for the keys in descending order. -/
theorem filter_flatMap_filter (l : List α) (k : κ) {ks : List κ}
    (hks : ks.Pairwise fun a b => b < a) :
    (ks.flatMap fun k' => l.filter (key · = k')).filter (key · = k) =
      if k ∈ ks then l.filter (key · = k) else [] := by
  have hone : ∀ k', (l.filter (key · = k')).filter (key · = k) =
      if k' = k then l.filter (key · = k) else [] := fun k' => by
    rw [List.filter_filter]
    by_cases hk : k' = k
    · subst hk
      simp
    · rw [if_neg hk, List.filter_eq_nil_iff]
      rintro x - hx
      simp only [Bool.and_eq_true, decide_eq_true_eq] at hx
      exact hk (hx.2.symm.trans hx.1)
  induction ks with
  | nil => rfl
  | cons k' ks ih =>
    rw [List.pairwise_cons] at hks
    rw [List.flatMap_cons, List.filter_append, hone, ih hks.2]
    by_cases hk : k' = k
    · subst hk
      have hnot : k' ∉ ks := fun hmem => lt_irrefl _ (hks.1 k' hmem)
      simp [hnot]
    · simp [hk, Ne.symm hk]

/-- **The result, class by class**, when the keys are known. -/
theorem sort_eq_flatMap (l : List α) {ks : List κ} (hks : ks.Pairwise fun a b => b < a)
    (hl : ∀ x ∈ l, key x ∈ ks) :
    sort key l = ks.flatMap fun k => l.filter (key · = k) := by
  obtain ⟨t, ht, -, hsorted⟩ := sort_zipIdx key l
  have hleft : (sort key l).Pairwise fun a b => key b ≤ key a := by
    rw [← ht, List.pairwise_map]
    exact hsorted.imp fun h => h.elim le_of_lt fun h => le_of_eq h.1.symm
  have hright : (ks.flatMap fun k => l.filter (key · = k)).Pairwise fun a b => key b ≤ key a := by
    rw [List.pairwise_flatMap]
    refine ⟨fun k _ => ?_, hks.imp fun {k k'} hlt x hx y hy => ?_⟩
    · refine List.Pairwise.imp_of_mem ?_ (List.pairwise_of_forall_mem_list fun _ _ _ _ => trivial)
      intro x y hx hy _
      rw [of_decide_eq_true (List.mem_filter.mp hx).2, of_decide_eq_true (List.mem_filter.mp hy).2]
    · rw [of_decide_eq_true (List.mem_filter.mp hx).2, of_decide_eq_true (List.mem_filter.mp hy).2]
      exact le_of_lt hlt
  refine eq_of_filter_eq key hleft hright fun k => ?_
  rw [filter_sort, filter_flatMap_filter key l k hks]
  by_cases hk : k ∈ ks
  · rw [if_pos hk]
  · rw [if_neg hk, List.filter_eq_nil_iff]
    intro x hx hkey
    exact hk (of_decide_eq_true hkey ▸ hl x hx)

/-! ### The loops step by step -/

/-- Where the two loops stand. -/
inductive Loop (α : Type*)
  /-- Before `i < len(out)`. -/
  | outer (i : ℕ) (out : List α)
  /-- Before `j > 0 && key(out[j]) > key(out[j-1])`. -/
  | inner (i j : ℕ) (out : List α)
  | returned (out : List α)
  /-- An index was out of range. -/
  | panicked

def next : Loop α → Option (Loop α)
  | .outer i out => if i < out.length then some (.inner i i out) else some (.returned out)
  | .inner i j out =>
    if 0 < j then
      match out[j]?, out[j - 1]? with
      | some b, some a =>
        if key a < key b then some (.inner i (j - 1) ((out.set j a).set (j - 1) b))
        else some (.outer (i + 1) out)
      | _, _ => some .panicked
    else some (.outer (i + 1) out)
  | .returned _ => none
  | .panicked => none

def loops (l : List α) : Machine (Loop α) Unit where
  init := .outer 1 l
  step s _ := next key s

theorem length_sift (l : List α) (j : ℕ) : (sift key l j).length = l.length := by
  induction j generalizing l with
  | zero => rfl
  | succ j ih =>
    rw [sift]
    split
    · split
      · rw [ih, List.length_set, List.length_set]
      · rfl
    · rfl

variable {key} {l₀ : List α}

theorem loops_step {s s' : Loop α} (h : next key s = some s') : (loops key l₀).ReachFrom s s' :=
  Relation.ReflTransGen.single ⟨(), trivial, h⟩

/-- The inner loop ends, and has moved the entry at `j`. -/
theorem inner_ends (i j : ℕ) (out : List α) (hj : j < out.length) :
    (loops key l₀).ReachFrom (.inner i j out) (.outer (i + 1) (sift key out j)) := by
  induction j generalizing out with
  | zero => exact loops_step rfl
  | succ j ih =>
    have ha := List.getElem?_eq_getElem (Nat.lt_of_succ_lt hj)
    have hb := List.getElem?_eq_getElem hj
    rw [sift_succ key ha hb]
    by_cases hlt : key out[j] < key out[j + 1]
    · rw [if_pos hlt]
      refine Relation.ReflTransGen.trans (loops_step ?_) (ih _ ?_)
      · simp [next, ha, hb, hlt]
      · simpa using Nat.lt_of_succ_lt hj
    · rw [if_neg hlt]
      exact loops_step (by simp [next, ha, hb, hlt])

/-- The outer loop ends after the `k` rounds that are left. -/
theorem outer_ends (k i : ℕ) (out : List α) (hk : k = out.length - i) :
    (loops key l₀).ReachFrom (.outer i out)
      (.returned ((List.range' i k).foldl (sift key) out)) := by
  induction k generalizing i out with
  | zero => exact loops_step (if_neg (by omega))
  | succ k ih =>
    have hi : i < out.length := by omega
    have hround : (loops key l₀).ReachFrom (.outer i out) (.outer (i + 1) (sift key out i)) :=
      Relation.ReflTransGen.trans (loops_step (if_pos hi)) (inner_ends i i out hi)
    rw [List.range'_succ, List.foldl_cons]
    refine Relation.ReflTransGen.trans hround (ih (i + 1) _ ?_)
    rw [length_sift]
    omega

variable (key)

theorem loops_returned (l : List α) : (loops key l).Reach (.returned (sort key l)) :=
  outer_ends _ 1 l rfl

/-- **The loops end**, with the sorted list and without a panic. -/
theorem loops_end (l : List α) :
    (∃ n, ∀ as s, (loops key l).run (loops key l).init as = some s → as.length ≤ n) ∧
      ∀ s, (loops key l).Reach s →
        s ≠ .panicked ∧ (next key s = none → s = .returned (sort key l)) := by
  have hstop : ∀ s, (loops key l).Reach s → next key s = none → s = .returned (sort key l) := by
    intro s hs hnone
    have hend := Machine.reachFrom_terminal (fun _ _ _ => rfl) hs (loops_returned key l)
      fun _ => rfl
    rcases Relation.ReflTransGen.cases_head hend with heq | ⟨s', ⟨_, -, hs'⟩, -⟩
    · exact heq
    · exact absurd (hnone.symm.trans hs') (Option.some_ne_none s').symm
  constructor
  · obtain ⟨bs, hbs⟩ := Machine.exists_run (loops_returned key l)
    exact ⟨bs.length, fun as s hs =>
      Machine.run_length_le_terminal (fun _ _ _ => rfl) (fun _ => rfl) bs hbs hs⟩
  · intro s hs
    refine ⟨?_, hstop s hs⟩
    rintro rfl
    cases hstop _ hs rfl

end OutRelayAgent.Lib.InsertionSort
