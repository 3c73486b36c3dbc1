import OutRelayAgent.Session.Model
import Mathlib.Data.Set.Operations

/-!
# Who can take the entries of a dialled stream

`Dial` checks that an id is not active (`freshStreamID`), then installs a mode waiter for it, then
enters the wrapper; each is a lock section of its own, and the provider side uses the same two
tables with the ids the peer chose (`session.go:324-396`, `session.go:930-949`,
`promote.go:289-299`).

* `dial_entries_kept`: when `NewStreamID` never returns an id that another `Dial` in progress holds
  (`drawsApart`), the `s.streams` entry of a wrapper that `Dial` created is replaced by no call of
  `Dial`, however they interleave, only by `handleIncoming` wrapping a stream with the same id; its
  `pendingMode` entry, which is there before the wrapper is, only by `handleIncoming` registering a
  waiter for the same id. An id of a wrapper that is still entered may be drawn again:
  `freshStreamID` turns it down.
* `selfDial_replaces`: that does happen. An agent dials a service it provides itself, the relay
  hands the id back to it, and both entries change hands.

The invariants are about the calls of `NewStreamID`. The one a `Dial` in progress holds is held by
no other goroutine and by no wrapper yet (`Holding`, `Apart`); and once it has been checked, what is
entered under its id is a wrapper of `handleIncoming` (`Kept`), although the check and the insertion
are lock sections of their own.
-/

namespace OutRelayAgent.Session

open Lib

variable {ID : Type}

/-- The call of `NewStreamID` whose id a `Dial` in progress holds. -/
def Task.call : Task ID → Option ℕ
  | .dialNamed _ k | .dialFresh _ k | .dialEnabled _ k | .dialReady _ k _ | .dialSent _ k => some k
  | _ => none

/-- The same, once `freshStreamID` has found no entry under that id. -/
def Task.checked : Task ID → Option ℕ
  | .dialFresh _ k | .dialEnabled _ k | .dialReady _ k _ | .dialSent _ k => some k
  | _ => none

theorem Task.call_of_checked {t : Task ID} {k : ℕ} (h : t.checked = some k) : t.call = some k := by
  cases t <;> first | exact h | cases h

/-- A wrapper that `Dial` created has the id its call returned. -/
def Issued (gen : ℕ → ID) (s : Shared ID) : Prop :=
  ∀ v k, v < s.nextWrap → (s.wraps v).dialed = some k → k < s.generated ∧ (s.wraps v).id = gen k

/-- No wrapper has the call a goroutine holds. -/
def Holding (s : Shared ID) (t : Task ID) : Prop :=
  ∀ k ∈ t.call, k < s.generated ∧ ∀ v, v < s.nextWrap → (s.wraps v).dialed ≠ some k

/-- Two goroutines do not hold the same call. -/
def Apart (t u : Task ID) : Prop := ∀ k ∈ t.call, u.call ≠ some k

variable [DecidableEq ID] {gen : ℕ → ID} {s : Shared ID} {t t' u : Task ID} {e : Effect ID}

/-! ## What a step does with the calls -/

theorem moves_call (hm : Moves gen s t t' e) :
    t'.call = none ∨ t'.call = t.call ∨
      (t'.call = some s.generated ∧ e = .newStreamID ∧ ∃ st, t = .dialOpened st) := by
  cases hm with
  | incomingWraps =>
    rename_i ena
    cases ena <;> exact .inl rfl
  | notRegistered =>
    rename_i w
    cases w <;> exact .inl rfl
  | modeKnown =>
    rename_i w
    cases w <;> exact .inl rfl
  | newStreamID => exact .inr (.inr ⟨rfl, rfl, _, rfl⟩)
  | _ => simp [Task.call]

/-- An id counts as checked when there was no entry under it. -/
theorem moves_checked {k : ℕ} (hm : Moves gen s t t' e) (hk : t'.checked = some k) :
    t.checked = some k ∨ (s.streams.lookup (gen k) = none ∧ e = .nothing) := by
  cases hm with
  | idFresh hfree =>
    cases hk
    exact .inr ⟨hfree, rfl⟩
  | incomingWraps =>
    rename_i ena
    cases ena <;> cases hk
  | notRegistered =>
    rename_i w
    cases w <;> cases hk
  | modeKnown =>
    rename_i w
    cases w <;> cases hk
  | dialWaits | dialSplices | dialRegisters | openStreamSent => exact .inl hk
  | _ => cases hk

/-- `wrapStream` is called by `handleIncoming`, and by `Dial` with the id it holds. -/
theorem moves_wrapStream {id : ID} {st : TStream} {d : Option ℕ}
    (hm : Moves gen s t t' (.wrapStream id st d)) :
    (d = none ∧ ∃ ena, t = .incomingAccepted st id ena) ∨
      ∃ k, d = some k ∧ id = gen k ∧ t.checked = some k ∧ t'.call = none := by
  generalize he : Effect.wrapStream id st d = e at hm
  cases hm with
  | dialWraps =>
    cases he
    exact .inr ⟨_, rfl, rfl, rfl, rfl⟩
  | incomingWraps =>
    cases he
    exact .inl ⟨rfl, _, rfl⟩
  | openStreamFailed => rename_i ena; cases ena <;> cases he
  | acceptFailed => rename_i ena; cases ena <;> cases he
  | closeFound => rename_i found; cases found <;> cases he
  | dropFound => rename_i found; cases found <;> cases he
  | _ => cases he

/-- `RegisterStreamModeWaiter` is called by `handleIncoming`, and by `Dial` with the id it
holds. -/
theorem moves_register {id : ID} (hm : Moves gen s t t' (.registerStreamModeWaiter id)) :
    (∃ st, t = .incomingEnabled st id) ∨ ∃ k, id = gen k ∧ t.checked = some k := by
  generalize he : Effect.registerStreamModeWaiter id = e at hm
  cases hm with
  | dialRegisters =>
    cases he
    exact .inr ⟨_, rfl, rfl⟩
  | incomingRegisters =>
    cases he
    exact .inl ⟨_, rfl⟩
  | openStreamFailed => rename_i ena; cases ena <;> cases he
  | acceptFailed => rename_i ena; cases ena <;> cases he
  | closeFound => rename_i found; cases found <;> cases he
  | dropFound => rename_i found; cases found <;> cases he
  | _ => cases he

theorem effect_generated_le (e : Effect ID) (s : Shared ID) :
    s.generated ≤ (effect e s).generated := by
  cases e <;> simp [effect, Shared.setWrap]

/-! ## The invariant -/

theorem issued_step (hG : Issued gen s) (hJ : Holding s t) (hm : Moves gen s t t' e) :
    Issued gen (effect e s) := by
  intro v k hv hk
  have hle := effect_generated_le e s
  rcases effect_wraps_new e hv with hlt | ⟨id, st, d, rfl, hw⟩
  · rw [effect_wraps_dialed e hlt] at hk
    obtain ⟨hgen, hid⟩ := hG v k hlt hk
    exact ⟨lt_of_lt_of_le hgen hle, (effect_wraps_id e hlt).trans hid⟩
  · -- The wrapper is new: `Dial` made it, from the call it held.
    rw [hw] at hk ⊢
    obtain rfl : d = some k := hk
    rcases moves_wrapStream hm with ⟨hd, -⟩ | ⟨k', hd, hid, hcall, -⟩
    · cases hd
    · cases hd
      exact ⟨lt_of_lt_of_le (hJ k (Task.call_of_checked hcall)).1 hle, hid⟩

/-- A goroutine's own step: it keeps the call it holds, or draws a new one. -/
theorem holding_step (hG : Issued gen s) (hJ : Holding s t) (hm : Moves gen s t t' e) :
    Holding (effect e s) t' := by
  intro k hk
  rcases moves_call hm with hc | hc | ⟨hc, rfl, -⟩
  · simp [hc] at hk
  · rw [hc] at hk
    obtain ⟨hlt, hfree⟩ := hJ k hk
    refine ⟨lt_of_lt_of_le hlt (effect_generated_le e s), fun v hv hd => ?_⟩
    rcases effect_wraps_new e hv with hold | ⟨id, st, d, rfl, hw⟩
    · exact hfree v hold (effect_wraps_dialed e hold ▸ hd)
    · rcases moves_wrapStream hm with ⟨rfl, -⟩ | ⟨k', rfl, -, -, hnone⟩
      · simp [hw] at hd
      · rw [hc] at hnone
        simp [hnone] at hk
  · obtain rfl : s.generated = k := by simpa [hc] using hk
    refine ⟨Nat.lt_succ_self _, fun v hv hd => ?_⟩
    exact absurd (hG v _ hv hd).1 (lt_irrefl _)

/-- Another goroutine's call stays free: the step's wrapper, if it makes one, has its own call. -/
theorem holding_other (hu : Holding s u) (hK : Apart t u) (hm : Moves gen s t t' e) :
    Holding (effect e s) u := by
  intro k hk
  obtain ⟨hlt, hfree⟩ := hu k hk
  refine ⟨lt_of_lt_of_le hlt (effect_generated_le e s), fun v hv hd => ?_⟩
  rcases effect_wraps_new e hv with hold | ⟨id, st, d, rfl, hw⟩
  · exact hfree v hold (effect_wraps_dialed e hold ▸ hd)
  · rcases moves_wrapStream hm with ⟨rfl, -⟩ | ⟨k', rfl, -, hcall, -⟩
    · simp [hw] at hd
    · obtain rfl : k' = k := by simpa [hw] using hd
      exact hK k' (Task.call_of_checked hcall) hk

theorem apart_step (hu : Holding s u) (hK : Apart t u) (hm : Moves gen s t t' e) :
    Apart t' u ∧ Apart u t' := by
  have hsep : ∀ k, t'.call = some k → u.call = some k → False := by
    intro k hk huk
    rcases moves_call hm with hc | hc | ⟨hc, -⟩
    · simp [hc] at hk
    · exact hK k (hc ▸ hk) huk
    · obtain rfl : s.generated = k := by simpa [hc] using hk
      exact absurd (hu _ huk).1 (lt_irrefl _)
  exact ⟨fun k hk huk => hsep k hk huk, fun k hk htk => hsep k htk hk⟩

omit [DecidableEq ID] in
theorem entry_call (h : entry s t = true) : t.call = none := by
  cases t <;> first | rfl | cases h

theorem dial_sound [Inhabited ID] :
    (program gen).Sound initial (fun _ _ _ => true) (Issued gen) Holding Apart where
  init := by
    intro v k hv
    exact absurd hv (Nat.not_lt_zero v)
  idle := by simp [Holding, Apart, program, Task.call]
  start := by
    intro s t _ he k hk
    simp [entry_call he] at hk
  start_other := by
    intro s t u he _
    simp [Apart, entry_call he]
  step := by
    intro s t c t' e hG hJ _ hn
    have hm := next_moves hn
    exact ⟨issued_step hG hJ hm, holding_step hG hJ hm⟩
  other := by
    intro s t u c t' e _ _ hu hK _ hn
    have hm := next_moves hn
    exact ⟨holding_other hu hK hm, apart_step hu hK hm⟩

/-! ## The entries -/

/-- An entry of `s.streams` was there before, or `wrapStream` has just made it. -/
theorem lookup_cases {id : ID} {v : Ref} (hkey : Keyed s)
    (hv : (effect e s).streams.lookup id = some v) :
    (s.streams.lookup id = some v ∧ ((effect e s).wraps v).dialed = (s.wraps v).dialed) ∨
      ∃ st d, e = .wrapStream id st d ∧ ((effect e s).wraps v).dialed = d := by
  have hold (h : s.streams.lookup id = some v) :
      s.streams.lookup id = some v ∧ ((effect e s).wraps v).dialed = (s.wraps v).dialed :=
    ⟨h, effect_wraps_dialed e (hkey id v h).1⟩
  cases e with
  | wrapStream id' st d =>
    rcases lookup_insert_eq_some.mp hv with ⟨rfl, rfl⟩ | ⟨-, h⟩
    · exact .inr ⟨st, d, rfl, by simp [effect, Shared.setWrap]⟩
    · exact .inl (hold h)
  | forget id' => exact .inl (hold (lookup_erase_eq_some.mp hv).2)
  | _ => exact .inl (hold hv)

/-- An entry of `s.pendingMode` is replaced only by `RegisterStreamModeWaiter` for its id. -/
theorem pendingMode_replaced {id : ID} {ch ch' : ℕ} (hch : s.pendingMode.lookup id = some ch)
    (hch' : (effect e s).pendingMode.lookup id = some ch') (hne : ch' ≠ ch) :
    e = .registerStreamModeWaiter id := by
  cases e with
  | registerStreamModeWaiter id' =>
    rcases lookup_insert_eq_some.mp hch' with ⟨rfl, -⟩ | ⟨-, hold⟩
    · rfl
    · exact absurd (Option.some.inj (hold.symm.trans hch)) hne
  | cancelStreamModeWaiter id' =>
    obtain ⟨-, hold⟩ := lookup_erase_eq_some.mp hch'
    exact absurd (Option.some.inj (hold.symm.trans hch)) hne
  | _ => simp_all [effect, Shared.setWrap]

variable {p p' : Program.Pool (Shared ID) (Task ID)} {i : ℕ}

/-- `NewStreamID` does not return an id that another `Dial` in progress holds. -/
def drawsApart (gen : ℕ → ID) (p : Program.Pool (Shared ID) (Task ID)) :
    Program.Act (Task ID) Choice → Prop
  | .start _ => True
  | .run i _ => ∀ st, p.threads i = .dialOpened st →
      ∀ j k, (p.threads j).call = some k → gen k ≠ gen p.shared.generated

/-- `Dial`s in progress hold different ids, and no wrapper that `Dial` created is entered under an
id that has been checked. -/
structure Kept (gen : ℕ → ID) (p : Program.Pool (Shared ID) (Task ID)) : Prop where
  apart : ∀ i j k k', i ≠ j → (p.threads i).call = some k → (p.threads j).call = some k' →
    gen k ≠ gen k'
  fresh : ∀ i k v, (p.threads i).checked = some k → p.shared.streams.lookup (gen k) = some v →
    (p.shared.wraps v).dialed = none

theorem kept_start {n : ℕ} (h : Kept gen p) (ht : t.call = none) :
    Kept gen { p with threads := Function.update p.threads i t, count := n } := by
  have hcall {j k : ℕ} (hj : (Function.update p.threads i t j).call = some k) :
      (p.threads j).call = some k := by
    rcases eq_or_ne j i with rfl | hne
    · simp [ht] at hj
    · simpa [hne] using hj
  have hchecked {j k : ℕ} (hj : (Function.update p.threads i t j).checked = some k) :
      (p.threads j).checked = some k := by
    rcases eq_or_ne j i with rfl | hne
    · have hk := Task.call_of_checked hj
      simp [ht] at hk
    · simpa [hne] using hj
  exact ⟨fun a b k k' hab ha hb => h.apart a b k k' hab (hcall ha) (hcall hb),
    fun j k v hj hv => h.fresh j k v (hchecked hj) hv⟩

/-- What the goroutine that moves holds afterwards differs from what the others hold. -/
theorem kept_apart {c : Choice} {j k k' : ℕ} (h : Kept gen p) (hne : i ≠ j)
    (hC : drawsApart gen p (.run i c)) (hm : Moves gen p.shared (p.threads i) t' e)
    (hk : t'.call = some k) (hk' : (p.threads j).call = some k') : gen k ≠ gen k' := by
  rcases moves_call hm with hc | hc | ⟨hc, -, st, hst⟩
  · simp [hc] at hk
  · exact h.apart i j k k' hne (hc ▸ hk) hk'
  · obtain rfl : p.shared.generated = k := by simpa [hc] using hk
    exact (hC st hst j k' hk').symm

/-- The entry under a checked id: `freshStreamID` has found none, and no other `Dial` makes one. -/
theorem kept_fresh {j k : ℕ} {v : Ref} (h : Kept gen p) (hkey : Keyed p.shared)
    (hm : Moves gen p.shared (p.threads i) t' e)
    (hk : (Function.update p.threads i t' j).checked = some k)
    (hv : (effect e p.shared).streams.lookup (gen k) = some v) :
    ((effect e p.shared).wraps v).dialed = none := by
  have hbefore : (p.threads j).checked = some k ∨
      (p.shared.streams.lookup (gen k) = none ∧ e = .nothing) := by
    rcases eq_or_ne j i with rfl | hne
    · exact moves_checked hm (by simpa using hk)
    · exact .inl (by simpa [hne] using hk)
  rcases hbefore with hj | ⟨hnone, rfl⟩
  · rcases lookup_cases hkey hv with ⟨hold, hd⟩ | ⟨st, d, rfl, hd⟩
    · exact hd.trans (h.fresh j k v hj hold)
    · rcases moves_wrapStream hm with ⟨rfl, -⟩ | ⟨k', -, hid, hi, hdone⟩
      · exact hd
      · -- The `Dial` that wraps holds the id no longer, and no other one holds it.
        rcases eq_or_ne j i with rfl | hne
        · have hcall := Task.call_of_checked hk
          simp [hdone] at hcall
        · exact absurd hid (h.apart j i k k' hne (Task.call_of_checked hj)
            (Task.call_of_checked hi))
  · rw [effect, hnone] at hv
    cases hv

variable [Inhabited ID]

theorem reach_kept (h : (machine gen).ReachWhile (drawsApart gen) p) : Kept gen p := by
  refine Machine.ReachWhile.invariant (M := machine gen) (I := Kept gen)
    ⟨fun _ _ _ _ _ hk => ?_, fun _ _ _ hk => ?_⟩ ?_ h
  · cases hk
  · cases hk
  rintro p (t | ⟨i, c⟩) p' hr hK hC hst
  · obtain ⟨he, rfl⟩ := Program.start_cases hst
    exact kept_start hK (entry_call he)
  · obtain ⟨t', e, hn, rfl⟩ := Program.run_cases hst
    have hm := next_moves hn
    refine ⟨fun a b k k' hab ha hb => ?_, fun j k v hk hv =>
      kept_fresh hK (reach_keyed hr.reach) hm hk hv⟩
    rcases eq_or_ne a i with rfl | hai
    · exact kept_apart hK hab hC hm (by simpa using ha) (by simpa [hab.symm] using hb)
    · rcases eq_or_ne b i with rfl | hbi
      · exact (kept_apart hK hab.symm hC hm (by simpa using hb) (by simpa [hab] using ha)).symm
      · exact hK.apart a b k k' hab (by simpa [hai] using ha) (by simpa [hbi] using hb)

/-- Ids that are all different are drawn apart. -/
theorem reachWhile_of_injOn (h : (machine gen).Reach p)
    (hgen : Set.InjOn gen {k | k < p.shared.generated}) :
    (machine gen).ReachWhile (drawsApart gen) p := by
  refine Machine.ReachWhile.invariant (M := machine gen) (I := fun p =>
    Set.InjOn gen {k | k < p.shared.generated} → (machine gen).ReachWhile (drawsApart gen) p)
    (fun _ => .init) ?_ h hgen
  rintro p (t | ⟨i, c⟩) p' hr ih - hst hgen
  · obtain ⟨-, rfl⟩ := Program.start_cases hst
    exact (ih hgen).step (a := .start t) trivial hst
  · obtain ⟨t', e, hn, rfl⟩ := Program.run_cases hst
    have hle := effect_generated_le e p.shared
    refine (ih fun a ha b hb hab => hgen (lt_of_lt_of_le ha hle) (lt_of_lt_of_le hb hle) hab).step
      ?_ hst
    intro st hi j k hk heq
    have hlt := ((Program.invariant_reach dial_sound hr).thread j k hk).1
    have hm := next_moves hn
    rw [hi] at hm
    cases hm
    have hkg := hgen (Nat.lt_succ_of_lt hlt) (Nat.lt_succ_self _) heq
    exact absurd hkg (Nat.ne_of_lt hlt)

/-- The id of a call is in use, for a goroutine `i`. -/
inductive InUse (gen : ℕ → ID) (p : Program.Pool (Shared ID) (Task ID)) (i k : ℕ) : Prop
  /-- A wrapper that `Dial` created is entered under it. -/
  | entered {v : Ref} (hd : (p.shared.wraps v).dialed = some k)
      (hv : p.shared.streams.lookup (gen k) = some v)
  /-- Such a wrapper has it, entered or not, and it has not been drawn again. -/
  | given {v : Ref} (hv : v < p.shared.nextWrap) (hd : (p.shared.wraps v).dialed = some k)
      (honce : ∀ k', k' < p.shared.generated → gen k' = gen k → k' = k)
  /-- A `Dial` in progress in another goroutine holds it. -/
  | held {j : ℕ} (hj : j ≠ i) (hk : (p.threads j).call = some k)

/-- A goroutine has checked no id that is in use elsewhere. -/
theorem checked_ne_of_inUse {k k' : ℕ} (h : (machine gen).ReachWhile (drawsApart gen) p)
    (hk : InUse gen p i k) (hk' : (p.threads i).checked = some k') : gen k' ≠ gen k := by
  intro heq
  have hcall := Task.call_of_checked hk'
  cases hk with
  | entered hd hv =>
    have hnone := (reach_kept h).fresh i k' _ hk' (heq ▸ hv)
    simp [hd] at hnone
  | given hv hd honce =>
    obtain ⟨hlt, hfree⟩ := (Program.invariant_reach dial_sound h.reach).thread i k' hcall
    obtain rfl := honce k' hlt heq
    exact hfree _ hv hd
  | held hj hk => exact (reach_kept h).apart _ i k k' hj hk hcall heq.symm

/-- **No `Dial` takes another's entries.** As long as `NewStreamID` has not returned an id that
another `Dial` in progress held: a step that replaces the `s.streams` entry of a wrapper `Dial`
created is `handleIncoming` wrapping a stream with that id, and a step that replaces the
`pendingMode` entry under an id in use is `handleIncoming` registering a waiter for that id. -/
theorem dial_entries_kept {c : Choice} (h : (machine gen).ReachWhile (drawsApart gen) p)
    (hs : (machine gen).step p (.run i c) = some p') :
    (∀ v k, v < p.shared.nextWrap → (p.shared.wraps v).dialed = some k →
      (p.shared.wraps v).id = gen k ∧
      (p.shared.streams.lookup (gen k) = some v → ∀ v',
        p'.shared.streams.lookup (gen k) = some v' → v' ≠ v →
        ∃ st ena, p.threads i = .incomingAccepted st (gen k) ena)) ∧
    (∀ k ch ch', InUse gen p i k → p.shared.pendingMode.lookup (gen k) = some ch →
      p'.shared.pendingMode.lookup (gen k) = some ch' → ch' ≠ ch →
      ∃ st, p.threads i = .incomingEnabled st (gen k)) := by
  have hp := Program.invariant_reach dial_sound h.reach
  obtain ⟨t, e, hn, rfl⟩ := Program.run_cases hs
  have hm := next_moves hn
  refine ⟨fun v k hv hk => ⟨(hp.shared v k hv hk).2, fun hold v' hnew hne => ?_⟩,
    fun k ch ch' hk hold hnew hne => ?_⟩
  · rcases lookup_cases (reach_keyed h.reach) hnew with ⟨hsame, -⟩ | ⟨st, d, rfl, -⟩
    · exact absurd (Option.some.inj (hsame.symm.trans hold)) hne
    · rcases moves_wrapStream hm with ⟨-, ena, ht⟩ | ⟨k', -, hid, hk', -⟩
      · exact ⟨st, ena, ht⟩
      · exact absurd hid.symm (checked_ne_of_inUse h (.entered hk hold) hk')
  · obtain rfl := pendingMode_replaced hold hnew hne
    rcases moves_register hm with ht | ⟨k', hid, hk'⟩
    · exact ht
    · exact absurd hid.symm (checked_ne_of_inUse h hk hk')

/-- An agent with P2P enabled dials; the stream is wrapped. -/
def dialled : List (Program.Act (Task ℕ) Choice) :=
  [.start .enableP2P, .run 0 .ok, .start .dial, .run 1 .ok, .run 1 .ok, .run 1 .ok, .run 1 .ok,
   .run 1 .ok, .run 1 .ok, .run 1 .ok]

/-- The relay copies the id into an `INCOMING_STREAM` for the same agent; its waiter is
registered. -/
def handedBack : List (Program.Act (Task ℕ) Choice) :=
  dialled ++ [.start (.incoming ⟨0, 1⟩ 0), .run 2 .ok, .run 2 .ok, .run 2 .ok]

theorem dial_entries_kept_handedBack :
    ∃ p p', (machine id).run (machine id).init handedBack = some p ∧
      (machine id).step p (.run 2 .ok) = some p' ∧
      (p.shared.wraps 0).dialed = some 0 ∧ p.shared.streams.lookup 0 = some 0 ∧
      p'.shared.streams.lookup 0 = some 1 ∧ ∃ st ena, p.threads 2 = .incomingAccepted st 0 ena := by
  refine ⟨_, _, rfl, rfl, rfl, rfl, rfl, ?_⟩
  have hrun := Machine.reach_of_run (M := machine (id : ℕ → ℕ)) handedBack rfl
  have hapart := reachWhile_of_injOn hrun fun _ _ _ _ h => h
  have hkept := (dial_entries_kept (i := 2) (c := .ok) hapart rfl).1
  exact (hkept 0 0 (by decide) rfl).2 rfl 1 rfl (by decide)

/-- **A dialled stream can be replaced, by the agent's own provider side.** The agent dials a
service it provides. -/
theorem selfDial_replaces :
    ∃ p p', (machine id).run (machine id).init dialled = some p ∧
      (machine id).run p [.start (.incoming ⟨0, 1⟩ 0), .run 2 .ok, .run 2 .ok, .run 2 .ok,
        .run 2 .ok] = some p' ∧
      (p.shared.wraps 0).dialed = some 0 ∧ (p'.shared.wraps 0).abandoned = false ∧
      p.shared.streams.lookup 0 = some 0 ∧ p'.shared.streams.lookup 0 = some 1 ∧
      p.shared.pendingMode.lookup 0 = some 0 ∧ p'.shared.pendingMode.lookup 0 = some 1 :=
  ⟨_, _, rfl, rfl, rfl, rfl, rfl, rfl, rfl, rfl⟩

end OutRelayAgent.Session
