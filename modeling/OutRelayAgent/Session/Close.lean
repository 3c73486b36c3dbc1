import OutRelayAgent.Session.Model

/-!
# Closing one stream and the others

`ResumableStream.Close` and the drop at the end of `Reconnect` both go through
`forgetStream(id)` (`session.go:403-410`): the entry under the id is removed, and the wrapper that
stood there is marked abandoned. The entry is found by id, not by wrapper. `wrapStream` lets a
second `INCOMING_STREAM` with the same id take the entry over (`session.go:373-396`), and then
closing the first wrapper removes and abandons the second.

* `close_leaves_others`: as long as no `Close` and no drop of a wrapper meets an entry of another
  wrapper under its id (`ownEntry`), closing or dropping a wrapper leaves the abandoned flag, the
  inner and the registration of every other wrapper as they were; a step that meets such an entry
  takes away the registration of the wrapper it belongs to.
* `collision_close`: two `INCOMING_STREAM`s with one id; the provider goroutine of the first
  returns, and the second stream is neither registered nor usable any more.
-/

namespace OutRelayAgent.Session

open Lib

variable {ID : Type}

/-- The wrapper a goroutine is closing or dropping. -/
def Task.closing : Task ID → Option Ref
  | .close w _ | .closeFound w _ _ | .closeSelf w _ | .closeInner w _ => some w
  | .reconnectDrop _ w _ | .reconnectFound _ w _ _ => some w
  | _ => none

/-- The wrapper whose id `forgetStream` is about to look up. -/
def Task.forgets : Task ID → Option Ref
  | .close w _ | .reconnectDrop _ w _ => some w
  | _ => none

/-- What `forgetStream` found under the id, before it is marked. -/
def Task.found : Task ID → Option Ref
  | .closeFound _ _ found | .reconnectFound _ _ _ found => found
  | _ => none

variable [DecidableEq ID]

/-- The wrapper stands in `s.streams`. -/
def Registered (s : Shared ID) (v : Ref) : Prop := s.streams.lookup (s.wraps v).id = some v

/-- Nothing of a stream that `Close` of another may not touch has changed. -/
structure Unchanged (s s' : Shared ID) (v : Ref) : Prop where
  abandoned : (s'.wraps v).abandoned = (s.wraps v).abandoned
  inner : (s'.wraps v).inner = (s.wraps v).inner
  registered : Registered s' v ↔ Registered s v

/-- `forgetStream` of a wrapper finds that wrapper under its id, or nothing. -/
def ownEntry (s : Shared ID) (t : Task ID) (_ : Choice) : Bool :=
  match t.forgets with
  | some w => (s.streams.lookup (s.wraps w).id).all (· == w)
  | none => true

variable {s : Shared ID} {v w : Ref}

theorem Unchanged.refl (s : Shared ID) (v : Ref) : Unchanged s s v := ⟨rfl, rfl, Iff.rfl⟩

/-- A change to one wrapper in place leaves the others. -/
theorem setWrap_unchanged (f : Wrapper ID) (hv : v ≠ w) : Unchanged s (s.setWrap w f) v := by
  have hwrap : (s.setWrap w f).wraps v = s.wraps v := by simp [Shared.setWrap, hv]
  refine ⟨by rw [hwrap], by rw [hwrap], ?_⟩
  unfold Registered
  rw [hwrap]
  rfl

/-- Removing the entry of `w`'s id harms no other wrapper when it is `w`'s own entry. -/
theorem forget_unchanged (hv : v ≠ w) (hw : (s.streams.lookup (s.wraps w).id).all (· == w)) :
    Unchanged s (effect (.forget (s.wraps w).id) s) v := by
  refine ⟨rfl, rfl, ?_⟩
  simp only [effect, Registered]
  rcases eq_or_ne (s.wraps v).id (s.wraps w).id with hid | hid
  · -- Under the common id stands `w` or nothing, so `v` is registered neither before nor after.
    rw [hid, AList.lookup_erase]
    constructor
    · intro h
      cases h
    · intro h
      rw [h] at hw
      exact absurd (by simpa using hw) hv
  · rw [AList.lookup_erase_ne hid]

/-- What a goroutine has found and not yet marked is the wrapper it is closing. -/
def FoundOwn (_ : Shared ID) (t : Task ID) : Prop := ∀ v ∈ t.found, t.closing = some v

variable {gen : ℕ → ID}

theorem foundOwn_step {t t' : Task ID} {c : Choice} {e : Effect ID} (hD : ownEntry s t c = true)
    (hm : Moves gen s t t' e) (s' : Shared ID) : FoundOwn s' t' := by
  intro v hv
  cases hm with
  | close =>
    simp_all [Task.found, ownEntry, Task.forgets, Task.closing]
  | drop =>
    simp_all [Task.found, ownEntry, Task.forgets, Task.closing]
  | incomingWraps =>
    rename_i ena
    cases ena <;> simp_all [Task.found]
  | notRegistered =>
    rename_i w
    cases w <;> simp_all [Task.found, afterMode]
  | modeKnown =>
    rename_i w
    cases w <;> simp_all [Task.found, afterMode]
  | _ => simp_all [Task.found]

theorem foundOwn_sound [Inhabited ID] :
    (program gen).Sound initial ownEntry (fun _ => True) FoundOwn (fun _ _ => True) where
  init := trivial
  idle := ⟨by simp [FoundOwn, program, Task.found], trivial⟩
  start := by
    intro s t _ he v hv
    cases t <;> simp_all [Task.found, program, entry]
  start_other := fun _ _ => ⟨trivial, trivial⟩
  step := fun _ _ hD hn => ⟨trivial, foundOwn_step hD (next_moves hn) _⟩
  other := fun _ _ hu _ _ _ => ⟨hu, trivial, trivial⟩

/-- One step of a goroutine that closes or drops `w`. -/
theorem closing_unchanged {t t' : Task ID} {c : Choice} {e : Effect ID}
    (hfound : FoundOwn s t) (hD : ownEntry s t c = true) (hm : Moves gen s t t' e)
    (hw : t.closing = some w) (hv : v ≠ w) : Unchanged s (effect e s) v := by
  have hmark : ∀ found, t.found = found → Unchanged s (effect (markFound found) s) v := by
    rintro (_ | u) hf
    · exact .refl s v
    · have := hfound u (by simp [hf])
      exact setWrap_unchanged _ (by rintro rfl; exact hv (by simp_all))
  cases hm with
  | close =>
    obtain rfl : _ = w := by simpa [Task.closing] using hw
    exact forget_unchanged hv hD
  | drop =>
    obtain rfl : _ = w := by simpa [Task.closing] using hw
    exact forget_unchanged hv hD
  | closeFound => exact hmark _ rfl
  | dropFound => exact hmark _ rfl
  | closeSelf =>
    obtain rfl : _ = w := by simpa [Task.closing] using hw
    exact setWrap_unchanged _ hv
  | closeDone => exact .refl s v
  | closeAgain => exact .refl s v
  | _ => simp [Task.closing] at hw

/-- A `forgetStream` that meets the entry of another wrapper. -/
theorem forget_harms {t t' : Task ID} {c : Choice} {e : Effect ID} (hkey : Keyed s)
    (hD : ownEntry s t c = false) (hm : Moves gen s t t' e) (hw : t.closing = some w) :
    ∃ v, v ≠ w ∧ Registered s v ∧ ¬ Registered (effect e s) v := by
  have hforget : (s.streams.lookup (s.wraps w).id).all (· == w) = false →
      ∃ v, v ≠ w ∧ Registered s v ∧ ¬ Registered (effect (.forget (s.wraps w).id) s) v := by
    intro hall
    obtain ⟨v, hv, hne⟩ : ∃ v, s.streams.lookup (s.wraps w).id = some v ∧ v ≠ w := by
      cases hl : s.streams.lookup (s.wraps w).id with
      | none => simp [hl] at hall
      | some v => exact ⟨v, rfl, by simpa [hl] using hall⟩
    have hid := (hkey _ v hv).2
    refine ⟨v, hne, ?_, ?_⟩
    · rw [Registered, hid, hv]
    · simp only [Registered, effect]
      rw [hid, AList.lookup_erase]
      simp
  cases hm with
  | close =>
    obtain rfl : _ = w := by simpa [Task.closing] using hw
    exact hforget hD
  | drop =>
    obtain rfl : _ = w := by simpa [Task.closing] using hw
    exact hforget hD
  | _ => simp [ownEntry, Task.forgets] at hD

/-- **Closing a stream leaves the others alone as long as its id is its own.** A goroutine closes
or drops the wrapper `w`. In a run in which every `forgetStream` so far, this step's included,
found the wrapper it was called for or nothing, no other wrapper's flag, inner or registration
changes. A `forgetStream` that finds another wrapper takes that one's registration away. -/
theorem close_leaves_others [Inhabited ID] {p p' : Program.Pool (Shared ID) (Task ID)} {i : ℕ}
    {c : Choice}
    (h : (machine gen).Reach p) (hs : (machine gen).step p (.run i c) = some p')
    (hw : (p.threads i).closing = some w) :
    ((machine gen).ReachWhile (fun p a => Program.allowed ownEntry p a = true) p →
      ownEntry p.shared (p.threads i) c = true → ∀ v, v ≠ w → Unchanged p.shared p'.shared v) ∧
    (ownEntry p.shared (p.threads i) c = false →
      ∃ v, v ≠ w ∧ Registered p.shared v ∧ ¬ Registered p'.shared v) := by
  obtain ⟨t, e, hn, rfl⟩ := Program.run_cases hs
  have hm := next_moves hn
  refine ⟨fun hrun hD v hv => ?_, fun hD => ?_⟩
  · have hfound := (Program.invariant foundOwn_sound hrun).thread i
    exact closing_unchanged hfound hD hm hw hv
  · exact forget_harms (reach_keyed h) hD hm hw

/-- Two `INCOMING_STREAM`s, with the ids `a` and `b`; both are wrapped, and the first one's
`bridge` has returned. -/
def twoIncoming (a b : ℕ) : List (Program.Act (Task ℕ) Choice) :=
  [.start (.incoming ⟨0, 0⟩ a), .run 0 .ok, .run 0 .ok, .run 0 .ok,
   .start (.incoming ⟨0, 1⟩ b), .run 1 .ok, .run 1 .ok, .run 1 .ok, .run 0 .ok]

/-- With two ids the second stream stays as it was. -/
theorem close_leaves_others_twoIncoming :
    ∃ p p', (machine id).run (machine id).init (twoIncoming 7 8) = some p ∧
      (machine id).step p (.run 0 .ok) = some p' ∧ Unchanged p.shared p'.shared 1 := by
  refine ⟨_, _, rfl, rfl, ?_⟩
  have hrun := Machine.reachWhile_of_run (M := machine (id : ℕ → ℕ))
    (C := Program.allowed ownEntry) (twoIncoming 7 8) rfl
  exact (close_leaves_others (i := 0) (c := .ok) hrun.reach rfl rfl).1 hrun rfl 1 (by decide)

/-- **With one id the second stream is lost.** The first stream's `Close` finds the second wrapper
under the id, removes it from the table and marks it abandoned. -/
theorem collision_close :
    ∃ p p', (machine id).run (machine id).init (twoIncoming 7 7) = some p ∧
      (machine id).run p [.run 0 .ok, .run 0 .ok] = some p' ∧
      (p.threads 0).closing = some 0 ∧ (p'.threads 0).closing = some 0 ∧
      Registered p.shared 1 ∧ (p.shared.wraps 1).abandoned = false ∧
      ¬ Registered p'.shared 1 ∧ (p'.shared.wraps 1).abandoned = true := by
  refine ⟨_, _, rfl, rfl, rfl, rfl, ?_⟩
  unfold Registered
  decide

end OutRelayAgent.Session
