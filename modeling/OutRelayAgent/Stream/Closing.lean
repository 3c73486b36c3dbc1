import OutRelayAgent.Stream.Wrapper

/-!
# A closed stream and a late `SwapInner`

`ResumableStream.Close` marks the wrapper abandoned, reads the inner in a section of its own and
closes what it read (`session.go:550-560`). `Resume`, `MigrateToDirect` and `handleDirectStream`
look the wrapper up at one moment and call `SwapInner` at a later one, and `SwapInner` installs its
stream without looking at `abandoned` (`session.go:588-601`). So a stream can be installed in a
wrapper that nobody will close any more: `markAbandoned`'s comment, "no further `SwapInner` is
coming", is not enforced.

* `closed_stays_closed`: the inner of a closed wrapper on which nothing is going on has been closed,
  in every run in which a `SwapInner` takes effect only before `Close` is called or while a `Close`
  has yet to read the inner (`inTime`). A `SwapInner` at any other moment installs a stream that is
  not closed.
* `direct_after_close`: `handleDirectStream` finds the wrapper, `Close` runs, `SwapInner` follows.
-/

namespace OutRelayAgent.Wrapper

open Lib

variable {ε : Type}

/-- A `Close` that has not read the inner yet. -/
def Task.yetToRead : Task ε → Bool
  | .close | .closeFound _ | .closeSelf | .closeRead => true
  | _ => false

/-- A call that has returned, or no call. -/
def Task.finished : Task ε → Bool
  | .done | .returned _ _ => true
  | _ => false

def Task.swapping : Task ε → Bool
  | .swap _ => true
  | _ => false

/-- `SwapInner` takes effect before `Close` is called, or while a `Close` has yet to read the
inner. -/
def inTime (p : Program.Pool Wrap (Task ε)) : Program.Act (Task ε) (Choice ε) → Bool
  | .start _ => true
  | .run i _ =>
    !(p.threads i).swapping || !p.shared.closing ||
      (List.range p.count).any fun j => (p.threads j).yetToRead

/-- The transport stream a call has opened or accepted and not yet handed over. -/
def Task.holds : Task ε → Option TStream
  | .resumeOpened st | .migrateOpened st | .directAccepted st | .directFound st | .swap st =>
    some st
  | _ => none

/-- The inner a `Close` is about to close. -/
def Task.captured : Task ε → Option TStream
  | .closeInner st => some st
  | _ => none

/-! ## A stream in the hands of a call is not closed -/

/-- The streams the wrapper refers to have been opened. -/
structure Opened (s : Wrap) : Prop where
  inner : s.inner < s.nextStream
  closed : ∀ st ∈ s.closed, st < s.nextStream

/-- What a call holds is its own. -/
structure Own (s : Wrap) (t : Task ε) : Prop where
  holds : ∀ st, t.holds = some st → st < s.nextStream ∧ st ∉ s.closed ∧ st ≠ s.inner
  captured : ∀ st, t.captured = some st → st < s.nextStream

/-- What one call holds, another neither holds nor is about to close. -/
def Separate (t u : Task ε) : Prop :=
  ∀ st, t.holds = some st → u.holds ≠ some st ∧ u.captured ≠ some st

variable {s : Wrap} {t t' u : Task ε} {e : Effect}

/-- `markAbandoned` touches no stream and does not begin a `Close`. -/
theorem markAbandoned_streams (s : Wrap) :
    (effect .markAbandoned s).inner = s.inner ∧ (effect .markAbandoned s).closed = s.closed ∧
      (effect .markAbandoned s).nextStream = s.nextStream ∧
      (effect .markAbandoned s).closing = s.closing := by
  by_cases hab : s.abandoned = true
  · simp [effect, hab]
  · cases hready : s.resumeReady <;> simp [effect, hab, Wrap.closeReady, Wrap.closeChan, hready]

/-- What a step does with streams: it opens one, closes the one its call holds or has captured,
installs the one its call holds, or leaves them all as they are. -/
inductive Streams (s : Wrap) (t t' : Task ε) (s' : Wrap) : Prop
  | opens : s' = effect .openStream s → t'.holds = some s.nextStream → t'.captured = none →
      Streams s t t' s'
  | closes (st : TStream) : s' = effect (.closeStream st) s →
      t.holds = some st ∨ t.captured = some st → t'.holds = none → t'.captured = none →
      Streams s t t' s'
  | installs (st : TStream) : s' = effect (.swapInner st) s → t = .swap st →
      t'.holds = none → t'.captured = none → Streams s t t' s'
  | leaves : s'.inner = s.inner → s'.closed = s.closed → s'.nextStream = s.nextStream →
      (∀ st, t'.holds = some st → t.holds = some st) →
      (∀ st, t'.captured = some st → st = s.inner) → Streams s t t' s'

theorem Moves.streams (hm : Moves s t t' e) : Streams s t t' (effect e s) := by
  obtain ⟨hinner, hclosed, hnext, -⟩ := markAbandoned_streams s
  cases hm with
  | resumeOpens | migrateOpens | accepts => exact .opens rfl rfl rfl
  | resumeCloses | migrateCloses | directCloses | directFails =>
    exact .closes _ rfl (.inl rfl) rfl rfl
  | closesInner => exact .closes _ rfl (.inr rfl) rfl rfl
  | swaps => exact .installs _ rfl rfl rfl rfl
  | forgetMarks | closeMarks | closeMarksSelf => exact .leaves hinner hclosed hnext nofun nofun
  | resumeSwaps | migrateSwaps | directFinds | directSwaps =>
    exact .leaves rfl rfl rfl (fun _ h => h) nofun
  | closeReads =>
    refine .leaves rfl rfl rfl nofun fun st hst => ?_
    simpa [Task.captured] using hst.symm
  | _ => exact .leaves rfl rfl rfl nofun nofun

variable {s' : Wrap}

theorem opened_step (hG : Opened s) (ht : Own s t) (hs : Streams s t t' s') : Opened s' := by
  cases hs with
  | opens heq =>
    subst heq
    exact ⟨Nat.lt_succ_of_lt hG.inner, fun st hst => Nat.lt_succ_of_lt (hG.closed st hst)⟩
  | closes st heq hst =>
    subst heq
    refine ⟨hG.inner, fun st' hst' => ?_⟩
    rcases List.mem_cons.mp hst' with rfl | hmem
    · exact hst.elim (fun h => (ht.holds _ h).1) (ht.captured _)
    · exact hG.closed st' hmem
  | installs st heq hst =>
    subst heq hst
    exact ⟨(ht.holds st rfl).1, hG.closed⟩
  | leaves hinner hclosed hnext =>
    refine ⟨by rw [hinner, hnext]; exact hG.inner, ?_⟩
    rw [hclosed, hnext]
    exact hG.closed

theorem own_step (hG : Opened s) (ht : Own s t) (hs : Streams s t t' s') : Own s' t' := by
  cases hs with
  | opens heq hholds hcaptured =>
    subst heq
    refine ⟨fun st hst => ?_, by simp [hcaptured]⟩
    -- The new stream is younger than all that is closed or installed.
    obtain rfl : s.nextStream = st := by simpa [hholds] using hst
    exact ⟨Nat.lt_succ_self _, fun hmem => Nat.lt_irrefl _ (hG.closed _ hmem),
      Nat.ne_of_gt hG.inner⟩
  | closes st heq hst hholds hcaptured => exact ⟨by simp [hholds], by simp [hcaptured]⟩
  | installs st heq hst hholds hcaptured => exact ⟨by simp [hholds], by simp [hcaptured]⟩
  | leaves hinner hclosed hnext hholds hcaptured =>
    refine ⟨fun st hst => ?_, fun st hst => ?_⟩
    · rw [hinner, hclosed, hnext]
      exact ht.holds st (hholds st hst)
    · rw [hnext, hcaptured st hst]
      exact hG.inner

theorem own_other (hu : Own s u) (htu : Separate t u) (hut : Separate u t)
    (hs : Streams s t t' s') : Own s' u := by
  cases hs with
  | opens heq =>
    subst heq
    exact ⟨fun st hst => ⟨Nat.lt_succ_of_lt (hu.holds st hst).1, (hu.holds st hst).2⟩,
      fun st hst => Nat.lt_succ_of_lt (hu.captured st hst)⟩
  | closes st heq hst =>
    subst heq
    refine ⟨fun st' hst' => ?_, hu.captured⟩
    obtain ⟨hlt, hopen, hne⟩ := hu.holds st' hst'
    refine ⟨hlt, fun hmem => ?_, hne⟩
    rcases List.mem_cons.mp hmem with rfl | hmem
    · exact hst.elim (hut _ hst').1 (hut _ hst').2
    · exact hopen hmem
  | installs st heq hst =>
    subst heq hst
    refine ⟨fun st' hst' => ⟨(hu.holds st' hst').1, (hu.holds st' hst').2.1, ?_⟩, hu.captured⟩
    rintro rfl
    exact (htu _ rfl).1 hst'
  | leaves hinner hclosed hnext =>
    refine ⟨?_, ?_⟩
    · rw [hinner, hclosed, hnext]
      exact hu.holds
    · rw [hnext]
      exact hu.captured

theorem separate_step (hu : Own s u) (htu : Separate t u) (hut : Separate u t)
    (hs : Streams s t t' s') : Separate t' u ∧ Separate u t' := by
  have hnone : t'.holds = none → t'.captured = none → Separate t' u ∧ Separate u t' := by
    intro hholds hcaptured
    exact ⟨fun st hst => by simp [hholds] at hst, fun st _ => by simp [hholds, hcaptured]⟩
  cases hs with
  | opens heq hholds hcaptured =>
    have hfresh : ∀ st, t'.holds = some st → st = s.nextStream := by
      intro st hst
      simpa [hholds] using hst.symm
    refine ⟨fun st hst => ?_, fun st hst => ⟨fun hst' => ?_, by simp [hcaptured]⟩⟩
    · rw [hfresh st hst]
      exact ⟨fun h => Nat.lt_irrefl _ (hu.holds _ h).1, fun h => Nat.lt_irrefl _ (hu.captured _ h)⟩
    · rw [hfresh st hst'] at hst
      exact Nat.lt_irrefl _ (hu.holds _ hst).1
  | closes st heq hst hholds hcaptured => exact hnone hholds hcaptured
  | installs st heq hst hholds hcaptured => exact hnone hholds hcaptured
  | leaves hinner hclosed hnext hholds hcaptured =>
    refine ⟨fun st hst => htu st (hholds st hst), fun st hst => ⟨fun hst' => ?_, fun hst' => ?_⟩⟩
    · exact (hut st hst).1 (hholds st hst')
    · exact (hu.holds st hst).2.2 (hcaptured st hst')

/-- A call begins without a stream. -/
theorem entry_holds (he : entry s t = true) : t.holds = none ∧ t.captured = none := by
  cases t <;> first | exact ⟨rfl, rfl⟩ | simp [entry] at he

theorem closing_invariants :
    (program ε).Sound initial (fun _ _ _ => true) Opened Own
      (fun t u => Separate t u ∧ Separate u t) where
  init := ⟨Nat.one_pos, nofun⟩
  idle := ⟨⟨nofun, nofun⟩, nofun, nofun⟩
  start := by
    intro s t _ he
    have hnone := entry_holds (s := s) he
    exact ⟨by simp [hnone.1], by simp [hnone.2]⟩
  start_other := by
    intro s t u he _
    have hnone := entry_holds (s := s) he
    have hboth : Separate t u ∧ Separate u t :=
      ⟨fun st hst => by simp [hnone.1] at hst, fun st _ => by simp [hnone]⟩
    exact ⟨hboth, hboth.symm⟩
  step := fun hG ht _ hn =>
    ⟨opened_step hG ht (next_moves hn).streams, own_step hG ht (next_moves hn).streams⟩
  other := by
    intro s t u c t' e _ _ hu hK _ hn
    have hs := (next_moves hn).streams
    have hsep := separate_step hu hK.1 hK.2 hs
    exact ⟨own_other hu hK.1 hK.2 hs, hsep, hsep.symm⟩

/-! ## Who closes the inner -/

/-- Once `Close` has been called, the inner is going to be read by a `Close`, or has been read by
one that is about to close it, or has been closed. -/
def Told (p : Program.Pool Wrap (Task ε)) : Prop :=
  p.shared.closing = true → (∃ j, (p.threads j).yetToRead = true) ∨
    (∃ j, (p.threads j).captured = some p.shared.inner) ∨ p.shared.inner ∈ p.shared.closed

/-- Only `SwapInner` changes the inner, and no stream is opened again. -/
theorem inner_kept (hm : Moves s t t' e) (ht : t.swapping = false) :
    (effect e s).inner = s.inner ∧ s.closed ⊆ (effect e s).closed := by
  cases hm.streams with
  | opens heq => exact heq ▸ ⟨rfl, fun _ h => h⟩
  | closes st heq => exact heq ▸ ⟨rfl, fun _ h => List.mem_cons_of_mem _ h⟩
  | installs st _ hst =>
    subst hst
    cases ht
  | leaves hinner hclosed => exact ⟨hinner, by rw [hclosed]; exact fun _ h => h⟩

/-- `Close` goes on until it has read the inner. -/
theorem yetToRead_step (hm : Moves s t t' e) (ht : t.yetToRead = true) :
    t'.yetToRead = true ∨ t'.captured = some s.inner := by
  cases hm with
  | closes | closeMarks | closeMarksNone | closeMarksSelf => exact .inl rfl
  | closeReads => exact .inr rfl
  | _ => cases ht

/-- Then it closes it. -/
theorem captured_step (hm : Moves s t t' e) {st : TStream} (ht : t.captured = some st) :
    st ∈ (effect e s).closed := by
  cases hm with
  | closesInner =>
    obtain rfl : _ = st := by simpa [Task.captured] using ht
    exact List.mem_cons_self
  | _ => cases ht

theorem closing_step (hm : Moves s t t' e) (hc : (effect e s).closing = true) :
    s.closing = true ∨ t'.yetToRead = true := by
  obtain ⟨-, -, -, hmark⟩ := markAbandoned_streams s
  cases hm with
  | closes => exact .inr rfl
  | forgetMarks | closeMarks | closeMarksSelf => exact .inl (hmark ▸ hc)
  | _ => exact .inl hc

variable {p p' : Program.Pool Wrap (Task ε)}

theorem told_start {t : Task ε} (hr : (machine ε).Reach p)
    (hst : (machine ε).step p (.start t) = some p') (hT : Told p) : Told p' := by
  have hidle :=
    Program.idle_of_count_le (P := program ε) (fun _ _ => rfl) hr p.count (Nat.le_refl _)
  obtain ⟨-, rfl⟩ := Program.start_cases hst
  intro hc
  rcases hT hc with h | h | h
  · exact .inl (Program.exists_update (Q := fun u : Task ε => u.yetToRead = true) h
      (by rw [hidle]; nofun))
  · exact .inr (.inl (Program.exists_update
      (Q := fun u : Task ε => u.captured = some p.shared.inner) h (by rw [hidle]; nofun)))
  · exact .inr (.inr h)

theorem told_run {i : ℕ} {c : Choice ε} (hin : inTime p (.run i c) = true)
    (hst : (machine ε).step p (.run i c) = some p') (hT : Told p) : Told p' := by
  obtain ⟨t', e, hn, rfl⟩ := Program.run_cases hst
  have hm := next_moves hn
  intro hc
  rcases closing_step hm hc with hc | hread
  swap
  · exact .inl ⟨i, by simpa using hread⟩
  by_cases hswap : (p.threads i).swapping = true
  · -- The condition: another `Close` will read what is installed now.
    have hj : ∃ j, (p.threads j).yetToRead = true := by
      simp only [inTime, hswap, hc, Bool.not_true, Bool.false_or, List.any_eq_true] at hin
      obtain ⟨j, -, hj⟩ := hin
      exact ⟨j, hj⟩
    refine .inl (Program.exists_update (Q := fun u : Task ε => u.yetToRead = true) hj ?_)
    cases ht : p.threads i <;> simp_all [Task.swapping, Task.yetToRead]
  · obtain ⟨hinner, hclosed⟩ := inner_kept hm (Bool.not_eq_true _ ▸ hswap)
    have hinner : ((program ε).effect e p.shared).inner = p.shared.inner := hinner
    rcases hT hc with h | h | h
    · by_cases hi : (p.threads i).yetToRead = true
      · rcases yetToRead_step hm hi with hread | hread
        · exact .inl ⟨i, by simpa using hread⟩
        · refine .inr (.inl ⟨i, ?_⟩)
          simpa [hinner] using hread
      · exact .inl (Program.exists_update (Q := fun u : Task ε => u.yetToRead = true) h hi)
    · by_cases hi : (p.threads i).captured = some p.shared.inner
      · refine .inr (.inr ?_)
        rw [hinner]
        exact captured_step hm hi
      · refine .inr (.inl ?_)
        rw [hinner]
        exact Program.exists_update (Q := fun u : Task ε => u.captured = some p.shared.inner) h hi
    · refine .inr (.inr ?_)
      rw [hinner]
      exact hclosed h

theorem told (h : (machine ε).ReachWhile (fun p a => inTime p a = true) p) : Told p := by
  refine Machine.ReachWhile.invariant (M := machine ε) (I := Told) nofun ?_ h
  rintro p (t | ⟨i, c⟩) p' hr hT hin hst
  · exact told_start hr.reach hst hT
  · exact told_run hin hst hT

/-- A call that has returned closes nothing any more. -/
theorem finished_closes_nothing (h : t.finished = true) :
    t.yetToRead = false ∧ t.captured = none := by
  cases t <;> first | exact ⟨rfl, rfl⟩ | cases h

/-- A `SwapInner` installs the stream of its caller, which is not closed. -/
theorem swap_unclosed (hm : Moves s t t' e) (ht : t.swapping = true) (hown : Own s t) :
    (effect e s).inner ∉ (effect e s).closed := by
  cases hm with
  | swaps => exact (hown.holds _ rfl).2.1
  | _ => cases ht

/-- **A closed stream stays closed as long as no `SwapInner` comes too late.** In a run in which
every `SwapInner` is in time, the inner of a wrapper that has been closed and on which nothing is
going on has been closed. A `SwapInner` that is not in time leaves an inner that is not. -/
theorem closed_stays_closed (h : (machine ε).Reach p) :
    ((machine ε).ReachWhile (fun p a => inTime p a = true) p → p.shared.closing = true →
      (∀ i, (p.threads i).finished = true) → p.shared.inner ∈ p.shared.closed) ∧
    ∀ i c p', (machine ε).step p (.run i c) = some p' → inTime p (.run i c) = false →
      p'.shared.inner ∉ p'.shared.closed := by
  refine ⟨fun hrun hc hfin => ?_, fun i c p' hst hin => ?_⟩
  · rcases told hrun hc with ⟨j, hj⟩ | ⟨j, hj⟩ | h
    · rw [(finished_closes_nothing (hfin j)).1] at hj
      cases hj
    · rw [(finished_closes_nothing (hfin j)).2] at hj
      cases hj
    · exact h
  · have hown := (Program.invariant_reach closing_invariants h).thread i
    have hswap : (p.threads i).swapping = true := by
      by_contra hnot
      simp [inTime, hnot] at hin
    obtain ⟨t', e, hn, rfl⟩ := Program.run_cases hst
    exact swap_unclosed (next_moves hn) hswap hown

/-- `handleDirectStream` accepts a stream and finds the wrapper. -/
def directFinds : List (Program.Act (Task ℕ) (Choice ℕ)) :=
  [.start .direct, .run 0 .ok, .run 0 .ok, .run 0 .ok]

/-- `SwapInner`, from its section to its return. -/
def directSwaps : List (Program.Act (Task ℕ) (Choice ℕ)) :=
  [.run 0 .ok, .run 0 .ok, .run 0 .ok]

/-- A whole call of `Close`. -/
def closes : List (Program.Act (Task ℕ) (Choice ℕ)) :=
  [.start .close, .run 1 .ok, .run 1 .ok, .run 1 .ok, .run 1 .ok, .run 1 .ok]

/-- Two calls that have returned are all there are. -/
theorem all_finished {p : Program.Pool Wrap (Task ℕ)} (h : (machine ℕ).Reach p)
    (hcount : p.count = 2) (h0 : (p.threads 0).finished = true)
    (h1 : (p.threads 1).finished = true) (i : ℕ) : (p.threads i).finished = true := by
  match i with
  | 0 => exact h0
  | 1 => exact h1
  | i + 2 =>
    have hle : p.count ≤ i + 2 := by omega
    rw [Program.idle_of_count_le (P := program ℕ) (fun _ _ => rfl) h _ hle]
    rfl

/-- When `Close` comes after the migration, the direct stream is closed. -/
theorem closed_stays_closed_direct :
    ∃ p, (machine ℕ).run (machine ℕ).init (directFinds ++ directSwaps ++ closes) = some p ∧
      p.shared.inner = 1 ∧ p.shared.inner ∈ p.shared.closed := by
  refine ⟨_, rfl, rfl, ?_⟩
  have hrun := Machine.reachWhile_of_run (M := machine ℕ) (C := inTime)
    (directFinds ++ directSwaps ++ closes) rfl
  exact (closed_stays_closed hrun.reach).1 hrun rfl (all_finished hrun.reach rfl rfl rfl)

/-- **A direct stream installed after `Close`.** `handleDirectStream` has found the wrapper, `Close`
marks it and closes the old inner, then `SwapInner` installs the direct stream: the wrapper is
closed and nothing is going on, and nobody will ever close the stream it holds. -/
theorem direct_after_close :
    ∃ p, (machine ℕ).Reach p ∧ p.shared.closing = true ∧ p.shared.abandoned = true ∧
      (∀ i, (p.threads i).finished = true) ∧ p.shared.inner ∉ p.shared.closed := by
  have hreach := Machine.reach_of_run (M := machine ℕ) (directFinds ++ closes ++ directSwaps) rfl
  exact ⟨_, hreach, rfl, rfl, all_finished hreach rfl rfl rfl, by decide⟩

end OutRelayAgent.Wrapper
