import OutRelayAgent.Stream.Wrapper

/-!
# Parking and waking

`Read` and `Write` park on the `resumeReady` channel they captured together with the inner that
failed, and `SwapInner` or `markAbandoned` wakes them (`session.go:439-601`). The channel is
replaced inside the lock; `SwapInner` closes the old one after the lock, `markAbandoned` closes it
inside and leaves `nil`, on which a wait would never end.

* **The channels** (`Chans`): the current one is open, there is one as long as the wrapper is not
  abandoned, and none has been closed twice. An abandoned wrapper may get a new channel from a late
  `SwapInner`; no call captures that one.
* **Where a channel is** (`placed`): every channel made so far is the current one, closed, or in the
  hands of the one `SwapInner` that detached it and is about to close it.
* **What a capture knows** (`Captured`): its channel stays the current one until the first section
  after it. That is why a wake-up always brings news: the wrapper is abandoned, or an inner was
  installed after the captured one.

`park_wake_sound` puts them together.
-/

namespace OutRelayAgent.Wrapper

open Lib

variable {ε : Type}

/-- The channel a call has detached and is about to close. -/
def Task.detached : Task ε → Option Chan
  | .swapped _ oldReady => oldReady
  | _ => none

/-! ## What is kept -/

structure Chans (s : Wrap) : Prop where
  current : ∀ ch, s.resumeReady = some ch → ch < s.nextChan ∧ s.closes ch = 0
  present : s.abandoned = false → ∃ ch, s.resumeReady = some ch
  once : ∀ ch, s.closes ch ≤ 1
  fresh : ∀ ch, s.nextChan ≤ ch → s.closes ch = 0

/-- A channel that is neither current nor closed. -/
structure Detached (s : Wrap) (ch : Chan) : Prop where
  made : ch < s.nextChan
  unclosed : s.closes ch = 0
  replaced : s.resumeReady ≠ some ch

/-- What holds of the capture of a call that has not yet looked at the wrapper again. -/
structure Captured (s : Wrap) (cap : Capture) (ch : Chan) : Prop where
  ready : cap.ready = some ch
  made : ch < s.nextChan
  installs : cap.installs ≤ s.installs
  /-- No section has run as long as the channel is the current one. -/
  quiet : s.resumeReady = some ch → s.abandoned = false ∧ cap.sections = s.sections
  news : s.resumeReady = some ch ∨ s.abandoned = true ∨ cap.installs < s.installs

/-- What a call relies on, depending on where it stands. -/
def Fits (s : Wrap) : Task ε → Prop
  | .head _ (some k) => s.abandoned = true ∨ k < s.installs
  | .inner _ cap | .wait _ cap _ => ∃ ch, Captured s cap ch
  | .returned _ (some .streamLost) => s.abandoned = true
  | .swapped _ (some ch) => Detached s ch
  | _ => True

/-- Two calls never hold the same detached channel. -/
def Apart (t u : Task ε) : Prop := ∀ ch, t.detached = some ch → u.detached ≠ some ch

variable {s s' : Wrap} {ch : Chan} {cap : Capture} {t t' u : Task ε} {e : Effect}

/-- A call relies on its capture, on what it has seen, or on the channel it detached. -/
theorem Fits.mono (h : Fits s t) (hcap : ∀ cap ch, Captured s cap ch → Captured s' cap ch)
    (habandoned : s.abandoned = true → s'.abandoned = true) (hinstalls : s.installs ≤ s'.installs)
    (hdetached : ∀ ch, t.detached = some ch → Detached s ch → Detached s' ch) : Fits s' t := by
  unfold Fits at h ⊢
  split at h
  · exact h.imp habandoned fun hk => Nat.lt_of_lt_of_le hk hinstalls
  · obtain ⟨ch, hc⟩ := h
    exact ⟨ch, hcap _ _ hc⟩
  · obtain ⟨ch, hc⟩ := h
    exact ⟨ch, hcap _ _ hc⟩
  · exact habandoned h
  · exact hdetached _ rfl h
  · trivial

/-! ## The section of `SwapInner` -/

theorem Chans.swapInner (h : Chans s) (st : TStream) : Chans (effect (.swapInner st) s) where
  current ch hch := by
    obtain rfl : s.nextChan = ch := by simpa [effect] using hch
    exact ⟨Nat.lt_succ_self _, h.fresh _ (Nat.le_refl _)⟩
  present _ := ⟨s.nextChan, rfl⟩
  once := h.once
  fresh ch hch := h.fresh ch (Nat.le_of_succ_le hch)

theorem swapInner_replaced (st : TStream) (hch : ch < s.nextChan) :
    (effect (.swapInner st) s).resumeReady ≠ some ch := by
  intro h
  obtain rfl : s.nextChan = ch := by simpa [effect] using h
  exact absurd hch (Nat.lt_irrefl _)

theorem Captured.swapInner (h : Captured s cap ch) (st : TStream) :
    Captured (effect (.swapInner st) s) cap ch where
  ready := h.ready
  made := Nat.lt_succ_of_lt h.made
  installs := Nat.le_succ_of_le h.installs
  quiet hch := absurd hch (swapInner_replaced st h.made)
  news := .inr (.inr (Nat.lt_succ_of_le h.installs))

theorem Detached.swapInner (h : Detached s ch) (st : TStream) :
    Detached (effect (.swapInner st) s) ch :=
  ⟨Nat.lt_succ_of_lt h.made, h.unclosed, swapInner_replaced st h.made⟩

theorem Fits.swapInner (h : Fits s t) (st : TStream) : Fits (effect (.swapInner st) s) t :=
  h.mono (fun _ _ hc => hc.swapInner st) id (Nat.le_succ _) fun _ _ hd => hd.swapInner st

/-! ## The section of `markAbandoned` -/

/-- The section as a whole: the channel that was current is closed and there is none any more,
unless the wrapper was abandoned before. -/
theorem markAbandoned_eq (h : Chans s) :
    (s.abandoned = true ∧ effect .markAbandoned s = { s with sections := s.sections + 1 }) ∨
    ∃ ch, s.abandoned = false ∧ s.resumeReady = some ch ∧
      effect .markAbandoned s =
        { s.closeChan ch with
          resumeReady := none, abandoned := true, sections := s.sections + 1 } := by
  by_cases hab : s.abandoned = true
  · exact .inl ⟨hab, by simp [effect, hab]⟩
  · rw [Bool.not_eq_true] at hab
    obtain ⟨ch, hch⟩ := h.present hab
    exact .inr ⟨ch, hab, hch, by simp [effect, hab, Wrap.closeReady, hch]⟩

theorem markAbandoned_abandoned (h : Chans s) : (effect .markAbandoned s).abandoned = true := by
  obtain ⟨hab, heq⟩ | ⟨ch, -, -, heq⟩ := markAbandoned_eq h <;> rw [heq]
  exact hab

theorem closeChan_of_ne {ch' : Chan} (hne : ch ≠ ch') :
    (s.closeChan ch').closes ch = s.closes ch := by
  simp [Wrap.closeChan, hne]

theorem closeChan_le_one (h : ∀ ch, s.closes ch ≤ 1) (hch : s.closes ch = 0) (ch' : Chan) :
    (s.closeChan ch).closes ch' ≤ 1 := by
  by_cases hne : ch' = ch
  · subst hne
    simp [Wrap.closeChan, hch]
  · rw [closeChan_of_ne hne]
    exact h ch'

theorem Chans.markAbandoned (h : Chans s) : Chans (effect .markAbandoned s) := by
  obtain ⟨-, heq⟩ | ⟨ch, hab, hch, heq⟩ := markAbandoned_eq h <;> rw [heq]
  · exact ⟨h.current, h.present, h.once, h.fresh⟩
  · have hcur := h.current ch hch
    refine ⟨nofun, nofun, closeChan_le_one h.once hcur.2, fun ch' hfresh => ?_⟩
    have hne : ch' ≠ ch := Nat.ne_of_gt (Nat.lt_of_lt_of_le hcur.1 hfresh)
    exact (closeChan_of_ne hne).trans (h.fresh ch' hfresh)

theorem Captured.markAbandoned (hG : Chans s) (h : Captured s cap ch) :
    Captured (effect .markAbandoned s) cap ch := by
  have habandoned := markAbandoned_abandoned hG
  obtain ⟨hab, heq⟩ | ⟨_, -, -, heq⟩ := markAbandoned_eq hG <;> rw [heq] at habandoned ⊢
  · refine ⟨h.ready, h.made, h.installs, fun hch => ?_, .inr (.inl habandoned)⟩
    -- A capture of the current channel of an abandoned wrapper does not exist.
    rw [(h.quiet hch).1] at hab
    cases hab
  · exact ⟨h.ready, h.made, h.installs, nofun, .inr (.inl rfl)⟩

theorem Detached.markAbandoned (hG : Chans s) (h : Detached s ch) :
    Detached (effect .markAbandoned s) ch := by
  obtain ⟨-, heq⟩ | ⟨ch', -, hch', heq⟩ := markAbandoned_eq hG <;> rw [heq]
  · exact ⟨h.made, h.unclosed, h.replaced⟩
  · have hne : ch ≠ ch' := by
      rintro rfl
      exact h.replaced hch'
    exact ⟨h.made, (closeChan_of_ne hne).trans h.unclosed, nofun⟩

theorem Fits.markAbandoned (hG : Chans s) (h : Fits s t) : Fits (effect .markAbandoned s) t := by
  refine h.mono (fun _ _ hc => hc.markAbandoned hG) (fun _ => markAbandoned_abandoned hG) ?_
    fun _ _ hd => hd.markAbandoned hG
  obtain ⟨-, heq⟩ | ⟨ch, -, -, heq⟩ := markAbandoned_eq hG <;> rw [heq]
  all_goals exact Nat.le_refl _

/-! ## Closing a detached channel -/

theorem Chans.closeChan (h : Chans s) (hd : Detached s ch) : Chans (effect (.closeChan ch) s) where
  current ch' hch' := by
    have hne : ch' ≠ ch := by
      rintro rfl
      exact hd.replaced hch'
    exact ⟨(h.current ch' hch').1, (closeChan_of_ne hne).trans (h.current ch' hch').2⟩
  present := h.present
  once := closeChan_le_one h.once hd.unclosed
  fresh ch' hch' := by
    have hne : ch' ≠ ch := Nat.ne_of_gt (Nat.lt_of_lt_of_le hd.made hch')
    exact (closeChan_of_ne hne).trans (h.fresh ch' hch')

theorem Fits.closeChan (hne : t.detached ≠ some ch) (h : Fits s t) :
    Fits (effect (.closeChan ch) s) t := by
  have hd : ∀ ch', t.detached = some ch' → Detached s ch' → Detached (s.closeChan ch) ch' := by
    intro ch' hch' hd
    have : ch' ≠ ch := by
      rintro rfl
      exact hne hch'
    exact ⟨hd.made, (closeChan_of_ne this).trans hd.unclosed, hd.replaced⟩
  exact h.mono (fun _ _ hc => ⟨hc.ready, hc.made, hc.installs, hc.quiet, hc.news⟩) id
    (Nat.le_refl _) hd

/-! ## Every step -/

theorem chans_step (hG : Chans s) (ht : Fits s t) (hm : Moves s t t' e) : Chans (effect e s) := by
  cases hm with
  | swaps => exact hG.swapInner _
  | wakesOthers => exact hG.closeChan ht
  | forgetMarks | closeMarks | closeMarksSelf => exact hG.markAbandoned
  | _ => exact ⟨hG.current, hG.present, hG.once, hG.fresh⟩

/-- A capture at this moment. -/
theorem Captured.now (hG : Chans s) (hab : s.abandoned = false) :
    ∃ ch, Captured s ⟨s.inner, s.resumeReady, s.installs, s.sections⟩ ch := by
  obtain ⟨ch, hch⟩ := hG.present hab
  exact ⟨ch, hch, (hG.current ch hch).1, Nat.le_refl _, fun _ => ⟨hab, rfl⟩, .inl hch⟩

/-- A wake-up brings news. -/
theorem Captured.woken (hG : Chans s) (h : Captured s cap ch) (hw : s.readable cap.ready = true) :
    s.abandoned = true ∨ cap.installs < s.installs := by
  refine h.news.resolve_left fun hch => ?_
  rw [h.ready] at hw
  simp [Wrap.readable, (hG.current ch hch).2] at hw

theorem fits_step (hG : Chans s) (ht : Fits s t) (hm : Moves s t t' e) :
    Fits (effect e s) t' := by
  cases hm with
  | lost _ hab => exact hab
  | capture hab => exact Captured.now hG hab
  | fails => exact ht
  | wakes hw =>
    obtain ⟨ch, hc⟩ := ht
    exact hc.woken hG hw
  | gives hne =>
    rename_i err
    match err, hne with
    | none, _ => trivial
    | some (.inner _), _ => trivial
    | some .streamLost, hne => exact absurd rfl hne
  | swaps =>
    -- The channel that was current is detached now.
    cases hready : s.resumeReady with
    | none => trivial
    | some ch =>
      have hcur := hG.current ch hready
      exact ⟨Nat.lt_succ_of_lt hcur.1, hcur.2, swapInner_replaced _ hcur.1⟩
  | _ => trivial

/-- What a step of one call does to another. -/
theorem fits_other (hG : Chans s) (hu : Fits s u) (hK : Apart t u) (hm : Moves s t t' e) :
    Fits (effect e s) u := by
  cases hm with
  | swaps => exact hu.swapInner _
  | wakesOthers => exact hu.closeChan (hK _ rfl)
  | forgetMarks | closeMarks | closeMarksSelf => exact hu.markAbandoned hG
  | _ =>
    exact hu.mono (fun _ _ hc => ⟨hc.ready, hc.made, hc.installs, hc.quiet, hc.news⟩) id
      (Nat.le_refl _) fun _ _ hd => ⟨hd.made, hd.unclosed, hd.replaced⟩

/-- A call detaches the channel that is current, which no other call has detached. -/
theorem detached_step (hu : Fits s u) (hK : Apart t u) (hm : Moves s t t' e) : Apart t' u := by
  intro ch hch huch
  cases hm with
  | swaps =>
    cases u with
    | swapped old ready =>
      obtain rfl : ready = some ch := huch
      exact hu.replaced hch
    | _ => cases huch
  | _ => cases hch

theorem Apart.symm (h : Apart t u) : Apart u t := fun ch hu ht => h ch ht hu

theorem park_invariants :
    (program ε).Sound initial (fun _ _ _ => true) Chans Fits Apart where
  init := by
    refine ⟨?_, fun _ => ⟨0, rfl⟩, fun _ => Nat.zero_le _, fun _ _ => rfl⟩
    rintro ch hch
    obtain rfl : 0 = ch := by simpa [initial] using hch
    exact ⟨Nat.one_pos, rfl⟩
  idle := ⟨trivial, nofun⟩
  start := by
    intro s t _ he
    cases t with
    | head op failed =>
      cases failed with
      | none => trivial
      | some k => cases op <;> simp [program, entry] at he
    | _ => trivial
  start_other := by
    intro s t u he _
    have hnone : t.detached = none := by
      cases t <;> first | rfl | simp [program, entry] at he
    have hapart : Apart t u := by
      intro ch hch
      rw [hnone] at hch
      cases hch
    exact ⟨hapart, hapart.symm⟩
  step := fun hG ht _ hn => ⟨chans_step hG ht (next_moves hn), fits_step hG ht (next_moves hn)⟩
  other := by
    intro s t u c t' e hG _ hu hK _ hn
    have hapart := detached_step hu hK (next_moves hn)
    exact ⟨fits_other hG hu hK (next_moves hn), hapart, hapart.symm⟩

/-! ## Where every channel is -/

/-- A step takes no channel away: one that is detached after it, and not by the call that moved,
was detached before, and not by that call. -/
theorem placed_step (hG : Chans s) (hm : Moves s t t' e) (hd : Detached (effect e s) ch)
    (hmover : t'.detached ≠ some ch) : Detached s ch ∧ t.detached ≠ some ch := by
  have hmark : Detached (effect .markAbandoned s) ch → Detached s ch := by
    intro hd
    obtain ⟨-, heq⟩ | ⟨ch', -, hch', heq⟩ := markAbandoned_eq hG <;> rw [heq] at hd
    · exact ⟨hd.made, hd.unclosed, hd.replaced⟩
    · -- The channel that was current has just been closed.
      have hne : ch ≠ ch' := by
        rintro rfl
        simpa [Wrap.closeChan] using hd.unclosed
      refine ⟨hd.made, (closeChan_of_ne hne).symm.trans hd.unclosed, fun hch => hne ?_⟩
      simpa [hch'] using hch.symm
  cases hm with
  | swaps =>
    have hne : ch ≠ s.nextChan := by
      rintro rfl
      exact hd.replaced rfl
    exact ⟨⟨Nat.lt_of_le_of_ne (Nat.le_of_lt_succ hd.made) hne, hd.unclosed, hmover⟩, nofun⟩
  | wakesOthers =>
    rename_i ch'
    have hne : ch ≠ ch' := by
      rintro rfl
      simpa [effect, Wrap.closeChan] using hd.unclosed
    refine ⟨⟨hd.made, (closeChan_of_ne hne).symm.trans hd.unclosed, hd.replaced⟩, fun hch => hne ?_⟩
    simpa [Task.detached] using hch.symm
  | forgetMarks | closeMarks | closeMarksSelf => exact ⟨hmark hd, nofun⟩
  | _ => exact ⟨⟨hd.made, hd.unclosed, hd.replaced⟩, nofun⟩

theorem program_idle (s : Wrap) (c : Choice ε) : (program ε).next s (program ε).idle c = none := rfl

variable {p p' : Program.Pool Wrap (Task ε)}

/-- **Every channel is current, closed, or about to be closed by the call that detached it.** -/
theorem placed (h : (machine ε).Reach p) :
    ∀ ch, Detached p.shared ch → ∃ j, (p.threads j).detached = some ch := by
  refine Machine.ReachWhile.invariant (M := machine ε)
    (I := fun p => ∀ ch, Detached p.shared ch → ∃ j, (p.threads j).detached = some ch) ?_ ?_ h
  · rintro ch ⟨hmade, -, hcur⟩
    obtain rfl : ch = 0 := Nat.lt_one_iff.mp hmade
    exact absurd rfl hcur
  · rintro p (t | ⟨i, c⟩) p' hr ih - hst ch hd
    · have hidle := Program.idle_of_count_le program_idle hr p.count (Nat.le_refl _)
      obtain ⟨-, rfl⟩ := Program.start_cases hst
      exact Program.exists_update (Q := fun u : Task ε => u.detached = some ch) (ih ch hd)
        (by rw [hidle]; nofun)
    · have hG := (Program.invariant_reach park_invariants hr).shared
      obtain ⟨t', e, hn, rfl⟩ := Program.run_cases hst
      by_cases hmover : t'.detached = some ch
      · exact ⟨i, by simpa using hmover⟩
      · obtain ⟨hd', hne⟩ := placed_step hG (next_moves hn) hd hmover
        exact Program.exists_update (Q := fun u : Task ε => u.detached = some ch) (ih ch hd') hne

/-! ## The protocol -/

/-- What the park/wake protocol promises of a state. -/
structure ParkWake (p : Program.Pool Wrap (Task ε)) : Prop where
  /-- No channel is closed twice. -/
  closed_once : ∀ ch, p.shared.closes ch ≤ 1
  /-- A waiting call whose capture was followed by a section of `SwapInner` or `markAbandoned` has
  been woken, or is about to be woken by the `SwapInner` that detached its channel. -/
  no_lost_wakeup : ∀ i op cap e, p.threads i = .wait op cap e →
    cap.sections < p.shared.sections → ∃ ch, cap.ready = some ch ∧
      (0 < p.shared.closes ch ∨ ∃ j old, p.threads j = .swapped old (some ch))
  /-- A call that has been woken finds the wrapper abandoned, or an inner that was installed after
  the one that failed. -/
  woken_by_news : ∀ i op k, p.threads i = .head op (some k) →
    p.shared.abandoned = true ∨ k < p.shared.installs
  /-- A call that finds the wrapper abandoned returns `ErrStreamLost` and does nothing more. -/
  lost_returns : ∀ i op failed c p', p.threads i = .head op failed → op.more = true →
    p.shared.abandoned = true → (machine ε).step p (.run i c) = some p' →
    ∀ p'', (machine ε).ReachFrom p' p'' → p''.threads i = .returned op (some .streamLost)
  /-- `ErrStreamLost` is returned on an abandoned wrapper only. -/
  lost_only_abandoned : ∀ i op, p.threads i = .returned op (some .streamLost) →
    p.shared.abandoned = true

theorem no_lost_wakeup (h : (machine ε).Reach p) {i : ℕ} {op : Op} {cap : Capture} {e : ε}
    (hi : p.threads i = .wait op cap e) (hsec : cap.sections < p.shared.sections) :
    ∃ ch, cap.ready = some ch ∧
      (0 < p.shared.closes ch ∨ ∃ j old, p.threads j = .swapped old (some ch)) := by
  have hinv := Program.invariant_reach park_invariants h
  have hfits := hinv.thread i
  rw [hi] at hfits
  obtain ⟨ch, hc⟩ := hfits
  refine ⟨ch, hc.ready, ?_⟩
  by_cases hclosed : 0 < p.shared.closes ch
  · exact .inl hclosed
  · have hreplaced : p.shared.resumeReady ≠ some ch := fun hcur =>
      absurd (hc.quiet hcur).2 (Nat.ne_of_lt hsec)
    obtain ⟨j, hj⟩ := placed h ch ⟨hc.made, Nat.eq_zero_of_not_pos hclosed, hreplaced⟩
    refine .inr ⟨j, ?_⟩
    cases ht : p.threads j with
    | swapped old ready =>
      rw [ht] at hj
      exact ⟨old, by rw [show ready = some ch from hj]⟩
    | _ =>
      rw [ht] at hj
      cases hj

theorem lost_returns (h : (machine ε).Reach p) {i : ℕ} {op : Op} {failed : Option ℕ}
    {c : Choice ε} (hi : p.threads i = .head op failed) (hmore : op.more = true)
    (hab : p.shared.abandoned = true) (hst : (machine ε).step p (.run i c) = some p')
    {p'' : Program.Pool Wrap (Task ε)} (hr : (machine ε).ReachFrom p' p'') :
    p''.threads i = .returned op (some .streamLost) := by
  have hreach : (machine ε).Reach p' := h.step hst
  obtain ⟨t, e, hn, rfl⟩ := Program.run_cases hst
  have ht : t = .returned op (some .streamLost) := by
    have hm := next_moves hn
    rw [hi] at hm
    cases hm with
    | loopEnd hend => rw [hmore] at hend; cases hend
    | lost => rfl
    | capture hnot => rw [hab] at hnot; cases hnot
  refine Program.final_thread (P := program ε) program_idle ?_ (fun _ _ => rfl) hreach ?_ hr
  · nofun
  · simpa using ht

/-- **The park/wake protocol is sound**, in every state of every interleaving of any number of
calls. -/
theorem park_wake_sound (h : (machine ε).Reach p) : ParkWake p where
  closed_once := (Program.invariant_reach park_invariants h).shared.once
  no_lost_wakeup _ _ _ _ hi hsec := no_lost_wakeup h hi hsec
  woken_by_news i op k hi := by
    have hfits := (Program.invariant_reach park_invariants h).thread i
    rwa [hi] at hfits
  lost_returns _ _ _ _ _ hi hmore hab hst _ hr := lost_returns h hi hmore hab hst hr
  lost_only_abandoned i op hi := by
    have hfits := (Program.invariant_reach park_invariants h).thread i
    rwa [hi] at hfits

/-- A `Read` fails and parks, a migration replaces the inner and has not yet closed the channel the
`Read` waits on. -/
def parked : List (Program.Act (Task ℕ) (Choice ℕ)) :=
  [.start (.head .read none), .run 0 .ok, .run 0 (.io 0 (some (.transport 5))),
   .start .migrate, .run 1 .ok, .run 1 .ok, .run 1 .ok]

theorem park_wake_sound_parked :
    ∃ p, (machine ℕ).run (machine ℕ).init parked = some p ∧
      p.threads 0 = .wait .read ⟨0, some 0, 0, 0⟩ 5 ∧ p.shared.sections = 1 ∧ ParkWake p :=
  ⟨_, rfl, rfl, rfl, park_wake_sound (Machine.reach_of_run (M := machine ℕ) parked rfl)⟩

end OutRelayAgent.Wrapper
