import Mathlib.Data.List.Basic
import Mathlib.Tactic.Common

/-!
# `Read` and `Write` of a `ResumableStream`, with a clock

Model of `ResumableStream.Read`, `Write` and `waitForResume` (`session.go:457-548`). A call loops:
it captures `(inner, resumeReady)` in one lock section, calls the inner stream, and on a non-EOF
error waits for the captured channel to be closed, until a deadline fixed when the call began
(`time.Now().Add(ResumeRetryWindow)` at the top of the function).

* Times are natural numbers, in nanoseconds. `Lifetime` says when `SwapInner` and `markAbandoned`
  take effect on the wrapper during the call.
* The environment plays the inner streams: one `Attempt` for each pass of the loop, with the time of
  the capture, what the inner returned, and the clock when `waitForResume` reads it.
* When the channel closes at the very instant the timer fires, `select` takes either case (`tie`).

`retry_window_iff`: the window runs from the beginning of the call, not from the failure. A call
goes on past a failed inner exactly when the failure and a `SwapInner` after the capture both come
before the call is `ResumeRetryWindow` old; `idle_read_fails` is a `Read` that was idle for longer,
and gets the error that the `CancelRead` of its own migration caused.
-/

namespace OutRelayAgent.Stream

/-- `time.Second`. -/
def second : ℕ := 1000000000

/-- `ResumeRetryWindow`, 30 seconds. -/
def resumeRetryWindow : ℕ := 30 * second

/-- What an inner stream can fail with: `io.EOF`, or a failure of the transport. -/
inductive InnerError (ε : Type)
  | eof
  | transport (e : ε)

/-- What `Read` and `Write` return as error. -/
inductive Error (ε : Type)
  | inner (e : InnerError ε)
  /-- `ErrStreamLost`. -/
  | streamLost

/-- When `SwapInner` and `markAbandoned` take effect on a wrapper. -/
structure Lifetime where
  swaps : List ℕ
  sorted : swaps.Pairwise (· ≤ ·)
  abandonedAt : Option ℕ

namespace Lifetime

variable (h : Lifetime)

/-- How many inners have been installed after the first by the time `c`. -/
def generation (c : ℕ) : ℕ := h.swaps.countP (· ≤ c)

/-- The first `SwapInner` after `c`. -/
def nextSwap (c : ℕ) : Option ℕ := h.swaps.find? (c < ·)

def abandonedBy (c : ℕ) : Bool := h.abandonedAt.any (· ≤ c)

/-- When the channel that was current at `c` is closed: by the next `SwapInner`, or by
`markAbandoned`. -/
def readyClosed (c : ℕ) : Option ℕ :=
  match h.nextSwap c, h.abandonedAt with
  | some s, some a => some (min s a)
  | some s, none => some s
  | none, a => a

end Lifetime

/-- One pass of the loop of `Read` or `Write`, as the environment plays it. -/
structure Attempt (ρ ε : Type) where
  /-- When `(inner, resumeReady)` are captured. -/
  captureAt : ℕ
  /-- What the inner call delivered (`Read`), or how much it accepted (`Write`). -/
  result : ρ
  err : Option (InnerError ε)
  /-- The clock when the inner call has returned. -/
  now : ℕ
  /-- The case `select` takes when both are ready. -/
  tie : Bool

/-- `waitForResume(ready, deadline)` at the time `now`, `ready` closing at the given time. -/
def waitForResume (now deadline : ℕ) (ready : Option ℕ) (tie : Bool) : Bool :=
  if deadline ≤ now then false
  else
    match ready with
    | none => false
    | some c => if c < deadline then true else if c = deadline then tie else false

variable {β ρ ε : Type}

/-- The wait after a failed pass. -/
def Attempt.waits (h : Lifetime) (deadline : ℕ) (a : Attempt ρ ε) : Bool :=
  waitForResume a.now deadline (h.readyClosed a.captureAt) a.tie

def Attempt.withTie (a : Attempt ρ ε) (tie : Bool) : Attempt ρ ε := { a with tie := tie }

/-- A call that has returned, with what it did and its error, or is still in the inner stream. -/
inductive Outcome (ρ ε : Type)
  | blocked (done : ρ)
  | returned (done : ρ) (err : Option (Error ε))

/-- What `Read` returns, and the calls of `state.OnRead`. -/
structure ReadDone (β : Type) where
  bytes : List β
  onRead : List ℕ

/-- The loop of `Read`. -/
def readLoop (h : Lifetime) (deadline : ℕ) :
    List (Attempt (List β) ε) → Outcome (ReadDone β) ε
  | [] => .blocked ⟨[], []⟩
  | a :: as =>
    if h.abandonedBy a.captureAt then .returned ⟨[], []⟩ (some .streamLost)
    else if a.result ≠ [] then
      .returned ⟨a.result, [a.result.length]⟩ (a.err.map .inner)
    else
      match a.err with
      | none => .returned ⟨[], []⟩ none
      | some .eof => .returned ⟨[], []⟩ (some (.inner .eof))
      | some (.transport e) =>
        if a.waits h deadline then readLoop h deadline as
        else .returned ⟨[], []⟩ (some (.inner (.transport e)))

/-- `ResumableStream.Read`, called at the time `t₀`. -/
def read (h : Lifetime) (t₀ : ℕ) (as : List (Attempt (List β) ε)) : Outcome (ReadDone β) ε :=
  readLoop h (t₀ + resumeRetryWindow) as

/-- How much `Write` has written, and the slices passed to `state.OnWrite`. -/
structure WriteDone (β : Type) where
  written : ℕ
  onWrite : List (List β)

/-- The inner stream accepts `n` bytes of `p[written:]`. -/
def WriteDone.accept (p : List β) (n : ℕ) (d : WriteDone β) : WriteDone β where
  written := d.written + n
  onWrite := if 0 < n then d.onWrite ++ [(p.drop d.written).take n] else d.onWrite

/-- The loop of `Write`. -/
def writeLoop (h : Lifetime) (deadline : ℕ) (p : List β) :
    WriteDone β → List (Attempt ℕ ε) → Outcome (WriteDone β) ε
  | d, [] => if d.written < p.length then .blocked d else .returned d none
  | d, a :: as =>
    if ¬ d.written < p.length then .returned d none
    else if h.abandonedBy a.captureAt then .returned d (some .streamLost)
    else if (d.accept p a.result).written = p.length then .returned (d.accept p a.result) none
    else
      match a.err with
      | none => writeLoop h deadline p (d.accept p a.result) as
      | some .eof => .returned (d.accept p a.result) (some (.inner .eof))
      | some (.transport e) =>
        if a.waits h deadline then writeLoop h deadline p (d.accept p a.result) as
        else .returned (d.accept p a.result) (some (.inner (.transport e)))

/-- `ResumableStream.Write`, called at the time `t₀`. -/
def write (h : Lifetime) (t₀ : ℕ) (p : List β) (as : List (Attempt ℕ ε)) :
    Outcome (WriteDone β) ε :=
  writeLoop h (t₀ + resumeRetryWindow) p ⟨0, []⟩ as

/-! ## Waiting -/

/-- A wait succeeds, whatever `select` picks, exactly when it begins before the deadline and the
channel closes before it. -/
theorem waitForResume_iff {now deadline : ℕ} {ready : Option ℕ} :
    (∀ tie, waitForResume now deadline ready tie = true) ↔
      now < deadline ∧ ∃ c ∈ ready, c < deadline := by
  unfold waitForResume
  by_cases hnow : deadline ≤ now
  · simp [hnow, Nat.not_lt.mpr hnow]
  · cases ready with
    | none => simp [hnow]
    | some c =>
      by_cases hc : c < deadline
      · simp [hnow, hc, Nat.lt_of_not_le hnow]
      · simp [hnow, hc]

namespace Lifetime

variable {h : Lifetime} {c : ℕ}

/-- The next swap comes before the deadline exactly when some later swap does. -/
theorem nextSwap_lt_iff {deadline : ℕ} :
    (∃ s ∈ h.nextSwap c, s < deadline) ↔ ∃ s ∈ h.swaps, c < s ∧ s < deadline := by
  constructor
  · rintro ⟨s, hs, hlt⟩
    have hfound := List.find?_some hs
    exact ⟨s, List.mem_of_find?_eq_some hs, by simpa using hfound, hlt⟩
  · rintro ⟨s, hs, hc, hlt⟩
    -- The first later swap in the list is the earliest, the list being sorted.
    cases hn : h.nextSwap c with
    | none =>
      have := List.find?_eq_none.mp hn s hs
      exact absurd hc (by simpa using this)
    | some s' =>
      refine ⟨s', rfl, Nat.lt_of_le_of_lt ?_ hlt⟩
      obtain ⟨_, l₁, l₂, hl, hbefore⟩ := List.find?_eq_some_iff_append.mp hn
      have hsorted := h.sorted
      rw [hl] at hs hsorted
      rcases List.mem_append.mp hs with hmem | hmem
      · exact absurd hc (by simpa using hbefore s hmem)
      · rcases List.mem_cons.mp hmem with rfl | hmem
        · exact Nat.le_refl _
        · exact (List.pairwise_cons.mp (List.pairwise_append.mp hsorted).2.1).1 s hmem

/-- A capture at or after a swap sees a later inner than one before it. -/
theorem generation_lt {s c' : ℕ} (hs : s ∈ h.swaps) (hc : c < s) (hc' : s ≤ c') :
    h.generation c < h.generation c' := by
  obtain ⟨l₁, l₂, hl⟩ := List.append_of_mem hs
  have hmono : ∀ l : List ℕ, l.countP (· ≤ c) ≤ l.countP (· ≤ c') := fun l =>
    List.countP_mono_left fun x _ hx => by
      simp only [decide_eq_true_eq] at hx ⊢
      omega
  have h₁ := hmono l₁
  have h₂ := hmono l₂
  simp only [generation, hl, List.countP_append, List.countP_cons, decide_eq_true_eq, hc', if_true,
    Nat.not_le.mpr hc, if_false]
  omega

end Lifetime

/-! ## The window -/

section Window

variable {h : Lifetime} {deadline : ℕ}

/-- `Read` goes on to its next pass after `a`, whatever `select` picks. -/
def ReadGoesOn (h : Lifetime) (deadline : ℕ) (a : Attempt (List β) ε) : Prop :=
  ∀ tie as, readLoop h deadline (a.withTie tie :: as) = readLoop h deadline as

/-- `Write` goes on to its next pass after `a`, having written `d` before. -/
def WriteGoesOn (h : Lifetime) (deadline : ℕ) (p : List β) (d : WriteDone β)
    (a : Attempt ℕ ε) : Prop :=
  ∀ tie as, writeLoop h deadline p d (a.withTie tie :: as) =
    writeLoop h deadline p (d.accept p a.result) as

/-- The wait after a failed pass, on a wrapper that is not abandoned. -/
theorem waits_iff (hlive : h.abandonedAt = none) (a : Attempt ρ ε) :
    (∀ tie, (a.withTie tie).waits h deadline = true) ↔
      a.now < deadline ∧ ∃ s ∈ h.swaps, a.captureAt < s ∧ s < deadline := by
  have hready : h.readyClosed a.captureAt = h.nextSwap a.captureAt := by
    unfold Lifetime.readyClosed
    rw [hlive]
    cases h.nextSwap a.captureAt <;> rfl
  rw [← Lifetime.nextSwap_lt_iff, ← waitForResume_iff, ← hready]
  rfl

theorem readLoop_failed (hlive : h.abandonedAt = none) {a : Attempt (List β) ε}
    {e : ε} (hnone : a.result = []) (herr : a.err = some (.transport e))
    (as : List (Attempt (List β) ε)) :
    readLoop h deadline (a :: as) =
      if a.waits h deadline then readLoop h deadline as
      else .returned ⟨[], []⟩ (some (.inner (.transport e))) := by
  simp [readLoop, Lifetime.abandonedBy, hlive, hnone, herr]

theorem writeLoop_failed (hlive : h.abandonedAt = none) {p : List β}
    {d : WriteDone β} {a : Attempt ℕ ε} {e : ε} (hshort : d.written + a.result < p.length)
    (herr : a.err = some (.transport e)) (as : List (Attempt ℕ ε)) :
    writeLoop h deadline p d (a :: as) =
      if a.waits h deadline then writeLoop h deadline p (d.accept p a.result) as
      else .returned (d.accept p a.result) (some (.inner (.transport e))) := by
  have hlt : d.written < p.length := Nat.lt_of_le_of_lt (Nat.le_add_right _ _) hshort
  have hne : d.written + a.result ≠ p.length := Nat.ne_of_lt hshort
  simp [writeLoop, Lifetime.abandonedBy, hlive, hlt, hne, herr, WriteDone.accept]

theorem readGoesOn_iff (hlive : h.abandonedAt = none) {a : Attempt (List β) ε} {e : ε}
    (hnone : a.result = []) (herr : a.err = some (.transport e)) :
    ReadGoesOn h deadline a ↔ ∀ tie, (a.withTie tie).waits h deadline = true := by
  have hpass : ∀ tie as, readLoop h deadline (a.withTie tie :: as) = _ := fun tie =>
    readLoop_failed (a := a.withTie tie) hlive hnone herr
  constructor
  · -- With no further pass a call that goes on is blocked, and one that does not has returned.
    intro hgo tie
    by_contra hw
    have hcall := hgo tie []
    rw [hpass, if_neg hw] at hcall
    cases hcall
  · intro hw tie as
    rw [hpass, if_pos (hw tie)]

theorem writeGoesOn_iff (hlive : h.abandonedAt = none) {p : List β} {d : WriteDone β}
    {a : Attempt ℕ ε} {e : ε} (hshort : d.written + a.result < p.length)
    (herr : a.err = some (.transport e)) :
    WriteGoesOn h deadline p d a ↔ ∀ tie, (a.withTie tie).waits h deadline = true := by
  have hblocked : (d.accept p a.result).written < p.length := hshort
  have hpass : ∀ tie as, writeLoop h deadline p d (a.withTie tie :: as) = _ := fun tie =>
    writeLoop_failed (a := a.withTie tie) hlive hshort herr
  constructor
  · intro hgo tie
    by_contra hw
    have hcall := hgo tie []
    rw [hpass, if_neg hw, writeLoop, if_pos hblocked] at hcall
    cases hcall
  · intro hw tie as
    rw [hpass, if_pos (hw tie)]
    rfl

/-- **A call retries exactly while it is younger than `ResumeRetryWindow`.** The call began at `t₀`.
A pass of it, on a wrapper that is not abandoned, gets a non-EOF error from the inner it captured:
without data for `Read`, short for `Write`. The call then goes on to its next pass if and only if
the error and some `SwapInner` after the capture both come before `t₀ + ResumeRetryWindow`. What it
captures after that `SwapInner` is a later inner. -/
theorem retry_window_iff (h : Lifetime) (t₀ : ℕ) (hlive : h.abandonedAt = none) :
    (∀ (a : Attempt (List β) ε) e, a.result = [] → a.err = some (.transport e) →
      (ReadGoesOn h (t₀ + resumeRetryWindow) a ↔
        a.now < t₀ + resumeRetryWindow ∧
          ∃ s ∈ h.swaps, a.captureAt < s ∧ s < t₀ + resumeRetryWindow)) ∧
    (∀ (p : List β) d (a : Attempt ℕ ε) e, d.written + a.result < p.length →
      a.err = some (.transport e) →
      (WriteGoesOn h (t₀ + resumeRetryWindow) p d a ↔
        a.now < t₀ + resumeRetryWindow ∧
          ∃ s ∈ h.swaps, a.captureAt < s ∧ s < t₀ + resumeRetryWindow)) ∧
    (∀ s ∈ h.swaps, ∀ c c', c < s → s ≤ c' → h.generation c < h.generation c') := by
  refine ⟨fun a e hnone herr => ?_, fun p d a e hshort herr => ?_,
    fun s hs c c' hc hc' => Lifetime.generation_lt hs hc hc'⟩
  · rw [readGoesOn_iff hlive hnone herr, waits_iff hlive]
  · rw [writeGoesOn_iff hlive hshort herr, waits_iff hlive]

end Window

/-- One `SwapInner`, at 40 seconds. -/
def swappedAt40 : Lifetime := ⟨[40 * second], by simp, none⟩

/-- A pass that captures an idle inner, whose `Read` ends at 40 seconds with the `CancelRead` of
that swap. -/
def cancelled (captureAt : ℕ) : Attempt (List ℕ) Unit :=
  ⟨captureAt, [], some (.transport ()), 40 * second, true⟩

/-- The inner installed then delivers a byte. -/
def delivered : Attempt (List ℕ) Unit := ⟨41 * second, [7], none, 42 * second, true⟩

/-- A `Read` that began at 20 seconds goes on to the new inner. -/
theorem retry_window_iff_cancelled :
    ReadGoesOn swappedAt40 (20 * second + resumeRetryWindow) (cancelled (20 * second)) := by
  refine ((retry_window_iff swappedAt40 (20 * second) rfl).1 _ () rfl rfl).mpr ?_
  exact ⟨by decide, 40 * second, by decide, by decide, by decide⟩

/-- **An idle `Read` is ended by the migration of its stream.** It began at 5 seconds; the swap
takes effect at the moment of the error, well within 30 seconds of it, and the new inner has
data. -/
theorem idle_read_fails :
    read swappedAt40 (5 * second) [cancelled (5 * second), delivered] =
      .returned ⟨[], []⟩ (some (.inner (.transport ()))) ∧
    ∃ s ∈ swappedAt40.swaps, 5 * second < s ∧ s ≤ 40 * second + resumeRetryWindow :=
  ⟨rfl, 40 * second, by decide, by decide, by decide⟩

end OutRelayAgent.Stream
