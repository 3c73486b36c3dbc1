import OutRelayAgent.Lib.Machine
import OutRelayAgent.Stream.Io
import Mathlib.Tactic.IntervalCases

/-!
# The pace of reconnecting

Model of the loops of `RunWithReconnect` (`session.go:806-854`), with a clock. `Run` ends, and then
`Reconnect` is called until it returns `nil`, with a pause after each failure that doubles up to 30
seconds. `Session/Attempts.lean` has what a call of `Reconnect` does; here it takes any time, it
fails or it does not, and once it replays the streams it can no longer fail.

The clock runs freely. A timer fires when it is due or later. One stream is followed: `woken` has
the times when `Reconnect` replaced its inner or dropped it, which is what ends the wait of a parked
`Read` or `Write`.

* `attempts_paced`: the attempts of an outage never come faster than the pauses allow, no stream is
  resumed before the last of them, and `s.reconnecting` is set exactly during an outage. Nothing
  reads that flag.
* `pending_calls_fail`: the first five pauses make 31 seconds, and `ResumeRetryWindow` is 30. After
  five failed attempts every `Read` and `Write` has given up that was pending when the connection
  was lost, before `Reconnect` gets to the stream, which it then resumes for nobody.
-/

namespace OutRelayAgent.Supervise

open Lib
open OutRelayAgent.Stream

section Model

/-- `maxBackoff` -/
def maxBackoff : ℕ := 30 * second

/-- `if backoff < maxBackoff { backoff *= 2; if backoff > maxBackoff { backoff = maxBackoff } }` -/
def nextBackoff (backoff : ℕ) : ℕ :=
  if backoff < maxBackoff then
    if backoff * 2 > maxBackoff then maxBackoff else backoff * 2
  else backoff

/-- Where `RunWithReconnect` is. -/
inductive Phase
  /-- In `Run`. -/
  | running
  /-- In `Reconnect`, before the streams. -/
  | attempting (backoff : ℕ)
  /-- In `Reconnect`, at the streams. -/
  | resuming
  /-- In the `select`, the timer being due at `due`. -/
  | waiting (backoff due : ℕ)
  | returned
  deriving DecidableEq

/-- Between the loss of a connection and the next. -/
def Phase.lost : Phase → Bool
  | .attempting _ | .resuming | .waiting _ _ => true
  | .running | .returned => false

structure World where
  now : ℕ
  phase : Phase
  /-- `s.reconnecting` -/
  reconnecting : Bool
  /-- When the last outage began. -/
  lostAt : ℕ
  /-- When the attempts of that outage began. -/
  attempts : List ℕ
  /-- When they have replaced the inner of the stream, or dropped it. -/
  woken : List ℕ
  deriving DecidableEq

inductive Act
  /-- Time passes. -/
  | pass (d : ℕ)
  /-- `Run` returns `nil`, the context being cancelled, or an error. -/
  | runReturns (cancelled : Bool)
  /-- `Reconnect` returns an error. -/
  | fails
  /-- `Reconnect` has a connection, with everything registered. -/
  | connects
  /-- `Reconnect` replaces the inner of the stream, or drops it. -/
  | wakes
  /-- `Reconnect` returns `nil`. -/
  | succeeds
  /-- `<-time.After(backoff)` -/
  | timer
  /-- `<-ctx.Done()` -/
  | ctxDone

def step (w : World) : Act → Option World
  | .pass d => some { w with now := w.now + d }
  | .runReturns cancelled =>
    match w.phase with
    | .running =>
      if cancelled then some { w with phase := .returned }
      else
        some { w with phase := .attempting second, reconnecting := true, lostAt := w.now,
                      attempts := [w.now], woken := [] }
    | _ => none
  | .fails =>
    match w.phase with
    | .attempting backoff => some { w with phase := .waiting backoff (w.now + backoff) }
    | _ => none
  | .connects =>
    match w.phase with
    | .attempting _ => some { w with phase := .resuming }
    | _ => none
  | .wakes =>
    match w.phase with
    | .resuming => some { w with woken := w.woken ++ [w.now] }
    | _ => none
  | .succeeds =>
    match w.phase with
    | .resuming => some { w with phase := .running, reconnecting := false }
    | _ => none
  | .timer =>
    match w.phase with
    | .waiting backoff due =>
      if due ≤ w.now then
        some { w with
          phase := .attempting (nextBackoff backoff)
          attempts := w.attempts ++ [w.now] }
      else none
    | _ => none
  | .ctxDone =>
    match w.phase with
    | .waiting _ _ => some { w with phase := .returned, reconnecting := false }
    | _ => none

/-- `RunWithReconnect`. -/
def runWithReconnect : Machine World Act where
  init := ⟨0, .running, false, 0, [], []⟩
  step := step

end Model

/-! ## The pauses -/

section Pauses

/-- The pause after the failure of attempt `k`, counted from 0. -/
def pause (k : ℕ) : ℕ := min (2 ^ k) 30 * second

/-- The pauses before attempt `k`. -/
def waited : ℕ → ℕ
  | 0 => 0
  | k + 1 => waited k + pause k

theorem nextBackoff_pause (k : ℕ) : nextBackoff (pause k) = pause (k + 1) := by
  have hpow : 2 ^ (k + 1) = 2 ^ k * 2 := rfl
  unfold nextBackoff pause maxBackoff second
  rw [hpow]
  split_ifs <;> omega

theorem pause_eq_max {k : ℕ} (h : 5 ≤ k) : pause k = maxBackoff := by
  have hpow : 2 ^ 5 ≤ 2 ^ k := Nat.pow_le_pow_right (by decide) h
  rw [pause, maxBackoff, Nat.min_eq_right (by omega)]

theorem waited_mono {j k : ℕ} (h : j ≤ k) : waited j ≤ waited k := by
  induction h with
  | refl => exact Nat.le_refl _
  | step _ ih => exact Nat.le_trans ih (Nat.le_add_right _ _)

/-- Half a minute each, but for the first five. -/
theorem le_waited (k : ℕ) : maxBackoff * k ≤ waited k + 119 * second := by
  induction k with
  | zero => exact Nat.zero_le _
  | succ k ih =>
    by_cases h : 5 ≤ k
    · rw [waited, pause_eq_max h, Nat.mul_succ]
      omega
    · have hk : k < 5 := Nat.lt_of_not_le h
      interval_cases k <;> decide

end Pauses

/-! ## The run -/

section Run

variable {w w' : World} {a : Act}

/-- What is known where `RunWithReconnect` is. -/
def At (w : World) : Phase → Prop
  | .attempting backoff =>
    ∃ k, w.attempts.length = k + 1 ∧ backoff = pause k ∧ w.woken = []
  | .waiting backoff due =>
    ∃ k, w.attempts.length = k + 1 ∧ backoff = pause k ∧ w.woken = [] ∧
      w.lostAt + waited (k + 1) ≤ due
  | _ => True

structure Inv (w : World) : Prop where
  flag : w.reconnecting = w.phase.lost
  since : w.lostAt ≤ w.now
  /-- The attempts come after the pauses before them. -/
  starts : ∀ k t, w.attempts[k]? = some t → w.lostAt + waited k ≤ t ∧ t ≤ w.now
  woken : ∀ t ∈ w.woken, w.lostAt + waited (w.attempts.length - 1) ≤ t
  position : At w w.phase

/-- The last attempt has begun after all the pauses. -/
theorem Inv.last_start (h : Inv w) : w.lostAt + waited (w.attempts.length - 1) ≤ w.now := by
  rcases List.eq_nil_or_concat w.attempts with hnil | ⟨before, t, hlast⟩
  · simpa [hnil, waited] using h.since
  · have hget : w.attempts[w.attempts.length - 1]? = some t := by simp [hlast]
    obtain ⟨hle, hnow⟩ := h.starts _ _ hget
    exact Nat.le_trans hle hnow

theorem Inv.pass (h : Inv w) (d : ℕ) : Inv { w with now := w.now + d } where
  flag := h.flag
  since := Nat.le_trans h.since (Nat.le_add_right _ _)
  starts k t ht := ⟨(h.starts k t ht).1, Nat.le_trans (h.starts k t ht).2 (Nat.le_add_right _ _)⟩
  woken := h.woken
  position := by
    have hpos := h.position
    unfold At at hpos ⊢
    exact hpos

/-- A new outage. -/
theorem inv_lost (w : World) :
    Inv { w with phase := .attempting second, reconnecting := true, lostAt := w.now,
                 attempts := [w.now], woken := [] } where
  flag := rfl
  since := Nat.le_refl _
  starts k t ht := by
    obtain ⟨rfl, rfl⟩ : k = 0 ∧ w.now = t := by
      cases k <;> simp_all
    exact ⟨Nat.le_refl _, Nat.le_refl _⟩
  woken t ht := by cases ht
  position := ⟨0, rfl, rfl, rfl⟩

/-- The timer, and the next attempt. -/
theorem Inv.retries {backoff due : ℕ} (h : Inv w) (hp : w.phase = .waiting backoff due)
    (hdue : due ≤ w.now) :
    Inv { w with
      phase := .attempting (nextBackoff backoff)
      attempts := w.attempts ++ [w.now] } := by
  have hpos := h.position
  rw [hp] at hpos
  obtain ⟨k, hk, rfl, hwoken, hwait⟩ := hpos
  refine ⟨?_, h.since, fun j t ht => ?_, fun t ht => ?_, k + 1, ?_, ?_, hwoken⟩
  · rw [h.flag, hp]
    rfl
  · rcases Nat.lt_trichotomy j w.attempts.length with hlt | heq | hgt
    · rw [List.getElem?_append_left hlt] at ht
      exact h.starts j t ht
    · subst heq
      obtain rfl : w.now = t := by simpa using ht
      rw [hk]
      exact ⟨Nat.le_trans hwait hdue, Nat.le_refl _⟩
    · have hnone : (w.attempts ++ [w.now])[j]? = none := by
        rw [List.getElem?_eq_none_iff, List.length_append, List.length_singleton]
        exact hgt
      rw [hnone] at ht
      cases ht
  · rw [hwoken] at ht
    cases ht
  · simp [hk]
  · exact nextBackoff_pause k

theorem inv_step (h : Inv w) (hs : step w a = some w') : Inv w' := by
  cases a with
  | pass d =>
    cases hs
    exact h.pass d
  | runReturns cancelled =>
    simp only [step] at hs
    split at hs
    · rename_i hp
      split at hs
      · cases hs
        exact ⟨by rw [h.flag, hp]; rfl, h.since, h.starts, h.woken, trivial⟩
      · cases hs
        exact inv_lost w
    · cases hs
  | fails =>
    simp only [step] at hs
    split at hs
    · rename_i backoff hp
      cases hs
      have hpos := h.position
      rw [hp] at hpos
      obtain ⟨k, hk, rfl, hwoken⟩ := hpos
      have hlast := h.last_start
      rw [hk] at hlast
      refine ⟨by rw [h.flag, hp]; rfl, h.since, h.starts, h.woken, k, hk, rfl, hwoken, ?_⟩
      simp only [waited, Nat.add_sub_cancel] at hlast ⊢
      omega
    · cases hs
  | connects =>
    simp only [step] at hs
    split at hs
    · rename_i hp
      cases hs
      exact ⟨by rw [h.flag, hp]; rfl, h.since, h.starts, h.woken, trivial⟩
    · cases hs
  | wakes =>
    simp only [step] at hs
    split at hs
    · rename_i hp
      cases hs
      refine ⟨h.flag, h.since, h.starts, fun t ht => ?_, by rw [hp]; trivial⟩
      rcases List.mem_append.mp ht with ht | ht
      · exact h.woken t ht
      · rw [List.mem_singleton.mp ht]
        exact h.last_start
    · cases hs
  | succeeds =>
    simp only [step] at hs
    split at hs
    · cases hs
      exact ⟨rfl, h.since, h.starts, h.woken, trivial⟩
    · cases hs
  | timer =>
    simp only [step] at hs
    split at hs
    · rename_i backoff due hp
      split at hs
      · rename_i hdue
        cases hs
        exact h.retries hp hdue
      · cases hs
    · cases hs
  | ctxDone =>
    simp only [step] at hs
    split at hs
    · cases hs
      exact ⟨rfl, h.since, h.starts, h.woken, trivial⟩
    · cases hs

theorem inv_init : Inv runWithReconnect.init where
  flag := rfl
  since := Nat.le_refl _
  starts k t ht := by simp [runWithReconnect] at ht
  woken t ht := by cases ht
  position := trivial

theorem reach_inv (h : runWithReconnect.Reach w) : Inv w :=
  Machine.Reach.invariant inv_init (fun _ _ _ hw hs => inv_step hw hs) h

/-- An outage after 100 seconds in which five attempts fail at once, and the sixth succeeds. -/
def outage : List Act :=
  [.pass (100 * second), .runReturns false, .fails, .pass second, .timer, .fails,
    .pass (2 * second), .timer, .fails, .pass (4 * second), .timer, .fails, .pass (8 * second),
    .timer, .fails, .pass (16 * second), .timer, .connects, .wakes]

def recovering : World where
  now := 131 * second
  phase := .resuming
  reconnecting := true
  lostAt := 100 * second
  attempts := [100 * second, 101 * second, 103 * second, 107 * second, 115 * second, 131 * second]
  woken := [131 * second]

theorem reach_recovering : runWithReconnect.Reach recovering :=
  Machine.reach_of_run outage (by decide)

/-- **Attempts keep their distance.** -/
theorem attempts_paced (h : runWithReconnect.Reach w) :
    (w.reconnecting = true ↔ w.phase.lost = true) ∧
    (∀ k t, w.attempts[k]? = some t → w.lostAt + waited k ≤ t) ∧
    (∀ t ∈ w.woken, w.lostAt + waited (w.attempts.length - 1) ≤ t) ∧
    maxBackoff * w.attempts.length ≤ w.now - w.lostAt + 149 * second := by
  have hw := reach_inv h
  refine ⟨by rw [hw.flag], fun k t ht => (hw.starts k t ht).1, hw.woken, ?_⟩
  have hlast := hw.last_start
  have hle := le_waited (w.attempts.length - 1)
  unfold maxBackoff second at *
  omega

theorem attempts_paced_recovering :
    maxBackoff * 6 ≤ recovering.now - recovering.lostAt + 149 * second :=
  (attempts_paced reach_recovering).2.2.2

end Run

/-! ## The calls that are pending -/

section Pending

variable {β ρ ε : Type} {w : World} {life : Lifetime}

/-- After the loss, the wrapper's inner is replaced by `Reconnect` only, and it is abandoned by
`Reconnect` only. -/
structure Follows (life : Lifetime) (w : World) : Prop where
  swaps : ∀ s ∈ life.swaps, s ≤ w.lostAt ∨ s ∈ w.woken ∨ w.now ≤ s
  abandoned : ∀ s ∈ life.abandonedAt, s ∈ w.woken ∨ w.now ≤ s

/-- A pass of a call that has the inner which is lost. -/
structure Caught (life : Lifetime) (w : World) (a : Attempt ρ ε) : Prop where
  before : a.captureAt ≤ w.lostAt
  current : ∀ s ∈ life.swaps, s ≤ a.captureAt ∨ w.lostAt < s

/-- What comes after five failed attempts comes after 31 seconds. -/
theorem late_of_woken (h : Inv w) (hfailed : 6 ≤ w.attempts.length) {s : ℕ}
    (hs : s ∈ w.woken ∨ w.now ≤ s) : w.lostAt + 31 * second ≤ s := by
  have hsum : waited 5 = 31 * second := by decide
  have hle : waited 5 ≤ waited (w.attempts.length - 1) := waited_mono (by omega)
  rw [← hsum]
  rcases hs with hs | hs
  · exact Nat.le_trans (Nat.add_le_add_left hle _) (h.woken s hs)
  · exact Nat.le_trans (Nat.add_le_add_left hle _) (Nat.le_trans h.last_start hs)

theorem readyClosed_late (h : Inv w) (hfailed : 6 ≤ w.attempts.length) (hl : Follows life w)
    {a : Attempt ρ ε} (ha : Caught life w a) :
    ∀ c ∈ life.readyClosed a.captureAt, w.lostAt + 31 * second ≤ c := by
  have hswap : ∀ s ∈ life.nextSwap a.captureAt, w.lostAt + 31 * second ≤ s := by
    intro s hs
    have hmem : s ∈ life.swaps := List.mem_of_find?_eq_some hs
    have hlater : a.captureAt < s := by simpa using List.find?_some hs
    rcases ha.current s hmem with hle | hlost
    · omega
    · rcases hl.swaps s hmem with hle | hwoken
      · omega
      · exact late_of_woken h hfailed hwoken
  have habandoned : ∀ s ∈ life.abandonedAt, w.lostAt + 31 * second ≤ s := fun s hs =>
    late_of_woken h hfailed (hl.abandoned s hs)
  intro c hc
  unfold Lifetime.readyClosed at hc
  split at hc
  · rename_i s t hs ht
    cases hc
    exact Nat.le_min.mpr ⟨hswap s hs, habandoned t ht⟩
  · rename_i hs _
    cases hc
    exact hswap _ hs
  · exact habandoned c hc

theorem waits_eq_false (h : Inv w) (hfailed : 6 ≤ w.attempts.length) (hl : Follows life w)
    {a : Attempt ρ ε} (ha : Caught life w a) {t₀ : ℕ} (ht : t₀ ≤ w.lostAt) :
    a.waits life (t₀ + resumeRetryWindow) = false := by
  have hlate := readyClosed_late h hfailed hl ha
  have hwindow : resumeRetryWindow + second = 31 * second := rfl
  have hpos : 0 < second := by decide
  unfold Attempt.waits waitForResume
  split
  · rfl
  · split
    · rfl
    · rename_i c hc
      have := hlate c hc
      rw [if_neg (by omega), if_neg (by omega)]

theorem abandonedBy_eq_false (h : Inv w) (hfailed : 6 ≤ w.attempts.length) (hl : Follows life w)
    {a : Attempt ρ ε} (ha : Caught life w a) : life.abandonedBy a.captureAt = false := by
  have hpos : 0 < second := by decide
  unfold Lifetime.abandonedBy
  cases hs : life.abandonedAt with
  | none => rfl
  | some s =>
    have hlate := late_of_woken h hfailed (hl.abandoned s hs)
    have hbefore := ha.before
    simp only [Option.any_some, decide_eq_false_iff_not]
    omega

/-- **Calls that were pending at the loss do not outlive five failed attempts.** -/
theorem pending_calls_fail (h : runWithReconnect.Reach w) (hfailed : 6 ≤ w.attempts.length)
    (hl : Follows life w) {t₀ : ℕ} (ht : t₀ ≤ w.lostAt) :
    (∀ (a : Attempt (List β) ε) e as, Caught life w a → a.result = [] →
      a.err = some (.transport e) →
      readLoop life (t₀ + resumeRetryWindow) (a :: as) =
        .returned ⟨[], []⟩ (some (.inner (.transport e)))) ∧
    (∀ (p : List β) d (a : Attempt ℕ ε) e as, Caught life w a → d.written + a.result < p.length →
      a.err = some (.transport e) →
      writeLoop life (t₀ + resumeRetryWindow) p d (a :: as) =
        .returned (d.accept p a.result) (some (.inner (.transport e)))) := by
  have hw := reach_inv h
  refine ⟨fun a e as ha hnone herr => ?_, fun p d a e as ha hshort herr => ?_⟩
  · have hwait := waits_eq_false hw hfailed hl ha ht
    have hlive := abandonedBy_eq_false hw hfailed hl ha
    simp [readLoop, hlive, hnone, herr, hwait]
  · have hwait := waits_eq_false hw hfailed hl ha ht
    have hlive := abandonedBy_eq_false hw hfailed hl ha
    have hlt : d.written < p.length := Nat.lt_of_le_of_lt (Nat.le_add_right _ _) hshort
    have hne : d.written + a.result ≠ p.length := Nat.ne_of_lt hshort
    simp [writeLoop, hlive, hlt, hne, herr, hwait, WriteDone.accept]

/-- The stream of that outage. -/
def resumedAt131 : Lifetime := ⟨[131 * second], by simp, none⟩

/-- A `Read` that is called at the moment of the loss, and gets the error at once. -/
def lostRead : Attempt (List ℕ) Unit :=
  ⟨100 * second, [], some (.transport ()), 100 * second, true⟩

theorem pending_calls_fail_recovering :
    read resumedAt131 (100 * second) [lostRead] =
      .returned ⟨[], []⟩ (some (.inner (.transport ()))) := by
  have hl : Follows resumedAt131 recovering :=
    ⟨by simp [resumedAt131, recovering], by simp [resumedAt131]⟩
  have ha : Caught resumedAt131 recovering lostRead :=
    ⟨by decide, by simp [resumedAt131, recovering, lostRead, second]⟩
  exact (pending_calls_fail reach_recovering (by decide) hl (Nat.le_refl _)).1 lostRead () [] ha
    rfl rfl

end Pending

end OutRelayAgent.Supervise
