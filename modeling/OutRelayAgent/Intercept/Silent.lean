import OutRelayAgent.Intercept.Accept

/-!
# An interceptor whose listener fails

A listener's `Accept` may fail for good or for a moment, as when there are no file descriptors left.
The loop ends in both implementations. `explicit` puts the error where the next `Accept` finds it
(`explicit.go:77-82`); `tproxy` writes to the log and returns (`tproxy_linux.go:75-83`), and a call
of `Accept` waits for its context from then on.

* `error_is_told`: `explicit` never dies silently. `tproxy` does not in any run in which its
  listener fails only after `Close`, and may after any earlier failure.
* `tproxy_dies_silently`: it does.
-/

namespace OutRelayAgent.Accept

open Lib
open Intercept (VIPAllocator)

/-- All loops have ended because of their listeners, `Close` has not been called, a call of `Accept`
has no way on but its context, and no call was given an error. -/
structure Silent (P : Impl) (w : World) : Prop where
  dead : ∀ i < w.bound, w.loops i = .ended .error
  notClosed : w.closer = .idle
  waiting : ∃ j, w.calls j = .selecting ∧
    ∀ c r, P.accept w.errs w.closed c = some r → c = .ctx
  untold : ∀ j i, w.calls j ≠ .returned (.err i)

/-- A listener's `Accept` fails only when `Close` has been called. -/
def late (w : World) : Act → Bool
  | .loop _ .fail => w.closed
  | _ => true

section

variable {P : Impl} {mappings : List ExplicitMapping} {alloc : VIPAllocator} {w w' : World}
  {a : Act}

/-- A returned call stays as it is. -/
theorem returned_step (hkept : Kept w) (hm : Moves P w a w') {j : ℕ} {r : Result}
    (h : w.calls j = .returned r) : w'.calls j = .returned r := by
  cases hm with
  | loop i ch l e =>
    obtain ⟨-, -, -, -, -, hcalls, -⟩ := effect_same (w.setLoop i l) i e
    rw [hcalls]
    exact h
  | handover i k ic _ hcall =>
    have hjk : j ≠ k := by
      rintro rfl
      rw [h] at hcall
      cases hcall
    simpa [World.setHolder, World.setCall, World.setLoop, hjk] using h
  | startAccept =>
    have hjk : j ≠ w.callCount := by
      rintro rfl
      rw [hkept.calls_absent _ (Nat.le_refl _)] at h
      cases h
    simpa [World.setCall, hjk] using h
  | accept k ch r' hcall =>
    have hjk : j ≠ k := by
      rintro rfl
      rw [h] at hcall
      cases hcall
    simpa [World.setCall, hjk] using h
  | listen | listenFails | unbind | unbound | close | closeNext | closeDone => exact h

/-- A loop of `explicit` that has ended by an error has left the error, or it has been taken. -/
def Told (w : World) : Prop :=
  ∀ i, w.loops i = .ended .error → w.errs.isSome = true ∨ ∃ j k, w.calls j = .returned (.err k)

theorem Told.step (hkept : Kept w) (h : Told w) (hm : Moves (explicit mappings) w a w') :
    Told w' := by
  -- An error that has been taken stays taken.
  have htaken : (∃ j k, w.calls j = .returned (.err k)) → ∃ j k, w'.calls j = .returned (.err k) :=
    fun ⟨j, k, hjk⟩ => ⟨j, k, returned_step hkept hm hjk⟩
  intro i hi
  cases hm with
  | listen =>
    rcases eq_or_ne i w.bound with rfl | hib
    · simp [World.setLoop] at hi
    · exact (h i (by simpa [World.setLoop, hib] using hi)).imp id htaken
  | loop k ch l e _ hl =>
    obtain ⟨-, -, hsurface⟩ := explicit_loop hl
    obtain ⟨-, -, -, -, -, -, hloops⟩ := effect_same (w.setLoop k l) k e
    rw [hloops] at hi
    have herrs : w.errs.isSome = true → ((w.setLoop k l).effect k e).errs.isSome = true := by
      intro hsome
      cases e with
      | nothing | keep | reject | drop => exact hsome
      | surface => simp [World.effect, World.setLoop]
    rcases eq_or_ne i k with rfl | hik
    · have hl' : l = .ended .error := by simpa [World.setLoop] using hi
      left
      rw [hsurface hl']
      simp [World.effect]
    · exact (h i (by simpa [World.setLoop, hik] using hi)).imp herrs htaken
  | handover k j ic =>
    rcases eq_or_ne i k with rfl | hik
    · simp [World.setHolder, World.setCall, World.setLoop] at hi
    · exact (h i (by simpa [World.setHolder, World.setCall, World.setLoop, hik] using hi)).imp id
        htaken
  | accept j ch r hcall hr =>
    cases ch with
    | err =>
      obtain ⟨k, -, rfl⟩ := Option.map_eq_some_iff.mp hr
      exact .inr ⟨j, k, by simp [World.setCall]⟩
    | closed | ctx => exact (h i hi).imp id htaken
  | listenFails | unbind | unbound | startAccept | close | closeNext | closeDone =>
    exact (h i hi).imp id htaken

theorem explicit_not_silent (h : (machine (explicit mappings)).Reach w) :
    ¬ Silent (explicit mappings) w := by
  intro hsilent
  have hP := explicit_regular mappings
  have htold : Told w := by
    refine Machine.ReachWhile.invariant (M := machine (explicit mappings)) (I := Told) nofun ?_ h
    intro w a w' hr hi _ hst
    exact hi.step (kept_reach hP hr) (step_moves hst)
  obtain ⟨j, hcall, hctx⟩ := hsilent.waiting
  obtain ⟨-, hpos⟩ := (gates_reach h).ready_pos ((gates_reach h).selecting_ready hcall)
  rcases htold 0 (hsilent.dead 0 hpos) with herrs | ⟨k, i, hk⟩
  · obtain ⟨i, hi⟩ := Option.isSome_iff_exists.mp herrs
    have hcase := hctx .err (.err i) (by rw [hi]; rfl)
    cases hcase
  · exact hsilent.untold k i hk

/-- No loop ends by an error if the listeners fail late. -/
theorem Late.step (hP : P.Regular) (hlate : late w a = true)
    (h : ∀ i, w.loops i ≠ .ended .error ∧ (w.loops i = .failing → w.closed = true))
    (hm : Moves P w a w') (i : ℕ) :
    w'.loops i ≠ .ended .error ∧ (w'.loops i = .failing → w'.closed = true) := by
  cases hm with
  | listen =>
    rcases eq_or_ne i w.bound with rfl | hib
    · simp [World.setLoop]
    · simpa [World.setLoop, hib] using h i
  | loop k ch l e _ hl =>
    obtain ⟨-, -, -, hclosed, -, -, hloops⟩ := effect_same (w.setLoop k l) k e
    rw [hloops, hclosed]
    rcases eq_or_ne i k with rfl | hik
    · have hm := hP.loop hl
      have hi := h i
      simp only [World.setLoop, Function.update_self]
      generalize w.loops i = l₀ at hm hi
      cases hm with
      | fail => exact ⟨by simp, fun _ => hlate⟩
      | error e hopen =>
        rw [hi.2 rfl] at hopen
        cases hopen
      | keep | reject | stop | drop => simp
    · simpa [World.setLoop, hik] using h i
  | handover k j ic =>
    rcases eq_or_ne i k with rfl | hik
    · simp [World.setHolder, World.setCall, World.setLoop]
    · simpa [World.setHolder, World.setCall, World.setLoop, hik] using h i
  | close => exact ⟨(h i).1, fun _ => rfl⟩
  | listenFails | unbind | unbound | startAccept | accept | closeNext | closeDone => exact h i

theorem not_silent_of_late (hP : P.Regular)
    (h : (machine P).ReachWhile (fun w a => late w a = true) w) : ¬ Silent P w := by
  intro hsilent
  have hloops : ∀ i, w.loops i ≠ .ended .error ∧ (w.loops i = .failing → w.closed = true) := by
    refine Machine.ReachWhile.invariant (M := machine P) (I := fun w => ∀ i,
      w.loops i ≠ .ended .error ∧ (w.loops i = .failing → w.closed = true))
      (fun _ => ⟨nofun, nofun⟩) ?_ h
    intro w a w' _ hi hlate hst
    exact Late.step hP hlate hi (step_moves hst)
  obtain ⟨j, hcall, -⟩ := hsilent.waiting
  have hgates := gates_reach h.reach
  obtain ⟨-, hpos⟩ := hgates.ready_pos (hgates.selecting_ready hcall)
  exact (hloops 0).1 (hsilent.dead 0 hpos)

/-- The constructor of `tproxy` has returned when its loop runs. -/
theorem tproxy_ready (h : (machine (tproxy alloc)).Reach w) (hbound : w.bound = 1) :
    w.ctor = .ready := by
  have hlt : w.ctor ≠ .ready → w.bound = 0 := by
    refine Machine.ReachWhile.invariant (M := machine (tproxy alloc))
      (I := fun w => w.ctor ≠ .ready → w.bound = 0) (fun _ => rfl) ?_ h
    intro w a w' hr hi _ hst hctor
    cases step_moves hst with
    | listen hb =>
      have hlt : w.bound < 1 := (gates_reach hr).binding_lt hb
      have hone : w.bound + 1 = (tproxy alloc).listeners := by
        change w.bound + 1 = 1
        omega
      exact absurd (if_pos hone) hctor
    | listenFails hb => exact hi (by rw [hb]; nofun)
    | unbind j hb | unbound j hb => exact hi (by rw [hb]; nofun)
    | loop i ch l e =>
      obtain ⟨hsame, hbound, -⟩ := effect_same (w.setLoop i l) i e
      rw [hsame] at hctor
      rw [hbound]
      exact hi hctor
    | handover | startAccept | accept | close | closeNext | closeDone => exact hi hctor
  by_contra hctor
  rw [hlt hctor] at hbound
  cases hbound

theorem tproxy_untold (h : (machine (tproxy alloc)).Reach w) :
    ∀ j i, w.calls j ≠ .returned (.err i) := by
  refine Machine.Reach.invariant (M := machine (tproxy alloc))
    (I := fun w => ∀ j i, w.calls j ≠ .returned (.err i)) (fun _ _ => nofun) ?_ h
  intro w a w' hi hst j i
  cases step_moves hst with
  | loop k ch l e =>
    obtain ⟨-, -, -, -, -, hcalls, -⟩ := effect_same (w.setLoop k l) k e
    rw [hcalls]
    exact hi j i
  | handover k j' ic =>
    rcases eq_or_ne j j' with rfl | hj
    · simp [World.setHolder, World.setCall]
    · simpa [World.setHolder, World.setCall, World.setLoop, hj] using hi j i
  | startAccept =>
    rcases eq_or_ne j w.callCount with rfl | hj
    · simp [World.setCall]
    · simpa [World.setCall, hj] using hi j i
  | accept j' ch r hcall hr =>
    rcases eq_or_ne j j' with rfl | hj
    · rintro heq
      have hr' : r = .err i := by simpa [World.setCall] using heq
      subst hr'
      cases ch with
      | err | ctx => cases hr
      | closed => cases (Option.ite_none_right_eq_some.mp hr).2
    · simpa [World.setCall, hj] using hi j i
  | listen | listenFails | unbind | unbound | close | closeNext | closeDone => exact hi j i

/-- After a listener's failure before `Close`, the loop may end and a call come too late. -/
theorem tproxy_may_die (hr : (machine (tproxy alloc)).Reach w)
    (hst : (machine (tproxy alloc)).step w a = some w') (hlate : late w a = false) :
    ∃ w'', (machine (tproxy alloc)).ReachFrom w' w'' ∧ Silent (tproxy alloc) w'' := by
  obtain ⟨i, rfl, hopen⟩ : ∃ i, a = .loop i .fail ∧ w.closed = false := by
    cases a with
    | loop i ch =>
      cases ch with
      | fail => exact ⟨i, rfl, hlate⟩
      | accept | go => cases hlate
    | _ => cases hlate
  have hr' := hr.step hst
  have hkept := kept_reach (tproxy_regular alloc) hr'
  have hgates := gates_reach hr'
  obtain ⟨hfailing, hopen'⟩ : w'.loops i = .failing ∧ w'.closed = false := by
    have hmoves : Moves (tproxy alloc) w (.loop i .fail) w' := step_moves hst
    cases hmoves with
    | loop _ _ l e _ hl =>
      have hm := tproxy_loop hl
      generalize w.loops i = l₀ at hm
      cases hm
      exact ⟨by simp [World.effect, World.setLoop], hopen⟩
  have hi : i < w'.bound := hkept.lt_bound (by simp [hfailing])
  have hone : w'.bound = 1 := by
    have hle : w'.bound ≤ 1 := hgates.bound_le
    omega
  obtain rfl : i = 0 := by omega
  have hready := tproxy_ready hr' hone
  have hidle : w'.closer = .idle := by
    by_contra hne
    rw [hgates.closed_iff.mpr hne] at hopen'
    cases hopen'
  -- The loop ends, and `Accept` is called.
  let w₁ := w'.setLoop 0 (.ended .error)
  let w₂ : World := { w₁.setCall w₁.callCount .selecting with callCount := w₁.callCount + 1 }
  have hstep₁ : (machine (tproxy alloc)).step w' (.loop 0 .go) = some w₁ := by
    change step (tproxy alloc) w' (.loop 0 .go) = some w₁
    unfold step
    dsimp only
    rw [if_neg (by simp [Choice.isAccept]), hfailing, hopen']
    rfl
  have hstep₂ : (machine (tproxy alloc)).step w₁ .startAccept = some w₂ := if_pos hready
  have hreach : (machine (tproxy alloc)).ReachFrom w' w₂ :=
    Machine.reachFrom_of_run [.loop 0 .go, .startAccept]
      (Machine.run_cons.mpr ⟨w₁, hstep₁, Machine.run_cons.mpr ⟨w₂, hstep₂, rfl⟩⟩)
  refine ⟨w₂, hreach, fun k hk => ?_, hidle, ⟨w₁.callCount, ?_, fun c r hc => ?_⟩,
    tproxy_untold (hr'.trans hreach)⟩
  · have hk' : k < w'.bound := hk
    obtain rfl : k = 0 := by omega
    simp [w₂, w₁, World.setCall, World.setLoop]
  · simp [w₂, World.setCall]
  · cases c with
    | err => cases hc
    | closed =>
      obtain ⟨hclosed, -⟩ := Option.ite_none_right_eq_some.mp hc
      rw [show w₂.closed = w'.closed from rfl, hopen'] at hclosed
      cases hclosed
    | ctx => rfl

end

/-- **`explicit` does not die silently, and `tproxy` does not as long as its listener fails only
after `Close`.** Any earlier failure may lead there. -/
theorem error_is_told (mappings : List ExplicitMapping) (alloc : VIPAllocator) :
    (∀ w, (machine (explicit mappings)).Reach w → ¬ Silent (explicit mappings) w) ∧
    (∀ w, (machine (tproxy alloc)).ReachWhile (fun w a => late w a = true) w →
      ¬ Silent (tproxy alloc) w) ∧
    ∀ w a w', (machine (tproxy alloc)).Reach w →
      (machine (tproxy alloc)).step w a = some w' → late w a = false →
      ∃ w'', (machine (tproxy alloc)).ReachFrom w' w'' ∧ Silent (tproxy alloc) w'' :=
  ⟨fun _ h => explicit_not_silent h, fun _ h => not_silent_of_late (tproxy_regular alloc) h,
    fun _ _ _ hr hst hlate => tproxy_may_die hr hst hlate⟩

/-- An allocator without names. -/
def noNames : VIPAllocator := ⟨Intercept.slash29, ∅, ∅, .zero⟩

/-- Connections of every kind that are closed, and the listener's failure after `Close`. -/
def closedInTime : List Act :=
  [.listen true, .startAccept, .loop 0 (.accept .other), .loop 0 (.accept (.tcp none)),
   .loop 0 (.accept (.tcp (some (.v4 1, 80)))), .close, .loop 0 .fail, .loop 0 .go, .closeNext,
   .closeNext]

theorem closedInTime_told : ∃ w,
    (machine (tproxy noNames)).run (machine (tproxy noNames)).init closedInTime = some w ∧
    w.connCount = 3 ∧ w.loops 0 = .ended .closed ∧ ¬ Silent (tproxy noNames) w := by
  have hrun : ∃ w,
      (machine (tproxy noNames)).run (machine (tproxy noNames)).init closedInTime = some w ∧
      w.connCount = 3 ∧ w.loops 0 = .ended .closed ∧
      (machine (tproxy noNames)).ReachWhile (fun w a => late w a = true) w :=
    ⟨_, rfl, rfl, rfl, Machine.reachWhile_of_run (M := machine (tproxy noNames)) (C := late)
      closedInTime rfl⟩
  obtain ⟨w, hrun, hcount, hloop, hr⟩ := hrun
  exact ⟨w, hrun, hcount, hloop, (error_is_told [] noNames).2.1 w hr⟩

/-- **`tproxy` dies silently.** Its listener fails once while a call of `Accept` is waiting. -/
theorem tproxy_dies_silently : ∃ w,
    (machine (tproxy noNames)).run (machine (tproxy noNames)).init
      [.listen true, .startAccept, .loop 0 .fail, .loop 0 .go] = some w ∧
    w.loops 0 = .ended .error ∧ w.calls 0 = .selecting ∧ Silent (tproxy noNames) w := by
  have hrun : ∃ w, (machine (tproxy noNames)).run (machine (tproxy noNames)).init
      [.listen true, .startAccept, .loop 0 .fail, .loop 0 .go] = some w ∧ w.bound = 1 ∧
      w.loops 0 = .ended .error ∧ w.calls 0 = .selecting ∧ w.closer = .idle ∧ w.closed = false ∧
      (machine (tproxy noNames)).Reach w :=
    ⟨_, rfl, rfl, rfl, rfl, rfl, rfl, Machine.reach_of_run (M := machine (tproxy noNames))
      [.listen true, .startAccept, .loop 0 .fail, .loop 0 .go] rfl⟩
  obtain ⟨w, hrun, hbound, hloop, hcall, hcloser, hclosed, hr⟩ := hrun
  refine ⟨w, hrun, hloop, hcall, fun i hi => ?_, hcloser, ⟨0, hcall, fun c r hc => ?_⟩,
    tproxy_untold hr⟩
  · obtain rfl : i = 0 := by omega
    exact hloop
  · rw [hclosed] at hc
    cases c with
    | err | closed => cases hc
    | ctx => rfl

end OutRelayAgent.Accept
