import OutRelayAgent.Lib.Machine
import Mathlib.Data.List.Induction
import Mathlib.Logic.Function.Basic

/-!
# The callers of `SwapInner`

Three functions replace the inner of a wrapper: `Session.Resume` with `completeResume`
(`session.go:633-683`), `MigrateToDirect` (`promote.go:568-587`) and `handleDirectStream`
(`promote.go:512-558`). Each has a stream of its own, makes its calls on it, and ends in `SwapInner`
(`session.go:588-601`); an error on the way ends it, with the inner as it was.

Several modules model them, each with what its results are about and with larger steps where nothing
depends on it. This module has what is common to all of them: which calls each function makes, in
the order of the source (`Caller.calls`), and what a wrapper's inner is while any number of them run
at once (`machine`).

* `Resume/Rollback.lean` has the functions themselves, with their error exits: the calls they make
  are those of `Caller.calls` (`op_calls`).
* The machines of `Resume/Relay.lean`, `Migrate/Model.lean`, `Session/Model.lean`,
  `Stream/Wrapper.lean`, `Stream/HalfClose.lean` and `Direct/Release.lean` are mapped to this one in
  `Stream/Models.lean` (`maps_callers`).

So a change of the source in one of these functions is a change here, and the theorems say which of
the models it reaches.

`installed`: the inner of a wrapper is the one it was made with, or the stream of a caller that had
made all its calls on it, in order, when it called `SwapInner`.
-/

namespace OutRelayAgent.Callers

open Lib

inductive Caller
  | resume
  | migrateToDirect
  | handleDirectStream
  deriving DecidableEq

/-- What a caller does between the moment it has its stream and `SwapInner`. -/
inductive Call
  | resumePayload
  /-- `WriteFrame` of a `STREAM_RESUME`. -/
  | writeResume
  /-- `ParseFrame` and `UnmarshalProto`. -/
  | parseFrame
  /-- The comparison of the peer's stream id. -/
  | compareID
  /-- `s.streams[sid]`. -/
  | lookup
  | retransmitFrom
  /-- `st.Write(gap)`, if there is a gap. -/
  | writeGap
  deriving DecidableEq

def Caller.calls : Caller → List Call
  | .resume =>
    [.resumePayload, .writeResume, .parseFrame, .compareID, .retransmitFrom, .writeGap]
  | .migrateToDirect => [.resumePayload, .writeResume]
  | .handleDirectStream => [.parseFrame, .lookup, .retransmitFrom, .writeGap]

/-- The call can return an error. -/
def Call.fails : Call → Bool
  | .resumePayload => false
  | _ => true

/-- Where a caller stands, with a stream of type `S`. -/
inductive Pc (S : Type)
  | outside
  /-- `rest` are the calls it has still to make. -/
  | making (f : Caller) (st : S) (rest : List Call)
  /-- At the lock section of `SwapInner`. -/
  | swap (st : S)
  /-- Behind it: the old channel is to be closed, then the old inner to be cancelled. -/
  | swapped
  | cancel

/-- About to make the call `c`. -/
def Pc.before {S : Type} (f : Caller) (st : S) (c : Call) : Pc S :=
  .making f st (f.calls.dropWhile (· ≠ c))

inductive Act (S : Type)
  /-- `OpenStream`, or the `AcceptStream` before `handleDirectStream`, has returned a stream. -/
  | opened (f : Caller) (st : S)
  | call (c : Call)
  /-- The call that is due returns an error. -/
  | fail
  | swapInner
  | closeReady
  | cancelRead

variable {κ S : Type}

/-- With no call left, `SwapInner` is next. -/
def goOn (f : Caller) (st : S) : List Call → Pc S
  | [] => .swap st
  | c :: rest => .making f st (c :: rest)

/-- A step of one caller, with the wrapper's inner. -/
def callerStep (inner : S) : Pc S → Act S → Option (S × Pc S)
  | .outside, .opened f st => some (inner, goOn f st f.calls)
  | .making f st (c :: rest), .call c' => if c' = c then some (inner, goOn f st rest) else none
  | .making _ _ (c :: _), .fail => if c.fails then some (inner, .outside) else none
  | .swap st, .swapInner => some (st, .swapped)
  | .swapped, .closeReady => some (inner, .cancel)
  | .cancel, .cancelRead => some (inner, .outside)
  | _, _ => none

/-- One caller. -/
def caller (inner : S) : Machine (S × Pc S) (Act S) where
  init := (inner, .outside)
  step s := callerStep s.1 s.2

/-- A wrapper's inner, and its callers. -/
structure State (κ S : Type) where
  inner : S
  pc : κ → Pc S

def step [DecidableEq κ] (s : State κ S) : κ × Act S → Option (State κ S)
  | (k, a) =>
    (callerStep s.inner (s.pc k) a).map fun r => ⟨r.1, Function.update s.pc k r.2⟩

/-- A wrapper made on the stream `inner`, under any number of callers. -/
def machine (κ : Type) [DecidableEq κ] (inner : S) : Machine (State κ S) (κ × Act S) :=
  ⟨⟨inner, fun _ => .outside⟩, step⟩

/-! ## What a step can do -/

/-- The steps of a caller, one constructor for each. -/
inductive Moves (inner : S) : Pc S → Act S → S → Pc S → Prop
  | opened (f : Caller) (st : S) : Moves inner .outside (.opened f st) inner (goOn f st f.calls)
  | call (f : Caller) (st : S) (c : Call) (rest : List Call) :
      Moves inner (.making f st (c :: rest)) (.call c) inner (goOn f st rest)
  | fail (f : Caller) (st : S) (c : Call) (rest : List Call) :
      Moves inner (.making f st (c :: rest)) .fail inner .outside
  | swapInner (st : S) : Moves inner (.swap st) .swapInner st .swapped
  | closeReady : Moves inner .swapped .closeReady inner .cancel
  | cancelRead : Moves inner .cancel .cancelRead inner .outside

theorem callerStep_moves {inner inner' : S} {pc pc' : Pc S} {a : Act S}
    (h : callerStep inner pc a = some (inner', pc')) : Moves inner pc a inner' pc' := by
  unfold callerStep at h
  split at h
  · cases h
    exact .opened _ _
  · split at h
    · rename_i hc
      cases h
      exact hc ▸ .call _ _ _ _
    · cases h
  · split at h
    · cases h
      exact .fail _ _ _ _
    · cases h
  · cases h
    exact .swapInner _
  · cases h
    exact .closeReady
  · cases h
    exact .cancelRead
  · cases h

variable [DecidableEq κ] {s s' : State κ S} {k : κ} {a : Act S}

theorem step_moves (h : step s (k, a) = some s') :
    ∃ pc', Moves s.inner (s.pc k) a s'.inner pc' ∧ s'.pc = Function.update s.pc k pc' := by
  obtain ⟨⟨inner', pc'⟩, hst, rfl⟩ := Option.map_eq_some_iff.mp h
  exact ⟨pc', callerStep_moves hst, rfl⟩

/-- Steps of one caller are steps of the wrapper with all its callers. -/
theorem run_caller {i : S} (k : κ) (as : List (Act S)) {s s' : State κ S}
    (h : (caller i).run (s.inner, s.pc k) as = some (s'.inner, s'.pc k))
    (hother : ∀ j, j ≠ k → s'.pc j = s.pc j) :
    (machine κ i).run s (as.map (k, ·)) = some s' := by
  induction as generalizing s with
  | nil =>
    obtain ⟨hinner, hpc⟩ := Prod.mk.inj (Option.some.inj h)
    have hall : s.pc = s'.pc := by
      funext j
      by_cases hj : j = k
      · rw [hj, hpc]
      · exact (hother j hj).symm
    cases s
    cases s'
    simp_all [Machine.run]
  | cons a as ih =>
    obtain ⟨⟨inner, pc⟩, hst, hrun⟩ := Machine.run_cons.mp h
    refine Machine.run_cons.mpr ⟨⟨inner, Function.update s.pc k pc⟩, ?_, ih ?_ fun j hj => ?_⟩
    · change callerStep s.inner (s.pc k) a = some (inner, pc) at hst
      simp [machine, step, hst]
    · simpa using hrun
    · simpa [hj] using hother j hj

/-- From one inner and one place to another by steps of a caller. -/
def Steps (inner : S) (pc : Pc S) (inner' : S) (pc' : Pc S) : Prop :=
  ∃ as, ∀ i, (caller i).run (inner, pc) as = some (inner', pc')

omit [DecidableEq κ] in
theorem Steps.same {inner inner' : S} {pc pc' : Pc S} (hinner : inner' = inner) (hpc : pc' = pc) :
    Steps inner pc inner' pc' :=
  ⟨[], fun _ => by rw [hinner, hpc, Machine.run]⟩

/-- **A model of callers**: in each of its steps at most one of them moves, as a caller does. -/
theorem maps_of_steps {σ α : Type} {M : Machine σ α} {P : σ → Prop} {view : σ → State κ S} {i : S}
    (hkeeps : ∀ s a s', P s → M.step s a = some s' → P s')
    (hstep : ∀ s a s', P s → M.step s a = some s' → ∃ k,
      Steps (view s).inner ((view s).pc k) (view s').inner ((view s').pc k) ∧
        ∀ j, j ≠ k → (view s').pc j = (view s).pc j) :
    M.Maps (machine κ i) P view where
  keeps := hkeeps
  step s a s' hs hst := by
    obtain ⟨k, ⟨as, has⟩, hother⟩ := hstep s a s' hs hst
    exact ⟨_, run_caller k as (has i) hother⟩

/-! ## What is installed -/

/-- What the caller `k` has done in a run. -/
def actsOf (k : κ) (as : List (κ × Act S)) : List (Act S) :=
  as.filterMap fun ka => if ka.1 = k then some ka.2 else none

theorem actsOf_concat (k j : κ) (as : List (κ × Act S)) (a : Act S) :
    actsOf k (as ++ [(j, a)]) = if j = k then actsOf k as ++ [a] else actsOf k as := by
  by_cases h : j = k <;> simp [actsOf, h]

/-- What a caller has done, where it stands: it has got its stream, and made its calls in order up
to there. -/
def Made (as : List (Act S)) : Pc S → Prop
  | .making f st rest => ∃ earlier made,
      as = earlier ++ .opened f st :: made.map .call ∧ made ++ rest = f.calls
  | .swap st => ∃ earlier f, as = earlier ++ .opened f st :: f.calls.map .call
  | _ => True

omit [DecidableEq κ] in
theorem made_goOn {as : List (Act S)} {f : Caller} {st : S} {rest : List Call}
    (earlier : List (Act S)) (made : List Call)
    (has : as = earlier ++ .opened f st :: made.map .call) (hcalls : made ++ rest = f.calls) :
    Made as (goOn f st rest) := by
  cases rest with
  | nil =>
    refine ⟨earlier, f, ?_⟩
    rw [has, ← hcalls, List.append_nil]
  | cons c rest => exact ⟨earlier, made, has, hcalls⟩

/-- A caller's own step. -/
theorem Made.step {as : List (Act S)} {inner inner' : S} {pc pc' : Pc S} (h : Made as pc)
    (hm : Moves inner pc a inner' pc') : Made (as ++ [a]) pc' := by
  cases hm with
  | opened f st => exact made_goOn as [] rfl rfl
  | call f st c rest =>
    obtain ⟨earlier, made, has, hcalls⟩ := h
    refine made_goOn earlier (made ++ [c]) ?_ ?_
    · simp [has]
    · simp [← hcalls]
  | fail | swapInner | closeReady | cancelRead => trivial

theorem made_run {i : S} {as : List (κ × Act S)} :
    ∀ {s : State κ S}, (machine κ i).run (machine κ i).init as = some s →
      ∀ k, Made (actsOf k as) (s.pc k) := by
  induction as using List.reverseRecOn with
  | nil =>
    intro s h k
    cases h
    trivial
  | append_singleton as ja ih =>
    intro s' h k
    obtain ⟨j, a⟩ := ja
    obtain ⟨s, hrun, hst⟩ := Machine.run_concat.mp h
    obtain ⟨pc', hm, hpc⟩ := step_moves hst
    rw [actsOf_concat, hpc]
    by_cases hj : j = k
    · subst hj
      simpa using (ih hrun j).step hm
    · simpa [hj, Ne.symm hj] using ih hrun k

/-- A stream that was installed: its caller got it, made all its calls in order, and nothing else,
and called `SwapInner`. -/
def Installed (as : List (κ × Act S)) (st : S) : Prop :=
  ∃ k f before after earlier, as = before ++ (k, .swapInner) :: after ∧
    actsOf k before = earlier ++ .opened f st :: f.calls.map .call

omit [DecidableEq κ] in
theorem Moves.inner_eq {inner inner' : S} {pc pc' : Pc S} (hm : Moves inner pc a inner' pc') :
    inner' = inner ∨ (a = .swapInner ∧ pc = .swap inner') := by
  cases hm with
  | swapInner st => exact .inr ⟨rfl, rfl⟩
  | _ => exact .inl rfl

/-- **What a wrapper's inner is**, after any run of its callers. -/
theorem installed {i : S} {as : List (κ × Act S)} :
    ∀ {s : State κ S}, (machine κ i).run (machine κ i).init as = some s →
      s.inner = i ∨ Installed as s.inner := by
  induction as using List.reverseRecOn with
  | nil =>
    intro s h
    cases h
    exact .inl rfl
  | append_singleton as ka ih =>
    intro s' h
    obtain ⟨k, a⟩ := ka
    obtain ⟨s, hrun, hst⟩ := Machine.run_concat.mp h
    obtain ⟨pc', hm, -⟩ := step_moves hst
    rcases hm.inner_eq with heq | ⟨rfl, hpc⟩
    · rw [heq]
      rcases ih hrun with hi | ⟨j, f, before, after, earlier, rfl, hacts⟩
      · exact .inl hi
      · exact .inr ⟨j, f, before, after ++ [(k, a)], earlier, by simp, hacts⟩
    · have hmade := made_run hrun k
      rw [hpc] at hmade
      obtain ⟨earlier, f, hacts⟩ := hmade
      exact .inr ⟨k, f, as, [], earlier, rfl, hacts⟩

end OutRelayAgent.Callers
