import OutRelayAgent.Lib.Machine
import Mathlib.Data.List.Forall2
import Mathlib.Data.List.Induction
import Mathlib.Logic.Function.Basic

/-!
# The two bridges

A bridge copies between two endpoints in both directions and passes the end of each direction on.
There are two: `bridge` and `copyAndDone` of the session (`session.go:983-1025`), on the provider's
side, and `bridge` and `halfCloseWrite` of the command (`main.go:485-520`), on the consumer's side.

* **A direction** is named by its destination. It reads and writes in turn; what each `Read` and
  `Write` returns is up to the endpoints. When its loop is left it may shut the write side of the
  destination, and then sends on the channel `done`, which has room for both.
* **The rest of a bridge** receives twice from `done`, and closes both endpoints.
* The command copies with `io.Copy`, taken here as its generic loop (`io.Copy` may let an endpoint
  do the copying, which is documented to come to the same). A `Write` that takes fewer bytes than it
  was given without an error (`short`) breaks the contract of `io.Writer`; `io.Copy` checks for it
  and `copyAndDone` does not.
* Read data is at most as long as the buffer, 64 KiB in the session and 32 KiB in `io.Copy`.

`bridge` of the session is documented to propagate a half-close on each direction's end of file.

* `bridges_alike_iff`: every run of the command's bridge is matched step by step by the session's,
  and with the same results of `Read` and `Write` the same bytes are delivered. The ends of a
  direction are signalled alike, before its `done`, exactly if the destination has `CloseWrite` and
  no `Write` to it fails.
* `end_not_signalled`: the two bridges after a `Write` that fails, and at the end of a source, the
  destination without `CloseWrite`.
-/

namespace OutRelayAgent.Bridge

open Lib

/-- The endpoints `a` and `b`; also the directions, each named by its destination. -/
inductive End
  | a
  | b
  deriving DecidableEq

inductive ReadErr
  | eof
  | other

/-- What `Write` returns for `len` bytes. -/
inductive WriteResult
  /-- `(len, nil)` -/
  | accepted
  /-- `(n, err)` -/
  | failed (n : ℕ)
  /-- `(n, nil)` with `n < len` -/
  | short (n : ℕ)

inductive Outcome (β : Type)
  | read (data : List β) (err : Option ReadErr)
  | write (result : WriteResult)

/-- How the loop of a direction is left. -/
inductive Ending
  | bySource
  | byWrite
  deriving DecidableEq

inductive Phase (β : Type)
  | reading
  /-- `Read` has returned `data` and `err`, and `data` is to be written. -/
  | writing (data : List β) (err : Option ReadErr)
  | ended (e : Ending)

/-- A call on the destination; for `Write`, the bytes it took. -/
inductive Call (β : Type)
  | write (bs : List β)
  | closeWrite
  | close

/-- The code of a direction: its loop, and what it does to the destination after the loop. -/
structure Copier (β : Type) where
  loop : Phase β → Outcome β → Option (Phase β × List (Call β))
  /-- The argument says whether the destination has `CloseWrite`. -/
  finish : Bool → Ending → List (Call β)

variable {β : Type}

/-- The loop once the data of a `Read` has been written. -/
def afterError : Option ReadErr → Phase β
  | some _ => .ended .bySource
  | none => .reading

/-- The loop after a `Read`. -/
def afterRead (data : List β) (err : Option ReadErr) : Phase β :=
  if data.isEmpty then afterError err else .writing data err

def copyAndDone.loop : Phase β → Outcome β → Option (Phase β × List (Call β))
  | .reading, .read data err =>
    if data.length ≤ 64 * 1024 then some (afterRead data err, []) else none
  | .writing data err, .write .accepted => some (afterError err, [.write data])
  | .writing data _, .write (.failed n) =>
    if n ≤ data.length then some (.ended .byWrite, [.write (data.take n)]) else none
  | .writing data err, .write (.short n) =>
    -- The number of bytes is thrown away.
    if n < data.length then some (afterError err, [.write (data.take n)]) else none
  | _, _ => none

def copyAndDone.finish (hasCloseWrite : Bool) : Ending → List (Call β)
  | .bySource => if hasCloseWrite then [.closeWrite] else []
  | .byWrite => []

def copyAndDone : Copier β := ⟨copyAndDone.loop, copyAndDone.finish⟩

/-- `io.Copy` -/
def ioCopy : Phase β → Outcome β → Option (Phase β × List (Call β))
  | .reading, .read data err =>
    if data.length ≤ 32 * 1024 then some (afterRead data err, []) else none
  | .writing data err, .write .accepted => some (afterError err, [.write data])
  | .writing data _, .write (.failed n) =>
    if n ≤ data.length then some (.ended .byWrite, [.write (data.take n)]) else none
  | .writing data _, .write (.short n) =>
    -- `ErrShortWrite`
    if n < data.length then some (.ended .byWrite, [.write (data.take n)]) else none
  | _, _ => none

def halfCloseWrite (hasCloseWrite : Bool) : List (Call β) :=
  if hasCloseWrite then [.closeWrite] else [.close]

/-- A goroutine of the command's bridge. -/
def copyHalfClose : Copier β := ⟨ioCopy, fun hasCloseWrite _ => halfCloseWrite hasCloseWrite⟩

/-- How far the goroutine of a direction is. -/
inductive Stage
  | copying
  /-- Before it sends on `done`. -/
  | finished
  | done
  deriving DecidableEq

structure Line (β : Type) where
  phase : Phase β
  stage : Stage
  /-- The calls on the destination. -/
  calls : List (Call β)
  /-- What has been returned to it, read by no step. -/
  outcomes : List (Outcome β)

inductive Main
  /-- The two receives from `done`. -/
  | first
  | second
  | closeA
  | closeB
  | returned

structure World (β : Type) where
  lines : End → Line β
  /-- What is in the channel `done`. -/
  done : ℕ
  main : Main
  /-- The endpoints that the bridge has closed after both directions. -/
  closed : List End

inductive Act (β : Type)
  | outcome (d : End) (o : Outcome β)
  | finish (d : End)
  | send (d : End)
  | main

def World.setLine (w : World β) (d : End) (l : Line β) : World β :=
  { w with lines := Function.update w.lines d l }

def World.stepMain (w : World β) : Option (World β) :=
  match w.main with
  | .first => if 0 < w.done then some { w with done := w.done - 1, main := .second } else none
  | .second => if 0 < w.done then some { w with done := w.done - 1, main := .closeA } else none
  | .closeA => some { w with main := .closeB, closed := w.closed ++ [.a] }
  | .closeB => some { w with main := .returned, closed := w.closed ++ [.b] }
  | .returned => none

/-- The next step of a direction. -/
def Copier.line (C : Copier β) (hasCloseWrite : Bool) (l : Line β) :
    Option (Outcome β) → Option (Line β)
  | some o =>
    if l.stage = .copying then
      (C.loop l.phase o).map fun x => ⟨x.1, .copying, l.calls ++ x.2, l.outcomes ++ [o]⟩
    else none
  | none =>
    match l.phase, l.stage with
    | .ended e, .copying =>
      some { l with stage := .finished, calls := l.calls ++ C.finish hasCloseWrite e }
    | _, _ => none

def Copier.step (C : Copier β) (hasCloseWrite : End → Bool) (w : World β) :
    Act β → Option (World β)
  | .outcome d o => (C.line (hasCloseWrite d) (w.lines d) (some o)).map (w.setLine d)
  | .finish d => (C.line (hasCloseWrite d) (w.lines d) none).map (w.setLine d)
  | .send d =>
    if (w.lines d).stage = .finished then
      some { w.setLine d { w.lines d with stage := .done } with done := w.done + 1 }
    else none
  | .main => w.stepMain

/-- A bridge between two endpoints, with or without `CloseWrite`. -/
def Copier.bridge (C : Copier β) (hasCloseWrite : End → Bool) : Machine (World β) (Act β) where
  init := ⟨fun _ => ⟨.reading, .copying, [], []⟩, 0, .first, []⟩
  step := C.step hasCloseWrite

/-! ## The condition and the property -/

/-- `Write` keeps the contract of `io.Writer`. -/
def Outcome.lawful : Outcome β → Bool
  | .write (.short _) => false
  | _ => true

def Outcome.fails : Outcome β → Bool
  | .write (.failed _) => true
  | _ => false

def Act.lawful : Act β → Bool
  | .outcome _ o => o.lawful
  | _ => true

/-- The bytes that the destination took. -/
def delivered (calls : List (Call β)) : List β :=
  calls.flatMap fun
    | .write bs => bs
    | _ => []

/-- The calls by which the destination learns of the end. -/
def signals (calls : List (Call β)) : List (Call β) :=
  calls.filter fun
    | .write _ => false
    | _ => true

/-- The write side of the destination has been shut, by `CloseWrite` if it has it. -/
def Shut (hasCloseWrite : Bool) (calls : List (Call β)) : Prop :=
  (if hasCloseWrite then .closeWrite else .close) ∈ calls

/-- The direction's ends are signalled in the same way, and as they should be. -/
structure EndsAlike (hasCloseWrite : Bool) (l l' : Line β) : Prop where
  same : signals l.calls = signals l'.calls
  shut : Shut hasCloseWrite l.calls
  shut' : Shut hasCloseWrite l'.calls

/-- The two bridges are at the same point. -/
structure Lockstep (w w' : World β) : Prop where
  phase : ∀ d, (w.lines d).phase = (w'.lines d).phase
  stage : ∀ d, (w.lines d).stage = (w'.lines d).stage
  outcomes : ∀ d, (w.lines d).outcomes = (w'.lines d).outcomes
  done : w.done = w'.done
  main : w.main = w'.main
  closed : w.closed = w'.closed

theorem delivered_append (cs cs' : List (Call β)) :
    delivered (cs ++ cs') = delivered cs ++ delivered cs' := List.flatMap_append

theorem signals_append (cs cs' : List (Call β)) :
    signals (cs ++ cs') = signals cs ++ signals cs' := List.filter_append ..

/-! ## The loop of a direction -/

/-- The loop, with the calls it makes. -/
def Copier.loops (C : Copier β) : Machine (Phase β × List (Call β)) (Outcome β) where
  init := (.reading, [])
  step x o := (C.loop x.1 o).map fun y => (y.1, x.2 ++ y.2)

section Loop

variable {ph ph₁ ph₂ : Phase β} {o : Outcome β} {cs cs₁ cs₂ : List (Call β)}

/-- What the two loops do alike, where `Write` keeps its contract. -/
inductive Moves : Phase β → Outcome β → Phase β → List (Call β) → Prop
  | read (data : List β) (err : Option ReadErr) :
      Moves .reading (.read data err) (afterRead data err) []
  | accepted (data : List β) (err : Option ReadErr) :
      Moves (.writing data err) (.write .accepted) (afterError err) [.write data]
  | failed (data : List β) (err : Option ReadErr) (n : ℕ) (hn : n ≤ data.length) :
      Moves (.writing data err) (.write (.failed n)) (.ended .byWrite) [.write (data.take n)]

theorem copyAndDone_moves (h : copyAndDone.loop ph o = some (ph₁, cs)) (ho : o.lawful = true) :
    Moves ph o ph₁ cs := by
  unfold copyAndDone.loop at h
  split at h
  · obtain ⟨-, h⟩ := Option.ite_none_right_eq_some.mp h
    cases h
    exact .read _ _
  · cases h
    exact .accepted _ _
  · obtain ⟨hn, h⟩ := Option.ite_none_right_eq_some.mp h
    cases h
    exact .failed _ _ _ hn
  · cases ho
  · cases h

/-- Where `Write` keeps its contract, the session's loop goes on as `io.Copy` does: it differs in
the size of the buffer only. -/
theorem copyAndDone_of_ioCopy (h : ioCopy ph o = some (ph₁, cs)) (ho : o.lawful = true) :
    copyAndDone.loop ph o = some (ph₁, cs) := by
  unfold ioCopy at h
  split at h
  · obtain ⟨hlen, h⟩ := Option.ite_none_right_eq_some.mp h
    exact Option.ite_none_right_eq_some.mpr ⟨by omega, h⟩
  · exact h
  · exact h
  · cases ho
  · cases h

theorem ioCopy_moves (h : ioCopy ph o = some (ph₁, cs)) (ho : o.lawful = true) :
    Moves ph o ph₁ cs :=
  copyAndDone_moves (copyAndDone_of_ioCopy h ho) ho

theorem Moves.unique (h₁ : Moves ph o ph₁ cs₁) (h₂ : Moves ph o ph₂ cs₂) :
    ph₁ = ph₂ ∧ cs₁ = cs₂ := by
  cases h₁ <;> cases h₂ <;> exact ⟨rfl, rfl⟩

end Loop

/-- A copier whose loop is as described. -/
structure Copier.Regular (C : Copier β) : Prop where
  moves : ∀ {ph o ph' cs}, C.loop ph o = some (ph', cs) → o.lawful = true → Moves ph o ph' cs
  finish : ∀ hasCloseWrite e, delivered (C.finish hasCloseWrite e) = [] ∧
    signals (C.finish hasCloseWrite e) = C.finish hasCloseWrite e

theorem copyAndDone_regular : (copyAndDone : Copier β).Regular := by
  refine ⟨copyAndDone_moves, fun cw e => ?_⟩
  cases e <;> cases cw <;> exact ⟨rfl, rfl⟩

theorem copyHalfClose_regular : (copyHalfClose : Copier β).Regular := by
  refine ⟨ioCopy_moves, fun cw e => ?_⟩
  cases cw <;> exact ⟨rfl, rfl⟩

section Run

variable {C C₁ C₂ : Copier β} {os : List (Outcome β)} {ph ph₁ ph₂ : Phase β}
  {cs cs₁ cs₂ : List (Call β)}

theorem loops_concat {o : Outcome β}
    (h : C.loops.run C.loops.init (os ++ [o]) = some (ph₁, cs₁)) :
    ∃ ph cs cs', C.loops.run C.loops.init os = some (ph, cs) ∧ C.loop ph o = some (ph₁, cs') ∧
      cs₁ = cs ++ cs' := by
  obtain ⟨⟨ph, cs⟩, hr, hst⟩ := Machine.run_concat.mp h
  obtain ⟨⟨ph', cs'⟩, hl, heq⟩ := Option.map_eq_some_iff.mp hst
  cases heq
  exact ⟨ph, cs, cs', hr, hl, rfl⟩

/-- With the same outcomes, two loops are at the same point and have made the same calls. -/
theorem loops_agree (h₁ : C₁.Regular) (h₂ : C₂.Regular) (hos : ∀ o ∈ os, o.lawful = true) :
    ∀ {ph₁ ph₂ cs₁ cs₂}, C₁.loops.run C₁.loops.init os = some (ph₁, cs₁) →
      C₂.loops.run C₂.loops.init os = some (ph₂, cs₂) → ph₁ = ph₂ ∧ cs₁ = cs₂ := by
  induction os using List.reverseRecOn with
  | nil =>
    intro ph₁ ph₂ cs₁ cs₂ hr₁ hr₂
    cases hr₁
    cases hr₂
    exact ⟨rfl, rfl⟩
  | append_singleton os o ih =>
    intro ph₁ ph₂ cs₁ cs₂ hr₁ hr₂
    have ho := hos o (by simp)
    obtain ⟨p₁, d₁, e₁, hp₁, hl₁, rfl⟩ := loops_concat hr₁
    obtain ⟨p₂, d₂, e₂, hp₂, hl₂, rfl⟩ := loops_concat hr₂
    obtain ⟨rfl, rfl⟩ := ih (fun o ho => hos o (by simp [ho])) hp₁ hp₂
    obtain ⟨rfl, rfl⟩ := (h₁.moves hl₁ ho).unique (h₂.moves hl₂ ho)
    exact ⟨rfl, rfl⟩

theorem afterRead_ne {data : List β} {err : Option ReadErr} :
    afterRead data err ≠ .ended .byWrite := by
  unfold afterRead afterError
  split
  · cases err <;> nofun
  · nofun

/-- The loop writes, and it is left by a `Write` exactly if one has failed. -/
theorem loops_ending (hC : C.Regular) (hos : ∀ o ∈ os, o.lawful = true) :
    ∀ {ph cs}, C.loops.run C.loops.init os = some (ph, cs) →
      signals cs = [] ∧ (ph = .ended .byWrite ↔ ∃ o ∈ os, o.fails = true) := by
  induction os using List.reverseRecOn with
  | nil =>
    intro ph cs hr
    cases hr
    exact ⟨rfl, nofun, nofun⟩
  | append_singleton os o ih =>
    intro ph cs hr
    obtain ⟨p, d, e, hp, hl, rfl⟩ := loops_concat hr
    obtain ⟨hsignals, hended⟩ := ih (fun o ho => hos o (by simp [ho])) hp
    have hm := hC.moves hl (hos o (by simp))
    -- The loop was going on, so a failing `Write` can only be the last outcome.
    have hlast : (∃ o' ∈ os ++ [o], o'.fails = true) ↔ o.fails = true := by
      constructor
      · rintro ⟨o', ho', hfails⟩
        rcases List.mem_append.mp ho' with ho' | ho'
        · rw [hended.mpr ⟨o', ho', hfails⟩] at hm
          cases hm
        · exact List.mem_singleton.mp ho' ▸ hfails
      · exact fun hfails => ⟨o, by simp, hfails⟩
    rw [hlast, signals_append, hsignals]
    cases hm with
    | read data err => exact ⟨rfl, fun h => absurd h afterRead_ne, nofun⟩
    | accepted data err =>
      refine ⟨rfl, fun h => ?_, nofun⟩
      cases err <;> cases h
    | failed data err n => exact ⟨rfl, fun _ => rfl, fun _ => rfl⟩

end Run

/-! ## A direction in a run -/

/-- A direction is where its loop is with the outcomes so far, or has finished after it. -/
structure Line.Ok (C : Copier β) (hasCloseWrite : Bool) (l : Line β) : Prop where
  lawful : ∀ o ∈ l.outcomes, o.lawful = true
  loop : ∃ cs, C.loops.run C.loops.init l.outcomes = some (l.phase, cs) ∧
    ((l.stage = .copying ∧ l.calls = cs) ∨
      (l.stage ≠ .copying ∧ ∃ e, l.phase = .ended e ∧ l.calls = cs ++ C.finish hasCloseWrite e))

section Line

variable {C : Copier β} {cw : Bool} {l l' : Line β}

theorem Line.Ok.copying (h : l.Ok C cw) (hcopying : l.stage = .copying) :
    C.loops.run C.loops.init l.outcomes = some (l.phase, l.calls) := by
  obtain ⟨cs, hr, ⟨-, rfl⟩ | ⟨hne, -⟩⟩ := h.loop
  · exact hr
  · exact absurd hcopying hne

theorem Line.Ok.outcome (h : l.Ok C cw) {o : Outcome β} (ho : o.lawful = true)
    (hst : C.line cw l (some o) = some l') : l'.Ok C cw := by
  obtain ⟨hcopying, hst⟩ := Option.ite_none_right_eq_some.mp hst
  obtain ⟨⟨ph, cs'⟩, hl, rfl⟩ := Option.map_eq_some_iff.mp hst
  refine ⟨fun o' ho' => ?_, l.calls ++ cs', ?_, .inl ⟨rfl, rfl⟩⟩
  · rcases List.mem_append.mp ho' with ho' | ho'
    · exact h.lawful o' ho'
    · rw [List.mem_singleton.mp ho']
      exact ho
  · refine Machine.run_concat.mpr ⟨_, h.copying hcopying, ?_⟩
    simp only [Copier.loops, hl, Option.map_some]

theorem Line.Ok.finish (h : l.Ok C cw) (hst : C.line cw l none = some l') : l'.Ok C cw := by
  unfold Copier.line at hst
  dsimp only at hst
  split at hst
  · rename_i e hphase hcopying
    obtain rfl := Option.some.inj hst
    exact ⟨h.lawful, l.calls, h.copying hcopying, .inr ⟨nofun, e, hphase, rfl⟩⟩
  · cases hst

theorem Line.Ok.send (h : l.Ok C cw) (hstage : l.stage = .finished) :
    ({ l with stage := .done } : Line β).Ok C cw := by
  obtain ⟨cs, hr, ⟨hcopying, -⟩ | ⟨-, hend⟩⟩ := h.loop
  · rw [hstage] at hcopying
    cases hcopying
  · exact ⟨h.lawful, cs, hr, .inr ⟨nofun, hend⟩⟩

end Line

section Bridge

variable {C : Copier β} {hasCloseWrite : End → Bool} {w w' : World β}

theorem lines_setLine {Q : End → Line β → Prop} (h : ∀ d, Q d (w.lines d)) {d : End} {l : Line β}
    (hl : Q d l) (d' : End) : Q d' ((w.setLine d l).lines d') := by
  unfold World.setLine
  rcases eq_or_ne d' d with rfl | hd
  · simpa using hl
  · simpa [hd] using h d'

theorem stepMain_lines (h : w.stepMain = some w') : w'.lines = w.lines := by
  unfold World.stepMain at h
  split at h
  · obtain ⟨-, h⟩ := Option.ite_none_right_eq_some.mp h
    exact Option.some.inj h ▸ rfl
  · obtain ⟨-, h⟩ := Option.ite_none_right_eq_some.mp h
    exact Option.some.inj h ▸ rfl
  · exact Option.some.inj h ▸ rfl
  · exact Option.some.inj h ▸ rfl
  · cases h

theorem ok_step {a : Act β} (ha : a.lawful = true) (h : ∀ d, (w.lines d).Ok C (hasCloseWrite d))
    (hst : C.step hasCloseWrite w a = some w') (d : End) : (w'.lines d).Ok C (hasCloseWrite d) := by
  cases a with
  | outcome d' o =>
    obtain ⟨l, hl, rfl⟩ := Option.map_eq_some_iff.mp hst
    exact lines_setLine (Q := fun d l => l.Ok C (hasCloseWrite d)) h ((h d').outcome ha hl) d
  | finish d' =>
    obtain ⟨l, hl, rfl⟩ := Option.map_eq_some_iff.mp hst
    exact lines_setLine (Q := fun d l => l.Ok C (hasCloseWrite d)) h ((h d').finish hl) d
  | send d' =>
    obtain ⟨hstage, hst⟩ := Option.ite_none_right_eq_some.mp hst
    obtain rfl := Option.some.inj hst
    exact lines_setLine (Q := fun d l => l.Ok C (hasCloseWrite d)) h ((h d').send hstage) d
  | main =>
    rw [stepMain_lines hst]
    exact h d

theorem ok_reach (h : (C.bridge hasCloseWrite).ReachWhile (fun _ a => a.lawful = true) w)
    (d : End) : (w.lines d).Ok C (hasCloseWrite d) := by
  refine Machine.ReachWhile.invariant (M := C.bridge hasCloseWrite)
    (I := fun w => ∀ d, (w.lines d).Ok C (hasCloseWrite d)) (fun _ => ?_) ?_ h d
  · exact ⟨nofun, [], rfl, .inl ⟨rfl, rfl⟩⟩
  · intro w a w' _ hi ha hst
    exact ok_step ha hi hst

end Bridge

/-! ## The two bridges side by side -/

section Both

variable {hasCloseWrite : End → Bool} {w w' w₁ : World β} {l l' : Line β}

theorem Lockstep.setLine (h : Lockstep w w') {d : End} (hphase : l.phase = l'.phase)
    (hstage : l.stage = l'.stage) (houtcomes : l.outcomes = l'.outcomes) :
    Lockstep (w.setLine d l) (w'.setLine d l') := by
  unfold World.setLine
  refine ⟨fun d' => ?_, fun d' => ?_, fun d' => ?_, h.done, h.main, h.closed⟩
  all_goals rcases eq_or_ne d' d with rfl | hd
  · simpa using hphase
  · simpa [hd] using h.phase d'
  · simpa using hstage
  · simpa [hd] using h.stage d'
  · simpa using houtcomes
  · simpa [hd] using h.outcomes d'

theorem Lockstep.stepMain (h : Lockstep w w') (hst : w.stepMain = some w₁) :
    ∃ w₂, w'.stepMain = some w₂ ∧ Lockstep w₁ w₂ := by
  unfold World.stepMain at hst ⊢
  rw [← h.main, ← h.done, ← h.closed]
  split at hst
  · obtain ⟨hpos, hst⟩ := Option.ite_none_right_eq_some.mp hst
    obtain rfl := Option.some.inj hst
    exact ⟨_, if_pos hpos, h.phase, h.stage, h.outcomes, rfl, rfl, rfl⟩
  · obtain ⟨hpos, hst⟩ := Option.ite_none_right_eq_some.mp hst
    obtain rfl := Option.some.inj hst
    exact ⟨_, if_pos hpos, h.phase, h.stage, h.outcomes, rfl, rfl, rfl⟩
  · obtain rfl := Option.some.inj hst
    exact ⟨_, rfl, h.phase, h.stage, h.outcomes, rfl, rfl, rfl⟩
  · obtain rfl := Option.some.inj hst
    exact ⟨_, rfl, h.phase, h.stage, h.outcomes, rfl, rfl, rfl⟩
  · cases hst

/-- The session's direction follows the command's. -/
theorem line_outcome {cw : Bool} {o : Outcome β} (ho : o.lawful = true)
    (hphase : l.phase = l'.phase) (hstage : l.stage = l'.stage)
    (houtcomes : l.outcomes = l'.outcomes) {l₁ : Line β}
    (hst : copyHalfClose.line cw l (some o) = some l₁) :
    ∃ l₂, copyAndDone.line cw l' (some o) = some l₂ ∧ l₁.phase = l₂.phase ∧ l₁.stage = l₂.stage ∧
      l₁.outcomes = l₂.outcomes := by
  obtain ⟨hcopying, hst⟩ := Option.ite_none_right_eq_some.mp hst
  obtain ⟨⟨ph, cs⟩, hl, rfl⟩ := Option.map_eq_some_iff.mp hst
  have hl' : copyAndDone.loop l'.phase o = some (ph, cs) :=
    hphase ▸ copyAndDone_of_ioCopy hl ho
  refine ⟨⟨ph, .copying, l'.calls ++ cs, l'.outcomes ++ [o]⟩, ?_, rfl, rfl, by rw [houtcomes]⟩
  unfold Copier.line
  dsimp only
  rw [if_pos (hstage ▸ hcopying)]
  exact congrArg (Option.map _) hl'

theorem line_finish {cw : Bool} (hphase : l.phase = l'.phase) (hstage : l.stage = l'.stage)
    {l₁ : Line β} (hst : copyHalfClose.line cw l none = some l₁) :
    ∃ l₂, copyAndDone.line cw l' none = some l₂ ∧ l₁.phase = l₂.phase ∧ l₁.stage = l₂.stage ∧
      l₁.outcomes = l.outcomes ∧ l₂.outcomes = l'.outcomes := by
  unfold Copier.line at hst ⊢
  dsimp only at hst ⊢
  rw [← hphase, ← hstage]
  split at hst
  · rename_i e he _
    obtain rfl := Option.some.inj hst
    exact ⟨_, rfl, rfl, rfl, rfl, rfl⟩
  · cases hst

theorem lockstep_step {a : Act β} (ha : a.lawful = true) (h : Lockstep w w')
    (hst : (copyHalfClose.bridge hasCloseWrite).step w a = some w₁) :
    ∃ w₂, (copyAndDone.bridge hasCloseWrite).step w' a = some w₂ ∧ Lockstep w₁ w₂ := by
  cases a with
  | outcome d o =>
    obtain ⟨l₁, hl, rfl⟩ := Option.map_eq_some_iff.mp hst
    obtain ⟨l₂, hl₂, hphase, hstage, houtcomes⟩ :=
      line_outcome ha (h.phase d) (h.stage d) (h.outcomes d) hl
    exact ⟨_, congrArg (Option.map _) hl₂, h.setLine hphase hstage houtcomes⟩
  | finish d =>
    obtain ⟨l₁, hl, rfl⟩ := Option.map_eq_some_iff.mp hst
    obtain ⟨l₂, hl₂, hphase, hstage, ho, ho'⟩ := line_finish (h.phase d) (h.stage d) hl
    refine ⟨_, congrArg (Option.map _) hl₂, h.setLine hphase hstage ?_⟩
    rw [ho, ho', h.outcomes d]
  | send d =>
    obtain ⟨hstage, hst⟩ := Option.ite_none_right_eq_some.mp hst
    obtain rfl := Option.some.inj hst
    have hset : Lockstep (w.setLine d { w.lines d with stage := .done })
        (w'.setLine d { w'.lines d with stage := .done }) :=
      h.setLine (h.phase d) rfl (h.outcomes d)
    refine ⟨_, if_pos (h.stage d ▸ hstage), hset.phase, hset.stage, hset.outcomes, ?_, h.main,
      h.closed⟩
    exact congrArg (· + 1) h.done
  | main => exact h.stepMain hst

/-- **The session's bridge follows the command's**, with the same outcomes in the same order. -/
theorem lockstep_run {as : List (Act β)} (has : ∀ a ∈ as, a.lawful = true)
    (hrun : (copyHalfClose.bridge hasCloseWrite).run (copyHalfClose.bridge hasCloseWrite).init as =
      some w) :
    ∃ w', (copyAndDone.bridge hasCloseWrite).run (copyAndDone.bridge hasCloseWrite).init as =
      some w' ∧ Lockstep w w' := by
  refine Machine.run_rel (M := copyHalfClose.bridge hasCloseWrite)
    (N := copyAndDone.bridge hasCloseWrite) (R := Lockstep)
    (P := fun a b => a = b ∧ a.lawful = true) ?_ ?_
    ⟨fun _ => rfl, fun _ => rfl, fun _ => rfl, rfl, rfl, rfl⟩ hrun
  · rintro w w' a _ w₁ h ⟨rfl, ha⟩ hst
    exact lockstep_step ha h hst
  · exact List.forall₂_same.mpr fun a ha => ⟨rfl, has a ha⟩

/-- What a direction has delivered is what its loop has written. -/
theorem Line.Ok.delivered {C : Copier β} {cw : Bool} (hC : C.Regular) (h : l.Ok C cw) :
    ∃ cs, C.loops.run C.loops.init l.outcomes = some (l.phase, cs) ∧
      delivered l.calls = Bridge.delivered cs := by
  obtain ⟨cs, hr, ⟨-, hcalls⟩ | ⟨-, e, -, hcalls⟩⟩ := h.loop
  · exact ⟨cs, hr, by rw [hcalls]⟩
  · refine ⟨cs, hr, ?_⟩
    rw [hcalls, delivered_append, (hC.finish cw e).1, List.append_nil]

/-- How the end of a direction is signalled. -/
theorem Line.Ok.signals {C : Copier β} {cw : Bool} (hC : C.Regular) (h : l.Ok C cw)
    (hdone : l.stage = .done) : ∃ e, Bridge.signals l.calls = C.finish cw e ∧
      (e = .bySource ↔ ∀ o ∈ l.outcomes, o.fails = false) := by
  obtain ⟨cs, hr, ⟨hcopying, -⟩ | ⟨-, e, he, hcalls⟩⟩ := h.loop
  · rw [hdone] at hcopying
    cases hcopying
  · obtain ⟨hsignals, hended⟩ := loops_ending hC h.lawful hr
    refine ⟨e, by rw [hcalls, signals_append, hsignals, (hC.finish cw e).2, List.nil_append], ?_⟩
    have hnone : (∀ o ∈ l.outcomes, o.fails = false) ↔ ¬ ∃ o ∈ l.outcomes, o.fails = true := by
      simp
    rw [hnone, ← hended, he]
    cases e <;> simp

theorem mem_signals_iff {cs : List (Call β)} {c : Call β} (hc : ∀ bs, c ≠ .write bs) :
    c ∈ signals cs ↔ c ∈ cs := by
  unfold signals
  rw [List.mem_filter]
  cases c with
  | write bs => exact absurd rfl (hc bs)
  | closeWrite | close => simp

theorem shut_iff {cw : Bool} {cs : List (Call β)} : Shut cw cs ↔ Shut cw (signals cs) := by
  unfold Shut
  cases cw <;> exact (mem_signals_iff (by simp)).symm

end Both

/-- **The two bridges are alike exactly where the destination has `CloseWrite` and takes all that is
written to it.** -/
theorem bridges_alike_iff (hasCloseWrite : End → Bool) :
    (∀ (as : List (Act β)) (w : World β), (∀ a ∈ as, a.lawful = true) →
      (copyHalfClose.bridge hasCloseWrite).run (copyHalfClose.bridge hasCloseWrite).init as =
        some w →
      ∃ w', (copyAndDone.bridge hasCloseWrite).run (copyAndDone.bridge hasCloseWrite).init as =
        some w' ∧ Lockstep w w') ∧
    ∀ w w' : World β,
      (copyAndDone.bridge hasCloseWrite).ReachWhile (fun _ a => a.lawful = true) w →
      (copyHalfClose.bridge hasCloseWrite).ReachWhile (fun _ a => a.lawful = true) w' →
      ∀ d, (w.lines d).outcomes = (w'.lines d).outcomes →
        delivered (w.lines d).calls = delivered (w'.lines d).calls ∧
        ((w'.lines d).stage = .done → Shut (hasCloseWrite d) (w'.lines d).calls) ∧
        ((w.lines d).stage = .done → (w'.lines d).stage = .done →
          (EndsAlike (hasCloseWrite d) (w.lines d) (w'.lines d) ↔
            hasCloseWrite d = true ∧ ∀ o ∈ (w.lines d).outcomes, o.fails = false)) := by
  refine ⟨fun as w has hrun => lockstep_run has hrun, fun w w' hw hw' d hsame => ?_⟩
  have hok := ok_reach hw d
  have hok' := ok_reach hw' d
  have hshut' : (w'.lines d).stage = .done → Shut (hasCloseWrite d) (w'.lines d).calls := by
    intro hdone
    obtain ⟨e, hsignals, -⟩ := hok'.signals copyHalfClose_regular hdone
    rw [shut_iff, hsignals]
    unfold Shut copyHalfClose halfCloseWrite
    cases hasCloseWrite d <;> exact List.mem_singleton.mpr rfl
  refine ⟨?_, hshut', fun hdone hdone' => ?_⟩
  · obtain ⟨cs, hr, hcs⟩ := hok.delivered copyAndDone_regular
    obtain ⟨cs', hr', hcs'⟩ := hok'.delivered copyHalfClose_regular
    obtain ⟨-, rfl⟩ := loops_agree copyAndDone_regular copyHalfClose_regular hok.lawful hr
      (hsame ▸ hr')
    rw [hcs, hcs']
  · obtain ⟨e, hsignals, he⟩ := hok.signals copyAndDone_regular hdone
    obtain ⟨e', hsignals', -⟩ := hok'.signals copyHalfClose_regular hdone'
    rw [← he]
    constructor
    · intro h
      have heq := h.same
      rw [hsignals, hsignals'] at heq
      unfold copyAndDone copyAndDone.finish copyHalfClose halfCloseWrite at heq
      cases e <;> cases hcw : hasCloseWrite d <;> simp_all
    · rintro ⟨hcw, rfl⟩
      have heq : signals (w.lines d).calls = signals (w'.lines d).calls := by
        rw [hsignals, hsignals', hcw]
        rfl
      refine ⟨heq, ?_, hshut' hdone'⟩
      rw [shut_iff, heq, ← shut_iff]
      exact hshut' hdone'

/-- `b` reads a request and its end, and answers; `a` has `CloseWrite`. -/
def requestAnswered : List (Act ℕ) :=
  [.outcome .b (.read [1, 2] none), .outcome .b (.write .accepted),
   .outcome .b (.read [3] (some .eof)), .outcome .b (.write .accepted), .finish .b, .send .b, .main,
   .outcome .a (.read [4] none), .outcome .a (.write .accepted),
   .outcome .a (.read [] (some .other)), .finish .a, .send .a, .main, .main, .main]

theorem requestAnswered_alike : ∃ w w',
    (copyAndDone.bridge fun _ => true).ReachWhile (fun _ a => a.lawful = true) w ∧
    (copyHalfClose.bridge fun _ => true).ReachWhile (fun _ a => a.lawful = true) w' ∧
    delivered (w.lines .b).calls = [1, 2, 3] ∧ w.closed = [.a, .b] ∧
    EndsAlike true (w.lines .a) (w'.lines .a) ∧ EndsAlike true (w.lines .b) (w'.lines .b) := by
  have hw := Machine.reachWhile_of_run (M := copyAndDone.bridge fun _ => true)
    (C := fun _ a => a.lawful) requestAnswered rfl
  have hw' := Machine.reachWhile_of_run (M := copyHalfClose.bridge fun _ => true)
    (C := fun _ a => a.lawful) requestAnswered rfl
  have halike := (bridges_alike_iff fun _ => true).2 _ _ hw hw'
  refine ⟨_, _, hw, hw', rfl, rfl, ?_, ?_⟩
  · exact ((halike .a rfl).2.2 rfl rfl).mpr ⟨rfl, by decide⟩
  · exact ((halike .b rfl).2.2 rfl rfl).mpr ⟨rfl, by decide⟩

/-- Both endpoints with `CloseWrite`, and a `Write` to `b` fails. -/
def writeFails : List (Act ℕ) :=
  [.outcome .b (.read [1, 2] none), .outcome .b (.write (.failed 1)), .finish .b, .send .b, .main]

/-- The source of direction `b` ends. -/
def sourceEnds : List (Act ℕ) :=
  [.outcome .b (.read [] (some .eof)), .finish .b, .send .b, .main]

/-- **An end that is not passed on.** A `Write` to `b` fails: the command shuts its write side, the
session does not, and both wait for the other direction. The same when the source ends and `b`, a
backend, has no `CloseWrite`: the command closes it. -/
theorem end_not_signalled :
    (∃ w w', (copyAndDone.bridge fun _ => true).run (copyAndDone.bridge fun _ => true).init
        writeFails = some w ∧
      (copyHalfClose.bridge fun _ => true).run (copyHalfClose.bridge fun _ => true).init
        writeFails = some w' ∧
      (w.lines .b).calls = [.write [1]] ∧ (w'.lines .b).calls = [.write [1], .closeWrite] ∧
      w.main = .second ∧ ¬ EndsAlike true (w.lines .b) (w'.lines .b)) ∧
    ∃ w w', (copyAndDone.bridge fun _ => false).run (copyAndDone.bridge fun _ => false).init
        sourceEnds = some w ∧
      (copyHalfClose.bridge fun _ => false).run (copyHalfClose.bridge fun _ => false).init
        sourceEnds = some w' ∧
      (w.lines .b).calls = [] ∧ (w'.lines .b).calls = [.close] ∧ w.main = .second ∧
      ¬ EndsAlike false (w.lines .b) (w'.lines .b) := by
  refine ⟨⟨_, _, rfl, rfl, rfl, rfl, rfl, fun h => ?_⟩, _, _, rfl, rfl, rfl, rfl, rfl, fun h => ?_⟩
  · have hsame := h.same
    cases hsame
  · have hshut := h.shut
    cases hshut

end OutRelayAgent.Bridge
