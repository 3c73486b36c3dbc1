import OutRelayAgent.Lib.Machine
import Mathlib.Logic.Function.Basic

/-!
# The control reader across reconnects

Model of `controlReader` (`promote.go:76-153`) against `RunWithReconnect` and `Reconnect`
(`session.go:701-854`), after `EnableP2P` has started the first reader (`promote.go:32-47`).

* **The reader** evaluates `s.ctrl` anew at the top of its loop, parses a frame from what it got,
  dispatches it, and loops. It stops when `ParseFrame` fails or the context is done.
* **`Reconnect`** closes the connection, dials (each address opens a control stream of its own and
  reads `HELLO_ACK` from it), sets `s.ctrl`, and for each exposed service writes `REGISTER` and
  reads the reply from `s.ctrl`. A failure ends the attempt, and the next one follows after a pause.
  When an attempt returns `nil`, `restartControlReaderIfEnabled` starts a new reader
  (`promote.go:49-63`), on the assumption that the old one has exited by then.
* The transport is outside this repository. What is used of it: `ParseFrame` does not return a frame
  from a stream of a connection that was closed here. It may fail at any time.

The old reader exits only if it is inside `ParseFrame` when `s.ctrl` is set. A reader that is
dispatching a frame, or has just been started, goes on to the new stream.

* `one_reader`: at most one goroutine reads a control stream, and a reader reads only the stream
  that was current when it was started, in every run in which each swap of `s.ctrl` finds every
  living reader inside `ParseFrame` (`settled`). Any other swap leads to a state where that is not
  so.
* `reads_new_ctrl`: a reader that was dispatching waits for the frame `Reconnect` is waiting for.
-/

namespace OutRelayAgent.ControlReader

open Lib

/-- A control stream, numbered in the order of opening. -/
abbrev Ctrl := ℕ

/-- Where a control reader stands. -/
inductive Pos
  | loop
  | parsing (st : Ctrl)
  | dispatching
  | stopped
  deriving DecidableEq

/-- A control reader, and the control stream that was current when it was started. -/
structure Reader where
  pos : Pos
  born : Ctrl

/-- Where `RunWithReconnect` stands. -/
inductive Main
  /-- In `Run`. -/
  | running
  | attempt
  | dialing
  /-- Reads `HELLO_ACK` from a new control stream. -/
  | hello (st : Ctrl)
  | swap (st : Ctrl)
  /-- At the top of the `REGISTER` loop. -/
  | replay
  /-- Reads `REGISTER_ACK`. -/
  | ack (st : Ctrl)
  | resuming
  /-- `Reconnect` has returned `nil`. -/
  | reconnected
  | backoff
  | ended

structure World where
  ctrl : Ctrl
  nextCtrl : Ctrl
  /-- The control streams whose connection has been closed. -/
  closed : Ctrl → Bool
  main : Main
  readers : ℕ → Reader
  count : ℕ

inductive Choice
  | ok
  | err
  /-- No service is left to register. -/
  | done

inductive Act
  | reader (i : ℕ) (c : Choice)
  | main (c : Choice)

/-- `controlReader`. -/
def readerNext (w : World) : Pos → Choice → Option Pos
  | .loop, .ok => some (.parsing w.ctrl)
  | .parsing st, .ok => if w.closed st then none else some .dispatching
  | .parsing _, .err => some .stopped
  | .dispatching, .ok => some .loop
  -- `ctx` is done.
  | .dispatching, .err => some .stopped
  | _, _ => none

def World.close (w : World) (st : Ctrl) : World :=
  { w with closed := Function.update w.closed st true }

/-- `go s.controlReader(ctx)`. -/
def World.spawn (w : World) : World :=
  { w with readers := Function.update w.readers w.count ⟨.loop, w.ctrl⟩, count := w.count + 1 }

/-- `RunWithReconnect` and `Reconnect`. -/
def mainNext (w : World) : Main → Choice → Option World
  | .running, .ok => some { w with main := .ended }
  | .running, .err => some { w with main := .attempt }
  | .attempt, .ok => some { w.close w.ctrl with main := .dialing }
  -- No address is given.
  | .attempt, .err => some { w with main := .backoff }
  | .dialing, .ok => some { w with main := .hello w.nextCtrl, nextCtrl := w.nextCtrl + 1 }
  | .dialing, .err => some { w with main := .dialing }
  | .dialing, .done => some { w with main := .backoff }
  | .hello st, .ok => some { w with main := .swap st }
  | .hello st, .err => some { w.close st with main := .dialing }
  | .swap st, .ok => some { w with main := .replay, ctrl := st }
  | .replay, .ok => some { w with main := .ack w.ctrl }
  | .replay, .err => some { w with main := .backoff }
  | .replay, .done => some { w with main := .resuming }
  | .ack _, .ok => some { w with main := .replay }
  | .ack _, .err => some { w with main := .backoff }
  | .resuming, .ok => some { w with main := .reconnected }
  | .reconnected, .ok => some { w.spawn with main := .running }
  | .backoff, .ok => some { w with main := .attempt }
  | .backoff, .err => some { w with main := .ended }
  | _, _ => none

def step (w : World) : Act → Option World
  | .reader i c =>
    match readerNext w (w.readers i).pos c with
    | some pos => some { w with readers := Function.update w.readers i ⟨pos, (w.readers i).born⟩ }
    | none => none
  | .main c => mainNext w w.main c

/-- After `EnableP2P`, on control stream 0. -/
def machine : Machine World Act where
  init :=
    { ctrl := 0
      nextCtrl := 1
      closed := fun _ => false
      main := .running
      readers := fun i => if i = 0 then ⟨.loop, 0⟩ else ⟨.stopped, 0⟩
      count := 1 }
  step := step

/-- Inside `ParseFrame`, or gone. -/
def Pos.parked : Pos → Bool
  | .parsing _ | .stopped => true
  | _ => false

def Main.swapping : Main → Bool
  | .swap _ => true
  | _ => false

/-- `s.ctrl` is set while every living reader is inside `ParseFrame`. -/
def settled (w : World) : Act → Bool
  | .main _ => !w.main.swapping || (List.range w.count).all fun i => (w.readers i).pos.parked
  | .reader _ _ => true

/-- The control stream `Reconnect` is reading from. -/
def Main.reads : Main → Option Ctrl
  | .hello st | .ack st => some st
  | _ => none

/-- At most one goroutine reads a control stream, and a reader reads the one it was started for. -/
structure OneReader (w : World) : Prop where
  apart : ∀ i j st, (w.readers i).pos = .parsing st → (w.readers j).pos = .parsing st → i = j
  reconnect : ∀ i st, (w.readers i).pos = .parsing st → w.main.reads ≠ some st
  own : ∀ i st, (w.readers i).pos = .parsing st → st = (w.readers i).born

/-! ## What a step can do -/

variable {w w' : World}

/-- What a step of a reader does. -/
theorem reader_cases {i : ℕ} {c : Choice} (h : step w (.reader i c) = some w') :
    ∃ pos, readerNext w (w.readers i).pos c = some pos ∧
      w' = { w with readers := Function.update w.readers i ⟨pos, (w.readers i).born⟩ } := by
  simp only [step] at h
  split at h
  · rename_i pos hpos
    exact ⟨pos, hpos, by simpa using h.symm⟩
  · cases h

/-- The steps of a reader: it leaves `ParseFrame` of a closed stream only to stop. -/
theorem readerNext_cases {pos pos' : Pos} {c : Choice} (h : readerNext w pos c = some pos') :
    (pos = .loop ∧ pos' = .parsing w.ctrl) ∨
    (∃ st, pos = .parsing st ∧ w.closed st = false ∧ pos' = .dispatching) ∨
    (pos = .dispatching ∧ pos' = .loop) ∨ (pos ≠ .stopped ∧ pos' = .stopped) := by
  unfold readerNext at h
  split at h
  · exact .inl ⟨rfl, by simpa using h.symm⟩
  · rename_i st
    by_cases hc : w.closed st = true
    · simp [hc] at h
    · refine .inr (.inl ⟨st, rfl, by simpa using hc, ?_⟩)
      simpa [hc] using h.symm
  · exact .inr (.inr (.inr ⟨nofun, by simpa using h.symm⟩))
  · exact .inr (.inr (.inl ⟨rfl, by simpa using h.symm⟩))
  · exact .inr (.inr (.inr ⟨nofun, by simpa using h.symm⟩))
  · cases h

/-- Between the swap of `s.ctrl` and the start of the next reader. -/
def Main.registering : Main → Bool
  | .replay | .ack _ | .resuming | .reconnected => true
  | _ => false

/-- What holds where `RunWithReconnect` stands: while it dials, the current stream is closed; the
streams it has opened are new; replies are read from the current one. -/
def MainOk (w : World) : Prop :=
  match w.main with
  | .dialing => w.closed w.ctrl = true
  | .hello st | .swap st => w.closed w.ctrl = true ∧ w.ctrl < st ∧ st < w.nextCtrl
  | .ack st => st = w.ctrl
  | _ => True

/-- The steps of `RunWithReconnect`: it sets `s.ctrl`, starts a reader, or does neither. -/
inductive MainMoves (w w' : World) : Prop
  | swaps (st : Ctrl) : w.main = .swap st → w' = { w with main := .replay, ctrl := st } →
      MainMoves w w'
  | spawns : w.main = .reconnected → w' = { w.spawn with main := .running } → MainMoves w w'
  | goes : w'.ctrl = w.ctrl → w.nextCtrl ≤ w'.nextCtrl →
      (∀ st, w.closed st = true → w'.closed st = true) → w'.readers = w.readers →
      w'.count = w.count → (w'.main.registering = true → w.main.registering = true) →
      (w.ctrl < w.nextCtrl → MainOk w → MainOk w') → MainMoves w w'

theorem close_self (st : Ctrl) : (w.close st).closed st = true := by simp [World.close]

theorem close_mono (st : Ctrl) : ∀ st', w.closed st' = true → (w.close st).closed st' = true := by
  intro st' h
  by_cases hst : st' = st
  · subst hst
    exact close_self st'
  · simpa [World.close, hst] using h

theorem main_moves {c : Choice} (h : mainNext w w.main c = some w') : MainMoves w w' := by
  have hrefl : ∀ st, w.closed st = true → w.closed st = true := fun _ h => h
  unfold mainNext at h
  split at h <;> cases h
  -- `running`
  · exact .goes rfl (Nat.le_refl _) hrefl rfl rfl nofun fun _ _ => trivial
  · exact .goes rfl (Nat.le_refl _) hrefl rfl rfl nofun fun _ _ => trivial
  -- `attempt`
  · exact .goes rfl (Nat.le_refl _) (close_mono _) rfl rfl nofun fun _ _ => close_self _
  · exact .goes rfl (Nat.le_refl _) hrefl rfl rfl nofun fun _ _ => trivial
  -- `dialing`
  · rename_i hm
    refine .goes rfl (Nat.le_succ _) hrefl rfl rfl nofun fun hlt hok => ?_
    simp only [MainOk, hm] at hok
    exact ⟨hok, hlt, Nat.lt_succ_self _⟩
  · rename_i hm
    refine .goes rfl (Nat.le_refl _) hrefl rfl rfl nofun fun _ hok => ?_
    simpa only [MainOk, hm] using hok
  · exact .goes rfl (Nat.le_refl _) hrefl rfl rfl nofun fun _ _ => trivial
  -- `hello`
  · rename_i st hm
    refine .goes rfl (Nat.le_refl _) hrefl rfl rfl nofun fun _ hok => ?_
    simpa only [MainOk, hm] using hok
  · rename_i st hm
    refine .goes rfl (Nat.le_refl _) (close_mono _) rfl rfl nofun fun _ hok => ?_
    simp only [MainOk, hm] at hok
    exact close_mono _ _ hok.1
  -- `swap`
  · exact .swaps _ ‹_› rfl
  -- `replay`
  · rename_i hm
    exact .goes rfl (Nat.le_refl _) hrefl rfl rfl (fun _ => by rw [hm]; rfl) fun _ _ => rfl
  · exact .goes rfl (Nat.le_refl _) hrefl rfl rfl nofun fun _ _ => trivial
  · rename_i hm
    exact .goes rfl (Nat.le_refl _) hrefl rfl rfl (fun _ => by rw [hm]; rfl) fun _ _ => trivial
  -- `ack`
  · rename_i hm
    exact .goes rfl (Nat.le_refl _) hrefl rfl rfl (fun _ => by rw [hm]; rfl) fun _ _ => trivial
  · exact .goes rfl (Nat.le_refl _) hrefl rfl rfl nofun fun _ _ => trivial
  -- `resuming`
  · rename_i hm
    exact .goes rfl (Nat.le_refl _) hrefl rfl rfl (fun _ => by rw [hm]; rfl) fun _ _ => trivial
  -- `reconnected`
  · exact .spawns ‹_› rfl
  -- `backoff`
  · exact .goes rfl (Nat.le_refl _) hrefl rfl rfl nofun fun _ _ => trivial
  · exact .goes rfl (Nat.le_refl _) hrefl rfl rfl nofun fun _ _ => trivial

/-! ## In every run -/

structure Ages (w : World) : Prop where
  ctrl : w.ctrl < w.nextCtrl
  main : MainOk w
  born : ∀ i, (w.readers i).born ≤ w.ctrl
  absent : ∀ i, w.count ≤ i → (w.readers i).pos = .stopped

theorem ages_reader {i : ℕ} {c : Choice} (hw : Ages w) (h : step w (.reader i c) = some w') :
    Ages w' := by
  obtain ⟨pos, hpos, rfl⟩ := reader_cases h
  refine ⟨hw.ctrl, hw.main, fun j => ?_, fun j hj => ?_⟩
  · by_cases hji : j = i
    · subst hji
      simpa using hw.born j
    · simpa [hji] using hw.born j
  · have hji : j ≠ i := by
      rintro rfl
      rw [hw.absent j hj] at hpos
      cases hpos
    simpa [hji] using hw.absent j hj

theorem ages_main (hw : Ages w) (h : MainMoves w w') : Ages w' := by
  cases h with
  | swaps st hm heq =>
    subst heq
    have hok := hw.main
    simp only [MainOk, hm] at hok
    exact ⟨hok.2.2, trivial, fun i => Nat.le_trans (hw.born i) (Nat.le_of_lt hok.2.1), hw.absent⟩
  | spawns hm heq =>
    subst heq
    refine ⟨hw.ctrl, trivial, fun i => ?_, fun i hi => ?_⟩
    · by_cases hic : i = w.count
      · simp [World.spawn, hic]
      · simpa [World.spawn, hic] using hw.born i
    · have hle : w.count ≤ i := Nat.le_of_succ_le hi
      have hic : i ≠ w.count := Nat.ne_of_gt hi
      simpa [World.spawn, hic] using hw.absent i hle
  | goes hctrl hnext _ hreaders hcount _ hmain =>
    refine ⟨?_, hmain hw.ctrl hw.main, ?_, ?_⟩
    · rw [hctrl]
      exact Nat.lt_of_lt_of_le hw.ctrl hnext
    · rw [hctrl, hreaders]
      exact hw.born
    · rw [hcount, hreaders]
      exact hw.absent

theorem reach_ages (h : machine.Reach w) : Ages w := by
  refine Machine.Reach.invariant (M := machine) ?_ ?_ h
  · refine ⟨Nat.one_pos, trivial, fun i => ?_, fun i hi => ?_⟩
    · by_cases hi : i = 0 <;> simp [machine, hi]
    · have hne : i ≠ 0 := Nat.ne_of_gt hi
      simp [machine, hne]
  · rintro w (⟨i, c⟩ | c) w' hw hst
    · exact ages_reader hw hst
    · exact ages_main hw (main_moves hst)

/-! ## In runs whose swaps are settled -/

/-- A reader that has not exited. -/
def Alive (w : World) (i : ℕ) : Prop := (w.readers i).pos ≠ .stopped

structure Settled (w : World) : Prop where
  own : ∀ i st, (w.readers i).pos = .parsing st → st = (w.readers i).born
  /-- A reader of an earlier stream is waiting for its `ParseFrame` to fail. -/
  old : ∀ i, Alive w i → (w.readers i).born < w.ctrl →
    (w.readers i).pos = .parsing (w.readers i).born ∧ w.closed (w.readers i).born = true
  apart : ∀ i j, Alive w i → Alive w j → (w.readers i).born = (w.readers j).born → i = j
  /-- The current stream has no reader until `Reconnect` has returned. -/
  free : w.main.registering = true → ∀ i, Alive w i → (w.readers i).born ≠ w.ctrl

/-- Outside `ParseFrame` of its own stream a living reader was started for the current one. -/
theorem Settled.current (hw : Settled w) (ha : Ages w) {i : ℕ} (hi : Alive w i)
    (hpos : (w.readers i).pos ≠ .parsing (w.readers i).born ∨
      w.closed (w.readers i).born = false) : (w.readers i).born = w.ctrl := by
  by_contra hne
  have hold := hw.old i hi (Nat.lt_of_le_of_ne (ha.born i) hne)
  rcases hpos with hpos | hpos
  · exact hpos hold.1
  · rw [hold.2] at hpos
    cases hpos

/-- A reader that moves stops, or was started for the current stream and reads no other. -/
theorem Settled.moved (hw : Settled w) (ha : Ages w) {i : ℕ} {c : Choice} {pos : Pos}
    (h : readerNext w (w.readers i).pos c = some pos) :
    Alive w i ∧ (pos = .stopped ∨
      ((w.readers i).born = w.ctrl ∧ ∀ st, pos = .parsing st → st = w.ctrl)) := by
  rcases readerNext_cases h with ⟨hp, rfl⟩ | ⟨st, hp, hopen, rfl⟩ | ⟨hp, rfl⟩ | ⟨hp, rfl⟩
  · have hi : Alive w i := by simp [Alive, hp]
    refine ⟨hi, .inr ⟨hw.current ha hi (.inl (by simp [hp])), fun st hst => ?_⟩⟩
    simpa using hst.symm
  · have hi : Alive w i := by simp [Alive, hp]
    have hst := hw.own i st hp
    exact ⟨hi, .inr ⟨hw.current ha hi (.inr (hst ▸ hopen)), nofun⟩⟩
  · have hi : Alive w i := by simp [Alive, hp]
    exact ⟨hi, .inr ⟨hw.current ha hi (.inl (by simp [hp])), nofun⟩⟩
  · exact ⟨hp, .inl rfl⟩

theorem settled_reader {i : ℕ} {c : Choice} (ha : Ages w) (hw : Settled w)
    (h : step w (.reader i c) = some w') : Settled w' := by
  obtain ⟨pos, hpos, rfl⟩ := reader_cases h
  obtain ⟨hi, hmoved⟩ := hw.moved ha hpos
  have hborn : ∀ j, (Function.update w.readers i ⟨pos, (w.readers i).born⟩ j).born =
      (w.readers j).born := by
    intro j
    by_cases hji : j = i
    · subst hji
      simp
    · simp [hji]
  -- Who is alive after the step was alive before.
  have halive : ∀ j, (Function.update w.readers i ⟨pos, (w.readers i).born⟩ j).pos ≠ .stopped →
      Alive w j := by
    intro j hj
    by_cases hji : j = i
    · exact hji ▸ hi
    · simpa [Alive, hji] using hj
  refine ⟨fun j st hst => ?_, fun j hj hlt => ?_, fun j k hj hk hjk => ?_, fun hreg j hj => ?_⟩
  · rw [hborn]
    by_cases hji : j = i
    · subst hji
      have hst : pos = .parsing st := by simpa using hst
      rcases hmoved with rfl | ⟨hcur, hreads⟩
      · cases hst
      · exact (hreads st hst).trans hcur.symm
    · exact hw.own j st (by simpa [hji] using hst)
  · rw [hborn] at hlt ⊢
    by_cases hji : j = i
    · subst hji
      rcases hmoved with rfl | ⟨hcur, -⟩
      · simp [Alive] at hj
      · exact absurd hcur (Nat.ne_of_lt hlt)
    · simpa [hji] using hw.old j (halive j hj) hlt
  · exact hw.apart j k (halive j hj) (halive k hk) (by rwa [hborn, hborn] at hjk)
  · rw [hborn]
    exact hw.free hreg j (halive j hj)

theorem Ages.lt_count (ha : Ages w) {i : ℕ} (hi : Alive w i) : i < w.count := by
  by_contra hle
  exact hi (ha.absent i (Nat.le_of_not_lt hle))

/-- The swap: who was started for the stream that is replaced is inside `ParseFrame`, and the
stream has been closed. -/
theorem settled_swap {st : Ctrl} (ha : Ages w) (hw : Settled w) (hm : w.main = .swap st)
    (hparked : ∀ i, Alive w i → (w.readers i).pos.parked = true) :
    Settled { w with main := .replay, ctrl := st } := by
  have hok := ha.main
  simp only [MainOk, hm] at hok
  obtain ⟨hclosed, hlt, -⟩ := hok
  refine ⟨hw.own, fun i hi _ => ?_, hw.apart, fun _ i _ => ?_⟩
  · by_cases hcur : (w.readers i).born < w.ctrl
    · exact hw.old i hi hcur
    · have hborn : (w.readers i).born = w.ctrl := Nat.le_antisymm (ha.born i) (Nat.not_lt.mp hcur)
      have hp := hparked i hi
      cases hpos : (w.readers i).pos with
      | parsing st' => exact ⟨by rw [hw.own i st' hpos], by rw [hborn]; exact hclosed⟩
      | stopped => exact absurd hpos hi
      | loop => simp [hpos, Pos.parked] at hp
      | dispatching => simp [hpos, Pos.parked] at hp
  · exact Nat.ne_of_lt (Nat.lt_of_le_of_lt (ha.born i) hlt)

theorem settled_spawn (hw : Settled w) (hm : w.main = .reconnected) :
    Settled { w.spawn with main := .running } := by
  have hfree := hw.free (by rw [hm]; rfl)
  have hnew : w.spawn.readers w.count = ⟨.loop, w.ctrl⟩ := by simp [World.spawn]
  have hsame : ∀ i, i ≠ w.count → w.spawn.readers i = w.readers i := by
    intro i hi
    simp [World.spawn, hi]
  refine ⟨fun i st hst => ?_, fun i hi hlt => ?_, fun i j hi hj hij => ?_, nofun⟩
  · by_cases hic : i = w.count
    · subst hic
      rw [show (w.spawn.readers w.count).pos = .loop by rw [hnew]] at hst
      cases hst
    · simp only [hsame i hic] at hst ⊢
      exact hw.own i st hst
  · by_cases hic : i = w.count
    · subst hic
      rw [hnew] at hlt
      exact absurd hlt (Nat.lt_irrefl _)
    · simp only [Alive, hsame i hic] at hi hlt ⊢
      exact hw.old i hi hlt
  · -- The new reader is the only one of the current stream.
    by_cases hic : i = w.count <;> by_cases hjc : j = w.count
    · exact hic.trans hjc.symm
    · subst hic
      simp only [Alive, hsame j hjc] at hj hij
      rw [hnew] at hij
      exact absurd hij.symm (hfree j hj)
    · subst hjc
      simp only [Alive, hsame i hic] at hi hij
      rw [hnew] at hij
      exact absurd hij (hfree i hi)
    · simp only [Alive, hsame i hic, hsame j hjc] at hi hj hij
      exact hw.apart i j hi hj hij

theorem settled_main {c : Choice} (ha : Ages w) (hw : Settled w)
    (hC : settled w (.main c) = true) (h : MainMoves w w') : Settled w' := by
  cases h with
  | swaps st hm heq =>
    subst heq
    refine settled_swap ha hw hm fun i hi => ?_
    simp only [settled, hm, Main.swapping, Bool.not_true, Bool.false_or, List.all_eq_true,
      List.mem_range] at hC
    exact hC i (ha.lt_count hi)
  | spawns hm heq =>
    subst heq
    exact settled_spawn hw hm
  | goes hctrl _ hclosed hreaders _ hreg _ =>
    refine ⟨?_, ?_, ?_, ?_⟩
    · rw [hreaders]
      exact hw.own
    · intro i hi hlt
      simp only [Alive, hreaders, hctrl] at hi hlt ⊢
      exact ⟨(hw.old i hi hlt).1, hclosed _ (hw.old i hi hlt).2⟩
    · simp only [Alive, hreaders]
      exact hw.apart
    · intro hreg' i hi
      simp only [Alive, hreaders, hctrl] at hi ⊢
      exact hw.free (hreg hreg') i hi

theorem reach_settled (h : machine.ReachWhile (fun w a => settled w a = true) w) : Settled w := by
  refine Machine.ReachWhile.invariant (M := machine) ?_ ?_ h
  · have hborn : ∀ i, (machine.init.readers i).born = 0 := by
      intro i
      by_cases hi : i = 0 <;> simp [machine, hi]
    have halive : ∀ i, Alive machine.init i → i = 0 := by
      intro i hi
      by_contra hne
      exact hi (by simp [machine, hne])
    refine ⟨fun i st hst => ?_, fun i _ hlt => ?_, fun i j hi hj _ => ?_, nofun⟩
    · by_cases hi : i = 0 <;> simp [machine, hi] at hst
    · rw [hborn] at hlt
      cases hlt
    · rw [halive i hi, halive j hj]
  · rintro w (⟨i, c⟩ | c) w' hr hw hC hst
    · exact settled_reader (reach_ages hr.reach) hw hst
    · exact settled_main (reach_ages hr.reach) hw hC (main_moves hst)

theorem Settled.oneReader (ha : Ages w) (hw : Settled w) : OneReader w where
  apart i j st hi hj := by
    refine hw.apart i j (by simp [Alive, hi]) (by simp [Alive, hj]) ?_
    rw [← hw.own i st hi, ← hw.own j st hj]
  reconnect i st hi hreads := by
    have hst := hw.own i st hi
    have hok := ha.main
    cases hm : w.main <;> simp only [hm, Main.reads, reduceCtorEq, Option.some.injEq] at hreads
    case hello st' =>
      subst hreads
      simp only [MainOk, hm] at hok
      exact absurd (ha.born i) (Nat.not_le.mpr (hst ▸ hok.2.1))
    case ack st' =>
      subst hreads
      simp only [MainOk, hm] at hok
      exact hw.free (by rw [hm]; rfl) i (by simp [Alive, hi]) (hst.symm.trans hok)
  own := hw.own

/-! ## A swap that finds a reader elsewhere -/

/-- A step of a reader. -/
theorem next_reader (i : ℕ) (c : Choice) (pos : Pos)
    (h : readerNext w (w.readers i).pos c = some pos) :
    machine.Next (fun _ _ => True) w
      { w with readers := Function.update w.readers i ⟨pos, (w.readers i).born⟩ } :=
  ⟨.reader i c, trivial, by simp [machine, step, h]⟩

/-- From the top of its loop a reader gets to read the current control stream. -/
theorem reads_from_loop {i : ℕ} (hpos : (w.readers i).pos = .loop) :
    ∃ w', machine.ReachFrom w w' ∧ w'.readers i = ⟨.parsing w.ctrl, (w.readers i).born⟩ := by
  have hnext := next_reader (w := w) i .ok (.parsing w.ctrl) (by rw [hpos]; rfl)
  exact ⟨_, Relation.ReflTransGen.single hnext, by simp⟩

/-- So it does from anywhere but `ParseFrame`. -/
theorem reads_current {i : ℕ} (hpos : (w.readers i).pos.parked = false) :
    ∃ w', machine.ReachFrom w w' ∧ w'.readers i = ⟨.parsing w.ctrl, (w.readers i).born⟩ := by
  cases hp : (w.readers i).pos with
  | loop => exact reads_from_loop hp
  | dispatching =>
    have hnext := next_reader (w := w) i .ok .loop (by rw [hp]; rfl)
    obtain ⟨w', hr, hw'⟩ := reads_from_loop (i := i)
      (w := { w with readers := Function.update w.readers i ⟨.loop, (w.readers i).born⟩ }) (by simp)
    exact ⟨w', Relation.ReflTransGen.head hnext hr, by simpa using hw'⟩
  | parsing st => simp [hp, Pos.parked] at hpos
  | stopped => simp [hp, Pos.parked] at hpos

/-- After a swap that finds a reader outside `ParseFrame`, that reader may read the new stream. -/
theorem unsettled_swap (ha : Ages w) {c : Choice} (hst : step w (.main c) = some w')
    (hC : settled w (.main c) = false) : ∃ w'', machine.ReachFrom w' w'' ∧ ¬ OneReader w'' := by
  simp only [settled, Bool.or_eq_false_iff, Bool.not_eq_false', List.all_eq_false,
    List.mem_range] at hC
  obtain ⟨hswap, i, -, hpos⟩ := hC
  cases hm : w.main with
  | swap st =>
    have hok := ha.main
    simp only [MainOk, hm] at hok
    obtain rfl : { w with main := .replay, ctrl := st } = w' := by
      rw [step, hm] at hst
      cases c with
      | ok => exact Option.some.inj hst
      | _ => cases hst
    obtain ⟨w'', hr, hreads⟩ :=
      reads_current (w := { w with main := .replay, ctrl := st }) (i := i) (by simpa using hpos)
    refine ⟨w'', hr, fun hone => ?_⟩
    -- It was started for the old stream or an earlier one.
    have hborn : st = (w.readers i).born := by
      simpa [hreads] using hone.own i st (by rw [hreads])
    exact absurd (ha.born i) (Nat.not_le.mpr (hborn ▸ hok.2.1))
  | _ => simp [hm, Main.swapping] at hswap

/-- **One reader per control stream, as long as every swap finds the readers inside `ParseFrame`.**
A swap that finds a living reader elsewhere leads to a state where a reader of the old stream reads
the new one. -/
theorem one_reader (h : machine.Reach w) :
    (machine.ReachWhile (fun w a => settled w a = true) w → OneReader w) ∧
    ∀ a w', machine.step w a = some w' → settled w a = false →
      ∃ w'', machine.ReachFrom w' w'' ∧ ¬ OneReader w'' := by
  have ha := reach_ages h
  refine ⟨fun hrun => (reach_settled hrun).oneReader ha, fun a w' hst hC => ?_⟩
  cases a with
  | reader i c => cases hC
  | main c => exact unsettled_swap ha hst hC

/-- From the loss of the connection to the wait for the first `REGISTER_ACK` on the new one. -/
def reconnects : List Act :=
  [.main .err, .main .ok, .main .ok, .main .ok, .main .ok, .main .ok]

/-- The reader is inside `ParseFrame` when the connection is lost, and exits. -/
theorem one_reader_parked :
    ∃ w, machine.run machine.init ([.reader 0 .ok] ++ reconnects ++ [.reader 0 .err]) = some w ∧
      w.main.reads = some 1 ∧ OneReader w := by
  refine ⟨_, rfl, rfl, ?_⟩
  have hrun := Machine.reachWhile_of_run (M := machine) (C := settled)
    ([.reader 0 .ok] ++ reconnects ++ [.reader 0 .err]) rfl
  exact (one_reader hrun.reach).1 hrun

/-- **Two goroutines wait for one frame.** The reader is dispatching a frame while `Reconnect`
replaces the control stream; it goes on to read the new one, from which `Reconnect` is reading
`REGISTER_ACK`. -/
theorem reads_new_ctrl :
    ∃ w, machine.Reach w ∧ (w.readers 0).born = 0 ∧ (w.readers 0).pos = .parsing 1 ∧
      w.main.reads = some 1 :=
  ⟨_, Machine.reach_of_run (M := machine)
    ([.reader 0 .ok, .reader 0 .ok] ++ reconnects ++ [.reader 0 .ok, .reader 0 .ok]) rfl,
    rfl, rfl, rfl⟩

end OutRelayAgent.ControlReader
