import OutRelayAgent.Lib.Threads
import Mathlib.Data.List.Infix

/-!
# Frames written to the control stream

Who writes to a control stream, with `orp.WriteFrame` taken as a sequence of writes:

* **`writeCtrl`** holds `ctrlWriteMu` over the whole frame (`promote.go:233-239`). `emitOnce`
  (`checkpoints.go:50-70`), the control reader's `CANDIDATE_ANSWER`, and `Promote`'s
  `CANDIDATE_OFFER` and `MIGRATE_TO_P2P` go through it; `emitOnce` writes one frame after the other.
* **`Expose`** writes `REGISTER` to `s.ctrl` without the lock (`session.go:289-308`).
* **`Reconnect`** writes `HELLO` to a new control stream that nobody else knows yet, sets `s.ctrl`
  under the lock, and then writes one `REGISTER` per service to `s.ctrl` without the lock
  (`session.go:719-782`).
* A write that fails leaves the stream broken: nothing can be written to it any more. What a caller
  does after its frame (waiting for an ack) may fail as well.

`writeCtrl` calls exclude each other, but not the unlocked writers, although the comment on
`ctrlWriteMu` lists `Expose` among the writers it serialises.

* `frames_whole`: no two callers are in the middle of a frame on one stream, and what is on a stream
  are whole frames (and the beginning of the frame that is being written, or whose write failed), in
  every run in which an unlocked write and another write to the same stream do not overlap
  (`alone`). A write that begins during another one in violation of it is in the middle of a frame
  together with it.
* `checkpoint_in_register`: a checkpoint is written while `Reconnect` writes `REGISTER`.
-/

namespace OutRelayAgent.ControlWrite

open Lib

/-- A control stream, numbered in the order of opening. -/
abbrev Ctrl := ℕ

/-- What has been written to a control stream, `β` being what one write carries. -/
structure Line (β : Type) where
  wire : List β := []
  /-- A write has failed. -/
  broken : Bool := false
  /-- The frames that were written completely; no step reads it. -/
  sent : List (List β) := []

structure Shared (β : Type) where
  ctrl : Ctrl
  nextCtrl : Ctrl
  /-- `ctrlWriteMu` is held. -/
  locked : Bool
  lines : Ctrl → Line β

/-- On whose behalf a frame is written, and what is left to do afterwards. -/
inductive Kind (β : Type)
  | locked (rest : List (List β))
  | expose
  | hello (regs : List (List β))
  | register (regs : List (List β))

inductive Task (β : Type)
  | done
  /-- Calls of `writeCtrl`, one after the other. -/
  | writeCtrl (frames : List (List β))
  | expose (frame : List β)
  | reconnect (hello : List β) (regs : List (List β))
  | swap (st : Ctrl) (regs : List (List β))
  | replay (regs : List (List β))
  /-- Inside `WriteFrame(st, frame)`, `left` being still to be written. -/
  | writing (k : Kind β) (st : Ctrl) (frame left : List β)

inductive Effect (β : Type)
  | nothing
  | lock
  | openCtrl
  | setCtrl (st : Ctrl)
  | push (st : Ctrl) (x : β)
  | finish (unlocks : Bool) (st : Ctrl) (frame : List β)
  | tear (unlocks : Bool) (st : Ctrl)

inductive Choice
  | ok
  | err

variable {β : Type}

def Kind.holds : Kind β → Bool
  | .locked _ => true
  | _ => false

def Kind.after (st : Ctrl) : Kind β → Task β
  | .locked rest => .writeCtrl rest
  | .expose => .done
  | .hello regs => .swap st regs
  | .register regs => .replay regs

def Line.push (l : Line β) (x : β) : Line β := { l with wire := l.wire ++ [x] }

def Line.finish (l : Line β) (frame : List β) : Line β := { l with sent := l.sent ++ [frame] }

def Line.tear (l : Line β) : Line β := { l with broken := true }

def effect : Effect β → Shared β → Shared β
  | .nothing, s => s
  | .lock, s => { s with locked := true }
  | .openCtrl, s => { s with nextCtrl := s.nextCtrl + 1 }
  | .setCtrl st, s => { s with ctrl := st }
  | .push st x, s => { s with lines := Function.update s.lines st ((s.lines st).push x) }
  -- The caller of `writeCtrl` lets the lock go when `WriteFrame` has returned.
  | .finish unlocks st frame, s =>
    { s with
      locked := s.locked && !unlocks
      lines := Function.update s.lines st ((s.lines st).finish frame) }
  | .tear unlocks st, s =>
    { s with
      locked := s.locked && !unlocks
      lines := Function.update s.lines st (s.lines st).tear }

/-- One step of a goroutine. -/
def next (s : Shared β) : Task β → Choice → Option (Task β × Effect β)
  | .writeCtrl (f :: fs), .ok =>
    if s.locked then none else some (.writing (.locked fs) s.ctrl f f, .lock)
  | .writeCtrl [], .ok => some (.done, .nothing)
  | .expose f, .ok => some (.writing .expose s.ctrl f f, .nothing)
  | .reconnect f regs, .ok => some (.writing (.hello regs) s.nextCtrl f f, .openCtrl)
  -- No address could be dialled.
  | .reconnect _ _, .err => some (.done, .nothing)
  | .swap st regs, .ok => if s.locked then none else some (.replay regs, .setCtrl st)
  | .replay (f :: fs), .ok => some (.writing (.register fs) s.ctrl f f, .nothing)
  | .replay [], .ok => some (.done, .nothing)
  | .writing k st frame (x :: left), .ok =>
    if (s.lines st).broken then none else some (.writing k st frame left, .push st x)
  | .writing k st _ (_ :: _), .err => some (.done, .tear k.holds st)
  | .writing k st frame [], .ok => some (k.after st, .finish k.holds st frame)
  -- The frame is out, the reply does not come.
  | .writing k st frame [], .err => some (.done, .finish k.holds st frame)
  | _, _ => none

def entry (_ : Shared β) : Task β → Bool
  | .writeCtrl _ | .expose _ | .reconnect _ _ => true
  | _ => false

def program (β : Type) : Program (Shared β) (Task β) Choice (Effect β) where
  idle := .done
  entry := entry
  next := next
  effect := effect

/-- A session on control stream 0. -/
def initial : Shared β where
  ctrl := 0
  nextCtrl := 1
  locked := false
  lines _ := {}

def machine (β : Type) : Machine (Program.Pool (Shared β) (Task β)) (Program.Act (Task β) Choice) :=
  (program β).machine initial

/-! ## The condition and the property -/

/-- The stream to which a caller is in the middle of writing a frame. -/
def Task.inside : Task β → Option Ctrl
  | .writing _ st _ _ => some st
  | _ => none

/-- The same, for `Expose` and the `REGISTER` replay, which do not hold the lock. -/
def Task.insideUnlocked : Task β → Option Ctrl
  | .writing .expose st _ _ | .writing (.register _) st _ _ => some st
  | _ => none

/-- A caller about to begin a frame on `s.ctrl`: with the lock or without. -/
def Task.begins : Task β → Option Bool
  | .writeCtrl (_ :: _) => some true
  | .expose _ | .replay (_ :: _) => some false
  | _ => none

/-- A frame that is written with the lock does not begin during one that is written to the same
stream without it, and one that is written without the lock not during any other. -/
def alone (p : Program.Pool (Shared β) (Task β)) : Program.Act (Task β) Choice → Bool
  | .start _ => true
  | .run i _ =>
    match (p.threads i).begins with
    | some true => (List.range p.count).all fun j =>
      (p.threads j).insideUnlocked != some p.shared.ctrl
    | some false => (List.range p.count).all fun j => (p.threads j).inside != some p.shared.ctrl
    | none => true

/-- Frames are written one at a time and stay whole. -/
structure Clean (p : Program.Pool (Shared β) (Task β)) : Prop where
  /-- No two callers are in the middle of a frame on one stream. -/
  exclusive : ∀ i j st, (p.threads i).inside = some st → (p.threads j).inside = some st → i = j
  /-- A stream nobody is writing to holds whole frames. -/
  whole : ∀ st, (∀ i, (p.threads i).inside ≠ some st) → (p.shared.lines st).broken = false →
    (p.shared.lines st).wire = (p.shared.lines st).sent.flatten
  /-- A stream somebody is writing to holds whole frames and what was written of the next one. -/
  midway : ∀ i k st frame left, p.threads i = .writing k st frame left →
    (p.shared.lines st).broken = false →
    ∃ written, frame = written ++ left ∧
      (p.shared.lines st).wire = (p.shared.lines st).sent.flatten ++ written
  /-- A broken stream holds whole frames and the beginning of one. -/
  torn : ∀ st, (p.shared.lines st).broken = true → ∃ frame written, written <+: frame ∧
    (p.shared.lines st).wire = (p.shared.lines st).sent.flatten ++ written

/-! ## What a step can do -/

inductive Moves (s : Shared β) : Task β → Task β → Effect β → Prop
  | locks {f fs} : s.locked = false →
      Moves s (.writeCtrl (f :: fs)) (.writing (.locked fs) s.ctrl f f) .lock
  | exposes {f} : Moves s (.expose f) (.writing .expose s.ctrl f f) .nothing
  | registers {f fs} : Moves s (.replay (f :: fs)) (.writing (.register fs) s.ctrl f f) .nothing
  | opens {f regs} :
      Moves s (.reconnect f regs) (.writing (.hello regs) s.nextCtrl f f) .openCtrl
  | swaps {st regs} : Moves s (.swap st regs) (.replay regs) (.setCtrl st)
  | pushes {k st frame x left} : (s.lines st).broken = false →
      Moves s (.writing k st frame (x :: left)) (.writing k st frame left) (.push st x)
  | finishes {k st frame} :
      Moves s (.writing k st frame []) (k.after st) (.finish k.holds st frame)
  | unanswered {k st frame} : Moves s (.writing k st frame []) .done (.finish k.holds st frame)
  | tears {k st frame left} : Moves s (.writing k st frame left) .done (.tear k.holds st)
  | ends {t} : t.inside = none → t.begins = none → Moves s t .done .nothing

variable {s : Shared β} {t t' u : Task β} {e : Effect β} {c : Choice}

theorem next_moves (h : next s t c = some (t', e)) : Moves s t t' e := by
  unfold next at h
  split at h
  · obtain ⟨hl, h⟩ := Option.ite_none_left_eq_some.mp h
    cases h
    exact .locks (by simpa using hl)
  · cases h
    exact .ends rfl rfl
  · cases h
    exact .exposes
  · cases h
    exact .opens
  · cases h
    exact .ends rfl rfl
  · obtain ⟨-, h⟩ := Option.ite_none_left_eq_some.mp h
    cases h
    exact .swaps
  · cases h
    exact .registers
  · cases h
    exact .ends rfl rfl
  · obtain ⟨hb, h⟩ := Option.ite_none_left_eq_some.mp h
    cases h
    exact .pushes (by simpa using hb)
  · cases h
    exact .tears
  · cases h
    exact .finishes
  · cases h
    exact .unanswered
  · cases h

/-! ## The lock, and the streams `Reconnect` has not announced yet -/

def Task.holds : Task β → Bool
  | .writing k _ _ _ => k.holds
  | _ => false

/-- A control stream that is known to one `Reconnect` only. -/
def Task.fresh : Task β → Option Ctrl
  | .writing (.hello _) st _ _ | .swap st _ => some st
  | _ => none

structure Knows (s : Shared β) (t : Task β) : Prop where
  holds : t.holds = true → s.locked = true
  inside : ∀ st, t.inside = some st → st < s.nextCtrl
  fresh : ∀ st, t.fresh = some st → st < s.nextCtrl ∧ st ≠ s.ctrl

structure Apart (t u : Task β) : Prop where
  holds : t.holds = true → u.holds = false
  fresh : ∀ st, t.fresh = some st → u.fresh ≠ some st

theorem Apart.symm (h : Apart t u) : Apart u t where
  holds hu := by
    by_contra ht
    rw [h.holds (by simpa using ht)] at hu
    cases hu
  fresh st hu ht := h.fresh st ht hu

/-- A caller that is not writing and has no new stream. -/
structure Task.Outside (t : Task β) : Prop where
  holds : t.holds = false
  inside : t.inside = none
  fresh : t.fresh = none

theorem Task.Outside.knows (h : t.Outside) : Knows s t :=
  ⟨by simp [h.holds], by simp [h.inside], by simp [h.fresh]⟩

theorem Task.Outside.apart (h : t.Outside) : Apart t u :=
  ⟨by simp [h.holds], by simp [h.fresh]⟩

theorem entry_outside (s : Shared β) (h : entry s t = true) : t.Outside := by
  cases t with
  | writeCtrl _ | expose _ | reconnect _ _ => exact ⟨rfl, rfl, rfl⟩
  | _ => cases h

theorem Kind.after_inside {k : Kind β} {st : Ctrl} : (k.after st).inside = none := by
  cases k <;> rfl

theorem Kind.after_holds {k : Kind β} {st : Ctrl} : (k.after st).holds = false := by
  cases k <;> rfl

theorem Kind.after_fresh (k : Kind β) (st : Ctrl) (frame left : List β) :
    (k.after st).fresh = (Task.writing k st frame left).fresh := by
  cases k <;> rfl

theorem writing_fresh {k : Kind β} {st st' : Ctrl} {frame left left' : List β}
    (h : (Task.writing k st frame left).fresh = some st') :
    (Task.writing k st frame left').fresh = some st' := by
  rwa [← Kind.after_fresh] at h ⊢

/-- A stream that is known to one caller was so before, or is new. -/
theorem Moves.fresh (h : Moves s t t' e) {st : Ctrl} (ht : t'.fresh = some st) :
    t.fresh = some st ∨ st = s.nextCtrl ∧ (effect e s).nextCtrl = s.nextCtrl + 1 := by
  cases h with
  | opens =>
    cases ht
    exact .inr ⟨rfl, rfl⟩
  | pushes hb => exact .inl (writing_fresh ht)
  | finishes => exact .inl (by rwa [Kind.after_fresh] at ht)
  | _ => cases ht

/-- `s.ctrl` is set to the caller's own stream, which then is no longer its own. -/
theorem Moves.ctrl (h : Moves s t t' e) :
    (effect e s).ctrl = s.ctrl ∨ t.fresh = some (effect e s).ctrl ∧ t'.fresh = none := by
  cases h with
  | swaps => exact .inr ⟨rfl, rfl⟩
  | _ => exact .inl rfl

theorem Moves.nextCtrl_le (h : Moves s t t' e) : s.nextCtrl ≤ (effect e s).nextCtrl := by
  cases h with
  | opens => exact Nat.le_succ _
  | _ => exact Nat.le_refl _

/-- A caller in the middle of a frame was so before, or has begun it: on `s.ctrl` or on a new
stream. -/
theorem Moves.inside (h : Moves s t t' e) {st : Ctrl} (ht : t'.inside = some st) :
    t.inside = some st ∨ st = s.ctrl ∧ t.begins = some t'.holds ∨
      st = s.nextCtrl ∧ (effect e s).nextCtrl = s.nextCtrl + 1 := by
  cases h with
  | locks | exposes | registers =>
    cases ht
    exact .inr (.inl ⟨rfl, rfl⟩)
  | opens =>
    cases ht
    exact .inr (.inr ⟨rfl, rfl⟩)
  | pushes hb => exact .inl ht
  | finishes => simp [Kind.after_inside] at ht
  | _ => cases ht

/-- The lock is taken when it is free, and kept through the frame. -/
theorem Moves.acquires (h : Moves s t t' e) (ht : t'.holds = true) :
    t.holds = true ∧ (effect e s).locked = s.locked ∨
      s.locked = false ∧ (effect e s).locked = true := by
  cases h with
  | locks hl => exact .inr ⟨hl, rfl⟩
  | pushes hb => exact .inl ⟨ht, rfl⟩
  | finishes => simp [Kind.after_holds] at ht
  | _ => cases ht

/-- The lock is let go by its holder only. -/
theorem Moves.releases (h : Moves s t t' e) (hl : s.locked = true) :
    t.holds = true ∨ (effect e s).locked = true := by
  cases h with
  | @finishes k | @unanswered k | @tears k =>
    cases hk : k.holds with
    | true => exact .inl hk
    | false => exact .inr (by simp [effect, hl])
  | locks => exact .inr rfl
  | _ => exact .inr hl

/-- The lock is held by one caller at a time, and a new stream is known to one `Reconnect`. -/
theorem lock_and_streams : (program β).Sound initial (fun _ _ _ => true)
    (fun s => s.ctrl < s.nextCtrl) Knows Apart where
  init := Nat.zero_lt_one
  idle := ⟨⟨nofun, nofun, nofun⟩, ⟨nofun, nofun⟩⟩
  start {s _} _ he := (entry_outside s he).knows
  start_other {s _ _} he _ := ⟨(entry_outside s he).apart, (entry_outside s he).apart.symm⟩
  step {s t c t' e} hG hJ _ hn := by
    have hm := next_moves hn
    have hle := hm.nextCtrl_le
    have hctrl : (effect e s).ctrl < (effect e s).nextCtrl := by
      rcases hm.ctrl with heq | ⟨hf, -⟩
      · exact heq ▸ Nat.lt_of_lt_of_le hG hle
      · exact Nat.lt_of_lt_of_le (hJ.fresh _ hf).1 hle
    refine ⟨hctrl, fun ht => ?_, fun st ht => ?_, fun st ht => ?_⟩
    · rcases hm.acquires ht with ⟨hold, heq⟩ | ⟨-, hl⟩
      · exact heq.trans (hJ.holds hold)
      · exact hl
    · rcases hm.inside ht with hin | ⟨rfl, -⟩ | ⟨rfl, hnew⟩
      · exact Nat.lt_of_lt_of_le (hJ.inside st hin) hle
      · exact Nat.lt_of_lt_of_le hG hle
      · exact hnew ▸ Nat.lt_succ_self _
    · have hsame : (effect e s).ctrl = s.ctrl := hm.ctrl.resolve_right (by simp [ht])
      rcases hm.fresh ht with hf | ⟨rfl, hnew⟩
      · exact ⟨Nat.lt_of_lt_of_le (hJ.fresh st hf).1 hle, hsame ▸ (hJ.fresh st hf).2⟩
      · exact ⟨hnew ▸ Nat.lt_succ_self _, hsame ▸ Nat.ne_of_gt hG⟩
  other {s t u c t' e} hG hJ hu hK _ hn := by
    have hm := next_moves hn
    have hle := hm.nextCtrl_le
    have hknows : Knows (effect e s) u := by
      refine ⟨fun hold => ?_, fun st hin => ?_, fun st hf => ⟨?_, ?_⟩⟩
      · refine (hm.releases (hu.holds hold)).resolve_left fun ht => ?_
        simp [hK.holds ht] at hold
      · exact Nat.lt_of_lt_of_le (hu.inside st hin) hle
      · exact Nat.lt_of_lt_of_le (hu.fresh st hf).1 hle
      · rcases hm.ctrl with heq | ⟨ht, -⟩
        · exact heq ▸ (hu.fresh st hf).2
        · rintro rfl
          exact hK.fresh _ ht hf
    have hapart : Apart t' u := by
      refine ⟨fun ht => ?_, fun st ht hf => ?_⟩
      · rcases hm.acquires ht with ⟨hold, -⟩ | ⟨hfree, -⟩
        · exact hK.holds hold
        · by_contra hold
          simp [hu.holds (by simpa using hold)] at hfree
      · rcases hm.fresh ht with hf' | ⟨rfl, -⟩
        · exact hK.fresh st hf' hf
        · exact Nat.lt_irrefl _ (hu.fresh _ hf).1
    exact ⟨hknows, hapart, hapart.symm⟩

/-! ## One caller at a time -/

variable {p p' : Program.Pool (Shared β) (Task β)} {i j : ℕ} {a : Program.Act (Task β) Choice}

/-- A caller in the middle of a frame holds the lock, or is one of the unlocked writers, or writes
to its own new stream. -/
theorem inside_cases {st : Ctrl} (h : t.inside = some st) :
    t.holds = true ∨ t.insideUnlocked = some st ∨ t.fresh = some st := by
  cases t with
  | writing k =>
    cases k with
    | locked => exact .inl rfl
    | expose | register => exact .inr (.inl h)
    | hello => exact .inr (.inr h)
  | _ => cases h

theorem started_of_inside {st : Ctrl} (h : (machine β).Reach p)
    (hi : (p.threads i).inside = some st) : i < p.count := by
  by_contra hle
  rw [Program.idle_of_count_le (fun _ c => by cases c <;> rfl) h i (Nat.le_of_not_lt hle)] at hi
  cases hi

/-- Nobody else is in the middle of a frame on the stream on which a step begins one. -/
theorem inside_alone {c : Choice} (hh : Program.Holds (fun s => s.ctrl < s.nextCtrl) Knows Apart p)
    (hr : (machine β).Reach p) (hC : alone p (.run i c) = true)
    (hm : Moves p.shared (p.threads i) t' e) {st : Ctrl} (ht : t'.inside = some st)
    (hij : i ≠ j) (hj : (p.threads j).inside = some st) : (p.threads i).inside = some st := by
  rcases hm.inside ht with hin | ⟨rfl, hb⟩ | ⟨rfl, -⟩
  · exact hin
  · have hlt : j ∈ List.range p.count := List.mem_range.2 (started_of_inside hr hj)
    cases hold : t'.holds with
    | false =>
      simp only [alone, hb, hold, List.all_eq_true] at hC
      exact absurd hj (by simpa using hC j hlt)
    | true =>
      simp only [alone, hb, hold, List.all_eq_true] at hC
      -- The other caller holds the lock, writes without it, or writes to a stream of its own.
      rcases inside_cases hj with hjl | hju | hjf
      · rcases hm.acquires hold with ⟨hil, -⟩ | ⟨hfree, -⟩
        · simp [(hh.pair i j hij).holds hil] at hjl
        · simp [(hh.thread j).holds hjl] at hfree
      · exact absurd hju (by simpa using hC j hlt)
      · exact absurd rfl ((hh.thread j).fresh _ hjf).2
  · exact absurd ((hh.thread j).inside _ hj) (Nat.lt_irrefl _)

/-! ## What is on a stream -/

/-- Whole frames, unless a write has failed. -/
def Line.Whole (l : Line β) : Prop := l.broken = false → l.wire = l.sent.flatten

/-- Whole frames and what has been written of `frame`, which is nothing on a broken stream. -/
def Line.Midway (l : Line β) (frame left : List β) : Prop :=
  ∃ written, frame = written ++ left ∧
    (l.broken = false → l.wire = l.sent.flatten ++ written) ∧ (l.broken = true → written = [])

/-- After a failed write, whole frames and the beginning of one. -/
def Line.Torn (l : Line β) : Prop :=
  l.broken = true → ∃ frame written, written <+: frame ∧ l.wire = l.sent.flatten ++ written

variable {l : Line β} {frame left : List β} {x : β}

theorem Line.Whole.midway (h : l.Whole) : l.Midway frame frame :=
  ⟨[], rfl, fun hb => by simpa using h hb, fun _ => rfl⟩

theorem Line.Midway.push (h : l.Midway frame (x :: left)) (hb : l.broken = false) :
    (l.push x).Midway frame left := by
  obtain ⟨written, rfl, hw, -⟩ := h
  refine ⟨written ++ [x], by simp, fun _ => ?_, fun hb' => ?_⟩
  · simp [Line.push, hw hb]
  · simp [Line.push, hb] at hb'

theorem Line.Midway.finish (h : l.Midway frame []) : (l.finish frame).Whole := by
  obtain ⟨written, rfl, hw, -⟩ := h
  intro hb
  simp [Line.finish, hw hb]

theorem Line.Torn.finish (ht : l.Torn) (h : l.Midway frame []) : (l.finish frame).Torn := by
  obtain ⟨written, rfl, -, hnil⟩ := h
  intro hb
  obtain ⟨f, w, hpre, hwire⟩ := ht hb
  exact ⟨f, w, hpre, by simpa [Line.finish, hnil hb] using hwire⟩

theorem Line.Torn.tear (ht : l.Torn) (h : l.Midway frame left) : l.tear.Torn := by
  intro _
  cases hb : l.broken with
  | true => exact ht hb
  | false =>
    obtain ⟨written, rfl, hw, -⟩ := h
    exact ⟨written ++ left, written, List.prefix_append _ _, hw hb⟩

/-- What the streams of a pool hold. -/
structure Tidy (p : Program.Pool (Shared β) (Task β)) : Prop where
  exclusive : ∀ i j st, (p.threads i).inside = some st → (p.threads j).inside = some st → i = j
  whole : ∀ st, (∀ i, (p.threads i).inside ≠ some st) → (p.shared.lines st).Whole
  midway : ∀ i k st frame left, p.threads i = .writing k st frame left →
    (p.shared.lines st).Midway frame left
  torn : ∀ st, (p.shared.lines st).Torn

/-- A step writes to the stream the caller is in the middle of a frame on. -/
theorem Moves.elsewhere (h : Moves s t t' e) {st : Ctrl} (ht : t.inside ≠ some st) :
    (effect e s).lines st = s.lines st := by
  cases h with
  | pushes | finishes | unanswered | tears =>
    have hne : st ≠ _ := fun heq => ht (congrArg some heq.symm)
    simp [effect, hne]
  | _ => rfl

/-- One caller moves: what it has to leave behind on the stream it was writing to, and what it has
to find on the one it writes to now. -/
theorem Tidy.update {s' : Shared β} {n : ℕ} (hp : Tidy p)
    (helse : ∀ st, (p.threads i).inside ≠ some st → s'.lines st = p.shared.lines st)
    (hleft : ∀ st, (p.threads i).inside = some st →
      (s'.lines st).Torn ∧ (t'.inside ≠ some st → (s'.lines st).Whole))
    (halone : ∀ st, t'.inside = some st → ∀ j, i ≠ j → (p.threads j).inside ≠ some st)
    (hnow : ∀ k st frame left, t' = .writing k st frame left → (s'.lines st).Midway frame left) :
    Tidy ⟨s', Function.update p.threads i t', n⟩ := by
  refine ⟨fun j k st hj hk => ?_, fun st hno => ?_, fun j k st frame left hj => ?_, fun st => ?_⟩
  · by_cases hji : j = i <;> by_cases hki : k = i
    · exact hji.trans hki.symm
    · exact absurd (by simpa [hki] using hk) (halone st (by simpa [hji] using hj) k (Ne.symm hki))
    · exact absurd (by simpa [hji] using hj) (halone st (by simpa [hki] using hk) j (Ne.symm hji))
    · exact hp.exclusive j k st (by simpa [hji] using hj) (by simpa [hki] using hk)
  · by_cases hin : (p.threads i).inside = some st
    · exact (hleft st hin).2 (by simpa using hno i)
    · refine helse st hin ▸ hp.whole st fun j => ?_
      rcases eq_or_ne j i with rfl | hji
      · exact hin
      · simpa [hji] using hno j
  · rcases eq_or_ne j i with rfl | hji
    · exact hnow k st frame left (by simpa using hj)
    · have hj' : p.threads j = .writing k st frame left := by simpa [hji] using hj
      have hin : (p.threads i).inside ≠ some st := fun hin =>
        hji (hp.exclusive j i st (by simp [hj', Task.inside]) hin)
      exact helse st hin ▸ hp.midway j k st frame left hj'
  · by_cases hin : (p.threads i).inside = some st
    · exact (hleft st hin).1
    · exact helse st hin ▸ hp.torn st

/-- What a step leaves behind on the stream it wrote to. -/
theorem Moves.leaves (h : Moves s t t' e) {st : Ctrl} (ht : t.inside = some st)
    (htorn : (s.lines st).Torn)
    (hmid : ∀ k st frame left, t = .writing k st frame left → (s.lines st).Midway frame left) :
    ((effect e s).lines st).Torn ∧ (t'.inside ≠ some st → ((effect e s).lines st).Whole) := by
  cases h with
  | pushes hb =>
    cases ht
    refine ⟨fun hbroken => ?_, fun hne => absurd rfl hne⟩
    simp [effect, Line.push, hb] at hbroken
  | finishes | unanswered =>
    cases ht
    have hm := hmid _ _ _ _ rfl
    simpa [effect] using ⟨htorn.finish hm, fun _ => hm.finish⟩
  | tears =>
    cases ht
    have hm := hmid _ _ _ _ rfl
    simpa [effect] using ⟨htorn.tear hm, fun _ hb => by simp [Line.tear] at hb⟩
  | ends hin _ => simp [hin] at ht
  | _ => cases ht

/-- What a caller that is now in the middle of a frame has on its stream: it was in the middle of
it before, or the stream held whole frames. -/
theorem Moves.now (h : Moves s t t' e)
    (hmid : ∀ k st frame left, t = .writing k st frame left → (s.lines st).Midway frame left)
    (hwhole : ∀ st, t'.inside = some st → t.inside ≠ some st → (s.lines st).Whole) :
    ∀ k st frame left, t' = .writing k st frame left →
      ((effect e s).lines st).Midway frame left := by
  intro k st frame left ht
  cases h with
  | locks | exposes | registers | opens =>
    cases ht
    exact (hwhole _ rfl nofun).midway
  | pushes hb =>
    cases ht
    simpa [effect] using (hmid _ _ _ _ rfl).push hb
  | @finishes k => cases k <;> cases ht
  | _ => cases ht

theorem tidy_of_alone (h : (machine β).ReachWhile (fun p a => alone p a = true) p) : Tidy p := by
  refine Machine.ReachWhile.invariant (M := machine β)
    ⟨nofun, fun _ _ _ => rfl, nofun, nofun⟩ ?_ h
  rintro p (t | ⟨i, c⟩) p' hr hp hC hst
  · obtain ⟨he, rfl⟩ := Program.start_cases hst
    have hidle := Program.idle_of_count_le (fun _ c => by cases c <;> rfl) hr.reach p.count le_rfl
    have ht := entry_outside p.shared he
    refine hp.update (fun _ _ => rfl) (fun st hin => ?_) (fun st hin => ?_) ?_
    · rw [hidle] at hin
      cases hin
    · simp [ht.inside] at hin
    · rintro k st frame left rfl
      cases ht.inside
  · obtain ⟨t', e, hn, rfl⟩ := Program.run_cases hst
    have hm := next_moves hn
    have hh := Program.invariant_reach lock_and_streams hr.reach
    have halone : ∀ st, t'.inside = some st → ∀ j, i ≠ j → (p.threads j).inside ≠ some st :=
      fun st ht j hij hj =>
        hij (hp.exclusive i j st (inside_alone hh hr.reach hC hm ht hij hj) hj)
    refine hp.update (fun st hin => hm.elsewhere hin)
      (fun st hin => hm.leaves hin (hp.torn st) (hp.midway i)) halone
      (hm.now (hp.midway i) fun st ht hin => hp.whole st fun j => ?_)
    rcases eq_or_ne i j with rfl | hij
    · exact hin
    · exact halone st ht j hij

/-! ## The results -/

theorem inside_of_insideUnlocked {st : Ctrl} (h : t.insideUnlocked = some st) :
    t.inside = some st := by
  cases t with
  | writing k => cases k <;> first | exact h | cases h
  | _ => cases h

theorem of_alone_eq_false {c : Choice} (h : alone p (.run i c) = false) :
    (p.threads i).begins ≠ none ∧ ∃ j, (p.threads j).inside = some p.shared.ctrl := by
  simp only [alone] at h
  split at h
  · rename_i hb
    obtain ⟨j, -, hj⟩ := List.all_eq_false.1 h
    exact ⟨by simp [hb], j, inside_of_insideUnlocked (by simpa using hj)⟩
  · rename_i hb
    obtain ⟨j, -, hj⟩ := List.all_eq_false.1 h
    exact ⟨by simp [hb], j, by simpa using hj⟩
  · cases h

theorem Moves.begins (h : Moves s t t' e) (hb : t.begins ≠ none) :
    t'.inside = some s.ctrl ∧ t.inside = none := by
  cases h with
  | locks | exposes | registers => exact ⟨rfl, rfl⟩
  | ends _ hnone => exact absurd hnone hb
  | _ => exact absurd rfl hb

/-- A frame that begins in violation of the condition begins in the middle of another one. -/
theorem two_inside {c : Choice} (hC : alone p (.run i c) = false)
    (hst : (machine β).step p (.run i c) = some p') :
    ∃ j st, i ≠ j ∧ (p'.threads i).inside = some st ∧ (p'.threads j).inside = some st := by
  obtain ⟨t', e, hn, rfl⟩ := Program.run_cases hst
  obtain ⟨hb, j, hj⟩ := of_alone_eq_false hC
  obtain ⟨hnow, hbefore⟩ := (next_moves hn).begins hb
  have hij : i ≠ j := by
    rintro rfl
    simp [hbefore] at hj
  exact ⟨j, p.shared.ctrl, hij, by simpa using hnow, by simpa [hij.symm] using hj⟩

/-- **Frames on control streams.** In every run in which a frame of `Expose` or of the `REGISTER`
replay and another frame on the same stream are not written at the same time, frames are written
one at a time and stay whole. A frame that begins in violation of that is written while another
caller is in the middle of a frame on the same stream. -/
theorem frames_whole :
    ((machine β).ReachWhile (fun p a => alone p a = true) p → Clean p) ∧
    ∀ i c p', alone p (.run i c) = false → (machine β).step p (.run i c) = some p' →
      ∃ j st, i ≠ j ∧ (p'.threads i).inside = some st ∧ (p'.threads j).inside = some st := by
  refine ⟨fun hw => ?_, fun i c p' hC hst => two_inside hC hst⟩
  have hp := tidy_of_alone hw
  refine ⟨hp.exclusive, hp.whole, fun i k st frame left hi hb => ?_, hp.torn⟩
  obtain ⟨written, hframe, hwire, -⟩ := hp.midway i k st frame left hi
  exact ⟨written, hframe, hwire hb⟩

/-- `Reconnect` up to the end of the `HELLO` on the new stream and the swap. -/
def reconnects : List (Program.Act (Task ℕ) Choice) :=
  [.start (.reconnect [1] [[2, 3]]), .run 0 .ok, .run 0 .ok, .run 0 .ok, .run 0 .ok]

/-- The service is registered again, and a checkpoint that is waiting begins after that. -/
theorem frames_whole_in_turn :
    ∃ p, (machine ℕ).Reach p ∧ (p.shared.lines 1).wire = [1, 2, 3, 4] ∧ Clean p := by
  have hrun := Machine.reachWhile_of_run (M := machine ℕ) (C := alone)
    (reconnects ++ [.start (.writeCtrl [[4, 5]]), .run 0 .ok, .run 0 .ok, .run 0 .ok, .run 0 .ok,
      .run 1 .ok, .run 1 .ok]) rfl
  exact ⟨_, hrun.reach, rfl, frames_whole.1 hrun⟩

/-- **A checkpoint in the middle of `REGISTER`.** The new stream then carries the first piece of
`REGISTER`, the checkpoint, and the rest of `REGISTER`. -/
theorem checkpoint_in_register :
    (∃ p, (machine ℕ).Reach p ∧ (p.threads 0).inside = some 1 ∧ (p.threads 1).inside = some 1) ∧
    ∃ p, (machine ℕ).Reach p ∧ (∀ i < 2, (p.threads i).inside = none) ∧
      (p.shared.lines 1).broken = false ∧ (p.shared.lines 1).sent = [[1], [4, 5], [2, 3]] ∧
      (p.shared.lines 1).wire = [1, 2, 4, 5, 3] := by
  refine ⟨⟨_, Machine.reach_of_run (M := machine ℕ)
    (reconnects ++ [.start (.writeCtrl [[4, 5]]), .run 0 .ok, .run 0 .ok, .run 1 .ok]) rfl,
    rfl, rfl⟩, ⟨_, Machine.reach_of_run (M := machine ℕ)
    (reconnects ++ [.start (.writeCtrl [[4, 5]]), .run 0 .ok, .run 0 .ok, .run 1 .ok, .run 1 .ok,
      .run 1 .ok, .run 1 .ok, .run 0 .ok, .run 0 .ok]) rfl, ?_, rfl, rfl, rfl⟩⟩
  decide

end OutRelayAgent.ControlWrite
