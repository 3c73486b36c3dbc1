import OutRelayAgent.Lib.Threads
import OutRelayAgent.Stream.Io

/-!
# One wrapper and all the calls on it

Model of a `ResumableStream` under concurrent calls, cut at its lock sections and channel
operations: `Read`, `Write` and `waitForResume` (`session.go:457-548`), `Close` and `markAbandoned`
(`session.go:550-573`), `SwapInner` (`session.go:588-601`) with its three callers `Session.Resume`
(`session.go:633-653`), `MigrateToDirect` (`promote.go:568-587`) and `handleDirectStream`
(`promote.go:512-558`), and `forgetStream` (`session.go:403-410`).

* **A channel is a number**, and `closes` counts how often it has been closed: Go panics at the
  second time. `resumeReady` is the current channel, `none` for `nil`.
* **`SwapInner`** replaces the inner and the channel in its lock section, and closes the old channel
  after it (`swapped`). **`markAbandoned`** closes the channel inside its lock section and leaves
  `nil`.
* **`Read` and `Write`** capture `(inner, resumeReady)` in one section. What the captured inner then
  returns, and when a wait times out, is up to the environment (`Stream/Io.lean` has the clock).
* **The three callers of `SwapInner`** hold a transport stream of their own before they call it, and
  close it when they fail. `Resume` works on a wrapper that stood in `ActiveStreams()`,
  `handleDirectStream` on one it finds in `s.streams`, `MigrateToDirect` on the one it is given.

`Stream/Park.lean` is about parking and waking, `Stream/Closing.lean` about `Close` against
`SwapInner`.
-/

namespace OutRelayAgent.Wrapper

open Lib

/-- A `resumeReady` channel. -/
abbrev Chan := ℕ

/-- A transport stream. -/
abbrev TStream := ℕ

/-- A `ResumableStream`, its entry in `s.streams`, and the channels and streams it refers to. -/
structure Wrap where
  inner : TStream
  resumeReady : Option Chan
  abandoned : Bool
  /-- The wrapper stands in `s.streams`. -/
  registered : Bool
  closes : Chan → ℕ
  nextChan : Chan
  /-- The transport streams that have been closed. -/
  closed : List TStream
  nextStream : TStream
  -- The rest is read by no step.
  /-- How often `SwapInner` has installed an inner. -/
  installs : ℕ
  /-- How many sections of `SwapInner` and `markAbandoned` have run. -/
  sections : ℕ
  /-- `Close` has been called. -/
  closing : Bool

/-- `Read`, or `Write` of `len` bytes of which `written` are written. -/
inductive Op
  | read
  | write (len written : ℕ)
  deriving DecidableEq

/-- What a pass of `Read` or `Write` captured, and when: `installs` numbers the inner, `sections`
the moment. -/
structure Capture where
  inner : TStream
  ready : Option Chan
  installs : ℕ
  sections : ℕ
  deriving DecidableEq

/-- Where a call stands. -/
inductive Task (ε : Type)
  | done
  /-- At the top of the loop; after a wait, with the number of the inner that had failed. -/
  | head (op : Op) (failed : Option ℕ)
  | inner (op : Op) (cap : Capture)
  | wait (op : Op) (cap : Capture) (e : ε)
  | returned (op : Op) (err : Option (Stream.Error ε))
  | resume
  | resumeFound
  | resumeOpened (st : TStream)
  | migrate
  | migrateOpened (st : TStream)
  | direct
  | directAccepted (st : TStream)
  | directFound (st : TStream)
  | swap (st : TStream)
  /-- `SwapInner` after its section: `oldReady` is still to be closed. -/
  | swapped (old : TStream) (oldReady : Option Chan)
  | swapCancel (old : TStream)
  /-- `forgetStream` for the wrapper's id. -/
  | forget
  | forgetFound
  | close
  | closeFound (found : Bool)
  | closeSelf
  | closeRead
  | closeInner (st : TStream)

inductive Effect
  | nothing
  | openStream
  | closeStream (st : TStream)
  | swapInner (st : TStream)
  | closeChan (ch : Chan)
  | forgetStream
  | beginClose
  | markAbandoned

/-- What the environment decides: whether a step of a caller succeeds, what the inner returns,
whether a wait times out. -/
inductive Choice (ε : Type)
  | ok
  | err
  | io (n : ℕ) (e : Option (Stream.InnerError ε))
  | timeout

namespace Wrap

def closeChan (s : Wrap) (ch : Chan) : Wrap :=
  { s with closes := Function.update s.closes ch (s.closes ch + 1) }

/-- `close(r.resumeReady); r.resumeReady = nil`, when it is not `nil`. -/
def closeReady (s : Wrap) : Wrap :=
  match s.resumeReady with
  | some ch => { s.closeChan ch with resumeReady := none }
  | none => s

end Wrap

def effect : Effect → Wrap → Wrap
  | .nothing, s => s
  | .openStream, s => { s with nextStream := s.nextStream + 1 }
  | .closeStream st, s => { s with closed := st :: s.closed }
  | .swapInner st, s =>
    { s with
      inner := st
      resumeReady := some s.nextChan
      nextChan := s.nextChan + 1
      installs := s.installs + 1
      sections := s.sections + 1 }
  | .closeChan ch, s => s.closeChan ch
  | .forgetStream, s => { s with registered := false }
  | .beginClose, s => { s with registered := false, closing := true }
  | .markAbandoned, s =>
    if s.abandoned then { s with sections := s.sections + 1 }
    else { s.closeReady with abandoned := true, sections := s.sections + 1 }

variable {ε : Type}

/-- What `Read` and `Write` do with the result of the inner. -/
inductive Verdict (ε : Type)
  | give (err : Option (Stream.Error ε))
  | again
  | wait (e : ε)

/-- `for written < len(p)`; the loop of `Read` has no condition. -/
def Op.more : Op → Bool
  | .read => true
  | .write len written => written < len

/-- The inner returned `n` and `err`. -/
def Op.after : Op → ℕ → Option (Stream.InnerError ε) → Op × Verdict ε
  | .read, n, err =>
    (.read,
      if 0 < n then .give (err.map .inner)
      else
        match err with
        | none => .give none
        | some .eof => .give (some (.inner .eof))
        | some (.transport e) => .wait e)
  | .write len written, n, err =>
    (.write len (written + n),
      if written + n = len then .give none
      else
        match err with
        | none => .again
        | some .eof => .give (some (.inner .eof))
        | some (.transport e) => .wait e)

/-- Where the call goes on. -/
def proceed (cap : Capture) : Op × Verdict ε → Task ε
  | (op, .give err) => .returned op err
  | (op, .again) => .head op none
  | (op, .wait e) => .wait op cap e

/-- Receiving from a channel that is never sent on: possible once it is closed, never on `nil`. -/
def Wrap.readable (s : Wrap) : Option Chan → Bool
  | some ch => 0 < s.closes ch
  | none => false

/-- `ResumableStream.Read`, `Write` and `waitForResume`. -/
def ioNext (s : Wrap) : Task ε → Choice ε → Option (Task ε × Effect)
  | .head op _, .ok =>
    if op.more then
      if s.abandoned then some (.returned op (some .streamLost), .nothing)
      else some (.inner op ⟨s.inner, s.resumeReady, s.installs, s.sections⟩, .nothing)
    else some (.returned op none, .nothing)
  | .inner op cap, .io n err => some (proceed cap (op.after n err), .nothing)
  | .wait op cap _, .ok =>
    if s.readable cap.ready then some (.head op (some cap.installs), .nothing) else none
  | .wait op _ e, .timeout => some (.returned op (some (.inner (.transport e))), .nothing)
  | _, _ => none

/-- `Session.Resume` on a wrapper of `ActiveStreams()`; `Reconnect` forgets the stream when it
fails. -/
def resumeNext (s : Wrap) : Task ε → Choice ε → Option (Task ε × Effect)
  | .resume, .ok => if s.registered then some (.resumeFound, .nothing) else some (.done, .nothing)
  | .resumeFound, .ok => some (.resumeOpened s.nextStream, .openStream)
  | .resumeFound, .err => some (.forget, .nothing)
  | .resumeOpened st, .ok => some (.swap st, .nothing)
  | .resumeOpened st, .err => some (.forget, .closeStream st)
  | _, _ => none

/-- `MigrateToDirect`. -/
def migrateNext (s : Wrap) : Task ε → Choice ε → Option (Task ε × Effect)
  | .migrate, .ok => some (.migrateOpened s.nextStream, .openStream)
  | .migrate, .err => some (.done, .nothing)
  | .migrateOpened st, .ok => some (.swap st, .nothing)
  | .migrateOpened st, .err => some (.done, .closeStream st)
  | _, _ => none

/-- `handleDirectStream`, from the stream `acceptDirectStreams` accepted on. -/
def directNext (s : Wrap) : Task ε → Choice ε → Option (Task ε × Effect)
  | .direct, .ok => some (.directAccepted s.nextStream, .openStream)
  | .directAccepted st, .ok =>
    if s.registered then some (.directFound st, .nothing) else some (.done, .closeStream st)
  | .directAccepted st, .err => some (.done, .closeStream st)
  | .directFound st, .ok => some (.swap st, .nothing)
  | .directFound st, .err => some (.done, .closeStream st)
  | _, _ => none

/-- `SwapInner`. -/
def swapNext (s : Wrap) : Task ε → Choice ε → Option (Task ε × Effect)
  | .swap st, .ok => some (.swapped s.inner s.resumeReady, .swapInner st)
  | .swapped old (some ch), .ok => some (.swapCancel old, .closeChan ch)
  | .swapped old none, .ok => some (.swapCancel old, .nothing)
  -- `old.CancelRead(0)`: a `Read` on the old inner may return an error, as it may at any time.
  | .swapCancel _, .ok => some (.done, .nothing)
  | _, _ => none

/-- `forgetStream`, and `ResumableStream.Close`. -/
def closeNext (s : Wrap) : Task ε → Choice ε → Option (Task ε × Effect)
  | .forget, .ok => some (if s.registered then .forgetFound else .done, .forgetStream)
  | .forgetFound, .ok => some (.done, .markAbandoned)
  | .close, .ok => some (.closeFound s.registered, .beginClose)
  | .closeFound found, .ok => some (.closeSelf, if found then .markAbandoned else .nothing)
  | .closeSelf, .ok => some (.closeRead, .markAbandoned)
  | .closeRead, .ok => some (.closeInner s.inner, .nothing)
  | .closeInner st, .ok => some (.done, .closeStream st)
  | _, _ => none

/-- One step of a call. -/
def next (s : Wrap) (t : Task ε) (c : Choice ε) : Option (Task ε × Effect) :=
  match t with
  | .done | .returned _ _ => none
  | .head _ _ | .inner _ _ | .wait _ _ _ => ioNext s t c
  | .resume | .resumeFound | .resumeOpened _ => resumeNext s t c
  | .migrate | .migrateOpened _ => migrateNext s t c
  | .direct | .directAccepted _ | .directFound _ => directNext s t c
  | .swap _ | .swapped _ _ | .swapCancel _ => swapNext s t c
  | .forget | .forgetFound | .close | .closeFound _ | .closeSelf | .closeRead
  | .closeInner _ => closeNext s t c

/-- The calls: `Read`, `Write`, the three that end in `SwapInner`, `Close`, and `forgetStream` for
the wrapper's id. -/
def entry (_ : Wrap) : Task ε → Bool
  | .head .read none | .head (.write _ 0) none => true
  | .resume | .migrate | .direct | .forget | .close => true
  | _ => false

def program (ε : Type) : Program Wrap (Task ε) (Choice ε) Effect where
  idle := .done
  entry := entry
  next := next
  effect := effect

/-- The wrapper `wrapStream` makes, on stream 0 with channel 0. -/
def initial : Wrap where
  inner := 0
  resumeReady := some 0
  abandoned := false
  registered := true
  closes _ := 0
  nextChan := 1
  closed := []
  nextStream := 1
  installs := 0
  sections := 0
  closing := false

/-- A wrapper under any number of calls, interleaved in any way. -/
def machine (ε : Type) : Machine (Program.Pool Wrap (Task ε)) (Program.Act (Task ε) (Choice ε)) :=
  (program ε).machine initial

/-! ## What a step can do -/

/-- The steps, one constructor for each move of a call, with the guards later proofs use. -/
inductive Moves (s : Wrap) : Task ε → Task ε → Effect → Prop
  | loopEnd {op k} : op.more = false → Moves s (.head op k) (.returned op none) .nothing
  | lost {op k} : op.more = true → s.abandoned = true →
      Moves s (.head op k) (.returned op (some .streamLost)) .nothing
  | capture {op k} : s.abandoned = false →
      Moves s (.head op k) (.inner op ⟨s.inner, s.resumeReady, s.installs, s.sections⟩) .nothing
  | gives {op cap op' err} : err ≠ some .streamLost →
      Moves s (.inner op cap) (.returned op' err) .nothing
  | again {op cap op'} : Moves s (.inner op cap) (.head op' none) .nothing
  | fails {op cap op' e} : Moves s (.inner op cap) (.wait op' cap e) .nothing
  | wakes {op cap e} : s.readable cap.ready = true →
      Moves s (.wait op cap e) (.head op (some cap.installs)) .nothing
  | timesOut {op cap e} :
      Moves s (.wait op cap e) (.returned op (some (.inner (.transport e)))) .nothing
  | resumes : s.registered = true → Moves s .resume .resumeFound .nothing
  | resumeNone : Moves s .resume .done .nothing
  | resumeOpens : Moves s .resumeFound (.resumeOpened s.nextStream) .openStream
  | resumeFails : Moves s .resumeFound .forget .nothing
  | resumeSwaps {st} : Moves s (.resumeOpened st) (.swap st) .nothing
  | resumeCloses {st} : Moves s (.resumeOpened st) .forget (.closeStream st)
  | migrateOpens : Moves s .migrate (.migrateOpened s.nextStream) .openStream
  | migrateFails : Moves s .migrate .done .nothing
  | migrateSwaps {st} : Moves s (.migrateOpened st) (.swap st) .nothing
  | migrateCloses {st} : Moves s (.migrateOpened st) .done (.closeStream st)
  | accepts : Moves s .direct (.directAccepted s.nextStream) .openStream
  | directFinds {st} : s.registered = true →
      Moves s (.directAccepted st) (.directFound st) .nothing
  | directCloses {st} : Moves s (.directAccepted st) .done (.closeStream st)
  | directSwaps {st} : Moves s (.directFound st) (.swap st) .nothing
  | directFails {st} : Moves s (.directFound st) .done (.closeStream st)
  | swaps {st} : Moves s (.swap st) (.swapped s.inner s.resumeReady) (.swapInner st)
  | wakesOthers {old ch} : Moves s (.swapped old (some ch)) (.swapCancel old) (.closeChan ch)
  | wakesNone {old} : Moves s (.swapped old none) (.swapCancel old) .nothing
  | cancels {old} : Moves s (.swapCancel old) .done .nothing
  | forgets : Moves s .forget .forgetFound .forgetStream
  | forgetsNone : Moves s .forget .done .forgetStream
  | forgetMarks : Moves s .forgetFound .done .markAbandoned
  | closes : Moves s .close (.closeFound s.registered) .beginClose
  | closeMarks : Moves s (.closeFound true) .closeSelf .markAbandoned
  | closeMarksNone : Moves s (.closeFound false) .closeSelf .nothing
  | closeMarksSelf : Moves s .closeSelf .closeRead .markAbandoned
  | closeReads : Moves s .closeRead (.closeInner s.inner) .nothing
  | closesInner {st} : Moves s (.closeInner st) .done (.closeStream st)

/-- The inner's result never makes a call return `ErrStreamLost`. -/
theorem Op.after_give {op : Op} {n : ℕ} {err : Option (Stream.InnerError ε)} {op' : Op}
    {r : Option (Stream.Error ε)} (h : op.after n err = (op', .give r)) : r ≠ some .streamLost := by
  rintro rfl
  cases op with
  | read =>
    simp only [Op.after, Prod.mk.injEq] at h
    obtain ⟨-, h⟩ := h
    split at h
    · cases err <;> simp at h
    · split at h <;> simp at h
  | write len written =>
    simp only [Op.after, Prod.mk.injEq] at h
    obtain ⟨-, h⟩ := h
    split at h
    · simp at h
    · split at h <;> simp at h

variable {s : Wrap} {t t' : Task ε} {c : Choice ε} {e : Effect}

theorem ioNext_moves (h : ioNext s t c = some (t', e)) : Moves s t t' e := by
  unfold ioNext at h
  split at h
  · split at h
    · split at h <;> cases h
      · exact .lost ‹_› ‹_›
      · exact .capture (by simpa using ‹¬ s.abandoned = true›)
    · cases h
      exact .loopEnd (by simpa using ‹¬ Op.more _ = true›)
  · rename_i op cap n err
    cases h
    cases hafter : op.after n err with
    | mk op' v =>
      cases v with
      | give r => exact .gives (Op.after_give hafter)
      | again => exact .again
      | wait e => exact .fails
  · split at h
    · cases h
      exact .wakes ‹_›
    · cases h
  · cases h
    exact .timesOut
  · cases h

theorem resumeNext_moves (h : resumeNext s t c = some (t', e)) : Moves s t t' e := by
  unfold resumeNext at h
  split at h
  · split at h <;> cases h
    · exact .resumes ‹_›
    · exact .resumeNone
  all_goals cases h
  · exact .resumeOpens
  · exact .resumeFails
  · exact .resumeSwaps
  · exact .resumeCloses

theorem migrateNext_moves (h : migrateNext s t c = some (t', e)) : Moves s t t' e := by
  unfold migrateNext at h
  split at h <;> cases h
  · exact .migrateOpens
  · exact .migrateFails
  · exact .migrateSwaps
  · exact .migrateCloses

theorem directNext_moves (h : directNext s t c = some (t', e)) : Moves s t t' e := by
  unfold directNext at h
  split at h
  · cases h
    exact .accepts
  · split at h <;> cases h
    · exact .directFinds ‹_›
    · exact .directCloses
  all_goals cases h
  · exact .directCloses
  · exact .directSwaps
  · exact .directFails

theorem swapNext_moves (h : swapNext s t c = some (t', e)) : Moves s t t' e := by
  unfold swapNext at h
  split at h <;> cases h
  · exact .swaps
  · exact .wakesOthers
  · exact .wakesNone
  · exact .cancels

theorem closeNext_moves (h : closeNext s t c = some (t', e)) : Moves s t t' e := by
  unfold closeNext at h
  split at h <;> cases h
  · by_cases hreg : s.registered = true
    · rw [if_pos hreg]
      exact .forgets
    · rw [if_neg hreg]
      exact .forgetsNone
  · exact .forgetMarks
  · exact .closes
  · rename_i found
    cases found with
    | true => exact .closeMarks
    | false => exact .closeMarksNone
  · exact .closeMarksSelf
  · exact .closeReads
  · exact .closesInner

/-- **Every step of a call is one of `Moves`.** -/
theorem next_moves (h : next s t c = some (t', e)) : Moves s t t' e := by
  unfold next at h
  split at h
  case h_1 => cases h
  case h_2 => cases h
  case h_3 | h_4 | h_5 => exact ioNext_moves h
  case h_6 | h_7 | h_8 => exact resumeNext_moves h
  case h_9 | h_10 => exact migrateNext_moves h
  case h_11 | h_12 | h_13 => exact directNext_moves h
  case h_14 | h_15 | h_16 => exact swapNext_moves h
  all_goals exact closeNext_moves h

end OutRelayAgent.Wrapper
