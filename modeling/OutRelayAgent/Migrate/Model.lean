import OutRelayAgent.Lib.Machine
import OutRelayAgent.Resume.State
import Mathlib.Logic.Function.Basic

/-!
# P2P promotion: moving a live stream from the relay to a direct path

Model of `MigrateToDirect` on one session and `handleDirectStream` on its peer
(`promote.go:512-587`), with the `Read`, `Write`, `CloseWrite` and `Close` calls of the two
wrappers going on meanwhile (`session.go:457-617`). Unlike a reconnect, the relay stream stays
alive and in order throughout.

* **Calls are cut where another goroutine can come in between.** `Read` captures `r.inner` under the
  lock, then calls `inner.Read` on it, then `OnRead`; `Write` captures, calls `inner.Write`, then
  `OnWrite`, and goes round with what was not accepted. `SwapInner` sets `r.inner`, and cancels
  the old inner's read side in a second step. A wrapper has one reader and one writer, the two
  directions of `bridge` (`session.go:984-1002`).
* **A direction** (`Dir`, named after the side that reads) is what its writer's transport has
  accepted, the bytes under way on each path (`Lane`), and what its reader has returned. A byte
  carries the position it was accepted at (`Cell`), which no step reads: a byte that is skipped or
  repeated shows, whatever its value.
* **`CancelRead`** makes what a lane still holds unreadable: the parked `Read` errors, finds
  `resumeReady` closed and goes round (`readErr`; returning the error after the deadline is the
  same step here).
* **Errors** of the migration are choices of the run (`openErr`, `writeResumeErr`, `parseErr`,
  `writeGapErr`), or follow from the state: an id that is not in `s.streams` and a position the
  ring has evicted. Each error branch of `handleDirectStream` closes the direct stream, which the
  initiator sees as a FIN.

One attempt is modelled, from a stream that `Dial` and `handleIncoming` have just set up, so any
history of writes and reads on the relay can come before it.
-/

namespace OutRelayAgent.Migrate

open Lib

/-- The two transport streams. -/
inductive Path
  | relay
  | direct
  deriving DecidableEq, Repr

/-- The session that runs `MigrateToDirect` and the one that runs `handleDirectStream`. -/
inductive Role
  | initiator
  | responder
  deriving DecidableEq, Repr

def Role.peer : Role → Role
  | .initiator => .responder
  | .responder => .initiator

@[simp] theorem Role.peer_peer (x : Role) : x.peer.peer = x := by cases x <;> rfl

@[simp] theorem Role.peer_ne (x : Role) : x.peer ≠ x := by cases x <;> decide

@[simp] theorem Role.ne_peer (x : Role) : x ≠ x.peer := by cases x <;> decide

theorem Role.eq_or_peer (x z : Role) : z = x ∨ z = x.peer := by
  cases x <;> cases z <;> decide

/-- A byte and the position at which it was accepted. -/
abbrev Cell (β : Type) := β × ℕ

/-- One direction of a transport stream. -/
structure Lane (β : Type) where
  inbox : List (Cell β)
  /-- The writer has closed its side. -/
  fin : Bool
  /-- The reader has called `CancelRead`. -/
  cancelled : Bool

/-- Where a `Read` call stands. -/
inductive ReadPc (β : Type)
  | idle
  | captured (p : Path)
  | got (p : Path) (cs : List (Cell β))

/-- Where a `Write` call stands; `todo` is the head of its loop. -/
inductive WritePc (β : Type)
  | idle
  | todo (bs : List β)
  | captured (p : Path) (bs : List β)
  | put (cs : List (Cell β)) (rest : List β)

/-- One direction of the wrapped stream. -/
structure Dir (β : Type) where
  accepted : List (Cell β)
  writer : WritePc β
  relay : Lane β
  direct : Lane β
  reader : ReadPc β
  returned : List (Cell β)
  /-- Those of `returned` that came off the direct stream. -/
  viaDirect : List (Cell β)
  /-- A `Read` has returned `io.EOF`. -/
  eof : Bool

namespace Dir

variable {β : Type}

def lane (d : Dir β) : Path → Lane β
  | .relay => d.relay
  | .direct => d.direct

def setLane (d : Dir β) (p : Path) (l : Lane β) : Dir β :=
  match p with
  | .relay => { d with relay := l }
  | .direct => { d with direct := l }

/-- Put cells on a lane. -/
def push (d : Dir β) (p : Path) (cs : List (Cell β)) : Dir β :=
  d.setLane p { d.lane p with inbox := (d.lane p).inbox ++ cs }

/-- The writer closes its side of a lane. -/
def close (d : Dir β) (p : Path) : Dir β := d.setLane p { d.lane p with fin := true }

/-- `inner.Read` takes `n` bytes off the lane of `p`. -/
def take (d : Dir β) (p : Path) (n : ℕ) : Dir β :=
  { d.setLane p { d.lane p with inbox := (d.lane p).inbox.drop n } with
    reader := .got p ((d.lane p).inbox.take n) }

/-- `Read` returns the bytes it took off `p`. -/
def give (d : Dir β) (p : Path) (cs : List (Cell β)) : Dir β :=
  { d with
    reader := .idle
    returned := d.returned ++ cs
    viaDirect := match p with | .relay => d.viaDirect | .direct => d.viaDirect ++ cs }

/-- `inner.Write` on `p` accepts `bs` and leaves `rest`. -/
def accept (d : Dir β) (p : Path) (bs rest : List β) : Dir β :=
  let cs := bs.zipIdx d.accepted.length
  { d.push p cs with accepted := d.accepted ++ cs, writer := .put cs rest }

end Dir

/-- One side's `ResumableStream`. -/
structure Wrap {β : Type} (L : ResumeLib (Cell β)) where
  inner : Path
  state : L.State
  /-- The wrapper is in `s.streams`. -/
  registered : Bool
  abandoned : Bool
  /-- The application has called `CloseWrite` or `Close`. -/
  finished : Bool
  /-- The inner such a call is about to close. -/
  closer : Option Path

/-- Where `MigrateToDirect` stands. -/
inductive InitPc
  | start
  | opened
  | payload (myPos peerAck : ℕ)
  | sent
  | swapped
  | done
  | failed
  deriving DecidableEq

/-- Where `handleDirectStream` stands. -/
inductive RespPc (β : Type)
  | idle
  | parsed (peerAck : ℕ)
  | found (peerAck : ℕ)
  | gap (cs : List (Cell β))
  | written
  | swapped
  | done
  | refused

structure Net {β : Type} (L : ResumeLib (Cell β)) where
  wraps : Role → Wrap L
  /-- `dirs x` is the direction in which `x` reads. -/
  dirs : Role → Dir β
  ipc : InitPc
  rpc : RespPc β
  /-- The direct stream exists, and the `STREAM_RESUME` under way on it. -/
  stream : Bool
  frame : Option (ℕ × ℕ)

variable {β : Type} {L : ResumeLib (Cell β)}

namespace Net

def setWrap (s : Net L) (x : Role) (w : Wrap L) : Net L :=
  { s with wraps := Function.update s.wraps x w }

def setDir (s : Net L) (x : Role) (d : Dir β) : Net L :=
  { s with dirs := Function.update s.dirs x d }

/-- `handleDirectStream` closes the direct stream and returns. -/
def refuse (s : Net L) : Net L :=
  { s.setDir .initiator ((s.dirs .initiator).close .direct) with rpc := .refused }

end Net

inductive Act (β : Type)
  | readCapture (x : Role)
  | innerRead (x : Role) (n : ℕ)
  | onRead (x : Role)
  | readErr (x : Role)
  | readEof (x : Role)
  | write (x : Role) (bs : List β)
  | writeCapture (x : Role)
  | innerWrite (x : Role) (k : ℕ)
  | onWrite (x : Role)
  | writeErr (x : Role)
  | applyCheckpoint (x : Role) (p : ℕ)
  | closeWrite (x : Role)
  | close (x : Role)
  | closeCapture (x : Role)
  | closeInner (x : Role)
  | openStream
  | openErr
  | resumePayload
  | writeResume
  | writeResumeErr
  | parseFrame
  | parseErr
  | lookup
  | retransmitFrom
  | writeGap
  | writeGapErr (k : ℕ)
  | swapInner (x : Role)
  | cancelRead (x : Role)

/-! ## `Read`, `Write` and `Close` -/

/-- The steps of `Read` on `x`: its wrapper `w` and the direction `d` it reads. -/
def readStep (s : Net L) (x : Role) (w : Wrap L) (d : Dir β) : Act β → Option (Net L)
  | .readCapture _ =>
    match d.reader with
    | .idle =>
      if w.abandoned then none else some (s.setDir x { d with reader := .captured w.inner })
    | _ => none
  | .innerRead _ n =>
    match d.reader with
    | .captured p =>
      let l := d.lane p
      if l.cancelled = false ∧ 0 < n ∧ n ≤ l.inbox.length then
        some (s.setDir x (d.take p n))
      else none
    | _ => none
  | .onRead _ =>
    match d.reader with
    | .got p cs =>
      some ((s.setWrap x { w with state := L.onRead w.state cs.length }).setDir x (d.give p cs))
    | _ => none
  | .readErr _ =>
    match d.reader with
    | .captured p =>
      if (d.lane p).cancelled = true then some (s.setDir x { d with reader := .idle }) else none
    | _ => none
  | .readEof _ =>
    match d.reader with
    | .captured p =>
      if (d.lane p).cancelled = false ∧ (d.lane p).inbox = [] ∧ (d.lane p).fin = true then
        some (s.setDir x { d with reader := .idle, eof := true })
      else none
    | _ => none
  | _ => none

/-- The steps of `Write` on `x`: its wrapper `w` and the direction `d` it writes. -/
def writeStep (s : Net L) (x : Role) (w : Wrap L) (d : Dir β) : Act β → Option (Net L)
  | .write _ bs =>
    match d.writer with
    | .idle => some (s.setDir x.peer { d with writer := .todo bs })
    | _ => none
  | .writeCapture _ =>
    match d.writer with
    | .todo bs =>
      if w.abandoned then none
      else some (s.setDir x.peer { d with writer := .captured w.inner bs })
    | _ => none
  | .innerWrite _ k =>
    match d.writer with
    | .captured p bs => some (s.setDir x.peer (d.accept p (bs.take k) (bs.drop k)))
    | _ => none
  | .onWrite _ =>
    match d.writer with
    | .put cs rest =>
      some ((s.setWrap x { w with state := L.onWrite w.state cs }).setDir x.peer
        { d with writer := if rest.isEmpty then .idle else .todo rest })
    | _ => none
  | .writeErr _ =>
    match d.writer with
    | .todo _ => some (s.setDir x.peer { d with writer := .idle })
    | _ => none
  | _ => none

/-- `CloseWrite` and `Close` on `x`. -/
def closeStep (s : Net L) (x : Role) (w : Wrap L) : Act β → Option (Net L)
  | .closeWrite _ => some (s.setWrap x { w with finished := true, closer := some w.inner })
  | .close _ =>
    -- `forgetStream` and `markAbandoned`
    some (s.setWrap x { w with registered := false, abandoned := true, finished := true })
  | .closeCapture _ =>
    if w.abandoned then some (s.setWrap x { w with closer := some w.inner }) else none
  | .closeInner _ =>
    match w.closer with
    | some p =>
      some ((s.setWrap x { w with closer := none }).setDir x.peer ((s.dirs x.peer).close p))
    | none => none
  | _ => none

/-! ## The migration -/

/-- The steps of `MigrateToDirect`. -/
def initStep (s : Net L) : Act β → Option (Net L)
  | .openStream =>
    match s.ipc with
    | .start => some { s with ipc := .opened, stream := true }
    | _ => none
  | .openErr =>
    match s.ipc with
    | .start => some { s with ipc := .failed }
    | _ => none
  | .resumePayload =>
    match s.ipc with
    | .opened =>
      let p := L.resumePayload (s.wraps .initiator).state
      some { s with ipc := .payload p.1 p.2 }
    | _ => none
  | .writeResume =>
    match s.ipc with
    | .payload myPos peerAck => some { s with ipc := .sent, frame := some (myPos, peerAck) }
    | _ => none
  | .writeResumeErr =>
    match s.ipc with
    | .payload _ _ =>
      some { s.setDir .responder ((s.dirs .responder).close .direct) with ipc := .failed }
    | _ => none
  | .swapInner _ =>
    match s.ipc with
    | .sent =>
      some { s.setWrap .initiator { s.wraps .initiator with inner := .direct } with
        ipc := .swapped }
    | _ => none
  | .cancelRead _ =>
    match s.ipc with
    | .swapped =>
      let d := s.dirs .initiator
      some { s.setDir .initiator { d with relay := { d.relay with cancelled := true } } with
        ipc := .done }
    | _ => none
  | _ => none

/-- The steps of `handleDirectStream`. -/
def respStep (s : Net L) : Act β → Option (Net L)
  | .parseFrame =>
    match s.rpc, s.frame with
    | .idle, some (_, peerAck) => some { s with rpc := .parsed peerAck }
    | _, _ => none
  | .parseErr =>
    match s.rpc with
    | .idle => if s.stream then some s.refuse else none
    | _ => none
  | .lookup =>
    match s.rpc with
    | .parsed peerAck =>
      if (s.wraps .responder).registered then some { s with rpc := .found peerAck }
      else some s.refuse
    | _ => none
  | .retransmitFrom =>
    match s.rpc with
    | .found peerAck =>
      match L.retransmitFrom (s.wraps .responder).state peerAck with
      | some cs => some { s with rpc := .gap cs }
      | none => some s.refuse
    | _ => none
  | .writeGap =>
    match s.rpc with
    | .gap cs =>
      some { s.setDir .initiator ((s.dirs .initiator).push .direct cs) with rpc := .written }
    | _ => none
  | .writeGapErr k =>
    match s.rpc with
    | .gap cs =>
      some (s.setDir .initiator ((s.dirs .initiator).push .direct (cs.take k))).refuse
    | _ => none
  | .swapInner _ =>
    match s.rpc with
    | .written =>
      some { s.setWrap .responder { s.wraps .responder with inner := .direct } with
        rpc := .swapped }
    | _ => none
  | .cancelRead _ =>
    match s.rpc with
    | .swapped =>
      let d := s.dirs .responder
      some { s.setDir .responder { d with relay := { d.relay with cancelled := true } } with
        rpc := .done }
    | _ => none
  | _ => none

/-- One step of the system. -/
def step (s : Net L) (a : Act β) : Option (Net L) :=
  match a with
  | .readCapture x | .innerRead x _ | .onRead x | .readErr x | .readEof x =>
    readStep s x (s.wraps x) (s.dirs x) a
  | .write x _ | .writeCapture x | .innerWrite x _ | .onWrite x | .writeErr x =>
    writeStep s x (s.wraps x) (s.dirs x.peer) a
  | .applyCheckpoint x p =>
    -- a position the peer has reported
    if p ≤ L.received (s.wraps x.peer).state then
      some (s.setWrap x { s.wraps x with
        state := L.onCheckpointFromPeer (s.wraps x).state p })
    else none
  | .closeWrite x | .close x | .closeCapture x | .closeInner x => closeStep s x (s.wraps x) a
  | .openStream | .openErr | .resumePayload | .writeResume | .writeResumeErr => initStep s a
  | .parseFrame | .parseErr | .lookup | .retransmitFrom | .writeGap | .writeGapErr _ =>
    respStep s a
  | .swapInner .initiator | .cancelRead .initiator => initStep s a
  | .swapInner .responder | .cancelRead .responder => respStep s a

/-- A stream spliced by the relay, nothing written. -/
def init (L : ResumeLib (Cell β)) : Net L where
  wraps _ := ⟨.relay, L.newState, true, false, false, none⟩
  dirs _ := ⟨[], .idle, ⟨[], false, false⟩, ⟨[], false, false⟩, .idle, [], [], false⟩
  ipc := .start
  rpc := .idle
  stream := false
  frame := none

def machine (L : ResumeLib (Cell β)) : Machine (Net L) (Act β) := ⟨init L, step⟩

/-! ## What is where -/

/-- The stream a `Read` has captured. -/
def ReadPc.path : ReadPc β → Option Path
  | .idle => none
  | .captured p | .got p _ => some p

/-- What a `Read` has taken off `q` and not returned. -/
def ReadPc.held (q : Path) : ReadPc β → List (Cell β)
  | .got p cs => if p = q then cs else []
  | _ => []

/-- The stream a `Write` has captured. -/
def WritePc.path : WritePc β → Option Path
  | .captured p _ => some p
  | _ => none

/-- What a `Write` has handed to the transport and not yet to `OnWrite`. -/
def WritePc.uncounted : WritePc β → List (Cell β)
  | .put cs _ => cs
  | _ => []

/-- What is under way on the relay stream. -/
def Dir.onRelay (d : Dir β) : List (Cell β) := d.reader.held .relay ++ d.relay.inbox

/-- What `d` has carried on the direct stream. -/
def Dir.overDirect (d : Dir β) : List (Cell β) :=
  d.viaDirect ++ d.reader.held .direct ++ d.direct.inbox

/-- `ResumePayload` has been taken, and `MigrateToDirect` has not failed. -/
def InitPc.announced : InitPc → Bool
  | .start | .opened | .failed => false
  | .payload _ _ | .sent | .swapped | .done => true

/-- The `STREAM_RESUME` has been sent. -/
def InitPc.hasSent : InitPc → Bool
  | .start | .opened | .failed | .payload _ _ => false
  | .sent | .swapped | .done => true

/-- `SwapInner` has taken effect on the initiator's wrapper. -/
def InitPc.moved : InitPc → Bool
  | .swapped | .done => true
  | _ => false

/-- `RetransmitFrom` has been taken, and `handleDirectStream` has not refused. -/
def RespPc.resent : RespPc β → Bool
  | .idle | .parsed _ | .found _ | .refused => false
  | .gap _ | .written | .swapped | .done => true

/-- `SwapInner` has taken effect on the responder's wrapper. -/
def RespPc.moved : RespPc β → Bool
  | .swapped | .done => true
  | _ => false

/-- `handleDirectStream` has the frame, and has not refused. -/
def RespPc.working : RespPc β → Bool
  | .idle | .refused => false
  | _ => true

theorem InitPc.announced_of_hasSent {i : InitPc} (h : i.hasSent = true) : i.announced = true := by
  cases i <;> simp_all [hasSent, announced]

theorem Dir.overDirect_take {d : Dir β} {p : Path} {n : ℕ} (hr : d.reader = .captured p) :
    (d.take p n).overDirect = d.overDirect := by
  cases p <;> simp [Dir.overDirect, Dir.take, Dir.setLane, Dir.lane, ReadPc.held, hr]

theorem Dir.onRelay_take {d : Dir β} {p : Path} {n : ℕ} (hr : d.reader = .captured p) :
    (d.take p n).onRelay = d.onRelay := by
  cases p <;> simp [Dir.onRelay, Dir.take, Dir.setLane, Dir.lane, ReadPc.held, hr]

theorem Dir.overDirect_give {d : Dir β} {p : Path} {cs : List (Cell β)}
    (hr : d.reader = .got p cs) : (d.give p cs).overDirect = d.overDirect := by
  cases p <;> simp [Dir.overDirect, Dir.give, ReadPc.held, hr]

theorem Dir.onRelay_accept (d : Dir β) (bs rest : List β) : (d.accept .relay bs rest).onRelay =
    d.onRelay ++ bs.zipIdx d.accepted.length := (List.append_assoc ..).symm

@[simp] theorem Dir.overDirect_accept_relay (d : Dir β) (bs rest : List β) :
    (d.accept .relay bs rest).overDirect = d.overDirect := rfl

theorem Dir.overDirect_accept (d : Dir β) (bs rest : List β) :
    (d.accept .direct bs rest).overDirect = d.overDirect ++ bs.zipIdx d.accepted.length :=
  (List.append_assoc ..).symm

/-! ## What one step can do -/

namespace Dir

variable (d : Dir β) (p : Path) (n : ℕ) (bs rest : List β) (cs : List (Cell β))

@[simp] theorem take_accepted : (d.take p n).accepted = d.accepted := by cases p <;> rfl

@[simp] theorem take_returned : (d.take p n).returned = d.returned := by cases p <;> rfl

@[simp] theorem take_viaDirect : (d.take p n).viaDirect = d.viaDirect := by cases p <;> rfl

@[simp] theorem take_writer : (d.take p n).writer = d.writer := by cases p <;> rfl

@[simp] theorem take_reader : (d.take p n).reader = .got p ((d.lane p).inbox.take n) := by
  cases p <;> rfl

@[simp] theorem take_relay_fin : (d.take p n).relay.fin = d.relay.fin := by cases p <;> rfl

@[simp] theorem take_direct_fin : (d.take p n).direct.fin = d.direct.fin := by cases p <;> rfl

@[simp] theorem take_eof : (d.take p n).eof = d.eof := by cases p <;> rfl

@[simp] theorem accept_relay_fin : (d.accept p bs rest).relay.fin = d.relay.fin := by
  cases p <;> rfl

@[simp] theorem accept_direct_fin : (d.accept p bs rest).direct.fin = d.direct.fin := by
  cases p <;> rfl

@[simp] theorem accept_eof : (d.accept p bs rest).eof = d.eof := by cases p <;> rfl

@[simp] theorem push_accepted : (d.push p cs).accepted = d.accepted := by cases p <;> rfl

@[simp] theorem push_returned : (d.push p cs).returned = d.returned := by cases p <;> rfl

@[simp] theorem push_viaDirect : (d.push p cs).viaDirect = d.viaDirect := by cases p <;> rfl

@[simp] theorem push_writer : (d.push p cs).writer = d.writer := by cases p <;> rfl

@[simp] theorem push_reader : (d.push p cs).reader = d.reader := by cases p <;> rfl

@[simp] theorem give_accepted : (d.give p cs).accepted = d.accepted := rfl

@[simp] theorem close_accepted : (d.close p).accepted = d.accepted := by cases p <;> rfl

@[simp] theorem close_returned : (d.close p).returned = d.returned := by cases p <;> rfl

@[simp] theorem close_viaDirect : (d.close p).viaDirect = d.viaDirect := by cases p <;> rfl

@[simp] theorem close_writer : (d.close p).writer = d.writer := by cases p <;> rfl

@[simp] theorem close_reader : (d.close p).reader = d.reader := by cases p <;> rfl

@[simp] theorem close_relay_inbox : (d.close p).relay.inbox = d.relay.inbox := by cases p <;> rfl

@[simp] theorem close_direct_inbox : (d.close p).direct.inbox = d.direct.inbox := by
  cases p <;> rfl

@[simp] theorem accept_accepted :
    (d.accept p bs rest).accepted = d.accepted ++ bs.zipIdx d.accepted.length := rfl

@[simp] theorem accept_writer :
    (d.accept p bs rest).writer = .put (bs.zipIdx d.accepted.length) rest := rfl

@[simp] theorem accept_returned : (d.accept p bs rest).returned = d.returned := by
  cases p <;> rfl

@[simp] theorem accept_viaDirect : (d.accept p bs rest).viaDirect = d.viaDirect := by
  cases p <;> rfl

@[simp] theorem accept_reader : (d.accept p bs rest).reader = d.reader := by cases p <;> rfl

end Dir

namespace Net

variable (s : Net L) (x y : Role) (w : Wrap L) (d : Dir β)

@[simp] theorem setWrap_wraps : (s.setWrap x w).wraps y = if y = x then w else s.wraps y :=
  Function.update_apply ..

@[simp] theorem setWrap_dirs : (s.setWrap x w).dirs = s.dirs := rfl

@[simp] theorem setWrap_ipc : (s.setWrap x w).ipc = s.ipc := rfl

@[simp] theorem setWrap_rpc : (s.setWrap x w).rpc = s.rpc := rfl

@[simp] theorem setWrap_frame : (s.setWrap x w).frame = s.frame := rfl

@[simp] theorem setWrap_stream : (s.setWrap x w).stream = s.stream := rfl

@[simp] theorem setDir_dirs : (s.setDir x d).dirs y = if y = x then d else s.dirs y :=
  Function.update_apply ..

@[simp] theorem setDir_wraps : (s.setDir x d).wraps = s.wraps := rfl

@[simp] theorem setDir_ipc : (s.setDir x d).ipc = s.ipc := rfl

@[simp] theorem setDir_rpc : (s.setDir x d).rpc = s.rpc := rfl

@[simp] theorem setDir_frame : (s.setDir x d).frame = s.frame := rfl

@[simp] theorem setDir_stream : (s.setDir x d).stream = s.stream := rfl

end Net

/-- The transitions, one for each action, with the guards that hold when it is taken. -/
inductive Moves (s : Net L) : Act β → Net L → Prop
  | readCapture (x : Role) (h : (s.dirs x).reader = .idle) : Moves s (.readCapture x)
      (s.setDir x { s.dirs x with reader := .captured (s.wraps x).inner })
  | innerRead (x : Role) (n : ℕ) (p : Path) (h : (s.dirs x).reader = .captured p)
      (h0 : 0 < n) (hn : n ≤ ((s.dirs x).lane p).inbox.length) : Moves s (.innerRead x n)
      (s.setDir x ((s.dirs x).take p n))
  | onRead (x : Role) (p : Path) (cs : List (Cell β)) (h : (s.dirs x).reader = .got p cs) :
      Moves s (.onRead x)
      ((s.setWrap x { s.wraps x with state := L.onRead (s.wraps x).state cs.length }).setDir x
        ((s.dirs x).give p cs))
  | readErr (x : Role) (p : Path) (h : (s.dirs x).reader = .captured p) : Moves s (.readErr x)
      (s.setDir x { s.dirs x with reader := .idle })
  | readEof (x : Role) (p : Path) (h : (s.dirs x).reader = .captured p)
      (hf : ((s.dirs x).lane p).fin = true) : Moves s (.readEof x)
      (s.setDir x { s.dirs x with reader := .idle, eof := true })
  | write (x : Role) (bs : List β) (h : (s.dirs x.peer).writer = .idle) : Moves s (.write x bs)
      (s.setDir x.peer { s.dirs x.peer with writer := .todo bs })
  | writeCapture (x : Role) (bs : List β) (h : (s.dirs x.peer).writer = .todo bs) :
      Moves s (.writeCapture x)
      (s.setDir x.peer { s.dirs x.peer with writer := .captured (s.wraps x).inner bs })
  | innerWrite (x : Role) (k : ℕ) (p : Path) (bs : List β)
      (h : (s.dirs x.peer).writer = .captured p bs) : Moves s (.innerWrite x k)
      (s.setDir x.peer ((s.dirs x.peer).accept p (bs.take k) (bs.drop k)))
  | onWrite (x : Role) (cs : List (Cell β)) (rest : List β)
      (h : (s.dirs x.peer).writer = .put cs rest) : Moves s (.onWrite x)
      ((s.setWrap x { s.wraps x with state := L.onWrite (s.wraps x).state cs }).setDir x.peer
        { s.dirs x.peer with writer := if rest.isEmpty then .idle else .todo rest })
  | writeErr (x : Role) (bs : List β) (h : (s.dirs x.peer).writer = .todo bs) :
      Moves s (.writeErr x) (s.setDir x.peer { s.dirs x.peer with writer := .idle })
  | applyCheckpoint (x : Role) (p : ℕ) : Moves s (.applyCheckpoint x p)
      (s.setWrap x { s.wraps x with state := L.onCheckpointFromPeer (s.wraps x).state p })
  | closeWrite (x : Role) : Moves s (.closeWrite x)
      (s.setWrap x { s.wraps x with finished := true, closer := some (s.wraps x).inner })
  | close (x : Role) : Moves s (.close x) (s.setWrap x
      { s.wraps x with registered := false, abandoned := true, finished := true })
  | closeCapture (x : Role) (h : (s.wraps x).abandoned = true) : Moves s (.closeCapture x)
      (s.setWrap x { s.wraps x with closer := some (s.wraps x).inner })
  | closeInner (x : Role) (p : Path) (h : (s.wraps x).closer = some p) : Moves s (.closeInner x)
      ((s.setWrap x { s.wraps x with closer := none }).setDir x.peer
        ((s.dirs x.peer).close p))
  | openStream (h : s.ipc = .start) : Moves s .openStream { s with ipc := .opened, stream := true }
  | openErr (h : s.ipc = .start) : Moves s .openErr { s with ipc := .failed }
  | resumePayload (h : s.ipc = .opened) : Moves s .resumePayload { s with
      ipc := .payload (L.sent (s.wraps .initiator).state) (L.received (s.wraps .initiator).state) }
  | writeResume {m a : ℕ} (h : s.ipc = .payload m a) :
      Moves s .writeResume { s with ipc := .sent, frame := some (m, a) }
  | writeResumeErr {m a : ℕ} (h : s.ipc = .payload m a) : Moves s .writeResumeErr
      { s.setDir .responder ((s.dirs .responder).close .direct) with ipc := .failed }
  | swapInitiator (h : s.ipc = .sent) : Moves s (.swapInner .initiator)
      { s.setWrap .initiator { s.wraps .initiator with inner := .direct } with ipc := .swapped }
  | cancelInitiator (h : s.ipc = .swapped) : Moves s (.cancelRead .initiator)
      { s.setDir .initiator { s.dirs .initiator with
          relay := { (s.dirs .initiator).relay with cancelled := true } } with ipc := .done }
  | parseFrame {m a : ℕ} (h : s.rpc = .idle) (hf : s.frame = some (m, a)) :
      Moves s .parseFrame { s with rpc := .parsed a }
  | parseErr (h : s.rpc = .idle) : Moves s .parseErr s.refuse
  | lookup {a : ℕ} (h : s.rpc = .parsed a) (hr : (s.wraps .responder).registered = true) :
      Moves s .lookup { s with rpc := .found a }
  | unknown {a : ℕ} (h : s.rpc = .parsed a) (hr : (s.wraps .responder).registered = false) :
      Moves s .lookup s.refuse
  | retransmitFrom {a : ℕ} {cs : List (Cell β)} (h : s.rpc = .found a)
      (hg : L.retransmitFrom (s.wraps .responder).state a = some cs) :
      Moves s .retransmitFrom { s with rpc := .gap cs }
  | evicted {a : ℕ} (h : s.rpc = .found a)
      (hg : L.retransmitFrom (s.wraps .responder).state a = none) :
      Moves s .retransmitFrom s.refuse
  | writeGap {cs : List (Cell β)} (h : s.rpc = .gap cs) : Moves s .writeGap
      { s.setDir .initiator ((s.dirs .initiator).push .direct cs) with rpc := .written }
  | writeGapErr {cs : List (Cell β)} (k : ℕ) (h : s.rpc = .gap cs) : Moves s (.writeGapErr k)
      (s.setDir .initiator ((s.dirs .initiator).push .direct (cs.take k))).refuse
  | swapResponder (h : s.rpc = .written) : Moves s (.swapInner .responder)
      { s.setWrap .responder { s.wraps .responder with inner := .direct } with rpc := .swapped }
  | cancelResponder (h : s.rpc = .swapped) : Moves s (.cancelRead .responder)
      { s.setDir .responder { s.dirs .responder with
          relay := { (s.dirs .responder).relay with cancelled := true } } with rpc := .done }

variable {s s' : Net L} {a : Act β}

theorem step_moves (h : step s a = some s') : Moves s a s' := by
  cases a with
  | readCapture x =>
    simp only [step, readStep] at h
    split at h
    · rename_i hr
      split at h <;> cases h
      exact .readCapture x hr
    · cases h
  | innerRead x n =>
    simp only [step, readStep] at h
    split at h
    · rename_i p hr
      split at h <;> cases h
      rename_i hc
      exact .innerRead x n p hr hc.2.1 hc.2.2
    · cases h
  | onRead x =>
    simp only [step, readStep] at h
    split at h <;> cases h
    rename_i p cs hr
    exact .onRead x p cs hr
  | readErr x =>
    simp only [step, readStep] at h
    split at h
    · rename_i p hr
      split at h <;> cases h
      exact .readErr x p hr
    · cases h
  | readEof x =>
    simp only [step, readStep] at h
    split at h
    · rename_i p hr
      split at h <;> cases h
      rename_i hc
      exact .readEof x p hr hc.2.2
    · cases h
  | write x bs =>
    simp only [step, writeStep] at h
    split at h <;> cases h
    rename_i hw
    exact .write x bs hw
  | writeCapture x =>
    simp only [step, writeStep] at h
    split at h
    · rename_i bs hw
      split at h <;> cases h
      exact .writeCapture x bs hw
    · cases h
  | innerWrite x k =>
    simp only [step, writeStep] at h
    split at h <;> cases h
    rename_i p bs hw
    exact .innerWrite x k p bs hw
  | onWrite x =>
    simp only [step, writeStep] at h
    split at h <;> cases h
    rename_i cs rest hw
    exact .onWrite x cs rest hw
  | writeErr x =>
    simp only [step, writeStep] at h
    split at h <;> cases h
    rename_i bs hw
    exact .writeErr x bs hw
  | applyCheckpoint x p =>
    simp only [step] at h
    split at h <;> cases h
    exact .applyCheckpoint x p
  | closeWrite x => cases h; exact .closeWrite x
  | close x => cases h; exact .close x
  | closeCapture x =>
    simp only [step, closeStep] at h
    split at h <;> cases h
    rename_i ha
    exact .closeCapture x ha
  | closeInner x =>
    simp only [step, closeStep] at h
    split at h <;> cases h
    rename_i p hp
    exact .closeInner x p hp
  | openStream =>
    simp only [step, initStep] at h
    split at h <;> cases h
    rename_i hp
    exact .openStream hp
  | openErr =>
    simp only [step, initStep] at h
    split at h <;> cases h
    rename_i hp
    exact .openErr hp
  | resumePayload =>
    simp only [step, initStep] at h
    split at h <;> cases h
    rename_i hp
    exact .resumePayload hp
  | writeResume =>
    simp only [step, initStep] at h
    split at h <;> cases h
    rename_i hp
    exact .writeResume hp
  | writeResumeErr =>
    simp only [step, initStep] at h
    split at h <;> cases h
    rename_i hp
    exact .writeResumeErr hp
  | parseFrame =>
    simp only [step, respStep] at h
    split at h <;> cases h
    rename_i hp hf
    exact .parseFrame hp hf
  | parseErr =>
    simp only [step, respStep] at h
    split at h
    · rename_i hp
      split at h <;> cases h
      exact .parseErr hp
    · cases h
  | lookup =>
    simp only [step, respStep] at h
    split at h
    · rename_i hp
      split at h <;> cases h
      · rename_i hr; exact .lookup hp hr
      · rename_i hr; exact .unknown hp (by simpa using hr)
    · cases h
  | retransmitFrom =>
    simp only [step, respStep] at h
    split at h
    · rename_i hp
      split at h <;> cases h
      · rename_i hg; exact .retransmitFrom hp hg
      · rename_i hg; exact .evicted hp hg
    · cases h
  | writeGap =>
    simp only [step, respStep] at h
    split at h <;> cases h
    rename_i hp
    exact .writeGap hp
  | writeGapErr k =>
    simp only [step, respStep] at h
    split at h <;> cases h
    rename_i hp
    exact .writeGapErr k hp
  | swapInner x =>
    cases x with
    | initiator =>
      simp only [step, initStep] at h
      split at h <;> cases h
      rename_i hp
      exact .swapInitiator hp
    | responder =>
      simp only [step, respStep] at h
      split at h <;> cases h
      rename_i hp
      exact .swapResponder hp
  | cancelRead x =>
    cases x with
    | initiator =>
      simp only [step, initStep] at h
      split at h <;> cases h
      rename_i hp
      exact .cancelInitiator hp
    | responder =>
      simp only [step, respStep] at h
      split at h <;> cases h
      rename_i hp
      exact .cancelResponder hp

end OutRelayAgent.Migrate
