import OutRelayAgent.Lib.Machine
import OutRelayAgent.Resume.State
import Mathlib.Logic.Function.Basic

/-!
# Relay-mediated resume: two sessions sharing one `ResumableStream`

Model of `Session.Resume` / `completeResume` as `Reconnect` drives them (`session.go:633-797`),
of `ResumableStream.Read` / `Write` (`session.go:457-530`) and of `emitOnce` / `applyCheckpoint`
(`checkpoints.go`), for the two ends of one stream and the relay between them.

* A session (`End`) holds its current connection to the relay, the wrapper's `inner`, the
  `resume.State` behind it, and where its `Reconnect` stands (`Pc`). `Resume` has one caller,
  `Reconnect`'s loop, and `Reconnect` closes `s.conn` before it dials, so most streams come to it by
  `run → dial → replay → opened → … → run`. A stream that `Dial` opens after `Reconnect` has set
  `s.conn` and before it takes `ActiveStreams()` is resumed as well, with its inner alive: `Resume`
  may be called at any time, also from `run`. `fail` is every error return of `Resume` once it has
  its stream. After an error the source forgets the stream; the model also lets `Resume` be called
  again.
* A `Half` is one transport stream on one session's connection. The relay pairs two halves of
  the two sessions that both carried a `STREAM_RESUME` for the stream, any two (also one whose
  connection has died since); it then echoes each one's payload on the other and splices the
  bytes that follow. `inbox` are the bytes under way to a half.
* A connection that is closed, by `Reconnect` or by `lose`, neither yields nor accepts bytes on
  its streams (`alive`). Bytes under way on a path with a dead end can be dropped, from the tail,
  at any moment (`drop`).
* `inner.Read` with `OnRead`, and `inner.Write` with `OnWrite`, are one step each. A checkpoint,
  once emitted, can be delivered at any later moment, in any order, and more than once.

`accepted` and `returned` record what `Write` accepted and `Read` returned at each end; no step
reads them. `Moves` says what each step does and under which guards; the invariants are proved from
it (`step_moves`). `settled` is the condition under which a `Resume` is harmless.
-/

namespace OutRelayAgent.Relay

open Lib

/-- The two sessions of a stream: the one that dialled and the one that accepted. -/
inductive Side
  | consumer
  | provider
  deriving DecidableEq, Repr

/-- The session at the other end. -/
def Side.peer : Side → Side
  | .consumer => .provider
  | .provider => .consumer

/-- A transport stream to the relay. -/
structure Half (β : Type) where
  owner : Side
  /-- The connection of `owner` that carries it. -/
  conn : Nat
  /-- The `(MyPosition, PeerAckPosition)` of the `STREAM_RESUME` it carried to the relay. -/
  resume : Option (Nat × Nat)
  /-- The half the relay paired it with. -/
  mate : Option Nat
  inbox : List β

/-- Where a session stands in `Reconnect` (`run`: outside of it) and in `Resume`. -/
inductive Pc (β : Type)
  | run
  | dial
  | replay
  | opened (st : Nat)
  | payload (st myPos peerAck : Nat)
  | waiting (st : Nat)
  | echoed (st peerAck : Nat)
  | gap (st : Nat) (bs : List β)
  | written (st : Nat)

/-- The call of `Resume` that is due can return an error. -/
def Pc.fails {β : Type} : Pc β → Bool
  | .payload _ _ _ | .waiting _ | .echoed _ _ | .gap _ _ => true
  | .run | .dial | .replay | .opened _ | .written _ => false

/-- One session and its wrapper of the stream. -/
structure End {β : Type} (L : ResumeLib β) where
  conn : Nat
  up : Bool
  inner : Nat
  state : L.State
  abandoned : Bool
  pc : Pc β
  accepted : List β
  returned : List β

/-- The two sessions, the streams opened so far, and the checkpoints emitted so far, each with
its emitter, `MyPosition` and `PeerAckPosition`. -/
structure Net {β : Type} (L : ResumeLib β) where
  ends : Side → End L
  halves : Nat → Half β
  next : Nat
  checkpoints : List (Side × Nat × Nat)

variable {β : Type} {L : ResumeLib β}

namespace Net

def setEnd (s : Net L) (x : Side) (e : End L) : Net L :=
  { s with ends := Function.update s.ends x e }

def setHalf (s : Net L) (h : Nat) (f : Half β) : Net L :=
  { s with halves := Function.update s.halves h f }

def setInbox (s : Net L) (h : Nat) (bs : List β) : Net L :=
  s.setHalf h { s.halves h with inbox := bs }

/-- The connection that carries `h` is open. -/
def alive (s : Net L) (h : Nat) : Bool :=
  (s.ends (s.halves h).owner).up &&
    (s.halves h).conn == (s.ends (s.halves h).owner).conn

/-- Both ends of the path through `h` are open. -/
def whole (s : Net L) (h : Nat) : Bool :=
  s.alive h &&
    match (s.halves h).mate with
    | some m => s.alive m
    | none => false

/-- The relay's matcher pairs the halves `i` and `j`. -/
def pairUp (s : Net L) (i j : Nat) : Net L :=
  { s with halves := fun k => { s.halves k with
      mate := if k = i then some j else if k = j then some i else (s.halves k).mate } }

/-- Bytes written on `h`: the relay splices them to the half it is paired with. -/
def splice (s : Net L) (h : Nat) (bs : List β) : Net L :=
  match (s.halves h).mate with
  | some m => s.setInbox m ((s.halves m).inbox ++ bs)
  | none => s

end Net

/-- The choices of an interleaving. -/
inductive Act (β : Type)
  | write (x : Side) (bs : List β)
  | read (x : Side) (n : Nat)
  | emitOnce (x : Side)
  | applyCheckpoint (i : Nat)
  | lose (x : Side)
  | drop (h k : Nat)
  | closeConn (x : Side)
  | dial (x : Side)
  | openStream (x : Side)
  | resumePayload (x : Side)
  | writeResume (x : Side)
  | pair (i j : Nat)
  | parseEcho (x : Side)
  | retransmitFrom (x : Side)
  | writeGap (x : Side)
  | writeGapErr (x : Side) (k : Nat)
  | swapInner (x : Side)
  | fail (x : Side)
  | finish (x : Side)
  | forget (x : Side)

/-- One step of the system. -/
def step (s : Net L) : Act β → Option (Net L)
  | .write x bs =>
    let e := s.ends x
    if e.abandoned = false ∧ s.alive e.inner = true then
      some ((s.splice e.inner bs).setEnd x
        { e with state := L.onWrite e.state bs, accepted := e.accepted ++ bs })
    else none
  | .read x n =>
    let e := s.ends x
    let inbox := (s.halves e.inner).inbox
    if e.abandoned = false ∧ s.alive e.inner = true ∧ n ≤ inbox.length then
      some ((s.setInbox e.inner (inbox.drop n)).setEnd x
        { e with state := L.onRead e.state n, returned := e.returned ++ inbox.take n })
    else none
  | .emitOnce x =>
    let e := s.ends x
    some { s with checkpoints := s.checkpoints ++ [(x, L.sent e.state, L.received e.state)] }
  | .applyCheckpoint i =>
    match s.checkpoints[i]? with
    | some (x, _, peerAck) =>
      let e := s.ends x.peer
      -- a forgotten stream is not in `s.streams` any more
      if e.abandoned = true then some s
      else some (s.setEnd x.peer { e with state := L.onCheckpointFromPeer e.state peerAck })
    | none => none
  | .lose x => some (s.setEnd x { s.ends x with up := false })
  | .drop h k =>
    if s.whole h = true then none
    else some (s.setInbox h ((s.halves h).inbox.take k))
  | .closeConn x =>
    -- `Reconnect` starts, or starts again after an error
    match (s.ends x).pc with
    | .run | .dial | .replay => some (s.setEnd x { s.ends x with up := false, pc := .dial })
    | _ => none
  | .dial x =>
    match (s.ends x).pc with
    | .dial =>
      some (s.setEnd x { s.ends x with conn := (s.ends x).conn + 1, up := true, pc := .replay })
    | _ => none
  | .openStream x =>
    match (s.ends x).pc with
    | .run | .replay =>
      if (s.ends x).up = true then
        some { s.setEnd x { s.ends x with pc := .opened s.next } with
          halves := Function.update s.halves s.next ⟨x, (s.ends x).conn, none, none, []⟩
          next := s.next + 1 }
      else none
    | _ => none
  | .resumePayload x =>
    match (s.ends x).pc with
    | .opened st =>
      let p := L.resumePayload (s.ends x).state
      some (s.setEnd x { s.ends x with pc := .payload st p.1 p.2 })
    | _ => none
  | .writeResume x =>
    match (s.ends x).pc with
    | .payload st myPos peerAck =>
      if s.alive st = true then
        some ((s.setHalf st { s.halves st with resume := some (myPos, peerAck) }).setEnd x
          { s.ends x with pc := .waiting st })
      else none
    | _ => none
  | .pair i j =>
    let hi := s.halves i
    let hj := s.halves j
    if i < s.next ∧ j < s.next ∧ hi.owner ≠ hj.owner ∧ hi.resume.isSome = true ∧
        hj.resume.isSome = true ∧ hi.mate = none ∧ hj.mate = none then
      some (s.pairUp i j)
    else none
  | .parseEcho x =>
    match (s.ends x).pc with
    | .waiting st =>
      match (s.halves st).mate with
      | some m =>
        match (s.halves m).resume with
        | some (_, peerAck) =>
          if s.alive st = true then
            some (s.setEnd x { s.ends x with pc := .echoed st peerAck })
          else none
        | none => none
      | none => none
    | _ => none
  | .retransmitFrom x =>
    match (s.ends x).pc with
    | .echoed st peerAck =>
      match L.retransmitFrom (s.ends x).state peerAck with
      | some bs => some (s.setEnd x { s.ends x with pc := .gap st bs })
      | none => none
    | _ => none
  | .writeGap x =>
    match (s.ends x).pc with
    | .gap st bs =>
      if s.alive st = true then
        some ((s.splice st bs).setEnd x { s.ends x with pc := .written st })
      else none
    | _ => none
  | .writeGapErr x k =>
    match (s.ends x).pc with
    | .gap st bs =>
      if s.alive st = true then
        some ((s.splice st (bs.take k)).setEnd x { s.ends x with pc := .replay })
      else none
    | _ => none
  | .swapInner x =>
    match (s.ends x).pc with
    | .written st => some (s.setEnd x { s.ends x with inner := st, pc := .run })
    | _ => none
  | .fail x =>
    if (s.ends x).pc.fails then some (s.setEnd x { s.ends x with pc := .replay }) else none
  | .finish x =>
    match (s.ends x).pc with
    | .replay => some (s.setEnd x { s.ends x with pc := .run })
    | _ => none
  | .forget x => some (s.setEnd x { s.ends x with abandoned := true })

/-- The stream as `Dial` and `handleIncoming` left it: each session on its first connection, the
two streams spliced, nothing written. -/
def init (L : ResumeLib β) : Net L where
  ends x :=
    { conn := 0, up := true, inner := match x with | .consumer => 0 | .provider => 1
      state := L.newState, abandoned := false, pc := .run, accepted := [], returned := [] }
  halves h :=
    match h with
    | 0 => ⟨.consumer, 0, none, some 1, []⟩
    | 1 => ⟨.provider, 0, none, some 0, []⟩
    | _ => ⟨.consumer, 0, none, none, []⟩
  next := 2
  checkpoints := []

/-- Two sessions, one stream, one relay. -/
def machine (L : ResumeLib β) : Machine (Net L) (Act β) := ⟨init L, step⟩

/-- `ResumePayload` is taken while the wrapper's `inner` is on a closed connection. -/
def settled (s : Net L) : Act β → Bool
  | .resumePayload x => !s.alive (s.ends x).inner
  | _ => true

/-! ## What a step can do -/

/-- A step with its guards, one constructor for each way through `step`. -/
inductive Moves (s : Net L) : Act β → Net L → Prop
  | write (x : Side) (bs : List β) (hopen : (s.ends x).abandoned = false)
      (ha : s.alive (s.ends x).inner = true) : Moves s (.write x bs)
      ((s.splice (s.ends x).inner bs).setEnd x { s.ends x with
        state := L.onWrite (s.ends x).state bs, accepted := (s.ends x).accepted ++ bs })
  | read (x : Side) (n : Nat) (hopen : (s.ends x).abandoned = false)
      (ha : s.alive (s.ends x).inner = true)
      (hn : n ≤ (s.halves (s.ends x).inner).inbox.length) : Moves s (.read x n)
      ((s.setInbox (s.ends x).inner ((s.halves (s.ends x).inner).inbox.drop n)).setEnd x
        { s.ends x with
          state := L.onRead (s.ends x).state n
          returned := (s.ends x).returned ++ (s.halves (s.ends x).inner).inbox.take n })
  | emitOnce (x : Side) : Moves s (.emitOnce x) { s with checkpoints :=
      s.checkpoints ++ [(x, L.sent (s.ends x).state, L.received (s.ends x).state)] }
  | ignoreCheckpoint (i : Nat) {x : Side} {p a : Nat} (hi : s.checkpoints[i]? = some (x, p, a))
      (hgone : (s.ends x.peer).abandoned = true) : Moves s (.applyCheckpoint i) s
  | applyCheckpoint (i : Nat) {x : Side} {p a : Nat} (hi : s.checkpoints[i]? = some (x, p, a))
      (hopen : (s.ends x.peer).abandoned = false) : Moves s (.applyCheckpoint i)
      (s.setEnd x.peer { s.ends x.peer with
        state := L.onCheckpointFromPeer (s.ends x.peer).state a })
  | lose (x : Side) : Moves s (.lose x) (s.setEnd x { s.ends x with up := false })
  | drop (h k : Nat) (hb : ¬ s.whole h = true) :
      Moves s (.drop h k) (s.setInbox h ((s.halves h).inbox.take k))
  | closeConn (x : Side)
      (hpc : (s.ends x).pc = .run ∨ (s.ends x).pc = .dial ∨ (s.ends x).pc = .replay) :
      Moves s (.closeConn x) (s.setEnd x { s.ends x with up := false, pc := .dial })
  | dial (x : Side) (hpc : (s.ends x).pc = .dial) : Moves s (.dial x)
      (s.setEnd x { s.ends x with conn := (s.ends x).conn + 1, up := true, pc := .replay })
  | openStream (x : Side) (hpc : (s.ends x).pc = .run ∨ (s.ends x).pc = .replay)
      (hup : (s.ends x).up = true) :
      Moves s (.openStream x) { s.setEnd x { s.ends x with pc := .opened s.next } with
        halves := Function.update s.halves s.next ⟨x, (s.ends x).conn, none, none, []⟩
        next := s.next + 1 }
  | resumePayload (x : Side) {st : Nat} (hpc : (s.ends x).pc = .opened st) :
      Moves s (.resumePayload x) (s.setEnd x { s.ends x with
        pc := .payload st (L.resumePayload (s.ends x).state).1
          (L.resumePayload (s.ends x).state).2 })
  | writeResume (x : Side) {st p a : Nat} (hpc : (s.ends x).pc = .payload st p a)
      (ha : s.alive st = true) : Moves s (.writeResume x)
      ((s.setHalf st { s.halves st with resume := some (p, a) }).setEnd x
        { s.ends x with pc := .waiting st })
  | pair (i j : Nat) (hlt : i < s.next ∧ j < s.next)
      (ho : (s.halves i).owner ≠ (s.halves j).owner)
      (hr : (s.halves i).resume.isSome = true ∧ (s.halves j).resume.isSome = true)
      (hm : (s.halves i).mate = none ∧ (s.halves j).mate = none) :
      Moves s (.pair i j) (s.pairUp i j)
  | parseEcho (x : Side) {st m p a : Nat} (hpc : (s.ends x).pc = .waiting st)
      (hm : (s.halves st).mate = some m) (hr : (s.halves m).resume = some (p, a))
      (ha : s.alive st = true) :
      Moves s (.parseEcho x) (s.setEnd x { s.ends x with pc := .echoed st a })
  | retransmitFrom (x : Side) {st a : Nat} {bs : List β} (hpc : (s.ends x).pc = .echoed st a)
      (hg : L.retransmitFrom (s.ends x).state a = some bs) :
      Moves s (.retransmitFrom x) (s.setEnd x { s.ends x with pc := .gap st bs })
  | writeGap (x : Side) {st : Nat} {bs : List β} (hpc : (s.ends x).pc = .gap st bs)
      (ha : s.alive st = true) : Moves s (.writeGap x)
      ((s.splice st bs).setEnd x { s.ends x with pc := .written st })
  | writeGapErr (x : Side) (k : Nat) {st : Nat} {bs : List β} (hpc : (s.ends x).pc = .gap st bs)
      (ha : s.alive st = true) : Moves s (.writeGapErr x k)
      ((s.splice st (bs.take k)).setEnd x { s.ends x with pc := .replay })
  | swapInner (x : Side) {st : Nat} (hpc : (s.ends x).pc = .written st) :
      Moves s (.swapInner x) (s.setEnd x { s.ends x with inner := st, pc := .run })
  | fail (x : Side) (hpc : (s.ends x).pc.fails = true) :
      Moves s (.fail x) (s.setEnd x { s.ends x with pc := .replay })
  | finish (x : Side) (hpc : (s.ends x).pc = .replay) :
      Moves s (.finish x) (s.setEnd x { s.ends x with pc := .run })
  | forget (x : Side) : Moves s (.forget x) (s.setEnd x { s.ends x with abandoned := true })

variable {s s' : Net L} {a : Act β}

theorem step_moves (h : step s a = some s') : Moves s a s' := by
  cases a with
  | write x bs =>
    obtain ⟨⟨hopen, ha⟩, h⟩ := Option.ite_none_right_eq_some.mp h
    cases h
    exact .write x bs hopen ha
  | read x n =>
    obtain ⟨⟨hopen, ha, hn⟩, h⟩ := Option.ite_none_right_eq_some.mp h
    cases h
    exact .read x n hopen ha hn
  | emitOnce x =>
    cases h
    exact .emitOnce x
  | applyCheckpoint i =>
    simp only [step] at h
    split at h
    · rename_i hi
      split at h
      · rename_i hgone
        cases h
        exact .ignoreCheckpoint i hi hgone
      · rename_i hopen
        cases h
        exact .applyCheckpoint i hi (Bool.eq_false_iff.mpr hopen)
    · cases h
  | lose x =>
    cases h
    exact .lose x
  | drop k n =>
    obtain ⟨hb, h⟩ := Option.ite_none_left_eq_some.mp h
    cases h
    exact .drop k n hb
  | closeConn x =>
    simp only [step] at h
    split at h
    · rename_i hpc
      cases h
      exact .closeConn x (.inl hpc)
    · rename_i hpc
      cases h
      exact .closeConn x (.inr (.inl hpc))
    · rename_i hpc
      cases h
      exact .closeConn x (.inr (.inr hpc))
    · cases h
  | dial x =>
    simp only [step] at h
    split at h
    · rename_i hpc
      cases h
      exact .dial x hpc
    · cases h
  | openStream x =>
    simp only [step] at h
    split at h
    · rename_i hpc
      obtain ⟨hup, h⟩ := Option.ite_none_right_eq_some.mp h
      cases h
      exact .openStream x (.inl hpc) hup
    · rename_i hpc
      obtain ⟨hup, h⟩ := Option.ite_none_right_eq_some.mp h
      cases h
      exact .openStream x (.inr hpc) hup
    · cases h
  | resumePayload x =>
    simp only [step] at h
    split at h
    · rename_i hpc
      cases h
      exact .resumePayload x hpc
    · cases h
  | writeResume x =>
    simp only [step] at h
    split at h
    · rename_i hpc
      obtain ⟨ha, h⟩ := Option.ite_none_right_eq_some.mp h
      cases h
      exact .writeResume x hpc ha
    · cases h
  | pair i j =>
    obtain ⟨⟨hi, hj, ho, hri, hrj, hmi, hmj⟩, h⟩ := Option.ite_none_right_eq_some.mp h
    cases h
    exact .pair i j ⟨hi, hj⟩ ho ⟨hri, hrj⟩ ⟨hmi, hmj⟩
  | parseEcho x =>
    simp only [step] at h
    split at h
    · rename_i hpc
      split at h
      · rename_i hm
        split at h
        · rename_i hr
          obtain ⟨ha, h⟩ := Option.ite_none_right_eq_some.mp h
          cases h
          exact .parseEcho x hpc hm hr ha
        · cases h
      · cases h
    · cases h
  | retransmitFrom x =>
    simp only [step] at h
    split at h
    · rename_i hpc
      split at h
      · rename_i hg
        cases h
        exact .retransmitFrom x hpc hg
      · cases h
    · cases h
  | writeGap x =>
    simp only [step] at h
    split at h
    · rename_i hpc
      obtain ⟨ha, h⟩ := Option.ite_none_right_eq_some.mp h
      cases h
      exact .writeGap x hpc ha
    · cases h
  | writeGapErr x k =>
    simp only [step] at h
    split at h
    · rename_i hpc
      obtain ⟨ha, h⟩ := Option.ite_none_right_eq_some.mp h
      cases h
      exact .writeGapErr x k hpc ha
    · cases h
  | swapInner x =>
    simp only [step] at h
    split at h
    · rename_i hpc
      cases h
      exact .swapInner x hpc
    · cases h
  | fail x =>
    obtain ⟨hpc, h⟩ := Option.ite_none_right_eq_some.mp h
    cases h
    exact .fail x hpc
  | finish x =>
    simp only [step] at h
    split at h
    · rename_i hpc
      cases h
      exact .finish x hpc
    · cases h
  | forget x =>
    cases h
    exact .forget x

end OutRelayAgent.Relay
