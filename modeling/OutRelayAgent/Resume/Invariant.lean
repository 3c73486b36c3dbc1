import OutRelayAgent.Lib.Pipe
import OutRelayAgent.Resume.Relay

/-!
# The invariant of relay-mediated resume

At any moment a session stands at one stream, `att`: the wrapper's `inner`, or, once it has taken
the `ResumePayload`, the stream its `Resume` has opened. Only that stream can matter for what the
session reads next, and only while its connection is open. The invariant says, for each direction,
what is under way to it:

* `window`: the bytes under way continue what was read;
* `flush`: when the peer stands at the other end of the path and has written its gap (or is not
  in `Resume` at all), they continue it up to everything the peer accepted so far, so the peer's
  next `Write` continues them;
* `owed`: when the peer stands there and has still to write its gap, nothing is under way
  (`owing`) and the `PeerAckPosition` this session announced is where its reads still are.

A session's announced position cannot go stale: when the payload is taken the old `inner` is on a
closed connection (`settled`), and stays there (`dead`), so the session reads nothing. For the same
reason a gap cannot go stale between `RetransmitFrom` and `SwapInner` (`Staged`). Before the payload
is taken the `inner` may be alive, and the session reads and writes on it. A pairing with a half
whose connection died in the meantime costs nothing: its owner does not stand there any more.
-/

namespace OutRelayAgent.Relay

open Lib

variable {β : Type} {L : ResumeLib β}

@[simp] theorem Side.peer_peer (x : Side) : x.peer.peer = x := by cases x <;> rfl

@[simp] theorem Side.peer_ne (x : Side) : x.peer ≠ x := by cases x <;> decide

@[simp] theorem Side.ne_peer (x : Side) : x ≠ x.peer := by cases x <;> decide

theorem Side.eq_or_peer (x z : Side) : z = x ∨ z = x.peer := by
  cases x <;> cases z <;> decide

theorem Side.eq_peer_of_ne {x z : Side} (h : z ≠ x) : z = x.peer :=
  (Side.eq_or_peer x z).resolve_left h

/-- The stream a session stands at: the wrapper's `inner`, or the one for which `Resume` has taken
the payload. -/
def End.att (e : End L) : Nat :=
  match e.pc with
  | .run | .dial | .replay | .opened _ => e.inner
  | .payload st _ _ | .waiting st | .echoed st _ | .gap st _ | .written st => st

/-- The session has announced a position in `Resume` and has not written its gap. -/
def End.owes (e : End L) : Bool :=
  match e.pc with
  | .payload _ _ _ | .waiting _ | .echoed _ _ | .gap _ _ => true
  | .run | .dial | .replay | .opened _ | .written _ => false

/-- The session is in `Resume` and has taken the payload. -/
def End.resuming (e : End L) : Bool :=
  match e.pc with
  | .run | .dial | .replay | .opened _ => false
  | _ => true

/-- A session that has not taken a payload stands at its `inner`. -/
theorem End.att_inner {e : End L} (h : e.resuming = false) : e.att = e.inner := by
  unfold End.resuming at h
  cases hpc : e.pc <;> simp [End.att, hpc] at h ⊢

theorem End.not_owes {e : End L} (h : e.resuming = false) : e.owes = false := by
  unfold End.resuming at h
  cases hpc : e.pc <;> simp [End.owes, hpc] at h ⊢

/-- A `STREAM_RESUME` carried on `h` announced that the bytes `returned` had been read. -/
def Announced (h : Half β) (returned : List β) : Prop :=
  ∀ p a, h.resume = some (p, a) → a = returned.length

/-- What each point of `Resume` knows of the streams. -/
def Staged (halves : Nat → Half β) (e : End L) : Prop :=
  match e.pc with
  | .run | .dial | .replay | .opened _ => True
  | .payload st _ peerAck =>
    (halves st).mate = none ∧ (halves st).resume = none ∧ peerAck = e.returned.length
  | .waiting st => Announced (halves st) e.returned
  | .echoed st peerAck =>
    ∃ m q, (halves st).mate = some m ∧ (halves m).resume = some (q, peerAck)
  | .gap st bs => ∃ m q a, (halves st).mate = some m ∧ (halves m).resume = some (q, a) ∧
      bs = e.accepted.drop a
  | .written st => ∃ m, (halves st).mate = some m

theorem Staged.of_not_resuming {H : Nat → Half β} {e : End L} (h : e.resuming = false) :
    Staged H e := by
  unfold End.resuming at h
  cases hpc : e.pc <;> simp [Staged, hpc] at h ⊢

/-- `Staged` is about the stream the session stands at and the one that is paired with it. -/
theorem Staged.transport {H H' : Nat → Half β} {e : End L} (h : Staged H e)
    (hfree : (H e.att).mate = none → (H e.att).resume = none →
      (H' e.att).mate = none ∧ (H' e.att).resume = none)
    (hann : Announced (H e.att) e.returned → Announced (H' e.att) e.returned)
    (hmate : ∀ m, (H e.att).mate = some m →
      (H' e.att).mate = some m ∧ (H' m).resume = (H m).resume) : Staged H' e := by
  cases hpc : e.pc with
  | run | dial | replay | opened st => simp only [Staged, hpc]
  | payload st p a =>
    simp only [Staged, End.att, hpc] at h hfree ⊢
    obtain ⟨hm, hr⟩ := hfree h.1 h.2.1
    exact ⟨hm, hr, h.2.2⟩
  | waiting st =>
    simp only [Staged, End.att, hpc] at h hann ⊢
    exact hann h
  | echoed st a =>
    simp only [Staged, End.att, hpc] at h hmate ⊢
    obtain ⟨m, q, hm, hr⟩ := h
    exact ⟨m, q, (hmate m hm).1, (hmate m hm).2.trans hr⟩
  | gap st bs =>
    simp only [Staged, End.att, hpc] at h hmate ⊢
    obtain ⟨m, q, a, hm, hr, hbs⟩ := h
    exact ⟨m, q, a, (hmate m hm).1, (hmate m hm).2.trans hr, hbs⟩
  | written st =>
    simp only [Staged, End.att, hpc] at h hmate ⊢
    obtain ⟨m, hm⟩ := h
    exact ⟨m, (hmate m hm).1⟩

/-- A stream of `x` that has been opened and not been used. -/
structure Unused (halves : Nat → Half β) (next : Nat) (x : Side) (st : Nat) : Prop where
  lt : st < next
  owner : (halves st).owner = x
  mate : (halves st).mate = none
  resume : (halves st).resume = none

/-- How sessions, streams and pairings hang together. -/
structure Wired (s : Net L) : Prop where
  bound : ∀ x, (s.ends x).inner < s.next ∧ (s.ends x).att < s.next
  owner : ∀ x, (s.halves (s.ends x).inner).owner = x ∧ (s.halves (s.ends x).att).owner = x
  mate_lt : ∀ {i j}, (s.halves i).mate = some j → j < s.next
  mate_symm : ∀ {i j}, (s.halves i).mate = some j → (s.halves j).mate = some i
  mate_owner : ∀ {i j}, (s.halves i).mate = some j →
    (s.halves j).owner = (s.halves i).owner.peer
  conn_le : ∀ h, h < s.next → (s.halves h).conn ≤ (s.ends (s.halves h).owner).conn
  dead : ∀ x, (s.ends x).resuming = true → (s.ends x).up = true →
    (s.halves (s.ends x).inner).conn < (s.ends x).conn
  opened : ∀ x st, (s.ends x).pc = .opened st → Unused s.halves s.next x st
  unmated : ∀ {h}, (s.halves h).mate = none → (s.halves h).inbox = []
  inner_mated : ∀ x, (s.halves (s.ends x).inner).mate ≠ none
  staged : ∀ x, Staged s.halves (s.ends x)
  owing : ∀ x m, (s.ends x).owes = true → (s.halves (s.ends x).att).mate = some m →
    (s.halves m).inbox = []
  acked : ∀ {h p a}, (s.halves h).resume = some (p, a) →
    a ≤ (s.ends (s.halves h).owner.peer).accepted.length
  tracks : ∀ x, L.Tracks (s.ends x).state (s.ends x).accepted (s.ends x).returned.length

/-- One direction, seen from its reader. `h` is the stream the reader stands at and `alive` whether
its connection is open; `attP`, `aliveP` and `owesP` say the same of the writer. -/
structure Flow (h : Half β) (alive : Bool) (attP : Nat) (aliveP owesP : Bool)
    (returned accepted : List β) : Prop where
  ordered : returned <+: accepted
  window : alive = true → h.inbox <+: accepted.drop returned.length
  flush : alive = true → h.mate = some attP → aliveP = true → owesP = false →
    h.inbox = accepted.drop returned.length
  owed : alive = true → h.mate = some attP → aliveP = true → owesP = true →
    Announced h returned

/-- The direction in which `x` reads. -/
def Synced (s : Net L) (x : Side) : Prop :=
  Flow (s.halves (s.ends x).att) (s.alive (s.ends x).att) (s.ends x.peer).att
    (s.alive (s.ends x.peer).att) (s.ends x.peer).owes (s.ends x).returned
    (s.ends x.peer).accepted

/-- The invariant. -/
structure Inv (s : Net L) : Prop where
  wired : Wired s
  synced : ∀ x, Synced s x

section Flow

variable {h : Half β} {a b o : Bool} {p : Nat} {r w : List β}

/-- A reader on a closed connection sees nothing more. -/
theorem Flow.of_dead (hr : r <+: w) (ha : a = false) : Flow h a p b o r w where
  ordered := hr
  window h1 := absurd (ha ▸ h1) (by decide)
  flush h1 := absurd (ha ▸ h1) (by decide)
  owed h1 := absurd (ha ▸ h1) (by decide)

/-- A writer on a closed connection adds nothing. -/
theorem Flow.dead_peer {b' o' : Bool} {p' : Nat} (hf : Flow h a p b o r w) (hb : b' = false) :
    Flow h a p' b' o' r w where
  ordered := hf.ordered
  window := hf.window
  flush _ _ h3 := absurd (hb ▸ h3) (by decide)
  owed _ _ h3 := absurd (hb ▸ h3) (by decide)

end Flow

/-! ## The two setters -/

namespace Net

variable (s : Net L) (x : Side) (e : End L) (h k : Nat) (f : Half β)

@[simp] theorem setEnd_ends_self : (s.setEnd x e).ends x = e := Function.update_self ..

@[simp] theorem setEnd_ends_peer : (s.setEnd x e).ends x.peer = s.ends x.peer :=
  Function.update_of_ne (Side.peer_ne x) ..

@[simp] theorem setEnd_halves : (s.setEnd x e).halves = s.halves := rfl

@[simp] theorem setEnd_next : (s.setEnd x e).next = s.next := rfl

@[simp] theorem setHalf_ends : (s.setHalf h f).ends = s.ends := rfl

@[simp] theorem setHalf_next : (s.setHalf h f).next = s.next := rfl

@[simp] theorem setHalf_self : (s.setHalf h f).halves h = f := Function.update_self ..

theorem setHalf_ne {h k : Nat} (hk : k ≠ h) : (s.setHalf h f).halves k = s.halves k :=
  Function.update_of_ne hk ..

section Inbox

variable (bs : List β)

@[simp] theorem setInbox_ends : (s.setInbox h bs).ends = s.ends := rfl

@[simp] theorem setInbox_next : (s.setInbox h bs).next = s.next := rfl

theorem setInbox_halves : (s.setInbox h bs).halves k =
    { s.halves k with inbox := if k = h then bs else (s.halves k).inbox } := by
  by_cases hk : k = h
  · subst hk
    simp [setInbox]
  · simp [setInbox, setHalf_ne s _ hk, hk]

@[simp] theorem setInbox_owner : ((s.setInbox h bs).halves k).owner = (s.halves k).owner := by
  rw [setInbox_halves]

@[simp] theorem setInbox_conn : ((s.setInbox h bs).halves k).conn = (s.halves k).conn := by
  rw [setInbox_halves]

@[simp] theorem setInbox_resume : ((s.setInbox h bs).halves k).resume = (s.halves k).resume := by
  rw [setInbox_halves]

@[simp] theorem setInbox_mate : ((s.setInbox h bs).halves k).mate = (s.halves k).mate := by
  rw [setInbox_halves]

@[simp] theorem setInbox_inbox : ((s.setInbox h bs).halves h).inbox = bs := by
  rw [setInbox_halves]; simp

theorem setInbox_inbox_ne {h k : Nat} (hk : k ≠ h) :
    ((s.setInbox h bs).halves k).inbox = (s.halves k).inbox := by
  rw [setInbox_halves]; simp [hk]

@[simp] theorem setInbox_alive : (s.setInbox h bs).alive k = s.alive k := by
  simp [alive]

end Inbox

theorem splice_ends (bs : List β) : (s.splice h bs).ends = s.ends := by
  unfold splice
  split <;> rfl

variable {s x e h k f}

/-- What holds of the changed session and of its peer holds of every session. -/
theorem forall_setEnd {P : Side → End L → Prop} (hx : P x e) (hy : P x.peer (s.ends x.peer)) :
    ∀ z, P z ((s.setEnd x e).ends z) := by
  intro z
  rcases Side.eq_or_peer x z with rfl | rfl
  · rwa [setEnd_ends_self]
  · rwa [setEnd_ends_peer]

/-- A stream of the peer is not affected by what happens to this session. -/
theorem alive_setEnd_peer (ho : (s.halves k).owner = x.peer) :
    (s.setEnd x e).alive k = s.alive k := by
  simp [alive, ho]

/-- A closed connection. -/
theorem alive_eq_false (hd : (s.ends (s.halves k).owner).up = false ∨
    (s.halves k).conn ≠ (s.ends (s.halves k).owner).conn) : s.alive k = false := by
  rcases hd with hd | hd
  · simp [alive, hd]
  · simp [alive, hd]

theorem alive_setEnd (hu : e.up = (s.ends x).up) (hc : e.conn = (s.ends x).conn) :
    (s.setEnd x e).alive k = s.alive k := by
  rcases Side.eq_or_peer x (s.halves k).owner with ho | ho
  · simp [alive, ho, hu, hc]
  · exact alive_setEnd_peer ho

theorem alive_setHalf (ho : f.owner = (s.halves h).owner) (hc : f.conn = (s.halves h).conn) :
    (s.setHalf h f).alive k = s.alive k := by
  by_cases hk : k = h
  · subst hk
    simp [alive, ho, hc]
  · simp [alive, setHalf_ne s f hk]

end Net

/-! ## Steps that change a session only -/

/-- `x`'s new record `e` keeps its place in the picture: its counters, and what can be said of
the streams it names. -/
structure Fits (s : Net L) (x : Side) (e : End L) : Prop where
  bound : e.inner < s.next ∧ e.att < s.next
  owner : (s.halves e.inner).owner = x ∧ (s.halves e.att).owner = x
  conn_le : (s.ends x).conn ≤ e.conn
  dead : e.resuming = true → e.up = true → (s.halves e.inner).conn < e.conn
  opened : ∀ st, e.pc = .opened st → Unused s.halves s.next x st
  inner_mated : (s.halves e.inner).mate ≠ none
  staged : Staged s.halves e
  owing : ∀ m, e.owes = true → (s.halves e.att).mate = some m → (s.halves m).inbox = []
  accepted : (s.ends x).accepted <+: e.accepted
  tracks : L.Tracks e.state e.accepted e.returned.length

theorem Wired.fits_self {s : Net L} (hw : Wired s) (x : Side) : Fits s x (s.ends x) where
  bound := hw.bound x
  owner := hw.owner x
  conn_le := Nat.le_refl _
  dead := hw.dead x
  opened := hw.opened x
  inner_mated := hw.inner_mated x
  staged := hw.staged x
  owing := hw.owing x
  accepted := List.prefix_rfl
  tracks := hw.tracks x

theorem Wired.setEnd {s : Net L} {x : Side} {e : End L} (hw : Wired s) (hf : Fits s x e) :
    Wired (s.setEnd x e) where
  bound := Net.forall_setEnd (P := fun _ e => e.inner < s.next ∧ e.att < s.next)
    hf.bound (hw.bound _)
  owner := Net.forall_setEnd (P := fun z e => (s.halves e.inner).owner = z ∧
    (s.halves e.att).owner = z) hf.owner (hw.owner _)
  mate_lt := hw.mate_lt
  mate_symm := hw.mate_symm
  mate_owner := hw.mate_owner
  conn_le := by
    intro h hh
    have hle := hw.conn_le h hh
    rw [Net.setEnd_halves]
    rcases Side.eq_or_peer x (s.halves h).owner with ho | ho
    · rw [ho] at hle ⊢
      rw [Net.setEnd_ends_self]
      exact hle.trans hf.conn_le
    · rw [ho] at hle ⊢
      rwa [Net.setEnd_ends_peer]
  dead := Net.forall_setEnd (P := fun _ e => e.resuming = true → e.up = true →
    (s.halves e.inner).conn < e.conn) hf.dead (hw.dead _)
  opened := Net.forall_setEnd (P := fun z e => ∀ st, e.pc = .opened st →
    Unused s.halves s.next z st) hf.opened (hw.opened _)
  unmated := hw.unmated
  inner_mated := Net.forall_setEnd (P := fun _ e => (s.halves e.inner).mate ≠ none)
    hf.inner_mated (hw.inner_mated _)
  staged := Net.forall_setEnd hf.staged (hw.staged _)
  owing := Net.forall_setEnd (P := fun _ e => ∀ m, e.owes = true →
    (s.halves e.att).mate = some m → (s.halves m).inbox = []) hf.owing (hw.owing _)
  acked := by
    intro h p a hr
    have hle := hw.acked hr
    rw [Net.setEnd_halves]
    rcases Side.eq_or_peer x (s.halves h).owner.peer with ho | ho
    · rw [ho] at hle ⊢
      rw [Net.setEnd_ends_self]
      exact hle.trans hf.accepted.length_le
    · rw [ho] at hle ⊢
      rwa [Net.setEnd_ends_peer]
  tracks := Net.forall_setEnd (P := fun _ e => L.Tracks e.state e.accepted e.returned.length)
    hf.tracks (hw.tracks _)

/-- A session that stays where it stands: only its point in `Resume`, its `inner` or its
`resume.State` moves on. -/
theorem Inv.setEnd_same {s : Net L} {x : Side} {e : End L} (hi : Inv s) (hf : Fits s x e)
    (hup : e.up = (s.ends x).up) (hconn : e.conn = (s.ends x).conn)
    (hatt : e.att = (s.ends x).att) (howes : e.owes = (s.ends x).owes)
    (hret : e.returned = (s.ends x).returned) (hacc : e.accepted = (s.ends x).accepted) :
    Inv (s.setEnd x e) where
  wired := hi.wired.setEnd hf
  synced := by
    have hal : ∀ k, (s.setEnd x e).alive k = s.alive k := fun k => Net.alive_setEnd hup hconn
    intro z
    rcases Side.eq_or_peer x z with rfl | rfl
    · have h := hi.synced z
      simpa only [Synced, hal, Net.setEnd_ends_self, Net.setEnd_ends_peer, Net.setEnd_halves, hatt,
        hret] using h
    · have h := hi.synced x.peer
      simpa only [Synced, hal, Net.setEnd_ends_self, Net.setEnd_ends_peer, Net.setEnd_halves, hatt,
        howes, hacc, Side.peer_peer] using h

/-- A session that stands on a closed connection from now on. -/
theorem Inv.setEnd_dead {s : Net L} {x : Side} {e : End L} (hi : Inv s) (hf : Fits s x e)
    (hd : e.up = false ∨ (s.halves e.att).conn ≠ e.conn)
    (hret : e.returned = (s.ends x).returned) (hacc : e.accepted = (s.ends x).accepted) :
    Inv (s.setEnd x e) where
  wired := hi.wired.setEnd hf
  synced := by
    have hdead : (s.setEnd x e).alive e.att = false := by
      apply Net.alive_eq_false
      rwa [Net.setEnd_halves, hf.owner.2, Net.setEnd_ends_self]
    intro z
    rcases Side.eq_or_peer x z with rfl | rfl
    · have h := (hi.synced z).ordered
      refine Flow.of_dead ?_ ?_
      · rwa [Net.setEnd_ends_self, Net.setEnd_ends_peer, hret]
      · rwa [Net.setEnd_ends_self]
    · have h := hi.synced x.peer
      have ho := (hi.wired.owner x.peer).2
      simp only [Synced, Net.setEnd_ends_self, Net.setEnd_ends_peer, Net.setEnd_halves,
        Side.peer_peer, Net.alive_setEnd_peer ho, hacc] at h ⊢
      exact h.dead_peer hdead

/-! ## Steps that move bytes -/

theorem Wired.setInbox {s : Net L} (hw : Wired s) {h : Nat} {bs : List β}
    (hmated : (s.halves h).mate = none → bs = [])
    (howing : ∀ x, (s.ends x).owes = true → (s.halves (s.ends x).att).mate = some h → bs = []) :
    Wired (s.setInbox h bs) where
  bound := hw.bound
  owner := by simpa using hw.owner
  mate_lt hm := by
    rw [Net.setInbox_mate] at hm
    exact hw.mate_lt hm
  mate_symm hm := by
    rw [Net.setInbox_mate] at hm ⊢
    exact hw.mate_symm hm
  mate_owner hm := by
    rw [Net.setInbox_mate] at hm
    rw [Net.setInbox_owner, Net.setInbox_owner]
    exact hw.mate_owner hm
  conn_le := by simpa using hw.conn_le
  dead := by simpa using hw.dead
  opened := by
    intro x st hpc
    have hst := hw.opened x st hpc
    exact ⟨hst.lt, by simpa using hst.owner, by simpa using hst.mate, by simpa using hst.resume⟩
  unmated := by
    intro k hk
    rw [Net.setInbox_mate] at hk
    by_cases hkh : k = h
    · subst hkh
      rw [Net.setInbox_inbox]
      exact hmated hk
    · rw [Net.setInbox_inbox_ne _ _ hkh]
      exact hw.unmated hk
  inner_mated := by simpa using hw.inner_mated
  staged := by
    intro x
    have hs := hw.staged x
    unfold Staged Announced at hs ⊢
    simpa only [Net.setInbox_mate, Net.setInbox_resume, Net.setInbox_ends] using hs
  owing := by
    intro x m ho hm
    rw [Net.setInbox_ends] at ho hm
    rw [Net.setInbox_mate] at hm
    by_cases hmh : m = h
    · subst hmh
      rw [Net.setInbox_inbox]
      exact howing x ho hm
    · rw [Net.setInbox_inbox_ne _ _ hmh]
      exact hw.owing x m ho hm
  acked hr := by
    rw [Net.setInbox_resume] at hr
    rw [Net.setInbox_owner]
    exact hw.acked hr
  tracks := hw.tracks

end OutRelayAgent.Relay
