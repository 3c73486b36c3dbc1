import OutRelayAgent.Lib.Machine
import OutRelayAgent.Resume.State
import Mathlib.Data.List.Infix
import Mathlib.Logic.Function.Basic

/-!
# Half-close and the replacement of the transport

Model of one direction of a `ResumableStream`: the wrapper that writes, with `Write` on the current
inner, `CloseWrite` (`session.go:608-617`), the failure of an inner, and the three callers of
`SwapInner`; and the peer's wrapper that reads, with its own `SwapInner`.

* **A transport stream** is opened, or accepted, for a replacement. `Resume` and
  `handleDirectStream` retransmit the gap on it, from the position the peer has acknowledged
  (`session.go:660-682`, `promote.go:537-557`), and then install it; `MigrateToDirect` installs it
  without (`promote.go:568-587`). A replacement that fails closes its stream, possibly after a part
  of the gap. Any number of replacements are in flight at once.
* `CloseWrite` is two steps, the capture of the inner under the lock and the call on what was
  captured. On a broken inner that call fails and nothing is sent.
* `Write` and `CloseWrite` are called by one goroutine, `copyAndDone` (`session.go:1004-1025`), so a
  `Write` does not overlap a `CloseWrite`.
* **The peer** installs the other end of a stream at any time after it was opened, before or after
  this side does. Its `Read` captures its inner, and then takes bytes off it, or finds its end. A
  stream that was replaced is cancelled, but a `Read` that has captured it may still get bytes.
* A position the peer acknowledges is one it has read up to.

`half_close_survives`: the peer's `Read` reaches `io.EOF` after exactly the bytes written before
`CloseWrite` in every run that is `orderly`: no inner is installed once `CloseWrite` has been
called, and a replacement the peer reads continues where its reads stand. Nothing takes the
half-close over to an inner that is installed afterwards: any such step breaks it.
`half_close_lost` has such a run, and one in which the bytes of the stream that was left are lost.
-/

namespace OutRelayAgent.Stream

open Lib

/-- Who installs a stream. -/
inductive Kind
  /-- `Resume` or `handleDirectStream`, which retransmit the gap. -/
  | retransmits
  /-- `MigrateToDirect`, which does not. -/
  | announces
  deriving DecidableEq

/-- A transport stream, as the wrapper that writes uses it. -/
structure Inner (β : Type) where
  kind : Kind
  /-- The position of its first byte, once that is settled. -/
  start : Option ℕ := none
  data : List β := []
  /-- `CloseWrite` has closed the write side. -/
  fin : Bool := false
  /-- The replacement has failed, and closed the stream. -/
  refused : Bool := false
  broken : Bool := false
  installed : Bool := false
  /-- It was installed after the first call of `CloseWrite`; no step reads it. -/
  late : Bool := false

/-- The peer's wrapper, as it reads. -/
structure Reader (β : Type) where
  cur : ℕ
  /-- How many bytes have been taken off each stream. -/
  taken : ℕ → ℕ
  /-- What a `Read` in progress has captured. -/
  call : Option ℕ
  returned : List β
  /-- A `Read` has returned `io.EOF`. -/
  eof : Bool

/-- The two wrappers. -/
structure Side {β : Type} (L : ResumeLib β) where
  state : L.State
  /-- The bytes `Write` has accepted. -/
  accepted : List β
  /-- The transport streams, `count` of them; `cur` is the current inner. -/
  inner : ℕ → Inner β
  count : ℕ
  cur : ℕ
  /-- What a `CloseWrite` in progress has captured. -/
  closing : Option ℕ
  /-- The bytes accepted before the first `CloseWrite`. -/
  closed : Option (List β)
  peer : Reader β

inductive Act (β : Type)
  | write (bs : List β)
  | read (n : ℕ)
  | checkpoint (p : ℕ)
  | fail (i : ℕ)
  | closeWrite
  | closeInner
  | openStream (k : Kind)
  | retransmit (i peerAck : ℕ)
  | retransmitErr (i peerAck k : ℕ)
  | swapInner (i : ℕ)
  | giveUp (i : ℕ)
  | peerCapture
  | peerRead (n : ℕ)
  | peerEof
  | peerErr
  | peerSwap (i : ℕ)

variable {β : Type} {L : ResumeLib β}

namespace Side

def setInner (s : Side L) (i : ℕ) (x : Inner β) : Side L :=
  { s with inner := Function.update s.inner i x }

/-- `SwapInner` of a stream. What `MigrateToDirect` installs begins with what is written next. -/
def install (s : Side L) (i : ℕ) : Side L :=
  { s.setInner i { s.inner i with
      start := (s.inner i).start.or (some s.accepted.length)
      installed := true
      late := s.closed.isSome } with
    cur := i }

/-- The stream can be installed. -/
def ready (s : Side L) (i : ℕ) : Bool :=
  i < s.count && !(s.inner i).installed && !(s.inner i).refused &&
    ((s.inner i).kind == .announces || (s.inner i).start.isSome)

/-- The gap can be retransmitted. -/
def awaits (s : Side L) (i peerAck : ℕ) : Bool :=
  i < s.count && (s.inner i).kind == .retransmits && (s.inner i).start.isNone &&
    !(s.inner i).installed && !(s.inner i).refused && peerAck ≤ s.peer.returned.length

/-- The bytes of a stream that the peer has not taken. -/
def unread (s : Side L) (i : ℕ) : List β := (s.inner i).data.drop (s.peer.taken i)

/-- The peer's `Read` takes `n` bytes off the stream `i`. -/
def takes (s : Side L) (i n : ℕ) : Side L :=
  { s with peer := { s.peer with
      taken := Function.update s.peer.taken i (s.peer.taken i + n)
      call := none
      returned := s.peer.returned ++ (s.unread i).take n } }

end Side

/-- The capture of `CloseWrite`. -/
def beginClose (s : Side L) : Side L :=
  { s with
    closing := some s.cur
    closed := s.closed <|> some s.accepted }

def step (s : Side L) : Act β → Option (Side L)
  | .write bs =>
    if s.closing = none ∧ (s.inner s.cur).fin = false ∧ (s.inner s.cur).broken = false then
      some { s.setInner s.cur { s.inner s.cur with data := (s.inner s.cur).data ++ bs } with
        state := L.onWrite s.state bs
        accepted := s.accepted ++ bs }
    else none
  | .read n => some { s with state := L.onRead s.state n }
  | .checkpoint p => some { s with state := L.onCheckpointFromPeer s.state p }
  | .fail i => some (s.setInner i { s.inner i with broken := true })
  | .closeWrite => if s.closing = none then some (beginClose s) else none
  | .closeInner =>
    match s.closing with
    | some i =>
      -- On a broken stream `CloseWrite` returns an error.
      let x := if (s.inner i).broken then s.inner i else { s.inner i with fin := true }
      some { s.setInner i x with closing := none }
    | none => none
  | .openStream k => some { s.setInner s.count { kind := k } with count := s.count + 1 }
  | .retransmit i peerAck =>
    if s.awaits i peerAck = true then
      match L.retransmitFrom s.state peerAck with
      | some gap => some (s.setInner i { s.inner i with start := some peerAck, data := gap })
      | none => some (s.setInner i { s.inner i with refused := true })
    else none
  | .retransmitErr i peerAck k =>
    if s.awaits i peerAck = true then
      match L.retransmitFrom s.state peerAck with
      | some gap => some (s.setInner i { s.inner i with
          start := some peerAck, data := gap.take k, refused := true })
      | none => none
    else none
  | .swapInner i => if s.ready i = true then some (s.install i) else none
  | .giveUp i =>
    if i < s.count ∧ (s.inner i).installed = false ∧ (s.inner i).start = none then
      some (s.setInner i { s.inner i with refused := true })
    else none
  | .peerCapture =>
    match s.peer.call with
    | none => some { s with peer := { s.peer with call := some s.peer.cur } }
    | some _ => none
  | .peerRead n =>
    match s.peer.call with
    | some i => if 0 < n ∧ n ≤ (s.unread i).length then some (s.takes i n) else none
    | none => none
  | .peerEof =>
    match s.peer.call with
    | some i =>
      if s.unread i = [] ∧ ((s.inner i).fin || (s.inner i).refused) = true then
        some { s with peer := { s.peer with call := none, eof := true } }
      else none
    | none => none
  | .peerErr =>
    match s.peer.call with
    | some i =>
      -- The stream has failed, or was cancelled when it was replaced.
      if (s.inner i).broken = true ∨ i ≠ s.peer.cur then
        some { s with peer := { s.peer with call := none } }
      else none
    | none => none
  | .peerSwap i =>
    if i < s.count then some { s with peer := { s.peer with cur := i } } else none

def machine (L : ResumeLib β) : Machine (Side L) (Act β) where
  init :=
    { state := L.newState
      accepted := []
      inner := fun i =>
        if i = 0 then { kind := .retransmits, start := some 0, installed := true }
        else { kind := .retransmits }
      count := 1
      cur := 0
      closing := none
      closed := none
      peer := ⟨0, fun _ => 0, none, [], false⟩ }
  step := step

/-- What a step does, with its guards. -/
inductive Moves (s : Side L) : Act β → Side L → Prop
  | write (bs : List β) (hidle : s.closing = none) (hfin : (s.inner s.cur).fin = false)
      (hbroken : (s.inner s.cur).broken = false) : Moves s (.write bs)
      { s.setInner s.cur { s.inner s.cur with data := (s.inner s.cur).data ++ bs } with
        state := L.onWrite s.state bs
        accepted := s.accepted ++ bs }
  | read (n : ℕ) : Moves s (.read n) { s with state := L.onRead s.state n }
  | checkpoint (p : ℕ) :
      Moves s (.checkpoint p) { s with state := L.onCheckpointFromPeer s.state p }
  | fail (i : ℕ) : Moves s (.fail i) (s.setInner i { s.inner i with broken := true })
  | closeWrite (hidle : s.closing = none) : Moves s .closeWrite (beginClose s)
  | closeInner {i : ℕ} (hi : s.closing = some i) : Moves s .closeInner
      { s.setInner i (if (s.inner i).broken then s.inner i else { s.inner i with fin := true }) with
        closing := none }
  | openStream (k : Kind) : Moves s (.openStream k)
      { s.setInner s.count { kind := k } with count := s.count + 1 }
  | retransmit (i peerAck : ℕ) {gap : List β} (hawaits : s.awaits i peerAck = true)
      (hgap : L.retransmitFrom s.state peerAck = some gap) : Moves s (.retransmit i peerAck)
      (s.setInner i { s.inner i with start := some peerAck, data := gap })
  | evicted (i peerAck : ℕ) (hawaits : s.awaits i peerAck = true)
      (hgap : L.retransmitFrom s.state peerAck = none) : Moves s (.retransmit i peerAck)
      (s.setInner i { s.inner i with refused := true })
  | retransmitErr (i peerAck k : ℕ) {gap : List β} (hawaits : s.awaits i peerAck = true)
      (hgap : L.retransmitFrom s.state peerAck = some gap) : Moves s (.retransmitErr i peerAck k)
      (s.setInner i { s.inner i with
        start := some peerAck, data := gap.take k, refused := true })
  | swapInner (i : ℕ) (hready : s.ready i = true) : Moves s (.swapInner i) (s.install i)
  | giveUp (i : ℕ) (hlt : i < s.count) (hout : (s.inner i).installed = false)
      (hstart : (s.inner i).start = none) :
      Moves s (.giveUp i) (s.setInner i { s.inner i with refused := true })
  | peerCapture (hcall : s.peer.call = none) : Moves s .peerCapture
      { s with peer := { s.peer with call := some s.peer.cur } }
  | peerRead (n : ℕ) {i : ℕ} (hcall : s.peer.call = some i) (hpos : 0 < n)
      (hle : n ≤ (s.unread i).length) : Moves s (.peerRead n) (s.takes i n)
  | peerEof {i : ℕ} (hcall : s.peer.call = some i) (hall : s.unread i = [])
      (hend : ((s.inner i).fin || (s.inner i).refused) = true) : Moves s .peerEof
      { s with peer := { s.peer with call := none, eof := true } }
  | peerErr {i : ℕ} (hcall : s.peer.call = some i) : Moves s .peerErr
      { s with peer := { s.peer with call := none } }
  | peerSwap (i : ℕ) (hlt : i < s.count) : Moves s (.peerSwap i)
      { s with peer := { s.peer with cur := i } }

theorem step_moves {s s' : Side L} {a : Act β} (h : step s a = some s') : Moves s a s' := by
  cases a with
  | write bs =>
    obtain ⟨⟨hidle, hfin, hbroken⟩, h⟩ := Option.ite_none_right_eq_some.mp h
    cases h
    exact .write bs hidle hfin hbroken
  | read n =>
    cases h
    exact .read n
  | checkpoint p =>
    cases h
    exact .checkpoint p
  | fail i =>
    cases h
    exact .fail i
  | closeWrite =>
    obtain ⟨hidle, h⟩ := Option.ite_none_right_eq_some.mp h
    cases h
    exact .closeWrite hidle
  | closeInner =>
    simp only [step] at h
    split at h
    · rename_i hi
      cases h
      exact .closeInner hi
    · cases h
  | openStream k =>
    cases h
    exact .openStream k
  | retransmit i peerAck =>
    obtain ⟨hawaits, h⟩ := Option.ite_none_right_eq_some.mp h
    split at h
    · rename_i hgap
      cases h
      exact .retransmit i peerAck hawaits hgap
    · rename_i hgap
      cases h
      exact .evicted i peerAck hawaits hgap
  | retransmitErr i peerAck k =>
    obtain ⟨hawaits, h⟩ := Option.ite_none_right_eq_some.mp h
    split at h
    · rename_i hgap
      cases h
      exact .retransmitErr i peerAck k hawaits hgap
    · cases h
  | swapInner i =>
    obtain ⟨hready, h⟩ := Option.ite_none_right_eq_some.mp h
    cases h
    exact .swapInner i hready
  | giveUp i =>
    obtain ⟨⟨hlt, hout, hstart⟩, h⟩ := Option.ite_none_right_eq_some.mp h
    cases h
    exact .giveUp i hlt hout hstart
  | peerCapture =>
    simp only [step] at h
    split at h
    · rename_i hcall
      cases h
      exact .peerCapture hcall
    · cases h
  | peerRead n =>
    simp only [step] at h
    split at h
    · rename_i hcall
      obtain ⟨⟨hpos, hle⟩, h⟩ := Option.ite_none_right_eq_some.mp h
      cases h
      exact .peerRead n hcall hpos hle
    · cases h
  | peerEof =>
    simp only [step] at h
    split at h
    · rename_i hcall
      obtain ⟨⟨hall, hend⟩, h⟩ := Option.ite_none_right_eq_some.mp h
      cases h
      exact .peerEof hcall hall hend
    · cases h
  | peerErr =>
    simp only [step] at h
    split at h
    · rename_i hcall
      obtain ⟨-, h⟩ := Option.ite_none_right_eq_some.mp h
      cases h
      exact .peerErr hcall
    · cases h
  | peerSwap i =>
    obtain ⟨hlt, h⟩ := Option.ite_none_right_eq_some.mp h
    cases h
    exact .peerSwap i hlt

/-! ## The condition and the property -/

/-- The first byte of the stream is the next the peer is to read, if that is settled. -/
def Side.continues (s : Side L) (i : ℕ) : Bool :=
  match (s.inner i).start with
  | some st => st == s.peer.returned.length
  | none => true

/-- No inner is installed after `CloseWrite`, and none with a gap that is no longer complete. As
soon as the peer reads a replacement and its first byte is settled, that byte is the next the peer
is to read; the peer does not move to a stream that was refused, and none that it reads is; and its
`Read` gets nothing off a stream that it has replaced. -/
def orderly (s : Side L) : Act β → Bool
  | .swapInner i =>
    s.closed.isNone &&
      match (s.inner i).start with
      | some st => st + (s.inner i).data.length == s.accepted.length
      | none => s.peer.cur != i || s.accepted.length == s.peer.returned.length
  | .retransmit i peerAck =>
    s.peer.cur != i ||
      (peerAck == s.peer.returned.length && (L.retransmitFrom s.state peerAck).isSome)
  | .retransmitErr i _ _ | .giveUp i => s.peer.cur != i
  | .peerSwap i => !(s.inner i).refused && s.continues i
  | .peerRead _ | .peerEof => s.peer.call == some s.peer.cur
  | _ => true

/-- What a half-close means at both ends. -/
structure Survives (s : Side L) : Prop where
  /-- Every inner installed since `CloseWrite`, and every one whose write side is closed, has its
  write side closed after exactly the bytes accepted before the call. -/
  closed : ∀ w, s.closed = some w → ∀ i, (s.inner i).late = true ∨ (s.inner i).fin = true →
    (s.inner i).fin = true ∧ ∃ st, (s.inner i).start = some st ∧ (s.inner i).data = w.drop st
  /-- The peer gets `io.EOF` after exactly these bytes. -/
  eof : s.peer.eof = true → s.closed = some s.peer.returned
  /-- Once `CloseWrite` is through, a peer that reads the current inner has the rest of these bytes
  in front of it, and then the end, unless the inner is broken. -/
  next : ∀ w, s.closed = some w → s.closing = none → (s.inner s.cur).broken = false →
    s.peer.cur = s.cur →
    (s.inner s.cur).fin = true ∧ s.peer.returned ++ s.unread s.cur = w

/-! ## Orderly runs -/

/-- What is known of a stream `x`, the `i`-th, in an orderly run. -/
structure Carries (s : Side L) (i : ℕ) (x : Inner β) : Prop where
  fresh : s.count ≤ i → x.start = none
  /-- It carries what was accepted, from where it starts. -/
  window : ∀ st, x.start = some st → st ≤ s.accepted.length ∧ x.data <+: s.accepted.drop st
  unset : x.start = none → x.data = [] ∧ s.peer.taken i = 0
  past : ∀ st, x.start = some st → s.peer.taken i ≠ 0 →
    st + s.peer.taken i ≤ s.peer.returned.length
  late : x.late = false
  fin : x.fin = true → i = s.cur ∧ s.closed.isSome
  current : i = s.cur → x.installed = true ∧
    ∃ st, x.start = some st ∧ st + x.data.length = s.accepted.length
  ended : i = s.cur → s.closed.isSome → s.closing = none → x.fin = true ∨ x.broken = true
  /-- What the peer reads was not refused, and continues what it has read. -/
  peer : i = s.peer.cur → x.refused = false ∧
    ∀ st, x.start = some st → s.peer.returned.length = st + s.peer.taken i

/-- The invariant of the runs whose steps are `orderly`. -/
structure Intact (s : Side L) : Prop where
  tracks : ∃ r, L.Tracks s.state s.accepted r
  ordered : s.peer.returned <+: s.accepted
  bound : s.cur < s.count ∧ s.peer.cur < s.count
  carries : ∀ i, Carries s i (s.inner i)
  closing : ∀ i, s.closing = some i → i = s.cur ∧ s.closed.isSome
  closed : ∀ w, s.closed = some w → s.accepted = w
  eof : s.peer.eof = true → s.closed.isSome ∧ s.peer.returned = s.accepted

/-- The current inner carries all from where it starts. -/
theorem Intact.data_cur {s : Side L} (h : Intact s) :
    ∃ st, (s.inner s.cur).start = some st ∧ (s.inner s.cur).data = s.accepted.drop st := by
  obtain ⟨-, st, hst, hlen⟩ := (h.carries s.cur).current rfl
  obtain ⟨-, hpre⟩ := (h.carries s.cur).window st hst
  exact ⟨st, hst, hpre.eq_of_length (by rw [List.length_drop]; omega)⟩

/-- What the peer has not taken off its inner continues what it has read. -/
theorem Intact.unread_prefix {s : Side L} (h : Intact s) {st : ℕ}
    (hst : (s.inner s.peer.cur).start = some st) :
    s.unread s.peer.cur <+: s.accepted.drop s.peer.returned.length := by
  obtain ⟨-, hpre⟩ := (h.carries s.peer.cur).window st hst
  rw [((h.carries s.peer.cur).peer rfl).2 st hst, ← List.drop_drop]
  exact hpre.drop _

/-- When the peer reads the current inner, that is all there is left. -/
theorem Intact.unread_cur {s : Side L} (h : Intact s) (hcur : s.cur = s.peer.cur) :
    s.peer.returned ++ s.unread s.cur = s.accepted := by
  obtain ⟨st, hst, hdata⟩ := h.data_cur
  have hpos := ((h.carries s.cur).peer hcur).2 st hst
  have hread : s.accepted.take s.peer.returned.length = s.peer.returned :=
    (List.prefix_iff_eq_take.mp h.ordered).symm
  rw [Side.unread, hdata, List.drop_drop, ← hpos]
  nth_rewrite 1 [← hread]
  exact List.take_append_drop _ _

theorem Intact.survives {s : Side L} (h : Intact s) : Survives s where
  closed w hclosed i hi := by
    have hfin : (s.inner i).fin = true := hi.resolve_left (by simp [(h.carries i).late])
    obtain ⟨rfl, -⟩ := (h.carries i).fin hfin
    obtain ⟨st, hst, hdata⟩ := h.data_cur
    exact ⟨hfin, st, hst, h.closed w hclosed ▸ hdata⟩
  eof heof := by
    obtain ⟨hsome, hall⟩ := h.eof heof
    obtain ⟨w, hw⟩ := Option.isSome_iff_exists.mp hsome
    rw [hw, hall, h.closed w hw]
  next w hclosed hidle hbroken hcur := by
    have hend := (h.carries s.cur).ended rfl (by simp [hclosed]) hidle
    exact ⟨hend.resolve_right (by simp [hbroken]), h.closed w hclosed ▸ h.unread_cur hcur.symm⟩

theorem intact_init : Intact (machine L).init := by
  refine ⟨⟨0, .new⟩, List.prefix_rfl, ⟨Nat.one_pos, Nat.one_pos⟩, fun i => ?_, nofun, nofun, nofun⟩
  rcases eq_or_ne i 0 with rfl | hne
  · refine ⟨nofun, fun st hst => ?_, nofun, fun _ _ h => absurd rfl h, rfl, nofun,
      fun _ => ⟨rfl, 0, rfl, rfl⟩, fun _ => nofun, fun _ => ⟨rfl, fun st hst => ?_⟩⟩
    · obtain rfl : 0 = st := Option.some.inj hst
      exact ⟨Nat.le_refl _, List.prefix_rfl⟩
    · obtain rfl : 0 = st := Option.some.inj hst
      rfl
  · have hnew : (machine L).init.inner i = { kind := .retransmits } := if_neg hne
    rw [hnew]
    exact ⟨fun _ => rfl, nofun, fun _ => ⟨rfl, rfl⟩, nofun, rfl, nofun, fun h => absurd h hne,
      fun _ => nofun, fun h => absurd h hne⟩

variable {s : Side L}

@[simp] theorem setInner_self (i : ℕ) (x : Inner β) : (s.setInner i x).inner i = x :=
  Function.update_self ..

/-- What holds of the changed stream and of the others holds of every stream. -/
theorem forall_setInner {i : ℕ} {x : Inner β} {P : ℕ → Inner β → Prop} (hi : P i x)
    (ho : ∀ j, j ≠ i → P j (s.inner j)) : ∀ j, P j ((s.setInner i x).inner j) := by
  intro j
  rcases eq_or_ne j i with rfl | hne
  · rwa [setInner_self]
  · rw [show (s.setInner i x).inner j = s.inner j from Function.update_of_ne hne ..]
    exact ho j hne

/-- To change one stream, only that stream has to be looked at. -/
theorem Intact.setInner (h : Intact s) {i : ℕ} {x : Inner β} (hx : Carries s i x) :
    Intact (s.setInner i x) := by
  refine ⟨h.tracks, h.ordered, h.bound, fun j => ?_, h.closing, h.closed, h.eof⟩
  have hj : Carries s j ((s.setInner i x).inner j) :=
    forall_setInner (P := Carries s) hx (fun j _ => h.carries j) j
  exact ⟨hj.fresh, hj.window, hj.unset, hj.past, hj.late, hj.fin, hj.current, hj.ended, hj.peer⟩

/-- The steps that change neither the streams nor what was accepted, returned and closed. -/
theorem Intact.frame (h : Intact s) {state : L.State} {call : Option ℕ}
    (htracks : ∃ r, L.Tracks state s.accepted r) :
    Intact { s with state := state, peer := { s.peer with call := call } } := by
  refine ⟨htracks, h.ordered, h.bound, fun i => ?_, h.closing, h.closed, h.eof⟩
  have hi := h.carries i
  exact ⟨hi.fresh, hi.window, hi.unset, hi.past, hi.late, hi.fin, hi.current, hi.ended, hi.peer⟩

/-- `Write` is accepted only while `CloseWrite` has not been called. -/
theorem intact_write (h : Intact s) (bs : List β) (hidle : s.closing = none)
    (hfin : (s.inner s.cur).fin = false) (hbroken : (s.inner s.cur).broken = false) :
    Intact { s.setInner s.cur { s.inner s.cur with data := (s.inner s.cur).data ++ bs } with
      state := L.onWrite s.state bs
      accepted := s.accepted ++ bs } := by
  have hopen : s.closed = none := by
    by_contra hne
    have := (h.carries s.cur).ended rfl (Option.isSome_iff_ne_none.mpr hne) hidle
    simp [hfin, hbroken] at this
  obtain ⟨r, htracks⟩ := h.tracks
  obtain ⟨st, hst, hdata⟩ := h.data_cur
  -- What was written before stays where it was.
  have hwindow (j t : ℕ) (ht : (s.inner j).start = some t) : t ≤ (s.accepted ++ bs).length ∧
      (s.inner j).data <+: (s.accepted ++ bs).drop t := by
    obtain ⟨hle, hpre⟩ := (h.carries j).window t ht
    rw [List.length_append, List.drop_append_of_le_length hle]
    exact ⟨Nat.le_add_right_of_le hle, hpre.trans (List.prefix_append _ _)⟩
  refine ⟨⟨r, .write bs htracks⟩, h.ordered.trans (List.prefix_append _ _), h.bound,
    fun j => forall_setInner (s := s) (i := s.cur) (P := Carries _) ?_ (fun j hj => ?_) j,
    h.closing, fun w hw => absurd (hopen.symm.trans hw) (by simp), fun heof => ?_⟩
  · have hx := h.carries s.cur
    have hle := (hx.window st hst).1
    have hall : (s.inner s.cur).data ++ bs = (s.accepted ++ bs).drop st := by
      rw [hdata, List.drop_append_of_le_length hle]
    refine ⟨hx.fresh, fun st' hst' => ?_, fun hunset => ?_, hx.past, hx.late, hx.fin,
      fun _ => ⟨(hx.current rfl).1, st, hst, ?_⟩, hx.ended, hx.peer⟩
    · obtain rfl : st = st' := Option.some.inj (hst.symm.trans hst')
      exact ⟨(hwindow _ st hst).1, hall ▸ List.prefix_rfl⟩
    · exact absurd (hst.symm.trans hunset) (by simp)
    · simp only [hall, List.length_drop, List.length_append]
      omega
  · have hx := h.carries j
    exact ⟨hx.fresh, hwindow j, hx.unset, hx.past, hx.late, hx.fin, fun hi => absurd hi hj,
      fun hi => absurd hi hj, hx.peer⟩
  · have := (h.eof heof).1
    simp [hopen] at this

theorem intact_fail (h : Intact s) (i : ℕ) :
    Intact (s.setInner i { s.inner i with broken := true }) := by
  have hx := h.carries i
  exact h.setInner ⟨hx.fresh, hx.window, hx.unset, hx.past, hx.late, hx.fin, hx.current,
    fun _ _ _ => .inr rfl, hx.peer⟩

theorem intact_closeInner (h : Intact s) {i : ℕ} (hi : s.closing = some i) :
    Intact { s.setInner i (if (s.inner i).broken then s.inner i
      else { s.inner i with fin := true }) with closing := none } := by
  obtain ⟨rfl, hsome⟩ := h.closing i hi
  have hx := h.carries s.cur
  refine ⟨h.tracks, h.ordered, h.bound,
    fun j => forall_setInner (s := s) (i := s.cur) (P := Carries _) ?_ (fun j hj => ?_) j, nofun,
    h.closed, h.eof⟩
  · by_cases hb : (s.inner s.cur).broken = true
    · rw [if_pos hb]
      exact ⟨hx.fresh, hx.window, hx.unset, hx.past, hx.late, hx.fin, hx.current,
        fun _ _ _ => .inr hb, hx.peer⟩
    · rw [if_neg hb]
      exact ⟨hx.fresh, hx.window, hx.unset, hx.past, hx.late, fun _ => ⟨rfl, hsome⟩, hx.current,
        fun _ _ _ => .inl rfl, hx.peer⟩
  · have hy := h.carries j
    exact ⟨hy.fresh, hy.window, hy.unset, hy.past, hy.late, hy.fin, hy.current,
      fun hi => absurd hi hj, hy.peer⟩

theorem intact_beginClose (h : Intact s) : Intact (beginClose s) := by
  have hsome : (beginClose s).closed.isSome := by cases hc : s.closed <;> simp [beginClose, hc]
  refine ⟨h.tracks, h.ordered, h.bound, fun i => ?_, fun i hi => ?_, fun w hw => ?_,
    fun heof => ⟨hsome, (h.eof heof).2⟩⟩
  · have hx := h.carries i
    exact ⟨hx.fresh, hx.window, hx.unset, hx.past, hx.late, fun hfin => ⟨(hx.fin hfin).1, hsome⟩,
      hx.current, fun _ _ => nofun, hx.peer⟩
  · cases hi
    exact ⟨rfl, hsome⟩
  · cases hold : s.closed with
    | none => simpa [beginClose, hold] using hw
    | some w' => exact h.closed w (by simpa [beginClose, hold] using hw)

/-- A new stream is neither side's inner. -/
theorem intact_openStream (h : Intact s) (k : Kind) :
    Intact { s.setInner s.count { kind := k } with count := s.count + 1 } := by
  obtain ⟨hcur, hpeer⟩ := h.bound
  have hnew := h.carries s.count
  refine ⟨h.tracks, h.ordered, ⟨Nat.lt_succ_of_lt hcur, Nat.lt_succ_of_lt hpeer⟩,
    fun j => forall_setInner (s := s) (i := s.count) (P := Carries _) ?_ (fun j hj => ?_) j,
    h.closing, h.closed, h.eof⟩
  · exact ⟨fun _ => rfl, nofun, fun _ => ⟨rfl, (hnew.unset (hnew.fresh (Nat.le_refl _))).2⟩, nofun,
      rfl, nofun, fun hi => absurd hi (Nat.ne_of_gt hcur), fun hi => absurd hi (Nat.ne_of_gt hcur),
      fun hi => absurd hi (Nat.ne_of_gt hpeer)⟩
  · have hx := h.carries j
    exact ⟨fun hi => hx.fresh (Nat.le_of_succ_le hi), hx.window, hx.unset, hx.past, hx.late, hx.fin,
      hx.current, hx.ended, hx.peer⟩

/-- The gap, or a part of it, is written on a stream that waits for it. -/
theorem intact_gap (hL : L.Lawful) (h : Intact s) {i peerAck : ℕ} {gap data : List β} {bad : Bool}
    (hawaits : s.awaits i peerAck = true) (hgap : L.retransmitFrom s.state peerAck = some gap)
    (hdata : data <+: gap)
    (hpeer : s.peer.cur = i → peerAck = s.peer.returned.length ∧ bad = false) :
    Intact (s.setInner i
      { s.inner i with start := some peerAck, data := data, refused := bad }) := by
  simp only [Side.awaits, Bool.and_eq_true, decide_eq_true_eq, Option.isNone_iff_eq_none] at hawaits
  obtain ⟨⟨⟨⟨⟨hlt, -⟩, hunset⟩, -⟩, -⟩, hack⟩ := hawaits
  obtain ⟨r, htracks⟩ := h.tracks
  have hle : peerAck ≤ s.accepted.length := Nat.le_trans hack h.ordered.length_le
  have hx := h.carries i
  -- The current inner has its first byte, so this is another one, and nothing was taken off it.
  have hcur : i ≠ s.cur := by
    intro hi
    obtain ⟨-, st, hst, -⟩ := hx.current hi
    exact absurd (hst.symm.trans hunset) (by simp)
  have htaken := (hx.unset hunset).2
  refine h.setInner ⟨fun hi => absurd hlt (Nat.not_lt.mpr hi), fun st hst => ?_, nofun,
    fun _ _ hne => absurd htaken hne, hx.late, hx.fin, fun hi => absurd hi hcur,
    fun hi => absurd hi hcur, fun hi => ⟨(hpeer hi.symm).2, fun st hst => ?_⟩⟩
  · obtain rfl : peerAck = st := Option.some.inj hst
    exact ⟨hle, hL.retransmit_eq htracks hle hgap ▸ hdata⟩
  · obtain rfl : peerAck = st := Option.some.inj hst
    rw [htaken]
    exact (hpeer hi.symm).1.symm

/-- A stream that the peer does not read is refused. -/
theorem intact_refuse (h : Intact s) {i : ℕ} (hne : s.peer.cur ≠ i) :
    Intact (s.setInner i { s.inner i with refused := true }) := by
  have hx := h.carries i
  exact h.setInner ⟨hx.fresh, hx.window, hx.unset, hx.past, hx.late, hx.fin, hx.current, hx.ended,
    fun hi => absurd hi.symm hne⟩

/-- Before `CloseWrite`, an inner that carries all from where it starts may be installed. -/
theorem intact_install (h : Intact s) {i : ℕ} (hready : s.ready i = true)
    (he : orderly s (.swapInner i) = true) : Intact (s.install i) := by
  simp only [orderly, Bool.and_eq_true, Option.isNone_iff_eq_none] at he
  obtain ⟨hopen, he⟩ := he
  simp only [Side.ready, Bool.and_eq_true, decide_eq_true_eq] at hready
  have hlt : i < s.count := hready.1.1.1
  have hnot (P : Prop) : s.closed.isSome → P := by simp [hopen]
  have hx := h.carries i
  refine ⟨h.tracks, h.ordered, ⟨hlt, h.bound.2⟩,
    fun j => forall_setInner (s := s) (i := i) (P := Carries _) ?_ (fun j hj => ?_) j,
    fun j hj => hnot _ (h.closing j hj).2, h.closed, h.eof⟩
  · cases hstart : (s.inner i).start with
    | none =>
      -- What is written next is the first byte; a peer that is here first has read all before it.
      obtain ⟨hnil, htaken⟩ := hx.unset hstart
      have hread : i = s.peer.cur → s.peer.returned.length = s.accepted.length := by
        rw [hstart] at he
        simp only [Bool.or_eq_true, bne_iff_ne, beq_iff_eq] at he
        exact fun hi => (he.resolve_left fun hne => hne hi.symm).symm
      refine ⟨fun hi => absurd hlt (Nat.not_lt.mpr hi), fun st hst => ?_, nofun,
        fun _ _ hne => absurd htaken hne, by simp [hopen], fun hfin => hnot _ (hx.fin hfin).2,
        fun _ => ⟨rfl, _, rfl, by simp [hnil, Side.install, Side.setInner]⟩, fun _ => hnot _,
        fun hi => ⟨(hx.peer hi).1, fun st hst => ?_⟩⟩
      · obtain rfl : s.accepted.length = st := Option.some.inj hst
        exact ⟨Nat.le_refl _, by simp [hnil]⟩
      · obtain rfl : s.accepted.length = st := Option.some.inj hst
        simpa [Side.install, Side.setInner, htaken] using hread hi
    | some st =>
      rw [hstart] at he
      have hlen := beq_iff_eq.mp he
      have hsame : (some st).or (some s.accepted.length) = (s.inner i).start := hstart.symm
      rw [hsame]
      exact ⟨hx.fresh, hx.window, hx.unset, hx.past, by simp [hopen],
        fun hfin => hnot _ (hx.fin hfin).2, fun _ => ⟨rfl, st, hstart, hlen⟩, fun _ => hnot _,
        hx.peer⟩
  · have hy := h.carries j
    exact ⟨hy.fresh, hy.window, hy.unset, hy.past, hy.late, fun hfin => hnot _ (hy.fin hfin).2,
      fun hi => absurd hi hj, fun hi => absurd hi hj, hy.peer⟩

/-- The peer reads on. -/
theorem intact_peerRead (h : Intact s) {n : ℕ} (hpos : 0 < n)
    (hle : n ≤ (s.unread s.peer.cur).length) : Intact (s.takes s.peer.cur n) := by
  obtain ⟨st, hst⟩ : ∃ st, (s.inner s.peer.cur).start = some st := by
    cases hstart : (s.inner s.peer.cur).start with
    | some st => exact ⟨st, rfl⟩
    | none =>
      have hnil := ((h.carries s.peer.cur).unset hstart).1
      simp only [Side.unread, hnil, List.drop_nil, List.length_nil] at hle
      omega
  have hlen : ((s.unread s.peer.cur).take n).length = n := List.length_take_of_le hle
  have hread : s.peer.returned ++ (s.unread s.peer.cur).take n <+: s.accepted := by
    have hpre := (List.take_prefix n _).trans (h.unread_prefix hst)
    obtain ⟨rest, hrest⟩ := h.ordered
    rw [← hrest, List.drop_left] at hpre
    rw [← hrest]
    exact (List.prefix_append_right_inj _).mpr hpre
  have htaken : (s.takes s.peer.cur n).peer.taken s.peer.cur = s.peer.taken s.peer.cur + n :=
    Function.update_self ..
  have hreturned : (s.takes s.peer.cur n).peer.returned.length = s.peer.returned.length + n := by
    simp only [Side.takes, List.length_append, hlen]
  refine ⟨h.tracks, hread, h.bound, fun i => ?_, h.closing, h.closed, fun heof => ?_⟩
  · have hx := h.carries i
    by_cases hi : i = s.peer.cur
    · subst hi
      have hpeer := (hx.peer rfl).2
      refine ⟨hx.fresh, hx.window, fun hunset => absurd (hst.symm.trans hunset) (by simp),
        fun st' hst' _ => ?_, hx.late, hx.fin, hx.current, hx.ended,
        fun _ => ⟨(hx.peer rfl).1, fun st' hst' => ?_⟩⟩
      · rw [htaken, hreturned, hpeer st' hst']
        omega
      · rw [htaken, hreturned, hpeer st' hst']
        omega
    · have hsame : (s.takes s.peer.cur n).peer.taken i = s.peer.taken i :=
        Function.update_of_ne hi ..
      refine ⟨hx.fresh, hx.window, fun hunset => hsame ▸ hx.unset hunset, fun st' hst' hne => ?_,
        hx.late, hx.fin, hx.current, hx.ended, fun hp => absurd hp hi⟩
      rw [hsame] at hne ⊢
      rw [hreturned]
      exact Nat.le_add_right_of_le (hx.past st' hst' hne)
  · -- After the end there is nothing left to read.
    obtain ⟨-, hall⟩ := h.eof heof
    have := hread.length_le
    rw [List.length_append, hlen, hall] at this
    omega

/-- The peer finds the end of its inner. -/
theorem intact_peerEof (h : Intact s) (hall : s.unread s.peer.cur = [])
    (hend : ((s.inner s.peer.cur).fin || (s.inner s.peer.cur).refused) = true) :
    Intact { s with peer := { s.peer with call := none, eof := true } } := by
  have hx := h.carries s.peer.cur
  have hfin : (s.inner s.peer.cur).fin = true := by simpa [(hx.peer rfl).1] using hend
  obtain ⟨hcur, hsome⟩ := hx.fin hfin
  have hread := h.unread_cur hcur.symm
  rw [← hcur, hall, List.append_nil] at hread
  refine ⟨h.tracks, h.ordered, h.bound, fun i => ?_, h.closing, h.closed, fun _ => ⟨hsome, hread⟩⟩
  have hi := h.carries i
  exact ⟨hi.fresh, hi.window, hi.unset, hi.past, hi.late, hi.fin, hi.current, hi.ended, hi.peer⟩

/-- The peer moves to a stream that continues what it has read. -/
theorem intact_peerSwap (h : Intact s) {i : ℕ} (hlt : i < s.count)
    (hrefused : (s.inner i).refused = false) (hcont : s.continues i = true) :
    Intact { s with peer := { s.peer with cur := i } } := by
  refine ⟨h.tracks, h.ordered, ⟨h.bound.1, hlt⟩, fun j => ?_, h.closing, h.closed, h.eof⟩
  have hx := h.carries j
  refine ⟨hx.fresh, hx.window, hx.unset, hx.past, hx.late, hx.fin, hx.current, hx.ended, ?_⟩
  rintro rfl
  refine ⟨hrefused, fun st hst => ?_⟩
  have hst : (s.inner j).start = some st := hst
  have hpos : st = s.peer.returned.length := by simpa [Side.continues, hst] using hcont
  -- Nothing was taken off it before, or the peer would have read further than its first byte.
  have hzero : s.peer.taken j = 0 := by
    by_contra hne
    have := hx.past st hst hne
    omega
  simp [hzero, hpos]

theorem intact_step (hL : L.Lawful) {a : Act β} {s' : Side L} (h : Intact s)
    (he : orderly s a = true) (hm : Moves s a s') : Intact s' := by
  obtain ⟨r, htracks⟩ := h.tracks
  cases hm with
  | write bs hidle hfin hbroken => exact intact_write h bs hidle hfin hbroken
  | read n => exact h.frame ⟨r + n, .read n htracks⟩
  | checkpoint p => exact h.frame ⟨r, .checkpoint p htracks⟩
  | fail i => exact intact_fail h i
  | closeWrite => exact intact_beginClose h
  | closeInner hi => exact intact_closeInner h hi
  | openStream k => exact intact_openStream h k
  | retransmit i peerAck hawaits hgap =>
    simp only [orderly, Bool.or_eq_true, bne_iff_ne, Bool.and_eq_true, beq_iff_eq] at he
    exact intact_gap hL h hawaits hgap List.prefix_rfl fun hi =>
      ⟨(he.resolve_left fun hne => hne hi).1, ((h.carries i).peer hi.symm).1⟩
  | evicted i peerAck hawaits hgap =>
    have hne : s.peer.cur ≠ i := by simpa [orderly, hgap] using he
    exact intact_refuse h hne
  | retransmitErr i peerAck k hawaits hgap =>
    have hne : s.peer.cur ≠ i := by simpa [orderly] using he
    exact intact_gap hL h hawaits hgap (List.take_prefix k _) fun hi => absurd hi hne
  | swapInner i hready => exact intact_install h hready he
  | giveUp i =>
    have hne : s.peer.cur ≠ i := by simpa [orderly] using he
    exact intact_refuse h hne
  | peerCapture => exact h.frame h.tracks
  | peerRead n hcall hpos hle =>
    obtain rfl : _ = s.peer.cur := by simpa [orderly, hcall] using he
    exact intact_peerRead h hpos hle
  | peerEof hcall hall hend =>
    obtain rfl : _ = s.peer.cur := by simpa [orderly, hcall] using he
    exact intact_peerEof h hall hend
  | peerErr => exact h.frame h.tracks
  | peerSwap i hlt =>
    simp only [orderly, Bool.and_eq_true, Bool.not_eq_true'] at he
    exact intact_peerSwap h hlt he.1 he.2

theorem intact_of_orderly (hL : L.Lawful)
    (h : (machine L).ReachWhile (fun s a => orderly s a = true) s) : Intact s :=
  Machine.ReachWhile.invariant (M := machine L) intact_init
    (fun _ _ _ _ hi he hs => intact_step hL hi he (step_moves hs)) h

/-! ## The peer's `Read` gets to the end -/

/-- A `Read` on a stream whose write side is closed returns the rest of it, and the next one
`io.EOF`. -/
theorem reads_to_eof {i : ℕ} (hcur : s.peer.cur = i) (hcall : s.peer.call = some i)
    (hfin : (s.inner i).fin = true) : ∃ s', (machine L).ReachFrom s s' ∧ s'.peer.eof = true ∧
      s'.peer.returned = s.peer.returned ++ s.unread i := by
  by_cases hnil : s.unread i = []
  · refine ⟨{ s with peer := { s.peer with call := none, eof := true } },
      Machine.reachFrom_of_run [.peerEof] ?_, rfl, by simp [hnil]⟩
    simp [Machine.run, machine, step, hcall, hnil, hfin]
  · have hpos : 0 < (s.unread i).length := List.length_pos_of_ne_nil hnil
    set t := s.takes i (s.unread i).length with ht
    have hdone : t.unread i = [] := by
      simp only [ht, Side.takes, Side.unread, Function.update_self, List.drop_eq_nil_iff,
        List.length_drop]
      omega
    refine ⟨{ t with peer := { t.peer with call := none, eof := true } },
      Machine.reachFrom_of_run [.peerRead (s.unread i).length, .peerCapture, .peerEof] ?_, rfl, ?_⟩
    · have hread : step s (.peerRead (s.unread i).length) = some t := by
        simp [step, hcall, hpos, ht]
      have hcapture : step t .peerCapture =
          some { t with peer := { t.peer with call := some i } } := by
        simp [step, ht, Side.takes, hcur]
      have hend : step { t with peer := { t.peer with call := some i } } .peerEof =
          some { t with peer := { t.peer with call := none, eof := true } } := by
        have hfin' : (t.inner i).fin = true := hfin
        have hdone' : ({ t with peer := { t.peer with call := some i } } : Side L).unread i = [] :=
          hdone
        simp [step, hdone', hfin']
      simp [Machine.run, machine, hread, hcapture, hend]
    · simp [ht, Side.takes]

/-- So a peer that reads such a stream gets there, whatever its `Read` is at. -/
theorem reaches_eof {i : ℕ} (hcur : s.peer.cur = i) (hfin : (s.inner i).fin = true) :
    ∃ s', (machine L).ReachFrom s s' ∧ s'.peer.eof = true ∧
      s'.peer.returned = s.peer.returned ++ s.unread i := by
  -- A `Read` on a stream that was replaced is cancelled; then the next one captures the inner.
  have hcapture (t : Side L) (htcur : t.peer.cur = i) (htfin : (t.inner i).fin = true)
      (hnone : t.peer.call = none) : ∃ s', (machine L).ReachFrom t s' ∧ s'.peer.eof = true ∧
        s'.peer.returned = t.peer.returned ++ t.unread i := by
    obtain ⟨s', hreach, hend⟩ :=
      reads_to_eof (s := { t with peer := { t.peer with call := some t.peer.cur } }) htcur
        (by simp [htcur]) htfin
    refine ⟨s', .trans (Machine.reachFrom_of_run [.peerCapture] ?_) hreach, hend⟩
    simp [Machine.run, machine, step, hnone]
  cases hcall : s.peer.call with
  | none => exact hcapture s hcur hfin hcall
  | some j =>
    by_cases hj : j = i
    · exact reads_to_eof hcur (hcall.trans (congrArg some hj)) hfin
    · obtain ⟨s', hreach, hend⟩ :=
        hcapture { s with peer := { s.peer with call := none } } hcur hfin rfl
      refine ⟨s', .trans (Machine.reachFrom_of_run [.peerErr] ?_) hreach, hend⟩
      simp [Machine.run, machine, step, hcall, hcur, hj]

/-! ## After `CloseWrite` -/

/-- Only an installed stream has its write side closed. -/
structure Opened (s : Side L) : Prop where
  cur : (s.inner s.cur).installed = true
  fresh : ∀ i, s.count ≤ i → (s.inner i).installed = false
  closing : ∀ i, s.closing = some i → (s.inner i).installed = true
  fin : ∀ i, (s.inner i).fin = true → (s.inner i).installed = true

/-- A change of one stream that leaves it as installed and as closed as it was. -/
theorem Opened.setInner (h : Opened s) {i : ℕ} {x : Inner β}
    (hinst : x.installed = (s.inner i).installed)
    (hfin : x.fin = true → (s.inner i).installed = true) : Opened (s.setInner i x) := by
  have hall : ∀ j, ((s.setInner i x).inner j).installed = (s.inner j).installed :=
    forall_setInner (P := fun j y => y.installed = (s.inner j).installed) hinst fun _ _ => rfl
  refine ⟨(hall _).trans h.cur, fun j hj => (hall j).trans (h.fresh j hj),
    fun j hj => (hall j).trans (h.closing j hj), fun j hj => (hall j).trans ?_⟩
  exact forall_setInner (P := fun j y => y.fin = true → (s.inner j).installed = true) hfin
    (fun j _ => h.fin j) j hj

theorem opened_step {a : Act β} {s' : Side L} (h : Opened s) (hm : Moves s a s') : Opened s' := by
  cases hm with
  | write bs =>
    have := h.setInner (i := s.cur)
      (x := { s.inner s.cur with data := (s.inner s.cur).data ++ bs }) rfl (h.fin _)
    exact ⟨this.cur, this.fresh, this.closing, this.fin⟩
  | fail i => exact h.setInner rfl (h.fin i)
  | closeWrite =>
    refine ⟨h.cur, h.fresh, fun i hi => ?_, h.fin⟩
    cases hi
    exact h.cur
  | @closeInner i hi =>
    have := h.setInner (i := i)
      (x := if (s.inner i).broken then s.inner i else { s.inner i with fin := true })
      (by split <;> rfl) fun _ => h.closing i hi
    exact ⟨this.cur, this.fresh, nofun, this.fin⟩
  | openStream k =>
    have hnew := h.fresh s.count (Nat.le_refl _)
    have := h.setInner (i := s.count) (x := { kind := k }) hnew.symm nofun
    exact ⟨this.cur, fun i hi => this.fresh i (Nat.le_of_succ_le hi), this.closing, this.fin⟩
  | retransmit i peerAck => exact h.setInner rfl (h.fin i)
  | evicted i peerAck => exact h.setInner rfl (h.fin i)
  | retransmitErr i peerAck k => exact h.setInner rfl (h.fin i)
  | swapInner i hready =>
    simp only [Side.ready, Bool.and_eq_true, decide_eq_true_eq] at hready
    have hkept : ∀ j, (s.inner j).installed = true → ((s.install i).inner j).installed = true :=
      forall_setInner (P := fun j y => (s.inner j).installed = true → y.installed = true)
        (fun _ => rfl) fun _ _ h => h
    refine ⟨by simp [Side.install], ?_, fun j hj => hkept j (h.closing j hj), ?_⟩
    · exact forall_setInner (P := fun j y => s.count ≤ j → y.installed = false)
        (fun hi => absurd hready.1.1.1 (Nat.not_lt.mpr hi)) fun j _ => h.fresh j
    · exact forall_setInner (P := fun j y => y.fin = true → y.installed = true) (fun _ => rfl)
        fun j _ => h.fin j
  | giveUp i => exact h.setInner rfl (h.fin i)
  | read | checkpoint | peerCapture | peerRead | peerEof | peerErr | peerSwap =>
    exact ⟨h.cur, h.fresh, h.closing, h.fin⟩

theorem opened_reach (h : (machine L).Reach s) : Opened s := by
  refine Machine.Reach.invariant (M := machine L) ⟨rfl, fun i hi => ?_, nofun, fun i hi => ?_⟩
    (fun _ _ _ hi hs => opened_step hi (step_moves hs)) h
  · simp [machine, Nat.ne_of_gt (Nat.lt_of_succ_le hi)]
  · rcases eq_or_ne i 0 with rfl | hne <;> simp_all [machine]

/-- **The half-close survives as long as no transport is installed after it.** In an orderly run
the write side of the inner that `CloseWrite` closes ends after exactly the bytes written before
the call, no other inner is current since, and the peer's `Read` returns `io.EOF` after exactly
these bytes and no others; a peer that reads the inner gets there. A `SwapInner` after a
`CloseWrite` always installs an inner whose write side is open. -/
theorem half_close_survives (hL : L.Lawful) :
    (∀ s, (machine L).ReachWhile (fun s a => orderly s a = true) s →
      Survives s ∧
      ∀ w, s.closed = some w → s.closing = none → (s.inner s.cur).broken = false →
        s.peer.cur = s.cur →
        ∃ s', (machine L).ReachFrom s s' ∧ s'.peer.eof = true ∧ s'.peer.returned = w) ∧
    (∀ s i s', (machine L).Reach s → s.closed.isSome → (machine L).step s (.swapInner i) = some s' →
      ¬ Survives s') := by
  refine ⟨fun s h => ?_, fun s i s' h hclosed hst hsurv => ?_⟩
  · have hsurv := (intact_of_orderly hL h).survives
    refine ⟨hsurv, fun w hclosed hidle hbroken hcur => ?_⟩
    obtain ⟨hfin, hrest⟩ := hsurv.next w hclosed hidle hbroken hcur
    exact hrest ▸ reaches_eof hcur hfin
  · obtain ⟨w, hc⟩ := Option.isSome_iff_exists.mp hclosed
    have hm : Moves s (.swapInner i) s' := step_moves hst
    cases hm with
    | swapInner _ hready =>
      have hlate : ((s.install i).inner i).late = true := by simp [Side.install, hclosed]
      have hfin := (hsurv.closed w hc i (.inl hlate)).1
      simp only [Side.install, setInner_self] at hfin
      simp only [Side.ready, Bool.and_eq_true, Bool.not_eq_true'] at hready
      exact absurd ((opened_reach h).fin i hfin) (by simp [hready.1.1.2])

/-- Two wrappers whose ring holds four bytes. -/
abbrev ringMachine : Machine (Side (ResumeLib.ringLib ℕ 4)) (Act ℕ) :=
  machine (ResumeLib.ringLib ℕ 4)

/-- The relay fails in the middle of a request; it is resumed, completed and half-closed, and the
peer reads it. -/
def request : List (Act ℕ) :=
  [.write [1], .fail 0, .openStream .retransmits, .retransmit 1 0, .swapInner 1, .write [2],
    .closeWrite, .closeInner, .peerSwap 1, .peerCapture, .peerRead 2, .peerCapture, .peerEof]

/-- The peer gets the request, then the end. -/
theorem half_close_survives_request :
    ∃ s, ringMachine.runWhile orderly ringMachine.init request = some s ∧
      (s.inner 1).data = [1, 2] ∧ (s.inner 1).fin = true ∧ s.peer.eof = true ∧
      s.peer.returned = [1, 2] ∧ Survives s := by
  refine ⟨_, rfl, rfl, rfl, rfl, rfl, ?_⟩
  exact ((half_close_survives (ResumeLib.ringLib_lawful ℕ 4)).1 _
    (Machine.reachWhile_of_run (M := ringMachine) request rfl)).1

/-- **A `Resume` loses the half-close, a `MigrateToDirect` the bytes before it.** When the relay
fails after the request, the resumed stream carries the request again and its write side stays
open: the peer's next `Read` never returns. When the stream migrates while the relay still holds
the request, the peer gets `io.EOF` and none of it. -/
theorem half_close_lost :
    (∃ s, ringMachine.run ringMachine.init
        [.write [1, 2], .closeWrite, .closeInner, .fail 0, .openStream .retransmits,
          .retransmit 1 0, .swapInner 1, .peerSwap 1, .peerCapture, .peerRead 2, .peerCapture] =
          some s ∧
      s.closed = some [1, 2] ∧ s.peer.returned = [1, 2] ∧ (s.inner 1).fin = false ∧
      ringMachine.step s .peerEof = none ∧ ¬ Survives s) ∧
    ∃ s, ringMachine.run ringMachine.init
        [.write [1, 2], .openStream .announces, .swapInner 1, .closeWrite, .closeInner,
          .peerSwap 1, .peerCapture, .peerEof] = some s ∧
      s.closed = some [1, 2] ∧ s.peer.returned = [] ∧ s.peer.eof = true ∧ ¬ Survives s := by
  refine ⟨⟨_, rfl, rfl, rfl, rfl, rfl, fun hsurv => ?_⟩, _, rfl, rfl, rfl, rfl, fun hsurv => ?_⟩
  · have hfin := (hsurv.closed [1, 2] rfl 1 (.inl rfl)).1
    cases hfin
  · have hall := hsurv.eof rfl
    cases hall

end OutRelayAgent.Stream
