import Mathlib.Data.List.Basic
import Mathlib.Tactic.Common

/-!
# `lib/resume`: the per-stream byte counters and ring

`resume.State` is not part of this repository: `pkg/session` uses it through `NewState`,
`OnWrite`, `OnRead`, `Sent`, `Received`, `ResumePayload`, `OnCheckpointFromPeer` and
`RetransmitFrom`. It is a parameter here (`ResumeLib`), with what the callers rely on as the
named hypotheses of `Lawful`:

* `Tracks st w r`: `st` is a state reached by writing the bytes `w` and reading `r` bytes, with
  any checkpoints in between. It says how the operations were called, nothing about the state.
* `Sent` is the number of bytes written, `Received` the number read, and `RetransmitFrom p`
  returns exactly the bytes from `p` on, or fails (`resume.ErrBeforeRing`, `none` here) when `p`
  precedes the ring's tail. Nothing is assumed for a `p` past `Sent`.

Positions are `int64` / `uint64` byte counts in the source; they are naturals here.

`ringLib cap` is a ring of `cap` bytes that meets the hypotheses (`ringLib_lawful`). It agrees
with the expectations the repository's tests have of the real one (`OnWrite` evicts the oldest
bytes, `OnCheckpointFromPeer` discards what the peer has).
-/

namespace OutRelayAgent

/-- The operations of `resume.State` that `pkg/session` calls. -/
structure ResumeLib (β : Type) where
  State : Type
  newState : State
  onWrite : State → List β → State
  onRead : State → Nat → State
  onCheckpointFromPeer : State → Nat → State
  sent : State → Nat
  received : State → Nat
  /-- `Ring.Tail()`: the oldest position still held. -/
  ringTail : State → Nat
  /-- `none` is `resume.ErrBeforeRing`. -/
  retransmitFrom : State → Nat → Option (List β)

namespace ResumeLib

variable {β : Type}

/-- `ResumePayload`: `(MyPosition, PeerAckPosition)` of a `STREAM_RESUME`. -/
def resumePayload (L : ResumeLib β) (st : L.State) : Nat × Nat := (L.sent st, L.received st)

/-- `st` is a state after writing `w` and reading `r` bytes. -/
inductive Tracks (L : ResumeLib β) : L.State → List β → Nat → Prop
  | new : Tracks L L.newState [] 0
  | write {st w r} (bs : List β) (h : Tracks L st w r) : Tracks L (L.onWrite st bs) (w ++ bs) r
  | read {st w r} (n : Nat) (h : Tracks L st w r) : Tracks L (L.onRead st n) w (r + n)
  | checkpoint {st w r} (p : Nat) (h : Tracks L st w r) :
      Tracks L (L.onCheckpointFromPeer st p) w r

/-- What `pkg/session` relies on. -/
structure Lawful (L : ResumeLib β) : Prop where
  sent_eq : ∀ {st w r}, L.Tracks st w r → L.sent st = w.length
  received_eq : ∀ {st w r}, L.Tracks st w r → L.received st = r
  retransmit_held : ∀ {st w r p}, L.Tracks st w r → L.ringTail st ≤ p → p ≤ w.length →
    L.retransmitFrom st p = some (w.drop p)
  retransmit_evicted : ∀ {st w r p}, L.Tracks st w r → p < L.ringTail st →
    L.retransmitFrom st p = none

/-- Whatever `RetransmitFrom` returns is the log from that position on. -/
theorem Lawful.retransmit_eq {L : ResumeLib β} (hL : L.Lawful) {st : L.State} {w g : List β}
    {r p : Nat} (h : L.Tracks st w r) (hp : p ≤ w.length) (hg : L.retransmitFrom st p = some g) :
    g = w.drop p := by
  rcases Nat.lt_or_ge p (L.ringTail st) with ht | ht
  · rw [hL.retransmit_evicted h ht] at hg
    exact absurd hg (by simp)
  · rw [hL.retransmit_held h ht hp] at hg
    exact (Option.some.inj hg).symm

/-! ## A ring that meets the hypotheses -/

/-- The bytes `[tail, tail + buf.length)` and the receive counter. -/
structure Ring (β : Type) where
  tail : Nat
  buf : List β
  recv : Nat

/-- Forget the oldest `k` bytes. -/
def Ring.evict (s : Ring β) (k : Nat) : Ring β :=
  { s with tail := s.tail + min k s.buf.length, buf := s.buf.drop k }

/-- A ring of `cap` bytes. -/
def ringLib (β : Type) (cap : Nat) : ResumeLib β where
  State := Ring β
  newState := ⟨0, [], 0⟩
  onWrite s bs :=
    let grown := { s with buf := s.buf ++ bs }
    grown.evict (grown.buf.length - cap)
  onRead s n := { s with recv := s.recv + n }
  onCheckpointFromPeer s p := s.evict (p - s.tail)
  sent s := s.tail + s.buf.length
  received s := s.recv
  ringTail s := s.tail
  retransmitFrom s p := if p < s.tail then none else some (s.buf.drop (p - s.tail))

/-- The ring holds the end of the log. -/
def Ring.Holds (s : Ring β) (w : List β) : Prop :=
  s.tail ≤ w.length ∧ s.buf = w.drop s.tail

theorem Ring.Holds.evict {s : Ring β} {w : List β} (h : s.Holds w) (k : Nat) :
    (s.evict k).Holds w := by
  obtain ⟨hle, hbuf⟩ := h
  have hlen : s.buf.length = w.length - s.tail := by rw [hbuf, List.length_drop]
  refine ⟨?_, ?_⟩
  · simp only [Ring.evict]; omega
  · simp only [Ring.evict]
    rw [hbuf, List.drop_drop]
    by_cases hk : k ≤ s.buf.length
    · rw [← hbuf, Nat.min_eq_left hk]
    · -- past the end both sides are empty
      rw [← hbuf, Nat.min_eq_right (by omega), List.drop_of_length_le (by omega),
        List.drop_of_length_le (by omega)]

theorem ringLib_tracks {cap : Nat} {s : (ringLib β cap).State} {w : List β} {r : Nat}
    (h : (ringLib β cap).Tracks s w r) : Ring.Holds s w ∧ Ring.recv s = r := by
  induction h with
  | new => exact ⟨⟨Nat.le_refl _, rfl⟩, rfl⟩
  | @write st w r bs _ ih =>
    obtain ⟨⟨hle, hbuf⟩, hr⟩ := ih
    refine ⟨Ring.Holds.evict ⟨?_, ?_⟩ _, hr⟩
    · simp only [List.length_append]; omega
    · simp only [hbuf, List.drop_append_of_le_length hle]
  | read n _ ih => exact ⟨ih.1, by rw [← ih.2]; rfl⟩
  | checkpoint p _ ih => exact ⟨ih.1.evict _, ih.2⟩

/-- **The ring meets the hypotheses**, whatever its capacity. -/
theorem ringLib_lawful (β : Type) (cap : Nat) : (ringLib β cap).Lawful where
  sent_eq h := by
    obtain ⟨⟨hle, hbuf⟩, -⟩ := ringLib_tracks h
    simp only [ringLib, hbuf, List.length_drop]
    omega
  received_eq h := (ringLib_tracks h).2
  retransmit_held h ht _ := by
    obtain ⟨⟨-, hbuf⟩, -⟩ := ringLib_tracks h
    have ht' := Nat.not_lt.mpr ht
    simp only [ringLib] at ht' ⊢
    rw [if_neg ht', hbuf, List.drop_drop, Nat.add_sub_cancel' (Nat.not_lt.mp ht')]
  retransmit_evicted _ ht := if_pos ht

end ResumeLib

end OutRelayAgent
